import RlcdDeck.Collections.Entries
import RlcdDeck.Pairing.Marshal
import RlcdDeck.StructuredProvider.Equiv.Strict
import Mathlib.Data.List.Sort

/-!
# The file of a valid state

The strings of a valid state need no escape.  So the file that is written for it is small enough to be
read, and reads back as a state with the same codes, trusts and audit events (`readFileStore_marshal`).
-/

namespace RlcdDeck.Pairing

open AiSnapshot.Companion (decodeString marshalInstant rawObject unmarshalInstant)
open Bytes (isLowerHex)
open Json (PlainText Tree plainChar)
open Json.Tree (Plain member memberUnless ofInt ofNat ofString)

/-! ### Texts -/

theorem plainChar_of_word {c : UInt8} (h : (isLower c || isDigit c || c == 95 || c == 45) = true) :
    plainChar c = true := by
  have hall : ∀ n < 256, (isLower (UInt8.ofNat n) || isDigit (UInt8.ofNat n) ||
      UInt8.ofNat n == 95 || UInt8.ofNat n == 45) = true → plainChar (UInt8.ofNat n) = true := by
    decide +kernel
  have hchar := hall c.toNat c.toNat_lt
  rw [UInt8.ofNat_toNat] at hchar
  exact hchar h

theorem plainChar_of_isLowerHex {c : UInt8} (h : isLowerHex c = true) : plainChar c = true := by
  apply plainChar_of_word
  unfold isLowerHex at h
  simp only [Bool.or_eq_true, decide_eq_true_eq, UInt8.le_iff_toNat_le] at h
  unfold isLower isDigit
  simp only [Bool.or_eq_true, Bool.and_eq_true, decide_eq_true_eq, UInt8.le_iff_toNat_le]
  rcases h with h | h
  · exact .inl (.inl (.inr h))
  · exact .inl (.inl (.inl ⟨h.1, h.2.trans (by decide)⟩))

theorem deviceId_plain {text : Text} (h : deviceIdPattern text = true) :
    PlainText text ∧ text.length ≤ 64 := by
  unfold deviceIdPattern at h
  simp only [Bool.and_eq_true, decide_eq_true_eq, List.all_eq_true] at h
  exact ⟨fun c hc => plainChar_of_word (h.2 c hc), h.1.1.2⟩

theorem hex_plain {text : Text} {length : ℕ}
    (h : (text.length == length && text.all isLowerHex) = true) :
    PlainText text ∧ text.length = length := by
  simp only [Bool.and_eq_true, beq_iff_eq, List.all_eq_true] at h
  exact ⟨fun c hc => plainChar_of_isLowerHex (h.2 c hc), h.1⟩

theorem auditWord_plain {text : Text} (h : auditWordPattern text = true) :
    PlainText text ∧ text.length ≤ 64 := by
  unfold auditWordPattern at h
  simp only [Bool.and_eq_true, decide_eq_true_eq, List.all_eq_true] at h
  refine ⟨fun c hc => plainChar_of_word ?_, h.1.1.2⟩
  rw [h.2 c hc]
  rfl

/-! ### Values

What is written for a part of the state: a plain tree of a certain depth and size, which is read as
the part. -/

/-- The tree is plain, small, and decoded as the value. -/
structure Writes {α : Type} (decode : Tree → Option α) (depth size : ℕ) (t : Tree) (a : α) :
    Prop where
  plain : t.Plain
  depth_le : t.depth ≤ depth
  size_le : t.print.length ≤ size
  decoded : decode t = some a

theorem writes_ofString {s : Text} (h : PlainText s) :
    Writes decodeString 0 (s.length + 2) (ofString s) s where
  plain := Json.Tree.plain_ofString h
  depth_le := Nat.le_refl 0
  size_le := by simp [ofString, Json.Tree.print, Json.escape_plain h]
  decoded := StructuredProvider.decodeString_ofString h

theorem writes_time {time : Time} {t : Tree} (h : timeTree time = some t) :
    Writes decodeTime 0 32 t time := by
  obtain ⟨text, htext, rfl⟩ := Option.map_eq_some_iff.mp h
  obtain ⟨hplain, hlength⟩ := StructuredProvider.marshalInstant_plain htext
  have hwrites := writes_ofString hplain
  refine ⟨hwrites.plain, hwrites.depth_le, hwrites.size_le.trans (by omega), ?_⟩
  rw [ofString, Json.escape_plain hplain, decodeTime, Json.unquote_plainText hplain]
  exact AiSnapshot.Companion.unmarshalInstant_marshal htext

theorem writes_version : Writes decodeInt 0 1 (ofInt 1) 1 where
  plain := Json.Tree.plain_ofNat 1
  depth_le := Nat.le_refl 0
  size_le := by decide +kernel
  decoded := by decide +kernel

/-! ### Structs -/

theorem Writes.simple {α : Type} {decode : Tree → Option α} {depth size : ℕ} {t : Tree} {a : α}
    (h : Writes decode depth size t a) : t.Plain ∧ t.depth ≤ depth := ⟨h.plain, h.depth_le⟩

theorem structMembers_plain {fields : List String} {members : List (Json.Bytes × Tree)}
    (hkeys : ∀ m ∈ members, PlainText m.1) (hfields : ∀ m ∈ members, m.1 ∈ fields.map Json.bytes) :
    structMembers fields (.object members) = some members := by
  unfold structMembers
  rw [StructuredProvider.rawObject_plain hkeys, Option.filter_some, if_pos]
  rw [List.all_eq_true]
  exact fun m hm => List.contains_iff_mem.mpr (hfields m hm)

theorem writes_struct {α : Type} {decode : Tree → Option α} {depth size : ℕ} {a : α}
    (fields names : List String) {members : List (Json.Bytes × Tree)}
    (hnames : members.map Prod.fst = names.map Json.bytes)
    (hfields : (names.all fun name => fields.contains name) = true)
    (hnodup : (names.map Json.bytes).Nodup)
    (hplain : (names.all fun name => (Json.bytes name).all plainChar) = true)
    (hvalues : ∀ m ∈ members, m.2.Plain ∧ m.2.depth ≤ depth)
    (hsize : (members.map fun m => m.1.length + m.2.print.length + 4).sum + 1 ≤ size)
    (hne : members ≠ [])
    (hdecode : structMembers fields (.object members) = some members →
      decode (.object members) = some a) :
    Writes decode (depth + 1) size (.object members) a := by
  have htree := Json.Tree.plain_struct names (hnames ▸ .refl _) hnodup hplain fun m hm => (hvalues m hm).1
  refine ⟨htree, Json.depth_object_le fun m hm => (hvalues m hm).2, ?_, hdecode ?_⟩
  · rwa [Json.length_print_object hne]
  · cases htree with
    | object _ hkeys _ =>
      refine structMembers_plain hkeys fun m hm => ?_
      have hname : m.1 ∈ names.map Json.bytes := hnames ▸ List.mem_map_of_mem hm
      obtain ⟨name, hmem, heq⟩ := List.mem_map.mp hname
      rw [← heq]
      exact List.mem_map_of_mem (List.contains_iff_mem.mp (List.all_eq_true.mp hfields name hmem))

theorem writes_code {key : Text} {code : StoredCode} {t : Tree} (hvalid : validCode key code = true)
    (h : code.tree = some t) : Writes StoredCode.unmarshal 1 249 t code := by
  unfold validCode at hvalid
  simp only [Bool.and_eq_true, beq_iff_eq, bne_iff_ne, Bool.or_eq_true] at hvalid
  obtain ⟨⟨⟨⟨rfl, hverifier⟩, -⟩, -⟩, hdevice⟩ := hvalid
  obtain ⟨issuedAt, hissued, h⟩ := Option.bind_eq_some_iff.mp h
  obtain ⟨expiresAt, hexpires, h⟩ := Option.bind_eq_some_iff.mp h
  obtain rfl := Option.some.inj h
  obtain ⟨hhex, hlength⟩ := hex_plain hverifier
  have wverifier := writes_ofString hhex
  have wissued := writes_time hissued
  have wexpires := writes_time hexpires
  have sverifier := wverifier.size_le
  have sissued := wissued.size_le
  have sexpires := wexpires.size_le
  obtain ⟨verifier, deviceId, issuedTime, expiresTime⟩ := code
  dsimp only at *
  rcases hdevice with rfl | hpattern
  · show Writes _ 1 249 (.object [member "verifier" (ofString verifier),
      member "issued_at" issuedAt, member "expires_at" expiresAt]) _
    refine writes_struct ["verifier", "device_id", "issued_at", "expires_at"]
      ["verifier", "issued_at", "expires_at"] rfl (by decide) (by decide) (by decide) ?_ ?_
      (by simp) fun hmembers => ?_
    · simp only [List.forall_mem_cons]
      exact ⟨wverifier.simple, wissued.simple, wexpires.simple, by simp⟩
    · simp only [member, Json.bytes, String.reduceToList, List.map_cons, List.map_nil,
        List.length_cons, List.length_nil, List.sum_cons, List.sum_nil]
      omega
    · unfold StoredCode.unmarshal
      rw [hmembers]
      show (decodeString (ofString verifier)).bind _ = _
      rw [wverifier.decoded]
      show (decodeTime issuedAt).bind _ = _
      rw [wissued.decoded]
      show (decodeTime expiresAt).bind _ = _
      rw [wexpires.decoded]
      rfl
  · obtain ⟨hdevice, hbound⟩ := deviceId_plain hpattern
    have wdevice := writes_ofString hdevice
    have sdevice := wdevice.size_le
    obtain ⟨c, tail, rfl⟩ : ∃ c tail, deviceId = c :: tail := by
      cases deviceId with
      | nil => cases hpattern
      | cons c tail => exact ⟨c, tail, rfl⟩
    show Writes _ 1 249 (.object [member "verifier" (ofString verifier),
      member "device_id" (ofString (c :: tail)), member "issued_at" issuedAt,
      member "expires_at" expiresAt]) _
    refine writes_struct ["verifier", "device_id", "issued_at", "expires_at"]
      ["verifier", "device_id", "issued_at", "expires_at"] rfl (by decide) (by decide) (by decide)
      ?_ ?_ (by simp) fun hmembers => ?_
    · simp only [List.forall_mem_cons]
      exact ⟨wverifier.simple, wdevice.simple, wissued.simple, wexpires.simple, by simp⟩
    · simp only [member, Json.bytes, String.reduceToList, List.map_cons, List.map_nil,
        List.length_cons, List.length_nil, List.sum_cons, List.sum_nil] at sdevice hbound ⊢
      omega
    · unfold StoredCode.unmarshal
      rw [hmembers]
      show (decodeString (ofString verifier)).bind _ = _
      rw [wverifier.decoded]
      show (decodeString (ofString (c :: tail))).bind _ = _
      rw [wdevice.decoded]
      show (decodeTime issuedAt).bind _ = _
      rw [wissued.decoded]
      show (decodeTime expiresAt).bind _ = _
      rw [wexpires.decoded]
      rfl

theorem writes_trust {key : Text} {trust : StoredTrust} {t : Tree}
    (hvalid : validTrust key trust = true) (h : trust.tree = some t) :
    Writes StoredTrust.unmarshal 1 371 t trust := by
  unfold validTrust at hvalid
  simp only [Bool.and_eq_true, beq_iff_eq, bne_iff_ne] at hvalid
  obtain ⟨⟨⟨⟨⟨rfl, hdevice⟩, hidentity⟩, htoken⟩, hversion⟩, -⟩ := hvalid
  obtain ⟨createdAt, hcreated, h⟩ := Option.bind_eq_some_iff.mp h
  obtain ⟨rotatedAt, hrotated, h⟩ := Option.bind_eq_some_iff.mp h
  obtain rfl := Option.some.inj h
  obtain ⟨hdevicePlain, hdeviceLength⟩ := deviceId_plain hdevice
  obtain ⟨hidentityPlain, hidentityLength⟩ := hex_plain hidentity
  obtain ⟨htokenPlain, htokenLength⟩ := hex_plain htoken
  have wdevice := writes_ofString hdevicePlain
  have widentity := writes_ofString hidentityPlain
  have wtoken := writes_ofString htokenPlain
  have wversion := writes_version
  have wcreated := writes_time hcreated
  have wrotated := writes_time hrotated
  have sdevice := wdevice.size_le
  have sidentity := widentity.size_le
  have stoken := wtoken.size_le
  have sversion := wversion.size_le
  have screated := wcreated.size_le
  have srotated := wrotated.size_le
  have hone : trust.protocolVersion = 1 := hversion
  rw [hone]
  -- The text of the version is not to be computed below.
  generalize ofInt 1 = version at wversion sversion
  refine writes_struct ["device_id", "device_identity_verifier", "token_verifier",
      "protocol_version", "created_at", "rotated_at"] ["device_id", "device_identity_verifier",
      "token_verifier", "protocol_version", "created_at", "rotated_at"] rfl (by decide) (by decide)
      (by decide) ?_ ?_ (by simp) fun hmembers => ?_
  · simp only [List.forall_mem_cons]
    exact ⟨wdevice.simple, widentity.simple, wtoken.simple, wversion.simple, wcreated.simple,
      wrotated.simple, by simp⟩
  · simp only [member, Json.bytes, String.reduceToList, List.map_cons, List.map_nil,
      List.length_cons, List.length_nil, List.sum_cons, List.sum_nil]
    omega
  · unfold StoredTrust.unmarshal
    rw [hmembers]
    show (decodeString (ofString trust.deviceId)).bind _ = _
    rw [wdevice.decoded]
    show (decodeString (ofString trust.deviceIdentityVerifier)).bind _ = _
    rw [widentity.decoded]
    show (decodeString (ofString trust.tokenVerifier)).bind _ = _
    rw [wtoken.decoded]
    show (decodeInt version).bind _ = _
    rw [wversion.decoded]
    show (decodeTime createdAt).bind _ = _
    rw [wcreated.decoded]
    show (decodeTime rotatedAt).bind _ = _
    rw [wrotated.decoded]
    exact congrArg some (by rw [← hone])

theorem writes_audit {event : AuditEvent} {t : Tree} (hvalid : validAudit event = true)
    (h : event.tree = some t) : Writes AuditEvent.unmarshal 1 233 t event := by
  unfold validAudit at hvalid
  simp only [Bool.and_eq_true, beq_iff_eq, bne_iff_ne, Bool.or_eq_true] at hvalid
  obtain ⟨⟨⟨haction, houtcome⟩, -⟩, hdevice⟩ := hvalid
  obtain ⟨occurredAt, hoccurred, h⟩ := Option.bind_eq_some_iff.mp h
  obtain rfl := Option.some.inj h
  obtain ⟨hactionPlain, hactionLength⟩ := auditWord_plain haction
  obtain ⟨houtcomePlain, houtcomeLength⟩ := auditWord_plain houtcome
  have waction := writes_ofString hactionPlain
  have woutcome := writes_ofString houtcomePlain
  have woccurred := writes_time hoccurred
  have saction := waction.size_le
  have soutcome := woutcome.size_le
  have soccurred := woccurred.size_le
  obtain ⟨action, outcome, deviceRef, occurredTime⟩ := event
  dsimp only at *
  rcases hdevice with rfl | hpattern
  · show Writes _ 1 233 (.object [member "action" (ofString action),
      member "outcome" (ofString outcome), member "occurred_at" occurredAt]) _
    refine writes_struct ["action", "outcome", "device_ref", "occurred_at"]
      ["action", "outcome", "occurred_at"] rfl (by decide) (by decide) (by decide) ?_ ?_
      (by simp) fun hmembers => ?_
    · simp only [List.forall_mem_cons]
      exact ⟨waction.simple, woutcome.simple, woccurred.simple, by simp⟩
    · simp only [member, Json.bytes, String.reduceToList, List.map_cons, List.map_nil,
        List.length_cons, List.length_nil, List.sum_cons, List.sum_nil]
      omega
    · unfold AuditEvent.unmarshal
      rw [hmembers]
      show (decodeString (ofString action)).bind _ = _
      rw [waction.decoded]
      show (decodeString (ofString outcome)).bind _ = _
      rw [woutcome.decoded]
      show (decodeTime occurredAt).bind _ = _
      rw [woccurred.decoded]
      rfl
  · obtain ⟨hdevice, hbound⟩ := hex_plain hpattern
    have wdevice := writes_ofString hdevice
    have sdevice := wdevice.size_le
    obtain ⟨c, tail, rfl⟩ : ∃ c tail, deviceRef = c :: tail := by
      cases deviceRef with
      | nil => cases hpattern
      | cons c tail => exact ⟨c, tail, rfl⟩
    show Writes _ 1 233 (.object [member "action" (ofString action),
      member "outcome" (ofString outcome), member "device_ref" (ofString (c :: tail)),
      member "occurred_at" occurredAt]) _
    refine writes_struct ["action", "outcome", "device_ref", "occurred_at"]
      ["action", "outcome", "device_ref", "occurred_at"] rfl (by decide) (by decide) (by decide)
      ?_ ?_ (by simp) fun hmembers => ?_
    · simp only [List.forall_mem_cons]
      exact ⟨waction.simple, woutcome.simple, wdevice.simple, woccurred.simple, by simp⟩
    · simp only [member, Json.bytes, String.reduceToList, List.map_cons, List.map_nil,
        List.length_cons, List.length_nil, List.sum_cons, List.sum_nil] at sdevice hbound ⊢
      omega
    · unfold AuditEvent.unmarshal
      rw [hmembers]
      show (decodeString (ofString action)).bind _ = _
      rw [waction.decoded]
      show (decodeString (ofString outcome)).bind _ = _
      rw [woutcome.decoded]
      show (decodeString (ofString (c :: tail))).bind _ = _
      rw [wdevice.decoded]
      show (decodeTime occurredAt).bind _ = _
      rw [woccurred.decoded]
      rfl

/-! ### Maps -/

section Maps

variable {α : Type} {tree : α → Option Tree} {decode : Tree → Option α} {size : ℕ}
  {entries : AList fun _ : Text => α} {t : Tree}

/-- The member that is written for an entry of a map. -/
def MemberFor (decode : Tree → Option α) (size : ℕ) (entry : Sigma fun _ : Text => α)
    (m : Json.Bytes × Tree) : Prop :=
  m.1 = entry.1 ∧ PlainText m.1 ∧ m.1.length ≤ 64 ∧ Writes decode 1 size m.2 entry.2

theorem writes_members {sorted : List (Sigma fun _ : Text => α)}
    {members : List (Json.Bytes × Tree)}
    (h : List.Forall₂ (MemberFor decode size) sorted members) :
    (∀ m ∈ members, PlainText m.1 ∧ m.1.length ≤ 64 ∧ m.2.Plain ∧ m.2.depth ≤ 1 ∧
        m.2.print.length ≤ size) ∧
      members.map Prod.fst = sorted.map Sigma.fst ∧
      members.mapM (fun m => (decode m.2).map fun a => (⟨m.1, a⟩ : Sigma fun _ : Text => α)) =
        some sorted := by
  induction h with
  | nil => exact ⟨by simp, rfl, rfl⟩
  | @cons entry m sorted members h _ ih =>
    obtain ⟨hkey, hplain, hlength, hwrites⟩ := h
    obtain ⟨hvalid, hnames, hread⟩ := ih
    refine ⟨List.forall_mem_cons.mpr ⟨⟨hplain, hlength, hwrites.plain, hwrites.depth_le,
      hwrites.size_le⟩, hvalid⟩, by rw [List.map_cons, List.map_cons, hkey, hnames], ?_⟩
    rw [List.mapM_cons, hwrites.decoded, hread, hkey]
    rfl

/-- A map, which is read as a map with the same entries. -/
theorem writes_map {capacity : ℕ} (hcapacity : entries.entries.length ≤ capacity)
    (hkeys : ∀ entry ∈ entries.entries, PlainText entry.1 ∧ entry.1.length ≤ 64)
    (hvalues : ∀ entry ∈ entries.entries, ∀ value, tree entry.2 = some value →
      Writes decode 1 size value entry.2)
    (h : mapTree tree entries = some t) :
    ∃ read, Writes (decodeMap decode) 2 (capacity * (64 + size + 4) + 2) t (some read) ∧
      read.entries.Perm entries.entries := by
  obtain ⟨members, hmembers, h⟩ := Option.bind_eq_some_iff.mp h
  obtain rfl := Option.some.inj h
  generalize hsorted : entries.entries.mergeSort (fun a b => !decide (b.1 < a.1)) = sorted
    at hmembers
  have hperm : sorted.Perm entries.entries := hsorted ▸ List.mergeSort_perm _ _
  -- A member and the entry it is written for.
  have hpairs : List.Forall₂ (MemberFor decode size) sorted members := by
    have hforall := (List.forall₂_and_left _ _).mpr
      ⟨fun entry hentry => hperm.mem_iff.mp hentry, Collections.mapM_eq_some.mp hmembers⟩
    refine hforall.imp fun entry m hm => ?_
    obtain ⟨hentry, hm⟩ := hm
    obtain ⟨value, hvalue, rfl⟩ := Option.map_eq_some_iff.mp hm
    obtain ⟨hplain, hlength⟩ := hkeys entry hentry
    refine ⟨Json.escape_plain hplain, ?_, ?_, hvalues entry hentry value hvalue⟩
    · rwa [Json.escape_plain hplain]
    · rwa [Json.escape_plain hplain]
  obtain ⟨hvalid, hnames, hread⟩ := writes_members hpairs
  have hnodup : (sorted.map Sigma.fst).Nodup :=
    (hperm.map Sigma.fst).nodup_iff.mpr entries.nodupKeys
  have hcount : members.length ≤ capacity := by
    have hlength := congrArg List.length hnames
    rw [List.length_map, List.length_map, hperm.length_eq] at hlength
    omega
  have hplain : (Tree.object members).Plain :=
    .object (hnames ▸ hnodup) (fun m hm => (hvalid m hm).1) fun m hm => (hvalid m hm).2.2.1
  have hsize := Json.length_printMembers_le (fun m hm => (hvalid m hm).2.1)
    fun m hm => (hvalid m hm).2.2.2.2
  have hbound := Nat.mul_le_mul_right (64 + size + 4) hcount
  refine ⟨sorted.foldl (fun map entry => map.insert entry.1 entry.2) ∅,
    ⟨hplain, Json.depth_object_le fun m hm => (hvalid m hm).2.2.2.1, ?_, ?_⟩, ?_⟩
  · rw [Tree.print, List.length_append, List.length_cons, List.length_singleton]
    omega
  · rw [decodeMap, StructuredProvider.rawObject_plain fun m hm => (hvalid m hm).1]
    · show Option.bind (members.mapM fun m =>
        (decode m.2).map fun a => (⟨m.1, a⟩ : Sigma fun _ : Text => α)) _ = _
      rw [hread]
      rfl
    · rintro ⟨⟩
  · refine (Collections.entries_foldl_insert hnodup fun entry _ => AList.notMem_empty _).trans ?_
    have hempty : (∅ : AList fun _ : Text => α).entries = [] := rfl
    rw [hempty, List.append_nil]
    exact hperm

end Maps

/-! ### The state -/

/-- The same codes, trusts and audit events; a map has no order. -/
structure FileStoreState.Same (a b : FileStoreState) : Prop where
  codes : a.codes.entries.Perm b.codes.entries
  trusts : a.trusts.entries.Perm b.trusts.entries
  audit : a.audit = b.audit

theorem validate_same {a b : FileStoreState} (h : a.Same b) :
    validateFileStoreState a = validateFileStoreState b := by
  unfold validateFileStoreState
  rw [h.codes.length_eq, h.trusts.length_eq, h.audit, h.codes.all_eq, h.trusts.all_eq]

theorem writes_audits {events : List AuditEvent} {items : List Tree}
    (hvalid : ∀ event ∈ events, validAudit event = true)
    (h : events.mapM AuditEvent.tree = some items) :
    Writes (AiSnapshot.Companion.decodeSlice AuditEvent.unmarshal) 2
      (events.length * (233 + 1) + 2) (.array items) (some events) := by
  obtain ⟨hitems, hlength, hread⟩ : (∀ t ∈ items, t.Plain ∧ t.depth ≤ 1 ∧ t.print.length ≤ 233) ∧
      items.length = events.length ∧ items.mapM AuditEvent.unmarshal = some events := by
    induction Collections.mapM_eq_some.mp h with
    | nil => exact ⟨by simp, rfl, rfl⟩
    | cons htree hrest ih =>
      rw [List.forall_mem_cons] at hvalid
      have hwrites := writes_audit hvalid.1 htree
      obtain ⟨hitems, hlength, hread⟩ := ih hvalid.2 (Collections.mapM_eq_some.mpr hrest)
      refine ⟨List.forall_mem_cons.mpr ⟨⟨hwrites.plain, hwrites.depth_le, hwrites.size_le⟩, hitems⟩,
        congrArg Nat.succ hlength, ?_⟩
      rw [List.mapM_cons, hwrites.decoded, hread]
      rfl
  have hsize := Json.length_printItems_le fun t ht => (hitems t ht).2.2
  rw [hlength] at hsize
  refine ⟨.array fun t ht => (hitems t ht).1, Json.depth_array_le fun t ht => (hitems t ht).2.1,
    ?_, ?_⟩
  · rw [Tree.print, List.length_append, List.length_cons, List.length_singleton]
    omega
  · rw [AiSnapshot.Companion.decodeSlice, hread]
    rfl

/-- A state, which is read as the same state. -/
theorem writes_state {state : FileStoreState} {t : Tree}
    (hvalid : validateFileStoreState state = true) (h : state.tree = some t) :
    ∃ read, Writes FileStoreState.unmarshal 3 maxFileStoreBytes t read ∧ read.Same state := by
  obtain ⟨codes, hcodes, h⟩ := Option.bind_eq_some_iff.mp h
  obtain ⟨trusts, htrusts, h⟩ := Option.bind_eq_some_iff.mp h
  obtain ⟨audit, haudit, h⟩ := Option.bind_eq_some_iff.mp h
  obtain rfl := Option.some.inj h
  unfold validateFileStoreState at hvalid
  simp only [Bool.and_eq_true, decide_eq_true_eq, List.all_eq_true] at hvalid
  obtain ⟨⟨⟨⟨⟨hmaxCodes, hmaxTrusts⟩, hmaxAudit⟩, hvalidCodes⟩, hvalidTrusts⟩, hvalidAudit⟩ := hvalid
  obtain ⟨readCodes, wcodes, hreadCodes⟩ := writes_map hmaxCodes
    (fun entry hentry => by
      have hcode := hvalidCodes entry hentry
      unfold validCode at hcode
      simp only [Bool.and_eq_true] at hcode
      obtain ⟨hplain, hlength⟩ := hex_plain hcode.1.1.1.2
      exact ⟨hplain, hlength.le⟩)
    (fun entry hentry value hvalue => writes_code (hvalidCodes entry hentry) hvalue) hcodes
  obtain ⟨readTrusts, wtrusts, hreadTrusts⟩ := writes_map hmaxTrusts
    (fun entry hentry => by
      have htrust := hvalidTrusts entry hentry
      unfold validTrust at htrust
      simp only [Bool.and_eq_true] at htrust
      exact deviceId_plain htrust.1.1.1.1.2)
    (fun entry hentry value hvalue => writes_trust (hvalidTrusts entry hentry) hvalue) htrusts
  have waudit := writes_audits hvalidAudit haudit
  have wversion : Writes decodeInt 0 1 (ofNat 1) 1 := writes_version
  generalize ofNat 1 = version at wversion
  generalize Tree.array audit = items at waudit
  have sversion := wversion.size_le
  have scodes := wcodes.size_le
  have strusts := wtrusts.size_le
  have saudit := waudit.size_le
  refine ⟨{ codes := readCodes, trusts := readTrusts, audit := state.audit }, ?_,
    hreadCodes, hreadTrusts, rfl⟩
  refine writes_struct ["schema_version", "codes", "trusts", "audit"]
    ["schema_version", "codes", "trusts", "audit"] rfl (by decide) (by decide) (by decide) ?_ ?_
    (by simp) fun hmembers => ?_
  · simp only [List.forall_mem_cons]
    exact ⟨⟨wversion.plain, wversion.depth_le.trans (by decide)⟩, wcodes.simple, wtrusts.simple,
      waudit.simple, by simp⟩
  · unfold maxActiveCodes at scodes
    unfold maxStoredTrusts at strusts
    unfold maxStoredAuditEvents at hmaxAudit
    unfold maxFileStoreBytes
    simp only [member, Json.bytes, String.reduceToList, List.map_cons, List.map_nil,
      List.length_cons, List.length_nil, List.sum_cons, List.sum_nil]
    omega
  · unfold FileStoreState.unmarshal
    rw [hmembers]
    show (decodeInt version).bind _ = _
    rw [wversion.decoded]
    show (decodeMap StoredCode.unmarshal codes).bind _ = _
    rw [wcodes.decoded]
    show (decodeMap StoredTrust.unmarshal trusts).bind _ = _
    rw [wtrusts.decoded]
    show (AiSnapshot.Companion.decodeSlice AuditEvent.unmarshal items).bind _ = _
    rw [waudit.decoded]
    rfl

/-- **What is written for a valid state is read as the same state.** -/
theorem readFileStore_marshal {state : FileStoreState} {contents : Json.Bytes}
    (hvalid : validateFileStoreState state = true) (h : state.marshal = some contents) :
    ∃ read, readFileStore contents = some read ∧ read.Same state := by
  obtain ⟨t, htree, rfl⟩ := Option.map_eq_some_iff.mp h
  obtain ⟨read, hwrites, hsame⟩ := writes_state hvalid htree
  refine ⟨read, ?_, hsame⟩
  unfold readFileStore
  rw [StructuredProvider.strictDocument_print hwrites.plain
    (hwrites.depth_le.trans (by decide)) hwrites.size_le]
  show (FileStoreState.unmarshal t).filter validateFileStoreState = some read
  rw [hwrites.decoded, Option.filter_some, validate_same hsame, hvalid]
  rfl

end RlcdDeck.Pairing
