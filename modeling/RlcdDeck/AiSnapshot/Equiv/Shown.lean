import RlcdDeck.AiSnapshot.Equiv.Projection

/-!
# The texts that are shown

Every text that a projection of an accepted document holds can be shown: its characters are well
formed and none is a control (`shown_pages`, `shown_codex`).
-/

namespace RlcdDeck.AiSnapshot

open Json (Bytes Tree bytes backslash letterU quote unquote hexQuad Body)
open Document (characterSize decodeAscii decodeAsciiLoop decodeStep decodeUtf8 decodeUtf8Loop field
  safeText safeTextLoop stringEquals encodedText)
open Collections

/-! ### Characters -/

/-- A character that is no control: the bytes that its first byte announces. -/
def Shown (text : Bytes) : Prop :=
  ∃ first rest, text = first :: rest ∧ 0x20 ≤ first.toNat ∧
    characterSize first = some (rest.length + 1) ∧ ∀ byte ∈ rest, byte &&& 0xc0 = 0x80

/-- A text of such characters that is not empty. -/
def ShownText (text : Bytes) : Prop :=
  ∃ characters : List Bytes, text = characters.flatten ∧ characters ≠ [] ∧
    ∀ character ∈ characters, Shown character

/-- A text of printable ASCII that is not empty. -/
def PlainAscii (text : Bytes) : Prop :=
  text ≠ [] ∧ ∀ byte ∈ text, 0x20 ≤ byte.toNat ∧ byte.toNat < 0x80

section Characters

variable {first byte : UInt8} {text : Bytes} {point : ℕ}

theorem characterSize_ascii (h : first.toNat < 0x80) : characterSize first = some 1 := by
  have h₂ : ¬ first &&& 0xe0 = 0xc0 := by rw [mask_two]; omega
  have h₃ : ¬ first &&& 0xf0 = 0xe0 := by rw [mask_three]; omega
  have h₄ : ¬ first &&& 0xf8 = 0xf0 := by rw [mask_four]; omega
  have hsmall : ¬ first ≥ 0x80 := by
    rw [ge_iff_le, UInt8.le_iff_toNat_le]
    simp
    omega
  simp [characterSize, h₂, h₃, h₄, hsmall]

theorem characterSize_two (hmin : 0xc0 ≤ first.toNat) (hmax : first.toNat < 0xe0) :
    characterSize first = some 2 := by
  simp [characterSize, (mask_two first).mpr ⟨hmin, hmax⟩]

theorem characterSize_three (hmin : 0xe0 ≤ first.toNat) (hmax : first.toNat < 0xf0) :
    characterSize first = some 3 := by
  have h₂ : ¬ first &&& 0xe0 = 0xc0 := by rw [mask_two]; omega
  simp [characterSize, h₂, (mask_three first).mpr ⟨hmin, hmax⟩]

theorem characterSize_four (hmin : 0xf0 ≤ first.toNat) (hmax : first.toNat < 0xf8) :
    characterSize first = some 4 := by
  have h₂ : ¬ first &&& 0xe0 = 0xc0 := by rw [mask_two]; omega
  have h₃ : ¬ first &&& 0xf0 = 0xe0 := by rw [mask_three]; omega
  simp [characterSize, h₂, h₃, (mask_four first).mpr ⟨hmin, hmax⟩]

theorem tail_iff : byte &&& 0xc0 = 0x80 ↔ 0x80 ≤ byte.toNat ∧ byte.toNat < 0xc0 := by
  have hmask := mask_tail byte
  rw [Utf8.continues] at hmask
  rw [← beq_iff_eq, hmask]
  simp

theorem shown_ascii (hmin : 0x20 ≤ first.toNat) (hmax : first.toNat < 0x80) : Shown [first] :=
  ⟨first, [], rfl, hmin, characterSize_ascii hmax, fun _ h => absurd h List.not_mem_nil⟩

/-- **A code point** that is no control is shown. -/
theorem shown_encode (hmin : 0x20 ≤ point) (hmax : point ≤ 0x10ffff) :
    Shown (Utf8.encode point) := by
  have hnat : ∀ {n : ℕ}, n < 256 → (UInt8.ofNat n).toNat = n := Utf8.toNat_ofNat_of_lt
  have htail : ∀ n : ℕ, n < 64 → UInt8.ofNat (0x80 + n) &&& 0xc0 = 0x80 := by
    intro n hn
    rw [tail_iff, hnat (by omega)]
    omega
  unfold Utf8.encode
  split_ifs with hascii htwo hthree
  · exact shown_ascii (by rw [hnat (by omega)]; omega) (by rw [hnat (by omega)]; omega)
  · refine ⟨_, _, rfl, ?_, characterSize_two ?_ ?_, ?_⟩
    · rw [hnat (by omega)]; omega
    · rw [hnat (by omega)]; omega
    · rw [hnat (by omega)]; omega
    · intro byte hbyte
      obtain rfl := List.mem_singleton.mp hbyte
      exact htail _ (by omega)
  · refine ⟨_, _, rfl, ?_, characterSize_three ?_ ?_, ?_⟩
    · rw [hnat (by omega)]; omega
    · rw [hnat (by omega)]; omega
    · rw [hnat (by omega)]; omega
    · intro byte hbyte
      simp only [List.mem_cons, List.not_mem_nil, or_false] at hbyte
      rcases hbyte with rfl | rfl
      · exact htail _ (by omega)
      · exact htail _ (by omega)
  · refine ⟨_, _, rfl, ?_, characterSize_four ?_ ?_, ?_⟩
    · rw [hnat (by omega)]; omega
    · rw [hnat (by omega)]; omega
    · rw [hnat (by omega)]; omega
    · intro byte hbyte
      simp only [List.mem_cons, List.not_mem_nil, or_false] at hbyte
      rcases hbyte with rfl | rfl | rfl
      · exact htail _ (by omega)
      · exact htail _ (by omega)
      · exact htail _ (by omega)

theorem Shown.ge (h : Shown text) (hbyte : byte ∈ text) : 0x20 ≤ byte.toNat := by
  obtain ⟨first, rest, rfl, hmin, -, htail⟩ := h
  rcases List.mem_cons.mp hbyte with rfl | hbyte
  · exact hmin
  · have hbounds := tail_iff.mp (htail byte hbyte)
    omega

theorem ShownText.ge (h : ShownText text) (hbyte : byte ∈ text) : 0x20 ≤ byte.toNat := by
  obtain ⟨characters, rfl, -, hall⟩ := h
  obtain ⟨character, hmem, hbyte⟩ := List.mem_flatten.mp hbyte
  exact (hall character hmem).ge hbyte

theorem cString_eq_self (h : ∀ byte ∈ text, 0x20 ≤ byte.toNat) : cString text = text := by
  unfold cString
  rw [List.takeWhile_eq_self_iff]
  intro byte hbyte
  have hmin := h byte hbyte
  simp only [ne_eq, decide_eq_true_eq]
  rintro rfl
  exact absurd hmin (by decide)

end Characters

/-! ### Decoded texts -/

section Decoding

variable {c : UInt8} {bs raw s text rest : Bytes} {points : ℕ}

theorem next_le {point : ℕ} (h : (Utf8.next c bs).1 = some point) : point ≤ 0x10ffff := by
  unfold Utf8.next at h
  split_ifs at h with hb
  · obtain rfl := Option.some.inj h
    omega
  · cases hfound : (Utf8.lead c).bind (Utf8.finish · bs) with
    | none =>
      rw [hfound] at h
      cases h
    | some found =>
      rw [hfound] at h
      obtain rfl := Option.some.inj h
      obtain ⟨p, -, hfinish⟩ := Option.bind_eq_some_iff.mp hfound
      obtain ⟨tail, -, -, hscalar, -⟩ := Utf8.finish_bytes hfinish
      simp only [Utf8.scalar, Bool.and_eq_true, decide_eq_true_eq] at hscalar
      exact hscalar.1.2

theorem exists_encode_of_valid (h : validUtf8 (c :: bs) = true) :
    ∃ point tail, point ≤ 0x10ffff ∧ c :: bs = Utf8.encode point ++ tail := by
  rw [validUtf8_eq, Utf8.valid, Option.isSome_iff_exists] at h
  obtain ⟨points, hpoints⟩ := h
  rw [Utf8.decode_cons] at hpoints
  obtain ⟨point, hpoint, -⟩ := Option.bind_eq_some_iff.mp hpoints
  exact ⟨point, _, next_le hpoint, Utf8.encode_of_next hpoint⟩

theorem ge_of_encode {point : ℕ} {tail : Bytes} (heq : c :: bs = Utf8.encode point ++ tail)
    (hmin : 0x20 ≤ c.toNat) : 0x20 ≤ point := by
  by_contra hlt
  rw [Utf8.encode, if_pos (by omega), List.singleton_append] at heq
  rw [(List.cons.inj heq).1, Utf8.toNat_ofNat_of_lt (by omega)] at hmin
  exact hlt hmin

theorem shown_unicode (h : Text (backslash :: letterU :: bs) points)
    (hstep : decodeStep (backslash :: letterU :: bs) = some (text, rest)) : Shown text := by
  obtain ⟨h₁, h₂, h₃, h₄, rest', rfl, hx₁, hx₂, hx₃, hx₄, hbody⟩ := body_of_unicode h.body
  obtain ⟨u, hu⟩ := Json.isSome_hexQuad hx₁ hx₂ hx₃ hx₄
  have hlt := Json.hexQuad_lt hu
  have hcontrol : letterU ∉ bytes "bfnrt" := by decide
  have hplain : ¬(letterU = quote ∨ letterU = backslash ∨ letterU = 0x2f) := by decide
  have hsafe := h.safe
  rw [Document.safeTextLoop_def] at hsafe
  simp only [if_true, if_neg hcontrol, hu] at hsafe
  simp only [decodeStep, ne_eq, not_true_eq_false, if_false, if_neg hplain, hu] at hstep
  split_ifs at hsafe with hhigh hlow hsmall
  · -- a pair of surrogates
    split at hsafe
    · next c' e' l₁ l₂ l₃ l₄ rest'' =>
      split_ifs at hsafe with hpair
      cases hl : hexQuad l₁ l₂ l₃ l₄ with
      | none => simp [hl] at hsafe
      | some l =>
        simp only [hl] at hsafe
        split_ifs at hsafe with hlow
        obtain ⟨hmin, hmax⟩ := Json.combine_bounds hhigh hlow
        have hcombine : 0x10000 + (u - 0xd800) <<< 10 + (l - 0xdc00) = Json.combine u l := by
          have hshift : (u - 0xd800) <<< 10 = (u - 0xd800) * 1024 := Nat.shiftLeft_eq _ 10
          unfold Json.combine
          omega
        simp only [if_pos hhigh, if_pos hpair, hl, if_pos hlow, hcombine, encodedText_eq hmax]
          at hstep
        obtain ⟨rfl, -⟩ := Prod.mk.inj (Option.some.inj hstep)
        exact shown_encode (by omega) hmax
    · cases hsafe
  · simp only [if_neg hhigh, if_neg hlow, encodedText_eq (show u ≤ 0x10ffff by omega)] at hstep
    obtain ⟨rfl, -⟩ := Prod.mk.inj (Option.some.inj hstep)
    refine shown_encode ?_ (by omega)
    simp only [Bool.or_eq_true, decide_eq_true_eq, not_or] at hsmall
    omega

/-- **One character** that `decode_utf8` writes of a text is shown. -/
theorem shown_decodeStep (h : Text (c :: bs) points)
    (hstep : decodeStep (c :: bs) = some (text, rest)) : Shown text := by
  by_cases hc : c = backslash
  · subst hc
    cases bs with
    | nil => cases hstep
    | cons e bs =>
      by_cases hu : e = letterU
      · subst hu
        exact shown_unicode h hstep
      · simp only [decodeStep, ne_eq, not_true_eq_false, if_false] at hstep
        split_ifs at hstep with hplain
        obtain ⟨rfl, -⟩ := Prod.mk.inj (Option.some.inj hstep)
        rcases hplain with rfl | rfl | rfl
        · exact shown_ascii (by decide) (by decide)
        · exact shown_ascii (by decide) (by decide)
        · exact shown_ascii (by decide) (by decide)
  · have hge : 0x20 ≤ c.toNat := by
      cases h.body with
      | plain _ hmin _ _ => exact hmin
      | escape => exact absurd rfl hc
      | unicode => exact absurd rfl hc
    obtain ⟨point, tail, hmax, heq⟩ := exists_encode_of_valid h.valid
    have hshown := shown_encode (ge_of_encode heq hge) hmax
    obtain ⟨first, others, hencode, -, hsize, -⟩ := id hshown
    rw [hencode, List.cons_append] at heq
    obtain ⟨rfl, rfl⟩ := List.cons.inj heq
    simp only [decodeStep, ne_eq, hc, not_false_eq_true, if_true, hsize] at hstep
    split_ifs at hstep
    obtain ⟨rfl, -⟩ := Prod.mk.inj (Option.some.inj hstep)
    rwa [List.take_succ_cons, List.take_left, ← hencode]

/-- **What `decode_utf8` writes** of a text that `safe_text` accepts is shown. -/
theorem shown_decodeUtf8Loop {capacity fuel written : ℕ} (h : Text raw points)
    (hs : decodeUtf8Loop capacity fuel written raw = some s) :
    ∃ characters : List Bytes, s = characters.flatten ∧ (0 < points → characters ≠ []) ∧
      ∀ character ∈ characters, Shown character := by
  induction fuel generalizing raw written points s with
  | zero =>
    cases raw with
    | nil =>
      obtain rfl := Option.some.inj hs
      obtain rfl := Option.some.inj h.safe
      exact ⟨[], rfl, fun hpos => absurd hpos (Nat.lt_irrefl 0), fun _ hmem =>
        absurd hmem List.not_mem_nil⟩
    | cons c bs => cases hs
  | succ fuel ih =>
    cases raw with
    | nil =>
      obtain rfl := Option.some.inj hs
      obtain rfl := Option.some.inj h.safe
      exact ⟨[], rfl, fun hpos => absurd hpos (Nat.lt_irrefl 0), fun _ hmem =>
        absurd hmem List.not_mem_nil⟩
    | cons c bs =>
      rw [decodeUtf8Loop] at hs
      rcases h.step with ⟨hdecoded, -, -⟩ | ⟨text, rest, hcharacter⟩
      · rw [hdecoded] at hs
        cases hs
      · obtain ⟨more, -, hrest⟩ := hcharacter.counted
        have hshown := shown_decodeStep h hcharacter.decoded
        rw [hcharacter.decoded] at hs
        dsimp only at hs
        split_ifs at hs
        obtain ⟨tail, htail, rfl⟩ := Option.map_eq_some_iff.mp hs
        obtain ⟨characters, rfl, -, hall⟩ := ih hrest htail
        refine ⟨text :: characters, rfl, fun _ => List.cons_ne_nil _ _, ?_⟩
        rw [List.forall_mem_cons]
        exact ⟨hshown, hall⟩

/-- **A text that was checked** is shown. -/
theorem shownText_of_decodeUtf8 {t : Option Tree} {capacity maximum : ℕ}
    (hsound : ∀ u, t = some u → Sound u) (hsafe : t.any (safeText maximum) = true)
    (hs : t.bind (decodeUtf8 capacity) = some s) : ShownText (cString (textField capacity s)) := by
  obtain ⟨u, rfl, hs⟩ := Option.bind_eq_some_iff.mp hs
  rw [Option.any_some] at hsafe
  have hsound := hsound u rfl
  cases u with
  | string raw =>
    unfold safeText at hsafe
    dsimp only at hsafe
    split at hsafe
    · cases hsafe
    · next points hpoints =>
      simp only [Bool.and_eq_true, decide_eq_true_eq] at hsafe
      have hmem : raw ∈ (Tree.string raw).strings := List.mem_singleton_self raw
      have htext : Text raw points := ⟨hsound.body raw hmem, hsound.valid raw hmem, hpoints⟩
      obtain ⟨characters, rfl, hne, hall⟩ := shown_decodeUtf8Loop htext hs
      have hshown : ShownText characters.flatten := ⟨characters, rfl, hne hsafe.1, hall⟩
      rw [cString_textField, cString_eq_self fun _ hbyte => hshown.ge hbyte]
      exact hshown
  | _ => cases hs

end Decoding

/-! ### Identifiers -/

section Identifiers

variable {t : Option Tree} {capacity maximum : ℕ} {s : Bytes}

theorem decodeAscii_unique {u : Tree} {larger : ℕ} {s' : Bytes} (hlarger : 0 < larger)
    (hcapacity : 0 < capacity) (h : decodeAscii larger u = some s)
    (h' : decodeAscii capacity u = some s') : s = s' := by
  cases u with
  | string raw =>
    have hunquote := ((decodeAsciiLoop_eq_some hlarger).mp h).1
    have hunquote' := ((decodeAsciiLoop_eq_some hcapacity).mp h').1
    rw [hunquote] at hunquote'
    exact Option.some.inj hunquote'
  | _ => cases h

theorem isLower_bounds {c : UInt8} (h : isLower c = true) : 0x20 ≤ c.toNat ∧ c.toNat < 0x80 := by
  simp only [isLower, Bool.and_eq_true, decide_eq_true_eq] at h
  omega

theorem isUpper_bounds {c : UInt8} (h : isUpper c = true) : 0x20 ≤ c.toNat ∧ c.toNat < 0x80 := by
  simp only [isUpper, Bool.and_eq_true, decide_eq_true_eq] at h
  omega

theorem isDigit_bounds {c : UInt8} (h : Json.isDigit c = true) :
    0x20 ≤ c.toNat ∧ c.toNat < 0x80 := by
  simp only [Json.isDigit, Bool.and_eq_true, decide_eq_true_eq] at h
  omega

theorem plainAscii_of_safeIdentifier (hcapacity : 0 < capacity)
    (hsafe : safeIdentifier t maximum = true) (hs : t.bind (decodeAscii capacity) = some s) :
    PlainAscii (cString (textField capacity s)) := by
  obtain ⟨u, rfl, hs⟩ := Option.bind_eq_some_iff.mp hs
  rw [cString_textField]
  unfold safeIdentifier at hsafe
  dsimp only at hsafe
  split at hsafe
  · cases hsafe
  · next value hvalue =>
    obtain rfl := decodeAscii_unique (by omega) hcapacity hvalue hs
    split at hsafe
    · cases hsafe
    · next first rest hvalue =>
      simp only [Bool.and_eq_true] at hsafe
      rw [hvalue]
      refine ⟨List.cons_ne_nil _ _, ?_⟩
      rw [List.forall_mem_cons]
      refine ⟨isLower_bounds hsafe.1.2, fun byte hbyte => ?_⟩
      have hone := List.all_eq_true.mp hsafe.2 byte hbyte
      simp only [Bool.or_eq_true, beq_iff_eq] at hone
      rcases hone with ((hone | hone) | rfl) | rfl
      · exact isLower_bounds hone
      · exact isDigit_bounds hone
      · decide
      · decide

theorem plainAscii_of_safeOpaqueId (hcapacity : 0 < capacity) (hsafe : safeOpaqueId t = true)
    (hs : t.bind (decodeAscii capacity) = some s) :
    PlainAscii (cString (textField capacity s)) := by
  obtain ⟨u, rfl, hs⟩ := Option.bind_eq_some_iff.mp hs
  rw [cString_textField]
  unfold safeOpaqueId at hsafe
  dsimp only at hsafe
  split at hsafe
  · cases hsafe
  · next value hvalue =>
    obtain rfl := decodeAscii_unique (by omega) hcapacity hvalue hs
    simp only [Bool.and_eq_true, decide_eq_true_eq] at hsafe
    refine ⟨fun hnil => ?_, fun byte hbyte => ?_⟩
    · rw [hnil] at hsafe
      exact absurd hsafe.1.1 (by decide)
    · have hone := List.all_eq_true.mp hsafe.2 byte hbyte
      simp only [Bool.or_eq_true, beq_iff_eq] at hone
      rcases hone with (((hone | hone) | hone) | rfl) | rfl
      · exact isLower_bounds hone
      · exact isUpper_bounds hone
      · exact isDigit_bounds hone
      · decide
      · decide

theorem plainAscii_of_oneOf (hcapacity : 0 < capacity) (hcode : oneOf t errorCodes = true)
    (hs : t.bind (decodeAscii capacity) = some s) :
    PlainAscii (cString (textField capacity s)) := by
  obtain ⟨u, rfl, hs⟩ := Option.bind_eq_some_iff.mp hs
  rw [cString_textField]
  have hcodes : ∀ code ∈ errorCodes, PlainAscii code := by
    intro code hmem
    have hall : (errorCodes.all fun code =>
        !code.isEmpty && code.all fun c => isLower c || c == 0x5f) = true := by rfl
    have hcode := List.all_eq_true.mp hall code hmem
    simp only [Bool.and_eq_true, Bool.not_eq_true'] at hcode
    refine ⟨fun hnil => ?_, fun byte hbyte => ?_⟩
    · rw [hnil] at hcode
      exact absurd hcode.1 (by decide)
    · have hone := List.all_eq_true.mp hcode.2 byte hbyte
      simp only [Bool.or_eq_true, beq_iff_eq] at hone
      rcases hone with hone | rfl
      · exact isLower_bounds hone
      · decide
  obtain ⟨code, hmem, hequals⟩ := List.any_eq_true.mp hcode
  unfold stringEquals at hequals
  split at hequals
  · cases hequals
  · next decoded hdecoded =>
    obtain rfl := decodeAscii_unique (by omega) hcapacity hdecoded hs
    rw [beq_iff_eq] at hequals
    rw [hequals]
    exact hcodes code hmem

end Identifiers

/-! ### Projections -/

/-- Windows that can be shown. -/
def ShownWindows (windows : List QuotaProjection) : Prop :=
  windows.length ≤ 4 ∧ ∀ window ∈ windows, PlainAscii (cString window.name)

/-- A provider that can be shown. -/
structure ShownProvider (provider : ProviderProjection) : Prop where
  providerId : PlainAscii (cString provider.providerId)
  displayName : ShownText (cString provider.displayName)
  windows : ShownWindows provider.windows
  balanceCurrency : provider.balanceAmountMicros.isSome →
    PlainAscii (cString provider.balanceCurrency) ∧ (cString provider.balanceCurrency).length = 3
  errorCode : provider.hasError = true → PlainAscii (cString provider.errorCode)

/-- A session that can be shown. -/
structure ShownSession (session : SessionProjection) : Prop where
  sessionId : PlainAscii (cString session.sessionId)
  displayName : session.hasDisplayName = true → ShownText (cString session.displayName)

/-- A Codex page that can be shown. -/
structure ShownCodex (codex : CodexProjection) : Prop where
  windows : ShownWindows codex.windows
  sessionCount : codex.sessionCount ≤ 255
  featuredSession : codex.featuredSession.present = true → ShownSession codex.featuredSession

section Projections

variable {t root : Tree} {generatedAt : ℕ}

theorem shown_projectWindows {windows : List QuotaProjection} (h : AcceptedProvider t generatedAt)
    (hwindows : (countedItems (field t (bytes "windows"))).mapM projectWindow = some windows) :
    ShownWindows windows := by
  obtain ⟨items, hfield, hcount, haccepted⟩ := h.windows
  rw [countedItems_eq hfield (by omega), mapM_eq_some] at hwindows
  refine ⟨hwindows.length_eq ▸ hcount, fun window hmem => ?_⟩
  obtain ⟨item, hitem, hproject⟩ := exists_mem_of_forall₂ hwindows hmem
  obtain ⟨name, hname, htext⟩ := projectWindow_eq_some hproject
  rw [htext]
  exact plainAscii_of_safeIdentifier (by decide) (haccepted item hitem).name hname

theorem validateProvider_texts {id : Tree} (h : validateProvider t generatedAt = .ok id) :
    safeIdentifier (field t (bytes "provider_id")) 32 = true ∧
      ∀ balance, field t (bytes "balance") = some balance → isNull (some balance) = false →
        ∃ currency, (field balance (bytes "currency")).bind (decodeAscii 4) = some currency ∧
          PlainAscii (cString currency) ∧ (cString currency).length = 3 := by
  simp only [validateProvider, bind_eq_ok, check_eq_ok, present_eq_ok, Bool.and_eq_true] at h
  obtain ⟨-, -, -, -, -, -, -, ⟨⟨⟨⟨⟨⟨⟨hid, -⟩, -⟩, -⟩, -⟩, -⟩, -⟩, -⟩, -, -, balance, hbalance, _,
    hmoney, -⟩ := h
  refine ⟨hid, fun balance' hbalance' hnull => ?_⟩
  rw [hbalance] at hbalance'
  obtain rfl := Option.some.inj hbalance'
  unfold validateMoney at hmoney
  rw [if_neg (by simp [hnull])] at hmoney
  simp only [bind_eq_ok, check_eq_ok, present_eq_ok, beq_iff_eq] at hmoney
  obtain ⟨-, -, currency, hcurrency, -, hlength, hupper⟩ := hmoney
  refine ⟨currency, hcurrency, ⟨fun hnil => ?_, fun byte hbyte => ?_⟩, hlength⟩
  · rw [hnil] at hlength
    cases hlength
  · exact isUpper_bounds (List.all_eq_true.mp hupper byte hbyte)

theorem shown_projectProviderPage {provider : ProviderProjection} {id : Tree}
    (hvalid : validateProvider t generatedAt = .ok id) (hsound : Sound t)
    (h : projectProviderPage t = some provider) : ShownProvider provider := by
  obtain ⟨haccepted, -⟩ := acceptedProvider hvalid
  obtain ⟨hidentifier, hcurrency⟩ := validateProvider_texts hvalid
  have hof := projectProviderPage_eq_some h
  obtain ⟨id', hid, hidField⟩ := hof.providerId
  obtain ⟨name, hname, hnameField⟩ := hof.displayName
  have hbalance := hof.balance
  have hproblem := hof.problem
  constructor
  · rw [hidField]
    exact plainAscii_of_safeIdentifier (by decide) hidentifier hid
  · rw [hnameField]
    exact shownText_of_decodeUtf8 (fun u hu => hsound.field hu) haccepted.displayName hname
  · exact shown_projectWindows haccepted hof.windows
  · intro hsome
    unfold projectBalance at hbalance
    split_ifs at hbalance with hnull
    · rw [← (Prod.mk.inj (Option.some.inj hbalance)).1] at hsome
      cases hsome
    · obtain ⟨money, hmoney, hbalance⟩ := Option.bind_eq_some_iff.mp hbalance
      obtain ⟨amount, -, hbalance⟩ := Option.bind_eq_some_iff.mp hbalance
      obtain ⟨currency, hdecoded, hbalance⟩ := Option.bind_eq_some_iff.mp hbalance
      rw [hmoney, Bool.not_eq_true] at hnull
      obtain ⟨currency', hdecoded', hplain⟩ := hcurrency money hmoney hnull
      have hsame : some currency = some currency' := hdecoded.symm.trans hdecoded'
      obtain rfl := Option.some.inj hsame
      rw [← (Prod.mk.inj (Option.some.inj hbalance)).2]
      rwa [cString_textField]
  · intro hhas
    unfold projectProblem at hproblem
    split_ifs at hproblem with hnull
    · rw [← (Prod.mk.inj (Option.some.inj hproblem)).1] at hhas
      cases hhas
    · obtain ⟨error, herror, hproblem⟩ := Option.bind_eq_some_iff.mp hproblem
      obtain ⟨code, hcode, hproblem⟩ := Option.bind_eq_some_iff.mp hproblem
      obtain ⟨error', herror', hcodes⟩ := haccepted.error
      rw [herror] at herror'
      obtain rfl := Option.some.inj herror'
      rw [herror, Bool.not_eq_true] at hnull
      rw [← (Prod.mk.inj (Option.some.inj hproblem)).2]
      exact plainAscii_of_oneOf (by decide) (hcodes hnull) hcode

theorem shown_projectSession {session : SessionProjection} (h : AcceptedSession t generatedAt)
    (hsound : Sound t) (hproject : projectSession t = some session) : ShownSession session := by
  obtain ⟨-, ⟨id, hid, htext⟩, hname⟩ := projectSession_eq_some hproject
  constructor
  · rw [htext]
    exact plainAscii_of_safeOpaqueId (by decide) h.sessionId hid
  · intro hhas
    unfold nullableText at hname
    split_ifs at hname with hnull
    · rw [← (Prod.mk.inj (Option.some.inj hname)).1] at hhas
      cases hhas
    · obtain ⟨text, hdecoded, hpair⟩ := Option.map_eq_some_iff.mp hname
      rw [← (Prod.mk.inj hpair).2]
      exact shownText_of_decodeUtf8 (fun u hu => hsound.field hu)
        (h.displayName.resolve_left hnull) hdecoded

theorem shown_projectCodexSessions {candidate codex : CodexProjection} {sessions : List Tree}
    (hsessions : ∀ session ∈ sessions, AcceptedSession session generatedAt ∧ Sound session)
    (hcandidate : ShownCodex candidate)
    (h : projectCodexSessions candidate sessions = some codex) : ShownCodex codex := by
  induction sessions generalizing candidate with
  | nil =>
    rw [← Option.some.inj h]
    exact hcandidate
  | cons session sessions ih =>
    rw [List.forall_mem_cons] at hsessions
    rw [projectCodexSessions] at h
    split_ifs at h with hcodex hfull
    · exact ih hsessions.2 hcandidate h
    · obtain ⟨projected, hprojected, h⟩ := Option.bind_eq_some_iff.mp h
      refine ih hsessions.2 ?_ h
      refine ⟨hcandidate.windows, ?_, ?_⟩
      · have hcount := hcandidate.sessionCount
        show candidate.sessionCount + 1 ≤ 255
        omega
      · dsimp only
        split_ifs
        · exact fun _ => shown_projectSession hsessions.1.1 hsessions.1.2 hprojected
        · exact hcandidate.featuredSession

theorem shownCodex_empty (hasTimezone : Bool) (timezone : Bytes) :
    ShownCodex { hasTimezone, timezone } :=
  ⟨⟨Nat.zero_le 4, fun _ hmem => absurd hmem List.not_mem_nil⟩, Nat.zero_le 255, nofun⟩

theorem shown_projectCodex {codex : CodexProjection} (h : AcceptedSnapshot root generatedAt)
    (hsound : Sound root) (hproject : projectCodex root = some codex) : ShownCodex codex := by
  obtain ⟨providers, hproviders, -, hacceptedProviders⟩ := h.providers
  obtain ⟨sessions, hsessions, -, hacceptedSessions, -⟩ := h.sessions
  obtain ⟨timezone, -, hproject⟩ := Option.bind_eq_some_iff.mp hproject
  dsimp only at hproject
  have hempty := shownCodex_empty timezone.1 timezone.2
  rw [hproviders, hsessions] at hproject
  simp only [arrayItems, Option.getD_some] at hproject
  split at hproject
  · rw [← Option.some.inj hproject]
    exact hempty
  · next provider hfind =>
    have hmem := List.mem_of_find?_eq_some hfind
    obtain ⟨candidate, hcandidate, hproject⟩ := Option.bind_eq_some_iff.mp hproject
    refine shown_projectCodexSessions (fun session hmem => ⟨hacceptedSessions session hmem,
      (hsound.field hsessions).item hmem⟩) ?_ hproject
    obtain ⟨-, hwindows, -, hsessions, hfeatured⟩ := projectCodexProvider_eq_some hcandidate
    constructor
    · exact shown_projectWindows (hacceptedProviders provider hmem).1 hwindows
    · rw [hsessions]
      exact hempty.sessionCount
    · rw [hfeatured]
      exact hempty.featuredSession

end Projections

/-! ### Documents -/

section Documents

variable {allocated : Bool} {document : Bytes}

theorem validateProvider_of_validateProviders {generatedAt : ℕ}
    {ids providers order result : List Tree}
    (h : validateProviders generatedAt ids providers order = .ok result) :
    ∀ provider ∈ providers, ∃ id, validateProvider provider generatedAt = .ok id := by
  induction providers generalizing ids order with
  | nil => exact fun provider hmem => absurd hmem List.not_mem_nil
  | cons provider providers ih =>
    cases order with
    | nil => cases h
    | cons ordered order =>
      simp only [validateProviders, bind_eq_ok] at h
      obtain ⟨id, hvalid, -, -, -, -, hrest⟩ := h
      rw [List.forall_mem_cons]
      exact ⟨⟨id, hvalid⟩, ih hrest⟩

theorem exists_document {α : Type} {project : Tree → Option α} {a : α}
    (h : projectDocument project allocated document = some a) :
    ∃ root metadata, project root = some a ∧ Sound root ∧ validateSnapshot root = .ok metadata := by
  unfold projectDocument at h
  split at h
  · cases h
  · next metadata hvalid =>
    split_ifs at h
    obtain ⟨root, hroot, hproject⟩ := Option.bind_eq_some_iff.mp h
    simp only [deckAiSnapshotValidate, bind_eq_ok, check_eq_ok, present_eq_ok, Bool.and_eq_true]
      at hvalid
    obtain ⟨-, ⟨-, hutf8⟩, -, -, root', hroot', -, -, hvalid⟩ := hvalid
    rw [hroot] at hroot'
    obtain rfl := Option.some.inj hroot'
    exact ⟨root, metadata, hproject, sound_of_parse hroot hutf8, hvalid⟩

/-- **The pages** of an accepted document can be shown. -/
theorem shown_pages {pages : PagesProjection}
    (h : deckAiSnapshotProjectPages allocated document = some pages) :
    pages.providers.length ≤ 8 ∧ ∀ provider ∈ pages.providers, ShownProvider provider := by
  obtain ⟨root, metadata, hproject, hsound, hvalid⟩ := exists_document h
  simp only [validateSnapshot, bind_eq_ok, check_eq_ok, present_eq_ok, Bool.and_eq_true,
    Bool.or_eq_true, decide_eq_true_eq] at hvalid
  obtain ⟨-, -, -, -, minor, -, -, -, -, -, -, -, generatedAt, -, -, -, -, -, order, -, providers,
    hproviders, sessions, -, -, ⟨⟨hcount, -⟩, -⟩, providerIds, hvalidProviders, -⟩ := hvalid
  have hfield := arrayItems_eq_some hproviders
  obtain ⟨timezone, -, hproject⟩ := Option.bind_eq_some_iff.mp hproject
  obtain ⟨projected, hprojected, hproject⟩ := Option.bind_eq_some_iff.mp hproject
  rw [countedItems_eq hfield (by omega), mapM_eq_some] at hprojected
  rw [← Option.some.inj hproject]
  refine ⟨hprojected.length_eq ▸ hcount, fun provider hmem => ?_⟩
  obtain ⟨item, hitem, hone⟩ := exists_mem_of_forall₂ hprojected hmem
  obtain ⟨id, hvalid⟩ := validateProvider_of_validateProviders hvalidProviders item hitem
  exact shown_projectProviderPage hvalid ((hsound.field hfield).item hitem) hone

/-- **The Codex page** of an accepted document can be shown. -/
theorem shown_codex {codex : CodexProjection}
    (h : deckAiSnapshotProjectCodex allocated document = some codex) : ShownCodex codex := by
  obtain ⟨root, metadata, hproject, hsound, hvalid⟩ := exists_document h
  obtain ⟨generatedAt, haccepted⟩ := acceptedSnapshot hvalid
  exact shown_projectCodex haccepted hsound hproject

end Documents

end RlcdDeck.AiSnapshot
