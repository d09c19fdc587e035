import RlcdDeck.AiSnapshot.Projection

/-!
# What an accepted document has

Each `validate_` function of `deck_ai_snapshot.cpp`, read backwards: what its acceptance says of
the fields that the projections read.
-/

namespace RlcdDeck.AiSnapshot

open Json (Bytes Tree bytes)
open Document (decodeAscii stringEquals field safeText)

/-! ### Checks in a row -/

variable {α : Type}

theorem bind_eq_ok {β : Type} {x : Except Rejection α} {f : α → Except Rejection β} {b : β} :
    x >>= f = .ok b ↔ ∃ a, x = .ok a ∧ f a = .ok b := by
  cases x with
  | ok a =>
    constructor
    · exact fun h => ⟨a, rfl, h⟩
    · rintro ⟨a', ha, h⟩
      cases ha
      exact h
  | error e =>
    constructor
    · intro h
      cases h
    · rintro ⟨a, ha, -⟩
      cases ha

theorem check_eq_ok {condition : Bool} {rejection : Rejection} {u : Unit} :
    check condition rejection = .ok u ↔ condition = true := by
  unfold check
  split_ifs with h
  · simp [h]
  · simp [h]

theorem present_eq_ok {o : Option α} {a : α} : present o = .ok a ↔ o = some a := by
  cases o <;> simp [present]

/-! ### Parts of a provider -/

/-- A window that `validate_window` accepts. -/
structure AcceptedWindow (t : Tree) : Prop where
  name : safeIdentifier (field t (bytes "name")) 24 = true
  used : (nullableUnsigned (field t (bytes "used_basis_points")) 0 10000).isSome
  remaining : (nullableUnsigned (field t (bytes "remaining_basis_points")) 0 10000).isSome
  minutes : (nullableUnsigned (field t (bytes "window_minutes")) 1 525600).isSome
  resetsAt : (nullableTime (field t (bytes "resets_at")) (2 ^ 64 - 1)).isSome

variable {t : Tree} {minor : ℕ}

theorem acceptedWindow (h : validateWindow t minor = .ok ()) :
    AcceptedWindow t := by
  simp only [validateWindow, bind_eq_ok, check_eq_ok, present_eq_ok] at h
  obtain ⟨-, -, -, -, -, hname, used, hused, remaining, hremaining, minutes, hminutes, resetsAt,
    hresetsAt, -⟩ := h
  constructor
  · exact hname
  · rw [hused]
    rfl
  · rw [hremaining]
    rfl
  · rw [hminutes]
    rfl
  · rw [hresetsAt]
    rfl

/-- A balance that `validate_money` accepts. -/
structure AcceptedMoney (t : Tree) : Prop where
  amount : (unsignedBetween (field t (bytes "amount_micros")) 0 maximumSafeInteger).isSome
  currency : ((field t (bytes "currency")).bind (decodeAscii 4)).isSome

theorem acceptedMoney (hnull : isNull (some t) = false)
    (h : validateMoney t minor = .ok ()) : AcceptedMoney t := by
  unfold validateMoney at h
  rw [if_neg (by simp [hnull])] at h
  simp only [bind_eq_ok, check_eq_ok, present_eq_ok, Bool.and_eq_true] at h
  obtain ⟨-, ⟨-, hamount⟩, currency, hcurrency, -⟩ := h
  constructor
  · exact hamount
  · rw [hcurrency]
    rfl

theorem acceptedTokens (hnull : isNull (some t) = false) (h : validateTokens t minor = .ok ()) :
    (nullableUnsigned (field t (bytes "total")) 0 maximumSafeInteger).isSome := by
  unfold validateTokens at h
  rw [if_neg (by simp [hnull])] at h
  simp only [bind_eq_ok, present_eq_ok] at h
  obtain ⟨-, -, input, -, cached, -, output, -, reasoning, -, total, htotal, -⟩ := h
  rw [htotal]
  rfl

/-- The codes of `validate_provider_error`. -/
def errorCodes : List Bytes :=
  ["auth_stale", "permission_denied", "timeout", "process_exited", "schema_changed",
    "unavailable"].map bytes

theorem acceptedError (hnull : isNull (some t) = false)
    (h : validateProviderError t minor = .ok ()) :
    oneOf (field t (bytes "code")) errorCodes = true := by
  unfold validateProviderError at h
  rw [if_neg (by simp [hnull])] at h
  simp only [check_eq_ok, Bool.and_eq_true] at h
  exact h.1.2

/-! ### Providers -/

/-- A provider that `validate_provider` accepts. -/
structure AcceptedProvider (t : Tree) (generatedAt : ℕ) : Prop where
  displayName : (field t (bytes "display_name")).any (safeText 48) = true
  status : oneOf (field t (bytes "status")) (["ok", "degraded", "unavailable"].map bytes) = true
  confidence :
    oneOf (field t (bytes "confidence")) (["verified", "inferred", "unavailable"].map bytes) = true
  experimental : (booleanValue (field t (bytes "experimental"))).isSome
  updatedAt : (nullableTime (field t (bytes "updated_at")) generatedAt).isSome
  balance : ∃ balance, field t (bytes "balance") = some balance ∧
    (isNull (some balance) = false → AcceptedMoney balance)
  windows : ∃ windows, field t (bytes "windows") = some (.array windows) ∧ windows.length ≤ 4 ∧
    ∀ window ∈ windows, AcceptedWindow window
  tokens : ∃ tokens, field t (bytes "tokens") = some tokens ∧ (isNull (some tokens) = false →
    (nullableUnsigned (field tokens (bytes "total")) 0 maximumSafeInteger).isSome)
  error : ∃ error, field t (bytes "error") = some error ∧ (isNull (some error) = false →
    oneOf (field error (bytes "code")) errorCodes = true)

theorem forM_eq_ok {f : α → Except Rejection Unit} {items : List α}
    (h : items.forM f = .ok ()) : ∀ a ∈ items, f a = .ok () := by
  induction items with
  | nil => exact fun a ha => absurd ha List.not_mem_nil
  | cons a items ih =>
    obtain ⟨_, ha, hrest⟩ := bind_eq_ok.mp h
    rw [List.forall_mem_cons]
    exact ⟨ha, ih hrest⟩

variable {generatedAt : ℕ}

theorem acceptedProvider {id : Tree} (h : validateProvider t generatedAt = .ok id) :
    AcceptedProvider t generatedAt ∧ field t (bytes "provider_id") = some id := by
  simp only [validateProvider, bind_eq_ok, check_eq_ok, present_eq_ok, Bool.and_eq_true] at h
  obtain ⟨-, -, -, -, -, -, -, ⟨⟨⟨⟨⟨⟨⟨-, hname⟩, hstatus⟩, -⟩, hconfidence⟩, hexperimental⟩,
    hupdated⟩, -⟩, -, -, balance, hbalance, _, hmoney, h⟩ := h
  split at h
  · next windows hwindows =>
    simp only [bind_eq_ok, check_eq_ok, present_eq_ok, decide_eq_true_eq, Bool.and_eq_true] at h
    obtain ⟨-, hcount, _, hforM, tokens, htokens, _, hvalidTokens, error, herror, -,
      ⟨⟨hvalidError, -⟩, -⟩, hid⟩ := h
    refine ⟨⟨hname, hstatus, hconfidence, hexperimental, hupdated, ?_, ?_, ?_, ?_⟩, hid⟩
    · exact ⟨balance, hbalance, fun hnull => acceptedMoney hnull hmoney⟩
    · exact ⟨windows, hwindows, hcount, fun window hmem =>
        acceptedWindow (forM_eq_ok hforM window hmem)⟩
    · exact ⟨tokens, htokens, fun hnull => acceptedTokens hnull hvalidTokens⟩
    · refine ⟨error, herror, fun hnull => ?_⟩
      cases hresult : validateProviderError error 0 with
      | ok u => exact acceptedError hnull hresult
      | error e => simp [hresult, Except.isOk, Except.toBool] at hvalidError
  · simp only [bind_eq_ok] at h
    obtain ⟨_, herror, -⟩ := h
    cases herror

/-! ### Sessions -/

/-- The names of the states. -/
def stateNames : List Bytes :=
  ["running", "waiting_approval", "waiting_input", "completed", "failed", "recent", "ended",
    "unknown", "unavailable"].map bytes

/-- A session that `validate_session` accepts. -/
structure AcceptedSession (t : Tree) (generatedAt : ℕ) : Prop where
  sessionId : safeOpaqueId (field t (bytes "session_id")) = true
  displayName : isNull (field t (bytes "display_name")) = true ∨
    (field t (bytes "display_name")).any (safeText 48) = true
  state : oneOf (field t (bytes "state")) stateNames = true
  confidence :
    oneOf (field t (bytes "confidence")) (["verified", "inferred", "unavailable"].map bytes) = true
  lastActivity : (nullableTime (field t (bytes "last_activity_at")) generatedAt).isSome
  duration : (nullableUnsigned (field t (bytes "duration_seconds")) 0 31536000).isSome
  turnTokens : (nullableUnsigned (field t (bytes "turn_tokens")) 0 maximumSafeInteger).isSome
  contextUsed :
    (nullableUnsigned (field t (bytes "context_used_basis_points")) 0 10000).isSome

theorem acceptedSession {id : Tree} {providerIds : List Tree}
    (h : validateSession t generatedAt providerIds = .ok id) :
    AcceptedSession t generatedAt ∧ field t (bytes "session_id") = some id := by
  simp only [validateSession, bind_eq_ok, check_eq_ok, present_eq_ok, Bool.and_eq_true,
    Bool.or_eq_true] at h
  obtain ⟨-, -, -, -, -, -, -, ⟨⟨⟨⟨⟨hid, -⟩, hname⟩, hstate⟩, -⟩, hconfidence⟩, -, -,
    -, -, -, -, -, -, started, -, lastActivity, hlast, -, ⟨⟨hduration, hturn⟩, hcontext⟩, h⟩ := h
  have hpresent : field t (bytes "session_id") = some id := by
    split at h
    · simp only [bind_eq_ok, present_eq_ok] at h
      obtain ⟨-, -, h⟩ := h
      exact h
    · simp only [bind_eq_ok, present_eq_ok] at h
      obtain ⟨-, -, h⟩ := h
      exact h
  refine ⟨⟨hid, hname, hstate, hconfidence, ?_, hduration, hturn, hcontext⟩, hpresent⟩
  rw [hlast]
  rfl

/-! ### The document -/

/-- The decoded identity of a session. -/
def sessionIdText (t : Tree) : Option Bytes :=
  (field t (bytes "session_id")).bind (decodeAscii sessionIdCapacity)

/-- The identities of two sessions of a document differ. -/
def Distinct (a b : Tree) : Prop :=
  ∀ s t, sessionIdText a = some s → sessionIdText b = some t → cString s ≠ cString t

theorem acceptedProviders {ids providers order result : List Tree}
    (h : validateProviders generatedAt ids providers order = .ok result) :
    ∀ provider ∈ providers, AcceptedProvider provider generatedAt ∧
      ((field provider (bytes "provider_id")).bind (decodeAscii providerIdCapacity)).isSome := by
  induction providers generalizing ids order with
  | nil => exact fun provider hmem => absurd hmem List.not_mem_nil
  | cons provider providers ih =>
    cases order with
    | nil => cases h
    | cons ordered order =>
      simp only [validateProviders, bind_eq_ok, check_eq_ok] at h
      obtain ⟨id, hvalid, -, hsame, -, -, hrest⟩ := h
      obtain ⟨haccepted, hid⟩ := acceptedProvider hvalid
      rw [List.forall_mem_cons]
      refine ⟨⟨haccepted, ?_⟩, ih hrest⟩
      rw [hid]
      unfold sameId at hsame
      show (decodeAscii 33 id).isSome = true
      cases hdecode : decodeAscii 33 id with
      | none => simp [hdecode] at hsame
      | some text => rfl

/-- The accepted sessions have identities, all different from each other and from those before. -/
theorem acceptedSessions {providerIds ids sessions : List Tree}
    (h : validateSessions generatedAt providerIds ids sessions = .ok ()) :
    (∀ session ∈ sessions, AcceptedSession session generatedAt ∧
      ∃ text, sessionIdText session = some text ∧ ∀ id ∈ ids, ∀ other,
        decodeAscii sessionIdCapacity id = some other → cString text ≠ cString other) ∧
      sessions.Pairwise Distinct := by
  induction sessions generalizing ids with
  | nil => exact ⟨fun session hmem => absurd hmem List.not_mem_nil, List.Pairwise.nil⟩
  | cons session sessions ih =>
    simp only [validateSessions, bind_eq_ok, check_eq_ok, Bool.not_eq_true'] at h
    obtain ⟨id, hvalid, -, hfresh, hrest⟩ := h
    obtain ⟨haccepted, hid⟩ := acceptedSession hvalid
    obtain ⟨hall, hpairwise⟩ := ih hrest
    have hself : sessionIdText session = decodeAscii sessionIdCapacity id := by
      unfold sessionIdText
      rw [hid]
      rfl
    obtain ⟨text, htext, hothers⟩ : ∃ text, decodeAscii sessionIdCapacity id = some text ∧
        ∀ other ∈ ids, ∀ otherText, decodeAscii sessionIdCapacity other = some otherText →
          cString text ≠ cString otherText := by
      unfold repeats at hfresh
      unfold sessionIdCapacity
      cases hdecode : decodeAscii 65 id with
      | none => simp [hdecode] at hfresh
      | some text =>
        refine ⟨text, rfl, fun other hmem otherText hother heq => ?_⟩
        simp only [hdecode, List.any_eq_false] at hfresh
        have hno := hfresh other hmem
        rw [hother] at hno
        exact hno (by simp [heq])
    rw [List.forall_mem_cons, List.pairwise_cons]
    refine ⟨⟨⟨haccepted, text, by rw [hself, htext], hothers⟩, fun later hlater => ?_⟩,
      fun later hlater s t hs ht => ?_, hpairwise⟩
    · obtain ⟨hlaterAccepted, laterText, hlaterText, hbefore⟩ := hall later hlater
      exact ⟨hlaterAccepted, laterText, hlaterText, fun other hmem =>
        hbefore other (List.mem_append_left _ hmem)⟩
    · obtain ⟨-, laterText, hlaterText, hbefore⟩ := hall later hlater
      rw [hself] at hs
      rw [hlaterText] at ht
      obtain rfl := Option.some.inj ht
      exact (hbefore id (by simp) s hs).symm

/-- A document that `validate_snapshot` accepts. -/
structure AcceptedSnapshot (root : Tree) (generatedAt : ℕ) : Prop where
  time : (field root (bytes "generated_at")).bind parseCanonicalUtc = some generatedAt
  timezone : isNull (field root (bytes "timezone")) = true ∨
    (field root (bytes "timezone")).any (safeText 64) = true
  providers : ∃ providers, field root (bytes "providers") = some (.array providers) ∧
    providers.length ≤ 8 ∧ ∀ provider ∈ providers, AcceptedProvider provider generatedAt ∧
      ((field provider (bytes "provider_id")).bind (decodeAscii providerIdCapacity)).isSome
  sessions : ∃ sessions, field root (bytes "sessions") = some (.array sessions) ∧
    sessions.length ≤ 16 ∧ (∀ session ∈ sessions, AcceptedSession session generatedAt) ∧
    (∀ session ∈ sessions, (sessionIdText session).isSome) ∧
    sessions.Pairwise Distinct

theorem arrayItems_eq_some {t : Option Tree} {items : List Tree} (h : arrayItems t = some items) :
    t = some (.array items) := by
  unfold arrayItems at h
  split at h
  · rw [Option.some.inj h]
  · cases h

theorem acceptedSnapshot {root : Tree} {metadata : Metadata}
    (h : validateSnapshot root = .ok metadata) :
    ∃ generatedAt, AcceptedSnapshot root generatedAt := by
  simp only [validateSnapshot, bind_eq_ok, check_eq_ok, present_eq_ok, Bool.and_eq_true,
    Bool.or_eq_true, decide_eq_true_eq] at h
  obtain ⟨-, -, -, -, minor, -, -, -, -, -, -, -, generatedAt, hgenerated, -, htimezone, -, -,
    order, -, providers, hproviders, sessions, hsessions, -, ⟨⟨hproviderCount, -⟩, hsessionCount⟩,
    providerIds, hvalidProviders, _, hvalidSessions, -⟩ := h
  obtain ⟨hall, hpairwise⟩ := acceptedSessions hvalidSessions
  refine ⟨generatedAt, hgenerated, htimezone, ?_, ?_⟩
  · exact ⟨providers, arrayItems_eq_some hproviders, hproviderCount,
      acceptedProviders hvalidProviders⟩
  · refine ⟨sessions, arrayItems_eq_some hsessions, hsessionCount,
      fun session hmem => (hall session hmem).1, fun session hmem => ?_, hpairwise⟩
    obtain ⟨-, text, htext, -⟩ := hall session hmem
    rw [htext]
    rfl

theorem acceptedDocument {allocated : Bool} {document : Bytes} {metadata : Metadata}
    (h : deckAiSnapshotValidate allocated document = .ok metadata) :
    ∃ root generatedAt, Parser.parse document = some root ∧ validUtf8 document = true ∧
      AcceptedSnapshot root generatedAt := by
  simp only [deckAiSnapshotValidate, bind_eq_ok, check_eq_ok, present_eq_ok, Bool.and_eq_true] at h
  obtain ⟨-, ⟨-, hutf8⟩, -, -, root, hroot, -, -, hvalid⟩ := h
  obtain ⟨generatedAt, haccepted⟩ := acceptedSnapshot hvalid
  exact ⟨root, generatedAt, hroot, hutf8, haccepted⟩

end RlcdDeck.AiSnapshot
