import RlcdDeck.AiSnapshot.Equiv.Featured
import RlcdDeck.AiSnapshot.Equiv.Texts
import RlcdDeck.CompanionLink.Equiv.Utc

/-!
# Accepted documents that cannot be projected

The checks count the characters of a text and stop at the NUL of a C string, the projections need
room for its bytes.  `projection_iff` says which accepted documents both projections can read:
those that are `Projectable`.
-/

namespace RlcdDeck.AiSnapshot

open Json (Bytes Tree bytes unquote Body)
open Document (decodeAscii decodeAsciiLoop decodeStep decodeUtf8 decodeUtf8Loop field safeText
  stringEquals)
open Collections

/-! ### Parts of a parsed document -/

/-- The strings of a value have the form that `Parser::string` checks and are valid UTF-8. -/
structure Sound (t : Tree) : Prop where
  body : ∀ raw ∈ t.strings, Body escaped raw
  valid : ∀ raw ∈ t.strings, validUtf8 raw = true

theorem Sound.of_subset {t u : Tree} (h : Sound t) (hsubset : u.strings ⊆ t.strings) : Sound u :=
  ⟨fun raw hraw => h.body raw (hsubset hraw), fun raw hraw => h.valid raw (hsubset hraw)⟩

theorem strings_of_member {members : List (Bytes × Tree)} {m : Bytes × Tree} (h : m ∈ members) :
    m.2.strings ⊆ Tree.stringsMembers members := by
  induction members with
  | nil => cases h
  | cons m' members ih =>
    obtain ⟨key, child⟩ := m'
    rw [Tree.stringsMembers]
    rcases List.mem_cons.mp h with rfl | h
    · exact fun raw hraw => List.mem_cons_of_mem _ (List.mem_append_left _ hraw)
    · exact fun raw hraw => List.mem_cons_of_mem _ (List.mem_append_right _ (ih h hraw))

variable {items : List Tree}

theorem strings_of_item {t : Tree} (h : t ∈ items) :
    t.strings ⊆ Tree.stringsItems items := by
  induction items with
  | nil => cases h
  | cons t' items ih =>
    rw [Tree.stringsItems]
    rcases List.mem_cons.mp h with rfl | h
    · exact fun raw hraw => List.mem_append_left _ hraw
    · exact fun raw hraw => List.mem_append_right _ (ih h hraw)

theorem Sound.field {t u : Tree} {name : Bytes} (h : Sound t) (hfield : field t name = some u) :
    Sound u := by
  unfold Document.field at hfield
  split at hfield
  · next members =>
    obtain ⟨m, hm, rfl⟩ := Option.map_eq_some_iff.mp hfield
    exact h.of_subset (strings_of_member (List.mem_of_find?_eq_some hm))
  · cases hfield

theorem Sound.item {t : Tree} (h : Sound (.array items)) (hmem : t ∈ items) :
    Sound t :=
  h.of_subset (strings_of_item hmem)

theorem sound_of_parse {document : Bytes} {root : Tree} (hparse : Parser.parse document = some root)
    (hvalid : validUtf8 document = true) : Sound root := by
  constructor
  · exact fun raw hraw => (strings_of_parse hparse raw hraw).1
  · intro raw hraw
    rw [validUtf8_eq] at hvalid ⊢
    exact valid_of_infix hvalid (strings_of_parse hparse raw hraw).2

/-! ### What a document must keep to -/

/-- The field has no NUL, which could stand only after a backslash. -/
def NulFree (t : Option Tree) : Prop := ∀ raw, t = some (.string raw) → 0 ∉ raw

/-- What the field stands for has at most so many bytes. -/
def TextFits (maximum : ℕ) (t : Option Tree) : Prop :=
  ∀ raw s, t = some (.string raw) → unquote raw = some s → s.length ≤ maximum

/-- A provider with names and codes that fit. -/
structure ProjectableProvider (t : Tree) : Prop where
  displayName : NulFree (field t (bytes "display_name"))
  windows : ∀ windows, field t (bytes "windows") = some (.array windows) →
    ∀ window ∈ windows, TextFits 24 (field window (bytes "name"))
  error : TextFits 23 ((field t (bytes "error")).bind fun error => field error (bytes "code"))

/-- A document whose texts fit: the time zone in 64 bytes, the names of windows in 24 and the codes
of errors in 23, and no NUL in the time zone and the display names. -/
structure Projectable (root : Tree) : Prop where
  timezone : NulFree (field root (bytes "timezone")) ∧ TextFits 64 (field root (bytes "timezone"))
  providers : ∀ providers, field root (bytes "providers") = some (.array providers) →
    ∀ provider ∈ providers, ProjectableProvider provider
  sessions : ∀ providers sessions, field root (bytes "providers") = some (.array providers) →
    (∃ provider ∈ providers, isCodex provider = true) →
    field root (bytes "sessions") = some (.array sessions) →
    ∀ session ∈ sessions, isCodex session = true → NulFree (field session (bytes "display_name"))

/-! ### Texts -/

variable {capacity : ℕ}

/-- A text that was checked is decoded unless it holds a NUL or does not fit. -/
theorem isSome_decodeUtf8_iff {t : Tree} {maximum : ℕ} (hsound : Sound t)
    (hsafe : safeText maximum t = true) (hcapacity : 0 < capacity) :
    (decodeUtf8 capacity t).isSome ↔ NulFree (some t) ∧ TextFits (capacity - 1) (some t) := by
  unfold safeText at hsafe
  split at hsafe
  · next raw =>
    split at hsafe
    · cases hsafe
    · next points hpoints =>
      have hmem : raw ∈ (Tree.string raw).strings := List.mem_singleton_self raw
      have htext : Text raw points := ⟨hsound.body raw hmem, hsound.valid raw hmem, hpoints⟩
      have hdecode : ∀ {s}, decodeUtf8 capacity (.string raw) = some s ↔
          unquote raw = some s ∧ 0 + s.length < capacity :=
        decodeUtf8Loop_eq_some htext le_rfl hcapacity
      constructor
      · intro hsome
        obtain ⟨s, hs⟩ := Option.isSome_iff_exists.mp hsome
        obtain ⟨hunquote, hfits⟩ := hdecode.mp hs
        refine ⟨fun raw' heq => ?_, fun raw' s' heq hs' => ?_⟩
        · obtain rfl : raw = raw' := by simpa using heq
          rw [← (unquote_text htext).1, hunquote]
          rfl
        · obtain rfl : raw = raw' := by simpa using heq
          rw [hunquote] at hs'
          obtain rfl := Option.some.inj hs'
          omega
      · rintro ⟨hnul, hfits⟩
        obtain ⟨s, hs⟩ := Option.isSome_iff_exists.mp ((unquote_text htext).1.mpr (hnul raw rfl))
        have hlength := hfits raw s rfl hs
        rw [hdecode.mpr ⟨hs, by omega⟩]
        rfl
  · cases hsafe

theorem textFits_of_safeText {t : Tree} {maximum : ℕ} (hsound : Sound t)
    (hsafe : safeText maximum t = true) : TextFits (4 * maximum) (some t) := by
  intro raw s heq hs
  obtain rfl : t = .string raw := by simpa using heq
  unfold safeText at hsafe
  dsimp only at hsafe
  split at hsafe
  · cases hsafe
  · next points hpoints =>
    simp only [Bool.and_eq_true, decide_eq_true_eq] at hsafe
    have hmem : raw ∈ (Tree.string raw).strings := List.mem_singleton_self raw
    have hbound := (unquote_text ⟨hsound.body raw hmem, hsound.valid raw hmem, hpoints⟩).2 s hs
    omega

theorem isSome_displayName_iff {t : Tree} (hsound : Sound t) (hsafe : safeText 48 t = true) :
    (decodeUtf8 displayTextCapacity t).isSome ↔ NulFree (some t) := by
  rw [isSome_decodeUtf8_iff hsound hsafe (by decide)]
  exact and_iff_left (textFits_of_safeText hsound hsafe)

theorem isSome_decodeAscii_iff {t : Tree} {larger capacity : ℕ} (hlarger : 0 < larger)
    (hcapacity : 0 < capacity) (h : (decodeAscii larger t).isSome) :
    (decodeAscii capacity t).isSome ↔ TextFits (capacity - 1) (some t) := by
  obtain ⟨s, hs⟩ := Option.isSome_iff_exists.mp h
  cases t with
  | string raw =>
    obtain ⟨hunquote, hascii, -⟩ := (decodeAsciiLoop_eq_some hlarger).mp hs
    have hdecode : ∀ {s}, decodeAscii capacity (.string raw) = some s ↔
        unquote raw = some s ∧ (∀ b ∈ s, b.toNat < 0x80) ∧ 0 + s.length < capacity :=
      decodeAsciiLoop_eq_some hcapacity
    constructor
    · intro hsome raw' s' heq hs'
      obtain rfl : raw = raw' := by simpa using heq
      obtain ⟨s'', hs''⟩ := Option.isSome_iff_exists.mp hsome
      obtain ⟨hunquote', -, hfits⟩ := hdecode.mp hs''
      rw [hunquote'] at hs'
      obtain rfl := Option.some.inj hs'
      omega
    · intro hfits
      have hlength := hfits raw s rfl hunquote
      rw [hdecode.mpr ⟨hunquote, hascii, by omega⟩]
      rfl
  | _ => cases hs

/-! ### Scalars -/

theorem isSome_named {α : Type} {t : Option Tree} {names : List (Bytes × α)}
    (h : oneOf t (names.map (·.1)) = true) : (named t names).isSome := by
  unfold oneOf at h
  cases t with
  | none => cases h
  | some t =>
    simp only [List.any_map, List.any_eq_true, Function.comp_apply] at h
    obtain ⟨name, hmem, hequals⟩ := h
    unfold named
    rw [Option.isSome_map, List.find?_isSome]
    exact ⟨name, hmem, hequals⟩

theorem isSome_nullableTime {t : Option Tree} {generatedAt : ℕ} (hlimit : generatedAt < 2 ^ 64)
    (h : (nullableTime t generatedAt).isSome) : (nullableTime t (2 ^ 64 - 1)).isSome := by
  unfold nullableTime at h ⊢
  split_ifs with hnull
  · rfl
  · rw [if_neg hnull] at h
    cases hparse : t.bind parseCanonicalUtc with
    | none => simp [hparse] at h
    | some parsed =>
      simp only [hparse] at h ⊢
      split_ifs at h with hlate
      · cases h
      · rw [if_neg (by omega)]
        rfl

theorem AcceptedSnapshot.generatedAt_lt {root : Tree} {generatedAt : ℕ}
    (h : AcceptedSnapshot root generatedAt) : generatedAt < 2 ^ 64 := by
  obtain ⟨t, -, hparse⟩ := Option.bind_eq_some_iff.mp h.time
  obtain ⟨value, -, hvalue⟩ := Option.bind_eq_some_iff.mp hparse
  obtain ⟨utc, hvalid, -, rfl⟩ := CompanionLink.utc_of_parseUtc hvalue
  exact CompanionLink.milliseconds_lt hvalid

/-! ### Windows -/

theorem isSome_projectWindow_iff {t : Tree} (h : AcceptedWindow t) :
    (projectWindow t).isSome ↔ TextFits 24 (field t (bytes "name")) := by
  obtain ⟨used, hused⟩ := Option.isSome_iff_exists.mp h.used
  obtain ⟨remaining, hremaining⟩ := Option.isSome_iff_exists.mp h.remaining
  obtain ⟨minutes, hminutes⟩ := Option.isSome_iff_exists.mp h.minutes
  obtain ⟨resetsAt, hresetsAt⟩ := Option.isSome_iff_exists.mp h.resetsAt
  have hname := h.name
  unfold safeIdentifier at hname
  cases hfield : field t (bytes "name") with
  | none => simp [hfield] at hname
  | some name =>
    have hlarger : (decodeAscii 65 name).isSome := by
      cases hdecode : decodeAscii 65 name with
      | none => simp [hfield, hdecode] at hname
      | some value => rfl
    have hfits := @isSome_decodeAscii_iff name 65 windowNameCapacity (by decide) (by decide) hlarger
    unfold projectWindow
    rw [hfield, hused, hremaining, hminutes, hresetsAt, Option.bind_some]
    refine Iff.trans ?_ hfits
    cases decodeAscii windowNameCapacity name <;> simp

theorem countedItems_eq {t : Option Tree} (h : t = some (.array items))
    (hcount : items.length ≤ 255) : countedItems t = items := by
  unfold countedItems
  rw [h]
  show items.take (items.length % 256) = items
  rw [Nat.mod_eq_of_lt (by omega), List.take_length]

theorem isSome_projectWindows_iff {t : Tree} {windows : List Tree}
    (hfield : field t (bytes "windows") = some (.array windows)) (hcount : windows.length ≤ 4)
    (h : ∀ window ∈ windows, AcceptedWindow window) :
    ((countedItems (field t (bytes "windows"))).mapM projectWindow).isSome ↔
      ∀ window ∈ windows, TextFits 24 (field window (bytes "name")) := by
  rw [countedItems_eq hfield (by omega), isSome_mapM_iff]
  constructor
  · exact fun hall window hmem => (isSome_projectWindow_iff (h window hmem)).mp (hall window hmem)
  · exact fun hall window hmem => (isSome_projectWindow_iff (h window hmem)).mpr (hall window hmem)

/-! ### Providers -/

section Provider

variable {t : Tree} {generatedAt : ℕ}

theorem AcceptedProvider.isSome_status (h : AcceptedProvider t generatedAt) :
    (projectProviderStatus (field t (bytes "status"))).isSome :=
  isSome_named h.status

theorem AcceptedProvider.isSome_confidence (h : AcceptedProvider t generatedAt) :
    (projectConfidence (field t (bytes "confidence"))).isSome :=
  isSome_named h.confidence

theorem AcceptedProvider.isSome_balance (h : AcceptedProvider t generatedAt) :
    (projectBalance (field t (bytes "balance"))).isSome := by
  obtain ⟨balance, hfield, hmoney⟩ := h.balance
  unfold projectBalance
  rw [hfield]
  split_ifs with hnull
  · rfl
  · have haccepted := hmoney (by simpa using hnull)
    obtain ⟨amount, hamount⟩ := Option.isSome_iff_exists.mp haccepted.amount
    obtain ⟨currency, hcurrency⟩ := Option.isSome_iff_exists.mp haccepted.currency
    simp only [Option.bind_eq_bind, Option.bind_some, hamount]
    rw [show currencyCapacity = 4 from rfl, hcurrency]
    rfl

theorem AcceptedProvider.isSome_total (h : AcceptedProvider t generatedAt) :
    (projectTotal (field t (bytes "tokens"))).isSome := by
  obtain ⟨tokens, hfield, htotal⟩ := h.tokens
  unfold projectTotal
  rw [hfield]
  split_ifs with hnull
  · rfl
  · obtain ⟨total, htotal⟩ := Option.isSome_iff_exists.mp (htotal (by simpa using hnull))
    simp only [Option.bind_eq_bind, Option.bind_some, htotal]
    rfl

theorem AcceptedProvider.isSome_problem_iff (h : AcceptedProvider t generatedAt) :
    (projectProblem (field t (bytes "error"))).isSome ↔
      TextFits 23 ((field t (bytes "error")).bind fun error => field error (bytes "code")) := by
  obtain ⟨error, hfield, hcode⟩ := h.error
  unfold projectProblem
  rw [hfield, Option.bind_some]
  split_ifs with hnull
  · -- no error has no code
    cases error with
    | null =>
      refine iff_of_true rfl fun raw s heq => ?_
      simp [Document.field] at heq
    | _ => simp [isNull] at hnull
  · have hone := hcode (by simpa using hnull)
    unfold oneOf at hone
    cases hcodeField : field error (bytes "code") with
    | none => simp [hcodeField] at hone
    | some code =>
      have hlarger : (decodeAscii 96 code).isSome := by
        cases hdecode : decodeAscii 96 code with
        | none => simp [hcodeField, stringEquals, hdecode] at hone
        | some value => rfl
      have hfits := @isSome_decodeAscii_iff code 96 errorCodeCapacity (by decide) (by decide) hlarger
      refine Iff.trans ?_ hfits
      simp only [Option.bind_eq_bind, Option.bind_some, hcodeField]
      cases decodeAscii errorCodeCapacity code <;> simp

theorem AcceptedProvider.isSome_displayName_iff (h : AcceptedProvider t generatedAt)
    (hsound : Sound t) :
    ((field t (bytes "display_name")).bind (decodeUtf8 displayTextCapacity)).isSome ↔
      NulFree (field t (bytes "display_name")) := by
  have hname := h.displayName
  cases hfield : field t (bytes "display_name") with
  | none => simp [hfield] at hname
  | some name =>
    rw [hfield, Option.any_some] at hname
    rw [Option.bind_some]
    exact AiSnapshot.isSome_displayName_iff (hsound.field hfield) hname

theorem isSome_projectProviderPage_iff (h : AcceptedProvider t generatedAt)
    (hid : ((field t (bytes "provider_id")).bind (decodeAscii providerIdCapacity)).isSome)
    (hsound : Sound t) (hlimit : generatedAt < 2 ^ 64) :
    (projectProviderPage t).isSome ↔ ProjectableProvider t := by
  obtain ⟨id, hid⟩ := Option.isSome_iff_exists.mp hid
  obtain ⟨status, hstatus⟩ := Option.isSome_iff_exists.mp h.isSome_status
  obtain ⟨confidence, hconfidence⟩ := Option.isSome_iff_exists.mp h.isSome_confidence
  obtain ⟨experimental, hexperimental⟩ := Option.isSome_iff_exists.mp h.experimental
  obtain ⟨updatedAt, hupdatedAt⟩ :=
    Option.isSome_iff_exists.mp (isSome_nullableTime hlimit h.updatedAt)
  obtain ⟨balance, hbalance⟩ := Option.isSome_iff_exists.mp h.isSome_balance
  obtain ⟨total, htotal⟩ := Option.isSome_iff_exists.mp h.isSome_total
  obtain ⟨windows, hwindowsField, hcount, hwindows⟩ := h.windows
  have hwindowsIff := isSome_projectWindows_iff hwindowsField hcount hwindows
  have hnameIff := h.isSome_displayName_iff hsound
  have hproblemIff := h.isSome_problem_iff
  have hall : (projectProviderPage t).isSome ↔
      ((field t (bytes "display_name")).bind (decodeUtf8 displayTextCapacity)).isSome ∧
        ((countedItems (field t (bytes "windows"))).mapM projectWindow).isSome ∧
          (projectProblem (field t (bytes "error"))).isSome := by
    unfold projectProviderPage
    rw [hid, hstatus, hconfidence, hexperimental, hupdatedAt, hbalance, htotal]
    cases (field t (bytes "display_name")).bind (decodeUtf8 displayTextCapacity) <;>
      cases (countedItems (field t (bytes "windows"))).mapM projectWindow <;>
        cases projectProblem (field t (bytes "error")) <;> simp
  rw [hall, hnameIff, hwindowsIff, hproblemIff]
  constructor
  · rintro ⟨hname, hnames, hcode⟩
    refine ⟨hname, fun windows' hfield => ?_, hcode⟩
    rw [hwindowsField] at hfield
    obtain rfl : windows = windows' := by simpa using hfield
    exact hnames
  · exact fun hprojectable => ⟨hprojectable.displayName, hprojectable.windows windows hwindowsField,
      hprojectable.error⟩

theorem isSome_projectCodexProvider (h : AcceptedProvider t generatedAt) (hsound : Sound t)
    (hlimit : generatedAt < 2 ^ 64) (hprojectable : ProjectableProvider t)
    (candidate : CodexProjection) : (projectCodexProvider candidate t).isSome := by
  obtain ⟨name, hname⟩ :=
    Option.isSome_iff_exists.mp ((h.isSome_displayName_iff hsound).mpr hprojectable.displayName)
  obtain ⟨status, hstatus⟩ := Option.isSome_iff_exists.mp h.isSome_status
  obtain ⟨confidence, hconfidence⟩ := Option.isSome_iff_exists.mp h.isSome_confidence
  obtain ⟨updatedAt, hupdatedAt⟩ :=
    Option.isSome_iff_exists.mp (isSome_nullableTime hlimit h.updatedAt)
  obtain ⟨total, htotal⟩ := Option.isSome_iff_exists.mp h.isSome_total
  obtain ⟨windows, hwindowsField, hcount, hwindows⟩ := h.windows
  obtain ⟨projected, hprojected⟩ := Option.isSome_iff_exists.mp
    ((isSome_projectWindows_iff hwindowsField hcount hwindows).mpr
      (hprojectable.windows windows hwindowsField))
  unfold projectCodexProvider
  rw [hname, hstatus, hconfidence, hupdatedAt, htotal, hprojected]
  rfl

end Provider

/-! ### Sessions -/

theorem isSome_projectSession_iff {t : Tree} {generatedAt : ℕ} (h : AcceptedSession t generatedAt)
    (hid : (sessionIdText t).isSome) (hsound : Sound t) (hlimit : generatedAt < 2 ^ 64) :
    (projectSession t).isSome ↔ NulFree (field t (bytes "display_name")) := by
  obtain ⟨id, hid⟩ := Option.isSome_iff_exists.mp hid
  obtain ⟨state, hstate⟩ : ∃ state, projectSessionState (field t (bytes "state")) = some state :=
    Option.isSome_iff_exists.mp (isSome_named h.state)
  obtain ⟨confidence, hconfidence⟩ : ∃ confidence,
      projectConfidence (field t (bytes "confidence")) = some confidence :=
    Option.isSome_iff_exists.mp (isSome_named h.confidence)
  obtain ⟨lastActivity, hlastActivity⟩ :=
    Option.isSome_iff_exists.mp (isSome_nullableTime hlimit h.lastActivity)
  obtain ⟨duration, hduration⟩ := Option.isSome_iff_exists.mp h.duration
  obtain ⟨turnTokens, hturnTokens⟩ := Option.isSome_iff_exists.mp h.turnTokens
  obtain ⟨contextUsed, hcontextUsed⟩ := Option.isSome_iff_exists.mp h.contextUsed
  have hname : (nullableText (field t (bytes "display_name")) displayTextCapacity).isSome ↔
      NulFree (field t (bytes "display_name")) := by
    unfold nullableText
    split_ifs with hnull
    · refine iff_of_true rfl fun raw heq => ?_
      simp [heq, isNull] at hnull
    · have hsafe := h.displayName.resolve_left hnull
      cases hfield : field t (bytes "display_name") with
      | none => simp [hfield] at hsafe
      | some name =>
        rw [hfield, Option.any_some] at hsafe
        rw [Option.isSome_map, Option.bind_some]
        exact isSome_displayName_iff (hsound.field hfield) hsafe
  refine Iff.trans ?_ hname
  unfold sessionIdText at hid
  unfold projectSession
  rw [hid, hstate, hconfidence, hlastActivity, hduration, hturnTokens, hcontextUsed]
  cases nullableText (field t (bytes "display_name")) displayTextCapacity <;> simp

/-! ### Documents -/

section Document

variable {root : Tree} {generatedAt : ℕ}

theorem AcceptedSnapshot.isSome_timezone_iff (h : AcceptedSnapshot root generatedAt)
    (hsound : Sound root) :
    (nullableText (field root (bytes "timezone")) timezoneCapacity).isSome ↔
      NulFree (field root (bytes "timezone")) ∧ TextFits 64 (field root (bytes "timezone")) := by
  unfold nullableText
  split_ifs with hnull
  · refine iff_of_true rfl ⟨fun raw heq => ?_, fun raw s heq => ?_⟩
    · simp [heq, isNull] at hnull
    · simp [heq, isNull] at hnull
  · have hsafe := h.timezone.resolve_left hnull
    cases hfield : field root (bytes "timezone") with
    | none => simp [hfield] at hsafe
    | some timezone =>
      rw [hfield, Option.any_some] at hsafe
      rw [Option.isSome_map, Option.bind_some]
      exact isSome_decodeUtf8_iff (hsound.field hfield) hsafe (by decide)

theorem isSome_projectPages_iff (h : AcceptedSnapshot root generatedAt) (hsound : Sound root) :
    (projectPages root).isSome ↔
      (NulFree (field root (bytes "timezone")) ∧ TextFits 64 (field root (bytes "timezone"))) ∧
        ∀ providers, field root (bytes "providers") = some (.array providers) →
          ∀ provider ∈ providers, ProjectableProvider provider := by
  obtain ⟨providers, hfield, hcount, haccepted⟩ := h.providers
  have hitems : countedItems (field root (bytes "providers")) = providers :=
    countedItems_eq hfield (by omega)
  have hproviders : (providers.mapM projectProviderPage).isSome ↔
      ∀ providers', field root (bytes "providers") = some (.array providers') →
        ∀ provider ∈ providers', ProjectableProvider provider := by
    have hone : ∀ provider ∈ providers,
        ((projectProviderPage provider).isSome ↔ ProjectableProvider provider) :=
      fun provider hmem => isSome_projectProviderPage_iff (haccepted provider hmem).1
        (haccepted provider hmem).2 ((hsound.field hfield).item hmem) h.generatedAt_lt
    rw [isSome_mapM_iff]
    constructor
    · intro hall providers' hfield' provider hmem
      rw [hfield] at hfield'
      obtain rfl : providers = providers' := by simpa using hfield'
      exact (hone provider hmem).mp (hall provider hmem)
    · exact fun hall provider hmem => (hone provider hmem).mpr (hall providers hfield provider hmem)
  rw [← h.isSome_timezone_iff hsound, ← hproviders]
  unfold projectPages
  rw [hitems]
  cases nullableText (field root (bytes "timezone")) timezoneCapacity <;>
    cases providers.mapM projectProviderPage <;> simp

/-- Where the pages can be read, the Codex page can be read if its sessions can. -/
theorem isSome_projectCodex_iff (h : AcceptedSnapshot root generatedAt) (hsound : Sound root)
    (htimezone : NulFree (field root (bytes "timezone")) ∧
      TextFits 64 (field root (bytes "timezone")))
    (hproviders : ∀ providers, field root (bytes "providers") = some (.array providers) →
      ∀ provider ∈ providers, ProjectableProvider provider) :
    (projectCodex root).isSome ↔ ∀ providers sessions,
      field root (bytes "providers") = some (.array providers) →
      (∃ provider ∈ providers, isCodex provider = true) →
      field root (bytes "sessions") = some (.array sessions) →
      ∀ session ∈ sessions, isCodex session = true →
        NulFree (field session (bytes "display_name")) := by
  obtain ⟨timezone, htimezone⟩ :=
    Option.isSome_iff_exists.mp ((h.isSome_timezone_iff hsound).mpr htimezone)
  obtain ⟨providers, hfield, -, haccepted⟩ := h.providers
  obtain ⟨sessions, hsessions, hcount, hacceptedSessions, hids, -⟩ := h.sessions
  unfold projectCodex
  rw [htimezone, hfield, hsessions]
  simp only [Option.bind_eq_bind, Option.bind_some, arrayItems, Option.getD_some]
  cases hfind : providers.find? isCodex with
  | none =>
    rw [List.find?_eq_none] at hfind
    refine iff_of_true rfl fun providers' sessions' hfield' hcodex => ?_
    obtain rfl : providers = providers' := by simpa using hfield'
    obtain ⟨provider, hmem, hyes⟩ := hcodex
    exact absurd hyes (hfind provider hmem)
  | some provider =>
    have hmem := List.mem_of_find?_eq_some hfind
    have hcodex := List.find?_some hfind
    obtain ⟨candidate, hcandidate⟩ := Option.isSome_iff_exists.mp
      (isSome_projectCodexProvider (haccepted provider hmem).1 ((hsound.field hfield).item hmem)
        h.generatedAt_lt (hproviders providers hfield provider hmem)
        { hasTimezone := timezone.1, timezone := timezone.2 })
    have hzero : candidate.sessionCount = 0 := sessionCount_projectCodexProvider hcandidate
    have hone : ∀ session ∈ sessions, ((projectSession session).isSome ↔
        NulFree (field session (bytes "display_name"))) :=
      fun session hmem => isSome_projectSession_iff (hacceptedSessions session hmem)
        (hids session hmem) ((hsound.field hsessions).item hmem) h.generatedAt_lt
    dsimp only
    rw [hcandidate, Option.bind_some, projectCodexSessions_eq (by omega), Option.isSome_map,
      isSome_mapM_iff]
    constructor
    · intro hall providers' sessions' _ _ hsessions' session hmem hyes
      obtain rfl : sessions = sessions' := by simpa using hsessions'
      exact (hone session hmem).mp (hall session (List.mem_filter.mpr ⟨hmem, hyes⟩))
    · intro hall session hsession
      obtain ⟨hmem', hyes⟩ := List.mem_filter.mp hsession
      exact (hone session hmem').mpr
        (hall providers sessions rfl ⟨provider, hmem, hcodex⟩ rfl session hmem' hyes)

end Document

/-! ### Termination of the texts -/

/-- An array of so many bytes, with a NUL among them. -/
def Terminated (capacity : ℕ) (array : Bytes) : Prop := array.length = capacity ∧ 0 ∈ array

theorem terminated_textField {text : Bytes} (h : text.length < capacity) :
    Terminated capacity (textField capacity text) := by
  unfold textField
  constructor
  · rw [List.length_append, List.length_replicate]
    omega
  · have hroom : capacity - text.length ≠ 0 := by omega
    simp [hroom]

theorem length_decodeAscii (hcapacity : 0 < capacity) {t : Option Tree} {s : Bytes}
    (h : t.bind (decodeAscii capacity) = some s) : s.length < capacity := by
  obtain ⟨t, -, h⟩ := Option.bind_eq_some_iff.mp h
  cases t with
  | string raw =>
    have hfits := ((decodeAsciiLoop_eq_some hcapacity).mp h).2.2
    omega
  | _ => cases h

theorem length_decodeUtf8Loop {fuel written : ℕ} {raw s : Bytes} (hwritten : written < capacity)
    (h : decodeUtf8Loop capacity fuel written raw = some s) :
    written + s.length < capacity := by
  induction fuel generalizing written raw s with
  | zero =>
    cases raw with
    | nil =>
      obtain rfl := Option.some.inj h
      exact hwritten
    | cons c bs => cases h
  | succ fuel ih =>
    cases raw with
    | nil =>
      obtain rfl := Option.some.inj h
      exact hwritten
    | cons c bs =>
      rw [decodeUtf8Loop] at h
      split at h
      · cases h
      · next text rest hstep =>
        split_ifs at h with hfull
        obtain ⟨tail, htail, rfl⟩ := Option.map_eq_some_iff.mp h
        have hrest := ih (by omega) htail
        rw [List.length_append]
        omega

theorem length_decodeUtf8 (hcapacity : 0 < capacity) {t : Option Tree} {s : Bytes}
    (h : t.bind (decodeUtf8 capacity) = some s) : s.length < capacity := by
  obtain ⟨t, -, h⟩ := Option.bind_eq_some_iff.mp h
  cases t with
  | string raw =>
    have hfits := length_decodeUtf8Loop hcapacity h
    omega
  | _ => cases h

theorem terminated_nullableText (hcapacity : 0 < capacity) {t : Option Tree} {text : Bool × Bytes}
    (h : nullableText t capacity = some text) :
    Terminated capacity text.2 := by
  unfold nullableText at h
  split_ifs at h
  · rw [← Option.some.inj h]
    exact terminated_textField hcapacity
  · obtain ⟨s, hs, rfl⟩ := Option.map_eq_some_iff.mp h
    exact terminated_textField (length_decodeUtf8 hcapacity hs)

def QuotaProjection.Terminated (w : QuotaProjection) : Prop :=
  AiSnapshot.Terminated windowNameCapacity w.name

structure SessionProjection.Terminated (s : SessionProjection) : Prop where
  sessionId : AiSnapshot.Terminated sessionIdCapacity s.sessionId
  displayName : AiSnapshot.Terminated displayTextCapacity s.displayName

structure ProviderProjection.Terminated (p : ProviderProjection) : Prop where
  providerId : AiSnapshot.Terminated providerIdCapacity p.providerId
  displayName : AiSnapshot.Terminated displayTextCapacity p.displayName
  balanceCurrency : AiSnapshot.Terminated currencyCapacity p.balanceCurrency
  windows : ∀ w ∈ p.windows, w.Terminated
  errorCode : AiSnapshot.Terminated errorCodeCapacity p.errorCode

structure PagesProjection.Terminated (p : PagesProjection) : Prop where
  timezone : AiSnapshot.Terminated timezoneCapacity p.timezone
  providers : ∀ provider ∈ p.providers, provider.Terminated

structure CodexProjection.Terminated (p : CodexProjection) : Prop where
  timezone : AiSnapshot.Terminated timezoneCapacity p.timezone
  providerDisplayName : AiSnapshot.Terminated displayTextCapacity p.providerDisplayName
  windows : ∀ w ∈ p.windows, w.Terminated
  featuredSession : p.featuredSession.Terminated

theorem projectWindow_eq_some {t : Tree} {w : QuotaProjection} (h : projectWindow t = some w) :
    ∃ name, (field t (bytes "name")).bind (decodeAscii windowNameCapacity) = some name ∧
      w.name = textField windowNameCapacity name := by
  obtain ⟨name, hname, h⟩ := Option.bind_eq_some_iff.mp h
  obtain ⟨used, -, h⟩ := Option.bind_eq_some_iff.mp h
  obtain ⟨remaining, -, h⟩ := Option.bind_eq_some_iff.mp h
  obtain ⟨minutes, -, h⟩ := Option.bind_eq_some_iff.mp h
  obtain ⟨resetsAt, -, h⟩ := Option.bind_eq_some_iff.mp h
  rw [← Option.some.inj h]
  exact ⟨name, hname, rfl⟩

theorem terminated_projectWindow {t : Tree} {w : QuotaProjection} (h : projectWindow t = some w) :
    w.Terminated := by
  obtain ⟨name, hname, htext⟩ := projectWindow_eq_some h
  unfold QuotaProjection.Terminated
  rw [htext]
  exact terminated_textField (length_decodeAscii (by decide) hname)

theorem terminated_projectWindows {windows : List QuotaProjection}
    (h : items.mapM projectWindow = some windows) : ∀ w ∈ windows, w.Terminated := by
  intro w hw
  obtain ⟨t, -, ht⟩ := exists_mem_of_forall₂ (mapM_eq_some.mp h) hw
  exact terminated_projectWindow ht

theorem terminated_projectSession {t : Tree} {s : SessionProjection}
    (h : projectSession t = some s) : s.Terminated := by
  obtain ⟨-, ⟨id, hid, htext⟩, hname⟩ := projectSession_eq_some h
  constructor
  · rw [htext]
    exact terminated_textField (length_decodeAscii (by decide) hid)
  · exact terminated_nullableText (by decide) hname

theorem terminated_projectBalance {balance : Option Tree} {result : Option UInt64 × Bytes}
    (h : projectBalance balance = some result) : Terminated currencyCapacity result.2 := by
  unfold projectBalance at h
  split_ifs at h
  · rw [← Option.some.inj h]
    exact terminated_textField (by decide)
  · obtain ⟨t, -, h⟩ := Option.bind_eq_some_iff.mp h
    obtain ⟨amount, -, h⟩ := Option.bind_eq_some_iff.mp h
    obtain ⟨currency, hcurrency, h⟩ := Option.bind_eq_some_iff.mp h
    rw [← Option.some.inj h]
    exact terminated_textField (length_decodeAscii (by decide) hcurrency)

theorem terminated_projectProblem {problem : Option Tree} {result : Bool × Bytes}
    (h : projectProblem problem = some result) : Terminated errorCodeCapacity result.2 := by
  unfold projectProblem at h
  split_ifs at h
  · rw [← Option.some.inj h]
    exact terminated_textField (by decide)
  · obtain ⟨t, -, h⟩ := Option.bind_eq_some_iff.mp h
    obtain ⟨code, hcode, h⟩ := Option.bind_eq_some_iff.mp h
    rw [← Option.some.inj h]
    exact terminated_textField (length_decodeAscii (by decide) hcode)

/-- What the page of a provider has of its document. -/
structure ProviderProjection.Of (p : ProviderProjection) (t : Tree) : Prop where
  providerId : ∃ id, (field t (bytes "provider_id")).bind (decodeAscii providerIdCapacity) = some id ∧
    p.providerId = textField providerIdCapacity id
  displayName : ∃ name, (field t (bytes "display_name")).bind (decodeUtf8 displayTextCapacity) =
    some name ∧ p.displayName = textField displayTextCapacity name
  balance : projectBalance (field t (bytes "balance")) =
    some (p.balanceAmountMicros, p.balanceCurrency)
  windows : (countedItems (field t (bytes "windows"))).mapM projectWindow = some p.windows
  problem : projectProblem (field t (bytes "error")) = some (p.hasError, p.errorCode)

theorem projectProviderPage_eq_some {t : Tree} {p : ProviderProjection}
    (h : projectProviderPage t = some p) : p.Of t := by
  obtain ⟨id, hid, h⟩ := Option.bind_eq_some_iff.mp h
  obtain ⟨name, hname, h⟩ := Option.bind_eq_some_iff.mp h
  obtain ⟨status, -, h⟩ := Option.bind_eq_some_iff.mp h
  obtain ⟨confidence, -, h⟩ := Option.bind_eq_some_iff.mp h
  obtain ⟨experimental, -, h⟩ := Option.bind_eq_some_iff.mp h
  obtain ⟨updatedAt, -, h⟩ := Option.bind_eq_some_iff.mp h
  obtain ⟨balance, hbalance, h⟩ := Option.bind_eq_some_iff.mp h
  obtain ⟨windows, hwindows, h⟩ := Option.bind_eq_some_iff.mp h
  obtain ⟨total, -, h⟩ := Option.bind_eq_some_iff.mp h
  obtain ⟨problem, hproblem, h⟩ := Option.bind_eq_some_iff.mp h
  rw [← Option.some.inj h]
  exact ⟨⟨id, hid, rfl⟩, ⟨name, hname, rfl⟩, hbalance, hwindows, hproblem⟩

theorem terminated_projectProviderPage {t : Tree} {p : ProviderProjection}
    (h : projectProviderPage t = some p) : p.Terminated := by
  have hof := projectProviderPage_eq_some h
  obtain ⟨id, hid, hidField⟩ := hof.providerId
  obtain ⟨name, hname, hnameField⟩ := hof.displayName
  constructor
  · rw [hidField]
    exact terminated_textField (length_decodeAscii (by decide) hid)
  · rw [hnameField]
    exact terminated_textField (length_decodeUtf8 (by decide) hname)
  · exact terminated_projectBalance hof.balance
  · exact terminated_projectWindows hof.windows
  · exact terminated_projectProblem hof.problem

theorem terminated_projectPages {root : Tree} {p : PagesProjection}
    (h : projectPages root = some p) : p.Terminated := by
  obtain ⟨timezone, htimezone, h⟩ := Option.bind_eq_some_iff.mp h
  obtain ⟨providers, hproviders, h⟩ := Option.bind_eq_some_iff.mp h
  rw [← Option.some.inj h]
  refine ⟨terminated_nullableText (by decide) htimezone, fun provider hmem => ?_⟩
  obtain ⟨t, -, ht⟩ := exists_mem_of_forall₂ (mapM_eq_some.mp hproviders) hmem
  exact terminated_projectProviderPage ht

variable {candidate p : CodexProjection}

theorem projectCodexProvider_eq_some {t : Tree} (h : projectCodexProvider candidate t = some p) :
    (∃ name, (field t (bytes "display_name")).bind (decodeUtf8 displayTextCapacity) = some name ∧
      p.providerDisplayName = textField displayTextCapacity name) ∧
      (countedItems (field t (bytes "windows"))).mapM projectWindow = some p.windows ∧
      p.timezone = candidate.timezone ∧ p.sessionCount = candidate.sessionCount ∧
      p.featuredSession = candidate.featuredSession := by
  obtain ⟨name, hname, h⟩ := Option.bind_eq_some_iff.mp h
  obtain ⟨status, -, h⟩ := Option.bind_eq_some_iff.mp h
  obtain ⟨confidence, -, h⟩ := Option.bind_eq_some_iff.mp h
  obtain ⟨updatedAt, -, h⟩ := Option.bind_eq_some_iff.mp h
  obtain ⟨windows, hwindows, h⟩ := Option.bind_eq_some_iff.mp h
  obtain ⟨total, -, h⟩ := Option.bind_eq_some_iff.mp h
  rw [← Option.some.inj h]
  exact ⟨⟨name, hname, rfl⟩, hwindows, rfl, rfl, rfl⟩

theorem terminated_projectCodexProvider {t : Tree} (hcandidate : candidate.Terminated)
    (h : projectCodexProvider candidate t = some p) :
    p.Terminated := by
  obtain ⟨⟨name, hname, htext⟩, hwindows, htimezone, -, hfeatured⟩ := projectCodexProvider_eq_some h
  constructor
  · rw [htimezone]
    exact hcandidate.timezone
  · rw [htext]
    exact terminated_textField (length_decodeUtf8 (by decide) hname)
  · exact terminated_projectWindows hwindows
  · rw [hfeatured]
    exact hcandidate.featuredSession

theorem terminated_projectCodexSessions {sessions : List Tree} (hcandidate : candidate.Terminated)
    (h : projectCodexSessions candidate sessions = some p) :
    p.Terminated := by
  induction sessions generalizing candidate with
  | nil =>
    rw [← Option.some.inj h]
    exact hcandidate
  | cons t sessions ih =>
    rw [projectCodexSessions] at h
    split_ifs at h
    · exact ih hcandidate h
    · obtain ⟨projected, hprojected, h⟩ := Option.bind_eq_some_iff.mp h
      refine ih ?_ h
      refine ⟨hcandidate.timezone, hcandidate.providerDisplayName, hcandidate.windows, ?_⟩
      dsimp only
      split_ifs
      · exact terminated_projectSession hprojected
      · exact hcandidate.featuredSession

theorem terminated_projectCodex {root : Tree} (h : projectCodex root = some p) : p.Terminated := by
  obtain ⟨timezone, htimezone, h⟩ := Option.bind_eq_some_iff.mp h
  have hempty : (CodexProjection.mk timezone.1 timezone.2 false (textField displayTextCapacity [])
      .ok .verified none [] none 0 {}).Terminated := by
    refine ⟨terminated_nullableText (by decide) htimezone, terminated_textField (by decide),
      fun w hw => absurd hw List.not_mem_nil, ?_, ?_⟩
    · exact terminated_textField (by decide)
    · exact terminated_textField (by decide)
  dsimp only at h
  split at h
  · rw [← Option.some.inj h]
    exact hempty
  · obtain ⟨candidate, hcandidate, h⟩ := Option.bind_eq_some_iff.mp h
    exact terminated_projectCodexSessions (terminated_projectCodexProvider hempty hcandidate) h

/-! ### The result -/

/-- **Which accepted documents are projected**: both projections succeed on an accepted document,
with every text terminated within its array, if and only if the document is `Projectable`. -/
theorem projection_iff {document : Bytes} {metadata : Metadata}
    (h : deckAiSnapshotValidate true document = .ok metadata) {root : Tree}
    (hroot : Parser.parse document = some root) :
    (∃ codex pages, deckAiSnapshotProjectCodex true document = some codex ∧
      deckAiSnapshotProjectPages true document = some pages ∧ codex.Terminated ∧
      pages.Terminated) ↔ Projectable root := by
  obtain ⟨root', generatedAt, hroot', hvalid, haccepted⟩ := acceptedDocument h
  obtain rfl : root = root' := by simpa [hroot] using hroot'
  have hsound := sound_of_parse hroot hvalid
  have hcodex : deckAiSnapshotProjectCodex true document = projectCodex root := by
    unfold deckAiSnapshotProjectCodex projectDocument
    rw [h, hroot]
    rfl
  have hpages : deckAiSnapshotProjectPages true document = projectPages root := by
    unfold deckAiSnapshotProjectPages projectDocument
    rw [h, hroot]
    rfl
  rw [hcodex, hpages]
  constructor
  · rintro ⟨codex, pages, hcodex, hpages, -, -⟩
    obtain ⟨htimezone, hproviders⟩ :=
      (isSome_projectPages_iff haccepted hsound).mp (by rw [hpages]; rfl)
    exact ⟨htimezone, hproviders,
      (isSome_projectCodex_iff haccepted hsound htimezone hproviders).mp (by rw [hcodex]; rfl)⟩
  · rintro ⟨htimezone, hproviders, hsessions⟩
    obtain ⟨codex, hcodex⟩ := Option.isSome_iff_exists.mp
      ((isSome_projectCodex_iff haccepted hsound htimezone hproviders).mpr hsessions)
    obtain ⟨pages, hpages⟩ := Option.isSome_iff_exists.mp
      ((isSome_projectPages_iff haccepted hsound).mpr ⟨htimezone, hproviders⟩)
    exact ⟨codex, pages, hcodex, hpages, terminated_projectCodex hcodex,
      terminated_projectPages hpages⟩

/-- A time zone of so many two-byte characters. -/
def sampleZone (count : ℕ) : Tree := .string (List.replicate count [0xc3, 0xa9]).flatten

theorem projectDocument_eq_some {α : Type} {project : Tree → Option α} {allocated : Bool}
    {document : Bytes} {a : α} (h : projectDocument project allocated document = some a) :
    ∃ root, project root = some a := by
  unfold projectDocument at h
  split at h
  · cases h
  · split_ifs at h
    obtain ⟨root, -, hproject⟩ := Option.bind_eq_some_iff.mp h
    exact ⟨root, hproject⟩

/-- A time zone of 64 bytes. -/
theorem projection_iff_fits : Projectable (sampleRoot (sampleZone 32) []) := by
  obtain ⟨haccepted, hroot, hcodex, hpages⟩ :
      deckAiSnapshotValidate true (sampleRoot (sampleZone 32) []).print =
          .ok ⟨0, 1767225600000, 1, 0, 60⟩ ∧
        Parser.parse (sampleRoot (sampleZone 32) []).print = some (sampleRoot (sampleZone 32) []) ∧
        (deckAiSnapshotProjectCodex true (sampleRoot (sampleZone 32) []).print).isSome ∧
        (deckAiSnapshotProjectPages true (sampleRoot (sampleZone 32) []).print).isSome := by
    decide +kernel
  obtain ⟨codex, hcodex⟩ := Option.isSome_iff_exists.mp hcodex
  obtain ⟨pages, hpages⟩ := Option.isSome_iff_exists.mp hpages
  obtain ⟨root, hprojected⟩ := projectDocument_eq_some hcodex
  obtain ⟨root', hprojected'⟩ := projectDocument_eq_some hpages
  exact (projection_iff haccepted hroot).mp ⟨codex, pages, hcodex, hpages,
    terminated_projectCodex hprojected, terminated_projectPages hprojected'⟩

/-- A time zone of 66 bytes in 33 characters is accepted and cannot be projected. -/
theorem projection_fails :
    deckAiSnapshotValidate true (sampleRoot (sampleZone 33) []).print =
        .ok ⟨0, 1767225600000, 1, 0, 60⟩ ∧
      deckAiSnapshotProjectCodex true (sampleRoot (sampleZone 33) []).print = none ∧
      deckAiSnapshotProjectPages true (sampleRoot (sampleZone 33) []).print = none := by
  decide +kernel

end RlcdDeck.AiSnapshot
