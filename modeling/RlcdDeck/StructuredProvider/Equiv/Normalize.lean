import RlcdDeck.Json.Equiv.Print
import RlcdDeck.StructuredProvider.State

/-!
# Normalised definitions

`normalizeConfig` looks at a definition in one set of checks (`Accepted`).  Of the references of its
headers it asks only that they are valid (`accepted_withReferences`), and what it has made of a
definition it accepts and leaves as it is (`normalizeConfig_normalized`).
-/

namespace RlcdDeck.StructuredProvider

open AiSnapshot.Companion (isLower isUpper)
open ConfigModel (Network Url)
open Json (Bytes bytes isDigit)
open SecretStore (Reference validReference)

/-! ### Header names -/

theorem piecesLoop_ascii {s : Bytes} (h : ∀ c ∈ s, c.toNat < 0x80) :
    Utf8.piecesLoop s.length s = s.map fun c => (some c.toNat, [c]) := by
  induction s with
  | nil => rfl
  | cons c s ih =>
    rw [List.forall_mem_cons] at h
    rw [List.length_cons, Utf8.piecesLoop, Json.next_ascii h.1, ih h.2, List.map_cons]
    have hlength : (c :: s).length - s.length = 1 := by
      rw [List.length_cons]
      omega
    rw [hlength]
    rfl

/-- A text without spaces is not trimmed. -/
theorem trimSpace_eq_self {s : Bytes}
    (h : ∀ c ∈ s, c.toNat < 0x80 ∧ Utf8.isSpace c.toNat = false) : Utf8.trimSpace s = s := by
  have hdrop : ∀ {pieces : List (Option ℕ × Bytes)},
      (∀ piece ∈ pieces, ∃ c ∈ s, piece.1 = some c.toNat) →
      (pieces.dropWhile fun piece => piece.1.any Utf8.isSpace) = pieces := by
    intro pieces hall
    cases pieces with
    | nil => rfl
    | cons piece pieces =>
      obtain ⟨c, hc, hpiece⟩ := hall piece List.mem_cons_self
      have hblank : piece.1.any Utf8.isSpace = false := by
        rw [hpiece]
        exact (h c hc).2
      rw [List.dropWhile_cons, if_neg (by rw [hblank]; exact Bool.false_ne_true)]
  have hfront : ∀ piece ∈ s.map fun c => ((some c.toNat, [c]) : Option ℕ × Bytes),
      ∃ c ∈ s, piece.1 = some c.toNat := by
    intro piece hpiece
    obtain ⟨c, hc, rfl⟩ := List.mem_map.mp hpiece
    exact ⟨c, hc, rfl⟩
  unfold Utf8.trimSpace
  rw [piecesLoop_ascii fun c hc => (h c hc).1]
  dsimp only
  rw [hdrop hfront, hdrop fun piece hpiece => hfront piece (List.mem_reverse.mp hpiece),
    List.reverse_reverse, List.flatMap_map]
  simp

variable {c : UInt8}

theorem headerByte_visible
    (h : (isLower c || isUpper c || isDigit c || decide (c ∈ bytes "!#$%&'*+-.^_|~")) = true) :
    c.toNat < 0x80 ∧ Utf8.isSpace c.toNat = false := by
  have hrange : 0x21 ≤ c.toNat ∧ c.toNat ≤ 0x7e := by
    simp only [Bool.or_eq_true, decide_eq_true_eq] at h
    rcases h with ((hlower | hupper) | hdigit) | hother
    · simp only [isLower, Bool.and_eq_true, decide_eq_true_eq] at hlower
      omega
    · simp only [isUpper, Bool.and_eq_true, decide_eq_true_eq] at hupper
      omega
    · simp only [isDigit, Bool.and_eq_true, decide_eq_true_eq] at hdigit
      omega
    · have hall : ∀ d ∈ bytes "!#$%&'*+-.^_|~", 0x21 ≤ d.toNat ∧ d.toNat ≤ 0x7e := by
        decide +kernel
      exact hall c hother
  refine ⟨by omega, ?_⟩
  simp only [Utf8.isSpace, Bool.or_eq_false_iff, Bool.and_eq_false_iff, decide_eq_false_iff_not,
    beq_eq_false_iff_ne]
  omega

/-- The letter that `capitalize` writes. -/
def capitalLetter (capital : Bool) (c : UInt8) : UInt8 :=
  if capital && isLower c then c - 0x20 else if !capital && isUpper c then c + 0x20 else c

theorem toNat_upper (h : isLower c = true) : (c - 0x20).toNat = c.toNat - 0x20 := by
  simp only [isLower, Bool.and_eq_true, decide_eq_true_eq] at h
  rw [UInt8.toNat_sub_of_le]
  · rfl
  · rw [UInt8.le_iff_toNat_le]
    exact Nat.le_trans (by decide) h.1

theorem toNat_lower (h : isUpper c = true) : (c + 0x20).toNat = c.toNat + 0x20 := by
  simp only [isUpper, Bool.and_eq_true, decide_eq_true_eq] at h
  rw [UInt8.toNat_add]
  show (c.toNat + 0x20) % 256 = _
  omega

theorem capitalLetter_capitalLetter (capital : Bool) (c : UInt8) :
    capitalLetter capital (capitalLetter capital c) = capitalLetter capital c := by
  cases capital with
  | true =>
    by_cases h : isLower c = true
    · have hup : isLower (c - 0x20) = false := by
        have hn := toNat_upper h
        simp only [isLower, Bool.and_eq_true, decide_eq_true_eq] at h
        simp only [isLower, hn, Bool.and_eq_false_iff, decide_eq_false_iff_not]
        omega
      simp [capitalLetter, h, hup]
    · simp [capitalLetter, h]
  | false =>
    by_cases h : isUpper c = true
    · have hlow : isUpper (c + 0x20) = false := by
        have hn := toNat_lower h
        simp only [isUpper, Bool.and_eq_true, decide_eq_true_eq] at h
        simp only [isUpper, hn, Bool.and_eq_false_iff, decide_eq_false_iff_not]
        omega
      simp [capitalLetter, h, hlow]
    · simp [capitalLetter, h]

theorem capitalize_cons (capital : Bool) (c : UInt8) (name : Bytes) :
    capitalize capital (c :: name) =
      capitalLetter capital c :: capitalize (capitalLetter capital c == 0x2d) name := rfl

theorem capitalize_capitalize (capital : Bool) (name : Bytes) :
    capitalize capital (capitalize capital name) = capitalize capital name := by
  induction name generalizing capital with
  | nil => rfl
  | cons c name ih =>
    rw [capitalize_cons, capitalize_cons, capitalLetter_capitalLetter, ih]

theorem validHeaderFieldByte_capitalLetter {capital : Bool} (h : validHeaderFieldByte c = true) :
    validHeaderFieldByte (capitalLetter capital c) = true := by
  unfold capitalLetter
  split_ifs with hlower hupper
  · have hl : isLower c = true := (Bool.and_eq_true _ _ |>.mp hlower).2
    have hn := toNat_upper hl
    have hu : isUpper (c - 0x20) = true := by
      simp only [isLower, Bool.and_eq_true, decide_eq_true_eq] at hl
      simp only [isUpper, hn, Bool.and_eq_true, decide_eq_true_eq]
      omega
    simp [validHeaderFieldByte, hu]
  · have hu : isUpper c = true := (Bool.and_eq_true _ _ |>.mp hupper).2
    have hn := toNat_lower hu
    have hl : isLower (c + 0x20) = true := by
      simp only [isUpper, Bool.and_eq_true, decide_eq_true_eq] at hu
      simp only [isLower, hn, Bool.and_eq_true, decide_eq_true_eq]
      omega
    simp [validHeaderFieldByte, hl]
  · exact h

theorem validHeaderFieldByte_capitalize {capital : Bool} {name : Bytes}
    (h : name.all validHeaderFieldByte = true) :
    (capitalize capital name).all validHeaderFieldByte = true := by
  induction name generalizing capital with
  | nil => rfl
  | cons c name ih =>
    rw [List.all_cons, Bool.and_eq_true] at h
    rw [capitalize_cons, List.all_cons, Bool.and_eq_true]
    exact ⟨validHeaderFieldByte_capitalLetter h.1, ih h.2⟩

theorem canonicalHeaderKey_canonicalHeaderKey (name : Bytes) :
    canonicalHeaderKey (canonicalHeaderKey name) = canonicalHeaderKey name := by
  unfold canonicalHeaderKey
  by_cases h : name.all validHeaderFieldByte = true
  · rw [if_pos h, if_pos (validHeaderFieldByte_capitalize h), capitalize_capitalize]
  · rw [if_neg h, if_neg h]

theorem canonicalHeaderKey_trimSpace {name : Bytes}
    (h : validHeaderName (canonicalHeaderKey (Utf8.trimSpace name)) = true) :
    canonicalHeaderKey (Utf8.trimSpace (canonicalHeaderKey (Utf8.trimSpace name))) =
      canonicalHeaderKey (Utf8.trimSpace name) := by
  have hvisible : ∀ c ∈ canonicalHeaderKey (Utf8.trimSpace name),
      c.toNat < 0x80 ∧ Utf8.isSpace c.toNat = false := fun c hc =>
    headerByte_visible (List.all_eq_true.mp h c hc)
  rw [trimSpace_eq_self hvisible, canonicalHeaderKey_canonicalHeaderKey]

/-! ### References of headers -/

/-- The definition with the references at its headers. -/
def withReferences (definition : Definition) (references : ℕ → Reference) : Definition :=
  { definition with
    request := { definition.request with
      headers := definition.request.headers.map (·.mapIdx fun index header =>
        { header with secretReference := references index }) } }

@[simp] theorem headers_withReferences (definition : Definition) (references : ℕ → Reference) :
    (withReferences definition references).headers = definition.headers.mapIdx fun index header =>
      { header with secretReference := references index } := by
  unfold withReferences Definition.headers
  cases definition.request.headers with
  | none => rfl
  | some headers => rfl

theorem validReference_length {reference : Reference} (h : validReference reference = true) :
    reference.length = 39 := by
  simp only [validReference, Bool.and_eq_true, beq_iff_eq] at h
  exact h.1.1

variable {headers : List Header} {references references' : ℕ → Reference}

/-- The loop over the headers, from other references. -/
theorem headersLoop_withReferences (h : ∀ i < headers.length, validReference (references i) = true)
    (h' : ∀ i < headers.length, validReference (references' i) = true) (seen : List Bytes)
    (total : ℕ) :
    headersLoop seen total (headers.mapIdx fun i header =>
        { header with secretReference := references' i }) =
      (headersLoop seen total (headers.mapIdx fun i header =>
        { header with secretReference := references i })).map (·.mapIdx fun i header =>
          { header with secretReference := references' i }) := by
  induction headers generalizing references references' seen total with
  | nil => rfl
  | cons header headers ih =>
    have hhead := h 0 (Nat.zero_lt_succ _)
    have hhead' := h' 0 (Nat.zero_lt_succ _)
    have htail := @ih (fun i => references (i + 1)) (fun i => references' (i + 1))
      (fun i hi => h (i + 1) (Nat.succ_lt_succ hi)) (fun i hi => h' (i + 1) (Nat.succ_lt_succ hi))
    rw [List.mapIdx_cons, List.mapIdx_cons]
    unfold headersLoop
    simp only [hhead, hhead', validReference_length hhead, validReference_length hhead', htail]
    split_ifs
    · rfl
    · rfl
    · rfl
    · rw [Option.map_map, Option.map_map]
      congr 1
      funext out
      simp [List.mapIdx_cons]

/-! ### The checks -/

/-- What `normalizeConfig` asks of a definition, with the parts that it computes. -/
structure Accepted (network : Network) (source : Definition) (headers : List Header) (target : Url)
    (mapping : CompiledMapping) : Prop where
  id : (providerIdPattern source.id && source.id.length ≤ 32 && source.id != bytes "codex" &&
    source.id != bytes "cursor" && validDisplayText source.displayName 48) = true
  method : ((withDefaults source []).request.method == bytes "GET" ||
    (withDefaults source []).request.method == bytes "POST") = true
  target : checkTarget network source.request.url = .ok target
  body : validBody (withDefaults source []).request.method source.request.body = true
  normalized : normalizeHeaders source.request.headers = some headers
  timeout : decide ((withDefaults source headers).requestTimeoutSeconds ≤ 30) = true
  refresh : allowedRefresh (withDefaults source headers).refreshMinutes = true
  response : decide ((withDefaults source headers).maximumResponseBytes ≤ defaultMaximumResponse) =
    true
  compiled : compileMapping (withDefaults source headers).mapping = some mapping
  provider : validDefinitionProvider (withDefaults source headers) mapping = true

theorem bind_eq_ok {α β : Type} {e : Except Failure α} {f : α → Except Failure β} {b : β} :
    (e >>= f) = .ok b ↔ ∃ a, e = .ok a ∧ f a = .ok b := by
  cases e with
  | error failure => simp [bind, Except.bind]
  | ok a => simp [bind, Except.bind]

theorem ensure_eq_ok {condition : Bool} {failure : Failure} {u : Unit} :
    ensure condition failure = .ok u ↔ condition = true := by
  unfold ensure
  split_ifs with h
  · simp [h]
  · simp [h]

theorem orInvalid_eq_ok {α : Type} {o : Option α} {a : α} : orInvalid o = .ok a ↔ o = some a := by
  cases o with
  | none => simp [orInvalid]
  | some b => simp [orInvalid]

variable {network : Network} {source : Definition}

theorem normalizeConfig_eq_ok {n : NormalizedConfig} :
    normalizeConfig network source = .ok n ↔
      ∃ headers target mapping, Accepted network source headers target mapping ∧
        n = ⟨withDefaults source headers, target, mapping,
          if target.scheme = bytes "http" then bytes "private-network HTTP is not encrypted"
          else []⟩ := by
  unfold normalizeConfig
  simp only [bind_eq_ok, ensure_eq_ok, orInvalid_eq_ok]
  constructor
  · rintro ⟨_, hid, _, hmethod, target, htarget, _, hbody, headers, hheaders, _, htimeout, _,
      hrefresh, _, hresponse, mapping, hmapping, _, hprovider, hresult⟩
    exact ⟨headers, target, mapping, ⟨hid, hmethod, htarget, hbody, hheaders, htimeout, hrefresh,
      hresponse, hmapping, hprovider⟩, (Except.ok.inj hresult).symm⟩
  · rintro ⟨headers, target, mapping, h, rfl⟩
    exact ⟨(), h.id, (), h.method, target, h.target, (), h.body, headers, h.normalized, (), h.timeout,
      (), h.refresh, (), h.response, mapping, h.compiled, (), h.provider, rfl⟩

/-! ### Other references -/

theorem normalizeHeaders_withReferences {definition : Definition}
    (h : ∀ i < definition.headers.length, validReference (references i) = true)
    (h' : ∀ i < definition.headers.length, validReference (references' i) = true)
    (hnormalized : normalizeHeaders (withReferences definition references).request.headers =
      some headers) :
    normalizeHeaders (withReferences definition references').request.headers =
      some (headers.mapIdx fun i header => { header with secretReference := references' i }) := by
  have hheaders : ∀ r, (withReferences definition r).request.headers.getD [] =
      definition.headers.mapIdx fun i header => { header with secretReference := r i } :=
    fun r => headers_withReferences definition r
  unfold normalizeHeaders at hnormalized ⊢
  rw [hheaders] at hnormalized ⊢
  rw [List.length_mapIdx] at hnormalized ⊢
  split_ifs at hnormalized ⊢ with hlength
  rw [headersLoop_withReferences h h', hnormalized]
  rfl

variable {target : Url} {mapping : CompiledMapping}

theorem accepted_withReferences {definition : Definition}
    (h : ∀ i < definition.headers.length, validReference (references i) = true)
    (h' : ∀ i < definition.headers.length, validReference (references' i) = true)
    (haccepted : Accepted network (withReferences definition references) headers target mapping) :
    Accepted network (withReferences definition references')
      (headers.mapIdx fun i header => { header with secretReference := references' i }) target
      mapping where
  id := haccepted.id
  method := haccepted.method
  target := haccepted.target
  body := haccepted.body
  normalized := normalizeHeaders_withReferences h h' haccepted.normalized
  timeout := haccepted.timeout
  refresh := haccepted.refresh
  response := haccepted.response
  compiled := haccepted.compiled
  provider := haccepted.provider

/-! ### What is normalised stays -/

theorem withDefaults_withDefaults (definition : Definition) (headers headers' : List Header) :
    withDefaults (withDefaults definition headers) headers' = withDefaults definition headers' := by
  have hmethod : ∀ method : Bytes,
      (if (if method.isEmpty then bytes "GET" else method).isEmpty then bytes "GET"
        else if method.isEmpty then bytes "GET" else method) =
      if method.isEmpty then bytes "GET" else method := by
    intro method
    split_ifs with h h'
    · rfl
    · rfl
    · rfl
  have htimeout : ∀ timeout : UInt16,
      (if (if timeout = 0 then defaultRequestTimeout else timeout) = 0 then defaultRequestTimeout
        else if timeout = 0 then defaultRequestTimeout else timeout) =
      if timeout = 0 then defaultRequestTimeout else timeout := by
    intro timeout
    split_ifs with h h'
    · rfl
    · rfl
    · rfl
  have hresponse : ∀ response : ℤ,
      (if (if response ≤ 0 then defaultMaximumResponse else response) ≤ 0 then
        defaultMaximumResponse
        else if response ≤ 0 then defaultMaximumResponse else response) =
      if response ≤ 0 then defaultMaximumResponse else response := by
    intro response
    split_ifs with h h'
    · rfl
    · rfl
    · rfl
  unfold withDefaults
  simp only [hmethod, htimeout, hresponse]

theorem headersLoop_length {normalized : List Header} {seen : List Bytes} {total : ℕ}
    (h : headersLoop seen total headers = some normalized) :
    normalized.length = headers.length := by
  induction headers generalizing normalized seen total with
  | nil =>
    obtain rfl := Option.some.inj h
    rfl
  | cons header headers ih =>
    unfold headersLoop at h
    dsimp only at h
    split_ifs at h
    obtain ⟨tail, htail, rfl⟩ := Option.map_eq_some_iff.mp h
    rw [List.length_cons, List.length_cons, ih htail]

theorem Accepted.length_headers (h : Accepted network source headers target mapping) :
    headers.length = source.headers.length := by
  have hloop := h.normalized
  unfold normalizeHeaders at hloop
  split_ifs at hloop
  exact headersLoop_length hloop

theorem headersLoop_normalized {normalized : List Header} {seen : List Bytes} {total : ℕ}
    (h : headersLoop seen total headers = some normalized) :
    headersLoop seen total normalized = some normalized := by
  induction headers generalizing normalized seen total with
  | nil =>
    obtain rfl := Option.some.inj h
    rfl
  | cons header headers ih =>
    unfold headersLoop at h
    dsimp only at h
    split_ifs at h with hbad hseen htotal
    obtain ⟨tail, htail, rfl⟩ := Option.map_eq_some_iff.mp h
    have hname : validHeaderName (canonicalHeaderKey (Utf8.trimSpace header.name)) = true := by
      by_contra hinvalid
      simp [hinvalid] at hbad
    unfold headersLoop
    dsimp only
    rw [canonicalHeaderKey_trimSpace hname, if_neg hbad, if_neg hseen, if_neg htotal, ih htail]
    rfl

theorem normalizeHeaders_normalized {source : Option (List Header)}
    (h : normalizeHeaders source = some headers) :
    normalizeHeaders (some headers) = some headers := by
  unfold normalizeHeaders at h ⊢
  split_ifs at h with hlength
  have hsame := headersLoop_length h
  rw [if_neg, Option.getD_some, headersLoop_normalized h]
  rwa [Option.getD_some, hsame]

theorem accepted_normalized (h : Accepted network source headers target mapping) :
    Accepted network (withDefaults source headers) headers target mapping := by
  have hdefaults := withDefaults_withDefaults source headers
  constructor
  · exact h.id
  · rw [hdefaults]
    exact h.method
  · exact h.target
  · rw [hdefaults]
    exact h.body
  · exact normalizeHeaders_normalized h.normalized
  · rw [hdefaults]
    exact h.timeout
  · rw [hdefaults]
    exact h.refresh
  · rw [hdefaults]
    exact h.response
  · rw [hdefaults]
    exact h.compiled
  · rw [hdefaults]
    exact h.provider

/-- **A fixed point**: a normalised definition is accepted and stays as it is. -/
theorem normalizeConfig_normalized {n : NormalizedConfig}
    (h : normalizeConfig network source = .ok n) :
    ∃ n', normalizeConfig network n.definition = .ok n' ∧ n'.definition = n.definition := by
  obtain ⟨headers, target, mapping, haccepted, rfl⟩ := normalizeConfig_eq_ok.mp h
  exact ⟨_, normalizeConfig_eq_ok.mpr ⟨headers, target, mapping, accepted_normalized haccepted, rfl⟩,
    withDefaults_withDefaults source headers headers⟩

end RlcdDeck.StructuredProvider
