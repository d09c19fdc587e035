import RlcdDeck.AiSnapshot.Validate
import Mathlib.Data.List.Lex

/-!
# The projections of `deck_ai_snapshot.cpp`

What `deck_ai_snapshot_project_codex` and `deck_ai_snapshot_project_pages` copy out of an accepted
document.  A character array is the list of its bytes (`textField`).  A `has_` flag and the number
it belongs to are one option, and a list stands for an array and its count.
-/

namespace RlcdDeck.AiSnapshot

open Json (Bytes Tree bytes quote backslash letterU hexQuad)
open Document (decodeAscii field)

/-! ### Texts -/

namespace Document

/-- `append_codepoint`, where it has room. -/
def encodedText (codepoint : ℕ) : Option Bytes :=
  if codepoint ≤ 0x7f then some [UInt8.ofNat codepoint]
  else if codepoint ≤ 0x7ff then
    some [UInt8.ofNat (0xc0 ||| codepoint >>> 6), UInt8.ofNat (0x80 ||| codepoint &&& 0x3f)]
  else if codepoint ≤ 0xffff then
    some [UInt8.ofNat (0xe0 ||| codepoint >>> 12), UInt8.ofNat (0x80 ||| codepoint >>> 6 &&& 0x3f),
      UInt8.ofNat (0x80 ||| codepoint &&& 0x3f)]
  else if codepoint ≤ 0x10ffff then
    some [UInt8.ofNat (0xf0 ||| codepoint >>> 18), UInt8.ofNat (0x80 ||| codepoint >>> 12 &&& 0x3f),
      UInt8.ofNat (0x80 ||| codepoint >>> 6 &&& 0x3f), UInt8.ofNat (0x80 ||| codepoint &&& 0x3f)]
  else none

/-- How many bytes a byte that is no backslash begins. -/
def characterSize (c : UInt8) : Option ℕ :=
  if c &&& 0xe0 = 0xc0 then some 2
  else if c &&& 0xf0 = 0xe0 then some 3
  else if c &&& 0xf8 = 0xf0 then some 4
  else if c ≥ 0x80 then none
  else some 1

/-- What one turn of the loop of `decode_utf8` writes, and what is left of the body. -/
def decodeStep : Bytes → Option (Bytes × Bytes)
  | [] => none
  | c :: bs =>
    if c ≠ backslash then
      match characterSize c with
      | none => none
      | some count => if bs.length < count - 1 then none else some ((c :: bs).take count, bs.drop (count - 1))
    else
      match bs with
      | [] => none
      | e :: bs =>
        if e = quote ∨ e = backslash ∨ e = 0x2f then some ([e], bs)
        else if e ≠ letterU then none
        else
          match bs with
          | h₁ :: h₂ :: h₃ :: h₄ :: bs =>
            match hexQuad h₁ h₂ h₃ h₄ with
            | none => none
            | some codepoint =>
              if Json.isHigh codepoint then
                match bs with
                | c' :: e' :: l₁ :: l₂ :: l₃ :: l₄ :: bs =>
                  if c' = backslash ∧ e' = letterU then
                    match hexQuad l₁ l₂ l₃ l₄ with
                    | none => none
                    | some low =>
                      if Json.isLow low then
                        (·, bs) <$> encodedText (0x10000 + (codepoint - 0xd800) <<< 10 + (low - 0xdc00))
                      else none
                  else none
                | _ => none
              else if Json.isLow codepoint then none
              else (·, bs) <$> encodedText codepoint
          | _ => none

/-- The loop of `decode_utf8`, with `written` bytes in a buffer of `capacity`; every turn takes one
byte or more. -/
def decodeUtf8Loop (capacity : ℕ) : ℕ → ℕ → Bytes → Option Bytes
  | _, _, [] => some []
  | 0, _, _ :: _ => none
  | fuel + 1, written, c :: bs =>
    match decodeStep (c :: bs) with
    | none => none
    | some (text, rest) =>
      if written + text.length ≥ capacity then none
      else (text ++ ·) <$> decodeUtf8Loop capacity fuel (written + text.length) rest

/-- `decode_utf8` into a buffer of `capacity` bytes. -/
def decodeUtf8 (capacity : ℕ) : Tree → Option Bytes
  | .string raw => decodeUtf8Loop capacity raw.length 0 raw
  | _ => none

end Document

open Document (decodeUtf8)

/-- An array of zeros after a text was written into it. -/
def textField (capacity : ℕ) (text : Bytes) : Bytes :=
  text ++ List.replicate (capacity - text.length) 0

/-- `DECK_AI_SNAPSHOT_DISPLAY_TEXT_CAPACITY`. -/
def displayTextCapacity : ℕ := 48 * 4 + 1

/-- `DECK_AI_SNAPSHOT_WINDOW_NAME_CAPACITY`. -/
def windowNameCapacity : ℕ := 25

/-- `DECK_AI_SNAPSHOT_SESSION_ID_CAPACITY`. -/
def sessionIdCapacity : ℕ := 65

/-- `DECK_AI_SNAPSHOT_TIMEZONE_CAPACITY`. -/
def timezoneCapacity : ℕ := 65

/-- `DECK_AI_SNAPSHOT_PROVIDER_ID_CAPACITY`. -/
def providerIdCapacity : ℕ := 33

/-- `DECK_AI_SNAPSHOT_CURRENCY_CAPACITY`. -/
def currencyCapacity : ℕ := 4

/-- `DECK_AI_SNAPSHOT_ERROR_CODE_CAPACITY`. -/
def errorCodeCapacity : ℕ := 24

/-! ### Names -/

/-- `deck_ai_snapshot_provider_status_t`. -/
inductive ProviderStatus where
  | ok
  | degraded
  | unavailable

/-- `deck_ai_snapshot_confidence_t`. -/
inductive Confidence where
  | verified
  | inferred
  | unavailable

/-- `deck_ai_snapshot_session_state_t`. -/
inductive SessionState where
  | running
  | waitingApproval
  | waitingInput
  | completed
  | failed
  | recent
  | ended
  | unknown
  | unavailable

/-- The value of the first name that the field equals. -/
def named {α : Type} (t : Option Tree) (names : List (Bytes × α)) : Option α :=
  (names.find? fun name => equals t name.1).map (·.2)

/-- `project_confidence`. -/
def projectConfidence (t : Option Tree) : Option Confidence :=
  named t [(bytes "verified", .verified), (bytes "inferred", .inferred),
    (bytes "unavailable", .unavailable)]

/-- `project_provider_status`. -/
def projectProviderStatus (t : Option Tree) : Option ProviderStatus :=
  named t [(bytes "ok", .ok), (bytes "degraded", .degraded), (bytes "unavailable", .unavailable)]

/-- `project_session_state`. -/
def projectSessionState (t : Option Tree) : Option SessionState :=
  named t [(bytes "running", .running), (bytes "waiting_approval", .waitingApproval),
    (bytes "waiting_input", .waitingInput), (bytes "completed", .completed),
    (bytes "failed", .failed), (bytes "recent", .recent), (bytes "ended", .ended),
    (bytes "unknown", .unknown), (bytes "unavailable", .unavailable)]

/-- `session_priority`. -/
def sessionPriority : SessionState → ℕ
  | .waitingApproval => 90
  | .waitingInput => 80
  | .running => 70
  | .recent => 60
  | .unknown => 50
  | .failed => 40
  | .completed => 30
  | .ended => 20
  | .unavailable => 10

/-! ### Windows and sessions -/

/-- `deck_ai_snapshot_quota_projection_t`. -/
structure QuotaProjection where
  name : Bytes
  usedBasisPoints : Option UInt16
  remainingBasisPoints : Option UInt16
  windowMinutes : Option UInt32
  resetsAtUnixMs : Option UInt64

/-- `project_window`. -/
def projectWindow (t : Tree) : Option QuotaProjection := do
  let name ← (field t (bytes "name")).bind (decodeAscii windowNameCapacity)
  let used ← nullableUnsigned (field t (bytes "used_basis_points")) 0 10000
  let remaining ← nullableUnsigned (field t (bytes "remaining_basis_points")) 0 10000
  let minutes ← nullableUnsigned (field t (bytes "window_minutes")) 1 525600
  let resetsAt ← nullableTime (field t (bytes "resets_at")) (2 ^ 64 - 1)
  return {
    name := textField windowNameCapacity name
    usedBasisPoints := used.map UInt16.ofNat
    remainingBasisPoints := remaining.map UInt16.ofNat
    windowMinutes := minutes.map UInt32.ofNat
    resetsAtUnixMs := resetsAt.map UInt64.ofNat }

/-- `deck_ai_snapshot_session_projection_t`. -/
structure SessionProjection where
  present : Bool := false
  sessionId : Bytes := textField sessionIdCapacity []
  hasDisplayName : Bool := false
  displayName : Bytes := textField displayTextCapacity []
  state : SessionState := .running
  confidence : Confidence := .verified
  lastActivityAtUnixMs : Option UInt64 := none
  durationSeconds : Option UInt32 := none
  turnTokens : Option UInt64 := none
  contextUsedBasisPoints : Option UInt16 := none

/-- A field that is null or a text: the flag and the array. -/
def nullableText (t : Option Tree) (capacity : ℕ) : Option (Bool × Bytes) :=
  if isNull t then some (false, textField capacity [])
  else (t.bind (decodeUtf8 capacity)).map fun text => (true, textField capacity text)

/-- `project_session`. -/
def projectSession (t : Tree) : Option SessionProjection := do
  let sessionId ← (field t (bytes "session_id")).bind (decodeAscii sessionIdCapacity)
  let state ← projectSessionState (field t (bytes "state"))
  let confidence ← projectConfidence (field t (bytes "confidence"))
  let displayName ← nullableText (field t (bytes "display_name")) displayTextCapacity
  let lastActivity ← nullableTime (field t (bytes "last_activity_at")) (2 ^ 64 - 1)
  let duration ← nullableUnsigned (field t (bytes "duration_seconds")) 0 31536000
  let turnTokens ← nullableUnsigned (field t (bytes "turn_tokens")) 0 maximumSafeInteger
  let contextUsed ← nullableUnsigned (field t (bytes "context_used_basis_points")) 0 10000
  return {
    present := true
    sessionId := textField sessionIdCapacity sessionId
    hasDisplayName := displayName.1
    displayName := displayName.2
    state := state
    confidence := confidence
    lastActivityAtUnixMs := lastActivity.map UInt64.ofNat
    durationSeconds := duration.map UInt32.ofNat
    turnTokens := turnTokens.map UInt64.ofNat
    contextUsedBasisPoints := contextUsed.map UInt16.ofNat }

/-- `std::strcmp(left, right) < 0`: C strings are compared as unsigned bytes. -/
def strcmpLess (left right : Bytes) : Bool :=
  (cString left).map UInt8.toNat < (cString right).map UInt8.toNat

/-- `session_is_better`. -/
def sessionIsBetter (candidate current : SessionProjection) : Bool :=
  if !current.present then true
  else
    let candidatePriority := sessionPriority candidate.state
    let currentPriority := sessionPriority current.state
    if candidatePriority ≠ currentPriority then candidatePriority > currentPriority
    else
      match candidate.lastActivityAtUnixMs, current.lastActivityAtUnixMs with
      | some candidateTime, some currentTime =>
        if candidateTime ≠ currentTime then candidateTime > currentTime
        else strcmpLess candidate.sessionId current.sessionId
      | some _, none => true
      | none, some _ => false
      | none, none => strcmpLess candidate.sessionId current.sessionId

/-! ### Pages -/

/-- `deck_ai_snapshot_provider_projection_t`. -/
structure ProviderProjection where
  providerId : Bytes
  displayName : Bytes
  status : ProviderStatus
  confidence : Confidence
  experimental : Bool
  updatedAtUnixMs : Option UInt64
  balanceAmountMicros : Option UInt64
  balanceCurrency : Bytes
  windows : List QuotaProjection
  totalTokens : Option UInt64
  hasError : Bool
  errorCode : Bytes

/-- The elements that a loop with a `uint8_t` counter up to `array_count` visits. -/
def countedItems (t : Option Tree) : List Tree :=
  let items := (arrayItems t).getD []
  items.take (items.length % 256)

/-- The balance of `project_provider_page`. -/
def projectBalance (balance : Option Tree) : Option (Option UInt64 × Bytes) :=
  if isNull balance then some (none, textField currencyCapacity [])
  else do
    let balance ← balance
    let amount ← unsignedBetween (field balance (bytes "amount_micros")) 0 maximumSafeInteger
    let currency ← (field balance (bytes "currency")).bind (decodeAscii currencyCapacity)
    return (some (UInt64.ofNat amount), textField currencyCapacity currency)

/-- The tokens of a provider. -/
def projectTotal (tokens : Option Tree) : Option (Option UInt64) :=
  if isNull tokens then some none
  else do
    let total ← nullableUnsigned (field (← tokens) (bytes "total")) 0 maximumSafeInteger
    return total.map UInt64.ofNat

/-- The error of `project_provider_page`. -/
def projectProblem (problem : Option Tree) : Option (Bool × Bytes) :=
  if isNull problem then some (false, textField errorCodeCapacity [])
  else do
    let code ← (field (← problem) (bytes "code")).bind (decodeAscii errorCodeCapacity)
    return (true, textField errorCodeCapacity code)

/-- `project_provider_page`. -/
def projectProviderPage (t : Tree) : Option ProviderProjection := do
  let providerId ← (field t (bytes "provider_id")).bind (decodeAscii providerIdCapacity)
  let displayName ← (field t (bytes "display_name")).bind (decodeUtf8 displayTextCapacity)
  let status ← projectProviderStatus (field t (bytes "status"))
  let confidence ← projectConfidence (field t (bytes "confidence"))
  let experimental ← booleanValue (field t (bytes "experimental"))
  let updatedAt ← nullableTime (field t (bytes "updated_at")) (2 ^ 64 - 1)
  let balance ← projectBalance (field t (bytes "balance"))
  let windows ← (countedItems (field t (bytes "windows"))).mapM projectWindow
  let total ← projectTotal (field t (bytes "tokens"))
  let problem ← projectProblem (field t (bytes "error"))
  return {
    providerId := textField providerIdCapacity providerId
    displayName := textField displayTextCapacity displayName
    status := status
    confidence := confidence
    experimental := experimental
    updatedAtUnixMs := updatedAt.map UInt64.ofNat
    balanceAmountMicros := balance.1
    balanceCurrency := balance.2
    windows := windows
    totalTokens := total
    hasError := problem.1
    errorCode := problem.2 }

/-- `deck_ai_snapshot_pages_projection_t`. -/
structure PagesProjection where
  hasTimezone : Bool
  timezone : Bytes
  providers : List ProviderProjection

/-- `project_pages`. -/
def projectPages (root : Tree) : Option PagesProjection := do
  let timezone ← nullableText (field root (bytes "timezone")) timezoneCapacity
  let providers ← (countedItems (field root (bytes "providers"))).mapM projectProviderPage
  return { hasTimezone := timezone.1, timezone := timezone.2, providers }

/-! ### Codex -/

/-- `deck_ai_snapshot_codex_projection_t`. -/
structure CodexProjection where
  hasTimezone : Bool
  timezone : Bytes
  providerPresent : Bool := false
  providerDisplayName : Bytes := textField displayTextCapacity []
  providerStatus : ProviderStatus := .ok
  providerConfidence : Confidence := .verified
  providerUpdatedAtUnixMs : Option UInt64 := none
  windows : List QuotaProjection := []
  totalTokens : Option UInt64 := none
  sessionCount : ℕ := 0
  featuredSession : SessionProjection := {}

/-- The provider or session belongs to Codex. -/
def isCodex (t : Tree) : Bool := equals (field t (bytes "provider_id")) (bytes "codex")

/-- The body of the loop over the providers, once it has found the one of Codex. -/
def projectCodexProvider (candidate : CodexProjection) (t : Tree) : Option CodexProjection := do
  let displayName ← (field t (bytes "display_name")).bind (decodeUtf8 displayTextCapacity)
  let status ← projectProviderStatus (field t (bytes "status"))
  let confidence ← projectConfidence (field t (bytes "confidence"))
  let updatedAt ← nullableTime (field t (bytes "updated_at")) (2 ^ 64 - 1)
  let windows ← (countedItems (field t (bytes "windows"))).mapM projectWindow
  let total ← projectTotal (field t (bytes "tokens"))
  return { candidate with
    providerPresent := true
    providerDisplayName := textField displayTextCapacity displayName
    providerStatus := status
    providerConfidence := confidence
    providerUpdatedAtUnixMs := updatedAt.map UInt64.ofNat
    windows := windows
    totalTokens := total }

/-- The loop over the sessions. -/
def projectCodexSessions : CodexProjection → List Tree → Option CodexProjection
  | candidate, [] => some candidate
  | candidate, t :: sessions =>
    if !isCodex t then projectCodexSessions candidate sessions
    else if candidate.sessionCount = 255 then none
    else do
      let projected ← projectSession t
      projectCodexSessions
        { candidate with
          sessionCount := candidate.sessionCount + 1
          featuredSession :=
            if sessionIsBetter projected candidate.featuredSession then projected
            else candidate.featuredSession }
        sessions

/-- `project_codex`. -/
def projectCodex (root : Tree) : Option CodexProjection := do
  let timezone ← nullableText (field root (bytes "timezone")) timezoneCapacity
  let candidate : CodexProjection := { hasTimezone := timezone.1, timezone := timezone.2 }
  match ((arrayItems (field root (bytes "providers"))).getD []).find? isCodex with
  | none => return candidate
  | some provider =>
    let candidate ← projectCodexProvider candidate provider
    projectCodexSessions candidate ((arrayItems (field root (bytes "sessions"))).getD [])

/-! ### The interface -/

/-- What both public functions do: `none` where they answer false and clear the projection;
`allocated` says whether the heap had room for the nodes. -/
def projectDocument {α : Type} (project : Tree → Option α) (allocated : Bool) (document : Bytes) :
    Option α :=
  match deckAiSnapshotValidate allocated document with
  | .error _ => none
  | .ok _ => if !allocated then none else (Parser.parse document).bind project

/-- `deck_ai_snapshot_project_codex`. -/
def deckAiSnapshotProjectCodex (allocated : Bool) (document : Bytes) : Option CodexProjection :=
  projectDocument projectCodex allocated document

/-- `deck_ai_snapshot_project_pages`. -/
def deckAiSnapshotProjectPages (allocated : Bool) (document : Bytes) : Option PagesProjection :=
  projectDocument projectPages allocated document

end RlcdDeck.AiSnapshot
