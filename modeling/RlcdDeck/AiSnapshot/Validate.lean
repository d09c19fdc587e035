import RlcdDeck.AiSnapshot.Parser
import RlcdDeck.AiSnapshot.Store

/-!
# `deck_ai_snapshot_validate`

The checks of `deck_ai_snapshot.cpp` on a parsed document.  A missing field is `none` where the
code has `kNoNode`; what a function returns besides its verdict is the value of its `.ok`.
-/

namespace RlcdDeck.AiSnapshot

open Json (Bytes Tree bytes backslash letterU isDigit hexQuad)
open Document (decodeAscii stringEquals field unsignedInteger safeText)

/-- `kMaximumSafeInteger`. -/
def maximumSafeInteger : ℕ := 9007199254740991

/-- `kMaximumForwardFields`. -/
def maximumForwardFields : ℕ := 16

/-- `return` unless the condition holds. -/
def check (condition : Bool) (rejection : Rejection) : Except Rejection Unit :=
  if condition then .ok () else .error rejection

/-- A field that an earlier check has found. -/
def present {α : Type} : Option α → Except Rejection α
  | none => .error .malformed
  | some a => .ok a

/-! ### Times -/

def leapYear (year : ℕ) : Bool := year % 4 == 0 && (year % 100 != 0 || year % 400 == 0)

/-- `month_days`. -/
def monthDays (year month : ℕ) : ℕ :=
  if month == 2 && leapYear year then 29
  else [31, 28, 31, 30, 31, 30, 31, 31, 30, 31, 30, 31].getD (month - 1) 0

/-- `parse_digits` on `count` bytes from `start`. -/
def parseDigits (value : Bytes) (start count : ℕ) : Option ℕ :=
  ((value.drop start).take count).foldlM
    (fun parsed c => if isDigit c then some (parsed * 10 + (c.toNat - 0x30)) else none) 0

/-- `days_from_civil` for years that are not negative. -/
def daysFromCivil (year month day : ℕ) : ℤ :=
  let year := if month ≤ 2 then year - 1 else year
  let era := year / 400
  let yearOfEra := year - era * 400
  let adjustedMonth := if month > 2 then month - 3 else month + 9
  let dayOfYear := (153 * adjustedMonth + 2) / 5 + day - 1
  let dayOfEra := yearOfEra * 365 + yearOfEra / 4 - yearOfEra / 100 + dayOfYear
  (era : ℤ) * 146097 + dayOfEra - 719468

/-- The nanoseconds after the seconds; no fraction is written for zero. -/
def parseFraction (value : Bytes) : Option ℕ :=
  let size := value.length
  if size > 20 then do
    let digits := size - 21
    if value.getD 19 0 != 0x2e || digits == 0 || digits > 9 || value.getD (size - 2) 0 == 0x30
    then none
    let fraction ← parseDigits value 20 digits
    return fraction * 10 ^ (9 - digits)
  else some 0

/-- `parse_canonical_utc` on a decoded C string. -/
def parseUtc (value : Bytes) : Option ℕ := do
  let size := value.length
  let at' := fun index => value.getD index 0
  if size < 20 || size > 30 || at' 4 != 0x2d || at' 7 != 0x2d || at' 10 != 0x54 ||
    at' 13 != 0x3a || at' 16 != 0x3a || at' (size - 1) != 0x5a then none
  let year ← parseDigits value 0 4
  let month ← parseDigits value 5 2
  let day ← parseDigits value 8 2
  let hour ← parseDigits value 11 2
  let minute ← parseDigits value 14 2
  let second ← parseDigits value 17 2
  if year < 1970 || month == 0 || month > 12 || day == 0 || day > monthDays year month ||
    hour > 23 || minute > 59 || second > 59 then none
  let fractionNs ← parseFraction value
  let days := daysFromCivil year month day
  if days < 0 then none
  return days.toNat * 86400000 + hour * 3600000 + minute * 60000 + second * 1000 +
    fractionNs / 1000000

/-- `parse_canonical_utc`. -/
def parseCanonicalUtc (t : Tree) : Option ℕ := do
  let value ← decodeAscii 31 t
  parseUtc (cString value)

/-! ### Scalars -/

/-- `is_null`. -/
def isNull : Option Tree → Bool
  | some .null => true
  | _ => false

/-- `boolean_value`. -/
def booleanValue : Option Tree → Option Bool
  | some (.bool b) => some b
  | _ => none

/-- `unsigned_between`. -/
def unsignedBetween (t : Option Tree) (minimum maximum : ℕ) : Option ℕ := do
  let value ← unsignedInteger (← t)
  if value < minimum || value > maximum then none
  return value

def isLower (c : UInt8) : Bool := 0x61 ≤ c.toNat && c.toNat ≤ 0x7a

def isUpper (c : UInt8) : Bool := 0x41 ≤ c.toNat && c.toNat ≤ 0x5a

/-- `safe_identifier`. -/
def safeIdentifier (t : Option Tree) (maximum : ℕ) : Bool :=
  match t with
  | none => false
  | some t =>
    match decodeAscii 65 t with
    | none => false
    | some value =>
      match cString value with
      | [] => false
      | first :: rest =>
        maximum < 65 && rest.length + 1 ≤ maximum && isLower first &&
          rest.all fun c => isLower c || isDigit c || c == 0x5f || c == 0x2d

/-- `safe_opaque_id`. -/
def safeOpaqueId (t : Option Tree) : Bool :=
  match t with
  | none => false
  | some t =>
    match decodeAscii 65 t with
    | none => false
    | some value =>
      let value := cString value
      8 ≤ value.length && value.length ≤ 64 &&
        value.all fun c => isLower c || isUpper c || isDigit c || c == 0x5f || c == 0x2d

/-- `one_of`. -/
def oneOf (t : Option Tree) (values : List Bytes) : Bool :=
  match t with
  | none => false
  | some t => values.any fun value => stringEquals t value

/-- `string_equals` on a field. -/
def equals (t : Option Tree) (expected : Bytes) : Bool :=
  match t with
  | none => false
  | some t => stringEquals t expected

/-! ### Private content -/

/-- `kPrivate`. -/
def privateNames : List Bytes :=
  ["absolutepath", "accesstoken", "apikey", "attributes", "command", "commandoutput",
    "credential", "credentials", "path", "prompt", "raw", "rawresponse", "refreshtoken", "reply",
    "response", "toolarguments", "toolargs", "toolparams", "upstream"].map bytes

/-- Lower-case letters and digits of a name, its capitals made small. -/
def normalized (name : Bytes) : Bytes :=
  (name.map fun c => if isUpper c then c + 0x20 else c).filter fun c => isLower c || isDigit c

/-- `key_is_private`. -/
def keyIsPrivate (key : Bytes) : Bool :=
  match decodeAscii 65 (.string key) with
  | none => true
  | some decoded => privateNames.contains (normalized (cString decoded))

/-- The characters `next_path_character` yields, up to where it fails. -/
def pathCharacters : Bytes → Bytes
  | [] => []
  | c :: bs =>
    if c = backslash then
      match bs with
      | [] => []
      | e :: bs =>
        if e ∈ bytes "/\\\"" then e :: pathCharacters bs
        else if e ∈ bytes "bfnrt" then 0x20 :: pathCharacters bs
        else if e = letterU then
          match bs with
          | h₁ :: h₂ :: h₃ :: h₄ :: bs =>
            match hexQuad h₁ h₂ h₃ h₄ with
            | none => []
            | some codepoint =>
              (if codepoint ≤ 0x7f then UInt8.ofNat codepoint else 0x7f) :: pathCharacters bs
          | _ => []
        else []
    else (if c ≤ 0x7f then c else 0x7f) :: pathCharacters bs

/-- `path_boundary`. -/
def pathBoundary (c : UInt8) : Bool := c ∈ bytes " \t\r\n([\x7b\"'=:;,"

/-- `ascii_alpha`. -/
def asciiAlpha (c : UInt8) : Bool := isUpper c || isLower c

/-- The loop of `string_contains_absolute_path`. -/
def pathLoop : (position : ℕ) → (previous twoBack threeBack : UInt8) → Bytes → Bool
  | _, _, _, _, [] => false
  | position, previous, twoBack, threeBack, c :: bs =>
    if (c == 0x2f || c == backslash) &&
      (position == 0 || pathBoundary previous ||
        (previous == 0x7e && (position == 1 || pathBoundary twoBack)) ||
        (position ≥ 2 && previous == 0x3a && asciiAlpha twoBack &&
          (position == 2 || pathBoundary threeBack))) then true
    else pathLoop (position + 1) c previous twoBack bs

/-- `string_contains_absolute_path`. -/
def stringContainsAbsolutePath (raw : Bytes) : Bool := pathLoop 0 0 0 0 (pathCharacters raw)

mutual

/-- `contains_private_content`. -/
def containsPrivateContent : Tree → Bool
  | .string raw => stringContainsAbsolutePath raw
  | .object members => membersContainPrivateContent members
  | .array items => itemsContainPrivateContent items
  | _ => false

def membersContainPrivateContent : List (Bytes × Tree) → Bool
  | [] => false
  | (key, child) :: members =>
    keyIsPrivate key || containsPrivateContent child || membersContainPrivateContent members

def itemsContainPrivateContent : List Tree → Bool
  | [] => false
  | child :: items => containsPrivateContent child || itemsContainPrivateContent items

end

/-! ### Objects -/

/-- `safe_forward_scalar`. -/
def safeForwardScalar : Tree → Bool
  | .null | .bool _ => true
  | .number text =>
    let digits := if text.head? == some Json.minus then text.drop 1 else text
    let magnitude := digits.foldlM
      (fun magnitude c =>
        let digit := c.toNat - 0x30
        if magnitude > (maximumSafeInteger - digit) / 10 then none
        else some (magnitude * 10 + digit)) 0
    magnitude.any fun magnitude => magnitude ≤ maximumSafeInteger
  | _ => false

/-- The loop of `object_fields`. -/
def objectFieldsLoop (minor : ℕ) (known : List Bytes) :
    ℕ → List (Bytes × Tree) → Except Rejection Unit
  | _, [] => .ok ()
  | forwardFields, (key, child) :: members =>
    if keyIsPrivate key then .error .privateData
    else if oneOf (some (.string key)) known then objectFieldsLoop minor known forwardFields members
    else if minor = 0 then .error .malformed
    else if !safeIdentifier (some (.string key)) 32 then .error .malformed
    else if forwardFields + 1 > maximumForwardFields then .error .malformed
    else if !safeForwardScalar child then .error .privateData
    else objectFieldsLoop minor known (forwardFields + 1) members

/-- `object_fields`. -/
def objectFields (t : Tree) (minor : ℕ) (known : List Bytes) : Except Rejection Unit :=
  match t with
  | .object members => objectFieldsLoop minor known 0 members
  | _ => .error .malformed

/-- `parse_version`: the minor version. -/
def parseVersion (t : Option Tree) : Except Rejection ℕ := do
  let t ← present t
  objectFields t 0 [bytes "major", bytes "minor"]
  let major ← present (unsignedBetween (field t (bytes "major")) 0 65535)
  let minor ← present (unsignedBetween (field t (bytes "minor")) 0 65535)
  check (major == 1) .unsupportedVersion
  return minor

/-- `required`. -/
def required (t : Tree) (name : Bytes) (nullable : Bool) : Bool :=
  (field t name).isSome && (nullable || !isNull (field t name))

/-- `nullable_unsigned`: `none` where the value is refused, `some none` where it is null. -/
def nullableUnsigned (t : Option Tree) (minimum maximum : ℕ) : Option (Option ℕ) :=
  if isNull t then some none else (unsignedBetween t minimum maximum).map some

/-- `nullable_time`. -/
def nullableTime (t : Option Tree) (maximum : ℕ) : Option (Option ℕ) :=
  if isNull t then some none
  else
    match t.bind parseCanonicalUtc with
    | none => none
    | some parsed => if parsed > maximum then none else some (some parsed)

/-- Passes on that fields were private, and calls everything else malformed. -/
def orMalformed : Except Rejection Unit → Rejection
  | .error .privateData => .privateData
  | _ => .malformed

/-- `validate_money`. -/
def validateMoney (t : Tree) (minor : ℕ) : Except Rejection Unit :=
  if isNull (some t) then .ok ()
  else do
    let fields := objectFields t minor [bytes "amount_micros", bytes "currency"]
    check (fields.isOk && required t (bytes "amount_micros") false &&
      required t (bytes "currency") false &&
      (unsignedBetween (field t (bytes "amount_micros")) 0 maximumSafeInteger).isSome)
      (orMalformed fields)
    let currency ← present ((field t (bytes "currency")).bind (decodeAscii 4))
    check ((cString currency).length == 3) .malformed
    check ((cString currency).all isUpper) .malformed

/-- `validate_window`. -/
def validateWindow (t : Tree) (minor : ℕ) : Except Rejection Unit := do
  objectFields t minor (["name", "used_basis_points", "remaining_basis_points", "window_minutes",
    "resets_at"].map bytes)
  check (required t (bytes "name") false && required t (bytes "used_basis_points") true &&
    required t (bytes "remaining_basis_points") true && required t (bytes "window_minutes") true &&
    required t (bytes "resets_at") true) .malformed
  check (safeIdentifier (field t (bytes "name")) 24) .malformed
  let used ← present (nullableUnsigned (field t (bytes "used_basis_points")) 0 10000)
  let remaining ← present (nullableUnsigned (field t (bytes "remaining_basis_points")) 0 10000)
  let _ ← present (nullableUnsigned (field t (bytes "window_minutes")) 1 525600)
  let _ ← present (nullableTime (field t (bytes "resets_at")) (2 ^ 64 - 1))
  match used, remaining with
  | some used, some remaining => check (used + remaining == 10000) .malformed
  | _, _ => .ok ()

/-- `validate_tokens`. -/
def validateTokens (t : Tree) (minor : ℕ) : Except Rejection Unit :=
  if isNull (some t) then .ok ()
  else do
    objectFields t minor (["input", "cached_input", "output", "reasoning", "total"].map bytes)
    let input ← present (nullableUnsigned (field t (bytes "input")) 0 maximumSafeInteger)
    let cached ← present (nullableUnsigned (field t (bytes "cached_input")) 0 maximumSafeInteger)
    let output ← present (nullableUnsigned (field t (bytes "output")) 0 maximumSafeInteger)
    let reasoning ← present (nullableUnsigned (field t (bytes "reasoning")) 0 maximumSafeInteger)
    let total ← present (nullableUnsigned (field t (bytes "total")) 0 maximumSafeInteger)
    match input, cached with
    | some input, some cached => check (cached ≤ input) .malformed
    | _, _ => .ok ()
    match input, output, reasoning, total with
    | some input, some output, some reasoning, some total =>
      check (input + output + reasoning == total) .malformed
    | _, _, _, _ => .ok ()

/-- `validate_provider_error`. -/
def validateProviderError (t : Tree) (minor : ℕ) : Except Rejection Unit :=
  if isNull (some t) then .ok ()
  else
    let fields := objectFields t minor [bytes "code", bytes "retryable"]
    check (fields.isOk && required t (bytes "code") false && required t (bytes "retryable") false &&
      oneOf (field t (bytes "code")) (["auth_stale", "permission_denied", "timeout",
        "process_exited", "schema_changed", "unavailable"].map bytes) &&
      (booleanValue (field t (bytes "retryable"))).isSome)
      (orMalformed fields)

/-- `validate_provider`: the node of its id. -/
def validateProvider (t : Tree) (generatedAt : ℕ) : Except Rejection Tree := do
  let minor ← parseVersion (field t (bytes "schema_version"))
  objectFields t minor (["schema_version", "provider_id", "display_name", "status", "source",
    "confidence", "experimental", "updated_at", "stale_after_seconds", "balance", "windows",
    "tokens", "error"].map bytes)
  check ((["schema_version", "provider_id", "display_name", "status", "source", "confidence",
    "experimental", "windows"].all fun name => required t (bytes name) false) &&
    (["updated_at", "stale_after_seconds", "balance", "tokens", "error"].all fun name =>
      required t (bytes name) true)) .malformed
  let id := field t (bytes "provider_id")
  let status := field t (bytes "status")
  let source := field t (bytes "source")
  let confidence := field t (bytes "confidence")
  check (safeIdentifier id 32 && (field t (bytes "display_name")).any (safeText 48) &&
    oneOf status (["ok", "degraded", "unavailable"].map bytes) &&
    oneOf source (["codex_app_server", "cursor_local", "structured_http", "none"].map bytes) &&
    oneOf confidence (["verified", "inferred", "unavailable"].map bytes) &&
    (booleanValue (field t (bytes "experimental"))).isSome &&
    (nullableTime (field t (bytes "updated_at")) generatedAt).isSome &&
    (nullableUnsigned (field t (bytes "stale_after_seconds")) 1 86400).isSome) .malformed
  let sourceNone := equals source (bytes "none")
  let unavailableConfidence := equals confidence (bytes "unavailable")
  let statusUnavailable := equals status (bytes "unavailable")
  check (!(sourceNone != unavailableConfidence || (statusUnavailable && !sourceNone) ||
    (equals source (bytes "codex_app_server") && !equals confidence (bytes "verified")) ||
    (equals source (bytes "cursor_local") && !equals confidence (bytes "inferred")))) .malformed
  let balance ← present (field t (bytes "balance"))
  validateMoney balance 0
  match field t (bytes "windows") with
  | some (.array windows) => do
    check (windows.length ≤ 4) .malformed
    windows.forM fun window => validateWindow window 0
  | _ => .error .malformed
  let tokens ← present (field t (bytes "tokens"))
  validateTokens tokens 0
  let error ← present (field t (bytes "error"))
  let result := validateProviderError error 0
  check (result.isOk && !(equals status (bytes "ok") && !isNull (some error)) &&
    !(!equals status (bytes "ok") && isNull (some error))) (orMalformed result)
  present id

/-- Two identifiers decode and are the same. -/
def sameId (capacity : ℕ) (a b : Tree) : Bool :=
  match decodeAscii capacity a, decodeAscii capacity b with
  | some a, some b => cString a == cString b
  | _, _ => false

/-- An identifier does not decode, or one before it does not decode or is the same. -/
def repeats (capacity : ℕ) (previous : List Tree) (id : Tree) : Bool :=
  match decodeAscii capacity id with
  | none => true
  | some actual =>
    previous.any fun other =>
      match decodeAscii capacity other with
      | none => true
      | some other => cString actual == cString other

/-- `validate_session`: the node of its id. -/
def validateSession (t : Tree) (generatedAt : ℕ) (providerIds : List Tree) :
    Except Rejection Tree := do
  let minor ← parseVersion (field t (bytes "schema_version"))
  objectFields t minor (["schema_version", "session_id", "provider_id", "display_name", "state",
    "source", "confidence", "started_at", "last_activity_at", "duration_seconds", "turn_tokens",
    "context_used_basis_points"].map bytes)
  check ((["schema_version", "session_id", "provider_id", "state", "source", "confidence"].all
      fun name => required t (bytes name) false) &&
    (["display_name", "started_at", "last_activity_at", "duration_seconds", "turn_tokens",
      "context_used_basis_points"].all fun name => required t (bytes name) true)) .malformed
  let sessionId := field t (bytes "session_id")
  let providerId := field t (bytes "provider_id")
  let displayName := field t (bytes "display_name")
  let state := field t (bytes "state")
  let source := field t (bytes "source")
  let confidence := field t (bytes "confidence")
  check (safeOpaqueId sessionId && safeIdentifier providerId 32 &&
    (isNull displayName || displayName.any (safeText 48)) &&
    oneOf state (["running", "waiting_approval", "waiting_input", "completed", "failed", "recent",
      "ended", "unknown", "unavailable"].map bytes) &&
    oneOf source (["codex_app_server_owned", "process_jsonl_observer", "none"].map bytes) &&
    oneOf confidence (["verified", "inferred", "unavailable"].map bytes)) .malformed
  check (providerId.any fun wanted => providerIds.any (sameId 33 wanted)) .malformed
  let sourceNone := equals source (bytes "none")
  let unavailableConfidence := equals confidence (bytes "unavailable")
  check (!(sourceNone != unavailableConfidence ||
    (sourceNone && !equals state (bytes "unavailable")) ||
    (equals source (bytes "codex_app_server_owned") && !equals confidence (bytes "verified")) ||
    (equals source (bytes "process_jsonl_observer") && !equals confidence (bytes "inferred"))))
    .malformed
  check (!equals source (bytes "codex_app_server_owned") ||
    oneOf state (["running", "waiting_approval", "waiting_input", "completed", "failed"].map bytes))
    .malformed
  check (!equals source (bytes "process_jsonl_observer") ||
    oneOf state (["running", "recent", "ended", "unknown"].map bytes)) .malformed
  let started ← present (nullableTime (field t (bytes "started_at")) generatedAt)
  let lastActivity ← present (nullableTime (field t (bytes "last_activity_at")) generatedAt)
  check ((nullableUnsigned (field t (bytes "duration_seconds")) 0 31536000).isSome &&
    (nullableUnsigned (field t (bytes "turn_tokens")) 0 maximumSafeInteger).isSome &&
    (nullableUnsigned (field t (bytes "context_used_basis_points")) 0 10000).isSome) .malformed
  match started, lastActivity with
  | some started, some lastActivity => check (started ≤ lastActivity) .malformed
  | _, _ => .ok ()
  present sessionId

/-- The loop over the providers, with the ids before them. -/
def validateProviders (generatedAt : ℕ) :
    List Tree → List Tree → List Tree → Except Rejection (List Tree)
  | ids, [], _ => .ok ids
  | _, _ :: _, [] => .error .malformed
  | ids, provider :: providers, ordered :: order => do
    let id ← validateProvider provider generatedAt
    check (sameId 33 id ordered) .malformed
    check (!repeats 33 ids id) .malformed
    validateProviders generatedAt (ids ++ [id]) providers order

/-- The loop over the sessions, with the ids before them. -/
def validateSessions (generatedAt : ℕ) (providerIds : List Tree) :
    List Tree → List Tree → Except Rejection Unit
  | _, [] => .ok ()
  | ids, session :: sessions => do
    let id ← validateSession session generatedAt providerIds
    check (!repeats 65 ids id) .malformed
    validateSessions generatedAt providerIds (ids ++ [id]) sessions

/-- `array_at` for every index. -/
def arrayItems : Option Tree → Option (List Tree)
  | some (.array items) => some items
  | _ => none

/-- `validate_snapshot`. -/
def validateSnapshot (root : Tree) : Except Rejection Metadata := do
  check (root matches .object _) .malformed
  check ((["type", "protocol_version", "schema_version", "generated_at", "provider_order",
      "providers", "sessions", "next_refresh_seconds"].all
      fun name => required root (bytes name) false) &&
    required root (bytes "timezone") true) .malformed
  let minor ← parseVersion (field root (bytes "schema_version"))
  objectFields root minor (["type", "protocol_version", "schema_version", "generated_at",
    "timezone", "provider_order", "providers", "sessions", "next_refresh_seconds"].map bytes)
  let timezone := field root (bytes "timezone")
  check (equals (field root (bytes "type")) (bytes "snapshot.ai")) .malformed
  let _ ← present (unsignedBetween (field root (bytes "protocol_version")) 1 1)
  let generatedAt ← present ((field root (bytes "generated_at")).bind parseCanonicalUtc)
  check (isNull timezone || timezone.any (safeText 64)) .malformed
  let nextRefresh ← present (unsignedBetween (field root (bytes "next_refresh_seconds")) 1 3600)
  let order ← present (arrayItems (field root (bytes "provider_order")))
  let providers ← present (arrayItems (field root (bytes "providers")))
  let sessions ← present (arrayItems (field root (bytes "sessions")))
  check (providers.length ≤ 8 && order.length == providers.length && sessions.length ≤ 16)
    .malformed
  let providerIds ← validateProviders generatedAt [] providers order
  validateSessions generatedAt providerIds [] sessions
  return {
    schemaMinor := UInt16.ofNat minor
    generatedAtUnixMs := UInt64.ofNat generatedAt
    providerCount := UInt8.ofNat providers.length
    sessionCount := UInt8.ofNat sessions.length
    nextRefreshSeconds := UInt32.ofNat nextRefresh }

/-- `deck_ai_snapshot_validate`; `allocated` says whether the heap had room for the nodes. -/
def deckAiSnapshotValidate (allocated : Bool) (document : Bytes) : Except Rejection Metadata := do
  check (document.length != 0 && document.length ≤ 16384 && validUtf8 document) .malformed
  check allocated .malformed
  let root ← present (Parser.parse document)
  check (!containsPrivateContent root) .privateData
  validateSnapshot root

end RlcdDeck.AiSnapshot
