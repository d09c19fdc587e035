import RlcdDeck.Calendar.Date
import RlcdDeck.Json.Reader
import RlcdDeck.Json.Unquote

/-!
# The Companion's `Decode`

`aisnapshot.Decode` and `protocol.ParseEnvelope`.  What `encoding/json` does is modelled on the
tree of the message (`unmarshal`): a map or a struct is read off an object, a pointer is `none`
for `null`, and a field that is absent or `null` keeps its zero value.  Strings are byte strings,
as in Go.

Two details of `encoding/json` are left out because they cannot change what `Decode` accepts.  A
struct field also takes a key that differs from its name in case only; `validateObjectFields`
refuses every object with such a key.  A number too large for a `float64` fails the first
`Unmarshal`; `Decode` has no field that takes one.
-/

namespace RlcdDeck.AiSnapshot.Companion

open Json (Bytes Tree bytes quote backslash letterU isDigit hexQuad isHigh isLow unquote)

/-- `ErrMalformedSnapshot`, `ErrUnsupportedVersion` and `ErrPrivateData`. -/
inductive DecodeError where
  | malformed
  | unsupportedVersion
  | privateData

/-- Goes on only if the condition holds. -/
def ensure (condition : Bool) (error : DecodeError) : Except DecodeError Unit :=
  if condition then .ok () else .error error

/-- The value of a call, or its error as `ErrMalformedSnapshot`. -/
def orMalformed {α : Type} : Option α → Except DecodeError α
  | none => .error .malformed
  | some a => .ok a

/-! ### `encoding/json` -/

/-- `json.Unmarshal` into `any`; containers nest at most 10000 deep. -/
def unmarshal (message : Bytes) : Option Tree := Json.read Json.rfc8259 10000 message

/-- A `map[string]json.RawMessage`. -/
abbrev RawObject := List (Bytes × Tree)

/-- `json.Unmarshal` into a `map[string]json.RawMessage`. -/
def rawObject : Tree → Option RawObject
  | .object members => members.mapM fun m => (unquote m.1).map fun name => (name, m.2)
  | .null => some []
  | _ => none

def RawObject.lookup (object : RawObject) (name : Bytes) : Option Tree :=
  (object.find? fun m => m.1 == name).map (·.2)

/-- A key as `encoding/json` compares it with the name of a field: in lower case. -/
def foldName : Bytes → Bytes
  | [] => []
  | 0xc5 :: 0xbf :: rest => 0x73 :: foldName rest
  | 0xe2 :: 0x84 :: 0xaa :: rest => 0x6b :: foldName rest
  | c :: rest => (if 0x41 ≤ c && c ≤ 0x5a then c + 0x20 else c) :: foldName rest

/-- A value into a field; `null` leaves the field as it is. -/
def into {α : Type} (current : α) (decode : Tree → Option α) : Tree → Option α
  | .null => some current
  | t => decode t

/-- Into a `string`. -/
def decodeString : Tree → Option Bytes
  | .null => some []
  | .string raw => unquote raw
  | _ => none

/-- The number written by decimal digits. -/
def parseUint (digits : Bytes) : Option ℕ :=
  if digits.isEmpty || !digits.all isDigit then none
  else some (digits.foldl (fun value c => value * 10 + (c.toNat - 0x30)) 0)

/-- Into an unsigned integer of `bits` bits. -/
def decodeUint (bits : ℕ) : Tree → Option ℕ
  | .null => some 0
  | .number text => (parseUint text).filter (· < 2 ^ bits)
  | _ => none

/-- Into a `bool`. -/
def decodeBool : Tree → Option Bool
  | .null => some false
  | .bool b => some b
  | _ => none

/-- Into a pointer. -/
def decodePointer {α : Type} (decode : Tree → Option α) : Tree → Option (Option α)
  | .null => some none
  | t => (decode t).map some

/-- Into a slice, which is `none` when it is nil. -/
def decodeSlice {α : Type} (decode : Tree → Option α) : Tree → Option (Option (List α))
  | .null => some none
  | .array items => (items.mapM decode).map some
  | _ => none

/-- The field of a struct. -/
def RawObject.decode {α : Type} (object : RawObject) (name : String) (zero : α)
    (decode : Tree → Option α) : Option α :=
  match object.lookup (bytes name) with
  | none => some zero
  | some t => decode t

/-! ### The envelope -/

/-- `validJSONStringEscapes`, from inside a string or outside. -/
def validJsonStringEscapes : (inString : Bool) → Bytes → Bool
  | inString, [] => !inString
  | false, c :: bs => validJsonStringEscapes (c == quote) bs
  | true, c :: bs =>
    if c = quote then validJsonStringEscapes false bs
    else if c = backslash then
      match bs with
      | [] => false
      | e :: bs =>
        if e = letterU then
          match bs with
          | h₁ :: h₂ :: h₃ :: h₄ :: bs =>
            match hexQuad h₁ h₂ h₃ h₄ with
            | none => false
            | some codepoint =>
              if isLow codepoint then false
              else if isHigh codepoint then
                match bs with
                | c' :: e' :: l₁ :: l₂ :: l₃ :: l₄ :: bs =>
                  if c' = backslash ∧ e' = letterU then
                    match hexQuad l₁ l₂ l₃ l₄ with
                    | none => false
                    | some low => isLow low && validJsonStringEscapes true bs
                  else false
                | _ => false
              else validJsonStringEscapes true bs
          | _ => false
        else validJsonStringEscapes true bs
    else validJsonStringEscapes true bs

mutual

/-- `validateJSONValue`: no object has a key twice. -/
def uniqueKeys : Tree → Bool
  | .object members => membersUnique [] members
  | .array items => itemsUnique items
  | _ => true

def membersUnique : (seen : List Bytes) → List (Bytes × Tree) → Bool
  | _, [] => true
  | seen, (key, child) :: members =>
    match unquote key with
    | none => false
    | some name => !seen.contains name && uniqueKeys child && membersUnique (name :: seen) members

def itemsUnique : List Tree → Bool
  | [] => true
  | child :: items => uniqueKeys child && itemsUnique items

end

def isLower (c : UInt8) : Bool := 0x61 ≤ c.toNat && c.toNat ≤ 0x7a

def isUpper (c : UInt8) : Bool := 0x41 ≤ c.toNat && c.toNat ≤ 0x5a

/-- `messageTypePattern`. -/
def messageTypePattern (value : Bytes) : Bool :=
  let segments := value.splitOn 0x2e
  2 ≤ segments.length && segments.all fun
    | [] => false
    | c :: rest => isLower c && rest.length ≤ 31 &&
        rest.all fun c => isLower c || isDigit c || c == 0x5f

/-- `protocol.ParseEnvelope`: the type of the message. -/
def parseEnvelope (message : Bytes) : Option Bytes := do
  if !(message.length ≤ 16384 && Utf8.valid message) then none
  if !validJsonStringEscapes false message then none
  let document ← unmarshal message
  if !uniqueKeys document then none
  let object ← rawObject document
  let typeValue ← object.lookup (bytes "type")
  let versionValue ← object.lookup (bytes "protocol_version")
  if versionValue matches .null then none
  let type ← decodeString typeValue
  let version ← decodeUint 32 versionValue
  if !(type.length ≤ 64 && messageTypePattern type) then none
  if version != 1 then none
  return type

/-! ### The snapshot -/

structure SchemaVersion where
  major : ℕ
  minor : ℕ

structure Money where
  amountMicros : ℕ
  currency : Bytes

structure QuotaWindow where
  name : Bytes
  usedBasisPoints : Option ℕ
  remainingBasisPoints : Option ℕ
  windowMinutes : Option ℕ
  resetsAt : Option Bytes

structure TokenUsage where
  input : Option ℕ
  cachedInput : Option ℕ
  output : Option ℕ
  reasoning : Option ℕ
  total : Option ℕ

structure ProviderError where
  code : Bytes
  retryable : Bool

structure Provider where
  schemaVersion : SchemaVersion
  id : Bytes
  displayName : Bytes
  status : Bytes
  source : Bytes
  confidence : Bytes
  experimental : Bool
  updatedAt : Option Bytes
  staleAfterSeconds : Option ℕ
  balance : Option Money
  windows : Option (List QuotaWindow)
  tokens : Option TokenUsage
  error : Option ProviderError

structure Session where
  schemaVersion : SchemaVersion
  id : Bytes
  providerId : Bytes
  displayName : Option Bytes
  state : Bytes
  source : Bytes
  confidence : Bytes
  startedAt : Option Bytes
  lastActivityAt : Option Bytes
  durationSeconds : Option ℕ
  turnTokens : Option ℕ
  contextUsedBasisPoints : Option ℕ

/-- A snapshot, with the time that `Decode` works out. -/
structure Snapshot where
  type : Bytes
  protocolVersion : ℕ
  schemaVersion : SchemaVersion
  generatedAt : Bytes
  generatedAtUnixMs : ℕ
  timezone : Option Bytes
  providerOrder : Option (List Bytes)
  providers : Option (List Provider)
  sessions : Option (List Session)
  nextRefresh : ℕ

def SchemaVersion.zero : SchemaVersion := ⟨0, 0⟩

def SchemaVersion.unmarshal (t : Tree) : Option SchemaVersion := do
  let object ← rawObject t
  return {
    major := ← object.decode "major" 0 (decodeUint 16)
    minor := ← object.decode "minor" 0 (decodeUint 16) }

def Money.unmarshal (t : Tree) : Option Money := do
  let object ← rawObject t
  return {
    amountMicros := ← object.decode "amount_micros" 0 (decodeUint 64)
    currency := ← object.decode "currency" [] decodeString }

def QuotaWindow.unmarshal (t : Tree) : Option QuotaWindow := do
  let object ← rawObject t
  return {
    name := ← object.decode "name" [] decodeString
    usedBasisPoints := ← object.decode "used_basis_points" none (decodePointer (decodeUint 16))
    remainingBasisPoints :=
      ← object.decode "remaining_basis_points" none (decodePointer (decodeUint 16))
    windowMinutes := ← object.decode "window_minutes" none (decodePointer (decodeUint 32))
    resetsAt := ← object.decode "resets_at" none (decodePointer decodeString) }

def TokenUsage.unmarshal (t : Tree) : Option TokenUsage := do
  let object ← rawObject t
  return {
    input := ← object.decode "input" none (decodePointer (decodeUint 64))
    cachedInput := ← object.decode "cached_input" none (decodePointer (decodeUint 64))
    output := ← object.decode "output" none (decodePointer (decodeUint 64))
    reasoning := ← object.decode "reasoning" none (decodePointer (decodeUint 64))
    total := ← object.decode "total" none (decodePointer (decodeUint 64)) }

def ProviderError.unmarshal (t : Tree) : Option ProviderError := do
  let object ← rawObject t
  return {
    code := ← object.decode "code" [] decodeString
    retryable := ← object.decode "retryable" false decodeBool }

def Provider.unmarshal (t : Tree) : Option Provider := do
  let object ← rawObject t
  return {
    schemaVersion := ← object.decode "schema_version" .zero SchemaVersion.unmarshal
    id := ← object.decode "provider_id" [] decodeString
    displayName := ← object.decode "display_name" [] decodeString
    status := ← object.decode "status" [] decodeString
    source := ← object.decode "source" [] decodeString
    confidence := ← object.decode "confidence" [] decodeString
    experimental := ← object.decode "experimental" false decodeBool
    updatedAt := ← object.decode "updated_at" none (decodePointer decodeString)
    staleAfterSeconds := ← object.decode "stale_after_seconds" none (decodePointer (decodeUint 32))
    balance := ← object.decode "balance" none (decodePointer Money.unmarshal)
    windows := ← object.decode "windows" none (decodeSlice QuotaWindow.unmarshal)
    tokens := ← object.decode "tokens" none (decodePointer TokenUsage.unmarshal)
    error := ← object.decode "error" none (decodePointer ProviderError.unmarshal) }

def Session.unmarshal (t : Tree) : Option Session := do
  let object ← rawObject t
  return {
    schemaVersion := ← object.decode "schema_version" .zero SchemaVersion.unmarshal
    id := ← object.decode "session_id" [] decodeString
    providerId := ← object.decode "provider_id" [] decodeString
    displayName := ← object.decode "display_name" none (decodePointer decodeString)
    state := ← object.decode "state" [] decodeString
    source := ← object.decode "source" [] decodeString
    confidence := ← object.decode "confidence" [] decodeString
    startedAt := ← object.decode "started_at" none (decodePointer decodeString)
    lastActivityAt := ← object.decode "last_activity_at" none (decodePointer decodeString)
    durationSeconds := ← object.decode "duration_seconds" none (decodePointer (decodeUint 32))
    turnTokens := ← object.decode "turn_tokens" none (decodePointer (decodeUint 64))
    contextUsedBasisPoints :=
      ← object.decode "context_used_basis_points" none (decodePointer (decodeUint 16)) }

def Snapshot.unmarshal (t : Tree) : Option Snapshot := do
  let object ← rawObject t
  return {
    type := ← object.decode "type" [] decodeString
    protocolVersion := ← object.decode "protocol_version" 0 (decodeUint 32)
    schemaVersion := ← object.decode "schema_version" .zero SchemaVersion.unmarshal
    generatedAt := ← object.decode "generated_at" [] decodeString
    generatedAtUnixMs := 0
    timezone := ← object.decode "timezone" none (decodePointer decodeString)
    providerOrder := ← object.decode "provider_order" none (decodeSlice decodeString)
    providers := ← object.decode "providers" none (decodeSlice Provider.unmarshal)
    sessions := ← object.decode "sessions" none (decodeSlice Session.unmarshal)
    nextRefresh := ← object.decode "next_refresh_seconds" 0 (decodeUint 32) }

/-! ### Private content -/

/-- `privateFieldNames`. -/
def privateFieldNames : List Bytes :=
  ["absolutepath", "accesstoken", "apikey", "attributes", "command", "commandoutput",
    "credential", "credentials", "path", "prompt", "raw", "reply", "rawresponse", "refreshtoken",
    "response", "toolarguments", "toolargs", "toolparams", "upstream"].map bytes

/-- `normalizedFieldName`; no byte of a character beyond ASCII is a letter or a digit. -/
def normalizedFieldName (value : Bytes) : Bytes :=
  (value.map fun c => if isUpper c then c + 0x20 else c).filter fun c => isLower c || isDigit c

/-- `pathBoundary`. -/
def pathBoundary (c : UInt8) : Bool := c ∈ bytes " \t\r\n([\x7b\"'=:;,"

/-- `isASCIIAlpha`. -/
def isAsciiAlpha (c : UInt8) : Bool := isUpper c || isLower c

/-- The test of `containsAbsolutePath` at one index. -/
def absolutePathAt (value : Bytes) (index : ℕ) : Bool :=
  let at' := fun i => value.getD i 0
  (at' index == 0x2f || at' index == backslash) &&
    (index == 0 || pathBoundary (at' (index - 1)) ||
      (at' (index - 1) == 0x7e && (index == 1 || pathBoundary (at' (index - 2)))) ||
      (index ≥ 2 && at' (index - 1) == 0x3a && isAsciiAlpha (at' (index - 2)) &&
        (index == 2 || pathBoundary (at' (index - 3)))))

/-- `containsAbsolutePath`. -/
def containsAbsolutePath (value : Bytes) : Bool :=
  (List.range value.length).any (absolutePathAt value)

mutual

/-- `jsonNodeCount`, which may stop early once the limit is passed. -/
def jsonNodeCount : Tree → ℕ
  | .object members => 1 + membersNodeCount members
  | .array items => 1 + itemsNodeCount items
  | _ => 1

def membersNodeCount : List (Bytes × Tree) → ℕ
  | [] => 0
  | (_, child) :: members => 1 + jsonNodeCount child + membersNodeCount members

def itemsNodeCount : List Tree → ℕ
  | [] => 0
  | child :: items => jsonNodeCount child + itemsNodeCount items

end

mutual

/-- `containsPrivateContent`. -/
def containsPrivateContent : Tree → Bool
  | .object members => membersPrivate members
  | .array items => itemsPrivate items
  | .string raw => (unquote raw).any containsAbsolutePath
  | _ => false

def membersPrivate : List (Bytes × Tree) → Bool
  | [] => false
  | (key, child) :: members =>
    ((unquote key).any fun name => privateFieldNames.contains (normalizedFieldName name)) ||
      containsPrivateContent child || membersPrivate members

def itemsPrivate : List Tree → Bool
  | [] => false
  | child :: items => containsPrivateContent child || itemsPrivate items

end

/-! ### Times -/

/-- A UTC time. -/
structure Time where
  year : ℕ
  month : ℕ
  day : ℕ
  hour : ℕ
  minute : ℕ
  second : ℕ
  nanosecond : ℕ

/-- Nanoseconds since 1970. -/
def Time.unixNano (t : Time) : ℕ :=
  (((Calendar.dayNumber t.year t.month t.day * 24 + t.hour) * 60 + t.minute) * 60 + t.second) *
    1000000000 + t.nanosecond

/-- `time.Time.UnixMilli`. -/
def Time.unixMilli (t : Time) : ℕ := t.unixNano / 1000000

/-- The last `width` decimal digits. -/
def decimal : (width value : ℕ) → Bytes
  | 0, _ => []
  | width + 1, value => decimal width (value / 10) ++ [UInt8.ofNat (0x30 + value % 10)]

/-- The fraction that `time.Parse` takes after the seconds: digits past the ninth are cut off. -/
def parseFraction : Bytes → Option ℕ
  | [] => none
  | c :: tail =>
    if c = 0x5a then if tail.isEmpty then some 0 else none
    else if c = 0x2e ∨ c = 0x2c then do
      let digits := tail.takeWhile isDigit
      if digits.isEmpty || tail.dropWhile isDigit != [0x5a] then none
      let value ← parseUint (digits.take 9)
      return value * 10 ^ (9 - digits.length)
    else none

/-- `time.Parse(time.RFC3339Nano, value)` for a value in the zone `Z`. -/
def timeParse (value : Bytes) : Option Time :=
  match value with
  | y₁ :: y₂ :: y₃ :: y₄ :: p₁ :: m₁ :: m₂ :: p₂ :: d₁ :: d₂ :: p₃ :: h₁ :: h₂ :: p₄ :: n₁ ::
      n₂ :: p₅ :: s₁ :: s₂ :: rest => do
    if [p₁, p₂, p₃, p₄, p₅] != [0x2d, 0x2d, 0x54, 0x3a, 0x3a] then none
    let t : Time := {
      year := ← parseUint [y₁, y₂, y₃, y₄]
      month := ← parseUint [m₁, m₂]
      day := ← parseUint [d₁, d₂]
      hour := ← parseUint [h₁, h₂]
      minute := ← parseUint [n₁, n₂]
      second := ← parseUint [s₁, s₂]
      nanosecond := ← parseFraction rest }
    if 1 ≤ t.month && t.month ≤ 12 && 1 ≤ t.day && t.day ≤ Calendar.daysIn t.year t.month &&
      t.hour ≤ 23 && t.minute ≤ 59 && t.second ≤ 59 then some t else none
  | _ => none

/-- The fraction that `Format` writes: without zeros at its end, and not at all for zero. -/
def formatFraction (nanosecond : ℕ) : Bytes :=
  if nanosecond = 0 then []
  else 0x2e :: ((decimal 9 nanosecond).reverse.dropWhile (· == 0x30)).reverse

/-- `Format(time.RFC3339Nano)` of a UTC time. -/
def Time.format (t : Time) : Bytes :=
  decimal 4 t.year ++ [0x2d] ++ decimal 2 t.month ++ [0x2d] ++ decimal 2 t.day ++ [0x54] ++
    decimal 2 t.hour ++ [0x3a] ++ decimal 2 t.minute ++ [0x3a] ++ decimal 2 t.second ++
    formatFraction t.nanosecond ++ [0x5a]

/-- `canonicalUTC`. -/
def canonicalUtc (value : Bytes) : Option Time := do
  let parsed ← timeParse value
  if parsed.year < 1970 || parsed.format != value then none
  return parsed

/-! ### Checks -/

/-- `isNull`. -/
def isNull : Option Tree → Bool
  | some .null => true
  | _ => false

/-- `requireFields`. -/
def requireFields (object : RawObject) (fields nonNull : List Bytes) : Except DecodeError Unit := do
  ensure (fields.all fun name => (object.lookup name).isSome) .malformed
  ensure (nonNull.all fun name => !isNull (object.lookup name)) .malformed

/-- `safeIdentifier`. -/
def safeIdentifier (value : Bytes) (maximum : ℕ) : Bool :=
  match value with
  | [] => false
  | first :: rest =>
    value.length ≤ maximum && isLower first &&
      rest.all fun c => isLower c || isDigit c || c == 0x5f || c == 0x2d

/-- `safeOpaqueID`. -/
def safeOpaqueId (value : Bytes) (maximum : ℕ) : Bool :=
  8 ≤ value.length && value.length ≤ maximum &&
    value.all fun c => isLower c || isUpper c || isDigit c || c == 0x5f || c == 0x2d

/-- `safeText`. -/
def safeText (value : Bytes) (maximum : ℕ) : Bool :=
  match Utf8.decode value with
  | none => false
  | some runes =>
    runes.length != 0 && runes.length ≤ maximum && runes.all fun c => !(c < 0x20 || c == 0x7f)

/-- `safeForwardScalar`. -/
def safeForwardScalar : Tree → Bool
  | .null | .bool _ => true
  | .number text =>
    if text.any fun c => c == 0x2e || c == 0x65 || c == 0x45 then false
    else if text.head? == some Json.minus then
      (parseUint (text.drop 1)).any fun value => value ≤ 9007199254740991
    else (parseUint text).any fun value => value ≤ 9007199254740991
  | _ => false

/-- The loop of `validateObjectFields`. -/
def objectFieldsLoop (minor : ℕ) (known : List Bytes) :
    (forwardFields : ℕ) → RawObject → Except DecodeError Unit
  | _, [] => .ok ()
  | forwardFields, (name, value) :: object => do
    if known.contains name then objectFieldsLoop minor known forwardFields object
    else
      ensure (minor != 0) .malformed
      ensure (safeIdentifier name 32) .malformed
      ensure (forwardFields + 1 ≤ 16) .malformed
      ensure (safeForwardScalar value) .privateData
      objectFieldsLoop minor known (forwardFields + 1) object

/-- `validateObjectFields`. -/
def validateObjectFields (object : RawObject) (minor : ℕ) (known : List Bytes) :
    Except DecodeError Unit :=
  objectFieldsLoop minor known 0 object

/-- `decodeSchemaVersion`. -/
def decodeSchemaVersion (document : Option Tree) : Except DecodeError SchemaVersion := do
  let document ← orMalformed document
  let object ← orMalformed (rawObject document)
  requireFields object [bytes "major", bytes "minor"] [bytes "major", bytes "minor"]
  ensure (object.length == 2) .malformed
  let version ← orMalformed (SchemaVersion.unmarshal document)
  ensure (version.major == 1) .unsupportedVersion
  return version

/-- `validateMoney`. -/
def validateMoney (document : Option Tree) (money : Option Money) (minor : ℕ) :
    Except DecodeError Unit :=
  if isNull document then .ok ()
  else do
    let money ← orMalformed money
    let object ← orMalformed (document.bind rawObject)
    requireFields object [bytes "amount_micros", bytes "currency"]
      [bytes "amount_micros", bytes "currency"]
    validateObjectFields object minor [bytes "amount_micros", bytes "currency"]
    ensure (money.amountMicros ≤ 9007199254740991 && money.currency.length == 3) .malformed
    ensure (money.currency.all isUpper) .malformed

/-- `validateWindow`. -/
def validateWindow (document : Tree) (window : QuotaWindow) (minor : ℕ) :
    Except DecodeError Unit := do
  let fields := ["name", "used_basis_points", "remaining_basis_points", "window_minutes",
    "resets_at"].map bytes
  let object ← orMalformed (rawObject document)
  requireFields object fields [bytes "name"]
  validateObjectFields object minor fields
  ensure (safeIdentifier window.name 24 && window.usedBasisPoints.all (· ≤ 10000) &&
    window.remainingBasisPoints.all (· ≤ 10000) &&
    window.windowMinutes.all fun minutes => minutes != 0 && minutes ≤ 525600) .malformed
  match window.usedBasisPoints, window.remainingBasisPoints with
  | some used, some remaining => ensure (used + remaining == 10000) .malformed
  | _, _ => .ok ()
  ensure (window.resetsAt.all fun resetsAt => (canonicalUtc resetsAt).isSome) .malformed

/-- `validateTokens`; the sum is one of 64-bit numbers. -/
def validateTokens (document : Option Tree) (tokens : Option TokenUsage) (minor : ℕ) :
    Except DecodeError Unit :=
  if isNull document then .ok ()
  else do
    let tokens ← orMalformed tokens
    let fields := ["input", "cached_input", "output", "reasoning", "total"].map bytes
    let object ← orMalformed (document.bind rawObject)
    requireFields object fields []
    validateObjectFields object minor fields
    ensure ([tokens.input, tokens.cachedInput, tokens.output, tokens.reasoning, tokens.total].all
      fun value => value.all (· ≤ 9007199254740991)) .malformed
    match tokens.input, tokens.cachedInput with
    | some input, some cached => ensure (cached ≤ input) .malformed
    | _, _ => .ok ()
    match tokens.input, tokens.output, tokens.reasoning, tokens.total with
    | some input, some output, some reasoning, some total =>
      ensure (total == (input + output + reasoning) % 2 ^ 64) .malformed
    | _, _, _, _ => .ok ()

/-- `validateProviderError`. -/
def validateProviderError (document : Option Tree) (error : Option ProviderError) (minor : ℕ) :
    Except DecodeError Unit :=
  if isNull document then .ok ()
  else do
    let error ← orMalformed error
    let fields := [bytes "code", bytes "retryable"]
    let object ← orMalformed (document.bind rawObject)
    requireFields object fields fields
    validateObjectFields object minor fields
    ensure ((["auth_stale", "permission_denied", "timeout", "process_exited", "schema_changed",
      "unavailable"].map bytes).contains error.code) .malformed

/-- A time that is there is canonical and not after `generatedAt`. -/
def notAfter (generatedAt : Time) (value : Option Bytes) : Except DecodeError (Option Time) :=
  match value with
  | none => .ok none
  | some value => do
    let parsed ← orMalformed (canonicalUtc value)
    ensure (parsed.unixNano ≤ generatedAt.unixNano) .malformed
    return some parsed

/-- `validateProvider`. -/
def validateProvider (document : Tree) (provider : Provider) (generatedAt : Time) :
    Except DecodeError Unit := do
  let nonNull := ["schema_version", "provider_id", "display_name", "status", "source",
    "confidence", "experimental", "windows"].map bytes
  let fields := ["schema_version", "provider_id", "display_name", "status", "source",
    "confidence", "experimental", "updated_at", "stale_after_seconds", "balance", "windows",
    "tokens", "error"].map bytes
  let object ← orMalformed (rawObject document)
  requireFields object fields nonNull
  let version ← decodeSchemaVersion (object.lookup (bytes "schema_version"))
  validateObjectFields object version.minor fields
  ensure (safeIdentifier provider.id 32 && safeText provider.displayName 48 &&
    (["ok", "degraded", "unavailable"].map bytes).contains provider.status &&
    (["codex_app_server", "cursor_local", "structured_http", "none"].map bytes).contains
      provider.source &&
    (["verified", "inferred", "unavailable"].map bytes).contains provider.confidence &&
    (provider.windows.getD []).length ≤ 4 &&
    provider.staleAfterSeconds.all fun seconds => seconds != 0 && seconds ≤ 86400) .malformed
  ensure (!((provider.source == bytes "none") != (provider.confidence == bytes "unavailable") ||
    (provider.status == bytes "unavailable" && provider.source != bytes "none") ||
    (provider.source == bytes "codex_app_server" && provider.confidence != bytes "verified") ||
    (provider.source == bytes "cursor_local" && provider.confidence != bytes "inferred")))
    .malformed
  let _ ← notAfter generatedAt provider.updatedAt
  validateMoney (object.lookup (bytes "balance")) provider.balance 0
  let windows ← orMalformed ((object.lookup (bytes "windows")).bind (decodeSlice some))
  ensure ((windows.getD []).length == (provider.windows.getD []).length) .malformed
  ((windows.getD []).zip (provider.windows.getD [])).forM fun window =>
    validateWindow window.1 window.2 0
  validateTokens (object.lookup (bytes "tokens")) provider.tokens 0
  validateProviderError (object.lookup (bytes "error")) provider.error 0
  ensure (!((provider.status == bytes "ok" && provider.error.isSome) ||
    (provider.status != bytes "ok" && provider.error.isNone))) .malformed

/-- `validateSession`. -/
def validateSession (document : Tree) (session : Session) (generatedAt : Time) :
    Except DecodeError Unit := do
  let nonNull := ["schema_version", "session_id", "provider_id", "state", "source",
    "confidence"].map bytes
  let fields := ["schema_version", "session_id", "provider_id", "display_name", "state", "source",
    "confidence", "started_at", "last_activity_at", "duration_seconds", "turn_tokens",
    "context_used_basis_points"].map bytes
  let object ← orMalformed (rawObject document)
  requireFields object fields nonNull
  let version ← decodeSchemaVersion (object.lookup (bytes "schema_version"))
  validateObjectFields object version.minor fields
  ensure (safeOpaqueId session.id 64 && safeIdentifier session.providerId 32 &&
    (["running", "waiting_approval", "waiting_input", "completed", "failed", "recent", "ended",
      "unknown", "unavailable"].map bytes).contains session.state &&
    (["codex_app_server_owned", "process_jsonl_observer", "none"].map bytes).contains
      session.source &&
    (["verified", "inferred", "unavailable"].map bytes).contains session.confidence &&
    session.displayName.all (safeText · 48) &&
    session.durationSeconds.all (· ≤ 31536000) &&
    session.turnTokens.all (· ≤ 9007199254740991) &&
    session.contextUsedBasisPoints.all (· ≤ 10000)) .malformed
  ensure (!((session.source == bytes "none") != (session.confidence == bytes "unavailable") ||
    (session.source == bytes "codex_app_server_owned" && session.confidence != bytes "verified") ||
    (session.source == bytes "process_jsonl_observer" && session.confidence != bytes "inferred") ||
    (session.source == bytes "none" && session.state != bytes "unavailable"))) .malformed
  ensure (session.source != bytes "codex_app_server_owned" ||
    (["running", "waiting_approval", "waiting_input", "completed", "failed"].map bytes).contains
      session.state) .malformed
  ensure (session.source != bytes "process_jsonl_observer" ||
    (["running", "recent", "ended", "unknown"].map bytes).contains session.state) .malformed
  let startedAt ← notAfter generatedAt session.startedAt
  let lastActivityAt ← notAfter generatedAt session.lastActivityAt
  match startedAt, lastActivityAt with
  | some startedAt, some lastActivityAt =>
    ensure (startedAt.unixNano ≤ lastActivityAt.unixNano) .malformed
  | _, _ => .ok ()

/-- The loop over the providers, after `providerIds`. -/
def validateProviders (generatedAt : Time) :
    (providerIds : List Bytes) → List (Tree × Provider) → (providerOrder : List Bytes) →
      Except DecodeError (List Bytes)
  | providerIds, [], _ => .ok providerIds
  | providerIds, (document, provider) :: providers, providerOrder => do
    validateProvider document provider generatedAt
    ensure (!providerIds.contains provider.id && providerOrder.head? == some provider.id) .malformed
    validateProviders generatedAt (providerIds ++ [provider.id]) providers providerOrder.tail

/-- The loop over the sessions, after `sessionIds`. -/
def validateSessions (generatedAt : Time) (providerIds : List Bytes) :
    (sessionIds : List Bytes) → List (Tree × Session) → Except DecodeError Unit
  | _, [] => .ok ()
  | sessionIds, (document, session) :: sessions => do
    validateSession document session generatedAt
    ensure (!sessionIds.contains session.id) .malformed
    ensure (providerIds.contains session.providerId) .malformed
    validateSessions generatedAt providerIds (sessionIds ++ [session.id]) sessions

/-- The part of `Decode` after the private content is ruled out. -/
def decodeRoot (document : Tree) : Except DecodeError Snapshot := do
  let nonNull := ["type", "protocol_version", "schema_version", "generated_at", "provider_order",
    "providers", "sessions", "next_refresh_seconds"].map bytes
  let fields := ["type", "protocol_version", "schema_version", "generated_at", "timezone",
    "provider_order", "providers", "sessions", "next_refresh_seconds"].map bytes
  let root ← orMalformed (rawObject document)
  requireFields root fields nonNull
  let version ← decodeSchemaVersion (root.lookup (bytes "schema_version"))
  validateObjectFields root version.minor fields
  let snapshot ← orMalformed (Snapshot.unmarshal document)
  ensure (snapshot.protocolVersion == 1 && snapshot.nextRefresh != 0 &&
    snapshot.nextRefresh ≤ 3600) .malformed
  let order ← orMalformed snapshot.providerOrder
  let providers ← orMalformed snapshot.providers
  let sessions ← orMalformed snapshot.sessions
  let generatedAt ← orMalformed (canonicalUtc snapshot.generatedAt)
  ensure (snapshot.timezone.all (safeText · 64)) .malformed
  ensure (providers.length ≤ 8 && order.length ≤ 8 && sessions.length ≤ 16) .malformed
  let providerDocuments ← orMalformed ((root.lookup (bytes "providers")).bind (decodeSlice some))
  ensure ((providerDocuments.getD []).length == providers.length) .malformed
  let providerIds ← validateProviders generatedAt [] ((providerDocuments.getD []).zip providers) order
  ensure (order.length == providers.length) .malformed
  let sessionDocuments ← orMalformed ((root.lookup (bytes "sessions")).bind (decodeSlice some))
  ensure ((sessionDocuments.getD []).length == sessions.length) .malformed
  validateSessions generatedAt providerIds [] ((sessionDocuments.getD []).zip sessions)
  return { snapshot with generatedAtUnixMs := generatedAt.unixMilli }

/-- `Decode`. -/
def decode (document : Bytes) : Except DecodeError Snapshot := do
  let type ← orMalformed (parseEnvelope document)
  ensure (type == bytes "snapshot.ai") .malformed
  let privacyDocument ← orMalformed (unmarshal document)
  ensure (jsonNodeCount privacyDocument ≤ 2048) .malformed
  ensure (!containsPrivateContent privacyDocument) .privateData
  decodeRoot privacyDocument

/-- `Encode`, after `json.Marshal` has written the document: it is returned if it decodes. -/
def encode (marshal : Snapshot → Option Bytes) (snapshot : Snapshot) : Except DecodeError Bytes := do
  let document ← orMalformed (marshal snapshot)
  let _ ← decode document
  return document

end RlcdDeck.AiSnapshot.Companion
