import RlcdDeck.AiSnapshot.Instant
import RlcdDeck.Json.Print

/-!
# Diagnostic events

The model of the event schema in `diagnostics/types.go`.  The levels, the modules and the codes are
strings in the source, where `validEvent` first looks them up in a table; an event with another one
is refused there and has no counterpart here.
-/

namespace RlcdDeck.Diagnostics

open Json (Bytes Tree bytes isDigit)
open Json.Tree (member memberUnless ofNat)
open AiSnapshot.Companion (Time dayNanoseconds zeroYear decimal isLower)

inductive Level where
  | info
  | warning
  | error
  deriving DecidableEq

inductive Module where
  | runtime
  | provider
  | deviceLink
  | history
  | ota
  | serial
  | diagnostics
  deriving DecidableEq

inductive Code where
  | runtimeReady
  | runtimeStopped
  | providerRequest
  | deviceConnected
  | deviceDisconnected
  | operationFailed
  | queueOverflow
  | panicRecovered
  | bundleExported
  deriving DecidableEq

inductive ErrorCode where
  | timeout
  | authStale
  | permissionDenied
  | schemaChanged
  | networkPolicy
  | unavailable
  | storage
  | protocol

def Level.text : Level → Bytes
  | .info => bytes "info"
  | .warning => bytes "warning"
  | .error => bytes "error"

def Module.text : Module → Bytes
  | .runtime => bytes "runtime"
  | .provider => bytes "provider"
  | .deviceLink => bytes "device_link"
  | .history => bytes "history"
  | .ota => bytes "ota"
  | .serial => bytes "serial"
  | .diagnostics => bytes "diagnostics"

def Code.text : Code → Bytes
  | .runtimeReady => bytes "runtime_ready"
  | .runtimeStopped => bytes "runtime_stopped"
  | .providerRequest => bytes "provider_request"
  | .deviceConnected => bytes "device_connected"
  | .deviceDisconnected => bytes "device_disconnected"
  | .operationFailed => bytes "operation_failed"
  | .queueOverflow => bytes "queue_overflow"
  | .panicRecovered => bytes "panic_recovered"
  | .bundleExported => bytes "bundle_exported"

def ErrorCode.text : ErrorCode → Bytes
  | .timeout => bytes "timeout"
  | .authStale => bytes "auth_stale"
  | .permissionDenied => bytes "permission_denied"
  | .schemaChanged => bytes "schema_changed"
  | .networkPolicy => bytes "network_policy"
  | .unavailable => bytes "unavailable"
  | .storage => bytes "storage"
  | .protocol => bytes "protocol"

/-- `Event`; the empty error code is `none`. -/
structure Event where
  level : Level
  origin : Module
  code : Code
  httpStatus : UInt16 := 0
  latencyMs : UInt32 := 0
  schemaVersion : Bytes := []
  errorCode : Option ErrorCode := none
  identifierHash : Bytes := []
  count : UInt32 := 0

/-! ### Checks -/

/-- `validModuleCodes`. -/
def validModuleCodes : Module → List Code
  | .runtime => [.runtimeReady, .runtimeStopped, .operationFailed, .panicRecovered]
  | .provider => [.providerRequest]
  | .deviceLink => [.deviceConnected, .deviceDisconnected, .operationFailed]
  | .history => [.operationFailed]
  | .ota => [.operationFailed]
  | .serial => [.operationFailed]
  | .diagnostics => [.queueOverflow, .bundleExported, .operationFailed]

/-- `[0-9A-Za-z]`. -/
def isAlphanumeric (c : UInt8) : Bool := isDigit c || isLower c || (0x41 ≤ c && c ≤ 0x5a)

/-- `safeSchemaVersion`: `^[0-9A-Za-z][0-9A-Za-z._-]{0,31}$`. -/
def safeSchemaVersion (text : Bytes) : Bool :=
  1 ≤ text.length && text.length ≤ 32 && (text.take 1).all isAlphanumeric &&
    text.all fun c => isAlphanumeric c || c == 0x2e || c == 0x5f || c == 0x2d

/-- A digit that `hex.DecodeString` takes. -/
def isHex (c : UInt8) : Bool := isDigit c || (0x61 ≤ c && c ≤ 0x66) || (0x41 ≤ c && c ≤ 0x46)

/-- `validIdentifierHash`. -/
def validIdentifierHash (text : Bytes) : Bool := text.length == 16 && text.all isHex

/-- `validEvent`. -/
def validEvent (event : Event) : Bool :=
  if !(validModuleCodes event.origin).contains event.code then false
  else if event.schemaVersion ≠ [] && !safeSchemaVersion event.schemaVersion then false
  else if event.identifierHash ≠ [] && !validIdentifierHash event.identifierHash then false
  else if 599 < event.httpStatus || (event.httpStatus ≠ 0 && event.httpStatus < 100) ||
      600000 < event.latencyMs then false
  else if event.origin = .provider then
    event.count = 0 && ((event.errorCode = none && event.level = .info) ||
      (event.errorCode ≠ none && event.level ≠ .info))
  else if event.code = .queueOverflow then
    event.level = .warning && event.count ≠ 0 && event.errorCode = none && event.identifierHash = []
  else if event.errorCode ≠ none && event.code ≠ .operationFailed then false
  else if event.code = .operationFailed && (event.errorCode = none || event.level = .info) then false
  else if event.identifierHash ≠ [] && event.code ≠ .deviceConnected &&
      event.code ≠ .deviceDisconnected then false
  else if (event.code = .runtimeReady || event.code = .runtimeStopped ||
      event.code = .deviceConnected || event.code = .bundleExported) && event.level ≠ .info then false
  else if event.code = .deviceDisconnected && event.level ≠ .warning then false
  else if event.code = .panicRecovered && event.level ≠ .error then false
  else
    event.httpStatus = 0 && event.latencyMs = 0 && event.schemaVersion = [] && event.count = 0

/-! ### Clock readings -/

/-- A `time.Time`: the nanoseconds since the zero time, and the reading of the monotonic clock if it
has one. -/
structure Reading where
  wall : ℤ
  monotonic : Option ℤ := none

/-- `Sub`, before its saturation. -/
def Reading.sub (a b : Reading) : ℤ :=
  match a.monotonic, b.monotonic with
  | some x, some y => x - y
  | _, _ => a.wall - b.wall

/-- `IsZero`. -/
def Reading.isZero (a : Reading) : Bool := a.wall = 0

/-- A number as an `int64`. -/
def int64 (n : ℤ) : ℤ := Int.bmod n (2 ^ 64)

/-- The start of 1970. -/
def unixEpoch : ℕ := 719162 * dayNanoseconds

/-- `UnixNano` of a wall time. -/
def unixNano (wall : ℤ) : ℤ := int64 (wall - unixEpoch)

/-- The nanoseconds of 400 years. -/
def era : ℕ := 146097 * dayNanoseconds

/-- The year of a wall time and its other fields; before the year 0 whole eras are added. -/
def civil (wall : ℤ) : ℤ × Time :=
  let n := wall + zeroYear
  let eras := ((-n).toNat + era - 1) / era
  let t := Time.ofNanoseconds (n + eras * era).toNat
  (t.year - 400 * eras, t)

/-- `Year`. -/
def year (wall : ℤ) : ℤ := (civil wall).1

/-- `Format(time.RFC3339Nano)`: the year has four digits or more, and its sign. -/
def formatUtc (wall : ℤ) : Bytes :=
  let (year, t) := civil wall
  let digits := if year.natAbs < 10000 then decimal 4 year.natAbs else Json.decimalText year.natAbs
  (if year < 0 then [0x2d] else []) ++ digits ++ t.format.drop 4

/-! ### Storage -/

/-- `storedEvent`. -/
structure StoredEvent where
  timestampUtc : Bytes
  event : Event

/-- The JSON object of an event, with what writes its strings. -/
def StoredEvent.tree (ofString : Bytes → Tree) (stored : StoredEvent) : Tree :=
  let event := stored.event
  .object ([member "timestamp_utc" (ofString stored.timestampUtc),
    member "level" (ofString event.level.text), member "module" (ofString event.origin.text),
    member "code" (ofString event.code.text)] ++
    memberUnless (event.httpStatus == 0) "http_status" (ofNat event.httpStatus.toNat) ++
    memberUnless (event.latencyMs == 0) "latency_ms" (ofNat event.latencyMs.toNat) ++
    memberUnless event.schemaVersion.isEmpty "schema_version" (ofString event.schemaVersion) ++
    memberUnless event.errorCode.isNone "error_code"
      (ofString (event.errorCode.elim [] ErrorCode.text)) ++
    memberUnless event.identifierHash.isEmpty "identifier_hash" (ofString event.identifierHash) ++
    memberUnless (event.count == 0) "count" (ofNat event.count.toNat))

/-- `json.Marshal`. -/
def StoredEvent.marshal (stored : StoredEvent) : Bytes := (stored.tree Tree.ofString).print

/-- A character in a string, with `SetEscapeHTML(false)`. -/
def escapeRuneText : Option ℕ → Bytes
  | some point => if Json.isHtml point then Utf8.encode point else Json.escapeRune (some point)
  | none => Json.escapeRune none

/-- The line that the encoder of `persist` writes. -/
def StoredEvent.line (stored : StoredEvent) : Bytes :=
  (stored.tree fun s => .string ((Utf8.runes s).flatMap escapeRuneText)).print ++ [0x0a]

end RlcdDeck.Diagnostics
