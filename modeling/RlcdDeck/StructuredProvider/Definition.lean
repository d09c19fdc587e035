import RlcdDeck.AiSnapshot.Marshal
import RlcdDeck.ConfigModel.Settings
import RlcdDeck.StructuredProvider.Path
import RlcdDeck.StructuredProvider.Strict

/-!
# Provider definitions

`structuredprovider`: what a Provider definition holds, and `normalizeConfig`, which every
definition passes before it is stored.  A slice that may be nil is an `Option`; a body that is
empty and one that is nil are not told apart.
-/

namespace RlcdDeck.SecretStore

open Json (Bytes bytes isDigit)

abbrev Reference := Bytes

/-- `referencePrefix`. -/
def referencePrefix : Bytes := bytes "secret-"

def referenceRandomBytes : ℕ := 16

/-- `MaximumSecretBytes`. -/
def maximumSecretBytes : ℕ := 2560

def maximumCreateAttempts : ℕ := 8

/-- `validReference`. -/
def validReference (reference : Reference) : Bool :=
  reference.length == referencePrefix.length + referenceRandomBytes * 2 &&
    referencePrefix.isPrefixOf reference &&
    (reference.drop referencePrefix.length).all fun c =>
      isDigit c || (0x61 ≤ c.toNat && c.toNat ≤ 0x66)

end RlcdDeck.SecretStore

namespace RlcdDeck.StructuredProvider

open Json (Bytes bytes Tree isDigit unquote)
open AiSnapshot.Companion (isLower isUpper normalizedFieldName)
open ConfigModel (Network Url Ip)
open SecretStore (Reference validReference)

/-- A request header; its value is the credential under the reference. -/
structure Header where
  name : Bytes
  secretReference : Reference
  prefixText : Bytes
  deriving DecidableEq

structure Request where
  method : Bytes
  url : Bytes
  headers : Option (List Header)
  body : Bytes
  deriving DecidableEq

structure Mapping where
  balancePath : Bytes
  usedPath : Bytes
  totalPath : Bytes
  resetPath : Bytes
  currencyPath : Bytes
  fixedCurrency : Bytes
  balanceDivisor : UInt64
  windowName : Bytes
  resetFormat : Bytes
  deriving DecidableEq

structure Definition where
  id : Bytes
  displayName : Bytes
  experimental : Bool
  request : Request
  mapping : Mapping
  refreshMinutes : UInt16
  requestTimeoutSeconds : UInt16
  maximumResponseBytes : ℤ
  deriving DecidableEq

/-- The headers, none of them when the slice is nil. -/
def Definition.headers (definition : Definition) : List Header :=
  definition.request.headers.getD []

/-- What a vault answers besides success; the two last are those of the context. -/
inductive VaultError where
  | notFound
  | duplicate
  | locked
  | permission
  | canceled
  | unavailable
  | invalid
  | corrupt
  | contextCanceled
  | deadlineExceeded
  deriving DecidableEq

/-- The errors of the definition store and of the secret store. -/
inductive Failure where
  | invalidConfig
  | networkPolicy
  | definitionCommit
  | secretRollback (pending : List Reference)
  | serialPresetLimit
  | serialPresetNotFound
  | vault (error : VaultError)
  deriving DecidableEq

/-- Goes on only if the condition holds. -/
def ensure (condition : Bool) (failure : Failure) : Except Failure Unit :=
  if condition then .ok () else .error failure

def orInvalid {α : Type} : Option α → Except Failure α
  | none => .error .invalidConfig
  | some a => .ok a

/-! ### Text -/

/-- `validDisplayText`. -/
def validDisplayText (value : Bytes) (maximum : ℕ) : Bool :=
  !value.isEmpty && Utf8.valid value && (Utf8.runes value).length ≤ maximum &&
    (Utf8.runes value).all fun c => !c.any Utf8.isControl

def toLower (s : Bytes) : Bytes := s.map fun c => if isUpper c then c + 0x20 else c

/-- `providerIDPattern`. -/
def providerIdPattern : Bytes → Bool := ConfigModel.pattern isLower ConfigModel.isWord 0 31

/-- `strings.Contains`. -/
def contains (s part : Bytes) : Bool := s.tails.any part.isPrefixOf

/-! ### The target -/

/-- A label of a host name. -/
def validLabel (label : Bytes) : Bool :=
  !label.isEmpty && label.length ≤ 63 && label.head? != some 0x2d && label.getLast? != some 0x2d &&
    label.all fun c => isLower c || isUpper c || isDigit c || c == 0x2d

/-- `validTargetHost`. -/
def validTargetHost (network : Network) (host : Bytes) : Bool :=
  if host.isEmpty || 253 < host.length || host.contains 0x25 then false
  else if (network.parseIp host).isSome then true
  else
    let name := if host.getLast? = some 0x2e then host.dropLast else host
    (name.splitOn 0x2e).all validLabel

/-- The target of a request. -/
def checkTarget (network : Network) (url : Bytes) : Except Failure Url := do
  let target ← orInvalid (network.parseUrl url)
  ensure (url.length ≤ 2048 && !target.host.isEmpty && !target.user && target.fragment.isEmpty &&
    (target.scheme == bytes "https" || target.scheme == bytes "http") &&
    validTargetHost network target.hostname && target.rawQuery.isEmpty) .invalidConfig
  ensure ((network.parseIp target.hostname).all fun literal => literal.allowedTarget target.scheme)
    .networkPolicy
  return if target.path.isEmpty then { target with path := bytes "/" } else target

/-! ### The body -/

/-- `sensitiveFieldName`. -/
def sensitiveFieldName (name : Bytes) : Bool :=
  let normalized := normalizedFieldName name
  (["token", "secret", "password", "passwd", "passphrase", "credential", "auth", "apikey",
    "privatekey", "subscriptionkey", "accesskey", "cookie", "prompt", "message", "bearer",
    "signature", "hmac", "jwt", "sessionkey"].any fun marker =>
      contains normalized (bytes marker)) ||
    normalized == bytes "key" || normalized == bytes "pwd"

mutual

/-- `containsSensitiveBodyField`. -/
def containsSensitiveBodyField : Tree → Bool
  | .object members => membersSensitive members
  | .array items => itemsSensitive items
  | _ => false

def membersSensitive : List (Bytes × Tree) → Bool
  | [] => false
  | (key, child) :: members =>
    (unquote key).any sensitiveFieldName || containsSensitiveBodyField child ||
      membersSensitive members

def itemsSensitive : List Tree → Bool
  | [] => false
  | child :: items => containsSensitiveBodyField child || itemsSensitive items

end

def maximumRequestBody : ℕ := 65536

/-- The checks of the body. -/
def validBody (method body : Bytes) : Bool :=
  if body.isEmpty then true
  else
    method != bytes "GET" && body.length ≤ maximumRequestBody &&
      (strictAny maximumRequestBody body).isSome &&
      (decodeGenericJson body).any fun value => !containsSensitiveBodyField value

/-! ### The headers -/

def maximumHeaders : ℕ := 32
def maximumHeaderBytes : ℕ := 16384

def validHeaderFieldByte (c : UInt8) : Bool :=
  isLower c || isUpper c || isDigit c || c ∈ bytes "!#$%&'*+-.^_`|~"

/-- The name with a capital in front and after every `-`. -/
def capitalize : (capital : Bool) → Bytes → Bytes
  | _, [] => []
  | capital, c :: name =>
    let letter :=
      if capital && isLower c then c - 0x20 else if !capital && isUpper c then c + 0x20 else c
    letter :: capitalize (letter == 0x2d) name

/-- `http.CanonicalHeaderKey`. -/
def canonicalHeaderKey (name : Bytes) : Bytes :=
  if name.all validHeaderFieldByte then capitalize true name else name

/-- `validHeaderName`. -/
def validHeaderName (name : Bytes) : Bool :=
  name.all fun c => isLower c || isUpper c || isDigit c || c ∈ bytes "!#$%&'*+-.^_|~"

/-- `forbiddenHeader`. -/
def forbiddenHeader (lower : Bytes) : Bool :=
  (["host", "connection", "content-length", "transfer-encoding", "trailer", "upgrade",
    "proxy-authorization", "proxy-authenticate", "proxy-connection", "keep-alive", "te", "accept",
    "accept-encoding", "content-type", "cookie"].map bytes).contains lower ||
    (bytes "sec-").isPrefixOf lower

/-- `allowedSecretPrefix`. -/
def allowedSecretPrefix (name prefixText : Bytes) : Bool :=
  prefixText.isEmpty || (toLower name == bytes "authorization" &&
    (["Bearer ", "Basic ", "Token "].map bytes).contains prefixText)

/-- The loop of `normalizeHeaders`, after the names `seen` and `total` bytes. -/
def headersLoop : (seen : List Bytes) → (total : ℕ) → List Header → Option (List Header)
  | _, _, [] => some []
  | seen, total, header :: headers =>
    let name := canonicalHeaderKey (Utf8.trimSpace header.name)
    let lower := toLower name
    let size := name.length + header.prefixText.length + header.secretReference.length
    if name.isEmpty || !validHeaderName name || forbiddenHeader lower ||
        !allowedSecretPrefix name header.prefixText || !validReference header.secretReference then
      none
    else if seen.contains lower then none
    else if maximumHeaderBytes < total + size then none
    else
      (headersLoop (lower :: seen) (total + size) headers).map fun normalized =>
        { header with name := name } :: normalized

/-- `normalizeHeaders`; its result is never nil. -/
def normalizeHeaders (source : Option (List Header)) : Option (List Header) :=
  if maximumHeaders < (source.getD []).length then none else headersLoop [] 0 (source.getD [])

/-! ### The mapping -/

structure CompiledMapping where
  balance : Option (List PathStep)
  used : Option (List PathStep)
  total : Option (List PathStep)
  reset : Option (List PathStep)
  currency : Option (List PathStep)
  definition : Mapping

/-- `validCurrency`. -/
def validCurrency (value : Bytes) : Bool := value.length == 3 && value.all isUpper

/-- The checks of `compileMapping` before the paths. -/
def validMapping (mapping : Mapping) : Bool :=
  validDisplayText mapping.windowName 24 &&
    !(mapping.balancePath.isEmpty && mapping.usedPath.isEmpty) &&
    mapping.usedPath.isEmpty == mapping.totalPath.isEmpty &&
    !(!mapping.balancePath.isEmpty && mapping.fixedCurrency.isEmpty &&
      mapping.currencyPath.isEmpty) &&
    !(!mapping.fixedCurrency.isEmpty && !mapping.currencyPath.isEmpty) &&
    (mapping.fixedCurrency.isEmpty || validCurrency mapping.fixedCurrency) &&
    mapping.resetPath.isEmpty == mapping.resetFormat.isEmpty &&
    (mapping.resetFormat.isEmpty ||
      (["rfc3339", "unix_seconds", "unix_milliseconds"].map bytes).contains mapping.resetFormat)

/-- `compileMapping`. -/
def compileMapping (mapping : Mapping) : Option CompiledMapping := do
  let divisor := if mapping.balanceDivisor = 0 then 1 else mapping.balanceDivisor
  let windowName := if mapping.windowName.isEmpty then bytes "account" else mapping.windowName
  let definition := { mapping with balanceDivisor := divisor, windowName := windowName }
  guard (validMapping definition)
  let balance ← compilePath definition.balancePath
  let used ← compilePath definition.usedPath
  let total ← compilePath definition.totalPath
  let reset ← compilePath definition.resetPath
  let currency ← compilePath definition.currencyPath
  return { balance, used, total, reset, currency, definition }

/-! ### The definition -/

/-- `validDefinitionProvider`. -/
def validDefinitionProvider (definition : Definition) (mapping : CompiledMapping) : Bool :=
  let currency := mapping.definition.fixedCurrency
  AiSnapshot.Companion.acceptsProvider {
    schemaVersion := ⟨1, 0⟩
    id := definition.id
    displayName := definition.displayName
    status := bytes "ok"
    source := bytes "structured_http"
    confidence := bytes "verified"
    experimental := definition.experimental
    updatedAt := none
    staleAfterSeconds := some (definition.refreshMinutes.toNat * 3 * 60)
    balance := mapping.balance.map fun _ =>
      ⟨0, if currency.isEmpty then bytes "USD" else currency⟩
    windows := some (mapping.used.elim [] fun _ =>
      [⟨mapping.definition.windowName, none, none, none, none⟩])
    tokens := none
    error := none } ⟨2026, 8, 14, 0, 0, 0, 0⟩

/-- `DefaultRequestTimeout` in seconds. -/
def defaultRequestTimeout : UInt16 := 10

/-- `DefaultMaximumResponse`. -/
def defaultMaximumResponse : ℤ := 262144

/-- `allowedRefresh`. -/
def allowedRefresh (minutes : UInt16) : Bool := [1, 5, 15, 30, 60].contains minutes

structure NormalizedConfig where
  definition : Definition
  target : Url
  mapping : CompiledMapping
  warning : Bytes

/-- The definition with its defaults. -/
def withDefaults (definition : Definition) (headers : List Header) : Definition :=
  { definition with
    request := { definition.request with
      method := if definition.request.method.isEmpty then bytes "GET" else definition.request.method
      headers := some headers }
    requestTimeoutSeconds :=
      if definition.requestTimeoutSeconds = 0 then defaultRequestTimeout
      else definition.requestTimeoutSeconds
    maximumResponseBytes :=
      if definition.maximumResponseBytes ≤ 0 then defaultMaximumResponse
      else definition.maximumResponseBytes }

/-- `normalizeConfig`. -/
def normalizeConfig (network : Network) (source : Definition) :
    Except Failure NormalizedConfig := do
  ensure (providerIdPattern source.id && source.id.length ≤ 32 && source.id != bytes "codex" &&
    source.id != bytes "cursor" && validDisplayText source.displayName 48) .invalidConfig
  let method := (withDefaults source []).request.method
  ensure (method == bytes "GET" || method == bytes "POST") .invalidConfig
  let target ← checkTarget network source.request.url
  ensure (validBody method source.request.body) .invalidConfig
  let headers ← orInvalid (normalizeHeaders source.request.headers)
  let definition := withDefaults source headers
  ensure (definition.requestTimeoutSeconds ≤ 30) .invalidConfig
  ensure (allowedRefresh definition.refreshMinutes) .invalidConfig
  ensure (definition.maximumResponseBytes ≤ defaultMaximumResponse) .invalidConfig
  let mapping ← orInvalid (compileMapping definition.mapping)
  ensure (validDefinitionProvider definition mapping) .invalidConfig
  let warning :=
    if target.scheme = bytes "http" then bytes "private-network HTTP is not encrypted" else []
  return { definition, target, mapping, warning }

/-- `cloneDefinition`: a slice of no headers becomes nil. -/
def cloneDefinition (source : Definition) : Definition :=
  { source with
    request := { source.request with
      headers := if source.headers.isEmpty then none else some source.headers } }

end RlcdDeck.StructuredProvider
