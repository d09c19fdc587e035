import RlcdDeck.StructuredProvider.Definition

/-!
# Curl import

The model of `curl.go`: `lexCurl` and `ImportCurl`.  Every error is `ErrInvalidCurl`, so a failure
is `none`.  A string that `utf8.ValidString` accepts is read as its characters.
-/

namespace RlcdDeck.StructuredProvider

open AiSnapshot.Companion (foldName)
open ConfigModel (Network)
open Json (Bytes bytes decimalText)
open SecretStore (Reference)

/-! ### The lexer -/

inductive Quote where
  | none
  | single
  | double
  deriving DecidableEq

/-- The variables of `lexCurl`. -/
structure Lexer where
  tokens : List (List Char) := []
  current : List Char := []
  quote : Quote := .none
  escaped : Bool := false

namespace Lexer

def flush (lexer : Lexer) : Lexer :=
  if lexer.current.isEmpty then lexer
  else { lexer with tokens := lexer.tokens ++ [lexer.current], current := [] }

def write (lexer : Lexer) (character : Char) : Lexer :=
  { lexer with current := lexer.current ++ [character] }

/-- The characters that are refused unless a backslash stands before them. -/
def refused (character : Char) : Bool := "$`\x00\r".toList.contains character

/-- The characters that are refused outside quotes. -/
def shellOperator (character : Char) : Bool := ";|&<>#\n".toList.contains character

/-- One character of the loop of `lexCurl`. -/
def step (lexer : Lexer) (character : Char) : Option Lexer :=
  if lexer.escaped then
    let lexer := { lexer with escaped := false }
    some (if character = '\n' then lexer else lexer.write character)
  else if refused character then none
  else
    match lexer.quote with
    | .single =>
      some (if character = '\'' then { lexer with quote := .none } else lexer.write character)
    | .double =>
      some (if character = '"' then { lexer with quote := .none }
        else if character = '\\' then { lexer with escaped := true }
        else lexer.write character)
    | .none =>
      if character = '\'' then some { lexer with quote := .single }
      else if character = '"' then some { lexer with quote := .double }
      else if character = '\\' then some { lexer with escaped := true }
      else if shellOperator character then none
      else some (if Utf8.isSpace character.toNat then lexer.flush else lexer.write character)

/-- The end of `lexCurl`. -/
def finish (lexer : Lexer) : Option (List (List Char)) :=
  if lexer.escaped || lexer.quote != .none then none else some lexer.flush.tokens

end Lexer

/-- `lexCurl`. -/
def lexCurl (source : List Char) : Option (List (List Char)) :=
  (source.foldlM Lexer.step {}).bind Lexer.finish

/-! ### The options -/

/-- `strings.Cut` at one byte. -/
def cut (separator : UInt8) (s : Bytes) : Bytes × Option Bytes :=
  match s.dropWhile (· != separator) with
  | [] => (s, none)
  | _ :: after => (s.takeWhile (· != separator), some after)

/-- `strings.ToUpper`.  Beyond ASCII it knows only the two letters that become an ASCII letter. -/
def toUpper : Bytes → Bytes
  | [] => []
  | 0xc5 :: 0xbf :: s => 0x53 :: toUpper s
  | 0xc4 :: 0xb1 :: s => 0x49 :: toUpper s
  | c :: s => (if AiSnapshot.Companion.isLower c then c - 0x20 else c) :: toUpper s

def isSilentOption (option : Bytes) : Bool :=
  (["-s", "-S", "-sS", "--silent", "--show-error"].map bytes).contains option

def isMethodOption (option : Bytes) : Bool := (["-X", "--request"].map bytes).contains option

def isHeaderOption (option : Bytes) : Bool := (["-H", "--header"].map bytes).contains option

def isDataOption (option : Bytes) : Bool :=
  (["-d", "--data", "--data-raw", "--data-binary"].map bytes).contains option

def isUrlOption (option : Bytes) : Bool := option == bytes "--url"

/-- The options that have a value. -/
def takesValue (option : Bytes) : Bool :=
  isMethodOption option || isHeaderOption option || isDataOption option || isUrlOption option

/-- What the loop over the tokens of `ImportCurl` collects. -/
structure Arguments where
  method : Bytes := bytes "GET"
  url : Bytes := []
  data : Bytes := []
  encodedHeaders : List Bytes := []

/-- An option with its value. -/
def Arguments.set (arguments : Arguments) (option value : Bytes) : Option Arguments :=
  if isMethodOption option then some { arguments with method := toUpper value }
  else if isHeaderOption option then
    some { arguments with encodedHeaders := arguments.encodedHeaders ++ [value] }
  else if isDataOption option then
    if !arguments.data.isEmpty || (bytes "@").isPrefixOf value then none
    else some { arguments with data := value }
  else if !arguments.url.isEmpty then none
  else some { arguments with url := value }

/-- The loop over the tokens of `ImportCurl`. -/
def readOptions : Arguments → List Bytes → Option Arguments
  | arguments, [] => some arguments
  | arguments, token :: tokens =>
    let option := (cut 0x3d token).1
    let inline? := (cut 0x3d token).2
    if isSilentOption option then
      if inline?.isSome then none else readOptions arguments tokens
    else if takesValue option then
      match inline? with
      | some value =>
        if value.isEmpty then none
        else (arguments.set option value).bind fun arguments => readOptions arguments tokens
      | none =>
        match tokens with
        | [] => none
        | value :: tokens =>
          (arguments.set option value).bind fun arguments => readOptions arguments tokens
    else if (bytes "-").isPrefixOf token || inline?.isSome || !arguments.url.isEmpty then none
    else readOptions { arguments with url := token } tokens

alias readOptions_def := readOptions.eq_def

/-! ### The request -/

/-- The body of the request, and the method that it asks for. -/
def readBody (method data : Bytes) : Option (Bytes × Bytes) :=
  if data.isEmpty then some (method, [])
  else do
    let _ ← strictAny maximumRequestBody data
    let value ← decodeGenericJson data
    guard (!containsSensitiveBodyField value)
    return (if method = bytes "GET" then bytes "POST" else method, data)

/-- The checks of the URL in `ImportCurl`. -/
def importTarget (network : Network) (url : Bytes) : Bool :=
  (network.parseUrl url).any fun target =>
    !target.host.isEmpty && !target.user && target.fragment.isEmpty &&
      (target.scheme == bytes "https" || target.scheme == bytes "http") &&
      validTargetHost network target.hostname && target.rawQuery.isEmpty

/-- The request without its headers. -/
def Arguments.request (network : Network) (arguments : Arguments) : Option Request := do
  guard (!arguments.url.isEmpty &&
    (arguments.method == bytes "GET" || arguments.method == bytes "POST"))
  guard (importTarget network arguments.url)
  let (method, body) ← readBody arguments.method arguments.data
  return { method, url := arguments.url, headers := none, body }

/-! ### The headers -/

/-- `maximumSecretBytes` of this package. -/
def maximumHeaderText : ℕ := 16384

/-- `validHeaderText`. -/
def validHeaderText (value : Bytes) : Bool :=
  Utf8.valid value && value.length ≤ maximumHeaderText &&
    !value.contains 13 && !value.contains 10 && !value.contains 0

/-- `splitSecretPrefix`. -/
def splitSecretPrefix (name value : Bytes) : Bytes × Bytes :=
  let before := value.takeWhile (· != 0x20)
  let after := value.drop (before.length + 1)
  if toLower name = bytes "authorization" && !before.isEmpty && !after.isEmpty &&
      allowedSecretPrefix name (before ++ [0x20]) then
    (before ++ [0x20], after)
  else ([], value)

structure ImportedSecret where
  slot : Bytes
  headerIndex : ℕ
  value : Bytes
  deriving DecidableEq

structure CurlImport where
  request : Request
  secrets : List ImportedSecret
  deriving DecidableEq

/-- One header with its credential; `some none` for a header that is left out. -/
def importHeader (encoded : Bytes) : Option (Option (Header × Bytes)) :=
  let name := canonicalHeaderKey (Utf8.trimSpace (cut 0x3a encoded).1)
  let value := Utf8.trimSpace ((cut 0x3a encoded).2.getD [])
  let lower := toLower name
  if (cut 0x3a encoded).2.isNone || name.isEmpty || value.isEmpty || !validHeaderName name ||
      !validHeaderText value then
    none
  else if lower = bytes "accept" ∨ lower = bytes "content-type" then
    if foldName (Utf8.trimSpace (cut 0x3b value).1) = bytes "application/json" then some none
    else none
  else if forbiddenHeader lower then none
  else if (splitSecretPrefix name value).2.isEmpty then none
  else
    some (some ({ name, secretReference := [], prefixText := (splitSecretPrefix name value).1 },
      (splitSecretPrefix name value).2))

/-- The loop over the headers of `ImportCurl`. -/
def importHeaders : (headers : List Header) → (secrets : List ImportedSecret) → List Bytes →
    Option (List Header × List ImportedSecret)
  | headers, secrets, [] => some (headers, secrets)
  | headers, secrets, encoded :: rest =>
    match importHeader encoded with
    | none => none
    | some none => importHeaders headers secrets rest
    | some (some (header, secret)) =>
      importHeaders (headers ++ [header])
        (secrets ++ [{
          slot := bytes "imported_header_" ++ decimalText (secrets.length + 1)
          headerIndex := headers.length
          value := secret }]) rest

/-- The reference under which a draft is checked. -/
def draftReference : Reference := bytes "secret-00000000000000000000000000000000"

/-- `normalizeDraftHeaders`. -/
def normalizeDraftHeaders (source : List Header) : Option (List Header) :=
  if source.any fun header => !header.secretReference.isEmpty then none
  else
    (normalizeHeaders
        (some (source.map fun header => { header with secretReference := draftReference }))).map
      (·.map fun header =>
        if header.secretReference = draftReference then { header with secretReference := [] }
        else header)

def maximumCurlImportBytes : ℕ := 65536

/-- The tokens of a source, as byte strings. -/
def curlTokens (source : Bytes) : Option (List Bytes) := do
  guard (!source.isEmpty && source.length ≤ maximumCurlImportBytes)
  let characters ← Utf8.decode source
  let tokens ← lexCurl (characters.map Char.ofNat)
  return tokens.map fun token => token.flatMap fun c => Utf8.encode c.toNat

/-- `ImportCurl`. -/
def importCurl (network : Network) (source : Bytes) : Option CurlImport := do
  let tokens ← curlTokens source
  guard (2 ≤ tokens.length && tokens.head? == some (bytes "curl"))
  let arguments ← readOptions {} tokens.tail
  let request ← arguments.request network
  let (headers, secrets) ← importHeaders [] [] arguments.encodedHeaders
  guard (normalizeDraftHeaders headers).isSome
  return { request := { request with headers := some headers }, secrets }

end RlcdDeck.StructuredProvider
