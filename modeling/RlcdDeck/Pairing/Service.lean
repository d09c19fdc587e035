import RlcdDeck.Bytes.Base64
import RlcdDeck.Pairing.FileStore

/-!
# The pairing service

The model of `pairing/service.go` over the file store, as a machine that takes one store operation
after another.  What the clock, the random source and the environment answer comes with each
event, so that any interleaving of requests is a list of events; the time of an event was read
before its turn at the mutex came.  An `Issue` makes up to eight attempts, each of which is an
event: it goes on only after a conflict.  The records for the auditor are left out.
-/

namespace RlcdDeck.Pairing

open Bytes (decodeHex encodeHex)

/-- What a `Service` is configured with. -/
structure Config where
  crypto : Crypto
  codePepper : List UInt8
  codeTTL : ℤ
  fingerprint : Text
  certificateDer : Text

structure IssuedCode where
  code : Text
  expiresAt : Time
  deriving DecidableEq

structure RedeemRequest where
  code : Text
  deviceId : Text
  deviceIdentity : Text
  protocolVersion : ℤ

structure Credential where
  deviceId : Text
  token : Text
  certificateFingerprint : Text
  certificateDer : Text
  protocolVersion : ℤ
  deriving DecidableEq

structure Authentication where
  deviceId : Text
  token : Text
  deviceIdentity : Text
  protocolVersion : ℤ

inductive ServiceError where
  | invalidRequest
  | unsupportedProtocol
  | generateCode
  | generateToken
  | invalidTokenVerifier
  | invalidIdentityVerifier
  | store (error : StoreError)
  deriving DecidableEq

/-- `pairingCodeSpace`. -/
def pairingCodeSpace : ℤ := 1000000

/-- `deviceTokenBytes`. -/
def deviceTokenBytes : ℕ := 32

/-- `%06d` of a number below `pairingCodeSpace`. -/
def formatCode (number : ℕ) : Text :=
  [5, 4, 3, 2, 1, 0].map fun place => UInt8.ofNat (48 + number / 10 ^ place % 10)

/-- `codeVerifier`. -/
def Config.codeVerifier (config : Config) (code : Text) : Text :=
  encodeHex (config.crypto.hmac config.codePepper code).1

/-- The identity of a device, of 16 to 512 bytes. -/
def decodeIdentity (deviceIdentity : Text) : Option (List UInt8) :=
  match Bytes.Base64.decodeRaw Bytes.Base64.urlSafe deviceIdentity with
  | none => none
  | some identity => if identity.length < 16 ∨ 512 < identity.length then none else some identity

/-- `decodeVerifier`. -/
def decodeVerifier (encoded : Text) : Option (List UInt8) :=
  match decodeHex encoded with
  | none => none
  | some decoded => if decoded.length ≠ 32 then none else some decoded

/-- `^[0-9]{6}$`. -/
def pairingCodePattern (text : Text) : Bool := text.length == 6 && text.all isDigit

/-- `validateRedeemRequest`. -/
def validateRedeemRequest (crypto : Crypto) (request : RedeemRequest) :
    Except ServiceError Text :=
  if request.protocolVersion ≠ Pairing.protocolVersion then .error .unsupportedProtocol
  else if pairingCodePattern request.code = false ∨ deviceIdPattern request.deviceId = false then
    .error .invalidRequest
  else
    match decodeIdentity request.deviceIdentity with
    | none => .error .invalidRequest
    | some identity => .ok (verifier crypto identity)

/-! ### Operations -/

inductive Response where
  | issued (code : IssuedCode)
  | redeemed (credential : Credential)
  | revoked
  | verified (accepted : Bool)
  | closed
  | failed (error : ServiceError)
  deriving DecidableEq

/-- The end of an event. -/
structure Outcome where
  response : Response
  committed : Bool
  store : FileStore

/-- A store operation, with the response of one that succeeds. -/
def Update.outcome (update : Update) (success : Response) : Outcome :=
  { response := match update.error with
      | none => success
      | some error => .failed (.store error)
    committed := update.committed
    store := update.store }

/-- An event that does not come to its store operation. -/
def refuse (store : FileStore) (error : ServiceError) : Outcome := ⟨.failed error, false, store⟩

/-- The code that an attempt saves. -/
def newCode (config : Config) (number : ℤ) (deviceId : Text) (now : Time) : StoredCode :=
  { verifier := config.codeVerifier (formatCode number.toNat)
    deviceId := deviceId
    issuedAt := now
    expiresAt := now + config.codeTTL }

/-- One attempt of `issueCode`. -/
def issueAttempt (config : Config) (store : FileStore) (number : Option ℤ) (deviceId : Text)
    (now : Time) (env : Env)
    (save : StoredCode → FileStoreState → Except StoreError FileStoreState) : Outcome :=
  match number with
  | none => refuse store .generateCode
  | some number =>
    if number < 0 ∨ pairingCodeSpace ≤ number then refuse store .generateCode
    else
      (store.update env (save (newCode config number deviceId now))).outcome
        (.issued ⟨formatCode number.toNat, now + config.codeTTL⟩)

/-- An attempt of `Issue`. -/
def issue (config : Config) (store : FileStore) (number : Option ℤ) (now : Time) (env : Env) :
    Outcome :=
  issueAttempt config store number [] now env (saveCode config.crypto)

/-- An attempt of `IssueRotation`. -/
def issueRotation (config : Config) (store : FileStore) (deviceId : Text) (number : Option ℤ)
    (now : Time) (env : Env) : Outcome :=
  if !deviceIdPattern deviceId then refuse store .invalidRequest
  else issueAttempt config store number deviceId now env (saveRotationCode config.crypto)

/-- The token of a device. -/
def deviceToken (tokenBytes : List UInt8) : Text :=
  Bytes.Base64.encodeRaw Bytes.Base64.urlSafe tokenBytes

/-- The trust that `Redeem` asks for. -/
def requestedTrust (config : Config) (request : RedeemRequest) (identityVerifier : Text)
    (tokenBytes : List UInt8) (now : Time) : StoredTrust :=
  { deviceId := request.deviceId
    deviceIdentityVerifier := identityVerifier
    tokenVerifier := verifier config.crypto (deviceToken tokenBytes)
    protocolVersion := request.protocolVersion
    createdAt := now
    rotatedAt := 0 }

/-- `Redeem`. -/
def redeem (config : Config) (store : FileStore) (request : RedeemRequest)
    (tokenBytes : Option (List UInt8)) (now : Time) (env : Env) : Outcome :=
  match validateRedeemRequest config.crypto request with
  | .error error => refuse store error
  | .ok identityVerifier =>
    match tokenBytes with
    | none => refuse store .generateToken
    | some tokenBytes =>
      if tokenBytes.length ≠ deviceTokenBytes then refuse store .generateToken
      else
        (store.update env
          (consumeCode config.crypto (config.codeVerifier request.code) now
            (requestedTrust config request identityVerifier tokenBytes now))).outcome
          (.redeemed
            { deviceId := request.deviceId
              token := deviceToken tokenBytes
              certificateFingerprint := config.fingerprint
              certificateDer := config.certificateDer
              protocolVersion := Pairing.protocolVersion })

/-- The comparison at the end of `Verify`. -/
def matchesTrust (crypto : Crypto) (trust : StoredTrust) (authentication : Authentication)
    (identity : List UInt8) : Response :=
  match decodeVerifier trust.tokenVerifier, decodeVerifier trust.deviceIdentityVerifier with
  | none, _ => .failed .invalidTokenVerifier
  | some _, none => .failed .invalidIdentityVerifier
  | some expectedToken, some expectedIdentity =>
    .verified
      (expectedToken == (crypto.sha256 authentication.token).1 &&
        expectedIdentity == (crypto.sha256 identity).1 &&
        Int32.ofInt trust.protocolVersion == Int32.ofInt authentication.protocolVersion)

/-- `Verify`, with `LookupTrust`. -/
def verify (config : Config) (store : FileStore) (authentication : Authentication)
    (cancelled : Bool) : Response :=
  if deviceIdPattern authentication.deviceId = false ∨ authentication.token = [] ∨
      authentication.protocolVersion ≠ Pairing.protocolVersion then .verified false
  else
    match decodeIdentity authentication.deviceIdentity with
    | none => .verified false
    | some identity =>
      if cancelled then .failed (.store .cancelled)
      else
        match store.state.trusts.lookup authentication.deviceId with
        | none => .verified false
        | some trust => matchesTrust config.crypto trust authentication identity

/-- `Revoke`. -/
def revoke (config : Config) (store : FileStore) (deviceId : Text) (now : Time) (env : Env) :
    Outcome :=
  if !deviceIdPattern deviceId then refuse store .invalidRequest
  else (store.update env (revokeTrust config.crypto deviceId now)).outcome .revoked

/-! ### Runs -/

inductive Event where
  | issue (number : Option ℤ) (now : Time) (env : Env)
  | issueRotation (deviceId : Text) (number : Option ℤ) (now : Time) (env : Env)
  | redeem (request : RedeemRequest) (tokenBytes : Option (List UInt8)) (now : Time) (env : Env)
  | revoke (deviceId : Text) (now : Time) (env : Env)
  | verify (authentication : Authentication) (cancelled : Bool)
  | close

def step (config : Config) (store : FileStore) : Event → Outcome
  | .issue number now env => issue config store number now env
  | .issueRotation deviceId number now env => issueRotation config store deviceId number now env
  | .redeem request tokenBytes now env => redeem config store request tokenBytes now env
  | .revoke deviceId now env => revoke config store deviceId now env
  | .verify authentication cancelled =>
    ⟨verify config store authentication cancelled, false, store⟩
  | .close => ⟨.closed, false, { store with closed := true }⟩

/-- The store after a list of events. -/
def execute (config : Config) (store : FileStore) (events : List Event) : FileStore :=
  events.foldl (fun store event => (step config store event).store) store

end RlcdDeck.Pairing
