import Mathlib.Data.List.AList
import RlcdDeck.Bytes.Hex

/-!
# The pairing store

The model of `pairing/file_store.go`: the one-time codes and the trusted devices, kept in one
file.  Every mutation works on a clone of the state, which is validated and written before it
becomes the state; the mutex makes it atomic.

`writeFileStore` reports two things, whether the file was replaced and whether there was an error;
the file may be replaced and an error reported.  A time is a number of nanoseconds, zero for the
zero time.  The schema version and the `nil` maps, which no clone has, are left out.
-/

namespace RlcdDeck.Pairing

open Bytes (encodeHex isLowerHex)

/-- A string, by its bytes. -/
abbrev Text := List UInt8

/-- The bytes of a string of ASCII characters. -/
def ascii (text : String) : Text := text.toList.map fun c => UInt8.ofNat c.toNat

abbrev Time := ℤ

/-- The output of SHA-256. -/
abbrev Digest := { bytes : List UInt8 // bytes.length = 32 }

/-- The hash functions: any functions with outputs of that size. -/
structure Crypto where
  sha256 : List UInt8 → Digest
  hmac : List UInt8 → List UInt8 → Digest

/-- `ProtocolVersion`. -/
def protocolVersion : ℤ := 1

def maxActiveCodes : ℕ := 64

def maxStoredTrusts : ℕ := 1024

def maxStoredAuditEvents : ℕ := 2048

structure StoredCode where
  verifier : Text
  deviceId : Text
  issuedAt : Time
  expiresAt : Time
  deriving DecidableEq

structure StoredTrust where
  deviceId : Text
  deviceIdentityVerifier : Text
  tokenVerifier : Text
  protocolVersion : ℤ
  createdAt : Time
  rotatedAt : Time

structure AuditEvent where
  action : Text
  outcome : Text
  deviceRef : Text
  occurredAt : Time

/-- `fileStoreState`; codes by verifier and trusts by device. -/
structure FileStoreState where
  codes : AList fun _ : Text => StoredCode := ∅
  trusts : AList fun _ : Text => StoredTrust := ∅
  audit : List AuditEvent := []

inductive StoreError where
  | cancelled
  | closed
  | invalidRequest
  | codeUnavailable
  | codeConflict
  | codeCapacity
  | trustNotFound
  | trustCapacity
  | invalidUpdate
  | write
  | notCommitted
  deriving DecidableEq

/-! ### Validation -/

/-- `[a-z]`. -/
def isLower (c : UInt8) : Bool := 97 ≤ c && c ≤ 122

/-- `[0-9]`. -/
def isDigit (c : UInt8) : Bool := 48 ≤ c && c ≤ 57

/-- `^[a-z0-9][a-z0-9_-]{7,63}$`. -/
def deviceIdPattern (text : Text) : Bool :=
  8 ≤ text.length && text.length ≤ 64 &&
    (text.take 1).all (fun c => isLower c || isDigit c) &&
    text.all fun c => isLower c || isDigit c || c == 95 || c == 45

/-- `^[0-9a-f]{64}$`. -/
def verifierPattern (text : Text) : Bool := text.length == 64 && text.all isLowerHex

/-- `^[0-9a-f]{16}$`. -/
def auditDeviceRefPattern (text : Text) : Bool := text.length == 16 && text.all isLowerHex

/-- `^[a-z][a-z0-9_]{0,63}$`. -/
def auditWordPattern (text : Text) : Bool :=
  1 ≤ text.length && text.length ≤ 64 && (text.take 1).all isLower &&
    text.all fun c => isLower c || isDigit c || c == 95

def validCode (key : Text) (code : StoredCode) : Bool :=
  key == code.verifier && verifierPattern key && code.issuedAt != 0 &&
    decide (code.issuedAt < code.expiresAt) &&
    (code.deviceId == [] || deviceIdPattern code.deviceId)

def validTrust (key : Text) (trust : StoredTrust) : Bool :=
  key == trust.deviceId && deviceIdPattern key &&
    verifierPattern trust.deviceIdentityVerifier && verifierPattern trust.tokenVerifier &&
    trust.protocolVersion == Pairing.protocolVersion && trust.createdAt != 0

def validAudit (event : AuditEvent) : Bool :=
  auditWordPattern event.action && auditWordPattern event.outcome && event.occurredAt != 0 &&
    (event.deviceRef == [] || auditDeviceRefPattern event.deviceRef)

/-- `validateFileStoreState`. -/
def validateFileStoreState (state : FileStoreState) : Bool :=
  decide (state.codes.entries.length ≤ maxActiveCodes) &&
    decide (state.trusts.entries.length ≤ maxStoredTrusts) &&
    decide (state.audit.length ≤ maxStoredAuditEvents) &&
    (state.codes.entries.all fun entry => validCode entry.1 entry.2) &&
    (state.trusts.entries.all fun entry => validTrust entry.1 entry.2) &&
    state.audit.all validAudit

/-! ### Mutations -/

/-- `verifier`. -/
def verifier (crypto : Crypto) (secret : List UInt8) : Text := encodeHex (crypto.sha256 secret).1

/-- `appendFileAudit`. -/
def appendFileAudit (crypto : Crypto) (state : FileStoreState) (action outcome : String)
    (deviceId : Text) (occurredAt : Time) : FileStoreState :=
  let deviceRef := if deviceId = [] then [] else (verifier crypto deviceId).take 16
  let audit := state.audit ++ [⟨ascii action, ascii outcome, deviceRef, occurredAt⟩]
  { state with audit := audit.drop (audit.length - maxStoredAuditEvents) }

@[simp] theorem appendFileAudit_codes (crypto : Crypto) (state : FileStoreState)
    (action outcome : String) (deviceId : Text) (occurredAt : Time) :
    (appendFileAudit crypto state action outcome deviceId occurredAt).codes = state.codes := by
  unfold appendFileAudit
  rfl

@[simp] theorem appendFileAudit_trusts (crypto : Crypto) (state : FileStoreState)
    (action outcome : String) (deviceId : Text) (occurredAt : Time) :
    (appendFileAudit crypto state action outcome deviceId occurredAt).trusts = state.trusts := by
  unfold appendFileAudit
  rfl

/-- The codes that have not expired. -/
def unexpired (codes : AList fun _ : Text => StoredCode) (now : Time) :
    AList fun _ : Text => StoredCode :=
  ⟨codes.entries.filter fun entry => decide (now < entry.2.expiresAt),
    codes.nodupKeys.sublist List.filter_sublist⟩

/-- `saveFileCode`. -/
def saveFileCode (state : FileStoreState) (code : StoredCode) :
    Except StoreError FileStoreState :=
  let codes := unexpired state.codes code.issuedAt
  if (codes.lookup code.verifier).isSome then .error .codeConflict
  else if maxActiveCodes ≤ codes.entries.length then .error .codeCapacity
  else .ok { state with codes := codes.insert code.verifier code }

/-- What `SaveCode` does to the state. -/
def saveCode (crypto : Crypto) (code : StoredCode) (state : FileStoreState) :
    Except StoreError FileStoreState := do
  let state ← saveFileCode state code
  return appendFileAudit crypto state "pairing_code_issued" "success" [] code.issuedAt

/-- What `SaveRotationCode` does to the state. -/
def saveRotationCode (crypto : Crypto) (code : StoredCode) (state : FileStoreState) :
    Except StoreError FileStoreState := do
  if code.deviceId = [] then throw .invalidRequest
  if (state.trusts.lookup code.deviceId).isNone then throw .trustNotFound
  let state ← saveFileCode state code
  return appendFileAudit crypto state "device_token_rotation_code_issued" "success" code.deviceId
    code.issuedAt

/-- The trust that a code lets in: a rotation code only the device it is for, with the identity
and the protocol of the trust it replaces. -/
def admitted (state : FileStoreState) (code : StoredCode) (now : Time) (trust : StoredTrust) :
    Except StoreError StoredTrust :=
  if code.deviceId = [] then .ok trust
  else
    match state.trusts.lookup code.deviceId with
    | none => .error .codeUnavailable
    | some existing =>
      if trust.deviceId ≠ code.deviceId ∨
          trust.deviceIdentityVerifier ≠ existing.deviceIdentityVerifier ∨
          trust.protocolVersion ≠ existing.protocolVersion then .error .codeUnavailable
      else .ok { trust with createdAt := existing.createdAt, rotatedAt := now }

/-- What `ConsumeCode` does to the state. -/
def consumeCode (crypto : Crypto) (codeVerifier : Text) (now : Time) (trust : StoredTrust)
    (state : FileStoreState) : Except StoreError FileStoreState :=
  match state.codes.lookup codeVerifier with
  | none => .error .codeUnavailable
  | some code =>
    if code.expiresAt ≤ now then .error .codeUnavailable
    else if (state.trusts.lookup trust.deviceId).isNone ∧
        maxStoredTrusts ≤ state.trusts.entries.length then .error .trustCapacity
    else do
      let trust ← admitted state code now trust
      return appendFileAudit crypto
        { state with
          codes := state.codes.erase codeVerifier
          trusts := state.trusts.insert trust.deviceId trust }
        "pairing_redeem" "success" trust.deviceId now

/-- What `RevokeTrust` does to the state. -/
def revokeTrust (crypto : Crypto) (deviceId : Text) (now : Time) (state : FileStoreState) :
    Except StoreError FileStoreState :=
  if (state.trusts.lookup deviceId).isNone then .error .trustNotFound
  else
    .ok (appendFileAudit crypto { state with trusts := state.trusts.erase deviceId }
      "device_revoked" "success" deviceId now)

/-! ### The store -/

structure FileStore where
  state : FileStoreState := {}
  closed : Bool := false

/-- What the environment answers to one store operation: whether its context was cancelled, and
the two results of `writeFileStore`. -/
structure Env where
  cancelled : Bool := false
  committed : Bool := true
  failed : Bool := false

/-- The end of a store operation; `committed` says that the file was replaced. -/
structure Update where
  error : Option StoreError
  committed : Bool
  store : FileStore

/-- `FileStore.update`. -/
def FileStore.update (store : FileStore) (env : Env)
    (mutate : FileStoreState → Except StoreError FileStoreState) : Update :=
  if env.cancelled then ⟨some .cancelled, false, store⟩
  else if store.closed then ⟨some .closed, false, store⟩
  else
    match mutate store.state with
    | .error error => ⟨some error, false, store⟩
    | .ok next =>
      if !validateFileStoreState next then ⟨some .invalidUpdate, false, store⟩
      else
        { error :=
            if env.failed then some .write else if env.committed then none else some .notCommitted
          committed := env.committed
          store := if env.committed then { store with state := next } else store }

end RlcdDeck.Pairing
