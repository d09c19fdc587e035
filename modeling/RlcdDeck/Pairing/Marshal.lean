import RlcdDeck.AiSnapshot.Instant
import RlcdDeck.Json.Print
import RlcdDeck.Pairing.FileStore
import RlcdDeck.StructuredProvider.Strict

/-!
# The file of the pairing store

`json.Marshal` of a `fileStoreState`, and `readFileStore`: the strict decoding of what is in the file
and the validation of the result.  A struct is read by the exact names of its fields, and a time in
the zone `Z`, which is how the store writes them.
-/

namespace RlcdDeck.Pairing

open Json (Tree bytes)
open Json.Tree (member memberUnless ofInt ofNat ofString)
open AiSnapshot.Companion (RawObject decodeString marshalInstant parseUint rawObject unmarshalInstant)

/-- `maxFileStoreBytes`. -/
def maxFileStoreBytes : ℕ := 2 ^ 20

/-! ### Writing -/

/-- A `time.Time`; the years that `MarshalJSON` does not write have no value. -/
def timeTree (time : Time) : Option Tree := (marshalInstant time).map ofString

def StoredCode.tree (code : StoredCode) : Option Tree := do
  let issuedAt ← timeTree code.issuedAt
  let expiresAt ← timeTree code.expiresAt
  return .object ([member "verifier" (ofString code.verifier)] ++
    memberUnless code.deviceId.isEmpty "device_id" (ofString code.deviceId) ++
    [member "issued_at" issuedAt, member "expires_at" expiresAt])

/-- A `time.Time` is never empty to `omitempty`. -/
def StoredTrust.tree (trust : StoredTrust) : Option Tree := do
  let createdAt ← timeTree trust.createdAt
  let rotatedAt ← timeTree trust.rotatedAt
  return .object [member "device_id" (ofString trust.deviceId),
    member "device_identity_verifier" (ofString trust.deviceIdentityVerifier),
    member "token_verifier" (ofString trust.tokenVerifier),
    member "protocol_version" (ofInt trust.protocolVersion), member "created_at" createdAt,
    member "rotated_at" rotatedAt]

def AuditEvent.tree (event : AuditEvent) : Option Tree := do
  let occurredAt ← timeTree event.occurredAt
  return .object ([member "action" (ofString event.action),
    member "outcome" (ofString event.outcome)] ++
    memberUnless event.deviceRef.isEmpty "device_ref" (ofString event.deviceRef) ++
    [member "occurred_at" occurredAt])

/-- A map, by its keys in order. -/
def mapTree {α : Type} (tree : α → Option Tree) (entries : AList fun _ : Text => α) :
    Option Tree := do
  let sorted := entries.entries.mergeSort fun a b => !decide (b.1 < a.1)
  let members ← sorted.mapM fun entry => (tree entry.2).map fun t => (Json.escape entry.1, t)
  return .object members

def FileStoreState.tree (state : FileStoreState) : Option Tree := do
  let codes ← mapTree StoredCode.tree state.codes
  let trusts ← mapTree StoredTrust.tree state.trusts
  let audit ← state.audit.mapM AuditEvent.tree
  return .object [member "schema_version" (ofNat 1), member "codes" codes, member "trusts" trusts,
    member "audit" (.array audit)]

/-- `json.Marshal`. -/
def FileStoreState.marshal (state : FileStoreState) : Option Json.Bytes :=
  state.tree.map Tree.print

/-! ### Reading -/

/-- Into an `int`. -/
def decodeInt : Tree → Option ℤ
  | .null => some 0
  | .number text =>
    let value : Option ℤ :=
      if text.head? = some Json.minus then (parseUint (text.drop 1)).map fun n => -(n : ℤ)
      else (parseUint text).map fun n => (n : ℤ)
    value.filter fun n => -(2 : ℤ) ^ 63 ≤ n && n < 2 ^ 63
  | _ => none

/-- Into a `time.Time`. -/
def decodeTime : Tree → Option Time
  | .null => some 0
  | .string raw => (Json.unquote raw).bind unmarshalInstant
  | _ => none

/-- The members of a struct that has no others. -/
def structMembers (names : List String) (t : Tree) : Option RawObject :=
  (rawObject t).filter fun object => object.all fun m => (names.map bytes).contains m.1

def StoredCode.unmarshal (t : Tree) : Option StoredCode := do
  let object ← structMembers ["verifier", "device_id", "issued_at", "expires_at"] t
  return {
    verifier := ← object.decode "verifier" [] decodeString
    deviceId := ← object.decode "device_id" [] decodeString
    issuedAt := ← object.decode "issued_at" 0 decodeTime
    expiresAt := ← object.decode "expires_at" 0 decodeTime }

def StoredTrust.unmarshal (t : Tree) : Option StoredTrust := do
  let object ← structMembers ["device_id", "device_identity_verifier", "token_verifier",
    "protocol_version", "created_at", "rotated_at"] t
  return {
    deviceId := ← object.decode "device_id" [] decodeString
    deviceIdentityVerifier := ← object.decode "device_identity_verifier" [] decodeString
    tokenVerifier := ← object.decode "token_verifier" [] decodeString
    protocolVersion := ← object.decode "protocol_version" 0 decodeInt
    createdAt := ← object.decode "created_at" 0 decodeTime
    rotatedAt := ← object.decode "rotated_at" 0 decodeTime }

def AuditEvent.unmarshal (t : Tree) : Option AuditEvent := do
  let object ← structMembers ["action", "outcome", "device_ref", "occurred_at"] t
  return {
    action := ← object.decode "action" [] decodeString
    outcome := ← object.decode "outcome" [] decodeString
    deviceRef := ← object.decode "device_ref" [] decodeString
    occurredAt := ← object.decode "occurred_at" 0 decodeTime }

/-- Into a map, which is `none` when it is nil. -/
def decodeMap {α : Type} (decode : Tree → Option α) :
    Tree → Option (Option (AList fun _ : Text => α))
  | .null => some none
  | t => do
    let object ← rawObject t
    let entries ← object.mapM fun m => (decode m.2).map fun a => (⟨m.1, a⟩ : Sigma fun _ : Text => α)
    return some (entries.foldl (fun map entry => map.insert entry.1 entry.2) ∅)

/-- Into a `fileStoreState` of the schema version 1 whose maps and slice are not nil. -/
def FileStoreState.unmarshal (t : Tree) : Option FileStoreState := do
  let object ← structMembers ["schema_version", "codes", "trusts", "audit"] t
  let version ← object.decode "schema_version" 0 decodeInt
  let codes ← object.decode "codes" none (decodeMap StoredCode.unmarshal)
  let trusts ← object.decode "trusts" none (decodeMap StoredTrust.unmarshal)
  let audit ← object.decode "audit" none (AiSnapshot.Companion.decodeSlice AuditEvent.unmarshal)
  match codes, trusts, audit with
  | some codes, some trusts, some audit =>
    if version = 1 then some { codes := codes, trusts := trusts, audit := audit } else none
  | _, _, _ => none

/-- `readFileStore` of the contents of the file. -/
def readFileStore (contents : Json.Bytes) : Option FileStoreState := do
  let document ← StructuredProvider.strictDocument maxFileStoreBytes contents
  (FileStoreState.unmarshal document).filter validateFileStoreState

end RlcdDeck.Pairing
