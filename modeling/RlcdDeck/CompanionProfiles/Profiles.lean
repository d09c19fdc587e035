import RlcdDeck.CompanionProfiles.PairingAddress
import RlcdDeck.TransactionStore.Store

/-!
# The operations on the Companion profiles

The rest of `deck_companion_profiles.cpp`.  Every operation loads the set from the transaction
store, changes it in memory and commits it; what is exposed is what the transaction store has
active.  The lock makes each operation atomic.  `redeemed` is what the pairing adapter answers, if
it is asked.
-/

namespace RlcdDeck.CompanionProfiles

open Effects
open TransactionStore (Storage Store Options allocate maxPayloadCapacity)

/-- `deck_companion_pair_request_t`. -/
structure PairRequest where
  hubAddress : CString
  pairingAddress : CString
  code : CString

/-- `deck_companion_pairing_credential_t`. -/
structure Credential where
  token : CString
  certificateFingerprint : CString
  certificateDer : List UInt8
  protocolVersion : UInt8

/-- `deck_companion_pair_result_t`. -/
inductive PairResult where
  | paired
  | invalidAddress
  | invalidCode
  | redeemFailed
  | invalidCredential
  | capacityReached
  | storageFailure
  deriving DecidableEq

/-- `deck_companion_profile_update_result_t`. -/
inductive UpdateResult where
  | updated
  | notFound
  | invalidArgument
  | staleGeneration
  | storageFailure
  deriving DecidableEq

/-- `kProtocolVersion`. -/
def protocolVersion : UInt8 := 1

/-- `DECK_COMPANION_PAIRING_CODE_CAPACITY`. -/
def pairingCodeCapacity : ℕ := 7

/-! ### Arguments -/

/-- `valid_code`. -/
def validCode (code : CString) : Bool :=
  terminated code pairingCodeCapacity && code.length == pairingCodeCapacity - 1 &&
    code.all isDigit

/-- `valid_profile_id_argument`. -/
def validProfileIdArgument (profileId : CString) : Bool :=
  terminated profileId fingerprintCapacity && validFingerprint profileId

/-- `credential_valid`. -/
def Credential.valid (credential : Credential) : Bool :=
  terminated credential.token tokenCapacity &&
    terminated credential.certificateFingerprint fingerprintCapacity &&
    validBase64url credential.token 43 && validFingerprint credential.certificateFingerprint &&
    credential.certificateDer.length != 0 &&
    decide (credential.certificateDer.length ≤ certificateDerCapacity) &&
    credential.protocolVersion == CompanionProfiles.protocolVersion

/-! ### The store -/

/-- The options of `deck_companion_profiles_create`. -/
def options : Options where
  recordMagic := "DCP2".toList.map ascii
  markerMagic := "DCM2".toList.map ascii
  schemaVersion := 2
  payloadCapacity := maxPayloadCapacity
  payloadLengthExcludedPrefix := 0
  validatePayload payload := (decodeSet payload).isSome
  recordMagic_length := rfl
  markerMagic_length := rfl
  schemaVersion_ne := by decide
  payloadCapacity_le := Nat.le_refl _
  prefix_le := Nat.zero_le _

/-- The set that the store has active. -/
def exposed (s : Store) : Option StoredSet :=
  match s.active with
  | none => some ⟨[], noActiveProfile⟩
  | some active => decodeSet active.payload

/-- `load_set`, with the allocation of the set. -/
def loadSet (s : Store) : Storage (Option StoredSet) := do
  if !(← allocate) then return none
  return exposed s

/-- `commit_set`. -/
def commitSet (s : Store) (set : StoredSet) : Storage (Bool × Store) := do
  if !(← allocate) then return (false, s)
  match encodeSet set maxPayloadCapacity with
  | none => return (false, s)
  | some payload =>
    let (staged, s) ← s.stage options payload
    if staged ≠ .updated then return (false, s)
    let (committed, s) ← s.commit options
    return (decide (committed = .updated), s)

/-! ### Pairing -/

namespace StoredSet

/-- `find_profile`. -/
def find (set : StoredSet) (profileId : CString) : Option ℕ :=
  set.profiles.findIdx? fun profile => profile.profileId == profileId

/-- The profile at an index; behind the last one the array is zero. -/
def get (set : StoredSet) (index : ℕ) : StoredProfile := set.profiles.getD index {}

/-- The identifier of the active profile, if there is one. -/
def activeId (set : StoredSet) : Option CString :=
  set.profiles[set.activeIndex.toNat]?.map StoredProfile.profileId

/-- The paired profile; what it replaces lends it its priority and its last success. -/
def pairedProfile (previous : StoredProfile) (request : PairRequest) (credential : Credential) :
    StoredProfile :=
  { profileVersion := CompanionProfiles.profileVersion
    profileId := credential.certificateFingerprint
    displayName := request.hubAddress
    hubAddress := request.hubAddress
    token := credential.token
    certificateFingerprint := credential.certificateFingerprint
    certificateDer := credential.certificateDer
    priority := previous.priority
    lastSuccessUnixMs := previous.lastSuccessUnixMs }

/-- The set after a pairing; `none` when there is no room. -/
def pair (set : StoredSet) (request : PairRequest) (credential : Credential) : Option StoredSet :=
  match set.find credential.certificateFingerprint with
  | some found =>
    some
      ⟨set.profiles.set found (pairedProfile (set.get found) request credential),
        UInt8.ofNat found⟩
  | none =>
    if maxProfiles ≤ set.profiles.length then none
    else
      some
        ⟨set.profiles ++ [pairedProfile (set.get set.profiles.length) request credential],
          UInt8.ofNat set.profiles.length⟩

/-- The set without one profile. -/
def remove (set : StoredSet) (removed : ℕ) : StoredSet :=
  let profiles := set.profiles.eraseIdx removed
  { profiles := profiles
    activeIndex :=
      if profiles.length = 0 then noActiveProfile
      else if set.activeIndex = UInt8.ofNat removed then 0
      else if UInt8.ofNat removed < set.activeIndex then set.activeIndex - 1
      else set.activeIndex }

/-- The set with one profile changed. -/
def modify (set : StoredSet) (index : ℕ) (change : StoredProfile → StoredProfile) : StoredSet :=
  { set with profiles := set.profiles.set index (change (set.get index)) }

end StoredSet

/-- The time of the last success only moves forward. -/
def StoredProfile.succeeded (unixMs : UInt64) (profile : StoredProfile) : StoredProfile :=
  if profile.lastSuccessUnixMs < unixMs then { profile with lastSuccessUnixMs := unixMs }
  else profile

/-- `copy_string` of the fields of a paired profile. -/
def copied (request : PairRequest) (credential : Credential) : Bool :=
  terminated credential.certificateFingerprint fingerprintCapacity &&
    terminated request.hubAddress addressCapacity && terminated credential.token tokenCapacity

/-- `deck_companion_profiles_pair`. -/
def pair (s : Store) (request : PairRequest) (redeemed : Option Credential) :
    Storage (PairResult × Store) := do
  if !terminated request.hubAddress addressCapacity ||
      !terminated request.pairingAddress addressCapacity then
    return (.invalidAddress, s)
  match addressPort request.hubAddress with
  | none => return (.invalidAddress, s)
  | some hubPort =>
    if !validPairingAddress request.pairingAddress (UInt16.ofNat hubPort) then return (.invalidAddress, s)
    if !validCode request.code then return (.invalidCode, s)
    match ← loadSet s with
    | none => return (.storageFailure, s)
    | some set =>
      if s.storageFaulted then return (.storageFailure, s)
      if !(← allocate) then return (.storageFailure, s)
      match redeemed with
      | none => return (.redeemFailed, s)
      | some credential =>
        if !credential.valid then return (.invalidCredential, s)
        match set.pair request credential with
        | none => return (.capacityReached, s)
        | some set =>
          if !copied request credential then return (.storageFailure, s)
          let (committed, s) ← commitSet s set
          return (if committed then .paired else .storageFailure, s)

/-! ### Updates -/

/-- What the updates have in common: the argument is checked, the set loaded, the profile found,
the set changed and committed. -/
def update (s : Store) (profileId : CString) (change : StoredSet → ℕ → StoredSet) :
    Storage (UpdateResult × Store) := do
  if !validProfileIdArgument profileId then return (.invalidArgument, s)
  match ← loadSet s with
  | none => return (.storageFailure, s)
  | some set =>
    match set.find profileId with
    | none => return (.notFound, s)
    | some found =>
      let (committed, s) ← commitSet s (change set found)
      return (if committed then .updated else .storageFailure, s)

/-- `deck_companion_profiles_select_active`. -/
def selectActive (s : Store) (profileId : CString) : Storage (UpdateResult × Store) :=
  update s profileId fun set found => { set with activeIndex := UInt8.ofNat found }

/-- `deck_companion_profiles_revoke`. -/
def revoke (s : Store) (profileId : CString) : Storage (UpdateResult × Store) :=
  update s profileId fun set found => set.remove found

/-- `deck_companion_profiles_set_priority`. -/
def setPriority (s : Store) (profileId : CString) (priority : Int32) :
    Storage (UpdateResult × Store) :=
  update s profileId fun set found =>
    set.modify found fun profile => { profile with priority := priority }

/-- `deck_companion_profiles_record_success`. -/
def recordSuccess (s : Store) (profileId : CString) (unixMs : UInt64) :
    Storage (UpdateResult × Store) :=
  if unixMs = 0 then pure (.invalidArgument, s)
  else update s profileId fun set found => set.modify found (.succeeded unixMs)

/-- The active record is of this generation. -/
def atGeneration (s : Store) (expectedGeneration : UInt32) : Bool :=
  match s.active with
  | none => false
  | some active => active.generation == expectedGeneration

/-- `deck_companion_profiles_activate_on_success`. -/
def activateOnSuccess (s : Store) (profileId : CString) (expectedGeneration : UInt32)
    (unixMs : UInt64) : Storage (UpdateResult × Store) := do
  if !validProfileIdArgument profileId || unixMs == 0 then return (.invalidArgument, s)
  match ← loadSet s with
  | none => return (.storageFailure, s)
  | some set =>
    if !atGeneration s expectedGeneration then return (.staleGeneration, s)
    match set.find profileId with
    | none => return (.notFound, s)
    | some found =>
      let (committed, s) ← commitSet s
        ({ set with activeIndex := UInt8.ofNat found }.modify found (.succeeded unixMs))
      return (if committed then .updated else .storageFailure, s)

/-! ### Runs -/

inductive Operation where
  | pair (request : PairRequest) (redeemed : Option Credential)
  | selectActive (profileId : CString)
  | revoke (profileId : CString)
  | setPriority (profileId : CString) (priority : Int32)
  | recordSuccess (profileId : CString) (unixMs : UInt64)
  | activateOnSuccess (profileId : CString) (expectedGeneration : UInt32) (unixMs : UInt64)

/-- What an operation answers. -/
inductive Outcome where
  | pair (result : PairResult)
  | update (result : UpdateResult)

/-- `PAIRED` or `UPDATED`. -/
def Outcome.succeeded : Outcome → Bool
  | .pair result => result == .paired
  | .update result => result == .updated

def updateOutcome (p : Storage (UpdateResult × Store)) : Storage (Outcome × Store) := do
  let (result, s) ← p
  return (.update result, s)

def perform (s : Store) : Operation → Storage (Outcome × Store)
  | .pair request redeemed => do
    let (result, s) ← pair s request redeemed
    return (.pair result, s)
  | .selectActive profileId => updateOutcome (selectActive s profileId)
  | .revoke profileId => updateOutcome (revoke s profileId)
  | .setPriority profileId priority => updateOutcome (setPriority s profileId priority)
  | .recordSuccess profileId unixMs => updateOutcome (recordSuccess s profileId unixMs)
  | .activateOnSuccess profileId expectedGeneration unixMs =>
    updateOutcome (activateOnSuccess s profileId expectedGeneration unixMs)

/-- A run of operations over a storage that answers as `step` allows, with their outcomes. -/
inductive Run {σ : Type} (step : σ → (op : TransactionStore.Call) → op.Answer → σ → Prop) :
    Store → σ → List (Operation × Outcome) → Store → σ → Prop where
  | nil {s : Store} {world : σ} : Run step s world [] s world
  | cons {s t u : Store} {world world' world'' : σ} {operation : Operation} {outcome : Outcome}
      {rest : List (Operation × Outcome)} :
      Program.Exec step (perform s operation) world (some (outcome, t)) world' →
      Run step t world' rest u world'' →
      Run step s world ((operation, outcome) :: rest) u world''

/-- The operations of a run that committed a set. -/
def commits (run : List (Operation × Outcome)) : ℕ := run.countP fun entry => entry.2.succeeded

end RlcdDeck.CompanionProfiles
