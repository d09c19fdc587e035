import Mathlib.Data.List.Dedup
import Mathlib.Data.List.Sort
import RlcdDeck.StructuredProvider.Definition

/-!
# The state of the definition store

`definitionStoreState` and the mutations that `updateWithCommit` is given.  A Go map that is used
as a set is a list here, and `sortedReferences` is the list that is written from it.
-/

namespace RlcdDeck.StructuredProvider

open Json (Bytes bytes)
open ConfigModel (Network WebSettings ApplicationSettings SerialPreset DeviceProfile
  validateWebSettings validateSerialPresets validateDeviceProfile)
open SecretStore (Reference validReference)

def definitionStoreSchemaVersion : ℕ := 3
def maximumStoredDefinitions : ℕ := 6
def maximumPendingCleanup : ℕ := 512

/-- `definitionStoreState`. -/
structure State where
  schemaVersion : ℕ
  definitions : List Definition
  webSettings : WebSettings
  applicationSettings : ApplicationSettings
  applyApplicationSettingsOnStart : Bool
  deviceProfiles : List DeviceProfile
  pendingSecretDeletes : List Reference

/-- `RestorableConfiguration`. -/
structure Configuration where
  definitions : List Definition
  webSettings : WebSettings
  applicationSettings : ApplicationSettings
  deviceProfiles : List DeviceProfile

/-- `emptyDefinitionStoreState`. -/
def emptyState : State where
  schemaVersion := definitionStoreSchemaVersion
  definitions := []
  webSettings := ⟨ConfigModel.defaultManagementAddress, false, []⟩
  applicationSettings := ⟨true, none⟩
  applyApplicationSettingsOnStart := false
  deviceProfiles := []
  pendingSecretDeletes := []

/-- `cloneDefinitionStoreState`. -/
def State.clone (source : State) : State :=
  { source with
    schemaVersion := definitionStoreSchemaVersion
    definitions := source.definitions.map cloneDefinition }

/-! ### References -/

/-- `definitionReferences`. -/
def definitionReferences (definitions : List Definition) : List Reference :=
  definitions.flatMap fun definition =>
    (definition.headers.map (·.secretReference)).filter fun reference => !reference.isEmpty

/-- The references of the definitions of a state. -/
abbrev State.owned (state : State) : List Reference := definitionReferences state.definitions

/-- `sortedReferences`. -/
def sortedReferences (set : List Reference) : List Reference :=
  set.dedup.insertionSort (· ≤ ·)

/-- `delete` of every one of `references`. -/
def without (set references : List Reference) : List Reference :=
  set.filter fun reference => !references.contains reference

/-- Two sets are the same. -/
def sameSet (a b : List Reference) : Bool := a.all b.contains && b.all a.contains

/-- `retiredReferences`, in the order of the headers; there is no replacement for a definition that
is deleted. -/
def retiredReferences (current replacement : Option Definition) : List Reference :=
  (without (definitionReferences current.toList)
    (definitionReferences replacement.toList)).reverse.dedup.reverse

/-! ### Validation -/

/-- The references of a definition, added to the `active` ones. -/
def claimReferences : (active : List Reference) → List Reference → Option (List Reference)
  | active, [] => some active
  | active, reference :: references =>
    if active.contains reference then none else claimReferences (reference :: active) references

/-- The loop over the definitions, after their `ids` and `active` references. -/
def validateDefinitions (network : Network) :
    (ids : List Bytes) → (active : List Reference) → List Definition → Option (List Reference)
  | _, active, [] => some active
  | ids, active, definition :: definitions =>
    match normalizeConfig network definition with
    | .error _ => none
    | .ok normalized =>
      if normalized.definition ≠ definition || ids.contains definition.id then none
      else
        (claimReferences active (definitionReferences [definition])).bind fun active =>
          validateDefinitions network (definition.id :: ids) active definitions

/-- The loop over the profiles. -/
def validateProfiles : (deviceIds : List Bytes) → List DeviceProfile → Bool
  | _, [] => true
  | deviceIds, profile :: profiles =>
    validateDeviceProfile profile && !deviceIds.contains profile.deviceId &&
      validateProfiles (profile.deviceId :: deviceIds) profiles

/-- The loop over the journal. -/
def validatePending (active : List Reference) : (pending : List Reference) → List Reference → Bool
  | _, [] => true
  | pending, reference :: references =>
    validReference reference && !active.contains reference && !pending.contains reference &&
      validatePending active (reference :: pending) references

/-- `validateDefinitionStoreState`. -/
def validateState (network : Network) (state : State) : Bool :=
  state.schemaVersion == definitionStoreSchemaVersion &&
    state.definitions.length ≤ maximumStoredDefinitions &&
    state.deviceProfiles.length ≤ ConfigModel.maximumDeviceProfiles &&
    state.pendingSecretDeletes.length ≤ maximumPendingCleanup &&
    validateWebSettings network state.webSettings &&
    validateSerialPresets state.applicationSettings.serialPresets &&
    (validateDefinitions network [] [] state.definitions).any fun active =>
      validateProfiles [] state.deviceProfiles &&
        validatePending active [] state.pendingSecretDeletes

/-! ### Mutations -/

/-- What the function given to `updateWithCommit` makes of the state, and the references that it
reports as retired. -/
structure Mutation where
  retired : List Reference
  next : Except Failure State

/-- A mutation that reports nothing. -/
def Mutation.plain (next : Except Failure State) : Mutation := ⟨[], next⟩

/-- The loop of `StageCleanup`. -/
def stageLoop (active : List Reference) :
    (pending : List Reference) → List Reference → Except Failure (List Reference)
  | pending, [] => .ok pending
  | pending, reference :: references =>
    if !validReference reference then .error .invalidConfig
    else if active.contains reference then .error (.vault .duplicate)
    else stageLoop active (reference :: pending) references

/-- `StageCleanup`. -/
def stageCleanup (references : List Reference) (next : State) : Mutation :=
  .plain <| (stageLoop next.owned next.pendingSecretDeletes references).map fun pending =>
    { next with pendingSecretDeletes := sortedReferences pending }

/-- `CompleteCleanup`. -/
def completeCleanup (references : List Reference) (next : State) : Mutation :=
  .plain <| .ok { next with
    pendingSecretDeletes := sortedReferences (without next.pendingSecretDeletes references) }

/-- The definition at which `Publish` replaces `current`; the number of definitions without
one. -/
def publishIndex (current : Option Definition) (replacement : Definition)
    (definitions : List Definition) : Except Failure ℕ :=
  match current with
  | some current =>
    match definitions.findIdx? (·.id == current.id) with
    | none => .error .definitionCommit
    | some index =>
      if definitions[index]? = some current then .ok index else .error .definitionCommit
  | none =>
    if definitions.any (·.id == replacement.id) || maximumStoredDefinitions ≤ definitions.length then
      .error .definitionCommit
    else .ok definitions.length

/-- The journal without the `activated` references, each of which has to be in it. -/
def activate : (pending : List Reference) → (activated : List Reference) → Option (List Reference)
  | pending, [] => some pending
  | pending, reference :: activated =>
    if pending.contains reference then activate (without pending [reference]) activated else none

/-- `Publish`. -/
def publish (network : Network) (current : Option Definition) (replacement : Definition)
    (activated : List Reference) (next : State) : Mutation :=
  .plain do
    match normalizeConfig network replacement with
    | .error _ => .error .invalidConfig
    | .ok normalized => ensure (normalized.definition == replacement) .invalidConfig
    let index ← publishIndex current replacement next.definitions
    ensure (((next.definitions.eraseIdx index).all fun definition =>
      definition.id != replacement.id)) .definitionCommit
    let added := without (definitionReferences [replacement]) (definitionReferences current.toList)
    ensure (decide activated.Nodup && sameSet added activated) .definitionCommit
    match activate next.pendingSecretDeletes activated with
    | none => .error .definitionCommit
    | some pending =>
      return { next with
        definitions :=
          if current.isNone then next.definitions ++ [cloneDefinition replacement]
          else next.definitions.set index (cloneDefinition replacement)
        pendingSecretDeletes :=
          sortedReferences (pending ++ retiredReferences current (some replacement)) }

/-- `configurationFromState`. -/
def State.configuration (state : State) : Configuration where
  definitions := state.definitions.map cloneDefinition
  webSettings := state.webSettings
  applicationSettings := state.applicationSettings
  deviceProfiles := state.deviceProfiles

/-- `cloneRestorableConfiguration`. -/
def Configuration.clone (source : Configuration) : Configuration :=
  { source with definitions := source.definitions.map cloneDefinition }

end RlcdDeck.StructuredProvider
