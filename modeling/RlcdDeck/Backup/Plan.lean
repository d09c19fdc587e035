import RlcdDeck.Collections.Indexed
import RlcdDeck.StructuredProvider.CurlImport
import RlcdDeck.StructuredProvider.State

/-!
# The plan of an import

`backup`: the document of an archive and the check that it passes (`archive.go`), what an import
would conflict with, and the configuration that it makes of the current one, the document and the
decisions (`service.go`).
-/

namespace RlcdDeck.Backup

open AiSnapshot.Companion (SchemaVersion canonicalUtc sliceTree unmarshal)
open Collections (Indexed byKey)
open ConfigModel (Network WebSettings ApplicationSettings DeviceProfile validateWebSettings
  validateSerialPresets maximumDeviceProfiles)
open Json (Bytes Tree bytes)
open Json.Tree (member memberUnless ofString ofNat ofInt)
open SecretStore (maximumSecretBytes)
open StructuredProvider (Configuration Definition Header Mapping Request cloneDefinition
  normalizeConfig normalizeDraftHeaders draftReference validateProfiles)

/-! ### Documents -/

structure ProviderSecret where
  headerIndex : ℤ
  value : Bytes

structure Provider where
  definition : Definition
  secrets : List ProviderSecret

/-- The zero value, which a map gives for a provider that it does not have. -/
def Provider.zero : Provider where
  definition := ⟨[], [], false, ⟨[], [], none, []⟩, ⟨[], [], [], [], [], [], 0, [], []⟩, 0, 0, 0⟩
  secrets := []

structure Document where
  type : Bytes
  schemaVersion : SchemaVersion
  exportedAt : Bytes
  providers : Option (List Provider)
  providerOrder : Option (List Bytes)
  webSettings : WebSettings
  applicationSettings : ApplicationSettings
  deviceProfiles : Option (List DeviceProfile)

namespace Document

/-- The providers, none of them when the slice is nil. -/
def providerList (document : Document) : List Provider := document.providers.getD []

def order (document : Document) : List Bytes := document.providerOrder.getD []

def profiles (document : Document) : List DeviceProfile := document.deviceProfiles.getD []

end Document

def archiveType : Bytes := bytes "s3-rlcd-deck.backup"
def schemaMajor : ℕ := 1
def schemaMinor : ℕ := 1
def maximumProviders : ℕ := 6

/-! ### Validation -/

def headerTree (header : Header) : Tree :=
  .object (member "name" (ofString header.name) ::
    memberUnless header.secretReference.isEmpty "secret_reference"
      (ofString header.secretReference) ++
    memberUnless header.prefixText.isEmpty "prefix" (ofString header.prefixText))

/-- A request; its body is JSON already, and is written without white space. -/
def requestTree (request : Request) : Option Tree := do
  let body ← if request.body.isEmpty then some [] else
    (unmarshal request.body).map fun body => [member "body" (body.mapStrings Json.escapeHtml)]
  return .object ([member "method" (ofString request.method), member "url" (ofString request.url),
    member "headers" (sliceTree headerTree request.headers)] ++ body)

def mappingTree (mapping : Mapping) : Tree :=
  .object (
    memberUnless mapping.balancePath.isEmpty "balance_path" (ofString mapping.balancePath) ++
    memberUnless mapping.usedPath.isEmpty "used_path" (ofString mapping.usedPath) ++
    memberUnless mapping.totalPath.isEmpty "total_path" (ofString mapping.totalPath) ++
    memberUnless mapping.resetPath.isEmpty "reset_path" (ofString mapping.resetPath) ++
    memberUnless mapping.currencyPath.isEmpty "currency_path" (ofString mapping.currencyPath) ++
    memberUnless mapping.fixedCurrency.isEmpty "fixed_currency" (ofString mapping.fixedCurrency) ++
    memberUnless (mapping.balanceDivisor == 0) "balance_divisor"
      (ofNat mapping.balanceDivisor.toNat) ++
    memberUnless mapping.windowName.isEmpty "window_name" (ofString mapping.windowName) ++
    memberUnless mapping.resetFormat.isEmpty "reset_format" (ofString mapping.resetFormat))

/-- `json.Marshal` of a definition. -/
def marshalDefinition (definition : Definition) : Option Bytes := do
  let request ← requestTree definition.request
  return Tree.print (.object ([member "id" (ofString definition.id),
    member "display_name" (ofString definition.displayName),
    member "experimental" (.bool definition.experimental), member "request" request,
    member "mapping" (mappingTree definition.mapping),
    member "refresh_minutes" (ofNat definition.refreshMinutes.toNat)] ++
    memberUnless (definition.requestTimeoutSeconds == 0) "request_timeout_seconds"
      (ofNat definition.requestTimeoutSeconds.toNat) ++
    memberUnless (definition.maximumResponseBytes == 0) "maximum_response_bytes"
      (ofInt definition.maximumResponseBytes)))

/-- `definitionsEqual`. -/
def definitionsEqual (left right : Definition) : Bool :=
  match marshalDefinition left, marshalDefinition right with
  | some left, some right => left == right
  | _, _ => false

/-- The definition with one reference at every header. -/
def withReference (reference : Bytes) (definition : Definition) : Definition :=
  { definition with
    request := { definition.request with
      headers := definition.request.headers.map
        (·.map fun header => { header with secretReference := reference }) } }

/-- `NormalizeBackupDefinition`. -/
def normalizeBackupDefinition (network : Network) (definition : Definition) : Option Definition := do
  let headers ← normalizeDraftHeaders definition.headers
  let draft := { definition with request := { definition.request with headers := some headers } }
  match normalizeConfig network (withReference draftReference draft) with
  | .error _ => none
  | .ok normalized => some (withReference [] (cloneDefinition normalized.definition))

/-- The loop over the secrets of a provider. -/
def validSecrets : (index : ℤ) → List ProviderSecret → Bool
  | _, [] => true
  | index, secret :: secrets =>
    secret.headerIndex == index && !secret.value.isEmpty &&
      secret.value.length ≤ maximumSecretBytes && validSecrets (index + 1) secrets

/-- The loop over the providers; the identifiers that it has found. -/
def validProviders (network : Network) : (ids : List Bytes) → List Provider → Option (List Bytes)
  | ids, [] => some ids
  | ids, provider :: providers =>
    let definition := provider.definition
    if (normalizeBackupDefinition network definition).any (definitionsEqual · definition) &&
        provider.secrets.length == definition.headers.length && !ids.contains definition.id &&
        validSecrets 0 provider.secrets then
      validProviders network (definition.id :: ids) providers
    else none

/-- The loop over the order. -/
def validOrder (ids : List Bytes) : (ordered : List Bytes) → List Bytes → Bool
  | _, [] => true
  | ordered, id :: order =>
    ids.contains id && !ordered.contains id && validOrder ids (id :: ordered) order

/-- `validateDocument`. -/
def validateDocument (network : Network) (document : Document) : Bool :=
  document.type == archiveType && document.schemaVersion.major == schemaMajor &&
    document.schemaVersion.minor ≤ schemaMinor && document.providers.isSome &&
    document.providerOrder.isSome && document.deviceProfiles.isSome &&
    document.providerList.length ≤ maximumProviders &&
    document.profiles.length ≤ maximumDeviceProfiles &&
    (canonicalUtc document.exportedAt).isSome && validateWebSettings network document.webSettings &&
    validateSerialPresets document.applicationSettings.serialPresets &&
    !(document.schemaVersion.minor == 0 &&
      (document.applicationSettings.serialPresets.getD []).length != 0) &&
    ((validProviders network [] document.providerList).any fun ids =>
      document.order.length == ids.length && validOrder ids [] document.order) &&
    validateProfiles [] document.profiles

/-! ### Conflicts -/

inductive ImportMode where
  | merge
  | replace
  | providersOnly
  | unknown (text : Bytes)
  deriving DecidableEq

inductive ConflictDecision where
  | keepCurrent
  | useBackup
  | unknown (text : Bytes)
  deriving DecidableEq

inductive Failure where
  | invalidMode
  | conflictDecision

structure Conflict where
  key : Bytes
  kind : Bytes
  currentLabel : Bytes
  backupLabel : Bytes
  decisionRequired : Bool

structure ProviderPreview where
  id : Bytes
  displayName : Bytes
  secretCount : ℕ
  conflict : Bool

/-- `Preview`; `PreviewID` is given out later. -/
structure Preview where
  schemaVersion : SchemaVersion
  exportedAt : Bytes
  mode : ImportMode
  providers : List ProviderPreview
  deviceProfileCount : ℕ
  conflicts : List Conflict
  replaceWarning : Bool
  restartRequired : Bool
  excludedDataClasses : List Bytes

def validMode (mode : ImportMode) : Bool :=
  mode == .merge || mode == .replace || mode == .providersOnly

def providerKey (id : Bytes) : Bytes := bytes "provider:" ++ id
def orderKey : Bytes := bytes "provider_order"
def webSettingsKey : Bytes := bytes "web_settings"
def applicationSettingsKey : Bytes := bytes "application_settings"
def deviceKey (id : Bytes) : Bytes := bytes "device:" ++ id

def settingConflict (key : Bytes) (required : Bool) : Conflict where
  key := key
  kind := bytes "settings"
  currentLabel := bytes "current settings"
  backupLabel := bytes "backup settings"
  decisionRequired := required

/-- `providerArchiveByID`. -/
def providerArchiveById (providers : List Provider) : AList fun _ : Bytes => Provider :=
  byKey (fun provider => provider.definition.id) providers

/-- `providersInOrder`. -/
def providersInOrder (document : Document) : List Provider :=
  document.order.map fun id =>
    ((providerArchiveById document.providerList).lookup id).getD Provider.zero

/-- `providerOrderChoices`: the order that is kept, and the one of the backup. -/
def providerOrderChoices (current : List Definition) (backupOrder : List Bytes) :
    List Bytes × List Bytes :=
  let currentIds := current.map Definition.id
  (currentIds ++ backupOrder.filter (!currentIds.contains ·),
    backupOrder ++ currentIds.filter (!backupOrder.contains ·))

/-- `previewDocument`. -/
def previewDocument (document : Document) (current : Configuration) (mode : ImportMode) :
    Except Failure Preview :=
  if !validMode mode then .error .invalidMode
  else
    let currentProviders := byKey Definition.id current.definitions
    let required := mode != .replace
    let ordered := providersInOrder document
    let providerConflicts := ordered.filterMap fun provider =>
      (currentProviders.lookup provider.definition.id).map fun existing => {
        key := providerKey provider.definition.id
        kind := bytes "provider"
        currentLabel := existing.displayName
        backupLabel := provider.definition.displayName
        decisionRequired := required }
    let (keepOrder, backupOrder) := providerOrderChoices current.definitions document.order
    let orderConflicts := if mode != .replace && keepOrder != backupOrder then [{
        key := orderKey
        kind := bytes "provider_order"
        currentLabel := bytes "current Provider order"
        backupLabel := bytes "backup Provider order"
        decisionRequired := true }] else []
    let webConflicts := if mode != .providersOnly && current.webSettings != document.webSettings
      then [settingConflict webSettingsKey required] else []
    let applicationConflicts :=
      if mode != .providersOnly && current.applicationSettings != document.applicationSettings
      then [settingConflict applicationSettingsKey required] else []
    let currentDevices := byKey DeviceProfile.deviceId current.deviceProfiles
    let deviceConflicts := if mode == .providersOnly then [] else
      document.profiles.filterMap fun profile =>
        ((currentDevices.lookup profile.deviceId).filter (· != profile)).map fun _ => {
          key := deviceKey profile.deviceId
          kind := bytes "device_profile"
          currentLabel := profile.deviceId
          backupLabel := profile.deviceId
          decisionRequired := required }
    .ok {
      schemaVersion := document.schemaVersion
      exportedAt := document.exportedAt
      mode := mode
      providers := ordered.map fun provider => {
        id := provider.definition.id
        displayName := provider.definition.displayName
        secretCount := provider.secrets.length
        conflict := (currentProviders.lookup provider.definition.id).isSome }
      deviceProfileCount := document.profiles.length
      conflicts := providerConflicts ++ orderConflicts ++ webConflicts ++ applicationConflicts ++
        deviceConflicts
      replaceWarning := mode == .replace
      restartRequired := true
      excludedDataClasses := ["auto_discovered_credentials", "pairing_tokens", "web_sessions",
        "sqlite_history", "serial_buffers"].map bytes }

/-! ### The plan -/

abbrev Decisions := AList fun _ : Bytes => ConflictDecision

/-- `importPlan`. -/
structure Plan where
  configuration : Configuration
  backupProviders : AList fun _ : Bytes => Provider

/-- The loop over the decisions; the keys that are left of those `required`. -/
def checkDecisions : (required : List Bytes) → List (Sigma fun _ : Bytes => ConflictDecision) →
    Option (List Bytes)
  | required, [] => some required
  | required, ⟨key, decision⟩ :: decisions =>
    if !required.contains key || (decision != .keepCurrent && decision != .useBackup) then none
    else checkDecisions (required.filter (· != key)) decisions

/-- What the loop over the providers of the document changes. -/
structure Merging where
  definitions : Indexed Definition Bytes
  backupProviders : AList fun _ : Bytes => Provider

/-- One round of the loop: a definition that is new or that is to be taken from the backup. -/
def mergeProvider (decisions : Decisions) (backupById : AList fun _ : Bytes => Provider)
    (plan : Merging) (provider : Provider) : Merging :=
  let id := provider.definition.id
  let useBackup := decisions.lookup (providerKey id) == some .useBackup
  { definitions :=
      plan.definitions.merge Definition.id (fun _ _ => useBackup) (cloneDefinition provider.definition)
    backupProviders :=
      if (plan.definitions.index.lookup id).isNone || useBackup then
        plan.backupProviders.insert id ((backupById.lookup id).getD Provider.zero)
      else plan.backupProviders }

/-- `definitionsInOrder`. -/
def definitionsInOrder (definitions : List Definition) (order : List Bytes) : List Definition :=
  let byId := byKey Definition.id definitions
  order.filterMap fun id => (byId.lookup id).map cloneDefinition

/-- `mergeDeviceProfiles`. -/
def mergeDeviceProfiles (current fromBackup : List DeviceProfile) (decisions : Decisions) :
    List DeviceProfile :=
  let replaces := fun existing profile : DeviceProfile => existing == profile ||
    decisions.lookup (deviceKey profile.deviceId) == some .useBackup
  (fromBackup.foldl (Indexed.merge DeviceProfile.deviceId replaces)
      (Indexed.ofList DeviceProfile.deviceId current)).items.insertionSort
    fun left right => left.deviceId ≤ right.deviceId

/-- `configurationFromDocument`. -/
def configurationFromDocument (document : Document) : Configuration where
  definitions := (providersInOrder document).map fun provider => cloneDefinition provider.definition
  webSettings := document.webSettings
  applicationSettings := document.applicationSettings
  deviceProfiles := document.profiles

/-- The plan of `ModeReplace`. -/
def planReplace (document : Document) : Plan where
  configuration := configurationFromDocument document
  backupProviders := providerArchiveById document.providerList

/-- The plan of `ModeMerge` and of `ModeProvidersOnly`. -/
def planMerge (document : Document) (current : Configuration) (mode : ImportMode)
    (decisions : Decisions) : Plan :=
  let clone := current.clone
  let merged := (providersInOrder document).foldl
    (mergeProvider decisions (providerArchiveById document.providerList))
    ⟨Indexed.ofList Definition.id clone.definitions, ∅⟩
  let definitions := if decisions.lookup orderKey == some .useBackup then
      definitionsInOrder merged.definitions.items
        (providerOrderChoices current.definitions document.order).2
    else merged.definitions.items
  let configuration := { clone with definitions := definitions }
  { configuration := if mode == .merge then
      { configuration with
        webSettings := if current.webSettings != document.webSettings &&
            decisions.lookup webSettingsKey == some .useBackup then document.webSettings
          else clone.webSettings
        applicationSettings := if current.applicationSettings != document.applicationSettings &&
            decisions.lookup applicationSettingsKey == some .useBackup then
            document.applicationSettings
          else clone.applicationSettings
        deviceProfiles := mergeDeviceProfiles current.deviceProfiles document.profiles decisions }
      else configuration
    backupProviders := merged.backupProviders }

/-- `planImport`. -/
def planImport (document : Document) (current : Configuration) (mode : ImportMode)
    (decisions : Decisions) : Except Failure Plan :=
  match previewDocument document current mode with
  | .error failure => .error failure
  | .ok preview =>
    let required := (preview.conflicts.filter Conflict.decisionRequired).map Conflict.key
    if mode == .replace && !decisions.entries.isEmpty then .error .conflictDecision
    else if checkDecisions required decisions.entries ≠ some [] then .error .conflictDecision
    else if mode == .replace then .ok (planReplace document)
    else .ok (planMerge document current mode decisions)

end RlcdDeck.Backup
