import RlcdDeck.TransactionStore.Store

/-!
# The Wi-Fi configuration

The model of `deck_wifi_config.cpp`: the active and the candidate credentials in a transaction store,
and the validation of the candidate.  The two functions of the validation adapter belong to the setup
service, so what `begin` has answered is an argument here, and `submit` is cut in two before it.

A text is its bytes before the first NUL, as many as the array has when there is none.
-/

namespace RlcdDeck.WifiSetup

open TransactionStore (Storage Store)

/-- `DECK_WIFI_SSID_CAPACITY`. -/
def ssidCapacity : ℕ := 33

/-- `DECK_WIFI_PASSWORD_CAPACITY`. -/
def passwordCapacity : ℕ := 64

structure Credentials where
  ssid : List UInt8
  password : List UInt8
  deriving DecidableEq

/-- The text of an array. -/
def cString (bytes : List UInt8) : List UInt8 := bytes.takeWhile (· ≠ 0)

/-- A byte that is no control character. -/
def printable (byte : UInt8) : Bool := !(byte < 0x20 || byte == 0x7f)

/-- `valid_text`, with the size. -/
def validText (value : List UInt8) (capacity minimum maximum : ℕ) : Option ℕ :=
  let length := min value.length capacity
  if length = capacity ∨ length < minimum ∨ maximum < length then none
  else if value.all printable then some length else none

/-- `valid_credentials`, with the sizes. -/
def validCredentials (credentials : Credentials) : Option (ℕ × ℕ) :=
  match validText credentials.ssid ssidCapacity 1 (ssidCapacity - 1) with
  | none => none
  | some ssidSize =>
    let length := min credentials.password.length passwordCapacity
    if length = passwordCapacity ∨
        (length ≠ 0 ∧ (length < 8 ∨ passwordCapacity - 1 < length)) then none
    else if credentials.password.all printable then some (ssidSize, length) else none

/-- `encode_credentials`. -/
def encodeCredentials (credentials : Credentials) : Option (List UInt8) :=
  (validCredentials credentials).map fun sizes =>
    UInt8.ofNat sizes.1 :: UInt8.ofNat sizes.2 :: (credentials.ssid ++ credentials.password)

/-- `decode_credentials`. -/
def decodeCredentials : List UInt8 → Option Credentials
  | first :: second :: text =>
    let ssidSize := first.toNat
    let passwordSize := second.toNat
    if ssidSize = 0 ∨ ssidCapacity ≤ ssidSize ∨ passwordCapacity ≤ passwordSize ∨
        (passwordSize ≠ 0 ∧ passwordSize < 8) ∨ ssidSize + passwordSize ≠ text.length then none
    else
      let credentials : Credentials :=
        ⟨cString (text.take ssidSize), cString (text.drop ssidSize)⟩
      if validCredentials credentials = some (ssidSize, passwordSize) then some credentials else none
  | _ => none

/-- The options of the store. -/
def storeOptions : TransactionStore.Options where
  recordMagic := [68, 87, 70, 49]
  markerMagic := [68, 87, 77, 49]
  schemaVersion := 1
  payloadCapacity := TransactionStore.defaultPayloadCapacity
  payloadLengthExcludedPrefix := 2
  validatePayload := fun payload => (decodeCredentials payload).isSome
  recordMagic_length := rfl
  markerMagic_length := rfl
  schemaVersion_ne := fun h => absurd h (by decide)
  payloadCapacity_le := by decide
  prefix_le := by decide

/-- `deck_wifi_config_state_t`. -/
inductive ConfigState where
  | noActive
  | active
  | validating
  | authFailed
  | timedOut
  | connectionFailed
  | storageError
  deriving DecidableEq

/-- `deck_wifi_submit_result_t`. -/
inductive SubmitResult where
  | accepted
  | invalidSsid
  | invalidPassword
  | busy
  | storageError
  | wifiError

/-- `deck_wifi_validation_result_t`. -/
inductive ValidationResult where
  | connected
  | authFailed
  | connectionFailed
  deriving DecidableEq

/-- `deck_wifi_config_t`. -/
structure Config where
  validationTimeoutMs : UInt64
  store : Store := {}
  state : ConfigState := .noActive
  recordStatus : TransactionStore.RecordStatus := .empty
  candidateRecordStatus : TransactionStore.RecordStatus := .empty
  active : Option Credentials := none
  candidate : Option Credentials := none
  generation : UInt32 := 0
  validationStartedMs : UInt64 := 0
  storageFaulted : Bool := false

namespace Config

/-- The credentials of a record, and a status that says when they cannot be decoded. -/
def load (record : Option TransactionStore.TransactionRecord)
    (status : TransactionStore.RecordStatus) :
    Option Credentials × TransactionStore.RecordStatus :=
  match record with
  | none => (none, status)
  | some record =>
    match decodeCredentials record.payload with
    | none => (none, .corrupt)
    | some credentials => (some credentials, status)

/-- `refresh_store_state`, after the store has changed. -/
def refresh (config : Config) (store : Store) : Config :=
  let active := load store.active store.recordStatus
  let candidate := load store.candidate store.candidateRecordStatus
  { config with
    store
    active := active.1
    recordStatus := active.2
    candidate := candidate.1
    candidateRecordStatus := candidate.2
    generation := (store.active.map fun record => record.generation).getD 0
    storageFaulted := store.storageFaulted }

/-- `set_storage_failure`, after the store has changed. -/
def storageFailure (config : Config) (store : Store) : Config :=
  { config.refresh store with storageFaulted := true, state := .storageError }

/-- `deck_wifi_config_create` over a store that was created. -/
def create (validationTimeoutMs : UInt64) (store : Store) : Config :=
  let config : Config := { validationTimeoutMs }
  let config := config.refresh store
  if config.storageFaulted then { config with state := .storageError }
  else if config.active.isSome then { config with state := .active }
  else config

/-- `deck_wifi_config_submit` before the store is asked. -/
def check (config : Config) (credentials : Credentials) : Except SubmitResult (List UInt8) :=
  if config.storageFaulted then .error .storageError
  else if config.state = .validating then .error .busy
  else if (validText credentials.ssid ssidCapacity 1 (ssidCapacity - 1)).isNone then
    .error .invalidSsid
  else
    match encodeCredentials credentials with
    | none => .error .invalidPassword
    | some payload => .ok payload

/-- `deck_wifi_config_submit` until the validation begins. -/
def stage (config : Config) (payload : List UInt8) : Storage (Bool × Config) := do
  let (staged, store) ← config.store.stage storeOptions payload
  if staged = .updated then return (true, config.refresh store)
  else return (false, config.storageFailure store)

/-- `deck_wifi_config_submit` after the validation has begun, or not. -/
def begun (config : Config) (started : Bool) (nowMs : UInt64) : SubmitResult × Config :=
  if started then
    (.accepted, { config with validationStartedMs := nowMs, state := .validating })
  else (.wifiError, { config with state := .connectionFailed })

/-- `commit_candidate`. -/
def commitCandidate (config : Config) : Storage (Bool × Config) := do
  let (committed, store) ← config.store.commit storeOptions
  if committed = .updated then return (true, { config.refresh store with state := .active })
  else return (false, config.storageFailure store)

/-- `deck_wifi_config_validation_result`, whether there was a transition. -/
def validationResult (config : Config) (result : ValidationResult) : Storage (Bool × Config) :=
  if config.state ≠ .validating then return (false, config)
  else
    match result with
    | .connected => config.commitCandidate
    | .authFailed => return (true, { config with state := .authFailed })
    | .connectionFailed => return (true, { config with state := .connectionFailed })

/-- `deck_wifi_config_tick`, whether the validation has timed out and is cancelled. -/
def tick (config : Config) (nowMs : UInt64) : Bool × Config :=
  if config.state ≠ .validating ∨ nowMs - config.validationStartedMs < config.validationTimeoutMs then
    (false, config)
  else (true, { config with state := .timedOut })

/-- `deck_wifi_config_active_connection`, whether the state is that of the connection now. -/
def activeConnection (config : Config) (connected : Bool) : Bool × Config :=
  if config.active.isNone ∨ config.state = .validating ∨ config.storageFaulted = true then
    (false, config)
  else (true, { config with state := if connected then .active else .connectionFailed })

/-- `deck_wifi_config_clear` after the cancellation of a validation. -/
def clear (config : Config) : Storage (Bool × Config) := do
  let (cleared, store) ← config.store.clear
  if cleared then
    return (true, { config.refresh store with state := .noActive, validationStartedMs := 0 })
  else return (false, config.storageFailure store)

/-- `deck_wifi_config_recovery_required` of the configuration as it is. -/
def recoveryRequired (config : Config) : Bool :=
  config.active.isNone || config.state ≠ .active || config.recordStatus ≠ .valid ||
    config.candidate.isSome || config.candidateRecordStatus ≠ .empty

end Config

end RlcdDeck.WifiSetup
