import RlcdDeck.Effects.Interference
import RlcdDeck.OtaTransaction.Transaction

/-!
# The OTA service and its two tasks

The model of `deck_ota_transport_fence.cpp` and of the task and the interface of
`deck_ota_service.cpp`.  The OTA task is a program over its accesses to what it shares, each of which
is one step; the link task takes its own steps in between.  The word of the fence is only read by
single loads and changed by single exchanges.

The transactions are objects in memory, by their numbers; what is read from one that is no longer
there is arbitrary.  The adapters of the flash and the hash answer in any way.  Stopping the service
is left out, and so are the lengths of the waits: a wait may end at any time.

`history` is not part of the service.  It is the list of what happened, the newest first.
-/

namespace RlcdDeck.OtaFence

open Effects
open OtaTransaction (Manifest Options Result Snapshot Transaction)

/-! ### The word of `DeckOtaTransportFence`: an epoch of 30 bits over a state of two -/

/-- `DeckOtaTransportFence::State`. -/
inductive State where
  | idle
  | active
  | committing
  | aborting
  deriving DecidableEq

def State.code : State → UInt32
  | .idle => 0
  | .active => 1
  | .committing => 2
  | .aborting => 3

/-- `kStateBits`. -/
def stateBits : UInt32 := 2

/-- `kStateMask`. -/
def stateMask : UInt32 := (1 <<< stateBits) - 1

/-- `kMaximumEpoch`. -/
def maximumEpoch : UInt32 := 0xffffffff >>> stateBits

def encode (epoch : UInt32) (state : State) : UInt32 := (epoch <<< stateBits) ||| state.code

def epochOf (word : UInt32) : UInt32 := word >>> stateBits

def stateOf (word : UInt32) : State :=
  let code := word &&& stateMask
  if code = 0 then .idle
  else if code = 1 then .active
  else if code = 2 then .committing
  else .aborting

/-- The epoch that `begin_abort` stores. -/
def nextEpoch (epoch : UInt32) : UInt32 := if epoch = maximumEpoch then 1 else epoch + 1

/-- The state that `begin_abort` stores. -/
def abortedState (state : State) : State :=
  if state = .committing then .committing else .aborting

/-! ### Commands and events -/

/-- The epoch of a command, with the number of aborts before it was captured. -/
structure Stamp where
  epoch : UInt32
  aborts : ℕ
  deriving DecidableEq

/-- `Command`. -/
inductive Command where
  | offer (transactionId : List UInt8) (manifest : Manifest) (stamp : Stamp)
  | chunk (transactionId : List UInt8) (offset : UInt32) (data : List UInt8) (final : Bool)
      (stamp : Stamp)
  | abortTransport

/-- What is captured with a command; an abort captures nothing. -/
def Command.stamp : Command → Option Stamp
  | .offer _ _ stamp => some stamp
  | .chunk _ _ _ _ stamp => some stamp
  | .abortTransport => none

inductive Event where
  /-- `begin_abort` took effect. -/
  | aborted
  /-- A command passed the epoch check. -/
  | accepted (stamp : Option Stamp)
  /-- `begin_transaction` took effect, for the transaction of this number. -/
  | begun (number : ℕ) (stamp : Option Stamp)
  /-- `try_begin_commit` took effect, for the current transaction. -/
  | committing (transaction : Option ℕ)
  /-- `esp_ota_set_boot_partition` was called, for the current transaction. -/
  | selected (transaction : Option ℕ)
  /-- `end_transaction`, `finish_commit` or `finish_abort` took effect. -/
  | released
  | created (number : ℕ)
  | destroyed (number : ℕ)
  deriving DecidableEq

def Event.isBegun : Event → Bool
  | .begun _ _ => true
  | _ => false

/-- The events that open a transaction of the fence or close it. -/
def Event.isLifecycle : Event → Bool
  | .aborted => true
  | .begun _ _ => true
  | .committing _ => true
  | .released => true
  | _ => false

/-- The number of aborts. -/
def aborts (history : List Event) : ℕ := history.count .aborted

/-- The number of transactions begun. -/
def begins (history : List Event) : ℕ := history.countP Event.isBegun

/-- A transaction is in memory. -/
def Live (history : List Event) (number : ℕ) : Prop :=
  .created number ∈ history ∧ .destroyed number ∉ history

instance (history : List Event) (number : ℕ) : Decidable (Live history number) :=
  inferInstanceAs (Decidable (_ ∧ _))

/-! ### The service -/

/-- `deck_ota_service_result_t`. -/
structure ServiceResult where
  transactionId : List UInt8
  transaction : Snapshot
  rebootRequired : Bool

/-- A transaction in memory. -/
structure Object where
  number : ℕ
  value : Transaction

/-- Where the link task is. -/
inductive Link where
  | ready
  /-- `xQueueSend` of a command. -/
  | sending (command : Command)
  /-- `begin_abort`, before its load. -/
  | aborting
  /-- `begin_abort`, before an exchange of the word that was read. -/
  | exchanging (current : UInt32)
  /-- Before the store of the request. -/
  | requesting
  /-- `xQueueSendToFront`. -/
  | waking
  /-- `xEventGroupWaitBits`. -/
  | waiting

/-- `deck_ota_service`, with the `command` of its task and the place of the link task. -/
structure Service where
  options : Options
  word : UInt32 := encode 1 .idle
  abortRequested : Bool := false
  abortComplete : Bool := false
  commands : List Command := []
  results : List ServiceResult := []
  transaction : Option Object := none
  activeTransactionId : List UInt8 := []
  command : Option Command := none
  link : Link := .ready
  history : List Event := []

/-- The number of the current transaction. -/
def Service.number (s : Service) : Option ℕ := s.transaction.map (·.number)

/-- The lengths of both queues. -/
def queueCapacity : ℕ := 2

/-! ### The calls of the OTA task -/

/-- An access of the OTA task. -/
inductive Call where
  | load
  | compareExchangeStrong (expected desired : UInt32)
  | compareExchangeWeak (expected desired : UInt32)
  /-- The load of `accepts`. -/
  | accepts (commandEpoch : UInt32)
  | exchangeAbortRequested
  | loadAbortRequested
  | receive
  | now
  /-- The object at `service->transaction`. -/
  | transaction
  /-- The object after a call of its interface. -/
  | update (value : Transaction)
  | create
  /-- The memory of the object is freed. -/
  | destroy
  /-- The memory of the object is freed, and `service->transaction` cleared. -/
  | destroyAndClear
  | activeTransactionId
  | setActiveTransactionId (transactionId : List UInt8)
  | sendResult (result : ServiceResult)
  | receiveResult
  | setAbortComplete
  | adapter (call : OtaTransaction.Call)
  /-- `service->update_partition != nullptr`. -/
  | updatePartition
  | setBootPartition
  /-- A loop that goes on. -/
  | spin

/-- What a call answers; an exchange answers nothing, or the word that it found. -/
abbrev Answer : Call → Type
  | .load => UInt32
  | .compareExchangeStrong _ _ | .compareExchangeWeak _ _ => Option UInt32
  | .accepts _ | .exchangeAbortRequested | .loadAbortRequested => Bool
  | .receive => Option Command
  | .now => UInt64
  | .transaction | .create => Option Transaction
  | .activeTransactionId => List UInt8
  | .receiveResult | .updatePartition | .setBootPartition => Bool
  | .adapter call => OtaTransaction.Answer call
  | .spin => Empty
  | _ => Unit

/-- A computation of the OTA task. -/
abbrev Task := Program Call Answer

def ask (call : Call) : Task (Answer call) := Program.perform call

/-- Out of fuel. -/
def spin {α : Type} : Task α := Program.call .spin Empty.elim

/-! ### The fence -/

def beginTransaction (commandEpoch : UInt32) : Task Bool := do
  let current ← ask .load
  if epochOf current ≠ commandEpoch ∨ stateOf current ≠ .idle then
    return false
  else
    let found ← ask (.compareExchangeStrong current (encode commandEpoch .active))
    return found.isNone

def tryBeginCommit : Task Bool := do
  let current ← ask .load
  if stateOf current ≠ .active then
    return false
  else
    let found ← ask (.compareExchangeStrong current (encode (epochOf current) .committing))
    return found.isNone

/-- The loop of `finish_commit`, `finish_abort` and `end_transaction`: from a state that is `held` to
`idle`. -/
def release (held : State → Bool) : ℕ → UInt32 → Task Unit
  | 0, _ => spin
  | fuel + 1, current => do
    if held (stateOf current) then
      match ← ask (.compareExchangeWeak current (encode (epochOf current) .idle)) with
      | none => return ()
      | some found => release held fuel found
    else
      return ()

def finishCommit (fuel : ℕ) : Task Unit := do
  let current ← ask .load
  release (· == .committing) fuel current

def finishAbort (fuel : ℕ) : Task Unit := do
  let current ← ask .load
  release (· != .idle) fuel current

def endTransaction (fuel : ℕ) : Task Unit := do
  let current ← ask .load
  release (· == .active) fuel current

/-! ### The adapters -/

def flashSelectBoot (fuel : ℕ) : Task Bool := do
  if !(← tryBeginCommit) then
    return false
  else
    let partition ← ask .updatePartition
    let selected ← if partition then ask .setBootPartition else pure false
    finishCommit fuel
    return selected

/-- The adapters of a transaction. -/
def adapter (fuel : ℕ) : (call : OtaTransaction.Call) → Task (OtaTransaction.Answer call)
  | .selectBoot => flashSelectBoot fuel
  | .verifyManifest manifest => ask (.adapter (.verifyManifest manifest))
  | .hashBegin => ask (.adapter .hashBegin)
  | .hashUpdate data => ask (.adapter (.hashUpdate data))
  | .hashFinish => ask (.adapter .hashFinish)
  | .hashAbort => ask (.adapter .hashAbort)
  | .flashBegin imageSize => ask (.adapter (.flashBegin imageSize))
  | .flashWrite data => ask (.adapter (.flashWrite data))
  | .flashFinish => ask (.adapter .flashFinish)
  | .flashAbort => ask (.adapter .flashAbort)

/-- A call of the interface of a transaction. -/
def transact {α : Type} (fuel : ℕ) (call : OtaTransaction.Ota (α × Transaction)) : Task α := do
  let (result, value) ← call.interpret (adapter fuel)
  ask (.update value)
  return result

/-- What `deck_ota_transaction_destroy` does before the memory is freed. -/
def closeTransaction (fuel : ℕ) (value : Transaction) : Task Unit := do
  let _ ← (OtaTransaction.destroy value).interpret (adapter fuel)
  return ()

/-! ### The task -/

/-- The results that are left. -/
def drainResults : ℕ → Task Unit
  | 0 => spin
  | fuel + 1 => do
    if ← ask .receiveResult then drainResults fuel else return ()

def abortTransportTransaction (fuel : ℕ) : Task Unit := do
  match ← ask .transaction with
  | none => pure ()
  | some value =>
    closeTransaction fuel value
    ask .destroyAndClear
  ask (.setActiveTransactionId [])
  drainResults fuel
  finishAbort fuel
  ask .setAbortComplete

def publishResult (transactionId : List UInt8) (result : Result) : Task Unit := do
  if ← ask .loadAbortRequested then
    return ()
  else
    let transaction ← ask .transaction
    let snapshot : Snapshot := (transaction.map (·.snapshot)).getD ⟨.failed, result, 0, 0⟩
    ask (.sendResult
      { transactionId := transactionId
        transaction := { snapshot with result := result }
        rebootRequired := snapshot.state == .readyToReboot })

def publishRejection (transactionId : List UInt8) (result : Result) : Task Unit := do
  if ← ask .loadAbortRequested then
    return ()
  else
    ask (.sendResult
      { transactionId := transactionId
        transaction := ⟨.failed, result, 0, 0⟩
        rebootRequired := false })

/-- The end of a transaction that failed or that had its last chunk. -/
def closeActive (fuel : ℕ) : Task Unit := do
  endTransaction fuel
  ask (.setActiveTransactionId [])

/-- No command came. -/
def tickTransaction (fuel : ℕ) : Task Unit := do
  match ← ask .transaction with
  | none => return ()
  | some value =>
    if value.snapshot.state = .receiving then
      let nowMs ← ask .now
      let result ← transact fuel (OtaTransaction.tick value nowMs)
      if result = .timedOut then
        publishResult (← ask .activeTransactionId) result
        closeActive fuel
    else
      return ()

/-- An offer, when no transaction is left. -/
def offerNew (fuel : ℕ) (transactionId : List UInt8) (manifest : Manifest) (stamp : Stamp) :
    Task Unit := do
  if !(← beginTransaction stamp.epoch) then
    return ()
  else
    let created ← ask .create
    ask (.setActiveTransactionId transactionId)
    let result ←
      match created with
      | none => pure .flashFailure
      | some value => do
        let nowMs ← ask .now
        transact fuel (OtaTransaction.offer value manifest nowMs)
    publishResult transactionId result
    if result ≠ .ok then
      closeActive fuel

def offer (fuel : ℕ) (transactionId : List UInt8) (manifest : Manifest) (stamp : Stamp) :
    Task Unit := do
  match ← ask .transaction with
  | none => offerNew fuel transactionId manifest stamp
  | some value =>
    if value.snapshot.state = .receiving then
      publishRejection transactionId .busy
    else
      closeTransaction fuel value
      ask .destroy
      endTransaction fuel
      offerNew fuel transactionId manifest stamp

def chunk (fuel : ℕ) (transactionId : List UInt8) (offset : UInt32) (data : List UInt8)
    (final : Bool) : Task Unit := do
  match ← ask .transaction with
  | none => publishRejection transactionId .invalidManifest
  | some value =>
    if (← ask .activeTransactionId) ≠ transactionId then
      publishRejection transactionId .invalidManifest
    else
      let nowMs ← ask .now
      let result ← transact fuel (OtaTransaction.write value offset data final nowMs)
      publishResult transactionId result
      if result ≠ .ok ∨ final = true then
        closeActive fuel

/-- A command that came after the check of the request. -/
def handle (fuel : ℕ) : Command → Task Unit
  | .abortTransport => abortTransportTransaction fuel
  | .offer transactionId manifest stamp => do
    if ← ask (.accepts stamp.epoch) then
      offer fuel transactionId manifest stamp
    else
      return ()
  | .chunk transactionId offset data final stamp => do
    if ← ask (.accepts stamp.epoch) then
      chunk fuel transactionId offset data final
    else
      return ()

/-- One turn of the loop of `ota_task`. -/
def turn (fuel : ℕ) : Task Unit := do
  if ← ask .exchangeAbortRequested then
    abortTransportTransaction fuel
  match ← ask .receive with
  | none => tickTransaction fuel
  | some command =>
    if ← ask .exchangeAbortRequested then
      abortTransportTransaction fuel
    else
      handle fuel command

end RlcdDeck.OtaFence
