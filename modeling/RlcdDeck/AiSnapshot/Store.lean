import RlcdDeck.Bytes.LittleEndian

/-!
# The AI snapshot store

The model of `deck_ai_snapshot_store.cpp`: the live document, the worker that recovers the
committed one from flash and checkpoints the live one, and the clocks that decide what is shown.

The worker takes one step from one use of the store's lock to the next; the calls of the
application come in between.  The flash work it does without the lock is answered by the
environment (`Answers`): whether the storage opens, what the transaction store recovers, what the
attempt record reads, and how each write ends.  `validate` is `deck_ai_snapshot_validate`.

A document is the list of its bytes, so `document_size` is its length.  Null arguments and the
allocation in `create` are left out, as are `wait_for_idle` and the join in `destroy`.  `committed`
records for the theorems the record that was published last; no definition branches on it.
-/

namespace RlcdDeck.AiSnapshot

open Bytes

/-- `DECK_AI_SNAPSHOT_MAX_BYTES`. -/
def maxBytes : ℕ := 16 * 1024

/-- `DECK_AI_SNAPSHOT_FLASH_INTERVAL_MS`. -/
def flashIntervalMs : UInt64 := 30 * 60 * 1000

/-- `DECK_AI_SNAPSHOT_OFFLINE_LIMIT_MS`. -/
def offlineLimitMs : UInt64 := 24 * 60 * 60 * 1000

/-- `deck_ai_snapshot_metadata_t`. -/
structure Metadata where
  schemaMinor : UInt16
  generatedAtUnixMs : UInt64
  providerCount : UInt8
  sessionCount : UInt8
  nextRefreshSeconds : UInt32
  deriving DecidableEq

/-- `deck_ai_snapshot_result_t` other than `ACCEPTED`. -/
inductive Rejection where
  | malformed
  | unsupportedVersion
  | privateData
  deriving DecidableEq

/-- `deck_ai_snapshot_store_update_result_t`. -/
inductive UpdateResult where
  | acceptedMemory
  | acceptedPersisted
  | acceptedStorageFailure
  | unchanged
  | malformed
  | unsupportedVersion
  | privateData
  | invalidTime
  | timeRollback

/-- `deck_ai_snapshot_store_state_t`. -/
inductive StoreState where
  | empty
  | fresh
  | stale
  | unavailable

/-- `deck_transaction_record_status_t`. -/
inductive RecordStatus where
  | empty
  | valid
  | recoveredPrevious
  | corrupt
  | unsupportedSchema
  | migrationFailed
  | ioError

/-- `deck_transaction_record_t`. -/
structure TransactionRecord where
  payload : List UInt8
  generation : UInt32

/-- `deck_transaction_store_snapshot_t`. -/
structure TransactionSnapshot where
  recordStatus : RecordStatus
  candidateRecordStatus : RecordStatus
  active : Option TransactionRecord
  candidate : Option TransactionRecord
  storageFaulted : Bool

/-- `deck_transaction_storage_result_t`, with the bytes read. -/
inductive ReadResult where
  | ok (bytes : List UInt8)
  | notFound
  | error

/-- A document that passed `validate`, with its metadata. -/
structure Live where
  document : List UInt8
  metadata : Metadata
  deriving DecidableEq

structure RecoveredState where
  snapshot : Option Live := none
  persistedGeneratedAtMs : UInt64 := 0
  lastPersistAttemptUtcMs : UInt64 := 0
  attemptWatermarkUnknown : Bool := false
  persistedGeneration : UInt32 := 0
  recordStatus : RecordStatus := .empty
  candidateRecordStatus : RecordStatus := .empty
  storageFaulted : Bool := false

/-- The checkpoint the worker has taken from the queue. -/
structure Checkpoint where
  document : List UInt8
  generatedAtMs : UInt64
  attemptUtcMs : UInt64

/-- Where the worker stands. -/
inductive Worker where
  /-- `open_worker_storage` at the start. -/
  | opening
  | publishing (recovered : RecoveredState) (opened : Bool)
  /-- It waits for work. -/
  | waiting
  /-- `open_worker_storage` after a failure. -/
  | reopening (checkpoint : Checkpoint)
  | republishing (checkpoint : Checkpoint) (recovered : RecoveredState) (opened : Bool)
  /-- The writes of a checkpoint. -/
  | persisting (checkpoint : Checkpoint) (ok : Bool)
  | finishing (checkpoint : Checkpoint) (ok : Bool) (status : Option TransactionSnapshot)
  | closing
  | exited

structure Store where
  live : Option Live := none
  /-- `persistent != nullptr`. -/
  persistent : Bool := false
  persistedGeneratedAtMs : UInt64 := 0
  lastPersistAttemptUtcMs : UInt64 := 0
  unknownWatermarkStartedUtcMs : UInt64 := 0
  persistedGeneration : UInt32 := 0
  recordStatus : RecordStatus := .empty
  candidateRecordStatus : RecordStatus := .empty
  storageMissing : Bool := false
  storageReady : Bool := false
  storageFaulted : Bool := false
  unreportedStorageFailure : Bool := false
  persistenceNeedsReopen : Bool := false
  attemptWatermarkUnknown : Bool := false
  bootstrapComplete : Bool := false
  checkpoint : Checkpoint := ⟨[], 0, 0⟩
  latestApplyUtcMs : UInt64 := 0
  checkpointPending : Bool := false
  workerBusy : Bool := false
  stopRequested : Bool := false
  workerStarted : Bool := false
  workerExited : Bool := false
  applyUtcHighWaterMs : UInt64 := 0
  applyClockRollbackLatched : Bool := false
  copyUtcHighWaterMs : UInt64 := 0
  copyClockRollbackLatched : Bool := false
  worker : Worker := .exited
  committed : Option Live := none

/-! ### Helpers -/

def mapValidationResult : Rejection → UpdateResult
  | .unsupportedVersion => .unsupportedVersion
  | .privateData => .privateData
  | .malformed => .malformed

def elapsedAtLeast (newer older interval : UInt64) : Bool :=
  older ≤ newer && interval ≤ newer - older

/-- `ClockObservation`. -/
inductive ClockObservation where
  | valid
  | invalid
  | rollback
  deriving DecidableEq

/-- `observe_clock`: the observation, the high-water mark and the latch. -/
def observeClock (highWaterMs : UInt64) (rollbackLatched : Bool) (trustedUtcMs : UInt64) :
    ClockObservation × UInt64 × Bool :=
  if trustedUtcMs = 0 then (.invalid, highWaterMs, rollbackLatched)
  else if highWaterMs ≠ 0 ∧ trustedUtcMs < highWaterMs then (.rollback, highWaterMs, true)
  else (.valid, trustedUtcMs, false)

/-- `kAttemptMagic`, the schema version and the padding. -/
def attemptHeader : List UInt8 := [0x41, 0x49, 0x54, 0x31, 1, 0, 0, 0]

/-- The attempt record that `write_attempt_record` stores. -/
def attemptRecord (attemptUtcMs generatedAtMs : UInt64) : List UInt8 :=
  let record := attemptHeader ++ writeU64 attemptUtcMs ++ writeU64 generatedAtMs
  record ++ writeU32 (crc32 record)

/-- `decode_attempt_record`: the attempt's time and the checkpoint's. -/
def decodeAttemptRecord (record : List UInt8) : Option (UInt64 × UInt64) :=
  if record.length ≠ 28 ∨ record.take 8 ≠ attemptHeader ∨
      readU32 record 24 ≠ crc32 (record.take 24) then none
  else
    let attempt := readU64 record 8
    let generated := readU64 record 16
    if attempt = 0 ∨ generated = 0 ∨ attempt < generated then none
    else some (attempt, generated)

/-! ### Recovery -/

/-- What `open_worker_storage` meets: whether the document buffer is allocated, what the
transaction store answers and what the attempt record reads. -/
structure Opened where
  allocated : Bool
  persisted : Option TransactionSnapshot
  attempt : ReadResult

variable (validate : List UInt8 → Except Rejection Metadata)

/-- The first half of `load_attempt_record`. -/
def readAttempt (attempt : ReadResult) (persisted : TransactionSnapshot) (r : RecoveredState) :
    RecoveredState :=
  match attempt with
  | .ok record =>
    match decodeAttemptRecord record with
    | none => { r with storageFaulted := true, attemptWatermarkUnknown := true }
    | some (attemptUtcMs, _) => { r with lastPersistAttemptUtcMs := attemptUtcMs }
  | .error => { r with storageFaulted := true, attemptWatermarkUnknown := true }
  | .notFound =>
    if persisted.active.isSome ∨ persisted.candidate.isSome then
      { r with attemptWatermarkUnknown := true }
    else r

def loadAttemptRecord (attempt : ReadResult) (persisted : TransactionSnapshot)
    (r : RecoveredState) : RecoveredState :=
  let r := readAttempt attempt persisted r
  match r.attemptWatermarkUnknown, persisted.candidate with
  | false, some candidate =>
    match validate candidate.payload with
    | .ok metadata =>
      if r.lastPersistAttemptUtcMs < metadata.generatedAtUnixMs then
        { r with lastPersistAttemptUtcMs := metadata.generatedAtUnixMs }
      else r
    | .error _ => r
  | _, _ => r

def loadPersistedSnapshot (o : Opened) : RecoveredState :=
  if o.allocated = false then { storageFaulted := true }
  else
    match o.persisted with
    | none =>
      { storageFaulted := true, recordStatus := .ioError, candidateRecordStatus := .ioError }
    | some persisted =>
      let r := loadAttemptRecord validate o.attempt persisted
        { recordStatus := persisted.recordStatus
          candidateRecordStatus := persisted.candidateRecordStatus
          storageFaulted := persisted.storageFaulted }
      match persisted.active with
      | none => r
      | some active =>
        if maxBytes < active.payload.length then r
        else
          match validate active.payload with
          | .error _ => r
          | .ok metadata =>
            { r with
              snapshot := some ⟨active.payload, metadata⟩
              persistedGeneratedAtMs := metadata.generatedAtUnixMs
              persistedGeneration := active.generation }

/-- `open_worker_storage`; `none` is a storage that does not open. -/
def openWorkerStorage (opened : Option Opened) : RecoveredState × Bool :=
  match opened with
  | none => ({}, false)
  | some o => (loadPersistedSnapshot validate o, true)

namespace Store

/-! ### Checkpoints -/

def persistenceDue (s : Store) (candidateGeneratedAtMs trustedUtcMs : UInt64) : Bool :=
  if (s.storageReady = false ∧ s.persistenceNeedsReopen = false) ∨ s.bootstrapComplete = false ∨
      s.workerStarted = false ∨ s.checkpointPending = true ∨ s.workerBusy = true then false
  else if s.attemptWatermarkUnknown = true ∧ (s.unknownWatermarkStartedUtcMs = 0 ∨
      elapsedAtLeast trustedUtcMs s.unknownWatermarkStartedUtcMs flashIntervalMs = false) then false
  else if s.lastPersistAttemptUtcMs ≠ 0 ∧
      elapsedAtLeast trustedUtcMs s.lastPersistAttemptUtcMs flashIntervalMs = false then false
  else
    s.persistedGeneratedAtMs = 0 ||
      elapsedAtLeast candidateGeneratedAtMs s.persistedGeneratedAtMs flashIntervalMs

def markStorageFailure (s : Store) : Store :=
  { s with
    storageFaulted := true, unreportedStorageFailure := true, persistenceNeedsReopen := true }

/-- `queue_current_checkpoint_locked`. -/
def queueCurrentCheckpoint (s : Store) : Bool × Store :=
  match s.live with
  | none => (false, s)
  | some live =>
    if s.persistenceDue live.metadata.generatedAtUnixMs s.latestApplyUtcMs then
      (true,
        { s with
          checkpoint := ⟨live.document, live.metadata.generatedAtUnixMs, s.latestApplyUtcMs⟩
          lastPersistAttemptUtcMs := s.latestApplyUtcMs
          attemptWatermarkUnknown := false
          unknownWatermarkStartedUtcMs := 0
          checkpointPending := true })
    else (false, s)

/-- The recovered document replaces the live one: it is newer, or of the same time with other
bytes. -/
def authoritative (recovered : Live) (live : Option Live) : Bool :=
  match live with
  | none => true
  | some live =>
    live.metadata.generatedAtUnixMs < recovered.metadata.generatedAtUnixMs ||
      (recovered.metadata.generatedAtUnixMs = live.metadata.generatedAtUnixMs &&
        recovered.document ≠ live.document)

/-- `publish_recovered_locked`. -/
def publishRecovered (s : Store) (recovered : RecoveredState) (opened : Bool) : Store :=
  let s := { s with bootstrapComplete := true, storageReady := opened, storageMissing := !opened }
  if opened = false then
    { s.markStorageFailure with
      attemptWatermarkUnknown := true, unknownWatermarkStartedUtcMs := s.latestApplyUtcMs }
  else
    let s :=
      { s with
        recordStatus := recovered.recordStatus
        candidateRecordStatus := recovered.candidateRecordStatus
        persistedGeneratedAtMs := recovered.persistedGeneratedAtMs
        lastPersistAttemptUtcMs := recovered.lastPersistAttemptUtcMs
        attemptWatermarkUnknown := recovered.attemptWatermarkUnknown
        unknownWatermarkStartedUtcMs :=
          if recovered.attemptWatermarkUnknown then s.latestApplyUtcMs else 0
        persistedGeneration := recovered.persistedGeneration
        storageFaulted := recovered.storageFaulted
        persistenceNeedsReopen := recovered.storageFaulted
        unreportedStorageFailure := s.unreportedStorageFailure || recovered.storageFaulted }
    match recovered.snapshot with
    | none => s
    | some snapshot =>
      { s with
        live := if authoritative snapshot s.live then some snapshot else s.live
        committed := some snapshot }

def recoveredSupersedesCheckpoint (recovered : RecoveredState) (generatedAtMs : UInt64) : Bool :=
  match recovered.snapshot with
  | none => false
  | some snapshot => generatedAtMs ≤ snapshot.metadata.generatedAtUnixMs

def liveSupersedesCheckpoint (s : Store) (checkpoint : Checkpoint) : Bool :=
  match s.live with
  | none => false
  | some live =>
    checkpoint.generatedAtMs < live.metadata.generatedAtUnixMs ||
      (live.metadata.generatedAtUnixMs = checkpoint.generatedAtMs &&
        live.document ≠ checkpoint.document)

/-! ### The worker -/

/-- What the flash work between two uses of the lock meets. -/
structure Answers where
  opened : Option Opened
  wroteAttempt : Bool
  staged : Bool
  committed : Bool
  status : Option TransactionSnapshot

/-- The bookkeeping after a checkpoint was written, or not. -/
def finishCheckpoint (s : Store) (checkpoint : Checkpoint) (ok : Bool)
    (status : Option TransactionSnapshot) : Store :=
  let s :=
    match status with
    | none => s
    | some persisted =>
      { s with
        recordStatus := persisted.recordStatus
        candidateRecordStatus := persisted.candidateRecordStatus
        storageFaulted := s.storageFaulted || persisted.storageFaulted }
  let s :=
    match ok, status.bind fun persisted => persisted.active with
    | true, some active =>
      { s with
        persistedGeneratedAtMs := checkpoint.generatedAtMs
        lastPersistAttemptUtcMs := checkpoint.attemptUtcMs
        persistedGeneration := active.generation
        storageFaulted := false
        persistenceNeedsReopen := false
        attemptWatermarkUnknown := false
        unknownWatermarkStartedUtcMs := 0 }
    | _, _ => s.markStorageFailure
  { s with workerBusy := false, worker := .waiting }

/-- The worker takes the checkpoint from the queue, or stops. -/
def takeWork (s : Store) : Store :=
  if s.checkpointPending then
    { s with
      checkpointPending := false
      workerBusy := true
      worker :=
        if s.persistenceNeedsReopen then .reopening s.checkpoint
        else .persisting s.checkpoint true }
  else if s.stopRequested then { s with worker := .closing }
  else s

/-- One step of `persistence_worker`. -/
def workerStep (s : Store) (answers : Answers) : Store :=
  match s.worker with
  | .opening =>
    let (recovered, opened) := openWorkerStorage validate answers.opened
    { s with persistent := opened, worker := .publishing recovered opened }
  | .publishing recovered opened =>
    let s := { s.publishRecovered recovered opened with workerBusy := false }
    { s.queueCurrentCheckpoint.2 with worker := .waiting }
  | .waiting => s.takeWork
  | .reopening checkpoint =>
    let (recovered, opened) := openWorkerStorage validate answers.opened
    { s with persistent := opened, worker := .republishing checkpoint recovered opened }
  | .republishing checkpoint recovered opened =>
    let s := s.publishRecovered recovered opened
    if (opened && recoveredSupersedesCheckpoint recovered checkpoint.generatedAtMs) ||
        s.liveSupersedesCheckpoint checkpoint then
      { (queueCurrentCheckpoint { s with workerBusy := false }).2 with worker := .waiting }
    else { s with worker := .persisting checkpoint opened }
  | .persisting checkpoint ok =>
    -- `write_attempt_record`, then `stage` and `commit`
    let ok := if ok && s.persistent then answers.wroteAttempt else ok
    { s with
      worker := .finishing checkpoint (ok && answers.staged && answers.committed)
        (if s.persistent then answers.status else none) }
  | .finishing checkpoint ok status => s.finishCheckpoint checkpoint ok status
  | .closing =>
    { s with
      persistent := false
      storageReady := false
      workerBusy := false
      workerExited := true
      worker := .exited }
  | .exited => s

/-! ### The calls -/

/-- `deck_ai_snapshot_store_create`: with or without a storage, and whether the worker starts. -/
def create (configured started : Bool) : Store :=
  if configured = false then { storageMissing := true }
  else if started then { workerStarted := true, workerBusy := true, worker := .opening }
  else { storageMissing := true, storageFaulted := true }

/-- The live document after an accepted `apply`. -/
def accept (s : Store) (document : List UInt8) (candidate : Metadata) (trustedUtcMs : UInt64) :
    Store :=
  { s with
    live := some ⟨document, candidate⟩
    latestApplyUtcMs := trustedUtcMs
    unknownWatermarkStartedUtcMs :=
      if s.attemptWatermarkUnknown = true ∧ s.unknownWatermarkStartedUtcMs = 0 then trustedUtcMs
      else s.unknownWatermarkStartedUtcMs }

/-- What `apply` answers when no checkpoint was queued. -/
def unqueuedResult (s : Store) : UpdateResult :=
  if s.workerStarted = false ∨ (s.bootstrapComplete = true ∧
      (s.storageReady = false ∨ s.storageMissing = true ∨ s.storageFaulted = true)) then
    .acceptedStorageFailure
  else .acceptedMemory

/-- The clocks passed: the candidate against the live document. -/
def applyCandidate (s : Store) (document : List UInt8) (candidate : Metadata)
    (trustedUtcMs : UInt64) : UpdateResult × Store :=
  let replace : UpdateResult × Store :=
    let s := s.accept document candidate trustedUtcMs
    match s.queueCurrentCheckpoint with
    | (true, s) => (.acceptedMemory, s)
    | (false, s) => (s.unqueuedResult, s)
  if trustedUtcMs < candidate.generatedAtUnixMs then (.invalidTime, s)
  else
    match s.live with
    | none => replace
    | some live =>
      if candidate.generatedAtUnixMs < live.metadata.generatedAtUnixMs then (.timeRollback, s)
      else if candidate.generatedAtUnixMs = live.metadata.generatedAtUnixMs then
        (if document = live.document then .unchanged else .timeRollback, s)
      else replace

/-- `deck_ai_snapshot_store_apply`. -/
def apply (s : Store) (document : List UInt8) (trustedUtcMs : UInt64) : UpdateResult × Store :=
  match validate document with
  | .error rejection => (mapValidationResult rejection, s)
  | .ok candidate =>
    let (clock, highWaterMs, latched) :=
      observeClock s.applyUtcHighWaterMs s.applyClockRollbackLatched trustedUtcMs
    let s := { s with applyUtcHighWaterMs := highWaterMs, applyClockRollbackLatched := latched }
    match clock with
    | .invalid => (.invalidTime, s)
    | .rollback => (.timeRollback, s)
    | .valid => s.applyCandidate document candidate trustedUtcMs

/-- `deck_ai_snapshot_store_copy`: the state, and the document if it is shown and fits. -/
def copy (s : Store) (nowUtcMs : UInt64) (companionOnline : Bool) (capacity : ℕ) :
    (Bool × StoreState × Option (List UInt8)) × Store :=
  match s.live with
  | none => ((true, .empty, none), s)
  | some live =>
    let (clock, highWaterMs, latched) :=
      observeClock s.copyUtcHighWaterMs s.copyClockRollbackLatched nowUtcMs
    let s := { s with copyUtcHighWaterMs := highWaterMs, copyClockRollbackLatched := latched }
    if clock = .valid ∧ s.applyClockRollbackLatched = false ∧
        s.copyClockRollbackLatched = false ∧ live.metadata.generatedAtUnixMs ≤ nowUtcMs ∧
        nowUtcMs - live.metadata.generatedAtUnixMs < offlineLimitMs then
      let state : StoreState := if companionOnline then .fresh else .stale
      if capacity < live.document.length then ((false, state, none), s)
      else ((true, state, some live.document), s)
    else ((true, .unavailable, none), s)

/-- `deck_ai_snapshot_store_take_storage_failure`. -/
def takeStorageFailure (s : Store) : Bool × Store :=
  (s.unreportedStorageFailure, { s with unreportedStorageFailure := false })

/-! ### Runs -/

/-- One call, one step of the worker, or the request of `destroy` to stop. -/
inductive Event where
  | apply (document : List UInt8) (trustedUtcMs : UInt64)
  | copy (nowUtcMs : UInt64) (companionOnline : Bool) (capacity : ℕ)
  | takeStorageFailure
  | worker (answers : Answers)
  | stop

def step (s : Store) : Event → Store
  | .apply document trustedUtcMs => (s.apply validate document trustedUtcMs).2
  | .copy nowUtcMs companionOnline capacity => (s.copy nowUtcMs companionOnline capacity).2
  | .takeStorageFailure => s.takeStorageFailure.2
  | .worker answers => s.workerStep validate answers
  | .stop => if s.workerStarted then { s with stopRequested := true } else s

def run (s : Store) (events : List Event) : Store :=
  events.foldl (step validate) s

end Store

end RlcdDeck.AiSnapshot
