import RlcdDeck.Bytes.LittleEndian
import RlcdDeck.Effects.Program

/-!
# The transaction store

The model of `deck_transaction_store.cpp`: one payload kept in two slots of a key-value storage.
A marker names the slot that is active and the one before it, and a candidate is staged under a
key of its own before a commit copies it into the slot that is not active.

The storage adapter is external: every read, write and erase is a call that may fail, and so is
every allocation.  A record is in memory when it is `some`, so `has_active` and `has_candidate` are
`active.isSome` and `candidate.isSome`.  The wiping of buffers is left out.
-/

namespace RlcdDeck.TransactionStore

open Bytes Effects

/-- `DECK_TRANSACTION_PAYLOAD_CAPACITY`. -/
def defaultPayloadCapacity : ℕ := 128

/-- `DECK_TRANSACTION_MAX_PAYLOAD_CAPACITY`. -/
def maxPayloadCapacity : ℕ := 16 * 1024

/-- `kRecordHeaderSize`. -/
def recordHeaderSize : ℕ := 12

/-- `kChecksumSize`. -/
def checksumSize : ℕ := 4

/-- `kMarkerSize`. -/
def markerSize : ℕ := 20

/-- `deck_transaction_storage_key_t`. -/
inductive StorageKey where
  | candidate
  | slot0
  | slot1
  | activeMarker
  | metadata
  deriving DecidableEq

/-- `deck_transaction_storage_result_t`, with the bytes read. -/
inductive ReadResult where
  | ok (bytes : List UInt8)
  | notFound
  | error
  deriving DecidableEq

/-- `deck_transaction_record_status_t`. -/
inductive RecordStatus where
  | empty
  | valid
  | recoveredPrevious
  | corrupt
  | unsupportedSchema
  | migrationFailed
  | ioError
  deriving DecidableEq

/-- `deck_transaction_update_result_t`. -/
inductive UpdateResult where
  | updated
  | invalidPayload
  | storageFailure
  | noCandidate
  deriving DecidableEq

/-- `deck_transaction_record_t`. -/
structure TransactionRecord where
  payload : List UInt8
  generation : UInt32
  deriving DecidableEq

/-- `deck_transaction_store_options_t` without the adapter, as `create` accepts them. -/
structure Options where
  recordMagic : List UInt8
  markerMagic : List UInt8
  schemaVersion : UInt8
  payloadCapacity : ℕ
  payloadLengthExcludedPrefix : ℕ
  validatePayload : List UInt8 → Bool
  recordMagic_length : recordMagic.length = 4
  markerMagic_length : markerMagic.length = 4
  schemaVersion_ne : schemaVersion ≠ 0
  payloadCapacity_le : payloadCapacity ≤ maxPayloadCapacity
  prefix_le : payloadLengthExcludedPrefix ≤ payloadCapacity

/-- The two slots. -/
abbrev Slot := Fin 2

instance slotNeZero : NeZero 2 := ⟨by decide⟩

/-- `slot_key`. -/
def slotKey (slot : Slot) : StorageKey :=
  if slot = 0 then .slot0 else .slot1

/-- `DecodedMarker`; the previous slot is never the active one. -/
structure Marker where
  activeSlot : Slot
  activeGeneration : UInt32
  previousGeneration : Option UInt32

/-- `previous_slot`. -/
def Marker.previousSlot (marker : Marker) : Slot := 1 - marker.activeSlot

/-- `DecodeResult` other than `valid`. -/
inductive DecodeFailure where
  | corrupt
  | unsupported
  | migrationFailed
  deriving DecidableEq

/-- `status_for_decode`. -/
def statusForDecode : DecodeFailure → RecordStatus
  | .unsupported => .unsupportedSchema
  | .migrationFailed => .migrationFailed
  | .corrupt => .corrupt

/-! ### Records and markers -/

/-- `encode_record`. -/
def encodeRecord (o : Options) (record : TransactionRecord) : Option (List UInt8) :=
  let size := record.payload.length
  if size = 0 ∨ size < o.payloadLengthExcludedPrefix ∨ o.payloadCapacity < size ∨
      record.generation = 0 then none
  else
    let encodedSize := size - o.payloadLengthExcludedPrefix
    let checked := o.recordMagic ++
      [o.schemaVersion, 0, UInt8.ofNat encodedSize, UInt8.ofNat (encodedSize / 256)] ++
      writeU32 record.generation ++ record.payload
    some (checked ++ writeU32 (crc32 checked))

/-- `decode_record`. -/
def decodeRecord (o : Options) (input : List UInt8) : Except DecodeFailure TransactionRecord :=
  if input.length < recordHeaderSize + checksumSize ∨ input.take 4 ≠ o.recordMagic then
    .error .corrupt
  else if o.schemaVersion < input.getD 4 0 then .error .unsupported
  else if input.getD 4 0 < o.schemaVersion then .error .migrationFailed
  else
    let encodedSize := (input.getD 6 0).toNat + (input.getD 7 0).toNat * 256
    if o.payloadCapacity - o.payloadLengthExcludedPrefix < encodedSize then .error .corrupt
    else
      let size := encodedSize + o.payloadLengthExcludedPrefix
      let checksumOffset := recordHeaderSize + size
      let generation := readU32 input 8
      let payload := (input.drop recordHeaderSize).take size
      if input.getD 5 0 ≠ 0 ∨ size = 0 ∨ o.payloadCapacity < size ∨
          checksumOffset + checksumSize ≠ input.length ∨ generation = 0 ∨
          readU32 input checksumOffset ≠ crc32 (input.take checksumOffset) ∨
          o.validatePayload payload = false then .error .corrupt
      else .ok ⟨payload, generation⟩

/-- `encode_marker`. -/
def encodeMarker (o : Options) (marker : Marker) : List UInt8 :=
  let previous :=
    match marker.previousGeneration with
    | none => [0, 0] ++ writeU32 0
    | some generation => [1, UInt8.ofNat marker.previousSlot.val] ++ writeU32 generation
  let checked := o.markerMagic ++ [o.schemaVersion, UInt8.ofNat marker.activeSlot.val] ++
    writeU32 marker.activeGeneration ++ previous
  checked ++ writeU32 (crc32 checked)

/-- `decode_marker`. -/
def decodeMarker (o : Options) (input : List UInt8) : Except DecodeFailure Marker :=
  if input.length ≠ markerSize ∨ input.take 4 ≠ o.markerMagic then .error .corrupt
  else if o.schemaVersion < input.getD 4 0 then .error .unsupported
  else if input.getD 4 0 < o.schemaVersion then .error .migrationFailed
  else
    let activeSlot := input.getD 5 0
    let activeGeneration := readU32 input 6
    let hasPrevious := input.getD 10 0
    let previousSlot := input.getD 11 0
    let previousGeneration := readU32 input 12
    if 1 < activeSlot ∨ activeGeneration = 0 ∨ 1 < hasPrevious ∨
        (hasPrevious = 0 ∧ (previousSlot ≠ 0 ∨ previousGeneration ≠ 0)) ∨
        (hasPrevious = 1 ∧
          (1 < previousSlot ∨ previousSlot = activeSlot ∨ previousGeneration = 0)) ∨
        readU32 input 16 ≠ crc32 (input.take 16) then .error .corrupt
    else
      .ok
        { activeSlot := if activeSlot = 0 then 0 else 1
          activeGeneration := activeGeneration
          previousGeneration := if hasPrevious = 1 then some previousGeneration else none }

/-! ### The storage -/

/-- The external calls. -/
inductive Call where
  | allocate
  | read (key : StorageKey) (capacity : ℕ)
  | write (key : StorageKey) (data : List UInt8)
  | erase (key : StorageKey)

/-- What they answer. -/
abbrev Call.Answer : Call → Type
  | .read _ _ => ReadResult
  | .allocate | .write _ _ | .erase _ => Bool

abbrev Storage := Program Call Call.Answer

def allocate : Storage Bool := Program.perform Call.allocate

def read (key : StorageKey) (capacity : ℕ) : Storage ReadResult :=
  Program.perform (Call.read key capacity)

def write (key : StorageKey) (data : List UInt8) : Storage Bool :=
  Program.perform (Call.write key data)

def erase (key : StorageKey) : Storage Bool := Program.perform (Call.erase key)

/-- What `read_encoded_record` finds. -/
inductive RecordRead where
  | ok (decoded : Except DecodeFailure TransactionRecord)
  | notFound
  | error
  deriving DecidableEq

/-- `read_encoded_record`. -/
def readEncodedRecord (o : Options) (key : StorageKey) : Storage RecordRead := do
  if !(← allocate) then return .error
  match ← read key (recordHeaderSize + o.payloadCapacity + checksumSize) with
  | .notFound => return .notFound
  | .error => return .error
  | .ok bytes =>
    match decodeRecord o bytes with
    | .error failure => return .ok (.error failure)
    | .ok record =>
      -- `assign_record`
      if ← allocate then return .ok (.ok record) else return .error

/-- `deck_transaction_store_t`. -/
structure Store where
  recordStatus : RecordStatus := .empty
  candidateRecordStatus : RecordStatus := .empty
  active : Option TransactionRecord := none
  candidate : Option TransactionRecord := none
  activeSlot : Slot := 0
  storageFaulted : Bool := false
  markerPresent : Bool := false
  markerMatchesActive : Bool := false

namespace Store

/-- `set_storage_failure`. -/
def setStorageFailure (s : Store) : Store := { s with storageFaulted := true }

/-- `load_candidate`. -/
def loadCandidate (o : Options) (s : Store) : Storage Store := do
  match ← readEncodedRecord o .candidate with
  | .notFound => return s
  | .error => return { s with candidateRecordStatus := .ioError }.setStorageFailure
  | .ok (.error failure) => return { s with candidateRecordStatus := statusForDecode failure }
  | .ok (.ok record) => return { s with candidateRecordStatus := .valid, candidate := some record }

/-- The status of an active record that could not be recovered. -/
def unrecovered (s : Store) (selected previous : RecordRead) : Store :=
  if selected = .error ∨ previous = .error then
    { s with recordStatus := .ioError }.setStorageFailure
  else
    match selected with
    | .ok (.error failure) => { s with recordStatus := statusForDecode failure }
    | _ => { s with recordStatus := .corrupt }

/-- The record that was read is the one the marker speaks of. -/
def matchesGeneration (found : RecordRead) (generation : UInt32) : Option TransactionRecord :=
  match found with
  | .ok (.ok record) => if record.generation = generation then some record else none
  | _ => none

/-- `load_active`. -/
def loadActive (o : Options) (s : Store) : Storage Store := do
  match ← read .activeMarker markerSize with
  | .notFound => return s
  | .error => return { s with recordStatus := .ioError }.setStorageFailure
  | .ok bytes =>
    let s := { s with markerPresent := true }
    match decodeMarker o bytes with
    | .error failure => return { s with recordStatus := statusForDecode failure }
    | .ok marker =>
      let selected ← readEncodedRecord o (slotKey marker.activeSlot)
      match matchesGeneration selected marker.activeGeneration with
      | some record =>
        return { s with
          active := some record
          activeSlot := marker.activeSlot
          recordStatus := .valid
          markerMatchesActive := true }
      | none =>
        match marker.previousGeneration with
        | none => return s.unrecovered selected .notFound
        | some generation =>
          let previous ← readEncodedRecord o (slotKey marker.previousSlot)
          match matchesGeneration previous generation with
          | none => return s.unrecovered selected previous
          | some record =>
            let s :=
              { s with
                active := some record
                activeSlot := marker.previousSlot
                recordStatus := .recoveredPrevious }
            return if selected = .error then s.setStorageFailure else s

/-- `deck_transaction_store_create`; `none` is the null pointer. -/
def create (o : Options) : Storage (Option Store) := do
  if !(← allocate) then return none
  let s ← loadCandidate o {}
  let s ← s.loadActive o
  return some s

/-! ### Staging -/

/-- The writing of a record and its verification, in `stage` and in `commit`. -/
def writeRecord (o : Options) (key : StorageKey) (record : TransactionRecord) : Storage Bool := do
  if !(← allocate) then return false
  match encodeRecord o record with
  | none => return false
  | some encoded =>
    if !(← write key encoded) then return false
    return (← readEncodedRecord o key) = .ok (.ok record)

/-- The generation of the next record. -/
def nextGeneration (s : Store) : UInt32 :=
  let generation :=
    match s.active with
    | some active => active.generation + 1
    | none => 1
  if generation = 0 then 1 else generation

/-- `deck_transaction_store_stage`. -/
def stage (o : Options) (s : Store) (payload : List UInt8) : Storage (UpdateResult × Store) := do
  if payload.length = 0 ∨ payload.length < o.payloadLengthExcludedPrefix ∨
      o.payloadCapacity < payload.length ∨ o.validatePayload payload = false then
    return (.invalidPayload, s)
  if s.storageFaulted then return (.storageFailure, s)
  let record : TransactionRecord := ⟨payload, s.nextGeneration⟩
  if !(← writeRecord o .candidate record) then return (.storageFailure, s.setStorageFailure)
  return (.updated, { s with candidate := some record, candidateRecordStatus := .valid })

/-! ### Committing -/

/-- `write_and_verify_marker`. -/
def writeAndVerifyMarker (marker : List UInt8) : Storage Bool := do
  if !(← write .activeMarker marker) then return false
  return (← read .activeMarker markerSize) = .ok marker

/-- `rollback_marker`. -/
def rollbackMarker (previous : Option (List UInt8)) : Storage Bool :=
  match previous with
  | some marker => write .activeMarker marker
  | none => erase .activeMarker

/-- The marker of the active record alone. -/
def activeMarker (o : Options) (s : Store) : Option (List UInt8) :=
  s.active.map fun active => encodeMarker o ⟨s.activeSlot, active.generation, none⟩

/-- Before the other slot is written: the marker names the active record, or there is none. -/
def prepareMarker (o : Options) (s : Store) : Storage (Bool × Store) := do
  match s.activeMarker o with
  | some marker =>
    if s.markerMatchesActive then return (true, s)
    if !(← writeAndVerifyMarker marker) then return (false, s)
    return (true, { s with markerPresent := true, markerMatchesActive := true })
  | none =>
    if !s.markerPresent then return (true, s)
    if !(← erase .activeMarker) then return (false, s)
    return (true, { s with markerPresent := false })

/-- The slot that the next commit writes. -/
def nextSlot (s : Store) : Slot := if s.active.isSome then 1 - s.activeSlot else 0

/-- `deck_transaction_store_commit`. -/
def commit (o : Options) (s : Store) : Storage (UpdateResult × Store) := do
  match s.candidate with
  | none => return (.noCandidate, s)
  | some candidate =>
    if s.storageFaulted then return (.storageFailure, s)
    let (prepared, s) ← s.prepareMarker o
    if !prepared then return (.storageFailure, s.setStorageFailure)
    if !(← writeRecord o (slotKey s.nextSlot) candidate) then
      return (.storageFailure, s.setStorageFailure)
    let marker := encodeMarker o
      ⟨s.nextSlot, candidate.generation, s.active.map fun active => active.generation⟩
    if !(← writeAndVerifyMarker marker) then
      let _ ← rollbackMarker (s.activeMarker o)
      return (.storageFailure, s.setStorageFailure)
    let s :=
      { s with
        active := some candidate
        activeSlot := s.nextSlot
        recordStatus := .valid
        markerPresent := true
        markerMatchesActive := true }
    if ← erase .candidate then
      return (.updated, { s with candidate := none, candidateRecordStatus := .empty })
    else return (.updated, { s with candidateRecordStatus := .ioError })

/-! ### Clearing -/

/-- `deck_transaction_store_clear`. -/
def clear (s : Store) : Storage (Bool × Store) := do
  let marker ← erase .activeMarker
  let candidate ← erase .candidate
  let slot0 ← erase .slot0
  let slot1 ← erase .slot1
  let metadata ← erase .metadata
  if marker && candidate && slot0 && slot1 && metadata then return (true, {})
  else return (false, s.setStorageFailure)

end Store

/-! ### A storage that keeps bytes -/

/-- The bytes under each key. -/
abbrev Flash := StorageKey → Option (List UInt8)

namespace Flash

def empty : Flash := fun _ => none

def put (flash : Flash) (key : StorageKey) (bytes : Option (List UInt8)) : Flash :=
  fun other => if other = key then bytes else flash other

/-- The answer of a read; bytes that do not fit are an error. -/
def get (flash : Flash) (key : StorageKey) (capacity : ℕ) : ReadResult :=
  match flash key with
  | none => .notFound
  | some bytes => if bytes.length ≤ capacity then .ok bytes else .error

/-- The storage that works. -/
def answer (flash : Flash) : (op : Call) → op.Answer × Flash
  | .allocate => (true, flash)
  | .read key capacity => (flash.get key capacity, flash)
  | .write key data => (true, flash.put key (some data))
  | .erase key => (true, flash.put key none)

/-- The storage that may fail. -/
inductive Step : Flash → (op : Call) → op.Answer → Flash → Prop where
  | answered (flash : Flash) (op : Call) : Step flash op (flash.answer op).1 (flash.answer op).2
  | allocateFailed (flash : Flash) : Step flash .allocate false flash
  | readFailed (flash : Flash) (key : StorageKey) (capacity : ℕ) :
    Step flash (.read key capacity) .error flash
  | writeFailed (flash : Flash) (key : StorageKey) (data : List UInt8) :
    Step flash (.write key data) false flash
  | writeUnreported (flash : Flash) (key : StorageKey) (data : List UInt8) :
    Step flash (.write key data) false (flash.put key (some data))
  | eraseFailed (flash : Flash) (key : StorageKey) : Step flash (.erase key) false flash
  | eraseUnreported (flash : Flash) (key : StorageKey) :
    Step flash (.erase key) false (flash.put key none)

end Flash

end RlcdDeck.TransactionStore
