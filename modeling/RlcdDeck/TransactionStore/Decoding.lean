import RlcdDeck.TransactionStore.Store

/-!
# Decoding, read by read

`decode_record` and `decode_marker` over the buffer that they are given: the buffer is behind a call
for the byte at an offset, so that every access of the code is one in the model.
-/

namespace RlcdDeck.TransactionStore

open Bytes Effects

/-- A computation that reads single bytes of its input. -/
abbrev Reading := Program ℕ fun _ => UInt8

def readByte (offset : ℕ) : Reading UInt8 := Program.perform offset

def readBytes (offset : ℕ) : (count : ℕ) → Reading (List UInt8)
  | 0 => pure []
  | count + 1 => do
    let byte ← readByte offset
    let bytes ← readBytes (offset + 1) count
    pure (byte :: bytes)

/-- `read_u32`. -/
def readWord (offset : ℕ) : Reading UInt32 := do
  let bytes ← readBytes offset 4
  pure (readU32 bytes 0)

/-- The part of `decode_record` after the length of the payload. -/
def decodePayloadFrom (o : Options) (size payloadSize : ℕ) :
    Reading (Except DecodeFailure TransactionRecord) := do
  let checksumOffset := recordHeaderSize + payloadSize
  let generation ← readWord 8
  let reserved ← readByte 5
  if reserved ≠ 0 ∨ payloadSize = 0 ∨ o.payloadCapacity < payloadSize ∨
      checksumOffset + checksumSize ≠ size ∨ generation = 0 then pure (.error .corrupt)
  else
    let checksum ← readWord checksumOffset
    let checked ← readBytes 0 checksumOffset
    if checksum ≠ crc32 checked then pure (.error .corrupt)
    else
      let payload ← readBytes recordHeaderSize payloadSize
      if o.validatePayload payload = false then pure (.error .corrupt)
      else pure (.ok ⟨payload, generation⟩)

/-- `decode_record` of `size` bytes. -/
def decodeRecordFrom (o : Options) (size : ℕ) :
    Reading (Except DecodeFailure TransactionRecord) :=
  if size < recordHeaderSize + checksumSize then pure (.error .corrupt)
  else do
    let magic ← readBytes 0 4
    if magic ≠ o.recordMagic then pure (.error .corrupt)
    else
      let schema ← readByte 4
      if o.schemaVersion < schema then pure (.error .unsupported)
      else if schema < o.schemaVersion then pure (.error .migrationFailed)
      else
        let low ← readByte 6
        let high ← readByte 7
        let encodedSize := low.toNat + high.toNat * 256
        if o.payloadCapacity - o.payloadLengthExcludedPrefix < encodedSize then
          pure (.error .corrupt)
        else decodePayloadFrom o size (encodedSize + o.payloadLengthExcludedPrefix)

/-- The part of `decode_marker` after the schema version. -/
def decodeFieldsFrom : Reading (Except DecodeFailure Marker) := do
  let activeSlot ← readByte 5
  let activeGeneration ← readWord 6
  let hasPrevious ← readByte 10
  let previousSlot ← readByte 11
  let previousGeneration ← readWord 12
  if 1 < activeSlot ∨ activeGeneration = 0 ∨ 1 < hasPrevious ∨
      (hasPrevious = 0 ∧ (previousSlot ≠ 0 ∨ previousGeneration ≠ 0)) ∨
      (hasPrevious = 1 ∧
        (1 < previousSlot ∨ previousSlot = activeSlot ∨ previousGeneration = 0)) then
    pure (.error .corrupt)
  else
    let checksum ← readWord 16
    let checked ← readBytes 0 16
    if checksum ≠ crc32 checked then pure (.error .corrupt)
    else
      pure (.ok {
        activeSlot := if activeSlot = 0 then 0 else 1
        activeGeneration := activeGeneration
        previousGeneration := if hasPrevious = 1 then some previousGeneration else none })

/-- `decode_marker` of `size` bytes. -/
def decodeMarkerFrom (o : Options) (size : ℕ) : Reading (Except DecodeFailure Marker) :=
  if size ≠ markerSize then pure (.error .corrupt)
  else do
    let magic ← readBytes 0 4
    if magic ≠ o.markerMagic then pure (.error .corrupt)
    else
      let schema ← readByte 4
      if o.schemaVersion < schema then pure (.error .unsupported)
      else if schema < o.schemaVersion then pure (.error .migrationFailed)
      else decodeFieldsFrom

/-- The buffer that holds `input`. -/
def buffer (input : List UInt8) (offset : ℕ) : UInt8 × List UInt8 := (input.getD offset 0, input)

/-- The result of a reading of `input`. -/
def Reading.of {α : Type} (reading : Reading α) (input : List UInt8) : α :=
  (reading.run buffer input).1

end RlcdDeck.TransactionStore
