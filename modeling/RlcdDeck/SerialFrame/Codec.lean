import RlcdDeck.Bytes.BigEndian
import Mathlib.Data.UInt

/-!
# The two codecs of the `SRD1` serial frame

`deck_serial_frame_encode` and `deck_serial_frame_decode` of the firmware, and `Encode` and
`Decode` of the Companion's `serialprotocol`.  A byte string stands for a pointer that is not null
and its size; the firmware refuses null pointers before anything else.
-/

namespace RlcdDeck.SerialFrame

/-- A `deck_serial_frame_view_t`, or the Companion's `Frame`. -/
structure Frame where
  channel : UInt8
  sessionId : UInt64
  sequence : UInt64
  monotonicMs : UInt64
  payload : List UInt8

def headerBytes : ℕ := 32

def maxPayloadBytes : ℕ := 256

/-- `SRD1`. -/
def magic : List UInt8 := [0x53, 0x52, 0x44, 0x31]

def targetRx : UInt8 := 1

def webTx : UInt8 := 2

def validChannel (channel : UInt8) : Bool :=
  channel == targetRx || channel == webTx

/-! ### The firmware -/

def writeU16 (value : UInt16) : List UInt8 :=
  [(value >>> 8).toUInt8, value.toUInt8]

def writeU64 (value : UInt64) : List UInt8 :=
  (List.range 8).map fun index => (value >>> (UInt64.ofNat (7 - index) * 8)).toUInt8

def readU16 (input : List UInt8) : UInt16 :=
  ((input.getD 0 0).toUInt16 <<< 8) ||| (input.getD 1 0).toUInt16

def readU64 (input : List UInt8) : UInt64 :=
  (List.range 8).foldl (fun value index => value <<< 8 ||| (input.getD index 0).toUInt64) 0

/-- `memcpy` of `bytes` to `output + offset`. -/
def overwrite (output : List UInt8) (offset : ℕ) (bytes : List UInt8) : List UInt8 :=
  output.take offset ++ bytes ++ output.drop (offset + bytes.length)

/-- The number of bytes written, and the output buffer after the call. -/
def deckSerialFrameEncode (channel : UInt8) (sessionId sequence monotonicMs : UInt64)
    (payload output : List UInt8) : ℕ × List UInt8 :=
  if !validChannel channel || sessionId == 0 || sequence == 0 || payload.length == 0 ||
      decide (payload.length > maxPayloadBytes) ||
      decide (output.length < headerBytes + payload.length) then
    (0, output)
  else
    let output := overwrite output 0 magic
    let output := overwrite output 4 [channel]
    let output := overwrite output 5 [0]
    let output := overwrite output 6 (writeU16 (UInt16.ofNat payload.length))
    let output := overwrite output 8 (writeU64 sessionId)
    let output := overwrite output 16 (writeU64 sequence)
    let output := overwrite output 24 (writeU64 monotonicMs)
    let output := overwrite output headerBytes payload
    (headerBytes + payload.length, output)

def deckSerialFrameDecode (document : List UInt8) : Option Frame :=
  if decide (document.length < headerBytes) || document.take 4 != magic ||
      !validChannel (document.getD 4 0) || document.getD 5 0 != 0 then
    none
  else
    let payloadSize := readU16 (document.drop 6)
    let sessionId := readU64 (document.drop 8)
    let sequence := readU64 (document.drop 16)
    if payloadSize == 0 || decide (payloadSize.toNat > maxPayloadBytes) ||
        document.length != headerBytes + payloadSize.toNat || sessionId == 0 || sequence == 0 then
      none
    else
      some
        { channel := document.getD 4 0
          sessionId := sessionId
          sequence := sequence
          monotonicMs := readU64 (document.drop 24)
          payload := (document.drop headerBytes).take payloadSize.toNat }

/-! ### The Companion -/

namespace Companion

/-- `ErrMalformedFrame`, `ErrUnsupportedChannel` and `ErrPayloadTooLarge`. -/
inductive FrameError where
  | malformed
  | unsupportedChannel
  | payloadTooLarge

/-- `binary.BigEndian.PutUint16`. -/
def putUint16 (value : UInt16) : List UInt8 := Bytes.BigEndian.write 2 value.toNat

/-- `binary.BigEndian.PutUint64`. -/
def putUint64 (value : UInt64) : List UInt8 := Bytes.BigEndian.write 8 value.toNat

/-- `binary.BigEndian.Uint16`. -/
def uint16 (bytes : List UInt8) : UInt16 := UInt16.ofNat (Bytes.BigEndian.read bytes)

/-- `binary.BigEndian.Uint64`. -/
def uint64 (bytes : List UInt8) : UInt64 := UInt64.ofNat (Bytes.BigEndian.read bytes)

def encode (frame : Frame) : Except FrameError (List UInt8) :=
  if !validChannel frame.channel then .error .unsupportedChannel
  else if frame.sessionId == 0 || frame.sequence == 0 || frame.payload.length == 0 then
    .error .malformed
  else if frame.payload.length > maxPayloadBytes then .error .payloadTooLarge
  else
    -- Byte 5, the reserved flags, stays zero.
    .ok (magic ++ [frame.channel, 0] ++ putUint16 (UInt16.ofNat frame.payload.length) ++
      putUint64 frame.sessionId ++ putUint64 frame.sequence ++ putUint64 frame.monotonicMs ++
      frame.payload)

def decode (document : List UInt8) : Except FrameError Frame :=
  if decide (document.length < headerBytes) || document.extract 0 4 != magic ||
      document.getD 5 0 != 0 then
    .error .malformed
  else if !validChannel (document.getD 4 0) then .error .unsupportedChannel
  else
    let payloadBytes := (uint16 (document.extract 6 8)).toNat
    if payloadBytes == 0 || decide (payloadBytes > maxPayloadBytes) ||
        document.length != headerBytes + payloadBytes then
      .error .malformed
    else
      let frame : Frame :=
        { channel := document.getD 4 0
          sessionId := uint64 (document.extract 8 16)
          sequence := uint64 (document.extract 16 24)
          monotonicMs := uint64 (document.extract 24 32)
          payload := document.drop headerBytes }
      if frame.sessionId == 0 || frame.sequence == 0 then .error .malformed
      else .ok frame

end Companion

end RlcdDeck.SerialFrame
