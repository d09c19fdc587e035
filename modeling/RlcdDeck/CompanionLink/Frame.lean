import Mathlib.Tactic.Ring

/-!
# The frame assembler

The model of `deck_companion_link_frame.cpp`, which puts the chunks of WebSocket frames together, and
of what `accept_data` of `deck_companion_link.cpp` does with its answers.  The buffer is the list of its
first `message_size` bytes.  `size_t` has 32 bits; its sums are taken modulo `2^32`.  Null checks are
left out, and a chunk is the list of its bytes.
-/

namespace RlcdDeck.CompanionLink

/-- `kContinuationOpcode`. -/
def continuationOpcode : UInt8 := 0

/-- `kTextOpcode`. -/
def textOpcode : UInt8 := 1

/-- `kBinaryOpcode`. -/
def binaryOpcode : UInt8 := 2

/-- `deck_companion_link_frame_t`. -/
structure Frame where
  capacity : UInt32
  message : List UInt8 := []
  frameSize : ℕ := 0
  framePayloadLength : ℤ := 0
  frameOpcode : UInt8 := 0
  messageOpcode : UInt8 := 0
  active : Bool := false
  frameActive : Bool := false
  awaitingContinuation : Bool := false
  deriving DecidableEq

/-- What the transport delivers at once. -/
structure Chunk where
  payloadLength : ℤ
  payloadOffset : ℤ
  opcode : UInt8
  final : Bool
  data : List UInt8

/-- `deck_companion_link_frame_result_t`. -/
inductive FrameResult where
  | invalid
  /-- `DECK_COMPANION_LINK_FRAME_PARTIAL`. -/
  | unfinished
  | complete
  deriving DecidableEq

namespace Frame

/-- `start_transport_frame`. -/
def startTransportFrame (frame : Frame) (payloadLength : ℤ) (opcode : UInt8) : Option Frame :=
  let started (frame : Frame) : Frame :=
    { frame with
      awaitingContinuation := false
      frameActive := true
      framePayloadLength := payloadLength
      frameOpcode := opcode
      frameSize := 0 }
  if !frame.active then
    if opcode ≠ textOpcode ∧ opcode ≠ binaryOpcode then none
    else some (started { frame with active := true, messageOpcode := opcode, message := [] })
  else if !frame.awaitingContinuation || opcode ≠ continuationOpcode then none
  else some (started frame)

/-- `deck_companion_link_frame_reset`. -/
def reset (frame : Frame) : Frame := { capacity := frame.capacity }

/-- `accept`, once the frame of the chunk is known: the chunk is copied. -/
def append (frame : Frame) (chunk : Chunk) : FrameResult × Frame :=
  if (frame.capacity.toNat + 2 ^ 32 - frame.message.length) % 2 ^ 32 < chunk.data.length then
    (.invalid, frame)
  else
    let frame :=
      { frame with
        message := frame.message ++ chunk.data
        frameSize := (frame.frameSize + chunk.data.length) % 2 ^ 32 }
    if (frame.frameSize : ℤ) ≠ frame.framePayloadLength then (.unfinished, frame)
    else
      let frame :=
        { frame with frameActive := false, frameSize := 0, framePayloadLength := 0, frameOpcode := 0 }
      if !chunk.final then (.unfinished, { frame with awaitingContinuation := true })
      else (.complete, { frame with awaitingContinuation := false })

/-- `deck_companion_link_frame_accept`. -/
def accept (frame : Frame) (chunk : Chunk) : FrameResult × Frame :=
  if frame.capacity = 0 ∨ chunk.payloadLength ≤ 0 ∨ chunk.payloadOffset < 0 ∨
      chunk.payloadLength < (chunk.payloadOffset + chunk.data.length) % 2 ^ 32 then
    (.invalid, frame)
  else if chunk.payloadOffset = 0 then
    if frame.frameActive then (.invalid, frame)
    else
      match frame.startTransportFrame chunk.payloadLength chunk.opcode with
      | none => (.invalid, frame)
      | some frame => frame.append chunk
  else if !frame.frameActive || frame.framePayloadLength ≠ chunk.payloadLength ||
      frame.frameOpcode ≠ chunk.opcode || chunk.payloadOffset ≠ frame.frameSize then
    (.invalid, frame)
  else frame.append chunk

end Frame

end RlcdDeck.CompanionLink
