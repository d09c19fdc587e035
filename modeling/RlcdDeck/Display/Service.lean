import Mathlib.Data.UInt

/-!
# The display service

The model of `deck_display_service.cpp`: pixels are packed into a frame of one bit a pixel, and
frames are given to the panel, which reads them while a transfer runs.  The panel adapter is
external: its answer to a start is an argument, and the buffer of a transfer that it accepted is a
result.
-/

namespace RlcdDeck.Display

/-- `DECK_DISPLAY_WIDTH`. -/
def width : ℕ := 400

/-- `DECK_DISPLAY_HEIGHT`. -/
def height : ℕ := 300

/-- `DECK_DISPLAY_FRAME_BYTES`. -/
def frameBytes : ℕ := width * height / 8

/-- `deck_display_area_t`. -/
structure Area where
  x1 : ℤ
  y1 : ℤ
  x2 : ℤ
  y2 : ℤ

/-- `area_width`. -/
def Area.columns (area : Area) : ℕ := (area.x2 - area.x1 + 1).toNat

/-- `area_height`. -/
def Area.rows (area : Area) : ℕ := (area.y2 - area.y1 + 1).toNat

/-- `deck_display_pack_result_t`. -/
inductive PackResult where
  | changed
  | unchanged
  | invalidArgument

/-! ### Packing -/

/-- `frame_index`: two columns of pixels stand in the bytes of one block, from the bottom up. -/
def frameIndex (x y : ℕ) : ℕ := x / 2 * (height / 4) + (height - 1 - y) / 4

/-- `bit`: a byte has four rows of two pixels. -/
def bitIndex (x y : ℕ) : ℕ := 7 - ((height - 1 - y) % 4 * 2 + x % 2)

/-- The state of the loops. -/
structure Packing where
  frame : List UInt8
  changed : Bool
  pixelIndex : ℕ

/-- The body of the loops. -/
def packPixel (pixels : List UInt16) (y : ℕ) (s : Packing) (x : ℕ) : Packing :=
  let mask : UInt8 := 1 <<< UInt8.ofNat (bitIndex x y)
  let previous := s.frame.getD (frameIndex x y) 0
  let byte := if 0x7fff ≤ pixels.getD s.pixelIndex 0 then previous ||| mask else previous &&& ~~~mask
  { frame := s.frame.set (frameIndex x y) byte
    changed := s.changed || decide (byte ≠ previous)
    pixelIndex := s.pixelIndex + 1 }

/-- The inner loop. -/
def packRow (pixels : List UInt16) (area : Area) (s : Packing) (y : ℕ) : Packing :=
  (List.range' area.x1.toNat area.columns).foldl (packPixel pixels y) s

/-- The outer loop. -/
def packRows (pixels : List UInt16) (area : Area) (frame : List UInt8) : Packing :=
  (List.range' area.y1.toNat area.rows).foldl (packRow pixels area) ⟨frame, false, 0⟩

/-- `deck_display_pack_rgb565`, with the frame it leaves. -/
def packRgb565 (frame : List UInt8) (area : Area) (pixels : List UInt16) :
    PackResult × List UInt8 :=
  if frame.length ≠ frameBytes ∨ area.x1 < 0 ∨ area.y1 < 0 ∨ area.x2 < area.x1 ∨
      area.y2 < area.y1 ∨ width ≤ area.x2 ∨ height ≤ area.y2 then (.invalidArgument, frame)
  else if pixels.length ≠ area.columns * area.rows then (.invalidArgument, frame)
  else
    let s := packRows pixels area frame
    (if s.changed then .changed else .unchanged, s.frame)

theorem length_packRows (pixels : List UInt16) (area : Area) (frame : List UInt8) :
    (packRows pixels area frame).frame.length = frame.length := by
  have hrow : ∀ (y : ℕ) (xs : List ℕ) (s : Packing),
      (xs.foldl (packPixel pixels y) s).frame.length = s.frame.length := by
    intro y xs
    induction xs with
    | nil => exact fun _ => rfl
    | cons x xs ih => exact fun s => (ih _).trans List.length_set
  have hrows : ∀ (ys : List ℕ) (s : Packing),
      (ys.foldl (packRow pixels area) s).frame.length = s.frame.length := by
    intro ys
    induction ys with
    | nil => exact fun _ => rfl
    | cons y ys ih => exact fun s => (ih _).trans (hrow y _ s)
  exact hrows _ _

theorem length_packRgb565 (frame : List UInt8) (area : Area) (pixels : List UInt16) :
    (packRgb565 frame area pixels).2.length = frame.length := by
  unfold packRgb565
  split_ifs
  · rfl
  · rfl
  · exact length_packRows pixels area frame

/-! ### The service -/

/-- A frame of the display. -/
structure Frame where
  bytes : List UInt8
  length_bytes : bytes.length = frameBytes

/-- A white frame. -/
def Frame.white : Frame := ⟨List.replicate frameBytes 0xff, List.length_replicate⟩

/-- `deck_display_pack_rgb565` on a frame of the service. -/
def Frame.pack (frame : Frame) (area : Area) (pixels : List UInt16) : PackResult × Frame :=
  let packed := packRgb565 frame.bytes area pixels
  (packed.1, ⟨packed.2, (length_packRgb565 _ _ _).trans frame.length_bytes⟩)

/-- `TransferKind` other than `none`. -/
inductive TransferKind where
  | candidate
  | recovery
  deriving DecidableEq

/-- `deck_display_metrics_t`. -/
structure Metrics where
  submittedFrames : UInt32 := 0
  completedFrames : UInt32 := 0
  coalescedSubmissions : UInt32 := 0
  transferTimeouts : UInt32 := 0
  startFailures : UInt32 := 0
  rejectedUpdates : UInt32 := 0
  recoverySubmissions : UInt32 := 0
  recoveredFrames : UInt32 := 0

/-- `deck_display_service_t` without the adapter. -/
structure DisplayService where
  workingFrame : Frame
  successfulFrame : Frame
  timeoutMs : UInt32
  transferStartedMs : UInt64
  transferCompleted : Bool
  transferKind : Option TransferKind
  dirty : Bool
  inFlight : Bool
  timeoutReported : Bool
  metrics : Metrics

/-- `deck_display_result_t`. -/
inductive Result where
  | updated
  | unchanged
  | submitted
  | inFlight
  | completed
  | recovering
  | recovered
  | timedOut
  | startFailed
  | invalidArgument
  deriving DecidableEq

/-- The two buffers that a transfer can read. -/
inductive Buffer where
  | working
  | successful

def DisplayService.read (display : DisplayService) : Buffer → Frame
  | .working => display.workingFrame
  | .successful => display.successfulFrame

/-- `deck_display_service_create`, when the memory suffices. -/
def create (transferTimeoutMs : UInt32) : Option DisplayService :=
  if transferTimeoutMs = 0 then none
  else
    some
      { workingFrame := .white
        successfulFrame := .white
        timeoutMs := transferTimeoutMs
        transferStartedMs := 0
        transferCompleted := false
        transferKind := none
        dirty := false
        inFlight := false
        timeoutReported := false
        metrics := {} }

namespace DisplayService

/-- `start_transfer`; `accepted` is the answer of the adapter. -/
def startTransfer (display : DisplayService) (kind : TransferKind) (nowMs : UInt64)
    (accepted : Bool) : Bool × DisplayService :=
  let display := { display with transferCompleted := false }
  let metrics := display.metrics
  if accepted = false then
    (false, { display with
      metrics := { metrics with startFailures := metrics.startFailures + 1 } })
  else
    (true, { display with
      transferKind := some kind
      inFlight := true
      timeoutReported := false
      transferStartedMs := nowMs
      metrics := { metrics with
        submittedFrames := metrics.submittedFrames + 1
        recoverySubmissions :=
          if kind = .recovery then metrics.recoverySubmissions + 1
          else metrics.recoverySubmissions } })

/-- `deck_display_service_update`. -/
def update (display : DisplayService) (area : Area) (pixels : List UInt16) :
    Result × DisplayService :=
  if display.inFlight = true ∧ display.transferKind = some .candidate then (.inFlight, display)
  else
    match display.workingFrame.pack area pixels with
    | (.invalidArgument, frame) =>
      (.invalidArgument, { display with
        workingFrame := frame
        metrics := { display.metrics with
          rejectedUpdates := display.metrics.rejectedUpdates + 1 } })
    | (.unchanged, frame) => (.unchanged, { display with workingFrame := frame })
    | (.changed, frame) => (.updated, { display with workingFrame := frame, dirty := true })

/-- `deck_display_service_submit`, with the buffer of the transfer that was started. -/
def submit (display : DisplayService) (nowMs : UInt64) (accepted : Bool) :
    Result × Option Buffer × DisplayService :=
  if display.inFlight = true then
    (.inFlight, none, { display with
      metrics := { display.metrics with
        coalescedSubmissions := display.metrics.coalescedSubmissions + 1 } })
  else if display.dirty = false then (.unchanged, none, display)
  else
    match display.startTransfer .candidate nowMs accepted with
    | (false, display) => (.startFailed, none, display)
    | (true, display) => (.submitted, some .working, { display with dirty := false })

/-- The branch of `deck_display_service_poll` that takes a completion. -/
def finish (display : DisplayService) (nowMs : UInt64) (accepted : Bool) :
    Result × Option Buffer × DisplayService :=
  let ended := { display with
    transferCompleted := false
    inFlight := false
    transferKind := none
    timeoutReported := false
    metrics := { display.metrics with completedFrames := display.metrics.completedFrames + 1 } }
  if display.transferKind = some .recovery then
    (.recovered, none, { ended with
      metrics := { ended.metrics with recoveredFrames := ended.metrics.recoveredFrames + 1 } })
  else if display.timeoutReported = true then
    match { ended with dirty := true }.startTransfer .recovery nowMs accepted with
    | (false, display) => (.startFailed, none, display)
    | (true, display) => (.recovering, some .successful, display)
  else (.completed, none, { ended with successfulFrame := ended.workingFrame })

/-- `deck_display_service_poll`, with the buffer of the transfer that was started. -/
def poll (display : DisplayService) (nowMs : UInt64) (accepted : Bool) :
    Result × Option Buffer × DisplayService :=
  if display.inFlight = false then (.unchanged, none, display)
  else if display.transferCompleted = true then display.finish nowMs accepted
  else if display.timeoutReported = false ∧
      display.timeoutMs.toUInt64 ≤ nowMs - display.transferStartedMs then
    (.timedOut, none, { display with
      timeoutReported := true
      metrics := { display.metrics with
        transferTimeouts := display.metrics.transferTimeouts + 1 } })
  else (.inFlight, none, display)

/-- `transfer_done`. -/
def transferDone (display : DisplayService) : DisplayService :=
  { display with transferCompleted := true }

end DisplayService

end RlcdDeck.Display
