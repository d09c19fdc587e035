import RlcdDeck.SerialRouter.Router

/-!
# The output of the USB bridge

`deck_serial_usb_bridge_pump_output` of `deck_serial_usb_bridge.cpp`, over the router and a USB driver.
A driver call that fails takes no bytes.  `pump_input` does not touch the fields of the output but
`disconnect_observations`, and is left out; the bridge is not destroyed.
-/

namespace RlcdDeck.SerialRouter

/-- The output part of `deck_serial_usb_bridge`. -/
structure UsbBridge where
  pendingOutput : RoutedBlock := ⟨0, 0, 0, 0, List.replicate blockBytes 0⟩
  pendingOffset : ℕ := 0
  hasPendingOutput : Bool := false
  outputBytes : UInt64 := 0
  outputBlocks : UInt64 := 0
  outputBackpressure : UInt64 := 0
  outputFailures : UInt64 := 0
  lastOutputSequence : UInt64 := 0
  disconnectObservations : UInt64 := 0

/-- `deck_serial_usb_pump_result_t`. -/
inductive PumpResult where
  | idle
  | progress
  | backpressure
  | error

/-- `take_usb_output`: the mutex of the router may not be free in time. -/
def takeUsbOutput (locked : Bool) (r : Router) : CopyResult × Router :=
  if locked then take r .usb else (.invalid, r)

namespace UsbBridge

/-- `clear_pending_output`. -/
def clearPendingOutput (b : UsbBridge) : UsbBridge :=
  { b with
    pendingOutput := ⟨0, 0, 0, 0, List.replicate blockBytes 0⟩
    pendingOffset := 0
    hasPendingOutput := false }

/-- The first part of `pump_output` for a connected driver: a block is taken if none is pending.  The
result is returned by `pump_output` if there is one. -/
def load (b : UsbBridge) (result : CopyResult) : Option PumpResult × UsbBridge :=
  match result with
  | .empty => (some .idle, b)
  | .ok block =>
    if block.length = 0 ∨ blockBytes < block.length then
      (some .error,
        { b with outputFailures := saturatingAdd b.outputFailures 1 }.clearPendingOutput)
    else (none, { b with pendingOutput := block, hasPendingOutput := true })
  | _ =>
    (some .error, { b with outputFailures := saturatingAdd b.outputFailures 1 }.clearPendingOutput)

/-- `remaining`. -/
def remaining (b : UsbBridge) : ℕ := subSize b.pendingOutput.length b.pendingOffset

/-- What is offered to the driver. -/
def offered (b : UsbBridge) : List UInt8 :=
  (b.pendingOutput.bytes.drop b.pendingOffset).take b.remaining

/-- The second part: what the driver answers is counted. -/
def wrote (b : UsbBridge) (written : ℤ) : PumpResult × UsbBridge :=
  if written < 0 ∨ b.remaining < written then
    (.error, { b with outputFailures := saturatingAdd b.outputFailures 1 })
  else if written = 0 then
    (.backpressure, { b with outputBackpressure := saturatingAdd b.outputBackpressure 1 })
  else
    let b := { b with pendingOffset := b.pendingOffset + written.toNat }
    if b.pendingOffset = b.pendingOutput.length then
      (.progress,
        { b with
          outputBytes := saturatingAddLength b.outputBytes b.pendingOutput.length
          outputBlocks := saturatingAdd b.outputBlocks 1
          lastOutputSequence := b.pendingOutput.sequence }.clearPendingOutput)
    else (.progress, b)

end UsbBridge

/-! ### The driver and the router beside the bridge -/

/-- The bridge with its surroundings.  `usb` and `taken` are ghosts: the bytes that the driver has
accepted, and the blocks that the bridge has taken. -/
structure UsbPath where
  router : Router
  bridge : UsbBridge := {}
  connected : Bool := false
  usb : List UInt8 := []
  taken : List RoutedBlock := []

/-- The driver accepts the first of the offered bytes, if its answer is within what was offered. -/
def UsbPath.write (path : UsbPath) (written : ℤ) : PumpResult × UsbPath :=
  let accepted :=
    if written < 0 ∨ path.bridge.remaining < written then []
    else path.bridge.offered.take written.toNat
  ((path.bridge.wrote written).1,
    { path with bridge := (path.bridge.wrote written).2, usb := path.usb ++ accepted })

/-- `deck_serial_usb_bridge_pump_output`; the mutex of the router and the driver answer as given. -/
def UsbPath.pumpOutput (path : UsbPath) (locked : Bool) (written : ℤ) : PumpResult × UsbPath :=
  if path.connected = false then
    (.idle,
      { path with
        bridge :=
          { path.bridge with
            disconnectObservations := saturatingAdd path.bridge.disconnectObservations 1 } })
  else if path.bridge.hasPendingOutput then path.write written
  else
    let copied := takeUsbOutput locked path.router
    let loaded := path.bridge.load copied.1
    let path :=
      { path with
        router := copied.2
        bridge := loaded.2
        taken :=
          match copied.1 with
          | .ok block => path.taken ++ [block]
          | _ => path.taken }
    match loaded.1 with
    | some result => (result, path)
    | none => path.write written

/-- What happens to the path. -/
inductive UsbOp where
  | connect
  | disconnect
  /-- A call of the router. -/
  | route (op : Op)
  | pump (locked : Bool) (written : ℤ)

namespace UsbPath

def step (path : UsbPath) : UsbOp → UsbPath
  | .connect => { path with connected := true }
  | .disconnect => { path with connected := false }
  | .route op => { path with router := (perform path.router op).2 }
  | .pump locked written => (path.pumpOutput locked written).2

def run (path : UsbPath) (ops : List UsbOp) : UsbPath := ops.foldl step path

end UsbPath

end RlcdDeck.SerialRouter
