import RlcdDeck.SerialRouter.Router

/-!
# The serial stream of the Companion link

The model of the part of `deck_companion_link.cpp` that sends the target's bytes: after a history
request the link replays the router's history ring from the Companion's cursor, one block a turn,
and then goes on with the blocks of the live WSS ring, while the router takes in new ones.

One serial session is modelled, from the creation of its router on.  A transport that is lost, a
new one and a state publication that changes the session all leave the stream waiting for the next
history request (`Stream.reset`).  `after`, `emitted` and `dropped` record for the theorems what
the current request asked for, which sequences were sent for it and which the WSS ring dropped; no
definition branches on them.
-/

namespace RlcdDeck.CompanionLink

open SerialRouter

/-- `sequence_after`. -/
def sequenceAfter (candidate previous : UInt64) : Bool :=
  let difference := candidate - previous
  difference ≠ 0 && difference < 0x8000000000000000

structure Stream where
  router : Router
  serialHistoryActive : Bool := false
  serialStreamReady : Bool := false
  serialHistorySessionId : UInt64 := 0
  serialHistoryCursor : UInt64 := 0
  sentSerialSessionId : UInt64 := 0
  sentSerialSequence : UInt64 := 0
  after : Option UInt64 := none
  emitted : List UInt64 := []
  dropped : List UInt64 := []

/-- One step of the router task, of another user of the router, or of the link. -/
inductive StreamEvent where
  | router (op : Op)
  /-- An accepted or refused `serial.history.request`. -/
  | historyRequest (sessionId afterSequence : UInt64)
  /-- A turn of the sending loop; `locked` is whether the service could be read, `sent` whether
  the transport took the frame. -/
  | send (locked sent : Bool)
  | reset

/-- The sequences a sink holds, oldest first. -/
def queued (r : Router) (k : SinkId) : List UInt64 :=
  (r.sinks k).blocks.contents.map fun i => (r.metadata i).sequence

namespace Stream

/-- The stream waits for a history request. -/
def reset (s : Stream) : Stream :=
  { s with
    serialStreamReady := false
    serialHistoryActive := false
    serialHistorySessionId := 0
    serialHistoryCursor := 0
    after := none
    emitted := [] }

/-- `handle_serial_control` for a history request; another session's loses the transport. -/
def historyRequest (s : Stream) (sessionId afterSequence : UInt64) : Stream :=
  if s.router.sessionId ≠ sessionId then s.reset
  else
    { s with
      serialHistoryActive := true
      serialStreamReady := true
      serialHistorySessionId := sessionId
      serialHistoryCursor := afterSequence
      sentSerialSessionId := sessionId
      sentSerialSequence := afterSequence
      after := some afterSequence
      emitted := [] }

/-- `send_serial_block`; a failure loses the transport. -/
def sendSerialBlock (s : Stream) (block : RoutedBlock) (sent : Bool) : Bool × Stream :=
  if block.sessionId = 0 ∨ block.sequence = 0 ∨ block.length = 0 ∨ blockBytes < block.length ∨
      sent = false then (false, s.reset)
  else
    (true,
      { s with
        sentSerialSessionId := block.sessionId
        sentSerialSequence := block.sequence
        emitted := s.emitted ++ [block.sequence] })

/-- `deck_serial_service_take`. -/
def serviceTake (r : Router) (locked : Bool) : CopyResult × Router :=
  if locked then take r .wss else (.invalid, r)

/-- `deck_serial_service_copy_history_after`. -/
def serviceCopyHistoryAfter (r : Router) (cursor : UInt64) (locked : Bool) :
    CopyResult × Router :=
  if locked then copyAfter r .history cursor else (.invalid, r)

def sendOneLiveSerialBlock (s : Stream) (locked sent : Bool) : Stream :=
  match serviceTake s.router locked with
  | (.empty, router) | (.invalid, router) => { s with router }
  | (.gap _, router) => reset { s with router }
  | (.ok block, router) =>
    let s : Stream := { s with router }
    if block.length = 0 ∨ blockBytes < block.length then s.reset
    else if s.sentSerialSessionId = block.sessionId ∧
        ¬sequenceAfter block.sequence s.sentSerialSequence then s
    else (s.sendSerialBlock block sent).2

/-- A history block is sent and becomes the cursor. -/
def sendHistoryBlock (s : Stream) (block : RoutedBlock) (sent : Bool) : Stream :=
  match s.sendSerialBlock block sent with
  | (false, s) => s
  | (true, s) => { s with serialHistoryCursor := s.sentSerialSequence }

def sendOneHistorySerialBlock (s : Stream) (locked sent : Bool) : Stream :=
  match serviceCopyHistoryAfter s.router s.serialHistoryCursor locked with
  | (.empty, router) => { s with router, serialHistoryActive := false }
  | (.invalid, router) => reset { s with router }
  | (.gap block, router) =>
    let s : Stream := { s with router }
    if block.sessionId ≠ s.serialHistorySessionId then s.reset else s.sendHistoryBlock block sent
  | (.ok block, router) =>
    let s : Stream := { s with router }
    if block.sessionId ≠ s.serialHistorySessionId then s.reset
    else if s.serialHistoryCursor ≠ 0 ∧ ¬sequenceAfter block.sequence s.serialHistoryCursor then
      s.reset
    else s.sendHistoryBlock block sent

/-- A turn of the sending loop of `link_task`. -/
def send (s : Stream) (locked sent : Bool) : Stream :=
  if s.serialStreamReady then
    if s.serialHistoryActive then s.sendOneHistorySerialBlock locked sent
    else s.sendOneLiveSerialBlock locked sent
  else s

/-- The calls others make on the router of a running session. -/
def allowed : Op → Bool
  | .submit _ | .noteUartError _ | .sinkStats _ => true
  | .take k => k = .usb || k = .stats
  | .register .. | .unregister _ | .copyAfter .. | .clear _ => false

def step (s : Stream) : StreamEvent → Stream
  | .router op =>
    if allowed op then
      let router := (perform s.router op).2
      { s with
        router
        dropped := s.dropped ++ (queued s.router .wss).filter (· ∉ queued router .wss) }
    else s
  | .historyRequest sessionId afterSequence => s.historyRequest sessionId afterSequence
  | .send locked sent => s.send locked sent
  | .reset => s.reset

def run (s : Stream) (events : List StreamEvent) : Stream :=
  events.foldl step s

end Stream

/-- `kUsbSinkBytes` and `kWssSinkBytes`. -/
def liveSinkBytes : ℕ := 16 * 1024

/-- The router of a new session, with the sinks of `register_data_sinks`. -/
def dataRouter (sessionId : UInt64) (historyBytes : ℕ) : Option Router :=
  (create ⟨sessionId, historyBytes, 0⟩ true).map fun r =>
    SerialRouter.run r
      [.register ⟨.usb, liveSinkBytes, false⟩ true, .register ⟨.wss, liveSinkBytes, false⟩ true,
        .register ⟨.history, historyBytes, true⟩ true, .register ⟨.stats, blockBytes, false⟩ true]

end RlcdDeck.CompanionLink
