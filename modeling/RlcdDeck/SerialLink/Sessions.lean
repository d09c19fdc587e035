import RlcdDeck.SerialHub.Service
import RlcdDeck.SerialRouter.Router
import RlcdDeck.SerialSession.Session

/-!
# Deck sessions and the Companion's ring

A Deck that boots, enters and leaves serial sessions, connects and reconnects, and the Companion
that it tells of them: `deck_serial_session.cpp` on one side, `device.hello`, `serial.state` and
the serial frames of `deck_companion_link.cpp` in between, `serveConnection` of `hub.go` with
`Reconcile` and `Ingest` on the other.

The connection is a queue of the Deck's messages.  The Companion may still process what a Deck
sent before it was reset, and admits the Deck again only when it has given up the old connection.
Which block of the session a turn of the link sends is the event's choice, as is when it publishes
its state; `RlcdDeck.CompanionLink.Stream` says what the link chooses.  Browser clients, which do
not touch what the ring holds, are left out.

`epoch` counts the sessions the Deck has entered, over all boots.  It is recorded with every
message, with the ring's session (`ringEpoch`) and with every frame the ring took since that
session began (`ingested`); no definition branches on it.
-/

namespace RlcdDeck.SerialLink

open SerialSession SerialHub

/-- `serial_state_name`, as the Companion reads it. -/
def stateName : SerialState → State
  | .disarmed => .disarmed
  | .usbTx => .usbTX
  | .webTx => .webTX

inductive Message where
  /-- `device.hello` or `serial.state`. -/
  | state (sessionId : UInt64) (state : State)
  | frame (frame : Frame)
  deriving DecidableEq

/-- A message and the session the Deck was in. -/
structure Sent where
  epoch : ℕ
  message : Message
  deriving DecidableEq

structure System (σ : Type*) where
  deviceId : String
  device : Device σ
  epoch : ℕ := 0
  /-- The blocks the router of the session accepted. -/
  blocks : List Frame := []
  /-- The Deck's side of the connection. -/
  online : Bool := false
  /-- The last announcement on the connection. -/
  published : UInt64 × ℕ := (0, 0)
  /-- The Companion's side of the connection. -/
  connected : Bool := false
  wire : List Sent := []
  service : Service
  ringEpoch : ℕ := 0
  ingested : List (ℕ × Frame) := []

/-- One step of the Deck, of the connection or of the Companion. -/
inductive Event (σ : Type*) where
  | boot (context : σ)
  | session (op : Op)
  | produce (monotonicMs : UInt64) (payload : List UInt8)
  | connect
  | publish
  | send (index : ℕ)
  | deliver
  /-- The Companion gives the connection up. -/
  | drop
  /-- The Deck gives the connection up. -/
  | lose

namespace System

variable {σ : Type*} (hw : HardwareAdapter σ)

/-- `wire_session_id`: a disarmed Deck announces no session. -/
def wireSessionId (s : System σ) : UInt64 :=
  if s.device.session.state = .disarmed then 0 else s.device.session.sessionId

/-- A message goes onto the connection; without one it is lost. -/
def post (s : System σ) (message : Message) : System σ :=
  if s.connected then { s with wire := s.wire ++ [⟨s.epoch, message⟩] } else s

/-- `send_hello` and `send_serial_state_if_changed`. -/
def announce (s : System σ) : System σ :=
  { s.post (.state s.wireSessionId (stateName s.device.session.state)) with
    published := (s.wireSessionId, s.epoch) }

/-- The Deck restarts; its session counter starts again. -/
def boot (s : System σ) (context : σ) : System σ :=
  match create hw s.device.session.leaseTimeoutMs context with
  | none => s
  | some device => { s with device, blocks := [], online := false }

/-- A call of the serial session; the one that arms it begins a new session. -/
def callSession (s : System σ) (op : Op) : System σ :=
  let device := SerialSession.step hw s.device op
  if s.device.session.state = .disarmed ∧ device.session.state ≠ .disarmed then
    { s with device, epoch := s.epoch + 1, blocks := [] }
  else { s with device }

/-- A block of the target's bytes, with the sequence the router gives it. -/
def produce (s : System σ) (monotonicMs : UInt64) (payload : List UInt8) : System σ :=
  if s.device.session.state = .disarmed ∨ payload.length = 0 ∨
      SerialRouter.blockBytes < payload.length then s
  else
    let sequence :=
      SerialRouter.nextNonzero ((s.blocks.getLast?.map fun b => b.sequence).getD 0)
    { s with
      blocks := s.blocks ++
        [⟨.targetRx, s.device.session.sessionId, sequence, monotonicMs, payload⟩] }

/-- `OnDisconnect`. -/
def drop (s : System σ) : System σ :=
  { s with
    connected := false
    wire := []
    service := (s.service.requireOwnerRevocation s.deviceId).2 }

/-- `OnSerialState`; an error closes the connection. -/
def deliverState (s : System σ) (epoch : ℕ) (sessionId : UInt64) (state : State)
    (wire : List Sent) : System σ :=
  match s.service.reconcile s.deviceId sessionId state with
  | (some _, service) => drop { s with service }
  | (none, service) =>
    -- the ring is emptied exactly when its session changes
    if service.ring.sessionId = s.service.ring.sessionId then { s with wire, service }
    else { s with wire, service, ringEpoch := epoch, ingested := [] }

/-- `OnSerialFrame`; an error closes the connection. -/
def deliverFrame (s : System σ) (epoch : ℕ) (frame : Frame) (wire : List Sent) : System σ :=
  match s.service.ingest s.deviceId frame with
  | (some _, service) => drop { s with service }
  | (none, service) => { s with wire, service, ingested := s.ingested ++ [(epoch, frame)] }

/-- The Companion processes the next message. -/
def deliver (s : System σ) : System σ :=
  match s.connected, s.wire with
  | true, ⟨epoch, .state sessionId state⟩ :: wire => s.deliverState epoch sessionId state wire
  | true, ⟨epoch, .frame frame⟩ :: wire => s.deliverFrame epoch frame wire
  | _, _ => s

def step (s : System σ) : Event σ → System σ
  | .boot context => s.boot hw context
  | .session op => s.callSession hw op
  | .produce monotonicMs payload => s.produce monotonicMs payload
  | .connect =>
    if s.online = false ∧ s.connected = false then
      announce { s with online := true, connected := true, wire := [] }
    else s
  | .publish => if s.online then s.announce else s
  | .send index =>
    if s.online = true ∧ s.device.session.state ≠ .disarmed then
      match s.blocks[index]? with
      | some frame => s.post (.frame frame)
      | none => s
    else s
  | .deliver => s.deliver
  | .drop => if s.connected then s.drop else s
  | .lose => { s with online := false }

def run (s : System σ) (events : List (Event σ)) : System σ :=
  events.foldl (step hw) s

/-- A Deck that was never paired with the Companion before, and the new Companion. -/
def start (deviceId : String) (device : Device σ) (service : Service) : System σ :=
  { deviceId, device, service }

end System

end RlcdDeck.SerialLink
