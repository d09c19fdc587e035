import RlcdDeck.CompanionLink.Requests
import RlcdDeck.SerialLink.Sessions

/-!
# The owner protocol between the Companion and the Deck

Both ends of the protocol that gives the line to a browser client: `serialhub/service.go` with the
calls of `serial_http.go` and `serveConnection` on one side, `handle_serial_control`,
`handle_serial_binary` and `send_pending_serial_owner_result` of `deck_companion_link.cpp` with
the serial service on the other, and the two queues of the connection between them.

A request or a frame the Companion has made is in its `outbox` until the task that made it writes
it, and other tasks may run and write in between.  On the Deck the owner task applies a command
and publishes its result and the snapshot in a second step.  A lost connection is noticed by each
end on its own, and a new one starts when both have.

The Deck's end is coarser than in `RlcdDeck.CompanionLink.Requests`: the revocation of a lost
transport is one step, in which the commands it makes stale are dropped.  Heartbeats of the lease
only move its deadlines, which the events choose freely, and are left out with the frames of the
target.

The client a message is about, the client whose request the Deck's lease came from (`holder`, and
`shownHolder` for the published lease), the ids answered on the connection, what was queued for
the UART and the messages an end refused are recorded for the theorems; no definition branches on
them.
-/

namespace RlcdDeck.SerialControl

open Counter SerialSession SerialHub CompanionLink

/-! ### Messages -/

/-- What the Companion sends, with the client it is about. -/
inductive ToDeck where
  /-- `serial.tx.request`. -/
  | request (clientId : String) (request : OwnerRequest)
  | frame (clientId : String) (frame : SerialHub.Frame)

/-- `serial.owner.result`. -/
structure WireResult where
  sessionId : UInt64
  requestId : UInt64
  code : CommandCode
  state : State
  leaseId : UInt64

/-- What the Deck sends. -/
inductive ToCompanion where
  /-- `device.hello` or `serial.state`. -/
  | state (sessionId : UInt64) (state : State)
  | result (clientId : String) (result : WireResult)

namespace WireResult

/-- The checks of `parseSerialOwnerResult`. -/
def parses (r : WireResult) : Bool :=
  r.requestId ≠ 0 && (if r.state = .disarmed then r.sessionId = 0 else r.sessionId ≠ 0) &&
    (if r.state = .webTX then r.leaseId ≠ 0 else r.leaseId = 0)

/-- The owner `OnSerialOwnerResult` reads in the state. -/
def owner (r : WireResult) : Owner :=
  match r.state with
  | .usbTX => .usb
  | .webTX => .web
  | .disarmed => .unavailable

def ownerResult (r : WireResult) : OwnerResult :=
  ⟨r.sessionId, r.requestId, r.owner, r.leaseId⟩

def accepted (r : WireResult) : Bool :=
  r.code = .applied || r.code = .noChange

end WireResult

/-! ### The order of Web frames -/

/-- `deck_serial_frame_order_t`. -/
structure FrameOrder where
  sessionId : UInt64 := 0
  sequence : UInt64 := 0
  monotonicMs : UInt64 := 0
  hasValue : Bool := false

namespace FrameOrder

/-- `sequence_after`. -/
def sequenceAfter (candidate previous : UInt64) : Bool :=
  candidate - previous ≠ 0 && candidate - previous < 0x8000000000000000

def accepts (order : FrameOrder) (frame : SerialHub.Frame) : Bool :=
  frame.sessionId ≠ 0 && frame.sequence ≠ 0 &&
    (!order.hasValue || order.sessionId ≠ frame.sessionId ||
      (sequenceAfter frame.sequence order.sequence && order.monotonicMs ≤ frame.monotonicMs))

def commit (frame : SerialHub.Frame) : FrameOrder :=
  ⟨frame.sessionId, frame.sequence, frame.monotonicMs, true⟩

end FrameOrder

/-! ### The system -/

/-- An owner request in the serial service. -/
structure Command where
  clientId : String
  sessionId : UInt64
  requestId : UInt64
  enable : Bool

/-- A message that an end treated as a violation of the protocol. -/
inductive Refusal where
  | request (request : OwnerRequest)
  | result (result : WireResult)

structure System (σ : Type*) where
  deviceId : String
  service : Service
  outbox : List ToDeck := []
  /-- The Companion's side of the connection. -/
  companionUp : Bool := false
  toDeck : List ToDeck := []
  toCompanion : List ToCompanion := []
  /-- The Deck's side of the connection. -/
  deckUp : Bool := false
  requests : RequestTracker := {}
  order : FrameOrder := {}
  command : Option Command := none
  device : Device σ
  /-- What the owner task has applied and not published. -/
  applied : Option (Option CommandResult) := none
  snapshot : Snapshot
  latestCommandResult : Option CommandResult := none
  asker : String := ""
  holder : String := ""
  shownHolder : String := ""
  answered : List UInt64 := []
  /-- The client a queued frame was built for, and the one the lease it is queued under is of. -/
  queued : List (String × String) := []
  refused : List Refusal := []

/-- One step of the Companion, of the connection or of the Deck. -/
inductive Event where
  | acquire (clientId : String) (sessionId : UInt64)
  | disconnect (clientId : String)
  | expire (now : ℤ)
  /-- `sendSerialOwnerRequest`, by a call of a client or as a retry, up to the write. -/
  | claim (minimumInterval now : ℤ)
  | build (clientId : String) (payload : List UInt8) (now : ℤ)
  | write (index : ℕ)
  | process (now : ℤ)
  | connect
  | dropCompanion
  | dropDeck
  | receive (room : Bool)
  /-- The owner task: a command of the application, the lease's clock, a heartbeat. -/
  | session (op : Op)
  | apply (nowMs : UInt64)
  | publish
  | announce
  | poll

namespace System

variable {σ : Type*} (hw : HardwareAdapter σ)

/-! ### The Companion -/

/-- The rest of `sendSerialOwnerRequest`: the attempt is claimed and about to be written. -/
def claim (s : System σ) (minimumInterval now : ℤ) : System σ :=
  match s.service.pendingOwnerRequest with
  | none => s
  | some (request, clientId) =>
    if s.service.deviceId = "" ∨ s.service.ring.sessionId ≠ request.sessionId then s
    else
      match s.service.claimOwnerRequestAttempt request.requestId minimumInterval now with
      | (false, service) => { s with service }
      | (true, service) => { s with service, outbox := s.outbox ++ [.request clientId request] }

/-- `handleSerialObserverInput` for a binary message, up to the write. -/
def build (s : System σ) (clientId : String) (payload : List UInt8) (now : ℤ) : System σ :=
  match s.service.buildWebFrame clientId s.service.leases.status.leaseId payload now with
  | (.ok (_, frame), service) => { s with service, outbox := s.outbox ++ [.frame clientId frame] }
  | (.error _, service) => { s with service }

/-- A message goes onto the connection; it is lost without one. -/
def postToDeck (s : System σ) (m : ToDeck) : System σ :=
  if s.companionUp = true ∧ s.deckUp = true then { s with toDeck := s.toDeck ++ [m] } else s

def write (s : System σ) (index : ℕ) : System σ :=
  match s.outbox[index]? with
  | none => s
  | some m => postToDeck { s with outbox := s.outbox.eraseIdx index } m

/-- `OnDisconnect`. -/
def dropCompanion (s : System σ) : System σ :=
  { s with
    companionUp := false
    toCompanion := []
    service := (s.service.requireOwnerRevocation s.deviceId).2 }

/-- `OnSerialState`; an error closes the connection. -/
def processState (s : System σ) (sessionId : UInt64) (state : State) (rest : List ToCompanion) :
    System σ :=
  match s.service.reconcile s.deviceId sessionId state with
  | (some _, service) => dropCompanion { s with service }
  | (none, service) => { s with service, toCompanion := rest }

def refuseResult (s : System σ) (r : WireResult) : System σ :=
  dropCompanion { s with refused := s.refused ++ [.result r] }

/-- `OnSerialOwnerResult`; an error closes the connection. -/
def processResult (s : System σ) (r : WireResult) (rest : List ToCompanion) (now : ℤ) : System σ :=
  if r.parses = false then s.refuseResult r
  else
    match s.service.applyOwnerResult s.deviceId r.ownerResult r.accepted now with
    | (some _, service) => refuseResult { s with service } r
    | (none, service) => { s with service, toCompanion := rest }

/-- `serveConnection` takes the next message. -/
def process (s : System σ) (now : ℤ) : System σ :=
  match s.companionUp, s.toCompanion with
  | true, .state sessionId state :: rest => s.processState sessionId state rest
  | true, .result _ r :: rest => s.processResult r rest now
  | _, _ => s

/-! ### The Deck -/

def postToCompanion (s : System σ) (m : ToCompanion) : System σ :=
  if s.companionUp then { s with toCompanion := s.toCompanion ++ [m] } else s

/-- `send_hello` and `send_serial_state_if_changed`. -/
def announce (s : System σ) : System σ :=
  s.postToCompanion (.state (if s.snapshot.state = .disarmed then 0 else s.snapshot.sessionId)
    (SerialLink.stateName s.snapshot.state))

/-- `disconnect_transport`, with the revocation it asks for. -/
def dropDeck (s : System σ) : System σ :=
  let revoked :=
    revokeWebTransport hw s.device (incrementNonzero s.device.session.webTransportEpoch)
  { s with
    deckUp := false
    toDeck := []
    requests := s.requests.transportReset
    order := {}
    command := none
    device := revoked.2
    applied := none
    snapshot := SerialSession.snapshot revoked.2.session
    shownHolder := s.holder
    latestCommandResult := some revoked.1 }

def refuseRequest (s : System σ) (request : OwnerRequest) : System σ :=
  dropDeck hw { s with refused := s.refused ++ [.request request] }

/-- `handle_serial_control` for an owner request; `room` is whether the service can queue it. -/
def receiveRequest (s : System σ) (clientId : String) (request : OwnerRequest)
    (rest : List ToDeck) (room : Bool) : System σ :=
  if s.snapshot.state = .disarmed ∨ s.snapshot.sessionId ≠ request.sessionId then
    s.refuseRequest hw request
  else
    match s.requests.begin request.requestId with
    | (.replay, _) => { s with toDeck := rest }
    | (.new, requests) =>
      if room then
        { s with
          toDeck := rest
          requests
          asker := clientId
          command :=
            some ⟨clientId, request.sessionId, requests.serviceRequestId, request.enable⟩ }
      else s.dropDeck hw
    | (_, _) => s.refuseRequest hw request

/-- The checks of `handle_serial_binary` and of `submit_web`. -/
def acceptsFrame (s : System σ) (frame : SerialHub.Frame) (room : Bool) : Bool :=
  frame.channel = .webTx && s.snapshot.state = .webTx && s.snapshot.uartInstalled &&
    s.snapshot.sessionId = frame.sessionId && s.snapshot.leaseId ≠ 0 && s.order.accepts frame &&
    frame.payload.length ≠ 0 && frame.payload.length ≤ SerialRouter.blockBytes && room

/-- `handle_serial_binary`: the frame is queued under the lease the snapshot shows. -/
def receiveFrame (s : System σ) (clientId : String) (frame : SerialHub.Frame) (rest : List ToDeck)
    (room : Bool) : System σ :=
  if s.acceptsFrame frame room then
    { s with
      toDeck := rest
      order := .commit frame
      queued := s.queued ++ [(clientId, s.shownHolder)] }
  else s.dropDeck hw

/-- The link takes the next message. -/
def receive (s : System σ) (room : Bool) : System σ :=
  match s.deckUp, s.toDeck with
  | true, .request clientId request :: rest => s.receiveRequest hw clientId request rest room
  | true, .frame clientId frame :: rest => s.receiveFrame hw clientId frame rest room
  | _, _ => s

/-- The calls of the session the owner task makes by itself, with their results. -/
def sessionResult (d : Device σ) : Op → Option (Option CommandResult)
  | .enter controlEpoch => some (some (enter hw d controlEpoch).1)
  | .exit controlEpoch => some (some (exit hw d controlEpoch).1)
  | .webActivity _ _ _ => some none
  | .tick _ => some none
  | _ => none

def callSession (s : System σ) (op : Op) : System σ :=
  match s.applied, sessionResult hw s.device op with
  | none, some result =>
    { s with device := SerialSession.step hw s.device op, applied := some result }
  | _, _ => s

/-- A new lease is its client's. -/
def newHolder (s : System σ) (c : Command) (leaseId : UInt64) : String :=
  if leaseId ≠ s.device.session.leaseId ∧ leaseId = c.requestId then c.clientId else s.holder

/-- `process_command` for an owner request. -/
def apply (s : System σ) (nowMs : UInt64) : System σ :=
  match s.applied, s.command with
  | none, some c =>
    let answer := requestWeb hw s.device c.sessionId c.requestId c.enable nowMs
    { s with
      command := none
      device := answer.2
      applied := some answer.1
      holder := s.newHolder c answer.2.session.leaseId }
  | _, _ => s

/-- The owner task publishes the snapshot and the result. -/
def publish (s : System σ) : System σ :=
  match s.applied with
  | none => s
  | some result =>
    { s with
      applied := none
      snapshot := SerialSession.snapshot s.device.session
      shownHolder := s.holder
      latestCommandResult := result <|> s.latestCommandResult }

/-- The result of the pending request, once it is published. -/
def pendingResult (s : System σ) : Option CommandResult :=
  if s.requests.pending = false ∨ s.requests.serviceRequestId = 0 then none
  else s.latestCommandResult.filter fun r => r.requestId = s.requests.serviceRequestId

/-- The result as `send_pending_serial_owner_result` words it. -/
def wireResult (externalRequestId : UInt64) (r : CommandResult) : WireResult :=
  { sessionId := if r.state = .disarmed then 0 else r.sessionId
    requestId := externalRequestId
    code := r.code
    state := SerialLink.stateName r.state
    leaseId := r.leaseId }

/-- `send_pending_serial_owner_result`. -/
def poll (s : System σ) : System σ :=
  match s.pendingResult with
  | none => s
  | some r =>
    match s.requests.complete r.requestId with
    | (true, requests) =>
      { s.postToCompanion (.result s.asker (wireResult s.requests.externalRequestId r)) with
        requests
        answered := s.answered ++ [s.requests.externalRequestId] }
    | (false, _) => s.dropDeck hw

/-! ### Runs -/

def step (s : System σ) : Event → System σ
  | .acquire clientId sessionId =>
    { s with service := (s.service.acquireLease clientId sessionId).2 }
  | .disconnect clientId => { s with service := (s.service.disconnectLease clientId).2 }
  | .expire now => { s with service := (s.service.expireLease now).2 }
  | .claim minimumInterval now => s.claim minimumInterval now
  | .build clientId payload now => s.build clientId payload now
  | .write index => s.write index
  | .process now => s.process now
  | .connect =>
    if s.companionUp = false ∧ s.deckUp = false then
      announce
        { s with companionUp := true, deckUp := true, toDeck := [], toCompanion := [],
                 answered := [] }
    else s
  | .dropCompanion => if s.companionUp then s.dropCompanion else s
  | .dropDeck => if s.deckUp then s.dropDeck hw else s
  | .receive room => s.receive hw room
  | .session op => s.callSession hw op
  | .apply nowMs => s.apply hw nowMs
  | .publish => s.publish
  | .announce => if s.deckUp then s.announce else s
  | .poll => if s.deckUp then s.poll hw else s

def run (s : System σ) (events : List Event) : System σ :=
  events.foldl (step hw) s

/-- A Deck after boot and a new Companion. -/
def start (deviceId : String) (device : Device σ) (service : Service) : System σ :=
  { deviceId, device, service, snapshot := SerialSession.snapshot device.session }

end System

end RlcdDeck.SerialControl
