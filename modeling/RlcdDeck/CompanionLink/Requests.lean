import RlcdDeck.SerialService.Service

/-!
# Web owner requests on the Companion link

The model of `deck_serial_request_tracker.cpp` and of what `deck_companion_link.cpp` does with it:
an owner request of the Companion becomes a command of the serial service under an id of the
Deck's own, the link polls for the result of that command, and a lost transport revokes the Web
owner before the next one may start.

The link task takes one step at a time from one access to the service to the next, with a program
counter between them, and the tasks of the service take theirs in between.  A link without a
serial service has no requests and is left out, as are the heartbeats, the other messages and the
timing.  `asked` and `progress` record for the theorems what became of the pending request; no
definition branches on them.
-/

namespace RlcdDeck.CompanionLink

open Counter SerialSession SerialService

/-! ### The request tracker -/

/-- `deck_serial_request_tracker_t`. -/
structure RequestTracker where
  pending : Bool := false
  externalRequestId : UInt64 := 0
  serviceRequestId : UInt64 := 0
  nextServiceRequestId : UInt64 := 0

/-- `deck_serial_request_begin_result_t`. -/
inductive BeginResult where
  | invalid
  | new
  | replay
  | busy

namespace RequestTracker

def allocateServiceRequestId (t : RequestTracker) : UInt64 × RequestTracker :=
  let next := if t.nextServiceRequestId = 0 then 1 else t.nextServiceRequestId
  (next, { t with nextServiceRequestId := nonzeroNext next })

def begin (t : RequestTracker) (externalRequestId : UInt64) : BeginResult × RequestTracker :=
  if externalRequestId = 0 then (.invalid, t)
  else if t.pending then
    if t.externalRequestId ≠ externalRequestId then (.busy, t) else (.replay, t)
  else
    let (serviceRequestId, t) := t.allocateServiceRequestId
    (.new, { t with externalRequestId, serviceRequestId, pending := true })

def complete (t : RequestTracker) (serviceRequestId : UInt64) : Bool × RequestTracker :=
  if ¬t.pending ∨ serviceRequestId = 0 ∨ serviceRequestId ≠ t.serviceRequestId then (false, t)
  else (true, { t with pending := false, externalRequestId := 0, serviceRequestId := 0 })

def transportReset (t : RequestTracker) : RequestTracker :=
  { t with pending := false, externalRequestId := 0, serviceRequestId := 0 }

end RequestTracker

/-! ### The link -/

/-- Where the link task stands. -/
inductive LinkPc where
  | loop
  /-- A stamped owner request is about to be sent. -/
  | request (command : Command)
  /-- `begin_serial_transport_revoke`, called by `disconnect_transport` or while offline. -/
  | revoke (closing : Bool)
  | revoking (closing : Bool) (epoch : UInt64)
  /-- The rest of `disconnect_transport`. -/
  | reset
  /-- `serial_transport_revoked`. -/
  | revoked
  deriving DecidableEq

structure Link where
  /-- `link->client != nullptr`. -/
  client : Bool := false
  requests : RequestTracker := {}
  pendingSerialRevokeEpoch : UInt64 := 0
  serialTransportFenced : Bool := false
  pc : LinkPc := .loop

/-- What became of the pending request. -/
inductive Progress where
  | waiting
  | applied
  | answered (result : Option CommandResult)
  deriving DecidableEq

structure Deck where
  publisher : Publisher
  link : Link := {}
  asked : Command := { kind := .requestWeb }
  progress : Progress := .waiting

/-- One step of the system. -/
inductive Event where
  /-- The owner task, the input tasks and the commands of the application. -/
  | service (event : SerialService.Event)
  | connect
  | disconnect
  | ensureRevoked
  | ownerRequest (sessionId requestId : UInt64) (enable locked : Bool)
  | poll (locked sent : Bool)
  /-- The next step of a call the link task is in. -/
  | advance

namespace Deck

abbrev service (d : Deck) : Service := d.publisher.service

def setService (d : Deck) (service : Service) : Deck :=
  { d with publisher := { d.publisher with service } }

/-- `schedule_retry`, up to `begin_serial_transport_revoke`. -/
def drop (d : Deck) : Deck :=
  { d with
    link := { d.link with client := false, serialTransportFenced := false, pc := .revoke true } }

/-- `handle_serial_control` for an owner request, up to the send of its command; `locked` is
whether the snapshot could be read. -/
def ownerRequest (d : Deck) (sessionId requestId : UInt64) (enable locked : Bool) : Deck :=
  let snapshot := d.service.latestSnapshot
  if locked = false ∨ snapshot.state = .disarmed ∨ snapshot.sessionId ≠ sessionId then d.drop
  else
    match d.link.requests.begin requestId with
    | (.replay, _) => d
    | (.new, requests) =>
      if d.service.stopRequested then
        drop { d with link := { d.link with requests := requests.transportReset } }
      else
        let command : Command :=
          { kind := .requestWeb
            enable
            sessionId
            requestId := requests.serviceRequestId
            controlEpoch := d.service.webTransportEpoch }
        { d with
          link := { d.link with requests, pc := .request command }
          asked := command
          progress := .waiting }
    | (_, _) => d.drop

/-- `xQueueSend` of an owner request. -/
def sendRequest (d : Deck) (command : Command) : Deck :=
  if d.service.commands.length < queueDepth then
    { d.setService { d.service with commands := d.service.commands ++ [command] } with
      link := { d.link with pc := .loop } }
  else
    drop { d with
      link := { d.link with requests := d.link.requests.transportReset }
      progress := .waiting }

/-- `send_pending_serial_owner_result`; `sent` is whether the transport took the message. -/
def poll (d : Deck) (locked sent : Bool) : Deck :=
  if d.link.requests.pending ∧ locked then
    match d.publisher.commandResult d.link.requests.serviceRequestId with
    | none => d
    | some result =>
      if sent then
        match d.link.requests.complete result.requestId with
        | (true, requests) => { d with link := { d.link with requests }, progress := .waiting }
        | (false, _) => d.drop
      else d.drop
  else d

/-- Where `begin_serial_transport_revoke` returns to. -/
def afterRevoke (d : Deck) (closing succeeded : Bool) : Deck :=
  { d with
    link := { d.link with
      pc := if closing then .reset else if succeeded then .revoked else .loop } }

/-- The first part of `begin_serial_transport_revoke`: it advances the transport epoch. -/
def beginRevoke (d : Deck) (closing : Bool) : Deck :=
  if d.link.pendingSerialRevokeEpoch ≠ 0 then d.afterRevoke closing true
  else if d.service.stopRequested then d.afterRevoke closing false
  else
    let epoch := incrementNonzero d.service.webTransportEpoch
    { d.setService { d.service with webTransportEpoch := epoch } with
      link := { d.link with pc := .revoking closing epoch } }

/-- `xQueueSendToFront` of the revocation. -/
def sendRevoke (d : Deck) (closing : Bool) (epoch : UInt64) : Deck :=
  if d.service.commands.length < queueDepth then
    let command : Command := { kind := .revokeWebTransport, controlEpoch := epoch }
    afterRevoke
      { d.setService { d.service with commands := command :: d.service.commands } with
        link := { d.link with pendingSerialRevokeEpoch := epoch } }
      closing true
  else d.afterRevoke closing false

/-- `serial_transport_revoked`. -/
def checkRevoked (d : Deck) : Deck :=
  if d.link.pendingSerialRevokeEpoch ≠ 0 ∧
      d.service.completedWebRevokeEpoch = d.link.pendingSerialRevokeEpoch then
    { d with
      link := { d.link with
        pendingSerialRevokeEpoch := 0
        serialTransportFenced := true
        pc := .loop } }
  else { d with link := { d.link with pc := .loop } }

/-- The next step of the call the link task is in. -/
def advance (d : Deck) : Deck :=
  match d.link.pc with
  | .loop => d
  | .request command => d.sendRequest command
  | .revoke closing => d.beginRevoke closing
  | .revoking closing epoch => d.sendRevoke closing epoch
  | .reset =>
    { d with
      link := { d.link with requests := d.link.requests.transportReset, pc := .loop }
      progress := .waiting }
  | .revoked => d.checkRevoked

/-- What the owner task's step means for the pending request. -/
def note (d : Deck) : Progress :=
  match d.service.pc, d.progress with
  | .apply c _, .waiting => if d.link.requests.pending ∧ c = d.asked then .applied else .waiting
  | .finish _, .applied => .answered d.publisher.result
  | _, progress => progress

/-- Owner requests and revocations are commands of the link only. -/
def linkOnly : SerialService.Event → Bool
  | .stamp c => c.kind = .requestWeb || c.kind = .revokeWebTransport
  | _ => false

def step (d : Deck) : Event → Deck
  | .service (.owner i) =>
    { d with publisher := d.publisher.step (.owner i), progress := d.note }
  | .service event => if linkOnly event then d else { d with publisher := d.publisher.step event }
  | .connect =>
    if d.link.pc = .loop ∧ d.link.client = false ∧ d.link.serialTransportFenced = true then
      { d with link := { d.link with client := true } }
    else d
  | .disconnect => if d.link.pc = .loop ∧ d.link.client = true then d.drop else d
  | .ensureRevoked =>
    if d.link.pc = .loop ∧ d.link.client = false ∧ d.link.serialTransportFenced = false then
      { d with link := { d.link with pc := .revoke false } }
    else d
  | .ownerRequest sessionId requestId enable locked =>
    if d.link.pc = .loop ∧ d.link.client = true then
      d.ownerRequest sessionId requestId enable locked
    else d
  | .poll locked sent =>
    if d.link.pc = .loop ∧ d.link.client = true then d.poll locked sent else d
  | .advance => d.advance

def run (d : Deck) (events : List Event) : Deck :=
  events.foldl step d

/-- The Deck after boot. -/
def start (usbBridgeEnabled : Bool) : Deck :=
  { publisher := { service := .start usbBridgeEnabled } }

end Deck

/-! ### Runs of the tracker, with what each call has answered -/

namespace RequestTracker

/-- A call of the tracker. -/
inductive Call where
  | begin (externalRequestId : UInt64)
  | complete (serviceRequestId : UInt64)
  | transportReset

/-- A call with its answer. -/
inductive Entry where
  /-- The id is the one that `begin` writes when its result is `new` or `replay`. -/
  | begin (externalRequestId : UInt64) (result : BeginResult) (serviceRequestId : UInt64)
  /-- The id that `complete` writes when it returns true. -/
  | complete (serviceRequestId : UInt64) (externalRequestId : Option UInt64)
  | transportReset

/-- A call, and the tracker after it. -/
def answer (t : RequestTracker) : Call → Entry × RequestTracker
  | .begin externalRequestId =>
    let begun := t.begin externalRequestId
    (.begin externalRequestId begun.1 begun.2.serviceRequestId, begun.2)
  | .complete serviceRequestId =>
    let completed := t.complete serviceRequestId
    (.complete serviceRequestId (if completed.1 then some t.externalRequestId else none),
      completed.2)
  | .transportReset => (.transportReset, t.transportReset)

/-- What the calls have answered, in order. -/
def history (t : RequestTracker) : List Call → List Entry
  | [] => []
  | call :: calls => (t.answer call).1 :: history (t.answer call).2 calls

/-- The service ids that `begin` has allocated. -/
def allocated (history : List Entry) : List UInt64 :=
  history.filterMap fun
    | .begin _ .new serviceRequestId => some serviceRequestId
    | _ => none

end RequestTracker

end RlcdDeck.CompanionLink
