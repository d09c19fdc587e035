import RlcdDeck.SerialHub.Lease
import RlcdDeck.SerialHub.Ring

/-!
# The Companion's serial service

The model of `serialhub/service.go`: one Deck's serial session, the ring of its frames and the
lease on its line, kept together under one lock.

`Status` only reads and is left out, as is the clock `time.Since(service.started)` beyond the
instant it is read at.  A state text that is none of the three is refused by `Reconcile` with the
same error as a session 0.
-/

namespace RlcdDeck.SerialHub

open Counter

/-- `serialhub.State`. -/
inductive State where
  | disarmed
  | usbTX
  | webTX
  deriving DecidableEq

inductive ServiceError where
  | ring (error : RingError)
  | lease (error : LeaseError)
  | sessionBusy
  deriving DecidableEq

structure Service where
  ring : Ring
  leases : LeaseManager
  deviceId : String := ""
  state : State := .disarmed
  closed : Bool := false
  webSequence : UInt64 := 0
  started : ℤ := 0

namespace Service

/-- `NewService`, with the ring it is given or makes. -/
def new (ring : Ring) (leaseTTL started : ℤ) : Service :=
  { ring, leases := .new leaseTTL, started }

/-- `Reconcile` with a Deck that has no serial session. -/
def reconcileDisarmed (s : Service) (deviceId : String) (sessionId : UInt64) :
    Option ServiceError × Service :=
  if sessionId ≠ 0 then (some (.ring .invalidSession), s)
  else if s.deviceId ≠ deviceId then (none, s)
  else
    let active := s.ring.sessionId
    if active ≠ 0 then
      match s.ring.endSession active with
      | (some error, _) => (some (.ring error), s)
      | (none, ring) =>
        (none,
          { s with
            ring
            leases := s.leases.endSession active
            deviceId := ""
            state := .disarmed
            webSequence := 0 })
    else (none, { s with deviceId := "", state := .disarmed, webSequence := 0 })

/-- What a published state means for the lease: `usb_tx` says that no Web lease is left, unless a
request of the same session still waits for its own answer. -/
def confirmState (s : Service) (sessionId previousSessionId : UInt64) (previousState state : State) :
    Service :=
  if state = .usbTX then
    if previousSessionId = sessionId ∧ s.leases.pendingRequest.isSome then
      { s with state := previousState }
    else { s with leases := s.leases.confirmUSB sessionId }
  else s

def reconcile (s : Service) (deviceId : String) (sessionId : UInt64) (state : State) :
    Option ServiceError × Service :=
  if s.closed then (some (.ring .closed), s)
  else if deviceId = "" then (some (.ring .invalidSession), s)
  else if state = .disarmed then s.reconcileDisarmed deviceId sessionId
  else if sessionId = 0 then (some (.ring .invalidSession), s)
  else if s.deviceId ≠ "" ∧ s.deviceId ≠ deviceId then (some .sessionBusy, s)
  else
    let previousSessionId := s.ring.sessionId
    match s.ring.begin sessionId with
    | (some error, _) => (some (.ring error), s)
    | (none, ring) =>
      (none,
        confirmState
          { s with
            ring
            leases :=
              if previousSessionId ≠ 0 ∧ previousSessionId ≠ sessionId then
                s.leases.endSession previousSessionId
              else s.leases
            deviceId
            state
            webSequence := if previousSessionId ≠ sessionId then 0 else s.webSequence }
          sessionId previousSessionId s.state state)

def ingest (s : Service) (deviceId : String) (frame : Frame) : Option ServiceError × Service :=
  if s.closed then (some (.ring .closed), s)
  else if deviceId = "" ∨ deviceId ≠ s.deviceId ∨ s.state = .disarmed then
    (some (.ring .wrongSession), s)
  else
    let (error, ring) := s.ring.ingest frame
    (error.map .ring, { s with ring })

def buildWebFrame (s : Service) (clientId : String) (leaseId : UInt64) (payload : List UInt8)
    (now : ℤ) : Except ServiceError (String × Frame) × Service :=
  let lease := s.leases.status
  if s.closed then (.error (.ring .closed), s)
  else if s.deviceId = "" ∨ s.state ≠ .webTX ∨ lease.owner ≠ .web ∨ lease.clientId ≠ clientId ∨
      lease.leaseId = 0 ∨ lease.leaseId ≠ leaseId ∨ payload.length = 0 ∨
      maxPayloadBytes < payload.length then (.error (.lease .leaseNotActive), s)
  else
    let webSequence := nonzeroNext s.webSequence
    (.ok (s.deviceId,
      { channel := .webTx
        sessionId := lease.sessionId
        sequence := webSequence
        monotonicMs := UInt64.ofInt ((now - s.started).tdiv 1000000)
        payload }),
      { s with webSequence })

def acquireLease (s : Service) (clientId : String) (sessionId : UInt64) :
    Except LeaseError OwnerRequest × Service :=
  if s.closed ∨ s.deviceId = "" ∨ s.state = .disarmed ∨ s.ring.sessionId ≠ sessionId then
    (.error .leaseNotActive, s)
  else
    let (result, leases) := s.leases.acquire clientId sessionId
    (result, { s with leases })

def disconnectLease (s : Service) (clientId : String) :
    Except ServiceError OwnerRequest × Service :=
  if s.closed then (.error (.ring .closed), s)
  else
    let (result, leases) := s.leases.disconnect clientId
    (result.mapError .lease, { s with leases })

def heartbeatLease (s : Service) (clientId : String) (leaseId : UInt64) (now : ℤ) :
    Except LeaseError OwnerActivity × Service :=
  if s.closed ∨ s.state ≠ .webTX then (.error .leaseNotActive, s)
  else
    let (result, leases) := s.leases.heartbeat clientId leaseId now
    (result, { s with leases })

def expireLease (s : Service) (now : ℤ) : Option OwnerRequest × Service :=
  if s.closed then (none, s)
  else
    let (request, leases) := s.leases.expire now
    (request, { s with leases })

/-- The state an accepted or refused owner result shows; `unavailable` shows none. -/
def ownerState (state : State) : Owner → State
  | .usb => .usbTX
  | .web => .webTX
  | _ => state

def applyOwnerResult (s : Service) (deviceId : String) (result : OwnerResult) (accepted : Bool)
    (now : ℤ) : Option LeaseError × Service :=
  if s.closed ∨ deviceId = "" ∨ deviceId ≠ s.deviceId ∨ result.sessionId = 0 ∨
      result.sessionId ≠ s.ring.sessionId then (some .staleOwnerResult, s)
  else
    match if accepted then s.leases.applyOwnerResult result now
      else s.leases.applyOwnerRejection result with
    | (some error, leases) => (some error, { s with leases })
    | (none, leases) => (none, { s with leases, state := ownerState s.state result.owner })

def pendingOwnerRequest (s : Service) : Option (OwnerRequest × String) :=
  if s.closed then none else s.leases.pendingRequest

def claimOwnerRequestAttempt (s : Service) (requestId : UInt64) (minimumInterval now : ℤ) :
    Bool × Service :=
  if s.closed then (false, s)
  else
    let (claimed, leases) := s.leases.claimRequestAttempt requestId minimumInterval now
    (claimed, { s with leases })

def requireOwnerRevocation (s : Service) (deviceId : String) : Option OwnerRequest × Service :=
  if s.closed ∨ deviceId = "" ∨ deviceId ≠ s.deviceId then (none, s)
  else if s.ring.sessionId = 0 ∨ (s.state ≠ .webTX ∧ s.leases.status.owner ≠ .web ∧
      s.leases.status.owner ≠ .transitioning) then (none, s)
  else
    let (result, leases) := s.leases.requireRevocation s.ring.sessionId
    (result.toOption, { s with leases })

def markOwnerUnavailable (s : Service) : Service :=
  if s.closed then s else { s with leases := s.leases.failClosed s.ring.sessionId }

def close (s : Service) : Service :=
  if s.closed then s
  else
    { s with
      closed := true
      leases :=
        if s.ring.sessionId ≠ 0 then s.leases.endSession s.ring.sessionId else s.leases
      deviceId := ""
      state := .disarmed
      webSequence := 0
      ring := s.ring.close }

end Service

end RlcdDeck.SerialHub
