import RlcdDeck.Counter.Nonzero

/-!
# The Web TX lease

The model of `serialhub/lease.go`: which browser client may send to the target, as the Companion
sees it.  A client asks for the lease, the Deck is asked to give the line to the Web, and only the
Deck's own answer makes the lease active; a release goes the same way back.

An instant is a number of nanoseconds since Go's zero time, so `IsZero` is equality with `0`.
`now` is passed to the calls that read the clock.  The mutex is left out.
-/

namespace RlcdDeck.SerialHub

open Counter

inductive LeaseError where
  | leaseHeld
  | leaseNotActive
  | staleOwnerResult
  deriving DecidableEq

inductive Owner where
  | unavailable
  | transitioning
  | usb
  | web
  deriving DecidableEq

structure OwnerRequest where
  sessionId : UInt64
  requestId : UInt64
  enable : Bool
  deriving DecidableEq

structure OwnerActivity where
  sessionId : UInt64
  leaseId : UInt64

structure OwnerResult where
  sessionId : UInt64
  requestId : UInt64
  owner : Owner
  leaseId : UInt64

structure LeaseStatus where
  sessionId : UInt64 := 0
  clientId : String := ""
  owner : Owner
  leaseId : UInt64 := 0
  expiresAt : ℤ := 0

structure LeaseManager where
  ttl : ℤ
  nextId : UInt64 := 1
  status : LeaseStatus := { owner := .unavailable }
  pendingId : UInt64 := 0
  pendingEnable : Bool := false
  lastAttempt : ℤ := 0

/-- `10 * time.Minute`. -/
def defaultLeaseTTL : ℤ := 10 * 60 * 1000000000

namespace LeaseManager

/-- `NewLeaseManager`. -/
def new (ttl : ℤ) : LeaseManager :=
  { ttl := if ttl ≤ 0 then defaultLeaseTTL else ttl }

/-- `nextRequestLocked`. -/
def nextRequest (m : LeaseManager) (sessionId : UInt64) (enable : Bool) :
    OwnerRequest × LeaseManager :=
  (⟨sessionId, m.nextId, enable⟩,
    { m with
      nextId := nonzeroNext m.nextId
      pendingId := m.nextId
      pendingEnable := enable
      lastAttempt := 0 })

/-- No request waits for an answer any more. -/
def settle (m : LeaseManager) (status : LeaseStatus) : LeaseManager :=
  { m with status, pendingId := 0, pendingEnable := false, lastAttempt := 0 }

def acquire (m : LeaseManager) (clientId : String) (sessionId : UInt64) :
    Except LeaseError OwnerRequest × LeaseManager :=
  if clientId = "" ∨ sessionId = 0 then (.error .leaseNotActive, m)
  else if m.status.clientId ≠ "" ∨ m.pendingId ≠ 0 ∨ m.status.owner = .web then
    (.error .leaseHeld, m)
  else
    let (request, m) := m.nextRequest sessionId true
    (.ok request, { m with status := { sessionId, clientId, owner := .transitioning } })

def disconnect (m : LeaseManager) (clientId : String) :
    Except LeaseError OwnerRequest × LeaseManager :=
  if clientId = "" ∨ m.status.clientId ≠ clientId ∨ m.status.sessionId = 0 then
    (.error .leaseNotActive, m)
  else if m.pendingId ≠ 0 ∧ ¬m.pendingEnable then
    (.ok ⟨m.status.sessionId, m.pendingId, false⟩, m)
  else
    let (request, m) := m.nextRequest m.status.sessionId false
    (.ok request, { m with status := { m.status with owner := .transitioning, expiresAt := 0 } })

def heartbeat (m : LeaseManager) (clientId : String) (leaseId : UInt64) (now : ℤ) :
    Except LeaseError OwnerActivity × LeaseManager :=
  if m.status.owner ≠ .web ∨ m.status.clientId ≠ clientId ∨ m.status.leaseId = 0 ∨
      m.status.leaseId ≠ leaseId ∨ ¬now < m.status.expiresAt then (.error .leaseNotActive, m)
  else
    (.ok ⟨m.status.sessionId, m.status.leaseId⟩,
      { m with status := { m.status with expiresAt := now + m.ttl } })

def expire (m : LeaseManager) (now : ℤ) : Option OwnerRequest × LeaseManager :=
  if m.status.owner ≠ .web ∨ m.status.expiresAt = 0 ∨ now < m.status.expiresAt then (none, m)
  else
    let (request, m) := m.nextRequest m.status.sessionId false
    (some request, { m with status := { m.status with owner := .transitioning, expiresAt := 0 } })

def applyOwnerResult (m : LeaseManager) (result : OwnerResult) (now : ℤ) :
    Option LeaseError × LeaseManager :=
  if m.pendingId = 0 ∨ result.sessionId ≠ m.status.sessionId ∨ result.requestId ≠ m.pendingId then
    (some .staleOwnerResult, m)
  else if m.pendingEnable then
    if result.owner ≠ .web ∨ result.leaseId = 0 then (some .staleOwnerResult, m)
    else
      (none, m.settle { m.status with
        owner := .web
        leaseId := result.leaseId
        expiresAt := now + m.ttl })
  else if result.owner ≠ .usb ∨ result.leaseId ≠ 0 then (some .staleOwnerResult, m)
  else (none, m.settle { sessionId := result.sessionId, owner := .usb })

/-- A negative answer: the line is at USB only if the answer says so. -/
def applyOwnerRejection (m : LeaseManager) (result : OwnerResult) :
    Option LeaseError × LeaseManager :=
  if m.pendingId = 0 ∨ result.sessionId ≠ m.status.sessionId ∨ result.requestId ≠ m.pendingId then
    (some .staleOwnerResult, m)
  else if result.owner = .usb ∧ result.leaseId = 0 then
    (none, m.settle { sessionId := result.sessionId, owner := .usb })
  else (none, m.settle { sessionId := result.sessionId, owner := .unavailable })

def confirmUSB (m : LeaseManager) (sessionId : UInt64) : LeaseManager :=
  m.settle { sessionId, owner := .usb }

def requireRevocation (m : LeaseManager) (sessionId : UInt64) :
    Except LeaseError OwnerRequest × LeaseManager :=
  if sessionId = 0 then (.error .leaseNotActive, m)
  else if m.pendingId ≠ 0 ∧ ¬m.pendingEnable ∧ m.status.sessionId = sessionId then
    (.ok ⟨sessionId, m.pendingId, false⟩, m)
  else
    let (request, m) := m.nextRequest sessionId false
    (.ok request,
      { m with
        status := { m.status with
          sessionId
          owner := .transitioning
          leaseId := 0
          expiresAt := 0 } })

def failClosed (m : LeaseManager) (sessionId : UInt64) : LeaseManager :=
  m.settle { sessionId, owner := .unavailable }

def pendingRequest (m : LeaseManager) : Option (OwnerRequest × String) :=
  if m.pendingId = 0 then none
  else some (⟨m.status.sessionId, m.pendingId, m.pendingEnable⟩, m.status.clientId)

def claimRequestAttempt (m : LeaseManager) (requestId : UInt64) (minimumInterval now : ℤ) :
    Bool × LeaseManager :=
  if requestId = 0 ∨ requestId ≠ m.pendingId then (false, m)
  else if 0 < minimumInterval ∧ m.lastAttempt ≠ 0 ∧ now - m.lastAttempt < minimumInterval then
    (false, m)
  else (true, { m with lastAttempt := now })

def endSession (m : LeaseManager) (sessionId : UInt64) : LeaseManager :=
  if m.status.sessionId = sessionId then m.settle { owner := .unavailable } else m

end LeaseManager

end RlcdDeck.SerialHub
