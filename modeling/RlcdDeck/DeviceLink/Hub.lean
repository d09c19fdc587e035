import RlcdDeck.AiSnapshot.Decode
import RlcdDeck.Effects.Trace

/-!
# The device hub

`hub.go` of the package `devicelink`: the registration of connections, and the snapshot that every
connection writes.  The goroutines that serve a connection and the calls of `PublishSnapshot` take
their steps in any order.  A step is a section under the lock of the hub, a send on a signal or a
receive from one, the write of a message, or a callback.  What a connection does besides (the
heartbeats, the messages of the device) only matters when it ends the connection, which it may do at
any time.
-/

namespace RlcdDeck.DeviceLink

open AiSnapshot.Companion (parseEnvelope)
open Json (Bytes bytes)

/-- `MaxSnapshotMessageBytes`. -/
def maxSnapshotMessageBytes : ℕ := 16384

/-- The documents that `PublishSnapshot` takes. -/
def publishable (document : Bytes) : Bool :=
  document != [] && decide (document.length ≤ maxSnapshotMessageBytes) &&
    parseEnvelope document == some (bytes "snapshot.ai") &&
    (AiSnapshot.Companion.decode document).toOption.isSome

variable {Device Conn : Type} [DecidableEq Device] [DecidableEq Conn]

/-- `Hub`. -/
structure Hub (Device Conn : Type) where
  closed : Bool := false
  connections : List Conn := []
  sessions : Device → Option Conn := fun _ => none
  disconnecting : Device → Option Conn := fun _ => none
  /-- The connections that have a signal. -/
  snapshotSignals : List Conn := []
  latestSnapshot : Bytes := []
  snapshotGeneration : UInt64 := 0

/-- An entry of a map set. -/
def assign (entries : Device → Option Conn) (device : Device) (entry : Option Conn) :
    Device → Option Conn :=
  fun other => if other = device then entry else entries other

/-- `addConnection`. -/
def Hub.addConnection (hub : Hub Device Conn) (connection : Conn) : Option (Hub Device Conn) :=
  if hub.closed then none
  else some { hub with connections := connection :: hub.connections }

/-- `reserve`. -/
def Hub.reserve (hub : Hub Device Conn) (device : Device) (connection : Conn) :
    Option (Hub Device Conn) :=
  if hub.closed then none
  else if (hub.sessions device).isSome then none
  else if (hub.disconnecting device).isSome then none
  else some { hub with
    sessions := assign hub.sessions device (some connection)
    snapshotSignals := connection :: hub.snapshotSignals }

/-- `removeConnection` up to the callback, and whether the session was the connection's. -/
def Hub.removeConnection (hub : Hub Device Conn) (device : Device) (connection : Conn) :
    Hub Device Conn × Bool :=
  let connections := hub.connections.filter (· ≠ connection)
  let snapshotSignals := hub.snapshotSignals.filter (· ≠ connection)
  if hub.sessions device = some connection then
    ({ hub with
      connections := connections
      sessions := assign hub.sessions device none
      disconnecting := assign hub.disconnecting device (some connection)
      snapshotSignals := snapshotSignals }, true)
  else ({ hub with connections := connections, snapshotSignals := snapshotSignals }, false)

/-- `removeConnection` after the callback. -/
def Hub.release (hub : Hub Device Conn) (device : Device) (connection : Conn) : Hub Device Conn :=
  if hub.disconnecting device = some connection then
    { hub with disconnecting := assign hub.disconnecting device none }
  else hub

/-- `PublishSnapshot` under the lock, and the signals that it then sends on. -/
def Hub.publishSnapshot (hub : Hub Device Conn) (document : Bytes) :
    Option (Hub Device Conn × List Conn) :=
  if !publishable document then none
  else if hub.closed then none
  else some ({ hub with
    latestSnapshot := document
    snapshotGeneration := hub.snapshotGeneration + 1 }, hub.snapshotSignals)

/-- `writeLatestSnapshot` under the lock: the generation and the document to write, if any. -/
def Hub.writeLatestSnapshot (hub : Hub Device Conn) (previousGeneration : UInt64) :
    Option (UInt64 × Bytes) :=
  if hub.snapshotGeneration = previousGeneration ∨ hub.latestSnapshot = [] then none
  else some (hub.snapshotGeneration, hub.latestSnapshot)

/-- `Close` under the lock. -/
def Hub.close (hub : Hub Device Conn) : Hub Device Conn :=
  if hub.closed then hub else { hub with closed := true, latestSnapshot := [] }

/-- Where the goroutine of a connection is in `ServeHTTP`.  The generations are the one that
`serveConnection` wrote last and the one that it is writing. -/
inductive Phase where
  | absent
  /-- Waiting for the hello. -/
  | accepted
  /-- Between `reserve` and the read of the signal. -/
  | reserved
  /-- At the lock of `writeLatestSnapshot`. -/
  | checking (snapshotGeneration : UInt64)
  | writing (snapshotGeneration generation : UInt64) (document : Bytes)
  /-- In the loop of `serveConnection`. -/
  | idle (snapshotGeneration : UInt64)
  /-- `serveConnection` has returned. -/
  | leaving
  /-- In `onDisconnect`. -/
  | disconnecting
  | disconnected
  | gone
  deriving DecidableEq

/-- The hub with the goroutines that use it. -/
structure System (Device Conn : Type) where
  hub : Hub Device Conn := {}
  phase : Conn → Phase := fun _ => .absent
  /-- Whether the signal of a connection holds its value. -/
  signalled : Conn → Bool := fun _ => false
  /-- The signals that the calls of `PublishSnapshot` have yet to send on. -/
  publishing : List (List Conn) := []

inductive Event (Conn : Type) where
  /-- `addConnection`, with its result. -/
  | accept (connection : Conn)
  | refuseAccept (connection : Conn)
  /-- `reserve`, with its result. -/
  | reserve (connection : Conn)
  | refuse (connection : Conn)
  /-- `snapshotSignal`, after the messages to a new device. -/
  | subscribe (connection : Conn)
  /-- `writeLatestSnapshot` under the lock. -/
  | check (connection : Conn)
  | wrote (connection : Conn) (written : Bool)
  | receive (connection : Conn)
  /-- `serveConnection` returns. -/
  | leave (connection : Conn)
  | remove (connection : Conn)
  /-- `onDisconnect` has returned. -/
  | callback (connection : Conn)
  | release (connection : Conn)
  /-- `PublishSnapshot` under the lock. -/
  | publish (document : Bytes)
  /-- A send of the call that is at this place of `publishing`. -/
  | send (call : ℕ) (connection : Conn)
  | close
  deriving DecidableEq

/-- The phase of a connection set. -/
def System.enter (s : System Device Conn) (connection : Conn) (phase : Phase) : System Device Conn :=
  { s with phase := fun other => if other = connection then phase else s.phase other }

/-- The device link, where `deviceId` is the authenticated device of a connection. -/
def step (deviceId : Conn → Device) (s : System Device Conn) :
    Event Conn → Option (System Device Conn)
  | .accept connection =>
    if s.phase connection = .absent then
      (s.hub.addConnection connection).map fun hub => { s with hub := hub }.enter connection .accepted
    else none
  | .refuseAccept connection =>
    if s.phase connection = .absent ∧ (s.hub.addConnection connection).isNone then
      some (s.enter connection .gone)
    else none
  | .reserve connection =>
    if s.phase connection = .accepted then
      (s.hub.reserve (deviceId connection) connection).map fun hub =>
        { s with hub := hub }.enter connection .reserved
    else none
  | .refuse connection =>
    if s.phase connection = .accepted ∧ (s.hub.reserve (deviceId connection) connection).isNone then
      some (s.enter connection .leaving)
    else none
  | .subscribe connection =>
    if s.phase connection = .reserved then some (s.enter connection (.checking 0)) else none
  | .check connection =>
    match s.phase connection with
    | .checking previous =>
      match s.hub.writeLatestSnapshot previous with
      | none => some (s.enter connection (.idle previous))
      | some (generation, document) => some (s.enter connection (.writing previous generation document))
    | _ => none
  | .wrote connection written =>
    match s.phase connection with
    | .writing _ generation _ =>
      some (s.enter connection (if written then .idle generation else .leaving))
    | _ => none
  | .receive connection =>
    match s.phase connection with
    | .idle previous =>
      if s.signalled connection then
        some ({ s with
          signalled := fun other => if other = connection then false else s.signalled other }.enter
            connection (.checking previous))
      else none
    | _ => none
  | .leave connection =>
    match s.phase connection with
    | .accepted | .reserved | .idle _ => some (s.enter connection .leaving)
    | _ => none
  | .remove connection =>
    if s.phase connection = .leaving then
      let (hub, removed) := s.hub.removeConnection (deviceId connection) connection
      some ({ s with hub := hub }.enter connection (if removed then .disconnecting else .gone))
    else none
  | .callback connection =>
    if s.phase connection = .disconnecting then some (s.enter connection .disconnected) else none
  | .release connection =>
    if s.phase connection = .disconnected then
      some ({ s with hub := s.hub.release (deviceId connection) connection }.enter connection .gone)
    else none
  | .publish document =>
    (s.hub.publishSnapshot document).map fun (hub, signals) =>
      { s with hub := hub, publishing := s.publishing ++ [signals] }
  | .send call connection =>
    match s.publishing[call]? with
    | none => none
    | some signals =>
      if connection ∈ signals then
        some { s with
          signalled := fun other => if other = connection then true else s.signalled other
          publishing := s.publishing.set call (signals.filter (· ≠ connection)) }
      else none
  | .close => some { s with hub := s.hub.close }

/-- In `serveConnection`, after `reserve`. -/
def Phase.served : Phase → Bool
  | .reserved | .checking _ | .writing _ _ _ | .idle _ => true
  | _ => false

end RlcdDeck.DeviceLink
