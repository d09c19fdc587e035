import RlcdDeck.Bytes.Hex
import RlcdDeck.CodexAppServer.RpcClient
import Mathlib.Data.Finset.Card
import Mathlib.Data.List.AList
import Mathlib.Data.List.Sort

/-!
# The owned threads of the App Server collector

The model of `codexappserver/collector.go`: `Run` and `runConnection` with the notifications that
they handle, and any number of calls of `LoadThread`.  A step is what one goroutine does under the
mutex, or a document that the read loop takes from the connection.  The read loop numbers the
documents, and `resumes` and `unloads` keep what they said; the code keeps no such record.

A provider is any value, since the collector only passes it on.  The fields of a session that are the
same for every session of the collector are left out, and so are the notifications of rate limits,
after which `runConnection` publishes as it does at the start.
-/

namespace RlcdDeck.CodexAppServer

open Bytes (encodeHex)

/-- A text, as its bytes. -/
abbrev Text := List UInt8

def maximumThreadIdBytes : ℕ := 512

def maximumOwnedThreads : ℕ := 16

/-- `sessionidentity.Codex`: `codex_` and eight bytes of the digest. -/
def sessionIdentity (sha256 : List UInt8 → List UInt8) (upstreamId : Text) : Text :=
  [99, 111, 100, 101, 120, 95] ++ encodeHex ((sha256 upstreamId).take 8)

structure RawThreadStatus where
  type : String
  activeFlags : Option (List String)
  deriving DecidableEq

structure RawThreadStatusNotification where
  threadId : Text
  status : RawThreadStatus

inductive SessionState where
  | running
  | waitingApproval
  | waitingInput
  | completed
  | failed
  deriving DecidableEq

structure Session where
  id : Text
  state : SessionState
  /-- In seconds, as `canonicalTime` writes it. -/
  lastActivityAt : ℕ
  deriving DecidableEq

/-- What a publisher is given. -/
structure Update (π : Type) where
  provider : π
  sessions : List Session
  deriving DecidableEq

/-- The loop of `normalizeThreadState` over the flags of an active thread. -/
def normalizeFlags (state : SessionState) : List String → Option SessionState
  | [] => some state
  | flag :: flags =>
    if flag = "waitingOnApproval" then some .waitingApproval
    else if flag = "waitingOnUserInput" then normalizeFlags .waitingInput flags
    else none

/-- `normalizeThreadState`, `none` for `ErrSchemaChanged`. -/
def normalizeThreadState (status : RawThreadStatus) : Option SessionState :=
  if status.type = "active" then
    match status.activeFlags with
    | none => none
    | some flags => normalizeFlags .running flags
  else if status.type = "idle" then
    if status.activeFlags.isSome then none else some .completed
  else if status.type = "systemError" then
    if status.activeFlags.isSome then none else some .failed
  else none

/-- What `acceptThreadStatus` returns. -/
inductive Accepted (π : Type) where
  | schemaChanged
  | unchanged
  | changed (update : Update π)

inductive LoadError where
  | invalidThread
  | unavailable
  | threadLimit
  | schemaChanged
  | processExited
  /-- The error of `Call`. -/
  | call
  deriving DecidableEq

/-- How `LoadThread` begins: it returns, or it has its entry and calls `thread/resume` of a client. -/
inductive Begun where
  | returns (error : Option LoadError)
  | calls (client : ℕ)
  deriving DecidableEq

/-- A `thread` of a response, as far as it can be decoded. -/
structure ResumedThread where
  id : Option Text
  status : Option RawThreadStatus

/-- A `Collector`; clients are numbered in the order in which they are made. -/
structure Collector (π : Type) where
  started : Bool := false
  client : Option ℕ := none
  provider : π
  ownedThreads : Finset Text := ∅
  pendingLoads : AList (fun _ : Text => ℕ) := ∅
  sessions : AList (fun _ : Text => Session) := ∅

namespace Collector

variable {π : Type}

/-- `sortSessions`. -/
def sortSessions (sessions : List Session) : List Session :=
  sessions.insertionSort fun a b => ¬b.id < a.id

/-- `updateLocked`. -/
def updateLocked (collector : Collector π) : Update π where
  provider := collector.provider
  sessions := sortSessions (collector.sessions.entries.map fun entry => entry.2)

/-- `clearSessionsLocked`. -/
def clearSessionsLocked (collector : Collector π) : Collector π :=
  { collector with ownedThreads := ∅, pendingLoads := ∅, sessions := ∅ }

/-! ### `acceptThreadStatus` -/

/-- A thread that is not loaded any more. -/
def unload (collector : Collector π) (threadId : Text) : Collector π :=
  { collector with
    ownedThreads := collector.ownedThreads.erase threadId
    sessions := collector.sessions.erase threadId }

def acceptThreadStatus (sha256 : List UInt8 → List UInt8) (collector : Collector π) (now : ℕ)
    (document : Option RawThreadStatusNotification) : Accepted π × Collector π :=
  match document with
  | none => (.schemaChanged, collector)
  | some event =>
    if event.threadId = [] then (.schemaChanged, collector)
    else if event.threadId ∉ collector.ownedThreads then (.unchanged, collector)
    else if event.status.type = "notLoaded" then
      if event.status.activeFlags.isSome then (.schemaChanged, collector)
      else
        let next := collector.unload event.threadId
        (if event.threadId ∈ collector.sessions then .changed next.updateLocked else .unchanged, next)
    else
      match normalizeThreadState event.status with
      | none => (.schemaChanged, collector)
      | some state =>
        let session : Session :=
          ⟨sessionIdentity sha256 event.threadId, state, now / 1000000000⟩
        let next := { collector with
          sessions := collector.sessions.insert event.threadId session }
        (.changed next.updateLocked, next)

/-! ### `LoadThread` -/

/-- `LoadThread` until its call. -/
def beginLoad (collector : Collector π) (threadId : Text) : Begun × Collector π :=
  if threadId = [] ∨ maximumThreadIdBytes < threadId.length then
    (.returns (some .invalidThread), collector)
  else
    match collector.client with
    | none => (.returns (some .unavailable), collector)
    | some client =>
      if threadId ∈ collector.ownedThreads then (.returns none, collector)
      else if threadId ∈ collector.pendingLoads then (.returns (some .unavailable), collector)
      else if maximumOwnedThreads ≤
          collector.ownedThreads.card + collector.pendingLoads.entries.length then
        (.returns (some .threadLimit), collector)
      else
        (.calls client,
          { collector with pendingLoads := collector.pendingLoads.insert threadId client })

/-- The checks on the response of `thread/resume`; every failure is `ErrSchemaChanged`. -/
def acceptsResume (threadId : Text) : Option ResumedThread → Bool
  | none => false
  | some thread =>
    thread.id = some threadId &&
      thread.status.any fun status =>
        status.type ≠ "notLoaded" && (normalizeThreadState status).isSome

/-- The entry of a call of `LoadThread`, unless it is another's. -/
def forgetLoad (collector : Collector π) (threadId : Text) (client : ℕ) : Collector π :=
  if collector.pendingLoads.lookup threadId = some client then
    { collector with pendingLoads := collector.pendingLoads.erase threadId }
  else collector

/-- The end of `LoadThread` after a resume that it accepts. -/
def commitLoad (collector : Collector π) (threadId : Text) (client : ℕ) :
    Option LoadError × Collector π :=
  if collector.client ≠ some client then (some .processExited, collector)
  else
    (none,
      { collector with
        ownedThreads := insert threadId collector.ownedThreads }.forgetLoad threadId client)

end Collector

/-! ### Runs -/

/-- Where a call of `LoadThread` stands. -/
inductive LoadPhase where
  | calling
  /-- Its resume is accepted; the response was the document `number`. -/
  | resumed (number : ℕ)
  /-- It has only its deferred function to run. -/
  | ending (error : Option LoadError)
  | returned (error : Option LoadError)

/-- A call of `LoadThread` that has an entry, and the client whose connection it uses. -/
structure Load where
  threadId : Text
  client : ℕ
  phase : LoadPhase

/-- Where `Run` stands. -/
inductive Runner where
  | stopped
  | disconnected
  /-- The client exists, and `initialize` has not succeeded. -/
  | connected (client : ℕ)
  | serving (client : ℕ)
  /-- `runConnection` returns. -/
  | leaving (client : ℕ)

/-- What a document said of a thread, on the connection of a client. -/
structure Report where
  threadId : Text
  client : ℕ
  number : ℕ
  deriving DecidableEq

structure System (π : Type) where
  collector : Collector π
  runner : Runner := .stopped
  clients : ℕ := 0
  documents : ℕ := 0
  /-- The channel of notifications, with the numbers of the documents. -/
  notifications : List (ℕ × Option RawThreadStatusNotification) := []
  loads : List Load := []
  published : List (Update π) := []
  /-- The resumes that were accepted. -/
  resumes : List Report := []
  /-- The notifications of a thread that is not loaded that `acceptThreadStatus` was given. -/
  unloads : List Report := []

namespace System

variable {π : Type}

/-- A collector that was just made. -/
def new (provider : π) : System π := { collector := { provider } }

def publish (system : System π) (update : Update π) : System π :=
  { system with published := system.published ++ [update] }

/-! #### `Run` and `runConnection` -/

def run (system : System π) : Option (System π) :=
  match system.runner with
  | .stopped =>
    some { system with
      runner := .disconnected
      collector := { system.collector with started := true } }
  | _ => none

/-- `newRPCClient`. -/
def connect (system : System π) : Option (System π) :=
  match system.runner with
  | .disconnected =>
    some { system with
      runner := .connected system.clients
      clients := system.clients + 1
      notifications := [] }
  | _ => none

/-- `initialize` has succeeded. -/
def initialized (system : System π) : Option (System π) :=
  match system.runner with
  | .connected client =>
    some { system with
      runner := .serving client
      collector := { system.collector with client := some client } }
  | _ => none

/-- A provider was collected. -/
def collected (system : System π) (provider : π) : Option (System π) :=
  match system.runner with
  | .serving _ =>
    let collector := { system.collector with provider }
    some ({ system with collector }.publish collector.updateLocked)
  | _ => none

/-- The thread that a notification says is not loaded, when it is well formed. -/
def unloaded : Option RawThreadStatusNotification → Option Text
  | some event =>
    if event.threadId ≠ [] ∧ event.status = ⟨"notLoaded", none⟩ then some event.threadId else none
  | none => none

/-- The record of a notification that is handled. -/
def report (system : System π) (client number : ℕ)
    (document : Option RawThreadStatusNotification) : System π :=
  match unloaded document with
  | some threadId => { system with unloads := ⟨threadId, client, number⟩ :: system.unloads }
  | none => system

/-- `runConnection` takes a notification of the status of a thread. -/
def handle (sha256 : List UInt8 → List UInt8) (system : System π) (now : ℕ) :
    Option (System π) :=
  match system.runner, system.notifications with
  | .serving client, (number, document) :: notifications =>
    let (accepted, collector) := system.collector.acceptThreadStatus sha256 now document
    let next := { system with collector, notifications }.report client number document
    match accepted with
    | .schemaChanged => some { next with runner := .leaving client }
    | .unchanged => some next
    | .changed update => some (next.publish update)
  | _, _ => none

/-- `runConnection` returns for another reason: the context, the connection or the publisher. -/
def leave (system : System π) : Option (System π) :=
  match system.runner with
  | .connected client => some { system with runner := .leaving client }
  | .serving client => some { system with runner := .leaving client }
  | _ => none

/-- The deferred function of `runConnection`. -/
def disconnect (system : System π) : Option (System π) :=
  match system.runner with
  | .leaving client =>
    let current := if system.collector.client = some client then none else system.collector.client
    some { system with
      runner := .disconnected
      collector := { system.collector with client := current }.clearSessionsLocked }
  | _ => none

/-- The deferred function of `Run`. -/
def exit (system : System π) : Option (System π) :=
  match system.runner with
  | .disconnected =>
    some { system with
      runner := .stopped
      collector := { system.collector with client := none, started := false }.clearSessionsLocked }
  | _ => none

/-! #### The read loop -/

/-- A notification of the status of a thread comes; a channel that is full ends the connection. -/
def notify (system : System π) (document : Option RawThreadStatusNotification) :
    Option (System π) :=
  match system.runner with
  | .connected _ | .serving _ =>
    if system.notifications.length < notificationCapacity then
      some { system with
        documents := system.documents + 1
        notifications := system.notifications ++ [(system.documents, document)] }
    else none
  | _ => none

/-- The response of a resume comes, and `Call` returns it. -/
def respond (system : System π) (key : ℕ) (response : Option ResumedThread) : Option (System π) :=
  match system.loads[key]? with
  | some ⟨threadId, client, .calling⟩ =>
    if Collector.acceptsResume threadId response then
      some { system with
        documents := system.documents + 1
        loads := system.loads.set key ⟨threadId, client, .resumed system.documents⟩
        resumes := ⟨threadId, client, system.documents⟩ :: system.resumes }
    else
      some { system with
        documents := system.documents + 1
        loads := system.loads.set key ⟨threadId, client, .ending (some .schemaChanged)⟩ }
  | _ => none

/-! #### `LoadThread` -/

/-- `LoadThread` until its call; one that returns at once changes nothing. -/
def load (system : System π) (threadId : Text) : System π :=
  match system.collector.beginLoad threadId with
  | (.returns _, _) => system
  | (.calls client, collector) =>
    { system with collector, loads := system.loads ++ [⟨threadId, client, .calling⟩] }

/-- `Call` returns an error. -/
def fail (system : System π) (key : ℕ) : Option (System π) :=
  match system.loads[key]? with
  | some ⟨threadId, client, .calling⟩ | some ⟨threadId, client, .resumed _⟩ =>
    some { system with loads := system.loads.set key ⟨threadId, client, .ending (some .call)⟩ }
  | _ => none

/-- The thread of an accepted resume enters the owned set, if its client is still there. -/
def commit (system : System π) (key : ℕ) : Option (System π) :=
  match system.loads[key]? with
  | some ⟨threadId, client, .resumed _⟩ =>
    let (error, collector) := system.collector.commitLoad threadId client
    some { system with
      collector
      loads := system.loads.set key ⟨threadId, client, .ending error⟩ }
  | _ => none

/-- The deferred function of `LoadThread`. -/
def finish (system : System π) (key : ℕ) : Option (System π) :=
  match system.loads[key]? with
  | some ⟨threadId, client, .ending error⟩ =>
    some { system with
      collector := system.collector.forgetLoad threadId client
      loads := system.loads.set key ⟨threadId, client, .returned error⟩ }
  | _ => none

inductive Event (π : Type) where
  | run
  | connect
  | initialized
  | collected (provider : π)
  | handle (now : ℕ)
  | leave
  | disconnect
  | exit
  | notify (document : Option RawThreadStatusNotification)
  | respond (key : ℕ) (response : Option ResumedThread)
  | load (threadId : Text)
  | fail (key : ℕ)
  | commit (key : ℕ)
  | finish (key : ℕ)

/-- The system after one step, `none` when it cannot be taken. -/
def step (sha256 : List UInt8 → List UInt8) (system : System π) : Event π → Option (System π)
  | .run => system.run
  | .connect => system.connect
  | .initialized => system.initialized
  | .collected provider => system.collected provider
  | .handle now => system.handle sha256 now
  | .leave => system.leave
  | .disconnect => system.disconnect
  | .exit => system.exit
  | .notify document => system.notify document
  | .respond key response => system.respond key response
  | .load threadId => some (system.load threadId)
  | .fail key => system.fail key
  | .commit key => system.commit key
  | .finish key => system.finish key

end System

end RlcdDeck.CodexAppServer
