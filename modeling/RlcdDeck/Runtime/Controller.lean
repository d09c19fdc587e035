import RlcdDeck.Effects.Trace

/-!
# The controller of the Runtime

The model of `Controller` in `runtime/controller.go`: any number of calls of `Start` and `Stop`, and
the goroutine of each Runtime.  A step is what one of them does under the mutex, or one operation of
it outside.  A Runtime, its context and its channel `done` are named after the `Start` that made
them, as is the channel `startDone`.

The factory, `Runtime.Run`, `Runtime.Status` and the contexts of `Stop` belong to the environment: what
they return is part of the event.  Of a status only the fields that the controller sets or reads are
there.
-/

namespace RlcdDeck.Runtime

/-- `State`. -/
inductive RuntimeState where
  | new
  | ready
  | stopped

structure Status where
  state : RuntimeState
  lastError : String := ""
  connectedDecks : ℕ := 0

/-- Where a call of `Start` stands.  In `building` it is in the factory, and `built` holds the error
of the factory; in `checking` it has seen a stopped status, with the error in it. -/
inductive StartPoint where
  | called
  | building
  | built (error : Option String)
  | waiting
  | checking (lastError : String)
  | returned (error : Option String)

/-- Where the goroutine of a Runtime stands. -/
inductive RunPoint where
  | spawned
  /-- In `Run`. -/
  | running
  | exited (error : Option String)
  /-- The controller has no application any more. -/
  | cleared (error : Option String)
  | sent
  | ended
  deriving DecidableEq

/-- Where a call of `Stop` stands.  A channel that is nil is `none`. -/
inductive StopPoint where
  | called
  | awaitingStart (startDone : Option ℕ)
  | cancelling (runtime : ℕ)
  | awaitingRun (runtime : ℕ)
  | failed (error : String)
  | returned (error : Option String)

def errControllerStarting : String := "Companion runtime is starting"
def errControllerReady : String := "Companion runtime is already running"

/-- The controller, with the calls and the goroutines.  Its `application`, `cancel` and `done` are
set and cleared together. -/
structure Controller where
  application : Option ℕ := none
  starting : Bool := false
  startDone : Option ℕ := none
  stopStarting : Bool := false
  stopRuntime : Bool := false
  lastStatus : Status := { state := .stopped }
  /-- Which `startDone` are closed. -/
  startsDone : ℕ → Bool := fun _ => false
  /-- What is in a channel `done`. -/
  results : ℕ → Option (Option String) := fun _ => none
  cancelled : ℕ → Bool := fun _ => false
  starts : ℕ → Option StartPoint := fun _ => none
  runs : ℕ → Option RunPoint := fun _ => none
  stops : ℕ → Option StopPoint := fun _ => none

namespace Controller

def goStart (c : Controller) (i : ℕ) (point : StartPoint) : Controller :=
  { c with starts := Function.update c.starts i (some point) }

def goRun (c : Controller) (k : ℕ) (point : RunPoint) : Controller :=
  { c with runs := Function.update c.runs k (some point) }

def goStop (c : Controller) (j : ℕ) (point : StopPoint) : Controller :=
  { c with stops := Function.update c.stops j (some point) }

/-! ### `Start` -/

/-- `Start` until it calls the factory. -/
def startLock (c : Controller) (i : ℕ) : Option Controller :=
  match c.starts i with
  | some .called =>
    some (
      if c.starting then c.goStart i (.returned (some errControllerStarting))
      else if c.application.isSome then c.goStart i (.returned (some errControllerReady))
      else
        { c.goStart i .building with
          starting := true
          startDone := some i
          stopStarting := false
          stopRuntime := false
          lastStatus := { c.lastStatus with lastError := "" } })
  | _ => none

/-- The factory returns. -/
def build (c : Controller) (i : ℕ) (error : Option String) : Option Controller :=
  match c.starts i with
  | some .building => some (c.goStart i (.built error))
  | _ => none

/-- What `Start` does under the mutex after the factory, and the start of the goroutine. -/
def startBuilt (c : Controller) (i : ℕ) : Option Controller :=
  match c.starts i with
  | some (.built error) =>
    let next := { c with
      starting := false
      stopStarting := false
      startDone := none
      startsDone := Function.update c.startsDone i true }
    some (
      match error with
      | some error =>
        { next.goStart i (.returned (some error)) with
          lastStatus := { c.lastStatus with lastError := error } }
      | none =>
        if c.stopStarting then next.goStart i (.returned none)
        else { (next.goStart i .waiting).goRun i .spawned with application := some i })
  | _ => none

/-- `Status`, with what the application reports. -/
def status (c : Controller) (reported : Status) : Status :=
  if c.application.isSome then reported
  else if c.starting then { c.lastStatus with state := .new }
  else { c.lastStatus with state := .stopped, connectedDecks := 0 }

/-- `Start` looks at the status. -/
def poll (c : Controller) (i : ℕ) (reported : Status) : Option Controller :=
  match c.starts i with
  | some .waiting =>
    some (
      match (c.status reported).state with
      | .ready => c.goStart i (.returned none)
      | .stopped => c.goStart i (.checking (c.status reported).lastError)
      | .new => c)
  | _ => none

/-- `Start` after it has seen a stopped status. -/
def check (c : Controller) (i : ℕ) : Option Controller :=
  match c.starts i with
  | some (.checking lastError) =>
    some (c.goStart i (.returned (
      if c.stopRuntime then none
      else if lastError ≠ "" then some lastError
      else some "Companion runtime stopped before becoming ready")))
  | _ => none

/-- The deadline of `Start` passes. -/
def expire (c : Controller) (i : ℕ) : Option Controller :=
  match c.starts i with
  | some .waiting =>
    some (c.goStart i (.returned (some "Companion runtime did not become ready within 5 seconds")))
  | _ => none

/-! ### The goroutine of a Runtime -/

/-- `Run` is called. -/
def enterRun (c : Controller) (k : ℕ) : Option Controller :=
  match c.runs k with
  | some .spawned => some (c.goRun k .running)
  | _ => none

/-- `Run` returns. -/
def exitRun (c : Controller) (k : ℕ) (error : Option String) : Option Controller :=
  match c.runs k with
  | some .running => some (c.goRun k (.exited error))
  | _ => none

/-- What the goroutine does under the mutex, with the last status of the Runtime. -/
def clear (c : Controller) (k : ℕ) (finalStatus : Status) : Option Controller :=
  match c.runs k with
  | some (.exited error) =>
    some { c.goRun k (.cleared error) with
      application := none
      lastStatus := { finalStatus with lastError := error.getD finalStatus.lastError } }
  | _ => none

/-- `done <- runErr`; the channel has room for it. -/
def sendDone (c : Controller) (k : ℕ) : Option Controller :=
  match c.runs k with
  | some (.cleared error) =>
    some { c.goRun k .sent with results := Function.update c.results k (some error) }
  | _ => none

/-- `close(done)`. -/
def closeDone (c : Controller) (k : ℕ) : Option Controller :=
  match c.runs k with
  | some .sent => some (c.goRun k .ended)
  | _ => none

/-! ### `Stop` -/

/-- What `Stop` does under the mutex. -/
def stopLock (c : Controller) (j : ℕ) : Option Controller :=
  match c.stops j with
  | some .called =>
    some (
      if c.starting then { c.goStop j (.awaitingStart c.startDone) with stopStarting := true }
      else
        match c.application with
        | none => c.goStop j (.returned none)
        | some k => { c.goStop j (.cancelling k) with stopRuntime := true })
  | _ => none

/-- `cancel()`. -/
def cancel (c : Controller) (j : ℕ) : Option Controller :=
  match c.stops j with
  | some (.cancelling k) =>
    some { c.goStop j (.awaitingRun k) with cancelled := Function.update c.cancelled k true }
  | _ => none

/-- The channel of a `select` of `Stop` is ready. -/
def receive (c : Controller) (j : ℕ) : Option Controller :=
  match c.stops j with
  | some (.awaitingStart (some i)) =>
    if c.startsDone i then some (c.goStop j (.returned none)) else none
  | some (.awaitingRun k) =>
    match c.results k with
    | some error =>
      some { c.goStop j (error.elim (.returned none) .failed) with
        results := Function.update c.results k none }
    | none => if c.runs k = some .ended then some (c.goStop j (.returned none)) else none
  | _ => none

/-- `Stop` records the error that it has received. -/
def recordError (c : Controller) (j : ℕ) : Option Controller :=
  match c.stops j with
  | some (.failed error) =>
    some { c.goStop j (.returned (some error)) with
      lastStatus := { c.lastStatus with lastError := error } }
  | _ => none

/-- The context of a `select` of `Stop` is done. -/
def giveUp (c : Controller) (j : ℕ) (error : String) : Option Controller :=
  match c.stops j with
  | some (.awaitingStart _) | some (.awaitingRun _) => some (c.goStop j (.returned (some error)))
  | _ => none

/-! ### Runs -/

inductive Event where
  | start (i : ℕ)
  | startLock (i : ℕ)
  | build (i : ℕ) (error : Option String)
  | startBuilt (i : ℕ)
  | poll (i : ℕ) (reported : Status)
  | check (i : ℕ)
  | expire (i : ℕ)
  | enterRun (k : ℕ)
  | exitRun (k : ℕ) (error : Option String)
  | clear (k : ℕ) (finalStatus : Status)
  | sendDone (k : ℕ)
  | closeDone (k : ℕ)
  | stop (j : ℕ)
  | stopLock (j : ℕ)
  | cancel (j : ℕ)
  | receive (j : ℕ)
  | recordError (j : ℕ)
  | giveUp (j : ℕ) (error : String)

/-- The controller after one step, `none` when it cannot be taken. -/
def step (c : Controller) : Event → Option Controller
  | .start i => if c.starts i = none then some (c.goStart i .called) else none
  | .startLock i => c.startLock i
  | .build i error => c.build i error
  | .startBuilt i => c.startBuilt i
  | .poll i reported => c.poll i reported
  | .check i => c.check i
  | .expire i => c.expire i
  | .enterRun k => c.enterRun k
  | .exitRun k error => c.exitRun k error
  | .clear k finalStatus => c.clear k finalStatus
  | .sendDone k => c.sendDone k
  | .closeDone k => c.closeDone k
  | .stop j => if c.stops j = none then some (c.goStop j .called) else none
  | .stopLock j => c.stopLock j
  | .cancel j => c.cancel j
  | .receive j => c.receive j
  | .recordError j => c.recordError j
  | .giveUp j error => c.giveUp j error

end Controller

end RlcdDeck.Runtime
