import RlcdDeck.Effects.Trace
import RlcdDeck.History.Database

/-!
# The history store

`internal/history/store.go` after `Open`: any number of calls of `Capture`, `Flush`, `SetEnabled`,
`Clear` and `Close`, and the one writer.  A call makes one access to what is shared a step, so that
all interleavings of the atomic reads, of the lock and of the queue are runs; `Store.step` takes
one step of a call or of the writer.  What the code does not decide (whether a context is done,
when the ticker fires, the time, what fails in the database) is part of the `Event`.

`epoch` counts the advances of the generation without a bound, `admissions` is the epoch in which a
capture read the generation, and `outcomes` is what the writer did with it.  The theorems speak of
them; no definition branches on them.
-/

namespace RlcdDeck.History

open Effects

/-! ### The calls -/

/-- The errors of the store. -/
inductive Error where
  | closed
  | busy
  | invalid
  /-- An error of the caller's context. -/
  | context
  | database (error : DatabaseError)
  deriving DecidableEq

/-- What a capture returns; `skipped` and `queued` are both `nil`. -/
inductive CaptureResult where
  | skipped
  | queued
  | failed (error : Error)
  deriving DecidableEq

/-- Where a call of `Capture` stands.  From `locked` to `leaving` it holds the read lock. -/
inductive CapturePoint where
  | invoked
  | admitted (generation : UInt64)
  | passed (generation : UInt64)
  | locked (generation : UInt64)
  | opened (generation : UInt64)
  | recording (generation : UInt64)
  | leaving (result : CaptureResult)
  | returned (result : CaptureResult)
  deriving DecidableEq

/-- The commands that go through `synchronizeCommand`. -/
inductive Kind where
  | flush
  | setEnabled (enabled : Bool)
  | clear
  deriving DecidableEq

/-- Where a call of `synchronizeCommand` stands; from `locked` to `leaving` it holds the read
lock. -/
inductive CommandPoint where
  | invoked
  | locked
  | opened
  | waiting
  | leaving (error : Option Error)
  | returned (error : Option Error)
  deriving DecidableEq

/-- Where a call of `Close` stands; at `locked` it holds the write lock, and a `draining` one waits
for `done`. -/
inductive ClosePoint where
  | invoked
  | locked
  | waiting
  | draining
  | returned (error : Option Error)
  deriving DecidableEq

inductive Call where
  | capture (provider : Provider) (observedAt : Time) (point : CapturePoint)
  | command (kind : Kind) (point : CommandPoint)
  | close (point : ClosePoint)
  deriving DecidableEq

/-- What a caller asks for. -/
inductive Request where
  | capture (provider : Provider) (observedAt : Time)
  | command (kind : Kind)
  | close

def Request.call : Request → Call
  | .capture provider observedAt => .capture provider observedAt .invoked
  | .command kind => .command kind .invoked
  | .close => .close .invoked

/-! ### The writer -/

/-- `storeCommand`, with the call that sent it. -/
inductive Command where
  | capture (caller : ℕ) (provider : Provider) (observedAt : Time) (generation : UInt64)
  | control (caller : ℕ) (kind : Kind)
  | close (caller : ℕ)
  deriving DecidableEq

def Command.caller : Command → ℕ
  | .capture caller .. => caller
  | .control caller _ => caller
  | .close caller => caller

/-- Where `runWriter` stands: in the first `select`, in the second one, with a command, after the
transaction of `SetEnabled` or the statement of `Clear`, after the generation was advanced for
`SetEnabled`, or returned. -/
inductive Writer where
  | polling
  | blocked
  | executing (command : Command)
  | advancing (caller : ℕ) (enabled : Bool)
  | enabling (caller : ℕ) (enabled : Bool)
  | cleared (caller : ℕ)
  | stopped
  deriving DecidableEq

/-- What the writer did with a capture. -/
inductive Outcome where
  | dropped
  | committed
  | failed

/-- The configuration, and `aisnapshot.ValidateProvider`. -/
structure Config where
  queueSize : ℕ
  retention : ℤ
  validateProvider : Provider → Time → Bool

structure Store where
  database : Database
  commands : List Command := []
  readers : List ℕ := []
  exclusive : Option ℕ := none
  closed : Bool := false
  enabled : Bool
  available : Bool := true
  generation : UInt64 := 0
  writer : Writer := .polling
  persistenceErr : Option DatabaseError := none
  replies : ℕ → Option (Option DatabaseError) := fun _ => none
  calls : ℕ → Option Call := fun _ => none
  epoch : ℕ := 0
  admissions : ℕ → Option ℕ := fun _ => none
  outcomes : ℕ → Option Outcome := fun _ => none

/-- Replaces one value of a function. -/
def update {α : Type} (f : ℕ → α) (i : ℕ) (a : α) : ℕ → α := fun j => if j = i then a else f j

namespace Store

/-- The store that `Open` returns. -/
def opened (database : Database) : Store := { database, enabled := database.enabled }

/-- The call `id` goes on to `call`. -/
def goto (s : Store) (id : ℕ) (call : Call) : Store :=
  { s with calls := update s.calls id (some call) }

/-- `store.stateMu.RLock()`. -/
def rLock (s : Store) (id : ℕ) : Store := { s with readers := id :: s.readers }

/-- `store.stateMu.RUnlock()`. -/
def rUnlock (s : Store) (id : ℕ) : Store := { s with readers := s.readers.erase id }

/-- A send to the channel. -/
def send (s : Store) (command : Command) : Store := { s with commands := s.commands ++ [command] }

/-- `store.available.Store(false)`. -/
def unavailable (s : Store) : Store := { s with available := false }

/-! ### Steps of the callers -/

section

variable (config : Config)

/-- A step of `Capture`; `done` is whether the caller's context is done. -/
def captureStep (s : Store) (id : ℕ) (provider : Provider) (observedAt : Time) (done : Bool)
    (point : CapturePoint) : Option Store :=
  let go (s : Store) (point : CapturePoint) := s.goto id (.capture provider observedAt point)
  match point with
  | .invoked =>
    some { go s (.admitted s.generation) with
      admissions := update s.admissions id (some s.epoch) }
  | .admitted generation =>
    some (if done then go s (.returned (.failed .context)) else go s (.passed generation))
  | .passed generation =>
    if s.exclusive = none then some (go (s.rLock id) (.locked generation)) else none
  | .locked generation =>
    some (if s.closed then go s.unavailable (.leaving (.failed .closed))
      else go s (.opened generation))
  | .opened generation =>
    some (if s.enabled then go s (.recording generation) else go s (.leaving .skipped))
  | .recording generation =>
    some (
      if observedAt = zeroTime || !config.validateProvider provider observedAt then
        go s (.leaving (.failed .invalid))
      else if s.commands.length < config.queueSize then
        go (s.send (.capture id provider observedAt generation)) (.leaving .queued)
      else go s.unavailable (.leaving (.failed .busy)))
  | .leaving result => some (go (s.rUnlock id) (.returned result))
  | .returned _ => none

/-- A step of `synchronizeCommand`; with `done` a `select` takes the context's case. -/
def commandStep (s : Store) (id : ℕ) (kind : Kind) (done : Bool) (point : CommandPoint) :
    Option Store :=
  let go (s : Store) (point : CommandPoint) := s.goto id (.command kind point)
  match point with
  | .invoked => if s.exclusive = none then some (go (s.rLock id) .locked) else none
  | .locked =>
    some (if s.closed then go s.unavailable (.leaving (some .closed)) else go s .opened)
  | .opened =>
    if done then some (go s (.leaving (some .context)))
    else if s.commands.length < config.queueSize then
      some (go (s.send (.control id kind)) .waiting)
    else none
  | .waiting =>
    if done then some (go s (.leaving (some .context)))
    else (s.replies id).map fun error => go s (.leaving (error.map .database))
  | .leaving error => some (go (s.rUnlock id) (.returned error))
  | .returned _ => none

/-- A step of `Close`. -/
def closeStep (s : Store) (id : ℕ) (done : Bool) (point : ClosePoint) : Option Store :=
  let go (s : Store) (point : ClosePoint) := s.goto id (.close point)
  match point with
  | .invoked =>
    if s.exclusive = none ∧ s.readers = [] then
      some (go { s with exclusive := some id } .locked)
    else none
  | .locked =>
    let unlocked := { s with exclusive := none }
    if s.closed then some (go unlocked .draining)
    else if done then some (go unlocked (.returned (some .context)))
    else if s.commands.length < config.queueSize then
      some (go ({ unlocked with closed := true, available := false }.send (.close id)) .waiting)
    else none
  | .waiting =>
    if done then some (go s (.returned (some .context)))
    else (s.replies id).map fun error => go s (.returned (error.map .database))
  | .draining =>
    if done then some (go s (.returned (some .context)))
    else if s.writer = .stopped then some (go s (.returned none))
    else none
  | .returned _ => none

/-- A step of the call `id`. -/
def callerStep (s : Store) (id : ℕ) (done : Bool) : Option Store :=
  match s.calls id with
  | none => none
  | some (.capture provider observedAt point) =>
    captureStep config s id provider observedAt done point
  | some (.command kind point) => commandStep config s id kind done point
  | some (.close point) => closeStep config s id done point

/-! ### Steps of the writer -/

/-- `command.result <- err`; the writer goes on to its next command. -/
def reply (s : Store) (caller : ℕ) (error : Option DatabaseError) : Store :=
  { s with replies := update s.replies caller (some error), writer := .polling }

/-- `persistenceErr = err` and `store.available.Store(err == nil)`. -/
def persisted (s : Store) (error : Option DatabaseError) : Store :=
  { s with persistenceErr := error, available := error = none }

/-- Receives from the channel. -/
def receive (s : Store) (idle : Option Store) : Option Store :=
  match s.commands with
  | [] => idle
  | command :: rest => some { s with commands := rest, writer := .executing command }

/-- The writer executes a command. -/
def execute (s : Store) (now : Time) (fault : Fault) : Command → Store
  | .capture caller provider observedAt generation =>
    if !s.enabled || generation ≠ s.generation then
      { s with
        writer := .polling
        outcomes := update s.outcomes caller (some .dropped) }
    else
      let (database, error) :=
        capture s.database caller provider observedAt now config.retention fault
      let body := captureBody s.database caller provider observedAt now config.retention
      { s.persisted error with
        database
        writer := .polling
        outcomes :=
          update s.outcomes caller (some (if committed body fault then .committed else .failed)) }
  | .control caller .flush => s.reply caller s.persistenceErr
  | .control caller (.setEnabled enabled) =>
    match setEnabled s.database enabled now config.retention fault with
    | (database, none) => { s with database, writer := .advancing caller enabled }
    | (database, some error) =>
      ({ s with database }.persisted (some error)).reply caller (some error)
  | .control caller .clear =>
    match clear s.database fault with
    | (database, none) => { s with database, writer := .cleared caller }
    | (database, some error) => ({ s with database }.unavailable).reply caller (some error)
  | .close caller =>
    let error := match fault with
      | .none => s.persistenceErr
      | _ => some (s.persistenceErr.getD .unavailable)
    { s.reply caller error with writer := .stopped }

/-- `store.generation.Add(1)`. -/
def advance (s : Store) : Store :=
  { s with generation := s.generation + 1, epoch := s.epoch + 1 }

/-- A step of `runWriter`; `tick` is whether the second `select` takes the ticker's case. -/
def writerStep (s : Store) (tick : Bool) (now : Time) (fault : Fault) : Option Store :=
  match s.writer with
  | .polling => s.receive (some { s with writer := .blocked })
  | .blocked =>
    if tick then
      let (database, error) := sweep s.database now config.retention fault
      some { s.persisted error with database, writer := .polling }
    else s.receive none
  | .executing command => some (execute config s now fault command)
  | .advancing caller enabled => some { s.advance with writer := .enabling caller enabled }
  | .enabling caller enabled => some (({ s with enabled }.persisted none).reply caller none)
  | .cleared caller => some ((s.advance.persisted none).reply caller none)
  | .stopped => none

/-! ### Runs -/

/-- One step of a run. -/
inductive Event where
  | invoke (id : ℕ) (request : Request)
  | caller (id : ℕ) (done : Bool)
  | writer (tick : Bool) (now : Time) (fault : Fault)

def step (s : Store) : Event → Option Store
  | .invoke id request => if s.calls id = none then some (s.goto id request.call) else none
  | .caller id done => callerStep config s id done
  | .writer tick now fault => writerStep config s tick now fault

/-- The store after the steps `events`. -/
def run (s : Store) (events : List Event) : Option Store := Trace.run (step config) s events

end

end Store

end RlcdDeck.History
