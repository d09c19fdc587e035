import RlcdDeck.Effects.Trace

/-!
# The client of the App Server

The model of `rpcClient` in `codexappserver/rpc.go`: the read loop, any number of calls, and the
supervisor that may close the client.  The goroutines share the table of pending calls, the channel of
notifications and the channel `done`; a step is what one of them does under the mutex, or one
operation of it on a channel.

The documents come from the connection: a notification, a response, or one that is malformed.  The
params of a notification and the result of a response are any values; the schemas that they are
decoded to are not looked at here.
-/

namespace RlcdDeck.CodexAppServer

/-- The errors that a client can end with. -/
inductive Terminal where
  | unavailable
  | processExited
  | schemaChanged
  deriving DecidableEq

/-- A response of the App Server. -/
structure Response (β : Type) where
  id : ℕ
  body : β
  deriving DecidableEq

/-- A document, as `accept` takes it apart. -/
inductive Document (β : Type) where
  | notification
  | response (response : Response β)
  | malformed
  deriving DecidableEq

/-- `rpcResponse`: what a channel of a call holds. -/
inductive Reply (β : Type) where
  | response (response : Response β)
  | failed (error : Terminal)

/-- How a call ends.  A request that cannot be written ends it with `ErrProcessExited` and the error
of the write. -/
inductive Outcome (β : Type) where
  | response (response : Response β)
  | context
  | terminal (error : Terminal)
  | unsent

/-- Where a `Call` stands: its request is being written, it waits in its `select`, or it returned. -/
inductive CallState (β : Type) where
  | writing (id : ℕ)
  | waiting (id : ℕ)
  | returned (id : Option ℕ) (outcome : Outcome β)

/-- Where the read loop stands. -/
inductive Reader (β : Type) where
  | reading
  | accepting (document : Document β)
  /-- The response is out of the table, and not yet in the channel of its call. -/
  | delivering (response : Response β)
  | failing (error : Terminal)
  | stopped
  deriving DecidableEq

/-- Where the supervisor stands: it has not called `Close`, it is in `fail`, or it is through. -/
inductive Supervisor where
  | running
  | closing
  | closed
  deriving DecidableEq

/-- Who calls `fail`. -/
inductive Failer where
  | reader
  | supervisor
  deriving DecidableEq

/-- `closeOnce`: it was not used, or `failer` is in it with the calls that it has to answer, or it is
over. -/
inductive Once where
  | unused
  | running (failer : Failer) (waiters : List ℕ)
  | over

/-- The capacity of the channel of notifications. -/
def notificationCapacity : ℕ := 16

/-- A client, with its goroutines.  `done` and the channel of notifications are closed together. -/
structure Client (β : Type) where
  nextId : ℕ := 1
  pending : List ℕ := []
  channels : ℕ → Option (Reply β) := fun _ => none
  queued : ℕ := 0
  closed : Bool := false
  terminal : Option Terminal := none
  once : Once := .unused
  reader : Reader β := .reading
  supervisor : Supervisor := .running
  calls : ℕ → Option (CallState β) := fun _ => none
  cancelled : ℕ → Bool := fun _ => false
  /-- A goroutine has sent on a closed channel. -/
  panicked : Bool := false

/-- A function with one value changed. -/
def assign {α : Type} (f : ℕ → α) (key : ℕ) (value : α) : ℕ → α :=
  fun other => if other = key then value else f other

theorem assign_apply {α : Type} (f : ℕ → α) (key : ℕ) (value : α) (other : ℕ) :
    assign f key value other = if other = key then value else f other := rfl

namespace Client

variable {β : Type}

/-! ### The read loop -/

/-- `Read` returns a document, or an error. -/
def read (client : Client β) (document : Option (Document β)) : Option (Client β) :=
  match client.reader, document with
  | .reading, some document => some { client with reader := .accepting document }
  | .reading, none => some { client with reader := .failing .processExited }
  | _, _ => none

/-- The `select` on the channel of notifications. -/
def notify (client : Client β) : Client β :=
  if client.closed then { client with panicked := true, reader := .stopped }
  else if client.queued < notificationCapacity then
    { client with queued := client.queued + 1, reader := .reading }
  else { client with reader := .failing .unavailable }

/-- The part of `accept` after the document was taken apart: a notification is sent, and the call of
a response is taken out of the table. -/
def accept (client : Client β) : Option (Client β) :=
  match client.reader with
  | .accepting .notification => some client.notify
  | .accepting (.response response) =>
    if response.id ∈ client.pending then
      some { client with
        pending := client.pending.erase response.id
        reader := .delivering response }
    else some { client with reader := .failing .schemaChanged }
  | .accepting .malformed => some { client with reader := .failing .schemaChanged }
  | _ => none

/-- A send on the channel of a call, which has room for one reply. -/
def send (client : Client β) (id : ℕ) (reply : Reply β) : Option (Client β) :=
  match client.channels id with
  | none => some { client with channels := assign client.channels id (some reply) }
  | some _ => none

/-- The response is sent to its call. -/
def deliver (client : Client β) : Option (Client β) :=
  match client.reader with
  | .delivering response =>
    { client with reader := .reading }.send response.id (.response response)
  | _ => none

/-! ### `fail` -/

/-- The error that a failer ends the client with. -/
def failure (client : Client β) : Failer → Option Terminal
  | .supervisor => if client.supervisor = .closing then some .unavailable else none
  | .reader =>
    match client.reader with
    | .failing error => some error
    | _ => none

/-- The failer is through with `fail`. -/
def leave (client : Client β) : Failer → Client β
  | .supervisor => { client with supervisor := .closed }
  | .reader => { client with reader := .stopped }

/-- `closeOnce.Do`, and in it what `fail` does under the mutex; who comes later waits until it is
over. -/
def enter (client : Client β) (failer : Failer) : Option (Client β) :=
  match client.failure failer with
  | none => none
  | some error =>
    match client.once with
    | .unused =>
      some { client with
        terminal := some error
        pending := []
        closed := true
        once := .running failer client.pending }
    | .running _ _ => none
    | .over => some (client.leave failer)

/-- The calls that `fail` has still to answer. -/
def waiters (client : Client β) : List ℕ :=
  match client.once with
  | .running _ waiters => waiters
  | _ => []

/-- The failer answers one of these calls; the order of a map is any order. -/
def answer (client : Client β) (id : ℕ) : Option (Client β) :=
  match client.once, client.terminal with
  | .running failer waiters, some error =>
    if id ∈ waiters then
      { client with once := .running failer (waiters.erase id) }.send id (.failed error)
    else none
  | _, _ => none

/-- The failer has answered all of them. -/
def finish (client : Client β) : Option (Client β) :=
  match client.once with
  | .running failer [] => some ({ client with once := .over }.leave failer)
  | _ => none

/-! ### Calls -/

/-- `Call` until its request is written. -/
def call (client : Client β) (key : ℕ) : Option (Client β) :=
  match client.calls key, client.terminal with
  | some _, _ => none
  | none, some error =>
    some { client with calls := assign client.calls key (some (.returned none (.terminal error))) }
  | none, none =>
    some { client with
      nextId := client.nextId + 1
      pending := client.pending ++ [client.nextId]
      calls := assign client.calls key (some (.writing client.nextId)) }

/-- The request is written, or not. -/
def write (client : Client β) (key : ℕ) (written : Bool) : Option (Client β) :=
  match client.calls key with
  | some (.writing id) =>
    if written then
      some { client with calls := assign client.calls key (some (.waiting id)) }
    else
      some { client with
        pending := client.pending.erase id
        calls := assign client.calls key (some (.returned (some id) .unsent)) }
  | _ => none

/-- The context of a call ends. -/
def cancel (client : Client β) (key : ℕ) : Client β :=
  { client with cancelled := assign client.cancelled key true }

/-- The three cases of the `select` of `Call`. -/
inductive Case where
  | response
  | context
  | done
  deriving DecidableEq

/-- The outcome of a reply. -/
def Reply.outcome : Reply β → Outcome β
  | .response response => .response response
  | .failed error => .terminal error

/-- A case of the `select` that is ready. -/
def select (client : Client β) (key : ℕ) : Case → Option (Client β)
  | .response =>
    match client.calls key with
    | some (.waiting id) =>
      (client.channels id).map fun reply =>
        { client with
          channels := assign client.channels id none
          calls := assign client.calls key (some (.returned (some id) (Reply.outcome reply))) }
    | _ => none
  | .context =>
    match client.calls key, client.cancelled key with
    | some (.waiting id), true =>
      some { client with
        pending := client.pending.erase id
        calls := assign client.calls key (some (.returned (some id) .context)) }
    | _, _ => none
  | .done =>
    match client.calls key, client.closed with
    | some (.waiting id), true =>
      some { client with
        calls := assign client.calls key
          (some (.returned (some id) (.terminal (client.terminal.getD .processExited)))) }
    | _, _ => none

/-! ### Runs -/

inductive Event (β : Type) where
  | read (document : Option (Document β))
  | accept
  | deliver
  /-- The supervisor takes a notification. -/
  | take
  /-- The supervisor calls `Close`. -/
  | close
  | enter (failer : Failer)
  | answer (id : ℕ)
  | finish
  | call (key : ℕ)
  | write (key : ℕ) (written : Bool)
  | cancel (key : ℕ)
  | select (key : ℕ) (ready : Case)
  deriving DecidableEq

/-- The client after one step, `none` when it cannot be taken. -/
def step (client : Client β) : Event β → Option (Client β)
  | .read document => client.read document
  | .accept => client.accept
  | .deliver => client.deliver
  | .take => if 0 < client.queued then some { client with queued := client.queued - 1 } else none
  | .close =>
    if client.supervisor = .running then some { client with supervisor := .closing } else none
  | .enter failer => client.enter failer
  | .answer id => client.answer id
  | .finish => client.finish
  | .call key => client.call key
  | .write key written => client.write key written
  | .cancel key => some (client.cancel key)
  | .select key ready => client.select key ready

end Client

/-! ### The server -/

/-- The client with a server: the requests that were answered. -/
structure Exchange (β : Type) where
  client : Client β := {}
  answered : List ℕ := []

namespace Exchange

variable {β : Type}

/-- One step, in which a response answers a request that the client has made and that was not
answered before. -/
def step (exchange : Exchange β) (event : Client.Event β) : Option (Exchange β) :=
  match event with
  | .read (some (.response response)) =>
    if 0 < response.id ∧ response.id < exchange.client.nextId ∧ response.id ∉ exchange.answered then
      (exchange.client.step event).map fun client => ⟨client, response.id :: exchange.answered⟩
    else none
  | _ => (exchange.client.step event).map fun client => { exchange with client }

end Exchange

end RlcdDeck.CodexAppServer
