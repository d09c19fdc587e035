import RlcdDeck.OtaFence.Service

/-!
# The two tasks together

`Service.answer` is one access of the OTA task, `Service.linkStep` one step of the link task, and
`System.step` one step of either.  What the code does not decide (whether an allocation or a wait
succeeds, whether a weak exchange fails, what an adapter answers, what is left in freed memory) is
a `Choice`.
-/

namespace RlcdDeck.OtaFence

open Effects
open OtaTransaction (Manifest Transaction maxChunkBytes)

/-! ### The OTA task -/

/-- What is outside the code. -/
structure Choice where
  ok : Bool
  nowMs : UInt64 := 0
  digest : Option (List UInt8) := none
  freed : Option Transaction := none

/-- The answer of an adapter. -/
def Choice.adapter (choice : Choice) :
    (call : OtaTransaction.Call) → OtaTransaction.Answer call
  | .hashFinish => choice.digest
  | .hashAbort | .flashAbort => ()
  | .verifyManifest _ | .hashBegin | .hashUpdate _ | .flashBegin _ | .flashWrite _ | .flashFinish
  | .selectBoot => choice.ok

/-- What an exchange that took effect is in the history. -/
def Service.exchangeEvent (s : Service) (desired : UInt32) : Event :=
  match stateOf desired with
  | .active => .begun (begins s.history + 1) (s.command.bind Command.stamp)
  | .committing => .committing s.number
  | .idle | .aborting => .released

/-- `compare_exchange`; a weak one may fail although the word is the expected one. -/
def Service.compareExchange (s : Service) (ok : Bool) (expected desired : UInt32) :
    Option UInt32 × Service :=
  if ok && s.word == expected then
    (none, { s with word := desired, history := s.exchangeEvent desired :: s.history })
  else (some s.word, s)

/-- The object at `service->transaction`, which may be freed. -/
def Service.value (s : Service) (choice : Choice) (object : Object) : Transaction :=
  if Live s.history object.number then object.value else choice.freed.getD object.value

/-- One access of the OTA task; `none` when it waits. -/
def Service.answer (s : Service) (choice : Choice) : (call : Call) → Option (Answer call × Service)
  | .load => some (s.word, s)
  | .compareExchangeStrong expected desired => some (s.compareExchange true expected desired)
  | .compareExchangeWeak expected desired => some (s.compareExchange choice.ok expected desired)
  | .accepts commandEpoch =>
    if epochOf s.word = commandEpoch then
      some (true, { s with history := .accepted (s.command.bind Command.stamp) :: s.history })
    else some (false, s)
  | .exchangeAbortRequested => some (s.abortRequested, { s with abortRequested := false })
  | .loadAbortRequested => some (s.abortRequested, s)
  | .receive =>
    match s.commands with
    | [] => some (none, s)
    | command :: rest => some (some command, { s with commands := rest, command := some command })
  | .now => some (choice.nowMs, s)
  | .transaction => some (s.transaction.map (s.value choice), s)
  | .update value =>
    some ((), { s with transaction := s.transaction.map fun object => { object with value } })
  | .create =>
    match if choice.ok then OtaTransaction.create s.options else none with
    | none => some (none, { s with transaction := none })
    | some value =>
      some (some value,
        { s with
          transaction := some ⟨begins s.history, value⟩
          history := .created (begins s.history) :: s.history })
  | .destroy =>
    some ((), { s with
      history := (s.number.map Event.destroyed).toList ++ s.history })
  | .destroyAndClear =>
    some ((), { s with
      transaction := none
      history := (s.number.map Event.destroyed).toList ++ s.history })
  | .activeTransactionId => some (s.activeTransactionId, s)
  | .setActiveTransactionId transactionId =>
    some ((), { s with activeTransactionId := transactionId })
  | .sendResult result =>
    if choice.ok then
      if s.results.length < queueCapacity then
        some ((), { s with results := s.results ++ [result] })
      else none
    else some ((), s)
  | .receiveResult => some (!s.results.isEmpty, { s with results := s.results.tail })
  | .setAbortComplete => some ((), { s with abortComplete := true })
  | .adapter call => some (choice.adapter call, s)
  | .updatePartition => some (choice.ok, s)
  | .setBootPartition =>
    some (choice.ok,
      { s with history := .selected s.number :: s.history })
  | .spin => none

/-! ### The link task -/

/-- `valid_transaction_id`. -/
def validTransactionId (transactionId : List UInt8) : Bool :=
  transactionId.length == 32 &&
    transactionId.all fun byte => (48 ≤ byte && byte ≤ 57) || (97 ≤ byte && byte ≤ 102)

/-- A step of the link task. -/
inductive LinkStep where
  /-- `deck_ota_service_offer`, up to the capture of the epoch. -/
  | offer (transactionId : List UInt8) (manifest : Manifest)
  /-- `deck_ota_service_write`, up to the capture of the epoch. -/
  | write (transactionId : List UInt8) (offset : UInt32) (data : List UInt8) (final : Bool)
  | send (ok : Bool)
  /-- `deck_ota_service_abort_transport`, up to `begin_abort`. -/
  | abort
  | load
  | exchange (ok : Bool)
  | request
  | wake (ok : Bool)
  /-- The wait ends, whether the bit is set or not. -/
  | finish
  | pollResult

/-- `capture_epoch`. -/
def Service.capture (s : Service) : Stamp := ⟨epochOf s.word, aborts s.history⟩

def Service.linkStep (s : Service) (step : LinkStep) : Option Service :=
  match s.link, step with
  | .ready, .offer transactionId manifest =>
    if validTransactionId transactionId then
      some { s with link := .sending (.offer transactionId manifest s.capture) }
    else none
  | .ready, .write transactionId offset data final =>
    if validTransactionId transactionId && data.length ≠ 0 && data.length ≤ maxChunkBytes then
      some { s with link := .sending (.chunk transactionId offset data final s.capture) }
    else none
  | .ready, .pollResult => some { s with results := s.results.tail }
  | .ready, .abort => some { s with abortComplete := false, link := .aborting }
  | .sending command, .send ok =>
    if ok then
      if s.commands.length < queueCapacity then
        some { s with commands := s.commands ++ [command], link := .ready }
      else none
    else some { s with link := .ready }
  | .aborting, .load => some { s with link := .exchanging s.word }
  | .exchanging current, .exchange ok =>
    if ok && s.word == current then
      some { s with
        word := encode (nextEpoch (epochOf current)) (abortedState (stateOf current))
        link := .requesting
        history := .aborted :: s.history }
    else some { s with link := .exchanging s.word }
  | .requesting, .request => some { s with abortRequested := true, link := .waking }
  | .waking, .wake ok =>
    if ok then
      if s.commands.length < queueCapacity then
        some { s with commands := .abortTransport :: s.commands, link := .waiting }
      else none
    else some { s with link := .waiting }
  | .waiting, .finish => some { s with link := .ready }
  | _, _ => none

/-! ### Runs -/

/-- The service, and what is left of the turn of the OTA task. -/
structure System where
  service : Service
  rest : Task Unit

/-- A step of one of the tasks. -/
inductive Step where
  /-- The next access of the OTA task. -/
  | task (choice : Choice)
  /-- The next turn of the OTA task; its loops may run as often as the fuel says. -/
  | turn (fuel : ℕ)
  | link (step : LinkStep)

def System.step : System → Step → Option System
  | ⟨s, .call call k⟩, .task choice =>
    (s.answer choice call).map fun out => ⟨out.2, k out.1⟩
  | ⟨s, .ret _⟩, .turn fuel => some ⟨s, turn fuel⟩
  | ⟨s, rest⟩, .link step => (s.linkStep step).map fun s' => ⟨s', rest⟩
  | _, _ => none

def System.run : System → List Step → Option System
  | sys, [] => some sys
  | sys, step :: steps => (sys.step step).bind fun sys => sys.run steps

/-- The service after it is started. -/
def System.start (options : OtaTransaction.Options) : System := ⟨{ options }, .ret ()⟩

/-- The OTA task is between two commands. -/
def System.BetweenCommands (sys : System) : Prop := sys.rest = .ret ()

/-- What a run can reach when every state on its way is `calm`. -/
inductive Reaches (calm : Service → Prop) (options : OtaTransaction.Options) : System → Prop where
  | start : calm (System.start options).service → Reaches calm options (.start options)
  | step {sys sys' : System} {step : Step} : Reaches calm options sys →
    sys.step step = some sys' → calm sys'.service → Reaches calm options sys'

end RlcdDeck.OtaFence
