import RlcdDeck.StructuredProvider.Definition

/-!
# The supervisor of the structured Providers

The model of `Service.Run` in `structuredprovider/service.go` and of the collectors that it starts.  A
step is a change of the stored definitions, a pass of the loop of `Run`, or what one collector does.
What the network, the clock and the publisher answer comes with each event.  A collector is the
interface `managedCollector`: one may return at any time.

A `Page` also has the definition that its Provider was produced for, and a `Publication` the
definitions that the latest `reconcile` has read; the code keeps no such record.  The generations do
not wrap around.
-/

namespace RlcdDeck.StructuredProvider

open Json (Bytes bytes)
open AiSnapshot.Companion (Provider ProviderError SchemaVersion)

/-- The definitions of a stored document, of which no two have the same identifier. -/
structure Definitions where
  list : List Definition
  unique : (list.map Definition.id).Nodup

/-- The map `next` of `reconcile`. -/
def Definitions.next (definitions : Definitions) (id : Bytes) : Option Definition :=
  definitions.list.find? fun definition => definition.id = id

/-- `unavailableProvider`. -/
def unavailableProvider (definition : Definition) (problem : ProviderError) : Provider where
  schemaVersion := ⟨1, 0⟩
  id := definition.id
  displayName := definition.displayName
  status := bytes "unavailable"
  source := bytes "none"
  confidence := bytes "unavailable"
  experimental := definition.experimental
  updatedAt := none
  staleAfterSeconds := none
  balance := none
  windows := some []
  tokens := none
  error := some problem

/-- The error of a Provider whose collector could not start or has failed. -/
def collectorUnavailable : ProviderError := ⟨bytes "unavailable", true⟩

/-- A Provider, and the definition that it was produced for. -/
structure Page where
  provider : Provider
  definition : Definition

/-- The placeholder of a Provider whose collector could not start or has failed. -/
def placeholder (definition : Definition) : Page :=
  ⟨unavailableProvider definition collectorUnavailable, definition⟩

/-- `serviceCollectorRun`; its `cancel` is the mark of the collector. -/
structure CollectorRun where
  generation : ℕ
  definition : Definition

/-- `serviceCollectorEvent`: a page, or the end of the collector. -/
structure CollectorEvent where
  id : Bytes
  generation : ℕ
  page : Option Page
  failed : Bool

/-- Where a collector stands: it collects or waits, it has a page to send, or it has returned. -/
inductive CollectorPhase where
  | collecting
  | publishing (page : Page)
  | returned (failed : Bool)
  | finished

/-- A collector, with the generation of its run. -/
structure Collector where
  generation : ℕ
  definition : Definition
  lastProvider : Option Provider := none
  cancelled : Bool := false
  phase : CollectorPhase := .collecting

/-- `collectRetained`, given what `performRequest` returns. -/
def Collector.collectRetained (collector : Collector) :
    Except ProviderError Provider → Provider × Collector
  | .ok provider => (provider, { collector with lastProvider := some provider })
  | .error problem =>
    match collector.lastProvider with
    | none => (unavailableProvider collector.definition problem, collector)
    | some provider =>
      ({ provider with status := bytes "degraded", error := some problem }, collector)

/-- What a publisher is called with, and the definitions that the latest `reconcile` has read. -/
structure Publication where
  definitions : Definitions
  order : List Bytes
  pages : List (Bytes × Page)

/-- The capacity of the channel of events. -/
def eventCapacity : ℕ := 12

inductive Phase where
  /-- The first `reconcile` is to come. -/
  | starting
  | running
  | stopped
  deriving DecidableEq

/-- `Run`, with the stored definitions and the collectors. -/
structure Service where
  document : Definitions
  changed : Bool := false
  cancelled : Bool := false
  phase : Phase := .starting
  /-- The definitions that the latest `reconcile` has read. -/
  seen : Definitions := ⟨[], List.nodup_nil⟩
  runs : Bytes → Option CollectorRun := fun _ => none
  states : Bytes → Option Page := fun _ => none
  order : List Bytes := []
  generation : ℕ := 0
  collectors : List Collector := []
  events : List CollectorEvent := []
  published : List Publication := []

namespace Service

/-! ### `Run` -/

/-- `start`; `starts` says whether a collector can be made. -/
def start (starts : Bytes → Bool) (service : Service) (definition : Definition) : Service :=
  if (service.runs definition.id).isSome then service
  else if starts definition.id then
    { service with
      generation := service.generation + 1
      runs := Function.update service.runs definition.id
        (some ⟨service.generation + 1, definition⟩)
      collectors := service.collectors ++ [{ generation := service.generation + 1, definition }] }
  else
    { service with
      states := Function.update service.states definition.id (some (placeholder definition)) }

/-- A run whose definition is still there. -/
def kept (service : Service) (definitions : Definitions) (id : Bytes) : Bool :=
  match service.runs id with
  | none => false
  | some run => definitions.next id = some run.definition

/-- The first loop of `reconcile`: the runs that do not fit any more are cancelled, and their states
are deleted. -/
def supersede (service : Service) (definitions : Definitions) : Service :=
  let gone := fun id => (service.runs id).isSome && !service.kept definitions id
  { service with
    runs := fun id => if gone id then none else service.runs id
    states := fun id => if gone id then none else service.states id
    collectors := service.collectors.map fun collector =>
      if (service.runs collector.definition.id).any (fun run =>
          run.generation = collector.generation) && gone collector.definition.id then
        { collector with cancelled := true }
      else collector }

/-- `publishState`. -/
def publishState (service : Service) : Service :=
  { service with
    published := service.published ++
      [{ definitions := service.seen
         order := service.order
         pages := service.order.filterMap fun id => (service.states id).map fun page => (id, page) }] }

/-- `reconcile` with the definitions that are stored; a publisher that fails ends `Run`. -/
def reconcile (service : Service) (starts : Bytes → Bool) (accepted : Bool) : Option Service :=
  if service.phase = .starting ∨ (service.phase = .running ∧ service.changed = true) then
    let definitions := service.document
    let started := definitions.list.foldl (start starts)
      { service.supersede definitions with changed := false }
    let next :=
      { started with
        seen := definitions
        order := definitions.list.map Definition.id }
    some { next.publishState with phase := if accepted then .running else .stopped }
  else none

/-- The mark of the collectors of a generation. -/
def cancelRun (service : Service) (generation : ℕ) : Service :=
  { service with
    collectors := service.collectors.map fun collector =>
      if collector.generation = generation then { collector with cancelled := true }
      else collector }

/-- What `Run` does with an event of the run that has its generation. -/
def accept (service : Service) (run : CollectorRun) (event : CollectorEvent) (accepted : Bool) :
    Service :=
  match event.page with
  | some page =>
    let next :=
      { service with states := Function.update service.states event.id (some page) }.publishState
    if accepted then next else next.cancelRun run.generation
  | none =>
    let next := { service with runs := Function.update service.runs event.id none }
    if !service.cancelled && event.failed then
      { next with
        states := Function.update service.states event.id
          (some (placeholder run.definition)) }.publishState
    else next

/-- `Run` takes an event. -/
def handle (service : Service) (accepted : Bool) : Option Service :=
  match service.phase, service.events with
  | .running, event :: events =>
    let next := { service with events }
    match service.runs event.id with
    | none => some next
    | some run =>
      if run.generation ≠ event.generation then some next else some (next.accept run event accepted)
  | _, _ => none

/-- `Run` returns: its context has ended, or the definitions cannot be read. -/
def stop (service : Service) : Option Service :=
  if service.phase = .stopped then none else some { service with phase := .stopped }

/-! ### Collectors -/

/-- The collector at a place goes on. -/
def replace (service : Service) (key : ℕ) (collector : Collector) : Service :=
  { service with collectors := service.collectors.set key collector }

/-- A collector has collected. -/
def collect (service : Service) (key : ℕ) (result : Except ProviderError Provider) :
    Option Service :=
  match service.collectors[key]? with
  | none => none
  | some collector =>
    match collector.phase with
    | .collecting =>
      if collector.cancelled || service.cancelled then
        some (service.replace key { collector with phase := .returned false })
      else
        let (provider, next) := collector.collectRetained result
        some (service.replace key
          { next with phase := .publishing ⟨provider, collector.definition⟩ })
    | _ => none

/-- An event goes into the channel. -/
def send (service : Service) (collector : Collector) (page : Option Page) (failed : Bool) : Service :=
  { service with
    events := service.events ++
      [{ id := collector.definition.id, generation := collector.generation, page, failed }] }

/-- A collector sends its page, or its end. -/
def deliver (service : Service) (key : ℕ) : Option Service :=
  if service.events.length < eventCapacity then
    match service.collectors[key]? with
    | none => none
    | some collector =>
      match collector.phase with
      | .publishing page =>
        some ((service.send collector (some page) false).replace key
          { collector with phase := .collecting })
      | .returned failed =>
        some ((service.send collector none failed).replace key { collector with phase := .finished })
      | _ => none
  else none

/-- A collector returns. -/
def exit (service : Service) (key : ℕ) (failed : Bool) : Option Service :=
  match service.collectors[key]? with
  | none => none
  | some collector =>
    match collector.phase with
    | .collecting | .publishing _ =>
      some (service.replace key { collector with phase := .returned failed })
    | _ => none

/-! ### Runs -/

inductive Event where
  /-- The stored definitions are edited. -/
  | edit (definitions : Definitions)
  | notifyChanged
  | cancel
  | reconcile (starts : Bytes → Bool) (accepted : Bool)
  | handle (accepted : Bool)
  | stop
  | collect (key : ℕ) (result : Except ProviderError Provider)
  | deliver (key : ℕ)
  | exit (key : ℕ) (failed : Bool)

/-- The service after one step, `none` when it cannot be taken. -/
def step (service : Service) : Event → Option Service
  | .edit definitions => some { service with document := definitions }
  | .notifyChanged => some { service with changed := true }
  | .cancel => some { service with cancelled := true }
  | .reconcile starts accepted => service.reconcile starts accepted
  | .handle accepted => service.handle accepted
  | .stop => service.stop
  | .collect key result => service.collect key result
  | .deliver key => service.deliver key
  | .exit key failed => service.exit key failed

end Service

end RlcdDeck.StructuredProvider
