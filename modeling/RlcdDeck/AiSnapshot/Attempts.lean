import RlcdDeck.AiSnapshot.Store
import Mathlib.Data.List.Chain

/-!
# The store across restarts

The store of one boot after another, with the times of the flash attempts that its workers made.
The flash itself stays with the environment: what a worker finds when it opens the storage is one
of its `Answers`.  `attempts` and `clock` are there for the theorems; no step of the store reads
them.
-/

namespace RlcdDeck.AiSnapshot

variable (validate : List UInt8 → Except Rejection Metadata)

/-- The worker's next step writes an attempt record to the flash, for a checkpoint of this time. -/
def Store.attempt? (s : Store) : Option UInt64 :=
  match s.worker with
  | .persisting checkpoint true => if s.persistent then some checkpoint.attemptUtcMs else none
  | _ => none

/-- The worker's next step drops its checkpoint, which a newer document replaces. -/
def Store.obsolete (s : Store) (checkpoint : Checkpoint) (recovered : RecoveredState)
    (opened : Bool) : Bool :=
  (opened && recoveredSupersedesCheckpoint recovered checkpoint.generatedAtMs) ||
    (s.publishRecovered recovered opened).liveSupersedesCheckpoint checkpoint

structure System where
  store : Store
  /-- The times of the flash attempts so far, the last one first. -/
  attempts : List UInt64 := []
  /-- The trusted time of the last `apply` that had one. -/
  clock : UInt64 := 0

namespace System

/-- An event of the store, or a restart with or without a storage and a worker. -/
inductive Event where
  | store (event : Store.Event)
  | restart (configured started : Bool)

/-- The trusted time of an event; zero is none. -/
def Event.utcMs : Event → UInt64
  | .store (.apply _ trustedUtcMs) => trustedUtcMs
  | _ => 0

/-- The attempt that an event makes. -/
def attempt? (y : System) : Event → Option UInt64
  | .store (.worker _) => y.store.attempt?
  | _ => none

def step (y : System) (event : Event) : System :=
  { store :=
      match event with
      | .store event => y.store.step validate event
      | .restart configured started => .create configured started
    attempts := (y.attempt? event).toList ++ y.attempts
    clock := if event.utcMs = 0 then y.clock else event.utcMs }

def run (y : System) (events : List Event) : System :=
  events.foldl (step validate) y

/-- The trusted time of the event is not before the one seen last. -/
def timely (y : System) (event : Event) : Bool :=
  event.utcMs == 0 || decide (y.clock ≤ event.utcMs)

def allTimely (y : System) : List Event → Bool
  | [] => true
  | event :: events => y.timely event && allTimely (y.step validate event) events

/-- Every two consecutive attempts are the persistence interval apart. -/
def Spaced (y : System) : Prop :=
  y.attempts.IsChain fun newer older => elapsedAtLeast newer older flashIntervalMs = true

instance (y : System) : Decidable y.Spaced :=
  inferInstanceAs (Decidable (List.IsChain _ _))

/-- The recovered watermark covers the last attempt. -/
def remembers (y : System) (recovered : RecoveredState) : Bool :=
  recovered.attemptWatermarkUnknown ||
    y.attempts.head?.all fun last => decide (last ≤ recovered.lastPersistAttemptUtcMs)

/-- The next step of the worker does not forget the last attempt: a recovered watermark that is
published with no attempt behind it covers it, and an attempt that fails leaves behind a watermark
that covers it. -/
def keepsWatermark (y : System) : Event → Bool
  | .store (.worker _) =>
    match y.store.worker with
    | .publishing recovered true => y.remembers recovered
    | .republishing checkpoint recovered true =>
      !y.store.obsolete checkpoint recovered true || y.remembers recovered
    | .finishing checkpoint ok status =>
      (ok && (status.bind fun persisted => persisted.active).isSome) ||
        y.store.attemptWatermarkUnknown ||
        decide (checkpoint.attemptUtcMs ≤ y.store.lastPersistAttemptUtcMs)
    | _ => true
  | _ => true

/-- Every step of the run keeps the watermark. -/
def allKeepWatermark (y : System) : List Event → Bool
  | [] => true
  | event :: events => y.keepsWatermark event && allKeepWatermark (y.step validate event) events

end System

end RlcdDeck.AiSnapshot
