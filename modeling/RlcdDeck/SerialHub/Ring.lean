import RlcdDeck.Collections.RingBuffer
import RlcdDeck.Counter.Nonzero

/-!
# The Companion's serial ring

The model of `serialhub/ring.go`: the frames of the current Deck serial session in a ring that
drops its oldest ones, with observers that read it at their own pace and are told how many bytes
they missed.

A map of observers is a list of its entries.  `int` is unbounded here, as no count comes near its
limit; 64-bit counters wrap as in the source.  Evicted slots are zeroed there, which nothing reads.
The mutex and the copying of payloads are left out.
-/

namespace RlcdDeck.SerialHub

open Collections Counter

/-- `DefaultCapacityBytes`. -/
def defaultCapacityBytes : ℕ := 8 * 2 ^ 20

/-- `DefaultMaximumFrames`. -/
def defaultMaximumFrames : ℕ := 64 * 2 ^ 10

/-- `DefaultMaximumReaders`. -/
def defaultMaximumReaders : ℕ := 64

/-- `serialprotocol.MaxPayloadBytes`. -/
def maxPayloadBytes : ℕ := 256

/-- `serialprotocol.Channel`. -/
inductive Channel where
  | targetRx
  | webTx
  deriving DecidableEq

/-- `serialprotocol.Frame`. -/
structure Frame where
  channel : Channel
  sessionId : UInt64
  sequence : UInt64
  monotonicMs : UInt64
  payload : List UInt8
  deriving DecidableEq

inductive RingError where
  | closed
  | invalidSession
  | wrongSession
  | outOfOrder
  | rangeTooLarge
  | rangeUnavailable
  | observerLimit
  | observerNotFound
  deriving DecidableEq

structure Config where
  capacityBytes : ℤ
  maximumFrames : ℤ
  maximumObservers : ℤ

structure Record where
  ordinal : UInt64
  frame : Frame
  deriving DecidableEq

structure Observer where
  nextOrdinal : UInt64
  overwrittenBytes : UInt64 := 0

structure Ring where
  capacityBytes : ℕ
  maximumObservers : ℕ
  /-- `records`, `maximumFrames`, `head` and `count`. -/
  records : RingBuffer Record
  bufferedBytes : ℤ := 0
  nextOrdinal : UInt64 := 1
  nextObserverId : UInt64 := 1
  observers : List (UInt64 × Observer) := []
  sessionId : UInt64 := 0
  lastSequence : UInt64 := 0
  hasLastSequence : Bool := false
  lastMonotonicMs : UInt64 := 0
  hasLastMonotonic : Bool := false
  overwrittenBytes : UInt64 := 0
  overwrittenFrames : UInt64 := 0
  closed : Bool := false

/-- `ObserverRead`. -/
structure ObserverRead where
  sessionId : UInt64
  frames : List Frame
  overwrittenBytes : UInt64

/-- A zeroed slot. -/
def Record.zero : Record :=
  ⟨0, ⟨.targetRx, 0, 0, 0, []⟩⟩

namespace Ring

/-- A zero in the configuration stands for the default. -/
def orDefault (value : ℤ) (default : ℕ) : ℤ :=
  if value = 0 then default else value

/-- `NewRing`. -/
def new (config : Config) : Option Ring :=
  let capacityBytes := orDefault config.capacityBytes defaultCapacityBytes
  let maximumFrames := orDefault config.maximumFrames defaultMaximumFrames
  let maximumObservers := orDefault config.maximumObservers defaultMaximumReaders
  if capacityBytes ≤ 0 ∨ defaultCapacityBytes < capacityBytes ∨
      maximumFrames ≤ 0 ∨ defaultMaximumFrames < maximumFrames ∨
      maximumObservers ≤ 0 ∨ defaultMaximumReaders < maximumObservers then none
  else
    some
      { capacityBytes := capacityBytes.toNat
        maximumObservers := maximumObservers.toNat
        records := .empty maximumFrames.toNat .zero }

/-- `clearSessionLocked`. -/
def clearSession (r : Ring) : Ring :=
  { r with
    records := { r.records with head := 0, count := 0 }
    bufferedBytes := 0
    sessionId := 0
    lastSequence := 0
    hasLastSequence := false
    lastMonotonicMs := 0
    hasLastMonotonic := false
    overwrittenBytes := 0
    overwrittenFrames := 0
    observers := [] }

def begin (r : Ring) (sessionId : UInt64) : Option RingError × Ring :=
  if r.closed then (some .closed, r)
  else if sessionId = 0 then (some .invalidSession, r)
  else if r.sessionId = sessionId then (none, r)
  else (none, { r.clearSession with sessionId })

/-- `Ring.End`. -/
def endSession (r : Ring) (sessionId : UInt64) : Option RingError × Ring :=
  if r.closed then (some .closed, r)
  else if sessionId = 0 ∨ r.sessionId ≠ sessionId then (some .wrongSession, r)
  else (none, r.clearSession)

def sequenceAfter (candidate previous : UInt64) : Bool :=
  candidate ≠ 0 && previous ≠ 0 && candidate ≠ previous && candidate - previous < 0x8000000000000000

/-- An observer that has not read a record is charged for it when it is dropped. -/
def charge (stored : Record) (o : Observer) : Observer :=
  if o.nextOrdinal ≤ stored.ordinal then
    { nextOrdinal := stored.ordinal + 1
      overwrittenBytes := o.overwrittenBytes + UInt64.ofNat stored.frame.payload.length }
  else o

/-- `evictOldestLocked`. -/
def evictOldest (r : Ring) : Ring :=
  if r.records.count = 0 then r
  else
    let stored := r.records.slots r.records.head
    let length := stored.frame.payload.length
    { r with
      observers := r.observers.map fun (id, o) => (id, charge stored o)
      bufferedBytes := r.bufferedBytes - length
      overwrittenBytes := r.overwrittenBytes + UInt64.ofNat length
      overwrittenFrames := r.overwrittenFrames + 1
      records := r.records.pop }

/-- The condition of the eviction loop of `Ingest`. -/
def needsRoom (r : Ring) (length : ℕ) : Bool :=
  r.records.count = r.records.capacity || r.capacityBytes < r.bufferedBytes + length

/-- The eviction loop; each turn drops a record, so there are at most `count` turns. -/
def makeRoom (length : ℕ) : ℕ → Ring → Ring
  | 0, r => r
  | n + 1, r => if r.needsRoom length then makeRoom length n r.evictOldest else r

/-- The frame is stored behind the others. -/
def store (r : Ring) (frame : Frame) : Ring :=
  { r with
    records := r.records.push ⟨r.nextOrdinal, frame⟩
    bufferedBytes := r.bufferedBytes + frame.payload.length
    nextOrdinal := nonzeroNext r.nextOrdinal
    lastSequence := frame.sequence
    hasLastSequence := true
    lastMonotonicMs := frame.monotonicMs
    hasLastMonotonic := true }

/-- The checks of `Ingest`, in their order. -/
def ingestError (r : Ring) (frame : Frame) : Option RingError :=
  if r.closed then some .closed
  else if r.sessionId = 0 ∨ frame.sessionId ≠ r.sessionId then some .wrongSession
  else if frame.channel ≠ .targetRx ∨ frame.sequence = 0 ∨ frame.payload.length = 0 ∨
      maxPayloadBytes < frame.payload.length then some .outOfOrder
  else if r.capacityBytes < frame.payload.length then some .rangeTooLarge
  else if r.hasLastSequence ∧ ¬sequenceAfter frame.sequence r.lastSequence then some .outOfOrder
  else if r.hasLastMonotonic ∧ frame.monotonicMs < r.lastMonotonicMs then some .outOfOrder
  else none

def ingest (r : Ring) (frame : Frame) : Option RingError × Ring :=
  match r.ingestError frame with
  | some error => (some error, r)
  | none => (none, (r.makeRoom frame.payload.length r.records.count).store frame)

/-- `ring.observers[id] = o`. -/
def setObserver (id : UInt64) (o : Observer) (observers : List (UInt64 × Observer)) :
    List (UInt64 × Observer) :=
  observers.filter (fun entry => entry.1 ≠ id) ++ [(id, o)]

/-- The position of a new observer. -/
def oldestOrdinal (r : Ring) : UInt64 :=
  if r.records.count ≠ 0 then (r.records.slots r.records.head).ordinal else r.nextOrdinal

def openObserver (r : Ring) (sessionId : UInt64) : Except RingError UInt64 × Ring :=
  if r.closed then (.error .closed, r)
  else if sessionId = 0 ∨ sessionId ≠ r.sessionId then (.error .wrongSession, r)
  else if r.maximumObservers ≤ r.observers.length then (.error .observerLimit, r)
  else
    let id := r.nextObserverId
    (.ok id,
      { r with
        nextObserverId := nonzeroNext r.nextObserverId
        observers := setObserver id { nextOrdinal := r.oldestOrdinal } r.observers })

def closeObserver (r : Ring) (id : UInt64) : Ring :=
  { r with observers := r.observers.filter fun entry => entry.1 ≠ id }

/-- The loop of `ReadObserver` over the retained records: the frames read so far, their bytes and
the reader's position.  `none` is a first frame that exceeds the limit. -/
def readLoop (maximumBytes maximumFrames : ℤ) :
    List Record → List Frame → ℕ → UInt64 → Option (List Frame × UInt64)
  | [], frames, _, next => some (frames, next)
  | stored :: rest, frames, used, next =>
    if ¬(frames.length : ℤ) < maximumFrames then some (frames, next)
    else if stored.ordinal < next then readLoop maximumBytes maximumFrames rest frames used next
    else if maximumBytes < used + stored.frame.payload.length then
      if frames.length = 0 then none else some (frames, next)
    else
      readLoop maximumBytes maximumFrames rest (frames ++ [stored.frame])
        (used + stored.frame.payload.length) (stored.ordinal + 1)

/-- The observer behind an id. -/
def observer? (r : Ring) (id : UInt64) : Option Observer :=
  (r.observers.find? fun entry => entry.1 = id).map Prod.snd

def readObserver (r : Ring) (id : UInt64) (maximumBytes maximumFrames : ℤ) :
    Except RingError ObserverRead × Ring :=
  if r.closed then (.error .closed, r)
  else
    match r.observer? id with
    | none => (.error .observerNotFound, r)
    | some reader =>
      if maximumBytes ≤ 0 ∨ maximumFrames ≤ 0 then (.error .rangeTooLarge, r)
      else
        match readLoop maximumBytes maximumFrames r.records.contents [] 0 reader.nextOrdinal with
        | none => (.error .rangeTooLarge, r)
        | some (frames, next) =>
          (.ok ⟨r.sessionId, frames, reader.overwrittenBytes⟩,
            { r with
              observers := r.observers.map fun entry =>
                if entry.1 = id then (id, { entry.2 with nextOrdinal := next }) else entry })

def close (r : Ring) : Ring :=
  if r.closed then r else { r.clearSession with closed := true }

end Ring

end RlcdDeck.SerialHub
