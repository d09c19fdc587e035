import RlcdDeck.SerialRouter.Router

/-!
# The stand-alone sink

What one sink is for, without the shared pool: a first-in first-out queue with a byte limit and a
block limit that drops its oldest blocks to make room for a new one.  `Solo` is such a queue
together with what decides the sequence numbers; it answers the calls a sink is named in.
-/

namespace RlcdDeck.SerialRouter

/-- What a block holds. -/
structure StoredBlock where
  sequence : UInt64
  monotonicMs : UInt64
  bytes : List UInt8
  deriving DecidableEq

/-- A bounded drop-oldest queue with its counters. -/
structure Fifo where
  capacityBytes : ℕ
  capacityBlocks : ℕ
  retained : Bool
  queue : List StoredBlock := []
  overwrittenBytes : UInt64 := 0
  overwrittenBlocks : UInt64 := 0
  deliveredBytes : UInt64 := 0
  deliveredBlocks : UInt64 := 0
  clearedBytes : UInt64 := 0
  clearedBlocks : UInt64 := 0

namespace Fifo

def queuedBytes (f : Fifo) : ℕ :=
  (f.queue.map fun b => b.bytes.length).sum

def countRemoval (f : Fifo) (why : Removal) (length : ℕ) : Fifo :=
  match why with
  | .overwritten =>
    { f with
      overwrittenBytes := saturatingAddLength f.overwrittenBytes length
      overwrittenBlocks := saturatingAdd f.overwrittenBlocks 1 }
  | .cleared =>
    { f with
      clearedBytes := saturatingAddLength f.clearedBytes length
      clearedBlocks := saturatingAdd f.clearedBlocks 1 }
  | .delivered =>
    { f with
      deliveredBytes := saturatingAddLength f.deliveredBytes length
      deliveredBlocks := saturatingAdd f.deliveredBlocks 1 }

/-- Removes the oldest block. -/
def remove (f : Fifo) (why : Removal) : Fifo :=
  match f.queue with
  | [] => f
  | b :: rest => countRemoval { f with queue := rest } why b.bytes.length

/-- A block of `length` bytes fits within both limits. -/
def hasRoom (f : Fifo) (length : ℕ) : Bool :=
  f.queue.length < f.capacityBlocks && f.queuedBytes + length ≤ f.capacityBytes

/-- Drops the oldest blocks until a block of `length` bytes fits. -/
def makeRoom (length : ℕ) : ℕ → Fifo → Fifo
  | 0, f => f
  | n + 1, f => if f.hasRoom length then f else makeRoom length n (f.remove .overwritten)

def submit (f : Fifo) (b : StoredBlock) : Fifo :=
  let f := makeRoom b.bytes.length f.queue.length f
  { f with queue := f.queue ++ [b] }

def removeAll : ℕ → Fifo → Fifo
  | 0, f => f
  | n + 1, f => removeAll n (f.remove .cleared)

def clear (f : Fifo) : Fifo :=
  removeAll f.queue.length f

/-- The block a caller gets. -/
def routed (sessionId : UInt64) (b : StoredBlock) : RoutedBlock :=
  { sessionId, sequence := b.sequence, monotonicMs := b.monotonicMs, length := b.bytes.length,
    bytes := padded b.bytes }

def take (f : Fifo) (sessionId : UInt64) : CopyResult × Fifo :=
  if f.retained then (.invalid, f)
  else
    match f.queue with
    | [] => (.empty, f)
    | b :: _ => (.ok (routed sessionId b), f.remove .delivered)

/-- Copies a block without removing it. -/
def deliver (f : Fifo) (b : StoredBlock) : Fifo :=
  f.countRemoval .delivered b.bytes.length

def copyAfter (f : Fifo) (sessionId afterSequence : UInt64) : CopyResult × Fifo :=
  if f.retained = false then (.invalid, f)
  else
    match f.queue with
    | [] => (.empty, f)
    | b :: _ =>
      if afterSequence = 0 then (.ok (routed sessionId b), f.deliver b)
      else
        match f.queue.findIdx? fun b => b.sequence == afterSequence with
        | none => (.gap (routed sessionId b), f.deliver b)
        | some offset =>
          match f.queue[offset + 1]? with
          | none => (.empty, f)
          | some b => (.ok (routed sessionId b), f.deliver b)

def stats (f : Fifo) : SinkStats :=
  { retained := f.retained
    capacityBytes := f.capacityBytes
    queuedBytes := f.queuedBytes
    queuedBlocks := f.queue.length
    oldestSequence := (f.queue.head?.map fun b => b.sequence).getD 0
    newestSequence := (f.queue.getLast?.map fun b => b.sequence).getD 0
    overwrittenBytes := f.overwrittenBytes
    overwrittenBlocks := f.overwrittenBlocks
    deliveredBytes := f.deliveredBytes
    deliveredBlocks := f.deliveredBlocks
    clearedBytes := f.clearedBytes
    clearedBlocks := f.clearedBlocks }

end Fifo

/-- A stand-alone sink: its queue while it is registered, and what it needs to know of the
session. -/
structure Solo where
  sessionId : UInt64
  poolCapacityBytes : ℕ
  lastSequence : UInt64
  fifo : Option Fifo := none

namespace Solo

/-- The configuration checks of a registration. -/
def validConfig (s : Solo) (config : SinkConfig) : Bool :=
  config.capacityBytes ≠ 0 && config.capacityBytes % blockBytes = 0 &&
    config.capacityBytes ≤ s.poolCapacityBytes &&
    config.retained = decide (config.id = .history) &&
    !(config.id = .history && config.capacityBytes < historyMinBytes)

def register (s : Solo) (config : SinkConfig) (allocated : Bool) : Bool × Solo :=
  if s.validConfig config && s.fifo.isNone && allocated then
    (true,
      { s with
        fifo := some
          { capacityBytes := config.capacityBytes
            capacityBlocks := config.capacityBytes / blockBytes
            retained := config.retained } })
  else (false, s)

def submit (s : Solo) (input : InputBlock) : Option UInt64 × Solo :=
  if input.bytes.length = 0 ∨ blockBytes < input.bytes.length then (none, s)
  else
    let sequence := nextNonzero s.lastSequence
    (some sequence,
      { s with
        lastSequence := sequence
        fifo := s.fifo.map fun f => f.submit ⟨sequence, input.monotonicMs, input.bytes⟩ })

/-- One call on the stand-alone sink. -/
def perform (s : Solo) : Op → Output × Solo
  | .register config allocated =>
    let result := s.register config allocated
    (.done result.1, result.2)
  | .unregister _ => (.done s.fifo.isSome, { s with fifo := none })
  | .submit input =>
    let result := s.submit input
    (.sequence result.1, result.2)
  | .take _ =>
    match s.fifo with
    | none => (.copied .invalid, s)
    | some f =>
      let result := f.take s.sessionId
      (.copied result.1, { s with fifo := some result.2 })
  | .copyAfter _ afterSequence =>
    match s.fifo with
    | none => (.copied .invalid, s)
    | some f =>
      let result := f.copyAfter s.sessionId afterSequence
      (.copied result.1, { s with fifo := some result.2 })
  | .clear _ => (.done s.fifo.isSome, { s with fifo := s.fifo.map Fifo.clear })
  | .noteUartError _ => (.done true, s)
  | .sinkStats _ => (.stats (s.fifo.map Fifo.stats), s)

end Solo

end RlcdDeck.SerialRouter
