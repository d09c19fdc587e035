import RlcdDeck.Collections.FreeChain
import RlcdDeck.Collections.RingBuffer
import RlcdDeck.Counter.Nonzero

/-!
# The serial router

The model of `deck_serial_router.cpp`: one pool of fixed-size blocks with an intrusive free
list, and up to four sinks, each a ring of block indices with its own byte limit, its drop-oldest
policy and its counters.

Block indices are naturals, and `kNoBlock` is `none`.  Allocations are answered by the caller of
an operation (`allocated`).  `size_t` arithmetic is on naturals below `2^32`, with the
subtraction of `remove_front` wrapping as it does there.  Null checks, the mutex and `destroy`
are left out, and a sink id is one of the four.
-/

namespace RlcdDeck.SerialRouter

open Collections Counter

/-- `DECK_SERIAL_ROUTER_BLOCK_BYTES`. -/
def blockBytes : ℕ := 256

/-- `DECK_SERIAL_HISTORY_MIN_BYTES`. -/
def historyMinBytes : ℕ := 64 * 1024

/-- `DECK_SERIAL_HISTORY_MAX_BYTES`. -/
def historyMaxBytes : ℕ := 2048 * 1024

/-- `deck_serial_sink_id_t`. -/
inductive SinkId where
  | usb
  | wss
  | history
  | stats
  deriving DecidableEq

/-- The sinks in the order of the router's array. -/
def sinkIds : List SinkId := [.usb, .wss, .history, .stats]

structure BlockMetadata where
  sequence : UInt64 := 0
  monotonicMs : UInt64 := 0
  nextFree : Option ℕ := none
  length : ℕ := 0
  references : ℕ := 0

structure SinkConfig where
  id : SinkId
  capacityBytes : ℕ
  retained : Bool
  deriving DecidableEq

structure Sink where
  config : SinkConfig := ⟨.usb, 0, false⟩
  /-- `blocks`, `capacity_blocks`, `head` and `count`. -/
  blocks : RingBuffer ℕ := .empty 0 0
  queuedBytes : ℕ := 0
  overwrittenBytes : UInt64 := 0
  overwrittenBlocks : UInt64 := 0
  deliveredBytes : UInt64 := 0
  deliveredBlocks : UInt64 := 0
  clearedBytes : UInt64 := 0
  clearedBlocks : UInt64 := 0
  registered : Bool := false

/-- `deck_serial_router_stats_t`. -/
structure RouterStats where
  acceptedBytes : UInt64 := 0
  acceptedBlocks : UInt64 := 0
  lastSequence : UInt64 := 0
  poolExhaustions : UInt64 := 0
  uartFifoOverflows : UInt64 := 0
  uartDriverBufferFull : UInt64 := 0
  routerStarvations : UInt64 := 0

structure Router where
  sessionId : UInt64
  poolCapacityBytes : ℕ
  poolBlocks : ℕ
  payloads : ℕ → List UInt8
  metadata : ℕ → BlockMetadata
  freeHead : Option ℕ
  sinks : SinkId → Sink
  stats : RouterStats

structure RouterConfig where
  sessionId : UInt64
  poolCapacityBytes : ℕ
  initialSequence : UInt64

/-- `deck_serial_input_block_t`: the first `length` bytes of its array. -/
structure InputBlock where
  monotonicMs : UInt64
  bytes : List UInt8
  deriving DecidableEq

/-- `deck_serial_routed_block_t`, its byte array padded with zeros. -/
structure RoutedBlock where
  sessionId : UInt64
  sequence : UInt64
  monotonicMs : UInt64
  length : ℕ
  bytes : List UInt8
  deriving DecidableEq

/-- `deck_serial_router_copy_result_t`, with the copied block. -/
inductive CopyResult where
  | ok (block : RoutedBlock)
  | empty
  | gap (block : RoutedBlock)
  | invalid
  deriving DecidableEq

/-- `deck_serial_sink_stats_t`. -/
structure SinkStats where
  retained : Bool
  capacityBytes : ℕ
  queuedBytes : ℕ
  queuedBlocks : ℕ
  oldestSequence : UInt64
  newestSequence : UInt64
  overwrittenBytes : UInt64
  overwrittenBlocks : UInt64
  deliveredBytes : UInt64
  deliveredBlocks : UInt64
  clearedBytes : UInt64
  clearedBlocks : UInt64

/-- `deck_serial_uart_error_t`. -/
inductive UartError where
  | fifoOverflow
  | driverBufferFull
  | routerStarved
  deriving DecidableEq

/-! ### Helpers -/

/-- The source tests `left > UINT64_MAX - right`; the sum of the naturals says the same. -/
def saturatingAdd (left right : UInt64) : UInt64 :=
  if 0xffffffffffffffff < left.toNat + right.toNat then 0xffffffffffffffff else left + right

/-- A byte count added to a 64-bit counter. -/
def saturatingAddLength (left : UInt64) (length : ℕ) : UInt64 :=
  saturatingAdd left (UInt64.ofNat length)

def saturatingAddSize (left right : ℕ) : ℕ :=
  if 2 ^ 32 - 1 < left + right then 2 ^ 32 - 1 else left + right

/-- `left - right` in `size_t`. -/
def subSize (left right : ℕ) : ℕ :=
  (left + 2 ^ 32 - right) % 2 ^ 32

def nextNonzero (sequence : UInt64) : UInt64 :=
  nonzeroNext sequence

/-- A byte array of one block. -/
def padded (bytes : List UInt8) : List UInt8 :=
  bytes ++ List.replicate (blockBytes - bytes.length) 0

/-! ### Blocks -/

def returnBlock (r : Router) (i : ℕ) : Router :=
  { r with
    metadata := Function.update r.metadata i { nextFree := r.freeHead }
    payloads := Function.update r.payloads i (List.replicate blockBytes 0)
    freeHead := some i }

def releaseReference (r : Router) (i : ℕ) : Router :=
  let block := r.metadata i
  if block.references = 0 then r
  else
    let r :=
      { r with
        metadata := Function.update r.metadata i
          { block with references := block.references - 1 } }
    if block.references - 1 = 0 then returnBlock r i else r

/-- Why `remove_front` removes a block. -/
inductive Removal where
  | overwritten
  | cleared
  | delivered

/-- The counters after a block of `length` bytes left the sink. -/
def Sink.countRemoval (s : Sink) (why : Removal) (length : ℕ) : Sink :=
  match why with
  | .overwritten =>
    { s with
      overwrittenBytes := saturatingAddLength s.overwrittenBytes length
      overwrittenBlocks := saturatingAdd s.overwrittenBlocks 1 }
  | .cleared =>
    { s with
      clearedBytes := saturatingAddLength s.clearedBytes length
      clearedBlocks := saturatingAdd s.clearedBlocks 1 }
  | .delivered =>
    { s with
      deliveredBytes := saturatingAddLength s.deliveredBytes length
      deliveredBlocks := saturatingAdd s.deliveredBlocks 1 }

def removeFront (r : Router) (k : SinkId) (why : Removal) : Router :=
  let sink := r.sinks k
  if sink.blocks.count = 0 then r
  else
    let i := sink.blocks.slots sink.blocks.head
    let length := (r.metadata i).length
    let sink :=
      { sink with blocks := sink.blocks.pop, queuedBytes := subSize sink.queuedBytes length }
    releaseReference
      { r with sinks := Function.update r.sinks k (sink.countRemoval why length) } i

/-- The loop of `clear_sink_locked`, once for each queued block. -/
def removeAll (k : SinkId) : ℕ → Router → Router
  | 0, r => r
  | n + 1, r => removeAll k n (removeFront r k .cleared)

def clearSinkLocked (r : Router) (k : SinkId) : Router :=
  let r := removeAll k (r.sinks k).blocks.count r
  let sink := r.sinks k
  { r with
    sinks := Function.update r.sinks k { sink with blocks := { sink.blocks with head := 0 } } }

def copyBlock (r : Router) (i : ℕ) : RoutedBlock :=
  let block := r.metadata i
  { sessionId := r.sessionId, sequence := block.sequence, monotonicMs := block.monotonicMs,
    length := block.length, bytes := padded ((r.payloads i).take block.length) }

def fillSinkStats (r : Router) (s : Sink) : SinkStats :=
  { retained := s.config.retained
    capacityBytes := s.config.capacityBytes
    queuedBytes := s.queuedBytes
    queuedBlocks := s.blocks.count
    oldestSequence := if s.blocks.count ≠ 0 then (r.metadata (s.blocks.peek 0)).sequence else 0
    newestSequence :=
      if s.blocks.count ≠ 0 then (r.metadata (s.blocks.peek (s.blocks.count - 1))).sequence
      else 0
    overwrittenBytes := s.overwrittenBytes
    overwrittenBlocks := s.overwrittenBlocks
    deliveredBytes := s.deliveredBytes
    deliveredBlocks := s.deliveredBlocks
    clearedBytes := s.clearedBytes
    clearedBlocks := s.clearedBlocks }

/-! ### The operations -/

def create (config : RouterConfig) (allocated : Bool) : Option Router :=
  if config.sessionId = 0 ∨ config.poolCapacityBytes = 0 ∨
      config.poolCapacityBytes % blockBytes ≠ 0 ∨ historyMaxBytes < config.poolCapacityBytes then
    none
  else
    let blockCount := config.poolCapacityBytes / blockBytes
    if blockCount = 0 ∨ allocated = false then none
    else
      some
        { sessionId := config.sessionId
          poolCapacityBytes := config.poolCapacityBytes
          poolBlocks := blockCount
          payloads := fun _ => List.replicate blockBytes 0
          metadata := fun i => { nextFree := if i + 1 < blockCount then some (i + 1) else none }
          freeHead := some 0
          sinks := fun _ => {}
          stats := { lastSequence := config.initialSequence } }

def registerSink (r : Router) (config : SinkConfig) (allocated : Bool) : Bool × Router :=
  if config.capacityBytes = 0 ∨ config.capacityBytes % blockBytes ≠ 0 ∨
      r.poolCapacityBytes < config.capacityBytes ∨
      config.retained ≠ decide (config.id = .history) ∨
      (config.id = .history ∧ config.capacityBytes < historyMinBytes) then (false, r)
  else if (r.sinks config.id).registered then (false, r)
  else if allocated = false then (false, r)
  else
    let sink : Sink :=
      { r.sinks config.id with
        config, blocks := .empty (config.capacityBytes / blockBytes) 0, registered := true }
    (true, { r with sinks := Function.update r.sinks config.id sink })

def clearSink (r : Router) (k : SinkId) : Bool × Router :=
  if (r.sinks k).registered = false then (false, r) else (true, clearSinkLocked r k)

def unregisterSink (r : Router) (k : SinkId) : Bool × Router :=
  if (r.sinks k).registered = false then (false, r)
  else
    let r := clearSinkLocked r k
    (true, { r with sinks := Function.update r.sinks k {} })

/-- The first loop of `submit`, for one sink. -/
def evictIfFull (r : Router) (k : SinkId) : Router :=
  let sink := r.sinks k
  if sink.registered = true ∧ sink.blocks.count = sink.blocks.capacity then
    removeFront r k .overwritten
  else r

/-- The second loop of `submit`, for one sink. -/
def appendBlock (i length : ℕ) (r : Router) (k : SinkId) : Router :=
  let sink := r.sinks k
  if sink.registered = false then r
  else
    let block := r.metadata i
    { r with
      sinks := Function.update r.sinks k
        { sink with
          blocks := sink.blocks.push i
          queuedBytes := saturatingAddSize sink.queuedBytes length }
      metadata := Function.update r.metadata i { block with references := block.references + 1 } }

/-- The free block is taken and filled. -/
def fillBlock (r : Router) (i : ℕ) (input : InputBlock) : Router :=
  { r with
    freeHead := (r.metadata i).nextFree
    metadata := Function.update r.metadata i
      { sequence := nextNonzero r.stats.lastSequence
        monotonicMs := input.monotonicMs
        nextFree := none
        length := input.bytes.length
        references := 0 }
    payloads := Function.update r.payloads i (padded input.bytes) }

/-- `deck_serial_router_submit`; `none` is the answer `false`. -/
def submit (r : Router) (input : InputBlock) : Option UInt64 × Router :=
  let length := input.bytes.length
  if length = 0 ∨ blockBytes < length then (none, r)
  else
    let r := sinkIds.foldl evictIfFull r
    match r.freeHead with
    | none =>
      (none,
        { r with
          stats := { r.stats with poolExhaustions := saturatingAdd r.stats.poolExhaustions 1 } })
    | some i =>
      let sequence := nextNonzero r.stats.lastSequence
      let r := sinkIds.foldl (appendBlock i length) (fillBlock r i input)
      let r :=
        { r with
          stats :=
            { r.stats with
              acceptedBytes := saturatingAddLength r.stats.acceptedBytes length
              acceptedBlocks := saturatingAdd r.stats.acceptedBlocks 1
              lastSequence := sequence } }
      (some sequence, if (r.metadata i).references = 0 then returnBlock r i else r)

def take (r : Router) (k : SinkId) : CopyResult × Router :=
  let sink := r.sinks k
  if sink.registered = false ∨ sink.config.retained = true then (.invalid, r)
  else if sink.blocks.count = 0 then (.empty, r)
  else (.ok (copyBlock r (sink.blocks.peek 0)), removeFront r k .delivered)

/-- The search of `copy_after`: the offset of the first queued block with that sequence. -/
def findSequence (r : Router) (s : Sink) (sequence : UInt64) : Option ℕ :=
  (List.range s.blocks.count).find? fun offset =>
    (r.metadata (s.blocks.peek offset)).sequence == sequence

/-- Copies the block at `offset` and counts it as delivered. -/
def deliver (r : Router) (k : SinkId) (offset : ℕ) : RoutedBlock × Router :=
  let sink := r.sinks k
  let i := sink.blocks.peek offset
  (copyBlock r i,
    { r with
      sinks := Function.update r.sinks k
        { sink with
          deliveredBytes := saturatingAddLength sink.deliveredBytes (r.metadata i).length
          deliveredBlocks := saturatingAdd sink.deliveredBlocks 1 } })

def copyAfter (r : Router) (k : SinkId) (afterSequence : UInt64) : CopyResult × Router :=
  let sink := r.sinks k
  if sink.registered = false ∨ sink.config.retained = false then (.invalid, r)
  else if sink.blocks.count = 0 then (.empty, r)
  else if afterSequence = 0 then
    let delivered := deliver r k 0
    (.ok delivered.1, delivered.2)
  else
    match findSequence r sink afterSequence with
    | none =>
      let delivered := deliver r k 0
      (.gap delivered.1, delivered.2)
    | some offset =>
      if offset + 1 = sink.blocks.count then (.empty, r)
      else
        let delivered := deliver r k (offset + 1)
        (.ok delivered.1, delivered.2)

def noteUartError (r : Router) (error : UartError) : Router :=
  let stats :=
    match error with
    | .fifoOverflow =>
      { r.stats with uartFifoOverflows := saturatingAdd r.stats.uartFifoOverflows 1 }
    | .driverBufferFull =>
      { r.stats with uartDriverBufferFull := saturatingAdd r.stats.uartDriverBufferFull 1 }
    | .routerStarved =>
      { r.stats with routerStarvations := saturatingAdd r.stats.routerStarvations 1 }
  { r with stats }

def sinkStats (r : Router) (k : SinkId) : Option SinkStats :=
  if (r.sinks k).registered = false then none else some (fillSinkStats r (r.sinks k))

/-! ### Runs -/

/-- One call of the router's interface. -/
inductive Op where
  | register (config : SinkConfig) (allocated : Bool)
  | unregister (sink : SinkId)
  | submit (input : InputBlock)
  | take (sink : SinkId)
  | copyAfter (sink : SinkId) (afterSequence : UInt64)
  | clear (sink : SinkId)
  | noteUartError (error : UartError)
  | sinkStats (sink : SinkId)
  deriving DecidableEq

/-- What a call answers. -/
inductive Output where
  | done (ok : Bool)
  | sequence (accepted : Option UInt64)
  | copied (result : CopyResult)
  | stats (result : Option SinkStats)

/-- One call: its answer and the router after it. -/
def perform (r : Router) : Op → Output × Router
  | .register config allocated =>
    let result := registerSink r config allocated
    (.done result.1, result.2)
  | .unregister k =>
    let result := unregisterSink r k
    (.done result.1, result.2)
  | .submit input =>
    let result := submit r input
    (.sequence result.1, result.2)
  | .take k =>
    let result := take r k
    (.copied result.1, result.2)
  | .copyAfter k afterSequence =>
    let result := copyAfter r k afterSequence
    (.copied result.1, result.2)
  | .clear k =>
    let result := clearSink r k
    (.done result.1, result.2)
  | .noteUartError error => (.done true, noteUartError r error)
  | .sinkStats k => (.stats (sinkStats r k), r)

/-- The router after a sequence of calls. -/
def run (r : Router) (ops : List Op) : Router :=
  ops.foldl (fun r op => (perform r op).2) r

end RlcdDeck.SerialRouter
