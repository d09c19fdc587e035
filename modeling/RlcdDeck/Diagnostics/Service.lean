import RlcdDeck.Diagnostics.Segments
import RlcdDeck.Effects.Interference

/-!
# The diagnostics service

The model of `diagnostics/service.go`: `Open`, `Record`, `Flush`, `Close` and the writer.  The writer is
a program over the clock, the channel of commands, the counter of dropped events and the files; the
variables of its closures are read and assigned by calls as well, so that what they hold is known at
every moment.  The others may record events, and ask for a flush or for the end, between any two calls.

An event that is recorded gets a number, and the world remembers what became of it.  The code keeps no
such record.
-/

namespace RlcdDeck.Diagnostics

open Json (Bytes)
open Effects
open ProtectedFile (Directory Faults Name Replaced)

/-- An event that was recorded, with its number. -/
structure Recorded where
  id : ℕ
  event : Event

/-- An event of a batch; one that counts dropped events has no number. -/
structure Entry where
  id : Option ℕ
  stored : StoredEvent

/-- What the encoder of `persist` writes. -/
def encodeLines (entries : List Entry) : Bytes := entries.flatMap fun entry => entry.stored.line

/-- `workerCommand`. -/
inductive Command where
  | event (recorded : Recorded)
  | flush
  | stop

/-- The variables of `run`. -/
structure Writer where
  batch : List Entry := []
  batchBytes : ℕ := 0
  activeCreated : Reading := ⟨0, none⟩
  activePath : Option Name := none
  activePersistedBytes : ℕ := 0
  dirty : Bool := false
  lastSegmentNs : ℤ := -1
  lastRetentionCheck : Reading := ⟨0, none⟩
  sequence : UInt64 := 0
  /-- The event that was taken from the channel. -/
  command : Option Recorded := none
  /-- What `commit` has taken from the counter. -/
  count : UInt32 := 0
  storageFaulted : Bool := false

/-- The service and its directory. -/
structure World where
  files : Directory
  commands : List Command := []
  closed : Bool := false
  dropped : UInt32 := 0
  writer : Writer := {}
  /-- Whether the last commit has failed, once the writer has ended. -/
  terminal : Option Bool := none
  /-- How many events were recorded. -/
  recorded : ℕ := 0
  /-- The segments that the writer has written. -/
  segments : AList fun _ : Name => List Entry := ∅
  /-- The events of its segments that were removed. -/
  removed : List Entry := []
  /-- The events that were counted as dropped. -/
  lost : List ℕ := []
  /-- The active segment was removed. -/
  activeRemoved : Bool := false

/-! ### The others -/

/-- `Record`. -/
def World.record (config : Config) (world : World) (event : Event) : Bool × World :=
  if !validEvent event || world.closed then (false, world)
  else if world.commands.length < config.queueCapacity then
    (true,
      { world with
        commands := world.commands ++ [.event ⟨world.recorded, event⟩]
        recorded := world.recorded + 1 })
  else
    (false,
      { world with
        dropped := world.dropped + 1
        recorded := world.recorded + 1
        lost := world.lost ++ [world.recorded] })

/-- What the others do. -/
inductive Others (config : Config) : World → World → Prop where
  | record (world : World) (event : Event) : Others config world (world.record config event).2
  /-- `Flush`, when there is room for its command. -/
  | flush {world : World} : world.closed = false → world.commands.length < config.queueCapacity →
      Others config world { world with commands := world.commands ++ [.flush] }
  /-- `Close`, when there is room for its command. -/
  | close {world : World} : world.closed = false → world.commands.length < config.queueCapacity →
      Others config world { world with commands := world.commands ++ [.stop], closed := true }

/-! ### The calls of the writer -/

/-- What `select` has received. -/
inductive Received where
  | event (recorded : Recorded)
  | flush
  | stop
  | tick

/-- What `os.Lstat` says of a name. -/
inductive Lookup where
  | found
  | missing
  | failed

inductive Call where
  /-- The `select` of the loop. -/
  | receive
  | now
  /-- The variables are read. -/
  | load
  /-- The variables are assigned. -/
  | save (writer : Writer)
  /-- `dropped.Swap(0)`. -/
  | swap
  /-- `dropped.Add` of what was taken from the counter. -/
  | restore
  /-- `dropped.Add(1)` for the event that was taken from the channel. -/
  | drop
  /-- `segmentsLocked`. -/
  | scan
  | remove (name : Name)
  | lstat (name : Name)
  /-- `protectedfile.Replace`. -/
  | replace (path : Name) (batch : List Entry)
  /-- The answer to a flush. -/
  | reply (failed : Bool)
  /-- The answer to `Close`, and the end of the writer. -/
  | finish (failed : Bool)

/-- What the calls answer. -/
abbrev Call.Answer : Call → Type
  | .receive => Received
  | .now => Reading
  | .load => Writer
  | .swap => UInt32
  | .scan => Option (List SegmentMeta)
  | .remove _ => Bool
  | .lstat _ => Lookup
  | .replace _ _ => Replaced
  | _ => Unit

/-- The world after `os.Remove`. -/
def World.remove (world : World) (name : Name) : World :=
  { world with
    files := world.files.erase name
    segments := world.segments.erase name
    removed := world.removed ++ (world.segments.lookup name).getD []
    activeRemoved := world.activeRemoved || decide (world.writer.activePath = some name) }

/-- The world after `protectedfile.Replace`. -/
def World.replace (world : World) (path : Name) (batch : List Entry) (result : Replaced)
    (files : Directory) : World :=
  { world with
    files
    segments := if result.committed then world.segments.insert path batch else world.segments }

/-- What a call can answer and do. -/
inductive Step (config : Config) : World → (call : Call) → call.Answer → World → Prop where
  | event {world : World} {recorded : Recorded} {commands : List Command} :
      world.commands = .event recorded :: commands →
      Step config world .receive (.event recorded)
        { world with commands, writer := { world.writer with command := some recorded } }
  | flush {world : World} {commands : List Command} : world.commands = .flush :: commands →
      Step config world .receive .flush { world with commands }
  | stop {world : World} {commands : List Command} : world.commands = .stop :: commands →
      Step config world .receive .stop { world with commands }
  | tick {world : World} : Step config world .receive .tick world
  | now {world : World} (reading : Reading) : Step config world .now reading world
  | load {world : World} : Step config world .load world.writer world
  | save {world : World} {writer : Writer} : Step config world (.save writer) () { world with writer }
  | swap {world : World} :
      Step config world .swap world.dropped
        { world with dropped := 0, writer := { world.writer with count := world.dropped } }
  | restore {world : World} :
      Step config world .restore ()
        { world with
          dropped := world.dropped + world.writer.count
          writer := { world.writer with count := 0 } }
  | drop {world : World} :
      Step config world .drop ()
        { world with
          dropped := world.dropped + 1
          lost := world.lost ++ world.writer.command.toList.map Recorded.id
          writer := { world.writer with command := none } }
  | scanned {world : World} {segments : List SegmentMeta} :
      segmentsLocked config world.files = some segments →
      Step config world .scan (some segments) world
  | notScanned {world : World} : Step config world .scan none world
  | removed {world : World} {name : Name} :
      Step config world (.remove name) true (world.remove name)
  | notRemoved {world : World} {name : Name} : Step config world (.remove name) false world
  | found {world : World} {name : Name} : name ∈ world.files →
      Step config world (.lstat name) .found world
  | missing {world : World} {name : Name} : name ∉ world.files →
      Step config world (.lstat name) .missing world
  | notLooked {world : World} {name : Name} : Step config world (.lstat name) .failed world
  | replaced {world : World} {path : Name} {batch : List Entry} {result : Replaced}
      {files : Directory} :
      Program.Exec ProtectedFile.Step (ProtectedFile.replace path (encodeLines batch)) world.files
        (some result) files →
      Step config world (.replace path batch) result
        (world.replace path batch result files)
  | reply {world : World} {failed : Bool} : Step config world (.reply failed) () world
  | finish {world : World} {failed : Bool} :
      Step config world (.finish failed) () { world with terminal := some failed }

/-- A program of the writer. -/
abbrev Prog := Program Call Call.Answer

def perform (call : Call) : Prog call.Answer := Program.perform call

/-! ### Retention -/

/-- The loop of `enforceRetentionLocked`; the number of segments that remain, if all could be removed
that have to be. -/
def removeSegments (config : Config) (cutoff : ℤ) (reserve : ℕ) (preserve : Option Name) :
    List SegmentMeta → (total remaining : ℕ) → Prog (Option ℕ)
  | [], _, remaining => pure (some remaining)
  | segment :: segments, total, remaining =>
    if preserve = some segment.name then
      removeSegments config cutoff reserve preserve segments total remaining
    else if cutoff < int64 (segment.createdNs + maximumSegmentAge) ∧
        total + reserve ≤ config.maximumBytes then
      removeSegments config cutoff reserve preserve segments total remaining
    else do
      let removed ← perform (.remove segment.name)
      if !removed then pure none
      else removeSegments config cutoff reserve preserve segments (total - segment.size) (remaining - 1)

/-- `enforceRetentionLocked`, whether it has succeeded. -/
def enforceRetention (config : Config) (now : Reading) (reserve : ℕ) (preserve : Option Name) :
    Prog Bool := do
  let scanned ← perform .scan
  match scanned with
  | none => pure false
  | some segments => do
    let remaining ← removeSegments config (unixNano (now.wall - config.retention)) reserve preserve
      segments (segments.map SegmentMeta.size).sum segments.length
    match remaining with
    | none => pure false
    | some remaining => pure (remaining < maximumSegmentEntries)

/-- `Open` of a directory that is there, whether it has succeeded. -/
def openService (config : Config) : Prog Bool := do
  let now ← perform .now
  enforceRetention config now 0 none

/-! ### Persisting -/

/-- `nextSegmentPath`, with the sequence after it. -/
def nextSegmentPath (createdNs : ℤ) : (fuel : ℕ) → UInt64 → Prog (Option Name × UInt64)
  | 0, sequence => pure (none, sequence)
  | fuel + 1, sequence => do
    let lookup ← perform (.lstat (segmentName createdNs (sequence + 1)))
    match lookup with
    | .missing => pure (some (segmentName createdNs (sequence + 1)), sequence + 1)
    | .failed => pure (none, sequence + 1)
    | .found => nextSegmentPath createdNs fuel (sequence + 1)

/-- The variables after the batch was sealed. -/
def Writer.sealed (writer : Writer) : Writer :=
  { writer with
    batch := []
    batchBytes := 0
    activeCreated := ⟨0, none⟩
    activePath := none
    activePersistedBytes := 0 }

/-- The path of the active segment, which may be a new one. -/
def allocatePath (writer : Writer) : Prog (Option Name) :=
  match writer.activePath with
  | some path => pure (some path)
  | none => do
    let createdNs := unixNano writer.activeCreated.wall
    let sequence := if createdNs = writer.lastSegmentNs then writer.sequence else 0
    let (path, sequence) ← nextSegmentPath createdNs maximumSegmentEntries sequence
    perform (.save { writer with activePath := path, lastSegmentNs := createdNs, sequence })
    pure path

/-- The end of `persist`: the batch is written; whether that has failed. -/
def writeBatch (seals : Bool) (path : Name) : Prog Bool := do
  let writer ← perform .load
  let replaced ← perform (.replace path writer.batch)
  if replaced.failed then pure true
  else do
    let written :=
      { writer with activePersistedBytes := (encodeLines writer.batch).length, dirty := false }
    perform (.save (if seals then written.sealed else written))
    pure false

/-- The variables with a date for the batch, if it has none. -/
def Writer.dated (writer : Writer) (now : Reading) : Writer :=
  if writer.activeCreated.isZero then { writer with activeCreated := now } else writer

/-- `persist` of a batch that fits in a segment, once the clock was read; whether it has failed. -/
def persistAt (config : Config) (seals : Bool) (now : Reading) (dated : Writer) : Prog Bool := do
  perform (.save dated)
  let enforced ← enforceRetention config now
    ((encodeLines dated.batch).length - dated.activePersistedBytes) dated.activePath
  if !enforced then pure true
  else do
    let path ← allocatePath dated
    match path with
    | none => pure true
    | some path => writeBatch seals path

/-- `persist`: whether it was attempted, and whether it has failed. -/
def persist (config : Config) (seals : Bool) : Prog (Bool × Bool) := do
  let writer ← perform .load
  if writer.batch = [] then pure (false, false)
  else if !writer.dirty then
    if seals then do
      perform (.save writer.sealed)
      pure (false, false)
    else pure (false, false)
  else if config.maximumSegmentBytes < (encodeLines writer.batch).length then pure (true, true)
  else do
    let now ← perform .now
    if year now.wall < 0 ∨ 9999 < year now.wall ∨ unixNano now.wall < 0 then pure (true, true)
    else do
      let failed ← persistAt config seals now (writer.dated now)
      pure (true, failed)

/-! ### Committing -/

/-- The event that stands for dropped ones. -/
def overflowEvent (now : Reading) (count : UInt32) : StoredEvent where
  timestampUtc := formatUtc now.wall
  event := { level := .warning, origin := .diagnostics, code := .queueOverflow, count }

/-- The variables with one more event in the batch. -/
def Writer.append (writer : Writer) (now : Reading) (entry : Entry) : Writer :=
  { writer with
    batch := writer.batch ++ [entry]
    batchBytes := writer.batchBytes + (entry.stored.marshal.length + 1)
    activeCreated := if writer.batch = [] then now else writer.activeCreated
    dirty := true }

/-- An event of this size does not fit in the batch any more. -/
def Writer.full (writer : Writer) (config : Config) (stored : StoredEvent) : Bool :=
  config.maximumSegmentBytes < writer.batchBytes + (stored.marshal.length + 1) && writer.batch ≠ []

/-- Runs `program` if it is needed, and tells whether it has failed. -/
def whenNeeded (needed : Bool) (program : Prog Bool) : Prog Bool :=
  if needed then program else pure false

/-- `commit` of a number of dropped events, whether they were taken into the batch. -/
def commitOverflow (config : Config) (count : UInt32) : Prog Bool := do
  let now ← perform .now
  let stored := overflowEvent now count
  if config.maximumSegmentBytes < stored.marshal.length + 1 then do
    perform .restore
    pure false
  else do
    let writer ← perform .load
    let failed ← whenNeeded (writer.full config stored) (Prod.snd <$> persist config true)
    if failed then do
      perform .restore
      pure false
    else do
      let writer ← perform .load
      perform (.save { writer.append now ⟨none, stored⟩ with count := 0 })
      pure true

/-- `commit`: whether it was attempted, and whether it has failed. -/
def commit (config : Config) (seals : Bool) : Prog (Bool × Bool) := do
  let count ← perform .swap
  if count = 0 then persist config seals
  else do
    let taken ← commitOverflow config count
    if taken then persist config seals else pure (true, true)

/-- `commitWithStatus`, whether it has failed. -/
def commitWithStatus (config : Config) (seals : Bool) : Prog Bool := do
  let (attempted, failed) ← commit config seals
  let writer ← perform .load
  perform (.save { writer with storageFaulted := failed || (writer.storageFaulted && !attempted) })
  pure failed

/-! ### The loop -/

/-- The batch has grown too old. -/
def Writer.aged (writer : Writer) (now : Reading) : Bool :=
  writer.batch ≠ [] && !writer.activeCreated.isZero &&
    maximumSegmentAge ≤ now.sub writer.activeCreated

/-- An event that was received. -/
def handleEvent (config : Config) (recorded : Recorded) : Prog Unit := do
  let now ← perform .now
  let writer ← perform .load
  let failed ← whenNeeded (writer.aged now) (commitWithStatus config true)
  if failed then perform .drop
  else do
    let stored : StoredEvent := ⟨formatUtc now.wall, recorded.event⟩
    if config.maximumSegmentBytes < stored.marshal.length + 1 then perform .drop
    else do
      let writer ← perform .load
      let failed ← whenNeeded (writer.full config stored) (commitWithStatus config true)
      if failed then perform .drop
      else do
        let writer ← perform .load
        perform (.save { writer.append now ⟨some recorded.id, stored⟩ with command := none })

/-- The retention of a tick. -/
def tickRetention (config : Config) (now : Reading) : Prog Unit := do
  let writer ← perform .load
  if now.sub writer.lastRetentionCheck < 0 ∨
      min config.retention maximumSegmentAge ≤ now.sub writer.lastRetentionCheck then do
    let enforced ← enforceRetention config now 0 writer.activePath
    perform (.save
      { writer with
        storageFaulted := !enforced
        lastRetentionCheck := if enforced then now else writer.lastRetentionCheck })
  else pure ()

def handleTick (config : Config) : Prog Unit := do
  let now ← perform .now
  let writer ← perform .load
  let failed ← commitWithStatus config (writer.aged now)
  if failed then pure () else tickRetention config now

/-- One pass of the loop of `run`, whether it goes on. -/
def iterate (config : Config) : Prog Bool := do
  let received ← perform .receive
  match received with
  | .event recorded => do
    handleEvent config recorded
    pure true
  | .flush => do
    let failed ← commitWithStatus config false
    perform (.reply failed)
    pure true
  | .stop => do
    let failed ← commitWithStatus config true
    perform (.finish failed)
    pure false
  | .tick => do
    handleTick config
    pure true

/-! ### Runs -/

/-- The world and what is left of the pass of the writer; `none` when the writer has ended. -/
structure State where
  world : World
  rest : Option (Prog Bool)

/-- A step of the writer or of the others. -/
inductive Moves (config : Config) : State → State → Prop where
  | others {world world' : World} {rest : Option (Prog Bool)} : Others config world world' →
      Moves config ⟨world, rest⟩ ⟨world', rest⟩
  | own {world world' : World} {call : Call} {answer : call.Answer}
      {k : call.Answer → Prog Bool} : Step config world call answer world' →
      Moves config ⟨world, some (.call call k)⟩ ⟨world', some (k answer)⟩
  | again {world : World} : Moves config ⟨world, some (.ret true)⟩ ⟨world, some (iterate config)⟩
  | ended {world : World} : Moves config ⟨world, some (.ret false)⟩ ⟨world, none⟩

/-- The service after `Open` of a directory has succeeded, with the clock reading of its writer. -/
def Opened (config : Config) (files : Directory) (state : State) : Prop :=
  ∃ world now, Program.Exec (Step config) (openService config) { files } (some true) world ∧
    state = ⟨{ world with writer := { world.writer with lastRetentionCheck := now } },
      some (iterate config)⟩

/-- A state of a run over a directory. -/
def Reaches (config : Config) (files : Directory) (state : State) : Prop :=
  ∃ start, Opened config files start ∧ Relation.ReflTransGen (Moves config) start state

/-! ### Runs in which the clock stands still and the results of the calls are given -/

structure Script where
  now : Reading
  scans : Bool
  faults : Faults

/-- What a call answers and does. -/
def Script.answer (config : Config) (script : Script) (world : World) :
    (call : Call) → call.Answer × World
  | .receive =>
    match world.commands with
    | [] => (.tick, world)
    | .event recorded :: commands =>
      (.event recorded,
        { world with commands, writer := { world.writer with command := some recorded } })
    | .flush :: commands => (.flush, { world with commands })
    | .stop :: commands => (.stop, { world with commands })
  | .now => (script.now, world)
  | .load => (world.writer, world)
  | .save writer => ((), { world with writer })
  | .swap =>
    (world.dropped, { world with dropped := 0, writer := { world.writer with count := world.dropped } })
  | .restore =>
    ((),
      { world with
        dropped := world.dropped + world.writer.count
        writer := { world.writer with count := 0 } })
  | .drop =>
    ((),
      { world with
        dropped := world.dropped + 1
        lost := world.lost ++ world.writer.command.toList.map Recorded.id
        writer := { world.writer with command := none } })
  | .scan => (if script.scans then segmentsLocked config world.files else none, world)
  | .remove name => (true, world.remove name)
  | .lstat name => (if name ∈ world.files then .found else .missing, world)
  | .replace path batch =>
    let out := (ProtectedFile.replace path (encodeLines batch)).run script.faults.answer world.files
    (out.1, world.replace path batch out.1 out.2)
  | .reply _ => ((), world)
  | .finish failed => ((), { world with terminal := some failed })

/-- The world after a pass of the loop, and whether it goes on. -/
def Script.pass (config : Config) (script : Script) (world : World) : Bool × World :=
  (iterate config).run (script.answer config) world

/-- The bounds that `Open` takes by default. -/
def defaultConfig : Config where
  retention := 7 * 24 * 3600 * 1000000000
  maximumBytes := 50 * 2 ^ 20
  maximumSegmentBytes := 256 * 2 ^ 10
  queueCapacity := 1024
  retention_pos := by decide
  maximumBytes_ge := by decide
  maximumSegmentBytes_ge := by decide
  maximumSegmentBytes_le := by decide
  queueCapacity_pos := by decide

end RlcdDeck.Diagnostics
