import RlcdDeck.Diagnostics.Equiv.Writer

/-!
# The diagnostics log is conserved

In every run of the service, whatever fails, each recorded event is in one place until the writer ends
(`log_conserved`).  A writer whose last commit has failed ends with its batch: what the active segment
does not have of it is in no place any more (`last_batch_lost`), and `Close` reports the error.
-/

namespace RlcdDeck.Diagnostics

open Effects Program ProtectedFile
open Relation (ReflTransGen)

variable {config : Config} {world : World} {files : Directory} {state state' : State}

/-! ### Runs -/

theorem idle_stable (config : Config) : Stable (Others config) (Idle config) := by
  rintro s t ⟨writer, hs, hcommand, hcount⟩ hstep
  exact ⟨writer, holds_stable config writer s t hs hstep, hcommand, hcount⟩

theorem passed_stable (config : Config) (again : Bool) :
    Stable (Others config) (Passed config again) := by
  rintro s t ⟨hbalanced, hidle⟩ hstep
  exact ⟨balanced_stable config s t hbalanced hstep,
    fun hagain => idle_stable config s t (hidle hagain) hstep⟩

/-- What holds in every state: what is left of the pass keeps the account. -/
def Continues (config : Config) (state : State) : Prop :=
  match state.rest with
  | some rest => rest.wp (Runs config) (Passed config) (Balanced config) state.world
  | none => Balanced config state.world

theorem Continues.balanced (h : Continues config state) : Balanced config state.world := by
  obtain ⟨world, rest⟩ := state
  cases rest with
  | none => exact h
  | some rest => exact wp_cut h

theorem Continues.step (h : Continues config state) (hstep : Moves config state state') :
    Continues config state' := by
  cases hstep with
  | @others world world' rest hothers =>
    cases rest with
    | none => exact balanced_stable config world world' h hothers
    | some rest => exact wp_others (balanced_stable config) (passed_stable config) h hothers
  | own hstep => exact wp_own h hstep
  | again => exact iterate_wp (h.2.idle rfl)
  | ended => exact h.1

/-- What `Open` leaves is the directory without the segments that had to go. -/
theorem open_wp (config : Config) (files : Directory) :
    (openService config).wp (Step config)
      (fun ok s => ok = true → ∃ files', s = { files := files' } ∧ Fits config 0 none files' ∧
        Allowed config files') (fun _ => True) { files } := by
  have hkept : KeptBy (fun _ _ => False) none fun s => ∃ files' : Directory, s = { files := files' } := by
    refine ⟨fun _ _ _ h => h.elim, fun _ _ h => h.elim, ?_⟩
    rintro _ name ⟨files', rfl⟩ - -
    refine ⟨files'.erase name, ?_⟩
    rw [World.remove]
    simp only [AList.lookup_empty, Option.getD_none, List.append_nil, Bool.false_or, reduceCtorEq,
      decide_false]
    rw [Collections.erase_of_notMem (AList.notMem_empty name)]
  refine wp_perform trivial ?_
  rintro now s hstep
  cases hstep
  refine wp_mono (wp_of_after (enforceRetention_wp hkept now ⟨files, rfl⟩)) (fun _ _ => trivial) ?_
  rintro ok s ⟨⟨files', rfl⟩, hok⟩ htrue
  exact ⟨files', rfl, hok htrue⟩

theorem continues_of_opened (h : Opened config files state) : Continues config state := by
  obtain ⟨world, now, hexec, rfl⟩ := h
  obtain ⟨files', rfl, hfits, hallowed⟩ := hexec.sound (open_wp config files) rfl
  refine iterate_wp ⟨{ lastRetentionCheck := now }, ⟨?_, rfl, rfl⟩, rfl, rfl⟩
  refine ⟨fun name entries hlookup => ?_, fun path hpath => ?_, fun _ => rfl, fun _ hne => ?_,
    fun n => ?_, fun _ => rfl, ?_, hallowed, rfl⟩
  · cases hlookup
  · cases hpath
  · exact absurd rfl hne
  · rfl
  · rcases hfits with hzero | hroom
    · exact (Nat.le_of_eq hzero).trans (Nat.zero_le _)
    · exact hroom

theorem continues_of_reaches (h : Reaches config files state) : Continues config state := by
  obtain ⟨start, hopened, hruns⟩ := h
  induction hruns with
  | refl => exact continues_of_opened hopened
  | tail _ hstep ih => exact ih.step hstep

/-! ### The log -/

/-- The events of the batch, while there is a writer. -/
def World.batch (world : World) : List Entry := if world.terminal.isSome then [] else world.writer.batch

/-- The events of all segments. -/
def World.storedEntries (world : World) : List Entry :=
  world.segments.entries.flatMap fun segment => segment.2

/-- What the log keeps. -/
structure Conserved (config : Config) (world : World) : Prop where
  /-- Each recorded event is in one place, unless the writer has ended with an error. -/
  accounted : world.terminal ≠ some true →
    ∀ n, world.occurrences world.batch n = if n < world.recorded then 1 else 0
  /-- Then only events of its batch are in no place. -/
  ended : world.terminal = some true →
    ∀ n, world.occurrences [] n + (ids world.writer.batch).count n =
      if n < world.recorded then 1 else 0
  counted : world.lost.length < 2 ^ 32 → world.lost.length = world.reported
  /-- No event is in the segments twice. -/
  once : (ids world.storedEntries).Nodup
  shown : ∀ name entries, world.segments.lookup name = some entries →
    world.files.lookup name = some (encodeLines entries)
  /-- The active segment has the first events of the batch. -/
  active : ∀ path entries, world.writer.activePath = some path →
    world.segments.lookup path = some entries → entries <+: world.writer.batch
  total : segmentBytes world.files ≤ config.maximumBytes
  each : Allowed config world.files
  kept : world.activeRemoved = false

theorem Sound.stored (h : Sound config world) (n : ℕ) :
    (ids world.storedEntries).count n ≤
      (ids world.writer.batch).count n + (ids world.sealedEntries).count n := by
  cases hpath : world.writer.activePath with
  | none =>
    rw [World.sealedEntries, hpath]
    exact Nat.le_add_left _ _
  | some path =>
    cases hlookup : world.segments.lookup path with
    | none =>
      rw [World.sealedEntries, hpath, Option.elim_some,
        Collections.erase_of_notMem (AList.lookup_eq_none.mp hlookup)]
      exact Nat.le_add_left _ _
    | some entries =>
      have hstored : world.storedEntries.Perm (entries ++ world.sealedEntries) := by
        rw [World.sealedEntries, hpath, Option.elim_some]
        exact (Collections.entries_perm_erase hlookup).flatMap_right _
      rw [count_ids_perm hstored, ids_append, List.count_append]
      rcases (h.active path hpath).contents with ⟨hmissing, -⟩ | ⟨entries', hlookup', hfront, -⟩
      · rw [(h.shown path entries hlookup).2] at hmissing
        cases hmissing
      · obtain rfl := Option.some.inj (hlookup.symm.trans hlookup')
        have hle := (hfront.sublist.filterMap Entry.id).count_le n
        change (ids entries).count n ≤ (ids world.writer.batch).count n at hle
        omega

/-- **The log is conserved**, in every run and whatever fails. -/
theorem log_conserved (config : Config) (files : Directory) (state : State)
    (h : Reaches config files state) : Conserved config state.world := by
  obtain ⟨hsound, hterminal⟩ := (continues_of_reaches h).balanced
  refine ⟨fun hended n => ?_, fun _ n => ?_, hsound.counted, ?_, fun name entries hlookup =>
    (hsound.shown name entries hlookup).2, fun path entries hpath hlookup => ?_, hsound.total,
    hsound.each, hsound.kept⟩
  · have hbatch : state.world.batch = state.world.writer.batch := by
      rw [World.batch]
      cases hcases : state.world.terminal with
      | none => rfl
      | some failed =>
        cases failed with
        | false => exact (hterminal hcases).symm
        | true => exact absurd hcases hended
    rw [hbatch]
    exact hsound.accounted n
  · rw [← hsound.accounted n]
    unfold World.occurrences
    change _ + _ + List.count n [] + _ + _ + _ + _ = _
    rw [List.count_nil]
    omega
  · rw [List.nodup_iff_count_le_one]
    intro n
    have hstored := hsound.stored n
    have haccounted := hsound.accounted n
    unfold World.occurrences at haccounted
    split at haccounted <;> omega
  · rcases (hsound.active path hpath).contents with ⟨hmissing, -⟩ | ⟨entries', hlookup', hfront, -⟩
    · rw [(hsound.shown path entries hlookup).2] at hmissing
      cases hmissing
    · obtain rfl := Option.some.inj (hlookup.symm.trans hlookup')
      exact hfront

/-! ### Runs with given answers -/

theorem step_script (config : Config) (script : Script) (world : World) (call : Call) :
    Step config world call (script.answer config world call).1 (script.answer config world call).2 := by
  unfold Script.answer
  cases call with
  | receive =>
    dsimp only
    split
    · exact .tick
    · exact .event ‹_›
    · exact .flush ‹_›
    · exact .stop ‹_›
  | scan =>
    dsimp only
    split
    · cases hsegments : segmentsLocked config world.files with
      | none => exact .notScanned
      | some segments => exact .scanned hsegments
    · exact .notScanned
  | lstat name =>
    dsimp only
    split
    · exact .found ‹_›
    · exact .missing ‹_›
  | replace path batch =>
    exact .replaced (Exec.of_run (ProtectedFile.step_answer script.faults) _ world.files)
  | now => exact .now _
  | load => exact .load
  | save writer => exact .save
  | swap => exact .swap
  | restore => exact .restore
  | drop => exact .drop
  | remove name => exact .removed
  | reply failed => exact .reply
  | finish failed => exact .finish

theorem moves_of_exec {p : Prog Bool} {again : Bool} {world' : World}
    (h : Exec (Step config) p world (some again) world') :
    ReflTransGen (Moves config) ⟨world, some p⟩ ⟨world', some (.ret again)⟩ := by
  generalize hout : some again = out at h
  induction h with
  | ret =>
    obtain rfl := Option.some.inj hout
    exact .refl
  | call hstep _ ih => exact (ih hout).head (.own hstep)
  | cut => cases hout

theorem moves_of_pass (config : Config) (script : Script) (world : World) :
    ReflTransGen (Moves config) ⟨world, some (iterate config)⟩
      ⟨(script.pass config world).2, some (.ret (script.pass config world).1)⟩ :=
  moves_of_exec (Exec.of_run (step_script config script) (iterate config) world)

theorem Reaches.pass (h : Reaches config files ⟨world, some (iterate config)⟩) (script : Script)
    (hagain : (script.pass config world).1 = true) :
    Reaches config files ⟨(script.pass config world).2, some (iterate config)⟩ := by
  obtain ⟨start, hopened, hruns⟩ := h
  have hpass := moves_of_pass config script world
  rw [hagain] at hpass
  exact ⟨start, hopened, (hruns.trans hpass).tail .again⟩

theorem Reaches.last (h : Reaches config files ⟨world, some (iterate config)⟩) (script : Script)
    (hlast : (script.pass config world).1 = false) :
    Reaches config files ⟨(script.pass config world).2, none⟩ := by
  obtain ⟨start, hopened, hruns⟩ := h
  have hpass := moves_of_pass config script world
  rw [hlast] at hpass
  exact ⟨start, hopened, (hruns.trans hpass).tail .ended⟩

theorem Reaches.others {world' : World} {rest : Option (Prog Bool)}
    (h : Reaches config files ⟨world, rest⟩) (hothers : Others config world world') :
    Reaches config files ⟨world', rest⟩ := by
  obtain ⟨start, hopened, hruns⟩ := h
  exact ⟨start, hopened, hruns.tail (.others hothers)⟩

/-! ### An event that is recorded -/

/-- The start of 2024. -/
def sampleReading : Reading := ⟨unixEpoch + 1704067200 * 1000000000, none⟩

def readyEvent : Event where
  level := .info
  origin := .runtime
  code := .runtimeReady

/-- Nothing fails. -/
def fineScript : Script := ⟨sampleReading, true, ⟨fun _ => false, Json.bytes ".protected-1.tmp", []⟩⟩

/-- The directory cannot be read. -/
def blindScript : Script := { fineScript with scans := false }

/-- The directory is empty, and it was opened. -/
def openedWorld : World :=
  ((openService defaultConfig).run (fineScript.answer defaultConfig) ({ files := ∅ } : World)).2

def startWorld : World :=
  { openedWorld with writer := { openedWorld.writer with lastRetentionCheck := sampleReading } }

theorem reaches_start : Reaches defaultConfig ∅ ⟨startWorld, some (iterate defaultConfig)⟩ := by
  refine ⟨_, ⟨openedWorld, sampleReading, ?_, rfl⟩, .refl⟩
  have hexec := Exec.of_run (step_script defaultConfig fineScript) (openService defaultConfig)
    ({ files := ∅ } : World)
  have hopened : ((openService defaultConfig).run (fineScript.answer defaultConfig)
      ({ files := ∅ } : World)).1 = true := by
    decide +kernel
  rw [hopened] at hexec
  exact hexec

/-- An event was recorded and taken into the batch. -/
def batchedWorld : World :=
  (fineScript.pass defaultConfig (startWorld.record defaultConfig readyEvent).2).2

theorem reaches_batched : Reaches defaultConfig ∅ ⟨batchedWorld, some (iterate defaultConfig)⟩ :=
  (reaches_start.others (.record startWorld readyEvent)).pass fineScript (by decide +kernel)

/-- `Close` was called. -/
def closingWorld : World :=
  { batchedWorld with commands := batchedWorld.commands ++ [.stop], closed := true }

theorem reaches_closing : Reaches defaultConfig ∅ ⟨closingWorld, some (iterate defaultConfig)⟩ :=
  reaches_batched.others (.close (by decide +kernel) (by decide +kernel))

/-- The last commit succeeds: the event is in a sealed segment. -/
theorem log_conserved_closing :
    ∃ state, Reaches defaultConfig ∅ state ∧ state.rest.isNone = true ∧
      state.world.terminal = some false ∧ state.world.recorded = 1 ∧
      state.world.occurrences state.world.batch 0 = 1 := by
  have hreaches := reaches_closing.last fineScript (by decide +kernel)
  have hconserved := log_conserved defaultConfig ∅ _ hreaches
  refine ⟨_, hreaches, rfl, by decide +kernel, by decide +kernel, ?_⟩
  rw [hconserved.accounted (by decide +kernel) 0]
  decide +kernel

/-- The last commit fails: the event was recorded, and it is in no place. -/
theorem last_batch_lost :
    ∃ state, Reaches defaultConfig ∅ state ∧ state.world.recorded = 1 ∧
      state.world.occurrences state.world.batch 0 = 0 := by
  refine ⟨_, reaches_closing.last blindScript (by decide +kernel), ?_, ?_⟩
  · decide +kernel
  · decide +kernel

end RlcdDeck.Diagnostics
