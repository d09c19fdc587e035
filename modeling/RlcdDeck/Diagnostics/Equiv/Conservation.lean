import RlcdDeck.Diagnostics.Equiv.Files
import RlcdDeck.Diagnostics.Service

/-!
# What becomes of recorded events

At every moment each recorded event is in one place: it waits in the channel or was taken from it, it
is in the batch, in a sealed segment or in one that was removed, or it was counted as dropped
(`Sound.accounted`).  The events that were dropped are as many as the counter and the counts of the
overflow events say (`Sound.counted`).  The active segment has the first events of the batch, so that no
event is in two segments.
-/

namespace RlcdDeck.Diagnostics

open Effects Program ProtectedFile

/-! ### Places -/

/-- The numbers of the recorded events among these. -/
def ids (entries : List Entry) : List ℕ := entries.filterMap Entry.id

/-- The dropped events that these events stand for. -/
def counts (entries : List Entry) : ℕ :=
  ((entries.filter fun entry => entry.id.isNone).map fun entry => entry.stored.event.count.toNat).sum

/-- The number of the event of a command. -/
def Command.id : Command → Option ℕ
  | .event recorded => some recorded.id
  | _ => none

/-- The events of the segments that are not active. -/
def World.sealedEntries (world : World) : List Entry :=
  (world.writer.activePath.elim world.segments fun path =>
    world.segments.erase path).entries.flatMap fun segment => segment.2

/-- How often an event is in a place, when these are the events of the batch. -/
def World.occurrences (world : World) (batch : List Entry) (n : ℕ) : ℕ :=
  (world.commands.filterMap Command.id).count n +
    (world.writer.command.toList.map Recorded.id).count n + (ids batch).count n +
    (ids world.sealedEntries).count n + (ids world.removed).count n + world.lost.count n

/-- What the counter and the overflow events say. -/
def World.reported (world : World) : ℕ :=
  world.dropped.toNat + world.writer.count.toNat + counts world.writer.batch +
    counts world.sealedEntries + counts world.removed

section Lists

variable {entries entries' : List Entry}

theorem ids_append (entries entries' : List Entry) : ids (entries ++ entries') = ids entries ++ ids entries' :=
  List.filterMap_append

theorem counts_append (entries entries' : List Entry) :
    counts (entries ++ entries') = counts entries + counts entries' := by
  rw [counts, List.filter_append, List.map_append, List.sum_append_nat]
  rfl

theorem count_ids_perm (h : entries.Perm entries') (n : ℕ) :
    (ids entries).count n = (ids entries').count n :=
  (h.filterMap Entry.id).count_eq n

theorem counts_perm (h : entries.Perm entries') : counts entries = counts entries' :=
  ((h.filter _).map _).sum_nat

theorem encodeLines_append (entries entries' : List Entry) :
    encodeLines (entries ++ entries') = encodeLines entries ++ encodeLines entries' :=
  List.flatMap_append

theorem length_encodeLines_le (h : entries <+: entries') :
    (encodeLines entries).length ≤ (encodeLines entries').length := by
  obtain ⟨rest, rfl⟩ := h
  rw [encodeLines_append, List.length_append]
  exact Nat.le_add_right _ _

end Lists

/-! ### The invariant -/

/-- What holds of the active segment. -/
structure Active (world : World) (path : Name) : Prop where
  temporary : isTemporary path = false
  contents : (world.files.lookup path = none ∧ world.writer.activePersistedBytes = 0) ∨
    ∃ entries, world.segments.lookup path = some entries ∧ entries <+: world.writer.batch ∧
      world.writer.activePersistedBytes ≤ (encodeLines entries).length

/-- What holds at every moment. -/
structure Sound (config : Config) (world : World) : Prop where
  shown : ∀ name entries, world.segments.lookup name = some entries →
    isTemporary name = false ∧ world.files.lookup name = some (encodeLines entries)
  active : ∀ path, world.writer.activePath = some path → Active world path
  inactive : world.writer.activePath = none → world.writer.activePersistedBytes = 0
  clean : world.writer.dirty = false → world.writer.batch ≠ [] →
    ∃ path, world.writer.activePath = some path ∧
      world.segments.lookup path = some world.writer.batch
  accounted : ∀ n, world.occurrences world.writer.batch n = if n < world.recorded then 1 else 0
  counted : world.lost.length < 2 ^ 32 → world.lost.length = world.reported
  total : segmentBytes world.files ≤ config.maximumBytes
  each : ∀ name contents, isTemporary name = false → world.files.lookup name = some contents →
    contents.length ≤ config.maximumSegmentBytes
  kept : world.activeRemoved = false

variable {config : Config} {world world' : World}

/-! ### The others -/

/-- What the others leave alone. -/
structure Untouched (world world' : World) : Prop where
  files : world'.files = world.files
  writer : world'.writer = world.writer
  segments : world'.segments = world.segments
  removed : world'.removed = world.removed
  activeRemoved : world'.activeRemoved = world.activeRemoved
  terminal : world'.terminal = world.terminal

theorem untouched_of_others (h : Others config world world') : Untouched world world' := by
  cases h with
  | record event =>
    unfold World.record
    split
    · exact ⟨rfl, rfl, rfl, rfl, rfl, rfl⟩
    · split
      · exact ⟨rfl, rfl, rfl, rfl, rfl, rfl⟩
      · exact ⟨rfl, rfl, rfl, rfl, rfl, rfl⟩
  | flush => exact ⟨rfl, rfl, rfl, rfl, rfl, rfl⟩
  | close => exact ⟨rfl, rfl, rfl, rfl, rfl, rfl⟩

theorem Sound.of_untouched (h : Sound config world) (hsame : Untouched world world')
    (haccounted : ∀ n, world'.occurrences world'.writer.batch n = if n < world'.recorded then 1 else 0)
    (hcounted : world'.lost.length < 2 ^ 32 → world'.lost.length = world'.reported) :
    Sound config world' := by
  constructor
  · rw [hsame.segments, hsame.files]
    exact h.shown
  · intro path hpath
    rw [hsame.writer] at hpath
    obtain ⟨htemporary, hcontents⟩ := h.active path hpath
    refine ⟨htemporary, ?_⟩
    rw [hsame.files, hsame.writer, hsame.segments]
    exact hcontents
  · rw [hsame.writer]
    exact h.inactive
  · rw [hsame.writer, hsame.segments]
    exact h.clean
  · exact haccounted
  · exact hcounted
  · rw [hsame.files]
    exact h.total
  · rw [hsame.files]
    exact h.each
  · rw [hsame.activeRemoved]
    exact h.kept

theorem sealedEntries_of_untouched (hsame : Untouched world world') :
    world'.sealedEntries = world.sealedEntries := by
  rw [World.sealedEntries, hsame.writer, hsame.segments, World.sealedEntries]

theorem count_singleton (n m : ℕ) : [m].count n = if n = m then 1 else 0 := by
  rw [List.count_singleton]
  by_cases h : n = m
  · simp [h]
  · have hne : ¬m = n := fun heq => h heq.symm
    simp [h, hne]

theorem Sound.command (h : Sound config world) (command : Command) (hcommand : command.id = none)
    (closed : Bool) :
    Sound config { world with commands := world.commands ++ [command], closed } := by
  have hsame : Untouched world { world with commands := world.commands ++ [command], closed } :=
    ⟨rfl, rfl, rfl, rfl, rfl, rfl⟩
  refine h.of_untouched hsame (fun n => ?_) h.counted
  have haccounted := h.accounted n
  unfold World.occurrences at haccounted ⊢
  rw [sealedEntries_of_untouched hsame]
  simpa [List.filterMap_append, hcommand] using haccounted

theorem sound_record (h : Sound config world) (event : Event) :
    Sound config (world.record config event).2 := by
  have hsame := untouched_of_others (.record world event : Others config world _)
  have hsealed := sealedEntries_of_untouched hsame
  refine h.of_untouched hsame (fun n => ?_) ?_
  · have haccounted := h.accounted n
    unfold World.occurrences at haccounted ⊢
    rw [hsealed, hsame.writer, hsame.removed]
    unfold World.record
    split
    · exact haccounted
    · split
      · simp only [List.filterMap_append, List.filterMap_cons, Command.id, List.filterMap_nil,
          List.count_append, count_singleton]
        split at haccounted <;> split_ifs <;> omega
      · simp only [List.count_append, count_singleton]
        split at haccounted <;> split_ifs <;> omega
  · unfold World.reported
    rw [hsealed, hsame.writer, hsame.removed]
    have hcounted := h.counted
    unfold World.reported at hcounted
    unfold World.record
    split
    · exact hcounted
    · split
      · exact hcounted
      · simp only [List.length_append, List.length_singleton]
        intro hlength
        have hcounted := hcounted (by omega)
        have hdropped : (world.dropped + 1).toNat = world.dropped.toNat + 1 := by
          rw [UInt32.toNat_add]
          simp only [UInt32.toNat_one]
          omega
        omega

theorem sound_of_others (h : Sound config world) (hstep : Others config world world') :
    Sound config world' := by
  cases hstep with
  | record event => exact sound_record h event
  | flush hopen hroom =>
    have hflush := h.command .flush rfl world.closed
    exact hflush
  | close hopen hroom => exact h.command .stop rfl true

/-! ### The channel and the counter -/

theorem Sound.event (h : Sound config world) {recorded : Recorded} {commands : List Command}
    (hcommands : world.commands = .event recorded :: commands) (hnone : world.writer.command = none) :
    Sound config
      { world with commands, writer := { world.writer with command := some recorded } } := by
  refine ⟨h.shown, fun path hpath => ⟨(h.active path hpath).1, (h.active path hpath).2⟩, h.inactive,
    h.clean, fun n => ?_, h.counted, h.total, h.each, h.kept⟩
  have haccounted := h.accounted n
  unfold World.occurrences at haccounted ⊢
  rw [hcommands, hnone] at haccounted
  simp only [List.filterMap_cons, Command.id, List.count_cons, Option.toList_none, List.map_nil,
    List.count_nil] at haccounted
  simp only [Option.toList_some, List.map_cons, List.map_nil, List.count_cons, List.count_nil]
  change _ + _ + _ + (ids world.sealedEntries).count n + _ + _ = _
  omega

theorem Sound.received (h : Sound config world) {command : Command} {commands : List Command}
    (hcommands : world.commands = command :: commands) (hcommand : command.id = none) :
    Sound config { world with commands } := by
  refine h.of_untouched ⟨rfl, rfl, rfl, rfl, rfl, rfl⟩ (fun n => ?_) h.counted
  have haccounted := h.accounted n
  unfold World.occurrences at haccounted ⊢
  rw [hcommands, List.filterMap_cons, hcommand] at haccounted
  exact haccounted

theorem Sound.swap (h : Sound config world) (hcount : world.writer.count = 0) :
    Sound config
      { world with dropped := 0, writer := { world.writer with count := world.dropped } } := by
  refine ⟨h.shown, fun path hpath => ⟨(h.active path hpath).1, (h.active path hpath).2⟩, h.inactive,
    h.clean, h.accounted, fun hlength => ?_, h.total, h.each, h.kept⟩
  have hcounted := h.counted hlength
  unfold World.reported at hcounted ⊢
  rw [hcount] at hcounted
  simp only [UInt32.toNat_zero] at hcounted ⊢
  change _ = _ + _ + _ + counts world.sealedEntries + _
  omega

theorem Sound.restore (h : Sound config world) :
    Sound config
      { world with
        dropped := world.dropped + world.writer.count
        writer := { world.writer with count := 0 } } := by
  refine ⟨h.shown, fun path hpath => ⟨(h.active path hpath).1, (h.active path hpath).2⟩, h.inactive,
    h.clean, h.accounted, fun hlength => ?_, h.total, h.each, h.kept⟩
  have hcounted := h.counted hlength
  unfold World.reported at hcounted ⊢
  have hdropped : (world.dropped + world.writer.count).toNat =
      world.dropped.toNat + world.writer.count.toNat := by
    change world.lost.length < 2 ^ 32 at hlength
    rw [UInt32.toNat_add]
    omega
  simp only [hdropped, UInt32.toNat_zero]
  change _ = _ + _ + _ + counts world.sealedEntries + _
  change world.lost.length = _ at hcounted
  omega

theorem Sound.drop (h : Sound config world) {recorded : Recorded}
    (hcommand : world.writer.command = some recorded) :
    Sound config
      { world with
        dropped := world.dropped + 1
        lost := world.lost ++ world.writer.command.toList.map Recorded.id
        writer := { world.writer with command := none } } := by
  refine ⟨h.shown, fun path hpath => ⟨(h.active path hpath).1, (h.active path hpath).2⟩, h.inactive,
    h.clean, fun n => ?_, fun hlength => ?_, h.total, h.each, h.kept⟩
  · have haccounted := h.accounted n
    unfold World.occurrences at haccounted ⊢
    rw [hcommand] at haccounted ⊢
    simp only [Option.toList_some, Option.toList_none, List.map_cons, List.map_nil, List.count_append,
      List.count_nil] at haccounted ⊢
    change _ + _ + _ + (ids world.sealedEntries).count n + _ + _ = _
    omega
  · simp only [hcommand, Option.toList_some, List.map_cons, List.map_nil, List.length_append,
      List.length_singleton] at hlength ⊢
    have hcounted := h.counted (by omega)
    unfold World.reported at hcounted ⊢
    have hdropped : (world.dropped + 1).toNat = world.dropped.toNat + 1 := by
      rw [UInt32.toNat_add]
      simp only [UInt32.toNat_one]
      omega
    simp only [hdropped]
    change _ = _ + _ + _ + counts world.sealedEntries + _
    omega

/-! ### The variables -/

theorem Sound.assign (h : Sound config world) {writer : Writer}
    (hbatch : writer.batch = world.writer.batch) (hpath : writer.activePath = world.writer.activePath)
    (hbytes : writer.activePersistedBytes = world.writer.activePersistedBytes)
    (hdirty : writer.dirty = world.writer.dirty) (hcommand : writer.command = world.writer.command)
    (hcount : writer.count = world.writer.count) : Sound config { world with writer } := by
  have hsealed : ({ world with writer } : World).sealedEntries = world.sealedEntries := by
    rw [World.sealedEntries, hpath, World.sealedEntries]
  refine ⟨h.shown, fun path heq => ?_, ?_, ?_, fun n => ?_, fun hlength => ?_, h.total, h.each, h.kept⟩
  · obtain ⟨htemporary, hcontents⟩ := h.active path (hpath.symm.trans heq)
    refine ⟨htemporary, ?_⟩
    simp only [hbytes, hbatch]
    exact hcontents
  · simp only [hpath, hbytes]
    exact h.inactive
  · simp only [hdirty, hbatch, hpath]
    exact h.clean
  · have haccounted := h.accounted n
    unfold World.occurrences at haccounted ⊢
    rw [hsealed]
    simp only [hcommand, hbatch]
    exact haccounted
  · have hcounted := h.counted hlength
    unfold World.reported at hcounted ⊢
    rw [hsealed]
    simp only [hcount, hbatch]
    exact hcounted

theorem Sound.append (h : Sound config world) (now : Reading) (entry : Entry)
    (command : Option Recorded) (count : UInt32)
    (hcommand : ∀ n, (command.toList.map Recorded.id).count n + (ids [entry]).count n =
      (world.writer.command.toList.map Recorded.id).count n)
    (hcount : count.toNat + counts [entry] = world.writer.count.toNat) :
    Sound config
      { world with writer := { world.writer.append now entry with command, count } } := by
  refine ⟨h.shown, fun path hpath => ?_, h.inactive, ?_, fun n => ?_, fun hlength => ?_, h.total,
    h.each, h.kept⟩
  · obtain ⟨htemporary, hcontents⟩ := h.active path hpath
    refine ⟨htemporary, ?_⟩
    rcases hcontents with hnone | ⟨entries, hlookup, hfront, hbytes⟩
    · exact .inl hnone
    · exact .inr ⟨entries, hlookup, hfront.trans (List.prefix_append _ _), hbytes⟩
  · intro hdirty
    cases hdirty
  · have haccounted := h.accounted n
    have hn := hcommand n
    unfold World.occurrences at haccounted ⊢
    simp only [Writer.append, ids_append, List.count_append]
    change _ + _ + _ + (ids world.sealedEntries).count n + _ + _ = _
    omega
  · have hcounted := h.counted hlength
    unfold World.reported at hcounted ⊢
    simp only [Writer.append, counts_append]
    change _ = _ + _ + _ + counts world.sealedEntries + _
    change world.lost.length = _ at hcounted
    omega

theorem sealedEntries_sealed {path : Name} {entries : List Entry}
    (hpath : world.writer.activePath = some path) (hlookup : world.segments.lookup path = some entries)
    {writer : Writer} (hnone : writer.activePath = none) :
    ({ world with writer } : World).sealedEntries.Perm (entries ++ world.sealedEntries) := by
  rw [World.sealedEntries, World.sealedEntries, hpath, hnone]
  exact ((Collections.entries_perm_erase hlookup).flatMap_right _).trans (List.Perm.of_eq rfl)

theorem Sound.seal (h : Sound config world) {path : Name}
    (hpath : world.writer.activePath = some path)
    (hlookup : world.segments.lookup path = some world.writer.batch) {writer : Writer}
    (hnone : writer.activePath = none) (hbatch : writer.batch = [])
    (hbytes : writer.activePersistedBytes = 0) (hcommand : writer.command = world.writer.command)
    (hcount : writer.count = world.writer.count) : Sound config { world with writer } := by
  have hsealed := sealedEntries_sealed hpath hlookup hnone
  refine ⟨h.shown, fun path heq => ?_, fun _ => hbytes, fun _ hne => absurd hbatch hne, fun n => ?_,
    fun hlength => ?_, h.total, h.each, h.kept⟩
  · rw [hnone] at heq
    cases heq
  · have haccounted := h.accounted n
    unfold World.occurrences at haccounted ⊢
    rw [count_ids_perm hsealed, ids_append, List.count_append]
    simp only [hcommand, hbatch]
    change _ + _ + List.count n [] + _ + _ + _ = _
    rw [List.count_nil]
    omega
  · have hcounted := h.counted hlength
    unfold World.reported at hcounted ⊢
    rw [counts_perm hsealed, counts_append]
    simp only [hcount, hbatch]
    change _ = _ + _ + 0 + _ + _
    change world.lost.length = _ at hcounted
    omega

theorem Sound.allocate (h : Sound config world) {path : Name} {writer : Writer}
    (hnone : world.writer.activePath = none) (htemporary : isTemporary path = false)
    (hmissing : world.files.lookup path = none) (hpath : writer.activePath = some path)
    (hbatch : writer.batch = world.writer.batch)
    (hbytes : writer.activePersistedBytes = world.writer.activePersistedBytes)
    (hdirty : writer.dirty = true) (hcommand : writer.command = world.writer.command)
    (hcount : writer.count = world.writer.count) : Sound config { world with writer } := by
  have hfresh : path ∉ world.segments := by
    intro hmem
    obtain ⟨entries, hlookup⟩ := Option.isSome_iff_exists.mp (AList.lookup_isSome.mpr hmem)
    rw [(h.shown path entries hlookup).2] at hmissing
    cases hmissing
  have hsealed : ({ world with writer } : World).sealedEntries = world.sealedEntries := by
    rw [World.sealedEntries, World.sealedEntries, hpath, hnone]
    change (world.segments.erase path).entries.flatMap _ = _
    rw [Collections.erase_of_notMem hfresh]
    rfl
  refine ⟨h.shown, fun other heq => ?_, ?_, ?_, fun n => ?_, fun hlength => ?_, h.total, h.each, h.kept⟩
  · obtain rfl := Option.some.inj (hpath.symm.trans heq)
    exact ⟨htemporary, .inl ⟨hmissing, hbytes.trans (h.inactive hnone)⟩⟩
  · intro heq
    rw [hpath] at heq
    cases heq
  · intro hclean
    rw [hdirty] at hclean
    cases hclean
  · have haccounted := h.accounted n
    unfold World.occurrences at haccounted ⊢
    rw [hsealed]
    simp only [hcommand, hbatch]
    exact haccounted
  · have hcounted := h.counted hlength
    unfold World.reported at hcounted ⊢
    rw [hsealed]
    simp only [hcount, hbatch]
    exact hcounted

/-! ### The files -/

theorem sealedEntries_remove {name : Name} (hname : world.writer.activePath ≠ some name) :
    world.sealedEntries.Perm
      ((world.segments.lookup name).getD [] ++ (world.remove name).sealedEntries) := by
  by_cases hmem : name ∈ world.segments
  · obtain ⟨entries, hlookup⟩ := Option.isSome_iff_exists.mp (AList.lookup_isSome.mpr hmem)
    rw [hlookup, Option.getD_some, World.sealedEntries, World.sealedEntries, World.remove]
    cases hpath : world.writer.activePath with
    | none => exact (Collections.entries_perm_erase hlookup).flatMap_right _
    | some path =>
      have hne : name ≠ path := by
        rintro rfl
        exact hname hpath
      simp only [Option.elim_some]
      rw [AList.erase_erase name path]
      exact (Collections.entries_perm_erase
        ((AList.lookup_erase_ne hne).trans hlookup)).flatMap_right _
  · rw [AList.lookup_eq_none.mpr hmem, Option.getD_none, List.nil_append, World.sealedEntries,
      World.sealedEntries, World.remove]
    simp only [Collections.erase_of_notMem hmem]
    exact List.Perm.refl _

theorem Sound.remove (h : Sound config world) {name : Name} (htemporary : isTemporary name = false)
    (hname : world.writer.activePath ≠ some name) : Sound config (world.remove name) := by
  have hsealed := sealedEntries_remove hname
  refine ⟨fun other entries hlookup => ?_, fun path hpath => ?_, h.inactive, fun hclean hne => ?_,
    fun n => ?_, fun hlength => ?_, ?_, fun other contents hother hlookup => ?_, ?_⟩
  · have hne : other ≠ name := by
      rintro rfl
      rw [World.remove, AList.lookup_erase] at hlookup
      cases hlookup
    obtain ⟨hother, hshown⟩ := h.shown other entries ((AList.lookup_erase_ne hne).symm.trans hlookup)
    exact ⟨hother, (AList.lookup_erase_ne hne).trans hshown⟩
  · have hne : path ≠ name := by
      rintro rfl
      exact hname hpath
    obtain ⟨hpathTemporary, hcontents⟩ := h.active path hpath
    refine ⟨hpathTemporary, ?_⟩
    rw [World.remove, AList.lookup_erase_ne hne, AList.lookup_erase_ne hne]
    exact hcontents
  · obtain ⟨path, hpath, hlookup⟩ := h.clean hclean hne
    have hne : path ≠ name := by
      rintro rfl
      exact hname hpath
    exact ⟨path, hpath, (AList.lookup_erase_ne hne).trans hlookup⟩
  · have haccounted := h.accounted n
    unfold World.occurrences at haccounted ⊢
    rw [count_ids_perm hsealed, ids_append, List.count_append] at haccounted
    change (world.commands.filterMap Command.id).count n +
      (world.writer.command.toList.map Recorded.id).count n + (ids world.writer.batch).count n + _ +
        (ids (world.removed ++ (world.segments.lookup name).getD [])).count n + world.lost.count n =
          if n < world.recorded then 1 else 0
    rw [ids_append, List.count_append]
    omega
  · have hcounted := h.counted hlength
    unfold World.reported at hcounted ⊢
    rw [counts_perm hsealed, counts_append] at hcounted
    change world.lost.length = world.dropped.toNat + world.writer.count.toNat +
      counts world.writer.batch + _ + counts (world.removed ++ (world.segments.lookup name).getD [])
    rw [counts_append]
    omega
  · change segmentBytes (world.files.erase name) ≤ _
    have htotal := h.total
    rw [segmentBytes_eq htemporary] at htotal
    omega
  · have hne : other ≠ name := by
      rintro rfl
      rw [World.remove, AList.lookup_erase] at hlookup
      cases hlookup
    exact h.each other contents hother ((AList.lookup_erase_ne hne).symm.trans hlookup)
  · rw [World.remove, h.kept, Bool.false_or, decide_eq_false_iff_not]
    exact hname

/-- There is room for `reserve` more bytes, or there are no other segments. -/
def Fits (config : Config) (reserve : ℕ) (path : Option Name) (files : Directory) : Prop :=
  otherBytes files path = 0 ∨ segmentBytes files + reserve ≤ config.maximumBytes

theorem Active.size (hactive : Active world path) (h : Sound config world) :
    world.writer.activePersistedBytes ≤ sizeOf world.files path := by
  rcases hactive.contents with ⟨-, hzero⟩ | ⟨entries, hlookup, -, hbytes⟩
  · rw [hzero]
    exact Nat.zero_le _
  · rw [sizeOf, (h.shown path entries hlookup).2]
    exact hbytes

/-- The batch is written to the active segment, or not. -/
theorem Sound.replace (h : Sound config world) {path : Name}
    (hpath : world.writer.activePath = some path) {result : Replaced} {files : Directory}
    (hends : Ends world.files path (encodeLines world.writer.batch) result files) {reserve : ℕ}
    (hfits : Fits config reserve (some path) world.files)
    (hsize : (encodeLines world.writer.batch).length ≤ config.maximumSegmentBytes)
    (hreserve : (encodeLines world.writer.batch).length ≤
      world.writer.activePersistedBytes + reserve) :
    Sound config (world.replace path world.writer.batch result files) := by
  have hactive := h.active path hpath
  rcases hends with ⟨hcommitted, -, hunchanged⟩ | ⟨hcommitted, hchanged⟩
  · have hsame : world.replace path world.writer.batch result files = { world with files } := by
      rw [World.replace, hcommitted]
      rfl
    rw [hsame]
    refine ⟨fun name entries hlookup => ?_, fun other heq => ?_, h.inactive, h.clean, h.accounted,
      h.counted, ?_, fun name contents hname hlookup => ?_, h.kept⟩
    · obtain ⟨hname, hshown⟩ := h.shown name entries hlookup
      exact ⟨hname, (hunchanged name hname).trans hshown⟩
    · obtain ⟨htemporary, hcontents⟩ := h.active other heq
      refine ⟨htemporary, ?_⟩
      rw [hunchanged other htemporary]
      exact hcontents
    · rw [segmentBytes_congr hunchanged]
      exact h.total
    · exact h.each name contents hname ((hunchanged name hname).symm.trans hlookup)
  · have hsame : world.replace path world.writer.batch result files =
        { world with files, segments := world.segments.insert path world.writer.batch } := by
      rw [World.replace, hcommitted]
      rfl
    rw [hsame]
    have hsealed : ({ world with
        files, segments := world.segments.insert path world.writer.batch } : World).sealedEntries =
          world.sealedEntries := by
      rw [World.sealedEntries, World.sealedEntries, hpath]
      change ((world.segments.insert path world.writer.batch).erase path).entries.flatMap _ = _
      rw [Collections.erase_insert]
      rfl
    refine ⟨fun name entries hlookup => ?_, fun other heq => ?_, h.inactive, fun hclean hne => ?_,
      fun n => ?_, fun hlength => ?_, ?_, fun name contents hname hlookup => ?_, h.kept⟩
    · by_cases hname : name = path
      · subst hname
        obtain rfl := Option.some.inj ((AList.lookup_insert _).symm.trans hlookup)
        exact ⟨hactive.temporary, (hchanged name hactive.temporary).trans (if_pos rfl)⟩
      · obtain ⟨htemporary, hshown⟩ :=
          h.shown name entries ((AList.lookup_insert_ne hname).symm.trans hlookup)
        exact ⟨htemporary, ((hchanged name htemporary).trans (if_neg hname)).trans hshown⟩
    · obtain rfl := Option.some.inj (hpath.symm.trans heq)
      refine ⟨hactive.temporary, .inr ⟨world.writer.batch, AList.lookup_insert _, List.prefix_refl _, ?_⟩⟩
      rcases hactive.contents with ⟨-, hzero⟩ | ⟨entries, -, hfront, hbytes⟩
      · change world.writer.activePersistedBytes ≤ _
        omega
      · exact hbytes.trans (length_encodeLines_le hfront)
    · obtain ⟨other, hother, -⟩ := h.clean hclean hne
      obtain rfl := Option.some.inj (hpath.symm.trans hother)
      exact ⟨path, hpath, AList.lookup_insert _⟩
    · have haccounted := h.accounted n
      unfold World.occurrences at haccounted ⊢
      rw [hsealed]
      exact haccounted
    · have hcounted := h.counted hlength
      unfold World.reported at hcounted ⊢
      rw [hsealed]
      exact hcounted
    · change segmentBytes files ≤ _
      rw [segmentBytes_changed hactive.temporary hchanged]
      have hpersisted := hactive.size h
      have hbytes := @segmentBytes_eq world.files path hactive.temporary
      have hle := config.maximumSegmentBytes_le
      rcases hfits with hzero | hroom
      · change segmentBytes (world.files.erase path) = 0 at hzero
        omega
      · omega
    · have hlookup := (hchanged name hname).symm.trans hlookup
      by_cases hpath' : name = path
      · rw [if_pos hpath'] at hlookup
        obtain rfl := Option.some.inj hlookup
        exact hsize
      · rw [if_neg hpath'] at hlookup
        exact h.each name contents hname hlookup

end RlcdDeck.Diagnostics
