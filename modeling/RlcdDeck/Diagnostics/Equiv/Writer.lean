import RlcdDeck.Diagnostics.Equiv.Retention

/-!
# The writer keeps the account

Every call of the writer keeps `Sound`, whatever the others do before it, and so does every pass of its
loop (`iterate_wp`).  A persist that has succeeded and seals the batch leaves it empty; between two
passes nothing is in the hands of the writer.
-/

namespace RlcdDeck.Diagnostics

open Effects Program ProtectedFile

variable {config : Config} {world : World} {writer : Writer}

/-- What holds between two calls, with these variables. -/
structure Holds (config : Config) (writer : Writer) (world : World) : Prop where
  sound : Sound config world
  writer : world.writer = writer
  terminal : world.terminal = none

/-- What holds at every moment: a commit that ends the writer and has not failed leaves no batch. -/
structure Balanced (config : Config) (world : World) : Prop where
  sound : Sound config world
  terminal : world.terminal = some false → world.writer.batch = []

theorem Holds.balanced (h : Holds config writer world) : Balanced config world := by
  refine ⟨h.sound, fun hterminal => ?_⟩
  rw [h.terminal] at hterminal
  cases hterminal

theorem holds_stable (config : Config) (writer : Writer) :
    Stable (Others config) (Holds config writer) := by
  intro s t hs hstep
  have hsame := untouched_of_others hstep
  exact ⟨sound_of_others hs.sound hstep, hsame.writer.trans hs.writer,
    hsame.terminal.trans hs.terminal⟩

theorem files_stable (config : Config) (P : Directory → Prop) :
    Stable (Others config) fun s => P s.files := by
  intro s t hs hstep
  rw [(untouched_of_others hstep).files]
  exact hs

theorem segments_stable (config : Config) (P : (AList fun _ : Name => List Entry) → Prop) :
    Stable (Others config) fun s => P s.segments := by
  intro s t hs hstep
  rw [(untouched_of_others hstep).segments]
  exact hs

theorem balanced_stable (config : Config) : Stable (Others config) (Balanced config) := by
  intro s t hs hstep
  have hsame := untouched_of_others hstep
  refine ⟨sound_of_others hs.sound hstep, fun hterminal => ?_⟩
  rw [hsame.terminal] at hterminal
  rw [hsame.writer]
  exact hs.terminal hterminal

/-- The steps of the writer, after any steps of the others. -/
abbrev Runs (config : Config) : World → (call : Call) → call.Answer → World → Prop :=
  after (Others config) (Step config)

section Rules

variable {α : Type} {post : α → World → Prop} {P : Directory → Prop}

theorem wp_call {call : Call} {f : call.Answer → Prog α} (hs : Holds config writer world)
    (h : ∀ s answer s', Holds config writer s → Step config s call answer s' →
      (f answer).wp (Runs config) post (Balanced config) s') :
    (perform call >>= f).wp (Runs config) post (Balanced config) world :=
  wp_perform_stable (holds_stable config writer) (fun _ hs => hs.balanced) hs h

theorem wp_call_files {call : Call} {f : call.Answer → Prog α}
    (hs : Holds config writer world) (hP : P world.files)
    (h : ∀ s answer s', Holds config writer s → P s.files → Step config s call answer s' →
      (f answer).wp (Runs config) post (Balanced config) s') :
    (perform call >>= f).wp (Runs config) post (Balanced config) world :=
  wp_perform_stable ((holds_stable config writer).and (files_stable config P))
    (fun _ hs => hs.1.balanced) ⟨hs, hP⟩ fun s answer s' hs => h s answer s' hs.1 hs.2

theorem wp_return {a : α} (hs : Holds config writer world) (hpost : post a world) :
    (pure a : Prog α).wp (Runs config) post (Balanced config) world :=
  wp_pure hs.balanced hpost

theorem wp_load {f : Writer → Prog α} (hs : Holds config writer world)
    (h : ∀ s, Holds config writer s → (f writer).wp (Runs config) post (Balanced config) s) :
    (perform .load >>= f).wp (Runs config) post (Balanced config) world := by
  refine wp_call hs ?_
  rintro s answer s' hs hstep
  cases hstep
  rw [hs.writer]
  exact h _ hs

theorem wp_now {f : Reading → Prog α} (hs : Holds config writer world)
    (h : ∀ now s, Holds config writer s → (f now).wp (Runs config) post (Balanced config) s) :
    (perform .now >>= f).wp (Runs config) post (Balanced config) world := by
  refine wp_call hs ?_
  rintro s now s' hs hstep
  cases hstep
  exact h now _ hs

theorem wp_save {writer' : Writer} {f : Unit → Prog α} (hs : Holds config writer world)
    (hsave : ∀ s, Holds config writer s → Sound config { s with writer := writer' })
    (h : ∀ s, Holds config writer' s → (f ()).wp (Runs config) post (Balanced config) s) :
    (perform (.save writer') >>= f).wp (Runs config) post (Balanced config) world := by
  refine wp_call hs ?_
  rintro s answer s' hs hstep
  cases hstep
  exact h _ ⟨hsave s hs, rfl, hs.terminal⟩

end Rules

/-! ### Persisting -/

/-- What the functions of the writer leave alone, and how the variables may end. -/
def Leaves (config : Config) (writer : Writer) (post : Writer → Prop) (world : World) : Prop :=
  ∃ writer', Holds config writer' world ∧ writer'.command = writer.command ∧
    writer'.count = writer.count ∧ post writer'

theorem isTemporary_segmentName (createdNs : ℤ) (sequence : UInt64) :
    isTemporary (segmentName createdNs sequence) = false := rfl

theorem nextSegmentPath_wp (createdNs : ℤ) (fuel : ℕ) (sequence : UInt64) {P : Directory → Prop}
    (hs : Holds config writer world) (hP : P world.files) :
    (nextSegmentPath createdNs fuel sequence).wp (Runs config)
      (fun out s => Holds config writer s ∧ P s.files ∧
        ∀ path, out.1 = some path → isTemporary path = false ∧ s.files.lookup path = none)
      (Balanced config) world := by
  induction fuel generalizing sequence world with
  | zero => exact wp_return hs ⟨hs, hP, fun path hpath => by cases hpath⟩
  | succ fuel ih =>
    refine wp_call_files hs hP ?_
    rintro s answer s' hs hP hstep
    cases hstep with
    | missing hmissing =>
      refine wp_return hs ⟨hs, hP, fun path hpath => ?_⟩
      rw [← Option.some.inj hpath]
      exact ⟨isTemporary_segmentName _ _, AList.lookup_eq_none.mpr hmissing⟩
    | notLooked => exact wp_return hs ⟨hs, hP, fun path hpath => by cases hpath⟩
    | found => exact ih _ hs hP

theorem Fits.of_missing {reserve : ℕ} {path : Name} {files : Directory}
    (h : Fits config reserve none files) (hmissing : files.lookup path = none) :
    Fits config reserve (some path) files := by
  rcases h with hzero | hroom
  · left
    rw [otherBytes, Option.elim_some, segmentBytes_erase_of_notMem (AList.lookup_eq_none.mp hmissing)]
    exact hzero
  · exact .inr hroom

/-- The variables differ at most in what says nothing about events. -/
structure SameEvents (writer writer' : Writer) : Prop where
  batch : writer'.batch = writer.batch
  bytes : writer'.activePersistedBytes = writer.activePersistedBytes
  dirty : writer'.dirty = writer.dirty
  command : writer'.command = writer.command
  count : writer'.count = writer.count

theorem allocatePath_wp {reserve : ℕ} (hs : Holds config writer world) (hdirty : writer.dirty = true)
    (hfits : Fits config reserve writer.activePath world.files) :
    (allocatePath writer).wp (Runs config)
      (fun out s => ∃ writer', SameEvents writer writer' ∧ writer'.activePath = out ∧
        Holds config writer' s ∧ ∀ path, out = some path → Fits config reserve (some path) s.files)
      (Balanced config) world := by
  unfold allocatePath
  split
  next path hpath =>
    refine wp_return hs ⟨writer, ⟨rfl, rfl, rfl, rfl, rfl⟩, hpath, hs, fun other hother => ?_⟩
    rw [hpath] at hfits
    exact Option.some.inj hother ▸ hfits
  next hnone =>
    rw [hnone] at hfits
    refine wp_bind (wp_mono (nextSegmentPath_wp _ _ _ hs hfits) (fun _ h => h) ?_)
    rintro ⟨path, sequence⟩ s ⟨hs, hfits, hpath⟩
    dsimp only at hpath ⊢
    refine wp_call_files (P := fun files => Fits config reserve none files ∧
      ∀ other, path = some other → isTemporary other = false ∧ files.lookup other = none) hs
      ⟨hfits, hpath⟩ ?_
    rintro s answer s' hs ⟨hfits, hpath⟩ hstep
    cases hstep
    have hsound : Sound config { s with writer :=
        { writer with
          activePath := path
          lastSegmentNs := unixNano writer.activeCreated.wall
          sequence } } := by
      cases path with
      | none =>
        refine hs.sound.assign ?_ ?_ ?_ ?_ ?_ ?_ <;> simp only [hs.writer]
        exact hnone.symm
      | some path =>
        obtain ⟨htemporary, hmissing⟩ := hpath path rfl
        refine hs.sound.allocate ?_ htemporary hmissing rfl ?_ ?_ hdirty ?_ ?_
        · rw [hs.writer]
          exact hnone
        all_goals rw [hs.writer]
    have hholds : Holds config _ _ := ⟨hsound, rfl, hs.terminal⟩
    refine wp_return hholds ⟨{ writer with
      activePath := path
      lastSegmentNs := unixNano writer.activeCreated.wall
      sequence }, ⟨rfl, rfl, rfl, rfl, rfl⟩, rfl, hholds, fun other hother => ?_⟩
    exact hfits.of_missing (hpath other hother).2

theorem Sound.written (h : Sound config world) {path : Name}
    (hpath : world.writer.activePath = some path)
    (hlookup : world.segments.lookup path = some world.writer.batch) :
    Sound config
      { world with
        writer := { world.writer with
          activePersistedBytes := (encodeLines world.writer.batch).length
          dirty := false } } := by
  refine ⟨h.shown, fun other heq => ?_, fun hnone => ?_, fun _ _ => ⟨path, hpath, hlookup⟩,
    h.accounted, h.counted, h.total, h.each, h.kept⟩
  · obtain rfl := Option.some.inj (hpath.symm.trans heq)
    exact ⟨(h.active path hpath).temporary, .inr ⟨_, hlookup, List.prefix_refl _, Nat.le_refl _⟩⟩
  · rw [hpath] at hnone
    cases hnone

theorem writeBatch_wp {path : Name} {reserve : ℕ} (seals : Bool) (hs : Holds config writer world)
    (hpath : writer.activePath = some path) (hfits : Fits config reserve (some path) world.files)
    (hsize : (encodeLines writer.batch).length ≤ config.maximumSegmentBytes)
    (hreserve : (encodeLines writer.batch).length ≤ writer.activePersistedBytes + reserve) :
    (writeBatch seals path).wp (Runs config)
      (fun failed => Leaves config writer fun writer' =>
        failed = false → seals = true → writer'.batch = [])
      (Balanced config) world := by
  refine wp_call_files hs hfits ?_
  rintro s loaded s' hs hfits hstep
  cases hstep
  rw [hs.writer]
  refine wp_call_files hs hfits ?_
  rintro s result s' hs hfits hstep
  obtain rfl := hs.writer
  cases hstep with
  | @replaced _ _ _ files hexec =>
    have hends := hexec.sound (replace_wp s.files path (encodeLines s.writer.batch))
    have hsound := hs.sound.replace hpath hends hfits hsize hreserve
    have hreplaced : Holds config s.writer (s.replace path s.writer.batch result _) :=
      ⟨hsound, rfl, hs.terminal⟩
    dsimp only
    split
    next hfailed =>
      refine wp_return hreplaced ⟨_, hreplaced, rfl, rfl, fun hfalse => ?_⟩
      cases hfalse
    next hfailed =>
      have hcommitted : result.committed = true := by
        rcases hends with ⟨-, hfailed', -⟩ | ⟨hcommitted, -⟩
        · exact absurd hfailed' hfailed
        · exact hcommitted
      rcases hends with ⟨hcommitted', -⟩ | ⟨-, hchanged⟩
      · rw [hcommitted] at hcommitted'
        cases hcommitted'
      have hlookup : (s.replace path s.writer.batch result files).segments.lookup path =
          some s.writer.batch := by
        rw [World.replace, hcommitted]
        exact AList.lookup_insert _
      refine wp_perform_stable ((holds_stable config s.writer).and
        (segments_stable config fun segments => segments.lookup path = some s.writer.batch))
        (fun _ h => h.1.balanced) ⟨hreplaced, hlookup⟩ ?_
      rintro u answer u' ⟨hu, hlookup⟩ hstep
      cases hstep
      have hupath : u.writer.activePath = some path := by rw [hu.writer, hpath]
      rw [← hu.writer] at hlookup ⊢
      let written : Writer :=
        { u.writer with
          activePersistedBytes := (encodeLines u.writer.batch).length
          dirty := false }
      split
      next hseals =>
        have hholds : Holds config written.sealed { u with writer := written.sealed } :=
          ⟨hu.sound.seal hupath hlookup rfl rfl rfl rfl rfl, rfl, hu.terminal⟩
        exact wp_return hholds ⟨written.sealed, hholds, rfl, rfl, fun _ _ => rfl⟩
      next hseals =>
        have hholds : Holds config written { u with writer := written } :=
          ⟨hu.sound.written hupath hlookup, rfl, hu.terminal⟩
        exact wp_return hholds ⟨written, hholds, rfl, rfl, fun _ h => absurd h hseals⟩

theorem Leaves.mono {post post' : Writer → Prop} (h : Leaves config writer post world)
    (himp : ∀ writer', post writer' → post' writer') : Leaves config writer post' world := by
  obtain ⟨writer', hholds, hcommand, hcount, hpost⟩ := h
  exact ⟨writer', hholds, hcommand, hcount, himp writer' hpost⟩

theorem Leaves.of_same {writer' : Writer} {post : Writer → Prop} (h : Leaves config writer' post world)
    (hcommand : writer'.command = writer.command) (hcount : writer'.count = writer.count) :
    Leaves config writer post world := by
  obtain ⟨writer'', hholds, hcommand', hcount', hpost⟩ := h
  exact ⟨writer'', hholds, hcommand'.trans hcommand, hcount'.trans hcount, hpost⟩

theorem Holds.leaves {post : Writer → Prop} (h : Holds config writer world) (hpost : post writer) :
    Leaves config writer post world := ⟨writer, h, rfl, rfl, hpost⟩

theorem retention_wp {reserve : ℕ} (now : Reading) (hs : Holds config writer world) :
    (enforceRetention config now reserve writer.activePath).wp (Runs config)
      (fun ok s => Holds config writer s ∧
        (ok = true → Fits config reserve writer.activePath s.files ∧ Allowed config s.files))
      (Balanced config) world := by
  have hkept : KeptBy (Others config) writer.activePath (Holds config writer) := by
    refine ⟨holds_stable config writer, fun s t h => (untouched_of_others h).files, ?_⟩
    rintro s name hs htemporary hname
    rw [← hs.writer] at hname
    exact ⟨hs.sound.remove htemporary hname, hs.writer, hs.terminal⟩
  exact wp_mono (enforceRetention_wp hkept now hs) (fun _ h => h.balanced) fun _ _ h => h

theorem persistAt_wp {dated : Writer} (seals : Bool) (now : Reading) (hs : Holds config writer world)
    (hsame : SameEvents writer dated) (hactive : dated.activePath = writer.activePath)
    (hdirty : writer.dirty = true)
    (hsize : (encodeLines writer.batch).length ≤ config.maximumSegmentBytes) :
    (persistAt config seals now dated).wp (Runs config)
      (fun failed => Leaves config writer fun writer' =>
        failed = false → seals = true → writer'.batch = [])
      (Balanced config) world := by
  refine wp_save hs (fun s hs => ?_) fun s hs => ?_
  · refine hs.sound.assign ?_ ?_ ?_ ?_ ?_ ?_ <;> rw [hs.writer]
    · exact hsame.batch
    · exact hactive
    · exact hsame.bytes
    · exact hsame.dirty
    · exact hsame.command
    · exact hsame.count
  · refine wp_bind (wp_mono (retention_wp now hs) (fun _ h => h) ?_)
    rintro enforced s ⟨hs, hok⟩
    cases enforced with
    | false =>
      exact wp_return hs ((hs.leaves fun hfalse => by cases hfalse).of_same hsame.command hsame.count)
    | true =>
      obtain ⟨hfits, -⟩ := hok rfl
      refine wp_bind (wp_mono (allocatePath_wp hs (hsame.dirty.trans hdirty) hfits)
        (fun _ h => h) ?_)
      rintro path s ⟨allocated, hallocated, hpath, hs, hfits⟩
      have hcommand := hallocated.command.trans hsame.command
      have hcount := hallocated.count.trans hsame.count
      cases path with
      | none =>
        exact wp_return hs ((hs.leaves fun hfalse => by cases hfalse).of_same hcommand hcount)
      | some path =>
        refine wp_mono (writeBatch_wp seals hs hpath (hfits path rfl) ?_ ?_) (fun _ h => h)
          fun failed s h => h.of_same hcommand hcount
        · rw [hallocated.batch, hsame.batch]
          exact hsize
        · rw [hallocated.batch, hallocated.bytes]
          omega

theorem sameEvents_dated (writer : Writer) (now : Reading) :
    SameEvents writer (writer.dated now) ∧ (writer.dated now).activePath = writer.activePath := by
  unfold Writer.dated
  split
  · exact ⟨⟨rfl, rfl, rfl, rfl, rfl⟩, rfl⟩
  · exact ⟨⟨rfl, rfl, rfl, rfl, rfl⟩, rfl⟩

theorem persist_wp (seals : Bool) (hs : Holds config writer world) :
    (persist config seals).wp (Runs config)
      (fun out => Leaves config writer fun writer' =>
        out.2 = false → seals = true → writer'.batch = [])
      (Balanced config) world := by
  refine wp_load hs fun s hs => ?_
  split
  next hempty => exact wp_return hs (hs.leaves fun _ _ => hempty)
  next hne =>
    split
    next hclean =>
      rw [Bool.not_eq_true'] at hclean
      split
      next hseals =>
        refine wp_save hs (fun s hs => ?_) fun s hs => ?_
        · obtain rfl := hs.writer
          obtain ⟨path, hpath, hlookup⟩ := hs.sound.clean hclean hne
          exact hs.sound.seal hpath hlookup rfl rfl rfl rfl rfl
        · exact wp_return hs ((hs.leaves fun _ _ => rfl).of_same rfl rfl)
      next hseals => exact wp_return hs (hs.leaves fun _ h => absurd h hseals)
    next hdirty =>
      rw [Bool.not_eq_true, Bool.not_eq_false'] at hdirty
      split
      · exact wp_return hs (hs.leaves fun hfalse => by cases hfalse)
      next hsize =>
        refine wp_now hs fun now s hs => ?_
        split
        · exact wp_return hs (hs.leaves fun hfalse => by cases hfalse)
        · obtain ⟨hsame, hactive⟩ := sameEvents_dated writer now
          refine wp_bind (wp_mono
            (persistAt_wp seals now hs hsame hactive hdirty (Nat.not_lt.mp hsize)) (fun _ h => h) ?_)
          rintro failed s h
          have hbalanced : Balanced config s := by
            obtain ⟨writer', hholds, -⟩ := h
            exact hholds.balanced
          exact wp_pure hbalanced h

/-! ### Committing -/

theorem Leaves.balanced {post : Writer → Prop} (h : Leaves config writer post world) :
    Balanced config world := by
  obtain ⟨writer', hholds, -⟩ := h
  exact hholds.balanced

theorem whenNeeded_wp {needed : Bool} {program : Prog Bool} (hs : Holds config writer world)
    (h : program.wp (Runs config) (fun _ => Leaves config writer fun _ => True) (Balanced config) world) :
    (whenNeeded needed program).wp (Runs config) (fun _ => Leaves config writer fun _ => True)
      (Balanced config) world := by
  unfold whenNeeded
  split
  · exact h
  · exact wp_return hs (hs.leaves trivial)

theorem restore_wp {α : Type} {post : α → World → Prop} {f : Unit → Prog α}
    (hs : Holds config writer world)
    (h : ∀ s, Holds config { writer with count := 0 } s →
      (f ()).wp (Runs config) post (Balanced config) s) :
    (perform .restore >>= f).wp (Runs config) post (Balanced config) world := by
  refine wp_call hs ?_
  rintro s answer s' hs hstep
  obtain rfl := hs.writer
  cases hstep
  exact h _ ⟨hs.sound.restore, rfl, hs.terminal⟩

/-- How `commitOverflow` ends: the counter was emptied into the batch, or filled again. -/
def Emptied (config : Config) (writer : Writer) (world : World) : Prop :=
  ∃ writer', Holds config writer' world ∧ writer'.command = writer.command ∧ writer'.count = 0

theorem commitOverflow_wp (count : UInt32) (hs : Holds config writer world)
    (hcount : writer.count = count) :
    (commitOverflow config count).wp (Runs config) (fun _ => Emptied config writer)
      (Balanced config) world := by
  refine wp_now hs fun now s hs => ?_
  dsimp only
  split
  · refine restore_wp hs fun s hs => wp_return hs ⟨_, hs, rfl, rfl⟩
  · refine wp_load hs fun s hs => ?_
    have hpersist : (Prod.snd <$> persist config true).wp (Runs config)
        (fun _ => Leaves config writer fun _ => True) (Balanced config) s := by
      refine wp_bind (wp_mono (persist_wp true hs) (fun _ h => h) fun out s h => ?_)
      exact wp_pure h.balanced (h.mono fun _ _ => trivial)
    refine wp_bind (wp_mono (whenNeeded_wp hs hpersist) (fun _ h => h) ?_)
    rintro failed s ⟨written, hs, hcommand, hwritten, -⟩
    split
    · exact restore_wp hs fun s hs => wp_return hs ⟨_, hs, hcommand, rfl⟩
    · refine wp_load hs fun s hs => wp_save hs (fun s hs => ?_) fun s hs =>
        wp_return hs ⟨_, hs, hcommand, rfl⟩
      obtain rfl := hs.writer
      refine hs.sound.append now ⟨none, overflowEvent now count⟩ s.writer.command 0 (fun n => rfl) ?_
      rw [hwritten, hcount]
      exact Nat.zero_add _

theorem commit_wp (seals : Bool) (hs : Holds config writer world) (hcount : writer.count = 0) :
    (commit config seals).wp (Runs config)
      (fun out => Leaves config writer fun writer' =>
        out.2 = false → seals = true → writer'.batch = [])
      (Balanced config) world := by
  refine wp_call hs ?_
  rintro s dropped s' hs hstep
  obtain rfl := hs.writer
  cases hstep
  have hswapped : Holds config { s.writer with count := s.dropped }
      { s with dropped := 0, writer := { s.writer with count := s.dropped } } :=
    ⟨hs.sound.swap hcount, rfl, hs.terminal⟩
  split
  next hzero =>
    refine wp_mono (persist_wp seals hswapped) (fun _ h => h) fun out s h => h.of_same rfl ?_
    exact hzero.trans hcount.symm
  next hzero =>
    refine wp_bind (wp_mono (commitOverflow_wp s.dropped hswapped rfl) (fun _ h => h) ?_)
    rintro taken t ⟨emptied, ht, hcommand, hemptied⟩
    split
    · refine wp_mono (persist_wp seals ht) (fun _ h => h) fun out s h => h.of_same hcommand ?_
      exact hemptied.trans hcount.symm
    · refine wp_return ht ((ht.leaves fun hfalse => by cases hfalse).of_same hcommand ?_)
      exact hemptied.trans hcount.symm

theorem commitWithStatus_wp (seals : Bool) (hs : Holds config writer world)
    (hcount : writer.count = 0) :
    (commitWithStatus config seals).wp (Runs config)
      (fun failed => Leaves config writer fun writer' =>
        failed = false → seals = true → writer'.batch = [])
      (Balanced config) world := by
  refine wp_bind (wp_mono (commit_wp seals hs hcount) (fun _ h => h) ?_)
  rintro ⟨attempted, failed⟩ s ⟨committed, hs, hcommand, hcount, hbatch⟩
  refine wp_load hs fun s hs => wp_save hs (fun s hs => ?_) fun s hs => ?_
  · refine hs.sound.assign ?_ ?_ ?_ ?_ ?_ ?_ <;> rw [hs.writer]
  · exact wp_return hs ⟨_, hs, hcommand, hcount, hbatch⟩

/-! ### The loop -/

/-- Between two passes nothing is in the hands of the writer. -/
def Idle (config : Config) (world : World) : Prop :=
  ∃ writer, Holds config writer world ∧ writer.command = none ∧ writer.count = 0

theorem drop_wp {recorded : Recorded} (hs : Holds config writer world)
    (hcommand : writer.command = some recorded) (hcount : writer.count = 0) :
    (perform .drop : Prog Unit).wp (Runs config) (fun _ => Idle config) (Balanced config) world := by
  refine wp_call (f := pure) hs ?_
  rintro s answer s' hs hstep
  obtain rfl := hs.writer
  cases hstep
  have hdropped : Holds config { s.writer with command := none } _ :=
    ⟨hs.sound.drop hcommand, rfl, hs.terminal⟩
  exact wp_return hdropped ⟨_, hdropped, rfl, hcount⟩

theorem handleEvent_wp (recorded : Recorded) (hs : Holds config writer world)
    (hcommand : writer.command = some recorded) (hcount : writer.count = 0) :
    (handleEvent config recorded).wp (Runs config) (fun _ => Idle config) (Balanced config) world := by
  have hcommit : ∀ {writer : Writer} {s : World}, Holds config writer s → writer.count = 0 →
      (commitWithStatus config true).wp (Runs config) (fun _ => Leaves config writer fun _ => True)
        (Balanced config) s := fun hs hcount =>
    wp_mono (commitWithStatus_wp true hs hcount) (fun _ h => h) fun _ _ h => h.mono fun _ _ => trivial
  refine wp_now hs fun now s hs => wp_load hs fun s hs => ?_
  refine wp_bind (wp_mono (whenNeeded_wp hs (hcommit hs hcount)) (fun _ h => h) ?_)
  rintro failed s ⟨aged, hs, hcommand', hcount', -⟩
  rw [hcommand] at hcommand'
  rw [hcount] at hcount'
  split
  · exact drop_wp hs hcommand' hcount'
  · dsimp only
    split
    · exact drop_wp hs hcommand' hcount'
    · refine wp_load hs fun s hs => ?_
      refine wp_bind (wp_mono (whenNeeded_wp hs (hcommit hs hcount')) (fun _ h => h) ?_)
      rintro failed s ⟨roomy, hs, hcommand'', hcount'', -⟩
      rw [hcommand'] at hcommand''
      rw [hcount'] at hcount''
      split
      · exact drop_wp hs hcommand'' hcount''
      · refine wp_load hs fun s hs => wp_call (f := pure) hs ?_
        rintro s answer s' hs hstep
        obtain rfl := hs.writer
        cases hstep
        have happended := hs.sound.append now ⟨some recorded.id, ⟨formatUtc now.wall, recorded.event⟩⟩
          none s.writer.count (fun n => ?_) rfl
        · have hholds : Holds config _ _ := ⟨happended, rfl, hs.terminal⟩
          exact wp_return hholds ⟨_, hholds, rfl, hcount''⟩
        · rw [hcommand'']
          exact Nat.zero_add _

theorem tickRetention_wp (now : Reading) (hs : Holds config writer world)
    (hcommand : writer.command = none) (hcount : writer.count = 0) :
    (tickRetention config now).wp (Runs config) (fun _ => Idle config) (Balanced config) world := by
  refine wp_load hs fun s hs => ?_
  split
  · refine wp_bind (wp_mono (retention_wp now hs) (fun _ h => h) ?_)
    rintro enforced s ⟨hs, -⟩
    refine wp_save (f := pure) hs (fun s hs => ?_) fun s hs => wp_return hs ⟨_, hs, hcommand, hcount⟩
    refine hs.sound.assign ?_ ?_ ?_ ?_ ?_ ?_ <;> rw [hs.writer]
  · exact wp_return hs ⟨writer, hs, hcommand, hcount⟩

theorem handleTick_wp (hs : Holds config writer world) (hcommand : writer.command = none)
    (hcount : writer.count = 0) :
    (handleTick config).wp (Runs config) (fun _ => Idle config) (Balanced config) world := by
  refine wp_now hs fun now s hs => wp_load hs fun s hs => ?_
  refine wp_bind (wp_mono (commitWithStatus_wp _ hs hcount) (fun _ h => h) ?_)
  rintro failed s ⟨committed, hs, hcommand', hcount', -⟩
  rw [hcommand] at hcommand'
  rw [hcount] at hcount'
  split
  · exact wp_return hs ⟨committed, hs, hcommand', hcount'⟩
  · exact tickRetention_wp now hs hcommand' hcount'

/-- How a pass ends. -/
structure Passed (config : Config) (again : Bool) (world : World) : Prop where
  balanced : Balanced config world
  idle : again = true → Idle config world

theorem Idle.balanced (h : Idle config world) : Balanced config world := by
  obtain ⟨writer, hholds, -⟩ := h
  exact hholds.balanced

/-- **A pass of the loop.** -/
theorem iterate_wp (h : Idle config world) :
    (iterate config).wp (Runs config) (Passed config) (Balanced config) world := by
  obtain ⟨writer, hs, hcommand, hcount⟩ := h
  refine wp_call hs ?_
  rintro s received s' hs hstep
  obtain rfl := hs.writer
  cases hstep with
  | event hcommands =>
    have hreceived : Holds config _ _ := ⟨hs.sound.event hcommands hcommand, rfl, hs.terminal⟩
    refine wp_bind (wp_mono (handleEvent_wp _ hreceived rfl hcount) (fun _ h => h) fun _ s hidle => ?_)
    exact wp_pure hidle.balanced ⟨hidle.balanced, fun _ => hidle⟩
  | flush hcommands =>
    have hreceived : Holds config _ _ := ⟨hs.sound.received hcommands rfl, rfl, hs.terminal⟩
    refine wp_bind (wp_mono (commitWithStatus_wp false hreceived hcount) (fun _ h => h) ?_)
    rintro failed t ⟨committed, ht, hcommand', hcount', -⟩
    refine wp_call ht ?_
    rintro u answer u' hu hstep
    cases hstep
    refine wp_return hu ⟨hu.balanced, fun _ => ⟨_, hu, ?_, ?_⟩⟩
    · rw [hcommand']
      exact hcommand
    · rw [hcount']
      exact hcount
  | stop hcommands =>
    have hreceived : Holds config _ _ := ⟨hs.sound.received hcommands rfl, rfl, hs.terminal⟩
    refine wp_bind (wp_mono (commitWithStatus_wp true hreceived hcount) (fun _ h => h) ?_)
    rintro failed t ⟨committed, ht, hcommand', hcount', hbatch⟩
    refine wp_call ht ?_
    rintro u answer u' hu hstep
    cases hstep
    have hfinished : Balanced config { u with terminal := some failed } := by
      refine ⟨⟨hu.sound.shown, fun path hpath => ?_, hu.sound.inactive, hu.sound.clean,
        hu.sound.accounted, hu.sound.counted, hu.sound.total, hu.sound.each, hu.sound.kept⟩, ?_⟩
      · exact ⟨(hu.sound.active path hpath).1, (hu.sound.active path hpath).2⟩
      · intro hterminal
        rw [hu.writer]
        exact hbatch (Option.some.inj hterminal) rfl
    exact wp_pure hfinished ⟨hfinished, fun hfalse => by cases hfalse⟩
  | tick =>
    refine wp_bind (wp_mono (handleTick_wp hs hcommand hcount) (fun _ h => h) fun _ s hidle => ?_)
    exact wp_pure hidle.balanced ⟨hidle.balanced, fun _ => hidle⟩

end RlcdDeck.Diagnostics
