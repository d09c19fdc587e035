import RlcdDeck.Installation.Equiv.Frames

/-!
# The snapshot of the data

A snapshot that was created holds the data as they were (`createMigrationSnapshot_spec`), and a
restoration that reports no error puts them back (`restoreMigrationSnapshot_spec`), from whatever is
in the data files.
-/

namespace RlcdDeck.Installation

open Effects
open Effects.Program (wp_pure wp_bind wp_mono wp_perform)

variable {manager : Manager} {migrates : Data → Data → Prop}

/-- The copies in a directory. -/
def savedFiles (w : World) (path : Path) : Data := ((w.backups path).getD {}).files

/-- An entry of a manifest is right about `data` and the copies. -/
def Recorded (data copies : Data) (entry : MigrationEntry) : Prop :=
  if entry.existed then copies entry.path = data entry.path else data entry.path = none

/-- The directory holds a manifest, and is right about `data`. -/
def Saved (data : Data) (w : World) (path : Path) : Prop :=
  ∃ manifest, ((w.backups path).getD {}).manifest = some manifest ∧
    ∀ entry ∈ manifest.entries, Recorded data (savedFiles w path) entry

variable {data : Data} {w w' : World} {path : Path}

theorem Saved.of_backups (h : Saved data w path) (hbackups : w'.backups = w.backups) :
    Saved data w' path := by
  unfold Saved savedFiles
  rw [hbackups]
  exact h

@[simp] theorem backups_updateBackup (w : World) (path : Path) (change : Backup → Backup) :
    ((w.updateBackup path change).backups path).getD {} = change ((w.backups path).getD {}) := by
  show (Function.update w.backups path _ path).getD {} = _
  rw [Function.update_self, Option.getD_some]

/-! ### Copying -/

/-- Copies that may have been brought up to date with `data`. -/
def Refreshed (data copies copies' : Data) : Prop :=
  ∀ file, copies' file = copies file ∨ copies' file = data file

theorem Refreshed.refl (data copies : Data) : Refreshed data copies copies := fun _ => .inl rfl

theorem Refreshed.trans {copies copies' copies'' : Data} (h : Refreshed data copies copies')
    (h' : Refreshed data copies' copies'') : Refreshed data copies copies'' := by
  intro file
  rcases h' file with h' | h'
  · rw [h']
    exact h file
  · exact .inr h'

theorem Recorded.refreshed {copies copies' : Data} {entry : MigrationEntry}
    (h : Recorded data copies entry) (hrefreshed : Refreshed data copies copies') :
    Recorded data copies' entry := by
  unfold Recorded at h ⊢
  split_ifs at h ⊢ with hexisted
  · rcases hrefreshed entry.path with hsame | hdata
    · exact hsame.trans h
    · exact hdata
  · exact h

theorem refreshed_replaceBackup {file : MigrationFile} {contents : List UInt8} {ok : Bool}
    (hcontents : w.data file = some contents)
    (hstep : step manager migrates w (.replaceBackup path file contents) ok w') :
    w'.data = w.data ∧ Refreshed w.data (savedFiles w path) (savedFiles w' path) ∧
      (ok = true → savedFiles w' path file = w.data file) := by
  rcases hstep with rfl | ⟨hfailed, rfl⟩
  · have hfiles : savedFiles (w.updateBackup path fun backup =>
        { backup with files := Function.update backup.files file (some contents) }) path =
        Function.update (savedFiles w path) file (some contents) := by
      unfold savedFiles
      rw [backups_updateBackup]
    refine ⟨rfl, ?_, ?_⟩
    · intro other
      rw [hfiles]
      by_cases hother : other = file
      · rw [hother, Function.update_self, hcontents]
        exact .inr rfl
      · rw [Function.update_of_ne hother]
        exact .inl rfl
    · intro _
      rw [hfiles, Function.update_self, hcontents]
  · exact ⟨rfl, Refreshed.refl _ _, fun hok => absurd hok (by rw [hfailed]; decide)⟩

/-- The loop that copies the files, by induction on those that are left: what is copied later leaves
the earlier copies right, because it only refreshes them. -/
theorem copyFiles_spec (files : List MigrationFile) {w : World} (hdata : w.data = data) :
    (copyFiles manager path files).wp (step manager migrates)
      (fun result w' => Refreshed data (savedFiles w path) (savedFiles w' path) ∧
        ∀ entries, result = some entries →
          ∀ entry ∈ entries, Recorded data (savedFiles w' path) entry)
      (fun _ => True) w := by
  induction files generalizing w with
  | nil =>
    apply wp_pure trivial
    refine ⟨Refreshed.refl _ _, ?_⟩
    intro entries hentries
    obtain rfl := Option.some.inj hentries
    simp
  | cons file files ih =>
    apply wp_perform trivial
    rintro done w₁ hcontext
    obtain rfl : w₁ = w := hcontext
    have hnone : (pure none : Work (Option (List MigrationEntry))).wp (step manager migrates)
        (fun result w' => Refreshed data (savedFiles w₁ path) (savedFiles w' path) ∧
          ∀ entries, result = some entries →
            ∀ entry ∈ entries, Recorded data (savedFiles w' path) entry)
        (fun _ => True) w₁ :=
      wp_pure trivial ⟨Refreshed.refl _ _, fun _ hentries => nomatch hentries⟩
    cases done with
    | true => exact hnone
    | false =>
      apply wp_perform trivial
      rintro found w₂ ⟨habsent, rfl⟩
      cases found with
      | failed => exact hnone
      | absent =>
        apply wp_bind
        apply wp_mono (ih hdata) fun _ _ => trivial
        rintro result w₃ ⟨hrefreshed, hrecorded⟩
        apply wp_pure trivial
        refine ⟨hrefreshed, ?_⟩
        intro entries hentries entry hentry
        obtain ⟨rest, rfl, rfl⟩ := Option.map_eq_some_iff.mp hentries
        rcases List.mem_cons.mp hentry with rfl | hentry
        · show data file = none
          rw [← hdata]
          exact habsent rfl
        · exact hrecorded rest rfl entry hentry
      | found =>
        apply wp_perform trivial
        rintro read w₃ ⟨hread, rfl⟩
        cases read with
        | none => exact hnone
        | some contents =>
          have hcontents := hread contents rfl
          apply wp_perform trivial
          rintro ok w₄ hstep
          obtain ⟨hdata₄, hrefreshed₄, hcopied⟩ := refreshed_replaceBackup hcontents hstep
          rw [hdata] at hdata₄ hrefreshed₄ hcopied
          cases ok with
          | false => exact wp_pure trivial ⟨hrefreshed₄, fun _ hentries => nomatch hentries⟩
          | true =>
            apply wp_bind
            apply wp_mono (ih hdata₄) fun _ _ => trivial
            rintro result w₅ ⟨hrefreshed, hrecorded⟩
            apply wp_pure trivial
            refine ⟨hrefreshed₄.trans hrefreshed, ?_⟩
            intro entries hentries entry hentry
            obtain ⟨rest, rfl, rfl⟩ := Option.map_eq_some_iff.mp hentries
            rcases List.mem_cons.mp hentry with rfl | hentry
            · have hhead : Recorded data (savedFiles w₄ path)
                  { path := file
                    existed := true
                    size := contents.length
                    sha256 := Bytes.encodeHex (manager.sha256 contents) } := hcopied rfl
              exact hhead.refreshed hrefreshed
            · exact hrecorded rest rfl entry hentry

theorem saved_replaceManifest {manifest : MigrationManifest}
    (hrecorded : ∀ entry ∈ manifest.entries, Recorded data (savedFiles w path) entry)
    (hstep : step manager migrates w (.replaceManifest path manifest) true w') :
    Saved data w' path := by
  rcases hstep with rfl | ⟨hfailed, -⟩
  · refine ⟨manifest, ?_, ?_⟩
    · rw [backups_updateBackup]
    · intro entry hentry
      unfold savedFiles
      rw [backups_updateBackup]
      exact hrecorded entry hentry
  · cases hfailed

/-- **The snapshot** that is created holds the data. -/
theorem createMigrationSnapshot_spec (commit : Text) (w : World) :
    (createMigrationSnapshot manager commit).wp (step manager migrates)
      (fun result w' => ∀ path, result = some path → Saved w.data w' path) (fun _ => True) w := by
  have hnone : ∀ w', (pure none : Work (Option Path)).wp (step manager migrates)
      (fun result w' => ∀ path, result = some path → Saved w.data w' path) (fun _ => True) w' :=
    fun w' => wp_pure trivial fun _ hpath => nomatch hpath
  -- After the directory is made, nothing has changed but the backups.
  apply wp_perform trivial
  rintro done w₁ hcontext
  obtain rfl : w₁ = w := hcontext
  cases done with
  | true => exact hnone _
  | false =>
    apply wp_perform trivial
    rintro ok w₂ hensure
    obtain rfl : w₂ = w₁ := hensure
    cases ok with
    | false => exact hnone _
    | true =>
      apply wp_perform trivial
      rintro now w₃ hnow
      obtain rfl : w₃ = w₂ := hnow
      apply wp_bind
      apply wp_mono (wp_calm (only_makeBackup (fun _ => trivial) _ _ _) w₃) fun _ _ => trivial
      rintro made w₄ hcalm
      cases made with
      | none => exact hnone _
      | some path =>
        apply wp_bind
        apply wp_mono (copyFiles_spec migrationFiles hcalm.data) fun _ _ => trivial
        rintro copied w₅ ⟨-, hrecorded⟩
        cases copied with
        | none =>
          apply wp_perform trivial
          rintro - w₆ -
          exact hnone _
        | some entries =>
          apply wp_perform trivial
          rintro ok w₆ hmanifest
          cases ok with
          | false =>
            apply wp_perform trivial
            rintro - w₇ -
            exact hnone _
          | true =>
            apply wp_pure trivial
            rintro path' hpath
            obtain rfl := Option.some.inj hpath
            exact saved_replaceManifest (hrecorded entries rfl) hmanifest

/-! ### Restoring -/

/-- Only the data differ. -/
def DataOnly (before w : World) : Prop := ∃ data, w = { before with data := data }

theorem DataOnly.refl (w : World) : DataOnly w w := ⟨w.data, rfl⟩

theorem DataOnly.trans {w'' : World} (h : DataOnly w w') (h' : DataOnly w' w'') :
    DataOnly w w'' := by
  obtain ⟨data, rfl⟩ := h
  obtain ⟨data', rfl⟩ := h'
  exact ⟨data', rfl⟩

theorem restored_of_changes {file : MigrationFile} {contents : Option (List UInt8)}
    (hcontents : data file = contents)
    (h : w' = { w with data := Function.update w.data file contents } ∨ w' = w) :
    DataOnly w w' ∧ Refreshed data w.data w'.data := by
  rcases h with rfl | rfl
  · refine ⟨⟨_, rfl⟩, ?_⟩
    intro other
    by_cases hother : other = file
    · subst hother
      rw [hcontents]
      exact .inr (Function.update_self _ _ _)
    · exact .inl (Function.update_of_ne hother _ _)
  · exact ⟨DataOnly.refl _, Refreshed.refl _ _⟩

/-- The loop that puts the files back, by induction on the entries that are left: a file that is
right stays right, because every file that is written gets what `data` has. -/
theorem restoreEntries_spec (entries : List MigrationEntry) {w : World}
    (hrecorded : ∀ entry ∈ entries, Recorded data (savedFiles w path) entry) :
    (restoreEntries manager path entries).wp (step manager migrates)
      (fun errors w' => DataOnly w w' ∧ Refreshed data w.data w'.data ∧
        (errors = [] → ∀ entry ∈ entries, w'.data entry.path = data entry.path))
      (DataOnly w) w := by
  induction entries generalizing w with
  | nil => exact wp_pure (DataOnly.refl w) ⟨DataOnly.refl w, Refreshed.refl _ _, by simp⟩
  | cons entry entries ih =>
    have herror : ∀ (error : Error) w', DataOnly w w' → Refreshed data w.data w'.data →
        (pure [error] : Work (List Error)).wp (step manager migrates)
          (fun errors w' => DataOnly w w' ∧ Refreshed data w.data w'.data ∧
            (errors = [] → ∀ e ∈ entry :: entries, w'.data e.path = data e.path))
          (DataOnly w) w' :=
      fun _ _ honly hrefreshed =>
        wp_pure honly ⟨honly, hrefreshed, fun herrors => nomatch herrors⟩
    -- The rest, once the file of the entry is right.
    have hrest : ∀ w₁, DataOnly w w₁ → Refreshed data w.data w₁.data →
        w₁.data entry.path = data entry.path →
        (restoreEntries manager path entries).wp (step manager migrates)
          (fun errors w' => DataOnly w w' ∧ Refreshed data w.data w'.data ∧
            (errors = [] → ∀ e ∈ entry :: entries, w'.data e.path = data e.path))
          (DataOnly w) w₁ := by
      intro w₁ honly hrefreshed hentry
      have hrecorded₁ : ∀ e ∈ entries, Recorded data (savedFiles w₁ path) e := by
        obtain ⟨data₁, rfl⟩ := honly
        exact fun e he => hrecorded e (List.mem_cons_of_mem _ he)
      apply wp_mono (ih hrecorded₁) fun w' honly' => honly.trans honly'
      rintro errors w' ⟨honly', hrefreshed', hdone⟩
      refine ⟨honly.trans honly', hrefreshed.trans hrefreshed', ?_⟩
      intro herrors e he
      rcases List.mem_cons.mp he with rfl | he
      · rcases hrefreshed' e.path with hsame | hdata
        · exact hsame.trans hentry
        · exact hdata
      · exact hdone herrors e he
    have hhead := hrecorded entry List.mem_cons_self
    apply wp_perform (DataOnly.refl w)
    rintro done w₁ hcontext
    obtain rfl : w₁ = w := hcontext
    cases done with
    | true => exact herror _ _ (DataOnly.refl _) (Refreshed.refl _ _)
    | false =>
      show Program.wp _ _ _ (if !entry.existed then _ else _) _
      unfold Recorded at hhead
      split_ifs with hexisted
      · -- A file that was not there.
        rw [Bool.not_eq_true'] at hexisted
        rw [hexisted] at hhead
        have hnone : data entry.path = none := hhead
        apply wp_perform (DataOnly.refl _)
        rintro removal w₂ hremoved
        cases removal with
        | removed =>
          have heffect : w₂ = { w₁ with data := Function.update w₁.data entry.path none } := hremoved
          obtain ⟨honly, hrefreshed⟩ := restored_of_changes hnone (.inl heffect)
          apply hrest _ honly hrefreshed
          rw [heffect, hnone]
          exact Function.update_self _ _ _
        | absent =>
          obtain ⟨habsent, rfl⟩ := hremoved
          apply hrest _ (DataOnly.refl _) (Refreshed.refl _ _)
          rw [hnone]
          exact Option.isNone_iff_eq_none.mp (Option.isSome_eq_false_iff.mp habsent)
        | failed =>
          obtain ⟨honly, hrefreshed⟩ := restored_of_changes hnone hremoved
          exact herror _ _ honly hrefreshed
      · rw [Bool.not_eq_true', Bool.not_eq_false] at hexisted
        rw [if_pos hexisted] at hhead
        apply wp_perform (DataOnly.refl _)
        rintro read w₂ ⟨hread, rfl⟩
        cases read with
        | none => exact herror _ _ (DataOnly.refl _) (Refreshed.refl _ _)
        | some contents =>
          have hcontents : data entry.path = some contents := by
            rw [← hhead]
            exact hread contents rfl
          show Program.wp _ _ _ (if (contents.length : ℤ) ≠ entry.size ∨ _ then _ else _) _
          split_ifs
          · exact herror _ _ (DataOnly.refl _) (Refreshed.refl _ _)
          · apply wp_perform (DataOnly.refl _)
            rintro ok w₃ hreplaced
            cases ok with
            | false =>
              have heffect : w₃ = { w₂ with
                  data := Function.update w₂.data entry.path (some contents) } ∨ w₃ = w₂ := by
                rcases hreplaced with heffect | ⟨-, hsame⟩
                · exact .inl heffect
                · exact .inr hsame
              obtain ⟨honly, hrefreshed⟩ := restored_of_changes hcontents heffect
              exact herror _ _ honly hrefreshed
            | true =>
              rcases hreplaced with heffect | ⟨hfailed, -⟩
              · obtain ⟨honly, hrefreshed⟩ := restored_of_changes hcontents (.inl heffect)
                apply hrest _ honly hrefreshed
                rw [heffect, hcontents]
                exact Function.update_self _ _ _
              · cases hfailed

/-- **The restoration** puts the data back, when it reports no error. -/
theorem restoreMigrationSnapshot_spec (hsaved : Saved data w path) :
    (restoreMigrationSnapshot manager path).wp (step manager migrates)
      (fun errors w' => DataOnly w w' ∧ (errors = [] → w'.data = data)) (DataOnly w) w := by
  have herror : ∀ error : Error, (pure [error] : Work (List Error)).wp (step manager migrates)
      (fun errors w' => DataOnly w w' ∧ (errors = [] → w'.data = data)) (DataOnly w) w :=
    fun _ => wp_pure (DataOnly.refl w) ⟨DataOnly.refl w, fun herrors => nomatch herrors⟩
  obtain ⟨manifest, hmanifest, hrecorded⟩ := hsaved
  apply wp_perform (DataOnly.refl w)
  rintro done w₁ hcontext
  obtain rfl : w₁ = w := hcontext
  cases done with
  | true => exact herror _
  | false =>
    apply wp_perform (DataOnly.refl _)
    rintro read w₂ ⟨hread, rfl⟩
    cases read with
    | none => exact herror _
    | some found =>
      obtain rfl : manifest = found := Option.some.inj (hmanifest.symm.trans (hread found rfl))
      show Program.wp _ _ _ (if !validMigrationManifest manager manifest then _ else _) _
      split_ifs with hvalid
      · exact herror _
      · apply wp_mono (restoreEntries_spec manifest.entries hrecorded) fun _ honly => honly
        rintro errors w₃ ⟨honly, -, hdone⟩
        refine ⟨honly, fun herrors => funext fun file => ?_⟩
        have hentries : manifest.entries.map (·.path) = migrationFiles := by
          rw [Bool.not_eq_true', Bool.not_eq_false] at hvalid
          simp only [validMigrationManifest, Bool.and_eq_true, decide_eq_true_eq] at hvalid
          exact hvalid.1.2
        have hfile : file ∈ manifest.entries.map (·.path) := by
          rw [hentries]
          cases file <;> decide
        obtain ⟨entry, hentry, rfl⟩ := List.mem_map.mp hfile
        exact hdone herrors entry hentry

end RlcdDeck.Installation
