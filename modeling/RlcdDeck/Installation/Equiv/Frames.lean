import RlcdDeck.Effects.Frame
import RlcdDeck.Installation.World

/-!
# What the parts of an operation leave alone

Until its journal is written, an operation only makes calls that leave the state, the journal, the
registration and the data alone (`Quiet`), and only the staging of the executable writes programs.
-/

namespace RlcdDeck.Installation

open Effects
open Effects.Program (Only only_pure only_bind only_perform)

variable {manager : Manager} {migrates : Data → Data → Prop}

/-! ### Quiet calls -/

/-- The calls that change programs and backups at most. -/
def Quiet : Call → Prop
  | .replaceState _ | .removeState | .replaceJournal _ | .removeJournal _ | .replaceData _ _
  | .removeData _ | .migrate | .configure _ | .setEnabled _ | .removeRegistration => False
  | _ => True

/-- What a quiet call leaves alone. -/
structure Calm (before w : World) : Prop where
  state : w.state = before.state
  journal : w.journal = before.journal
  registration : w.registration = before.registration
  data : w.data = before.data
  commit : w.commit = before.commit
  stray : w.stray = before.stray

theorem Calm.refl (w : World) : Calm w w := ⟨rfl, rfl, rfl, rfl, rfl, rfl⟩

theorem Calm.trans {w w' w'' : World} (h : Calm w w') (h' : Calm w' w'') : Calm w w'' where
  state := h'.state.trans h.state
  journal := h'.journal.trans h.journal
  registration := h'.registration.trans h.registration
  data := h'.data.trans h.data
  commit := h'.commit.trans h.commit
  stray := h'.stray.trans h.stray

variable {α : Type}

theorem calm_of_reads {file : Option α} {w w' : World} {found : Found α}
    (h : Reads file w found w') : w' = w := by
  cases found with
  | found value => exact h.2
  | absent => exact h.2
  | failed => exact h

/-- A quiet call. -/
theorem calm_step {call : Call} (hquiet : Quiet call) {w w' : World} {r : Answer call}
    (h : step manager migrates w call r w') : Calm w w' := by
  cases call with
  | readState | readJournal => exact calm_of_reads h ▸ Calm.refl w
  | replaceExecutable | replaceBackup | replaceManifest =>
    rcases h with rfl | ⟨-, rfl⟩
    · exact ⟨rfl, rfl, rfl, rfl, rfl, rfl⟩
    · exact Calm.refl w'
  | mkdir path =>
    cases r with
    | created => exact (show w' = _ from h) ▸ ⟨rfl, rfl, rfl, rfl, rfl, rfl⟩
    | «exists» => exact (show w' = _ from h) ▸ Calm.refl w
    | failed =>
      rcases h with rfl | ⟨-, rfl⟩
      · exact Calm.refl w'
      · exact ⟨rfl, rfl, rfl, rfl, rfl, rfl⟩
  | removeAll path =>
    obtain ⟨left, rfl⟩ := h
    exact ⟨rfl, rfl, rfl, rfl, rfl, rfl⟩
  | readSource | readExecutable | inspectData | readData | readBackup | readManifest =>
    exact h.2 ▸ Calm.refl w
  | contextErr | now | lstatSource | lstatData | availableBytes | ensureDirectory
  | chmodExecutable | lstatExecutable | platformStatus =>
    exact (show w' = w from h) ▸ Calm.refl w
  | replaceState | removeState | replaceJournal | removeJournal | replaceData | removeData | migrate
  | configure | setEnabled | removeRegistration => exact hquiet.elim

theorem wp_calm {work : Work α} (hwork : Only Quiet work) (w : World) :
    work.wp (step manager migrates) (fun _ => Calm w) (Calm w) w :=
  Program.wp_of_only hwork
    (fun _ hquiet _ _ _ hcalm hstep => hcalm.trans (calm_step hquiet hstep)) (Calm.refl w)

/-! ### The calls of the parts -/

variable {allowed : Call → Prop}

theorem only_ask {call : Call} {rest : Answer call → Work α} (hcall : allowed call)
    (hrest : ∀ r, Only allowed (rest r)) :
    Only allowed (ask call >>= rest) :=
  only_bind (only_perform hcall) hrest

theorem only_readState (h : allowed .readState) :
    Only allowed (readState manager) := by
  apply only_ask h
  rintro (state | _ | _)
  · show Only allowed (ite _ _ _)
    split
    · exact only_pure _
    · exact only_pure _
  · exact only_pure _
  · exact only_pure _

theorem only_makeBackup (h : ∀ path, allowed (.mkdir path)) (base : Text) (count sequence : ℕ) :
    Only allowed (makeBackup manager base count sequence) := by
  induction count generalizing sequence with
  | zero => exact only_pure _
  | succ count ih =>
    apply only_ask (h _)
    rintro (_ | _ | _)
    · exact only_pure _
    · exact ih (sequence + 1)
    · exact only_pure _

theorem only_copyFiles (hcontext : allowed .contextErr)
    (hinspect : ∀ file, allowed (.inspectData file)) (hread : ∀ file, allowed (.readData file))
    (hreplace : ∀ path file contents, allowed (.replaceBackup path file contents))
    (backupPath : Path) (files : List MigrationFile) :
    Only allowed (copyFiles manager backupPath files) := by
  induction files with
  | nil => exact only_pure _
  | cons file files ih =>
    apply only_ask hcontext
    rintro (_ | _)
    · apply only_ask (hinspect file)
      rintro (_ | _ | _)
      · apply only_ask (hread file)
        rintro (_ | contents)
        · exact only_pure _
        · apply only_ask (hreplace backupPath file contents)
          rintro (_ | _)
          · exact only_pure _
          · exact only_bind ih fun _ => only_pure _
      · exact only_bind ih fun _ => only_pure _
      · exact only_pure _
    · exact only_pure _

theorem only_preflightCapacity (hsource : ∀ path, allowed (.lstatSource path))
    (hdata : ∀ file, allowed (.lstatData file)) (hspace : ∀ path, allowed (.availableBytes path))
    (sourcePath : Path) : Only allowed (preflightCapacity manager sourcePath) := by
  have hbytes : ∀ files, Only allowed (migrationBytes files) := by
    intro files
    induction files with
    | nil => exact only_pure _
    | cons file files ih =>
      apply only_ask (hdata file)
      rintro (size | _ | _)
      · show Only allowed (ite _ _ _)
        split
        · exact only_pure _
        · exact only_bind ih fun _ => only_pure _
      · exact ih
      · exact only_pure _
  have hhas : ∀ path need, Only allowed (hasSpace path need) := by
    intro path need
    apply only_ask (hspace path)
    rintro (_ | available)
    · exact only_pure _
    · exact only_pure _
  apply only_ask (hsource _)
  rintro (_ | size)
  · exact only_pure _
  · show Only allowed (ite _ _ _)
    split
    · exact only_pure _
    · apply only_bind (hbytes _)
      rintro (_ | bytes)
      · exact only_pure _
      · apply only_bind (hhas _ _)
        rintro (_ | _)
        · exact only_pure _
        · apply only_bind (hhas _ _)
          rintro (_ | _)
          · exact only_pure _
          · exact only_pure _

theorem only_stageExecutable (request : Request)
    (hread : ∀ path, allowed (.readSource path)) (hensure : ∀ path, allowed (.ensureDirectory path))
    (hreplace : ∀ contents, allowed (.replaceExecutable (stagingPath manager request) contents))
    (hchmod : ∀ path, allowed (.chmodExecutable path))
    (hlstat : ∀ path, allowed (.lstatExecutable path))
    (hverify : ∀ path, allowed (.readExecutable path)) :
    Only allowed (stageExecutable manager request) := by
  apply only_ask (hread _)
  rintro (_ | contents)
  · exact only_pure _
  · show Only allowed (if contents = [] ∨ _ then _ else _)
    split
    · exact only_pure _
    · apply only_ask (hensure _)
      rintro (_ | _)
      · exact only_pure _
      · apply only_bind
        · unfold stageContents
          split
          · exact only_pure _
          · exact only_perform (hreplace contents)
        · rintro (_ | _)
          · exact only_pure _
          · apply only_ask (hchmod _)
            rintro (_ | _)
            · exact only_pure _
            · apply only_ask (hlstat _)
              rintro (_ | _)
              · exact only_pure _
              · apply only_ask (hverify _)
                rintro (_ | verified)
                · exact only_pure _
                · show Only allowed (if manager.sha256 contents ≠ _ then _ else _)
                  split
                  · exact only_pure _
                  · exact only_pure _

theorem only_createMigrationSnapshot (commit : Text) (hcontext : allowed .contextErr)
    (hensure : ∀ path, allowed (.ensureDirectory path))
    (hnow : allowed .now) (hmkdir : ∀ path, allowed (.mkdir path))
    (hinspect : ∀ file, allowed (.inspectData file)) (hread : ∀ file, allowed (.readData file))
    (hreplace : ∀ path file contents, allowed (.replaceBackup path file contents))
    (hmanifest : ∀ path manifest, allowed (.replaceManifest path manifest))
    (hremove : ∀ path, allowed (.removeAll path)) :
    Only allowed (createMigrationSnapshot manager commit) := by
  have hgiveUp : ∀ path, Only allowed (do ask (.removeAll path); return none : Work (Option Path)) :=
    fun path => only_ask (hremove path) fun _ => only_pure _
  apply only_ask hcontext
  rintro (_ | _)
  · apply only_ask (hensure _)
    rintro (_ | _)
    · exact only_pure _
    · apply only_ask hnow
      intro now
      apply only_bind (only_makeBackup hmkdir _ _ _)
      rintro (_ | path)
      · exact only_pure _
      · apply only_bind (only_copyFiles hcontext hinspect hread hreplace path _)
        rintro (_ | entries)
        · exact hgiveUp path
        · apply only_ask (hmanifest _ _)
          rintro (_ | _)
          · exact hgiveUp path
          · exact only_pure _
  · exact only_pure _

theorem only_statusFromState (h : allowed .platformStatus) (state : InstallationState) :
    Only allowed (statusFromState state) := by
  apply only_ask h
  rintro (_ | platform)
  · exact only_pure _
  · show Only allowed (if !platform.installed ∨ _ then _ else _)
    split
    · exact only_pure _
    · exact only_pure _

/-- The state that is read is the one in the file, and valid. -/
theorem readState_spec (w : World) :
    (readState manager).wp (step manager migrates)
      (fun result w' => w = w' ∧ ∀ state, result = .ok state →
        w.state = state ∧ state.all (validState manager) = true)
      (Eq w) w := by
  apply Program.wp_perform rfl
  rintro found w' hread
  cases found with
  | found state =>
    obtain ⟨hstate, rfl⟩ := hread
    show Program.wp _ _ _ (if validState manager state then _ else _) _
    split_ifs with hvalid
    · apply Program.wp_pure rfl
      refine ⟨rfl, ?_⟩
      rintro _ ⟨⟩
      exact ⟨hstate, hvalid⟩
    · exact Program.wp_pure rfl ⟨rfl, fun _ hok => nomatch hok⟩
  | absent =>
    obtain ⟨hstate, rfl⟩ := hread
    apply Program.wp_pure rfl
    refine ⟨rfl, ?_⟩
    rintro _ ⟨⟩
    exact ⟨hstate, rfl⟩
  | failed =>
    obtain rfl : w' = w := hread
    exact Program.wp_pure rfl ⟨rfl, fun _ hok => nomatch hok⟩

end RlcdDeck.Installation
