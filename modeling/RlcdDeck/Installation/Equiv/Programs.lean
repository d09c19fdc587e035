import RlcdDeck.Installation.Equiv.Atomic

/-!
# The program of the prior state

`Apply` stages its program before there is a journal, at a path made of the version and the commit
of the request, and nothing puts the file back.  So the program of the prior state is intact after a
rollback unless it is at that path, and the request brings another one (`program_intact`).
-/

namespace RlcdDeck.Installation

open Effects
open Effects.Program (Exec Only only_pure only_bind only_perform wp_pure wp_bind wp_mono wp_perform)

variable {manager : Manager} {migrates : Data → Data → Prop}

/-! ### Calls that write no program -/

def KeepsPrograms : Call → Prop
  | .replaceExecutable _ _ => False
  | _ => True

theorem programs_of_removes {present : Bool} (effect : World → World) {w w' : World}
    {removal : Removal} (h : Removes present effect w removal w')
    (heffect : (effect w).programs = w.programs) : w'.programs = w.programs := by
  cases removal with
  | removed => exact (show w' = effect w from h) ▸ heffect
  | absent => rw [h.2]
  | failed =>
    rcases h with rfl | rfl
    · exact heffect
    · rfl

theorem programs_step {call : Call} (hkeeps : KeepsPrograms call) {w w' : World}
    {r : Answer call} (h : step manager migrates w call r w') : w'.programs = w.programs := by
  cases call with
  | readState | readJournal => rw [calm_of_reads h]
  | replaceState | replaceJournal | replaceData | replaceBackup | replaceManifest
  | removeRegistration =>
    rcases h with rfl | ⟨-, rfl⟩
    · rfl
    · rfl
  | replaceExecutable => exact hkeeps.elim
  | removeState => exact programs_of_removes (fun w => { w with state := none }) h rfl
  | removeData file =>
    exact programs_of_removes
      (fun w => { w with data := Function.update w.data file none }) h rfl
  | removeJournal commit =>
    cases commit with
    | true =>
      exact programs_of_removes
        (fun w => { w with journal := none, commit := some (r == .removed) }) h rfl
    | false =>
      exact programs_of_removes (fun w => { w with journal := none }) h rfl
  | mkdir path =>
    cases r with
    | created => exact (show w' = _ from h) ▸ rfl
    | «exists» => exact (show w' = _ from h) ▸ rfl
    | failed =>
      rcases h with rfl | ⟨-, rfl⟩
      · rfl
      · rfl
  | removeAll =>
    obtain ⟨left, rfl⟩ := h
    rfl
  | migrate | configure | setEnabled =>
    obtain ⟨left, -, rfl⟩ := h
    rfl
  | readSource | readExecutable | inspectData | readData | readBackup | readManifest => rw [h.2]
  | contextErr | now | lstatSource | lstatData | availableBytes | ensureDirectory
  | chmodExecutable | lstatExecutable | platformStatus => rw [show w' = w from h]

theorem wp_programs {α : Type} {work : Work α} (hwork : Only KeepsPrograms work)
    {programs : Path → Option (List UInt8)} {w : World} (h : w.programs = programs) :
    work.wp (step manager migrates) (fun _ w' => w'.programs = programs)
      (fun w' => w'.programs = programs) w :=
  Program.wp_of_only hwork
    (fun _ hkeeps _ _ _ hprograms hstep => (programs_step hkeeps hstep).trans hprograms) h

/-! ### The rollback and the body write no program -/

theorem only_restoreMigrationSnapshot (path : Path) :
    Only KeepsPrograms (restoreMigrationSnapshot manager path) := by
  have hentries : ∀ entries, Only KeepsPrograms (restoreEntries manager path entries) := by
    intro entries
    induction entries with
    | nil => exact only_pure _
    | cons entry entries ih =>
      apply only_ask trivial
      rintro (_ | _)
      · show Only KeepsPrograms (if !entry.existed then _ else _)
        split
        · apply only_ask trivial
          rintro (_ | _ | _)
          · exact ih
          · exact ih
          · exact only_pure _
        · apply only_ask trivial
          rintro (_ | contents)
          · exact only_pure _
          · show Only KeepsPrograms (if (contents.length : ℤ) ≠ entry.size ∨ _ then _ else _)
            split
            · exact only_pure _
            · apply only_ask trivial
              rintro (_ | _)
              · exact only_pure _
              · exact ih
      · exact only_pure _
  apply only_ask trivial
  rintro (_ | _)
  · apply only_ask trivial
    rintro (_ | manifest)
    · exact only_pure _
    · show Only KeepsPrograms (if !validMigrationManifest manager manifest then _ else _)
      split
      · exact only_pure _
      · exact hentries _
  · exact only_pure _

theorem only_restorePrior (journal : TransactionJournal) :
    Only KeepsPrograms (restorePrior manager journal) := by
  have hrest : Only KeepsPrograms (do
      if !(← ask (.setEnabled journal.prior.enabled)) then return [⟨.platform, ""⟩]
      else if !(← ask (.replaceState journal.prior)) then return [writeError]
      else return [] : Work (List Error)) := by
    apply only_ask trivial
    rintro (_ | _)
    · exact only_pure _
    · apply only_ask trivial
      rintro (_ | _)
      · exact only_pure _
      · exact only_pure _
  unfold restorePrior
  by_cases hreconfigure : journal.reconfigure = true
  · rw [if_pos hreconfigure]
    apply only_ask trivial
    rintro (_ | _)
    · exact only_pure _
    · exact hrest
  · rw [if_neg hreconfigure]
    exact hrest

theorem only_rollback (journal : TransactionJournal) :
    Only KeepsPrograms (rollback manager journal) := by
  have hdata : Only KeepsPrograms (restoreData manager journal) := by
    unfold restoreData
    split
    · exact only_pure _
    · exact only_bind (only_restoreMigrationSnapshot _) fun _ => only_pure _
  have hstartup : Only KeepsPrograms (restoreStartup manager journal) := by
    unfold restoreStartup
    split
    · exact only_restorePrior journal
    · exact only_ask trivial fun _ => only_ask trivial fun _ => only_pure _
  apply only_bind hdata
  intro dataErrors
  apply only_bind hstartup
  intro errors
  show Only KeepsPrograms (if dataErrors ++ errors = [] then _ else _)
  split
  · apply only_ask trivial
    rintro (_ | _ | _)
    · exact only_pure _
    · exact only_pure _
    · exact only_pure _
  · exact only_pure _

theorem only_recover : Only KeepsPrograms (recover manager) := by
  apply only_ask trivial
  rintro (journal | _ | _)
  · show Only KeepsPrograms (if validJournal manager journal then _ else _)
    split
    · exact only_rollback journal
    · exact only_pure _
  · exact only_pure _
  · exact only_pure _

theorem only_transaction (journal : TransactionJournal) (status : Status)
    {body : Work (List Error)} (hbody : Only KeepsPrograms body) :
    Only KeepsPrograms (transaction manager journal status body) := by
  apply only_ask trivial
  rintro (_ | _)
  · exact only_pure _
  · apply only_bind hbody
    intro errors
    show Only KeepsPrograms (if errors = [] then _ else _)
    split
    · exact only_pure _
    · exact only_bind (only_rollback journal) fun _ => only_pure _

theorem only_applyBody (next : InstallationState) :
    Only KeepsPrograms (applyBody manager next) := by
  apply only_ask trivial
  rintro (_ | _)
  · exact only_pure _
  · apply only_ask trivial
    rintro (_ | _)
    · exact only_pure _
    · apply only_ask trivial
      rintro (_ | _)
      · exact only_pure _
      · apply only_ask trivial
        rintro (_ | _)
        · exact only_pure _
        · apply only_ask trivial
          rintro (_ | _)
          · exact only_pure _
          · apply only_ask trivial
            rintro (_ | _ | _)
            · exact only_pure _
            · exact only_pure _
            · exact only_pure _

/-! ### Staging -/

/-- The request stages another program over the one of the prior state. -/
def Overwrites (manager : Manager) (request : Request) (prior : InstallationState)
    (programs : Path → Option (List UInt8)) : Prop :=
  validRequest request = true ∧ validState manager prior = true ∧
    manager.canonical (stagingPath manager request) = manager.canonical prior.activeExecutable ∧
    samePath manager (manager.canonical request.sourceExecutable) (stagingPath manager request) =
      false ∧
    ∃ contents, programs (manager.canonical request.sourceExecutable) = some contents ∧
      contents ≠ [] ∧ contents.length ≤ maximumExecutableBytes ∧
      programs (manager.canonical prior.activeExecutable) ≠ some contents

/-- The program of the prior state is as it was. -/
def Intact (manager : Manager) (prior : InstallationState)
    (programs : Path → Option (List UInt8)) (w : World) : Prop :=
  w.programs (manager.canonical prior.activeExecutable) =
    programs (manager.canonical prior.activeExecutable)

section

variable {request : Request} {prior : InstallationState}
  {programs : Path → Option (List UInt8)}

theorem wp_intact {α β : Type} {work : Work α} {rest : α → Work β} {w : World}
    (hwork : Only KeepsPrograms work) (h : Intact manager prior programs w)
    (hrest : ∀ a w', Intact manager prior programs w' →
      (rest a).wp (step manager migrates) (fun _ => Intact manager prior programs)
        (Intact manager prior programs) w') :
    (work >>= rest).wp (step manager migrates) (fun _ => Intact manager prior programs)
      (Intact manager prior programs) w := by
  have hintact : ∀ w', w'.programs = w.programs → Intact manager prior programs w' := by
    intro w' hprograms
    unfold Intact
    rw [hprograms]
    exact h
  apply wp_bind
  apply wp_mono (wp_programs hwork rfl) hintact
  exact fun a w' hprograms => hrest a w' (hintact w' hprograms)

theorem intact_only {α : Type} {work : Work α} {w : World} (hwork : Only KeepsPrograms work)
    (h : Intact manager prior programs w) :
    work.wp (step manager migrates) (fun _ => Intact manager prior programs)
      (Intact manager prior programs) w := by
  have hintact : ∀ w', w'.programs = w.programs → Intact manager prior programs w' := by
    intro w' hprograms
    unfold Intact
    rw [hprograms]
    exact h
  exact wp_mono (wp_programs hwork rfl) hintact fun _ => hintact

theorem stageContents_spec (hvalid : validRequest request = true)
    (hprior : validState manager prior = true) (hnot : ¬Overwrites manager request prior programs)
    {contents : List UInt8} (hlength : ¬(contents = [] ∨ maximumExecutableBytes < contents.length))
    {w : World} (hprograms : w.programs = programs)
    (hsource : programs (manager.canonical request.sourceExecutable) = some contents) :
    (stageContents manager request.sourceExecutable (stagingPath manager request) contents).wp
      (step manager migrates) (fun _ => Intact manager prior programs)
      (Intact manager prior programs) w := by
  have hstart : Intact manager prior programs w := by
    unfold Intact
    rw [hprograms]
  unfold stageContents
  split_ifs with hsame
  · exact wp_pure hstart hstart
  · have hafter : ∀ ok w', step manager migrates w
        (.replaceExecutable (stagingPath manager request) contents) ok w' →
        Intact manager prior programs w' := by
      rintro ok w' (rfl | ⟨-, rfl⟩)
      · show Function.update w.programs _ (some contents) _ = _
        by_cases hpath : manager.canonical prior.activeExecutable =
            manager.canonical (stagingPath manager request)
        · -- The program is the one that is there.
          have hthere : programs (manager.canonical prior.activeExecutable) = some contents := by
            by_contra hother
            obtain ⟨hne, hsize⟩ := not_or.mp hlength
            exact hnot ⟨hvalid, hprior, hpath.symm, by simpa using hsame, contents, hsource,
              hne, Nat.not_lt.mp hsize, hother⟩
          rw [hpath, Function.update_self, ← hpath, hthere]
        · rw [Function.update_of_ne hpath, hprograms]
      · exact hstart
    exact ⟨hstart, fun ok w' hstep => ⟨hafter ok w' hstep, hafter ok w' hstep⟩⟩

theorem stageExecutable_spec (hvalid : validRequest request = true)
    (hprior : validState manager prior = true) (hnot : ¬Overwrites manager request prior programs)
    {w : World} (hprograms : w.programs = programs) :
    (stageExecutable manager request).wp (step manager migrates)
      (fun _ => Intact manager prior programs) (Intact manager prior programs) w := by
  have hstart : Intact manager prior programs w := by
    unfold Intact
    rw [hprograms]
  apply wp_perform hstart
  rintro source w₁ ⟨hsource, rfl⟩
  cases source with
  | error kind => exact wp_pure hstart hstart
  | ok contents =>
    have hcontents := hsource contents rfl
    rw [hprograms] at hcontents
    show Program.wp _ _ _ (if contents = [] ∨ _ then _ else _) _
    split_ifs with hlength
    · exact wp_pure hstart hstart
    · apply wp_perform hstart
      rintro ok w₂ hensure
      obtain rfl : w₂ = w₁ := hensure
      cases ok with
      | false => exact wp_pure hstart hstart
      | true =>
        apply wp_bind
        apply wp_mono (stageContents_spec hvalid hprior hnot hlength hprograms hcontents)
          fun _ hintact => hintact
        intro ok w₃ h₃
        apply intact_only _ h₃
        cases ok with
        | false => exact only_pure _
        | true =>
          apply only_ask trivial
          rintro (_ | _)
          · exact only_pure _
          · apply only_ask trivial
            rintro (_ | _)
            · exact only_pure _
            · apply only_ask trivial
              rintro (_ | verified)
              · exact only_pure _
              · show Only KeepsPrograms (if manager.sha256 contents ≠ _ then _ else _)
                split
                · exact only_pure _
                · exact only_pure _

/-- `Apply`, when it does not stage another program over the one of the prior state. -/
theorem apply_intact {before : World} (hstate : before.state = some prior)
    (hnot : ¬Overwrites manager request prior before.programs) :
    (apply manager request).wp (step manager migrates)
      (fun _ => Intact manager prior before.programs) (Intact manager prior before.programs)
      before := by
  have hintact : ∀ w : World, w.programs = before.programs → Intact manager prior before.programs w := by
    intro w hprograms
    unfold Intact
    rw [hprograms]
  have hfailed : ∀ errors (w : World), w.programs = before.programs →
      (pure (failed errors) : Work Returned).wp (step manager migrates)
        (fun _ => Intact manager prior before.programs) (Intact manager prior before.programs) w :=
    fun _ w hprograms => wp_pure (hintact w hprograms) (hintact w hprograms)
  apply wp_perform (hintact _ rfl)
  rintro done w₁ hcontext
  obtain rfl : w₁ = before := hcontext
  show Program.wp _ _ _ (if done = true ∨ _ then _ else _) _
  split
  · exact hfailed _ _ rfl
  · next hvalid =>
    push Not at hvalid
    have hrequest : validRequest request = true := by simpa using hvalid.2
    apply wp_bind
    apply wp_mono (readState_spec w₁)
    · rintro w' rfl
      exact hintact _ rfl
    · rintro (error | read) w₂ ⟨rfl, hread⟩
      · exact hfailed _ _ rfl
      · obtain ⟨hfound, hprior⟩ := hread read rfl
        obtain rfl : read = some prior := hfound.symm.trans hstate
        apply wp_bind
        apply wp_mono (wp_programs (only_preflightCapacity (fun _ => trivial) (fun _ => trivial)
          (fun _ => trivial) _) rfl) hintact
        intro errors w₃ h₃
        show Program.wp _ _ _ (if errors ≠ [] then _ else _) _
        split
        · exact hfailed _ _ h₃
        · apply wp_bind
          apply wp_mono (stageExecutable_spec hrequest hprior hnot h₃) fun _ hintact => hintact
          rintro (error | target) w₄ h₄
          · exact wp_pure h₄ h₄
          · apply wp_intact (only_createMigrationSnapshot request.commit trivial (fun _ => trivial)
              trivial (fun _ => trivial) (fun _ => trivial) (fun _ => trivial)
              (fun _ _ _ => trivial) (fun _ _ => trivial) (fun _ => trivial)) h₄
            rintro (_ | backupPath) w₅ h₅
            · exact wp_pure h₅ h₅
            · exact intact_only (only_transaction _ _ (only_applyBody _)) h₅

theorem programs_of_recovers {w w' : World} (h : Recovers manager migrates w w') :
    w'.programs = w.programs := by
  induction h with
  | completed hexec => exact hexec.sound (wp_programs only_recover rfl)
  | @again w w' w'' out hexec hrecovers ih =>
    have hkeeps : Only KeepsPrograms (recover manager) := only_recover
    have hprograms := hexec.sound (wp_programs hkeeps rfl)
    have hsame : w'.programs = w.programs := by
      cases out with
      | none => exact hprograms
      | some errors => exact hprograms
    exact ih.trans hsame

end

/-! ### Staging another program -/

theorem exec_ask {α : Type} (call : Call) {rest : Answer call → Work α} {w w' w'' : World}
    {out : Option α} (r : Answer call) (hstep : step manager migrates w call r w')
    (hrest : Execution manager migrates (rest r) w' out w'') :
    Execution manager migrates (ask call >>= rest) w out w'' :=
  .call hstep hrest

theorem exec_preflightCapacity (path : Path) (w : World) :
    Execution manager migrates (preflightCapacity manager path) w (some []) w := by
  have hbytes : ∀ files, Execution manager migrates (migrationBytes files) w (some (some 0)) w := by
    intro files
    induction files with
    | nil => exact .ret
    | cons file files ih => exact exec_ask (.lstatData file) .absent rfl ih
  have hspace : ∀ path need, Execution manager migrates (hasSpace path need) w (some true) w := by
    intro path need
    apply exec_ask (.availableBytes path) (some need) rfl
    show Execution manager migrates (pure (decide (need ≤ need))) w (some true) w
    rw [decide_eq_true (Nat.le_refl need)]
    exact .ret
  apply exec_ask (.lstatSource path) (some 1) rfl
  show Execution manager migrates (if 1 = 0 ∨ maximumExecutableBytes < 1 then _ else _) w _ w
  rw [if_neg (by decide)]
  exact (hbytes migrationFiles).bind ((hspace _ _).bind ((hspace _ _).bind .ret))

/-- An execution that is cut off after the program was staged. -/
theorem exec_overwrites {before : World} {request : Request} {prior : InstallationState}
    (hstate : before.state = some prior)
    (hoverwrites : Overwrites manager request prior before.programs) :
    ∃ contents w, before.programs (manager.canonical prior.activeExecutable) ≠ some contents ∧
      w.programs (manager.canonical prior.activeExecutable) = some contents ∧ Calm before w ∧
      Execution manager migrates (apply manager request) before none w := by
  obtain ⟨hrequest, hprior, hpath, hsame, contents, hsource, hne, hlength, hother⟩ := hoverwrites
  refine ⟨contents, { before with
    programs := Function.update before.programs (manager.canonical prior.activeExecutable)
      (some contents) }, hother, Function.update_self _ _ _, ⟨rfl, rfl, rfl, rfl, rfl, rfl⟩, ?_⟩
  apply exec_ask .contextErr false rfl
  show Execution manager migrates (if false = true ∨ (!validRequest request) = true then _ else _) _
    _ _
  rw [if_neg (by simp [hrequest])]
  have hread : Execution manager migrates (readState manager) before (some (.ok (some prior)))
      before := by
    apply exec_ask .readState (.found prior) ⟨hstate, rfl⟩
    show Execution manager migrates (if validState manager prior then _ else _) _ _ _
    rw [if_pos hprior]
    exact .ret
  apply hread.bind
  apply (exec_preflightCapacity _ _).bind
  show Execution manager migrates (stageExecutable manager request >>= _) _ _ _
  have hanswer : step manager migrates before (.readSource request.sourceExecutable) (.ok contents)
      before := by
    refine ⟨?_, rfl⟩
    rintro _ ⟨⟩
    exact hsource
  apply exec_ask (.readSource request.sourceExecutable) (.ok contents) hanswer
  show Execution manager migrates
    ((if contents = [] ∨ maximumExecutableBytes < contents.length then _ else _) >>= _) _ _ _
  rw [if_neg (not_or.mpr ⟨hne, Nat.not_lt.mpr hlength⟩)]
  apply exec_ask (.ensureDirectory _) true rfl
  -- The path is the one of the prior program, and the source is another file.
  have hstaged : Execution manager migrates
      (stageContents manager request.sourceExecutable (stagingPath manager request) contents) before
      (some true) { before with
        programs := Function.update before.programs (manager.canonical prior.activeExecutable)
          (some contents) } := by
    unfold stageContents
    rw [if_neg (by simp [hsame]), ← hpath]
    exact .call (.inl rfl) .ret
  exact (hstaged.bind .cut).bind_none

/-! ### The result -/

/-- The prior state is back: an operation that did not remove its journal was cut off and recovered,
or it returned errors and none of its rollback. -/
def Restored (manager : Manager) (migrates : Data → Data → Prop) (before : World)
    (out : Option Returned) (w w' : World) : Prop :=
  w.commit ≠ some true ∧ w'.state = before.state ∧
    (Recovers manager migrates w w' ∨
      ∃ returned, out = some returned ∧ returned.errors ≠ [] ∧ returned.rollback = [] ∧ w' = w)

/-- **The program of the prior state** is intact after every rollback and every recovery, if and only
if the request does not stage another program over it. -/
theorem program_intact {before : World} {request : Request} {prior : InstallationState}
    (hjournal : before.journal = none) (hcommit : before.commit = none)
    (hstate : before.state = some prior) :
    (∀ out w w',
      Execution manager migrates (Operation.run manager (.apply request)) before out w →
      Restored manager migrates before out w w' →
      w'.programs (manager.canonical prior.activeExecutable) =
        before.programs (manager.canonical prior.activeExecutable)) ↔
      ¬Overwrites manager request prior before.programs := by
  constructor
  · intro h hoverwrites
    obtain ⟨contents, w, hother, hcontents, hcalm, hexec⟩ := exec_overwrites hstate hoverwrites
    have hrecover : Execution manager migrates (recover manager) w (some []) w :=
      exec_ask .readJournal .absent ⟨hcalm.journal.trans hjournal, rfl⟩ .ret
    have hopen : w.commit ≠ some true := by
      rw [hcalm.commit, hcommit]
      nofun
    have hsame := h none w w hexec ⟨hopen, hcalm.state, .inl (.completed hrecover)⟩
    exact hother (hsame.symm.trans hcontents)
  · rintro hnot out w w' hexec ⟨-, -, hback⟩
    have hsound := hexec.sound (apply_intact hstate hnot)
    have hintact : Intact manager prior before.programs w := by
      cases out with
      | none => exact hsound
      | some returned => exact hsound
    rcases hback with hrecovers | ⟨returned, -, -, -, rfl⟩
    · rw [programs_of_recovers hrecovers]
      exact hintact
    · exact hintact

/-- A request for another version does not touch the program of version 0.1.0. -/
theorem program_intact_upgrade :
    ¬Overwrites sampleManager { sampleRequest with version := ascii "0.2.0" } sampleState
      sampleWorld.programs ∧
    ∀ out w w',
      Execution sampleManager Eq
        (Operation.run sampleManager (.apply { sampleRequest with version := ascii "0.2.0" }))
        sampleWorld out w →
      Restored sampleManager Eq sampleWorld out w w' →
      w'.programs (sampleManager.canonical sampleState.activeExecutable) =
        sampleWorld.programs (sampleManager.canonical sampleState.activeExecutable) := by
  have hother : ¬Overwrites sampleManager { sampleRequest with version := ascii "0.2.0" } sampleState
      sampleWorld.programs := by
    rintro ⟨-, -, hpath, -⟩
    exact absurd hpath (by decide +kernel)
  exact ⟨hother, (program_intact rfl rfl rfl).mpr hother⟩

/-- Another program with the version and the commit of the one that is installed: the migration
fails, everything is rolled back without an error, and the program is the other one. -/
theorem apply_overwrites :
    ∃ (before w : World) (returned : Returned), Matches sampleManager before ∧
      before.journal = none ∧ before.commit = none ∧
      Execution sampleManager Eq (Operation.run sampleManager (.apply sampleRequest)) before
        (some returned) w ∧
      returned.errors ≠ [] ∧ returned.rollback = [] ∧ w.state = before.state ∧
      ∃ prior, w.state = some prior ∧ before.programs prior.activeExecutable = some [1] ∧
        w.programs prior.activeExecutable = some [2] := by
  let faults : Call → Bool := fun call => call = .migrate
  refine ⟨sampleWorld, _, _, by rfl, rfl, rfl, execution_respond faults _ _, ?_, ?_, ?_, sampleState,
    ?_, ?_, ?_⟩
  · decide +kernel
  · decide +kernel
  · decide +kernel
  · decide +kernel
  · decide +kernel
  · decide +kernel

end RlcdDeck.Installation
