import RlcdDeck.Installation.Equiv.Snapshot

/-!
# The rollback

`Restores` says that a journal knows the way back: it is enough for a rollback that reports no error
to end as everything was (`rollback_spec`), and every call of the rollback keeps it, so that a
rollback that was interrupted can start again.
-/

namespace RlcdDeck.Installation

open Effects
open Effects.Program (wp_pure wp_bind wp_mono wp_perform)

variable {manager : Manager} {migrates : Data → Data → Prop}

/-- The journal knows how everything was before. -/
structure Restores (before : World) (journal : TransactionJournal) (w : World) : Prop where
  prior : before.state = if journal.hadPrior then some journal.prior else none
  /-- The snapshot holds the data, or they were not touched. -/
  data :
    if journal.restoreData then Saved before.data w journal.backupPath else w.data = before.data
  /-- A registration that will not be configured again is only enabled or disabled. -/
  spec : journal.reconfigure = false →
    journal.hadPrior ∧ w.registration.map (·.spec) = before.registration.map (·.spec)

/-- In a rollback, with what the file of the journal holds and how its removal was reported. -/
structure Rolling (before : World) (journal : TransactionJournal) (file : Option TransactionJournal)
    (commit : Option Bool) (w : World) : Prop where
  restores : Restores before journal w
  journal : w.journal = file
  commit : w.commit = commit

/-- Everything is as before, and there is no journal. -/
structure RolledBack (before : World) (commit : Option Bool) (w : World) : Prop where
  unchanged : Unchanged before w
  journal : w.journal = none
  commit : w.commit = commit

section

variable {before : World} {journal : TransactionJournal} {file : Option TransactionJournal}
  {commit : Option Bool}

theorem Rolling.withState {w : World} (h : Rolling before journal file commit w)
    (state : Option InstallationState) :
    Rolling before journal file commit { w with state := state } :=
  ⟨⟨h.restores.prior, h.restores.data, h.restores.spec⟩, h.journal, h.commit⟩

theorem Rolling.withRegistration {w : World} (h : Rolling before journal file commit w)
    (registration : Option Registration)
    (hspec : journal.reconfigure = false →
      registration.map (·.spec) = w.registration.map (·.spec)) :
    Rolling before journal file commit { w with registration := registration } := by
  refine ⟨⟨h.restores.prior, h.restores.data, ?_⟩, h.journal, h.commit⟩
  intro hreconfigure
  obtain ⟨hprior, hsame⟩ := h.restores.spec hreconfigure
  exact ⟨hprior, (hspec hreconfigure).trans hsame⟩

theorem Rolling.withData {w : World} (h : Rolling before journal file commit w)
    (hrestore : journal.restoreData = true) (data : Data) :
    Rolling before journal file commit { w with data := data } := by
  refine ⟨⟨h.restores.prior, ?_, h.restores.spec⟩, h.journal, h.commit⟩
  have hdata := h.restores.data
  rw [if_pos hrestore] at hdata ⊢
  exact hdata.of_backups rfl

/-! ### The parts of a rollback -/

theorem restoreData_spec {w : World} (h : Rolling before journal file commit w) :
    (restoreData manager journal).wp (step manager migrates)
      (fun errors w' => Rolling before journal file commit w' ∧
        (errors = [] → w'.data = before.data))
      (Rolling before journal file commit) w := by
  have hdata := h.restores.data
  show Program.wp _ _ _ (if !journal.restoreData then _ else _) _
  split_ifs with hrestore
  · rw [Bool.not_eq_true'] at hrestore
    rw [hrestore] at hdata
    exact wp_pure h ⟨h, fun _ => hdata⟩
  · rw [Bool.not_eq_true', Bool.not_eq_false] at hrestore
    rw [if_pos hrestore] at hdata
    have honly : ∀ w', DataOnly w w' → Rolling before journal file commit w' := by
      rintro w' ⟨data, rfl⟩
      exact h.withData hrestore data
    apply wp_bind
    apply wp_mono (restoreMigrationSnapshot_spec hdata) honly
    rintro errors w' ⟨hw', hdone⟩
    apply wp_pure (honly w' hw')
    refine ⟨honly w' hw', ?_⟩
    intro herrors
    split_ifs at herrors with hnone
    exact hdone hnone

theorem registration_of_spec {state : InstallationState} {registration : Option Registration}
    (h : registration.map (·.spec) = some (launchSpec manager state)) :
    (registration.map fun r => { r with enabled := state.enabled }) =
      some ⟨launchSpec manager state, state.enabled⟩ := by
  obtain ⟨r, rfl, hspec⟩ := Option.map_eq_some_iff.mp h
  rw [Option.map_some, ← hspec]

theorem restorePrior_spec (hmatches : Matches manager before) (hprior : journal.hadPrior = true)
    {w : World} (h : Rolling before journal file commit w) :
    (restorePrior manager journal).wp (step manager migrates)
      (fun errors w' => Rolling before journal file commit w' ∧ w'.data = w.data ∧
        (errors = [] → w'.state = before.state ∧ w'.registration = before.registration))
      (Rolling before journal file commit) w := by
  have hstate : before.state = some journal.prior := by
    rw [h.restores.prior, if_pos hprior]
  have hregistration : before.registration =
      some ⟨launchSpec manager journal.prior, journal.prior.enabled⟩ := by
    rw [hmatches, hstate, Option.map_some]
  have herror : ∀ (error : Error) w', Rolling before journal file commit w' → w'.data = w.data →
      (pure [error] : Work (List Error)).wp (step manager migrates)
        (fun errors w' => Rolling before journal file commit w' ∧ w'.data = w.data ∧
          (errors = [] → w'.state = before.state ∧ w'.registration = before.registration))
        (Rolling before journal file commit) w' :=
    fun _ _ hrolling hdata => wp_pure hrolling ⟨hrolling, hdata, fun herrors => nomatch herrors⟩
  -- From the call that enables or disables on: the specification is the right one.
  have hrest : ∀ w₁, Rolling before journal file commit w₁ → w₁.data = w.data →
      w₁.registration.map (·.spec) = some (launchSpec manager journal.prior) →
      (do
        if !(← ask (.setEnabled journal.prior.enabled)) then return [⟨.platform, ""⟩]
        else if !(← ask (.replaceState journal.prior)) then return [writeError]
        else return [] : Work (List Error)).wp (step manager migrates)
        (fun errors w' => Rolling before journal file commit w' ∧ w'.data = w.data ∧
          (errors = [] → w'.state = before.state ∧ w'.registration = before.registration))
        (Rolling before journal file commit) w₁ := by
    intro w₁ hrolling hdata hspec
    apply wp_perform hrolling
    rintro ok w₂ ⟨left, hleft, rfl⟩
    have hrolling₂ := hrolling.withRegistration
      (w₁.registration.map fun r => { r with enabled := left })
      fun _ => by rw [Option.map_map]; rfl
    cases ok with
    | false => exact herror _ _ hrolling₂ hdata
    | true =>
      obtain rfl := hleft rfl
      apply wp_perform hrolling₂
      rintro ok w₃ hreplaced
      rcases hreplaced with rfl | ⟨hfailed, rfl⟩
      · have hrolling₃ := hrolling₂.withState (some journal.prior)
        cases ok with
        | false => exact herror _ _ hrolling₃ hdata
        | true =>
          apply wp_pure hrolling₃
          refine ⟨hrolling₃, hdata, fun _ => ⟨hstate.symm, ?_⟩⟩
          rw [hregistration]
          exact registration_of_spec hspec
      · subst hfailed
        exact herror _ _ hrolling₂ hdata
  unfold restorePrior
  by_cases hreconfigure : journal.reconfigure = true
  · rw [if_pos hreconfigure]
    apply wp_perform h
    rintro ok w₁ ⟨registration, hconfigured, rfl⟩
    have hrolling := h.withRegistration registration
      fun hno => absurd (hreconfigure.symm.trans hno) (by decide)
    cases ok with
    | false => exact herror _ _ hrolling rfl
    | true =>
      obtain ⟨enabled, rfl⟩ := hconfigured rfl
      exact hrest _ hrolling rfl rfl
  · rw [if_neg hreconfigure]
    have hspec := (h.restores.spec (by simpa using hreconfigure)).2
    rw [hregistration] at hspec
    exact hrest _ h rfl hspec

theorem left_of_removeRegistration {w w' : World} {ok : Bool}
    (h : step manager migrates w .removeRegistration ok w') :
    ∃ registration, (ok = true → registration = none) ∧
      w' = { w with registration := registration } := by
  rcases h with rfl | ⟨hfailed, rfl⟩
  · exact ⟨none, fun _ => rfl, rfl⟩
  · exact ⟨w'.registration, fun hok => absurd hok (by rw [hfailed]; decide), rfl⟩

theorem restoreNothing_spec (hmatches : Matches manager before) (hprior : journal.hadPrior = false)
    {w : World} (h : Rolling before journal file commit w) :
    restoreNothing.wp (step manager migrates)
      (fun errors w' => Rolling before journal file commit w' ∧ w'.data = w.data ∧
        (errors = [] → w'.state = before.state ∧ w'.registration = before.registration))
      (Rolling before journal file commit) w := by
  have hstate : before.state = none := by
    rw [h.restores.prior, hprior]
    rfl
  have hregistration : before.registration = none := by
    rw [hmatches, hstate, Option.map_none]
  have hreconfigure : journal.reconfigure ≠ false := by
    intro hno
    exact absurd (h.restores.spec hno).1 (by rw [hprior]; decide)
  apply wp_perform h
  rintro ok w₁ hstep
  obtain ⟨registration, hremoved, rfl⟩ := left_of_removeRegistration hstep
  have hrolling := h.withRegistration registration
    fun hno => absurd hno hreconfigure
  apply wp_perform hrolling
  rintro removal w₂ hstep
  cases removal with
  | removed =>
    obtain rfl : w₂ = { w with registration := registration, state := none } := hstep
    have hrolling₂ := hrolling.withState none
    apply wp_pure hrolling₂
    refine ⟨hrolling₂, rfl, fun herrors => ⟨hstate.symm, ?_⟩⟩
    cases ok with
    | false => cases herrors
    | true => exact (hremoved rfl).trans hregistration.symm
  | absent =>
    obtain ⟨habsent, rfl⟩ := hstep
    apply wp_pure hrolling
    refine ⟨hrolling, rfl, fun herrors => ⟨?_, ?_⟩⟩
    · rw [hstate]
      exact Option.isNone_iff_eq_none.mp (Option.isSome_eq_false_iff.mp habsent)
    · cases ok with
      | false => cases herrors
      | true => exact (hremoved rfl).trans hregistration.symm
  | failed =>
    rcases hstep with rfl | rfl
    · have hrolling₂ := hrolling.withState none
      apply wp_pure hrolling₂
      refine ⟨hrolling₂, rfl, fun herrors => absurd herrors ?_⟩
      cases ok <;> decide
    · apply wp_pure hrolling
      refine ⟨hrolling, rfl, fun herrors => absurd herrors ?_⟩
      cases ok <;> decide

theorem restoreStartup_spec (hmatches : Matches manager before) {w : World}
    (h : Rolling before journal file commit w) :
    (restoreStartup manager journal).wp (step manager migrates)
      (fun errors w' => Rolling before journal file commit w' ∧ w'.data = w.data ∧
        (errors = [] → w'.state = before.state ∧ w'.registration = before.registration))
      (Rolling before journal file commit) w := by
  unfold restoreStartup
  split_ifs with hprior
  · exact restorePrior_spec hmatches hprior h
  · exact restoreNothing_spec hmatches (by simpa using hprior) h

/-! ### The whole rollback -/

/-- **The rollback**: wherever it is cut off the journal still knows the way back, or everything is
as before; without an error, everything is. -/
theorem rollback_spec (hmatches : Matches manager before) {w : World}
    (h : Rolling before journal file commit w) :
    (rollback manager journal).wp (step manager migrates)
      (fun errors w' =>
        (Rolling before journal file commit w' ∨ RolledBack before commit w') ∧
          (errors = [] → RolledBack before commit w'))
      (fun w' => Rolling before journal file commit w' ∨ RolledBack before commit w') w := by
  apply wp_bind
  apply wp_mono (restoreData_spec h) fun _ => .inl
  rintro dataErrors w₁ ⟨hrolling₁, hdata⟩
  apply wp_bind
  apply wp_mono (restoreStartup_spec hmatches hrolling₁) fun _ => .inl
  rintro errors w₂ ⟨hrolling₂, hsame, hrestored⟩
  show Program.wp _ _ _ (if dataErrors ++ errors = [] then _ else _) _
  split_ifs with hnone
  · obtain ⟨hdataErrors, herrors⟩ := List.append_eq_nil_iff.mp hnone
    obtain ⟨hstate, hregistration⟩ := hrestored herrors
    have hunchanged : Unchanged before w₂ := ⟨hstate, hregistration, hsame.trans (hdata hdataErrors)⟩
    have hdone : RolledBack before commit { w₂ with journal := none } :=
      ⟨⟨hunchanged.state, hunchanged.registration, hunchanged.data⟩, rfl, hrolling₂.commit⟩
    apply wp_perform (.inl hrolling₂)
    rintro removal w₃ hremoved
    cases removal with
    | removed =>
      obtain rfl : w₃ = { w₂ with journal := none } := hremoved
      exact wp_pure (.inr hdone) ⟨.inr hdone, fun _ => hdone⟩
    | absent =>
      obtain ⟨habsent, rfl⟩ := hremoved
      have hjournal := Option.isNone_iff_eq_none.mp (Option.isSome_eq_false_iff.mp habsent)
      have hdone : RolledBack before commit w₃ := ⟨hunchanged, hjournal, hrolling₂.commit⟩
      exact wp_pure (.inr hdone) ⟨.inr hdone, fun _ => hdone⟩
    | failed =>
      rcases hremoved with rfl | rfl
      · exact wp_pure (.inr hdone) ⟨.inr hdone, fun herrors => nomatch herrors⟩
      · exact wp_pure (.inl hrolling₂) ⟨.inl hrolling₂, fun herrors => nomatch herrors⟩
  · exact wp_pure (.inl hrolling₂) ⟨.inl hrolling₂, fun herrors => absurd herrors hnone⟩

end

end RlcdDeck.Installation
