import RlcdDeck.Installation.Equiv.Rollback

/-!
# What an operation leaves

From a registration that matches the state and no journal, an operation that is cut off or that
returns has done nothing, or left a journal that knows the way back, or is completed; or the removal
of its journal was reported as failed although it took effect (`operation_spec`).
-/

namespace RlcdDeck.Installation

open Effects
open Effects.Program (Only wp_pure wp_bind wp_mono wp_perform wp_and)

variable {manager : Manager} {migrates : Data → Data → Prop}

/-! ### Bodies -/

/-- The body of an operation has not removed the journal, or was told that it had not. -/
def Undone (before : World) (journal : TransactionJournal) (w : World) : Prop :=
  Rolling before journal (some journal) none w ∨ Rolling before journal none (some false) w

/-- The operation is completed, and its journal removed. -/
structure Committed (manager : Manager) (migrates : Data → Data → Prop) (before : World)
    (operation : Operation) (w : World) : Prop where
  completed : Completed manager migrates before operation w
  journal : w.journal = none
  commit : w.commit = some true

/-- How a body ends. -/
def BodyEnd (manager : Manager) (migrates : Data → Data → Prop) (before : World)
    (operation : Operation) (journal : TransactionJournal) (errors : List Error) (w : World) : Prop :=
  (errors = [] ∧ Committed manager migrates before operation w) ∨
    (errors ≠ [] ∧ Undone before journal w)

/-- What holds wherever a body is cut off. -/
def BodyCut (manager : Manager) (migrates : Data → Data → Prop) (before : World)
    (operation : Operation) (journal : TransactionJournal) (w : World) : Prop :=
  Committed manager migrates before operation w ∨ Undone before journal w

section

variable {before : World} {operation : Operation} {journal : TransactionJournal}

theorem body_error (error : Error) {w : World} (h : Undone before journal w) :
    (pure [error] : Work (List Error)).wp (step manager migrates)
      (BodyEnd manager migrates before operation journal)
      (BodyCut manager migrates before operation journal) w :=
  wp_pure (.inr h) (.inr ⟨nofun, h⟩)

theorem commitJournal_spec (text : String) {w : World}
    (h : Rolling before journal (some journal) none w)
    (hcompleted : Completed manager migrates before operation w) :
    (commitJournal text).wp (step manager migrates)
      (BodyEnd manager migrates before operation journal)
      (BodyCut manager migrates before operation journal) w := by
  apply wp_perform (.inr (.inl h))
  rintro removal w' hremoved
  cases removal with
  | removed =>
    obtain rfl : w' = { w with journal := none, commit := some true } := hremoved
    have hcommitted : Committed manager migrates before operation
        { w with journal := none, commit := some true } :=
      ⟨⟨hcompleted.state, hcompleted.registration, hcompleted.data⟩, rfl, rfl⟩
    exact wp_pure (.inl hcommitted) (.inl ⟨rfl, hcommitted⟩)
  | absent =>
    -- The journal is there.
    obtain ⟨habsent, -⟩ := hremoved
    rw [h.journal] at habsent
    cases habsent
  | failed =>
    rcases hremoved with rfl | rfl
    · have hrolling : Rolling before journal none (some false)
          { w with journal := none, commit := some false } :=
        ⟨⟨h.restores.prior, h.restores.data, h.restores.spec⟩, rfl, rfl⟩
      exact body_error _ (.inr hrolling)
    · exact body_error _ (.inl h)

end

variable {w : World}

theorem applyBody_spec {before : World} {request : Request} {backupPath : Path}
    (hdata : w.data = before.data)
    (h : Rolling before
      (applyJournal before.state (nextState manager request before.state) backupPath)
      (some (applyJournal before.state (nextState manager request before.state) backupPath)) none w) :
    (applyBody manager (nextState manager request before.state)).wp (step manager migrates)
      (BodyEnd manager migrates before (.apply request)
        (applyJournal before.state (nextState manager request before.state) backupPath))
      (BodyCut manager migrates before (.apply request)
        (applyJournal before.state (nextState manager request before.state) backupPath)) w := by
  set next := nextState manager request before.state with hnext
  set journal := applyJournal before.state next backupPath with hjournal
  have hreconfigure : journal.reconfigure ≠ false := by
    show true ≠ false
    decide
  apply wp_perform (.inr (.inl h))
  rintro ok w₁ ⟨data, hmigrated, rfl⟩
  have h₁ := h.withData rfl data
  cases ok with
  | false => exact body_error _ (.inl h₁)
  | true =>
    apply wp_perform (.inr (.inl h₁))
    rintro ok w₂ ⟨registration, hconfigured, rfl⟩
    have h₂ := h₁.withRegistration registration fun hno => absurd hno hreconfigure
    cases ok with
    | false => exact body_error _ (.inl h₂)
    | true =>
      apply wp_perform (.inr (.inl h₂))
      rintro ok w₃ hreplaced
      cases ok with
      | false =>
        rcases hreplaced with rfl | ⟨-, rfl⟩
        · exact body_error _ (.inl (h₂.withState (some next)))
        · exact body_error _ (.inl h₂)
      | true =>
        rcases hreplaced with rfl | ⟨hfailed, -⟩
        · have h₃ := h₂.withState (some next)
          apply wp_perform (.inr (.inl h₃))
          rintro ok w₄ ⟨left, hleft, rfl⟩
          have h₄ := h₃.withRegistration
            (registration.map fun r => { r with enabled := left })
            fun hno => absurd hno hreconfigure
          cases ok with
          | false => exact body_error _ (.inl h₄)
          | true =>
            obtain rfl := hleft rfl
            apply wp_perform (.inr (.inl h₄))
            rintro ok w₅ hreplaced
            have h₅ := h₄.withState (some { next with enabled := true })
            cases ok with
            | false =>
              rcases hreplaced with rfl | ⟨-, rfl⟩
              · exact body_error _ (.inl h₅)
              · exact body_error _ (.inl h₄)
            | true =>
              rcases hreplaced with rfl | ⟨hfailed, -⟩
              · apply commitJournal_spec _ h₅
                obtain ⟨enabled, rfl⟩ := hconfigured rfl
                refine ⟨rfl, rfl, ?_⟩
                show migrates before.data data
                rw [← hdata]
                exact hmigrated rfl
              · cases hfailed
        · cases hfailed

/-- The journal of `SetEnabled`. -/
def setEnabledJournal (state next : InstallationState) : TransactionJournal where
  schemaVersion := stateSchemaVersion
  hadPrior := true
  prior := state
  next := next

theorem setEnabledBody_spec {before : World} {state : InstallationState} {enabled : Bool}
    (hmatches : Matches manager before) (hunchanged : Unchanged before w)
    (hstate : before.state = some state)
    (h : Rolling before (setEnabledJournal state { state with enabled := enabled })
      (some (setEnabledJournal state { state with enabled := enabled })) none w) :
    (setEnabledBody { state with enabled := enabled }).wp (step manager migrates)
      (BodyEnd manager migrates before (.setEnabled enabled)
        (setEnabledJournal state { state with enabled := enabled }))
      (BodyCut manager migrates before (.setEnabled enabled)
        (setEnabledJournal state { state with enabled := enabled })) w := by
  have hregistration : w.registration = some ⟨launchSpec manager state, state.enabled⟩ := by
    rw [hunchanged.registration, hmatches, hstate, Option.map_some]
  apply wp_perform (.inr (.inl h))
  rintro ok w₁ ⟨left, hleft, rfl⟩
  have h₁ := h.withRegistration
    (w.registration.map fun r => { r with enabled := left })
    fun _ => by rw [Option.map_map]; rfl
  cases ok with
  | false => exact body_error _ (.inl h₁)
  | true =>
    apply wp_perform (.inr (.inl h₁))
    rintro ok w₂ hreplaced
    have h₂ := h₁.withState (some { state with enabled := enabled })
    cases ok with
    | false =>
      rcases hreplaced with rfl | ⟨-, rfl⟩
      · exact body_error _ (.inl h₂)
      · exact body_error _ (.inl h₁)
    | true =>
      rcases hreplaced with rfl | ⟨hfailed, -⟩
      · apply commitJournal_spec _ h₂
        obtain rfl : left = enabled := hleft rfl
        refine ⟨?_, ?_, hunchanged.data⟩
        · show some _ = before.state.map _
          rw [hstate, Option.map_some]
        · show w.registration.map _ = some _
          rw [hregistration, Option.map_some]
          rfl
      · cases hfailed

/-- The journal of `Uninstall`. -/
def uninstallJournal (state : InstallationState) : TransactionJournal where
  schemaVersion := stateSchemaVersion
  reconfigure := true
  hadPrior := true
  prior := state
  next := state

theorem uninstallBody_spec {before : World} {state : InstallationState}
    (hdata : w.data = before.data)
    (h : Rolling before (uninstallJournal state) (some (uninstallJournal state)) none w) :
    uninstallBody.wp (step manager migrates)
      (BodyEnd manager migrates before .uninstall (uninstallJournal state))
      (BodyCut manager migrates before .uninstall (uninstallJournal state)) w := by
  apply wp_perform (.inr (.inl h))
  rintro ok w₁ hstep
  obtain ⟨registration, hremoved, rfl⟩ := left_of_removeRegistration hstep
  have h₁ := h.withRegistration registration fun hno => nomatch hno
  cases ok with
  | false => exact body_error _ (.inl h₁)
  | true =>
    obtain rfl := hremoved rfl
    have h₂ := h₁.withState none
    apply wp_perform (.inr (.inl h₁))
    rintro removal w₂ hstep
    cases removal with
    | removed =>
      obtain rfl : w₂ = { w with registration := none, state := none } := hstep
      exact commitJournal_spec _ h₂ ⟨rfl, rfl, hdata⟩
    | absent =>
      obtain ⟨habsent, rfl⟩ := hstep
      have hnone : w.state = none :=
        Option.isNone_iff_eq_none.mp (Option.isSome_eq_false_iff.mp habsent)
      refine commitJournal_spec _ h₁ ⟨hnone, ?_, hdata⟩
      show none = w.state.map _
      rw [hnone, Option.map_none]
    | failed =>
      rcases hstep with rfl | rfl
      · exact body_error _ (.inl h₂)
      · exact body_error _ (.inl h₁)

/-! ### Transactions -/

/-- What an operation leaves, wherever it is cut off. -/
inductive Left (manager : Manager) (migrates : Data → Data → Prop) (before : World)
    (operation : Operation) (w : World) : Prop where
  /-- Nothing was done, or everything undone. -/
  | rolledBack : RolledBack before none w → Left manager migrates before operation w
  | pending (journal : TransactionJournal) : Rolling before journal (some journal) none w →
    Left manager migrates before operation w
  | committed : Committed manager migrates before operation w →
    Left manager migrates before operation w

/-- What holds wherever an operation is cut off: otherwise the removal of the journal was reported as
failed although it took effect. -/
def Stops (manager : Manager) (migrates : Data → Data → Prop) (before : World)
    (operation : Operation) (w : World) : Prop :=
  Left manager migrates before operation w ∨ w.commit = some false

/-- What an operation leaves when it returns. -/
structure Returns (manager : Manager) (migrates : Data → Data → Prop) (before : World)
    (operation : Operation) (returned : Returned) (w : World) : Prop where
  stops : Stops manager migrates before operation w
  lost : w.commit = some false → returned.rollback = [] → RolledBack before (some false) w
  /-- An operation that reports an error, and none of its rollback, leaves everything as it was. -/
  undone : returned.errors ≠ [] → returned.rollback = [] → Unchanged before w

section

variable {before : World} {operation : Operation}

theorem Undone.stops {journal : TransactionJournal} (h : Undone before journal w) :
    Stops manager migrates before operation w := by
  rcases h with h | h
  · exact .inl (.pending journal h)
  · exact .inr h.commit

theorem returns_of_rolledBack {returned : Returned} (h : RolledBack before none w) :
    Returns manager migrates before operation returned w where
  stops := .inl (.rolledBack h)
  lost hlost := absurd (h.commit.symm.trans hlost) nofun
  undone _ _ := h.unchanged

theorem returns_of_committed {status : Status} (h : Committed manager migrates before operation w) :
    Returns manager migrates before operation { status := status } w where
  stops := .inl (.committed h)
  lost hlost := absurd (h.commit.symm.trans hlost) (by decide)
  undone herrors := absurd rfl herrors

theorem rollback_returns (hmatches : Matches manager before) {journal : TransactionJournal}
    {errors : List Error} {w : World} (h : Undone before journal w) :
    (do
      let rolledBack ← rollback manager journal
      return { errors := errors, rollback := rolledBack } : Work Returned).wp
      (step manager migrates)
      (Returns manager migrates before operation) (Stops manager migrates before operation) w := by
  apply wp_bind
  rcases h with h | h
  · have hleft : ∀ w', Rolling before journal (some journal) none w' ∨ RolledBack before none w' →
        Left manager migrates before operation w' := by
      rintro w' (h' | h')
      · exact .pending journal h'
      · exact .rolledBack h'
    apply wp_mono (rollback_spec hmatches h) fun w' hw' => .inl (hleft w' hw')
    rintro rolledBack w' ⟨hw', hdone⟩
    apply wp_pure (.inl (hleft w' hw'))
    refine ⟨.inl (hleft w' hw'), ?_, fun _ hnone => (hdone hnone).unchanged⟩
    intro hlost hnone
    exact absurd ((hdone hnone).commit.symm.trans hlost) nofun
  · have hcommit : ∀ w',
        Rolling before journal none (some false) w' ∨ RolledBack before (some false) w' →
        w'.commit = some false := by
      rintro w' (h' | h')
      · exact h'.commit
      · exact h'.commit
    apply wp_mono (rollback_spec hmatches h) fun w' hw' => .inr (hcommit w' hw')
    rintro rolledBack w' ⟨hw', hdone⟩
    apply wp_pure (.inr (hcommit w' hw'))
    exact ⟨.inr (hcommit w' hw'), fun _ hnone => hdone hnone,
      fun _ hnone => (hdone hnone).unchanged⟩

theorem failed_returns {errors : List Error} (h : RolledBack before none w) :
    (pure (failed errors) : Work Returned).wp (step manager migrates)
      (Returns manager migrates before operation) (Stops manager migrates before operation) w :=
  wp_pure (.inl (.rolledBack h)) (returns_of_rolledBack h)

/-- **A transaction**, from a world in which nothing was done but the snapshot. -/
theorem transaction_spec (hmatches : Matches manager before) {journal : TransactionJournal}
    {status : Status} {body : Work (List Error)} {w : World} (h : RolledBack before none w)
    (hrestores : Restores before journal w)
    (hbody : ∀ w', Unchanged before w' → Rolling before journal (some journal) none w' →
      body.wp (step manager migrates) (BodyEnd manager migrates before operation journal)
        (BodyCut manager migrates before operation journal) w') :
    (transaction manager journal status body).wp (step manager migrates)
      (Returns manager migrates before operation) (Stops manager migrates before operation) w := by
  apply wp_perform (.inl (.rolledBack h))
  rintro ok w₁ hreplaced
  rcases hreplaced with rfl | ⟨hfailed, rfl⟩
  · -- The journal is visible; when this is not known, the operation stops here.
    have hrolling : Rolling before journal (some journal) none
        { w with journal := some journal, stray := w.stray || !ok } :=
      ⟨⟨hrestores.prior, hrestores.data, hrestores.spec⟩, rfl, h.commit⟩
    have hunchanged : Unchanged before
        { w with journal := some journal, stray := w.stray || !ok } :=
      ⟨h.unchanged.state, h.unchanged.registration, h.unchanged.data⟩
    cases ok with
    | false =>
      apply wp_pure (.inl (.pending journal hrolling))
      refine ⟨.inl (.pending journal hrolling), ?_, fun _ _ => hunchanged⟩
      intro hlost
      exact absurd (hrolling.commit.symm.trans hlost) nofun
    | true =>
      apply wp_bind
      apply wp_mono (hbody _ hunchanged hrolling)
      · rintro w' (hcommitted | hundone)
        · exact .inl (.committed hcommitted)
        · exact hundone.stops
      · rintro errors w' (⟨herrors, hcommitted⟩ | ⟨herrors, hundone⟩)
        · show Program.wp _ _ _ (if errors = [] then _ else _) _
          rw [if_pos herrors]
          exact wp_pure (.inl (.committed hcommitted)) (returns_of_committed hcommitted)
        · show Program.wp _ _ _ (if errors = [] then _ else _) _
          rw [if_neg herrors]
          exact rollback_returns hmatches hundone
  · subst hfailed
    exact failed_returns h

end

/-! ### Operations -/

theorem RolledBack.calm {before w' : World} {commit : Option Bool} (h : RolledBack before commit w)
    (hcalm : Calm w w') : RolledBack before commit w' where
  unchanged := ⟨hcalm.state.trans h.unchanged.state,
    hcalm.registration.trans h.unchanged.registration, hcalm.data.trans h.unchanged.data⟩
  journal := hcalm.journal.trans h.journal
  commit := hcalm.commit.trans h.commit

theorem wp_quiet {α : Type} {before : World} {operation : Operation} {work : Work α}
    {rest : α → Work Returned} (hwork : Only Quiet work) (h : RolledBack before none w)
    (hrest : ∀ a w', RolledBack before none w' → Calm w w' →
      (rest a).wp (step manager migrates) (Returns manager migrates before operation)
        (Stops manager migrates before operation) w') :
    (work >>= rest).wp (step manager migrates) (Returns manager migrates before operation)
      (Stops manager migrates before operation) w := by
  apply wp_bind
  apply wp_mono (wp_calm hwork w)
  · exact fun w' hcalm => .inl (.rolledBack (h.calm hcalm))
  · exact fun a w' hcalm => hrest a w' (h.calm hcalm) hcalm

theorem wp_readState {before : World} {operation : Operation}
    {rest : Except Error (Option InstallationState) → Work Returned} (h : RolledBack before none w)
    (hrest : ∀ result, (∀ state, result = .ok state → before.state = state) →
      (rest result).wp (step manager migrates) (Returns manager migrates before operation)
        (Stops manager migrates before operation) w) :
    (readState manager >>= rest).wp (step manager migrates)
      (Returns manager migrates before operation) (Stops manager migrates before operation) w := by
  apply wp_bind
  apply wp_mono (readState_spec w)
  · rintro w' rfl
    exact .inl (.rolledBack h)
  · rintro result w' ⟨rfl, hstate⟩
    exact hrest result fun state hok => h.unchanged.state.symm.trans (hstate state hok).1

theorem apply_spec {before : World} (hmatches : Matches manager before) (request : Request)
    (h : RolledBack before none w) :
    (apply manager request).wp (step manager migrates)
      (Returns manager migrates before (.apply request))
      (Stops manager migrates before (.apply request)) w := by
  have hcontext : Only Quiet (ask .contextErr) := Program.only_perform trivial
  apply wp_quiet hcontext h
  intro done w₁ h₁ _
  show Program.wp _ _ _ (if done = true ∨ _ then _ else _) _
  split
  · exact failed_returns h₁
  · apply wp_readState h₁
    rintro (error | prior) hprior
    · exact failed_returns h₁
    · obtain rfl := hprior prior rfl
      apply wp_quiet (only_preflightCapacity (fun _ => trivial) (fun _ => trivial)
        (fun _ => trivial) _) h₁
      intro errors w₂ h₂ _
      show Program.wp _ _ _ (if errors ≠ [] then _ else _) _
      split
      · exact failed_returns h₂
      · apply wp_quiet (only_stageExecutable request (fun _ => trivial) (fun _ => trivial)
          (fun _ => trivial) (fun _ => trivial) (fun _ => trivial) (fun _ => trivial)) h₂
        rintro (error | target) w₃ h₃ -
        · exact failed_returns h₃
        · have hquiet : Only Quiet (createMigrationSnapshot manager request.commit) :=
            only_createMigrationSnapshot request.commit trivial (fun _ => trivial) trivial
              (fun _ => trivial) (fun _ => trivial) (fun _ => trivial) (fun _ _ _ => trivial)
              (fun _ _ => trivial) (fun _ => trivial)
          apply wp_bind
          apply wp_mono (wp_and (wp_calm hquiet w₃) (createMigrationSnapshot_spec _ w₃))
          · exact fun w' hw' => .inl (.rolledBack (h₃.calm hw'.1))
          · rintro (_ | backupPath) w₄ ⟨hcalm, hsaved⟩
            · exact failed_returns (h₃.calm hcalm)
            · have hdata : Saved before.data w₄ backupPath := by
                rw [← h₃.unchanged.data]
                exact hsaved backupPath rfl
              have hrestores : Restores before
                  (applyJournal before.state (nextState manager request before.state) backupPath)
                  w₄ := by
                refine ⟨?_, hdata, fun hno => nomatch hno⟩
                show before.state = if before.state.isSome then some (before.state.getD {}) else none
                cases before.state <;> rfl
              exact transaction_spec hmatches (h₃.calm hcalm) hrestores fun w' hunchanged hrolling =>
                applyBody_spec hunchanged.data hrolling

theorem setEnabled_spec {before : World} (hmatches : Matches manager before) (enabled : Bool)
    (h : RolledBack before none w) :
    (setEnabled manager enabled).wp (step manager migrates)
      (Returns manager migrates before (.setEnabled enabled))
      (Stops manager migrates before (.setEnabled enabled)) w := by
  apply wp_readState h
  rintro (error | prior) hprior
  · exact failed_returns h
  · obtain rfl := hprior prior rfl
    cases hstate : before.state with
    | none => exact failed_returns h
    | some state =>
      show Program.wp _ _ _ (if state.enabled = enabled then _ else _) _
      split
      · apply wp_quiet _ h
        · exact fun returned w' h' _ => failed_returns h'
        · exact only_statusFromState trivial state
      · have hrestores : Restores before
            (setEnabledJournal state { state with enabled := enabled }) w :=
          ⟨hstate, h.unchanged.data, fun _ => ⟨rfl, by rw [h.unchanged.registration]⟩⟩
        exact transaction_spec hmatches h hrestores fun w' hunchanged hrolling =>
          setEnabledBody_spec hmatches hunchanged hstate hrolling

theorem uninstall_spec {before : World} (hmatches : Matches manager before)
    (h : RolledBack before none w) :
    (uninstall manager).wp (step manager migrates)
      (Returns manager migrates before .uninstall)
    (Stops manager migrates before .uninstall) w := by
  apply wp_readState h
  rintro (error | prior) hprior
  · exact failed_returns h
  · obtain rfl := hprior prior rfl
    cases hstate : before.state with
    | none =>
      -- There is no registration, and removing it changes nothing.
      have hregistration : w.registration = none := by
        rw [h.unchanged.registration, hmatches, hstate, Option.map_none]
      apply wp_perform (.inl (.rolledBack h))
      rintro ok w₁ hstep
      have h₁ : RolledBack before none w₁ := by
        rcases hstep with rfl | ⟨-, rfl⟩
        · refine ⟨⟨h.unchanged.state, ?_, h.unchanged.data⟩, h.journal, h.commit⟩
          exact hregistration.symm.trans h.unchanged.registration
        · exact h
      cases ok with
      | false => exact failed_returns h₁
      | true => exact wp_pure (.inl (.rolledBack h₁)) (returns_of_rolledBack h₁)
    | some state =>
      have hrestores : Restores before (uninstallJournal state) w :=
        ⟨hstate, h.unchanged.data, fun hno => nomatch hno⟩
      exact transaction_spec hmatches h hrestores fun w' hunchanged hrolling =>
        uninstallBody_spec hunchanged.data hrolling

theorem operation_spec {before : World} (hmatches : Matches manager before) (operation : Operation)
    (h : RolledBack before none w) :
    (operation.run manager).wp (step manager migrates) (Returns manager migrates before operation)
      (Stops manager migrates before operation) w := by
  cases operation with
  | apply request => exact apply_spec hmatches request h
  | setEnabled enabled => exact setEnabled_spec hmatches enabled h
  | uninstall => exact uninstall_spec hmatches h

/-! ### Recoveries without a journal -/

theorem recover_of_none (h : w.journal = none) :
    (recover manager).wp (step manager migrates) (fun _ w' => w = w') (Eq w) w := by
  apply wp_perform rfl
  rintro found w' hread
  cases found with
  | found journal =>
    obtain ⟨hfound, -⟩ := hread
    rw [h] at hfound
    cases hfound
  | absent =>
    obtain ⟨-, rfl⟩ := hread
    exact wp_pure rfl rfl
  | failed =>
    obtain rfl : w' = w := hread
    exact wp_pure rfl rfl

end RlcdDeck.Installation
