import RlcdDeck.Installation.Equiv.Operations
import RlcdDeck.Installation.Equiv.Responses

/-!
# The journal between two calls

A call that starts without a journal and returns without an error of its rollback leaves none, unless
its journal became visible although writing it was reported as failed: then the call returns at once,
and nobody removes it (`journal_left`).  So it is for every call of a sequence
(`no_stale_recovery`).
-/

namespace RlcdDeck.Installation

open Effects
open Effects.Program (Only wp_pure wp_bind wp_mono wp_perform wp_after)

variable {manager : Manager} {migrates : Data → Data → Prop}

/-! ### One call -/

/-- No error means no journal. -/
def Removed (errors : List Error) (w : World) : Prop := errors = [] → w.journal = none

theorem error_removed (error : Error) (errors : List Error) (w : World) :
    (pure (error :: errors) : Work (List Error)).wp (step manager migrates) Removed (fun _ => True)
      w :=
  wp_pure trivial fun hnone => nomatch hnone

theorem commitJournal_removed (text : String) (w : World) :
    (commitJournal text).wp (step manager migrates) Removed (fun _ => True) w := by
  apply wp_perform trivial
  rintro removal w' hremoved
  cases removal with
  | removed =>
    obtain rfl : w' = { w with journal := none, commit := some true } := hremoved
    exact wp_pure trivial fun _ => rfl
  | absent => exact error_removed _ _ _
  | failed => exact error_removed _ _ _

theorem applyBody_removed (next : InstallationState) (w : World) :
    (applyBody manager next).wp (step manager migrates) Removed (fun _ => True) w := by
  apply wp_after
  rintro (_ | _) w₁
  · exact error_removed _ _ _
  · apply wp_after
    rintro (_ | _) w₂
    · exact error_removed _ _ _
    · apply wp_after
      rintro (_ | _) w₃
      · exact error_removed _ _ _
      · apply wp_after
        rintro (_ | _) w₄
        · exact error_removed _ _ _
        · apply wp_after
          rintro (_ | _) w₅
          · exact error_removed _ _ _
          · exact commitJournal_removed _ _

theorem setEnabledBody_removed (next : InstallationState) (w : World) :
    (setEnabledBody next).wp (step manager migrates) Removed (fun _ => True) w := by
  apply wp_after
  rintro (_ | _) w₁
  · exact error_removed _ _ _
  · apply wp_after
    rintro (_ | _) w₂
    · exact error_removed _ _ _
    · exact commitJournal_removed _ _

theorem uninstallBody_removed (w : World) :
    uninstallBody.wp (step manager migrates) Removed (fun _ => True) w := by
  apply wp_after
  rintro (_ | _) w₁
  · exact error_removed _ _ _
  · apply wp_after
    rintro (_ | _ | _) w₂
    · exact commitJournal_removed _ _
    · exact commitJournal_removed _ _
    · exact error_removed _ _ _

theorem rollback_removed (journal : TransactionJournal) (w : World) :
    (rollback manager journal).wp (step manager migrates) Removed (fun _ => True) w := by
  apply wp_after
  intro dataErrors w₁
  apply wp_after
  intro errors w₂
  show Program.wp _ _ _ (if dataErrors ++ errors = [] then _ else _) _
  split_ifs with hnone
  · apply wp_perform trivial
    rintro removal w₃ hremoved
    cases removal with
    | removed =>
      obtain rfl : w₃ = { w₂ with journal := none } := hremoved
      exact wp_pure trivial fun _ => rfl
    | absent =>
      obtain ⟨habsent, rfl⟩ := hremoved
      exact wp_pure trivial fun _ =>
        Option.isNone_iff_eq_none.mp (Option.isSome_eq_false_iff.mp habsent)
    | failed => exact error_removed _ _ _
  · exact wp_pure trivial fun herrors => absurd herrors hnone

/-- What a call leaves: a journal only with an error of the rollback, or one that is stray. -/
def Clean (returned : Returned) (w : World) : Prop :=
  w.stray = false → returned.rollback = [] → w.journal = none

theorem failed_clean {errors : List Error} {w : World} (h : w.journal = none) :
    (pure (failed errors) : Work Returned).wp (step manager migrates) Clean (fun _ => True) w :=
  wp_pure trivial fun _ _ => h

theorem transaction_clean {journal : TransactionJournal} {status : Status}
    {body : Work (List Error)} {w : World} (h : w.journal = none)
    (hbody : ∀ w', body.wp (step manager migrates) Removed (fun _ => True) w') :
    (transaction manager journal status body).wp (step manager migrates) Clean (fun _ => True) w := by
  apply wp_perform trivial
  rintro ok w₁ hreplaced
  cases ok with
  | false =>
    rcases hreplaced with rfl | ⟨-, rfl⟩
    · apply wp_pure trivial
      intro hstray
      -- The journal is visible, and the call returns.
      replace hstray : (w.stray || true) = false := hstray
      rw [Bool.or_true] at hstray
      cases hstray
    · exact failed_clean h
  | true =>
    apply wp_bind
    apply wp_mono (hbody w₁) fun _ _ => trivial
    rintro errors w₂ hremoved
    show Program.wp _ _ _ (if errors = [] then _ else _) _
    split_ifs with hnone
    · exact wp_pure trivial fun _ _ => hremoved hnone
    · apply wp_bind
      apply wp_mono (rollback_removed journal w₂) fun _ _ => trivial
      rintro rolledBack w₃ hremoved
      exact wp_pure trivial fun _ hrollback => hremoved hrollback

theorem clean_quiet {α : Type} {work : Work α} {rest : α → Work Returned} {w : World}
    (hwork : Only Quiet work) (h : w.journal = none)
    (hrest : ∀ a w', w'.journal = none →
      (rest a).wp (step manager migrates) Clean (fun _ => True) w') :
    (work >>= rest).wp (step manager migrates) Clean (fun _ => True) w := by
  apply wp_bind
  apply wp_mono (wp_calm hwork w) fun _ _ => trivial
  exact fun a w' hcalm => hrest a w' (hcalm.journal.trans h)

/-- **Every call**, from no journal. -/
theorem operation_clean (operation : Operation) {w : World} (h : w.journal = none) :
    (operation.run manager).wp (step manager migrates) Clean (fun _ => True) w := by
  have hreadState : Only Quiet (readState manager) := only_readState trivial
  cases operation with
  | apply request =>
    have hcontext : Only Quiet (ask .contextErr) := Program.only_perform trivial
    apply clean_quiet hcontext h
    intro done w₁ h₁
    show Program.wp _ _ _ (if done = true ∨ _ then _ else _) _
    split
    · exact failed_clean h₁
    · apply clean_quiet hreadState h₁
      rintro (error | prior) w₂ h₂
      · exact failed_clean h₂
      · apply clean_quiet (only_preflightCapacity (fun _ => trivial) (fun _ => trivial)
          (fun _ => trivial) _) h₂
        intro errors w₃ h₃
        show Program.wp _ _ _ (if errors ≠ [] then _ else _) _
        split
        · exact failed_clean h₃
        · apply clean_quiet (only_stageExecutable request (fun _ => trivial) (fun _ => trivial)
            (fun _ => trivial) (fun _ => trivial) (fun _ => trivial) (fun _ => trivial)) h₃
          rintro (error | target) w₄ h₄
          · exact failed_clean h₄
          · apply clean_quiet (only_createMigrationSnapshot request.commit trivial (fun _ => trivial)
              trivial (fun _ => trivial) (fun _ => trivial) (fun _ => trivial)
              (fun _ _ _ => trivial) (fun _ _ => trivial) (fun _ => trivial)) h₄
            rintro (_ | backupPath) w₅ h₅
            · exact failed_clean h₅
            · exact transaction_clean h₅ fun w' => applyBody_removed _ w'
  | setEnabled enabled =>
    apply clean_quiet hreadState h
    rintro (error | _ | state) w₁ h₁
    · exact failed_clean h₁
    · exact failed_clean h₁
    · show Program.wp _ _ _ (if state.enabled = enabled then _ else _) _
      split
      · have hstatus : Only Quiet (statusFromState state) := only_statusFromState trivial state
        exact clean_quiet hstatus h₁ fun returned w₂ h₂ => failed_clean h₂
      · exact transaction_clean h₁ fun w' => setEnabledBody_removed _ w'
  | uninstall =>
    apply clean_quiet hreadState h
    rintro (error | _ | state) w₁ h₁
    · exact failed_clean h₁
    · apply wp_perform trivial
      rintro ok w₂ hstep
      have h₂ : w₂.journal = none := by
        rcases hstep with rfl | ⟨-, rfl⟩
        · exact h₁
        · exact h₁
      cases ok with
      | false => exact failed_clean h₂
      | true => exact wp_pure trivial fun _ _ => h₂
    · exact transaction_clean h₁ fun w' => uninstallBody_removed w'

/-! ### Sequences of calls -/

/-- A call that returned. -/
structure Record where
  operation : Operation
  before : World
  returned : Returned
  after : World

/-- Calls one after the other, with anything written to the data in between. -/
def Sequence (manager : Manager) (migrates : Data → Data → Prop) : World → List Record → Prop
  | _, [] => True
  | w, record :: records =>
    DataOnly w record.before ∧
      Execution manager migrates (record.operation.run manager) record.before
        (some record.returned) record.after ∧
      Sequence manager migrates record.after records

/-- No journal is visible although writing it was reported as failed, and a call after a rollback
that failed finds no journal. -/
def Undisturbed : List Error → List Record → Prop
  | _, [] => True
  | rollback, record :: records =>
    (rollback ≠ [] → record.before.journal = none) ∧ record.after.stray = false ∧
      Undisturbed record.returned.rollback records

/-- **No stale recovery**: every call of a sequence that reports no error of its rollback leaves no
journal, and a later recovery leaves what was written to the data since. -/
theorem no_stale_recovery {w : World} {records : List Record} (hjournal : w.journal = none)
    (hsequence : Sequence manager migrates w records) (hundisturbed : Undisturbed [] records) :
    ∀ record ∈ records, record.returned.rollback = [] →
      record.after.journal = none ∧
        ∀ w' out w'', DataOnly record.after w' →
          Execution manager migrates (recover manager) w' out w'' → w''.data = w'.data := by
  -- By induction on the calls, from no journal unless the last rollback reported an error.
  suffices h : ∀ rollback, (rollback = [] → w.journal = none) → Undisturbed rollback records →
      ∀ record ∈ records, record.returned.rollback = [] →
        record.after.journal = none ∧
          ∀ w' out w'', DataOnly record.after w' →
            Execution manager migrates (recover manager) w' out w'' → w''.data = w'.data from
    h [] (fun _ => hjournal) hundisturbed
  clear hundisturbed hjournal
  induction records generalizing w with
  | nil => simp
  | cons head records ih =>
    intro rollback hstart ⟨hafter, hstray, hundisturbed⟩
    obtain ⟨hbefore, hexec, hsequence⟩ := hsequence
    have hjournal : head.before.journal = none := by
      by_cases hrollback : rollback = []
      · obtain ⟨data, hdata⟩ := hbefore
        rw [hdata]
        exact hstart hrollback
      · exact hafter hrollback
    have hclean : head.returned.rollback = [] → head.after.journal = none :=
      hexec.sound (operation_clean head.operation hjournal) hstray
    intro record hrecord hreturned
    rcases List.mem_cons.mp hrecord with rfl | hrecord
    · refine ⟨hclean hreturned, ?_⟩
      rintro w' out w'' ⟨data, rfl⟩ hrecover
      have hsame := hrecover.sound (recover_of_none (hclean hreturned))
      cases out with
      | none => exact congrArg World.data hsame.symm
      | some errors => exact congrArg World.data hsame.symm
    · exact ih hsequence head.returned.rollback hclean hundisturbed record hrecord hreturned

/-- `SetEnabled`, on a system with the false reports `faults`. -/
def sampleRecord (faults : Call → Bool) : Record where
  operation := .setEnabled true
  before := sampleWorld
  returned :=
    ((Operation.run sampleManager (.setEnabled true)).run (respond faults) sampleWorld).1
  after := ((Operation.run sampleManager (.setEnabled true)).run (respond faults) sampleWorld).2

theorem sequence_sampleRecord (faults : Call → Bool) :
    Sequence sampleManager Eq sampleWorld [sampleRecord faults] :=
  ⟨DataOnly.refl sampleWorld, execution_respond faults _ _, trivial⟩

theorem no_stale_recovery_setEnabled :
    (sampleRecord fun _ => false).returned.errors = [] ∧
      (sampleRecord fun _ => false).after.journal = none := by
  refine ⟨by decide +kernel, ?_⟩
  have hundisturbed : Undisturbed [] [sampleRecord fun _ => false] :=
    ⟨fun _ => rfl, by decide +kernel, trivial⟩
  exact (no_stale_recovery rfl (sequence_sampleRecord _) hundisturbed _ List.mem_cons_self
    (by decide +kernel)).1

/-- The journal is visible although writing it is reported as failed: the call returns this error and
no other, and leaves the journal. -/
theorem journal_left :
    ∃ (w : World) (record : Record), w.journal = none ∧
      Sequence sampleManager Eq w [record] ∧ record.returned.errors = [writeError] ∧
      record.returned.rollback = [] ∧ record.after.journal.isSome := by
  let faults : Call → Bool
    | .replaceJournal _ => true
    | _ => false
  exact ⟨sampleWorld, sampleRecord faults, rfl, sequence_sampleRecord faults, by decide +kernel,
    by decide +kernel, by decide +kernel⟩

end RlcdDeck.Installation
