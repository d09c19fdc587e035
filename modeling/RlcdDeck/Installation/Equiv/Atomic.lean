import RlcdDeck.Installation.Equiv.Operations
import RlcdDeck.Installation.Equiv.Responses

/-!
# Crash atomicity

What the recoveries make of an operation that was cut off or that failed: the state, the registration
and the data are together as before or as completed (`installation_atomic`).  The one way out is a
journal whose removal is reported as failed although it took effect: the rollback that follows has no
journal, and when it is not finished nobody goes on with it (`setEnabled_mixes`).
-/

namespace RlcdDeck.Installation

open Effects
open Effects.Program (wp_pure wp_perform)

variable {manager : Manager} {migrates : Data → Data → Prop}

theorem recover_of_pending {before w : World} (hmatches : Matches manager before)
    {journal : TransactionJournal} (h : Rolling before journal (some journal) none w) :
    (recover manager).wp (step manager migrates)
      (fun errors w' =>
        (Rolling before journal (some journal) none w' ∨ RolledBack before none w') ∧
          (errors = [] → RolledBack before none w'))
      (fun w' => Rolling before journal (some journal) none w' ∨ RolledBack before none w') w := by
  have herror : ∀ error : Error, (pure [error] : Work (List Error)).wp (step manager migrates)
      (fun errors w' =>
        (Rolling before journal (some journal) none w' ∨ RolledBack before none w') ∧
          (errors = [] → RolledBack before none w'))
      (fun w' => Rolling before journal (some journal) none w' ∨ RolledBack before none w') w :=
    fun _ => wp_pure (.inl h) ⟨.inl h, fun herrors => nomatch herrors⟩
  apply wp_perform (.inl h)
  rintro found w' hread
  cases found with
  | found read =>
    obtain ⟨hfound, rfl⟩ := hread
    obtain rfl : journal = read := Option.some.inj (h.journal.symm.trans hfound)
    show Program.wp _ _ _ (if validJournal manager journal then _ else _) _
    split_ifs
    · exact rollback_spec hmatches h
    · exact herror _
  | absent =>
    obtain ⟨hnone, -⟩ := hread
    rw [h.journal] at hnone
    cases hnone
  | failed =>
    obtain rfl : w' = w := hread
    exact herror _

theorem Recovers.of_left {before w w' : World} {operation : Operation}
    (hmatches : Matches manager before) (hrecovers : Recovers manager migrates w w')
    (h : Left manager migrates before operation w) :
    RolledBack before none w' ∨
      (Committed manager migrates before operation w ∧
        Committed manager migrates before operation w') := by
  induction hrecovers with
  | @completed w w' hexec =>
    rcases h with h | ⟨journal, h⟩ | h
    · obtain rfl : w = w' := hexec.sound (recover_of_none h.journal)
      exact .inl h
    · exact .inl ((hexec.sound (recover_of_pending hmatches h)).2 rfl)
    · obtain rfl : w = w' := hexec.sound (recover_of_none h.journal)
      exact .inr ⟨h, h⟩
  | @again w w' w'' out hexec hrecovers ih =>
    rcases h with h | ⟨journal, h⟩ | h
    · have hsame := hexec.sound (recover_of_none h.journal)
      obtain rfl : w = w' := by cases out <;> exact hsame
      exact ih (.rolledBack h)
    · have hleft := hexec.sound (recover_of_pending hmatches h)
      have hor : Rolling before journal (some journal) none w' ∨ RolledBack before none w' := by
        cases out with
        | none => exact hleft
        | some errors => exact hleft.1
      rcases hor with h' | h'
      · rcases ih (.pending journal h') with hdone | ⟨hcommitted, -⟩
        · exact .inl hdone
        · exact absurd (hcommitted.journal.symm.trans h'.journal) nofun
      · rcases ih (.rolledBack h') with hdone | ⟨hcommitted, -⟩
        · exact .inl hdone
        · exact absurd (hcommitted.commit.symm.trans h'.commit) (by decide)
    · have hsame := hexec.sound (recover_of_none h.journal)
      obtain rfl : w = w' := by cases out <;> exact hsame
      exact ih (.committed h)

theorem Recovers.of_none {w w' : World} (hrecovers : Recovers manager migrates w w')
    (h : w.journal = none) : w = w' := by
  induction hrecovers with
  | completed hexec => exact hexec.sound (recover_of_none h)
  | @again w w' w'' out hexec hrecovers ih =>
    have hsame := hexec.sound (recover_of_none h)
    obtain rfl : w = w' := by cases out <;> exact hsame
    exact ih h

/-- **Crash atomicity**: an operation that starts with no journal, from a registration that matches
the state, is cut off or returns anywhere, and any number of recoveries follow.  When the last one
reports no error, everything is as before, or as completed with the journal removed.  The removal
of the journal is not reported as failed although it took effect, or the rollback that follows
reports no error. -/
theorem installation_atomic {before w w' : World} {operation : Operation} {out : Option Returned}
    (hmatches : Matches manager before) (hjournal : before.journal = none)
    (hcommit : before.commit = none)
    (hexec : Execution manager migrates (operation.run manager) before out w)
    (hreported : w.commit = some false → ∃ returned, out = some returned ∧ returned.rollback = [])
    (hrecovers : Recovers manager migrates w w') :
    Unchanged before w' ∨
      (w.commit.isSome ∧ w.journal = none ∧ Completed manager migrates before operation w') := by
  have hstart : RolledBack before none before := ⟨⟨rfl, rfl, rfl⟩, hjournal, hcommit⟩
  have hspec : (operation.run manager).wp (step manager migrates) _ _ before :=
    operation_spec hmatches operation hstart
  have hsound := hexec.sound hspec
  have hleft : Left manager migrates before operation w ∨ RolledBack before (some false) w := by
    cases out with
    | none =>
      rcases hsound with hleft | hlost
      · exact .inl hleft
      · obtain ⟨returned, hreturned, -⟩ := hreported hlost
        cases hreturned
    | some returned =>
      rcases hsound.stops with hleft | hlost
      · exact .inl hleft
      · obtain ⟨_, hreturned, hnone⟩ := hreported hlost
        obtain rfl := Option.some.inj hreturned
        exact .inr (hsound.lost hlost hnone)
  rcases hleft with hleft | hrolledBack
  · rcases hrecovers.of_left hmatches hleft with hdone | ⟨hcommitted, hcommitted'⟩
    · exact .inl hdone.unchanged
    · refine .inr ⟨?_, hcommitted.journal, hcommitted'.completed⟩
      rw [hcommitted.commit]
      rfl
  · obtain rfl := hrecovers.of_none hrolledBack.journal
    exact .inl hrolledBack.unchanged

/-- What `SetEnabled` leaves on a system on which everything succeeds. -/
def sampleEnabled : World :=
  ((Operation.run sampleManager (.setEnabled true)).run (respond fun _ => false) sampleWorld).2

theorem installation_atomic_setEnabled :
    sampleEnabled.commit = some true ∧
      (Unchanged sampleWorld sampleEnabled ∨ (sampleEnabled.commit.isSome ∧
        sampleEnabled.journal = none ∧
        Completed sampleManager Eq sampleWorld (.setEnabled true) sampleEnabled)) := by
  have hcommit : sampleEnabled.commit = some true := by decide +kernel
  refine ⟨hcommit, installation_atomic (by rfl) rfl rfl (execution_respond (fun _ => false)
    (Operation.run sampleManager (.setEnabled true)) sampleWorld) ?_ (.completed
      (execution_respond (fun _ => false) (recover sampleManager) sampleEnabled))⟩
  intro hlost
  exact absurd (hcommit.symm.trans hlost) (by decide)

/-- The removal of the journal is reported as failed although it took effect, and so is the call of
the rollback that disables: the state is enabled and the registration is not, and `Open` finds
nothing to recover. -/
theorem setEnabled_mixes :
    ∃ (before w : World) (out : Option Returned), Matches sampleManager before ∧
      before.journal = none ∧ before.commit = none ∧
      Execution sampleManager Eq (Operation.run sampleManager (.setEnabled true)) before out w ∧
      Recovers sampleManager Eq w w ∧
      ¬(Unchanged before w ∨ Completed sampleManager Eq before (.setEnabled true) w) := by
  let faults : Call → Bool := fun call => call = .removeJournal true ∨ call = .setEnabled false
  refine ⟨sampleWorld, _, _, by rfl, rfl, rfl, execution_respond faults _ _,
    .completed (execution_respond (fun _ => false) (recover sampleManager) _), ?_⟩
  rintro (hunchanged | hcompleted)
  · exact absurd hunchanged.state (by decide +kernel)
  · exact absurd hcompleted.registration (by unfold Matches; decide +kernel)

end RlcdDeck.Installation
