import RlcdDeck.ProtectedFile.Replace

/-!
# A replacement is atomic

At every point of `replace`, and so wherever it is cut off, the files of the directory are the ones
before it or the ones with the new contents under the path, apart from temporary files
(`replace_wp`).  It reports `committed` exactly in the second case, and a failure always in the
first.  With failures given beforehand the result is known (`replace_result`).
-/

namespace RlcdDeck.ProtectedFile

open Effects Program

/-- The files that are not temporary are those of `d`. -/
def Unchanged (d s : Directory) : Prop :=
  ∀ name, isTemporary name = false → s.lookup name = d.lookup name

/-- The same with new contents under `path`. -/
def Changed (d : Directory) (path : Name) (contents : List UInt8) (s : Directory) : Prop :=
  ∀ name, isTemporary name = false →
    s.lookup name = if name = path then some contents else d.lookup name

/-- Where `replace` may be cut off. -/
def Halfway (d : Directory) (path : Name) (contents : List UInt8) (s : Directory) : Prop :=
  Unchanged d s ∨ Changed d path contents s

/-- How `replace` may end. -/
def Ends (d : Directory) (path : Name) (contents : List UInt8) (result : Replaced)
    (s : Directory) : Prop :=
  (result.committed = false ∧ result.failed = true ∧ Unchanged d s) ∨
    (result.committed = true ∧ Changed d path contents s)

section Steps

variable {d s : Directory} {path temporary : Name} {contents : List UInt8}

theorem ne_of_temporary {name : Name} (h : isTemporary temporary = true)
    (hname : isTemporary name = false) : name ≠ temporary := by
  rintro rfl
  rw [h] at hname
  cases hname

theorem Unchanged.refl (d : Directory) : Unchanged d d := fun _ _ => rfl

theorem Unchanged.insert (h : Unchanged d s) (ht : isTemporary temporary = true)
    (left : List UInt8) : Unchanged d (s.insert temporary left) := by
  intro name hname
  rw [AList.lookup_insert_ne (ne_of_temporary ht hname)]
  exact h name hname

theorem Unchanged.erase (h : Unchanged d s) (ht : isTemporary temporary = true) :
    Unchanged d (s.erase temporary) := by
  intro name hname
  rw [AList.lookup_erase_ne (ne_of_temporary ht hname)]
  exact h name hname

theorem Changed.erase (h : Changed d path contents s) (ht : isTemporary temporary = true) :
    Changed d path contents (s.erase temporary) := by
  intro name hname
  rw [AList.lookup_erase_ne (ne_of_temporary ht hname)]
  exact h name hname

theorem Unchanged.rename (h : Unchanged d s) (ht : isTemporary temporary = true) :
    Changed d path contents ((s.erase temporary).insert path contents) := by
  intro name hname
  by_cases hpath : name = path
  · rw [if_pos hpath, hpath, AList.lookup_insert]
  · rw [if_neg hpath, AList.lookup_insert_ne hpath, h.erase ht name hname]

end Steps

section Specification

variable {d s : Directory} {path temporary : Name} {contents : List UInt8}

theorem writeTemporary_wp (h : Unchanged d s) (ht : isTemporary temporary = true) :
    (writeTemporary temporary contents).wp Step
      (fun ok s => Unchanged d s ∧ (ok = true → s.lookup temporary = some contents))
      (Halfway d path contents) s := by
  refine wp_perform (.inl h) ?_
  rintro ensured s₁ hstep
  cases hstep
  refine wp_bind ?_
  -- What is written, and what it leaves in the temporary file.
  have hwrite : (following ensured (perform (.write temporary contents))).wp Step
       (fun ok s => Unchanged d s ∧ (ok = true → s.lookup temporary = some contents))
      (Halfway d path contents) s := by
    cases ensured with
    | false => exact wp_pure (.inl h) ⟨h, fun hfalse => by cases hfalse⟩
    | true =>
      refine ⟨.inl h, ?_⟩
      rintro written s₂ hstep
      cases hstep with
      | written =>
        have hs := h.insert ht contents
        exact ⟨.inl hs, hs, fun _ => AList.lookup_insert _⟩
      | notWritten left =>
        have hs := h.insert ht left
        exact ⟨.inl hs, hs, fun hfalse => by cases hfalse⟩
  refine wp_mono hwrite (fun _ hcut => hcut) ?_
  rintro written s₂ ⟨hs, hwritten⟩
  refine wp_bind ?_
  have hsync : (following written (perform (.sync temporary))).wp Step
       (fun ok s => Unchanged d s ∧ (ok = true → s.lookup temporary = some contents))
      (Halfway d path contents) s₂ := by
    cases written with
    | false => exact wp_pure (.inl hs) ⟨hs, fun hfalse => by cases hfalse⟩
    | true =>
      refine ⟨.inl hs, ?_⟩
      rintro synced s₃ hstep
      cases hstep
      exact ⟨.inl hs, hs, fun _ => hwritten rfl⟩
  refine wp_mono hsync (fun _ hcut => hcut) ?_
  rintro synced s₃ ⟨hs, hsynced⟩
  refine wp_perform (.inl hs) ?_
  rintro closed s₄ hstep
  cases hstep
  refine wp_pure (.inl hs) ⟨hs, fun hboth => hsynced ?_⟩
  exact (Bool.and_eq_true_iff.mp hboth).1

theorem giveUp_wp {post : Replaced → Directory → Prop} {cut : Directory → Prop} {result : Replaced}
    (hcut : cut s) (hcut' : cut (s.erase temporary)) (hpost : post result s)
    (hpost' : post result (s.erase temporary)) :
    (giveUp temporary result).wp Step post cut s := by
  refine wp_perform hcut ?_
  rintro removed s' hstep
  cases hstep with
  | removed => exact wp_pure hcut' hpost'
  | notRemoved => exact wp_pure hcut hpost

theorem commit_wp (h : Unchanged d s) (ht : isTemporary temporary = true)
    (hcontents : s.lookup temporary = some contents) :
    (commit temporary path).wp Step (Ends d path contents) (Halfway d path contents) s := by
  refine wp_perform (.inl h) ?_
  rintro renamed s₁ hstep
  cases hstep with
  | notRenamed =>
    exact giveUp_wp (.inl h) (.inl (h.erase ht)) (.inl ⟨rfl, rfl, h⟩)
      (.inl ⟨rfl, rfl, h.erase ht⟩)
  | renamed hsource =>
    obtain rfl := Option.some.inj (hcontents.symm.trans hsource)
    have hs : Changed d path contents ((s.erase temporary).insert path contents) := h.rename ht
    refine wp_perform (.inr hs) ?_
    rintro synced s₂ hstep
    cases hstep
    cases synced with
    | false =>
      exact giveUp_wp (.inr hs) (.inr (hs.erase ht)) (.inr ⟨rfl, hs⟩) (.inr ⟨rfl, hs.erase ht⟩)
    | true =>
      refine wp_perform (.inr hs) ?_
      rintro ensured s₃ hstep
      cases hstep
      exact wp_pure (.inr hs) (.inr ⟨rfl, hs⟩)

/-- **Atomicity**: how `replace` ends, and what it leaves wherever it is cut off. -/
theorem replace_wp (d : Directory) (path : Name) (contents : List UInt8) :
    (replace path contents).wp Step (Ends d path contents) (Halfway d path contents) d := by
  have h := Unchanged.refl d
  refine wp_perform (.inl h) ?_
  rintro ensured s₁ hstep
  cases hstep
  cases ensured with
  | false => exact wp_pure (.inl h) (.inl ⟨rfl, rfl, h⟩)
  | true =>
    refine wp_perform (.inl h) ?_
    rintro created s₂ hstep
    cases hstep with
    | notCreated => exact wp_pure (.inl h) (.inl ⟨rfl, rfl, h⟩)
    | created ht hfresh =>
      have hs := h.insert ht []
      refine wp_bind (wp_mono (writeTemporary_wp hs ht) (fun _ hcut => hcut) ?_)
      rintro written s₃ ⟨hs, hwritten⟩
      cases written with
      | false =>
        exact giveUp_wp (.inl hs) (.inl (hs.erase ht)) (.inl ⟨rfl, rfl, hs⟩)
          (.inl ⟨rfl, rfl, hs.erase ht⟩)
      | true => exact commit_wp hs ht (hwritten rfl)

end Specification

/-! ### Given failures -/

section Faults

variable {faults : Faults} {d : Directory} {path : Name} {contents : List UInt8}

theorem step_answer (faults : Faults) (d : Directory) (call : Call) :
    Step d call (faults.answer d call).1 (faults.answer d call).2 := by
  unfold Faults.answer
  cases call with
  | createTemp =>
    dsimp only
    split_ifs with hcreates
    · unfold Faults.creates at hcreates
      simp only [Bool.and_eq_true, Bool.not_eq_true', decide_eq_false_iff_not] at hcreates
      exact .created hcreates.1.2 hcreates.2
    · exact .notCreated
  | write name contents =>
    dsimp only
    split_ifs
    · exact .notWritten faults.left
    · exact .written
  | rename source target =>
    dsimp only
    split
    · exact .notRenamed
    · next contents hsource =>
      split_ifs
      · exact .notRenamed
      · exact .renamed hsource
  | remove name =>
    dsimp only
    split_ifs
    · exact .notRemoved
    · exact .removed
  | ensureDirectory => exact .ensureDirectory _
  | ensureFile name => exact .ensureFile _
  | sync name => exact .sync _
  | close name => exact .close _
  | syncDirectory => exact .syncDirectory _

theorem replace_ends (faults : Faults) (d : Directory) (path : Name) (contents : List UInt8) :
    Ends d path contents ((replace path contents).run faults.answer d).1
      ((replace path contents).run faults.answer d).2 :=
  (Exec.of_run (step_answer faults) (replace path contents) d).sound (replace_wp d path contents)

theorem run_ensureDirectory : (perform .ensureDirectory : Prog Bool).run faults.answer d =
    (!faults.fails .ensureDirectory, d) := rfl

theorem run_createTemp : (perform .createTemp).run faults.answer d =
    if faults.creates d then (some faults.temporary, d.insert faults.temporary []) else (none, d) :=
  rfl

theorem run_ensureFile (name : Name) : (perform (.ensureFile name) : Prog Bool).run faults.answer d =
    (!faults.fails (.ensureFile name), d) := rfl

theorem run_write (name : Name) : (perform (.write name contents) : Prog Bool).run faults.answer d =
    if faults.fails (.write name contents) then (false, d.insert name faults.left)
    else (true, d.insert name contents) := rfl

theorem run_sync (name : Name) : (perform (.sync name) : Prog Bool).run faults.answer d =
    (!faults.fails (.sync name), d) := rfl

theorem run_close (name : Name) : (perform (.close name) : Prog Bool).run faults.answer d =
    (!faults.fails (.close name), d) := rfl

theorem run_syncDirectory : (perform .syncDirectory : Prog Bool).run faults.answer d =
    (!faults.fails .syncDirectory, d) := rfl

theorem run_rename {temporary : Name} (h : d.lookup temporary = some contents) :
    (perform (.rename temporary path)).run faults.answer d =
      if faults.fails (.rename temporary path) then (false, d)
      else (true, (d.erase temporary).insert path contents) := by
  show faults.answer d (.rename temporary path) = _
  unfold Faults.answer
  simp only [h]

theorem run_following (ok : Bool) (next : Prog Bool) : (following ok next).run faults.answer d =
    if ok then next.run faults.answer d else (false, d) := by
  cases ok with
  | false => rfl
  | true => rfl

theorem run_writeTemporary (faults : Faults) (d : Directory) (temporary : Name)
    (contents : List UInt8) :
    ((writeTemporary temporary contents).run faults.answer d).1 =
        (!faults.fails (.ensureFile temporary) && !faults.fails (.write temporary contents) &&
          !faults.fails (.sync temporary) && !faults.fails (.close temporary)) ∧
      (((writeTemporary temporary contents).run faults.answer d).1 = true →
        ((writeTemporary temporary contents).run faults.answer d).2.lookup temporary =
          some contents) := by
  unfold writeTemporary
  rw [run_bind, run_ensureFile, run_bind, run_following, run_write, run_bind, run_following,
    run_sync, run_bind, run_close, run_pure]
  cases faults.fails (.ensureFile temporary) <;> cases faults.fails (.write temporary contents) <;>
    cases faults.fails (.sync temporary) <;> simp

theorem giveUp_result (faults : Faults) (d : Directory) (temporary : Name) (result : Replaced) :
    ((giveUp temporary result).run faults.answer d).1 = result := by
  unfold giveUp
  rw [run_bind, run_pure]

theorem commit_result {temporary : Name} (hcontents : d.lookup temporary = some contents) :
    ((commit temporary path).run faults.answer d).1 =
      if faults.fails (.rename temporary path) then ⟨false, true⟩
      else ⟨true, faults.afterwards path⟩ := by
  unfold commit Faults.afterwards
  rw [run_bind, run_rename hcontents]
  cases hrename : faults.fails (.rename temporary path) with
  | true => exact giveUp_result _ _ _ _
  | false =>
    simp only [Bool.false_eq_true, if_false, Bool.not_true]
    rw [run_bind, run_syncDirectory]
    cases hsync : faults.fails .syncDirectory with
    | true => exact giveUp_result _ _ _ _
    | false =>
      simp only [Bool.not_false, Bool.not_true, Bool.false_eq_true, if_false, Bool.false_or]
      rw [run_bind, run_ensureFile, run_pure, Bool.not_not]

/-- **The result of a replacement with given failures.** -/
theorem replace_result (faults : Faults) (d : Directory) (path : Name) (contents : List UInt8) :
    ((replace path contents).run faults.answer d).1 =
      if faults.renames d path contents then ⟨true, faults.afterwards path⟩ else ⟨false, true⟩ := by
  unfold replace Faults.renames
  rw [run_bind, run_ensureDirectory]
  cases hensure : faults.fails .ensureDirectory with
  | true => rfl
  | false =>
    simp only [Bool.not_false, Bool.not_true, Bool.false_eq_true, if_false, Bool.true_and]
    rw [run_bind, run_createTemp]
    cases hcreates : faults.creates d with
    | false => rfl
    | true =>
      simp only [if_true, Bool.true_and]
      obtain ⟨hwritten, hcontents⟩ :=
        run_writeTemporary faults (d.insert faults.temporary []) faults.temporary contents
      rw [run_bind]
      cases hok : ((writeTemporary faults.temporary contents).run faults.answer
          (d.insert faults.temporary [])).1 with
      | false =>
        rw [hok] at hwritten
        simp only [← hwritten, Bool.not_false, if_true, Bool.false_and, Bool.false_eq_true, if_false]
        exact giveUp_result _ _ _ _
      | true =>
        rw [hok] at hwritten
        simp only [← hwritten, Bool.not_true, Bool.false_eq_true, if_false, Bool.true_and]
        rw [commit_result (hcontents hok)]
        cases faults.fails (.rename faults.temporary path) <;> rfl

end Faults

end RlcdDeck.ProtectedFile
