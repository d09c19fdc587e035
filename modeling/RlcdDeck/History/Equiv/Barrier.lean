import Mathlib.Data.Set.Basic
import Mathlib.Tactic.Ring
import RlcdDeck.History.Equiv.Admissions

/-!
# Clear and enable barriers

What a successful `Clear` or `SetEnabled` promises about the captures that were under way
(`history_barriers`).  A capture reads the generation in its first statement, and the writer
records it only if the generation is still the same; `Clear` and `SetEnabled` advance the
generation.  So a capture that had read the generation before the advance leaves no row, as long
as the 64-bit counter does not come round to the same value again.

Two things are outside of the barrier (`clear_passes_captures`): a capture that was called but has
not yet read the generation, and one that is suspended while the counter goes round.
-/

namespace RlcdDeck.History

open Effects

/-! ### The rows of a capture -/

/-- The rows that the capture `c` wrote. -/
def Database.rowsOf (db : Database) (c : ℕ) : Set (ProviderHour ⊕ QuotaHour) :=
  {x | x.elim (fun row => row ∈ db.providerHours ∧ row.writer = some c)
    fun quota => quota ∈ db.quotaHours ∧ quota.writer = some c}

variable {db' : Database} {caller : ℕ} {provider : Provider} {observedAt : Time} {enabled : Bool}

section Rows

variable {db : Database} {c : ℕ}

theorem rowsOf_subset
    (hrows : ∀ row ∈ db'.providerHours, row.writer = some c → row ∈ db.providerHours)
    (hquota : ∀ quota ∈ db'.quotaHours, quota.writer = some c → quota ∈ db.quotaHours) :
    db'.rowsOf c ⊆ db.rowsOf c := by
  rintro (row | quota) ⟨hmem, hwriter⟩
  · exact ⟨hrows row hmem hwriter, hwriter⟩
  · exact ⟨hquota quota hmem hwriter, hwriter⟩

theorem rowsOf_deleteHours (db : Database) (expired : ProviderHour → Bool) (c : ℕ) :
    (db.deleteHours expired).rowsOf c ⊆ db.rowsOf c :=
  rowsOf_subset (fun _ hrow _ => (List.mem_filter.mp hrow).1)
    fun _ hquota _ => (List.mem_filter.mp hquota).1

theorem rowsOf_deleteHours_all (db : Database) (c : ℕ) :
    (db.deleteHours fun _ => true).rowsOf c = ∅ := by
  apply Set.eq_empty_of_forall_notMem
  rintro (row | quota) ⟨hmem, -⟩
  · simp [Database.deleteHours] at hmem
  · simp [Database.deleteHours] at hmem

theorem rowsOf_upsert {row : ProviderHour} (hwriter : row.writer ≠ some c) :
    (db.upsert row).rowsOf c ⊆ db.rowsOf c := by
  refine rowsOf_subset ?_ fun _ hquota _ => hquota
  intro other hmem hother
  have hne : other ≠ row := by
    rintro rfl
    exact hwriter hother
  have hmem' : other ∈ (Database.upsertRows db.providerHours row).1 := hmem
  unfold Database.upsertRows at hmem'
  split at hmem'
  · exact (List.mem_cons.mp hmem').resolve_left hne
  · split at hmem'
    · obtain ⟨old, hold, heq⟩ := List.mem_map.mp hmem'
      split at heq
      · exact absurd heq.symm hne
      · exact heq ▸ hold
    · exact hmem'

theorem rowsOf_deleteQuota (db : Database) (key : Key) (c : ℕ) :
    (db.deleteQuota key).rowsOf c ⊆ db.rowsOf c :=
  rowsOf_subset (fun _ hrow _ => hrow) fun _ hquota _ => (List.mem_filter.mp hquota).1

theorem rowsOf_insertQuota {rows : List QuotaHour} (hrows : ∀ quota ∈ rows, quota.writer ≠ some c)
    (h : db.insertQuota rows = some db') :
    db'.rowsOf c ⊆ db.rowsOf c := by
  unfold Database.insertQuota at h
  split at h
  · obtain rfl := Option.some.inj h
    refine rowsOf_subset (fun _ hrow _ => hrow) ?_
    intro quota hquota hwriter
    rcases List.mem_append.mp hquota with hquota | hquota
    · exact hquota
    · exact absurd hwriter (hrows quota hquota)
  · cases h

theorem quotaRows_writer {quota : QuotaHour} (h : quota ∈ quotaRows caller provider observedAt) :
    quota.writer = some caller := by
  unfold quotaRows at h
  obtain ⟨i, hi, rfl⟩ := List.mem_mapIdx.mp h
  rfl

theorem rowsOf_record (hne : caller ≠ c) (h : record db caller provider observedAt = .ok db') :
    db'.rowsOf c ⊆ db.rowsOf c := by
  have hwriter : some caller ≠ some c := fun heq => hne (Option.some.inj heq)
  unfold record at h
  simp only at h
  split_ifs at h
  · split at h
    · rename_i db'' hinsert
      obtain rfl := Except.ok.inj h
      refine (rowsOf_insertQuota (fun quota hquota => ?_) hinsert).trans
        ((rowsOf_deleteQuota _ _ c).trans (rowsOf_upsert hwriter))
      rw [quotaRows_writer hquota]
      exact hwriter
    · cases h
  · obtain rfl := Except.ok.inj h
    exact Set.Subset.rfl

theorem rowsOf_pruneExpired {now : Time} {retention : ℤ}
    (h : pruneExpired db now retention = .ok db') : db'.rowsOf c ⊆ db.rowsOf c := by
  unfold pruneExpired at h
  split_ifs at h
  obtain rfl := Except.ok.inj h
  exact rowsOf_deleteHours _ _ _

theorem rowsOf_transact {body : Except DatabaseError Database} {fault : Fault}
    (h : ∀ db', body = .ok db' → db'.rowsOf c ⊆ db.rowsOf c) :
    (transact db body fault).1.rowsOf c ⊆ db.rowsOf c := by
  unfold transact
  split
  · exact Set.Subset.rfl
  · exact Set.Subset.rfl
  · split_ifs
    · exact h _ rfl
    · exact Set.Subset.rfl
  · exact h _ rfl
  · exact h _ rfl

variable {now : Time} {retention : ℤ} {fault : Fault}

theorem rowsOf_capture (hne : caller ≠ c) :
    (capture db caller provider observedAt now retention fault).1.rowsOf c ⊆ db.rowsOf c := by
  refine rowsOf_transact fun db' hbody => ?_
  unfold captureBody at hbody
  split at hbody
  · rename_i recorded hrecord
    exact (rowsOf_pruneExpired hbody).trans (rowsOf_record hne hrecord)
  · cases hbody

theorem rowsOf_setEnabled :
    (setEnabled db enabled now retention fault).1.rowsOf c ⊆ db.rowsOf c := by
  unfold setEnabled
  split_ifs
  · exact Set.Subset.rfl
  · refine rowsOf_transact fun db' hbody => (rowsOf_pruneExpired hbody).trans ?_
    exact Set.Subset.rfl

theorem rowsOf_sweep : (sweep db now retention fault).1.rowsOf c ⊆ db.rowsOf c :=
  rowsOf_transact fun _ hbody => rowsOf_pruneExpired hbody

theorem rowsOf_clear : (clear db fault).1.rowsOf c ⊆ db.rowsOf c := by
  unfold clear
  split_ifs
  · exact rowsOf_deleteHours _ _ _
  · refine rowsOf_transact fun db' hbody => ?_
    obtain rfl := Except.ok.inj hbody
    exact rowsOf_deleteHours _ _ _

theorem rowsOf_clear_of_success (h : clear db fault = (db', none)) :
    db'.rowsOf c = ∅ := by
  unfold clear at h
  split_ifs at h
  · obtain rfl := congrArg Prod.fst h
    exact rowsOf_deleteHours_all db c
  · cases fault with
    | none =>
      obtain rfl := congrArg Prod.fst h
      exact rowsOf_deleteHours_all db c
    | protect => exact absurd rfl ‹Fault.protect ≠ .protect›
    | statement error => cases congrArg Prod.snd h
    | commit applied error => cases congrArg Prod.snd h

end Rows

variable {event : Event} {d n : ℕ} {u v : Store}

namespace Store

variable {config : Config} {s s' : Store}

/-! ### What the writer does to the rows -/

theorem Works.rowsOf {tick : Bool} {now : Time} {fault : Fault} (h : Works config s tick now fault s') {c : ℕ}
    (hstale : ∀ p t g, s.writer = .executing (.capture c p t g) → s.Stale g) :
    s'.database.rowsOf c ⊆ s.database.rowsOf c := by
  cases h with
  | sweep => exact rowsOf_sweep
  | @capture caller p t g writer fresh =>
    apply rowsOf_capture
    rintro rfl
    exact fresh (hstale p t g writer)
  | @setEnabled caller enabled db writer result
  | @setEnabledFailed caller enabled db error writer result =>
    have hrows : (History.setEnabled s.database enabled now config.retention fault).1.rowsOf c ⊆
      s.database.rowsOf c := rowsOf_setEnabled
    rw [result] at hrows
    exact hrows
  | @clear caller db writer result | @clearFailed caller db error writer result =>
    have hrows : (History.clear s.database fault).1.rowsOf c ⊆ s.database.rowsOf c := rowsOf_clear
    rw [result] at hrows
    exact hrows
  | _ => exact Set.Subset.rfl

/-- After the statement of `Clear` there are no rows. -/
def Emptied (s : Store) : Prop :=
  ∀ d, s.writer = .cleared d → ∀ c, s.database.rowsOf c = ∅

theorem Emptied.step (hs : Emptied s) {event : Event} (h : step config s event = some s') :
    Emptied s' := by
  intro d hwriter c
  cases event with
  | invoke id request =>
    obtain ⟨-, h⟩ := Option.ite_none_right_eq_some.mp h
    obtain rfl := Option.some.inj h
    exact hs d hwriter c
  | caller id done =>
    obtain ⟨call, x, call', hcall, hmoves, rfl⟩ := callerStep_moves h
    show x.database.rowsOf c = ∅
    rw [hmoves.shared.database]
    exact hs d (hmoves.shared.writer.symm.trans hwriter) c
  | writer tick now fault =>
    cases writerStep_works h with
    | clear writer result => exact rowsOf_clear_of_success result
    | _ => cases hwriter

/-! ### A capture that was admitted before the advance -/

theorem Ordered.stale (hs : Ordered s) {c n : ℕ} (hadmission : s.admissions c = some n)
    (hbefore : n < s.epoch) (hbound : s.epoch < n + 2 ^ 64) {p : Provider} {t : Time} {g : UInt64}
    (hwriter : s.writer = .executing (.capture c p t g)) : s.Stale g := by
  obtain ⟨m, -, hm, rfl⟩ := hs.executing c p t g hwriter
  obtain rfl : n = m := Option.some.inj (hadmission.symm.trans hm)
  refine Or.inr fun heq => ?_
  rw [hs.generation] at heq
  have hmod : n % 2 ^ 64 = s.epoch % 2 ^ 64 := by
    have := congrArg UInt64.toNat heq
    rwa [UInt64.toNat_ofNat', UInt64.toNat_ofNat'] at this
  omega

theorem step_rowsOf {c : ℕ} (h : step config s event = some s')
    (hstale : ∀ p t g, s.writer = .executing (.capture c p t g) → s.Stale g) :
    s'.database.rowsOf c ⊆ s.database.rowsOf c := by
  cases event with
  | invoke id request =>
    obtain ⟨-, h⟩ := Option.ite_none_right_eq_some.mp h
    obtain rfl := Option.some.inj h
    exact Set.Subset.rfl
  | caller id done =>
    obtain ⟨call, x, call', hcall, hmoves, rfl⟩ := callerStep_moves h
    show x.database.rowsOf c ⊆ _
    rw [hmoves.shared.database]
  | writer tick now fault => exact (writerStep_works h).rowsOf hstale

theorem Ordered.rowsOf_run (hs : Ordered s) {c n : ℕ} (hadmission : s.admissions c = some n)
    (hbefore : n < s.epoch) {events : List Event}
    (hrun : Store.run config s events = some s')
    (hbound : s'.epoch < n + 2 ^ 64) : s'.database.rowsOf c ⊆ s.database.rowsOf c := by
  induction events generalizing s with
  | nil =>
    obtain rfl := Option.some.inj hrun
    exact Set.Subset.rfl
  | cons event events ih =>
    obtain ⟨u, hu, hrest⟩ := Trace.run_cons.mp hrun
    obtain ⟨hgrows, hordered⟩ := hs.step hu
    have hlater : u.epoch ≤ s'.epoch := (hordered.run_grows hrest).epoch
    have hnow : s.epoch < n + 2 ^ 64 := by
      have := hgrows.epoch
      omega
    refine (ih hordered (hgrows.admissions c n hadmission) ?_ hrest).trans ?_
    · exact Nat.lt_of_lt_of_le hbefore hgrows.epoch
    · exact step_rowsOf hu fun p t g hwriter => hs.stale hadmission hbefore hnow hwriter

/-! ### Where `nil` comes from -/

/-- The step from `u` to `v` advances the generation for the command of the call `d`. -/
def Advances (u v : Store) (d : ℕ) : Prop :=
  (u.writer = .cleared d ∨ ∃ enabled, u.writer = .advancing d enabled) ∧ v.epoch = u.epoch + 1

/-- The step from `u` to `v` stores the flag for the command of the call `d`. -/
def Enables (u v : Store) (d : ℕ) (enabled : Bool) : Prop :=
  u.writer = .enabling d enabled ∧ v.writer = .polling ∧ v.enabled = enabled

/-- The step of the writer that answers `nil` to a call. -/
theorem Works.answers {tick : Bool} {now : Time} {fault : Fault}
    (h : Works config s tick now fault s') (hbefore : s.replies d ≠ some none)
    (hafter : s'.replies d = some none) :
    ((s.writer = .executing (.control d .flush) ∨ s.writer = .executing (.close d)) ∧
        s.persistenceErr = none) ∨
      (s.writer = .cleared d ∧ Advances s s' d) ∨ ∃ enabled, Enables s s' d enabled := by
  -- an answer to another call is not the one to `d`
  have hcaller : ∀ caller error, update s.replies caller (some error) d = some none →
      d = caller ∧ error = none := by
    intro caller error hupdate
    by_cases hd : d = caller
    · subst hd
      rw [update_self] at hupdate
      exact ⟨rfl, Option.some.inj hupdate⟩
    · rw [update_of_ne _ _ hd] at hupdate
      exact absurd hupdate hbefore
  cases h with
  | flush writer =>
    obtain ⟨rfl, hnone⟩ := hcaller _ _ hafter
    exact Or.inl ⟨Or.inl writer, hnone⟩
  | close writer remembered =>
    obtain ⟨rfl, hnone⟩ := hcaller _ _ hafter
    exact Or.inl ⟨Or.inr writer, remembered hnone⟩
  | setEnabledFailed | clearFailed =>
    obtain ⟨-, hnone⟩ := hcaller _ _ hafter
    cases hnone
  | enable writer =>
    obtain ⟨rfl, -⟩ := hcaller _ _ hafter
    exact Or.inr (Or.inr ⟨_, writer, rfl, rfl⟩)
  | cleared writer =>
    obtain ⟨rfl, -⟩ := hcaller _ _ hafter
    exact Or.inr (Or.inl ⟨writer, Or.inl writer, rfl⟩)
  | _ => exact absurd hafter hbefore

theorem step_answers (h : step config s event = some s') (hbefore : s.replies d ≠ some none)
    (hafter : s'.replies d = some none) :
    ((s.writer = .executing (.control d .flush) ∨ s.writer = .executing (.close d)) ∧
        s.persistenceErr = none) ∨
      (s.writer = .cleared d ∧ Advances s s' d) ∨ ∃ enabled, Enables s s' d enabled := by
  cases event with
  | invoke id request =>
    obtain ⟨-, h⟩ := Option.ite_none_right_eq_some.mp h
    obtain rfl := Option.some.inj h
    exact absurd hafter hbefore
  | caller id done =>
    obtain ⟨call, x, call', hcall, hmoves, rfl⟩ := callerStep_moves h
    exact absurd ((congrFun hmoves.shared.replies d).symm.trans hafter) hbefore
  | writer tick now fault => exact (writerStep_works h).answers hbefore hafter

theorem step_advances (h : step config s event = some s') (hbefore : s.writer ≠ .enabling d enabled)
    (hafter : s'.writer = .enabling d enabled) : Advances s s' d := by
  cases event with
  | invoke id request =>
    obtain ⟨-, h⟩ := Option.ite_none_right_eq_some.mp h
    obtain rfl := Option.some.inj h
    exact absurd hafter hbefore
  | caller id done =>
    obtain ⟨call, x, call', hcall, hmoves, rfl⟩ := callerStep_moves h
    exact absurd (hmoves.shared.writer.symm.trans hafter) hbefore
  | writer tick now fault =>
    cases writerStep_works h with
    | advance writer =>
      cases hafter
      exact ⟨Or.inr ⟨_, writer⟩, rfl⟩
    | _ => cases hafter

theorem step_enables (h : step config s event = some s') (hbefore : s.enabled = false)
    (hafter : s'.enabled = true) : ∃ d, Enables s s' d true := by
  have hchanged : s'.enabled ≠ s.enabled := by
    rw [hbefore, hafter]
    nofun
  cases event with
  | invoke id request =>
    obtain ⟨-, h⟩ := Option.ite_none_right_eq_some.mp h
    obtain rfl := Option.some.inj h
    exact absurd rfl hchanged
  | caller id done =>
    obtain ⟨call, x, call', hcall, hmoves, rfl⟩ := callerStep_moves h
    exact absurd hmoves.shared.enabled hchanged
  | writer tick now fault =>
    cases writerStep_works h with
    | @enable caller enabled writer =>
      obtain rfl : enabled = true := hafter
      exact ⟨caller, writer, rfl, rfl⟩
    | _ => exact absurd rfl hchanged

section Runs

variable {db : Database} {events : List Event}

/-- The command of a call that returned `nil` was answered in a step of the run. -/
theorem exists_answers (hrun : run config (Store.opened db) events = some s) {d : ℕ} {kind : Kind}
    (hd : s.calls d = some (.command kind (.returned none))) (hkind : kind ≠ .flush) :
    ∃ u v, Trace.Passes (step config) (Store.opened db) events s u v ∧
      ((kind = .clear ∧ u.writer = .cleared d ∧ Advances u v d) ∨
        ∃ enabled, kind = .setEnabled enabled ∧ Enables u v d enabled) := by
  have htracked : Tracked s := (tracked_opened db).run hrun
  have hstart : ¬(Store.opened db).replies d = some none := nofun
  obtain ⟨u, v, hpasses, hu, hv⟩ := Trace.exists_passes (Q := fun s => s.replies d = some none)
    hstart (htracked.answered d _ _ hd (Or.inr rfl)) hrun
  refine ⟨u, v, hpasses, ?_⟩
  obtain ⟨before, hbefore⟩ := hpasses.before
  obtain ⟨event, after, hevent, hafter⟩ := hpasses.after
  have hu' : Tracked u := (tracked_opened db).run hbefore
  -- the command that is answered is of the kind of the call, which stays
  have hsame : ∀ command, u.writer.command? = some command → command.caller = d →
      command = .control d kind := by
    rintro command hcommand rfl
    have hmem : command ∈ u.pending := by
      rw [pending, hcommand]
      exact List.mem_cons_self
    have hsent : s.Sent command :=
      ((hu'.sent command hmem).step hevent).run hafter
    cases command with
    | capture id p t g =>
      obtain ⟨point, hpoint, -⟩ := hsent
      cases hd.symm.trans hpoint
    | control id kind' =>
      obtain ⟨point, hpoint⟩ := hsent
      cases hd.symm.trans hpoint
      rfl
    | close id =>
      obtain ⟨point, hpoint⟩ := hsent
      cases hd.symm.trans hpoint
  rcases step_answers hevent hu hv with
    ⟨hflush | hclose, -⟩ | ⟨hcleared, hadvances⟩ | ⟨enabled, h⟩
  · cases hsame _ (congrArg Writer.command? hflush) rfl
    exact absurd rfl hkind
  · cases hsame _ (congrArg Writer.command? hclose) rfl
  · cases hsame _ (congrArg Writer.command? hcleared) rfl
    exact Or.inl ⟨rfl, hcleared, hadvances⟩
  · cases hsame _ (congrArg Writer.command? h.1) rfl
    exact Or.inr ⟨enabled, rfl, h⟩

theorem exists_advances (hpasses : Trace.Passes (step config) (Store.opened db) events s u v)
    (h : Enables u v d enabled) :
    ∃ u' v', Trace.Passes (step config) (Store.opened db) events s u' v' ∧ Advances u' v' d := by
  have hstart : ¬(Store.opened db).writer = .enabling d enabled := nofun
  obtain ⟨u', v', hearlier, hu', hv'⟩ := hpasses.earlier
    (Q := fun s => s.writer = .enabling d enabled) hstart h.1
  obtain ⟨event, after, hevent, -⟩ := hearlier.after
  exact ⟨u', v', hearlier, step_advances hevent hu' hv'⟩

theorem rowsOf_passes {c : ℕ} (hpasses : Trace.Passes (step config) (Store.opened db) events s u v)
    (hadvances : Advances u v d) (hadmission : u.admissions c = some n)
    (hbound : s.epoch < n + 2 ^ 64) : s.database.rowsOf c ⊆ v.database.rowsOf c := by
  obtain ⟨before, hbefore⟩ := hpasses.before
  obtain ⟨event, after, hevent, hafter⟩ := hpasses.after
  have hu : Ordered u := (ordered_opened db).run hbefore
  obtain ⟨hgrows, hv⟩ := hu.step hevent
  refine hv.rowsOf_run (hgrows.admissions c n hadmission) ?_ hafter hbound
  have hle := (hu.begun c n hadmission).1
  have hadvance := hadvances.2
  omega

theorem rowsOf_of_cleared (hpasses : Trace.Passes (step config) (Store.opened db) events s u v)
    (hcleared : u.writer = .cleared d) (c : ℕ) : v.database.rowsOf c = ∅ := by
  obtain ⟨before, hbefore⟩ := hpasses.before
  obtain ⟨event, after, hevent, -⟩ := hpasses.after
  have hstart : Emptied (Store.opened db) := nofun
  have hu : Emptied u := Trace.run_invariant (fun _ _ _ hs hstep => hs.step hstep) hstart hbefore
  refine Set.subset_eq_empty (step_rowsOf hevent ?_) (hu d hcleared c)
  intro p t g hwriter
  rw [hcleared] at hwriter
  cases hwriter

/-! ### After `SetEnabled(false)` -/

/-- While the flag is off, no row is written; it goes on by a `SetEnabled(true)`. -/
theorem rowsOf_disabled (hs : s.enabled = false) (hrun : run config s events = some s') :
    (∀ c, s'.database.rowsOf c ⊆ s.database.rowsOf c) ∨
      ∃ d u v, Trace.Passes (step config) s events s' u v ∧ Enables u v d true := by
  induction events generalizing s with
  | nil =>
    obtain rfl := Option.some.inj hrun
    exact Or.inl fun c => Set.Subset.rfl
  | cons event events ih =>
    obtain ⟨u, hu, hrest⟩ := Trace.run_cons.mp hrun
    have hrows : ∀ c, u.database.rowsOf c ⊆ s.database.rowsOf c := fun c =>
      step_rowsOf hu fun p t g _ => Or.inl hs
    by_cases henabled : u.enabled = true
    · refine Or.inr ?_
      obtain ⟨d, henables⟩ := step_enables hu hs henabled
      exact ⟨d, s, u, ⟨[], event, events, rfl, rfl, hu, hrest⟩, henables⟩
    · rcases ih (Bool.eq_false_iff.mpr henabled) hrest with hrest | ⟨d, v, w, hpasses, henables⟩
      · exact Or.inl fun c => (hrest c).trans (hrows c)
      · exact Or.inr ⟨d, v, w, hpasses.cons hu, henables⟩

/-! ### The barriers -/

/-- **Clear and enable barriers**: in every run, a `Clear` that returned `nil` was executed in some
step, and from then on there is no row of a capture that had been admitted before it; a
`SetEnabled` that returned `nil` was executed in some step, and a capture that had been admitted
before it writes no row any more, as long as the generation is advanced less than `2^64` times
since the admission.  After a `SetEnabled(false)` no capture at all writes a row until the flag of
a `SetEnabled(true)` is stored. -/
theorem history_barriers (hrun : run config (Store.opened db) events = some s) :
    (∀ d, s.calls d = some (.command .clear (.returned none)) →
      ∃ u v, Trace.Passes (step config) (Store.opened db) events s u v ∧ Advances u v d ∧
        ∀ c n, u.admissions c = some n → s.epoch < n + 2 ^ 64 → s.database.rowsOf c = ∅) ∧
    (∀ d enabled, s.calls d = some (.command (.setEnabled enabled) (.returned none)) →
      ∃ u v, Trace.Passes (step config) (Store.opened db) events s u v ∧ Advances u v d ∧
        ∀ c n, u.admissions c = some n → s.epoch < n + 2 ^ 64 →
          s.database.rowsOf c ⊆ v.database.rowsOf c) ∧
    (∀ d, s.calls d = some (.command (.setEnabled false) (.returned none)) →
      ∃ u v after, Trace.Passes (step config) (Store.opened db) events s u v ∧
        Enables u v d false ∧ run config v after = some s ∧
        ((∀ c, s.database.rowsOf c ⊆ v.database.rowsOf c) ∨
          ∃ d' x y, Trace.Passes (step config) v after s x y ∧ Enables x y d' true)) := by
  refine ⟨?_, ?_, ?_⟩
  · intro d hd
    obtain ⟨u, v, hpasses, ⟨-, hcleared, hadvances⟩ | ⟨enabled, hkind, -⟩⟩ :=
      exists_answers hrun hd nofun
    · refine ⟨u, v, hpasses, hadvances, fun c n hadmission hbound => ?_⟩
      exact Set.subset_eq_empty (rowsOf_passes hpasses hadvances hadmission hbound)
        (rowsOf_of_cleared hpasses hcleared c)
    · cases hkind
  · intro d enabled hd
    obtain ⟨u, v, hpasses, ⟨hkind, -⟩ | ⟨enabled', -, henables⟩⟩ := exists_answers hrun hd nofun
    · cases hkind
    · obtain ⟨u', v', hpasses', hadvances⟩ := exists_advances hpasses henables
      exact ⟨u', v', hpasses', hadvances, fun c n hadmission hbound =>
        rowsOf_passes hpasses' hadvances hadmission hbound⟩
  · intro d hd
    obtain ⟨u, v, hpasses, ⟨hkind, -⟩ | ⟨enabled, hkind, henables⟩⟩ := exists_answers hrun hd nofun
    · cases hkind
    · cases hkind
      obtain ⟨event, after, -, hafter⟩ := hpasses.after
      exact ⟨u, v, after, hpasses, henables, hafter, rowsOf_disabled henables.2.2 hafter⟩

end Runs

/-! ### Outside of the barrier -/

/-- A store with the default limits that takes every provider. -/
def sampleConfig : Config := ⟨128, 7776000000000000, fun _ _ => true⟩

def sampleProvider : Provider := { id := Json.bytes "codex", status := Json.bytes "ok" }

def sampleTime : Time := 1786795200000000000

/-- A database without rows. -/
def emptyDatabase : Database := ⟨[], [], true, fun _ h => nomatch h⟩

/-- The writer takes a step in which nothing goes wrong. -/
def work : Event := .writer false sampleTime .none

/-- The steps of a `Clear` up to its `DELETE`. -/
def clearBegins (id : ℕ) : List Event :=
  [.invoke id (.command .clear), .caller id false, .caller id false, .caller id false, work, work]

/-- The steps of a call of `Clear` after the advance. -/
def clearEnds (id : ℕ) : List Event := [.caller id false, .caller id false]

/-- The steps of a capture after its context check, and the ones of the writer that records it. -/
def captureGoesOn (id : ℕ) : List Event :=
  [.caller id false, .caller id false, .caller id false, .caller id false, .caller id false, work,
    work]

/-- The run ends with a row of the capture `0`. -/
def Leaves (u v s : Store) (d : ℕ) : Prop :=
  Advances u v d ∧ s.calls d = some (.command .clear (.returned none)) ∧
    (s.database.rowsOf 0).Nonempty

/-- The barrier in a run: the capture `0` is admitted, a `Clear` returns, and the capture is
dropped. -/
theorem history_barriers_clear : ∃ events s u v,
    run sampleConfig (Store.opened emptyDatabase) events = some s ∧
    Trace.Passes (step sampleConfig) (Store.opened emptyDatabase) events s u v ∧ Advances u v 1 ∧
    ∀ c n, u.admissions c = some n → s.epoch < n + 2 ^ 64 → s.database.rowsOf c = ∅ := by
  let events := [.invoke 0 (.capture sampleProvider sampleTime), .caller 0 false] ++
    clearBegins 1 ++ work :: clearEnds 1 ++ .caller 0 false :: captureGoesOn 0
  have hreturned : ((run sampleConfig (Store.opened emptyDatabase) events).map fun s => s.calls 1) =
      some (some (.command .clear (.returned none))) := by decide +kernel
  obtain ⟨s, hrun, hcall⟩ := Option.map_eq_some_iff.mp hreturned
  obtain ⟨u, v, hpasses, hadvances, hrows⟩ := (history_barriers hrun).1 1 hcall
  exact ⟨events, s, u, v, hrun, hpasses, hadvances, hrows⟩

theorem rowsOf_nonempty {db : Database} {c : ℕ}
    (h : (db.providerHours.any fun row => row.writer = some c) = true) :
    (db.rowsOf c).Nonempty := by
  obtain ⟨row, hrow, hwriter⟩ := List.any_eq_true.mp h
  exact ⟨.inl row, hrow, of_decide_eq_true hwriter⟩

theorem clear_passes_call : ∃ events u v s,
    run sampleConfig (Store.opened emptyDatabase) events = some s ∧
    Trace.Passes (step sampleConfig) (Store.opened emptyDatabase) events s u v ∧ Leaves u v s 1 ∧
    u.calls 0 = some (.capture sampleProvider sampleTime .invoked) := by
  obtain ⟨u, v, s, hrun, hpasses, hcheck⟩ :=
    Trace.exists_passes_of_any (.invoke 0 (.capture sampleProvider sampleTime) :: clearBegins 1)
      work (clearEnds 1 ++ (.caller 0 false :: .caller 0 false :: captureGoesOn 0))
      (fun u v s => u.writer = .cleared 1 && v.epoch = u.epoch + 1 &&
        s.calls 1 = some (.command .clear (.returned none)) &&
        s.database.providerHours.any (fun row => row.writer = some 0) &&
        u.calls 0 = some (.capture sampleProvider sampleTime .invoked))
      (show _ = true by decide +kernel : ((Trace.run (step sampleConfig) (Store.opened emptyDatabase)
        _).any _) = true)
  simp only [Bool.and_eq_true, decide_eq_true_eq] at hcheck
  obtain ⟨⟨⟨⟨hcleared, hepoch⟩, hreturned⟩, hrows⟩, hinvoked⟩ := hcheck
  exact ⟨_, u, v, s, hrun, hpasses, ⟨⟨Or.inl hcleared, hepoch⟩, hreturned, rowsOf_nonempty hrows⟩,
    hinvoked⟩

/-- The capture `0` has read the generation `0`, and `n` calls of `Clear` have returned since. -/
structure Suspended (s : Store) (n : ℕ) : Prop where
  calls : s.calls 0 = some (.capture sampleProvider sampleTime (.admitted 0))
  admission : s.admissions 0 = some 0
  returned : ∀ i, 1 ≤ i → i ≤ n → s.calls i = some (.command .clear (.returned none))
  uncalled : ∀ i, n < i → s.calls i = none
  generation : s.generation = UInt64.ofNat n
  writer : s.writer = .polling
  commands : s.commands = []
  exclusive : s.exclusive = none
  readers : s.readers = []
  closed : s.closed = false
  enabled : s.enabled = true
  rows : s.database.providerHours = []

theorem step_command {id : ℕ} {kind : Kind} {point : CommandPoint} {done : Bool}
    (hcall : s.calls id = some (.command kind point))
    (h : commandStep config s id kind done point = some s') :
    step config s (.caller id done) = some s' := by
  show callerStep config s id done = some s'
  rw [callerStep, hcall]
  exact h

theorem step_capture {id : ℕ} {p : Provider} {t : Time} {point : CapturePoint} {done : Bool}
    (hcall : s.calls id = some (.capture p t point))
    (h : captureStep config s id p t done point = some s') :
    step config s (.caller id done) = some s' := by
  show callerStep config s id done = some s'
  rw [callerStep, hcall]
  exact h

theorem step_receive {command : Command} (hwriter : s.writer = .polling)
    (hcommands : s.commands = [command]) :
    step config s work = some { s with commands := [], writer := .executing command } := by
  show writerStep config s false sampleTime .none = _
  rw [writerStep, hwriter]
  show s.receive _ = _
  rw [receive, hcommands]

theorem rowsOf_capture_sample {db : Database} (h : db.providerHours = []) :
    ((History.capture db 0 sampleProvider sampleTime sampleTime sampleConfig.retention
      .none).1.rowsOf 0).Nonempty := by
  apply rowsOf_nonempty
  obtain ⟨rows, quota, enabled, hkey⟩ := db
  obtain rfl : rows = [] := h
  rfl

/-- One more `Clear`. -/
theorem Suspended.clear {n : ℕ} (hs : Suspended s n) : ∃ u v t,
    run sampleConfig s (clearBegins (n + 1)) = some u ∧ step sampleConfig u work = some v ∧
      run sampleConfig v (clearEnds (n + 1)) = some t ∧ Advances u v (n + 1) ∧
      Suspended t (n + 1) := by
  have huncalled := hs.uncalled (n + 1) (Nat.lt_succ_self n)
  let s₁ := s.goto (n + 1) (.command .clear .invoked)
  let s₂ := (s₁.rLock (n + 1)).goto (n + 1) (.command .clear .locked)
  let s₃ := s₂.goto (n + 1) (.command .clear .opened)
  let s₄ := (s₃.send (.control (n + 1) .clear)).goto (n + 1) (.command .clear .waiting)
  let s₅ := { s₄ with commands := [], writer := .executing (.control (n + 1) .clear) }
  let s₆ := { s₅ with database := s.database.deleteHours fun _ => true, writer := .cleared (n + 1) }
  let s₇ := (s₆.advance.persisted none).reply (n + 1) none
  let s₈ := s₇.goto (n + 1) (.command .clear (.leaving none))
  let s₉ := (s₈.rUnlock (n + 1)).goto (n + 1) (.command .clear (.returned none))
  have hself (x : Store) (call : Call) : (x.goto (n + 1) call).calls (n + 1) = some call :=
    update_self _ _ _
  have h₁ : step sampleConfig s (.invoke (n + 1) (.command .clear)) = some s₁ := if_pos huncalled
  have h₂ : step sampleConfig s₁ (.caller (n + 1) false) = some s₂ :=
    step_command (hself _ _) (if_pos hs.exclusive)
  have h₃ : step sampleConfig s₂ (.caller (n + 1) false) = some s₃ :=
    step_command (hself _ _) (congrArg some (if_neg (Bool.eq_false_iff.mp hs.closed)))
  have h₄ : step sampleConfig s₃ (.caller (n + 1) false) = some s₄ := by
    have hroom : s₃.commands.length < 128 := by
      show s.commands.length < 128
      rw [hs.commands]
      decide
    refine step_command (hself _ _) ?_
    simp only [commandStep, Bool.false_eq_true, if_false]
    exact if_pos hroom
  have h₅ : step sampleConfig s₄ work = some s₅ :=
    step_receive hs.writer (congrArg (· ++ [Command.control (n + 1) .clear]) hs.commands)
  have h₆ : step sampleConfig s₅ work = some s₆ := rfl
  have h₇ : step sampleConfig s₆ work = some s₇ := rfl
  have h₈ : step sampleConfig s₇ (.caller (n + 1) false) = some s₈ := by
    have hreply : s₇.replies (n + 1) = some none := update_self _ _ _
    have hwaiting : s₇.calls (n + 1) = some (.command .clear .waiting) := hself _ _
    refine step_command hwaiting ?_
    simp only [commandStep, hreply]
    rfl
  have h₉ : step sampleConfig s₈ (.caller (n + 1) false) = some s₉ :=
    step_command (hself _ _) rfl
  have hcalls : ∀ i, i ≠ n + 1 → s₉.calls i = s.calls i := by
    intro i hi
    simp only [s₉, s₈, s₇, s₆, s₅, s₄, s₃, s₂, s₁, goto, rUnlock, rLock, reply, persisted, advance,
      send, update_of_ne _ _ hi]
  refine ⟨s₆, s₇, s₉, ?_, h₇, ?_, ⟨Or.inl rfl, rfl⟩, ?_⟩
  · simp only [run, clearBegins, Trace.run, h₁, h₂, h₃, h₄, h₅, h₆, Option.bind_some]
  · simp only [run, clearEnds, Trace.run, h₈, h₉, Option.bind_some]
  · refine ⟨?_, hs.admission, ?_, ?_, ?_, rfl, rfl, hs.exclusive, ?_, hs.closed, hs.enabled, ?_⟩
    · rw [hcalls 0 (by omega)]
      exact hs.calls
    · intro i hi hn
      by_cases heq : i = n + 1
      · subst heq
        exact hself _ _
      · rw [hcalls i heq]
        exact hs.returned i hi (by omega)
    · intro i hi
      rw [hcalls i (by omega)]
      exact hs.uncalled i (by omega)
    · show s.generation + 1 = _
      rw [hs.generation]
      exact (UInt64.ofNat_add n 1).symm
    · show ((n + 1) :: s.readers).erase (n + 1) = []
      rw [hs.readers]
      simp
    · exact List.filter_eq_nil_iff.mpr fun row hrow => absurd (hs.rows ▸ hrow) List.not_mem_nil

theorem Suspended.clears (hs : Suspended s n) (k : ℕ) :
    ∃ events t, run sampleConfig s events = some t ∧ Suspended t (n + k) := by
  induction k with
  | zero => exact ⟨[], s, rfl, hs⟩
  | succ k ih =>
    obtain ⟨events, t, hrun, ht⟩ := ih
    obtain ⟨u, v, t', hu, hv, ht', -, hsuspended⟩ := ht.clear
    exact ⟨_, t', Trace.run_append_of_run (Trace.run_append_of_run hrun hu)
      (Trace.run_cons.mpr ⟨v, hv, ht'⟩), hsuspended⟩

/-- The capture goes on when the generation has come round to the one it read. -/
theorem Suspended.records (hs : Suspended s n) (hround : UInt64.ofNat n = 0) :
    ∃ t, run sampleConfig s (.caller 0 false :: captureGoesOn 0) = some t ∧
      (∀ i, i ≠ 0 → t.calls i = s.calls i) ∧ (t.database.rowsOf 0).Nonempty := by
  let go (x : Store) (point : CapturePoint) := x.goto 0 (.capture sampleProvider sampleTime point)
  let s₁ := go s (.passed 0)
  let s₂ := go (s₁.rLock 0) (.locked 0)
  let s₃ := go s₂ (.opened 0)
  let s₄ := go s₃ (.recording 0)
  let s₅ := go (s₄.send (.capture 0 sampleProvider sampleTime 0)) (.leaving .queued)
  let s₆ := go (s₅.rUnlock 0) (.returned .queued)
  let s₇ := { s₆ with commands := [],
                      writer := .executing (.capture 0 sampleProvider sampleTime 0) }
  have hself (x : Store) (point : CapturePoint) :
      (go x point).calls 0 = some (.capture sampleProvider sampleTime point) := by
    show update x.calls 0 _ 0 = _
    exact update_self _ _ _
  have h₁ : step sampleConfig s (.caller 0 false) = some s₁ := step_capture hs.calls rfl
  have h₂ : step sampleConfig s₁ (.caller 0 false) = some s₂ :=
    step_capture (hself _ _) (if_pos hs.exclusive)
  have h₃ : step sampleConfig s₂ (.caller 0 false) = some s₃ :=
    step_capture (hself _ _) (congrArg some (if_neg (Bool.eq_false_iff.mp hs.closed)))
  have h₄ : step sampleConfig s₃ (.caller 0 false) = some s₄ :=
    step_capture (hself _ _) (congrArg some (if_pos hs.enabled))
  have h₅ : step sampleConfig s₄ (.caller 0 false) = some s₅ := by
    have hroom : s₄.commands.length < 128 := by
      show s.commands.length < 128
      rw [hs.commands]
      decide
    refine step_capture (hself _ _) (congrArg some ?_)
    exact (if_neg (by decide)).trans (if_pos hroom)
  have h₆ : step sampleConfig s₅ (.caller 0 false) = some s₆ := step_capture (hself _ _) rfl
  have h₇ : step sampleConfig s₆ work = some s₇ :=
    step_receive hs.writer
      (congrArg (· ++ [Command.capture 0 sampleProvider sampleTime 0]) hs.commands)
  -- the flag is set and the generation is the same, so the writer records the capture
  have hfresh : ¬(!s₇.enabled || decide ((0 : UInt64) ≠ s₇.generation)) = true := by
    have henabled : s₇.enabled = true := hs.enabled
    have hgeneration : s₇.generation = 0 := hs.generation.trans hround
    rw [henabled, hgeneration]
    decide
  obtain ⟨s₈, h₈, hcalls, hrows⟩ : ∃ s₈, step sampleConfig s₇ work = some s₈ ∧
      s₈.calls = s₇.calls ∧ (s₈.database.rowsOf 0).Nonempty :=
    ⟨_, congrArg some (if_neg hfresh), rfl, rowsOf_capture_sample hs.rows⟩
  refine ⟨s₈, ?_, ?_, hrows⟩
  · simp only [run, captureGoesOn, Trace.run, h₁, h₂, h₃, h₄, h₅, h₆, h₇, h₈, Option.bind_some]
  · intro i hi
    rw [hcalls]
    simp only [s₇, s₆, s₅, s₄, s₃, s₂, s₁, go, goto, rUnlock, rLock, send, update_of_ne _ _ hi]

theorem clear_passes_round : ∃ events u v s,
    run sampleConfig (Store.opened emptyDatabase) events = some s ∧
    Trace.Passes (step sampleConfig) (Store.opened emptyDatabase) events s u v ∧ Leaves u v s 1 ∧
    u.admissions 0 = some 0 := by
  obtain ⟨s₀, hrun₀, hs₀⟩ : ∃ s₀, run sampleConfig (Store.opened emptyDatabase)
      [.invoke 0 (.capture sampleProvider sampleTime), .caller 0 false] = some s₀ ∧
      Suspended s₀ 0 := by
    refine ⟨_, rfl, rfl, rfl, ?_, ?_, rfl, rfl, rfl, rfl, rfl, rfl, rfl, rfl⟩
    · intro i hi hn
      omega
    · intro i hi
      show update (update _ 0 _) 0 _ i = none
      rw [update_of_ne _ _ (by omega), update_of_ne _ _ (by omega)]
      rfl
  obtain ⟨u, v, s₁, hu, hv, hs₁, hadvances, hsuspended⟩ := hs₀.clear
  obtain ⟨events, s₂, hs₂, hround⟩ := hsuspended.clears (2 ^ 64 - 1)
  obtain ⟨s, hs, hcalls, hrows⟩ := hround.records rfl
  have hbefore := Trace.run_append_of_run hrun₀ hu
  have hafter := Trace.run_append_of_run (Trace.run_append_of_run hs₁ hs₂) hs
  refine ⟨_, u, v, s, Trace.run_append_of_run hbefore (Trace.run_cons.mpr ⟨v, hv, hafter⟩),
    ⟨_, work, _, rfl, hbefore, hv, hafter⟩, ⟨hadvances, ?_, hrows⟩, ?_⟩
  · rw [hcalls 1 (by decide)]
    exact hround.returned 1 (by decide) (by decide)
  · have hordered : Ordered s₀ := (ordered_opened emptyDatabase).run hrun₀
    exact (hordered.run_grows hu).admissions 0 0 hs₀.admission

/-- Captures that were called, and even admitted, before a `Clear` and write a row after it. -/
theorem clear_passes_captures :
    (∃ events u v s, run sampleConfig (Store.opened emptyDatabase) events = some s ∧
      Trace.Passes (step sampleConfig) (Store.opened emptyDatabase) events s u v ∧
      Leaves u v s 1 ∧ u.calls 0 = some (.capture sampleProvider sampleTime .invoked)) ∧
    ∃ events u v s, run sampleConfig (Store.opened emptyDatabase) events = some s ∧
      Trace.Passes (step sampleConfig) (Store.opened emptyDatabase) events s u v ∧
      Leaves u v s 1 ∧ u.admissions 0 = some 0 :=
  ⟨clear_passes_call, clear_passes_round⟩

end Store

end RlcdDeck.History
