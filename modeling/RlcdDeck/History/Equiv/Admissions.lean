import Mathlib.Data.List.Nodup
import RlcdDeck.History.Equiv.Steps

/-!
# Admissions and commands

Two invariants of the history store.  `Ordered`: the generation is the count of its advances, and
the generation that a capture carries is the one of the epoch in which it was admitted.
`Tracked`: a command in the queue, or at the writer, is the one of the call that sent it, and a
call that returns `nil` was answered so.
-/

namespace RlcdDeck.History

open Effects

variable {command : Command}

namespace Store

variable {config : Config} {s s' : Store}

/-! ### Admissions -/

/-- The capture `id` read the generation `g`. -/
def Admitted (s : Store) (id : ℕ) (g : UInt64) : Prop :=
  ∃ n ≤ s.epoch, s.admissions id = some n ∧ g = UInt64.ofNat n

/-- Every generation that a capture carries is the one of its admission. -/
structure Ordered (s : Store) : Prop where
  generation : s.generation = UInt64.ofNat s.epoch
  carried : ∀ id p t point g, s.calls id = some (.capture p t point) →
    point.generation = some g → s.Admitted id g
  queued : ∀ id p t g, .capture id p t g ∈ s.commands → s.Admitted id g
  executing : ∀ id p t g, s.writer = .executing (.capture id p t g) → s.Admitted id g
  begun : ∀ id n, s.admissions id = some n →
    n ≤ s.epoch ∧ ∃ p t point, s.calls id = some (.capture p t point) ∧ point ≠ .invoked

/-- The counts only go up, and an admission stays. -/
structure Grows (s s' : Store) : Prop where
  epoch : s.epoch ≤ s'.epoch
  admissions : ∀ id n, s.admissions id = some n → s'.admissions id = some n

theorem Grows.refl (s : Store) : Grows s s := ⟨Nat.le_refl _, fun _ _ h => h⟩

theorem Grows.trans {t : Store} (h : Grows s s') (h' : Grows s' t) : Grows s t :=
  ⟨Nat.le_trans h.epoch h'.epoch, fun id n hn => h'.admissions id n (h.admissions id n hn)⟩

theorem Admitted.grows {id : ℕ} {g : UInt64} (h : s.Admitted id g) (hgrows : Grows s s') :
    s'.Admitted id g := by
  obtain ⟨n, hn, hadmission, hg⟩ := h
  exact ⟨n, Nat.le_trans hn hgrows.epoch, hgrows.admissions id n hadmission, hg⟩

theorem ordered_opened (db : Database) : Ordered (Store.opened db) where
  generation := rfl
  carried := fun _ _ _ _ _ h => nomatch (h : none = some _)
  queued := fun _ _ _ _ h => nomatch (h : _ ∈ [])
  executing := fun _ _ _ _ h => nomatch (h : Writer.polling = _)
  begun := fun _ _ h => nomatch (h : none = some _)

/-- The step of a caller. -/
theorem Ordered.moves (hs : Ordered s) {id : ℕ} {call call' : Call} {x : Store}
    (hcall : s.calls id = some call) (h : Moves config s id call x call') :
    Grows s (x.goto id call') ∧ Ordered (x.goto id call') := by
  obtain ⟨-, -, hgeneration, hepoch, hwriter, -, -, -, hcalls⟩ := h.shared
  have hgrows : Grows s (x.goto id call') := by
    refine ⟨Nat.le_of_eq hepoch.symm, ?_⟩
    intro i n hn
    rcases h.admissions with hsame | ⟨⟨p, t, rfl, -⟩, hnew⟩
    · exact (congrFun hsame i).trans hn
    · -- the call is still at its first statement, so it is not the one of `i`
      obtain ⟨-, p', t', point, hi, hpoint⟩ := hs.begun i n hn
      have hne : i ≠ id := by
        rintro rfl
        rw [hcall] at hi
        cases hi
        exact hpoint rfl
      exact (congrFun hnew i).trans ((update_of_ne _ _ hne).trans hn)
  refine ⟨hgrows, ?_, ?_, ?_, ?_, ?_⟩
  · exact hgeneration.trans (hs.generation.trans (congrArg _ hepoch.symm))
  · intro i p t point g hi hg
    by_cases hid : i = id
    · subst hid
      have heq : call' = .capture p t point :=
        Option.some.inj ((update_self _ _ _).symm.trans hi)
      subst heq
      rcases h.generation hg with ⟨-, rfl, hnew⟩ | ⟨point', rfl, hg'⟩
      · refine ⟨s.epoch, Nat.le_of_eq hepoch.symm, ?_, hs.generation⟩
        exact (congrFun hnew i).trans (update_self _ _ _)
      · exact (hs.carried i p t point' g hcall hg').grows hgrows
    · have hold : s.calls i = some (.capture p t point) :=
        (congrFun hcalls i).symm.trans ((update_of_ne _ _ hid).symm.trans hi)
      exact (hs.carried i p t point g hold hg).grows hgrows
  · intro i p t g hmem
    have hmem' : Command.capture i p t g ∈ x.commands := hmem
    rcases h.commands with hsame | ⟨command, hnew, hcommand⟩
    · rw [hsame] at hmem'
      exact (hs.queued i p t g hmem').grows hgrows
    · rw [hnew, List.mem_append, List.mem_singleton] at hmem'
      rcases hmem' with hmem' | rfl
      · exact (hs.queued i p t g hmem').grows hgrows
      · rcases hcommand with ⟨p', t', g', heq, rfl⟩ | ⟨kind, heq, -⟩ | ⟨heq, -⟩
        · cases heq
          exact (hs.carried _ _ _ _ _ hcall rfl).grows hgrows
        · cases heq
        · cases heq
  · intro i p t g hexecuting
    exact (hs.executing i p t g (hwriter.symm.trans hexecuting)).grows hgrows
  · intro i n hn
    by_cases hid : i = id
    · subst hid
      have hcapture : ∃ p t point, call = .capture p t point := by
        rcases h.admissions with hsame | ⟨⟨p, t, hinvoked, -⟩, -⟩
        · obtain ⟨-, p, t, point, hi, -⟩ := hs.begun i n ((congrFun hsame i).symm.trans hn)
          exact ⟨p, t, point, Option.some.inj (hcall.symm.trans hi)⟩
        · exact ⟨p, t, .invoked, hinvoked⟩
      obtain ⟨p, t, point, heq⟩ := hcapture
      obtain ⟨point', hcall', hpoint'⟩ := h.capture heq
      refine ⟨?_, p, t, point', (update_self _ _ _).trans (congrArg some hcall'), hpoint'⟩
      show n ≤ x.epoch
      rw [hepoch]
      rcases h.admissions with hsame | ⟨-, hnew⟩
      · exact (hs.begun i n ((congrFun hsame i).symm.trans hn)).1
      · have hlast : update s.admissions i (some s.epoch) i = some n :=
          (congrFun hnew i).symm.trans hn
        rw [update_self] at hlast
        exact Nat.le_of_eq (Option.some.inj hlast).symm
    · have hold : s.admissions i = some n := by
        rcases h.admissions with hsame | ⟨-, hnew⟩
        · exact (congrFun hsame i).symm.trans hn
        · exact (update_of_ne _ _ hid).symm.trans ((congrFun hnew i).symm.trans hn)
      obtain ⟨hle, p, t, point, hi, hpoint⟩ := hs.begun i n hold
      exact ⟨Nat.le_trans hle hgrows.epoch, p, t, point,
        (update_of_ne _ _ hid).trans ((congrFun hcalls i).trans hi), hpoint⟩

/-- The step of the writer. -/
theorem Ordered.works (hs : Ordered s) {tick : Bool} {now : Time} {fault : Fault}
    (h : Works config s tick now fault s') : Grows s s' ∧ Ordered s' := by
  obtain ⟨hcalls, hadmissions⟩ := h.callers
  have hgrows : Grows s s' := by
    refine ⟨?_, fun id n hn => (congrFun hadmissions id).trans hn⟩
    rcases h.generation with ⟨-, hepoch⟩ | ⟨-, hepoch⟩ <;> omega
  refine ⟨hgrows, ?_, ?_, ?_, ?_, ?_⟩
  · rcases h.generation with ⟨hgeneration, hepoch⟩ | ⟨hgeneration, hepoch⟩
    · rw [hgeneration, hepoch, hs.generation]
    · rw [hgeneration, hepoch, hs.generation]
      exact (UInt64.ofNat_add s.epoch 1).symm
  · intro id p t point g hid hg
    exact (hs.carried id p t point g ((congrFun hcalls id).symm.trans hid) hg).grows hgrows
  · intro id p t g hmem
    rcases h.commands with ⟨hsame, -⟩ | ⟨command, hqueue, -⟩
    · exact (hs.queued id p t g (hsame ▸ hmem)).grows hgrows
    · exact (hs.queued id p t g (hqueue ▸ List.mem_cons_of_mem _ hmem)).grows hgrows
  · intro id p t g hexecuting
    rcases h.commands with ⟨-, hidle⟩ | ⟨command, hqueue, hwriter⟩
    · exact absurd hexecuting (hidle _)
    · obtain rfl : command = .capture id p t g := by
        rw [hwriter] at hexecuting
        exact Writer.executing.inj hexecuting
      exact (hs.queued id p t g (hqueue ▸ List.mem_cons_self)).grows hgrows
  · intro id n hn
    obtain ⟨hle, p, t, point, hid, hpoint⟩ :=
      hs.begun id n ((congrFun hadmissions id).symm.trans hn)
    exact ⟨Nat.le_trans hle hgrows.epoch, p, t, point, (congrFun hcalls id).trans hid, hpoint⟩

theorem Ordered.invoke (hs : Ordered s) {id : ℕ} {request : Request}
    (hid : s.calls id = none) :
    Grows s (s.goto id request.call) ∧ Ordered (s.goto id request.call) := by
  refine ⟨⟨Nat.le_refl _, fun _ _ h => h⟩, hs.generation, ?_, hs.queued, hs.executing, ?_⟩
  · intro i p t point g hi hg
    by_cases heq : i = id
    · subst heq
      have hcall : request.call = .capture p t point :=
        Option.some.inj ((update_self _ _ _).symm.trans hi)
      cases request <;> cases hcall
      cases hg
    · exact hs.carried i p t point g ((update_of_ne _ _ heq).symm.trans hi) hg
  · intro i n hn
    obtain ⟨hle, p, t, point, hi, hpoint⟩ := hs.begun i n hn
    have hne : i ≠ id := by
      rintro rfl
      rw [hid] at hi
      cases hi
    exact ⟨hle, p, t, point, (update_of_ne _ _ hne).trans hi, hpoint⟩

theorem Ordered.step (hs : Ordered s) {event : Event} (h : step config s event = some s') :
    Grows s s' ∧ Ordered s' := by
  cases event with
  | invoke id request =>
    obtain ⟨hid, h⟩ := Option.ite_none_right_eq_some.mp h
    obtain rfl := Option.some.inj h
    exact hs.invoke hid
  | caller id done =>
    obtain ⟨call, x, call', hcall, hmoves, rfl⟩ := callerStep_moves h
    exact hs.moves hcall hmoves
  | writer tick now fault => exact hs.works (writerStep_works h)

theorem Ordered.run (hs : Ordered s) {events : List Event} (h : run config s events = some s') :
    Ordered s' :=
  Trace.run_invariant (fun _ _ _ hu hstep => (hu.step hstep).2) hs h

theorem Ordered.run_grows (hs : Ordered s) {events : List Event}
    (h : Store.run config s events = some s') : Grows s s' :=
  Trace.run_mono Grows.refl (fun _ _ _ => Grows.trans) (fun _ _ _ hu hstep => (hu.step hstep).2)
    (fun _ _ _ hu hstep => (hu.step hstep).1) hs h

/-! ### Commands -/

/-- The command is the one of a call that sent it. -/
def Sent (s : Store) : Command → Prop
  | .capture id p t _ => ∃ point, s.calls id = some (.capture p t point) ∧
      (point = .leaving .queued ∨ point = .returned .queued)
  | .control id kind => ∃ point, s.calls id = some (.command kind point)
  | .close id => ∃ point, s.calls id = some (.close point)

/-- The commands are the ones of the calls that sent them, one each, and not answered yet. -/
structure Tracked (s : Store) : Prop where
  sent : ∀ command ∈ s.pending, s.Sent command
  nodup : (s.pending.map Command.caller).Nodup
  fresh : ∀ command ∈ s.pending,
    s.replies command.caller = none ∧ s.outcomes command.caller = none
  unsent : ∀ id, (∀ call, s.calls id = some call → call.unsent = true) →
    id ∉ s.pending.map Command.caller ∧ s.replies id = none ∧ s.outcomes id = none
  answered : ∀ id kind point, s.calls id = some (.command kind point) →
    point = .leaving none ∨ point = .returned none → s.replies id = some none

theorem tracked_opened (db : Database) : Tracked (Store.opened db) where
  sent := fun _ h => nomatch (h : _ ∈ [])
  nodup := .nil
  fresh := fun _ h => nomatch (h : _ ∈ [])
  unsent := fun _ _ => ⟨List.not_mem_nil, rfl, rfl⟩
  answered := fun _ _ _ h => nomatch (h : none = some _)

theorem Sent.congr (h : s.Sent command)
    (hcalls : s'.calls command.caller = s.calls command.caller) : s'.Sent command := by
  cases command with
  | capture id p t g =>
    obtain ⟨point, hid, hpoint⟩ := h
    exact ⟨point, hcalls.trans hid, hpoint⟩
  | control id kind =>
    obtain ⟨point, hid⟩ := h
    exact ⟨point, hcalls.trans hid⟩
  | close id =>
    obtain ⟨point, hid⟩ := h
    exact ⟨point, hcalls.trans hid⟩

theorem Sent.moves (h : s.Sent command) {id : ℕ} {call call' : Call} {x : Store}
    (hcall : s.calls id = some call) (hmoves : Moves config s id call x call') :
    (x.goto id call').Sent command := by
  by_cases hid : command.caller = id
  · subst hid
    have hnew : (x.goto command.caller call').calls command.caller = some call' := update_self _ _ _
    cases command with
    | capture id p t g =>
      obtain ⟨point, hpoint, hqueued⟩ := h
      obtain rfl := Option.some.inj (hcall.symm.trans hpoint)
      rcases hqueued with rfl | rfl
      · cases hmoves
        exact ⟨_, hnew, Or.inr rfl⟩
      · cases hmoves
    | control id kind =>
      obtain ⟨point, hpoint⟩ := h
      obtain rfl := Option.some.inj (hcall.symm.trans hpoint)
      obtain ⟨point', rfl⟩ := hmoves.command
      exact ⟨point', hnew⟩
    | close id =>
      obtain ⟨point, hpoint⟩ := h
      obtain rfl := Option.some.inj (hcall.symm.trans hpoint)
      obtain ⟨point', rfl⟩ := hmoves.close
      exact ⟨point', hnew⟩
  · refine h.congr ?_
    exact (update_of_ne _ _ hid).trans (congrFun hmoves.shared.calls _)

theorem Sent.send {id : ℕ} {call call' : Call} {x : Store} (hmoves : Moves config s id call x call')
    (hnew : x.commands = s.commands ++ [command]) :
    (x.goto id call').Sent command := by
  have hself : (x.goto id call').calls id = some call' := update_self _ _ _
  cases hmoves with
  | queue =>
    obtain rfl := List.singleton_inj.mp (List.append_cancel_left hnew)
    exact ⟨_, hself, Or.inl rfl⟩
  | commandSend =>
    obtain rfl := List.singleton_inj.mp (List.append_cancel_left hnew)
    exact ⟨_, hself⟩
  | closeSend =>
    obtain rfl := List.singleton_inj.mp (List.append_cancel_left hnew)
    exact ⟨_, hself⟩
  | _ => cases List.self_eq_append_right.mp hnew

theorem Tracked.moves (hs : Tracked s) {id : ℕ} {call call' : Call} {x : Store}
    (hcall : s.calls id = some call) (h : Moves config s id call x call') :
    Tracked (x.goto id call') := by
  have hshared := h.shared
  have hself : (x.goto id call').calls id = some call' := update_self _ _ _
  have hother : ∀ i, i ≠ id → (x.goto id call').calls i = s.calls i := fun i hi =>
    (update_of_ne _ _ hi).trans (congrFun hshared.calls i)
  -- what is known of a call that has not sent its command
  have hunsent : call.unsent = true →
      id ∉ s.pending.map Command.caller ∧ s.replies id = none ∧ s.outcomes id = none := by
    intro hcall'
    refine hs.unsent id fun other hother' => ?_
    obtain rfl := Option.some.inj (hcall.symm.trans hother')
    exact hcall'
  have hreplies : (x.goto id call').replies = s.replies := hshared.replies
  have houtcomes : (x.goto id call').outcomes = s.outcomes := hshared.outcomes
  have hpending : (x.goto id call').pending = x.pending := rfl
  have hsends : ∀ command, x.commands = s.commands ++ [command] →
      call.unsent = true ∧ call'.unsent = false := by
    intro command hnew
    refine h.unsent.2 ?_
    rw [hnew]
    simp
  refine ⟨?_, ?_, ?_, ?_, ?_⟩
  · intro command hmem
    rcases h.pending with hsame | ⟨new, hcommands, hnew, -⟩
    · exact (hs.sent command (hsame ▸ hmem)).moves hcall h
    · rcases List.mem_append.mp (hnew ▸ hmem) with hold | hlast
      · exact (hs.sent command hold).moves hcall h
      · obtain rfl := List.mem_singleton.mp hlast
        exact Sent.send h hcommands
  · rw [hpending]
    rcases h.pending with hsame | ⟨new, hcommands, hnew, hcaller⟩
    · rw [hsame]
      exact hs.nodup
    · rw [hnew, List.map_append, List.nodup_append]
      refine ⟨hs.nodup, List.nodup_singleton _, ?_⟩
      intro i hi j hj
      rw [List.map_singleton, List.mem_singleton, hcaller] at hj
      rintro rfl
      exact (hunsent (hsends new hcommands).1).1 (hj ▸ hi)
  · intro command hmem
    rw [hreplies, houtcomes]
    rcases h.pending with hsame | ⟨new, hcommands, hnew, hcaller⟩
    · exact hs.fresh command (hsame ▸ hmem)
    · rcases List.mem_append.mp (hnew ▸ hmem) with hold | hlast
      · exact hs.fresh command hold
      · obtain rfl := List.mem_singleton.mp hlast
        rw [hcaller]
        exact (hunsent (hsends command hcommands).1).2
  · intro i hi
    rw [hreplies, houtcomes, hpending]
    by_cases hid : i = id
    · subst hid
      have hcall' : call'.unsent = true := hi call' hself
      have hnone := hunsent (h.unsent.1 hcall')
      rcases h.pending with hsame | ⟨new, hcommands, -, -⟩
      · rw [hsame]
        exact hnone
      · exact absurd hcall' (Bool.eq_false_iff.mp (hsends new hcommands).2)
    · have hold := hs.unsent i fun other hother' => hi other ((hother i hid).trans hother')
      rcases h.pending with hsame | ⟨new, -, hnew, hcaller⟩
      · rw [hsame]
        exact hold
      · rw [hnew, List.map_append, List.mem_append, List.map_singleton, List.mem_singleton, hcaller]
        exact ⟨fun hmem => hmem.elim hold.1 hid, hold.2⟩
  · intro i kind point hi hpoint
    rw [hreplies]
    by_cases hid : i = id
    · subst hid
      obtain rfl := Option.some.inj (hself.symm.trans hi)
      -- `nil` comes from the answer only
      cases h with
      | commandReply reply =>
        rename_i error
        cases error with
        | none => exact reply
        | some error => rcases hpoint with hpoint | hpoint <;> cases hpoint
      | commandLeave =>
        rcases hpoint with hpoint | hpoint
        · cases hpoint
        · cases hpoint
          exact hs.answered i kind _ hcall (Or.inl rfl)
      | _ => rcases hpoint with hpoint | hpoint <;> cases hpoint
    · exact hs.answered i kind point ((hother i hid).symm.trans hi) hpoint

theorem Tracked.works (hs : Tracked s) {tick : Bool} {now : Time} {fault : Fault}
    (h : Works config s tick now fault s') : Tracked s' := by
  obtain ⟨hcalls, -⟩ := h.callers
  rcases h.pending with ⟨hpending, hreplies, houtcomes⟩ | ⟨command, -, hpending, hothers, -⟩
  · refine ⟨?_, ?_, ?_, ?_, ?_⟩
    · intro command hmem
      exact (hs.sent command (hpending ▸ hmem)).congr (congrFun hcalls _)
    · rw [hpending]
      exact hs.nodup
    · intro command hmem
      rw [hreplies, houtcomes]
      exact hs.fresh command (hpending ▸ hmem)
    · intro id hid
      rw [hreplies, houtcomes, hpending]
      exact hs.unsent id fun call hcall => hid call ((congrFun hcalls id).trans hcall)
    · intro id kind point hid hpoint
      rw [hreplies]
      exact hs.answered id kind point ((congrFun hcalls id).symm.trans hid) hpoint
  · -- the first command is done; the others are not touched
    have hnodup := hs.nodup
    rw [hpending, List.map_cons, List.nodup_cons] at hnodup
    have hne : ∀ id, id ∈ s'.pending.map Command.caller → id ≠ command.caller := by
      rintro id hmem rfl
      exact hnodup.1 hmem
    have hmem' : ∀ other ∈ s'.pending, other ∈ s.pending := fun other hmem =>
      hpending ▸ List.mem_cons_of_mem _ hmem
    refine ⟨?_, hnodup.2, ?_, ?_, ?_⟩
    · intro other hmem
      exact (hs.sent other (hmem' other hmem)).congr (congrFun hcalls _)
    · intro other hmem
      obtain ⟨hreply, houtcome⟩ := hothers _ (hne _ (List.mem_map_of_mem hmem))
      rw [hreply, houtcome]
      exact hs.fresh other (hmem' other hmem)
    · intro id hid
      have hold := hs.unsent id fun call hcall => hid call ((congrFun hcalls id).trans hcall)
      rw [hpending, List.map_cons, List.mem_cons, not_or] at hold
      obtain ⟨hreply, houtcome⟩ := hothers id hold.1.1
      rw [hreply, houtcome]
      exact ⟨hold.1.2, hold.2⟩
    · intro id kind point hid hpoint
      have hreply := hs.answered id kind point ((congrFun hcalls id).symm.trans hid) hpoint
      have hid' : id ≠ command.caller := by
        rintro rfl
        rw [(hs.fresh command (hpending ▸ List.mem_cons_self)).1] at hreply
        cases hreply
      rw [(hothers id hid').1]
      exact hreply

theorem Tracked.invoke (hs : Tracked s) {id : ℕ} {request : Request} (hid : s.calls id = none) :
    Tracked (s.goto id request.call) := by
  have hself : (s.goto id request.call).calls id = some request.call := update_self _ _ _
  have hother : ∀ i, i ≠ id → (s.goto id request.call).calls i = s.calls i := fun i hi =>
    update_of_ne _ _ hi
  have hidle := hs.unsent id fun call hcall => nomatch hid.symm.trans hcall
  refine ⟨?_, hs.nodup, hs.fresh, ?_, ?_⟩
  · intro command hmem
    refine (hs.sent command hmem).congr (hother _ ?_)
    rintro rfl
    exact hidle.1 (List.mem_map_of_mem hmem)
  · intro i hi
    by_cases heq : i = id
    · exact heq ▸ hidle
    · exact hs.unsent i fun call hcall => hi call ((hother i heq).trans hcall)
  · intro i kind point hi hpoint
    by_cases heq : i = id
    · subst heq
      have hcall := Option.some.inj (hself.symm.trans hi)
      cases request <;> cases hcall
      rcases hpoint with hpoint | hpoint <;> cases hpoint
    · exact hs.answered i kind point ((hother i heq).symm.trans hi) hpoint

theorem Tracked.step (hs : Tracked s) {event : Event} (h : step config s event = some s') :
    Tracked s' := by
  cases event with
  | invoke id request =>
    obtain ⟨hid, h⟩ := Option.ite_none_right_eq_some.mp h
    obtain rfl := Option.some.inj h
    exact hs.invoke hid
  | caller id done =>
    obtain ⟨call, x, call', hcall, hmoves, rfl⟩ := callerStep_moves h
    exact hs.moves hcall hmoves
  | writer tick now fault => exact hs.works (writerStep_works h)

theorem Tracked.run (hs : Tracked s) {events : List Event}
    (h : Store.run config s events = some s') : Tracked s' :=
  Trace.run_invariant (fun _ _ _ hu hstep => hu.step hstep) hs h

theorem Sent.step (h : s.Sent command) {event : Event} (hstep : step config s event = some s') :
    s'.Sent command := by
  cases event with
  | invoke id request =>
    obtain ⟨hid, hstep⟩ := Option.ite_none_right_eq_some.mp hstep
    obtain rfl := Option.some.inj hstep
    refine h.congr (update_of_ne _ _ ?_)
    rintro rfl
    cases command with
    | capture id p t g =>
      obtain ⟨point, hpoint, -⟩ := h
      exact nomatch hid.symm.trans hpoint
    | control id kind =>
      obtain ⟨point, hpoint⟩ := h
      exact nomatch hid.symm.trans hpoint
    | close id =>
      obtain ⟨point, hpoint⟩ := h
      exact nomatch hid.symm.trans hpoint
  | caller id done =>
    obtain ⟨call, x, call', hcall, hmoves, rfl⟩ := callerStep_moves hstep
    exact h.moves hcall hmoves
  | writer tick now fault => exact h.congr (congrFun (writerStep_works hstep).callers.1 _)

theorem Sent.run (h : s.Sent command) {events : List Event}
    (hrun : Store.run config s events = some s') : s'.Sent command :=
  Trace.run_invariant (I := fun s => s.Sent command) (fun _ _ _ hu hstep => hu.step hstep) h hrun

end Store

end RlcdDeck.History
