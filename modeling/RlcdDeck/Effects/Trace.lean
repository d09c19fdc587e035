import Mathlib.Data.List.Basic

/-!
# Runs of a state machine

A machine given by a partial function `step`: the state after an event, `none` when the event
cannot happen.  `run` takes a list of events.  What every step keeps, every run keeps
(`run_invariant`), and a condition that does not hold at the start of a run and holds at its end
becomes true in one of its steps (`exists_passes`).
-/

namespace RlcdDeck.Effects.Trace

variable {σ ε : Type} {step : σ → ε → Option σ}

/-- The state after a list of events. -/
def run (step : σ → ε → Option σ) (s : σ) : List ε → Option σ
  | [] => some s
  | event :: events => (step s event).bind fun t => run step t events

theorem run_cons {s t : σ} {event : ε} {events : List ε} :
    run step s (event :: events) = some t ↔
      ∃ u, step s event = some u ∧ run step u events = some t := by
  rw [run, Option.bind_eq_some_iff]

theorem run_append (s : σ) (before after : List ε) :
    run step s (before ++ after) = (run step s before).bind fun t => run step t after := by
  induction before generalizing s with
  | nil => rfl
  | cons event before ih =>
    rw [List.cons_append, run, run, Option.bind_assoc]
    congr
    funext t
    exact ih t

theorem run_append_of_run {s t u : σ} {before after : List ε} (hbefore : run step s before = some t)
    (hafter : run step t after = some u) : run step s (before ++ after) = some u := by
  rw [run_append, hbefore]
  exact hafter

/-! ### What a run keeps -/

theorem run_invariant {I : σ → Prop} (hstep : ∀ s event t, I s → step s event = some t → I t)
    {s t : σ} {events : List ε} (hs : I s) (hrun : run step s events = some t) : I t := by
  induction events generalizing s with
  | nil =>
    obtain rfl := Option.some.inj hrun
    exact hs
  | cons event events ih =>
    obtain ⟨u, hu, hrun⟩ := run_cons.mp hrun
    exact ih (hstep s event u hs hu) hrun

/-- A preorder that every step from a state with `I` goes up in. -/
theorem run_mono {I : σ → Prop} {R : σ → σ → Prop} (hrefl : ∀ s, R s s)
    (htrans : ∀ s t u, R s t → R t u → R s u)
    (hinv : ∀ s event t, I s → step s event = some t → I t)
    (hstep : ∀ s event t, I s → step s event = some t → R s t)
    {s t : σ} {events : List ε} (hs : I s) (hrun : run step s events = some t) : R s t := by
  induction events generalizing s with
  | nil =>
    obtain rfl := Option.some.inj hrun
    exact hrefl s
  | cons event events ih =>
    obtain ⟨u, hu, hrun⟩ := run_cons.mp hrun
    exact htrans s u t (hstep s event u hs hu) (ih (hinv s event u hs hu) hrun)

/-! ### Runs under a condition -/

/-- Every step of the run satisfies `P`. -/
def Along (step : σ → ε → Option σ) (P : σ → ε → Prop) (s : σ) : List ε → Prop
  | [] => True
  | event :: events => P s event ∧ ∀ t, step s event = some t → Along step P t events

theorem run_invariant_along {P : σ → ε → Prop} {I : σ → Prop}
    (hstep : ∀ s event t, P s event → I s → step s event = some t → I t) {s t : σ}
    {events : List ε} (hs : I s) (hrun : run step s events = some t)
    (halong : Along step P s events) : I t := by
  induction events generalizing s with
  | nil =>
    obtain rfl := Option.some.inj hrun
    exact hs
  | cons event events ih =>
    obtain ⟨u, hu, hrest⟩ := run_cons.mp hrun
    exact ih (hstep s event u halong.1 hs hu) hrest (halong.2 u hu)

theorem along_append {P : σ → ε → Prop} {s t : σ} {before after : List ε}
    (hbefore : run step s before = some t) (h : Along step P s (before ++ after)) :
    Along step P s before ∧ Along step P t after := by
  induction before generalizing s with
  | nil =>
    obtain rfl := Option.some.inj hbefore
    exact ⟨trivial, h⟩
  | cons event before ih =>
    obtain ⟨u, hu, hrest⟩ := run_cons.mp hbefore
    obtain ⟨-, hafter⟩ := ih hrest (h.2 u hu)
    refine ⟨⟨h.1, fun v hv => ?_⟩, hafter⟩
    obtain rfl := Option.some.inj (hu.symm.trans hv)
    exact (ih hrest (h.2 u hu)).1

/-! ### The steps of a run -/

/-- The run from `s` by `events` to `t` goes from `u` to `v` in one of its steps. -/
def Passes (step : σ → ε → Option σ) (s : σ) (events : List ε) (t u v : σ) : Prop :=
  ∃ before event after, events = before ++ event :: after ∧ run step s before = some u ∧
    step u event = some v ∧ run step v after = some t

theorem Passes.before {s t u v : σ} {events : List ε} (h : Passes step s events t u v) :
    ∃ before, run step s before = some u := by
  obtain ⟨before, _, _, _, hbefore, _⟩ := h
  exact ⟨before, hbefore⟩

theorem Passes.after {s t u v : σ} {events : List ε} (h : Passes step s events t u v) :
    ∃ event after, step u event = some v ∧ run step v after = some t := by
  obtain ⟨_, event, after, _, _, hevent, hafter⟩ := h
  exact ⟨event, after, hevent, hafter⟩

theorem Passes.cons {s t u v w : σ} {event : ε} {events : List ε}
    (h : Passes step s events t u v) (hevent : step w event = some s) :
    Passes step w (event :: events) t u v := by
  obtain ⟨before, e, after, rfl, hbefore, he, hafter⟩ := h
  exact ⟨event :: before, e, after, rfl, run_cons.mpr ⟨s, hevent, hbefore⟩, he, hafter⟩

theorem Passes.append {s t u v w : σ} {before after : List ε} (h : Passes step s before t u v)
    (hafter : run step t after = some w) : Passes step s (before ++ after) w u v := by
  obtain ⟨first, event, rest, rfl, hfirst, hevent, hrest⟩ := h
  refine ⟨first, event, rest ++ after, ?_, hfirst, hevent, run_append_of_run hrest hafter⟩
  rw [List.append_assoc, List.cons_append]

theorem exists_passes {Q : σ → Prop} {s t : σ} {events : List ε} (hs : ¬Q s) (ht : Q t)
    (hrun : run step s events = some t) :
    ∃ u v, Passes step s events t u v ∧ ¬Q u ∧ Q v := by
  induction events generalizing s with
  | nil =>
    obtain rfl := Option.some.inj hrun
    exact absurd ht hs
  | cons event events ih =>
    obtain ⟨v, hv, hrest⟩ := run_cons.mp hrun
    by_cases hq : Q v
    · exact ⟨s, v, ⟨[], event, events, rfl, rfl, hv, hrest⟩, hs, hq⟩
    · obtain ⟨u, w, hpasses, hu, hw⟩ := ih hq hrest
      exact ⟨u, w, hpasses.cons hv, hu, hw⟩

theorem Passes.earlier {Q : σ → Prop} {s t u v : σ} {events : List ε}
    (h : Passes step s events t u v) (hs : ¬Q s) (hu : Q u) :
    ∃ u' v', Passes step s events t u' v' ∧ ¬Q u' ∧ Q v' := by
  obtain ⟨before, event, after, rfl, hbefore, hevent, hafter⟩ := h
  obtain ⟨u', v', hpasses, hu', hv'⟩ := exists_passes hs hu hbefore
  exact ⟨u', v', hpasses.append (run_cons.mpr ⟨v, hevent, hafter⟩), hu', hv'⟩

/-- A condition that every step with `P` keeps holds before and after each step of a run. -/
theorem Passes.along {P : σ → ε → Prop} {I : σ → Prop}
    (hstep : ∀ s event t, P s event → I s → step s event = some t → I t) {s t u v : σ}
    {events : List ε} (h : Passes step s events t u v) (hs : I s) (halong : Along step P s events) :
    I u ∧ I v := by
  obtain ⟨before, event, after, rfl, hbefore, hevent, -⟩ := h
  obtain ⟨hfirst, hrest⟩ := along_append hbefore halong
  have hu := run_invariant_along hstep hs hbefore hfirst
  exact ⟨hu, hstep u event v hrest.1 hu hevent⟩

/-! ### Runs that are computed -/

theorem exists_passes_of_any {s : σ} (before : List ε) (event : ε) (after : List ε)
    (P : σ → σ → σ → Bool)
    (h : ((run step s before).any fun u => (step u event).any fun v =>
      (run step v after).any fun t => P u v t) = true) :
    ∃ u v t, run step s (before ++ event :: after) = some t ∧
      Passes step s (before ++ event :: after) t u v ∧ P u v t = true := by
  obtain ⟨u, hu, h⟩ := (Option.any_eq_true _ _).mp h
  obtain ⟨v, hv, h⟩ := (Option.any_eq_true _ _).mp h
  obtain ⟨t, ht, h⟩ := (Option.any_eq_true _ _).mp h
  refine ⟨u, v, t, ?_, ⟨before, event, after, rfl, hu, hv, ht⟩, h⟩
  exact run_append_of_run hu (run_cons.mpr ⟨v, hv, ht⟩)

/-- `Along`, as a computation. -/
def checkAlong (step : σ → ε → Option σ) (P : σ → ε → Prop) [∀ s event, Decidable (P s event)]
    (s : σ) : List ε → Bool
  | [] => true
  | event :: events =>
    decide (P s event) && (step s event).all fun t => checkAlong step P t events

theorem along_of_check {P : σ → ε → Prop} [∀ s event, Decidable (P s event)] {s : σ}
    {events : List ε} (h : checkAlong step P s events = true) : Along step P s events := by
  induction events generalizing s with
  | nil => trivial
  | cons event events ih =>
    rw [checkAlong, Bool.and_eq_true] at h
    refine ⟨of_decide_eq_true h.1, fun t ht => ih ?_⟩
    rw [ht] at h
    exact h.2

end RlcdDeck.Effects.Trace
