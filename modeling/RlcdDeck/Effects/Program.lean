import Mathlib.Tactic.Ring

/-!
# Programs with external calls

`Program Op Res α` is a computation that makes external calls: a call `op` is answered by some
value of `Res op`, and the computation goes on from there.  What may be answered, and how the
world changes, is a relation `step`, so a call can fail in any way the relation allows.

`Exec` is the execution in such a world; it may be cut off before any call or at the end, with
the outcome `none`.  `wp` is the weakest precondition with two postconditions, one for the
result and one for the world at every point where the execution may be cut off; `Exec.sound`
connects the two.  `total` also asks that every call can be answered, so that an execution that is
not cut off gives a result.  `Program.run` executes with a given answer to each call.
-/

namespace RlcdDeck.Effects

/-- A computation over the external calls `Op`. -/
inductive Program (Op : Type) (Res : Op → Type) (α : Type) where
  | ret (a : α)
  | call (op : Op) (k : Res op → Program Op Res α)

namespace Program

variable {Op : Type} {Res : Op → Type} {α β σ : Type}

def bind : Program Op Res α → (α → Program Op Res β) → Program Op Res β
  | ret a, f => f a
  | call op k, f => call op fun r => bind (k r) f

instance : Monad (Program Op Res) where
  pure := ret
  bind := bind

/-- One external call. -/
def perform (op : Op) : Program Op Res (Res op) :=
  call op ret

/-! ### Executions -/

/-- `p` executed from `s` ends in `s'`, with its result or cut off. -/
inductive Exec (step : σ → (op : Op) → Res op → σ → Prop) :
    Program Op Res α → σ → Option α → σ → Prop where
  | ret {a : α} {s : σ} : Exec step (ret a) s (some a) s
  | call {op : Op} {k : Res op → Program Op Res α} {s s' s'' : σ} {r : Res op}
      {out : Option α} : step s op r s' → Exec step (k r) s' out s'' →
      Exec step (call op k) s out s''
  | cut {p : Program Op Res α} {s : σ} : Exec step p s none s

/-- The weakest precondition: `post` holds of the result, and `cut` of the world at every point
of the execution. -/
def wp (step : σ → (op : Op) → Res op → σ → Prop) (post : α → σ → Prop) (cut : σ → Prop) :
    Program Op Res α → σ → Prop
  | ret a, s => cut s ∧ post a s
  | call op k, s => cut s ∧ ∀ r s', step s op r s' → wp step post cut (k r) s'

section Rules

variable {step : σ → (op : Op) → Res op → σ → Prop} {post : α → σ → Prop} {cut : σ → Prop}

/-- **Soundness**: an execution ends as the weakest precondition says. -/
theorem Exec.sound {p : Program Op Res α} {s s' : σ} {out : Option α}
    (hexec : Exec step p s out s') (h : p.wp step post cut s) :
    out.elim (cut s') fun a => post a s' := by
  induction hexec with
  | ret => exact h.2
  | call hstep _ ih => exact ih (h.2 _ _ hstep)
  | @cut p s =>
    cases p with
    | ret a => exact h.1
    | call op k => exact h.1

theorem wp_cut {p : Program Op Res α} {s : σ} (h : p.wp step post cut s) : cut s := by
  cases p with
  | ret a => exact h.1
  | call op k => exact h.1

theorem wp_pure {a : α} {s : σ} (hcut : cut s) (hpost : post a s) :
    wp step post cut (pure a : Program Op Res α) s :=
  ⟨hcut, hpost⟩

theorem wp_mono {p : Program Op Res α} {s : σ} {post' : α → σ → Prop} {cut' : σ → Prop}
    (h : p.wp step post cut s) (hcut : ∀ s, cut s → cut' s)
    (hpost : ∀ a s, post a s → post' a s) : p.wp step post' cut' s := by
  induction p generalizing s with
  | ret a => exact ⟨hcut _ h.1, hpost _ _ h.2⟩
  | call op k ih => exact ⟨hcut _ h.1, fun r s' hstep => ih r (h.2 r s' hstep)⟩

theorem wp_bind {p : Program Op Res α} {f : α → Program Op Res β} {post : β → σ → Prop} {s : σ}
    (h : p.wp step (fun a s => (f a).wp step post cut s) cut s) :
    (p >>= f).wp step post cut s := by
  induction p generalizing s with
  | ret a => exact h.2
  | call op k ih => exact ⟨h.1, fun r s' hstep => ih r (h.2 r s' hstep)⟩

theorem wp_perform {op : Op} {f : Res op → Program Op Res β} {post : β → σ → Prop} {s : σ}
    (hcut : cut s) (h : ∀ r s', step s op r s' → (f r).wp step post cut s') :
    (perform op >>= f).wp step post cut s :=
  ⟨hcut, h⟩

end Rules

/-! ### Every call is answered -/

/-- Every call is answered, and `post` holds of the result whatever the answers are. -/
def total (step : σ → (op : Op) → Res op → σ → Prop) (post : α → σ → Prop) :
    Program Op Res α → σ → Prop
  | ret a, s => post a s
  | call op k, s => (∃ r s', step s op r s') ∧ ∀ r s', step s op r s' → total step post (k r) s'

section Total

variable {step : σ → (op : Op) → Res op → σ → Prop} {post : α → σ → Prop}

theorem total_pure {a : α} {s : σ} (h : post a s) :
    total step post (pure a : Program Op Res α) s :=
  h

theorem total_mono {p : Program Op Res α} {s : σ} {post' : α → σ → Prop}
    (h : p.total step post s) (hpost : ∀ a s, post a s → post' a s) : p.total step post' s := by
  induction p generalizing s with
  | ret a => exact hpost a s h
  | call op k ih => exact ⟨h.1, fun r s' hstep => ih r (h.2 r s' hstep)⟩

theorem total_bind {p : Program Op Res α} {f : α → Program Op Res β} {post : β → σ → Prop} {s : σ}
    (h : p.total step (fun a s => (f a).total step post s) s) : (p >>= f).total step post s := by
  induction p generalizing s with
  | ret a => exact h
  | call op k ih => exact ⟨h.1, fun r s' hstep => ih r (h.2 r s' hstep)⟩

theorem total_perform {op : Op} {f : Res op → Program Op Res β} {post : β → σ → Prop} {s : σ}
    (hanswer : ∃ r s', step s op r s')
    (h : ∀ r s', step s op r s' → (f r).total step post s') :
    (perform op >>= f).total step post s :=
  ⟨hanswer, h⟩

theorem total_and {p : Program Op Res α} {s : σ} {post' : α → σ → Prop}
    (h : p.total step post s) (h' : p.total step post' s) : ∃ a s', post a s' ∧ post' a s' := by
  induction p generalizing s with
  | ret a => exact ⟨a, s, h, h'⟩
  | call op k ih =>
    obtain ⟨⟨r, s', hstep⟩, hall⟩ := h
    exact ih r (hall r s' hstep) (h'.2 r s' hstep)

end Total

/-! ### Given answers -/

/-- Executes with the answers and effects of `answer`. -/
def run (answer : σ → (op : Op) → Res op × σ) : Program Op Res α → σ → α × σ
  | ret a, s => (a, s)
  | call op k, s => run answer (k (answer s op).1) (answer s op).2

theorem run_bind (answer : σ → (op : Op) → Res op × σ) (p : Program Op Res α)
    (f : α → Program Op Res β) (s : σ) :
    (p >>= f).run answer s = (f (p.run answer s).1).run answer (p.run answer s).2 := by
  induction p generalizing s with
  | ret a => rfl
  | call op k ih => exact ih _ _

theorem run_pure (answer : σ → (op : Op) → Res op × σ) (a : α) (s : σ) :
    (pure a : Program Op Res α).run answer s = (a, s) := rfl

theorem Exec.of_run {step : σ → (op : Op) → Res op → σ → Prop}
    {answer : σ → (op : Op) → Res op × σ}
    (hanswer : ∀ s op, step s op (answer s op).1 (answer s op).2) (p : Program Op Res α) (s : σ) :
    Exec step p s (some (p.run answer s).1) (p.run answer s).2 := by
  induction p generalizing s with
  | ret a => exact .ret
  | call op k ih => exact .call (hanswer s op) (ih _ _)

end Program

end RlcdDeck.Effects
