import Mathlib.Logic.Relation
import RlcdDeck.Effects.Program

/-!
# Programs under interference

A program that shares its world with others: before each of its calls the others take any number of
steps.  `after rely step` is the relation `step` with these steps in front, so that the rules of
`wp` hold as they are.

A condition carries from one call to the next when it is `Stable`, that is, when the others keep it.
`wp_others` and `wp_own` are what an interleaved execution needs: a weakest precondition survives a
step of the others, and is the one of what is left after a call.
-/

namespace RlcdDeck.Effects.Program

open Relation (ReflTransGen)

variable {Op : Type} {Res : Op → Type} {α β σ : Type}

/-! ### Interference -/

section Interference

variable {rely : σ → σ → Prop} {step : σ → (op : Op) → Res op → σ → Prop} {cut : σ → Prop}

/-- A call after any number of steps of the others. -/
def after (rely : σ → σ → Prop) (step : σ → (op : Op) → Res op → σ → Prop) :
    σ → (op : Op) → Res op → σ → Prop :=
  fun s op r s' => ∃ t, ReflTransGen rely s t ∧ step t op r s'

/-- The others keep a condition. -/
def Stable (rely : σ → σ → Prop) (P : σ → Prop) : Prop :=
  ∀ s t, P s → rely s t → P t

theorem Stable.trans {P : σ → Prop} (h : Stable rely P) {s t : σ} (hs : P s)
    (hsteps : ReflTransGen rely s t) : P t := by
  induction hsteps with
  | refl => exact hs
  | tail _ hstep ih => exact h _ _ ih hstep

theorem Stable.and {P Q : σ → Prop} (hP : Stable rely P) (hQ : Stable rely Q) :
    Stable rely fun s => P s ∧ Q s :=
  fun s t h hstep => ⟨hP s t h.1 hstep, hQ s t h.2 hstep⟩

theorem wp_others {post : α → σ → Prop} {p : Program Op Res α} {s t : σ}
    (hcut : Stable rely cut) (hpost : ∀ a, Stable rely (post a))
    (h : p.wp (after rely step) post cut s) (hstep : rely s t) :
    p.wp (after rely step) post cut t := by
  cases p with
  | ret a => exact ⟨hcut s t h.1 hstep, hpost a s t h.2 hstep⟩
  | call op k =>
    refine ⟨hcut s t h.1 hstep, ?_⟩
    rintro r s' ⟨u, hsteps, hcall⟩
    exact h.2 r s' ⟨u, hsteps.head hstep, hcall⟩

theorem wp_own {post : α → σ → Prop} {op : Op} {k : Res op → Program Op Res α} {s s' : σ}
    {r : Res op} (h : (call op k).wp (after rely step) post cut s) (hstep : step s op r s') :
    (k r).wp (after rely step) post cut s' :=
  h.2 r s' ⟨s, .refl, hstep⟩

theorem wp_of_after {post : α → σ → Prop} {p : Program Op Res α} {s : σ}
    (h : p.wp (after rely step) post cut s) : p.wp step post cut s := by
  induction p generalizing s with
  | ret a => exact h
  | call op k ih => exact ⟨h.1, fun r s' hstep => ih r (wp_own h hstep)⟩

theorem wp_perform_stable {P : σ → Prop} {op : Op} {f : Res op → Program Op Res β}
    {post : β → σ → Prop} {s : σ} (hstable : Stable rely P) (hcut : ∀ s, P s → cut s) (hs : P s)
    (h : ∀ s r s', P s → step s op r s' → (f r).wp (after rely step) post cut s') :
    (perform op >>= f).wp (after rely step) post cut s := by
  refine wp_perform (hcut s hs) ?_
  rintro r s' ⟨t, hsteps, hcall⟩
  exact h t r s' (hstable.trans hs hsteps) hcall

end Interference

/-! ### Results that do not depend on the answers -/

/-- Every result of a program, whatever its calls are answered. -/
abbrev Returns (Q : α → Prop) (p : Program Op Res α) : Prop :=
  p.wp (fun _ _ _ _ => True) (fun a (_ : Unit) => Q a) (fun _ => True) ()

theorem returns_pure {Q : α → Prop} {a : α} (h : Q a) :
    (pure a : Program Op Res α).Returns Q := ⟨trivial, h⟩

theorem returns_perform {Q : β → Prop} {op : Op} {f : Res op → Program Op Res β}
    (h : ∀ r, (f r).Returns Q) : (perform op >>= f).Returns Q := ⟨trivial, fun r _ _ => h r⟩

theorem returns_of_forall {Q : α → Prop} (h : ∀ a, Q a) (p : Program Op Res α) : p.Returns Q := by
  induction p with
  | ret a => exact ⟨trivial, h a⟩
  | call op k ih => exact ⟨trivial, fun r _ _ => ih r⟩

theorem returns_bind {P : α → Prop} {Q : β → Prop} {p : Program Op Res α}
    {f : α → Program Op Res β} (hp : p.Returns P) (hf : ∀ a, P a → (f a).Returns Q) :
    (p >>= f).Returns Q :=
  wp_bind (wp_mono hp (fun _ h => h) fun a _ ha => hf a ha)

/-! ### Replacing the calls -/

section Interpret

variable {Op' : Type} {Res' : Op' → Type}

/-- Every call of a program replaced by a program. -/
def interpret (handler : (op : Op) → Program Op' Res' (Res op)) :
    Program Op Res α → Program Op' Res' α
  | ret a => ret a
  | call op k => handler op >>= fun r => interpret handler (k r)

theorem wp_interpret {handler : (op : Op) → Program Op' Res' (Res op)}
    {step : σ → (op : Op') → Res' op → σ → Prop} {cut P : σ → Prop} {Q : α → Prop}
    {p : Program Op Res α} {s : σ}
    (hhandler : ∀ op s, P s → (handler op).wp step (fun _ s => P s) cut s)
    (hcut : ∀ s, P s → cut s) (hresult : p.Returns Q) (hs : P s) :
    (p.interpret handler).wp step (fun a s => P s ∧ Q a) cut s := by
  induction p generalizing s with
  | ret a => exact ⟨hcut s hs, hs, hresult.2⟩
  | call op k ih =>
    refine wp_bind (wp_mono (hhandler op s hs) (fun _ h => h) ?_)
    intro r s' hs'
    exact ih r (hresult.2 r () trivial) hs'

end Interpret

end RlcdDeck.Effects.Program
