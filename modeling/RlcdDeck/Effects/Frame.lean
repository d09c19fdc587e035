import RlcdDeck.Effects.Program

/-!
# Frames

What a program leaves alone, from the calls that it can make: `p.Only allowed` says that every call
of `p` is among `allowed`, whatever it is answered, and what all of these calls keep, every execution
of `p` keeps (`wp_of_only`).  `wp_and` puts such a frame beside another specification.
-/

namespace RlcdDeck.Effects.Program

variable {Op : Type} {Res : Op → Type} {α β σ : Type} {allowed : Op → Prop}

/-- Every call that can be made is among `allowed`. -/
def Only (allowed : Op → Prop) : Program Op Res α → Prop
  | ret _ => True
  | call op k => allowed op ∧ ∀ r, Only allowed (k r)

theorem only_pure (a : α) : Only allowed (pure a : Program Op Res α) := trivial

theorem only_perform {op : Op} (h : allowed op) : Only allowed (perform op : Program Op Res _) :=
  ⟨h, fun _ => trivial⟩

theorem only_bind {p : Program Op Res α} {f : α → Program Op Res β} (hp : Only allowed p)
    (hf : ∀ a, Only allowed (f a)) : Only allowed (p >>= f) := by
  induction p with
  | ret a => exact hf a
  | call op k ih => exact ⟨hp.1, fun r => ih r (hp.2 r)⟩

section Rules

variable {step : σ → (op : Op) → Res op → σ → Prop}

/-- **The frame rule**: what every call that can be made keeps, the program keeps. -/
theorem wp_of_only {p : Program Op Res α} {I : σ → Prop} {s : σ} (hp : Only allowed p)
    (hstep : ∀ op, allowed op → ∀ s r s', I s → step s op r s' → I s') (hs : I s) :
    p.wp step (fun _ => I) I s := by
  induction p generalizing s with
  | ret a => exact ⟨hs, hs⟩
  | call op k ih => exact ⟨hs, fun r s' h => ih r (hp.2 r) (hstep op hp.1 s r s' hs h)⟩

theorem wp_and {p : Program Op Res α} {post post' : α → σ → Prop} {cut cut' : σ → Prop} {s : σ}
    (h : p.wp step post cut s) (h' : p.wp step post' cut' s) :
    p.wp step (fun a s => post a s ∧ post' a s) (fun s => cut s ∧ cut' s) s := by
  induction p generalizing s with
  | ret a => exact ⟨⟨h.1, h'.1⟩, h.2, h'.2⟩
  | call op k ih => exact ⟨⟨h.1, h'.1⟩, fun r s' hstep => ih r (h.2 r s' hstep) (h'.2 r s' hstep)⟩

theorem wp_seq {p : Program Op Res α} {f : α → Program Op Res β} {mid : α → σ → Prop}
    {post : β → σ → Prop} {cut cut' : σ → Prop} {s : σ} (hp : p.wp step mid cut' s)
    (hcut : ∀ s, cut' s → cut s)
    (h : ∀ a s, cut' s → mid a s → (f a).wp step post cut s) : (p >>= f).wp step post cut s := by
  induction p generalizing s with
  | ret a => exact h a s hp.1 hp.2
  | call op k ih => exact ⟨hcut s hp.1, fun r s' hstep => ih r (hp.2 r s' hstep)⟩

theorem Exec.sound_cut {p : Program Op Res α} {post : α → σ → Prop} {cut : σ → Prop} {s s' : σ}
    {out : Option α} (hexec : Exec step p s out s') (h : p.wp step post cut s) : cut s' := by
  induction hexec with
  | ret => exact h.1
  | call hstep _ ih => exact ih (h.2 _ _ hstep)
  | cut => exact wp_cut h

theorem wp_true (p : Program Op Res α) (s : σ) :
    p.wp step (fun _ _ => True) (fun _ => True) s := by
  induction p generalizing s with
  | ret a => exact ⟨trivial, trivial⟩
  | call op k ih => exact ⟨trivial, fun r s' _ => ih r s'⟩

theorem wp_after {p : Program Op Res α} {f : α → Program Op Res β} {post : β → σ → Prop} {s : σ}
    (h : ∀ a s', (f a).wp step post (fun _ => True) s') :
    (p >>= f).wp step post (fun _ => True) s :=
  wp_bind (wp_mono (wp_true p s) (fun _ _ => trivial) fun a s' _ => h a s')

theorem Exec.bind {p : Program Op Res α} {f : α → Program Op Res β} {a : α} {s s' s'' : σ}
    {out : Option β} (hp : Exec step p s (some a) s') (hf : Exec step (f a) s' out s'') :
    Exec step (p >>= f) s out s'' := by
  generalize hout : some a = result at hp
  induction hp with
  | ret =>
    obtain rfl := Option.some.inj hout
    exact hf
  | call hstep _ ih => exact .call hstep (ih hf hout)
  | cut => cases hout

theorem Exec.bind_none {p : Program Op Res α} {f : α → Program Op Res β} {s s' : σ}
    (hp : Exec step p s none s') : Exec step (p >>= f) s none s' := by
  generalize hout : none = result at hp
  induction hp with
  | ret => cases hout
  | call hstep _ ih => exact .call hstep (ih hout)
  | cut => exact .cut

end Rules

end RlcdDeck.Effects.Program
