import Mathlib.Data.List.Perm.Basic
import Mathlib.Order.Lattice
import RlcdDeck.Collections.Traverse

/-!
# Keeping the best of a list

A loop that keeps the element with the largest key, the earlier one of two with the same key.
Where no two elements have the same key, it does not matter in which order it meets them.
-/

namespace RlcdDeck.Collections

section KeepBest

variable {α κ : Type*} [LinearOrder κ] (key : α → κ)

/-- One turn of the loop. -/
def keepBest (current candidate : α) : α :=
  if key current < key candidate then candidate else current

theorem keepBest_eq (a b : α) : keepBest key a b = if key a < key b then b else a := rfl

theorem key_keepBest (a b : α) : key (keepBest key a b) = max (key a) (key b) := by
  unfold keepBest
  split_ifs with h
  · rw [max_eq_right h.le]
  · rw [max_eq_left (not_lt.mp h)]

theorem keepBest_right_comm {x y : α} (h : key x = key y → x = y) (z : α) :
    keepBest key (keepBest key z x) y = keepBest key (keepBest key z y) x := by
  by_cases hxy : key x = key y
  · rw [h hxy]
  have hzx := key_keepBest key z x
  have hzy := key_keepBest key z y
  rw [keepBest_eq key (keepBest key z x) y, keepBest_eq key (keepBest key z y) x, hzx, hzy,
    keepBest_eq, keepBest_eq]
  rcases lt_or_gt_of_ne hxy with hlt | hlt
  · -- `y` is better than `x`
    have hx : ¬ max (key z) (key y) < key x := fun hmax => (le_max_right _ _).not_gt (hmax.trans hlt)
    rw [if_neg hx]
    by_cases hz : key z < key y
    · rw [if_pos (max_lt hz hlt), if_pos hz]
    · have hzx : ¬ key z < key x := fun hzx => hz (hzx.trans hlt)
      rw [if_neg (fun hmax => hz ((le_max_left _ _).trans_lt hmax)), if_neg hz, if_neg hzx]
  · -- `x` is better than `y`
    have hy : ¬ max (key z) (key x) < key y := fun hmax => (le_max_right _ _).not_gt (hmax.trans hlt)
    rw [if_neg hy]
    by_cases hz : key z < key x
    · rw [if_pos (max_lt hz hlt), if_pos hz]
    · have hzy : ¬ key z < key y := fun hzy => hz (hzy.trans hlt)
      rw [if_neg (fun hmax => hz ((le_max_left _ _).trans_lt hmax)), if_neg hz, if_neg hzy]

/-- **The best is the best in any order.** -/
theorem foldl_keepBest_perm {l₁ l₂ : List α} (hperm : l₁.Perm l₂)
    (hdistinct : ∀ x ∈ l₁, ∀ y ∈ l₁, key x = key y → x = y) (current : α) :
    l₁.foldl (keepBest key) current = l₂.foldl (keepBest key) current := by
  apply hperm.foldl_eq'
  intro x hx y hy z
  exact keepBest_right_comm key (hdistinct x hx y hy) z

end KeepBest

theorem mapM_perm {α β : Type} {f : α → Option β} {l₁ l₂ : List α} (hperm : l₁.Perm l₂)
    {results : List β} (h : l₂.mapM f = some results) :
    ∃ others, l₁.mapM f = some others ∧ others.Perm results := by
  obtain ⟨others, hothers, hperm⟩ := List.perm_comp_forall₂ hperm (mapM_eq_some.mp h)
  exact ⟨others, mapM_eq_some.mpr hothers, hperm⟩

end RlcdDeck.Collections
