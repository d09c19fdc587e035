import Mathlib.Data.List.Nodup

/-!
# Intrusive free lists

A free list threaded through `next` pointers: `FreeChain next head free` says that following
`next` from `head` visits exactly `free` and then ends.  The chain exists only if the pointers
do not run in a circle.  `FreeChain.push` and `FreeChain.pop` are the two operations on it, and
`FreeChain.update` says that pointers off the chain do not matter.
-/

namespace RlcdDeck.Collections

/-- Following `next` from `head` visits `free` and ends. -/
inductive FreeChain (next : ℕ → Option ℕ) : Option ℕ → List ℕ → Prop where
  | nil : FreeChain next none []
  | cons {i : ℕ} {free : List ℕ} : FreeChain next (next i) free →
      FreeChain next (some i) (i :: free)

namespace FreeChain

variable {next : ℕ → Option ℕ} {head : Option ℕ} {free : List ℕ}

theorem update (h : FreeChain next head free) {i : ℕ} (hi : i ∉ free) (p : Option ℕ) :
    FreeChain (Function.update next i p) head free := by
  induction h with
  | nil => exact .nil
  | @cons j free _ ih =>
    rw [List.mem_cons, not_or] at hi
    refine .cons ?_
    rw [Function.update_of_ne (Ne.symm hi.1)]
    exact ih hi.2

theorem push (h : FreeChain next head free) {i : ℕ} (hi : i ∉ free) :
    FreeChain (Function.update next i head) (some i) (i :: free) := by
  refine .cons ?_
  rw [Function.update_self]
  exact h.update hi head

theorem pop {i : ℕ} (h : FreeChain next (some i) free) :
    ∃ rest, free = i :: rest ∧ FreeChain next (next i) rest := by
  cases h with
  | cons h => exact ⟨_, rfl, h⟩

theorem eq_nil_of_none (h : FreeChain next none free) : free = [] := by
  cases h
  rfl

theorem range' {n : ℕ} (hnext : ∀ i, i < n → next i = if i + 1 < n then some (i + 1) else none)
    (k start : ℕ) (hk : start + (k + 1) = n) :
    FreeChain next (some start) (List.range' start (k + 1)) := by
  induction k generalizing start with
  | zero =>
    refine .cons ?_
    rw [hnext start (by omega), if_neg (by omega)]
    exact .nil
  | succ k ih =>
    rw [List.range'_succ]
    refine .cons ?_
    rw [hnext start (by omega), if_pos (by omega)]
    exact ih (start + 1) (by omega)

end FreeChain

end RlcdDeck.Collections
