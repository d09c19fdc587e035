import Mathlib.Data.Nat.ModEq
import Mathlib.Tactic.NormNum

/-!
# Wrapping counters that skip zero

Generation numbers, epochs and sequence numbers are machine integers that wrap around and never
take the value `0` again.  `nonzeroNext` is their successor; `nonzeroSucc N` is the same
function on the naturals below `N`, a cycle through `1, …, N - 1`.

* `iterate_nonzeroSucc`: the value after `n` steps, in closed form;
* `iterate_nonzeroSucc_eq_self_iff`: a counter shows an earlier value again exactly after a
  multiple of `N - 1` steps, and `iterate_nonzeroNext64_eq_self_iff` is that fact for a 64-bit
  counter.
-/

namespace RlcdDeck.Counter

/-- The next value of a wrapping counter that skips `0`. -/
def nonzeroNext {α : Type*} [Add α] [OfNat α 0] [OfNat α 1] [DecidableEq α] (v : α) : α :=
  if v + 1 = 0 then 1 else v + 1

/-- The next value of an `N`-valued counter that skips `0`. -/
def nonzeroSucc (N v : ℕ) : ℕ :=
  if v + 1 = N then 1 else v + 1

/-! ### The cycle -/

theorem nonzeroSucc_pos (N v : ℕ) : 0 < nonzeroSucc N v := by
  unfold nonzeroSucc
  split_ifs <;> omega

theorem nonzeroSucc_offset {N k : ℕ} (hN : 1 < N) :
    nonzeroSucc N (k % (N - 1) + 1) = (k + 1) % (N - 1) + 1 := by
  unfold nonzeroSucc
  have hlt : k % (N - 1) < N - 1 := Nat.mod_lt _ (by omega)
  have hmod : (k + 1) % (N - 1) = (k % (N - 1) + 1) % (N - 1) := (Nat.mod_add_mod _ _ _).symm
  split_ifs with h
  · rw [hmod, show k % (N - 1) + 1 = N - 1 by omega, Nat.mod_self]
  · rw [hmod, Nat.mod_eq_of_lt (by omega : k % (N - 1) + 1 < N - 1)]

theorem iterate_nonzeroSucc {N v : ℕ} (hN : 1 < N) (hv : 0 < v) (hlt : v < N) (n : ℕ) :
    (nonzeroSucc N)^[n] v = (v - 1 + n) % (N - 1) + 1 := by
  induction n with
  | zero =>
    rw [Function.iterate_zero_apply, Nat.add_zero, Nat.mod_eq_of_lt (by omega)]
    omega
  | succ n ih =>
    rw [Function.iterate_succ_apply', ih, nonzeroSucc_offset hN, Nat.add_assoc]

/-- A counter shows an earlier value again exactly after a multiple of `N - 1` steps. -/
theorem iterate_nonzeroSucc_eq_self_iff {N v : ℕ} (hN : 1 < N) (hv : 0 < v) (hlt : v < N)
    (n : ℕ) : (nonzeroSucc N)^[n] v = v ↔ N - 1 ∣ n := by
  rw [iterate_nonzeroSucc hN hv hlt]
  have hoff : (v - 1) % (N - 1) = v - 1 := Nat.mod_eq_of_lt (by omega)
  constructor
  · intro h
    have hmod : (v - 1 + n) % (N - 1) = (v - 1 + 0) % (N - 1) := by
      rw [Nat.add_zero, hoff]; omega
    exact (Nat.modEq_zero_iff_dvd).mp (Nat.ModEq.add_left_cancel' (v - 1) hmod)
  · rintro ⟨c, rfl⟩
    rw [Nat.add_mul_mod_self_left, hoff]
    omega

/-! ### 64-bit and 32-bit counters -/

theorem nonzeroNext64_toNat (v : UInt64) :
    (nonzeroNext v).toNat = nonzeroSucc (2 ^ 64) v.toNat := by
  unfold nonzeroNext nonzeroSucc
  have hlt := v.toNat_lt
  simp only [← UInt64.toNat_inj, UInt64.toNat_add]
  split_ifs with h1 h2 h2 <;> simp_all <;> omega

theorem nonzeroNext32_toNat (v : UInt32) :
    (nonzeroNext v).toNat = nonzeroSucc (2 ^ 32) v.toNat := by
  unfold nonzeroNext nonzeroSucc
  have hlt := v.toNat_lt
  simp only [← UInt32.toNat_inj, UInt32.toNat_add]
  split_ifs with h1 h2 h2 <;> simp_all <;> omega

@[simp] theorem nonzeroNext64_ne_zero (v : UInt64) : nonzeroNext v ≠ 0 := by
  intro h
  have hpos := nonzeroSucc_pos (2 ^ 64) v.toNat
  rw [← nonzeroNext64_toNat, h] at hpos
  exact absurd hpos (by decide)

@[simp] theorem nonzeroNext32_ne_zero (v : UInt32) : nonzeroNext v ≠ 0 := by
  intro h
  have hpos := nonzeroSucc_pos (2 ^ 32) v.toNat
  rw [← nonzeroNext32_toNat, h] at hpos
  exact absurd hpos (by decide)

theorem iterate_nonzeroNext64_toNat (v : UInt64) (n : ℕ) :
    (nonzeroNext^[n] v).toNat = (nonzeroSucc (2 ^ 64))^[n] v.toNat := by
  induction n with
  | zero => rfl
  | succ n ih =>
    rw [Function.iterate_succ_apply', Function.iterate_succ_apply', nonzeroNext64_toNat, ih]

/-- A nonzero 64-bit counter shows its value again exactly after a multiple of `2^64 - 1`
steps. -/
theorem iterate_nonzeroNext64_eq_self_iff {v : UInt64} (hv : v ≠ 0) (n : ℕ) :
    nonzeroNext^[n] v = v ↔ 2 ^ 64 - 1 ∣ n := by
  have hpos : 0 < v.toNat := by
    rcases Nat.eq_zero_or_pos v.toNat with h | h
    · exact absurd (UInt64.toNat_inj.mp h) hv
    · exact h
  rw [← UInt64.toNat_inj, iterate_nonzeroNext64_toNat,
    iterate_nonzeroSucc_eq_self_iff (by norm_num) hpos v.toNat_lt]

theorem iterate_nonzeroNext32_toNat (v : UInt32) (n : ℕ) :
    (nonzeroNext^[n] v).toNat = (nonzeroSucc (2 ^ 32))^[n] v.toNat := by
  induction n with
  | zero => rfl
  | succ n ih =>
    rw [Function.iterate_succ_apply', Function.iterate_succ_apply', nonzeroNext32_toNat, ih]

/-- A nonzero 32-bit counter shows its value again exactly after a multiple of `2^32 - 1`
steps. -/
theorem iterate_nonzeroNext32_eq_self_iff {v : UInt32} (hv : v ≠ 0) (n : ℕ) :
    nonzeroNext^[n] v = v ↔ 2 ^ 32 - 1 ∣ n := by
  have hpos : 0 < v.toNat := by
    rcases Nat.eq_zero_or_pos v.toNat with h | h
    · exact absurd (UInt32.toNat_inj.mp h) hv
    · exact h
  rw [← UInt32.toNat_inj, iterate_nonzeroNext32_toNat,
    iterate_nonzeroSucc_eq_self_iff (by norm_num) hpos v.toNat_lt]

end RlcdDeck.Counter
