import Mathlib.Tactic.Ring
import RlcdDeck.OtaFence.System

/-!
# The word and its epochs

A word is its epoch and its state, and the epoch counts the aborts, up to the number of epochs.
-/

namespace RlcdDeck.OtaFence

/-! ### The word -/

theorem State.code_lt (state : State) : state.code.toNat < 2 ^ 2 := by
  cases state
  · decide
  · decide
  · decide
  · decide

theorem toNat_maximumEpoch : maximumEpoch.toNat = 2 ^ 30 - 1 := rfl

theorem toNat_encode (epoch : UInt32) (state : State) :
    (encode epoch state).toNat = epoch.toNat % 2 ^ 30 * 4 + state.code.toNat := by
  have hbits : stateBits.toNat % 32 = 2 := rfl
  have hshift : epoch.toNat <<< 2 % 2 ^ 32 = (epoch.toNat % 2 ^ 30) <<< 2 := by
    rw [Nat.shiftLeft_eq, Nat.shiftLeft_eq]
    omega
  unfold encode
  rw [UInt32.toNat_or, UInt32.toNat_shiftLeft, hbits, hshift,
    ← Nat.shiftLeft_add_eq_or_of_lt state.code_lt, Nat.shiftLeft_eq]

theorem stateOf_encode (epoch : UInt32) (state : State) : stateOf (encode epoch state) = state := by
  have hcode : encode epoch state &&& stateMask = state.code := by
    apply UInt32.toNat.inj
    have hmask : stateMask.toNat = 2 ^ 2 - 1 := rfl
    have hlt := state.code_lt
    rw [UInt32.toNat_and, hmask, Nat.and_two_pow_sub_one_eq_mod, toNat_encode]
    omega
  unfold stateOf
  rw [hcode]
  cases state
  · rfl
  · rfl
  · rfl
  · rfl

theorem toNat_epochOf (word : UInt32) : (epochOf word).toNat = word.toNat / 4 := by
  have hbits : stateBits.toNat % 32 = 2 := rfl
  unfold epochOf
  rw [UInt32.toNat_shiftRight, hbits, Nat.shiftRight_eq_div_pow]

theorem epochOf_le (word : UInt32) : epochOf word ≤ maximumEpoch := by
  have hlt := word.toNat_lt
  rw [UInt32.le_iff_toNat_le, toNat_epochOf, toNat_maximumEpoch]
  omega

theorem epochOf_encode {epoch : UInt32} (h : epoch ≤ maximumEpoch) (state : State) :
    epochOf (encode epoch state) = epoch := by
  have hlt := state.code_lt
  rw [UInt32.le_iff_toNat_le, toNat_maximumEpoch] at h
  apply UInt32.toNat.inj
  rw [toNat_epochOf, toNat_encode]
  omega

theorem word_ext {a b : UInt32} (hepoch : epochOf a = epochOf b) (hstate : stateOf a = stateOf b) :
    a = b := by
  have hcode : ∀ word : UInt32, (stateOf word).code.toNat = word.toNat % 4 := by
    intro word
    have hmask : (word &&& stateMask).toNat = word.toNat % 4 := by
      have hbits : stateMask.toNat = 2 ^ 2 - 1 := rfl
      rw [UInt32.toNat_and, hbits, Nat.and_two_pow_sub_one_eq_mod]
    unfold stateOf
    dsimp only
    split_ifs with hzero hone htwo
    · rw [← hmask, hzero]
      rfl
    · rw [← hmask, hone]
      rfl
    · rw [← hmask, htwo]
      rfl
    · have hne : ∀ code : UInt32, word &&& stateMask ≠ code → word.toNat % 4 ≠ code.toNat :=
        fun code hno heq => hno (UInt32.toNat.inj (hmask.trans heq))
      have hzero' : word.toNat % 4 ≠ 0 := hne 0 hzero
      have hone' : word.toNat % 4 ≠ 1 := hne 1 hone
      have htwo' : word.toNat % 4 ≠ 2 := hne 2 htwo
      show 3 = word.toNat % 4
      omega
  have hdiv : a.toNat / 4 = b.toNat / 4 := by
    rw [← toNat_epochOf, ← toNat_epochOf, hepoch]
  have hmod : a.toNat % 4 = b.toNat % 4 := by
    rw [← hcode, ← hcode, hstate]
  apply UInt32.toNat.inj
  omega

/-! ### Epochs -/

/-- The number of epochs. -/
def epochCount : ℕ := maximumEpoch.toNat

theorem epochCount_eq : epochCount = 1073741823 := rfl

/-- The epoch after a number of aborts. -/
def epochAfter (aborts : ℕ) : ℕ := aborts % epochCount + 1

theorem toNat_nextEpoch {epoch : UInt32} {aborts : ℕ} (h : epoch.toNat = epochAfter aborts) :
    (nextEpoch epoch).toNat = epochAfter (aborts + 1) := by
  unfold epochAfter at h ⊢
  unfold nextEpoch
  split_ifs with hmaximum
  · have hlast : epoch.toNat = epochCount := congrArg UInt32.toNat hmaximum
    have hone : (1 : UInt32).toNat = 1 := rfl
    rw [epochCount_eq] at h hlast ⊢
    omega
  · have hne : epoch.toNat ≠ epochCount := fun heq => hmaximum (UInt32.toNat.inj heq)
    have hone : (1 : UInt32).toNat = 1 := rfl
    rw [epochCount_eq] at h hne ⊢
    rw [UInt32.toNat_add, hone]
    omega

theorem nextEpoch_le {epoch : UInt32} {aborts : ℕ} (h : epoch.toNat = epochAfter aborts) :
    nextEpoch epoch ≤ maximumEpoch := by
  have hnext := toNat_nextEpoch h
  unfold epochAfter at hnext
  rw [UInt32.le_iff_toNat_le, hnext, toNat_maximumEpoch]
  rw [epochCount_eq]
  omega

theorem eq_of_epochAfter_eq {first last : ℕ} (h : epochAfter first = epochAfter last)
    (hle : first ≤ last) (hlt : last < first + epochCount) : first = last := by
  unfold epochAfter at h
  rw [epochCount_eq] at h hlt
  omega

end RlcdDeck.OtaFence
