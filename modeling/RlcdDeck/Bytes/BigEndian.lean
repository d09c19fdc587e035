import Mathlib.Data.List.GetD
import Mathlib.Data.List.Induction
import Mathlib.Tactic.Ring

/-!
# Big-endian integers

A natural number as a fixed number of bytes, most significant byte first, and back.  `write n` and
`read` are inverse to each other between the numbers below `256 ^ n` and the lists of `n` bytes.
-/

namespace RlcdDeck.Bytes.BigEndian

/-- The `n` lowest bytes of `value`. -/
def write : ℕ → ℕ → List UInt8
  | 0, _ => []
  | n + 1, value => write n (value / 256) ++ [UInt8.ofNat value]

/-- The number that `bytes` spells. -/
def read (bytes : List UInt8) : ℕ :=
  bytes.foldl (fun value byte => 256 * value + byte.toNat) 0

@[simp] theorem length_write (n value : ℕ) : (write n value).length = n := by
  induction n generalizing value with
  | zero => rfl
  | succ n ih => simp [write, ih]

@[simp] theorem read_nil : read [] = 0 := rfl

@[simp] theorem read_concat (bytes : List UInt8) (byte : UInt8) :
    read (bytes ++ [byte]) = 256 * read bytes + byte.toNat := by
  simp [read, List.foldl_append]

theorem read_lt (bytes : List UInt8) : read bytes < 256 ^ bytes.length := by
  induction bytes using List.reverseRecOn with
  | nil => simp
  | append_singleton bytes byte ih =>
    have hbyte := byte.toNat_lt
    rw [read_concat, List.length_append, List.length_singleton, pow_succ]
    omega

theorem read_write {n value : ℕ} (h : value < 256 ^ n) : read (write n value) = value := by
  induction n generalizing value with
  | zero =>
    have : value = 0 := by simpa using h
    simp [write, this]
  | succ n ih =>
    have hquotient : value / 256 < 256 ^ n := by
      rw [pow_succ] at h
      omega
    rw [write, read_concat, ih hquotient, UInt8.toNat_ofNat']
    omega

theorem write_read (bytes : List UInt8) : write bytes.length (read bytes) = bytes := by
  induction bytes using List.reverseRecOn with
  | nil => rfl
  | append_singleton bytes byte ih =>
    have hbyte := byte.toNat_lt
    have hquotient : (256 * read bytes + byte.toNat) / 256 = read bytes := by omega
    have hlast : UInt8.ofNat (256 * read bytes + byte.toNat) = byte := by
      apply UInt8.toNat_inj.mp
      rw [UInt8.toNat_ofNat']
      omega
    rw [List.length_append, List.length_singleton, write, read_concat, hquotient, hlast, ih]

theorem write_eq_map (n value : ℕ) :
    write n value = (List.range n).map fun index => UInt8.ofNat (value / 256 ^ (n - 1 - index)) := by
  induction n generalizing value with
  | zero => rfl
  | succ n ih =>
    rw [write, ih, List.range_succ, List.map_append]
    congr 1
    · apply List.map_congr_left
      intro index hindex
      have hindex : index < n := List.mem_range.mp hindex
      have hexponent : n + 1 - 1 - index = n - 1 - index + 1 := by omega
      rw [Nat.div_div_eq_div_mul, hexponent, pow_succ, Nat.mul_comm]
    · simp

theorem read_take_succ {bytes : List UInt8} {k : ℕ} (h : k < bytes.length) :
    read (bytes.take (k + 1)) = 256 * read (bytes.take k) + (bytes.getD k 0).toNat := by
  rw [List.take_succ_eq_append_getElem h, read_concat, List.getD_eq_getElem _ _ h]

end RlcdDeck.Bytes.BigEndian
