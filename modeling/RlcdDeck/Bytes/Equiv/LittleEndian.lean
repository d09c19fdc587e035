import RlcdDeck.Bytes.LittleEndian
import Mathlib.Data.List.GetD
import Mathlib.Data.UInt
import Mathlib.Tactic.Positivity
import Mathlib.Tactic.Ring

/-!
# Little-endian round trips

`readU32` and `readU64` take back what `writeU32` and `writeU64` wrote, wherever it stands
(`readU32_append`, `readU64_append`), and so do the two bytes of a 16-bit length
(`read_lengthBytes`).  What was read is what would be written (`writeU32_readU32`,
`writeU64_readU64`).
-/

namespace RlcdDeck.Bytes

@[simp] theorem length_writeU32 (value : UInt32) : (writeU32 value).length = 4 := rfl

@[simp] theorem length_writeU64 (value : UInt64) : (writeU64 value).length = 8 := rfl

theorem mod_pow_succ (value k : ℕ) :
    value % 2 ^ (8 * k) ||| (value / 2 ^ (8 * k) % 256) <<< (8 * k) = value % 2 ^ (8 * (k + 1)) := by
  have hlow : value % 2 ^ (8 * k) < 2 ^ (8 * k) := Nat.mod_lt _ (by positivity)
  have hpow : 2 ^ (8 * (k + 1)) = 2 ^ (8 * k) * 256 := by
    rw [Nat.mul_succ, pow_add]
    norm_num
  rw [Nat.or_comm, ← Nat.shiftLeft_add_eq_or_of_lt hlow, Nat.shiftLeft_eq, hpow, Nat.mod_mul]
  ring

theorem shiftRight_toUInt8_toNat32 (value : UInt32) {k : ℕ} (hk : k < 4) :
    ((value >>> UInt32.ofNat (8 * k)).toUInt8).toNat = value.toNat / 2 ^ (8 * k) % 256 := by
  have hshift : (UInt32.ofNat (8 * k)).toNat % 32 = 8 * k := by
    rw [UInt32.toNat_ofNat']
    omega
  rw [UInt32.toNat_toUInt8, UInt32.toNat_shiftRight, hshift, Nat.shiftRight_eq_div_pow]

theorem shiftRight_toUInt8_toNat64 (value : UInt64) {k : ℕ} (hk : k < 8) :
    ((value >>> UInt64.ofNat (8 * k)).toUInt8).toNat = value.toNat / 2 ^ (8 * k) % 256 := by
  have hshift : (UInt64.ofNat (8 * k)).toNat % 64 = 8 * k := by
    rw [UInt64.toNat_ofNat']
    omega
  rw [UInt64.toNat_toUInt8, UInt64.toNat_shiftRight, hshift, Nat.shiftRight_eq_div_pow]

/-- A byte that is shifted by whole bytes below `n` bytes stays below `2 ^ (8 * n)`. -/
theorem byte_shiftLeft_lt {byte k n : ℕ} (hbyte : byte < 256) (hk : k < n) :
    byte <<< (8 * k) < 2 ^ (8 * n) := by
  have hpow : 2 ^ (8 * k) * 256 ≤ 2 ^ (8 * n) := by
    rw [show 256 = 2 ^ 8 by rfl, ← pow_add]
    exact Nat.pow_le_pow_right (by omega) (by omega)
  have hpos : 0 < 2 ^ (8 * k) := by positivity
  calc byte <<< (8 * k)
    _ = byte * 2 ^ (8 * k) := Nat.shiftLeft_eq byte (8 * k)
    _ < 256 * 2 ^ (8 * k) := Nat.mul_lt_mul_of_pos_right hbyte hpos
    _ = 2 ^ (8 * k) * 256 := Nat.mul_comm _ _
    _ ≤ 2 ^ (8 * n) := hpow

variable {bytes : List UInt8} {offset : ℕ}

theorem readU32_of_bytes {value : UInt32}
    (h : ∀ k < 4, bytes.getD (offset + k) 0 = (value >>> UInt32.ofNat (8 * k)).toUInt8) :
    readU32 bytes offset = value := by
  have hheader : ∀ k ≤ 4, ((List.range k).foldl
      (fun (value : UInt32) index =>
        value ||| (bytes.getD (offset + index) 0).toUInt32 <<< UInt32.ofNat (8 * index))
        0).toNat = value.toNat % 2 ^ (8 * k) := by
    intro k hk
    induction k with
    | zero => simp [Nat.mod_one]
    | succ k ih =>
      have hshift : (UInt32.ofNat (8 * k)).toNat % 32 = 8 * k := by
        rw [UInt32.toNat_ofNat']
        omega
      have hlt := byte_shiftLeft_lt (Nat.mod_lt (value.toNat / 2 ^ (8 * k)) (by decide : 0 < 256))
        (show k < 4 by omega)
      rw [List.range_succ, List.foldl_append, List.foldl_cons, List.foldl_nil, UInt32.toNat_or,
        ih (by omega), UInt32.toNat_shiftLeft, hshift, UInt8.toNat_toUInt32, h k (by omega),
        shiftRight_toUInt8_toNat32 value (by omega), Nat.mod_eq_of_lt hlt, mod_pow_succ]
  apply UInt32.toNat_inj.mp
  exact (hheader 4 le_rfl).trans (Nat.mod_eq_of_lt value.toNat_lt)

theorem readU64_of_bytes {value : UInt64}
    (h : ∀ k < 8, bytes.getD (offset + k) 0 = (value >>> UInt64.ofNat (8 * k)).toUInt8) :
    readU64 bytes offset = value := by
  have hheader : ∀ k ≤ 8, ((List.range k).foldl
      (fun (value : UInt64) index =>
        value ||| (bytes.getD (offset + index) 0).toUInt64 <<< UInt64.ofNat (8 * index))
        0).toNat = value.toNat % 2 ^ (8 * k) := by
    intro k hk
    induction k with
    | zero => simp [Nat.mod_one]
    | succ k ih =>
      have hshift : (UInt64.ofNat (8 * k)).toNat % 64 = 8 * k := by
        rw [UInt64.toNat_ofNat']
        omega
      have hlt := byte_shiftLeft_lt (Nat.mod_lt (value.toNat / 2 ^ (8 * k)) (by decide : 0 < 256))
        (show k < 8 by omega)
      rw [List.range_succ, List.foldl_append, List.foldl_cons, List.foldl_nil, UInt64.toNat_or,
        ih (by omega), UInt64.toNat_shiftLeft, hshift, UInt8.toNat_toUInt64, h k (by omega),
        shiftRight_toUInt8_toNat64 value (by omega), Nat.mod_eq_of_lt hlt, mod_pow_succ]
  apply UInt64.toNat_inj.mp
  exact (hheader 8 le_rfl).trans (Nat.mod_eq_of_lt value.toNat_lt)

/-- **Reading takes back what was written**, behind `front` and before `rest`. -/
theorem readU32_append {front : List UInt8} {offset : ℕ} (h : offset = front.length)
    (value : UInt32) (rest : List UInt8) :
    readU32 (front ++ (writeU32 value ++ rest)) offset = value := by
  apply readU32_of_bytes
  intro k hk
  rw [h, List.getD_append_right _ _ _ _ (Nat.le_add_right _ _), Nat.add_sub_cancel_left,
    List.getD_append _ _ _ _ (by simpa using hk), writeU32,
    List.getD_eq_getElem _ _ (by simpa using hk), List.getElem_map, List.getElem_range]

theorem readU64_append {front : List UInt8} (h : offset = front.length) (value : UInt64)
    (rest : List UInt8) :
    readU64 (front ++ (writeU64 value ++ rest)) offset = value := by
  apply readU64_of_bytes
  intro k hk
  rw [h, List.getD_append_right _ _ _ _ (Nat.le_add_right _ _), Nat.add_sub_cancel_left,
    List.getD_append _ _ _ _ (by simpa using hk), writeU64,
    List.getD_eq_getElem _ _ (by simpa using hk), List.getElem_map, List.getElem_range]

/-! ### The bytes that were read -/

theorem writeU32_ofNat (b₀ b₁ b₂ b₃ : UInt8) :
    writeU32 (UInt32.ofNat (b₀.toNat + b₁.toNat * 256 + b₂.toNat * 65536 + b₃.toNat * 16777216)) =
      [b₀, b₁, b₂, b₃] := by
  have h₀ := b₀.toNat_lt
  have h₁ := b₁.toNat_lt
  have h₂ := b₂.toNat_lt
  have h₃ := b₃.toNat_lt
  have hlt : b₀.toNat + b₁.toNat * 256 + b₂.toNat * 65536 + b₃.toNat * 16777216 < 2 ^ 32 := by omega
  have hbyte : ∀ k < 4, ∀ b : UInt8,
      (b₀.toNat + b₁.toNat * 256 + b₂.toNat * 65536 + b₃.toNat * 16777216) / 2 ^ (8 * k) % 256 =
        b.toNat → (UInt32.ofNat (b₀.toNat + b₁.toNat * 256 + b₂.toNat * 65536 +
          b₃.toNat * 16777216) >>> UInt32.ofNat (8 * k)).toUInt8 = b := by
    intro k hk b hb
    apply UInt8.toNat_inj.mp
    rw [shiftRight_toUInt8_toNat32 _ hk, UInt32.toNat_ofNat', Nat.mod_eq_of_lt hlt, hb]
  show [_, _, _, _] = _
  dsimp only
  rw [hbyte 0 (by omega) b₀ (by omega), hbyte 1 (by omega) b₁ (by omega),
    hbyte 2 (by omega) b₂ (by omega), hbyte 3 (by omega) b₃ (by omega)]

/-- **Writing puts back what was read.** -/
theorem writeU32_readU32 (h : offset + 4 ≤ bytes.length) :
    writeU32 (readU32 bytes offset) = (bytes.drop offset).take 4 := by
  have hlength : ((bytes.drop offset).take 4).length = 4 := by
    rw [List.length_take, List.length_drop]
    omega
  match hfour : (bytes.drop offset).take 4, hlength with
  | [b₀, b₁, b₂, b₃], _ =>
    have hget : ∀ k < 4, bytes.getD (offset + k) 0 = [b₀, b₁, b₂, b₃].getD k 0 := by
      intro k hk
      rw [← hfour, List.getD_eq_getElem?_getD, List.getD_eq_getElem?_getD, List.getElem?_take,
        if_pos hk, List.getElem?_drop]
    have hwrite := writeU32_ofNat b₀ b₁ b₂ b₃
    rw [readU32_of_bytes, hwrite]
    intro k hk
    rw [hget k hk, ← hwrite, writeU32, List.getD_eq_getElem _ _ (by simpa using hk),
      List.getElem_map, List.getElem_range]

/-- The number that bytes write, least significant byte first. -/
def bytesValue (bytes : List UInt8) : ℕ := bytes.foldr (fun byte value => byte.toNat + 256 * value) 0

theorem bytesValue_lt (bytes : List UInt8) : bytesValue bytes < 256 ^ bytes.length := by
  induction bytes with
  | nil => decide
  | cons byte bytes ih =>
    have hbyte := byte.toNat_lt
    show byte.toNat + 256 * bytesValue bytes < 256 ^ (bytes.length + 1)
    rw [pow_succ]
    omega

theorem bytesValue_div (bytes : List UInt8) (k : ℕ) :
    bytesValue bytes / 256 ^ k % 256 = (bytes.getD k 0).toNat := by
  induction bytes generalizing k with
  | nil =>
    show 0 / 256 ^ k % 256 = 0
    rw [Nat.zero_div]
  | cons byte bytes ih =>
    have hbyte := byte.toNat_lt
    show (byte.toNat + 256 * bytesValue bytes) / 256 ^ k % 256 = _
    cases k with
    | zero =>
      rw [pow_zero, Nat.div_one, List.getD_cons_zero]
      omega
    | succ k =>
      have hquotient : (byte.toNat + 256 * bytesValue bytes) / 256 = bytesValue bytes := by omega
      rw [pow_succ, Nat.mul_comm (256 ^ k), ← Nat.div_div_eq_div_mul, hquotient, ih, List.getD_cons_succ]

theorem getD_writeU64 (value : UInt64) {k : ℕ} (hk : k < 8) :
    (writeU64 value).getD k 0 = (value >>> UInt64.ofNat (8 * k)).toUInt8 := by
  rw [writeU64, List.getD_eq_getElem?_getD, List.getElem?_map, List.getElem?_range hk]
  rfl

theorem writeU64_bytesValue (h : bytes.length = 8) :
    writeU64 (UInt64.ofNat (bytesValue bytes)) = bytes := by
  have hlt := bytesValue_lt bytes
  rw [h] at hlt
  refine List.ext_getElem (by rw [length_writeU64, h]) fun k hk hk' => ?_
  apply UInt8.toNat_inj.mp
  rw [← List.getD_eq_getElem _ 0 hk, ← List.getD_eq_getElem _ 0 hk', ← bytesValue_div bytes,
    getD_writeU64 _ hk, shiftRight_toUInt8_toNat64 _ hk, UInt64.toNat_ofNat',
    Nat.mod_eq_of_lt (lt_of_lt_of_eq hlt (by norm_num)), pow_mul]
  rfl

theorem writeU64_readU64 (h : offset + 8 ≤ bytes.length) :
    writeU64 (readU64 bytes offset) = (bytes.drop offset).take 8 := by
  have hlength : ((bytes.drop offset).take 8).length = 8 := by
    rw [List.length_take, List.length_drop]
    omega
  have hwrite := writeU64_bytesValue hlength
  rw [readU64_of_bytes, hwrite]
  intro k hk
  rw [← getD_writeU64 _ hk, hwrite, List.getD_eq_getElem?_getD, List.getD_eq_getElem?_getD,
    List.getElem?_take, if_pos hk, List.getElem?_drop]

theorem read_lengthBytes {size : ℕ} (h : size < 65536) :
    (UInt8.ofNat size).toNat + (UInt8.ofNat (size / 256)).toNat * 256 = size := by
  rw [UInt8.toNat_ofNat', UInt8.toNat_ofNat']
  omega

end RlcdDeck.Bytes
