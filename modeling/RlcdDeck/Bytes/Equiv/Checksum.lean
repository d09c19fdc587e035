import RlcdDeck.Bytes.Equiv.LittleEndian

/-!
# The checksum of a burst

A step of the CRC-32 is linear in exclusive or (`crcBit_xor`) and injective (`crcBit_injective`),
and it halves an even word.  So up to four bytes enter the register as one word
(`foldl_crcByte`), and two strings that differ in no more than four consecutive bytes leave different
registers (`crcByte_burst`).  Bytes that are followed by their checksum all leave the same register
(`foldl_crcByte_crc32`).
-/

namespace RlcdDeck.Bytes

/-! ### One bit -/

theorem crcBit_odd {crc : UInt32} (h : crc &&& 1 = 1) :
    crcBit crc = crc >>> 1 ^^^ 0xedb88320 := by
  rw [crcBit, h]
  rfl

theorem crcBit_even {crc : UInt32} (h : crc &&& 1 = 0) : crcBit crc = crc >>> 1 := by
  rw [crcBit, h]
  exact UInt32.xor_zero

theorem toNat_low_bit (crc : UInt32) : (crc &&& 1).toNat = crc.toNat % 2 := by
  rw [UInt32.toNat_and]
  exact Nat.and_one_is_mod _

theorem toNat_halve (crc : UInt32) : (crc >>> 1).toNat = crc.toNat / 2 := by
  rw [UInt32.toNat_shiftRight]
  exact Nat.shiftRight_eq_div_pow _ 1

theorem low_bit (crc : UInt32) : crc &&& 1 = 0 ∨ crc &&& 1 = 1 := by
  have hlow := toNat_low_bit crc
  rcases Nat.mod_two_eq_zero_or_one crc.toNat with heven | hodd
  · exact .inl (UInt32.toNat_inj.mp (hlow.trans heven))
  · exact .inr (UInt32.toNat_inj.mp (hlow.trans hodd))

theorem low_bit_xor (x y : UInt32) : (x ^^^ y) &&& 1 = (x &&& 1) ^^^ (y &&& 1) := by
  apply UInt32.toBitVec_inj.mp
  simp only [UInt32.toBitVec_and, UInt32.toBitVec_xor]
  ext i
  simp only [BitVec.getElem_and, BitVec.getElem_xor]
  cases x.toBitVec[i] <;> cases y.toBitVec[i] <;> simp

/-- **A step of the checksum is linear.** -/
theorem crcBit_xor (x y : UInt32) : crcBit (x ^^^ y) = crcBit x ^^^ crcBit y := by
  have hbit := low_bit_xor x y
  rcases low_bit x with hx | hx <;> rcases low_bit y with hy | hy <;> rw [hx, hy] at hbit
  · rw [crcBit_even hx, crcBit_even hy, crcBit_even hbit, UInt32.shiftRight_xor]
  · rw [crcBit_even hx, crcBit_odd hy, crcBit_odd hbit, UInt32.shiftRight_xor, UInt32.xor_assoc]
  · rw [crcBit_odd hx, crcBit_even hy, crcBit_odd hbit, UInt32.shiftRight_xor]
    ac_rfl
  · rw [crcBit_odd hx, crcBit_odd hy, crcBit_even hbit, UInt32.shiftRight_xor]
    -- The polynomial was taken in twice.
    calc x >>> 1 ^^^ y >>> 1
      _ = x >>> 1 ^^^ y >>> 1 ^^^ ((0xedb88320 : UInt32) ^^^ 0xedb88320) := by
        rw [UInt32.xor_self, UInt32.xor_zero]
      _ = x >>> 1 ^^^ (0xedb88320 : UInt32) ^^^ (y >>> 1 ^^^ (0xedb88320 : UInt32)) := by ac_rfl

theorem crcBit_eq_zero {crc : UInt32} (h : crcBit crc = 0) : crc = 0 := by
  have hshift := toNat_halve crc
  have hlow := toNat_low_bit crc
  rcases low_bit crc with heven | hodd
  · rw [crcBit_even heven] at h
    rw [h] at hshift
    rw [heven] at hlow
    apply UInt32.toNat_inj.mp
    have hzero : (0 : UInt32).toNat = 0 := rfl
    omega
  · rw [crcBit_odd hodd] at h
    have hpoly : crc >>> 1 = 0xedb88320 := UInt32.xor_eq_zero_iff.mp h
    rw [hpoly] at hshift
    have hlt := crc.toNat_lt
    have hvalue : (0xedb88320 : UInt32).toNat = 3988292384 := rfl
    omega

theorem crcBit_injective : Function.Injective crcBit := by
  intro x y h
  have hzero : crcBit (x ^^^ y) = 0 := by rw [crcBit_xor, h, UInt32.xor_self]
  exact UInt32.xor_eq_zero_iff.mp (crcBit_eq_zero hzero)

/-! ### Several bits -/

theorem crcBits_xor (k : ℕ) (x y : UInt32) :
    crcBit^[k] (x ^^^ y) = crcBit^[k] x ^^^ crcBit^[k] y := by
  induction k generalizing x y with
  | zero => rfl
  | succ k ih => rw [Function.iterate_succ_apply, crcBit_xor, ih]; rfl

theorem crcBit_double {n : ℕ} (h : 2 * n < 2 ^ 32) :
    crcBit (UInt32.ofNat (2 * n)) = UInt32.ofNat n := by
  have heven : UInt32.ofNat (2 * n) &&& 1 = 0 := by
    apply UInt32.toNat_inj.mp
    rw [toNat_low_bit, UInt32.toNat_ofNat', Nat.mod_eq_of_lt h]
    exact Nat.mul_mod_right 2 n
  rw [crcBit_even heven]
  apply UInt32.toNat_inj.mp
  rw [toNat_halve, UInt32.toNat_ofNat', UInt32.toNat_ofNat', Nat.mod_eq_of_lt h,
    Nat.mod_eq_of_lt (by omega)]
  exact Nat.mul_div_cancel_left n (by decide)

theorem crcBits_mul (k n : ℕ) (h : n * 2 ^ k < 2 ^ 32) :
    crcBit^[k] (UInt32.ofNat (n * 2 ^ k)) = UInt32.ofNat n := by
  induction k with
  | zero => rw [pow_zero, Nat.mul_one]; rfl
  | succ k ih =>
    have hdouble : n * 2 ^ (k + 1) = 2 * (n * 2 ^ k) := by ring
    rw [hdouble] at h ⊢
    rw [Function.iterate_succ_apply, crcBit_double h]
    exact ih (by omega)

/-! ### Bytes -/

theorem ofNat_bytesValue_cons (byte : UInt8) {bytes : List UInt8} (h : bytes.length ≤ 3) :
    UInt32.ofNat (bytesValue (byte :: bytes)) =
      byte.toUInt32 ^^^ UInt32.ofNat (bytesValue bytes * 2 ^ 8) := by
  have hbyte := byte.toNat_lt
  have hlt : bytesValue bytes < 256 ^ 3 :=
    (bytesValue_lt bytes).trans_le (Nat.pow_le_pow_right (by decide) h)
  have hvalue : bytesValue (byte :: bytes) = byte.toNat + 256 * bytesValue bytes := rfl
  apply UInt32.toNat_inj.mp
  rw [UInt32.toNat_xor, UInt8.toNat_toUInt32, UInt32.toNat_ofNat', UInt32.toNat_ofNat',
    Nat.mod_eq_of_lt (by omega), Nat.mod_eq_of_lt (by omega), hvalue]
  apply Nat.eq_of_testBit_eq
  intro i
  rw [Nat.testBit_xor, Nat.add_comm, show 256 = 2 ^ 8 by rfl, Nat.testBit_two_pow_mul_add _ hbyte,
    Nat.mul_comm, Nat.testBit_two_pow_mul]
  by_cases hi : i < 8
  · rw [if_pos hi, decide_eq_false (by omega)]
    simp
  · have hhigh : byte.toNat.testBit i = false :=
      Nat.testBit_lt_two_pow (hbyte.trans_le (Nat.pow_le_pow_right (by decide) (by omega)))
    rw [if_neg hi, decide_eq_true (by omega), hhigh]
    simp

/-- **Up to four bytes enter the register as one word**, and then the register is stepped over
their bits. -/
theorem foldl_crcByte {bytes : List UInt8} (h : bytes.length ≤ 4) (crc : UInt32) :
    bytes.foldl crcByte crc =
      crcBit^[8 * bytes.length] (crc ^^^ UInt32.ofNat (bytesValue bytes)) := by
  induction bytes generalizing crc with
  | nil => exact (UInt32.xor_zero).symm
  | cons byte bytes ih =>
    have hlength : bytes.length ≤ 3 := Nat.le_of_succ_le_succ h
    have hlt : bytesValue bytes < 256 ^ 3 :=
      (bytesValue_lt bytes).trans_le (Nat.pow_le_pow_right (by decide) hlength)
    have hword : UInt32.ofNat (bytesValue bytes) =
        crcBit^[8] (UInt32.ofNat (bytesValue bytes * 2 ^ 8)) :=
      (crcBits_mul 8 _ (by omega)).symm
    calc bytes.foldl crcByte (crcByte crc byte)
      _ = crcBit^[8 * bytes.length] (crcByte crc byte ^^^ UInt32.ofNat (bytesValue bytes)) :=
        ih (by omega) _
      _ = crcBit^[8 * bytes.length] (crcBit^[8]
          (crc ^^^ byte.toUInt32 ^^^ UInt32.ofNat (bytesValue bytes * 2 ^ 8))) := by
        rw [hword, crcByte, ← crcBits_xor]
      _ = crcBit^[8 * (bytes.length + 1)]
          (crc ^^^ UInt32.ofNat (bytesValue (byte :: bytes))) := by
        rw [ofNat_bytesValue_cons byte hlength, UInt32.xor_assoc, Nat.mul_succ,
          Function.iterate_add_apply]

theorem crcByte_injective (byte : UInt8) : Function.Injective (crcByte · byte) := by
  intro x y h
  exact (UInt32.xor_left_inj _).mp (crcBit_injective.iterate 8 h)

theorem foldl_crcByte_injective (bytes : List UInt8) :
    Function.Injective (bytes.foldl crcByte) := by
  induction bytes with
  | nil => exact Function.injective_id
  | cons byte bytes ih => exact ih.comp (crcByte_injective byte)

theorem bytesValue_injective {bytes others : List UInt8} (hlength : bytes.length = others.length)
    (h : bytesValue bytes = bytesValue others) : bytes = others := by
  refine List.ext_getElem hlength fun k hk hk' => ?_
  apply UInt8.toNat_inj.mp
  rw [← List.getD_eq_getElem _ 0 hk, ← List.getD_eq_getElem _ 0 hk', ← bytesValue_div,
    ← bytesValue_div, h]

/-- **Bursts**: strings that differ in at most four consecutive bytes leave different registers. -/
theorem crcByte_burst (crc : UInt32) (front rest : List UInt8) {burst other : List UInt8}
    (hburst : burst.length ≤ 4) (hlength : other.length = burst.length)
    (h : (front ++ burst ++ rest).foldl crcByte crc = (front ++ other ++ rest).foldl crcByte crc) :
    other = burst := by
  rw [List.foldl_append, List.foldl_append, List.foldl_append, List.foldl_append] at h
  have hword := foldl_crcByte_injective rest h
  rw [foldl_crcByte hburst, foldl_crcByte (hlength.trans_le hburst), hlength] at hword
  have hvalue := (UInt32.xor_right_inj _).mp (crcBit_injective.iterate _ hword)
  have hlt : ∀ bytes : List UInt8, bytes.length ≤ 4 → bytesValue bytes < 2 ^ 32 := by
    intro bytes hbytes
    exact (bytesValue_lt bytes).trans_le (Nat.pow_le_pow_right (by decide : 0 < 256) hbytes)
  have hnat := congrArg UInt32.toNat hvalue
  rw [UInt32.toNat_ofNat', UInt32.toNat_ofNat', Nat.mod_eq_of_lt (hlt burst hburst),
    Nat.mod_eq_of_lt (hlt other (hlength.trans_le hburst))] at hnat
  exact bytesValue_injective hlength hnat.symm

theorem bytesValue_writeU32 (value : UInt32) : bytesValue (writeU32 value) = value.toNat := by
  have hvalue : bytesValue (writeU32 value) = value.toNat % 256 + 256 * (value.toNat / 256 % 256 +
      256 * (value.toNat / 65536 % 256 + 256 * (value.toNat / 16777216 % 256 + 256 * 0))) := by
    have hbyte : ∀ k < 4, ((value >>> UInt32.ofNat (8 * k)).toUInt8).toNat =
        value.toNat / 2 ^ (8 * k) % 256 := fun k hk => shiftRight_toUInt8_toNat32 value hk
    show ((value >>> UInt32.ofNat (8 * 0)).toUInt8).toNat + 256 *
      (((value >>> UInt32.ofNat (8 * 1)).toUInt8).toNat + 256 *
      (((value >>> UInt32.ofNat (8 * 2)).toUInt8).toNat + 256 *
      (((value >>> UInt32.ofNat (8 * 3)).toUInt8).toNat + 256 * 0))) = _
    rw [hbyte 0 (by omega), hbyte 1 (by omega), hbyte 2 (by omega), hbyte 3 (by omega)]
    norm_num
  have hlt := value.toNat_lt
  omega

/-- **Bytes and their checksum** leave a register that does not depend on the bytes. -/
theorem foldl_crcByte_crc32 (bytes : List UInt8) :
    (bytes ++ writeU32 (crc32 bytes)).foldl crcByte 0xffffffff = crcBit^[32] 0xffffffff := by
  rw [List.foldl_append, foldl_crcByte (length_writeU32 _).le, bytesValue_writeU32,
    UInt32.ofNat_toNat, crc32, length_writeU32, UInt32.xor_not, UInt32.xor_self]
  rfl

end RlcdDeck.Bytes
