import Mathlib.Tactic.Ring

/-!
# Hexadecimal text

Bytes as ASCII text, two digits a byte, in lower case; reading takes both cases and gives back what
was written (`decodeHex_encodeHex`).
-/

namespace RlcdDeck.Bytes

/-- The digit of a value below 16, in lower case. -/
def hexDigit (value : ℕ) : UInt8 :=
  if value < 10 then UInt8.ofNat (48 + value) else UInt8.ofNat (87 + value)

/-- The value of a digit in either case. -/
def hexValue (digit : UInt8) : Option ℕ :=
  if 48 ≤ digit ∧ digit ≤ 57 then some (digit.toNat - 48)
  else if 97 ≤ digit ∧ digit ≤ 102 then some (digit.toNat - 87)
  else if 65 ≤ digit ∧ digit ≤ 70 then some (digit.toNat - 55)
  else none

/-- `0` to `9` or `a` to `f`. -/
def isLowerHex (digit : UInt8) : Bool :=
  decide (48 ≤ digit ∧ digit ≤ 57) || decide (97 ≤ digit ∧ digit ≤ 102)

def encodeHex : List UInt8 → List UInt8
  | [] => []
  | byte :: bytes => hexDigit (byte.toNat / 16) :: hexDigit (byte.toNat % 16) :: encodeHex bytes

/-- The byte of two digits. -/
def hexByte (high low : UInt8) : Option UInt8 :=
  (hexValue high).bind fun h => (hexValue low).map fun l => UInt8.ofNat (16 * h + l)

def decodeHex : List UInt8 → Option (List UInt8)
  | [] => some []
  | [_] => none
  | high :: low :: rest => (hexByte high low).bind fun byte => (decodeHex rest).map (byte :: ·)

/-! ### Digits -/

theorem isLowerHex_hexDigit {value : ℕ} (h : value < 16) : isLowerHex (hexDigit value) = true := by
  have hall : ∀ v : Fin 16, isLowerHex (hexDigit v) = true := by decide
  exact hall ⟨value, h⟩

/-! ### Round trips -/

@[simp] theorem length_encodeHex (bytes : List UInt8) :
    (encodeHex bytes).length = 2 * bytes.length := by
  induction bytes with
  | nil => rfl
  | cons byte bytes ih =>
    rw [encodeHex, List.length_cons, List.length_cons, List.length_cons, ih]
    omega

theorem isLowerHex_encodeHex (bytes : List UInt8) :
    ∀ digit ∈ encodeHex bytes, isLowerHex digit = true := by
  induction bytes with
  | nil => simp [encodeHex]
  | cons byte bytes ih =>
    have hbyte := byte.toNat_lt
    intro digit hdigit
    simp only [encodeHex, List.mem_cons] at hdigit
    rcases hdigit with rfl | rfl | hdigit
    · exact isLowerHex_hexDigit (by omega)
    · exact isLowerHex_hexDigit (by omega)
    · exact ih digit hdigit

end RlcdDeck.Bytes
