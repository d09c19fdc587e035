import Mathlib.Data.List.GetD
import Mathlib.Data.List.Nodup

/-!
# Base64

Three bytes are four sextets, and a sextet is a character of an alphabet.  `encodeRaw` leaves out
the padding and `encodePadded` has it; `decodeRaw` and `decodePadded` take back what they wrote.
The decoders skip line ends and do not look at the bits that the last character has left over.
-/

namespace RlcdDeck.Bytes.Base64

/-- 64 different characters, without the padding and the line ends. -/
structure Alphabet where
  chars : List UInt8
  length_chars : chars.length = 64
  nodup : chars.Nodup
  plain : ∀ c ∈ chars, c ≠ 10 ∧ c ≠ 13 ∧ c ≠ 61

/-- The alphabet of RFC 4648, with its last two characters. -/
def letters (c d : Char) : List UInt8 :=
  ("ABCDEFGHIJKLMNOPQRSTUVWXYZabcdefghijklmnopqrstuvwxyz0123456789".toList ++ [c, d]).map
    fun letter => UInt8.ofNat letter.toNat

/-- `StdEncoding`. -/
def standard : Alphabet where
  chars := letters '+' '/'
  length_chars := by decide
  nodup := by decide +kernel
  plain := by decide +kernel

/-- `URLEncoding`. -/
def urlSafe : Alphabet where
  chars := letters '-' '_'
  length_chars := by decide
  nodup := by decide +kernel
  plain := by decide +kernel

/-! ### Sextets -/

def toSextets : List UInt8 → List ℕ
  | [] => []
  | [a] => [a.toNat / 4, a.toNat % 4 * 16]
  | [a, b] => [a.toNat / 4, a.toNat % 4 * 16 + b.toNat / 16, b.toNat % 16 * 4]
  | a :: b :: c :: rest =>
    a.toNat / 4 :: (a.toNat % 4 * 16 + b.toNat / 16) :: (b.toNat % 16 * 4 + c.toNat / 64) ::
      c.toNat % 64 :: toSextets rest

/-- The byte across two sextets: the lower bits of the first and the upper bits of the second. -/
def across (first second up down : ℕ) : UInt8 :=
  UInt8.ofNat (first * up + second / down)

def ofSextets : List ℕ → Option (List UInt8)
  | [] => some []
  | [_] => none
  | [p, q] => some [across p q 4 16]
  | [p, q, r] => some [across p q 4 16, across q r 16 4]
  | p :: q :: r :: s :: rest =>
    (ofSextets rest).map fun bytes =>
      across p q 4 16 :: across q r 16 4 :: across r s 64 1 :: bytes

theorem length_toSextets (bytes : List UInt8) :
    (toSextets bytes).length = (4 * bytes.length + 2) / 3 := by
  induction bytes using toSextets.induct with
  | case1 => rfl
  | case2 a => simp [toSextets]
  | case3 a b => simp [toSextets]
  | case4 a b c rest ih =>
    simp only [toSextets, List.length_cons, ih]
    omega

/-! ### Characters -/

namespace Alphabet

/-- The character of a sextet. -/
def char (alphabet : Alphabet) (sextet : ℕ) : UInt8 := alphabet.chars.getD sextet 0

/-- The sextet of a character. -/
def sextet (alphabet : Alphabet) (c : UInt8) : Option ℕ := alphabet.chars.idxOf? c

end Alphabet

/-! ### Text -/

/-- A line end, which the decoders skip. -/
def isLineEnd (c : UInt8) : Bool := c == 10 || c == 13

/-- `RawStdEncoding` or `RawURLEncoding`, `EncodeToString`. -/
def encodeRaw (alphabet : Alphabet) (bytes : List UInt8) : List UInt8 :=
  (toSextets bytes).map alphabet.char

/-- The characters without the padding, decoded. -/
def decodeChars (alphabet : Alphabet) (chars : List UInt8) : Option (List UInt8) :=
  (chars.mapM alphabet.sextet).bind ofSextets

/-- `RawStdEncoding` or `RawURLEncoding`, `DecodeString`. -/
def decodeRaw (alphabet : Alphabet) (text : List UInt8) : Option (List UInt8) :=
  decodeChars alphabet (text.filter fun c => !isLineEnd c)

/-- How many characters the padding has. -/
def padding (size : ℕ) : ℕ := (3 - size % 3) % 3

/-- `StdEncoding` or `URLEncoding`, `EncodeToString`. -/
def encodePadded (alphabet : Alphabet) (bytes : List UInt8) : List UInt8 :=
  encodeRaw alphabet bytes ++ List.replicate (padding bytes.length) 61

/-- The decoding of padded text. -/
def decodePadded (alphabet : Alphabet) (text : List UInt8) : Option (List UInt8) :=
  let chars := text.filter fun c => !isLineEnd c
  let body := chars.takeWhile (· != 61)
  let pad := chars.drop body.length
  if chars.length % 4 = 0 ∧ pad.length ≤ 2 ∧ pad.all (· == 61) then decodeChars alphabet body
  else none

theorem length_encodeRaw (alphabet : Alphabet) (bytes : List UInt8) :
    (encodeRaw alphabet bytes).length = (4 * bytes.length + 2) / 3 := by
  rw [encodeRaw, List.length_map, length_toSextets]

theorem length_encodePadded (alphabet : Alphabet) (bytes : List UInt8) :
    (encodePadded alphabet bytes).length = 4 * ((bytes.length + 2) / 3) := by
  rw [encodePadded, List.length_append, length_encodeRaw, List.length_replicate, padding]
  omega

end RlcdDeck.Bytes.Base64
