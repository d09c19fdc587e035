import RlcdDeck.AiSnapshot.Decode

/-!
# `protocol.DecodeStrictDocumentLimit`

The checks that come before the fields: the size, UTF-8, escapes that denote characters, and no
key twice in one object.  Into `any`, a number also has to be a `float64`.
-/

namespace RlcdDeck.StructuredProvider

open Json (Bytes Tree isDigit isExponent)
open AiSnapshot.Companion (unmarshal uniqueKeys validJsonStringEscapes parseUint)

/-- The value that the message is. -/
def strictDocument (maximumBytes : ℕ) (message : Bytes) : Option Tree :=
  if message.length ≤ maximumBytes && Utf8.valid message && validJsonStringEscapes false message then
    (unmarshal message).filter uniqueKeys
  else none

/-- The exponent of a number. -/
def exponentOf (text : Bytes) : ℤ :=
  match text.dropWhile fun c => !isExponent c with
  | _ :: 0x2d :: digits => -((parseUint digits).getD 0)
  | _ :: 0x2b :: digits => (parseUint digits).getD 0
  | _ :: digits => (parseUint digits).getD 0
  | [] => 0

/-- `strconv.ParseFloat` of a number does not overflow: the number is below the midpoint between
the greatest `float64` and the next power of two. -/
def fitsFloat64 (text : Bytes) : Bool :=
  let mantissa := (text.takeWhile fun c => !isExponent c).filter isDigit
  let fraction := (text.takeWhile fun c => !isExponent c).dropWhile (· != 0x2e)
  let scale := exponentOf text - ((fraction.length - 1 : ℕ) : ℤ)
  let digits := mantissa.dropWhile (· == 0x30)
  let value := (parseUint digits).getD 0
  if digits.isEmpty then true
  else if 310 < digits.length + scale then false
  else if digits.length + scale < 300 then true
  else if 0 ≤ scale then decide (value * 10 ^ scale.natAbs < 2 ^ 1024 - 2 ^ 970)
  else decide (value < (2 ^ 1024 - 2 ^ 970) * 10 ^ scale.natAbs)

/-- Every number fits. -/
def numbersFit (value : Tree) : Bool :=
  value.nodes.all fun
    | .number text => fitsFloat64 text
    | _ => true

/-- Into `any`. -/
def strictAny (maximumBytes : ℕ) (message : Bytes) : Option Tree :=
  (strictDocument maximumBytes message).filter numbersFit

end RlcdDeck.StructuredProvider
