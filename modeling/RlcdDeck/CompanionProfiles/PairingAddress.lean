import Mathlib.Tactic.Ring
import RlcdDeck.CompanionProfiles.Set

/-!
# The pairing address

`valid_pairing_address` of `deck_companion_profiles.cpp`, with `sscanf` as far as its format uses it: a
`%u` is read as `strtoul` reads it, and an `unsigned long` has 32 bits.
-/

namespace RlcdDeck.CompanionProfiles

/-- `isspace`. -/
def isSpace (byte : UInt8) : Bool := byte == 0x20 || (0x09 ≤ byte && byte ≤ 0x0d)

/-- The number that decimal digits write. -/
def decimalValue (digits : List UInt8) : ℕ :=
  digits.foldl (fun value byte => value * 10 + (byte.toNat - 0x30)) 0

/-- `%u`: white space, a sign and digits.  A number that is too large is `ULONG_MAX`, and a minus takes
the negative modulo `2^32`. -/
def scanUnsigned (input : List UInt8) : Option (UInt32 × List UInt8) :=
  let input := input.dropWhile isSpace
  let negative := input.head? == some (ascii '-')
  let input := if negative || input.head? == some (ascii '+') then input.tail else input
  let digits := input.takeWhile isDigit
  if digits = [] then none
  else
    let value := decimalValue digits
    some
      (if 2 ^ 32 ≤ value then 0xffffffff
        else if negative then 0 - UInt32.ofNat value
        else UInt32.ofNat value,
        input.dropWhile isDigit)

/-- The ordinary characters of a format. -/
def scanLiteral (literal input : List UInt8) : Option (List UInt8) :=
  if input.take literal.length = literal then some (input.drop literal.length) else none

/-- `192.168.4.`. -/
def networkText : List UInt8 := "192.168.4.".toList.map ascii

/-- `sscanf(address, "192.168.4.%u:%*u%n", &octet, &consumed)`: the octet if it is assigned, and what
`%n` assigns, or zero. -/
def scanPairingAddress (address : CString) : Option UInt32 × ℕ :=
  match scanLiteral networkText address with
  | none => (none, 0)
  | some input =>
    match scanUnsigned input with
    | none => (none, 0)
    | some (octet, input) =>
      match scanLiteral [ascii ':'] input with
      | none => (some octet, 0)
      | some input =>
        match scanUnsigned input with
        | none => (some octet, 0)
        | some (_, rest) => (some octet, address.length - rest.length)

/-- `valid_pairing_address`. -/
def validPairingAddress (address : CString) (expectedPort : UInt16) : Bool :=
  match addressPort address with
  | none => false
  | some port =>
    if port ≠ expectedPort.toNat then false
    else
      match scanPairingAddress address with
      | (none, _) => false
      | (some octet, consumed) =>
        decide (0 < consumed) && consumed == address.length && decide (2 ≤ octet) && decide (octet ≤ 254)

end RlcdDeck.CompanionProfiles
