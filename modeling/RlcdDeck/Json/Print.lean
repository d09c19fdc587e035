import RlcdDeck.Json.Lexer
import RlcdDeck.Utf8.Range

/-!
# Writing JSON

`Tree.print` writes a value without white space.  `escape` is the body of the string that
`json.Marshal` writes for a byte string, with the characters of HTML escaped and an invalid
character replaced; `escapeHtml` is what it makes of the body of a string in a value that was
already JSON.
-/

namespace RlcdDeck.Json

/-! ### Strings -/

def hexDigit (n : ℕ) : UInt8 := if n < 10 then UInt8.ofNat (0x30 + n) else UInt8.ofNat (0x57 + n)

/-- `\u00XX` -/
def escapeUnicode (n : ℕ) : Bytes := bytes "\\u00" ++ [hexDigit (n / 16), hexDigit (n % 16)]

/-- `<`, `>` and `&`. -/
def isHtml (point : ℕ) : Bool := point == 0x3c || point == 0x3e || point == 0x26

/-- A character in a string. -/
def escapeRune : Option ℕ → Bytes
  | none => bytes "\\ufffd"
  | some point =>
    if point = 0x22 ∨ point = 0x5c then [backslash, UInt8.ofNat point]
    else if point = 0x08 then bytes "\\b"
    else if point = 0x0c then bytes "\\f"
    else if point = 0x0a then bytes "\\n"
    else if point = 0x0d then bytes "\\r"
    else if point = 0x09 then bytes "\\t"
    else if point < 0x20 ∨ isHtml point then escapeUnicode point
    else if point = 0x2028 ∨ point = 0x2029 then bytes "\\u202" ++ [hexDigit (point % 16)]
    else Utf8.encode point

/-- The body of the string for `s`. -/
def escape (s : Bytes) : Bytes := (Utf8.runes s).flatMap escapeRune

/-- The body of a string in a `json.RawMessage`. -/
def escapeHtml : Bytes → Bytes
  | [] => []
  | c :: bs =>
    if isHtml c.toNat then escapeUnicode c.toNat ++ escapeHtml bs
    else if c = 0xe2 then
      match bs with
      | c₁ :: c₂ :: rest =>
        if c₁ = 0x80 ∧ (c₂ = 0xa8 ∨ c₂ = 0xa9) then
          bytes "\\u202" ++ [hexDigit (c₂.toNat % 16)] ++ escapeHtml rest
        else c :: escapeHtml (c₁ :: c₂ :: rest)
      | [c₁] => c :: escapeHtml [c₁]
      | [] => [c]
    else c :: escapeHtml bs

/-! ### Numbers -/

/-- A number in decimal. -/
def decimalText (n : ℕ) : Bytes := (Nat.toDigits 10 n).map fun c => UInt8.ofNat c.toNat

/-- A number in decimal, with zeros up to a width. -/
def paddedText (width n : ℕ) : Bytes :=
  let digits := decimalText n
  List.replicate (width - digits.length) 0x30 ++ digits

/-! ### Values -/

namespace Tree

mutual

/-- The text of a value. -/
def print : Tree → Bytes
  | null => bytes "null"
  | bool b => if b then bytes "true" else bytes "false"
  | number text => text
  | string raw => quote :: raw ++ [quote]
  | array items => openBracket :: printItems items ++ [closeBracket]
  | object members => openBrace :: printMembers members ++ [closeBrace]

def printItems : List Tree → Bytes
  | [] => []
  | [t] => t.print
  | t :: items => t.print ++ comma :: printItems items

def printMembers : List (Bytes × Tree) → Bytes
  | [] => []
  | [(k, t)] => quote :: k ++ quote :: colon :: t.print
  | (k, t) :: members => quote :: k ++ quote :: colon :: t.print ++ comma :: printMembers members

end

mutual

/-- The value with every string body and key replaced. -/
def mapStrings (f : Bytes → Bytes) : Tree → Tree
  | string raw => string (f raw)
  | array items => array (mapStringsItems f items)
  | object members => object (mapStringsMembers f members)
  | t => t

def mapStringsItems (f : Bytes → Bytes) : List Tree → List Tree
  | [] => []
  | t :: items => t.mapStrings f :: mapStringsItems f items

def mapStringsMembers (f : Bytes → Bytes) : List (Bytes × Tree) → List (Bytes × Tree)
  | [] => []
  | (k, t) :: members => (f k, t.mapStrings f) :: mapStringsMembers f members

end

/-- The value for a string. -/
def ofString (s : Bytes) : Tree := string (escape s)

/-- The value for an unsigned integer. -/
def ofNat (n : ℕ) : Tree := number (decimalText n)

/-- The value for an integer. -/
def ofInt (n : ℤ) : Tree :=
  if n < 0 then number (minus :: decimalText n.natAbs) else ofNat n.natAbs

/-- A member under a name that needs no escape. -/
def member (name : String) (t : Tree) : Bytes × Tree := (bytes name, t)

/-- A member that `omitempty` leaves out. -/
def memberUnless (empty : Bool) (name : String) (t : Tree) : List (Bytes × Tree) :=
  if empty then [] else [member name t]

end Tree

end RlcdDeck.Json
