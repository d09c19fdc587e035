import RlcdDeck.Json.Unquote

/-!
# The firmware's snapshot parser

`Parser` and `Document` of `deck_ai_snapshot.cpp`.  The parser fills an array of nodes that point
into the document; here it builds the tree of those nodes, and a string node holds the bytes
between its quotes.  `Cursor` is what is left of the document and how many nodes are taken.

Decoded strings are C strings: comparing two of them stops at the first NUL (`cString`).
-/

namespace RlcdDeck.AiSnapshot

open Json (Bytes Tree bytes quote backslash letterU isDigit isHex skipSpace hexQuad)

/-- `kMaximumNodes`. -/
def maximumNodes : ℕ := 2048

/-- `valid_utf8`. -/
def validUtf8 : Bytes → Bool
  | [] => true
  | first :: rest =>
    if first ≤ 0x7f then validUtf8 rest
    else if first &&& 0xe0 = 0xc0 then
      match rest with
      | b₁ :: rest =>
        let codepoint := (first &&& 0x1f).toNat <<< 6 ||| (b₁ &&& 0x3f).toNat
        b₁ &&& 0xc0 == 0x80 && inRange 0x80 codepoint && validUtf8 rest
      | _ => false
    else if first &&& 0xf0 = 0xe0 then
      match rest with
      | b₁ :: b₂ :: rest =>
        let codepoint := (first &&& 0x0f).toNat <<< 6 ||| (b₁ &&& 0x3f).toNat
        let codepoint := codepoint <<< 6 ||| (b₂ &&& 0x3f).toNat
        b₁ &&& 0xc0 == 0x80 && b₂ &&& 0xc0 == 0x80 && inRange 0x800 codepoint && validUtf8 rest
      | _ => false
    else if first &&& 0xf8 = 0xf0 then
      match rest with
      | b₁ :: b₂ :: b₃ :: rest =>
        let codepoint := (first &&& 0x07).toNat <<< 6 ||| (b₁ &&& 0x3f).toNat
        let codepoint := codepoint <<< 6 ||| (b₂ &&& 0x3f).toNat
        let codepoint := codepoint <<< 6 ||| (b₃ &&& 0x3f).toNat
        b₁ &&& 0xc0 == 0x80 && b₂ &&& 0xc0 == 0x80 && b₃ &&& 0xc0 == 0x80 &&
          inRange 0x10000 codepoint && validUtf8 rest
      | _ => false
    else false
where
  /-- Whether the decoded code point needs its bytes and is no surrogate. -/
  inRange (minimum codepoint : ℕ) : Bool :=
    !(codepoint < minimum || codepoint > 0x10ffff || (0xd800 ≤ codepoint && codepoint ≤ 0xdfff))

alias validUtf8_def := validUtf8.eq_def

/-! ### Strings of the document -/

/-- What a C string holds of a buffer. -/
def cString (buffer : Bytes) : Bytes := buffer.takeWhile (· ≠ 0)

/-- `std::strchr` finds a character of the text or the NUL that ends it. -/
def strchr (text : Bytes) (c : UInt8) : Bool := c ∈ text || c == 0

namespace Document

/-- The loop of `decode_ascii`, with `written` bytes in a buffer of `capacity`. -/
def decodeAsciiLoop (capacity : ℕ) : ℕ → Bytes → Option Bytes
  | _, [] => some []
  | written, c :: bs =>
    if c = backslash then
      match bs with
      | [] => none
      | e :: bs =>
        if e = letterU then
          match bs with
          | h₁ :: h₂ :: h₃ :: h₄ :: bs =>
            match hexQuad h₁ h₂ h₃ h₄ with
            | none => none
            | some codepoint =>
              if codepoint > 0x7f || written + 1 ≥ capacity then none
              else (UInt8.ofNat codepoint :: ·) <$> decodeAsciiLoop capacity (written + 1) bs
          | _ => none
        else
          match Json.escapeValue e with
          | none => none
          | some byte =>
            if byte > 0x7f || written + 1 ≥ capacity then none
            else (byte :: ·) <$> decodeAsciiLoop capacity (written + 1) bs
    else if c > 0x7f || written + 1 ≥ capacity then none
    else (c :: ·) <$> decodeAsciiLoop capacity (written + 1) bs

/-- `decode_ascii` into a buffer of `capacity` bytes. -/
def decodeAscii (capacity : ℕ) : Tree → Option Bytes
  | .string raw => decodeAsciiLoop capacity 0 raw
  | _ => none

/-- `string_equals`. -/
def stringEquals (t : Tree) (expected : Bytes) : Bool :=
  match decodeAscii 96 t with
  | none => false
  | some decoded => cString decoded == expected

/-- `field`. -/
def field (t : Tree) (name : Bytes) : Option Tree :=
  match t with
  | .object members => (members.find? fun m => stringEquals (.string m.1) name).map (·.2)
  | _ => none

/-- `unsigned_integer`: the digits as a 64-bit number. -/
def unsignedInteger : Tree → Option ℕ
  | .number text =>
    if text.isEmpty || text.head? == some Json.minus then none
    else
      text.foldlM
        (fun parsed c =>
          let digit := c.toNat - 0x30
          if parsed > (2 ^ 64 - 1 - digit) / 10 then none else some (parsed * 10 + digit))
        0
  | _ => none

/-- The loop of `safe_text`: how many code points the body has, unless one is a control. -/
def safeTextLoop : Bytes → Option ℕ
  | [] => some 0
  | c :: bs =>
    if c = backslash then
      match bs with
      | [] => none
      | e :: bs =>
        if e ∈ bytes "bfnrt" then none
        else if e = letterU then
          match bs with
          | h₁ :: h₂ :: h₃ :: h₄ :: bs =>
            match hexQuad h₁ h₂ h₃ h₄ with
            | none => none
            | some codepoint =>
              if Json.isHigh codepoint then
                match bs with
                | c' :: e' :: l₁ :: l₂ :: l₃ :: l₄ :: bs =>
                  if c' = backslash ∧ e' = letterU then
                    match hexQuad l₁ l₂ l₃ l₄ with
                    | none => none
                    | some low => if Json.isLow low then (· + 1) <$> safeTextLoop bs else none
                  else none
                | _ => none
              else if Json.isLow codepoint then none
              else if codepoint < 0x20 || codepoint == 0x7f then none
              else (· + 1) <$> safeTextLoop bs
          | _ => none
        else (· + 1) <$> safeTextLoop bs
    else if c = 0x7f then none
    else if c ≥ 0x80 then
      if c &&& 0xe0 = 0xc0 then
        match bs with
        | _ :: bs => (· + 1) <$> safeTextLoop bs
        | _ => none
      else if c &&& 0xf0 = 0xe0 then
        match bs with
        | _ :: _ :: bs => (· + 1) <$> safeTextLoop bs
        | _ => none
      else if c &&& 0xf8 = 0xf0 then
        match bs with
        | _ :: _ :: _ :: bs => (· + 1) <$> safeTextLoop bs
        | _ => none
      else none
    else (· + 1) <$> safeTextLoop bs

alias safeTextLoop_def := safeTextLoop.eq_def

/-- `safe_text`. -/
def safeText (maximum : ℕ) : Tree → Bool
  | .string raw =>
    match safeTextLoop raw with
    | none => false
    | some codepoints => codepoints > 0 && codepoints ≤ maximum
  | _ => false

end Document

/-! ### The parser -/

/-- What is left of the document, and `count_`. -/
structure Cursor where
  rest : Bytes
  count : ℕ

namespace Parser

/-- `allocate`. -/
def allocate (s : Cursor) : Option Cursor :=
  if s.count = maximumNodes then none else some { s with count := s.count + 1 }

def whitespace (s : Cursor) : Cursor := { s with rest := skipSpace s.rest }

/-- `string`. -/
def string (s : Cursor) : Option (Bytes × Cursor) :=
  match s.rest with
  | [] => none
  | c :: b =>
    if c = quote then do
      let s ← allocate { s with rest := b }
      let (raw, rest) ← Json.stringBody (strchr (bytes "\"\\/bfnrt")) s.rest
      return (raw, { s with rest })
    else none

/-- The bytes of `integer`. -/
def integerText (bs : Bytes) : Option (Bytes × Bytes) := do
  let (text, rest) ← Json.integerPart bs
  if rest.head?.any fun c => c == 0x2e || c == 0x65 || c == 0x45 then none
  return (text, rest)

/-- `integer`. -/
def integer (s : Cursor) : Option (Tree × Cursor) := do
  let (text, rest) ← integerText s.rest
  let s ← allocate { s with rest }
  return (.number text, s)

/-- `literal`. -/
def literal (text : Bytes) (t : Tree) (s : Cursor) : Option (Tree × Cursor) := do
  if !text.isPrefixOf s.rest then none
  let s ← allocate { s with rest := s.rest.drop text.length }
  return (t, s)

/-- `duplicate_key`. -/
def duplicateKey (keys : List Bytes) (candidate : Bytes) : Bool :=
  match Document.decodeAscii 65 (.string candidate) with
  | none => true
  | some candidateText =>
    keys.any fun key =>
      match Document.decodeAscii 65 (.string key) with
      | none => true
      | some existing => cString candidateText == cString existing

/-- `consume`. -/
def consume (expected : UInt8) (s : Cursor) : Option Cursor :=
  match s.rest with
  | [] => none
  | c :: b => if c = expected then some { s with rest := b } else none

/-- The loop of `object`, after the keys already read. -/
def members (value : Cursor → Option (Tree × Cursor)) :
    ℕ → List Bytes → Cursor → Option (List (Bytes × Tree) × Cursor)
  | 0, _, _ => none
  | fuel + 1, keys, s => do
    let (key, s) ← string s
    if duplicateKey keys key then none
    let s ← consume Json.colon (whitespace s)
    let (child, s) ← value s
    match consume Json.closeBrace (whitespace s) with
    | some s => some ([(key, child)], s)
    | none => do
      let s ← consume Json.comma (whitespace s)
      let (more, s) ← members value fuel (keys ++ [key]) (whitespace s)
      return ((key, child) :: more, s)

/-- The loop of `array`. -/
def items (value : Cursor → Option (Tree × Cursor)) :
    ℕ → Cursor → Option (List Tree × Cursor)
  | 0, _ => none
  | fuel + 1, s => do
    let (child, s) ← value s
    match consume Json.closeBracket (whitespace s) with
    | some s => some ([child], s)
    | none => do
      let s ← consume Json.comma (whitespace s)
      let (more, s) ← items value fuel (whitespace s)
      return (child :: more, s)

/-- `object`, past its opening brace. -/
def object (value : Cursor → Option (Tree × Cursor)) (s : Cursor) : Option (Tree × Cursor) := do
  let s ← allocate s
  match consume Json.closeBrace (whitespace s) with
  | some s => some (.object [], s)
  | none => do
    let (l, s) ← members value s.rest.length [] (whitespace s)
    return (.object l, s)

/-- `array`, past its opening bracket. -/
def array (value : Cursor → Option (Tree × Cursor)) (s : Cursor) : Option (Tree × Cursor) := do
  let s ← allocate s
  match consume Json.closeBracket (whitespace s) with
  | some s => some (.array [], s)
  | none => do
    let (l, s) ← items value s.rest.length (whitespace s)
    return (.array l, s)

/-- `value`, with `levels` depths left before the limit of 32 is passed. -/
def value : ℕ → Cursor → Option (Tree × Cursor)
  | 0, _ => none
  | levels + 1, s =>
    let s := whitespace s
    match s.rest with
    | [] => none
    | c :: b =>
      if c = Json.openBrace then object (value levels) { s with rest := b }
      else if c = Json.openBracket then array (value levels) { s with rest := b }
      else if c = quote then (fun p => (.string p.1, p.2)) <$> string s
      else if c = 0x74 then literal (bytes "true") (.bool true) s
      else if c = 0x66 then literal (bytes "false") (.bool false) s
      else if c = 0x6e then literal (bytes "null") .null s
      else integer s

/-- `parse`. -/
def parse (document : Bytes) : Option Tree := do
  let (root, s) ← value 33 ⟨skipSpace document, 0⟩
  if (whitespace s).rest.isEmpty then some root else none

end Parser

end RlcdDeck.AiSnapshot
