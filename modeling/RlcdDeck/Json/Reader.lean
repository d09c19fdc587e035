import RlcdDeck.Json.Lexer

/-!
# Reading JSON

A recursive-descent reader for `Parses`, generic in the lexer.  It gives up on texts that nest
deeper than it is told; the loops over members and items carry as fuel the number of bytes ahead,
which they cannot use up.
-/

namespace RlcdDeck.Json

section Reader

variable (lexer : Lexer)

/-- A value that holds no others. -/
def scalar (bs : Bytes) : Option (Tree × Bytes) :=
  match skipSpace bs with
  | [] => none
  | c :: b =>
    if c = quote then (fun p => (.string p.1, p.2)) <$> lexer.string b
    else if (bytes "true").isPrefixOf (c :: b) then some (.bool true, b.drop 3)
    else if (bytes "false").isPrefixOf (c :: b) then some (.bool false, b.drop 4)
    else if (bytes "null").isPrefixOf (c :: b) then some (.null, b.drop 3)
    else (fun p => (.number p.1, p.2)) <$> lexer.number (c :: b)

/-- A key and its colon. -/
def key (bs : Bytes) : Option (Bytes × Bytes) :=
  match skipSpace bs with
  | [] => none
  | c :: b =>
    if c = quote then do
      let (k, b) ← lexer.string b
      match skipSpace b with
      | [] => none
      | c :: b => if c = colon then some (k, b) else none
    else none

def members (value : Bytes → Option (Tree × Bytes)) :
    ℕ → Bytes → Option (List (Bytes × Tree) × Bytes)
  | 0, _ => none
  | fuel + 1, bs => do
    let (k, b) ← key lexer bs
    let (t, b) ← value b
    match skipSpace b with
    | [] => none
    | c :: b =>
      if c = closeBrace then some ([(k, t)], b)
      else if c = comma then (fun p => ((k, t) :: p.1, p.2)) <$> members value fuel b
      else none

def items (value : Bytes → Option (Tree × Bytes)) : ℕ → Bytes → Option (List Tree × Bytes)
  | 0, _ => none
  | fuel + 1, bs => do
    let (t, b) ← value bs
    match skipSpace b with
    | [] => none
    | c :: b =>
      if c = closeBracket then some ([t], b)
      else if c = comma then (fun p => (t :: p.1, p.2)) <$> items value fuel b
      else none

/-- A value, with at most `depth` arrays and objects inside one another. -/
def value : ℕ → Bytes → Option (Tree × Bytes)
  | 0 => fun bs =>
    match skipSpace bs with
    | [] => none
    | c :: _ => if c = openBrace ∨ c = openBracket then none else scalar lexer bs
  | depth + 1 => fun bs =>
    match skipSpace bs with
    | [] => none
    | c :: b =>
      if c = openBrace then
        match skipSpace b with
        | [] => none
        | c' :: b' =>
          if c' = closeBrace then some (.object [], b')
          else (fun p => (.object p.1, p.2)) <$> members lexer (value depth) b.length b
      else if c = openBracket then
        match skipSpace b with
        | [] => none
        | c' :: b' =>
          if c' = closeBracket then some (.array [], b')
          else (fun p => (.array p.1, p.2)) <$> items (value depth) b.length b
      else scalar lexer bs

/-- The value that the whole text is. -/
def read (depth : ℕ) (text : Bytes) : Option Tree :=
  match value lexer depth text with
  | none => none
  | some (t, rest) => if (skipSpace rest).isEmpty then some t else none

end Reader

end RlcdDeck.Json
