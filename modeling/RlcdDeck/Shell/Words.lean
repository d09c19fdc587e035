import Mathlib.Data.List.Basic

/-!
# The words of a shell command

How a POSIX shell reads the text of one simple command as words: field splitting on blanks, single
quotes, double quotes in which a backslash is special only before `$`, a backquote, `"`, `\` and a
newline, backslash escapes and line continuation.  A quote begins a word even if nothing stands in
it.  Expansions, operators and comments are left out: text that has one is not read.
-/

namespace RlcdDeck.Shell

abbrev Word := List Char

/-- How a character is read. -/
inductive Mode where
  | unquoted
  | escaped
  | single
  | double
  | doubleEscaped
  deriving DecidableEq

/-- How the character after `c` is read. -/
def Mode.next : Mode → Char → Mode
  | .unquoted, c =>
    if c = '\'' then .single else if c = '"' then .double else if c = '\\' then .escaped
    else .unquoted
  | .escaped, _ => .unquoted
  | .single, c => if c = '\'' then .unquoted else .single
  | .double, c => if c = '"' then .unquoted else if c = '\\' then .doubleEscaped else .double
  | .doubleEscaped, _ => .double

/-- The characters of a source, each with how it is read. -/
def readings : Mode → List Char → List (Mode × Char)
  | _, [] => []
  | mode, c :: source => (mode, c) :: readings (mode.next c) source

def isBlank (c : Char) : Bool := c == ' ' || c == '\t'

/-- The unquoted characters that ask for an expansion of the word. -/
def isPattern (c : Char) : Bool := "*?[{}~()".toList.contains c

/-- The unquoted characters that end a command or redirect it. -/
def isOperator (c : Char) : Bool := ";|&<>\n".toList.contains c

/-- The characters that ask for an expansion even inside double quotes. -/
def isExpansion (c : Char) : Bool := "$`".toList.contains c

/-- The characters before which a backslash inside double quotes is special. -/
def isEscapable (c : Char) : Bool := "$`\"\\\n".toList.contains c

/-- What a character does to the word being read. -/
inductive Change where
  | keep
  | begin
  | add (text : Word)
  | cut

/-- What a character does, none if this is no part of a word. -/
def Mode.change : Mode → Char → Option Change
  | .unquoted, c =>
    if isBlank c then some .cut
    else if c = '\'' ∨ c = '"' then some .begin
    else if c = '\\' then some .keep
    else if isPattern c ∨ isOperator c ∨ isExpansion c then none
    else some (.add [c])
  | .escaped, c => some (if c = '\n' then .keep else .add [c])
  | .single, c => some (if c = '\'' then .keep else .add [c])
  | .double, c =>
    if c = '"' ∨ c = '\\' then some .keep
    else if isExpansion c then none
    else some (.add [c])
  | .doubleEscaped, c =>
    some (if c = '\n' then .keep else if isEscapable c then .add [c] else .add ['\\', c])

/-- The words read so far, and the one being read. -/
structure Reader where
  words : List Word := []
  word : Option Word := none
  mode : Mode := .unquoted

namespace Reader

def apply (reader : Reader) : Change → Reader
  | .keep => reader
  | .begin => { reader with word := some (reader.word.getD []) }
  | .add text => { reader with word := some (reader.word.getD [] ++ text) }
  | .cut => { reader with words := reader.words ++ reader.word.toList, word := none }

/-- One character.  A `#` that begins a word begins a comment. -/
def step (reader : Reader) (c : Char) : Option Reader :=
  if reader.mode = .unquoted ∧ reader.word = none ∧ c = '#' then none
  else (reader.mode.change c).map fun change =>
    { reader.apply change with mode := reader.mode.next c }

/-- The words, when nothing is left open. -/
def finish (reader : Reader) : Option (List Word) :=
  if reader.mode = .unquoted then some (reader.words ++ reader.word.toList) else none

end Reader

/-- The words of a source. -/
def words (source : List Char) : Option (List Word) :=
  (source.foldlM Reader.step {}).bind Reader.finish

example : words "a 'b c'\"\\d\" ''".toList =
    some ["a".toList, "b c\\d".toList, []] := by decide

/-! ### What a step does to the words -/

theorem Reader.step_mode {reader next : Reader} {c : Char} (h : reader.step c = some next) :
    next.mode = reader.mode.next c := by
  unfold step at h
  split_ifs at h
  obtain ⟨change, -, rfl⟩ := Option.map_eq_some_iff.mp h
  rfl

theorem Reader.finish_eq_some {reader : Reader} {ws : List Word} :
    reader.finish = some ws ↔ reader.mode = .unquoted ∧ ws = reader.words ++ reader.word.toList := by
  unfold finish
  split_ifs with h
  · simp [h, eq_comm]
  · simp [h]

end RlcdDeck.Shell
