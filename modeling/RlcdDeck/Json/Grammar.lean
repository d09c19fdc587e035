import Mathlib.Tactic.Ring

/-!
# The JSON grammar

Texts of RFC 8259 as trees that keep the bytes of every string and number as they stand in the
text.  The grammar is a relation `Parses` between the bytes before a value, the value, and the
bytes after it.  It leaves open which string bodies and numbers there are: a `Lexer` says so, and
two readers of the same texts may disagree about exactly that.
-/

namespace RlcdDeck.Json

abbrev Bytes := List UInt8

/-- The bytes of an ASCII literal. -/
def bytes (s : String) : Bytes := s.toList.map fun c => UInt8.ofNat c.toNat

abbrev quote : UInt8 := 0x22
abbrev backslash : UInt8 := 0x5c
abbrev openBrace : UInt8 := 0x7b
abbrev closeBrace : UInt8 := 0x7d
abbrev openBracket : UInt8 := 0x5b
abbrev closeBracket : UInt8 := 0x5d
abbrev colon : UInt8 := 0x3a
abbrev comma : UInt8 := 0x2c
abbrev minus : UInt8 := 0x2d

def isSpace (c : UInt8) : Bool := c == 0x20 || c == 0x09 || c == 0x0d || c == 0x0a

def isDigit (c : UInt8) : Bool := 0x30 ≤ c.toNat && c.toNat ≤ 0x39

/-- Drops the white space in front. -/
def skipSpace (bs : Bytes) : Bytes := bs.dropWhile isSpace

/-- A JSON value.  A string is what stands between its quotes. -/
inductive Tree where
  | null
  | bool (value : Bool)
  | number (text : Bytes)
  | string (raw : Bytes)
  | array (items : List Tree)
  | object (members : List (Bytes × Tree))

namespace Tree

mutual

/-- The value and every value inside it. -/
def nodes : Tree → List Tree
  | array items => array items :: nodesItems items
  | object members => object members :: nodesMembers members
  | t => [t]

def nodesItems : List Tree → List Tree
  | [] => []
  | t :: items => t.nodes ++ nodesItems items

def nodesMembers : List (Bytes × Tree) → List Tree
  | [] => []
  | (_, t) :: members => t.nodes ++ nodesMembers members

end

mutual

/-- The bodies of all strings, keys included, in the order of the text. -/
def strings : Tree → List Bytes
  | string raw => [raw]
  | array items => stringsItems items
  | object members => stringsMembers members
  | _ => []

def stringsItems : List Tree → List Bytes
  | [] => []
  | t :: items => t.strings ++ stringsItems items

def stringsMembers : List (Bytes × Tree) → List Bytes
  | [] => []
  | (k, t) :: members => k :: (t.strings ++ stringsMembers members)

end

mutual

/-- How many arrays and objects stand inside one another. -/
def depth : Tree → ℕ
  | array items => 1 + depthItems items
  | object members => 1 + depthMembers members
  | _ => 0

def depthItems : List Tree → ℕ
  | [] => 0
  | t :: items => max t.depth (depthItems items)

def depthMembers : List (Bytes × Tree) → ℕ
  | [] => 0
  | (_, t) :: members => max t.depth (depthMembers members)

end

/-! ### Equality -/

mutual

/-- Two values are written the same, white space apart. -/
def same : Tree → Tree → Bool
  | null, null => true
  | bool a, bool b => a == b
  | number a, number b => a == b
  | string a, string b => a == b
  | array a, array b => sameItems a b
  | object a, object b => sameMembers a b
  | _, _ => false

def sameItems : List Tree → List Tree → Bool
  | [], [] => true
  | a :: as, b :: bs => same a b && sameItems as bs
  | _, _ => false

def sameMembers : List (Bytes × Tree) → List (Bytes × Tree) → Bool
  | [], [] => true
  | (k, a) :: as, (l, b) :: bs => k == l && same a b && sameMembers as bs
  | _, _ => false

end

mutual

theorem same_iff : (a b : Tree) → (same a b = true ↔ a = b)
  | null, b => by cases b <;> simp [same]
  | bool _, b => by cases b <;> simp [same]
  | number _, b => by cases b <;> simp [same]
  | string _, b => by cases b <;> simp [same]
  | array as, b => by
    cases b with
    | array bs => rw [same, sameItems_iff as bs, array.injEq]
    | _ => simp [same]
  | object as, b => by
    cases b with
    | object bs => rw [same, sameMembers_iff as bs, object.injEq]
    | _ => simp [same]

theorem sameItems_iff : (as bs : List Tree) → (sameItems as bs = true ↔ as = bs)
  | [], bs => by cases bs <;> simp [sameItems]
  | a :: as, bs => by
    cases bs with
    | nil => simp [sameItems]
    | cons b bs => rw [sameItems, Bool.and_eq_true, same_iff a b, sameItems_iff as bs, List.cons.injEq]

theorem sameMembers_iff : (as bs : List (Bytes × Tree)) → (sameMembers as bs = true ↔ as = bs)
  | [], bs => by cases bs <;> simp [sameMembers]
  | (k, a) :: as, bs => by
    cases bs with
    | nil => simp [sameMembers]
    | cons b bs =>
      rw [sameMembers, Bool.and_eq_true, Bool.and_eq_true, beq_iff_eq, same_iff a b.2,
        sameMembers_iff as bs, List.cons.injEq, Prod.ext_iff]

end

instance : DecidableEq Tree := fun a b => decidable_of_iff (same a b = true) (same_iff a b)

end Tree

/-- Which string bodies and numbers a reader knows.  Both take the bytes in front of them and
leave the rest. -/
structure Lexer where
  /-- The body of a string, read after its opening quote and over its closing one. -/
  string : Bytes → Option (Bytes × Bytes)
  number : Bytes → Option (Bytes × Bytes)
  string_lt : ∀ {bs raw rest}, string bs = some (raw, rest) → rest.length < bs.length
  number_lt : ∀ {bs text rest}, number bs = some (text, rest) → rest.length < bs.length
  number_head : ∀ {bs text rest}, number bs = some (text, rest) →
    ∃ c tail, bs = c :: tail ∧ (c = minus ∨ isDigit c = true)

/-- What a derivation can be about: a value, or the rest of an array or an object. -/
inductive Form where
  | value (t : Tree)
  | items (l : List Tree)
  | members (l : List (Bytes × Tree))

namespace Form

def nodes : Form → List Tree
  | value t => t.nodes
  | items l => Tree.nodesItems l
  | members l => Tree.nodesMembers l

def depth : Form → ℕ
  | value t => t.depth
  | items l => Tree.depthItems l
  | members l => Tree.depthMembers l

def strings : Form → List Bytes
  | value t => t.strings
  | items l => Tree.stringsItems l
  | members l => Tree.stringsMembers l

end Form

/-- **The grammar.**  `Parses lexer bs form rest`: the bytes `bs` begin with `form`, up to the
bracket that closes it, and `rest` follows. -/
inductive Parses (lexer : Lexer) : Bytes → Form → Bytes → Prop where
  | null {bs rest : Bytes} : skipSpace bs = bytes "null" ++ rest →
      Parses lexer bs (.value .null) rest
  | bool {bs rest : Bytes} (b : Bool) :
      skipSpace bs = (if b then bytes "true" else bytes "false") ++ rest →
      Parses lexer bs (.value (.bool b)) rest
  | number {bs text rest : Bytes} : lexer.number (skipSpace bs) = some (text, rest) →
      Parses lexer bs (.value (.number text)) rest
  | string {bs b raw rest : Bytes} : skipSpace bs = quote :: b →
      lexer.string b = some (raw, rest) → Parses lexer bs (.value (.string raw)) rest
  | emptyArray {bs b rest : Bytes} : skipSpace bs = openBracket :: b →
      skipSpace b = closeBracket :: rest → Parses lexer bs (.value (.array [])) rest
  | array {bs b rest : Bytes} {items : List Tree} : skipSpace bs = openBracket :: b →
      Parses lexer b (.items items) rest → Parses lexer bs (.value (.array items)) rest
  | lastItem {bs b rest : Bytes} {t : Tree} : Parses lexer bs (.value t) b →
      skipSpace b = closeBracket :: rest → Parses lexer bs (.items [t]) rest
  | nextItem {bs b b' rest : Bytes} {t : Tree} {items : List Tree} :
      Parses lexer bs (.value t) b → skipSpace b = comma :: b' →
      Parses lexer b' (.items items) rest → Parses lexer bs (.items (t :: items)) rest
  | emptyObject {bs b rest : Bytes} : skipSpace bs = openBrace :: b →
      skipSpace b = closeBrace :: rest → Parses lexer bs (.value (.object [])) rest
  | object {bs b rest : Bytes} {members : List (Bytes × Tree)} : skipSpace bs = openBrace :: b →
      Parses lexer b (.members members) rest → Parses lexer bs (.value (.object members)) rest
  | lastMember {bs b b₁ b₂ b₃ rest k : Bytes} {t : Tree} : skipSpace bs = quote :: b →
      lexer.string b = some (k, b₁) → skipSpace b₁ = colon :: b₂ →
      Parses lexer b₂ (.value t) b₃ → skipSpace b₃ = closeBrace :: rest →
      Parses lexer bs (.members [(k, t)]) rest
  | nextMember {bs b b₁ b₂ b₃ b₄ rest k : Bytes} {t : Tree} {members : List (Bytes × Tree)} :
      skipSpace bs = quote :: b → lexer.string b = some (k, b₁) → skipSpace b₁ = colon :: b₂ →
      Parses lexer b₂ (.value t) b₃ → skipSpace b₃ = comma :: b₄ →
      Parses lexer b₄ (.members members) rest → Parses lexer bs (.members ((k, t) :: members)) rest

/-! ### White space -/

theorem length_skipSpace_le (bs : Bytes) : (skipSpace bs).length ≤ bs.length :=
  (List.dropWhile_sublist _).length_le

theorem length_lt_of_skipSpace {bs b : Bytes} {c : UInt8} (h : skipSpace bs = c :: b) :
    b.length < bs.length := by
  have hle := length_skipSpace_le bs
  rw [h, List.length_cons] at hle
  omega

theorem skipSpace_cons_of_not {c : UInt8} (h : isSpace c = false) (bs : Bytes) :
    skipSpace (c :: bs) = c :: bs := by
  simp [skipSpace, h]

/-! ### Derivations -/

namespace Parses

variable {lexer : Lexer} {bs rest : Bytes} {form : Form}

theorem length_lt (h : Parses lexer bs form rest) : rest.length < bs.length := by
  induction h with
  | @null bs rest hs =>
    have hle := length_skipSpace_le bs
    rw [hs, List.length_append] at hle
    have h4 : (bytes "null").length = 4 := rfl
    omega
  | @bool bs rest b hs =>
    have hle := length_skipSpace_le bs
    rw [hs, List.length_append] at hle
    have h4 : 4 ≤ (if b then bytes "true" else bytes "false").length := by
      cases b <;> decide
    omega
  | number hn => exact Nat.lt_of_lt_of_le (lexer.number_lt hn) (length_skipSpace_le _)
  | string hs hb => exact Nat.lt_trans (lexer.string_lt hb) (length_lt_of_skipSpace hs)
  | emptyArray hs hc | emptyObject hs hc =>
    exact Nat.lt_trans (length_lt_of_skipSpace hc) (length_lt_of_skipSpace hs)
  | array hs _ ih | object hs _ ih => exact Nat.lt_trans ih (length_lt_of_skipSpace hs)
  | lastItem _ hc ih => exact Nat.lt_trans (length_lt_of_skipSpace hc) ih
  | nextItem _ hc _ ih ih' =>
    have hc' := length_lt_of_skipSpace hc
    omega
  | lastMember hs hk hc _ he ih =>
    have hs' := length_lt_of_skipSpace hs
    have hk' := lexer.string_lt hk
    have hc' := length_lt_of_skipSpace hc
    have he' := length_lt_of_skipSpace he
    omega
  | nextMember hs hk hc _ he _ ih ih' =>
    have hs' := length_lt_of_skipSpace hs
    have hk' := lexer.string_lt hk
    have hc' := length_lt_of_skipSpace hc
    have he' := length_lt_of_skipSpace he
    omega

end Parses

end RlcdDeck.Json
