import Mathlib.Data.List.Infix
import RlcdDeck.AiSnapshot.Equiv.Strings

/-!
# The strings of a parsed document

Every string of the tree that `Parser::parse` builds stands in the document between two quotes
(`strings_of_parse`).  So it has the form that `Parser::string` checks, and it is valid UTF-8 where
the document is.
-/

namespace RlcdDeck.AiSnapshot

open Json (Bytes Tree bytes quote Body)

/-- The characters that `Parser::string` lets a backslash stand in front of. -/
abbrev escaped : UInt8 → Bool := strchr (bytes "\"\\/bfnrt")

/-- Reading goes forward, and the strings read stand in what was read. -/
structure Reads (bs rest : Bytes) (strings : List Bytes) : Prop where
  suffix : rest <:+ bs
  bodies : ∀ raw ∈ strings, Body escaped raw ∧ quote :: raw ++ [quote] <:+: bs

theorem Reads.of_suffix {bs rest : Bytes} (h : rest <:+ bs) : Reads bs rest [] :=
  ⟨h, fun _ hraw => absurd hraw List.not_mem_nil⟩

theorem Reads.trans {a b c : Bytes} {l₁ l₂ : List Bytes} (h₁ : Reads a b l₁) (h₂ : Reads b c l₂) :
    Reads a c (l₁ ++ l₂) := by
  refine ⟨h₂.suffix.trans h₁.suffix, fun raw hraw => ?_⟩
  rcases List.mem_append.mp hraw with hraw | hraw
  · exact h₁.bodies raw hraw
  · obtain ⟨hbody, hinfix⟩ := h₂.bodies raw hraw
    exact ⟨hbody, hinfix.trans h₁.suffix.isInfix⟩

theorem Reads.around {a b c d : Bytes} {strings : List Bytes} (hbefore : b <:+ a)
    (h : Reads b c strings) (hafter : d <:+ c) : Reads a d strings := by
  have hall := ((Reads.of_suffix hbefore).trans h).trans (.of_suffix hafter)
  rwa [List.nil_append, List.append_nil] at hall

variable {s s' : Cursor} {t : Tree}

namespace Parser

/-! ### The parts -/

theorem whitespace_suffix (s : Cursor) : (whitespace s).rest <:+ s.rest :=
  List.dropWhile_suffix _

theorem allocate_rest (h : allocate s = some s') : s'.rest = s.rest := by
  unfold allocate at h
  split_ifs at h
  rw [← Option.some.inj h]

theorem consume_suffix {expected : UInt8} (h : consume expected s = some s') :
    s'.rest <:+ s.rest := by
  unfold consume at h
  split at h
  · cases h
  · next c b hrest =>
    split_ifs at h
    rw [← Option.some.inj h, hrest]
    exact List.suffix_cons _ _

theorem string_reads {raw : Bytes} (h : string s = some (raw, s')) :
    Reads s.rest s'.rest [raw] := by
  unfold string at h
  split at h
  · cases h
  · next c b hrest =>
    split_ifs at h with hc
    obtain ⟨s₁, hallocate, h⟩ := Option.bind_eq_some_iff.mp h
    obtain ⟨⟨raw', rest'⟩, hbody, h⟩ := Option.bind_eq_some_iff.mp h
    obtain ⟨rfl, rfl⟩ := Prod.mk.inj (Option.some.inj h)
    rw [allocate_rest hallocate] at hbody
    obtain ⟨hb, hform⟩ := Json.stringBody_eq_some.mp hbody
    replace hb : b = raw' ++ quote :: rest' := hb
    subst hc
    constructor
    · rw [hrest, hb]
      exact ⟨quote :: raw' ++ [quote], by simp⟩
    · intro raw hraw
      obtain rfl := List.mem_singleton.mp hraw
      refine ⟨hform, [], rest', ?_⟩
      rw [hrest, hb]
      simp

theorem integer_suffix (h : integer s = some (t, s')) :
    s'.rest <:+ s.rest ∧ t.strings = [] := by
  obtain ⟨⟨text, rest⟩, htext, h⟩ := Option.bind_eq_some_iff.mp h
  obtain ⟨s₁, hallocate, h⟩ := Option.bind_eq_some_iff.mp h
  obtain ⟨rfl, rfl⟩ := Prod.mk.inj (Option.some.inj h)
  obtain ⟨⟨text', rest'⟩, hpart, htext⟩ := Option.bind_eq_some_iff.mp htext
  dsimp only at htext
  split_ifs at htext
  · cases htext
  · obtain ⟨rfl, rfl⟩ := Prod.mk.inj (Option.some.inj htext)
    rw [allocate_rest hallocate, (Json.integerPart_eq_some hpart).1]
    exact ⟨List.suffix_append _ _, rfl⟩

theorem literal_suffix {text : Bytes} {u : Tree}
    (h : literal text t s = some (u, s')) : s'.rest <:+ s.rest ∧ u = t := by
  unfold literal at h
  split_ifs at h
  · cases h
  · obtain ⟨s₁, hallocate, h⟩ := Option.bind_eq_some_iff.mp h
    obtain ⟨rfl, rfl⟩ := Prod.mk.inj (Option.some.inj h)
    rw [allocate_rest hallocate]
    exact ⟨List.drop_suffix _ _, rfl⟩

/-! ### Objects and arrays -/

section Containers

variable {value : Cursor → Option (Tree × Cursor)}
  (hvalue : ∀ {s t s'}, value s = some (t, s') → Reads s.rest s'.rest t.strings)

include hvalue

theorem members_reads {fuel : ℕ} {keys : List Bytes} {l : List (Bytes × Tree)}
    (h : members value fuel keys s = some (l, s')) :
    Reads s.rest s'.rest (Tree.stringsMembers l) := by
  induction fuel generalizing keys s l with
  | zero => cases h
  | succ fuel ih =>
    obtain ⟨⟨key, s₁⟩, hkey, h⟩ := Option.bind_eq_some_iff.mp h
    dsimp only at h
    split_ifs at h
    · cases h
    obtain ⟨s₂, hcolon, h⟩ := Option.bind_eq_some_iff.mp h
    obtain ⟨⟨child, s₃⟩, hchild, h⟩ := Option.bind_eq_some_iff.mp h
    have hmember : Reads s.rest s₃.rest ([key] ++ child.strings) :=
      (string_reads hkey).trans
        ((hvalue hchild).around ((consume_suffix hcolon).trans (whitespace_suffix s₁))
          List.suffix_rfl)
    dsimp only at h
    split at h
    · next s₄ hclose =>
      obtain ⟨rfl, rfl⟩ := Prod.mk.inj (Option.some.inj h)
      rw [Tree.stringsMembers, Tree.stringsMembers, List.append_nil]
      exact hmember.around List.suffix_rfl ((consume_suffix hclose).trans (whitespace_suffix s₃))
    · obtain ⟨s₄, hcomma, h⟩ := Option.bind_eq_some_iff.mp h
      obtain ⟨⟨more, s₅⟩, hmore, h⟩ := Option.bind_eq_some_iff.mp h
      obtain ⟨rfl, rfl⟩ := Prod.mk.inj (Option.some.inj h)
      have hbetween : (whitespace s₄).rest <:+ s₃.rest :=
        (whitespace_suffix s₄).trans ((consume_suffix hcomma).trans (whitespace_suffix s₃))
      have hall := hmember.trans ((ih hmore).around hbetween List.suffix_rfl)
      rw [List.append_assoc] at hall
      rw [Tree.stringsMembers]
      exact hall

theorem items_reads {fuel : ℕ} {l : List Tree}
    (h : items value fuel s = some (l, s')) : Reads s.rest s'.rest (Tree.stringsItems l) := by
  induction fuel generalizing s l with
  | zero => cases h
  | succ fuel ih =>
    obtain ⟨⟨child, s₁⟩, hchild, h⟩ := Option.bind_eq_some_iff.mp h
    dsimp only at h
    split at h
    · next s₂ hclose =>
      obtain ⟨rfl, rfl⟩ := Prod.mk.inj (Option.some.inj h)
      rw [Tree.stringsItems, Tree.stringsItems, List.append_nil]
      exact (hvalue hchild).around List.suffix_rfl
        ((consume_suffix hclose).trans (whitespace_suffix s₁))
    · obtain ⟨s₂, hcomma, h⟩ := Option.bind_eq_some_iff.mp h
      obtain ⟨⟨more, s₃⟩, hmore, h⟩ := Option.bind_eq_some_iff.mp h
      obtain ⟨rfl, rfl⟩ := Prod.mk.inj (Option.some.inj h)
      have hbetween : (whitespace s₂).rest <:+ s₁.rest :=
        (whitespace_suffix s₂).trans ((consume_suffix hcomma).trans (whitespace_suffix s₁))
      rw [Tree.stringsItems]
      exact (hvalue hchild).trans ((ih hmore).around hbetween List.suffix_rfl)

theorem object_reads (h : object value s = some (t, s')) :
    Reads s.rest s'.rest t.strings := by
  obtain ⟨s₁, hallocate, h⟩ := Option.bind_eq_some_iff.mp h
  have hstart : (whitespace s₁).rest <:+ s.rest := allocate_rest hallocate ▸ whitespace_suffix s₁
  split at h
  · next s₂ hclose =>
    obtain ⟨rfl, rfl⟩ := Prod.mk.inj (Option.some.inj h)
    exact .of_suffix ((consume_suffix hclose).trans hstart)
  · obtain ⟨⟨l, s₂⟩, hl, h⟩ := Option.bind_eq_some_iff.mp h
    obtain ⟨rfl, rfl⟩ := Prod.mk.inj (Option.some.inj h)
    exact (members_reads hvalue hl).around hstart List.suffix_rfl

theorem array_reads (h : array value s = some (t, s')) :
    Reads s.rest s'.rest t.strings := by
  obtain ⟨s₁, hallocate, h⟩ := Option.bind_eq_some_iff.mp h
  have hstart : (whitespace s₁).rest <:+ s.rest := allocate_rest hallocate ▸ whitespace_suffix s₁
  split at h
  · next s₂ hclose =>
    obtain ⟨rfl, rfl⟩ := Prod.mk.inj (Option.some.inj h)
    exact .of_suffix ((consume_suffix hclose).trans hstart)
  · obtain ⟨⟨l, s₂⟩, hl, h⟩ := Option.bind_eq_some_iff.mp h
    obtain ⟨rfl, rfl⟩ := Prod.mk.inj (Option.some.inj h)
    exact (items_reads hvalue hl).around hstart List.suffix_rfl

end Containers

/-! ### Values -/

theorem value_reads {levels : ℕ} (h : value levels s = some (t, s')) :
    Reads s.rest s'.rest t.strings := by
  induction levels generalizing s t s' with
  | zero => cases h
  | succ levels ih =>
    unfold value at h
    dsimp only at h
    split at h
    · cases h
    · next c b hrest =>
      have hstart : b <:+ s.rest :=
        (List.suffix_cons c b).trans (hrest ▸ whitespace_suffix s)
      split_ifs at h
      · exact (object_reads ih h).around hstart List.suffix_rfl
      · exact (array_reads ih h).around hstart List.suffix_rfl
      · obtain ⟨⟨raw, s₁⟩, hstring, heq⟩ := Option.map_eq_some_iff.mp h
        obtain ⟨rfl, rfl⟩ := Prod.mk.inj heq
        exact (string_reads hstring).around (whitespace_suffix s) List.suffix_rfl
      · obtain ⟨hsuffix, rfl⟩ := literal_suffix h
        exact .of_suffix (hsuffix.trans (whitespace_suffix s))
      · obtain ⟨hsuffix, rfl⟩ := literal_suffix h
        exact .of_suffix (hsuffix.trans (whitespace_suffix s))
      · obtain ⟨hsuffix, rfl⟩ := literal_suffix h
        exact .of_suffix (hsuffix.trans (whitespace_suffix s))
      · obtain ⟨hsuffix, hstrings⟩ := integer_suffix h
        rw [hstrings]
        exact .of_suffix (hsuffix.trans (whitespace_suffix s))

end Parser

/-! ### Documents -/

/-- **The strings of a document**: their form, and where they stand. -/
theorem strings_of_parse {document : Bytes} {root : Tree} (h : Parser.parse document = some root) :
    ∀ raw ∈ root.strings, Body escaped raw ∧ quote :: raw ++ [quote] <:+: document := by
  obtain ⟨⟨t, s⟩, hvalue, h⟩ := Option.bind_eq_some_iff.mp h
  dsimp only at h
  split_ifs at h
  obtain rfl := Option.some.inj h
  have hreads := Parser.value_reads hvalue
  intro raw hraw
  obtain ⟨hbody, hinfix⟩ := hreads.bodies raw hraw
  exact ⟨hbody, hinfix.trans (List.dropWhile_suffix _).isInfix⟩

theorem valid_of_infix {document raw : Bytes} (hvalid : Utf8.valid document = true)
    (h : quote :: raw ++ [quote] <:+: document) : Utf8.valid raw = true := by
  obtain ⟨before, after, rfl⟩ := h
  have hquote : quote.toNat < 0x80 := by decide
  have hsplit : before ++ (quote :: raw ++ [quote]) ++ after =
      before ++ quote :: (raw ++ quote :: after) := by simp
  rw [hsplit, Utf8.valid_append_ascii hquote, Bool.and_eq_true,
    Utf8.valid_append_ascii hquote, Bool.and_eq_true] at hvalid
  exact hvalid.2.1

end RlcdDeck.AiSnapshot
