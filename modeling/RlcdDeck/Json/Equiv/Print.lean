import RlcdDeck.Json.Equiv.Decimal
import RlcdDeck.Json.Equiv.Reader
import RlcdDeck.Json.Unquote

/-!
# What is written is read again

A tree is plain when its strings and keys are printable ASCII characters without a quote, a backslash
or a character of HTML, its numbers are numerals, and no object has a key twice.  The text of a plain
tree is read as the tree (`parses_print`, `read_print`), and has nothing to unescape.
-/

namespace RlcdDeck.Json

/-- A character that stands for itself in a string. -/
def plainChar (c : UInt8) : Bool :=
  0x20 ≤ c.toNat && c.toNat < 0x7f && c != quote && c != backslash && !isHtml c.toNat

/-- A text of characters that stand for themselves. -/
def PlainText (s : Bytes) : Prop := ∀ c ∈ s, plainChar c = true

variable {s : Bytes}

theorem plainText_append {s' : Bytes} (h : PlainText s) (h' : PlainText s') : PlainText (s ++ s') :=
  fun c hc => (List.mem_append.mp hc).elim (h c) (h' c)

variable {c : UInt8}

theorem plainChar_bounds (h : plainChar c = true) :
    0x20 ≤ c.toNat ∧ c.toNat < 0x7f ∧ c ≠ quote ∧ c ≠ backslash ∧ isHtml c.toNat = false := by
  simpa [plainChar, and_assoc] using h

/-! ### Texts -/

theorem next_ascii (h : c.toNat < 0x80) (rest : Bytes) :
    Utf8.next c rest = (some c.toNat, rest) := if_pos h

theorem runes_ascii (h : ∀ c ∈ s, c.toNat < 0x80) :
    Utf8.runes s = s.map fun c => some c.toNat := by
  induction s with
  | nil => rfl
  | cons c s ih =>
    rw [List.forall_mem_cons] at h
    rw [Utf8.runes_cons, next_ascii h.1, ih h.2, List.map_cons]

theorem escapeRune_plain (h : plainChar c = true) : escapeRune (some c.toNat) = [c] := by
  obtain ⟨hlow, hhigh, hquote, hbackslash, hhtml⟩ := plainChar_bounds h
  have hne : ∀ d : UInt8, c ≠ d → c.toNat ≠ d.toNat := fun d hcd heq => hcd (UInt8.toNat_inj.mp heq)
  have hq : c.toNat ≠ 0x22 := hne quote hquote
  have hb : c.toNat ≠ 0x5c := hne backslash hbackslash
  rw [escapeRune, if_neg (by omega), if_neg (by omega), if_neg (by omega), if_neg (by omega),
    if_neg (by omega), if_neg (by omega), if_neg, if_neg (by omega), Utf8.encode, if_pos (by omega),
    UInt8.ofNat_toNat]
  rintro (hcontrol | hhtml')
  · omega
  · rw [hhtml] at hhtml'
    cases hhtml'

theorem escape_plain (h : PlainText s) : escape s = s := by
  rw [escape, runes_ascii fun c hc => by
    have hbounds := plainChar_bounds (h c hc)
    omega]
  induction s with
  | nil => rfl
  | cons c s ih =>
    rw [PlainText, List.forall_mem_cons] at h
    rw [List.map_cons, List.flatMap_cons, escapeRune_plain h.1, ih h.2]
    rfl

theorem unquote_plainText (h : PlainText s) : unquote s = some s := by
  induction s with
  | nil => rfl
  | cons c s ih =>
    rw [PlainText, List.forall_mem_cons] at h
    rw [unquote_plain (plainChar_bounds h.1).2.2.2.1, ih h.2]
    rfl

theorem body_plainText (h : PlainText s) : Body simpleEscape s := by
  induction s with
  | nil => exact .nil
  | cons c s ih =>
    rw [PlainText, List.forall_mem_cons] at h
    obtain ⟨hlow, -, hquote, hbackslash, -⟩ := plainChar_bounds h.1
    exact .plain hquote hlow hbackslash (ih h.2)

/-! ### Trees -/

namespace Tree

/-- A tree of plain texts and numerals, with the keys of an object distinct. -/
inductive Plain : Tree → Prop where
  | null : Plain null
  | bool (b : Bool) : Plain (bool b)
  | number {text : Bytes} : Numeral text → Plain (number text)
  | string {raw : Bytes} : PlainText raw → Plain (string raw)
  | array {items : List Tree} : (∀ t ∈ items, Plain t) → Plain (array items)
  | object {members : List (Bytes × Tree)} : (members.map Prod.fst).Nodup →
      (∀ m ∈ members, PlainText m.1) → (∀ m ∈ members, Plain m.2) → Plain (object members)

theorem plain_ofString (h : PlainText s) : (ofString s).Plain := by
  rw [ofString, escape_plain h]
  exact .string h

theorem plain_ofNat (n : ℕ) : (ofNat n).Plain := .number (numeral_decimalText n)

theorem plain_struct (names : List String) {members : List (Bytes × Tree)}
    (hnames : (members.map Prod.fst).Sublist (names.map bytes)) (hnodup : (names.map bytes).Nodup)
    (hplain : (names.all fun name => (bytes name).all plainChar) = true)
    (h : ∀ m ∈ members, m.2.Plain) : (object members).Plain := by
  refine .object (hnodup.sublist hnames) (fun m hm => ?_) h
  have hkey : m.1 ∈ names.map bytes := hnames.subset (List.mem_map_of_mem hm)
  obtain ⟨name, hname, heq⟩ := List.mem_map.mp hkey
  rw [← heq]
  exact List.all_eq_true.mp (List.all_eq_true.mp hplain name hname)

end Tree

/-- No numeric character is in front. -/
def Follows (rest : Bytes) : Prop := ∀ c ∈ rest.head?, isNumeric c = false

theorem follows_cons (h : isNumeric c = false) (rest : Bytes) : Follows (c :: rest) := by
  intro d hd
  obtain rfl := Option.some.inj hd
  exact h

theorem skipSpace_numeral {text rest : Bytes} (h : Numeral text) (hrest : Follows rest) :
    skipSpace (text ++ rest) = text ++ rest := by
  obtain ⟨c, tail, heq, hc⟩ := number_head (h rest hrest)
  rw [heq]
  apply skipSpace_cons_of_not
  rcases hc with rfl | hc
  · rfl
  · unfold isDigit at hc
    simp only [Bool.and_eq_true, decide_eq_true_eq] at hc
    unfold isSpace
    simp only [Bool.or_eq_false_iff, beq_eq_false_iff_ne, ne_eq]
    refine ⟨⟨⟨?_, ?_⟩, ?_⟩, ?_⟩ <;> rintro rfl <;> simp at hc

variable {items : List Tree} {t : Tree}

section Print

open Json.Tree

theorem parses_printItems (hne : items ≠ []) (hitems : ∀ t ∈ items, ∀ rest, Follows rest →
      Parses rfc8259 (t.print ++ rest) (.value t) rest) (rest : Bytes) :
    Parses rfc8259 (printItems items ++ closeBracket :: rest) (.items items) rest := by
  induction items with
  | nil => exact absurd rfl hne
  | cons t items ih =>
    rw [List.forall_mem_cons] at hitems
    cases items with
    | nil =>
      rw [printItems]
      exact .lastItem (hitems.1 _ (follows_cons (by decide) rest)) rfl
    | cons t' items =>
      rw [printItems, List.append_assoc]
      · exact .nextItem (hitems.1 _ (follows_cons (by decide) _)) rfl (ih (by simp) hitems.2)
      · simp

/-- What the members of an object are read as. -/
theorem parses_printMembers {members : List (Bytes × Tree)} (hne : members ≠ [])
    (hkeys : ∀ m ∈ members, PlainText m.1)
    (hmembers : ∀ m ∈ members, ∀ rest, Follows rest →
      Parses rfc8259 (m.2.print ++ rest) (.value m.2) rest) (rest : Bytes) :
    Parses rfc8259 (printMembers members ++ closeBrace :: rest) (.members members) rest := by
  induction members with
  | nil => exact absurd rfl hne
  | cons m members ih =>
    obtain ⟨k, t⟩ := m
    rw [List.forall_mem_cons] at hkeys hmembers
    have hkey : ∀ after : Bytes, rfc8259.string (k ++ quote :: after) = some (k, after) :=
      fun after => stringBody_of_body (body_plainText hkeys.1) after
    cases members with
    | nil =>
      have htext : printMembers [(k, t)] ++ closeBrace :: rest =
          quote :: (k ++ quote :: colon :: (t.print ++ closeBrace :: rest)) := by
        simp [printMembers]
      rw [htext]
      exact .lastMember rfl (hkey _) rfl (hmembers.1 _ (follows_cons (by decide) rest)) rfl
    | cons m' members =>
      have htext : printMembers ((k, t) :: m' :: members) ++ closeBrace :: rest =
          quote :: (k ++ quote :: colon ::
            (t.print ++ comma :: (printMembers (m' :: members) ++ closeBrace :: rest))) := by
        simp [printMembers]
      rw [htext]
      exact .nextMember rfl (hkey _) rfl (hmembers.1 _ (follows_cons (by decide) _)) rfl
        (ih (by simp) hkeys.2 hmembers.2)

/-- **Round trip**: the text of a plain tree is read as the tree. -/
theorem parses_print (h : t.Plain) {rest : Bytes} (hrest : Follows rest) :
    Parses rfc8259 (t.print ++ rest) (.value t) rest := by
  induction h generalizing rest with
  | null => exact .null rfl
  | bool b =>
    cases b with
    | false => exact .bool false rfl
    | true => exact .bool true rfl
  | number h =>
    refine .number ?_
    rw [print, skipSpace_numeral h hrest]
    exact h rest hrest
  | @string raw h =>
    have htext : (string raw).print ++ rest = quote :: (raw ++ quote :: rest) := by simp [print]
    rw [htext]
    exact .string rfl (stringBody_of_body (body_plainText h) rest)
  | @array items _ ih =>
    have htext : (array items).print ++ rest =
        openBracket :: (printItems items ++ closeBracket :: rest) := by
      simp [print]
    rw [htext]
    cases items with
    | nil => exact .emptyArray rfl rfl
    | cons t items =>
      exact .array rfl (parses_printItems (by simp) (fun t ht rest hrest => ih t ht hrest) rest)
  | @object members _ hkeys _ ih =>
    have htext : (object members).print ++ rest =
        openBrace :: (printMembers members ++ closeBrace :: rest) := by
      simp [print]
    rw [htext]
    cases members with
    | nil => exact .emptyObject rfl rfl
    | cons m members =>
      exact .object rfl
        (parses_printMembers (by simp) hkeys (fun m hm rest hrest => ih m hm hrest) rest)

theorem read_print (h : t.Plain) {depth : ℕ} (hdepth : t.depth ≤ depth) :
    read rfc8259 depth t.print = some t := by
  have hend : Follows [] := by simp [Follows]
  have hparses := parses_print h hend
  rw [List.append_nil] at hparses
  exact read_of_parses hparses rfl hdepth

/-! ### Characters -/

section Characters

variable {P : UInt8 → Prop}

theorem forall_mem_printItems (hcomma : P comma) (h : ∀ t ∈ items, ∀ c ∈ t.print, P c) :
    ∀ c ∈ printItems items, P c := by
  induction items with
  | nil => exact fun c hc => absurd hc List.not_mem_nil
  | cons t items ih =>
    rw [List.forall_mem_cons] at h
    cases items with
    | nil => exact h.1
    | cons t' items =>
      rw [printItems, List.forall_mem_append, List.forall_mem_cons]
      · exact ⟨h.1, hcomma, ih h.2⟩
      · simp

theorem forall_mem_printMembers {members : List (Bytes × Tree)} (hcomma : P comma)
    (hquote : P quote) (hcolon : P colon) (hkeys : ∀ m ∈ members, ∀ c ∈ m.1, P c)
    (h : ∀ m ∈ members, ∀ c ∈ m.2.print, P c) : ∀ c ∈ printMembers members, P c := by
  induction members with
  | nil => exact fun c hc => absurd hc List.not_mem_nil
  | cons m members ih =>
    obtain ⟨k, t⟩ := m
    rw [List.forall_mem_cons] at hkeys h
    cases members with
    | nil =>
      simp only [printMembers, List.forall_mem_append, List.forall_mem_cons]
      exact ⟨⟨hquote, hkeys.1⟩, hquote, hcolon, h.1⟩
    | cons m' members =>
      simp only [printMembers, List.forall_mem_append, List.forall_mem_cons]
      exact ⟨⟨⟨hquote, hkeys.1⟩, hquote, hcolon, h.1⟩, hcomma, ih hkeys.2 h.2⟩

theorem forall_mem_print (h : t.Plain) (hmark : ∀ c ∈ bytes "[]{}:,\"truefalsn", P c)
    (hplain : ∀ c, plainChar c = true → P c)
    (hnumeric : ∀ c, isNumeric c = true → P c) : ∀ c ∈ t.print, P c := by
  have hquote : P quote := hmark quote (by decide)
  have hcomma : P comma := hmark comma (by decide)
  induction h with
  | null => exact fun c hc => hmark c (by revert c; decide +kernel)
  | bool b =>
    cases b with
    | false => exact fun c hc => hmark c (by revert c; decide +kernel)
    | true => exact fun c hc => hmark c (by revert c; decide +kernel)
  | @number text h =>
    obtain ⟨-, -, hall, -⟩ := number_eq_some (h [] (by simp))
    exact fun c hc => hnumeric c (hall c hc)
  | @string raw h =>
    rw [print, List.forall_mem_append, List.forall_mem_cons, List.forall_mem_singleton]
    exact ⟨⟨hquote, fun c hc => hplain c (h c hc)⟩, hquote⟩
  | array _ ih =>
    rw [print, List.forall_mem_append, List.forall_mem_cons, List.forall_mem_singleton]
    exact ⟨⟨hmark _ (by decide), forall_mem_printItems hcomma ih⟩, hmark _ (by decide)⟩
  | object _ hkeys _ ih =>
    rw [print, List.forall_mem_append, List.forall_mem_cons, List.forall_mem_singleton]
    exact ⟨⟨hmark _ (by decide), forall_mem_printMembers hcomma hquote (hmark _ (by decide))
      (fun m hm c hc => hplain c (hkeys m hm c hc)) ih⟩, hmark _ (by decide)⟩

theorem valid_print (h : t.Plain) : Utf8.valid t.print = true := by
  have hascii : ∀ c ∈ t.print, c.toNat < 0x80 := by
    refine forall_mem_print h (by decide +kernel) (fun c hc => ?_) fun c hc => ?_
    · have hbounds := plainChar_bounds hc
      omega
    · unfold isNumeric isExponent isDigit at hc
      simp only [Bool.or_eq_true, Bool.and_eq_true, decide_eq_true_eq, beq_iff_eq] at hc
      rcases hc with (((hc | rfl) | rfl) | rfl) | rfl | rfl <;> first | omega | decide
  generalize t.print = text at hascii
  induction text with
  | nil => rfl
  | cons c text ih =>
    rw [List.forall_mem_cons] at hascii
    rw [Utf8.valid_ascii hascii.1]
    exact ih hascii.2

end Characters

/-! ### Lengths -/

theorem length_print_object {members : List (Bytes × Tree)} (hne : members ≠ []) :
    (object members).print.length =
      (members.map fun m => m.1.length + m.2.print.length + 4).sum + 1 := by
  have hmembers : (printMembers members).length + 1 =
      (members.map fun m => m.1.length + m.2.print.length + 4).sum := by
    induction members with
    | nil => exact absurd rfl hne
    | cons m members ih =>
      obtain ⟨k, t⟩ := m
      cases members with
      | nil =>
        simp only [printMembers, List.length_append, List.length_cons, List.map_cons, List.map_nil,
          List.sum_cons, List.sum_nil]
        omega
      | cons m' members =>
        have hrest := ih (by simp)
        rw [List.map_cons, List.sum_cons, ← hrest]
        simp only [printMembers, List.length_append, List.length_cons]
        omega
  rw [print, List.length_append, List.length_cons, List.length_singleton]
  omega

theorem depth_object_le {members : List (Bytes × Tree)} {d : ℕ} (h : ∀ m ∈ members, m.2.depth ≤ d) :
    (object members).depth ≤ d + 1 := by
  have hmembers : depthMembers members ≤ d := by
    induction members with
    | nil => exact Nat.zero_le d
    | cons m members ih =>
      rw [List.forall_mem_cons] at h
      exact max_le h.1 (ih h.2)
  rw [depth]
  omega

theorem depth_array_le {d : ℕ} (h : ∀ t ∈ items, t.depth ≤ d) :
    (array items).depth ≤ d + 1 := by
  have hitems : depthItems items ≤ d := by
    induction items with
    | nil => exact Nat.zero_le d
    | cons t items ih =>
      rw [List.forall_mem_cons] at h
      exact max_le h.1 (ih h.2)
  rw [depth]
  omega

theorem length_printItems_le {bound : ℕ} (h : ∀ t ∈ items, t.print.length ≤ bound) :
    (printItems items).length ≤ items.length * (bound + 1) := by
  induction items with
  | nil => exact Nat.zero_le _
  | cons t items ih =>
    rw [List.forall_mem_cons] at h
    have hrest := ih h.2
    have hhead := h.1
    rw [List.length_cons, Nat.succ_mul]
    cases items with
    | nil =>
      rw [printItems]
      omega
    | cons t' items =>
      rw [printItems, List.length_append, List.length_cons]
      · omega
      · simp

theorem length_printMembers_le {members : List (Bytes × Tree)} {key value : ℕ}
    (hkey : ∀ m ∈ members, m.1.length ≤ key) (hvalue : ∀ m ∈ members, m.2.print.length ≤ value) :
    (printMembers members).length ≤ members.length * (key + value + 4) := by
  induction members with
  | nil => exact Nat.zero_le _
  | cons m members ih =>
    obtain ⟨k, t⟩ := m
    rw [List.forall_mem_cons] at hkey hvalue
    have hrest := ih hkey.2 hvalue.2
    have hk : k.length ≤ key := hkey.1
    have ht : t.print.length ≤ value := hvalue.1
    rw [List.length_cons, Nat.succ_mul]
    cases members with
    | nil =>
      simp only [printMembers, List.length_cons, List.length_append]
      omega
    | cons m' members =>
      simp only [printMembers, List.length_cons, List.length_append] at hrest ⊢
      omega

end Print

end RlcdDeck.Json
