import RlcdDeck.AiSnapshot.Equiv.Times
import RlcdDeck.Collections.Traverse
import RlcdDeck.Json.Equiv.Print
import RlcdDeck.StructuredProvider.Strict

/-!
# What is written plainly is read strictly

The text of a plain tree passes the checks of `DecodeStrictDocumentLimit` (`strictDocument_print`),
and the values of Go that were written are decoded from the tree: strings, unsigned integers and
times.
-/

namespace RlcdDeck.StructuredProvider

open Json (Bytes Tree PlainText quote plainChar_bounds plainText_append)
open Json.Tree (Plain)
open AiSnapshot.Companion

/-! ### Escapes -/

/-- A text that the scan for escapes passes from outside a string to outside a string. -/
def Balanced (text : Bytes) : Prop :=
  ∀ rest, validJsonStringEscapes false (text ++ rest) = validJsonStringEscapes false rest

theorem balanced_nil : Balanced [] := fun _ => rfl

theorem balanced_append {text text' : Bytes} (h : Balanced text) (h' : Balanced text') :
    Balanced (text ++ text') := by
  intro rest
  rw [List.append_assoc, h, h']

theorem balanced_cons {c : UInt8} (hc : c ≠ quote) {text : Bytes} (h : Balanced text) :
    Balanced (c :: text) := by
  intro rest
  rw [List.cons_append, validJsonStringEscapes, beq_eq_false_iff_ne.mpr hc, h]

theorem balanced_of_forall {text : Bytes} (h : ∀ c ∈ text, c ≠ quote) : Balanced text := by
  induction text with
  | nil => exact balanced_nil
  | cons c text ih =>
    rw [List.forall_mem_cons] at h
    exact balanced_cons h.1 (ih h.2)

theorem balanced_quoted {raw : Bytes} (h : PlainText raw) : Balanced (quote :: raw ++ [quote]) := by
  have hinside : ∀ rest, validJsonStringEscapes true (raw ++ quote :: rest) =
      validJsonStringEscapes false rest := by
    intro rest
    induction raw with
    | nil =>
      rw [List.nil_append, validJsonStringEscapes.eq_def]
      simp
    | cons c raw ih =>
      rw [PlainText, List.forall_mem_cons] at h
      obtain ⟨-, -, hquote, hbackslash, -⟩ := plainChar_bounds h.1
      rw [List.cons_append, validJsonStringEscapes.eq_def]
      simp only [if_neg hquote, if_neg hbackslash]
      exact ih h.2
  intro rest
  rw [List.append_assoc, List.cons_append, validJsonStringEscapes, beq_self_eq_true]
  exact hinside rest

theorem balanced_printItems {items : List Tree} (h : ∀ t ∈ items, Balanced t.print) :
    Balanced (Tree.printItems items) := by
  induction items with
  | nil => exact balanced_nil
  | cons t items ih =>
    rw [List.forall_mem_cons] at h
    cases items with
    | nil =>
      rw [Tree.printItems]
      exact h.1
    | cons t' items =>
      rw [Tree.printItems]
      · exact balanced_append h.1 (balanced_cons (by decide) (ih h.2))
      · simp

theorem balanced_printMembers {members : List (Bytes × Tree)}
    (hplain : ∀ m ∈ members, PlainText m.1) (h : ∀ m ∈ members, Balanced m.2.print) :
    Balanced (Tree.printMembers members) := by
  induction members with
  | nil => exact balanced_nil
  | cons m members ih =>
    obtain ⟨k, t⟩ := m
    rw [List.forall_mem_cons] at hplain h
    have hmember : Balanced (quote :: k ++ quote :: Json.colon :: t.print) := by
      have hkey := balanced_append (balanced_quoted hplain.1)
        (balanced_cons (c := Json.colon) (by decide) h.1)
      rwa [List.append_assoc] at hkey
    cases members with
    | nil =>
      rw [Tree.printMembers]
      exact hmember
    | cons m' members =>
      have hrest := balanced_append hmember
        (balanced_cons (c := Json.comma) (by decide) (ih hplain.2 h.2))
      have htext : Tree.printMembers ((k, t) :: m' :: members) =
          (quote :: k ++ quote :: Json.colon :: t.print) ++
            Json.comma :: Tree.printMembers (m' :: members) := by
        simp [Tree.printMembers]
      rwa [htext]

theorem balanced_print {t : Tree} (h : t.Plain) : Balanced t.print := by
  induction h with
  | null => exact balanced_of_forall (by decide +kernel)
  | bool b =>
    cases b with
    | false => exact balanced_of_forall (by decide +kernel)
    | true => exact balanced_of_forall (by decide +kernel)
  | @number text h =>
    have hnumber := h [] (by simp)
    obtain ⟨-, -, hnumeric, -⟩ := Json.number_eq_some hnumber
    refine balanced_of_forall fun c hc => ?_
    rintro rfl
    cases hnumeric _ hc
  | string h => exact balanced_quoted h
  | array _ ih =>
    exact balanced_cons (by decide) (balanced_append (balanced_printItems ih)
      (balanced_cons (by decide) balanced_nil))
  | object _ hplain _ ih =>
    exact balanced_cons (by decide) (balanced_append (balanced_printMembers hplain ih)
      (balanced_cons (by decide) balanced_nil))

/-! ### Keys -/

theorem membersUnique_of_nodup {members : List (Bytes × Tree)} {seen : List Bytes}
    (hkeys : (members.map Prod.fst).Nodup) (hplain : ∀ m ∈ members, PlainText m.1)
    (hseen : ∀ m ∈ members, m.1 ∉ seen) (hvalues : ∀ m ∈ members, uniqueKeys m.2 = true) :
    membersUnique seen members = true := by
  induction members generalizing seen with
  | nil => rfl
  | cons m members ih =>
    obtain ⟨k, t⟩ := m
    rw [List.map_cons, List.nodup_cons] at hkeys
    rw [List.forall_mem_cons] at hplain hseen hvalues
    have hrest : membersUnique (k :: seen) members = true := by
      refine ih hkeys.2 hplain.2 (fun m hm hmem => ?_) hvalues.2
      rcases List.mem_cons.mp hmem with heq | hmem
      · exact hkeys.1 (List.mem_map.mpr ⟨m, hm, heq⟩)
      · exact hseen.2 m hm hmem
    rw [membersUnique, Json.unquote_plainText hplain.1]
    simp [hseen.1, hvalues.1, hrest]

theorem itemsUnique_of_forall {items : List Tree} (h : ∀ t ∈ items, uniqueKeys t = true) :
    itemsUnique items = true := by
  induction items with
  | nil => rfl
  | cons t items ih =>
    rw [List.forall_mem_cons] at h
    rw [itemsUnique, h.1, ih h.2]
    rfl

theorem uniqueKeys_plain {t : Tree} (h : t.Plain) : uniqueKeys t = true := by
  induction h with
  | null | bool | number | string => rfl
  | array _ ih => exact itemsUnique_of_forall ih
  | object hkeys hplain _ ih =>
    exact membersUnique_of_nodup hkeys hplain (fun m _ => List.not_mem_nil) ih

/-- **A plain document passes the strict checks.** -/
theorem strictDocument_print {t : Tree} (h : t.Plain) (hdepth : t.depth ≤ 10000)
    {maximumBytes : ℕ} (hsize : t.print.length ≤ maximumBytes) :
    strictDocument maximumBytes t.print = some t := by
  have hescapes := balanced_print h []
  rw [List.append_nil] at hescapes
  unfold strictDocument
  rw [Json.valid_print h, hescapes, decide_eq_true hsize]
  show (unmarshal t.print).filter uniqueKeys = some t
  rw [unmarshal, Json.read_print h hdepth, Option.filter_some, uniqueKeys_plain h]
  rfl

/-! ### Values -/

theorem rawObject_plain {members : List (Bytes × Tree)} (h : ∀ m ∈ members, PlainText m.1) :
    rawObject (.object members) = some members := by
  have hmap : members.mapM (fun m => (Json.unquote m.1).map fun name => (name, m.2)) =
      some (members.map id) := by
    apply Collections.mapM_of_forall
    intro m hm
    rw [Json.unquote_plainText (h m hm)]
    rfl
  rw [rawObject, hmap, List.map_id]

theorem decodeString_ofString {s : Bytes} (h : PlainText s) :
    decodeString (Tree.ofString s) = some s := by
  rw [Tree.ofString, Json.escape_plain h, decodeString, Json.unquote_plainText h]

/-! ### Times -/

theorem plainText_of_digits {text : Bytes} (h : ∀ c ∈ text, Json.isDigit c = true) :
    PlainText text := by
  intro c hc
  have hdigit := h c hc
  unfold Json.isDigit at hdigit
  simp only [Bool.and_eq_true, decide_eq_true_eq] at hdigit
  have hne : ∀ d : UInt8, d.toNat < 0x30 ∨ 0x39 < d.toNat → (c == d) = false := by
    intro d hd
    apply beq_eq_false_iff_ne.mpr
    rintro rfl
    omega
  unfold Json.plainChar Json.isHtml
  simp only [bne, hne quote (by decide), hne Json.backslash (by decide)]
  simp
  omega

theorem mem_significant {digits : Bytes} {c : UInt8} (h : c ∈ significant digits) : c ∈ digits := by
  obtain ⟨count, hcount⟩ := significant_append digits
  rw [hcount]
  exact List.mem_append_left _ h

theorem formatFraction_plain (nanosecond : ℕ) :
    PlainText (formatFraction nanosecond) ∧ (formatFraction nanosecond).length ≤ 10 := by
  unfold formatFraction
  split_ifs
  · exact ⟨fun c hc => absurd hc List.not_mem_nil, Nat.zero_le _⟩
  · have hdigits : PlainText (significant (decimal 9 nanosecond)) :=
      plainText_of_digits fun c hc => isDigit_decimal (mem_significant hc)
    have hlength : (significant (decimal 9 nanosecond)).length ≤ 9 := by
      obtain ⟨count, hcount⟩ := significant_append (decimal 9 nanosecond)
      have hsum := congrArg List.length hcount
      rw [length_decimal, List.length_append] at hsum
      omega
    exact ⟨List.forall_mem_cons.mpr ⟨by decide, hdigits⟩, Nat.succ_le_succ hlength⟩

/-- The text of a time needs no escape, and has at most thirty characters. -/
theorem format_plain (t : Time) : PlainText t.format ∧ t.format.length ≤ 30 := by
  have hdecimal : ∀ width value, PlainText (decimal width value) :=
    fun width value => plainText_of_digits fun c hc => isDigit_decimal hc
  have hmark : ∀ c : UInt8, Json.plainChar c = true → PlainText [c] :=
    fun c hc => List.forall_mem_singleton.mpr hc
  obtain ⟨hfraction, hlength⟩ := formatFraction_plain t.nanosecond
  unfold Time.format
  constructor
  · refine plainText_append (plainText_append ?_ hfraction) (hmark _ (by decide))
    refine plainText_append (plainText_append ?_ (hmark _ (by decide))) (hdecimal _ _)
    refine plainText_append (plainText_append ?_ (hmark _ (by decide))) (hdecimal _ _)
    refine plainText_append (plainText_append ?_ (hmark _ (by decide))) (hdecimal _ _)
    refine plainText_append (plainText_append ?_ (hmark _ (by decide))) (hdecimal _ _)
    exact plainText_append (plainText_append (hdecimal _ _) (hmark _ (by decide))) (hdecimal _ _)
  · simp only [List.length_append, length_decimal, List.length_singleton]
    omega

theorem marshalInstant_plain {instant : ℤ} {text : Bytes} (h : marshalInstant instant = some text) :
    PlainText text ∧ text.length ≤ 30 := by
  obtain ⟨t, -, h⟩ := Option.bind_eq_some_iff.mp h
  split_ifs at h with hyear
  obtain rfl := Option.some.inj h
  exact format_plain t

end RlcdDeck.StructuredProvider
