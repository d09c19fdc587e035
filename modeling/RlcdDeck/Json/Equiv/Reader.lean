import RlcdDeck.Json.Reader

/-!
# The reader reads the grammar

`Parses.reads`: what is derivable, and does not nest too deeply, is what the reader returns; the
fuel of its loops always suffices.  `read_of_parses` says so of whole texts.
-/

namespace RlcdDeck.Json

variable {lexer : Lexer}

/-! ### Soundness -/

theorem key_eq_some {bs k rest : Bytes} :
    key lexer bs = some (k, rest) ↔ ∃ b b₁, skipSpace bs = quote :: b ∧
      lexer.string b = some (k, b₁) ∧ skipSpace b₁ = colon :: rest := by
  unfold key
  constructor
  · intro h
    split at h
    · cases h
    · rename_i c b hs
      split_ifs at h with hc
      subst hc
      simp only [Option.bind_eq_bind, Option.bind_eq_some_iff, Prod.exists] at h
      obtain ⟨k', b₁, hk, h⟩ := h
      split at h
      · cases h
      · rename_i c' b' hs'
        split_ifs at h with hc'
        subst hc'
        cases h
        exact ⟨b, b₁, hs, hk, hs'⟩
  · rintro ⟨b, b₁, hs, hk, hs'⟩
    simp [hs, hk, hs']

section Loops

variable {value : Bytes → Option (Tree × Bytes)}
  (hvalue : ∀ {bs t rest}, value bs = some (t, rest) → Parses lexer bs (.value t) rest)

include hvalue

end Loops

/-! ### Completeness -/

theorem value_of_scalar {depth : ℕ} {bs tail : Bytes} {c : UInt8} (hs : skipSpace bs = c :: tail)
    (hbrace : c ≠ openBrace) (hbracket : c ≠ openBracket) :
    value lexer depth bs = scalar lexer bs := by
  cases depth <;> simp [value, hs, hbrace, hbracket]

theorem number_head_ne {c : UInt8} (h : c = minus ∨ isDigit c = true) {d : UInt8}
    (hd : d ≠ minus) (hd' : isDigit d = false) : c ≠ d := by
  rintro rfl
  rcases h with rfl | h
  · exact hd rfl
  · rw [hd'] at h
    cases h

theorem not_isPrefixOf_cons {c d : UInt8} {l bs : Bytes} (h : c ≠ d) :
    (d :: l).isPrefixOf (c :: bs) = false := by
  simp [List.isPrefixOf, Ne.symm h]

theorem scalar_of_number {bs text rest : Bytes}
    (h : lexer.number (skipSpace bs) = some (text, rest)) :
    scalar lexer bs = some (.number text, rest) := by
  obtain ⟨c, tail, hs, hc⟩ := lexer.number_head h
  have hq : c ≠ quote := number_head_ne hc (by decide) (by decide)
  have ht : (bytes "true").isPrefixOf (c :: tail) = false :=
    not_isPrefixOf_cons (number_head_ne hc (by decide) (by decide))
  have hf : (bytes "false").isPrefixOf (c :: tail) = false :=
    not_isPrefixOf_cons (number_head_ne hc (by decide) (by decide))
  have hn : (bytes "null").isPrefixOf (c :: tail) = false :=
    not_isPrefixOf_cons (number_head_ne hc (by decide) (by decide))
  rw [hs] at h
  simp [scalar, hs, hq, ht, hf, hn, h]

theorem Parses.head {bs rest : Bytes} {form : Form} (h : Parses lexer bs form rest) :
    ∃ c tail, skipSpace bs = c :: tail ∧ c ≠ closeBracket ∧ c ≠ closeBrace := by
  induction h with
  | null hs => exact ⟨_, _, hs, by decide, by decide⟩
  | bool b hs => cases b <;> exact ⟨_, _, hs, by decide, by decide⟩
  | number hn =>
    obtain ⟨c, tail, hs, hc⟩ := lexer.number_head hn
    exact ⟨c, tail, hs, number_head_ne hc (by decide) (by decide),
      number_head_ne hc (by decide) (by decide)⟩
  | string hs _ | emptyArray hs _ | emptyObject hs _ | array hs _ _ | object hs _ _
  | lastMember hs _ _ _ _ _ | nextMember hs _ _ _ _ _ _ _ =>
    exact ⟨_, _, hs, by decide, by decide⟩
  | lastItem _ _ ih | nextItem _ _ _ ih _ => exact ih

/-- What the reader does with bytes that begin with `form`. -/
def Reads (lexer : Lexer) (bs : Bytes) (rest : Bytes) : Form → Prop
  | .value t => ∀ depth, t.depth ≤ depth → value lexer depth bs = some (t, rest)
  | .items l => ∀ depth fuel, Tree.depthItems l ≤ depth → bs.length ≤ fuel →
      items (value lexer depth) fuel bs = some (l, rest)
  | .members l => ∀ depth fuel, Tree.depthMembers l ≤ depth → bs.length ≤ fuel →
      members lexer (value lexer depth) fuel bs = some (l, rest)

/-- **Completeness** of the reader. -/
theorem Parses.reads {bs rest : Bytes} {form : Form} (h : Parses lexer bs form rest) :
    Reads lexer bs rest form := by
  induction h with
  | null hs =>
    intro depth _
    rw [value_of_scalar hs (by decide) (by decide)]
    simp only [scalar, hs]
    rfl
  | bool b hs =>
    intro depth _
    cases b
    all_goals
      rw [value_of_scalar hs (by decide) (by decide)]
      simp only [scalar, hs]
      rfl
  | number hn =>
    intro depth _
    obtain ⟨c, tail, hs, hc⟩ := lexer.number_head hn
    rw [value_of_scalar hs (number_head_ne hc (by decide) (by decide))
      (number_head_ne hc (by decide) (by decide))]
    exact scalar_of_number hn
  | string hs hb =>
    intro depth _
    rw [value_of_scalar hs (by decide) (by decide)]
    simp [scalar, hs, hb]
  | emptyArray hs hc =>
    intro depth hd
    rw [Tree.depth, Tree.depthItems] at hd
    obtain ⟨depth, rfl⟩ : ∃ d, depth = d + 1 := ⟨depth - 1, by omega⟩
    have hne : openBracket ≠ openBrace := by decide
    simp [value, hs, hc, hne]
  | emptyObject hs hc =>
    intro depth hd
    rw [Tree.depth, Tree.depthMembers] at hd
    obtain ⟨depth, rfl⟩ : ∃ d, depth = d + 1 := ⟨depth - 1, by omega⟩
    simp [value, hs, hc]
  | @array bs b rest l hs hl ih =>
    intro depth hd
    rw [Tree.depth] at hd
    obtain ⟨depth, rfl⟩ : ∃ d, depth = d + 1 := ⟨depth - 1, by omega⟩
    have hi := ih depth b.length (by omega) le_rfl
    have hne : openBracket ≠ openBrace := by decide
    obtain ⟨c, tail, hc, hclose, -⟩ := hl.head
    simp [value, hs, hne, hc, hclose, hi]
  | @object bs b rest l hs hl ih =>
    intro depth hd
    rw [Tree.depth] at hd
    obtain ⟨depth, rfl⟩ : ∃ d, depth = d + 1 := ⟨depth - 1, by omega⟩
    have hi := ih depth b.length (by omega) le_rfl
    obtain ⟨c, tail, hc, -, hclose⟩ := hl.head
    simp [value, hs, hc, hclose, hi]
  | lastItem hv hc ih =>
    intro depth fuel hd hf
    rw [Tree.depthItems] at hd
    have hlt := hv.length_lt
    obtain ⟨fuel, rfl⟩ : ∃ f, fuel = f + 1 := ⟨fuel - 1, by omega⟩
    have hi := ih depth (by omega)
    simp [items, hi, hc]
  | nextItem hv hc _ ih ih' =>
    intro depth fuel hd hf
    rw [Tree.depthItems] at hd
    have hlt := hv.length_lt
    have hlt' := length_lt_of_skipSpace hc
    obtain ⟨fuel, rfl⟩ : ∃ f, fuel = f + 1 := ⟨fuel - 1, by omega⟩
    have hi := ih depth (by omega)
    have hi' := ih' depth fuel (by omega) (by omega)
    have hne : comma ≠ closeBracket := by decide
    simp [items, hi, hc, hne, hi']
  | lastMember hs hk hc hv he ih =>
    intro depth fuel hd hf
    rw [Tree.depthMembers] at hd
    have hlt := length_lt_of_skipSpace hs
    obtain ⟨fuel, rfl⟩ : ∃ f, fuel = f + 1 := ⟨fuel - 1, by omega⟩
    have hkey := key_eq_some.mpr ⟨_, _, hs, hk, hc⟩
    have hi := ih depth (by omega)
    simp [members, hkey, hi, he]
  | nextMember hs hk hc hv he _ ih ih' =>
    intro depth fuel hd hf
    rw [Tree.depthMembers] at hd
    have hlt := length_lt_of_skipSpace hs
    have hlt₁ := lexer.string_lt hk
    have hlt₂ := length_lt_of_skipSpace hc
    have hlt₃ := hv.length_lt
    have hlt₄ := length_lt_of_skipSpace he
    obtain ⟨fuel, rfl⟩ : ∃ f, fuel = f + 1 := ⟨fuel - 1, by omega⟩
    have hkey := key_eq_some.mpr ⟨_, _, hs, hk, hc⟩
    have hi := ih depth (by omega)
    have hi' := ih' depth fuel (by omega) (by omega)
    have hne : comma ≠ closeBrace := by decide
    simp [members, hkey, hi, he, hne, hi']

/-- **What the reader returns**: every text of the grammar that does not nest too deeply. -/
theorem read_of_parses {depth : ℕ} {text rest : Bytes} {t : Tree}
    (h : Parses lexer text (.value t) rest) (hrest : skipSpace rest = []) (hd : t.depth ≤ depth) :
    read lexer depth text = some t := by
  have hv : value lexer depth text = some (t, rest) := h.reads depth hd
  simp [read, hv, hrest]

end RlcdDeck.Json
