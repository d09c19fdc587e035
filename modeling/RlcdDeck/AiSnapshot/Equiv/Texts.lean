import RlcdDeck.AiSnapshot.Equiv.Bodies
import RlcdDeck.AiSnapshot.Projection

/-!
# Texts: what `safe_text` accepts and `decode_utf8` reads

Both go through a text one character at a time (`Text.step`).  `decode_utf8` reads what the text
stands for (`decodeUtf8_iff`) if that fits, and a text that `safe_text` accepts stands for something
unless it holds a NUL: `std::strchr` finds one in every string, so `Parser::string` lets a backslash
stand in front of it, and `safe_text` counts it as a character.
-/

namespace RlcdDeck.AiSnapshot

open Json (Bytes Tree bytes quote backslash letterU isHex hexQuad isHigh isLow combine unquote Body)
open Document (characterSize decodeStep decodeUtf8Loop decodeUtf8 encodedText safeTextLoop safeText)

/-! ### Encoding -/

theorem tag_or (q k : ℕ) {b : ℕ} (h : b < 2 ^ k) : 2 ^ k * q ||| b = 2 ^ k * q + b :=
  (Nat.two_pow_add_eq_or_of_lt h q).symm

theorem encodedText_eq {codepoint : ℕ} (h : codepoint ≤ 0x10ffff) :
    encodedText codepoint = some (Utf8.encode codepoint) := by
  have hmask : ∀ n : ℕ, n &&& 0x3f = n % 64 := fun n => Nat.and_two_pow_sub_one_eq_mod n 6
  have htail : ∀ n : ℕ, 0x80 ||| n % 64 = 0x80 + n % 64 := fun n =>
    tag_or 2 6 (Nat.mod_lt n (by decide))
  have hshift₆ : codepoint >>> 6 = codepoint / 64 := Nat.shiftRight_eq_div_pow _ 6
  have hshift₁₂ : codepoint >>> 12 = codepoint / 4096 := Nat.shiftRight_eq_div_pow _ 12
  have hshift₁₈ : codepoint >>> 18 = codepoint / 262144 := Nat.shiftRight_eq_div_pow _ 18
  unfold encodedText Utf8.encode
  rw [hshift₆, hshift₁₂, hshift₁₈, hmask, hmask, hmask, htail, htail, htail]
  by_cases h₁ : codepoint < 0x80
  · rw [if_pos h₁, if_pos (by omega)]
  by_cases h₂ : codepoint < 0x800
  · have htag : 0xc0 ||| codepoint / 64 = 0xc0 + codepoint / 64 := tag_or 6 5 (by omega)
    rw [if_neg h₁, if_pos h₂, if_neg (by omega), if_pos (by omega), htag]
  by_cases h₃ : codepoint < 0x10000
  · have htag : 0xe0 ||| codepoint / 4096 = 0xe0 + codepoint / 4096 := tag_or 14 4 (by omega)
    rw [if_neg h₁, if_neg h₂, if_pos h₃, if_neg (by omega), if_neg (by omega), if_pos (by omega),
      htag]
  · have htag : 0xf0 ||| codepoint / 262144 = 0xf0 + codepoint / 262144 := tag_or 30 3 (by omega)
    rw [if_neg h₁, if_neg h₂, if_neg h₃, if_neg (by omega), if_neg (by omega), if_neg (by omega),
      if_pos h, htag]

theorem length_encode_le (codepoint : ℕ) : (Utf8.encode codepoint).length ≤ 4 := by
  unfold Utf8.encode
  split_ifs <;> simp

/-! ### One character -/

/-- A text of the document that `safe_text` counts. -/
structure Text (raw : Bytes) (points : ℕ) : Prop where
  body : Body escaped raw
  valid : validUtf8 raw = true
  safe : safeTextLoop raw = some points

/-- The first character of a text: what `decode_utf8` writes of it and what is left. -/
structure Character (bs text rest : Bytes) (points : ℕ) : Prop where
  decoded : decodeStep bs = some (text, rest)
  denoted : unquote bs = (text ++ ·) <$> unquote rest
  counted : ∃ more, points = more + 1 ∧ Text rest more
  short : text.length ≤ 4
  shorter : rest.length < bs.length
  nul : 0 ∈ bs ↔ 0 ∈ rest

theorem continuation_ne {b : UInt8} (h : (b &&& 0xc0 == 0x80) = true) :
    b ≠ backslash ∧ b ≠ 0 := by
  constructor
  · rintro rfl
    exact absurd h (by decide)
  · rintro rfl
    exact absurd h (by decide)

variable {c : UInt8} {bs : Bytes}

theorem body_of_plain (h : Body escaped (c :: bs)) (hc : c ≠ backslash) :
    Body escaped bs ∧ c ≠ 0 := by
  cases h with
  | plain _ hmin _ hbs =>
    refine ⟨hbs, fun hzero => ?_⟩
    subst hzero
    exact absurd hmin (by decide)
  | escape => exact absurd rfl hc
  | unicode => exact absurd rfl hc

variable {points : ℕ}

theorem plain_ascii (h : Text (c :: bs) points) (hc : c ≠ backslash) (hascii : c ≤ 0x7f) :
    Character (c :: bs) [c] bs points := by
  obtain ⟨hbody, hne⟩ := body_of_plain h.body hc
  have hlow := (ascii_iff c).mp hascii
  have h₂ : ¬ c &&& 0xe0 = 0xc0 := by rw [mask_two]; omega
  have h₃ : ¬ c &&& 0xf0 = 0xe0 := by rw [mask_three]; omega
  have h₄ : ¬ c &&& 0xf8 = 0xf0 := by rw [mask_four]; omega
  have hsmall : ¬ c ≥ 0x80 := by
    rw [ge_iff_le, UInt8.le_iff_toNat_le]
    simp
    omega
  have hsize : characterSize c = some 1 := by simp [characterSize, h₂, h₃, h₄, hsmall]
  have hsafe := h.safe
  have hvalid := h.valid
  rw [Document.safeTextLoop_def] at hsafe
  simp only [if_neg hc] at hsafe
  split_ifs at hsafe with hdelete
  obtain ⟨more, hmore, hpoints⟩ := Option.map_eq_some_iff.mp hsafe
  rw [validUtf8_def] at hvalid
  simp only [if_pos hascii] at hvalid
  constructor
  · simp [decodeStep, hc, hsize]
  · rw [Json.unquote_plain hc]
    rfl
  · exact ⟨more, hpoints.symm, hbody, hvalid, hmore⟩
  · simp
  · simp
  · simp [Ne.symm hne]

theorem high_of_mask {c : UInt8} (h : 0xc0 ≤ c.toNat) : c ≥ 0x80 ∧ ¬ c ≤ 0x7f ∧ c ≠ 0x7f := by
  refine ⟨?_, ?_, ?_⟩
  · rw [ge_iff_le, UInt8.le_iff_toNat_le]
    simp
    omega
  · rw [ascii_iff]
    omega
  · rintro rfl
    exact absurd h (by decide)

theorem continuations {tail rest : Bytes} (hbody : Body escaped (tail ++ rest))
    (htail : ∀ b ∈ tail, (b &&& 0xc0 == 0x80) = true) :
    Body escaped rest ∧ unquote (tail ++ rest) = (tail ++ ·) <$> unquote rest ∧
      (0 ∈ tail ++ rest ↔ 0 ∈ rest) := by
  induction tail with
  | nil => exact ⟨hbody, by simp, Iff.rfl⟩
  | cons b tail ih =>
    rw [List.forall_mem_cons] at htail
    obtain ⟨hb, hzero⟩ := continuation_ne htail.1
    obtain ⟨hrest, hunquote, hnul⟩ := ih (body_of_plain hbody hb).1 htail.2
    refine ⟨hrest, ?_, ?_⟩
    · rw [List.cons_append, Json.unquote_plain hb, hunquote]
      cases unquote rest <;> rfl
    · rw [List.cons_append, List.mem_cons, hnul]
      simp [Ne.symm hzero]

theorem plain_bytes {c : UInt8} {tail rest : Bytes} {points : ℕ}
    (hbody : Body escaped (c :: (tail ++ rest))) (hc : c ≠ backslash)
    (htail : ∀ b ∈ tail, (b &&& 0xc0 == 0x80) = true) (hlength : tail.length ≤ 3)
    (hdecoded : decodeStep (c :: (tail ++ rest)) = some (c :: tail, rest))
    (hvalid : validUtf8 rest = true) (hsafe : (safeTextLoop rest).map (· + 1) = some points) :
    ∃ text rest', Character (c :: (tail ++ rest)) text rest' points := by
  obtain ⟨hbody, hne⟩ := body_of_plain hbody hc
  obtain ⟨hrest, hunquote, hnul⟩ := continuations hbody htail
  obtain ⟨more, hmore, hpoints⟩ := Option.map_eq_some_iff.mp hsafe
  refine ⟨c :: tail, rest, hdecoded, ?_, ⟨more, hpoints.symm, hrest, hvalid, hmore⟩, ?_, ?_, ?_⟩
  · rw [Json.unquote_plain hc, hunquote]
    cases unquote rest <;> rfl
  · rw [List.length_cons]
    omega
  · rw [List.length_cons, List.length_append]
    omega
  · rw [List.mem_cons, hnul]
    simp [Ne.symm hne]

theorem plain_two (h : Text (c :: bs) points) (hc : c ≠ backslash) (h₂ : c &&& 0xe0 = 0xc0) :
    ∃ text rest, Character (c :: bs) text rest points := by
  obtain ⟨hhigh, hnot, hdelete⟩ := high_of_mask ((mask_two c).mp h₂).1
  have hsize : characterSize c = some 2 := by simp [characterSize, h₂]
  have hsafe := h.safe
  have hvalid := h.valid
  rw [validUtf8_def] at hvalid
  simp only [if_neg hnot, if_pos h₂] at hvalid
  split at hvalid
  · next b₁ rest =>
    simp only [Bool.and_eq_true] at hvalid
    rw [Document.safeTextLoop_def] at hsafe
    simp only [if_neg hc, if_neg hdelete, if_pos hhigh, if_pos h₂] at hsafe
    refine @plain_bytes c [b₁] rest points h.body hc ?_ (by simp) ?_ hvalid.2 hsafe
    · simpa using hvalid.1.1
    · simp [decodeStep, hc, hsize]
  · cases hvalid

theorem plain_three (h : Text (c :: bs) points) (hc : c ≠ backslash) (h₃ : c &&& 0xf0 = 0xe0) :
    ∃ text rest, Character (c :: bs) text rest points := by
  obtain ⟨hmin, hmax⟩ := (mask_three c).mp h₃
  obtain ⟨hhigh, hnot, hdelete⟩ := @high_of_mask c (by omega)
  have h₂ : ¬ c &&& 0xe0 = 0xc0 := by rw [mask_two]; omega
  have hsize : characterSize c = some 3 := by simp [characterSize, h₂, h₃]
  have hsafe := h.safe
  have hvalid := h.valid
  rw [validUtf8_def] at hvalid
  simp only [if_neg hnot, if_neg h₂, if_pos h₃] at hvalid
  split at hvalid
  · next b₁ b₂ rest =>
    simp only [Bool.and_eq_true] at hvalid
    rw [Document.safeTextLoop_def] at hsafe
    simp only [if_neg hc, if_neg hdelete, if_pos hhigh, if_neg h₂, if_pos h₃] at hsafe
    refine @plain_bytes c [b₁, b₂] rest points h.body hc ?_ (by simp) ?_ hvalid.2 hsafe
    · simpa using hvalid.1.1
    · simp [decodeStep, hc, hsize]
  · cases hvalid

theorem plain_four (h : Text (c :: bs) points) (hc : c ≠ backslash) (h₄ : c &&& 0xf8 = 0xf0) :
    ∃ text rest, Character (c :: bs) text rest points := by
  obtain ⟨hmin, hmax⟩ := (mask_four c).mp h₄
  obtain ⟨hhigh, hnot, hdelete⟩ := @high_of_mask c (by omega)
  have h₂ : ¬ c &&& 0xe0 = 0xc0 := by rw [mask_two]; omega
  have h₃ : ¬ c &&& 0xf0 = 0xe0 := by rw [mask_three]; omega
  have hsize : characterSize c = some 4 := by simp [characterSize, h₂, h₃, h₄]
  have hsafe := h.safe
  have hvalid := h.valid
  rw [validUtf8_def] at hvalid
  simp only [if_neg hnot, if_neg h₂, if_neg h₃, if_pos h₄] at hvalid
  split at hvalid
  · next b₁ b₂ b₃ rest =>
    simp only [Bool.and_eq_true] at hvalid
    rw [Document.safeTextLoop_def] at hsafe
    simp only [if_neg hc, if_neg hdelete, if_pos hhigh, if_neg h₂, if_neg h₃, if_pos h₄] at hsafe
    refine @plain_bytes c [b₁, b₂, b₃] rest points h.body hc ?_ (by simp) ?_ hvalid.2 hsafe
    · simpa [and_assoc] using hvalid.1.1
    · simp [decodeStep, hc, hsize]
  · cases hvalid

theorem plain_character (h : Text (c :: bs) points) (hc : c ≠ backslash) :
    ∃ text rest, Character (c :: bs) text rest points := by
  by_cases hascii : c ≤ 0x7f
  · exact ⟨[c], bs, plain_ascii h hc hascii⟩
  by_cases h₂ : c &&& 0xe0 = 0xc0
  · exact plain_two h hc h₂
  by_cases h₃ : c &&& 0xf0 = 0xe0
  · exact plain_three h hc h₃
  by_cases h₄ : c &&& 0xf8 = 0xf0
  · exact plain_four h hc h₄
  · have hvalid := h.valid
    rw [validUtf8_def] at hvalid
    simp only [if_neg hascii, if_neg h₂, if_neg h₃, if_neg h₄] at hvalid
    cases hvalid

/-! ### Escapes -/

theorem validUtf8_ascii (h : c ≤ 0x7f) (bs : Bytes) :
    validUtf8 (c :: bs) = validUtf8 bs := by
  rw [validUtf8_def]
  simp only [if_pos h]

theorem ascii_of_isHex (h : isHex c = true) : c ≤ 0x7f ∧ c ≠ 0 := by
  constructor
  · rw [ascii_iff]
    simp only [isHex, Json.isDigit, Bool.or_eq_true, Bool.and_eq_true, decide_eq_true_eq] at h
    omega
  · rintro rfl
    exact absurd h (by decide)

theorem quad_bytes {h₁ h₂ h₃ h₄ : UInt8} (hx₁ : isHex h₁ = true) (hx₂ : isHex h₂ = true)
    (hx₃ : isHex h₃ = true) (hx₄ : isHex h₄ = true) (bs : Bytes) :
    validUtf8 (backslash :: letterU :: h₁ :: h₂ :: h₃ :: h₄ :: bs) = validUtf8 bs ∧
      (0 ∈ backslash :: letterU :: h₁ :: h₂ :: h₃ :: h₄ :: bs ↔ 0 ∈ bs) := by
  obtain ⟨ha₁, hz₁⟩ := ascii_of_isHex hx₁
  obtain ⟨ha₂, hz₂⟩ := ascii_of_isHex hx₂
  obtain ⟨ha₃, hz₃⟩ := ascii_of_isHex hx₃
  obtain ⟨ha₄, hz₄⟩ := ascii_of_isHex hx₄
  constructor
  · rw [validUtf8_ascii (by decide), validUtf8_ascii (by decide), validUtf8_ascii ha₁,
      validUtf8_ascii ha₂, validUtf8_ascii ha₃, validUtf8_ascii ha₄]
  · have hb : (0 : UInt8) ≠ backslash := by decide
    have hu : (0 : UInt8) ≠ letterU := by decide
    simp [hb, hu, Ne.symm hz₁, Ne.symm hz₂, Ne.symm hz₃, Ne.symm hz₄]

theorem body_of_unicode (h : Body escaped (backslash :: letterU :: bs)) :
    ∃ h₁ h₂ h₃ h₄ rest, bs = h₁ :: h₂ :: h₃ :: h₄ :: rest ∧ isHex h₁ = true ∧ isHex h₂ = true ∧
      isHex h₃ = true ∧ isHex h₄ = true ∧ Body escaped rest := by
  cases h with
  | plain _ _ hne _ => exact absurd rfl hne
  | escape he _ => exact absurd he (by decide)
  | unicode _ hx₁ hx₂ hx₃ hx₄ hrest => exact ⟨_, _, _, _, _, rfl, hx₁, hx₂, hx₃, hx₄, hrest⟩

/-- A code point in digits. -/
theorem unicode_character (h : Text (backslash :: letterU :: bs) points) :
    ∃ text rest, Character (backslash :: letterU :: bs) text rest points := by
  obtain ⟨h₁, h₂, h₃, h₄, rest, rfl, hx₁, hx₂, hx₃, hx₄, hbody⟩ := body_of_unicode h.body
  obtain ⟨u, hu⟩ := Json.isSome_hexQuad hx₁ hx₂ hx₃ hx₄
  obtain ⟨hutf8, hnul⟩ := quad_bytes hx₁ hx₂ hx₃ hx₄ rest
  have hvalid : validUtf8 rest = true := hutf8 ▸ h.valid
  have hlt := Json.hexQuad_lt hu
  have hcontrol : letterU ∉ bytes "bfnrt" := by decide
  have hsafe := h.safe
  rw [Document.safeTextLoop_def] at hsafe
  simp only [if_true, if_neg hcontrol, hu] at hsafe
  split_ifs at hsafe with hhigh hlow hsmall
  · -- a pair of surrogates
    split at hsafe
    · next c' e' l₁ l₂ l₃ l₄ rest' =>
      split_ifs at hsafe with hpair
      obtain ⟨rfl, rfl⟩ := hpair
      cases hl : hexQuad l₁ l₂ l₃ l₄ with
      | none => simp [hl] at hsafe
      | some l =>
        simp only [hl] at hsafe
        split_ifs at hsafe with hlow
        obtain ⟨more, hmore, hpoints⟩ := Option.map_eq_some_iff.mp hsafe
        obtain ⟨k₁, k₂, k₃, k₄, rest'', heq, hy₁, hy₂, hy₃, hy₄, hbody'⟩ := body_of_unicode hbody
        simp only [List.cons.injEq] at heq
        obtain ⟨rfl, rfl, rfl, rfl, rfl⟩ := heq
        obtain ⟨hutf8', hnul'⟩ := quad_bytes hy₁ hy₂ hy₃ hy₄ rest'
        obtain ⟨hmin, hmax⟩ := Json.combine_bounds hhigh hlow
        have hcombine : 0x10000 + (u - 0xd800) <<< 10 + (l - 0xdc00) = combine u l := by
          have hshift : (u - 0xd800) <<< 10 = (u - 0xd800) * 1024 := Nat.shiftLeft_eq _ 10
          unfold combine
          omega
        refine ⟨Utf8.encode (combine u l), rest', ?_, ?_, ?_, length_encode_le _, ?_, ?_⟩
        · simp only [decodeStep, hu, hhigh, hl, hlow, hcombine, encodedText_eq hmax, and_self,
            if_true]
          rfl
        · exact Json.unquote_pair hu hhigh hl hlow rest'
        · exact ⟨more, hpoints.symm, hbody', hutf8' ▸ hvalid, hmore⟩
        · simp only [List.length_cons]
          omega
        · rw [hnul, hnul']
    · cases hsafe
  · obtain ⟨more, hmore, hpoints⟩ := Option.map_eq_some_iff.mp hsafe
    rw [Bool.not_eq_true] at hhigh hlow
    refine ⟨Utf8.encode u, rest, ?_, ?_, ?_, length_encode_le _, ?_, hnul⟩
    · simp only [decodeStep, hu, hhigh, hlow, encodedText_eq (show u ≤ 0x10ffff by omega)]
      rfl
    · exact Json.unquote_unicode hu hhigh hlow rest
    · exact ⟨more, hpoints.symm, hbody, hvalid, hmore⟩
    · simp only [List.length_cons]
      omega

theorem escape_values {e : UInt8} (h : escaped e = true) (hcontrol : e ∉ bytes "bfnrt") :
    (e = quote ∨ e = backslash ∨ e = 0x2f) ∨ e = 0 := by
  have hlist : bytes "\"\\/bfnrt" = [quote, backslash, 0x2f] ++ bytes "bfnrt" := by decide
  simp only [escaped, strchr, hlist, List.mem_append, Bool.or_eq_true, decide_eq_true_eq,
    beq_iff_eq, hcontrol, or_false] at h
  simpa using h

theorem escape_character {e : UInt8} (h : Text (backslash :: e :: bs) points) (hu : e ≠ letterU) :
    (decodeStep (backslash :: e :: bs) = none ∧ unquote (backslash :: e :: bs) = none ∧
        0 ∈ backslash :: e :: bs) ∨
      ∃ text rest, Character (backslash :: e :: bs) text rest points := by
  obtain ⟨he, hbody⟩ : escaped e = true ∧ Body escaped bs := by
    cases h.body with
    | plain _ _ hne _ => exact absurd rfl hne
    | escape he hbs => exact ⟨he, hbs⟩
    | unicode => exact absurd rfl hu
  have hsafe := h.safe
  rw [Document.safeTextLoop_def] at hsafe
  simp only [if_true, if_neg hu] at hsafe
  split_ifs at hsafe with hcontrol
  obtain ⟨more, hmore, hpoints⟩ := Option.map_eq_some_iff.mp hsafe
  rcases escape_values he hcontrol with hplain | rfl
  · right
    have hvalue : Json.escapeValue e = some e := by
      unfold Json.escapeValue
      rw [if_pos hplain]
    have hascii : e ≤ 0x7f ∧ e ≠ 0 := by
      rcases hplain with rfl | rfl | rfl <;> decide
    have hvalid := h.valid
    rw [validUtf8_ascii (by decide), validUtf8_ascii hascii.1] at hvalid
    refine ⟨[e], bs, ?_, ?_, ?_, ?_, ?_, ?_⟩
    · simp [decodeStep, hplain]
    · rw [Json.unquote_escape hu hvalue]
      rfl
    · exact ⟨more, hpoints.symm, hbody, hvalid, hmore⟩
    · simp
    · simp only [List.length_cons]
      omega
    · have hb : (0 : UInt8) ≠ backslash := by decide
      simp [hb, Ne.symm hascii.2]
  · left
    refine ⟨?_, Json.unquote_escape_none hu (by decide) bs, by simp⟩
    have hno : ¬ ((0 : UInt8) = quote ∨ (0 : UInt8) = backslash ∨ (0 : UInt8) = 0x2f) := by decide
    simp only [decodeStep, ne_eq, not_true_eq_false, if_false, if_neg hno, if_pos hu]

/-- **One character of a text.** -/
theorem Text.step (h : Text (c :: bs) points) :
    (decodeStep (c :: bs) = none ∧ unquote (c :: bs) = none ∧ 0 ∈ c :: bs) ∨
      ∃ text rest, Character (c :: bs) text rest points := by
  by_cases hc : c = backslash
  · subst hc
    cases bs with
    | nil =>
      have hsafe := h.safe
      rw [Document.safeTextLoop_def] at hsafe
      simp at hsafe
    | cons e bs =>
      by_cases hu : e = letterU
      · subst hu
        exact .inr (unicode_character h)
      · exact escape_character h hu
  · exact .inr (plain_character h hc)

/-! ### Whole texts -/

/-- `decode_utf8` reads what the text stands for, if it fits. -/
theorem decodeUtf8Loop_eq_some {capacity fuel written : ℕ} {raw s : Bytes} (h : Text raw points)
    (hfuel : raw.length ≤ fuel) (hwritten : written < capacity) :
    decodeUtf8Loop capacity fuel written raw = some s ↔
      unquote raw = some s ∧ written + s.length < capacity := by
  induction fuel generalizing raw written points s with
  | zero =>
    obtain rfl := List.eq_nil_of_length_eq_zero (Nat.le_zero.mp hfuel)
    constructor
    · intro hs
      obtain rfl := Option.some.inj hs
      exact ⟨rfl, hwritten⟩
    · exact fun hs => hs.1
  | succ fuel ih =>
    cases raw with
    | nil =>
      constructor
      · intro hs
        obtain rfl := Option.some.inj hs
        exact ⟨rfl, hwritten⟩
      · exact fun hs => hs.1
    | cons c bs =>
      rw [decodeUtf8Loop]
      rcases h.step with ⟨hdecoded, hdenoted, -⟩ | ⟨text, rest, hcharacter⟩
      · rw [hdecoded, hdenoted]
        simp
      · obtain ⟨more, -, hrest⟩ := hcharacter.counted
        have hshorter := hcharacter.shorter
        rw [hcharacter.decoded, hcharacter.denoted]
        dsimp only
        split_ifs with hfull
        · constructor
          · intro hs
            cases hs
          · rintro ⟨hs, hfits⟩
            obtain ⟨tail, -, rfl⟩ := Option.map_eq_some_iff.mp hs
            rw [List.length_append] at hfits
            omega
        · have hnext : ∀ {tail : Bytes}, decodeUtf8Loop capacity fuel (written + text.length) rest =
              some tail ↔ unquote rest = some tail ∧ written + text.length + tail.length < capacity :=
            ih hrest (by omega) (by omega)
          constructor
          · intro hs
            obtain ⟨tail, htail, rfl⟩ := Option.map_eq_some_iff.mp hs
            obtain ⟨hdenoted, hfits⟩ := hnext.mp htail
            rw [hdenoted, List.length_append]
            exact ⟨rfl, by omega⟩
          · rintro ⟨hs, hfits⟩
            obtain ⟨tail, htail, rfl⟩ := Option.map_eq_some_iff.mp hs
            rw [List.length_append] at hfits
            rw [hnext.mpr ⟨htail, by omega⟩]
            rfl

theorem unquote_text {raw : Bytes} (h : Text raw points) :
    ((unquote raw).isSome ↔ 0 ∉ raw) ∧ ∀ s, unquote raw = some s → s.length ≤ 4 * points := by
  induction hlength : raw.length using Nat.strong_induction_on generalizing raw points with
  | _ n ih =>
    cases raw with
    | nil =>
      refine ⟨by simp [Json.unquote_nil], fun s hs => ?_⟩
      rw [Json.unquote_nil] at hs
      rw [← Option.some.inj hs]
      exact Nat.zero_le _
    | cons c bs =>
      rcases h.step with ⟨-, hdenoted, hnul⟩ | ⟨text, rest, hcharacter⟩
      · rw [hdenoted]
        simp [hnul]
      · obtain ⟨more, rfl, hrest⟩ := hcharacter.counted
        have hshorter := hcharacter.shorter
        have hshort := hcharacter.short
        obtain ⟨hsome, hbound⟩ := ih rest.length (by omega) hrest rfl
        rw [hcharacter.denoted]
        constructor
        · rw [hcharacter.nul, ← hsome]
          cases unquote rest <;> rfl
        · intro s hs
          obtain ⟨tail, htail, rfl⟩ := Option.map_eq_some_iff.mp hs
          have hle := hbound tail htail
          rw [List.length_append]
          omega

end RlcdDeck.AiSnapshot
