import RlcdDeck.AiSnapshot.Validate
import RlcdDeck.AiSnapshot.Decode

/-!
# Strings, read by both sides

The firmware decodes a string as it needs it, the Companion once and for all (`Json.unquote`).
Here the two meet: `validUtf8_eq` for whole documents, `decodeAsciiLoop_eq_some` for identifiers and
keys.
-/

namespace RlcdDeck.AiSnapshot

open Json (Bytes Tree bytes quote backslash letterU isDigit hexQuad isHigh isLow combine unquote Body
  simpleEscape)

/-! ### Bytes -/

theorem forall_byte {P : UInt8 → Prop} (h : ∀ n : Fin 256, P (UInt8.ofNat n)) (b : UInt8) :
    P b := by
  have hb := h ⟨b.toNat, b.toNat_lt⟩
  simpa using hb

theorem mask_two (b : UInt8) : b &&& 0xe0 = 0xc0 ↔ 0xc0 ≤ b.toNat ∧ b.toNat < 0xe0 := by
  revert b
  apply forall_byte
  decide +kernel

theorem mask_three (b : UInt8) : b &&& 0xf0 = 0xe0 ↔ 0xe0 ≤ b.toNat ∧ b.toNat < 0xf0 := by
  revert b
  apply forall_byte
  decide +kernel

theorem mask_four (b : UInt8) : b &&& 0xf8 = 0xf0 ↔ 0xf0 ≤ b.toNat ∧ b.toNat < 0xf8 := by
  revert b
  apply forall_byte
  decide +kernel

theorem mask_tail (b : UInt8) : (b &&& 0xc0 == 0x80) = Utf8.continues b := by
  revert b
  apply forall_byte
  decide +kernel

theorem low_bits (b : UInt8) : (b &&& 0x3f).toNat = b.toNat % 64 ∧ (b &&& 0x1f).toNat = b.toNat % 32 ∧
    (b &&& 0x0f).toNat = b.toNat % 16 ∧ (b &&& 0x07).toNat = b.toNat % 8 := by
  revert b
  apply forall_byte
  decide +kernel

theorem shift_or (a : ℕ) {b : ℕ} (h : b < 64) : a <<< 6 ||| b = a * 64 + b := by
  rw [← Nat.shiftLeft_add_eq_or_of_lt (by simpa using h), Nat.shiftLeft_eq]

theorem ascii_iff (b : UInt8) : b ≤ 0x7f ↔ b.toNat < 0x80 := by
  rw [UInt8.le_iff_toNat_le]
  simp
  omega

/-! ### UTF-8 -/

theorem inRange_eq (minimum codepoint : ℕ) :
    validUtf8.inRange minimum codepoint = Utf8.scalar minimum codepoint := by
  unfold validUtf8.inRange Utf8.scalar
  by_cases h₁ : minimum ≤ codepoint <;> by_cases h₂ : codepoint ≤ 0x10ffff <;>
    simp [h₁, h₂, Nat.not_lt.mpr, Nat.lt_of_not_le]

theorem isSome_run_last (point minimum : ℕ) (b : UInt8) (rest : Bytes) :
    (Utf8.run (some ⟨0, point, minimum⟩) (b :: rest)).isSome =
      (Utf8.continues b && Utf8.scalar minimum (point * 64 + b.toNat % 64) &&
        Utf8.valid rest) := by
  cases hc : Utf8.continues b <;>
    cases hs : Utf8.scalar minimum (point * 64 + b.toNat % 64) <;>
    simp [Utf8.run, hc, hs, Utf8.valid, Utf8.decode]

theorem isSome_run_more (more point minimum : ℕ) (b : UInt8) (rest : Bytes) :
    (Utf8.run (some ⟨more + 1, point, minimum⟩) (b :: rest)).isSome =
      (Utf8.continues b &&
        (Utf8.run (some ⟨more, point * 64 + b.toNat % 64, minimum⟩) rest).isSome) := by
  cases hc : Utf8.continues b <;> simp [Utf8.run, hc]

theorem valid_lead {b : UInt8} {p : Utf8.Pending} (h : Utf8.lead b = some p) (rest : Bytes) :
    Utf8.valid (b :: rest) = (Utf8.run (some p) rest).isSome := by
  rw [Utf8.valid, Utf8.decode_lead h]

theorem lead_of_two {b : UInt8} (h : b &&& 0xe0 = 0xc0) :
    Utf8.lead b = some ⟨0, b.toNat % 32, 0x80⟩ := by
  obtain ⟨h₁, h₂⟩ := (mask_two b).mp h
  simp [Utf8.lead, h₁, h₂]

theorem lead_of_three {b : UInt8} (h : b &&& 0xf0 = 0xe0) :
    Utf8.lead b = some ⟨1, b.toNat % 16, 0x800⟩ := by
  obtain ⟨h₁, h₂⟩ := (mask_three b).mp h
  have h₃ : ¬ b.toNat < 0xe0 := by omega
  simp [Utf8.lead, h₁, h₂, h₃]

theorem lead_of_four {b : UInt8} (h : b &&& 0xf8 = 0xf0) :
    Utf8.lead b = some ⟨2, b.toNat % 8, 0x10000⟩ := by
  obtain ⟨h₁, h₂⟩ := (mask_four b).mp h
  have h₃ : ¬ b.toNat < 0xe0 := by omega
  have h₄ : ¬ b.toNat < 0xf0 := by omega
  simp [Utf8.lead, h₁, h₂, h₃, h₄]

theorem lead_eq_none {b : UInt8} (h₂ : ¬ b &&& 0xe0 = 0xc0) (h₃ : ¬ b &&& 0xf0 = 0xe0)
    (h₄ : ¬ b &&& 0xf8 = 0xf0) : Utf8.lead b = none := by
  rw [mask_two] at h₂
  rw [mask_three] at h₃
  rw [mask_four] at h₄
  simp only [Utf8.lead, Bool.and_eq_true, decide_eq_true_eq]
  rw [if_neg h₂, if_neg h₃, if_neg h₄]

theorem push_tail (a : ℕ) (b : UInt8) : a <<< 6 ||| (b &&& 0x3f).toNat = a * 64 + b.toNat % 64 := by
  rw [(low_bits b).1, shift_or a (Nat.mod_lt _ (by decide))]

@[simp] theorem run_some_nil (p : Utf8.Pending) : Utf8.run (some p) [] = none := rfl

/-- **The firmware's check of a document is that of the Companion.** -/
theorem validUtf8_eq (bs : Bytes) : validUtf8 bs = Utf8.valid bs := by
  fun_induction validUtf8 bs with
  | case1 => rfl
  | case2 first rest h ih => rw [Utf8.valid_ascii ((ascii_iff first).mp h), ih]
  | case3 first _ h b₁ rest codepoint ih =>
    have hcp : codepoint = first.toNat % 32 * 64 + b₁.toNat % 64 := by
      simp only [codepoint, push_tail, low_bits]
    rw [valid_lead (lead_of_two h), isSome_run_last, mask_tail, inRange_eq, ih, hcp]
  | case4 first rest _ h hn =>
    rw [valid_lead (lead_of_two h)]
    cases rest with
    | nil => rfl
    | cons b₁ rest => exact absurd rfl (hn b₁ rest)
  | case5 first _ _ h b₁ b₂ rest codepoint₁ codepoint ih =>
    have hcp : codepoint = (first.toNat % 16 * 64 + b₁.toNat % 64) * 64 + b₂.toNat % 64 := by
      simp only [codepoint, codepoint₁, push_tail, low_bits]
    rw [valid_lead (lead_of_three h), isSome_run_more, isSome_run_last, mask_tail, mask_tail,
      inRange_eq, ih, hcp]
    simp only [Bool.and_assoc]
  | case6 first rest _ _ h hn =>
    rw [valid_lead (lead_of_three h)]
    match rest with
    | [] => rfl
    | [b₁] => simp [isSome_run_more]
    | b₁ :: b₂ :: rest => exact absurd rfl (hn b₁ b₂ rest)
  | case7 first _ _ _ h b₁ b₂ b₃ rest codepoint₂ codepoint₁ codepoint ih =>
    have hcp : codepoint = ((first.toNat % 8 * 64 + b₁.toNat % 64) * 64 + b₂.toNat % 64) * 64 +
        b₃.toNat % 64 := by
      simp only [codepoint, codepoint₁, codepoint₂, push_tail, low_bits]
    rw [valid_lead (lead_of_four h), isSome_run_more, isSome_run_more, isSome_run_last, mask_tail,
      mask_tail, mask_tail, inRange_eq, ih, hcp]
    simp only [Bool.and_assoc]
  | case8 first rest _ _ _ h hn =>
    rw [valid_lead (lead_of_four h)]
    match rest with
    | [] => rfl
    | [b₁] => simp [isSome_run_more]
    | [b₁, b₂] => simp [isSome_run_more]
    | b₁ :: b₂ :: b₃ :: rest => exact absurd rfl (hn b₁ b₂ b₃ rest)
  | case9 first rest h h₂ h₃ h₄ =>
    rw [ascii_iff] at h
    simp [Utf8.valid, Utf8.decode, Utf8.run, h, lead_eq_none h₂ h₃ h₄]

/-! ### Identifiers and keys -/

theorem not_ascii_of_encode {point : ℕ} (h : 0x80 ≤ point) (hmax : point ≤ 0x10ffff) {s : Bytes}
    (hs : ∀ b ∈ Utf8.encode point ++ s, b.toNat < 0x80) : False := by
  obtain ⟨b, rest, hb⟩ := List.exists_cons_of_ne_nil (Utf8.encode_ne_nil point)
  have hmem : b ∈ Utf8.encode point := hb ▸ List.mem_cons_self
  have hlow := hs b (List.mem_append_left _ hmem)
  have hhigh := Utf8.high_of_mem_encode h hmax hmem
  omega

/-- An escape beyond ASCII denotes a string that is not ASCII, if it denotes one. -/
theorem not_ascii_of_unicode {h₁ h₂ h₃ h₄ : UInt8} {u : ℕ} (hq : hexQuad h₁ h₂ h₃ h₄ = some u)
    (hu : 0x7f < u) {bs s : Bytes}
    (h : unquote (backslash :: letterU :: h₁ :: h₂ :: h₃ :: h₄ :: bs) = some s)
    (hs : ∀ b ∈ s, b.toNat < 0x80) : False := by
  cases hh : isHigh u with
  | true =>
    obtain ⟨_, _, _, _, l, _, s', _, _, hl, _, heq⟩ := Json.unquote_high hq hh h
    obtain ⟨hmin, hmax⟩ := Json.combine_bounds hh hl
    rw [heq] at hs
    generalize combine u l = c at hmin hmax hs
    exact not_ascii_of_encode (by omega) hmax hs
  | false =>
    cases hl : isLow u with
    | true =>
      rw [Json.unquote_low hq hh hl] at h
      cases h
    | false =>
      rw [Json.unquote_unicode hq hh hl] at h
      obtain ⟨s', _, rfl⟩ := Option.map_eq_some_iff.mp h
      have hlt := Json.hexQuad_lt hq
      exact not_ascii_of_encode hu (by omega) hs

section Decode

variable {capacity written : ℕ} {decoded denoted : Option Bytes} {b : UInt8} {s : Bytes}

/-- One more decoded byte. -/
theorem decode_cons (hb : b.toNat < 0x80)
    (ih : ∀ {s : Bytes}, decoded = some s ↔
      denoted = some s ∧ (∀ b ∈ s, b.toNat < 0x80) ∧ written + 1 + s.length < capacity) :
    (b :: ·) <$> decoded = some s ↔
      (b :: ·) <$> denoted = some s ∧ (∀ b ∈ s, b.toNat < 0x80) ∧
        written + s.length < capacity := by
  constructor
  · intro h
    obtain ⟨s', hs', rfl⟩ := Option.map_eq_some_iff.mp h
    obtain ⟨hd, ha, hl⟩ := ih.mp hs'
    refine ⟨by rw [hd]; rfl, ?_, ?_⟩
    · rw [List.forall_mem_cons]
      exact ⟨hb, ha⟩
    · rw [List.length_cons]
      omega
  · rintro ⟨h, ha, hl⟩
    obtain ⟨s', hs', rfl⟩ := Option.map_eq_some_iff.mp h
    rw [List.forall_mem_cons] at ha
    rw [List.length_cons] at hl
    rw [ih.mpr ⟨hs', ha.2, by omega⟩]
    rfl

theorem decode_full (hb : b > 0x7f ∨ written + 1 ≥ capacity) :
    none = some s ↔ (b :: ·) <$> denoted = some s ∧ (∀ b ∈ s, b.toNat < 0x80) ∧
      written + s.length < capacity := by
  refine ⟨fun h => (by cases h), ?_⟩
  rintro ⟨h, ha, hl⟩
  obtain ⟨s', hs', rfl⟩ := Option.map_eq_some_iff.mp h
  rw [List.forall_mem_cons] at ha
  rw [List.length_cons] at hl
  rcases hb with hb | hb
  · exact absurd ((ascii_iff b).mpr ha.1) (UInt8.not_le.mpr hb)
  · omega

end Decode

/-- **Decoding ASCII**: what fits and has no character beyond ASCII. -/
theorem decodeAsciiLoop_eq_some {capacity written : ℕ} (hw : written < capacity) {raw s : Bytes} :
    Document.decodeAsciiLoop capacity written raw = some s ↔
      unquote raw = some s ∧ (∀ b ∈ s, b.toNat < 0x80) ∧ written + s.length < capacity := by
  have hnone : ∀ {raw s : Bytes} {P : Prop}, unquote raw = none →
      (none = some s ↔ unquote raw = some s ∧ P) := by
    intro raw s P h
    simp [h]
  fun_induction Document.decodeAsciiLoop capacity written raw generalizing s with
  | case1 written =>
    rw [Json.unquote_nil]
    constructor
    · rintro ⟨⟩
      exact ⟨rfl, by simp, hw⟩
    · exact fun h => h.1
  | case2 => exact hnone Json.unquote_backslash
  | case3 _ _ _ _ _ _ hq => exact hnone (Json.unquote_hex_none hq _)
  | case4 written h₁ h₂ h₃ h₄ bs u hq hfull =>
    simp only [Bool.or_eq_true, decide_eq_true_eq] at hfull
    by_cases hu : u > 0x7f
    · refine ⟨fun h => (by cases h), fun h => (not_ascii_of_unicode hq hu h.1 h.2.1).elim⟩
    · have hh : isHigh u = false := by simp [isHigh]; omega
      have hl : isLow u = false := by simp [isLow]; omega
      have he : Utf8.encode u = [UInt8.ofNat u] := by simp [Utf8.encode]; omega
      rw [Json.unquote_unicode hq hh hl, he]
      exact decode_full (.inr (hfull.resolve_left hu))
  | case5 written h₁ h₂ h₃ h₄ bs u hq hroom ih =>
    simp only [Bool.or_eq_true, decide_eq_true_eq, not_or, Nat.not_lt, ge_iff_le, Nat.not_le]
      at hroom
    obtain ⟨hu, hroom⟩ := hroom
    have hh : isHigh u = false := by simp [isHigh]; omega
    have hl : isLow u = false := by simp [isLow]; omega
    have he : Utf8.encode u = [UInt8.ofNat u] := by simp [Utf8.encode]; omega
    have hb : (UInt8.ofNat u).toNat = u := Utf8.toNat_ofNat_of_lt (by omega)
    rw [Json.unquote_unicode hq hh hl, he]
    exact decode_cons (by omega) (ih hroom)
  | case6 _ _ hn => exact hnone (Json.unquote_short hn)
  | case7 _ _ _ hu he => exact hnone (Json.unquote_escape_none hu he _)
  | case8 written e bs hu b he hfull =>
    rw [Json.unquote_escape hu he]
    exact decode_full (by simpa using hfull)
  | case9 written e bs hu b he hroom ih =>
    simp only [Bool.or_eq_true, decide_eq_true_eq, not_or, ge_iff_le, Nat.not_le] at hroom
    rw [Json.unquote_escape hu he]
    exact decode_cons ((ascii_iff b).mp (UInt8.not_lt.mp hroom.1)) (ih hroom.2)
  | case10 written c bs hc hfull =>
    rw [Json.unquote_plain hc]
    exact decode_full (by simpa using hfull)
  | case11 written c bs hc hroom ih =>
    simp only [Bool.or_eq_true, decide_eq_true_eq, not_or, ge_iff_le, Nat.not_le] at hroom
    rw [Json.unquote_plain hc]
    exact decode_cons ((ascii_iff c).mp (UInt8.not_lt.mp hroom.1)) (ih hroom.2)

end RlcdDeck.AiSnapshot
