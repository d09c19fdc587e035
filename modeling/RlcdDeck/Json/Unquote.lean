import RlcdDeck.Json.Lexer
import RlcdDeck.Utf8.Runes

/-!
# What a JSON string stands for

`unquote` turns the body of a string into the bytes it denotes: escapes are written out, a pair
of surrogates as the one character it encodes.  A surrogate without its partner denotes nothing.
-/

namespace RlcdDeck.Json

/-- The value of a hexadecimal digit. -/
def hexValue (c : UInt8) : Option ℕ :=
  if isDigit c then some (c.toNat - 0x30)
  else if 0x61 ≤ c.toNat && c.toNat ≤ 0x66 then some (c.toNat - 0x61 + 10)
  else if 0x41 ≤ c.toNat && c.toNat ≤ 0x46 then some (c.toNat - 0x41 + 10)
  else none

/-- The code unit of four hexadecimal digits. -/
def hexQuad (h₁ h₂ h₃ h₄ : UInt8) : Option ℕ := do
  let v₁ ← hexValue h₁
  let v₂ ← hexValue h₂
  let v₃ ← hexValue h₃
  let v₄ ← hexValue h₄
  return ((v₁ * 16 + v₂) * 16 + v₃) * 16 + v₄

def isHigh (u : ℕ) : Bool := 0xd800 ≤ u && u ≤ 0xdbff

def isLow (u : ℕ) : Bool := 0xdc00 ≤ u && u ≤ 0xdfff

/-- The character a pair of surrogates encodes. -/
def combine (high low : ℕ) : ℕ := 0x10000 + (high - 0xd800) * 1024 + (low - 0xdc00)

/-- The character that a one-character escape stands for. -/
def escapeValue (e : UInt8) : Option UInt8 :=
  if e = quote ∨ e = backslash ∨ e = 0x2f then some e
  else if e = 0x62 then some 0x08
  else if e = 0x66 then some 0x0c
  else if e = 0x6e then some 0x0a
  else if e = 0x72 then some 0x0d
  else if e = 0x74 then some 0x09
  else none

/-- The bytes that the body of a string denotes. -/
def unquote : Bytes → Option Bytes
  | [] => some []
  | c :: bs =>
    if c = backslash then
      match bs with
      | [] => none
      | e :: bs =>
        if e = letterU then
          match bs with
          | h₁ :: h₂ :: h₃ :: h₄ :: bs =>
            match hexQuad h₁ h₂ h₃ h₄ with
            | none => none
            | some u =>
              if isHigh u then
                match bs with
                | c' :: e' :: l₁ :: l₂ :: l₃ :: l₄ :: bs =>
                  if c' = backslash ∧ e' = letterU then
                    match hexQuad l₁ l₂ l₃ l₄ with
                    | none => none
                    | some l =>
                      if isLow l then (Utf8.encode (combine u l) ++ ·) <$> unquote bs else none
                  else none
                | _ => none
              else if isLow u then none
              else (Utf8.encode u ++ ·) <$> unquote bs
          | _ => none
        else
          match escapeValue e with
          | none => none
          | some b => (b :: ·) <$> unquote bs
    else (c :: ·) <$> unquote bs

/-! ### One step -/

alias unquote_def := unquote.eq_def

theorem unquote_nil : unquote [] = some [] := rfl

theorem unquote_plain {c : UInt8} (h : c ≠ backslash) (bs : Bytes) :
    unquote (c :: bs) = (c :: ·) <$> unquote bs := by
  rw [unquote_def]
  simp only [if_neg h]

theorem unquote_escape {e b : UInt8} (hu : e ≠ letterU) (he : escapeValue e = some b)
    (bs : Bytes) : unquote (backslash :: e :: bs) = (b :: ·) <$> unquote bs := by
  rw [unquote_def]
  simp only [if_true, if_neg hu, he]

variable {h₁ h₂ h₃ h₄ : UInt8} {u : ℕ}

theorem unquote_unicode (hq : hexQuad h₁ h₂ h₃ h₄ = some u) (hh : isHigh u = false)
    (hl : isLow u = false) (bs : Bytes) :
    unquote (backslash :: letterU :: h₁ :: h₂ :: h₃ :: h₄ :: bs) =
      (Utf8.encode u ++ ·) <$> unquote bs := by
  rw [unquote_def]
  simp [hq, hh, hl]

theorem unquote_pair {l₁ l₂ l₃ l₄ : UInt8} {l : ℕ} (hq : hexQuad h₁ h₂ h₃ h₄ = some u)
    (hh : isHigh u = true)
    (hq' : hexQuad l₁ l₂ l₃ l₄ = some l) (hl : isLow l = true) (bs : Bytes) :
    unquote (backslash :: letterU :: h₁ :: h₂ :: h₃ :: h₄ :: backslash :: letterU :: l₁ :: l₂ ::
      l₃ :: l₄ :: bs) = (Utf8.encode (combine u l) ++ ·) <$> unquote bs := by
  rw [unquote_def]
  simp [hq, hh, hq', hl]

theorem unquote_backslash : unquote [backslash] = none := rfl

theorem unquote_escape_none {e : UInt8} (hu : e ≠ letterU) (he : escapeValue e = none)
    (bs : Bytes) : unquote (backslash :: e :: bs) = none := by
  rw [unquote_def]
  simp only [if_true, if_neg hu, he]

theorem unquote_hex_none (hq : hexQuad h₁ h₂ h₃ h₄ = none) (bs : Bytes) :
    unquote (backslash :: letterU :: h₁ :: h₂ :: h₃ :: h₄ :: bs) = none := by
  rw [unquote_def]
  simp only [if_true, hq]

theorem unquote_short {bs : Bytes}
    (h : ∀ h₁ h₂ h₃ h₄ bs', bs = h₁ :: h₂ :: h₃ :: h₄ :: bs' → False) :
    unquote (backslash :: letterU :: bs) = none := by
  rw [unquote_def]
  simp only [if_true]

theorem unquote_low (hq : hexQuad h₁ h₂ h₃ h₄ = some u) (hh : isHigh u = false)
    (hl : isLow u = true) (bs : Bytes) :
    unquote (backslash :: letterU :: h₁ :: h₂ :: h₃ :: h₄ :: bs) = none := by
  rw [unquote_def]
  simp [hq, hh, hl]

theorem unquote_high {bs s : Bytes} (hq : hexQuad h₁ h₂ h₃ h₄ = some u) (hh : isHigh u = true)
    (h : unquote (backslash :: letterU :: h₁ :: h₂ :: h₃ :: h₄ :: bs) = some s) :
    ∃ l₁ l₂ l₃ l₄ l bs' s', bs = backslash :: letterU :: l₁ :: l₂ :: l₃ :: l₄ :: bs' ∧
      hexQuad l₁ l₂ l₃ l₄ = some l ∧ isLow l = true ∧ unquote bs' = some s' ∧
      s = Utf8.encode (combine u l) ++ s' := by
  rw [unquote_def] at h
  simp only [if_true, hq, hh] at h
  split at h
  · rename_i c e l₁ l₂ l₃ l₄ bs'
    split_ifs at h with hce
    obtain ⟨rfl, rfl⟩ := hce
    split at h
    · cases h
    · rename_i l hl
      split_ifs at h with hlow
      obtain ⟨s', hs', rfl⟩ := Option.map_eq_some_iff.mp h
      exact ⟨l₁, l₂, l₃, l₄, l, bs', s', rfl, hl, hlow, hs', rfl⟩
  · cases h

/-! ### Hexadecimal digits -/

theorem hexValue_lt {c : UInt8} {v : ℕ} (h : hexValue c = some v) : v < 16 := by
  unfold hexValue isDigit at h
  split_ifs at h with h₁ h₂ h₃ <;> simp only [Bool.and_eq_true, decide_eq_true_eq] at * <;>
    cases h <;> omega

theorem hexQuad_lt (h : hexQuad h₁ h₂ h₃ h₄ = some u) :
    u < 0x10000 := by
  simp only [hexQuad, Option.bind_eq_bind, Option.bind_eq_some_iff, Option.pure_def,
    Option.some.injEq] at h
  obtain ⟨v₁, hv₁, v₂, hv₂, v₃, hv₃, v₄, hv₄, rfl⟩ := h
  have := hexValue_lt hv₁
  have := hexValue_lt hv₂
  have := hexValue_lt hv₃
  have := hexValue_lt hv₄
  omega

theorem isSome_hexValue (c : UInt8) : (hexValue c).isSome = isHex c := by
  unfold hexValue isHex
  split_ifs with h₁ h₂ h₃ <;> simp_all

theorem isSome_hexQuad (hx₁ : isHex h₁ = true) (hx₂ : isHex h₂ = true) (hx₃ : isHex h₃ = true)
    (hx₄ : isHex h₄ = true) : ∃ u, hexQuad h₁ h₂ h₃ h₄ = some u := by
  rw [← isSome_hexValue] at hx₁ hx₂ hx₃ hx₄
  obtain ⟨v₁, hv₁⟩ := Option.isSome_iff_exists.mp hx₁
  obtain ⟨v₂, hv₂⟩ := Option.isSome_iff_exists.mp hx₂
  obtain ⟨v₃, hv₃⟩ := Option.isSome_iff_exists.mp hx₃
  obtain ⟨v₄, hv₄⟩ := Option.isSome_iff_exists.mp hx₄
  simp [hexQuad, hv₁, hv₂, hv₃, hv₄]

theorem isHigh_iff : isHigh u = true ↔ 0xd800 ≤ u ∧ u ≤ 0xdbff := by
  simp [isHigh]

theorem isLow_iff : isLow u = true ↔ 0xdc00 ≤ u ∧ u ≤ 0xdfff := by
  simp [isLow]

theorem combine_bounds {l : ℕ} (hh : isHigh u = true) (hl : isLow l = true) :
    0x10000 ≤ combine u l ∧ combine u l ≤ 0x10ffff := by
  obtain ⟨h₁, h₂⟩ := isHigh_iff.mp hh
  obtain ⟨h₃, h₄⟩ := isLow_iff.mp hl
  have hc : combine u l = 0x10000 + (u - 0xd800) * 1024 + (l - 0xdc00) := rfl
  omega

end RlcdDeck.Json
