import RlcdDeck.Json.Print

/-!
# Numbers in decimal

`decimalText` writes a number with the digits of its quotient and remainder by ten, without a zero in
front, so that the reader of numbers reads all of it (`numeral_decimalText`).
-/

namespace RlcdDeck.Json

/-- A decimal digit. -/
def digit (n : ℕ) : UInt8 := UInt8.ofNat (0x30 + n)

theorem toNat_digit {n : ℕ} (h : n < 10) : (digit n).toNat = 0x30 + n := by
  rw [digit, UInt8.toNat_ofNat']
  omega

theorem isDigit_digit {n : ℕ} (h : n < 10) : isDigit (digit n) = true := by
  rw [isDigit, toNat_digit h]
  simp
  omega

theorem digitChar_byte {n : ℕ} (h : n < 10) : UInt8.ofNat n.digitChar.toNat = digit n := by
  have hall : ∀ n < 10, UInt8.ofNat n.digitChar.toNat = digit n := by decide
  exact hall n h

theorem decimalText_of_lt {n : ℕ} (h : n < 10) : decimalText n = [digit n] := by
  rw [decimalText, Nat.toDigits_of_lt_base h, List.map_singleton, digitChar_byte h]

theorem decimalText_of_le {n : ℕ} (h : 10 ≤ n) :
    decimalText n = decimalText (n / 10) ++ [digit (n % 10)] := by
  rw [decimalText, Nat.toDigits_of_base_le (by omega) h, List.map_append, List.map_singleton,
    digitChar_byte (Nat.mod_lt n (by omega)), decimalText]

theorem isDigit_decimalText {n : ℕ} {c : UInt8} (h : c ∈ decimalText n) : isDigit c = true := by
  induction n using Nat.strongRecOn with
  | _ n ih =>
    by_cases hn : n < 10
    · rw [decimalText_of_lt hn, List.mem_singleton] at h
      rw [h]
      exact isDigit_digit hn
    · rw [decimalText_of_le (by omega), List.mem_append, List.mem_singleton] at h
      rcases h with h | rfl
      · exact ih (n / 10) (by omega) h
      · exact isDigit_digit (Nat.mod_lt n (by omega))

theorem decimalText_ne_nil (n : ℕ) : decimalText n ≠ [] := by
  by_cases hn : n < 10
  · rw [decimalText_of_lt hn]
    simp
  · rw [decimalText_of_le (by omega)]
    simp

theorem head_decimalText (n : ℕ) :
    decimalText n = [0x30] ∨ ∃ c tail, decimalText n = c :: tail ∧ c ≠ 0x30 := by
  induction n using Nat.strongRecOn with
  | _ n ih =>
    by_cases hn : n < 10
    · rw [decimalText_of_lt hn]
      by_cases hzero : n = 0
      · exact .inl (by rw [hzero]; rfl)
      · refine .inr ⟨digit n, [], rfl, fun h => ?_⟩
        have htoNat := toNat_digit hn
        rw [h] at htoNat
        simp at htoNat
        omega
    · right
      rw [decimalText_of_le (by omega)]
      rcases ih (n / 10) (by omega) with hzero | ⟨c, tail, heq, hc⟩
      · -- The quotient is not zero.
        exfalso
        by_cases hq : n / 10 < 10
        · rw [decimalText_of_lt hq] at hzero
          have htoNat := toNat_digit hq
          rw [(List.cons.inj hzero).1] at htoNat
          simp at htoNat
          omega
        · rw [decimalText_of_le (by omega)] at hzero
          have hlength := congrArg List.length hzero
          rw [List.length_append, List.length_singleton, List.length_singleton] at hlength
          have hnil := List.length_eq_zero_iff.mp (by omega : (decimalText (n / 10 / 10)).length = 0)
          exact decimalText_ne_nil _ hnil
      · exact ⟨c, tail ++ [digit (n % 10)], by rw [heq]; rfl, hc⟩

theorem foldl_decimalText (n : ℕ) :
    (decimalText n).foldl (fun value c => value * 10 + (c.toNat - 0x30)) 0 = n := by
  induction n using Nat.strongRecOn with
  | _ n ih =>
    by_cases hn : n < 10
    · rw [decimalText_of_lt hn, List.foldl_cons, List.foldl_nil, toNat_digit hn]
      omega
    · rw [decimalText_of_le (by omega), List.foldl_append, ih (n / 10) (by omega), List.foldl_cons,
        List.foldl_nil, toNat_digit (Nat.mod_lt n (by omega))]
      omega

theorem length_decimalText_le {n k : ℕ} (hk : 0 < k) (h : n < 10 ^ k) : (decimalText n).length ≤ k := by
  rw [decimalText, List.length_map]
  exact (Nat.length_toDigits_le_iff (by omega) hk).mpr h

/-! ### Numerals -/

/-- A text that is read as a number wherever no numeric character follows. -/
def Numeral (text : Bytes) : Prop :=
  ∀ rest : Bytes, (∀ c ∈ rest.head?, isNumeric c = false) → number (text ++ rest) = some (text, rest)

theorem not_isDigit_of_not_isNumeric {c : UInt8} (h : isNumeric c = false) : isDigit c = false := by
  unfold isNumeric at h
  simp only [Bool.or_eq_false_iff] at h
  exact h.1.1.1.1

theorem takeWhile_isDigit_append {text rest : Bytes} (htext : ∀ c ∈ text, isDigit c = true)
    (hrest : ∀ c ∈ rest.head?, isDigit c = false) :
    (text ++ rest).takeWhile isDigit = text ∧ (text ++ rest).dropWhile isDigit = rest := by
  have htail : rest.takeWhile isDigit = [] ∧ rest.dropWhile isDigit = rest := by
    cases rest with
    | nil => exact ⟨rfl, rfl⟩
    | cons c rest =>
      have hc := hrest c rfl
      rw [List.takeWhile_cons, List.dropWhile_cons, hc]
      exact ⟨rfl, rfl⟩
  rw [List.takeWhile_append_of_pos htext, List.dropWhile_append_of_pos htext, htail.1, htail.2,
    List.append_nil]
  exact ⟨rfl, rfl⟩

theorem natural_decimalText (n : ℕ) {rest : Bytes} (hrest : ∀ c ∈ rest.head?, isDigit c = false) :
    natural (decimalText n ++ rest) = some (decimalText n, rest) := by
  rcases head_decimalText n with hzero | ⟨c, tail, heq, hc⟩
  · rw [hzero]
    have hany : rest.head?.any isDigit = false := by
      cases rest with
      | nil => rfl
      | cons c rest => exact hrest c rfl
    simp [natural, hany]
  · have hdigit : ∀ d ∈ c :: tail, isDigit d = true := by
      rw [← heq]
      exact fun d hd => isDigit_decimalText hd
    obtain ⟨htake, hdrop⟩ := takeWhile_isDigit_append hdigit hrest
    rw [heq, List.cons_append, natural, if_neg hc, if_pos (hdigit c List.mem_cons_self)]
    rw [← List.cons_append, htake, hdrop]

theorem numeral_decimalText (n : ℕ) : Numeral (decimalText n) := by
  intro rest hrest
  have hdigits : ∀ c ∈ rest.head?, isDigit c = false :=
    fun c hc => not_isDigit_of_not_isNumeric (hrest c hc)
  have hinteger : integerPart (decimalText n ++ rest) = some (decimalText n, rest) := by
    rw [← natural_decimalText n hdigits]
    cases heq : decimalText n with
    | nil => exact absurd heq (decimalText_ne_nil n)
    | cons c tail =>
      have hc : isDigit c = true := isDigit_decimalText (by rw [heq]; exact List.mem_cons_self)
      rw [List.cons_append, integerPart, if_neg]
      rintro rfl
      cases hc
  have hfraction : fractionPart rest = some ([], rest) := by
    cases rest with
    | nil => rfl
    | cons c rest =>
      rw [fractionPart, if_neg]
      rintro rfl
      cases hrest _ rfl
  have hexponent : exponentPart rest = some ([], rest) := by
    cases rest with
    | nil => rfl
    | cons c rest =>
      have hc : isExponent c = false := by
        have hnumeric := hrest c rfl
        unfold isNumeric at hnumeric
        simp only [Bool.or_eq_false_iff] at hnumeric
        exact hnumeric.2
      simp [exponentPart, hc]
  simp only [number, hinteger, hfraction, hexponent, Option.bind_eq_bind, Option.bind_some,
    List.append_nil, Option.pure_def]

end RlcdDeck.Json
