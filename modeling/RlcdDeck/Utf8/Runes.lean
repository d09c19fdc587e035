import Mathlib.Data.List.Basic

/-!
# UTF-8

A byte string is read one byte at a time: `run` keeps the character it is inside of (`Pending`),
so cutting a string where an ASCII byte stands leaves two strings that are valid on their own
(`isSome_run_append_ascii`).  `encode` writes one code point, and `decode_lead` reads what a first
byte begins.
-/

namespace RlcdDeck.Utf8

/-- A character that has begun: how many continuation bytes it owes after the next one, the bits
read so far, and the least code point its length may carry. -/
structure Pending where
  more : ℕ
  point : ℕ
  minimum : ℕ

/-- A Unicode scalar value that its encoding could not have written with fewer bytes. -/
def scalar (minimum point : ℕ) : Bool :=
  minimum ≤ point && point ≤ 0x10ffff && !(0xd800 ≤ point && point ≤ 0xdfff)

/-- What the first byte of a multibyte character announces. -/
def lead (b : UInt8) : Option Pending :=
  if 0xc0 ≤ b.toNat && b.toNat < 0xe0 then some ⟨0, b.toNat % 32, 0x80⟩
  else if 0xe0 ≤ b.toNat && b.toNat < 0xf0 then some ⟨1, b.toNat % 16, 0x800⟩
  else if 0xf0 ≤ b.toNat && b.toNat < 0xf8 then some ⟨2, b.toNat % 8, 0x10000⟩
  else none

/-- Continuation bytes. -/
def continues (b : UInt8) : Bool := 0x80 ≤ b.toNat && b.toNat < 0xc0

/-- The code points of a byte string, from inside a character. -/
def run : Option Pending → List UInt8 → Option (List ℕ)
  | none, [] => some []
  | some _, [] => none
  | none, b :: rest =>
    if b.toNat < 0x80 then (b.toNat :: ·) <$> run none rest
    else
      match lead b with
      | none => none
      | some p => run (some p) rest
  | some ⟨more, point, minimum⟩, b :: rest =>
    if continues b then
      match more with
      | 0 =>
        let point := point * 64 + b.toNat % 64
        if scalar minimum point then (point :: ·) <$> run none rest else none
      | more + 1 => run (some ⟨more, point * 64 + b.toNat % 64, minimum⟩) rest
    else none

/-- The code points of a byte string, if it is UTF-8. -/
def decode (bs : List UInt8) : Option (List ℕ) := run none bs

/-- `utf8.Valid`. -/
def valid (bs : List UInt8) : Bool := (decode bs).isSome

/-- The encoding of a code point. -/
def encode (point : ℕ) : List UInt8 :=
  if point < 0x80 then [UInt8.ofNat point]
  else if point < 0x800 then
    [UInt8.ofNat (0xc0 + point / 64), UInt8.ofNat (0x80 + point % 64)]
  else if point < 0x10000 then
    [UInt8.ofNat (0xe0 + point / 4096), UInt8.ofNat (0x80 + point / 64 % 64),
      UInt8.ofNat (0x80 + point % 64)]
  else
    [UInt8.ofNat (0xf0 + point / 262144), UInt8.ofNat (0x80 + point / 4096 % 64),
      UInt8.ofNat (0x80 + point / 64 % 64), UInt8.ofNat (0x80 + point % 64)]

/-! ### Reading -/

theorem decode_ascii {b : UInt8} (h : b.toNat < 0x80) (rest : List UInt8) :
    decode (b :: rest) = (b.toNat :: ·) <$> decode rest := by
  simp [decode, run, h]

theorem valid_ascii {b : UInt8} (h : b.toNat < 0x80) (rest : List UInt8) :
    valid (b :: rest) = valid rest := by
  simp [valid, decode_ascii h]

theorem not_continues_of_ascii {c : UInt8} (h : c.toNat < 0x80) : continues c = false := by
  simp [continues]
  omega

/-- **Cutting at an ASCII byte.** -/
theorem isSome_run_append_ascii {c : UInt8} (hc : c.toNat < 0x80) (a b : List UInt8)
    (p : Option Pending) :
    (run p (a ++ c :: b)).isSome = ((run p a).isSome && valid b) := by
  induction a generalizing p with
  | nil =>
    cases p with
    | none => simp [run, hc, valid, decode]
    | some p => simp [run, not_continues_of_ascii hc]
  | cons x a ih =>
    cases p with
    | none =>
      simp only [List.cons_append, run]
      split
      · simp [ih]
      · cases lead x with
        | none => rfl
        | some p => exact ih (some p)
    | some p =>
      obtain ⟨more, point, minimum⟩ := p
      simp only [List.cons_append, run]
      split
      · cases more with
        | zero =>
          dsimp only
          split
          · simp [ih]
          · rfl
        | succ more => exact ih _
      · rfl

theorem valid_append_ascii {c : UInt8} (hc : c.toNat < 0x80) (a b : List UInt8) :
    valid (a ++ c :: b) = (valid a && valid b) :=
  isSome_run_append_ascii hc a b none

/-! ### Writing -/

theorem toNat_ofNat_of_lt {n : ℕ} (h : n < 256) : (UInt8.ofNat n).toNat = n := by
  simpa using h

theorem decode_lead {b : UInt8} {p : Pending} (h : lead b = some p) (rest : List UInt8) :
    decode (b :: rest) = run (some p) rest := by
  have hb : ¬ b.toNat < 0x80 := by
    intro hlt
    have h1 : ¬ 0xc0 ≤ b.toNat := by omega
    have h2 : ¬ 0xe0 ≤ b.toNat := by omega
    have h3 : ¬ 0xf0 ≤ b.toNat := by omega
    simp [lead, h1, h2, h3] at h
  simp only [decode, run, hb, if_false, h]

theorem high_of_mem_encode {point : ℕ} (h : 0x80 ≤ point) (hmax : point ≤ 0x10ffff) {b : UInt8}
    (hb : b ∈ encode point) : 0x80 ≤ b.toNat := by
  unfold encode at hb
  rw [if_neg (by omega)] at hb
  split_ifs at hb <;> simp only [List.mem_cons, List.not_mem_nil, or_false] at hb
  · rcases hb with rfl | rfl <;> rw [toNat_ofNat_of_lt (by omega)] <;> omega
  · rcases hb with rfl | rfl | rfl <;> rw [toNat_ofNat_of_lt (by omega)] <;> omega
  · rcases hb with rfl | rfl | rfl | rfl <;> rw [toNat_ofNat_of_lt (by omega)] <;> omega

theorem encode_ne_nil (point : ℕ) : encode point ≠ [] := by
  unfold encode
  split_ifs <;> simp

end RlcdDeck.Utf8
