import RlcdDeck.Utf8.Runes

/-!
# The characters of any byte string

`runes` reads a byte string as Go's `for range` does: a byte that begins no character is one
invalid character, `none`, and the reading goes on after it.
-/

namespace RlcdDeck.Utf8

/-- The character that has begun, and what follows it. -/
def finish : Pending → List UInt8 → Option (ℕ × List UInt8)
  | _, [] => none
  | ⟨more, point, minimum⟩, b :: rest =>
    if continues b then
      match more with
      | 0 =>
        let point := point * 64 + b.toNat % 64
        if scalar minimum point then some (point, rest) else none
      | more + 1 => finish ⟨more, point * 64 + b.toNat % 64, minimum⟩ rest
    else none

/-- `utf8.DecodeRune` of the string `b :: rest`, and what follows the character. -/
def next (b : UInt8) (rest : List UInt8) : Option ℕ × List UInt8 :=
  if b.toNat < 0x80 then (some b.toNat, rest)
  else
    match (lead b).bind (finish · rest) with
    | none => (none, rest)
    | some (point, rest) => (some point, rest)

def runesLoop : (fuel : ℕ) → List UInt8 → List (Option ℕ)
  | 0, _ => []
  | _, [] => []
  | fuel + 1, b :: rest => (next b rest).1 :: runesLoop fuel (next b rest).2

/-- The characters of a byte string. -/
def runes (bs : List UInt8) : List (Option ℕ) := runesLoop bs.length bs

/-- `unicode.IsControl`. -/
def isControl (point : ℕ) : Bool := point < 0x20 || (0x7f ≤ point && point < 0xa0)

/-- `unicode.IsSpace`. -/
def isSpace (point : ℕ) : Bool :=
  (0x09 ≤ point && point ≤ 0x0d) || point == 0x20 || point == 0x85 || point == 0xa0 ||
    point == 0x1680 || (0x2000 ≤ point && point ≤ 0x200a) || point == 0x2028 || point == 0x2029 ||
    point == 0x202f || point == 0x205f || point == 0x3000

/-- The characters with the bytes they are read from. -/
def piecesLoop : (fuel : ℕ) → List UInt8 → List (Option ℕ × List UInt8)
  | 0, _ => []
  | _, [] => []
  | fuel + 1, b :: rest =>
    ((next b rest).1, (b :: rest).take ((b :: rest).length - (next b rest).2.length)) ::
      piecesLoop fuel (next b rest).2

/-- `strings.TrimSpace`. -/
def trimSpace (bs : List UInt8) : List UInt8 :=
  let blank := fun piece : Option ℕ × List UInt8 => piece.1.any isSpace
  let pieces := (piecesLoop bs.length bs).dropWhile blank
  ((pieces.reverse.dropWhile blank).reverse).flatMap (·.2)

/-! ### One character -/

variable {bs rest : List UInt8} {point : ℕ}

theorem finish_length_lt {p : Pending}
    (h : finish p bs = some (point, rest)) : rest.length < bs.length := by
  fun_induction finish p bs with
  | case1 => cases h
  | case2 _ _ b tail =>
    obtain ⟨-, rfl⟩ := Prod.mk.inj (Option.some.inj h)
    exact Nat.lt_succ_self _
  | case3 => cases h
  | case4 _ _ b tail _ more ih =>
    exact Nat.lt_succ_of_lt (ih h)
  | case5 => cases h

theorem next_length_le (b : UInt8) (rest : List UInt8) : (next b rest).2.length ≤ rest.length := by
  unfold next
  split_ifs with hb
  · exact Nat.le_refl _
  · cases h : (lead b).bind (finish · rest) with
    | none => exact Nat.le_refl _
    | some found =>
      obtain ⟨p, -, hfinish⟩ := Option.bind_eq_some_iff.mp h
      exact Nat.le_of_lt (finish_length_lt hfinish)

theorem runesLoop_eq {fuel : ℕ} (h : bs.length ≤ fuel) :
    runesLoop fuel bs = runes bs := by
  suffices hloop : ∀ (n : ℕ) (fuel fuel' : ℕ) (bs : List UInt8), bs.length ≤ n → bs.length ≤ fuel →
      bs.length ≤ fuel' → runesLoop fuel bs = runesLoop fuel' bs from
    hloop bs.length fuel bs.length bs (Nat.le_refl _) h (Nat.le_refl _)
  intro n
  induction n with
  | zero =>
    intro fuel fuel' bs hn _ _
    obtain rfl := List.length_eq_zero_iff.mp (Nat.le_zero.mp hn)
    cases fuel <;> cases fuel' <;> rfl
  | succ n ih =>
    intro fuel fuel' bs hn hfuel hfuel'
    cases bs with
    | nil => cases fuel <;> cases fuel' <;> rfl
    | cons b rest =>
      rw [List.length_cons] at hn hfuel hfuel'
      obtain ⟨fuel, rfl⟩ : ∃ f, fuel = f + 1 := ⟨fuel - 1, by omega⟩
      obtain ⟨fuel', rfl⟩ : ∃ f, fuel' = f + 1 := ⟨fuel' - 1, by omega⟩
      have hle := next_length_le b rest
      rw [runesLoop, runesLoop, ih fuel fuel' _ (by omega) (by omega) (by omega)]

theorem runes_cons (b : UInt8) (rest : List UInt8) :
    runes (b :: rest) = (next b rest).1 :: runes (next b rest).2 := by
  have hle := next_length_le b rest
  show runesLoop (rest.length + 1) (b :: rest) = _
  rw [runesLoop, runesLoop_eq hle]

/-! ### Valid strings -/

theorem run_eq_finish (p : Pending) (bs : List UInt8) :
    run (some p) bs = (finish p bs).bind fun found => (found.1 :: ·) <$> run none found.2 := by
  fun_induction finish p bs with
  | case1 => rfl
  | case2 point minimum b rest hb point' hscalar =>
    simp only [run, hb, if_true]
    rw [if_pos hscalar]
    rfl
  | case3 point minimum b rest hb point' hscalar =>
    simp only [run, hb, if_true]
    rw [if_neg hscalar]
    rfl
  | case4 point minimum b rest hb more ih =>
    simp only [run, hb, if_true]
    exact ih
  | case5 more point minimum b rest hb =>
    simp only [run, hb]
    rfl

theorem decode_cons (b : UInt8) (rest : List UInt8) :
    decode (b :: rest) =
      (next b rest).1.bind fun point => (point :: ·) <$> decode (next b rest).2 := by
  unfold next
  split_ifs with hb
  · exact decode_ascii hb rest
  · unfold decode
    rw [run]
    simp only [hb, if_false]
    cases hlead : lead b with
    | none => rfl
    | some p =>
      rw [Option.bind_some]
      show run (some p) rest = _
      rw [run_eq_finish]
      cases finish p rest with
      | none => rfl
      | some found => rfl

/-! ### Writing the characters again -/

theorem finish_bytes {p : Pending} (h : finish p bs = some (point, rest)) :
    ∃ tail, bs = tail ++ rest ∧ tail.length = p.more + 1 ∧ scalar p.minimum point = true ∧
      (∀ b ∈ tail, continues b = true) ∧
      point = tail.foldl (fun value b => value * 64 + b.toNat % 64) p.point := by
  fun_induction finish p bs with
  | case1 => cases h
  | case2 point' minimum b tail hb _ hscalar =>
    obtain ⟨rfl, rfl⟩ := Prod.mk.inj (Option.some.inj h)
    refine ⟨[b], rfl, rfl, hscalar, ?_, rfl⟩
    rintro c hc
    rw [List.mem_singleton.mp hc]
    exact hb
  | case3 => cases h
  | case4 point' minimum b rest' hb more ih =>
    obtain ⟨tail, rfl, hlength, hscalar, hcontinues, hpoint⟩ := ih h
    refine ⟨b :: tail, rfl, by rw [List.length_cons, hlength], hscalar, ?_, hpoint⟩
    rw [List.forall_mem_cons]
    exact ⟨hb, hcontinues⟩
  | case5 => cases h

variable {b : UInt8}

theorem continues_bounds (h : continues b = true) :
    0x80 ≤ b.toNat ∧ b.toNat < 0xc0 := by
  simpa [continues] using h

theorem ofNat_eq {n : ℕ} (h : n = b.toNat) : UInt8.ofNat n = b := by
  rw [h, UInt8.ofNat_toNat]

/-- A character that was read is written with the bytes it was read from. -/
theorem encode_of_next
    (h : (next b rest).1 = some point) : b :: rest = encode point ++ (next b rest).2 := by
  unfold next at h ⊢
  split_ifs at h ⊢ with hb
  · obtain rfl := Option.some.inj h
    simp [encode, hb]
  · cases hfound : (lead b).bind (finish · rest) with
    | none =>
      rw [hfound] at h
      cases h
    | some found =>
      rw [hfound] at h
      obtain rfl := Option.some.inj h
      obtain ⟨p, hlead, hfinish⟩ := Option.bind_eq_some_iff.mp hfound
      obtain ⟨tail, rfl, hlength, hscalar, hcontinues, hpoint⟩ := finish_bytes hfinish
      have hlt := b.toNat_lt
      have hbounds : p.minimum ≤ found.1 ∧ found.1 ≤ 0x10ffff := by
        have hs := hscalar
        simp only [scalar, Bool.and_eq_true, decide_eq_true_eq] at hs
        exact hs.1
      unfold lead at hlead
      split_ifs at hlead with h2 h3 h4
      · obtain rfl := Option.some.inj hlead
        obtain ⟨c, rfl⟩ := List.length_eq_one_iff.mp hlength
        have hc := continues_bounds (hcontinues c List.mem_cons_self)
        simp only [Bool.and_eq_true, decide_eq_true_eq] at h2
        simp only [List.foldl_cons, List.foldl_nil] at hpoint
        dsimp only at hbounds
        rw [encode, if_neg (by omega), if_pos (by omega)]
        rw [ofNat_eq (b := b) (by omega), ofNat_eq (b := c) (by omega)]
        rfl
      · obtain rfl := Option.some.inj hlead
        obtain ⟨c, d, rfl⟩ := List.length_eq_two.mp hlength
        have hc := continues_bounds (hcontinues c (by simp))
        have hd := continues_bounds (hcontinues d (by simp))
        simp only [Bool.and_eq_true, decide_eq_true_eq] at h3
        simp only [List.foldl_cons, List.foldl_nil] at hpoint
        dsimp only at hbounds
        rw [encode, if_neg (by omega), if_neg (by omega), if_pos (by omega)]
        rw [ofNat_eq (b := b) (by omega), ofNat_eq (b := c) (by omega),
          ofNat_eq (b := d) (by omega)]
        rfl
      · obtain rfl := Option.some.inj hlead
        obtain ⟨c, d, e, rfl⟩ := List.length_eq_three.mp hlength
        have hc := continues_bounds (hcontinues c (by simp))
        have hd := continues_bounds (hcontinues d (by simp))
        have he := continues_bounds (hcontinues e (by simp))
        simp only [Bool.and_eq_true, decide_eq_true_eq] at h4
        simp only [List.foldl_cons, List.foldl_nil] at hpoint
        dsimp only at hbounds
        rw [encode, if_neg (by omega), if_neg (by omega), if_neg (by omega)]
        rw [ofNat_eq (b := b) (by omega), ofNat_eq (b := c) (by omega),
          ofNat_eq (b := d) (by omega), ofNat_eq (b := e) (by omega)]
        rfl

end RlcdDeck.Utf8
