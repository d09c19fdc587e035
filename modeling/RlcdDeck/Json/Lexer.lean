import Mathlib.Data.List.TakeWhile
import RlcdDeck.Json.Grammar

/-!
# Strings and numbers of JSON texts

`stringBody` reads a string up to its closing quote; which characters a backslash may stand in
front of is a parameter.  `Body` says which bodies it reads.  `rfc8259` is the lexer of the
standard.
-/

namespace RlcdDeck.Json

/-! ### Strings -/

def isHex (c : UInt8) : Bool :=
  isDigit c || (0x61 ≤ c.toNat && c.toNat ≤ 0x66) || (0x41 ≤ c.toNat && c.toNat ≤ 0x46)

abbrev letterU : UInt8 := 0x75

/-- The body of a string and what follows its closing quote.  `simple` are the characters that a
backslash may stand in front of on its own. -/
def stringBody (simple : UInt8 → Bool) : Bytes → Option (Bytes × Bytes)
  | [] => none
  | c :: bs =>
    if c = quote then some ([], bs)
    else if c.toNat < 0x20 then none
    else if c = backslash then
      match bs with
      | [] => none
      | e :: bs =>
        if simple e then (fun p => (c :: e :: p.1, p.2)) <$> stringBody simple bs
        else if e = letterU then
          match bs with
          | h₁ :: h₂ :: h₃ :: h₄ :: bs =>
            if isHex h₁ && isHex h₂ && isHex h₃ && isHex h₄ then
              (fun p => (c :: e :: h₁ :: h₂ :: h₃ :: h₄ :: p.1, p.2)) <$> stringBody simple bs
            else none
          | _ => none
        else none
    else (fun p => (c :: p.1, p.2)) <$> stringBody simple bs

/-- The string bodies that `stringBody` reads. -/
inductive Body (simple : UInt8 → Bool) : Bytes → Prop where
  | nil : Body simple []
  | plain {c : UInt8} {bs : Bytes} : c ≠ quote → 0x20 ≤ c.toNat → c ≠ backslash →
      Body simple bs → Body simple (c :: bs)
  | escape {e : UInt8} {bs : Bytes} : simple e = true → Body simple bs →
      Body simple (backslash :: e :: bs)
  | unicode {h₁ h₂ h₃ h₄ : UInt8} {bs : Bytes} : simple letterU = false → isHex h₁ = true →
      isHex h₂ = true → isHex h₃ = true → isHex h₄ = true → Body simple bs →
      Body simple (backslash :: letterU :: h₁ :: h₂ :: h₃ :: h₄ :: bs)

/-- The escapes of RFC 8259 that consist of one character. -/
def simpleEscape (c : UInt8) : Bool := c ∈ bytes "\"\\/bfnrt"

/-! ### Numbers -/

/-- `0`, or digits that do not begin with `0`. -/
def natural : Bytes → Option (Bytes × Bytes)
  | [] => none
  | c :: bs =>
    if c = 0x30 then if (bs.head?.any isDigit) then none else some ([c], bs)
    else if isDigit c then some ((c :: bs).takeWhile isDigit, (c :: bs).dropWhile isDigit)
    else none

def integerPart : Bytes → Option (Bytes × Bytes)
  | [] => none
  | c :: bs =>
    if c = minus then (fun p => (c :: p.1, p.2)) <$> natural bs else natural (c :: bs)

/-- One or more digits. -/
def digits (bs : Bytes) : Option (Bytes × Bytes) :=
  if (bs.takeWhile isDigit).isEmpty then none
  else some (bs.takeWhile isDigit, bs.dropWhile isDigit)

def fractionPart : Bytes → Option (Bytes × Bytes)
  | [] => some ([], [])
  | c :: bs =>
    if c = 0x2e then (fun p => (c :: p.1, p.2)) <$> digits bs else some ([], c :: bs)

def isExponent (c : UInt8) : Bool := c == 0x65 || c == 0x45

def exponentPart : Bytes → Option (Bytes × Bytes)
  | [] => some ([], [])
  | c :: bs =>
    if isExponent c then
      match bs with
      | [] => none
      | s :: rest =>
        if s = minus ∨ s = 0x2b then (fun p => (c :: s :: p.1, p.2)) <$> digits rest
        else (fun p => (c :: p.1, p.2)) <$> digits bs
    else some ([], c :: bs)

def number (bs : Bytes) : Option (Bytes × Bytes) := do
  let (i, bs) ← integerPart bs
  let (f, bs) ← fractionPart bs
  let (e, bs) ← exponentPart bs
  return (i ++ f ++ e, bs)

/-! ### What the string reader reads -/

variable {raw bs rest : Bytes}

section StringBody

variable {simple : UInt8 → Bool}

theorem stringBody_of_body (h : Body simple raw) (rest : Bytes) :
    stringBody simple (raw ++ quote :: rest) = some (raw, rest) := by
  induction h with
  | nil =>
    rw [List.nil_append, stringBody.eq_def]
    simp
  | plain hq hc hb _ ih =>
    rw [List.cons_append, stringBody.eq_def]
    simp only [if_neg hq, if_neg (Nat.not_lt.mpr hc), if_neg hb, ih]
    rfl
  | escape he _ ih =>
    have hq : backslash ≠ quote := by decide
    have hc : ¬ backslash.toNat < 0x20 := by decide
    rw [List.cons_append, List.cons_append, stringBody.eq_def]
    simp [he, ih, hq, hc]
  | unicode hu h₁ h₂ h₃ h₄ _ ih =>
    have hq : backslash ≠ quote := by decide
    have hc : ¬ backslash.toNat < 0x20 := by decide
    simp only [List.cons_append]
    rw [stringBody.eq_def]
    simp [hu, h₁, h₂, h₃, h₄, ih, hq, hc]

theorem body_of_stringBody (h : stringBody simple bs = some (raw, rest)) :
    bs = raw ++ quote :: rest ∧ Body simple raw := by
  fun_induction stringBody simple bs generalizing raw rest with
  | case1 | case3 | case4 | case7 | case8 | case9 => cases h
  | case2 =>
    cases h
    exact ⟨rfl, .nil⟩
  | case5 e bs he _ _ ih =>
    obtain ⟨⟨raw, rest⟩, hp, heq⟩ := Option.map_eq_some_iff.mp h
    obtain ⟨rfl, hb⟩ := ih hp
    cases heq
    exact ⟨rfl, .escape he hb⟩
  | case6 h₁ h₂ h₃ h₄ bs hx _ _ hu ih =>
    obtain ⟨⟨raw, rest⟩, hp, heq⟩ := Option.map_eq_some_iff.mp h
    obtain ⟨rfl, hb⟩ := ih hp
    cases heq
    simp only [Bool.and_eq_true] at hx
    obtain ⟨⟨⟨hx₁, hx₂⟩, hx₃⟩, hx₄⟩ := hx
    exact ⟨rfl, .unicode (Bool.not_eq_true _ ▸ hu) hx₁ hx₂ hx₃ hx₄ hb⟩
  | case10 c bs hq hc hb ih =>
    obtain ⟨⟨raw, rest⟩, hp, heq⟩ := Option.map_eq_some_iff.mp h
    obtain ⟨rfl, hr⟩ := ih hp
    cases heq
    exact ⟨rfl, .plain hq (Nat.not_lt.mp hc) hb hr⟩

/-- **What `stringBody` reads**: a body, its closing quote, and nothing more. -/
theorem stringBody_eq_some :
    stringBody simple bs = some (raw, rest) ↔ bs = raw ++ quote :: rest ∧ Body simple raw := by
  constructor
  · exact body_of_stringBody
  · rintro ⟨rfl, h⟩
    exact stringBody_of_body h rest

theorem stringBody_lt (h : stringBody simple bs = some (raw, rest)) :
    rest.length < bs.length := by
  obtain ⟨rfl, -⟩ := stringBody_eq_some.mp h
  simp
  omega

end StringBody

/-! ### What the number reader reads -/

/-- The characters of numbers. -/
def isNumeric (c : UInt8) : Bool := isDigit c || c == minus || c == 0x2b || c == 0x2e || isExponent c

theorem takeWhile_isDigit (bs : Bytes) :
    bs = bs.takeWhile isDigit ++ bs.dropWhile isDigit ∧
      ∀ c ∈ bs.takeWhile isDigit, isDigit c = true :=
  ⟨List.takeWhile_append_dropWhile.symm, fun _ hc => List.mem_takeWhile_imp hc⟩

variable {text : Bytes}

theorem natural_eq_some (h : natural bs = some (text, rest)) :
    bs = text ++ rest ∧ text ≠ [] ∧ ∀ c ∈ text, isDigit c = true := by
  unfold natural at h
  split at h
  · cases h
  · rename_i c bs
    split_ifs at h with hz hd hc
    · cases h
      exact ⟨rfl, by simp, by simp [hz]; decide⟩
    · cases h
      have hs := takeWhile_isDigit (c :: bs)
      exact ⟨hs.1, by simp [hc], hs.2⟩

theorem integerPart_eq_some (h : integerPart bs = some (text, rest)) :
    bs = text ++ rest ∧ text ≠ [] ∧ ∀ c ∈ text, c = minus ∨ isDigit c = true := by
  unfold integerPart at h
  split at h
  · cases h
  · split_ifs at h with hm
    · obtain ⟨⟨t, r⟩, hn, heq⟩ := Option.map_eq_some_iff.mp h
      obtain ⟨rfl, -, hd⟩ := natural_eq_some hn
      cases heq
      refine ⟨rfl, by simp, ?_⟩
      rw [List.forall_mem_cons]
      exact ⟨.inl hm, fun c hc => .inr (hd c hc)⟩
    · obtain ⟨heq, hne, hd⟩ := natural_eq_some h
      exact ⟨heq, hne, fun c hc => .inr (hd c hc)⟩

theorem digits_eq_some (h : digits bs = some (text, rest)) :
    bs = text ++ rest ∧ ∀ c ∈ text, isDigit c = true := by
  unfold digits at h
  split_ifs at h
  cases h
  exact takeWhile_isDigit bs

theorem fractionPart_eq_some (h : fractionPart bs = some (text, rest)) :
    bs = text ++ rest ∧ ∀ c ∈ text, isNumeric c = true := by
  unfold fractionPart at h
  split at h
  · cases h
    simp
  · split_ifs at h with hc
    · obtain ⟨⟨t, r⟩, hd, heq⟩ := Option.map_eq_some_iff.mp h
      obtain ⟨rfl, hds⟩ := digits_eq_some hd
      cases heq
      refine ⟨rfl, ?_⟩
      rw [List.forall_mem_cons]
      exact ⟨by simp [isNumeric, hc], fun c hc => by simp [isNumeric, hds c hc]⟩
    · cases h
      simp

theorem exponentPart_eq_some (h : exponentPart bs = some (text, rest)) :
    bs = text ++ rest ∧ ∀ c ∈ text, isNumeric c = true := by
  unfold exponentPart at h
  split at h
  · cases h
    simp
  · split_ifs at h with hc
    · split at h
      · cases h
      · split_ifs at h with hs
        all_goals
          obtain ⟨⟨t, r⟩, hd, heq⟩ := Option.map_eq_some_iff.mp h
          obtain ⟨heq', hds⟩ := digits_eq_some hd
          cases heq
        · subst heq'
          refine ⟨rfl, ?_⟩
          simp only [List.forall_mem_cons]
          refine ⟨by simp [isNumeric, hc], ?_, fun c hc => by simp [isNumeric, hds c hc]⟩
          rcases hs with rfl | rfl <;> decide
        · refine ⟨by simp [heq'], ?_⟩
          rw [List.forall_mem_cons]
          exact ⟨by simp [isNumeric, hc], fun c hc => by simp [isNumeric, hds c hc]⟩
    · cases h
      simp

theorem number_eq_some (h : number bs = some (text, rest)) :
    bs = text ++ rest ∧ text ≠ [] ∧ (∀ c ∈ text, isNumeric c = true) ∧
      ∃ c tail, text = c :: tail ∧ (c = minus ∨ isDigit c = true) := by
  unfold number at h
  simp only [Option.bind_eq_bind, Option.bind_eq_some_iff, Option.pure_def, Option.some.injEq,
    Prod.mk.injEq, Prod.exists] at h
  obtain ⟨i, b, hi, f, b', hf, e, b'', he, rfl, rfl⟩ := h
  obtain ⟨rfl, hne, hid⟩ := integerPart_eq_some hi
  obtain ⟨rfl, hfd⟩ := fractionPart_eq_some hf
  obtain ⟨rfl, hed⟩ := exponentPart_eq_some he
  refine ⟨by simp, by simp [hne], ?_, ?_⟩
  · intro c hc
    simp only [List.mem_append] at hc
    rcases hc with (hc | hc) | hc
    · rcases hid c hc with rfl | hd
      · decide
      · simp [isNumeric, hd]
    · exact hfd c hc
    · exact hed c hc
  · cases i with
    | nil => exact absurd rfl hne
    | cons c i => exact ⟨c, i ++ f ++ e, by simp, hid c List.mem_cons_self⟩

theorem number_lt (h : number bs = some (text, rest)) :
    rest.length < bs.length := by
  obtain ⟨rfl, hne, -⟩ := number_eq_some h
  have hpos := List.length_pos_iff.mpr hne
  rw [List.length_append]
  omega

theorem number_head (h : number bs = some (text, rest)) :
    ∃ c tail, bs = c :: tail ∧ (c = minus ∨ isDigit c = true) := by
  obtain ⟨rfl, -, -, c, tail, rfl, hc⟩ := number_eq_some h
  exact ⟨c, tail ++ rest, rfl, hc⟩

/-- The lexer of RFC 8259. -/
def rfc8259 : Lexer where
  string := stringBody simpleEscape
  number := number
  string_lt := stringBody_lt
  number_lt := number_lt
  number_head := number_head

end RlcdDeck.Json
