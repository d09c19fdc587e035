import RlcdDeck.CompanionProfiles.Equiv.Set
import RlcdDeck.CompanionProfiles.PairingAddress
import RlcdDeck.Json.Equiv.Decimal

/-!
# Which pairing addresses are accepted

`%u` takes a minus and zeros in front, and the port may have zeros in front: an address is accepted
exactly if it is one of these spellings (`validPairingAddress_iff`).
-/

namespace RlcdDeck.CompanionProfiles

open Json (decimalText)

/-! ### Digits -/

theorem isDigit_iff (byte : UInt8) : isDigit byte = true ↔ 0x30 ≤ byte.toNat ∧ byte.toNat ≤ 0x39 := by
  unfold isDigit
  rw [Bool.and_eq_true, decide_eq_true_eq, decide_eq_true_eq, UInt8.le_iff_toNat_le, UInt8.le_iff_toNat_le]
  exact Iff.rfl

theorem decimalValue_append (digits : List UInt8) (byte : UInt8) :
    decimalValue (digits ++ [byte]) = decimalValue digits * 10 + (byte.toNat - 0x30) := by
  unfold decimalValue
  rw [List.foldl_append, List.foldl_cons, List.foldl_nil]

variable {digits : List UInt8}

/-- The port of its digits. -/
theorem parsePort_eq_some {port : ℕ} :
    parsePort digits = some port ↔
      (∀ byte ∈ digits, isDigit byte = true) ∧ decimalValue digits = port ∧ port ≤ 65535 := by
  induction digits using List.reverseRecOn generalizing port with
  | nil =>
    show some 0 = some port ↔ _
    rw [Option.some.injEq]
    constructor
    · rintro rfl
      exact ⟨by simp, rfl, by decide⟩
    · exact fun h => h.2.1
  | append_singleton digits byte ih =>
    have hnone (hinit : parsePort digits = none) : parsePort (digits ++ [byte]) = none := by
      unfold parsePort at hinit ⊢
      rw [List.foldl_append, hinit]
      rfl
    have hsome {port : ℕ} (hinit : parsePort digits = some port) :
        parsePort (digits ++ [byte]) =
          if isDigit byte = false then none
          else if 65535 < port * 10 + (byte.toNat - 0x30) then none
          else some (port * 10 + (byte.toNat - 0x30)) := by
      unfold parsePort at hinit ⊢
      rw [List.foldl_append, hinit]
      rfl
    rw [decimalValue_append]
    constructor
    · intro h
      cases hinit : parsePort digits with
      | none =>
        rw [hnone hinit] at h
        cases h
      | some first =>
        rw [hsome hinit] at h
        split_ifs at h with hdigit hlarge
        obtain rfl := Option.some.inj h
        obtain ⟨hdigits, rfl, -⟩ := ih.mp hinit
        refine ⟨fun b hb => ?_, rfl, not_lt.mp hlarge⟩
        rcases List.mem_append.mp hb with hb | hb
        · exact hdigits b hb
        · rw [List.mem_singleton.mp hb]
          simpa using hdigit
    · rintro ⟨hdigits, rfl, hlarge⟩
      have hinit : parsePort digits = some (decimalValue digits) :=
        ih.mpr ⟨fun b hb => hdigits b (List.mem_append_left _ hb), rfl, by omega⟩
      have hbyte := hdigits byte (by simp)
      rw [hsome hinit, if_neg (by simp [hbyte]), if_neg (not_lt.mpr hlarge)]

theorem decimalText_decimalValue (hdigits : ∀ byte ∈ digits, isDigit byte = true)
    (hne : digits ≠ []) (hzero : digits.head? ≠ some (ascii '0')) :
    0 < decimalValue digits ∧ decimalText (decimalValue digits) = digits := by
  induction digits using List.reverseRecOn with
  | nil => exact absurd rfl hne
  | append_singleton digits byte ih =>
    have hbyte := (isDigit_iff byte).mp (hdigits byte (by simp))
    have hdigit : Json.digit (byte.toNat - 0x30) = byte := by
      unfold Json.digit
      rw [Nat.add_sub_cancel' hbyte.1, UInt8.ofNat_toNat]
    rw [decimalValue_append]
    cases digits with
    | nil =>
      have hnonzero : byte ≠ ascii '0' := fun h => hzero (by rw [h]; rfl)
      have hpositive : byte.toNat ≠ 0x30 := fun h => hnonzero (UInt8.toNat_inj.mp h)
      have hvalue : decimalValue [] * 10 + (byte.toNat - 0x30) = byte.toNat - 0x30 := by
        show 0 * 10 + _ = _
        omega
      rw [hvalue, Json.decimalText_of_lt (by omega), hdigit]
      exact ⟨by omega, rfl⟩
    | cons first digits =>
      obtain ⟨hpositive, htext⟩ := ih (fun b hb => hdigits b (List.mem_append_left _ hb)) (by simp)
        (by simpa using hzero)
      refine ⟨by omega, ?_⟩
      have hquotient : (decimalValue (first :: digits) * 10 + (byte.toNat - 0x30)) / 10 =
          decimalValue (first :: digits) := by omega
      have hremainder : (decimalValue (first :: digits) * 10 + (byte.toNat - 0x30)) % 10 =
          byte.toNat - 0x30 := by omega
      rw [Json.decimalText_of_le (by omega), hquotient, hremainder, htext, hdigit]

theorem decimalText_spec {n : ℕ} (h : 0 < n) :
    (∀ byte ∈ decimalText n, isDigit byte = true) ∧ decimalText n ≠ [] ∧
      (decimalText n).head? ≠ some (ascii '0') ∧ decimalValue (decimalText n) = n := by
  refine ⟨fun byte hbyte => ?_, Json.decimalText_ne_nil n, ?_, Json.foldl_decimalText n⟩
  · have hdigit := Json.isDigit_decimalText hbyte
    unfold Json.isDigit at hdigit
    simpa [isDigit_iff] using hdigit
  · have hvalue := Json.foldl_decimalText n
    rcases Json.head_decimalText n with hzero | ⟨c, tail, htext, hc⟩
    · rw [hzero] at hvalue
      exact absurd hvalue.symm (Nat.pos_iff_ne_zero.mp h)
    · rw [htext]
      exact fun h => hc (Option.some.inj h)

/-! ### Addresses -/

variable {host : List UInt8}

theorem findIdx?_colon (h : ascii ':' ∉ host) (rest : List UInt8) :
    (host ++ ascii ':' :: rest).findIdx? (· == ascii ':') = some host.length := by
  have hnone : host.findIdx? (· == ascii ':') = none := by
    rw [List.findIdx?_eq_none_iff]
    intro byte hbyte
    exact beq_eq_false_iff_ne.mpr fun heq => h (heq ▸ hbyte)
  rw [List.findIdx?_append, hnone, List.findIdx?_cons]
  simp

theorem eq_of_findIdx? {address : List UInt8} {i : ℕ}
    (h : address.findIdx? (· == ascii ':') = some i) :
    ascii ':' ∉ address.take i ∧ address = address.take i ++ ascii ':' :: address.drop (i + 1) := by
  obtain ⟨hi, hcolon, hbefore⟩ := List.findIdx?_eq_some_iff_getElem.mp h
  refine ⟨fun hmem => ?_, ?_⟩
  · obtain ⟨j, hj, hget⟩ := List.getElem_of_mem hmem
    rw [List.length_take] at hj
    rw [List.getElem_take] at hget
    exact hbefore j (by omega) (beq_iff_eq.mpr hget)
  · rw [← beq_iff_eq.mp hcolon, List.getElem_cons_drop, List.take_append_drop]

theorem append_colon_inj {left left' right right' : List UInt8} (hleft : ascii ':' ∉ left)
    (hleft' : ascii ':' ∉ left') (h : left ++ ascii ':' :: right = left' ++ ascii ':' :: right') :
    left = left' ∧ right = right' := by
  have hlength : left.length = left'.length := by
    have hindex := findIdx?_colon hleft right
    rw [h, findIdx?_colon hleft' right', Option.some.injEq] at hindex
    exact hindex.symm
  obtain ⟨heq, hrest⟩ := List.append_inj h hlength
  exact ⟨heq, (List.cons.inj hrest).2⟩

theorem colon_not_mem (h : ∀ byte ∈ host, validHostCharacter byte false = true) :
    ascii ':' ∉ host := fun hmem => absurd (h _ hmem) (by decide)

theorem safe_of_validHostCharacter {byte : UInt8} (h : validHostCharacter byte false = true) :
    0x21 ≤ byte ∧ byte ≤ 0x7e := by
  have hall : ∀ n < 256, validHostCharacter (UInt8.ofNat n) false = true →
      0x21 ≤ UInt8.ofNat n ∧ UInt8.ofNat n ≤ 0x7e := by decide +kernel
  have hbyte := hall byte.toNat byte.toNat_lt
  rw [UInt8.ofNat_toNat] at hbyte
  exact hbyte h

theorem safe_of_isDigit {byte : UInt8} (h : isDigit byte = true) : 0x21 ≤ byte ∧ byte ≤ 0x7e := by
  rw [isDigit_iff] at h
  rw [UInt8.le_iff_toNat_le, UInt8.le_iff_toNat_le]
  have h21 : (0x21 : UInt8).toNat = 0x21 := rfl
  have h7e : (0x7e : UInt8).toNat = 0x7e := rfl
  omega

/-- A name and its port, as `valid_address` and `address_port` take them. -/
structure IsAddress (host digits : List UInt8) (port : ℕ) : Prop where
  validHost : host ≠ [] ∧ ∀ byte ∈ host, validHostCharacter byte false = true
  allDigits : digits ≠ [] ∧ ∀ byte ∈ digits, isDigit byte = true
  value : decimalValue digits = port ∧ 0 < port ∧ port ≤ 65535
  fits : host.length + 1 + digits.length < addressCapacity

theorem addressPort_of_isAddress {port : ℕ} (h : IsAddress host digits port) :
    addressPort (host ++ ascii ':' :: digits) = some port := by
  obtain ⟨⟨hhost, hvalid⟩, ⟨hdigits, hall⟩, ⟨hvalue, hpositive, hlarge⟩, hlength⟩ := h
  have hcolon := colon_not_mem hvalid
  have hsafe : safeAscii (host ++ ascii ':' :: digits) addressCapacity false = true := by
    unfold safeAscii terminated
    rw [Bool.and_eq_true, Bool.and_eq_true, decide_eq_true_eq, List.all_eq_true]
    refine ⟨⟨by simp; omega, by simp⟩, fun byte hbyte => ?_⟩
    rw [Bool.and_eq_true, decide_eq_true_eq, decide_eq_true_eq]
    rcases List.mem_append.mp hbyte with hbyte | hbyte
    · exact safe_of_validHostCharacter (hvalid byte hbyte)
    · rcases List.mem_cons.mp hbyte with rfl | hbyte
      · decide
      · exact safe_of_isDigit (hall byte hbyte)
  have hdrop : (host ++ ascii ':' :: digits).drop (host.length + 1) = digits := by
    rw [List.drop_append, List.drop_eq_nil_of_le (by omega)]
    simp
  have hdigitsColon : ascii ':' ∉ digits := fun hmem => absurd (hall _ hmem) (by decide)
  have hbracket : (host ++ ascii ':' :: digits).head? ≠ some (ascii '[') := by
    cases host with
    | nil => exact absurd rfl hhost
    | cons first host =>
      intro hfirst
      obtain rfl := Option.some.inj hfirst
      exact absurd (hvalid _ List.mem_cons_self) (by decide)
  have hlayout : addressLayout (host ++ ascii ':' :: digits) =
      some ⟨0, host.length, host.length + 1, false⟩ := by
    unfold addressLayout
    rw [if_neg hbracket, findIdx?_colon hcolon]
    dsimp only
    rw [hdrop, if_neg]
    rintro (hempty | hmem)
    · exact hhost (List.length_eq_zero_iff.mp hempty)
    · exact hdigitsColon hmem
  have hport : parsePort digits = some port := parsePort_eq_some.mpr ⟨hall, hvalue, hlarge⟩
  have hnonempty := List.length_pos_iff.mpr hdigits
  unfold addressPort
  rw [if_neg (by simp [hsafe]), hlayout]
  dsimp only
  rw [if_neg (by simp; omega), List.take_left, List.drop_zero, hdrop, hport,
    if_neg (by simpa using hvalid)]
  exact if_neg (by omega)

theorem isAddress_of_addressPort {address : List UInt8} {port : ℕ} (h : addressPort address = some port)
    (hbracket : address.head? ≠ some (ascii '[')) :
    ∃ host digits, address = host ++ ascii ':' :: digits ∧ IsAddress host digits port := by
  unfold addressPort at h
  split_ifs at h with hsafe
  cases hlayout : addressLayout address with
  | none =>
    rw [hlayout] at h
    cases h
  | some layout =>
    rw [hlayout] at h
    dsimp only at h
    unfold addressLayout at hlayout
    rw [if_neg hbracket] at hlayout
    cases hindex : address.findIdx? (· == ascii ':') with
    | none =>
      rw [hindex] at hlayout
      cases hlayout
    | some colon =>
      rw [hindex] at hlayout
      dsimp only at hlayout
      split_ifs at hlayout with hcolon
      obtain rfl := Option.some.inj hlayout
      dsimp only at h
      split_ifs at h with hshort hhost
      cases hparse : parsePort (address.drop (colon + 1)) with
      | none =>
        rw [hparse] at h
        cases h
      | some value =>
        rw [hparse] at h
        dsimp only at h
        split_ifs at h with hzero
        obtain rfl := Option.some.inj h
        obtain ⟨hall, hvalue, hlarge⟩ := parsePort_eq_some.mp hparse
        obtain ⟨-, heq⟩ := eq_of_findIdx? hindex
        have hterminated : address.length < addressCapacity :=
          length_of_safeAscii (Bool.not_eq_false _ ▸ hsafe)
        have hindex' := (List.findIdx?_eq_some_iff_getElem.mp hindex).1
        refine ⟨address.take colon, address.drop (colon + 1), heq, ⟨?_, ?_⟩, ⟨?_, hall⟩,
          ⟨hvalue, Nat.pos_iff_ne_zero.mpr hzero, hlarge⟩, ?_⟩
        · rw [ne_eq, List.take_eq_nil_iff, not_or]
          refine ⟨fun hempty => hcolon (.inl hempty), fun hempty => ?_⟩
          rw [hempty] at hindex'
          cases hindex'
        · simpa using hhost
        · rw [ne_eq, List.drop_eq_nil_iff]
          exact hshort
        · rw [List.length_take, List.length_drop]
          omega

/-! ### `%u` -/

/-- Digits, with a minus or without. -/
def numeral (negative : Bool) (digits : List UInt8) : List UInt8 :=
  if negative then ascii '-' :: digits else digits

/-- What `%u` makes of them. -/
def scannedValue (negative : Bool) (digits : List UInt8) : UInt32 :=
  if 2 ^ 32 ≤ decimalValue digits then 0xffffffff
  else if negative then 0 - UInt32.ofNat (decimalValue digits)
  else UInt32.ofNat (decimalValue digits)

variable {rest : List UInt8}

theorem takeWhile_isDigit (hall : ∀ byte ∈ digits, isDigit byte = true)
    (hrest : ∀ byte ∈ rest.head?, isDigit byte = false) :
    (digits ++ rest).takeWhile isDigit = digits ∧ (digits ++ rest).dropWhile isDigit = rest := by
  have htail : rest.takeWhile isDigit = [] ∧ rest.dropWhile isDigit = rest := by
    cases rest with
    | nil => exact ⟨rfl, rfl⟩
    | cons byte rest =>
      have hbyte := hrest byte rfl
      exact ⟨List.takeWhile_cons_of_neg (by simp [hbyte]), List.dropWhile_cons_of_neg (by simp [hbyte])⟩
  rw [List.takeWhile_append_of_pos hall, List.dropWhile_append_of_pos hall, htail.1, htail.2]
  exact ⟨List.append_nil digits, rfl⟩

theorem scanUnsigned_numeral {negative : Bool} {digits rest : List UInt8} (hne : digits ≠ [])
    (hall : ∀ byte ∈ digits, isDigit byte = true) (hrest : ∀ byte ∈ rest.head?, isDigit byte = false) :
    scanUnsigned (numeral negative digits ++ rest) = some (scannedValue negative digits, rest) := by
  obtain ⟨htake, hdrop⟩ := takeWhile_isDigit hall hrest
  obtain ⟨first, others, rfl⟩ := List.exists_cons_of_ne_nil hne
  have hfirst := hall first List.mem_cons_self
  have hspace : ∀ byte, isDigit byte = true → isSpace byte = false ∧ byte ≠ ascii '-' ∧ byte ≠ ascii '+' := by
    have hall : ∀ n < 256, isDigit (UInt8.ofNat n) = true →
        isSpace (UInt8.ofNat n) = false ∧ UInt8.ofNat n ≠ ascii '-' ∧ UInt8.ofNat n ≠ ascii '+' := by
      decide +kernel
    intro byte hbyte
    have hn := hall byte.toNat byte.toNat_lt
    rw [UInt8.ofNat_toNat] at hn
    exact hn hbyte
  obtain ⟨hnospace, hminus, hplus⟩ := hspace first hfirst
  unfold scanUnsigned
  cases negative with
  | true =>
    have hskip : (numeral true (first :: others) ++ rest).dropWhile isSpace =
        ascii '-' :: (first :: others ++ rest) := List.dropWhile_cons_of_neg (by decide)
    have hnegative : ((ascii '-' :: (first :: others ++ rest)).head? == some (ascii '-')) = true := by
      rw [List.head?_cons, beq_self_eq_true]
    rw [hskip]
    simp only [hnegative, Bool.true_or, if_true, List.tail_cons, htake, hdrop]
    exact if_neg hne
  | false =>
    have hskip : (numeral false (first :: others) ++ rest).dropWhile isSpace = first :: others ++ rest :=
      List.dropWhile_cons_of_neg (by simp [hnospace])
    have hnegative : ((first :: others ++ rest).head? == some (ascii '-')) = false := by
      simpa using hminus
    have hpositive : ((first :: others ++ rest).head? == some (ascii '+')) = false := by
      simpa using hplus
    rw [hskip]
    simp only [hnegative, hpositive, Bool.or_false, Bool.false_eq_true, if_false, htake, hdrop]
    exact if_neg hne

/-- `%u` of a text that begins with no white space and no plus. -/
theorem numeral_of_scanUnsigned {input : List UInt8} {value : UInt32}
    (h : scanUnsigned input = some (value, rest))
    (hhead : ∀ byte ∈ input.head?, isSpace byte = false ∧ byte ≠ ascii '+') :
    ∃ negative digits, input = numeral negative digits ++ rest ∧ digits ≠ [] ∧
      (∀ byte ∈ digits, isDigit byte = true) ∧ value = scannedValue negative digits := by
  have hskip : input.dropWhile isSpace = input := by
    cases input with
    | nil => rfl
    | cons byte input => exact List.dropWhile_cons_of_neg (by simp [(hhead byte rfl).1])
  have hplus : (input.head? == some (ascii '+')) = false := by
    rw [beq_eq_false_iff_ne]
    exact fun hplus => (hhead _ hplus).2 rfl
  unfold scanUnsigned at h
  rw [hskip] at h
  dsimp only at h
  rw [hplus, Bool.or_false] at h
  have hdigits (text : List UInt8) : ∀ byte ∈ text.takeWhile isDigit, isDigit byte = true :=
    fun byte hbyte => List.mem_takeWhile_imp hbyte
  by_cases hminus : (input.head? == some (ascii '-')) = true
  · rw [hminus] at h
    simp only [if_true] at h
    split at h
    · cases h
    rename_i hempty
    obtain ⟨hvalue, hrest⟩ := Prod.mk.inj (Option.some.inj h)
    refine ⟨true, input.tail.takeWhile isDigit, ?_, hempty, hdigits _, hvalue.symm⟩
    cases input with
    | nil => exact absurd hminus (by decide)
    | cons byte input =>
      obtain rfl : byte = ascii '-' := by simpa using hminus
      show _ = ascii '-' :: input.takeWhile isDigit ++ rest
      rw [← hrest, List.cons_append, List.tail_cons, List.takeWhile_append_dropWhile]
  · rw [Bool.not_eq_true] at hminus
    rw [hminus] at h
    simp only [Bool.false_eq_true, if_false] at h
    split at h
    · cases h
    rename_i hempty
    obtain ⟨hvalue, hrest⟩ := Prod.mk.inj (Option.some.inj h)
    refine ⟨false, input.takeWhile isDigit, ?_, hempty, hdigits _, ?_⟩
    · show _ = input.takeWhile isDigit ++ rest
      rw [← hrest, List.takeWhile_append_dropWhile]
    · rw [← hvalue]
      rfl

/-! ### Spellings -/

/-- A spelling of a pairing address: an octet from 2 to 254, or a minus and the number that is it modulo
`2^32`, and the port, both with any zeros in front. -/
structure Spelling (address : CString) (port : UInt16) (negative : Bool) (octet portText : List UInt8) :
    Prop where
  text : address = networkText ++ numeral negative octet ++ ascii ':' :: portText
  fits : address.length < addressCapacity
  octetDigits : octet ≠ [] ∧ ∀ byte ∈ octet, isDigit byte = true
  octetValue : if negative then 2 ^ 32 - 254 ≤ decimalValue octet ∧ decimalValue octet ≤ 2 ^ 32 - 2
    else 2 ≤ decimalValue octet ∧ decimalValue octet ≤ 254
  portDigits : portText ≠ [] ∧ ∀ byte ∈ portText, isDigit byte = true
  portValue : decimalValue portText = port.toNat ∧ port ≠ 0

variable {negative : Bool}

theorem scannedValue_iff :
    2 ≤ scannedValue negative digits ∧ scannedValue negative digits ≤ 254 ↔
      if negative then 2 ^ 32 - 254 ≤ decimalValue digits ∧ decimalValue digits ≤ 2 ^ 32 - 2
      else 2 ≤ decimalValue digits ∧ decimalValue digits ≤ 254 := by
  rw [UInt32.le_iff_toNat_le, UInt32.le_iff_toNat_le]
  have htwo : (2 : UInt32).toNat = 2 := rfl
  have hlast : (254 : UInt32).toNat = 254 := rfl
  have hmax : (0xffffffff : UInt32).toNat = 2 ^ 32 - 1 := rfl
  unfold scannedValue
  generalize decimalValue digits = value
  by_cases hlarge : 2 ^ 32 ≤ value
  · rw [if_pos hlarge, hmax, htwo, hlast]
    cases negative <;> simp <;> omega
  · rw [if_neg hlarge]
    cases negative with
    | true =>
      simp only [if_true]
      rw [UInt32.toNat_sub, UInt32.toNat_ofNat', htwo, hlast]
      have hzero : (0 : UInt32).toNat = 0 := rfl
      rw [hzero]
      omega
    | false =>
      simp only [Bool.false_eq_true, if_false]
      rw [UInt32.toNat_ofNat', htwo, hlast]
      omega

theorem colon_not_mem_numeral (h : ∀ byte ∈ digits, isDigit byte = true) :
    ascii ':' ∉ networkText ++ numeral negative digits := by
  have hdigits : ascii ':' ∉ digits := fun hmem => absurd (h _ hmem) (by decide)
  have hnetwork : ascii ':' ∉ networkText := by decide
  rw [List.mem_append, not_or]
  refine ⟨hnetwork, ?_⟩
  cases negative with
  | true =>
    show ascii ':' ∉ ascii '-' :: digits
    rw [List.mem_cons, not_or]
    exact ⟨by decide, hdigits⟩
  | false => exact hdigits

variable {address : CString} {port : UInt16} {octet portText : List UInt8}

theorem Spelling.isAddress (h : Spelling address port negative octet portText) :
    IsAddress (networkText ++ numeral negative octet) portText port.toNat := by
  have hvalid : ∀ byte, isDigit byte = true → validHostCharacter byte false = true := by
    intro byte hbyte
    unfold validHostCharacter
    rw [hbyte]
    simp
  have hport := h.portValue.2
  have hpositive : port.toNat ≠ 0 := fun hzero => hport (UInt16.toNat_inj.mp hzero)
  have hlt := port.toNat_lt
  have hnetwork : networkText ≠ [] := by decide
  refine ⟨⟨List.append_ne_nil_of_left_ne_nil hnetwork _, fun byte hbyte => ?_⟩, h.portDigits,
    ⟨h.portValue.1, by omega, by omega⟩, ?_⟩
  · rcases List.mem_append.mp hbyte with hbyte | hbyte
    · have hnetwork : ∀ byte ∈ networkText, validHostCharacter byte false = true := by decide +kernel
      exact hnetwork byte hbyte
    · cases negative with
      | true =>
        rcases List.mem_cons.mp hbyte with rfl | hbyte
        · decide
        · exact hvalid byte (h.octetDigits.2 byte hbyte)
      | false => exact hvalid byte (h.octetDigits.2 byte hbyte)
  · have hfits := h.fits
    rw [h.text, List.length_append, List.length_cons] at hfits
    omega

theorem scanLiteral_append (literal rest : List UInt8) :
    scanLiteral literal (literal ++ rest) = some rest := by
  unfold scanLiteral
  rw [List.take_left, if_pos rfl, List.drop_left]

theorem scanPairingAddress_of_spelling (h : Spelling address port negative octet portText) :
    scanPairingAddress address = (some (scannedValue negative octet), address.length) := by
  have hcolon : ∀ byte ∈ (ascii ':' :: portText).head?, isDigit byte = false := by
    intro byte hbyte
    obtain rfl := Option.some.inj hbyte
    decide
  have hend : ∀ byte ∈ ([] : List UInt8).head?, isDigit byte = false := by simp
  have hoctet := @scanUnsigned_numeral negative octet _ h.octetDigits.1 h.octetDigits.2 hcolon
  have hport := @scanUnsigned_numeral false portText [] h.portDigits.1 h.portDigits.2 hend
  have hport' : scanUnsigned portText = some (scannedValue false portText, []) := by
    rwa [List.append_nil] at hport
  have hliteral : scanLiteral [ascii ':'] (ascii ':' :: portText) = some portText :=
    scanLiteral_append [ascii ':'] portText
  have htext := h.text
  rw [List.append_assoc] at htext
  unfold scanPairingAddress
  rw [htext, scanLiteral_append]
  dsimp only
  rw [hoctet]
  dsimp only
  rw [hliteral]
  dsimp only
  rw [hport']
  rfl

theorem valid_of_spelling (h : Spelling address port negative octet portText) :
    validPairingAddress address port = true := by
  have haddress := addressPort_of_isAddress h.isAddress
  have hoctet := scannedValue_iff.mpr h.octetValue
  have hlength : 0 < address.length := by
    rw [h.text, List.length_append, List.length_cons]
    omega
  unfold validPairingAddress
  rw [← h.text] at haddress
  rw [haddress]
  dsimp only
  rw [if_neg (not_not.mpr rfl), scanPairingAddress_of_spelling h]
  simp [hoctet, hlength]

theorem eq_of_scanLiteral {literal input : List UInt8} (h : scanLiteral literal input = some rest) :
    input = literal ++ rest := by
  unfold scanLiteral at h
  split_ifs at h with htake
  obtain rfl := Option.some.inj h
  calc input
    _ = input.take literal.length ++ input.drop literal.length := (List.take_append_drop _ _).symm
    _ = literal ++ input.drop literal.length := by rw [htake]

theorem IsAddress.character {port : ℕ} (h : IsAddress host digits port) {byte : UInt8}
    (hbyte : byte ∈ host ++ ascii ':' :: digits) :
    isSpace byte = false ∧ byte ≠ ascii '+' := by
  have hall : ∀ n < 256, (validHostCharacter (UInt8.ofNat n) false = true ∨ UInt8.ofNat n = ascii ':' ∨
      isDigit (UInt8.ofNat n) = true) → isSpace (UInt8.ofNat n) = false ∧ UInt8.ofNat n ≠ ascii '+' := by
    decide +kernel
  have hn := hall byte.toNat byte.toNat_lt
  rw [UInt8.ofNat_toNat] at hn
  apply hn
  rcases List.mem_append.mp hbyte with hbyte | hbyte
  · exact .inl (h.validHost.2 byte hbyte)
  · rcases List.mem_cons.mp hbyte with heq | hbyte
    · exact .inr (.inl heq)
    · exact .inr (.inr (h.allDigits.2 byte hbyte))

/-- What is accepted is a spelling. -/
theorem spelling_of_valid (h : validPairingAddress address port = true) :
    ∃ negative octet portText, Spelling address port negative octet portText := by
  unfold validPairingAddress at h
  cases hport : addressPort address with
  | none =>
    rw [hport] at h
    cases h
  | some value =>
    rw [hport] at h
    dsimp only at h
    split at h
    · cases h
    rename_i hexpected
    rw [not_not] at hexpected
    unfold scanPairingAddress at h
    cases hnetwork : scanLiteral networkText address with
    | none =>
      rw [hnetwork] at h
      cases h
    | some input =>
      rw [hnetwork] at h
      dsimp only at h
      cases hoctet : scanUnsigned input with
      | none =>
        rw [hoctet] at h
        cases h
      | some scanned =>
        obtain ⟨octet, input'⟩ := scanned
        rw [hoctet] at h
        dsimp only at h
        cases hcolon : scanLiteral [ascii ':'] input' with
        | none =>
          rw [hcolon] at h
          exact absurd h (by simp)
        | some portText =>
          rw [hcolon] at h
          dsimp only at h
          have haddress := eq_of_scanLiteral hnetwork
          have hinput := eq_of_scanLiteral hcolon
          have hbracket : address.head? ≠ some (ascii '[') := by
            rw [haddress]
            have hne : ascii '1' ≠ ascii '[' := by decide
            exact fun hfirst => hne (Option.some.inj hfirst)
          obtain ⟨host, digits, htext, hparts⟩ := isAddress_of_addressPort hport hbracket
          obtain ⟨negative, octetText, hnumeral, hne, hall, hvalue⟩ :=
            numeral_of_scanUnsigned hoctet fun byte hbyte => hparts.character <| by
              rw [← htext, haddress]
              exact List.mem_append_right _ (List.mem_of_mem_head? hbyte)
          -- the colon of the format is the colon of the address
          have hsame : networkText ++ numeral negative octetText ++ ascii ':' :: portText =
              host ++ ascii ':' :: digits := by
            rw [← htext, haddress, hnumeral, hinput, List.append_assoc]
            rfl
          obtain ⟨-, hdigits⟩ := append_colon_inj (colon_not_mem_numeral hall)
            (colon_not_mem hparts.validHost.2) hsame
          refine ⟨negative, octetText, portText, ⟨?_, ?_, ⟨hne, hall⟩, ?_, ?_, ?_⟩⟩
          · rw [hsame, htext]
          · rw [htext, List.length_append, List.length_cons]
            have := hparts.fits
            omega
          · rw [← scannedValue_iff, ← hvalue]
            cases hend : scanUnsigned portText with
            | none =>
              rw [hend] at h
              exact absurd h (by simp)
            | some scannedPort =>
              rw [hend] at h
              simp only [Bool.and_eq_true, decide_eq_true_eq] at h
              exact ⟨h.1.2, h.2⟩
          · rw [hdigits]
            exact hparts.allDigits
          · rw [hdigits, ← hexpected]
            refine ⟨hparts.value.1, fun hzero => ?_⟩
            have := hparts.value.2.1
            rw [hexpected, hzero] at this
            cases this

theorem validPairingAddress_iff :
    validPairingAddress address port = true ↔
      ∃ negative octet portText, Spelling address port negative octet portText := by
  constructor
  · exact spelling_of_valid
  · rintro ⟨negative, octet, portText, h⟩
    exact valid_of_spelling h

/-! ### The canonical spelling -/

/-- `192.168.4.N:P`, with `N` from 2 to 254 and the expected port `P`. -/
def Canonical (address : CString) (port : UInt16) : Prop :=
  ∃ octet : ℕ, 2 ≤ octet ∧ octet ≤ 254 ∧ port ≠ 0 ∧
    address = networkText ++ decimalText octet ++ ascii ':' :: decimalText port.toNat

/-- A spelling with a minus or with a zero in front. -/
def Misspelled (address : CString) (port : UInt16) : Prop :=
  ∃ negative octet portText, Spelling address port negative octet portText ∧
    (negative = true ∨ octet.head? = some (ascii '0') ∨ portText.head? = some (ascii '0'))

theorem canonical_iff :
    Canonical address port ↔ ∃ octet portText, Spelling address port false octet portText ∧
      octet.head? ≠ some (ascii '0') ∧ portText.head? ≠ some (ascii '0') := by
  constructor
  · rintro ⟨octet, hsmall, hlarge, hport, rfl⟩
    have hpositive : 0 < port.toNat :=
      Nat.pos_iff_ne_zero.mpr fun hzero => hport (UInt16.toNat_inj.mp hzero)
    have hlt := port.toNat_lt
    obtain ⟨hdigits, hne, hfirst, hvalue⟩ := decimalText_spec (show 0 < octet by omega)
    obtain ⟨hdigits', hne', hfirst', hvalue'⟩ := decimalText_spec hpositive
    have hlength := Json.length_decimalText_le (show 0 < 3 by decide) (show octet < 10 ^ 3 by omega)
    have hlength' := Json.length_decimalText_le (show 0 < 5 by decide) (show port.toNat < 10 ^ 5 by omega)
    have hnetwork : networkText.length = 10 := by decide
    refine ⟨decimalText octet, decimalText port.toNat,
      ⟨rfl, ?_, ⟨hne, hdigits⟩, ?_, ⟨hne', hdigits'⟩, ⟨hvalue', hport⟩⟩, hfirst, hfirst'⟩
    · simp only [List.length_append, List.length_cons, hnetwork, addressCapacity]
      omega
    · rw [hvalue]
      exact ⟨hsmall, hlarge⟩
  · rintro ⟨octet, portText, h, hfirst, hfirst'⟩
    obtain ⟨-, htext⟩ := decimalText_decimalValue h.octetDigits.2 h.octetDigits.1 hfirst
    obtain ⟨-, htext'⟩ := decimalText_decimalValue h.portDigits.2 h.portDigits.1 hfirst'
    have hvalue := h.octetValue
    refine ⟨decimalValue octet, hvalue.1, hvalue.2, h.portValue.2, ?_⟩
    rw [htext, ← h.portValue.1, htext']
    exact h.text

theorem numeral_inj {negative' : Bool} {digits' : List UInt8}
    (h : ∀ byte ∈ digits, isDigit byte = true) (h' : ∀ byte ∈ digits', isDigit byte = true)
    (heq : numeral negative digits = numeral negative' digits') :
    negative = negative' ∧ digits = digits' := by
  have hminus : isDigit (ascii '-') = false := by decide
  cases negative with
  | true =>
    cases negative' with
    | true => exact ⟨rfl, (List.cons.inj heq).2⟩
    | false =>
      change ascii '-' :: digits = digits' at heq
      have := h' (ascii '-') (heq ▸ List.mem_cons_self)
      rw [hminus] at this
      cases this
  | false =>
    cases negative' with
    | true =>
      change digits = ascii '-' :: digits' at heq
      have := h (ascii '-') (heq ▸ List.mem_cons_self)
      rw [hminus] at this
      cases this
    | false => exact ⟨rfl, heq⟩

theorem Spelling.unique {negative' : Bool} {octet' portText' : List UInt8}
    (h : Spelling address port negative octet portText)
    (h' : Spelling address port negative' octet' portText') :
    negative = negative' ∧ octet = octet' ∧ portText = portText' := by
  obtain ⟨hfront, hport⟩ := append_colon_inj (colon_not_mem_numeral h.octetDigits.2)
    (colon_not_mem_numeral h'.octetDigits.2) (h.text.symm.trans h'.text)
  obtain ⟨hsign, hoctet⟩ := numeral_inj h.octetDigits.2 h'.octetDigits.2 (List.append_cancel_left hfront)
  exact ⟨hsign, hoctet, hport⟩

theorem Misspelled.not_canonical (h : Misspelled address port) :
    ¬Canonical address port := by
  rw [canonical_iff]
  rintro ⟨octet', portText', h', hfirst, hfirst'⟩
  obtain ⟨negative, octet, portText, hspelling, hwrong⟩ := h
  obtain ⟨rfl, rfl, rfl⟩ := hspelling.unique h'
  rcases hwrong with hminus | hzero | hzero
  · cases hminus
  · exact hfirst hzero
  · exact hfirst' hzero

/-- The filter accepts exactly the canonical address of a text if and only if the text is not another
spelling of one. -/
theorem pairing_address_filter (address : CString) (port : UInt16) :
    (validPairingAddress address port = true ↔ Canonical address port) ↔ ¬Misspelled address port := by
  constructor
  · intro hsame hwrong
    refine hwrong.not_canonical (hsame.mp ?_)
    obtain ⟨negative, octet, portText, h, -⟩ := hwrong
    exact valid_of_spelling h
  · intro hright
    rw [validPairingAddress_iff, canonical_iff]
    constructor
    · rintro ⟨negative, octet, portText, h⟩
      have hplain : ¬(negative = true ∨ octet.head? = some (ascii '0') ∨
          portText.head? = some (ascii '0')) := fun hwrong => hright ⟨negative, octet, portText, h, hwrong⟩
      rw [not_or, not_or, Bool.not_eq_true] at hplain
      obtain ⟨rfl, hfirst, hfirst'⟩ := hplain
      exact ⟨octet, portText, h, hfirst, hfirst'⟩
    · rintro ⟨octet, portText, h, -, -⟩
      exact ⟨false, octet, portText, h⟩

/-- A minus and zeros in front are accepted. -/
theorem pairing_address_filter_fails :
    (validPairingAddress ("192.168.4.-4294967290:443".toList.map ascii) 443 = true ∧
      ¬Canonical ("192.168.4.-4294967290:443".toList.map ascii) 443) ∧
    (validPairingAddress ("192.168.4.007:00443".toList.map ascii) 443 = true ∧
      ¬Canonical ("192.168.4.007:00443".toList.map ascii) 443) := by
  refine ⟨⟨by decide +kernel, Misspelled.not_canonical ?_⟩, ⟨by decide +kernel, Misspelled.not_canonical ?_⟩⟩
  · refine ⟨true, "4294967290".toList.map ascii, "443".toList.map ascii,
      ⟨by decide +kernel, by decide +kernel, by decide +kernel, by decide +kernel, by decide +kernel,
        by decide +kernel⟩, .inl rfl⟩
  · refine ⟨false, "007".toList.map ascii, "00443".toList.map ascii,
      ⟨by decide +kernel, by decide +kernel, by decide +kernel, by decide +kernel, by decide +kernel,
        by decide +kernel⟩, .inr (.inl (by decide +kernel))⟩

end RlcdDeck.CompanionProfiles
