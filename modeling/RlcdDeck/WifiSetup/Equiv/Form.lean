import RlcdDeck.WifiSetup.Form
import Mathlib.Data.List.Basic
import Mathlib.Data.List.TakeWhile

/-!
# The Wi-Fi form round trip

A text of printable bytes survives the encoding of a form (`decodeFormComponent_encode`), and the
pieces of an encoded form are its fields (`formPieces_append`).  So a form is accepted when it fits
the buffer of the request (`parseWifiRequest_of_le`), and what is accepted has each field once
(`hasFields_of_ok`).
-/

namespace RlcdDeck.WifiSetup

open Bytes (hexValue)

/-! ### The encoding of forms -/

/-- The digit of a value below 16, in upper case. -/
def upperDigit (value : ℕ) : UInt8 :=
  if value < 10 then UInt8.ofNat (48 + value) else UInt8.ofNat (55 + value)

/-- The bytes that stand for themselves in an encoded form: letters, digits and `*-._`. -/
def formSafe (byte : UInt8) : Bool :=
  decide (0x30 ≤ byte ∧ byte ≤ 0x39) || decide (0x41 ≤ byte ∧ byte ≤ 0x5a) ||
    decide (0x61 ≤ byte ∧ byte ≤ 0x7a) || [0x2a, 0x2d, 0x2e, 0x5f].contains byte

/-- The encoding of a byte in `application/x-www-form-urlencoded`. -/
def encodeFormByte (byte : UInt8) : List UInt8 :=
  if formSafe byte = true then [byte]
  else if byte = 0x20 then [0x2b]
  else [0x25, upperDigit (byte.toNat / 16), upperDigit (byte.toNat % 16)]

/-- The body that a browser sends for the form. -/
def formBody (credentials : Credentials) : List UInt8 :=
  (ssidKey ++ 0x3d :: credentials.ssid.flatMap encodeFormByte) ++
    0x26 :: (passwordKey ++ 0x3d :: credentials.password.flatMap encodeFormByte)

/-! ### Components -/

section Components

variable {capacity size : ℕ} {byte : UInt8} {text rest : List UInt8}

theorem hexValue_upperDigit {value : ℕ} (h : value < 16) :
    hexValue (upperDigit value) = some value := by
  have hall : ∀ v : Fin 16, hexValue (upperDigit v) = some v.val := by decide
  exact hall ⟨value, h⟩

theorem formSafe_ne (h : formSafe byte = true) :
    byte ≠ 0x25 ∧ byte ≠ 0x2b ∧ byte ≠ 0x26 ∧ byte ≠ 0x3d := by
  refine ⟨?_, ?_, ?_, ?_⟩ <;>
    · rintro rfl
      exact absurd h (by decide)

theorem decodeFormComponent_plain (h : byte ≠ 0x25) :
    decodeFormComponent capacity size (byte :: rest) =
      if (if byte = 0x2b then 0x20 else byte) < 0x20 ∨
          (if byte = 0x2b then 0x20 else byte) = 0x7f ∨ capacity ≤ size + 1 then none
      else (decodeFormComponent capacity (size + 1) rest).map
        ((if byte = 0x2b then 0x20 else byte) :: ·) := by
  rw [decodeFormComponent.eq_def]
  exact if_neg h

/-- **One byte** is read back. -/
theorem decodeFormComponent_encodeByte (hprintable : printable byte = true)
    (hsize : size + 1 < capacity) :
    decodeFormComponent capacity size (encodeFormByte byte ++ rest) =
      (decodeFormComponent capacity (size + 1) rest).map (byte :: ·) := by
  have haccepted : ¬(byte < 0x20 ∨ byte = 0x7f ∨ capacity ≤ size + 1) := by
    unfold printable at hprintable
    simp only [Bool.not_eq_true', Bool.or_eq_false_iff, decide_eq_false_iff_not,
      beq_eq_false_iff_ne]
      at hprintable
    rintro (h | h | h)
    · exact hprintable.1 h
    · exact hprintable.2 h
    · omega
  unfold encodeFormByte
  split_ifs with hsafe hspace
  · obtain ⟨hpercent, hplus, -, -⟩ := formSafe_ne hsafe
    rw [List.singleton_append, decodeFormComponent_plain hpercent, if_neg hplus, if_neg haccepted]
  · subst hspace
    rw [List.singleton_append, decodeFormComponent_plain (by decide), if_pos rfl,
      if_neg haccepted]
  · have hbyte := byte.toNat_lt
    have hvalue : UInt8.ofNat (16 * (byte.toNat / 16) + byte.toNat % 16) = byte := by
      rw [Nat.div_add_mod, UInt8.ofNat_toNat]
    rw [List.cons_append, List.cons_append, List.singleton_append, decodeFormComponent, if_pos rfl,
      hexValue_upperDigit (by omega), hexValue_upperDigit (by omega)]
    dsimp only
    rw [hvalue, if_neg haccepted]

/-- **A text** is read back. -/
theorem decodeFormComponent_encode (hprintable : text.all printable = true)
    (hsize : size + text.length < capacity) :
    decodeFormComponent capacity size (text.flatMap encodeFormByte) = some text := by
  induction text generalizing size with
  | nil => rw [List.flatMap_nil, decodeFormComponent]
  | cons byte text ih =>
    rw [List.all_cons, Bool.and_eq_true] at hprintable
    rw [List.length_cons] at hsize
    rw [List.flatMap_cons, decodeFormComponent_encodeByte hprintable.1 (by omega),
      ih hprintable.2 (by omega), Option.map_some]

theorem encodeFormByte_ne (byte : UInt8) :
    ∀ b ∈ encodeFormByte byte, b ≠ 0x26 ∧ b ≠ 0x3d := by
  have hdigit : ∀ value < 16, upperDigit value ≠ 0x26 ∧ upperDigit value ≠ 0x3d := by decide
  have hbyte := byte.toNat_lt
  unfold encodeFormByte
  intro b hb
  split_ifs at hb with hsafe hspace
  · obtain rfl := List.mem_singleton.mp hb
    obtain ⟨-, -, hamp, heq⟩ := formSafe_ne hsafe
    exact ⟨hamp, heq⟩
  · obtain rfl := List.mem_singleton.mp hb
    decide
  · simp only [List.mem_cons, List.not_mem_nil, or_false] at hb
    rcases hb with rfl | rfl | rfl
    · decide
    · exact hdigit _ (by omega)
    · exact hdigit _ (by omega)

theorem encodeForm_ne (text : List UInt8) :
    ∀ b ∈ text.flatMap encodeFormByte, b ≠ 0x26 ∧ b ≠ 0x3d := by
  intro b hb
  obtain ⟨byte, -, hb⟩ := List.mem_flatMap.mp hb
  exact encodeFormByte_ne byte b hb

end Components

/-! ### Pieces -/

section Pieces

variable {piece rest body : List UInt8}

theorem formPieces_append (h : ∀ b ∈ piece, b ≠ 0x26) :
    formPieces (piece ++ 0x26 :: rest) = piece :: formPieces rest := by
  induction piece with
  | nil => rw [List.nil_append, formPieces, if_pos rfl]
  | cons byte piece ih =>
    rw [List.cons_append, formPieces, if_neg (h byte (List.mem_cons_self ..)),
      ih fun b hb => h b (List.mem_cons_of_mem _ hb)]

theorem formPieces_last (h : ∀ b ∈ piece, b ≠ 0x26) (hne : piece ≠ []) :
    formPieces piece = [piece] := by
  induction piece with
  | nil => exact absurd rfl hne
  | cons byte piece ih =>
    rw [formPieces, if_neg (h byte (List.mem_cons_self ..))]
    cases piece with
    | nil => rfl
    | cons next piece => rw [ih (fun b hb => h b (List.mem_cons_of_mem _ hb)) nofun]

theorem formPieces_ne : ∀ piece ∈ formPieces body, ∀ b ∈ piece, b ≠ 0x26 := by
  induction body with
  | nil =>
    intro piece hpiece
    rw [formPieces] at hpiece
    exact absurd hpiece List.not_mem_nil
  | cons byte body ih =>
    rw [formPieces]
    split_ifs with hamp
    · intro piece hpiece
      rcases List.mem_cons.mp hpiece with rfl | hpiece
      · exact fun b hb => absurd hb List.not_mem_nil
      · exact ih piece hpiece
    · cases hpieces : formPieces body with
      | nil =>
        intro piece hpiece b hb
        obtain rfl := List.mem_singleton.mp hpiece
        obtain rfl := List.mem_singleton.mp hb
        exact hamp
      | cons first others =>
        rw [hpieces] at ih
        intro piece hpiece b hb
        rcases List.mem_cons.mp hpiece with rfl | hpiece
        · rcases List.mem_cons.mp hb with rfl | hb
          · exact hamp
          · exact ih first (List.mem_cons_self ..) b hb
        · exact ih piece (List.mem_cons_of_mem _ hpiece) b hb

theorem formPieces_cons {pieces : List (List UInt8)} (h : formPieces body = piece :: pieces) :
    (body = piece ∧ pieces = []) ∨
      ∃ rest, body = piece ++ 0x26 :: rest ∧ formPieces rest = pieces := by
  induction body generalizing piece with
  | nil => cases h
  | cons byte body ih =>
    rw [formPieces] at h
    split_ifs at h with hamp
    · obtain ⟨rfl, rfl⟩ := List.cons.inj h
      exact .inr ⟨body, by rw [hamp, List.nil_append], rfl⟩
    · cases hpieces : formPieces body with
      | nil =>
        rw [hpieces] at h
        obtain ⟨rfl, rfl⟩ := List.cons.inj h
        have hempty : body = [] := by
          cases body with
          | nil => rfl
          | cons next body =>
            rw [formPieces] at hpieces
            split_ifs at hpieces
            split at hpieces <;> cases hpieces
        exact .inl ⟨by rw [hempty], rfl⟩
      | cons first others =>
        rw [hpieces] at h
        obtain ⟨rfl, rfl⟩ := List.cons.inj h
        rcases ih hpieces with ⟨rfl, rfl⟩ | ⟨rest, rfl, hrest⟩
        · exact .inl ⟨rfl, rfl⟩
        · exact .inr ⟨rest, rfl, hrest⟩

end Pieces

/-! ### Fields -/

/-- A piece is a field: a name, an equals sign and a value, both encoded. -/
def IsField (piece key value : List UInt8) (capacity : ℕ) : Prop :=
  ∃ name text, piece = name ++ 0x3d :: text ∧ (∀ b ∈ name, b ≠ 0x3d) ∧
    decodeFormComponent keyCapacity 0 name = some key ∧
    decodeFormComponent capacity 0 text = some value

section Fields

variable {form form' : WifiForm} {piece : List UInt8}

theorem readPiece_append {name text : List UInt8} (hname : ∀ b ∈ name, b ≠ 0x3d) :
    form.readPiece (name ++ 0x3d :: text) =
      match decodeFormComponent keyCapacity 0 name with
      | none => none
      | some key =>
        if key = ssidKey then
          if form.sawSsid = true then none
          else
            (decodeFormComponent ssidCapacity 0 text).map fun ssid =>
              { form with credentials := { form.credentials with ssid := ssid }, sawSsid := true }
        else if key = passwordKey then
          if form.sawPassword = true then none
          else
            (decodeFormComponent passwordCapacity 0 text).map fun password =>
              { form with
                credentials := { form.credentials with password := password }
                sawPassword := true }
        else none := by
  have htake : (name ++ 0x3d :: text).takeWhile (· ≠ 0x3d) = name := by
    rw [List.takeWhile_append_of_pos (fun b hb => by simpa using hname b hb),
      List.takeWhile_cons_of_neg (by simp), List.append_nil]
  have hdrop : (name ++ 0x3d :: text).drop (name.length + 1) = text := by
    rw [List.drop_append, Nat.add_sub_cancel_left, List.drop_eq_nil_of_le (Nat.le_add_right _ _)]
    rfl
  unfold WifiForm.readPiece
  dsimp only
  rw [htake, hdrop, if_neg (by simp)]
  cases text with
  | nil =>
    -- An empty password is stored without the decoder, which has the same result.
    rw [if_pos rfl, decodeFormComponent, decodeFormComponent]
    rfl
  | cons byte text =>
    rw [if_neg (List.cons_ne_nil byte text)]
    all_goals rfl

theorem exists_name (h : (piece.takeWhile (· ≠ 0x3d)).length ≠ piece.length) :
    ∃ name text, piece = name ++ 0x3d :: text ∧ ∀ b ∈ name, b ≠ 0x3d := by
  have hsplit := List.takeWhile_append_dropWhile (p := (· ≠ 0x3d)) (l := piece)
  have hname : ∀ b ∈ piece.takeWhile (· ≠ 0x3d), b ≠ 0x3d := by
    intro b hb
    simpa using List.mem_takeWhile_imp hb
  cases hrest : piece.dropWhile (· ≠ 0x3d) with
  | nil =>
    rw [hrest, List.append_nil] at hsplit
    exact absurd (congrArg List.length hsplit) h
  | cons byte text =>
    have hbyte : byte = 0x3d := by
      have hhead := List.head_dropWhile_not (· ≠ (0x3d : UInt8)) (by rw [hrest]; nofun)
      simp only [hrest, List.head_cons] at hhead
      simpa using hhead
    rw [hrest, hbyte] at hsplit
    exact ⟨_, text, hsplit.symm, hname⟩

/-- **A field** that is read is one of the two, and it was not read before. -/
theorem readPiece_some (h : form.readPiece piece = some form') :
    (form.sawSsid = false ∧ ∃ ssid, IsField piece ssidKey ssid ssidCapacity ∧
      form' = ⟨⟨ssid, form.credentials.password⟩, true, form.sawPassword⟩) ∨
    (form.sawPassword = false ∧ ∃ password, IsField piece passwordKey password passwordCapacity ∧
      form' = ⟨⟨form.credentials.ssid, password⟩, form.sawSsid, true⟩) := by
  have hequals : (piece.takeWhile (· ≠ 0x3d)).length ≠ piece.length := by
    intro hequals
    unfold WifiForm.readPiece at h
    dsimp only at h
    rw [if_pos hequals] at h
    cases h
  obtain ⟨name, text, rfl, hname⟩ := exists_name hequals
  rw [readPiece_append hname] at h
  cases hkey : decodeFormComponent keyCapacity 0 name with
  | none =>
    rw [hkey] at h
    cases h
  | some key =>
    rw [hkey] at h
    dsimp only at h
    split_ifs at h with hssid hsaw hpassword hsaw
    · obtain ⟨ssid, htext, rfl⟩ := Option.map_eq_some_iff.mp h
      exact .inl ⟨eq_false_of_ne_true hsaw, ssid,
        ⟨name, text, rfl, hname, hssid ▸ hkey, htext⟩, rfl⟩
    · obtain ⟨password, htext, rfl⟩ := Option.map_eq_some_iff.mp h
      exact .inr ⟨eq_false_of_ne_true hsaw, password,
        ⟨name, text, rfl, hname, hpassword ▸ hkey, htext⟩, rfl⟩

end Fields

/-! ### Requests -/

/-- The credentials that the form can hold. -/
structure FormCredentials (credentials : Credentials) : Prop where
  one_le_ssid : 1 ≤ credentials.ssid.length
  ssid_le : credentials.ssid.length ≤ 32
  password : credentials.password.length = 0 ∨
    8 ≤ credentials.password.length ∧ credentials.password.length ≤ 63
  ssid_printable : credentials.ssid.all printable = true
  password_printable : credentials.password.all printable = true

/-- Each of the two fields once, in either order, and nothing else but an ampersand at the end. -/
def HasFields (body : List UInt8) (credentials : Credentials) : Prop :=
  ∃ first second, (body = first ++ 0x26 :: second ∨ body = first ++ 0x26 :: (second ++ [0x26])) ∧
    (∀ b ∈ first, b ≠ 0x26) ∧ (∀ b ∈ second, b ≠ 0x26) ∧
    (IsField first ssidKey credentials.ssid ssidCapacity ∧
        IsField second passwordKey credentials.password passwordCapacity ∨
      IsField first passwordKey credentials.password passwordCapacity ∧
        IsField second ssidKey credentials.ssid ssidCapacity)

section Requests

variable {credentials : Credentials} {body : List UInt8}

theorem formPieces_two {first second : List UInt8} (h : formPieces body = [first, second]) :
    body = first ++ 0x26 :: second ∨ body = first ++ 0x26 :: (second ++ [0x26]) := by
  rcases formPieces_cons h with ⟨-, hnil⟩ | ⟨rest, rfl, hrest⟩
  · cases hnil
  · rcases formPieces_cons hrest with ⟨rfl, -⟩ | ⟨last, rfl, hlast⟩
    · exact .inl rfl
    · have hempty : last = [] := by
        cases last with
        | nil => rfl
        | cons byte last =>
          rw [formPieces] at hlast
          split_ifs at hlast
          split at hlast <;> cases hlast
      exact .inr (by rw [hempty])

/-- Both fields are read after two pieces, and no third piece is read. -/
theorem fields_of_foldlM {pieces : List (List UInt8)} {form : WifiForm}
    (h : pieces.foldlM WifiForm.readPiece ⟨⟨[], []⟩, false, false⟩ = some form)
    (hssid : form.sawSsid = true) (hpassword : form.sawPassword = true) :
    ∃ first second, pieces = [first, second] ∧
      (IsField first ssidKey form.credentials.ssid ssidCapacity ∧
          IsField second passwordKey form.credentials.password passwordCapacity ∨
        IsField first passwordKey form.credentials.password passwordCapacity ∧
          IsField second ssidKey form.credentials.ssid ssidCapacity) := by
  have hthird : ∀ (pieces : List (List UInt8)) (credentials : Credentials),
      pieces.foldlM WifiForm.readPiece ⟨credentials, true, true⟩ = some form →
        pieces = [] ∧ form.credentials = credentials := by
    intro pieces credentials hrest
    cases pieces with
    | nil =>
      obtain rfl := Option.some.inj hrest
      exact ⟨rfl, rfl⟩
    | cons third pieces =>
      rw [List.foldlM_cons, Option.bind_eq_bind, Option.bind_eq_some_iff] at hrest
      obtain ⟨_, hread, -⟩ := hrest
      rcases readPiece_some hread with ⟨hsaw, -⟩ | ⟨hsaw, -⟩
      · cases hsaw
      · cases hsaw
  cases pieces with
  | nil =>
    obtain rfl := Option.some.inj h
    cases hssid
  | cons first pieces =>
    rw [List.foldlM_cons, Option.bind_eq_bind, Option.bind_eq_some_iff] at h
    obtain ⟨one, hfirst, h⟩ := h
    cases pieces with
    | nil =>
      obtain rfl := Option.some.inj h
      rcases readPiece_some hfirst with ⟨-, _, -, rfl⟩ | ⟨-, _, -, rfl⟩
      · cases hpassword
      · cases hssid
    | cons second pieces =>
      rw [List.foldlM_cons, Option.bind_eq_bind, Option.bind_eq_some_iff] at h
      obtain ⟨two, hsecond, h⟩ := h
      rcases readPiece_some hfirst with ⟨-, ssid, hfield, rfl⟩ | ⟨-, password, hfield, rfl⟩
      · rcases readPiece_some hsecond with ⟨hsaw, -⟩ | ⟨-, password, hfield', rfl⟩
        · cases hsaw
        · obtain ⟨rfl, hcredentials⟩ := hthird pieces _ h
          rw [hcredentials]
          exact ⟨first, second, rfl, .inl ⟨hfield, hfield'⟩⟩
      · rcases readPiece_some hsecond with ⟨-, ssid, hfield', rfl⟩ | ⟨hsaw, -⟩
        · obtain ⟨rfl, hcredentials⟩ := hthird pieces _ h
          rw [hcredentials]
          exact ⟨first, second, rfl, .inr ⟨hfield, hfield'⟩⟩
        · cases hsaw

/-- **What is accepted** has each field once. -/
theorem hasFields_of_ok (h : parseWifiRequest body = .ok credentials) :
    HasFields body credentials := by
  unfold parseWifiRequest at h
  split_ifs at h
  cases hfold : (formPieces body).foldlM WifiForm.readPiece ⟨⟨[], []⟩, false, false⟩ with
  | none =>
    rw [hfold] at h
    cases h
  | some form =>
    rw [hfold] at h
    dsimp only at h
    split_ifs at h with hsaw
    obtain rfl := Except.ok.inj h
    simp only [not_or, Bool.not_eq_false] at hsaw
    obtain ⟨first, second, hpieces, hfields⟩ := fields_of_foldlM hfold hsaw.1 hsaw.2
    have hne : ∀ piece ∈ [first, second], ∀ b ∈ piece, b ≠ 0x26 := hpieces ▸ formPieces_ne
    exact ⟨first, second, formPieces_two hpieces, hne first (by simp), hne second (by simp),
      hfields⟩

theorem ssidKey_ne : ∀ b ∈ ssidKey, b ≠ 0x26 ∧ b ≠ 0x3d := by
  simp [ssidKey]

theorem passwordKey_ne : ∀ b ∈ passwordKey, b ≠ 0x26 ∧ b ≠ 0x3d := by
  simp [passwordKey]

theorem formBody_pieces (credentials : Credentials) :
    formPieces (formBody credentials) =
      [ssidKey ++ 0x3d :: credentials.ssid.flatMap encodeFormByte,
        passwordKey ++ 0x3d :: credentials.password.flatMap encodeFormByte] := by
  have hfield : ∀ (key text : List UInt8), (∀ b ∈ key, b ≠ 0x26 ∧ b ≠ 0x3d) →
      ∀ b ∈ key ++ 0x3d :: text.flatMap encodeFormByte, b ≠ 0x26 := by
    intro key text hkey b hb
    rcases List.mem_append.mp hb with hb | hb
    · exact (hkey b hb).1
    · rcases List.mem_cons.mp hb with rfl | hb
      · decide
      · exact (encodeForm_ne text b hb).1
  unfold formBody
  rw [formPieces_append (hfield _ _ ssidKey_ne), formPieces_last (hfield _ _ passwordKey_ne)
    (List.append_ne_nil_of_right_ne_nil _ (List.cons_ne_nil _ _))]

/-- **A form that fits** is accepted, and it yields what was entered. -/
theorem parseWifiRequest_of_le (h : FormCredentials credentials)
    (hsize : (formBody credentials).length ≤ 256) :
    parseWifiRequest (formBody credentials) = .ok credentials := by
  have hpassword := h.password
  have hssid : (⟨⟨[], []⟩, false, false⟩ : WifiForm).readPiece
      (ssidKey ++ 0x3d :: credentials.ssid.flatMap encodeFormByte) =
        some ⟨⟨credentials.ssid, []⟩, true, false⟩ := by
    rw [readPiece_append fun b hb => (ssidKey_ne b hb).2,
      show decodeFormComponent keyCapacity 0 ssidKey = some ssidKey by rfl,
      decodeFormComponent_encode h.ssid_printable]
    · rfl
    · have hle := h.ssid_le
      show 0 + credentials.ssid.length < 33
      omega
  have hsecond : (⟨⟨credentials.ssid, []⟩, true, false⟩ : WifiForm).readPiece
      (passwordKey ++ 0x3d :: credentials.password.flatMap encodeFormByte) =
        some ⟨credentials, true, true⟩ := by
    have hdecode : decodeFormComponent passwordCapacity 0
        (credentials.password.flatMap encodeFormByte) = some credentials.password := by
      refine decodeFormComponent_encode h.password_printable ?_
      show 0 + credentials.password.length < 64
      omega
    rw [readPiece_append fun b hb => (passwordKey_ne b hb).2,
      show decodeFormComponent keyCapacity 0 passwordKey = some passwordKey by rfl, hdecode]
    rfl
  have hfold : (formPieces (formBody credentials)).foldlM WifiForm.readPiece
      ⟨⟨[], []⟩, false, false⟩ = some ⟨credentials, true, true⟩ := by
    rw [formBody_pieces, List.foldlM_cons, hssid]
    show List.foldlM WifiForm.readPiece ⟨⟨credentials.ssid, []⟩, true, false⟩ [_] = _
    rw [List.foldlM_cons, hsecond]
    rfl
  have hone := h.one_le_ssid
  have hle := h.ssid_le
  unfold parseWifiRequest
  rw [if_neg, hfold]
  · show (if credentials.ssid.length = 0 ∨ 33 ≤ credentials.ssid.length then _ else
      if credentials.password.length ≠ 0 ∧ credentials.password.length < 8 then _ else _) = _
    rw [if_neg (by omega), if_neg (by omega)]
  · have hpos : 0 < (formBody credentials).length := by
      rw [formBody]
      simp [ssidKey]
    show ¬((formBody credentials).length = 0 ∨ 256 < (formBody credentials).length)
    omega

/-- **The round trip**: a form with credentials that the page takes is accepted exactly when its
body fits, and it then yields these credentials. What is accepted has each field once, and nothing
else. -/
theorem parseWifiRequest_round (credentials : Credentials) :
    (FormCredentials credentials →
      (parseWifiRequest (formBody credentials) = .ok credentials ↔
        (formBody credentials).length ≤ 256)) ∧
      ∀ body, parseWifiRequest body = .ok credentials → HasFields body credentials := by
  refine ⟨?_, fun body h => hasFields_of_ok h⟩
  intro hform
  refine ⟨?_, parseWifiRequest_of_le hform⟩
  intro hok
  unfold parseWifiRequest at hok
  split_ifs at hok with hsize
  have hle : ¬256 < (formBody credentials).length := fun h => hsize (.inr h)
  omega

/-- The round trip of a name with a space and an ampersand, and of a password of equals signs. -/
theorem parseWifiRequest_round_sample :
    let credentials : Credentials := ⟨[0x61, 0x20, 0x26], List.replicate 8 0x3d⟩
    parseWifiRequest (formBody credentials) = .ok credentials ∧
      HasFields (formBody credentials) credentials := by
  have hform : FormCredentials ⟨[0x61, 0x20, 0x26], List.replicate 8 0x3d⟩ :=
    ⟨by decide, by decide, .inr ⟨by decide, by decide⟩, by decide, by decide⟩
  have hok := ((parseWifiRequest_round _).1 hform).mpr (by decide)
  exact ⟨hok, (parseWifiRequest_round _).2 _ hok⟩

/-- A name of thirty-two bytes and a password of sixty-three bytes that are all encoded. -/
def longCredentials : Credentials :=
  ⟨List.replicate 32 0xff, List.replicate 63 0xff⟩

/-- The body for them has three hundred bytes. -/
theorem parseWifiRequest_long :
    FormCredentials longCredentials ∧ (formBody longCredentials).length = 300 ∧
      parseWifiRequest (formBody longCredentials) = .error .malformed := by
  have hencoded : ∀ n, ((List.replicate n 0xff).flatMap encodeFormByte).length = n * 3 := by
    intro n
    rw [List.length_flatMap, List.map_replicate, List.sum_replicate_nat]
    rfl
  have hlength : (formBody longCredentials).length = 300 := by
    rw [formBody, longCredentials, List.length_append, List.length_append, List.length_cons,
      List.length_cons, List.length_append, List.length_cons, hencoded, hencoded]
    rfl
  refine ⟨⟨?_, ?_, .inr ⟨?_, ?_⟩, ?_, ?_⟩, hlength, if_pos (.inr ?_)⟩
  · decide
  · decide
  · rw [longCredentials, List.length_replicate]
    decide
  · rw [longCredentials, List.length_replicate]
  · rfl
  · rfl
  · rw [hlength]
    decide

end Requests

end RlcdDeck.WifiSetup
