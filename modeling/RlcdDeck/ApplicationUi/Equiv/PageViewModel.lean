import RlcdDeck.AiSnapshot.Equiv.Shown
import RlcdDeck.ApplicationUi.PageViewModel

/-!
# Every page can be shown

The selection is a provider of the pages, and it stays the same while its provider is there.  The
text of a page fits into 1024 bytes and 13 lines (`pageModel_total`): each function of the writer
`Runs` from a writer within some bytes and lines to one within more of them.
-/

namespace RlcdDeck.ApplicationUi

open AiSnapshot
open Json (Bytes bytes decimalText)
open Document (characterSize)

/-! ### Texts that fit -/

/-- A text of at most `n` bytes with at most `k` line feeds, and without a NUL. -/
structure Fits (n k : ℕ) (text : Bytes) : Prop where
  length : text.length ≤ n
  lines : text.count 0x0a ≤ k
  nul : 0 ∉ text

section Fits

variable {n m k j value : ℕ} {a b text : Bytes}

theorem Fits.append (ha : Fits n k a) (hb : Fits m j b) : Fits (n + m) (k + j) (a ++ b) := by
  have hlength := ha.length
  have hlength' := hb.length
  have hlines := ha.lines
  have hlines' := hb.lines
  constructor
  · rw [List.length_append]
    omega
  · rw [List.count_append]
    omega
  · rw [List.mem_append, not_or]
    exact ⟨ha.nul, hb.nul⟩

theorem Fits.mono (h : Fits n k text) (hn : n ≤ m) (hk : k ≤ j) : Fits m j text :=
  ⟨h.length.trans hn, h.lines.trans hk, h.nul⟩

theorem fits_of_ge (h : ∀ byte ∈ text, 0x20 ≤ byte.toNat) (hlength : text.length ≤ n) :
    Fits n 0 text := by
  refine ⟨hlength, ?_, fun hmem => ?_⟩
  · rw [Nat.le_zero, List.count_eq_zero]
    exact fun hmem => absurd (h _ hmem) (by decide)
  · exact absurd (h _ hmem) (by decide)

theorem fits_bytes (s : String)
    (h : ((bytes s).all fun byte => decide (0x20 ≤ byte.toNat)) = true) :
    Fits (bytes s).length 0 (bytes s) :=
  fits_of_ge (fun byte hbyte => of_decide_eq_true (List.all_eq_true.mp h byte hbyte)) le_rfl

theorem fits_nil : Fits 0 0 [] := ⟨le_rfl, le_rfl, List.not_mem_nil⟩

theorem fits_newline : Fits 1 1 newline := ⟨le_rfl, le_rfl, by decide⟩

theorem fits_replicate {byte : UInt8} (h : 0x20 ≤ byte.toNat) :
    Fits n 0 (List.replicate n byte) := by
  refine fits_of_ge (fun b hb => ?_) (List.length_replicate ..).le
  rw [List.eq_of_mem_replicate hb]
  exact h

theorem fits_divider : Fits 40 0 divider := fits_replicate (by decide)

theorem fits_decimal (hpos : 0 < n) (h : value < 10 ^ n) : Fits n 0 (decimalText value) := by
  refine fits_of_ge (fun byte hbyte => ?_) ?_
  · have hdigit := Json.isDigit_decimalText hbyte
    simp only [Json.isDigit, Bool.and_eq_true, decide_eq_true_eq] at hdigit
    omega
  · rw [decimalText, List.length_map]
    exact (Nat.length_toDigits_le_iff (by decide) hpos).mpr h

theorem fits_twoDigits (htwo : 2 ≤ n) (h : value < 10 ^ n) : Fits n 0 (twoDigits value) := by
  unfold twoDigits
  split_ifs with hlt
  · have hdigit : Fits 1 0 (decimalText value) := fits_decimal (by decide) (by omega)
    have hzero : Fits 1 0 [0x30] := @fits_replicate 1 0x30 (by decide)
    exact (hzero.append hdigit).mono htwo le_rfl
  · exact fits_decimal (by omega) h

theorem fits_compactCount (h : value < 2 ^ 64) : Fits 14 0 (compactCount value) := by
  have hone : ∀ n, Fits 1 0 (decimalText (n % 10)) := fun n =>
    fits_decimal (by decide) (Nat.mod_lt n (by decide))
  have hpoint : Fits 1 0 (bytes ".") := fits_bytes "." rfl
  unfold compactCount
  split_ifs with hB hM hK hk
  · have hhead : Fits 11 0 (decimalText (value / 1000000000)) := fits_decimal (by decide) (by omega)
    exact ((hhead.append hpoint).append (hone _)).append (fits_bytes "B" rfl)
  · have hhead : Fits 3 0 (decimalText (value / 1000000)) := fits_decimal (by decide) (by omega)
    exact (((hhead.append hpoint).append (hone _)).append (fits_bytes "M" rfl)).mono (by decide)
      le_rfl
  · have hhead : Fits 3 0 (decimalText (value / 1000)) := fits_decimal (by decide) (by omega)
    exact (hhead.append (fits_bytes "K" rfl)).mono (by decide) le_rfl
  · have hhead : Fits 3 0 (decimalText (value / 1000)) := fits_decimal (by decide) (by omega)
    exact (((hhead.append hpoint).append (hone _)).append (fits_bytes "K" rfl)).mono (by decide)
      le_rfl
  · have hall : Fits 3 0 (decimalText value) := fits_decimal (by decide) (by omega)
    exact hall.mono (by decide) le_rfl

theorem fits_durationText (seconds : ℕ) : Fits 7 0 (durationText seconds) := by
  have htwo : ∀ n, n < 100 → Fits 2 0 (decimalText n) := fun n hn => fits_decimal (by decide) hn
  unfold durationText
  split_ifs with hday hhour hminute
  · dsimp only
    split_ifs with hmany
    · exact (fits_bytes "999d+" rfl).mono (by decide) le_rfl
    · have hdays : Fits 3 0 (decimalText (seconds / 86400)) := fits_decimal (by decide) (by omega)
      have hhours : Fits 2 0 (twoDigits (seconds / 3600 % 24)) := fits_twoDigits le_rfl (by omega)
      exact ((hdays.append (fits_bytes "d" rfl)).append hhours).append (fits_bytes "h" rfl)
  · have hminutes : Fits 2 0 (twoDigits (seconds / 60 % 60)) := fits_twoDigits le_rfl (by omega)
    exact ((((htwo _ (by omega)).append (fits_bytes "h" rfl)).append hminutes).append
      (fits_bytes "m" rfl)).mono (by decide) le_rfl
  · exact ((htwo _ (by omega)).append (fits_bytes "m" rfl)).mono (by decide) le_rfl
  · exact ((htwo _ (by omega)).append (fits_bytes "s" rfl)).mono (by decide) le_rfl

end Fits

/-! ### Names -/

section Names

variable {capacity maximumCells factor fuel written cells : ℕ} {uppercaseAscii : Bool}
  {first : UInt8} {input : Bytes}

theorem utf8SequenceSize_eq {n : ℕ} (h : characterSize first = some n) :
    utf8SequenceSize first = n := by
  by_cases hlt : first.toNat < 0x80
  · rw [characterSize_ascii hlt] at h
    obtain rfl := Option.some.inj h
    exact if_pos (UInt8.lt_iff_toNat_lt.mpr hlt)
  · have hnot : ¬first < 0x80 := fun hless => hlt (UInt8.lt_iff_toNat_lt.mp hless)
    unfold characterSize at h
    unfold utf8SequenceSize
    rw [if_neg hnot]
    split_ifs at h ⊢
    · exact Option.some.inj h
    · exact Option.some.inj h
    · exact Option.some.inj h
    · next hge => exact absurd (UInt8.not_lt.mp hnot) hge

theorem upperCase_ge (h : 0x20 ≤ first.toNat) : 0x20 ≤ (upperCase first).toNat := by
  unfold upperCase
  split_ifs with hlower
  · have hmin : 0x61 ≤ first.toNat := UInt8.le_iff_toNat_le.mp hlower.1
    have hle : (0x20 : UInt8) ≤ first := UInt8.le_iff_toNat_le.mpr h
    rw [UInt8.toNat_sub_of_le _ _ hle]
    show 0x20 ≤ first.toNat - 0x20
    omega
  · exact h

/-- A character takes at most `factor` bytes for each of its cells. -/
def Narrow (factor : ℕ) (character : Bytes) : Prop :=
  Shown character ∧ character.length ≤ factor * if character.length = 1 then 1 else 2

/-- **The loop** does not run out of room if the array holds `factor` bytes for each cell. -/
theorem displayTextLoop_spec {characters : List Bytes}
    (hall : ∀ character ∈ characters, Narrow factor character)
    (hfuel : characters.flatten.length ≤ fuel) (hcells : cells ≤ maximumCells)
    (hwritten : written ≤ factor * cells) (hcapacity : factor * maximumCells < capacity) :
    ∃ text, displayTextLoop capacity maximumCells uppercaseAscii fuel written cells
        characters.flatten = some text ∧
      written + text.length ≤ factor * maximumCells ∧ (∀ byte ∈ text, 0x20 ≤ byte.toNat) ∧
      (characters ≠ [] → cells + 2 ≤ maximumCells → text ≠ []) := by
  induction characters generalizing fuel written cells with
  | nil =>
    have hle := Nat.mul_le_mul_left factor hcells
    refine ⟨[], ?_, ?_, fun _ hmem => absurd hmem List.not_mem_nil, fun hne => absurd rfl hne⟩
    · rw [List.flatten_nil, displayTextLoop]
    · rw [List.length_nil]
      omega
  | cons character characters ih =>
    rw [List.forall_mem_cons] at hall
    obtain ⟨⟨⟨first, rest, rfl, hge, hsize, htail⟩, hnarrow⟩, hall⟩ := hall
    have hsequence := utf8SequenceSize_eq hsize
    rw [List.flatten_cons, List.length_append, List.length_cons] at hfuel
    rw [List.length_cons] at hnarrow
    obtain ⟨fuel, rfl⟩ : ∃ more, fuel = more + 1 := ⟨fuel - 1, by omega⟩
    have hplain : ¬(rest.length < rest.length ∨ ∃ byte ∈ rest, byte &&& 0xc0 ≠ 0x80) := by
      rintro (hshort | ⟨byte, hmem, hne⟩)
      · exact absurd hshort (Nat.lt_irrefl _)
      · exact hne (htail byte hmem)
    rw [List.flatten_cons, List.cons_append, displayTextLoop, hsequence]
    dsimp only
    rw [if_neg (Nat.succ_ne_zero _), Nat.add_sub_cancel, List.take_left, List.drop_left,
      if_neg hplain]
    generalize hwidth : (if rest.length + 1 = 1 then 1 else 2) = width at hnarrow ⊢
    have htwo : width ≤ 2 := by
      rw [← hwidth]
      split_ifs <;> omega
    by_cases hfull : maximumCells < cells + width
    · rw [if_pos hfull]
      refine ⟨[], rfl, ?_, fun _ hmem => absurd hmem List.not_mem_nil, fun _ hfits => ?_⟩
      · have hle := Nat.mul_le_mul_left factor hcells
        rw [List.length_nil]
        omega
      · omega
    · have hle := Nat.mul_le_mul_left factor (Nat.not_lt.mp hfull)
      rw [Nat.mul_add] at hle
      obtain ⟨text, htext, hlength, hbytes, -⟩ := @ih fuel (written + (rest.length + 1))
        (cells + width) hall (by omega) (by omega) (by rw [Nat.mul_add]; omega)
      rw [if_neg hfull, if_neg (by omega), htext]
      split_ifs with hupper
      · refine ⟨upperCase first :: text, rfl, ?_, ?_, fun _ _ => List.cons_ne_nil _ _⟩
        · rw [List.length_cons]
          omega
        · rw [List.forall_mem_cons]
          exact ⟨upperCase_ge hge, hbytes⟩
      · refine ⟨first :: rest ++ text, rfl, ?_, ?_, fun _ _ => List.cons_ne_nil _ _⟩
        · rw [List.length_append, List.length_cons]
          omega
        · intro byte hbyte
          rcases List.mem_append.mp hbyte with hbyte | hbyte
          · exact Shown.ge ⟨first, rest, rfl, hge, hsize, htail⟩ hbyte
          · exact hbytes byte hbyte

/-- **A name** is shown in an array with room for `factor` bytes in each cell. -/
theorem displayText_spec {characters : List Bytes} (hne : characters ≠ [])
    (hall : ∀ character ∈ characters, Narrow factor character) (htwo : 2 ≤ maximumCells)
    (hcapacity : factor * maximumCells < capacity) :
    ∃ text, displayText characters.flatten capacity maximumCells uppercaseAscii = some text ∧
      Fits (factor * maximumCells) 0 text := by
  obtain ⟨text, htext, hlength, hbytes, hnonempty⟩ := @displayTextLoop_spec capacity maximumCells
    factor characters.flatten.length 0 0 uppercaseAscii characters hall le_rfl (Nat.zero_le _)
    (Nat.zero_le _) hcapacity
  rw [Nat.zero_add] at hlength
  refine ⟨text, ?_, fits_of_ge hbytes hlength⟩
  unfold displayText
  rw [htext]
  cases text with
  | nil => exact absurd rfl (hnonempty hne (by omega))
  | cons byte text => rfl

theorem displayText_shown (h : ShownText input) (htwo : 2 ≤ maximumCells)
    (hcapacity : 2 * maximumCells < capacity) :
    ∃ text, displayText input capacity maximumCells uppercaseAscii = some text ∧
      Fits (2 * maximumCells) 0 text := by
  obtain ⟨characters, rfl, hne, hall⟩ := h
  refine displayText_spec hne (fun character hmem => ⟨hall character hmem, ?_⟩) htwo hcapacity
  obtain ⟨first, rest, rfl, -, hsize, -⟩ := hall character hmem
  unfold characterSize at hsize
  rw [List.length_cons]
  split_ifs at hsize ⊢
  all_goals
    have hlength := Option.some.inj hsize
    omega

theorem displayText_plain (h : PlainAscii input) (htwo : 2 ≤ maximumCells)
    (hcapacity : maximumCells < capacity) :
    ∃ text, displayText input capacity maximumCells uppercaseAscii = some text ∧
      Fits maximumCells 0 text := by
  have hnarrow : ∀ character ∈ input.map fun byte => [byte], Narrow 1 character := by
    intro character hmem
    obtain ⟨byte, hbyte, rfl⟩ := List.mem_map.mp hmem
    exact ⟨shown_ascii (h.2 byte hbyte).1 (h.2 byte hbyte).2, le_rfl⟩
  have hne : (input.map fun byte => [byte]) ≠ [] := by simpa using h.1
  have hspec := @displayText_spec capacity maximumCells 1 uppercaseAscii _ hne hnarrow htwo
    (by omega)
  have hflatten : (input.map fun byte => [byte]).flatten = input := List.flatMap_singleton' input
  rwa [hflatten, Nat.one_mul] at hspec

end Names

/-! ### Writers -/

/-- A writer within so many bytes and lines. -/
structure Held (n k : ℕ) (writer : Writer) : Prop where
  capacity : writer.capacity = 1024
  length : writer.text.length ≤ n
  lines : writer.lines = writer.text.count 0x0a + 1
  lines_le : writer.lines ≤ k
  nul : 0 ∉ writer.text

/-- A function of the writer succeeds from within `n` bytes and `k` lines and ends within `m` bytes
and `j` lines. -/
def Runs (f : Writer → Option Writer) (n k m j : ℕ) : Prop :=
  ∀ writer, Held n k writer → ∃ writer', f writer = some writer' ∧ Held m j writer'

section Writers

variable {n k m j p q : ℕ} {text : Bytes} {f g : Writer → Option Writer}

theorem Held.mono {writer : Writer} (h : Held n k writer) (hn : n ≤ m) (hk : k ≤ j) :
    Held m j writer :=
  ⟨h.capacity, h.length.trans hn, h.lines, h.lines_le.trans hk, h.nul⟩

theorem runs_append (h : Fits m j text) (hroom : n + m < 1024) (hlines : k + j ≤ 13) :
    Runs (append · text) n k (n + m) (k + j) := by
  intro writer hheld
  have hlength := hheld.length
  have hlength' := h.length
  have hle := hheld.lines_le
  have hcount := h.lines
  have hmax : writer.lines + text.count 0x0a ≤ pageMaxLines := by
    show _ ≤ 13
    omega
  refine ⟨{ writer with text := writer.text ++ text, lines := writer.lines + text.count 0x0a },
    ?_, ?_⟩
  · show append writer text = _
    unfold append
    rw [hheld.capacity, if_neg (by omega), if_neg (by omega)]
    exact if_pos hmax
  · refine ⟨hheld.capacity, ?_, ?_, ?_, ?_⟩
    · rw [List.length_append]
      omega
    · show writer.lines + text.count 0x0a = (writer.text ++ text).count 0x0a + 1
      rw [List.count_append, hheld.lines]
      omega
    · dsimp only
      omega
    · rw [List.mem_append, not_or]
      exact ⟨hheld.nul, h.nul⟩

theorem Runs.bind (hf : Runs f n k m j) (hg : Runs g m j p q) :
    Runs (fun writer => (f writer).bind g) n k p q := by
  intro writer hheld
  obtain ⟨writer', hwriter', hheld'⟩ := hf writer hheld
  dsimp only
  rw [hwriter', Option.bind_some]
  exact hg writer' hheld'

theorem Runs.mono (h : Runs f n k m j) (hm : m ≤ p) (hj : j ≤ q) : Runs f n k p q := by
  intro writer hheld
  obtain ⟨writer', hwriter', hheld'⟩ := h writer hheld
  exact ⟨writer', hwriter', hheld'.mono hm hj⟩

theorem runs_some (hm : n ≤ m) (hj : k ≤ j) : Runs some n k m j :=
  fun writer hheld => ⟨writer, rfl, hheld.mono hm hj⟩

theorem Runs.guarded {limit : ℕ} (hf : ∀ k, k < limit → Runs f n k m (k + 1)) (hm : n ≤ m)
    (hlimit : limit ≤ j) :
    Runs (fun writer => if writer.lines < limit then f writer else some writer) n j m j := by
  intro writer hheld
  dsimp only
  split_ifs with hlt
  · obtain ⟨writer', hwriter', hheld'⟩ := hf writer.lines hlt writer
      ⟨hheld.capacity, hheld.length, hheld.lines, le_rfl, hheld.nul⟩
    exact ⟨writer', hwriter', hheld'.mono le_rfl (by omega)⟩
  · exact ⟨writer, rfl, hheld.mono hm le_rfl⟩

end Writers

/-! ### The parts of a page -/

section Parts

variable {model : PageModel} {n k : ℕ}

theorem fits_timeText : Fits 7 0 model.timeText := by
  have hbyte : ∀ byte : UInt8, Fits 3 0 (twoDigits byte.toNat) := fun byte =>
    fits_twoDigits (by decide) (lt_trans byte.toNat_lt (by decide))
  have hcolon : Fits 1 0 (bytes ":") := fits_bytes ":" rfl
  unfold PageModel.timeText
  dsimp only
  generalize (if model.pages.hasTimezone = true then some model.pages.timezone
    else if model.codex.hasTimezone = true then some model.codex.timezone else none).bind _ = time
  cases time with
  | some time => exact ((hbyte _).append hcolon).append (hbyte _)
  | none =>
    dsimp only
    split_ifs
    · exact ((hbyte _).append hcolon).append (hbyte _)
    · exact (fits_bytes "--:--" rfl).mono (by decide) le_rfl

theorem fits_temperatureText : Fits 8 0 model.temperatureText := by
  unfold PageModel.temperatureText
  split_ifs
  · have hmin := model.calibratedTemperatureTenthsC.le_toInt
    have hmax := model.calibratedTemperatureTenthsC.toInt_lt
    generalize model.calibratedTemperatureTenthsC.toInt = signedValue at hmin hmax ⊢
    dsimp only
    have hmagnitude : signedValue.natAbs ≤ 32768 := by omega
    have hsign : Fits 1 0 (if signedValue < 0 then bytes "-" else bytes "+") := by
      split_ifs
      · exact fits_bytes "-" rfl
      · exact fits_bytes "+" rfl
    have hwhole : Fits 4 0 (decimalText (signedValue.natAbs / 10)) :=
      fits_decimal (by decide) (by omega)
    have htenth : Fits 1 0 (decimalText (signedValue.natAbs % 10)) :=
      fits_decimal (by decide) (by omega)
    exact (((hsign.append hwhole).append (fits_bytes "." rfl)).append htenth).append
      (fits_bytes "C" rfl)
  · exact (fits_bytes "--.-C" rfl).mono (by decide) le_rfl

theorem fits_wifiText : Fits 5 0 model.wifiText := by
  unfold PageModel.wifiText
  split
  · split_ifs
    · have hbars : Fits 3 0 (decimalText model.wifiSignalBars.toNat) :=
        fits_decimal (by decide) (lt_trans model.wifiSignalBars.toNat_lt (by decide))
      exact hbars.append (fits_bytes "/4" rfl)
    · exact (fits_bytes "--" rfl).mono (by decide) le_rfl
  · exact (fits_bytes "OFF" rfl).mono (by decide) le_rfl
  · exact (fits_bytes "--" rfl).mono (by decide) le_rfl

theorem fits_companionName (state : CompanionState) : Fits 4 0 (companionName state) := by
  cases state with
  | unpaired => exact fits_bytes "NONE" rfl
  | offline => exact (fits_bytes "OFF" rfl).mono (by decide) le_rfl
  | connecting => exact fits_bytes "LINK" rfl
  | online => exact (fits_bytes "ON" rfl).mono (by decide) le_rfl

theorem fits_confidenceName (confidence : Confidence) :
    Fits 11 0 (confidenceName confidence) := by
  cases confidence with
  | verified => exact (fits_bytes "VERIFIED" rfl).mono (by decide) le_rfl
  | inferred => exact (fits_bytes "INFERRED" rfl).mono (by decide) le_rfl
  | unavailable => exact fits_bytes "UNAVAILABLE" rfl

theorem fits_providerStatusName (status : ProviderStatus) :
    Fits 11 0 (providerStatusName status) := by
  cases status with
  | ok => exact (fits_bytes "OK" rfl).mono (by decide) le_rfl
  | degraded => exact (fits_bytes "DEGRADED" rfl).mono (by decide) le_rfl
  | unavailable => exact fits_bytes "UNAVAILABLE" rfl

theorem fits_sessionStateName (state : SessionState) : Fits 16 0 (sessionStateName state) := by
  cases state with
  | running => exact (fits_bytes "RUNNING" rfl).mono (by decide) le_rfl
  | waitingApproval => exact fits_bytes "WAITING APPROVAL" rfl
  | waitingInput => exact (fits_bytes "WAITING INPUT" rfl).mono (by decide) le_rfl
  | completed => exact (fits_bytes "COMPLETED" rfl).mono (by decide) le_rfl
  | failed => exact (fits_bytes "FAILED" rfl).mono (by decide) le_rfl
  | recent => exact (fits_bytes "RECENT" rfl).mono (by decide) le_rfl
  | ended => exact (fits_bytes "ENDED" rfl).mono (by decide) le_rfl
  | unknown => exact (fits_bytes "UNKNOWN" rfl).mono (by decide) le_rfl
  | unavailable => exact (fits_bytes "UNAVAILABLE" rfl).mono (by decide) le_rfl

/-- **The status** takes two lines. -/
theorem runs_appendStatus : Runs (appendStatus model) 0 1 100 3 := by
  have hfits := (((((((((@fits_timeText model).append (fits_bytes "  " rfl)).append
    (@fits_temperatureText model)).append (fits_bytes "  WIFI " rfl)).append
    (@fits_wifiText model)).append (fits_bytes "  AGENT " rfl)).append
    (fits_companionName model.companionState)).append fits_newline).append fits_divider).append
    fits_newline
  exact (runs_append (hfits.mono (show _ ≤ 100 by decide) (show _ ≤ 2 by decide)) (by decide)
    (by decide)).mono (by decide) (by decide)

theorem fits_padded {text : Bytes} (h : Fits 8 0 text) : Fits 8 0 (padded text) := by
  have hlength := h.length
  have hspaces : Fits (8 - text.length) 0 (List.replicate (8 - text.length) 0x20) :=
    fits_replicate (by decide)
  have hexact : Fits text.length 0 text := ⟨le_rfl, h.lines, h.nul⟩
  exact (hexact.append hspaces).mono (by omega) le_rfl

theorem fits_windowBar (basisPoints : ℕ) : Fits 10 0 (windowBar basisPoints) := by
  unfold windowBar
  dsimp only
  generalize hfilled : min ((basisPoints + 500) / 1000) 10 = filled
  have hle : filled ≤ 10 := hfilled ▸ Nat.min_le_right _ _
  have hfull : Fits filled 0 (List.replicate filled 0x23) := fits_replicate (by decide)
  have hempty : Fits (10 - filled) 0 (List.replicate (10 - filled) 0x2d) :=
    fits_replicate (by decide)
  exact (hfull.append hempty).mono (by omega) le_rfl

theorem fits_windowTiming (window : QuotaProjection) (nowUtcMs : UInt64) :
    Fits 8 0 (windowTiming window nowUtcMs) := by
  unfold windowTiming
  extract_lets minutesText
  have hminutes : Fits 8 0 minutesText := by
    unfold minutesText
    split
    · exact fits_nil.mono (by decide) le_rfl
    · next minutes hsome =>
      have hlt := minutes.toNat_lt
      split_ifs
      · have hdays : Fits 7 0 (decimalText (minutes.toNat / 1440)) :=
          fits_decimal (by decide) (by omega)
        exact hdays.append (fits_bytes "d" rfl)
      · exact (fits_durationText _).mono (by decide) le_rfl
  split
  · exact hminutes
  · split_ifs
    · exact ((fits_bytes "@" rfl).append (fits_durationText _)).mono (by decide) le_rfl
    · exact hminutes

/-- **A window** takes one line. -/
theorem runs_appendWindow {window : QuotaProjection} {nowUtcMs : UInt64}
    (h : PlainAscii (cString window.name)) (hroom : n + 40 < 1024) (hlines : k + 1 ≤ 13) :
    Runs (appendWindow nowUtcMs window) n k (n + 40) (k + 1) := by
  obtain ⟨name, hname, hfits⟩ := @displayText_plain 10 8 true _ h (by decide) (by decide)
  have hline : ∀ (basisPoints : UInt16) (qualifier : Bytes), Fits 1 0 qualifier →
      Fits 40 1 (padded name ++ bytes "[" ++ windowBar basisPoints.toNat ++ bytes "] " ++
        qualifier ++ decimalText (basisPoints.toNat / 100) ++ bytes "%" ++
        (if windowTiming window nowUtcMs = [] then []
          else bytes " " ++ windowTiming window nowUtcMs) ++ newline) := by
    intro basisPoints qualifier hqualifier
    have hlt := basisPoints.toNat_lt
    have hpercent : Fits 3 0 (decimalText (basisPoints.toNat / 100)) :=
      fits_decimal (by decide) (by omega)
    have htiming : Fits 9 0 (if windowTiming window nowUtcMs = [] then []
        else bytes " " ++ windowTiming window nowUtcMs) := by
      split_ifs
      · exact fits_nil.mono (by decide) le_rfl
      · exact (fits_bytes " " rfl).append (fits_windowTiming window nowUtcMs)
    exact (((((((((fits_padded hfits).append (fits_bytes "[" rfl)).append
      (fits_windowBar _)).append (fits_bytes "] " rfl)).append hqualifier).append
      hpercent).append (fits_bytes "%" rfl)).append htiming).append fits_newline).mono
      (by decide) (by decide)
  intro writer hheld
  unfold appendWindow
  dsimp only
  rw [hname]
  split
  · exact runs_some (by omega) (by omega) writer hheld
  · next basisPoints qualifier hshown =>
    have hqualifier : Fits 1 0 qualifier := by
      split at hshown
      · obtain ⟨-, rfl⟩ := Prod.mk.inj (Option.some.inj hshown)
        exact fits_bytes "R" rfl
      · obtain ⟨-, rfl⟩ := Prod.mk.inj (Option.some.inj hshown)
        exact fits_bytes "U" rfl
      · cases hshown
    exact runs_append (hline _ _ hqualifier) hroom hlines writer hheld

theorem runs_appendTotal (totalTokens : Option UInt64) (hroom : n + 30 < 1024)
    (hlines : k + 1 ≤ 13) : Runs (appendTotal totalTokens) n k (n + 30) (k + 1) := by
  cases totalTokens with
  | none => exact runs_some (by omega) (by omega)
  | some tokens =>
    have hfits := ((fits_bytes "TOKEN " rfl).append (fits_compactCount tokens.toNat_lt)).append
      fits_newline
    exact runs_append (hfits.mono (show _ ≤ 30 by decide) (show _ ≤ 1 by decide)) hroom hlines

end Parts

/-! ### The page of a provider -/

section ProviderPage

variable {model : PageModel} {provider : ProviderProjection} {n k limit : ℕ}

theorem runs_appendProviderHeading (h : ShownProvider provider) :
    Runs (appendProviderHeading model provider) 100 3 200 5 := by
  obtain ⟨name, hname, hfits⟩ :=
    @displayText_shown 128 24 true _ h.displayName (by decide) (by decide)
  have hexperimental : Fits 15 0
      (if provider.experimental = true then bytes " / EXPERIMENTAL" else []) := by
    split_ifs
    · exact fits_bytes " / EXPERIMENTAL" rfl
    · exact fits_nil.mono (by decide) le_rfl
  have hsecond (status : Bytes) (hstatus : Fits 11 0 status) :=
    (((hstatus.append (fits_bytes " / " rfl)).append
      (fits_confidenceName provider.confidence)).append hexperimental).append fits_newline
  have hruns (status : Bytes) (hstatus : Fits 11 0 status) :=
    (((@runs_append 100 3 _ _ _ (hfits.append fits_newline) (by decide) (by decide)).bind
      (runs_append (hsecond status hstatus) (by decide) (by decide))).mono (by decide)
        (by decide) : Runs _ 100 3 200 5)
  intro writer hheld
  unfold appendProviderHeading
  rw [hname]
  dsimp only
  split
  · exact hruns _ ((fits_bytes "STALE" rfl).mono (by decide) le_rfl) writer hheld
  · exact hruns _ (fits_bytes "UNAVAILABLE" rfl) writer hheld
  · exact hruns _ (fits_providerStatusName _) writer hheld

theorem runs_appendUpdated (hroom : n + 30 < 1024) (hlines : k + 1 ≤ 13) :
    Runs (appendUpdated model provider) n k (n + 30) (k + 1) := by
  have hunknown : Fits 30 1 (bytes "UPDATED --" ++ newline) :=
    ((fits_bytes "UPDATED --" rfl).append fits_newline).mono (by decide) (by decide)
  have hage : ∀ seconds, Fits 30 1 (bytes "UPDATED " ++ durationText seconds ++ bytes " AGO" ++
      newline) := fun seconds =>
    ((((fits_bytes "UPDATED " rfl).append (fits_durationText seconds)).append
      (fits_bytes " AGO" rfl)).append fits_newline).mono (by decide) (by decide)
  intro writer hheld
  unfold appendUpdated
  split
  · split_ifs
    · exact runs_append (hage _) hroom hlines writer hheld
    · exact runs_append hunknown hroom hlines writer hheld
  · exact runs_append hunknown hroom hlines writer hheld

theorem runs_appendBalance (h : ShownProvider provider) (hlimit : limit ≤ k) (hmax : k ≤ 13)
    (hroom : n + 40 < 1024) : Runs (appendBalance limit provider) n k (n + 40) k := by
  intro writer hheld
  unfold appendBalance
  split
  · exact runs_some (by omega) le_rfl writer hheld
  · next amount hsome =>
    obtain ⟨hplain, hlength⟩ := h.balanceCurrency (by rw [hsome]; rfl)
    have hcurrency : Fits 3 0 (cString provider.balanceCurrency) :=
      fits_of_ge (fun byte hbyte => (hplain.2 byte hbyte).1) hlength.le
    have hlt := ((amount + 5000) / 10000).toNat_lt
    have hcents : ∀ cents, cents < 2 ^ 64 → Fits 40 1 (bytes "BAL " ++ decimalText (cents / 100) ++
        bytes "." ++ twoDigits (cents % 100) ++ bytes " " ++ cString provider.balanceCurrency ++
        newline) := by
      intro cents hcents
      have hwhole : Fits 20 0 (decimalText (cents / 100)) := fits_decimal (by decide) (by omega)
      have hpart : Fits 2 0 (twoDigits (cents % 100)) :=
        fits_twoDigits le_rfl (Nat.mod_lt cents (by decide))
      exact (((((((fits_bytes "BAL " rfl).append hwhole).append (fits_bytes "." rfl)).append
        hpart).append (fits_bytes " " rfl)).append hcurrency).append fits_newline).mono
        (by decide) (by decide)
    exact Runs.guarded (fun k hk => runs_append (hcents _ hlt) hroom (by omega)) (by omega) hlimit
      writer hheld

/-- **The windows** add no line beyond the limit. -/
theorem runs_appendWindows {nowUtcMs : UInt64} {windows : List QuotaProjection}
    (h : ∀ window ∈ windows, PlainAscii (cString window.name)) (hlimit : limit ≤ k)
    (hmax : k ≤ 13) (hroom : n + 40 * windows.length < 1024) :
    Runs (appendWindows limit nowUtcMs windows) n k (n + 40 * windows.length) k := by
  induction windows generalizing n with
  | nil => exact runs_some le_rfl le_rfl
  | cons window windows ih =>
    rw [List.forall_mem_cons] at h
    rw [List.length_cons] at hroom ⊢
    intro writer hheld
    rw [appendWindows]
    split_ifs with hlt
    · obtain ⟨next, hnext, hheld'⟩ := @runs_appendWindow n writer.lines _ nowUtcMs h.1 (by omega)
        (by omega) writer ⟨hheld.capacity, hheld.length, hheld.lines, le_rfl, hheld.nul⟩
      rw [hnext, Option.bind_some]
      exact (ih h.2 (by omega)).mono (by omega) le_rfl next (hheld'.mono le_rfl (by omega))
    · exact ⟨writer, rfl, hheld.mono (by omega) le_rfl⟩

theorem runs_appendProblem (h : ShownProvider provider) (hroom : n + 40 < 1024) :
    Runs (appendProblem provider) n 11 (n + 40) 11 := by
  intro writer hheld
  unfold appendProblem
  split_ifs with hproblem
  · obtain ⟨hhas, hlt⟩ := hproblem
    obtain ⟨problem, hshown, hfits⟩ := @displayText_plain errorCodeCapacity
      (errorCodeCapacity - 1) true _ (h.errorCode hhas) (by decide) (by decide)
    rw [hshown]
    have hline := ((fits_bytes "ERROR " rfl).append hfits).append fits_newline
    have hless : writer.lines < 11 := hlt
    obtain ⟨next, hnext, hheld'⟩ := runs_append
      (hline.mono (show _ ≤ 40 by decide) (show _ ≤ 1 by decide)) hroom
      (show writer.lines + 1 ≤ 13 by omega) writer
      ⟨hheld.capacity, hheld.length, hheld.lines, le_rfl, hheld.nul⟩
    exact ⟨next, hnext, hheld'.mono le_rfl (by omega)⟩
  · exact ⟨writer, rfl, hheld.mono (by omega) le_rfl⟩

theorem fits_key : Fits 70 1 (divider ++ newline ++ bytes "KEY: NEXT  TX DISARMED") :=
  ((fits_divider.append fits_newline).append (fits_bytes "KEY: NEXT  TX DISARMED" rfl)).mono
    (by decide) (by decide)

theorem runs_appendMetricLines (h : ShownProvider provider) (hlimit : limit ≤ 11) :
    Runs (fun writer => (appendUpdated model provider writer).bind fun writer =>
      (appendBalance limit provider writer).bind fun writer =>
        (appendWindows limit model.trustedUtcMs provider.windows writer).bind fun writer =>
          (if writer.lines < limit then appendTotal provider.totalTokens writer
            else some writer).bind fun writer =>
              (appendProblem provider writer).bind appendKey) 200 5 700 13 := by
  obtain ⟨hcount, hnames⟩ := h.windows
  have hupdated := (@runs_appendUpdated model provider 200 5 (by decide) (by decide)).mono le_rfl
    (show 5 + 1 ≤ 11 by decide)
  have hbalance := @runs_appendBalance provider 230 11 limit h hlimit (by decide) (by decide)
  have hwindows := (@runs_appendWindows 270 11 limit model.trustedUtcMs _ hnames hlimit (by decide)
    (by omega)).mono (show _ ≤ 430 by omega) le_rfl
  have htotal := Runs.guarded (fun k hk => @runs_appendTotal 430 k provider.totalTokens (by decide)
    (by omega)) (by decide) hlimit
  have hproblem := @runs_appendProblem provider 460 h (by decide)
  have hkey : Runs appendKey 500 11 700 13 :=
    (runs_append fits_key (by decide) (by decide)).mono (by decide) (by decide)
  exact hupdated.bind (hbalance.bind (hwindows.bind (htotal.bind (hproblem.bind hkey))))

/-- **The page of a provider** takes thirteen lines at most. -/
theorem runs_appendProviderPage (h : ShownProvider provider) :
    Runs (appendProviderPage model provider) 100 3 700 13 := by
  intro writer hheld
  obtain ⟨next, hnext, hheld'⟩ := @runs_appendProviderHeading model provider h writer hheld
  unfold appendProviderPage
  rw [hnext, Option.bind_some]
  dsimp only
  split_ifs with hunavailable hoffline herror
  · have hoffline := @runs_append 200 5 _ _ _ ((fits_bytes "AGENT OFFLINE" rfl).append
      fits_newline) (by decide) (by decide)
    have hlast := (((fits_bytes "NO CURRENT AI DATA" rfl).append fits_newline).append
      fits_divider).append fits_newline |>.append (fits_bytes "KEY: NEXT  TX DISARMED" rfl)
    exact (hoffline.bind (runs_append hlast (by decide) (by decide))).mono (by decide) (by decide)
      next hheld'
  · have hlast := (((fits_bytes "NO CURRENT AI DATA" rfl).append fits_newline).append
      fits_divider).append fits_newline |>.append (fits_bytes "KEY: NEXT  TX DISARMED" rfl)
    exact (@runs_append 200 5 _ _ _ hlast (by decide) (by decide)).mono (by decide) (by decide)
      next hheld'
  · exact runs_appendMetricLines h (by decide) next hheld'
  · exact runs_appendMetricLines h (by decide) next hheld'

end ProviderPage

/-! ### The page of Codex -/

section CodexPage

variable {model : PageModel} {codex : CodexProjection} {n k : ℕ}

theorem runs_appendConfigurationHint : Runs appendConfigurationHint 100 3 700 13 := by
  have hfits := ((((((((((fits_bytes "ADD AI PROVIDER" rfl).append fits_newline).append
    (fits_bytes "OPEN COMPANION WEB" rfl)).append fits_newline).append
    (fits_bytes "WEB ON COMPUTER" rfl)).append fits_newline).append
    (fits_bytes "NO EXTRA PROVIDERS" rfl)).append fits_newline).append
    (fits_bytes "KEY: CODEX" rfl)).append fits_newline).append (fits_bytes "TX DISARMED" rfl)
  exact (runs_append hfits (by decide) (by decide)).mono (by decide) (by decide)

theorem sessionName_spec {session : SessionProjection} (h : ShownSession session) :
    ∃ name, sessionName session = some name ∧ Fits 54 0 name := by
  unfold sessionName
  split_ifs with hname
  · exact displayText_shown (h.displayName hname) (by decide) (by decide)
  · dsimp only
    have hsuffix : Fits 8 0
        ((cString session.sessionId).drop ((cString session.sessionId).length - 8)) := by
      refine fits_of_ge (fun byte hbyte => ?_) ?_
      · exact (h.sessionId.2 byte (List.mem_of_mem_drop hbyte)).1
      · rw [List.length_drop]
        omega
    exact ⟨_, rfl, ((fits_bytes "SESSION " rfl).append hsuffix).mono (by decide) le_rfl⟩

/-- Like `Runs`, with the flag of a line. -/
def RunsLine (f : Writer × Bool → Option (Writer × Bool)) (n m k : ℕ) : Prop :=
  ∀ line, Held n k line.1 → ∃ line', f line = some line' ∧ Held m k line'.1

theorem RunsLine.bind {f g : Writer × Bool → Option (Writer × Bool)} {m p : ℕ}
    (hf : RunsLine f n m k) (hg : RunsLine g m p k) :
    RunsLine (fun line => (f line).bind g) n p k := by
  intro line hheld
  obtain ⟨line', hline', hheld'⟩ := hf line hheld
  dsimp only
  rw [hline', Option.bind_some]
  exact hg line' hheld'

theorem runs_appendMetric {m : ℕ} {text : Bytes} (h : Fits m 0 text) (hroom : n + 3 + m < 1024)
    (hlines : k ≤ 13) : RunsLine (appendMetric text) n (n + 3 + m) k := by
  rintro ⟨writer, hasMetric⟩ hheld
  have hslash : Fits 3 0 (if hasMetric = true then bytes " / " else []) := by
    split_ifs
    · exact fits_bytes " / " rfl
    · exact fits_nil.mono (by decide) le_rfl
  obtain ⟨next, hnext, hheld'⟩ := runs_append (hslash.append h) (by omega) (by omega) writer hheld
  dsimp only at hnext
  refine ⟨(next, true), ?_, hheld'.mono (by omega) (by omega)⟩
  rw [appendMetric, hnext, Option.map_some]

/-- **The numbers of a session** stay on one line. -/
theorem runs_metrics (hcount : codex.sessionCount ≤ 255) :
    RunsLine (fun line => (appendTurnTokens codex.featuredSession.turnTokens line).bind fun line =>
      (appendContextUsed codex.featuredSession.contextUsedBasisPoints line).bind
        (appendOtherSessions codex.sessionCount)) 490 560 12 := by
  have htokens : RunsLine (appendTurnTokens codex.featuredSession.turnTokens) 490 520 12 := by
    cases codex.featuredSession.turnTokens with
    | none => exact fun line hheld => ⟨line, rfl, hheld.mono (by decide) le_rfl⟩
    | some tokens =>
      have hfits := (fits_compactCount tokens.toNat_lt).append (fits_bytes " TOK" rfl)
      exact runs_appendMetric (hfits.mono (show _ ≤ 27 by decide) le_rfl) (by decide) (by decide)
  have hcontext : RunsLine (appendContextUsed codex.featuredSession.contextUsedBasisPoints) 520 540
      12 := by
    cases codex.featuredSession.contextUsedBasisPoints with
    | none => exact fun line hheld => ⟨line, rfl, hheld.mono (by decide) le_rfl⟩
    | some used =>
      have hlt := used.toNat_lt
      have hpercent : Fits 3 0 (decimalText (used.toNat / 100)) :=
        fits_decimal (by decide) (by omega)
      have hfits := ((fits_bytes "CTX " rfl).append hpercent).append (fits_bytes "%" rfl)
      exact runs_appendMetric (hfits.mono (show _ ≤ 17 by decide) le_rfl) (by decide) (by decide)
  have hsessions : RunsLine (appendOtherSessions codex.sessionCount) 540 560 12 := by
    intro line hheld
    unfold appendOtherSessions
    split_ifs
    · have hothers : Fits 3 0 (decimalText (codex.sessionCount - 1)) :=
        fits_decimal (by decide) (by omega)
      have hfits := ((fits_bytes "+" rfl).append hothers).append (fits_bytes " SESS" rfl)
      exact runs_appendMetric (hfits.mono (show _ ≤ 17 by decide) le_rfl) (by decide) (by decide)
        line hheld
    · exact ⟨line, rfl, hheld.mono (by decide) le_rfl⟩
  exact htokens.bind (hcontext.bind hsessions)

theorem runs_appendDuration (durationSeconds : Option UInt32) :
    Runs (appendDuration durationSeconds) 470 11 480 11 := by
  cases durationSeconds with
  | none => exact runs_some (by decide) le_rfl
  | some seconds =>
    exact (runs_append ((fits_bytes " / " rfl).append (fits_durationText seconds.toNat))
      (by decide) (by decide)).mono (by decide) (by decide)

theorem runs_lastLines (hcount : codex.sessionCount ≤ 255) :
    Runs (fun writer =>
      (appendTurnTokens codex.featuredSession.turnTokens (writer, false)).bind fun line =>
        (appendContextUsed codex.featuredSession.contextUsedBasisPoints line).bind fun line =>
          (appendOtherSessions codex.sessionCount line).bind fun (writer, hasMetric) =>
            append writer ((if hasMetric = true then newline else []) ++ bytes "TX DISARMED"))
      490 12 700 13 := by
  intro writer hheld
  obtain ⟨⟨last, hasMetric⟩, hline, hheld'⟩ := runs_metrics hcount (writer, false) hheld
  have hlast : Fits 12 1 ((if hasMetric = true then newline else []) ++ bytes "TX DISARMED") := by
    split_ifs
    · exact fits_newline.append (fits_bytes "TX DISARMED" rfl)
    · exact (fits_nil.append (fits_bytes "TX DISARMED" rfl)).mono (by decide) (by decide)
  obtain ⟨next, hnext, hheldNext⟩ := runs_append hlast (by decide) (by decide) last hheld'
  refine ⟨next, ?_, hheldNext.mono (by decide) (by decide)⟩
  obtain ⟨one, hone, hline⟩ := Option.bind_eq_some_iff.mp hline
  obtain ⟨two, htwo, hline⟩ := Option.bind_eq_some_iff.mp hline
  dsimp only
  rw [hone, Option.bind_some, htwo, Option.bind_some, hline, Option.bind_some]
  exact hnext

/-- **The session** takes three lines below the divider. -/
theorem runs_appendSession (h : ShownCodex codex) : Runs (appendSession codex) 380 10 700 13 := by
  intro writer hheld
  unfold appendSession
  dsimp only
  split_ifs with habsent
  · have hfits := ((fits_bytes "NO CODEX SESSION" rfl).append fits_newline).append
      (fits_bytes "TX DISARMED" rfl)
    exact (runs_append hfits (by decide) (by decide)).mono (by decide) (by decide) writer hheld
  · obtain ⟨name, hname, hfits⟩ := sessionName_spec
      (h.featuredSession (Bool.eq_true_of_not_eq_false habsent))
    rw [hname]
    have hhead := (((hfits.append fits_newline).append (fits_sessionStateName
      codex.featuredSession.state)).append (fits_bytes " / " rfl)).append
      (fits_confidenceName codex.featuredSession.confidence)
    have hfirst := (@runs_append 380 10 _ _ _ hhead (by decide) (by decide)).mono
      (show _ ≤ 470 by decide) (show _ ≤ 11 by decide)
    have hend := (@runs_append 480 11 _ _ _ fits_newline (by decide) (by decide)).mono
      (show _ ≤ 490 by decide) (show _ ≤ 12 by decide)
    exact (hfirst.bind ((runs_appendDuration _).bind (hend.bind (runs_lastLines h.sessionCount))))
      writer hheld

theorem runs_windows {nowUtcMs : UInt64} {windows : List QuotaProjection}
    (h : ∀ window ∈ windows, PlainAscii (cString window.name))
    (hroom : n + 40 * windows.length < 1024) (hlines : k + windows.length ≤ 13) :
    Runs (fun writer => windows.foldlM (fun writer window => appendWindow nowUtcMs window writer)
      writer) n k (n + 40 * windows.length) (k + windows.length) := by
  induction windows generalizing n k with
  | nil => exact runs_some le_rfl le_rfl
  | cons window windows ih =>
    rw [List.forall_mem_cons] at h
    rw [List.length_cons] at hroom hlines ⊢
    have hfirst := @runs_appendWindow n k window nowUtcMs h.1 (by omega) (by omega)
    exact (hfirst.bind (ih h.2 (by omega) (by omega))).mono (by omega) (by omega)

theorem runs_appendCodexBody (h : ShownCodex model.codex) :
    Runs (appendCodexBody model) 140 4 700 13 := by
  obtain ⟨hcount, hnames⟩ := h.windows
  have hwindows := (@runs_windows 140 4 model.trustedUtcMs _ hnames (by omega) (by omega)).mono
    (show _ ≤ 300 by omega) (show _ ≤ 8 by omega)
  have htotal := @runs_appendTotal 300 8 model.codex.totalTokens (by decide) (by decide)
  have hdivider := (runs_append (fits_divider.append fits_newline) (by decide) (by decide)).mono
    (show 330 + (40 + 1) ≤ 380 by decide) (show 9 + (0 + 1) ≤ 10 by decide)
  exact hwindows.bind (htotal.bind (hdivider.bind (runs_appendSession h)))

theorem fits_noCodexReason (state : CompanionState) : Fits 19 0 (noCodexReason state) := by
  cases state with
  | unpaired => exact fits_bytes "NO ACTIVE COMPANION" rfl
  | offline => exact (fits_bytes "AGENT OFFLINE" rfl).mono (by decide) le_rfl
  | connecting => exact (fits_bytes "NO CODEX DATA" rfl).mono (by decide) le_rfl
  | online => exact (fits_bytes "NO CODEX DATA" rfl).mono (by decide) le_rfl

theorem runs_appendNoCodex : Runs (appendNoCodex model) 100 3 700 13 := by
  have hfirst := @runs_append 100 3 _ _ _
    ((fits_bytes "CODEX  UNAVAILABLE" rfl).append fits_newline) (by decide) (by decide)
  have hsecond := @runs_append 119 4 _ _ _
    ((fits_noCodexReason model.companionState).append fits_newline) (by decide) (by decide)
  have hlast := @runs_append 139 5 _ _ _ (((fits_bytes "NO CURRENT AI DATA" rfl).append
    fits_newline).append (fits_bytes "TX DISARMED" rfl)) (by decide) (by decide)
  exact (hfirst.bind (hsecond.bind hlast)).mono (by decide) (by decide)

/-- **The page of Codex** takes thirteen lines at most. -/
theorem runs_appendCodexPage (h : ShownCodex model.codex) :
    Runs (appendCodexPage model) 100 3 700 13 := by
  have hconfidence := fits_confidenceName model.codex.providerConfidence
  have hbody : ∀ {heading : Bytes}, Fits 20 0 heading → Runs (fun writer => (append writer
      (heading ++ confidenceName model.codex.providerConfidence ++ newline)).bind
        (appendCodexBody model)) 100 3 700 13 := by
    intro heading hheading
    have hfirst := (@runs_append 100 3 _ _ _ ((hheading.append hconfidence).append fits_newline)
      (by decide) (by decide)).mono (show _ ≤ 140 by decide) (show _ ≤ 4 by decide)
    exact hfirst.bind (runs_appendCodexBody h)
  intro writer hheld
  unfold appendCodexPage
  dsimp only
  split_ifs with hnone hstale
  · exact runs_appendNoCodex writer hheld
  · exact hbody ((fits_bytes "CODEX  STALE / " rfl).mono (by decide) le_rfl) writer hheld
  · split
    · exact hbody ((fits_bytes "CODEX  DEGRADED / " rfl).mono (by decide) le_rfl) writer hheld
    · have hfits := (((((fits_bytes "CODEX  UNAVAILABLE / " rfl).append hconfidence).append
        fits_newline).append (fits_bytes "NO CURRENT AI DATA" rfl)).append fits_newline).append
        (fits_bytes "TX DISARMED" rfl)
      exact (runs_append hfits (by decide) (by decide)).mono (by decide) (by decide) writer hheld
    · exact hbody ((fits_bytes "CODEX  " rfl).mono (by decide) le_rfl) writer hheld

end CodexPage

/-! ### The selection -/

section Selection

variable {model next : PageModel} {pages : PagesProjection}

theorem findIdx?_spec {p : ProviderProjection → Bool} {index : ℕ}
    (h : pages.providers.findIdx? p = some index) :
    ∃ provider, pages.providers[index]? = some provider ∧ p provider = true := by
  rw [List.findIdx?_eq_some_iff_getElem] at h
  obtain ⟨hlt, hp, -⟩ := h
  exact ⟨_, List.getElem?_eq_getElem hlt, hp⟩

/-- What `apply_pages` leaves: the pages, and a provider of them that is selected. -/
theorem applyPages_selects (h : model.applyPages pages = some next) :
    next.pages = pages ∧ next.codex = model.codex ∧
      (next.selectedProvider < pages.providers.length ∨ pages.providers = []) := by
  have hlt : ∀ {p : ProviderProjection → Bool} {index : ℕ},
      pages.providers.findIdx? p = some index → index < pages.providers.length := by
    intro p index hfind
    obtain ⟨provider, hprovider, -⟩ := findIdx?_spec hfind
    exact (List.getElem?_eq_some_iff.mp hprovider).1
  unfold PageModel.applyPages at h
  dsimp only at h
  split_ifs at h with hmany hnone hhint
  · obtain rfl := Option.some.inj h
    exact ⟨rfl, rfl, .inr (List.eq_nil_of_length_eq_zero hnone)⟩
  · obtain rfl := Option.some.inj h
    exact ⟨rfl, rfl, .inl (Nat.pos_of_ne_zero hnone)⟩
  · split at h
    · next index hfind =>
      obtain rfl := Option.some.inj h
      exact ⟨rfl, rfl, .inl (hlt hfind)⟩
    · split at h
      · next index hfind =>
        obtain rfl := Option.some.inj h
        exact ⟨rfl, rfl, .inl (hlt hfind)⟩
      · obtain rfl := Option.some.inj h
        exact ⟨rfl, rfl, .inl (Nat.pos_of_ne_zero hnone)⟩

theorem isSome_applyPages (h : pages.providers.length ≤ 8) : (model.applyPages pages).isSome := by
  have hmany : ¬maximumProviders < pages.providers.length := Nat.not_lt.mpr h
  unfold PageModel.applyPages
  dsimp only
  rw [if_neg hmany]
  split_ifs
  · rfl
  · rfl
  · split
    · rfl
    · split <;> rfl

/-- **A provider stays selected** while the pages have it. -/
theorem applyPages_keeps {provider : ProviderProjection} (h : model.applyPages pages = some next)
    (hhint : model.configurationHint = false) (hselected : model.selected = some provider)
    (hid : cString provider.providerId ≠ [])
    (hpresent : ∃ other ∈ pages.providers,
      cString other.providerId = cString provider.providerId) :
    next.configurationHint = false ∧ ∃ other, next.selected = some other ∧
      cString other.providerId = cString provider.providerId := by
  obtain ⟨other, hmem, hsame⟩ := hpresent
  have hselectedId : model.selectedId = cString provider.providerId := by
    unfold PageModel.selectedId
    rw [hhint, if_neg Bool.false_ne_true, hselected]
    rfl
  have hpos := List.length_pos_of_mem hmem
  unfold PageModel.applyPages at h
  dsimp only at h
  rw [hselectedId, hhint] at h
  split_ifs at h with hmany hnone hone
  · omega
  · exact absurd hone.1 (by simp)
  · split at h
    · next index hfind =>
      obtain rfl := Option.some.inj h
      obtain ⟨found, hfound, hproperty⟩ := findIdx?_spec hfind
      exact ⟨rfl, found, hfound, (of_decide_eq_true hproperty).2.symm⟩
    · next hfind =>
      rw [List.findIdx?_eq_none_iff] at hfind
      have hno := of_decide_eq_false (hfind other hmem)
      exact absurd ⟨hid, hsame.symm⟩ hno

theorem next_selects
    (h : model.selectedProvider < model.pages.providers.length ∨ model.pages.providers = []) :
    model.next.selectedProvider < model.next.pages.providers.length ∨
      model.next.pages.providers = [] := by
  unfold PageModel.next
  split_ifs with hfew
  · dsimp only
    rcases h with hlt | hnone
    · left
      omega
    · exact .inr hnone
  · left
    exact Nat.mod_lt _ (by omega)

end Selection

/-! ### Runs of the page -/

/-- The codex projection of the page: cleared, or of an accepted document. -/
def CodexOfSnapshot (codex : CodexProjection) : Prop :=
  codex = { hasTimezone := false, timezone := textField timezoneCapacity [] } ∨
    ∃ allocated document, deckAiSnapshotProjectCodex allocated document = some codex

/-- A step of the page: its other fields are written, the pages of a snapshot are applied, or the
key is pressed. -/
inductive PageStep : PageModel → PageModel → Prop
  | write (model fields : PageModel) (hcodex : CodexOfSnapshot fields.codex) :
      PageStep model
        { fields with
          pages := model.pages
          selectedProvider := model.selectedProvider
          configurationHint := model.configurationHint }
  | applyPages {model next : PageModel} {pages : PagesProjection} (allocated : Bool)
      (document : Bytes) (hpages : deckAiSnapshotProjectPages allocated document = some pages)
      (hnext : model.applyPages pages = some next) : PageStep model next
  | next (model : PageModel) : PageStep model model.next

/-- The states of the page. -/
def Reachable : PageModel → Prop := Relation.ReflTransGen PageStep {}

/-- What holds of every state. -/
structure PageInvariant (model : PageModel) : Prop where
  selected : model.selectedProvider < model.pages.providers.length ∨ model.pages.providers = []
  pages : model.pages.providers.length ≤ 8 ∧
    ∀ provider ∈ model.pages.providers, ShownProvider provider
  codex : ShownCodex model.codex

section Runs

variable {model next : PageModel}

theorem shown_of_codexOfSnapshot {codex : CodexProjection} (h : CodexOfSnapshot codex) :
    ShownCodex codex := by
  rcases h with rfl | ⟨allocated, document, hproject⟩
  · exact shownCodex_empty _ _
  · exact shown_codex hproject

/-- **Every step** keeps the invariant. -/
theorem PageInvariant.step (h : PageInvariant model) (hstep : PageStep model next) :
    PageInvariant next := by
  cases hstep with
  | write fields hcodex => exact ⟨h.selected, h.pages, shown_of_codexOfSnapshot hcodex⟩
  | applyPages allocated document hpages hnext =>
    obtain ⟨hsame, hcodex, hselected⟩ := applyPages_selects hnext
    refine ⟨?_, ?_, ?_⟩
    · rw [hsame]
      exact hselected
    · rw [hsame]
      exact shown_pages hpages
    · rw [hcodex]
      exact h.codex
  | next =>
    refine ⟨next_selects h.selected, ?_, ?_⟩
    · unfold PageModel.next
      split_ifs <;> exact h.pages
    · unfold PageModel.next
      split_ifs <;> exact h.codex

theorem pageInvariant_of_reachable (h : Reachable model) : PageInvariant model := by
  induction h with
  | refl =>
    exact ⟨.inr rfl, ⟨Nat.zero_le 8, fun _ hmem => absurd hmem List.not_mem_nil⟩,
      shownCodex_empty _ _⟩
  | tail _ hstep ih => exact ih.step hstep

/-- **An active page** is formatted. -/
theorem PageInvariant.format (h : PageInvariant model) (hactive : model.active = true) :
    ∃ text, model.format 1024 = some text ∧ text.length < 1024 ∧ 0 ∉ text ∧
      text.count 0x0a + 1 ≤ pageMaxLines := by
  have hwindows : ¬maximumWindows < model.codex.windows.length := Nat.not_lt.mpr h.codex.windows.1
  have htext : ∀ body, Runs body 100 3 700 13 → ∃ text,
      ((appendStatus model ⟨[], 1024, 1⟩).bind body).map (·.text) = some text ∧
        text.length < 1024 ∧ 0 ∉ text ∧ text.count 0x0a + 1 ≤ pageMaxLines := by
    intro body hbody
    obtain ⟨writer, hwriter, hheld⟩ := (runs_appendStatus.bind hbody) ⟨[], 1024, 1⟩
      ⟨rfl, le_rfl, rfl, le_rfl, List.not_mem_nil⟩
    refine ⟨writer.text, congrArg (Option.map (·.text)) hwriter,
      lt_of_le_of_lt hheld.length (by decide), hheld.nul, ?_⟩
    rw [← hheld.lines]
    exact hheld.lines_le
  unfold PageModel.format
  rw [if_neg (by simp [hactive]), if_neg hwindows]
  refine htext _ fun writer hheld => ?_
  split_ifs with hhint hnone hmany
  · exact runs_appendConfigurationHint writer hheld
  · exact runs_appendCodexPage h.codex writer hheld
  · exact absurd h.pages.1 (Nat.not_le.mpr hmany)
  · have hlt : model.selectedProvider < model.pages.providers.length :=
      h.selected.resolve_right fun hnil => hnone (by rw [hnil]; rfl)
    rw [PageModel.selected, List.getElem?_eq_getElem hlt]
    dsimp only
    split_ifs
    · exact runs_appendCodexPage h.codex writer hheld
    · exact runs_appendProviderPage (h.pages.2 _ (List.getElem_mem hlt)) writer hheld

/-- **The page**: in every state that is reached, a provider is selected if there is one; a snapshot
is applied and leaves the provider selected that was, if it is still there and no hint is shown; and
an active page has its text, in at most thirteen lines and with its NUL in 1024 bytes. -/
theorem pageModel_total (h : Reachable model) :
    (model.selectedProvider < model.pages.providers.length ∨ model.pages.providers = []) ∧
      (∀ allocated document pages, deckAiSnapshotProjectPages allocated document = some pages →
        ∃ next, model.applyPages pages = some next ∧ ∀ provider,
          model.configurationHint = false → model.selected = some provider →
          (∃ other ∈ pages.providers, cString other.providerId = cString provider.providerId) →
          next.configurationHint = false ∧ ∃ other, next.selected = some other ∧
            cString other.providerId = cString provider.providerId) ∧
      (model.active = true → ∃ text, model.format 1024 = some text ∧ text.length < 1024 ∧
        0 ∉ text ∧ text.count 0x0a + 1 ≤ pageMaxLines) := by
  have hinvariant := pageInvariant_of_reachable h
  refine ⟨hinvariant.selected, ?_, hinvariant.format⟩
  intro allocated document pages hpages
  obtain ⟨next, hnext⟩ := Option.isSome_iff_exists.mp
    (@isSome_applyPages model pages (shown_pages hpages).1)
  refine ⟨next, hnext, fun provider hhint hselected hpresent => ?_⟩
  have hmem : provider ∈ model.pages.providers := List.mem_of_getElem? hselected
  exact applyPages_keeps hnext hhint hselected (hinvariant.pages.2 provider hmem).providerId.1
    hpresent

/-- A page with the pages of a document, which then becomes active. -/
theorem pageModel_total_sample :
    ∃ model : PageModel, model.active = true ∧ model.pages.providers.length = 1 ∧
      model.selectedProvider < model.pages.providers.length ∧
      ∃ text, model.format 1024 = some text ∧ text.length < 1024 := by
  have hdocument : (deckAiSnapshotProjectPages true (sampleRoot (sampleZone 32) []).print).any
      (fun pages => pages.providers.length == 1) = true := by
    decide +kernel
  cases hpages : deckAiSnapshotProjectPages true (sampleRoot (sampleZone 32) []).print with
  | none => simp [hpages] at hdocument
  | some pages =>
    have hone : pages.providers.length = 1 := by simpa [hpages] using hdocument
    obtain ⟨next, hnext⟩ := Option.isSome_iff_exists.mp
      (@isSome_applyPages {} pages (by omega))
    have hpagesOf : next.pages = pages := (applyPages_selects hnext).1
    have hreachable := (Relation.ReflTransGen.single (PageStep.applyPages true _ hpages hnext)).tail
      (PageStep.write next { active := true } (.inl rfl))
    obtain ⟨hselected, -, hformat⟩ := pageModel_total hreachable
    obtain ⟨text, htext, hlength, -⟩ := hformat rfl
    refine ⟨_, rfl, by rw [hpagesOf, hone], hselected.resolve_right ?_, text, htext, hlength⟩
    intro hnil
    have hempty : next.pages.providers = [] := hnil
    rw [hpagesOf] at hempty
    rw [hempty] at hone
    cases hone

end Runs

end RlcdDeck.ApplicationUi
