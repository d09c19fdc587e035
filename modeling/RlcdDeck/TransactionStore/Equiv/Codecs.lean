import RlcdDeck.Bytes.Equiv.Checksum
import RlcdDeck.Effects.Frame
import RlcdDeck.TransactionStore.Decoding
import RlcdDeck.TransactionStore.Equiv.Flash

/-!
# The codecs of the transaction store

A record and a marker have one encoding each: what was encoded is decoded again, and bytes that are
decoded are the encoding of the result.  The decoders read inside their input (`decodeRecord_reads`,
`decodeMarker_reads`), and what they read makes the result of `decodeRecord` and `decodeMarker`
(`decodeRecordFrom_of`, `decodeMarkerFrom_of`).  A record that is damaged in up to four consecutive
bytes is not decoded (`decodeRecord_burst`).
-/

namespace RlcdDeck.TransactionStore

open Bytes Effects
open Program (Only only_pure only_perform only_bind)

/-! ### Reads -/

variable {offset : ℕ}

section Reads

variable {size : ℕ}

theorem only_readByte (h : offset < size) : Only (· < size) (readByte offset) :=
  only_perform h

theorem only_readBytes {count : ℕ} (h : offset + count ≤ size) :
    Only (· < size) (readBytes offset count) := by
  induction count generalizing offset with
  | zero => exact only_pure _
  | succ count ih =>
    refine only_bind (only_readByte (by omega)) fun byte => ?_
    exact only_bind (ih (by omega)) fun bytes => only_pure _

theorem only_readWord (h : offset + 4 ≤ size) : Only (· < size) (readWord offset) :=
  only_bind (only_readBytes h) fun _ => only_pure _

theorem only_ite {α : Type} {c : Prop} [Decidable c] {p q : Reading α}
    (hp : c → Only (· < size) p) (hq : ¬c → Only (· < size) q) :
    Only (· < size) (if c then p else q) := by
  split_ifs with hc
  · exact hp hc
  · exact hq hc

/-- **Bounds**: `decode_record` reads inside its input, whatever the input is. -/
theorem decodeRecord_reads (o : Options) (size : ℕ) : Only (· < size) (decodeRecordFrom o size) := by
  unfold decodeRecordFrom
  split_ifs with hsize
  · exact only_pure _
  · have hheader : 16 ≤ size := Nat.not_lt.mp hsize
    refine only_bind (only_readBytes (by omega)) fun magic => ?_
    split_ifs
    · exact only_pure _
    · refine only_bind (only_readByte (by omega)) fun schema => ?_
      split_ifs
      · exact only_pure _
      · exact only_pure _
      · refine only_bind (only_readByte (by omega)) fun low => ?_
        refine only_bind (only_readByte (by omega)) fun high => ?_
        dsimp only
        split_ifs
        · exact only_pure _
        · refine only_bind (only_readWord (by omega)) fun generation => ?_
          refine only_bind (only_readByte (by omega)) fun reserved => ?_
          split_ifs with hfields
          · exact only_pure _
          · -- The length of the payload has been compared with the size of the input.
            have hend : recordHeaderSize + (low.toNat + high.toNat * 256 +
                o.payloadLengthExcludedPrefix) + checksumSize = size := by
              by_contra hother
              exact hfields (.inr (.inr (.inr (.inl hother))))
            have hchecksum : checksumSize = 4 := rfl
            refine only_bind (only_readWord (by omega)) fun checksum => ?_
            refine only_bind (only_readBytes (by omega)) fun checked => ?_
            split_ifs
            · exact only_pure _
            · refine only_bind (only_readBytes (by omega)) fun payload => ?_
              split_ifs
              · exact only_pure _
              · exact only_pure _

/-- **Bounds**: `decode_marker` reads inside its input, whatever the input is. -/
theorem decodeMarker_reads (o : Options) (size : ℕ) : Only (· < size) (decodeMarkerFrom o size) := by
  unfold decodeMarkerFrom
  split_ifs with hsize
  · exact only_pure _
  · have hmarker : size = 20 := not_not.mp hsize
    refine only_bind (only_readBytes (by omega)) fun magic => ?_
    split_ifs
    · exact only_pure _
    · refine only_bind (only_readByte (by omega)) fun schema => ?_
      split_ifs
      · exact only_pure _
      · exact only_pure _
      · refine only_bind (only_readByte (by omega)) fun activeSlot => ?_
        refine only_bind (only_readWord (by omega)) fun activeGeneration => ?_
        refine only_bind (only_readByte (by omega)) fun hasPrevious => ?_
        refine only_bind (only_readByte (by omega)) fun previousSlot => ?_
        refine only_bind (only_readWord (by omega)) fun previousGeneration => ?_
        refine only_ite (fun _ => only_pure _) fun _ => ?_
        refine only_bind (only_readWord (by omega)) fun checksum => ?_
        refine only_bind (only_readBytes (by omega)) fun checked => ?_
        exact only_ite (fun _ => only_pure _) fun _ => only_pure _

end Reads

/-! ### What is read -/

section Run

variable {α β : Type} {input : List UInt8}

theorem run_snd (reading : Reading α) : (reading.run buffer input).2 = input := by
  induction reading with
  | ret a => rfl
  | call offset k ih => exact ih _

theorem of_bind (reading : Reading α) (f : α → Reading β) :
    (reading >>= f).of input = (f (reading.of input)).of input := by
  unfold Reading.of
  rw [Program.run_bind, run_snd]

theorem of_pure (a : α) : (pure a : Reading α).of input = a := rfl

theorem of_readByte (offset : ℕ) : (readByte offset).of input = input.getD offset 0 := rfl

theorem of_readBytes {count : ℕ} (h : offset + count ≤ input.length) :
    (readBytes offset count).of input = (input.drop offset).take count := by
  induction count generalizing offset with
  | zero => rw [List.take_zero]; rfl
  | succ count ih =>
    have hlt : offset < input.length := by omega
    rw [readBytes, of_bind, of_bind, of_pure, ih (by omega), of_readByte,
      List.drop_eq_getElem_cons hlt, List.take_succ_cons, List.getD_eq_getElem _ _ hlt]

theorem of_readWord (h : offset + 4 ≤ input.length) :
    (readWord offset).of input = readU32 input offset := by
  rw [readWord, of_bind, of_pure, of_readBytes h, ← writeU32_readU32 h]
  have hread := @readU32_append [] 0 rfl (readU32 input offset) []
  rwa [List.nil_append, List.append_nil] at hread

theorem of_ite (c : Prop) [Decidable c] (a b : Reading α) :
    (if c then a else b).of input = if c then a.of input else b.of input := by
  split_ifs <;> rfl

/-- The part of `decode_record` after the length, read by read. -/
theorem decodePayloadFrom_of (o : Options) {size : ℕ} (hheader : 16 ≤ input.length) :
    (decodePayloadFrom o input.length size).of input =
      if input.getD 5 0 ≠ 0 ∨ size = 0 ∨ o.payloadCapacity < size ∨
          recordHeaderSize + size + checksumSize ≠ input.length ∨ readU32 input 8 = 0 ∨
          readU32 input (recordHeaderSize + size) ≠
            crc32 (input.take (recordHeaderSize + size)) ∨
          o.validatePayload ((input.drop recordHeaderSize).take size) = false then
        .error .corrupt
      else .ok ⟨(input.drop recordHeaderSize).take size, readU32 input 8⟩ := by
  unfold decodePayloadFrom
  dsimp only
  rw [of_bind, of_bind, of_readWord (by omega), of_readByte, of_ite, of_pure]
  by_cases hfields : input.getD 5 0 ≠ 0 ∨ size = 0 ∨ o.payloadCapacity < size ∨
      recordHeaderSize + size + checksumSize ≠ input.length ∨ readU32 input 8 = 0
  · rw [if_pos hfields, if_pos (by tauto)]
  · have hend : recordHeaderSize + size + 4 = input.length := by
      by_contra hother
      exact hfields (.inr (.inr (.inr (.inl hother))))
    rw [if_neg hfields, of_bind, of_bind, of_readWord (by omega), of_readBytes (by omega),
      List.drop_zero, of_ite, of_pure, of_bind, of_readBytes (by omega), of_ite, of_pure, of_pure]
    by_cases hchecksum : readU32 input (recordHeaderSize + size) ≠
        crc32 (input.take (recordHeaderSize + size))
    · rw [if_pos hchecksum, if_pos (by tauto)]
    · rw [if_neg hchecksum]
      by_cases hvalid : o.validatePayload ((input.drop recordHeaderSize).take size) = false
      · rw [if_pos hvalid, if_pos (by tauto)]
      · rw [if_neg hvalid, if_neg (by tauto)]

theorem decodeRecordFrom_of (o : Options) (input : List UInt8) :
    (decodeRecordFrom o input.length).of input = decodeRecord o input := by
  unfold decodeRecordFrom decodeRecord
  by_cases hsize : input.length < recordHeaderSize + checksumSize
  · rw [if_pos hsize, if_pos (.inl hsize)]
    rfl
  · have hheader : 16 ≤ input.length := Nat.not_lt.mp hsize
    rw [if_neg hsize, of_bind, of_readBytes (by omega), List.drop_zero, of_ite]
    by_cases hmagic : input.take 4 ≠ o.recordMagic
    · rw [if_pos hmagic, if_pos (.inr hmagic)]
      rfl
    · rw [if_neg hmagic, if_neg (not_or.mpr ⟨hsize, hmagic⟩), of_bind, of_readByte, of_ite, of_ite,
        of_pure, of_pure, of_bind, of_bind, of_readByte, of_readByte, of_ite, of_pure,
        decodePayloadFrom_of o hheader]

/-- The part of `decode_marker` after the schema version, read by read. -/
theorem decodeFieldsFrom_of (hsize : input.length = 20) :
    decodeFieldsFrom.of input =
      if 1 < input.getD 5 0 ∨ readU32 input 6 = 0 ∨ 1 < input.getD 10 0 ∨
          (input.getD 10 0 = 0 ∧ (input.getD 11 0 ≠ 0 ∨ readU32 input 12 ≠ 0)) ∨
          (input.getD 10 0 = 1 ∧
            (1 < input.getD 11 0 ∨ input.getD 11 0 = input.getD 5 0 ∨ readU32 input 12 = 0)) ∨
          readU32 input 16 ≠ crc32 (input.take 16) then .error .corrupt
      else
        .ok {
          activeSlot := if input.getD 5 0 = 0 then 0 else 1
          activeGeneration := readU32 input 6
          previousGeneration := if input.getD 10 0 = 1 then some (readU32 input 12) else none } := by
  unfold decodeFieldsFrom
  rw [of_bind, of_bind, of_bind, of_bind, of_bind, of_readByte, of_readByte, of_readByte,
    of_readWord (by omega), of_readWord (by omega), of_ite, of_pure]
  by_cases hfields : 1 < input.getD 5 0 ∨ readU32 input 6 = 0 ∨ 1 < input.getD 10 0 ∨
      (input.getD 10 0 = 0 ∧ (input.getD 11 0 ≠ 0 ∨ readU32 input 12 ≠ 0)) ∨
      (input.getD 10 0 = 1 ∧
        (1 < input.getD 11 0 ∨ input.getD 11 0 = input.getD 5 0 ∨ readU32 input 12 = 0))
  · rw [if_pos hfields, if_pos (by tauto)]
  · rw [if_neg hfields, of_bind, of_bind, of_readWord (by omega), of_readBytes (by omega),
      List.drop_zero, of_ite, of_pure, of_pure]
    by_cases hchecksum : readU32 input 16 ≠ crc32 (input.take 16)
    · rw [if_pos hchecksum, if_pos (by tauto)]
    · rw [if_neg hchecksum]
      refine (if_neg ?_).symm
      tauto

theorem decodeMarkerFrom_of (o : Options) (input : List UInt8) :
    (decodeMarkerFrom o input.length).of input = decodeMarker o input := by
  unfold decodeMarkerFrom decodeMarker
  by_cases hsize : input.length ≠ markerSize
  · rw [if_pos hsize, if_pos (.inl hsize)]
    rfl
  · have hmarker : input.length = 20 := not_not.mp hsize
    rw [if_neg hsize, of_bind, of_readBytes (by omega), List.drop_zero, of_ite]
    by_cases hmagic : input.take 4 ≠ o.markerMagic
    · rw [if_pos hmagic, if_pos (.inr hmagic)]
      rfl
    · rw [if_neg hmagic, if_neg (not_or.mpr ⟨hsize, hmagic⟩), of_bind, of_readByte, of_ite, of_ite,
        of_pure, of_pure, decodeFieldsFrom_of hmarker]

end Run

/-! ### One encoding -/

variable {record : TransactionRecord}

section Canonical

variable {o : Options} {input : List UInt8}

theorem take_drop_succ (h : offset < input.length) (count : ℕ) :
    (input.drop offset).take (count + 1) =
      input.getD offset 0 :: (input.drop (offset + 1)).take count := by
  rw [List.drop_eq_getElem_cons h, List.take_succ_cons, List.getD_eq_getElem _ _ h]

theorem append_checksum (hend : offset + 4 = input.length)
    (hchecksum : readU32 input offset = crc32 (input.take offset)) :
    input.take offset ++ writeU32 (crc32 (input.take offset)) = input := by
  have hlast : ((input.drop offset).take 4) = input.drop offset := by
    apply List.take_of_length_le
    rw [List.length_drop]
    omega
  rw [← hchecksum, writeU32_readU32 (by omega), hlast, List.take_append_drop]

theorem ite_ok {α : Type} {c : Prop} [Decidable c] {failure : DecodeFailure}
    {rest : Except DecodeFailure α} {result : α}
    (h : (if c then .error failure else rest) = .ok result) : ¬c ∧ rest = .ok result := by
  by_cases hc : c
  · rw [if_pos hc] at h
    cases h
  · rw [if_neg hc] at h
    exact ⟨hc, h⟩

theorem decodeRecord_ok (h : decodeRecord o input = .ok record) :
    input.take 4 = o.recordMagic ∧ input.getD 4 0 = o.schemaVersion ∧ input.getD 5 0 = 0 ∧
      (input.getD 6 0).toNat + (input.getD 7 0).toNat * 256 + o.payloadLengthExcludedPrefix =
        record.payload.length ∧
      readU32 input 8 = record.generation ∧
      (input.drop recordHeaderSize).take record.payload.length = record.payload ∧
      recordHeaderSize + record.payload.length + 4 = input.length ∧
      readU32 input (recordHeaderSize + record.payload.length) =
        crc32 (input.take (recordHeaderSize + record.payload.length)) ∧
      record.generation ≠ 0 ∧ Storable o record.payload := by
  unfold decodeRecord at h
  dsimp only at h
  obtain ⟨hsize, h⟩ := ite_ok h
  obtain ⟨hnewer, h⟩ := ite_ok h
  obtain ⟨holder, h⟩ := ite_ok h
  obtain ⟨-, h⟩ := ite_ok h
  obtain ⟨hfields, h⟩ := ite_ok h
  obtain rfl := Except.ok.inj h
  simp only [not_or, not_not, Bool.not_eq_false] at hsize hfields
  obtain ⟨hreserved, hempty, hcapacity, hend, hgeneration, hchecksum, hvalid⟩ := hfields
  have hfour : checksumSize = 4 := rfl
  have hlength : ((input.drop recordHeaderSize).take ((input.getD 6 0).toNat +
      (input.getD 7 0).toNat * 256 + o.payloadLengthExcludedPrefix)).length =
      (input.getD 6 0).toNat + (input.getD 7 0).toNat * 256 + o.payloadLengthExcludedPrefix := by
    rw [List.length_take, List.length_drop]
    omega
  refine ⟨hsize.2, UInt8.le_antisymm (UInt8.not_lt.mp hnewer) (UInt8.not_lt.mp holder), hreserved,
    hlength.symm, rfl, ?_, ?_, ?_, hgeneration, ?_, ?_, ?_, hvalid⟩
  · rw [hlength]
  · rw [hlength, ← hend, hfour]
  · rw [hlength]
    exact hchecksum
  · rw [hlength]
    exact hempty
  · rw [hlength]
    omega
  · rw [hlength]
    omega

/-- **Canonical**: a record that is decoded is the encoding of the result. -/
theorem encodeRecord_decodeRecord (h : decodeRecord o input = .ok record) :
    encodeRecord o record = some input := by
  obtain ⟨hmagic, hschema, hreserved, hsize, hgeneration, hpayload, hend, hchecksum, hnonzero,
    hstorable⟩ := decodeRecord_ok h
  have hheader : recordHeaderSize = 12 := rfl
  have hlow := (input.getD 6 0).toNat_lt
  have hhigh := (input.getD 7 0).toNat_lt
  have hencoded : record.payload.length - o.payloadLengthExcludedPrefix =
      (input.getD 6 0).toNat + (input.getD 7 0).toNat * 256 := by omega
  have hsix : UInt8.ofNat ((input.getD 6 0).toNat + (input.getD 7 0).toNat * 256) =
      input.getD 6 0 := by
    apply UInt8.toNat_inj.mp
    rw [UInt8.toNat_ofNat']
    omega
  have hseven : UInt8.ofNat (((input.getD 6 0).toNat + (input.getD 7 0).toNat * 256) / 256) =
      input.getD 7 0 := by
    apply UInt8.toNat_inj.mp
    rw [UInt8.toNat_ofNat']
    omega
  -- The bytes before the checksum, field by field.
  have hbytes : recordBytes o record = input.take (recordHeaderSize + record.payload.length) := by
    have hfields : input.take (recordHeaderSize + record.payload.length) =
        input.take 4 ++ ((input.drop 4).take 4 ++ ((input.drop 8).take 4 ++
          (input.drop 12).take record.payload.length)) := by
      rw [hheader, show 12 + record.payload.length = 4 + (4 + (4 + record.payload.length)) by omega,
        List.take_add, List.take_add, List.take_add, List.drop_drop, List.drop_drop]
    rw [hfields, take_drop_succ (by omega), take_drop_succ (by omega), take_drop_succ (by omega),
      take_drop_succ (by omega), List.take_zero, ← writeU32_readU32 (by omega), ← hheader, hpayload,
      hmagic, hschema, hreserved, hgeneration, recordBytes, hencoded, hsix, hseven]
  rw [encodeRecord_eq hstorable hnonzero, hbytes, append_checksum hend hchecksum]

/-- The bytes of a marker before its checksum. -/
def markerBytes (o : Options) (marker : Marker) : List UInt8 :=
  o.markerMagic ++ ([o.schemaVersion, UInt8.ofNat marker.activeSlot.val] ++
    (writeU32 marker.activeGeneration ++
      match marker.previousGeneration with
      | none => [0, 0] ++ writeU32 0
      | some generation => [1, UInt8.ofNat marker.previousSlot.val] ++ writeU32 generation))

theorem encodeMarker_eq (o : Options) (marker : Marker) :
    encodeMarker o marker = markerBytes o marker ++ writeU32 (crc32 (markerBytes o marker)) := by
  unfold encodeMarker markerBytes
  cases marker.previousGeneration <;> simp only [List.append_assoc]

theorem length_markerBytes (o : Options) (marker : Marker) :
    (markerBytes o marker).length = 16 := by
  unfold markerBytes
  cases marker.previousGeneration with
  | none => simp [o.markerMagic_length]
  | some generation => simp [o.markerMagic_length]

theorem markerBytes_fields (o : Options) (marker : Marker) (rest : List UInt8) :
    (markerBytes o marker ++ rest).take 4 = o.markerMagic ∧
      (markerBytes o marker ++ rest).getD 4 0 = o.schemaVersion ∧
      (markerBytes o marker ++ rest).getD 5 0 = UInt8.ofNat marker.activeSlot.val ∧
      (markerBytes o marker ++ rest).getD 10 0 =
        (if marker.previousGeneration.isSome then 1 else 0) ∧
      (markerBytes o marker ++ rest).getD 11 0 =
        (if marker.previousGeneration.isSome then UInt8.ofNat marker.previousSlot.val else 0) := by
  have hmagic := o.markerMagic_length
  unfold markerBytes
  cases marker.previousGeneration with
  | none =>
    match o.markerMagic, hmagic with
    | [_, _, _, _], _ => exact ⟨rfl, rfl, rfl, rfl, rfl⟩
  | some generation =>
    match o.markerMagic, hmagic with
    | [_, _, _, _], _ => exact ⟨rfl, rfl, rfl, rfl, rfl⟩

theorem markerBytes_active (o : Options) (marker : Marker) (rest : List UInt8) :
    readU32 (markerBytes o marker ++ rest) 6 = marker.activeGeneration := by
  have hfront : 6 = (o.markerMagic ++
      [o.schemaVersion, UInt8.ofNat marker.activeSlot.val]).length := by
    simp [o.markerMagic_length]
  unfold markerBytes
  rw [List.append_assoc, List.append_assoc, List.append_assoc, ← List.append_assoc o.markerMagic]
  exact readU32_append hfront _ _

theorem markerBytes_previous (o : Options) (marker : Marker) (rest : List UInt8) :
    readU32 (markerBytes o marker ++ rest) 12 = marker.previousGeneration.getD 0 := by
  have hfront : ∀ flags : List UInt8, flags.length = 2 →
      12 = (o.markerMagic ++ ([o.schemaVersion, UInt8.ofNat marker.activeSlot.val] ++
        (writeU32 marker.activeGeneration ++ flags))).length := by
    intro flags hflags
    simp [o.markerMagic_length, hflags]
  have hread : ∀ flags : List UInt8, flags.length = 2 → ∀ value : UInt32,
      readU32 (o.markerMagic ++ ([o.schemaVersion, UInt8.ofNat marker.activeSlot.val] ++
        (writeU32 marker.activeGeneration ++ (flags ++ writeU32 value))) ++ rest) 12 = value := by
    intro flags hflags value
    have hat := readU32_append (hfront flags hflags) value rest
    simpa only [List.append_assoc] using hat
  unfold markerBytes
  cases marker.previousGeneration with
  | none => exact hread [0, 0] rfl 0
  | some generation => exact hread [1, UInt8.ofNat marker.previousSlot.val] rfl generation

theorem decodeMarker_encodeMarker (o : Options) {marker : Marker}
    (hactive : marker.activeGeneration ≠ 0) (hprevious : marker.previousGeneration ≠ some 0) :
    decodeMarker o (encodeMarker o marker) = .ok marker := by
  obtain ⟨hmagic, hschema, hslot, hflag, hother⟩ :=
    markerBytes_fields o marker (writeU32 (crc32 (markerBytes o marker)))
  have hlength := length_markerBytes o marker
  have hchecksum : readU32 (markerBytes o marker ++ writeU32 (crc32 (markerBytes o marker))) 16 =
      crc32 (markerBytes o marker) := by
    have hread := readU32_append hlength.symm (crc32 (markerBytes o marker)) []
    rwa [List.append_nil] at hread
  have hsize : (markerBytes o marker ++ writeU32 (crc32 (markerBytes o marker))).length =
      markerSize := by
    rw [List.length_append, hlength]
    rfl
  rw [encodeMarker_eq]
  unfold decodeMarker
  dsimp only
  rw [hsize, hmagic, hschema, hslot, hflag, hother, markerBytes_active, markerBytes_previous,
    hchecksum, List.take_left' hlength]
  rw [if_neg (by simp), if_neg (UInt8.lt_irrefl _), if_neg (UInt8.lt_irrefl _)]
  obtain ⟨slot, active, previous⟩ := marker
  -- A marker is valid whichever slot is active, with and without a previous generation.
  cases previous with
  | none =>
    match slot with
    | 0 => simp [hactive]
    | 1 => simp [hactive]
  | some generation =>
    have hgeneration : generation ≠ 0 := fun h => hprevious (congrArg some h)
    match slot with
    | 0 => simp [hactive, hgeneration, Marker.previousSlot]
    | 1 => simp [hactive, hgeneration, Marker.previousSlot]

theorem zero_or_one {byte : UInt8} (h : ¬1 < byte) : byte = 0 ∨ byte = 1 := by
  have hle : byte.toNat ≤ 1 := UInt8.le_iff_toNat_le.mp (UInt8.not_lt.mp h)
  rcases Nat.le_one_iff_eq_zero_or_eq_one.mp hle with hzero | hone
  · exact .inl (UInt8.toNat_inj.mp hzero)
  · exact .inr (UInt8.toNat_inj.mp hone)

/-- What an accepted marker says of its bytes. -/
theorem decodeMarker_ok {marker : Marker} (h : decodeMarker o input = .ok marker) :
    input.length = 20 ∧ input.take 4 = o.markerMagic ∧ input.getD 4 0 = o.schemaVersion ∧
      input.getD 5 0 = UInt8.ofNat marker.activeSlot.val ∧
      readU32 input 6 = marker.activeGeneration ∧
      input.getD 10 0 = (if marker.previousGeneration.isSome then 1 else 0) ∧
      input.getD 11 0 =
        (if marker.previousGeneration.isSome then UInt8.ofNat marker.previousSlot.val else 0) ∧
      readU32 input 12 = marker.previousGeneration.getD 0 ∧
      readU32 input 16 = crc32 (input.take 16) := by
  unfold decodeMarker at h
  dsimp only at h
  obtain ⟨hhead, h⟩ := ite_ok h
  obtain ⟨hnewer, h⟩ := ite_ok h
  obtain ⟨holder, h⟩ := ite_ok h
  obtain ⟨hfields, h⟩ := ite_ok h
  obtain rfl := Except.ok.inj h
  simp only [not_or, not_not] at hhead hfields
  obtain ⟨hslot, -, hflag, hnone, hsome, hchecksum⟩ := hfields
  refine ⟨hhead.1, hhead.2, UInt8.le_antisymm (UInt8.not_lt.mp hnewer) (UInt8.not_lt.mp holder),
    ?_, rfl, ?_, ?_, ?_, hchecksum⟩
  · rcases zero_or_one hslot with hzero | hone
    · rw [hzero]
      rfl
    · rw [hone]
      rfl
  · rcases zero_or_one hflag with hzero | hone
    · rw [hzero]
      rfl
    · rw [hone]
      rfl
  · rcases zero_or_one hflag with hzero | hone
    · rw [hzero] at hnone ⊢
      by_contra hother
      exact hnone ⟨rfl, .inl hother⟩
    · -- The previous slot is one of the two, and not the active one.
      rw [hone] at hsome ⊢
      have hprevious : ¬1 < input.getD 11 0 := fun hlt => hsome ⟨rfl, .inl hlt⟩
      have hdistinct : input.getD 11 0 ≠ input.getD 5 0 := fun heq => hsome ⟨rfl, .inr (.inl heq)⟩
      rcases zero_or_one hslot with hslot' | hslot' <;>
        rcases zero_or_one hprevious with hprevious' | hprevious'
      · exact absurd (hprevious'.trans hslot'.symm) hdistinct
      · rw [hslot', hprevious']
        rfl
      · rw [hslot', hprevious']
        rfl
      · exact absurd (hprevious'.trans hslot'.symm) hdistinct
  · rcases zero_or_one hflag with hzero | hone
    · rw [hzero] at hnone ⊢
      by_contra hother
      exact hnone ⟨rfl, .inr hother⟩
    · rw [hone]
      rfl

/-- **Canonical**: a marker that is decoded is the encoding of the result. -/
theorem encodeMarker_decodeMarker {marker : Marker} (h : decodeMarker o input = .ok marker) :
    encodeMarker o marker = input := by
  obtain ⟨hsize, hmagic, hschema, hslot, hactive, hflag, hother, hprevious, hchecksum⟩ :=
    decodeMarker_ok h
  have hfields : input.take 16 = input.take 4 ++ ((input.drop 4).take 2 ++
      ((input.drop 6).take 4 ++ ((input.drop 10).take 2 ++ (input.drop 12).take 4))) := by
    rw [show 16 = 4 + (2 + (4 + (2 + 4))) by rfl, List.take_add, List.take_add, List.take_add,
      List.take_add, List.drop_drop, List.drop_drop, List.drop_drop]
  have htwo : ∀ offset < 19, (input.drop offset).take 2 =
      [input.getD offset 0, input.getD (offset + 1) 0] := by
    intro offset hlt
    rw [take_drop_succ (by omega), take_drop_succ (by omega), List.take_zero]
  have hfour : ∀ offset < 17, (input.drop offset).take 4 = writeU32 (readU32 input offset) := by
    intro offset hlt
    exact (writeU32_readU32 (by omega)).symm
  have hbytes : markerBytes o marker = input.take 16 := by
    rw [hfields, htwo 4 (by omega), htwo 10 (by omega), hfour 6 (by omega), hfour 12 (by omega),
      hmagic, hschema, hslot, hactive, hflag, hother, hprevious, markerBytes]
    cases marker.previousGeneration with
    | none => rfl
    | some generation => rfl
  rw [encodeMarker_eq, hbytes, append_checksum (by omega) hchecksum]

end Canonical

/-! ### Both directions -/

theorem encodeRecord_some {o : Options} {encoded : List UInt8}
    (h : encodeRecord o record = some encoded) (hvalid : o.validatePayload record.payload = true) :
    record.generation ≠ 0 ∧ Storable o record.payload := by
  unfold encodeRecord at h
  dsimp only at h
  split_ifs at h with hlimits
  simp only [not_or, not_lt] at hlimits
  exact ⟨hlimits.2.2.2, hlimits.1, hlimits.2.1, hlimits.2.2.1, hvalid⟩

/-- **The codecs**: what is encoded is decoded again, what is decoded is the encoding of the result,
and the decoders read inside their input. -/
theorem codecs_canonical (o : Options) :
    (∀ record : TransactionRecord, record.generation ≠ 0 → Storable o record.payload →
      (encodeRecord o record).isSome) ∧
    (∀ (record : TransactionRecord) (encoded : List UInt8), encodeRecord o record = some encoded →
      o.validatePayload record.payload = true → decodeRecord o encoded = .ok record) ∧
    (∀ (input : List UInt8) (record : TransactionRecord), decodeRecord o input = .ok record →
      encodeRecord o record = some input) ∧
    (∀ marker : Marker, marker.activeGeneration ≠ 0 → marker.previousGeneration ≠ some 0 →
      decodeMarker o (encodeMarker o marker) = .ok marker) ∧
    (∀ (input : List UInt8) (marker : Marker), decodeMarker o input = .ok marker →
      encodeMarker o marker = input) ∧
    (∀ size : ℕ, Only (· < size) (decodeRecordFrom o size) ∧
      Only (· < size) (decodeMarkerFrom o size)) ∧
    ∀ input : List UInt8, (decodeRecordFrom o input.length).of input = decodeRecord o input ∧
      (decodeMarkerFrom o input.length).of input = decodeMarker o input := by
  refine ⟨?_, ?_, ?_, ?_, ?_, ?_, ?_⟩
  · intro record hgeneration hpayload
    rw [encodeRecord_eq hpayload hgeneration]
    rfl
  · intro record encoded hencoded hvalid
    obtain ⟨hgeneration, hpayload⟩ := encodeRecord_some hencoded hvalid
    exact decodeRecord_encodeRecord hpayload hgeneration hencoded
  · intro input record hdecoded
    exact encodeRecord_decodeRecord hdecoded
  · intro marker hactive hprevious
    exact decodeMarker_encodeMarker o hactive hprevious
  · intro input marker hdecoded
    exact encodeMarker_decodeMarker hdecoded
  · intro size
    exact ⟨decodeRecord_reads o size, decodeMarker_reads o size⟩
  · intro input
    exact ⟨decodeRecordFrom_of o input, decodeMarkerFrom_of o input⟩

/-- A store of up to eight bytes, the first of which is not counted. -/
def sampleCodecOptions : Options where
  recordMagic := [82, 69, 67, 49]
  markerMagic := [77, 82, 75, 49]
  schemaVersion := 1
  payloadCapacity := 8
  payloadLengthExcludedPrefix := 1
  validatePayload := fun payload => payload.all (· ≠ 0)
  recordMagic_length := rfl
  markerMagic_length := rfl
  schemaVersion_ne := by decide
  payloadCapacity_le := by decide
  prefix_le := by decide

theorem codecs_canonical_sample :
    ∃ encoded, encodeRecord sampleCodecOptions ⟨[1, 2, 3], 7⟩ = some encoded ∧
      decodeRecord sampleCodecOptions encoded = .ok ⟨[1, 2, 3], 7⟩ ∧
      decodeMarker sampleCodecOptions (encodeMarker sampleCodecOptions ⟨1, 7, some 6⟩) =
        .ok ⟨1, 7, some 6⟩ := by
  obtain ⟨haccepts, hrecord, -, hmarker, -⟩ := codecs_canonical sampleCodecOptions
  have hpayload : Storable sampleCodecOptions [1, 2, 3] :=
    ⟨by decide, by decide, by decide, by decide⟩
  have hsome := haccepts ⟨[1, 2, 3], 7⟩ (by decide) hpayload
  obtain ⟨encoded, hencoded⟩ := Option.isSome_iff_exists.mp hsome
  exact ⟨encoded, hencoded, hrecord _ encoded hencoded (by decide),
    hmarker ⟨1, 7, some 6⟩ (by decide) (by decide)⟩

/-! ### Damaged records -/

theorem encodeRecord_checksum {o : Options} {encoded : List UInt8}
    (h : encodeRecord o record = some encoded) :
    encoded.foldl crcByte 0xffffffff = crcBit^[32] 0xffffffff := by
  unfold encodeRecord at h
  dsimp only at h
  split_ifs at h
  obtain rfl := Option.some.inj h
  exact foldl_crcByte_crc32 _

theorem split_window {α : Type} (list : List α) (offset width : ℕ) :
    list = list.take offset ++ (list.drop offset).take width ++ list.drop (offset + width) := by
  rw [List.append_assoc, ← List.drop_drop, List.take_append_drop, List.take_append_drop]

theorem split_of_window {α : Type} {encoded altered : List α} {width : ℕ}
    (hwindow : ∀ index, index < offset ∨ offset + width ≤ index →
      altered[index]? = encoded[index]?) :
    altered = encoded.take offset ++ (altered.drop offset).take width ++
      encoded.drop (offset + width) := by
  have hfront : altered.take offset = encoded.take offset := by
    apply List.ext_getElem?
    intro index
    rw [List.getElem?_take, List.getElem?_take]
    split_ifs with hindex
    · exact hwindow index (.inl hindex)
    · rfl
  have hrest : altered.drop (offset + width) = encoded.drop (offset + width) := by
    apply List.ext_getElem?
    intro index
    rw [List.getElem?_drop, List.getElem?_drop]
    exact hwindow _ (.inr (Nat.le_add_right _ _))
  rw [← hfront, ← hrest]
  exact split_window altered offset width

/-- **Bursts**: a record that is damaged in up to four consecutive bytes is rejected, wherever the
damage is. -/
theorem decodeRecord_burst {o : Options} {record : TransactionRecord} {encoded altered : List UInt8}
    (hencoded : encodeRecord o record = some encoded) (hlength : altered.length = encoded.length)
    (offset : ℕ) (hwindow : ∀ index, index < offset ∨ offset + 4 ≤ index →
      altered[index]? = encoded[index]?) (hne : altered ≠ encoded) :
    ∃ failure, decodeRecord o altered = .error failure := by
  cases hdecoded : decodeRecord o altered with
  | error failure => exact ⟨failure, rfl⟩
  | ok result =>
    -- What is accepted is an encoding as well, so both strings leave the same register.
    have hregister : encoded.foldl crcByte 0xffffffff = altered.foldl crcByte 0xffffffff :=
      (encodeRecord_checksum hencoded).trans
        (encodeRecord_checksum (encodeRecord_decodeRecord hdecoded)).symm
    have haltered := split_of_window hwindow
    have hsplit := split_window encoded offset 4
    have hsame : (altered.drop offset).take 4 = (encoded.drop offset).take 4 := by
      refine crcByte_burst 0xffffffff (encoded.take offset) (encoded.drop (offset + 4))
        (List.length_take_le _ _) ?_ ?_
      · rw [List.length_take, List.length_take, List.length_drop, List.length_drop, hlength]
      · rw [← hsplit, ← haltered]
        exact hregister
    rw [hsame, ← hsplit] at haltered
    exact absurd haltered hne

/-- The generation, from 7 to 8. -/
theorem decodeRecord_burst_sample :
    ∃ encoded, encodeRecord sampleCodecOptions ⟨[1, 2, 3], 7⟩ = some encoded ∧
      ∃ failure, decodeRecord sampleCodecOptions (encoded.set 8 8) = .error failure := by
  have hpayload : Storable sampleCodecOptions [1, 2, 3] :=
    ⟨by decide, by decide, by decide, by decide⟩
  have hencoded := @encodeRecord_eq sampleCodecOptions ⟨[1, 2, 3], 7⟩ hpayload (by decide)
  refine ⟨_, hencoded, decodeRecord_burst hencoded List.length_set 8 ?_ ?_⟩
  · intro index hindex
    exact List.getElem?_set_ne (by omega)
  · intro hsame
    have hbyte := congrArg (fun bytes : List UInt8 => bytes.getD 8 0) hsame
    exact absurd hbyte (by decide)

end RlcdDeck.TransactionStore
