import RlcdDeck.Bytes.Equiv.LittleEndian
import RlcdDeck.TransactionStore.Equiv.Memory

/-!
# The transaction store over a storage that works

What was encoded is decoded again (`decodeRecord_encodeRecord`).  So over a storage that works a
staged payload is committed, whatever the storage held before (`run_stage`, `run_commit`).
-/

namespace RlcdDeck.TransactionStore

open Bytes Effects

/-! ### Records -/

/-- The payloads that can be staged. -/
def Storable (o : Options) (payload : List UInt8) : Prop :=
  payload.length ≠ 0 ∧ o.payloadLengthExcludedPrefix ≤ payload.length ∧
    payload.length ≤ o.payloadCapacity ∧ o.validatePayload payload = true

/-- The bytes of a record before its checksum. -/
def recordBytes (o : Options) (record : TransactionRecord) : List UInt8 :=
  let encodedSize := record.payload.length - o.payloadLengthExcludedPrefix
  o.recordMagic ++
    ([o.schemaVersion, 0, UInt8.ofNat encodedSize, UInt8.ofNat (encodedSize / 256)] ++
      (writeU32 record.generation ++ record.payload))

theorem length_recordBytes (o : Options) (record : TransactionRecord) :
    (recordBytes o record).length = recordHeaderSize + record.payload.length := by
  simp only [recordBytes, List.length_append, o.recordMagic_length, length_writeU32,
    List.length_cons, List.length_nil, recordHeaderSize]
  omega

theorem encodeRecord_eq {o : Options} {record : TransactionRecord}
    (hpayload : Storable o record.payload) (hgeneration : record.generation ≠ 0) :
    encodeRecord o record =
      some (recordBytes o record ++ writeU32 (crc32 (recordBytes o record))) := by
  obtain ⟨hsize, hheader, hcapacity, -⟩ := hpayload
  unfold encodeRecord
  rw [if_neg]
  · simp only [recordBytes, List.append_assoc]
  · rintro (h | h | h | h)
    · exact hsize h
    · omega
    · omega
    · exact hgeneration h

theorem recordBytes_header (o : Options) (record : TransactionRecord) (rest : List UInt8) :
    (recordBytes o record ++ rest).take 4 = o.recordMagic ∧
      (recordBytes o record ++ rest).getD 4 0 = o.schemaVersion ∧
      (recordBytes o record ++ rest).getD 5 0 = 0 ∧
      (recordBytes o record ++ rest).getD 6 0 =
        UInt8.ofNat (record.payload.length - o.payloadLengthExcludedPrefix) ∧
      (recordBytes o record ++ rest).getD 7 0 =
        UInt8.ofNat ((record.payload.length - o.payloadLengthExcludedPrefix) / 256) := by
  have hmagic := o.recordMagic_length
  unfold recordBytes
  match o.recordMagic, hmagic with
  | [_, _, _, _], _ => exact ⟨rfl, rfl, rfl, rfl, rfl⟩

theorem recordBytes_generation (o : Options) (record : TransactionRecord) (rest : List UInt8) :
    readU32 (recordBytes o record ++ rest) 8 = record.generation := by
  have hfront : 8 = (o.recordMagic ++ [o.schemaVersion, 0,
      UInt8.ofNat (record.payload.length - o.payloadLengthExcludedPrefix),
      UInt8.ofNat ((record.payload.length - o.payloadLengthExcludedPrefix) / 256)]).length := by
    simp [o.recordMagic_length]
  have hread := readU32_append hfront record.generation (record.payload ++ rest)
  simpa only [recordBytes, List.append_assoc] using hread

theorem recordBytes_payload (o : Options) (record : TransactionRecord) (rest : List UInt8) :
    ((recordBytes o record ++ rest).drop recordHeaderSize).take record.payload.length =
      record.payload := by
  have hfront : (o.recordMagic ++ ([o.schemaVersion, 0,
      UInt8.ofNat (record.payload.length - o.payloadLengthExcludedPrefix),
      UInt8.ofNat ((record.payload.length - o.payloadLengthExcludedPrefix) / 256)] ++
      writeU32 record.generation)).length = recordHeaderSize := by
    simp [o.recordMagic_length, recordHeaderSize]
  have hsplit : recordBytes o record ++ rest = (o.recordMagic ++ ([o.schemaVersion, 0,
      UInt8.ofNat (record.payload.length - o.payloadLengthExcludedPrefix),
      UInt8.ofNat ((record.payload.length - o.payloadLengthExcludedPrefix) / 256)] ++
      writeU32 record.generation)) ++ (record.payload ++ rest) := by
    simp only [recordBytes, List.append_assoc]
  rw [hsplit, List.drop_left' hfront, List.take_left' rfl]

variable {o : Options}

/-- What was encoded is decoded again. -/
theorem decodeRecord_encodeRecord {record : TransactionRecord}
    (hpayload : Storable o record.payload) (hgeneration : record.generation ≠ 0)
    {encoded : List UInt8} (h : encodeRecord o record = some encoded) :
    decodeRecord o encoded = .ok record := by
  rw [encodeRecord_eq hpayload hgeneration] at h
  obtain rfl := Option.some.inj h
  obtain ⟨hsize, hheader, hcapacity, hvalid⟩ := hpayload
  have hmax := o.payloadCapacity_le
  unfold maxPayloadCapacity at hmax
  obtain ⟨hmagic, hschema, hreserved, hlow, hhigh⟩ :=
    recordBytes_header o record (writeU32 (crc32 (recordBytes o record)))
  have hlength := length_recordBytes o record
  have hchecksum : readU32 (recordBytes o record ++ writeU32 (crc32 (recordBytes o record)))
      (recordHeaderSize + record.payload.length) = crc32 (recordBytes o record) := by
    have hread := readU32_append hlength.symm (crc32 (recordBytes o record)) []
    rwa [List.append_nil] at hread
  have hencoded : (UInt8.ofNat (record.payload.length - o.payloadLengthExcludedPrefix)).toNat +
      (UInt8.ofNat ((record.payload.length - o.payloadLengthExcludedPrefix) / 256)).toNat * 256 =
        record.payload.length - o.payloadLengthExcludedPrefix :=
    read_lengthBytes (by omega)
  have hlen : (recordBytes o record ++ writeU32 (crc32 (recordBytes o record))).length =
      recordHeaderSize + record.payload.length + checksumSize := by
    rw [List.length_append, hlength]
    rfl
  unfold decodeRecord
  rw [hmagic, hschema, hreserved, hlow, hhigh, hencoded, hlen]
  rw [if_neg (by simp only [ne_eq, not_true, or_false]; omega),
    if_neg (UInt8.lt_irrefl _), if_neg (UInt8.lt_irrefl _)]
  dsimp only
  rw [if_neg (by omega), Nat.sub_add_cancel hheader, recordBytes_generation, recordBytes_payload,
    hchecksum, List.take_left' hlength]
  rw [if_neg]
  rintro (h | h | h | h | h | h | h)
  · exact h rfl
  · exact hsize h
  · omega
  · exact h rfl
  · exact hgeneration h
  · exact h rfl
  · rw [hvalid] at h
    cases h

/-! ### The storage that works -/

theorem Flash.put_self (flash : Flash) (key : StorageKey) (bytes : Option (List UInt8)) :
    flash.put key bytes key = bytes :=
  if_pos rfl

theorem Flash.get_put {flash : Flash} {key : StorageKey} {bytes : List UInt8} {capacity : ℕ}
    (h : bytes.length ≤ capacity) : (flash.put key (some bytes)).get key capacity = .ok bytes := by
  unfold Flash.get
  rw [Flash.put_self]
  exact if_pos h

theorem Flash.run_allocate (flash : Flash) : allocate.run Flash.answer flash = (true, flash) := rfl

theorem Flash.run_read (flash : Flash) (key : StorageKey) (capacity : ℕ) :
    (read key capacity).run Flash.answer flash = (flash.get key capacity, flash) := rfl

theorem Flash.run_write (flash : Flash) (key : StorageKey) (data : List UInt8) :
    (write key data).run Flash.answer flash = (true, flash.put key (some data)) := rfl

theorem Flash.run_erase (flash : Flash) (key : StorageKey) :
    (erase key).run Flash.answer flash = (true, flash.put key none) := rfl

theorem run_readEncodedRecord {key : StorageKey} {flash : Flash} {bytes : List UInt8}
    {record : TransactionRecord}
    (hread : flash.get key (recordHeaderSize + o.payloadCapacity + checksumSize) = .ok bytes)
    (hdecoded : decodeRecord o bytes = .ok record) :
    (readEncodedRecord o key).run Flash.answer flash = (.ok (.ok record), flash) := by
  unfold readEncodedRecord
  simp only [Program.run_bind, Flash.run_allocate, Flash.run_read, hread, hdecoded,
    Bool.not_true, Bool.false_eq_true, if_false, if_true, Program.run_pure]

variable {s : Store}

namespace Store

theorem run_writeRecord {o : Options} {record : TransactionRecord}
    (hpayload : Storable o record.payload) (hgeneration : record.generation ≠ 0)
    (key : StorageKey) (flash : Flash) :
    ∃ flash', (writeRecord o key record).run Flash.answer flash = (true, flash') := by
  have hencoded := encodeRecord_eq hpayload hgeneration
  have hdecoded := decodeRecord_encodeRecord hpayload hgeneration hencoded
  have hlength : (recordBytes o record ++ writeU32 (crc32 (recordBytes o record))).length ≤
      recordHeaderSize + o.payloadCapacity + checksumSize := by
    rw [List.length_append, length_recordBytes, length_writeU32]
    have hcapacity := hpayload.2.2.1
    unfold checksumSize
    omega
  generalize recordBytes o record ++ writeU32 (crc32 (recordBytes o record)) = encoded at *
  refine ⟨flash.put key (some encoded), ?_⟩
  unfold writeRecord
  simp only [hencoded, Program.run_bind, Flash.run_allocate, Flash.run_write,
    run_readEncodedRecord (Flash.get_put hlength) hdecoded, Bool.not_true, Bool.false_eq_true,
    if_false, decide_true, Program.run_pure]

theorem run_stage {payload : List UInt8} (hpayload : Storable o payload)
    (hs : s.storageFaulted = false) (flash : Flash) :
    ∃ flash', (s.stage o payload).run Flash.answer flash =
      ((.updated, { s with
        candidate := some ⟨payload, s.nextGeneration⟩, candidateRecordStatus := .valid }),
        flash') := by
  have hgeneration : s.nextGeneration ≠ 0 := by
    rw [nextGeneration_eq]
    exact Counter.nonzeroNext32_ne_zero _
  obtain ⟨flash', hwritten⟩ :=
    @run_writeRecord o ⟨payload, s.nextGeneration⟩ hpayload hgeneration .candidate flash
  refine ⟨flash', ?_⟩
  unfold stage
  rw [if_neg, if_neg (by simp [hs])]
  · simp only [Program.run_bind, hwritten, Bool.not_true, Bool.false_eq_true, if_false,
      Program.run_pure]
  · obtain ⟨hsize, hheader, hcapacity, hvalid⟩ := hpayload
    rintro (h | h | h | h)
    · exact hsize h
    · omega
    · omega
    · rw [hvalid] at h
      cases h

theorem length_encodeMarker (o : Options) (marker : Marker) :
    (encodeMarker o marker).length = markerSize := by
  unfold encodeMarker
  cases marker.previousGeneration with
  | none => simp [o.markerMagic_length, markerSize]
  | some generation => simp [o.markerMagic_length, markerSize]

theorem run_writeAndVerifyMarker (o : Options) (marker : Marker) (flash : Flash) :
    ∃ flash', (writeAndVerifyMarker (encodeMarker o marker)).run Flash.answer flash =
      (true, flash') := by
  refine ⟨flash.put .activeMarker (some (encodeMarker o marker)), ?_⟩
  unfold writeAndVerifyMarker
  simp only [Program.run_bind, Flash.run_write, Flash.run_read,
    Flash.get_put (length_encodeMarker o marker).le, Bool.not_true, Bool.false_eq_true, if_false,
    decide_true, Program.run_pure]

/-- The marker speaks of the active record, so a commit does not prepare it. -/
def Settled (s : Store) : Prop :=
  s.storageFaulted = false ∧
    match s.active with
    | some _ => s.markerMatchesActive = true
    | none => s.markerPresent = false

theorem run_prepareMarker (hs : s.Settled) (flash : Flash) :
    (s.prepareMarker o).run Flash.answer flash = ((true, s), flash) := by
  obtain ⟨-, hmarker⟩ := hs
  unfold prepareMarker activeMarker
  match hactive : s.active with
  | none =>
    rw [hactive] at hmarker
    simp only [Option.map_none, hmarker, Bool.not_false, if_true, Program.run_pure]
  | some active =>
    rw [hactive] at hmarker
    simp only [Option.map_some, hmarker, if_true, Program.run_pure]

/-- The store after a commit whose last step, the erase of the candidate, works. -/
def committed (s : Store) (candidate : TransactionRecord) : Store :=
  { s with
    active := some candidate
    activeSlot := s.nextSlot
    recordStatus := .valid
    markerPresent := true
    markerMatchesActive := true
    candidate := none
    candidateRecordStatus := .empty }

theorem run_commit {candidate : TransactionRecord} (hs : s.Settled)
    (hcandidate : s.candidate = some candidate) (hpayload : Storable o candidate.payload)
    (hgeneration : candidate.generation ≠ 0) (flash : Flash) :
    ∃ flash', (s.commit o).run Flash.answer flash =
      ((.updated, s.committed candidate), flash') := by
  obtain ⟨written, hwritten⟩ := run_writeRecord hpayload hgeneration (slotKey s.nextSlot) flash
  obtain ⟨marked, hmarked⟩ := run_writeAndVerifyMarker o
    ⟨s.nextSlot, candidate.generation, s.active.map fun active => active.generation⟩ written
  refine ⟨marked.put .candidate none, ?_⟩
  unfold commit
  simp only [hcandidate, hs.1, Program.run_bind, run_prepareMarker hs, hwritten, hmarked,
    Flash.run_erase, Bool.not_true, Bool.false_eq_true, if_false, if_true, Program.run_pure,
    committed]

theorem settled_committed (hs : s.Settled) (candidate : TransactionRecord) :
    (s.committed candidate).Settled :=
  ⟨hs.1, rfl⟩

end Store

end RlcdDeck.TransactionStore
