import RlcdDeck.SerialFrame.Codec

/-!
# The two codecs of the serial frame agree

The format is said once: a valid frame `f` is laid out as the bytes `Frame.layout f`.  Each encoder
writes the layout of every valid frame and refuses all others, and each decoder reads `f` from
exactly the bytes `f.layout` of a valid `f`.  Agreement and both round trips follow from these four
facts (`codecs_agree`).
-/

namespace RlcdDeck.SerialFrame

open Bytes.BigEndian

/-- What both programs take for a frame. -/
structure Frame.Valid (frame : Frame) : Prop where
  channel : validChannel frame.channel = true
  sessionId : frame.sessionId ≠ 0
  sequence : frame.sequence ≠ 0
  payload_pos : 0 < frame.payload.length
  payload_le : frame.payload.length ≤ maxPayloadBytes

instance (frame : Frame) : Decidable frame.Valid :=
  decidable_of_iff
    (validChannel frame.channel = true ∧ frame.sessionId ≠ 0 ∧ frame.sequence ≠ 0 ∧
      0 < frame.payload.length ∧ frame.payload.length ≤ maxPayloadBytes)
    ⟨fun ⟨hc, hs, hq, hp, hl⟩ => ⟨hc, hs, hq, hp, hl⟩,
      fun h => ⟨h.channel, h.sessionId, h.sequence, h.payload_pos, h.payload_le⟩⟩

/-- The header of a frame, without its magic. -/
def Frame.header (frame : Frame) : List UInt8 :=
  [frame.channel, 0] ++ write 2 frame.payload.length ++
    write 8 frame.sessionId.toNat ++ write 8 frame.sequence.toNat ++
    write 8 frame.monotonicMs.toNat

/-- The bytes of a frame. -/
def Frame.layout (frame : Frame) : List UInt8 :=
  magic ++ frame.header ++ frame.payload

@[simp] theorem Frame.length_header (frame : Frame) : frame.header.length = 28 := by
  simp [Frame.header]

@[simp] theorem Frame.length_layout (frame : Frame) :
    frame.layout.length = headerBytes + frame.payload.length := by
  simp [Frame.layout, magic, headerBytes]
  omega

/-! ### The integers of the firmware -/

theorem writeU16_eq (value : UInt16) : writeU16 value = write 2 value.toNat := by
  have hhigh : (value >>> 8).toUInt8 = UInt8.ofNat (value.toNat / 256) := by
    apply UInt8.toNat_inj.mp
    rw [UInt16.toNat_toUInt8, UInt16.toNat_shiftRight, UInt8.toNat_ofNat', Nat.shiftRight_eq_div_pow]
    rfl
  have hlow : value.toUInt8 = UInt8.ofNat value.toNat := by
    apply UInt8.toNat_inj.mp
    rw [UInt16.toNat_toUInt8, UInt8.toNat_ofNat']
  rw [writeU16, hhigh, hlow]
  rfl

theorem writeU64_eq (value : UInt64) : writeU64 value = write 8 value.toNat := by
  rw [writeU64, write_eq_map]
  apply List.map_congr_left
  intro index hindex
  have hindex : index < 8 := List.mem_range.mp hindex
  have hshift : (UInt64.ofNat (7 - index) * 8).toNat % 64 = 8 * (8 - 1 - index) := by
    have height : (8 : UInt64).toNat = 8 := rfl
    rw [UInt64.toNat_mul, UInt64.toNat_ofNat', height]
    omega
  apply UInt8.toNat_inj.mp
  rw [UInt64.toNat_toUInt8, UInt64.toNat_shiftRight, hshift, UInt8.toNat_ofNat',
    Nat.shiftRight_eq_div_pow, Nat.pow_mul]

variable {input : List UInt8}

theorem readU16_eq (h : 2 ≤ input.length) :
    readU16 input = UInt16.ofNat (read (input.take 2)) := by
  match input, h with
  | high :: low :: _, _ =>
    have hhigh := high.toNat_lt
    have hlow := low.toNat_lt
    have hshifted : (high.toUInt16 <<< 8).toNat = high.toNat <<< 8 := by
      rw [UInt16.toNat_shiftLeft, UInt8.toNat_toUInt16]
      show high.toNat <<< 8 % 65536 = high.toNat <<< 8
      rw [Nat.shiftLeft_eq]
      omega
    apply UInt16.toNat_inj.mp
    show (high.toUInt16 <<< 8 ||| low.toUInt16).toNat =
      (UInt16.ofNat (256 * (256 * 0 + high.toNat) + low.toNat)).toNat
    rw [UInt16.toNat_or, hshifted, UInt8.toNat_toUInt16, ← Nat.shiftLeft_add_eq_or_of_lt hlow,
      Nat.shiftLeft_eq, UInt16.toNat_ofNat']
    omega

/-- The first `k` bytes, read by shifting. -/
theorem readU64_prefix (h : 8 ≤ input.length) (k : ℕ) (hk : k ≤ 8) :
    ((List.range k).foldl
      (fun (value : UInt64) index => value <<< 8 ||| (input.getD index 0).toUInt64) 0).toNat =
        read (input.take k) := by
  induction k with
  | zero => rfl
  | succ k ih =>
    have hbound : read (input.take k) < 2 ^ 56 := by
      have hread := read_lt (input.take k)
      have hpow : 256 ^ (input.take k).length ≤ 256 ^ 7 := by
        apply Nat.pow_le_pow_right (by omega)
        rw [List.length_take]
        omega
      omega
    rw [List.range_succ, List.foldl_append, List.foldl_cons, List.foldl_nil,
      read_take_succ (by omega)]
    have ih := ih (by omega)
    generalize (List.range k).foldl _ (0 : UInt64) = value at ih ⊢
    have hbyte := (input.getD k 0).toNat_lt
    have hshifted : (value <<< 8).toNat = value.toNat <<< 8 := by
      rw [UInt64.toNat_shiftLeft]
      show value.toNat <<< 8 % 2 ^ 64 = value.toNat <<< 8
      rw [Nat.shiftLeft_eq]
      omega
    rw [UInt64.toNat_or, hshifted, UInt8.toNat_toUInt64, ← Nat.shiftLeft_add_eq_or_of_lt hbyte,
      Nat.shiftLeft_eq, ih, Nat.mul_comm]

theorem readU64_eq (h : 8 ≤ input.length) :
    readU64 input = UInt64.ofNat (read (input.take 8)) := by
  rw [← readU64_prefix h 8 le_rfl, UInt64.ofNat_toNat]
  rfl

/-! ### The encoders -/

theorem overwrite_append {done : List UInt8} {offset : ℕ} (h : offset = done.length)
    (rest bytes : List UInt8) :
    overwrite (done ++ rest) offset bytes = (done ++ bytes) ++ rest.drop bytes.length := by
  rw [overwrite, h, List.take_left, List.drop_append, Nat.add_sub_cancel_left,
    List.drop_eq_nil_of_le (by omega), List.nil_append]

theorem Frame.valid_iff (frame : Frame) :
    frame.Valid ↔
      (!validChannel frame.channel || frame.sessionId == 0 || frame.sequence == 0 ||
        frame.payload.length == 0 || decide (frame.payload.length > maxPayloadBytes)) = false := by
  simp only [Bool.or_eq_false_iff, Bool.not_eq_false', beq_eq_false_iff_ne, ne_eq,
    decide_eq_false_iff_not, gt_iff_lt, not_lt]
  constructor
  · intro h
    exact ⟨⟨⟨⟨h.channel, h.sessionId⟩, h.sequence⟩, h.payload_pos.ne'⟩, h.payload_le⟩
  · rintro ⟨⟨⟨⟨hc, hs⟩, hq⟩, hp⟩, hl⟩
    exact ⟨hc, hs, hq, Nat.pos_of_ne_zero hp, hl⟩

variable {frame : Frame}

theorem Frame.Valid.payload_size (hvalid : frame.Valid) :
    (UInt16.ofNat frame.payload.length).toNat = frame.payload.length := by
  have hle := hvalid.payload_le
  unfold maxPayloadBytes at hle
  rw [UInt16.toNat_ofNat']
  omega

theorem deckSerialFrameEncode_of_valid (hvalid : frame.Valid) {output : List UInt8}
    (hcapacity : headerBytes + frame.payload.length ≤ output.length) :
    deckSerialFrameEncode frame.channel frame.sessionId frame.sequence frame.monotonicMs
        frame.payload output =
      (headerBytes + frame.payload.length,
        frame.layout ++ output.drop (headerBytes + frame.payload.length)) := by
  have htests := frame.valid_iff.mp hvalid
  have hroom : decide (output.length < headerBytes + frame.payload.length) = false := by
    simpa using hcapacity
  rw [deckSerialFrameEncode, htests, hroom]
  simp only [Bool.or_self, Bool.false_eq_true, if_false, writeU16_eq, writeU64_eq,
    hvalid.payload_size]
  -- Each write starts where the one before it ended.
  have hfirst : overwrite output 0 magic = magic ++ output.drop 4 := by
    simp [overwrite, magic]
  rw [hfirst, overwrite_append (by simp [magic]), overwrite_append (by simp [magic]),
    overwrite_append (by simp [magic]), overwrite_append (by simp [magic]),
    overwrite_append (by simp [magic]), overwrite_append (by simp [magic]),
    overwrite_append (by simp [magic, headerBytes])]
  simp [Frame.layout, Frame.header, headerBytes]

theorem Companion.encode_of_valid (hvalid : frame.Valid) :
    encode frame = .ok frame.layout := by
  have hchannel := hvalid.channel
  have hsession := hvalid.sessionId
  have hsequence := hvalid.sequence
  have hnonempty := hvalid.payload_pos.ne'
  have hfits : ¬ frame.payload.length > maxPayloadBytes := by
    have hle := hvalid.payload_le
    omega
  simp [encode, hchannel, hsession, hsequence, hnonempty, hfits, putUint16, putUint64,
    hvalid.payload_size, Frame.layout, Frame.header]

theorem deckSerialFrameEncode_of_not_valid (hinvalid : ¬ frame.Valid) (output : List UInt8) :
    deckSerialFrameEncode frame.channel frame.sessionId frame.sequence frame.monotonicMs
        frame.payload output = (0, output) := by
  have htests := mt frame.valid_iff.mpr hinvalid
  rw [Bool.not_eq_false] at htests
  rw [deckSerialFrameEncode, htests]
  rfl

theorem Companion.encode_of_not_valid (hinvalid : ¬ frame.Valid) :
    (encode frame).toOption = none := by
  by_contra haccepted
  apply hinvalid
  rw [Frame.valid_iff]
  unfold encode at haccepted
  split_ifs at haccepted with hchannel hzero hlarge
  · exact absurd rfl haccepted
  · exact absurd rfl haccepted
  · exact absurd rfl haccepted
  · simp_all

/-! ### The decoders -/

variable {document : List UInt8}

theorem document_split (h : headerBytes ≤ document.length) :
    document = document.take 4 ++ [document.getD 4 0, document.getD 5 0] ++
      (document.drop 6).take 2 ++ (document.drop 8).take 8 ++ (document.drop 16).take 8 ++
      (document.drop 24).take 8 ++ document.drop headerBytes := by
  unfold headerBytes at h ⊢
  have hsplit : ∀ i n, document.drop i = (document.drop i).take n ++ document.drop (i + n) := by
    intro i n
    rw [← List.drop_drop, List.take_append_drop]
  have hfour : document.drop 4 = [document.getD 4 0, document.getD 5 0] ++ document.drop 6 := by
    rw [List.getD_eq_getElem _ _ (by omega : 4 < document.length),
      List.getD_eq_getElem _ _ (by omega : 5 < document.length),
      List.drop_eq_getElem_cons (by omega), List.drop_eq_getElem_cons (by omega)]
    rfl
  calc document
    _ = document.take 4 ++ document.drop 4 := (List.take_append_drop 4 document).symm
    _ = _ := by
      conv_lhs => rw [hfour, hsplit 6 2, hsplit 8 8, hsplit 16 8, hsplit 24 8]
      simp only [List.append_assoc]

theorem readU16_eq_uint16 (h : headerBytes ≤ document.length) :
    readU16 (document.drop 6) = Companion.uint16 (document.extract 6 8) := by
  unfold headerBytes at h
  rw [readU16_eq (by rw [List.length_drop]; omega)]
  rfl

theorem readU64_eq_uint64 (h : headerBytes ≤ document.length) {i : ℕ} (hi : i ≤ 24) :
    readU64 (document.drop i) = Companion.uint64 (document.extract i (i + 8)) := by
  unfold headerBytes at h
  rw [readU64_eq (by rw [List.length_drop]; omega), Companion.uint64, List.extract_eq_take_drop,
    Nat.add_sub_cancel_left]

theorem decoders_agree (document : List UInt8) :
    deckSerialFrameDecode document = (Companion.decode document).toOption := by
  by_cases hlength : document.length < headerBytes
  · simp [deckSerialFrameDecode, Companion.decode, hlength, Except.toOption]
  · have hlength' : headerBytes ≤ document.length := by omega
    unfold deckSerialFrameDecode Companion.decode
    simp only [readU16_eq_uint16 hlength', readU64_eq_uint64 hlength' (by omega : 8 ≤ 24),
      readU64_eq_uint64 hlength' (by omega : 16 ≤ 24), readU64_eq_uint64 hlength' le_rfl]
    generalize Companion.uint16 (document.extract 6 8) = size
    have hzero : (size == 0) = (size.toNat == 0) := by
      rw [Bool.eq_iff_iff, beq_iff_eq, beq_iff_eq]
      exact UInt16.toNat_inj.symm
    have hwhole : document.length = headerBytes + size.toNat →
        (document.drop headerBytes).take size.toNat = document.drop headerBytes := by
      intro h
      rw [List.take_of_length_le]
      rw [List.length_drop]
      omega
    rw [hzero]
    by_cases hsize : document.length = headerBytes + size.toNat
    · rw [hwhole hsize]
      split_ifs <;> simp_all [Except.toOption] <;> omega
    · split_ifs <;> simp_all [Except.toOption]

theorem Companion.write_uint16 {bytes : List UInt8} (h : bytes.length = 2) :
    write 2 (uint16 bytes).toNat = bytes := by
  have hread := read_lt bytes
  rw [h] at hread
  rw [uint16, UInt16.toNat_ofNat', Nat.mod_eq_of_lt (by simpa using hread), ← h, write_read]

theorem Companion.write_uint64 {bytes : List UInt8} (h : bytes.length = 8) :
    write 8 (uint64 bytes).toNat = bytes := by
  have hread := read_lt bytes
  rw [h] at hread
  rw [uint64, UInt64.toNat_ofNat', Nat.mod_eq_of_lt (by simpa using hread), ← h, write_read]

theorem Companion.uint16_write {value : ℕ} (h : value < 2 ^ 16) :
    (uint16 (write 2 value)).toNat = value := by
  rw [uint16, read_write (by simpa using h), UInt16.toNat_ofNat', Nat.mod_eq_of_lt h]

theorem Companion.uint64_write (value : UInt64) : uint64 (write 8 value.toNat) = value := by
  rw [uint64, read_write (by simpa using value.toNat_lt), UInt64.ofNat_toNat]

theorem Frame.layout_fields (frame : Frame) :
    frame.layout.extract 0 4 = magic ∧
    frame.layout.getD 4 0 = frame.channel ∧
    frame.layout.getD 5 0 = 0 ∧
    frame.layout.extract 6 8 = write 2 frame.payload.length ∧
    frame.layout.extract 8 16 = write 8 frame.sessionId.toNat ∧
    frame.layout.extract 16 24 = write 8 frame.sequence.toNat ∧
    frame.layout.extract 24 32 = write 8 frame.monotonicMs.toNat ∧
    frame.layout.drop headerBytes = frame.payload := by
  simp [Frame.layout, Frame.header, magic, headerBytes, List.drop_append,
    List.drop_eq_nil_of_le]

/-- **The Companion decodes the layouts of the valid frames**, and nothing else. -/
theorem Companion.decode_eq_ok :
    decode document = .ok frame ↔ frame.Valid ∧ document = frame.layout := by
  constructor
  · intro h
    unfold decode at h
    dsimp only at h
    split_ifs at h with hstart hchannel hsize hzero
    simp only [Bool.or_eq_true, decide_eq_true_eq, bne_iff_ne, ne_eq, not_or, not_not,
      Bool.not_eq_true', Bool.not_eq_false, beq_iff_eq, gt_iff_lt, not_lt]
      at hstart hchannel hsize hzero
    obtain ⟨⟨hlength, hmagic⟩, hflags⟩ := hstart
    obtain ⟨⟨hpositive, hle⟩, hsize⟩ := hsize
    have hpayload : (document.drop headerBytes).length =
        (uint16 (document.extract 6 8)).toNat := by
      rw [List.length_drop]
      omega
    have hparts : ∀ i n, i + n ≤ headerBytes → (document.extract i (i + n)).length = n := by
      intro i n hin
      rw [List.extract_eq_take_drop, List.length_take, List.length_drop]
      omega
    obtain rfl := Except.ok.inj h
    refine ⟨⟨hchannel, hzero.1, hzero.2, ?_, ?_⟩, ?_⟩
    · show 0 < (document.drop headerBytes).length
      omega
    · show (document.drop headerBytes).length ≤ maxPayloadBytes
      omega
    · have hsplit := document_split hlength
      rw [hflags] at hsplit
      rw [Frame.layout, Frame.header]
      dsimp only
      rw [hpayload, write_uint16 (hparts 6 2 (by decide)), write_uint64 (hparts 8 8 (by decide)),
        write_uint64 (hparts 16 8 (by decide)), write_uint64 (hparts 24 8 (by decide)), ← hmagic]
      simp only [List.append_assoc] at hsplit ⊢
      exact hsplit
  · rintro ⟨hvalid, rfl⟩
    obtain ⟨hmagic, hchannel, hflags, hsize, hsession, hsequence, hmonotonic, hpayload⟩ :=
      frame.layout_fields
    have hle := hvalid.payload_le
    have hread : (uint16 (write 2 frame.payload.length)).toNat = frame.payload.length := by
      apply uint16_write
      unfold maxPayloadBytes at hle
      omega
    have hpositive := hvalid.payload_pos.ne'
    have hfits : ¬ frame.payload.length > maxPayloadBytes := by omega
    unfold decode
    rw [hmagic, hchannel, hflags, hsize, hsession, hsequence, hmonotonic, hpayload]
    simp [uint64_write, hread, hpositive, hfits, hvalid.channel, hvalid.sessionId,
      hvalid.sequence]

/-! ### Agreement -/

/-- **The two codecs of the serial frame agree.**  The decoders accept the same byte strings and
read the same frame from them.  Decoding an encoded valid frame gives the frame, and encoding a
decoded frame gives the bytes it came from.  Into a buffer that is large enough the firmware writes
exactly what the Companion returns, or nothing where the Companion reports an error. -/
theorem codecs_agree :
    (∀ document, deckSerialFrameDecode document = (Companion.decode document).toOption) ∧
    (∀ frame : Frame, frame.Valid →
      ∃ document, Companion.encode frame = .ok document ∧
        Companion.decode document = .ok frame ∧ deckSerialFrameDecode document = some frame) ∧
    (∀ document frame, Companion.decode document = .ok frame →
      frame.Valid ∧ Companion.encode frame = .ok document) ∧
    (∀ (frame : Frame) (output : List UInt8), headerBytes + frame.payload.length ≤ output.length →
      deckSerialFrameEncode frame.channel frame.sessionId frame.sequence frame.monotonicMs
          frame.payload output =
        match Companion.encode frame with
        | .ok document => (document.length, document ++ output.drop document.length)
        | .error _ => (0, output)) := by
  refine ⟨decoders_agree, ?_, ?_, ?_⟩
  · intro frame hvalid
    have hdecode := Companion.decode_eq_ok.mpr ⟨hvalid, rfl⟩
    refine ⟨frame.layout, Companion.encode_of_valid hvalid, hdecode, ?_⟩
    rw [decoders_agree, hdecode]
    rfl
  · intro document frame h
    obtain ⟨hvalid, rfl⟩ := Companion.decode_eq_ok.mp h
    exact ⟨hvalid, Companion.encode_of_valid hvalid⟩
  · intro frame output hcapacity
    by_cases hvalid : frame.Valid
    · rw [Companion.encode_of_valid hvalid, deckSerialFrameEncode_of_valid hvalid hcapacity]
      simp only [Frame.length_layout]
    · rw [deckSerialFrameEncode_of_not_valid hvalid]
      have hrefused := Companion.encode_of_not_valid hvalid
      match hencode : Companion.encode frame with
      | .ok document =>
        rw [hencode] at hrefused
        exact absurd hrefused (by simp [Except.toOption])
      | .error _ => rfl

/-- Both programs carry one byte of payload in the same 33 bytes. -/
theorem codecs_agree_one_byte :
    ∃ document, Companion.encode ⟨webTx, 1, 2, 3, [0x41]⟩ = .ok document ∧
      Companion.decode document = .ok ⟨webTx, 1, 2, 3, [0x41]⟩ ∧
      deckSerialFrameDecode document = some ⟨webTx, 1, 2, 3, [0x41]⟩ :=
  codecs_agree.2.1 ⟨webTx, 1, 2, 3, [0x41]⟩ (by decide)

end RlcdDeck.SerialFrame
