import RlcdDeck.OtaTransfer.Deck
import RlcdDeck.OtaTransfer.Equiv.Manifest

/-!
# An OTA transfer, end to end

The chunks that `run` cuts out of the image are the ones that `write` waits for: `deck_chunk` is
one chunk, `runChunks_eq` the loop, and `ota_transfer` the whole transfer.

Between two chunks the hash and the flash have a prefix of the image, and the transaction has
received as many bytes (`Receiving`).
-/

namespace RlcdDeck.OtaTransfer

open Bytes (decodeHex encodeHex isLowerHex)
open Bytes.Base64 (encodePadded standard)
open Companion
open Effects
open OtaTransaction (Options Transaction boardCapacity maxChunkBytes versionCapacity)

variable {decoders : Decoders} {sha256 : List UInt8 → List UInt8}
  {verify : UInt32 → List UInt8 → List UInt8 → Bool}

/-! ### Chunks -/

section Chunks

variable {image : List UInt8} {offset : ℕ}

theorem chunkEnd_le : chunkEnd image offset ≤ image.length := Nat.min_le_right _ _

theorem lt_chunkEnd (h : offset < image.length) : offset < chunkEnd image offset := by
  unfold chunkEnd chunkBytes
  omega

theorem length_chunk (h : offset < image.length) :
    (chunkAt image offset).data.length = chunkEnd image offset - offset := by
  have hend : chunkEnd image offset ≤ image.length := chunkEnd_le
  simp only [chunkAt, List.length_take, List.length_drop]
  omega

theorem length_chunk_le (h : offset < image.length) :
    (chunkAt image offset).data.length ≤ maxChunkBytes := by
  rw [length_chunk h]
  unfold chunkEnd chunkBytes maxChunkBytes
  omega

theorem take_append_chunk (h : offset < image.length) :
    image.take offset ++ (chunkAt image offset).data = image.take (chunkEnd image offset) := by
  have hlt := lt_chunkEnd h
  have hsplit := List.take_add (l := image) (i := offset) (j := chunkEnd image offset - offset)
  rw [Nat.add_sub_cancel' hlt.le] at hsplit
  exact hsplit.symm

theorem final_iff : (chunkAt image offset).final = true ↔ chunkEnd image offset = image.length :=
  beq_iff_eq

end Chunks

/-! ### The message of a chunk -/

variable {id : Text}

theorem marshal_chunk_length {chunk : Chunk} (hid : id.length = 32)
    (hdata : chunk.data.length ≤ maxChunkBytes) :
    0 < (marshal (chunkMessage id chunk)).length ∧
      (marshal (chunkMessage id chunk)).length ≤ maxControlMessageBytes := by
  have hoffset := length_decimal_le chunk.offset.toNat_lt
  have hone : (decimal 1).length = 1 := by decide
  have hencoded := Bytes.Base64.length_encodePadded standard chunk.data
  unfold maxChunkBytes at hdata
  have hfinal : (Value.bool chunk.final).marshal.length ≤ 5 := by
    cases chunk.final
    · decide
    · decide
  have hascii : ∀ text : String, (ascii text).length = text.toList.length := by
    intro text
    rw [ascii, List.length_map]
  simp only [marshal, chunkMessage, List.map_cons, List.map_nil, List.intercalate,
    List.intersperse, List.flatten_cons, List.flatten_nil, List.length_append, length_quote]
  generalize (Value.bool chunk.final).marshal = final at hfinal ⊢
  simp only [Value.marshal, length_quote, hascii, String.reduceToList, List.length_cons,
    List.length_nil, hid, hone, hencoded, maxControlMessageBytes]
  omega

theorem parse_chunkMessage {chunk : Chunk} (hid : lowercaseHex id 32 = true)
    (hpos : 0 < chunk.data.length) (hdata : chunk.data.length ≤ maxChunkBytes)
    (hjson : decoders.cJson (marshal (chunkMessage id chunk)) =
      some (items (chunkMessage id chunk)))
    (hbase64 : decoders.base64 maxChunkBytes (encodePadded standard chunk.data) =
      some chunk.data) :
    send (chunkMessage id chunk) = some (marshal (chunkMessage id chunk)) ∧
      parse decoders (marshal (chunkMessage id chunk)) =
        some (.chunk id chunk.offset chunk.data chunk.final) := by
  have hidLength : id.length = 32 := by
    unfold lowercaseHex at hid
    rw [Bool.and_eq_true, beq_iff_eq] at hid
    exact hid.1
  obtain ⟨hlow, hhigh⟩ := marshal_chunk_length hidLength hdata
  have hsize : ¬ ((marshal (chunkMessage id chunk)).length = 0 ∨
      maxControlMessageBytes < (marshal (chunkMessage id chunk)).length) := by
    omega
  have hencoded : ¬ 4096 < (encodePadded standard chunk.data).length := by
    rw [Bytes.Base64.length_encodePadded]
    unfold maxChunkBytes at hdata
    omega
  refine ⟨if_neg hsize, ?_⟩
  have htype : jsonString (items (chunkMessage id chunk)) "type" = some (ascii "ota.chunk") :=
    jsonString_of_member rfl
  have hcommon : parseCommon (items (chunkMessage id chunk)) "ota.chunk" = some id :=
    parseCommon_of_members rfl rfl rfl hid
  have hoffset : jsonU32 (items (chunkMessage id chunk)) "offset" = some chunk.offset := by
    rw [jsonU32_of_member (show member _ "offset" = some (.number chunk.offset.toNat) from rfl)
      chunk.offset.toNat_lt, UInt32.ofNat_toNat]
  have hfinal : jsonBool (items (chunkMessage id chunk)) "final" = some chunk.final := rfl
  have htext : jsonString (items (chunkMessage id chunk)) "data" =
      some (encodePadded standard chunk.data) := jsonString_of_member rfl
  have hcount : (items (chunkMessage id chunk)).length = 6 := rfl
  have hother : ascii "ota.chunk" ≠ ascii "ota.offer" := by decide
  unfold parse
  rw [hjson, show 16 * 1024 = maxControlMessageBytes from rfl, if_neg hsize]
  simp only [Option.bind_eq_bind, Option.bind_some, htype, if_neg hother, if_true]
  unfold parseChunk
  simp only [Option.bind_eq_bind, Option.bind_some, hcommon, hoffset, hfinal, htext, hcount,
    hencoded, hbase64, hpos.ne', ne_eq, not_true, if_false]

/-! ### One chunk on the Deck -/

/-- The clock never reaches a deadline between one command and another. -/
def InTime (options : Options) (clock : ℕ → UInt64) (start last : ℕ) : Prop :=
  ∀ k, start < k → k ≤ last →
    clock start ≤ clock k ∧ clock k - clock start < options.maximumDurationMs ∧
      clock (k - 1) ≤ clock k ∧ clock k - clock (k - 1) < options.inactivityTimeoutMs

/-- The Deck has received the first bytes of the image; the offer was the command `start`. -/
structure Receiving (sha256 : List UInt8 → List UInt8) (start : ℕ) (deck : Deck) (id : Text)
    (image : List UInt8) (offset : ℕ) (t : Transaction) : Prop where
  transaction : deck.transaction = some t
  snapshot : t.snapshot =
    ⟨.receiving, .ok, UInt32.ofNat offset, UInt32.ofNat image.length⟩
  digest : t.manifest.map (·.imageSha256) = some (sha256 image)
  options : t.options = deck.options
  started : t.startedMs = deck.clock start
  last : t.lastActivityMs = deck.clock (deck.handled.length - 1)
  handled : start < deck.handled.length
  active : deck.activeTransactionId = id
  hashed : deck.adapters.hashed = image.take offset
  flash : deck.adapters.flash = (image.take offset).zipIdx

variable {start : ℕ} {deck : Deck} {t : Transaction}

theorem not_timedOut {last offset : ℕ} {image : List UInt8}
    (h : Receiving sha256 start deck id image offset t)
    (htime : InTime deck.options deck.clock start last) (hle : deck.handled.length ≤ last) :
    OtaTransaction.timedOut t (deck.clock deck.handled.length) = false := by
  obtain ⟨hstart, hduration, hlast, hinactivity⟩ := htime _ h.handled hle
  unfold OtaTransaction.timedOut
  rw [h.started, h.last, h.options]
  simp only [Bool.or_eq_false_iff, decide_eq_false_iff_not, UInt64.not_lt, UInt64.not_le]
  exact ⟨⟨⟨hstart, hduration⟩, hlast⟩, hinactivity⟩

/-- What a chunk does to the transaction. -/
def written (t : Transaction) (data : List UInt8) (nowMs : UInt64) : Transaction :=
  { t with
    snapshot :=
      { t.snapshot with receivedBytes := t.snapshot.receivedBytes + UInt32.ofNat data.length }
    lastActivityMs := nowMs }

/-- What a chunk does to the adapters. -/
def Adapters.written (a : Adapters) (data : List UInt8) : Adapters :=
  { a with hashed := a.hashed ++ data, flash := a.flash ++ data.zipIdx a.flash.length }

theorem run_write {t : Transaction} {offset : UInt32} {data : List UInt8} {final : Bool}
    {nowMs : UInt64} {remaining : ℕ} (hstate : t.snapshot.state = .receiving)
    (htime : OtaTransaction.timedOut t nowMs = false) (hoffset : offset = t.snapshot.receivedBytes)
    (hpos : 0 < data.length) (hdata : data.length ≤ maxChunkBytes)
    (hremaining : (t.snapshot.imageLength - t.snapshot.receivedBytes).toNat = remaining)
    (hle : data.length ≤ remaining) (hfinal : final = true ↔ data.length = remaining)
    (a : Adapters) :
    (OtaTransaction.write t offset data final nowMs).run (Adapters.answer sha256 verify) a =
      (if final then OtaTransaction.finishImage (written t data nowMs)
        else pure (.ok, written t data nowMs)).run (Adapters.answer sha256 verify) (a.written data) := by
  have hguard : (decide (data.length = 0) || decide (maxChunkBytes < data.length) ||
      decide (t.snapshot.state ≠ .receiving)) = false := by
    simp [hpos.ne', hdata, hstate]
  have hexpected : (decide (offset ≠ t.snapshot.receivedBytes) || decide (remaining < data.length) ||
      (final && decide (data.length ≠ remaining)) || (!final && decide (data.length = remaining)))
        = false := by
    cases final with
    | true => simp [hoffset, hfinal.mp rfl]
    | false =>
      have hne : data.length ≠ remaining := fun heq => Bool.false_ne_true (hfinal.mpr heq)
      simp [hoffset, hle, hne]
  unfold OtaTransaction.write
  rw [hremaining]
  simp only [hguard, htime, hexpected, Bool.false_eq_true, if_false]
  cases final
  · rfl
  · rfl

theorem run_finishImage {t : Transaction} {a : Adapters}
    (h : t.manifest.map (·.imageSha256) = some (sha256 a.hashed)) :
    ∃ t', (OtaTransaction.finishImage t).run (Adapters.answer sha256 verify) a =
        ((.ok, t'), { a with selected := true }) ∧
      t'.snapshot = { t.snapshot with state := .readyToReboot, result := .ok } := by
  refine ⟨{ t with
    hashOpen := false
    flashOpen := false
    snapshot := { t.snapshot with state := .readyToReboot, result := .ok } }, ?_, rfl⟩
  show Program.run (Adapters.answer sha256 verify)
    (ite (some (sha256 a.hashed) ≠ t.manifest.map (·.imageSha256)) _ _) a = _
  rw [if_neg (not_not.mpr h.symm)]
  rfl

theorem toNat_remaining {offset size : ℕ} (hle : offset ≤ size) (hsize : size < 2 ^ 32) :
    (UInt32.ofNat size - UInt32.ofNat offset).toNat = size - offset := by
  have hsizeNat : (UInt32.ofNat size).toNat = size := by
    rw [UInt32.toNat_ofNat']
    omega
  have hoffsetNat : (UInt32.ofNat offset).toNat = offset := by
    rw [UInt32.toNat_ofNat']
    omega
  have hsub : UInt32.ofNat offset ≤ UInt32.ofNat size := by
    rw [UInt32.le_iff_toNat_le, hsizeNat, hoffsetNat]
    exact hle
  rw [UInt32.toNat_sub_of_le _ _ hsub, hsizeNat, hoffsetNat]

/-- What is left of the Deck's state after the last chunk. -/
structure Ready (deck : Deck) (image : List UInt8) : Prop where
  transaction : ∃ t, deck.transaction = some t ∧
    t.snapshot = ⟨.readyToReboot, .ok, UInt32.ofNat image.length, UInt32.ofNat image.length⟩
  flash : deck.adapters.flash = image.zipIdx
  selected : deck.adapters.selected = true

variable (verify) in
/-- **One chunk on the Deck**: it is accepted, and the Deck has received the image up to its end. -/
theorem deck_chunk {last offset : ℕ} {image : List UInt8}
    (h : Receiving sha256 start deck id image offset t)
    (hoffset : offset < image.length) (hsize : image.length < 2 ^ 32)
    (htime : InTime deck.options deck.clock start last) (hle : deck.handled.length ≤ last) :
    let chunk := chunkAt image offset
    let out := deck.chunk sha256 verify id chunk.offset chunk.data chunk.final
    out.2.options = deck.options ∧ out.2.clock = deck.clock ∧
      out.2.handled =
        deck.handled ++ [(.chunk id chunk.offset chunk.data chunk.final, .ok)] ∧
      out.1 = formatResult id
        ⟨if chunk.final then .readyToReboot else .receiving, .ok,
          UInt32.ofNat (chunkEnd image offset), UInt32.ofNat image.length⟩ ∧
      (chunk.final = false →
        ∃ t', Receiving sha256 start out.2 id image (chunkEnd image offset) t') ∧
      (chunk.final = true → Ready out.2 image) := by
  intro chunk out
  have hpos : 0 < chunk.data.length := by
    rw [length_chunk hoffset]
    exact Nat.sub_pos_of_lt (lt_chunkEnd hoffset)
  have hlength := length_chunk hoffset
  have hend : chunkEnd image offset ≤ image.length := chunkEnd_le
  have hlt := lt_chunkEnd hoffset
  have hremaining : (t.snapshot.imageLength - t.snapshot.receivedBytes).toNat =
      image.length - offset := by
    rw [h.snapshot]
    exact toNat_remaining hoffset.le hsize
  have hfinal : chunk.final = true ↔ chunk.data.length = image.length - offset := by
    rw [final_iff, hlength]
    omega
  have hreceived : (written t chunk.data (deck.clock deck.handled.length)).snapshot =
      ⟨.receiving, .ok, UInt32.ofNat (chunkEnd image offset), UInt32.ofNat image.length⟩ := by
    unfold written
    rw [h.snapshot]
    dsimp only
    rw [← UInt32.ofNat_add, hlength, Nat.add_sub_cancel' hlt.le]
  have hhashed : (deck.adapters.written chunk.data).hashed =
      image.take (chunkEnd image offset) := by
    unfold Adapters.written
    rw [h.hashed]
    exact take_append_chunk hoffset
  have hflash : (deck.adapters.written chunk.data).flash =
      (image.take (chunkEnd image offset)).zipIdx := by
    unfold Adapters.written
    rw [h.flash, ← take_append_chunk hoffset, List.zipIdx_append, List.length_zipIdx, Nat.zero_add]
  have hfits : chunk.data.length ≤ image.length - offset := by
    rw [hlength]
    omega
  have hwrite := @run_write sha256 verify _ _ _ _ _ _ (by rw [h.snapshot]) (not_timedOut h htime hle)
    (show chunk.offset = t.snapshot.receivedBytes by rw [h.snapshot]; rfl) hpos
    (length_chunk_le hoffset) hremaining hfits hfinal deck.adapters
  have hout : out = deck.chunk sha256 verify id chunk.offset chunk.data chunk.final := rfl
  unfold Deck.chunk at hout
  rw [h.transaction] at hout
  dsimp only at hout
  rw [if_neg (not_not.mpr h.active), hwrite] at hout
  cases hcase : chunk.final with
  | false =>
    rw [hcase] at hout
    have hstep : out = (publishedResult id
        (some (written t chunk.data (deck.clock deck.handled.length))) .ok,
      { deck with
        transaction := some (written t chunk.data (deck.clock deck.handled.length))
        activeTransactionId := deck.activeTransactionId
        adapters := deck.adapters.written chunk.data
        handled := deck.handled ++ [(.chunk id chunk.offset chunk.data false, .ok)] }) := hout
    rw [hstep]
    refine ⟨rfl, rfl, rfl, ?_, ?_, fun hno => absurd hno Bool.false_ne_true⟩
    · unfold publishedResult
      dsimp only
      rw [hreceived]
      rfl
    · intro _
      refine ⟨written t chunk.data (deck.clock deck.handled.length), rfl, hreceived, h.digest,
        h.options, h.started, ?_, ?_, h.active, hhashed, hflash⟩
      · simp only [List.length_append, List.length_singleton, Nat.add_sub_cancel]
        rfl
      · rw [List.length_append]
        exact Nat.lt_add_right _ h.handled
  | true =>
    rw [hcase] at hout
    -- The whole image has been hashed.
    have hwhole : chunkEnd image offset = image.length := final_iff.mp hcase
    rw [hwhole] at hreceived hhashed hflash
    rw [List.take_length] at hhashed hflash
    obtain ⟨t', hfinish, hsnapshot⟩ :=
      @run_finishImage sha256 verify (written t chunk.data (deck.clock deck.handled.length))
        (deck.adapters.written chunk.data) (by rw [hhashed]; exact h.digest)
    rw [hreceived] at hsnapshot
    rw [if_pos rfl, hfinish] at hout
    have hstep : out = (publishedResult id (some t') .ok,
      { deck with
        transaction := some t'
        activeTransactionId := []
        adapters := { deck.adapters.written chunk.data with selected := true }
        handled := deck.handled ++ [(.chunk id chunk.offset chunk.data true, .ok)] }) := hout
    rw [hstep]
    refine ⟨rfl, rfl, rfl, ?_, fun hno => absurd hno.symm Bool.false_ne_true, ?_⟩
    · unfold publishedResult
      dsimp only
      rw [hsnapshot, hwhole]
      rfl
    · exact fun _ => ⟨⟨t', rfl, hsnapshot⟩, hflash, rfl⟩

/-! ### The offer on the Deck -/

/-- What `Preview` has checked of the image and the signature. -/
structure PreviewedImage (env : Environment) (archive : Archive) : Prop where
  length : archive.image.length = archive.manifest.imageLength.toNat
  pos : 0 < archive.manifest.imageLength.toNat
  maximum : archive.manifest.imageLength.toNat ≤ maximumImageBytes
  signingKeyId : archive.manifest.signingKeyId ≠ 0
  minimumProtocolVersion : archive.manifest.minimumProtocolVersion ≠ 0
  digest : decodeHex archive.manifest.imageSha256 = some (env.sha256 archive.image)
  signature : ∃ canonical, canonicalManifest archive.manifest = some canonical ∧
    env.verify archive.manifest.signingKeyId (env.sha256 canonical)
      archive.manifest.signature = true

variable {env : Environment} {archive : Archive}

theorem previewedImage {document : List UInt8} (h : preview env document = some archive) :
    PreviewedImage env archive := by
  unfold preview at h
  split_ifs at h
  split at h
  · cases h
  next found hfound =>
  split_ifs at h with hfields hdigest
  split at h
  · cases h
  next canonical hcanonical =>
  split_ifs at h with hverify
  obtain rfl := Option.some.inj h
  simp only [not_or, not_not, Bool.not_eq_false, validManifestFields, validManifestMetadata,
    Bool.and_eq_true, bne_iff_ne, decide_eq_true_eq] at hfields
  obtain ⟨-, ⟨⟨⟨⟨⟨⟨⟨-, hpos⟩, hmaximum⟩, -⟩, -⟩, hkey⟩, hminimum⟩, -⟩, hlength⟩ := hfields
  exact ⟨hlength, hpos, hmaximum, hkey, hminimum, not_not.mp hdigest, canonical, hcanonical,
    hverify⟩

/-- The manifest matches the Deck: what the Deck checks of an offer after `Preview`. -/
structure Accepts (options : Options) (manifest : Companion.Manifest) : Prop where
  digest : manifest.imageSha256.all isLowerHex = true
  created : (OtaTransaction.create options).isSome = true
  board : OtaTransaction.characters options.board = boardEsp32S3Rlcd42
  newer : OtaTransaction.strictlyNewer
    (cArray versionCapacity manifest.version) options.runningVersion = true
  protocolVersion : manifest.minimumProtocolVersion ≤ options.protocolVersion
  capacity : manifest.imageLength.toNat ≤ options.partitionCapacity

variable {options : Options}

theorem create_of_isSome (h : (OtaTransaction.create options).isSome = true) :
    OtaTransaction.create options = some { options } := by
  unfold OtaTransaction.create at h ⊢
  split_ifs at h ⊢
  · cases h
  · rfl

theorem safeVersion_of_newer {candidate running : List UInt8}
    (h : OtaTransaction.strictlyNewer candidate running = true) :
    OtaTransaction.safeVersion candidate = true := by
  by_contra hno
  unfold OtaTransaction.strictlyNewer OtaTransaction.parseSemanticCore at h
  simp only [Bool.not_eq_true] at hno
  simp [hno] at h

/-- A manifest that passes every check of `offer`. -/
structure Acceptable (verified : OtaTransaction.Manifest → Bool) (options : Options)
    (m : OtaTransaction.Manifest) : Prop where
  version : OtaTransaction.safeVersion m.version = true
  board : OtaTransaction.safeBoard m.board = true
  imageLength : m.imageLength ≠ 0
  signingKeyId : m.signingKeyId ≠ 0
  minimumProtocolVersion : m.minimumProtocolVersion ≠ 0
  sameBoard : OtaTransaction.characters m.board = OtaTransaction.characters options.board
  protocolVersion : ¬ options.protocolVersion < m.minimumProtocolVersion
  newer : OtaTransaction.strictlyNewer m.version options.runningVersion = true
  capacity : ¬ options.partitionCapacity < m.imageLength.toNat
  verified : verified m = true

/-- What an accepted offer does to a new transaction. -/
def begun (options : Options) (m : OtaTransaction.Manifest) (nowMs : UInt64) : Transaction where
  options := options
  manifest := some m
  snapshot := ⟨.receiving, .ok, 0, m.imageLength⟩
  startedMs := nowMs
  lastActivityMs := nowMs
  flashOpen := true
  hashOpen := true

theorem run_offer {m : OtaTransaction.Manifest}
    (h : Acceptable (verifyManifest sha256 verify) options m) (nowMs : UInt64) (a : Adapters) :
    (OtaTransaction.offer { options } m nowMs).run (Adapters.answer sha256 verify) a =
      ((.ok, begun options m nowMs), { a with hashed := [], flash := [] }) := by
  have hguard : (!OtaTransaction.safeVersion m.version || !OtaTransaction.safeBoard m.board ||
      decide (m.imageLength = 0) || decide (m.signingKeyId = 0) ||
      decide (m.minimumProtocolVersion = 0)) = false := by
    simp [h.version, h.board, h.imageLength, h.signingKeyId, h.minimumProtocolVersion]
  unfold OtaTransaction.offer
  simp only [hguard, h.sameBoard, h.protocolVersion, h.newer, h.capacity, ne_eq, not_true,
    Bool.not_true, Bool.false_eq_true, if_false]
  show Program.run (Adapters.answer sha256 verify)
    (ite ((!verifyManifest sha256 verify m) = true) _ _) a = _
  rw [if_neg (by rw [h.verified]; decide)]
  rfl

/-- What `Preview` keeps is acceptable, on a Deck that can take it. -/
theorem acceptable_offered (h : PreviewedImage env archive)
    (hboard : archive.manifest.board = boardEsp32S3Rlcd42)
    (hversion : archive.manifest.version.length ≤ 31 ∧ ∀ c ∈ archive.manifest.version, c ≠ 0)
    (haccepts : Accepts options archive.manifest) :
    Acceptable (verifyManifest env.sha256 env.verify) options
      (offered archive.manifest (env.sha256 archive.image)) where
  version := safeVersion_of_newer haccepts.newer
  board := by
    show OtaTransaction.safeBoard (cArray _ archive.manifest.board) = true
    rw [hboard]
    decide +kernel
  imageLength := by
    intro hzero
    have hpos := h.pos
    rw [show archive.manifest.imageLength = 0 from hzero] at hpos
    exact absurd hpos (by decide)
  signingKeyId := h.signingKeyId
  minimumProtocolVersion := h.minimumProtocolVersion
  sameBoard := by
    have hbytes : ∀ c ∈ archive.manifest.board, c ≠ 0 := by
      rw [hboard]
      decide +kernel
    rw [haccepts.board, ← hboard]
    exact characters_cArray hbytes
  protocolVersion := UInt32.not_lt.mpr haccepts.protocolVersion
  newer := haccepts.newer
  capacity := Nat.not_lt.mpr haccepts.capacity
  verified := by
    obtain ⟨canonical, hcanonical, hverify⟩ := h.signature
    have hboardBytes :
        archive.manifest.board.length ≤ 48 ∧ ∀ c ∈ archive.manifest.board, c ≠ 0 := by
      rw [hboard]
      decide +kernel
    unfold verifyManifest
    rw [verifiedBytes_offered ⟨by omega, hversion.2⟩ hboardBytes h.digest hcanonical]
    exact hverify

theorem run_destroy (t : Transaction) (a : Adapters) :
    ((OtaTransaction.destroy t).run (Adapters.answer sha256 verify) a).2 = a := by
  unfold OtaTransaction.destroy OtaTransaction.closeOpenResources
  cases t.flashOpen with
  | false =>
    cases t.hashOpen with
    | false => rfl
    | true => rfl
  | true =>
    cases t.hashOpen with
    | false => rfl
    | true => rfl

theorem destroyed_eq (deck : Deck) : deck.destroyed sha256 verify = deck.adapters := by
  unfold Deck.destroyed
  cases deck.transaction with
  | none => rfl
  | some t => exact run_destroy t deck.adapters

/-- **The offer on the Deck**: it is accepted, and the Deck waits for the first byte. -/
theorem deck_offer (id : Text) (h : Acceptable (verifyManifest env.sha256 env.verify) deck.options
      (offered archive.manifest (env.sha256 archive.image)))
    (himage : PreviewedImage env archive)
    (hcreated : (OtaTransaction.create deck.options).isSome = true)
    (hidle : deck.transaction.map (fun t => t.snapshot.state) ≠ some .receiving) :
    let m := offered archive.manifest (env.sha256 archive.image)
    let out := deck.offer env.sha256 env.verify id m
    out.2.options = deck.options ∧ out.2.clock = deck.clock ∧
      out.2.handled = deck.handled ++ [(.offer id m, .ok)] ∧
      out.1 = formatResult id ⟨.receiving, .ok, 0, archive.manifest.imageLength⟩ ∧
      ∃ t, Receiving env.sha256 deck.handled.length out.2 id archive.image 0 t := by
  intro m out
  have hlength : archive.manifest.imageLength = UInt32.ofNat archive.image.length := by
    rw [himage.length, UInt32.ofNat_toNat]
  have hout : out = deck.offer env.sha256 env.verify id m := rfl
  unfold Deck.offer at hout
  rw [if_neg hidle, create_of_isSome hcreated] at hout
  dsimp only at hout
  rw [destroyed_eq, run_offer h] at hout
  have hstep : out = (publishedResult id (some (begun deck.options m
      (deck.clock deck.handled.length))) .ok,
    { deck with
      transaction := some (begun deck.options m (deck.clock deck.handled.length))
      activeTransactionId := id
      adapters := { deck.adapters with hashed := [], flash := [] }
      handled := deck.handled ++ [(.offer id m, .ok)] }) := hout
  rw [hstep]
  refine ⟨rfl, rfl, rfl, rfl, begun deck.options m (deck.clock deck.handled.length), rfl, ?_, rfl,
    rfl, rfl, ?_, ?_, rfl, rfl, rfl⟩
  · show (⟨.receiving, .ok, 0, archive.manifest.imageLength⟩ : OtaTransaction.Snapshot) = _
    rw [hlength]
    rfl
  · rw [List.length_append, List.length_singleton, Nat.add_sub_cancel]
    rfl
  · rw [List.length_append]
    exact Nat.lt_succ_self _

/-! ### Results on the Companion -/

theorem handleResult_formatResult (final : Bool) {received length : UInt32}
    (hid : otaTransactionId id = true) (hle : received ≤ length)
    (hmaximum : length.toNat ≤ maximumImageBytes) (hlength : length ≠ 0)
    (hfinal : final = true → received = length) :
    let result := formatResult id
      ⟨if final then .readyToReboot else .receiving, .ok, received, length⟩
    handleResult id result = some result := by
  intro result
  have hok : ascii "ok" = ascii (resultName .ok) := rfl
  have hcode : resultCodes.contains (ascii (resultName .ok)) = true := by decide
  have hne : (length == 0) = false := beq_eq_false_iff_ne.mpr hlength
  have hvalid : validResult result = true := by
    unfold maximumImageBytes at hmaximum
    cases final with
    | false =>
      have hstate : (ascii "receiving" == ascii "failed") = false ∧
          (ascii "receiving" == ascii "ready_to_reboot") = false := by decide
      simp only [validResult, result, formatResult, stateName, hok, hid, hcode, hne, hstate.1,
        hstate.2, hle, hmaximum, Bool.false_eq_true, if_false, beq_self_eq_true, decide_true,
        Bool.and_true, Bool.and_false, Bool.false_and, Bool.not_false, Bool.not_true, Bool.true_or]
    | true =>
      have hstate : (ascii "ready_to_reboot" == ascii "failed") = false := by decide
      simp only [validResult, result, formatResult, stateName, hok, hid, hcode, hne, hstate,
        hfinal rfl, UInt32.le_refl, hmaximum, bne_self_eq_false, if_true, beq_self_eq_true,
        decide_true, Bool.and_true, Bool.and_false, Bool.not_false, Bool.not_true, Bool.or_true,
        Bool.or_false]
  unfold handleResult
  rw [hvalid]
  exact if_pos (by simp [result, formatResult])

theorem expected_formatResult (id : Text) (final : Bool) {archive : Archive} {received : ℕ} :
    expected archive (if final then "ready_to_reboot" else "receiving") received
      (some (formatResult id ⟨if final then .readyToReboot else .receiving, .ok,
        UInt32.ofNat received, archive.manifest.imageLength⟩)) = true := by
  cases final with
  | false => simp [expected, formatResult, stateName, resultName]
  | true => simp [expected, formatResult, stateName, resultName]

theorem exchange_eq {deliver : Deck → Text → Option OtaResult × Deck} {text : Text} {deck' : Deck}
    {message : Message} {result : OtaResult} (hsend : send message = some text)
    (hdeliver : deliver deck text = (some result, deck'))
    (hresult : handleResult id result = some result) :
    exchange deliver id deck message = some (some result, deck') := by
  unfold exchange
  rw [hsend, Option.map_some, hdeliver]
  exact congrArg (fun r => some (r, deck')) hresult

/-! ### The loop -/

/-- The number of chunks of an image. -/
def chunkCount (image : List UInt8) : ℕ := (image.length + (chunkBytes - 1)) / chunkBytes

/-- A chunk, by its number. -/
def chunkNumber (image : List UInt8) (k : ℕ) : Chunk := chunkAt image (chunkBytes * k)

/-- The command that a chunk is on the Deck. -/
def chunkCommand (id : Text) (chunk : Chunk) : Command :=
  .chunk id chunk.offset chunk.data chunk.final

/-- cJSON and the base64 decoder decode what `run` sends. -/
structure Decodes (decoders : Decoders) (id : Text) (archive : Archive) : Prop where
  offer : decoders.cJson (marshal (offerMessage id archive.manifest)) =
    some (items (offerMessage id archive.manifest))
  signature : decoders.base64 64 (encodePadded standard archive.manifest.signature) =
    some archive.manifest.signature
  chunk : ∀ k < chunkCount archive.image,
    decoders.cJson (marshal (chunkMessage id (chunkNumber archive.image k))) =
      some (items (chunkMessage id (chunkNumber archive.image k)))
  data : ∀ k < chunkCount archive.image,
    decoders.base64 maxChunkBytes (encodePadded standard (chunkNumber archive.image k).data) =
      some (chunkNumber archive.image k).data

variable {k : ℕ}

theorem lt_chunkCount {image : List UInt8} :
    k < chunkCount image ↔ chunkBytes * k < image.length := by
  unfold chunkCount chunkBytes
  omega

/-- What one run of the loop has of the archive. -/
structure Sendable (decoders : Decoders) (id : Text) (archive : Archive) : Prop where
  hex : lowercaseHex id 32 = true
  decodes : Decodes decoders id archive
  length : archive.image.length = archive.manifest.imageLength.toNat
  pos : 0 < archive.manifest.imageLength.toNat
  maximum : archive.manifest.imageLength.toNat ≤ maximumImageBytes

variable (verify) in
/-- One message of the loop: the result is the one that `run` waits for. -/
theorem exchange_chunk (hsendable : Sendable decoders id archive)
    (hk : k < chunkCount archive.image)
    (h : Receiving sha256 start deck id archive.image (chunkBytes * k) t)
    (hhandled : deck.handled.length = start + 1 + k)
    (htime : InTime deck.options deck.clock start (start + chunkCount archive.image)) :
    let chunk := chunkNumber archive.image k
    let received := chunkEnd archive.image (chunkBytes * k)
    ∃ result deck',
      exchange (Deck.receive decoders sha256 verify) id deck (chunkMessage id chunk) =
        some (result, deck') ∧
      expected archive (if chunk.final then "ready_to_reboot" else "receiving") received result =
        true ∧
      deck'.options = deck.options ∧ deck'.clock = deck.clock ∧
      deck'.handled = deck.handled ++ [(chunkCommand id chunk, .ok)] ∧
      (chunk.final = false →
        ∃ t', Receiving sha256 start deck' id archive.image received t') ∧
      (chunk.final = true → Ready deck' archive.image) := by
  intro chunk received
  have hlt : chunkBytes * k < archive.image.length := lt_chunkCount.mp hk
  have hsize : archive.image.length < 2 ^ 32 := by
    have hmaximum := hsendable.maximum
    rw [← hsendable.length] at hmaximum
    unfold maximumImageBytes at hmaximum
    omega
  have hend : received ≤ archive.image.length := chunkEnd_le
  have hpos : 0 < chunk.data.length := by
    rw [show chunk.data.length = received - chunkBytes * k from length_chunk hlt]
    exact Nat.sub_pos_of_lt (lt_chunkEnd hlt)
  have himage : UInt32.ofNat archive.image.length = archive.manifest.imageLength := by
    rw [hsendable.length, UInt32.ofNat_toNat]
  obtain ⟨hsend, hparse⟩ := parse_chunkMessage hsendable.hex hpos (length_chunk_le hlt)
    (hsendable.decodes.chunk k hk) (hsendable.decodes.data k hk)
  obtain ⟨hoptions, hclock, hcommands, hresult, hreceiving, hready⟩ :=
    deck_chunk verify h hlt hsize htime (by omega)
  rw [himage] at hresult
  refine ⟨_, _, exchange_eq hsend ?_ ?_, expected_formatResult id _, hoptions, hclock, hcommands,
    hreceiving, hready⟩
  · unfold Deck.receive
    rw [hparse]
    exact Prod.ext (congrArg some hresult) rfl
  · refine handleResult_formatResult _ hsendable.hex ?_ hsendable.maximum ?_ ?_
    · rw [← himage, UInt32.le_iff_toNat_le, UInt32.toNat_ofNat', UInt32.toNat_ofNat']
      rw [Nat.mod_eq_of_lt hsize, Nat.mod_eq_of_lt (by omega)]
      exact hend
    · intro hzero
      have hpos := hsendable.pos
      rw [hzero] at hpos
      exact absurd hpos (by decide)
    · intro hfinal
      rw [← himage, ← final_iff.mp hfinal]

variable (verify) in
/-- One turn of the loop. -/
theorem runChunks_succ (status : Status) (hsendable : Sendable decoders id archive)
    (hk : k < chunkCount archive.image)
    (h : Receiving sha256 start deck id archive.image (chunkBytes * k) t)
    (hhandled : deck.handled.length = start + 1 + k)
    (htime : InTime deck.options deck.clock start (start + chunkCount archive.image)) :
    let chunk := chunkNumber archive.image k
    let received := chunkEnd archive.image (chunkBytes * k)
    ∃ deck',
      runChunks (Deck.receive decoders sha256 verify) id archive (chunkBytes * k) status deck =
        runChunks (Deck.receive decoders sha256 verify) id archive (chunkBytes * (k + 1))
          ⟨if chunk.final then .readyToReboot else .receiving, ascii "ok", UInt32.ofNat received⟩
          deck' ∧
      deck'.options = deck.options ∧ deck'.clock = deck.clock ∧
      deck'.handled = deck.handled ++ [(chunkCommand id chunk, .ok)] ∧
      (chunk.final = false →
        ∃ t', Receiving sha256 start deck' id archive.image received t') ∧
      (chunk.final = true → Ready deck' archive.image) := by
  intro chunk received
  obtain ⟨result, deck', hexchange, hexpected, hrest⟩ :=
    exchange_chunk verify hsendable hk h hhandled htime
  refine ⟨deck', ?_, hrest⟩
  rw [runChunks, dif_pos (lt_chunkCount.mp hk)]
  dsimp only
  rw [show chunkAt archive.image (chunkBytes * k) = chunkNumber archive.image k from rfl, hexchange]
  dsimp only
  rw [if_pos hexpected]
  rfl

theorem runChunks_end {deliver : Deck → Text → Option OtaResult × Deck} {offset : ℕ}
    {status : Status} (h : ¬ offset < archive.image.length) :
    runChunks deliver id archive offset status deck = (status, deck) := by
  rw [runChunks, dif_neg h]

variable (verify) in
/-- **The loop**: from a chunk on, every chunk is accepted, and the Deck ends ready to reboot. -/
theorem runChunks_eq {count : ℕ} (status : Status) (hsendable : Sendable decoders id archive)
    (hcount : k + count + 1 = chunkCount archive.image)
    (h : Receiving sha256 start deck id archive.image (chunkBytes * k) t)
    (hhandled : deck.handled.length = start + 1 + k)
    (htime : InTime deck.options deck.clock start (start + chunkCount archive.image)) :
    let out := runChunks (Deck.receive decoders sha256 verify) id archive (chunkBytes * k)
      status deck
    out.1 = ⟨.readyToReboot, ascii "ok", archive.manifest.imageLength⟩ ∧
      Ready out.2 archive.image ∧
      out.2.handled = deck.handled ++ (List.range' k (count + 1)).map fun k =>
        (chunkCommand id (chunkNumber archive.image k), .ok) := by
  induction count generalizing k deck t status with
  | zero =>
    intro out
    have hk : k < chunkCount archive.image := by omega
    have hlast : ¬ chunkBytes * (k + 1) < archive.image.length := by
      rw [← lt_chunkCount]
      omega
    have hend : chunkEnd archive.image (chunkBytes * k) = archive.image.length := by
      unfold chunkEnd
      rw [Nat.mul_succ] at hlast
      omega
    have hfinal : (chunkNumber archive.image k).final = true := final_iff.mpr hend
    obtain ⟨deck', hstep, -, -, hcommands, -, hready⟩ :=
      runChunks_succ verify status hsendable hk h hhandled htime
    rw [runChunks_end hlast, hfinal, hend, if_pos rfl, hsendable.length,
      UInt32.ofNat_toNat] at hstep
    have hout : out = (⟨.readyToReboot, ascii "ok", archive.manifest.imageLength⟩, deck') := hstep
    rw [hout]
    exact ⟨rfl, hready hfinal, hcommands⟩
  | succ count ih =>
    intro out
    have hk : k < chunkCount archive.image := by omega
    have hmore : chunkBytes * (k + 1) < archive.image.length := by
      rw [← lt_chunkCount]
      omega
    have hend : chunkEnd archive.image (chunkBytes * k) = chunkBytes * (k + 1) := by
      unfold chunkEnd
      rw [Nat.mul_succ] at hmore ⊢
      omega
    have hfinal : (chunkNumber archive.image k).final = false := by
      rw [← Bool.not_eq_true]
      intro hno
      have hwhole := final_iff.mp hno
      omega
    obtain ⟨deck', hstep, hoptions, hclock, hcommands, hreceiving, -⟩ :=
      runChunks_succ verify status hsendable hk h hhandled htime
    obtain ⟨t', hnext⟩ := hreceiving hfinal
    rw [hend] at hnext
    have hcount' : k + 1 + count + 1 = chunkCount archive.image := by omega
    have hhandled' : deck'.handled.length = start + 1 + (k + 1) := by
      rw [hcommands, List.length_append, hhandled]
      rfl
    have htime' : InTime deck'.options deck'.clock start (start + chunkCount archive.image) := by
      rw [hoptions, hclock]
      exact htime
    obtain ⟨hphase, hready, hlog⟩ := ih _ hcount' hnext hhandled' htime'
    have hout : out = _ := hstep
    rw [hout]
    refine ⟨hphase, hready, ?_⟩
    rw [hlog, hcommands, List.append_assoc, List.range'_succ, List.map_cons]
    rfl

/-! ### The whole transfer -/

/-- **An OTA transfer, end to end**: every chunk is accepted in its turn, the image is written once
and in order, and no chunk is over a limit. -/
theorem ota_transfer {env : Environment} {document idBytes : List UInt8} {archive : Archive}
    {deck : Deck} (hpreview : preview env document = some archive) (hid : idBytes.length = 16)
    (hdecodes : Decodes decoders (transactionId idBytes) archive)
    (haccepts : Accepts deck.options archive.manifest)
    (hidle : deck.transaction.map (fun t => t.snapshot.state) ≠ some .receiving)
    (htime : InTime deck.options deck.clock deck.handled.length
      (deck.handled.length + chunkCount archive.image)) :
    let id := transactionId idBytes
    let out := run (Deck.receive decoders env.sha256 env.verify) id archive deck
    out.1 = ⟨.readyToReboot, ascii "ok", archive.manifest.imageLength⟩ ∧
      Ready out.2 archive.image ∧
      out.2.handled = deck.handled ++
        (.offer id (offered archive.manifest (env.sha256 archive.image)), .ok) ::
          ((List.range (chunkCount archive.image)).map fun k =>
            (chunkCommand id (chunkNumber archive.image k), .ok)) ∧
      ∀ k < chunkCount archive.image,
        let chunk := chunkNumber archive.image k
        1 ≤ chunk.data.length ∧ chunk.data.length ≤ maxChunkBytes ∧
          (encodePadded standard chunk.data).length ≤ 4096 ∧
          (marshal (chunkMessage id chunk)).length ≤ maxControlMessageBytes := by
  intro id out
  have h := previewed hpreview
  have himage := previewedImage hpreview
  obtain ⟨-, hversionLength, hversion⟩ := boundedAscii_of_versionPattern h.version
  have hidHex : lowercaseHex id 32 = true := lowercaseHex_transactionId hid
  have hsendable : Sendable decoders id archive :=
    ⟨hidHex, hdecodes, himage.length, himage.pos, himage.maximum⟩
  have hlengthPos : 0 < archive.image.length := by
    rw [himage.length]
    exact himage.pos
  -- The offer is taken.
  have hexact : decodeHexExact archive.manifest.imageSha256 32 =
      some (env.sha256 archive.image) :=
    (decodeHexExact_eq h.digestLength haccepts.digest).trans himage.digest
  obtain ⟨hsend, hparse⟩ := parse_offerMessage hidHex h hdecodes.offer hdecodes.signature
  rw [hexact] at hparse
  have hacceptable := acceptable_offered himage h.board ⟨hversionLength, hversion⟩ haccepts
  obtain ⟨hoptions, hclock, hcommands, hresult, t, hreceiving⟩ :=
    deck_offer id hacceptable himage haccepts.created hidle
  generalize hdeck' : (deck.offer env.sha256 env.verify id
    (offered archive.manifest (env.sha256 archive.image))).2 = deck' at *
  have hexchange : exchange (Deck.receive decoders env.sha256 env.verify) id deck
      (offerMessage id archive.manifest) =
        some (some (formatResult id ⟨.receiving, .ok, 0, archive.manifest.imageLength⟩),
          deck') := by
    refine exchange_eq hsend ?_ ?_
    · unfold Deck.receive
      rw [hparse]
      exact Prod.ext (congrArg some hresult) hdeck'
    · refine handleResult_formatResult false hidHex ?_ himage.maximum ?_ fun hno =>
        absurd hno Bool.false_ne_true
      · rw [UInt32.le_iff_toNat_le]
        exact Nat.zero_le _
      · intro hzero
        have hpos := himage.pos
        rw [hzero] at hpos
        exact absurd hpos (by decide)
  have hout : out = run (Deck.receive decoders env.sha256 env.verify) id archive deck := rfl
  unfold run at hout
  rw [hexchange] at hout
  dsimp only at hout
  have hexpected : expected archive "receiving" 0
      (some (formatResult id ⟨.receiving, .ok, 0, archive.manifest.imageLength⟩)) = true :=
    expected_formatResult id false
  rw [if_pos hexpected] at hout
  -- The chunks follow.
  have hcount : 0 + (chunkCount archive.image - 1) + 1 = chunkCount archive.image := by
    have hfirst : 0 < chunkCount archive.image := lt_chunkCount.mpr (by omega)
    omega
  have hhandled : deck'.handled.length = deck.handled.length + 1 + 0 := by
    rw [hcommands, List.length_append]
    rfl
  have htime' : InTime deck'.options deck'.clock deck.handled.length
      (deck.handled.length + chunkCount archive.image) := by
    rw [hoptions, hclock]
    exact htime
  obtain ⟨hphase, hready, hlog⟩ := runChunks_eq env.verify
    ⟨.receiving, ascii "ok", 0⟩ hsendable hcount hreceiving hhandled htime'
  refine ⟨?_, ?_, ?_, ?_⟩
  · rw [hout]
    exact hphase
  · rw [hout]
    exact hready
  · rw [hout]
    rw [show chunkBytes * 0 = 0 from rfl] at hlog
    rw [hlog, hcommands, List.append_assoc, List.range_eq_range']
    rw [show chunkCount archive.image - 1 + 1 = chunkCount archive.image by omega]
    rfl
  · intro k hk chunk
    have hlt : chunkBytes * k < archive.image.length := lt_chunkCount.mp hk
    have hpos : 0 < chunk.data.length := by
      rw [show chunk.data.length = _ from length_chunk hlt]
      exact Nat.sub_pos_of_lt (lt_chunkEnd hlt)
    have hdata : chunk.data.length ≤ maxChunkBytes := length_chunk_le hlt
    refine ⟨hpos, hdata, ?_, ?_⟩
    · rw [Bytes.Base64.length_encodePadded]
      unfold maxChunkBytes at hdata
      omega
    · have hidLength : id.length = 32 := by
        unfold lowercaseHex at hidHex
        rw [Bool.and_eq_true, beq_iff_eq] at hidHex
        exact hidHex.1
      exact (marshal_chunk_length hidLength hdata).2

/-! ### A transfer of one byte -/

/-- The archive of one zero byte. -/
def byteArchive : Archive := sampleArchive sampleDigest

/-- Decoders that decode the offer and the one chunk. -/
def byteDecoders : Decoders where
  cJson text :=
    if text = marshal (sampleOffer sampleDigest) then some (items (sampleOffer sampleDigest))
    else some (items (chunkMessage (transactionId sampleId) (chunkNumber byteArchive.image 0)))
  base64 _ text := Bytes.Base64.decodePadded standard text

/-- A Deck that runs version 0.9.0. -/
def byteDeck : Deck where
  options :=
    { runningVersion := cArray versionCapacity (ascii "0.9.0")
      board := cArray boardCapacity boardEsp32S3Rlcd42
      protocolVersion := 1
      partitionCapacity := 4096
      inactivityTimeoutMs := 30000
      maximumDurationMs := 600000 }
  clock _ := 0

theorem ota_transfer_byte :
    let id := transactionId sampleId
    let env := sampleEnvironment sampleDigest
    let out := run (Deck.receive byteDecoders env.sha256 env.verify) id byteArchive byteDeck
    out.1 = ⟨.readyToReboot, ascii "ok", byteArchive.manifest.imageLength⟩ ∧
      Ready out.2 byteArchive.image ∧
      out.2.handled = byteDeck.handled ++
        (.offer id (offered byteArchive.manifest (env.sha256 byteArchive.image)), .ok) ::
          ((List.range (chunkCount byteArchive.image)).map fun k =>
            (chunkCommand id (chunkNumber byteArchive.image k), .ok)) ∧
      ∀ k < chunkCount byteArchive.image,
        let chunk := chunkNumber byteArchive.image k
        1 ≤ chunk.data.length ∧ chunk.data.length ≤ maxChunkBytes ∧
          (encodePadded standard chunk.data).length ≤ 4096 ∧
          (marshal (chunkMessage id chunk)).length ≤ maxControlMessageBytes := by
  have hpreview : preview (sampleEnvironment sampleDigest) [0] = some byteArchive := by
    decide +kernel
  have hid : sampleId.length = 16 := by decide
  have hcount : chunkCount byteArchive.image = 1 := by decide
  have hdecodes : Decodes byteDecoders (transactionId sampleId) byteArchive := by
    have hoffer : byteDecoders.cJson (marshal (sampleOffer sampleDigest)) =
        some (items (sampleOffer sampleDigest)) := by decide +kernel
    refine ⟨hoffer, by decide +kernel, ?_, ?_⟩
    · intro k hk
      obtain rfl : k = 0 := by omega
      decide +kernel
    · intro k hk
      obtain rfl : k = 0 := by omega
      decide +kernel
  have haccepts : Accepts byteDeck.options byteArchive.manifest :=
    ⟨by decide +kernel, by decide +kernel, by decide +kernel, by decide +kernel,
      by decide +kernel, by decide +kernel⟩
  have htime : InTime byteDeck.options byteDeck.clock byteDeck.handled.length
      (byteDeck.handled.length + chunkCount byteArchive.image) := by
    intro k _ _
    show (0 : UInt64) ≤ 0 ∧ (0 : UInt64) - 0 < 600000 ∧ (0 : UInt64) ≤ 0 ∧ (0 : UInt64) - 0 < 30000
    decide
  exact ota_transfer hpreview hid hdecodes haccepts (by decide) htime

end RlcdDeck.OtaTransfer
