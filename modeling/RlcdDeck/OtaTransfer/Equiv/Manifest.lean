import RlcdDeck.OtaTransfer.Companion

/-!
# The offer and the signed bytes

What the Companion offers is what the Deck parses, field by field, and both build the same signed
bytes from it (`manifest_agreement`), exactly when the digest is written in lower case: `Preview`
takes hexadecimal digits of both cases and the Deck only those in lower case.

cJSON and the base64 decoder are assumed to decode the one message that is sent.
-/

namespace RlcdDeck.OtaTransfer

open Bytes (decodeHex encodeHex isLowerHex)
open Bytes.Base64 (encodePadded standard)
open Companion
open OtaTransaction (characters boardCapacity versionCapacity)

/-! ### Members -/

theorem jsonU32_of_member {root : List (Text × Item)} {name : String} {value : ℕ}
    (h : member root name = some (.number value)) (hvalue : value < 2 ^ 32) :
    jsonU32 root name = some (UInt32.ofNat value) := by
  unfold jsonU32
  rw [h]
  dsimp only
  rw [if_neg, Int.floor_natCast, Int.toNat_natCast]
  rintro (hno | hno | hno)
  · have hnonneg : (0 : ℚ) ≤ value := Nat.cast_nonneg value
    exact absurd hno (not_lt.mpr hnonneg)
  · have hle : (value : ℚ) ≤ 0xffffffff := by
      exact_mod_cast (by omega : value ≤ 0xffffffff)
    exact absurd hno (not_lt.mpr hle)
  · rw [Int.floor_natCast, Int.cast_natCast] at hno
    exact hno rfl

variable {text : Text}

theorem jsonString_of_member {root : List (Text × Item)} {name : String}
    (h : member root name = some (.string text)) : jsonString root name = some text := by
  unfold jsonString
  rw [h]

/-! ### The offer -/

/-- The manifest that the Deck has from an offer whose digest is `digest`. -/
def offered (manifest : Companion.Manifest) (digest : List UInt8) : OtaTransaction.Manifest where
  version := cArray versionCapacity manifest.version
  board := cArray boardCapacity manifest.board
  imageLength := manifest.imageLength
  imageSha256 := digest
  signature := manifest.signature
  signingKeyId := manifest.signingKeyId
  minimumProtocolVersion := manifest.minimumProtocolVersion

variable {id : Text}

theorem parseCommon_of_members {root : List (Text × Item)} {type : String}
    (htype : member root "type" = some (.string (ascii type)))
    (hprotocol : member root "protocol_version" = some (.number (1 : ℕ)))
    (hid : member root "transaction_id" = some (.string id)) (hhex : lowercaseHex id 32 = true) :
    parseCommon root type = some id := by
  unfold parseCommon
  rw [jsonString_of_member htype, jsonU32_of_member hprotocol (by omega),
    jsonString_of_member hid]
  simp [hhex, protocolVersion]

variable {manifest : Companion.Manifest}

theorem parseOffer_offerMessage {decoders : Decoders} (hid : lowercaseHex id 32 = true)
    (hversion : boundedAscii manifest.version versionCapacity = true)
    (hboard : boundedAscii manifest.board boardCapacity = true)
    (hsignature : manifest.signature.length = 64)
    (hbase64 : decoders.base64 64 (encodePadded standard manifest.signature) =
      some manifest.signature) :
    parseOffer decoders (items (offerMessage id manifest)) =
      (decodeHexExact manifest.imageSha256 32).map fun digest =>
        .offer id (offered manifest digest) := by
  have hcommon : parseCommon (items (offerMessage id manifest)) "ota.offer" = some id :=
    parseCommon_of_members rfl rfl rfl hid
  have hencoded : ¬ 128 < (encodePadded standard manifest.signature).length := by
    rw [Bytes.Base64.length_encodePadded, hsignature]
    decide
  have hcount : (items (offerMessage id manifest)).length = 10 := rfl
  have hmember : ∀ name text, member (items (offerMessage id manifest)) name = some (.string text) →
      jsonString (items (offerMessage id manifest)) name = some text :=
    fun name text h => jsonString_of_member h
  have hnumber : ∀ name (value : UInt32),
      member (items (offerMessage id manifest)) name = some (.number value.toNat) →
      jsonU32 (items (offerMessage id manifest)) name = some value := by
    intro name value h
    rw [jsonU32_of_member h value.toNat_lt, UInt32.ofNat_toNat]
  unfold parseOffer
  rw [hcommon, hmember "version" manifest.version rfl, hmember "board" manifest.board rfl,
    hnumber "image_length" manifest.imageLength rfl,
    hnumber "signing_key_id" manifest.signingKeyId rfl,
    hnumber "minimum_protocol_version" manifest.minimumProtocolVersion rfl,
    hmember "image_sha256" manifest.imageSha256 rfl,
    hmember "signature" (encodePadded standard manifest.signature) rfl]
  simp only [Option.bind_eq_bind, Option.bind_some, hversion, hboard, hbase64, hsignature, hencoded,
    hcount, ne_eq, not_true, Bool.not_true, Bool.false_eq_true, if_false]
  cases decodeHexExact manifest.imageSha256 32 with
  | none => rfl
  | some digest => rfl

/-! ### The size of the offer -/

theorem length_decimal_le {value : ℕ} (h : value < 2 ^ 32) : (decimal value).length ≤ 10 := by
  rw [decimal, List.length_map, Nat.length_toDigits_le_iff (by decide) (by decide)]
  omega

theorem length_quote (text : Text) : (quote text).length = text.length + 2 := by
  have hone : (ascii "\"").length = 1 := by decide
  rw [quote, List.length_append, List.length_append, hone]
  omega

theorem marshal_offer_length (hid : id.length = 32) (hversion : manifest.version.length ≤ 31)
    (hboard : manifest.board.length = 17)
    (hdigest : manifest.imageSha256.length = 64) (hsignature : manifest.signature.length = 64) :
    0 < (marshal (offerMessage id manifest)).length ∧
      (marshal (offerMessage id manifest)).length ≤ maxControlMessageBytes := by
  have hlength := length_decimal_le manifest.imageLength.toNat_lt
  have hkey := length_decimal_le manifest.signingKeyId.toNat_lt
  have hminimum := length_decimal_le manifest.minimumProtocolVersion.toNat_lt
  have hone : (decimal 1).length = 1 := by decide
  have hencoded := Bytes.Base64.length_encodePadded standard manifest.signature
  rw [hsignature] at hencoded
  have hascii : ∀ text : String, (ascii text).length = text.toList.length := by
    intro text
    rw [ascii, List.length_map]
  simp only [marshal, offerMessage, List.map_cons, List.map_nil, List.intercalate,
    List.intersperse, List.flatten_cons, List.flatten_nil, List.length_append, length_quote,
    Value.marshal, hascii, String.reduceToList, List.length_cons, List.length_nil, hid, hboard,
    hdigest, hone, hencoded, maxControlMessageBytes]
  omega

/-! ### Agreement -/

/-- The Deck has the fields that the Companion has. -/
structure SameFields (companion : Companion.Manifest) (deck : OtaTransaction.Manifest) : Prop where
  version : deck.version = cArray versionCapacity companion.version
  board : deck.board = cArray boardCapacity companion.board
  imageLength : deck.imageLength = companion.imageLength
  imageSha256 : decodeHex companion.imageSha256 = some deck.imageSha256
  signature : deck.signature = companion.signature
  signingKeyId : deck.signingKeyId = companion.signingKeyId
  minimumProtocolVersion : deck.minimumProtocolVersion = companion.minimumProtocolVersion

theorem characters_cArray (h : ∀ c ∈ text, c ≠ 0) {capacity : ℕ} :
    characters (cArray capacity text) = text := by
  unfold characters cArray
  rw [List.takeWhile_append_of_pos fun c hc => by simpa using h c hc]
  cases capacity - text.length with
  | zero => simp
  | succ n => simp [List.replicate_succ]

theorem field_eq_padded (h : ∀ c ∈ text, c ≠ 0) {size capacity : ℕ} (hsize : text.length ≤ size) :
    padded size (cArray capacity text) = field size text := by
  unfold padded field
  rw [characters_cArray h, List.take_of_length_le hsize]

theorem verifiedBytes_offered {digest canonical : List UInt8}
    (hversion : manifest.version.length ≤ 32 ∧ ∀ c ∈ manifest.version, c ≠ 0)
    (hboard : manifest.board.length ≤ 48 ∧ ∀ c ∈ manifest.board, c ≠ 0)
    (hdigest : decodeHex manifest.imageSha256 = some digest)
    (h : canonicalManifest manifest = some canonical) :
    verifiedBytes (offered manifest digest) = canonical := by
  unfold canonicalManifest at h
  split_ifs at h
  rw [hdigest] at h
  dsimp only at h
  split_ifs at h
  obtain rfl := Option.some.inj h
  unfold verifiedBytes offered
  dsimp only
  rw [field_eq_padded hversion.2 hversion.1, field_eq_padded hboard.2 hboard.1]
  rfl

theorem boundedAscii_of_versionPattern {version : Text} (h : versionPattern version = true) :
    boundedAscii version versionCapacity = true ∧ version.length ≤ 31 ∧ ∀ c ∈ version, c ≠ 0 := by
  unfold versionPattern at h
  simp only [Bool.and_eq_true, decide_eq_true_eq, List.all_eq_true] at h
  obtain ⟨⟨⟨hlow, hhigh⟩, -⟩, hbytes⟩ := h
  have hprintable : ∀ c ∈ version, 0x21 ≤ c ∧ c ≤ 0x7e := by
    have hall : ∀ n : Fin 256, isVersionByte (UInt8.ofNat n) = true →
        0x21 ≤ UInt8.ofNat n ∧ UInt8.ofNat n ≤ 0x7e := by decide +kernel
    intro c hc
    have hbyte := hall ⟨c.toNat, c.toNat_lt⟩
    rw [UInt8.ofNat_toNat] at hbyte
    exact hbyte (hbytes c hc)
  refine ⟨?_, hhigh, ?_⟩
  · unfold boundedAscii versionCapacity
    simp only [Bool.and_eq_true, bne_iff_ne, decide_eq_true_eq, List.all_eq_true]
    exact ⟨⟨by omega, by omega⟩, hprintable⟩
  · rintro c hc rfl
    exact absurd (hprintable 0 hc).1 (by decide)

/-- What `Preview` has checked. -/
structure Previewed (manifest : Companion.Manifest) : Prop where
  version : versionPattern manifest.version = true
  board : manifest.board = boardEsp32S3Rlcd42
  digestLength : manifest.imageSha256.length = 64
  digest : ∃ digest, decodeHex manifest.imageSha256 = some digest
  signature : manifest.signature.length = 64
  canonical : ∃ canonical, canonicalManifest manifest = some canonical

theorem previewed {env : Environment} {document : List UInt8} {archive : Archive}
    (h : preview env document = some archive) : Previewed archive.manifest := by
  unfold preview at h
  split_ifs at h
  split at h
  · cases h
  next found hfound =>
  split_ifs at h with hfields hdigest
  split at h
  · cases h
  next canonical hcanonical =>
  split_ifs at h
  obtain rfl := Option.some.inj h
  simp only [not_or, Bool.not_eq_false, validManifestFields, validManifestMetadata,
    Bool.and_eq_true, beq_iff_eq, Option.isSome_iff_exists] at hfields
  obtain ⟨-, ⟨⟨⟨⟨⟨⟨⟨⟨hversion, hboard⟩, -⟩, -⟩, hlength⟩, hhex⟩, -⟩, -⟩, hsignature⟩, -⟩ := hfields
  exact ⟨hversion, hboard, hlength, hhex, hsignature, canonical, hcanonical⟩

theorem parse_offerMessage {decoders : Decoders} (hid : lowercaseHex id 32 = true)
    (h : Previewed manifest)
    (hjson : decoders.cJson (marshal (offerMessage id manifest)) =
      some (items (offerMessage id manifest)))
    (hbase64 : decoders.base64 64 (encodePadded standard manifest.signature) =
      some manifest.signature) :
    send (offerMessage id manifest) = some (marshal (offerMessage id manifest)) ∧
      parse decoders (marshal (offerMessage id manifest)) =
        (decodeHexExact manifest.imageSha256 32).map fun digest =>
          .offer id (offered manifest digest) := by
  obtain ⟨hversion, hversionLength, -⟩ := boundedAscii_of_versionPattern h.version
  have hidLength : id.length = 32 := by
    unfold lowercaseHex at hid
    rw [Bool.and_eq_true, beq_iff_eq] at hid
    exact hid.1
  have hboardLength : manifest.board.length = 17 := by
    rw [h.board]
    rfl
  have hboard : boundedAscii manifest.board boardCapacity = true := by
    rw [h.board]
    decide +kernel
  obtain ⟨hpos, hmax⟩ :=
    marshal_offer_length hidLength hversionLength hboardLength h.digestLength h.signature
  have hsize : ¬ ((marshal (offerMessage id manifest)).length = 0 ∨
      maxControlMessageBytes < (marshal (offerMessage id manifest)).length) := by
    omega
  constructor
  · unfold send
    exact if_neg hsize
  · have htype : jsonString (items (offerMessage id manifest)) "type" = some (ascii "ota.offer") :=
      jsonString_of_member rfl
    unfold parse
    rw [hjson, show 16 * 1024 = maxControlMessageBytes from rfl, if_neg hsize]
    simp only [Option.bind_eq_bind, Option.bind_some, htype, if_true]
    exact parseOffer_offerMessage hid hversion hboard h.signature hbase64

theorem lowercaseHex_transactionId {idBytes : List UInt8} (h : idBytes.length = 16) :
    lowercaseHex (transactionId idBytes) 32 = true := by
  unfold lowercaseHex transactionId
  rw [Bool.and_eq_true, beq_iff_eq, Bytes.length_encodeHex, List.all_eq_true, h]
  exact ⟨rfl, Bytes.isLowerHex_encodeHex idBytes⟩

theorem decodeHexExact_eq (hlength : text.length = 64) (hlower : text.all isLowerHex = true) :
    decodeHexExact text 32 = decodeHex text := by
  unfold decodeHexExact lowercaseHex
  exact if_pos (by rw [Bool.and_eq_true, beq_iff_eq]; exact ⟨hlength, hlower⟩)

/-- **The offer and the signed bytes agree**, exactly for a digest in lower case. -/
theorem manifest_agreement {env : Environment} {document idBytes : List UInt8} {archive : Archive}
    {decoders : Decoders} (hpreview : preview env document = some archive)
    (hid : idBytes.length = 16)
    (hjson : decoders.cJson (marshal (offerMessage (transactionId idBytes) archive.manifest)) =
      some (items (offerMessage (transactionId idBytes) archive.manifest)))
    (hbase64 : decoders.base64 64 (encodePadded standard archive.manifest.signature) =
      some archive.manifest.signature) :
    (∃ text manifest canonical,
      send (offerMessage (transactionId idBytes) archive.manifest) = some text ∧
      parse decoders text = some (.offer (transactionId idBytes) manifest) ∧
      SameFields archive.manifest manifest ∧
      canonicalManifest archive.manifest = some canonical ∧
      verifiedBytes manifest = canonical) ↔
    archive.manifest.imageSha256.all isLowerHex = true := by
  have h := previewed hpreview
  have hidHex := lowercaseHex_transactionId hid
  obtain ⟨hsend, hparse⟩ := parse_offerMessage hidHex h hjson hbase64
  constructor
  · rintro ⟨text, manifest, canonical, htext, hcommand, -⟩
    obtain rfl := Option.some.inj (hsend.symm.trans htext)
    rw [hparse] at hcommand
    obtain ⟨digest, hdigest, -⟩ := Option.map_eq_some_iff.mp hcommand
    unfold decodeHexExact lowercaseHex at hdigest
    split_ifs at hdigest with hlower
    rw [Bool.and_eq_true] at hlower
    exact hlower.2
  · intro hlower
    obtain ⟨digest, hdigest⟩ := h.digest
    obtain ⟨canonical, hcanonical⟩ := h.canonical
    have hexact : decodeHexExact archive.manifest.imageSha256 32 = some digest :=
      (decodeHexExact_eq h.digestLength hlower).trans hdigest
    obtain ⟨-, hversionLength, hversion⟩ := boundedAscii_of_versionPattern h.version
    have hboard : archive.manifest.board.length ≤ 48 ∧ ∀ c ∈ archive.manifest.board, c ≠ 0 := by
      rw [h.board]
      decide +kernel
    refine ⟨_, offered archive.manifest digest, canonical, hsend, ?_, ?_, hcanonical, ?_⟩
    · rw [hparse, hexact]
      rfl
    · exact ⟨rfl, rfl, rfl, hdigest, rfl, rfl, rfl⟩
    · exact verifiedBytes_offered ⟨by omega, hversion⟩ hboard hdigest hcanonical

/-! ### An archive of one byte -/

/-- The digest of one zero byte. -/
def sampleDigest : Text := ascii "6e340b9cffb37a989ca544e6bb780a2c78901d3fb33738768511a30617afa01d"

/-- The same digest in upper case. -/
def upperDigest : Text := ascii "6E340B9CFFB37A989CA544E6BB780A2C78901D3FB33738768511A30617AFA01D"

def sampleArchive (digest : Text) : Archive where
  bundleVersion := 1
  manifest :=
    { version := ascii "1.0.0", board := boardEsp32S3Rlcd42, imageLength := 1,
      imageSha256 := digest, signature := List.replicate 64 7, signingKeyId := 1,
      minimumProtocolVersion := 1 }
  image := [0]

def sampleEnvironment (digest : Text) : Environment where
  unmarshal _ := some (sampleArchive digest)
  sha256 bytes := if bytes = [0] then (decodeHex sampleDigest).getD [] else List.replicate 32 0
  verify _ _ _ := true

def sampleId : List UInt8 := List.replicate 16 0

/-- Decoders that decode the one offer. -/
def sampleDecoders (digest : Text) : Decoders where
  cJson _ := some (items (offerMessage (transactionId sampleId) (sampleArchive digest).manifest))
  base64 _ text := Bytes.Base64.decodePadded standard text

def sampleOffer (digest : Text) : Message :=
  offerMessage (transactionId sampleId) (sampleArchive digest).manifest

theorem manifest_agreement_sample :
    (∃ text manifest canonical,
      send (sampleOffer sampleDigest) = some text ∧
      parse (sampleDecoders sampleDigest) text =
        some (.offer (transactionId sampleId) manifest) ∧
      SameFields (sampleArchive sampleDigest).manifest manifest ∧
      canonicalManifest (sampleArchive sampleDigest).manifest = some canonical ∧
      verifiedBytes manifest = canonical) ↔
    (sampleArchive sampleDigest).manifest.imageSha256.all isLowerHex = true := by
  have hpreview : preview (sampleEnvironment sampleDigest) [0] =
      some (sampleArchive sampleDigest) := by decide +kernel
  have hid : sampleId.length = 16 := by decide
  have hjson : (sampleDecoders sampleDigest).cJson (marshal (sampleOffer sampleDigest)) =
      some (items (sampleOffer sampleDigest)) := rfl
  exact manifest_agreement hpreview hid hjson (by decide +kernel)

/-- An archive whose digest is in upper case passes `Preview`, and the Deck refuses its offer. -/
theorem upper_digest_refused :
    preview (sampleEnvironment upperDigest) [0] = some (sampleArchive upperDigest) ∧
      send (sampleOffer upperDigest) = some (marshal (sampleOffer upperDigest)) ∧
      (sampleDecoders upperDigest).cJson (marshal (sampleOffer upperDigest)) =
        some (items (sampleOffer upperDigest)) ∧
      (sampleDecoders upperDigest).base64 64
        (encodePadded standard (sampleArchive upperDigest).manifest.signature) =
          some (sampleArchive upperDigest).manifest.signature ∧
      parse (sampleDecoders upperDigest) (marshal (sampleOffer upperDigest)) = none := by
  exact ⟨by decide +kernel, by decide +kernel, rfl, by decide +kernel, by decide +kernel⟩

end RlcdDeck.OtaTransfer
