import RlcdDeck.Bytes.Base64
import RlcdDeck.OtaTransfer.Protocol

/-!
# The OTA service of the Companion

The model of `ota/service.go`, with the messages of `devicelink/protocol.go`: what `Preview`
accepts, the bytes that are signed, the offer and the chunks that `run` sends, and the check of
each result.

The hash, the signature check and the decoder of the archive are parameters.  The receipts, the
statuses and the deadlines are left out: an archive goes from `Preview` to `run` unchanged.
-/

namespace RlcdDeck.OtaTransfer

open Bytes (decodeHex encodeHex)
open Bytes.Base64 (encodePadded standard)

/-! ### Messages -/

/-- A member of a message. -/
inductive Value where
  | string (text : Text)
  | number (value : ℕ)
  | bool (value : Bool)

/-- A message: the fields of a structure in their order. -/
abbrev Message := List (Text × Value)

/-- A number in decimal. -/
def decimal (value : ℕ) : Text := (Nat.toDigits 10 value).map fun c => UInt8.ofNat c.toNat

/-- A text in quotes; no string of these messages needs an escape. -/
def quote (text : Text) : Text := ascii "\"" ++ text ++ ascii "\""

def Value.marshal : Value → Text
  | .string text => quote text
  | .number value => decimal value
  | .bool value => if value then ascii "true" else ascii "false"

/-- `json.Marshal`. -/
def marshal (message : Message) : Text :=
  ascii "\x7b" ++
    List.intercalate (ascii ",")
      (message.map fun entry => quote entry.1 ++ ascii ":" ++ entry.2.marshal) ++
    ascii "\x7d"

/-- What cJSON makes of a value. -/
def Value.item : Value → Item
  | .string text => .string text
  | .number value => .number value
  | .bool value => .bool value

/-- What cJSON makes of a message. -/
def items (message : Message) : List (Text × Item) :=
  message.map fun entry => (entry.1, entry.2.item)

namespace Companion

/-! ### Archives -/

/-- `MaximumImageBytes`. -/
def maximumImageBytes : ℕ := 1740800

/-- `MaximumArchiveBytes`. -/
def maximumArchiveBytes : ℕ := 3 * 2 ^ 20

/-- `chunkBytes`. -/
def chunkBytes : ℕ := 3072

structure Manifest where
  version : Text
  board : Text
  imageLength : UInt32
  imageSha256 : Text
  signature : List UInt8
  signingKeyId : UInt32
  minimumProtocolVersion : UInt32
  deriving DecidableEq

structure Archive where
  bundleVersion : ℤ
  manifest : Manifest
  image : List UInt8
  deriving DecidableEq

/-- What `Preview` takes from outside: the decoder of the archive, SHA-256, and the check of a
signature under the key of an identifier, if there is one. -/
structure Environment where
  unmarshal : List UInt8 → Option Archive
  sha256 : List UInt8 → List UInt8
  verify : UInt32 → List UInt8 → List UInt8 → Bool

/-- `[0-9A-Za-z.+-]`. -/
def isVersionByte (c : UInt8) : Bool :=
  (48 ≤ c && c ≤ 57) || (65 ≤ c && c ≤ 90) || (97 ≤ c && c ≤ 122) || c == 46 || c == 43 || c == 45

/-- `^[0-9][0-9A-Za-z.+-]{0,30}$`. -/
def versionPattern (version : Text) : Bool :=
  1 ≤ version.length && version.length ≤ 31 &&
    (version.take 1).all (fun c => 48 ≤ c && c ≤ 57) && version.all isVersionByte

/-- `BoardESP32S3RLCD42`. -/
def boardEsp32S3Rlcd42 : Text := ascii "esp32-s3-rlcd-4.2"

def validManifestMetadata (manifest : Manifest) : Bool :=
  versionPattern manifest.version && manifest.board == boardEsp32S3Rlcd42 &&
    decide (0 < manifest.imageLength.toNat) &&
    decide (manifest.imageLength.toNat ≤ maximumImageBytes) &&
    manifest.imageSha256.length == 64 && (decodeHex manifest.imageSha256).isSome &&
    manifest.signingKeyId != 0 && manifest.minimumProtocolVersion != 0

def validManifestFields (manifest : Manifest) : Bool :=
  validManifestMetadata manifest && manifest.signature.length == 64

/-- `copy` of a text to a cleared part of the document. -/
def field (size : ℕ) (text : List UInt8) : List UInt8 :=
  text.take size ++ List.replicate (size - text.length) 0

/-- `CanonicalManifest`. -/
def canonicalManifest (manifest : Manifest) : Option (List UInt8) :=
  if !validManifestMetadata manifest then none
  else
    match decodeHex manifest.imageSha256 with
    | none => none
    | some digest =>
      if digest.length ≠ 32 then none
      else
        some (ascii "S3RLCDOTA1" ++ Bytes.BigEndian.write 4 manifest.signingKeyId.toNat ++
          Bytes.BigEndian.write 4 manifest.minimumProtocolVersion.toNat ++
          Bytes.BigEndian.write 4 manifest.imageLength.toNat ++ field 48 manifest.board ++
          field 32 manifest.version ++ digest)

/-- The archive that `Preview` keeps. -/
def preview (env : Environment) (document : List UInt8) : Option Archive :=
  if document.length = 0 ∨ maximumArchiveBytes < document.length then none
  else
    match env.unmarshal document with
    | none => none
    | some archive =>
      if archive.bundleVersion ≠ 1 ∨ validManifestFields archive.manifest = false ∨
          archive.image.length ≠ archive.manifest.imageLength.toNat then none
      else if decodeHex archive.manifest.imageSha256 ≠ some (env.sha256 archive.image) then none
      else
        match canonicalManifest archive.manifest with
        | none => none
        | some canonical =>
          if env.verify archive.manifest.signingKeyId (env.sha256 canonical)
              archive.manifest.signature then some archive
          else none

/-! ### Messages of a transaction -/

/-- The identifier of a transaction, from 16 random bytes. -/
def transactionId (idBytes : List UInt8) : Text := encodeHex idBytes

/-- `OTAOffer`, as `run` fills it and `SendOTAOffer` completes it. -/
def offerMessage (id : Text) (manifest : Manifest) : Message :=
  [(ascii "type", .string (ascii "ota.offer")),
    (ascii "protocol_version", .number 1),
    (ascii "transaction_id", .string id),
    (ascii "version", .string manifest.version),
    (ascii "board", .string manifest.board),
    (ascii "image_length", .number manifest.imageLength.toNat),
    (ascii "image_sha256", .string manifest.imageSha256),
    (ascii "signature", .string (encodePadded standard manifest.signature)),
    (ascii "signing_key_id", .number manifest.signingKeyId.toNat),
    (ascii "minimum_protocol_version", .number manifest.minimumProtocolVersion.toNat)]

/-- What `run` sends of the image. -/
structure Chunk where
  offset : UInt32
  data : List UInt8
  final : Bool

/-- `OTAChunk`, completed by `SendOTAChunk`. -/
def chunkMessage (id : Text) (chunk : Chunk) : Message :=
  [(ascii "type", .string (ascii "ota.chunk")),
    (ascii "protocol_version", .number 1),
    (ascii "transaction_id", .string id),
    (ascii "offset", .number chunk.offset.toNat),
    (ascii "data", .string (encodePadded standard chunk.data)),
    (ascii "final", .bool chunk.final)]

/-- Where the chunk at an offset ends. -/
def chunkEnd (image : List UInt8) (offset : ℕ) : ℕ := min (offset + chunkBytes) image.length

/-- The chunk at an offset of the image. -/
def chunkAt (image : List UInt8) (offset : ℕ) : Chunk where
  offset := UInt32.ofNat offset
  data := (image.drop offset).take (chunkEnd image offset - offset)
  final := chunkEnd image offset == image.length

/-- `MaxControlMessageBytes`. -/
def maxControlMessageBytes : ℕ := 16 * 1024

/-- `writeDeviceControl`: the text that goes to the Deck. -/
def send (message : Message) : Option Text :=
  let document := marshal message
  if document.length = 0 ∨ maxControlMessageBytes < document.length then none else some document

/-! ### The run of a transaction -/

/-- `OTAResult`, without its type and protocol version. -/
structure OtaResult where
  transactionId : Text
  state : Text
  code : Text
  receivedBytes : UInt32
  imageLength : UInt32

/-- The codes of a result. -/
def resultCodes : List Text :=
  ["ok", "invalid_manifest", "wrong_board", "incompatible_protocol", "downgrade_rejected",
    "image_too_large", "signature_rejected", "busy", "stale_offset", "flash_failure",
    "hash_mismatch", "image_invalid", "timed_out"].map ascii

/-- `^[0-9a-f]{32}$`. -/
def otaTransactionId (id : Text) : Bool := id.length == 32 && id.all Bytes.isLowerHex

/-- The checks of `parseOTAResult` on the fields of a result. -/
def validResult (result : OtaResult) : Bool :=
  let ok := result.code == ascii "ok"
  let failed := result.state == ascii "failed"
  let ready := result.state == ascii "ready_to_reboot"
  otaTransactionId result.transactionId &&
    (result.state == ascii "receiving" || ready || failed) &&
    resultCodes.contains result.code && decide (result.receivedBytes ≤ result.imageLength) &&
    decide (result.imageLength.toNat ≤ 1740800) && !(ok && failed) && !(!ok && !failed) &&
    !(ok && result.imageLength == 0) &&
    !(ready && (!ok || result.receivedBytes != result.imageLength))

/-- `State`. -/
inductive Phase where
  | offering
  | receiving
  | readyToReboot
  | failed

/-- The part of `Status` that `run` changes. -/
structure Status where
  phase : Phase
  code : Text
  receivedBytes : UInt32

/-- `resultCode`. -/
def resultCode : Option OtaResult → Text
  | none => ascii "result_timeout"
  | some result => if result.code = ascii "ok" then ascii "invalid_result" else result.code

/-- `fail`. -/
def Status.fail (status : Status) (code : Text) : Status :=
  { status with phase := .failed, code := code }

/-- The result that `run` waits for. -/
def expected (archive : Archive) (state : String) (received : ℕ) : Option OtaResult → Bool
  | none => false
  | some result =>
    result.state == ascii state && result.code == ascii "ok" &&
      result.receivedBytes == UInt32.ofNat received &&
      result.imageLength == archive.manifest.imageLength

section Run

variable {δ : Type} (deliver : δ → Text → Option OtaResult × δ)

/-- `HandleResult`, behind `parseOTAResult`: a result that reaches the transaction. -/
def handleResult (id : Text) (result : OtaResult) : Option OtaResult :=
  if validResult result && result.transactionId == id then some result else none

/-- One message to the Deck and its result: `none` when it could not be sent, and no result when
none came in time. -/
def exchange (id : Text) (deck : δ) (message : Message) : Option (Option OtaResult × δ) :=
  (send message).map fun text =>
    ((deliver deck text).1.bind (handleResult id), (deliver deck text).2)

/-- The loop of `run`, from an offset on. -/
def runChunks (id : Text) (archive : Archive) (offset : ℕ) (status : Status) (deck : δ) :
    Status × δ :=
  if _h : offset < archive.image.length then
    let chunk := chunkAt archive.image offset
    let received := chunkEnd archive.image offset
    match exchange deliver id deck (chunkMessage id chunk) with
    | none => (status.fail (ascii "transport_unavailable"), deck)
    | some (result, deck) =>
      let state := if chunk.final then "ready_to_reboot" else "receiving"
      if expected archive state received result then
        let phase := if chunk.final then .readyToReboot else .receiving
        runChunks id archive (offset + chunkBytes) ⟨phase, ascii "ok", UInt32.ofNat received⟩ deck
      else (status.fail (resultCode result), deck)
  else (status, deck)
termination_by archive.image.length - offset
decreasing_by
  unfold chunkBytes
  omega

/-- `run`. -/
def run (id : Text) (archive : Archive) (deck : δ) : Status × δ :=
  let status : Status := ⟨.offering, ascii "pending", 0⟩
  match exchange deliver id deck (offerMessage id archive.manifest) with
  | none => (status.fail (ascii "transport_unavailable"), deck)
  | some (result, deck) =>
    if expected archive "receiving" 0 result then
      runChunks deliver id archive 0 ⟨.receiving, ascii "ok", 0⟩ deck
    else (status.fail (resultCode result), deck)

end Run

end Companion

end RlcdDeck.OtaTransfer
