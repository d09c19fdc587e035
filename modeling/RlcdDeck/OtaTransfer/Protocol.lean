import Mathlib.Data.Rat.Floor
import RlcdDeck.Bytes.BigEndian
import RlcdDeck.Bytes.Hex
import RlcdDeck.OtaTransaction.Transaction

/-!
# The OTA messages on the Deck

The model of `deck_ota_protocol.cpp` and of the signed bytes of `verify_manifest` in
`deck_ota_service.cpp`.

cJSON and the base64 decoder of Mbed TLS are parameters.  `cJson` is the object that a text is, by
its members in their order, or `none`; the number of a member is the value of its `double`.  A
string is a C string, without its terminator.
-/

namespace RlcdDeck.OtaTransfer

open Bytes (decodeHex isLowerHex)
open OtaTransaction (Manifest boardCapacity characters maxChunkBytes versionCapacity)

/-- A string, by its bytes. -/
abbrev Text := List UInt8

/-- The bytes of a string of ASCII characters. -/
def ascii (text : String) : Text := text.toList.map fun c => UInt8.ofNat c.toNat

/-- A cJSON item. -/
inductive Item where
  | string (text : Text)
  | number (value : ℚ)
  | bool (value : Bool)
  | other
  deriving DecidableEq

/-- The decoders that are not part of the firmware. -/
structure Decoders where
  cJson : Text → Option (List (Text × Item))
  /-- `mbedtls_base64_decode` into a buffer of the given size. -/
  base64 : ℕ → Text → Option (List UInt8)

/-- `deck_ota_protocol_command_t`. -/
inductive Command where
  | offer (transactionId : Text) (manifest : Manifest)
  | chunk (transactionId : Text) (offset : UInt32) (data : List UInt8) (final : Bool)

/-! ### Members -/

/-- `cJSON_GetObjectItemCaseSensitive`. -/
def member (root : List (Text × Item)) (name : String) : Option Item :=
  (root.find? fun entry => entry.1 == ascii name).map Prod.snd

def jsonString (root : List (Text × Item)) (name : String) : Option Text :=
  match member root name with
  | some (.string text) => some text
  | _ => none

def jsonU32 (root : List (Text × Item)) (name : String) : Option UInt32 :=
  match member root name with
  | some (.number value) =>
    if value < 0 ∨ 0xffffffff < value ∨ value ≠ (⌊value⌋ : ℚ) then none
    else some (UInt32.ofNat ⌊value⌋.toNat)
  | _ => none

def jsonBool (root : List (Text × Item)) (name : String) : Option Bool :=
  match member root name with
  | some (.bool value) => some value
  | _ => none

def lowercaseHex (value : Text) (length : ℕ) : Bool :=
  value.length == length && value.all isLowerHex

/-- `decode_hex`: the bytes of a text of exactly `2 * outputSize` digits in lower case. -/
def decodeHexExact (value : Text) (outputSize : ℕ) : Option (List UInt8) :=
  if lowercaseHex value (outputSize * 2) then decodeHex value else none

def boundedAscii (value : Text) (capacity : ℕ) : Bool :=
  value.length != 0 && value.length < capacity && value.all fun byte => 0x21 ≤ byte && byte ≤ 0x7e

/-- `strcpy` into a cleared array. -/
def cArray (capacity : ℕ) (text : Text) : List UInt8 :=
  text ++ List.replicate (capacity - text.length) 0

/-! ### Commands -/

/-- `kProtocolVersion`. -/
def protocolVersion : UInt32 := 1

/-- `parse_common`: the transaction. -/
def parseCommon (root : List (Text × Item)) (wantedType : String) : Option Text := do
  let type ← jsonString root "type"
  if type ≠ ascii wantedType then none
  let protocol ← jsonU32 root "protocol_version"
  if protocol ≠ protocolVersion then none
  let id ← jsonString root "transaction_id"
  if lowercaseHex id 32 then some id else none

/-- `parse_offer`. -/
def parseOffer (decoders : Decoders) (root : List (Text × Item)) : Option Command := do
  if root.length ≠ 10 then none
  let transactionId ← parseCommon root "ota.offer"
  let version ← jsonString root "version"
  if !boundedAscii version versionCapacity then none
  let board ← jsonString root "board"
  if !boundedAscii board boardCapacity then none
  let imageLength ← jsonU32 root "image_length"
  let signingKeyId ← jsonU32 root "signing_key_id"
  let minimumProtocolVersion ← jsonU32 root "minimum_protocol_version"
  let digest ← jsonString root "image_sha256"
  let imageSha256 ← decodeHexExact digest 32
  let encoded ← jsonString root "signature"
  if 128 < encoded.length then none
  let signature ← decoders.base64 64 encoded
  if signature.length ≠ 64 then none
  some (.offer transactionId
    { version := cArray versionCapacity version
      board := cArray boardCapacity board
      imageLength := imageLength
      imageSha256 := imageSha256
      signature := signature
      signingKeyId := signingKeyId
      minimumProtocolVersion := minimumProtocolVersion })

/-- `parse_chunk`. -/
def parseChunk (decoders : Decoders) (root : List (Text × Item)) : Option Command := do
  if root.length ≠ 6 then none
  let transactionId ← parseCommon root "ota.chunk"
  let offset ← jsonU32 root "offset"
  let final ← jsonBool root "final"
  let encoded ← jsonString root "data"
  if 4096 < encoded.length then none
  let data ← decoders.base64 maxChunkBytes encoded
  if data.length = 0 then none
  some (.chunk transactionId offset data final)

/-- `deck_ota_protocol_parse`. -/
def parse (decoders : Decoders) (message : Text) : Option Command := do
  if message.length = 0 ∨ 16 * 1024 < message.length then none
  let root ← decoders.cJson message
  let type ← jsonString root "type"
  if type = ascii "ota.offer" then parseOffer decoders root
  else if type = ascii "ota.chunk" then parseChunk decoders root
  else none

/-! ### The signed bytes -/

/-- The string of an array in `size` bytes. -/
def padded (size : ℕ) (array : List UInt8) : List UInt8 :=
  characters array ++ List.replicate (size - (characters array).length) 0

/-- `kManifestMagic`. -/
def manifestMagic : List UInt8 := ascii "S3RLCDOTA1"

/-- The bytes whose signature `verify_manifest` checks. -/
def verifiedBytes (manifest : Manifest) : List UInt8 :=
  manifestMagic ++ Bytes.BigEndian.write 4 manifest.signingKeyId.toNat ++
    Bytes.BigEndian.write 4 manifest.minimumProtocolVersion.toNat ++
    Bytes.BigEndian.write 4 manifest.imageLength.toNat ++ padded 48 manifest.board ++
    padded 32 manifest.version ++ manifest.imageSha256

end RlcdDeck.OtaTransfer
