import Mathlib.Logic.Function.Iterate

/-!
# Little-endian records and their checksum

The integers of the firmware's stored records, least significant byte first, and the CRC-32 that
closes them.
-/

namespace RlcdDeck.Bytes

/-- The 32-bit integer at `offset`. -/
def readU32 (bytes : List UInt8) (offset : ℕ) : UInt32 :=
  (List.range 4).foldl
    (fun value index =>
      value ||| (bytes.getD (offset + index) 0).toUInt32 <<< UInt32.ofNat (8 * index)) 0

/-- The 64-bit integer at `offset`. -/
def readU64 (bytes : List UInt8) (offset : ℕ) : UInt64 :=
  (List.range 8).foldl
    (fun value index =>
      value ||| (bytes.getD (offset + index) 0).toUInt64 <<< UInt64.ofNat (8 * index)) 0

def writeU32 (value : UInt32) : List UInt8 :=
  (List.range 4).map fun index => (value >>> UInt32.ofNat (8 * index)).toUInt8

def writeU64 (value : UInt64) : List UInt8 :=
  (List.range 8).map fun index => (value >>> UInt64.ofNat (8 * index)).toUInt8

/-- One bit of the checksum. -/
def crcBit (crc : UInt32) : UInt32 :=
  (crc >>> 1) ^^^ (0xedb88320 &&& (0 - (crc &&& 1)))

/-- One byte of the checksum. -/
def crcByte (crc : UInt32) (byte : UInt8) : UInt32 :=
  crcBit^[8] (crc ^^^ byte.toUInt32)

def crc32 (bytes : List UInt8) : UInt32 :=
  ~~~(bytes.foldl crcByte 0xffffffff)

end RlcdDeck.Bytes
