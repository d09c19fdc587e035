import RlcdDeck.Bytes.LittleEndian
import Mathlib.Data.List.Basic

/-!
# The stored set of Companion profiles

The validation and the codec of `deck_companion_profiles.cpp`.  A character array is the list of
its bytes before the first zero, so an array without a zero has at least the length of its
capacity.  A certificate and its size are one list.
-/

namespace RlcdDeck.CompanionProfiles

open Bytes

/-- `DECK_COMPANION_PROFILE_VERSION`. -/
def profileVersion : UInt8 := 1

/-- `DECK_COMPANION_MAX_PROFILES`. -/
def maxProfiles : ℕ := 5

/-- `DECK_COMPANION_PROFILE_ID_CAPACITY` and `DECK_COMPANION_FINGERPRINT_CAPACITY`. -/
def fingerprintCapacity : ℕ := 72

/-- `DECK_COMPANION_DISPLAY_NAME_CAPACITY` and `DECK_COMPANION_HUB_ADDRESS_CAPACITY`. -/
def addressCapacity : ℕ := 96

/-- `DECK_COMPANION_TOKEN_CAPACITY`. -/
def tokenCapacity : ℕ := 44

/-- `DECK_COMPANION_CERTIFICATE_DER_CAPACITY`. -/
def certificateDerCapacity : ℕ := 1024

/-- `kNoActiveProfile`. -/
def noActiveProfile : UInt8 := 0xff

abbrev CString := List UInt8

structure StoredProfile where
  profileVersion : UInt8 := 0
  profileId : CString := []
  displayName : CString := []
  hubAddress : CString := []
  token : CString := []
  certificateFingerprint : CString := []
  certificateDer : List UInt8 := []
  priority : Int32 := 0
  lastSuccessUnixMs : UInt64 := 0
  deriving DecidableEq

/-- `StoredSet`; `count` is the length of `profiles`. -/
structure StoredSet where
  profiles : List StoredProfile
  activeIndex : UInt8
  deriving DecidableEq

/-- The byte of an ASCII character. -/
def ascii (c : Char) : UInt8 := UInt8.ofNat c.toNat

/-! ### Validation -/

def terminated (value : CString) (capacity : ℕ) : Bool := value.length < capacity

def safeAscii (value : CString) (capacity : ℕ) (allowEmpty : Bool) : Bool :=
  terminated value capacity && (allowEmpty || value.length != 0) &&
    value.all fun byte => 0x21 ≤ byte && byte ≤ 0x7e

def isDigit (byte : UInt8) : Bool := ascii '0' ≤ byte && byte ≤ ascii '9'

def isUpper (byte : UInt8) : Bool := ascii 'A' ≤ byte && byte ≤ ascii 'Z'

def isLower (byte : UInt8) : Bool := ascii 'a' ≤ byte && byte ≤ ascii 'z'

def validBase64url (value : CString) (expectedSize : ℕ) : Bool :=
  value.length == expectedSize && value.all fun byte =>
    isUpper byte || isLower byte || isDigit byte || byte == ascii '_' || byte == ascii '-'

/-- `sha256:`. -/
def fingerprintPrefix : List UInt8 := "sha256:".toList.map ascii

def validFingerprint (value : CString) : Bool :=
  value.length == 71 && value.take 7 == fingerprintPrefix && (value.drop 7).all fun byte =>
    isDigit byte || (ascii 'a' ≤ byte && byte ≤ ascii 'f')

def validHostCharacter (byte : UInt8) (ipv6 : Bool) : Bool :=
  isLower byte || isUpper byte || isDigit byte || byte == ascii '.' || byte == ascii '-' ||
    (ipv6 && (byte == ascii ':' || byte == ascii '%' || byte == ascii '_'))

/-- The bounds of the host and the beginning of the port. -/
structure AddressLayout where
  hostBegin : ℕ
  hostEnd : ℕ
  portBegin : ℕ
  ipv6 : Bool

/-- Where `valid_address` finds the host and the port. -/
def addressLayout (address : CString) : Option AddressLayout :=
  if address.head? = some (ascii '[') then
    match address.findIdx? (· == ascii ']') with
    | none => none
    | some closing =>
      if closing = 1 ∨ address.getD (closing + 1) 0 ≠ ascii ':' then none
      else some ⟨1, closing, closing + 2, true⟩
  else
    match address.findIdx? (· == ascii ':') with
    | none => none
    | some colon =>
      -- `strchr` and `strrchr` find the same colon
      if colon = 0 ∨ ascii ':' ∈ address.drop (colon + 1) then none
      else some ⟨0, colon, colon + 1, false⟩

/-- The value of the port's digits, while it is at most 65535. -/
def parsePort (digits : List UInt8) : Option ℕ :=
  digits.foldl
    (fun port byte =>
      match port with
      | none => none
      | some port =>
        if isDigit byte = false then none
        else
          let port := port * 10 + (byte.toNat - (ascii '0').toNat)
          if 65535 < port then none else some port)
    (some 0)

/-- `address_port`: the port of a valid address. -/
def addressPort (address : CString) : Option ℕ :=
  if safeAscii address addressCapacity false = false then none
  else
    match addressLayout address with
    | none => none
    | some layout =>
      let host := (address.take layout.hostEnd).drop layout.hostBegin
      if address.length ≤ layout.portBegin then none
      else if host.all (validHostCharacter · layout.ipv6) = false then none
      else
        match parsePort (address.drop layout.portBegin) with
        | none => none
        | some port => if port = 0 then none else some port

def validAddress (address : CString) : Bool := (addressPort address).isSome

/-- `valid_profile`. -/
def StoredProfile.valid (profile : StoredProfile) : Bool :=
  profile.profileVersion == CompanionProfiles.profileVersion &&
    validFingerprint profile.profileId &&
    safeAscii profile.displayName addressCapacity false &&
    validAddress profile.hubAddress &&
    terminated profile.token tokenCapacity &&
    validBase64url profile.token 43 &&
    validFingerprint profile.certificateFingerprint &&
    profile.certificateDer.length != 0 &&
    decide (profile.certificateDer.length ≤ certificateDerCapacity) &&
    profile.profileId == profile.certificateFingerprint

/-- `valid_set`. -/
def StoredSet.valid (set : StoredSet) : Bool :=
  decide (set.profiles.length ≤ maxProfiles) &&
    (if set.profiles.length = 0 then set.activeIndex == noActiveProfile
      else decide (set.activeIndex.toNat < set.profiles.length)) &&
    set.profiles.all StoredProfile.valid &&
    decide (set.profiles.map StoredProfile.profileId).Nodup

/-! ### The codec -/

/-- `append_string`, behind what is written already. -/
def appendString (output : List UInt8) (capacity : ℕ) (value : CString) (valueCapacity : ℕ) :
    Option (List UInt8) :=
  if terminated value valueCapacity = false ∨ 255 < value.length ∨
      capacity < output.length + 1 + value.length then none
  else some (output ++ UInt8.ofNat value.length :: value)

/-- `append_bytes`. -/
def appendBytes (output : List UInt8) (capacity : ℕ) (value : List UInt8) :
    Option (List UInt8) :=
  if value.length = 0 ∨ 65535 < value.length ∨ capacity < output.length + 2 + value.length then
    none
  else
    some (output ++
      [UInt8.ofNat value.length, UInt8.ofNat (value.length / 256)] ++ value)

/-- One profile of `encode_set`. -/
def appendProfile (capacity : ℕ) (output : List UInt8) (profile : StoredProfile) :
    Option (List UInt8) := do
  if capacity < output.length + 13 then none
  let output := output ++ profile.profileVersion :: writeU32 profile.priority.toUInt32 ++
    writeU64 profile.lastSuccessUnixMs
  let output ← appendString output capacity profile.profileId fingerprintCapacity
  let output ← appendString output capacity profile.displayName addressCapacity
  let output ← appendString output capacity profile.hubAddress addressCapacity
  let output ← appendString output capacity profile.token tokenCapacity
  let output ← appendString output capacity profile.certificateFingerprint fingerprintCapacity
  appendBytes output capacity profile.certificateDer

/-- `encode_set`; `none` is the size zero. -/
def encodeSet (set : StoredSet) (capacity : ℕ) : Option (List UInt8) :=
  if capacity < 2 ∨ set.valid = false then none
  else
    set.profiles.foldlM (appendProfile capacity)
      [UInt8.ofNat set.profiles.length, set.activeIndex]

/-- `read_string`: the value and what is left of the input. -/
def readString (input : List UInt8) (capacity : ℕ) : Option (CString × List UInt8) :=
  match input with
  | [] => none
  | size :: input =>
    if capacity ≤ size.toNat ∨ input.length < size.toNat then none
    else some ((input.take size.toNat).takeWhile (· != 0), input.drop size.toNat)

/-- `read_bytes`. -/
def readBytes (input : List UInt8) (capacity : ℕ) : Option (List UInt8 × List UInt8) :=
  match input with
  | low :: high :: input =>
    let size := low.toNat + high.toNat * 256
    if size = 0 ∨ capacity < size ∨ input.length < size then none
    else some (input.take size, input.drop size)
  | _ => none

/-- One profile of `decode_set`. -/
def readProfile (input : List UInt8) : Option (StoredProfile × List UInt8) := do
  if input.length < 13 then none
  let version := input.getD 0 0
  let priority := (readU32 input 1).toInt32
  let lastSuccessUnixMs := readU64 input 5
  let (profileId, input) ← readString (input.drop 13) fingerprintCapacity
  let (displayName, input) ← readString input addressCapacity
  let (hubAddress, input) ← readString input addressCapacity
  let (token, input) ← readString input tokenCapacity
  let (certificateFingerprint, input) ← readString input fingerprintCapacity
  let (certificateDer, input) ← readBytes input certificateDerCapacity
  let profile : StoredProfile :=
    { profileVersion := version
      profileId := profileId
      displayName := displayName
      hubAddress := hubAddress
      token := token
      certificateFingerprint := certificateFingerprint
      certificateDer := certificateDer
      priority := priority
      lastSuccessUnixMs := lastSuccessUnixMs }
  return (profile, input)

/-- `count` profiles and what is left of the input. -/
def readProfiles : ℕ → List UInt8 → Option (List StoredProfile × List UInt8)
  | 0, input => some ([], input)
  | count + 1, input => do
    let (profile, input) ← readProfile input
    let (profiles, input) ← readProfiles count input
    return (profile :: profiles, input)

/-- `decode_set`. -/
def decodeSet (input : List UInt8) : Option StoredSet :=
  match input with
  | count :: activeIndex :: input =>
    if maxProfiles < count.toNat then none
    else
      match readProfiles count.toNat input with
      | none => none
      | some (profiles, rest) =>
        let set : StoredSet := ⟨profiles, activeIndex⟩
        if rest = [] ∧ set.valid = true then some set else none
  | _ => none

end RlcdDeck.CompanionProfiles
