import RlcdDeck.AiSnapshot.Decode
import RlcdDeck.Utf8.Range

/-!
# Companion settings

`configmodel`: the settings that cross the backup boundary, and the checks that the configuration
store, the backup and the Device Link share.  A slice that may be nil is an `Option`.
-/

namespace RlcdDeck.ConfigModel

open Json (Bytes bytes isDigit)
open AiSnapshot.Companion (isLower isUpper canonicalUtc parseUint)

/-- The sixteen bytes of a `net.IP`. -/
abbrev Ip := List UInt8

/-- What is read of a `url.URL`; `user` says whether there is one. -/
structure Url where
  scheme : Bytes
  host : Bytes
  hostname : Bytes
  user : Bool
  path : Bytes
  rawQuery : Bytes
  fragment : Bytes

/-- `net.SplitHostPort`, `net.ParseIP` and `url.Parse`. -/
structure Network where
  splitHostPort : Bytes → Option (Bytes × Bytes)
  parseIp : Bytes → Option Ip
  parseUrl : Bytes → Option Url

/-- `strconv.Atoi`. -/
def atoi (s : Bytes) : Option ℤ :=
  let value : Option ℤ :=
    match s with
    | 0x2d :: digits => (parseUint digits).map fun n => -(n : ℤ)
    | 0x2b :: digits => (parseUint digits).map fun n => (n : ℤ)
    | digits => (parseUint digits).map fun n => (n : ℤ)
  value.filter fun n => decide (-(2 ^ 63) ≤ n ∧ n < 2 ^ 63)

namespace Ip

/-- `To4`. -/
def to4 (ip : Ip) : Option Ip :=
  if ip.take 12 == List.replicate 10 0 ++ [0xff, 0xff] then some (ip.drop 12) else none

def isLoopback (ip : Ip) : Bool :=
  match ip.to4 with
  | some ip4 => ip4.getD 0 0 == 127
  | none => ip == List.replicate 15 0 ++ [1]

def isUnspecified (ip : Ip) : Bool :=
  match ip.to4 with
  | some ip4 => ip4 == [0, 0, 0, 0]
  | none => ip == List.replicate 16 0

def isMulticast (ip : Ip) : Bool :=
  match ip.to4 with
  | some ip4 => ip4.getD 0 0 &&& 0xf0 == 0xe0
  | none => ip.getD 0 0 == 0xff

def isInterfaceLocalMulticast (ip : Ip) : Bool :=
  ip.getD 0 0 == 0xff && ip.getD 1 0 &&& 0x0f == 0x01

def isLinkLocalMulticast (ip : Ip) : Bool :=
  match ip.to4 with
  | some ip4 => ip4.getD 0 0 == 224 && ip4.getD 1 0 == 0 && ip4.getD 2 0 == 0
  | none => ip.getD 0 0 == 0xff && ip.getD 1 0 &&& 0x0f == 0x02

def isLinkLocalUnicast (ip : Ip) : Bool :=
  match ip.to4 with
  | some ip4 => ip4.getD 0 0 == 169 && ip4.getD 1 0 == 254
  | none => ip.getD 0 0 == 0xfe && ip.getD 1 0 &&& 0xc0 == 0x80

def isPrivate (ip : Ip) : Bool :=
  match ip.to4 with
  | some ip4 =>
    ip4.getD 0 0 == 10 || (ip4.getD 0 0 == 172 && ip4.getD 1 0 &&& 0xf0 == 16) ||
      (ip4.getD 0 0 == 192 && ip4.getD 1 0 == 168)
  | none => ip.getD 0 0 &&& 0xfe == 0xfc

/-- `allowedTargetIP`. -/
def allowedTarget (ip : Ip) (scheme : Bytes) : Bool :=
  if ip.isUnspecified || ip.isLoopback || ip.isMulticast || ip.isInterfaceLocalMulticast ||
    ip.isLinkLocalMulticast || ip.isLinkLocalUnicast then false
  else if scheme == bytes "http" then ip.isPrivate
  else scheme == bytes "https"

end Ip

def maximumDeviceProfiles : ℕ := 32
def maximumSerialPresets : ℕ := 32
def maximumCapabilities : ℕ := 8
def defaultManagementAddress : Bytes := bytes "127.0.0.1:7777"

structure WebSettings where
  managementAddress : Bytes
  allowLan : Bool
  allowedOrigin : Bytes
  deriving DecidableEq

structure SerialPreset where
  id : Bytes
  name : Bytes
  mode : Bytes
  payload : Bytes
  lineEnding : Bytes
  deriving DecidableEq

structure ApplicationSettings where
  historyEnabled : Bool
  serialPresets : Option (List SerialPreset)
  deriving DecidableEq

structure DeviceProfile where
  deviceId : Bytes
  firmwareVersion : Bytes
  board : Bytes
  capabilities : List Bytes
  lastSeenUtc : Bytes
  deriving DecidableEq

/-! ### Patterns -/

/-- One character and then between `minimum` and `maximum` others. -/
def pattern (first others : UInt8 → Bool) (minimum maximum : ℕ) : Bytes → Bool
  | [] => false
  | c :: tail => first c && tail.all others && minimum ≤ tail.length && tail.length ≤ maximum

def isWord (c : UInt8) : Bool := isLower c || isDigit c || c == 0x5f || c == 0x2d

def deviceIdPattern : Bytes → Bool := pattern (fun c => isLower c || isDigit c) isWord 7 63

def firmwarePattern : Bytes → Bool :=
  pattern (fun c => isDigit c || isUpper c || isLower c)
    (fun c => isWord c || isUpper c || c == 0x2e || c == 0x2b) 0 31

def boardPattern : Bytes → Bool :=
  pattern (fun c => isLower c || isDigit c) (fun c => isWord c || c == 0x2e) 0 47

def capabilityPattern : Bytes → Bool := pattern isLower isWord 0 31

def serialPresetId : Bytes → Bool := pattern (fun c => isLower c || isDigit c) isWord 0 31

/-! ### Serial presets -/

/-- `serialLineEndingBytes`. -/
def serialLineEndingBytes (ending : Bytes) : Option ℕ :=
  if ending = bytes "current" ∨ ending = bytes "crlf" then some 2
  else if ending = bytes "lf" ∨ ending = bytes "cr" then some 1
  else if ending = bytes "none" then some 0
  else none

/-- `validPresetName`. -/
def validPresetName (name : Bytes) : Bool :=
  Utf8.valid name && !(Utf8.trimSpace name).isEmpty && name.length ≤ 192 &&
    (Utf8.runes name).length ≤ 48 && (Utf8.runes name).all fun c => !c.any Utf8.isControl

/-- The checks of one preset, its identifier apart. -/
def validSerialPreset (preset : SerialPreset) : Bool :=
  serialPresetId preset.id && validPresetName preset.name &&
    match serialLineEndingBytes preset.lineEnding with
    | none => false
    | some ending =>
      if preset.mode = bytes "text" then
        Utf8.valid preset.payload && !preset.payload.isEmpty &&
          preset.payload.length + ending ≤ 256
      else if preset.mode = bytes "hex" then
        preset.lineEnding == bytes "none" && !preset.payload.isEmpty &&
          preset.payload.length ≤ 256
      else false

/-- The loop of `ValidateSerialPresets`, after `identifiers`. -/
def serialPresetsLoop : (identifiers : List Bytes) → List SerialPreset → Bool
  | _, [] => true
  | identifiers, preset :: presets =>
    validSerialPreset preset && !identifiers.contains preset.id &&
      serialPresetsLoop (preset.id :: identifiers) presets

/-- `ValidateSerialPresets`. -/
def validateSerialPresets (presets : Option (List SerialPreset)) : Bool :=
  (presets.getD []).length ≤ maximumSerialPresets && serialPresetsLoop [] (presets.getD [])

/-! ### Web settings and device profiles -/

/-- `ValidateWebSettings`. -/
def validateWebSettings (network : Network) (settings : WebSettings) : Bool :=
  match network.splitHostPort settings.managementAddress with
  | none => false
  | some (host, portText) =>
    let localhost := host == bytes "localhost"
    let listener := network.parseIp (if localhost then bytes "127.0.0.1" else host)
    if !(atoi portText).any (fun port => decide (1 ≤ port ∧ port ≤ 65535)) ||
        (!localhost && (network.parseIp host).isNone) then false
    else if !listener.any Ip.isLoopback && !settings.allowLan then false
    else if settings.allowedOrigin.isEmpty then !settings.allowLan
    else if !Utf8.valid settings.allowedOrigin || 2048 < settings.allowedOrigin.length then false
    else
      (network.parseUrl settings.allowedOrigin).any fun origin =>
        (origin.scheme == bytes "http" || origin.scheme == bytes "https") &&
          !origin.host.isEmpty && !origin.user && origin.path.isEmpty && origin.rawQuery.isEmpty &&
          origin.fragment.isEmpty

/-- Sorted, and no entry twice. -/
def strictlySorted : List Bytes → Bool
  | a :: b :: rest => decide (a < b) && strictlySorted (b :: rest)
  | _ => true

/-- `ValidateDeviceProfile`. -/
def validateDeviceProfile (profile : DeviceProfile) : Bool :=
  deviceIdPattern profile.deviceId && firmwarePattern profile.firmwareVersion &&
    boardPattern profile.board && !profile.capabilities.isEmpty &&
    profile.capabilities.length ≤ maximumCapabilities &&
    (canonicalUtc profile.lastSeenUtc).isSome && strictlySorted profile.capabilities &&
    profile.capabilities.all capabilityPattern

end RlcdDeck.ConfigModel
