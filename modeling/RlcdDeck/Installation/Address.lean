import RlcdDeck.Bytes.Hex

/-!
# Listen addresses

`validDeviceHubListenAddress` of `installation/manager.go`, with what it uses of the package `net`:
`SplitHostPort`, and `ParseIP` followed by `To4`.  A port is read as by `ParseUint` with base 10 and
16 bits.
-/

namespace RlcdDeck.Installation

open Bytes (hexValue)

/-- A string, by its bytes. -/
abbrev Text := List UInt8

/-- The bytes of a string of ASCII characters. -/
def ascii (text : String) : Text := text.toList.map fun c => UInt8.ofNat c.toNat

def isDigit (byte : UInt8) : Bool := decide (48 ≤ byte ∧ byte ≤ 57)

/-- The value of decimal digits. -/
def decimal (digits : Text) : ℕ :=
  digits.foldl (fun value digit => 10 * value + (digit.toNat - 48)) 0

/-! ### Hosts and ports -/

/-- The text before the last colon and the text after it. -/
def splitLastColon (text : Text) : Option (Text × Text) :=
  let port := text.reverse.takeWhile (· ≠ 58)
  match text.reverse.dropWhile (· ≠ 58) with
  | [] => none
  | _ :: host => some (host.reverse, port.reverse)

/-- `net.SplitHostPort`. -/
def splitHostPort (text : Text) : Option (Text × Text) :=
  (splitLastColon text).bind fun (before, port) =>
    match before with
    | 91 :: bracketed =>
      -- The first `]` has to be the byte before the last colon.
      if bracketed.idxOf 93 + 1 = bracketed.length ∧ 91 ∉ bracketed ∧ 91 ∉ port ∧ 93 ∉ port then
        some (bracketed.dropLast, port)
      else none
    | host =>
      if 58 ∉ host ∧ 91 ∉ host ∧ 93 ∉ host ∧ 91 ∉ port ∧ 93 ∉ port then some (host, port)
      else none

/-- `strconv.ParseUint` with base 10 and 16 bits. -/
def parsePort (text : Text) : Option ℕ :=
  if text ≠ [] ∧ text.all isDigit ∧ decimal text < 65536 then some (decimal text) else none

/-! ### Addresses -/

/-- One field of an IPv4 address. -/
def parseField (digits : Text) : Option UInt8 :=
  if digits ≠ [] ∧ digits.all isDigit ∧ (digits.head? = some 48 → digits.length = 1) ∧
      decimal digits < 256 then
    some (UInt8.ofNat (decimal digits))
  else none

/-- The four fields of an IPv4 address. -/
def parseIpv4 (text : Text) : Option (List UInt8) :=
  let fields := text.splitOn 46
  if fields.length = 4 then fields.mapM parseField else none

/-- The groups of an IPv6 address from `text` on: the bytes that were read are in `bytes`, and the
place of the ellipsis in `ellipsis`. -/
def parseGroups : ℕ → List UInt8 → Option ℕ → Text → Option (List UInt8 × Option ℕ)
  | 0, bytes, ellipsis, text => if text = [] then some (bytes, ellipsis) else none
  | fuel + 1, bytes, ellipsis, text =>
    let digits := text.takeWhile fun byte => (hexValue byte).isSome
    let rest := text.drop digits.length
    let value := digits.foldl (fun value digit => 16 * value + (hexValue digit).getD 0) 0
    if digits = [] ∨ 4 < digits.length then none
    else if rest.head? = some 46 then
      if (ellipsis = none ∧ bytes.length ≠ 12) ∨ 16 < bytes.length + 4 then none
      else (parseIpv4 text).map fun fields => (bytes ++ fields, ellipsis)
    else
      let bytes := bytes ++ [UInt8.ofNat (value / 256), UInt8.ofNat (value % 256)]
      match rest with
      | [] => some (bytes, ellipsis)
      | [_] => none
      | 58 :: 58 :: rest =>
        if ellipsis.isSome then none
        else if rest = [] then some (bytes, some bytes.length)
        else parseGroups fuel bytes (some bytes.length) rest
      | 58 :: rest => parseGroups fuel bytes ellipsis rest
      | _ => none

/-- The sixteen bytes of an IPv6 address without a zone. -/
def parseIpv6 (text : Text) : Option (List UInt8) :=
  let groups :=
    match text with
    | [58, 58] => some ([], some 0)
    | 58 :: 58 :: rest => parseGroups 8 [] (some 0) rest
    | _ => parseGroups 8 [] none text
  groups.bind fun (bytes, ellipsis) =>
    match ellipsis with
    | none => if bytes.length = 16 then some bytes else none
    | some place =>
      if bytes.length < 16 then
        some (bytes.take place ++ List.replicate (16 - bytes.length) 0 ++ bytes.drop place)
      else none

/-- `net.ParseIP` and `To4`: the four bytes of an IPv4 address, or of an IPv6 address that stands
for one. -/
def parseIp4 (text : Text) : Option (List UInt8) :=
  match text.find? fun byte => byte = 46 ∨ byte = 58 ∨ byte = 37 with
  | some 46 => parseIpv4 text
  | some 58 =>
    if 37 ∈ text then none
    else
      (parseIpv6 text).bind fun bytes =>
        if bytes.take 12 = List.replicate 10 0 ++ [255, 255] then some (bytes.drop 12) else none
  | _ => none

def validDeviceHubListenAddress (value : Text) : Bool :=
  match splitHostPort value with
  | none => false
  | some (host, portText) =>
    match parsePort portText, parseIp4 host with
    | some port, some (first :: rest) =>
      if port = 0 ∨ first &&& 240 = 224 then false
      else if first :: rest = [255, 255, 255, 255] ∨ 224 ≤ first ∨
          (first = 0 ∧ first :: rest ≠ [0, 0, 0, 0]) then false
      else true
    | _, _ => false

end RlcdDeck.Installation
