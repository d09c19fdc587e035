import RlcdDeck.Bytes.Hex
import RlcdDeck.WifiSetup.Config

/-!
# The Wi-Fi form of the setup page

The model of the form parser of `deck_setup_http.cpp`.
-/

namespace RlcdDeck.WifiSetup

open Bytes (hexValue)

/-- `deck_setup_wifi_request_result_t` other than `OK`. -/
inductive WifiRequestError where
  | malformed
  | invalidSsid
  | invalidPassword

/-- `decode_form_component`, behind `size` bytes of output. -/
def decodeFormComponent (capacity : ℕ) : ℕ → List UInt8 → Option (List UInt8)
  | _, [] => some []
  | size, byte :: rest =>
    if byte = 0x25 then
      match rest with
      | high :: low :: rest =>
        match hexValue high, hexValue low with
        | some high, some low =>
          let byte := UInt8.ofNat (16 * high + low)
          if byte < 0x20 ∨ byte = 0x7f ∨ capacity ≤ size + 1 then none
          else (decodeFormComponent capacity (size + 1) rest).map (byte :: ·)
        | _, _ => none
      | _ => none
    else
      let byte := if byte = 0x2b then 0x20 else byte
      if byte < 0x20 ∨ byte = 0x7f ∨ capacity ≤ size + 1 then none
      else (decodeFormComponent capacity (size + 1) rest).map (byte :: ·)

/-- The pieces that the loop visits: they are separated by ampersands, and the loop ends behind the
last byte, so that nothing follows an ampersand at the end. -/
def formPieces : List UInt8 → List (List UInt8)
  | [] => []
  | byte :: rest =>
    if byte = 0x26 then [] :: formPieces rest
    else
      match formPieces rest with
      | [] => [[byte]]
      | piece :: pieces => (byte :: piece) :: pieces

/-- The state of the loop. -/
structure WifiForm where
  credentials : Credentials
  sawSsid : Bool
  sawPassword : Bool

/-- `"ssid"`. -/
def ssidKey : List UInt8 := [0x73, 0x73, 0x69, 0x64]

/-- `"password"`. -/
def passwordKey : List UInt8 := [0x70, 0x61, 0x73, 0x73, 0x77, 0x6f, 0x72, 0x64]

/-- The size of `key`. -/
def keyCapacity : ℕ := 16

/-- The body of the loop. -/
def WifiForm.readPiece (form : WifiForm) (piece : List UInt8) : Option WifiForm :=
  let name := piece.takeWhile (· ≠ 0x3d)
  if name.length = piece.length then none
  else
    let value := piece.drop (name.length + 1)
    match decodeFormComponent keyCapacity 0 name with
    | none => none
    | some key =>
      if key = ssidKey then
        if form.sawSsid = true then none
        else
          (decodeFormComponent ssidCapacity 0 value).map fun ssid =>
            { form with credentials := { form.credentials with ssid := ssid }, sawSsid := true }
      else if key = passwordKey then
        if form.sawPassword = true then none
        else if value = [] then
          some
            { form with
              credentials := { form.credentials with password := [] }
              sawPassword := true }
        else
          (decodeFormComponent passwordCapacity 0 value).map fun password =>
            { form with
              credentials := { form.credentials with password := password }
              sawPassword := true }
      else none

/-- `kMaximumBodySize`. -/
def maximumBodySize : ℕ := 256

/-- `deck_setup_http_parse_wifi_request`, with the credentials of a request that is accepted. -/
def parseWifiRequest (body : List UInt8) : Except WifiRequestError Credentials :=
  if body.length = 0 ∨ maximumBodySize < body.length then .error .malformed
  else
    match (formPieces body).foldlM WifiForm.readPiece ⟨⟨[], []⟩, false, false⟩ with
    | none => .error .malformed
    | some form =>
      if form.sawSsid = false ∨ form.sawPassword = false then .error .malformed
      else
        let ssidSize := form.credentials.ssid.length
        let passwordSize := form.credentials.password.length
        if ssidSize = 0 ∨ ssidCapacity ≤ ssidSize then .error .invalidSsid
        else if passwordSize ≠ 0 ∧ passwordSize < 8 then .error .invalidPassword
        else .ok form.credentials

end RlcdDeck.WifiSetup
