import RlcdDeck.AiSnapshot.Decode

/-!
# JSON paths

`compilePath` and the limits on the values that paths are followed in.
-/

namespace RlcdDeck.StructuredProvider

open Json (Bytes bytes Tree isDigit quote backslash openBracket closeBracket)
open AiSnapshot.Companion (isLower isUpper parseUint unmarshal)

inductive PathStep where
  | key (name : Bytes)
  | index (value : ℕ)

/-- `pathIdentifierByte`. -/
def pathIdentifierByte (c : UInt8) : Bool :=
  isLower c || isUpper c || isDigit c || c == 0x5f || c == 0x2d

/-- What stands between brackets, and what follows them. -/
def bracketStep (source : Bytes) : Option (PathStep × Bytes) :=
  match source with
  | [] => none
  | q :: body =>
    if q = 0x27 ∨ q = quote then
      let key := body.takeWhile (· != q)
      match body.dropWhile (· != q) with
      | _ :: c :: rest =>
        if key.any (fun c => c == backslash || c.toNat < 0x20) || key.isEmpty ||
          64 < key.length || c != closeBracket then none
        else some (.key key, rest)
      | _ => none
    else
      match source.dropWhile isDigit with
      | [] => none
      | c :: rest =>
        if c = closeBracket then
          (parseUint (source.takeWhile isDigit)).bind fun value =>
            if value ≤ 1023 then some (.index value, rest) else none
        else none

/-- The loop of `compilePath`. -/
def compileSteps : (fuel : ℕ) → (steps : List PathStep) → Bytes → Option (List PathStep)
  | _, steps, [] => some steps
  | 0, _, _ :: _ => none
  | fuel + 1, steps, c :: rest =>
    if 16 ≤ steps.length then none
    else if c = 0x2e then
      let key := rest.takeWhile pathIdentifierByte
      if key.isEmpty || 64 < key.length then none
      else compileSteps fuel (steps ++ [.key key]) (rest.dropWhile pathIdentifierByte)
    else if c = openBracket then
      match bracketStep rest with
      | none => none
      | some (step, rest) => compileSteps fuel (steps ++ [step]) rest
    else none

/-- `compilePath`; the path of an empty source is nil. -/
def compilePath (source : Bytes) : Option (Option (List PathStep)) :=
  match source with
  | [] => some none
  | c :: rest =>
    if 256 < source.length || c != 0x24 || !Utf8.valid source then none
    else
      (compileSteps rest.length [] rest).bind fun steps =>
        if steps.isEmpty then none else some (some steps)

/-! ### Generic values -/

mutual

/-- No value stands more than `depth` levels inside. -/
def withinDepth : (depth : ℕ) → Tree → Bool
  | 0, .array items => items.isEmpty
  | 0, .object members => members.isEmpty
  | depth + 1, .array items => itemsWithinDepth depth items
  | depth + 1, .object members => membersWithinDepth depth members
  | _, _ => true

def itemsWithinDepth : (depth : ℕ) → List Tree → Bool
  | _, [] => true
  | depth, t :: items => withinDepth depth t && itemsWithinDepth depth items

def membersWithinDepth : (depth : ℕ) → List (Bytes × Tree) → Bool
  | _, [] => true
  | depth, (_, t) :: members => withinDepth depth t && membersWithinDepth depth members

end

/-- `boundedJSONValue`. -/
def boundedJsonValue (value : Tree) : Bool :=
  value.nodes.length ≤ 8192 && withinDepth 64 value

/-- `decodeGenericJSON` of a text that is one value. -/
def decodeGenericJson (document : Bytes) : Option Tree :=
  (unmarshal document).filter boundedJsonValue

end RlcdDeck.StructuredProvider
