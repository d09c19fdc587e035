import RlcdDeck.Diagnostics.Event
import RlcdDeck.ProtectedFile.Replace

/-!
# Segments

The names of the segments, which tell when a segment was created, and `segmentsLocked`: every entry of
the directory has to be a segment.
-/

namespace RlcdDeck.Diagnostics

open Json (Bytes bytes isDigit)
open ProtectedFile (Directory Name)

/-- `maximumSegmentEntries`. -/
def maximumSegmentEntries : ℕ := 4096

/-- `maximumSegmentAge`. -/
def maximumSegmentAge : ℕ := 3600 * 1000000000

/-- The bounds of `Config`, as `Open` accepts them. -/
structure Config where
  retention : ℕ
  maximumBytes : ℕ
  maximumSegmentBytes : ℕ
  queueCapacity : ℕ
  retention_pos : 0 < retention
  maximumBytes_ge : 512 ≤ maximumBytes
  maximumSegmentBytes_ge : 128 ≤ maximumSegmentBytes
  maximumSegmentBytes_le : maximumSegmentBytes ≤ maximumBytes
  queueCapacity_pos : 1 ≤ queueCapacity

/-! ### Names -/

def segmentPrefix : Bytes := bytes "segment-"

def segmentSuffix : Bytes := bytes ".jsonl"

/-- A number in decimal, with zeros up to a width. -/
def padded (width n : ℕ) : Bytes := Json.paddedText width n

/-- `%019d`. -/
def createdText (createdNs : ℤ) : Bytes :=
  if createdNs < 0 then 0x2d :: padded 18 createdNs.natAbs else padded 19 createdNs.natAbs

/-- The name of a segment. -/
def segmentName (createdNs : ℤ) (sequence : UInt64) : Name :=
  segmentPrefix ++ createdText createdNs ++ [0x2d] ++ padded 8 sequence.toNat ++ segmentSuffix

/-- The digits that `strconv` takes. -/
def parseDigits (text : Bytes) : Option ℕ :=
  if text.isEmpty || !text.all isDigit then none
  else some (text.foldl (fun value c => value * 10 + (c.toNat - 0x30)) 0)

/-- `strconv.ParseInt` of a text without a minus. -/
def parseInt (text : Bytes) : Option ℤ :=
  let digits := if text.head? = some 0x2b then text.drop 1 else text
  ((parseDigits digits).filter fun n => n < 2 ^ 63).map fun n => (n : ℤ)

/-- When the segment of a name was created. -/
def parseSegmentName (name : Name) : Option ℤ :=
  if !segmentPrefix.isPrefixOf name || !segmentSuffix.isSuffixOf name then none
  else
    let middle := (name.drop segmentPrefix.length).take
      (name.length - segmentPrefix.length - segmentSuffix.length)
    match middle.splitOn 0x2d with
    | [created, sequence] =>
      if created.length = 19 ∧ sequence.length = 8 ∧ (parseDigits sequence).isSome then
        parseInt created
      else none
    | _ => none

/-! ### The directory -/

structure SegmentMeta where
  name : Name
  createdNs : ℤ
  size : ℕ

/-- An entry of the directory as a segment. -/
def segmentMeta (config : Config) (entry : Sigma fun _ : Name => List UInt8) : Option SegmentMeta :=
  (parseSegmentName entry.1).bind fun createdNs =>
    if entry.2.length ≤ config.maximumSegmentBytes then some ⟨entry.1, createdNs, entry.2.length⟩
    else none

/-- `segmentsLocked`. -/
def segmentsLocked (config : Config) (files : Directory) : Option (List SegmentMeta) :=
  if maximumSegmentEntries < files.entries.length then none
  else
    (files.entries.mapM (segmentMeta config)).map fun segments =>
      segments.mergeSort fun a b => !decide (b.name < a.name)

end RlcdDeck.Diagnostics
