import Mathlib.Data.List.AList
import RlcdDeck.Effects.Program

/-!
# Atomic replacement of a file

The model of `replace` in `protectedfile.go`, with the `createPrivateTemp` and `replaceFile` of
Unix, over the files of one directory: the new contents go to a temporary file, which is then
renamed.  Every call of the file system may fail; a write that fails may leave any contents.

The result is a pair: whether the new file has become visible, and whether there was an error.
Owners and modes are left out: a file is created for its owner alone, and what checks that is a call
that may fail.
-/

namespace RlcdDeck.ProtectedFile

open Effects

/-- The name of a file, by its bytes. -/
abbrev Name := List UInt8

/-- The files of a directory, with their contents. -/
abbrev Directory := AList fun _ : Name => List UInt8

/-- The calls of the file system. -/
inductive Call where
  /-- `EnsurePrivateDirectory`. -/
  | ensureDirectory
  /-- `createPrivateTemp`. -/
  | createTemp
  /-- `EnsurePrivateFile`. -/
  | ensureFile (name : Name)
  | write (name : Name) (contents : List UInt8)
  | sync (name : Name)
  | close (name : Name)
  | rename (source target : Name)
  /-- The directory opened, synced and closed. -/
  | syncDirectory
  | remove (name : Name)
  deriving DecidableEq

/-- What a call answers: a created file its name, every other call whether it succeeded. -/
abbrev Call.Answer : Call → Type
  | .createTemp => Option Name
  | _ => Bool

/-- The names of temporary files: `.protected-*.tmp`. -/
def isTemporary (name : Name) : Bool :=
  (".protected-".toList.map fun c => UInt8.ofNat c.toNat).isPrefixOf name &&
    (".tmp".toList.map fun c => UInt8.ofNat c.toNat).isSuffixOf name

/-- What a call can answer and do. -/
inductive Step : Directory → (call : Call) → call.Answer → Directory → Prop where
  | ensureDirectory {d : Directory} (ok : Bool) : Step d .ensureDirectory ok d
  | notCreated {d : Directory} : Step d .createTemp none d
  | created {d : Directory} {name : Name} : isTemporary name = true → name ∉ d →
      Step d .createTemp (some name) (d.insert name [])
  | ensureFile {d : Directory} {name : Name} (ok : Bool) : Step d (.ensureFile name) ok d
  | written {d : Directory} {name : Name} {contents : List UInt8} :
      Step d (.write name contents) true (d.insert name contents)
  | notWritten {d : Directory} {name : Name} {contents : List UInt8} (left : List UInt8) :
      Step d (.write name contents) false (d.insert name left)
  | sync {d : Directory} {name : Name} (ok : Bool) : Step d (.sync name) ok d
  | close {d : Directory} {name : Name} (ok : Bool) : Step d (.close name) ok d
  | renamed {d : Directory} {source target : Name} {contents : List UInt8} :
      d.lookup source = some contents →
      Step d (.rename source target) true ((d.erase source).insert target contents)
  | notRenamed {d : Directory} {source target : Name} : Step d (.rename source target) false d
  | syncDirectory {d : Directory} (ok : Bool) : Step d .syncDirectory ok d
  | removed {d : Directory} {name : Name} : Step d (.remove name) true (d.erase name)
  | notRemoved {d : Directory} {name : Name} : Step d (.remove name) false d

/-- A program over the file system. -/
abbrev Prog := Program Call Call.Answer

def perform (call : Call) : Prog call.Answer := Program.perform call

/-- What `replace` returns. -/
structure Replaced where
  committed : Bool
  failed : Bool

/-- Goes on only if what came before succeeded. -/
def following (ok : Bool) (next : Prog Bool) : Prog Bool := if ok then next else pure false

/-- The contents are written to the temporary file, which is closed in any case. -/
def writeTemporary (temporary : Name) (contents : List UInt8) : Prog Bool := do
  let ensured ← perform (.ensureFile temporary)
  let written ← following ensured (perform (.write temporary contents))
  let synced ← following written (perform (.sync temporary))
  let closed ← perform (.close temporary)
  pure (synced && closed)

/-- The temporary file is removed on the way out; whether that succeeds is not looked at. -/
def giveUp (temporary : Name) (result : Replaced) : Prog Replaced := do
  let _ ← perform (.remove temporary)
  pure result

/-- `replaceFile` and what follows it. -/
def commit (temporary path : Name) : Prog Replaced := do
  let renamed ← perform (.rename temporary path)
  if !renamed then giveUp temporary ⟨false, true⟩
  else do
    let synced ← perform .syncDirectory
    if !synced then giveUp temporary ⟨true, true⟩
    else do
      let ensured ← perform (.ensureFile path)
      pure ⟨true, !ensured⟩

/-- `replace`. -/
def replace (path : Name) (contents : List UInt8) : Prog Replaced := do
  let ensured ← perform .ensureDirectory
  if !ensured then pure ⟨false, true⟩
  else do
    let created ← perform .createTemp
    match created with
    | none => pure ⟨false, true⟩
    | some temporary => do
      let written ← writeTemporary temporary contents
      if !written then giveUp temporary ⟨false, true⟩
      else commit temporary path

/-! ### Replacements that fail at given calls -/

/-- Which calls fail, the name that `createTemp` has drawn, and what a failed write leaves.  `replace`
makes no call twice, so that every execution of it is one of these. -/
structure Faults where
  fails : Call → Bool
  temporary : Name
  left : List UInt8

/-- The name can be created. -/
def Faults.creates (faults : Faults) (d : Directory) : Bool :=
  !faults.fails .createTemp && isTemporary faults.temporary && !decide (faults.temporary ∈ d)

/-- What a call answers and does. -/
def Faults.answer (faults : Faults) (d : Directory) : (call : Call) → call.Answer × Directory
  | .createTemp =>
    if faults.creates d then (some faults.temporary, d.insert faults.temporary []) else (none, d)
  | .write name contents =>
    if faults.fails (.write name contents) then (false, d.insert name faults.left)
    else (true, d.insert name contents)
  | .rename source target =>
    match d.lookup source with
    | none => (false, d)
    | some contents =>
      if faults.fails (.rename source target) then (false, d)
      else (true, (d.erase source).insert target contents)
  | .remove name =>
    if faults.fails (.remove name) then (false, d) else (true, d.erase name)
  | .ensureDirectory => (!faults.fails .ensureDirectory, d)
  | .ensureFile name => (!faults.fails (.ensureFile name), d)
  | .sync name => (!faults.fails (.sync name), d)
  | .close name => (!faults.fails (.close name), d)
  | .syncDirectory => (!faults.fails .syncDirectory, d)

/-- The replacement comes to its rename, and the rename succeeds. -/
def Faults.renames (faults : Faults) (d : Directory) (path : Name) (contents : List UInt8) : Bool :=
  !faults.fails .ensureDirectory && faults.creates d &&
    !faults.fails (.ensureFile faults.temporary) &&
    !faults.fails (.write faults.temporary contents) && !faults.fails (.sync faults.temporary) &&
    !faults.fails (.close faults.temporary) && !faults.fails (.rename faults.temporary path)

/-- A call after the rename fails: the directory cannot be synced, or the protection of the new file
cannot be confirmed. -/
def Faults.afterwards (faults : Faults) (path : Name) : Bool :=
  faults.fails .syncDirectory || faults.fails (.ensureFile path)

end RlcdDeck.ProtectedFile
