import RlcdDeck.Pairing.Marshal
import RlcdDeck.Pairing.Service
import RlcdDeck.ProtectedFile.Replace

/-!
# The pairing store and its file

An operation of the service together with the replacement of the file that it asks for, and what a
later `OpenFileStore` reads.  The two results of `protectedfile.Replace` are the environment of the
operation.
-/

namespace RlcdDeck.Pairing

open ProtectedFile (Directory Faults Name Replaced)

/-- The name of the file in the data directory. -/
def storeName : Name := ascii "pairing.json"

/-- A `Redeem` or a `Revoke`, with what the clock and the random source answer. -/
inductive Operation where
  | redeem (request : RedeemRequest) (tokenBytes : Option (List UInt8)) (now : Time)
  | revoke (deviceId : Text) (now : Time)

def Operation.outcome (config : Config) (store : FileStore) (env : Env) : Operation → Outcome
  | .redeem request tokenBytes now => Pairing.redeem config store request tokenBytes now env
  | .revoke deviceId now => Pairing.revoke config store deviceId now env

/-- What the operation writes: the state that it leaves when the replacement goes well. -/
def Operation.written (config : Config) (store : FileStore) (cancelled : Bool)
    (operation : Operation) : Option Json.Bytes :=
  let outcome := operation.outcome config store { cancelled := cancelled }
  if outcome.committed then outcome.store.state.marshal else none

/-- The operation over the directory of the file. -/
def Operation.program (config : Config) (store : FileStore) (cancelled : Bool)
    (operation : Operation) : ProtectedFile.Prog Outcome :=
  match operation.written config store cancelled with
  | none => pure (operation.outcome config store ⟨cancelled, false, true⟩)
  | some contents => do
    let replaced ← ProtectedFile.replace storeName contents
    pure (operation.outcome config store ⟨cancelled, replaced.committed, replaced.failed⟩)

/-- The operation with the failures of the replacement given. -/
def Operation.run (config : Config) (store : FileStore) (cancelled : Bool) (operation : Operation)
    (faults : Faults) (d : Directory) : Outcome × Directory :=
  (operation.program config store cancelled).run faults.answer d

/-- What `OpenFileStore` makes of the directory, if it succeeds. -/
def openFileStore (d : Directory) : Option FileStoreState :=
  match d.lookup storeName with
  | none => some {}
  | some contents => readFileStore contents

/-- An operation that is answered with an error. -/
def Outcome.refused (outcome : Outcome) : Bool :=
  match outcome.response with
  | .failed _ => true
  | _ => false

/-! ### Sessions

Every store operation replaces the file, and the store may be closed and opened again at any
time. -/

/-- The event with the two results of `writeFileStore` given. -/
def Event.answered (event : Event) (committed failed : Bool) : Event :=
  match event with
  | .issue number now env => .issue number now ⟨env.cancelled, committed, failed⟩
  | .issueRotation deviceId number now env =>
    .issueRotation deviceId number now ⟨env.cancelled, committed, failed⟩
  | .redeem request tokenBytes now env =>
    .redeem request tokenBytes now ⟨env.cancelled, committed, failed⟩
  | .revoke deviceId now env => .revoke deviceId now ⟨env.cancelled, committed, failed⟩
  | .verify authentication cancelled => .verify authentication cancelled
  | .close => .close

/-- What the event writes: the state that it leaves when the replacement goes well. -/
def Event.written (config : Config) (store : FileStore) (event : Event) : Option Json.Bytes :=
  let outcome := step config store (event.answered true false)
  if outcome.committed then outcome.store.state.marshal else none

structure System where
  store : FileStore := {}
  directory : Directory := ∅

/-- An event, with the failures of the replacement, or `Close` and `OpenFileStore`. -/
inductive Action where
  | event (event : Event) (faults : Faults)
  | reopen

def System.step (config : Config) (system : System) : Action → System
  | .event event faults =>
    match event.written config system.store with
    | none =>
      { system with store := (Pairing.step config system.store (event.answered false true)).store }
    | some contents =>
      let replaced := (ProtectedFile.replace storeName contents).run faults.answer system.directory
      let answered := event.answered replaced.1.committed replaced.1.failed
      { store := (Pairing.step config system.store answered).store
        directory := replaced.2 }
  | .reopen =>
    match openFileStore system.directory with
    | none => { system with store := { system.store with closed := true } }
    | some state => { system with store := { state := state } }

def System.run (config : Config) (system : System) (actions : List Action) : System :=
  actions.foldl (fun system action => system.step config action) system

end RlcdDeck.Pairing
