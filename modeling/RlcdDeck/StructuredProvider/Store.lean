import RlcdDeck.Effects.Program
import RlcdDeck.StructuredProvider.State

/-!
# The definition store and the vault

The store's file is one document; `older` are the documents that a crash may bring back, those
that a replacement left behind which was reported as committed together with an error.  While the
store is open its state is the document.  The vault holds an entry under every reference; an entry
begins as a placeholder and becomes the secret.

A `Call` is one access to the file or the vault.  `updateWithCommit` holds the store's mutex from
beginning to end, so it is one access.
-/

namespace RlcdDeck.StructuredProvider

open Json (Bytes)
open ConfigModel (Network)
open SecretStore (Reference validReference)

structure File where
  document : State
  older : List State

/-- The documents that a later `OpenDefinitionStore` may read. -/
def File.possible (file : File) : List State := file.document :: file.older

inductive Entry where
  | placeholder
  | secret (value : Bytes)

/-- The file, the vault, the references that were generated and those whose entry was deleted. -/
structure World where
  file : File
  vault : Reference → Option Entry
  drawn : List Reference
  deleted : List Reference

def World.put (w : World) (reference : Reference) (entry : Entry) : World :=
  { w with vault := Function.update w.vault reference (some entry) }

def World.remove (w : World) (reference : Reference) : World :=
  { w with
    vault := Function.update w.vault reference none
    deleted := reference :: w.deleted }

/-! ### The file -/

/-- What becomes of an update: its context has expired, `protectedfile.Replace` did not commit,
committed, or committed and reported an error. -/
inductive Outcome where
  | expired (error : VaultError)
  | rejected
  | committed
  | unverified

structure UpdateResult where
  committed : Bool
  error : Option Failure
  retired : List Reference

/-- `updateWithCommit`. -/
def updateWithCommit (network : Network) (file : File) (mutate : State → Mutation)
    (outcome : Outcome) : UpdateResult × File :=
  match outcome with
  | .expired error => (⟨false, some (.vault error), []⟩, file)
  | outcome =>
    let mutation := mutate file.document.clone
    match mutation.next with
    | .error failure => (⟨false, some failure, mutation.retired⟩, file)
    | .ok next =>
      if !validateState network next then
        (⟨false, some .invalidConfig, mutation.retired⟩, file)
      else
        match outcome with
        | .committed => (⟨true, none, mutation.retired⟩, ⟨next, []⟩)
        | .unverified =>
          (⟨true, some .definitionCommit, mutation.retired⟩, ⟨next, file.possible⟩)
        | _ => (⟨false, some .definitionCommit, mutation.retired⟩, file)

/-! ### Calls -/

/-- One access to the file or to the vault.  The check of the context that comes before an access
to the vault is part of it. -/
inductive Call where
  | context
  | update (mutate : State → Mutation)
  /-- The state, under the read lock. -/
  | state
  /-- `Configuration`. -/
  | configuration
  /-- `newReference`. -/
  | newReference
  | create (reference : Reference)
  /-- `vault.Update` -/
  | write (reference : Reference) (value : Bytes)
  | delete (reference : Reference)
  | list

abbrev Call.Res : Call → Type
  | context => Option VaultError
  | update _ => UpdateResult
  | state => State
  | configuration => Except Failure Configuration
  | newReference => Option Reference
  | create _ | write _ _ | delete _ => Except VaultError Unit
  | list => Except VaultError (List Reference)

abbrev Prog := Effects.Program Call Call.Res

abbrev perform (call : Call) : Prog call.Res := Effects.Program.perform call

end RlcdDeck.StructuredProvider
