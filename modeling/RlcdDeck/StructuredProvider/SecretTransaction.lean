import RlcdDeck.StructuredProvider.Store

/-!
# Transactions over the file and the vault

`PutNew` of the secret store, and `CommitDefinition`.
-/

namespace RlcdDeck.StructuredProvider

open Json (Bytes)
open ConfigModel (Network)
open SecretStore (Reference maximumSecretBytes maximumCreateAttempts)

/-! ### `PutNew` -/

/-- The attempts of `PutNew`.  `before` is `beforeSecret`; it works on values of `β`. -/
def putAttempts {β : Type} (value : Bytes) (before : β → Reference → Prog (β × Option Failure)) :
    (attempts : ℕ) → β → Prog (Except Failure Reference × β)
  | 0, b => pure (.error (.vault .unavailable), b)
  | attempts + 1, b => do
    match ← perform .newReference with
    | none => pure (.error (.vault .unavailable), b)
    | some reference =>
      match ← perform (.create reference) with
      | .error error =>
        if error = .duplicate then putAttempts value before attempts b
        else pure (.error (.vault error), b)
      | .ok _ =>
        let (b, failed) ← before b reference
        match failed with
        | some failure =>
          match ← perform (.delete reference) with
          | .error error => pure (.error (.vault error), b)
          | .ok _ =>
            if failure = .vault .duplicate then putAttempts value before attempts b
            else pure (.error failure, b)
        | none =>
          match ← perform (.write reference value) with
          | .error error => pure (.error (.vault error), b)
          | .ok _ => pure (.ok reference, b)

/-- `PutNew`. -/
def putNew {β : Type} (value : Bytes) (before : β → Reference → Prog (β × Option Failure)) (b : β) :
    Prog (Except Failure Reference × β) :=
  if value.isEmpty || maximumSecretBytes < value.length then pure (.error (.vault .invalid), b)
  else do
    match ← perform .context with
    | some error => pure (.error (.vault error), b)
    | none => putAttempts value before maximumCreateAttempts b

/-- `normalizeSecretStoreError`. -/
def normalizeSecretStoreError : Failure → Failure
  | .vault .notFound => .vault .unavailable
  | .vault .duplicate => .vault .unavailable
  | .vault error => .vault error
  | _ => .vault .unavailable

/-! ### Clean-up -/

/-- Deletes the entries: those that were deleted, and those that were not. -/
def deleteEach : List Reference → Prog (List Reference × List Reference)
  | [] => pure ([], [])
  | reference :: references => do
    let answer ← perform (.delete reference)
    let (deleted, pending) ← deleteEach references
    match answer with
    | .ok _ => pure (reference :: deleted, pending)
    | .error _ => pure (deleted, reference :: pending)

/-- Deletes the entries and takes them out of the journal; what is left to do. -/
def cleanup (references : List Reference) : Prog (List Reference) := do
  let (deleted, pending) ← deleteEach references
  if deleted.isEmpty then pure pending
  else
    let result ← perform (.update (completeCleanup deleted))
    if result.error.isSome then pure (pending ++ deleted) else pure pending

/-- The `rollback` of `CommitDefinition`. -/
def rollback (references : List Reference) : Prog (List Reference) := cleanup references.reverse

/-! ### `CommitDefinition` -/

/-- `SecretBinding`. -/
structure SecretBinding where
  headerIndex : ℤ
  value : Bytes

/-- What the callback of `PutNew` keeps. -/
structure Staging where
  staged : List Reference
  stageFailed : Bool

/-- The callback of `PutNew`. -/
def stage (staging : Staging) (reference : Reference) : Prog (Staging × Option Failure) := do
  let result ← perform (.update (stageCleanup [reference]))
  match result.error with
  | some failure =>
    pure ({ staging with stageFailed := failure != .vault .duplicate }, some failure)
  | none => pure ({ staging with staged := staging.staged ++ [reference] }, none)

/-- The definition with the reference at a header. -/
def bindHeader (definition : Definition) (index : ℕ) (reference : Reference) : Definition :=
  { definition with
    request := { definition.request with
      headers := definition.request.headers.map fun headers =>
        headers.modify index fun header => { header with secretReference := reference } } }

/-- What the loop over the bindings keeps. -/
structure Binding where
  candidate : Definition
  seen : List ℤ
  created : List Reference
  staged : List Reference

/-- The checks of a binding. -/
def validBinding (state : Binding) (binding : SecretBinding) : Bool :=
  decide (0 ≤ binding.headerIndex ∧ binding.headerIndex < state.candidate.headers.length) &&
    !binding.value.isEmpty && !state.seen.contains binding.headerIndex &&
    (state.candidate.headers[binding.headerIndex.toNat]?).all fun header =>
      header.secretReference.isEmpty

/-- The loop over the bindings; an error comes with the references that are staged. -/
def bindSecrets : Binding → List SecretBinding → Prog (Except (Failure × List Reference) Binding)
  | state, [] => pure (.ok state)
  | state, binding :: bindings =>
    if !validBinding state binding then pure (.error (.invalidConfig, state.staged))
    else do
      let (put, staging) ← putNew binding.value stage ⟨state.staged, false⟩
      match put with
      | .error failure =>
        pure (.error (if staging.stageFailed then .definitionCommit
          else normalizeSecretStoreError failure, staging.staged))
      | .ok reference =>
        bindSecrets {
          candidate := bindHeader state.candidate binding.headerIndex.toNat reference
          seen := binding.headerIndex :: state.seen
          created := state.created ++ [reference]
          staged := staging.staged } bindings

/-- The definition that is returned, if one is, and the error. -/
structure CommitResult where
  definition : Option Definition
  error : Option Failure

/-- `fail`. -/
def failCommit (reason : Failure) (staged : List Reference) : Prog CommitResult := do
  let pending ← rollback staged
  if pending.isEmpty then pure ⟨none, some reason⟩
  else pure ⟨none, some (.secretRollback pending)⟩

/-- `unactivatedReferences`. -/
def unactivatedReferences (staged activated : List Reference) : List Reference :=
  without staged activated

/-- The part of `CommitDefinition` after the secrets are bound. -/
def publishBound (network : Network) (current : Option Definition) (bound : Binding) :
    Prog CommitResult :=
  match normalizeConfig network bound.candidate with
  | .error failure => failCommit failure bound.staged
  | .ok normalized => do
    let persistable := cloneDefinition normalized.definition
    let result ← perform (.update
      (publish network current (cloneDefinition persistable) bound.created))
    if !result.committed then failCommit .definitionCommit bound.staged
    else if result.error.isSome then pure ⟨some persistable, some .definitionCommit⟩
    else
      let pending ← rollback (retiredReferences current (some persistable) ++
        unactivatedReferences bound.staged bound.created)
      if pending.isEmpty then pure ⟨some persistable, none⟩
      else pure ⟨some persistable, some (.secretRollback pending)⟩

/-- `CommitDefinition`. -/
def commitDefinition (network : Network) (current : Option Definition) (definition : Definition)
    (bindings : List SecretBinding) : Prog CommitResult := do
  match ← bindSecrets ⟨cloneDefinition definition, [], [], []⟩ bindings with
  | .error (failure, staged) => failCommit failure staged
  | .ok bound => publishBound network current bound

end RlcdDeck.StructuredProvider
