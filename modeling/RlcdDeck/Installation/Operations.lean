import RlcdDeck.Installation.Manager

/-!
# The operations of the manager

The snapshot of the migration files and its restoration, the staging of an executable, the rollback,
and on them `Apply`, `SetEnabled`, `Uninstall` and the recovery of `Open`.  `Returned` keeps the
errors of a rollback apart from those of the operation, which the source joins.
-/

namespace RlcdDeck.Installation

open Effects
open Bytes (encodeHex)

/-- What an operation returns: the errors of the operation, and those of its rollback. -/
structure Returned where
  status : Status := {}
  errors : List Error := []
  rollback : List Error := []

def failed (errors : List Error) : Returned := { errors := errors }

section

variable (manager : Manager)

/-! ### State -/

def readState : Work (Except Error (Option InstallationState)) := do
  match ← ask .readState with
  | .absent => return .ok none
  | .failed => return .error ⟨.unavailable, "read installation state"⟩
  | .found state =>
    if validState manager state then return .ok (some state)
    else return .error ⟨.unavailable, "invalid installation state"⟩

/-- `writeState` and `writeJournal`. -/
def writeError : Error := ⟨.unavailable, "commit protected installation state"⟩

/-! ### The snapshot -/

/-- `fmt.Sprintf("%03d", sequence)`, below 1000. -/
def threeDigits (sequence : ℕ) : Text :=
  [sequence / 100, sequence / 10 % 10, sequence % 10].map fun digit => UInt8.ofNat (48 + digit)

/-- The loop that makes a new directory: `count` numbers are left, from `sequence` on. -/
def makeBackup (base : Text) : ℕ → ℕ → Work (Option Path)
  | 0, _ => return none
  | count + 1, sequence => do
    let path := (backupRoot manager).join [base ++ ascii "-" ++ threeDigits sequence]
    match ← ask (.mkdir path) with
    | .created => return some path
    | .exists => makeBackup base count (sequence + 1)
    | .failed => return none

/-- The loop that copies the files. -/
def copyFiles (backupPath : Path) : List MigrationFile → Work (Option (List MigrationEntry))
  | [] => return some []
  | file :: files => do
    if ← ask .contextErr then return none
    else
      match ← ask (.inspectData file) with
      | .failed => return none
      | .absent =>
        let entries ← copyFiles backupPath files
        return entries.map ({ path := file } :: ·)
      | .found () =>
        match ← ask (.readData file) with
        | none => return none
        | some contents =>
          if !(← ask (.replaceBackup backupPath file contents)) then return none
          else
            let entries ← copyFiles backupPath files
            return entries.map
              ({ path := file
                 existed := true
                 size := contents.length
                 sha256 := encodeHex (manager.sha256 contents) } :: ·)

def createMigrationSnapshot (commit : Text) : Work (Option Path) := do
  if ← ask .contextErr then return none
  else if !(← ask (.ensureDirectory (backupRoot manager))) then return none
  else
    let now ← ask .now
    match ← makeBackup manager (now.compact ++ ascii "-" ++ commit) 1000 0 with
    | none => return none
    | some backupPath =>
      match ← copyFiles manager backupPath migrationFiles with
      | none =>
        ask (.removeAll backupPath)
        return none
      | some entries =>
        let manifest := ⟨stateSchemaVersion, now.rfc3339Nano, entries⟩
        if !(← ask (.replaceManifest backupPath manifest)) then
          ask (.removeAll backupPath)
          return none
        else
          return some backupPath

/-- The loop of `restoreMigrationSnapshot`. -/
def restoreEntries (backupPath : Path) : List MigrationEntry → Work (List Error)
  | [] => return []
  | entry :: entries => do
    if ← ask .contextErr then return [⟨.context, ""⟩]
    else if !entry.existed then
      match ← ask (.removeData entry.path) with
      | .failed => return [⟨.other, ""⟩]
      | _ => restoreEntries backupPath entries
    else
      match ← ask (.readBackup backupPath entry.path) with
      | none => return [⟨.other, ""⟩]
      | some contents =>
        if (contents.length : ℤ) ≠ entry.size ∨
            encodeHex (manager.sha256 contents) ≠ entry.sha256 then
          return [⟨.other, "migration snapshot hash mismatch"⟩]
        else if !(← ask (.replaceData entry.path contents)) then return [⟨.other, ""⟩]
        else restoreEntries backupPath entries

def restoreMigrationSnapshot (backupPath : Path) : Work (List Error) := do
  if ← ask .contextErr then return [⟨.context, ""⟩]
  else
    match ← ask (.readManifest backupPath) with
    | none => return [⟨.other, ""⟩]
    | some manifest =>
      if !validMigrationManifest manager manifest then
        return [⟨.other, "invalid migration snapshot manifest"⟩]
      else restoreEntries manager backupPath manifest.entries

/-! ### The rollback -/

/-- The data files. -/
def restoreData (journal : TransactionJournal) : Work (List Error) := do
  if !journal.restoreData then return []
  else
    let errors ← restoreMigrationSnapshot manager journal.backupPath
    return if errors = [] then [] else ⟨.migration, ""⟩ :: errors

/-- The registration and the state that there were before. -/
def restorePrior (journal : TransactionJournal) : Work (List Error) := do
  let configured ←
    if journal.reconfigure then ask (.configure (launchSpec manager journal.prior)) else pure true
  if !configured then return [⟨.platform, ""⟩]
  else if !(← ask (.setEnabled journal.prior.enabled)) then return [⟨.platform, ""⟩]
  else if !(← ask (.replaceState journal.prior)) then return [writeError]
  else return []

/-- No registration and no state. -/
def restoreNothing : Work (List Error) := do
  let removed ← ask .removeRegistration
  let state ← ask .removeState
  return (if removed then [] else [⟨.platform, ""⟩]) ++
    if state = .failed then [⟨.other, ""⟩] else []

/-- The registration and the state, as the journal has them. -/
def restoreStartup (journal : TransactionJournal) : Work (List Error) :=
  if journal.hadPrior then restorePrior manager journal else restoreNothing

/-- `rollback`. -/
def rollback (journal : TransactionJournal) : Work (List Error) := do
  let dataErrors ← restoreData manager journal
  let errors ← restoreStartup manager journal
  if dataErrors ++ errors = [] then
    match ← ask (.removeJournal false) with
    | .failed => return [⟨.other, ""⟩]
    | _ => return []
  else
    return dataErrors ++ errors

/-- `recover`, of `Open`. -/
def recover : Work (List Error) := do
  match ← ask .readJournal with
  | .absent => return []
  | .failed => return [⟨.unavailable, "read installation journal"⟩]
  | .found journal =>
    if validJournal manager journal then rollback manager journal
    else return [⟨.unavailable, "invalid installation journal"⟩]

/-! ### Staging -/

/-- The sizes of the files to be copied. -/
def migrationBytes : List MigrationFile → Work (Option ℕ)
  | [] => return some 0
  | file :: files => do
    match ← ask (.lstatData file) with
    | .absent => migrationBytes files
    | .failed => return none
    | .found size =>
      if maximumMigrationFileBytes < size then return none
      else
        let total ← migrationBytes files
        return total.map (size + ·)

/-- The device of `path` has as many bytes. -/
def hasSpace (path : Path) (need : ℕ) : Work Bool := do
  match ← ask (.availableBytes path) with
  | none => return false
  | some available => return decide (need ≤ available)

def preflightCapacity (sourcePath : Path) : Work (List Error) := do
  match ← ask (.lstatSource sourcePath) with
  | none => return [⟨.invalid, "source executable is invalid"⟩]
  | some size =>
    if size = 0 ∨ maximumExecutableBytes < size then
      return [⟨.invalid, "source executable is invalid"⟩]
    else
      match ← migrationBytes migrationFiles with
      | none => return [⟨.migration, "migration input is unavailable"⟩]
      | some bytes =>
        let rootNeed := size + bytes + transactionReserve
        let dataNeed := bytes + transactionReserve
        if !(← hasSpace manager.root (rootNeed + dataNeed)) then
          return [⟨.unavailable, "insufficient installation space"⟩]
        else if !(← hasSpace manager.dataDirectory (rootNeed + dataNeed)) then
          return [⟨.unavailable, "insufficient migration space"⟩]
        else return []

/-- The write of the program, unless the source is the target. -/
def stageContents (source target : Path) (contents : List UInt8) : Work Bool :=
  if samePath manager (manager.canonical source) target then return true
  else ask (.replaceExecutable target contents)

/-- `stageExecutable`. -/
def stageExecutable (request : Request) : Work (Except Error Path) := do
  match ← ask (.readSource request.sourceExecutable) with
  | .error kind => return .error ⟨kind, "read source executable"⟩
  | .ok contents =>
    if contents = [] ∨ maximumExecutableBytes < contents.length then
      return .error ⟨.unavailable, "read source executable"⟩
    else
      let target := stagingPath manager request
      if !(← ask (.ensureDirectory { target with components := target.components.dropLast })) then
        return .error ⟨.unavailable, "create version directory"⟩
      else
        if !(← stageContents manager request.sourceExecutable target contents) then
          return .error ⟨.unavailable, "stage executable"⟩
        else if !(← ask (.chmodExecutable target)) then
          return .error ⟨.unavailable, "protect executable"⟩
        else if !(← ask (.lstatExecutable target)) then
          return .error ⟨.unavailable, "verify executable protection"⟩
        else
          match ← ask (.readExecutable target) with
          | none => return .error ⟨.unavailable, "verify executable"⟩
          | some verified =>
            if manager.sha256 contents ≠ manager.sha256 verified then
              return .error ⟨.unavailable, "executable hash mismatch"⟩
            else
              return .ok target

/-! ### Operations -/

/-- The end of an operation: its journal is removed. -/
def commitJournal (text : String) : Work (List Error) := do
  match ← ask (.removeJournal true) with
  | .removed => return []
  | _ => return [⟨.unavailable, text⟩]

/-- A transaction: its journal, its body, and a rollback when the body fails. -/
def transaction (journal : TransactionJournal) (status : Status) (body : Work (List Error)) :
    Work Returned := do
  if !(← ask (.replaceJournal journal)) then return failed [writeError]
  else
    let errors ← body
    if errors = [] then return { status := status }
    else
      let rolledBack ← rollback manager journal
      return { errors := errors, rollback := rolledBack }

/-- `Apply`, after its journal. -/
def applyBody (next : InstallationState) : Work (List Error) := do
  if !(← ask .migrate) then return [⟨.migration, ""⟩]
  else if !(← ask (.configure (launchSpec manager next))) then return [⟨.platform, ""⟩]
  else if !(← ask (.replaceState next)) then return [writeError]
  else if !(← ask (.setEnabled true)) then return [⟨.platform, ""⟩]
  else if !(← ask (.replaceState { next with enabled := true })) then return [writeError]
  else commitJournal "commit installation journal"

/-- The journal of `Apply`. -/
def applyJournal (prior : Option InstallationState) (next : InstallationState) (backupPath : Path) :
    TransactionJournal where
  schemaVersion := stateSchemaVersion
  restoreData := true
  reconfigure := true
  backupPath := backupPath
  hadPrior := prior.isSome
  prior := prior.getD {}
  next := next

def apply (request : Request) : Work Returned := do
  let done ← ask .contextErr
  if done ∨ !validRequest request then
    return failed (⟨.invalid, ""⟩ :: if done then [⟨.context, ""⟩] else [])
  else
    match ← readState manager with
    | .error error => return failed [error]
    | .ok prior =>
      let errors ← preflightCapacity manager request.sourceExecutable
      if errors ≠ [] then return failed errors
      else
        match ← stageExecutable manager request with
        | .error error => return failed [error]
        | .ok _ =>
          match ← createMigrationSnapshot manager request.commit with
          | none => return failed [⟨.migration, ""⟩]
          | some backupPath =>
            let next := nextState manager request prior
            transaction manager (applyJournal prior next backupPath)
              { installed := true
                enabled := true
                version := next.version
                commit := next.commit
                activeExecutable := next.activeExecutable
                previousVersion := next.previousVersion }
              (applyBody manager next)

/-- `statusFromState`, of a state that was found. -/
def statusFromState (state : InstallationState) : Work Returned := do
  match ← ask .platformStatus with
  | none => return failed [⟨.platform, ""⟩]
  | some platform =>
    if !platform.installed ∨ platform.enabled ≠ state.enabled then
      return failed [⟨.unavailable, "installation state does not match login startup"⟩]
    else
      return { status :=
                { installed := platform.installed
                  enabled := platform.enabled
                  version := state.version
                  commit := state.commit
                  activeExecutable := state.activeExecutable
                  previousVersion := state.previousVersion } }

def setEnabledBody (next : InstallationState) : Work (List Error) := do
  if !(← ask (.setEnabled next.enabled)) then return [⟨.platform, ""⟩]
  else if !(← ask (.replaceState next)) then return [writeError]
  else commitJournal "commit startup state"

/-- `SetEnabled`; it returns no status. -/
def setEnabled (enabled : Bool) : Work Returned := do
  match ← readState manager with
  | .error error => return failed [⟨.unavailable, ""⟩, error]
  | .ok none => return failed [⟨.unavailable, ""⟩]
  | .ok (some state) =>
    if state.enabled = enabled then
      let returned ← statusFromState state
      return failed returned.errors
    else
      let next := { state with enabled := enabled }
      transaction manager
        { schemaVersion := stateSchemaVersion, hadPrior := true, prior := state, next := next }
        {} (setEnabledBody next)

def uninstallBody : Work (List Error) := do
  if !(← ask .removeRegistration) then return [⟨.platform, ""⟩]
  else
    match ← ask .removeState with
    | .failed => return [⟨.unavailable, "remove installation state"⟩]
    | _ => commitJournal "commit uninstall journal"

def uninstall : Work Returned := do
  match ← readState manager with
  | .error error => return failed [error]
  | .ok none =>
    if !(← ask .removeRegistration) then return failed [⟨.platform, ""⟩] else return {}
  | .ok (some state) =>
    transaction manager
      { schemaVersion := stateSchemaVersion
        reconfigure := true
        hadPrior := true
        prior := state
        next := state }
      {} uninstallBody

/-- A call of the manager. -/
inductive Operation where
  | apply (request : Request)
  | setEnabled (enabled : Bool)
  | uninstall

def Operation.run : Operation → Work Returned
  | .apply request => Installation.apply manager request
  | .setEnabled enabled => Installation.setEnabled manager enabled
  | .uninstall => Installation.uninstall manager

end

end RlcdDeck.Installation
