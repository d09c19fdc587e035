import Mathlib.Data.Int.Notation
import RlcdDeck.Effects.Program
import RlcdDeck.Installation.Address

/-!
# The installation manager

The model of `installation/manager.go` and `installation/migration.go`: the installation state, the
journal of a transaction, and `Apply`, `SetEnabled`, `Uninstall` and the recovery of `Open` as
programs over their calls to the file system and to the platform.

The operations are in `Installation/Operations.lean`, and what the calls do in `Installation/World.lean`.
The state, the journal and the manifest are what their JSON texts say; a text that cannot be decoded
is a read that fails.  The checks of `stageExecutable` that a file is regular and stays the same
while it is read are part of the call that reads it.  The mutex and the lock make one call follow
another, and are left out, and so are a manager that is closed and the names of the platforms.
-/

namespace RlcdDeck.Installation

open Effects
open Bytes (encodeHex decodeHex)

/-! ### Paths -/

/-- A path by its components, as it is written; the empty path is relative. -/
structure Path where
  absolute : Bool := false
  components : List Text := []
  deriving DecidableEq

/-- `filepath.Join` with simple names. -/
def Path.join (path : Path) (names : List Text) : Path :=
  { path with components := path.components ++ names }

/-- One component of `filepath.Clean`; what was read before is in reverse order. -/
def cleanComponent (done : List Text) (component : Text) : List Text :=
  if component = [] ∨ component = ascii "." then done
  else if component = ascii ".." then done.tail
  else component :: done

/-- `filepath.Clean` of an absolute path. -/
def Path.clean (path : Path) : List Text :=
  (path.components.foldl cleanComponent []).reverse

/-- The components of `names` are those that `others` starts with. -/
def startsWith (sameWord : Text → Text → Bool) : List Text → List Text → Bool
  | [], _ => true
  | _ :: _, [] => false
  | name :: names, other :: others => sameWord name other && startsWith sameWord names others

/-! ### The files of a transaction -/

/-- The names of `migrationFiles`. -/
inductive MigrationFile where
  | pairing
  | deviceHubIdentity
  | structuredProviders
  | providerHistory
  | providerHistoryWal
  | providerHistoryShm
  deriving DecidableEq

def migrationFiles : List MigrationFile :=
  [.pairing, .deviceHubIdentity, .structuredProviders, .providerHistory, .providerHistoryWal,
    .providerHistoryShm]

structure MigrationEntry where
  path : MigrationFile
  existed : Bool := false
  size : ℤ := 0
  sha256 : Text := []
  deriving DecidableEq

structure MigrationManifest where
  schemaVersion : ℕ
  createdUtc : Text
  entries : List MigrationEntry
  deriving DecidableEq

structure InstallationState where
  schemaVersion : ℕ := 0
  version : Text := []
  commit : Text := []
  activeExecutable : Path := {}
  previousVersion : Text := []
  previousExecutable : Path := {}
  deviceHubAddress : Text := []
  enabled : Bool := false
  deriving DecidableEq

structure TransactionJournal where
  schemaVersion : ℕ
  restoreData : Bool := false
  reconfigure : Bool := false
  backupPath : Path := {}
  hadPrior : Bool
  prior : InstallationState
  next : InstallationState
  deriving DecidableEq

structure LaunchSpec where
  executable : Path
  dataDirectory : Path
  deviceHubAddress : Text
  deriving DecidableEq

structure PlatformStatus where
  installed : Bool
  enabled : Bool

structure Request where
  sourceExecutable : Path
  version : Text
  commit : Text
  deviceHubAddress : Text

/-- `Status`, without the name of the platform. -/
structure Status where
  installed : Bool := false
  enabled : Bool := false
  version : Text := []
  commit : Text := []
  activeExecutable : Path := {}
  previousVersion : Text := []

/-- The two texts of a time, with the layouts `20060102T150405.000000000Z` and `RFC3339Nano`. -/
structure Instant where
  compact : Text
  rfc3339Nano : Text

def stateSchemaVersion : ℕ := 1

def maximumExecutableBytes : ℕ := 256 * 2 ^ 20

def maximumMigrationFileBytes : ℕ := 64 * 2 ^ 20

def transactionReserve : ℕ := 16 * 2 ^ 20

/-- A manager, with what it takes from the system: how the system compares two components of a path,
the path that `filepath.EvalSymlinks` gives, the name of an executable, the hash, and whether a text
is a time in UTC as it is written. -/
structure Manager where
  root : Path
  dataDirectory : Path
  sameWord : Text → Text → Bool
  canonical : Path → Path
  executableName : Text
  sha256 : List UInt8 → List UInt8
  validTimestamp : Text → Bool

/-! ### Validity -/

def isAlphanumeric (byte : UInt8) : Bool :=
  isDigit byte || decide (65 ≤ byte ∧ byte ≤ 90) || decide (97 ≤ byte ∧ byte ≤ 122)

/-- `safeIdentity`. -/
def safeIdentity : Text → Bool
  | [] => false
  | first :: rest =>
    isAlphanumeric first && decide (rest.length ≤ 63) &&
      rest.all fun byte => isAlphanumeric byte || byte ∈ ascii ".+_-"

/-- `safeCommit`. -/
def safeCommit (text : Text) : Bool :=
  decide (7 ≤ text.length ∧ text.length ≤ 40) && text.all Bytes.isLowerHex

section

variable (manager : Manager)

/-- `pathWithin`, for an absolute root. -/
def pathWithin (root candidate : Path) : Bool :=
  candidate.absolute && startsWith manager.sameWord root.clean candidate.clean

def validState (state : InstallationState) : Bool :=
  if state.schemaVersion ≠ stateSchemaVersion ∨ !safeIdentity state.version ∨
      !safeCommit state.commit ∨ !state.activeExecutable.absolute ∨
      !pathWithin manager manager.root state.activeExecutable then
    false
  else if state.previousExecutable ≠ {} ∧
      (!state.previousExecutable.absolute ∨
        !pathWithin manager manager.root state.previousExecutable ∨
        !safeIdentity state.previousVersion) then
    false
  else validDeviceHubListenAddress state.deviceHubAddress

def backupRoot : Path := manager.root.join [ascii "migration-backups"]

def validJournal (journal : TransactionJournal) : Bool :=
  if journal.schemaVersion ≠ stateSchemaVersion ∨ !validState manager journal.next ∨
      (journal.restoreData ∧ !journal.reconfigure) then
    false
  else if journal.restoreData ∧ (!journal.backupPath.absolute ∨
      !pathWithin manager (backupRoot manager) journal.backupPath) then
    false
  else if !journal.restoreData ∧ journal.backupPath ≠ {} then false
  else !journal.hadPrior || validState manager journal.prior

/-- The check of one entry. -/
def validMigrationEntry (entry : MigrationEntry) : Bool :=
  if entry.size < 0 ∨ (maximumMigrationFileBytes : ℤ) < entry.size then false
  else if entry.existed then
    match decodeHex entry.sha256 with
    | some decoded => decide (decoded.length = 32)
    | none => false
  else decide (entry.size = 0 ∧ entry.sha256 = [])

def validMigrationManifest (manifest : MigrationManifest) : Bool :=
  decide (manifest.schemaVersion = stateSchemaVersion) &&
    manager.validTimestamp manifest.createdUtc &&
    decide (manifest.entries.map (·.path) = migrationFiles) &&
    manifest.entries.all validMigrationEntry

def validRequest (request : Request) : Bool :=
  if request.sourceExecutable = {} ∨ !safeIdentity request.version ∨ !safeCommit request.commit then
    false
  else validDeviceHubListenAddress request.deviceHubAddress

/-- Where `stageExecutable` stages the program of a request. -/
def stagingPath (request : Request) : Path :=
  manager.root.join
    [ascii "versions", request.version ++ ascii "-" ++ request.commit, manager.executableName]

/-- Two clean paths that are spelled the same. -/
def samePath (path other : Path) : Bool :=
  startsWith manager.sameWord path.clean other.clean &&
    startsWith manager.sameWord other.clean path.clean

/-- What the platform is to start for a state. -/
def launchSpec (state : InstallationState) : LaunchSpec :=
  ⟨state.activeExecutable, manager.dataDirectory, state.deviceHubAddress⟩

/-- The state of an installation that was applied, before it is enabled. -/
def nextState (request : Request) (prior : Option InstallationState) : InstallationState :=
  let next : InstallationState :=
    { schemaVersion := stateSchemaVersion
      version := request.version
      commit := request.commit
      activeExecutable := stagingPath manager request
      deviceHubAddress := request.deviceHubAddress
      enabled := false }
  match prior with
  | none => next
  | some prior =>
    { next with
      previousVersion := prior.version
      previousExecutable := prior.activeExecutable }

end

/-! ### Calls -/

/-- How a removal ends. -/
inductive Removal where
  | removed
  | absent
  | failed
  deriving DecidableEq

/-- What a read finds. -/
inductive Found (α : Type) where
  | found (value : α)
  | absent
  | failed

/-- How `os.Mkdir` ends. -/
inductive Creation where
  | created
  | exists
  | failed

/-- The kinds of the errors. -/
inductive ErrorKind where
  | invalid
  | unavailable
  | migration
  | platform
  | context
  /-- An error of a call, as it came. -/
  | other
  deriving DecidableEq

structure Error where
  kind : ErrorKind
  text : String := ""
  deriving DecidableEq

/-- A call to the file system, to the platform or to the context. -/
inductive Call where
  | contextErr
  | now
  | readState
  | replaceState (state : InstallationState)
  | removeState
  | readJournal
  | replaceJournal (journal : TransactionJournal)
  /-- The removal of the journal, at the end of an operation or of a rollback. -/
  | removeJournal (commit : Bool)
  /-- The size of a regular file. -/
  | lstatSource (path : Path)
  | lstatData (file : MigrationFile)
  | availableBytes (path : Path)
  /-- The source executable: its checks, and its bytes. -/
  | readSource (path : Path)
  | ensureDirectory (path : Path)
  | replaceExecutable (path : Path) (contents : List UInt8)
  | chmodExecutable (path : Path)
  | lstatExecutable (path : Path)
  | readExecutable (path : Path)
  | mkdir (path : Path)
  | removeAll (path : Path)
  /-- The checks of a file that is to be copied. -/
  | inspectData (file : MigrationFile)
  | readData (file : MigrationFile)
  | replaceData (file : MigrationFile) (contents : List UInt8)
  | removeData (file : MigrationFile)
  | readBackup (path : Path) (file : MigrationFile)
  | replaceBackup (path : Path) (file : MigrationFile) (contents : List UInt8)
  | readManifest (path : Path)
  | replaceManifest (path : Path) (manifest : MigrationManifest)
  | migrate
  | configure (spec : LaunchSpec)
  | setEnabled (enabled : Bool)
  | removeRegistration
  | platformStatus
  deriving DecidableEq

/-- What a call answers; a `Bool` says that there was no error, but for `contextErr`, where it says that
the context is done. -/
abbrev Answer : Call → Type
  | .now => Instant
  | .readState => Found InstallationState
  | .readJournal => Found TransactionJournal
  | .removeState | .removeJournal _ | .removeData _ => Removal
  | .lstatSource _ | .availableBytes _ => Option ℕ
  | .lstatData _ => Found ℕ
  | .readSource _ => Except ErrorKind (List UInt8)
  | .mkdir _ => Creation
  | .inspectData _ => Found Unit
  | .readData _ | .readBackup _ _ | .readExecutable _ => Option (List UInt8)
  | .readManifest _ => Option MigrationManifest
  | .platformStatus => Option PlatformStatus
  | .removeAll _ => Unit
  | _ => Bool

/-- A computation of the manager. -/
abbrev Work := Program Call Answer

def ask (call : Call) : Work (Answer call) := Program.perform call

end RlcdDeck.Installation
