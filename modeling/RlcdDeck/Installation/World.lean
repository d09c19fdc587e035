import RlcdDeck.Installation.Operations

/-!
# What the calls do

The files of an installation and the platform, as the calls of the manager change them.  Replacing a
file and removing one are atomic; a call that fails may have had its effect, and a configuration that
fails may have left any registration.  Nobody else changes what is here while the manager works.

`commit` and `stray` only say what happened: how the removal of a journal at the end of an operation
was reported, once it took effect, and that a journal became visible although its replacement was
reported as failed.
-/

namespace RlcdDeck.Installation

open Effects

/-- The contents of the six data files. -/
abbrev Data := MigrationFile → Option (List UInt8)

structure Registration where
  spec : LaunchSpec
  enabled : Bool
  deriving DecidableEq

/-- A directory below `migration-backups`. -/
structure Backup where
  files : Data := fun _ => none
  manifest : Option MigrationManifest := none

/-- The files and the platform.  The programs are by the paths that `filepath.EvalSymlinks` gives. -/
structure World where
  state : Option InstallationState := none
  journal : Option TransactionJournal := none
  registration : Option Registration := none
  data : Data := fun _ => none
  programs : Path → Option (List UInt8) := fun _ => none
  backups : Path → Option Backup := fun _ => none
  commit : Option Bool := none
  stray : Bool := false

/-- The directory after a file was written into it. -/
def World.updateBackup (w : World) (path : Path) (change : Backup → Backup) : World :=
  { w with backups := Function.update w.backups path (some (change ((w.backups path).getD {}))) }

/-- A call that reports `ok`: its effect, or nothing when it failed. -/
def Changes (effect : World → World) (w : World) (ok : Bool) (w' : World) : Prop :=
  w' = effect w ∨ (ok = false ∧ w' = w)

/-- A removal: its effect, or nothing when there is no such file or when it failed. -/
def Removes (present : Bool) (effect : World → World) (w : World) : Removal → World → Prop
  | .removed, w' => w' = effect w
  | .absent, w' => present = false ∧ w' = w
  | .failed, w' => w' = effect w ∨ w' = w

/-- What a read of a file can find. -/
def Reads {α : Type} (file : Option α) (w : World) : Found α → World → Prop
  | .found value, w' => file = some value ∧ w' = w
  | .absent, w' => file = none ∧ w' = w
  | .failed, w' => w' = w

section

variable (manager : Manager) (migrates : Data → Data → Prop)

/-- What a call may answer, and the world after it.  `migrates` is what the migration may do to the
data when it succeeds; when it fails, it may have left anything. -/
def step (w : World) : (call : Call) → Answer call → World → Prop
  | .readState, found, w' => Reads w.state w found w'
  | .replaceState state, ok, w' => Changes (fun w => { w with state := some state }) w ok w'
  | .removeState, removal, w' =>
    Removes w.state.isSome (fun w => { w with state := none }) w removal w'
  | .readJournal, found, w' => Reads w.journal w found w'
  | .replaceJournal journal, ok, w' =>
    Changes (fun w => { w with journal := some journal, stray := w.stray || !ok }) w ok w'
  | .removeJournal true, removal, w' =>
    Removes w.journal.isSome
      (fun w => { w with journal := none, commit := some (removal == .removed) }) w removal w'
  | .removeJournal false, removal, w' =>
    Removes w.journal.isSome (fun w => { w with journal := none }) w removal w'
  | .readSource path, answer, w' =>
    (∀ contents, answer = .ok contents → w.programs (manager.canonical path) = some contents) ∧
      w' = w
  | .replaceExecutable path contents, ok, w' =>
    Changes
      (fun w => { w with
        programs := Function.update w.programs (manager.canonical path) (some contents) }) w ok w'
  | .readExecutable path, answer, w' =>
    (∀ contents, answer = some contents → w.programs (manager.canonical path) = some contents) ∧
      w' = w
  | .mkdir path, creation, w' =>
    match creation with
    | .created => w' = { w with backups := Function.update w.backups path (some {}) }
    | .exists => w' = w
    | .failed =>
      w' = w ∨ (w.backups path = none ∧
        w' = { w with backups := Function.update w.backups path (some {}) })
  | .removeAll path, _, w' =>
    ∃ left, w' = { w with backups := Function.update w.backups path left }
  | .inspectData file, found, w' =>
    (found = .absent → w.data file = none) ∧ w' = w
  | .readData file, answer, w' =>
    (∀ contents, answer = some contents → w.data file = some contents) ∧ w' = w
  | .replaceData file contents, ok, w' =>
    Changes (fun w => { w with data := Function.update w.data file (some contents) }) w ok w'
  | .removeData file, removal, w' =>
    Removes (w.data file).isSome (fun w => { w with data := Function.update w.data file none }) w
      removal w'
  | .readBackup path file, answer, w' =>
    (∀ contents, answer = some contents →
      ((w.backups path).getD {}).files file = some contents) ∧ w' = w
  | .replaceBackup path file contents, ok, w' =>
    Changes
      (fun w => w.updateBackup path fun backup =>
        { backup with files := Function.update backup.files file (some contents) }) w ok w'
  | .readManifest path, answer, w' =>
    (∀ manifest, answer = some manifest →
      ((w.backups path).getD {}).manifest = some manifest) ∧ w' = w
  | .replaceManifest path manifest, ok, w' =>
    Changes
      (fun w => w.updateBackup path fun backup => { backup with manifest := some manifest }) w ok w'
  | .migrate, ok, w' =>
    ∃ data, (ok = true → migrates w.data data) ∧ w' = { w with data := data }
  | .configure spec, ok, w' =>
    ∃ registration, (ok = true → ∃ enabled, registration = some ⟨spec, enabled⟩) ∧
      w' = { w with registration := registration }
  | .setEnabled enabled, ok, w' =>
    ∃ left, (ok = true → left = enabled) ∧
      w' = { w with registration := w.registration.map fun r => { r with enabled := left } }
  | .removeRegistration, ok, w' => Changes (fun w => { w with registration := none }) w ok w'
  | _, _, w' => w' = w

/-- An execution of a computation of the manager, which may be cut off. -/
abbrev Execution {α : Type} (work : Work α) (w : World) (out : Option α) (w' : World) : Prop :=
  Program.Exec (step manager migrates) work w out w'

/-- Any number of calls of `Open`, the last of which completes its recovery. -/
inductive Recovers : World → World → Prop where
  | completed {w w' : World} : Execution manager migrates (recover manager) w (some []) w' →
    Recovers w w'
  | again {w w' w'' : World} {out : Option (List Error)} :
    Execution manager migrates (recover manager) w out w' → Recovers w' w'' → Recovers w w''

end

/-! ### Installations -/

/-- The registration is the one that the state asks for. -/
def Matches (manager : Manager) (w : World) : Prop :=
  w.registration = w.state.map fun state => ⟨launchSpec manager state, state.enabled⟩

/-- The state, the registration and the data are as before. -/
structure Unchanged (before w : World) : Prop where
  state : w.state = before.state
  registration : w.registration = before.registration
  data : w.data = before.data

/-- The state after an operation that is completed. -/
def completedState (manager : Manager) (before : Option InstallationState) :
    Operation → Option InstallationState
  | .apply request => some { nextState manager request before with enabled := true }
  | .setEnabled enabled => before.map fun state => { state with enabled := enabled }
  | .uninstall => none

/-- The data after an operation that is completed. -/
def CompletedData (migrates : Data → Data → Prop) (before : Data) : Operation → Data → Prop
  | .apply _, data => migrates before data
  | _, data => data = before

/-- What an operation leaves when it is completed. -/
structure Completed (manager : Manager) (migrates : Data → Data → Prop) (before : World)
    (operation : Operation) (w : World) : Prop where
  state : w.state = completedState manager before.state operation
  registration : Matches manager w
  data : CompletedData migrates before.data operation w.data

end RlcdDeck.Installation
