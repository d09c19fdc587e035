import RlcdDeck.Installation.World

/-!
# A system with false reports

A system on which every call takes effect, and the calls of `faults` are reported as failed all the
same; with no such calls everything succeeds.  It is one of those that `step` allows
(`step_respond`), so that a run on it is an execution.
-/

namespace RlcdDeck.Installation

open Effects

/-- A removal, with what it does when it is reported as done and when it is reported as failed. -/
def respondRemoval (fault present : Bool) (effect : Removal → World → World) (w : World) :
    Removal × World :=
  if fault then (.failed, effect .failed w)
  else if present then (.removed, effect .removed w)
  else (.absent, w)

theorem removes_respondRemoval (fault present : Bool) (effect : Removal → World → World)
    (w : World) :
    Removes present (effect (respondRemoval fault present effect w).1) w
      (respondRemoval fault present effect w).1 (respondRemoval fault present effect w).2 := by
  unfold respondRemoval
  split_ifs with hfault hpresent
  · exact .inl rfl
  · exact rfl
  · exact ⟨by simpa using hpresent, rfl⟩

/-- The answers and the effects. -/
def respond (faults : Call → Bool) (w : World) : (call : Call) → Answer call × World
  | .contextErr => (false, w)
  | .now => (⟨ascii "20260813T000000.000000000Z", ascii "2026-08-13T00:00:00Z"⟩, w)
  | .readState => (w.state.elim .absent .found, w)
  | .replaceState state => (!faults (.replaceState state), { w with state := some state })
  | .removeState =>
    respondRemoval (faults .removeState) w.state.isSome (fun _ w => { w with state := none }) w
  | .readJournal => (w.journal.elim .absent .found, w)
  | .replaceJournal journal =>
    (!faults (.replaceJournal journal),
      { w with journal := some journal, stray := w.stray || faults (.replaceJournal journal) })
  | .removeJournal true =>
    respondRemoval (faults (.removeJournal true)) w.journal.isSome
      (fun removal w => { w with journal := none, commit := some (removal == .removed) }) w
  | .removeJournal false =>
    respondRemoval (faults (.removeJournal false)) w.journal.isSome
      (fun _ w => { w with journal := none }) w
  | .lstatSource _ => (some 1, w)
  | .lstatData _ => (.absent, w)
  | .availableBytes _ => (some (2 ^ 40), w)
  | .readSource path => ((w.programs path).elim (.error .unavailable) .ok, w)
  | .ensureDirectory _ => (true, w)
  | .replaceExecutable path contents =>
    (!faults (.replaceExecutable path contents),
      { w with programs := Function.update w.programs path (some contents) })
  | .chmodExecutable _ => (true, w)
  | .lstatExecutable _ => (true, w)
  | .readExecutable path => (w.programs path, w)
  | .mkdir path => (.created, { w with backups := Function.update w.backups path (some {}) })
  | .removeAll path => ((), { w with backups := Function.update w.backups path none })
  | .inspectData file => ((w.data file).elim .absent fun _ => .found (), w)
  | .readData file => (w.data file, w)
  | .replaceData file contents =>
    (!faults (.replaceData file contents),
      { w with data := Function.update w.data file (some contents) })
  | .removeData file =>
    respondRemoval (faults (.removeData file)) (w.data file).isSome
      (fun _ w => { w with data := Function.update w.data file none }) w
  | .readBackup path file => (((w.backups path).getD {}).files file, w)
  | .replaceBackup path file contents =>
    (!faults (.replaceBackup path file contents),
      w.updateBackup path fun backup =>
        { backup with files := Function.update backup.files file (some contents) })
  | .readManifest path => (((w.backups path).getD {}).manifest, w)
  | .replaceManifest path manifest =>
    (!faults (.replaceManifest path manifest),
      w.updateBackup path fun backup => { backup with manifest := some manifest })
  | .migrate => (!faults .migrate, w)
  | .configure spec =>
    (!faults (.configure spec), { w with registration := some ⟨spec, false⟩ })
  | .setEnabled enabled =>
    (!faults (.setEnabled enabled),
      { w with registration := w.registration.map fun r => { r with enabled := enabled } })
  | .removeRegistration => (!faults .removeRegistration, { w with registration := none })
  | .platformStatus => (none, w)

/-- **The system** does what `step` allows, when paths are canonical and the migration may leave the
data as they are. -/
theorem step_respond {manager : Manager} {migrates : Data → Data → Prop}
    (hcanonical : manager.canonical = id) (hmigrates : ∀ data, migrates data data)
    (faults : Call → Bool) (w : World) (call : Call) :
    step manager migrates w call (respond faults w call).1 (respond faults w call).2 := by
  cases call with
  | contextErr | now | lstatSource | lstatData | availableBytes | ensureDirectory
  | chmodExecutable | lstatExecutable | platformStatus => exact rfl
  | readState =>
    show Reads w.state w (w.state.elim .absent .found) w
    cases hstate : w.state with
    | none => exact ⟨rfl, rfl⟩
    | some state => exact ⟨rfl, rfl⟩
  | readJournal =>
    show Reads w.journal w (w.journal.elim .absent .found) w
    cases hjournal : w.journal with
    | none => exact ⟨rfl, rfl⟩
    | some journal => exact ⟨rfl, rfl⟩
  | replaceState | replaceBackup | replaceManifest | replaceData | removeRegistration =>
    exact .inl rfl
  | replaceJournal journal =>
    refine .inl ?_
    show World.mk _ _ _ _ _ _ _ (w.stray || faults _) = World.mk _ _ _ _ _ _ _ (w.stray || !!faults _)
    rw [Bool.not_not]
  | replaceExecutable path contents =>
    refine .inl ?_
    rw [hcanonical]
    rfl
  | removeState => exact removes_respondRemoval _ _ (fun _ w => { w with state := none }) w
  | removeData file =>
    exact removes_respondRemoval _ _
      (fun _ w => { w with data := Function.update w.data file none }) w
  | removeJournal commit =>
    cases commit with
    | true =>
      exact removes_respondRemoval _ _
        (fun removal w => { w with journal := none, commit := some (removal == .removed) }) w
    | false => exact removes_respondRemoval _ _ (fun _ w => { w with journal := none }) w
  | readSource path =>
    refine ⟨?_, rfl⟩
    intro contents hcontents
    replace hcontents : (w.programs path).elim (Except.error ErrorKind.unavailable) Except.ok =
        .ok contents := hcontents
    rw [hcanonical]
    cases hprogram : w.programs path with
    | none =>
      rw [hprogram] at hcontents
      cases hcontents
    | some program =>
      rw [hprogram] at hcontents
      cases hcontents
      exact hprogram
  | readExecutable path =>
    refine ⟨?_, rfl⟩
    intro contents hcontents
    rw [hcanonical]
    exact hcontents
  | mkdir => exact rfl
  | removeAll => exact ⟨none, rfl⟩
  | inspectData file =>
    refine ⟨?_, rfl⟩
    intro habsent
    replace habsent : (w.data file).elim Found.absent (fun _ => Found.found ()) = .absent := habsent
    cases hdata : w.data file with
    | none => rfl
    | some contents =>
      rw [hdata] at habsent
      cases habsent
  | readData => exact ⟨fun _ h => h, rfl⟩
  | readBackup => exact ⟨fun _ h => h, rfl⟩
  | readManifest => exact ⟨fun _ h => h, rfl⟩
  | migrate => exact ⟨w.data, fun _ => hmigrates w.data, rfl⟩
  | configure spec => exact ⟨some ⟨spec, false⟩, fun _ => ⟨false, rfl⟩, rfl⟩
  | setEnabled enabled => exact ⟨enabled, fun _ => rfl, rfl⟩

/-! ### A sample installation -/

/-- SHA-256 of the two programs of the sample. -/
def sampleSha256 (contents : List UInt8) : List UInt8 :=
  if contents = [1] then
    [75, 245, 18, 47, 52, 69, 84, 197, 59, 222, 46, 187, 140, 210, 183, 227, 209, 96, 10, 214, 49,
    195, 133, 165, 215, 204, 226, 60, 119, 133, 69, 154]
  else if contents = [2] then
    [219, 193, 180, 201, 0, 255, 228, 141, 87, 91, 93, 165, 198, 56, 4, 1, 37, 246, 93, 176, 254,
    62, 36, 73, 75, 118, 234, 152, 100, 87, 217, 134]
  else []

/-- A manager on a system without symbolic links. -/
def sampleManager : Manager where
  root := ⟨true, [ascii "home", ascii "installation"]⟩
  dataDirectory := ⟨true, [ascii "home", ascii "data"]⟩
  sameWord name other := decide (name = other)
  canonical := id
  executableName := ascii "s3deck-companion"
  sha256 := sampleSha256
  validTimestamp text := decide (text = ascii "2026-08-13T00:00:00Z")

/-- A request for version 0.1.0. -/
def sampleRequest : Request where
  sourceExecutable := ⟨true, [ascii "home", ascii "s3deck-companion"]⟩
  version := ascii "0.1.0"
  commit := ascii "0123456"
  deviceHubAddress := ascii "127.0.0.1:7780"

/-- Version 0.1.0, installed and not enabled. -/
def sampleState : InstallationState := nextState sampleManager sampleRequest none

/-- The installation of version 0.1.0, with another program where the request has its source. -/
def sampleWorld : World where
  state := some sampleState
  registration := some ⟨launchSpec sampleManager sampleState, false⟩
  programs path :=
    if path = sampleState.activeExecutable then some [1]
    else if path = sampleRequest.sourceExecutable then some [2]
    else none

theorem execution_respond (faults : Call → Bool) {α : Type} (work : Work α) (w : World) :
    Execution sampleManager Eq work w (some (work.run (respond faults) w).1)
      (work.run (respond faults) w).2 :=
  Program.Exec.of_run (step_respond rfl (fun _ => rfl) faults) work w

end RlcdDeck.Installation
