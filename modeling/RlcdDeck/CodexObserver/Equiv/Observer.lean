import Mathlib.Data.List.Induction
import RlcdDeck.CodexObserver.Observer

/-!
# What the observer infers

* A session is published as running only if its file was owned by one process in two polls, one
  right after the other, and grew in between (`RunningSince`).
* At most sixteen sessions are published, the newest first (`Ranked`).
* The order of what a snapshot lists does not matter, to no later poll either
  (`published_inferred`): the observations that two runs keep differ only where they have no owner,
  and there nothing else is read.
-/

namespace RlcdDeck.CodexObserver

open AiSnapshot.Companion (Session)
open Json (Bytes bytes)

variable {now : ℤ} {id : Bytes}

section

variable {Info : Type} {config : Config Info}

/-! ### Counted paths -/

theorem mem_countedPaths {valid seen paths : List Bytes} {path : Bytes} :
    path ∈ countedPaths valid seen paths ↔ path ∈ paths ∧ path ∈ valid ∧ path ∉ seen := by
  induction paths generalizing seen with
  | nil => simp [countedPaths]
  | cons head paths ih =>
    unfold countedPaths
    split_ifs with h
    · rw [ih, List.mem_cons]
      constructor
      · exact fun hp => ⟨Or.inr hp.1, hp.2⟩
      · rintro ⟨rfl | hp, hvalid, hseen⟩
        · exact absurd h (by simp [hvalid, hseen])
        · exact ⟨hp, hvalid, hseen⟩
    · push Not at h
      rw [List.mem_cons, ih, List.mem_cons, List.mem_cons, not_or]
      constructor
      · rintro (rfl | ⟨hp, hvalid, -, hseen⟩)
        · exact ⟨Or.inl rfl, h⟩
        · exact ⟨Or.inr hp, hvalid, hseen⟩
      · rintro ⟨rfl | hp, hvalid, hseen⟩
        · exact Or.inl rfl
        · by_cases heq : path = head
          · exact Or.inl heq
          · exact Or.inr ⟨hp, hvalid, heq, hseen⟩

theorem nodup_countedPaths (valid seen paths : List Bytes) :
    (countedPaths valid seen paths).Nodup := by
  induction paths generalizing seen with
  | nil => exact List.nodup_nil
  | cons head paths ih =>
    unfold countedPaths
    split_ifs with h
    · exact ih seen
    · rw [List.nodup_cons]
      exact ⟨fun hmem => (mem_countedPaths.mp hmem).2.2 List.mem_cons_self, ih _⟩

theorem length_countedPaths {valid valid' paths paths' : List Bytes}
    (hvalid : ∀ path, path ∈ valid ↔ path ∈ valid') (hpaths : paths.Perm paths') :
    (countedPaths valid [] paths).length = (countedPaths valid' [] paths').length := by
  refine List.Perm.length_eq ?_
  rw [List.perm_ext_iff_of_nodup (nodup_countedPaths ..) (nodup_countedPaths ..)]
  intro path
  rw [mem_countedPaths, mem_countedPaths, hvalid, hpaths.mem_iff]

/-! ### Owners -/

/-- The file has one owner, and that process has no other candidate file. -/
structure ExclusivelyOwned (config : Config Info) (snapshot : DiscoverySnapshot Info) (now : ℤ)
    (file : FileCandidate Info) (process : ProcessIdentity) : Prop where
  opened : ∃ observation ∈ snapshot.processes,
    observation.identity = process ∧ file.path ∈ observation.openFiles
  owner : ∀ observation ∈ snapshot.processes, file.path ∈ observation.openFiles →
    observation.identity = process
  only : ∀ observation ∈ snapshot.processes, observation.identity = process →
    ∀ path ∈ observation.openFiles, path ∈ validPaths config snapshot now → path = file.path

theorem exclusivelyOwned {snapshot : DiscoverySnapshot Info} {file : FileCandidate Info}
    {process : ProcessIdentity} (hvalid : file.path ∈ validPaths config snapshot now)
    (howners : pathProcesses config snapshot now file.path = [process])
    (hcandidates : processCandidates config snapshot now process = 1) :
    ExclusivelyOwned config snapshot now file process := by
  have hcounted : ∀ observation : ProcessObservation, ∀ path, path ∈ countedPaths
      (validPaths config snapshot now) [] observation.openFiles ↔
        path ∈ observation.openFiles ∧ path ∈ validPaths config snapshot now := by
    intro observation path
    rw [mem_countedPaths]
    simp
  have hmem : ∀ identity, identity ∈ pathProcesses config snapshot now file.path ↔
      ∃ observation ∈ snapshot.processes,
        file.path ∈ observation.openFiles ∧ observation.identity = identity := by
    intro identity
    simp only [pathProcesses, List.mem_map, List.mem_filter, hcounted, hvalid, and_true,
      decide_eq_true_eq, and_assoc]
  obtain ⟨observation, hobservation, hopen, hidentity⟩ :=
    (hmem process).mp (by rw [howners]; exact List.mem_singleton_self _)
  have hlength : ((snapshot.processes.filter fun observation =>
      observation.identity = process).flatMap fun observation =>
        countedPaths (validPaths config snapshot now) [] observation.openFiles).length = 1 := by
    rw [List.length_flatMap]
    exact hcandidates
  obtain ⟨single, hsingle⟩ := List.length_eq_one_iff.mp hlength
  have hall : ∀ other ∈ snapshot.processes, other.identity = process →
      ∀ path ∈ other.openFiles, path ∈ validPaths config snapshot now → path = single := by
    intro other hother hidentity path hpath hvalid
    refine List.mem_singleton.mp (hsingle ▸ List.mem_flatMap.mpr ⟨other, ?_, ?_⟩)
    · exact List.mem_filter.mpr ⟨hother, by simpa using hidentity⟩
    · exact (hcounted other path).mpr ⟨hpath, hvalid⟩
  exact {
    opened := ⟨observation, hobservation, hidentity, hopen⟩
    owner := fun other hother hpath => List.mem_singleton.mp
      (howners ▸ (hmem _).mpr ⟨other, hother, hpath, rfl⟩)
    only := fun other hother hid path hpath hcandidate =>
      (hall other hother hid path hpath hcandidate).trans
        (hall observation hobservation hidentity _ hopen hvalid).symm }

/-! ### The state of one file -/

/-- What `inferState` can find: a file without an owner that is not running, or one with its owner,
which is running if it was seen before and has grown. -/
inductive Inferred (config : Config Info) (snapshot : DiscoverySnapshot Info) (now : ℤ)
    (candidate : FileCandidate Info) (prior : PriorObservation Info) :
    Bytes × PriorObservation Info → Prop where
  | unowned {state : Bytes} (hstate : state ≠ bytes "running") :
      Inferred config snapshot now candidate prior (state, candidate.observation)
  | owned {state : Bytes} {process : ProcessIdentity}
      (howners : pathProcesses config snapshot now candidate.path = [process])
      (hcandidates : processCandidates config snapshot now process = 1)
      (hrunning : state = bytes "running" → prior.hasOwner = true ∧ prior.process = process ∧
        isSameFile config prior candidate = true ∧ prior.size < candidate.size) :
      Inferred config snapshot now candidate prior
        (state, { candidate.observation with process := process, hasOwner := true })

theorem inferState_inferred (config : Config Info) (snapshot : DiscoverySnapshot Info) (now : ℤ)
    (candidate : FileCandidate Info) (prior : PriorObservation Info) :
    Inferred config snapshot now candidate prior
      (inferState config snapshot candidate prior now) := by
  have hunknown : bytes "unknown" ≠ bytes "running" := by decide
  have hrecent : bytes "recent" ≠ bytes "running" := by decide
  have hended : bytes "ended" ≠ bytes "running" := by decide
  unfold inferState
  generalize decide (sub now candidate.modified ≤ config.recentWindow) = recent
  by_cases hfuture : now < candidate.modified
  · rw [if_pos hfuture]
    exact .unowned hunknown
  by_cases hoverflow : snapshot.candidatesOverflow
  · rw [if_neg hfuture, if_pos hoverflow]
    exact .unowned hunknown
  rw [if_neg hfuture, if_neg hoverflow]
  by_cases hweak : snapshot.strength = .weak
  · rw [if_pos hweak]
    split_ifs
    · exact .unowned hunknown
    · exact .unowned hrecent
    · exact .unowned hended
  rw [if_neg hweak]
  split
  · rename_i owner howners
    by_cases hcandidates : processCandidates config snapshot now owner = 1
    · rw [if_pos hcandidates]
      dsimp only
      split_ifs with hrunning
      · simp only [Bool.and_eq_true, decide_eq_true_eq] at hrunning
        exact .owned howners hcandidates fun _ =>
          ⟨hrunning.1.1.1, hrunning.1.1.2, hrunning.1.2, hrunning.2⟩
      · exact .owned howners hcandidates fun h => absurd h hrecent
      · exact .owned howners hcandidates fun h => absurd h hunknown
    · rw [if_neg hcandidates]
      exact .unowned hunknown
  · exact .unowned hunknown
  · split_ifs
    · exact .unowned hrecent
    · exact .unowned hended

/-- The only file of a session, with its owner. -/
structure OwnedFile (config : Config Info) (snapshot : DiscoverySnapshot Info) (now : ℤ)
    (id : Bytes) (file : FileCandidate Info) (process : ProcessIdentity) : Prop where
  single : filesById config snapshot now id = [file]
  owned : ExclusivelyOwned config snapshot now file process

theorem visit_cons (previous : Previous Info) (snapshot : DiscoverySnapshot Info) (now : ℤ)
    (id : Bytes) (file : FileCandidate Info) (others : List (FileCandidate Info)) :
    visit config previous snapshot now id (file :: others) =
      some (sessionOf now id (inferSession config snapshot now (previous id) file others).1 file,
        (inferSession config snapshot now (previous id) file others).2) :=
  rfl

theorem inferSession_nil (snapshot : DiscoverySnapshot Info) (now : ℤ)
    (prior : PriorObservation Info) (file : FileCandidate Info) :
    inferSession config snapshot now prior file [] = inferState config snapshot file prior now :=
  rfl

theorem inferSession_cons (snapshot : DiscoverySnapshot Info) (now : ℤ)
    (prior : PriorObservation Info) (file other : FileCandidate Info)
    (others : List (FileCandidate Info)) :
    inferSession config snapshot now prior file (other :: others) =
      (bytes "unknown", file.observation) :=
  rfl

theorem path_mem_validPaths {snapshot : DiscoverySnapshot Info} {file : FileCandidate Info}
    (h : file ∈ filesById config snapshot now id) : file.path ∈ validPaths config snapshot now := by
  rw [filesById, List.mem_filter, decide_eq_true_eq] at h
  refine List.mem_map.mpr ⟨file, List.mem_filter.mpr ⟨h.1, ?_⟩, rfl⟩
  rw [h.2]
  rfl

theorem visit_inferred {previous : Previous Info} {snapshot : DiscoverySnapshot Info}
    (iteration : Iteration config snapshot now) {id : Bytes} {result : Result}
    {current : PriorObservation Info}
    (h : visit config previous snapshot now id (iteration.files id) = some (result, current)) :
    result.session.state ≠ bytes "running" ∧ current.hasOwner = false ∨
      ∃ file process, OwnedFile config snapshot now id file process ∧
        current = { file.observation with process := process, hasOwner := true } ∧
        (result.session.state = bytes "running" → (previous id).hasOwner = true ∧
          (previous id).process = process ∧ isSameFile config (previous id) file = true ∧
            (previous id).size < file.size) := by
  have hunknown : bytes "unknown" ≠ bytes "running" := by decide
  cases hfiles : iteration.files id with
  | nil =>
    rw [hfiles] at h
    cases h
  | cons file others =>
    rw [hfiles, visit_cons] at h
    obtain ⟨rfl, rfl⟩ := Prod.mk.inj (Option.some.inj h)
    cases others with
    | cons other others =>
      rw [inferSession_cons]
      exact Or.inl ⟨hunknown, rfl⟩
    | nil =>
      have hperm := iteration.files_perm id
      rw [hfiles] at hperm
      have hsingle : filesById config snapshot now id = [file] := List.perm_singleton.mp hperm.symm
      have hvalid : file.path ∈ validPaths config snapshot now :=
        path_mem_validPaths (hsingle ▸ List.mem_singleton_self file)
      have hinferred := inferState_inferred config snapshot now file (previous id)
      rw [inferSession_nil]
      generalize inferState config snapshot file (previous id) now = inferred at hinferred ⊢
      cases hinferred with
      | unowned hstate => exact Or.inl ⟨hstate, rfl⟩
      | owned howners hcandidates hrunning =>
        exact Or.inr ⟨file, _, ⟨hsingle, exclusivelyOwned hvalid howners hcandidates⟩, rfl,
          hrunning⟩

/-! ### Two polls in a row -/

/-- What two polls see is one file. -/
def SameFile (config : Config Info) (earlier later : FileCandidate Info) : Prop :=
  match earlier.info, later.info with
  | some info, some info' => config.sameFile info info' = true
  | _, _ => earlier.path = later.path

theorem isSameFile_observation {earlier later : FileCandidate Info}
    {process : ProcessIdentity} {hasOwner : Bool}
    (h : isSameFile config { earlier.observation with process, hasOwner } later = true) :
    SameFile config earlier later := by
  unfold isSameFile FileCandidate.observation at h
  unfold SameFile
  cases hearlier : earlier.info with
  | none =>
    simp only [hearlier] at h
    exact eq_of_beq h
  | some info =>
    cases hlater : later.info with
    | none =>
      simp only [hearlier, hlater] at h
      exact eq_of_beq h
    | some info' =>
      simp only [hearlier, hlater] at h
      exact h

/-- The last two polls discovered the session: one process owned its file in both, and the file
grew. -/
inductive RunningSince (id : Bytes) : List (Poll config) → Prop where
  | grown {earlier : List (Poll config)} {snapshot snapshot' : DiscoverySnapshot Info}
      {now now' : ℤ}
      {iteration : Iteration config snapshot now} {iteration' : Iteration config snapshot' now'}
      {file file' : FileCandidate Info} {process : ProcessIdentity}
      (before : OwnedFile config snapshot now id file process)
      (owned : OwnedFile config snapshot' now' id file' process)
      (same : SameFile config file file') (size : file.size < file'.size) :
      RunningSince id (earlier ++ [.discovered snapshot now iteration] ++
        [.discovered snapshot' now' iteration'])

theorem after_concat (polls : List (Poll config)) (poll : Poll config) :
    after (polls ++ [poll]) = (publishOnce (after polls) poll).2 := by
  rw [after, List.foldl_append]
  rfl

theorem after_hasOwner {polls : List (Poll config)} (h : (after polls id).hasOwner = true) :
    ∃ earlier snapshot now, ∃ iteration : Iteration config snapshot now, ∃ file process,
      polls = earlier ++ [.discovered snapshot now iteration] ∧
      OwnedFile config snapshot now id file process ∧
      after polls id = { file.observation with process := process, hasOwner := true } := by
  induction polls using List.reverseRecOn with
  | nil => cases h
  | append_singleton earlier poll _ =>
    rw [after_concat] at h ⊢
    cases poll with
    | failed => cases h
    | discovered snapshot now iteration =>
      have hkept : (publishOnce (after earlier) (.discovered snapshot now iteration)).2 id =
          ((visit config (after earlier) snapshot now id (iteration.files id)).map
            Prod.snd).getD {} := rfl
      rw [hkept] at h ⊢
      cases hvisit : visit config (after earlier) snapshot now id (iteration.files id) with
      | none =>
        rw [hvisit] at h
        cases h
      | some kept =>
        rw [hvisit] at h
        obtain ⟨-, hnone⟩ | ⟨file, process, howned, hcurrent, -⟩ := visit_inferred iteration hvisit
        · exact absurd h (by simp [hnone])
        · exact ⟨earlier, snapshot, now, iteration, file, process, rfl, howned, hcurrent⟩

theorem visit_running {polls : List (Poll config)} {snapshot : DiscoverySnapshot Info}
    (iteration : Iteration config snapshot now) {id : Bytes} {result : Result}
    {current : PriorObservation Info}
    (h : visit config (after polls) snapshot now id (iteration.files id) = some (result, current))
    (hstate : result.session.state = bytes "running") :
    RunningSince id (polls ++ [.discovered snapshot now iteration]) := by
  obtain ⟨hnot, -⟩ | ⟨file, process, howned, -, hrunning⟩ := visit_inferred iteration h
  · exact absurd hstate hnot
  · obtain ⟨hprior, hprocess, hsame, hsize⟩ := hrunning hstate
    obtain ⟨earlier, snapshot', now', iteration', file', process', rfl, hbefore, hkept⟩ :=
      after_hasOwner hprior
    rw [hkept] at hprocess hsame hsize
    obtain rfl : process' = process := hprocess
    exact .grown hbefore howned (isSameFile_observation hsame) hsize

/-! ### The results -/

/-- `results`, before they are sorted. -/
def results (config : Config Info) (previous : Previous Info) (snapshot : DiscoverySnapshot Info)
    (now : ℤ) (iteration : Iteration config snapshot now) : List Result :=
  iteration.ids.filterMap fun id =>
    (visit config previous snapshot now id (iteration.files id)).map Prod.fst

theorem collect_fst (previous : Previous Info) (snapshot : DiscoverySnapshot Info) (now : ℤ)
    (iteration : Iteration config snapshot now) :
    (collect config previous snapshot now iteration).1 =
      (((results config previous snapshot now iteration).insertionSort Result.before).take
        maximumSessions).map Result.session :=
  rfl

theorem mem_results {previous : Previous Info} {snapshot : DiscoverySnapshot Info}
    {iteration : Iteration config snapshot now} {result : Result}
    (h : result ∈ results config previous snapshot now iteration) :
    ∃ id current, visit config previous snapshot now id (iteration.files id) =
      some (result, current) := by
  obtain ⟨id, -, hid⟩ := List.mem_filterMap.mp h
  obtain ⟨⟨result', current⟩, hvisit, rfl⟩ := Option.map_eq_some_iff.mp hid
  exact ⟨id, current, hvisit⟩

theorem visit_id {previous : Previous Info} {snapshot : DiscoverySnapshot Info}
    {files : List (FileCandidate Info)} {result : Result} {current : PriorObservation Info}
    (h : visit config previous snapshot now id files = some (result, current)) :
    result.session.id = id := by
  cases files with
  | nil => cases h
  | cons file others =>
    rw [visit_cons] at h
    obtain ⟨rfl, -⟩ := Prod.mk.inj (Option.some.inj h)
    rfl

/-- The time at which the files of a session were last modified. -/
structure LastModified (config : Config Info) (snapshot : DiscoverySnapshot Info) (now : ℤ)
    (id : Bytes) (time : ℤ) : Prop where
  attained : ∃ file ∈ filesById config snapshot now id, file.modified = time
  greatest : ∀ file ∈ filesById config snapshot now id, file.modified ≤ time

theorem LastModified.unique {snapshot : DiscoverySnapshot Info} {time time' : ℤ}
    (h : LastModified config snapshot now id time)
    (h' : LastModified config snapshot now id time') : time = time' := by
  obtain ⟨file, hfile, rfl⟩ := h.attained
  obtain ⟨file', hfile', rfl⟩ := h'.attained
  exact le_antisymm (h'.greatest file hfile) (h.greatest file' hfile')

theorem lastModified_of_files {snapshot : DiscoverySnapshot Info}
    (iteration : Iteration config snapshot now) {id : Bytes} {file : FileCandidate Info}
    {others : List (FileCandidate Info)} (h : iteration.files id = file :: others) :
    LastModified config snapshot now id file.modified := by
  have hperm := iteration.files_perm id
  have hsorted := iteration.sorted id
  rw [h] at hperm hsorted
  refine ⟨⟨file, hperm.mem_iff.mp List.mem_cons_self, rfl⟩, fun other hother => ?_⟩
  rcases List.mem_cons.mp (hperm.mem_iff.mpr hother) with rfl | hother
  · exact le_refl _
  · have hbefore := (List.pairwise_cons.mp hsorted).1 other hother
    unfold fileBefore at hbefore
    split_ifs at hbefore with hne
    · exact not_lt.mp hbefore
    · push Not at hne
      exact hne.le

theorem visit_updated {previous : Previous Info} {snapshot : DiscoverySnapshot Info}
    (iteration : Iteration config snapshot now) {id : Bytes} {result : Result}
    {current : PriorObservation Info}
    (h : visit config previous snapshot now id (iteration.files id) = some (result, current)) :
    LastModified config snapshot now id result.updated := by
  cases hfiles : iteration.files id with
  | nil =>
    rw [hfiles] at h
    cases h
  | cons file others =>
    rw [hfiles, visit_cons] at h
    obtain ⟨rfl, -⟩ := Prod.mk.inj (Option.some.inj h)
    exact lastModified_of_files iteration hfiles

instance : Std.Total Result.before :=
  ⟨fun a b => by
    rcases lt_trichotomy a.updated b.updated with h | h | h
    · exact Or.inr (Or.inl h)
    · rcases List.le_total a.session.id b.session.id with hid | hid
      · exact Or.inl (Or.inr ⟨h, hid⟩)
      · exact Or.inr (Or.inr ⟨h.symm, hid⟩)
    · exact Or.inl (Or.inl h)⟩

instance : IsTrans Result Result.before :=
  ⟨fun a b c hab hbc => by
    rcases hab with hab | ⟨hab, hids⟩ <;> rcases hbc with hbc | ⟨hbc, hids'⟩
    · exact Or.inl (hbc.trans hab)
    · exact Or.inl (hbc ▸ hab)
    · exact Or.inl (hab ▸ hbc)
    · exact Or.inr ⟨hab.trans hbc, List.le_trans hids hids'⟩⟩

theorem nodup_ids {snapshot : DiscoverySnapshot Info} (iteration : Iteration config snapshot now) :
    iteration.ids.Nodup :=
  iteration.ids_perm.nodup_iff.mpr (List.nodup_dedup _)

theorem nodup_results {previous : Previous Info} {snapshot : DiscoverySnapshot Info}
    (iteration : Iteration config snapshot now) :
    ((results config previous snapshot now iteration).map fun result =>
      result.session.id).Nodup := by
  have hids : (results config previous snapshot now iteration).map
      (fun result => result.session.id) = iteration.ids.filter fun id =>
        (visit config previous snapshot now id (iteration.files id)).isSome := by
    unfold results
    generalize iteration.ids = ids
    induction ids with
    | nil => rfl
    | cons id ids ih =>
      cases hvisit : visit config previous snapshot now id (iteration.files id) with
      | none => simp [hvisit, ih]
      | some kept =>
        have hid : kept.1.session.id = id := visit_id hvisit
        simp [hvisit, ih, hid]
  rw [hids]
  exact (nodup_ids iteration).filter _

theorem pairwise_sorted (previous : Previous Info) {snapshot : DiscoverySnapshot Info} {now : ℤ}
    (iteration : Iteration config snapshot now) :
    ((results config previous snapshot now iteration).insertionSort Result.before).Pairwise
      fun a b => Result.before a b ∧ a.session.id ≠ b.session.id := by
  refine List.Pairwise.and (List.pairwise_insertionSort _ _) ?_
  have hnodup : ((results config previous snapshot now iteration).map fun result =>
      result.session.id).Nodup := nodup_results iteration
  rw [← ((List.perm_insertionSort Result.before _).map _).nodup_iff] at hnodup
  exact List.pairwise_map.mp hnodup

/-- What a poll publishes of a snapshot: at most sixteen sessions, each once, the newest first, and
those of one time by identifier. -/
structure Ranked (config : Config Info) (snapshot : DiscoverySnapshot Info) (now : ℤ)
    (sessions : List Session) : Prop where
  length : sessions.length ≤ 16
  distinct : (sessions.map Session.id).Nodup
  ordered : sessions.Pairwise fun a b => ∃ time time',
    LastModified config snapshot now a.id time ∧ LastModified config snapshot now b.id time' ∧
      (time' < time ∨ time = time' ∧ a.id < b.id)

theorem collect_ranked (previous : Previous Info) {snapshot : DiscoverySnapshot Info} {now : ℤ}
    (iteration : Iteration config snapshot now) :
    Ranked config snapshot now (collect config previous snapshot now iteration).1 := by
  have hsorted := (pairwise_sorted previous iteration).sublist
    (List.take_sublist maximumSessions _)
  rw [collect_fst]
  constructor
  · rw [List.length_map, List.length_take]
    exact Nat.min_le_left _ _
  · rw [List.map_map, List.Nodup, List.pairwise_map]
    exact hsorted.imp And.right
  · rw [List.pairwise_map]
    refine hsorted.imp_of_mem fun {a b} ha hb hab => ?_
    have hupdated : ∀ result ∈ ((results config previous snapshot now iteration).insertionSort
        Result.before).take maximumSessions,
        LastModified config snapshot now result.session.id result.updated := by
      intro result hresult
      obtain ⟨id, current, hvisit⟩ := mem_results
        ((List.mem_insertionSort _).mp (List.mem_of_mem_take hresult))
      rw [visit_id hvisit]
      exact visit_updated iteration hvisit
    refine ⟨a.updated, b.updated, hupdated a ha, hupdated b hb, ?_⟩
    obtain ⟨hnewer | ⟨htime, hid⟩, hne⟩ := hab
    · exact Or.inl hnewer
    · exact Or.inr ⟨htime, Std.lt_of_le_of_ne hid hne⟩

/-! ### The order of what a snapshot lists -/

/-- One process, with its open files in any order. -/
def SameProcess (p q : ProcessObservation) : Prop :=
  p.identity = q.identity ∧ p.openFiles.Perm q.openFiles

/-- Snapshots that list the same files and the same processes, each in any order. -/
structure Permuted (a b : DiscoverySnapshot Info) : Prop where
  strength : a.strength = b.strength
  overflow : a.candidatesOverflow = b.candidatesOverflow
  files : a.files.Perm b.files
  processes : ∃ processes, a.processes.Perm processes ∧
    List.Forall₂ SameProcess processes b.processes

theorem filter_map_eq {α : Type} {p q : ProcessObservation → Bool} {f g : ProcessObservation → α}
    {processes processes' : List ProcessObservation}
    (h : List.Forall₂ SameProcess processes processes')
    (hpq : ∀ a b, SameProcess a b → p a = q b) (hfg : ∀ a b, SameProcess a b → f a = g b) :
    (processes.filter p).map f = (processes'.filter q).map g := by
  induction h with
  | nil => rfl
  | cons hhead _ ih =>
    rw [List.filter_cons, List.filter_cons, hpq _ _ hhead]
    split_ifs
    · rw [List.map_cons, List.map_cons, ih, hfg _ _ hhead]
    · exact ih

section

variable {a b : DiscoverySnapshot Info}

theorem Permuted.perm_processes (h : Permuted a b) {α : Type} {p q : ProcessObservation → Bool}
    {f g : ProcessObservation → α} (hpq : ∀ a b, SameProcess a b → p a = q b)
    (hfg : ∀ a b, SameProcess a b → f a = g b) :
    ((a.processes.filter p).map f).Perm ((b.processes.filter q).map g) := by
  obtain ⟨processes, hperm, hsame⟩ := h.processes
  rw [← filter_map_eq hsame hpq hfg]
  exact (hperm.filter p).map f

theorem Permuted.isEmpty_processes (h : Permuted a b) :
    a.processes.isEmpty = b.processes.isEmpty := by
  obtain ⟨processes, hperm, hsame⟩ := h.processes
  have hlength : a.processes.length = b.processes.length :=
    hperm.length_eq.trans hsame.length_eq
  rw [Bool.eq_iff_iff, List.isEmpty_iff_length_eq_zero, List.isEmpty_iff_length_eq_zero, hlength]

theorem Permuted.perm_identifiers (h : Permuted a b) (now : ℤ) :
    (identifiers config a now).Perm (identifiers config b now) :=
  (h.files.filterMap _).dedup

theorem Permuted.perm_filesById (h : Permuted a b) (now : ℤ) (id : Bytes) :
    (filesById config a now id).Perm (filesById config b now id) :=
  h.files.filter _

theorem Permuted.mem_validPaths (h : Permuted a b) (now : ℤ) (path : Bytes) :
    path ∈ validPaths config a now ↔ path ∈ validPaths config b now :=
  ((h.files.filter _).map _).mem_iff

theorem Permuted.perm_pathProcesses (h : Permuted a b) (now : ℤ) (path : Bytes) :
    (pathProcesses config a now path).Perm (pathProcesses config b now path) := by
  refine h.perm_processes (fun p q hpq => ?_) fun p q hpq => hpq.1
  rw [decide_eq_decide, mem_countedPaths, mem_countedPaths, hpq.2.mem_iff, h.mem_validPaths]

theorem Permuted.processCandidates_eq (h : Permuted a b) (now : ℤ) (identity : ProcessIdentity) :
    processCandidates config a now identity = processCandidates config b now identity := by
  refine (h.perm_processes (fun p q hpq => ?_) fun p q hpq => ?_).sum_nat
  · rw [hpq.1]
  · exact length_countedPaths (h.mem_validPaths now) hpq.2

/-- What is kept of a session in two runs: the same, if it has an owner. -/
structure Kept (prior prior' : PriorObservation Info) : Prop where
  hasOwner : prior.hasOwner = prior'.hasOwner
  owned : prior.hasOwner = true → prior = prior'

theorem Permuted.inferState_eq (h : Permuted a b) {prior prior' : PriorObservation Info}
    (hkept : Kept prior prior') (candidate : FileCandidate Info) (now : ℤ) :
    inferState config a candidate prior now = inferState config b candidate prior' now := by
  have hgrown : ∀ owner, (prior.hasOwner && prior.process = owner &&
      isSameFile config prior candidate && prior.size < candidate.size) =
        (prior'.hasOwner && prior'.process = owner && isSameFile config prior' candidate &&
          prior'.size < candidate.size) := by
    intro owner
    cases hhas : prior.hasOwner with
    | false => simp [← hkept.hasOwner, hhas]
    | true => rw [← hkept.owned hhas, hhas]
  have howners : (pathProcesses config a now candidate.path).Perm
      (pathProcesses config b now candidate.path) := h.perm_pathProcesses now candidate.path
  unfold inferState
  rw [h.strength, h.overflow, h.isEmpty_processes]
  cases howner : pathProcesses config a now candidate.path with
  | nil =>
    rw [howner] at howners
    rw [← howners.nil_eq]
  | cons owner others =>
    rw [howner] at howners
    cases others with
    | nil =>
      rw [List.singleton_perm.mp howners]
      simp only [h.processCandidates_eq, hgrown]
    | cons other others =>
      have hlength := howners.length_eq
      cases howner' : pathProcesses config b now candidate.path with
      | nil => simp [howner'] at hlength
      | cons owner' others' =>
        cases others' with
        | nil => simp [howner'] at hlength
        | cons => rfl

theorem Kept.refl (prior : PriorObservation Info) : Kept prior prior :=
  ⟨rfl, fun _ => rfl⟩

theorem Permuted.lastModified (h : Permuted a b) {now : ℤ} {id : Bytes} {time : ℤ}
    (htime : LastModified config a now id time) : LastModified config b now id time := by
  have hfile : ∀ file, file ∈ filesById config a now id ↔ file ∈ filesById config b now id :=
    fun _ => (h.perm_filesById now id).mem_iff
  obtain ⟨file, hmem, hmodified⟩ := htime.attained
  exact ⟨⟨file, (hfile file).mp hmem, hmodified⟩,
    fun other hother => htime.greatest other ((hfile other).mpr hother)⟩

/-- In two runs that agree on what is kept of a session, a poll makes the same of it. -/
theorem Permuted.visit_eq (h : Permuted a b) {now : ℤ} (iteration : Iteration config a now)
    (iteration' : Iteration config b now) {previous previous' : Previous Info} {id : Bytes}
    (hkept : Kept (previous id) (previous' id)) :
    (visit config previous a now id (iteration.files id)).map Prod.fst =
        (visit config previous' b now id (iteration'.files id)).map Prod.fst ∧
      Kept (((visit config previous a now id (iteration.files id)).map Prod.snd).getD {})
        (((visit config previous' b now id (iteration'.files id)).map Prod.snd).getD {}) := by
  have hperm : (iteration.files id).Perm (iteration'.files id) :=
    (iteration.files_perm id).trans
      ((h.perm_filesById now id).trans (iteration'.files_perm id).symm)
  cases hfiles : iteration.files id with
  | nil =>
    rw [hfiles] at hperm
    rw [← hperm.nil_eq]
    exact ⟨rfl, Kept.refl _⟩
  | cons file others =>
    cases hfiles' : iteration'.files id with
    | nil =>
      rw [hfiles, hfiles'] at hperm
      exact absurd hperm.length_eq (Nat.succ_ne_zero _)
    | cons file' others' =>
      have hmodified : file.modified = file'.modified :=
        (h.lastModified (lastModified_of_files iteration hfiles)).unique
          (lastModified_of_files iteration' hfiles')
      have hlength := hperm.length_eq
      rw [hfiles, hfiles', List.length_cons, List.length_cons, Nat.add_right_cancel_iff] at hlength
      rw [visit_cons, visit_cons]
      cases others with
      | nil =>
        obtain rfl : others' = [] := List.length_eq_zero_iff.mp hlength.symm
        rw [hfiles, hfiles', List.singleton_perm_singleton] at hperm
        subst hperm
        rw [inferSession_nil, inferSession_nil, h.inferState_eq hkept]
        exact ⟨rfl, Kept.refl _⟩
      | cons other others =>
        cases others' with
        | nil => exact absurd hlength (Nat.succ_ne_zero _)
        | cons other' others' =>
          -- what is kept may differ, but without an owner nothing reads it
          have hsession : sessionOf now id (bytes "unknown") file =
              sessionOf now id (bytes "unknown") file' := by
            rw [sessionOf, sessionOf, hmodified]
          rw [inferSession_cons, inferSession_cons]
          exact ⟨congrArg some hsession, rfl, fun howner => absurd howner Bool.false_ne_true⟩

theorem Permuted.collect_eq (h : Permuted a b) {now : ℤ} (iteration : Iteration config a now)
    (iteration' : Iteration config b now) {previous previous' : Previous Info}
    (hkept : ∀ id, Kept (previous id) (previous' id)) :
    (collect config previous a now iteration).1 = (collect config previous' b now iteration').1 ∧
      ∀ id, Kept ((collect config previous a now iteration).2 id)
        ((collect config previous' b now iteration').2 id) := by
  refine ⟨?_, fun id => (h.visit_eq iteration iteration' (hkept id)).2⟩
  have hresults : (results config previous a now iteration).Perm
      (results config previous' b now iteration') := by
    have hround : (fun id => (visit config previous a now id (iteration.files id)).map Prod.fst) =
        fun id => (visit config previous' b now id (iteration'.files id)).map Prod.fst :=
      funext fun id => (h.visit_eq iteration iteration' (hkept id)).1
    rw [results, results, hround]
    exact (iteration.ids_perm.trans
      ((h.perm_identifiers now).trans iteration'.ids_perm.symm)).filterMap _
  have hsorted : (results config previous a now iteration).insertionSort Result.before =
      (results config previous' b now iteration').insertionSort Result.before := by
    refine List.Perm.eq_of_pairwise (fun first second _ _ hab hba => ?_)
      (pairwise_sorted previous iteration) (pairwise_sorted previous' iteration')
      ((List.perm_insertionSort _ _).trans (hresults.trans (List.perm_insertionSort _ _).symm))
    obtain ⟨hnewer | ⟨htime, hid⟩, hne⟩ := hab
    · obtain hnewer' | ⟨htime', -⟩ := hba.1
      · exact absurd hnewer' hnewer.asymm
      · exact absurd htime' hnewer.ne
    · obtain hnewer' | ⟨-, hid'⟩ := hba.1
      · exact absurd htime hnewer'.ne
      · exact absurd (List.le_antisymm hid hid') hne
  rw [collect_fst, collect_fst, hsorted]

/-- Polls that find the same, in whatever order it is listed. -/
inductive Poll.Alike : Poll config → Poll config → Prop where
  | failed : Alike .failed .failed
  | discovered {a b : DiscoverySnapshot Info} {now : ℤ} {iteration : Iteration config a now}
      {iteration' : Iteration config b now} (h : Permuted a b) :
      Alike (.discovered a now iteration) (.discovered b now iteration')

theorem publishOnce_alike {previous previous' : Previous Info} {poll poll' : Poll config}
    (h : poll.Alike poll') (hkept : ∀ id, Kept (previous id) (previous' id)) :
    (publishOnce previous poll).1 = (publishOnce previous' poll').1 ∧
      ∀ id, Kept ((publishOnce previous poll).2 id) ((publishOnce previous' poll').2 id) := by
  cases h with
  | failed => exact ⟨rfl, fun _ => Kept.refl _⟩
  | discovered h => exact h.collect_eq _ _ hkept

theorem after_alike {polls polls' : List (Poll config)}
    (h : List.Forall₂ Poll.Alike polls polls') (id : Bytes) :
    Kept (after polls id) (after polls' id) := by
  have hfold : ∀ previous previous' : Previous Info, (∀ id, Kept (previous id) (previous' id)) →
      ∀ id, Kept (polls.foldl (fun previous poll => (publishOnce previous poll).2) previous id)
        (polls'.foldl (fun previous poll => (publishOnce previous poll).2) previous' id) := by
    induction h with
    | nil => exact fun _ _ hkept => hkept
    | cons hpoll _ ih =>
      exact fun previous previous' hkept => ih _ _ (publishOnce_alike hpoll hkept).2
  exact hfold _ _ (fun _ => Kept.refl _) id

end

/-! ### Every run -/

/-- What the observer publishes, after any polls: a session is running only if one process owned its
file in this poll and the one before, and the file grew; the sessions of a snapshot are ranked; and
the order of what the snapshots list does not matter. -/
theorem published_inferred (config : Config Info) :
    (∀ (polls : List (Poll config)) (poll : Poll config), ∀ session ∈ published polls poll,
      session.state = bytes "running" → RunningSince session.id (polls ++ [poll])) ∧
    (∀ (polls : List (Poll config)) (snapshot : DiscoverySnapshot Info) (now : ℤ)
      (iteration : Iteration config snapshot now),
      Ranked config snapshot now (published polls (.discovered snapshot now iteration))) ∧
    ∀ (polls polls' : List (Poll config)) (poll poll' : Poll config),
      List.Forall₂ Poll.Alike polls polls' → poll.Alike poll' →
        published polls poll = published polls' poll' := by
  refine ⟨fun polls poll session hsession hstate => ?_, fun polls snapshot now iteration =>
    collect_ranked _ iteration, fun polls polls' poll poll' hpolls hpoll =>
      (publishOnce_alike hpoll (after_alike hpolls)).1⟩
  cases poll with
  | failed => exact absurd hsession List.not_mem_nil
  | discovered snapshot now iteration =>
    have hcollect : session ∈ (collect config (after polls) snapshot now iteration).1 := hsession
    rw [collect_fst] at hcollect
    obtain ⟨result, hresult, rfl⟩ := List.mem_map.mp hcollect
    obtain ⟨id, current, hvisit⟩ := mem_results
      ((List.mem_insertionSort _).mp (List.mem_of_mem_take hresult))
    rw [visit_id hvisit]
    exact visit_running iteration hvisit hstate

/-- A configuration, with the digest of the one identifier that the files have. -/
def exampleConfig : Config ℕ where
  recentWindow := 300000000000
  retention := 604800000000000
  sha256 := fun _ =>
    [0xe8, 0xbc, 0x16, 0x3c, 0x82, 0xee, 0xe1, 0x87, 0x33, 0x28, 0x8c,
      0x7d, 0x4a, 0xc6, 0x36, 0xdb, 0x3a, 0x6d, 0xeb, 0x01, 0x3e, 0xf2,
      0xd3, 0x7b, 0x68, 0x32, 0x2b, 0xe2, 0x0e, 0xdc, 0x45, 0xcc]
  sameFile := fun a b => a == b

def exampleFile (size : ℤ) : FileCandidate ℕ where
  path := bytes "/sessions/a.jsonl"
  size := size
  modified := 1000000000
  firstLine := bytes "\x7b\"type\":\"session_meta\",\"payload\":\x7b\"id\":\"s1\"\x7d\x7d" ++ [0x0a]
  info := some 1

/-- Codex, which writes the file, and a process that does not. -/
def exampleProcesses : List ProcessObservation :=
  [⟨⟨7, 1⟩, [bytes "/sessions/a.jsonl"]⟩, ⟨⟨8, 2⟩, []⟩]

def exampleSnapshot (size : ℤ) (processes : List ProcessObservation) : DiscoverySnapshot ℕ where
  strength := .strong
  processes := processes
  files := [exampleFile size]
  candidatesOverflow := false

def examplePoll (size : ℤ) (processes : List ProcessObservation) : Poll exampleConfig :=
  .discovered (exampleSnapshot size processes) 2000000000 {
    ids := identifiers exampleConfig (exampleSnapshot size processes) 2000000000
    files := filesById exampleConfig (exampleSnapshot size processes) 2000000000
    ids_perm := List.Perm.refl _
    files_perm := fun _ => List.Perm.refl _
    sorted := fun _ => (List.pairwise_singleton _ _).filter _ }

/-- A session that runs, whichever process is listed first. -/
theorem published_inferred_running :
    (∃ session ∈ published [examplePoll 10 exampleProcesses] (examplePoll 20 exampleProcesses),
      RunningSince session.id
        ([examplePoll 10 exampleProcesses] ++ [examplePoll 20 exampleProcesses])) ∧
    published [examplePoll 10 exampleProcesses] (examplePoll 20 exampleProcesses) =
      published [examplePoll 10 exampleProcesses.reverse]
        (examplePoll 20 exampleProcesses.reverse) := by
  have halike : ∀ size,
      (examplePoll size exampleProcesses).Alike (examplePoll size exampleProcesses.reverse) :=
    fun size => .discovered {
      strength := rfl
      overflow := rfl
      files := List.Perm.refl _
      processes := ⟨exampleProcesses.reverse, (List.reverse_perm _).symm,
        List.forall₂_same.mpr fun _ _ => ⟨rfl, List.Perm.refl _⟩⟩ }
  have hstates : (published [examplePoll 10 exampleProcesses]
      (examplePoll 20 exampleProcesses)).map Session.state = [bytes "running"] := by
    decide +kernel
  obtain ⟨session, hsession, hstate⟩ :=
    List.mem_map.mp (hstates ▸ List.mem_singleton_self (bytes "running"))
  exact ⟨⟨session, hsession, (published_inferred exampleConfig).1 _ _ session hsession hstate⟩,
    (published_inferred exampleConfig).2.2 _ _ _ _ (.cons (halike 10) .nil) (halike 20)⟩

end

end RlcdDeck.CodexObserver
