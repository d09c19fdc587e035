import RlcdDeck.Pairing.Equiv.Failures
import RlcdDeck.Pairing.Equiv.Marshal

/-!
# The store is read as it was written

In every run of the service, over any number of sessions, the file is read as the state in memory
(`reopen_reads_back`).  Every state that is written is valid, which bounds its size and lets its
strings be written as they stand.
-/

namespace RlcdDeck.Pairing

open ProtectedFile (Directory Faults)

/-! ### What an event does with the answer of the replacement -/

/-- The event leaves the state, or replaces it by a valid one if the file is replaced. -/
def Replaces (store : FileStore) (outcome : Bool → Bool → Outcome) : Prop :=
  (∀ committed failed, (outcome committed failed).committed = false ∧
    (outcome committed failed).store.state = store.state) ∨
  ∃ next, validateFileStoreState next = true ∧ ∀ committed failed,
    (outcome committed failed).committed = committed ∧
    (outcome committed failed).store.state = if committed then next else store.state

theorem replaces_kept {store : FileStore} {outcome : Outcome} (hcommitted : outcome.committed = false)
    (hstate : outcome.store.state = store.state) : Replaces store fun _ _ => outcome :=
  .inl fun _ _ => ⟨hcommitted, hstate⟩

theorem replaces_update (store : FileStore) (cancelled : Bool)
    (mutate : FileStoreState → Except StoreError FileStoreState) (success : Response) :
    Replaces store fun committed failed =>
      (store.update ⟨cancelled, committed, failed⟩ mutate).outcome success := by
  unfold Update.outcome FileStore.update
  dsimp only
  cases cancelled with
  | true => exact .inl fun _ _ => ⟨rfl, rfl⟩
  | false =>
    cases hclosed : store.closed with
    | true => exact .inl fun _ _ => ⟨rfl, rfl⟩
    | false =>
      cases hmutate : mutate store.state with
      | error error => exact .inl fun _ _ => ⟨rfl, rfl⟩
      | ok next =>
        cases hvalid : validateFileStoreState next with
        | false =>
          refine .inl fun _ _ => ?_
          simp [hvalid]
        | true =>
          refine .inr ⟨next, hvalid, fun committed failed => ?_⟩
          cases committed <;> simp [hvalid]

theorem replaces_issueAttempt (config : Config) (store : FileStore) (number : Option ℤ)
    (deviceId : Text) (now : Time) (cancelled : Bool)
    (save : StoredCode → FileStoreState → Except StoreError FileStoreState) :
    Replaces store fun committed failed =>
      issueAttempt config store number deviceId now ⟨cancelled, committed, failed⟩ save := by
  unfold issueAttempt
  cases number with
  | none => exact replaces_kept rfl rfl
  | some number =>
    dsimp only
    split_ifs
    · exact replaces_kept rfl rfl
    · exact replaces_update store cancelled _ _

theorem replaces_step (config : Config) (store : FileStore) (event : Event) :
    Replaces store fun committed failed => step config store (event.answered committed failed) := by
  cases event with
  | issue number now env => exact replaces_issueAttempt config store number [] now env.cancelled _
  | issueRotation deviceId number now env =>
    simp only [Event.answered, step, issueRotation]
    split_ifs
    · exact replaces_kept rfl rfl
    · exact replaces_issueAttempt config store number deviceId now env.cancelled _
  | redeem request tokenBytes now env =>
    simp only [Event.answered, step, redeem]
    cases validateRedeemRequest config.crypto request with
    | error error => exact replaces_kept rfl rfl
    | ok identityVerifier =>
      cases tokenBytes with
      | none => exact replaces_kept rfl rfl
      | some tokenBytes =>
        dsimp only
        split_ifs
        · exact replaces_kept rfl rfl
        · exact replaces_update store env.cancelled _ _
  | revoke deviceId now env =>
    simp only [Event.answered, step, revoke]
    split_ifs
    · exact replaces_kept rfl rfl
    · exact replaces_update store env.cancelled _ _
  | verify authentication cancelled => exact replaces_kept rfl rfl
  | close => exact replaces_kept rfl rfl

/-! ### Runs -/

/-- The state is valid, and is what is read from the file, if there is one. -/
structure Stored (d : Directory) (state : FileStoreState) : Prop where
  valid : validateFileStoreState state = true
  file : (d.lookup storeName = none ∧ state = {}) ∨
    ∃ contents read, d.lookup storeName = some contents ∧ readFileStore contents = some read ∧
      read.Same state

theorem valid_empty : validateFileStoreState {} = true := by decide

variable {d : Directory}

theorem stored_empty (h : d.lookup storeName = none) : Stored d {} :=
  ⟨valid_empty, .inl ⟨h, rfl⟩⟩

variable {state : FileStoreState}

theorem stored_unchanged {s : Directory} (h : Stored d state)
    (hsame : ProtectedFile.Unchanged d s) : Stored s state := by
  refine ⟨h.valid, ?_⟩
  rw [hsame storeName isTemporary_storeName]
  exact h.file

theorem stored_changed {s : Directory} {contents : Json.Bytes}
    (hvalid : validateFileStoreState state = true) (hwritten : state.marshal = some contents)
    (hchanged : ProtectedFile.Changed d storeName contents s) : Stored s state := by
  obtain ⟨read, hread, hsame⟩ := readFileStore_marshal hvalid hwritten
  refine ⟨hvalid, .inr ⟨contents, read, ?_, hread, hsame⟩⟩
  rw [hchanged storeName isTemporary_storeName, if_pos rfl]

theorem stored_read (h : Stored d state) :
    ∃ read, openFileStore d = some read ∧ Stored d read := by
  unfold openFileStore
  rcases h.file with ⟨hnone, -⟩ | ⟨contents, read, hcontents, hread, hsame⟩
  · rw [hnone]
    exact ⟨{}, rfl, stored_empty hnone⟩
  · rw [hcontents]
    refine ⟨read, hread, (validate_same hsame).trans h.valid, .inr ⟨contents, read, hcontents, hread, ?_⟩⟩
    exact ⟨.refl _, .refl _, rfl⟩

/-- The file holds the state in memory. -/
def System.Inv (system : System) : Prop := Stored system.directory system.store.state

variable {config : Config} {system : System}

theorem inv_event (h : system.Inv) (event : Event) (faults : Faults) :
    (system.step config (.event event faults)).Inv := by
  have hreplaces := replaces_step config system.store event
  unfold System.step
  dsimp only
  cases hwritten : event.written config system.store with
  | none =>
    -- Nothing is written, and the state stays.
    show Stored system.directory (step config system.store (event.answered false true)).store.state
    rcases hreplaces with hkept | ⟨next, -, hnext⟩
    · rw [(hkept false true).2]
      exact h
    · rw [(hnext false true).2]
      exact h
  | some contents =>
    unfold Event.written at hwritten
    dsimp only at hwritten
    split_ifs at hwritten with hcommitted
    rcases hreplaces with hkept | ⟨next, hvalid, hnext⟩
    · rw [(hkept true false).1] at hcommitted
      cases hcommitted
    rw [(hnext true false).2, if_pos rfl] at hwritten
    have hends := ProtectedFile.replace_ends faults system.directory storeName contents
    dsimp only
    generalize (ProtectedFile.replace storeName contents).run faults.answer system.directory =
      replaced at hends ⊢
    show Stored replaced.2 (step config system.store
      (event.answered replaced.1.committed replaced.1.failed)).store.state
    rw [(hnext replaced.1.committed replaced.1.failed).2]
    rcases hends with ⟨hfailed, -, hsame⟩ | ⟨hdone, hchanged⟩
    · rw [hfailed]
      exact stored_unchanged h hsame
    · rw [hdone]
      exact stored_changed hvalid hwritten hchanged

theorem inv_reopen (h : system.Inv) :
    (system.step config .reopen).Inv := by
  obtain ⟨read, hread, hstored⟩ := stored_read h
  unfold System.step
  simp only [hread]
  exact hstored

theorem inv_step (h : system.Inv) (action : Action) :
    (system.step config action).Inv := by
  cases action with
  | event event faults => exact inv_event h event faults
  | reopen => exact inv_reopen h

theorem inv_run {config : Config} {system : System} (h : system.Inv) (actions : List Action) :
    (system.run config actions).Inv := by
  induction actions generalizing system with
  | nil => exact h
  | cons action actions ih => exact ih (inv_step h action)

/-- **Reopening**: after any run, nothing was written yet, or the file is read as the state. -/
theorem reopen_reads_back (config : Config) (d : Directory) (actions : List Action) :
    let system := ({ directory := d.erase storeName } : System).run config actions
    (system.directory.lookup storeName = none ∧ system.store.state = {}) ∨
      ∃ contents read, system.directory.lookup storeName = some contents ∧
        openFileStore system.directory = some read ∧ read.Same system.store.state := by
  have hstart : ({ directory := d.erase storeName } : System).Inv :=
    stored_empty (AList.lookup_erase storeName d)
  rcases (@inv_run config _ hstart actions).file with hempty | hfile
  · exact .inl hempty
  · obtain ⟨contents, read, hcontents, hread, hsame⟩ := hfile
    refine .inr ⟨contents, read, hcontents, ?_, hsame⟩
    unfold openFileStore
    rw [hcontents]
    exact hread

end RlcdDeck.Pairing
