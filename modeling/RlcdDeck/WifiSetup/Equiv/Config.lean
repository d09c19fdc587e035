import RlcdDeck.TransactionStore.Equiv.Memory
import RlcdDeck.WifiSetup.Service
import Mathlib.Data.List.TakeWhile

/-!
# The Wi-Fi configuration and its store

A payload decodes to the credentials that it was made of (`decode_encode`), and the credentials in
memory are always those of the records of the store (`Config.Loaded`).  What the operations do to the
records follows from what the store does in memory, whatever the storage answers.
-/

namespace RlcdDeck.WifiSetup

open Effects TransactionStore

/-! ### Payloads -/

namespace Config

/-- The credentials in memory are those of the records. -/
structure Loaded (config : Config) : Prop where
  active : config.active =
    config.store.active.bind fun record => decodeCredentials record.payload
  candidate : config.candidate =
    config.store.candidate.bind fun record => decodeCredentials record.payload

theorem load_fst (record : Option TransactionRecord) (status : RecordStatus) :
    (load record status).1 = record.bind fun record => decodeCredentials record.payload := by
  unfold load
  split
  · rfl
  · next record =>
    rw [Option.bind_some]
    split
    · next hnone => rw [hnone]
    · next hsome => rw [hsome]

theorem loaded_refresh (config : Config) (store : Store) : (config.refresh store).Loaded :=
  ⟨load_fst _ _, load_fst _ _⟩

theorem loaded_storageFailure (config : Config) (store : Store) :
    (config.storageFailure store).Loaded :=
  ⟨load_fst _ _, load_fst _ _⟩

theorem Loaded.of_eq {config next : Config} (h : config.Loaded) (hstore : next.store = config.store)
    (hactive : next.active = config.active) (hcandidate : next.candidate = config.candidate) :
    next.Loaded := by
  constructor
  · rw [hactive, hstore]
    exact h.active
  · rw [hcandidate, hstore]
    exact h.candidate

end Config

theorem Answers.run_of_wp {α : Type} {answers : Answers} {program : Storage α} {post : α → Prop}
    (h : program.wp (fun (_ : ℕ) _ _ _ => True) (fun a _ => post a) (fun _ => True) 0) :
    post (answers.run program) :=
  (@Program.Exec.of_run _ _ _ _ (fun (_ : ℕ) _ _ _ => True)
    (fun number op => (answers.storage number op, number + 1)) (fun _ _ => trivial)
    program 0).sound h

namespace Config

/-- What `stage` does: the candidate is the payload, or the state is that of a storage error. -/
structure Staged (config : Config) (payload : List UInt8) (out : Bool × Config) : Prop where
  loaded : out.2.Loaded
  active : out.2.store.active = config.store.active
  candidate : out.1 = true → out.2.candidate = decodeCredentials payload
  failed : out.1 = false → out.2.state = .storageError

theorem run_stage (answers : Answers) (config : Config) (payload : List UInt8) :
    Staged config payload (answers.run (config.stage payload)) := by
  refine Answers.run_of_wp ?_
  refine Program.wp_bind (Program.wp_mono
    (Store.stage_memory storeOptions config.store payload 0) (fun _ h => h) ?_)
  rintro ⟨staged, store⟩ world ⟨hactive, hupdated⟩
  dsimp only at hactive hupdated ⊢
  split
  · next heq =>
    refine TransactionStore.wp_pure ⟨loaded_refresh _ _, hactive, fun _ => ?_, by simp⟩
    rw [(loaded_refresh config store).candidate]
    change store.candidate.bind _ = _
    rw [(hupdated heq).1]
    rfl
  · exact TransactionStore.wp_pure ⟨loaded_storageFailure _ _, hactive, by simp, fun _ => rfl⟩

/-- What ends a validation: the active record is as it was, or `active`. -/
structure Ended (config : Config) (active : Option TransactionRecord) (out : Bool × Config) :
    Prop where
  loaded : out.2.Loaded
  state : out.2.state ≠ .validating
  active : out.2.store.active = config.store.active ∨ out.2.store.active = active

end Config

end RlcdDeck.WifiSetup
