import RlcdDeck.Pairing.Equiv.Codes
import RlcdDeck.Pairing.Files
import RlcdDeck.ProtectedFile.Equiv.Replace

/-!
# Operations that fail

An operation that is answered with an error leaves the codes and the trusts as they were, in memory
and in the file, unless the replacement of the file fails after its rename (`failure_atomic`).  Then
the new state is in memory and in the file, and the caller is told of an error.
-/

namespace RlcdDeck.Pairing

open ProtectedFile (Directory Faults Replaced)

/-- If the operation is answered with an error, the codes and the trusts are as before, in memory and
in the file that a later open reads. -/
def FailureAtomic (config : Config) (store : FileStore) (cancelled : Bool) (operation : Operation)
    (faults : Faults) (d : Directory) : Prop :=
  (operation.run config store cancelled faults d).1.refused = true →
    (operation.run config store cancelled faults d).1.store.state.codes = store.state.codes ∧
    (operation.run config store cancelled faults d).1.store.state.trusts = store.state.trusts ∧
    (openFileStore (operation.run config store cancelled faults d).2).map
        (fun state => (state.codes, state.trusts)) =
      (openFileStore d).map fun state => (state.codes, state.trusts)

/-- The replacement of the file fails after its rename, if the operation comes to it. -/
def FailsVisibly (config : Config) (store : FileStore) (cancelled : Bool) (operation : Operation)
    (faults : Faults) (d : Directory) : Prop :=
  ∃ contents, operation.written config store cancelled = some contents ∧
    faults.renames d storeName contents = true ∧ faults.afterwards storeName = true

/-! ### What an operation does with the answer of the replacement -/

/-- The end of a store operation that writes `next`. -/
def Update.ofWrite (store : FileStore) (next : FileStoreState) (committed failed : Bool) : Update :=
  { error := if failed then some .write else if committed then none else some .notCommitted
    committed := committed
    store := if committed then { store with state := next } else store }

theorem update_plan (store : FileStore) (cancelled : Bool)
    (mutate : FileStoreState → Except StoreError FileStoreState) :
    (∃ error, ∀ committed failed,
      store.update ⟨cancelled, committed, failed⟩ mutate = ⟨some error, false, store⟩) ∨
    ∃ next, mutate store.state = .ok next ∧ ∀ committed failed,
      store.update ⟨cancelled, committed, failed⟩ mutate =
        Update.ofWrite store next committed failed := by
  cases cancelled with
  | true => exact .inl ⟨.cancelled, fun committed failed => rfl⟩
  | false =>
    cases hclosed : store.closed with
    | true =>
      refine .inl ⟨.closed, fun committed failed => ?_⟩
      simp [FileStore.update, hclosed]
    | false =>
      cases hmutate : mutate store.state with
      | error error =>
        refine .inl ⟨error, fun committed failed => ?_⟩
        simp [FileStore.update, hclosed, hmutate]
      | ok next =>
        cases hvalid : validateFileStoreState next with
        | false =>
          refine .inl ⟨.invalidUpdate, fun committed failed => ?_⟩
          simp [FileStore.update, hclosed, hmutate, hvalid]
        | true =>
          refine .inr ⟨next, rfl, fun committed failed => ?_⟩
          simp [FileStore.update, hclosed, hmutate, hvalid, Update.ofWrite]

theorem consumeCode_codes {crypto : Crypto} {codeVerifier : Text} {now : Time} {trust : StoredTrust}
    {state next : FileStoreState} (h : consumeCode crypto codeVerifier now trust state = .ok next) :
    next.codes ≠ state.codes := by
  unfold consumeCode at h
  split at h
  · cases h
  next code hcode =>
  split_ifs at h with hexpired hcapacity
  cases hadmitted : admitted state code now trust with
  | error error =>
    rw [hadmitted] at h
    cases h
  | ok admittedTrust =>
    rw [hadmitted] at h
    obtain rfl := Except.ok.inj h
    intro hcodes
    have hlookup := congrArg (AList.lookup codeVerifier) hcodes
    rw [appendFileAudit_codes, AList.lookup_erase, hcode] at hlookup
    cases hlookup

theorem revokeTrust_trusts {crypto : Crypto} {deviceId : Text} {now : Time}
    {state next : FileStoreState} (h : revokeTrust crypto deviceId now state = .ok next) :
    next.trusts ≠ state.trusts := by
  unfold revokeTrust at h
  split_ifs at h with hnone
  obtain rfl := Except.ok.inj h
  intro htrusts
  have hlookup := congrArg (AList.lookup deviceId) htrusts
  rw [appendFileAudit_trusts, AList.lookup_erase] at hlookup
  rw [← hlookup] at hnone
  exact hnone rfl

/-- How an operation ends for every answer of the replacement: it is refused, or it takes a code or a
trust and writes that. -/
def Planned (store : FileStore) (outcome : Bool → Bool → Outcome) : Prop :=
  (∃ error, ∀ committed failed, outcome committed failed = ⟨.failed error, false, store⟩) ∨
    ∃ next success, (next.codes ≠ store.state.codes ∨ next.trusts ≠ store.state.trusts) ∧
      (∀ error, success ≠ .failed error) ∧
      ∀ committed failed, outcome committed failed =
        (Update.ofWrite store next committed failed).outcome success

theorem planned_refuse (store : FileStore) (error : ServiceError) :
    Planned store fun _ _ => refuse store error :=
  .inl ⟨error, fun _ _ => rfl⟩

theorem planned_update {store : FileStore} {cancelled : Bool}
    {mutate : FileStoreState → Except StoreError FileStoreState} {success : Response}
    (hchanged : ∀ next, mutate store.state = .ok next →
      next.codes ≠ store.state.codes ∨ next.trusts ≠ store.state.trusts)
    (hsuccess : ∀ error, success ≠ .failed error) :
    Planned store fun committed failed =>
      (store.update ⟨cancelled, committed, failed⟩ mutate).outcome success := by
  rcases update_plan store cancelled mutate with ⟨error, herror⟩ | ⟨next, hnext, hwrite⟩
  · exact .inl ⟨.store error, fun committed failed => by simp only [herror]; rfl⟩
  · exact .inr ⟨next, success, hchanged next hnext, hsuccess, fun committed failed => by
      simp only [hwrite]⟩

theorem outcome_plan (config : Config) (store : FileStore) (cancelled : Bool)
    (operation : Operation) :
    Planned store fun committed failed =>
      operation.outcome config store ⟨cancelled, committed, failed⟩ := by
  cases operation with
  | redeem request tokenBytes now =>
    simp only [Operation.outcome, redeem]
    cases validateRedeemRequest config.crypto request with
    | error error => exact planned_refuse store error
    | ok identityVerifier =>
      cases tokenBytes with
      | none => exact planned_refuse store .generateToken
      | some tokenBytes =>
        by_cases hlength : tokenBytes.length ≠ deviceTokenBytes
        · simp only [if_pos hlength]
          exact planned_refuse store .generateToken
        · simp only [if_neg hlength]
          refine planned_update (fun next hnext => .inl (consumeCode_codes hnext)) ?_
          intro error h
          cases h
  | revoke deviceId now =>
    simp only [Operation.outcome, revoke]
    by_cases hpattern : (!deviceIdPattern deviceId) = true
    · simp only [if_pos hpattern]
      exact planned_refuse store .invalidRequest
    · simp only [if_neg hpattern]
      refine planned_update (fun next hnext => .inr (revokeTrust_trusts hnext)) ?_
      intro error h
      cases h

/-! ### The runs of an operation -/

section Runs

variable {config : Config} {store : FileStore} {cancelled : Bool} {operation : Operation}
  {faults : Faults} {d : Directory}

theorem isTemporary_storeName : ProtectedFile.isTemporary storeName = false := by decide

theorem run_unwritten (h : operation.written config store cancelled = none) :
    (operation.run config store cancelled faults d).1.store = store ∧
      (operation.run config store cancelled faults d).2 = d := by
  unfold Operation.run Operation.program
  rw [h]
  refine ⟨?_, rfl⟩
  show (operation.outcome config store ⟨cancelled, false, true⟩).store = store
  rcases outcome_plan config store cancelled operation with
    ⟨error, herror⟩ | ⟨next, success, -, -, hwrite⟩
  · exact congrArg Outcome.store (herror false true)
  · exact congrArg Outcome.store (hwrite false true)

theorem run_written {contents : Json.Bytes}
    (h : operation.written config store cancelled = some contents) :
    operation.run config store cancelled faults d =
      let replaced := (ProtectedFile.replace storeName contents).run faults.answer d
      (operation.outcome config store ⟨cancelled, replaced.1.committed, replaced.1.failed⟩,
        replaced.2) := by
  unfold Operation.run Operation.program
  rw [h]
  dsimp only
  rw [Effects.Program.run_bind]
  rfl

theorem plan_of_written {contents : Json.Bytes}
    (h : operation.written config store cancelled = some contents) :
    ∃ next success, (next.codes ≠ store.state.codes ∨ next.trusts ≠ store.state.trusts) ∧
      (∀ error, success ≠ .failed error) ∧
      ∀ committed failed, operation.outcome config store ⟨cancelled, committed, failed⟩ =
        (Update.ofWrite store next committed failed).outcome success := by
  rcases outcome_plan config store cancelled operation with ⟨error, herror⟩ | hplan
  · unfold Operation.written at h
    have hrefused := herror true false
    dsimp only at h hrefused
    rw [hrefused] at h
    cases h
  · exact hplan

/-- **Failure atomicity**: exactly the replacements that fail after their rename break it. -/
theorem failure_atomic (config : Config) (store : FileStore) (cancelled : Bool)
    (operation : Operation) (faults : Faults) (d : Directory) :
    FailureAtomic config store cancelled operation faults d ↔
      ¬FailsVisibly config store cancelled operation faults d := by
  cases hwritten : operation.written config store cancelled with
  | none =>
    have hvisible : ¬FailsVisibly config store cancelled operation faults d := by
      rintro ⟨contents, hcontents, -⟩
      rw [hwritten] at hcontents
      cases hcontents
    obtain ⟨hstore, hdirectory⟩ :=
      @run_unwritten config store cancelled operation faults d hwritten
    refine iff_of_true (fun _ => ?_) hvisible
    rw [hstore, hdirectory]
    exact ⟨rfl, rfl, rfl⟩
  | some contents =>
    obtain ⟨next, success, hchanged, hsuccess, houtcome⟩ := plan_of_written hwritten
    have hresult := ProtectedFile.replace_result faults d storeName contents
    have hends := ProtectedFile.replace_ends faults d storeName contents
    unfold FailureAtomic
    rw [run_written hwritten]
    dsimp only
    rw [houtcome]
    constructor
    · rintro hatomic ⟨contents', hcontents', hrenames, hafterwards⟩
      obtain rfl := Option.some.inj (hwritten.symm.trans hcontents')
      rw [hresult, if_pos hrenames, hafterwards] at hatomic
      obtain ⟨hcodes, htrusts, -⟩ := hatomic rfl
      exact hchanged.elim (fun h => h hcodes) fun h => h htrusts
    · intro hvisible hrefused
      cases hrenames : faults.renames d storeName contents with
      | true =>
        have hafterwards : faults.afterwards storeName = false := by
          by_contra hfails
          exact hvisible ⟨contents, hwritten, hrenames, Bool.not_eq_false _ ▸ hfails⟩
        -- The replacement went well, and the operation is not refused.
        rw [hresult, if_pos hrenames, hafterwards] at hrefused
        unfold Outcome.refused at hrefused
        cases success with
        | failed error => exact absurd rfl (hsuccess error)
        | _ => cases hrefused
      | false =>
        rw [hresult, hrenames] at hends ⊢
        rcases hends with ⟨-, -, hsame⟩ | ⟨hcommitted, -⟩
        · refine ⟨rfl, rfl, ?_⟩
          unfold openFileStore
          rw [hsame storeName isTemporary_storeName]
        · cases hcommitted

end Runs

/-- The store after one code was issued. -/
def issuedStore : FileStore := execute sampleConfig {} [.issue (some 1) 1 {}]

/-- The directory cannot be synced after the rename. -/
def unsynced : Faults where
  fails := fun call => call == .syncDirectory
  temporary := ascii ".protected-1.tmp"
  left := []

/-- The code is redeemed, and taken, and the device is refused. -/
def refusedRedeem : Operation :=
  .redeem (sampleRequest "000001") (some (List.replicate 32 0)) 2

theorem refused_redeem_takes_code :
    ¬FailureAtomic sampleConfig issuedStore false refusedRedeem unsynced ∅ := by
  intro hatomic
  obtain ⟨hcodes, -, -⟩ := hatomic (by decide +kernel)
  have hlookup := congrArg (AList.lookup (sampleConfig.codeVerifier (ascii "000001"))) hcodes
  revert hlookup
  decide +kernel

end RlcdDeck.Pairing
