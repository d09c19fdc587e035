import RlcdDeck.CompanionProfiles.Equiv.Set
import RlcdDeck.CompanionProfiles.Profiles
import RlcdDeck.TransactionStore.Equiv.Flash

/-!
# The set of Companion profiles over a run

Every operation leaves the active record alone, or it commits the bytes of one valid set under the
next generation (`perform_effect`).  So the exposed set is valid at every point of a run, and what
an operation does to it is a fact about sets alone.

The generation counts the commits in 32 bits and skips zero, so it returns after `2 ^ 32 - 1`
commits.
-/

namespace RlcdDeck.CompanionProfiles

open Effects
open TransactionStore (Storage Store Flash wp_pure wp_bind_any)

variable {σ : Type} {step : σ → (op : TransactionStore.Call) → op.Answer → σ → Prop}

/-! ### Sets -/

variable {set set' : StoredSet} {found : ℕ}

namespace StoredSet

theorem find_lt {profileId : CString} (h : set.find profileId = some found) :
    found < set.profiles.length :=
  (List.findIdx?_eq_some_iff_getElem.mp h).1

theorem find_profileId {profileId : CString} (h : set.find profileId = some found) :
    set.profiles[found]?.map StoredProfile.profileId = some profileId := by
  obtain ⟨hlt, hid, -⟩ := List.findIdx?_eq_some_iff_getElem.mp h
  rw [List.getElem?_eq_getElem hlt, Option.map_some]
  rw [beq_iff_eq] at hid
  rw [hid]

theorem toNat_index (h : set.valid = true) {index : ℕ} (hindex : index ≤ set.profiles.length) :
    (UInt8.ofNat index).toNat = index := by
  have hcount := (set.valid_iff.mp h).1
  unfold maxProfiles at hcount
  rw [UInt8.toNat_ofNat']
  omega

theorem activeId_select (h : set.valid = true) {profileId : CString} {found : ℕ}
    (hfound : set.find profileId = some found) :
    activeId { set with activeIndex := UInt8.ofNat found } = some profileId := by
  show set.profiles[(UInt8.ofNat found).toNat]?.map StoredProfile.profileId = some profileId
  rw [toNat_index h (find_lt hfound).le]
  exact find_profileId hfound

theorem activeId_pair (h : set.valid = true) {request : PairRequest} {credential : Credential}
    (hpair : set.pair request credential = some set') :
    set'.activeId = some credential.certificateFingerprint := by
  unfold pair at hpair
  split at hpair
  · next found hfound =>
    obtain rfl := Option.some.inj hpair
    have hlt := find_lt hfound
    show (set.profiles.set found _)[(UInt8.ofNat found).toNat]?.map _ = _
    rw [toNat_index h hlt.le, List.getElem?_set_self hlt]
    rfl
  · split_ifs at hpair
    obtain rfl := Option.some.inj hpair
    show (set.profiles ++ _)[(UInt8.ofNat set.profiles.length).toNat]?.map _ = _
    rw [toNat_index h le_rfl, List.getElem?_concat_length]
    rfl

theorem activeId_remove (h : set.valid = true) {profileId : CString} {found : ℕ}
    (hfound : set.find profileId = some found) (hother : set.activeId ≠ some profileId) :
    (set.remove found).activeId = set.activeId := by
  have hlt := find_lt hfound
  obtain ⟨-, hactive, -, -⟩ := set.valid_iff.mp h
  rw [if_neg (by omega)] at hactive
  have hindex := toNat_index h hlt.le
  have hne : set.activeIndex.toNat ≠ found := by
    intro heq
    apply hother
    rw [activeId, heq]
    exact find_profileId hfound
  have hcount : (set.profiles.eraseIdx found).length = set.profiles.length - 1 :=
    List.length_eraseIdx_of_lt hlt
  have hdifferent : set.activeIndex ≠ UInt8.ofNat found := by
    intro heq
    rw [heq] at hne
    exact hne hindex
  unfold remove activeId
  dsimp only
  rw [if_neg (by omega), if_neg hdifferent]
  by_cases hafter : UInt8.ofNat found < set.activeIndex
  · -- the active profile moves one place forward
    have hnat : found < set.activeIndex.toNat := by
      rw [UInt8.lt_iff_toNat_lt, hindex] at hafter
      exact hafter
    have hone : (1 : UInt8) ≤ set.activeIndex := by
      rw [UInt8.le_iff_toNat_le]
      show 1 ≤ _
      omega
    rw [if_pos hafter, UInt8.toNat_sub_of_le _ _ hone]
    show (set.profiles.eraseIdx found)[set.activeIndex.toNat - 1]?.map _ = _
    rw [List.getElem?_eraseIdx_of_ge (by omega), Nat.sub_add_cancel (by omega)]
  · have hnat : set.activeIndex.toNat < found := by
      rw [UInt8.lt_iff_toNat_lt, hindex] at hafter
      omega
    rw [if_neg hafter, List.getElem?_eraseIdx_of_lt hnat]

end StoredSet

/-! ### What an operation commits -/

/-- The bytes of `set` are active, under the next generation. -/
def Commits (s : Store) (set : StoredSet) (t : Store) : Prop :=
  set.valid = true ∧ t.active = some ⟨setBytes set, s.nextGeneration⟩

variable {s t : Store}

theorem exposed_of_commits (h : Commits s set t) :
    exposed t = some set := by
  rw [exposed, h.2]
  exact decodeSet_setBytes h.1

theorem commitSet_memory (s : Store) (set : StoredSet) (world : σ) :
    (commitSet s set).wp step
      (fun out _ => if out.1 = true then Commits s set out.2 else out.2.active = s.active)
      (fun _ => True) world := by
  unfold commitSet
  refine wp_bind_any fun allocated world' => ?_
  split_ifs
  · exact wp_pure rfl
  split
  · exact wp_pure rfl
  next payload hpayload =>
  have hvalid : set.valid = true := by
    by_contra hno
    rw [Bool.not_eq_true] at hno
    rw [encodeSet, if_pos (.inr hno)] at hpayload
    exact absurd hpayload (by simp)
  rw [encodeSet_eq hvalid (by decide)] at hpayload
  obtain rfl := Option.some.inj hpayload
  refine Program.wp_bind (Program.wp_mono
    (TransactionStore.Store.stage_memory options s _ _) (fun _ h => h) ?_)
  rintro ⟨staged, t⟩ world' ⟨hactive, hstaged⟩
  dsimp only at hactive hstaged ⊢
  split_ifs with hresult
  · exact wp_pure hactive
  rw [not_not] at hresult
  refine Program.wp_bind (Program.wp_mono
    (TransactionStore.Store.commit_memory options t _) (fun _ h => h) ?_)
  rintro ⟨committed, u⟩ world' hcommitted
  refine wp_pure ?_
  unfold TransactionStore.Store.Committed at hcommitted
  dsimp only at hcommitted ⊢
  by_cases hupdated : committed = .updated
  · rw [if_pos hupdated] at hcommitted
    rw [if_pos (decide_eq_true hupdated)]
    obtain ⟨candidate, hcandidate, hu⟩ := hcommitted
    rw [(hstaged hresult).1] at hcandidate
    obtain rfl := Option.some.inj hcandidate
    exact ⟨hvalid, hu⟩
  · rw [if_neg hupdated] at hcommitted
    rw [if_neg (by simpa using hupdated)]
    exact hcommitted.trans hactive

/-- How an operation changes the exposed set. -/
def Changes (s : Store) (set set' : StoredSet) : Operation → Prop
  | .pair request redeemed =>
    ∃ credential, redeemed = some credential ∧ set.pair request credential = some set'
  | .selectActive profileId =>
    ∃ found, set.find profileId = some found ∧ set' = { set with activeIndex := UInt8.ofNat found }
  | .revoke profileId => ∃ found, set.find profileId = some found ∧ set' = set.remove found
  | .activateOnSuccess _ expectedGeneration _ => atGeneration s expectedGeneration = true
  | .setPriority _ _ | .recordSuccess _ _ => True

/-- What an operation does: it fails and leaves the active record, or it commits a changed set. -/
def Effect (s : Store) (operation : Operation) (out : Outcome × Store) : Prop :=
  if out.1.succeeded = true then
    ∃ set set', exposed s = some set ∧ Changes s set set' operation ∧ Commits s set' out.2
  else out.2.active = s.active

theorem loadSet_memory (s : Store) (world : σ) :
    (loadSet s).wp step (fun found _ => ∀ set, found = some set → exposed s = some set)
      (fun _ => True) world := by
  unfold loadSet
  refine wp_bind_any fun allocated world' => ?_
  split_ifs
  · exact wp_pure fun set h => by cases h
  · exact wp_pure fun set h => h

variable {operation : Operation} {outcome : Outcome}

theorem effect_of_failed (hfailed : outcome.succeeded = false) (hactive : t.active = s.active) :
    Effect s operation (outcome, t) := by
  unfold Effect
  rw [if_neg (by simpa using hfailed)]
  exact hactive

theorem effect_of_commitSet (operation : Operation) {set set' : StoredSet}
    (hexposed : exposed s = some set) (hchange : Changes s set set' operation)
    {outcome : Bool → Outcome} (houtcome : ∀ committed, (outcome committed).succeeded = committed)
    {out : Bool × Store}
    (h : if out.1 = true then Commits s set' out.2 else out.2.active = s.active) :
    Effect s operation (outcome out.1, out.2) := by
  unfold Effect
  dsimp only
  rw [houtcome]
  split_ifs at h ⊢
  · exact ⟨set, set', hexposed, hchange, h⟩
  · exact h

theorem updated_succeeded (committed : Bool) :
    (Outcome.update (if committed then .updated else .storageFailure)).succeeded = committed := by
  cases committed
  · rfl
  · rfl

theorem paired_succeeded (committed : Bool) :
    (Outcome.pair (if committed then .paired else .storageFailure)).succeeded = committed := by
  cases committed
  · rfl
  · rfl

theorem update_memory (operation : Operation) {profileId : CString}
    {change : StoredSet → ℕ → StoredSet}
    (hchange : ∀ set found, set.find profileId = some found →
      Changes s set (change set found) operation) (world : σ) :
    (update s profileId change).wp step
      (fun out _ => Effect s operation (.update out.1, out.2)) (fun _ => True) world := by
  unfold update
  split_ifs
  · exact wp_pure (effect_of_failed rfl rfl)
  refine Program.wp_bind (Program.wp_mono (loadSet_memory s _) (fun _ h => h) ?_)
  intro loaded world' hloaded
  split
  · exact wp_pure (effect_of_failed rfl rfl)
  next set =>
  split
  · exact wp_pure (effect_of_failed rfl rfl)
  next found hfound =>
  refine Program.wp_bind (Program.wp_mono (commitSet_memory s _ _) (fun _ h => h) ?_)
  intro out world' hout
  exact wp_pure (effect_of_commitSet operation (hloaded set rfl) (hchange set found hfound)
    updated_succeeded hout)

theorem activateOnSuccess_memory (s : Store) (profileId : CString) (expectedGeneration : UInt32)
    (unixMs : UInt64) (world : σ) :
    (activateOnSuccess s profileId expectedGeneration unixMs).wp step
      (fun out _ => Effect s (.activateOnSuccess profileId expectedGeneration unixMs)
        (.update out.1, out.2)) (fun _ => True) world := by
  unfold activateOnSuccess
  split
  · exact wp_pure (effect_of_failed rfl rfl)
  refine Program.wp_bind (Program.wp_mono (loadSet_memory s _) (fun _ h => h) ?_)
  intro loaded world' hloaded
  split
  · exact wp_pure (effect_of_failed rfl rfl)
  next set =>
  split
  · exact wp_pure (effect_of_failed rfl rfl)
  next hgeneration =>
  rw [Bool.not_eq_true, Bool.not_eq_false'] at hgeneration
  split
  · exact wp_pure (effect_of_failed rfl rfl)
  next found hfound =>
  refine Program.wp_bind (Program.wp_mono (commitSet_memory s _ _) (fun _ h => h) ?_)
  intro out world' hout
  exact wp_pure (effect_of_commitSet (.activateOnSuccess profileId expectedGeneration unixMs)
    (hloaded set rfl) hgeneration updated_succeeded hout)

theorem pair_memory (s : Store) (request : PairRequest) (redeemed : Option Credential)
    (world : σ) :
    (pair s request redeemed).wp step
      (fun out _ => Effect s (.pair request redeemed) (.pair out.1, out.2)) (fun _ => True)
      world := by
  unfold pair
  split
  · exact wp_pure (effect_of_failed rfl rfl)
  split
  · exact wp_pure (effect_of_failed rfl rfl)
  split
  · exact wp_pure (effect_of_failed rfl rfl)
  split
  · exact wp_pure (effect_of_failed rfl rfl)
  refine Program.wp_bind (Program.wp_mono (loadSet_memory s _) (fun _ h => h) ?_)
  intro loaded world' hloaded
  split
  · exact wp_pure (effect_of_failed rfl rfl)
  next set =>
  split
  · exact wp_pure (effect_of_failed rfl rfl)
  refine wp_bind_any fun allocated world' => ?_
  split
  · exact wp_pure (effect_of_failed rfl rfl)
  split
  · exact wp_pure (effect_of_failed rfl rfl)
  next credential =>
  split
  · exact wp_pure (effect_of_failed rfl rfl)
  split
  · exact wp_pure (effect_of_failed rfl rfl)
  next set' hpair =>
  split
  · exact wp_pure (effect_of_failed rfl rfl)
  refine Program.wp_bind (Program.wp_mono (commitSet_memory s _ _) (fun _ h => h) ?_)
  intro out world' hout
  exact wp_pure (effect_of_commitSet (.pair request (some credential)) (hloaded set rfl)
    ⟨credential, rfl, hpair⟩ paired_succeeded hout)

/-- **Every operation has its effect**, whatever the storage answers. -/
theorem perform_effect (s : Store) (operation : Operation) (world : σ) :
    (perform s operation).wp step (fun out _ => Effect s operation out) (fun _ => True) world := by
  have hupdate : ∀ {p : Storage (UpdateResult × Store)},
      p.wp step (fun out _ => Effect s operation (.update out.1, out.2)) (fun _ => True) world →
      (updateOutcome p).wp step (fun out _ => Effect s operation out) (fun _ => True) world := by
    intro p hp
    refine Program.wp_bind (Program.wp_mono hp (fun _ h => h) ?_)
    exact fun out world' hout => wp_pure hout
  match operation with
  | .selectActive profileId =>
    exact hupdate (update_memory (.selectActive profileId)
      (fun set found hfound => ⟨found, hfound, rfl⟩) world)
  | .revoke profileId =>
    exact hupdate (update_memory (.revoke profileId)
      (fun set found hfound => ⟨found, hfound, rfl⟩) world)
  | .setPriority profileId priority =>
    exact hupdate (update_memory (.setPriority profileId priority)
      (fun set found hfound => trivial) world)
  | .recordSuccess profileId unixMs =>
    refine hupdate ?_
    unfold recordSuccess
    split_ifs
    · exact wp_pure (effect_of_failed rfl rfl)
    · exact update_memory (.recordSuccess profileId unixMs) (fun set found hfound => trivial) world
  | .activateOnSuccess profileId expectedGeneration unixMs =>
    exact hupdate (activateOnSuccess_memory s profileId expectedGeneration unixMs world)
  | .pair request redeemed =>
    refine Program.wp_bind (Program.wp_mono (pair_memory s request redeemed world) (fun _ h => h) ?_)
    exact fun out world' hout => wp_pure hout

theorem effect_of_exec {world world' : σ}
    (h : Program.Exec step (perform s operation) world (some (outcome, t)) world') :
    Effect s operation (outcome, t) :=
  h.sound (perform_effect s operation world)

/-! ### Runs -/

/-- The bytes that are active are those of a valid set, under a generation that is not zero. -/
def Exposes (s : Store) : Prop :=
  ∀ record, s.active = some record →
    record.generation ≠ 0 ∧ ∃ set, decodeSet record.payload = some set ∧ set.valid = true

theorem exposed_valid (h : Exposes s) :
    ∃ set, exposed s = some set ∧ set.valid = true := by
  unfold exposed
  match hactive : s.active with
  | none => exact ⟨_, rfl, by decide⟩
  | some active => exact (h active hactive).2

theorem exposes_of_create {world world' : σ}
    (h : Program.Exec step (Store.create options) world (some (some s)) world') : Exposes s := by
  intro record hrecord
  obtain ⟨hvalid, hgeneration⟩ :=
    h.sound (Store.create_memory options world) s rfl record hrecord
  obtain ⟨set, hset⟩ := Option.isSome_iff_exists.mp hvalid
  exact ⟨hgeneration, set, hset, valid_of_decodeSet hset⟩

theorem exposed_of_active_eq (h : t.active = s.active) : exposed t = exposed s := by
  unfold exposed
  rw [h]

theorem exposes_of_effect (h : Effect s operation (outcome, t)) (hs : Exposes s) : Exposes t := by
  unfold Effect at h
  split_ifs at h with hsucceeded
  · obtain ⟨set, set', -, -, hvalid, hactive⟩ := h
    intro record hrecord
    rw [hactive] at hrecord
    obtain rfl := Option.some.inj hrecord
    refine ⟨?_, set', decodeSet_setBytes hvalid, hvalid⟩
    show s.nextGeneration ≠ 0
    rw [Store.nextGeneration_eq]
    exact Counter.nonzeroNext32_ne_zero _
  · intro record hrecord
    exact hs record (h ▸ hrecord)

theorem exposes_of_run {run : List (Operation × Outcome)} {world world' : σ}
    (h : Run step s world run t world') (hs : Exposes s) : Exposes t := by
  induction h with
  | nil => exact hs
  | cons hexec _ ih => exact ih (exposes_of_effect (effect_of_exec hexec) hs)

theorem generation_of_effect (h : Effect s operation (outcome, t)) :
    t.generation =
      if outcome.succeeded then Counter.nonzeroNext s.generation else s.generation := by
  unfold Effect at h
  dsimp only at h
  split_ifs at h ⊢
  · obtain ⟨set, set', -, -, -, hactive⟩ := h
    rw [← Store.nextGeneration_eq]
    unfold Store.generation
    rw [hactive]
  · unfold Store.generation
    rw [h]

theorem generation_of_run {run : List (Operation × Outcome)} {world world' : σ}
    (h : Run step s world run t world') :
    t.generation = Counter.nonzeroNext^[commits run] s.generation := by
  induction h with
  | nil => rfl
  | @cons s t u world world' world'' operation outcome rest hexec _ ih =>
    have hstep := generation_of_effect (effect_of_exec hexec)
    rw [ih, hstep]
    by_cases hsucceeded : outcome.succeeded = true
    · have hcommits : commits ((operation, outcome) :: rest) = commits rest + 1 :=
        List.countP_cons_of_pos hsucceeded
      rw [if_pos hsucceeded, hcommits, Function.iterate_succ_apply]
    · have hcommits : commits ((operation, outcome) :: rest) = commits rest :=
        List.countP_cons_of_neg hsucceeded
      rw [if_neg hsucceeded, hcommits]

theorem dvd_commits_of_atGeneration {run : List (Operation × Outcome)} {world world' : σ}
    (h : Run step s world run t world') (ht : Exposes t)
    (hfence : atGeneration t s.generation = true) : 2 ^ 32 - 1 ∣ commits run := by
  have hrun := generation_of_run h
  have hsame : t.generation = s.generation ∧ t.generation ≠ 0 := by
    unfold atGeneration at hfence
    unfold Store.generation at hfence ⊢
    match hactive : t.active with
    | none =>
      rw [hactive] at hfence
      cases hfence
    | some active =>
      rw [hactive] at hfence
      exact ⟨by simpa using hfence, (ht active hactive).1⟩
  have hs : s.generation ≠ 0 := hsame.1 ▸ hsame.2
  exact (Counter.iterate_nonzeroNext32_eq_self_iff hs _).mp (hrun ▸ hsame.1)

/-! ### The invariant -/

/-- The identifier of the profile that is active in the exposed set. -/
def exposedActiveId (s : Store) : Option CString := (exposed s).bind StoredSet.activeId

/-- What one operation does to the exposed `set`. -/
structure Correct (set : StoredSet) (operation : Operation) (outcome : Outcome) (t : Store) :
    Prop where
  failed : outcome.succeeded = false → exposed t = some set
  pair : ∀ request redeemed, operation = .pair request redeemed → outcome.succeeded = true →
    ∃ credential, redeemed = some credential ∧
      exposedActiveId t = some credential.certificateFingerprint
  selectActive : ∀ profileId, operation = .selectActive profileId → outcome.succeeded = true →
    exposedActiveId t = some profileId
  revoke : ∀ profileId, operation = .revoke profileId → set.activeId ≠ some profileId →
    exposedActiveId t = set.activeId

theorem correct_of_effect (hset : exposed s = some set) (hvalid : set.valid = true)
    (h : Effect s operation (outcome, t)) : Correct set operation outcome t := by
  unfold Effect at h
  split_ifs at h with hsucceeded
  · obtain ⟨set₀, set', hset₀, hchange, hcommits⟩ := h
    obtain rfl := Option.some.inj (hset.symm.trans hset₀)
    have hactive : exposedActiveId t = set'.activeId := by
      unfold exposedActiveId
      rw [exposed_of_commits hcommits]
      rfl
    refine ⟨fun hfailed => ?_, ?_, ?_, ?_⟩
    · exact absurd (hsucceeded.symm.trans hfailed) (by decide)
    · rintro request redeemed rfl -
      obtain ⟨credential, hredeemed, hpair⟩ := hchange
      exact ⟨credential, hredeemed, hactive.trans (StoredSet.activeId_pair hvalid hpair)⟩
    · rintro profileId rfl -
      obtain ⟨found, hfound, rfl⟩ := hchange
      exact hactive.trans (StoredSet.activeId_select hvalid hfound)
    · rintro profileId rfl hother
      obtain ⟨found, hfound, rfl⟩ := hchange
      exact hactive.trans (StoredSet.activeId_remove hvalid hfound hother)
  · have hsame : exposed t = some set := (exposed_of_active_eq h).trans hset
    refine ⟨fun _ => hsame, ?_, ?_, ?_⟩
    · exact fun _ _ _ hyes => absurd hyes hsucceeded
    · exact fun _ _ hyes => absurd hyes hsucceeded
    · intro profileId _ _
      unfold exposedActiveId
      rw [hsame]
      rfl

/-- **The invariant of the profile set**, over any storage.  The exposed set is valid, every
operation is correct, and an activation under a captured generation changes the set only when the
commits since the capture are a multiple of `2 ^ 32 - 1`. -/
theorem profile_set_invariant {s₀ s : Store} {world₀ world₁ world : σ}
    {before : List (Operation × Outcome)}
    (hcreate : Program.Exec step (Store.create options) world₀ (some (some s₀)) world₁)
    (hrun : Run step s₀ world₁ before s world) :
    ∃ set, exposed s = some set ∧ set.valid = true ∧
      (∀ operation outcome t world',
        Program.Exec step (perform s operation) world (some (outcome, t)) world' →
          Correct set operation outcome t) ∧
      ∀ later t world' profileId unixMs outcome u world'', Run step s world later t world' →
        Program.Exec step (perform t (.activateOnSuccess profileId s.generation unixMs)) world'
          (some (outcome, u)) world'' →
        exposed u ≠ exposed t → 2 ^ 32 - 1 ∣ commits later := by
  have hs : Exposes s := exposes_of_run hrun (exposes_of_create hcreate)
  obtain ⟨set, hset, hvalid⟩ := exposed_valid hs
  refine ⟨set, hset, hvalid, ?_, ?_⟩
  · intro operation outcome t world' hexec
    exact correct_of_effect hset hvalid (effect_of_exec hexec)
  · intro later t world' profileId unixMs outcome u world'' hlater hexec hchanged
    have heffect := effect_of_exec hexec
    unfold Effect at heffect
    split_ifs at heffect
    · obtain ⟨set₀, set', -, hfence, -⟩ := heffect
      exact dvd_commits_of_atGeneration hlater (exposes_of_run hlater hs) hfence
    · exact absurd (exposed_of_active_eq heffect) hchanged

/-! ### A storage that works -/

theorem storable_setBytes (h : set.valid = true) :
    TransactionStore.Storable options (setBytes set) := by
  obtain ⟨hlow, hhigh⟩ := length_setBytes h
  have hcapacity : options.payloadCapacity = 16384 := rfl
  refine ⟨by omega, Nat.zero_le _, by omega, ?_⟩
  show (decodeSet (setBytes set)).isSome = true
  rw [decodeSet_setBytes h]
  rfl

/-- The store after a commit of a set. -/
def committedSet (s : Store) (set : StoredSet) : Store :=
  s.committed ⟨setBytes set, s.nextGeneration⟩

theorem run_commitSet (hs : s.Settled) (hset : set.valid = true) (flash : Flash) :
    ∃ flash', (commitSet s set).run Flash.answer flash = ((true, committedSet s set), flash') := by
  have hpayload := storable_setBytes hset
  have hgeneration : s.nextGeneration ≠ 0 := by
    rw [Store.nextGeneration_eq]
    exact Counter.nonzeroNext32_ne_zero _
  have hencode : encodeSet set TransactionStore.maxPayloadCapacity = some (setBytes set) :=
    encodeSet_eq hset (by decide)
  obtain ⟨staged, hstaged⟩ := Store.run_stage hpayload hs.1 flash
  obtain ⟨committed, hcommitted⟩ := Store.run_commit
    (s := { s with
      candidate := some ⟨setBytes set, s.nextGeneration⟩, candidateRecordStatus := .valid })
    hs rfl hpayload hgeneration staged
  refine ⟨committed, ?_⟩
  unfold commitSet
  simp only [Program.run_bind, TransactionStore.Flash.run_allocate, hencode, hstaged, hcommitted,
    Bool.not_true, Bool.false_eq_true, if_false, ne_eq, not_true, Program.run_pure, decide_true]
  rfl

theorem settled_committedSet (hs : s.Settled) (set : StoredSet) :
    (committedSet s set).Settled :=
  Store.settled_committed hs _

theorem exposed_committedSet (s : Store) {set : StoredSet} (h : set.valid = true) :
    exposed (committedSet s set) = some set :=
  decodeSet_setBytes h

theorem exec_of_run {flash flash' : Flash}
    (h : (perform s operation).run Flash.answer flash = ((outcome, t), flash')) :
    Program.Exec Flash.Step (perform s operation) flash (some (outcome, t)) flash' := by
  have hexec := Program.Exec.of_run Flash.Step.answered (perform s operation) flash
  rwa [h] at hexec

theorem run_selectActive {profileId : CString} (hs : s.Settled)
    (hid : validProfileIdArgument profileId = true) (hset : exposed s = some set)
    (hfound : set.find profileId = some found)
    (hvalid : StoredSet.valid { set with activeIndex := UInt8.ofNat found } = true)
    (flash : Flash) :
    ∃ flash', (perform s (.selectActive profileId)).run Flash.answer flash =
      ((.update .updated, committedSet s { set with activeIndex := UInt8.ofNat found }),
        flash') := by
  obtain ⟨flash', hcommit⟩ := run_commitSet hs hvalid flash
  refine ⟨flash', ?_⟩
  unfold perform updateOutcome selectActive update loadSet
  simp only [hid, hset, hfound, hcommit, Program.run_bind, TransactionStore.Flash.run_allocate,
    Bool.not_true, Bool.false_eq_true, if_false, if_true, Program.run_pure]

theorem run_activateOnSuccess {profileId : CString} {expectedGeneration : UInt32}
    {unixMs : UInt64} (hs : s.Settled) (hid : validProfileIdArgument profileId = true)
    (htime : (unixMs == 0) = false) (hset : exposed s = some set)
    (hfence : atGeneration s expectedGeneration = true)
    (hfound : set.find profileId = some found)
    (hset' : StoredSet.modify { set with activeIndex := UInt8.ofNat found } found
      (.succeeded unixMs) = set')
    (hvalid : set'.valid = true) (flash : Flash) :
    ∃ flash', (perform s (.activateOnSuccess profileId expectedGeneration unixMs)).run
      Flash.answer flash = ((.update .updated, committedSet s set'), flash') := by
  obtain ⟨flash', hcommit⟩ := run_commitSet hs hvalid flash
  refine ⟨flash', ?_⟩
  unfold perform updateOutcome activateOnSuccess loadSet
  simp only [hid, htime, hset, hfence, hfound, hset', hcommit, Program.run_bind,
    TransactionStore.Flash.run_allocate, Bool.not_true, Bool.false_eq_true, if_false, if_true,
    Bool.or_false, Program.run_pure]

theorem run_pair {request : PairRequest} {credential : Credential} {hubPort : ℕ} (hs : s.Settled)
    (hterminated : terminated request.hubAddress addressCapacity = true ∧
      terminated request.pairingAddress addressCapacity = true)
    (hport : addressPort request.hubAddress = some hubPort)
    (hpairing : validPairingAddress request.pairingAddress (UInt16.ofNat hubPort) = true)
    (hcode : validCode request.code = true) (hcredential : credential.valid = true)
    (hcopied : copied request credential = true) (hset : exposed s = some set)
    (hpair : set.pair request credential = some set') (hvalid : set'.valid = true)
    (flash : Flash) :
    ∃ flash', (perform s (.pair request (some credential))).run Flash.answer flash =
      ((.pair .paired, committedSet s set'), flash') := by
  obtain ⟨flash', hcommit⟩ := run_commitSet hs hvalid flash
  refine ⟨flash', ?_⟩
  unfold perform pair loadSet
  simp only [hterminated.1, hterminated.2, hport, hpairing, hcode, hcredential, hcopied, hset,
    hpair, hs.1, hcommit, Program.run_bind, TransactionStore.Flash.run_allocate, Bool.not_true,
    Bool.or_false, Bool.false_eq_true, if_false, if_true, Program.run_pure]

/-! ### A generation that returns -/

namespace Example

def request : PairRequest where
  hubAddress := "10.0.0.5:443".toList.map ascii
  pairingAddress := "192.168.4.2:443".toList.map ascii
  code := "123456".toList.map ascii

/-- A credential whose fingerprint repeats one hexadecimal digit. -/
def credential (digit : Char) : Credential where
  token := List.replicate 43 (ascii 'A')
  certificateFingerprint := fingerprintPrefix ++ List.replicate 64 (ascii digit)
  certificateDer := [1]
  protocolVersion := 1

def profile (digit : Char) : StoredProfile := StoredSet.pairedProfile {} request (credential digit)

def profileId (digit : Char) : CString := (credential digit).certificateFingerprint

/-- The set of two profiles. -/
def pairedSet (activeIndex : UInt8) : StoredSet := ⟨[profile 'a', profile 'b'], activeIndex⟩

/-- The first profile is selected, with success. -/
def select : Operation × Outcome := (.selectActive (profileId 'a'), .update .updated)

/-- Two pairings, then the first profile is selected. -/
def before : List (Operation × Outcome) :=
  [(.pair request (some (credential 'a')), .pair .paired),
    (.pair request (some (credential 'b')), .pair .paired), select]

end Example

open Example

theorem run_select (hs : s.Settled) {activeIndex : UInt8}
    (hset : exposed s = some (pairedSet activeIndex)) (flash : Flash) :
    ∃ t flash', Program.Exec Flash.Step (perform s select.1) flash (some (select.2, t)) flash' ∧
      t.Settled ∧ exposed t = some (pairedSet 0) := by
  have hvalid : (pairedSet 0).valid = true := by decide +kernel
  have hfound : (pairedSet activeIndex).find (profileId 'a') = some 0 := by
    show (pairedSet 0).find (profileId 'a') = some 0
    decide +kernel
  obtain ⟨flash', hrun⟩ := run_selectActive hs (by decide +kernel) hset hfound hvalid flash
  exact ⟨_, flash', exec_of_run hrun, settled_committedSet hs _, exposed_committedSet s hvalid⟩

theorem run_selects (n : ℕ) {s : Store} (hs : s.Settled)
    (hset : exposed s = some (pairedSet 0)) (flash : Flash) :
    ∃ t flash', Run Flash.Step s flash (List.replicate n select) t flash' ∧ t.Settled ∧
      exposed t = some (pairedSet 0) := by
  induction n generalizing s flash with
  | zero => exact ⟨s, flash, .nil, hs, hset⟩
  | succ n ih =>
    obtain ⟨t, flash₁, hfirst, ht, htset⟩ := run_select hs hset flash
    obtain ⟨u, flash₂, hrest, hu⟩ := ih ht htset flash₁
    exact ⟨u, flash₂, .cons hfirst hrest, hu⟩

theorem create_empty :
    Program.Exec Flash.Step (Store.create options) Flash.empty (some (some {})) Flash.empty :=
  Program.Exec.of_run Flash.Step.answered (Store.create options) Flash.empty

theorem run_before :
    ∃ s flash, Run Flash.Step {} Flash.empty before s flash ∧ s.Settled ∧
      exposed s = some (pairedSet 0) := by
  have hsettled : Store.Settled {} := ⟨rfl, rfl⟩
  have hone : StoredSet.valid ⟨[profile 'a'], 0⟩ = true := by decide +kernel
  have htwo : (pairedSet 1).valid = true := by decide +kernel
  obtain ⟨flash₁, hfirst⟩ := run_pair hsettled (by decide +kernel)
    (show addressPort request.hubAddress = some 443 by decide +kernel) (by decide +kernel)
    (by decide +kernel) (show (credential 'a').valid = true by decide +kernel)
    (by decide +kernel) rfl
    (show StoredSet.pair _ request (credential 'a') = some ⟨[profile 'a'], 0⟩ by decide +kernel)
    hone Flash.empty
  have hsettled₁ := settled_committedSet hsettled ⟨[profile 'a'], 0⟩
  obtain ⟨flash₂, hsecond⟩ := run_pair hsettled₁ (by decide +kernel)
    (show addressPort request.hubAddress = some 443 by decide +kernel) (by decide +kernel)
    (by decide +kernel) (show (credential 'b').valid = true by decide +kernel)
    (by decide +kernel) (exposed_committedSet {} hone)
    (show StoredSet.pair _ request (credential 'b') = some (pairedSet 1) by decide +kernel)
    htwo flash₁
  obtain ⟨s, flash₃, hthird, hs, hset⟩ := run_select (settled_committedSet hsettled₁ (pairedSet 1))
    (exposed_committedSet _ htwo) flash₂
  exact ⟨s, flash₃, .cons (exec_of_run hfirst) (.cons (exec_of_run hsecond) (.cons hthird .nil)),
    hs, hset⟩

theorem commits_selects (n : ℕ) : commits (List.replicate n select) = n := by
  unfold commits
  rw [List.countP_replicate, if_pos]
  rfl

theorem atGeneration_of_generation {generation : UInt32} (h : generation ≠ 0)
    (hs : s.generation = generation) : atGeneration s generation = true := by
  unfold Store.generation at hs
  unfold atGeneration
  match hactive : s.active with
  | none =>
    rw [hactive] at hs
    exact absurd hs.symm h
  | some active =>
    rw [hactive] at hs
    exact beq_iff_eq.mpr hs

theorem profile_set_invariant_before :
    ∃ s flash, Run Flash.Step {} Flash.empty before s flash ∧
      ∃ set, exposed s = some set ∧ set.valid = true ∧
        (∀ operation outcome t flash',
          Program.Exec Flash.Step (perform s operation) flash (some (outcome, t)) flash' →
            Correct set operation outcome t) ∧
        ∀ later t flash' profileId unixMs outcome u flash'', Run Flash.Step s flash later t flash' →
          Program.Exec Flash.Step (perform t (.activateOnSuccess profileId s.generation unixMs))
            flash' (some (outcome, u)) flash'' →
          exposed u ≠ exposed t → 2 ^ 32 - 1 ∣ commits later := by
  obtain ⟨s, flash, hbefore, -⟩ := run_before
  exact ⟨s, flash, hbefore, profile_set_invariant create_empty hbefore⟩

/-- After `2 ^ 32 - 1` commits the captured generation is current again, and the activation
replaces what they selected. -/
theorem activation_after_commits :
    ∃ s₀ s t u flash₀ flash flash' flash'',
      Program.Exec Flash.Step (Store.create options) Flash.empty (some (some s₀)) flash₀ ∧
      Run Flash.Step s₀ flash₀ before s flash ∧
      Run Flash.Step s flash (List.replicate (2 ^ 32 - 1) select) t flash' ∧
      Program.Exec Flash.Step (perform t (.activateOnSuccess (profileId 'b') s.generation 1))
        flash' (some (.update .updated, u)) flash'' ∧
      exposed u ≠ exposed t := by
  obtain ⟨s, flash, hbefore, hs, hset⟩ := run_before
  obtain ⟨t, flash', hlater, ht, htset⟩ := run_selects (2 ^ 32 - 1) hs hset flash
  have hgeneration : s.generation ≠ 0 := by
    rw [generation_of_run hbefore, show commits before = 3 by decide +kernel,
      Function.iterate_succ_apply']
    exact Counter.nonzeroNext32_ne_zero _
  have hreturned : t.generation = s.generation := by
    rw [generation_of_run hlater, commits_selects]
    exact (Counter.iterate_nonzeroNext32_eq_self_iff hgeneration _).mpr (dvd_refl _)
  have hvalid : StoredSet.valid (StoredSet.modify (pairedSet 1) 1 (.succeeded 1)) = true := by
    decide +kernel
  obtain ⟨flash'', hactivate⟩ := run_activateOnSuccess ht
    (show validProfileIdArgument (profileId 'b') = true by decide +kernel)
    (show ((1 : UInt64) == 0) = false by decide) htset
    (atGeneration_of_generation hgeneration hreturned)
    (show (pairedSet 0).find (profileId 'b') = some 1 by decide +kernel)
    (show _ = StoredSet.modify (pairedSet 1) 1 (.succeeded 1) from rfl) hvalid flash'
  refine ⟨{}, s, t, _, Flash.empty, flash, flash', flash'', create_empty, hbefore, hlater,
    exec_of_run hactivate, ?_⟩
  rw [exposed_committedSet t hvalid, htset]
  decide +kernel

end RlcdDeck.CompanionProfiles
