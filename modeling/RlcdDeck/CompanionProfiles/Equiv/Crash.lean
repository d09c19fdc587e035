import RlcdDeck.CompanionProfiles.Equiv.Profiles
import RlcdDeck.TransactionStore.Equiv.Crash

/-!
# Power losses during an operation on the profiles

An operation changes the storage in its last step, which stages the bytes of one set and commits
them.  So wherever an operation is cut off, the set that is recovered is the one before it or the
one it was about to commit (`operation_atomic`).
-/

namespace RlcdDeck.CompanionProfiles

open Effects
open TransactionStore (Storage Store Flash Known)

variable {s : Store} {set : StoredSet} {operation : Operation} {flash flash' : Flash}

/-- The set that an operation on `set` commits. -/
def changedSet (set : StoredSet) : Operation → Option StoredSet
  | .pair request redeemed => redeemed.bind (set.pair request)
  | .selectActive profileId =>
    (set.find profileId).map fun found => { set with activeIndex := UInt8.ofNat found }
  | .revoke profileId => (set.find profileId).map set.remove
  | .setPriority profileId priority =>
    (set.find profileId).map fun found =>
      set.modify found fun profile => { profile with priority := priority }
  | .recordSuccess profileId unixMs =>
    (set.find profileId).map fun found => set.modify found (.succeeded unixMs)
  | .activateOnSuccess profileId _ unixMs =>
    (set.find profileId).map fun found =>
      { set with activeIndex := UInt8.ofNat found }.modify found (.succeeded unixMs)

/-- The storage between the calls of an operation: what was active, or the changed set. -/
def Between (s : Store) (operation : Operation) (flash : Flash) : Prop :=
  s.storageFaulted = false → flash.active options = s.active ∨
    ∃ set set', exposed s = some set ∧ changedSet set operation = some set' ∧ set'.valid = true ∧
      flash.active options = some ⟨setBytes set', s.nextGeneration⟩

/-- A store that an operation leaves knows its storage, if it has not failed. -/
def Leaves {α : Type} (out : α × Store) (flash : Flash) : Prop :=
  out.2.storageFaulted = false → Known options out.2 flash

theorem commitSet_wp (h : s.storageFaulted = false → Known options s flash) :
    (commitSet s set).wp Flash.Step Leaves (fun flash' => s.storageFaulted = false →
      flash'.active options = s.active ∨
        set.valid = true ∧ flash'.active options = some ⟨setBytes set, s.nextGeneration⟩)
      flash := by
  have hstart : s.storageFaulted = false → flash.active options = s.active ∨
      set.valid = true ∧ flash.active options = some ⟨setBytes set, s.nextGeneration⟩ :=
    fun hs => .inl (h hs).active
  unfold commitSet
  refine Program.wp_perform hstart fun allocated flash' hstep => ?_
  obtain rfl := TransactionStore.step_allocate hstep
  split_ifs
  · exact Program.wp_pure hstart h
  split
  · exact Program.wp_pure hstart h
  next payload hpayload =>
  have hvalid : set.valid = true := by
    by_contra hno
    rw [encodeSet, if_pos (.inr (by simpa using hno))] at hpayload
    cases hpayload
  rw [encodeSet_eq hvalid (by decide)] at hpayload
  obtain rfl := Option.some.inj hpayload
  -- a cut while the candidate is staged leaves the old set, a cut in the commit one of the two
  refine Program.wp_seq (TransactionStore.stage_wp _ h) (fun _ hkept hs => .inl (hkept hs)) ?_
  rintro ⟨staged, t⟩ flash₁ hkept ⟨hknown, hactive, hstaged⟩
  dsimp only at hknown hactive hstaged ⊢
  split_ifs with hresult
  · exact Program.wp_pure (fun hs => .inl (hkept hs)) hknown
  rw [not_not] at hresult
  obtain ⟨ht, hcandidate⟩ := hstaged hresult
  refine Program.wp_seq (TransactionStore.commit_wp (hknown ht) hcandidate) ?_ ?_
  · rintro flash' (hsame | hcommitted) _
    · exact .inl (hsame.trans hactive)
    · exact .inr ⟨hvalid, hcommitted⟩
  · rintro ⟨committed, u⟩ flash₂ heither ⟨hleft, -⟩
    refine Program.wp_pure (fun _ => ?_) hleft
    rcases heither with hsame | hcommitted
    · exact .inl (hsame.trans hactive)
    · exact .inr ⟨hvalid, hcommitted⟩

/-! ### The operations -/

theorem between_of_known (h : s.storageFaulted = false → Known options s flash) :
    Between s operation flash :=
  fun hs => .inl (h hs).active

theorem loadSet_wp (h : Between s operation flash) :
    (loadSet s).wp Flash.Step (fun found flash' => flash' = flash ∧
      ∀ set, found = some set → exposed s = some set) (Between s operation) flash := by
  refine Program.wp_perform h fun allocated flash' hstep => ?_
  obtain rfl := TransactionStore.step_allocate hstep
  split_ifs
  · exact Program.wp_pure h ⟨rfl, fun _ habsurd => absurd habsurd nofun⟩
  · exact Program.wp_pure h ⟨rfl, fun _ hexposed => hexposed⟩

theorem commitSet_between {α : Type} {set' : StoredSet} (result : Bool → α)
    (h : s.storageFaulted = false → Known options s flash) (hexposed : exposed s = some set)
    (hchanged : changedSet set operation = some set') :
    (commitSet s set' >>= fun out => pure (result out.1, out.2)).wp Flash.Step Leaves
      (Between s operation) flash := by
  have hcut : ∀ flash', (s.storageFaulted = false → flash'.active options = s.active ∨
      set'.valid = true ∧ flash'.active options = some ⟨setBytes set', s.nextGeneration⟩) →
      Between s operation flash' := by
    intro flash' heither hs
    rcases heither hs with hsame | ⟨hvalid, hcommitted⟩
    · exact .inl hsame
    · exact .inr ⟨set, set', hexposed, hchanged, hvalid, hcommitted⟩
  exact Program.wp_seq (commitSet_wp h) hcut fun out flash' heither hleft =>
    Program.wp_pure (hcut flash' heither) hleft

/-- What the updates answer after the commit. -/
def updated (committed : Bool) : UpdateResult := if committed then .updated else .storageFailure

theorem update_wp {profileId : CString} {change : StoredSet → ℕ → StoredSet}
    (h : s.storageFaulted = false → Known options s flash)
    (hchange : ∀ set, changedSet set operation = (set.find profileId).map (change set)) :
    (update s profileId change).wp Flash.Step Leaves (Between s operation) flash := by
  have hstart : Between s operation flash := between_of_known h
  unfold update
  split_ifs
  · exact Program.wp_pure hstart h
  refine Program.wp_bind (Program.wp_mono (loadSet_wp hstart) (fun _ h => h) ?_)
  rintro found flash' ⟨rfl, hexposed⟩
  cases found with
  | none => exact Program.wp_pure hstart h
  | some set =>
    dsimp only
    cases hfound : set.find profileId with
    | none => exact Program.wp_pure hstart h
    | some found =>
      refine commitSet_between updated h (hexposed set rfl) ?_
      rw [hchange, hfound, Option.map_some]

theorem activateOnSuccess_wp {profileId : CString} {expectedGeneration : UInt32} {unixMs : UInt64}
    (h : s.storageFaulted = false → Known options s flash)
    (hstart : Between s (.activateOnSuccess profileId expectedGeneration unixMs) flash) :
    (activateOnSuccess s profileId expectedGeneration unixMs).wp Flash.Step Leaves
      (Between s (.activateOnSuccess profileId expectedGeneration unixMs)) flash := by
  unfold activateOnSuccess
  split
  · exact Program.wp_pure hstart h
  refine Program.wp_bind (Program.wp_mono (loadSet_wp hstart) (fun _ h => h) ?_)
  rintro found flash' ⟨rfl, hexposed⟩
  cases found with
  | none => exact Program.wp_pure hstart h
  | some set =>
    dsimp only
    split
    · exact Program.wp_pure hstart h
    cases hfound : set.find profileId with
    | none => exact Program.wp_pure hstart h
    | some found =>
      refine commitSet_between updated h (hexposed set rfl) ?_
      rw [changedSet, hfound, Option.map_some]

theorem pair_wp {request : PairRequest} {redeemed : Option Credential}
    (h : s.storageFaulted = false → Known options s flash)
    (hstart : Between s (.pair request redeemed) flash) :
    (pair s request redeemed).wp Flash.Step Leaves (Between s (.pair request redeemed)) flash := by
  have hrefused : ∀ result : PairResult, Program.wp Flash.Step Leaves
      (Between s (.pair request redeemed)) (pure (result, s) : Storage _) flash :=
    fun result => Program.wp_pure hstart h
  unfold pair
  split
  · exact hrefused _
  split
  · exact hrefused _
  split
  · exact hrefused _
  split
  · exact hrefused _
  refine Program.wp_bind (Program.wp_mono (loadSet_wp hstart) (fun _ h => h) ?_)
  rintro found flash' ⟨rfl, hexposed⟩
  cases found with
  | none => exact hrefused _
  | some set =>
  dsimp only
  split
  · exact hrefused _
  refine Program.wp_perform hstart fun allocated flash'' hstep => ?_
  obtain rfl := TransactionStore.step_allocate hstep
  split
  · exact hrefused _
  cases redeemed with
  | none => exact hrefused _
  | some credential =>
  dsimp only
  split
  · exact hrefused _
  cases hpair : set.pair request credential with
  | none => exact hrefused _
  | some set' =>
  dsimp only
  split
  · exact hrefused _
  · exact commitSet_between
      (fun committed => if committed then PairResult.paired else .storageFailure) h
      (hexposed set rfl) hpair

/-- Wherever an operation is cut off, the storage has the set before it or the changed one. -/
theorem perform_wp (operation : Operation) (h : s.storageFaulted = false → Known options s flash) :
    (perform s operation).wp Flash.Step Leaves (Between s operation) flash := by
  have hstart : Between s operation flash := between_of_known h
  have hupdate : ∀ {p : Storage (UpdateResult × Store)},
      p.wp Flash.Step Leaves (Between s operation) flash →
      (updateOutcome p).wp Flash.Step Leaves (Between s operation) flash :=
    fun hp => Program.wp_seq hp (fun _ h => h) fun _ _ hcut hleft => Program.wp_pure hcut hleft
  cases operation with
  | pair request redeemed =>
    exact Program.wp_seq (pair_wp h hstart) (fun _ h => h) fun _ _ hcut hleft =>
      Program.wp_pure hcut hleft
  | selectActive profileId => exact hupdate (update_wp h fun set => rfl)
  | revoke profileId => exact hupdate (update_wp h fun set => rfl)
  | setPriority profileId priority => exact hupdate (update_wp h fun set => rfl)
  | recordSuccess profileId unixMs =>
    refine hupdate ?_
    unfold recordSuccess
    split_ifs
    · exact Program.wp_pure hstart h
    · exact update_wp h fun set => rfl
  | activateOnSuccess profileId expectedGeneration unixMs =>
    exact hupdate (activateOnSuccess_wp h hstart)

/-! ### Runs -/

/-- The store of the profiles, if there is one, and its storage, after any operations and losses
of power. -/
inductive Reachable : Option Store → Flash → Prop
  | start (flash : Flash) : Reachable none flash
  | powerLost {store : Option Store} {flash : Flash} : Reachable store flash → Reachable none flash
  | created {flash flash' : Flash} {out : Option (Option Store)} : Reachable none flash →
    Program.Exec Flash.Step (Store.create options) flash out flash' → Reachable out.join flash'
  | performed {s : Store} {flash flash' : Flash} {operation : Operation}
    {out : Option (Outcome × Store)} : Reachable (some s) flash →
    Program.Exec Flash.Step (perform s operation) flash out flash' →
    Reachable (out.map Prod.snd) flash'

theorem known_of_reachable {store : Option Store} (h : Reachable store flash) :
    ∀ s, store = some s → s.storageFaulted = false → Known options s flash := by
  induction h with
  | start => exact fun _ habsurd => absurd habsurd nofun
  | powerLost => exact fun _ habsurd => absurd habsurd nofun
  | created _ hexec _ =>
    intro s hs
    obtain rfl := Option.join_eq_some_iff.mp hs
    exact hexec.sound TransactionStore.create_wp s rfl
  | performed _ hexec ih =>
    exact TransactionStore.known_of_exec hexec (perform_wp _ (ih _ rfl)) fun _ _ h => h

end RlcdDeck.CompanionProfiles
