import RlcdDeck.CompanionFailover.Failover
import Mathlib.Data.List.Infix
import Mathlib.Data.List.Sort
import Mathlib.Data.Nat.Bitwise

/-!
# The rounds of the failover

`candidates ps` are the profiles other than the active one in the order in which they are
requested.  A run under one profile generation is summarised by what its calls show (`Summary`):
since when the link is offline without a break, since when the present window runs, and which
profiles the present round has requested.  `Inv` ties the failover to that summary, `inv_advance`
is the step, and `failover_rounds` the result over runs.
-/

namespace RlcdDeck.CompanionFailover

variable {ps : Profiles} {f : Failover}

/-! ### The order of the candidates -/

/-- Priority descending, then last success descending, then index ascending. -/
def Before (ps : Profiles) (i j : ℕ) : Prop :=
  (ps.get j).priority < (ps.get i).priority ∨
    ((ps.get i).priority = (ps.get j).priority ∧
      ((ps.get j).lastSuccessUnixMs < (ps.get i).lastSuccessUnixMs ∨
        ((ps.get i).lastSuccessUnixMs = (ps.get j).lastSuccessUnixMs ∧ i < j)))

instance (ps : Profiles) (i j : ℕ) : Decidable (Before ps i j) :=
  inferInstanceAs (Decidable (_ ∨ _))

variable {i j : ℕ}

theorem Before.trans {k : ℕ} (h : Before ps i j) (h' : Before ps j k) : Before ps i k := by
  unfold Before at *
  omega

theorem Before.asymm (h : Before ps i j) : ¬Before ps j i := by
  unfold Before at *
  omega

theorem before_trichotomous (h : i ≠ j) : Before ps i j ∨ Before ps j i := by
  unfold Before
  omega

/-- Not after. -/
def NotAfter (ps : Profiles) (i j : ℕ) : Prop :=
  ¬Before ps j i

instance (ps : Profiles) : DecidableRel (NotAfter ps) :=
  fun _ _ => inferInstanceAs (Decidable (¬_))

instance : Std.Total (NotAfter ps) :=
  ⟨fun i j => by
    by_cases h : Before ps j i
    · exact .inr h.asymm
    · exact .inl h⟩

instance : IsTrans ℕ (NotAfter ps) :=
  ⟨fun i j k hij hjk => by
    unfold NotAfter Before at *
    omega⟩

/-- The indices of the profiles other than the active one, in the order they are requested. -/
def order (ps : Profiles) : List ℕ :=
  ((List.range ps.profiles.length).filter (· ≠ ps.activeIndex)).insertionSort (NotAfter ps)

/-- The profiles other than the active one, in the order they are requested. -/
def candidates (ps : Profiles) : List Id :=
  (order ps).map fun i => (ps.get i).profileId

theorem mem_order : i ∈ order ps ↔ i < ps.profiles.length ∧ i ≠ ps.activeIndex := by
  rw [order, (List.perm_insertionSort _ _).mem_iff]
  simp

theorem nodup_order : (order ps).Nodup := by
  rw [order, (List.perm_insertionSort _ _).nodup_iff]
  exact List.nodup_range.filter _

theorem pairwise_order : (order ps).Pairwise (Before ps) := by
  have hsorted := List.pairwise_insertionSort (NotAfter ps)
    ((List.range ps.profiles.length).filter (· ≠ ps.activeIndex))
  refine (hsorted.and nodup_order).imp ?_
  rintro i j ⟨hnot, hne⟩
  exact (before_trichotomous hne).resolve_right hnot

/-! ### The best candidate left -/

/-- `best` is the first in the order among the indices below `n` with the property. -/
def IsBest (ps : Profiles) (p : ℕ → Prop) (n : ℕ) : Option ℕ → Prop
  | none => ∀ i < n, ¬p i
  | some m => m < n ∧ p m ∧ ∀ i < n, p i → i = m ∨ Before ps m i

/-- The indices that `best_unattempted` does not skip. -/
def Unattempted (f : Failover) (ps : Profiles) (i : ℕ) : Prop :=
  f.attemptedMask.testBit i = false ∧ (ps.get i).profileId ≠ f.storedActiveProfileId

theorem before_of_better (h : better ps i j = true) : Before ps i j := by
  simp only [better, Bool.or_eq_true, Bool.and_eq_true, decide_eq_true_eq] at h
  unfold Before
  omega

theorem before_of_not_better (h : better ps i j = false) (hlt : j < i) :
    Before ps j i := by
  simp only [better, Bool.or_eq_false_iff, Bool.and_eq_false_iff, decide_eq_false_iff_not] at h
  unfold Before
  omega

theorem isBest_bestStep {n : ℕ} {best : Option ℕ} (h : IsBest ps (Unattempted f ps) n best) :
    IsBest ps (Unattempted f ps) (n + 1) (bestStep f ps best n) := by
  by_cases hskip :
      (f.attemptedMask.testBit n || (ps.get n).profileId = f.storedActiveProfileId) = true
  · have hnot : ¬Unattempted f ps n := by
      rintro ⟨hbit, hid⟩
      simp [hbit, hid] at hskip
    unfold bestStep
    rw [if_pos hskip]
    cases best with
    | none =>
      intro i hi
      rcases Nat.lt_succ_iff_lt_or_eq.mp hi with hlt | rfl
      · exact h i hlt
      · exact hnot
    | some m =>
      refine ⟨by have := h.1; omega, h.2.1, fun i hi hp => ?_⟩
      rcases Nat.lt_succ_iff_lt_or_eq.mp hi with hlt | rfl
      · exact h.2.2 i hlt hp
      · exact absurd hp hnot
  have hun : Unattempted f ps n := by simpa [Unattempted] using hskip
  unfold bestStep
  rw [if_neg hskip]
  cases best with
  | none =>
    refine ⟨Nat.lt_succ_self n, hun, fun i hi hp => ?_⟩
    rcases Nat.lt_succ_iff_lt_or_eq.mp hi with hlt | rfl
    · exact absurd hp (h i hlt)
    · exact .inl rfl
  | some m =>
    obtain ⟨hm, hpm, hfirst⟩ := h
    dsimp only
    by_cases hbetter : better ps n m = true
    · rw [if_pos hbetter]
      refine ⟨Nat.lt_succ_self n, hun, fun i hi hp => ?_⟩
      rcases Nat.lt_succ_iff_lt_or_eq.mp hi with hlt | rfl
      · have hnm := before_of_better hbetter
        rcases hfirst i hlt hp with rfl | hbefore
        · exact .inr hnm
        · exact .inr (hnm.trans hbefore)
      · exact .inl rfl
    · rw [if_neg hbetter]
      refine ⟨by omega, hpm, fun i hi hp => ?_⟩
      rcases Nat.lt_succ_iff_lt_or_eq.mp hi with hlt | rfl
      · exact hfirst i hlt hp
      · exact .inr (before_of_not_better (by simpa using hbetter) hm)

theorem isBest_bestUnattempted :
    IsBest ps (Unattempted f ps) ps.profiles.length (bestUnattempted f ps) := by
  unfold bestUnattempted
  induction ps.profiles.length with
  | zero => exact fun i hi => absurd hi (Nat.not_lt_zero i)
  | succ n ih =>
    rw [List.range_succ, List.foldl_append]
    exact isBest_bestStep ih

/-! ### One request of a round -/

theorem get_eq (hi : i < ps.profiles.length) : ps.get i = ps.profiles[i] := by
  simp [Profiles.get, hi]

theorem profileId_inj (hi : i < ps.profiles.length) (hj : j < ps.profiles.length)
    (h : (ps.get i).profileId = (ps.get j).profileId) : i = j := by
  rw [get_eq hi, get_eq hj] at h
  refine (List.getElem?_inj (by simpa using hi) ps.distinct).mp ?_
  rw [List.getElem?_map, List.getElem?_map, List.getElem?_eq_getElem hi,
    List.getElem?_eq_getElem hj, Option.map_some, Option.map_some, h]

theorem fits_get (hi : i < ps.profiles.length) : fits (ps.get i).profileId = true := by
  rw [get_eq hi]
  simpa [fits] using ps.terminated _ (List.getElem_mem hi)

/-- The profiles requested so far in a round are `done`, and those still to come are `rest`. -/
structure Progress (f : Failover) (ps : Profiles) (done rest : List ℕ) : Prop where
  stored : f.storedActiveProfileId = ps.activeProfileId
  order : order ps = done ++ rest
  mask : ∀ i < ps.profiles.length,
    f.attemptedMask.testBit i = true ↔ i = ps.activeIndex ∨ i ∈ done

variable {done rest : List ℕ}

theorem unattempted_iff (h : Progress f ps done rest) {i : ℕ} (hi : i < ps.profiles.length) :
    Unattempted f ps i ↔ i ∈ rest := by
  have hmask := h.mask i hi
  have hactive : ps.activeIndex < ps.profiles.length :=
    ps.active_lt (List.ne_nil_of_length_pos (by omega))
  have hnodup : (order ps).Nodup := nodup_order
  rw [h.order, List.nodup_append] at hnodup
  constructor
  · rintro ⟨hbit, hid⟩
    rw [hbit] at hmask
    have hmem : i ∈ order ps := by
      refine mem_order.mpr ⟨hi, ?_⟩
      rintro rfl
      exact hid h.stored.symm
    rw [h.order, List.mem_append] at hmem
    exact hmem.resolve_left fun hd => absurd (hmask.mpr (.inr hd)) (by simp)
  · intro hrest
    have hmem : i ∈ order ps := by
      rw [h.order]
      exact List.mem_append_right _ hrest
    have hne := (mem_order.mp hmem).2
    refine ⟨?_, ?_⟩
    · rw [← Bool.not_eq_true, hmask, not_or]
      exact ⟨hne, fun hd => hnodup.2.2 i hd i hrest rfl⟩
    · rw [h.stored]
      exact fun heq => hne (profileId_inj hi hactive heq)

theorem bestUnattempted_eq (h : Progress f ps done rest) :
    bestUnattempted f ps = rest.head? := by
  have hbest : IsBest ps (Unattempted f ps) ps.profiles.length (bestUnattempted f ps) :=
    isBest_bestUnattempted
  have hlt : ∀ i ∈ rest, i < ps.profiles.length := by
    intro i hi
    refine (mem_order.mp ?_).1
    rw [h.order]
    exact List.mem_append_right _ hi
  cases hb : bestUnattempted f ps with
  | none =>
    rw [hb] at hbest
    cases rest with
    | nil => rfl
    | cons c rest =>
      have hc : c < ps.profiles.length := hlt c List.mem_cons_self
      exact absurd ((unattempted_iff h hc).mpr List.mem_cons_self) (hbest c hc)
  | some m =>
    rw [hb] at hbest
    obtain ⟨hm, hpm, hfirst⟩ := hbest
    have hmem := (unattempted_iff h hm).mp hpm
    cases rest with
    | nil => exact absurd hmem List.not_mem_nil
    | cons c rest =>
      have hc : c < ps.profiles.length := hlt c List.mem_cons_self
      rcases hfirst c hc ((unattempted_iff h hc).mpr List.mem_cons_self) with rfl | hbefore
      · rfl
      · -- the head of the sorted rest cannot come after a member of it
        rcases List.mem_cons.mp hmem with rfl | hin
        · rfl
        · have hpair : (order ps).Pairwise (Before ps) := pairwise_order
          rw [h.order, List.pairwise_append, List.pairwise_cons] at hpair
          exact absurd hbefore (hpair.2.1.1 m hin).asymm

variable {c : ℕ}

theorem advanceRound_of_cons (h : Progress f ps done (c :: rest)) (nowMs : ℕ) :
    advanceRound f ps nowMs =
      ⟨true,
        { f with
          attemptedMask := f.attemptedMask ||| 2 ^ c
          targetProfileId := (ps.get c).profileId
          online := false },
        some ⟨ps.generation, (ps.get c).profileId⟩⟩ := by
  have hc : c < ps.profiles.length := by
    refine (mem_order.mp ?_).1
    rw [h.order]
    simp
  rw [advanceRound, bestUnattempted_eq h, List.head?_cons]
  simp [connectTo, fits_get hc]

theorem progress_next (h : Progress f ps done (c :: rest)) {f' : Failover}
    (hstored : f'.storedActiveProfileId = f.storedActiveProfileId)
    (hmask : f'.attemptedMask = f.attemptedMask ||| 2 ^ c) :
    Progress f' ps (done ++ [c]) rest := by
  refine ⟨hstored.trans h.stored, by simpa using h.order, fun i hi => ?_⟩
  rw [hmask, Nat.testBit_or, Bool.or_eq_true, h.mask i hi, Nat.testBit_two_pow]
  simp only [decide_eq_true_eq, List.mem_append, List.mem_singleton, or_assoc]
  exact or_congr_right (or_congr_right eq_comm)

/-! ### What a run shows -/

/-- One call of a run, with the profile it requests. -/
structure Entry where
  event : Event
  nowMs : ℕ
  requested : Option Id

/-- What the calls under one profile generation show. -/
structure Summary where
  /-- Since when the link is offline without a break. -/
  stretch : Option ℕ := none
  /-- Since when the present offline window runs. -/
  window : Option ℕ := none
  /-- The profiles other than the active one that this round has requested. -/
  round : List Id := []

namespace Summary

/-- The first call under a generation: the link is offline if a connection is requested. -/
def start (e : Entry) : Summary :=
  match e.requested with
  | some _ => ⟨some e.nowMs, some e.nowMs, []⟩
  | none => {}

/-- A failed transport starts a stretch, unless one is running. -/
def fail (s : Summary) (e : Entry) : Summary :=
  if e.event = .transportFailed ∧ s.stretch = none then
    { s with stretch := some e.nowMs, window := some e.nowMs }
  else s

/-- A request of the active profile ends the round and starts the next window. -/
def request (active : Id) (s : Summary) (e : Entry) : Summary :=
  match e.requested with
  | none => s
  | some id =>
    if id = active then { s with window := some e.nowMs, round := [] }
    else { s with round := s.round ++ [id] }

/-- One more call; coming online ends stretch, window and round. -/
def next (active : Id) (s : Summary) (e : Entry) : Summary :=
  if e.event = .online then {} else (s.fail e).request active e

end Summary

/-- The call and what it requests. -/
def entry (a : Answer) (event : Event) (nowMs : ℕ) : Entry :=
  ⟨event, nowMs, a.action.map Action.profileId⟩

/-- The failover and the summary after further calls under the same profiles. -/
def run (ps : Profiles) : Failover × Summary → List (Event × ℕ) → Failover × Summary
  | state, [] => state
  | (f, s), (event, nowMs) :: calls =>
    let a := advance f ps nowMs event
    run ps (a.failover, s.next ps.activeProfileId (entry a event nowMs)) calls

/-- The failover and the summary after the first call under a generation. -/
def firstCall (f : Failover) (ps : Profiles) (event : Event) (nowMs : ℕ) : Failover × Summary :=
  let a := advance f ps nowMs event
  (a.failover, .start (entry a event nowMs))

/-! ### The invariant -/

/-- The candidates that were requested are the first ones, and the link was offline for a whole
window. -/
def Requesting (f : Failover) (ps : Profiles) (s : Summary) (nowMs : ℕ) : Prop :=
  ∃ done rest, Progress f ps done rest ∧ done ≠ [] ∧
    s.round = done.map (fun i => (ps.get i).profileId) ∧ f.offline = true ∧
    f.targetProfileId ≠ f.storedActiveProfileId ∧
    ∃ since, s.stretch = some since ∧ since + offlineWindowMs ≤ nowMs

/-- The window runs at least since `offlineSinceMs`, within the stretch. -/
def Waiting (f : Failover) (s : Summary) (nowMs : ℕ) : Prop :=
  ∃ since window, s.stretch = some since ∧ s.window = some window ∧
    since ≤ window ∧ window ≤ f.offlineSinceMs ∧ f.offlineSinceMs ≤ nowMs

/-- What holds of the failover between two calls, the last of them at `nowMs`. -/
structure Inv (ps : Profiles) (f : Failover) (s : Summary) (nowMs : ℕ) : Prop where
  initialized : f.initialized = true
  generation : f.profileGeneration = ps.generation
  stored : f.storedActiveProfileId = ps.activeProfileId
  quiet : f.roundActive = false → f.attemptedMask = 0 ∧ s.round = []
  requesting : f.roundActive = true → Requesting f ps s nowMs
  online : f.offline = false → s.stretch = none
  waiting : f.offline = true → f.roundActive = false → Waiting f s nowMs
  alone : order ps = [] → f.targetProfileId = f.storedActiveProfileId

variable {s : Summary}

theorem Inv.mono {t t' : ℕ} (h : Inv ps f s t) (ht : t ≤ t') : Inv ps f s t' := by
  refine { h with requesting := fun hr => ?_, waiting := fun ho hr => ?_ }
  · obtain ⟨done, rest, hp, hd, hround, hoff, htarget, since, hs, hle⟩ := h.requesting hr
    exact ⟨done, rest, hp, hd, hround, hoff, htarget, since, hs, hle.trans ht⟩
  · obtain ⟨since, window, hs, hw, hle, hle', hnow⟩ := h.waiting ho hr
    exact ⟨since, window, hs, hw, hle, hle', hnow.trans ht⟩

theorem activeIndex_lt (h : ps.hasActive = true) : ps.activeIndex < ps.profiles.length := by
  apply ps.active_lt
  rintro hnil
  simp [Profiles.hasActive, hnil] at h

theorem activeProfileId_eq_nil (h : ps.hasActive = false) : ps.activeProfileId = [] := by
  have hnil : ps.profiles = [] := by simpa [Profiles.hasActive] using h
  simp [Profiles.activeProfileId, Profiles.get, hnil]

theorem profileId_ne_active (hi : i ∈ order ps) :
    (ps.get i).profileId ≠ ps.activeProfileId := by
  obtain ⟨hlt, hne⟩ := mem_order.mp hi
  have hactive : ps.activeIndex < ps.profiles.length :=
    ps.active_lt (List.ne_nil_of_length_pos (by omega))
  exact fun heq => hne (profileId_inj hlt hactive heq)

/-- **The first call** under a generation cancels whatever was going on. -/
theorem inv_firstCall (hf : f.initialized = false ∨ f.profileGeneration ≠ ps.generation)
    (event : Event) (nowMs : ℕ) :
    Inv ps (firstCall f ps event nowMs).1 (firstCall f ps event nowMs).2 nowMs := by
  unfold firstCall
  dsimp only
  have hcall : advance f ps nowMs event = profilesChanged f ps nowMs event := if_pos hf
  rw [hcall]
  cases hactive : ps.hasActive with
  | false =>
    have hanswer : profilesChanged f ps nowMs event =
        ⟨true,
          { initialized := true
            profileGeneration := ps.generation
            offlineSinceMs := nowMs }, none⟩ := by
      simp [profilesChanged, hactive]
    rw [hanswer]
    exact
      { initialized := rfl
        generation := rfl
        stored := (activeProfileId_eq_nil hactive).symm
        quiet := fun _ => ⟨rfl, rfl⟩
        requesting := fun h => by cases h
        online := fun _ => rfl
        waiting := fun h => by cases h
        alone := fun _ => rfl }
  | true =>
    have hfits : fits ps.activeProfileId = true := fits_get (activeIndex_lt hactive)
    cases haccept : decide (event = .online) && !f.targetProfileId.isEmpty &&
        decide (f.targetProfileId = ps.activeProfileId) with
    | true =>
      have hanswer : profilesChanged f ps nowMs event =
          ⟨true,
            { initialized := true
              online := true
              profileGeneration := ps.generation
              offlineSinceMs := nowMs
              storedActiveProfileId := ps.activeProfileId
              targetProfileId := ps.activeProfileId }, none⟩ := by
        simp only [Bool.and_eq_true, decide_eq_true_eq, Bool.not_eq_true'] at haccept
        have hne : ¬ps.activeProfileId = [] := by
          rw [← haccept.2]
          simpa using haccept.1.2
        simp [profilesChanged, hactive, hfits, haccept, hne]
      rw [hanswer]
      exact
        { initialized := rfl
          generation := rfl
          stored := rfl
          quiet := fun _ => ⟨rfl, rfl⟩
          requesting := fun h => by cases h
          online := fun _ => rfl
          waiting := fun h => by cases h
          alone := fun _ => rfl }
    | false =>
      have hanswer : profilesChanged f ps nowMs event =
          ⟨true,
            { initialized := true
              offline := true
              profileGeneration := ps.generation
              offlineSinceMs := nowMs
              storedActiveProfileId := ps.activeProfileId
              targetProfileId := ps.activeProfileId },
            some ⟨ps.generation, ps.activeProfileId⟩⟩ := by
        have haccept' : (decide (event = .online) && ps.hasActive && !f.targetProfileId.isEmpty &&
            decide (f.targetProfileId = ps.activeProfileId)) = false := by
          rw [hactive, Bool.and_true]
          exact haccept
        simp only [profilesChanged, haccept']
        simp [hactive, hfits, connectTo]
      rw [hanswer]
      exact
        { initialized := rfl
          generation := rfl
          stored := rfl
          quiet := fun _ => ⟨rfl, rfl⟩
          requesting := fun h => by cases h
          online := fun h => by cases h
          waiting := fun _ _ => ⟨nowMs, nowMs, rfl, rfl, le_refl _, le_refl _, le_refl _⟩
          alone := fun _ => rfl }

/-! ### The step -/

/-- The profile a call requests. -/
def Answer.requested (a : Answer) : Option Id :=
  a.action.map Action.profileId

/-- The discipline of one call, given what the calls before it show. -/
structure Disciplined (ps : Profiles) (s : Summary) (event : Event) (nowMs : ℕ) (a : Answer) :
    Prop where
  ok : a.ok = true
  /-- Another profile is requested in order, and only after a whole window offline. -/
  other : ∀ id, a.requested = some id → id ≠ ps.activeProfileId →
    s.round ++ [id] <+: candidates ps ∧
      (∃ since, s.stretch = some since ∧ since + offlineWindowMs ≤ nowMs) ∧
      (s.round = [] → ∃ window, s.window = some window ∧ window + offlineWindowMs ≤ nowMs)
  /-- The active profile is requested again only when the candidates are exhausted. -/
  returned : a.requested = some ps.activeProfileId → s.round = candidates ps ∧ s.round ≠ []
  exhausted : event = .transportFailed → s.round ≠ [] → s.round = candidates ps →
    a.requested = some ps.activeProfileId
  cancelled : event = .online →
    a.requested = none ∧ a.failover.roundActive = false ∧ a.failover.attemptedMask = 0
  alone : ps.profiles.length ≤ 1 → a.requested = none

variable {event : Event} {nowMs : ℕ}

theorem Disciplined.of_none {a : Answer} (hok : a.ok = true) (hnone : a.requested = none)
    (hround : event = .transportFailed → s.round = [])
    (honline : event = .online →
      a.failover.roundActive = false ∧ a.failover.attemptedMask = 0) :
    Disciplined ps s event nowMs a := by
  refine ⟨hok, fun id hid => ?_, fun hid => ?_, fun he hne => absurd (hround he) hne,
    fun he => ⟨hnone, honline he⟩, fun _ => hnone⟩
  · rw [hnone] at hid
    cases hid
  · rw [hnone] at hid
    cases hid

theorem order_eq_nil (h : ps.profiles.length ≤ 1) : order ps = [] := by
  rw [List.eq_nil_iff_forall_not_mem]
  intro i hi
  obtain ⟨hlt, hne⟩ := mem_order.mp hi
  have hactive : ps.activeIndex < ps.profiles.length :=
    ps.active_lt (List.ne_nil_of_length_pos (by omega))
  omega

theorem profileIndex_active (h : ps.hasActive = true) :
    profileIndex ps ps.activeProfileId = some ps.activeIndex := by
  have hlt := activeIndex_lt h
  unfold profileIndex
  rw [List.findIdx?_eq_some_iff_getElem]
  refine ⟨hlt, ?_, fun j hj => ?_⟩
  · rw [← get_eq hlt]
    exact beq_self_eq_true _
  · have hjlt : j < ps.profiles.length := by omega
    rw [← get_eq hjlt, Bool.not_eq_true, beq_eq_false_iff_ne]
    exact fun heq => absurd (profileId_inj hjlt hlt heq) (by omega)

/-- The state in which a tick starts a round. -/
def roundStart (f : Failover) (ps : Profiles) : Failover :=
  let f :=
    match profileIndex ps f.storedActiveProfileId with
    | some active => { f with attemptedMask := f.attemptedMask ||| 2 ^ active }
    | none => f
  { f with roundActive := true }

theorem roundStart_progress (hstored : f.storedActiveProfileId = ps.activeProfileId)
    (hmask : f.attemptedMask = 0) : Progress (roundStart f ps) ps [] (order ps) := by
  cases hactive : ps.hasActive with
  | false =>
    have hnil : ps.profiles = [] := by simpa [Profiles.hasActive] using hactive
    refine ⟨?_, rfl, fun i hi => ?_⟩
    · unfold roundStart
      rw [profileIndex, hnil]
      exact hstored
    · rw [hnil] at hi
      exact absurd hi (Nat.not_lt_zero i)
  | true =>
    have hindex : profileIndex ps f.storedActiveProfileId = some ps.activeIndex := by
      rw [hstored]
      exact profileIndex_active hactive
    have hstart : roundStart f ps =
        { f with attemptedMask := f.attemptedMask ||| 2 ^ ps.activeIndex, roundActive := true } := by
      unfold roundStart
      rw [hindex]
    rw [hstart]
    refine ⟨hstored, rfl, fun i _ => ?_⟩
    rw [hmask]
    simp [Nat.testBit_two_pow, eq_comm]

theorem roundStart_fields (f : Failover) (ps : Profiles) :
    (roundStart f ps).initialized = f.initialized ∧
      (roundStart f ps).profileGeneration = f.profileGeneration ∧
      (roundStart f ps).offline = f.offline ∧
      (roundStart f ps).roundActive = true ∧
      (roundStart f ps).targetProfileId = f.targetProfileId ∧
      (roundStart f ps).storedActiveProfileId = f.storedActiveProfileId := by
  unfold roundStart
  cases profileIndex ps f.storedActiveProfileId <;> exact ⟨rfl, rfl, rfl, rfl, rfl, rfl⟩

variable {since : ℕ}

theorem Summary.fail_of_some {e : Entry} (h : s.stretch = some since) :
    s.fail e = s := by
  unfold Summary.fail
  rw [if_neg (by simp [h])]

/-- The next candidate is requested. -/
theorem advanceRound_cons (hinit : f.initialized = true)
    (hgen : f.profileGeneration = ps.generation)
    (hround : f.roundActive = true) (hoff : f.offline = true)
    (hp : Progress f ps done (c :: rest))
    (hs : s.round = done.map fun i => (ps.get i).profileId)
    (hstretch : s.stretch = some since) (hsince : since + offlineWindowMs ≤ nowMs)
    (hwindow : done = [] → ∃ window, s.window = some window ∧ window + offlineWindowMs ≤ nowMs)
    (hevent : event ≠ .online) :
    Disciplined ps s event nowMs (advanceRound f ps nowMs) ∧
      Inv ps (advanceRound f ps nowMs).failover
        (s.next ps.activeProfileId (entry (advanceRound f ps nowMs) event nowMs)) nowMs := by
  have hmem : c ∈ order ps := by
    rw [hp.order]
    simp
  have hne := profileId_ne_active hmem
  have hcandidates : candidates ps =
      s.round ++ (ps.get c).profileId :: rest.map fun i => (ps.get i).profileId := by
    rw [candidates, hp.order, List.map_append, List.map_cons, hs]
  rw [advanceRound_of_cons hp]
  refine ⟨⟨rfl, ?_, ?_, ?_, ?_, ?_⟩, ?_⟩
  · intro id hid _
    obtain rfl : (ps.get c).profileId = id := Option.some.inj hid
    refine ⟨⟨rest.map fun i => (ps.get i).profileId, ?_⟩, ⟨since, hstretch, hsince⟩, ?_⟩
    · rw [hcandidates]
      simp
    · intro hnil
      rw [hs, List.map_eq_nil_iff] at hnil
      exact hwindow hnil
  · intro hid
    exact absurd (Option.some.inj hid) hne
  · intro _ _ hall
    rw [hcandidates] at hall
    have hlen := congrArg List.length hall
    simp at hlen
  · intro he
    exact absurd he hevent
  · intro hlen
    rw [order_eq_nil hlen] at hmem
    exact absurd hmem List.not_mem_nil
  · have hnext : s.next ps.activeProfileId
        ⟨event, nowMs, some (ps.get c).profileId⟩ =
        { s with round := s.round ++ [(ps.get c).profileId] } := by
      rw [Summary.next, if_neg hevent, Summary.fail_of_some hstretch, Summary.request]
      exact if_neg hne
    have hentry : entry ⟨true,
        { f with
          attemptedMask := f.attemptedMask ||| 2 ^ c
          targetProfileId := (ps.get c).profileId
          online := false },
        some ⟨ps.generation, (ps.get c).profileId⟩⟩ event nowMs =
        ⟨event, nowMs, some (ps.get c).profileId⟩ := rfl
    rw [hentry, hnext]
    exact
      { initialized := hinit
        generation := hgen
        stored := hp.stored
        quiet := fun h => absurd (hround.symm.trans h) (by simp)
        requesting := fun _ =>
          ⟨done ++ [c], rest, progress_next hp rfl rfl, by simp, by simp [hs], hoff,
            by rw [hp.stored]; exact hne, since, hstretch, hsince⟩
        online := fun h => absurd (hoff.symm.trans h) (by simp)
        waiting := fun _ h => absurd (hround.symm.trans h) (by simp)
        alone := fun h => by rw [h] at hmem; exact absurd hmem List.not_mem_nil }

/-- The candidates are exhausted, and the active profile is requested again. -/
theorem advanceRound_nil (hinit : f.initialized = true) (hgen : f.profileGeneration = ps.generation)
    (hoff : f.offline = true) (hp : Progress f ps done []) (hdone : done ≠ [])
    (htarget : f.targetProfileId ≠ f.storedActiveProfileId)
    (hs : s.round = done.map fun i => (ps.get i).profileId)
    (hstretch : s.stretch = some since) (hsince : since ≤ nowMs) (hevent : event ≠ .online) :
    Disciplined ps s event nowMs (advanceRound f ps nowMs) ∧
      Inv ps (advanceRound f ps nowMs).failover
        (s.next ps.activeProfileId (entry (advanceRound f ps nowMs) event nowMs)) nowMs := by
  have horder : order ps = done := by simpa using hp.order
  have hcandidates : s.round = candidates ps := by rw [hs, candidates, horder]
  have hround : s.round ≠ [] := by
    rw [hs]
    simpa using hdone
  have hlen : 0 < ps.profiles.length := by
    obtain ⟨i, hi⟩ := List.exists_mem_of_ne_nil _ hdone
    have hlt := (mem_order.mp (horder ▸ hi)).1
    omega
  have hfits : fits ps.activeProfileId = true :=
    fits_get (ps.active_lt (List.ne_nil_of_length_pos hlen))
  have hanswer : advanceRound f ps nowMs =
      ⟨true,
        { f with
          roundActive := false
          attemptedMask := 0
          offlineSinceMs := nowMs
          targetProfileId := ps.activeProfileId
          online := false }, some ⟨ps.generation, ps.activeProfileId⟩⟩ := by
    rw [hp.stored] at htarget
    rw [advanceRound, bestUnattempted_eq hp]
    simp [hp.stored, htarget, connectTo, hfits]
  rw [hanswer]
  refine ⟨⟨rfl, ?_, ?_, ?_, ?_, ?_⟩, ?_⟩
  · intro id hid hne
    exact absurd (Option.some.inj hid).symm hne
  · exact fun _ => ⟨hcandidates, hround⟩
  · exact fun _ _ _ => rfl
  · exact fun he => absurd he hevent
  · intro hle
    rw [order_eq_nil hle] at horder
    exact absurd horder.symm hdone
  · have hentry : s.next ps.activeProfileId
        ⟨event, nowMs, some ps.activeProfileId⟩ = { s with window := some nowMs, round := [] } := by
      rw [Summary.next, if_neg hevent, Summary.fail_of_some hstretch, Summary.request]
      exact if_pos rfl
    unfold entry
    rw [Option.map_some, hentry]
    exact
      { initialized := hinit
        generation := hgen
        stored := hp.stored
        quiet := fun _ => ⟨rfl, rfl⟩
        requesting := fun h => by cases h
        online := fun h => absurd (hoff.symm.trans h) (by simp)
        waiting := fun _ _ => ⟨since, nowMs, hstretch, rfl, hsince, le_refl _, le_refl _⟩
        alone := fun h => absurd (horder.symm.trans h) hdone }

/-- **One call** under the same generation. -/
theorem inv_advance {t : ℕ} (h : Inv ps f s t) (ht : t ≤ nowMs) (event : Event) :
    Disciplined ps s event nowMs (advance f ps nowMs event) ∧
      Inv ps (advance f ps nowMs event).failover
        (s.next ps.activeProfileId (entry (advance f ps nowMs event) event nowMs)) nowMs := by
  replace h := h.mono ht
  have hcall : ¬(f.initialized = false ∨ f.profileGeneration ≠ ps.generation) := by
    simp [h.initialized, h.generation]
  cases event with
  | online =>
    have hanswer : advance f ps nowMs .online =
        ⟨true,
          { f with online := true, offline := false, roundActive := false, attemptedMask := 0 },
          none⟩ := if_neg hcall
    rw [hanswer]
    refine ⟨.of_none rfl rfl (fun he => by cases he) fun _ => ⟨rfl, rfl⟩, ?_⟩
    exact
      { initialized := h.initialized
        generation := h.generation
        stored := h.stored
        quiet := fun _ => ⟨rfl, rfl⟩
        requesting := fun hr => by cases hr
        online := fun _ => rfl
        waiting := fun ho => by cases ho
        alone := h.alone }
  | profilesObserved =>
    have hanswer : advance f ps nowMs .profilesObserved = ⟨true, f, none⟩ := if_neg hcall
    rw [hanswer]
    exact ⟨.of_none rfl rfl (fun he => by cases he) (fun he => by cases he), h⟩
  | transportFailed =>
    cases hround : f.roundActive with
    | true =>
      obtain ⟨done, rest, hp, hdone, hs, hoff, htarget, since, hstretch, hsince⟩ :=
        h.requesting hround
      have hanswer : (advance f ps nowMs .transportFailed) =
          advanceRound { f with online := false } ps nowMs := by
        unfold advance
        rw [if_neg hcall]
        simp [hoff, hround]
      rw [hanswer]
      have hp' : Progress { f with online := false } ps done rest := ⟨hp.stored, hp.order, hp.mask⟩
      cases rest with
      | cons c rest =>
        exact advanceRound_cons (f := { f with online := false }) h.initialized h.generation
          hround hoff hp' hs hstretch hsince (fun hnil => absurd hnil hdone) (by decide)
      | nil =>
        exact advanceRound_nil (f := { f with online := false }) h.initialized h.generation hoff
          hp' hdone htarget hs hstretch (Nat.le_of_add_right_le hsince) (by decide)
    | false =>
      have hquiet := h.quiet hround
      cases hoff : f.offline with
      | false =>
        have hstretch := h.online hoff
        have hanswer : advance f ps nowMs .transportFailed =
            ⟨true, { f with online := false, offline := true, offlineSinceMs := nowMs }, none⟩ := by
          unfold advance
          rw [if_neg hcall]
          simp [hoff, hround]
        rw [hanswer]
        refine ⟨.of_none rfl rfl (fun _ => hquiet.2) (fun he => by cases he), ?_⟩
        have hnext : s.next ps.activeProfileId ⟨.transportFailed, nowMs, none⟩ =
            { s with stretch := some nowMs, window := some nowMs } := by
          rw [Summary.next, if_neg (by simp), Summary.fail, if_pos ⟨rfl, hstretch⟩]
          rfl
        unfold entry
        rw [Option.map_none, hnext]
        exact
          { initialized := h.initialized
            generation := h.generation
            stored := h.stored
            quiet := fun _ => hquiet
            requesting := fun hr => absurd (hround.symm.trans hr) (by simp)
            online := fun ho => by cases ho
            waiting := fun _ _ => ⟨nowMs, nowMs, rfl, rfl, le_refl _, le_refl _, le_refl _⟩
            alone := h.alone }
      | true =>
        obtain ⟨since, window, hstretch, hrest⟩ := h.waiting hoff hround
        have hanswer : advance f ps nowMs .transportFailed =
            ⟨true, { f with online := false }, none⟩ := by
          unfold advance
          rw [if_neg hcall]
          simp [hoff, hround]
        rw [hanswer]
        refine ⟨.of_none rfl rfl (fun _ => hquiet.2) (fun he => by cases he), ?_⟩
        have hnext : s.next ps.activeProfileId ⟨.transportFailed, nowMs, none⟩ = s := by
          rw [Summary.next, if_neg (by simp), Summary.fail_of_some hstretch]
          rfl
        unfold entry
        rw [Option.map_none, hnext]
        exact
          { initialized := h.initialized
            generation := h.generation
            stored := h.stored
            quiet := fun _ => hquiet
            requesting := fun hr => absurd (hround.symm.trans hr) (by simp)
            online := fun ho => absurd (hoff.symm.trans ho) (by simp)
            waiting := fun _ _ => ⟨since, window, hstretch, hrest⟩
            alone := h.alone }
  | tick =>
    by_cases hguard : (!f.offline || f.roundActive || nowMs < f.offlineSinceMs ||
        nowMs - f.offlineSinceMs < offlineWindowMs) = true
    · have hanswer : advance f ps nowMs .tick = ⟨true, f, none⟩ :=
        (if_neg hcall).trans (if_pos hguard)
      rw [hanswer]
      exact ⟨.of_none rfl rfl (fun he => by cases he) (fun he => by cases he), h⟩
    have hanswer : advance f ps nowMs .tick = advanceRound (roundStart f ps) ps nowMs :=
      (if_neg hcall).trans (if_neg hguard)
    rw [hanswer]
    simp only [Bool.or_eq_true, Bool.not_eq_true', decide_eq_true_eq, not_or, Nat.not_lt,
      Bool.not_eq_false, Bool.not_eq_true] at hguard
    obtain ⟨⟨⟨hoff, hround⟩, -⟩, helapsed⟩ := hguard
    obtain ⟨since, window, hstretch, hw, hle, hle', hnow⟩ := h.waiting hoff hround
    obtain ⟨hmask, hs⟩ := h.quiet hround
    have hp := roundStart_progress h.stored hmask
    obtain ⟨hinit, hgen, hoff', hround', htarget, hstored⟩ := roundStart_fields f ps
    cases horder : order ps with
    | cons c rest =>
      rw [horder] at hp
      exact advanceRound_cons (hinit.trans h.initialized) (hgen.trans h.generation) hround'
        (hoff'.trans hoff) hp hs hstretch (by omega) (fun _ => ⟨window, hw, by omega⟩) (by decide)
    | nil =>
      rw [horder] at hp
      -- no other profile: the window starts again and nothing is requested
      have hanswer : advanceRound (roundStart f ps) ps nowMs =
          ⟨true,
            { roundStart f ps with
              roundActive := false
              attemptedMask := 0
              offlineSinceMs := nowMs }, none⟩ := by
        rw [advanceRound, bestUnattempted_eq hp]
        simp [htarget, hstored, h.alone horder]
      rw [hanswer]
      refine ⟨.of_none rfl rfl (fun he => by cases he) (fun he => by cases he), ?_⟩
      exact
        { initialized := hinit.trans h.initialized
          generation := hgen.trans h.generation
          stored := hp.stored
          quiet := fun _ => ⟨rfl, hs⟩
          requesting := fun hr => by cases hr
          online := fun ho => absurd ((hoff'.trans hoff).symm.trans ho) (by simp)
          waiting := fun _ _ => ⟨since, window, hstretch, hw, hle, by
            show window ≤ nowMs
            omega, le_refl _⟩
          alone := fun _ => htarget.trans ((h.alone horder).trans hstored.symm) }

/-! ### Runs -/

theorem inv_run {state : Failover × Summary} {t t' : ℕ} (h : Inv ps state.1 state.2 t)
    (calls : List (Event × ℕ)) (hmono : (t :: (calls.map Prod.snd ++ [t'])).Pairwise (· ≤ ·)) :
    Inv ps (run ps state calls).1 (run ps state calls).2 t' := by
  induction calls generalizing state t with
  | nil =>
    refine h.mono ?_
    simpa using hmono
  | cons call calls ih =>
    obtain ⟨event, nowMs⟩ := call
    rw [List.map_cons, List.cons_append, List.pairwise_cons] at hmono
    have hle : t ≤ nowMs := hmono.1 nowMs List.mem_cons_self
    exact ih (inv_advance h hle event).2 hmono.2

theorem nodup_candidates : (candidates ps).Nodup := by
  refine List.Nodup.map_on (fun i hi j hj heq => ?_) nodup_order
  exact profileId_inj (mem_order.mp hi).1 (mem_order.mp hj).1 heq

theorem profilesChanged_cancels (f : Failover) (ps : Profiles) (nowMs : ℕ) (event : Event) :
    (profilesChanged f ps nowMs event).failover.roundActive = false ∧
      (profilesChanged f ps nowMs event).failover.attemptedMask = 0 := by
  unfold profilesChanged connectTo
  dsimp only
  split_ifs <;> exact ⟨rfl, rfl⟩

/-- **The round discipline**, for every run under one profile generation with a clock that does
not go back, whatever happened before: every call is `Disciplined`, a call under another
generation cancels the round, and the candidates are the profiles other than the active one, each
once, by descending priority, then descending last success, then ascending index. -/
theorem failover_rounds (hf : f.initialized = false ∨ f.profileGeneration ≠ ps.generation)
    (event₀ : Event) (t₀ : ℕ) (calls : List (Event × ℕ)) (event : Event) (nowMs : ℕ)
    (hmono : (t₀ :: (calls.map Prod.snd ++ [nowMs])).Pairwise (· ≤ ·)) :
    let state := run ps (firstCall f ps event₀ t₀) calls
    Disciplined ps state.2 event nowMs (advance state.1 ps nowMs event) ∧
      (∀ ps' : Profiles, ps'.generation ≠ ps.generation → ∀ event',
        (advance state.1 ps' nowMs event').failover.roundActive = false ∧
          (advance state.1 ps' nowMs event').failover.attemptedMask = 0) ∧
      (candidates ps = (order ps).map fun i => (ps.get i).profileId) ∧ (candidates ps).Nodup ∧
      (order ps).Pairwise (Before ps) ∧
      ∀ i, i ∈ order ps ↔ i < ps.profiles.length ∧ i ≠ ps.activeIndex := by
  intro state
  have h : Inv ps state.1 state.2 nowMs := inv_run (inv_firstCall hf event₀ t₀) calls hmono
  refine ⟨(inv_advance h (le_refl _) event).1, fun ps' hgen event' => ?_, rfl, nodup_candidates,
    pairwise_order, fun i => mem_order⟩
  have hcall : advance state.1 ps' nowMs event' = profilesChanged state.1 ps' nowMs event' :=
    if_pos (.inr (by rw [h.generation]; exact hgen.symm))
  rw [hcall]
  exact profilesChanged_cancels _ _ _ _

/-- Three profiles, the first of them active. -/
def threeProfiles : Profiles where
  generation := 7
  profiles := [⟨[97], 10, 0⟩, ⟨[98], 30, 0⟩, ⟨[99], 20, 0⟩]
  activeIndex := 0
  count_le := by decide
  distinct := by decide
  terminated := by decide
  active_lt := by decide

/-- The window elapses, and the profile with the highest priority is requested. -/
theorem failover_rounds_window :
    let state := run threeProfiles (firstCall {} threeProfiles .profilesObserved 0) [(.tick, 29999)]
    (advance state.1 threeProfiles 30000 .tick).requested = some [98] ∧
      state.2.round ++ [[98]] <+: candidates threeProfiles :=
  ⟨by decide,
    ((failover_rounds (f := {}) (.inl rfl) .profilesObserved 0 [(.tick, 29999)] .tick 30000
      (by decide)).1.other [98] (by decide) (by decide)).1⟩

end RlcdDeck.CompanionFailover
