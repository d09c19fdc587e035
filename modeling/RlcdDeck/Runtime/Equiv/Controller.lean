import RlcdDeck.Runtime.Controller

/-!
# One Runtime at a time

The controller has an application from the moment the goroutine of a Runtime is started until its
`Run` has returned, and it is starting while a factory runs; neither leaves room for another `Start`
(`Owned`).  A `Start` that took the mutex before a `Stop` is over when the `Stop` returns `nil`
(`Settled`): it was over already, or the `Stop` waits for it.
-/

namespace RlcdDeck.Runtime.Controller

open Effects

/-! ### Where a call stands -/

/-- The `Start` is in the factory, or has its result. -/
def InFactory (c : Controller) (i : ℕ) : Prop :=
  c.starts i = some .building ∨ ∃ error, c.starts i = some (.built error)

/-- The `Start` has taken the mutex. -/
def Passed (c : Controller) (i : ℕ) : Prop :=
  c.starts i ≠ none ∧ c.starts i ≠ some .called

/-- `Run` is active. -/
def Active (c : Controller) (k : ℕ) : Prop := c.runs k = some .running

/-- The Runtime has been started, and the controller does not know yet that `Run` has returned. -/
def Live (c : Controller) (k : ℕ) : Prop :=
  c.runs k = some .spawned ∨ c.Active k ∨ ∃ error, c.runs k = some (.exited error)

/-- The `Start` starts no Runtime any more, and the one that it started is not live. -/
structure Over (c : Controller) (i : ℕ) : Prop where
  passed : c.Passed i
  built : ¬c.InFactory i
  ended : ¬c.Live i

/-- Who owns the controller. -/
structure Owned (c : Controller) : Prop where
  factory : ∀ i, c.InFactory i → c.starting = true ∧ c.startDone = some i
  exclusive : c.starting = true → c.application = none
  live : ∀ k, c.Live k → c.application = some k
  started : ∀ k, c.runs k ≠ none → c.Passed k ∧ ¬c.InFactory k
  results : ∀ k, c.results k ≠ none → c.runs k = some .sent ∨ c.runs k = some .ended
  startsDone : ∀ i, c.startsDone i = true → c.Passed i ∧ ¬c.InFactory i

variable {c next : Controller} {event : Event}

section

variable {i j k : ℕ} {point : StartPoint} {runPoint : RunPoint}

theorem inFactory_self (hstarts : next.starts = Function.update c.starts i (some point)) :
    next.InFactory i ↔ point = .building ∨ ∃ error, point = .built error := by
  unfold InFactory
  rw [hstarts, Function.update_self]
  simp only [Option.some.injEq]

theorem inFactory_other (hstarts : next.starts = Function.update c.starts i (some point))
    (hne : j ≠ i) : next.InFactory j ↔ c.InFactory j := by
  unfold InFactory
  rw [hstarts, Function.update_of_ne hne]

theorem passed_self (hstarts : next.starts = Function.update c.starts i (some point))
    (hpoint : point ≠ .called) : next.Passed i := by
  unfold Passed
  rw [hstarts, Function.update_self]
  exact ⟨by simp, by simpa using hpoint⟩

theorem passed_other (hstarts : next.starts = Function.update c.starts i (some point))
    (hne : j ≠ i) : next.Passed j ↔ c.Passed j := by
  unfold Passed
  rw [hstarts, Function.update_of_ne hne]

theorem live_self (hruns : next.runs = Function.update c.runs k (some runPoint)) :
    next.Live k ↔ runPoint = .spawned ∨ runPoint = .running ∨ ∃ error, runPoint = .exited error := by
  unfold Live Active
  rw [hruns, Function.update_self]
  simp only [Option.some.injEq]

theorem live_other (hruns : next.runs = Function.update c.runs k (some runPoint)) (hne : j ≠ k) :
    next.Live j ↔ c.Live j := by
  unfold Live Active
  rw [hruns, Function.update_of_ne hne]

theorem live_congr (hruns : next.runs = c.runs) : next.Live j ↔ c.Live j := by
  unfold Live Active
  rw [hruns]

theorem starts_congr (hstarts : next.starts = c.starts) :
    (next.InFactory j ↔ c.InFactory j) ∧ (next.Passed j ↔ c.Passed j) := by
  unfold InFactory Passed
  rw [hstarts]
  exact ⟨.rfl, .rfl⟩

end

/-! ### What a step does -/

/-- A step that does not concern the ownership of the controller. -/
structure Quiet (c next : Controller) : Prop where
  application : next.application = c.application
  starting : next.starting = c.starting
  startDone : next.startDone = c.startDone
  startsDone : next.startsDone = c.startsDone
  stopStarting : c.stopStarting = true → next.stopStarting = true
  factory : ∀ i, next.InFactory i ↔ c.InFactory i
  passed : ∀ i, c.Passed i → next.Passed i
  live : ∀ k, next.Live k → c.Live k
  runs : ∀ k, next.runs k ≠ none → c.runs k ≠ none
  sent : ∀ k, c.runs k = some .sent ∨ c.runs k = some .ended →
    next.runs k = some .sent ∨ next.runs k = some .ended
  results : ∀ k, next.results k ≠ none → c.results k ≠ none ∨ next.runs k = some .sent

/-- What a step does to the owners. -/
inductive Effect (c next : Controller) : Prop
  | quiet (hquiet : c.Quiet next)
  | began (i : ℕ) (hcalled : c.starts i = some .called) (hidle : c.starting = false)
      (hnone : c.application = none)
      (heq : next =
        { c.goStart i .building with
          starting := true
          startDone := some i
          stopStarting := false
          stopRuntime := false
          lastStatus := { c.lastStatus with lastError := "" } })
  | finished (i : ℕ) (error error' : Option String) (status : Status)
      (hbuilt : c.starts i = some (.built error))
      (heq : next =
        { c.goStart i (.returned error') with
          starting := false
          stopStarting := false
          startDone := none
          startsDone := Function.update c.startsDone i true
          lastStatus := status })
  | spawned (i : ℕ) (error : Option String) (hbuilt : c.starts i = some (.built error))
      (hgo : c.stopStarting = false)
      (heq : next =
        { (c.goStart i .waiting).goRun i .spawned with
          starting := false
          stopStarting := false
          startDone := none
          startsDone := Function.update c.startsDone i true
          application := some i })
  | cleared (k : ℕ) (error : Option String) (status : Status)
      (hexited : c.runs k = some (.exited error))
      (heq : next =
        { c.goRun k (.cleared error) with application := none, lastStatus := status })

theorem Quiet.of_stops (hstarts : next.starts = c.starts) (hruns : next.runs = c.runs)
    (happlication : next.application = c.application) (hstarting : next.starting = c.starting)
    (hstartDone : next.startDone = c.startDone) (hstartsDone : next.startsDone = c.startsDone)
    (hstopStarting : c.stopStarting = true → next.stopStarting = true)
    (hresults : ∀ k, next.results k ≠ none → c.results k ≠ none) : c.Quiet next where
  application := happlication
  starting := hstarting
  startDone := hstartDone
  startsDone := hstartsDone
  stopStarting := hstopStarting
  factory := fun _ => (starts_congr hstarts).1
  passed := fun _ => (starts_congr hstarts).2.mpr
  live := fun _ => (live_congr hruns).mp
  runs := fun k hk => by rwa [hruns] at hk
  sent := fun k hk => by rwa [hruns]
  results := fun k hk => .inl (hresults k hk)

theorem Quiet.of_start {i : ℕ} {point : StartPoint}
    (hfactory : (point = .building ∨ ∃ error, point = .built error) ↔ c.InFactory i)
    (hpassed : c.Passed i → point ≠ .called) : c.Quiet (c.goStart i point) := by
  have hstarts : (c.goStart i point).starts = Function.update c.starts i (some point) := rfl
  refine ⟨rfl, rfl, rfl, rfl, id, fun j => ?_, fun j hj => ?_, fun _ => id, fun _ => id, fun _ => id,
    fun _ => .inl⟩
  · by_cases hsame : j = i
    · rw [hsame, inFactory_self hstarts, hfactory]
    · exact inFactory_other hstarts hsame
  · by_cases hsame : j = i
    · rw [hsame] at hj ⊢
      exact passed_self hstarts (hpassed hj)
    · exact (passed_other hstarts hsame).mpr hj

theorem Quiet.of_run {k : ℕ} {point : RunPoint} {results : ℕ → Option (Option String)}
    (hsome : c.runs k ≠ none)
    (hlive : point = .spawned ∨ point = .running ∨ (∃ error, point = .exited error) → c.Live k)
    (hsent : c.runs k = some .sent ∨ c.runs k = some .ended → point = .sent ∨ point = .ended)
    (hresults : ∀ other, results other ≠ none →
      c.results other ≠ none ∨ other = k ∧ point = .sent) :
    c.Quiet { c.goRun k point with results := results } := by
  have hruns : ({ c.goRun k point with results := results } : Controller).runs =
      Function.update c.runs k (some point) := rfl
  refine ⟨rfl, rfl, rfl, rfl, id, fun _ => .rfl, fun _ => id, fun other hother => ?_,
    fun other hother => ?_, fun other hother => ?_, fun other hother => ?_⟩
  · by_cases hsame : other = k
    · rw [hsame] at hother ⊢
      exact hlive ((live_self hruns).mp hother)
    · exact (live_other hruns hsame).mp hother
  · by_cases hsame : other = k
    · rwa [hsame]
    · rwa [hruns, Function.update_of_ne hsame] at hother
  · by_cases hsame : other = k
    · rw [hsame] at hother ⊢
      rw [hruns, Function.update_self]
      simpa only [Option.some.injEq] using hsent hother
    · rwa [hruns, Function.update_of_ne hsame]
  · rcases hresults other hother with hold | ⟨rfl, rfl⟩
    · exact .inl hold
    · refine .inr ?_
      rw [hruns, Function.update_self]

theorem not_factory {i : ℕ} {point : StartPoint} (h : c.starts i = some point)
    (hbuilding : point ≠ .building) (hbuilt : ∀ error, point ≠ .built error) : ¬c.InFactory i := by
  rintro (hnow | ⟨error, hnow⟩)
  · exact hbuilding (Option.some.inj (h.symm.trans hnow))
  · exact hbuilt error (Option.some.inj (h.symm.trans hnow))

theorem effect_startLock {i : ℕ} (h : c.startLock i = some next) : c.Effect next := by
  unfold startLock at h
  split at h
  · next hcalled =>
    have hnot := not_factory hcalled nofun nofun
    have houtside : ∀ error, c.Quiet (c.goStart i (.returned error)) := fun error =>
      .of_start (by simpa using hnot) nofun
    obtain rfl := Option.some.inj h
    split
    · exact .quiet (houtside _)
    · next hidle =>
      split
      · exact .quiet (houtside _)
      · next hnone =>
        exact .began i hcalled (Bool.eq_false_iff.mpr hidle) (by simpa using hnone) rfl
  · cases h

theorem effect_startBuilt {i : ℕ} (h : c.startBuilt i = some next) : c.Effect next := by
  unfold startBuilt at h
  split at h
  · next error hbuilt =>
    obtain rfl := Option.some.inj h
    cases error with
    | some error => exact .finished i _ _ _ hbuilt rfl
    | none =>
      dsimp only
      split
      · exact .finished i _ _ _ hbuilt rfl
      · next hgo => exact .spawned i _ hbuilt (Bool.eq_false_iff.mpr hgo) rfl
  · cases h

theorem effect_waiting {i : ℕ} {point point' : StartPoint} (h : c.starts i = some point)
    (hout : point ≠ .building ∧ ∀ error, point ≠ .built error)
    (hout' : point' ≠ .building ∧ (∀ error, point' ≠ .built error) ∧ point' ≠ .called) :
    c.Effect (c.goStart i point') := by
  refine .quiet (.of_start ?_ fun _ => hout'.2.2)
  have hnot := not_factory h hout.1 hout.2
  have hnot' : ¬(point' = .building ∨ ∃ error, point' = .built error) := by
    rintro (hnow | ⟨error, hnow⟩)
    · exact hout'.1 hnow
    · exact hout'.2.1 error hnow
  exact iff_of_false hnot' hnot

theorem effect_poll {i : ℕ} {reported : Status} (h : c.poll i reported = some next) :
    c.Effect next := by
  unfold poll at h
  split at h
  · next hwaiting =>
    obtain rfl := Option.some.inj h
    split
    · exact effect_waiting hwaiting ⟨nofun, nofun⟩ ⟨nofun, nofun, nofun⟩
    · exact effect_waiting hwaiting ⟨nofun, nofun⟩ ⟨nofun, nofun, nofun⟩
    · exact .quiet (.of_stops rfl rfl rfl rfl rfl rfl id fun _ => id)
  · cases h

theorem effect_stopLock {j : ℕ} (h : c.stopLock j = some next) : c.Effect next := by
  unfold stopLock at h
  split at h
  · obtain rfl := Option.some.inj h
    split
    · exact .quiet (.of_stops rfl rfl rfl rfl rfl rfl (fun _ => rfl) fun _ => id)
    · split
      · exact .quiet (.of_stops rfl rfl rfl rfl rfl rfl id fun _ => id)
      · exact .quiet (.of_stops rfl rfl rfl rfl rfl rfl id fun _ => id)
  · cases h

theorem effect_receive {j : ℕ} (h : c.receive j = some next) : c.Effect next := by
  unfold receive at h
  split at h
  · split at h
    · obtain rfl := Option.some.inj h
      exact .quiet (.of_stops rfl rfl rfl rfl rfl rfl id fun _ => id)
    · cases h
  · next k _ =>
    split at h
    · obtain rfl := Option.some.inj h
      refine .quiet (.of_stops rfl rfl rfl rfl rfl rfl id fun other hother => ?_)
      change Function.update c.results k none other ≠ none at hother
      rw [Function.update_apply] at hother
      split_ifs at hother
      · exact absurd rfl hother
      · exact hother
    · split at h
      · obtain rfl := Option.some.inj h
        exact .quiet (.of_stops rfl rfl rfl rfl rfl rfl id fun _ => id)
      · cases h
  · cases h

theorem effect_step (h : c.step event = some next) : c.Effect next := by
  cases event with
  | start i =>
    simp only [Controller.step] at h
    split at h
    · next hnone =>
      obtain rfl := Option.some.inj h
      have hnot : ¬c.InFactory i := by
        rintro (hnow | ⟨error, hnow⟩) <;> rw [hnone] at hnow <;> cases hnow
      exact .quiet (.of_start (by simpa using hnot) fun hpassed => absurd hnone hpassed.1)
    · cases h
  | startLock i => exact effect_startLock h
  | build i error =>
    simp only [Controller.step, build] at h
    split at h
    · next hbuilding =>
      obtain rfl := Option.some.inj h
      exact .quiet (.of_start (iff_of_true (.inr ⟨_, rfl⟩) (.inl hbuilding)) nofun)
    · cases h
  | startBuilt i => exact effect_startBuilt h
  | poll i reported => exact effect_poll h
  | check i =>
    simp only [Controller.step, check] at h
    split at h
    · next hchecking =>
      obtain rfl := Option.some.inj h
      exact effect_waiting hchecking ⟨nofun, nofun⟩ ⟨nofun, nofun, nofun⟩
    · cases h
  | expire i =>
    simp only [Controller.step, expire] at h
    split at h
    · next hwaiting =>
      obtain rfl := Option.some.inj h
      exact effect_waiting hwaiting ⟨nofun, nofun⟩ ⟨nofun, nofun, nofun⟩
    · cases h
  | enterRun k =>
    simp only [Controller.step, enterRun] at h
    split at h
    · next hspawned =>
      obtain rfl := Option.some.inj h
      exact .quiet (.of_run (by simp [hspawned]) (fun _ => .inl hspawned) (by simp [hspawned])
        fun _ => .inl)
    · cases h
  | exitRun k error =>
    simp only [Controller.step, exitRun] at h
    split at h
    · next hrunning =>
      obtain rfl := Option.some.inj h
      exact .quiet (.of_run (by simp [hrunning]) (fun _ => .inr (.inl hrunning))
        (by simp [hrunning]) fun _ => .inl)
    · cases h
  | clear k finalStatus =>
    simp only [Controller.step, clear] at h
    split at h
    · next error hexited =>
      obtain rfl := Option.some.inj h
      exact .cleared k error _ hexited rfl
    · cases h
  | sendDone k =>
    simp only [Controller.step, sendDone] at h
    split at h
    · next hcleared =>
      obtain rfl := Option.some.inj h
      refine .quiet (.of_run (by simp [hcleared]) (by simp) (by simp [hcleared])
        fun other hother => ?_)
      rw [Function.update_apply] at hother
      split_ifs at hother with hsame
      · exact .inr ⟨hsame, rfl⟩
      · exact .inl hother
    · cases h
  | closeDone k =>
    simp only [Controller.step, closeDone] at h
    split at h
    · next hsent =>
      obtain rfl := Option.some.inj h
      exact .quiet (.of_run (by simp [hsent]) (by simp) (fun _ => .inr rfl) fun _ => .inl)
    · cases h
  | stop j =>
    simp only [Controller.step] at h
    split at h
    · obtain rfl := Option.some.inj h
      exact .quiet (.of_stops rfl rfl rfl rfl rfl rfl id fun _ => id)
    · cases h
  | stopLock j => exact effect_stopLock h
  | cancel j =>
    simp only [Controller.step, cancel] at h
    split at h
    · obtain rfl := Option.some.inj h
      exact .quiet (.of_stops rfl rfl rfl rfl rfl rfl id fun _ => id)
    · cases h
  | receive j => exact effect_receive h
  | recordError j =>
    simp only [Controller.step, recordError] at h
    split at h
    · obtain rfl := Option.some.inj h
      exact .quiet (.of_stops rfl rfl rfl rfl rfl rfl id fun _ => id)
    · cases h
  | giveUp j error =>
    simp only [Controller.step, giveUp] at h
    split at h
    · obtain rfl := Option.some.inj h
      exact .quiet (.of_stops rfl rfl rfl rfl rfl rfl id fun _ => id)
    · obtain rfl := Option.some.inj h
      exact .quiet (.of_stops rfl rfl rfl rfl rfl rfl id fun _ => id)
    · cases h

/-! ### The owner -/

theorem Owned.leave {i : ℕ} {point : StartPoint} (h : c.Owned) (hin : c.InFactory i)
    (hstarts : next.starts = Function.update c.starts i (some point))
    (hpoint : point ≠ .building ∧ (∀ error, point ≠ .built error) ∧ point ≠ .called) :
    (∀ j, ¬next.InFactory j) ∧ next.Passed i ∧ ∀ j, c.Passed j → next.Passed j := by
  have hself := passed_self hstarts hpoint.2.2
  refine ⟨fun j hj => ?_, hself, fun j hj => ?_⟩
  · by_cases hsame : j = i
    · rw [hsame, inFactory_self hstarts] at hj
      rcases hj with hbuilding | ⟨error, hbuilt⟩
      · exact hpoint.1 hbuilding
      · exact hpoint.2.1 error hbuilt
    · have hj := (h.factory j ((inFactory_other hstarts hsame).mp hj)).2
      rw [(h.factory i hin).2] at hj
      exact hsame (Option.some.inj hj).symm
  · by_cases hsame : j = i
    · exact hsame ▸ hself
    · exact (passed_other hstarts hsame).mpr hj

theorem Owned.step (h : c.Owned) (hstep : c.step event = some next) : next.Owned := by
  rcases effect_step hstep with
    hquiet | ⟨i, hcalled, hidle, hnone, heq⟩ | ⟨i, error, error', status, hbuilt, heq⟩ |
    ⟨i, error, hbuilt, hgo, heq⟩ | ⟨k, error, status, hexited, heq⟩
  · constructor
    · intro i hi
      rw [hquiet.starting, hquiet.startDone]
      exact h.factory i ((hquiet.factory i).mp hi)
    · rw [hquiet.starting, hquiet.application]
      exact h.exclusive
    · intro k hk
      rw [hquiet.application]
      exact h.live k (hquiet.live k hk)
    · intro k hk
      obtain ⟨hpassed, hnot⟩ := h.started k (hquiet.runs k hk)
      exact ⟨hquiet.passed k hpassed, mt (hquiet.factory k).mp hnot⟩
    · intro k hk
      rcases hquiet.results k hk with hold | hsent
      · exact hquiet.sent k (h.results k hold)
      · exact .inl hsent
    · intro i hi
      rw [hquiet.startsDone] at hi
      obtain ⟨hpassed, hnot⟩ := h.startsDone i hi
      exact ⟨hquiet.passed i hpassed, mt (hquiet.factory i).mp hnot⟩
  · -- nobody is in the factory, and there is no application
    have hstarts : next.starts = Function.update c.starts i (some .building) := by rw [heq]; rfl
    have hruns : next.runs = c.runs := by rw [heq]; rfl
    have hother : ∀ j, c.Passed j → j ≠ i := by
      rintro _ hpassed rfl
      exact hpassed.2 hcalled
    constructor
    · intro j hj
      by_cases hsame : j = i
      · rw [heq, hsame]
        exact ⟨rfl, rfl⟩
      · have hstarting := (h.factory j ((inFactory_other hstarts hsame).mp hj)).1
        rw [hidle] at hstarting
        cases hstarting
    · intro _
      rw [heq]
      exact hnone
    · intro k hk
      rw [heq]
      exact h.live k ((live_congr hruns).mp hk)
    · intro k hk
      rw [hruns] at hk
      obtain ⟨hpassed, hnot⟩ := h.started k hk
      have hne := hother k hpassed
      exact ⟨(passed_other hstarts hne).mpr hpassed, mt (inFactory_other hstarts hne).mp hnot⟩
    · intro k hk
      rw [heq] at hk ⊢
      exact h.results k hk
    · intro j hj
      rw [heq] at hj
      obtain ⟨hpassed, hnot⟩ := h.startsDone j hj
      have hne := hother j hpassed
      exact ⟨(passed_other hstarts hne).mpr hpassed, mt (inFactory_other hstarts hne).mp hnot⟩
  · -- the one `Start` in the factory returns
    have hstarts : next.starts = Function.update c.starts i (some (.returned error')) := by
      rw [heq]; rfl
    have hruns : next.runs = c.runs := by rw [heq]; rfl
    have hin : c.InFactory i := .inr ⟨error, hbuilt⟩
    obtain ⟨hempty, hself, hkeep⟩ := h.leave hin hstarts ⟨nofun, nofun, nofun⟩
    constructor
    · exact fun j hj => absurd hj (hempty j)
    · intro hstarting
      rw [heq] at hstarting
      cases hstarting
    · intro k hk
      rw [heq]
      exact h.live k ((live_congr hruns).mp hk)
    · intro k hk
      rw [hruns] at hk
      exact ⟨hkeep k (h.started k hk).1, hempty k⟩
    · intro k hk
      rw [heq] at hk ⊢
      exact h.results k hk
    · intro j hj
      refine ⟨?_, hempty j⟩
      by_cases hsame : j = i
      · exact hsame ▸ hself
      · rw [heq] at hj
        change Function.update c.startsDone i true j = true at hj
        rw [Function.update_of_ne hsame] at hj
        exact hkeep j (h.startsDone j hj).1
  · -- the one `Start` in the factory starts its Runtime
    have hstarts : next.starts = Function.update c.starts i (some .waiting) := by rw [heq]; rfl
    have hruns : next.runs = Function.update c.runs i (some .spawned) := by rw [heq]; rfl
    have hin : c.InFactory i := .inr ⟨error, hbuilt⟩
    have hfresh : c.runs i = none := by
      by_contra hsome
      exact (h.started i hsome).2 hin
    obtain ⟨hempty, hself, hkeep⟩ := h.leave hin hstarts ⟨nofun, nofun, nofun⟩
    constructor
    · exact fun j hj => absurd hj (hempty j)
    · intro hstarting
      rw [heq] at hstarting
      cases hstarting
    · intro k hk
      by_cases hsame : k = i
      · rw [heq, hsame]
      · have happlication := h.live k ((live_other hruns hsame).mp hk)
        rw [h.exclusive (h.factory i hin).1] at happlication
        cases happlication
    · intro k hk
      refine ⟨?_, hempty k⟩
      by_cases hsame : k = i
      · exact hsame ▸ hself
      · rw [hruns, Function.update_of_ne hsame] at hk
        exact hkeep k (h.started k hk).1
    · intro k hk
      have hold : c.results k ≠ none := by
        rw [heq] at hk
        exact hk
      have hsent := h.results k hold
      have hne : k ≠ i := by
        rintro rfl
        rw [hfresh] at hsent
        simp at hsent
      rwa [hruns, Function.update_of_ne hne]
    · intro j hj
      refine ⟨?_, hempty j⟩
      by_cases hsame : j = i
      · exact hsame ▸ hself
      · rw [heq] at hj
        change Function.update c.startsDone i true j = true at hj
        rw [Function.update_of_ne hsame] at hj
        exact hkeep j (h.startsDone j hj).1
  · -- the application is gone
    have hstarts : next.starts = c.starts := by rw [heq]; rfl
    have hruns : next.runs = Function.update c.runs k (some (.cleared error)) := by rw [heq]; rfl
    have hlive : c.Live k := .inr (.inr ⟨error, hexited⟩)
    constructor
    · intro i hi
      rw [heq]
      exact h.factory i ((starts_congr hstarts).1.mp hi)
    · intro _
      rw [heq]
    · intro j hj
      by_cases hsame : j = k
      · rw [hsame, live_self hruns] at hj
        simp at hj
      · have hj := h.live j ((live_other hruns hsame).mp hj)
        rw [h.live k hlive] at hj
        exact absurd (Option.some.inj hj).symm hsame
    · intro j hj
      rw [(starts_congr hstarts).1, (starts_congr hstarts).2]
      by_cases hsame : j = k
      · rw [hsame]
        exact h.started k (by simp [hexited])
      · rw [hruns, Function.update_of_ne hsame] at hj
        exact h.started j hj
    · intro j hj
      have hold : c.results j ≠ none := by
        rw [heq] at hj
        exact hj
      have hsent := h.results j hold
      have hne : j ≠ k := by
        rintro rfl
        rw [hexited] at hsent
        simp at hsent
      rwa [hruns, Function.update_of_ne hne]
    · intro j hj
      rw [(starts_congr hstarts).1, (starts_congr hstarts).2]
      rw [heq] at hj
      exact h.startsDone j hj

theorem owned_default : ({} : Controller).Owned := by
  constructor
  · rintro i (hnow | ⟨error, hnow⟩) <;> cases hnow
  · exact fun _ => rfl
  · rintro k (hnow | hnow | ⟨error, hnow⟩) <;> cases hnow
  · exact fun k hk => absurd rfl hk
  · exact fun k hk => absurd rfl hk
  · exact nofun

/-! ### A `Stop` -/

theorem Over.step {i : ℕ} (hover : c.Over i) (h : c.Owned) (hstep : c.step event = some next) :
    next.Over i := by
  rcases effect_step hstep with
    hquiet | ⟨j, hcalled, hidle, hnone, heq⟩ | ⟨j, error, error', status, hbuilt, heq⟩ |
    ⟨j, error, hbuilt, hgo, heq⟩ | ⟨k, error, status, hexited, heq⟩
  · exact ⟨hquiet.passed i hover.passed, mt (hquiet.factory i).mp hover.built,
      mt (hquiet.live i) hover.ended⟩
  · have hstarts : next.starts = Function.update c.starts j (some .building) := by rw [heq]; rfl
    have hruns : next.runs = c.runs := by rw [heq]; rfl
    have hne : i ≠ j := by
      rintro rfl
      exact hover.passed.2 hcalled
    exact ⟨(passed_other hstarts hne).mpr hover.passed, mt (inFactory_other hstarts hne).mp hover.built,
      mt (live_congr hruns).mp hover.ended⟩
  · have hstarts : next.starts = Function.update c.starts j (some (.returned error')) := by
      rw [heq]; rfl
    have hruns : next.runs = c.runs := by rw [heq]; rfl
    obtain ⟨hempty, -, hkeep⟩ := h.leave (.inr ⟨error, hbuilt⟩) hstarts ⟨nofun, nofun, nofun⟩
    exact ⟨hkeep i hover.passed, hempty i, mt (live_congr hruns).mp hover.ended⟩
  · have hstarts : next.starts = Function.update c.starts j (some .waiting) := by rw [heq]; rfl
    have hruns : next.runs = Function.update c.runs j (some .spawned) := by rw [heq]; rfl
    obtain ⟨hempty, -, hkeep⟩ := h.leave (.inr ⟨error, hbuilt⟩) hstarts ⟨nofun, nofun, nofun⟩
    have hne : i ≠ j := by
      rintro rfl
      exact hover.built (.inr ⟨error, hbuilt⟩)
    exact ⟨hkeep i hover.passed, hempty i, mt (live_other hruns hne).mp hover.ended⟩
  · have hstarts : next.starts = c.starts := by rw [heq]; rfl
    have hruns : next.runs = Function.update c.runs k (some (.cleared error)) := by rw [heq]; rfl
    refine ⟨(starts_congr hstarts).2.mpr hover.passed, mt (starts_congr hstarts).1.mp hover.built, ?_⟩
    by_cases hsame : i = k
    · rw [hsame, live_self hruns]
      simp
    · exact mt (live_other hruns hsame).mp hover.ended

/-- A `Start` in the factory that has been told to stop starts no Runtime. -/
theorem over_of_stopping {i : ℕ} (hin : c.InFactory i) (hstopping : c.stopStarting = true)
    (h : c.Owned) (hstep : c.step event = some next) :
    next.Over i ∨ next.InFactory i ∧ next.stopStarting = true := by
  obtain ⟨hstarting, hstartDone⟩ := h.factory i hin
  rcases effect_step hstep with
    hquiet | ⟨j, hcalled, hidle, hnone, heq⟩ | ⟨j, error, error', status, hbuilt, heq⟩ |
    ⟨j, error, hbuilt, hgo, heq⟩ | ⟨k, error, status, hexited, heq⟩
  · exact .inr ⟨(hquiet.factory i).mpr hin, hquiet.stopStarting hstopping⟩
  · rw [hidle] at hstarting
    cases hstarting
  · have hstarts : next.starts = Function.update c.starts j (some (.returned error')) := by
      rw [heq]; rfl
    have hruns : next.runs = c.runs := by rw [heq]; rfl
    obtain ⟨hempty, hself, -⟩ := h.leave (.inr ⟨error, hbuilt⟩) hstarts ⟨nofun, nofun, nofun⟩
    have hsame := (h.factory j (.inr ⟨error, hbuilt⟩)).2
    rw [hstartDone] at hsame
    obtain rfl := Option.some.inj hsame
    refine .inl ⟨hself, hempty i, fun hlive => ?_⟩
    have happlication := h.live i ((live_congr hruns).mp hlive)
    rw [h.exclusive hstarting] at happlication
    cases happlication
  · rw [hstopping] at hgo
    cases hgo
  · have hstarts : next.starts = c.starts := by rw [heq]; rfl
    refine .inr ⟨(starts_congr hstarts).1.mpr hin, ?_⟩
    rw [heq]
    exact hstopping

/-- What a `Stop` that took the mutex after the `Start` did knows of it. -/
def Settled (c : Controller) (i : ℕ) : Option StopPoint → Prop
  | none | some .called => False
  | some (.awaitingStart startDone) =>
    c.Over i ∨ startDone = some i ∧ c.InFactory i ∧ c.stopStarting = true
  | some (.cancelling k) | some (.awaitingRun k) => i = k ∨ c.Over i
  | some (.returned none) => c.Over i
  | some (.failed _) | some (.returned (some _)) => True

theorem Settled.step {i : ℕ} {point : Option StopPoint} (hsettled : c.Settled i point) (h : c.Owned)
    (hstep : c.step event = some next) : next.Settled i point := by
  match point, hsettled with
  | some (.awaitingStart startDone), .inl hover => exact .inl (hover.step h hstep)
  | some (.awaitingStart startDone), .inr ⟨hsame, hin, hstopping⟩ =>
    exact (over_of_stopping hin hstopping h hstep).imp_right fun hstays => ⟨hsame, hstays⟩
  | some (.cancelling k), hsettled => exact Or.imp_right (fun hover => hover.step h hstep) hsettled
  | some (.awaitingRun k), hsettled => exact Or.imp_right (fun hover => hover.step h hstep) hsettled
  | some (.returned none), hover => exact Over.step hover h hstep
  | some (.failed _), _ => trivial
  | some (.returned (some _)), _ => trivial

/-- How a `Stop` goes on after it has taken the mutex. -/
inductive StopMove (c : Controller) (j : ℕ) : StopPoint → Prop
  | called (hpoint : c.stops j = none) : StopMove c j .called
  | locked (point : StopPoint) (hpoint : c.stops j = some .called) : StopMove c j point
  | cancelled (k : ℕ) (hpoint : c.stops j = some (.cancelling k)) : StopMove c j (.awaitingRun k)
  | started (i : ℕ) (hpoint : c.stops j = some (.awaitingStart (some i)))
      (hdone : c.startsDone i = true) : StopMove c j (.returned none)
  | ran (k : ℕ) (error : Option String) (hpoint : c.stops j = some (.awaitingRun k))
      (hresult : c.results k = some error) : StopMove c j (error.elim (.returned none) .failed)
  | ended (k : ℕ) (hpoint : c.stops j = some (.awaitingRun k)) (hended : c.runs k = some .ended) :
      StopMove c j (.returned none)
  | failed (error : String) : StopMove c j (.returned (some error))

theorem stops_goStop {point : StopPoint} {j j' : ℕ}
    (hstops : next.stops = Function.update c.stops j' (some point)) (hmove : c.StopMove j' point) :
    next.stops j = c.stops j ∨ ∃ point, next.stops j = some point ∧ c.StopMove j point := by
  rw [hstops]
  by_cases hsame : j = j'
  · rw [hsame, Function.update_self]
    exact .inr ⟨point, rfl, hmove⟩
  · rw [Function.update_of_ne hsame]
    exact .inl rfl

theorem stops_receive {j j' : ℕ} (h : c.receive j' = some next) :
    next.stops j = c.stops j ∨ ∃ point, next.stops j = some point ∧ c.StopMove j point := by
  unfold receive at h
  split at h
  · next hpoint =>
    split at h
    · next hdone =>
      obtain rfl := Option.some.inj h
      exact stops_goStop rfl (.started _ hpoint hdone)
    · cases h
  · next hpoint =>
    split at h
    · next hresult =>
      obtain rfl := Option.some.inj h
      exact stops_goStop rfl (.ran _ _ hpoint hresult)
    · split at h
      · next hended =>
        obtain rfl := Option.some.inj h
        exact stops_goStop rfl (.ended _ hpoint hended)
      · cases h
  · cases h

theorem stops_stopLock {j j' : ℕ} (h : c.stopLock j' = some next) :
    next.stops j = c.stops j ∨ ∃ point, next.stops j = some point ∧ c.StopMove j point := by
  unfold stopLock at h
  split at h
  · next hpoint =>
    obtain rfl := Option.some.inj h
    split
    · exact stops_goStop rfl (.locked _ hpoint)
    · split
      · exact stops_goStop rfl (.locked _ hpoint)
      · exact stops_goStop rfl (.locked _ hpoint)
  · cases h

theorem stops_startLock {i : ℕ} (h : c.startLock i = some next) : next.stops = c.stops := by
  unfold startLock at h
  split at h
  · obtain rfl := Option.some.inj h
    split
    · rfl
    · split <;> rfl
  · cases h

theorem stops_startBuilt {i : ℕ} (h : c.startBuilt i = some next) : next.stops = c.stops := by
  unfold startBuilt at h
  split at h
  · next error _ =>
    obtain rfl := Option.some.inj h
    cases error with
    | some error => rfl
    | none =>
      dsimp only
      split <;> rfl
  · cases h

theorem stops_poll {i : ℕ} {reported : Status} (h : c.poll i reported = some next) :
    next.stops = c.stops := by
  unfold poll at h
  split at h
  · obtain rfl := Option.some.inj h
    split <;> rfl
  · cases h

theorem stops_step (hstep : c.step event = some next) (j : ℕ) :
    next.stops j = c.stops j ∨ ∃ point, next.stops j = some point ∧ c.StopMove j point := by
  cases event with
  | startLock i => exact .inl (by rw [stops_startLock hstep])
  | startBuilt i => exact .inl (by rw [stops_startBuilt hstep])
  | poll i reported => exact .inl (by rw [stops_poll hstep])
  | stopLock j' => exact stops_stopLock hstep
  | receive j' => exact stops_receive hstep
  | stop j' =>
    simp only [Controller.step] at hstep
    split at hstep
    · next hnone =>
      obtain rfl := Option.some.inj hstep
      exact stops_goStop rfl (.called hnone)
    · cases hstep
  | cancel j' =>
    simp only [Controller.step, cancel] at hstep
    split at hstep
    · next hpoint =>
      obtain rfl := Option.some.inj hstep
      exact stops_goStop rfl (.cancelled _ hpoint)
    · cases hstep
  | recordError j' =>
    simp only [Controller.step, recordError] at hstep
    split at hstep
    · obtain rfl := Option.some.inj hstep
      exact stops_goStop rfl (.failed _)
    · cases hstep
  | giveUp j' error =>
    simp only [Controller.step, giveUp] at hstep
    split at hstep
    · obtain rfl := Option.some.inj hstep
      exact stops_goStop rfl (.failed _)
    · obtain rfl := Option.some.inj hstep
      exact stops_goStop rfl (.failed _)
    · cases hstep
  | _ =>
    simp only [Controller.step, build, check, expire, enterRun, exitRun, clear, sendDone,
      closeDone] at hstep
    split at hstep
    · obtain rfl := Option.some.inj hstep
      exact .inl rfl
    · cases hstep

theorem Owned.over_of_run (h : c.Owned) {k : ℕ}
    (hrun : c.runs k = some .sent ∨ c.runs k = some .ended) : c.Over k := by
  have hsome : c.runs k ≠ none := by
    rcases hrun with hrun | hrun <;> simp [hrun]
  obtain ⟨hpassed, hnot⟩ := h.started k hsome
  refine ⟨hpassed, hnot, fun hlive => ?_⟩
  rcases hrun with hrun | hrun <;> simp [Live, Active, hrun] at hlive

/-- A `Stop` takes the mutex. -/
theorem settled_stopLock {i j : ℕ} (h : c.Owned) (hpassed : c.Passed i)
    (hstep : c.step (.stopLock j) = some next) : next.Settled i (next.stops j) := by
  have howned := h.step hstep
  simp only [Controller.step, stopLock] at hstep
  split at hstep
  · split at hstep
    · next hstarting =>
      obtain rfl := Option.some.inj hstep
      simp only [goStop, Function.update_self]
      by_cases hin : c.InFactory i
      · exact .inr ⟨(h.factory i hin).2, hin, rfl⟩
      · refine .inl ⟨hpassed, hin, fun hlive => ?_⟩
        have happlication := h.live i hlive
        rw [h.exclusive hstarting] at happlication
        cases happlication
    · next hidle =>
      have hin : ¬c.InFactory i := fun hin => hidle (h.factory i hin).1
      split at hstep
      · next hnone =>
        obtain rfl := Option.some.inj hstep
        simp only [goStop, Function.update_self]
        refine ⟨hpassed, hin, fun hlive => ?_⟩
        have happlication := h.live i hlive
        rw [hnone] at happlication
        cases happlication
      · next k happlication =>
        obtain rfl := Option.some.inj hstep
        simp only [goStop, Function.update_self]
        by_cases hlive : c.Live i
        · have hsame := h.live i hlive
          rw [happlication] at hsame
          exact .inl (Option.some.inj hsame).symm
        · exact .inr ⟨hpassed, hin, hlive⟩
  · cases hstep

theorem settled_step {i j : ℕ} (hsettled : c.Settled i (c.stops j)) (h : c.Owned)
    (hstep : c.step event = some next) : next.Settled i (next.stops j) := by
  rcases stops_step hstep j with hsame | ⟨point, hpoint, hmove⟩
  · rw [hsame]
    exact hsettled.step h hstep
  · rw [hpoint]
    cases hmove with
    | called hnone =>
      rw [hnone] at hsettled
      exact hsettled
    | locked _ hcalled =>
      rw [hcalled] at hsettled
      exact hsettled.elim
    | cancelled k hcancelling =>
      rw [hcancelling] at hsettled
      exact Or.imp_right (fun hover => Over.step hover h hstep) hsettled
    | started i' hwaiting hdone =>
      rw [hwaiting] at hsettled
      rcases hsettled with hover | ⟨hsame, hin, -⟩
      · exact Over.step hover h hstep
      · obtain rfl := Option.some.inj hsame
        exact absurd hin (h.startsDone i' hdone).2
    | ran k error hwaiting hresult =>
      rw [hwaiting] at hsettled
      have hover : c.Over i := by
        rcases hsettled with rfl | hover
        · exact h.over_of_run (h.results i (by simp [hresult]))
        · exact hover
      cases error with
      | none => exact hover.step h hstep
      | some error => trivial
    | ended k hwaiting hended =>
      rw [hwaiting] at hsettled
      rcases hsettled with rfl | hover
      · exact (h.over_of_run (.inr hended)).step h hstep
      · exact Over.step hover h hstep
    | failed error => trivial

/-! ### Runs -/

theorem passed_startLock {i : ℕ} (hstep : c.step (.startLock i) = some next) : next.Passed i := by
  simp only [Controller.step, startLock] at hstep
  split at hstep
  · obtain rfl := Option.some.inj hstep
    split
    · exact passed_self rfl nofun
    · split
      · exact passed_self rfl nofun
      · exact passed_self rfl nofun
  · cases hstep

theorem Passed.step {i : ℕ} (hpassed : c.Passed i) (h : c.Owned)
    (hstep : c.step event = some next) : next.Passed i := by
  rcases effect_step hstep with
    hquiet | ⟨j, hcalled, hidle, hnone, heq⟩ | ⟨j, error, error', status, hbuilt, heq⟩ |
    ⟨j, error, hbuilt, hgo, heq⟩ | ⟨k, error, status, hexited, heq⟩
  · exact hquiet.passed i hpassed
  · have hstarts : next.starts = Function.update c.starts j (some .building) := by rw [heq]; rfl
    have hne : i ≠ j := by
      rintro rfl
      exact hpassed.2 hcalled
    exact (passed_other hstarts hne).mpr hpassed
  · have hstarts : next.starts = Function.update c.starts j (some (.returned error')) := by
      rw [heq]; rfl
    exact (h.leave (.inr ⟨error, hbuilt⟩) hstarts ⟨nofun, nofun, nofun⟩).2.2 i hpassed
  · have hstarts : next.starts = Function.update c.starts j (some .waiting) := by rw [heq]; rfl
    exact (h.leave (.inr ⟨error, hbuilt⟩) hstarts ⟨nofun, nofun, nofun⟩).2.2 i hpassed
  · have hstarts : next.starts = c.starts := by rw [heq]; rfl
    exact (starts_congr hstarts).2.mpr hpassed

theorem owned_run {events : List Event} (hrun : Trace.run Controller.step {} events = some c) :
    c.Owned :=
  Trace.run_invariant (fun _ _ _ h hstep => h.step hstep) owned_default hrun

theorem passed_run {events : List Event} {i : ℕ} (hmem : .startLock i ∈ events)
    (hrun : Trace.run Controller.step {} events = some c) : c.Passed i := by
  obtain ⟨before, after, rfl⟩ := List.append_of_mem hmem
  rw [Trace.run_append, Option.bind_eq_some_iff] at hrun
  obtain ⟨u, hu, hrun⟩ := hrun
  obtain ⟨v, hv, hrun⟩ := Trace.run_cons.mp hrun
  have howned := (owned_run hu).step hv
  have hinv := Trace.run_invariant (I := fun c : Controller => c.Owned ∧ c.Passed i)
    (fun _ _ _ h hstep => ⟨h.1.step hstep, h.2.step h.1 hstep⟩) ⟨howned, passed_startLock hv⟩ hrun
  exact hinv.2

/-- **One Runtime at a time.**  In every run at most one `Run` is active; and when a `Stop` that took
the mutex after a `Start` did has returned `nil`, the Runtime of the `Start` is not active, and never is
again. -/
theorem controller_runs (events : List Event) (c : Controller)
    (hrun : Trace.run Controller.step {} events = some c) :
    (∀ i k, c.Active i → c.Active k → i = k) ∧
      ∀ before after i j, events = before ++ .stopLock j :: after → .startLock i ∈ before →
        c.stops j = some (.returned none) → ¬c.Active i := by
  have howned := owned_run hrun
  constructor
  · intro i k hi hk
    have hsame := howned.live i (.inr (.inl hi))
    rw [howned.live k (.inr (.inl hk))] at hsame
    exact (Option.some.inj hsame).symm
  · rintro before after i j rfl hmem hreturned hactive
    rw [Trace.run_append, Option.bind_eq_some_iff] at hrun
    obtain ⟨u, hu, hrun⟩ := hrun
    obtain ⟨v, hv, hrun⟩ := Trace.run_cons.mp hrun
    have hsettled := settled_stopLock (owned_run hu) (passed_run hmem hu) hv
    have hinv := Trace.run_invariant
      (I := fun c : Controller => c.Owned ∧ c.Settled i (c.stops j))
      (fun _ _ _ h hstep => ⟨h.1.step hstep, settled_step h.2 h.1 hstep⟩)
      ⟨(owned_run hu).step hv, hsettled⟩ hrun
    rw [hreturned] at hinv
    exact hinv.2.ended (.inr (.inl hactive))

/-- A `Start` and a `Stop` of it that waits until its `Run` has returned. -/
def stoppedRun : List Event :=
  [.start 0, .startLock 0, .build 0 none, .startBuilt 0, .enterRun 0, .stop 0, .stopLock 0, .cancel 0,
    .exitRun 0 none, .clear 0 { state := .stopped }, .sendDone 0, .receive 0]

theorem controller_runs_stopped :
    ∃ c, Trace.run Controller.step {} stoppedRun = some c ∧
      c.stops 0 = some (.returned none) ∧ ∀ i k, c.Active i → c.Active k → i = k :=
  ⟨_, rfl, rfl, (controller_runs stoppedRun _ rfl).1⟩

/-- A `Start` that was called before a `Stop` and takes the mutex after it. -/
theorem start_after_stop :
    ∃ c, Trace.run Controller.step {}
        [.start 0, .stop 0, .stopLock 0, .startLock 0, .build 0 none, .startBuilt 0, .enterRun 0] =
          some c ∧
      c.stops 0 = some (.returned none) ∧ c.Active 0 :=
  ⟨_, rfl, rfl, rfl⟩

end RlcdDeck.Runtime.Controller
