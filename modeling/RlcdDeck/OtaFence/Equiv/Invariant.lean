import RlcdDeck.OtaFence.Equiv.Fence

/-!
# What the two tasks keep

`WellFormed` is what every event asks of the history before it, and `Inv` what holds after every
step.  `LinkEffect` says once what a step of the link task does; every condition that the OTA task
carries from one access to the next is stable under it.

`calm` stands for the runs in which no abort comes between an offer that replaces a transaction and
its `begin_transaction`; a transaction is destroyed once in such a run.
-/

namespace RlcdDeck.OtaFence

open Effects.Program (Stable)

/-! ### Histories -/

/-- A captured epoch is the epoch after as many aborts. -/
def Stamped (history : List Event) (stamp : Stamp) : Prop :=
  stamp.epoch.toNat = epochAfter stamp.aborts ∧ stamp.aborts ≤ aborts history

/-- A captured epoch is the current one. -/
def Current (history : List Event) (stamp : Stamp) : Prop :=
  stamp.aborts ≤ aborts history ∧ epochAfter stamp.aborts = epochAfter (aborts history)

/-- The last event that opened or closed a transaction of the fence. -/
def lastLifecycle (history : List Event) : Option Event := history.find? Event.isLifecycle

/-- What an event asks of the history before it. -/
def Allowed (calm : Prop) (history : List Event) : Event → Prop
  | .accepted stamp => ∃ current, stamp = some current ∧ Current history current
  | .begun number stamp =>
    number = begins history + 1 ∧ ∃ current, stamp = some current ∧ Current history current
  | .committing transaction =>
    ∃ number stamp, transaction = some number ∧ lastLifecycle history = some (.begun number stamp)
  | .selected transaction => .committing transaction ∈ history
  | .created number => .created number ∉ history
  | .destroyed number => calm → Live history number
  | .aborted | .released => True

/-- Every event is allowed where it is. -/
def WellFormed (calm : Prop) : List Event → Prop
  | [] => True
  | event :: history => Allowed calm history event ∧ WellFormed calm history

variable {calm : Prop} {history : List Event} {event : Event}

theorem WellFormed.of_append {later : List Event}
    (h : WellFormed calm (later ++ event :: history)) :
    Allowed calm history event ∧ WellFormed calm history := by
  induction later with
  | nil => exact h
  | cons first later ih => exact ih h.2

/-! ### The invariant -/

/-- A command that the link task has captured and the OTA task has not received. -/
def Pending (s : Service) (command : Command) : Prop :=
  command ∈ s.commands ∨ s.link = .sending command

/-- The current transaction is the one that was begun last, and it is in memory. -/
def Attached (s : Service) : Prop :=
  s.number = some (begins s.history) ∧ Live s.history (begins s.history)

/-- The transaction that was begun last is the current one, or is about to be created, or was
destroyed by an abort that is about to release the fence. -/
def Inside (s : Service) : Prop :=
  Attached s ∨ .created (begins s.history) ∉ s.history ∨
    (s.number = none ∧ .destroyed (begins s.history) ∈ s.history)

/-- What holds after every step. -/
structure Inv (calm : Prop) (s : Service) : Prop where
  wellFormed : WellFormed calm s.history
  epoch : (epochOf s.word).toNat = epochAfter (aborts s.history)
  pending : ∀ command stamp, Pending s command → command.stamp = some stamp →
    Stamped s.history stamp
  command : ∀ command stamp, s.command = some command → command.stamp = some stamp →
    Stamped s.history stamp
  created : ∀ number, .created number ∈ s.history → number ≤ begins s.history
  destroyed : ∀ number, .destroyed number ∈ s.history → .created number ∈ s.history
  number : ∀ number, s.number = some number → .created number ∈ s.history
  opened : stateOf s.word = .active →
    ∃ stamp, lastLifecycle s.history = some (.begun (begins s.history) stamp)
  inside : stateOf s.word = .active → Inside s

/-- An abort that has taken effect will be seen: the request is stored, or about to be. -/
def Reopened (s : Service) : Prop :=
  stateOf s.word = .aborting → s.abortRequested = true ∨ s.link = .requesting

/-- A transaction that the fence is active for is the current one, and it is receiving. -/
def Receiving (s : Service) : Prop :=
  stateOf s.word = .active → Attached s ∧
    ∀ object, s.transaction = some object → object.value.snapshot.state = .receiving

/-- `service->transaction` is null or in memory. -/
def Kept (s : Service) : Prop :=
  ∀ number, s.number = some number → Live s.history number

/-- `service->transaction` is null or the transaction that was begun last. -/
def Last (s : Service) : Prop :=
  ∀ number, s.number = some number → number = begins s.history

/-- While an offer has destroyed a transaction and has not begun its own, the fence has the epoch of
the offer and is not aborting. -/
def Calm (s : Service) : Prop :=
  ∀ transactionId manifest stamp,
    s.command = some (.offer transactionId manifest stamp) → s.number = some (begins s.history) →
    ¬ Live s.history (begins s.history) →
    epochOf s.word = stamp.epoch ∧ stateOf s.word ≠ .aborting

/-! ### What the link task does -/

/-- A step of the link task: it leaves the fence as it is, or begins an abort. -/
inductive LinkEffect (s t : Service) : Prop where
  | quiet : t.word = s.word → t.history = s.history → t.transaction = s.transaction →
    t.command = s.command →
    (s.abortRequested = true ∨ s.link = .requesting →
      t.abortRequested = true ∨ t.link = .requesting) →
    (∀ command stamp, Pending t command → command.stamp = some stamp →
      Pending s command ∨ stamp = s.capture) → LinkEffect s t
  | abort : t.word = encode (nextEpoch (epochOf s.word)) (abortedState (stateOf s.word)) →
    t.history = .aborted :: s.history → t.transaction = s.transaction → t.command = s.command →
    t.link = .requesting → (∀ command, Pending t command → Pending s command) → LinkEffect s t

variable {s t : Service}

theorem LinkEffect.of_frame (hword : t.word = s.word) (hhistory : t.history = s.history)
    (htransaction : t.transaction = s.transaction)
    (hcommand : t.command = s.command) (hrequested : t.abortRequested = s.abortRequested)
    (hlink : s.link ≠ .requesting)
    (hpending : ∀ command stamp, Pending t command → command.stamp = some stamp →
      Pending s command ∨ stamp = s.capture) : LinkEffect s t := by
  refine .quiet hword hhistory htransaction hcommand ?_ hpending
  rintro (h | h)
  · exact .inl (hrequested.trans h)
  · exact absurd h hlink

theorem LinkEffect.of_idle (hword : t.word = s.word) (hhistory : t.history = s.history)
    (htransaction : t.transaction = s.transaction)
    (hcommand : t.command = s.command) (hrequested : t.abortRequested = s.abortRequested)
    (hqueue : t.commands = s.commands) (hlink : s.link ≠ .requesting)
    (hidle : ∀ command, t.link ≠ .sending command) : LinkEffect s t := by
  refine .of_frame hword hhistory htransaction hcommand hrequested hlink ?_
  rintro command stamp (hqueued | hsending) -
  · exact .inl (.inl (hqueue ▸ hqueued))
  · exact absurd hsending (hidle command)

theorem linkStep_effect {step : LinkStep} (h : s.linkStep step = some t) :
    LinkEffect s t := by
  unfold Service.linkStep at h
  cases hlink : s.link with
  | ready =>
    rw [hlink] at h
    cases step with
    | offer transactionId manifest =>
      dsimp only at h
      split_ifs at h
      obtain rfl := Option.some.inj h
      refine .of_frame rfl rfl rfl rfl rfl (by rw [hlink]; nofun) ?_
      rintro command stamp (hqueued | hsending) hstamp
      · exact .inl (.inl hqueued)
      · obtain rfl := Link.sending.inj hsending
        exact .inr (Option.some.inj hstamp).symm
    | write transactionId offset data final =>
      dsimp only at h
      split_ifs at h
      obtain rfl := Option.some.inj h
      refine .of_frame rfl rfl rfl rfl rfl (by rw [hlink]; nofun) ?_
      rintro command stamp (hqueued | hsending) hstamp
      · exact .inl (.inl hqueued)
      · obtain rfl := Link.sending.inj hsending
        exact .inr (Option.some.inj hstamp).symm
    | pollResult =>
      obtain rfl := Option.some.inj h
      exact .of_idle rfl rfl rfl rfl rfl rfl (by rw [hlink]; nofun) nofun
    | abort =>
      obtain rfl := Option.some.inj h
      exact .of_idle rfl rfl rfl rfl rfl rfl (by rw [hlink]; nofun) nofun
    | _ => nomatch h
  | sending sent =>
    rw [hlink] at h
    cases step with
    | send ok =>
      dsimp only at h
      split_ifs at h
      · obtain rfl := Option.some.inj h
        refine .of_frame rfl rfl rfl rfl rfl (by rw [hlink]; nofun) ?_
        rintro command stamp (hqueued | hsending) -
        · rcases List.mem_append.mp hqueued with hold | hnew
          · exact .inl (.inl hold)
          · exact .inl (.inr (by rw [hlink, List.mem_singleton.mp hnew]))
        · cases hsending
      · obtain rfl := Option.some.inj h
        exact .of_idle rfl rfl rfl rfl rfl rfl (by rw [hlink]; nofun) nofun
    | _ => nomatch h
  | aborting =>
    rw [hlink] at h
    cases step with
    | load =>
      obtain rfl := Option.some.inj h
      exact .of_idle rfl rfl rfl rfl rfl rfl (by rw [hlink]; nofun) nofun
    | _ => nomatch h
  | exchanging current =>
    rw [hlink] at h
    cases step with
    | exchange ok =>
      dsimp only at h
      split_ifs at h with hexchanged
      · rw [Bool.and_eq_true, beq_iff_eq] at hexchanged
        obtain rfl := Option.some.inj h
        refine .abort (by rw [hexchanged.2]) rfl rfl rfl rfl ?_
        rintro command (hqueued | hsending)
        · exact .inl hqueued
        · cases hsending
      · obtain rfl := Option.some.inj h
        exact .of_idle rfl rfl rfl rfl rfl rfl (by rw [hlink]; nofun) nofun
    | _ => nomatch h
  | requesting =>
    rw [hlink] at h
    cases step with
    | request =>
      obtain rfl := Option.some.inj h
      refine .quiet rfl rfl rfl rfl (fun _ => .inl rfl) ?_
      rintro command stamp (hqueued | hsending) -
      · exact .inl (.inl hqueued)
      · cases hsending
    | _ => nomatch h
  | waking =>
    rw [hlink] at h
    cases step with
    | wake ok =>
      dsimp only at h
      split_ifs at h
      · obtain rfl := Option.some.inj h
        refine .of_frame rfl rfl rfl rfl rfl (by rw [hlink]; nofun) ?_
        rintro command stamp (hqueued | hsending) hstamp
        · rcases List.mem_cons.mp hqueued with rfl | hold
          · cases hstamp
          · exact .inl (.inl hold)
        · cases hsending
      · obtain rfl := Option.some.inj h
        exact .of_idle rfl rfl rfl rfl rfl rfl (by rw [hlink]; nofun) nofun
    | _ => nomatch h
  | waiting =>
    rw [hlink] at h
    cases step with
    | finish =>
      obtain rfl := Option.some.inj h
      exact .of_idle rfl rfl rfl rfl rfl rfl (by rw [hlink]; nofun) nofun
    | _ => nomatch h

/-! ### Stability -/

theorem aborts_cons (event : Event) (history : List Event) :
    aborts (event :: history) = aborts history + if event = .aborted then 1 else 0 := by
  unfold aborts
  rw [List.count_cons]
  simp only [beq_iff_eq]

theorem begins_cons (event : Event) (history : List Event) :
    begins (event :: history) = begins history + if event.isBegun then 1 else 0 :=
  List.countP_cons

variable {number : ℕ}

theorem live_cons (hcreated : event ≠ .created number) (hdestroyed : event ≠ .destroyed number) :
    Live (event :: history) number ↔ Live history number := by
  unfold Live
  rw [List.mem_cons, List.mem_cons]
  simp [hcreated.symm, hdestroyed.symm]

variable {stamp : Stamp}

theorem Stamped.mono {history' : List Event} (h : Stamped history stamp)
    (hle : aborts history ≤ aborts history') : Stamped history' stamp :=
  ⟨h.1, Nat.le_trans h.2 hle⟩

theorem abortedState_ne (state : State) :
    abortedState state ≠ .active ∧ abortedState state ≠ .idle := by
  cases state
  · decide
  · decide
  · decide
  · decide

theorem Inv.of_same (h : Inv calm s) (hword : t.word = s.word) (hhistory : t.history = s.history)
    (hnumber : t.number = s.number)
    (hcommand : ∀ command stamp, t.command = some command → command.stamp = some stamp →
      Stamped s.history stamp)
    (hpending : ∀ command stamp, Pending t command → command.stamp = some stamp →
      Stamped s.history stamp) : Inv calm t := by
  have hinside : Inside s → Inside t := by
    unfold Inside Attached
    rw [hnumber, hhistory]
    exact id
  refine ⟨?_, ?_, ?_, ?_, ?_, ?_, ?_, ?_, ?_⟩
  · rw [hhistory]
    exact h.wellFormed
  · rw [hword, hhistory]
    exact h.epoch
  · rw [hhistory]
    exact hpending
  · rw [hhistory]
    exact hcommand
  · rw [hhistory]
    exact h.created
  · rw [hhistory]
    exact h.destroyed
  · rw [hnumber, hhistory]
    exact h.number
  · rw [hword, hhistory]
    exact h.opened
  · rw [hword]
    exact fun hactive => hinside (h.inside hactive)

theorem number_eq (h : t.transaction = s.transaction) : t.number = s.number := by
  unfold Service.number
  rw [h]

theorem begins_aborted (history : List Event) : begins (.aborted :: history) = begins history :=
  begins_cons _ _

theorem aborts_aborted (history : List Event) : aborts (.aborted :: history) = aborts history + 1 := by
  rw [aborts_cons, if_pos rfl]

theorem live_aborted :
    Live (.aborted :: history) number ↔ Live history number :=
  live_cons nofun nofun

theorem stable_inv (h : Inv calm s) (heffect : LinkEffect s t) :
    Inv calm t := by
  rcases heffect with ⟨hword, hhistory, htransaction, hcommand, -, hpending⟩ |
    ⟨hword, hhistory, htransaction, hcommand, -, hpending⟩
  · refine h.of_same hword hhistory (number_eq htransaction) (hcommand ▸ h.command) ?_
    intro command stamp hcommand hstamp
    rcases hpending command stamp hcommand hstamp with hold | rfl
    · exact h.pending command stamp hold hstamp
    · exact ⟨h.epoch, Nat.le_refl _⟩
  · have hinactive : stateOf t.word ≠ .active := by
      rw [hword, stateOf_encode]
      exact (abortedState_ne _).1
    have hle : aborts s.history ≤ aborts t.history := by
      rw [hhistory, aborts_aborted]
      exact Nat.le_succ _
    refine ⟨?_, ?_, ?_, ?_, ?_, ?_, ?_, fun hno => absurd hno hinactive,
      fun hno => absurd hno hinactive⟩
    · rw [hhistory]
      exact ⟨trivial, h.wellFormed⟩
    · rw [hword, hhistory, epochOf_encode (nextEpoch_le h.epoch), aborts_aborted,
        toNat_nextEpoch h.epoch]
    · intro command stamp hcommand hstamp
      exact (h.pending command stamp (hpending command hcommand) hstamp).mono hle
    · intro command stamp hcurrent hstamp
      exact (h.command command stamp (hcommand ▸ hcurrent) hstamp).mono hle
    · intro number hnumber
      simp only [hhistory, List.mem_cons, reduceCtorEq, false_or] at hnumber
      rw [hhistory, begins_aborted]
      exact h.created number hnumber
    · intro number hnumber
      simp only [hhistory, List.mem_cons, reduceCtorEq, false_or] at hnumber ⊢
      exact h.destroyed number hnumber
    · intro number hcurrent
      rw [number_eq htransaction] at hcurrent
      simp only [hhistory, List.mem_cons, reduceCtorEq, false_or]
      exact h.number number hcurrent

/-! ### Conditions between two accesses -/

theorem stable_notCommitting (h : stateOf s.word ≠ .committing) (heffect : LinkEffect s t) :
    stateOf t.word ≠ .committing := by
  rcases heffect with ⟨hword, -⟩ | ⟨hword, -⟩
  · rw [hword]
    exact h
  · rw [hword, stateOf_encode]
    unfold abortedState
    rw [if_neg h]
    nofun

theorem stable_committing (h : stateOf s.word = .committing) (heffect : LinkEffect s t) :
    stateOf t.word = .committing := by
  rcases heffect with ⟨hword, -⟩ | ⟨hword, -⟩
  · rw [hword]
    exact h
  · rw [hword, stateOf_encode]
    exact if_pos h

theorem stable_notActive (h : stateOf s.word ≠ .active) (heffect : LinkEffect s t) :
    stateOf t.word ≠ .active := by
  rcases heffect with ⟨hword, -⟩ | ⟨hword, -⟩
  · rw [hword]
    exact h
  · rw [hword, stateOf_encode]
    exact (abortedState_ne _).1

theorem stable_reopened (h : Reopened s) (heffect : LinkEffect s t) :
    Reopened t := by
  intro haborting
  rcases heffect with ⟨hword, -, -, -, hrequested, -⟩ | ⟨-, -, -, -, hlink, -⟩
  · exact hrequested (h (hword ▸ haborting))
  · exact .inr hlink

theorem stable_attached (h : Attached s) (heffect : LinkEffect s t) :
    Attached t := by
  unfold Attached at h ⊢
  rcases heffect with ⟨-, hhistory, htransaction, -⟩ | ⟨-, hhistory, htransaction, -⟩
  · rw [hhistory, number_eq htransaction]
    exact h
  · rw [hhistory, number_eq htransaction, begins_aborted, live_aborted]
    exact h

theorem stable_kept (h : Kept s) (heffect : LinkEffect s t) : Kept t := by
  intro number hnumber
  rcases heffect with ⟨-, hhistory, htransaction, -⟩ | ⟨-, hhistory, htransaction, -⟩
  · rw [number_eq htransaction] at hnumber
    rw [hhistory]
    exact h number hnumber
  · rw [number_eq htransaction] at hnumber
    rw [hhistory, live_aborted]
    exact h number hnumber

theorem stable_last (h : Last s) (heffect : LinkEffect s t) : Last t := by
  intro number hnumber
  rcases heffect with ⟨-, hhistory, htransaction, -⟩ | ⟨-, hhistory, htransaction, -⟩
  · rw [number_eq htransaction] at hnumber
    rw [hhistory]
    exact h number hnumber
  · rw [number_eq htransaction] at hnumber
    rw [hhistory, begins_aborted]
    exact h number hnumber

/-! ### Events of the fence -/

/-- An event that is neither an abort nor the begin, the creation or the end of a transaction. -/
def Event.plain : Event → Bool
  | .accepted _ | .committing _ | .selected _ | .released => true
  | _ => false

theorem begins_plain (h : event.plain = true) (history : List Event) :
    begins (event :: history) = begins history := by
  rw [begins_cons]
  cases event <;> first | rfl | cases h

theorem aborts_plain (h : event.plain = true) (history : List Event) :
    aborts (event :: history) = aborts history := by
  have hne : event ≠ .aborted := by
    rintro rfl
    cases h
  rw [aborts_cons, if_neg hne]
  rfl

theorem live_plain (h : event.plain = true) {history : List Event} {number : ℕ} :
    Live (event :: history) number ↔ Live history number := by
  refine live_cons ?_ ?_
  · rintro rfl
    cases h
  · rintro rfl
    cases h

/-- A plain event, which may come with a change of the fence. -/
structure Plain (calm : Prop) (event : Event) (s t : Service) : Prop where
  plain : event.plain = true
  allowed : Allowed calm s.history event
  history : t.history = event :: s.history
  epoch : epochOf t.word = epochOf s.word
  number : t.number = s.number
  command : t.command = s.command
  pending : ∀ command, Pending t command → Pending s command
  active : stateOf t.word = .active → stateOf s.word = .active ∧ event.isLifecycle = false

theorem Plain.mem_created (h : Plain calm event s t) {number : ℕ} :
    .created number ∈ t.history ↔ .created number ∈ s.history := by
  rw [h.history, List.mem_cons, or_iff_right]
  rintro rfl
  cases h.plain

theorem Plain.mem_destroyed (h : Plain calm event s t) {number : ℕ} :
    .destroyed number ∈ t.history ↔ .destroyed number ∈ s.history := by
  rw [h.history, List.mem_cons, or_iff_right]
  rintro rfl
  cases h.plain

theorem Plain.begins (h : Plain calm event s t) :
    begins t.history = begins s.history := by
  rw [h.history, begins_plain h.plain]

theorem Plain.aborts (h : Plain calm event s t) :
    aborts t.history = aborts s.history := by
  rw [h.history, aborts_plain h.plain]

theorem Plain.attached (h : Plain calm event s t) (hattached : Attached s) : Attached t := by
  unfold Attached at hattached ⊢
  rw [h.number, h.begins, h.history, live_plain h.plain]
  exact hattached

theorem Plain.inv (h : Plain calm event s t) (hinv : Inv calm s) :
    Inv calm t where
  wellFormed := by
    rw [h.history]
    exact ⟨h.allowed, hinv.wellFormed⟩
  epoch := by
    rw [h.epoch, h.aborts]
    exact hinv.epoch
  pending command stamp hpending hstamp :=
    (hinv.pending command stamp (h.pending command hpending) hstamp).mono (Nat.le_of_eq h.aborts.symm)
  command command stamp hcommand hstamp :=
    (hinv.command command stamp (h.command ▸ hcommand) hstamp).mono (Nat.le_of_eq h.aborts.symm)
  created number hnumber := by
    rw [h.begins]
    exact hinv.created number (h.mem_created.mp hnumber)
  destroyed number hnumber :=
    h.mem_created.mpr (hinv.destroyed number (h.mem_destroyed.mp hnumber))
  number number hnumber := h.mem_created.mpr (hinv.number number (h.number ▸ hnumber))
  opened hactive := by
    obtain ⟨hbefore, hlifecycle⟩ := h.active hactive
    unfold lastLifecycle
    rw [h.begins, h.history, List.find?_cons_of_neg (by simp [hlifecycle])]
    exact hinv.opened hbefore
  inside hactive := by
    rcases hinv.inside (h.active hactive).1 with hattached | hcreated | ⟨hnone, hdestroyed⟩
    · exact .inl (h.attached hattached)
    · refine .inr (.inl ?_)
      rw [h.begins, h.mem_created]
      exact hcreated
    · refine .inr (.inr ⟨h.number.trans hnone, ?_⟩)
      rw [h.begins, h.mem_destroyed]
      exact hdestroyed

/-! ### Events of the transactions -/

theorem aborts_of_not (h : (event == .aborted) = false) (history : List Event) :
    aborts (event :: history) = aborts history := by
  unfold aborts
  rw [List.count_cons, h]
  rfl

theorem begins_of_not (h : event.isBegun = false) (history : List Event) :
    begins (event :: history) = begins history := by
  rw [begins_cons, h]
  rfl

theorem lastLifecycle_of_not (h : event.isLifecycle = false) (history : List Event) :
    lastLifecycle (event :: history) = lastLifecycle history :=
  List.find?_cons_of_neg (by simp [h])

/-- The current transaction is destroyed; `service->transaction` may be cleared with it. -/
theorem Inv.destroy (h : Inv calm s) (hnumber : s.number = some number)
    (hlive : calm → Live s.history number) (hhistory : t.history = .destroyed number :: s.history)
    (hword : t.word = s.word) (hcurrent : ∀ n, t.number = some n → s.number = some n)
    (hcommand : t.command = s.command) (hpending : ∀ command, Pending t command → Pending s command)
    (hinside : stateOf s.word = .active → Inside t) : Inv calm t := by
  have haborts : aborts t.history = aborts s.history := by
    rw [hhistory]
    exact aborts_of_not rfl _
  have hbegins : begins t.history = begins s.history := by
    rw [hhistory, begins_of_not rfl]
  have hcreated : ∀ n, .created n ∈ t.history ↔ .created n ∈ s.history := by
    intro n
    simp only [hhistory, List.mem_cons, reduceCtorEq, false_or]
  refine ⟨?_, ?_, ?_, ?_, ?_, ?_, ?_, ?_, ?_⟩
  · rw [hhistory]
    exact ⟨hlive, h.wellFormed⟩
  · rw [hword, haborts]
    exact h.epoch
  · intro command stamp hcommand hstamp
    exact (h.pending command stamp (hpending command hcommand) hstamp).mono (Nat.le_of_eq haborts.symm)
  · intro command stamp hcurrent hstamp
    exact (h.command command stamp (hcommand ▸ hcurrent) hstamp).mono (Nat.le_of_eq haborts.symm)
  · intro n hn
    rw [hbegins]
    exact h.created n ((hcreated n).mp hn)
  · intro n hn
    rw [hcreated]
    rw [hhistory] at hn
    rcases List.mem_cons.mp hn with heq | hold
    · obtain rfl := Event.destroyed.inj heq
      exact h.number n hnumber
    · exact h.destroyed n hold
  · intro n hn
    exact (hcreated n).mpr (h.number n (hcurrent n hn))
  · rw [hword, hbegins, hhistory, lastLifecycle_of_not rfl]
    exact h.opened
  · rw [hword]
    exact hinside

/-- The service after `begin_transaction` took effect. -/
def begun (s : Service) (stamp : Stamp) : Service :=
  { s with
    word := encode stamp.epoch .active
    history := .begun (begins s.history + 1) (some stamp) :: s.history }

theorem begins_begun (s : Service) (stamp : Stamp) :
    begins (begun s stamp).history = begins s.history + 1 := begins_cons _ _

theorem mem_begun_created :
    .created number ∈ (begun s stamp).history ↔ .created number ∈ s.history := by
  simp only [begun, List.mem_cons, reduceCtorEq, false_or]

theorem mem_begun_destroyed :
    .destroyed number ∈ (begun s stamp).history ↔ .destroyed number ∈ s.history := by
  simp only [begun, List.mem_cons, reduceCtorEq, false_or]

theorem Inv.begin (h : Inv calm s) (hstamp : Stamped s.history stamp)
    (hepoch : epochOf s.word = stamp.epoch) :
    Inv calm (begun s stamp) ∧ .created (begins (begun s stamp).history) ∉ (begun s stamp).history ∧
      .destroyed (begins (begun s stamp).history) ∉ (begun s stamp).history := by
  have haborts : aborts (begun s stamp).history = aborts s.history :=
    aborts_of_not rfl _
  have hsame : epochOf (begun s stamp).word = epochOf s.word := by
    rw [hepoch]
    exact epochOf_encode (hepoch ▸ epochOf_le s.word) _
  have hfresh : .created (begins (begun s stamp).history) ∉ (begun s stamp).history := by
    intro hno
    rw [begins_begun, mem_begun_created] at hno
    exact absurd (h.created _ hno) (by omega)
  refine ⟨⟨?_, ?_, ?_, ?_, ?_, ?_, ?_, ?_, ?_⟩, hfresh, ?_⟩
  · refine ⟨⟨rfl, stamp, rfl, hstamp.2, ?_⟩, h.wellFormed⟩
    rw [← hstamp.1, ← hepoch]
    exact h.epoch
  · rw [hsame, haborts]
    exact h.epoch
  · intro command captured hpending hcaptured
    exact (h.pending command captured hpending hcaptured).mono (Nat.le_of_eq haborts.symm)
  · intro command captured hcommand hcaptured
    exact (h.command command captured hcommand hcaptured).mono (Nat.le_of_eq haborts.symm)
  · intro number hnumber
    rw [begins_begun]
    exact Nat.le_succ_of_le (h.created number (mem_begun_created.mp hnumber))
  · intro number hnumber
    exact mem_begun_created.mpr (h.destroyed number (mem_begun_destroyed.mp hnumber))
  · intro number hnumber
    exact mem_begun_created.mpr (h.number number hnumber)
  · intro _
    rw [begins_begun]
    exact ⟨some stamp, rfl⟩
  · exact fun _ => .inr (.inl hfresh)
  · intro hno
    rw [begins_begun, mem_begun_destroyed] at hno
    exact absurd (h.created _ (h.destroyed _ hno)) (by omega)

/-- The transaction that was begun last is created. -/
theorem Inv.create (h : Inv calm s) (hcreated : .created (begins s.history) ∉ s.history)
    (hdestroyed : .destroyed (begins s.history) ∉ s.history)
    (hhistory : t.history = .created (begins s.history) :: s.history) (hword : t.word = s.word)
    (hnumber : t.number = some (begins s.history)) (hcommand : t.command = s.command)
    (hpending : ∀ command, Pending t command → Pending s command) :
    Inv calm t ∧ Attached t := by
  have haborts : aborts t.history = aborts s.history := by
    rw [hhistory]
    exact aborts_of_not rfl _
  have hbegins : begins t.history = begins s.history := by
    rw [hhistory, begins_of_not rfl]
  have hmem : .created (begins s.history) ∈ t.history := by
    rw [hhistory]
    exact List.mem_cons_self
  have hattached : Attached t := by
    unfold Attached
    rw [hbegins]
    refine ⟨hnumber, hmem, ?_⟩
    simp only [hhistory, List.mem_cons, reduceCtorEq, false_or]
    exact hdestroyed
  refine ⟨⟨?_, ?_, ?_, ?_, ?_, ?_, ?_, ?_, fun _ => .inl hattached⟩, hattached⟩
  · rw [hhistory]
    exact ⟨hcreated, h.wellFormed⟩
  · rw [hword, haborts]
    exact h.epoch
  · intro command stamp hcommand hstamp
    exact (h.pending command stamp (hpending command hcommand) hstamp).mono
      (Nat.le_of_eq haborts.symm)
  · intro command stamp hcurrent hstamp
    exact (h.command command stamp (hcommand ▸ hcurrent) hstamp).mono (Nat.le_of_eq haborts.symm)
  · intro n hn
    rw [hbegins]
    rw [hhistory] at hn
    rcases List.mem_cons.mp hn with heq | hold
    · obtain rfl := Event.created.inj heq
      exact Nat.le_refl _
    · exact h.created n hold
  · intro n hn
    simp only [hhistory, List.mem_cons, reduceCtorEq, false_or] at hn ⊢
    exact .inr (h.destroyed n hn)
  · intro n hn
    rw [hnumber] at hn
    obtain rfl := Option.some.inj hn
    exact hmem
  · rw [hword, hbegins, hhistory, lastLifecycle_of_not rfl]
    exact h.opened

theorem Inv.clear {s t : Service} (h : Inv calm s)
    (hcreated : .created (begins s.history) ∉ s.history) (hhistory : t.history = s.history)
    (hword : t.word = s.word) (hnumber : t.number = none) (hcommand : t.command = s.command)
    (hpending : ∀ command, Pending t command → Pending s command) : Inv calm t := by
  refine ⟨?_, ?_, ?_, ?_, ?_, ?_, ?_, ?_, ?_⟩
  · rw [hhistory]
    exact h.wellFormed
  · rw [hword, hhistory]
    exact h.epoch
  · intro command stamp hcommand hstamp
    rw [hhistory]
    exact h.pending command stamp (hpending command hcommand) hstamp
  · rw [hcommand, hhistory]
    exact h.command
  · rw [hhistory]
    exact h.created
  · rw [hhistory]
    exact h.destroyed
  · intro number hno
    rw [hnumber] at hno
    cases hno
  · rw [hword, hhistory]
    exact h.opened
  · intro _
    refine .inr (.inl ?_)
    rw [hhistory]
    exact hcreated

end RlcdDeck.OtaFence
