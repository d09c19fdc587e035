import RlcdDeck.OtaFence.Equiv.Invariant

/-!
# The OTA task under the steps of the link task

One lemma for each function of the OTA task: what it keeps, and what holds when it is done, with
any number of steps of the link task before each of its accesses.

`Held` is what holds while no commit is under way, `Settled` what holds between two commands.
`seen` says whether an abort that has taken effect will still be seen (`Reopened`): it will not
while the task handles one.
-/

namespace RlcdDeck.OtaFence

open Effects
open Effects.Program (Stable after)
open OtaTransaction (Transaction)

/-! ### Accesses -/

section Accesses

variable (calm : Prop)

/-- A step of the link task. -/
def rely (s t : Service) : Prop :=
  (∃ step, s.linkStep step = some t) ∧ (calm → Calm t)

/-- An access of the OTA task. -/
def access (s : Service) (call : Call) (r : Answer call) (s' : Service) : Prop :=
  (∃ choice, s.answer choice call = some (r, s')) ∧ (calm → Calm s')

/-- What holds at every access. -/
def Here (s : Service) : Prop := Inv calm s ∧ (calm → Calm s)

/-- `p` keeps what holds at every access, and ends in `post`. -/
abbrev Ensures {α : Type} (p : Task α) (post : α → Service → Prop) (s : Service) : Prop :=
  p.wp (after (rely calm) (access calm)) post (Here calm) s

end Accesses

variable {calm : Prop} {α β : Type}

variable {P : Service → Prop}

theorem stable_of_effect
    (h : ∀ s t, P s → LinkEffect s t → (calm → Calm t) → P t) : Stable (rely calm) P := by
  rintro s t hs ⟨⟨step, hstep⟩, hcalm⟩
  exact h s t hs (linkStep_effect hstep) hcalm

theorem stable_here : Stable (rely calm) (Here calm) :=
  stable_of_effect fun _ _ h heffect hcalm => ⟨stable_inv h.1 heffect, hcalm⟩

variable {call : Call} {s : Service}

theorem ensures_ask {f : Answer call → Task β} {post : β → Service → Prop}
    (hstable : Stable (rely calm) P) (hhere : ∀ s, P s → Here calm s) (hs : P s)
    (h : ∀ s choice r s', P s → s.answer choice call = some (r, s') → (calm → Calm s') →
      Ensures calm (f r) post s') : Ensures calm (ask call >>= f) post s := by
  refine Program.wp_perform_stable hstable hhere hs ?_
  rintro s r s' hs ⟨⟨choice, hanswer⟩, hcalm⟩
  exact h s choice r s' hs hanswer hcalm

theorem ensures_last {post : Answer call → Service → Prop} (hstable : Stable (rely calm) P)
    (hhere : ∀ s, P s → Here calm s) (hs : P s) (hpost : ∀ r s, post r s → Here calm s)
    (h : ∀ s choice r s', P s → s.answer choice call = some (r, s') → (calm → Calm s') →
      post r s') : Ensures calm (ask call) post s := by
  refine ⟨hhere s hs, ?_⟩
  rintro r s' ⟨t, hsteps, ⟨choice, hanswer⟩, hcalm⟩
  have hdone := h t choice r s' (hstable.trans hs hsteps) hanswer hcalm
  exact ⟨hpost r s' hdone, hdone⟩

theorem ensures_seq {p : Task α} {f : α → Task β} {middle : α → Service → Prop}
    {post : β → Service → Prop} (hp : Ensures calm p middle s)
    (hf : ∀ a s, middle a s → Ensures calm (f a) post s) : Ensures calm (p >>= f) post s :=
  Program.wp_bind (Program.wp_mono hp (fun _ h => h) hf)

/-! ### Quiet accesses -/

/-- An access that changes neither the fence nor the transactions. -/
structure Quiet (s t : Service) : Prop where
  word : t.word = s.word
  history : t.history = s.history
  transaction : t.transaction = s.transaction
  command : t.command = s.command
  commands : t.commands = s.commands
  link : t.link = s.link
  abortRequested : t.abortRequested = s.abortRequested

/-- The accesses that are quiet whatever is answered. -/
def Call.quiet : Call → Bool
  | .load | .loadAbortRequested | .now | .transaction | .activeTransactionId
  | .setActiveTransactionId _ | .sendResult _ | .receiveResult | .setAbortComplete | .adapter _
  | .updatePartition => true
  | _ => false

theorem quiet_of_answer {s' : Service} {choice : Choice} {r : Answer call}
    (hcall : call.quiet = true) (h : s.answer choice call = some (r, s')) : Quiet s s' := by
  have hout : ∀ (r' : Answer call) t, some (r', t) = some (r, s') → Quiet s t → Quiet s s' := by
    intro r' t heq hquiet
    obtain rfl := (Prod.mk.inj (Option.some.inj heq)).2
    exact hquiet
  have hsame : Quiet s s := ⟨rfl, rfl, rfl, rfl, rfl, rfl, rfl⟩
  unfold Service.answer at h
  cases call with
  | load => exact hout _ _ h hsame
  | loadAbortRequested => exact hout _ _ h hsame
  | now => exact hout _ _ h hsame
  | transaction => exact hout _ _ h hsame
  | activeTransactionId => exact hout _ _ h hsame
  | setActiveTransactionId => exact hout _ _ h ⟨rfl, rfl, rfl, rfl, rfl, rfl, rfl⟩
  | sendResult =>
    dsimp only at h
    split_ifs at h
    · exact hout _ _ h ⟨rfl, rfl, rfl, rfl, rfl, rfl, rfl⟩
    · exact hout _ _ h hsame
  | receiveResult => exact hout _ _ h ⟨rfl, rfl, rfl, rfl, rfl, rfl, rfl⟩
  | setAbortComplete => exact hout _ _ h ⟨rfl, rfl, rfl, rfl, rfl, rfl, rfl⟩
  | adapter => exact hout _ _ h hsame
  | updatePartition => exact hout _ _ h hsame
  | _ => cases hcall

/-- A condition that the link task and the quiet accesses keep. -/
structure Steady (calm : Prop) (P : Service → Prop) : Prop where
  stable : Stable (rely calm) P
  here : ∀ s, P s → Here calm s
  quiet : ∀ s t, P s → Quiet s t → (calm → Calm t) → P t

variable {t : Service}

theorem Quiet.inv (h : Quiet s t) (hinv : Inv calm s) : Inv calm t := by
  refine hinv.of_same h.word h.history (number_eq h.transaction) (h.command ▸ hinv.command) ?_
  intro command stamp hpending hstamp
  refine hinv.pending command stamp ?_ hstamp
  unfold Pending at hpending ⊢
  rw [← h.commands, ← h.link]
  exact hpending

theorem Quiet.attached (h : Quiet s t) (hattached : Attached s) : Attached t := by
  unfold Attached at hattached ⊢
  rw [h.history, number_eq h.transaction]
  exact hattached

theorem Quiet.reopened (h : Quiet s t) (hreopened : Reopened s) : Reopened t := by
  unfold Reopened at hreopened ⊢
  rw [h.word, h.abortRequested, h.link]
  exact hreopened

theorem ensures_quiet (call : Call) {P : Service → Prop} {f : Answer call → Task β}
    {post : β → Service → Prop} {s : Service} (hsteady : Steady calm P)
    (hcall : call.quiet = true) (hs : P s) (h : ∀ r s', P s' → Ensures calm (f r) post s') :
    Ensures calm (ask call >>= f) post s := by
  refine ensures_ask hsteady.stable hsteady.here hs ?_
  intro s choice r s' hs hanswer hcalm
  exact h r s' (hsteady.quiet s s' hs (quiet_of_answer hcall hanswer) hcalm)

theorem ensures_quiet_last (hsteady : Steady calm P) (hcall : call.quiet = true) (hs : P s) :
    Ensures calm (ask call) (fun _ => P) s := by
  refine ensures_last hsteady.stable hsteady.here hs (fun _ => hsteady.here) ?_
  intro s choice r s' hs hanswer hcalm
  exact hsteady.quiet s s' hs (quiet_of_answer hcall hanswer) hcalm

/-! ### What is kept -/

/-- A condition that the link task and the quiet accesses keep by itself. -/
structure Keeps (F : Service → Prop) : Prop where
  effect : ∀ s t, F s → LinkEffect s t → F t
  quiet : ∀ s t, F s → Quiet s t → F t

theorem Steady.and {F : Service → Prop} (hP : Steady calm P) (hF : Keeps F) :
    Steady calm fun s => P s ∧ F s where
  stable s t h hstep := by
    obtain ⟨step, hlink⟩ := hstep.1
    exact ⟨hP.stable s t h.1 hstep, hF.effect s t h.2 (linkStep_effect hlink)⟩
  here s h := hP.here s h.1
  quiet s t h hquiet hcalm := ⟨hP.quiet s t h.1 hquiet hcalm, hF.quiet s t h.2 hquiet⟩

/-- The fence is not active. -/
def Inactive (s : Service) : Prop := stateOf s.word ≠ .active

theorem keeps_inactive : Keeps Inactive where
  effect _ _ h heffect := stable_notActive h heffect
  quiet s t h hquiet := by
    unfold Inactive
    rw [hquiet.word]
    exact h

/-- The transaction that was begun last is in memory while the fence is active. -/
def AttachedIfActive (s : Service) : Prop := stateOf s.word = .active → Attached s

theorem keeps_attachedIfActive : Keeps AttachedIfActive where
  effect s t h heffect hactive := by
    have hbefore : stateOf s.word = .active := by
      by_contra hno
      exact stable_notActive hno heffect hactive
    exact stable_attached (h hbefore) heffect
  quiet s t h hquiet hactive := hquiet.attached (h (hquiet.word ▸ hactive))

theorem keeps_last : Keeps Last where
  effect _ _ h heffect := stable_last h heffect
  quiet s t h hquiet := by
    unfold Last
    rw [hquiet.history, number_eq hquiet.transaction]
    exact h

theorem keeps_notCommitting : Keeps fun s => stateOf s.word ≠ .committing where
  effect _ _ h heffect := stable_notCommitting h heffect
  quiet s t h hquiet := by
    rw [hquiet.word]
    exact h

theorem keeps_reopened (seen : Prop) : Keeps fun s => seen → Reopened s where
  effect _ _ h heffect hseen := stable_reopened (h hseen) heffect
  quiet _ _ h hquiet hseen := hquiet.reopened (h hseen)

theorem keeps_kept (calm : Prop) : Keeps fun s => calm → Kept s where
  effect _ _ h heffect hcalm := stable_kept (h hcalm) heffect
  quiet s t h hquiet hcalm := by
    unfold Kept
    rw [hquiet.history, number_eq hquiet.transaction]
    exact h hcalm

theorem steady_here (calm : Prop) : Steady calm (Here calm) where
  stable := stable_here
  here _ h := h
  quiet _ _ h hquiet hcalm := ⟨hquiet.inv h.1, hcalm⟩

/-- What holds also while a commit is under way. -/
structure Core (calm seen : Prop) (s : Service) : Prop where
  here : Here calm s
  reopened : seen → Reopened s
  last : Last s
  kept : calm → Kept s

/-- What holds while no commit is under way. -/
structure Held (calm seen : Prop) (s : Service) : Prop extends Core calm seen s where
  notCommitting : stateOf s.word ≠ .committing
  attached : AttachedIfActive s

variable {Q : Service → Prop}

theorem Steady.congr (hP : Steady calm P) (h : ∀ s, P s ↔ Q s) :
    Steady calm Q := by
  obtain rfl : P = Q := funext fun s => propext (h s)
  exact hP

variable {seen : Prop}

theorem steady_core : Steady calm (Core calm seen) := by
  have hsteady := ((steady_here calm).and (keeps_reopened seen)).and
    keeps_last |>.and (keeps_kept calm)
  refine hsteady.congr fun s => ⟨?_, ?_⟩
  · rintro ⟨⟨⟨hhere, hreopened⟩, hlast⟩, hkept⟩
    exact ⟨hhere, hreopened, hlast, hkept⟩
  · rintro ⟨hhere, hreopened, hlast, hkept⟩
    exact ⟨⟨⟨hhere, hreopened⟩, hlast⟩, hkept⟩

theorem steady_held : Steady calm (Held calm seen) := by
  have hsteady := ((steady_core : Steady calm (Core calm seen)).and keeps_notCommitting).and
    keeps_attachedIfActive
  refine hsteady.congr fun s => ⟨?_, ?_⟩
  · rintro ⟨⟨hcore, hcommitting⟩, hattached⟩
    exact ⟨hcore, hcommitting, hattached⟩
  · rintro ⟨hcore, hcommitting, hattached⟩
    exact ⟨⟨hcore, hcommitting⟩, hattached⟩

theorem Plain.core {seen' : Prop} {event : Event} (h : Plain calm event s t)
    (hcore : Core calm seen s) (hcalm : calm → Calm t) (hreopened : seen' → Reopened t) :
    Core calm seen' t where
  here := ⟨h.inv hcore.here.1, hcalm⟩
  reopened := hreopened
  last number hnumber := by
    rw [h.begins]
    exact hcore.last number (h.number ▸ hnumber)
  kept hcalm number hnumber := by
    rw [h.history, live_plain h.plain]
    exact hcore.kept hcalm number (h.number ▸ hnumber)

theorem reopened_of_ne (h : stateOf s.word ≠ .aborting) : Reopened s :=
  fun haborting => absurd haborting h

theorem Core.held (h : Core calm seen s) (hinactive : Inactive s)
    (hcommitting : stateOf s.word ≠ .committing) : Held calm seen s :=
  ⟨h, hcommitting, fun hactive => absurd hactive hinactive⟩

/-! ### Releasing the fence -/

/-- The service after its fence is released. -/
def released (s : Service) : Service :=
  { s with word := encode (epochOf s.word) .idle, history := .released :: s.history }

theorem compareExchange_eq {s' : Service} {ok : Bool} {expected desired : UInt32}
    {found : Option UInt32} (h : s.compareExchange ok expected desired = (found, s')) :
    (found = none ∧ s.word = expected ∧
      s' = { s with word := desired, history := s.exchangeEvent desired :: s.history }) ∨
    (found = some s.word ∧ s' = s ∧ (ok = true → s.word ≠ expected)) := by
  unfold Service.compareExchange at h
  split_ifs at h with hexchanged
  · rw [Bool.and_eq_true, beq_iff_eq] at hexchanged
    obtain ⟨rfl, rfl⟩ := Prod.mk.inj h
    exact .inl ⟨rfl, hexchanged.2, rfl⟩
  · obtain ⟨rfl, rfl⟩ := Prod.mk.inj h
    refine .inr ⟨rfl, rfl, ?_⟩
    rintro rfl hword
    exact hexchanged (by simp [hword])

/-- The loop of `release`: `P` holds until the fence is no longer held, and `Q` from then on. -/
theorem ensures_release {held : State → Bool} (hP : Steady calm P) (hQ : Steady calm Q)
    (hread : ∀ s, P s → held (stateOf s.word) = false → Q s)
    (hrelease : ∀ s, P s → held (stateOf s.word) = true → (calm → Calm (released s)) →
      Q (released s)) {fuel : ℕ} {current : UInt32} {s : Service} (hs : P s)
    (hcurrent : held (stateOf current) = false → Q s) :
    Ensures calm (release held fuel current) (fun _ => Q) s := by
  induction fuel generalizing current s with
  | zero => exact ⟨hP.here s hs, fun r => r.elim⟩
  | succ fuel ih =>
    unfold release
    split_ifs with hheld
    · refine ensures_ask hP.stable hP.here hs ?_
      intro s choice found s' hs hanswer hcalm
      rcases compareExchange_eq (Option.some.inj hanswer) with
        ⟨rfl, hword, hs'⟩ | ⟨rfl, hs', -⟩
      · have hevent : s.exchangeEvent (encode (epochOf current) .idle) = .released := by
          unfold Service.exchangeEvent
          rw [stateOf_encode]
        rw [hevent, ← hword] at hs'
        have hdone : Q s' := by
          rw [hs'] at hcalm ⊢
          exact hrelease s hs (hword ▸ hheld) hcalm
        exact ⟨hQ.here s' hdone, hdone⟩
      · rw [hs']
        exact ih hs (hread s hs)
    · have hdone := hcurrent (Bool.not_eq_true _ ▸ hheld)
      exact ⟨hQ.here s hdone, hdone⟩

theorem ensures_load_release {held : State → Bool} (hP : Steady calm P) (hQ : Steady calm Q)
    (hread : ∀ s, P s → held (stateOf s.word) = false → Q s)
    (hrelease : ∀ s, P s → held (stateOf s.word) = true → (calm → Calm (released s)) →
      Q (released s)) {fuel : ℕ} {s : Service} (hs : P s) :
    Ensures calm (ask .load >>= release held fuel) (fun _ => Q) s := by
  refine ensures_ask hP.stable hP.here hs ?_
  intro s choice current s' hs hanswer _
  obtain ⟨rfl, rfl⟩ := Prod.mk.inj (Option.some.inj hanswer)
  exact ensures_release hP hQ hread hrelease hs (hread _ hs)

theorem plain_released (s : Service) : Plain calm .released s (released s) where
  plain := rfl
  allowed := trivial
  history := rfl
  epoch := epochOf_encode (epochOf_le s.word) .idle
  number := rfl
  command := rfl
  pending _ h := h
  active hactive := by
    have hidle : stateOf (released s).word = .idle := stateOf_encode _ _
    rw [hidle] at hactive
    cases hactive

theorem released_idle (s : Service) : stateOf (released s).word = .idle := stateOf_encode _ _

theorem held_released {seen' : Prop} (h : Core calm seen s) (hcalm : calm → Calm (released s)) :
    Held calm seen' (released s) ∧ Inactive (released s) := by
  have hidle := released_idle s
  have hinactive : Inactive (released s) := by
    unfold Inactive
    rw [hidle]
    nofun
  have hcommitting : stateOf (released s).word ≠ .committing := by
    rw [hidle]
    nofun
  have hcore : Core calm seen' (released s) := by
    refine (plain_released s).core h hcalm fun _ => reopened_of_ne ?_
    rw [hidle]
    nofun
  exact ⟨hcore.held hinactive hcommitting, hinactive⟩

variable {fuel : ℕ}

theorem endTransaction_spec (hs : Core calm seen s) (hcommitting : stateOf s.word ≠ .committing) :
    Ensures calm (endTransaction fuel) (fun _ s => Held calm seen s ∧ Inactive s) s := by
  refine ensures_load_release (steady_core.and keeps_notCommitting) (steady_held.and keeps_inactive)
    ?_ ?_ ⟨hs, hcommitting⟩
  · intro s hs hnot
    have hinactive : Inactive s := beq_eq_false_iff_ne.mp hnot
    exact ⟨hs.1.held hinactive hs.2, hinactive⟩
  · intro s hs _ hcalm
    exact held_released hs.1 hcalm

theorem finishCommit_spec (hs : Core calm seen s) (hinactive : Inactive s) :
    Ensures calm (finishCommit fuel) (fun _ s => Held calm seen s ∧ Inactive s) s := by
  refine ensures_load_release (steady_core.and keeps_inactive) (steady_held.and keeps_inactive)
    ?_ ?_ ⟨hs, hinactive⟩
  · intro s hs hnot
    exact ⟨hs.1.held hs.2 (beq_eq_false_iff_ne.mp hnot), hs.2⟩
  · intro s hs _ hcalm
    exact held_released hs.1 hcalm

theorem finishAbort_spec (hs : Core calm seen s) :
    Ensures calm (finishAbort fuel) (fun _ s => Held calm True s ∧ Inactive s) s := by
  refine ensures_load_release steady_core (steady_held.and keeps_inactive) ?_ ?_ hs
  · intro s hs hnot
    have hidle : stateOf s.word = .idle := by
      rw [bne_eq_false_iff_eq] at hnot
      exact hnot
    have hcore : Core calm True s := by
      refine ⟨hs.here, fun _ => reopened_of_ne ?_, hs.last, hs.kept⟩
      rw [hidle]
      nofun
    have hinactive : Inactive s := by
      unfold Inactive
      rw [hidle]
      nofun
    refine ⟨hcore.held hinactive ?_, hinactive⟩
    rw [hidle]
    nofun
  · intro s hs _ hcalm
    exact held_released hs hcalm

/-! ### Selecting the boot partition -/

/-- A commit is under way, for the current transaction. -/
def Committing (s : Service) : Prop :=
  stateOf s.word = .committing ∧ .committing s.number ∈ s.history

theorem keeps_committing : Keeps Committing where
  effect s t h heffect := by
    refine ⟨stable_committing h.1 heffect, ?_⟩
    rcases heffect with ⟨-, hhistory, htransaction, -⟩ | ⟨-, hhistory, htransaction, -⟩
    · rw [hhistory, number_eq htransaction]
      exact h.2
    · rw [hhistory, number_eq htransaction]
      exact List.mem_cons_of_mem _ h.2
  quiet s t h hquiet := by
    unfold Committing
    rw [hquiet.word, hquiet.history, number_eq hquiet.transaction]
    exact h

theorem tryBeginCommit_spec (hs : Held calm seen s) :
    Ensures calm tryBeginCommit
      (fun r s => if r then Core calm seen s ∧ Committing s else Held calm seen s) s := by
  refine ensures_ask steady_held.stable steady_held.here hs ?_
  intro s choice current s' hs hanswer _
  obtain ⟨rfl, rfl⟩ := Prod.mk.inj (Option.some.inj hanswer)
  split_ifs with hactive
  · exact ⟨hs.here, hs⟩
  rw [not_not] at hactive
  refine ensures_ask steady_held.stable steady_held.here hs ?_
  intro t choice found t' ht hanswer hcalm
  rcases compareExchange_eq (Option.some.inj hanswer) with ⟨rfl, hword, ht'⟩ | ⟨rfl, rfl, -⟩
  · rw [← hword] at hactive ht'
    have hevent : t.exchangeEvent (encode (epochOf t.word) .committing) = .committing t.number := by
      unfold Service.exchangeEvent
      rw [stateOf_encode]
    have hstate : stateOf t'.word = .committing := by
      rw [ht']
      exact stateOf_encode _ _
    rw [hevent] at ht'
    have hplain : Plain calm (.committing t.number) t t' := by
      obtain ⟨stamp, hopened⟩ := ht.here.1.opened hactive
      refine ⟨rfl, ⟨_, stamp, (ht.attached hactive).1, hopened⟩, by rw [ht'], ?_, by rw [ht']; rfl,
        by rw [ht'], ?_, ?_⟩
      · rw [ht']
        exact epochOf_encode (epochOf_le t.word) _
      · rw [ht']
        exact fun _ h => h
      · rw [hstate]
        nofun
    have hcore : Core calm seen t' := by
      refine hplain.core ht.toCore hcalm fun _ => reopened_of_ne ?_
      rw [hstate]
      nofun
    refine ⟨hcore.here, hcore, hstate, ?_⟩
    rw [ht']
    exact List.mem_cons_self
  · exact ⟨ht.here, ht⟩

theorem flashSelectBoot_spec (hs : Held calm seen s) :
    Ensures calm (flashSelectBoot fuel) (fun _ => Held calm seen) s := by
  have hcommitting : Steady calm fun s => Core calm seen s ∧ Committing s :=
    steady_core.and keeps_committing
  refine ensures_seq (tryBeginCommit_spec hs) ?_
  intro committing s hs
  cases committing with
  | false => exact ⟨hs.here, hs⟩
  | true =>
    rw [if_pos rfl] at hs
    -- The partition is selected or not, and the commit is finished.
    have hfinish : ∀ (selected : Bool) s, Core calm seen s ∧ Committing s →
        Ensures calm (finishCommit fuel >>= fun _ => pure selected) (fun _ => Held calm seen) s := by
      intro selected s hs
      have hinactive : Inactive s := by
        unfold Inactive
        rw [hs.2.1]
        nofun
      refine ensures_seq (finishCommit_spec hs.1 hinactive) ?_
      intro _ s hs
      exact ⟨hs.1.here, hs.1⟩
    refine ensures_quiet .updatePartition hcommitting rfl hs ?_
    intro partition s hs
    cases partition with
    | false => exact hfinish false s hs
    | true =>
      refine ensures_ask hcommitting.stable hcommitting.here hs ?_
      intro s choice selected s' hs hanswer hcalm
      obtain ⟨-, rfl⟩ := Prod.mk.inj (Option.some.inj hanswer)
      refine hfinish selected _ ?_
      have hplain : Plain calm (.selected s.number) s
          { s with history := .selected s.number :: s.history } :=
        ⟨rfl, hs.2.2, rfl, rfl, rfl, rfl, fun _ h => h, fun h => ⟨h, rfl⟩⟩
      exact ⟨hplain.core hs.1 hcalm hs.1.reopened, hs.2.1, List.mem_cons_of_mem _ hs.2.2⟩

/-! ### The transaction -/

theorem adapter_spec (call : OtaTransaction.Call) {s : Service} (hs : Held calm seen s) :
    Ensures calm (adapter fuel call) (fun _ => Held calm seen) s := by
  cases call with
  | selectBoot => exact flashSelectBoot_spec hs
  | verifyManifest manifest => exact ensures_quiet_last steady_held rfl hs
  | hashBegin => exact ensures_quiet_last steady_held rfl hs
  | hashUpdate data => exact ensures_quiet_last steady_held rfl hs
  | hashFinish => exact ensures_quiet_last steady_held rfl hs
  | hashAbort => exact ensures_quiet_last steady_held rfl hs
  | flashBegin size => exact ensures_quiet_last steady_held rfl hs
  | flashWrite data => exact ensures_quiet_last steady_held rfl hs
  | flashFinish => exact ensures_quiet_last steady_held rfl hs
  | flashAbort => exact ensures_quiet_last steady_held rfl hs

/-- The service after a call of the interface of the transaction. -/
def updated (s : Service) (value : Transaction) : Service :=
  { s with transaction := s.transaction.map fun object => { object with value } }

theorem number_updated (s : Service) (value : Transaction) :
    (updated s value).number = s.number := by
  unfold updated Service.number
  cases s.transaction with
  | none => rfl
  | some object => rfl

theorem held_updated (value : Transaction) (h : Held calm seen s)
    (hcalm : calm → Calm (updated s value)) : Held calm seen (updated s value) where
  here := ⟨h.here.1.of_same rfl rfl (number_updated s value) h.here.1.command h.here.1.pending, hcalm⟩
  reopened := h.reopened
  last := by
    unfold Last
    rw [number_updated]
    exact h.last
  kept := by
    unfold Kept
    rw [number_updated]
    exact h.kept
  notCommitting := h.notCommitting
  attached := by
    unfold AttachedIfActive Attached
    rw [number_updated]
    exact h.attached

/-- What is in memory after a call of the interface of the transaction. -/
def Holds (Q : Transaction → Prop) (s : Service) : Prop :=
  ∀ object, s.transaction = some object → Q object.value

theorem keeps_holds {Q : Transaction → Prop} : Keeps (Holds Q) where
  effect s t h heffect object hobject := by
    refine h object ?_
    rcases heffect with ⟨-, -, htransaction, -⟩ | ⟨-, -, htransaction, -⟩
    · exact htransaction ▸ hobject
    · exact htransaction ▸ hobject
  quiet s t h hquiet object hobject := h object (hquiet.transaction ▸ hobject)

theorem fail_result {Q : OtaTransaction.Result × Transaction → Prop} (t : Transaction)
    {result : OtaTransaction.Result} (h : ∀ t, Q (result, t)) :
    (OtaTransaction.fail t result).Returns Q :=
  Program.returns_bind (Program.returns_of_forall (fun _ => trivial) _) fun _ _ =>
    Program.returns_pure (h _)

theorem offer_result (t : Transaction) (manifest : OtaTransaction.Manifest) (nowMs : UInt64) :
    (OtaTransaction.offer t manifest nowMs).Returns fun a =>
      a.1 = .ok → a.2.snapshot.state = .receiving := by
  unfold OtaTransaction.offer
  split
  · exact Program.returns_pure nofun
  split
  · exact fail_result t fun _ => nofun
  split
  · exact fail_result t fun _ => nofun
  split
  · exact fail_result t fun _ => nofun
  split
  · exact fail_result t fun _ => nofun
  split
  · exact fail_result t fun _ => nofun
  refine Program.returns_perform fun verified => ?_
  split
  · exact fail_result t fun _ => nofun
  refine Program.returns_perform fun hashBegun => ?_
  split
  · exact fail_result t fun _ => nofun
  refine Program.returns_perform fun flashBegun => ?_
  split
  · exact fail_result _ fun _ => nofun
  · exact Program.returns_pure fun _ => rfl

theorem write_result (t : Transaction) (offset : UInt32) (data : List UInt8) (final : Bool)
    (nowMs : UInt64) :
    (OtaTransaction.write t offset data final nowMs).Returns fun a =>
      ¬ (a.1 ≠ .ok ∨ final = true) → a.2.snapshot.state = .receiving := by
  have hfails : ∀ t result, result ≠ .ok → (OtaTransaction.fail t result).Returns fun a =>
      ¬ (a.1 ≠ .ok ∨ final = true) → a.2.snapshot.state = .receiving :=
    fun t result hne => fail_result t fun _ hno => absurd (.inl hne) hno
  unfold OtaTransaction.write
  split
  · exact Program.returns_pure fun hno => absurd (.inl nofun) hno
  next hguard =>
  have hreceiving : t.snapshot.state = .receiving := by
    simp only [Bool.or_eq_true, decide_eq_true_eq, not_or, not_not] at hguard
    exact hguard.2
  dsimp only
  split
  · exact hfails _ _ nofun
  split
  · exact hfails _ _ nofun
  refine Program.returns_perform fun hashed => ?_
  split
  · exact hfails _ _ nofun
  refine Program.returns_perform fun written => ?_
  split
  · exact hfails _ _ nofun
  cases final with
  | false => exact Program.returns_pure fun _ => hreceiving
  | true => exact Program.returns_of_forall (fun _ hno => absurd (.inr rfl) hno) _

theorem tick_result {t : Transaction} (h : t.snapshot.state = .receiving) (nowMs : UInt64) :
    (OtaTransaction.tick t nowMs).Returns fun a =>
      a.1 ≠ .timedOut → a.2.snapshot.state = .receiving := by
  unfold OtaTransaction.tick
  split
  · exact fail_result t fun _ hno => absurd rfl hno
  · exact Program.returns_pure fun _ => h

theorem transact_spec {call : OtaTransaction.Ota (α × Transaction)} (Q : α → Transaction → Prop)
    (hresult : call.Returns fun a => Q a.1 a.2) {s : Service} (hs : Held calm seen s) :
    Ensures calm (transact fuel call) (fun r s => Held calm seen s ∧ Holds (Q r) s) s := by
  unfold transact
  refine ensures_seq (Program.wp_interpret (fun call s hs => adapter_spec call hs)
    (fun s h => h.here) hresult hs) ?_
  rintro ⟨result, value⟩ s ⟨hs, hvalue⟩
  refine ensures_ask steady_held.stable steady_held.here hs ?_
  intro s choice r s' hs hanswer hcalm
  obtain ⟨-, rfl⟩ := Prod.mk.inj (Option.some.inj hanswer)
  have hheld := held_updated value hs hcalm
  refine ⟨hheld.here, hheld, ?_⟩
  intro object hobject
  obtain ⟨before, -, rfl⟩ := Option.map_eq_some_iff.mp hobject
  exact hvalue

theorem closeTransaction_spec (hP : Steady calm P) {fuel : ℕ} {value : Transaction} {s : Service}
    (hs : P s) :
    Ensures calm (closeTransaction fuel value) (fun _ => P) s := by
  unfold closeTransaction OtaTransaction.destroy OtaTransaction.closeOpenResources
  cases value.flashOpen with
  | false =>
    cases value.hashOpen with
    | false => exact ⟨hP.here s hs, hs⟩
    | true =>
      refine ensures_quiet (.adapter .hashAbort) hP rfl hs ?_
      exact fun _ s hs => ⟨hP.here s hs, hs⟩
  | true =>
    refine ensures_quiet (.adapter .flashAbort) hP rfl hs ?_
    intro _ s hs
    cases value.hashOpen with
    | false => exact ⟨hP.here s hs, hs⟩
    | true =>
      refine ensures_quiet (.adapter .hashAbort) hP rfl hs ?_
      exact fun _ s hs => ⟨hP.here s hs, hs⟩

/-! ### Results -/

theorem publishRejection_spec (hP : Steady calm P) {id : List UInt8}
    {result : OtaTransaction.Result} {s : Service} (hs : P s) :
    Ensures calm (publishRejection id result) (fun _ => P) s := by
  refine ensures_quiet .loadAbortRequested hP rfl hs ?_
  intro requested s hs
  cases requested with
  | true => exact ⟨hP.here s hs, hs⟩
  | false => exact ensures_quiet_last hP rfl hs

theorem publishResult_spec (hP : Steady calm P) {id : List UInt8} {result : OtaTransaction.Result}
    {s : Service} (hs : P s) :
    Ensures calm (publishResult id result) (fun _ => P) s := by
  refine ensures_quiet .loadAbortRequested hP rfl hs ?_
  intro requested s hs
  cases requested with
  | true => exact ⟨hP.here s hs, hs⟩
  | false =>
    refine ensures_quiet .transaction hP rfl hs ?_
    intro value s hs
    exact ensures_quiet_last hP rfl hs

theorem drainResults_spec (hP : Steady calm P) {fuel : ℕ} {s : Service} (hs : P s) :
    Ensures calm (drainResults fuel) (fun _ => P) s := by
  induction fuel generalizing s with
  | zero => exact ⟨hP.here s hs, fun r => r.elim⟩
  | succ fuel ih =>
    refine ensures_quiet .receiveResult hP rfl hs ?_
    intro more s hs
    cases more with
    | true => exact ih hs
    | false => exact ⟨hP.here s hs, hs⟩

/-! ### Between two commands -/

/-- A transaction that the fence is active for is receiving. -/
def ReceivingIfActive (s : Service) : Prop :=
  stateOf s.word = .active → Holds (·.snapshot.state = .receiving) s

theorem keeps_receivingIfActive : Keeps ReceivingIfActive where
  effect s t h heffect hactive := by
    have hbefore : stateOf s.word = .active := by
      by_contra hno
      exact stable_notActive hno heffect hactive
    exact keeps_holds.effect s t (h hbefore) heffect
  quiet s t h hquiet hactive := keeps_holds.quiet s t (h (hquiet.word ▸ hactive)) hquiet

/-- What holds between two commands. -/
def Settled (calm : Prop) (s : Service) : Prop := Held calm True s ∧ ReceivingIfActive s

theorem steady_settled : Steady calm (Settled calm) := steady_held.and keeps_receivingIfActive

theorem settled_of_inactive (hs : Held calm True s) (hinactive : Inactive s) :
    Settled calm s :=
  ⟨hs, fun hactive => absurd hactive hinactive⟩

theorem closeActive_spec (hs : Core calm True s) (hcommitting : stateOf s.word ≠ .committing) :
    Ensures calm (closeActive fuel) (fun _ => Settled calm) s := by
  refine ensures_seq (endTransaction_spec hs hcommitting) ?_
  intro _ s hs
  exact ensures_quiet_last steady_settled rfl (settled_of_inactive hs.1 hs.2)

/-! ### Aborts -/

theorem keeps_number (number : Option ℕ) : Keeps fun s => s.number = number where
  effect s t h heffect := by
    rcases heffect with ⟨-, -, htransaction, -⟩ | ⟨-, -, htransaction, -⟩
    · exact (number_eq htransaction).trans h
    · exact (number_eq htransaction).trans h
  quiet s t h hquiet := (number_eq hquiet.transaction).trans h

theorem core_destroyAndClear {number : ℕ} (h : Held calm False s) (hnumber : s.number = some number)
    {t : Service}
    (ht : t = { s with transaction := none, history := .destroyed number :: s.history })
    (hcalm : calm → Calm t) : Core calm False t ∧ t.number = none := by
  have hnone : t.number = none := by
    rw [ht]
    rfl
  refine ⟨⟨⟨?_, hcalm⟩, nofun, ?_, ?_⟩, hnone⟩
  · refine h.here.1.destroy hnumber (fun hcalm => h.kept hcalm number hnumber) (by rw [ht])
      (by rw [ht]) (by rw [hnone]; nofun) (by rw [ht]) (by rw [ht]; exact fun _ h => h) ?_
    intro hactive
    refine .inr (.inr ⟨hnone, ?_⟩)
    have hlast := h.last number hnumber
    rw [ht]
    dsimp only
    rw [begins_of_not rfl, ← hlast]
    exact List.mem_cons_self
  · intro n hn
    rw [hnone] at hn
    cases hn
  · intro _ n hn
    rw [hnone] at hn
    cases hn

/-- **An abort is handled**: no transaction is left, and the fence is open again, or the next abort
will be seen. -/
theorem abortTransportTransaction_spec (hs : Held calm False s) :
    Ensures calm (abortTransportTransaction fuel) (fun _ => Settled calm) s := by
  have hcore : Steady calm fun s => Core calm False s ∧ s.number = none :=
    steady_core.and (keeps_number none)
  have hrest : ∀ s, Core calm False s ∧ s.number = none →
      Ensures calm (do
        ask (.setActiveTransactionId [])
        drainResults fuel
        finishAbort fuel
        ask .setAbortComplete) (fun _ => Settled calm) s := by
    intro s hs
    refine ensures_quiet (.setActiveTransactionId []) hcore rfl hs ?_
    intro _ s hs
    refine ensures_seq (drainResults_spec hcore hs) ?_
    intro _ s hs
    refine ensures_seq (finishAbort_spec hs.1) ?_
    intro _ s hs
    exact ensures_quiet_last steady_settled rfl (settled_of_inactive hs.1 hs.2)
  unfold abortTransportTransaction
  refine ensures_ask steady_held.stable steady_held.here hs ?_
  intro s choice found s' hs hanswer _
  obtain ⟨rfl, rfl⟩ := Prod.mk.inj (Option.some.inj hanswer)
  cases htransaction : s.transaction with
  | none =>
    have hnone : s.number = none := by
      unfold Service.number
      rw [htransaction]
      rfl
    exact hrest s ⟨hs.toCore, hnone⟩
  | some object =>
    have hnumber : s.number = some object.number := by
      unfold Service.number
      rw [htransaction]
      rfl
    have hsteady : Steady calm fun s => Held calm False s ∧ s.number = some object.number :=
      steady_held.and (keeps_number _)
    refine ensures_seq (closeTransaction_spec hsteady ⟨hs, hnumber⟩) ?_
    intro _ s hs
    refine ensures_ask hsteady.stable hsteady.here hs ?_
    intro s choice r s' hs hanswer hcalm
    obtain ⟨-, hs'⟩ := Prod.mk.inj (Option.some.inj hanswer)
    rw [hs.2] at hs'
    exact hrest s' (core_destroyAndClear hs.1 hs.2 hs'.symm hcalm)

/-! ### Ticks and chunks -/

theorem settled_of_holds (hs : Held calm True s)
    (h : Holds (·.snapshot.state = .receiving) s) : Settled calm s :=
  ⟨hs, fun _ => h⟩

theorem tickTransaction_spec (hs : Settled calm s) :
    Ensures calm (tickTransaction fuel) (fun _ => Settled calm) s := by
  refine ensures_quiet .transaction steady_settled rfl hs ?_
  intro found s hs
  cases found with
  | none => exact ⟨hs.1.here, hs⟩
  | some value =>
    dsimp only
    split_ifs with hreceiving
    · refine ensures_quiet .now steady_settled rfl hs ?_
      intro nowMs s hs
      refine ensures_seq (transact_spec
        (fun result value => result ≠ .timedOut → value.snapshot.state = .receiving)
        (tick_result hreceiving nowMs) hs.1) ?_
      intro result s hs
      split_ifs with htimeout
      · refine ensures_quiet .activeTransactionId steady_held rfl hs.1 ?_
        intro id s hs
        refine ensures_seq (publishResult_spec steady_held hs) ?_
        intro _ s hs
        exact closeActive_spec hs.toCore hs.notCommitting
      · have hholds : Holds (·.snapshot.state = .receiving) s :=
          fun object hobject => hs.2 object hobject htimeout
        have hsettled := settled_of_holds hs.1 hholds
        exact ⟨hsettled.1.here, hsettled⟩
    · exact ⟨hs.1.here, hs⟩

variable {id : List UInt8}

theorem chunk_spec {offset : UInt32} {data : List UInt8} {final : Bool} (hs : Settled calm s) :
    Ensures calm (chunk fuel id offset data final) (fun _ => Settled calm) s := by
  refine ensures_quiet .transaction steady_settled rfl hs ?_
  intro found s hs
  cases found with
  | none => exact publishRejection_spec steady_settled hs
  | some value =>
    refine ensures_quiet .activeTransactionId steady_settled rfl hs ?_
    intro active s hs
    split_ifs with hother
    · exact publishRejection_spec steady_settled hs
    · refine ensures_quiet .now steady_settled rfl hs ?_
      intro nowMs s hs
      refine ensures_seq (transact_spec
        (fun result value => ¬ (result ≠ .ok ∨ final = true) → value.snapshot.state = .receiving)
        (write_result value offset data final nowMs) hs.1) ?_
      intro result s hs
      refine ensures_seq (publishResult_spec (steady_held.and keeps_holds) hs) ?_
      intro _ s hs
      split_ifs with hclosed
      · exact closeActive_spec hs.1.toCore hs.1.notCommitting
      · have hsettled := settled_of_holds hs.1 fun object hobject => hs.2 object hobject hclosed
        exact ⟨hsettled.1.here, hsettled⟩

/-! ### Offers -/

theorem keeps_command (command : Option Command) : Keeps fun s => s.command = command where
  effect s t h heffect := by
    rcases heffect with ⟨-, -, -, hcommand, -⟩ | ⟨-, -, -, hcommand, -⟩
    · exact hcommand.trans h
    · exact hcommand.trans h
  quiet s t h hquiet := hquiet.command.trans h

/-- No transaction, or the one that the offer has destroyed. -/
def Replaced (s : Service) : Prop :=
  s.number = none ∨ s.number = some (begins s.history) ∧ ¬ Live s.history (begins s.history)

theorem keeps_replaced (calm : Prop) : Keeps fun s => calm → Replaced s where
  effect s t h heffect hcalm := by
    have hbefore := h hcalm
    unfold Replaced at hbefore ⊢
    rcases heffect with ⟨-, hhistory, htransaction, -⟩ | ⟨-, hhistory, htransaction, -⟩
    · rw [hhistory, number_eq htransaction]
      exact hbefore
    · rw [hhistory, number_eq htransaction, begins_aborted, live_aborted]
      exact hbefore
  quiet s t h hquiet hcalm := by
    have hbefore := h hcalm
    unfold Replaced at hbefore ⊢
    rw [hquiet.history, number_eq hquiet.transaction]
    exact hbefore

/-- What holds before `begin_transaction`. -/
structure Vacant (calm : Prop) (command : Command) (s : Service) : Prop where
  here : Here calm s
  reopened : Reopened s
  last : Last s
  notCommitting : stateOf s.word ≠ .committing
  inactive : Inactive s
  command : s.command = some command
  replaced : calm → Replaced s

variable {command : Command}

theorem steady_vacant : Steady calm (Vacant calm command) := by
  have hsteady := (((((steady_here calm).and (keeps_reopened True)).and
    keeps_last).and keeps_notCommitting).and keeps_inactive).and
      (keeps_command (some command)) |>.and (keeps_replaced calm)
  refine hsteady.congr fun s => ⟨?_, ?_⟩
  · rintro ⟨⟨⟨⟨⟨⟨hhere, hreopened⟩, hlast⟩, hcommitting⟩, hinactive⟩, hcommand⟩, hreplaced⟩
    exact ⟨hhere, hreopened trivial, hlast, hcommitting, hinactive, hcommand, hreplaced⟩
  · rintro ⟨hhere, hreopened, hlast, hcommitting, hinactive, hcommand, hreplaced⟩
    exact ⟨⟨⟨⟨⟨⟨hhere, fun _ => hreopened⟩, hlast⟩, hcommitting⟩, hinactive⟩, hcommand⟩,
      hreplaced⟩

variable {manifest : OtaTransaction.Manifest} {stamp : Stamp}

theorem Vacant.ready (h : Vacant calm (.offer id manifest stamp) s) (hcalm : calm) :
    s.number = none ∨ epochOf s.word = stamp.epoch ∧ stateOf s.word = .idle := by
  rcases h.replaced hcalm with hnone | ⟨hnumber, hlive⟩
  · exact .inl hnone
  · obtain ⟨hepoch, haborting⟩ := h.here.2 hcalm id manifest stamp h.command hnumber hlive
    have hactive := h.inactive
    have hcommitting := h.notCommitting
    unfold Inactive at hactive
    refine .inr ⟨hepoch, ?_⟩
    cases hstate : stateOf s.word with
    | idle => rfl
    | active => exact absurd hstate hactive
    | committing => exact absurd hstate hcommitting
    | aborting => exact absurd hstate haborting

theorem Vacant.settled (h : Vacant calm command s) (hnone : calm → s.number = none) :
    Settled calm s := by
  have hcore : Core calm True s := by
    refine ⟨h.here, fun _ => h.reopened, h.last, ?_⟩
    intro hcalm number hnumber
    rw [hnone hcalm] at hnumber
    cases hnumber
  exact settled_of_inactive (hcore.held h.inactive h.notCommitting) h.inactive

/-- The transaction that was begun last is not created yet. -/
def Uncreated (s : Service) : Prop :=
  .created (begins s.history) ∉ s.history ∧ .destroyed (begins s.history) ∉ s.history

theorem keeps_uncreated : Keeps Uncreated where
  effect s t h heffect := by
    unfold Uncreated at h ⊢
    rcases heffect with ⟨-, hhistory, -⟩ | ⟨-, hhistory, -⟩
    · rw [hhistory]
      exact h
    · simp only [hhistory, begins_aborted, List.mem_cons, reduceCtorEq, false_or]
      exact h
  quiet s t h hquiet := by
    unfold Uncreated
    rw [hquiet.history]
    exact h

/-- What holds after `begin_transaction`. -/
structure Begun (calm : Prop) (s : Service) : Prop where
  here : Here calm s
  reopened : Reopened s
  notCommitting : stateOf s.word ≠ .committing
  uncreated : Uncreated s

theorem steady_begun : Steady calm (Begun calm) := by
  have hsteady := (((steady_here calm).and (keeps_reopened True)).and
    keeps_notCommitting).and keeps_uncreated
  refine hsteady.congr fun s => ⟨?_, ?_⟩
  · rintro ⟨⟨⟨hhere, hreopened⟩, hcommitting⟩, huncreated⟩
    exact ⟨hhere, hreopened trivial, hcommitting, huncreated⟩
  · rintro ⟨hhere, hreopened, hcommitting, huncreated⟩
    exact ⟨⟨⟨hhere, fun _ => hreopened⟩, hcommitting⟩, huncreated⟩

theorem beginTransaction_spec (hs : Vacant calm (.offer id manifest stamp) s) :
    Ensures calm (beginTransaction stamp.epoch)
      (fun r s => if r then Begun calm s else Settled calm s) s := by
  refine ensures_ask steady_vacant.stable steady_vacant.here hs ?_
  intro s choice current s' hs hanswer _
  obtain ⟨rfl, rfl⟩ := Prod.mk.inj (Option.some.inj hanswer)
  split_ifs with hrefused
  · refine ⟨hs.here, hs.settled fun hcalm => ?_⟩
    rcases hs.ready hcalm with hnone | ⟨hepoch, hidle⟩
    · exact hnone
    · rcases hrefused with hother | hother
      · exact absurd hepoch hother
      · exact absurd hidle hother
  rw [not_or, not_not, not_not] at hrefused
  obtain ⟨hepoch, hidle⟩ := hrefused
  refine ensures_ask steady_vacant.stable steady_vacant.here hs ?_
  intro t choice found t' ht hanswer hcalm
  rcases compareExchange_eq (Option.some.inj hanswer) with
    ⟨rfl, hword, ht'⟩ | ⟨rfl, rfl, hword⟩
  · have hevent : t.exchangeEvent (encode stamp.epoch .active) =
        .begun (begins t.history + 1) (some stamp) := by
      unfold Service.exchangeEvent
      rw [stateOf_encode, ht.command]
      rfl
    rw [hevent] at ht'
    obtain ⟨hinv, hcreated, hdestroyed⟩ := ht.here.1.begin
      (ht.here.1.command _ stamp ht.command rfl) (hword ▸ hepoch)
    have hactive : stateOf t'.word = .active := by
      rw [ht']
      exact stateOf_encode _ _
    have hbegun : Begun calm t' := by
      refine ⟨⟨by rw [ht']; exact hinv, hcalm⟩, reopened_of_ne ?_, ?_, ?_⟩
      · rw [hactive]
        nofun
      · rw [hactive]
        nofun
      · rw [ht']
        exact ⟨hcreated, hdestroyed⟩
    exact ⟨hbegun.here, hbegun⟩
  · refine ⟨ht.here, ht.settled fun hcalm => ?_⟩
    rcases ht.ready hcalm with hnone | ⟨hepoch', hidle'⟩
    · exact hnone
    · exact absurd (word_ext (hepoch'.trans hepoch.symm) (hidle'.trans hidle.symm)) (hword rfl)

theorem offerNew_spec (hs : Vacant calm (.offer id manifest stamp) s) :
    Ensures calm (offerNew fuel id manifest stamp) (fun _ => Settled calm) s := by
  refine ensures_seq (beginTransaction_spec hs) ?_
  intro begun s hs
  cases begun with
  | false => exact ⟨hs.1.here, hs⟩
  | true =>
    rw [if_pos rfl] at hs
    refine ensures_ask steady_begun.stable steady_begun.here hs ?_
    intro s choice created s' hs hanswer hcalm
    unfold Service.answer at hanswer
    dsimp only at hanswer
    split at hanswer
    · -- No transaction is created, and the fence is released.
      obtain ⟨rfl, rfl⟩ := Prod.mk.inj (Option.some.inj hanswer)
      have hcore : Core calm True { s with transaction := none } :=
        ⟨⟨hs.here.1.clear hs.uncreated.1 rfl rfl rfl rfl fun _ h => h, hcalm⟩,
          fun _ => hs.reopened, nofun, fun _ => nofun⟩
      have hsteady := (steady_core : Steady calm (Core calm True)).and keeps_notCommitting
      refine ensures_quiet (.setActiveTransactionId id) hsteady rfl ⟨hcore, hs.notCommitting⟩ ?_
      intro _ s hs
      have hfailed : Ensures calm (publishResult id .flashFailure >>= fun _ => closeActive fuel)
          (fun _ => Settled calm) s := by
        refine ensures_seq (publishResult_spec hsteady hs) ?_
        exact fun _ s hs => closeActive_spec hs.1 hs.2
      exact hfailed
    next value hvalue =>
    obtain ⟨rfl, rfl⟩ := Prod.mk.inj (Option.some.inj hanswer)
    obtain ⟨hinv, hattached⟩ := hs.here.1.create hs.uncreated.1 hs.uncreated.2
      (t := { s with
        transaction := some ⟨begins s.history, value⟩
        history := .created (begins s.history) :: s.history }) rfl rfl rfl rfl fun _ h => h
    have hheld : Held calm True { s with
        transaction := some ⟨begins s.history, value⟩
        history := .created (begins s.history) :: s.history } := by
      refine ⟨⟨⟨hinv, hcalm⟩, fun _ => hs.reopened, ?_, ?_⟩, hs.notCommitting, fun _ => hattached⟩
      · intro number hnumber
        exact Option.some.inj (hnumber.symm.trans hattached.1)
      · intro _ number hnumber
        rw [Option.some.inj (hnumber.symm.trans hattached.1)]
        exact hattached.2
    refine ensures_quiet (.setActiveTransactionId id) steady_held rfl hheld ?_
    intro _ s hs
    refine ensures_quiet .now steady_held rfl hs ?_
    intro nowMs s hs
    refine ensures_seq (transact_spec
      (fun result value => result = .ok → value.snapshot.state = .receiving)
      (offer_result value manifest nowMs) hs) ?_
    intro result s hs
    refine ensures_seq (publishResult_spec (steady_held.and keeps_holds) hs) ?_
    intro _ s hs
    split_ifs with hresult
    · exact closeActive_spec hs.1.toCore hs.1.notCommitting
    · have hsettled := settled_of_holds hs.1 fun object hobject =>
        hs.2 object hobject (not_not.mp hresult)
      exact ⟨hsettled.1.here, hsettled⟩

theorem inactive_of_value (hs : Settled calm s) {choice : Choice} {value : Transaction}
    (hvalue : s.transaction.map (s.value choice) = some value)
    (h : value.snapshot.state ≠ .receiving) : Inactive s := by
  intro hactive
  obtain ⟨object, hobject, rfl⟩ := Option.map_eq_some_iff.mp hvalue
  obtain ⟨hnumber, hlive⟩ := hs.1.attached hactive
  have hlast : object.number = begins s.history := by
    unfold Service.number at hnumber
    rw [hobject] at hnumber
    exact Option.some.inj hnumber
  refine h ?_
  unfold Service.value
  rw [hlast, if_pos hlive]
  exact hs.2 hactive object hobject

theorem offer_spec (hs : Settled calm s) (hcommand : s.command = some (.offer id manifest stamp)) :
    Ensures calm (offer fuel id manifest stamp) (fun _ => Settled calm) s := by
  have hsteady := (steady_settled : Steady calm (Settled calm)).and
    (keeps_command (some (.offer id manifest stamp)))
  refine ensures_ask hsteady.stable hsteady.here ⟨hs, hcommand⟩ ?_
  intro s choice found s' hs hanswer _
  obtain ⟨hfound, rfl⟩ := Prod.mk.inj (Option.some.inj hanswer)
  cases found with
  | none =>
    have hnone : s.number = none := by
      unfold Service.number
      rw [Option.map_eq_none_iff.mp hfound]
      rfl
    have hinactive : Inactive s := by
      intro hactive
      have hsome := (hs.1.1.attached hactive).1
      rw [hnone] at hsome
      cases hsome
    exact offerNew_spec ⟨hs.1.1.here, hs.1.1.reopened trivial, hs.1.1.last, hs.1.1.notCommitting,
      hinactive, hs.2, fun _ => .inl hnone⟩
  | some value =>
    dsimp only
    split_ifs with hreceiving
    · exact publishRejection_spec steady_settled hs.1
    have hinactive := inactive_of_value hs.1 hfound hreceiving
    obtain ⟨object, hobject, -⟩ := Option.map_eq_some_iff.mp hfound
    have hnumber : s.number = some object.number := by
      unfold Service.number
      rw [hobject]
      rfl
    have hclosing := ((steady_held : Steady calm (Held calm True)).and keeps_inactive).and
      (keeps_command (some (.offer id manifest stamp))) |>.and
        (keeps_number (some object.number))
    refine ensures_seq (closeTransaction_spec hclosing ⟨⟨⟨hs.1.1, hinactive⟩, hs.2⟩, hnumber⟩) ?_
    intro _ s hs
    refine ensures_ask hclosing.stable hclosing.here hs ?_
    rintro s choice r s' ⟨⟨⟨hheld, hinactive⟩, hcommand⟩, hnumber⟩ hanswer hcalm
    obtain ⟨-, hs'⟩ := Prod.mk.inj (Option.some.inj hanswer)
    rw [hnumber] at hs'
    have hvacant : Vacant calm (.offer id manifest stamp) s' := by
      have hbegins : begins s'.history = begins s.history := by
        rw [← hs']
        exact begins_of_not rfl _
      have hnumber' : s'.number = s.number := by
        rw [← hs']
        rfl
      have hword : s'.word = s.word := by
        rw [← hs']
      refine ⟨⟨?_, hcalm⟩, ?_, ?_, hword ▸ hheld.notCommitting, ?_, ?_, ?_⟩
      · refine hheld.here.1.destroy hnumber (fun hcalm => hheld.kept hcalm _ hnumber)
          (by rw [← hs']; rfl) hword (by rw [hnumber']; exact fun _ h => h) (by rw [← hs'])
          (by rw [← hs']; exact fun _ h => h) fun hactive => absurd hactive hinactive
      · rw [← hs']
        exact hheld.reopened trivial
      · unfold Last
        rw [hnumber', hbegins]
        exact hheld.last
      · unfold Inactive
        rw [hword]
        exact hinactive
      · rw [← hs']
        exact hcommand
      · intro _
        have hlast := hheld.last _ hnumber
        refine .inr ⟨?_, ?_⟩
        · rw [hnumber', hbegins, hnumber, hlast]
        · rintro ⟨-, hdestroyed⟩
          refine hdestroyed ?_
          rw [hbegins, ← hlast, ← hs']
          exact List.mem_cons_self
    -- The fence is not active, so that nothing is released.
    refine ensures_seq (ensures_load_release steady_vacant steady_vacant (fun _ h _ => h) ?_
      hvacant) fun _ s hs => offerNew_spec hs
    intro s hs hheld _
    exact absurd (beq_iff_eq.mp hheld) hs.inactive

/-! ### Turns -/

theorem accepts_spec (hstamp : command.stamp = some stamp) {f : Bool → Task Unit} {s : Service}
    (hs : Settled calm s)
    (hcommand : s.command = some command)
    (hf : ∀ r s, Settled calm s ∧ s.command = some command →
      Ensures calm (f r) (fun _ => Settled calm) s) :
    Ensures calm (ask (.accepts stamp.epoch) >>= f) (fun _ => Settled calm) s := by
  have hsteady := (steady_settled : Steady calm (Settled calm)).and (keeps_command (some command))
  refine ensures_ask hsteady.stable hsteady.here ⟨hs, hcommand⟩ ?_
  intro s choice r s' hs hanswer hcalm
  unfold Service.answer at hanswer
  dsimp only at hanswer
  split_ifs at hanswer with hepoch
  · obtain ⟨rfl, rfl⟩ := Prod.mk.inj (Option.some.inj hanswer)
    have hplain : Plain calm (.accepted (s.command.bind Command.stamp)) s
        { s with history := .accepted (s.command.bind Command.stamp) :: s.history } := by
      refine ⟨rfl, ⟨stamp, ?_, ?_⟩, rfl, rfl, rfl, rfl, fun _ h => h, fun h => ⟨h, rfl⟩⟩
      · rw [hs.2]
        exact hstamp
      · have hstamped := hs.1.1.here.1.command command stamp hs.2 hstamp
        refine ⟨hstamped.2, ?_⟩
        rw [← hstamped.1, ← hepoch]
        exact hs.1.1.here.1.epoch
    have hcore := hplain.core hs.1.1.toCore hcalm hs.1.1.reopened
    refine hf true _ ⟨⟨⟨hcore, hs.1.1.notCommitting, ?_⟩, hs.1.2⟩, hs.2⟩
    exact fun hactive => hplain.attached (hs.1.1.attached hactive)
  · obtain ⟨rfl, rfl⟩ := Prod.mk.inj (Option.some.inj hanswer)
    exact hf false _ hs

theorem handle_spec (hs : Settled calm s) (hcommand : s.command = some command) :
    Ensures calm (handle fuel command) (fun _ => Settled calm) s := by
  cases command with
  | abortTransport =>
    have hheld : Held calm False s :=
      ⟨⟨hs.1.here, nofun, hs.1.last, hs.1.kept⟩, hs.1.notCommitting, hs.1.attached⟩
    exact abortTransportTransaction_spec hheld
  | offer id manifest stamp =>
    refine accepts_spec rfl hs hcommand ?_
    intro accepted s hs
    cases accepted with
    | true => exact offer_spec hs.1 hs.2
    | false => exact ⟨hs.1.1.here, hs.1⟩
  | chunk id offset data final stamp =>
    refine accepts_spec rfl hs hcommand ?_
    intro accepted s hs
    cases accepted with
    | true => exact chunk_spec hs.1
    | false => exact ⟨hs.1.1.here, hs.1⟩

theorem exchange_spec (hP : Steady calm P) (hsettled : ∀ s, P s → Settled calm s)
    {f : Bool → Task Unit} {s : Service} (hs : P s)
    (htrue : ∀ s, Held calm False s → Ensures calm (f true) (fun _ => Settled calm) s)
    (hfalse : ∀ s, P s → Ensures calm (f false) (fun _ => Settled calm) s) :
    Ensures calm (ask .exchangeAbortRequested >>= f) (fun _ => Settled calm) s := by
  refine ensures_ask hP.stable hP.here hs ?_
  intro s choice r s' hs hanswer hcalm
  obtain ⟨rfl, rfl⟩ := Prod.mk.inj (Option.some.inj hanswer)
  cases hrequested : s.abortRequested with
  | true =>
    have hbefore := hsettled s hs
    exact htrue _ ⟨⟨⟨hbefore.1.here.1.of_same rfl rfl rfl hbefore.1.here.1.command
      hbefore.1.here.1.pending, hcalm⟩, nofun, hbefore.1.last, hbefore.1.kept⟩,
      hbefore.1.notCommitting, hbefore.1.attached⟩
  | false =>
    exact hfalse _ (hP.quiet s _ hs ⟨rfl, rfl, rfl, rfl, rfl, rfl, hrequested.symm⟩ hcalm)

/-- **A turn of the OTA task** leaves it settled. -/
theorem turn_spec (hs : Settled calm s) :
    Ensures calm (turn fuel) (fun _ => Settled calm) s := by
  refine (fun hreceive => exchange_spec steady_settled (fun _ h => h) hs ?_ hreceive) ?_
  · intro s hs
    refine ensures_seq (abortTransportTransaction_spec hs) ?_
    exact fun _ s hs => hreceive s hs
  · intro s hs
    refine ensures_ask steady_settled.stable steady_settled.here hs ?_
    intro s choice received s' hs hanswer hcalm
    unfold Service.answer at hanswer
    dsimp only at hanswer
    split at hanswer
    · obtain ⟨rfl, rfl⟩ := Prod.mk.inj (Option.some.inj hanswer)
      exact tickTransaction_spec hs
    next command rest hcommands =>
    obtain ⟨rfl, rfl⟩ := Prod.mk.inj (Option.some.inj hanswer)
    have hreceived : Settled calm { s with commands := rest, command := some command } := by
      refine ⟨⟨⟨⟨hs.1.here.1.of_same rfl rfl rfl ?_ ?_, hcalm⟩, hs.1.reopened, hs.1.last,
        hs.1.kept⟩, hs.1.notCommitting, hs.1.attached⟩, hs.2⟩
      · intro current stamp hcurrent hstamp
        obtain rfl := Option.some.inj hcurrent
        refine hs.1.here.1.pending command stamp (.inl ?_) hstamp
        rw [hcommands]
        exact List.mem_cons_self
      · rintro current stamp (hqueued | hsending) hstamp
        · refine hs.1.here.1.pending current stamp (.inl ?_) hstamp
          rw [hcommands]
          exact List.mem_cons_of_mem _ hqueued
        · exact hs.1.here.1.pending current stamp (.inr hsending) hstamp
    refine exchange_spec (P := fun s => Settled calm s ∧ s.command = some command)
      (steady_settled.and (keeps_command _)) (fun _ h => h.1) ⟨hreceived, rfl⟩ ?_ ?_
    · exact fun s hs => abortTransportTransaction_spec hs
    · exact fun s hs => handle_spec hs.1 hs.2

end RlcdDeck.OtaFence
