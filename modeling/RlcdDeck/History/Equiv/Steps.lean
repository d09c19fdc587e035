import RlcdDeck.History.Store

/-!
# The steps of the history store, one by one

`Moves` has one constructor for each branch of a caller's step, and `Works` one for each branch of
the writer's.  `callerStep_moves` and `writerStep_works` say that these are all the steps there
are; the invariants are proved by cases on them.
-/

namespace RlcdDeck.History

open Effects

theorem update_self {α : Type} (f : ℕ → α) (i : ℕ) (a : α) : update f i a i = a := if_pos rfl

theorem update_of_ne {α : Type} (f : ℕ → α) {i j : ℕ} (a : α) (h : j ≠ i) :
    update f i a j = f j := if_neg h

/-- The generation that a capture carries. -/
def CapturePoint.generation : CapturePoint → Option UInt64
  | .admitted g | .passed g | .locked g | .opened g | .recording g => some g
  | .invoked | .leaving _ | .returned _ => none

/-- The command that the writer is at. -/
def Writer.command? : Writer → Option Command
  | .executing command => some command
  | .advancing caller enabled | .enabling caller enabled =>
    some (.control caller (.setEnabled enabled))
  | .cleared caller => some (.control caller .clear)
  | .polling | .blocked | .stopped => none

/-- A call that has not sent its command. -/
def Call.unsent : Call → Bool
  | .capture _ _ (.leaving .queued) | .capture _ _ (.returned .queued) => false
  | .capture .. => true
  | .command _ .invoked | .command _ .locked | .command _ .opened => true
  | .command .. => false
  | .close .invoked | .close .locked => true
  | .close _ => false

namespace Store

variable {config : Config} {s s' : Store}

/-! ### The callers -/

/-- The step of the call `id` from `call` to `call'`, which changes the rest of the store to
`x`. -/
inductive Moves (config : Config) (s : Store) (id : ℕ) : Call → Store → Call → Prop where
  | enter {p : Provider} {t : Time} : Moves config s id (.capture p t .invoked)
      { s with admissions := update s.admissions id (some s.epoch) }
      (.capture p t (.admitted s.generation))
  | cancel {p : Provider} {t : Time} {g : UInt64} : Moves config s id (.capture p t (.admitted g)) s
      (.capture p t (.returned (.failed .context)))
  | pass {p : Provider} {t : Time} {g : UInt64} : Moves config s id (.capture p t (.admitted g)) s
      (.capture p t (.passed g))
  | lock {p : Provider} {t : Time} {g : UInt64} (free : s.exclusive = none) :
      Moves config s id (.capture p t (.passed g)) (s.rLock id) (.capture p t (.locked g))
  | refuse {p : Provider} {t : Time} {g : UInt64} (closed : s.closed = true) :
      Moves config s id (.capture p t (.locked g)) s.unavailable
      (.capture p t (.leaving (.failed .closed)))
  | opened {p : Provider} {t : Time} {g : UInt64} (closed : s.closed = false) :
      Moves config s id (.capture p t (.locked g)) s (.capture p t (.opened g))
  | recording {p : Provider} {t : Time} {g : UInt64} (enabled : s.enabled = true) :
      Moves config s id (.capture p t (.opened g)) s (.capture p t (.recording g))
  | skip {p : Provider} {t : Time} {g : UInt64} (enabled : s.enabled = false) :
      Moves config s id (.capture p t (.opened g)) s (.capture p t (.leaving .skipped))
  | invalid {p : Provider} {t : Time} {g : UInt64} :
      Moves config s id (.capture p t (.recording g)) s (.capture p t (.leaving (.failed .invalid)))
  | queue {p : Provider} {t : Time} {g : UInt64} :
      Moves config s id (.capture p t (.recording g)) (s.send (.capture id p t g))
      (.capture p t (.leaving .queued))
  | busy {p : Provider} {t : Time} {g : UInt64} :
      Moves config s id (.capture p t (.recording g)) s.unavailable
      (.capture p t (.leaving (.failed .busy)))
  | leave {p : Provider} {t : Time} {result : CaptureResult} :
      Moves config s id (.capture p t (.leaving result)) (s.rUnlock id)
      (.capture p t (.returned result))
  | commandLock {kind : Kind} (free : s.exclusive = none) :
      Moves config s id (.command kind .invoked) (s.rLock id) (.command kind .locked)
  | commandRefuse {kind : Kind} (closed : s.closed = true) :
      Moves config s id (.command kind .locked) s.unavailable
      (.command kind (.leaving (some .closed)))
  | commandOpened {kind : Kind} (closed : s.closed = false) :
      Moves config s id (.command kind .locked) s (.command kind .opened)
  | commandCancel {kind : Kind} : Moves config s id (.command kind .opened) s
      (.command kind (.leaving (some .context)))
  | commandSend {kind : Kind} : Moves config s id (.command kind .opened)
      (s.send (.control id kind)) (.command kind .waiting)
  | commandGiveUp {kind : Kind} : Moves config s id (.command kind .waiting) s
      (.command kind (.leaving (some .context)))
  | commandReply {kind : Kind} {error : Option DatabaseError} (reply : s.replies id = some error) :
      Moves config s id (.command kind .waiting) s
      (.command kind (.leaving (error.map .database)))
  | commandLeave {kind : Kind} {error : Option Error} :
      Moves config s id (.command kind (.leaving error)) (s.rUnlock id)
      (.command kind (.returned error))
  | closeLock (free : s.exclusive = none) (unread : s.readers = []) :
      Moves config s id (.close .invoked) { s with exclusive := some id } (.close .locked)
  | closeAgain (closed : s.closed = true) :
      Moves config s id (.close .locked) { s with exclusive := none } (.close .draining)
  | closeCancel (closed : s.closed = false) :
      Moves config s id (.close .locked) { s with exclusive := none }
      (.close (.returned (some .context)))
  | closeSend (closed : s.closed = false) :
      Moves config s id (.close .locked)
      ({ s with exclusive := none, closed := true, available := false }.send (.close id))
      (.close .waiting)
  | closeGiveUp : Moves config s id (.close .waiting) s (.close (.returned (some .context)))
  | closeReply {error : Option DatabaseError} (reply : s.replies id = some error) :
      Moves config s id (.close .waiting) s (.close (.returned (error.map .database)))
  | drainGiveUp : Moves config s id (.close .draining) s (.close (.returned (some .context)))
  | drained (stopped : s.writer = .stopped) :
      Moves config s id (.close .draining) s (.close (.returned none))

theorem captureStep_moves {id : ℕ} {p : Provider} {t : Time} {done : Bool} {point : CapturePoint}
    (h : captureStep config s id p t done point = some s') :
    ∃ x call', Moves config s id (.capture p t point) x call' ∧ s' = x.goto id call' := by
  cases point with
  | invoked =>
    obtain rfl := Option.some.inj h
    exact ⟨_, _, .enter, rfl⟩
  | admitted g =>
    obtain rfl := Option.some.inj h
    cases done with
    | false => exact ⟨_, _, .pass, rfl⟩
    | true => exact ⟨_, _, .cancel, rfl⟩
  | passed g =>
    simp only [captureStep] at h
    obtain ⟨hfree, h⟩ := Option.ite_none_right_eq_some.mp h
    obtain rfl := Option.some.inj h
    exact ⟨_, _, .lock hfree, rfl⟩
  | locked g =>
    obtain rfl := Option.some.inj h
    cases hclosed : s.closed with
    | false => exact ⟨_, _, .opened hclosed, by simp only [Bool.false_eq_true, if_false]⟩
    | true => exact ⟨_, _, .refuse hclosed, by simp only [if_true]⟩
  | opened g =>
    obtain rfl := Option.some.inj h
    cases henabled : s.enabled with
    | false => exact ⟨_, _, .skip henabled, by simp only [Bool.false_eq_true, if_false]⟩
    | true => exact ⟨_, _, .recording henabled, by simp only [if_true]⟩
  | recording g =>
    obtain rfl := Option.some.inj h
    split_ifs
    · exact ⟨_, _, .invalid, rfl⟩
    · exact ⟨_, _, .queue, rfl⟩
    · exact ⟨_, _, .busy, rfl⟩
  | leaving result =>
    obtain rfl := Option.some.inj h
    exact ⟨_, _, .leave, rfl⟩
  | returned result => cases h

theorem commandStep_moves {id : ℕ} {kind : Kind} {done : Bool} {point : CommandPoint}
    (h : commandStep config s id kind done point = some s') :
    ∃ x call', Moves config s id (.command kind point) x call' ∧ s' = x.goto id call' := by
  cases point with
  | invoked =>
    simp only [commandStep] at h
    obtain ⟨hfree, h⟩ := Option.ite_none_right_eq_some.mp h
    obtain rfl := Option.some.inj h
    exact ⟨_, _, .commandLock hfree, rfl⟩
  | locked =>
    obtain rfl := Option.some.inj h
    cases hclosed : s.closed with
    | false => exact ⟨_, _, .commandOpened hclosed, by simp only [Bool.false_eq_true, if_false]⟩
    | true => exact ⟨_, _, .commandRefuse hclosed, by simp only [if_true]⟩
  | opened =>
    simp only [commandStep] at h
    split_ifs at h
    · obtain rfl := Option.some.inj h
      exact ⟨_, _, .commandCancel, rfl⟩
    · obtain rfl := Option.some.inj h
      exact ⟨_, _, .commandSend, rfl⟩
  | waiting =>
    simp only [commandStep] at h
    split_ifs at h
    · obtain rfl := Option.some.inj h
      exact ⟨_, _, .commandGiveUp, rfl⟩
    · obtain ⟨error, hreply, rfl⟩ := Option.map_eq_some_iff.mp h
      exact ⟨_, _, .commandReply hreply, rfl⟩
  | leaving error =>
    obtain rfl := Option.some.inj h
    exact ⟨_, _, .commandLeave, rfl⟩
  | returned error => cases h

theorem closeStep_moves {id : ℕ} {done : Bool} {point : ClosePoint}
    (h : closeStep config s id done point = some s') :
    ∃ x call', Moves config s id (.close point) x call' ∧ s' = x.goto id call' := by
  cases point with
  | invoked =>
    simp only [closeStep] at h
    obtain ⟨⟨hfree, hreaders⟩, h⟩ := Option.ite_none_right_eq_some.mp h
    obtain rfl := Option.some.inj h
    exact ⟨_, _, .closeLock hfree hreaders, rfl⟩
  | locked =>
    simp only [closeStep] at h
    split_ifs at h with hclosed
    · obtain rfl := Option.some.inj h
      exact ⟨_, _, .closeAgain hclosed, rfl⟩
    · obtain rfl := Option.some.inj h
      exact ⟨_, _, .closeCancel (Bool.eq_false_iff.mpr hclosed), rfl⟩
    · obtain rfl := Option.some.inj h
      exact ⟨_, _, .closeSend (Bool.eq_false_iff.mpr hclosed), rfl⟩
  | waiting =>
    simp only [closeStep] at h
    split_ifs at h
    · obtain rfl := Option.some.inj h
      exact ⟨_, _, .closeGiveUp, rfl⟩
    · obtain ⟨error, hreply, rfl⟩ := Option.map_eq_some_iff.mp h
      exact ⟨_, _, .closeReply hreply, rfl⟩
  | draining =>
    simp only [closeStep] at h
    split_ifs at h with hdone hstopped
    · obtain rfl := Option.some.inj h
      exact ⟨_, _, .drainGiveUp, rfl⟩
    · obtain rfl := Option.some.inj h
      exact ⟨_, _, .drained hstopped, rfl⟩
  | returned error => cases h

/-- **A caller's step** is one of `Moves`. -/
theorem callerStep_moves {id : ℕ} {done : Bool} (h : callerStep config s id done = some s') :
    ∃ call x call', s.calls id = some call ∧ Moves config s id call x call' ∧
      s' = x.goto id call' := by
  unfold callerStep at h
  split at h
  · cases h
  · rename_i p t point hcall
    obtain ⟨x, call', hmoves, hs'⟩ := captureStep_moves h
    exact ⟨_, x, call', hcall, hmoves, hs'⟩
  · rename_i kind point hcall
    obtain ⟨x, call', hmoves, hs'⟩ := commandStep_moves h
    exact ⟨_, x, call', hcall, hmoves, hs'⟩
  · rename_i point hcall
    obtain ⟨x, call', hmoves, hs'⟩ := closeStep_moves h
    exact ⟨_, x, call', hcall, hmoves, hs'⟩

/-! ### The writer -/

/-- A capture that the writer does not record. -/
def Stale (s : Store) (generation : UInt64) : Prop :=
  s.enabled = false ∨ generation ≠ s.generation

/-- The steps of the writer. -/
inductive Works (config : Config) (s : Store) (tick : Bool) (now : Time) (fault : Fault) :
    Store → Prop where
  | block (writer : s.writer = .polling) : Works config s tick now fault { s with writer := .blocked }
  | take {command : Command} {rest : List Command}
      (writer : s.writer = .polling ∨ s.writer = .blocked) (queue : s.commands = command :: rest) :
      Works config s tick now fault { s with commands := rest, writer := .executing command }
  | sweep (writer : s.writer = .blocked) (ticked : tick = true) : Works config s tick now fault
      { s.persisted (sweep s.database now config.retention fault).2 with
        database := (sweep s.database now config.retention fault).1
        writer := .polling }
  | drop {caller : ℕ} {p : Provider} {t : Time} {g : UInt64}
      (writer : s.writer = .executing (.capture caller p t g)) (stale : s.Stale g) :
      Works config s tick now fault
      { s with writer := .polling, outcomes := update s.outcomes caller (some .dropped) }
  | capture {caller : ℕ} {p : Provider} {t : Time} {g : UInt64}
      (writer : s.writer = .executing (.capture caller p t g)) (fresh : ¬s.Stale g) :
      Works config s tick now fault
      { s.persisted (History.capture s.database caller p t now config.retention fault).2 with
        database := (History.capture s.database caller p t now config.retention fault).1
        writer := .polling
        outcomes := update s.outcomes caller
          (some (if committed (captureBody s.database caller p t now config.retention) fault
            then .committed else .failed)) }
  | flush {caller : ℕ} (writer : s.writer = .executing (.control caller .flush)) :
      Works config s tick now fault (s.reply caller s.persistenceErr)
  | setEnabled {caller : ℕ} {enabled : Bool} {db : Database}
      (writer : s.writer = .executing (.control caller (.setEnabled enabled)))
      (result : setEnabled s.database enabled now config.retention fault = (db, none)) :
      Works config s tick now fault { s with database := db, writer := .advancing caller enabled }
  | setEnabledFailed {caller : ℕ} {enabled : Bool} {db : Database} {error : DatabaseError}
      (writer : s.writer = .executing (.control caller (.setEnabled enabled)))
      (result : History.setEnabled s.database enabled now config.retention fault =
        (db, some error)) :
      Works config s tick now fault
      (({ s with database := db }.persisted (some error)).reply caller (some error))
  | clear {caller : ℕ} {db : Database} (writer : s.writer = .executing (.control caller .clear))
      (result : clear s.database fault = (db, none)) :
      Works config s tick now fault { s with database := db, writer := .cleared caller }
  | clearFailed {caller : ℕ} {db : Database} {error : DatabaseError}
      (writer : s.writer = .executing (.control caller .clear))
      (result : History.clear s.database fault = (db, some error)) :
      Works config s tick now fault (({ s with database := db }.unavailable).reply caller (some error))
  | close {caller : ℕ} {error : Option DatabaseError}
      (writer : s.writer = .executing (.close caller))
      (remembered : error = none → s.persistenceErr = none) :
      Works config s tick now fault { s.reply caller error with writer := .stopped }
  | advance {caller : ℕ} {enabled : Bool} (writer : s.writer = .advancing caller enabled) :
      Works config s tick now fault { s.advance with writer := .enabling caller enabled }
  | enable {caller : ℕ} {enabled : Bool} (writer : s.writer = .enabling caller enabled) :
      Works config s tick now fault (({ s with enabled := enabled }.persisted none).reply caller none)
  | cleared {caller : ℕ} (writer : s.writer = .cleared caller) :
      Works config s tick now fault ((s.advance.persisted none).reply caller none)

theorem execute_works {command : Command} {tick : Bool} {now : Time} {fault : Fault}
    (h : s.writer = .executing command) :
    Works config s tick now fault (execute config s now fault command) := by
  cases command with
  | capture caller p t g =>
    by_cases hstale : (!s.enabled || decide (g ≠ s.generation)) = true
    · rw [execute, if_pos hstale]
      refine .drop h ?_
      simpa [Stale] using hstale
    · rw [execute, if_neg hstale]
      refine .capture h ?_
      simpa [Stale] using hstale
  | control caller kind =>
    cases kind with
    | flush => exact .flush h
    | setEnabled enabled =>
      simp only [execute]
      split
      · exact .setEnabled h (by assumption)
      · exact .setEnabledFailed h (by assumption)
    | clear =>
      simp only [execute]
      split
      · exact .clear h (by assumption)
      · exact .clearFailed h (by assumption)
  | close caller =>
    refine .close h ?_
    cases fault <;> intro herror
    · exact herror
    all_goals cases herror

/-- **A step of the writer** is one of `Works`. -/
theorem writerStep_works {tick : Bool} {now : Time} {fault : Fault}
    (h : writerStep config s tick now fault = some s') : Works config s tick now fault s' := by
  unfold writerStep at h
  split at h
  · rename_i hwriter
    unfold receive at h
    split at h
    · obtain rfl := Option.some.inj h
      exact .block hwriter
    · rename_i command rest hqueue
      obtain rfl := Option.some.inj h
      exact .take (Or.inl hwriter) hqueue
  · rename_i hwriter
    split at h
    · rename_i hticked
      obtain rfl := Option.some.inj h
      exact .sweep hwriter hticked
    · unfold receive at h
      split at h
      · cases h
      · rename_i command rest hqueue
        obtain rfl := Option.some.inj h
        exact .take (Or.inr hwriter) hqueue
  · rename_i command hwriter
    obtain rfl := Option.some.inj h
    exact execute_works hwriter
  · rename_i caller enabled hwriter
    obtain rfl := Option.some.inj h
    exact .advance hwriter
  · rename_i caller enabled hwriter
    obtain rfl := Option.some.inj h
    exact .enable hwriter
  · rename_i caller hwriter
    obtain rfl := Option.some.inj h
    exact .cleared hwriter
  · cases h

/-! ### What a step leaves as it is -/

section Moves

variable {id : ℕ} {call call' : Call} {x : Store}

/-- `x` has what the writer of `s` owns, and its calls. -/
structure Shares (s x : Store) : Prop where
  database : x.database = s.database
  enabled : x.enabled = s.enabled
  generation : x.generation = s.generation
  epoch : x.epoch = s.epoch
  writer : x.writer = s.writer
  persistenceErr : x.persistenceErr = s.persistenceErr
  replies : x.replies = s.replies
  outcomes : x.outcomes = s.outcomes
  calls : x.calls = s.calls

theorem Moves.shared (h : Moves config s id call x call') : Shares s x := by
  cases h <;> exact ⟨rfl, rfl, rfl, rfl, rfl, rfl, rfl, rfl, rfl⟩

theorem Moves.commands (h : Moves config s id call x call') :
    x.commands = s.commands ∨ ∃ command, x.commands = s.commands ++ [command] ∧
      ((∃ p t g, command = .capture id p t g ∧ call = .capture p t (.recording g)) ∨
        (∃ kind, command = .control id kind ∧ call = .command kind .opened) ∨
        (command = .close id ∧ call = .close .locked)) := by
  cases h with
  | queue => exact Or.inr ⟨_, rfl, Or.inl ⟨_, _, _, rfl, rfl⟩⟩
  | commandSend => exact Or.inr ⟨_, rfl, Or.inr (Or.inl ⟨_, rfl, rfl⟩)⟩
  | closeSend => exact Or.inr ⟨_, rfl, Or.inr (Or.inr ⟨rfl, rfl⟩)⟩
  | _ => exact Or.inl rfl

theorem Moves.admissions (h : Moves config s id call x call') :
    x.admissions = s.admissions ∨
      (∃ p t, call = .capture p t .invoked ∧ call' = .capture p t (.admitted s.generation)) ∧
        x.admissions = update s.admissions id (some s.epoch) := by
  cases h with
  | enter => exact Or.inr ⟨⟨_, _, rfl, rfl⟩, rfl⟩
  | _ => exact Or.inl rfl

theorem Moves.generation {p : Provider} {t : Time} {point' : CapturePoint} {g : UInt64}
    (h : Moves config s id call x (.capture p t point')) (hg : point'.generation = some g) :
    (call = .capture p t .invoked ∧ g = s.generation ∧
        x.admissions = update s.admissions id (some s.epoch)) ∨
      ∃ point, call = .capture p t point ∧ point.generation = some g := by
  cases h with
  | enter => exact Or.inl ⟨rfl, (Option.some.inj hg).symm, rfl⟩
  | pass | lock | opened | recording => exact Or.inr ⟨_, rfl, hg⟩
  | _ => cases hg

theorem Moves.unsent (h : Moves config s id call x call') :
    (call'.unsent = true → call.unsent = true) ∧
      (x.commands ≠ s.commands → call.unsent = true ∧ call'.unsent = false) := by
  cases h with
  | queue | commandSend | closeSend => exact ⟨fun h => (nomatch h), fun _ => ⟨rfl, rfl⟩⟩
  | @leave p t result =>
    refine ⟨fun h => ?_, fun h => absurd rfl h⟩
    cases result with
    | queued => cases h
    | skipped | failed => rfl
  | commandGiveUp | commandReply | commandLeave | closeGiveUp | closeReply | drainGiveUp
  | drained => exact ⟨fun h => (nomatch h), fun h => absurd rfl h⟩
  | _ => exact ⟨fun _ => rfl, fun h => absurd rfl h⟩

theorem Moves.command {kind : Kind} {point : CommandPoint}
    (h : Moves config s id (.command kind point) x call') :
    ∃ point', call' = .command kind point' := by
  cases h <;> exact ⟨_, rfl⟩

theorem Moves.close {point : ClosePoint} (h : Moves config s id (.close point) x call') :
    ∃ point', call' = .close point' := by
  cases h <;> exact ⟨_, rfl⟩

theorem Moves.capture (h : Moves config s id call x call') {p : Provider} {t : Time}
    {point : CapturePoint} (hcall : call = .capture p t point) :
    ∃ point', call' = .capture p t point' ∧ point' ≠ .invoked := by
  subst hcall
  cases h <;> exact ⟨_, rfl, by nofun⟩

end Moves

/-- The commands that are not done, in the order in which they are executed. -/
def pending (s : Store) : List Command := s.writer.command?.toList ++ s.commands

theorem Moves.pending {id : ℕ} {call call' : Call} {x : Store}
    (h : Moves config s id call x call') : x.pending = s.pending ∨
      ∃ command, x.commands = s.commands ++ [command] ∧ x.pending = s.pending ++ [command] ∧
        command.caller = id := by
  have hwriter := h.shared.writer
  unfold Store.pending
  rw [hwriter]
  rcases h.commands with hsame | ⟨command, hnew, hcommand⟩
  · exact Or.inl (by rw [hsame])
  · refine Or.inr ⟨command, hnew, by rw [hnew, List.append_assoc], ?_⟩
    rcases hcommand with ⟨_, _, _, rfl, -⟩ | ⟨_, rfl, -⟩ | ⟨rfl, -⟩ <;> rfl

section Works

variable {tick : Bool} {now : Time} {fault : Fault}

theorem Works.pending (h : Works config s tick now fault s') :
    (s'.pending = s.pending ∧ s'.replies = s.replies ∧ s'.outcomes = s.outcomes) ∨
      ∃ command, s.writer.command? = some command ∧ s.pending = command :: s'.pending ∧
        (∀ i, i ≠ command.caller → s'.replies i = s.replies i ∧ s'.outcomes i = s.outcomes i) ∧
        ∀ id p t g, command = .capture id p t g → s'.outcomes id ≠ none := by
  unfold Store.pending
  cases h with
  | block writer | sweep writer =>
    left
    rw [writer]
    exact ⟨rfl, rfl, rfl⟩
  | take writer queue =>
    left
    rw [queue]
    rcases writer with writer | writer <;> rw [writer] <;> exact ⟨rfl, rfl, rfl⟩
  | setEnabled writer | clear writer | advance writer =>
    left
    rw [writer]
    exact ⟨rfl, rfl, rfl⟩
  | drop writer | capture writer =>
    right
    rw [writer]
    refine ⟨_, rfl, rfl, fun i hi => ⟨rfl, update_of_ne _ _ hi⟩, ?_⟩
    rintro id p t g heq
    cases heq
    simp only [update_self]
    nofun
  | flush writer | setEnabledFailed writer | clearFailed writer | close writer | enable writer
  | cleared writer =>
    right
    rw [writer]
    exact ⟨_, rfl, rfl, fun i hi => ⟨update_of_ne _ _ hi, rfl⟩, nofun⟩

theorem Works.pending_subset (h : Works config s tick now fault s') {command : Command}
    (hmem : command ∈ s'.pending) : command ∈ s.pending := by
  rcases h.pending with ⟨hsame, -⟩ | ⟨first, -, hpopped, -, -⟩
  · exact hsame ▸ hmem
  · exact hpopped ▸ List.mem_cons_of_mem _ hmem

theorem Works.callers (h : Works config s tick now fault s') :
    s'.calls = s.calls ∧ s'.admissions = s.admissions := by
  cases h <;> exact ⟨rfl, rfl⟩

theorem Works.commands (h : Works config s tick now fault s') :
    (s'.commands = s.commands ∧ ∀ command, s'.writer ≠ .executing command) ∨
      ∃ command, s.commands = command :: s'.commands ∧ s'.writer = .executing command := by
  cases h with
  | take writer queue => exact Or.inr ⟨_, queue, rfl⟩
  | block => exact Or.inl ⟨rfl, fun _ h => nomatch (h : Writer.blocked = _)⟩
  | setEnabled => exact Or.inl ⟨rfl, fun _ h => nomatch (h : Writer.advancing _ _ = _)⟩
  | clear => exact Or.inl ⟨rfl, fun _ h => nomatch (h : Writer.cleared _ = _)⟩
  | advance => exact Or.inl ⟨rfl, fun _ h => nomatch (h : Writer.enabling _ _ = _)⟩
  | close => exact Or.inl ⟨rfl, fun _ h => nomatch (h : Writer.stopped = _)⟩
  | _ => exact Or.inl ⟨rfl, fun _ h => nomatch (h : Writer.polling = _)⟩

theorem Works.generation (h : Works config s tick now fault s') :
    (s'.generation = s.generation ∧ s'.epoch = s.epoch) ∨
      (s'.generation = s.generation + 1 ∧ s'.epoch = s.epoch + 1) := by
  cases h with
  | advance | cleared => exact Or.inr ⟨rfl, rfl⟩
  | _ => exact Or.inl ⟨rfl, rfl⟩

end Works

end Store

end RlcdDeck.History
