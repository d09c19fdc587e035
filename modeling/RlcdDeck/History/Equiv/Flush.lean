import RlcdDeck.History.Equiv.Barrier

/-!
# Flush means persisted

What a `Flush` (or a `Close`) that returns `nil` says about the captures before it
(`flush_persisted`).  The queue is first in, first out, so the captures that had returned `nil`
have been executed when the writer comes to the command.  But the writer remembers only the error
of its last operation: a capture of another provider, or a retention sweep, that succeeds after a
capture failed makes the next `Flush` return `nil` (`flush_forgets`).  A second `Close` returns
`nil` whatever the first one found.

`Remembers` is the condition under which nothing is forgotten: such an operation succeeds only
when no failed capture is `Lost`.
-/

namespace RlcdDeck.History

open Effects

/-- A call that holds the read lock. -/
def Call.reading : Call → Bool
  | .capture _ _ (.locked _) | .capture _ _ (.opened _) | .capture _ _ (.recording _)
  | .capture _ _ (.leaving _) => true
  | .capture .. => false
  | .command _ .invoked | .command _ (.returned _) => false
  | .command .. => true
  | .close _ => false

/-- A call that found the store open, under the read lock, and has not sent its command. -/
def Call.isOpen : Call → Bool
  | .capture _ _ (.opened _) | .capture _ _ (.recording _) | .command _ .opened => true
  | _ => false

namespace Store

variable {config : Config} {s s' : Store}

/-! ### Lost captures -/

/-- The observation of the capture `c` is not later than `t`, for the same provider and hour. -/
def CoveredBy (s : Store) (c : ℕ) (provider : Provider) (t : Time) : Prop :=
  ∃ p observedAt point, s.calls c = some (.capture p observedAt point) ∧
    keyOf p observedAt = keyOf provider t ∧ unixMilli observedAt ≤ unixMilli t

/-- The capture `c` was superseded: a later observation of the same provider and hour was
committed. -/
def Superseded (s : Store) (c : ℕ) : Prop :=
  ∃ k p t point, s.calls k = some (.capture p t point) ∧ s.outcomes k = some .committed ∧
    s.admissions k = some s.epoch ∧ s.CoveredBy c p t

/-- The transaction of the capture was committed, or the one of a later observation. -/
def Persisted (s : Store) (c : ℕ) : Prop := s.outcomes c = some .committed ∨ s.Superseded c

/-- A capture of this epoch that failed. -/
def Lost (s : Store) (c : ℕ) : Prop :=
  s.outcomes c = some .failed ∧ s.admissions c = some s.epoch ∧ ¬s.Superseded c

/-- No error is forgotten in the step: a sweep succeeds, or `Close` finds the store closed, only
when no capture is lost; a capture succeeds only when it covers the ones that are. -/
def Remembers (config : Config) (s : Store) : Event → Prop
  | .writer tick now fault =>
    (s.writer = .blocked → tick = true →
      (sweep s.database now config.retention fault).2 = none → ∀ c, ¬s.Lost c) ∧
    ∀ k p t g, s.writer = .executing (.capture k p t g) → ¬s.Stale g →
      (capture s.database k p t now config.retention fault).2 = none →
      ∀ c, s.Lost c → s.admissions k = some s.epoch ∧ s.CoveredBy c p t
  | .caller d _ => s.calls d = some (.close .draining) → ∀ c, ¬s.Lost c
  | .invoke .. => True

/-- What the store remembers. -/
structure Remembering (s : Store) : Prop where
  lost : s.persistenceErr = none → ∀ c, ¬s.Lost c
  dropped : ∀ c, s.outcomes c = some .dropped → s.admissions c = some s.epoch → s.enabled = false
  enabling : ∀ d enabled, s.writer = .enabling d enabled →
    ∀ c, s.outcomes c ≠ none → s.admissions c ≠ some s.epoch

theorem remembering_opened (db : Database) : Remembering (Store.opened db) where
  lost := fun _ _ h => nomatch (h.1 : none = some _)
  dropped := fun _ h => nomatch (h : none = some _)
  enabling := fun _ _ h => nomatch (h : Writer.polling = _)

section Callers

variable {id : ℕ} {call call' : Call} {x : Store}

theorem executed_moves (htracked : Tracked s) (hcall : s.calls id = some call)
    (h : Moves config s id call x call') {c : ℕ}
    (houtcome : s.outcomes c ≠ none) :
    (x.goto id call').admissions c = s.admissions c := by
  rcases h.admissions with hsame | ⟨⟨p, t, rfl, -⟩, hnew⟩
  · exact congrFun hsame c
  · -- the call is at its first statement, so it was not executed
    have hne : c ≠ id := by
      rintro rfl
      refine houtcome (htracked.unsent c fun other hother => ?_).2.2
      obtain rfl := Option.some.inj (hcall.symm.trans hother)
      rfl
    exact (congrFun hnew c).trans (update_of_ne _ _ hne)

theorem capture_moves (hcall : s.calls id = some call) (h : Moves config s id call x call') {c : ℕ}
    {p : Provider} {t : Time} : (∃ point, s.calls c = some (.capture p t point)) →
      ∃ point, (x.goto id call').calls c = some (.capture p t point) := by
  rintro ⟨point, hc⟩
  by_cases hid : c = id
  · subst hid
    obtain ⟨point', hcall', -⟩ := h.capture (Option.some.inj (hcall.symm.trans hc))
    exact ⟨point', (update_self _ _ _).trans (congrArg some hcall')⟩
  · exact ⟨point, (update_of_ne _ _ hid).trans ((congrFun h.shared.calls c).trans hc)⟩

theorem Superseded.moves (htracked : Tracked s) (hcall : s.calls id = some call)
    (h : Moves config s id call x call') {c : ℕ} (hc : s.Superseded c) : (x.goto id call').Superseded c := by
  obtain ⟨k, p, t, point, hk, houtcome, hadmission, p', t', point', hc', hkey, htime⟩ := hc
  obtain ⟨point, hk⟩ := capture_moves hcall h ⟨point, hk⟩
  obtain ⟨point', hc'⟩ := capture_moves hcall h ⟨point', hc'⟩
  refine ⟨k, p, t, point, hk, ?_, ?_, p', t', point', hc', hkey, htime⟩
  · exact (congrFun h.shared.outcomes k).trans houtcome
  · rw [executed_moves htracked hcall h (houtcome ▸ nofun), hadmission]
    exact congrArg some h.shared.epoch.symm

theorem Remembering.moves (hs : Remembering s) (htracked : Tracked s) (hcall : s.calls id = some call)
    (h : Moves config s id call x call') : Remembering (x.goto id call') := by
  have houtcomes : (x.goto id call').outcomes = s.outcomes := h.shared.outcomes
  have hepoch : (x.goto id call').epoch = s.epoch := h.shared.epoch
  have hadmissions (c : ℕ) (hc : s.outcomes c ≠ none) :=
    executed_moves htracked hcall h hc
  refine ⟨?_, ?_, ?_⟩
  · rintro herror c ⟨hfailed, hadmission, hsuperseded⟩
    rw [houtcomes] at hfailed
    rw [hadmissions c (hfailed ▸ nofun), hepoch] at hadmission
    refine hs.lost (h.shared.persistenceErr.symm.trans herror) c ⟨hfailed, hadmission, fun hc => ?_⟩
    exact hsuperseded (hc.moves htracked hcall h)
  · intro c hdropped hadmission
    rw [houtcomes] at hdropped
    rw [hadmissions c (hdropped ▸ nofun), hepoch] at hadmission
    exact h.shared.enabled.trans (hs.dropped c hdropped hadmission)
  · intro d enabled hwriter c houtcome
    rw [houtcomes] at houtcome
    rw [hadmissions c houtcome, hepoch]
    exact hs.enabling d enabled (h.shared.writer.symm.trans hwriter) c houtcome

end Callers

section Works

variable {tick : Bool} {now : Time} {fault : Fault}

theorem executed_works (htracked : Tracked s) (h : Works config s tick now fault s') {c : ℕ}
    (houtcome : s.outcomes c ≠ none) : s'.outcomes c = s.outcomes c := by
  rcases h.pending with ⟨-, -, hsame⟩ | ⟨command, -, hpending, hothers, -⟩
  · exact congrFun hsame c
  · refine (hothers c ?_).2
    rintro rfl
    exact houtcome (htracked.fresh command (hpending ▸ List.mem_cons_self)).2

theorem Superseded.works (htracked : Tracked s) (h : Works config s tick now fault s')
    (hepoch : s'.epoch = s.epoch) {c : ℕ} (hc : s.Superseded c) : s'.Superseded c := by
  obtain ⟨k, p, t, point, hk, houtcome, hadmission, p', t', point', hc', hkey, htime⟩ := hc
  obtain ⟨hcalls, hadmissions⟩ := h.callers
  refine ⟨k, p, t, point, (congrFun hcalls k).trans hk, ?_, ?_, p', t', point',
    (congrFun hcalls c).trans hc', hkey, htime⟩
  · rw [executed_works htracked h (houtcome ▸ nofun)]
    exact houtcome
  · rw [hadmissions, hepoch]
    exact hadmission

theorem Remembering.congr (hs : Remembering s) (htracked : Tracked s)
    (h : Works config s tick now fault s') (hepoch : s'.epoch = s.epoch)
    (houtcomes : s'.outcomes = s.outcomes) (henabled : s'.enabled = s.enabled)
    (herror : s'.persistenceErr = none → ∀ c, ¬s.Lost c)
    (hwriter : ∀ d enabled, s'.writer ≠ .enabling d enabled) : Remembering s' := by
  obtain ⟨-, hadmissions⟩ := h.callers
  refine ⟨?_, ?_, fun d enabled h => absurd h (hwriter d enabled)⟩
  · rintro hnone c ⟨hfailed, hadmission, hsuperseded⟩
    rw [houtcomes] at hfailed
    rw [hadmissions, hepoch] at hadmission
    exact herror hnone c ⟨hfailed, hadmission, fun hc => hsuperseded (hc.works htracked h hepoch)⟩
  · intro c hdropped hadmission
    rw [houtcomes] at hdropped
    rw [hadmissions, hepoch] at hadmission
    rw [henabled]
    exact hs.dropped c hdropped hadmission

theorem executed_advance (hordered : Ordered s) (h : Works config s tick now fault s')
    (hepoch : s'.epoch = s.epoch + 1) (c : ℕ) : s'.admissions c ≠ some s'.epoch := by
  intro hadmission
  rw [h.callers.2, hepoch] at hadmission
  have := (hordered.begun c _ hadmission).1
  omega

theorem committed_of_success {db : Database} {body : Except DatabaseError Database}
    (h : (transact db body fault).2 = none) : committed body fault = true := by
  unfold transact at h
  split at h <;> first | rfl | cases h

theorem Remembering.works (hs : Remembering s) (htracked : Tracked s) (hordered : Ordered s)
    (hremembers : Remembers config s (.writer tick now fault))
    (h : Works config s tick now fault s') : Remembering s' := by
  have hworks := h
  cases h with
  | block writer =>
    exact hs.congr htracked hworks rfl rfl rfl (fun h => hs.lost h)
      fun _ _ h => by cases (h : Writer.blocked = _)
  | take =>
    exact hs.congr htracked hworks rfl rfl rfl (fun h => hs.lost h)
      fun _ _ h => by cases (h : Writer.executing _ = _)
  | flush =>
    exact hs.congr htracked hworks rfl rfl rfl (fun h => hs.lost h)
      fun _ _ h => by cases (h : Writer.polling = _)
  | close =>
    exact hs.congr htracked hworks rfl rfl rfl (fun h => hs.lost h)
      fun _ _ h => by cases (h : Writer.stopped = _)
  | setEnabled =>
    exact hs.congr htracked hworks rfl rfl rfl (fun h => hs.lost h)
      fun _ _ h => by cases (h : Writer.advancing _ _ = _)
  | clear =>
    exact hs.congr htracked hworks rfl rfl rfl (fun h => hs.lost h)
      fun _ _ h => by cases (h : Writer.cleared _ = _)
  | clearFailed =>
    exact hs.congr htracked hworks rfl rfl rfl (fun h => hs.lost h)
      fun _ _ h => by cases (h : Writer.polling = _)
  | setEnabledFailed =>
    exact hs.congr htracked hworks rfl rfl rfl (fun h => by cases (h : some _ = none))
      fun _ _ h => by cases (h : Writer.polling = _)
  | sweep writer ticked =>
    exact hs.congr htracked hworks rfl rfl rfl (hremembers.1 writer ticked)
      fun _ _ h => by cases (h : Writer.polling = _)
  | @drop caller p t g writer stale =>
    refine ⟨?_, ?_, fun _ _ h => by cases (h : Writer.polling = _)⟩
    · rintro hnone c ⟨hfailed, hadmission, hsuperseded⟩
      have hne : c ≠ caller := by
        rintro rfl
        cases (update_self _ _ _).symm.trans hfailed
      have hold : s.outcomes c = some .failed := (update_of_ne _ _ hne).symm.trans hfailed
      exact hs.lost hnone c ⟨hold, hadmission, fun hc => hsuperseded (hc.works htracked hworks rfl)⟩
    · intro c hdropped hadmission
      by_cases hne : c = caller
      · subst hne
        -- it was stale, and it is of this epoch, so the flag is off
        rcases stale with hdisabled | hgeneration
        · exact hdisabled
        · obtain ⟨n, -, hn, rfl⟩ := hordered.executing c p t g writer
          obtain rfl : s.epoch = n := Option.some.inj (hadmission.symm.trans hn)
          exact absurd hordered.generation.symm hgeneration
      · exact hs.dropped c ((update_of_ne _ _ hne).symm.trans hdropped) hadmission
  | @capture caller p t g writer fresh =>
    refine ⟨?_, ?_, fun _ _ h => by cases (h : Writer.polling = _)⟩
    · rintro hnone c ⟨hfailed, hadmission, hsuperseded⟩
      have hcommitted := committed_of_success hnone
      have hself : update s.outcomes caller (some (if committed (captureBody s.database caller p t
          now config.retention) fault then Outcome.committed else .failed)) caller =
          some .committed := by
        rw [update_self, if_pos hcommitted]
      have hne : c ≠ caller := by
        rintro rfl
        cases hself.symm.trans hfailed
      have hold : s.outcomes c = some .failed := (update_of_ne _ _ hne).symm.trans hfailed
      -- the capture was lost before, so this one covers it
      obtain ⟨hadmitted, hcovered⟩ := hremembers.2 caller p t g writer fresh hnone c
        ⟨hold, hadmission, fun hc => hsuperseded (hc.works htracked hworks rfl)⟩
      obtain ⟨point, hcall, -⟩ := htracked.sent (.capture caller p t g) (by
        rw [pending, writer]
        exact List.mem_cons_self)
      exact hsuperseded ⟨caller, p, t, point, hcall, hself, hadmitted, hcovered⟩
    · intro c hdropped hadmission
      have hne : c ≠ caller := by
        rintro rfl
        have hupdate := (update_self _ _ _).symm.trans hdropped
        split at hupdate <;> cases hupdate
      exact hs.dropped c ((update_of_ne _ _ hne).symm.trans hdropped) hadmission
  | advance =>
    exact ⟨fun _ c h => executed_advance hordered hworks rfl c h.2.1,
      fun c _ h => absurd h (executed_advance hordered hworks rfl c),
      fun _ _ _ c _ => executed_advance hordered hworks rfl c⟩
  | cleared =>
    exact ⟨fun _ c h => executed_advance hordered hworks rfl c h.2.1,
      fun c _ h => absurd h (executed_advance hordered hworks rfl c),
      fun _ _ h => by cases (h : Writer.polling = _)⟩
  | enable writer =>
    refine ⟨?_, ?_, fun _ _ h => by cases (h : Writer.polling = _)⟩
    · rintro - c ⟨hfailed, hadmission, -⟩
      exact hs.enabling _ _ writer c (fun hnone => by cases hnone.symm.trans hfailed) hadmission
    · intro c hdropped hadmission
      exact absurd hadmission
        (hs.enabling _ _ writer c fun hnone => by cases hnone.symm.trans hdropped)

end Works

theorem Remembering.step (hs : Remembering s) (htracked : Tracked s) (hordered : Ordered s)
    {event : Event} (hremembers : Remembers config s event) (h : step config s event = some s') :
    Remembering s' := by
  cases event with
  | invoke id request =>
    obtain ⟨hid, h⟩ := Option.ite_none_right_eq_some.mp h
    obtain rfl := Option.some.inj h
    refine ⟨?_, hs.dropped, hs.enabling⟩
    rintro hnone c ⟨hfailed, hadmission, hsuperseded⟩
    refine hs.lost hnone c ⟨hfailed, hadmission, ?_⟩
    rintro ⟨k, p, t, point, hk, houtcome, hadmission', p', t', point', hc, hkey, htime⟩
    have hne : ∀ i call, s.calls i = some call → i ≠ id := by
      rintro i call hi rfl
      cases hid.symm.trans hi
    exact hsuperseded ⟨k, p, t, point, (update_of_ne _ _ (hne k _ hk)).trans hk, houtcome,
      hadmission', p', t', point', (update_of_ne _ _ (hne c _ hc)).trans hc, hkey, htime⟩
  | caller id done =>
    obtain ⟨call, x, call', hcall, hmoves, rfl⟩ := callerStep_moves h
    exact hs.moves htracked hcall hmoves
  | writer tick now fault => exact hs.works htracked hordered hremembers (writerStep_works h)

/-! ### The lock and the last command -/

/-- The lock excludes a `Close` from the other calls, and its command is the last one. -/
structure Locking (s : Store) : Prop where
  reading : ∀ id call, s.calls id = some call → call.reading = true → id ∈ s.readers
  exclusive : ∀ id, s.exclusive = some id → s.readers = []
  closing : ∀ id, s.calls id = some (.close .locked) → s.exclusive = some id
  opened : ∀ id call, s.calls id = some call → call.isOpen = true → s.closed = false
  unclosed : s.closed = false → s.writer ≠ .stopped ∧ ∀ id, .close id ∉ s.pending
  last : ∀ before id after, s.pending = before ++ .close id :: after → after = []
  stopped : s.writer = .stopped → s.commands = []

theorem locking_opened (db : Database) : Locking (Store.opened db) where
  reading := fun _ _ h => nomatch (h : none = some _)
  exclusive := fun _ h => nomatch (h : none = some _)
  closing := fun _ h => nomatch (h : none = some _)
  opened := fun _ _ h => nomatch (h : none = some _)
  unclosed := fun _ => ⟨fun h => (nomatch (h : Writer.polling = _)),
    fun _ h => (nomatch (h : _ ∈ []))⟩
  last := fun _ id after h =>
    absurd (List.append_eq_nil_iff.mp (Eq.symm h)).2 (List.cons_ne_nil (.close id) after)
  stopped := fun h => nomatch (h : Writer.polling = _)

theorem eq_nil_of_append_singleton {α : Type} {l before after : List α} {a b : α}
    (h : l ++ [a] = before ++ b :: after) (hb : b ∉ l) : after = [] := by
  rcases List.append_eq_append_iff.mp h with ⟨rest, rfl, hrest⟩ | ⟨rest, hbefore, hrest⟩
  · cases rest with
    | nil => exact (List.cons.inj hrest).2.symm
    | cons c rest => cases (List.append_eq_nil_iff.mp (List.cons.inj hrest).2.symm).2
  · cases rest with
    | nil => exact (List.cons.inj hrest).2
    | cons c rest =>
      obtain ⟨rfl, -⟩ := List.cons.inj hrest
      exact absurd (hbefore ▸ List.mem_append_right _ List.mem_cons_self) hb

section Callers

variable {id : ℕ} {call call' : Call} {x : Store}

theorem Locking.send (hs : Locking s) (hclosed : s.closed = false) (command : Command)
    (hcommand : ∀ d, command ≠ .close d) (d : ℕ) : .close d ∉ s.pending ++ [command] := by
  intro hmem
  rcases List.mem_append.mp hmem with hmem | hmem
  · exact (hs.unclosed hclosed).2 d hmem
  · exact hcommand d (List.mem_singleton.mp hmem).symm

theorem Locking.moves (hs : Locking s) (hcall : s.calls id = some call)
    (h : Moves config s id call x call') : Locking (x.goto id call') := by
  have hself : (x.goto id call').calls id = some call' := update_self _ _ _
  have hother : ∀ i, i ≠ id → (x.goto id call').calls i = s.calls i := fun i hi =>
    (update_of_ne _ _ hi).trans (congrFun h.shared.calls i)
  refine ⟨?_, ?_, ?_, ?_, ?_, ?_, ?_⟩
  · intro i c hc hreading
    show i ∈ x.readers
    by_cases hi : i = id
    · subst hi
      obtain rfl := Option.some.inj (hself.symm.trans hc)
      cases h <;> first
        | exact List.mem_cons_self
        | exact hs.reading i _ hcall rfl
        | cases hreading
    · have hold := hs.reading i c ((hother i hi).symm.trans hc) hreading
      cases h <;> first
        | exact hold
        | exact List.mem_cons_of_mem _ hold
        | exact (List.mem_erase_of_ne hi).mpr hold
  · intro j hj
    show x.readers = []
    cases h with
    | lock free | commandLock free => cases free.symm.trans hj
    | leave | commandLeave =>
      show s.readers.erase id = []
      rw [hs.exclusive j hj]
      rfl
    | closeLock free unread => exact unread
    | closeAgain | closeCancel | closeSend => cases hj
    | _ => exact hs.exclusive j hj
  · intro i hi
    show x.exclusive = some i
    by_cases hid : i = id
    · subst hid
      obtain rfl := Option.some.inj (hself.symm.trans hi)
      cases h
      rfl
    · have hold := hs.closing i ((hother i hid).symm.trans hi)
      cases h with
      | closeLock free => cases free.symm.trans hold
      | closeAgain | closeCancel | closeSend =>
        -- the lock is held by this call
        exact absurd (Option.some.inj (hold.symm.trans (hs.closing id hcall))) hid
      | _ => exact hold
  · intro i c hc hopen
    show x.closed = false
    by_cases hid : i = id
    · subst hid
      obtain rfl := Option.some.inj (hself.symm.trans hc)
      cases h with
      | opened closed | commandOpened closed => exact closed
      | recording => exact hs.opened i _ hcall rfl
      | _ => cases hopen
    · have hc' := (hother i hid).symm.trans hc
      have hold := hs.opened i c hc' hopen
      cases h with
      | closeSend =>
        -- the other call holds the read lock
        have hreading : c.reading = true := by
          unfold Call.isOpen at hopen
          split at hopen <;> first | rfl | cases hopen
        have hmem := hs.reading i c hc' hreading
        rw [hs.exclusive id (hs.closing id hcall)] at hmem
        cases hmem
      | _ => exact hold
  · intro hclosed
    cases h with
    | closeSend => cases hclosed
    | @queue p t g =>
      obtain ⟨hwriter, -⟩ := hs.unclosed hclosed
      refine ⟨hwriter, fun d hmem => hs.send hclosed (.capture id p t g) (by rintro _ ⟨⟩) d ?_⟩
      rwa [pending, List.append_assoc]
    | @commandSend kind =>
      obtain ⟨hwriter, -⟩ := hs.unclosed hclosed
      refine ⟨hwriter, fun d hmem => hs.send hclosed (.control id kind) (by rintro _ ⟨⟩) d ?_⟩
      rwa [pending, List.append_assoc]
    | _ => exact hs.unclosed hclosed
  · intro before d after heq
    have hmem : Command.close d ∈ (x.goto id call').pending := by
      rw [heq]
      exact List.mem_append_right _ List.mem_cons_self
    cases h with
    | @queue p t g =>
      refine absurd ?_ (hs.send (hs.opened id _ hcall rfl) (.capture id p t g) (by rintro _ ⟨⟩) d)
      rw [pending, List.append_assoc]
      exact hmem
    | @commandSend kind =>
      refine absurd ?_ (hs.send (hs.opened id _ hcall rfl) (.control id kind) (by rintro _ ⟨⟩) d)
      rw [pending, List.append_assoc]
      exact hmem
    | closeSend closed =>
      have hnew : s.pending ++ [.close id] = before ++ .close d :: after := by
        rw [pending, List.append_assoc]
        exact heq
      exact eq_nil_of_append_singleton hnew ((hs.unclosed closed).2 d)
    | _ => exact hs.last before d after heq
  · intro hwriter
    cases h with
    | queue | commandSend =>
      exact absurd hwriter (hs.unclosed (hs.opened id _ hcall rfl)).1
    | closeSend closed => exact absurd hwriter (hs.unclosed closed).1
    | _ => exact hs.stopped hwriter

end Callers

theorem Locking.works (hs : Locking s) {tick : Bool} {now : Time} {fault : Fault}
    (h : Works config s tick now fault s') : Locking s' := by
  obtain ⟨hcalls, -⟩ := h.callers
  obtain ⟨hreaders, hexclusive, hclosed⟩ : s'.readers = s.readers ∧ s'.exclusive = s.exclusive ∧
      s'.closed = s.closed := by cases h <;> exact ⟨rfl, rfl, rfl⟩
  refine ⟨?_, ?_, ?_, ?_, ?_, ?_, ?_⟩
  · rw [hcalls, hreaders]
    exact hs.reading
  · rw [hexclusive, hreaders]
    exact hs.exclusive
  · rw [hcalls, hexclusive]
    exact hs.closing
  · rw [hcalls, hclosed]
    exact hs.opened
  · intro hopen
    obtain ⟨-, hnone⟩ := hs.unclosed (hclosed ▸ hopen)
    refine ⟨?_, fun d hmem => hnone d (h.pending_subset hmem)⟩
    intro hstopped
    cases h with
    | @close caller error writer =>
      refine hnone caller ?_
      rw [pending, writer]
      exact List.mem_cons_self
    | _ => cases hstopped
  · intro before d after heq
    rcases h.pending with ⟨hsame, -⟩ | ⟨command, -, hpopped, -, -⟩
    · exact hs.last before d after (hsame.symm.trans heq)
    · refine hs.last (command :: before) d after ?_
      rw [hpopped, heq]
      rfl
  · intro hstopped
    cases h with
    | @close caller error writer =>
      refine hs.last [] caller s.commands ?_
      rw [pending, writer]
      rfl
    | _ => cases hstopped

theorem Locking.step (hs : Locking s) {event : Event} (h : step config s event = some s') :
    Locking s' := by
  cases event with
  | invoke id request =>
    obtain ⟨hid, h⟩ := Option.ite_none_right_eq_some.mp h
    obtain rfl := Option.some.inj h
    have hself : (s.goto id request.call).calls id = some request.call := update_self _ _ _
    have hother : ∀ i, i ≠ id → (s.goto id request.call).calls i = s.calls i := fun i hi =>
      update_of_ne _ _ hi
    -- a call that begins holds no lock
    have hnew : ∀ call, request.call = call →
        call.reading = false ∧ call.isOpen = false ∧ call ≠ .close .locked := by
      rintro call rfl
      cases request <;> exact ⟨rfl, rfl, nofun⟩
    refine ⟨?_, hs.exclusive, ?_, ?_, hs.unclosed, hs.last, hs.stopped⟩
    · intro i call hi hreading
      by_cases heq : i = id
      · subst heq
        have := (hnew call (Option.some.inj (hself.symm.trans hi))).1
        cases this.symm.trans hreading
      · exact hs.reading i call ((hother i heq).symm.trans hi) hreading
    · intro i hi
      by_cases heq : i = id
      · subst heq
        exact absurd rfl (hnew _ (Option.some.inj (hself.symm.trans hi))).2.2
      · exact hs.closing i ((hother i heq).symm.trans hi)
    · intro i call hi hopen
      by_cases heq : i = id
      · subst heq
        have := (hnew call (Option.some.inj (hself.symm.trans hi))).2.1
        cases this.symm.trans hopen
      · exact hs.opened i call ((hother i heq).symm.trans hi) hopen
  | caller id done =>
    obtain ⟨call, x, call', hcall, hmoves, rfl⟩ := callerStep_moves h
    exact hs.moves hcall hmoves
  | writer tick now fault => exact hs.works (writerStep_works h)

/-! ### Captures before a command -/

/-- A capture that was sent is in the queue, or was executed. -/
def Delivered (s : Store) (c : ℕ) : Prop :=
  c ∈ s.pending.map Command.caller ∨ s.outcomes c ≠ none

theorem Delivered.moves {id : ℕ} {call call' : Call} {x : Store} {c : ℕ} (hc : s.Delivered c)
    (h : Moves config s id call x call') : (x.goto id call').Delivered c := by
  show c ∈ x.pending.map Command.caller ∨ x.outcomes c ≠ none
  rw [h.shared.outcomes]
  refine hc.imp_left fun hmem => ?_
  rcases h.pending with hsame | ⟨command, -, hnew, -⟩
  · exact hsame ▸ hmem
  · rw [hnew, List.map_append]
    exact List.mem_append_left _ hmem

theorem Delivered.works (htracked : Tracked s) {tick : Bool} {now : Time} {fault : Fault}
    (h : Works config s tick now fault s') {c : ℕ} {p : Provider} {t : Time}
    {point : CapturePoint} (hcall : s.calls c = some (.capture p t point)) (hc : s.Delivered c) :
    s'.Delivered c := by
  rcases hc with hmem | houtcome
  · rcases h.pending with ⟨hsame, -⟩ | ⟨command, -, hpopped, -, hexecuted⟩
    · exact Or.inl (hsame ▸ hmem)
    · rw [hpopped, List.map_cons, List.mem_cons] at hmem
      rcases hmem with rfl | hmem
      · -- the command of a capture is a capture
        have hsent := htracked.sent command (hpopped ▸ List.mem_cons_self)
        cases command with
        | capture id p t g => exact Or.inr (hexecuted id p t g rfl)
        | control id kind =>
          obtain ⟨point', hpoint'⟩ := hsent
          cases hcall.symm.trans hpoint'
        | close id =>
          obtain ⟨point', hpoint'⟩ := hsent
          cases hcall.symm.trans hpoint'
      · exact Or.inl hmem
  · refine Or.inr ?_
    rw [executed_works htracked h houtcome]
    exact houtcome

/-- The captures that returned after they were sent. -/
def Delivering (s : Store) : Prop :=
  ∀ c p t point, s.calls c = some (.capture p t point) →
    point = .leaving .queued ∨ point = .returned .queued → s.Delivered c

theorem Delivering.step (hs : Delivering s) (htracked : Tracked s) {event : Event}
    (h : step config s event = some s') : Delivering s' := by
  intro c p t point hc hpoint
  cases event with
  | invoke id request =>
    obtain ⟨hid, h⟩ := Option.ite_none_right_eq_some.mp h
    obtain rfl := Option.some.inj h
    by_cases heq : c = id
    · subst heq
      have hcall := Option.some.inj ((update_self _ _ _).symm.trans hc)
      cases request <;> cases hcall
      rcases hpoint with hpoint | hpoint <;> cases hpoint
    · exact hs c p t point ((update_of_ne _ _ heq).symm.trans hc) hpoint
  | caller id done =>
    obtain ⟨call, x, call', hcall, hmoves, rfl⟩ := callerStep_moves h
    by_cases heq : c = id
    · subst heq
      obtain rfl := Option.some.inj ((update_self _ _ _).symm.trans hc)
      have hmoves' := hmoves
      cases hmoves with
      | queue =>
        refine Or.inl ?_
        rw [List.mem_map]
        refine ⟨_, List.mem_append_right _ (List.mem_append_right _ List.mem_cons_self), rfl⟩
      | leave =>
        refine (hs c p t _ hcall (Or.inl ?_)).moves hmoves'
        rcases hpoint with hpoint | hpoint <;> cases hpoint
        rfl
      | _ => rcases hpoint with hpoint | hpoint <;> cases hpoint
    · have hold : s.calls c = some (.capture p t point) :=
        (congrFun hmoves.shared.calls c).symm.trans ((update_of_ne _ _ heq).symm.trans hc)
      exact (hs c p t point hold hpoint).moves hmoves
  | writer tick now fault =>
    have hworks := writerStep_works h
    have hold := (congrFun hworks.callers.1 c).symm.trans hc
    exact (hs c p t point hold hpoint).works htracked hworks hold

/-- The call `d` was answered, or found the store closed. -/
def Answered (s : Store) (d : ℕ) : Prop :=
  s.replies d = some none ∨ s.calls d = some (.close (.returned none))

/-- The capture `c` is executed before the command of `d`, and persisted when `d` is answered. -/
structure Precedes (s : Store) (c d : ℕ) : Prop where
  capture : ∃ p t point, s.calls c = some (.capture p t point)
  delivered : s.Delivered c
  order : ∀ before command after, s.pending = before ++ command :: after → command.caller = d →
    c ∈ before.map Command.caller ∨ s.outcomes c ≠ none
  answered : s.Answered d → s.outcomes c ≠ none ∧
    (s.admissions c = some s.epoch → s.enabled = true → s.Persisted c)

theorem Remembering.persisted (hs : Remembering s) {c : ℕ} (houtcome : s.outcomes c ≠ none)
    (hadmission : s.admissions c = some s.epoch) (henabled : s.enabled = true)
    (hlost : ¬s.Lost c) : s.Persisted c := by
  cases heq : s.outcomes c with
  | none => exact absurd heq houtcome
  | some outcome =>
    cases outcome with
    | committed => exact Or.inl heq
    | dropped => cases (hs.dropped c heq hadmission).symm.trans henabled
    | failed =>
      by_cases hsuperseded : s.Superseded c
      · exact Or.inr hsuperseded
      · exact absurd ⟨heq, hadmission, hsuperseded⟩ hlost

theorem Precedes.moves {c d : ℕ} (hs : Precedes s c d) (htracked : Tracked s)
    (hlocking : Locking s) (hremembering : Remembering s) {id : ℕ} {done : Bool}
    (hremembers : Remembers config s (.caller id done)) {call call' : Call} {x : Store}
    (hcall : s.calls id = some call) (h : Moves config s id call x call') :
    Precedes (x.goto id call') c d := by
  obtain ⟨p, t, hcapture⟩ := hs.capture
  have houtcomes : (x.goto id call').outcomes = s.outcomes := h.shared.outcomes
  refine ⟨⟨p, t, capture_moves hcall h hcapture⟩, hs.delivered.moves h, ?_, ?_⟩
  · intro before command after heq hd
    rw [houtcomes]
    have heq' : x.pending = before ++ command :: after := heq
    rcases h.pending with hsame | ⟨new, -, hnew, -⟩
    · exact hs.order before command after (hsame.symm.trans heq') hd
    · -- the new command is the last one
      rw [hnew] at heq'
      rcases List.append_eq_append_iff.mp heq' with ⟨rest, rfl, -⟩ | ⟨rest, hbefore, hrest⟩
      · rw [List.map_append]
        exact hs.delivered.imp_left (List.mem_append_left _)
      · cases rest with
        | nil =>
          rw [List.append_nil] at hbefore
          exact hbefore ▸ hs.delivered
        | cons first rest =>
          obtain ⟨rfl, -⟩ := List.cons.inj hrest
          exact hs.order before _ rest hbefore hd
  · intro hanswered
    have hold : s.outcomes c ≠ none ∧
        (s.admissions c = some s.epoch → s.enabled = true → s.Persisted c) := by
      rcases hanswered with hreply | hclosed
      · exact hs.answered (Or.inl ((congrFun h.shared.replies d).symm.trans hreply))
      · by_cases hid : d = id
        · subst hid
          have hcall' : call' = .close (.returned none) :=
            Option.some.inj ((update_self _ _ _).symm.trans hclosed)
          cases h with
          | @closeReply error reply =>
            cases error with
            | none => exact hs.answered (Or.inl reply)
            | some error => cases hcall'
          | drained stopped =>
            -- the writer has returned, so the queue is empty
            have hexecuted : s.outcomes c ≠ none := by
              refine hs.delivered.resolve_left ?_
              rw [pending, stopped, hlocking.stopped stopped]
              exact List.not_mem_nil
            exact ⟨hexecuted, fun hadmission henabled => hremembering.persisted hexecuted hadmission
              henabled (hremembers hcall c)⟩
          | _ => cases hcall'
        · refine hs.answered (Or.inr ?_)
          exact (congrFun h.shared.calls d).symm.trans ((update_of_ne _ _ hid).symm.trans hclosed)
    refine ⟨houtcomes ▸ hold.1, fun hadmission henabled => ?_⟩
    rw [executed_moves htracked hcall h hold.1] at hadmission
    rcases hold.2 (hadmission.trans (congrArg some h.shared.epoch))
      (h.shared.enabled.symm.trans henabled) with hcommitted | hsuperseded
    · exact Or.inl (houtcomes ▸ hcommitted)
    · exact Or.inr (hsuperseded.moves htracked hcall h)

theorem Persisted.works (htracked : Tracked s) {tick : Bool} {now : Time} {fault : Fault}
    (h : Works config s tick now fault s') (hepoch : s'.epoch = s.epoch) {c : ℕ}
    (hc : s.Persisted c) : s'.Persisted c := by
  refine hc.imp (fun hcommitted => ?_) fun hsuperseded => hsuperseded.works htracked h hepoch
  rw [executed_works htracked h (hcommitted ▸ nofun)]
  exact hcommitted

theorem Works.enabled {tick : Bool} {now : Time} {fault : Fault}
    (h : Works config s tick now fault s') :
    s'.enabled = s.enabled ∨ ∃ d enabled, s.writer = .enabling d enabled := by
  cases h with
  | enable writer => exact Or.inr ⟨_, _, writer⟩
  | _ => exact Or.inl rfl

theorem Precedes.works {c d : ℕ} (hs : Precedes s c d) (htracked : Tracked s)
    (hordered : Ordered s) (hremembering : Remembering s) {tick : Bool} {now : Time}
    {fault : Fault} (h : Works config s tick now fault s') : Precedes s' c d := by
  obtain ⟨p, t, point, hcall⟩ := hs.capture
  obtain ⟨hcalls, hadmissions⟩ := h.callers
  have hexecuted : ∀ {c : ℕ}, s.outcomes c ≠ none → s'.outcomes c ≠ none := by
    intro c houtcome
    rw [executed_works htracked h houtcome]
    exact houtcome
  refine ⟨⟨p, t, point, (congrFun hcalls c).trans hcall⟩, hs.delivered.works htracked h hcall,
    ?_, ?_⟩
  · intro before command after heq hd
    rcases h.pending with ⟨hsame, -⟩ | ⟨first, -, hpopped, -, hcapture⟩
    · exact (hs.order before command after (hsame.symm.trans heq) hd).imp_right hexecuted
    · rcases hs.order (first :: before) command after (by rw [hpopped, heq]; rfl) hd with
        hmem | houtcome
      · rw [List.map_cons, List.mem_cons] at hmem
        rcases hmem with rfl | hmem
        · -- the capture is the command that is done
          have hsent := htracked.sent first (hpopped ▸ List.mem_cons_self)
          cases first with
          | capture id p t g => exact Or.inr (hcapture id p t g rfl)
          | control id kind =>
            obtain ⟨point', hpoint'⟩ := hsent
            cases hcall.symm.trans hpoint'
          | close id =>
            obtain ⟨point', hpoint'⟩ := hsent
            cases hcall.symm.trans hpoint'
        · exact Or.inl hmem
      · exact Or.inr (hexecuted houtcome)
  · intro hanswered
    -- what was persisted stays so, and no executed capture is of an epoch that begins
    have hlater : s.outcomes c ≠ none →
        (s.admissions c = some s.epoch → s.enabled = true → s.Persisted c) →
        s'.outcomes c ≠ none ∧
          (s'.admissions c = some s'.epoch → s'.enabled = true → s'.Persisted c) := by
      intro houtcome hold
      refine ⟨hexecuted houtcome, fun hadmission henabled => ?_⟩
      rcases h.generation with ⟨-, hepoch⟩ | ⟨-, hepoch⟩
      · have hadmission' : s.admissions c = some s.epoch := by
          rw [← hepoch, ← hadmissions]
          exact hadmission
        rcases h.enabled with hsame | ⟨caller, enabled, hwriter⟩
        · exact (hold hadmission' (hsame.symm.trans henabled)).works htracked h hepoch
        · exact absurd hadmission' (hremembering.enabling caller enabled hwriter c houtcome)
      · exact absurd hadmission (executed_advance hordered h hepoch c)
    by_cases hbefore : s.Answered d
    · exact hlater (hs.answered hbefore).1 (hs.answered hbefore).2
    · have hreplies : s.replies d ≠ some none := fun heq => hbefore (Or.inl heq)
      have hafter : s'.replies d = some none := by
        refine hanswered.resolve_right fun hclosed => hbefore (Or.inr ?_)
        exact (congrFun hcalls d).symm.trans hclosed
      -- the command of `d` is at the writer, so the capture has been executed
      have hfirst : ∀ command, s.writer.command? = some command → command.caller = d →
          s.outcomes c ≠ none := by
        intro command hcommand hd
        refine (hs.order [] command s.commands ?_ hd).resolve_left List.not_mem_nil
        rw [pending, hcommand]
        rfl
      rcases h.answers hreplies hafter with
        ⟨hwriter, hnone⟩ | ⟨hcleared, -, hepoch⟩ | ⟨enabled, hwriter, -⟩
      · have houtcome : s.outcomes c ≠ none := by
          rcases hwriter with hwriter | hwriter <;>
            exact hfirst _ (congrArg Writer.command? hwriter) rfl
        exact hlater houtcome fun hadmission henabled =>
          hremembering.persisted houtcome hadmission henabled (hremembering.lost hnone c)
      · have houtcome := hfirst _ (congrArg Writer.command? hcleared) rfl
        exact ⟨hexecuted houtcome, fun hadmission =>
          absurd hadmission (executed_advance hordered h hepoch c)⟩
      · have houtcome := hfirst _ (congrArg Writer.command? hwriter) rfl
        exact hlater houtcome fun hadmission =>
          absurd hadmission (hremembering.enabling d enabled hwriter c houtcome)

theorem Precedes.step {c d : ℕ} (hs : Precedes s c d) (htracked : Tracked s)
    (hordered : Ordered s) (hlocking : Locking s) (hremembering : Remembering s) {event : Event}
    (hremembers : Remembers config s event) (h : step config s event = some s') :
    Precedes s' c d := by
  cases event with
  | invoke id request =>
    obtain ⟨hid, h⟩ := Option.ite_none_right_eq_some.mp h
    obtain rfl := Option.some.inj h
    obtain ⟨p, t, point, hcall⟩ := hs.capture
    have hne : ∀ i call, s.calls i = some call → i ≠ id := by
      rintro i call hi rfl
      cases hid.symm.trans hi
    refine ⟨⟨p, t, point, (update_of_ne _ _ (hne c _ hcall)).trans hcall⟩, hs.delivered, hs.order,
      fun hanswered => ?_⟩
    have hold : s.Answered d := by
      refine hanswered.imp_right fun hclosed => ?_
      by_cases heq : d = id
      · subst heq
        have hrequest := Option.some.inj ((update_self _ _ _).symm.trans hclosed)
        cases request <;> cases hrequest
      · exact (update_of_ne _ _ heq).symm.trans hclosed
    refine ⟨(hs.answered hold).1, fun hadmission henabled => ?_⟩
    refine ((hs.answered hold).2 hadmission henabled).imp_right ?_
    rintro ⟨k, p, t, point, hk, houtcome, hadmission', p', t', point', hc, hkey, htime⟩
    exact ⟨k, p, t, point, (update_of_ne _ _ (hne k _ hk)).trans hk, houtcome, hadmission',
      p', t', point', (update_of_ne _ _ (hne c _ hc)).trans hc, hkey, htime⟩
  | caller id done =>
    obtain ⟨call, x, call', hcall, hmoves, rfl⟩ := callerStep_moves h
    exact hs.moves htracked hlocking hremembering hremembers hcall hmoves
  | writer tick now fault => exact hs.works htracked hordered hremembering (writerStep_works h)

/-! ### The theorem -/

/-- What holds in every run that forgets nothing. -/
structure Sound (s : Store) : Prop where
  ordered : Ordered s
  tracked : Tracked s
  locking : Locking s
  remembering : Remembering s
  delivering : Delivering s

theorem sound_opened (db : Database) : Sound (Store.opened db) :=
  ⟨ordered_opened db, tracked_opened db, locking_opened db, remembering_opened db,
    fun _ _ _ _ h => nomatch (h : none = some _)⟩

theorem Sound.step (hs : Sound s) {event : Event} (hremembers : Remembers config s event)
    (h : step config s event = some s') : Sound s' :=
  ⟨(hs.ordered.step h).2, hs.tracked.step h, hs.locking.step h,
    hs.remembering.step hs.tracked hs.ordered hremembers h, hs.delivering.step hs.tracked h⟩

/-- **Flush means persisted**: in every run in which no error is forgotten, when a `Flush` or a
`Close` returns `nil`, every capture that had returned `nil` before the call, was admitted in the
current generation and found the history enabled, which it still is, was committed or superseded
by a later observation of the same provider and hour. -/
theorem flush_persisted {db : Database} {before after : List Event} {t : Store} {c d : ℕ}
    {provider : Provider} {observedAt : Time}
    (hbefore : run config (Store.opened db) before = some s)
    (hafter : run config s after = some t)
    (hremembers : Trace.Along (step config) (Remembers config) (Store.opened db)
      (before ++ after))
    (hcapture : s.calls c = some (.capture provider observedAt (.returned .queued)))
    (hcalled : s.calls d = none)
    (hreturned : t.calls d = some (.command .flush (.returned none)) ∨
      t.calls d = some (.close (.returned none)))
    (hadmission : t.admissions c = some t.epoch) (henabled : t.enabled = true) :
    t.Persisted c := by
  obtain ⟨halong, halong'⟩ := Trace.along_append hbefore hremembers
  have hs : Sound s := Trace.run_invariant_along (fun _ _ _ hP hI h => hI.step hP h)
    (sound_opened db) hbefore halong
  -- before the call nothing is known of `d`
  have hidle := hs.tracked.unsent d fun call hcall => nomatch hcalled.symm.trans hcall
  have hprecedes : Precedes s c d := by
    refine ⟨⟨_, _, _, hcapture⟩, hs.delivering c _ _ _ hcapture (Or.inr rfl), ?_, ?_⟩
    · rintro first command rest heq rfl
      refine absurd ?_ hidle.1
      rw [heq, List.map_append, List.map_cons]
      exact List.mem_append_right _ List.mem_cons_self
    · rintro (hreply | hclosed)
      · cases hidle.2.1.symm.trans hreply
      · cases hcalled.symm.trans hclosed
  have ht : Sound t ∧ Precedes t c d := by
    refine Trace.run_invariant_along (P := Remembers config) (I := fun s => Sound s ∧ Precedes s c d)
      ?_ ⟨hs, hprecedes⟩ hafter halong'
    rintro u event v hP ⟨hu, hprecedes⟩ h
    exact ⟨hu.step hP h, hprecedes.step hu.tracked hu.ordered hu.locking hu.remembering hP h⟩
  refine (ht.2.answered ?_).2 hadmission henabled
  exact hreturned.imp_left fun hflush => ht.1.tracked.answered d _ _ hflush (Or.inr rfl)

/-! ### Runs that forget nothing, and runs that do -/

theorem Tracked.outcomes_step (hs : Tracked s) {event : Event}
    (h : Store.step config s event = some s') {c : ℕ} (houtcome : s.outcomes c ≠ none) : s'.outcomes c = s.outcomes c := by
  cases event with
  | invoke id request =>
    obtain ⟨-, h⟩ := Option.ite_none_right_eq_some.mp h
    obtain rfl := Option.some.inj h
    rfl
  | caller id done =>
    obtain ⟨call, x, call', hcall, hmoves, rfl⟩ := callerStep_moves h
    exact congrFun hmoves.shared.outcomes c
  | writer tick now fault => exact executed_works hs (writerStep_works h) houtcome

theorem Tracked.outcomes_run (hs : Tracked s) {events : List Event}
    (hrun : Store.run config s events = some s') {c : ℕ} (houtcome : s.outcomes c ≠ none) :
    s'.outcomes c = s.outcomes c := by
  induction events generalizing s with
  | nil =>
    obtain rfl := Option.some.inj hrun
    rfl
  | cons event events ih =>
    obtain ⟨u, hu, hrest⟩ := Trace.run_cons.mp hrun
    have hsame := hs.outcomes_step hu houtcome
    exact (ih (hs.step hu) hrest (hsame ▸ houtcome)).trans hsame

theorem Tracked.along (hs : Tracked s) {events : List Event}
    (hrun : Store.run config s events = some s') (h : ∀ c, s'.outcomes c ≠ some .failed) :
    Trace.Along (Store.step config) (Remembers config) s events := by
  induction events generalizing s with
  | nil => trivial
  | cons event events ih =>
    obtain ⟨u, hu, hrest⟩ := Trace.run_cons.mp hrun
    refine ⟨?_, fun v hv => ?_⟩
    · have hnone : ∀ c, ¬s.Lost c := by
        intro c hc
        have hlater := hs.outcomes_run hrun (c := c) (hc.1 ▸ nofun)
        exact h c (hlater.trans hc.1)
      cases event with
      | invoke id request => trivial
      | caller id done => exact fun _ => hnone
      | writer tick now fault =>
        exact ⟨fun _ _ _ => hnone, fun _ _ _ _ _ _ _ c hc => absurd hc (hnone c)⟩
    · obtain rfl := Option.some.inj (hu.symm.trans hv)
      exact ih (hs.step hu) hrest

/-- A capture that is queued and returns. -/
def captures (id : ℕ) (provider : Provider) : List Event :=
  .invoke id (.capture provider sampleTime) :: .caller id false :: (captureGoesOn id).take 5 ++
    [.caller id false]

/-- A `Flush` that is executed and returns. -/
def flushes (id : ℕ) : List Event :=
  [.invoke id (.command .flush), .caller id false, .caller id false, .caller id false, work, work,
    .caller id false, .caller id false]

/-- A capture that is committed before a `Flush`. -/
theorem flush_persisted_capture : ∃ s t, run sampleConfig (Store.opened emptyDatabase)
      (captures 0 sampleProvider) = some s ∧
    run sampleConfig s (work :: work :: flushes 2) = some t ∧ t.Persisted 0 := by
  obtain ⟨s, hs, hcalls⟩ := Option.map_eq_some_iff.mp
    (show (run sampleConfig (Store.opened emptyDatabase) (captures 0 sampleProvider)).map
      (fun s => (s.calls 0, s.calls 2)) =
        some (some (.capture sampleProvider sampleTime (.returned .queued)), none) by
      decide +kernel)
  obtain ⟨t, ht, hends⟩ := Option.map_eq_some_iff.mp
    (show (run sampleConfig (Store.opened emptyDatabase)
        (captures 0 sampleProvider ++ work :: work :: flushes 2)).map
      (fun t => (t.outcomes, t.calls 2, t.admissions 0, t.epoch, t.enabled)) =
        some (update (fun _ => none) 0 (some .committed),
          some (.command .flush (.returned none)), some 0, 0, true) by rfl)
  simp only [Prod.mk.injEq] at hcalls hends
  obtain ⟨houtcomes, hflush, hadmission, hepoch, henabled⟩ := hends
  have halong := (tracked_opened emptyDatabase).along ht fun c => by
    rw [houtcomes]
    unfold update
    split <;> nofun
  have hafter : run sampleConfig s (work :: work :: flushes 2) = some t := by
    rw [run, Trace.run_append] at ht
    rw [run] at hs
    rw [hs] at ht
    exact ht
  refine ⟨s, t, hs, hafter, ?_⟩
  exact flush_persisted hs hafter halong hcalls.1 hcalls.2 (Or.inl hflush)
    (hadmission.trans (congrArg some hepoch.symm)) henabled

def cursorProvider : Provider := { id := Json.bytes "cursor", status := Json.bytes "ok" }

/-- The transaction of the writer's command fails. -/
def fail : Event := .writer false sampleTime (.statement .unavailable)

/-- The writer finds the queue empty, and sweeps. -/
def sweeps : List Event := [work, .writer true sampleTime .none]

/-- A `Close` that is executed and returns, and another one that finds the store closed. -/
def closesTwice (first second : ℕ) : List Event :=
  [.invoke first .close, .caller first false, .caller first false, work, work,
    .caller first false, .invoke second .close, .caller second false, .caller second false,
    .caller second false]

/-- The capture `0` is not persisted, and the call `d`, made after it returned, returns `nil`. -/
def Forgets (after : List Event) (d : ℕ) : Prop :=
  ∃ s t, run sampleConfig (Store.opened emptyDatabase) (captures 0 sampleProvider) = some s ∧
    run sampleConfig s after = some t ∧
    s.calls 0 = some (.capture sampleProvider sampleTime (.returned .queued)) ∧
    s.calls d = none ∧
    (t.calls d = some (.command .flush (.returned none)) ∨
      t.calls d = some (.close (.returned none))) ∧
    t.admissions 0 = some t.epoch ∧ t.enabled = true ∧ ¬t.Persisted 0

theorem not_persisted_of_outcomes (hfailed : s.outcomes 0 = some .failed)
    (hcalls : s.calls 0 = some (.capture sampleProvider sampleTime (.returned .queued)))
    (hother : ∀ k p t point, s.outcomes k = some .committed →
      s.calls k = some (.capture p t point) → p = cursorProvider) : ¬s.Persisted 0 := by
  rintro (hcommitted | ⟨k, p, t, point, hk, houtcome, -, p', t', point', hc, hkey, -⟩)
  · cases hfailed.symm.trans hcommitted
  · obtain rfl := hother k p t point houtcome hk
    cases hcalls.symm.trans hc
    have hid : sampleProvider.id = cursorProvider.id := congrArg Key.providerId hkey
    exact absurd hid (by decide)

theorem forgets_of_run {after : List Event} {d : ℕ} {outcomes : ℕ → Option Outcome}
    {call : Option Call} {reply : Call}
    (hbefore : (run sampleConfig (Store.opened emptyDatabase) (captures 0 sampleProvider)).map
      (fun s => (s.calls 0, s.calls d)) =
        some (some (.capture sampleProvider sampleTime (.returned .queued)), none))
    (hafter : (run sampleConfig (Store.opened emptyDatabase) (captures 0 sampleProvider ++ after)).map
      (fun t => (t.outcomes, t.calls 0, t.calls 1, t.calls d, t.admissions 0, t.epoch, t.enabled)) =
        some (outcomes, some (.capture sampleProvider sampleTime (.returned .queued)), call,
          some reply, some 0, 0, true))
    (hreply : reply = .command .flush (.returned none) ∨ reply = .close (.returned none))
    (hfailed : outcomes 0 = some .failed)
    (hother : ∀ k, outcomes k = some .committed →
      k = 1 ∧ ∀ p t point, call = some (.capture p t point) → p = cursorProvider) :
    Forgets after d := by
  obtain ⟨s, hs, hcalls⟩ := Option.map_eq_some_iff.mp hbefore
  obtain ⟨t, ht, hends⟩ := Option.map_eq_some_iff.mp hafter
  simp only [Prod.mk.injEq] at hcalls hends
  obtain ⟨houtcomes, hcapture, hcall, hreturned, hadmission, hepoch, henabled⟩ := hends
  have hafter : run sampleConfig s after = some t := by
    rw [run, Trace.run_append] at ht
    rw [run] at hs
    rw [hs] at ht
    exact ht
  refine ⟨s, t, hs, hafter, hcalls.1, hcalls.2, ?_, ?_, henabled, ?_⟩
  · rcases hreply with rfl | rfl
    · exact Or.inl hreturned
    · exact Or.inr hreturned
  · rw [hadmission, hepoch]
  · refine not_persisted_of_outcomes (by rw [houtcomes, hfailed]) hcapture ?_
    intro k p t' point hcommitted hk
    obtain ⟨rfl, hprovider⟩ := hother k (houtcomes ▸ hcommitted)
    exact hprovider p t' point (hcall.symm.trans hk)

theorem not_committed (k : ℕ) :
    update (fun _ => none) 0 (some Outcome.failed) k ≠ some .committed := by
  unfold update
  split <;> nofun

/-- An error is forgotten when a capture of another provider or a sweep succeeds after it, and by a
second `Close`. -/
theorem flush_forgets :
    Forgets (captures 1 cursorProvider ++ work :: fail :: work :: work :: flushes 2) 2 ∧
      Forgets (work :: fail :: sweeps ++ flushes 1) 1 ∧
      Forgets (work :: fail :: closesTwice 1 2) 2 := by
  refine ⟨?_, ?_, ?_⟩
  · have hends : (run sampleConfig (Store.opened emptyDatabase) (captures 0 sampleProvider ++
        (captures 1 cursorProvider ++ work :: fail :: work :: work :: flushes 2))).map
        (fun t => (t.outcomes, t.calls 0, t.calls 1, t.calls 2, t.admissions 0, t.epoch,
          t.enabled)) =
        some (update (update (fun _ => none) 0 (some .failed)) 1 (some .committed),
          some (.capture sampleProvider sampleTime (.returned .queued)),
          some (.capture cursorProvider sampleTime (.returned .queued)),
          some (.command .flush (.returned none)), some 0, 0, true) := by rfl
    refine forgets_of_run (by decide +kernel) hends (Or.inl rfl) rfl fun k hk => ?_
    refine ⟨?_, fun p t point h => by cases h; rfl⟩
    by_contra hne
    exact not_committed k ((update_of_ne _ _ hne).symm.trans hk)
  · have hends : (run sampleConfig (Store.opened emptyDatabase) (captures 0 sampleProvider ++
        (work :: fail :: sweeps ++ flushes 1))).map
        (fun t => (t.outcomes, t.calls 0, t.calls 1, t.calls 1, t.admissions 0, t.epoch,
          t.enabled)) =
        some (update (fun _ => none) 0 (some .failed),
          some (.capture sampleProvider sampleTime (.returned .queued)),
          some (.command .flush (.returned none)),
          some (.command .flush (.returned none)), some 0, 0, true) := by rfl
    exact forgets_of_run (by decide +kernel) hends (Or.inl rfl) rfl fun k hk =>
      absurd hk (not_committed k)
  · have hends : (run sampleConfig (Store.opened emptyDatabase) (captures 0 sampleProvider ++
        (work :: fail :: closesTwice 1 2))).map
        (fun t => (t.outcomes, t.calls 0, t.calls 1, t.calls 2, t.admissions 0, t.epoch,
          t.enabled)) =
        some (update (fun _ => none) 0 (some .failed),
          some (.capture sampleProvider sampleTime (.returned .queued)),
          some (.close (.returned (some (.database .unavailable)))),
          some (.close (.returned none)), some 0, 0, true) := by rfl
    exact forgets_of_run (by decide +kernel) hends (Or.inr rfl) rfl fun k hk =>
      absurd hk (not_committed k)

end Store

end RlcdDeck.History
