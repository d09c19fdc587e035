import RlcdDeck.AiSnapshot.Store
import Mathlib.Tactic.SplitIfs

/-!
# The live document only gets newer

Only two steps change the live document: an accepted `apply`, which is strictly newer, and the
publication of a recovered record, which is newer or of the same time (`step_live`).  Every
document that gets there has passed `validate`, and of two documents of one time the committed
record is kept, whichever came first (`snapshot_store_monotone`).
-/

namespace RlcdDeck.AiSnapshot

variable {validate : List UInt8 → Except Rejection Metadata}

/-- The time of a document. -/
def Live.time (l : Live) : UInt64 := l.metadata.generatedAtUnixMs

/-! ### Recovery -/

theorem readAttempt_snapshot (attempt : ReadResult) (persisted : TransactionSnapshot)
    (r : RecoveredState) : (readAttempt attempt persisted r).snapshot = r.snapshot := by
  unfold readAttempt
  split
  · split
    · rfl
    · rfl
  · rfl
  · split_ifs
    · rfl
    · rfl

theorem loadAttemptRecord_snapshot (attempt : ReadResult) (persisted : TransactionSnapshot)
    (r : RecoveredState) :
    (loadAttemptRecord validate attempt persisted r).snapshot = r.snapshot := by
  unfold loadAttemptRecord
  dsimp only
  split
  · split
    · split_ifs
      · exact readAttempt_snapshot attempt persisted r
      · exact readAttempt_snapshot attempt persisted r
    · exact readAttempt_snapshot attempt persisted r
  · exact readAttempt_snapshot attempt persisted r

variable {l : Live}

/-- A recovered document has passed `validate`. -/
theorem loadPersistedSnapshot_valid {o : Opened}
    (h : (loadPersistedSnapshot validate o).snapshot = some l) :
    validate l.document = .ok l.metadata := by
  unfold loadPersistedSnapshot at h
  by_cases hallocated : o.allocated = false
  · rw [if_pos hallocated] at h
    cases h
  rw [if_neg hallocated] at h
  cases hpersisted : o.persisted with
  | none =>
    rw [hpersisted] at h
    cases h
  | some persisted =>
    simp only [hpersisted] at h
    cases hactive : persisted.active with
    | none =>
      rw [hactive] at h
      dsimp only at h
      rw [loadAttemptRecord_snapshot] at h
      cases h
    | some active =>
      rw [hactive] at h
      dsimp only at h
      split_ifs at h
      · rw [loadAttemptRecord_snapshot] at h
        cases h
      · cases hvalid : validate active.payload with
        | error rejection =>
          rw [hvalid] at h
          dsimp only at h
          rw [loadAttemptRecord_snapshot] at h
          cases h
        | ok metadata =>
          rw [hvalid] at h
          obtain rfl := Option.some.inj h
          exact hvalid

theorem openWorkerStorage_valid {opened : Option Opened}
    (h : (openWorkerStorage validate opened).1.snapshot = some l) :
    validate l.document = .ok l.metadata := by
  cases opened with
  | none => cases h
  | some o => exact loadPersistedSnapshot_valid h

variable {s t : Store}

namespace Store

/-! ### What changes the live document -/

/-- The record the worker is about to publish. -/
def recovered? (s : Store) : Option Live :=
  match s.worker with
  | .publishing r _ | .republishing _ r _ => r.snapshot
  | _ => none

/-- The parts of the store that the claims speak of stay. -/
def SameLive (s t : Store) : Prop :=
  t.live = s.live ∧ t.committed = s.committed

theorem queueCurrentCheckpoint_sameLive (s : Store) : SameLive s s.queueCurrentCheckpoint.2 := by
  unfold queueCurrentCheckpoint
  split
  · exact ⟨rfl, rfl⟩
  · split_ifs
    · exact ⟨rfl, rfl⟩
    · exact ⟨rfl, rfl⟩

theorem finishCheckpoint_sameLive (s : Store) (checkpoint : Checkpoint) (ok : Bool)
    (status : Option TransactionSnapshot) : SameLive s (s.finishCheckpoint checkpoint ok status) := by
  unfold finishCheckpoint
  cases status with
  | none =>
    dsimp only
    split
    · exact ⟨rfl, rfl⟩
    · exact ⟨rfl, rfl⟩
  | some persisted =>
    dsimp only
    split
    · exact ⟨rfl, rfl⟩
    · exact ⟨rfl, rfl⟩

theorem takeWork_sameLive (s : Store) : SameLive s s.takeWork := by
  unfold takeWork
  split
  · exact ⟨rfl, rfl⟩
  · split
    · exact ⟨rfl, rfl⟩
    · exact ⟨rfl, rfl⟩

theorem publishRecovered_live (s : Store) (recovered : RecoveredState) (opened : Bool) :
    SameLive s (s.publishRecovered recovered opened) ∨
      ∃ c, recovered.snapshot = some c ∧
        (s.publishRecovered recovered opened).live =
          (if authoritative c s.live then some c else s.live) ∧
        (s.publishRecovered recovered opened).committed = some c := by
  unfold publishRecovered
  cases opened with
  | false => exact .inl ⟨rfl, rfl⟩
  | true =>
    dsimp only
    rw [if_neg (by simp)]
    cases hsnapshot : recovered.snapshot with
    | none => exact .inl ⟨rfl, rfl⟩
    | some c => exact .inr ⟨c, rfl, rfl, rfl⟩

/-- There is no document at or after `time`. -/
def olderThan (live : Option Live) (time : UInt64) : Bool :=
  match live with
  | none => true
  | some l => l.time < time

/-- A candidate that is not from the future replaces an older document. -/
theorem applyCandidate_live (s : Store) (document : List UInt8) (candidate : Metadata)
    (trustedUtcMs : UInt64) :
    (s.applyCandidate document candidate trustedUtcMs).2.live =
        (if candidate.generatedAtUnixMs ≤ trustedUtcMs ∧
            olderThan s.live candidate.generatedAtUnixMs = true then some ⟨document, candidate⟩
          else s.live) ∧
      (s.applyCandidate document candidate trustedUtcMs).2.committed = s.committed := by
  unfold applyCandidate
  extract_lets t replace
  have replaced : replace.2.live = some ⟨document, candidate⟩ ∧
      replace.2.committed = s.committed := by
    have hsame := queueCurrentCheckpoint_sameLive t
    unfold replace
    generalize t.queueCurrentCheckpoint = q at *
    obtain ⟨queued, t⟩ := q
    cases queued with
    | true => exact hsame
    | false => exact hsame
  by_cases hfuture : trustedUtcMs < candidate.generatedAtUnixMs
  · rw [if_pos hfuture, if_neg fun hno => UInt64.not_le.mpr hfuture hno.1]
    exact ⟨rfl, rfl⟩
  rw [if_neg hfuture]
  have hpast := UInt64.not_lt.mp hfuture
  cases hlive : s.live with
  | none =>
    rw [if_pos ⟨hpast, rfl⟩]
    exact replaced
  | some live =>
    dsimp only
    by_cases hnewer : live.metadata.generatedAtUnixMs < candidate.generatedAtUnixMs
    · rw [if_neg fun hold => UInt64.not_lt.mpr (UInt64.le_of_lt hnewer) hold,
        if_neg fun heq => UInt64.ne_of_lt hnewer heq.symm,
        if_pos ⟨hpast, decide_eq_true hnewer⟩]
      exact replaced
    · have hkept : ¬(candidate.generatedAtUnixMs ≤ trustedUtcMs ∧
          olderThan (some live) candidate.generatedAtUnixMs = true) :=
        fun hno => hnewer (of_decide_eq_true hno.2)
      simp only [if_neg hkept]
      split_ifs with hold hsame hdocument
      · exact ⟨hlive, rfl⟩
      · exact ⟨hlive, rfl⟩
      · exact ⟨hlive, rfl⟩
      · have hle := UInt64.not_lt.mp hold
        rcases UInt64.lt_or_eq_of_le hle with hlt | heq
        · exact absurd hlt hnewer
        · exact absurd heq.symm hsame

/-- The clock and the candidate's own time let an `apply` through. -/
def clockAccepts (s : Store) (candidate : Metadata) (trustedUtcMs : UInt64) : Bool :=
  (observeClock s.applyUtcHighWaterMs s.applyClockRollbackLatched trustedUtcMs).1 = .valid &&
    candidate.generatedAtUnixMs ≤ trustedUtcMs

/-- The live document after an `apply`. -/
theorem apply_live {s : Store} {document : List UInt8} {candidate : Metadata}
    (hvalid : validate document = .ok candidate) (trustedUtcMs : UInt64) :
    (s.apply validate document trustedUtcMs).2.live =
        (if s.clockAccepts candidate trustedUtcMs = true ∧
            olderThan s.live candidate.generatedAtUnixMs = true then some ⟨document, candidate⟩
          else s.live) ∧
      (s.apply validate document trustedUtcMs).2.committed = s.committed := by
  unfold apply clockAccepts
  rw [hvalid]
  dsimp only
  split
  · next hclock =>
    rw [hclock]
    exact ⟨rfl, rfl⟩
  · next hclock =>
    rw [hclock]
    exact ⟨rfl, rfl⟩
  · next hclock =>
    rw [hclock]
    obtain ⟨hlive, hcommitted⟩ := applyCandidate_live
      { s with
        applyUtcHighWaterMs :=
          (observeClock s.applyUtcHighWaterMs s.applyClockRollbackLatched trustedUtcMs).2.1
        applyClockRollbackLatched :=
          (observeClock s.applyUtcHighWaterMs s.applyClockRollbackLatched trustedUtcMs).2.2 }
      document candidate trustedUtcMs
    refine ⟨hlive.trans ?_, hcommitted⟩
    simp

/-- What a step can do to the live document. -/
inductive Change (validate : List UInt8 → Except Rejection Metadata) (s t : Store) : Prop where
  | none (same : SameLive s t)
  /-- An accepted document is newer. -/
  | applied (l : Live) (valid : validate l.document = .ok l.metadata)
      (newer : ∀ old, s.live = some old → old.time < l.time) (live : t.live = some l)
      (committed : t.committed = s.committed)
  /-- A recovered record is published. -/
  | published (c : Live) (recovered : s.recovered? = some c)
      (live : t.live = if authoritative c s.live then some c else s.live)
      (committed : t.committed = some c)

theorem apply_change (s : Store) (document : List UInt8) (trustedUtcMs : UInt64) :
    Change validate s (s.apply validate document trustedUtcMs).2 := by
  cases hvalid : validate document with
  | error rejection =>
    unfold apply
    rw [hvalid]
    exact .none ⟨rfl, rfl⟩
  | ok candidate =>
    obtain ⟨hlive, hcommitted⟩ := @apply_live validate s _ _ hvalid trustedUtcMs
    split_ifs at hlive with haccepted
    · refine .applied ⟨document, candidate⟩ hvalid (fun old hold => ?_) hlive hcommitted
      have holder := haccepted.2
      rw [hold] at holder
      exact of_decide_eq_true holder
    · exact .none ⟨hlive, hcommitted⟩

theorem copy_sameLive (s : Store) (nowUtcMs : UInt64) (companionOnline : Bool) (capacity : ℕ) :
    SameLive s (s.copy nowUtcMs companionOnline capacity).2 := by
  unfold copy
  split
  · exact ⟨rfl, rfl⟩
  · dsimp only
    split
    · split
      · exact ⟨rfl, rfl⟩
      · exact ⟨rfl, rfl⟩
    · exact ⟨rfl, rfl⟩

theorem published_change (recovered : RecoveredState) (opened : Bool)
    (hrecovered : s.recovered? = recovered.snapshot)
    (hsame : SameLive (s.publishRecovered recovered opened) t) : Change validate s t := by
  obtain ⟨hlive, hcommitted⟩ | ⟨c, hc, hlive, hcommitted⟩ :=
    publishRecovered_live s recovered opened
  · exact .none ⟨hsame.1.trans hlive, hsame.2.trans hcommitted⟩
  · exact .published c (hrecovered.trans hc) (hsame.1.trans hlive) (hsame.2.trans hcommitted)

theorem workerStep_change (s : Store) (answers : Answers) :
    Change validate s (s.workerStep validate answers) := by
  unfold workerStep
  split
  · exact .none ⟨rfl, rfl⟩
  · next recovered opened hworker =>
    refine published_change recovered opened (by rw [recovered?, hworker]) ?_
    obtain ⟨hlive, hcommitted⟩ := queueCurrentCheckpoint_sameLive
      { s.publishRecovered recovered opened with workerBusy := false }
    exact ⟨hlive, hcommitted⟩
  · exact .none (takeWork_sameLive s)
  · exact .none ⟨rfl, rfl⟩
  · next checkpoint recovered opened hworker =>
    refine published_change recovered opened (by rw [recovered?, hworker]) ?_
    dsimp only
    split
    · obtain ⟨hlive, hcommitted⟩ := queueCurrentCheckpoint_sameLive
        { s.publishRecovered recovered opened with workerBusy := false }
      exact ⟨hlive, hcommitted⟩
    · exact ⟨rfl, rfl⟩
  · exact .none ⟨rfl, rfl⟩
  · exact .none (finishCheckpoint_sameLive s _ _ _)
  · exact .none ⟨rfl, rfl⟩
  · exact .none ⟨rfl, rfl⟩

theorem step_live (s : Store) (e : Event) : Change validate s (s.step validate e) := by
  cases e with
  | apply document trustedUtcMs => exact apply_change s document trustedUtcMs
  | copy nowUtcMs companionOnline capacity =>
    exact .none (copy_sameLive s nowUtcMs companionOnline capacity)
  | takeStorageFailure => exact .none ⟨rfl, rfl⟩
  | worker answers => exact workerStep_change s answers
  | stop =>
    unfold step
    dsimp only
    split
    · exact .none ⟨rfl, rfl⟩
    · exact .none ⟨rfl, rfl⟩

/-! ### What the worker carries -/

theorem queueCurrentCheckpoint_worker (s : Store) : s.queueCurrentCheckpoint.2.worker = s.worker := by
  unfold queueCurrentCheckpoint
  split
  · rfl
  · split_ifs
    · rfl
    · rfl

/-- A candidate leaves the store as it is, or it replaces the live document. -/
theorem applyCandidate_or (s : Store) (document : List UInt8) (candidate : Metadata)
    (trustedUtcMs : UInt64) :
    (s.applyCandidate document candidate trustedUtcMs).2 = s ∨
      (s.applyCandidate document candidate trustedUtcMs).2 =
        (s.accept document candidate trustedUtcMs).queueCurrentCheckpoint.2 := by
  unfold applyCandidate
  extract_lets t replace
  have replaced : replace.2 = t.queueCurrentCheckpoint.2 := by
    unfold replace
    generalize t.queueCurrentCheckpoint = q
    obtain ⟨queued, t⟩ := q
    cases queued with
    | true => rfl
    | false => rfl
  split_ifs
  · exact .inl rfl
  split
  · exact .inr replaced
  · split_ifs
    · exact .inl rfl
    · exact .inl rfl
    · exact .inl rfl
    · exact .inr replaced

theorem applyCandidate_worker (s : Store) (document : List UInt8) (candidate : Metadata)
    (trustedUtcMs : UInt64) :
    (s.applyCandidate document candidate trustedUtcMs).2.worker = s.worker := by
  rcases applyCandidate_or s document candidate trustedUtcMs with h | h
  · rw [h]
  · rw [h, queueCurrentCheckpoint_worker]
    rfl

theorem apply_worker (s : Store) (document : List UInt8) (trustedUtcMs : UInt64) :
    (s.apply validate document trustedUtcMs).2.worker = s.worker := by
  unfold apply
  split
  · rfl
  · dsimp only
    split
    · rfl
    · rfl
    · exact applyCandidate_worker _ _ _ _

theorem copy_worker (s : Store) (nowUtcMs : UInt64) (companionOnline : Bool) (capacity : ℕ) :
    (s.copy nowUtcMs companionOnline capacity).2.worker = s.worker := by
  unfold copy
  split
  · rfl
  · dsimp only
    split
    · split
      · rfl
      · rfl
    · rfl

theorem recovered?_congr (h : t.worker = s.worker) : t.recovered? = s.recovered? := by
  unfold recovered?
  rw [h]

theorem takeWork_recovered? (s : Store) (h : s.worker = .waiting) :
    s.takeWork.recovered? = none := by
  unfold takeWork
  split
  · unfold recovered?
    dsimp only
    split
    · next hworker => split at hworker <;> cases hworker
    · next hworker => split at hworker <;> cases hworker
    · rfl
  · split
    · rfl
    · rw [recovered?, h]

theorem workerStep_recovered? {answers : Answers}
    (h : (s.workerStep validate answers).recovered? = some l) :
    s.recovered? = some l ∨ validate l.document = .ok l.metadata := by
  unfold workerStep at h
  split at h
  · exact .inr (openWorkerStorage_valid h)
  · cases h
  · next hworker =>
    rw [takeWork_recovered? s hworker] at h
    cases h
  · exact .inr (openWorkerStorage_valid h)
  · dsimp only at h
    split at h
    · cases h
    · cases h
  · cases h
  · cases h
  · cases h
  · exact .inl h

theorem step_recovered? {e : Event} (h : (s.step validate e).recovered? = some l) :
    s.recovered? = some l ∨ validate l.document = .ok l.metadata := by
  cases e with
  | apply document trustedUtcMs =>
    exact .inl ((recovered?_congr (apply_worker s document trustedUtcMs)).symm.trans h)
  | copy nowUtcMs companionOnline capacity =>
    exact .inl ((recovered?_congr (copy_worker s nowUtcMs companionOnline capacity)).symm.trans h)
  | takeStorageFailure => exact .inl h
  | worker answers => exact workerStep_recovered? h
  | stop =>
    unfold step at h
    dsimp only at h
    split at h
    · exact .inl h
    · exact .inl h

/-! ### The invariant -/

structure Inv (validate : List UInt8 → Except Rejection Metadata) (s : Store) : Prop where
  live : ∀ l, s.live = some l → validate l.document = .ok l.metadata
  recovered : ∀ l, s.recovered? = some l → validate l.document = .ok l.metadata
  /-- The live document is not older than the committed record, and is that record if it is of
  the same time. -/
  committed : ∀ c, s.committed = some c →
    ∃ l, s.live = some l ∧ c.time ≤ l.time ∧ (c.time = l.time → l.document = c.document)

/-- The live document of `t` is not older than that of `s`. -/
def NotOlder (s t : Store) : Prop :=
  ∀ l, s.live = some l → ∃ l', t.live = some l' ∧ l.time ≤ l'.time

theorem published_live (c : Live) (live : Option Live) :
    ((if authoritative c live then some c else live) = some c ∧
        ∀ old, live = some old → old.time ≤ c.time) ∨
      ∃ l, live = some l ∧ (if authoritative c live then some c else live) = some l ∧
        (c.time < l.time ∨ (c.time = l.time ∧ l.document = c.document)) := by
  cases live with
  | none => exact .inl ⟨rfl, fun old hold => by cases hold⟩
  | some l =>
    by_cases h : authoritative c (some l) = true
    · rw [if_pos h]
      refine .inl ⟨rfl, fun old hold => ?_⟩
      obtain rfl := Option.some.inj hold
      simp only [authoritative, Bool.or_eq_true, Bool.and_eq_true, decide_eq_true_eq] at h
      rcases h with hlt | ⟨heq, -⟩
      · exact UInt64.le_of_lt hlt
      · exact UInt64.le_of_eq heq.symm
    · rw [if_neg h]
      refine .inr ⟨l, rfl, rfl, ?_⟩
      simp only [authoritative, Bool.or_eq_true, Bool.and_eq_true, decide_eq_true_eq, not_or,
        not_and, not_not] at h
      obtain ⟨hold, hsame⟩ := h
      have hle : c.time ≤ l.time := UInt64.not_lt.mp hold
      rcases UInt64.lt_or_eq_of_le hle with hlt | heq
      · exact .inl hlt
      · exact .inr ⟨heq, (hsame heq).symm⟩

theorem inv_change (h : Inv validate s) (hchange : Change validate s t)
    (hrecovered : ∀ l, t.recovered? = some l →
      s.recovered? = some l ∨ validate l.document = .ok l.metadata) :
    Inv validate t ∧ NotOlder s t := by
  have hcarried : ∀ l, t.recovered? = some l → validate l.document = .ok l.metadata := by
    intro l hl
    rcases hrecovered l hl with hold | hvalid
    · exact h.recovered l hold
    · exact hvalid
  cases hchange with
  | none same =>
    refine ⟨⟨?_, hcarried, ?_⟩, fun l hl => ⟨l, same.1.trans hl, UInt64.le_refl _⟩⟩
    · rw [same.1]
      exact h.live
    · rw [same.1, same.2]
      exact h.committed
  | applied l valid newer live committed =>
    refine ⟨⟨fun x hx => ?_, hcarried, fun c hc => ?_⟩,
      fun old hold => ⟨l, live, UInt64.le_of_lt (newer old hold)⟩⟩
    · obtain rfl := Option.some.inj (live.symm.trans hx)
      exact valid
    · obtain ⟨old, hold, hle, -⟩ := h.committed c (committed.symm.trans hc)
      have hlt := UInt64.lt_of_le_of_lt hle (newer old hold)
      exact ⟨l, live, UInt64.le_of_lt hlt, fun heq => absurd hlt (heq ▸ UInt64.lt_irrefl _)⟩
  | published c recovered live committed =>
    have hvalid := h.recovered c recovered
    rcases published_live c s.live with ⟨hnew, hold⟩ | ⟨l, hl, hkept, htime⟩
    · rw [hnew] at live
      refine ⟨⟨fun x hx => ?_, hcarried, fun d hd => ?_⟩,
        fun old ho => ⟨c, live, hold old ho⟩⟩
      · obtain rfl := Option.some.inj (live.symm.trans hx)
        exact hvalid
      · obtain rfl := Option.some.inj (committed.symm.trans hd)
        exact ⟨c, live, UInt64.le_refl _, fun _ => rfl⟩
    · rw [hkept] at live
      refine ⟨⟨fun x hx => ?_, hcarried, fun d hd => ?_⟩, fun old hold => ⟨l, live, ?_⟩⟩
      · obtain rfl := Option.some.inj (live.symm.trans hx)
        exact h.live l hl
      · obtain rfl := Option.some.inj (committed.symm.trans hd)
        refine ⟨l, live, ?_, fun heq => ?_⟩
        · rcases htime with hlt | ⟨heq, -⟩
          · exact UInt64.le_of_lt hlt
          · rw [heq]
            exact UInt64.le_refl _
        · rcases htime with hlt | ⟨-, hdoc⟩
          · exact absurd hlt (heq ▸ UInt64.lt_irrefl _)
          · exact hdoc
      · obtain rfl := Option.some.inj (hl.symm.trans hold)
        exact UInt64.le_refl _

theorem inv_step (h : Inv validate s) (e : Event) :
    Inv validate (s.step validate e) ∧ NotOlder s (s.step validate e) :=
  inv_change h (step_live s e) fun _ hl => step_recovered? hl

theorem inv_run {s : Store} (h : Inv validate s) (events : List Event) :
    Inv validate (s.run validate events) ∧ NotOlder s (s.run validate events) := by
  induction events generalizing s with
  | nil => exact ⟨h, fun l hl => ⟨l, hl, UInt64.le_refl _⟩⟩
  | cons e events ih =>
    obtain ⟨hinv, hstep⟩ := inv_step h e
    obtain ⟨hrun, hrest⟩ := ih hinv
    refine ⟨hrun, fun l hl => ?_⟩
    obtain ⟨l₁, hl₁, hle₁⟩ := hstep l hl
    obtain ⟨l₂, hl₂, hle₂⟩ := hrest l₁ hl₁
    exact ⟨l₂, hl₂, UInt64.le_trans hle₁ hle₂⟩

theorem inv_create (configured started : Bool) : Inv validate (create configured started) := by
  have hempty : (create configured started).live = none ∧
      (create configured started).recovered? = none ∧
      (create configured started).committed = none := by
    cases configured
    · exact ⟨rfl, rfl, rfl⟩
    · cases started
      · exact ⟨rfl, rfl, rfl⟩
      · exact ⟨rfl, rfl, rfl⟩
  obtain ⟨hlive, hrecovered, hcommitted⟩ := hempty
  refine ⟨fun l hl => ?_, fun l hl => ?_, fun c hc => ?_⟩
  · rw [hlive] at hl
    cases hl
  · rw [hrecovered] at hl
    cases hl
  · rw [hcommitted] at hc
    cases hc

/-! ### Documents of the same time -/

theorem publishRecovered_clockAccepts (s : Store) (recovered : RecoveredState) (opened : Bool)
    (candidate : Metadata) (trustedUtcMs : UInt64) :
    (s.publishRecovered recovered opened).clockAccepts candidate trustedUtcMs =
      s.clockAccepts candidate trustedUtcMs := by
  unfold publishRecovered
  dsimp only
  split
  · rfl
  · split
    · rfl
    · rfl

theorem publishRecovered_opened {recovered : RecoveredState} {c : Live}
    (h : recovered.snapshot = some c) :
    (s.publishRecovered recovered true).live =
      if authoritative c s.live then some c else s.live := by
  unfold publishRecovered
  dsimp only
  rw [if_neg (by simp), h]

/-- A document of the record's own time and the record, in either order: the record is kept. -/
theorem apply_publish_comm {recovered : RecoveredState} {c : Live}
    (hrecovered : recovered.snapshot = some c) (hvalid : validate c.document = .ok c.metadata)
    {document : List UInt8} {candidate : Metadata}
    (hcandidate : validate document = .ok candidate)
    (htime : candidate.generatedAtUnixMs = c.time) (trustedUtcMs : UInt64) :
    ((s.apply validate document trustedUtcMs).2.publishRecovered recovered true).live =
      ((s.publishRecovered recovered true).apply validate document trustedUtcMs).2.live := by
  rw [publishRecovered_opened hrecovered, (apply_live hcandidate trustedUtcMs).1,
    (apply_live hcandidate trustedUtcMs).1, publishRecovered_clockAccepts,
    publishRecovered_opened hrecovered]
  by_cases hclock : s.clockAccepts candidate trustedUtcMs = false
  · rw [hclock]
    simp
  have haccepts : s.clockAccepts candidate trustedUtcMs = true := by simpa using hclock
  by_cases holder : olderThan s.live candidate.generatedAtUnixMs = true
  · -- the record comes second and replaces the document, or first and refuses it
    have hfirst : (if authoritative c s.live then some c else s.live) = some c := by
      rcases published_live c s.live with ⟨hnew, -⟩ | ⟨l, hl, -, hnewer⟩
      · exact hnew
      · rw [hl] at holder
        have hlt : l.time < c.time := htime ▸ of_decide_eq_true holder
        rcases hnewer with hno | ⟨heq, -⟩
        · exact absurd hlt (UInt64.not_lt.mpr (UInt64.le_of_lt hno))
        · exact absurd hlt (heq ▸ UInt64.lt_irrefl _)
    have hrefused : ¬olderThan (some c) candidate.generatedAtUnixMs = true := by
      intro hno
      rw [htime] at hno
      exact UInt64.lt_irrefl _ (of_decide_eq_true hno)
    have hfirstRefused : ¬(s.clockAccepts candidate trustedUtcMs = true ∧
        olderThan (some c) candidate.generatedAtUnixMs = true) := fun hno => hrefused hno.2
    have hsecond : s.clockAccepts candidate trustedUtcMs = true ∧
        olderThan s.live candidate.generatedAtUnixMs = true := ⟨haccepts, holder⟩
    simp only [if_pos hsecond, hfirst, if_neg hfirstRefused]
    rcases published_live c (some ⟨document, candidate⟩) with ⟨hnew, -⟩ | ⟨l, hl, hkept, hcase⟩
    · exact hnew
    · obtain rfl := Option.some.inj hl
      rcases hcase with hlt | ⟨-, hdocument⟩
      · exact absurd hlt (htime ▸ UInt64.lt_irrefl _)
      · dsimp only at hdocument
        subst hdocument
        rw [hvalid] at hcandidate
        obtain rfl := Except.ok.inj hcandidate
        exact hkept
  · -- a live document that is not older keeps the candidate out in both orders
    have hkept : ¬(s.clockAccepts candidate trustedUtcMs = true ∧
        olderThan s.live candidate.generatedAtUnixMs = true) := fun hno => holder hno.2
    have hlater : ¬olderThan (if authoritative c s.live then some c else s.live)
        candidate.generatedAtUnixMs = true := by
      rcases published_live c s.live with ⟨hnew, -⟩ | ⟨l, hl, hsame, -⟩
      · rw [hnew]
        intro hno
        rw [htime] at hno
        exact UInt64.lt_irrefl _ (of_decide_eq_true hno)
      · rw [hsame, ← hl]
        exact holder
    have hkept' : ¬(s.clockAccepts candidate trustedUtcMs = true ∧
        olderThan (if authoritative c s.live then some c else s.live)
          candidate.generatedAtUnixMs = true) := fun hno => hlater hno.2
    rw [if_neg hkept', if_neg hkept]

/-- **Monotonicity of the snapshot store**: over every interleaving of calls and worker steps,
with any answer of the flash, the live document never gets older and has always passed
`validate`; a live document of the same time as the record published last is that record; and a
document and a record of the same time leave the same live document in either order, the record's
unless a newer document is there. -/
theorem snapshot_store_monotone (validate : List UInt8 → Except Rejection Metadata)
    (configured started : Bool) (events later : List Event) :
    let s := run validate (create configured started) events
    (∀ l, s.live = some l →
        ∃ l', (run validate s later).live = some l' ∧ l.time ≤ l'.time) ∧
      (∀ l, s.live = some l → validate l.document = .ok l.metadata) ∧
      (∀ c l, s.committed = some c → s.live = some l → c.time = l.time →
        l.document = c.document) ∧
      ∀ (o : Opened) (c : Live) (document : List UInt8) (candidate : Metadata)
        (trustedUtcMs : UInt64),
        (loadPersistedSnapshot validate o).snapshot = some c →
        validate document = .ok candidate → candidate.generatedAtUnixMs = c.time →
        let recovered := loadPersistedSnapshot validate o
        let live := ((s.apply validate document trustedUtcMs).2.publishRecovered recovered true).live
        live = ((s.publishRecovered recovered true).apply validate document trustedUtcMs).2.live ∧
          ∃ l, live = some l ∧ (c.time < l.time ∨ l.document = c.document) := by
  intro s
  obtain ⟨hinv, -⟩ := inv_run (@inv_create validate configured started) events
  refine ⟨(inv_run hinv later).2, hinv.live, fun c l hc hl heq => ?_, ?_⟩
  · obtain ⟨l', hl', -, hsame⟩ := hinv.committed c hc
    obtain rfl := Option.some.inj (hl.symm.trans hl')
    exact hsame heq
  · intro o c document candidate trustedUtcMs hc hcandidate htime recovered live
    refine ⟨apply_publish_comm hc (loadPersistedSnapshot_valid hc) hcandidate htime _, ?_⟩
    have hlive : live = if authoritative c (s.apply validate document trustedUtcMs).2.live
        then some c else (s.apply validate document trustedUtcMs).2.live :=
      publishRecovered_opened hc
    rcases published_live c (s.apply validate document trustedUtcMs).2.live with
      ⟨hnew, -⟩ | ⟨l, -, hkept, hcase⟩
    · exact ⟨c, hlive.trans hnew, .inr rfl⟩
    · refine ⟨l, hlive.trans hkept, ?_⟩
      rcases hcase with hlt | ⟨-, hdocument⟩
      · exact .inl hlt
      · exact .inr hdocument

/-- Documents of two bytes, the first of which is their time. -/
def twoBytes : List UInt8 → Except Rejection Metadata
  | [time, _] => .ok ⟨0, time.toUInt64, 0, 0, 0⟩
  | _ => .error .malformed

/-- The flash answers with a committed record. -/
def recoveredAnswers (payload : List UInt8) : Answers :=
  { opened := some ⟨true, some ⟨.valid, .empty, some ⟨payload, 1⟩, none, false⟩, .notFound⟩
    wroteAttempt := true
    staged := true
    committed := true
    status := none }

/-- A document that is applied before the record of the same time is recovered gives way to it. -/
theorem snapshot_store_monotone_conflict :
    let s := run twoBytes (create true true)
      [.apply [5, 1] 10, .worker (recoveredAnswers [5, 2]), .worker (recoveredAnswers [5, 2])]
    s.committed = some ⟨[5, 2], ⟨0, 5, 0, 0, 0⟩⟩ ∧
      ∀ l, s.live = some l → l.time = 5 → l.document = [5, 2] := by
  intro s
  have hcommitted : s.committed = some ⟨[5, 2], ⟨0, 5, 0, 0, 0⟩⟩ := by decide
  refine ⟨hcommitted, fun l hl htime => ?_⟩
  exact (snapshot_store_monotone twoBytes true true
    [.apply [5, 1] 10, .worker (recoveredAnswers [5, 2]), .worker (recoveredAnswers [5, 2])]
    []).2.2.1 _ l hcommitted hl htime.symm

end Store

end RlcdDeck.AiSnapshot
