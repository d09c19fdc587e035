import RlcdDeck.AiSnapshot.Attempts
import RlcdDeck.AiSnapshot.Equiv.Store

/-!
# The flash attempts of the store keep their distance

Between two attempts the store relies on one watermark: the time of the last attempt, or, when
that is unknown, the time from which it waits.  The watermark covers the last attempt (`Covers`)
whenever a checkpoint may be queued, so that a queued checkpoint is the persistence interval later
(`Ready`).  The worker carries this from step to step (`Phase`).

Two steps can lose the watermark, and then an attempt can follow too early
(`attempts_not_spaced`): a recovery that read an older watermark replaces the one in memory, and
an attempt that fails after such a recovery does not put it back.  In every run without such a step
the attempts are spaced (`attempts_spaced`).
-/

namespace RlcdDeck.AiSnapshot

variable {validate : List UInt8 → Except Rejection Metadata}

/-! ### Elapsed time -/

variable {newer older interval : UInt64}

theorem elapsedAtLeast_iff :
    elapsedAtLeast newer older interval = true ↔
      older.toNat + interval.toNat ≤ newer.toNat := by
  have hinterval := interval.toNat_lt
  rw [elapsedAtLeast, Bool.and_eq_true, decide_eq_true_eq, decide_eq_true_eq]
  constructor
  · rintro ⟨hle, hdifference⟩
    rw [UInt64.le_iff_toNat_le, UInt64.toNat_sub_of_le _ _ hle] at hdifference
    rw [UInt64.le_iff_toNat_le] at hle
    omega
  · intro h
    have hle : older ≤ newer := by
      rw [UInt64.le_iff_toNat_le]
      omega
    refine ⟨hle, ?_⟩
    rw [UInt64.le_iff_toNat_le, UInt64.toNat_sub_of_le _ _ hle]
    omega

theorem elapsedAtLeast_of_le {older' : UInt64} (hle : older ≤ older')
    (h : elapsedAtLeast newer older' interval = true) :
    elapsedAtLeast newer older interval = true := by
  rw [elapsedAtLeast_iff] at h ⊢
  rw [UInt64.le_iff_toNat_le] at hle
  omega

theorem le_of_elapsedAtLeast (h : elapsedAtLeast newer older interval = true) : older ≤ newer := by
  rw [elapsedAtLeast_iff] at h
  rw [UInt64.le_iff_toNat_le]
  omega

theorem eq_zero_of_le_zero {a : UInt64} (h : a ≤ 0) : a = 0 := by
  rw [UInt64.le_iff_toNat_le] at h
  apply UInt64.toNat_inj.mp
  exact Nat.le_zero.mp h

/-! ### Recovery -/

/-- A recovered document comes with a watermark. -/
def RecoveredState.Timed (r : RecoveredState) : Prop :=
  r.snapshot.isSome → r.attemptWatermarkUnknown = true ∨ r.lastPersistAttemptUtcMs ≠ 0

theorem readAttempt_timed (attempt : ReadResult) {persisted : TransactionSnapshot}
    (hactive : persisted.active.isSome) (r : RecoveredState) :
    (readAttempt attempt persisted r).attemptWatermarkUnknown = true ∨
      (readAttempt attempt persisted r).lastPersistAttemptUtcMs ≠ 0 := by
  unfold readAttempt
  split
  · next record =>
    split
    · exact .inl rfl
    · next attemptUtcMs generated hdecoded =>
      refine .inr ?_
      show attemptUtcMs ≠ 0
      unfold decodeAttemptRecord at hdecoded
      dsimp only at hdecoded
      split_ifs at hdecoded with hformat hzero
      obtain ⟨rfl, -⟩ := Prod.mk.inj (Option.some.inj hdecoded)
      exact fun h => hzero (.inl h)
  · exact .inl rfl
  · rw [if_pos (.inl hactive)]
    exact .inl rfl

theorem loadAttemptRecord_timed (attempt : ReadResult) {persisted : TransactionSnapshot}
    (hactive : persisted.active.isSome) (r : RecoveredState) :
    (loadAttemptRecord validate attempt persisted r).attemptWatermarkUnknown = true ∨
      (loadAttemptRecord validate attempt persisted r).lastPersistAttemptUtcMs ≠ 0 := by
  have hread := readAttempt_timed attempt hactive r
  unfold loadAttemptRecord
  dsimp only
  split
  · split
    · split_ifs with hlater
      · refine .inr fun hzero => ?_
        dsimp only at hzero
        rw [hzero, UInt64.lt_iff_toNat_lt] at hlater
        exact Nat.not_lt_zero _ hlater
      · exact hread
    · exact hread
  · exact hread

theorem loadPersistedSnapshot_timed (o : Opened) : (loadPersistedSnapshot validate o).Timed := by
  intro hsome
  unfold loadPersistedSnapshot at hsome ⊢
  by_cases hallocated : o.allocated = false
  · rw [if_pos hallocated] at hsome
    exact absurd hsome Bool.false_ne_true
  rw [if_neg hallocated] at hsome ⊢
  match hpersisted : o.persisted with
  | none =>
    rw [hpersisted] at hsome
    exact absurd hsome Bool.false_ne_true
  | some persisted =>
    rw [hpersisted] at hsome
    dsimp only at hsome ⊢
    match hactive : persisted.active with
    | none =>
      rw [hactive] at hsome
      dsimp only at hsome
      rw [loadAttemptRecord_snapshot] at hsome
      exact absurd hsome Bool.false_ne_true
    | some active =>
      have htimed := @loadAttemptRecord_timed validate o.attempt _
        (Option.isSome_iff_exists.mpr ⟨active, hactive⟩)
        { recordStatus := persisted.recordStatus
          candidateRecordStatus := persisted.candidateRecordStatus
          storageFaulted := persisted.storageFaulted }
      dsimp only
      split_ifs
      · exact htimed
      · split
        · exact htimed
        · exact htimed

theorem openWorkerStorage_timed (opened : Option Opened) :
    (openWorkerStorage validate opened).1.Timed := by
  match opened with
  | none => exact fun hsome => absurd hsome Bool.false_ne_true
  | some o => exact loadPersistedSnapshot_timed o

variable {s : Store} {attempts : List UInt64} {clock : UInt64}

namespace Store

/-! ### What the store knows of the last attempt -/

/-- The watermark is not before the last attempt. -/
def Covers (s : Store) (attempts : List UInt64) : Prop :=
  ∀ last ∈ attempts.head?,
    (s.attemptWatermarkUnknown = true ∧
      (s.unknownWatermarkStartedUtcMs = 0 ∨ last ≤ s.unknownWatermarkStartedUtcMs)) ∨
    last ≤ s.lastPersistAttemptUtcMs

/-- The checkpoint may go to the flash. -/
structure Ready (s : Store) (attempts : List UInt64) (checkpoint : Checkpoint) : Prop where
  nonzero : checkpoint.attemptUtcMs ≠ 0
  applied : checkpoint.attemptUtcMs ≤ s.latestApplyUtcMs
  spaced : ∀ last ∈ attempts.head?,
    elapsedAtLeast checkpoint.attemptUtcMs last flashIntervalMs = true

/-- The checkpoint went to the flash, or the storage did not open. -/
structure Tried (s : Store) (attempts : List UInt64) (checkpoint : Checkpoint) : Prop where
  nonzero : checkpoint.attemptUtcMs ≠ 0
  applied : checkpoint.attemptUtcMs ≤ s.latestApplyUtcMs
  latest : ∀ last ∈ attempts.head?, last ≤ checkpoint.attemptUtcMs

/-- While the worker is at work nothing is queued. -/
structure Occupied (s : Store) : Prop where
  busy : s.workerBusy = true
  pending : s.checkpointPending = false

/-- The worker waits. -/
structure Idle (s : Store) (attempts : List UInt64) : Prop where
  covers : s.Covers attempts
  pending : s.checkpointPending = true →
    s.Ready attempts s.checkpoint ∧ s.attemptWatermarkUnknown = false
  /-- A document that was only recovered is never due. -/
  untimed : s.latestApplyUtcMs = 0 →
    s.live = none ∨ s.attemptWatermarkUnknown = true ∨ s.lastPersistAttemptUtcMs ≠ 0

/-- An unknown watermark waits from the checkpoint's time on. -/
def Guards (s : Store) (checkpoint : Checkpoint) : Prop :=
  s.attemptWatermarkUnknown = true → checkpoint.attemptUtcMs ≤ s.unknownWatermarkStartedUtcMs

/-- What holds at each place of the worker. -/
def Phase (s : Store) (attempts : List UInt64) : Prop :=
  match s.worker with
  | .opening => s.Occupied ∧ (s.latestApplyUtcMs = 0 → s.live = none)
  | .publishing recovered _ =>
    s.Occupied ∧ (s.latestApplyUtcMs = 0 → s.live = none) ∧ recovered.Timed
  | .waiting => s.Idle attempts
  | .reopening checkpoint => s.Occupied ∧ s.Ready attempts checkpoint
  | .republishing checkpoint _ _ => s.Occupied ∧ s.Ready attempts checkpoint
  | .persisting checkpoint _ => s.Occupied ∧ s.Ready attempts checkpoint ∧ s.Guards checkpoint
  | .finishing checkpoint _ _ => s.Occupied ∧ s.Tried attempts checkpoint ∧ s.Guards checkpoint
  | .closing | .exited => True

/-- The times of the attempts and of the store on one clock. -/
structure Clocked (s : Store) (attempts : List UInt64) (clock : UInt64) : Prop where
  past : ∀ last ∈ attempts.head?, last ≠ 0 ∧ last ≤ clock
  applied : s.latestApplyUtcMs ≤ clock
  latest : s.latestApplyUtcMs = 0 ∨ ∀ last ∈ attempts.head?, last ≤ s.latestApplyUtcMs

/-- The two stores differ in nothing that bears on the attempts. -/
structure SameAttempts (s t : Store) : Prop where
  worker : t.worker = s.worker
  busy : t.workerBusy = s.workerBusy
  pending : t.checkpointPending = s.checkpointPending
  checkpoint : t.checkpoint = s.checkpoint
  live : t.live = s.live
  latest : t.latestApplyUtcMs = s.latestApplyUtcMs
  unknown : t.attemptWatermarkUnknown = s.attemptWatermarkUnknown
  started : t.unknownWatermarkStartedUtcMs = s.unknownWatermarkStartedUtcMs
  last : t.lastPersistAttemptUtcMs = s.lastPersistAttemptUtcMs

theorem phase_congr {t : Store} (hsame : SameAttempts s t) (h : s.Phase attempts) :
    t.Phase attempts := by
  have hoccupied : s.Occupied → t.Occupied :=
    fun ho => ⟨hsame.busy.trans ho.busy, hsame.pending.trans ho.pending⟩
  have hready : ∀ checkpoint, s.Ready attempts checkpoint → t.Ready attempts checkpoint :=
    fun checkpoint hr => ⟨hr.nonzero, hsame.latest ▸ hr.applied, hr.spaced⟩
  have hguards : ∀ checkpoint, s.Guards checkpoint → t.Guards checkpoint := by
    intro checkpoint hg
    unfold Guards at hg ⊢
    rw [hsame.unknown, hsame.started]
    exact hg
  unfold Phase at h ⊢
  rw [hsame.worker]
  split at h
  · exact ⟨hoccupied h.1, by rw [hsame.latest, hsame.live]; exact h.2⟩
  · exact ⟨hoccupied h.1, by rw [hsame.latest, hsame.live]; exact h.2.1, h.2.2⟩
  · refine ⟨?_, fun hpending => ?_, ?_⟩
    · unfold Covers
      rw [hsame.unknown, hsame.started, hsame.last]
      exact h.covers
    · obtain ⟨hr, hunknown⟩ := h.pending (hsame.pending.symm.trans hpending)
      exact ⟨hsame.checkpoint ▸ hready _ hr, hsame.unknown.trans hunknown⟩
    · rw [hsame.latest, hsame.live, hsame.unknown, hsame.last]
      exact h.untimed
  · exact ⟨hoccupied h.1, hready _ h.2⟩
  · exact ⟨hoccupied h.1, hready _ h.2⟩
  · exact ⟨hoccupied h.1, hready _ h.2.1, hguards _ h.2.2⟩
  · exact ⟨hoccupied h.1, ⟨h.2.1.nonzero, hsame.latest ▸ h.2.1.applied, h.2.1.latest⟩,
      hguards _ h.2.2⟩
  · exact trivial
  · exact trivial

/-! ### Queueing -/

theorem due_elapsed {generatedAtMs utcMs : UInt64}
    (h : s.persistenceDue generatedAtMs utcMs = true) :
    s.workerBusy = false ∧ s.checkpointPending = false ∧
      (s.attemptWatermarkUnknown = true → s.unknownWatermarkStartedUtcMs ≠ 0 ∧
        elapsedAtLeast utcMs s.unknownWatermarkStartedUtcMs flashIntervalMs = true) ∧
      (s.lastPersistAttemptUtcMs ≠ 0 →
        elapsedAtLeast utcMs s.lastPersistAttemptUtcMs flashIntervalMs = true) := by
  unfold persistenceDue at h
  split_ifs at h with hfree hunknown hknown
  simp only [not_or, not_and, Bool.not_eq_true, Bool.not_eq_false] at hfree hunknown hknown
  exact ⟨hfree.2.2.2.2, hfree.2.2.2.1, hunknown, hknown⟩

theorem queueCurrentCheckpoint_occupied (h : s.Occupied) :
    s.queueCurrentCheckpoint.2 = s := by
  unfold queueCurrentCheckpoint
  split
  · rfl
  · split_ifs with hdue
    · have hfree := (due_elapsed hdue).1
      rw [h.busy] at hfree
      exact absurd hfree.symm Bool.false_ne_true
    · rfl

theorem queueCurrentCheckpoint_latest (s : Store) :
    s.queueCurrentCheckpoint.2.latestApplyUtcMs = s.latestApplyUtcMs := by
  unfold queueCurrentCheckpoint
  split
  · rfl
  · split_ifs
    · rfl
    · rfl

theorem idle_queue (h : s.Idle attempts) (hclocked : s.Clocked attempts clock) :
    s.queueCurrentCheckpoint.2.Idle attempts := by
  unfold queueCurrentCheckpoint
  split
  · exact h
  next live hlive =>
  split_ifs with hdue
  · obtain ⟨-, -, hunknown, hknown⟩ := due_elapsed hdue
    have happlied : s.latestApplyUtcMs ≠ 0 := by
      intro hzero
      rw [hzero] at hunknown hknown
      rcases h.untimed hzero with hnone | hisUnknown | hisKnown
      · rw [hnone] at hlive
        exact absurd hlive.symm (Option.some_ne_none live)
      · obtain ⟨hstarted, helapsed⟩ := hunknown hisUnknown
        exact hstarted (eq_zero_of_le_zero (le_of_elapsedAtLeast helapsed))
      · exact hisKnown (eq_zero_of_le_zero (le_of_elapsedAtLeast (hknown hisKnown)))
    have hspaced : ∀ last ∈ attempts.head?,
        elapsedAtLeast s.latestApplyUtcMs last flashIntervalMs = true := by
      intro last hlast
      rcases h.covers last hlast with ⟨hisUnknown, hstarted⟩ | hle
      · obtain ⟨hnonzero, helapsed⟩ := hunknown hisUnknown
        rcases hstarted with hzero | hle
        · exact absurd hzero hnonzero
        · exact elapsedAtLeast_of_le hle helapsed
      · have hisKnown : s.lastPersistAttemptUtcMs ≠ 0 := by
          intro hzero
          rw [hzero] at hle
          exact (hclocked.past last hlast).1 (eq_zero_of_le_zero hle)
        exact elapsedAtLeast_of_le hle (hknown hisKnown)
    refine ⟨fun last hlast => .inr ?_, fun _ => ⟨⟨happlied, UInt64.le_refl _, hspaced⟩, rfl⟩,
      fun _ => .inr (.inr happlied)⟩
    exact le_of_elapsedAtLeast (hspaced last hlast)
  · exact h

/-! ### The calls -/

/-- An `apply` only moves the clock, or it accepts a document and may queue it. -/
theorem apply_effect (s : Store) (document : List UInt8) (trustedUtcMs : UInt64) :
    ∃ highWaterMs latched,
      (s.apply validate document trustedUtcMs).2 =
          { s with applyUtcHighWaterMs := highWaterMs, applyClockRollbackLatched := latched } ∨
        trustedUtcMs ≠ 0 ∧ ∃ candidate,
          (s.apply validate document trustedUtcMs).2 =
            (accept { s with
              applyUtcHighWaterMs := highWaterMs
              applyClockRollbackLatched := latched } document candidate
                trustedUtcMs).queueCurrentCheckpoint.2 := by
  unfold apply
  split
  · exact ⟨s.applyUtcHighWaterMs, s.applyClockRollbackLatched, .inl rfl⟩
  next candidate hvalid =>
  refine ⟨(observeClock s.applyUtcHighWaterMs s.applyClockRollbackLatched trustedUtcMs).2.1,
    (observeClock s.applyUtcHighWaterMs s.applyClockRollbackLatched trustedUtcMs).2.2, ?_⟩
  dsimp only
  split
  · exact .inl rfl
  · exact .inl rfl
  next hclock =>
  have hnonzero : trustedUtcMs ≠ 0 := by
    intro hzero
    rw [hzero, observeClock, if_pos rfl] at hclock
    cases hclock
  exact (applyCandidate_or _ document candidate trustedUtcMs).imp id fun hreplaced =>
    ⟨hnonzero, candidate, hreplaced⟩

/-- Accepting a document at a later time. -/
theorem phase_accept (h : s.Phase attempts) (hclocked : s.Clocked attempts clock)
    (document : List UInt8)
    (candidate : Metadata) {trustedUtcMs : UInt64} (hnonzero : trustedUtcMs ≠ 0)
    (hlater : clock ≤ trustedUtcMs) :
    (s.accept document candidate trustedUtcMs).Phase attempts := by
  have happlied := UInt64.le_trans hclocked.applied hlater
  have hready : ∀ checkpoint, s.Ready attempts checkpoint →
      (s.accept document candidate trustedUtcMs).Ready attempts checkpoint :=
    fun checkpoint hr => ⟨hr.nonzero, UInt64.le_trans hr.applied happlied, hr.spaced⟩
  have hguards : ∀ checkpoint, checkpoint.attemptUtcMs ≤ s.latestApplyUtcMs →
      s.Guards checkpoint → (s.accept document candidate trustedUtcMs).Guards checkpoint := by
    intro checkpoint hle hg hunknown
    show checkpoint.attemptUtcMs ≤ ite _ _ _
    split_ifs
    · exact UInt64.le_trans hle happlied
    · exact hg hunknown
  have hoccupied : s.Occupied → (s.accept document candidate trustedUtcMs).Occupied :=
    fun ho => ⟨ho.busy, ho.pending⟩
  have hworker : (s.accept document candidate trustedUtcMs).worker = s.worker := rfl
  unfold Phase at h ⊢
  rw [hworker]
  split at h
  · exact ⟨hoccupied h.1, fun hzero => absurd hzero hnonzero⟩
  · exact ⟨hoccupied h.1, fun hzero => absurd hzero hnonzero, h.2.2⟩
  · refine ⟨fun last hlast => ?_, fun hpending => ?_, fun hzero => absurd hzero hnonzero⟩
    · rcases h.covers last hlast with ⟨hunknown, hstarted⟩ | hle
      · refine .inl ⟨hunknown, .inr ?_⟩
        show last ≤ ite _ _ _
        split_ifs with hzero
        · exact UInt64.le_trans (hclocked.past last hlast).2 hlater
        · rcases hstarted with hz | hle
          · exact absurd ⟨hunknown, hz⟩ hzero
          · exact hle
      · exact .inr hle
    · exact ⟨hready _ (h.pending hpending).1, (h.pending hpending).2⟩
  · exact ⟨hoccupied h.1, hready _ h.2⟩
  · exact ⟨hoccupied h.1, hready _ h.2⟩
  · exact ⟨hoccupied h.1, hready _ h.2.1, hguards _ h.2.1.applied h.2.2⟩
  · exact ⟨hoccupied h.1,
      ⟨h.2.1.nonzero, UInt64.le_trans h.2.1.applied happlied, h.2.1.latest⟩,
      hguards _ h.2.1.applied h.2.2⟩
  · exact trivial
  · exact trivial

theorem phase_cases (h : s.Phase attempts) :
    s.Occupied ∨ s.worker = .waiting ∨ s.worker = .closing ∨ s.worker = .exited := by
  unfold Phase at h
  split at h
  · exact .inl h.1
  · exact .inl h.1
  · next hworker => exact .inr (.inl hworker)
  · exact .inl h.1
  · exact .inl h.1
  · exact .inl h.1
  · exact .inl h.1
  · next hworker => exact .inr (.inr (.inl hworker))
  · next hworker => exact .inr (.inr (.inr hworker))

theorem phase_queue (h : s.Phase attempts) (hclocked : s.Clocked attempts clock) :
    s.queueCurrentCheckpoint.2.Phase attempts := by
  have hworker := queueCurrentCheckpoint_worker s
  rcases phase_cases h with hoccupied | hwaiting | hclosing | hexited
  · rw [queueCurrentCheckpoint_occupied hoccupied]
    exact h
  · unfold Phase at h ⊢
    rw [hworker, hwaiting]
    rw [hwaiting] at h
    exact idle_queue h hclocked
  · unfold Phase
    rw [hworker, hclosing]
    exact trivial
  · unfold Phase
    rw [hworker, hexited]
    exact trivial

theorem copy_sameAttempts (s : Store) (nowUtcMs : UInt64) (companionOnline : Bool)
    (capacity : ℕ) : SameAttempts s (s.copy nowUtcMs companionOnline capacity).2 := by
  unfold copy
  split
  · exact ⟨rfl, rfl, rfl, rfl, rfl, rfl, rfl, rfl, rfl⟩
  · dsimp only
    split
    · split
      · exact ⟨rfl, rfl, rfl, rfl, rfl, rfl, rfl, rfl, rfl⟩
      · exact ⟨rfl, rfl, rfl, rfl, rfl, rfl, rfl, rfl, rfl⟩
    · exact ⟨rfl, rfl, rfl, rfl, rfl, rfl, rfl, rfl, rfl⟩

/-- An `apply` at a time that is not before the clock. -/
theorem phase_apply {s : Store} {attempts : List UInt64} {clock : UInt64}
    (h : s.Phase attempts) (hclocked : s.Clocked attempts clock) (document : List UInt8)
    {trustedUtcMs : UInt64} (htimely : trustedUtcMs = 0 ∨ clock ≤ trustedUtcMs) :
    (s.apply validate document trustedUtcMs).2.Phase attempts ∧
      ((s.apply validate document trustedUtcMs).2.latestApplyUtcMs = s.latestApplyUtcMs ∨
        trustedUtcMs ≠ 0 ∧
          (s.apply validate document trustedUtcMs).2.latestApplyUtcMs = trustedUtcMs) := by
  obtain ⟨highWaterMs, latched, hsame | ⟨hnonzero, candidate, haccepted⟩⟩ :=
    @apply_effect validate s document trustedUtcMs
  · rw [hsame]
    exact ⟨phase_congr (s := s) ⟨rfl, rfl, rfl, rfl, rfl, rfl, rfl, rfl, rfl⟩ h, .inl rfl⟩
  · have hlater : clock ≤ trustedUtcMs := by
      rcases htimely with hzero | hle
      · exact absurd hzero hnonzero
      · exact hle
    have hmoved : Phase { s with
        applyUtcHighWaterMs := highWaterMs
        applyClockRollbackLatched := latched } attempts :=
      phase_congr (s := s) ⟨rfl, rfl, rfl, rfl, rfl, rfl, rfl, rfl, rfl⟩ h
    have hphase := phase_accept hmoved
      ⟨hclocked.past, hclocked.applied, hclocked.latest⟩ document candidate hnonzero hlater
    rw [haccepted]
    have hclocked' : Clocked
        (accept { s with
          applyUtcHighWaterMs := highWaterMs
          applyClockRollbackLatched := latched } document candidate trustedUtcMs)
        attempts trustedUtcMs := by
      refine ⟨fun last hlast => ?_, UInt64.le_refl _, .inr fun last hlast => ?_⟩
      · exact ⟨(hclocked.past last hlast).1,
          UInt64.le_trans (hclocked.past last hlast).2 hlater⟩
      · exact UInt64.le_trans (hclocked.past last hlast).2 hlater
    exact ⟨phase_queue hphase hclocked', .inr ⟨hnonzero, queueCurrentCheckpoint_latest _⟩⟩

/-! ### The worker -/

theorem publishRecovered_watermark (s : Store) (recovered : RecoveredState) (opened : Bool) :
    (s.publishRecovered recovered opened).workerBusy = s.workerBusy ∧
      (s.publishRecovered recovered opened).checkpointPending = s.checkpointPending ∧
      (s.publishRecovered recovered opened).latestApplyUtcMs = s.latestApplyUtcMs ∧
      ((s.publishRecovered recovered opened).attemptWatermarkUnknown = true →
        (s.publishRecovered recovered opened).unknownWatermarkStartedUtcMs =
          s.latestApplyUtcMs) ∧
      (opened = false → (s.publishRecovered recovered opened).attemptWatermarkUnknown = true) ∧
      (opened = true →
        (s.publishRecovered recovered opened).attemptWatermarkUnknown =
            recovered.attemptWatermarkUnknown ∧
          (s.publishRecovered recovered opened).lastPersistAttemptUtcMs =
            recovered.lastPersistAttemptUtcMs ∧
          (recovered.snapshot = none →
            (s.publishRecovered recovered opened).live = s.live)) := by
  unfold publishRecovered
  match opened with
  | false => exact ⟨rfl, rfl, rfl, fun _ => rfl, fun _ => rfl, fun h => absurd h (by simp)⟩
  | true =>
    dsimp only
    rw [if_neg (by simp)]
    match hsnapshot : recovered.snapshot with
    | none =>
      exact ⟨rfl, rfl, rfl, fun h => if_pos h, fun h => absurd h (by simp),
        fun _ => ⟨rfl, rfl, fun _ => rfl⟩⟩
    | some snapshot =>
      exact ⟨rfl, rfl, rfl, fun h => if_pos h, fun h => absurd h (by simp),
        fun _ => ⟨rfl, rfl, fun h => absurd h (by simp)⟩⟩

/-- The recovered watermark covers the last attempt, or the storage did not open. -/
def Remembered (attempts : List UInt64) (recovered : RecoveredState) (opened : Bool) : Prop :=
  opened = true → recovered.attemptWatermarkUnknown = true ∨
    ∀ last ∈ attempts.head?, last ≤ recovered.lastPersistAttemptUtcMs

/-- After a publication with no attempt behind it the worker may wait. -/
theorem idle_publish {recovered : RecoveredState} {opened : Bool}
    (hpending : s.checkpointPending = false)
    (huntimed : s.latestApplyUtcMs = 0 → s.live = none ∧ recovered.Timed)
    (hclocked : s.Clocked attempts clock) (hremembered : Remembered attempts recovered opened) :
    Idle { s.publishRecovered recovered opened with workerBusy := false } attempts := by
  obtain ⟨-, hpendingEq, hlatest, hstarted, hclosed, hopened⟩ :=
    publishRecovered_watermark s recovered opened
  have hwaits : (s.publishRecovered recovered opened).attemptWatermarkUnknown = true →
      ∀ last ∈ attempts.head?,
        (s.publishRecovered recovered opened).unknownWatermarkStartedUtcMs = 0 ∨
          last ≤ (s.publishRecovered recovered opened).unknownWatermarkStartedUtcMs := by
    intro hunknown last hlast
    rw [hstarted hunknown]
    rcases hclocked.latest with hzero | hle
    · exact .inl hzero
    · exact .inr (hle last hlast)
  refine ⟨fun last hlast => ?_, fun hp => ?_, fun hzero => ?_⟩
  · match opened with
    | false => exact .inl ⟨hclosed rfl, hwaits (hclosed rfl) last hlast⟩
    | true =>
      obtain ⟨hunknown, hlast', -⟩ := hopened rfl
      rcases hremembered rfl with hisUnknown | hle
      · have h := hunknown.trans hisUnknown
        exact .inl ⟨h, hwaits h last hlast⟩
      · refine .inr ?_
        show last ≤ (s.publishRecovered recovered true).lastPersistAttemptUtcMs
        rw [hlast']
        exact hle last hlast
  · exact absurd (hpending.symm.trans (hpendingEq.symm.trans hp)) Bool.false_ne_true
  · obtain ⟨hnone, htimed⟩ := huntimed (hlatest.symm.trans hzero)
    match opened with
    | false => exact .inr (.inl (hclosed rfl))
    | true =>
      obtain ⟨hunknown, hlast', hlive⟩ := hopened rfl
      match hsnapshot : recovered.snapshot with
      | none => exact .inl ((hlive hsnapshot).trans hnone)
      | some snapshot =>
        rcases htimed (Option.isSome_iff_exists.mpr ⟨snapshot, hsnapshot⟩) with h | h
        · exact .inr (.inl (hunknown.trans h))
        · refine .inr (.inr ?_)
          show (s.publishRecovered recovered true).lastPersistAttemptUtcMs ≠ 0
          rw [hlast']
          exact h

theorem finishCheckpoint_watermark (s : Store) (checkpoint : Checkpoint) (ok : Bool)
    (status : Option TransactionSnapshot) :
    (s.finishCheckpoint checkpoint ok status).checkpointPending = s.checkpointPending ∧
      (s.finishCheckpoint checkpoint ok status).latestApplyUtcMs = s.latestApplyUtcMs ∧
      (s.finishCheckpoint checkpoint ok status).worker = .waiting ∧
      if (ok && (status.bind fun persisted => persisted.active).isSome) = true then
        (s.finishCheckpoint checkpoint ok status).lastPersistAttemptUtcMs =
          checkpoint.attemptUtcMs
      else
        (s.finishCheckpoint checkpoint ok status).lastPersistAttemptUtcMs =
            s.lastPersistAttemptUtcMs ∧
          (s.finishCheckpoint checkpoint ok status).attemptWatermarkUnknown =
            s.attemptWatermarkUnknown ∧
          (s.finishCheckpoint checkpoint ok status).unknownWatermarkStartedUtcMs =
            s.unknownWatermarkStartedUtcMs := by
  unfold finishCheckpoint
  match ok, status with
  | false, none => exact ⟨rfl, rfl, rfl, rfl, rfl, rfl⟩
  | true, none => exact ⟨rfl, rfl, rfl, rfl, rfl, rfl⟩
  | false, some persisted => exact ⟨rfl, rfl, rfl, rfl, rfl, rfl⟩
  | true, some persisted =>
    match hactive : persisted.active with
    | none =>
      rw [Option.bind_some, hactive]
      exact ⟨rfl, rfl, rfl, rfl, rfl, rfl⟩
    | some active =>
      rw [Option.bind_some, hactive]
      exact ⟨rfl, rfl, rfl, rfl⟩

theorem idle_finish {checkpoint : Checkpoint} {ok : Bool} {status : Option TransactionSnapshot}
    (hoccupied : s.Occupied) (htried : s.Tried attempts checkpoint) (hguards : s.Guards checkpoint)
    (hkept : (ok && (status.bind fun persisted => persisted.active).isSome) = true ∨
      s.attemptWatermarkUnknown = true ∨
        checkpoint.attemptUtcMs ≤ s.lastPersistAttemptUtcMs) :
    (s.finishCheckpoint checkpoint ok status).Idle attempts := by
  obtain ⟨hpending, hlatest, -, hwatermark⟩ :=
    finishCheckpoint_watermark s checkpoint ok status
  refine ⟨fun last hlast => ?_, fun hp => ?_, fun hzero => ?_⟩
  · have hle := htried.latest last hlast
    split_ifs at hwatermark with hsuccess
    · rw [hwatermark]
      exact .inr hle
    · obtain ⟨hlast', hunknown, hstarted⟩ := hwatermark
      rw [hlast', hunknown, hstarted]
      rcases hkept with h | h | h
      · exact absurd h hsuccess
      · exact .inl ⟨h, .inr (UInt64.le_trans hle (hguards h))⟩
      · exact .inr (UInt64.le_trans hle h)
  · exact absurd (hoccupied.pending.symm.trans (hpending.symm.trans hp)) Bool.false_ne_true
  · have happlied := htried.applied
    rw [← hlatest, hzero] at happlied
    exact absurd (eq_zero_of_le_zero happlied) htried.nonzero

end Store

variable {y : System}

namespace System

/-- What holds in every state of such a run. -/
structure Inv (y : System) : Prop where
  spaced : y.Spaced
  clocked : y.store.Clocked y.attempts y.clock
  phase : y.store.Phase y.attempts

theorem idle_waiting (h : s.Idle attempts) :
    Store.Phase { s with worker := .waiting } attempts :=
  ⟨h.covers,
    fun hpending =>
      ⟨⟨(h.pending hpending).1.nonzero, (h.pending hpending).1.applied,
        (h.pending hpending).1.spaced⟩, (h.pending hpending).2⟩,
    h.untimed⟩

theorem idle_publish_queue (h : y.Inv) (recovered : RecoveredState) (opened : Bool)
    (hpending : y.store.checkpointPending = false)
    (huntimed : y.store.latestApplyUtcMs = 0 → y.store.live = none ∧ recovered.Timed)
    (hremembers : opened = true → y.remembers recovered = true) :
    (Store.queueCurrentCheckpoint
      { y.store.publishRecovered recovered opened with workerBusy := false }).2.Idle
        y.attempts := by
  have hremembered : Store.Remembered y.attempts recovered opened := by
    intro hopened
    have hr := hremembers hopened
    simp only [remembers, Bool.or_eq_true, Option.all_eq_true, decide_eq_true_eq] at hr
    exact hr
  have hidle := Store.idle_publish hpending huntimed h.clocked hremembered
  have hlatest : (y.store.publishRecovered recovered opened).latestApplyUtcMs =
      y.store.latestApplyUtcMs :=
    (Store.publishRecovered_watermark y.store recovered opened).2.2.1
  have hclocked : Store.Clocked
      { y.store.publishRecovered recovered opened with workerBusy := false }
      y.attempts y.clock := by
    refine ⟨h.clocked.past, hlatest ▸ h.clocked.applied, ?_⟩
    show (y.store.publishRecovered recovered opened).latestApplyUtcMs = 0 ∨
      ∀ last ∈ y.attempts.head?,
        last ≤ (y.store.publishRecovered recovered opened).latestApplyUtcMs
    rw [hlatest]
    exact h.clocked.latest
  exact Store.idle_queue hidle hclocked

/-- The worker's step keeps what is known of the attempts. -/
theorem phase_worker (h : y.Inv) {answers : Store.Answers}
    (hkeeps : y.keepsWatermark (.store (.worker answers)) = true) :
    (y.store.workerStep validate answers).Phase (y.store.attempt?.toList ++ y.attempts) := by
  have hphase := h.phase
  unfold Store.Phase at hphase
  unfold keepsWatermark at hkeeps
  dsimp only at hkeeps
  unfold Store.workerStep Store.attempt?
  split at hphase
  · next hworker =>
    rw [hworker]
    exact ⟨⟨hphase.1.busy, hphase.1.pending⟩, hphase.2, openWorkerStorage_timed _⟩
  · next recovered opened hworker =>
    rw [hworker] at hkeeps ⊢
    obtain ⟨hoccupied, hnone, htimed⟩ := hphase
    have hidle := idle_publish_queue h recovered opened
      hoccupied.pending (fun hzero => ⟨hnone hzero, htimed⟩) (by
        rintro rfl
        exact hkeeps)
    exact idle_waiting hidle
  · next hworker =>
    rw [hworker]
    show y.store.takeWork.Phase y.attempts
    unfold Store.takeWork
    split_ifs with hpending hreopen hstop
    · obtain ⟨hready, -⟩ := hphase.pending hpending
      exact ⟨⟨rfl, rfl⟩, ⟨hready.nonzero, hready.applied, hready.spaced⟩⟩
    · obtain ⟨hready, hunknown⟩ := hphase.pending hpending
      refine ⟨⟨rfl, rfl⟩, ⟨hready.nonzero, hready.applied, hready.spaced⟩, fun hno => ?_⟩
      exact absurd (hunknown.symm.trans hno) Bool.false_ne_true
    · exact trivial
    · unfold Store.Phase
      rw [hworker]
      exact hphase
  · next checkpoint hworker =>
    rw [hworker]
    obtain ⟨hoccupied, hready⟩ := hphase
    exact ⟨⟨hoccupied.busy, hoccupied.pending⟩,
      ⟨hready.nonzero, hready.applied, hready.spaced⟩⟩
  · next checkpoint recovered opened hworker =>
    rw [hworker] at hkeeps ⊢
    obtain ⟨hoccupied, hready⟩ := hphase
    dsimp only
    split
    · next hobsolete =>
      have happlied : y.store.latestApplyUtcMs ≠ 0 := by
        intro hzero
        have hle := hready.applied
        rw [hzero] at hle
        exact hready.nonzero (eq_zero_of_le_zero hle)
      have hidle := idle_publish_queue h recovered opened
        hoccupied.pending (fun hzero => absurd hzero happlied) (by
          rintro rfl
          have hkeeps : (!y.store.obsolete checkpoint recovered true || y.remembers recovered) =
            true := hkeeps
          have hobsolete : y.store.obsolete checkpoint recovered true = true := hobsolete
          rw [hobsolete] at hkeeps
          exact hkeeps)
      exact idle_waiting hidle
    · obtain ⟨hbusy, hpending, hlatest, hstarted, -, -⟩ :=
        Store.publishRecovered_watermark y.store recovered opened
      refine ⟨⟨hbusy.trans hoccupied.busy, hpending.trans hoccupied.pending⟩,
        ⟨hready.nonzero, hlatest ▸ hready.applied, hready.spaced⟩, fun hunknown => ?_⟩
      show checkpoint.attemptUtcMs ≤
        (y.store.publishRecovered recovered opened).unknownWatermarkStartedUtcMs
      rw [hstarted hunknown]
      exact hready.applied
  · next checkpoint ok hworker =>
    rw [hworker]
    obtain ⟨hoccupied, hready, hguards⟩ := hphase
    have hlatest : ∀ last ∈ y.attempts.head?, last ≤ checkpoint.attemptUtcMs :=
      fun last hlast => le_of_elapsedAtLeast (hready.spaced last hlast)
    refine ⟨⟨hoccupied.busy, hoccupied.pending⟩,
      ⟨hready.nonzero, hready.applied, fun last hlast => ?_⟩, hguards⟩
    -- the last attempt is now this one, or nothing was written
    split at hlast
    · next hattempt =>
      obtain ⟨rfl, -⟩ := Worker.persisting.inj hattempt
      split_ifs at hlast
      · obtain rfl := Option.some.inj hlast
        exact UInt64.le_refl _
      · exact hlatest last hlast
    · exact hlatest last hlast
  · next checkpoint ok status hworker =>
    rw [hworker] at hkeeps ⊢
    obtain ⟨hoccupied, htried, hguards⟩ := hphase
    have hidle := Store.idle_finish hoccupied htried hguards (by
      simpa only [Bool.or_eq_true, decide_eq_true_eq, or_assoc] using hkeeps)
    have hwaiting := (Store.finishCheckpoint_watermark y.store checkpoint ok status).2.2.1
    show (y.store.finishCheckpoint checkpoint ok status).Phase y.attempts
    unfold Store.Phase
    rw [hwaiting]
    exact hidle
  · next hworker =>
    rw [hworker]
    exact trivial
  · next hworker =>
    rw [hworker]
    unfold Store.Phase
    rw [hworker]
    exact trivial

theorem workerStep_latest (s : Store) (answers : Store.Answers) :
    (s.workerStep validate answers).latestApplyUtcMs = s.latestApplyUtcMs := by
  unfold Store.workerStep
  split
  · rfl
  · exact (Store.queueCurrentCheckpoint_latest _).trans
      (Store.publishRecovered_watermark s _ _).2.2.1
  · unfold Store.takeWork
    split_ifs
    · rfl
    · rfl
    · rfl
    · rfl
  · rfl
  · dsimp only
    split
    · exact (Store.queueCurrentCheckpoint_latest _).trans
        (Store.publishRecovered_watermark s _ _).2.2.1
    · exact (Store.publishRecovered_watermark s _ _).2.2.1
  · rfl
  · exact (Store.finishCheckpoint_watermark s _ _ _).2.1
  · rfl
  · rfl

theorem ready_of_attempt? (h : y.Inv) {utcMs : UInt64} (hattempt : y.store.attempt? = some utcMs) :
    ∃ checkpoint, y.store.Ready y.attempts checkpoint ∧ checkpoint.attemptUtcMs = utcMs := by
  have hphase := h.phase
  unfold Store.attempt? at hattempt
  split at hattempt
  · next checkpoint hworker =>
    unfold Store.Phase at hphase
    rw [hworker] at hphase
    split_ifs at hattempt
    exact ⟨checkpoint, hphase.2.1, Option.some.inj hattempt⟩
  · exact absurd hattempt (by simp)

theorem clocked_attempt (h : y.Inv) :
    y.store.Clocked (y.store.attempt?.toList ++ y.attempts) y.clock := by
  match hattempt : y.store.attempt? with
  | none => exact h.clocked
  | some utcMs =>
    obtain ⟨checkpoint, hready, rfl⟩ := ready_of_attempt? h hattempt
    have hhead : ∀ last ∈ (checkpoint.attemptUtcMs :: y.attempts).head?,
        last = checkpoint.attemptUtcMs := fun last hlast => (Option.some.inj hlast).symm
    refine ⟨fun last hlast => ?_, h.clocked.applied, .inr fun last hlast => ?_⟩
    · rw [hhead last hlast]
      exact ⟨hready.nonzero, UInt64.le_trans hready.applied h.clocked.applied⟩
    · rw [hhead last hlast]
      exact hready.applied

theorem spaced_attempt (h : y.Inv) :
    (y.store.attempt?.toList ++ y.attempts).IsChain
      fun newer older => elapsedAtLeast newer older flashIntervalMs = true := by
  match hattempt : y.store.attempt? with
  | none => exact h.spaced
  | some utcMs =>
    obtain ⟨checkpoint, hready, rfl⟩ := ready_of_attempt? h hattempt
    exact List.IsChain.cons h.spaced hready.spaced

theorem phase_create (configured started : Bool) (attempts : List UInt64) :
    (Store.create configured started).Phase attempts := by
  match configured, started with
  | false, _ => exact trivial
  | true, false => exact trivial
  | true, true => exact ⟨⟨rfl, rfl⟩, fun _ => rfl⟩

theorem inv_step (h : y.Inv) {event : Event} (htimely : y.timely event = true)
    (hkeeps : y.keepsWatermark event = true) : (y.step validate event).Inv := by
  -- only the worker makes attempts, and only `apply` moves the clock
  have hquiet : ∀ {store : Store}, y.store.SameAttempts store →
      Inv ⟨store, y.attempts, y.clock⟩ := by
    intro store hsame
    refine ⟨h.spaced, ⟨h.clocked.past, hsame.latest ▸ h.clocked.applied, ?_⟩,
      Store.phase_congr hsame h.phase⟩
    show store.latestApplyUtcMs = 0 ∨ _
    rw [hsame.latest]
    exact h.clocked.latest
  match event with
  | .restart configured started =>
    have hlatest : (Store.create configured started).latestApplyUtcMs = 0 := by
      match configured, started with
      | false, _ => rfl
      | true, false => rfl
      | true, true => rfl
    refine ⟨h.spaced, ⟨h.clocked.past, ?_, .inl hlatest⟩, phase_create _ _ _⟩
    show (Store.create configured started).latestApplyUtcMs ≤ y.clock
    rw [hlatest, UInt64.le_iff_toNat_le]
    exact Nat.zero_le _
  | .store (.worker answers) =>
    obtain ⟨hpast, happlied, hlatest⟩ := clocked_attempt h
    refine ⟨spaced_attempt h, ⟨hpast, ?_, ?_⟩, phase_worker h hkeeps⟩
    · show (y.store.workerStep validate answers).latestApplyUtcMs ≤ y.clock
      rw [workerStep_latest]
      exact happlied
    · show (y.store.workerStep validate answers).latestApplyUtcMs = 0 ∨
        ∀ last ∈ (y.store.attempt?.toList ++ y.attempts).head?,
          last ≤ (y.store.workerStep validate answers).latestApplyUtcMs
      rw [workerStep_latest]
      exact hlatest
  | .store (.apply document trustedUtcMs) =>
    rw [timely, Bool.or_eq_true, beq_iff_eq, decide_eq_true_eq] at htimely
    have htimely : trustedUtcMs = 0 ∨ y.clock ≤ trustedUtcMs := htimely
    obtain ⟨hphase, hlatest⟩ :=
      @Store.phase_apply validate _ _ _ h.phase h.clocked document _ htimely
    have hlater : y.clock ≤ if trustedUtcMs = 0 then y.clock else trustedUtcMs := by
      split_ifs with hzero
      · exact UInt64.le_refl _
      · rcases htimely with hno | hle
        · exact absurd hno hzero
        · exact hle
    refine ⟨h.spaced, ⟨fun last hlast => ?_, ?_, ?_⟩, hphase⟩
    · exact ⟨(h.clocked.past last hlast).1,
        UInt64.le_trans (h.clocked.past last hlast).2 hlater⟩
    · show (y.store.apply validate document trustedUtcMs).2.latestApplyUtcMs ≤
        if trustedUtcMs = 0 then y.clock else trustedUtcMs
      rcases hlatest with hsame | ⟨hnonzero, hnew⟩
      · rw [hsame]
        exact UInt64.le_trans h.clocked.applied hlater
      · rw [hnew, if_neg hnonzero]
        exact UInt64.le_refl _
    · show (y.store.apply validate document trustedUtcMs).2.latestApplyUtcMs = 0 ∨
        ∀ last ∈ y.attempts.head?,
          last ≤ (y.store.apply validate document trustedUtcMs).2.latestApplyUtcMs
      rcases hlatest with hsame | ⟨hnonzero, hnew⟩
      · rw [hsame]
        exact h.clocked.latest
      · rw [hnew]
        refine .inr fun last hlast => ?_
        rw [if_neg hnonzero] at hlater
        exact UInt64.le_trans (h.clocked.past last hlast).2 hlater
  | .store (.copy nowUtcMs companionOnline capacity) =>
    exact hquiet (Store.copy_sameAttempts _ _ _ _)
  | .store .takeStorageFailure =>
    exact hquiet ⟨rfl, rfl, rfl, rfl, rfl, rfl, rfl, rfl, rfl⟩
  | .store .stop =>
    refine hquiet ?_
    show y.store.SameAttempts (if y.store.workerStarted = true then _ else _)
    split_ifs
    · exact ⟨rfl, rfl, rfl, rfl, rfl, rfl, rfl, rfl, rfl⟩
    · exact ⟨rfl, rfl, rfl, rfl, rfl, rfl, rfl, rfl, rfl⟩

theorem inv_run {y : System} (h : y.Inv) {events : List Event}
    (htimely : y.allTimely validate events = true)
    (hkeeps : y.allKeepWatermark validate events = true) : (y.run validate events).Inv := by
  induction events generalizing y with
  | nil => exact h
  | cons event events ih =>
    rw [allTimely, Bool.and_eq_true] at htimely
    rw [allKeepWatermark, Bool.and_eq_true] at hkeeps
    exact ih (inv_step h htimely.1 hkeeps.1) htimely.2 hkeeps.2

/-- A new store, and no attempt yet. -/
def start (configured started : Bool) : System := { store := .create configured started }

theorem inv_start (configured started : Bool) : (start configured started).Inv := by
  refine ⟨List.isChain_nil,
    ⟨fun last hlast => absurd hlast (by simp [start]), ?_,
      .inr fun last hlast => absurd hlast (by simp [start])⟩,
    phase_create _ _ _⟩
  · match configured, started with
    | false, _ => exact UInt64.le_refl _
    | true, false => exact UInt64.le_refl _
    | true, true => exact UInt64.le_refl _

/-- **The flash attempts are spaced**: in every run with a trusted time that does not decrease,
over any applies, answers of the flash and restarts, consecutive attempts are the persistence
interval apart, as long as no step of the worker forgets the last attempt. -/
theorem attempts_spaced (validate : List UInt8 → Except Rejection Metadata)
    (configured started : Bool) (events : List Event)
    (htimely : (start configured started).allTimely validate events = true)
    (hkeeps : (start configured started).allKeepWatermark validate events = true) :
    ((start configured started).run validate events).Spaced :=
  (inv_run (inv_start configured started) htimely hkeeps).spaced

/-- Documents of two bytes: the half hours and milliseconds of their time. -/
def halfHours : List UInt8 → Except Rejection Metadata
  | [count, ms] => .ok ⟨0, count.toUInt64 * flashIntervalMs + ms.toUInt64, 0, 0, 0⟩
  | _ => .error .malformed

/-- The storage opens with no document and this attempt record, and the writes end as `wrote`. -/
def flash (attempt : ReadResult) (wrote : Bool) : Event :=
  .store (.worker
    { opened := some ⟨true, some ⟨.empty, .empty, none, none, false⟩, attempt⟩
      wroteAttempt := wrote
      staged := wrote
      committed := wrote
      status := some ⟨.empty, .empty, if wrote then some ⟨[1], 1⟩ else none, none, false⟩ })

/-- An attempt succeeds, one fails, and one follows a reopening that finds the record of it. -/
theorem attempts_spaced_half_hours :
    ((start true true).run halfHours
      ([flash .notFound true, flash .notFound true, .store (.apply [1, 0] 1800000),
        flash .notFound true, flash .notFound true, flash .notFound true,
        .store (.apply [2, 0] 3600000), flash .notFound true, flash .notFound false,
        flash .notFound false, .store (.apply [3, 0] 5400000)] ++
        List.replicate 5 (flash (.ok (attemptRecord 3600000 3600000)) true))).Spaced :=
  attempts_spaced halfHours true true _ (by decide +kernel) (by decide +kernel)

/-- Every write fails and leaves the flash as it was, empty.  The second attempt follows a
reopening; the third comes a millisecond later. -/
def hastyRun : List Event :=
  [flash .notFound false, flash .notFound false, .store (.apply [1, 0] 1800000)] ++
    List.replicate 3 (flash .notFound false) ++ [.store (.apply [2, 0] 3600000)] ++
    List.replicate 5 (flash .notFound false) ++ [.store (.apply [2, 1] 3600001)] ++
    List.replicate 5 (flash .notFound false)

/-- A trusted time that does not decrease, and two attempts one millisecond apart. -/
theorem attempts_not_spaced :
    (start true true).allTimely halfHours hastyRun = true ∧
      ((start true true).run halfHours hastyRun).attempts = [3600001, 3600000, 1800000] ∧
      ¬ ((start true true).run halfHours hastyRun).Spaced := by
  decide +kernel

end System

end RlcdDeck.AiSnapshot
