import RlcdDeck.Runtime.RateLimiter
import Mathlib.Data.List.Infix

/-!
# How many requests of a host are admitted

The windows of a host start at least `duration` apart, although a sweep may have deleted the last
one: its start is kept beside the limiter (`Tracked`).  An interval of length `duration` therefore
meets the current window and the one before it, and none of the others (`Limited`).
-/

namespace RlcdDeck.Runtime.IpRateLimiter

open Collections (keep lookup_keep length_keep_le length_insert_le length_insert_of_mem)

/-! ### Times in an interval -/

/-- How many of the times are not before `start`. -/
def countFrom (times : List Time) (start : ℤ) : ℕ := times.countP fun t : Time => start ≤ (t : ℤ)

/-- How many of the times are in a half-open interval. -/
def countIn (times : List Time) (start stop : ℤ) : ℕ :=
  times.countP fun t : Time => start ≤ (t : ℤ) ∧ (t : ℤ) < stop

section

variable {times : List Time} {now : Time} {start stop : ℤ}

theorem countFrom_append (times : List Time) (now : Time) (start : ℤ) :
    countFrom (times ++ [now]) start =
      countFrom times start + if start ≤ (now : ℤ) then 1 else 0 := by
  simp [countFrom, List.countP_append, List.countP_singleton]

theorem countIn_append (times : List Time) (now : Time) (start stop : ℤ) :
    countIn (times ++ [now]) start stop =
      countIn times start stop + if start ≤ (now : ℤ) ∧ (now : ℤ) < stop then 1 else 0 := by
  simp [countIn, List.countP_append, List.countP_singleton]

theorem countIn_le_countFrom {other : ℤ} (h : other ≤ start) :
    countIn times start stop ≤ countFrom times other := by
  apply List.countP_mono_left
  intro t _ ht
  simp only [decide_eq_true_eq] at ht ⊢
  omega

theorem countIn_mono {start' stop' : ℤ} (hstart : start' ≤ start) (hstop : stop ≤ stop') :
    countIn times start stop ≤ countIn times start' stop' := by
  apply List.countP_mono_left
  intro t _ ht
  simp only [decide_eq_true_eq] at ht ⊢
  omega

theorem countIn_eq_zero (h : stop ≤ start) : countIn times start stop = 0 := by
  unfold countIn
  rw [List.countP_eq_zero]
  intro t _
  simp only [decide_eq_true_eq]
  omega

theorem countIn_le_add (times : List Time) (start middle stop : ℤ) :
    countIn times start stop ≤ countIn times start middle + countFrom times middle := by
  induction times with
  | nil => simp [countIn]
  | cons t times ih =>
    unfold countIn countFrom at ih ⊢
    simp only [List.countP_cons, decide_eq_true_eq]
    split_ifs <;> omega

end

/-! ### The windows of a host -/

/-- The times at which a host was admitted, the last of whose windows started at `start`. -/
structure Limited (limit duration : ℤ) (times : List Time) (start : ℤ) : Prop where
  within : ∀ t : Time, t ∈ times → (t : ℤ) < start + duration
  current : (countFrom times start : ℤ) ≤ limit
  previous : (countIn times (start - duration) start : ℤ) ≤ limit
  every : ∀ first : ℤ, (countIn times first (first + duration) : ℤ) ≤ 2 * limit

section

variable {limit duration start : ℤ} {times : List Time} {now : Time}

theorem Limited.begin (h : Limited limit duration times start) (hduration : 0 < duration)
    (hlimit : 1 ≤ limit) (hover : start + duration ≤ now) :
    Limited limit duration (times ++ [now]) now := by
  have hnone : countFrom times now = 0 := by
    unfold countFrom
    rw [List.countP_eq_zero]
    intro t ht
    have hwithin := h.within t ht
    simp only [decide_eq_true_eq]
    omega
  constructor
  · intro t ht
    rcases List.mem_append.mp ht with ht | ht
    · have hwithin := h.within t ht
      omega
    · rw [List.mem_singleton.mp ht]
      omega
  · rw [countFrom_append, hnone, if_pos (Int.le_refl _)]
    omega
  · rw [countIn_append, if_neg (by omega)]
    have hold := @countIn_le_countFrom times (now - duration) now start (by omega)
    have hcurrent := h.current
    omega
  · intro first
    rw [countIn_append]
    have hevery := h.every first
    by_cases hin : first ≤ (now : ℤ) ∧ (now : ℤ) < first + duration
    · -- the interval begins in the window before the new one
      rw [if_pos hin]
      have hold := @countIn_le_countFrom times first (first + duration) start (by omega)
      have hcurrent := h.current
      omega
    · rw [if_neg hin]
      omega

theorem Limited.count (h : Limited limit duration times start) (hstart : start ≤ now)
    (hwithin : now < start + duration) (hroom : (countFrom times start : ℤ) < limit) :
    Limited limit duration (times ++ [now]) start := by
  constructor
  · intro t ht
    rcases List.mem_append.mp ht with ht | ht
    · exact h.within t ht
    · rw [List.mem_singleton.mp ht]
      exact hwithin
  · rw [countFrom_append, if_pos hstart]
    omega
  · rw [countIn_append, if_neg (by omega)]
    have hprevious := h.previous
    omega
  · intro first
    rw [countIn_append]
    have hevery := h.every first
    by_cases hin : first ≤ (now : ℤ) ∧ (now : ℤ) < first + duration
    · rw [if_pos hin]
      have hcut := countIn_le_add times first start (first + duration)
      have hold := @countIn_mono times first start (start - duration) start (by omega) (Int.le_refl _)
      have hprevious := h.previous
      omega
    · rw [if_neg hin]
      omega

end

/-! ### The limiter -/

section

variable {limiter : IpRateLimiter} {host other : String} {now : Time} {window : RateWindow}

theorem expired_iff (hduration : 0 < limiter.duration.1) {started : Time} :
    limiter.expired now started = true ↔ (started : ℤ) + limiter.duration.1 ≤ now := by
  have hmax := limiter.duration.2.2
  unfold expired sub
  rw [decide_eq_true_eq]
  unfold minDuration maxDuration at *
  omega

@[simp] theorem sweep_limit (limiter : IpRateLimiter) (now : Time) :
    (limiter.sweep now).limit = limiter.limit := by
  unfold sweep
  split_ifs <;> rfl

@[simp] theorem sweep_duration (limiter : IpRateLimiter) (now : Time) :
    (limiter.sweep now).duration = limiter.duration := by
  unfold sweep
  split_ifs <;> rfl

theorem lookup_sweep (limiter : IpRateLimiter) (host : String) (now : Time) :
    (limiter.sweep now).windows.lookup host = limiter.windows.lookup host ∨
      (limiter.sweep now).windows.lookup host = none ∧
        ∃ window, limiter.windows.lookup host = some window ∧
          limiter.expired now window.started = true := by
  unfold sweep
  split_ifs
  · simp only [lookup_keep]
    cases hlookup : limiter.windows.lookup host with
    | none => exact .inl rfl
    | some window =>
      by_cases hover : limiter.expired now window.started = true
      · refine .inr ⟨?_, window, rfl, hover⟩
        simp [hover]
      · refine .inl ?_
        simp [hover]
  · exact .inl rfl

/-- What `allow` does after the sweep. -/
theorem admitHost_cases (limiter : IpRateLimiter) (host : String) (now : Time) :
    (limiter.admitHost host now = (false, limiter) ∧
      (host ∉ limiter.windows ∧ maxTrackedRateLimitIPs ≤ limiter.windows.entries.length ∨
        ∃ window, limiter.windows.lookup host = some window ∧
          limiter.limit ≤ window.count)) ∨
    (limiter.admitHost host now =
        (true, { limiter with windows := limiter.windows.insert host ⟨now, 1⟩ }) ∧
      (host ∈ limiter.windows ∨ limiter.windows.entries.length < maxTrackedRateLimitIPs) ∧
      ∀ window, limiter.windows.lookup host = some window →
        window.started = 0 ∨ limiter.expired now window.started = true) ∨
    ∃ window, limiter.windows.lookup host = some window ∧
      limiter.expired now window.started = false ∧ window.count < limiter.limit ∧
      limiter.admitHost host now =
        (true, { limiter with
          windows := limiter.windows.insert host ⟨window.started, window.count + 1⟩ }) := by
  unfold admitHost
  cases hlookup : limiter.windows.lookup host with
  | none =>
    have hnot : host ∉ limiter.windows := AList.lookup_eq_none.mp hlookup
    simp only [Option.getD_none, true_or, if_true, hnot, not_false_eq_true, true_and]
    split_ifs with hfull
    · exact .inl ⟨rfl, .inl hfull⟩
    · exact .inr (.inl ⟨rfl, .inr (Nat.lt_of_not_le hfull), nofun⟩)
  | some window =>
    have hmem : host ∈ limiter.windows :=
      AList.lookup_isSome.mp (Option.isSome_of_eq_some hlookup)
    simp only [Option.getD_some, hmem, not_true_eq_false, false_and, if_false]
    split_ifs with hover hfull
    · refine .inr (.inl ⟨rfl, .inl trivial, ?_⟩)
      rintro _ ⟨⟩
      exact hover
    · exact .inl ⟨rfl, .inr ⟨window, rfl, hfull⟩⟩
    · rw [not_or, Bool.not_eq_true] at hover
      exact .inr (.inr ⟨window, rfl, hover.2, Int.not_le.mp hfull, rfl⟩)

/-! ### The window of a host -/

/-- The limiter's window of a host, which was admitted at `times`: it started at `start`, or there
is none, and one that started at `start` would be over. -/
structure Tracked (limiter : IpRateLimiter) (times : List Time) (host : String) (now : Time)
    (start : ℤ) : Prop where
  limited : Limited limiter.limit limiter.duration.1 times start
  start_le : start ≤ now
  window : ∀ window, limiter.windows.lookup host = some window →
    (window.started : ℤ) = start ∧ 0 < window.started ∧ window.count = countFrom times start
  untracked : limiter.windows.lookup host = none → start + limiter.duration.1 ≤ now

variable {times : List Time} {start : ℤ}

theorem Tracked.mono {later : Time} (h : Tracked limiter times host now start) (hle : now ≤ later) :
    Tracked limiter times host later start := by
  have hlater : (now : ℤ) ≤ later := Int.ofNat_le.mpr hle
  refine ⟨h.limited, ?_, h.window, fun hnone => ?_⟩
  · have hstart := h.start_le
    omega
  · have hover := h.untracked hnone
    omega

theorem Tracked.sweep (h : Tracked limiter times host now start)
    (hduration : 0 < limiter.duration.1) :
    Tracked (limiter.sweep now) times host now start := by
  refine ⟨by simpa using h.limited, h.start_le, fun window hwindow => ?_, fun hnone => ?_⟩
  · rcases lookup_sweep limiter host now with hsame | ⟨hnone, -⟩
    · exact h.window window (hsame ▸ hwindow)
    · rw [hnone] at hwindow
      cases hwindow
  · rw [sweep_duration]
    rcases lookup_sweep limiter host now with hsame | ⟨-, window, hwindow, hover⟩
    · exact h.untracked (hsame ▸ hnone)
    · have hstart := (h.window window hwindow).1
      rw [expired_iff hduration] at hover
      omega

/-- A request of the host. -/
theorem Tracked.admitHost (h : Tracked limiter times host now start)
    (hduration : 0 < limiter.duration.1) (hlimit : 1 ≤ limiter.limit) (hnow : 0 < now) :
    ∃ start' : ℤ, (start' = start ∨ start + limiter.duration.1 ≤ start') ∧
      Tracked (limiter.admitHost host now).2
        (if (limiter.admitHost host now).1 then times ++ [now] else times) host now start' := by
  rcases admitHost_cases limiter host now with
    ⟨heq, -⟩ | ⟨heq, -, hover⟩ | ⟨window, hwindow, hover, hroom, heq⟩
  · rw [heq]
    exact ⟨start, .inl rfl, h⟩
  · -- a window starts, the last one is over
    have hafter : start + limiter.duration.1 ≤ now := by
      cases hlookup : limiter.windows.lookup host with
      | none => exact h.untracked hlookup
      | some window =>
        obtain ⟨hstart, hpositive, -⟩ := h.window window hlookup
        rcases hover window hlookup with hzero | hover
        · exact absurd hzero (Nat.pos_iff_ne_zero.mp hpositive)
        · rw [expired_iff hduration] at hover
          omega
    rw [heq]
    have hbegin := h.limited.begin hduration hlimit hafter
    refine ⟨now, .inr hafter, hbegin, Int.le_refl _, ?_, ?_⟩
    · intro window hwindow
      rw [AList.lookup_insert] at hwindow
      obtain rfl := Option.some.inj hwindow
      refine ⟨rfl, hnow, ?_⟩
      have hnone : countFrom times now = 0 := by
        unfold countFrom
        rw [List.countP_eq_zero]
        intro t ht
        have hwithin := h.limited.within t ht
        simp only [decide_eq_true_eq]
        omega
      rw [if_pos rfl, countFrom_append, hnone, if_pos (Int.le_refl _)]
      rfl
    · intro hnone
      rw [AList.lookup_insert] at hnone
      cases hnone
  · -- the window counts one more
    obtain ⟨hstart, hpositive, hcount⟩ := h.window window hwindow
    have hin : (now : ℤ) < start + limiter.duration.1 := by
      rw [← Bool.not_eq_true, expired_iff hduration] at hover
      omega
    rw [heq]
    refine ⟨start, .inl rfl, h.limited.count h.start_le hin (by omega), h.start_le, ?_, ?_⟩
    · intro other hother
      rw [AList.lookup_insert] at hother
      obtain rfl := Option.some.inj hother
      refine ⟨hstart, hpositive, ?_⟩
      rw [if_pos rfl, countFrom_append, if_pos h.start_le, hcount]
      rfl
    · intro hnone
      rw [AList.lookup_insert] at hnone
      cases hnone

theorem Tracked.admitHost_other (h : Tracked limiter times host now start) (hother : other ≠ host) :
    Tracked (limiter.admitHost other now).2 times host now start := by
  rcases admitHost_cases limiter other now with
    ⟨heq, -⟩ | ⟨heq, -, -⟩ | ⟨window, -, -, -, heq⟩
  · rw [heq]
    exact h
  all_goals
    rw [heq]
    refine ⟨h.limited, h.start_le, fun window hwindow => ?_, fun hnone => ?_⟩
    · rw [AList.lookup_insert_ne hother.symm] at hwindow
      exact h.window window hwindow
    · rw [AList.lookup_insert_ne hother.symm] at hnone
      exact h.untracked hnone

end

/-! ### The table -/

section

variable {limiter : IpRateLimiter} {host : String} {now : Time}

/-- The table is bounded, and no window in it was over at the last sweep. -/
structure Table (limiter : IpRateLimiter) (now : Time) : Prop where
  length_le : limiter.windows.entries.length ≤ maxTrackedRateLimitIPs
  lastSweep_le : limiter.lastSweep ≤ now
  swept : 0 < limiter.duration.1 → ∀ host window, limiter.windows.lookup host = some window →
    limiter.expired limiter.lastSweep window.started = false

theorem Table.mono {later : Time} (h : Table limiter now) (hle : now ≤ later) :
    Table limiter later :=
  ⟨h.length_le, h.lastSweep_le.trans hle, h.swept⟩

theorem Table.sweep (h : Table limiter now) :
    Table (limiter.sweep now) now ∧
      ∀ host window, (limiter.sweep now).windows.lookup host = some window →
        (limiter.sweep now).expired (limiter.sweep now).lastSweep window.started = false := by
  have hlast : (limiter.lastSweep : ℤ) ≤ now := Int.ofNat_le.mpr h.lastSweep_le
  have hswept : ∀ host window, (limiter.sweep now).windows.lookup host = some window →
      (limiter.sweep now).expired (limiter.sweep now).lastSweep window.started = false := by
    intro host window hwindow
    unfold IpRateLimiter.sweep at hwindow ⊢
    split_ifs at hwindow ⊢ with hsweep
    · simp only [lookup_keep] at hwindow
      have htest := (Option.filter_eq_some_iff.mp hwindow).2
      rw [Bool.not_eq_true'] at htest
      exact htest
    · -- a duration that is not positive is over at once
      have hduration : 0 < limiter.duration.1 := by
        by_contra hnot
        refine hsweep (.inr (decide_eq_true ?_))
        unfold sub
        unfold minDuration maxDuration
        omega
      exact h.swept hduration host window hwindow
  refine ⟨⟨?_, ?_, fun _ => hswept⟩, hswept⟩
  · unfold IpRateLimiter.sweep
    split_ifs
    · exact (length_keep_le _ _).trans h.length_le
    · exact h.length_le
  · unfold IpRateLimiter.sweep
    split_ifs
    · exact le_rfl
    · exact h.lastSweep_le

theorem Table.admitHost (h : Table limiter now) :
    Table (limiter.admitHost host now).2 now := by
  rcases admitHost_cases limiter host now with
    ⟨heq, -⟩ | ⟨heq, hroom, -⟩ | ⟨window, hwindow, -, -, heq⟩
  · rw [heq]
    exact h
  · rw [heq]
    refine ⟨?_, h.lastSweep_le, fun hduration other window hwindow => ?_⟩
    · rcases hroom with hmem | hlength
      · exact (length_insert_of_mem hmem _).trans_le h.length_le
      · exact (length_insert_le _ _ _).trans hlength
    · by_cases hother : other = host
      · -- the new window starts after the last sweep
        obtain rfl := hother
        rw [AList.lookup_insert] at hwindow
        obtain rfl := Option.some.inj hwindow
        have hlast : (limiter.lastSweep : ℤ) ≤ now := Int.ofNat_le.mpr h.lastSweep_le
        rw [← Bool.not_eq_true]
        refine mt (expired_iff hduration).mp ?_
        change ¬(now : ℤ) + limiter.duration.1 ≤ limiter.lastSweep
        have hpositive : 0 < limiter.duration.1 := hduration
        omega
      · rw [AList.lookup_insert_ne hother] at hwindow
        exact h.swept hduration other window hwindow
  · rw [heq]
    have hmem : host ∈ limiter.windows :=
      AList.lookup_isSome.mp (Option.isSome_of_eq_some hwindow)
    refine ⟨(length_insert_of_mem hmem _).trans_le h.length_le, h.lastSweep_le,
      fun hduration other otherWindow hother => ?_⟩
    by_cases hsame : other = host
    · obtain rfl := hsame
      rw [AList.lookup_insert] at hother
      obtain rfl := Option.some.inj hother
      exact h.swept hduration other window hwindow
    · rw [AList.lookup_insert_ne hsame] at hother
      exact h.swept hduration other otherWindow hother

end

/-! ### Sequences of requests -/

/-- Requests at times that `time.Now()` gives, none of them before an earlier one. -/
structure Clock (requests : List Request) : Prop where
  positive : ∀ request ∈ requests, 0 < request.now
  nondecreasing : (requests.map Request.now).Pairwise (· ≤ ·)

theorem exists_last (requests : List Request) :
    ∃ last : Time, ∀ request ∈ requests, request.now ≤ last := by
  induction requests with
  | nil => exact ⟨0, nofun⟩
  | cons request requests ih =>
    obtain ⟨last, hlast⟩ := ih
    refine ⟨max request.now last, List.forall_mem_cons.mpr ⟨Nat.le_max_left _ _, ?_⟩⟩
    exact fun other hmem => (hlast other hmem).trans (Nat.le_max_right _ _)

theorem Clock.init {requests : List Request} {request : Request}
    (h : Clock (requests ++ [request])) :
    Clock requests ∧ 0 < request.now ∧ ∀ earlier ∈ requests, earlier.now ≤ request.now := by
  have hpairwise := h.nondecreasing
  rw [List.map_append, List.pairwise_append] at hpairwise
  refine ⟨⟨fun earlier hmem => h.positive earlier (List.mem_append_left _ hmem), hpairwise.1⟩,
    h.positive request (List.mem_append_right _ (List.mem_singleton_self _)), fun earlier hmem => ?_⟩
  exact hpairwise.2.2 earlier.now (List.mem_map_of_mem hmem) request.now (by simp)

section

variable (splitHostPort : String → Option String)

theorem serve_append (limiter : IpRateLimiter) (requests : List Request) (request : Request) :
    serve splitHostPort limiter (requests ++ [request]) =
      (serve splitHostPort limiter requests).step splitHostPort request := by
  simp [serve]

variable {splitHostPort} {served : Served} {request : Request} {host : String} {start : ℤ}

theorem times_step :
    (served.step splitHostPort request).times splitHostPort host =
      if hostOf splitHostPort request.address = host ∧
          (served.limiter.allow splitHostPort request.address request.now).1 = true then
        served.times splitHostPort host ++ [request.now]
      else served.times splitHostPort host := by
  unfold Served.step Served.times
  by_cases hallowed : (served.limiter.allow splitHostPort request.address request.now).1 = true
  · by_cases hhost : hostOf splitHostPort request.address = host
    · simp [hallowed, hhost]
    · simp [hallowed, hhost]
  · simp [hallowed]

theorem Tracked.step
    (h : Tracked served.limiter (served.times splitHostPort host) host request.now start)
    (hduration : 0 < served.limiter.duration.1) (hlimit : 1 ≤ served.limiter.limit)
    (hnow : 0 < request.now) :
    ∃ start' : ℤ, (start' = start ∨ start + served.limiter.duration.1 ≤ start') ∧
      Tracked (served.step splitHostPort request).limiter
        ((served.step splitHostPort request).times splitHostPort host) host request.now start' := by
  have hsweep := h.sweep hduration
  rw [times_step]
  by_cases hhost : hostOf splitHostPort request.address = host
  · obtain ⟨start', hstart, htracked⟩ := hsweep.admitHost
      (by simpa using hduration) (by simpa using hlimit) hnow
    rw [sweep_duration] at hstart
    refine ⟨start', hstart, ?_⟩
    simpa [hhost, Served.step, allow] using htracked
  · refine ⟨start, .inl rfl, ?_⟩
    simpa [hhost, Served.step, allow] using hsweep.admitHost_other hhost

theorem Table.step (h : Table served.limiter request.now) :
    Table (served.step splitHostPort request).limiter request.now :=
  h.sweep.1.admitHost

@[simp] theorem admitHost_limit (limiter : IpRateLimiter) (host : String) (now : Time) :
    (limiter.admitHost host now).2.limit = limiter.limit := by
  rcases admitHost_cases limiter host now with ⟨heq, -⟩ | ⟨heq, -⟩ | ⟨_, -, -, -, heq⟩ <;> rw [heq]

@[simp] theorem admitHost_duration (limiter : IpRateLimiter) (host : String) (now : Time) :
    (limiter.admitHost host now).2.duration = limiter.duration := by
  rcases admitHost_cases limiter host now with ⟨heq, -⟩ | ⟨heq, -⟩ | ⟨_, -, -, -, heq⟩ <;> rw [heq]

end

section

variable (splitHostPort : String → Option String) (limit : ℤ) (duration : Duration)

/-- A new limiter after a sequence of requests. -/
abbrev after (requests : List Request) : Served :=
  serve splitHostPort (newIpRateLimiter limit duration) requests

/-- A window of the host starts at `start`: the limiter has it after some of the requests. -/
def StartsWindow (requests : List Request) (host : String) (start : Time) : Prop :=
  ∃ before count, before <+: requests ∧
    (after splitHostPort limit duration before).limiter.windows.lookup host = some ⟨start, count⟩

variable {splitHostPort limit duration} {requests : List Request}

theorem after_config (requests : List Request) :
    (after splitHostPort limit duration requests).limiter.limit = limit ∧
      (after splitHostPort limit duration requests).limiter.duration = duration := by
  induction requests using List.reverseRecOn with
  | nil => exact ⟨rfl, rfl⟩
  | append_singleton requests request ih =>
    rw [after, serve_append]
    simp only [Served.step, allow, admitHost_limit, admitHost_duration, sweep_limit,
      sweep_duration]
    exact ih

theorem table_after (hclock : Clock requests) {now : Time}
    (hnow : ∀ request ∈ requests, request.now ≤ now) :
    Table (after splitHostPort limit duration requests).limiter now := by
  induction requests using List.reverseRecOn generalizing now with
  | nil =>
    refine ⟨Nat.zero_le _, Nat.zero_le _, fun _ host window hwindow => ?_⟩
    cases hwindow
  | append_singleton requests request ih =>
    obtain ⟨hbefore, -, hearlier⟩ := hclock.init
    rw [after, serve_append]
    exact ((ih hbefore hearlier).step).mono (hnow request (by simp))

/-- The windows of a host that have started: the last one is that of the limiter, and the others
were over when the next one started. -/
structure Windows (splitHostPort : String → Option String) (limit : ℤ) (duration : Duration)
    (requests : List Request) (host : String) (now : Time) (last : ℤ) : Prop where
  tracked : Tracked (after splitHostPort limit duration requests).limiter
    ((after splitHostPort limit duration requests).times splitHostPort host) host now last
  apart : ∀ start : Time, StartsWindow splitHostPort limit duration requests host start →
    (start : ℤ) = last ∨ start + duration.1 ≤ last
  bounded : ∀ start : Time, StartsWindow splitHostPort limit duration requests host start →
    (countIn ((after splitHostPort limit duration requests).times splitHostPort host) start
      (start + duration.1) : ℤ) ≤ limit

theorem StartsWindow.of_append {request : Request} {host : String} {start : Time}
    (h : StartsWindow splitHostPort limit duration (requests ++ [request]) host start) :
    StartsWindow splitHostPort limit duration requests host start ∨
      ∃ count, (after splitHostPort limit duration (requests ++ [request])).limiter.windows.lookup
        host = some ⟨start, count⟩ := by
  obtain ⟨before, count, hbefore, hlookup⟩ := h
  rcases List.prefix_concat_iff.mp (by simpa using hbefore) with rfl | hbefore
  · exact .inr ⟨count, hlookup⟩
  · exact .inl ⟨before, count, hbefore, hlookup⟩

theorem exists_windows (hclock : Clock requests) (hduration : 0 < duration.1) (hlimit : 1 ≤ limit)
    (host : String) {now : Time} (hnow : ∀ request ∈ requests, request.now ≤ now) :
    ∃ last, Windows splitHostPort limit duration requests host now last := by
  induction requests using List.reverseRecOn generalizing now with
  | nil =>
    -- nothing was admitted: a window that started before the zero time would be over
    refine ⟨-duration.1, ⟨⟨nofun, ?_, ?_, fun first => ?_⟩, ?_, nofun, fun _ => ?_⟩, ?_, ?_⟩
    · exact Int.le_of_lt hlimit
    · exact Int.le_of_lt hlimit
    · change (0 : ℤ) ≤ 2 * limit
      omega
    · omega
    · change -duration.1 + duration.1 ≤ (now : ℤ)
      omega
    all_goals
      rintro start ⟨before, count, hbefore, hlookup⟩
      obtain rfl := List.prefix_nil.mp hbefore
      cases hlookup
  | append_singleton requests request ih =>
    obtain ⟨hbefore, hpositive, hearlier⟩ := hclock.init
    obtain ⟨last, hwindows⟩ := ih hbefore hearlier
    obtain ⟨hlimitEq, hdurationEq⟩ := @after_config splitHostPort limit duration requests
    obtain ⟨last', hlast, htracked⟩ := hwindows.tracked.step
      (by rw [hdurationEq]; exact hduration) (by rw [hlimitEq]; exact hlimit) hpositive
    rw [hdurationEq] at hlast
    rw [← serve_append] at htracked
    obtain ⟨hlimitEq', hdurationEq'⟩ :=
      @after_config splitHostPort limit duration (requests ++ [request])
    have hlimited : Limited limit duration.1
        ((after splitHostPort limit duration (requests ++ [request])).times splitHostPort host)
        last' := by
      have hlimited := htracked.limited
      rwa [hlimitEq', hdurationEq'] at hlimited
    have hlater : (request.now : ℤ) ≤ now := Int.ofNat_le.mpr (hnow request (by simp))
    refine ⟨last', htracked.mono (hnow request (by simp)), ?_, ?_⟩
    · intro start hstart
      rcases hstart.of_append with hstart | ⟨count, hlookup⟩
      · rcases hwindows.apart start hstart with heq | hle
        · omega
        · omega
      · exact .inl (htracked.window _ hlookup).1
    · intro start hstart
      rcases hstart.of_append with hstart | ⟨count, hlookup⟩
      · -- a request that comes now is in no earlier window
        have hapart := hwindows.apart start hstart
        have hbounded := hwindows.bounded start hstart
        by_cases hsame : (start : ℤ) = last'
        · rw [hsame]
          have hle := @countIn_le_countFrom
            ((after splitHostPort limit duration (requests ++ [request])).times splitHostPort host)
            last' (last' + duration.1) last' (Int.le_refl _)
          have hcurrent := hlimited.current
          omega
        · have hstartLe := htracked.start_le
          have hcount : countIn
              ((after splitHostPort limit duration (requests ++ [request])).times splitHostPort host)
                start (start + duration.1) =
              countIn ((after splitHostPort limit duration requests).times splitHostPort host)
                start (start + duration.1) := by
            rw [after, serve_append, times_step]
            split_ifs
            · rw [countIn_append, if_neg (by omega), Nat.add_zero]
            · rfl
          rw [hcount]
          exact hbounded
      · have heq := (htracked.window _ hlookup).1
        change (start : ℤ) = last' at heq
        rw [heq]
        have hle := @countIn_le_countFrom
          ((after splitHostPort limit duration (requests ++ [request])).times splitHostPort host)
          last' (last' + duration.1) last' (Int.le_refl _)
        have hcurrent := hlimited.current
        omega

/-- **The rate limit.**  For requests that come in order: a host has at most `2 * limit` requests
admitted in an interval of length `duration`, and at most `limit` in a window of its own; at most 4096
hosts are tracked; and a host that is not tracked is refused only while 4096 others are, none of
which was over at the last sweep. -/
theorem allow_limits (hclock : Clock requests) (hlimit : 1 ≤ limit) (host : String) :
    (∀ first : ℤ,
      (countIn ((after splitHostPort limit duration requests).times splitHostPort host) first
        (first + duration.1) : ℤ) ≤ 2 * limit) ∧
    (∀ start : Time, StartsWindow splitHostPort limit duration requests host start →
      (countIn ((after splitHostPort limit duration requests).times splitHostPort host) start
        (start + duration.1) : ℤ) ≤ limit) ∧
    (after splitHostPort limit duration requests).limiter.windows.entries.length ≤
      maxTrackedRateLimitIPs ∧
    ∀ address now, Clock (requests ++ [⟨address, now⟩]) → hostOf splitHostPort address = host →
      host ∉ (after splitHostPort limit duration requests).limiter.windows →
      ((after splitHostPort limit duration requests).limiter.allow splitHostPort address now).1 =
        false →
      let limiter :=
        ((after splitHostPort limit duration requests).limiter.allow splitHostPort address now).2
      host ∉ limiter.windows ∧ limiter.windows.entries.length = maxTrackedRateLimitIPs ∧
        ∀ other window, limiter.windows.lookup other = some window →
          sub now window.started < duration.1 ∨
            sub limiter.lastSweep window.started < duration.1 := by
  obtain ⟨last, hlast⟩ := exists_last requests
  refine ⟨fun first => ?_, fun start hstart => ?_, (table_after hclock hlast).length_le, ?_⟩
  · by_cases hduration : 0 < duration.1
    · obtain ⟨start, hwindows⟩ :=
        @exists_windows splitHostPort limit duration requests hclock hduration hlimit host last hlast
      have hevery := hwindows.tracked.limited.every first
      rwa [(after_config requests).1, (after_config requests).2] at hevery
    · rw [countIn_eq_zero (by omega)]
      omega
  · by_cases hduration : 0 < duration.1
    · obtain ⟨_, hwindows⟩ :=
        @exists_windows splitHostPort limit duration requests hclock hduration hlimit host last hlast
      exact hwindows.bounded start hstart
    · rw [countIn_eq_zero (by omega)]
      omega
  · intro address now hnext hhost huntracked hrefused
    obtain ⟨-, -, hearlier⟩ := hnext.init
    obtain ⟨htable, hswept⟩ :=
      (@table_after splitHostPort limit duration requests hclock now hearlier).sweep
    have hnone : ((after splitHostPort limit duration requests).limiter.sweep now).windows.lookup
        host = none := by
      rcases lookup_sweep (after splitHostPort limit duration requests).limiter host now with
        hsame | ⟨hnone, -⟩
      · rw [hsame]
        exact AList.lookup_eq_none.mpr huntracked
      · exact hnone
    unfold allow at hrefused ⊢
    rw [hhost] at hrefused ⊢
    rcases admitHost_cases ((after splitHostPort limit duration requests).limiter.sweep now) host now
      with ⟨heq, ⟨hnot, hfull⟩ | ⟨window, hwindow, -⟩⟩ | ⟨heq, -⟩ | ⟨window, hwindow, -⟩
    · rw [heq]
      refine ⟨hnot, Nat.le_antisymm htable.length_le hfull, fun other window hwindow => .inr ?_⟩
      have hover := of_decide_eq_false (hswept other window hwindow)
      rw [sweep_duration, (after_config requests).2] at hover
      exact Int.not_le.mp hover
    · rw [hnone] at hwindow
      cases hwindow
    · rw [heq] at hrefused
      cases hrefused
    · rw [hnone] at hwindow
      cases hwindow

theorem allow_limits_twice :
    (∀ first : ℤ, (countIn ((after (fun _ => none) 1 ⟨10, by decide⟩
        [⟨"a", 5⟩, ⟨"a", 15⟩]).times (fun _ => none) "a") first (first + 10) : ℤ) ≤ 2) ∧
      (after (fun _ => none) 1 ⟨10, by decide⟩ [⟨"a", 5⟩, ⟨"a", 15⟩]).admitted.length = 2 := by
  have hclock : Clock [⟨"a", 5⟩, ⟨"a", 15⟩] := by
    constructor
    · decide
    · decide
  exact ⟨(allow_limits hclock (by decide) "a").1, by decide +kernel⟩

end

end RlcdDeck.Runtime.IpRateLimiter
