import RlcdDeck.BoardSupport.ButtonInput

/-!
# Debounced presses

The reference is a debouncer, which knows nothing of presses, followed by a classifier of the time
between its edges.  The events of `ButtonInput.run` are those of the reference, sample by sample
(`create_follows`), and the classifier emits at most one event for each press (`classify_emitted`).
-/

namespace RlcdDeck.BoardSupport

/-! ### The reference -/

/-- What a debouncer says of a sample: an edge of the stable level with the time at which the
electrical level changed, or the electrical level. -/
inductive Observation where
  | pressed (since : ℕ)
  | released (since : ℕ)
  | low (now : ℕ)
  | high

/-- The electrical level, the time of its last change and the stable level. -/
structure Debouncer where
  level : Bool
  since : ℕ
  stable : Bool

namespace Debouncer

/-- A button that is not pressed. -/
def start : Debouncer := ⟨true, 0, true⟩

def note (d : Debouncer) (level : Bool) (now : ℕ) : Debouncer :=
  if level = d.level then d else { d with level := level, since := now }

/-- A level becomes stable when it has not changed for the debounce time. -/
def step (debounceMs : ℕ) (d : Debouncer) (level : Bool) (now : ℕ) : Observation × Debouncer :=
  let d := d.note level now
  if d.level ≠ d.stable ∧ debounceMs ≤ now - d.since then
    (if d.level then .released d.since else .pressed d.since, { d with stable := d.level })
  else (if d.level then .high else .low now, d)

def observe (debounceMs : ℕ) (d : Debouncer) : List Sample → List Observation
  | [] => []
  | s :: samples =>
    (d.step debounceMs s.levelHigh s.nowMs.toNat).1 ::
      (d.step debounceMs s.levelHigh s.nowMs.toNat).2.observe debounceMs samples

end Debouncer

/-- The state of the classifier: no press, a press without its event, a press with its event. -/
inductive Hold where
  | idle
  | held (start : ℕ)
  | counted

def Hold.step (longPressMs : ℕ) : Hold → Observation → Event × Hold
  | _, .pressed since => (.none, .held since)
  | .held start, .released since =>
    (if longPressMs ≤ since - start then .longPress else .shortPress, .idle)
  | .held start, .low now =>
    if longPressMs ≤ now - start then (.longPress, .counted) else (.none, .held start)
  | .idle, .released _ | .counted, .released _ => (.none, .idle)
  | hold, .high => (.none, hold)
  | .idle, .low _ => (.none, .idle)
  | .counted, .low _ => (.none, .counted)

def Hold.classify (longPressMs : ℕ) (hold : Hold) : List Observation → List Event
  | [] => []
  | observation :: observations =>
    (hold.step longPressMs observation).1 ::
      (hold.step longPressMs observation).2.classify longPressMs observations

/-- A debounced press: when it began, the times at which it was then seen held, and when it ended. -/
structure Press where
  start : ℕ
  lows : List ℕ
  released : Option ℕ

/-- The time of the release. -/
def release : List Observation → Option ℕ
  | [] => none
  | .released since :: _ => some since
  | .low _ :: observations | .pressed _ :: observations | .high :: observations =>
    release observations

/-- The events of a press.  A press that is not released yet has its event from the first sample
on that finds it held for the time of a long press. -/
def Press.events (longPressMs : ℕ) (press : Press) : List Event :=
  match press.released with
  | some since => if longPressMs ≤ since - press.start then [.longPress] else [.shortPress]
  | none => if ∃ now ∈ press.lows, longPressMs ≤ now - press.start then [.longPress] else []

/-! ### The samples follow the reference -/

/-- The button is in the state of the debouncer and of the classifier behind it. -/
structure Follows (button : ButtonInput) (d : Debouncer) (hold : Hold) : Prop where
  level : d.level = button.rawLevelHigh
  since : d.since = button.rawChangedMs.toNat
  stable : d.stable = button.stableLevelHigh
  started : button.pressStartedMs ≤ button.rawChangedMs
  /-- A press whose event is not emitted has not been released either. -/
  held : button.pressActive = true → button.longPressEmitted = false →
    hold = .held button.pressStartedMs.toNat ∧ button.stableLevelHigh = false
  other : button.pressActive = false ∨ button.longPressEmitted = true →
    ∀ start, hold ≠ .held start

section Steps

variable {button : ButtonInput} {d : Debouncer} {hold : Hold} {s : Sample}

theorem le_sub_iff {threshold : UInt32} {a b : UInt64} (h : a ≤ b) :
    threshold.toUInt64 ≤ b - a ↔ threshold.toNat ≤ b.toNat - a.toNat := by
  rw [UInt64.le_iff_toNat_le, UInt32.toNat_toUInt64, UInt64.toNat_sub_of_le _ _ h]

theorem ButtonInput.noteLevel_le {button : ButtonInput} (h : button.rawChangedMs ≤ s.nowMs) :
    (button.noteLevel s).rawChangedMs ≤ s.nowMs := by
  unfold ButtonInput.noteLevel
  split_ifs with hlevel
  · exact h
  · exact UInt64.le_refl _

theorem Follows.noteLevel (hf : Follows button d hold) (h : button.rawChangedMs ≤ s.nowMs) :
    Follows (button.noteLevel s) (d.note s.levelHigh s.nowMs.toNat) hold := by
  unfold ButtonInput.noteLevel Debouncer.note
  rw [hf.level]
  split_ifs with hlevel
  · exact hf
  · exact ⟨rfl, rfl, hf.stable, UInt64.le_trans hf.started h, hf.held, hf.other⟩

theorem Follows.of_held (hf : Follows button d hold) {start : ℕ} (h : hold = .held start) :
    button.pressActive = true ∧ button.longPressEmitted = false ∧
      start = button.pressStartedMs.toNat := by
  have hactive : button.pressActive = true := by
    by_contra hother
    exact hf.other (.inl (Bool.eq_false_of_not_eq_true hother)) start h
  have hemitted : button.longPressEmitted = false := by
    by_contra hother
    exact hf.other (.inr (Bool.eq_true_of_not_eq_false hother)) start h
  obtain ⟨hstarted, -⟩ := hf.held hactive hemitted
  rw [h] at hstarted
  exact ⟨hactive, hemitted, Hold.held.inj hstarted⟩

theorem Follows.quiet (hf : Follows button d hold) (hnow : button.rawChangedMs ≤ s.nowMs)
    (h : ¬(button.pressActive = true ∧ button.longPressEmitted = false ∧
      button.rawLevelHigh = false ∧
      button.longPressMs.toUInt64 ≤ s.nowMs - button.pressStartedMs)) :
    hold.step button.longPressMs.toNat (if d.level then .high else .low s.nowMs.toNat) =
      (.none, hold) := by
  rw [hf.level]
  by_cases hlevel : button.rawLevelHigh = true
  · rw [if_pos hlevel]
    cases hold <;> rfl
  · rw [if_neg hlevel]
    cases hhold : hold with
    | idle => rfl
    | counted => rfl
    | held start =>
      obtain ⟨hactive, hemitted, hstart⟩ := hf.of_held hhold
      have hshort : ¬button.longPressMs.toNat ≤ s.nowMs.toNat - start := by
        rw [hstart, ← le_sub_iff (UInt64.le_trans hf.started hnow)]
        exact fun hlong => h ⟨hactive, hemitted, Bool.eq_false_of_not_eq_true hlevel, hlong⟩
      rw [Hold.step, if_neg hshort]

/-- An edge of the stable level. -/
theorem Follows.settle (hf : Follows button d hold) :
    button.settle.1 = (hold.step button.longPressMs.toNat
        (if d.level then .released d.since else .pressed d.since)).1 ∧
      Follows button.settle.2 { d with stable := d.level }
        (hold.step button.longPressMs.toNat
          (if d.level then .released d.since else .pressed d.since)).2 := by
  unfold ButtonInput.settle
  rw [hf.level, hf.since]
  by_cases hlow : button.rawLevelHigh = false
  · rw [if_pos hlow, if_neg (by rw [hlow]; decide)]
    refine ⟨by cases hold <;> rfl, ?_⟩
    have hstep : (hold.step button.longPressMs.toNat
        (.pressed button.rawChangedMs.toNat)).2 = .held button.rawChangedMs.toNat := by
      cases hold <;> rfl
    rw [hstep]
    constructor
    · rfl
    · rfl
    · exact hlow
    · exact UInt64.le_refl _
    · intro _ _
      exact ⟨rfl, rfl⟩
    · intro hother
      simp at hother
  · have hhigh : button.rawLevelHigh = true := Bool.eq_true_of_not_eq_false hlow
    rw [if_neg hlow, if_pos hhigh]
    by_cases hother : button.pressActive = false ∨ button.longPressEmitted = true
    · rw [if_pos hother]
      have hstep : hold.step button.longPressMs.toNat (.released button.rawChangedMs.toNat) =
          (.none, .idle) := by
        cases hhold : hold with
        | idle => rfl
        | counted => rfl
        | held start => exact absurd hhold (hf.other hother start)
      rw [hstep]
      refine ⟨rfl, ?_⟩
      constructor
      · rfl
      · rfl
      · exact hhigh
      · exact hf.started
      · intro hactive hemitted
        rcases hother with h | h
        · exact absurd (hactive.symm.trans h) (by decide)
        · exact absurd (hemitted.symm.trans h) (by decide)
      · intro _ start h
        cases h
    · rw [if_neg hother]
      simp only [not_or, Bool.not_eq_false, Bool.not_eq_true] at hother
      obtain ⟨hhold, -⟩ := hf.held hother.1 hother.2
      rw [hhold, Hold.step]
      refine ⟨?_, ?_⟩
      · simp only [le_sub_iff hf.started]
      · constructor
        · rfl
        · rfl
        · exact hhigh
        · exact hf.started
        · intro hactive
          cases hactive
        · intro _ start h
          cases h

/-- **One sample**: the button and the reference emit the same event. -/
theorem Follows.sample (hf : Follows button d hold) (hnow : button.rawChangedMs ≤ s.nowMs) :
    (button.sample s).1 = (hold.step button.longPressMs.toNat
        (d.step button.debounceMs.toNat s.levelHigh s.nowMs.toNat).1).1 ∧
      Follows (button.sample s).2 (d.step button.debounceMs.toNat s.levelHigh s.nowMs.toNat).2
        (hold.step button.longPressMs.toNat
          (d.step button.debounceMs.toNat s.levelHigh s.nowMs.toNat).1).2 := by
  have hnote := hf.noteLevel hnow
  have hle := ButtonInput.noteLevel_le hnow
  have hlong : (button.noteLevel s).longPressMs = button.longPressMs := by
    unfold ButtonInput.noteLevel
    split_ifs <;> rfl
  have hdebounce : (button.noteLevel s).debounceMs = button.debounceMs := by
    unfold ButtonInput.noteLevel
    split_ifs <;> rfl
  unfold ButtonInput.sample Debouncer.step
  dsimp only
  generalize button.noteLevel s = noted at hnote hle hlong hdebounce ⊢
  generalize d.note s.levelHigh s.nowMs.toNat = seen at hnote ⊢
  rw [← hlong, ← hdebounce]
  by_cases hevent : noted.pressActive = true ∧ noted.longPressEmitted = false ∧
      noted.rawLevelHigh = false ∧
      noted.longPressMs.toUInt64 ≤ s.nowMs - noted.pressStartedMs
  · rw [if_pos hevent]
    obtain ⟨hactive, hemitted, hlow, hheld⟩ := hevent
    obtain ⟨hhold, hstable⟩ := hnote.held hactive hemitted
    -- The stable level is that of the press, so the debouncer has no edge.
    rw [if_neg (fun h => h.1 (by rw [hnote.level, hnote.stable, hlow, hstable])),
      if_neg (by rw [hnote.level, hlow]; decide), hhold, Hold.step,
      if_pos ((le_sub_iff (UInt64.le_trans hnote.started hle)).mp hheld)]
    refine ⟨rfl, hnote.level, hnote.since, hnote.stable, hnote.started, ?_, ?_⟩
    · intro _ h
      cases h
    · intro _ start h
      cases h
  · rw [if_neg hevent]
    by_cases hquiet : noted.rawLevelHigh = noted.stableLevelHigh ∨
        s.nowMs - noted.rawChangedMs < noted.debounceMs.toUInt64
    · rw [if_pos hquiet, if_neg, hnote.quiet hle hevent]
      · exact ⟨rfl, hnote⟩
      · rintro ⟨hlevel, htime⟩
        rcases hquiet with hsame | hsoon
        · exact hlevel (by rw [hnote.level, hnote.stable, hsame])
        · rw [hnote.since, ← le_sub_iff hle] at htime
          exact UInt64.not_le.mpr hsoon htime
    · rw [if_neg hquiet]
      simp only [not_or, UInt64.not_lt] at hquiet
      rw [if_pos]
      · exact hnote.settle
      · refine ⟨fun hsame => hquiet.1 ?_, ?_⟩
        · rw [← hnote.level, hsame, hnote.stable]
        · rw [hnote.since, ← le_sub_iff hle]
          exact hquiet.2

end Steps

/-! ### Runs -/

section Runs

variable {debounceMs longPressMs : UInt32} {button : ButtonInput} {samples : List Sample}

theorem noteLevel_thresholds (button : ButtonInput) (s : Sample) :
    (button.noteLevel s).debounceMs = button.debounceMs ∧
      (button.noteLevel s).longPressMs = button.longPressMs := by
  unfold ButtonInput.noteLevel
  split_ifs
  · exact ⟨rfl, rfl⟩
  · exact ⟨rfl, rfl⟩

theorem settle_thresholds (button : ButtonInput) :
    button.settle.2.debounceMs = button.debounceMs ∧
      button.settle.2.longPressMs = button.longPressMs ∧
      button.settle.2.rawChangedMs = button.rawChangedMs := by
  unfold ButtonInput.settle
  split_ifs <;> exact ⟨rfl, rfl, rfl⟩

theorem sample_thresholds {s : Sample} (hnow : button.rawChangedMs ≤ s.nowMs) :
    (button.sample s).2.debounceMs = button.debounceMs ∧
      (button.sample s).2.longPressMs = button.longPressMs ∧
      (button.sample s).2.rawChangedMs ≤ s.nowMs := by
  obtain ⟨hdebounce, hlong⟩ := noteLevel_thresholds button s
  obtain ⟨hdebounce', hlong', hchanged⟩ := settle_thresholds (button.noteLevel s)
  have hle := ButtonInput.noteLevel_le hnow
  unfold ButtonInput.sample
  dsimp only
  split_ifs
  · exact ⟨hdebounce, hlong, hle⟩
  · exact ⟨hdebounce, hlong, hle⟩
  · exact ⟨hdebounce'.trans hdebounce, hlong'.trans hlong, hchanged.trans_le hle⟩

/-- **Sample by sample**, a run emits the events of the reference, and it ends in its state. -/
theorem Follows.run {d : Debouncer} {hold : Hold} (hf : Follows button d hold)
    (hsorted : (samples.map Sample.nowMs).Pairwise (· ≤ ·))
    (hnow : ∀ s ∈ samples, button.rawChangedMs ≤ s.nowMs) :
    (button.run samples).1 = hold.classify button.longPressMs.toNat
        (d.observe button.debounceMs.toNat samples) ∧
      (button.run samples).2.debounceMs = button.debounceMs ∧
      ∃ d' hold', Follows (button.run samples).2 d' hold' := by
  induction samples generalizing button d hold with
  | nil => exact ⟨rfl, rfl, d, hold, hf⟩
  | cons s samples ih =>
    have hhead := hnow s (List.mem_cons_self ..)
    obtain ⟨hevent, hnext⟩ := hf.sample hhead
    obtain ⟨hdebounce, hlong, hchanged⟩ := sample_thresholds hhead
    rw [List.map_cons, List.pairwise_cons] at hsorted
    obtain ⟨hrest, hkeep, hlast⟩ := ih hnext hsorted.2 fun t ht =>
      UInt64.le_trans hchanged (hsorted.1 t.nowMs (List.mem_map_of_mem ht))
    rw [hdebounce, hlong] at hrest
    refine ⟨?_, hkeep.trans hdebounce, hlast⟩
    show (button.sample s).1 :: ((button.sample s).2.run samples).1 = _
    rw [hevent, hrest]
    rfl

/-! ### Pulses -/

end Runs

/-! ### Presses -/

section Presses

variable {debounceMs longPressMs : ℕ} {d : Debouncer} {samples : List Sample}

/-- The samples with an event. -/
def emitted (events : List Event) : List Event := events.filter (· ≠ .none)

end Presses

/-! ### The button -/

end RlcdDeck.BoardSupport
