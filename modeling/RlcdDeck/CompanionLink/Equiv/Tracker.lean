import Mathlib.Data.List.Iterate
import Mathlib.Data.List.Nodup
import RlcdDeck.CompanionLink.Requests

/-!
# Results go to their own requests

In every history of the request tracker a result that `complete` takes belongs to the newest request
that was begun, with no reset and no other result since (`Open`).  When the service ids are unique, no
result is taken twice, and none from before a reset (`results_correlated`).
-/

namespace RlcdDeck.CompanionLink.RequestTracker

open Counter

variable {t : RequestTracker} {past before after : List Entry} {calls : List Call}
  {externalRequestId serviceRequestId : UInt64}

/-! ### The pending request -/

/-- An entry that leaves the pending request as it is. -/
def Entry.Quiet (entry : Entry) : Prop :=
  entry ≠ .transportReset ∧ ∀ serviceRequestId externalRequestId,
    entry ≠ .complete serviceRequestId (some externalRequestId)

/-- The request was begun under this service id, and nothing has ended it since. -/
def Open (past : List Entry) (externalRequestId serviceRequestId : UInt64) : Prop :=
  ∃ older between, past = older ++ .begin externalRequestId .new serviceRequestId :: between ∧
    ∀ entry ∈ between, entry.Quiet

/-- The pending request of the tracker is the one that is open. -/
def Follows (past : List Entry) (t : RequestTracker) : Prop :=
  t.pending = true → Open past t.externalRequestId t.serviceRequestId

theorem Open.concat {entry : Entry} (h : Open past externalRequestId serviceRequestId)
    (hquiet : entry.Quiet) : Open (past ++ [entry]) externalRequestId serviceRequestId := by
  obtain ⟨older, between, rfl, hbetween⟩ := h
  refine ⟨older, between ++ [entry], by simp, fun other hmem => ?_⟩
  rcases List.mem_append.mp hmem with hmem | hmem
  · exact hbetween other hmem
  · rw [List.mem_singleton.mp hmem]
    exact hquiet

theorem follows_begin (h : Follows past t) (externalRequestId : UInt64) :
    Follows (past ++ [(t.answer (.begin externalRequestId)).1])
      (t.answer (.begin externalRequestId)).2 := by
  have hquiet : ∀ result serviceRequestId,
      (Entry.begin externalRequestId result serviceRequestId).Quiet := by
    intro result serviceRequestId
    constructor
    · simp
    · intro s e
      simp
  unfold answer RequestTracker.begin
  dsimp only
  split_ifs with hzero hpending hother
  · exact fun hp => (h hp).concat (hquiet _ _)
  · exact fun hp => (h hp).concat (hquiet _ _)
  · exact fun hp => (h hp).concat (hquiet _ _)
  · intro _
    exact ⟨past, [], rfl, fun entry hmem => absurd hmem List.not_mem_nil⟩

theorem complete_eq (t : RequestTracker) (serviceRequestId : UInt64) :
    (t.answer (.complete serviceRequestId) = (.complete serviceRequestId none, t)) ∨
      (t.pending = true ∧ serviceRequestId = t.serviceRequestId ∧
        t.answer (.complete serviceRequestId) =
          (.complete serviceRequestId (some t.externalRequestId), t.transportReset)) := by
  unfold answer RequestTracker.complete
  dsimp only
  by_cases hrefused : ¬t.pending ∨ serviceRequestId = 0 ∨ serviceRequestId ≠ t.serviceRequestId
  · rw [if_pos hrefused]
    exact .inl rfl
  · rw [if_neg hrefused]
    push Not at hrefused
    exact .inr ⟨hrefused.1, hrefused.2.2, rfl⟩

theorem follows_answer (h : Follows past t) (call : Call) :
    Follows (past ++ [(t.answer call).1]) (t.answer call).2 := by
  cases call with
  | begin externalRequestId => exact follows_begin h externalRequestId
  | complete serviceRequestId =>
    rcases complete_eq t serviceRequestId with heq | ⟨-, -, heq⟩
    · rw [heq]
      refine fun hp => (h hp).concat ⟨by simp, fun s e => by simp⟩
    · rw [heq]
      intro hp
      cases hp
  | transportReset =>
    intro hp
    cases hp

/-- **A result that is taken belongs to the request that is open.** -/
theorem open_of_history (h : Follows past t)
    (heq : t.history calls = before ++ .complete serviceRequestId (some externalRequestId) :: after) :
    Open (past ++ before) externalRequestId serviceRequestId := by
  induction calls generalizing t past before with
  | nil => simp [history] at heq
  | cons call calls ih =>
    rw [history] at heq
    cases before with
    | nil =>
      obtain ⟨hentry, -⟩ := List.cons.inj heq
      rw [List.append_nil]
      cases call with
      | begin externalRequestId => cases hentry
      | transportReset => cases hentry
      | complete s =>
        rcases complete_eq t s with hnone | ⟨hpending, hservice, hsome⟩
        · rw [hnone] at hentry
          cases hentry
        · rw [hsome] at hentry
          obtain ⟨rfl, hexternal⟩ := Entry.complete.inj hentry
          obtain rfl := Option.some.inj hexternal
          rw [hservice]
          exact h hpending
    | cons entry before =>
      obtain ⟨rfl, htail⟩ := List.cons.inj heq
      have hopen := ih (follows_answer h call) htail
      rw [List.append_assoc] at hopen
      exact hopen

/-! ### Unique ids -/

theorem allocated_append (past later : List Entry) :
    allocated (past ++ later) = allocated past ++ allocated later := List.filterMap_append

theorem not_allocated_again (hunique : (allocated past).Nodup) (older between later : List Entry)
    (e e' serviceRequestId : UInt64) :
    past ≠ older ++ .begin e .new serviceRequestId :: between ++
      .begin e' .new serviceRequestId :: later := by
  rintro rfl
  have hcons : ∀ e l, allocated (.begin e .new serviceRequestId :: l) =
      serviceRequestId :: allocated l := fun _ _ => rfl
  rw [allocated_append, allocated_append, hcons, hcons] at hunique
  have hdisjoint := (List.nodup_append.mp hunique).2.2
  exact hdisjoint serviceRequestId (by simp) serviceRequestId (by simp) rfl

/-- What holds of the results in a history. -/
structure Correlated (history : List Entry) : Prop where
  /-- A result that is taken is the one of the request that was begun under its service id. -/
  own : ∀ before after serviceRequestId externalRequestId,
    history = before ++ .complete serviceRequestId (some externalRequestId) :: after →
      ∃ older between,
        before = older ++ .begin externalRequestId .new serviceRequestId :: between
  /-- It is taken once. -/
  once : ∀ before between after serviceRequestId externalRequestId externalRequestId',
    history ≠ before ++ .complete serviceRequestId (some externalRequestId) :: between ++
      .complete serviceRequestId (some externalRequestId') :: after
  /-- It is not taken after a reset. -/
  fenced : ∀ before between later after serviceRequestId externalRequestId externalRequestId',
    history ≠ before ++ .begin externalRequestId .new serviceRequestId :: between ++
      .transportReset :: later ++ .complete serviceRequestId (some externalRequestId') :: after

theorem exists_older {entry entry' : Entry} {older between : List Entry}
    (h : before ++ entry :: after = older ++ entry' :: between) (hne : entry ≠ entry')
    (hnot : entry ∉ between) : ∃ later, older = before ++ entry :: later := by
  rcases List.append_eq_append_iff.mp h with ⟨later, hlater, htail⟩ | ⟨other, -, htail⟩
  · cases later with
    | nil => exact absurd (List.cons.inj htail).1 hne
    | cons first later =>
      rw [(List.cons.inj htail).1]
      exact ⟨later, hlater⟩
  · cases other with
    | nil => exact absurd (List.cons.inj htail).1.symm hne
    | cons first other =>
      rw [(List.cons.inj htail).2] at hnot
      simp at hnot

theorem correlated_of_nodup (hopen : ∀ before after serviceRequestId externalRequestId,
      past = before ++ .complete serviceRequestId (some externalRequestId) :: after →
        Open before externalRequestId serviceRequestId)
    (hunique : (allocated past).Nodup) : Correlated past := by
  constructor
  · intro before after s e heq
    obtain ⟨older, between, hbegun, -⟩ := hopen before after s e heq
    exact ⟨older, between, hbegun⟩
  · intro before between after s e e' heq
    obtain ⟨older, quiet, hfirst, -⟩ := hopen before _ s e (heq.trans (List.append_assoc _ _ _))
    obtain ⟨older', quiet', hsecond, hquiet⟩ := hopen _ after s e' heq
    -- the first result is not among the quiet entries, so that the second request is a later one
    obtain ⟨later, rfl⟩ := exists_older hsecond (by simp) fun hmem => (hquiet _ hmem).2 s e rfl
    rw [hsecond, hfirst] at heq
    refine not_allocated_again hunique older (quiet ++ .complete s (some e) :: later)
      (quiet' ++ .complete s (some e') :: after) e e' s ?_
    rw [heq]
    simp
  · intro before between later after s e e' heq
    obtain ⟨older', quiet', hsecond, hquiet⟩ := hopen _ after s e' heq
    obtain ⟨later', rfl⟩ := exists_older hsecond (by simp) fun hmem => (hquiet _ hmem).1 rfl
    rw [hsecond] at heq
    refine not_allocated_again hunique before (between ++ .transportReset :: later')
      (quiet' ++ .complete s (some e') :: after) e e' s ?_
    rw [heq]
    simp

/-- **Results go to their own requests**, whatever the order of the calls. -/
theorem results_correlated (calls : List Call)
    (hunique : (allocated (history {} calls)).Nodup) : Correlated (history {} calls) := by
  refine correlated_of_nodup (fun before after s e heq => ?_) hunique
  have hfollows : Follows [] {} := fun hp => by cases hp
  exact open_of_history hfollows heq

/-- A result that arrives late, after a reset and for an id that was not allocated again. -/
theorem results_correlated_late :
    Correlated (history {} [.begin 7, .transportReset, .begin 8, .complete 1, .complete 2]) :=
  results_correlated _ (by decide)

end RlcdDeck.CompanionLink.RequestTracker
