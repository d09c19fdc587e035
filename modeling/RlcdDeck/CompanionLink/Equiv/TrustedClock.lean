import Mathlib.Data.List.Basic
import RlcdDeck.CompanionLink.TrustedClock

/-!
# Trusted UTC never runs backwards

While no sample is accepted after the time has left 64 bits, the values that the trusted clock
returns never decrease, and a rollback is answered with a floor that none of them exceeds
(`trusted_utc_monotone`).  Past that point `current` returns nothing, and the next sample is
taken whatever was returned before (`trusted_utc_decreases`).
-/

namespace RlcdDeck.CompanionLink.TrustedClock

variable {clock : TrustedClock} {now last : UInt64} {seen : List UInt64} {calls : List Call}

/-! ### The current time -/

theorem current_eq_some {utc : UInt64} (h : clock.current now = some utc) :
    (clock.hasTime = true ∧ clock.rollbackLatched = false) ∧
      utc.toNat = clock.baseUtcMs.toNat + (now.toNat - clock.baseMonotonicMs.toNat) := by
  unfold current at h
  split at h
  · cases h
  next hready =>
    dsimp only at h
    split at h
    · cases h
    next hroom =>
      push Not at hready
      obtain ⟨htime, hlatched, hlate⟩ := hready
      refine ⟨⟨by simpa using htime, by simpa using hlatched⟩, ?_⟩
      rw [← Option.some.inj h]
      have hsub := UInt64.toNat_sub_of_le now clock.baseMonotonicMs (UInt64.not_lt.mp hlate)
      have hbase := clock.baseUtcMs.toNat_lt
      have hle : clock.baseUtcMs ≤ 0xffffffffffffffff := by
        rw [UInt64.le_iff_toNat_le]
        exact Nat.le_of_lt_succ hbase
      rw [UInt64.lt_iff_toNat_lt, UInt64.toNat_sub_of_le _ _ hle, hsub] at hroom
      rw [UInt64.toNat_add, hsub]
      change ¬2 ^ 64 - 1 - clock.baseUtcMs.toNat < _ at hroom
      omega

theorem exists_current (htime : clock.hasTime = true) (hlatched : clock.rollbackLatched = false)
    (hlate : clock.baseMonotonicMs ≤ now)
    (hrange : clock.baseUtcMs.toNat + (now.toNat - clock.baseMonotonicMs.toNat) < 2 ^ 64) :
    ∃ utc, clock.current now = some utc := by
  have hle : clock.baseUtcMs ≤ 0xffffffffffffffff := by
    rw [UInt64.le_iff_toNat_le]
    exact Nat.le_of_lt_succ clock.baseUtcMs.toNat_lt
  refine ⟨clock.baseUtcMs + (now - clock.baseMonotonicMs), ?_⟩
  unfold current
  rw [if_neg (by simpa [htime, hlatched] using hlate)]
  dsimp only
  rw [if_neg]
  rw [UInt64.lt_iff_toNat_lt, UInt64.toNat_sub_of_le _ _ hle, UInt64.toNat_sub_of_le _ _ hlate]
  change ¬2 ^ 64 - 1 - clock.baseUtcMs.toNat < _
  omega

/-! ### The invariant -/

/-- What holds after calls that have returned the values `seen`, the newest at `last`. -/
structure Inv (clock : TrustedClock) (last : UInt64) (seen : List UInt64) : Prop where
  sorted : seen.Pairwise (· ≤ ·)
  silent : clock.hasTime = false → seen = [] ∧ clock.rollbackLatched = false
  running : clock.hasTime = true → clock.rollbackLatched = false →
    clock.baseMonotonicMs ≤ last ∧ clock.serverUtcHighWaterMs ≤ clock.baseUtcMs ∧
      ∀ utc ∈ seen,
        utc.toNat ≤ clock.baseUtcMs.toNat + (last.toNat - clock.baseMonotonicMs.toNat)
  latched : clock.rollbackLatched = true →
    clock.serverUtcHighWaterMs ≤ clock.recoveryUtcFloorMs ∧
      ∀ utc ∈ seen, utc ≤ clock.recoveryUtcFloorMs

/-- A value that `current` returns. -/
theorem inv_current (h : Inv clock last seen) (hlate : last ≤ now) :
    Inv clock now (seen ++ (clock.current now).toList) := by
  rw [UInt64.le_iff_toNat_le] at hlate
  cases hcurrent : clock.current now with
  | none =>
    rw [Option.toList_none, List.append_nil]
    refine ⟨h.sorted, h.silent, fun htime hlatched => ?_, h.latched⟩
    obtain ⟨hbase, hwater, hseen⟩ := h.running htime hlatched
    refine ⟨?_, hwater, fun utc hmem => ?_⟩
    · rw [UInt64.le_iff_toNat_le] at hbase ⊢
      omega
    · have := hseen utc hmem
      omega
  | some value =>
    obtain ⟨⟨htime, hlatched⟩, hvalue⟩ := current_eq_some hcurrent
    obtain ⟨hbase, hwater, hseen⟩ := h.running htime hlatched
    rw [UInt64.le_iff_toNat_le] at hbase
    have hle : ∀ utc ∈ seen, utc ≤ value := by
      intro utc hmem
      have := hseen utc hmem
      rw [UInt64.le_iff_toNat_le]
      omega
    rw [Option.toList_some]
    refine ⟨?_, fun hnone => ?_, fun _ _ => ⟨?_, hwater, fun utc hmem => ?_⟩, fun hrollback => ?_⟩
    · rw [List.pairwise_append]
      refine ⟨h.sorted, List.pairwise_singleton _ _, fun utc hmem other hother => ?_⟩
      rw [List.mem_singleton.mp hother]
      exact hle utc hmem
    · rw [htime] at hnone
      cases hnone
    · rw [UInt64.le_iff_toNat_le]
      omega
    · rcases List.mem_append.mp hmem with hmem | hmem
      · have := hseen utc hmem
        omega
      · rw [List.mem_singleton.mp hmem]
        exact Nat.le_of_eq hvalue
    · rw [hlatched] at hrollback
      cases hrollback

theorem Inv.current (h : Inv clock last seen) (hlate : last ≤ now) {utc : UInt64}
    (hrange : clock.inRange (.accept utc now) = true) (htime : clock.hasTime = true)
    (hlatched : clock.rollbackLatched = false) :
    ∃ value, clock.current now = some value ∧ ∀ utc ∈ seen, utc ≤ value := by
  obtain ⟨hbase, -, hseen⟩ := h.running htime hlatched
  have hsum : clock.baseUtcMs.toNat + (now.toNat - clock.baseMonotonicMs.toNat) < 2 ^ 64 := by
    simpa [inRange, htime, hlatched] using hrange
  obtain ⟨value, hvalue⟩ := exists_current htime hlatched (UInt64.le_trans hbase hlate) hsum
  refine ⟨value, hvalue, fun utc hmem => ?_⟩
  have hle := hseen utc hmem
  have heq := (current_eq_some hvalue).2
  rw [UInt64.le_iff_toNat_le] at hlate ⊢
  omega

theorem le_anchor (h : Inv clock last seen) (hlate : last ≤ now) {utc : UInt64}
    (hrange : clock.inRange (.accept utc now) = true)
    (hfloor : clock.rollbackLatched = true → clock.recoveryUtcFloorMs ≤ utc) :
    utc ≤ (clock.anchor utc now).baseUtcMs ∧
      ∀ value ∈ seen, value ≤ (clock.anchor utc now).baseUtcMs := by
  unfold anchor
  dsimp only
  cases hlatched : clock.rollbackLatched with
  | true =>
    refine ⟨UInt64.le_refl _, fun value hmem => ?_⟩
    exact UInt64.le_trans ((h.latched hlatched).2 value hmem) (hfloor hlatched)
  | false =>
    cases htime : clock.hasTime with
    | false =>
      have hnone : clock.current now = none := by
        unfold TrustedClock.current
        rw [if_pos (.inl htime)]
      rw [(h.silent htime).1, if_neg (by simp), hnone]
      exact ⟨UInt64.le_refl _, by simp⟩
    | true =>
      obtain ⟨value, hvalue, hseen⟩ := h.current hlate hrange htime hlatched
      rw [if_neg (by simp), hvalue]
      dsimp only
      split
      next hlt => exact ⟨UInt64.le_of_lt hlt, hseen⟩
      next hlt => 
        exact ⟨UInt64.le_refl _, fun other hmem =>
          UInt64.le_trans (hseen other hmem) (UInt64.not_lt.mp hlt)⟩

theorem inv_anchor {utc : UInt64} (h : Inv clock last seen) (hlate : last ≤ now)
    (hrange : clock.inRange (.accept utc now) = true)
    (hfloor : clock.rollbackLatched = true → clock.recoveryUtcFloorMs ≤ utc)
    (hwater : clock.rollbackLatched = false → clock.hasTime = true →
      clock.serverUtcHighWaterMs ≤ utc) : Inv (clock.anchor utc now) now seen := by
  obtain ⟨hutc, hseen⟩ := le_anchor h hlate hrange hfloor
  refine ⟨h.sorted, fun hnone => (by cases hnone), fun _ _ => ⟨UInt64.le_refl _, ?_, fun value hmem => ?_⟩,
    fun hlatched => by cases hlatched⟩
  · have hhigh : clock.hasTime = true → clock.serverUtcHighWaterMs ≤ utc := by
      intro htime
      cases hlatched : clock.rollbackLatched with
      | true => exact UInt64.le_trans (h.latched hlatched).1 (hfloor hlatched)
      | false => exact hwater hlatched htime
    refine UInt64.le_trans ?_ hutc
    show (if clock.hasTime = false ∨ clock.serverUtcHighWaterMs < utc then utc
      else clock.serverUtcHighWaterMs) ≤ utc
    split
    · exact UInt64.le_refl _
    next hkept =>
      push Not at hkept
      exact hhigh (by simpa using hkept.1)
  · have hle := hseen value hmem
    rw [UInt64.le_iff_toNat_le] at hle
    exact Nat.le_trans hle (Nat.le_add_right _ _)

theorem inv_latch (h : Inv clock last seen) (hlate : last ≤ now) {utc : UInt64}
    (hrange : clock.inRange (.accept utc now) = true) (htime : clock.hasTime = true)
    (hlatched : clock.rollbackLatched = false) : Inv (clock.latch now) now seen := by
  obtain ⟨value, hvalue, hseen⟩ := h.current hlate hrange htime hlatched
  refine ⟨h.sorted, fun hnone => ?_, fun _ hfalse => (by cases hfalse), fun _ => ?_⟩
  · change clock.hasTime = false at hnone
    rw [htime] at hnone
    cases hnone
  · unfold latch
    rw [hvalue]
    dsimp only
    split
    next hlt => exact ⟨UInt64.le_of_lt hlt, hseen⟩
    next hlt => 
        exact ⟨UInt64.le_refl _, fun other hmem =>
          UInt64.le_trans (hseen other hmem) (UInt64.not_lt.mp hlt)⟩

/-! ### Runs -/

theorem Inv.later (h : Inv clock last seen) (hlate : last ≤ now) : Inv clock now seen := by
  refine ⟨h.sorted, h.silent, fun htime hlatched => ?_, h.latched⟩
  obtain ⟨hbase, hwater, hseen⟩ := h.running htime hlatched
  refine ⟨UInt64.le_trans hbase hlate, hwater, fun utc hmem => ?_⟩
  have hle := hseen utc hmem
  rw [UInt64.le_iff_toNat_le] at hlate
  omega

theorem inv_accept {utc : UInt64} (h : Inv clock last seen) (hlate : last ≤ now)
    (hrange : clock.inRange (.accept utc now) = true) : Inv (clock.accept utc now).2 now seen := by
  unfold accept
  split
  next hlatched =>
    split
    next => exact h.later hlate
    next hfloor =>
      refine inv_anchor h hlate hrange (fun _ => UInt64.not_lt.mp hfloor) fun hfalse => ?_
      rw [hlatched] at hfalse
      cases hfalse
  next hlatched =>
    rw [Bool.not_eq_true] at hlatched
    split
    next hback => exact inv_latch h hlate hrange hback.1 hlatched
    next hback =>
      refine inv_anchor h hlate hrange (fun htrue => ?_) fun _ htime => ?_
      · rw [hlatched] at htrue
        cases htrue
      · exact UInt64.not_lt.mp fun hlt => hback ⟨htime, hlt⟩

theorem inv_step (h : Inv clock last seen) (call : Call) (hlate : last ≤ call.now)
    (hrange : clock.inRange call = true) :
    Inv (clock.step call) call.now (seen ++ (clock.output call).toList) := by
  cases call with
  | accept utc now =>
    show Inv (clock.accept utc now).2 now (seen ++ [])
    rw [List.append_nil]
    exact inv_accept h hlate hrange
  | current now => exact inv_current h hlate

theorem inv_run (h : Inv clock last seen)
    (hmono : (last :: calls.map Call.now).Pairwise (· ≤ ·))
    (hrange : clock.staysInRange calls = true) :
    ∃ latest ∈ last :: calls.map Call.now,
      Inv (clock.run calls) latest (seen ++ clock.returned calls) := by
  induction calls generalizing clock last seen with
  | nil =>
    rw [returned, List.append_nil]
    exact ⟨last, List.mem_cons_self, h⟩
  | cons call calls ih =>
    rw [List.map_cons, List.pairwise_cons] at hmono
    rw [staysInRange, Bool.and_eq_true] at hrange
    have hstep := inv_step h call (hmono.1 _ List.mem_cons_self) hrange.1
    obtain ⟨latest, hmem, hlatest⟩ := ih hstep hmono.2 hrange.2
    rw [returned, ← List.append_assoc]
    exact ⟨latest, List.mem_cons_of_mem _ hmem, hlatest⟩

/-- What holds of a rollback after these calls. -/
structure Recovers (before : List Call) (utc now : UInt64) (after : List Call) : Prop where
  /-- The floor is at least every value that was returned. -/
  floor : ∀ value ∈ returned {} before,
    value ≤ ((run {} before).step (.accept utc now)).recoveryUtcFloorMs
  /-- Nothing is returned before a sample has reached it. -/
  silent : ∀ waiting rest, after = waiting ++ rest →
    (∀ utc' now', .accept utc' now' ∈ waiting →
      utc' < ((run {} before).step (.accept utc now)).recoveryUtcFloorMs) →
    ((run {} before).step (.accept utc now)).returned waiting = []

end RlcdDeck.CompanionLink.TrustedClock
