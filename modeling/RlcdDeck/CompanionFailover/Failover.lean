import Mathlib.Data.List.Nodup
import Mathlib.Tactic.Ring

/-!
# The Companion failover

The model of `deck_companion_failover.cpp`: when the stored active Companion stays offline for a
whole window, the other profiles are requested one after the other, and then the active one again.

Identifiers are the characters of the source's strings.  `Profiles` carries what
`deck_companion_profiles` checks of every set it hands out (`valid_set`).  Times and the mask are
naturals: the clock is only compared, and five profiles stay within the mask's eight bits.  Null
checks are left out.
-/

namespace RlcdDeck.CompanionFailover

/-- `kOfflineWindowMs`. -/
def offlineWindowMs : ℕ := 30000

/-- `DECK_COMPANION_PROFILE_ID_CAPACITY`. -/
def profileIdCapacity : ℕ := 72

/-- `DECK_COMPANION_MAX_PROFILES`. -/
def maxProfiles : ℕ := 5

/-- A profile identifier. -/
abbrev Id := List UInt8

/-- The part of `deck_companion_profile_view_t` the failover reads. -/
structure Profile where
  profileId : Id
  priority : ℤ
  lastSuccessUnixMs : ℕ
  deriving DecidableEq, Inhabited

/-- `deck_companion_profiles_snapshot_t`; `has_active` says that there is a profile. -/
structure Profiles where
  generation : UInt32
  profiles : List Profile
  activeIndex : ℕ
  count_le : profiles.length ≤ maxProfiles
  distinct : (profiles.map Profile.profileId).Nodup
  terminated : ∀ p ∈ profiles, p.profileId.length < profileIdCapacity
  active_lt : profiles ≠ [] → activeIndex < profiles.length

namespace Profiles

def hasActive (ps : Profiles) : Bool :=
  !ps.profiles.isEmpty

/-- The profile at an index. -/
def get (ps : Profiles) (i : ℕ) : Profile :=
  ps.profiles.getD i ⟨[], 0, 0⟩

/-- `active_profile_id`, empty without a profile. -/
def activeProfileId (ps : Profiles) : Id :=
  (ps.get ps.activeIndex).profileId

end Profiles

/-- `deck_companion_failover_event_t`. -/
inductive Event where
  | profilesObserved
  | transportFailed
  | online
  | tick
  deriving DecidableEq

/-- `deck_companion_failover_action_t`: a connection that is requested. -/
structure Action where
  profileGeneration : UInt32
  profileId : Id

/-- `deck_companion_failover_t`. -/
structure Failover where
  initialized : Bool := false
  online : Bool := false
  offline : Bool := false
  roundActive : Bool := false
  attemptedMask : ℕ := 0
  profileGeneration : UInt32 := 0
  offlineSinceMs : ℕ := 0
  storedActiveProfileId : Id := []
  targetProfileId : Id := []

/-- What a call answers: whether it succeeded, the failover after it and the action. -/
structure Answer where
  ok : Bool
  failover : Failover
  action : Option Action

/-- Whether `copy_id` succeeds. -/
def fits (id : Id) : Bool :=
  id.length < profileIdCapacity

def connectTo (f : Failover) (ps : Profiles) (id : Id) : Answer :=
  if !fits id then ⟨false, f, none⟩
  else ⟨true, { f with targetProfileId := id, online := false }, some ⟨ps.generation, id⟩⟩

/-- The index of a profile; `none` is -1. -/
def profileIndex (ps : Profiles) (id : Id) : Option ℕ :=
  ps.profiles.findIdx? fun p => p.profileId == id

/-- The profile at `i` comes before the one at `j` that was best so far. -/
def better (ps : Profiles) (i j : ℕ) : Bool :=
  (ps.get i).priority > (ps.get j).priority ||
    ((ps.get i).priority = (ps.get j).priority &&
      (ps.get i).lastSuccessUnixMs > (ps.get j).lastSuccessUnixMs)

/-- One index of the loop of `best_unattempted`. -/
def bestStep (f : Failover) (ps : Profiles) (best : Option ℕ) (i : ℕ) : Option ℕ :=
  if f.attemptedMask.testBit i || (ps.get i).profileId = f.storedActiveProfileId then best
  else
    match best with
    | none => some i
    | some j => if better ps i j then some i else some j

def bestUnattempted (f : Failover) (ps : Profiles) : Option ℕ :=
  (List.range ps.profiles.length).foldl (bestStep f ps) none

def advanceRound (f : Failover) (ps : Profiles) (nowMs : ℕ) : Answer :=
  match bestUnattempted f ps with
  | some next =>
    connectTo { f with attemptedMask := f.attemptedMask ||| 2 ^ next } ps (ps.get next).profileId
  | none =>
    let returningFromCandidate := f.targetProfileId ≠ f.storedActiveProfileId
    let f := { f with roundActive := false, attemptedMask := 0, offlineSinceMs := nowMs }
    if ¬returningFromCandidate then ⟨true, f, none⟩
    else connectTo f ps f.storedActiveProfileId

def profilesChanged (f : Failover) (ps : Profiles) (nowMs : ℕ) (event : Event) : Answer :=
  let acceptedTargetBecameActive :=
    decide (event = .online) && ps.hasActive && !f.targetProfileId.isEmpty &&
      decide (f.targetProfileId = ps.activeProfileId)
  let f :=
    { f with
      initialized := true
      profileGeneration := ps.generation
      online := acceptedTargetBecameActive
      offline := ps.hasActive && !acceptedTargetBecameActive
      roundActive := false
      attemptedMask := 0
      offlineSinceMs := nowMs
      storedActiveProfileId := []
      targetProfileId := [] }
  if !ps.hasActive then ⟨true, f, none⟩
  else if !fits ps.activeProfileId then ⟨false, f, none⟩
  else
    let f := { f with storedActiveProfileId := ps.activeProfileId }
    if acceptedTargetBecameActive then
      ⟨true, { f with targetProfileId := ps.activeProfileId }, none⟩
    else connectTo f ps ps.activeProfileId

def advance (f : Failover) (ps : Profiles) (nowMs : ℕ) (event : Event) : Answer :=
  if f.initialized = false ∨ f.profileGeneration ≠ ps.generation then
    profilesChanged f ps nowMs event
  else
    match event with
    | .online =>
      ⟨true,
        { f with online := true, offline := false, roundActive := false, attemptedMask := 0 }, none⟩
    | .transportFailed =>
      let f := { f with online := false }
      let f := if !f.offline then { f with offline := true, offlineSinceMs := nowMs } else f
      if f.roundActive then advanceRound f ps nowMs else ⟨true, f, none⟩
    | .profilesObserved => ⟨true, f, none⟩
    | .tick =>
      if !f.offline || f.roundActive || nowMs < f.offlineSinceMs ||
          nowMs - f.offlineSinceMs < offlineWindowMs then ⟨true, f, none⟩
      else
        let f :=
          match profileIndex ps f.storedActiveProfileId with
          | some active => { f with attemptedMask := f.attemptedMask ||| 2 ^ active }
          | none => f
        advanceRound { f with roundActive := true } ps nowMs

end RlcdDeck.CompanionFailover
