import Mathlib.Tactic.Ring

/-!
# The trusted clock

`deck_companion_trusted_clock_t` of `deck_companion_link_timing.cpp`: the UTC of the last accepted
heartbeat, carried on by the monotonic clock.  A heartbeat that is older than an earlier one latches
the clock, which then gives no time until a heartbeat reaches the recovery floor.
-/

namespace RlcdDeck.CompanionLink

/-- `deck_companion_trusted_clock_t`. -/
structure TrustedClock where
  baseUtcMs : UInt64 := 0
  baseMonotonicMs : UInt64 := 0
  serverUtcHighWaterMs : UInt64 := 0
  recoveryUtcFloorMs : UInt64 := 0
  hasTime : Bool := false
  rollbackLatched : Bool := false

namespace TrustedClock

/-- `deck_companion_trusted_clock_current`. -/
def current (clock : TrustedClock) (nowMonotonicMs : UInt64) : Option UInt64 :=
  if clock.hasTime = false ∨ clock.rollbackLatched = true ∨
      nowMonotonicMs < clock.baseMonotonicMs then none
  else
    let elapsed := nowMonotonicMs - clock.baseMonotonicMs
    if 0xffffffffffffffff - clock.baseUtcMs < elapsed then none
    else some (clock.baseUtcMs + elapsed)

/-- The end of `accept`: the sample becomes the base of the clock. -/
def anchor (clock : TrustedClock) (serverUtcMs nowMonotonicMs : UInt64) : TrustedClock :=
  let monotonicUtcMs := if clock.rollbackLatched then none else clock.current nowMonotonicMs
  { baseUtcMs :=
      match monotonicUtcMs with
      | some monotonicUtcMs => if serverUtcMs < monotonicUtcMs then monotonicUtcMs else serverUtcMs
      | none => serverUtcMs
    baseMonotonicMs := nowMonotonicMs
    serverUtcHighWaterMs :=
      if clock.hasTime = false ∨ clock.serverUtcHighWaterMs < serverUtcMs then serverUtcMs
      else clock.serverUtcHighWaterMs
    recoveryUtcFloorMs := 0
    hasTime := true
    rollbackLatched := false }

/-- `accept` of a sample that is older than an earlier one. -/
def latch (clock : TrustedClock) (nowMonotonicMs : UInt64) : TrustedClock :=
  { clock with
    recoveryUtcFloorMs :=
      match clock.current nowMonotonicMs with
      | some currentUtcMs =>
        if clock.serverUtcHighWaterMs < currentUtcMs then currentUtcMs else clock.serverUtcHighWaterMs
      | none => clock.serverUtcHighWaterMs
    rollbackLatched := true }

/-- `deck_companion_trusted_clock_accept`. -/
def accept (clock : TrustedClock) (serverUtcMs nowMonotonicMs : UInt64) : Bool × TrustedClock :=
  if clock.rollbackLatched then
    if serverUtcMs < clock.recoveryUtcFloorMs then (false, clock)
    else (true, clock.anchor serverUtcMs nowMonotonicMs)
  else if clock.hasTime ∧ serverUtcMs < clock.serverUtcHighWaterMs then
    (false, clock.latch nowMonotonicMs)
  else (true, clock.anchor serverUtcMs nowMonotonicMs)

/-! ### Runs -/

/-- A call, with the reading of the monotonic clock. -/
inductive Call where
  | accept (serverUtcMs nowMonotonicMs : UInt64)
  | current (nowMonotonicMs : UInt64)

def Call.now : Call → UInt64
  | .accept _ nowMonotonicMs => nowMonotonicMs
  | .current nowMonotonicMs => nowMonotonicMs

/-- The clock after a call. -/
def step (clock : TrustedClock) : Call → TrustedClock
  | .accept serverUtcMs nowMonotonicMs => (clock.accept serverUtcMs nowMonotonicMs).2
  | .current _ => clock

def run (clock : TrustedClock) (calls : List Call) : TrustedClock := calls.foldl step clock

/-- The UTC that a call returns. -/
def output (clock : TrustedClock) : Call → Option UInt64
  | .accept _ _ => none
  | .current nowMonotonicMs => clock.current nowMonotonicMs

/-- The UTC values that the calls return, in order. -/
def returned (clock : TrustedClock) : List Call → List UInt64
  | [] => []
  | call :: calls => (clock.output call).toList ++ returned (clock.step call) calls

/-- The time at a sample has not left 64 bits. -/
def inRange (clock : TrustedClock) : Call → Bool
  | .accept _ nowMonotonicMs =>
    !clock.hasTime || clock.rollbackLatched ||
      clock.baseUtcMs.toNat + (nowMonotonicMs.toNat - clock.baseMonotonicMs.toNat) < 2 ^ 64
  | .current _ => true

/-- Every call of a run is in range. -/
def staysInRange (clock : TrustedClock) : List Call → Bool
  | [] => true
  | call :: calls => clock.inRange call && staysInRange (clock.step call) calls

end TrustedClock

end RlcdDeck.CompanionLink
