import RlcdDeck.Collections.Entries

/-!
# The rate limit of an address

The model of `ipRateLimiter` in `runtime/devicehub.go`.  `net.SplitHostPort` is a parameter, so that
a host is whatever it makes of an address.
-/

namespace RlcdDeck.Runtime

open Collections (keep)

/-! ### Times -/

/-- A `time.Time`, in nanoseconds after the zero time. -/
abbrev Time := ℕ

def minDuration : ℤ := -2 ^ 63

def maxDuration : ℤ := 2 ^ 63 - 1

/-- A `time.Duration`, in nanoseconds. -/
abbrev Duration := {d : ℤ // minDuration ≤ d ∧ d ≤ maxDuration}

/-- `now.Sub(earlier)`, which stays in the range of a duration. -/
def sub (now earlier : Time) : ℤ := max minDuration (min (now - earlier) maxDuration)

/-! ### The limiter -/

structure RateWindow where
  started : Time := 0
  count : ℤ := 0

structure IpRateLimiter where
  windows : AList fun _ : String => RateWindow := ∅
  limit : ℤ
  duration : Duration
  lastSweep : Time := 0

def maxTrackedRateLimitIPs : ℕ := 4096

/-- `newIPRateLimiter`. -/
def newIpRateLimiter (limit : ℤ) (duration : Duration) : IpRateLimiter := { limit, duration }

namespace IpRateLimiter

/-- Whether a window that started at `started` is over. -/
def expired (limiter : IpRateLimiter) (now started : Time) : Bool :=
  limiter.duration.1 ≤ sub now started

/-- The first part of `allow`: the windows that are over are deleted from time to time. -/
def sweep (limiter : IpRateLimiter) (now : Time) : IpRateLimiter :=
  if limiter.lastSweep = 0 ∨ limiter.expired now limiter.lastSweep then
    { limiter with
      windows := keep limiter.windows fun window => !limiter.expired now window.started
      lastSweep := now }
  else limiter

/-- The rest of `allow`, for a host. -/
def admitHost (limiter : IpRateLimiter) (host : String) (now : Time) : Bool × IpRateLimiter :=
  let window := (limiter.windows.lookup host).getD {}
  if window.started = 0 ∨ limiter.expired now window.started then
    if host ∉ limiter.windows ∧ maxTrackedRateLimitIPs ≤ limiter.windows.entries.length then
      (false, limiter)
    else
      (true, { limiter with windows := limiter.windows.insert host { started := now, count := 1 } })
  else if limiter.limit ≤ window.count then (false, limiter)
  else
    (true, { limiter with
      windows := limiter.windows.insert host { window with count := window.count + 1 } })

section

variable (splitHostPort : String → Option String)

/-- The host of an address. -/
def hostOf (address : String) : String := (splitHostPort address).getD address

/-- `allow`. -/
def allow (limiter : IpRateLimiter) (address : String) (now : Time) : Bool × IpRateLimiter :=
  (limiter.sweep now).admitHost (hostOf splitHostPort address) now

/-! ### Sequences of requests -/

/-- A request, with the time at which it comes. -/
structure Request where
  address : String
  now : Time

/-- The limiter, with the requests that it has admitted. -/
structure Served where
  limiter : IpRateLimiter
  admitted : List Request := []

/-- One more request. -/
def Served.step (served : Served) (request : Request) : Served :=
  let (allowed, limiter) := served.limiter.allow splitHostPort request.address request.now
  { limiter, admitted := if allowed then served.admitted ++ [request] else served.admitted }

/-- The limiter after a sequence of requests. -/
def serve (limiter : IpRateLimiter) (requests : List Request) : Served :=
  requests.foldl (Served.step splitHostPort) { limiter }

/-- The times at which requests of a host were admitted. -/
def Served.times (served : Served) (host : String) : List Time :=
  (served.admitted.filter fun request => hostOf splitHostPort request.address = host).map
    Request.now

end

end IpRateLimiter

end RlcdDeck.Runtime
