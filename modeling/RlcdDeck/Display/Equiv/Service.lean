import RlcdDeck.Display.Equiv.Pack
import RlcdDeck.Effects.Trace

/-!
# Transfers of the display

The service and the panel as one machine: the calls of the service, in any order and at any times,
and the completions of the transfers that the panel adapter accepted.  `Consistent` relates the
buffers, what the panel shows and the flags; every event keeps it (`Consistent.step`).
-/

namespace RlcdDeck.Display

/-! ### The machine -/

/-- A transfer, from the start that the adapter accepted until its completion is polled. -/
structure Transfer where
  kind : TransferKind
  buffer : Buffer
  /-- What the buffer held at the start. -/
  frame : Frame
  completed : Bool
  /-- A poll has reported a timeout. -/
  timedOut : Bool

/-- The service, the panel and the history that the properties speak of. -/
structure World where
  display : DisplayService
  transfer : Option Transfer
  /-- The content of the last transfer that the panel completed. -/
  panel : Option Frame
  /-- The last candidate that was completed without a timeout. -/
  confirmed : Option Frame
  /-- A candidate has been completed. -/
  candidateCompleted : Bool
  /-- A candidate was completed after its timeout, and none has been submitted since. -/
  late : Bool

inductive Event where
  | update (area : Area) (pixels : List UInt16)
  | submit (nowMs : UInt64) (accepted : Bool)
  | poll (nowMs : UInt64) (accepted : Bool)
  | complete

/-- The transfer that a call has started. -/
def started (kind : TransferKind) (display : DisplayService) (buffer : Option Buffer) :
    Option Transfer :=
  buffer.map fun buffer => ⟨kind, buffer, display.read buffer, false, false⟩

namespace World

def submitted (w : World) (called : Result × Option Buffer × DisplayService) : World :=
  { w with
    display := called.2.2
    transfer := if called.1 = .submitted then started .candidate called.2.2 called.2.1
      else w.transfer
    late := w.late && decide (called.1 ≠ .submitted) }

/-- What a poll tells of the transfer: it has timed out, it is still running, or it has ended. -/
def polled (w : World) (called : Result × Option Buffer × DisplayService) : World :=
  match w.transfer, called.1 with
  | none, _ | _, .inFlight => { w with display := called.2.2 }
  | some transfer, .timedOut =>
    { w with display := called.2.2, transfer := some { transfer with timedOut := true } }
  | some transfer, _ =>
    { w with
      display := called.2.2
      transfer := started .recovery called.2.2 called.2.1
      confirmed :=
        if transfer.kind = .candidate ∧ transfer.timedOut = false then some transfer.frame
        else w.confirmed
      candidateCompleted := w.candidateCompleted || decide (transfer.kind = .candidate)
      late := w.late || (decide (transfer.kind = .candidate) && transfer.timedOut) }

/-- One event; a completion is possible once for each transfer, while it runs. -/
def step (w : World) : Event → Option World
  | .update area pixels => some { w with display := (w.display.update area pixels).2 }
  | .submit nowMs accepted => some (w.submitted (w.display.submit nowMs accepted))
  | .poll nowMs accepted => some (w.polled (w.display.poll nowMs accepted))
  | .complete =>
    match w.transfer with
    | some ⟨kind, buffer, frame, false, timedOut⟩ =>
      some { w with
        display := w.display.transferDone
        transfer := some ⟨kind, buffer, frame, true, timedOut⟩
        panel := some (w.display.read buffer) }
    | _ => none

def start (display : DisplayService) : World := ⟨display, none, none, none, false, false⟩

end World

/-! ### The invariant -/

/-- A running transfer as the service sees it. -/
structure Running (display : DisplayService) (panel : Option Frame) (t : Transfer) : Prop where
  inFlight : display.inFlight = true
  kind : display.transferKind = some t.kind
  completed : display.transferCompleted = t.completed
  timedOut : display.timeoutReported = t.timedOut
  buffer : t.buffer = if t.kind = .candidate then .working else .successful
  frame : display.read t.buffer = t.frame
  panel : t.completed = true → panel = some t.frame
  dirty : t.kind = .recovery → display.dirty = true

structure Consistent (w : World) : Prop where
  running : ∀ t, w.transfer = some t → Running w.display w.panel t
  idle : w.transfer = none → w.display.inFlight = false ∧
    (w.candidateCompleted = true → w.display.dirty = false →
      w.panel = some w.display.workingFrame)
  confirmed : w.display.successfulFrame = w.confirmed.getD .white
  late : w.late = true → w.display.dirty = true ∧
    ∀ t, w.transfer = some t → t.kind = .recovery

theorem consistent_start {timeoutMs : UInt32} {display : DisplayService}
    (h : create timeoutMs = some display) : Consistent (.start display) := by
  unfold create at h
  split_ifs at h
  obtain rfl := Option.some.inj h
  constructor
  · intro t ht
    cases ht
  · intro _
    refine ⟨rfl, fun hdone => ?_⟩
    cases hdone
  · rfl
  · intro hlate
    cases hlate

/-! ### Updates -/

theorem Frame.eq_of_bytes {frame other : Frame} (h : frame.bytes = other.bytes) :
    frame = other := by
  cases frame
  cases other
  cases h
  rfl

/-- What an update does: it leaves the transfer, it does nothing while a candidate is read, and the
frame changes only when the service becomes dirty. -/
structure Updated (display after : DisplayService) : Prop where
  inFlight : after.inFlight = display.inFlight
  kind : after.transferKind = display.transferKind
  completed : after.transferCompleted = display.transferCompleted
  timedOut : after.timeoutReported = display.timeoutReported
  successful : after.successfulFrame = display.successfulFrame
  refused : display.inFlight = true → display.transferKind = some .candidate → after = display
  dirty : display.dirty = true → after.dirty = true
  frame : after.dirty = false → after.workingFrame = display.workingFrame

theorem updated_update (display : DisplayService) (area : Area) (pixels : List UInt16) :
    Updated display (display.update area pixels).2 := by
  have hsame : (display.workingFrame.pack area pixels).1 ≠ .changed →
      (display.workingFrame.pack area pixels).2 = display.workingFrame :=
    fun hresult => Frame.eq_of_bytes (packRgb565_eq hresult)
  unfold DisplayService.update
  split_ifs with hcandidate
  · exact ⟨rfl, rfl, rfl, rfl, rfl, fun _ _ => rfl, id, fun _ => rfl⟩
  · have hrefused : ∀ after : DisplayService, display.inFlight = true →
        display.transferKind = some .candidate → after = display :=
      fun _ hflight hkind => absurd ⟨hflight, hkind⟩ hcandidate
    cases hpack : display.workingFrame.pack area pixels with
    | mk result frame =>
      rw [hpack] at hsame
      cases result with
      | changed =>
        refine ⟨rfl, rfl, rfl, rfl, rfl, hrefused _, fun _ => rfl, fun hclean => ?_⟩
        cases hclean
      | unchanged =>
        exact ⟨rfl, rfl, rfl, rfl, rfl, hrefused _, id, fun _ => hsame nofun⟩
      | invalidArgument =>
        exact ⟨rfl, rfl, rfl, rfl, rfl, hrefused _, id, fun _ => hsame nofun⟩

section Steps

variable {w : World}

theorem Consistent.update (h : Consistent w) (area : Area) (pixels : List UInt16) :
    Consistent { w with display := (w.display.update area pixels).2 } := by
  have hupdated := updated_update w.display area pixels
  generalize (w.display.update area pixels).2 = after at hupdated
  constructor
  · intro t ht
    have hrunning := h.running t ht
    cases hkind : t.kind with
    | candidate =>
      have hkeep := hupdated.refused hrunning.inFlight (hrunning.kind.trans (by rw [hkind]))
      dsimp only
      rw [hkeep]
      exact hrunning
    | recovery =>
      have hbuffer : t.buffer = .successful := by
        rw [hrunning.buffer, hkind]
        rfl
      have hread := hrunning.frame
      rw [hbuffer] at hread
      refine ⟨hupdated.inFlight.trans hrunning.inFlight, hupdated.kind.trans hrunning.kind,
        hupdated.completed.trans hrunning.completed, hupdated.timedOut.trans hrunning.timedOut,
        hrunning.buffer, ?_, hrunning.panel, fun hrecovery => hupdated.dirty
          (hrunning.dirty hrecovery)⟩
      rw [hbuffer]
      exact hupdated.successful.trans hread
  · intro hnone
    obtain ⟨hflight, hpanel⟩ := h.idle hnone
    refine ⟨hupdated.inFlight.trans hflight, fun hdone hclean => ?_⟩
    have hbefore : w.display.dirty = false := by
      by_contra hdirty
      have hafter := hupdated.dirty (Bool.eq_true_of_not_eq_false hdirty)
      exact absurd (hafter.symm.trans hclean) (by decide)
    dsimp only
    rw [hupdated.frame hclean]
    exact hpanel hdone hbefore
  · exact hupdated.successful.trans h.confirmed
  · intro hlate
    obtain ⟨hdirty, hrecovery⟩ := h.late hlate
    exact ⟨hupdated.dirty hdirty, hrecovery⟩

/-! ### Submissions -/

theorem startTransfer_eq (display : DisplayService) (kind : TransferKind) (nowMs : UInt64)
    (accepted : Bool) :
    ∃ metrics, display.startTransfer kind nowMs accepted =
      if accepted = true then
        (true, { display with
          transferCompleted := false
          transferKind := some kind
          inFlight := true
          timeoutReported := false
          transferStartedMs := nowMs
          metrics := metrics })
      else (false, { display with transferCompleted := false, metrics := metrics }) := by
  unfold DisplayService.startTransfer
  cases accepted with
  | true => exact ⟨_, rfl⟩
  | false => exact ⟨_, rfl⟩

theorem Consistent.count (h : Consistent w) (metrics : Metrics) :
    Consistent { w with display := { w.display with metrics := metrics } } := by
  constructor
  · intro t ht
    obtain ⟨hflight, hkind, hcompleted, htimed, hbuffer, hframe, hpanel, hdirty⟩ := h.running t ht
    refine ⟨hflight, hkind, hcompleted, htimed, hbuffer, ?_, hpanel, hdirty⟩
    rw [← hframe]
    cases t.buffer <;> rfl
  · exact h.idle
  · exact h.confirmed
  · exact h.late

theorem Consistent.transfer_of_inFlight (h : Consistent w) (hflight : w.display.inFlight = true) :
    ∃ t, w.transfer = some t ∧ Running w.display w.panel t := by
  cases ht : w.transfer with
  | none => exact absurd ((h.idle ht).1.symm.trans hflight) (by decide)
  | some t => exact ⟨t, rfl, h.running t ht⟩

theorem Consistent.transfer_of_idle (h : Consistent w) (hflight : w.display.inFlight = false) :
    w.transfer = none := by
  cases ht : w.transfer with
  | none => rfl
  | some t => exact absurd ((h.running t ht).inFlight.symm.trans hflight) (by decide)

theorem Consistent.submit (h : Consistent w) (nowMs : UInt64) (accepted : Bool) :
    Consistent (w.submitted (w.display.submit nowMs accepted)) := by
  have hkept : ∀ display : DisplayService, ∀ result, result ≠ .submitted →
      Consistent { w with display := display } →
      Consistent (w.submitted (result, none, display)) := by
    intro display result hresult hconsistent
    unfold World.submitted
    dsimp only
    rw [if_neg hresult, decide_eq_true hresult, Bool.and_true]
    exact hconsistent
  unfold DisplayService.submit
  split_ifs with hflight hclean
  · exact hkept _ _ nofun (h.count _)
  · exact hkept _ _ nofun h
  · have hidle := Bool.eq_false_of_not_eq_true hflight
    have hdirty := Bool.eq_true_of_not_eq_false hclean
    have hnone := h.transfer_of_idle hidle
    obtain ⟨metrics, hstart⟩ := startTransfer_eq w.display .candidate nowMs accepted
    rw [hstart]
    cases accepted with
    | false =>
      refine hkept _ _ nofun ⟨fun t ht => ?_, fun _ => ⟨hidle, fun _ hdirty' => ?_⟩,
        h.confirmed, h.late⟩
      · exact absurd (hnone.symm.trans ht) nofun
      · exact absurd (hdirty.symm.trans hdirty') (by decide)
    | true =>
      constructor
      · intro t ht
        obtain rfl := Option.some.inj ht
        exact ⟨rfl, rfl, rfl, rfl, rfl, rfl, nofun, nofun⟩
      · exact nofun
      · exact h.confirmed
      · intro hlate
        unfold World.submitted at hlate
        simp at hlate

/-! ### Polls -/

theorem polled_of_quiet {called : Result × Option Buffer × DisplayService}
    (h : w.transfer = none ∨ called.1 = .inFlight) :
    w.polled called = { w with display := called.2.2 } := by
  unfold World.polled
  rcases h with hnone | hflight
  · rw [hnone]
  · rw [hflight]
    cases w.transfer <;> rfl

/-- The completion of a transfer. -/
theorem Consistent.finish (h : Consistent w) {t : Transfer} (ht : w.transfer = some t)
    (hcompleted : t.completed = true) (nowMs : UInt64) (accepted : Bool) :
    Consistent (w.polled (w.display.finish nowMs accepted)) := by
  have hrunning := h.running t ht
  unfold DisplayService.finish
  rw [hrunning.kind, hrunning.timedOut]
  cases hkind : t.kind with
  | recovery =>
    have hdirty := hrunning.dirty hkind
    rw [if_pos rfl]
    unfold World.polled
    rw [ht]
    dsimp only
    rw [hkind]
    constructor
    · exact nofun
    · intro _
      refine ⟨rfl, fun _ hclean => ?_⟩
      exact absurd (hdirty.symm.trans hclean) (by decide)
    · exact h.confirmed
    · intro _
      exact ⟨hdirty, nofun⟩
  | candidate =>
    rw [if_neg nofun]
    cases htimed : t.timedOut with
    | true =>
      rw [if_pos rfl]
      obtain ⟨metrics, hstart⟩ := startTransfer_eq { w.display with
        transferCompleted := false
        inFlight := false
        transferKind := none
        timeoutReported := false
        dirty := true
        metrics := { w.display.metrics with
          completedFrames := w.display.metrics.completedFrames + 1 } } .recovery nowMs accepted
      rw [hstart]
      cases accepted with
      | false =>
        rw [if_neg nofun]
        unfold World.polled
        rw [ht]
        dsimp only
        rw [hkind, htimed]
        constructor
        · exact nofun
        · exact fun _ => ⟨rfl, fun _ => nofun⟩
        · exact h.confirmed
        · exact fun _ => ⟨rfl, nofun⟩
      | true =>
        rw [if_pos rfl]
        unfold World.polled
        rw [ht]
        dsimp only
        rw [hkind, htimed]
        constructor
        · intro t' ht'
          obtain rfl := Option.some.inj ht'
          exact ⟨rfl, rfl, rfl, rfl, rfl, rfl, nofun, fun _ => rfl⟩
        · exact nofun
        · exact h.confirmed
        · refine fun _ => ⟨rfl, fun t' ht' => ?_⟩
          obtain rfl := Option.some.inj ht'
          rfl
    | false =>
      have hframe : w.display.workingFrame = t.frame := by
        have hread := hrunning.frame
        rw [hrunning.buffer, hkind] at hread
        exact hread
      rw [if_neg nofun]
      unfold World.polled
      rw [ht]
      dsimp only
      rw [hkind, htimed]
      constructor
      · exact nofun
      · intro _
        exact ⟨rfl, fun _ _ => (hrunning.panel hcompleted).trans (congrArg some hframe.symm)⟩
      · exact hframe
      · intro hlate
        have hbefore : w.late = true := by simpa using hlate
        exact absurd ((h.late hbefore).2 t ht) (by rw [hkind]; decide)

theorem Consistent.poll (h : Consistent w) (nowMs : UInt64) (accepted : Bool) :
    Consistent (w.polled (w.display.poll nowMs accepted)) := by
  unfold DisplayService.poll
  split_ifs with hidle hcompleted htimed
  · rw [polled_of_quiet (.inl (h.transfer_of_idle hidle))]
    exact h
  · obtain ⟨t, ht, hrunning⟩ := h.transfer_of_inFlight (Bool.eq_true_of_not_eq_false hidle)
    exact h.finish ht (hrunning.completed.symm.trans hcompleted) nowMs accepted
  · obtain ⟨t, ht, hrunning⟩ := h.transfer_of_inFlight (Bool.eq_true_of_not_eq_false hidle)
    unfold World.polled
    rw [ht]
    dsimp only
    constructor
    · intro t' ht'
      obtain rfl := Option.some.inj ht'
      refine ⟨hrunning.inFlight, hrunning.kind, hrunning.completed, rfl, hrunning.buffer, ?_,
        hrunning.panel, hrunning.dirty⟩
      rw [← hrunning.frame]
      cases t.buffer <;> rfl
    · exact nofun
    · exact h.confirmed
    · intro hlate
      obtain ⟨hdirty, hrecovery⟩ := h.late hlate
      refine ⟨hdirty, fun t' ht' => ?_⟩
      obtain rfl := Option.some.inj ht'
      exact hrecovery t ht
  · rw [polled_of_quiet (.inr rfl)]
    exact h

/-! ### Completions -/

theorem Consistent.complete (h : Consistent w) {t : Transfer} (ht : w.transfer = some t) :
    Consistent { w with
      display := w.display.transferDone
      transfer := some { t with completed := true }
      panel := some (w.display.read t.buffer) } := by
  have hbefore := h.running t ht
  constructor
  · intro t' ht'
    obtain rfl := Option.some.inj ht'
    refine ⟨hbefore.inFlight, hbefore.kind, rfl, hbefore.timedOut, hbefore.buffer, ?_,
      fun _ => congrArg some hbefore.frame, hbefore.dirty⟩
    have hread : w.display.transferDone.read t.buffer = w.display.read t.buffer := by
      cases t.buffer <;> rfl
    exact hread.trans hbefore.frame
  · intro hnone
    cases hnone
  · exact h.confirmed
  · intro hlate
    obtain ⟨hdirty, hrecovery⟩ := h.late hlate
    refine ⟨hdirty, fun t' ht' => ?_⟩
    obtain rfl := Option.some.inj ht'
    exact hrecovery t ht

/-- **Every event keeps the invariant.** -/
theorem Consistent.step (h : Consistent w) {event : Event} {w' : World}
    (hstep : w.step event = some w') : Consistent w' := by
  cases event with
  | update area pixels =>
    obtain rfl := Option.some.inj hstep
    exact h.update area pixels
  | submit nowMs accepted =>
    obtain rfl := Option.some.inj hstep
    exact h.submit nowMs accepted
  | poll nowMs accepted =>
    obtain rfl := Option.some.inj hstep
    exact h.poll nowMs accepted
  | complete =>
    unfold World.step at hstep
    cases ht : w.transfer with
    | none =>
      rw [ht] at hstep
      cases hstep
    | some t =>
      obtain ⟨kind, buffer, frame, completed, timedOut⟩ := t
      rw [ht] at hstep
      cases completed with
      | true => cases hstep
      | false =>
        obtain rfl := Option.some.inj hstep
        exact h.complete ht

end Steps

/-! ### Runs -/

/-- **Transfers**: over every run, a buffer keeps its content while a transfer reads it, the
successful frame is the last candidate that was completed without a timeout, a clean service without
a transfer has its frame on the panel, and after a late completion the service is dirty until
another candidate is submitted. -/
theorem run_transfers {timeoutMs : UInt32} {display : DisplayService}
    (hcreate : create timeoutMs = some display) {events : List Event} {w : World}
    (hrun : Effects.Trace.run World.step (.start display) events = some w) :
    (∀ t, w.transfer = some t → w.display.read t.buffer = t.frame) ∧
      w.display.successfulFrame = w.confirmed.getD .white ∧
      (w.candidateCompleted = true → w.display.inFlight = false → w.display.dirty = false →
        w.panel = some w.display.workingFrame) ∧
      (w.late = true → w.display.dirty = true) ∧
      ∀ t, w.transfer = some t → w.display.inFlight = true := by
  have h := Effects.Trace.run_invariant (fun _ _ _ h hstep => Consistent.step h hstep)
    (consistent_start hcreate) hrun
  refine ⟨fun t ht => (h.running t ht).frame, h.confirmed, fun hdone hidle hclean => ?_,
    fun hlate => (h.late hlate).1, fun t ht => (h.running t ht).inFlight⟩
  exact (h.idle (h.transfer_of_idle hidle)).2 hdone hclean

/-- A service with a timeout of 100 ms. -/
def sampleDisplay : DisplayService :=
  ⟨.white, .white, 100, 0, false, none, false, false, false, {}⟩

/-- A candidate with one black pixel is read by the panel. -/
def runningWorld (frame : Frame) : World :=
  { display :=
      { workingFrame := frame
        successfulFrame := .white
        timeoutMs := 100
        transferStartedMs := 5
        transferCompleted := false
        transferKind := some .candidate
        dirty := false
        inFlight := true
        timeoutReported := false
        metrics := { submittedFrames := 1 } }
    transfer := some ⟨.candidate, .working, frame, false, false⟩
    panel := none
    confirmed := none
    candidateCompleted := false
    late := false }

/-- It has timed out. -/
def timedOutWorld (frame : Frame) : World :=
  { runningWorld frame with
    display := { (runningWorld frame).display with
      timeoutReported := true
      metrics := { submittedFrames := 1, transferTimeouts := 1 } }
    transfer := some ⟨.candidate, .working, frame, false, true⟩ }

theorem poll_running (frame : Frame) :
    (runningWorld frame).step (.poll 105 true) = some (timedOutWorld frame) := by
  have hpoll : (runningWorld frame).display.poll 105 true =
      (.timedOut, none, (timedOutWorld frame).display) := by
    have hlong : (100 : UInt32).toUInt64 ≤ 105 - 5 := by decide
    unfold DisplayService.poll
    rw [if_neg nofun, if_neg nofun, if_pos ⟨rfl, hlong⟩]
    rfl
  rw [World.step, hpoll]
  rfl

theorem run_timedOut : Effects.Trace.run World.step (.start sampleDisplay)
    [.update ⟨0, 0, 0, 0⟩ [0], .submit 5 true, .poll 105 true] =
      some (timedOutWorld (Frame.white.pack ⟨0, 0, 0, 0⟩ [0]).2) := by
  have hpack : Frame.white.pack ⟨0, 0, 0, 0⟩ [0] =
      (.changed, (Frame.white.pack ⟨0, 0, 0, 0⟩ [0]).2) := Prod.ext pack_first rfl
  generalize (Frame.white.pack ⟨0, 0, 0, 0⟩ [0]).2 = frame at hpack
  have hupdate : (sampleDisplay.update ⟨0, 0, 0, 0⟩ [0]).2 =
      { sampleDisplay with workingFrame := frame, dirty := true } := by
    unfold DisplayService.update
    rw [if_neg nofun, show sampleDisplay.workingFrame = .white from rfl, hpack]
  have hstep : (World.start sampleDisplay).step (.update ⟨0, 0, 0, 0⟩ [0]) =
      some (.start { sampleDisplay with workingFrame := frame, dirty := true }) :=
    congrArg (fun display => some (World.start display)) hupdate
  have hsubmit : (World.start { sampleDisplay with workingFrame := frame, dirty := true }).step
      (.submit 5 true) = some (runningWorld frame) := rfl
  exact Effects.Trace.run_cons.mpr ⟨_, hstep, Effects.Trace.run_cons.mpr ⟨_, hsubmit,
    Effects.Trace.run_cons.mpr ⟨_, poll_running frame, rfl⟩⟩⟩

theorem create_sample : create 100 = some sampleDisplay := rfl

theorem run_transfers_sample :
    (timedOutWorld (Frame.white.pack ⟨0, 0, 0, 0⟩ [0]).2).display.successfulFrame = .white :=
  (run_transfers create_sample run_timedOut).2.1

/-- While a candidate that has timed out is still read, the service is not dirty. -/
theorem timedOut_not_dirty :
    ¬∀ (timeoutMs : UInt32) (display : DisplayService) (events : List Event) (w : World),
      create timeoutMs = some display →
      Effects.Trace.run World.step (.start display) events = some w →
      ∀ t, w.transfer = some t → t.kind = .candidate → t.timedOut = true →
        w.display.dirty = true := by
  intro h
  have hdirty := h 100 sampleDisplay _ _ create_sample run_timedOut _ rfl rfl rfl
  cases hdirty

end RlcdDeck.Display
