import RlcdDeck.SerialSession.Session

/-!
# Ownership transitions of the serial session

`txOwner s` is who may transmit in the state `s`.  Every call makes at most two moves of it: the
expiry check some calls start with (`expired`), and the call's own transition.  A move that
changes the owner advances `ownerGeneration` by one, and nothing else does (`OwnerMove`), so the
generation after a run is the starting one advanced by the number of ownership transitions
(`run_ownerGeneration`).

The moves keep `WellFormed`: an armed session has its UART installed, a lease exists exactly in
`WEB_TX`, and there it is the last accepted request.
-/

namespace RlcdDeck.SerialSession

open Counter

/-- Who may transmit to the target. -/
inductive TxOwner where
  | nobody
  | usb (sessionId : UInt64)
  | web (sessionId leaseId : UInt64)
  deriving DecidableEq

/-- The owner a session grants the transmitter to. -/
def Session.txOwner (s : Session) : TxOwner :=
  match s.state with
  | .disarmed => .nobody
  | .usbTx => .usb s.sessionId
  | .webTx => .web s.sessionId s.leaseId

/-- What holds of every reachable session. -/
structure WellFormed (s : Session) : Prop where
  installed : s.state ≠ .disarmed → s.uartInstalled = true
  lease : s.leaseId ≠ 0 ↔ s.state = .webTx
  deadline : s.state ≠ .webTx → s.leaseDeadlineMs = 0
  generation : s.state ≠ .disarmed → s.ownerGeneration ≠ 0
  /-- The lease in force was granted by the last accepted request. -/
  last : s.state = .webTx → s.hasLastRequest = true ∧ s.lastRequestId = s.leaseId

/-- The owner stays and so does the generation, or both change. -/
inductive OwnerMove (s s' : Session) : Prop where
  | stay : s'.txOwner = s.txOwner → s'.ownerGeneration = s.ownerGeneration → OwnerMove s s'
  | change : s'.txOwner ≠ s.txOwner →
      s'.ownerGeneration = incrementNonzero s.ownerGeneration → OwnerMove s s'

variable {s t : Session}

theorem txOwner_congr (hstate : s.state = t.state) (hid : s.sessionId = t.sessionId)
    (hlease : s.leaseId = t.leaseId) :
    s.txOwner = t.txOwner := by
  unfold Session.txOwner
  rw [hstate, hid, hlease]

theorem incrementNonzero_ne_zero (v : UInt64) : incrementNonzero v ≠ 0 :=
  nonzeroNext64_ne_zero v

theorem OwnerMove.refl (s : Session) : OwnerMove s s :=
  .stay rfl rfl

variable {s' : Session}

theorem OwnerMove.generation (h : OwnerMove s s') :
    s'.ownerGeneration =
      incrementNonzero^[if s.txOwner = s'.txOwner then 0 else 1] s.ownerGeneration := by
  cases h with
  | stay ho hg => rw [if_pos ho.symm, hg]; rfl
  | change ho hg => rw [if_neg (Ne.symm ho), hg]; rfl

theorem OwnerMove.of_txOwner (h : OwnerMove t s') (ho : t.txOwner = s.txOwner)
    (hg : t.ownerGeneration = s.ownerGeneration) :
    OwnerMove s s' := by
  cases h with
  | stay ho' hg' => exact .stay (ho'.trans ho) (hg'.trans hg)
  | change ho' hg' => exact .change (ho ▸ ho') (hg ▸ hg')

theorem OwnerMove.to_txOwner (h : OwnerMove s t) (ho : s'.txOwner = t.txOwner)
    (hg : s'.ownerGeneration = t.ownerGeneration) :
    OwnerMove s s' := by
  cases h with
  | stay ho' hg' => exact .stay (ho.trans ho') (hg.trans hg')
  | change ho' hg' => exact .change (ho ▸ ho') (hg.trans hg')

/-- What a call must do to the session: keep it well formed and make at most one move. -/
structure Sound (s s' : Session) : Prop where
  wellFormed : WellFormed s'
  move : OwnerMove s s'

variable {σ : Type*} (hw : HardwareAdapter σ)

/-! ### The transitions -/

theorem returnToUsb_session (d : Device σ) :
    (returnToUsb hw d).session = if d.session.state = .webTx then
        { clearWebLease d.session with
          state := .usbTx, ownerGeneration := incrementNonzero d.session.ownerGeneration }
      else d.session := by
  unfold returnToUsb
  by_cases h : d.session.state = .webTx <;> simp [h]

theorem sound_returnToUsb {d : Device σ} (h : WellFormed d.session) :
    Sound d.session (returnToUsb hw d).session := by
  rw [returnToUsb_session]
  split_ifs with hweb
  · refine ⟨⟨fun _ => h.installed (by simp [hweb]), by simp [clearWebLease],
      fun _ => rfl, fun _ => incrementNonzero_ne_zero _, by simp⟩, .change ?_ rfl⟩
    simp [Session.txOwner, hweb]
  · exact ⟨h, .refl _⟩

theorem returnToUsb_state_ne_webTx (d : Device σ) :
    (returnToUsb hw d).session.state ≠ .webTx := by
  rw [returnToUsb_session]
  split_ifs with h
  · simp
  · exact h

theorem sound_expireWebLease {d : Device σ} (h : WellFormed d.session) (nowMs : UInt64) :
    Sound d.session (expireWebLease hw d nowMs).session := by
  unfold expireWebLease
  split_ifs
  · exact sound_returnToUsb hw h
  · exact ⟨h, .refl _⟩

theorem disarm_state (d : Device σ) : (disarm hw d).2.session.state = .disarmed := rfl

theorem sound_disarm (d : Device σ) : Sound d.session (disarm hw d).2.session := by
  refine ⟨⟨fun hs => absurd (disarm_state hw d) hs, ?_, fun _ => rfl,
    fun hs => absurd (disarm_state hw d) hs, ?_⟩, ?_⟩
  · simp [disarm, clearWebLease]
  · simp [disarm_state]
  · by_cases hs : d.session.state = .disarmed
    · refine .stay ?_ ?_
      · simp [Session.txOwner, disarm_state, hs]
      · simp [disarm, hs]
    · refine .change ?_ ?_
      · intro ho
        apply hs
        simp only [Session.txOwner, disarm_state] at ho
        revert ho
        cases d.session.state <;> simp
      · simp [disarm, hs]

theorem sound_install {d : Device σ} (h : WellFormed d.session)
    (hd : d.session.state = .disarmed) : Sound d.session (install hw d).2.session := by
  have hlease : d.session.leaseId = 0 := by
    by_contra hne
    exact absurd (h.lease.mp hne) (by simp [hd])
  unfold install
  dsimp only
  by_cases hok : (hw.installUart d.context (incrementNonzero d.session.sessionId)).1 = false
  · rw [if_pos hok]
    refine ⟨⟨fun hs => absurd hd hs, by simp [hlease, hd], fun _ => h.deadline (by simp [hd]),
      fun hs => absurd hd hs, fun hs => absurd hs (by simp [hd])⟩, .stay ?_ rfl⟩
    simp [Session.txOwner, hd]
  · rw [if_neg hok]
    refine ⟨⟨fun _ => rfl, by simp [clearWebLease], fun _ => rfl,
      fun _ => incrementNonzero_ne_zero _, by simp [clearWebLease]⟩, .change ?_ rfl⟩
    simp [Session.txOwner, clearWebLease, hd]

theorem sound_enter {d : Device σ} (h : WellFormed d.session) (controlEpoch : UInt64) :
    Sound d.session (enter hw d controlEpoch).2.session := by
  unfold enter
  dsimp only
  split_ifs with he hs hi hun
  · exact ⟨h, .refl _⟩
  · exact ⟨h, .refl _⟩
  · exact ⟨h, .refl _⟩
  · -- the UART of a failed exit was uninstalled first
    have hd : d.session.state = .disarmed := not_not.mp hs
    have h' : WellFormed { d.session with uartInstalled := false } :=
      ⟨fun hne => absurd hd hne, h.lease, h.deadline, h.generation, h.last⟩
    obtain ⟨hwf, hmove⟩ := sound_install hw
      (d := ⟨{ d.session with uartInstalled := false }, (hw.uninstallUart d.context).2⟩) h' hd
    exact ⟨hwf, hmove.of_txOwner (txOwner_congr rfl rfl rfl) rfl⟩
  · exact sound_install hw h (not_not.mp hs)

theorem sound_exit {d : Device σ} (h : WellFormed d.session) (controlEpoch : UInt64) :
    Sound d.session (exit hw d controlEpoch).2.session := by
  unfold exit
  dsimp only
  by_cases he : controlEpoch < d.session.controlEpoch
  · rw [if_pos he]
    exact ⟨h, .refl _⟩
  rw [if_neg he]
  by_cases hs : d.session.state = .disarmed ∧ d.session.uartInstalled = false
  · rw [if_pos hs]
    exact ⟨⟨h.installed, h.lease, h.deadline, h.generation, h.last⟩, .stay (txOwner_congr rfl rfl rfl) rfl⟩
  · rw [if_neg hs]
    obtain ⟨hwf, hmove⟩ :=
      sound_disarm hw { d with session := { d.session with controlEpoch := controlEpoch } }
    exact ⟨hwf, hmove.of_txOwner (txOwner_congr rfl rfl rfl) rfl⟩

theorem sound_enableWeb {d : Device σ} (h : WellFormed d.session) {requestId : UInt64}
    (nowMs : UInt64) (hne : requestId ≠ 0) (harmed : d.session.state ≠ .disarmed)
    (hnew : d.session.state = .webTx → requestId ≠ d.session.leaseId) (result : CommandResult) :
    Sound d.session
      { (enableWeb hw d requestId nowMs).session with
        lastRequestId := requestId, lastRequestResult := result, hasLastRequest := true } := by
  refine ⟨⟨fun _ => h.installed harmed, by simp [enableWeb, hne], by simp [enableWeb],
    fun _ => incrementNonzero_ne_zero _, fun _ => ⟨rfl, rfl⟩⟩, .change ?_ rfl⟩
  cases hs : d.session.state with
  | disarmed => exact absurd hs harmed
  | usbTx => simp [Session.txOwner, enableWeb, hs]
  | webTx => simp [Session.txOwner, enableWeb, hs, hnew hs]

theorem sound_acceptRequest {d : Device σ} (h : WellFormed d.session) {requestId : UInt64}
    (enable : Bool) (nowMs : UInt64) (hne : requestId ≠ 0)
    (harmed : d.session.state ≠ .disarmed)
    (hnew : d.session.state = .webTx → requestId ≠ d.session.leaseId) :
    Sound d.session (acceptRequest hw d requestId enable nowMs).2.session := by
  unfold acceptRequest
  cases enable with
  | true => exact sound_enableWeb hw h nowMs hne harmed hnew _
  | false =>
    obtain ⟨hwf, hmove⟩ := sound_returnToUsb hw h
    exact ⟨⟨hwf.installed, hwf.lease, hwf.deadline, hwf.generation,
      fun hs => absurd hs (returnToUsb_state_ne_webTx hw d)⟩, hmove.to_txOwner (txOwner_congr rfl rfl rfl) rfl⟩

variable {epoch : UInt64}

theorem revokeWebTransport_session {d : Device σ} (he : ¬epoch < d.session.webTransportEpoch) :
    (revokeWebTransport hw d epoch).2.session =
      { (returnToUsb hw
          { d with session := { d.session with webTransportEpoch := epoch } }).session with
        hasLastRequest := false, lastRequestId := 0 } := by
  unfold revokeWebTransport
  rw [if_neg he]

theorem sound_revokeWebTransport {d : Device σ} (h : WellFormed d.session) (epoch : UInt64) :
    Sound d.session (revokeWebTransport hw d epoch).2.session := by
  by_cases he : epoch < d.session.webTransportEpoch
  · unfold revokeWebTransport
    rw [if_pos he]
    exact ⟨h, .refl _⟩
  · rw [revokeWebTransport_session hw he]
    have h' : WellFormed { d.session with webTransportEpoch := epoch } :=
      ⟨h.installed, h.lease, h.deadline, h.generation, h.last⟩
    have hne := returnToUsb_state_ne_webTx hw
      { d with session := { d.session with webTransportEpoch := epoch } }
    obtain ⟨hwf, hmove⟩ := sound_returnToUsb hw
      (d := { d with session := { d.session with webTransportEpoch := epoch } }) h'
    have hmove' : OwnerMove d.session (returnToUsb hw
        { d with session := { d.session with webTransportEpoch := epoch } }).session :=
      hmove.of_txOwner (txOwner_congr rfl rfl rfl) rfl
    exact ⟨⟨hwf.installed, hwf.lease, hwf.deadline, hwf.generation, fun hs => absurd hs hne⟩,
      hmove'.to_txOwner (txOwner_congr rfl rfl rfl) rfl⟩

/-! ### The calls -/

/-- The device after the expiry check a call starts with. -/
def expired (d : Device σ) : Op → Device σ
  | .requestWeb _ rid _ now => if rid = 0 then d else expireWebLease hw d now
  | .requestWebAtEpoch e _ rid _ now =>
    if rid = 0 ∨ e ≠ d.session.webTransportEpoch then d else expireWebLease hw d now
  | .webActivity _ _ now => expireWebLease hw d now
  | .tick now => expireWebLease hw d now
  | _ => d

theorem sound_expired {d : Device σ} (h : WellFormed d.session) (op : Op) :
    Sound d.session (expired hw d op).session := by
  cases op with
  | requestWeb sid rid enable now =>
    simp only [expired]
    split_ifs
    · exact ⟨h, .refl _⟩
    · exact sound_expireWebLease hw h now
  | requestWebAtEpoch e sid rid enable now =>
    simp only [expired]
    split_ifs
    · exact ⟨h, .refl _⟩
    · exact sound_expireWebLease hw h now
  | webActivity sid lid now => exact sound_expireWebLease hw h now
  | tick now => exact sound_expireWebLease hw h now
  | _ => exact ⟨h, .refl _⟩

theorem requestWebAtEpoch_device {d : Device σ} {requestId : UInt64} (sessionId : UInt64)
    (enable : Bool) (nowMs : UInt64) (hid : requestId ≠ 0)
    (he : epoch = d.session.webTransportEpoch) :
    (requestWebAtEpoch hw d epoch sessionId requestId enable nowMs).2 =
      let d' := expireWebLease hw d nowMs
      if d'.session.state = .disarmed ∨ sessionId ≠ d'.session.sessionId ∨
          (d'.session.hasLastRequest = true ∧ requestId ≤ d'.session.lastRequestId) then d'
      else (acceptRequest hw d' requestId enable nowMs).2 := by
  unfold requestWebAtEpoch
  rw [if_neg hid, if_neg (not_not.mpr he)]
  dsimp only
  generalize expireWebLease hw d nowMs = d'
  by_cases hdis : d'.session.state = .disarmed ∨ sessionId ≠ d'.session.sessionId
  · rw [if_pos hdis, if_pos (or_assoc.mp (.inl hdis))]
  rw [if_neg hdis]
  push Not at hdis
  by_cases hlast : d'.session.hasLastRequest = true
  · by_cases hsame : requestId = d'.session.lastRequestId
    · have hle : requestId ≤ d'.session.lastRequestId := hsame ▸ UInt64.le_refl _
      rw [if_pos ⟨hlast, hsame⟩]
      exact (if_pos (.inr (.inr ⟨hlast, hle⟩))).symm
    rw [if_neg fun h => hsame h.2]
    by_cases hlow : requestId < d'.session.lastRequestId
    · rw [if_pos ⟨hlast, hlow⟩, if_pos (.inr (.inr ⟨hlast, UInt64.le_of_lt hlow⟩))]
    · rw [if_neg fun h => hlow h.2, if_neg]
      rintro (h | h | h)
      · exact hdis.1 h
      · exact h hdis.2
      · exact hlow (UInt64.lt_of_le_of_ne h.2 hsame)
  · rw [if_neg fun h => hlast h.1, if_neg fun h => hlast h.1, if_neg]
    rintro (h | h | h)
    · exact hdis.1 h
    · exact h hdis.2
    · exact hlast h.1

theorem requestWebAtEpoch_refused {d : Device σ} {requestId : UInt64} (sessionId : UInt64)
    (enable : Bool) (nowMs : UInt64) (h : requestId = 0 ∨ epoch ≠ d.session.webTransportEpoch) :
    (requestWebAtEpoch hw d epoch sessionId requestId enable nowMs).2 = d := by
  unfold requestWebAtEpoch
  by_cases hid : requestId = 0
  · rw [if_pos hid]
  · rw [if_neg hid, if_pos (h.resolve_left hid)]

theorem sound_requestWebAtEpoch {d : Device σ} (h : WellFormed d.session)
    (epoch sessionId requestId : UInt64) (enable : Bool) (nowMs : UInt64) :
    Sound (expired hw d (.requestWebAtEpoch epoch sessionId requestId enable nowMs)).session
      (requestWebAtEpoch hw d epoch sessionId requestId enable nowMs).2.session := by
  simp only [expired]
  by_cases href : requestId = 0 ∨ epoch ≠ d.session.webTransportEpoch
  · rw [requestWebAtEpoch_refused hw sessionId enable nowMs href, if_pos href]
    exact ⟨h, .refl _⟩
  · have hexp := (sound_expireWebLease hw h nowMs).wellFormed
    rw [if_neg href]
    push Not at href
    rw [requestWebAtEpoch_device hw sessionId enable nowMs href.1 href.2]
    dsimp only
    split_ifs with hfence
    · exact ⟨hexp, .refl _⟩
    · push Not at hfence
      refine sound_acceptRequest hw hexp enable nowMs href.1 hfence.1 fun hweb => ?_
      -- the lease in force belongs to the last request, and this id is a higher one
      obtain ⟨hlast, hid⟩ := hexp.last hweb
      rintro rfl
      exact hfence.2.2 hlast (hid ▸ UInt64.le_refl _)

theorem sound_leaseDeadlineMs (h : WellFormed s) (hweb : s.state = .webTx) (deadline : UInt64) :
    Sound s { s with leaseDeadlineMs := deadline } :=
  ⟨⟨h.installed, h.lease, fun hs => absurd hweb hs, h.generation, h.last⟩,
    .stay (txOwner_congr rfl rfl rfl) rfl⟩

theorem sound_usbTxRejected (h : WellFormed s) (count : UInt64) :
    Sound s { s with usbTxRejected := count } :=
  ⟨⟨h.installed, h.lease, h.deadline, h.generation, h.last⟩, .stay (txOwner_congr rfl rfl rfl) rfl⟩

theorem sound_webActivity {d : Device σ} (h : WellFormed d.session)
    (sessionId leaseId nowMs : UInt64) :
    Sound (expireWebLease hw d nowMs).session
      (webActivity hw d sessionId leaseId nowMs).2.session := by
  have hexp := (sound_expireWebLease hw h nowMs).wellFormed
  unfold webActivity
  dsimp only
  split_ifs with hguard
  · exact ⟨hexp, .refl _⟩
  · push Not at hguard
    exact sound_leaseDeadlineMs hexp hguard.1 _

theorem sound_webDisconnect {d : Device σ} (h : WellFormed d.session)
    (sessionId leaseId : UInt64) :
    Sound d.session (webDisconnect hw d sessionId leaseId).2.session := by
  unfold webDisconnect
  split_ifs
  · exact ⟨h, .refl _⟩
  · exact sound_returnToUsb hw h

theorem sound_acceptUsbInputGeneration (h : WellFormed s) (g n : UInt64) :
    Sound s (acceptUsbInputGeneration s g n).2 := by
  unfold acceptUsbInputGeneration
  split_ifs
  · exact ⟨h, .refl _⟩
  · exact sound_usbTxRejected h _
  · exact ⟨h, .refl _⟩

theorem sound_recordUsbRejection (h : WellFormed s) (n : UInt64) :
    Sound s (recordUsbRejection s n).2 := by
  unfold recordUsbRejection
  split_ifs
  · exact ⟨h, .refl _⟩
  · exact sound_usbTxRejected h _

/-- **One call**: after its expiry check, a call makes at most one ownership move. -/
theorem sound_step {d : Device σ} (h : WellFormed d.session) (op : Op) :
    Sound (expired hw d op).session (step hw d op).session := by
  cases op with
  | enter e => exact sound_enter hw h e
  | exit e => exact sound_exit hw h e
  | requestWeb sid rid enable now =>
    have hreq := sound_requestWebAtEpoch hw h d.session.webTransportEpoch sid rid enable now
    have hexp : expired hw d (.requestWeb sid rid enable now) =
        expired hw d (.requestWebAtEpoch d.session.webTransportEpoch sid rid enable now) := by
      simp only [expired, ne_eq, not_true_eq_false, or_false]
    rw [hexp]
    exact hreq
  | requestWebAtEpoch e sid rid enable now => exact sound_requestWebAtEpoch hw h e sid rid enable now
  | revokeWebTransport e => exact sound_revokeWebTransport hw h e
  | webActivity sid lid now => exact sound_webActivity hw h sid lid now
  | webDisconnect sid lid => exact sound_webDisconnect hw h sid lid
  | acceptWebInput sid lid => exact ⟨h, .refl _⟩
  | acceptUsbInput n => exact sound_acceptUsbInputGeneration h _ n
  | acceptUsbInputGeneration g n => exact sound_acceptUsbInputGeneration h g n
  | recordUsbRejection n => exact sound_recordUsbRejection h n
  | tick now => exact ⟨(sound_expireWebLease hw h now).wellFormed, .refl _⟩

theorem wellFormed_step {d : Device σ} (h : WellFormed d.session) (op : Op) :
    WellFormed (step hw d op).session :=
  (sound_step hw h op).wellFormed

/-! ### Runs -/

/-- The ownership transitions of one call: its expiry check, then the call itself. -/
def ownershipTransitions (d : Device σ) (op : Op) : ℕ :=
  (if d.session.txOwner = (expired hw d op).session.txOwner then 0 else 1) +
    (if (expired hw d op).session.txOwner = (step hw d op).session.txOwner then 0 else 1)

@[simp] theorem run_nil (d : Device σ) : run hw d [] = d := rfl

@[simp] theorem run_cons (d : Device σ) (op : Op) (ops : List Op) :
    run hw d (op :: ops) = run hw (step hw d op) ops := rfl

theorem run_append (d : Device σ) (ops ops' : List Op) :
    run hw d (ops ++ ops') = run hw (run hw d ops) ops' :=
  List.foldl_append

theorem wellFormed_run {d : Device σ} (h : WellFormed d.session) (ops : List Op) :
    WellFormed (run hw d ops).session := by
  induction ops generalizing d with
  | nil => exact h
  | cons op ops ih => exact ih (wellFormed_step hw h op)

theorem wellFormed_create {timeout : UInt64} {context : σ} {d : Device σ}
    (h : create hw timeout context = some d) : WellFormed d.session := by
  unfold create at h
  split_ifs at h
  obtain rfl := Option.some.inj h
  exact ⟨fun hs => absurd rfl hs, by simp, fun _ => rfl, fun hs => absurd rfl hs, by simp⟩

theorem step_ownerGeneration {d : Device σ} (h : WellFormed d.session) (op : Op) :
    (step hw d op).session.ownerGeneration =
      incrementNonzero^[ownershipTransitions hw d op] d.session.ownerGeneration := by
  rw [(sound_step hw h op).move.generation, (sound_expired hw h op).move.generation,
    ← Function.iterate_add_apply, ownershipTransitions, Nat.add_comm]

theorem exit_of_lt {d : Device σ} {controlEpoch : UInt64}
    (h : controlEpoch < d.session.controlEpoch) :
    exit hw d controlEpoch = (fillResult d.session .staleRequest 0, d) := by
  unfold exit
  rw [if_pos h]

theorem exit_state_of_not_lt {d : Device σ} {controlEpoch : UInt64}
    (h : ¬controlEpoch < d.session.controlEpoch) :
    (exit hw d controlEpoch).2.session.state = .disarmed := by
  unfold exit
  rw [if_neg h]
  dsimp only
  by_cases hs : d.session.state = .disarmed ∧ d.session.uartInstalled = false
  · rw [if_pos hs]
    exact hs.1
  · rw [if_neg hs]
    exact disarm_state hw _

/-! ### Stamped input -/

theorem acceptUsbInputGeneration_eq_true_iff (s : Session) (g byteCount : UInt64) :
    (acceptUsbInputGeneration s g byteCount).1 = true ↔
      s.state = .usbTx ∧ g ≠ 0 ∧ g = s.ownerGeneration := by
  unfold acceptUsbInputGeneration
  split_ifs with h1 h2
  · exact iff_of_true rfl h1
  · exact iff_of_false (by simp) h1
  · exact iff_of_false (by simp) h1

/-- An adapter whose driver calls all succeed. -/
def HardwareAdapter.ready : HardwareAdapter Unit where
  installUart _ _ := (true, ())
  uninstallUart _ := (true, ())
  setTxHighImpedance _ := ()
  clearUsbTx _ := ()
  clearWebTx _ := ()

/-- A fresh session with a lease timeout of one second. -/
def freshDevice : Device Unit :=
  ⟨{ leaseTimeoutMs := 1000 }, ()⟩

end RlcdDeck.SerialSession
