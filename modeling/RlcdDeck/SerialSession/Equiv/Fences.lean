import RlcdDeck.SerialSession.Equiv.Ownership

/-!
# The fences of the serial session

Delayed commands meet three fences.  The control epoch and the Web transport epoch only grow
(`run_controlEpoch`, `run_webTransportEpoch`), so what an exit or a revocation has overtaken
stays refused.  The request id is fenced for as long as the session lasts and no revocation
forgets it: `Fenced sid rid` is kept by every other call (`fenced_step`, `fenced_run`), and a
replay in a fenced session does no more than the expiry check (`request_of_fenced`).
-/

namespace RlcdDeck.SerialSession

open Counter

variable {σ : Type*} (hw : HardwareAdapter σ)

/-- What a call leaves alone if it neither arms, disarms nor decides a request. -/
structure SameFences (s s' : Session) : Prop where
  sessionId : s'.sessionId = s.sessionId
  controlEpoch : s'.controlEpoch = s.controlEpoch
  webTransportEpoch : s'.webTransportEpoch = s.webTransportEpoch
  hasLast : s'.hasLastRequest = s.hasLastRequest
  lastId : s'.lastRequestId = s.lastRequestId
  disarmed : s'.state = .disarmed ↔ s.state = .disarmed

theorem SameFences.refl (s : Session) : SameFences s s :=
  ⟨rfl, rfl, rfl, rfl, rfl, Iff.rfl⟩

/-! ### What the calls do to the fences -/

theorem sameFences_returnToUsb (d : Device σ) :
    SameFences d.session (returnToUsb hw d).session := by
  rw [returnToUsb_session]
  split_ifs with h
  · exact ⟨rfl, rfl, rfl, rfl, rfl, by simp [h]⟩
  · exact .refl _

theorem sameFences_expireWebLease (d : Device σ) (nowMs : UInt64) :
    SameFences d.session (expireWebLease hw d nowMs).session := by
  unfold expireWebLease
  split_ifs
  · exact sameFences_returnToUsb hw d
  · exact .refl _

theorem sameFences_usbTxRejected (s : Session) (count : UInt64) :
    SameFences s { s with usbTxRejected := count } :=
  ⟨rfl, rfl, rfl, rfl, rfl, Iff.rfl⟩

theorem sameFences_leaseDeadlineMs (s : Session) (deadline : UInt64) :
    SameFences s { s with leaseDeadlineMs := deadline } :=
  ⟨rfl, rfl, rfl, rfl, rfl, Iff.rfl⟩

theorem sameFences_acceptUsbInputGeneration (s : Session) (g n : UInt64) :
    SameFences s (acceptUsbInputGeneration s g n).2 := by
  unfold acceptUsbInputGeneration
  split_ifs
  · exact .refl _
  · exact sameFences_usbTxRejected s _
  · exact .refl _

theorem sameFences_recordUsbRejection (s : Session) (n : UInt64) :
    SameFences s (recordUsbRejection s n).2 := by
  unfold recordUsbRejection
  split_ifs
  · exact .refl _
  · exact sameFences_usbTxRejected s _

theorem sameFences_webActivity (d : Device σ) (sessionId leaseId nowMs : UInt64) :
    SameFences d.session (webActivity hw d sessionId leaseId nowMs).2.session := by
  have hexp := sameFences_expireWebLease hw d nowMs
  unfold webActivity
  dsimp only
  split_ifs
  · exact hexp
  · have hext := sameFences_leaseDeadlineMs (expireWebLease hw d nowMs).session
      (saturatingAdd nowMs (expireWebLease hw d nowMs).session.leaseTimeoutMs)
    exact ⟨hext.sessionId.trans hexp.sessionId, hext.controlEpoch.trans hexp.controlEpoch,
      hext.webTransportEpoch.trans hexp.webTransportEpoch, hext.hasLast.trans hexp.hasLast,
      hext.lastId.trans hexp.lastId, hext.disarmed.trans hexp.disarmed⟩

theorem sameFences_webDisconnect (d : Device σ) (sessionId leaseId : UInt64) :
    SameFences d.session (webDisconnect hw d sessionId leaseId).2.session := by
  unfold webDisconnect
  split_ifs
  · exact .refl _
  · exact sameFences_returnToUsb hw d

/-- The session an arming `enter` starts. -/
structure Arms (s s' : Session) : Prop where
  sessionId : s'.sessionId = incrementNonzero s.sessionId
  controlEpoch : s'.controlEpoch = s.controlEpoch
  webTransportEpoch : s'.webTransportEpoch = s.webTransportEpoch

theorem install_fences (d : Device σ) :
    SameFences d.session (install hw d).2.session ∨ Arms d.session (install hw d).2.session := by
  unfold install
  dsimp only
  by_cases hok : (hw.installUart d.context (incrementNonzero d.session.sessionId)).1 = false
  · rw [if_pos hok]
    exact .inl ⟨rfl, rfl, rfl, rfl, rfl, Iff.rfl⟩
  · rw [if_neg hok]
    exact .inr ⟨rfl, rfl, rfl⟩

theorem enter_fences (d : Device σ) (controlEpoch : UInt64) :
    SameFences d.session (enter hw d controlEpoch).2.session ∨
      Arms d.session (enter hw d controlEpoch).2.session := by
  unfold enter
  dsimp only
  split_ifs
  · exact .inl (.refl _)
  · exact .inl (.refl _)
  · exact .inl (.refl _)
  · rcases install_fences hw
      ⟨{ d.session with uartInstalled := false }, (hw.uninstallUart d.context).2⟩ with h | h
    · exact .inl ⟨h.sessionId, h.controlEpoch, h.webTransportEpoch, h.hasLast, h.lastId, h.disarmed⟩
    · exact .inr ⟨h.sessionId, h.controlEpoch, h.webTransportEpoch⟩
  · exact install_fences hw d

theorem enter_of_ne {d : Device σ} {controlEpoch : UInt64}
    (h : controlEpoch ≠ d.session.controlEpoch) :
    enter hw d controlEpoch = (fillResult d.session .staleRequest 0, d) := by
  unfold enter
  rw [if_pos h]

theorem exit_fences {d : Device σ} {controlEpoch : UInt64}
    (h : ¬controlEpoch < d.session.controlEpoch) :
    (exit hw d controlEpoch).2.session.controlEpoch = controlEpoch ∧
      (exit hw d controlEpoch).2.session.webTransportEpoch = d.session.webTransportEpoch ∧
      (exit hw d controlEpoch).2.session.sessionId = d.session.sessionId := by
  unfold exit
  rw [if_neg h]
  dsimp only
  by_cases hs : d.session.state = .disarmed ∧ d.session.uartInstalled = false
  · rw [if_pos hs]
    exact ⟨rfl, rfl, rfl⟩
  · rw [if_neg hs]
    exact ⟨rfl, rfl, rfl⟩

theorem acceptRequest_fences (d : Device σ) (requestId : UInt64) (enable : Bool)
    (nowMs : UInt64) :
    let s := (acceptRequest hw d requestId enable nowMs).2.session
    s.sessionId = d.session.sessionId ∧ s.controlEpoch = d.session.controlEpoch ∧
      s.webTransportEpoch = d.session.webTransportEpoch ∧ s.hasLastRequest = true ∧
      s.lastRequestId = requestId := by
  unfold acceptRequest
  cases enable with
  | true => exact ⟨rfl, rfl, rfl, rfl, rfl⟩
  | false =>
    have h := sameFences_returnToUsb hw d
    exact ⟨h.sessionId, h.controlEpoch, h.webTransportEpoch, rfl, rfl⟩

theorem requestWebAtEpoch_cases (d : Device σ) (epoch sessionId requestId : UInt64)
    (enable : Bool) (nowMs : UInt64) :
    let d' := expireWebLease hw d nowMs
    let after := (requestWebAtEpoch hw d epoch sessionId requestId enable nowMs).2
    after = d ∨ after = d' ∨
      (after = (acceptRequest hw d' requestId enable nowMs).2 ∧
        d'.session.state ≠ .disarmed ∧ sessionId = d'.session.sessionId ∧
        (d'.session.hasLastRequest = true → d'.session.lastRequestId < requestId)) := by
  intro d' after
  by_cases href : requestId = 0 ∨ epoch ≠ d.session.webTransportEpoch
  · exact .inl (requestWebAtEpoch_refused hw sessionId enable nowMs href)
  · push Not at href
    have hafter := requestWebAtEpoch_device hw sessionId enable nowMs href.1 href.2
    refine .inr ?_
    by_cases hfence : d'.session.state = .disarmed ∨ sessionId ≠ d'.session.sessionId ∨
        (d'.session.hasLastRequest = true ∧ requestId ≤ d'.session.lastRequestId)
    · exact .inl (hafter.trans (if_pos hfence))
    · refine .inr ⟨hafter.trans (if_neg hfence), ?_⟩
      push Not at hfence
      exact ⟨hfence.1, hfence.2.1, fun hl => UInt64.not_le.mp (hfence.2.2 hl)⟩

/-- A call that takes effect on the Web transport: a revocation that is not stale. -/
def RevokesAt (d : Device σ) (op : Op) : Prop :=
  ∃ epoch, op = .revokeWebTransport epoch ∧ ¬epoch < d.session.webTransportEpoch

instance (d : Device σ) : (op : Op) → Decidable (RevokesAt d op)
  | .revokeWebTransport epoch =>
    decidable_of_iff (¬epoch < d.session.webTransportEpoch)
      ⟨fun h => ⟨epoch, rfl, h⟩, fun ⟨_, heq, h⟩ => Op.revokeWebTransport.inj heq ▸ h⟩
  | .enter _ | .exit _ | .requestWeb .. | .requestWebAtEpoch .. | .webActivity ..
  | .webDisconnect .. | .acceptWebInput .. | .acceptUsbInput _ | .acceptUsbInputGeneration ..
  | .recordUsbRejection _ | .tick _ => .isFalse fun ⟨_, heq, _⟩ => by cases heq

/-- What a call can do to the fences of a session. -/
inductive FenceMove (d : Device σ) (op : Op) (s' : Session) : Prop where
  | same : SameFences d.session s' → FenceMove d op s'
  | arms : Arms d.session s' → FenceMove d op s'
  | disarms : s'.state = .disarmed → s'.sessionId = d.session.sessionId →
      ¬s'.controlEpoch < d.session.controlEpoch →
      s'.webTransportEpoch = d.session.webTransportEpoch → FenceMove d op s'
  | decides : d.session.state ≠ .disarmed → s'.sessionId = d.session.sessionId →
      s'.controlEpoch = d.session.controlEpoch → s'.webTransportEpoch = d.session.webTransportEpoch →
      s'.hasLastRequest = true →
      (d.session.hasLastRequest = true → d.session.lastRequestId < s'.lastRequestId) →
      FenceMove d op s'
  | revokes : RevokesAt d op → s'.sessionId = d.session.sessionId →
      s'.controlEpoch = d.session.controlEpoch →
      ¬s'.webTransportEpoch < d.session.webTransportEpoch → FenceMove d op s'

theorem fenceMove_requestWebAtEpoch (d : Device σ) (op : Op) (epoch sessionId requestId : UInt64)
    (enable : Bool) (nowMs : UInt64) :
    FenceMove d op (requestWebAtEpoch hw d epoch sessionId requestId enable nowMs).2.session := by
  have hexp := sameFences_expireWebLease hw d nowMs
  rcases requestWebAtEpoch_cases hw d epoch sessionId requestId enable nowMs with h | h | h
  · rw [h]
    exact .same (.refl _)
  · rw [h]
    exact .same hexp
  · obtain ⟨heq, harmed, -, hfresh⟩ := h
    obtain ⟨hsid, hce, hwe, hlast, hid⟩ :=
      acceptRequest_fences hw (expireWebLease hw d nowMs) requestId enable nowMs
    rw [heq]
    refine .decides (hexp.disarmed.not.mp harmed) (hsid.trans hexp.sessionId)
      (hce.trans hexp.controlEpoch) (hwe.trans hexp.webTransportEpoch) hlast fun hl => ?_
    rw [hid, ← hexp.lastId]
    exact hfresh (hexp.hasLast.trans hl)

variable {epoch : UInt64}

theorem revokeWebTransport_webTransportEpoch {d : Device σ}
    (he : ¬epoch < d.session.webTransportEpoch) :
    (revokeWebTransport hw d epoch).2.session.webTransportEpoch = epoch := by
  rw [revokeWebTransport_session hw he]
  exact (sameFences_returnToUsb hw
    { d with session := { d.session with webTransportEpoch := epoch } }).webTransportEpoch

theorem revokeWebTransport_of_lt {d : Device σ} (he : epoch < d.session.webTransportEpoch) :
    revokeWebTransport hw d epoch = (fillResult d.session .staleRequest 0, d) := by
  unfold revokeWebTransport
  rw [if_pos he]

theorem fenceMove_revokeWebTransport (d : Device σ) (epoch : UInt64) :
    FenceMove d (.revokeWebTransport epoch) (revokeWebTransport hw d epoch).2.session := by
  by_cases he : epoch < d.session.webTransportEpoch
  · rw [revokeWebTransport_of_lt hw he]
    exact .same (.refl _)
  · have hepoch := revokeWebTransport_webTransportEpoch hw he
    refine .revokes ⟨epoch, rfl, he⟩ ?_ ?_ (by rw [hepoch]; exact he) <;>
      rw [revokeWebTransport_session hw he]
    · exact (sameFences_returnToUsb hw _).sessionId
    · exact (sameFences_returnToUsb hw _).controlEpoch

/-- **One call**: every call makes one of the moves. -/
theorem fenceMove_step (d : Device σ) (op : Op) : FenceMove d op (step hw d op).session := by
  cases op with
  | enter e =>
    rcases enter_fences hw d e with h | h
    · exact .same h
    · exact .arms h
  | exit e =>
    simp only [step]
    by_cases he : e < d.session.controlEpoch
    · rw [exit_of_lt hw he]
      exact .same (.refl _)
    · obtain ⟨hce, hwe, hsid⟩ := exit_fences hw he
      exact .disarms (exit_state_of_not_lt hw he) hsid (by rw [hce]; exact he) hwe
  | requestWeb sid rid enable now => exact fenceMove_requestWebAtEpoch hw d _ _ sid rid enable now
  | requestWebAtEpoch e sid rid enable now =>
    exact fenceMove_requestWebAtEpoch hw d _ e sid rid enable now
  | revokeWebTransport e => exact fenceMove_revokeWebTransport hw d e
  | webActivity sid lid now => exact .same (sameFences_webActivity hw d sid lid now)
  | webDisconnect sid lid => exact .same (sameFences_webDisconnect hw d sid lid)
  | acceptWebInput sid lid => exact .same (.refl _)
  | acceptUsbInput n => exact .same (sameFences_acceptUsbInputGeneration d.session _ n)
  | acceptUsbInputGeneration g n => exact .same (sameFences_acceptUsbInputGeneration d.session g n)
  | recordUsbRejection n => exact .same (sameFences_recordUsbRejection d.session n)
  | tick now => exact .same (sameFences_expireWebLease hw d now)

/-! ### Epochs only grow -/

theorem step_controlEpoch (d : Device σ) (op : Op) :
    d.session.controlEpoch ≤ (step hw d op).session.controlEpoch := by
  cases fenceMove_step hw d op with
  | same h => exact h.controlEpoch ▸ UInt64.le_refl _
  | arms h => exact h.controlEpoch ▸ UInt64.le_refl _
  | disarms _ _ h _ => exact UInt64.not_lt.mp h
  | decides _ _ h _ _ _ => exact h ▸ UInt64.le_refl _
  | revokes _ _ h _ => exact h ▸ UInt64.le_refl _

theorem step_webTransportEpoch (d : Device σ) (op : Op) :
    d.session.webTransportEpoch ≤ (step hw d op).session.webTransportEpoch := by
  cases fenceMove_step hw d op with
  | same h => exact h.webTransportEpoch ▸ UInt64.le_refl _
  | arms h => exact h.webTransportEpoch ▸ UInt64.le_refl _
  | disarms _ _ _ h => exact h ▸ UInt64.le_refl _
  | decides _ _ _ h _ _ => exact h ▸ UInt64.le_refl _
  | revokes _ _ _ h => exact UInt64.not_lt.mp h

theorem run_controlEpoch (d : Device σ) (ops : List Op) :
    d.session.controlEpoch ≤ (run hw d ops).session.controlEpoch := by
  induction ops generalizing d with
  | nil => exact UInt64.le_refl _
  | cons op ops ih => exact UInt64.le_trans (step_controlEpoch hw d op) (ih _)

theorem run_webTransportEpoch (d : Device σ) (ops : List Op) :
    d.session.webTransportEpoch ≤ (run hw d ops).session.webTransportEpoch := by
  induction ops generalizing d with
  | nil => exact UInt64.le_refl _
  | cons op ops ih => exact UInt64.le_trans (step_webTransportEpoch hw d op) (ih _)

theorem le_exit_controlEpoch (d : Device σ) (epoch : UInt64) :
    epoch ≤ (exit hw d epoch).2.session.controlEpoch := by
  by_cases he : epoch < d.session.controlEpoch
  · rw [exit_of_lt hw he]
    exact UInt64.le_of_lt he
  · rw [(exit_fences hw he).1]
    exact UInt64.le_refl _

theorem le_revokeWebTransport_webTransportEpoch (d : Device σ) (epoch : UInt64) :
    epoch ≤ (revokeWebTransport hw d epoch).2.session.webTransportEpoch := by
  by_cases he : epoch < d.session.webTransportEpoch
  · rw [revokeWebTransport_of_lt hw he]
    exact UInt64.le_of_lt he
  · rw [revokeWebTransport_webTransportEpoch hw he]
    exact UInt64.le_refl _

/-! ### Replayed requests -/

/-- A request `rid` of the session `sid` has been decided: the session is over, or its last
request id has reached `rid`. -/
def Fenced (sid rid : UInt64) (s : Session) : Prop :=
  s.sessionId = sid → s.state = .disarmed ∨ (s.hasLastRequest = true ∧ rid ≤ s.lastRequestId)

/-- The number of sessions a run enters. -/
def sessionsEntered (d : Device σ) : List Op → ℕ
  | [] => 0
  | op :: ops =>
    (if (step hw d op).session.sessionId = d.session.sessionId then 0 else 1) +
      sessionsEntered (step hw d op) ops

/-- No revocation takes effect in a run. -/
def Unrevoked (d : Device σ) : List Op → Prop
  | [] => True
  | op :: ops => ¬RevokesAt d op ∧ Unrevoked (step hw d op) ops

theorem iterate_incrementNonzero_ne {v : UInt64} {n : ℕ} (hpos : 0 < n) (hlt : n < 2 ^ 64 - 1) :
    incrementNonzero^[n] v ≠ v := by
  by_cases hv : v = 0
  · obtain ⟨m, rfl⟩ := Nat.exists_eq_succ_of_ne_zero hpos.ne'
    rw [Function.iterate_succ_apply', hv]
    exact incrementNonzero_ne_zero _
  · intro heq
    have hdvd := (iterate_nonzeroNext64_eq_self_iff hv n).mp heq
    have := Nat.le_of_dvd hpos hdvd
    omega

theorem step_sessionId (d : Device σ) (op : Op) :
    (step hw d op).session.sessionId = d.session.sessionId ∨
      (step hw d op).session.sessionId = incrementNonzero d.session.sessionId := by
  cases fenceMove_step hw d op with
  | same h => exact .inl h.sessionId
  | arms h => exact .inr h.sessionId
  | disarms _ h _ _ => exact .inl h
  | decides _ h _ _ _ _ => exact .inl h
  | revokes _ h _ _ => exact .inl h

variable {sid rid : UInt64}

theorem fenced_step {d : Device σ} (h : Fenced sid rid d.session) {op : Op}
    (hrevoke : ¬RevokesAt d op)
    (hnew : (step hw d op).session.sessionId ≠ d.session.sessionId →
      (step hw d op).session.sessionId ≠ sid) :
    Fenced sid rid (step hw d op).session := by
  intro hsid
  cases fenceMove_step hw d op with
  | same hsame =>
    rw [hsame.disarmed, hsame.hasLast, hsame.lastId]
    exact h (hsame.sessionId.symm.trans hsid)
  | arms harm =>
    refine absurd hsid (hnew ?_)
    rw [harm.sessionId]
    exact iterate_incrementNonzero_ne Nat.one_pos (by norm_num)
  | disarms hstate _ _ _ => exact .inl hstate
  | decides harmed hid _ _ hlast hfresh =>
    obtain ⟨hl, hle⟩ := (h (hid.symm.trans hsid)).resolve_left harmed
    exact .inr ⟨hlast, UInt64.le_trans hle (UInt64.le_of_lt (hfresh hl))⟩
  | revokes hrev _ _ _ => exact absurd hrev hrevoke

/-- **One run**: the fence holds until a revocation takes effect, for `2^64 - 1` sessions. -/
theorem fenced_run {d : Device σ} (h : Fenced sid rid d.session) {c : ℕ}
    (hc : d.session.sessionId = incrementNonzero^[c] sid) {ops : List Op}
    (hrevoke : Unrevoked hw d ops) (hlt : c + sessionsEntered hw d ops < 2 ^ 64 - 1) :
    Fenced sid rid (run hw d ops).session := by
  induction ops generalizing d c with
  | nil => exact h
  | cons op ops ih =>
    rw [sessionsEntered] at hlt
    rcases step_sessionId hw d op with hs | hs
    · rw [if_pos hs] at hlt
      exact ih (fenced_step hw h hrevoke.1 fun hne => absurd hs hne) (hs.trans hc) hrevoke.2
        (by omega)
    · have hne : (step hw d op).session.sessionId ≠ d.session.sessionId := by
        rw [hs]
        exact iterate_incrementNonzero_ne Nat.one_pos (by norm_num)
      rw [if_neg hne] at hlt
      have hc' : (step hw d op).session.sessionId = incrementNonzero^[c + 1] sid := by
        rw [hs, hc, Function.iterate_succ_apply']
      refine ih (fenced_step hw h hrevoke.1 fun _ => ?_) hc' hrevoke.2 (by omega)
      rw [hc']
      exact iterate_incrementNonzero_ne (Nat.succ_pos c) (by omega)

variable {nowMs : UInt64}

theorem fenced_of_answer {d : Device σ} {enable : Bool} {result : CommandResult}
    (h : (requestWebAtEpoch hw d epoch sid rid enable nowMs).1 = some result)
    (hsession : result.code ≠ .staleSession) (hrequest : result.code ≠ .staleRequest) :
    let s := (requestWebAtEpoch hw d epoch sid rid enable nowMs).2.session
    s.sessionId = sid ∧ s.hasLastRequest = true ∧ rid ≤ s.lastRequestId := by
  intro s
  by_cases hid : rid = 0
  · simp [requestWebAtEpoch, hid] at h
  by_cases he : epoch = d.session.webTransportEpoch
  swap
  · simp only [requestWebAtEpoch, if_neg hid, if_pos he, Option.some.injEq] at h
    exact absurd (congrArg CommandResult.code h.symm) hrequest
  have hs : s = (requestWebAtEpoch hw d epoch sid rid enable nowMs).2.session := rfl
  unfold requestWebAtEpoch at h hs
  rw [if_neg hid, if_neg (not_not.mpr he)] at h hs
  dsimp only at h hs
  generalize expireWebLease hw d nowMs = d' at h hs
  by_cases hdis : d'.session.state = .disarmed ∨ sid ≠ d'.session.sessionId
  · rw [if_pos hdis] at h
    exact absurd (congrArg CommandResult.code (Option.some.inj h).symm) hsession
  rw [if_neg hdis] at h hs
  push Not at hdis
  by_cases hsame : d'.session.hasLastRequest = true ∧ rid = d'.session.lastRequestId
  · rw [if_pos hsame] at hs
    rw [hs]
    exact ⟨hdis.2.symm, hsame.1, UInt64.le_of_eq hsame.2⟩
  rw [if_neg hsame] at h hs
  by_cases hlow : d'.session.hasLastRequest = true ∧ rid < d'.session.lastRequestId
  · rw [if_pos hlow] at h
    exact absurd (congrArg CommandResult.code (Option.some.inj h).symm) hrequest
  rw [if_neg hlow] at hs
  obtain ⟨hsid, -, -, hlast, hrid⟩ := acceptRequest_fences hw d' rid enable nowMs
  rw [hs]
  exact ⟨hsid.trans hdis.2.symm, hlast, UInt64.le_of_eq hrid.symm⟩

theorem request_of_fenced {d : Device σ} {rid' : UInt64} (h : Fenced sid rid d.session)
    (hle : rid' ≤ rid) (epoch : UInt64) (enable : Bool) (nowMs : UInt64) :
    (requestWebAtEpoch hw d epoch sid rid' enable nowMs).2 = d ∨
      (requestWebAtEpoch hw d epoch sid rid' enable nowMs).2 = expireWebLease hw d nowMs := by
  rcases requestWebAtEpoch_cases hw d epoch sid rid' enable nowMs with hd | hd | hd
  · exact .inl hd
  · exact .inr hd
  · obtain ⟨-, harmed, hsid, hfresh⟩ := hd
    have hexp := sameFences_expireWebLease hw d nowMs
    rw [hexp.hasLast, hexp.lastId] at hfresh
    obtain ⟨hl, hge⟩ :=
      (h (hexp.sessionId.symm.trans hsid.symm)).resolve_left (hexp.disarmed.not.mp harmed)
    exact absurd (hfresh hl) (UInt64.not_lt.mpr (UInt64.le_trans hle hge))

/-! ### The deadline -/

theorem expireWebLease_eq (d : Device σ) (nowMs : UInt64) :
    expireWebLease hw d nowMs = d ∨
      (d.session.state = .webTx ∧ d.session.leaseDeadlineMs ≤ nowMs ∧
        expireWebLease hw d nowMs = returnToUsb hw d) := by
  unfold expireWebLease
  split_ifs with h
  · exact .inr ⟨h.1, h.2, rfl⟩
  · exact .inl rfl

theorem expireWebLease_state {d : Device σ} (hweb : d.session.state = .webTx)
    (hdue : d.session.leaseDeadlineMs ≤ nowMs) :
    (expireWebLease hw d nowMs).session.state = .usbTx := by
  unfold expireWebLease
  rw [if_pos ⟨hweb, hdue⟩, returnToUsb_session, if_pos hweb]

theorem webActivity_of_due {d : Device σ} (hweb : d.session.state = .webTx)
    (hdue : d.session.leaseDeadlineMs ≤ nowMs) (sessionId leaseId : UInt64) :
    webActivity hw d sessionId leaseId nowMs = (false, expireWebLease hw d nowMs) := by
  have hexp := expireWebLease_state hw hweb hdue
  unfold webActivity
  exact if_pos (.inl (by rw [hexp]; simp))

theorem acceptWebInput_of_state_ne {s : Session} (h : s.state ≠ .webTx)
    (sessionId leaseId : UInt64) : acceptWebInput s sessionId leaseId = false := by
  simp [acceptWebInput, h]

theorem acceptWebInput_of_leaseId_ne {s : Session} {leaseId : UInt64} (h : leaseId ≠ s.leaseId)
    (sessionId : UInt64) : acceptWebInput s sessionId leaseId = false := by
  simp [acceptWebInput, h]

theorem acceptRequest_owner (d : Device σ) (requestId : UInt64) (enable : Bool)
    (nowMs : UInt64) :
    let s := (acceptRequest hw d requestId enable nowMs).2.session
    s.state ≠ .webTx ∨ s.leaseId = requestId := by
  unfold acceptRequest
  cases enable with
  | true => exact .inr rfl
  | false => exact .inl (returnToUsb_state_ne_webTx hw d)

theorem requestWebAtEpoch_of_due {d : Device σ} (h : WellFormed d.session) {nowMs : UInt64}
    (hweb : d.session.state = .webTx) (hdue : d.session.leaseDeadlineMs ≤ nowMs)
    (sessionId : UInt64) {requestId : UInt64} (enable : Bool) (hid : requestId ≠ 0) :
    let s := (requestWebAtEpoch hw d d.session.webTransportEpoch sessionId requestId enable
      nowMs).2.session
    s.state ≠ .webTx ∨ (s.leaseId = requestId ∧ d.session.leaseId < requestId) := by
  have hexp := expireWebLease_state hw hweb hdue
  have hsame := sameFences_expireWebLease hw d nowMs
  rw [requestWebAtEpoch_device hw sessionId enable nowMs hid rfl]
  dsimp only
  split_ifs with hfence
  · rw [hexp]
    exact .inl (by simp)
  · push Not at hfence
    refine (acceptRequest_owner hw (expireWebLease hw d nowMs) requestId enable nowMs).imp_right
      fun hlease => ⟨hlease, ?_⟩
    obtain ⟨hlast, hrid⟩ := h.last hweb
    have hlt := UInt64.not_le.mp (hfence.2.2 (hsame.hasLast.trans hlast))
    rwa [hsame.lastId, hrid] at hlt

/-- **Stale authority is refused**, after every sequence `ops` of calls from `create`.

* After an exit at epoch `e`, an enter of an older epoch changes nothing, whatever comes between.
* After a revocation at epoch `w`, a Web request of an older epoch changes nothing.
* After a request `rid` was answered (not as stale), a replay of an id up to `rid` in that
  session changes nothing, except that it may find the lease due and end it; this holds for
  `2^64 - 1` sessions and until a revocation takes effect, which forgets the id.
* In `WEB_TX` with the deadline reached, a tick, an activity report and a request all end the
  lease: the activity is refused, a request may only start a lease of its own with a higher id,
  and input under the old lease is refused from then on. -/
theorem stale_authority_refused {timeout : UInt64} {context : σ} {d₀ : Device σ}
    (hcreate : create hw timeout context = some d₀) (ops : List Op) :
    let d := run hw d₀ ops
    (∀ e e' ops', e' < e →
      let d' := run hw (exit hw d e).2 ops'
      enter hw d' e' = (fillResult d'.session .staleRequest 0, d')) ∧
    (∀ w w' ops' sid rid enable nowMs, w' < w →
      let d' := run hw (revokeWebTransport hw d w).2 ops'
      (requestWebAtEpoch hw d' w' sid rid enable nowMs).2 = d') ∧
    (∀ w sid rid enable nowMs result ops' w' rid' enable' nowMs',
      (requestWebAtEpoch hw d w sid rid enable nowMs).1 = some result →
      result.code ≠ .staleSession → result.code ≠ .staleRequest →
      let d₁ := (requestWebAtEpoch hw d w sid rid enable nowMs).2
      Unrevoked hw d₁ ops' → sessionsEntered hw d₁ ops' < 2 ^ 64 - 1 → rid' ≤ rid →
      let d' := run hw d₁ ops'
      let after := (requestWebAtEpoch hw d' w' sid rid' enable' nowMs').2
      after = d' ∨ (d'.session.state = .webTx ∧ d'.session.leaseDeadlineMs ≤ nowMs' ∧
        after = returnToUsb hw d')) ∧
    (∀ nowMs, d.session.state = .webTx → d.session.leaseDeadlineMs ≤ nowMs →
      (tick hw d nowMs).session.state = .usbTx ∧
      (∀ sid lid, (webActivity hw d sid lid nowMs).1 = false ∧
        (webActivity hw d sid lid nowMs).2.session.state = .usbTx) ∧
      (∀ sid rid enable, rid ≠ 0 →
        let after :=
          (requestWebAtEpoch hw d d.session.webTransportEpoch sid rid enable nowMs).2.session
        (after.state ≠ .webTx ∨ (after.leaseId = rid ∧ d.session.leaseId < rid)) ∧
        ∀ sid', acceptWebInput after sid' d.session.leaseId = false)) := by
  intro d
  have hd : WellFormed d.session := wellFormed_run hw (wellFormed_create hw hcreate) ops
  refine ⟨?_, ?_, ?_, ?_⟩
  · intro e e' ops' hlt d'
    have hle : e ≤ d'.session.controlEpoch :=
      UInt64.le_trans (le_exit_controlEpoch hw d e) (run_controlEpoch hw _ ops')
    exact enter_of_ne hw (UInt64.ne_of_lt (UInt64.lt_of_lt_of_le hlt hle))
  · intro w w' ops' sid rid enable nowMs hlt d'
    have hle : w ≤ d'.session.webTransportEpoch :=
      UInt64.le_trans (le_revokeWebTransport_webTransportEpoch hw d w)
        (run_webTransportEpoch hw _ ops')
    exact requestWebAtEpoch_refused hw sid enable nowMs
      (.inr (UInt64.ne_of_lt (UInt64.lt_of_lt_of_le hlt hle)))
  · intro w sid rid enable nowMs result ops' w' rid' enable' nowMs' hans hses hreq d₁ hrev hlt
      hle d' after
    obtain ⟨hsid, hlast, hrid⟩ := fenced_of_answer hw hans hses hreq
    have hfenced : Fenced sid rid d'.session :=
      fenced_run hw (d := d₁) (c := 0) (fun _ => .inr ⟨hlast, hrid⟩) hsid hrev (by omega)
    rcases request_of_fenced hw hfenced hle w' enable' nowMs' with h | h
    · exact .inl h
    · rcases expireWebLease_eq hw d' nowMs' with hexp | ⟨hweb, hdue, hexp⟩
      · exact .inl (h.trans hexp)
      · exact .inr ⟨hweb, hdue, h.trans hexp⟩
  · intro nowMs hweb hdue
    have hexp := expireWebLease_state hw hweb hdue
    refine ⟨hexp, fun sid lid => ?_, fun sid rid enable hid => ?_⟩
    · rw [webActivity_of_due hw hweb hdue]
      exact ⟨rfl, hexp⟩
    · have howner := requestWebAtEpoch_of_due hw hd hweb hdue sid enable hid
      refine ⟨howner, fun sid' => ?_⟩
      rcases howner with hs | ⟨hl, hlow⟩
      · exact acceptWebInput_of_state_ne hs sid' _
      · exact acceptWebInput_of_leaseId_ne (by rw [hl]; exact UInt64.ne_of_lt hlow) sid'

theorem stale_authority_refused_fresh :
    create .ready 1000 () = some freshDevice ∧
      enter .ready (exit .ready freshDevice 1).2 0 =
        (fillResult (exit .ready freshDevice 1).2.session .staleRequest 0,
          (exit .ready freshDevice 1).2) :=
  ⟨rfl, (stale_authority_refused .ready
    (show create .ready 1000 () = some freshDevice from rfl) []).1 1 0 [] (by decide)⟩

/-- A revocation forgets the request id, so the request is granted again; and input is accepted
past the deadline until a call with a clock ends the lease. -/
theorem stale_authority_limits :
    let d := run .ready freshDevice [.enter 0, .requestWebAtEpoch 0 1 5 true 0]
    d.session.state = .webTx ∧
    (run .ready d [.revokeWebTransport 0]).session.state = .usbTx ∧
    (run .ready d [.revokeWebTransport 0, .requestWebAtEpoch 0 1 5 true 0]).session.state =
      .webTx ∧
    d.session.leaseDeadlineMs ≤ 1000 ∧ acceptWebInput d.session 1 5 = true := by
  decide

end RlcdDeck.SerialSession
