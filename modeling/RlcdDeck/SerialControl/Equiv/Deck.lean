import RlcdDeck.SerialControl.Link

/-!
# The session behind the owner protocol

What the steps of the Deck's end can do to its serial session: only an owner request makes a
lease, its result shows the session it leaves, and a result that is not a refusal shows the owner
that was asked for.
-/

namespace RlcdDeck.SerialControl

open Counter SerialSession SerialHub CompanionLink

variable {σ : Type*} (hw : HardwareAdapter σ)

/-! ### Calls of the session -/

theorem expireWebLease_cases (d : Device σ) (nowMs : UInt64) :
    expireWebLease hw d nowMs = d ∨
      (expireWebLease hw d nowMs).session.state = .usbTx ∧ d.session.state = .webTx ∧
        (expireWebLease hw d nowMs).session.leaseId = 0 := by
  unfold expireWebLease
  by_cases h : d.session.state = .webTx ∧ d.session.leaseDeadlineMs ≤ nowMs
  · right
    rw [if_pos h, returnToUsb, if_neg (not_not_intro h.1)]
    exact ⟨rfl, h.1, rfl⟩
  · left
    rw [if_neg h]

theorem expireWebLease_keeps (d : Device σ) (nowMs : UInt64) :
    let d' := expireWebLease hw d nowMs
    d'.session.sessionId = d.session.sessionId ∧
      d'.session.hasLastRequest = d.session.hasLastRequest ∧
      d'.session.lastRequestId = d.session.lastRequestId ∧
      (d'.session.state = .disarmed ↔ d.session.state = .disarmed) := by
  dsimp only [expireWebLease]
  by_cases h : d.session.state = .webTx ∧ d.session.leaseDeadlineMs ≤ nowMs
  · rw [if_pos h, returnToUsb, if_neg (not_not_intro h.1)]
    refine ⟨rfl, rfl, rfl, ?_⟩
    rw [h.1]
    exact ⟨SerialState.noConfusion, SerialState.noConfusion⟩
  · rw [if_neg h]
    exact ⟨rfl, rfl, rfl, Iff.rfl⟩

theorem expireWebLease_lease {d : Device σ} {nowMs : UInt64}
    (h : (expireWebLease hw d nowMs).session.state = .webTx) :
    d.session.state = .webTx ∧
      (expireWebLease hw d nowMs).session.leaseId = d.session.leaseId := by
  rcases expireWebLease_cases hw d nowMs with hsame | ⟨husb, -⟩
  · rw [hsame] at h ⊢
    exact ⟨h, rfl⟩
  · rw [husb] at h
    cases h

/-- A refusal. -/
def Refused (code : CommandCode) : Prop :=
  code = .staleSession ∨ code = .staleRequest

theorem acceptRequest_session {d : Device σ} (h : WellFormed d.session)
    (harmed : d.session.state ≠ .disarmed) (requestId : UInt64) (enable : Bool) (nowMs : UInt64) :
    let session := (acceptRequest hw d requestId enable nowMs).2.session
    session.state = (if enable then .webTx else .usbTx) ∧
      session.sessionId = d.session.sessionId ∧
      session.leaseId = if enable then requestId else 0 := by
  cases enable with
  | true => exact ⟨rfl, rfl, rfl⟩
  | false =>
    dsimp only [acceptRequest]
    simp only [Bool.false_eq_true, if_false]
    by_cases hweb : d.session.state = .webTx
    · rw [returnToUsb, if_neg (not_not_intro hweb)]
      exact ⟨rfl, rfl, rfl⟩
    · rw [returnToUsb, if_pos hweb]
      refine ⟨?_, rfl, ?_⟩
      · revert harmed hweb
        cases d.session.state <;> simp
      · by_contra hlease
        exact hweb (h.lease.mp hlease)

/-- **What an owner request does**: it is refused, and only the lease's clock is looked at, or it
leaves the owner it asked for.  The result shows the session as it is then. -/
theorem requestWeb_cases {d : Device σ} (h : WellFormed d.session) (sessionId : UInt64)
    {requestId : UInt64} (enable : Bool) (nowMs : UInt64) (hid : requestId ≠ 0)
    (hnew : ¬(d.session.hasLastRequest = true ∧ requestId = d.session.lastRequestId)) :
    let answer := requestWeb hw d sessionId requestId enable nowMs
    ∃ code, answer.1 = some (fillResult answer.2.session code requestId) ∧
      ((Refused code ∧ answer.2 = expireWebLease hw d nowMs) ∨
        (answer.2.session.state = (if enable then .webTx else .usbTx) ∧
          answer.2.session.sessionId = d.session.sessionId ∧
          answer.2.session.leaseId = if enable then requestId else 0)) := by
  obtain ⟨hsession, hlast, hlastId, hdisarmed⟩ := expireWebLease_keeps hw d nowMs
  have hexpired := (sound_expireWebLease hw h nowMs).wellFormed
  intro answer
  have hanswer : answer = requestWeb hw d sessionId requestId enable nowMs := rfl
  unfold requestWeb requestWebAtEpoch at hanswer
  rw [if_neg hid, if_neg (not_not_intro rfl)] at hanswer
  dsimp only at hanswer
  generalize expireWebLease hw d nowMs = d' at *
  by_cases hstale : d'.session.state = .disarmed ∨ sessionId ≠ d'.session.sessionId
  · rw [if_pos hstale] at hanswer
    rw [hanswer]
    exact ⟨_, rfl, .inl ⟨.inl rfl, rfl⟩⟩
  rw [if_neg hstale] at hanswer
  rw [if_neg (by rw [hlast, hlastId]; exact hnew)] at hanswer
  by_cases hlow : d'.session.hasLastRequest = true ∧ requestId < d'.session.lastRequestId
  · rw [if_pos hlow] at hanswer
    rw [hanswer]
    exact ⟨_, rfl, .inl ⟨.inr rfl, rfl⟩⟩
  · rw [if_neg hlow] at hanswer
    rw [hanswer]
    obtain ⟨hstate, hid', hlease⟩ := acceptRequest_session hw hexpired
      (fun hd => hstale (.inl hd)) requestId enable nowMs
    exact ⟨_, rfl, .inr ⟨hstate, hid'.trans hsession, hlease⟩⟩

theorem lease_of_callSession {d : Device σ} {op : Op} {result : Option CommandResult}
    (hop : System.sessionResult hw d op = some result)
    (h : (SerialSession.step hw d op).session.state = .webTx) :
    d.session.state = .webTx := by
  cases op with
  | enter epoch =>
    dsimp only [SerialSession.step, enter, install] at h
    repeat' split at h
    all_goals first | exact h | cases h
  | exit epoch =>
    dsimp only [SerialSession.step, exit] at h
    repeat' split at h
    all_goals first | exact h | cases h
  | webActivity sessionId leaseId nowMs =>
    dsimp only [SerialSession.step, webActivity] at h
    split at h
    · exact (expireWebLease_lease hw h).1
    · exact (expireWebLease_lease hw h).1
  | tick nowMs => exact (expireWebLease_lease hw h).1
  | _ => cases hop

theorem sessionResult_requestId {d : Device σ} {op : Op} {r : CommandResult}
    (hop : System.sessionResult hw d op = some (some r)) : r.requestId = 0 := by
  cases op with
  | enter epoch =>
    obtain rfl := Option.some.inj (Option.some.inj hop)
    dsimp only [enter, install]
    repeat' split
    all_goals rfl
  | exit epoch =>
    obtain rfl := Option.some.inj (Option.some.inj hop)
    dsimp only [exit]
    repeat' split
    all_goals rfl
  | webActivity _ _ _ => cases hop
  | tick _ => cases hop
  | _ => cases hop

/-- Only an exit ends the session. -/
theorem armed_of_callSession {d : Device σ} {op : Op} {result : Option CommandResult}
    (hop : System.sessionResult hw d op = some result) (harmed : d.session.state ≠ .disarmed)
    (hexit : ∀ epoch, op ≠ .exit epoch) :
    (SerialSession.step hw d op).session.state ≠ .disarmed ∧
      (SerialSession.step hw d op).session.sessionId = d.session.sessionId := by
  have hexpired : ∀ nowMs, (expireWebLease hw d nowMs).session.state ≠ .disarmed ∧
      (expireWebLease hw d nowMs).session.sessionId = d.session.sessionId := by
    intro nowMs
    obtain ⟨hsession, -, -, hdisarmed⟩ := expireWebLease_keeps hw d nowMs
    exact ⟨fun hd => harmed (hdisarmed.mp hd), hsession⟩
  cases op with
  | enter epoch =>
    dsimp only [SerialSession.step, enter]
    rw [if_pos harmed]
    split
    · exact ⟨harmed, rfl⟩
    · exact ⟨harmed, rfl⟩
  | exit epoch => exact absurd rfl (hexit epoch)
  | webActivity sessionId leaseId nowMs =>
    dsimp only [SerialSession.step, webActivity]
    split
    · exact hexpired nowMs
    · exact hexpired nowMs
  | tick nowMs => exact hexpired nowMs
  | _ => cases hop

theorem armed_of_revoke {d : Device σ} (harmed : d.session.state ≠ .disarmed) (epoch : UInt64) :
    (revokeWebTransport hw d epoch).2.session.state ≠ .disarmed ∧
      (revokeWebTransport hw d epoch).2.session.sessionId = d.session.sessionId := by
  unfold revokeWebTransport
  split
  · exact ⟨harmed, rfl⟩
  · dsimp only [returnToUsb]
    split
    · exact ⟨harmed, rfl⟩
    · exact ⟨SerialState.noConfusion, rfl⟩

/-! ### The request tracker -/

theorem begin_new {t t' : RequestTracker} {externalRequestId : UInt64}
    (h : t.begin externalRequestId = (.new, t')) :
    t.pending = false ∧ t'.pending = true ∧ t'.externalRequestId = externalRequestId ∧
      t'.serviceRequestId = t.allocateServiceRequestId.1 ∧ t'.serviceRequestId ≠ 0 := by
  unfold RequestTracker.begin at h
  split at h
  · cases h
  split at h
  · split at h <;> cases h
  next hpending =>
    obtain rfl := (Prod.mk.inj h).2
    refine ⟨Bool.eq_false_iff.mpr hpending, rfl, rfl, rfl, ?_⟩
    dsimp only [RequestTracker.allocateServiceRequestId]
    split
    · decide
    next hnext => exact hnext

end RlcdDeck.SerialControl
