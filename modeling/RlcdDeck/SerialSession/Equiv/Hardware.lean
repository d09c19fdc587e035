import RlcdDeck.SerialSession.Equiv.Ownership

/-!
# What the calls do to the adapter's context

A call reaches the context only through the adapter.  So a relation that every adapter function
keeps holds between the context before and after a call (`context_step`), and a call that takes
the transmitter away from USB passes through `clearUsbTx` (`context_leaves_usb`).
-/

namespace RlcdDeck.SerialSession

variable {σ : Type*} {hw : HardwareAdapter σ} {R : σ → σ → Prop}

/-- A preorder on contexts along which every adapter function moves. -/
structure Follows (hw : HardwareAdapter σ) (R : σ → σ → Prop) : Prop where
  refl : ∀ c, R c c
  trans : ∀ {a b c}, R a b → R b c → R a c
  installUart : ∀ c sessionId, R c (hw.installUart c sessionId).2
  uninstallUart : ∀ c, R c (hw.uninstallUart c).2
  setTxHighImpedance : ∀ c, R c (hw.setTxHighImpedance c)
  clearUsbTx : ∀ c, R c (hw.clearUsbTx c)
  clearWebTx : ∀ c, R c (hw.clearWebTx c)

theorem context_returnToUsb (h : Follows hw R) (d : Device σ) :
    R d.context (returnToUsb hw d).context := by
  unfold returnToUsb
  split_ifs
  · exact h.refl _
  · exact h.clearWebTx _

theorem context_expireWebLease (h : Follows hw R) (d : Device σ) (nowMs : UInt64) :
    R d.context (expireWebLease hw d nowMs).context := by
  unfold expireWebLease
  split_ifs
  · exact context_returnToUsb h d
  · exact h.refl _

theorem context_disarm (h : Follows hw R) (d : Device σ) :
    R (hw.clearUsbTx d.context) (disarm hw d).2.context := by
  unfold disarm
  dsimp only
  refine h.trans (h.clearWebTx _) (h.trans ?_ (h.setTxHighImpedance _))
  split_ifs
  · exact h.uninstallUart _
  · exact h.refl _

theorem context_install (h : Follows hw R) (d : Device σ) :
    R d.context (install hw d).2.context := by
  have hinstall := h.installUart d.context (incrementNonzero d.session.sessionId)
  unfold install
  dsimp only
  by_cases hok : (hw.installUart d.context (incrementNonzero d.session.sessionId)).1 = false
  · rw [if_pos hok]
    exact h.trans hinstall (h.trans (h.clearUsbTx _) (h.trans (h.clearWebTx _)
      (h.trans (h.uninstallUart _) (h.setTxHighImpedance _))))
  · rw [if_neg hok]
    exact hinstall

theorem context_enter (h : Follows hw R) (d : Device σ) (controlEpoch : UInt64) :
    R d.context (enter hw d controlEpoch).2.context := by
  unfold enter
  dsimp only
  split_ifs
  · exact h.refl _
  · exact h.refl _
  · exact h.trans (h.uninstallUart _) (h.setTxHighImpedance _)
  · have hinstall := context_install h
      ⟨{ d.session with uartInstalled := false }, (hw.uninstallUart d.context).2⟩
    exact h.trans (h.uninstallUart _) hinstall
  · exact context_install h d

theorem context_exit (h : Follows hw R) (d : Device σ) (controlEpoch : UInt64) :
    ((exit hw d controlEpoch).2.context = d.context ∧
      (exit hw d controlEpoch).2.session.state = d.session.state ∧
      (exit hw d controlEpoch).2.session.sessionId = d.session.sessionId) ∨
      R (hw.clearUsbTx d.context) (exit hw d controlEpoch).2.context := by
  unfold exit
  by_cases he : controlEpoch < d.session.controlEpoch
  · rw [if_pos he]
    exact .inl ⟨rfl, rfl, rfl⟩
  rw [if_neg he]
  dsimp only
  by_cases hs : d.session.state = .disarmed ∧ d.session.uartInstalled = false
  · rw [if_pos hs]
    exact .inl ⟨rfl, rfl, rfl⟩
  · rw [if_neg hs]
    exact .inr (context_disarm h _)

theorem context_acceptRequest (h : Follows hw R) (d : Device σ) (requestId : UInt64)
    (enable : Bool) (nowMs : UInt64) :
    R d.context (acceptRequest hw d requestId enable nowMs).2.context := by
  unfold acceptRequest
  cases enable with
  | false => exact context_returnToUsb h d
  | true =>
    show R d.context (if d.session.state = .usbTx then hw.clearUsbTx d.context else d.context)
    split_ifs
    · exact h.clearUsbTx _
    · exact h.refl _

theorem context_requestWebAtEpoch (h : Follows hw R) (d : Device σ)
    (epoch sessionId requestId : UInt64) (enable : Bool) (nowMs : UInt64) :
    R d.context (requestWebAtEpoch hw d epoch sessionId requestId enable nowMs).2.context := by
  by_cases href : requestId = 0 ∨ epoch ≠ d.session.webTransportEpoch
  · rw [requestWebAtEpoch_refused hw sessionId enable nowMs href]
    exact h.refl _
  · push Not at href
    rw [requestWebAtEpoch_device hw sessionId enable nowMs href.1 href.2]
    have hexp := context_expireWebLease h d nowMs
    dsimp only
    split_ifs
    · exact hexp
    · exact h.trans hexp (context_acceptRequest h _ requestId enable nowMs)

theorem context_revokeWebTransport (h : Follows hw R) (d : Device σ) (epoch : UInt64) :
    R d.context (revokeWebTransport hw d epoch).2.context := by
  unfold revokeWebTransport
  by_cases he : epoch < d.session.webTransportEpoch
  · rw [if_pos he]
    exact h.refl _
  · rw [if_neg he]
    have hret := context_returnToUsb h
      { d with session := { d.session with webTransportEpoch := epoch } }
    by_cases hweb : d.session.state ≠ .webTx
    · simp only [if_pos hweb]
      exact h.trans hret (h.clearWebTx _)
    · simp only [if_neg hweb]
      exact hret

/-- **One call** moves the context along every relation the adapter follows. -/
theorem context_step (h : Follows hw R) (d : Device σ) (op : Op) :
    R d.context (step hw d op).context := by
  cases op with
  | enter e => exact context_enter h d e
  | exit e =>
    rcases context_exit h d e with hsame | hclear
    · exact hsame.1 ▸ h.refl _
    · exact h.trans (h.clearUsbTx _) hclear
  | requestWeb sid rid enable now => exact context_requestWebAtEpoch h d _ sid rid enable now
  | requestWebAtEpoch e sid rid enable now =>
    exact context_requestWebAtEpoch h d e sid rid enable now
  | revokeWebTransport e => exact context_revokeWebTransport h d e
  | webActivity sid lid now =>
    have hexp := context_expireWebLease h d now
    simp only [step, webActivity]
    split_ifs
    · exact hexp
    · exact hexp
  | webDisconnect sid lid =>
    simp only [step, webDisconnect]
    split_ifs
    · exact h.refl _
    · exact context_returnToUsb h d
  | acceptWebInput sid lid => exact h.refl _
  | acceptUsbInput n => exact h.refl _
  | acceptUsbInputGeneration g n => exact h.refl _
  | recordUsbRejection n => exact h.refl _
  | tick now => exact context_expireWebLease h d now

/-! ### Leaving `USB_TX` -/

/-- The session still grants the transmitter to the same USB owner. -/
def KeepsUsb (s s' : Session) : Prop :=
  s'.state = .usbTx ∧ s'.sessionId = s.sessionId

theorem returnToUsb_of_usbTx (hw : HardwareAdapter σ) {d : Device σ}
    (hs : d.session.state = .usbTx) : returnToUsb hw d = d := by
  unfold returnToUsb
  rw [if_pos (by simp [hs])]

theorem expireWebLease_of_usbTx (hw : HardwareAdapter σ) {d : Device σ}
    (hs : d.session.state = .usbTx) (nowMs : UInt64) : expireWebLease hw d nowMs = d := by
  unfold expireWebLease
  rw [if_neg (by simp [hs])]

theorem request_leaves_usb (h : Follows hw R) {d : Device σ} (hs : d.session.state = .usbTx)
    (epoch sessionId requestId : UInt64) (enable : Bool) (nowMs : UInt64) :
    KeepsUsb d.session
        (requestWebAtEpoch hw d epoch sessionId requestId enable nowMs).2.session ∨
      R (hw.clearUsbTx d.context)
        (requestWebAtEpoch hw d epoch sessionId requestId enable nowMs).2.context := by
  by_cases href : requestId = 0 ∨ epoch ≠ d.session.webTransportEpoch
  · rw [requestWebAtEpoch_refused hw sessionId enable nowMs href]
    exact .inl ⟨hs, rfl⟩
  push Not at href
  rw [requestWebAtEpoch_device hw sessionId enable nowMs href.1 href.2,
    expireWebLease_of_usbTx hw hs]
  dsimp only
  split_ifs
  · exact .inl ⟨hs, rfl⟩
  cases enable with
  | false =>
    refine .inl ?_
    show KeepsUsb d.session { (returnToUsb hw d).session with
      lastRequestId := requestId, lastRequestResult := _, hasLastRequest := true }
    rw [returnToUsb_of_usbTx hw hs]
    exact ⟨hs, rfl⟩
  | true =>
    have hclear : (acceptRequest hw d requestId true nowMs).2.context =
        hw.clearUsbTx d.context := by
      show (if d.session.state = .usbTx then hw.clearUsbTx d.context else d.context) = _
      rw [if_pos hs]
    exact .inr (hclear ▸ h.refl _)

/-- **Leaving `USB_TX`**: a call that starts in `USB_TX` keeps that owner, or clears the USB
source on its way. -/
theorem context_leaves_usb (h : Follows hw R) {d : Device σ} (hs : d.session.state = .usbTx)
    (op : Op) :
    KeepsUsb d.session (step hw d op).session ∨
      R (hw.clearUsbTx d.context) (step hw d op).context := by
  have hne : d.session.state ≠ .webTx := by simp [hs]
  cases op with
  | enter e =>
    simp only [step, enter]
    split_ifs with h1 h2
    · exact .inl ⟨hs, rfl⟩
    · exact .inl ⟨hs, rfl⟩
    · simp [hs] at h2
    · simp [hs] at h2
    · simp [hs] at h2
  | exit e =>
    rcases context_exit h d e with ⟨-, hstate, hsid⟩ | hclear
    · exact .inl ⟨hstate.trans hs, hsid⟩
    · exact .inr hclear
  | requestWeb sid rid enable now => exact request_leaves_usb h hs _ sid rid enable now
  | requestWebAtEpoch e sid rid enable now => exact request_leaves_usb h hs e sid rid enable now
  | revokeWebTransport e =>
    refine .inl ?_
    simp only [step]
    by_cases he : e < d.session.webTransportEpoch
    · unfold revokeWebTransport
      rw [if_pos he]
      exact ⟨hs, rfl⟩
    · rw [revokeWebTransport_session hw he, returnToUsb_of_usbTx hw (by exact hs)]
      exact ⟨hs, rfl⟩
  | webActivity sid lid now =>
    refine .inl ?_
    simp only [step, webActivity, expireWebLease_of_usbTx hw hs]
    rw [if_pos (.inl hne)]
    exact ⟨hs, rfl⟩
  | webDisconnect sid lid =>
    refine .inl ?_
    simp only [step, webDisconnect]
    rw [if_pos (.inl hne)]
    exact ⟨hs, rfl⟩
  | acceptWebInput sid lid => exact .inl ⟨hs, rfl⟩
  | acceptUsbInput n =>
    refine .inl ?_
    simp only [step, acceptUsbInput, acceptUsbInputGeneration]
    split_ifs <;> exact ⟨hs, rfl⟩
  | acceptUsbInputGeneration g n =>
    refine .inl ?_
    simp only [step, acceptUsbInputGeneration]
    split_ifs <;> exact ⟨hs, rfl⟩
  | recordUsbRejection n =>
    refine .inl ?_
    simp only [step, recordUsbRejection]
    split_ifs <;> exact ⟨hs, rfl⟩
  | tick now =>
    simp only [step, tick, expireWebLease_of_usbTx hw hs]
    exact .inl ⟨hs, rfl⟩

theorem expired_of_usbTx (hw : HardwareAdapter σ) {d : Device σ}
    (hs : d.session.state = .usbTx) (op : Op) : expired hw d op = d := by
  cases op with
  | requestWeb sid rid enable now =>
    simp only [expired, expireWebLease_of_usbTx hw hs, ite_self]
  | requestWebAtEpoch e sid rid enable now =>
    simp only [expired, expireWebLease_of_usbTx hw hs, ite_self]
  | webActivity sid lid now => exact expireWebLease_of_usbTx hw hs now
  | tick now => exact expireWebLease_of_usbTx hw hs now
  | _ => rfl

theorem ownerGeneration_of_keepsUsb {d : Device σ} (h : WellFormed d.session)
    (hs : d.session.state = .usbTx) {op : Op}
    (hkeep : KeepsUsb d.session (step hw d op).session) :
    (step hw d op).session.ownerGeneration = d.session.ownerGeneration := by
  have hmove := (sound_step hw h op).move
  rw [expired_of_usbTx hw hs] at hmove
  cases hmove with
  | stay _ hg => exact hg
  | change ho _ =>
    refine absurd ?_ ho
    unfold Session.txOwner
    rw [hkeep.1, hs, hkeep.2]

end RlcdDeck.SerialSession
