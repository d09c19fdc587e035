import RlcdDeck.SerialService.Service
import RlcdDeck.SerialSession.Equiv.Fences

/-!
# What a result says

The result of an owner request carries the request's own id, also when it is the replay of an
earlier one (`requestWebAtEpoch_requestId`); the results of the other commands carry the id 0
(`enter_requestId`).

The frame lemmas say what the tasks leave alone: `session_step` carries a property of the session
over a step of any task, and `pc_ownerStep` says where the owner task stands after one of its own.
-/

namespace RlcdDeck.SerialSession

variable {σ : Type*} (hw : HardwareAdapter σ)

/-- The last result is the last request's. -/
def Replays (s : Session) : Prop :=
  s.hasLastRequest = true → s.lastRequestResult.requestId = s.lastRequestId

variable {s : Session}

theorem Replays.congr {t : Session} (h : Replays s) (hhas : t.hasLastRequest = s.hasLastRequest)
    (hid : t.lastRequestId = s.lastRequestId)
    (hresult : t.lastRequestResult = s.lastRequestResult) : Replays t := by
  unfold Replays
  rw [hhas, hid, hresult]
  exact h

theorem Replays.of_none (h : s.hasLastRequest = false) : Replays s := by
  intro hhas
  rw [h] at hhas
  cases hhas

theorem replays_returnToUsb {d : Device σ} (h : Replays d.session) :
    Replays (returnToUsb hw d).session := by
  unfold returnToUsb
  split_ifs
  · exact h
  · exact h.congr rfl rfl rfl

theorem replays_expireWebLease {d : Device σ} (h : Replays d.session) (nowMs : UInt64) :
    Replays (expireWebLease hw d nowMs).session := by
  unfold expireWebLease
  split_ifs
  · exact replays_returnToUsb hw h
  · exact h

theorem replays_install {d : Device σ} (h : Replays d.session) :
    Replays (install hw d).2.session := by
  unfold install
  dsimp only
  by_cases hfailed : (hw.installUart d.context (incrementNonzero d.session.sessionId)).1 = false
  · rw [if_pos hfailed]
    exact h.congr rfl rfl rfl
  · rw [if_neg hfailed]
    exact .of_none rfl

theorem replays_enter {d : Device σ} (h : Replays d.session) (controlEpoch : UInt64) :
    Replays (enter hw d controlEpoch).2.session := by
  unfold enter
  dsimp only
  split_ifs
  · exact h
  · exact h
  · exact h
  · exact replays_install hw (d := ⟨{ d.session with uartInstalled := false }, _⟩)
      (h.congr rfl rfl rfl)
  · exact replays_install hw h

theorem replays_exit {d : Device σ} (h : Replays d.session) (controlEpoch : UInt64) :
    Replays (exit hw d controlEpoch).2.session := by
  unfold exit
  dsimp only
  by_cases hstale : controlEpoch < d.session.controlEpoch
  · rw [if_pos hstale]
    exact h
  rw [if_neg hstale]
  by_cases hidle : d.session.state = .disarmed ∧ d.session.uartInstalled = false
  · rw [if_pos hidle]
    exact h.congr rfl rfl rfl
  · rw [if_neg hidle]
    exact .of_none rfl

theorem replays_requestWebAtEpoch {d : Device σ} (h : Replays d.session)
    (epoch sessionId requestId : UInt64) (enable : Bool) (nowMs : UInt64) :
    Replays (requestWebAtEpoch hw d epoch sessionId requestId enable nowMs).2.session := by
  rcases requestWebAtEpoch_cases hw d epoch sessionId requestId enable nowMs with
    heq | heq | ⟨heq, -⟩
  · rw [heq]
    exact h
  · rw [heq]
    exact replays_expireWebLease hw h nowMs
  · rw [heq]
    intro _
    rfl

theorem replays_revokeWebTransport {d : Device σ} (h : Replays d.session) (epoch : UInt64) :
    Replays (revokeWebTransport hw d epoch).2.session := by
  unfold revokeWebTransport
  split_ifs
  · exact h
  · exact .of_none rfl

theorem replays_webActivity {d : Device σ} (h : Replays d.session)
    (sessionId leaseId nowMs : UInt64) :
    Replays (webActivity hw d sessionId leaseId nowMs).2.session := by
  have hexpired := replays_expireWebLease hw h nowMs
  unfold webActivity
  dsimp only
  split_ifs
  · exact hexpired
  · exact hexpired.congr rfl rfl rfl

theorem replays_acceptUsbInputGeneration (h : Replays s) (g n : UInt64) :
    Replays (acceptUsbInputGeneration s g n).2 := by
  unfold acceptUsbInputGeneration
  split_ifs
  · exact h
  · exact h.congr rfl rfl rfl
  · exact h

/-- **One call** keeps the last result the last request's. -/
theorem replays_step {d : Device σ} (h : Replays d.session) (op : Op) :
    Replays (step hw d op).session := by
  cases op with
  | enter e => exact replays_enter hw h e
  | exit e => exact replays_exit hw h e
  | requestWeb sid rid enable now => exact replays_requestWebAtEpoch hw h _ sid rid enable now
  | requestWebAtEpoch e sid rid enable now =>
    exact replays_requestWebAtEpoch hw h e sid rid enable now
  | revokeWebTransport e => exact replays_revokeWebTransport hw h e
  | webActivity sid lid now => exact replays_webActivity hw h sid lid now
  | webDisconnect sid lid =>
    unfold step webDisconnect
    dsimp only
    split_ifs
    · exact h
    · exact replays_returnToUsb hw h
  | acceptWebInput sid lid => exact h
  | acceptUsbInput n => exact replays_acceptUsbInputGeneration h _ n
  | acceptUsbInputGeneration g n => exact replays_acceptUsbInputGeneration h g n
  | recordUsbRejection n =>
    unfold step recordUsbRejection
    dsimp only
    split_ifs
    · exact h
    · exact h.congr rfl rfl rfl
  | tick now => exact replays_expireWebLease hw h now

/-- Every answer to a request carries the request's id. -/
theorem requestWebAtEpoch_requestId {d : Device σ} (h : Replays d.session)
    {epoch sessionId requestId : UInt64} {enable : Bool} {nowMs : UInt64} (hne : requestId ≠ 0) :
    ∃ result, (requestWebAtEpoch hw d epoch sessionId requestId enable nowMs).1 = some result ∧
      result.requestId = requestId := by
  have hexpired := replays_expireWebLease hw h nowMs
  unfold requestWebAtEpoch
  rw [if_neg hne]
  dsimp only
  split_ifs with hepoch hstale hsame hcurrent hold
  · exact ⟨_, rfl, rfl⟩
  · exact ⟨_, rfl, rfl⟩
  · exact ⟨_, rfl, (hexpired hsame.1).trans hsame.2.symm⟩
  · exact ⟨_, rfl, rfl⟩
  · exact ⟨_, rfl, rfl⟩
  · exact ⟨_, rfl, rfl⟩

theorem enter_requestId (d : Device σ) (controlEpoch : UInt64) :
    (enter hw d controlEpoch).1.requestId = 0 := by
  have hinstall : ∀ d : Device σ, (install hw d).1.requestId = 0 := by
    intro d
    unfold install
    dsimp only
    split <;> rfl
  unfold enter
  dsimp only
  split_ifs
  · rfl
  · rfl
  · rfl
  · exact hinstall _
  · exact hinstall d

theorem exit_requestId (d : Device σ) (controlEpoch : UInt64) :
    (exit hw d controlEpoch).1.requestId = 0 := by
  unfold exit
  dsimp only
  split
  · rfl
  · split <;> rfl

theorem revokeWebTransport_requestId (d : Device σ) (epoch : UInt64) :
    (revokeWebTransport hw d epoch).1.requestId = 0 := by
  unfold revokeWebTransport
  split <;> rfl

end RlcdDeck.SerialSession

namespace RlcdDeck.SerialService

open SerialSession

/-! ### Frames of the owner task -/

variable {s : Service}

namespace Service

/-- What the tasks other than the owner task leave alone. -/
structure Frame (s t : Service) : Prop where
  pc : t.pc = s.pc
  session : t.session = s.session
  latestSnapshot : t.latestSnapshot = s.latestSnapshot
  completedWebRevokeEpoch : t.completedWebRevokeEpoch = s.completedWebRevokeEpoch
  webTransportEpoch : t.webTransportEpoch = s.webTransportEpoch

theorem Frame.refl (s : Service) : Frame s s :=
  ⟨rfl, rfl, rfl, rfl, rfl⟩

theorem frame_submitUsbInput (s : Service) (bytes : List UInt8) (generation : UInt64)
    (period : ℕ) : Frame s (s.submitUsbInput bytes generation period) := by
  unfold submitUsbInput
  by_cases hrefused : bytes.length = 0 ∨ blockBytes < bytes.length ∨ s.stopRequested = true
  · rw [if_pos hrefused]
    exact .refl s
  rw [if_neg hrefused]
  split
  · exact .refl s
  · split_ifs
    · exact ⟨rfl, rfl, rfl, rfl, rfl⟩
    · exact ⟨rfl, rfl, rfl, rfl, rfl⟩
    · exact .refl s

theorem frame_usbTaskStep (s : Service) (bytes : List UInt8) : Frame s (s.usbTaskStep bytes) := by
  unfold usbTaskStep
  split
  · split_ifs
    · exact ⟨rfl, rfl, rfl, rfl, rfl⟩
    · exact .refl s
  · exact ⟨rfl, rfl, rfl, rfl, rfl⟩
  · next generation period _ =>
    have h := frame_submitUsbInput s bytes generation period
    exact ⟨h.pc, h.session, h.latestSnapshot, h.completedWebRevokeEpoch, h.webTransportEpoch⟩

theorem frame_webQueue (s : Service) (index : ℕ) (locked : Bool) :
    Frame s (s.webQueue index locked) := by
  unfold webQueue
  split
  · exact .refl s
  · dsimp only
    split
    · exact ⟨rfl, rfl, rfl, rfl, rfl⟩
    · split_ifs <;> exact ⟨rfl, rfl, rfl, rfl, rfl⟩

theorem frame_stamp (s : Service) {c : Command} (hc : c.kind ≠ .revokeWebTransport) :
    Frame s (s.stamp c) := by
  unfold stamp
  split
  case h_2 hkind => exact absurd hkind hc
  all_goals (try split_ifs) <;> exact ⟨rfl, rfl, rfl, rfl, rfl⟩

theorem frame_send (s : Service) (index : ℕ) : Frame s (s.send index) := by
  unfold send
  split
  · exact .refl s
  · dsimp only
    split_ifs <;> exact ⟨rfl, rfl, rfl, rfl, rfl⟩

theorem frame_step {e : Event} (he : ∀ i, e ≠ .owner i)
    (hrevoke : ∀ c, e = .stamp c → c.kind ≠ .revokeWebTransport) : Frame s (s.step e) := by
  cases e with
  | owner i => exact absurd rfl (he i)
  | usbTask bytes => exact frame_usbTaskStep s bytes
  | webCheck sid lid bytes =>
    show Frame s (s.webCheck sid lid bytes)
    unfold webCheck
    dsimp only
    split_ifs <;> exact ⟨rfl, rfl, rfl, rfl, rfl⟩
  | webQueue index locked => exact frame_webQueue s index locked
  | stamp c => exact frame_stamp s (hrevoke c rfl)
  | send index => exact frame_send s index

/-! ### What the owner task leaves alone -/

/-- What the owner task leaves to the other tasks. -/
structure OwnerFrame (s t : Service) : Prop where
  webTransportEpoch : t.webTransportEpoch = s.webTransportEpoch
  stopRequested : t.stopRequested = s.stopRequested
  sending : t.sending = s.sending
  webCallers : t.webCallers = s.webCallers

theorem OwnerFrame.refl (s : Service) : OwnerFrame s s :=
  ⟨rfl, rfl, rfl, rfl⟩

theorem OwnerFrame.trans {a b c : Service} (h : OwnerFrame a b) (h' : OwnerFrame b c) :
    OwnerFrame a c :=
  ⟨h'.webTransportEpoch.trans h.webTransportEpoch, h'.stopRequested.trans h.stopRequested,
    h'.sending.trans h.sending, h'.webCallers.trans h.webCallers⟩

theorem ownerFrame_setPath (s : Service) (p : DataPath) : OwnerFrame s (s.setPath p) :=
  ⟨rfl, rfl, rfl, rfl⟩

theorem ownerFrame_call (s : Service) (op : Op) : OwnerFrame s (s.call op) :=
  ⟨rfl, rfl, rfl, rfl⟩

theorem ownerFrame_applyCommand (s : Service) (c : Command) (nowMs : UInt64) :
    OwnerFrame s (s.applyCommand c nowMs) := by
  unfold applyCommand
  split
  case h_3 =>
    split_ifs
    · exact ownerFrame_call s _
    · exact .refl s
  all_goals exact ⟨rfl, rfl, rfl, rfl⟩

theorem ownerFrame_writeUsb (s : Service) (p : PendingUsb) (written : ℤ) :
    OwnerFrame s (s.writeUsb p written).service := by
  unfold writeUsb
  dsimp only
  split_ifs <;> exact ownerFrame_setPath s _

theorem ownerFrame_authorizeUsb (s : Service) (p : PendingUsb) (written : ℤ) :
    OwnerFrame s (s.authorizeUsb p written).service := by
  unfold authorizeUsb
  dsimp only
  split_ifs
  · exact ownerFrame_writeUsb s p written
  · exact (ownerFrame_call s _).trans (ownerFrame_writeUsb _ _ written)
  · exact (ownerFrame_call s _).trans (ownerFrame_setPath _ _)

theorem ownerFrame_drainUsbInput (s : Service) (written : ℤ) :
    OwnerFrame s (s.drainUsbInput written).service := by
  unfold drainUsbInput
  split
  · exact .refl s
  · split
    · exact ownerFrame_authorizeUsb s _ written
    · split
      · exact .refl s
      · dsimp only
        split_ifs
        · exact ownerFrame_setPath s _
        · exact (ownerFrame_setPath s _).trans (ownerFrame_authorizeUsb _ _ written)

theorem ownerFrame_writeWeb (s : Service) (p : PendingWeb) (written : ℤ) :
    OwnerFrame s (s.writeWeb p written).service := by
  unfold writeWeb
  dsimp only
  split_ifs <;> exact ownerFrame_setPath s _

theorem ownerFrame_drainWebInput (s : Service) (written : ℤ) :
    OwnerFrame s (s.drainWebInput written).service := by
  unfold drainWebInput
  split
  · exact .refl s
  · split
    · exact ownerFrame_writeWeb s _ written
    · split
      · exact .refl s
      · dsimp only
        split_ifs
        · exact ownerFrame_setPath s _
        · exact (ownerFrame_setPath s _).trans (ownerFrame_writeWeb _ _ written)

theorem ownerFrame_drainUsbRejections (s : Service) : OwnerFrame s s.drainUsbRejections.2 := by
  unfold drainUsbRejections
  dsimp only
  split_ifs
  · exact ownerFrame_setPath s _
  · exact (ownerFrame_setPath s _).trans (ownerFrame_call _ _)

theorem OwnerFrame.setPc {t : Service} (h : OwnerFrame s t) (pc : Pc) :
    OwnerFrame s { t with pc := pc } :=
  ⟨h.webTransportEpoch, h.stopRequested, h.sending, h.webCallers⟩

theorem ownerFrame_ownerStep (s : Service) (i : Inputs) : OwnerFrame s (s.ownerStep i).1 := by
  unfold ownerStep
  cases s.pc with
  | top => exact (ownerFrame_call s _).setPc _
  | receive =>
    show OwnerFrame s s.receiveCommand
    unfold receiveCommand
    split <;> exact ⟨rfl, rfl, rfl, rfl⟩
  | process c => exact (ownerFrame_call s _).setPc _
  | apply c nowMs =>
    exact ((ownerFrame_setPath s _).trans (ownerFrame_applyCommand _ c nowMs)).setPc _
  | rejections => exact (ownerFrame_drainUsbRejections s).setPc _
  | web => exact (ownerFrame_drainWebInput s i.written).setPc _
  | usb => exact (ownerFrame_drainUsbInput s i.written).setPc _
  | _ => exact ⟨rfl, rfl, rfl, rfl⟩

section Session

variable {P : Session → Prop}
  (hP : ∀ (bridge : Bool) (d : Device DataPath) (op : Op), P d.session →
    P (SerialSession.step (adapter bridge) d op).session)
include hP

theorem session_call (h : P s.session) (op : Op) : P (s.call op).session :=
  hP s.usbBridgeEnabled s.device op h

theorem session_applyCommand (h : P s.session) (c : Command) (nowMs : UInt64) :
    P (s.applyCommand c nowMs).session := by
  unfold applyCommand
  split
  case h_3 =>
    split_ifs
    · exact session_call hP h _
    · exact h
  all_goals exact session_call hP h _

theorem session_authorizeUsb (h : P s.session) (p : PendingUsb) (written : ℤ) :
    P (s.authorizeUsb p written).service.session := by
  have hwrite : ∀ (s : Service) (p : PendingUsb),
      (s.writeUsb p written).service.session = s.session := by
    intro s p
    unfold writeUsb
    dsimp only
    split_ifs <;> rfl
  unfold authorizeUsb
  dsimp only
  split_ifs
  · rw [hwrite]
    exact h
  · rw [hwrite]
    exact session_call hP h _
  · exact session_call hP h _

theorem session_drainUsbInput (h : P s.session) (written : ℤ) :
    P (s.drainUsbInput written).service.session := by
  have hpath : ∀ p, P (s.setPath p).session := fun _ => h
  unfold drainUsbInput
  split
  · exact h
  · split
    · exact session_authorizeUsb hP h _ written
    · split
      · exact h
      · dsimp only
        split_ifs
        · exact h
        · exact session_authorizeUsb hP (hpath _) _ written

omit hP in
theorem session_drainWebInput (h : P s.session) (written : ℤ) :
    P (s.drainWebInput written).service.session := by
  have hwrite : ∀ (s : Service) (p : PendingWeb),
      (s.writeWeb p written).service.session = s.session := by
    intro s p
    unfold writeWeb
    dsimp only
    split_ifs <;> rfl
  unfold drainWebInput
  split
  · exact h
  · split
    · rw [hwrite]
      exact h
    · split
      · exact h
      · dsimp only
        split_ifs
        · exact h
        · rw [hwrite]
          exact h

theorem session_ownerStep (h : P s.session) (i : Inputs) :
    P (s.ownerStep i).1.session := by
  have hpath : ∀ p, P (s.setPath p).session := fun _ => h
  unfold ownerStep
  cases s.pc with
  | top => exact session_call hP h _
  | receive =>
    show P s.receiveCommand.session
    unfold receiveCommand
    split <;> exact h
  | process c => exact session_call hP h _
  | apply c nowMs => exact session_applyCommand hP (hpath _) c nowMs
  | rejections =>
    show P s.drainUsbRejections.2.session
    unfold drainUsbRejections
    dsimp only
    split_ifs
    · exact h
    · exact session_call hP (hpath _) _
  | web => exact session_drainWebInput h i.written
  | usb => exact session_drainUsbInput hP h i.written
  | _ => exact h

/-- **One step** of any task: the session changes by calls of its interface only. -/
theorem session_step (h : P s.session) (e : Event) : P (s.step e).session := by
  have hother : (∀ i, e ≠ .owner i) → (∀ c, e ≠ .stamp c) → P (s.step e).session := by
    intro howner hstamp
    rw [(frame_step howner fun c heq => absurd heq (hstamp c)).session]
    exact h
  cases e with
  | owner i => exact session_ownerStep hP h i
  | stamp c =>
    show P (s.stamp c).session
    unfold stamp
    split <;> (try split_ifs) <;> exact h
  | _ => exact hother (fun _ => nofun) (fun _ => nofun)

end Session

/-- The owner task is between the switch of `process_command` and its `publish`. -/
def Applied (s : Service) (c : Command) : Prop :=
  s.pc = .resync c ∨ s.pc = .finish c

/-- Where the owner task stands after one step. -/
theorem pc_ownerStep (s : Service) (i : Inputs) (c : Command) :
    (s.ownerStep i).1.Applied c ↔ (∃ nowMs, s.pc = .apply c nowMs) ∨ s.pc = .resync c := by
  unfold Applied ownerStep
  cases hpc : s.pc with
  | receive =>
    show s.receiveCommand.pc = _ ∨ s.receiveCommand.pc = _ ↔ _
    unfold receiveCommand
    split <;> simp
  | sync before =>
    dsimp only
    split_ifs <;> simp
  | finish c' =>
    dsimp only
    split_ifs <;> simp
  | rejections =>
    dsimp only
    split_ifs <;> simp
  | web =>
    dsimp only
    split <;> simp
  | usb =>
    dsimp only
    split_ifs <;> simp
  | halted => simp [hpc]
  | _ => simp

end Service

end RlcdDeck.SerialService
