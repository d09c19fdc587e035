import RlcdDeck.SerialSession.Equiv.Hardware
import RlcdDeck.SerialService.Service

/-!
# UART exclusivity

Every byte the owner task writes belongs to the current owner (`uart_exclusive`): its block
carries the current generation in `USB_TX`, or the current session and lease in `WEB_TX`, and it
was submitted in the current ownership period unless the period's token was issued twice.

The argument is one invariant `Inv` of the service, kept by every step of every task
(`inv_step`), and so by every interleaving (`inv_run`).  Its key fields: a partially written USB
block is authorized for the current generation, since a call that leaves `USB_TX` clears it; a
stamp is the generation of the period it was read in; a queued Web block names the owner of the
period whose snapshot admitted it.
-/

namespace RlcdDeck.SerialService

open Counter SerialSession Service

/-! ### The history of owners -/

theorem getLast?_recordOwner (owners : List TxOwner) (owner : TxOwner) :
    (recordOwner owners owner).getLast? = some owner := by
  unfold recordOwner
  split_ifs with h
  · exact h
  · simp

theorem isPrefix_recordOwner (owners : List TxOwner) (owner : TxOwner) :
    owners <+: recordOwner owners owner := by
  unfold recordOwner
  split_ifs
  · exact List.prefix_rfl
  · exact List.prefix_append _ _

variable {owners : List TxOwner}

theorem length_recordOwner {last owner : TxOwner} (h : owners.getLast? = some last) :
    (recordOwner owners owner).length = owners.length + if last = owner then 0 else 1 := by
  unfold recordOwner
  by_cases ho : last = owner
  · rw [if_pos (ho ▸ h), if_pos ho, Nat.add_zero]
  · rw [if_neg fun h' => ho (Option.some.inj (h.symm.trans h')), if_neg ho]
    simp

theorem length_pos_of_getLast? {last : TxOwner} (h : owners.getLast? = some last) :
    0 < owners.length := by
  cases owners with
  | nil => simp at h
  | cons x xs => simp

/-! ### What the adapter may do to the data path -/

/-- Each queue and each pending block is kept or emptied, and so is the authority. -/
structure Shrinks (p p' : DataPath) : Prop where
  usb : ∀ q, p'.usbInputBlocks = some q → q = [] ∨ p.usbInputBlocks = some q
  web : ∀ q, p'.webInputBlocks = some q → q = [] ∨ p.webInputBlocks = some q
  pendingUsb : p'.pendingUsb = none ∨ p'.pendingUsb = p.pendingUsb
  pendingWeb : p'.pendingWeb = none ∨ p'.pendingWeb = p.pendingWeb
  authority : p'.usbInputAuthorityGeneration = 0 ∨
    p'.usbInputAuthorityGeneration = p.usbInputAuthorityGeneration
  authorityPeriod : p'.authorityPeriod = p.authorityPeriod
  usbTask : p'.usbTask = .idle ∨ p'.usbTask = p.usbTask

theorem Shrinks.refl (p : DataPath) : Shrinks p p :=
  ⟨fun _ => .inr, fun _ => .inr, .inr rfl, .inr rfl, .inr rfl, rfl, .inr rfl⟩

theorem Shrinks.trans {a b c : DataPath} (h : Shrinks a b) (h' : Shrinks b c) : Shrinks a c where
  usb q hq := (h'.usb q hq).elim .inl (h.usb q)
  web q hq := (h'.web q hq).elim .inl (h.web q)
  pendingUsb := h'.pendingUsb.elim .inl fun e => h.pendingUsb.imp e.trans e.trans
  pendingWeb := h'.pendingWeb.elim .inl fun e => h.pendingWeb.imp e.trans e.trans
  authority := h'.authority.elim .inl fun e => h.authority.imp e.trans e.trans
  authorityPeriod := h'.authorityPeriod.trans h.authorityPeriod
  usbTask := h'.usbTask.elim .inl fun e => h.usbTask.imp e.trans e.trans

theorem shrinks_clearUsbInputState (p : DataPath) : Shrinks p (clearUsbInputState p) := by
  refine ⟨fun q hq => .inl ?_, fun _ => .inr, .inl rfl, .inr rfl, .inr rfl, rfl, .inr rfl⟩
  simp only [clearUsbInputState, Option.map_eq_some_iff] at hq
  obtain ⟨_, -, rfl⟩ := hq
  rfl

theorem shrinks_clearWebInputState (p : DataPath) : Shrinks p (clearWebInputState p) := by
  refine ⟨fun _ => .inr, fun q hq => .inl ?_, .inr rfl, .inl rfl, .inr rfl, rfl, .inr rfl⟩
  simp only [clearWebInputState, Option.map_eq_some_iff] at hq
  obtain ⟨_, -, rfl⟩ := hq
  rfl

theorem shrinks_releaseDataPathAllocations (p : DataPath) :
    Shrinks p (releaseDataPathAllocations p) :=
  ⟨by simp [releaseDataPathAllocations], by simp [releaseDataPathAllocations], .inl rfl,
    .inl rfl, .inl rfl, rfl, .inr rfl⟩

theorem shrinks_prepareDataPath (bridge allocated : Bool) (p : DataPath) :
    Shrinks p (prepareDataPath bridge allocated p).2 := by
  unfold prepareDataPath
  dsimp only
  by_cases hbusy : p.webInputBlocks.isSome
  · rw [if_pos hbusy]
    exact .refl p
  rw [if_neg hbusy]
  cases allocated with
  | false =>
    exact ⟨by simp [releaseDataPathAllocations], by simp [releaseDataPathAllocations], .inl rfl,
      .inl rfl, .inl rfl, rfl, .inr rfl⟩
  | true =>
    refine ⟨fun q hq => .inl ?_, fun q hq => .inl ?_, .inr rfl, .inr rfl, .inl rfl, rfl, .inr rfl⟩
    · cases bridge <;> simp_all
    · simp_all

theorem shrinks_abortDataPathStart (released : Bool) (p : DataPath) :
    Shrinks p (abortDataPathStart released p) := by
  have hstop : Shrinks p { p with stopRequested := true, usbTask := .idle } :=
    ⟨fun _ => .inr, fun _ => .inr, .inr rfl, .inr rfl, .inr rfl, rfl, .inl rfl⟩
  unfold abortDataPathStart
  cases released with
  | false => exact hstop
  | true => exact hstop.trans (shrinks_releaseDataPathAllocations _)

theorem shrinks_installTargetUart (bridge : Bool) (p : DataPath) :
    Shrinks p (installTargetUart bridge p).2 := by
  unfold installTargetUart
  cases p.installOutcome with
  | mutexTimeout => exact .refl p
  | allocationFails => exact shrinks_prepareDataPath bridge false p
  | startFails released =>
    dsimp only
    split_ifs
    · exact (shrinks_prepareDataPath bridge true p).trans (shrinks_abortDataPathStart released _)
    · exact shrinks_prepareDataPath bridge true p
  | started => exact shrinks_prepareDataPath bridge true p

theorem shrinks_uninstallTargetUart (p : DataPath) : Shrinks p (uninstallTargetUart p).2 := by
  have hstop : Shrinks p
      { p with stopRequested := true, uninstallOutcomes := p.uninstallOutcomes.tail } :=
    ⟨fun _ => .inr, fun _ => .inr, .inr rfl, .inr rfl, .inr rfl, rfl, .inr rfl⟩
  unfold uninstallTargetUart
  dsimp only
  by_cases hidle : p.usbTask ≠ .idle
  · rw [if_pos hidle]
    exact hstop
  · rw [if_neg hidle]
    cases p.uninstallOutcomes.headD .tasksRunning with
    | tasksRunning => exact hstop
    | driverKept => exact hstop
    | released highImpedance => exact hstop.trans (shrinks_releaseDataPathAllocations _)

theorem follows_shrinks (bridge : Bool) : Follows (adapter bridge) Shrinks where
  refl := .refl
  trans := .trans
  installUart p _ := shrinks_installTargetUart bridge p
  uninstallUart := shrinks_uninstallTargetUart
  setTxHighImpedance := .refl
  clearUsbTx := shrinks_clearUsbInputState
  clearWebTx := shrinks_clearWebInputState

/-! ### The invariant -/

/-- The stamp of a USB block is the generation of an earlier or the current period. -/
structure UsbStamped (period : ℕ) (b : UsbInputBlock) : Prop where
  stamp : b.ownerGeneration = incrementNonzero^[b.stampedIn] 0
  ordered : b.stampedIn ≤ b.submittedIn
  past : b.submittedIn ≤ period

/-- A Web block names the owner of the period that admitted it. -/
structure WebStamped (owners : List TxOwner) (b : WebInputBlock) : Prop where
  granted : owners[b.grantedIn]? = some (.web b.sessionId b.leaseId)
  ordered : b.grantedIn ≤ b.submittedIn
  past : b.submittedIn ≤ owners.length - 1

/-- What holds of the data path, given the owners so far. -/
structure PathInv (owners : List TxOwner) (p : DataPath) : Prop where
  authority : p.usbInputAuthorityGeneration ≠ 0 →
    p.usbInputAuthorityGeneration = incrementNonzero^[p.authorityPeriod] 0
  authorityPast : p.authorityPeriod ≤ owners.length - 1
  usbTask : ∀ g n, p.usbTask = .loaded g n →
    (g ≠ 0 → g = incrementNonzero^[n] 0) ∧ n ≤ owners.length - 1
  usbQueue : ∀ q, p.usbInputBlocks = some q → ∀ b ∈ q, UsbStamped (owners.length - 1) b
  usbPending : ∀ x, p.pendingUsb = some x →
    x.authorized = true ∧ UsbStamped (owners.length - 1) x.block
  webQueue : ∀ q, p.webInputBlocks = some q → ∀ b ∈ q, WebStamped owners b
  webPending : ∀ x, p.pendingWeb = some x → WebStamped owners x.block

theorem UsbStamped.mono {m n : ℕ} (hle : m ≤ n) {b : UsbInputBlock} (h : UsbStamped m b) :
    UsbStamped n b :=
  ⟨h.stamp, h.ordered, h.past.trans hle⟩

variable {owners' : List TxOwner}

theorem WebStamped.mono (hpre : owners <+: owners') {b : WebInputBlock} (h : WebStamped owners b) :
    WebStamped owners' b := by
  obtain ⟨tail, rfl⟩ := hpre
  have hlt : b.grantedIn < owners.length := (List.getElem?_eq_some_iff.mp h.granted).1
  refine ⟨?_, h.ordered, ?_⟩
  · rw [List.getElem?_append_left hlt]
    exact h.granted
  · have := h.past
    rw [List.length_append]
    omega

theorem PathInv.mono (hpre : owners <+: owners') {p : DataPath} (h : PathInv owners p) :
    PathInv owners' p := by
  have hle : owners.length - 1 ≤ owners'.length - 1 := by
    have := hpre.length_le
    omega
  exact
    { authority := h.authority
      authorityPast := h.authorityPast.trans hle
      usbTask := fun g n hg => ⟨(h.usbTask g n hg).1, (h.usbTask g n hg).2.trans hle⟩
      usbQueue := fun q hq b hb => (h.usbQueue q hq b hb).mono hle
      usbPending := fun x hx => ⟨(h.usbPending x hx).1, (h.usbPending x hx).2.mono hle⟩
      webQueue := fun q hq b hb => (h.webQueue q hq b hb).mono hpre
      webPending := fun x hx => (h.webPending x hx).mono hpre }

theorem PathInv.shrinks {p p' : DataPath} (hp : Shrinks p p') (h : PathInv owners p) :
    PathInv owners p' where
  authority hne := by
    rcases hp.authority with h0 | heq
    · exact absurd h0 hne
    · rw [heq, hp.authorityPeriod]
      exact h.authority (heq ▸ hne)
  authorityPast := hp.authorityPeriod ▸ h.authorityPast
  usbTask g n hg := by
    rcases hp.usbTask with hidle | heq
    · rw [hidle] at hg
      cases hg
    · exact h.usbTask g n (heq.symm.trans hg)
  usbQueue q hq b hb := by
    rcases hp.usb q hq with rfl | hq'
    · simp at hb
    · exact h.usbQueue q hq' b hb
  usbPending x hx := by
    rcases hp.pendingUsb with hnone | heq
    · rw [hnone] at hx
      cases hx
    · exact h.usbPending x (heq.symm.trans hx)
  webQueue q hq b hb := by
    rcases hp.web q hq with rfl | hq'
    · simp at hb
    · exact h.webQueue q hq' b hb
  webPending x hx := by
    rcases hp.pendingWeb with hnone | heq
    · rw [hnone] at hx
      cases hx
    · exact h.webPending x (heq.symm.trans hx)

/-- What holds of the service between any two steps of its tasks. -/
structure Inv (s : Service) : Prop where
  wellFormed : WellFormed s.session
  current : s.owners.getLast? = some s.session.txOwner
  generation : s.session.ownerGeneration = incrementNonzero^[s.period] 0
  path : PathInv s.owners s.path
  /-- A partially written USB block belongs to the current owner. -/
  pending : ∀ x, s.path.pendingUsb = some x →
    s.session.state = .usbTx ∧ x.block.ownerGeneration = s.session.ownerGeneration
  snapshot : s.latestSnapshot.state = .webTx →
    s.owners[s.snapshotPeriod]? = some (.web s.latestSnapshot.sessionId s.latestSnapshot.leaseId)
  callers : ∀ c ∈ s.webCallers, s.owners[c.grantedIn]? = some (.web c.sessionId c.leaseId)

variable {s : Service}

theorem Inv.congr {s' : Service} (h : Inv s) (hdevice : s'.device = s.device)
    (howners : s'.owners = s.owners) (hshot : s'.latestSnapshot = s.latestSnapshot)
    (hperiod : s'.snapshotPeriod = s.snapshotPeriod)
    (hcallers : s'.webCallers = s.webCallers) : Inv s' := by
  obtain ⟨hwf, hcur, hgen, hpath, hpend, hsnap, hcall⟩ := h
  constructor
  · rw [session, hdevice]
    exact hwf
  · rw [howners, hcur, session, session, hdevice]
  · rw [session, hdevice, period, howners]
    exact hgen
  · rw [howners, Service.path, hdevice]
    exact hpath
  · rw [Service.path, session, hdevice]
    exact hpend
  · rw [hshot, howners, hperiod]
    exact hsnap
  · rw [hcallers, howners]
    exact hcall

theorem period_call (h : Inv s) (op : Op) :
    (s.call op).period = s.period + ownershipTransitions s.hw s.device op := by
  have hpos := length_pos_of_getLast? h.current
  have hlast := getLast?_recordOwner s.owners (expired s.hw s.device op).session.txOwner
  unfold period call ownershipTransitions
  rw [length_recordOwner hlast, length_recordOwner h.current]
  dsimp only [session]
  omega

theorem isPrefix_call (s : Service) (op : Op) : s.owners <+: (s.call op).owners :=
  (isPrefix_recordOwner _ _).trans (isPrefix_recordOwner _ _)

theorem getElem?_of_isPrefix (hpre : owners <+: owners') {i : ℕ} {owner : TxOwner}
    (h : owners[i]? = some owner) : owners'[i]? = some owner := by
  obtain ⟨tail, rfl⟩ := hpre
  rw [List.getElem?_append_left (List.getElem?_eq_some_iff.mp h).1]
  exact h

/-- **One call** of the session keeps the invariant. -/
theorem inv_call (h : Inv s) (op : Op) : Inv (s.call op) := by
  have hfollow := follows_shrinks s.usbBridgeEnabled
  have hshrink : Shrinks s.path (s.call op).path := context_step hfollow s.device op
  constructor
  · exact wellFormed_step s.hw h.wellFormed op
  · exact getLast?_recordOwner _ _
  · rw [period_call h op, Nat.add_comm, Function.iterate_add_apply, ← h.generation]
    exact step_ownerGeneration s.hw h.wellFormed op
  · exact (h.path.mono (isPrefix_call s op)).shrinks hshrink
  · intro x hx
    -- the block was pending before, so the call started in `USB_TX`
    have hbefore : s.path.pendingUsb = some x := by
      rcases hshrink.pendingUsb with hnone | heq
      · rw [hnone] at hx
        cases hx
      · exact heq.symm.trans hx
    obtain ⟨hstate, hgen⟩ := h.pending x hbefore
    rcases context_leaves_usb hfollow hstate op with hkeep | hclear
    · refine ⟨hkeep.1, hgen.trans ?_⟩
      exact (ownerGeneration_of_keepsUsb h.wellFormed hstate hkeep).symm
    · have hnone : (s.call op).path.pendingUsb = none := by
        rcases hclear.pendingUsb with hnone | heq
        · exact hnone
        · exact heq
      rw [hnone] at hx
      cases hx
  · exact fun hs => getElem?_of_isPrefix (isPrefix_call s op) (h.snapshot hs)
  · exact fun c hc => getElem?_of_isPrefix (isPrefix_call s op) (h.callers c hc)

theorem inv_setPath (h : Inv s) {p : DataPath} (hp : PathInv s.owners p)
    (hpend : ∀ x, p.pendingUsb = some x →
      s.session.state = .usbTx ∧ x.block.ownerGeneration = s.session.ownerGeneration) :
    Inv (s.setPath p) :=
  ⟨h.wellFormed, h.current, h.generation, hp, hpend, h.snapshot, h.callers⟩

theorem inv_setPath_of_shrinks (h : Inv s) {p : DataPath} (hp : Shrinks s.path p) :
    Inv (s.setPath p) := by
  refine inv_setPath h (h.path.shrinks hp) fun x hx => ?_
  rcases hp.pendingUsb with hnone | heq
  · rw [hnone] at hx
    cases hx
  · exact h.pending x (heq.symm.trans hx)

/-! ### The owner task -/

theorem inv_syncUsbInputAuthority (h : Inv s) : Inv s.syncUsbInputAuthority := by
  refine inv_setPath h ?_ h.pending
  obtain ⟨-, -, htask, hq, hpend, hwq, hwp⟩ := h.path
  refine ⟨fun hne => ?_, le_refl _, htask, hq, hpend, hwq, hwp⟩
  dsimp only at hne ⊢
  split_ifs at hne ⊢
  · exact h.generation
  · exact absurd rfl hne

theorem inv_publish (h : Inv s) : Inv s.publish := by
  refine ⟨h.wellFormed, h.current, h.generation, h.path, h.pending, fun hs => ?_, h.callers⟩
  have hweb : s.session.state = .webTx := hs
  have hcur := h.current
  unfold Session.txOwner at hcur
  rw [hweb] at hcur
  rwa [List.getLast?_eq_getElem?] at hcur

theorem inv_applyCommand (h : Inv s) (c : Command) (nowMs : UInt64) :
    Inv (s.applyCommand c nowMs) := by
  unfold applyCommand
  cases c.kind with
  | enter => exact inv_call h _
  | exit => exact inv_call h _
  | requestWeb =>
    dsimp only
    split_ifs
    · exact inv_call h _
    · exact h
  | webActivity => exact inv_call h _
  | webDisconnect => exact inv_call h _
  | revokeWebTransport => exact (inv_call h _).congr rfl rfl rfl rfl rfl
  | stop => exact inv_call h _

theorem inv_drainUsbRejections (h : Inv s) : Inv s.drainUsbRejections.2 := by
  have h' : Inv (s.setPath { s.path with pendingUsbRejectedBytes := 0 }) :=
    inv_setPath_of_shrinks h
      ⟨fun _ => .inr, fun _ => .inr, .inr rfl, .inr rfl, .inr rfl, rfl, .inr rfl⟩
  unfold drainUsbRejections
  dsimp only
  split_ifs
  · exact h'
  · exact inv_call h' _

/-! ### The drains -/

/-- Transmitted bytes belong to the current owner.  The last clause of either case says when they
may have been submitted in an earlier period: the generation has come around since the stamp was
published, or the session and lease of the block were granted to both periods. -/
def Authorized (s : Service) : Source → Prop
  | .usb b => s.session.state = .usbTx ∧ b.ownerGeneration = s.session.ownerGeneration ∧
      (b.submittedIn = s.period ∨ (b.stampedIn < s.period ∧ 2 ^ 64 - 1 ∣ s.period - b.stampedIn))
  | .web b => s.session.state = .webTx ∧ b.sessionId = s.session.sessionId ∧
      b.leaseId = s.session.leaseId ∧
      (b.submittedIn = s.period ∨ (b.grantedIn < s.period ∧
        s.owners[b.grantedIn]? = some (.web b.sessionId b.leaseId)))

/-- What a drain of `s` must do: keep the invariant and transmit for the owner only. -/
structure DrainSound (s : Service) (d : Drained) : Prop where
  inv : Inv d.service
  sent : ∀ t, d.sent = some t → Authorized s t.source

theorem authorized_usb (h : Inv s) (hstate : s.session.state = .usbTx) {b : UsbInputBlock}
    (hb : UsbStamped s.period b)
    (hgen : b.ownerGeneration = s.session.ownerGeneration) : Authorized s (.usb b) := by
  refine ⟨hstate, hgen, ?_⟩
  obtain ⟨hstamp, hord, hpast⟩ := hb
  rcases Nat.eq_or_lt_of_le (hord.trans hpast) with heq | hlt
  · exact .inl (by omega)
  · refine .inr ⟨hlt, ?_⟩
    have hne : b.ownerGeneration ≠ 0 := by
      rw [hgen]
      exact h.wellFormed.generation (by simp [hstate])
    have hround : incrementNonzero^[s.period - b.stampedIn] b.ownerGeneration =
        b.ownerGeneration := by
      rw [hstamp, ← Function.iterate_add_apply, Nat.sub_add_cancel hlt.le, ← hstamp, hgen,
        h.generation]
    exact (iterate_nonzeroNext64_eq_self_iff hne _).mp hround

theorem drainSound_writeUsb (h : Inv s) {p : PendingUsb} (written : ℤ) (hauth : p.authorized = true)
    (hstamped : UsbStamped s.period p.block)
    (hstate : s.session.state = .usbTx)
    (hgen : p.block.ownerGeneration = s.session.ownerGeneration) :
    DrainSound s (s.writeUsb p written) := by
  have hkeep : ∀ x : PendingUsb, x.authorized = true → x.block = p.block →
      Inv (s.setPath { s.path with pendingUsb := some x }) := by
    intro x hx hblock
    obtain ⟨ha, hap, ht, hq, -, hwq, hwp⟩ := h.path
    refine inv_setPath h ⟨ha, hap, ht, hq, ?_, hwq, hwp⟩ ?_
    · rintro y ⟨⟩
      exact ⟨hx, hblock ▸ hstamped⟩
    · rintro y ⟨⟩
      exact ⟨hstate, hblock ▸ hgen⟩
  have hclear : Inv (s.setPath { s.path with pendingUsb := none }) :=
    inv_setPath_of_shrinks h
      ⟨fun _ => .inr, fun _ => .inr, .inl rfl, .inr rfl, .inr rfl, rfl, .inr rfl⟩
  unfold writeUsb
  dsimp only
  split_ifs with hbad hzero hend
  · exact ⟨hclear, by simp⟩
  · exact ⟨hkeep p hauth rfl, by simp⟩
  · refine ⟨hclear, ?_⟩
    rintro t ⟨⟩
    exact authorized_usb h hstate hstamped hgen
  · refine ⟨hkeep _ hauth rfl, ?_⟩
    rintro t ⟨⟩
    exact authorized_usb h hstate hstamped hgen

theorem call_acceptUsbInputGeneration (h : Inv s) {g n : UInt64}
    (hacc : (acceptUsbInputGeneration s.session g n).1 = true) :
    s.call (.acceptUsbInputGeneration g n) = s := by
  have hsame : (acceptUsbInputGeneration s.session g n).2 = s.session := by
    unfold acceptUsbInputGeneration
    rw [if_pos ((acceptUsbInputGeneration_eq_true_iff _ _ _).mp hacc)]
  have hstep : step s.hw s.device (.acceptUsbInputGeneration g n) = s.device := by
    simp only [SerialSession.step]
    rw [show s.device.session = s.session from rfl, hsame]
  have hrec : recordOwner s.owners s.device.session.txOwner = s.owners := if_pos h.current
  unfold call
  rw [hstep]
  simp only [expired, hrec]

theorem drainSound_authorizeUsb (h : Inv s) {p : PendingUsb} (written : ℤ)
    (hstamped : UsbStamped s.period p.block)
    (hpend : p.authorized = true → s.session.state = .usbTx ∧
      p.block.ownerGeneration = s.session.ownerGeneration) :
    DrainSound s (s.authorizeUsb p written) := by
  unfold authorizeUsb
  by_cases hauth : p.authorized = true
  · rw [if_pos hauth]
    exact drainSound_writeUsb h written hauth hstamped (hpend hauth).1 (hpend hauth).2
  rw [if_neg hauth]
  dsimp only
  split_ifs with hacc
  · obtain ⟨hstate, -, hgen⟩ := (acceptUsbInputGeneration_eq_true_iff _ _ _).mp hacc
    rw [call_acceptUsbInputGeneration h hacc]
    exact drainSound_writeUsb h written rfl hstamped hstate hgen
  · refine ⟨inv_setPath_of_shrinks (inv_call h _) ?_, by simp⟩
    exact ⟨fun _ => .inr, fun _ => .inr, .inl rfl, .inr rfl, .inr rfl, rfl, .inr rfl⟩

theorem drainSound_drainUsbInput (h : Inv s) (written : ℤ) :
    DrainSound s (s.drainUsbInput written) := by
  unfold drainUsbInput
  cases hqueue : s.path.usbInputBlocks with
  | none => exact ⟨h, by simp⟩
  | some queue =>
    cases hpending : s.path.pendingUsb with
    | some p =>
      exact drainSound_authorizeUsb h written (h.path.usbPending p hpending).2
        fun _ => h.pending p hpending
    | none =>
      cases queue with
      | nil => exact ⟨h, by simp⟩
      | cons block rest =>
        have hstamped := h.path.usbQueue _ hqueue
        have h' : Inv (s.setPath { s.path with usbInputBlocks := some rest }) := by
          obtain ⟨ha, hap, ht, -, hp, hwq, hwp⟩ := h.path
          refine inv_setPath h ⟨ha, hap, ht, ?_, hp, hwq, hwp⟩ h.pending
          rintro q ⟨⟩ b hb
          exact hstamped b (List.mem_cons_of_mem _ hb)
        dsimp only
        split_ifs
        · exact ⟨h', by simp⟩
        · -- the queue has lost a block; nothing `Authorized` reads has changed
          obtain ⟨hinv, hsent⟩ := drainSound_authorizeUsb h' (p := ⟨block, 0, false⟩) written
            (hstamped block List.mem_cons_self) (by simp)
          exact ⟨hinv, hsent⟩

theorem drainSound_writeWeb (h : Inv s) {p : PendingWeb} (written : ℤ)
    (hstamped : WebStamped s.owners p.block) : DrainSound s (s.writeWeb p written) := by
  have hkeep : ∀ x : PendingWeb, x.block = p.block →
      Inv (s.setPath { s.path with pendingWeb := some x }) := by
    intro x hblock
    obtain ⟨ha, hap, ht, hq, hp, hwq, -⟩ := h.path
    refine inv_setPath h ⟨ha, hap, ht, hq, hp, hwq, ?_⟩ h.pending
    rintro y ⟨⟩
    exact hblock ▸ hstamped
  have hclear : Inv (s.setPath { s.path with pendingWeb := none }) :=
    inv_setPath_of_shrinks h
      ⟨fun _ => .inr, fun _ => .inr, .inr rfl, .inl rfl, .inr rfl, rfl, .inr rfl⟩
  have hsent : acceptWebInput s.session p.block.sessionId p.block.leaseId = true →
      Authorized s (.web p.block) := by
    intro hacc
    simp only [acceptWebInput, Bool.and_eq_true, beq_iff_eq, bne_iff_ne] at hacc
    obtain ⟨⟨⟨⟨⟨hstate, -⟩, -⟩, hsid⟩, -⟩, hlid⟩ := hacc
    refine ⟨hstate, hsid, hlid, ?_⟩
    obtain ⟨hgranted, hord, hpast⟩ := hstamped
    rcases Nat.eq_or_lt_of_le (hord.trans hpast) with heq | hlt
    · exact .inl (by unfold period; omega)
    · exact .inr ⟨hlt, hgranted⟩
  unfold writeWeb
  dsimp only
  split_ifs with hacc hbad hzero hend
  · exact ⟨hclear, by simp⟩
  · exact ⟨hclear, by simp⟩
  · exact ⟨hkeep p rfl, by simp⟩
  · refine ⟨hclear, ?_⟩
    rintro t ⟨⟩
    exact hsent (by simpa using hacc)
  · refine ⟨hkeep _ rfl, ?_⟩
    rintro t ⟨⟩
    exact hsent (by simpa using hacc)

theorem drainSound_drainWebInput (h : Inv s) (written : ℤ) :
    DrainSound s (s.drainWebInput written) := by
  unfold drainWebInput
  cases hqueue : s.path.webInputBlocks with
  | none => exact ⟨h, by simp⟩
  | some queue =>
    cases hpending : s.path.pendingWeb with
    | some p => exact drainSound_writeWeb h written (h.path.webPending p hpending)
    | none =>
      cases queue with
      | nil => exact ⟨h, by simp⟩
      | cons block rest =>
        have hstamped := h.path.webQueue _ hqueue
        have h' : Inv (s.setPath { s.path with webInputBlocks := some rest }) := by
          obtain ⟨ha, hap, ht, hq, hp, -, hwp⟩ := h.path
          refine inv_setPath h ⟨ha, hap, ht, hq, hp, ?_, hwp⟩ h.pending
          rintro q ⟨⟩ b hb
          exact hstamped b (List.mem_cons_of_mem _ hb)
        dsimp only
        split_ifs
        · exact ⟨h', by simp⟩
        · obtain ⟨hinv, hsent⟩ := drainSound_writeWeb h' (p := ⟨block, 0⟩) written
            (hstamped block List.mem_cons_self)
          exact ⟨hinv, hsent⟩

/-! ### One step -/

theorem Inv.setPc (h : Inv s) (pc : Pc) : Inv { s with pc := pc } :=
  h.congr rfl rfl rfl rfl rfl

theorem inv_receiveCommand (h : Inv s) : Inv s.receiveCommand := by
  unfold receiveCommand
  cases s.commands with
  | nil => exact h.congr rfl rfl rfl rfl rfl
  | cons c rest => exact h.congr rfl rfl rfl rfl rfl

theorem inv_ownerStep (h : Inv s) (i : Inputs) : Inv (s.ownerStep i).1 := by
  unfold ownerStep
  cases s.pc with
  | top => exact (inv_call h _).setPc _
  | sync before => exact (inv_syncUsbInputAuthority h).setPc _
  | publishThenReceive => exact (inv_publish h).setPc _
  | receive => exact inv_receiveCommand h
  | process c => exact (inv_call h _).setPc _
  | fence c nowMs =>
    have hpath : Shrinks s.path (if fencesInput c.kind then
        { s.path with usbInputAuthorityGeneration := 0 } else s.path) := by
      split_ifs
      · exact ⟨fun _ => .inr, fun _ => .inr, .inr rfl, .inr rfl, .inl rfl, rfl, .inr rfl⟩
      · exact .refl _
    exact (inv_setPath_of_shrinks h hpath).setPc _
  | apply c nowMs =>
    have hpath : Shrinks s.path
        { s.path with installOutcome := i.install, uninstallOutcomes := i.uninstall } :=
      ⟨fun _ => .inr, fun _ => .inr, .inr rfl, .inr rfl, .inr rfl, rfl, .inr rfl⟩
    exact (inv_applyCommand (inv_setPath_of_shrinks h hpath) c nowMs).setPc _
  | resync c => exact (inv_syncUsbInputAuthority h).setPc _
  | finish c => exact (inv_publish h).setPc _
  | rejections => exact (inv_drainUsbRejections h).setPc _
  | web => exact (drainSound_drainWebInput h i.written).inv.setPc _
  | usb => exact (drainSound_drainUsbInput h i.written).inv.setPc _
  | publishThenTop => exact (inv_publish h).setPc _
  | halted => exact h

theorem inv_submitUsbInput (h : Inv s) (bytes : List UInt8) {g : UInt64} {n : ℕ}
    (hg : g ≠ 0 → g = incrementNonzero^[n] 0) (hn : n ≤ s.period) :
    Inv (s.submitUsbInput bytes g n) := by
  unfold submitUsbInput
  by_cases hbad : bytes.length = 0 ∨ blockBytes < bytes.length ∨ s.stopRequested = true
  · rw [if_pos hbad]
    exact h
  rw [if_neg hbad]
  cases hqueue : s.path.usbInputBlocks with
  | none => exact h
  | some queue =>
    dsimp only
    split_ifs with hzero hroom
    · refine inv_setPath_of_shrinks h ?_
      exact ⟨fun _ => .inr, fun _ => .inr, .inr rfl, .inr rfl, .inr rfl, rfl, .inr rfl⟩
    · obtain ⟨ha, hap, ht, hq, hp, hwq, hwp⟩ := h.path
      refine inv_setPath h ⟨ha, hap, ht, ?_, hp, hwq, hwp⟩ h.pending
      rintro q ⟨⟩ b hb
      rcases List.mem_append.mp hb with hb | hb
      · exact hq queue hqueue b hb
      · obtain rfl := List.mem_singleton.mp hb
        exact ⟨hg hzero, hn, le_refl _⟩
    · exact h

theorem inv_usbTaskStep (h : Inv s) (bytes : List UInt8) :
    Inv (s.usbTaskStep bytes) := by
  unfold usbTaskStep
  obtain ⟨ha, hap, ht, hq, hp, hwq, hwp⟩ := h.path
  cases htask : s.path.usbTask with
  | idle =>
    dsimp only
    split_ifs
    · exact inv_setPath h ⟨ha, hap, by simp, hq, hp, hwq, hwp⟩ h.pending
    · exact h
  | ready =>
    refine inv_setPath h ⟨ha, hap, ?_, hq, hp, hwq, hwp⟩ h.pending
    rintro g n ⟨⟩
    exact ⟨ha, hap⟩
  | loaded g n =>
    obtain ⟨hg, hn⟩ := ht g n htask
    refine inv_setPath_of_shrinks (inv_submitUsbInput h bytes hg hn) ?_
    exact ⟨fun _ => .inr, fun _ => .inr, .inr rfl, .inr rfl, .inr rfl, rfl, .inl rfl⟩

theorem inv_webCheck (h : Inv s) (sid lid : UInt64) (bytes : List UInt8) :
    Inv (s.webCheck sid lid bytes) := by
  unfold webCheck
  dsimp only
  split_ifs with href
  · exact h
  · push Not at href
    obtain ⟨-, hstate, -, hsid, hlid⟩ := href
    refine ⟨h.wellFormed, h.current, h.generation, h.path, h.pending, h.snapshot, ?_⟩
    intro c hc
    rcases List.mem_append.mp hc with hc | hc
    · exact h.callers c hc
    · obtain rfl := List.mem_singleton.mp hc
      have hshot := h.snapshot hstate
      rwa [hsid, hlid] at hshot

theorem inv_webQueue (h : Inv s) (index : ℕ) (locked : Bool) :
    Inv (s.webQueue index locked) := by
  unfold webQueue
  cases hcaller : s.webCallers[index]? with
  | none => exact h
  | some caller =>
    have hgranted := h.callers caller (List.mem_of_getElem? hcaller)
    have h' : Inv { s with webCallers := s.webCallers.eraseIdx index } :=
      ⟨h.wellFormed, h.current, h.generation, h.path, h.pending, h.snapshot,
        fun c hc => h.callers c (List.mem_of_mem_eraseIdx hc)⟩
    dsimp only
    cases hqueue : s.path.webInputBlocks with
    | none => exact h'
    | some queue =>
      dsimp only
      split_ifs
      · obtain ⟨ha, hap, ht, hq, hp, hwq, hwp⟩ := h'.path
        refine inv_setPath h' ⟨ha, hap, ht, hq, hp, ?_, hwp⟩ h'.pending
        rintro q ⟨⟩ b hb
        rcases List.mem_append.mp hb with hb | hb
        · exact hwq queue hqueue b hb
        · obtain rfl := List.mem_singleton.mp hb
          have hlt := (List.getElem?_eq_some_iff.mp hgranted).1
          refine ⟨hgranted, ?_, le_refl _⟩
          show caller.grantedIn ≤ s.owners.length - 1
          omega
      · exact h'

theorem inv_stamp (h : Inv s) (c : Command) : Inv (s.stamp c) := by
  unfold stamp
  cases c.kind <;> dsimp only
  case stop => exact h.congr rfl rfl rfl rfl rfl
  all_goals
    split_ifs
    · exact h
    · exact h.congr rfl rfl rfl rfl rfl

theorem inv_send (h : Inv s) (index : ℕ) : Inv (s.send index) := by
  unfold send
  cases s.sending[index]? with
  | none => exact h
  | some out =>
    dsimp only
    split_ifs <;> exact h.congr rfl rfl rfl rfl rfl

/-- **One step** of any task keeps the invariant. -/
theorem inv_step (h : Inv s) (e : Event) : Inv (s.step e) := by
  cases e with
  | owner i => exact inv_ownerStep h i
  | usbTask bytes => exact inv_usbTaskStep h bytes
  | webCheck sid lid bytes => exact inv_webCheck h sid lid bytes
  | webQueue index locked => exact inv_webQueue h index locked
  | stamp c => exact inv_stamp h c
  | send index => exact inv_send h index

theorem inv_start (bridge : Bool) : Inv (start bridge) := by
  refine ⟨?_, rfl, rfl, ?_, by simp [start], by simp [start, SerialSession.snapshot],
    by simp [start]⟩
  · exact ⟨fun hs => absurd rfl hs, by simp [start], fun _ => rfl, fun hs => absurd rfl hs,
      by simp [start]⟩
  · exact ⟨by simp [start], by simp [start], by simp [start], by simp [start], by simp [start],
      by simp [start], by simp [start]⟩

/-- **One run**: the invariant holds after every interleaving. -/
theorem inv_run {s : Service} (h : Inv s) (events : List Event) : Inv (s.run events) := by
  induction events generalizing s with
  | nil => exact h
  | cons e events ih => exact ih (inv_step h e)

/-! ### Exclusivity -/

theorem authorized_of_transmits (h : Inv s) {e : Event} {t : Transmission}
    (ht : s.transmits e = some t) : Authorized s t.source := by
  cases e with
  | owner i =>
    unfold transmits ownerStep at ht
    cases hpc : s.pc with
    | web =>
      rw [hpc] at ht
      exact (drainSound_drainWebInput h i.written).sent t ht
    | usb =>
      rw [hpc] at ht
      exact (drainSound_drainUsbInput h i.written).sent t ht
    | _ => simp [hpc] at ht
  | _ => cases ht

/-- **UART exclusivity.**  After every interleaving of the tasks, whatever the clock, the
drivers and the UART answer, every byte the next step writes comes from a USB block that carries
the current generation in `USB_TX`, or from a Web block that carries the current session and
lease in `WEB_TX`.  It was submitted in the current ownership period, unless that period's token
was issued before: a positive multiple of `2^64 - 1` ownership transitions lies between the
stamp and the write, or the same session and lease were granted to an earlier period. -/
theorem uart_exclusive (usbBridgeEnabled : Bool) (events : List Event) (e : Event)
    (t : Transmission) (ht : ((start usbBridgeEnabled).run events).transmits e = some t) :
    let s := (start usbBridgeEnabled).run events
    match t.source with
    | .usb b => s.session.state = .usbTx ∧ b.ownerGeneration = s.session.ownerGeneration ∧
        (b.submittedIn = s.period ∨
          (b.stampedIn < s.period ∧ 2 ^ 64 - 1 ∣ s.period - b.stampedIn))
    | .web b => s.session.state = .webTx ∧ b.sessionId = s.session.sessionId ∧
        b.leaseId = s.session.leaseId ∧
        (b.submittedIn = s.period ∨ (b.grantedIn < s.period ∧
          s.owners[b.grantedIn]? = some (.web b.sessionId b.leaseId))) := by
  have h := authorized_of_transmits (inv_run (inv_start usbBridgeEnabled) events) ht
  cases hsource : t.source with
  | usb b => rw [hsource] at h; exact h
  | web b => rw [hsource] at h; exact h

/-- The turn of the owner's loop that processes one command. -/
def commandTurn : List Event :=
  List.replicate 8 (.owner { install := .started })

/-- A command is called, sent and processed. -/
def command (c : Command) : List Event :=
  [.stamp c, .send 0] ++ commandTurn

/-- A session is entered and one byte arrives over USB. -/
def usbByte : List Event :=
  command { kind := .enter } ++ [.usbTask [], .usbTask [], .usbTask [65]] ++
    List.replicate 5 (.owner {})

theorem uart_exclusive_usbByte :
    ((start true).run usbByte).transmits (.owner { written := 1 }) =
        some ⟨.usb ⟨1, [65], 1, 1⟩, [65]⟩ ∧
      ((start true).run usbByte).session.state = .usbTx :=
  ⟨by decide, (uart_exclusive true usbByte (.owner { written := 1 })
    ⟨.usb ⟨1, [65], 1, 1⟩, [65]⟩ (by decide)).1⟩

/-- A caller of `submit_web` is held up between its snapshot check and the queue, while its lease
is revoked and the same request id is granted once more. -/
def reusedLease : List Event :=
  let grant : Command := { kind := .requestWeb, enable := true, sessionId := 1, requestId := 5 }
  command { kind := .enter } ++ command grant ++ [.webCheck 1 5 [65]] ++
    command { kind := .revokeWebTransport } ++ [.webQueue 0 true] ++ command grant ++
    List.replicate 4 (.owner {})

/-- A byte submitted under the first grant is written under the second. -/
theorem uart_exclusive_limits :
    let s := (start true).run reusedLease
    s.transmits (.owner { written := 1 }) = some ⟨.web ⟨1, 5, [65], 2, 3⟩, [65]⟩ ∧
      s.period = 4 := by
  decide

end RlcdDeck.SerialService
