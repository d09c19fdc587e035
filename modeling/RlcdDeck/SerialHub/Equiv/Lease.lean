import RlcdDeck.SerialHub.Service

/-!
# Who may send Web input

Every frame the Companion builds for the target was allowed by the Deck.  A client that can build
one asked for the lease itself, the Deck answered that very request with a lease on the Web line,
and nothing took the lease back since (`Granted`).

The lease is *live* while it is asked for or held.  `step_cases` says what a call can do to it:
leave it alone, end it, start it for a client that asks, or turn a request into a grant.
-/

namespace RlcdDeck.SerialHub

/-! ### Calls and runs -/

/-- A call on the service, or on its ring by an observer. -/
inductive ServiceOp where
  | reconcile (deviceId : String) (sessionId : UInt64) (state : State)
  | ingest (deviceId : String) (frame : Frame)
  | buildWebFrame (clientId : String) (leaseId : UInt64) (payload : List UInt8) (now : ℤ)
  | acquireLease (clientId : String) (sessionId : UInt64)
  | disconnectLease (clientId : String)
  | heartbeatLease (clientId : String) (leaseId : UInt64) (now : ℤ)
  | expireLease (now : ℤ)
  | applyOwnerResult (deviceId : String) (result : OwnerResult) (accepted : Bool) (now : ℤ)
  | claimOwnerRequestAttempt (requestId : UInt64) (minimumInterval now : ℤ)
  | requireOwnerRevocation (deviceId : String)
  | markOwnerUnavailable
  | openObserver (sessionId : UInt64)
  | closeObserver (id : UInt64)
  | readObserver (id : UInt64) (maximumBytes maximumFrames : ℤ)
  | close

namespace Service

def step (s : Service) : ServiceOp → Service
  | .reconcile deviceId sessionId state => (s.reconcile deviceId sessionId state).2
  | .ingest deviceId frame => (s.ingest deviceId frame).2
  | .buildWebFrame clientId leaseId payload now => (s.buildWebFrame clientId leaseId payload now).2
  | .acquireLease clientId sessionId => (s.acquireLease clientId sessionId).2
  | .disconnectLease clientId => (s.disconnectLease clientId).2
  | .heartbeatLease clientId leaseId now => (s.heartbeatLease clientId leaseId now).2
  | .expireLease now => (s.expireLease now).2
  | .applyOwnerResult deviceId result accepted now =>
    (s.applyOwnerResult deviceId result accepted now).2
  | .claimOwnerRequestAttempt requestId minimumInterval now =>
    (s.claimOwnerRequestAttempt requestId minimumInterval now).2
  | .requireOwnerRevocation deviceId => (s.requireOwnerRevocation deviceId).2
  | .markOwnerUnavailable => s.markOwnerUnavailable
  | .openObserver sessionId => { s with ring := (s.ring.openObserver sessionId).2 }
  | .closeObserver id => { s with ring := s.ring.closeObserver id }
  | .readObserver id maximumBytes maximumFrames =>
    { s with ring := (s.ring.readObserver id maximumBytes maximumFrames).2 }
  | .close => s.close

def run (s : Service) (ops : List ServiceOp) : Service :=
  ops.foldl step s

/-- The call is a disconnect, an expiry, a revocation or a change of session. -/
def interrupts (s : Service) : ServiceOp → Bool
  | .disconnectLease clientId => (s.disconnectLease clientId).1.isOk
  | .expireLease now => (s.expireLease now).1.isSome
  | .requireOwnerRevocation deviceId => (s.requireOwnerRevocation deviceId).1.isSome
  | .markOwnerUnavailable => !s.closed
  | op => (s.step op).ring.sessionId ≠ s.ring.sessionId

/-- None of the calls interrupts a lease. -/
def Uninterrupted (s : Service) : List ServiceOp → Prop
  | [] => True
  | op :: ops => s.interrupts op = false ∧ (s.step op).Uninterrupted ops

/-- In the run `ops` the client asked for the lease with the request `requestId`, and nothing
interrupted since. -/
def Requested (s : Service) (ops : List ServiceOp) (clientId : String)
    (sessionId requestId : UInt64) : Prop :=
  ∃ before after, ops = before ++ .acquireLease clientId sessionId :: after ∧
    ((s.run before).acquireLease clientId sessionId).1 = .ok ⟨sessionId, requestId, true⟩ ∧
    ((s.run before).step (.acquireLease clientId sessionId)).Uninterrupted after

/-- In the run `ops` the client's own request was answered with a lease on the Web line, and
nothing interrupted since. -/
def Granted (s : Service) (ops : List ServiceOp) (clientId : String)
    (sessionId requestId leaseId : UInt64) : Prop :=
  ∃ before after deviceId now,
    let op := ServiceOp.applyOwnerResult deviceId ⟨sessionId, requestId, .web, leaseId⟩ true now
    ops = before ++ op :: after ∧ s.Requested before clientId sessionId requestId ∧
    ((s.run before).applyOwnerResult deviceId ⟨sessionId, requestId, .web, leaseId⟩ true now).1 =
      none ∧
    ((s.run before).step op).Uninterrupted after

/-- The client holds the lease or waits for it, as its calls show. -/
def Holds (s : Service) (clientId : String) : Prop :=
  (∃ leaseId payload now, (s.buildWebFrame clientId leaseId payload now).1.isOk) ∨
    (∃ leaseId now, (s.heartbeatLease clientId leaseId now).1.isOk) ∨
    ∃ request, s.pendingOwnerRequest = some (request, clientId) ∧ request.enable = true

/-! ### What a call does to the lease -/

/-- A client asks for the lease or holds it. -/
def Live (s : Service) : Prop :=
  s.leases.status.owner = .web ∨ (s.leases.pendingId ≠ 0 ∧ s.leases.pendingEnable = true)

/-- The lease and the session are what they were, but for the clock. -/
structure SameLease (s t : Service) : Prop where
  session : t.leases.status.sessionId = s.leases.status.sessionId
  client : t.leases.status.clientId = s.leases.status.clientId
  owner : t.leases.status.owner = s.leases.status.owner
  lease : t.leases.status.leaseId = s.leases.status.leaseId
  pending : t.leases.pendingId = s.leases.pendingId
  enable : t.leases.pendingEnable = s.leases.pendingEnable
  ring : t.ring.sessionId = s.ring.sessionId

/-- What the lease knows of itself. -/
structure Coupled (s : Service) : Prop where
  session : s.leases.status.sessionId = 0 ∨ s.leases.status.sessionId = s.ring.sessionId
  held : s.leases.status.owner = .web → s.leases.pendingId = 0
  live : s.Live → s.leases.status.sessionId ≠ 0 ∧ s.leases.status.clientId ≠ ""

theorem SameLease.refl (s : Service) : SameLease s s :=
  ⟨rfl, rfl, rfl, rfl, rfl, rfl, rfl⟩

theorem SameLease.of_leases {s t : Service} (hleases : t.leases = s.leases)
    (hring : t.ring.sessionId = s.ring.sessionId) : SameLease s t := by
  constructor <;> first | rw [hleases] | exact hring

theorem SameLease.live_iff {s t : Service} (h : SameLease s t) : t.Live ↔ s.Live := by
  unfold Live
  rw [h.owner, h.pending, h.enable]

theorem SameLease.coupled {s t : Service} (h : SameLease s t) (hs : Coupled s) : Coupled t where
  session := by rw [h.session, h.ring]; exact hs.session
  held := by rw [h.owner, h.pending]; exact hs.held
  live := by rw [h.live_iff, h.session, h.client]; exact hs.live

/-- The four things a call can do to the lease. -/
inductive Effect (s : Service) (op : ServiceOp) (t : Service) : Prop
  | same (h : SameLease s t) (quiet : s.interrupts op = false)
  | ended (h : ¬t.Live)
      (session : t.leases.status.sessionId = 0 ∨ t.leases.status.sessionId = t.ring.sessionId)
  | asked (clientId : String) (sessionId : UInt64) (hop : op = .acquireLease clientId sessionId)
      (ok : (s.acquireLease clientId sessionId).1 = .ok ⟨sessionId, t.leases.pendingId, true⟩)
      (client : clientId ≠ "") (nonzero : sessionId ≠ 0) (session : sessionId = t.ring.sessionId)
      (status : t.leases.status = { sessionId, clientId, owner := .transitioning })
  | granted (deviceId : String) (result : OwnerResult) (now : ℤ)
      (hop : op = .applyOwnerResult deviceId result true now)
      (ok : (s.applyOwnerResult deviceId result true now).1 = none)
      (pending : s.leases.pendingId ≠ 0 ∧ s.leases.pendingEnable = true)
      (request : result.requestId = s.leases.pendingId)
      (session : result.sessionId = s.leases.status.sessionId)
      (owner : result.owner = .web) (nonzero : result.leaseId ≠ 0)
      (leases : t.leases = s.leases.settle { s.leases.status with
        owner := .web
        leaseId := result.leaseId
        expiresAt := now + s.leases.ttl })
      (ring : t.ring = s.ring)

theorem not_live_settle (m : LeaseManager) {status : LeaseStatus} (h : status.owner ≠ .web)
    {s : Service} (hs : s.leases = m.settle status) : ¬s.Live := by
  unfold Live
  rw [hs]
  rintro (howner | ⟨hpending, -⟩)
  · exact h howner
  · exact hpending rfl

theorem Coupled.not_live {s : Service} (h : Coupled s)
    (hne : s.leases.status.sessionId ≠ s.ring.sessionId) : ¬s.Live := fun hlive =>
  (h.live hlive).1 (h.session.resolve_right hne)

theorem begin_session {r ring : Ring} {sessionId : UInt64}
    (h : r.begin sessionId = (none, ring)) : ring.sessionId = sessionId := by
  unfold Ring.begin at h
  split_ifs at h with hclosed hzero hsame
  · cases h
  · cases h
  · obtain rfl := (Prod.mk.inj h).2
    exact hsame
  · obtain rfl := (Prod.mk.inj h).2
    rfl

theorem endSession_ended {s t : Service} (hs : Coupled s)
    (hleases : t.leases = s.leases.endSession s.ring.sessionId) :
    ¬t.Live ∧ t.leases.status.sessionId = 0 := by
  unfold LeaseManager.endSession at hleases
  by_cases hsession : s.leases.status.sessionId = s.ring.sessionId
  · rw [if_pos hsession] at hleases
    refine ⟨not_live_settle _ (by decide) hleases, ?_⟩
    rw [hleases]
    rfl
  · rw [if_neg hsession] at hleases
    refine ⟨?_, ?_⟩
    · have hdead := hs.not_live hsession
      unfold Live at hdead ⊢
      rw [hleases]
      exact hdead
    · rw [hleases]
      exact hs.session.resolve_right hsession

theorem makeRoom_sessionId (length n : ℕ) (r : Ring) :
    (Ring.makeRoom length n r).sessionId = r.sessionId := by
  induction n generalizing r with
  | zero => rfl
  | succ n ih =>
    rw [Ring.makeRoom]
    split_ifs with hroom
    · rw [ih]
      unfold Ring.evictOldest
      split_ifs <;> rfl
    · rfl

theorem ingest_sessionId (r : Ring) (frame : Frame) :
    (r.ingest frame).2.sessionId = r.sessionId := by
  unfold Ring.ingest
  split
  · rfl
  · exact makeRoom_sessionId _ _ _

theorem openObserver_sessionId (r : Ring) (sessionId : UInt64) :
    (r.openObserver sessionId).2.sessionId = r.sessionId := by
  unfold Ring.openObserver
  split_ifs <;> rfl

theorem readObserver_sessionId (r : Ring) (id : UInt64) (maximumBytes maximumFrames : ℤ) :
    (r.readObserver id maximumBytes maximumFrames).2.sessionId = r.sessionId := by
  unfold Ring.readObserver
  by_cases hclosed : r.closed = true
  · rw [if_pos hclosed]
  rw [if_neg hclosed]
  cases r.observer? id with
  | none => rfl
  | some reader =>
    dsimp only
    by_cases hlimit : maximumBytes ≤ 0 ∨ maximumFrames ≤ 0
    · rw [if_pos hlimit]
    rw [if_neg hlimit]
    split <;> rfl

theorem confirmState_cases (t : Service) (sessionId previousSessionId : UInt64)
    (previousState state : State) :
    let u := t.confirmState sessionId previousSessionId previousState state
    u.ring = t.ring ∧ (u.leases = t.leases ∨ u.leases = t.leases.confirmUSB sessionId) := by
  unfold confirmState
  split_ifs
  · exact ⟨rfl, .inl rfl⟩
  · exact ⟨rfl, .inr rfl⟩
  · exact ⟨rfl, .inl rfl⟩

theorem quiet_of_session {s t : Service} (h : t.ring.sessionId = s.ring.sessionId) :
    decide (t.ring.sessionId ≠ s.ring.sessionId) = false :=
  decide_eq_false (not_not_intro h)

/-! ### One lemma for each call -/

section Calls

variable {s : Service} (hs : Coupled s)
include hs

theorem reconcileDisarmed_effect (deviceId : String) (sessionId : UInt64) :
    SameLease s (s.reconcileDisarmed deviceId sessionId).2 ∨
      (¬(s.reconcileDisarmed deviceId sessionId).2.Live ∧
        (s.reconcileDisarmed deviceId sessionId).2.leases.status.sessionId = 0) := by
  unfold reconcileDisarmed
  by_cases hzero : sessionId ≠ 0
  · rw [if_pos hzero]
    exact .inl (.refl s)
  rw [if_neg hzero]
  by_cases hdevice : s.deviceId ≠ deviceId
  · rw [if_pos hdevice]
    exact .inl (.refl s)
  rw [if_neg hdevice]
  dsimp only
  by_cases hactive : s.ring.sessionId ≠ 0
  · rw [if_pos hactive]
    split
    · exact .inl (.refl s)
    · exact .inr (endSession_ended hs rfl)
  · rw [if_neg hactive]
    exact .inl (.of_leases rfl rfl)

theorem reconcile_effect (deviceId : String) (sessionId : UInt64) (state : State) :
    Effect s (.reconcile deviceId sessionId state) (s.reconcile deviceId sessionId state).2 := by
  have same : ∀ t, SameLease s t → (s.reconcile deviceId sessionId state).2 = t →
      Effect s (.reconcile deviceId sessionId state) (s.reconcile deviceId sessionId state).2 := by
    intro t h heq
    rw [← heq] at h
    exact .same h (quiet_of_session h.ring)
  generalize hu : (s.reconcile deviceId sessionId state).2 = u at same ⊢
  unfold reconcile at hu
  by_cases hclosed : s.closed = true
  · rw [if_pos hclosed] at hu
    exact same s (.refl s) hu.symm
  rw [if_neg hclosed] at hu
  by_cases hdevice : deviceId = ""
  · rw [if_pos hdevice] at hu
    exact same s (.refl s) hu.symm
  rw [if_neg hdevice] at hu
  by_cases hstate : state = .disarmed
  · rw [if_pos hstate] at hu
    rcases reconcileDisarmed_effect hs deviceId sessionId with h | ⟨hdead, hzero⟩
    · exact same _ h hu.symm
    · rw [hu] at hdead hzero
      exact .ended hdead (.inl hzero)
  rw [if_neg hstate] at hu
  by_cases hzero : sessionId = 0
  · rw [if_pos hzero] at hu
    exact same s (.refl s) hu.symm
  rw [if_neg hzero] at hu
  by_cases hbusy : s.deviceId ≠ "" ∧ s.deviceId ≠ deviceId
  · rw [if_pos hbusy] at hu
    exact same s (.refl s) hu.symm
  rw [if_neg hbusy] at hu
  dsimp only at hu
  cases hbegin : s.ring.begin sessionId with
  | mk error ring =>
    rw [hbegin] at hu
    cases error with
    | some error => exact same s (.refl s) hu.symm
    | none =>
      have hring := begin_session hbegin
      dsimp only at hu
      generalize hleases : (if s.ring.sessionId ≠ 0 ∧ s.ring.sessionId ≠ sessionId then
        s.leases.endSession s.ring.sessionId else s.leases) = leases at hu
      obtain ⟨huring, hcases⟩ := confirmState_cases
        { s with
          ring := ring
          leases := leases
          deviceId := deviceId
          state := state
          webSequence := if s.ring.sessionId ≠ sessionId then 0 else s.webSequence }
        sessionId s.ring.sessionId s.state state
      rw [hu] at huring hcases
      rcases hcases with hkeep | hconfirm
      · have hsession : u.ring.sessionId = sessionId := by rw [huring, hring]
        by_cases hsame : s.ring.sessionId = sessionId
        · rw [if_neg (fun h => h.2 hsame)] at hleases
          exact same u (.of_leases (by rw [hkeep, hleases]) (by rw [hsession, hsame])) rfl
        -- a new session: the lease of the old one is over
        by_cases hnone : s.ring.sessionId = 0
        · have hold : u.leases = s.leases := by
            rw [hkeep, ← hleases, if_neg (fun h => h.1 hnone)]
          have hidle : s.leases.status.sessionId = 0 := hs.session.elim id (·.trans hnone)
          refine .ended (fun hlive => ?_) (.inl (by rw [hold]; exact hidle))
          unfold Live at hlive
          rw [hold] at hlive
          exact (hs.live hlive).1 hidle
        · rw [if_pos ⟨hnone, hsame⟩] at hleases
          obtain ⟨hdead, hidle⟩ := endSession_ended hs (hkeep.trans hleases.symm)
          exact .ended hdead (.inl hidle)
      · refine .ended (not_live_settle _ Owner.noConfusion hconfirm) (.inr ?_)
        rw [hconfirm, huring, hring]
        rfl

omit hs in
theorem ingest_effect (deviceId : String) (frame : Frame) :
    Effect s (.ingest deviceId frame) (s.ingest deviceId frame).2 := by
  have h : SameLease s (s.ingest deviceId frame).2 := by
    unfold ingest
    split_ifs
    · exact .refl s
    · exact .refl s
    · exact .of_leases rfl (ingest_sessionId _ _)
  exact .same h (quiet_of_session h.ring)

omit hs in
theorem buildWebFrame_effect (clientId : String) (leaseId : UInt64) (payload : List UInt8)
    (now : ℤ) : Effect s (.buildWebFrame clientId leaseId payload now)
      (s.buildWebFrame clientId leaseId payload now).2 := by
  have h : SameLease s (s.buildWebFrame clientId leaseId payload now).2 := by
    unfold buildWebFrame
    dsimp only
    split_ifs
    · exact .refl s
    · exact .refl s
    · exact .of_leases rfl rfl
  exact .same h (quiet_of_session h.ring)

omit hs in
theorem acquireLease_effect (clientId : String) (sessionId : UInt64) :
    Effect s (.acquireLease clientId sessionId) (s.acquireLease clientId sessionId).2 := by
  have same : (s.acquireLease clientId sessionId).2 = s →
      Effect s (.acquireLease clientId sessionId) (s.acquireLease clientId sessionId).2 := by
    intro h
    refine .same (by rw [h]; exact .refl s) (quiet_of_session ?_)
    rw [step, h]
  by_cases hrefused : s.closed ∨ s.deviceId = "" ∨ s.state = .disarmed ∨
      s.ring.sessionId ≠ sessionId
  · exact same (by rw [acquireLease, if_pos hrefused])
  by_cases hempty : clientId = "" ∨ sessionId = 0
  · exact same (by rw [acquireLease, if_neg hrefused, LeaseManager.acquire, if_pos hempty])
  by_cases hheld : s.leases.status.clientId ≠ "" ∨ s.leases.pendingId ≠ 0 ∨
      s.leases.status.owner = .web
  · exact same (by
      rw [acquireLease, if_neg hrefused, LeaseManager.acquire, if_neg hempty, if_pos hheld])
  simp only [not_or, not_not] at hrefused hempty
  refine .asked clientId sessionId rfl ?_ hempty.1 hempty.2 ?_ ?_ <;>
    simp [acquireLease, LeaseManager.acquire, LeaseManager.nextRequest, *]

theorem disable_effect {op : ServiceOp} {t : Service} {status : LeaseStatus}
    (hleases : t.leases = { (s.leases.nextRequest s.leases.status.sessionId false).2 with status })
    (howner : status.owner = .transitioning) (hsession : status.sessionId = s.leases.status.sessionId)
    (hring : t.ring = s.ring) : Effect s op t := by
  refine .ended ?_ ?_
  · unfold Live
    rw [hleases]
    rintro (hweb | ⟨-, henable⟩)
    · exact absurd (howner.symm.trans hweb) (by decide)
    · cases henable
  · rw [hleases, hring]
    show status.sessionId = 0 ∨ status.sessionId = s.ring.sessionId
    rw [hsession]
    exact hs.session

theorem not_live_of_disable (hpending : s.leases.pendingId ≠ 0)
    (henable : ¬s.leases.pendingEnable = true) : ¬s.Live := by
  rintro (hweb | ⟨-, h⟩)
  · exact hpending (hs.held hweb)
  · exact henable h

theorem disconnectLease_effect (clientId : String) :
    Effect s (.disconnectLease clientId) (s.disconnectLease clientId).2 := by
  by_cases hclosed : s.closed = true
  · have h : s.disconnectLease clientId = (.error (.ring .closed), s) := by
      rw [disconnectLease, if_pos hclosed]
    refine .same (by rw [h]; exact .refl s) ?_
    rw [interrupts, h]
    rfl
  by_cases hidle : clientId = "" ∨ s.leases.status.clientId ≠ clientId ∨
      s.leases.status.sessionId = 0
  · have h : s.disconnectLease clientId = (.error (.lease .leaseNotActive), s) := by
      rw [disconnectLease, if_neg hclosed, LeaseManager.disconnect, if_pos hidle]
      rfl
    refine .same (by rw [h]; exact .refl s) ?_
    rw [interrupts, h]
    rfl
  by_cases hpending : s.leases.pendingId ≠ 0 ∧ ¬s.leases.pendingEnable = true
  · have h : (s.disconnectLease clientId).2 = s := by
      rw [disconnectLease, if_neg hclosed, LeaseManager.disconnect, if_neg hidle, if_pos hpending]
    rw [h]
    exact .ended (not_live_of_disable hs hpending.1 hpending.2) hs.session
  · have h : (s.disconnectLease clientId).2.leases =
        { (s.leases.nextRequest s.leases.status.sessionId false).2 with
          status := { s.leases.status with owner := .transitioning, expiresAt := 0 } } := by
      rw [disconnectLease, if_neg hclosed, LeaseManager.disconnect, if_neg hidle, if_neg hpending]
      rfl
    refine disable_effect hs h rfl rfl ?_
    rw [disconnectLease, if_neg hclosed]

omit hs in
theorem heartbeatLease_effect (clientId : String) (leaseId : UInt64) (now : ℤ) :
    Effect s (.heartbeatLease clientId leaseId now) (s.heartbeatLease clientId leaseId now).2 := by
  have h : SameLease s (s.heartbeatLease clientId leaseId now).2 := by
    unfold heartbeatLease LeaseManager.heartbeat
    split_ifs
    · exact .refl s
    · exact .refl s
    · exact ⟨rfl, rfl, rfl, rfl, rfl, rfl, rfl⟩
  exact .same h (quiet_of_session h.ring)

theorem expireLease_effect (now : ℤ) : Effect s (.expireLease now) (s.expireLease now).2 := by
  have same : s.expireLease now = (none, s) → Effect s (.expireLease now) (s.expireLease now).2 := by
    intro h
    refine .same (by rw [h]; exact .refl s) ?_
    rw [interrupts, h]
    rfl
  by_cases hclosed : s.closed = true
  · exact same (by rw [expireLease, if_pos hclosed])
  by_cases hearly : s.leases.status.owner ≠ .web ∨ s.leases.status.expiresAt = 0 ∨
      now < s.leases.status.expiresAt
  · exact same (by rw [expireLease, if_neg hclosed, LeaseManager.expire, if_pos hearly])
  · have h : (s.expireLease now).2.leases =
        { (s.leases.nextRequest s.leases.status.sessionId false).2 with
          status := { s.leases.status with owner := .transitioning, expiresAt := 0 } } := by
      rw [expireLease, if_neg hclosed, LeaseManager.expire, if_neg hearly]
      rfl
    refine disable_effect hs h rfl rfl ?_
    rw [expireLease, if_neg hclosed]

omit hs in
/-- What an answer of the Deck does to the lease. -/
theorem ownerResult_cases (m : LeaseManager) (result : OwnerResult) (accepted : Bool) (now : ℤ) :
    let answer := if accepted then m.applyOwnerResult result now else m.applyOwnerRejection result
    answer = (some .staleOwnerResult, m) ∨
    (∃ owner, owner ≠ .web ∧ answer = (none, m.settle { sessionId := result.sessionId, owner })) ∨
    (accepted = true ∧ m.pendingId ≠ 0 ∧ m.pendingEnable = true ∧
      result.requestId = m.pendingId ∧ result.sessionId = m.status.sessionId ∧
      result.owner = .web ∧ result.leaseId ≠ 0 ∧
      answer = (none, m.settle { m.status with
        owner := .web
        leaseId := result.leaseId
        expiresAt := now + m.ttl })) := by
  intro answer
  by_cases hstale : m.pendingId = 0 ∨ result.sessionId ≠ m.status.sessionId ∨
      result.requestId ≠ m.pendingId
  · left
    cases accepted <;> simp only [answer, LeaseManager.applyOwnerResult,
      LeaseManager.applyOwnerRejection, if_pos hstale] <;> rfl
  cases accepted with
  | false =>
    right
    left
    by_cases husb : result.owner = .usb ∧ result.leaseId = 0
    · refine ⟨.usb, by decide, ?_⟩
      show m.applyOwnerRejection result = _
      rw [LeaseManager.applyOwnerRejection, if_neg hstale, if_pos husb]
    · refine ⟨.unavailable, by decide, ?_⟩
      show m.applyOwnerRejection result = _
      rw [LeaseManager.applyOwnerRejection, if_neg hstale, if_neg husb]
  | true =>
    have hanswer : answer = m.applyOwnerResult result now := rfl
    rw [LeaseManager.applyOwnerResult, if_neg hstale] at hanswer
    by_cases henable : m.pendingEnable = true
    · rw [if_pos henable] at hanswer
      by_cases hbad : result.owner ≠ .web ∨ result.leaseId = 0
      · exact .inl (by rw [hanswer, if_pos hbad])
      · rw [if_neg hbad] at hanswer
        simp only [not_or, not_not] at hstale hbad
        exact .inr (.inr ⟨rfl, hstale.1, henable, hstale.2.2, hstale.2.1, hbad.1, hbad.2, hanswer⟩)
    · rw [if_neg henable] at hanswer
      by_cases hbad : result.owner ≠ .usb ∨ result.leaseId ≠ 0
      · exact .inl (by rw [hanswer, if_pos hbad])
      · rw [if_neg hbad] at hanswer
        exact .inr (.inl ⟨.usb, by decide, hanswer⟩)

omit hs in
theorem applyOwnerResult_effect (deviceId : String) (result : OwnerResult) (accepted : Bool)
    (now : ℤ) : Effect s (.applyOwnerResult deviceId result accepted now)
      (s.applyOwnerResult deviceId result accepted now).2 := by
  have same : (s.applyOwnerResult deviceId result accepted now).2 = s →
      Effect s (.applyOwnerResult deviceId result accepted now)
        (s.applyOwnerResult deviceId result accepted now).2 := by
    intro h
    refine .same (by rw [h]; exact .refl s) (quiet_of_session ?_)
    rw [step, h]
  by_cases hrefused : s.closed ∨ deviceId = "" ∨ deviceId ≠ s.deviceId ∨ result.sessionId = 0 ∨
      result.sessionId ≠ s.ring.sessionId
  · exact same (by rw [applyOwnerResult, if_pos hrefused])
  have hsession : result.sessionId = s.ring.sessionId := by
    simp only [not_or, not_not] at hrefused
    exact hrefused.2.2.2.2
  rcases ownerResult_cases s.leases result accepted now with
    hanswer | ⟨owner, howner, hanswer⟩ |
      ⟨rfl, hpending, henable, hrequest, hlease, hweb, hnonzero, hanswer⟩
  · exact same (by rw [applyOwnerResult, if_neg hrefused, hanswer])
  · have h : s.applyOwnerResult deviceId result accepted now =
        (none, { s with
          leases := s.leases.settle { sessionId := result.sessionId, owner }
          state := ownerState s.state result.owner }) := by
      rw [applyOwnerResult, if_neg hrefused, hanswer]
    rw [h]
    exact .ended (not_live_settle _ howner rfl) (.inr hsession)
  · have h : s.applyOwnerResult deviceId result true now =
        (none, { s with
          leases := s.leases.settle { s.leases.status with
            owner := .web
            leaseId := result.leaseId
            expiresAt := now + s.leases.ttl }
          state := ownerState s.state result.owner }) := by
      rw [applyOwnerResult, if_neg hrefused, hanswer]
    refine .granted deviceId result now rfl (by rw [h]) ⟨hpending, henable⟩ hrequest hlease hweb
      hnonzero (by rw [h]) (by rw [h])

omit hs in
theorem claimOwnerRequestAttempt_effect (requestId : UInt64) (minimumInterval now : ℤ) :
    Effect s (.claimOwnerRequestAttempt requestId minimumInterval now)
      (s.claimOwnerRequestAttempt requestId minimumInterval now).2 := by
  have h : SameLease s (s.claimOwnerRequestAttempt requestId minimumInterval now).2 := by
    unfold claimOwnerRequestAttempt LeaseManager.claimRequestAttempt
    split_ifs
    · exact .refl s
    · exact .refl s
    · exact .refl s
    · exact ⟨rfl, rfl, rfl, rfl, rfl, rfl, rfl⟩
  exact .same h (quiet_of_session h.ring)

theorem requireOwnerRevocation_effect (deviceId : String) :
    Effect s (.requireOwnerRevocation deviceId) (s.requireOwnerRevocation deviceId).2 := by
  have same : s.requireOwnerRevocation deviceId = (none, s) →
      Effect s (.requireOwnerRevocation deviceId) (s.requireOwnerRevocation deviceId).2 := by
    intro h
    refine .same (by rw [h]; exact .refl s) ?_
    rw [interrupts, h]
    rfl
  by_cases hrefused : s.closed ∨ deviceId = "" ∨ deviceId ≠ s.deviceId
  · exact same (by rw [requireOwnerRevocation, if_pos hrefused])
  by_cases hidle : s.ring.sessionId = 0 ∨ (s.state ≠ .webTX ∧ s.leases.status.owner ≠ .web ∧
      s.leases.status.owner ≠ .transitioning)
  · exact same (by rw [requireOwnerRevocation, if_neg hrefused, if_pos hidle])
  have hnonzero : ¬s.ring.sessionId = 0 := fun h => hidle (.inl h)
  by_cases hpending : s.leases.pendingId ≠ 0 ∧ ¬s.leases.pendingEnable = true ∧
      s.leases.status.sessionId = s.ring.sessionId
  · have h : (s.requireOwnerRevocation deviceId).2 = s := by
      rw [requireOwnerRevocation, if_neg hrefused, if_neg hidle, LeaseManager.requireRevocation,
        if_neg hnonzero, if_pos hpending]
    rw [h]
    exact .ended (not_live_of_disable hs hpending.1 hpending.2.1) hs.session
  · have h : (s.requireOwnerRevocation deviceId).2.leases =
        { (s.leases.nextRequest s.ring.sessionId false).2 with
          status := { s.leases.status with
            sessionId := s.ring.sessionId
            owner := .transitioning
            leaseId := 0
            expiresAt := 0 } } := by
      rw [requireOwnerRevocation, if_neg hrefused, if_neg hidle, LeaseManager.requireRevocation,
        if_neg hnonzero, if_neg hpending]
      rfl
    have hring : (s.requireOwnerRevocation deviceId).2.ring = s.ring := by
      rw [requireOwnerRevocation, if_neg hrefused, if_neg hidle]
    refine .ended ?_ (.inr (by rw [h, hring]))
    unfold Live
    rw [h]
    rintro (hweb | ⟨-, henable⟩)
    · cases hweb
    · cases henable

omit hs in
theorem markOwnerUnavailable_effect : Effect s .markOwnerUnavailable s.markOwnerUnavailable := by
  by_cases hclosed : s.closed = true
  · have h : s.markOwnerUnavailable = s := by rw [markOwnerUnavailable, if_pos hclosed]
    refine .same (by rw [h]; exact .refl s) ?_
    rw [interrupts, hclosed]
    rfl
  · rw [markOwnerUnavailable, if_neg hclosed]
    exact .ended (not_live_settle _ Owner.noConfusion rfl) (.inr rfl)

theorem close_effect : Effect s .close s.close := by
  by_cases hclosed : s.closed = true
  · have h : s.close = s := by rw [close, if_pos hclosed]
    refine .same (by rw [h]; exact .refl s) (quiet_of_session ?_)
    rw [step, h]
  by_cases hnone : s.ring.sessionId = 0
  · have hleases : s.close.leases = s.leases := by
      rw [close, if_neg hclosed]
      exact if_neg (not_not_intro hnone)
    have hidle : s.leases.status.sessionId = 0 := hs.session.elim id (·.trans hnone)
    refine .ended (fun hlive => ?_) (.inl (by rw [hleases]; exact hidle))
    unfold Live at hlive
    rw [hleases] at hlive
    exact (hs.live hlive).1 hidle
  · have hleases : s.close.leases = s.leases.endSession s.ring.sessionId := by
      rw [close, if_neg hclosed]
      exact if_pos hnone
    obtain ⟨hdead, hidle⟩ := endSession_ended hs hleases
    exact .ended hdead (.inl hidle)

/-- **What a call can do to the lease**. -/
theorem step_cases (op : ServiceOp) : Effect s op (s.step op) := by
  cases op with
  | reconcile deviceId sessionId state => exact reconcile_effect hs deviceId sessionId state
  | ingest deviceId frame => exact ingest_effect deviceId frame
  | buildWebFrame clientId leaseId payload now =>
    exact buildWebFrame_effect clientId leaseId payload now
  | acquireLease clientId sessionId => exact acquireLease_effect clientId sessionId
  | disconnectLease clientId => exact disconnectLease_effect hs clientId
  | heartbeatLease clientId leaseId now => exact heartbeatLease_effect clientId leaseId now
  | expireLease now => exact expireLease_effect hs now
  | applyOwnerResult deviceId result accepted now =>
    exact applyOwnerResult_effect deviceId result accepted now
  | claimOwnerRequestAttempt requestId minimumInterval now =>
    exact claimOwnerRequestAttempt_effect requestId minimumInterval now
  | requireOwnerRevocation deviceId => exact requireOwnerRevocation_effect hs deviceId
  | markOwnerUnavailable => exact markOwnerUnavailable_effect
  | openObserver sessionId =>
    exact .same (.of_leases rfl (openObserver_sessionId _ _))
      (quiet_of_session (openObserver_sessionId _ _))
  | closeObserver id => exact .same (.of_leases rfl rfl) (quiet_of_session rfl)
  | readObserver id maximumBytes maximumFrames =>
    exact .same (.of_leases rfl (readObserver_sessionId _ _ _ _))
      (quiet_of_session (readObserver_sessionId _ _ _ _))
  | close => exact close_effect hs

end Calls

theorem Effect.coupled {s t : Service} {op : ServiceOp} (hs : Coupled s) (h : Effect s op t) :
    Coupled t := by
  cases h with
  | same h _ => exact h.coupled hs
  | ended hdead hsession =>
    exact ⟨hsession, fun hweb => absurd (.inl hweb) hdead, fun hlive => absurd hlive hdead⟩
  | asked clientId sessionId _ _ hclient hnonzero hsession hstatus =>
    refine ⟨.inr ?_, fun hweb => ?_, fun _ => ?_⟩
    · rw [hstatus]
      exact hsession
    · rw [hstatus] at hweb
      cases hweb
    · rw [hstatus]
      exact ⟨hnonzero, hclient⟩
  | granted _ _ _ _ _ hpending _ _ _ _ hleases hring =>
    refine ⟨?_, fun _ => ?_, fun _ => ?_⟩
    · rw [hleases, hring]
      exact hs.session
    · rw [hleases]
      rfl
    · rw [hleases]
      exact hs.live (.inr hpending)

/-! ### Runs -/

theorem run_append (s : Service) (ops : List ServiceOp) (op : ServiceOp) :
    s.run (ops ++ [op]) = (s.run ops).step op := by
  rw [run, List.foldl_append]
  rfl

theorem uninterrupted_append {s : Service} {ops : List ServiceOp} {op : ServiceOp}
    (h : s.Uninterrupted ops) (hop : (s.run ops).interrupts op = false) :
    s.Uninterrupted (ops ++ [op]) := by
  induction ops generalizing s with
  | nil => exact ⟨hop, trivial⟩
  | cons first ops ih => exact ⟨h.1, ih h.2 hop⟩

theorem run_split (s : Service) (before after : List ServiceOp) (op : ServiceOp) :
    s.run (before ++ op :: after) = ((s.run before).step op).run after := by
  rw [run, List.foldl_append]
  rfl

section History

variable {s : Service} {ops : List ServiceOp} {op : ServiceOp} {clientId : String}
  {sessionId requestId leaseId : UInt64}

theorem Requested.append (h : s.Requested ops clientId sessionId requestId)
    (hop : (s.run ops).interrupts op = false) :
    s.Requested (ops ++ [op]) clientId sessionId requestId := by
  obtain ⟨before, after, rfl, hok, hquiet⟩ := h
  rw [run_split] at hop
  exact ⟨before, after ++ [op], by simp, hok, uninterrupted_append hquiet hop⟩

theorem Granted.append (h : s.Granted ops clientId sessionId requestId leaseId)
    (hop : (s.run ops).interrupts op = false) :
    s.Granted (ops ++ [op]) clientId sessionId requestId leaseId := by
  obtain ⟨before, after, deviceId, now, rfl, hrequested, hok, hquiet⟩ := h
  rw [run_split] at hop
  exact ⟨before, after ++ [op], deviceId, now, by simp, hrequested, hok,
    uninterrupted_append hquiet hop⟩

end History

/-- The invariant of a run: a waiting request and a held lease have their history. -/
structure LeaseInv (s : Service) (ops : List ServiceOp) : Prop where
  coupled : Coupled (s.run ops)
  requested : (s.run ops).leases.pendingId ≠ 0 → (s.run ops).leases.pendingEnable = true →
    let lease := (s.run ops).leases
    s.Requested ops lease.status.clientId lease.status.sessionId lease.pendingId
  granted : (s.run ops).leases.status.owner = .web →
    let lease := (s.run ops).leases
    ∃ requestId,
      s.Granted ops lease.status.clientId lease.status.sessionId requestId lease.status.leaseId

theorem leaseInv_new (ring : Ring) (leaseTTL started : ℤ) :
    LeaseInv (.new ring leaseTTL started) [] := by
  have hidle : ¬(Service.new ring leaseTTL started).Live := by
    rintro (hweb | ⟨hpending, -⟩)
    · cases hweb
    · exact hpending rfl
  exact
    { coupled := ⟨.inl rfl, fun _ => rfl, fun hlive => absurd hlive hidle⟩
      requested := fun hpending _ => absurd rfl hpending
      granted := fun hweb => absurd (.inl hweb) hidle }

theorem leaseInv_step {s : Service} {ops : List ServiceOp} (hi : LeaseInv s ops)
    (op : ServiceOp) : LeaseInv s (ops ++ [op]) := by
  have heffect := step_cases hi.coupled op
  rw [← run_append] at heffect
  have hcoupled := heffect.coupled hi.coupled
  cases heffect with
  | same h hquiet =>
    refine ⟨hcoupled, ?_, ?_⟩
    · intro hpending henable
      dsimp only
      rw [h.pending] at hpending
      rw [h.enable] at henable
      rw [h.client, h.session, h.pending]
      exact (hi.requested hpending henable).append hquiet
    · intro hweb
      dsimp only
      rw [h.owner] at hweb
      rw [h.client, h.session, h.lease]
      obtain ⟨requestId, hgranted⟩ := hi.granted hweb
      exact ⟨requestId, hgranted.append hquiet⟩
  | ended hdead hsession =>
    exact ⟨hcoupled, fun hpending henable => absurd (.inr ⟨hpending, henable⟩) hdead,
      fun hweb => absurd (.inl hweb) hdead⟩
  | asked clientId sessionId hop hok hclient hnonzero hsession hstatus =>
    have hweb : ¬(s.run (ops ++ [op])).leases.status.owner = .web := by
      rw [hstatus]
      exact Owner.noConfusion
    refine ⟨hcoupled, fun _ _ => ?_, fun h => absurd h hweb⟩
    dsimp only
    rw [hstatus]
    exact ⟨ops, [], by rw [hop], hok, trivial⟩
  | granted deviceId result now hop hok hpending hrequest hsession howner hnonzero hleases hring =>
    have hnone : (s.run (ops ++ [op])).leases.pendingId = 0 := by
      rw [hleases]
      rfl
    refine ⟨hcoupled, fun h => absurd hnone h, fun _ => ?_⟩
    obtain ⟨sessionId, requestId, owner, leaseId⟩ := result
    subst howner
    dsimp only at hrequest hsession
    subst hrequest
    rw [hleases]
    dsimp only [LeaseManager.settle]
    rw [← hsession]
    refine ⟨s.run ops |>.leases.pendingId, ops, [], deviceId, now, by rw [hop], ?_, hok, trivial⟩
    rw [hsession]
    exact hi.requested hpending.1 hpending.2

theorem leaseInv_run (ring : Ring) (leaseTTL started : ℤ) (ops : List ServiceOp) :
    LeaseInv (.new ring leaseTTL started) ops := by
  induction ops using List.reverseRecOn with
  | nil => exact leaseInv_new ring leaseTTL started
  | append_singleton ops op ih => exact leaseInv_step ih op

/-! ### Lease safety -/

theorem buildWebFrame_ok {s : Service} {clientId : String} {leaseId : UInt64}
    {payload : List UInt8} {now : ℤ} {device : String} {frame : Frame}
    (h : (s.buildWebFrame clientId leaseId payload now).1 = .ok (device, frame)) :
    s.leases.status.owner = .web ∧ s.leases.status.clientId = clientId ∧
      s.leases.status.leaseId = leaseId ∧ frame.sessionId = s.leases.status.sessionId := by
  unfold buildWebFrame at h
  dsimp only at h
  split_ifs at h with hclosed hrefused
  simp only [not_or, not_not] at hrefused
  obtain ⟨-, -, howner, hclient, -, hlease, -⟩ := hrefused
  have hframe := (Prod.mk.inj (Except.ok.inj h)).2
  exact ⟨howner, hclient, hlease, by rw [← hframe]⟩

theorem Holds.client {s : Service} {clientId : String} (h : s.Holds clientId) :
    s.leases.status.clientId = clientId ∧ s.Live := by
  rcases h with ⟨leaseId, payload, now, hok⟩ | ⟨leaseId, now, hok⟩ | ⟨request, hpending, henable⟩
  · cases hframe : (s.buildWebFrame clientId leaseId payload now).1 with
    | error e =>
      rw [hframe] at hok
      cases hok
    | ok frame =>
      have hbuilt := buildWebFrame_ok hframe
      exact ⟨hbuilt.2.1, .inl hbuilt.1⟩
  · unfold heartbeatLease LeaseManager.heartbeat at hok
    split_ifs at hok with hclosed hrefused
    · cases hok
    · cases hok
    · simp only [not_or, not_not] at hrefused
      exact ⟨hrefused.2.1, .inl hrefused.1⟩
  · unfold pendingOwnerRequest LeaseManager.pendingRequest at hpending
    split_ifs at hpending with hclosed hnone
    obtain ⟨rfl, rfl⟩ := Prod.mk.inj (Option.some.inj hpending)
    exact ⟨rfl, .inr ⟨hnone, henable⟩⟩

theorem acquireLease_ok {s : Service} {clientId : String} {sessionId : UInt64}
    {request : OwnerRequest} (h : (s.acquireLease clientId sessionId).1 = .ok request) :
    ¬s.Live := by
  unfold acquireLease LeaseManager.acquire at h
  split_ifs at h with hrefused hempty hheld
  rintro (hweb | ⟨hpending, -⟩)
  · exact hheld (.inr (.inr hweb))
  · exact hheld (.inr (.inl hpending))

theorem applyOwnerResult_other {s : Service} {result : OwnerResult}
    (h : s.leases.pendingId = 0 ∨ result.requestId ≠ s.leases.pendingId ∨
      result.sessionId ≠ s.leases.status.sessionId) (deviceId : String) (accepted : Bool)
    (now : ℤ) : (s.applyOwnerResult deviceId result accepted now).2 = s := by
  have hstale : s.leases.pendingId = 0 ∨ result.sessionId ≠ s.leases.status.sessionId ∨
      result.requestId ≠ s.leases.pendingId := by
    rcases h with hnone | hrequest | hsession
    · exact .inl hnone
    · exact .inr (.inr hrequest)
    · exact .inr (.inl hsession)
  unfold applyOwnerResult
  split_ifs
  · rfl
  · rw [LeaseManager.applyOwnerResult, if_pos hstale]
  · rw [LeaseManager.applyOwnerRejection, if_pos hstale]

/-- **Lease safety** in every run of the service.  At most one client holds the lease or waits for
it, and another one can ask only once nobody does.  A client that can build a frame was granted the
session and the lease of that frame, by an answer to its own request, with no disconnect, expiry,
revocation or change of session since.  An answer to another request or of another session changes
nothing, and the lease is of the ring's session or of none. -/
theorem lease_safety (ring : Ring) (leaseTTL started : ℤ) (ops : List ServiceOp) :
    let first := Service.new ring leaseTTL started
    let s := first.run ops
    (∀ clientId clientId', s.Holds clientId → s.Holds clientId' → clientId = clientId') ∧
    (∀ clientId sessionId request, (s.acquireLease clientId sessionId).1 = .ok request →
      ∀ clientId', ¬s.Holds clientId') ∧
    (∀ clientId leaseId payload now device frame,
      (s.buildWebFrame clientId leaseId payload now).1 = .ok (device, frame) →
      ∃ requestId, first.Granted ops clientId frame.sessionId requestId leaseId) ∧
    (∀ result : OwnerResult, s.leases.pendingId = 0 ∨ result.requestId ≠ s.leases.pendingId ∨
      result.sessionId ≠ s.leases.status.sessionId →
      ∀ deviceId accepted now, (s.applyOwnerResult deviceId result accepted now).2 = s) ∧
    (s.leases.status.sessionId = 0 ∨ s.leases.status.sessionId = s.ring.sessionId) := by
  intro first s
  have hi : LeaseInv first ops := leaseInv_run ring leaseTTL started ops
  refine ⟨?_, ?_, ?_, fun result => applyOwnerResult_other, hi.coupled.session⟩
  · intro clientId clientId' h h'
    exact h.client.1.symm.trans h'.client.1
  · intro clientId sessionId request hok clientId' h
    exact acquireLease_ok hok h.client.2
  · intro clientId leaseId payload now device frame hok
    obtain ⟨hweb, hclient, hlease, hsession⟩ := buildWebFrame_ok hok
    obtain ⟨requestId, hgranted⟩ := hi.granted hweb
    rw [hsession, ← hclient, ← hlease]
    exact ⟨requestId, hgranted⟩

/-- A client asks, the Deck answers, and the client's bytes are framed. -/
example :
    let ring : Ring := { capacityBytes := 1, maximumObservers := 1, records := .empty 1 .zero }
    let s := (Service.new ring 0 0).run [.reconcile "deck" 7 .usbTX, .acquireLease "page" 7,
      .applyOwnerResult "deck" ⟨7, 1, .web, 3⟩ true 5]
    (s.buildWebFrame "page" 3 [0] 5).1.isOk = true := by decide

end Service

end RlcdDeck.SerialHub
