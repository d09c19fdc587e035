import RlcdDeck.SerialControl.Equiv.WebInput

/-!
# Owner requests and their answers

The Deck tracks one owner request at a time and drops the link on a second one, and the Companion
waits for the answer to one request and closes the connection on any other.  The two agree as long
as a request is answered before the next one is made (`orderly`): then there is never more than
one exchange under way, the Deck is in the session it is about until the answer has arrived, and
the answer is one the Companion takes (`Exchange`).

A client that disconnects before its request for the lease was answered breaks this
(`overtaken_request`): the Companion replaces the request by its revocation at once.
-/

namespace RlcdDeck.SerialControl

open Counter SerialSession SerialHub CompanionLink

/-! ### The Companion's service -/

/-- The service is open and has a session only of the one Deck. -/
structure Bound (deviceId : String) (t : Service) : Prop where
  opened : t.closed = false ∧ t.ring.closed = false
  device : t.deviceId = "" ∨ t.deviceId = deviceId
  ring : t.ring.sessionId ≠ 0 → t.deviceId = deviceId ∧ deviceId ≠ ""
  pending : t.leases.pendingId ≠ 0 → t.leases.status.sessionId ≠ 0

/-- The Companion waits for the answer to this request. -/
structure Waits (t : Service) (deviceId : String) (q : OwnerRequest) : Prop where
  device : t.deviceId = deviceId ∧ deviceId ≠ ""
  ring : t.ring.sessionId = q.sessionId
  nonzero : q.sessionId ≠ 0 ∧ q.requestId ≠ 0
  session : t.leases.status.sessionId = q.sessionId
  pending : t.leases.pendingId = q.requestId
  enable : t.leases.pendingEnable = q.enable

variable {q : OwnerRequest}

section Service

variable {deviceId : String} {t : Service}

theorem Bound.of_leases (h : Bound deviceId t) {u : Service} (hclosed : u.closed = t.closed)
    (hdevice : u.deviceId = t.deviceId) (hring : u.ring = t.ring)
    (hpending : u.leases.pendingId ≠ 0 → u.leases.status.sessionId ≠ 0) : Bound deviceId u where
  opened := by rw [hclosed, hring]; exact h.opened
  device := by rw [hdevice]; exact h.device
  ring := by rw [hring, hdevice]; exact h.ring
  pending := hpending

theorem bound_acquireLease (h : Bound deviceId t) (clientId : String) (sessionId : UInt64) :
    Bound deviceId (t.acquireLease clientId sessionId).2 := by
  unfold Service.acquireLease LeaseManager.acquire
  split_ifs with hrefused hempty hheld
  · exact h
  · exact h
  · exact h
  · refine h.of_leases rfl rfl rfl fun _ => ?_
    exact fun hzero => hempty (.inr hzero)

theorem bound_disconnectLease (h : Bound deviceId t) (clientId : String) :
    Bound deviceId (t.disconnectLease clientId).2 := by
  unfold Service.disconnectLease LeaseManager.disconnect
  split_ifs with hclosed hidle hpending
  · exact h
  · exact h
  · exact h
  · refine h.of_leases rfl rfl rfl fun _ => ?_
    exact fun hzero => hidle (.inr (.inr hzero))

theorem bound_expireLease (h : Bound deviceId t) (hc : t.Coupled) (now : ℤ) :
    Bound deviceId (t.expireLease now).2 := by
  unfold Service.expireLease LeaseManager.expire
  split_ifs with hclosed hidle
  · exact h
  · exact h
  · simp only [not_or, not_not] at hidle
    exact h.of_leases rfl rfl rfl fun _ => (hc.live (.inl hidle.1)).1

theorem bound_claim (h : Bound deviceId t) (requestId : UInt64) (minimumInterval now : ℤ) :
    Bound deviceId (t.claimOwnerRequestAttempt requestId minimumInterval now).2 := by
  unfold Service.claimOwnerRequestAttempt LeaseManager.claimRequestAttempt
  split_ifs
  · exact h
  · exact h
  · exact h
  · exact h.of_leases rfl rfl rfl h.pending

theorem bound_buildWebFrame (h : Bound deviceId t) (clientId : String) (leaseId : UInt64)
    (payload : List UInt8) (now : ℤ) :
    Bound deviceId (t.buildWebFrame clientId leaseId payload now).2 := by
  unfold Service.buildWebFrame
  dsimp only
  split_ifs
  · exact h
  · exact h
  · exact h.of_leases rfl rfl rfl h.pending

theorem bound_requireOwnerRevocation (h : Bound deviceId t) :
    Bound deviceId (t.requireOwnerRevocation deviceId).2 := by
  unfold Service.requireOwnerRevocation LeaseManager.requireRevocation
  split_ifs with hrefused hidle hzero hpending
  · exact h
  · exact h
  · exact h
  · exact h
  · exact h.of_leases rfl rfl rfl fun _ => hzero

theorem bound_applyOwnerResult (h : Bound deviceId t) (result : OwnerResult) (accepted : Bool)
    (now : ℤ) : Bound deviceId (t.applyOwnerResult deviceId result accepted now).2 := by
  unfold Service.applyOwnerResult
  split
  · exact h
  rcases Service.ownerResult_cases t.leases result accepted now with
    hanswer | ⟨owner, -, hanswer⟩ | ⟨-, -, -, -, -, -, -, hanswer⟩
  · rw [hanswer]
    exact h
  · rw [hanswer]
    exact h.of_leases rfl rfl rfl fun hne => absurd rfl hne
  · rw [hanswer]
    exact h.of_leases rfl rfl rfl fun hne => absurd rfl hne

theorem pending_endSession {m : LeaseManager} (h : m.pendingId ≠ 0 → m.status.sessionId ≠ 0)
    (sessionId : UInt64) :
    (m.endSession sessionId).pendingId ≠ 0 → (m.endSession sessionId).status.sessionId ≠ 0 := by
  unfold LeaseManager.endSession
  split
  · exact fun hne => absurd rfl hne
  · exact h

theorem bound_confirmState (h : Bound deviceId t) (sessionId previousSessionId : UInt64)
    (previousState state : State) :
    Bound deviceId (t.confirmState sessionId previousSessionId previousState state) := by
  unfold Service.confirmState
  split_ifs
  · exact h.of_leases rfl rfl rfl h.pending
  · exact h.of_leases rfl rfl rfl fun hne => absurd rfl hne
  · exact h

theorem bound_reconcile (h : Bound deviceId t) (sessionId : UInt64) (state : State) :
    Bound deviceId (t.reconcile deviceId sessionId state).2 := by
  unfold Service.reconcile
  split_ifs with hclosed hnamed hdisarmed hzero hbusy
  · exact h
  · exact h
  · unfold Service.reconcileDisarmed
    split_ifs with hid hother
    · exact h
    · exact h
    dsimp only
    split_ifs with hactive
    · cases hend : t.ring.endSession t.ring.sessionId with
      | mk error ring =>
        cases error with
        | some error => exact h
        | none =>
          unfold Ring.endSession at hend
          rw [if_neg (by simp [h.opened.2]), if_neg (by simp [hactive])] at hend
          cases hend
          exact ⟨h.opened, .inl rfl, fun hne => absurd rfl hne, pending_endSession h.pending _⟩
    · exact ⟨h.opened, .inl rfl, fun hne => absurd hne hactive, h.pending⟩
  · exact h
  · exact h
  · dsimp only
    cases hbegin : t.ring.begin sessionId with
    | mk error ring =>
      cases error with
      | some error => exact h
      | none =>
        have hopen : ring.closed = false := by
          unfold Ring.begin at hbegin
          rw [if_neg (by simp [h.opened.2]), if_neg hzero] at hbegin
          split at hbegin
          · cases hbegin
            exact h.opened.2
          · cases hbegin
            exact h.opened.2
        generalize hleases : (if t.ring.sessionId ≠ 0 ∧ t.ring.sessionId ≠ sessionId then
          t.leases.endSession t.ring.sessionId else t.leases) = leases
        have hpending : leases.pendingId ≠ 0 → leases.status.sessionId ≠ 0 := by
          rw [← hleases]
          split
          · exact pending_endSession h.pending _
          · exact h.pending
        apply bound_confirmState
        exact ⟨⟨h.opened.1, hopen⟩, .inr rfl, fun _ => ⟨rfl, hnamed⟩, hpending⟩

theorem reconcile_waits (h : Bound deviceId t) {q : OwnerRequest} (hwaits : Waits t deviceId q)
    {state : State} (hstate : state ≠ .disarmed) :
    (t.reconcile deviceId q.sessionId state).1 = none ∧
      Waits (t.reconcile deviceId q.sessionId state).2 deviceId q := by
  have hbegin : t.ring.begin q.sessionId = (none, t.ring) := by
    rw [Ring.begin, if_neg (by simp [h.opened.2]), if_neg hwaits.nonzero.1, if_pos hwaits.ring]
  have hpending : t.leases.pendingRequest.isSome = true := by
    rw [LeaseManager.pendingRequest, if_neg (hwaits.pending ▸ hwaits.nonzero.2)]
    rfl
  unfold Service.reconcile
  rw [if_neg (by simp [h.opened.1]), if_neg hwaits.device.2, if_neg hstate,
    if_neg hwaits.nonzero.1, if_neg (fun hbusy => hbusy.2 hwaits.device.1)]
  dsimp only
  rw [hbegin]
  dsimp only
  rw [if_neg (fun hne => hne.2 hwaits.ring)]
  refine ⟨rfl, ?_⟩
  unfold Service.confirmState
  by_cases husb : state = .usbTX
  · rw [if_pos husb, if_pos ⟨hwaits.ring, hpending⟩]
    exact ⟨⟨rfl, hwaits.device.2⟩, hwaits.ring, hwaits.nonzero, hwaits.session, hwaits.pending,
      hwaits.enable⟩
  · rw [if_neg husb]
    exact ⟨⟨rfl, hwaits.device.2⟩, hwaits.ring, hwaits.nonzero, hwaits.session, hwaits.pending,
      hwaits.enable⟩

theorem Waits.unique {p : OwnerRequest} (hp : Waits t deviceId p) (hq : Waits t deviceId q) :
    p = q := by
  obtain ⟨sessionId, requestId, enable⟩ := q
  obtain ⟨sessionId', requestId', enable'⟩ := p
  have h₁ := hp.session.symm.trans hq.session
  have h₂ := hp.pending.symm.trans hq.pending
  have h₃ := hp.enable.symm.trans hq.enable
  dsimp only at h₁ h₂ h₃
  rw [h₁, h₂, h₃]

end Service

namespace System

variable {σ : Type*} (hw : HardwareAdapter σ)

/-! ### The condition -/

/-- A request that the Deck has not answered on the connection. -/
def unanswered (s : System σ) : ToDeck → Bool
  | .request _ q => q.requestId ∉ s.answered
  | .frame _ _ => false

def isResult : ToCompanion → Bool
  | .result _ _ => true
  | .state _ _ => false

/-- A request is under way and its answer has not arrived. -/
def outstanding (s : System σ) : Bool :=
  s.toDeck.any s.unanswered || s.requests.pending || s.toCompanion.any isResult

/-- An announcement is of this session. -/
def announces (sessionId : UInt64) : ToCompanion → Bool
  | .state id state => id = sessionId && state ≠ .disarmed
  | .result _ _ => true

/-- The Deck is in the session and shows it. -/
def armedIn (s : System σ) (sessionId : UInt64) : Bool :=
  s.device.session.state ≠ .disarmed && s.device.session.sessionId = sessionId &&
    s.snapshot.state ≠ .disarmed && s.snapshot.sessionId = sessionId

/-- A request is written while the Companion waits for it and the Deck is in its session, with no
announcement of another one on the way. -/
def timely (s : System σ) : ToDeck → Bool
  | .frame _ _ => true
  | .request _ q =>
    !(s.companionUp && s.deckUp) ||
      (s.service.pendingOwnerRequest.map Prod.fst = some q && s.armedIn q.sessionId &&
        s.toCompanion.all (announces q.sessionId))

/-- A request is answered before the next one is made, the Deck stays in its session until then,
and no copy of it comes after its answer. -/
def orderly (s : System σ) (event : Event) : Bool :=
  s.freshIds event &&
    match event with
    | .disconnect clientId =>
      !(s.companionUp && s.outstanding && s.service.leases.pendingEnable &&
        s.service.leases.status.clientId = clientId)
    | .write index => (s.outbox[index]?).all s.timely
    | .receive _ =>
      s.toDeck.head?.all fun
        | .request x q => s.unanswered (.request x q)
        | .frame _ _ => true
    | .session (.exit _) => !s.outstanding
    | _ => true

/-- Every step of the run is `orderly`. -/
def allOrderly (s : System σ) : List Event → Bool
  | [] => true
  | event :: events => s.orderly event && allOrderly (step hw s event) events

/-! ### The invariant -/

/-- An answer the Companion takes. -/
structure Fits (q : OwnerRequest) (r : WireResult) : Prop where
  request : r.requestId = q.requestId
  session : r.sessionId = q.sessionId
  armed : r.state ≠ .disarmed
  lease : r.leaseId ≠ 0 ↔ r.state = .webTX
  owner : r.accepted = true → r.state = if q.enable then .webTX else .usbTX

/-- The tracked request, its command and its results are those of `q`. -/
def Tracks (s : System σ) (q : OwnerRequest) : Prop :=
  s.requests.externalRequestId = q.requestId ∧
    (∀ c, s.command = some c → c.sessionId = q.sessionId ∧ c.enable = q.enable) ∧
    ∀ r, s.HasResult r → r.requestId = s.requests.serviceRequestId →
      Fits q (wireResult q.requestId r)

/-- The Companion waits for `q`, and will not hear of another session before its answer. -/
def Listens (s : System σ) (q : OwnerRequest) : Prop :=
  Waits s.service s.deviceId q ∧ s.toCompanion.all (announces q.sessionId) = true

/-- Nothing is under way. -/
structure Idle (s : System σ) : Prop where
  wire : ∀ m ∈ s.toDeck, s.unanswered m = false
  tracker : s.requests.pending = false
  results : ∀ m ∈ s.toCompanion, isResult m = false

/-- The request `q` is on its way to the Deck or in it. -/
structure Asked (s : System σ) (q : OwnerRequest) : Prop where
  up : s.deckUp = true
  busy : s.requests.pending = true ∨ ∃ m ∈ s.toDeck, s.unanswered m = true
  wire : ∀ x p, .request x p ∈ s.toDeck → s.unanswered (.request x p) = true → p = q
  id : q.requestId ≠ 0 ∧ q.requestId ∉ s.answered
  armed : s.armedIn q.sessionId = true
  tracker : s.requests.pending = true → s.Tracks q
  results : ∀ m ∈ s.toCompanion, isResult m = false
  listens : s.companionUp = true → s.Listens q

/-- The answer to `q` is on its way to the Companion. -/
structure Answered (s : System σ) (q : OwnerRequest) : Prop where
  up : s.companionUp = true
  wire : ∀ m ∈ s.toDeck, s.unanswered m = false
  tracker : s.requests.pending = false
  id : q.requestId ∈ s.answered
  armed : s.armedIn q.sessionId = true
  listens : s.Listens q
  result : ∃ before x r after, s.toCompanion = before ++ .result x r :: after ∧ Fits q r ∧
    (∀ m ∈ before, isResult m = false) ∧ ∀ m ∈ after, isResult m = false

/-- At most one exchange is under way. -/
inductive Exchange (s : System σ) : Prop
  | idle (h : s.Idle)
  | asked (q : OwnerRequest) (h : s.Asked q)
  | answered (q : OwnerRequest) (h : s.Answered q)

structure OwnerInv (s : System σ) : Prop where
  bound : Bound s.deviceId s.service
  coupled : Service.Coupled s.service
  session : WellFormed s.device.session
  deckDown : s.deckUp = false → s.requests.pending = false
  companionDown : s.companionUp = false → s.toCompanion = []
  command : ∀ c, s.command = some c → s.requests.pending = true ∧ c.requestId ≠ 0 ∧
    c.requestId = s.requests.serviceRequestId ∧ ∀ r, s.HasResult r → r.requestId ≠ c.requestId
  tracker : s.requests.pending = true → s.requests.serviceRequestId ≠ 0
  exchange : s.Exchange
  refused : s.refused = []

theorem Exchange.map {s t : System σ} (h : s.Exchange) (hidle : s.Idle → t.Idle)
    (hasked : ∀ q, s.Asked q → t.Asked q) (hanswered : ∀ q, s.Answered q → t.Answered q) :
    t.Exchange := by
  cases h with
  | idle h => exact .idle (hidle h)
  | asked q h => exact .asked q (hasked q h)
  | answered q h => exact .answered q (hanswered q h)

theorem Asked.outstanding {s : System σ} (h : s.Asked q) :
    s.outstanding = true := by
  unfold System.outstanding
  rcases h.busy with hpending | ⟨m, hm, hbusy⟩
  · simp [hpending]
  · simp [List.any_eq_true.mpr ⟨m, hm, hbusy⟩]

theorem Answered.outstanding {s : System σ} (h : s.Answered q) :
    s.outstanding = true := by
  obtain ⟨before, x, r, after, hwire, -⟩ := h.result
  unfold System.outstanding
  rw [hwire]
  simp [isResult]

/-! ### The Companion's calls -/

theorem OwnerInv.of_service {s : System σ} (h : OwnerInv s) {t : Service}
    (hbound : Bound s.deviceId t) (hcoupled : Service.Coupled t)
    (hwaits : s.companionUp = true → s.outstanding = true → ∀ q,
      Waits s.service s.deviceId q → Waits t s.deviceId q) :
    OwnerInv { s with service := t } :=
  { h with
    bound := hbound
    coupled := hcoupled
    exchange := h.exchange.map (fun hi => { hi with })
      (fun q ha =>
        { ha with
          listens := fun hup =>
            ⟨hwaits hup ha.outstanding q (ha.listens hup).1, (ha.listens hup).2⟩ })
      (fun q ha =>
        { ha with
          listens := ⟨hwaits ha.up ha.outstanding q ha.listens.1, ha.listens.2⟩ }) }

theorem OwnerInv.of_outbox {s : System σ} (h : OwnerInv s) (outbox : List ToDeck) :
    OwnerInv { s with outbox } :=
  { h with
    exchange := h.exchange.map (fun hi => { hi with }) (fun _ ha => { ha with })
      (fun _ ha => { ha with }) }

theorem acquire_ownerInv {s : System σ} (h : OwnerInv s) (clientId : String)
    (sessionId : UInt64) :
    OwnerInv { s with service := (s.service.acquireLease clientId sessionId).2 } := by
  refine h.of_service (bound_acquireLease h.bound clientId sessionId)
    ((Service.acquireLease_effect clientId sessionId).coupled h.coupled) ?_
  intro _ _ q hq
  -- the lease is taken while a request is pending
  have hheld : s.service.leases.status.clientId ≠ "" ∨ s.service.leases.pendingId ≠ 0 ∨
      s.service.leases.status.owner = .web := .inr (.inl (hq.pending ▸ hq.nonzero.2))
  have hsame : (s.service.acquireLease clientId sessionId).2 = s.service := by
    unfold Service.acquireLease LeaseManager.acquire
    rw [if_pos hheld]
    split_ifs
    · rfl
    · rfl
    · rfl
  rw [hsame]
  exact hq

theorem disconnect_ownerInv {s : System σ} (h : OwnerInv s) {clientId : String}
    (horderly : (s.companionUp && s.outstanding && s.service.leases.pendingEnable &&
      s.service.leases.status.clientId = clientId) = false) :
    OwnerInv { s with service := (s.service.disconnectLease clientId).2 } := by
  refine h.of_service (bound_disconnectLease h.bound clientId)
    ((Service.disconnectLease_effect h.coupled clientId).coupled h.coupled) ?_
  intro hup hout q hq
  -- the client is another one, or its lease is being taken back already
  have hsame : (s.service.disconnectLease clientId).2 = s.service := by
    unfold Service.disconnectLease LeaseManager.disconnect
    split
    · rfl
    split_ifs with hidle hpending
    · rfl
    · rfl
    · simp only [not_or, not_not] at hidle
      have henable : s.service.leases.pendingEnable = true := by
        by_contra hno
        exact hpending ⟨hq.pending ▸ hq.nonzero.2, hno⟩
      simp [hup, hout, henable, hidle.2.1] at horderly
  rw [hsame]
  exact hq

theorem expire_ownerInv {s : System σ} (h : OwnerInv s) (now : ℤ) :
    OwnerInv { s with service := (s.service.expireLease now).2 } := by
  refine h.of_service (bound_expireLease h.bound h.coupled now)
    ((Service.expireLease_effect h.coupled now).coupled h.coupled) ?_
  intro _ _ q hq
  have hnotWeb : s.service.leases.status.owner ≠ .web := fun hweb =>
    hq.nonzero.2 (hq.pending.symm.trans (h.coupled.held hweb))
  have hsame : (s.service.expireLease now).2 = s.service := by
    unfold Service.expireLease LeaseManager.expire
    split
    · rfl
    · rw [if_pos (.inl hnotWeb)]
  rw [hsame]
  exact hq

theorem claim_ownerInv {s : System σ} (h : OwnerInv s) (minimumInterval now : ℤ) :
    OwnerInv (s.claim minimumInterval now) := by
  unfold claim
  split
  · exact h
  next request clientId hpending =>
  split
  · exact h
  have hinv : OwnerInv
      { s with
        service :=
          (s.service.claimOwnerRequestAttempt request.requestId minimumInterval now).2 } := by
    refine h.of_service (bound_claim h.bound _ _ _)
      ((Service.claimOwnerRequestAttempt_effect _ _ _).coupled h.coupled) ?_
    intro _ _ q hq
    unfold Service.claimOwnerRequestAttempt LeaseManager.claimRequestAttempt
    split_ifs
    · exact hq
    · exact hq
    · exact hq
    · exact { hq with }
  split
  next service hclaim =>
    rw [hclaim] at hinv
    exact hinv
  next service hclaim =>
    rw [hclaim] at hinv
    exact hinv.of_outbox _

theorem build_ownerInv {s : System σ} (h : OwnerInv s) (clientId : String) (payload : List UInt8)
    (now : ℤ) : OwnerInv (s.build clientId payload now) := by
  have hinv : OwnerInv
      { s with
        service := (s.service.buildWebFrame clientId s.service.leases.status.leaseId payload
          now).2 } := by
    refine h.of_service (bound_buildWebFrame h.bound _ _ _ _)
      ((Service.buildWebFrame_effect _ _ _ _).coupled h.coupled) ?_
    intro _ _ q hq
    unfold Service.buildWebFrame
    dsimp only
    split_ifs
    · exact hq
    · exact hq
    · exact { hq with }
  unfold build
  split
  next device frame service hbuild =>
    rw [hbuild] at hinv
    exact hinv.of_outbox _
  next service hbuild =>
    rw [hbuild] at hinv
    exact hinv

/-! ### Writing a request -/

theorem OwnerInv.post_other {s : System σ} (h : OwnerInv s) {m : ToDeck}
    (hm : s.unanswered m = false) : OwnerInv { s with toDeck := s.toDeck ++ [m] } := by
  have hwire : (∀ a ∈ s.toDeck, s.unanswered a = false) →
      ∀ a ∈ s.toDeck ++ [m], s.unanswered a = false := by
    intro hold a ha
    rcases List.mem_append.mp ha with ha | ha
    · exact hold a ha
    · rw [List.mem_singleton.mp ha]
      exact hm
  refine
    { h with
      exchange := h.exchange.map (fun hi => { hi with wire := hwire hi.wire })
        (fun q ha => { ha with busy := ?_, wire := ?_ })
        (fun q ha => { ha with wire := hwire ha.wire }) }
  · exact ha.busy.imp_right fun ⟨a, hmem, ha⟩ => ⟨a, List.mem_append_left _ hmem, ha⟩
  · intro x p hp hun
    rcases List.mem_append.mp hp with hp | hp
    · exact ha.wire x p hp hun
    · rw [List.mem_singleton.mp hp] at hun
      exact absurd (hun.symm.trans hm) (by decide)

/-- The pending request is written. -/
theorem OwnerInv.post_request {s : System σ} (h : OwnerInv s) {x : String} {q : OwnerRequest}
    (hdeck : s.deckUp = true) (hcompanion : s.companionUp = true)
    (hun : s.unanswered (.request x q) = true)
    (hpending : s.service.pendingOwnerRequest.map Prod.fst = some q)
    (harmed : s.armedIn q.sessionId = true)
    (hannounces : s.toCompanion.all (announces q.sessionId) = true) :
    OwnerInv { s with toDeck := s.toDeck ++ [.request x q] } := by
  have hid : q.requestId ∉ s.answered := of_decide_eq_true hun
  have hlease : s.service.leases.pendingId ≠ 0 ∧
      q = ⟨s.service.leases.status.sessionId, s.service.leases.pendingId,
        s.service.leases.pendingEnable⟩ := by
    rw [Service.pendingOwnerRequest, if_neg (by simp [h.bound.opened.1]),
      LeaseManager.pendingRequest] at hpending
    split at hpending
    · cases hpending
    next hne => exact ⟨hne, (Option.some.inj hpending).symm⟩
  have hbusy : ∃ m ∈ s.toDeck ++ [.request x q], s.unanswered m = true :=
    ⟨_, List.mem_append_right _ (List.mem_singleton.mpr rfl), hun⟩
  have hwire : (∀ y p, .request y p ∈ s.toDeck → s.unanswered (.request y p) = true → p = q) →
      ∀ y p, .request y p ∈ s.toDeck ++ [.request x q] →
        s.unanswered (.request y p) = true → p = q := by
    intro hold y p hp hunp
    rcases List.mem_append.mp hp with hp | hp
    · exact hold y p hp hunp
    · exact (ToDeck.request.inj (List.mem_singleton.mp hp)).2
  have hsession := h.bound.pending hlease.1
  have hring : s.service.ring.sessionId = s.service.leases.status.sessionId :=
    (h.coupled.session.resolve_left hsession).symm
  have hwaits : Waits s.service s.deviceId q := by
    rw [hlease.2]
    exact ⟨h.bound.ring (hring ▸ hsession), hring, ⟨hsession, hlease.1⟩, rfl, rfl, rfl⟩
  -- an exchange that is under way is about this very request
  have hsame : ∀ p, Waits s.service s.deviceId p → p = q := by
    intro p hp
    obtain ⟨sessionId, requestId, enable⟩ := p
    rw [hlease.2, hp.session, hp.pending, hp.enable]
  refine { h with exchange := .asked q ?_ }
  cases h.exchange with
  | idle hi =>
    exact
      { up := hdeck, busy := .inr hbusy, id := ⟨hwaits.nonzero.2, hid⟩, armed := harmed
        results := hi.results, listens := fun _ => ⟨hwaits, hannounces⟩
        wire := hwire fun y p hp hunp => absurd (hunp.symm.trans (hi.wire _ hp)) (by decide)
        tracker := fun hp => absurd (hp.symm.trans hi.tracker) (by decide) }
  | asked p ha =>
    obtain rfl := hsame p (ha.listens hcompanion).1
    exact { ha with busy := .inr hbusy, wire := hwire ha.wire }
  | answered p ha =>
    obtain rfl := hsame p ha.listens.1
    exact absurd ha.id hid

theorem write_ownerInv {s : System σ} (h : OwnerInv s) {index : ℕ}
    (htimely : (s.outbox[index]?).all s.timely = true) : OwnerInv (s.write index) := by
  unfold write
  split
  · exact h
  next m hm =>
    have hout := h.of_outbox (s.outbox.eraseIdx index)
    rw [hm] at htimely
    unfold postToDeck
    split
    next hup =>
      cases hun : s.unanswered m with
      | false => exact hout.post_other hun
      | true =>
        cases m with
        | frame x f => cases hun
        | request x q =>
          have ht : s.timely (.request x q) = true := htimely
          simp only [timely, show s.companionUp = true from hup.1,
            show s.deckUp = true from hup.2, Bool.and_true, Bool.not_true, Bool.false_or,
            Bool.and_eq_true, decide_eq_true_eq] at ht
          exact hout.post_request hup.2 hup.1 hun ht.1.1 ht.1.2 ht.2
    · exact hout

/-! ### The answers of the Deck -/

theorem Idle.not_outstanding {s : System σ} (h : s.Idle) : s.outstanding = false := by
  unfold System.outstanding
  rw [h.tracker, Bool.or_false, Bool.or_eq_false_iff]
  constructor
  · rw [List.any_eq_false]
    exact fun m hm => by simp [h.wire m hm]
  · rw [List.any_eq_false]
    exact fun m hm => by simp [h.results m hm]

theorem dropCompanion_ownerInv {s : System σ} (h : OwnerInv s) : OwnerInv s.dropCompanion := by
  refine
    { h with
      bound := bound_requireOwnerRevocation h.bound
      coupled := (Service.requireOwnerRevocation_effect h.coupled s.deviceId).coupled h.coupled
      companionDown := fun _ => rfl
      exchange := ?_ }
  cases h.exchange with
  | idle hi => exact .idle { hi with results := fun _ hm => absurd hm List.not_mem_nil }
  | asked q ha =>
    exact .asked q
      { ha with
        results := fun _ hm => absurd hm List.not_mem_nil
        listens := fun hup => (by cases hup) }
  | answered q ha =>
    exact .idle ⟨ha.wire, ha.tracker, fun _ hm => absurd hm List.not_mem_nil⟩

theorem OwnerInv.pop {s : System σ} (h : OwnerInv s) {sessionId : UInt64} {state : State}
    {rest : List ToCompanion} (hwire : s.toCompanion = .state sessionId state :: rest) :
    OwnerInv { s with toCompanion := rest } := by
  have hmem : ∀ {m}, m ∈ rest → m ∈ s.toCompanion := by
    intro m hm
    rw [hwire]
    exact List.mem_cons_of_mem _ hm
  have hlistens : ∀ q, s.Listens q → Listens { s with toCompanion := rest } q := by
    intro q hq
    have hall := hq.2
    rw [hwire, List.all_cons, Bool.and_eq_true] at hall
    exact ⟨hq.1, hall.2⟩
  refine
    { h with
      companionDown := fun hdown => ?_
      exchange := h.exchange.map
        (fun hi => { hi with results := fun m hm => hi.results m (hmem hm) })
        (fun q ha =>
          { ha with
            results := fun m hm => ha.results m (hmem hm)
            listens := fun hup => hlistens q (ha.listens hup) })
        (fun q ha => { ha with listens := hlistens q ha.listens, result := ?_ }) }
  · have hnil := h.companionDown hdown
    rw [hwire] at hnil
    cases hnil
  · obtain ⟨before, x, r, after, hsplit, hfits, hbefore, hafter⟩ := ha.result
    rw [hwire] at hsplit
    cases before with
    | nil => cases hsplit
    | cons a before =>
      obtain ⟨-, hrest⟩ := List.cons.inj hsplit
      exact ⟨before, x, r, after, hrest, hfits,
        fun m hm => hbefore m (List.mem_cons_of_mem _ hm), hafter⟩

theorem processState_ownerInv {s : System σ} (h : OwnerInv s) (hup : s.companionUp = true)
    {sessionId : UInt64} {state : State} {rest : List ToCompanion}
    (hwire : s.toCompanion = .state sessionId state :: rest) :
    OwnerInv (s.processState sessionId state rest) := by
  have hkeeps : ∀ q, s.Listens q → ∀ p, Waits s.service s.deviceId p →
      Waits (s.service.reconcile s.deviceId sessionId state).2 s.deviceId p := by
    intro q hq p hp
    obtain rfl := hp.unique hq.1
    have hall := hq.2
    rw [hwire, List.all_cons, Bool.and_eq_true] at hall
    simp only [announces, ne_eq, Bool.and_eq_true, decide_eq_true_eq] at hall
    rw [hall.1.1]
    exact (reconcile_waits h.bound hp hall.1.2).2
  have hinv : OwnerInv
      { s with service := (s.service.reconcile s.deviceId sessionId state).2 } := by
    refine h.of_service (bound_reconcile h.bound sessionId state)
      ((Service.reconcile_effect h.coupled _ _ _).coupled h.coupled) ?_
    intro _ hout
    cases h.exchange with
    | idle hi => exact absurd (hout.symm.trans hi.not_outstanding) (by decide)
    | asked q ha => exact hkeeps q (ha.listens hup)
    | answered q ha => exact hkeeps q ha.listens
  unfold processState
  split
  next error service hreconcile =>
    rw [hreconcile] at hinv
    exact dropCompanion_ownerInv hinv
  next service hreconcile =>
    rw [hreconcile] at hinv
    exact hinv.pop hwire

theorem Fits.parses {r : WireResult} (h : Fits q r) (hid : q.requestId ≠ 0)
    (hsession : q.sessionId ≠ 0) : r.parses = true := by
  unfold WireResult.parses
  rw [h.request, h.session, if_neg h.armed]
  by_cases hweb : r.state = .webTX
  · simp [hid, hsession, hweb, h.lease.mpr hweb]
  · have hlease : r.leaseId = 0 := by
      by_contra hne
      exact hweb (h.lease.mp hne)
    simp [hid, hsession, hweb, hlease]

/-- The Companion takes the answer it waits for. -/
theorem applyOwnerResult_fits {t : Service} {deviceId : String} {r : WireResult}
    (hbound : Bound deviceId t) (hwaits : Waits t deviceId q) (hfits : Fits q r)
    (now : ℤ) : (t.applyOwnerResult deviceId r.ownerResult r.accepted now).1 = none := by
  have hrefused : ¬(t.closed = true ∨ deviceId = "" ∨ deviceId ≠ t.deviceId ∨
      r.ownerResult.sessionId = 0 ∨ r.ownerResult.sessionId ≠ t.ring.sessionId) := by
    have hsession : r.ownerResult.sessionId = q.sessionId := hfits.session
    rw [hsession, hwaits.ring]
    simp [hbound.opened.1, hwaits.device.2, hwaits.device.1, hwaits.nonzero.1]
  have hstale : ¬(t.leases.pendingId = 0 ∨ r.ownerResult.sessionId ≠ t.leases.status.sessionId ∨
      r.ownerResult.requestId ≠ t.leases.pendingId) := by
    have hsession : r.ownerResult.sessionId = q.sessionId := hfits.session
    have hrequest : r.ownerResult.requestId = q.requestId := hfits.request
    rw [hsession, hrequest, hwaits.session, hwaits.pending]
    simp [hwaits.nonzero.2]
  have hanswer : (if r.accepted then t.leases.applyOwnerResult r.ownerResult now
      else t.leases.applyOwnerRejection r.ownerResult).1 = none := by
    cases haccepted : r.accepted with
    | false =>
      simp only [Bool.false_eq_true, if_false, LeaseManager.applyOwnerRejection, if_neg hstale]
      split
      · rfl
      · rfl
    | true =>
      have howner := hfits.owner haccepted
      simp only [if_true, LeaseManager.applyOwnerResult, if_neg hstale, hwaits.enable]
      -- the answer shows the owner that was asked for
      cases henable : q.enable with
      | true =>
        rw [henable, if_pos rfl] at howner
        have hweb : r.ownerResult.owner = .web := by
          simp [WireResult.ownerResult, WireResult.owner, howner]
        have hlease : r.ownerResult.leaseId ≠ 0 := hfits.lease.mpr howner
        simp [hweb, hlease]
      | false =>
        rw [henable, if_neg (by decide)] at howner
        have husb : r.ownerResult.owner = .usb := by
          simp [WireResult.ownerResult, WireResult.owner, howner]
        have hlease : r.ownerResult.leaseId = 0 := by
          by_contra hne
          exact absurd (howner.symm.trans (hfits.lease.mp hne)) (by decide)
        simp [husb, hlease]
  unfold Service.applyOwnerResult
  rw [if_neg hrefused]
  generalize (if r.accepted then t.leases.applyOwnerResult r.ownerResult now
    else t.leases.applyOwnerRejection r.ownerResult) = answer at *
  obtain ⟨error, leases⟩ := answer
  dsimp only at hanswer
  subst hanswer
  rfl

theorem processResult_ownerInv {s : System σ} (h : OwnerInv s) {x : String} {r : WireResult}
    {rest : List ToCompanion} (hwire : s.toCompanion = .result x r :: rest) (now : ℤ) :
    OwnerInv (s.processResult r rest now) := by
  have hhead : .result x r ∈ s.toCompanion := by
    rw [hwire]
    exact List.mem_cons_self
  cases h.exchange with
  | idle hi => exact absurd (hi.results _ hhead) (by simp [isResult])
  | asked q ha => exact absurd (ha.results _ hhead) (by simp [isResult])
  | answered q ha =>
    obtain ⟨before, y, r', after, hsplit, hfits, hbefore, hafter⟩ := ha.result
    rw [hwire] at hsplit
    cases before with
    | cons m before =>
      -- the only result is the first message
      have hm := hbefore m List.mem_cons_self
      rw [← (List.cons.inj hsplit).1] at hm
      cases hm
    | nil =>
      obtain ⟨hresult, rfl⟩ := List.cons.inj hsplit
      obtain ⟨-, rfl⟩ := ToCompanion.result.inj hresult
      have hwaits := ha.listens.1
      have hnone := applyOwnerResult_fits h.bound hwaits hfits now
      unfold processResult
      rw [if_neg (by simp [hfits.parses hwaits.nonzero.2 hwaits.nonzero.1])]
      have hbound := bound_applyOwnerResult h.bound r.ownerResult r.accepted now
      have hcoupled := (Service.applyOwnerResult_effect s.deviceId r.ownerResult r.accepted
        now).coupled h.coupled
      split
      next error service happly =>
        rw [happly] at hnone
        cases hnone
      next service happly =>
        rw [happly] at hbound hcoupled
        exact
          { h with
            bound := hbound
            coupled := hcoupled
            companionDown := fun hdown => absurd (ha.up.symm.trans hdown) (by decide)
            exchange := .idle ⟨ha.wire, ha.tracker, hafter⟩ }

theorem process_ownerInv {s : System σ} (h : OwnerInv s) (now : ℤ) : OwnerInv (s.process now) := by
  unfold process
  split
  next sessionId state rest hup hwire => exact processState_ownerInv h hup hwire
  next x r rest _ hwire => exact processResult_ownerInv h hwire now
  · exact h

/-! ### The Deck -/

theorem armedIn_iff {s : System σ} {sessionId : UInt64} :
    s.armedIn sessionId = true ↔
      (s.device.session.state ≠ .disarmed ∧ s.device.session.sessionId = sessionId) ∧
        s.snapshot.state ≠ .disarmed ∧ s.snapshot.sessionId = sessionId := by
  unfold armedIn
  simp only [ne_eq, Bool.and_eq_true, decide_eq_true_eq]
  tauto

theorem stateName_ne_disarmed {state : SerialState} (h : state ≠ .disarmed) :
    SerialLink.stateName state ≠ .disarmed := by
  cases state with
  | disarmed => exact absurd rfl h
  | usbTx => exact State.noConfusion
  | webTx => exact State.noConfusion

/-- An announcement during an exchange is of its session. -/
theorem announce_ownerInv {s : System σ} (h : OwnerInv s) : OwnerInv s.announce := by
  unfold announce postToCompanion
  split
  next hup =>
    generalize hm : ToCompanion.state (if s.snapshot.state = .disarmed then 0
      else s.snapshot.sessionId) (SerialLink.stateName s.snapshot.state) = m
    have hstate : isResult m = false := by
      rw [← hm]
      rfl
    have hresults : (∀ a ∈ s.toCompanion, isResult a = false) →
        ∀ a ∈ s.toCompanion ++ [m], isResult a = false := by
      intro hold a ha
      rcases List.mem_append.mp ha with ha | ha
      · exact hold a ha
      · rw [List.mem_singleton.mp ha]
        exact hstate
    have hlistens : ∀ q, s.armedIn q.sessionId = true → s.Listens q →
        Listens { s with toCompanion := s.toCompanion ++ [m] } q := by
      intro q harmed hq
      obtain ⟨-, hshown, hid⟩ := armedIn_iff.mp harmed
      refine ⟨hq.1, ?_⟩
      rw [List.all_append, hq.2, Bool.true_and, List.all_cons, List.all_nil, Bool.and_true, ← hm,
        if_neg hshown]
      simp [announces, hid, stateName_ne_disarmed hshown]
    refine
      { h with
        companionDown := fun hdown => absurd (hup.symm.trans hdown) (by decide)
        exchange := h.exchange.map (fun hi => { hi with results := hresults hi.results })
          (fun q ha =>
            { ha with
              results := hresults ha.results
              listens := fun hc => hlistens q ha.armed (ha.listens hc) })
          (fun q ha => { ha with listens := hlistens q ha.armed ha.listens, result := ?_ }) }
    obtain ⟨before, x, r, after, hsplit, hfits, hbefore, hafter⟩ := ha.result
    refine ⟨before, x, r, after ++ [m], ?_, hfits, hbefore, ?_⟩
    · rw [hsplit, List.append_assoc]
      rfl
    · intro a ha
      rcases List.mem_append.mp ha with ha | ha
      · exact hafter a ha
      · rw [List.mem_singleton.mp ha]
        exact hstate
  · exact h

theorem dropDeck_ownerInv {s : System σ} (h : OwnerInv s) : OwnerInv (s.dropDeck hw) := by
  have hnil : ∀ m ∈ (dropDeck hw s).toDeck, (dropDeck hw s).unanswered m = false :=
    fun _ hm => absurd hm List.not_mem_nil
  refine
    { h with
      session := wellFormed_step hw h.session (.revokeWebTransport _)
      deckDown := fun _ => rfl
      command := fun c hc => (by cases hc)
      tracker := fun hp => (by cases hp)
      exchange := ?_ }
  cases h.exchange with
  | idle hi => exact .idle ⟨hnil, rfl, hi.results⟩
  | asked q ha => exact .idle ⟨hnil, rfl, ha.results⟩
  | answered q ha =>
    obtain ⟨⟨hstate, hid⟩, -⟩ := armedIn_iff.mp ha.armed
    obtain ⟨hstate', hid'⟩ := armed_of_revoke hw hstate
      (incrementNonzero s.device.session.webTransportEpoch)
    have harmed : (dropDeck hw s).armedIn q.sessionId = true :=
      armedIn_iff.mpr ⟨⟨hstate', hid'.trans hid⟩, hstate', hid'.trans hid⟩
    exact .answered q { ha with wire := hnil, tracker := rfl, armed := harmed }

theorem OwnerInv.tail {s : System σ} (h : OwnerInv s) {m : ToDeck} {rest : List ToDeck}
    (hwire : s.toDeck = m :: rest) (hm : s.unanswered m = false) (order : FrameOrder)
    (queued : List (String × String)) : OwnerInv { s with toDeck := rest, order, queued } := by
  have hmem : ∀ {a}, a ∈ rest → a ∈ s.toDeck := by
    intro a ha
    rw [hwire]
    exact List.mem_cons_of_mem _ ha
  refine
    { h with
      exchange := h.exchange.map
        (fun hi => { hi with wire := fun a ha => hi.wire a (hmem ha) })
        (fun q ha =>
          { ha with busy := ?_, wire := fun x p hp => ha.wire x p (hmem hp) })
        (fun q ha => { ha with wire := fun a hq => ha.wire a (hmem hq) }) }
  refine ha.busy.imp_right fun ⟨a, hin, hun⟩ => ⟨a, ?_, hun⟩
  rw [hwire] at hin
  rcases List.mem_cons.mp hin with rfl | hin
  · exact absurd (hun.symm.trans hm) (by decide)
  · exact hin

theorem begin_cases {t : RequestTracker} {requestId : UInt64} (hid : requestId ≠ 0)
    (htracked : t.pending = true → t.externalRequestId = requestId) :
    (t.pending = true ∧ t.begin requestId = (.replay, t)) ∨
      ∃ t', t.begin requestId = (.new, t') := by
  unfold RequestTracker.begin
  rw [if_neg hid]
  cases hpending : t.pending with
  | true =>
    left
    simp [htracked hpending]
  | false =>
    right
    exact ⟨_, rfl⟩

theorem receiveRequest_ownerInv {s : System σ} (h : OwnerInv s) {x : String} {p : OwnerRequest}
    {rest : List ToDeck} (hwire : s.toDeck = .request x p :: rest) (room : Bool)
    (hun : s.unanswered (.request x p) = true)
    (hfresh : s.requests.allocateServiceRequestId.1 ∉ s.resultIds) :
    OwnerInv (s.receiveRequest hw x p rest room) := by
  have hmem : ∀ {a}, a ∈ rest → a ∈ s.toDeck := by
    intro a ha
    rw [hwire]
    exact List.mem_cons_of_mem _ ha
  have hhead : .request x p ∈ s.toDeck := by
    rw [hwire]
    exact List.mem_cons_self
  cases h.exchange with
  | idle hi => exact absurd (hun.symm.trans (hi.wire _ hhead)) (by decide)
  | answered q ha => exact absurd (hun.symm.trans (ha.wire _ hhead)) (by decide)
  | asked q ha =>
    obtain rfl := ha.wire x p hhead hun
    obtain ⟨-, hshown, hid⟩ := armedIn_iff.mp ha.armed
    unfold receiveRequest
    rw [if_neg (by simp [hshown, hid])]
    rcases begin_cases ha.id.1 (fun hp => (ha.tracker hp).1) with
      ⟨hpending, hbegin⟩ | ⟨requests, hbegin⟩
    · rw [hbegin]
      exact
        { h with
          exchange := .asked p
            { ha with busy := .inl hpending, wire := fun y q hq => ha.wire y q (hmem hq) } }
    · rw [hbegin]
      obtain ⟨-, hpending, hexternal, hservice, hnonzero⟩ := begin_new hbegin
      have hunused : ∀ r, s.HasResult r → r.requestId ≠ requests.serviceRequestId := by
        intro r hr heq
        rw [hservice] at heq
        exact hfresh (heq ▸ mem_resultIds hr)
      dsimp only
      split
      · refine
          { h with
            deckDown := fun hdown => absurd (ha.up.symm.trans hdown) (by decide)
            command := fun c hc => ?_
            tracker := fun _ => hnonzero
            exchange := .asked p
              { ha with
                busy := .inl hpending
                wire := fun y q hq => ha.wire y q (hmem hq)
                tracker := fun _ => ⟨hexternal, fun c hc => ?_, fun r hr heq => ?_⟩ } }
        · cases hc
          exact ⟨hpending, hnonzero, rfl, hunused⟩
        · cases hc
          exact ⟨rfl, rfl⟩
        · exact absurd heq (hunused r hr)
      · exact dropDeck_ownerInv hw h

theorem receive_ownerInv {s : System σ} (h : OwnerInv s) (room : Bool)
    (hfresh : s.requests.allocateServiceRequestId.1 ∉ s.resultIds)
    (hfirst : (s.toDeck.head?.all fun
      | .request x q => s.unanswered (.request x q)
      | .frame _ _ => true) = true) : OwnerInv (s.receive hw room) := by
  unfold receive
  split
  next x q rest _ hwire =>
    rw [hwire] at hfirst
    exact receiveRequest_ownerInv hw h hwire room hfirst hfresh
  next x f rest _ hwire =>
    unfold receiveFrame
    split
    · exact h.tail hwire rfl _ _
    · exact dropDeck_ownerInv hw h
  · exact h

theorem OwnerInv.of_session {s : System σ} (h : OwnerInv s) {device : Device σ}
    {result : Option CommandResult} (hsession : WellFormed device.session)
    (harmed : s.outstanding = true → s.device.session.state ≠ .disarmed →
      device.session.state ≠ .disarmed ∧
        device.session.sessionId = s.device.session.sessionId)
    (hresult : ∀ r, result = some r → r.requestId = 0) :
    OwnerInv { s with device, applied := some result } := by
  have hstays : ∀ q : OwnerRequest, s.outstanding = true → s.armedIn q.sessionId = true →
      armedIn { s with device, applied := some result } q.sessionId = true := by
    intro q hout hq
    obtain ⟨⟨hstate, hid⟩, hshown⟩ := armedIn_iff.mp hq
    obtain ⟨hstate', hid'⟩ := harmed hout hstate
    exact armedIn_iff.mpr ⟨⟨hstate', hid'.trans hid⟩, hshown⟩
  have hold : ∀ r, r.requestId ≠ 0 → HasResult { s with device, applied := some result } r →
      s.HasResult r := by
    rintro r hne (hr | hr)
    · exact absurd (hresult r (Option.some.inj hr)) hne
    · exact .inr hr
  refine
    { h with
      session := hsession
      command := fun c hc => ?_
      exchange := h.exchange.map (fun hi => { hi with })
        (fun q ha =>
          { ha with
            armed := hstays q ha.outstanding ha.armed
            tracker := fun hp => ⟨(ha.tracker hp).1, (ha.tracker hp).2.1, fun r hr hid => ?_⟩ })
        (fun q ha => { ha with armed := hstays q ha.outstanding ha.armed }) }
  · obtain ⟨hpending, hnonzero, hid, hnone⟩ := h.command c hc
    refine ⟨hpending, hnonzero, hid, fun r hr heq => ?_⟩
    exact hnone r (hold r (heq ▸ hnonzero) hr) heq
  · exact (ha.tracker hp).2.2 r (hold r (hid ▸ h.tracker hp) hr) hid

theorem callSession_ownerInv {s : System σ} (h : OwnerInv s) {op : Op}
    (hexit : ∀ epoch, op = .exit epoch → s.outstanding = false) :
    OwnerInv (s.callSession hw op) := by
  unfold callSession
  split
  next result _ hop =>
    refine h.of_session (wellFormed_step hw h.session op) (fun hout harmed => ?_) ?_
    · refine armed_of_callSession hw hop harmed fun epoch heq => ?_
      exact absurd (hout.symm.trans (hexit epoch heq)) (by decide)
    · rintro r rfl
      exact sessionResult_requestId hw hop
  · exact h

theorem fits_of_requestWeb {session : Session} {code : CommandCode} {requestId : UInt64}
    (hsession : WellFormed session) (harmed : session.state ≠ .disarmed)
    (hid : session.sessionId = q.sessionId)
    (hcases : Refused code ∨ session.state = if q.enable then .webTx else .usbTx) :
    Fits q (wireResult q.requestId (fillResult session code requestId)) where
  request := rfl
  session := by
    show (if session.state = .disarmed then 0 else session.sessionId) = q.sessionId
    rw [if_neg harmed, hid]
  armed := stateName_ne_disarmed harmed
  lease := by
    show session.leaseId ≠ 0 ↔ SerialLink.stateName session.state = .webTX
    rw [hsession.lease]
    cases session.state <;> simp [SerialLink.stateName]
  owner := by
    show (code = .applied || code = .noChange) = true → SerialLink.stateName session.state = _
    intro haccepted
    rcases hcases with (rfl | rfl) | hstate
    · cases haccepted
    · cases haccepted
    · rw [hstate]
      cases q.enable <;> rfl

theorem apply_ownerInv {s : System σ} (h : OwnerInv s) (nowMs : UInt64)
    (hfresh : s.freshIds (.apply nowMs) = true) : OwnerInv (s.apply hw nowMs) := by
  unfold apply
  split
  · next c _ hcommand =>
    obtain ⟨hpending, hnonzero, hservice, hnone⟩ := h.command c hcommand
    have hnew := ne_last_of_fresh hcommand hfresh
    obtain ⟨code, hresult, hcases⟩ :=
      requestWeb_cases hw h.session c.sessionId c.enable nowMs hnonzero hnew
    have hformed : WellFormed
        (requestWeb hw s.device c.sessionId c.requestId c.enable nowMs).2.session :=
      wellFormed_step hw h.session (.requestWeb c.sessionId c.requestId c.enable nowMs)
    dsimp only at hresult hcases ⊢
    generalize requestWeb hw s.device c.sessionId c.requestId c.enable nowMs = answer at *
    -- a command is in the service only while its request is tracked
    cases h.exchange with
    | idle hi => exact absurd (hpending.symm.trans hi.tracker) (by decide)
    | answered q ha => exact absurd (hpending.symm.trans ha.tracker) (by decide)
    | asked q ha =>
      obtain ⟨hexternal, hasked, -⟩ := ha.tracker hpending
      obtain ⟨-, henable⟩ := hasked c hcommand
      obtain ⟨⟨hstate, hid⟩, hshown⟩ := armedIn_iff.mp ha.armed
      obtain ⟨hstate', hid', howner⟩ : answer.2.session.state ≠ .disarmed ∧
          answer.2.session.sessionId = q.sessionId ∧
          (Refused code ∨ answer.2.session.state = if q.enable then .webTx else .usbTx) := by
        rcases hcases with ⟨hrefused, hdevice⟩ | ⟨hgranted, hsame, -⟩
        · obtain ⟨hkeep, -, -, hdisarmed⟩ := expireWebLease_keeps hw s.device nowMs
          rw [hdevice]
          exact ⟨fun hd => hstate (hdisarmed.mp hd), hkeep.trans hid, .inl hrefused⟩
        · rw [henable] at hgranted
          refine ⟨?_, hsame.trans hid, .inr hgranted⟩
          rw [hgranted]
          cases q.enable <;> exact SerialState.noConfusion
      refine
        { h with
          session := hformed
          command := fun c hc => (by cases hc)
          exchange := .asked q
            { ha with
              armed := armedIn_iff.mpr ⟨⟨hstate', hid'⟩, hshown⟩
              tracker := fun _ => ⟨hexternal, fun c hc => (by cases hc), ?_⟩ } }
      rintro r (hr | hr) hrid
      · have hr' : answer.1 = some r := Option.some.inj hr
        rw [hresult] at hr'
        obtain rfl := Option.some.inj hr'
        exact fits_of_requestWeb hformed hstate' hid' howner
      · exact absurd (hrid.trans hservice.symm) (hnone r (.inr hr))
  · exact h

theorem publish_ownerInv {s : System σ} (h : OwnerInv s) : OwnerInv s.publish := by
  unfold publish
  split
  · exact h
  next result happlied =>
    generalize hlatest : (result <|> s.latestCommandResult) = latest
    have hold : ∀ r, latest = some r → s.HasResult r := by
      rintro r rfl
      exact hasResult_of_publish happlied hlatest
    have hshown : ∀ sessionId, s.armedIn sessionId = true →
        armedIn
          { s with
            applied := none
            snapshot := SerialSession.snapshot s.device.session
            shownHolder := s.holder
            latestCommandResult := latest } sessionId = true := by
      intro sessionId hs
      obtain ⟨hsession, -⟩ := armedIn_iff.mp hs
      exact armedIn_iff.mpr ⟨hsession, hsession⟩
    refine
      { h with
        command := fun c hc => ?_
        exchange := h.exchange.map (fun hi => { hi with })
          (fun q ha =>
            { ha with
              armed := hshown _ ha.armed
              tracker := fun hp =>
                ⟨(ha.tracker hp).1, (ha.tracker hp).2.1, fun r hr => ?_⟩ })
          (fun q ha => { ha with armed := hshown _ ha.armed }) }
    · obtain ⟨hpending, hnonzero, hid, hnone⟩ := h.command c hc
      refine ⟨hpending, hnonzero, hid, ?_⟩
      rintro r (hr | hr)
      · cases hr
      · exact hnone r (hold r hr)
    · rcases hr with hr | hr
      · cases hr
      · exact (ha.tracker hp).2.2 r (hold r hr)

theorem poll_ownerInv {s : System σ} (h : OwnerInv s) : OwnerInv (s.poll hw) := by
  unfold poll
  split
  · exact h
  next r hresult =>
    obtain ⟨hpending, hlatest, hid⟩ := pendingResult_some hresult
    split
    next requests hcomplete =>
      have hrequests := complete_pending hcomplete
      have hcommand : s.command = none := by
        cases hc : s.command with
        | none => rfl
        | some c =>
          obtain ⟨-, -, hservice, hnone⟩ := h.command c hc
          exact absurd (hid.trans hservice.symm) (hnone r (.inr hlatest))
      cases h.exchange with
      | idle hi => exact absurd (hpending.symm.trans hi.tracker) (by decide)
      | answered q ha => exact absurd (hpending.symm.trans ha.tracker) (by decide)
      | asked q ha =>
        obtain ⟨hexternal, -, hfits⟩ := ha.tracker hpending
        have hr := hfits r (.inr hlatest) hid
        rw [hexternal]
        -- every copy of the request is an answered one from here on
        have hwire : ∀ m ∈ s.toDeck,
            unanswered { s with answered := s.answered ++ [q.requestId] } m = false := by
          intro m hm
          cases m with
          | frame x f => rfl
          | request x p =>
            refine decide_eq_false (not_not_intro ?_)
            cases hun : s.unanswered (.request x p) with
            | true =>
              obtain rfl := ha.wire x p hm hun
              exact List.mem_append_right _ (List.mem_singleton.mpr rfl)
            | false =>
              refine List.mem_append_left _ ?_
              by_contra hno
              exact absurd (hun.symm.trans (decide_eq_true hno)) (by decide)
        unfold postToCompanion
        split
        next hup =>
          have hlistens := ha.listens hup
          refine
            { h with
              deckDown := fun _ => hrequests
              companionDown := fun hdown => absurd (hup.symm.trans hdown) (by decide)
              command := fun c hc => absurd (hcommand.symm.trans hc) (by simp)
              tracker := fun hp => absurd hp (by simp [hrequests])
              exchange := .answered q
                { up := hup
                  wire := hwire
                  tracker := hrequests
                  id := List.mem_append_right _ (List.mem_singleton.mpr rfl)
                  armed := ha.armed
                  listens := ⟨hlistens.1, ?_⟩
                  result := ⟨s.toCompanion, _, _, [], rfl, hr, ha.results,
                    fun _ hm => absurd hm List.not_mem_nil⟩ } }
          dsimp only
          rw [List.all_append, hlistens.2]
          rfl
        · exact
            { h with
              deckDown := fun _ => hrequests
              command := fun c hc => absurd (hcommand.symm.trans hc) (by simp)
              tracker := fun hp => absurd hp (by simp [hrequests])
              exchange := .idle ⟨hwire, hrequests, ha.results⟩ }
    · exact dropDeck_ownerInv hw h

/-! ### Runs -/

theorem step_ownerInv {s : System σ} (h : OwnerInv s) {event : Event}
    (horderly : s.orderly event = true) : OwnerInv (step hw s event) := by
  unfold orderly at horderly
  rw [Bool.and_eq_true] at horderly
  obtain ⟨hfresh, horder⟩ := horderly
  cases event with
  | acquire clientId sessionId => exact acquire_ownerInv h clientId sessionId
  | disconnect clientId =>
    refine disconnect_ownerInv h ?_
    dsimp only at horder
    rw [Bool.not_eq_true'] at horder
    exact horder
  | expire now => exact expire_ownerInv h now
  | claim minimumInterval now => exact claim_ownerInv h minimumInterval now
  | build clientId payload now => exact build_ownerInv h clientId payload now
  | write index => exact write_ownerInv h horder
  | process now => exact process_ownerInv h now
  | connect =>
    dsimp only [step]
    split
    next hdown =>
      refine announce_ownerInv
        { h with
          deckDown := fun hno => (by cases hno)
          companionDown := fun _ => rfl
          exchange := .idle ⟨fun _ hm => absurd hm List.not_mem_nil, h.deckDown hdown.2,
            fun _ hm => absurd hm List.not_mem_nil⟩ }
    · exact h
  | dropCompanion =>
    dsimp only [step]
    split
    · exact dropCompanion_ownerInv h
    · exact h
  | dropDeck =>
    dsimp only [step]
    split
    · exact dropDeck_ownerInv hw h
    · exact h
  | receive room => exact receive_ownerInv hw h room (of_decide_eq_true hfresh) horder
  | session op =>
    refine callSession_ownerInv hw h fun epoch hop => ?_
    subst hop
    simpa using horder
  | apply nowMs => exact apply_ownerInv hw h nowMs hfresh
  | publish => exact publish_ownerInv h
  | announce =>
    dsimp only [step]
    split
    · exact announce_ownerInv h
    · exact h
  | poll =>
    dsimp only [step]
    split
    · exact poll_ownerInv hw h
    · exact h

theorem run_ownerInv {s : System σ} (h : OwnerInv s) {events : List Event}
    (horderly : allOrderly hw s events = true) : OwnerInv (run hw s events) := by
  induction events generalizing s with
  | nil => exact h
  | cons event events ih =>
    rw [allOrderly, Bool.and_eq_true] at horderly
    exact ih (step_ownerInv hw h horderly.1) horderly.2

theorem start_ownerInv {timeout : UInt64} {context : σ} {device : Device σ}
    (hdevice : create hw timeout context = some device) {config : Config} {ring : Ring}
    (hnew : Ring.new config = some ring) (deviceId : String) (leaseTTL started : ℤ) :
    OwnerInv (start deviceId device (.new ring leaseTTL started)) := by
  unfold Ring.new at hnew
  dsimp only at hnew
  split at hnew
  · cases hnew
  obtain rfl := Option.some.inj hnew
  exact
    { bound := ⟨⟨rfl, rfl⟩, .inl rfl, fun hne => absurd rfl hne, fun hne => absurd rfl hne⟩
      coupled := (Service.leaseInv_new _ leaseTTL started).coupled
      session := wellFormed_create hw hdevice
      deckDown := fun _ => rfl
      companionDown := fun _ => rfl
      command := fun c hc => (by cases hc)
      tracker := fun hp => (by cases hp)
      exchange := .idle ⟨fun _ hm => absurd hm List.not_mem_nil, rfl,
        fun _ hm => absurd hm List.not_mem_nil⟩
      refused := rfl }

/-- **The ends agree on owner requests**: in every run in which a request is answered before the
next one is made, the Deck stays in its session until then and no copy of it comes after its
answer, neither does the Deck ever drop the link on an owner request nor the Companion ever close
the connection on its answer. -/
theorem owner_protocol_compatible (hw : HardwareAdapter σ) {timeout : UInt64} {context : σ}
    {device : Device σ} (hdevice : create hw timeout context = some device) {config : Config}
    {ring : Ring} (hnew : Ring.new config = some ring) (deviceId : String)
    (leaseTTL started : ℤ) (events : List Event)
    (horderly :
      allOrderly hw (start deviceId device (.new ring leaseTTL started)) events = true) :
    (run hw (start deviceId device (.new ring leaseTTL started)) events).refused = [] :=
  (run_ownerInv hw (start_ownerInv hw hdevice hnew deviceId leaseTTL started) horderly).refused

/-- A client gets the lease, another asks in vain, the lease expires, the other client gets it and
gives it back, and the Deck leaves the session; one request is retried before its answer. -/
def exchanges : List Event :=
  armed ++ [.acquire "a" 1, .claim 0 1, .write 0, .receive true, .claim 0 2, .write 0,
    .receive true, .apply 5, .acquire "b" 1, .publish, .announce, .poll, .process 1, .process 1] ++
    takeBack 0 ++ ask "b" 0 ++
    [.disconnect "b", .claim 0 2, .write 0, .receive true, .apply 6, .publish, .poll, .process 2,
      .session (.exit 1), .publish, .announce, .process 3]

theorem owner_protocol_exchanges : (run .ready fresh exchanges).refused = [] :=
  owner_protocol_compatible .ready (show create .ready 1000 () = some freshDevice from rfl)
    (Option.some_get _).symm "deck" 0 0 exchanges (by decide)

/-- A client asks for the lease and disconnects before the Deck has answered. -/
def overtaking : List Event :=
  armed ++ [.acquire "a" 1, .claim 0 1, .write 0, .receive true, .disconnect "a", .claim 0 2,
    .write 0, .receive true]

/-- The Deck drops the link on the revocation. -/
theorem overtaken_request : (run .ready fresh overtaking).refused ≠ [] := by
  decide

end System

end RlcdDeck.SerialControl
