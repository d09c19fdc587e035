import RlcdDeck.SerialControl.Equiv.Deck
import RlcdDeck.SerialHub.Equiv.Lease

/-!
# Web input and the lease it is queued under

A frame carries its session and its sequence but not its lease, and the Deck queues it under the
lease that is in force when the frame arrives.  The two agree as long as every frame is written
while its client still holds the lease, and every request for the lease while it is still the one
the Companion waits for (`fenced`): then, while the Companion sees a client on the line, nothing
on the way to the Deck and nothing in it would give the line to another client (`Reserved`).

A frame that is written later is queued under whatever lease there is by then (`stolen_lease`).
-/

namespace RlcdDeck.SerialControl

open Counter SerialSession SerialHub CompanionLink

namespace System

variable {σ : Type*} (hw : HardwareAdapter σ)

/-! ### The condition -/

/-- The id of a result that the owner task or the result slot holds. -/
def resultIds (s : System σ) : List UInt64 :=
  ((s.applied.bind id).toList ++ s.latestCommandResult.toList).map CommandResult.requestId

/-- The request ids on their way to the Deck, in it, and on their way back. -/
def carriedIds (s : System σ) : List UInt64 :=
  (s.outbox ++ s.toDeck).filterMap
      (fun | .request _ request => some request.requestId | .frame _ _ => none) ++
    s.toCompanion.filterMap
      (fun | .result _ r => some r.requestId | .state _ _ => none) ++
    [s.requests.externalRequestId]

/-- The message is written while it is still in force. -/
def current (m : LeaseManager) : ToDeck → Bool
  | .frame clientId _ => m.status.owner = .web && m.status.clientId = clientId
  | .request _ request => !request.enable || (m.pendingId = request.requestId && m.pendingEnable)

/-- The 64-bit ids the next step gives are not in use. -/
def freshIds (s : System σ) : Event → Bool
  | .acquire _ _ => s.service.leases.nextId ∉ s.carriedIds
  | .receive _ => s.requests.allocateServiceRequestId.1 ∉ s.resultIds
  | .apply _ =>
    !s.device.session.hasLastRequest ||
      s.command.map Command.requestId ≠ some s.device.session.lastRequestId
  | _ => true

/-- Frames and requests for the lease are written while they are in force, and ids are not
reused while they are under way. -/
def fenced (s : System σ) (event : Event) : Bool :=
  s.freshIds event &&
    match event with
    | .write index => (s.outbox[index]?).all (current s.service.leases)
    | _ => true

/-- Every step of the run is `fenced`. -/
def allFenced (s : System σ) : List Event → Bool
  | [] => true
  | event :: events => s.fenced event && allFenced (step hw s event) events

/-! ### The invariant -/

/-- Neither the lease in force nor the one asked for is of another client. -/
def DeckFor (s : System σ) (clientId : String) : Prop :=
  (∀ c, s.command = some c → c.enable = true → c.clientId = clientId) ∧
    (s.device.session.state = .webTx → s.holder = clientId) ∧
    (s.snapshot.state = .webTx → s.shownHolder = clientId)

/-- The requests for the lease on their way are the client's. -/
def EnablesOf (clientId : String) (messages : List ToDeck) : Prop :=
  ∀ x q, .request x q ∈ messages → q.enable = true → x = clientId

/-- Nothing on its way would take the line from the client. -/
def Reserved (s : System σ) (clientId : String) : Prop :=
  EnablesOf clientId s.toDeck ∧ s.DeckFor clientId

/-- The Companion waits for the answer to an enabling request of this id. -/
structure Asks (m : LeaseManager) (requestId : UInt64) : Prop where
  pending : m.pendingId = requestId
  nonzero : requestId ≠ 0
  enable : m.pendingEnable = true

/-- A result that is published or about to be. -/
def HasResult (s : System σ) (r : CommandResult) : Prop :=
  s.applied = some (some r) ∨ s.latestCommandResult = some r

/-- A result that grants the lease. -/
def Grants (r : WireResult) : Prop :=
  r.accepted = true ∧ r.state = .webTX

/-- A frame is behind no request of another client for the lease. -/
def FrameBehind (first second : ToDeck) : Prop :=
  ∀ x f, second = .frame x f → ∀ y q, first = .request y q → q.enable = true → y = x

/-- Behind the request the Companion waits for, all requests for the lease are its client's. -/
def RequestBehind (m : LeaseManager) (first second : ToDeck) : Prop :=
  ∀ y q, first = .request y q → Asks m q.requestId →
    ∀ x p, second = .request x p → p.enable = true → x = m.status.clientId

structure WebInv (s : System σ) : Prop where
  coupled : Service.Coupled s.service
  session : WellFormed s.device.session
  /-- The command in the service is the tracked request's, and has no result yet. -/
  command : ∀ c, s.command = some c → s.requests.pending = true ∧ c.requestId ≠ 0 ∧
    c.requestId = s.requests.serviceRequestId ∧ c.clientId = s.asker ∧
    ∀ r, s.HasResult r → r.requestId ≠ c.requestId
  tracker : s.requests.pending = true → s.requests.serviceRequestId ≠ 0
  requestClient : ∀ x q, .request x q ∈ s.outbox ∨ .request x q ∈ s.toDeck →
    q.requestId ≠ 0 ∧
      (Asks s.service.leases q.requestId → x = s.service.leases.status.clientId)
  askerClient : s.requests.pending = true → Asks s.service.leases s.requests.externalRequestId →
    s.asker = s.service.leases.status.clientId
  resultClient : ∀ x r, .result x r ∈ s.toCompanion → Asks s.service.leases r.requestId →
    x = s.service.leases.status.clientId
  held : s.service.leases.status.owner = .web → s.Reserved s.service.leases.status.clientId
  frames : ∀ x f, .frame x f ∈ s.toDeck → s.DeckFor x
  frameOrder : s.toDeck.Pairwise FrameBehind
  requestOrder : s.toDeck.Pairwise (RequestBehind s.service.leases)
  results : ∀ x r, .result x r ∈ s.toCompanion → Asks s.service.leases r.requestId → Grants r →
    s.Reserved x
  tracked : s.requests.pending = true → Asks s.service.leases s.requests.externalRequestId →
    EnablesOf s.asker s.toDeck ∧
    ∀ r, r.requestId = s.requests.serviceRequestId →
      Grants (wireResult s.requests.externalRequestId r) →
      (s.applied = some (some r) → s.device.session.state = .webTx → s.holder = s.asker) ∧
      (s.latestCommandResult = some r → s.DeckFor s.asker)
  queued : ∀ x ∈ s.queued, x.1 = x.2

/-! ### The Companion's calls -/

theorem mem_carriedIds_request {s : System σ} {x : String} {q : OwnerRequest}
    (h : .request x q ∈ s.outbox ∨ .request x q ∈ s.toDeck) : q.requestId ∈ s.carriedIds := by
  refine List.mem_append_left _ (List.mem_append_left _ ?_)
  exact List.mem_filterMap.mpr ⟨_, List.mem_append.mpr h, rfl⟩

theorem mem_carriedIds_result {s : System σ} {x : String} {r : WireResult}
    (h : .result x r ∈ s.toCompanion) : r.requestId ∈ s.carriedIds := by
  refine List.mem_append_left _ (List.mem_append_right _ ?_)
  exact List.mem_filterMap.mpr ⟨_, h, rfl⟩

theorem mem_carriedIds_tracker (s : System σ) : s.requests.externalRequestId ∈ s.carriedIds :=
  List.mem_append_right _ (List.mem_singleton.mpr rfl)

/-- The Companion's lease asks for nothing and shows nobody that it did not before, but for a
request under an id that is not in use. -/
structure Narrows (s : System σ) (t : Service) : Prop where
  coupled : Service.Coupled t
  asks : ∀ id, Asks t.leases id → id ∈ s.carriedIds →
    Asks s.service.leases id ∧ t.leases.status.clientId = s.service.leases.status.clientId
  web : t.leases.status.owner = .web →
    s.service.leases.status.owner = .web ∧
      t.leases.status.clientId = s.service.leases.status.clientId

theorem WebInv.of_narrows {s : System σ} (h : WebInv s) {t : Service} (ht : s.Narrows t) :
    WebInv { s with service := t } where
  coupled := ht.coupled
  session := h.session
  command := h.command
  tracker := h.tracker
  requestClient x q hmem := by
    refine ⟨(h.requestClient x q hmem).1, fun hasks => ?_⟩
    obtain ⟨hs, hclient⟩ := ht.asks _ hasks (mem_carriedIds_request hmem)
    exact ((h.requestClient x q hmem).2 hs).trans hclient.symm
  askerClient hpending hasks := by
    obtain ⟨hs, hclient⟩ := ht.asks _ hasks (mem_carriedIds_tracker s)
    exact (h.askerClient hpending hs).trans hclient.symm
  resultClient x r hmem hasks := by
    obtain ⟨hs, hclient⟩ := ht.asks _ hasks (mem_carriedIds_result hmem)
    exact (h.resultClient x r hmem hs).trans hclient.symm
  held hweb := by
    obtain ⟨hs, hclient⟩ := ht.web hweb
    have hheld := h.held hs
    rw [← hclient] at hheld
    exact hheld
  frames := h.frames
  frameOrder := h.frameOrder
  requestOrder := by
    refine h.requestOrder.imp_of_mem ?_
    intro a b ha _ hab y q hy hasks x p hx hp
    subst hy
    obtain ⟨hs, hclient⟩ := ht.asks _ hasks (mem_carriedIds_request (.inr ha))
    exact (hab y q rfl hs x p hx hp).trans hclient.symm
  results x r hmem hasks hgrants := by
    obtain ⟨hs, -⟩ := ht.asks _ hasks (mem_carriedIds_result hmem)
    exact h.results x r hmem hs hgrants
  tracked hpending hasks := by
    obtain ⟨hs, -⟩ := ht.asks _ hasks (mem_carriedIds_tracker s)
    exact h.tracked hpending hs
  queued := h.queued

theorem narrows_of_same {s : System σ} (hs : Service.Coupled s.service) {t : Service}
    (h : Service.SameLease s.service t) : s.Narrows t where
  coupled := h.coupled hs
  asks id hasks _ := by
    refine ⟨⟨?_, hasks.nonzero, ?_⟩, h.client⟩
    · rw [← h.pending]
      exact hasks.pending
    · rw [← h.enable]
      exact hasks.enable
  web hweb := ⟨by rw [← h.owner]; exact hweb, h.client⟩

theorem narrows_of_ended (s : System σ) {t : Service} (h : ¬t.Live)
    (hsession : t.leases.status.sessionId = 0 ∨ t.leases.status.sessionId = t.ring.sessionId) :
    s.Narrows t where
  coupled := ⟨hsession, fun hweb => absurd (.inl hweb) h, fun hlive => absurd hlive h⟩
  asks _ hasks _ := absurd (.inr ⟨hasks.pending ▸ hasks.nonzero, hasks.enable⟩) h
  web hweb := absurd (.inl hweb) h

theorem narrows_of_acquire {s : System σ} (hs : Service.Coupled s.service) {clientId : String}
    {sessionId : UInt64} (hfresh : s.service.leases.nextId ∉ s.carriedIds) :
    s.Narrows (s.service.acquireLease clientId sessionId).2 := by
  cases Service.acquireLease_effect (s := s.service) clientId sessionId with
  | same h _ => exact narrows_of_same hs h
  | ended h hsession => exact narrows_of_ended s h hsession
  | granted _ _ _ hop => cases hop
  | asked clientId' sessionId' hop hok _ _ _ hstatus =>
    cases hop
    have hid : (s.service.acquireLease clientId sessionId).2.leases.pendingId =
        s.service.leases.nextId := by
      unfold Service.acquireLease LeaseManager.acquire at hok ⊢
      split_ifs at hok ⊢
      rfl
    refine ⟨(Service.acquireLease_effect clientId sessionId).coupled hs, ?_, fun hweb => ?_⟩
    · intro id hasks hmem
      rw [← hasks.pending, hid] at hmem
      exact absurd hmem hfresh
    · rw [hstatus] at hweb
      cases hweb

theorem narrows_of_effect {s : System σ} (hs : Service.Coupled s.service) {op : ServiceOp}
    {t : Service} (h : Service.Effect s.service op t)
    (hasked : ∀ clientId sessionId, op ≠ .acquireLease clientId sessionId)
    (hgranted : ∀ deviceId result now, op ≠ .applyOwnerResult deviceId result true now) :
    s.Narrows t := by
  cases h with
  | same h _ => exact narrows_of_same hs h
  | ended h hsession => exact narrows_of_ended s h hsession
  | asked clientId sessionId hop => exact absurd hop (hasked clientId sessionId)
  | granted deviceId result now hop => exact absurd hop (hgranted deviceId result now)

/-! ### The messages of the Companion -/

theorem WebInv.of_outbox {s : System σ} (h : WebInv s) {outbox : List ToDeck}
    (hout : ∀ x q, .request x q ∈ outbox → q.requestId ≠ 0 ∧
      (Asks s.service.leases q.requestId → x = s.service.leases.status.clientId)) :
    WebInv { s with outbox } :=
  { h with
    requestClient := fun x q hmem =>
      hmem.elim (hout x q) fun hdeck => h.requestClient x q (.inr hdeck) }

theorem claim_webInv {s : System σ} (h : WebInv s) (minimumInterval now : ℤ) :
    WebInv (s.claim minimumInterval now) := by
  unfold claim
  split
  · exact h
  next request clientId hpending =>
  split
  · exact h
  have hsame : Service.SameLease s.service
      (s.service.claimOwnerRequestAttempt request.requestId minimumInterval now).2 := by
    unfold Service.claimOwnerRequestAttempt LeaseManager.claimRequestAttempt
    split_ifs
    · exact .refl _
    · exact .refl _
    · exact .refl _
    · exact ⟨rfl, rfl, rfl, rfl, rfl, rfl, rfl⟩
  have hinv := h.of_narrows (narrows_of_same h.coupled hsame)
  split
  next service hclaim =>
    rw [hclaim] at hinv
    exact hinv
  next service hclaim =>
    rw [hclaim] at hsame hinv
    refine hinv.of_outbox ?_
    intro x q hmem
    rcases List.mem_append.mp hmem with hold | hnew
    · exact hinv.requestClient x q (.inl hold)
    · -- the request in the outbox is the pending one, with its client
      obtain ⟨rfl, rfl⟩ := ToDeck.request.inj (List.mem_singleton.mp hnew)
      unfold Service.pendingOwnerRequest LeaseManager.pendingRequest at hpending
      split_ifs at hpending with hclosed hzero
      obtain ⟨hq, hx⟩ := Prod.mk.inj (Option.some.inj hpending)
      subst hq hx
      exact ⟨hzero, fun _ => hsame.client.symm⟩

theorem build_webInv {s : System σ} (h : WebInv s) (clientId : String) (payload : List UInt8)
    (now : ℤ) : WebInv (s.build clientId payload now) := by
  have heffect := Service.buildWebFrame_effect (s := s.service) clientId
    s.service.leases.status.leaseId payload now
  have hinv := h.of_narrows (narrows_of_effect h.coupled heffect
    (by intros; exact ServiceOp.noConfusion) (by intros; exact ServiceOp.noConfusion))
  unfold build
  split
  next device frame service hbuild =>
    rw [hbuild] at hinv
    refine hinv.of_outbox ?_
    intro x q hmem
    rcases List.mem_append.mp hmem with hold | hnew
    · exact hinv.requestClient x q (.inl hold)
    · cases List.mem_singleton.mp hnew
  next service hbuild =>
    rw [hbuild] at hinv
    exact hinv

/-- A message in force is written. -/
theorem WebInv.post {s : System σ} (h : WebInv s) {m : ToDeck}
    (hclient : ∀ x q, m = .request x q → q.requestId ≠ 0 ∧
      (Asks s.service.leases q.requestId → x = s.service.leases.status.clientId))
    (hcurrent : current s.service.leases m = true) :
    WebInv { s with toDeck := s.toDeck ++ [m] } := by
  -- a request for the lease that is written is the one the Companion waits for
  have hasks : ∀ x q, m = .request x q → q.enable = true →
      Asks s.service.leases q.requestId ∧ x = s.service.leases.status.clientId := by
    intro x q hm henable
    obtain ⟨hnonzero, hx⟩ := hclient x q hm
    subst hm
    simp only [current, henable, Bool.not_true, Bool.false_or, Bool.and_eq_true,
      decide_eq_true_eq] at hcurrent
    have hq : Asks s.service.leases q.requestId := ⟨hcurrent.1, hnonzero, hcurrent.2⟩
    exact ⟨hq, hx hq⟩
  -- so it is of the client the line is already reserved for
  have henables : ∀ id clientId, (Asks s.service.leases id →
      clientId = s.service.leases.status.clientId) → Asks s.service.leases id →
      EnablesOf clientId s.toDeck → EnablesOf clientId (s.toDeck ++ [m]) := by
    intro id clientId hid hask hold x q hmem henable
    rcases List.mem_append.mp hmem with hmem | hmem
    · exact hold x q hmem henable
    · rw [hid hask]
      exact (hasks x q (List.mem_singleton.mp hmem).symm henable).2
  refine
    { h with
      requestClient := ?_, held := ?_, frames := ?_, frameOrder := ?_, requestOrder := ?_,
      results := ?_, tracked := ?_ }
  · rintro x q (hout | hmem)
    · exact h.requestClient x q (.inl hout)
    · rcases List.mem_append.mp hmem with hmem | hmem
      · exact h.requestClient x q (.inr hmem)
      · exact hclient x q (List.mem_singleton.mp hmem).symm
  · intro hweb
    refine ⟨fun x q hmem henable => ?_, (h.held hweb).2⟩
    rcases List.mem_append.mp hmem with hmem | hmem
    · exact (h.held hweb).1 x q hmem henable
    · have hq := (hasks x q (List.mem_singleton.mp hmem).symm henable).1
      exact absurd (hq.pending ▸ h.coupled.held hweb) hq.nonzero
  · intro x f hmem
    rcases List.mem_append.mp hmem with hmem | hmem
    · exact h.frames x f hmem
    · obtain rfl := List.mem_singleton.mp hmem
      simp only [current, Bool.and_eq_true, decide_eq_true_eq] at hcurrent
      have hheld := (h.held hcurrent.1).2
      rw [hcurrent.2] at hheld
      exact hheld
  · refine List.pairwise_append.mpr ⟨h.frameOrder, List.pairwise_singleton _ _, ?_⟩
    intro a ha b hb x f hf y q hy henable
    obtain rfl := List.mem_singleton.mp hb
    subst hf hy
    simp only [current, Bool.and_eq_true, decide_eq_true_eq] at hcurrent
    rw [← hcurrent.2]
    exact (h.held hcurrent.1).1 y q ha henable
  · refine List.pairwise_append.mpr ⟨h.requestOrder, List.pairwise_singleton _ _, ?_⟩
    intro a ha b hb y q hy hq x p hx henable
    obtain rfl := List.mem_singleton.mp hb
    exact (hasks x p hx henable).2
  · intro x r hmem hask hgrants
    obtain ⟨hwire, hdeck⟩ := h.results x r hmem hask hgrants
    exact ⟨henables _ x (h.resultClient x r hmem) hask hwire, hdeck⟩
  · intro hpending hask
    obtain ⟨hwire, hdeck⟩ := h.tracked hpending hask
    exact ⟨henables _ s.asker (h.askerClient hpending) hask hwire, hdeck⟩

theorem write_webInv {s : System σ} (h : WebInv s) {index : ℕ}
    (hcurrent : (s.outbox[index]?).all (current s.service.leases) = true) :
    WebInv (s.write index) := by
  unfold write
  split
  · exact h
  next m hm =>
    have hout : WebInv { s with outbox := s.outbox.eraseIdx index } :=
      h.of_outbox fun x q hmem => h.requestClient x q (.inl (List.mem_of_mem_eraseIdx hmem))
    unfold postToDeck
    split
    · refine hout.post ?_ ?_
      · rintro x q rfl
        exact h.requestClient x q (.inl (List.mem_of_getElem? hm))
      · rw [hm] at hcurrent
        exact hcurrent
    · exact hout

/-! ### The answers of the Deck -/

theorem WebInv.of_toCompanion {s : System σ} (h : WebInv s) {toCompanion : List ToCompanion}
    (hsub : ∀ x r, .result x r ∈ toCompanion → .result x r ∈ s.toCompanion) (companionUp : Bool)
    (refused : List Refusal) : WebInv { s with toCompanion, companionUp, refused } :=
  { h with
    resultClient := fun x r hmem => h.resultClient x r (hsub x r hmem)
    results := fun x r hmem => h.results x r (hsub x r hmem) }

theorem dropCompanion_webInv {s : System σ} (h : WebInv s) (refused : List Refusal) :
    WebInv (dropCompanion { s with refused }) := by
  have heffect := Service.requireOwnerRevocation_effect h.coupled s.deviceId
  have hinv := h.of_narrows (narrows_of_effect h.coupled heffect
    (by intros; exact ServiceOp.noConfusion) (by intros; exact ServiceOp.noConfusion))
  exact hinv.of_toCompanion (fun _ _ hmem => absurd hmem List.not_mem_nil) false refused

theorem processState_webInv {s : System σ} (h : WebInv s) {sessionId : UInt64} {state : State}
    {rest : List ToCompanion} (hwire : s.toCompanion = .state sessionId state :: rest) :
    WebInv (s.processState sessionId state rest) := by
  have heffect := Service.reconcile_effect h.coupled s.deviceId sessionId state
  have hinv := h.of_narrows (narrows_of_effect h.coupled heffect
    (by intros; exact ServiceOp.noConfusion) (by intros; exact ServiceOp.noConfusion))
  unfold processState
  split
  next error service hreconcile =>
    rw [hreconcile] at hinv
    exact dropCompanion_webInv hinv s.refused
  next service hreconcile =>
    rw [hreconcile] at hinv
    refine hinv.of_toCompanion (fun x r hmem => ?_) s.companionUp s.refused
    show .result x r ∈ s.toCompanion
    rw [hwire]
    exact List.mem_cons_of_mem _ hmem

theorem WebInv.granted {s : System σ} (h : WebInv s) {t : Service} {x : String} {r : WireResult}
    (hmem : .result x r ∈ s.toCompanion) (hasks : Asks s.service.leases r.requestId)
    (hgrants : Grants r)
    (hleases : t.leases = s.service.leases.settle { s.service.leases.status with
      owner := .web
      leaseId := t.leases.status.leaseId
      expiresAt := t.leases.status.expiresAt })
    (hring : t.ring = s.service.ring) : WebInv { s with service := t } := by
  have hreserved := h.results x r hmem hasks hgrants
  rw [h.resultClient x r hmem hasks] at hreserved
  have hnone : t.leases.pendingId = 0 := by
    rw [hleases]
    rfl
  have hclient : t.leases.status.clientId = s.service.leases.status.clientId := by
    rw [hleases]
    rfl
  have hsession : t.leases.status.sessionId = s.service.leases.status.sessionId := by
    rw [hleases]
    rfl
  -- no request is pending any more
  have hidle : ∀ id, ¬Asks t.leases id := fun id ha => ha.nonzero (ha.pending ▸ hnone)
  refine
    { h with
      coupled := ⟨?_, fun _ => hnone, fun _ => ?_⟩
      requestClient := fun x q hq => ⟨(h.requestClient x q hq).1, fun ha => absurd ha (hidle _)⟩
      askerClient := fun _ ha => absurd ha (hidle _)
      resultClient := fun _ _ _ ha => absurd ha (hidle _)
      held := fun _ => ?_
      requestOrder := h.requestOrder.imp fun _ _ _ _ ha => absurd ha (hidle _)
      results := fun _ _ _ ha => absurd ha (hidle _)
      tracked := fun _ ha => absurd ha (hidle _) }
  · rw [hsession, hring]
    exact h.coupled.session
  · rw [hsession, hclient]
    exact h.coupled.live (.inr ⟨hasks.pending ▸ hasks.nonzero, hasks.enable⟩)
  · show s.Reserved t.leases.status.clientId
    rw [hclient]
    exact hreserved

theorem processResult_webInv {s : System σ} (h : WebInv s) {x : String} {r : WireResult}
    {rest : List ToCompanion} (hwire : s.toCompanion = .result x r :: rest) (now : ℤ) :
    WebInv (s.processResult r rest now) := by
  have hmem : .result x r ∈ s.toCompanion := by
    rw [hwire]
    exact List.mem_cons_self
  have hinv : WebInv
      { s with
        service := (s.service.applyOwnerResult s.deviceId r.ownerResult r.accepted now).2 } := by
    cases Service.applyOwnerResult_effect (s := s.service) s.deviceId r.ownerResult r.accepted
      now with
    | same hsame _ => exact h.of_narrows (narrows_of_same h.coupled hsame)
    | ended hdead hsession => exact h.of_narrows (narrows_of_ended s hdead hsession)
    | asked _ _ hop => cases hop
    | granted deviceId result now' hop hok hpending hrequest hsession howner hnonzero hleases
        hring =>
      obtain ⟨-, hresult, haccepted, -⟩ := ServiceOp.applyOwnerResult.inj hop
      subst hresult
      have hstate : r.state = .webTX := by
        have howner' : r.owner = .web := howner
        unfold WireResult.owner at howner'
        revert howner'
        cases r.state <;> simp
      refine h.granted hmem ⟨hrequest.symm, ?_, hpending.2⟩ ⟨haccepted, hstate⟩ ?_ hring
      · intro hzero
        exact hpending.1 (hrequest.symm.trans hzero)
      · rw [hleases]
        rfl
  unfold processResult
  split
  · exact dropCompanion_webInv h _
  split
  next error service happly =>
    rw [happly] at hinv
    exact dropCompanion_webInv hinv _
  next service happly =>
    rw [happly] at hinv
    refine hinv.of_toCompanion (fun y p hp => ?_) s.companionUp s.refused
    show .result y p ∈ s.toCompanion
    rw [hwire]
    exact List.mem_cons_of_mem _ hp

theorem process_webInv {s : System σ} (h : WebInv s) (now : ℤ) : WebInv (s.process now) := by
  unfold process
  split
  next sessionId state rest _ hwire => exact processState_webInv h hwire
  next x r rest _ hwire => exact processResult_webInv h hwire now
  · exact h

/-! ### The Deck -/

theorem announce_webInv {s : System σ} (h : WebInv s) : WebInv s.announce := by
  unfold announce postToCompanion
  split
  · refine h.of_toCompanion (fun x r hmem => ?_) s.companionUp s.refused
    rcases List.mem_append.mp hmem with hold | hnew
    · exact hold
    · cases List.mem_singleton.mp hnew
  · exact h

theorem webTx_of_revoke {d : Device σ} {epoch : UInt64}
    (h : (revokeWebTransport hw d epoch).2.session.state = .webTx) :
    d.session.state = .webTx := by
  unfold revokeWebTransport at h
  split at h
  · exact h
  · exact absurd h (returnToUsb_state_ne_webTx hw _)

theorem dropDeck_webInv {s : System σ} (h : WebInv s) (refused : List Refusal) :
    WebInv (dropDeck hw { s with refused }) := by
  have hdeck : ∀ x, s.DeckFor x → (dropDeck hw { s with refused }).DeckFor x := by
    rintro x ⟨-, hsession, -⟩
    have hrevoked : (dropDeck hw { s with refused }).device.session.state = .webTx →
        s.holder = x := fun hweb => hsession (webTx_of_revoke hw hweb)
    exact ⟨fun c hc => (by cases hc), hrevoked, hrevoked⟩
  exact
    { coupled := h.coupled
      session := wellFormed_step hw h.session (.revokeWebTransport _)
      command := fun c hc => (by cases hc)
      tracker := fun hpending => (by cases hpending)
      requestClient := fun x q hmem =>
        h.requestClient x q (.inl (hmem.resolve_right List.not_mem_nil))
      askerClient := fun hpending => (by cases hpending)
      resultClient := h.resultClient
      held := fun hweb =>
        ⟨fun _ _ hmem => absurd hmem List.not_mem_nil, hdeck _ (h.held hweb).2⟩
      frames := fun _ _ hmem => absurd hmem List.not_mem_nil
      frameOrder := .nil
      requestOrder := .nil
      results := fun x r hmem hasks hgrants =>
        ⟨fun _ _ hnil => absurd hnil List.not_mem_nil,
          hdeck x (h.results x r hmem hasks hgrants).2⟩
      tracked := fun hpending => (by cases hpending)
      queued := h.queued }

theorem WebInv.tail {s : System σ} (h : WebInv s) {m : ToDeck} {rest : List ToDeck}
    (hwire : s.toDeck = m :: rest) : WebInv { s with toDeck := rest } := by
  have hmem : ∀ {a}, a ∈ rest → a ∈ s.toDeck := by
    intro a ha
    rw [hwire]
    exact List.mem_cons_of_mem _ ha
  have hframe := h.frameOrder
  have hrequest := h.requestOrder
  rw [hwire] at hframe hrequest
  exact
    { h with
      requestClient := fun x q hq => h.requestClient x q (hq.imp_right hmem)
      held := fun hweb => ⟨fun x q hq => (h.held hweb).1 x q (hmem hq), (h.held hweb).2⟩
      frames := fun x f hf => h.frames x f (hmem hf)
      frameOrder := hframe.tail
      requestOrder := hrequest.tail
      results := fun x r hr hasks hgrants =>
        ⟨fun y q hq => (h.results x r hr hasks hgrants).1 y q (hmem hq),
          (h.results x r hr hasks hgrants).2⟩
      tracked := fun hpending hasks =>
        ⟨fun y q hq => (h.tracked hpending hasks).1 y q (hmem hq),
          (h.tracked hpending hasks).2⟩ }

theorem connect_webInv {s : System σ} (h : WebInv s) :
    WebInv { s with companionUp := true, deckUp := true, toDeck := [], toCompanion := [],
                    answered := [] } :=
  { h with
    requestClient := fun x q hq => h.requestClient x q (.inl (hq.resolve_right List.not_mem_nil))
    resultClient := fun _ _ hr => absurd hr List.not_mem_nil
    held := fun hweb => ⟨fun _ _ hq => absurd hq List.not_mem_nil, (h.held hweb).2⟩
    frames := fun _ _ hf => absurd hf List.not_mem_nil
    frameOrder := .nil
    requestOrder := .nil
    results := fun _ _ hr => absurd hr List.not_mem_nil
    tracked := fun hpending hasks =>
      ⟨fun _ _ hq => absurd hq List.not_mem_nil, (h.tracked hpending hasks).2⟩ }

theorem mem_resultIds {s : System σ} {r : CommandResult} (h : s.HasResult r) :
    r.requestId ∈ s.resultIds := by
  refine List.mem_map.mpr ⟨r, List.mem_append.mpr ?_, rfl⟩
  rcases h with h | h
  · left
    rw [h]
    exact List.mem_singleton.mpr rfl
  · right
    rw [h]
    exact List.mem_singleton.mpr rfl

/-- A new request becomes a command under a fresh id. -/
theorem WebInv.begin {s : System σ} (h : WebInv s) {x : String} {q : OwnerRequest}
    {rest : List ToDeck} (hwire : s.toDeck = .request x q :: rest) {requests : RequestTracker}
    (hbegin : s.requests.begin q.requestId = (.new, requests))
    (hfresh : s.requests.allocateServiceRequestId.1 ∉ s.resultIds) :
    WebInv
      { s with
        toDeck := rest
        requests
        asker := x
        command := some ⟨x, q.sessionId, requests.serviceRequestId, q.enable⟩ } := by
  obtain ⟨-, hpending, hexternal, hservice, hnonzero⟩ := begin_new hbegin
  have htail := h.tail hwire
  have hhead : .request x q ∈ s.toDeck := by
    rw [hwire]
    exact List.mem_cons_self
  have hfirst := h.frameOrder
  have hrequest := h.requestOrder
  rw [hwire] at hfirst hrequest
  have hunused : ∀ r, s.HasResult r → r.requestId ≠ requests.serviceRequestId := by
    intro r hr heq
    rw [hservice] at heq
    exact hfresh (heq ▸ mem_resultIds hr)
  -- whoever the line is reserved for, the request is of that client if it asks for the lease
  have hdeck : ∀ y, (q.enable = true → x = y) → s.DeckFor y →
      (∀ c, some (⟨x, q.sessionId, requests.serviceRequestId, q.enable⟩ : Command) = some c →
        c.enable = true → c.clientId = y) ∧ _ ∧ _ := fun y hy hold =>
    ⟨fun c hc henable => by cases hc; exact hy henable, hold.2⟩
  refine
    { htail with
      command := ?_, tracker := fun _ => hnonzero, askerClient := ?_, held := ?_, frames := ?_
      results := ?_, tracked := ?_ }
  · intro c hc
    cases hc
    exact ⟨hpending, hnonzero, rfl, rfl, hunused⟩
  · intro _ hasks
    dsimp only at hasks
    rw [hexternal] at hasks
    exact (h.requestClient x q (.inr hhead)).2 hasks
  · intro hweb
    obtain ⟨hall, hold⟩ := h.held hweb
    exact ⟨(htail.held hweb).1, hdeck _ (hall x q hhead) hold⟩
  · intro y f hf
    exact hdeck y (List.rel_of_pairwise_cons hfirst hf y f rfl x q rfl) (htail.frames y f hf)
  · intro y r hr hasks hgrants
    obtain ⟨hall, hold⟩ := h.results y r hr hasks hgrants
    exact ⟨(htail.results y r hr hasks hgrants).1, hdeck y (hall x q hhead) hold⟩
  · intro _ hasks
    dsimp only at hasks
    rw [hexternal] at hasks
    have hx := (h.requestClient x q (.inr hhead)).2 hasks
    refine ⟨fun y p hp henable => ?_, fun r hid _ => ⟨fun hr => ?_, fun hr => ?_⟩⟩
    · rw [hx]
      exact List.rel_of_pairwise_cons hrequest hp x q rfl hasks y p rfl henable
    · exact absurd hid (hunused r (.inl hr))
    · exact absurd hid (hunused r (.inr hr))

theorem receiveRequest_webInv {s : System σ} (h : WebInv s) {x : String} {q : OwnerRequest}
    {rest : List ToDeck} (hwire : s.toDeck = .request x q :: rest) (room : Bool)
    (hfresh : s.requests.allocateServiceRequestId.1 ∉ s.resultIds) :
    WebInv (s.receiveRequest hw x q rest room) := by
  unfold receiveRequest
  split
  · exact dropDeck_webInv hw h _
  split
  · exact h.tail hwire
  next requests hbegin =>
    split
    · exact h.begin hwire hbegin hfresh
    · exact dropDeck_webInv hw h s.refused
  · exact dropDeck_webInv hw h _

theorem receiveFrame_webInv {s : System σ} (h : WebInv s) {x : String} {f : SerialHub.Frame}
    {rest : List ToDeck} (hwire : s.toDeck = .frame x f :: rest) (room : Bool) :
    WebInv (s.receiveFrame hw x f rest room) := by
  unfold receiveFrame
  split
  next haccepts =>
    have hmem : .frame x f ∈ s.toDeck := by
      rw [hwire]
      exact List.mem_cons_self
    refine { h.tail hwire with queued := fun entry hentry => ?_ }
    rcases List.mem_append.mp hentry with hold | hnew
    · exact h.queued entry hold
    · obtain rfl := List.mem_singleton.mp hnew
      simp only [acceptsFrame, Bool.and_eq_true, decide_eq_true_eq] at haccepts
      have hweb : s.snapshot.state = .webTx := by tauto
      exact ((h.frames x f hmem).2.2 hweb).symm
  · exact dropDeck_webInv hw h s.refused

theorem receive_webInv {s : System σ} (h : WebInv s) (room : Bool)
    (hfresh : s.requests.allocateServiceRequestId.1 ∉ s.resultIds) :
    WebInv (s.receive hw room) := by
  unfold receive
  split
  next x q rest _ hwire => exact receiveRequest_webInv hw h hwire room hfresh
  next x f rest _ hwire => exact receiveFrame_webInv hw h hwire room
  · exact h

theorem WebInv.of_session {s : System σ} (h : WebInv s) {device : Device σ}
    {result : Option CommandResult} (hsession : WellFormed device.session)
    (hweb : device.session.state = .webTx → s.device.session.state = .webTx)
    (hresult : ∀ r, result = some r → r.requestId = 0) :
    WebInv { s with device, applied := some result } := by
  have hdeck : ∀ x, s.DeckFor x →
      DeckFor { s with device, applied := some result } x := fun x hx =>
    ⟨hx.1, fun hw => hx.2.1 (hweb hw), hx.2.2⟩
  refine
    { h with
      session := hsession
      command := fun c hc => ?_
      held := fun hw => ⟨(h.held hw).1, hdeck _ (h.held hw).2⟩
      frames := fun x f hf => hdeck x (h.frames x f hf)
      results := fun x r hr hasks hgrants =>
        ⟨(h.results x r hr hasks hgrants).1, hdeck x (h.results x r hr hasks hgrants).2⟩
      tracked := fun hpending hasks => ⟨(h.tracked hpending hasks).1, fun r hid hgrants => ?_⟩ }
  · obtain ⟨hpending, hnonzero, hid, hclient, hnone⟩ := h.command c hc
    refine ⟨hpending, hnonzero, hid, hclient, ?_⟩
    rintro r (hr | hr)
    · rw [hresult r (Option.some.inj hr)]
      exact hnonzero.symm
    · exact hnone r (.inr hr)
  · refine ⟨fun hr => ?_, fun hr => hdeck _ (((h.tracked hpending hasks).2 r hid hgrants).2 hr)⟩
    rw [hresult r (Option.some.inj hr)] at hid
    exact absurd hid.symm (h.tracker hpending)

theorem callSession_webInv {s : System σ} (h : WebInv s) (op : Op) :
    WebInv (s.callSession hw op) := by
  unfold callSession
  split
  next result _ hop =>
    refine h.of_session (wellFormed_step hw h.session op)
      (fun hweb => lease_of_callSession hw hop hweb) ?_
    rintro r rfl
    exact sessionResult_requestId hw hop
  · exact h

theorem lease_ne_of_fresh {s : System σ} (h : WellFormed s.device.session) {c : Command}
    (hnonzero : c.requestId ≠ 0)
    (hnew : ¬(s.device.session.hasLastRequest = true ∧
      c.requestId = s.device.session.lastRequestId)) :
    c.requestId ≠ s.device.session.leaseId := by
  intro heq
  have hweb := h.lease.mp (heq ▸ hnonzero)
  obtain ⟨hlast, hid⟩ := h.last hweb
  exact hnew ⟨hlast, heq.trans hid.symm⟩

theorem ne_last_of_fresh {s : System σ} {c : Command} {nowMs : UInt64}
    (hcommand : s.command = some c) (hfresh : s.freshIds (.apply nowMs) = true) :
    ¬(s.device.session.hasLastRequest = true ∧
      c.requestId = s.device.session.lastRequestId) := by
  rintro ⟨hlast, hid⟩
  simp [freshIds, hlast, hcommand, hid] at hfresh

theorem apply_webInv {s : System σ} (h : WebInv s) (nowMs : UInt64)
    (hfresh : s.freshIds (.apply nowMs) = true) : WebInv (s.apply hw nowMs) := by
  unfold apply
  split
  · next c hidle hcommand =>
    obtain ⟨hpending, hnonzero, hservice, hasker, hnone⟩ := h.command c hcommand
    have hnew := ne_last_of_fresh hcommand hfresh
    have hlease := lease_ne_of_fresh h.session hnonzero hnew
    obtain ⟨code, hresult, hcases⟩ :=
      requestWeb_cases hw h.session c.sessionId c.enable nowMs hnonzero hnew
    have hformed : WellFormed
        (requestWeb hw s.device c.sessionId c.requestId c.enable nowMs).2.session :=
      wellFormed_step hw h.session (.requestWeb c.sessionId c.requestId c.enable nowMs)
    dsimp only at hresult hcases ⊢
    generalize requestWeb hw s.device c.sessionId c.requestId c.enable nowMs = answer at *
    -- the session after the command is on the Web line by the old lease or by the command's
    have hholder : answer.2.session.state = .webTx →
        (s.device.session.state = .webTx ∧ Refused code ∧
          s.newHolder c answer.2.session.leaseId = s.holder) ∨
        (c.enable = true ∧ s.newHolder c answer.2.session.leaseId = c.clientId) := by
      intro hweb
      rcases hcases with ⟨hrefused, hdevice⟩ | ⟨hstate, -, hid⟩
      · left
        rw [hdevice] at hweb ⊢
        obtain ⟨hold, hsame⟩ := expireWebLease_lease hw hweb
        exact ⟨hold, hrefused, by rw [newHolder, if_neg (fun hne => hne.1 hsame)]⟩
      · right
        cases henable : c.enable with
        | false =>
          rw [hstate, henable] at hweb
          cases hweb
        | true =>
          rw [henable] at hid
          refine ⟨rfl, ?_⟩
          rw [newHolder, if_pos]
          rw [hid]
          exact ⟨hlease, rfl⟩
    have hdeck : ∀ x, s.DeckFor x →
        DeckFor
          { s with
            command := none
            device := answer.2
            applied := some answer.1
            holder := s.newHolder c answer.2.session.leaseId } x := by
      rintro x ⟨hc, hsession, hshown⟩
      refine ⟨fun _ hnone => (by cases hnone), fun hweb => ?_, hshown⟩
      rcases hholder hweb with ⟨hold, -, hsame⟩ | ⟨henable, hclient⟩
      · exact hsame.trans (hsession hold)
      · exact hclient.trans (hc c hcommand henable)
    exact
      { h with
        session := hformed
        command := fun _ hc => (by cases hc)
        held := fun hweb => ⟨(h.held hweb).1, hdeck _ (h.held hweb).2⟩
        frames := fun x f hf => hdeck x (h.frames x f hf)
        results := fun x r hr hasks hgrants =>
          ⟨(h.results x r hr hasks hgrants).1, hdeck x (h.results x r hr hasks hgrants).2⟩
        tracked := fun hp hasks => by
          obtain ⟨hwire, hold⟩ := h.tracked hp hasks
          refine ⟨hwire, fun r hid hgrants => ⟨fun hr hweb => ?_, fun hr => ?_⟩⟩
          · -- a result that grants the lease is no refusal
            rcases hholder hweb with ⟨-, hrefused, -⟩ | ⟨-, hclient⟩
            · have hr' : answer.1 = some r := Option.some.inj hr
              rw [hresult] at hr'
              obtain rfl := Option.some.inj hr'
              have haccepted := hgrants.1
              rcases hrefused with rfl | rfl <;> cases haccepted
            · exact hclient.trans hasker
          · exact absurd (hid.trans hservice.symm) (hnone r (.inr hr)) }
  · exact h

theorem hasResult_of_publish {s : System σ} {result : Option CommandResult} {r : CommandResult}
    (happlied : s.applied = some result) (hr : (result <|> s.latestCommandResult) = some r) :
    s.HasResult r := by
  cases result with
  | none => exact .inr hr
  | some r' => exact .inl (happlied.trans (congrArg some hr))

theorem publish_webInv {s : System σ} (h : WebInv s) : WebInv s.publish := by
  unfold publish
  split
  · exact h
  next result happlied =>
    have hdeck : ∀ x, s.DeckFor x →
        DeckFor
          { s with
            applied := none
            snapshot := SerialSession.snapshot s.device.session
            shownHolder := s.holder
            latestCommandResult := result <|> s.latestCommandResult } x :=
      fun x hx => ⟨hx.1, hx.2.1, hx.2.1⟩
    exact
      { h with
        command := fun c hc => by
          obtain ⟨hpending, hnonzero, hid, hclient, hnone⟩ := h.command c hc
          refine ⟨hpending, hnonzero, hid, hclient, ?_⟩
          rintro r (hr | hr)
          · cases hr
          · exact hnone r (hasResult_of_publish happlied hr)
        held := fun hweb => ⟨(h.held hweb).1, hdeck _ (h.held hweb).2⟩
        frames := fun x f hf => hdeck x (h.frames x f hf)
        results := fun x r hr hasks hgrants =>
          ⟨(h.results x r hr hasks hgrants).1, hdeck x (h.results x r hr hasks hgrants).2⟩
        tracked := fun hp hasks => by
          obtain ⟨hwire, hold⟩ := h.tracked hp hasks
          refine ⟨hwire, fun r hid hgrants => ⟨fun hr => (by cases hr), fun hr => ?_⟩⟩
          rcases hasResult_of_publish happlied hr with happ | hlat
          · have hholder := (hold r hid hgrants).1 happ
            refine ⟨fun c hc => ?_, hholder, hholder⟩
            -- a command has no result yet
            obtain ⟨-, -, hservice, -, hnone⟩ := h.command c hc
            exact absurd (hid.trans hservice.symm) (hnone r (.inl happ))
          · exact hdeck _ ((hold r hid hgrants).2 hlat) }

theorem pendingResult_some {s : System σ} {r : CommandResult} (h : s.pendingResult = some r) :
    s.requests.pending = true ∧ s.latestCommandResult = some r ∧
      r.requestId = s.requests.serviceRequestId := by
  unfold pendingResult at h
  split_ifs at h with hidle
  rw [Option.filter_eq_some_iff] at h
  simp only [not_or, Bool.not_eq_false] at hidle
  exact ⟨hidle.1, h.1, of_decide_eq_true h.2⟩

theorem complete_pending {t t' : RequestTracker} {serviceRequestId : UInt64}
    (h : t.complete serviceRequestId = (true, t')) : t'.pending = false := by
  unfold RequestTracker.complete at h
  split at h
  · cases h
  · obtain rfl := (Prod.mk.inj h).2
    rfl

theorem poll_webInv {s : System σ} (h : WebInv s) : WebInv (s.poll hw) := by
  unfold poll
  split
  · exact h
  next r hresult =>
    obtain ⟨hpending, hlatest, hid⟩ := pendingResult_some hresult
    split
    next requests hcomplete =>
      have hrequests := complete_pending hcomplete
      -- the request has a result, so its command is done
      have hcommand : s.command = none := by
        cases hc : s.command with
        | none => rfl
        | some c =>
          obtain ⟨-, -, hservice, -, hnone⟩ := h.command c hc
          exact absurd (hid.trans hservice.symm) (hnone r (.inr hlatest))
      have hdone : WebInv
          { s with requests, answered := s.answered ++ [s.requests.externalRequestId] } :=
        { h with
          command := fun c hc => absurd (hcommand.symm.trans hc) (by simp)
          tracker := fun hp => absurd hp (by simp [hrequests])
          askerClient := fun hp => absurd hp (by simp [hrequests])
          tracked := fun hp => absurd hp (by simp [hrequests]) }
      unfold postToCompanion
      split
      · refine { hdone with resultClient := fun x p hp => ?_, results := fun x p hp => ?_ }
        · rcases List.mem_append.mp hp with hold | hnew
          · exact h.resultClient x p hold
          · obtain ⟨rfl, rfl⟩ := ToCompanion.result.inj (List.mem_singleton.mp hnew)
            exact h.askerClient hpending
        · rcases List.mem_append.mp hp with hold | hnew
          · exact h.results x p hold
          · obtain ⟨rfl, rfl⟩ := ToCompanion.result.inj (List.mem_singleton.mp hnew)
            intro hasks hgrants
            obtain ⟨hwire, htracked⟩ := h.tracked hpending hasks
            exact ⟨hwire, (htracked r hid hgrants).2 hlatest⟩
      · exact hdone
    · exact dropDeck_webInv hw h s.refused

/-! ### Runs -/

theorem step_webInv {s : System σ} (h : WebInv s) {event : Event}
    (hfenced : s.fenced event = true) : WebInv (step hw s event) := by
  unfold fenced at hfenced
  rw [Bool.and_eq_true] at hfenced
  obtain ⟨hfresh, hcurrent⟩ := hfenced
  cases event with
  | acquire clientId sessionId =>
    exact h.of_narrows (narrows_of_acquire h.coupled (of_decide_eq_true hfresh))
  | disconnect clientId =>
    exact h.of_narrows (narrows_of_effect h.coupled
      (Service.disconnectLease_effect h.coupled clientId)
      (by intros; exact ServiceOp.noConfusion) (by intros; exact ServiceOp.noConfusion))
  | expire now =>
    exact h.of_narrows (narrows_of_effect h.coupled (Service.expireLease_effect h.coupled now)
      (by intros; exact ServiceOp.noConfusion) (by intros; exact ServiceOp.noConfusion))
  | claim minimumInterval now => exact claim_webInv h minimumInterval now
  | build clientId payload now => exact build_webInv h clientId payload now
  | write index => exact write_webInv h hcurrent
  | process now => exact process_webInv h now
  | connect =>
    dsimp only [step]
    split
    · exact announce_webInv (connect_webInv h)
    · exact h
  | dropCompanion =>
    dsimp only [step]
    split
    · exact dropCompanion_webInv h s.refused
    · exact h
  | dropDeck =>
    dsimp only [step]
    split
    · exact dropDeck_webInv hw h s.refused
    · exact h
  | receive room => exact receive_webInv hw h room (of_decide_eq_true hfresh)
  | session op => exact callSession_webInv hw h op
  | apply nowMs => exact apply_webInv hw h nowMs hfresh
  | publish => exact publish_webInv h
  | announce =>
    dsimp only [step]
    split
    · exact announce_webInv h
    · exact h
  | poll =>
    dsimp only [step]
    split
    · exact poll_webInv hw h
    · exact h

theorem run_webInv {s : System σ} (h : WebInv s) {events : List Event}
    (hfenced : allFenced hw s events = true) : WebInv (run hw s events) := by
  induction events generalizing s with
  | nil => exact h
  | cons event events ih =>
    rw [allFenced, Bool.and_eq_true] at hfenced
    exact ih (step_webInv hw h hfenced.1) hfenced.2

theorem start_webInv {timeout : UInt64} {context : σ} {device : Device σ}
    (hdevice : create hw timeout context = some device) (deviceId : String) (ring : Ring)
    (leaseTTL started : ℤ) : WebInv (start deviceId device (.new ring leaseTTL started)) where
  coupled := (Service.leaseInv_new ring leaseTTL started).coupled
  session := wellFormed_create hw hdevice
  command _ hc := by cases hc
  tracker hp := by cases hp
  requestClient _ _ hq := by simp [start] at hq
  askerClient hp := by cases hp
  resultClient _ _ hr := absurd hr List.not_mem_nil
  held hweb := by cases hweb
  frames _ _ hf := absurd hf List.not_mem_nil
  frameOrder := .nil
  requestOrder := .nil
  results _ _ hr := absurd hr List.not_mem_nil
  tracked hp := by cases hp
  queued _ hx := absurd hx List.not_mem_nil

/-- **Web input is queued under its own lease**: in every run in which frames and requests for the
lease are written while they are in force, whatever the clients, the two ends and the connection
do, every frame that the Deck has queued for the UART was built for the client whose request
produced the lease it is queued under. -/
theorem web_input_under_own_lease (hw : HardwareAdapter σ) {timeout : UInt64} {context : σ}
    {device : Device σ} (hdevice : create hw timeout context = some device) (deviceId : String)
    (ring : Ring) (leaseTTL started : ℤ) (events : List Event)
    (hfenced :
      allFenced hw (start deviceId device (.new ring leaseTTL started)) events = true) :
    ∀ entry ∈ (run hw (start deviceId device (.new ring leaseTTL started)) events).queued,
      entry.1 = entry.2 :=
  (run_webInv hw (start_webInv hw hdevice deviceId ring leaseTTL started) hfenced).queued

/-- A Deck after boot and a new Companion. -/
def fresh : System Unit :=
  start "deck" freshDevice (.new ((Ring.new ⟨0, 0, 0⟩).get rfl) 0 0)

/-- The Deck enters a session, connects, and the Companion learns of it. -/
def armed : List Event :=
  [.session (.enter 0), .publish, .connect, .process 1]

/-- The client asks for the lease; `index` is the place of the request in the outbox. -/
def ask (clientId : String) (index : ℕ) : List Event :=
  [.acquire clientId 1, .claim 0 1, .write index, .receive true, .apply 5, .publish, .poll,
    .process 1]

/-- The lease expires at the Companion and is taken back from the Deck. -/
def takeBack (index : ℕ) : List Event :=
  [.expire 700000000000, .claim 0 2, .write index, .receive true, .apply 6, .publish, .poll,
    .process 2]

/-- Two clients send after one another. -/
def turns : List Event :=
  armed ++ ask "a" 0 ++ [.build "a" [97] 1, .write 0, .receive true] ++ takeBack 0 ++ ask "b" 0 ++
    [.build "b" [98] 2, .write 0, .receive true]

theorem web_input_turns :
    (run .ready fresh turns).queued = [("a", "a"), ("b", "b")] ∧
      ∀ entry ∈ (run .ready fresh turns).queued, entry.1 = entry.2 :=
  ⟨by decide, web_input_under_own_lease .ready (show create .ready 1000 () = some freshDevice from rfl)
    "deck" _ 0 0 turns (by decide)⟩

/-- The task of the first client has built a frame when the lease expires, and writes it when the
second client has the line. -/
def lateFrame : List Event :=
  armed ++ ask "a" 0 ++ [.build "a" [97] 1] ++ takeBack 1 ++ ask "b" 1 ++
    [.write 0, .receive true]

/-- The byte of the first client is queued under the lease of the second. -/
theorem stolen_lease :
    ¬∀ entry ∈ (run .ready fresh lateFrame).queued, entry.1 = entry.2 := by
  decide

end System

end RlcdDeck.SerialControl
