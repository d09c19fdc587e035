import RlcdDeck.CompanionLink.Stream
import RlcdDeck.SerialHub.Equiv.Observer
import RlcdDeck.SerialLink.Sessions

/-!
# One ring session, one Deck session

The Companion knows a Deck session by its id, and a Deck counts its sessions from `1` at every
boot.  As long as no session is announced under the id that the ring still has from another one,
the ring holds frames of one Deck session only and refuses none of its frames as out of order
(`sessions_separated`).  A Deck that restarts and enters a session before it reconnects breaks
this: the ring is not emptied, and the new session's blocks are refused or mixed with the old
one's (`sessions_confused`).
-/

namespace RlcdDeck.SerialHub

open Collections

/-! ### What the ring holds -/

theorem mem_contents_push {α : Type*} {b : RingBuffer α} {x y : α}
    (h : y ∈ (b.push x).contents) : y ∈ b.contents ∨ y = x := by
  obtain ⟨k, hk, rfl⟩ := List.mem_map.mp h
  rw [List.mem_range] at hk
  unfold RingBuffer.peek RingBuffer.push
  dsimp only
  by_cases hslot : (b.head + k) % b.capacity = (b.head + b.count) % b.capacity
  · rw [hslot, Function.update_self]
    exact .inr rfl
  · rw [Function.update_of_ne hslot]
    have hne : k ≠ b.count := fun heq => hslot (by rw [heq])
    have hlt : k < b.count := by
      have : k < b.count + 1 := hk
      omega
    exact .inl (List.mem_map.mpr ⟨k, List.mem_range.mpr hlt, rfl⟩)

variable {r : Ring}

theorem mem_contents_evictOldest {x : Record} (h : x ∈ r.evictOldest.records.contents) :
    x ∈ r.records.contents := by
  unfold Ring.evictOldest at h
  split_ifs at h with hcount
  · exact h
  · rw [RingBuffer.contents_eq_cons hcount]
    exact List.mem_cons_of_mem _ h

theorem mem_contents_makeRoom {x : Record} {length n : ℕ}
    (h : x ∈ (r.makeRoom length n).records.contents) : x ∈ r.records.contents := by
  induction n generalizing r with
  | zero => exact h
  | succ n ih =>
    rw [Ring.makeRoom] at h
    split_ifs at h
    · exact mem_contents_evictOldest (ih h)
    · exact h

theorem ingest_accepted {frame : Frame} (h : (r.ingest frame).1 = none) :
    r.ingestError frame = none ∧
      (∀ x ∈ (r.ingest frame).2.records.contents, x ∈ r.records.contents ∨ x.frame = frame) ∧
      (r.ingest frame).2.sessionId = r.sessionId ∧
      (r.ingest frame).2.lastSequence = frame.sequence ∧
      (r.ingest frame).2.lastMonotonicMs = frame.monotonicMs := by
  cases herror : r.ingestError frame with
  | some error =>
    unfold Ring.ingest at h
    rw [herror] at h
    cases h
  | none =>
    have hingest : (r.ingest frame).2 =
        (r.makeRoom frame.payload.length r.records.count).store frame := by
      unfold Ring.ingest
      rw [herror]
    rw [hingest]
    refine ⟨rfl, fun x hx => ?_, (makeRoom_fields _ _ r).2.2, rfl, rfl⟩
    rcases mem_contents_push hx with hold | rfl
    · exact .inl (mem_contents_makeRoom hold)
    · exact .inr rfl

/-- What a state publication of session `sessionId` leaves: the device that owns the ring, and
either the ring as it was or an empty ring of another session. -/
structure Reconciled (s t : Service) (deviceId : String) (sessionId : UInt64) : Prop where
  disarmed : sessionId = 0 → t.deviceId = ""
  armed : sessionId ≠ 0 → t.deviceId = deviceId ∧ t.ring.sessionId = sessionId
  ring : t.ring = s.ring ∨
    (t.ring.sessionId ≠ s.ring.sessionId ∧ t.ring.records.contents = [] ∧
      t.ring.hasLastSequence = false ∧ t.ring.hasLastMonotonic = false)

theorem reconcileDisarmed_accepted {s t : Service} {deviceId : String} {sessionId : UInt64}
    (howner : s.deviceId = "" ∨ s.deviceId = deviceId)
    (h : s.reconcileDisarmed deviceId sessionId = (none, t)) :
    Reconciled s t deviceId sessionId := by
  unfold Service.reconcileDisarmed at h
  split_ifs at h with hid hother
  · cases h
  · cases h
    have hempty : s.deviceId = "" := howner.resolve_right hother
    exact ⟨fun _ => hempty, fun hne => absurd hne hid, .inl rfl⟩
  dsimp only at h
  by_cases hactive : s.ring.sessionId ≠ 0
  · rw [if_pos hactive] at h
    unfold Ring.endSession at h
    by_cases hclosed : s.ring.closed = true
    · rw [if_pos hclosed] at h
      cases h
    · rw [if_neg hclosed, if_neg (by simp [hactive])] at h
      cases h
      exact ⟨fun _ => rfl, fun hne => absurd hne hid,
        .inr ⟨fun heq => hactive heq.symm, rfl, rfl, rfl⟩⟩
  · rw [if_neg hactive] at h
    cases h
    exact ⟨fun _ => rfl, fun hne => absurd hne hid, .inl rfl⟩

theorem confirmState_fields (s : Service) (sessionId previousSessionId : UInt64)
    (previousState state : State) :
    (s.confirmState sessionId previousSessionId previousState state).ring = s.ring ∧
      (s.confirmState sessionId previousSessionId previousState state).deviceId = s.deviceId := by
  unfold Service.confirmState
  split_ifs
  · exact ⟨rfl, rfl⟩
  · exact ⟨rfl, rfl⟩
  · exact ⟨rfl, rfl⟩

theorem reconcile_accepted {s t : Service} {deviceId : String} {sessionId : UInt64} {state : State}
    (howner : s.deviceId = "" ∨ s.deviceId = deviceId)
    (h : s.reconcile deviceId sessionId state = (none, t)) :
    Reconciled s t deviceId sessionId := by
  unfold Service.reconcile at h
  split_ifs at h with hclosed hdevice hdisarmed hzero hbusy
  · cases h
  · cases h
  · exact reconcileDisarmed_accepted howner h
  · cases h
  · cases h
  · dsimp only at h
    cases hbegin : s.ring.begin sessionId with
    | mk error ring =>
      rw [hbegin] at h
      cases error with
      | some error => cases h
      | none =>
        simp only [Prod.mk.injEq, true_and] at h
        subst h
        obtain ⟨hring, hdeviceId⟩ := confirmState_fields
          { s with
            ring
            leases :=
              if s.ring.sessionId ≠ 0 ∧ s.ring.sessionId ≠ sessionId then
                s.leases.endSession s.ring.sessionId
              else s.leases
            deviceId
            state
            webSequence := if s.ring.sessionId ≠ sessionId then 0 else s.webSequence }
          sessionId s.ring.sessionId s.state state
        unfold Ring.begin at hbegin
        split_ifs at hbegin with hshut hsame
        · cases hbegin
        · cases hbegin
          refine ⟨fun hno => absurd hno hzero, fun _ => ⟨hdeviceId, ?_⟩, .inl hring⟩
          rw [hring]
          exact hsame
        · cases hbegin
          refine ⟨fun hno => absurd hno hzero, fun _ => ⟨hdeviceId, ?_⟩, .inr ?_⟩
          · rw [hring]
          · rw [hring]
            exact ⟨fun heq => hsame heq.symm, rfl, rfl, rfl⟩

end RlcdDeck.SerialHub

namespace RlcdDeck.SerialLink

open SerialSession SerialHub

/-! ### What is announced -/

/-- Every frame on the wire that carries the id of the announcement before it belongs to the
announced session; `told` is the announcement before the first message, and `published` the
last one. -/
def Announced (told : Option (UInt64 × ℕ)) : List Sent → UInt64 × ℕ → Prop
  | [], published => told = some published
  | ⟨epoch, .state sessionId _⟩ :: wire, published =>
    Announced (some (sessionId, epoch)) wire published
  | ⟨epoch, .frame frame⟩ :: wire, published =>
    (∃ a, told = some a ∧ (frame.sessionId = a.1 → epoch = a.2)) ∧
      Announced told wire published

theorem Announced.state {told : Option (UInt64 × ℕ)} {wire : List Sent}
    {published : UInt64 × ℕ} (h : Announced told wire published) (epoch : ℕ)
    (sessionId : UInt64) (state : State) :
    Announced told (wire ++ [⟨epoch, .state sessionId state⟩]) (sessionId, epoch) := by
  induction wire generalizing told with
  | nil => rfl
  | cons sent wire ih =>
    obtain ⟨e, message⟩ := sent
    cases message with
    | state i st => exact ih h
    | frame f => exact ⟨h.1, ih h.2⟩

theorem Announced.frame {told : Option (UInt64 × ℕ)} {wire : List Sent}
    {published : UInt64 × ℕ} (h : Announced told wire published) {epoch : ℕ} {frame : Frame}
    (hframe : frame.sessionId = published.1 → epoch = published.2) :
    Announced told (wire ++ [⟨epoch, .frame frame⟩]) published := by
  induction wire generalizing told with
  | nil => exact ⟨⟨published, h, hframe⟩, h⟩
  | cons sent wire ih =>
    obtain ⟨e, message⟩ := sent
    cases message with
    | state i st => exact ih h
    | frame f => exact ⟨h.1, ih h.2⟩

variable {s t : Service} {deviceId : String} {frame : Frame}

namespace System

variable {σ : Type*} {hw : HardwareAdapter σ}

/-- No session is announced to the Companion under the id its ring still has from another one, and
no block is sent under the id that another session was announced with. -/
def distinct (s : System σ) : Event σ → Bool
  | .deliver =>
    match s.wire with
    | ⟨epoch, .state sessionId _⟩ :: _ =>
      sessionId = 0 || sessionId ≠ s.service.ring.sessionId || epoch = s.ringEpoch
    | _ => true
  | .send index =>
    match s.blocks[index]? with
    | some frame => frame.sessionId ≠ s.published.1 || s.epoch = s.published.2
    | none => true
  | _ => true

/-- Every step of the run is so. -/
def allDistinct (hw : HardwareAdapter σ) (s : System σ) : List (Event σ) → Bool
  | [] => true
  | e :: events => s.distinct e && allDistinct hw (s.step hw e) events

/-- A block as the router makes them. -/
structure WellFormed (frame : Frame) : Prop where
  channel : frame.channel = .targetRx
  sequence : frame.sequence ≠ 0
  nonempty : frame.payload.length ≠ 0
  bounded : frame.payload.length ≤ maxPayloadBytes

/-- The Companion processed the announcement `a` last. -/
def Heard (s : System σ) (a : UInt64 × ℕ) : Prop :=
  (a.1 = 0 → s.service.deviceId = "") ∧
    (a.1 ≠ 0 → s.service.ring.sessionId = a.1 ∧ s.ringEpoch = a.2)

structure Inv (s : System σ) : Prop where
  owner : s.service.deviceId = "" ∨ s.service.deviceId = s.deviceId
  epochs : ∀ x ∈ s.ingested, x.1 = s.ringEpoch
  stored : ∀ x ∈ s.service.ring.records.contents, (s.ringEpoch, x.frame) ∈ s.ingested
  lastSequence : s.service.ring.hasLastSequence = true →
    ∃ f, (s.ringEpoch, f) ∈ s.ingested ∧ f.sequence = s.service.ring.lastSequence
  lastMonotonic : s.service.ring.hasLastMonotonic = true →
    ∃ f, (s.ringEpoch, f) ∈ s.ingested ∧ f.monotonicMs = s.service.ring.lastMonotonicMs
  blocks : ∀ f ∈ s.blocks, WellFormed f
  frames : ∀ epoch f, ⟨epoch, .frame f⟩ ∈ s.wire → WellFormed f
  announced : s.connected = true →
    ∃ told, (∀ a, told = some a → s.Heard a) ∧ Announced told s.wire s.published

/-! ### The Deck's steps -/

theorem Inv.of_same {s t : System σ} (h : Inv s) (hservice : t.service = s.service)
    (hdevice : t.deviceId = s.deviceId) (hepoch : t.ringEpoch = s.ringEpoch)
    (hingested : t.ingested = s.ingested) (hwire : t.wire = s.wire)
    (hconnected : t.connected = s.connected) (hpublished : t.published = s.published)
    (hblocks : ∀ f ∈ t.blocks, WellFormed f) : Inv t := by
  refine ⟨?_, ?_, ?_, ?_, ?_, hblocks, ?_, ?_⟩
  · rw [hservice, hdevice]
    exact h.owner
  · rw [hingested, hepoch]
    exact h.epochs
  · rw [hservice, hingested, hepoch]
    exact h.stored
  · rw [hservice, hingested, hepoch]
    exact h.lastSequence
  · rw [hservice, hingested, hepoch]
    exact h.lastMonotonic
  · rw [hwire]
    exact h.frames
  · rw [hconnected, hwire, hpublished]
    unfold Heard
    rw [hservice, hepoch]
    exact h.announced

theorem Inv.boot {s : System σ} (h : Inv s) (context : σ) : Inv (s.boot hw context) := by
  unfold System.boot
  split
  · exact h
  · exact h.of_same rfl rfl rfl rfl rfl rfl rfl fun f hf => absurd hf List.not_mem_nil

theorem Inv.callSession {s : System σ} (h : Inv s) (op : Op) : Inv (s.callSession hw op) := by
  unfold System.callSession
  dsimp only
  split_ifs
  · exact h.of_same rfl rfl rfl rfl rfl rfl rfl fun f hf => absurd hf List.not_mem_nil
  · exact h.of_same rfl rfl rfl rfl rfl rfl rfl h.blocks

theorem Inv.produce {s : System σ} (h : Inv s) (monotonicMs : UInt64) (payload : List UInt8) :
    Inv (s.produce monotonicMs payload) := by
  unfold System.produce
  split_ifs with hbad
  · exact h
  · push Not at hbad
    refine h.of_same rfl rfl rfl rfl rfl rfl rfl fun f hf => ?_
    rcases List.mem_append.mp hf with hold | hnew
    · exact h.blocks f hold
    · rw [List.mem_singleton.mp hnew]
      exact ⟨rfl, Counter.nonzeroNext64_ne_zero _, hbad.2.1, hbad.2.2⟩

theorem Inv.announce {s : System σ} (h : Inv s) : Inv s.announce := by
  unfold System.announce post
  by_cases hconnected : s.connected = true
  · rw [if_pos hconnected]
    refine ⟨h.owner, h.epochs, h.stored, h.lastSequence, h.lastMonotonic, h.blocks,
      fun epoch f hf => ?_, fun _ => ?_⟩
    · rcases List.mem_append.mp hf with hold | hnew
      · exact h.frames epoch f hold
      · cases List.mem_singleton.mp hnew
    · obtain ⟨told, hheard, hannounced⟩ := h.announced hconnected
      exact ⟨told, hheard, hannounced.state _ _ _⟩
  · rw [if_neg hconnected]
    exact ⟨h.owner, h.epochs, h.stored, h.lastSequence, h.lastMonotonic, h.blocks, h.frames,
      fun hno => absurd hno hconnected⟩

theorem Inv.connect {s : System σ} (h : Inv s) :
    Inv (System.announce { s with online := true, connected := true, wire := [] }) := by
  refine ⟨h.owner, h.epochs, h.stored, h.lastSequence, h.lastMonotonic, h.blocks,
    fun epoch f hf => ?_, fun _ => ⟨none, (fun a ha => by cases ha), rfl⟩⟩
  cases List.mem_singleton.mp hf

theorem Inv.post {s : System σ} (h : Inv s) {frame : Frame} (hframe : WellFormed frame)
    (hdistinct : frame.sessionId = s.published.1 → s.epoch = s.published.2) :
    Inv (s.post (.frame frame)) := by
  unfold System.post
  split_ifs with hconnected
  · refine ⟨h.owner, h.epochs, h.stored, h.lastSequence, h.lastMonotonic, h.blocks,
      fun epoch f hf => ?_, fun _ => ?_⟩
    · rcases List.mem_append.mp hf with hold | hnew
      · exact h.frames epoch f hold
      · cases List.mem_singleton.mp hnew
        exact hframe
    · obtain ⟨told, hheard, hannounced⟩ := h.announced hconnected
      exact ⟨told, hheard, hannounced.frame hdistinct⟩
  · exact h

/-! ### The Companion's steps -/

theorem requireOwnerRevocation_fields (s : Service) (deviceId : String) :
    (s.requireOwnerRevocation deviceId).2.ring = s.ring ∧
      (s.requireOwnerRevocation deviceId).2.deviceId = s.deviceId := by
  unfold Service.requireOwnerRevocation
  split_ifs
  · exact ⟨rfl, rfl⟩
  · exact ⟨rfl, rfl⟩
  · exact ⟨rfl, rfl⟩

theorem Inv.drop {s : System σ} (h : Inv s) : Inv s.drop := by
  obtain ⟨hring, hdevice⟩ := requireOwnerRevocation_fields s.service s.deviceId
  unfold System.drop
  refine ⟨?_, h.epochs, ?_, ?_, ?_, h.blocks, fun epoch f hf => absurd hf List.not_mem_nil,
    (fun hno => by cases hno)⟩
  · dsimp only
    rw [hdevice]
    exact h.owner
  · dsimp only
    rw [hring]
    exact h.stored
  · dsimp only
    rw [hring]
    exact h.lastSequence
  · dsimp only
    rw [hring]
    exact h.lastMonotonic

theorem reconcile_refused {sessionId : UInt64} {state : State} {error : ServiceError}
    (h : s.reconcile deviceId sessionId state = (some error, t)) : t = s := by
  unfold Service.reconcile Service.reconcileDisarmed at h
  dsimp only at h
  split_ifs at h
  · cases h
    rfl
  · cases h
    rfl
  · cases h
    rfl
  · cases h
  · split at h
    · cases h
      rfl
    · cases h
  · cases h
  · cases h
    rfl
  · cases h
    rfl
  -- the ring refuses to begin the session
  all_goals
    split at h
    · cases h
      rfl
    · cases h

/-- An announcement: the ring stays if it is of the announced session, else it is emptied. -/
theorem Inv.deliverState {s : System σ} (h : Inv s) {epoch : ℕ} {sessionId : UInt64}
    {state : State} {wire : List Sent}
    (hwire : s.wire = ⟨epoch, .state sessionId state⟩ :: wire) (hconnected : s.connected = true)
    (hdistinct : sessionId ≠ 0 → sessionId = s.service.ring.sessionId → epoch = s.ringEpoch) :
    Inv (s.deliverState epoch sessionId state wire) := by
  have hframes : ∀ e f, ⟨e, .frame f⟩ ∈ wire → WellFormed f := by
    intro e f hf
    refine h.frames e f ?_
    rw [hwire]
    exact List.mem_cons_of_mem _ hf
  obtain ⟨told, -, hannounced⟩ := h.announced hconnected
  rw [hwire] at hannounced
  unfold System.deliverState
  split
  · next error service hcall =>
    rw [reconcile_refused hcall]
    exact h.drop
  · next service hcall =>
    obtain ⟨hdisarmed, harmed, hring⟩ := reconcile_accepted h.owner hcall
    have howner : service.deviceId = "" ∨ service.deviceId = s.deviceId := by
      by_cases hzero : sessionId = 0
      · exact .inl (hdisarmed hzero)
      · exact .inr (harmed hzero).1
    split_ifs with hsame
    · -- the session of the ring
      have hkept : service.ring = s.service.ring := by
        rcases hring with hkept | ⟨hother, -⟩
        · exact hkept
        · exact absurd hsame hother
      refine ⟨howner, h.epochs, ?_, ?_, ?_, h.blocks, hframes, fun _ => ?_⟩
      · dsimp only
        rw [hkept]
        exact h.stored
      · dsimp only
        rw [hkept]
        exact h.lastSequence
      · dsimp only
        rw [hkept]
        exact h.lastMonotonic
      · refine ⟨_, fun a ha => ?_, hannounced⟩
        obtain rfl := Option.some.inj ha
        refine ⟨hdisarmed, fun hne => ⟨(harmed hne).2, ?_⟩⟩
        exact (hdistinct hne ((harmed hne).2.symm.trans hsame)).symm
    · -- another session: an empty ring
      rcases hring with hkept | ⟨-, hempty, hsequence, hmonotonic⟩
      · exact absurd (by rw [hkept]) hsame
      · refine ⟨howner, fun x hx => absurd hx List.not_mem_nil, ?_, ?_, ?_, h.blocks, hframes,
          fun _ => ?_⟩
        · dsimp only
          rw [hempty]
          exact fun x hx => absurd hx List.not_mem_nil
        · dsimp only
          rw [hsequence]
          exact fun hno => by cases hno
        · dsimp only
          rw [hmonotonic]
          exact fun hno => by cases hno
        · refine ⟨_, fun a ha => ?_, hannounced⟩
          obtain rfl := Option.some.inj ha
          exact ⟨hdisarmed, fun hne => ⟨(harmed hne).2, rfl⟩⟩

theorem Inv.epoch_eq {s : System σ} (h : Inv s) {epoch : ℕ} {frame : Frame} {wire : List Sent}
    (hwire : s.wire = ⟨epoch, .frame frame⟩ :: wire) (hconnected : s.connected = true)
    (hdevice : s.deviceId ≠ "") (howner : s.deviceId = s.service.deviceId)
    (hsession : frame.sessionId = s.service.ring.sessionId) : epoch = s.ringEpoch := by
  obtain ⟨told, hheard, hannounced⟩ := h.announced hconnected
  rw [hwire] at hannounced
  obtain ⟨⟨a, ha, hframe⟩, -⟩ := hannounced
  obtain ⟨hdisarmed, harmed⟩ := hheard a ha
  by_cases hzero : a.1 = 0
  · rw [howner, hdisarmed hzero] at hdevice
    exact absurd rfl hdevice
  · obtain ⟨hid, hepoch⟩ := harmed hzero
    rw [hepoch]
    exact hframe (hsession.trans hid)

theorem ingestError_session {r : Ring} (h : r.ingestError frame = none) :
    frame.sessionId = r.sessionId := by
  unfold Ring.ingestError at h
  split_ifs at h with hclosed hsession hframe hlarge hsequence hmonotonic
  by_contra hne
  exact hsession (.inr hne)

theorem ingest_accepted_iff (h : s.ingest deviceId frame = (none, t)) :
    deviceId ≠ "" ∧ deviceId = s.deviceId ∧ (s.ring.ingest frame).1 = none ∧
      t = { s with ring := (s.ring.ingest frame).2 } := by
  unfold Service.ingest at h
  split_ifs at h with hclosed howner
  · cases h
  · cases h
  · push Not at howner
    simp only [Prod.mk.injEq, Option.map_eq_none_iff] at h
    exact ⟨howner.1, howner.2.1, h.1, h.2.symm⟩

theorem ingest_refused {error : ServiceError}
    (h : s.ingest deviceId frame = (some error, t)) : t = s := by
  unfold Service.ingest at h
  split_ifs at h with hclosed howner
  · cases h
    rfl
  · cases h
    rfl
  · simp only [Prod.mk.injEq, Option.map_eq_some_iff] at h
    obtain ⟨⟨ringError, hring, -⟩, rfl⟩ := h
    rw [ingest_of_error (by rw [hring]; simp)]

theorem Inv.deliverFrame {s : System σ} (h : Inv s) {epoch : ℕ} {frame : Frame}
    {wire : List Sent} (hwire : s.wire = ⟨epoch, .frame frame⟩ :: wire)
    (hconnected : s.connected = true) : Inv (s.deliverFrame epoch frame wire) := by
  unfold System.deliverFrame
  split
  · next error service hcall =>
    rw [ingest_refused hcall]
    exact h.drop
  · next service hcall =>
    obtain ⟨hdevice, howner, haccepted, rfl⟩ := ingest_accepted_iff hcall
    obtain ⟨herror, hstored, hsession, hsequence, hmonotonic⟩ := ingest_accepted haccepted
    have hepoch : epoch = s.ringEpoch :=
      h.epoch_eq hwire hconnected hdevice howner (ingestError_session herror)
    have hnew : (s.ringEpoch, frame) ∈ s.ingested ++ [(epoch, frame)] := by
      rw [hepoch]
      exact List.mem_append_right _ (List.mem_singleton_self _)
    refine ⟨h.owner, fun x hx => ?_, fun x hx => ?_, fun _ => ⟨frame, hnew, hsequence.symm⟩,
      fun _ => ⟨frame, hnew, hmonotonic.symm⟩, h.blocks, fun e f hf => ?_, fun _ => ?_⟩
    · rcases List.mem_append.mp hx with hold | hin
      · exact h.epochs x hold
      · rw [List.mem_singleton.mp hin]
        exact hepoch
    · rcases hstored x hx with hold | hin
      · exact List.mem_append_left _ (h.stored x hold)
      · rw [hin]
        exact hnew
    · refine h.frames e f ?_
      rw [hwire]
      exact List.mem_cons_of_mem _ hf
    · obtain ⟨told, hheard, hannounced⟩ := h.announced hconnected
      rw [hwire] at hannounced
      refine ⟨told, fun a ha => ?_, hannounced.2⟩
      obtain ⟨hdisarmed, harmed⟩ := hheard a ha
      exact ⟨hdisarmed, fun hne => ⟨hsession.trans (harmed hne).1, (harmed hne).2⟩⟩

theorem Inv.deliver {s : System σ} (h : Inv s) (hdistinct : s.distinct .deliver = true) :
    Inv s.deliver := by
  unfold System.deliver
  split
  · next epoch sessionId state wire hconnected hwire =>
    refine h.deliverState hwire hconnected fun hne hsame => ?_
    unfold distinct at hdistinct
    rw [hwire] at hdistinct
    simpa [hne, hsame.symm] using hdistinct
  · next epoch frame wire hconnected hwire => exact h.deliverFrame hwire hconnected
  · exact h

theorem Inv.step {s : System σ} (h : Inv s) {e : Event σ} (hdistinct : s.distinct e = true) :
    Inv (s.step hw e) := by
  cases e with
  | boot context => exact h.boot context
  | session op => exact h.callSession op
  | produce monotonicMs payload => exact h.produce monotonicMs payload
  | connect =>
    unfold System.step
    dsimp only
    split_ifs
    · exact h.connect
    · exact h
  | publish =>
    unfold System.step
    dsimp only
    split_ifs
    · exact h.announce
    · exact h
  | send index =>
    unfold System.step
    dsimp only
    split_ifs
    · cases hblock : s.blocks[index]? with
      | none => exact h
      | some frame =>
        refine h.post (h.blocks frame (List.mem_of_getElem? hblock)) fun hsame => ?_
        dsimp only [distinct] at hdistinct
        rw [hblock] at hdistinct
        simpa [hsame] using hdistinct
    · exact h
  | deliver => exact h.deliver hdistinct
  | drop =>
    unfold System.step
    dsimp only
    split_ifs
    · exact h.drop
    · exact h
  | lose => exact h.of_same rfl rfl rfl rfl rfl rfl rfl h.blocks

theorem Inv.run {s : System σ} (h : Inv s) {events : List (Event σ)}
    (hdistinct : allDistinct hw s events = true) : Inv (s.run hw events) := by
  induction events generalizing s with
  | nil => exact h
  | cons e events ih =>
    rw [allDistinct, Bool.and_eq_true] at hdistinct
    exact ih (h.step hdistinct.1) hdistinct.2

theorem inv_start {config : Config} {ring : Ring} (hnew : Ring.new config = some ring)
    (deviceId : String) (device : Device σ) (leaseTTL started : ℤ) :
    Inv (start deviceId device (.new ring leaseTTL started)) := by
  have hempty : ring.records.contents = [] ∧ ring.hasLastSequence = false ∧
      ring.hasLastMonotonic = false := by
    unfold Ring.new at hnew
    dsimp only at hnew
    split_ifs at hnew
    obtain rfl := Option.some.inj hnew
    exact ⟨rfl, rfl, rfl⟩
  refine ⟨.inl rfl, fun x hx => absurd hx List.not_mem_nil, ?_, ?_, ?_,
    fun f hf => absurd hf List.not_mem_nil, fun e f hf => absurd hf List.not_mem_nil,
    (fun hno => by cases hno)⟩
  · show ∀ x ∈ ring.records.contents, _
    rw [hempty.1]
    exact fun x hx => absurd hx List.not_mem_nil
  · show ring.hasLastSequence = true → _
    rw [hempty.2.1]
    exact fun hno => by cases hno
  · show ring.hasLastMonotonic = true → _
    rw [hempty.2.2]
    exact fun hno => by cases hno

/-! ### Separation -/

/-- The frame comes after every frame of its own session that the ring took. -/
def inOrder (s : System σ) (epoch : ℕ) (frame : Frame) : Prop :=
  ∀ f, (epoch, f) ∈ s.ingested →
    Ring.sequenceAfter frame.sequence f.sequence = true ∧ f.monotonicMs ≤ frame.monotonicMs

/-- What the ring is for: it holds frames of one Deck session, and it refuses no frame of the Deck
as out of order that comes in the order of its session. -/
structure Separated (s : System σ) : Prop where
  one : ∀ x ∈ s.ingested, ∀ y ∈ s.ingested, x.1 = y.1
  held : ∀ x ∈ s.service.ring.records.contents, ∃ epoch, (epoch, x.frame) ∈ s.ingested
  accepted : ∀ epoch frame wire, s.connected = true →
    s.wire = ⟨epoch, .frame frame⟩ :: wire → s.inOrder epoch frame →
    (s.service.ingest s.deviceId frame).1 ≠ some (.ring .outOfOrder)

theorem Inv.accepted {s : System σ} (h : Inv s) {epoch : ℕ} {frame : Frame} {wire : List Sent}
    (hconnected : s.connected = true) (hwire : s.wire = ⟨epoch, .frame frame⟩ :: wire)
    (horder : s.inOrder epoch frame) :
    (s.service.ingest s.deviceId frame).1 ≠ some (.ring .outOfOrder) := by
  have hframe : WellFormed frame := by
    refine h.frames epoch frame ?_
    rw [hwire]
    exact List.mem_cons_self
  unfold Service.ingest
  split_ifs with hclosed howner
  · simp
  · simp
  push Not at howner
  have herror : s.service.ring.ingestError frame ≠ some .outOfOrder := by
    unfold Ring.ingestError
    split_ifs with hshut hsession hbad hlarge hsequence hmonotonic
    · simp
    · simp
    · rcases hbad with hbad | hbad | hbad | hbad
      · exact absurd hframe.channel hbad
      · exact absurd hbad hframe.sequence
      · exact absurd hbad hframe.nonempty
      · exact absurd hframe.bounded (Nat.not_le.mpr hbad)
    · simp
    · -- a frame of the ring's own session, behind the last one
      push Not at hsession
      have hepoch := h.epoch_eq hwire hconnected howner.1 howner.2.1 hsession.2
      obtain ⟨f, hf, hlast⟩ := h.lastSequence hsequence.1
      rw [← hepoch] at hf
      rw [← hlast] at hsequence
      exact absurd (horder f hf).1 hsequence.2
    · push Not at hsession
      have hepoch := h.epoch_eq hwire hconnected howner.1 howner.2.1 hsession.2
      obtain ⟨f, hf, hlast⟩ := h.lastMonotonic hmonotonic.1
      rw [← hepoch] at hf
      rw [← hlast] at hmonotonic
      exact absurd (horder f hf).2 (UInt64.not_le.mpr hmonotonic.2)
    · simp
  dsimp only
  unfold Ring.ingest
  cases hcase : s.service.ring.ingestError frame with
  | none => simp
  | some error =>
    rw [hcase] at herror
    simpa using herror

/-- **Sessions stay apart**: in every run in which no session is announced to the Companion under
the id its ring still has from another Deck session, over any boots, enters, exits and reconnects,
the ring never holds frames of two Deck sessions and never refuses an in-order frame of the Deck
as out of order. -/
theorem sessions_separated (hw : HardwareAdapter σ) {config : Config} {ring : Ring}
    (hnew : Ring.new config = some ring) (deviceId : String) (device : Device σ)
    (leaseTTL started : ℤ) (events : List (Event σ))
    (hdistinct :
      allDistinct hw (start deviceId device (.new ring leaseTTL started)) events = true) :
    (run hw (start deviceId device (.new ring leaseTTL started)) events).Separated := by
  have h := (inv_start hnew deviceId device leaseTTL started).run hdistinct
  exact ⟨fun x hx y hy => (h.epochs x hx).trans (h.epochs y hy).symm,
    fun x hx => ⟨_, h.stored x hx⟩, fun epoch frame wire hc hw ho => h.accepted hc hw ho⟩

/-- A UART that always answers. -/
def quietHardware : HardwareAdapter Unit :=
  ⟨fun c _ => (true, c), fun c => (true, c), id, id, id⟩

/-- A Deck and a Companion that were just started. -/
def fresh : System Unit :=
  start "deck" ⟨{ leaseTimeoutMs := 1000 }, ()⟩ (.new ((Ring.new ⟨0, 0, 0⟩).get (by decide)) 0 0)

/-- The Deck restarts and reconnects before it enters its next session. -/
theorem sessions_separated_disarmed :
    (run quietHardware fresh
      [.session (.enter 0), .produce 10 [1], .connect, .deliver, .send 0, .deliver, .boot (),
        .drop, .connect, .deliver, .session (.enter 0), .publish, .produce 5 [2], .deliver,
        .send 0, .deliver]).Separated :=
  sessions_separated quietHardware (Option.some_get _).symm "deck" _ 0 0 _ (by decide)

/-- Two blocks of a session, a restart, a new session with one block, and a reconnection. -/
def refusedRun : List (Event Unit) :=
  [.session (.enter 0), .produce 10 [1], .produce 20 [2], .connect, .deliver, .send 0, .send 1,
    .deliver, .deliver, .boot (), .drop, .session (.enter 0), .produce 5 [3], .connect, .deliver,
    .send 0]

/-- One block of a session, a restart, a new session with two blocks, and a reconnection. -/
def mixedRun : List (Event Unit) :=
  [.session (.enter 0), .produce 10 [1], .connect, .deliver, .send 0, .deliver, .boot (), .drop,
    .session (.enter 0), .produce 5 [3], .produce 20 [4], .connect, .deliver, .send 1, .deliver]

/-- A Deck that restarts and enters a session before it reconnects: the first block of the new
session is refused as out of order, and another is stored behind a block of the old session. -/
theorem sessions_confused :
    ¬(run quietHardware fresh refusedRun).Separated ∧
      ¬(run quietHardware fresh mixedRun).Separated := by
  constructor
  · intro h
    refine h.accepted 2 ⟨.targetRx, 1, 1, 5, [3]⟩ [] (by decide) (by decide) ?_ (by decide)
    intro f hf
    have hingested : (run quietHardware fresh refusedRun).ingested =
        [(1, ⟨.targetRx, 1, 1, 10, [1]⟩), (1, ⟨.targetRx, 1, 2, 20, [2]⟩)] := by decide
    rw [hingested] at hf
    simp at hf
  · intro h
    have hone := h.one (1, ⟨.targetRx, 1, 1, 10, [1]⟩) (by decide)
      (2, ⟨.targetRx, 1, 2, 20, [4]⟩) (by decide)
    cases hone

end System

end RlcdDeck.SerialLink
