import RlcdDeck.CodexAppServer.Equiv.RpcClient

/-!
# Answers that come late

A call that gives up takes its entry out of the table, and the client does not remember it.  When the
server's answer to it comes, `accept` cannot tell it from an answer to a request that was never made,
and ends the connection.  Every other answer finds its call: a request that was made and not answered
is in the table, or its call has given up, or the client is closed (`Answerable`).
-/

namespace RlcdDeck.CodexAppServer

open Effects

variable {β : Type}

namespace Client

variable {client next : Client β}

/-- The call of the request `id` has given up: its context ended, or the request was not written. -/
def GaveUp (client : Client β) (id : ℕ) : Prop :=
  ∃ key, client.calls key = some (.returned (some id) .context) ∨
    client.calls key = some (.returned (some id) .unsent)

/-- The read loop has a response, and the call of its request has given up. -/
def Late (client : Client β) : Prop :=
  client.closed = false ∧ ∃ response, client.reader = .accepting (.response response) ∧
    client.GaveUp response.id

/-- `accept` does not end the connection because of a response. -/
def Harmless (client : Client β) : Prop :=
  ∀ response next, client.reader = .accepting (.response response) → client.accept = some next →
    next.reader = .failing .schemaChanged → client.closed = true

/-! ### What a step does -/

/-- A step that leaves the calls alone, and does not close the client. -/
structure Quiet (client next : Client β) : Prop where
  nextId : next.nextId = client.nextId
  closed : next.closed = client.closed
  calls : next.calls = client.calls

/-- What a step does to the table, to the calls and to the document of the read loop. -/
inductive Effect (client : Client β) (event : Event β) (next : Client β) : Prop
  | quiet (hquiet : client.Quiet next) (hpending : next.pending = client.pending)
      (hreader : next.reader = client.reader ∨ ∀ document, next.reader ≠ .accepting document)
  | received (document : Document β) (hevent : event = .read (some document))
      (hquiet : client.Quiet next) (hpending : next.pending = client.pending)
      (hreader : next.reader = .accepting document)
  | answered (response : Response β) (hold : client.reader = .accepting (.response response))
      (hquiet : client.Quiet next) (hpending : next.pending = client.pending.erase response.id)
      (hreader : next.reader = .delivering response)
  | closed (hclosed : next.closed = true) (hpending : next.pending = [])
      (hnext : next.nextId = client.nextId) (hcalls : next.calls = client.calls)
      (hreader : next.reader = client.reader)
  | moved (key : ℕ) (state : CallState β) (hcalls : next.calls = assign client.calls key (some state))
      (hstate : ∀ id, state ≠ .returned id .context ∧ state ≠ .returned id .unsent)
      (hactive : ∀ id outcome, client.calls key ≠ some (.returned id outcome))
      (hclosed : next.closed = client.closed) (hreader : next.reader = client.reader)
      (hpending : next.pending = client.pending ∧ next.nextId = client.nextId ∨
        next.pending = client.pending ++ [client.nextId] ∧ next.nextId = client.nextId + 1)
  | abandoned (key id : ℕ) (outcome : Outcome β) (hheld : client.Holds key id)
      (hcalls : next.calls = assign client.calls key (some (.returned (some id) outcome)))
      (houtcome : outcome = .context ∨ outcome = .unsent)
      (hclosed : next.closed = client.closed) (hreader : next.reader = client.reader)
      (hpending : next.pending = client.pending.erase id) (hnext : next.nextId = client.nextId)

theorem effect_accept (h : client.accept = some next) : client.Effect .accept next := by
  unfold Client.accept at h
  split at h
  · obtain rfl := Option.some.inj h
    unfold Client.notify
    split
    · exact .quiet ⟨rfl, rfl, rfl⟩ rfl (.inr nofun)
    · split <;> exact .quiet ⟨rfl, rfl, rfl⟩ rfl (.inr nofun)
  · next response hreader =>
    split at h
    · obtain rfl := Option.some.inj h
      exact .answered response hreader ⟨rfl, rfl, rfl⟩ rfl rfl
    · obtain rfl := Option.some.inj h
      exact .quiet ⟨rfl, rfl, rfl⟩ rfl (.inr nofun)
  · obtain rfl := Option.some.inj h
    exact .quiet ⟨rfl, rfl, rfl⟩ rfl (.inr nofun)
  · cases h

theorem effect_leave (client : Client β) (failer : Failer) (event : Event β) :
    client.Effect event (client.leave failer) := by
  cases failer with
  | reader => exact .quiet ⟨rfl, rfl, rfl⟩ rfl (.inr nofun)
  | supervisor => exact .quiet ⟨rfl, rfl, rfl⟩ rfl (.inl rfl)

theorem effect_enter {failer : Failer} (h : client.enter failer = some next) :
    client.Effect (.enter failer) next := by
  unfold Client.enter at h
  split at h
  · cases h
  · split at h
    · obtain rfl := Option.some.inj h
      exact .closed rfl rfl rfl rfl rfl
    · cases h
    · obtain rfl := Option.some.inj h
      exact effect_leave client failer _

theorem effect_call {key : ℕ} (h : client.call key = some next) :
    client.Effect (.call key) next := by
  unfold Client.call at h
  split at h
  · cases h
  · next hnone _ =>
    obtain rfl := Option.some.inj h
    exact .moved key _ rfl (by simp) (by simp [hnone]) rfl rfl (.inl ⟨rfl, rfl⟩)
  · next hnone _ =>
    obtain rfl := Option.some.inj h
    exact .moved key _ rfl (by simp) (by simp [hnone]) rfl rfl (.inr ⟨rfl, rfl⟩)

theorem effect_write {key : ℕ} {written : Bool} (h : client.write key written = some next) :
    client.Effect (.write key written) next := by
  unfold Client.write at h
  split at h
  · next id hcall =>
    split at h
    · obtain rfl := Option.some.inj h
      exact .moved key _ rfl (by simp) (by simp [hcall]) rfl rfl (.inl ⟨rfl, rfl⟩)
    · obtain rfl := Option.some.inj h
      exact .abandoned key id .unsent (.inl hcall) rfl (.inr rfl) rfl rfl rfl rfl
  · cases h

theorem effect_select {key : ℕ} {ready : Case} (h : client.select key ready = some next) :
    client.Effect (.select key ready) next := by
  unfold Client.select at h
  split at h
  · split at h
    · next hcall =>
      obtain ⟨reply, -, rfl⟩ := Option.map_eq_some_iff.mp h
      refine .moved key _ rfl (fun id => ?_) (by simp [hcall]) rfl rfl (.inl ⟨rfl, rfl⟩)
      cases reply <;> simp [Reply.outcome]
    · cases h
  · split at h
    · next id hcall _ =>
      obtain rfl := Option.some.inj h
      exact .abandoned key id .context (.inr hcall) rfl (.inl rfl) rfl rfl rfl rfl
    · cases h
  · split at h
    · next hcall _ =>
      obtain rfl := Option.some.inj h
      exact .moved key _ rfl (by simp) (by simp [hcall]) rfl rfl (.inl ⟨rfl, rfl⟩)
    · cases h

theorem effect_step {event : Event β} (h : client.step event = some next) :
    client.Effect event next := by
  cases event with
  | read document =>
    simp only [Client.step, Client.read] at h
    split at h
    · obtain rfl := Option.some.inj h
      exact .received _ rfl ⟨rfl, rfl, rfl⟩ rfl rfl
    · obtain rfl := Option.some.inj h
      exact .quiet ⟨rfl, rfl, rfl⟩ rfl (.inr (by rintro _ ⟨⟩))
    · cases h
  | accept => exact effect_accept h
  | deliver =>
    simp only [Client.step, Client.deliver] at h
    split at h
    · obtain ⟨-, rfl⟩ := send_eq h
      exact .quiet ⟨rfl, rfl, rfl⟩ rfl (.inr (by rintro _ ⟨⟩))
    · cases h
  | take =>
    simp only [Client.step] at h
    split at h
    · obtain rfl := Option.some.inj h
      exact .quiet ⟨rfl, rfl, rfl⟩ rfl (.inl rfl)
    · cases h
  | close =>
    simp only [Client.step] at h
    split at h
    · obtain rfl := Option.some.inj h
      exact .quiet ⟨rfl, rfl, rfl⟩ rfl (.inl rfl)
    · cases h
  | enter failer => exact effect_enter h
  | answer id =>
    simp only [Client.step, Client.answer] at h
    split at h
    · split at h
      · obtain ⟨-, rfl⟩ := send_eq h
        exact .quiet ⟨rfl, rfl, rfl⟩ rfl (.inl rfl)
      · cases h
    · cases h
  | finish =>
    simp only [Client.step, Client.finish] at h
    split at h
    · next failer _ =>
      obtain rfl := Option.some.inj h
      cases failer with
      | reader => exact .quiet ⟨rfl, rfl, rfl⟩ rfl (.inr (by rintro _ ⟨⟩))
      | supervisor => exact .quiet ⟨rfl, rfl, rfl⟩ rfl (.inl rfl)
    · cases h
  | call key => exact effect_call h
  | write key written => exact effect_write h
  | cancel key =>
    obtain rfl := Option.some.inj h
    exact .quiet ⟨rfl, rfl, rfl⟩ rfl (.inl rfl)
  | select key ready => exact effect_select h

/-! ### Calls that gave up -/

theorem gaveUp_assign {key id : ℕ} {state : CallState β}
    (hcalls : next.calls = assign client.calls key (some state)) (h : next.GaveUp id) :
    client.GaveUp id ∨ state = .returned (some id) .context ∨ state = .returned (some id) .unsent := by
  obtain ⟨other, h⟩ := h
  rw [hcalls, assign_apply] at h
  split_ifs at h
  · simp only [Option.some.injEq] at h
    exact .inr h
  · exact .inl ⟨other, h⟩

theorem GaveUp.step {event : Event β} {id : ℕ} (h : client.GaveUp id)
    (hstep : client.step event = some next) : next.GaveUp id := by
  obtain ⟨key, hkey | hkey⟩ := h
  · exact ⟨key, .inl (step_returned hstep hkey)⟩
  · exact ⟨key, .inr (step_returned hstep hkey)⟩

end Client

/-! ### Every request is accounted for -/

/-- A request that was not answered, or whose answer the read loop has, is in the table, unless its
call gave up or the client is closed. -/
structure Answerable (exchange : Exchange β) : Prop where
  sound : exchange.client.Sound
  accepting : ∀ response, exchange.client.reader = .accepting (.response response) →
    response.id ∈ exchange.answered ∧ 0 < response.id ∧ response.id < exchange.client.nextId
  outstanding : ∀ id, 0 < id → id < exchange.client.nextId →
    (id ∉ exchange.answered ∨ ∃ response,
      exchange.client.reader = .accepting (.response response) ∧ response.id = id) →
    exchange.client.closed = true ∨ id ∈ exchange.client.pending ∨ exchange.client.GaveUp id
  gaveUp : ∀ id, exchange.client.GaveUp id →
    id < exchange.client.nextId ∧ id ∉ exchange.client.pending

variable {exchange next : Exchange β} {event : Client.Event β}

theorem exchange_step (h : exchange.step event = some next) :
    exchange.client.step event = some next.client ∧
      (∀ id, id ∉ next.answered → id ∉ exchange.answered) ∧
      ∀ response, event = .read (some (.response response)) →
        0 < response.id ∧ response.id < exchange.client.nextId ∧ response.id ∉ exchange.answered ∧
          next.answered = response.id :: exchange.answered := by
  unfold Exchange.step at h
  split at h
  · next response =>
    split_ifs at h with hanswer
    obtain ⟨client, hclient, rfl⟩ := Option.map_eq_some_iff.mp h
    refine ⟨hclient, fun id hid hin => hid (List.mem_cons_of_mem _ hin), ?_⟩
    rintro _ ⟨⟩
    exact ⟨hanswer.1, hanswer.2.1, hanswer.2.2, rfl⟩
  · next hother =>
    obtain ⟨client, hclient, rfl⟩ := Option.map_eq_some_iff.mp h
    exact ⟨hclient, fun id hid => hid, fun response heq => absurd heq (hother response)⟩

theorem Answerable.not_mem_erase (h : Answerable exchange) (id : ℕ) :
    id ∉ exchange.client.pending.erase id := by
  intro hmem
  have hcount := List.count_pos_iff.mpr hmem
  rw [List.count_erase_self] at hcount
  have hplaces := h.sound.table.places_le id
  unfold Client.places at hplaces
  omega

theorem Answerable.step (h : Answerable exchange) (hstep : exchange.step event = some next) :
    Answerable next := by
  obtain ⟨hclient, hanswered, hresponse⟩ := exchange_step hstep
  have hgave : ∀ id, exchange.client.GaveUp id → next.client.GaveUp id :=
    fun id hid => hid.step hclient
  have hsound := h.sound.step hclient
  have hmem : ∀ id, id ∈ exchange.answered → id ∈ next.answered :=
    fun id hid => by_contra fun hnot => hanswered id hnot hid
  rcases Client.effect_step hclient with
    ⟨hquiet, hpending, hreader⟩ | ⟨document, hevent, hquiet, hpending, hreader⟩ |
    ⟨response, hold, hquiet, hpending, hreader⟩ | ⟨hclosed, hpending, hnext, hcalls, hreader⟩ |
    ⟨key, state, hcalls, hstate, hactive, hclosed, hreader, hpending⟩ |
    ⟨key, id, outcome, hheld, hcalls, houtcome, hclosed, hreader, hpending, hnext⟩
  · -- the document that the read loop has is the same, or it has none
    have hsame : ∀ response, next.client.reader = .accepting (.response response) →
        exchange.client.reader = .accepting (.response response) := by
      intro response hnow
      rcases hreader with hreader | hnone
      · rwa [hreader] at hnow
      · exact absurd hnow (hnone _)
    refine ⟨hsound, fun response hnow => ?_, fun id hpositive hlt hid => ?_, fun id hid => ?_⟩
    · rw [hquiet.nextId]
      exact (h.accepting response (hsame response hnow)).imp_left (hmem _)
    · rw [hquiet.nextId] at hlt
      rw [hquiet.closed, hpending]
      refine (h.outstanding id hpositive hlt ?_).imp_right (Or.imp_right (hgave id))
      exact hid.imp (hanswered id) fun ⟨response, hnow, hsameId⟩ =>
        ⟨response, hsame response hnow, hsameId⟩
    · rw [hquiet.nextId, hpending]
      unfold Client.GaveUp at hid
      rw [hquiet.calls] at hid
      exact h.gaveUp id hid
  · refine ⟨hsound, fun response hnow => ?_, fun id hpositive hlt hid => ?_, fun id hid => ?_⟩
    · rw [hreader] at hnow
      obtain rfl := Reader.accepting.inj hnow
      obtain ⟨hpositive, hlt, -, hanswers⟩ := hresponse response hevent
      rw [hquiet.nextId, hanswers]
      exact ⟨List.mem_cons_self, hpositive, hlt⟩
    · rw [hquiet.nextId] at hlt
      rw [hquiet.closed, hpending]
      refine (h.outstanding id hpositive hlt (.inl ?_)).imp_right (Or.imp_right (hgave id))
      rcases hid with hid | ⟨response, hnow, rfl⟩
      · exact hanswered id hid
      · -- the answer that has come is the first one
        rw [hreader] at hnow
        obtain rfl := Reader.accepting.inj hnow
        exact (hresponse response hevent).2.2.1
    · rw [hquiet.nextId, hpending]
      unfold Client.GaveUp at hid
      rw [hquiet.calls] at hid
      exact h.gaveUp id hid
  · refine ⟨hsound, fun other hnow => ?_, fun id hpositive hlt hid => ?_, fun id hid => ?_⟩
    · rw [hreader] at hnow
      cases hnow
    · rw [hquiet.nextId] at hlt
      rw [hquiet.closed, hpending]
      rcases hid with hid | ⟨other, hnow, -⟩
      · have hne : id ≠ response.id := by
          rintro rfl
          exact hanswered _ hid (h.accepting response hold).1
        rw [List.mem_erase_of_ne hne]
        exact (h.outstanding id hpositive hlt (.inl (hanswered id hid))).imp_right
          (Or.imp_right (hgave id))
      · rw [hreader] at hnow
        cases hnow
    · rw [hquiet.nextId, hpending]
      unfold Client.GaveUp at hid
      rw [hquiet.calls] at hid
      exact (h.gaveUp id hid).imp_right fun hnot hin => hnot (List.mem_of_mem_erase hin)
  · refine ⟨hsound, fun response hnow => ?_, fun id _ _ _ => .inl hclosed, fun id hid => ?_⟩
    · rw [hreader] at hnow
      rw [hnext]
      exact (h.accepting response hnow).imp_left (hmem _)
    · rw [hnext, hpending]
      unfold Client.GaveUp at hid
      rw [hcalls] at hid
      exact ⟨(h.gaveUp id hid).1, List.not_mem_nil⟩
  · have hlt' : exchange.client.nextId ≤ next.client.nextId := by
      rcases hpending with ⟨-, hnext⟩ | ⟨-, hnext⟩ <;> omega
    refine ⟨hsound, fun response hnow => ?_, fun id hpositive hlt hid => ?_, fun id hid => ?_⟩
    · rw [hreader] at hnow
      obtain ⟨hanswer, hpositive, hlt⟩ := h.accepting response hnow
      exact ⟨hmem _ hanswer, hpositive, Nat.lt_of_lt_of_le hlt hlt'⟩
    · rw [hclosed]
      have hbefore : id < exchange.client.nextId → exchange.client.closed = true ∨
          id ∈ exchange.client.pending ∨ next.client.GaveUp id := by
        intro hlt
        refine (h.outstanding id hpositive hlt ?_).imp_right (Or.imp_right (hgave id))
        exact hid.imp (hanswered id) fun ⟨response, hnow, hsame⟩ =>
          ⟨response, hreader ▸ hnow, hsame⟩
      rcases hpending with ⟨hpending, hnext⟩ | ⟨hpending, hnext⟩
      · rw [hpending]
        exact hbefore (hnext ▸ hlt)
      · rw [hpending]
        by_cases hnew : id = exchange.client.nextId
        · exact .inr (.inl (by simp [hnew]))
        · exact (hbefore (by omega)).imp_right (Or.imp_left (List.mem_append_left _))
    · rcases Client.gaveUp_assign hcalls hid with hid | hid | hid
      · obtain ⟨hlt, hnot⟩ := h.gaveUp id hid
        refine ⟨Nat.lt_of_lt_of_le hlt hlt', ?_⟩
        rcases hpending with ⟨hpending, -⟩ | ⟨hpending, -⟩
        · rwa [hpending]
        · rw [hpending, List.mem_append, List.mem_singleton, not_or]
          exact ⟨hnot, Nat.ne_of_lt hlt⟩
      · exact absurd hid (hstate _).1
      · exact absurd hid (hstate _).2
  · have hnow : next.client.GaveUp id := by
      refine ⟨key, ?_⟩
      rw [hcalls, assign_apply, if_pos rfl]
      rcases houtcome with rfl | rfl
      · exact .inl rfl
      · exact .inr rfl
    refine ⟨hsound, fun response hthen => ?_, fun other hpositive hlt hid => ?_, fun other hid => ?_⟩
    · rw [hreader] at hthen
      rw [hnext]
      exact (h.accepting response hthen).imp_left (hmem _)
    · rw [hnext] at hlt
      rw [hclosed, hpending]
      by_cases hsame : other = id
      · exact .inr (.inr (hsame ▸ hnow))
      · rw [List.mem_erase_of_ne hsame]
        refine (h.outstanding other hpositive hlt ?_).imp_right (Or.imp_right (hgave other))
        exact hid.imp (hanswered other) fun ⟨response, hthen, hsameId⟩ =>
          ⟨response, hreader ▸ hthen, hsameId⟩
    · rw [hnext, hpending]
      by_cases hsame : other = id
      · rw [hsame]
        exact ⟨h.sound.callers.holds_lt key id hheld, h.not_mem_erase id⟩
      · rcases Client.gaveUp_assign hcalls hid with hid | hid | hid
        · exact (h.gaveUp other hid).imp_right fun hnot hin => hnot (List.mem_of_mem_erase hin)
        · simp only [CallState.returned.injEq, Option.some.injEq] at hid
          exact absurd hid.1.symm hsame
        · simp only [CallState.returned.injEq, Option.some.injEq] at hid
          exact absurd hid.1.symm hsame

theorem answerable_default : Answerable ({} : Exchange β) := by
  refine ⟨Client.sound_default, nofun, fun id hpositive hlt _ => ?_, fun id hid => ?_⟩
  · change id < 1 at hlt
    omega
  · obtain ⟨key, hkey | hkey⟩ := hid <;> cases hkey

/-! ### Late answers -/

/-- **Late answers.**  In every run in which the server answers each request at most once: `accept`
does not end the connection because of a response, unless the call that it answers has given up
before. -/
theorem late_answers (events : List (Client.Event β)) (exchange : Exchange β)
    (hrun : Trace.run Exchange.step {} events = some exchange) :
    exchange.client.Harmless ↔ ¬exchange.client.Late := by
  have hanswerable : Answerable exchange :=
    Trace.run_invariant (fun _ _ _ h hstep => h.step hstep) answerable_default hrun
  constructor
  · rintro hharmless ⟨hopen, response, hreader, hgave⟩
    have hnot := (hanswerable.gaveUp response.id hgave).2
    have hclosed := hharmless response _ hreader (by
      simp only [Client.accept, hreader, if_neg hnot]
      rfl) rfl
    rw [hopen] at hclosed
    cases hclosed
  · intro hlate response next hreader haccept hfailing
    obtain ⟨-, hpositive, hlt⟩ := hanswerable.accepting response hreader
    rcases hanswerable.outstanding response.id hpositive hlt (.inr ⟨response, hreader, rfl⟩) with
      hclosed | hpending | hgave
    · exact hclosed
    · simp only [Client.accept, hreader, if_pos hpending, Option.some.injEq] at haccept
      rw [← haccept] at hfailing
      cases hfailing
    · by_contra hopen
      exact hlate ⟨Bool.eq_false_iff.mpr hopen, response, hreader, hgave⟩

/-- A call whose context ends before its answer comes. -/
def lateRun : List (Client.Event ℕ) :=
  [.call 0, .write 0 true, .cancel 0, .select 0 .context, .call 1, .write 1 true,
    .read (some (.response ⟨1, 7⟩)), .accept, .enter .reader]

/-- The read loop takes the answer to the first call, which gave up, and closes the client with
`ErrSchemaChanged`; the second call is lost. -/
theorem late_answers_fails :
    ∃ exchange, Trace.run Exchange.step ({} : Exchange ℕ) lateRun = some exchange ∧
      exchange.client.terminal = some .schemaChanged ∧ exchange.client.closed = true ∧
      exchange.client.waiters = [2] := by
  exact ⟨_, rfl, rfl, rfl, rfl⟩

/-- An answer that comes in time. -/
def timelyRun : List (Client.Event ℕ) :=
  [.call 0, .write 0 true, .read (some (.response ⟨1, 7⟩))]

theorem late_answers_in_time :
    ∃ exchange, Trace.run Exchange.step ({} : Exchange ℕ) timelyRun = some exchange ∧
      exchange.client.Harmless := by
  refine ⟨_, rfl, (late_answers timelyRun _ rfl).mpr ?_⟩
  rintro ⟨-, response, -, key, hkey | hkey⟩
  · cases key <;> cases hkey
  · cases key <;> cases hkey

end RlcdDeck.CodexAppServer
