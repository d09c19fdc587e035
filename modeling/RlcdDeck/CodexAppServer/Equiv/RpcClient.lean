import RlcdDeck.CodexAppServer.RpcClient
import Mathlib.Data.List.Count

/-!
# Every call of the client ends once

At any time a call stands in at most one of four places: in the table, with the goroutine that
answers it (the read loop, or `fail`), or in its channel (`places`).  So a reply always finds the
channel of its call empty, and no goroutine that answers is held up.  A call that waits is in one of
them, or the client is closed.  Both are kept by every step (`Sound.step`).

The channel of notifications is not protected by the mutex.  `fail` closes it, and the read loop may
be about to send on it, as it is when the supervisor closes the client (`notification_after_close`).
A run in which this does not happen is safe (`channels_safe`).
-/

namespace RlcdDeck.CodexAppServer.Client

open Effects

variable {β : Type} {client next : Client β}

/-- A call that has an identifier and has not returned. -/
def Holds (client : Client β) (key id : ℕ) : Prop :=
  client.calls key = some (.writing id) ∨ client.calls key = some (.waiting id)

/-- How a call may have ended. -/
def Justified (client : Client β) (key : ℕ) (id : Option ℕ) : Outcome β → Prop
  | .response response => id = some response.id
  | .context => client.cancelled key = true
  | .terminal error => client.terminal = some error
  | .unsent => True

/-- How often the read loop is about to answer the call `id`. -/
def delivering (client : Client β) (id : ℕ) : ℕ :=
  match client.reader with
  | .delivering response => if response.id = id then 1 else 0
  | _ => 0

/-- How many replies to the call `id` are in its channel. -/
def buffered (client : Client β) (id : ℕ) : ℕ := if (client.channels id).isSome then 1 else 0

/-- The places where the call `id` stands. -/
def places (client : Client β) (id : ℕ) : ℕ :=
  client.pending.count id + client.waiters.count id + client.delivering id + client.buffered id

/-- The table, the channels of the calls and the two goroutines that answer. -/
structure Table (client : Client β) : Prop where
  places_le : ∀ id, client.places id ≤ 1
  places_fresh : ∀ id, client.nextId ≤ id → client.places id = 0
  closed_terminal : client.closed = client.terminal.isSome
  closed_once : client.closed = true ↔ client.once ≠ .unused
  own : ∀ id response, client.channels id = some (.response response) → response.id = id
  failed : ∀ id error, client.channels id = some (.failed error) → client.terminal = some error

/-- The calls, which all have an answer coming. -/
structure Callers (client : Client β) : Prop where
  holds_lt : ∀ key id, client.Holds key id → id < client.nextId
  holds_unique : ∀ key key' id, client.Holds key id → client.Holds key' id → key = key'
  served : ∀ key id, client.Holds key id → client.closed = true ∨ client.places id = 1
  outcome : ∀ key id outcome, client.calls key = some (.returned id outcome) →
    client.Justified key id outcome

/-! ### What a step does to the calls -/

variable {key : ℕ}

theorem Justified.mono {id : Option ℕ} {outcome : Outcome β} (h : client.Justified key id outcome)
    (hcancelled : client.cancelled key = true → next.cancelled key = true)
    (hterminal : ∀ error, client.terminal = some error → next.terminal = some error) :
    next.Justified key id outcome := by
  cases outcome with
  | response response => exact h
  | context => exact hcancelled h
  | terminal error => exact hterminal error h
  | unsent => trivial

theorem Callers.frame (h : Callers client) (hcalls : next.calls = client.calls)
    (hcancelled : ∀ key, client.cancelled key = true → next.cancelled key = true)
    (hnext : next.nextId = client.nextId)
    (hterminal : ∀ error, client.terminal = some error → next.terminal = some error)
    (hserved : ∀ id, client.closed = true ∨ client.places id = 1 →
      next.closed = true ∨ next.places id = 1) : Callers next := by
  have hholds : ∀ key id, next.Holds key id → client.Holds key id := by
    intro key id hkey
    unfold Holds at hkey ⊢
    rwa [hcalls] at hkey
  constructor
  · intro key id hkey
    rw [hnext]
    exact h.holds_lt key id (hholds key id hkey)
  · intro key key' id hkey hkey'
    exact h.holds_unique key key' id (hholds key id hkey) (hholds key' id hkey')
  · intro key id hkey
    exact hserved id (h.served key id (hholds key id hkey))
  · intro key id outcome hreturned
    rw [hcalls] at hreturned
    exact (h.outcome key id outcome hreturned).mono (hcancelled key) hterminal

/-- A step of the call `key`. -/
theorem Callers.assign {state : CallState β} (h : Callers client)
    (hcalls : next.calls = assign client.calls key (some state))
    (hcancelled : next.cancelled = client.cancelled) (hnext : client.nextId ≤ next.nextId)
    (hterminal : next.terminal = client.terminal)
    (hserved : ∀ id, ¬client.Holds key id → id < client.nextId →
      client.closed = true ∨ client.places id = 1 → next.closed = true ∨ next.places id = 1)
    (hstate : ∀ id, state = .writing id ∨ state = .waiting id →
      (client.Holds key id ∨ client.nextId ≤ id) ∧ id < next.nextId ∧
        (next.closed = true ∨ next.places id = 1))
    (hreturned : ∀ id outcome, state = .returned id outcome → next.Justified key id outcome) :
    Callers next := by
  have hholds : ∀ other id, next.Holds other id →
      (other = key ∧ (state = .writing id ∨ state = .waiting id)) ∨
        (other ≠ key ∧ client.Holds other id) := by
    intro other id hother
    unfold Holds at hother ⊢
    rw [hcalls, assign_apply] at hother
    by_cases hkey : other = key
    · simp only [if_pos hkey, Option.some.injEq] at hother
      exact .inl ⟨hkey, hother⟩
    · simp only [if_neg hkey] at hother
      exact .inr ⟨hkey, hother⟩
  -- The identifier that the call has now is not one of another call.
  have hother : ∀ other id, other ≠ key → client.Holds other id →
      ¬(state = .writing id ∨ state = .waiting id) := by
    intro other id hne hholder hnew
    rcases (hstate id hnew).1 with hheld | hfresh
    · exact hne (h.holds_unique other key id hholder hheld)
    · exact absurd (h.holds_lt other id hholder) (Nat.not_lt.mpr hfresh)
  constructor
  · intro other id hnew
    rcases hholds other id hnew with ⟨-, hnow⟩ | ⟨-, hold⟩
    · exact (hstate id hnow).2.1
    · exact Nat.lt_of_lt_of_le (h.holds_lt other id hold) hnext
  · intro one other id hone htwo
    rcases hholds one id hone with ⟨rfl, hnow⟩ | ⟨hne, hold⟩
    · rcases hholds other id htwo with ⟨rfl, -⟩ | ⟨hne', hold'⟩
      · rfl
      · exact absurd hnow (hother other id hne' hold')
    · rcases hholds other id htwo with ⟨rfl, hnow⟩ | ⟨-, hold'⟩
      · exact absurd hnow (hother one id hne hold)
      · exact h.holds_unique one other id hold hold'
  · intro other id hnew
    rcases hholds other id hnew with ⟨-, hnow⟩ | ⟨hne, hold⟩
    · exact (hstate id hnow).2.2
    · refine hserved id (fun hkey => hne ?_) (h.holds_lt other id hold) (h.served other id hold)
      exact h.holds_unique other key id hold hkey
  · intro other id outcome hout
    rw [hcalls, assign_apply] at hout
    by_cases hkey : other = key
    · rw [if_pos hkey] at hout
      rw [hkey]
      exact hreturned id outcome (Option.some.inj hout)
    · rw [if_neg hkey] at hout
      refine (h.outcome other id outcome hout).mono (fun hc => ?_) fun error he => ?_
      · rwa [hcancelled]
      · rwa [hterminal]

/-! ### What a step does to the table -/

theorem Table.frame (h : Table client) (hplaces : ∀ id, next.places id ≤ client.places id)
    (hnext : client.nextId ≤ next.nextId) (hclosed : next.closed = client.closed)
    (hterminal : next.terminal = client.terminal)
    (honce : next.once = .unused ↔ client.once = .unused)
    (hchannels : ∀ id reply, next.channels id = some reply → client.channels id = some reply) :
    Table next := by
  constructor
  · exact fun id => Nat.le_trans (hplaces id) (h.places_le id)
  · intro id hid
    have hnone := h.places_fresh id (Nat.le_trans hnext hid)
    have hle := hplaces id
    omega
  · rw [hclosed, hterminal]
    exact h.closed_terminal
  · rw [hclosed, h.closed_once, ne_eq, ne_eq, not_iff_not]
    exact honce.symm
  · exact fun id response hid => h.own id response (hchannels id _ hid)
  · intro id error hid
    rw [hterminal]
    exact h.failed id error (hchannels id _ hid)

theorem delivering_of_not {reader : Reader β} (h : client.reader = reader)
    (hreader : ∀ response, reader ≠ .delivering response) (id : ℕ) : client.delivering id = 0 := by
  unfold delivering
  rw [h]
  split
  · exact absurd rfl (hreader _)
  · rfl

theorem places_reader {reader : Reader β} (hold : ∀ id, client.delivering id = 0)
    (hreader : ∀ response, reader ≠ .delivering response) (queued : ℕ) (panicked : Bool) (id : ℕ) :
    places { client with reader := reader, queued := queued, panicked := panicked } id =
      client.places id := by
  have hnew := @delivering_of_not β
    { client with reader := reader, queued := queued, panicked := panicked } reader rfl hreader id
  unfold places
  rw [hold, hnew]
  rfl

theorem places_accept {response : Response β} (hold : ∀ id, client.delivering id = 0)
    (hpending : response.id ∈ client.pending) (id : ℕ) :
    places { client with
      pending := client.pending.erase response.id
      reader := .delivering response } id = client.places id := by
  have hcount := List.count_pos_iff.mpr hpending
  have hid := hold id
  simp only [places, delivering, buffered, waiters, List.count_erase] at hid ⊢
  rw [hid]
  by_cases hsame : response.id = id
  · rw [hsame] at hcount ⊢
    simp only [beq_self_eq_true, if_true]
    omega
  · have hne : (response.id == id) = false := beq_eq_false_iff_ne.mpr hsame
    simp only [hne, if_neg hsame]
    rfl

variable {id : ℕ}

theorem buffered_assign {other : ℕ} {reply : Reply β} :
    buffered { client with channels := assign client.channels id (some reply) } other =
      if other = id then 1 else client.buffered other := by
  unfold buffered
  simp only [assign_apply]
  by_cases hsame : other = id
  · simp only [if_pos hsame]
    rfl
  · simp only [if_neg hsame]

theorem send_eq {reply : Reply β} (h : client.send id reply = some next) :
    client.channels id = none ∧
      next = { client with channels := assign client.channels id (some reply) } := by
  unfold send at h
  split at h
  · next hnone => exact ⟨hnone, (Option.some.inj h).symm⟩
  · cases h

/-- The table of a client and its calls. -/
structure Sound (client : Client β) : Prop where
  table : Table client
  callers : Callers client

theorem Sound.channel_free (h : client.Sound) {id : ℕ}
    (hcount : 1 ≤ client.pending.count id + client.waiters.count id + client.delivering id) :
    client.channels id = none := by
  have hle := h.table.places_le id
  unfold places buffered at hle
  cases hchannel : client.channels id with
  | none => rfl
  | some reply =>
    rw [hchannel] at hle
    simp only [Option.isSome_some, if_true] at hle
    omega

theorem Table.terminal_of_closed (h : Table client) (hclosed : client.closed = true) :
    ∃ error, client.terminal = some error := by
  rw [h.closed_terminal] at hclosed
  exact Option.isSome_iff_exists.mp hclosed

theorem Table.terminal_none (h : Table client) (hclosed : client.closed = false) :
    client.terminal = none := by
  rw [h.closed_terminal] at hclosed
  exact Option.not_isSome_iff_eq_none.mp (Bool.eq_false_iff.mp hclosed)

theorem Table.closed_of_once (h : Table client) (honce : client.once ≠ .unused) :
    client.closed = true := h.closed_once.mpr honce

theorem Sound.move (h : client.Sound) (hcalls : next.calls = client.calls)
    (hcancelled : ∀ key, client.cancelled key = true → next.cancelled key = true)
    (hnext : next.nextId = client.nextId) (hclosed : next.closed = client.closed)
    (hterminal : next.terminal = client.terminal)
    (honce : next.once = .unused ↔ client.once = .unused)
    (hchannels : ∀ id reply, next.channels id = some reply → client.channels id = some reply)
    (hplaces : ∀ id, next.places id = client.places id) : next.Sound := by
  constructor
  · exact h.table.frame (fun id => Nat.le_of_eq (hplaces id)) (Nat.le_of_eq hnext.symm) hclosed
      hterminal honce hchannels
  · refine h.callers.frame hcalls hcancelled hnext (fun error he => ?_) fun id hid => ?_
    · rwa [hterminal]
    · rwa [hclosed, hplaces]

/-! ### The steps -/

theorem Sound.reader {reader : Reader β} (h : client.Sound) (hold : ∀ id, client.delivering id = 0)
    (hreader : ∀ response, reader ≠ .delivering response) (queued : ℕ) (panicked : Bool) :
    Sound { client with reader := reader, queued := queued, panicked := panicked } :=
  h.move rfl (fun _ hc => hc) rfl rfl rfl Iff.rfl (fun _ _ hid => hid)
    fun id => places_reader hold hreader queued panicked id

theorem Sound.read {document : Option (Document β)} (h : client.Sound)
    (hstep : client.read document = some next) : next.Sound := by
  unfold Client.read at hstep
  split at hstep
  · next document hreader =>
    obtain rfl := Option.some.inj hstep
    exact h.reader (delivering_of_not hreader (by simp)) (by simp) client.queued client.panicked
  · next hreader =>
    obtain rfl := Option.some.inj hstep
    exact h.reader (delivering_of_not hreader (by simp)) (by simp) client.queued client.panicked
  · cases hstep

theorem Sound.notify (h : client.Sound) (hold : ∀ id, client.delivering id = 0) :
    client.notify.Sound := by
  unfold Client.notify
  split
  · exact h.reader hold (by simp) client.queued true
  · split
    · exact h.reader hold (by simp) (client.queued + 1) client.panicked
    · exact h.reader hold (by simp) client.queued client.panicked

theorem Sound.accept (h : client.Sound) (hstep : client.accept = some next) : next.Sound := by
  unfold Client.accept at hstep
  split at hstep
  · next hreader =>
    obtain rfl := Option.some.inj hstep
    exact h.notify (delivering_of_not hreader (by simp))
  · next response hreader =>
    have hold := delivering_of_not hreader (by simp)
    split at hstep
    · next hpending =>
      obtain rfl := Option.some.inj hstep
      exact h.move rfl (fun _ hc => hc) rfl rfl rfl Iff.rfl (fun _ _ hid => hid)
        (places_accept hold hpending)
    · obtain rfl := Option.some.inj hstep
      exact h.reader hold (by simp) client.queued client.panicked
  · next hreader =>
    obtain rfl := Option.some.inj hstep
    exact h.reader (delivering_of_not hreader (by simp)) (by simp) client.queued client.panicked
  · cases hstep

theorem Sound.sent (id : ℕ) (reply : Reply β) (h : client.Sound) (hcalls : next.calls = client.calls)
    (hcancelled : next.cancelled = client.cancelled) (hnext : next.nextId = client.nextId)
    (hclosed : next.closed = client.closed) (hterminal : next.terminal = client.terminal)
    (honce : next.once = .unused ↔ client.once = .unused)
    (hchannels : next.channels = assign client.channels id (some reply))
    (hown : ∀ response, reply = .response response → response.id = id)
    (hfailed : ∀ error, reply = .failed error → client.terminal = some error)
    (hplaces : ∀ id, next.places id = client.places id) : next.Sound := by
  constructor
  · constructor
    · intro id
      rw [hplaces]
      exact h.table.places_le id
    · intro id hid
      rw [hplaces]
      exact h.table.places_fresh id (by rwa [← hnext])
    · rw [hclosed, hterminal]
      exact h.table.closed_terminal
    · rw [hclosed, h.table.closed_once, ne_eq, ne_eq, not_iff_not]
      exact honce.symm
    · intro other response hother
      rw [hchannels, assign_apply] at hother
      by_cases hsame : other = id
      · rw [if_pos hsame] at hother
        rw [hsame]
        exact hown response (Option.some.inj hother)
      · rw [if_neg hsame] at hother
        exact h.table.own other response hother
    · intro other error hother
      rw [hterminal]
      rw [hchannels, assign_apply] at hother
      by_cases hsame : other = id
      · rw [if_pos hsame] at hother
        exact hfailed error (Option.some.inj hother)
      · rw [if_neg hsame] at hother
        exact h.table.failed other error hother
  · refine h.callers.frame hcalls (fun key hc => ?_) hnext (fun error he => ?_) fun other hid => ?_
    · rwa [hcancelled]
    · rwa [hterminal]
    · rwa [hclosed, hplaces]

theorem Sound.deliver (h : client.Sound) (hstep : client.deliver = some next) : next.Sound := by
  unfold Client.deliver at hstep
  split at hstep
  · next response hreader =>
    obtain ⟨hfree, rfl⟩ := send_eq hstep
    change client.channels response.id = none at hfree
    refine h.sent response.id (.response response) rfl rfl rfl rfl rfl Iff.rfl rfl
      (fun other hother => ?_) (fun error he => by cases he) fun id => ?_
    · cases hother
      rfl
    · unfold places
      rw [buffered_assign]
      simp only [delivering, buffered, waiters, hreader]
      by_cases hsame : id = response.id
      · rw [hsame, hfree]
        simp
      · simp only [if_neg hsame, if_neg (Ne.symm hsame)]
  · cases hstep

theorem Sound.answer (h : client.Sound) (hstep : client.answer id = some next) :
    next.Sound := by
  unfold Client.answer at hstep
  split at hstep
  · next failer waiting error honce hterminal =>
    split at hstep
    · next hmem =>
      obtain ⟨hfree, rfl⟩ := send_eq hstep
      change client.channels id = none at hfree
      refine h.sent id (.failed error) rfl rfl rfl rfl rfl ?_ rfl
        (fun response hother => by cases hother) (fun error' he => ?_) fun other => ?_
      · rw [honce]
        constructor
        · intro hunused
          cases hunused
        · intro hunused
          cases hunused
      · cases he
        exact hterminal
      · have hcount := List.count_pos_iff.mpr hmem
        unfold places
        rw [buffered_assign]
        simp only [delivering, buffered, waiters, honce, List.count_erase]
        by_cases hsame : other = id
        · rw [hsame, hfree]
          simp
          omega
        · have hne : (id == other) = false := beq_eq_false_iff_ne.mpr (Ne.symm hsame)
          simp only [hne, if_neg hsame]
          rfl
    · cases hstep
  · cases hstep

theorem Sound.leave {failer : Failer} {error : Terminal} (h : client.Sound)
    (hfailure : client.failure failer = some error) : (client.leave failer).Sound := by
  unfold failure at hfailure
  unfold Client.leave
  split at hfailure
  · exact h.move rfl (fun _ hc => hc) rfl rfl rfl Iff.rfl (fun _ _ hid => hid) fun _ => rfl
  · split at hfailure
    · next hreader =>
      exact h.reader (delivering_of_not hreader (by simp)) (by simp) client.queued client.panicked
    · cases hfailure

variable {failer : Failer}

/-- The first `fail` takes the table of calls. -/
theorem Sound.enter (h : client.Sound) (hstep : client.enter failer = some next) :
    next.Sound := by
  unfold Client.enter at hstep
  split at hstep
  · cases hstep
  next error hfailure =>
    split at hstep
    · next honce =>
      obtain rfl := Option.some.inj hstep
      have hopen : client.closed = false := by
        rw [Bool.eq_false_iff]
        exact fun hclosed => h.table.closed_once.mp hclosed honce
      have hnone := h.table.terminal_none hopen
      have hplaces : ∀ id, places { client with
          terminal := some error, pending := [], closed := true,
          once := .running failer client.pending } id = client.places id := by
        intro id
        simp only [places, delivering, buffered, waiters, honce, List.count_nil]
        omega
      constructor
      · constructor
        · intro id
          rw [hplaces]
          exact h.table.places_le id
        · intro id hid
          rw [hplaces]
          exact h.table.places_fresh id hid
        · rfl
        · simp
        · exact h.table.own
        · intro id error' hid
          exact absurd (h.table.failed id error' hid) (by simp [hnone])
      · refine h.callers.frame rfl (fun _ hc => hc) rfl (fun error' he => ?_) fun _ _ => .inl rfl
        rw [hnone] at he
        cases he
    · cases hstep
    · obtain rfl := Option.some.inj hstep
      exact h.leave hfailure

theorem places_finish_le (honce : client.once = .running failer []) (id : ℕ) :
    places ({ client with once := .over }.leave failer) id ≤ client.places id := by
  unfold Client.leave
  cases failer with
  | supervisor =>
    simp only [places, delivering, buffered, waiters, honce]
    exact Nat.le_refl _
  | reader =>
    simp only [places, delivering, buffered, waiters, honce]
    omega

theorem Sound.finish (h : client.Sound) (hstep : client.finish = some next) : next.Sound := by
  unfold Client.finish at hstep
  split at hstep
  · next failer honce =>
    obtain rfl := Option.some.inj hstep
    have hclosed : client.closed = true := h.table.closed_of_once (by simp [honce])
    have hplaces := places_finish_le honce
    have honce' : ({ client with once := .over }.leave failer).once = .unused ↔
        client.once = .unused := by
      cases failer <;> simp [Client.leave, honce]
    constructor
    · cases failer with
      | supervisor =>
        exact h.table.frame hplaces (Nat.le_refl _) rfl rfl honce' fun _ _ hid => hid
      | reader => exact h.table.frame hplaces (Nat.le_refl _) rfl rfl honce' fun _ _ hid => hid
    · cases failer with
      | supervisor =>
        exact h.callers.frame rfl (fun _ hc => hc) rfl (fun _ he => he) fun _ _ => .inl hclosed
      | reader =>
        exact h.callers.frame rfl (fun _ hc => hc) rfl (fun _ he => he) fun _ _ => .inl hclosed
  · cases hstep

/-! ### The steps of a call -/

theorem Sound.returned {outcome : Outcome β} (h : client.Sound) (hholds : client.Holds key id)
    (hcalls : next.calls = assign client.calls key (some (.returned (some id) outcome)))
    (hcancelled : next.cancelled = client.cancelled) (hnext : next.nextId = client.nextId)
    (hclosed : next.closed = client.closed) (hterminal : next.terminal = client.terminal)
    (honce : next.once = client.once)
    (hchannels : ∀ id reply, next.channels id = some reply → client.channels id = some reply)
    (hle : next.places id ≤ client.places id)
    (hplaces : ∀ other, other ≠ id → next.places other = client.places other)
    (houtcome : client.Justified key (some id) outcome) : next.Sound := by
  constructor
  · refine h.table.frame (fun other => ?_) (Nat.le_of_eq hnext.symm) hclosed hterminal (by rw [honce])
      hchannels
    by_cases hsame : other = id
    · rw [hsame]
      exact hle
    · exact Nat.le_of_eq (hplaces other hsame)
  · refine h.callers.assign hcalls hcancelled (Nat.le_of_eq hnext.symm) hterminal
      (fun other hother _ hserved => ?_) (fun other hstate => ?_) fun other outcome' hstate => ?_
    · have hne : other ≠ id := fun hsame => hother (hsame ▸ hholds)
      rw [hclosed, hplaces other hne]
      exact hserved
    · rcases hstate with hstate | hstate <;> cases hstate
    · cases hstate
      refine houtcome.mono (fun hc => ?_) fun error he => ?_
      · rwa [hcancelled]
      · rwa [hterminal]

theorem places_removed (calls : ℕ → Option (CallState β)) (id other : ℕ) :
    places { client with pending := client.pending.erase id, calls := calls } other ≤
        client.places other ∧
      (other ≠ id →
        places { client with pending := client.pending.erase id, calls := calls } other =
          client.places other) := by
  simp only [places, delivering, buffered, waiters, List.count_erase]
  refine ⟨by omega, fun hne => ?_⟩
  have hbeq : (id == other) = false := beq_eq_false_iff_ne.mpr (Ne.symm hne)
  simp only [hbeq]
  rfl

theorem Sound.call (h : client.Sound) (hstep : client.call key = some next) :
    next.Sound := by
  unfold Client.call at hstep
  split at hstep
  · cases hstep
  · next error _ hterminal =>
    obtain rfl := Option.some.inj hstep
    constructor
    · exact h.table.frame (fun _ => Nat.le_refl _) (Nat.le_refl _) rfl rfl Iff.rfl fun _ _ hid => hid
    · refine h.callers.assign rfl rfl (Nat.le_refl _) rfl (fun _ _ _ hserved => hserved)
        (fun other hstate => ?_) fun id outcome hstate => ?_
      · rcases hstate with hstate | hstate <;> cases hstate
      · cases hstate
        exact hterminal
  · next hterminal =>
    obtain rfl := Option.some.inj hstep
    have hplaces : ∀ id, places { client with
        nextId := client.nextId + 1, pending := client.pending ++ [client.nextId],
        calls := assign client.calls key (some (.writing client.nextId)) } id =
          client.places id + if id = client.nextId then 1 else 0 := by
      intro id
      simp only [places, delivering, buffered, waiters, List.count_append, List.count_singleton,
        beq_iff_eq, eq_comm (a := client.nextId)]
      omega
    have hfresh := h.table.places_fresh client.nextId (Nat.le_refl _)
    have hopen : client.closed = false := by
      rw [h.table.closed_terminal, hterminal]
      rfl
    constructor
    · constructor
      · intro id
        rw [hplaces]
        have hle := h.table.places_le id
        split
        · next hsame =>
          exact Nat.le_of_eq (by rw [hsame, hfresh])
        · exact hle
      · intro id hid
        change client.nextId + 1 ≤ id at hid
        rw [hplaces, h.table.places_fresh id (by omega), if_neg (by omega)]
      · exact h.table.closed_terminal
      · exact h.table.closed_once
      · exact h.table.own
      · exact h.table.failed
    · refine h.callers.assign rfl rfl (Nat.le_succ _) rfl (fun id _ hlt hserved => ?_)
        (fun id hstate => ?_) fun id outcome hstate => by cases hstate
      · rw [hplaces, if_neg (Nat.ne_of_lt hlt)]
        exact hserved
      · rcases hstate with hstate | hstate
        · cases hstate
          refine ⟨.inr (Nat.le_refl _), Nat.lt_succ_self _, .inr ?_⟩
          rw [hplaces, hfresh, if_pos rfl]
        · cases hstate

theorem Sound.write {written : Bool} (h : client.Sound)
    (hstep : client.write key written = some next) : next.Sound := by
  unfold Client.write at hstep
  split at hstep
  · next id hcall =>
    have hholds : client.Holds key id := .inl hcall
    split at hstep
    · obtain rfl := Option.some.inj hstep
      constructor
      · exact h.table.frame (fun _ => Nat.le_refl _) (Nat.le_refl _) rfl rfl Iff.rfl
          fun _ _ hid => hid
      · refine h.callers.assign rfl rfl (Nat.le_refl _) rfl (fun _ _ _ hserved => hserved)
          (fun other hstate => ?_) fun other outcome hstate => by cases hstate
        rcases hstate with hstate | hstate
        · cases hstate
        · cases hstate
          exact ⟨.inl hholds, h.callers.holds_lt key id hholds, h.callers.served key id hholds⟩
    · obtain rfl := Option.some.inj hstep
      exact h.returned hholds rfl rfl rfl rfl rfl rfl (fun _ _ hid => hid)
        (places_removed _ id id).1 (fun other => (places_removed _ id other).2) trivial
  · cases hstep

theorem Sound.cancel (h : client.Sound) (key : ℕ) : (client.cancel key).Sound := by
  refine h.move rfl (fun other hc => ?_) rfl rfl rfl Iff.rfl (fun _ _ hid => hid) fun _ => rfl
  simp only [Client.cancel, assign_apply]
  split
  · rfl
  · exact hc

theorem Sound.select {ready : Case} (h : client.Sound)
    (hstep : client.select key ready = some next) : next.Sound := by
  unfold Client.select at hstep
  split at hstep
  · split at hstep
    · next id hcall =>
      have hholds : client.Holds key id := .inr hcall
      obtain ⟨reply, hreply, rfl⟩ := Option.map_eq_some_iff.mp hstep
      refine h.returned hholds rfl rfl rfl rfl rfl rfl (fun other reply' hother => ?_) ?_
        (fun other hne => ?_) ?_
      · simp only [assign_apply] at hother
        split at hother
        · cases hother
        · exact hother
      · simp only [places, delivering, buffered, waiters, assign_apply, if_pos]
        simp
      · simp only [places, delivering, buffered, waiters, assign_apply, if_neg hne]
      · cases reply with
        | response response => exact congrArg some (h.table.own id response hreply).symm
        | failed error => exact h.table.failed id error hreply
    · cases hstep
  · split at hstep
    · next id hcall hcancelled =>
      obtain rfl := Option.some.inj hstep
      exact h.returned (.inr hcall) rfl rfl rfl rfl rfl rfl (fun _ _ hid => hid)
        (places_removed _ id id).1 (fun other => (places_removed _ id other).2) hcancelled
    · cases hstep
  · split at hstep
    · next id hcall hclosed =>
      obtain rfl := Option.some.inj hstep
      obtain ⟨error, herror⟩ := h.table.terminal_of_closed hclosed
      refine h.returned (.inr hcall) rfl rfl rfl rfl rfl rfl (fun _ _ hid => hid)
        (Nat.le_refl _) (fun _ _ => rfl) ?_
      rw [herror]
      exact herror
    · cases hstep

theorem Sound.step {event : Event β} (h : client.Sound) (hstep : client.step event = some next) :
    next.Sound := by
  cases event with
  | read document => exact h.read hstep
  | accept => exact h.accept hstep
  | deliver => exact h.deliver hstep
  | take =>
    simp only [Client.step] at hstep
    split at hstep
    · obtain rfl := Option.some.inj hstep
      exact h.move rfl (fun _ hc => hc) rfl rfl rfl Iff.rfl (fun _ _ hid => hid) fun _ => rfl
    · cases hstep
  | close =>
    simp only [Client.step] at hstep
    split at hstep
    · obtain rfl := Option.some.inj hstep
      exact h.move rfl (fun _ hc => hc) rfl rfl rfl Iff.rfl (fun _ _ hid => hid) fun _ => rfl
    · cases hstep
  | enter failer => exact h.enter hstep
  | answer id => exact h.answer hstep
  | finish => exact h.finish hstep
  | call key => exact h.call hstep
  | write key written => exact h.write hstep
  | cancel key =>
    obtain rfl := Option.some.inj hstep
    exact h.cancel key
  | select key ready => exact h.select hstep

theorem sound_default : ({} : Client β).Sound := by
  constructor
  · constructor
    · exact fun id => Nat.zero_le 1
    · exact fun id _ => rfl
    · rfl
    · simp
    · simp
    · simp
  · constructor
    · intro key id hkey
      rcases hkey with hkey | hkey <;> cases hkey
    · intro key key' id hkey
      rcases hkey with hkey | hkey <;> cases hkey
    · intro key id hkey
      rcases hkey with hkey | hkey <;> cases hkey
    · intro key id outcome hreturned
      cases hreturned

/-! ### Calls that returned -/

/-- A notification comes to its send when the client is closed. -/
def SendsClosed (client : Client β) (event : Event β) : Prop :=
  event = .accept ∧ client.reader = .accepting .notification ∧ client.closed = true

instance [DecidableEq β] (client : Client β) (event : Event β) :
    Decidable (client.SendsClosed event) :=
  inferInstanceAs (Decidable (_ ∧ _ ∧ _))

/-- What `event` does to the calls: one that has not returned goes on. -/
structure Advances (client : Client β) (event : Event β) (next : Client β) (key : ℕ)
    (state : CallState β) : Prop where
  calls : next.calls = assign client.calls key (some state)
  panicked : next.panicked = client.panicked
  active : ∀ id outcome, client.calls key ≠ some (.returned id outcome)
  unsent : ∀ id, state = .returned id .unsent → event = .write key false

/-- The step leaves the calls alone, and sends on no closed channel. -/
structure Keeps (client next : Client β) : Prop where
  calls : next.calls = client.calls
  panicked : next.panicked = client.panicked

theorem leave_keeps (client : Client β) (failer : Failer) : client.Keeps (client.leave failer) := by
  cases failer <;> exact ⟨rfl, rfl⟩

theorem accept_keeps (h : client.accept = some next) (hsend : ¬client.SendsClosed .accept) :
    client.Keeps next := by
  unfold Client.accept at h
  split at h
  · next hreader =>
    obtain rfl := Option.some.inj h
    unfold Client.notify
    split
    · next hclosed => exact absurd ⟨rfl, hreader, hclosed⟩ hsend
    · split <;> exact ⟨rfl, rfl⟩
  · split at h <;> obtain rfl := Option.some.inj h <;> exact ⟨rfl, rfl⟩
  · obtain rfl := Option.some.inj h
    exact ⟨rfl, rfl⟩
  · cases h

theorem accept_calls (h : client.accept = some next) : next.calls = client.calls := by
  by_cases hsend : client.SendsClosed .accept
  · obtain ⟨-, hreader, hclosed⟩ := hsend
    rw [Client.accept, hreader] at h
    obtain rfl := Option.some.inj h
    rw [Client.notify, if_pos hclosed]
  · exact (accept_keeps h hsend).calls

theorem enter_keeps (h : client.enter failer = some next) : client.Keeps next := by
  unfold Client.enter at h
  split at h
  · cases h
  · split at h
    · obtain rfl := Option.some.inj h
      exact ⟨rfl, rfl⟩
    · cases h
    · obtain rfl := Option.some.inj h
      exact leave_keeps client failer

theorem answer_keeps (h : client.answer id = some next) : client.Keeps next := by
  unfold Client.answer at h
  split at h
  · split at h
    · obtain ⟨-, rfl⟩ := send_eq h
      exact ⟨rfl, rfl⟩
    · cases h
  · cases h

theorem finish_keeps (h : client.finish = some next) : client.Keeps next := by
  unfold Client.finish at h
  split at h
  · next failer _ =>
    obtain rfl := Option.some.inj h
    cases failer <;> exact ⟨rfl, rfl⟩
  · cases h

theorem call_advances (h : client.call key = some next) :
    ∃ state, client.Advances (.call key) next key state := by
  unfold Client.call at h
  split at h
  · cases h
  · next hnone _ =>
    obtain rfl := Option.some.inj h
    exact ⟨_, rfl, rfl, by simp [hnone], by simp⟩
  · next hnone _ =>
    obtain rfl := Option.some.inj h
    exact ⟨_, rfl, rfl, by simp [hnone], by simp⟩

theorem write_advances {written : Bool} (h : client.write key written = some next) :
    ∃ state, client.Advances (.write key written) next key state := by
  unfold Client.write at h
  split at h
  · next hcall =>
    split at h
    · obtain rfl := Option.some.inj h
      exact ⟨_, rfl, rfl, by simp [hcall], by simp⟩
    · next hwritten =>
      obtain rfl := Option.some.inj h
      refine ⟨_, rfl, rfl, by simp [hcall], fun id _ => ?_⟩
      rw [Bool.eq_false_iff.mpr hwritten]
  · cases h

theorem outcome_ne_unsent (reply : Reply β) : Reply.outcome reply ≠ .unsent := by
  cases reply <;> simp [Reply.outcome]

theorem select_advances {ready : Case} (h : client.select key ready = some next) :
    ∃ state, client.Advances (.select key ready) next key state := by
  unfold Client.select at h
  split at h
  · split at h
    · next hcall =>
      obtain ⟨reply, -, rfl⟩ := Option.map_eq_some_iff.mp h
      refine ⟨_, rfl, rfl, by simp [hcall], fun id hid => ?_⟩
      rw [CallState.returned.injEq] at hid
      exact absurd hid.2 (outcome_ne_unsent reply)
    · cases h
  · split at h
    · next hcall _ =>
      obtain rfl := Option.some.inj h
      exact ⟨_, rfl, rfl, by simp [hcall], by simp⟩
    · cases h
  · split at h
    · next hcall _ =>
      obtain rfl := Option.some.inj h
      exact ⟨_, rfl, rfl, by simp [hcall], by simp⟩
    · cases h

theorem step_keeps {event : Event β} (h : client.step event = some next)
    (hsend : ¬client.SendsClosed event) :
    client.Keeps next ∨ ∃ key state, client.Advances event next key state := by
  cases event with
  | read document =>
    simp only [Client.step, Client.read] at h
    split at h
    · obtain rfl := Option.some.inj h
      exact .inl ⟨rfl, rfl⟩
    · obtain rfl := Option.some.inj h
      exact .inl ⟨rfl, rfl⟩
    · cases h
  | accept => exact .inl (accept_keeps h hsend)
  | deliver =>
    simp only [Client.step, Client.deliver] at h
    split at h
    · obtain ⟨-, rfl⟩ := send_eq h
      exact .inl ⟨rfl, rfl⟩
    · cases h
  | take =>
    simp only [Client.step] at h
    split at h
    · obtain rfl := Option.some.inj h
      exact .inl ⟨rfl, rfl⟩
    · cases h
  | close =>
    simp only [Client.step] at h
    split at h
    · obtain rfl := Option.some.inj h
      exact .inl ⟨rfl, rfl⟩
    · cases h
  | enter failer => exact .inl (enter_keeps h)
  | answer id => exact .inl (answer_keeps h)
  | finish => exact .inl (finish_keeps h)
  | call key => exact .inr ⟨key, call_advances h⟩
  | write key written => exact .inr ⟨key, write_advances h⟩
  | cancel key =>
    obtain rfl := Option.some.inj h
    exact .inl ⟨rfl, rfl⟩
  | select key ready => exact .inr ⟨key, select_advances h⟩

theorem step_calls {event : Event β} (h : client.step event = some next) :
    next.calls = client.calls ∨ ∃ key state, client.Advances event next key state := by
  by_cases hsend : client.SendsClosed event
  · obtain ⟨rfl, -⟩ := hsend
    exact .inl (accept_calls h)
  · exact (step_keeps h hsend).imp_left Keeps.calls

theorem step_returned {event : Event β} {id : Option ℕ} {outcome : Outcome β}
    (hstep : client.step event = some next)
    (h : client.calls key = some (.returned id outcome)) :
    next.calls key = some (.returned id outcome) := by
  rcases step_calls hstep with hcalls | ⟨other, state, hadvances⟩
  · rwa [hcalls]
  · have hne : key ≠ other := by
      intro hsame
      rw [hsame] at h
      exact hadvances.active id outcome h
    rw [hadvances.calls, assign_apply, if_neg hne, h]

/-- No goroutine has sent on a closed channel, and none of them blocks for ever: a reply that is to be
sent can be sent, and a call that waits can leave its `select`, or it is in one place that a reply
comes from.  A call that returned has an outcome of its own. -/
structure Safe (client : Client β) : Prop where
  open_channels : client.panicked = false
  delivers : ∀ response, client.reader = .delivering response → (client.step .deliver).isSome
  answers : ∀ id ∈ client.waiters, (client.step (.answer id)).isSome
  waits : ∀ key id, client.calls key = some (.waiting id) →
    (client.step (.select key .done)).isSome ∨ client.places id = 1
  outcomes : ∀ key id outcome, client.calls key = some (.returned id outcome) →
    client.Justified key id outcome

theorem Sound.safe (h : client.Sound) (hopen : client.panicked = false) : client.Safe := by
  constructor
  · exact hopen
  · intro response hreader
    have hfree : client.channels response.id = none := by
      refine h.channel_free ?_
      simp only [delivering, hreader, if_pos]
      omega
    simp [Client.step, Client.deliver, hreader, Client.send, hfree]
  · intro id hid
    have hfree : client.channels id = none := by
      refine h.channel_free ?_
      have hcount := List.count_pos_iff.mpr hid
      omega
    unfold waiters at hid
    split at hid
    · next failer waiting honce =>
      have hclosed := h.table.closed_of_once (by simp [honce])
      obtain ⟨error, herror⟩ := h.table.terminal_of_closed hclosed
      simp [Client.step, Client.answer, honce, herror, hid, Client.send, hfree]
    · cases hid
  · intro key id hcall
    rcases h.callers.served key id (.inr hcall) with hclosed | hplaces
    · left
      simp [Client.step, Client.select, hcall, hclosed]
    · exact .inr hplaces
  · exact h.callers.outcome

end RlcdDeck.CodexAppServer.Client
