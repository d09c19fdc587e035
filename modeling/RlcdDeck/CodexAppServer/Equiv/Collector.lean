import RlcdDeck.CodexAppServer.Collector

/-!
# Every owned thread was resumed

A thread is owned because a resume of it was accepted on the connection that is current, and since
then no notification said that it is not loaded (`Verified`).  Two orders of the goroutines break
this.  A notification may be handled after the response that it follows was taken, and before
`LoadThread` enters the thread (`Misses`): it is ignored then.  And a `LoadThread` that is through but
for its deferred function takes away the entry of a later one (`Overlaps`): the threads that are owned
or pending are no longer bounded then.  In every other run all of it holds (`ownership_verified`).
-/

namespace RlcdDeck.CodexAppServer.System

open Effects

variable {π : Type} {s t : System π} {sha256 : List UInt8 → List UInt8}

/-- A resume of the thread was accepted on the current connection, and no notification that was
handled came after it. -/
def Verified (s : System π) (threadId : Text) : Prop :=
  ∃ client number, s.collector.client = some client ∧ ⟨threadId, client, number⟩ ∈ s.resumes ∧
    ∀ report ∈ s.unloads, report.threadId = threadId → report.client = client →
      report.number ≤ number

/-- The load has its entry for the current client. -/
def Active (s : System π) (load : Load) : Prop :=
  s.collector.client = some load.client ∧ ∀ error, load.phase ≠ .returned error

/-- The load will give up its entry, or its thread enters the owned set. -/
def Open (load : Load) : Prop := load.phase = .calling ∨ ∃ number, load.phase = .resumed number

/-- `Run` and the clients. -/
structure Connected (s : System π) : Prop where
  client_of_serving : ∀ client, s.runner = .serving client → s.collector.client = some client
  runner_of_client : ∀ client, s.collector.client = some client →
    s.runner = .serving client ∨ s.runner = .leaving client
  client_lt : ∀ client, s.collector.client = some client → client < s.clients
  connected_lt : ∀ client, s.runner = .connected client → client < s.clients
  load_lt : ∀ load ∈ s.loads, load.client < s.clients
  load_ne : ∀ load ∈ s.loads, s.runner ≠ .connected load.client
  clear : s.collector.client = none → s.collector.ownedThreads = ∅ ∧
    s.collector.pendingLoads = ∅ ∧ s.collector.sessions = ∅

/-- The entries of the calls of `LoadThread`. -/
structure Pending (s : System π) : Prop where
  current : ∀ threadId client, s.collector.pendingLoads.lookup threadId = some client →
    s.collector.client = some client
  entry : ∀ load ∈ s.loads, Open load → s.collector.client = some load.client →
    s.collector.pendingLoads.lookup load.threadId = some load.client
  unique : ∀ (i j : ℕ) (a b : Load), s.loads[i]? = some a → s.loads[j]? = some b → s.Active a → s.Active b →
    a.threadId = b.threadId → i = j
  bounded : s.collector.ownedThreads.card + s.collector.pendingLoads.entries.length ≤
    maximumOwnedThreads

/-- The owned threads and their sessions. -/
structure Owned (sha256 : List UInt8 → List UInt8) (s : System π) : Prop where
  verified : ∀ threadId ∈ s.collector.ownedThreads, s.Verified threadId
  resumed : ∀ load ∈ s.loads, ∀ number, load.phase = .resumed number →
    s.collector.client = some load.client →
      ⟨load.threadId, load.client, number⟩ ∈ s.resumes ∧
        ∀ report ∈ s.unloads, report.threadId = load.threadId → report.client = load.client →
          report.number ≤ number
  session : ∀ threadId session, s.collector.sessions.lookup threadId = some session →
    threadId ∈ s.collector.ownedThreads ∧ session.id = sessionIdentity sha256 threadId
  notification_lt : ∀ notification ∈ s.notifications, notification.1 < s.documents
  unload_lt : ∀ report ∈ s.unloads, report.number < s.documents

/-- What holds in every state. -/
structure Consistent (sha256 : List UInt8 → List UInt8) (s : System π) : Prop where
  connected : Connected s
  pending : Pending s
  owned : Owned sha256 s

/-! ### The steps that break it -/

/-- The resume of a load was accepted before the document `number`. -/
def acceptedBefore (number : ℕ) : LoadPhase → Bool
  | .resumed accepted => accepted < number
  | _ => false

/-- A load that has only its deferred function to run. -/
def isEnding : LoadPhase → Bool
  | .ending _ => true
  | _ => false

/-- A notification that a thread is not loaded is handled after a resume of it that it follows, and
before the thread is entered. -/
def Misses (s : System π) : Event π → Prop
  | .handle _ => ∃ notification ∈ s.notifications.head?, ∃ load ∈ s.loads,
      unloaded notification.2 = some load.threadId ∧ s.collector.client = some load.client ∧
        acceptedBefore notification.1 load.phase = true
  | _ => False

/-- A call of `LoadThread` gets its entry while another, of the same thread and client, has its
deferred function to run. -/
def Overlaps (s : System π) : Event π → Prop
  | .load threadId => ∃ load ∈ s.loads, load.threadId = threadId ∧
      (s.collector.beginLoad threadId).1 = .calls load.client ∧ isEnding load.phase = true
  | _ => False

instance (s : System π) (event : Event π) : Decidable (s.Misses event) := by
  cases event <;> unfold Misses <;> infer_instance

instance (s : System π) (event : Event π) : Decidable (s.Overlaps event) := by
  cases event <;> unfold Overlaps <;> infer_instance

/-! ### `Run` -/

theorem consistent_of_none (hclient : t.collector.client = none)
    (hclear : t.collector.ownedThreads = ∅ ∧ t.collector.pendingLoads = ∅ ∧
      t.collector.sessions = ∅)
    (hserving : ∀ client, t.runner ≠ .serving client)
    (hconnected : ∀ client, t.runner = .connected client → client < t.clients)
    (hlt : ∀ load ∈ t.loads, load.client < t.clients)
    (hne : ∀ load ∈ t.loads, t.runner ≠ .connected load.client)
    (hnotification : ∀ notification ∈ t.notifications, notification.1 < t.documents)
    (hunload : ∀ report ∈ t.unloads, report.number < t.documents) : Consistent sha256 t := by
  have hnone : ∀ client, t.collector.client ≠ some client := by simp [hclient]
  constructor
  · constructor
    · exact fun client hrunner => absurd hrunner (hserving client)
    · exact fun client hsome => absurd hsome (hnone client)
    · exact fun client hsome => absurd hsome (hnone client)
    · exact hconnected
    · exact hlt
    · exact hne
    · exact fun _ => hclear
  · constructor
    · intro threadId client hlookup
      rw [hclear.2.1] at hlookup
      simp at hlookup
    · exact fun load _ _ hsome => absurd hsome (hnone load.client)
    · exact fun i j a b _ _ ha => absurd ha.1 (hnone a.client)
    · rw [hclear.1, hclear.2.1]
      exact Nat.zero_le _
  · constructor
    · intro threadId hmem
      rw [hclear.1] at hmem
      simp at hmem
    · exact fun load _ _ _ hsome => absurd hsome (hnone load.client)
    · intro threadId session hlookup
      rw [hclear.2.2] at hlookup
      simp at hlookup
    · exact hnotification
    · exact hunload

theorem Connected.client_none (h : Connected s) (hserving : ∀ client, s.runner ≠ .serving client)
    (hleaving : ∀ client, s.runner ≠ .leaving client) : s.collector.client = none := by
  cases hclient : s.collector.client with
  | none => rfl
  | some client =>
    rcases h.runner_of_client client hclient with hrunner | hrunner
    · exact absurd hrunner (hserving client)
    · exact absurd hrunner (hleaving client)

theorem Consistent.run (h : Consistent sha256 s) (hstep : s.run = some t) : Consistent sha256 t := by
  unfold System.run at hstep
  split at hstep
  · next hrunner =>
    obtain rfl := Option.some.inj hstep
    have hnone := h.connected.client_none (by simp [hrunner]) (by simp [hrunner])
    exact consistent_of_none hnone (h.connected.clear hnone) (by simp) (by simp)
      h.connected.load_lt (by simp) h.owned.notification_lt h.owned.unload_lt
  · cases hstep

theorem Consistent.connect (h : Consistent sha256 s) (hstep : s.connect = some t) :
    Consistent sha256 t := by
  unfold System.connect at hstep
  split at hstep
  · next hrunner =>
    obtain rfl := Option.some.inj hstep
    have hnone := h.connected.client_none (by simp [hrunner]) (by simp [hrunner])
    refine consistent_of_none hnone (h.connected.clear hnone) (by simp) ?_ ?_ ?_ (by simp)
      h.owned.unload_lt
    · intro client hclient
      cases hclient
      exact Nat.lt_succ_self _
    · exact fun load hload => Nat.lt_succ_of_lt (h.connected.load_lt load hload)
    · intro load hload hclient
      have hlt := h.connected.load_lt load hload
      rw [Runner.connected.injEq] at hclient
      omega
  · cases hstep

/-- The client is new: no load uses it, and nothing was entered since the last one. -/
theorem Consistent.initialized (h : Consistent sha256 s) (hstep : s.initialized = some t) :
    Consistent sha256 t := by
  unfold System.initialized at hstep
  split at hstep
  · next client hrunner =>
    obtain rfl := Option.some.inj hstep
    have hnone := h.connected.client_none (by simp [hrunner]) (by simp [hrunner])
    obtain ⟨howned, hpending, hsessions⟩ := h.connected.clear hnone
    have hload : ∀ load ∈ s.loads, some client ≠ some load.client := by
      intro load hload hsame
      apply h.connected.load_ne load hload
      rw [hrunner, Option.some.inj hsame]
    constructor
    · constructor
      · intro other hother
        cases hother
        rfl
      · intro other hother
        cases hother
        exact .inl rfl
      · intro other hother
        cases hother
        exact h.connected.connected_lt client hrunner
      · intro other hother
        cases hother
      · exact h.connected.load_lt
      · intro load _ hother
        cases hother
      · intro hother
        cases hother
    · constructor
      · intro threadId other hlookup
        change s.collector.pendingLoads.lookup threadId = some other at hlookup
        rw [hpending] at hlookup
        simp at hlookup
      · exact fun load hmem _ hsame => absurd hsame (hload load hmem)
      · exact fun i j a b ha _ hactive => absurd hactive.1 (hload a (List.mem_of_getElem? ha))
      · change s.collector.ownedThreads.card + s.collector.pendingLoads.entries.length ≤ _
        rw [howned, hpending]
        exact Nat.zero_le _
    · constructor
      · intro threadId hmem
        change threadId ∈ s.collector.ownedThreads at hmem
        rw [howned] at hmem
        simp at hmem
      · exact fun load hmem _ _ hsame => absurd hsame (hload load hmem)
      · intro threadId session hlookup
        change s.collector.sessions.lookup threadId = some session at hlookup
        rw [hsessions] at hlookup
        simp at hlookup
      · exact h.owned.notification_lt
      · exact h.owned.unload_lt
  · cases hstep

variable {client : ℕ}

theorem Consistent.leaving (h : Consistent sha256 s)
    (hrunner : s.runner = .connected client ∨ s.runner = .serving client) :
    Consistent sha256 { s with runner := .leaving client } := by
  constructor
  · constructor
    · intro other hother
      cases hother
    · intro other hother
      rcases h.connected.runner_of_client other hother with hserving | hleaving
      · rcases hrunner with hrunner | hrunner
        · rw [hrunner] at hserving
          cases hserving
        · rw [hrunner, Runner.serving.injEq] at hserving
          rw [hserving]
          exact .inr rfl
      · rcases hrunner with hrunner | hrunner <;> rw [hrunner] at hleaving <;> cases hleaving
    · exact h.connected.client_lt
    · intro other hother
      cases hother
    · exact h.connected.load_lt
    · intro load _ hother
      cases hother
    · exact h.connected.clear
  · exact ⟨h.pending.current, h.pending.entry, h.pending.unique, h.pending.bounded⟩
  · exact ⟨h.owned.verified, h.owned.resumed, h.owned.session, h.owned.notification_lt,
      h.owned.unload_lt⟩

theorem Consistent.leave (h : Consistent sha256 s) (hstep : s.leave = some t) :
    Consistent sha256 t := by
  unfold System.leave at hstep
  split at hstep
  · next hrunner =>
    obtain rfl := Option.some.inj hstep
    exact h.leaving (.inl hrunner)
  · next hrunner =>
    obtain rfl := Option.some.inj hstep
    exact h.leaving (.inr hrunner)
  · cases hstep

theorem Consistent.disconnect (h : Consistent sha256 s) (hstep : s.disconnect = some t) :
    Consistent sha256 t := by
  unfold System.disconnect at hstep
  split at hstep
  · next client hrunner =>
    obtain rfl := Option.some.inj hstep
    refine consistent_of_none ?_ ⟨rfl, rfl, rfl⟩ (by simp) (by simp) h.connected.load_lt (by simp)
      h.owned.notification_lt h.owned.unload_lt
    change (if s.collector.client = some client then none else s.collector.client) = none
    split
    · rfl
    · next hne =>
      cases hother : s.collector.client with
      | none => rfl
      | some other =>
        rcases h.connected.runner_of_client other hother with hserving | hleaving
        · rw [hrunner] at hserving
          cases hserving
        · rw [hrunner, Runner.leaving.injEq] at hleaving
          rw [hleaving] at hne
          exact absurd hother hne
  · cases hstep

theorem Consistent.exit (h : Consistent sha256 s) (hstep : s.exit = some t) :
    Consistent sha256 t := by
  unfold System.exit at hstep
  split at hstep
  · obtain rfl := Option.some.inj hstep
    exact consistent_of_none rfl ⟨rfl, rfl, rfl⟩ (by simp) (by simp) h.connected.load_lt (by simp)
      h.owned.notification_lt h.owned.unload_lt
  · cases hstep

theorem Consistent.collected {provider : π} (h : Consistent sha256 s)
    (hstep : s.collected provider = some t) : Consistent sha256 t := by
  unfold System.collected at hstep
  split at hstep
  · obtain rfl := Option.some.inj hstep
    constructor
    · exact ⟨h.connected.client_of_serving, h.connected.runner_of_client, h.connected.client_lt,
        h.connected.connected_lt, h.connected.load_lt, h.connected.load_ne, h.connected.clear⟩
    · exact ⟨h.pending.current, h.pending.entry, h.pending.unique, h.pending.bounded⟩
    · exact ⟨h.owned.verified, h.owned.resumed, h.owned.session, h.owned.notification_lt,
        h.owned.unload_lt⟩
  · cases hstep

/-! ### The read loop and `LoadThread` -/

variable {document : Option RawThreadStatusNotification}

theorem Consistent.notify (h : Consistent sha256 s) (hstep : s.notify document = some t) :
    Consistent sha256 t := by
  have hnext : ∀ next, (if s.notifications.length < notificationCapacity then
      some { s with
        documents := s.documents + 1
        notifications := s.notifications ++ [(s.documents, document)] } else none) = some next →
      Consistent sha256 next := by
    intro next hnext
    split at hnext
    · obtain rfl := Option.some.inj hnext
      constructor
      · exact ⟨h.connected.client_of_serving, h.connected.runner_of_client, h.connected.client_lt,
          h.connected.connected_lt, h.connected.load_lt, h.connected.load_ne, h.connected.clear⟩
      · exact ⟨h.pending.current, h.pending.entry, h.pending.unique, h.pending.bounded⟩
      · refine ⟨h.owned.verified, h.owned.resumed, h.owned.session, fun notification hmem => ?_,
          fun report hmem => Nat.lt_succ_of_lt (h.owned.unload_lt report hmem)⟩
        rcases List.mem_append.mp hmem with hmem | hmem
        · exact Nat.lt_succ_of_lt (h.owned.notification_lt notification hmem)
        · rw [List.mem_singleton.mp hmem]
          exact Nat.lt_succ_self _
    · cases hnext
  unfold System.notify at hstep
  split at hstep
  · exact hnext t hstep
  · exact hnext t hstep
  · cases hstep

/-- A load goes on, with the thread and the client that it has. -/
structure Continues (s t : System π) (key : ℕ) (old new : Load) : Prop where
  found : s.loads[key]? = some old
  loads : t.loads = s.loads.set key new
  threadId : new.threadId = old.threadId
  client : new.client = old.client
  active : ∀ error, old.phase ≠ .returned error

variable {key : ℕ} {old new : Load}

theorem Continues.mem {load : Load} (h : Continues s t key old new) (hmem : load ∈ t.loads) :
    load ∈ s.loads ∨ load = new := by
  rw [h.loads] at hmem
  exact List.mem_or_eq_of_mem_set hmem

theorem Continues.getElem? {i : ℕ} {a : Load} (h : Continues s t key old new)
    (hclient : t.collector.client = s.collector.client) (ha : t.loads[i]? = some a)
    (hactive : t.Active a) :
    ∃ b, s.loads[i]? = some b ∧ b.threadId = a.threadId ∧ s.Active b := by
  rw [h.loads, List.getElem?_set] at ha
  by_cases hkey : key = i
  · rw [if_pos hkey] at ha
    split at ha
    · obtain rfl := Option.some.inj ha
      refine ⟨old, hkey ▸ h.found, h.threadId.symm, ?_, h.active⟩
      rw [← hclient, ← h.client]
      exact hactive.1
    · cases ha
  · rw [if_neg hkey] at ha
    refine ⟨a, ha, rfl, ?_, hactive.2⟩
    rw [← hclient]
    exact hactive.1

theorem Connected.continues (h : Connected s) (hload : Continues s t key old new)
    (hrunner : t.runner = s.runner)
    (hclient : t.collector.client = s.collector.client) (hclients : t.clients = s.clients)
    (hclear : s.collector.client = none → t.collector.ownedThreads = ∅ ∧
      t.collector.pendingLoads = ∅ ∧ t.collector.sessions = ∅) : Connected t := by
  have hold := List.mem_of_getElem? hload.found
  constructor
  · intro client hserving
    rw [hclient]
    exact h.client_of_serving client (hrunner ▸ hserving)
  · intro client hsome
    rw [hrunner]
    exact h.runner_of_client client (hclient ▸ hsome)
  · intro client hsome
    rw [hclients]
    exact h.client_lt client (hclient ▸ hsome)
  · intro client hconnected
    rw [hclients]
    exact h.connected_lt client (hrunner ▸ hconnected)
  · intro load hmem
    rw [hclients]
    rcases hload.mem hmem with hmem | rfl
    · exact h.load_lt load hmem
    · rw [hload.client]
      exact h.load_lt old hold
  · intro load hmem
    rw [hrunner]
    rcases hload.mem hmem with hmem | rfl
    · exact h.load_ne load hmem
    · rw [hload.client]
      exact h.load_ne old hold
  · rw [hclient]
    exact hclear

/-- The entries that are left after a load gave up its own. -/
structure Forgets (s t : System π) (load : Load) : Prop where
  lookup : ∀ threadId client, t.collector.pendingLoads.lookup threadId = some client →
    s.collector.pendingLoads.lookup threadId = some client
  kept : ∀ threadId, (threadId = load.threadId → s.collector.client ≠ some load.client) →
    t.collector.pendingLoads.lookup threadId = s.collector.pendingLoads.lookup threadId

theorem Forgets.of_eq {load : Load} (h : t.collector.pendingLoads = s.collector.pendingLoads) :
    Forgets s t load := by
  constructor
  · intro threadId client hlookup
    rwa [← h]
  · intro threadId _
    rw [h]

theorem pendingLoads_forgetLoad (collector : Collector π) (threadId : Text) (client : ℕ) :
    (collector.forgetLoad threadId client).pendingLoads =
      if collector.pendingLoads.lookup threadId = some client then
        collector.pendingLoads.erase threadId
      else collector.pendingLoads := by
  unfold Collector.forgetLoad
  split <;> rfl

@[simp] theorem client_forgetLoad (collector : Collector π) (threadId : Text) (client : ℕ) :
    (collector.forgetLoad threadId client).client = collector.client := by
  unfold Collector.forgetLoad
  split <;> rfl

@[simp] theorem ownedThreads_forgetLoad (collector : Collector π) (threadId : Text) (client : ℕ) :
    (collector.forgetLoad threadId client).ownedThreads = collector.ownedThreads := by
  unfold Collector.forgetLoad
  split <;> rfl

@[simp] theorem sessions_forgetLoad (collector : Collector π) (threadId : Text) (client : ℕ) :
    (collector.forgetLoad threadId client).sessions = collector.sessions := by
  unfold Collector.forgetLoad
  split <;> rfl

theorem Forgets.of_forgetLoad {load : Load} (h : Pending s)
    (hpending : t.collector.pendingLoads =
      (s.collector.forgetLoad load.threadId load.client).pendingLoads) : Forgets s t load := by
  rw [pendingLoads_forgetLoad] at hpending
  by_cases hown : s.collector.pendingLoads.lookup load.threadId = some load.client
  · rw [if_pos hown] at hpending
    have hcurrent := h.current load.threadId load.client hown
    constructor
    · intro threadId client hlookup
      rw [hpending] at hlookup
      by_cases hsame : threadId = load.threadId
      · rw [hsame, AList.lookup_erase] at hlookup
        cases hlookup
      · rwa [AList.lookup_erase_ne hsame] at hlookup
    · intro threadId hother
      have hne : threadId ≠ load.threadId := fun hsame => hother hsame hcurrent
      rw [hpending, AList.lookup_erase_ne hne]
  · rw [if_neg hown] at hpending
    exact Forgets.of_eq hpending

theorem length_erase_of_lookup {α : Type} {entries : AList fun _ : Text => α} {key : Text} {value : α}
    (h : entries.lookup key = some value) :
    (entries.erase key).entries.length + 1 = entries.entries.length := by
  have hmem : key ∈ entries.keys := AList.lookup_isSome.mp (by rw [h]; rfl)
  obtain ⟨_, before, after, _, hentries, hrest⟩ := List.exists_of_kerase hmem
  change (List.kerase key entries.entries).length + 1 = entries.entries.length
  rw [hrest, hentries, List.length_append, List.length_append, List.length_cons]
  omega

theorem Pending.continues (h : Pending s) (hload : Continues s t key old new)
    (hclient : t.collector.client = s.collector.client)
    (hforgets : Forgets s t old)
    (hnew : Open new → Open old ∧ t.collector.pendingLoads = s.collector.pendingLoads)
    (hbounded : t.collector.ownedThreads.card + t.collector.pendingLoads.entries.length ≤
      maximumOwnedThreads) : Pending t := by
  constructor
  · intro threadId client hlookup
    rw [hclient]
    exact h.current threadId client (hforgets.lookup threadId client hlookup)
  · intro load hmem hopen hcurrent
    rw [hclient] at hcurrent
    obtain ⟨i, hi⟩ := List.getElem?_of_mem hmem
    rw [hload.loads, List.getElem?_set] at hi
    by_cases hkey : key = i
    · rw [if_pos hkey] at hi
      split at hi
      · obtain rfl := Option.some.inj hi
        obtain ⟨hold, hsame⟩ := hnew hopen
        rw [hsame, hload.threadId, hload.client]
        refine h.entry old (List.mem_of_getElem? hload.found) hold ?_
        rwa [← hload.client]
      · cases hi
    · rw [if_neg hkey] at hi
      have hactive : s.Active load := by
        refine ⟨hcurrent, fun error herror => ?_⟩
        rcases hopen with hcalling | ⟨number, hresumed⟩
        · rw [hcalling] at herror
          cases herror
        · rw [hresumed] at herror
          cases herror
      by_cases hthread : load.threadId = old.threadId
      · -- The load that goes on would be another active one of the thread.
        rw [hforgets.kept load.threadId fun _ hold => hkey ?_]
        · exact h.entry load (List.mem_of_getElem? hi) hopen hcurrent
        · exact h.unique key i old load hload.found hi ⟨hold, hload.active⟩ hactive hthread.symm
      · rw [hforgets.kept load.threadId fun hsame => absurd hsame hthread]
        exact h.entry load (List.mem_of_getElem? hi) hopen hcurrent
  · intro i j a b ha hb hactive hactive' hthread
    obtain ⟨a', ha', hathread, hactivea⟩ := hload.getElem? hclient ha hactive
    obtain ⟨b', hb', hbthread, hactiveb⟩ := hload.getElem? hclient hb hactive'
    exact h.unique i j a' b' ha' hb' hactivea hactiveb (by rw [hathread, hbthread, hthread])
  · exact hbounded

theorem Owned.continues (h : Owned sha256 s) (hload : Continues s t key old new)
    (hclient : t.collector.client = s.collector.client)
    (hresumes : s.resumes ⊆ t.resumes) (hunloads : t.unloads = s.unloads)
    (hnotifications : t.notifications = s.notifications) (hdocuments : s.documents ≤ t.documents)
    (hsessions : t.collector.sessions = s.collector.sessions)
    (howned : s.collector.ownedThreads ⊆ t.collector.ownedThreads)
    (hverified : ∀ threadId ∈ t.collector.ownedThreads, threadId ∉ s.collector.ownedThreads →
      s.Verified threadId)
    (hnew : ∀ number, new.phase = .resumed number → ⟨old.threadId, old.client, number⟩ ∈ t.resumes ∧
      ∀ report ∈ s.unloads, report.number ≤ number) : Owned sha256 t := by
  constructor
  · intro threadId hmem
    have hold : s.Verified threadId := by
      by_cases hbefore : threadId ∈ s.collector.ownedThreads
      · exact h.verified threadId hbefore
      · exact hverified threadId hmem hbefore
    obtain ⟨client, number, hcurrent, hresumed, hreports⟩ := hold
    refine ⟨client, number, by rwa [hclient], hresumes hresumed, ?_⟩
    rw [hunloads]
    exact hreports
  · intro load hmem number hphase hcurrent
    rw [hunloads]
    rcases hload.mem hmem with hmem | rfl
    · obtain ⟨hresumed, hreports⟩ := h.resumed load hmem number hphase (by rwa [← hclient])
      exact ⟨hresumes hresumed, hreports⟩
    · obtain ⟨hresumed, hreports⟩ := hnew number hphase
      rw [hload.threadId, hload.client]
      exact ⟨hresumed, fun report hreport _ _ => hreports report hreport⟩
  · intro threadId session hlookup
    rw [hsessions] at hlookup
    obtain ⟨hmem, hid⟩ := h.session threadId session hlookup
    exact ⟨howned hmem, hid⟩
  · intro notification hmem
    rw [hnotifications] at hmem
    exact Nat.lt_of_lt_of_le (h.notification_lt notification hmem) hdocuments
  · intro report hmem
    rw [hunloads] at hmem
    exact Nat.lt_of_lt_of_le (h.unload_lt report hmem) hdocuments

theorem Consistent.respond {response : Option ResumedThread} (h : Consistent sha256 s)
    (hstep : s.respond key response = some t) : Consistent sha256 t := by
  unfold System.respond at hstep
  split at hstep
  · next threadId client hfound =>
    split at hstep
    · have hload : Continues s t key ⟨threadId, client, .calling⟩
          ⟨threadId, client, .resumed s.documents⟩ :=
        ⟨hfound, by rw [← Option.some.inj hstep], rfl, rfl, by simp⟩
      obtain rfl := Option.some.inj hstep
      constructor
      · exact h.connected.continues hload rfl rfl rfl h.connected.clear
      · exact h.pending.continues hload rfl (Forgets.of_eq rfl) (fun _ => ⟨.inl rfl, rfl⟩)
          h.pending.bounded
      · refine h.owned.continues hload rfl (List.subset_cons_self _ _) rfl rfl (Nat.le_succ _) rfl
          (Finset.Subset.refl _) (fun _ hmem hnot => absurd hmem hnot) fun number hnumber => ?_
        cases hnumber
        exact ⟨List.mem_cons_self, fun report hreport => Nat.le_of_lt (h.owned.unload_lt report hreport)⟩
    · have hload : Continues s t key ⟨threadId, client, .calling⟩
          ⟨threadId, client, .ending (some .schemaChanged)⟩ :=
        ⟨hfound, by rw [← Option.some.inj hstep], rfl, rfl, by simp⟩
      obtain rfl := Option.some.inj hstep
      constructor
      · exact h.connected.continues hload rfl rfl rfl h.connected.clear
      · exact h.pending.continues hload rfl (Forgets.of_eq rfl) (by simp [Open]) h.pending.bounded
      · exact h.owned.continues hload rfl (List.Subset.refl _) rfl rfl (Nat.le_succ _) rfl
          (Finset.Subset.refl _) (fun _ hmem hnot => absurd hmem hnot) (by simp)
  · cases hstep

theorem Consistent.fail (h : Consistent sha256 s) (hstep : s.fail key = some t) :
    Consistent sha256 t := by
  have hfails : ∀ (threadId : Text) (client : ℕ) (phase : LoadPhase),
      s.loads[key]? = some ⟨threadId, client, phase⟩ → (∀ error, phase ≠ .returned error) →
      Consistent sha256 { s with
        loads := s.loads.set key ⟨threadId, client, .ending (some .call)⟩ } := by
    intro threadId client phase hfound hactive
    have hload : Continues s { s with
        loads := s.loads.set key ⟨threadId, client, .ending (some .call)⟩ } key
      ⟨threadId, client, phase⟩ ⟨threadId, client, .ending (some .call)⟩ :=
        ⟨hfound, rfl, rfl, rfl, hactive⟩
    constructor
    · exact h.connected.continues hload rfl rfl rfl h.connected.clear
    · exact h.pending.continues hload rfl (Forgets.of_eq rfl) (by simp [Open]) h.pending.bounded
    · exact h.owned.continues hload rfl (List.Subset.refl _) rfl rfl (Nat.le_refl _) rfl
        (Finset.Subset.refl _) (fun _ hmem hnot => absurd hmem hnot) (by simp)
  unfold System.fail at hstep
  split at hstep
  · next threadId client hfound =>
    obtain rfl := Option.some.inj hstep
    exact hfails threadId client _ hfound (by simp)
  · next threadId client number hfound =>
    obtain rfl := Option.some.inj hstep
    exact hfails threadId client _ hfound (by simp)
  · cases hstep

variable {number : ℕ} {threadId : Text}

theorem Consistent.enter (h : Consistent sha256 s)
    (hfound : s.loads[key]? = some ⟨threadId, client, .resumed number⟩)
    (hcurrent : s.collector.client = some client) :
    Consistent sha256 { s with
      collector := { s.collector with
        ownedThreads := insert threadId s.collector.ownedThreads }.forgetLoad threadId client
      loads := s.loads.set key ⟨threadId, client, .ending none⟩ } := by
  have hmem := List.mem_of_getElem? hfound
  have hentry : s.collector.pendingLoads.lookup threadId = some client :=
    h.pending.entry _ hmem (.inr ⟨number, rfl⟩) hcurrent
  have hload : Continues s { s with
      collector := { s.collector with
        ownedThreads := insert threadId s.collector.ownedThreads }.forgetLoad threadId client
      loads := s.loads.set key ⟨threadId, client, .ending none⟩ } key
    ⟨threadId, client, .resumed number⟩ ⟨threadId, client, .ending none⟩ :=
      ⟨hfound, rfl, rfl, rfl, by simp⟩
  constructor
  · refine h.connected.continues hload rfl (by simp) rfl fun hnone => ?_
    rw [hcurrent] at hnone
    cases hnone
  · refine h.pending.continues hload (by simp) (Forgets.of_forgetLoad h.pending ?_) (by simp [Open])
      ?_
    · simp only [pendingLoads_forgetLoad]
    · have hcard := Finset.card_insert_le threadId s.collector.ownedThreads
      have hlength := length_erase_of_lookup hentry
      have hbounded := h.pending.bounded
      simp only [ownedThreads_forgetLoad, pendingLoads_forgetLoad, hentry, if_true]
      omega
  · refine h.owned.continues hload (by simp) (List.Subset.refl _) rfl rfl (Nat.le_refl _) (by simp)
      (by simp) (fun other hother hnot => ?_) (by simp)
    simp only [ownedThreads_forgetLoad, Finset.mem_insert] at hother
    rcases hother with rfl | hother
    · obtain ⟨hresumed, hreports⟩ := h.owned.resumed _ hmem number rfl hcurrent
      exact ⟨client, number, hcurrent, hresumed, hreports⟩
    · exact absurd hother hnot

theorem Consistent.commit (h : Consistent sha256 s) (hstep : s.commit key = some t) :
    Consistent sha256 t := by
  unfold System.commit at hstep
  split at hstep
  · next threadId client number hfound =>
    unfold Collector.commitLoad at hstep
    by_cases hcurrent : s.collector.client = some client
    · rw [if_neg (not_not.mpr hcurrent)] at hstep
      obtain rfl := Option.some.inj hstep
      exact h.enter hfound hcurrent
    · rw [if_pos hcurrent] at hstep
      have hload : Continues s t key ⟨threadId, client, .resumed number⟩
          ⟨threadId, client, .ending (some .processExited)⟩ :=
        ⟨hfound, by rw [← Option.some.inj hstep], rfl, rfl, by simp⟩
      obtain rfl := Option.some.inj hstep
      constructor
      · exact h.connected.continues hload rfl rfl rfl h.connected.clear
      · exact h.pending.continues hload rfl (Forgets.of_eq rfl) (by simp [Open]) h.pending.bounded
      · exact h.owned.continues hload rfl (List.Subset.refl _) rfl rfl (Nat.le_refl _) rfl
          (Finset.Subset.refl _) (fun _ hother hnot => absurd hother hnot) (by simp)
  · cases hstep

theorem length_forgetLoad_le (collector : Collector π) (threadId : Text) (client : ℕ) :
    (collector.forgetLoad threadId client).pendingLoads.entries.length ≤
      collector.pendingLoads.entries.length := by
  rw [pendingLoads_forgetLoad]
  split
  · next hlookup =>
    have hlength := length_erase_of_lookup hlookup
    omega
  · exact Nat.le_refl _

theorem Consistent.finish (h : Consistent sha256 s) (hstep : s.finish key = some t) :
    Consistent sha256 t := by
  unfold System.finish at hstep
  split at hstep
  · next threadId client error hfound =>
    have hload : Continues s t key ⟨threadId, client, .ending error⟩
        ⟨threadId, client, .returned error⟩ :=
      ⟨hfound, by rw [← Option.some.inj hstep], rfl, rfl, by simp⟩
    obtain rfl := Option.some.inj hstep
    constructor
    · refine h.connected.continues hload rfl (by simp) rfl fun hnone => ?_
      obtain ⟨howned, hpending, hsessions⟩ := h.connected.clear hnone
      refine ⟨by simpa using howned, ?_, by simpa using hsessions⟩
      rw [pendingLoads_forgetLoad, hpending]
      simp
    · refine h.pending.continues hload (by simp) (Forgets.of_forgetLoad h.pending rfl) (by simp [Open])
        ?_
      have hlength := length_forgetLoad_le s.collector threadId client
      have hbounded := h.pending.bounded
      simp only [ownedThreads_forgetLoad]
      omega
    · exact h.owned.continues hload (by simp) (List.Subset.refl _) rfl rfl (Nat.le_refl _) (by simp)
        (by simp) (fun _ hother hnot => absurd (by simpa using hother) hnot) (by simp)
  · cases hstep

/-- What `LoadThread` has checked when it takes its entry. -/
theorem beginLoad_calls {collector : Collector π}
    (h : (collector.beginLoad threadId).1 = .calls client) :
    collector.client = some client ∧ threadId ∉ collector.ownedThreads ∧
      threadId ∉ collector.pendingLoads ∧
      collector.ownedThreads.card + collector.pendingLoads.entries.length < maximumOwnedThreads ∧
      (collector.beginLoad threadId).2 =
        { collector with pendingLoads := collector.pendingLoads.insert threadId client } := by
  unfold Collector.beginLoad at h ⊢
  split at h
  · cases h
  next hvalid =>
    rw [if_neg hvalid]
    cases hclient : collector.client with
    | none =>
      rw [hclient] at h
      cases h
    | some current =>
      rw [hclient] at h
      dsimp only at h ⊢
      by_cases howned : threadId ∈ collector.ownedThreads
      · rw [if_pos howned] at h
        cases h
      by_cases hpending : threadId ∈ collector.pendingLoads
      · rw [if_neg howned, if_pos hpending] at h
        cases h
      by_cases hlimit : maximumOwnedThreads ≤
          collector.ownedThreads.card + collector.pendingLoads.entries.length
      · rw [if_neg howned, if_neg hpending, if_pos hlimit] at h
        cases h
      · rw [if_neg howned, if_neg hpending, if_neg hlimit] at h ⊢
        cases h
        exact ⟨rfl, howned, hpending, Nat.lt_of_not_le hlimit, rfl⟩

theorem load_eq (s : System π) (threadId : Text) : s.load threadId = s ∨
    ∃ client, (s.collector.beginLoad threadId).1 = .calls client ∧
      s.load threadId = { s with
        collector := (s.collector.beginLoad threadId).2
        loads := s.loads ++ [⟨threadId, client, .calling⟩] } := by
  unfold System.load
  split
  · exact .inl rfl
  · next client collector hbegin =>
    refine .inr ⟨client, ?_, ?_⟩
    · rw [hbegin]
    · rw [hbegin]

theorem getElem?_snoc {α : Type} {l : List α} {i : ℕ} {a b : α} (h : (l ++ [b])[i]? = some a) :
    l[i]? = some a ∨ (i = l.length ∧ a = b) := by
  rcases Nat.lt_trichotomy i l.length with hlt | heq | hgt
  · rw [List.getElem?_append_left hlt] at h
    exact .inl h
  · rw [heq, List.getElem?_concat_length] at h
    exact .inr ⟨heq, (Option.some.inj h).symm⟩
  · rw [List.getElem?_eq_none (by simp; omega)] at h
    cases h

/-- A load that begins is the only active one of its thread. -/
theorem Consistent.load (h : Consistent sha256 s)
    (hoverlaps : ¬s.Overlaps (.load threadId)) : Consistent sha256 (s.load threadId) := by
  rcases s.load_eq threadId with heq | ⟨client, hcalls, heq⟩
  · rw [heq]
    exact h
  rw [heq]
  obtain ⟨hcurrent, howned, hpending, hlimit, hcollector⟩ := beginLoad_calls hcalls
  rw [hcollector]
  -- Another active load of the thread would have an entry, or only its deferred function to run.
  have hfresh : ∀ load ∈ s.loads, s.Active load → load.threadId ≠ threadId := by
    intro load hmem hactive hsame
    have hclient : load.client = client := by
      have hboth := hcurrent.symm.trans hactive.1
      exact (Option.some.inj hboth).symm
    have hentry : Open load → False := by
      intro hopen
      have hlookup := h.pending.entry load hmem hopen hactive.1
      apply hpending
      rw [← AList.lookup_isSome, ← hsame, hlookup]
      rfl
    cases hphase : load.phase with
    | calling => exact hentry (.inl hphase)
    | resumed number => exact hentry (.inr ⟨number, hphase⟩)
    | ending error =>
      apply hoverlaps
      refine ⟨load, hmem, hsame, ?_, ?_⟩
      · rw [hcalls, hclient]
      · rw [hphase]
        rfl
    | returned error => exact hactive.2 error hphase
  have hlookup : ∀ other, other ≠ threadId →
      (s.collector.pendingLoads.insert threadId client).lookup other =
        s.collector.pendingLoads.lookup other := fun other hne => AList.lookup_insert_ne hne
  constructor
  · refine ⟨h.connected.client_of_serving, h.connected.runner_of_client, h.connected.client_lt,
      h.connected.connected_lt, fun load hmem => ?_, fun load hmem => ?_, fun hnone => ?_⟩
    · rcases List.mem_append.mp hmem with hmem | hmem
      · exact h.connected.load_lt load hmem
      · rw [List.mem_singleton.mp hmem]
        exact h.connected.client_lt client hcurrent
    · rcases List.mem_append.mp hmem with hmem | hmem
      · exact h.connected.load_ne load hmem
      · rw [List.mem_singleton.mp hmem]
        intro hconnected
        change s.runner = .connected client at hconnected
        rcases h.connected.runner_of_client client hcurrent with hrunner | hrunner <;>
          rw [hconnected] at hrunner <;> cases hrunner
    · change s.collector.client = none at hnone
      rw [hcurrent] at hnone
      cases hnone
  · constructor
    · intro other current hother
      change (s.collector.pendingLoads.insert threadId client).lookup other = some current at hother
      by_cases hsame : other = threadId
      · rw [hsame, AList.lookup_insert] at hother
        rw [← Option.some.inj hother]
        exact hcurrent
      · rw [hlookup other hsame] at hother
        exact h.pending.current other current hother
    · intro load hmem hopen hload
      change (s.collector.pendingLoads.insert threadId client).lookup load.threadId = _
      rcases List.mem_append.mp hmem with hmem | hmem
      · have hactive : s.Active load := by
          refine ⟨hload, fun error herror => ?_⟩
          rcases hopen with hphase | ⟨number, hphase⟩ <;> rw [hphase] at herror <;> cases herror
        rw [hlookup _ (hfresh load hmem hactive)]
        exact h.pending.entry load hmem hopen hload
      · rw [List.mem_singleton.mp hmem]
        exact AList.lookup_insert _
    · intro i j a b ha hb hactive hactive' hthread
      rcases getElem?_snoc ha with ha | ⟨rfl, rfl⟩
      · have hne := hfresh a (List.mem_of_getElem? ha) hactive
        rcases getElem?_snoc hb with hb | ⟨rfl, rfl⟩
        · exact h.pending.unique i j a b ha hb hactive hactive' hthread
        · exact absurd hthread hne
      · rcases getElem?_snoc hb with hb | ⟨rfl, rfl⟩
        · exact absurd hthread.symm (hfresh b (List.mem_of_getElem? hb) hactive')
        · rfl
    · change s.collector.ownedThreads.card +
        (s.collector.pendingLoads.insert threadId client).entries.length ≤ _
      rw [AList.entries_insert_of_notMem hpending, List.length_cons]
      omega
  · refine ⟨h.owned.verified, fun load hmem number hphase hload => ?_, h.owned.session,
      h.owned.notification_lt, h.owned.unload_lt⟩
    rcases List.mem_append.mp hmem with hmem | hmem
    · exact h.owned.resumed load hmem number hphase hload
    · rw [List.mem_singleton.mp hmem] at hphase
      cases hphase

/-! ### Notifications -/

/-- What `acceptThreadStatus` can do to the collector. -/
theorem acceptThreadStatus_cases (collector : Collector π) (now : ℕ)
    (document : Option RawThreadStatusNotification) :
    ((∀ update, (collector.acceptThreadStatus sha256 now document).1 ≠ .changed update) ∧
      (collector.acceptThreadStatus sha256 now document).2 = collector ∧
      ∀ threadId, unloaded document = some threadId → threadId ∉ collector.ownedThreads) ∨
    (∃ threadId, unloaded document = some threadId ∧
      collector.acceptThreadStatus sha256 now document =
        (if threadId ∈ collector.sessions then .changed (collector.unload threadId).updateLocked
          else .unchanged, collector.unload threadId)) ∨
    ∃ threadId ∈ collector.ownedThreads, ∃ session : Session,
      session.id = sessionIdentity sha256 threadId ∧ unloaded document = none ∧
        collector.acceptThreadStatus sha256 now document =
          (.changed { collector with
            sessions := collector.sessions.insert threadId session }.updateLocked,
          { collector with sessions := collector.sessions.insert threadId session }) := by
  cases document with
  | none => exact .inl ⟨by simp [Collector.acceptThreadStatus], rfl, by simp [unloaded]⟩
  | some event =>
    obtain ⟨threadId, type, activeFlags⟩ := event
    by_cases hempty : threadId = []
    · refine .inl ⟨?_, ?_, ?_⟩
      · simp [Collector.acceptThreadStatus, hempty]
      · simp [Collector.acceptThreadStatus, hempty]
      · simp [unloaded, hempty]
    by_cases howned : threadId ∈ collector.ownedThreads
    · by_cases htype : type = "notLoaded"
      · cases activeFlags with
        | some flags =>
          refine .inl ⟨?_, ?_, ?_⟩
          · simp [Collector.acceptThreadStatus, hempty, howned, htype]
          · simp [Collector.acceptThreadStatus, hempty, howned, htype]
          · simp [unloaded]
        | none =>
          refine .inr (.inl ⟨threadId, ?_, ?_⟩)
          · simp [unloaded, hempty, htype]
          · simp [Collector.acceptThreadStatus, hempty, howned, htype]
      · have hunloaded : unloaded (some ⟨threadId, type, activeFlags⟩) = none := by
          simp [unloaded, htype]
        cases hstate : normalizeThreadState ⟨type, activeFlags⟩ with
        | none =>
          refine .inl ⟨?_, ?_, ?_⟩
          · simp [Collector.acceptThreadStatus, hempty, howned, htype, hstate]
          · simp [Collector.acceptThreadStatus, hempty, howned, htype, hstate]
          · simp [hunloaded]
        | some state =>
          refine .inr (.inr ⟨threadId, howned,
            ⟨sessionIdentity sha256 threadId, state, now / 1000000000⟩, rfl, hunloaded, ?_⟩)
          simp [Collector.acceptThreadStatus, hempty, howned, htype, hstate]
    · refine .inl ⟨?_, ?_, ?_⟩
      · simp [Collector.acceptThreadStatus, hempty, howned]
      · simp [Collector.acceptThreadStatus, hempty, howned]
      · intro other hother
        simp only [unloaded] at hother
        split at hother
        · rwa [← Option.some.inj hother]
        · cases hother

theorem mem_unloads_report {report : Report}
    (h : report ∈ (s.report client number document).unloads) :
    report ∈ s.unloads ∨ (unloaded document = some report.threadId ∧ report.number = number) := by
  unfold System.report at h
  split at h
  · next threadId hunloaded =>
    rcases List.mem_cons.mp h with rfl | h
    · exact .inr ⟨hunloaded, rfl⟩
    · exact .inl h
  · exact .inl h

/-- A step that handles a notification. -/
structure Handles (s t : System π) (client number : ℕ)
    (document : Option RawThreadStatusNotification) (collector : Collector π)
    (notifications : List (ℕ × Option RawThreadStatusNotification)) : Prop where
  collector : t.collector = collector
  runner : t.runner = s.runner
  clients : t.clients = s.clients
  documents : t.documents = s.documents
  notifications : t.notifications = notifications
  loads : t.loads = s.loads
  resumes : t.resumes = s.resumes
  unloads : ∀ report ∈ t.unloads, report ∈ s.unloads ∨
    (unloaded document = some report.threadId ∧ report.number = number)

theorem handles_report (client number : ℕ) (document : Option RawThreadStatusNotification)
    (collector : Collector π) (notifications : List (ℕ × Option RawThreadStatusNotification)) :
    Handles s ({ s with collector, notifications }.report client number document) client number
      document collector notifications := by
  have hunloads : ∀ report ∈ ({ s with collector, notifications }.report client number
      document).unloads, report ∈ s.unloads ∨
        (unloaded document = some report.threadId ∧ report.number = number) :=
    fun _ hmem => mem_unloads_report (s := { s with collector, notifications }) hmem
  have hreport : ∀ document', document' = document →
      ({ s with collector, notifications }.report client number document').collector = collector ∧
      ({ s with collector, notifications }.report client number document').runner = s.runner ∧
      ({ s with collector, notifications }.report client number document').clients = s.clients ∧
      ({ s with collector, notifications }.report client number document').documents =
        s.documents ∧
      ({ s with collector, notifications }.report client number document').notifications =
        notifications ∧
      ({ s with collector, notifications }.report client number document').loads = s.loads ∧
      ({ s with collector, notifications }.report client number document').resumes =
        s.resumes := by
    intro document' _
    unfold System.report
    split <;> simp
  obtain ⟨h1, h2, h3, h4, h5, h6, h7⟩ := hreport document rfl
  exact ⟨h1, h2, h3, h4, h5, h6, h7, hunloads⟩

theorem Consistent.handled {collector : Collector π}
    {rest : List (ℕ × Option RawThreadStatusNotification)}
    (h : Consistent sha256 s) (hhandles : Handles s t client number document collector rest)
    (hcurrent : s.collector.client = some client)
    (hhead : s.notifications = (number, document) :: rest)
    (hmisses : ∀ now, ¬s.Misses (.handle now))
    (hclient : collector.client = s.collector.client)
    (hpending : collector.pendingLoads = s.collector.pendingLoads)
    (howned : ∀ threadId ∈ collector.ownedThreads,
      threadId ∈ s.collector.ownedThreads ∧ unloaded document ≠ some threadId)
    (hsession : ∀ threadId session, collector.sessions.lookup threadId = some session →
      threadId ∈ collector.ownedThreads ∧ session.id = sessionIdentity sha256 threadId) :
    Consistent sha256 t := by
  have hcollector := hhandles.collector
  have hsame : t.collector.client = s.collector.client := by rw [hcollector, hclient]
  constructor
  · constructor
    · intro other hserving
      rw [hsame]
      exact h.connected.client_of_serving other (by rwa [← hhandles.runner])
    · intro other hother
      rw [hhandles.runner]
      exact h.connected.runner_of_client other (by rwa [← hsame])
    · intro other hother
      rw [hhandles.clients]
      exact h.connected.client_lt other (by rwa [← hsame])
    · intro other hconnected
      rw [hhandles.clients]
      exact h.connected.connected_lt other (by rwa [← hhandles.runner])
    · rw [hhandles.loads, hhandles.clients]
      exact h.connected.load_lt
    · rw [hhandles.loads, hhandles.runner]
      exact h.connected.load_ne
    · intro hnone
      rw [hsame, hcurrent] at hnone
      cases hnone
  · constructor
    · intro threadId other hlookup
      rw [hcollector, hpending] at hlookup
      rw [hsame]
      exact h.pending.current threadId other hlookup
    · intro load hmem hopen hload
      rw [hcollector, hpending]
      refine h.pending.entry load ?_ hopen ?_
      · rwa [← hhandles.loads]
      · rwa [← hsame]
    · intro i j a b ha hb hactive hactive' hthread
      rw [hhandles.loads] at ha hb
      refine h.pending.unique i j a b ha hb ⟨?_, hactive.2⟩ ⟨?_, hactive'.2⟩ hthread
      · rw [← hsame]
        exact hactive.1
      · rw [← hsame]
        exact hactive'.1
    · have hle : collector.ownedThreads.card ≤ s.collector.ownedThreads.card :=
        Finset.card_le_card fun threadId hmem => (howned threadId hmem).1
      have hbounded := h.pending.bounded
      rw [hcollector, hpending]
      omega
  · constructor
    · intro threadId hmem
      rw [hcollector] at hmem
      obtain ⟨hold, hother⟩ := howned threadId hmem
      obtain ⟨current, accepted, hcl, hresumed, hreports⟩ := h.owned.verified threadId hold
      refine ⟨current, accepted, by rwa [hsame], by rwa [hhandles.resumes], ?_⟩
      intro report hreport hthread hreportclient
      rcases hhandles.unloads report hreport with hreport | ⟨hunloaded, -⟩
      · exact hreports report hreport hthread hreportclient
      · rw [hthread] at hunloaded
        exact absurd hunloaded hother
    · intro load hmem accepted hphase hload
      rw [hhandles.loads] at hmem
      rw [hsame] at hload
      obtain ⟨hresumed, hreports⟩ := h.owned.resumed load hmem accepted hphase hload
      refine ⟨by rwa [hhandles.resumes], fun report hreport hthread hreportclient => ?_⟩
      rcases hhandles.unloads report hreport with hreport | ⟨hunloaded, hnumber⟩
      · exact hreports report hreport hthread hreportclient
      · rw [hnumber]
        refine Nat.le_of_not_lt fun hlt => hmisses 0 ?_
        refine ⟨(number, document), ?_, load, hmem, ?_, hload, ?_⟩
        · rw [hhead]
          rfl
        · rw [hunloaded, hthread]
        · rw [hphase]
          exact decide_eq_true hlt
    · rw [hcollector]
      exact hsession
    · intro notification hmem
      rw [hhandles.notifications] at hmem
      rw [hhandles.documents]
      refine h.owned.notification_lt notification ?_
      rw [hhead]
      exact List.mem_cons_of_mem _ hmem
    · intro report hreport
      rw [hhandles.documents]
      rcases hhandles.unloads report hreport with hreport | ⟨-, hnumber⟩
      · exact h.owned.unload_lt report hreport
      · rw [hnumber]
        refine h.owned.notification_lt (number, document) ?_
        rw [hhead]
        exact List.mem_cons_self

/-- The system after a notification was handled, and before `runConnection` goes on. -/
def handled (sha256 : List UInt8 → List UInt8) (s : System π) (now client number : ℕ)
    (document : Option RawThreadStatusNotification)
    (rest : List (ℕ × Option RawThreadStatusNotification)) : System π :=
  { s with
    collector := (s.collector.acceptThreadStatus sha256 now document).2
    notifications := rest }.report client number document

variable {now : ℕ}

theorem handle_eq (h : s.handle sha256 now = some t) :
    ∃ client number document rest, s.runner = .serving client ∧
      s.notifications = (number, document) :: rest ∧
        (t = { handled sha256 s now client number document rest with runner := .leaving client } ∨
          t = handled sha256 s now client number document rest ∨
          ∃ update, (s.collector.acceptThreadStatus sha256 now document).1 = .changed update ∧
            t = (handled sha256 s now client number document rest).publish update) := by
  unfold System.handle at h
  split at h
  · next client number document rest hrunner hnotifications =>
    refine ⟨client, number, document, rest, hrunner, hnotifications, ?_⟩
    dsimp only at h
    cases haccepted : (s.collector.acceptThreadStatus sha256 now document).1 with
    | schemaChanged =>
      rw [haccepted] at h
      exact .inl (Option.some.inj h).symm
    | unchanged =>
      rw [haccepted] at h
      exact .inr (.inl (Option.some.inj h).symm)
    | changed update =>
      rw [haccepted] at h
      exact .inr (.inr ⟨update, rfl, (Option.some.inj h).symm⟩)
  · cases h

theorem handled_collector (now client number : ℕ) (document : Option RawThreadStatusNotification)
    (rest : List (ℕ × Option RawThreadStatusNotification)) :
    (handled sha256 s now client number document rest).collector =
      (s.collector.acceptThreadStatus sha256 now document).2 :=
  (handles_report client number document _ rest).collector

theorem Consistent.handled_document {rest : List (ℕ × Option RawThreadStatusNotification)}
    (h : Consistent sha256 s)
    (hrunner : s.runner = .serving client) (hhead : s.notifications = (number, document) :: rest)
    (hmisses : ∀ now, ¬s.Misses (.handle now)) :
    Consistent sha256 (System.handled sha256 s now client number document rest) := by
  have hcurrent := h.connected.client_of_serving client hrunner
  refine h.handled (handles_report client number document _ rest) hcurrent hhead hmisses ?_ ?_ ?_ ?_
  all_goals
    rcases @acceptThreadStatus_cases π sha256 s.collector now document with
      ⟨-, heq, hnot⟩ | ⟨threadId, hunloaded, heq⟩ | ⟨threadId, howned, session, hid, hunloaded, heq⟩
    all_goals rw [heq]
  · rfl
  · rfl
  · exact fun other hmem => ⟨hmem, fun hother => hnot other hother hmem⟩
  · intro other hmem
    obtain ⟨hne, hold⟩ := Finset.mem_erase.mp hmem
    refine ⟨hold, fun hother => hne ?_⟩
    rw [hunloaded] at hother
    exact (Option.some.inj hother).symm
  · intro other hmem
    refine ⟨hmem, ?_⟩
    rw [hunloaded]
    simp
  · exact h.owned.session
  · intro other session hlookup
    change (s.collector.sessions.erase threadId).lookup other = some session at hlookup
    by_cases hsame : other = threadId
    · rw [hsame, AList.lookup_erase] at hlookup
      cases hlookup
    · rw [AList.lookup_erase_ne hsame] at hlookup
      obtain ⟨hmem, hid⟩ := h.owned.session other session hlookup
      exact ⟨Finset.mem_erase.mpr ⟨hsame, hmem⟩, hid⟩
  · intro other value hlookup
    change (s.collector.sessions.insert threadId session).lookup other = some value at hlookup
    by_cases hsame : other = threadId
    · rw [hsame, AList.lookup_insert] at hlookup
      rw [hsame, ← Option.some.inj hlookup]
      exact ⟨howned, hid⟩
    · rw [AList.lookup_insert_ne hsame] at hlookup
      exact h.owned.session other value hlookup

theorem Consistent.published (h : Consistent sha256 s) (update : Update π) :
    Consistent sha256 (s.publish update) := by
  constructor
  · exact ⟨h.connected.client_of_serving, h.connected.runner_of_client, h.connected.client_lt,
      h.connected.connected_lt, h.connected.load_lt, h.connected.load_ne, h.connected.clear⟩
  · exact ⟨h.pending.current, h.pending.entry, h.pending.unique, h.pending.bounded⟩
  · exact ⟨h.owned.verified, h.owned.resumed, h.owned.session, h.owned.notification_lt,
      h.owned.unload_lt⟩

theorem Consistent.handle (h : Consistent sha256 s)
    (hmisses : ¬s.Misses (.handle now)) (hstep : s.handle sha256 now = some t) :
    Consistent sha256 t := by
  obtain ⟨client, number, document, rest, hrunner, hhead, hcases⟩ := handle_eq hstep
  have hhandled : Consistent sha256 (System.handled sha256 s now client number document rest) :=
    h.handled_document hrunner hhead fun _ => hmisses
  rcases hcases with rfl | rfl | ⟨update, -, rfl⟩
  · refine hhandled.leaving (.inr ?_)
    exact (handles_report client number document _ rest).runner.trans hrunner
  · exact hhandled
  · exact hhandled.published update

theorem Consistent.step {event : Event π} (h : Consistent sha256 s) (hmisses : ¬s.Misses event)
    (hoverlaps : ¬s.Overlaps event) (hstep : s.step sha256 event = some t) : Consistent sha256 t := by
  cases event with
  | run => exact h.run hstep
  | connect => exact h.connect hstep
  | initialized => exact h.initialized hstep
  | collected provider => exact h.collected hstep
  | handle now => exact h.handle hmisses hstep
  | leave => exact h.leave hstep
  | disconnect => exact h.disconnect hstep
  | exit => exact h.exit hstep
  | notify document => exact h.notify hstep
  | respond key response => exact h.respond hstep
  | load threadId =>
    obtain rfl := Option.some.inj hstep
    exact h.load hoverlaps
  | fail key => exact h.fail hstep
  | commit key => exact h.commit hstep
  | finish key => exact h.finish hstep

theorem consistent_new (provider : π) : Consistent sha256 (System.new provider) :=
  consistent_of_none rfl ⟨rfl, rfl, rfl⟩ (by simp [System.new]) (by simp [System.new])
    (by simp [System.new]) (by simp [System.new]) (by simp [System.new]) (by simp [System.new])

/-! ### What a step publishes and enters -/

/-- A step that publishes nothing and enters no thread. -/
structure Quiet (s t : System π) : Prop where
  published : t.published = s.published
  owned : t.collector.ownedThreads ⊆ s.collector.ownedThreads

/-- The steps of `Run` that neither collect a provider nor handle a notification. -/
theorem runner_quiet
    (hstep : s.run = some t ∨ s.connect = some t ∨ s.initialized = some t ∨ s.leave = some t ∨
      s.disconnect = some t ∨ s.exit = some t) : Quiet s t := by
  rcases hstep with h | h | h | h | h | h
  · unfold System.run at h
    split at h
    · obtain rfl := Option.some.inj h
      exact ⟨rfl, Finset.Subset.refl _⟩
    · cases h
  · unfold System.connect at h
    split at h
    · obtain rfl := Option.some.inj h
      exact ⟨rfl, Finset.Subset.refl _⟩
    · cases h
  · unfold System.initialized at h
    split at h
    · obtain rfl := Option.some.inj h
      exact ⟨rfl, Finset.Subset.refl _⟩
    · cases h
  · unfold System.leave at h
    split at h
    · obtain rfl := Option.some.inj h
      exact ⟨rfl, Finset.Subset.refl _⟩
    · obtain rfl := Option.some.inj h
      exact ⟨rfl, Finset.Subset.refl _⟩
    · cases h
  · unfold System.disconnect at h
    split at h
    · obtain rfl := Option.some.inj h
      exact ⟨rfl, Finset.empty_subset _⟩
    · cases h
  · unfold System.exit at h
    split at h
    · obtain rfl := Option.some.inj h
      exact ⟨rfl, Finset.empty_subset _⟩
    · cases h

theorem notify_quiet (h : s.notify document = some t) : Quiet s t := by
  unfold System.notify at h
  split at h
  · split at h
    · obtain rfl := Option.some.inj h
      exact ⟨rfl, Finset.Subset.refl _⟩
    · cases h
  · split at h
    · obtain rfl := Option.some.inj h
      exact ⟨rfl, Finset.Subset.refl _⟩
    · cases h
  · cases h

theorem load_quiet (s : System π) (threadId : Text) : Quiet s (s.load threadId) := by
  rcases s.load_eq threadId with heq | ⟨client, hcalls, heq⟩
  · rw [heq]
    exact ⟨rfl, Finset.Subset.refl _⟩
  · obtain ⟨-, -, -, -, hcollector⟩ := beginLoad_calls hcalls
    rw [heq, hcollector]
    exact ⟨rfl, Finset.Subset.refl _⟩

theorem goes_on_quiet {key : ℕ} {response : Option ResumedThread}
    (hstep : s.respond key response = some t ∨ s.fail key = some t ∨ s.finish key = some t) :
    Quiet s t := by
  rcases hstep with h | h | h
  · unfold System.respond at h
    split at h
    · split at h
      · obtain rfl := Option.some.inj h
        exact ⟨rfl, Finset.Subset.refl _⟩
      · obtain rfl := Option.some.inj h
        exact ⟨rfl, Finset.Subset.refl _⟩
    · cases h
  · unfold System.fail at h
    split at h
    · obtain rfl := Option.some.inj h
      exact ⟨rfl, Finset.Subset.refl _⟩
    · obtain rfl := Option.some.inj h
      exact ⟨rfl, Finset.Subset.refl _⟩
    · cases h
  · unfold System.finish at h
    split at h
    · obtain rfl := Option.some.inj h
      refine ⟨rfl, ?_⟩
      rw [ownedThreads_forgetLoad]
    · cases h

/-- What is published after a notification are the sessions of the collector. -/
theorem handle_published (h : s.handle sha256 now = some t) :
    (t.published = s.published ∨ t.published = s.published ++ [t.collector.updateLocked]) ∧
      t.collector.ownedThreads ⊆ s.collector.ownedThreads := by
  obtain ⟨client, number, document, rest, -, -, hcases⟩ := handle_eq h
  have hpublished : (handled sha256 s now client number document rest).published = s.published := by
    unfold handled System.report
    split <;> rfl
  have hcollector : t.collector = (s.collector.acceptThreadStatus sha256 now document).2 := by
    rw [← handled_collector now client number document rest]
    rcases hcases with rfl | rfl | ⟨update, -, rfl⟩ <;> rfl
  rw [hcollector]
  rcases @acceptThreadStatus_cases π sha256 s.collector now document with
    ⟨hnot, heq, -⟩ | ⟨threadId, -, heq⟩ | ⟨threadId, -, session, -, -, heq⟩
  · rw [heq]
    refine ⟨.inl ?_, Finset.Subset.refl _⟩
    rcases hcases with rfl | rfl | ⟨update, hchanged, -⟩
    · exact hpublished
    · exact hpublished
    · exact absurd hchanged (hnot update)
  · rw [heq]
    refine ⟨?_, Finset.erase_subset _ _⟩
    rcases hcases with rfl | rfl | ⟨update, hchanged, rfl⟩
    · exact .inl hpublished
    · exact .inl hpublished
    · rw [heq] at hchanged
      dsimp only at hchanged ⊢
      right
      split at hchanged
      · obtain rfl := Accepted.changed.inj hchanged
        change _ ++ _ = _
        rw [hpublished]
      · cases hchanged
  · rw [heq]
    refine ⟨?_, Finset.Subset.refl _⟩
    rcases hcases with rfl | rfl | ⟨update, hchanged, rfl⟩
    · exact .inl hpublished
    · exact .inl hpublished
    · rw [heq] at hchanged
      obtain rfl := Accepted.changed.inj hchanged
      right
      change _ ++ _ = _
      rw [hpublished]

theorem commit_enters (h : s.commit key = some t) :
    t.published = s.published ∧ ∀ threadId ∈ t.collector.ownedThreads,
      threadId ∉ s.collector.ownedThreads →
        ∃ load ∈ s.loads, load.threadId = threadId ∧ s.collector.client = some load.client ∧
          ∃ number, load.phase = .resumed number := by
  unfold System.commit at h
  split at h
  · next threadId client number hfound =>
    unfold Collector.commitLoad at h
    by_cases hcurrent : s.collector.client = some client
    · rw [if_neg (not_not.mpr hcurrent)] at h
      obtain rfl := Option.some.inj h
      refine ⟨rfl, fun other hmem hnot => ?_⟩
      simp only [ownedThreads_forgetLoad, Finset.mem_insert] at hmem
      rcases hmem with rfl | hmem
      · exact ⟨_, List.mem_of_getElem? hfound, rfl, hcurrent, number, rfl⟩
      · exact absurd hmem hnot
    · rw [if_pos hcurrent] at h
      obtain rfl := Option.some.inj h
      exact ⟨rfl, fun _ hmem hnot => absurd hmem hnot⟩
  · cases h

theorem step_published_entered {event : Event π} (hstep : s.step sha256 event = some t) :
    (t.published = s.published ∨ t.published = s.published ++ [t.collector.updateLocked]) ∧
      ∀ threadId ∈ t.collector.ownedThreads, threadId ∉ s.collector.ownedThreads →
        ∃ load ∈ s.loads, load.threadId = threadId ∧ s.collector.client = some load.client ∧
          ∃ number, load.phase = .resumed number := by
  have hquiet : Quiet s t → (t.published = s.published ∨
      t.published = s.published ++ [t.collector.updateLocked]) ∧
      ∀ threadId ∈ t.collector.ownedThreads, threadId ∉ s.collector.ownedThreads →
        ∃ load ∈ s.loads, load.threadId = threadId ∧ s.collector.client = some load.client ∧
          ∃ number, load.phase = .resumed number :=
    fun h => ⟨.inl h.published, fun _ hmem hnot => absurd (h.owned hmem) hnot⟩
  cases event with
  | run => exact hquiet (runner_quiet (.inl hstep))
  | connect => exact hquiet (runner_quiet (.inr (.inl hstep)))
  | initialized => exact hquiet (runner_quiet (.inr (.inr (.inl hstep))))
  | collected provider =>
    simp only [System.step, System.collected] at hstep
    split at hstep
    · obtain rfl := Option.some.inj hstep
      exact ⟨.inr rfl, fun _ hmem hnot => absurd hmem hnot⟩
    · cases hstep
  | handle now =>
    obtain ⟨hpublished, howned⟩ := handle_published hstep
    exact ⟨hpublished, fun _ hmem hnot => absurd (howned hmem) hnot⟩
  | leave => exact hquiet (runner_quiet (.inr (.inr (.inr (.inl hstep)))))
  | disconnect => exact hquiet (runner_quiet (.inr (.inr (.inr (.inr (.inl hstep))))))
  | exit => exact hquiet (runner_quiet (.inr (.inr (.inr (.inr (.inr hstep))))))
  | notify document => exact hquiet (notify_quiet hstep)
  | respond key response => exact hquiet (goes_on_quiet (.inl hstep))
  | load threadId =>
    obtain rfl := Option.some.inj hstep
    exact hquiet (load_quiet s threadId)
  | fail key => exact hquiet (@goes_on_quiet _ _ _ key none (.inr (.inl hstep)))
  | commit key =>
    obtain ⟨hpublished, hentered⟩ := commit_enters hstep
    exact ⟨.inl hpublished, hentered⟩
  | finish key => exact hquiet (@goes_on_quiet _ _ _ key none (.inr (.inr hstep)))

/-! ### Every run -/

theorem mem_updateLocked {collector : Collector π} {session : Session}
    (h : session ∈ collector.updateLocked.sessions) :
    ∃ threadId, collector.sessions.lookup threadId = some session := by
  have hmem := (List.perm_insertionSort _ _).mem_iff.mp h
  obtain ⟨⟨threadId, value⟩, hentry, rfl⟩ := List.mem_map.mp hmem
  exact ⟨threadId, (AList.mem_lookup_iff).mpr hentry⟩

theorem Consistent.sessions_verified (h : Consistent sha256 s) {session : Session}
    (hmem : session ∈ s.collector.updateLocked.sessions) :
    ∃ threadId, session.id = sessionIdentity sha256 threadId ∧ s.Verified threadId := by
  obtain ⟨threadId, hlookup⟩ := mem_updateLocked hmem
  obtain ⟨howned, hid⟩ := h.owned.session threadId session hlookup
  exact ⟨threadId, hid, h.owned.verified threadId howned⟩

/-- In a run that neither misses a notification nor lets two loads of a thread overlap, every session
that is published is of a verified thread, a thread enters by a load of the current connection, and
at most sixteen threads are owned or pending. -/
theorem ownership_verified (sha256 : List UInt8 → List UInt8) (provider : π)
    (events : List (Event π)) (t : System π)
    (hrun : Trace.run (System.step sha256) (System.new provider) events = some t)
    (halong : Trace.Along (System.step sha256) (fun s event => ¬s.Misses event ∧ ¬s.Overlaps event)
      (System.new provider) events) :
    (∀ u v, Trace.Passes (System.step sha256) (System.new provider) events t u v →
      (∀ update, v.published = u.published ++ [update] → ∀ session ∈ update.sessions,
        ∃ threadId, session.id = sessionIdentity sha256 threadId ∧ v.Verified threadId) ∧
      ∀ threadId ∈ v.collector.ownedThreads, threadId ∉ u.collector.ownedThreads →
        ∃ load ∈ u.loads, load.threadId = threadId ∧ u.collector.client = some load.client ∧
          ∃ number, load.phase = .resumed number) ∧
    t.collector.ownedThreads.card + t.collector.pendingLoads.entries.length ≤
      maximumOwnedThreads := by
  have hstep : ∀ (s : System π) (event : Event π) (t : System π),
      (¬s.Misses event ∧ ¬s.Overlaps event) → Consistent sha256 s →
        s.step sha256 event = some t → Consistent sha256 t :=
    fun _ _ _ hcond h hstep => h.step hcond.1 hcond.2 hstep
  refine ⟨fun u v hpasses => ?_, ?_⟩
  · obtain ⟨-, hv⟩ := hpasses.along hstep (consistent_new provider) halong
    obtain ⟨-, event, -, -, -, hevent, -⟩ := hpasses
    obtain ⟨hpublished, hentered⟩ := step_published_entered hevent
    refine ⟨fun update hupdate session hmem => ?_, hentered⟩
    rcases hpublished with hsame | happend
    · rw [hsame, List.self_eq_append_right] at hupdate
      cases hupdate
    · rw [happend, List.append_cancel_left_eq, List.cons.injEq] at hupdate
      rw [← hupdate.1] at hmem
      exact hv.sessions_verified hmem
  · exact (Trace.run_invariant_along hstep (consistent_new provider) hrun halong).pending.bounded

/-- A digest that is right for the thread `ab`. -/
def sampleDigest (_ : List UInt8) : List UInt8 :=
  [251, 142, 32, 252, 46, 76, 63, 36, 140, 96, 195, 155, 214, 82, 243, 193, 52, 114, 152, 187, 151,
    123, 139, 77, 89, 3, 184, 80, 85, 98, 6, 3]

/-- The thread `ab`. -/
def sampleThread : Text := [97, 98]

/-- A session of the thread `ab`. -/
def sampleSession : Session := ⟨sessionIdentity sampleDigest sampleThread, .running, 0⟩

/-- The thread is loaded before a notification of its status comes. -/
def loadedRun : List (Event Unit) :=
  [.run, .connect, .initialized, .collected (), .load sampleThread,
    .respond 0 (some ⟨some sampleThread, some ⟨"idle", none⟩⟩), .commit 0, .finish 0,
    .notify (some ⟨sampleThread, ⟨"active", some []⟩⟩)]

theorem ownership_verified_loaded :
    ∃ u v t, Trace.Passes (System.step sampleDigest) (System.new ()) (loadedRun ++ [.handle 5]) t u v ∧
      v.published = u.published ++ [⟨(), [sampleSession]⟩] ∧
        ∃ threadId, sampleSession.id = sessionIdentity sampleDigest threadId ∧
          v.Verified threadId := by
  obtain ⟨u, v, t, hrun, hpasses, hv⟩ := @Trace.exists_passes_of_any _ _
    (System.step sampleDigest) (System.new ()) loadedRun (.handle 5) []
    (fun u v _ => decide (v.published = u.published ++ [⟨(), [sampleSession]⟩]))
    (by decide +kernel)
  have hpublished := of_decide_eq_true hv
  have halong : Trace.Along (System.step sampleDigest)
      (fun s event => ¬s.Misses event ∧ ¬s.Overlaps event) (System.new ())
      (loadedRun ++ [.handle 5]) := Trace.along_of_check (by decide +kernel)
  refine ⟨u, v, t, hpasses, hpublished, ?_⟩
  exact (((ownership_verified sampleDigest () _ t hrun halong).1 u v hpasses).1 _ hpublished)
    sampleSession (by simp)

/-- The notification that the thread is not loaded is handled before the load enters the thread. -/
def missedRun : List (Event Unit) :=
  [.run, .connect, .initialized, .collected (), .load sampleThread,
    .respond 0 (some ⟨some sampleThread, some ⟨"idle", none⟩⟩),
    .notify (some ⟨sampleThread, ⟨"notLoaded", none⟩⟩), .handle 5, .commit 0, .finish 0,
    .notify (some ⟨sampleThread, ⟨"active", some []⟩⟩)]

/-- A session is published of a thread that the App Server had unloaded. -/
theorem missed_unload_published :
    ∃ u v t, Trace.Passes (System.step sampleDigest) (System.new ()) (missedRun ++ [.handle 5]) t u v ∧
      v.published = u.published ++ [⟨(), [sampleSession]⟩] ∧ ∀ threadId, ¬v.Verified threadId := by
  obtain ⟨u, v, t, -, hpasses, hv⟩ := @Trace.exists_passes_of_any _ _
    (System.step sampleDigest) (System.new ()) missedRun (.handle 5) []
    (fun u v _ => decide (v.published = u.published ++ [⟨(), [sampleSession]⟩] ∧
      v.resumes = [⟨sampleThread, 0, 0⟩] ∧ v.unloads = [⟨sampleThread, 0, 1⟩]))
    (by decide +kernel)
  obtain ⟨hpublished, hresumes, hunloads⟩ := of_decide_eq_true hv
  refine ⟨u, v, t, hpasses, hpublished, ?_⟩
  rintro threadId ⟨client, number, -, hresumed, hreports⟩
  rw [hresumes, List.mem_singleton, Report.mk.injEq] at hresumed
  obtain ⟨rfl, rfl, rfl⟩ := hresumed
  rw [hunloads] at hreports
  have hle := hreports _ (List.mem_singleton.mpr rfl) rfl rfl
  change 1 ≤ 0 at hle
  omega

end RlcdDeck.CodexAppServer.System
