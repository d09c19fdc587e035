import RlcdDeck.Effects.Trace
import RlcdDeck.WifiSetup.Equiv.Config

/-!
# What a validated Wi-Fi configuration was validated with

While a candidate is validated, the driver tries the candidate's credentials, and every address that
waits to be reported was raised for them (`Tied`).  Two steps break this.  A submission may begin while
an address of an earlier attempt still waits, in the event loop or in the queue of commands (`Stale`).
And the station of the active credentials may be restored while another candidate is validated
(`Restores`), as it is when a Companion is paired.  In every other run a candidate becomes active only
by an address of its own (`activation_tied`).
-/

namespace RlcdDeck.WifiSetup.Service

open Effects TransactionStore

variable {s t : Service}

/-- The driver and what waits to be reported know no credentials but these. -/
structure Only (s : Service) (credentials : Credentials) : Prop where
  station : ∀ attempt, s.station = some attempt → attempt = credentials
  raised : ∀ attempt, .gotIp attempt ∈ s.raised → attempt = credentials
  commands : ∀ attempt, .connected attempt ∈ s.commands → attempt = credentials

/-- While a candidate is validated, nothing else is known to the driver or waits. -/
def Owned (s : Service) : Prop :=
  s.config.state = .validating →
    ∃ credentials, s.config.candidate = some credentials ∧ Only s credentials

/-- An address waits that was raised for other credentials. -/
def waitsFor (s : Service) (credentials : Credentials) : Bool :=
  s.raised.any (fun raised =>
    match raised with
    | .gotIp attempt => attempt ≠ credentials
    | .disconnected _ => false) ||
  s.commands.any fun command =>
    match command with
    | .connected attempt => attempt ≠ credentials
    | _ => false

/-- The command is a submission that is taken while an address of other credentials waits. -/
def staleCommand (s : Service) : Option Command → Bool
  | some (.submitWifi credentials) =>
    s.setupActive && (s.config.check credentials).isOk && s.waitsFor credentials
  | _ => false

/-- A submission is taken while an address of other credentials waits. -/
def Stale (s : Service) : Event → Prop
  | .dispatch _ => s.staleCommand s.commands.head? = true
  | _ => False

/-- Another candidate is validated than the active credentials. -/
def foreign (s : Service) : Bool :=
  s.config.state = .validating && s.config.active.any fun active => s.config.candidate ≠ some active

/-- The station of the active credentials is restored while another candidate is validated: a Companion
was paired, the network that could not be stopped is stopped again, or the session is entered again. -/
def Restores (s : Service) : Event → Prop
  | .dispatch answers => s.commands.head? = some .pairCompanion ∧ s.setupActive = true ∧
      answers.paired = true ∧ answers.responseComplete = true ∧
        s.activeStationRestorePending = true ∧ s.foreign = true
  | .tick answers => s.shutdownPending = true ∧ (s.config.tick answers.nowMs).1 = false ∧
      s.activeStationRestorePending = true ∧ s.foreign = true
  | .settle _ => s.bootEnterPending = true ∧ s.shutdownPending = false ∧ s.foreign = true
  | _ => False

instance (s : Service) (event : Event) : Decidable (s.Stale event) := by
  cases event <;> unfold Stale <;> infer_instance

instance (s : Service) (event : Event) : Decidable (s.Restores event) := by
  cases event <;> unfold Restores <;> infer_instance

/-! ### The network -/

/-- What the start and the stop of the network do: the station is gone, is as it was, or is that of the
active credentials, which only a `restore` does. -/
structure Follows (s t : Service) (restore : Prop) : Prop where
  store : t.config.store = s.config.store
  active : t.config.active = s.config.active
  candidate : t.config.candidate = s.config.candidate
  state : t.config.state = .validating ↔ s.config.state = .validating
  commands : t.commands = s.commands
  raised : t.raised = s.raised
  station : t.station = none ∨ t.station = s.station ∨
    (restore ∧ t.station = s.config.active)

theorem Follows.refl (s : Service) (restore : Prop) : Follows s s restore :=
  ⟨rfl, rfl, rfl, Iff.rfl, rfl, rfl, .inr (.inl rfl)⟩

variable {restore : Prop}

theorem Follows.trans {u : Service} {restore' : Prop} (h : Follows s t restore)
    (h' : Follows t u restore') : Follows s u (restore ∨ restore') := by
  refine ⟨h'.store.trans h.store, h'.active.trans h.active, h'.candidate.trans h.candidate,
    h'.state.trans h.state, h'.commands.trans h.commands, h'.raised.trans h.raised, ?_⟩
  rcases h'.station with hnone | hsame | ⟨hrestore, hactive⟩
  · exact .inl hnone
  · rw [hsame]
    rcases h.station with hnone | hsame | ⟨hrestore, hactive⟩
    · exact .inl hnone
    · exact .inr (.inl hsame)
    · exact .inr (.inr ⟨.inl hrestore, hactive⟩)
  · exact .inr (.inr ⟨.inr hrestore, hactive.trans h.active⟩)

theorem Follows.mono {restore' : Prop} (h : Follows s t restore) (himp : restore → restore') :
    Follows s t restore' :=
  ⟨h.store, h.active, h.candidate, h.state, h.commands, h.raised,
    h.station.imp_right fun hs => hs.imp_right fun hr => ⟨himp hr.1, hr.2⟩⟩

theorem Follows.loaded (h : Follows s t restore) (hs : s.config.Loaded) :
    t.config.Loaded := hs.of_eq h.store h.active h.candidate

theorem Follows.restored (h : Follows s t restore) (pending : Bool) :
    Follows s { t with activeStationRestorePending := pending } restore :=
  ⟨h.store, h.active, h.candidate, h.state, h.commands, h.raised, h.station⟩

theorem Follows.session (h : Follows s t restore) (setupActive : Bool) :
    Follows s { t with setupActive } restore :=
  ⟨h.store, h.active, h.candidate, h.state, h.commands, h.raised, h.station⟩

theorem Owned.of_sublist (hs : s.Owned) (hstate : t.config.state = s.config.state)
    (hcandidate : t.config.candidate = s.config.candidate)
    (hstation : t.station = none ∨ t.station = s.station)
    (hraised : ∀ attempt, .gotIp attempt ∈ t.raised → Raised.gotIp attempt ∈ s.raised)
    (hcommands : ∀ attempt, .connected attempt ∈ t.commands →
      Command.connected attempt ∈ s.commands ∨ Raised.gotIp attempt ∈ s.raised) : t.Owned := by
  intro hvalidating
  obtain ⟨credentials, hsome, honly⟩ := hs (hstate.symm.trans hvalidating)
  refine ⟨credentials, hcandidate.trans hsome, ?_, fun attempt h => honly.raised attempt
    (hraised attempt h), ?_⟩
  · intro attempt hattempt
    rcases hstation with hnone | hsame
    · rw [hnone] at hattempt
      cases hattempt
    · exact honly.station attempt (hsame.symm.trans hattempt)
  · intro attempt hattempt
    rcases hcommands attempt hattempt with h | h
    · exact honly.commands attempt h
    · exact honly.raised attempt h

theorem Owned.of_eq (hs : s.Owned) (hconfig : t.config = s.config) (hstation : t.station = s.station)
    (hraised : t.raised = s.raised) (hcommands : t.commands = s.commands) : t.Owned := by
  refine hs.of_sublist (by rw [hconfig]) (by rw [hconfig]) (.inr hstation) ?_ ?_
  · rw [hraised]
    exact fun _ hmem => hmem
  · rw [hcommands]
    exact fun _ hmem => .inl hmem

/-! ### Commands -/

variable {credentials : Credentials}

/-- What a command does: the active record is as it was, is gone, or is `active`. -/
structure Kept (s : Service) (active : Option TransactionRecord) (t : Service) : Prop where
  loaded : t.config.Loaded
  own : t.Owned
  active : t.config.store.active = s.config.store.active ∨ t.config.store.active = active

theorem Kept.refl (hloaded : s.config.Loaded) (hown : s.Owned)
    (active : Option TransactionRecord) : Kept s active s :=
  ⟨hloaded, hown, .inl rfl⟩

def homeCredentials : Credentials := ⟨[72], []⟩

def guestCredentials : Credentials := ⟨[71], []⟩

/-- The storage writes these credentials and reads them back. -/
def storageOf (credentials : Credentials) (marker : Marker) (_ : ℕ) :
    (op : TransactionStore.Call) → op.Answer
  | .allocate => true
  | .write _ _ => true
  | .erase _ => true
  | .read key _ =>
    if key = .activeMarker then .ok (encodeMarker storeOptions marker)
    else
      .ok (((encodeCredentials credentials).bind fun payload =>
        encodeRecord storeOptions ⟨payload, marker.activeGeneration⟩).getD [])

/-- The first commit of these credentials. -/
def firstAnswers (credentials : Credentials) : Answers where
  storage := storageOf credentials ⟨0, 1, none⟩

/-- Other credentials are submitted before the address of the first ones is reported, and the first
attempt ends before they are taken. -/
def lateRun : List Event :=
  [.startUp (firstAnswers guestCredentials), .request (.submitWifi homeCredentials),
    .dispatch (firstAnswers homeCredentials), .tick (firstAnswers homeCredentials),
    .settle (firstAnswers homeCredentials), .gotIp, .request .other,
    .request (.submitWifi guestCredentials), .handler, .dispatch (firstAnswers homeCredentials),
    .tick { firstAnswers homeCredentials with nowMs := 1000 },
    .settle (firstAnswers homeCredentials),
    .dispatch { firstAnswers guestCredentials with nowMs := 1000 },
    .tick { firstAnswers guestCredentials with nowMs := 1000 },
    .settle (firstAnswers guestCredentials)]

end RlcdDeck.WifiSetup.Service
