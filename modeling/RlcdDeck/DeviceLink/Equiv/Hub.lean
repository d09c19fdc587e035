import RlcdDeck.AiSnapshot.Equiv.Featured
import RlcdDeck.DeviceLink.Hub

/-!
# The safety of the device hub

A device has one connection that is served.  The next one is registered after the callback of the one
before has returned (`held_run`).  A connection that has written an older generation than the hub's
has a value in its signal, or a call of `PublishSnapshot` is about to send one (`Sound.woken`).
-/

namespace RlcdDeck.DeviceLink

open AiSnapshot (sampleRoot)
open Effects.Trace (run run_cons run_append run_invariant)
open Json (Bytes bytes)

variable {Device Conn : Type} {deviceId : Conn → Device} {s s' : System Device Conn}

/-! ### Phases -/

/-- The session may be the connection's. -/
def Phase.stored : Phase → Bool
  | .leaving => true
  | phase => phase.served

/-- `removeConnection` is at the callback or after it. -/
def Phase.removing : Phase → Bool
  | .disconnecting | .disconnected => true
  | _ => false

/-- The generation that `serveConnection` has. -/
def Phase.generation : Phase → Option UInt64
  | .checking generation | .writing _ generation _ | .idle generation => some generation
  | _ => none

/-- The generation that is written, or is about to be. -/
def Phase.written : Phase → Option UInt64
  | .writing _ generation _ | .idle generation => some generation
  | _ => none

@[simp] theorem phase_enter [DecidableEq Conn] (s : System Device Conn) (c d : Conn) (phase : Phase) :
    (s.enter c phase).phase d = if d = c then phase else s.phase d := rfl

theorem eq_of_enter [DecidableEq Conn] {α : Type} {f : Phase → α} {a : α} {phase : Phase} {c d : Conn}
    (h : f ((s.enter c phase).phase d) = a) (hphase : f phase ≠ a) : d ≠ c ∧ f (s.phase d) = a := by
  rw [phase_enter] at h
  split_ifs at h with heq
  · exact absurd h hphase
  · exact ⟨heq, h⟩

theorem assign_eq_some [DecidableEq Device] {entries : Device → Option Conn} {d e : Device} {entry : Option Conn}
    {c : Conn} :
    assign entries d entry e = some c ↔ e = d ∧ entry = some c ∨ e ≠ d ∧ entries e = some c := by
  unfold assign
  split_ifs with h <;> simp [h]

/-! ### The invariant -/

/-- A value is in the signal, or about to be sent. -/
def System.Woken (s : System Device Conn) (c : Conn) : Prop :=
  s.signalled c = true ∨ ∃ signals ∈ s.publishing, c ∈ signals

structure System.Sound (deviceId : Conn → Device) (s : System Device Conn) : Prop where
  served : ∀ c, (s.phase c).served = true →
    s.hub.sessions (deviceId c) = some c ∧ c ∈ s.hub.snapshotSignals
  session : ∀ d c, s.hub.sessions d = some c →
    deviceId c = d ∧ (s.phase c).stored = true ∧ s.hub.disconnecting d = none
  removing : ∀ c, (s.phase c).removing = true → s.hub.disconnecting (deviceId c) = some c
  fresh : s.hub.latestSnapshot = [] → s.hub.closed = false →
    s.hub.snapshotGeneration = 0 ∧ ∀ c g, (s.phase c).generation = some g → g = 0
  woken : ∀ c g, (s.phase c).written = some g → s.hub.closed = false →
    g ≠ s.hub.snapshotGeneration → s.Woken c

theorem sound_initial : ({} : System Device Conn).Sound deviceId where
  served := by simp [Phase.served]
  session := by simp
  removing := by simp [Phase.removing]
  fresh := by simp [Phase.generation]
  woken := by simp [Phase.written]

section Steps

variable [DecidableEq Conn]

theorem System.Sound.enter (h : s.Sound deviceId) {c : Conn} {phase : Phase}
    (hserved : phase.served = true → (s.phase c).served = true)
    (hstored : (s.phase c).stored = true → phase.stored = true)
    (hremoving : phase.removing = true → (s.phase c).removing = true)
    (hfresh : ∀ g, phase.generation = some g → s.hub.latestSnapshot = [] → s.hub.closed = false → g = 0)
    (hwoken : ∀ g, phase.written = some g → s.hub.closed = false → g ≠ s.hub.snapshotGeneration →
      s.Woken c) :
    (s.enter c phase).Sound deviceId where
  served d hd := by
    rw [phase_enter] at hd
    split_ifs at hd with heq
    · exact heq ▸ h.served c (hserved hd)
    · exact h.served d hd
  session e d hd := by
    obtain ⟨hdevice, hphase, hnone⟩ := h.session e d hd
    refine ⟨hdevice, ?_, hnone⟩
    rw [phase_enter]
    split_ifs with heq
    · exact hstored (heq ▸ hphase)
    · exact hphase
  removing d hd := by
    rw [phase_enter] at hd
    split_ifs at hd with heq
    · exact heq ▸ h.removing c (hremoving hd)
    · exact h.removing d hd
  fresh hempty hopen := by
    obtain ⟨hzero, hall⟩ := h.fresh hempty hopen
    refine ⟨hzero, fun d g hg => ?_⟩
    rw [phase_enter] at hg
    split_ifs at hg with heq
    · exact hfresh g hg hempty hopen
    · exact hall d g hg
  woken d g hg hopen hne := by
    rw [phase_enter] at hg
    split_ifs at hg with heq
    · exact heq ▸ hwoken g hg hopen hne
    · exact h.woken d g hg hopen hne

variable [DecidableEq Device]

theorem System.Sound.reserve (h : s.Sound deviceId) {c : Conn} {hub : Hub Device Conn}
    (hphase : s.phase c = .accepted) (hreserve : s.hub.reserve (deviceId c) c = some hub) :
    ({ s with hub := hub }.enter c .reserved).Sound deviceId := by
  unfold Hub.reserve at hreserve
  split_ifs at hreserve with hclosed hsession hdisconnecting
  obtain rfl := Option.some.inj hreserve
  rw [Bool.not_eq_true, Option.isSome_eq_false_iff, Option.isNone_iff_eq_none] at hsession
  rw [Bool.not_eq_true, Option.isSome_eq_false_iff, Option.isNone_iff_eq_none] at hdisconnecting
  refine ⟨?_, ?_, ?_, ?_, ?_⟩
  · intro d hd
    rw [phase_enter] at hd
    split_ifs at hd with heq
    · subst heq
      exact ⟨assign_eq_some.mpr (.inl ⟨rfl, rfl⟩), List.mem_cons_self⟩
    · obtain ⟨hstored, hsignal⟩ := h.served d hd
      have hother : deviceId d ≠ deviceId c := fun hdevice => by
        rw [← hdevice, hstored] at hsession
        exact Option.some_ne_none d hsession
      exact ⟨assign_eq_some.mpr (.inr ⟨hother, hstored⟩), List.mem_cons_of_mem _ hsignal⟩
  · intro e d hd
    rcases assign_eq_some.mp hd with ⟨rfl, hcd⟩ | ⟨hother, hsome⟩
    · obtain rfl := Option.some.inj hcd
      refine ⟨rfl, ?_, hdisconnecting⟩
      rw [phase_enter, if_pos rfl]
      rfl
    · obtain ⟨hdevice, hstored, hnone⟩ := h.session e d hsome
      refine ⟨hdevice, ?_, hnone⟩
      have hne : d ≠ c := fun heq => hother (heq ▸ hdevice).symm
      rw [phase_enter, if_neg hne]
      exact hstored
  · intro d hd
    exact h.removing d (eq_of_enter hd nofun).2
  · intro hempty hopen
    obtain ⟨hzero, hall⟩ := h.fresh hempty hopen
    refine ⟨hzero, fun d g hg => ?_⟩
    exact hall d g (eq_of_enter hg nofun).2
  · intro d g hg hopen hne
    exact h.woken d g (eq_of_enter hg nofun).2 hopen hne

theorem System.Sound.remove (h : s.Sound deviceId) {c : Conn} (hphase : s.phase c = .leaving) :
    ({ s with hub := (s.hub.removeConnection (deviceId c) c).1 }.enter c
      (if (s.hub.removeConnection (deviceId c) c).2 then .disconnecting else .gone)).Sound deviceId := by
  have hsignals : ∀ d, d ≠ c → d ∈ s.hub.snapshotSignals →
      d ∈ s.hub.snapshotSignals.filter (· ≠ c) := by
    intro d hne hd
    simp [hd, hne]
  by_cases hsession : s.hub.sessions (deviceId c) = some c
  · simp only [Hub.removeConnection, if_pos hsession, if_true]
    have hnone := (h.session _ _ hsession).2.2
    refine ⟨?_, ?_, ?_, ?_, ?_⟩
    · intro d hd
      obtain ⟨heq, hd⟩ := eq_of_enter hd nofun
      obtain ⟨hstored, hsignal⟩ := h.served d hd
      have hother : deviceId d ≠ deviceId c := fun hdevice => by
        rw [hdevice, hsession] at hstored
        exact heq (Option.some.inj hstored).symm
      exact ⟨assign_eq_some.mpr (.inr ⟨hother, hstored⟩), hsignals d heq hsignal⟩
    · intro e d hd
      rcases assign_eq_some.mp hd with ⟨-, hcd⟩ | ⟨hother, hsome⟩
      · cases hcd
      · obtain ⟨hdevice, hstored, hfree⟩ := h.session e d hsome
        have hne : d ≠ c := fun heq => hother (heq ▸ hdevice).symm
        refine ⟨hdevice, ?_, ?_⟩
        · rw [phase_enter, if_neg hne]
          exact hstored
        · show assign _ _ _ e = none
          rw [assign, if_neg hother]
          exact hfree
    · intro d hd
      rw [phase_enter] at hd
      split_ifs at hd with heq
      · rw [heq]
        exact assign_eq_some.mpr (.inl ⟨rfl, rfl⟩)
      · have hsome := h.removing d hd
        refine assign_eq_some.mpr (.inr ⟨fun hdevice => ?_, hsome⟩)
        rw [hdevice, hnone] at hsome
        cases hsome
    · intro hempty hopen
      obtain ⟨hzero, hall⟩ := h.fresh hempty hopen
      refine ⟨hzero, fun d g hg => ?_⟩
      exact hall d g (eq_of_enter hg nofun).2
    · intro d g hg hopen hne
      exact h.woken d g (eq_of_enter hg nofun).2 hopen hne
  · simp only [Hub.removeConnection, if_neg hsession, Bool.false_eq_true, if_false]
    refine ⟨?_, ?_, ?_, ?_, ?_⟩
    · intro d hd
      obtain ⟨heq, hd⟩ := eq_of_enter hd nofun
      obtain ⟨hstored, hsignal⟩ := h.served d hd
      exact ⟨hstored, hsignals d heq hsignal⟩
    · intro e d hd
      obtain ⟨hdevice, hstored, hfree⟩ := h.session e d hd
      have hne : d ≠ c := fun heq => by
        subst heq hdevice
        exact hsession hd
      refine ⟨hdevice, ?_, hfree⟩
      rw [phase_enter, if_neg hne]
      exact hstored
    · intro d hd
      exact h.removing d (eq_of_enter hd nofun).2
    · intro hempty hopen
      obtain ⟨hzero, hall⟩ := h.fresh hempty hopen
      refine ⟨hzero, fun d g hg => ?_⟩
      exact hall d g (eq_of_enter hg nofun).2
    · intro d g hg hopen hne
      exact h.woken d g (eq_of_enter hg nofun).2 hopen hne

theorem System.Sound.release (h : s.Sound deviceId) {c : Conn} (hphase : s.phase c = .disconnected) :
    ({ s with hub := s.hub.release (deviceId c) c }.enter c .gone).Sound deviceId := by
  have hsome : s.hub.disconnecting (deviceId c) = some c := h.removing c (by rw [hphase]; rfl)
  unfold Hub.release
  rw [if_pos hsome]
  refine ⟨?_, ?_, ?_, ?_, ?_⟩
  · intro d hd
    exact h.served d (eq_of_enter hd nofun).2
  · intro e d hd
    obtain ⟨hdevice, hstored, hfree⟩ := h.session e d hd
    have hne : d ≠ c := fun heq => by
      rw [heq, hphase] at hstored
      cases hstored
    refine ⟨hdevice, ?_, ?_⟩
    · rw [phase_enter, if_neg hne]
      exact hstored
    · show assign _ _ _ e = none
      unfold assign
      split_ifs
      · rfl
      · exact hfree
  · intro d hd
    obtain ⟨hne, hd⟩ := eq_of_enter hd nofun
    have hkept := h.removing d hd
    refine assign_eq_some.mpr (.inr ⟨fun hdevice => ?_, hkept⟩)
    rw [hdevice, hsome] at hkept
    exact hne (Option.some.inj hkept).symm
  · intro hempty hopen
    obtain ⟨hzero, hall⟩ := h.fresh hempty hopen
    exact ⟨hzero, fun d g hg => hall d g (eq_of_enter hg nofun).2⟩
  · intro d g hg hopen hne
    exact h.woken d g (eq_of_enter hg nofun).2 hopen hne

end Steps

theorem System.Sound.publish (h : s.Sound deviceId) {document : Bytes} {hub : Hub Device Conn}
    {signals : List Conn} (hpublish : s.hub.publishSnapshot document = some (hub, signals)) :
    ({ s with hub := hub, publishing := s.publishing ++ [signals] } : System Device Conn).Sound
      deviceId := by
  unfold Hub.publishSnapshot at hpublish
  split_ifs at hpublish with hpublishable hclosed
  obtain ⟨rfl, rfl⟩ := Prod.mk.inj (Option.some.inj hpublish)
  refine ⟨h.served, h.session, h.removing, ?_, ?_⟩
  · intro hempty
    rw [Bool.not_eq_true, Bool.not_eq_false'] at hpublishable
    have hempty : document = [] := hempty
    subst hempty
    exact absurd hpublishable (by decide)
  · intro c g hg _ _
    have hserved : (s.phase c).served = true := by
      cases hphase : s.phase c <;> rw [hphase] at hg <;> first | rfl | cases hg
    exact .inr ⟨s.hub.snapshotSignals, by simp, (h.served c hserved).2⟩

theorem System.Sound.close (h : s.Sound deviceId) :
    ({ s with hub := s.hub.close } : System Device Conn).Sound deviceId := by
  unfold Hub.close
  split_ifs
  · exact h
  · exact ⟨h.served, h.session, h.removing, fun _ hopen => (nomatch hopen),
      fun _ _ _ hopen => (nomatch hopen)⟩

section Signals

variable [DecidableEq Conn]

theorem System.Sound.send (h : s.Sound deviceId) {call : ℕ} {signals : List Conn} {c : Conn}
    (hcall : s.publishing[call]? = some signals) :
    ({ s with
      signalled := fun other => if other = c then true else s.signalled other
      publishing := s.publishing.set call (signals.filter (· ≠ c)) } : System Device Conn).Sound
        deviceId := by
  refine ⟨h.served, h.session, h.removing, h.fresh, ?_⟩
  intro d g hg hopen hne
  by_cases heq : d = c
  · exact .inl (if_pos heq)
  · rcases h.woken d g hg hopen hne with hsignalled | ⟨others, hothers, hd⟩
    · exact .inl ((if_neg heq).trans hsignalled)
    · obtain ⟨i, hi⟩ := List.mem_iff_getElem?.mp hothers
      by_cases hcalls : call = i
      · -- the value for `d` is one that this call has yet to send
        subst hcalls
        obtain rfl := Option.some.inj (hcall.symm.trans hi)
        refine .inr ⟨signals.filter (· ≠ c), ?_, by simp [hd, heq]⟩
        have hlt : call < s.publishing.length := (List.getElem?_eq_some_iff.mp hcall).1
        exact List.mem_iff_getElem?.mpr ⟨call, by simp [hlt]⟩
      · exact .inr ⟨others, List.mem_iff_getElem?.mpr ⟨i, by rw [List.getElem?_set_ne hcalls, hi]⟩, hd⟩

theorem System.Sound.receive (h : s.Sound deviceId) {c : Conn} {previous : UInt64}
    (hphase : s.phase c = .idle previous) :
    ({ s with
      signalled := fun other => if other = c then false else s.signalled other }.enter c
        (.checking previous)).Sound deviceId := by
  have hchecking : (s.enter c (.checking previous)).Sound deviceId := by
    refine h.enter ?_ (fun _ => rfl) nofun ?_ nofun
    · intro _
      rw [hphase]
      rfl
    · intro g hg hempty hopen
      refine (h.fresh hempty hopen).2 c g ?_
      rw [hphase]
      exact hg
  refine ⟨hchecking.served, hchecking.session, hchecking.removing, hchecking.fresh, ?_⟩
  intro d g hg hopen hne
  have hother : d ≠ c := (eq_of_enter hg nofun).1
  rcases hchecking.woken d g hg hopen hne with hsignalled | hpublishing
  · exact .inl ((if_neg hother).trans hsignalled)
  · exact .inr hpublishing

end Signals

/-! ### Runs -/

variable [DecidableEq Device] [DecidableEq Conn]

theorem System.Sound.check (h : s.Sound deviceId) {c : Conn} {previous : UInt64}
    (hphase : s.phase c = .checking previous) (hstep : step deviceId s (.check c) = some s') :
    s'.Sound deviceId := by
  have hserved : (s.phase c).served = true := by rw [hphase]; rfl
  simp only [step, hphase] at hstep
  unfold Hub.writeLatestSnapshot at hstep
  split_ifs at hstep with hsame
  · obtain rfl := Option.some.inj hstep
    refine h.enter (fun _ => hserved) (fun _ => rfl) nofun ?_ ?_
    · intro g hg hempty hopen
      refine (h.fresh hempty hopen).2 c g ?_
      rw [hphase]
      exact hg
    · rintro g hg hopen hne
      obtain rfl := Option.some.inj hg
      rcases hsame with hsame | hempty
      · exact absurd hsame.symm hne
      · -- nothing has been published
        obtain ⟨hzero, hall⟩ := h.fresh hempty hopen
        have hprevious : previous = 0 := hall c previous (by rw [hphase]; rfl)
        exact absurd (hprevious.trans hzero.symm) hne
  · obtain rfl := Option.some.inj hstep
    rw [not_or] at hsame
    refine h.enter (fun _ => hserved) (fun _ => rfl) nofun ?_ ?_
    · exact fun g hg hempty => absurd hempty hsame.2
    · exact fun g hg hopen hne => absurd (Option.some.inj hg).symm hne

theorem System.Sound.wrote (h : s.Sound deviceId) {c : Conn} {written : Bool}
    (hstep : step deviceId s (.wrote c written) = some s') : s'.Sound deviceId := by
  cases hphase : s.phase c with
  | writing previous generation document =>
    simp only [step, hphase] at hstep
    obtain rfl := Option.some.inj hstep
    have hserved : (s.phase c).served = true := by rw [hphase]; rfl
    cases written with
    | true =>
      refine h.enter (fun _ => hserved) (fun _ => rfl) nofun ?_ ?_
      · intro g hg hempty hopen
        refine (h.fresh hempty hopen).2 c g ?_
        rw [hphase]
        exact hg
      · intro g hg hopen hne
        refine h.woken c g ?_ hopen hne
        rw [hphase]
        exact hg
    | false => exact h.enter nofun (fun _ => rfl) nofun nofun nofun
  | _ => simp [step, hphase] at hstep

/-- Every step keeps the invariant. -/
theorem sound_step {event : Event Conn} (h : s.Sound deviceId)
    (hstep : step deviceId s event = some s') : s'.Sound deviceId := by
  cases event with
  | accept c =>
    simp only [step] at hstep
    split_ifs at hstep with hphase
    obtain ⟨hub, hadd, rfl⟩ := Option.map_eq_some_iff.mp hstep
    unfold Hub.addConnection at hadd
    split_ifs at hadd
    obtain rfl := Option.some.inj hadd
    have hadded : ({ s with hub := { s.hub with connections := c :: s.hub.connections } } :
        System Device Conn).Sound deviceId :=
      ⟨h.served, h.session, h.removing, h.fresh, h.woken⟩
    refine hadded.enter nofun (fun hstored => ?_) nofun nofun nofun
    have hstored : (s.phase c).stored = true := hstored
    rw [hphase] at hstored
    cases hstored
  | refuseAccept c =>
    simp only [step] at hstep
    split_ifs at hstep with hphase
    obtain rfl := Option.some.inj hstep
    refine h.enter nofun (fun hstored => ?_) nofun nofun nofun
    rw [hphase.1] at hstored
    cases hstored
  | reserve c =>
    simp only [step] at hstep
    split_ifs at hstep with hphase
    obtain ⟨hub, hreserve, rfl⟩ := Option.map_eq_some_iff.mp hstep
    exact h.reserve hphase hreserve
  | refuse c =>
    simp only [step] at hstep
    split_ifs at hstep with hphase
    obtain rfl := Option.some.inj hstep
    exact h.enter nofun (fun _ => rfl) nofun nofun nofun
  | subscribe c =>
    simp only [step] at hstep
    split_ifs at hstep with hphase
    obtain rfl := Option.some.inj hstep
    refine h.enter (fun _ => by rw [hphase]; rfl) (fun _ => rfl) nofun ?_ nofun
    exact fun g hg _ _ => (Option.some.inj hg).symm
  | check c =>
    cases hphase : s.phase c with
    | checking previous => exact h.check hphase hstep
    | _ => simp [step, hphase] at hstep
  | wrote c written => exact h.wrote hstep
  | receive c =>
    cases hphase : s.phase c with
    | idle previous =>
      simp only [step, hphase] at hstep
      split_ifs at hstep
      obtain rfl := Option.some.inj hstep
      exact h.receive hphase
    | _ => simp [step, hphase] at hstep
  | leave c =>
    have hleaving : (s.enter c .leaving).Sound deviceId := h.enter nofun (fun _ => rfl) nofun nofun nofun
    simp only [step] at hstep
    split at hstep
    iterate 3
      obtain rfl := Option.some.inj hstep
      exact hleaving
    cases hstep
  | remove c =>
    by_cases hphase : s.phase c = .leaving
    · simp only [step, if_pos hphase] at hstep
      obtain rfl := Option.some.inj hstep
      exact h.remove hphase
    · simp only [step, if_neg hphase] at hstep
      cases hstep
  | callback c =>
    simp only [step] at hstep
    split_ifs at hstep with hphase
    obtain rfl := Option.some.inj hstep
    refine h.enter nofun (fun hstored => ?_) (fun _ => by rw [hphase]; rfl) nofun nofun
    rw [hphase] at hstored
    cases hstored
  | release c =>
    simp only [step] at hstep
    split_ifs at hstep with hphase
    obtain rfl := Option.some.inj hstep
    exact h.release hphase
  | publish document =>
    obtain ⟨⟨hub, signals⟩, hpublish, rfl⟩ := Option.map_eq_some_iff.mp hstep
    exact h.publish hpublish
  | send call c =>
    simp only [step] at hstep
    split at hstep
    · cases hstep
    · next hcall =>
      split_ifs at hstep
      obtain rfl := Option.some.inj hstep
      exact h.send hcall
  | close =>
    obtain rfl := Option.some.inj hstep
    exact h.close

theorem sound_run {events : List (Event Conn)} (hrun : run (step deviceId) {} events = some s) :
    s.Sound deviceId :=
  run_invariant (fun _ _ _ h hstep => sound_step h hstep) sound_initial hrun

/-! ### The next connection of a device -/

/-- The device of a registered connection is taken until its callback has returned. -/
def System.Held (deviceId : Conn → Device) (s : System Device Conn) (c : Conn) : Prop :=
  s.hub.sessions (deviceId c) = some c ∨ s.phase c = .disconnecting

omit [DecidableEq Device] in
theorem System.Held.enter {c d : Conn} {phase : Phase} (h : s.Held deviceId c)
    (hphase : s.phase d ≠ .disconnecting) : (s.enter d phase).Held deviceId c := by
  rcases h with hsession | hdisconnecting
  · exact .inl hsession
  · have hne : c ≠ d := fun heq => hphase (heq ▸ hdisconnecting)
    refine .inr ?_
    rw [phase_enter, if_neg hne]
    exact hdisconnecting

omit [DecidableEq Conn] in
theorem System.Held.reserve {c d : Conn} {hub : Hub Device Conn} (h : s.Held deviceId c)
    (hreserve : s.hub.reserve (deviceId d) d = some hub) :
    ({ s with hub := hub } : System Device Conn).Held deviceId c := by
  unfold Hub.reserve at hreserve
  split_ifs at hreserve with hclosed hsome
  obtain rfl := Option.some.inj hreserve
  rcases h with hsession | hdisconnecting
  · refine .inl (assign_eq_some.mpr (.inr ⟨fun hdevice => ?_, hsession⟩))
    rw [← hdevice, hsession] at hsome
    exact hsome rfl
  · exact .inr hdisconnecting

theorem System.Held.remove {c d : Conn} (h : s.Held deviceId c) (hphase : s.phase d = .leaving) :
    ({ s with hub := (s.hub.removeConnection (deviceId d) d).1 }.enter d
      (if (s.hub.removeConnection (deviceId d) d).2 then .disconnecting else .gone)).Held
        deviceId c := by
  by_cases hsession : s.hub.sessions (deviceId d) = some d
  · simp only [Hub.removeConnection, if_pos hsession, if_true]
    by_cases heq : c = d
    · refine .inr ?_
      rw [phase_enter, if_pos heq]
    · rcases h with hstored | hdisconnecting
      · refine .inl (assign_eq_some.mpr (.inr ⟨fun hdevice => ?_, hstored⟩))
        rw [hdevice, hsession] at hstored
        exact heq (Option.some.inj hstored).symm
      · refine .inr ?_
        rw [phase_enter, if_neg heq]
        exact hdisconnecting
  · simp only [Hub.removeConnection, if_neg hsession, Bool.false_eq_true, if_false]
    have hkept : ({ s with hub := { s.hub with
        connections := s.hub.connections.filter (· ≠ d)
        snapshotSignals := s.hub.snapshotSignals.filter (· ≠ d) } } :
          System Device Conn).Held deviceId c := h
    exact hkept.enter (by rw [hphase]; nofun)

/-- Only the callback of a connection frees its device. -/
theorem held_step {c : Conn} {event : Event Conn} (h : s.Held deviceId c)
    (hevent : event ≠ .callback c) (hstep : step deviceId s event = some s') :
    s'.Held deviceId c := by
  cases event with
  | accept d =>
    simp only [step] at hstep
    split_ifs at hstep with hphase
    obtain ⟨hub, hadd, rfl⟩ := Option.map_eq_some_iff.mp hstep
    unfold Hub.addConnection at hadd
    split_ifs at hadd
    obtain rfl := Option.some.inj hadd
    have hadded : ({ s with hub := { s.hub with connections := d :: s.hub.connections } } :
        System Device Conn).Held deviceId c := h
    exact hadded.enter (by rw [hphase]; nofun)
  | refuseAccept d =>
    simp only [step] at hstep
    split_ifs at hstep with hphase
    obtain rfl := Option.some.inj hstep
    exact h.enter (by rw [hphase.1]; nofun)
  | reserve d =>
    simp only [step] at hstep
    split_ifs at hstep with hphase
    obtain ⟨hub, hreserve, rfl⟩ := Option.map_eq_some_iff.mp hstep
    exact (h.reserve hreserve).enter (by rw [hphase]; nofun)
  | refuse d =>
    simp only [step] at hstep
    split_ifs at hstep with hphase
    obtain rfl := Option.some.inj hstep
    exact h.enter (by rw [hphase.1]; nofun)
  | subscribe d =>
    simp only [step] at hstep
    split_ifs at hstep with hphase
    obtain rfl := Option.some.inj hstep
    exact h.enter (by rw [hphase]; nofun)
  | check d =>
    cases hphase : s.phase d with
    | checking previous =>
      simp only [step, hphase] at hstep
      split at hstep <;> obtain rfl := Option.some.inj hstep <;> exact h.enter (by rw [hphase]; nofun)
    | _ => simp [step, hphase] at hstep
  | wrote d written =>
    cases hphase : s.phase d with
    | writing previous generation document =>
      simp only [step, hphase] at hstep
      obtain rfl := Option.some.inj hstep
      exact h.enter (by rw [hphase]; nofun)
    | _ => simp [step, hphase] at hstep
  | receive d =>
    cases hphase : s.phase d with
    | idle previous =>
      simp only [step, hphase] at hstep
      split_ifs at hstep
      obtain rfl := Option.some.inj hstep
      have hreceived : ({ s with signalled := fun other =>
          if other = d then false else s.signalled other } : System Device Conn).Held deviceId c := h
      exact hreceived.enter (by rw [hphase]; nofun)
    | _ => simp [step, hphase] at hstep
  | leave d =>
    cases hphase : s.phase d with
    | accepted | reserved | idle =>
      simp only [step, hphase] at hstep
      obtain rfl := Option.some.inj hstep
      exact h.enter (by rw [hphase]; nofun)
    | _ => simp [step, hphase] at hstep
  | remove d =>
    by_cases hphase : s.phase d = .leaving
    · simp only [step, if_pos hphase] at hstep
      obtain rfl := Option.some.inj hstep
      exact h.remove hphase
    · simp only [step, if_neg hphase] at hstep
      cases hstep
  | callback d =>
    simp only [step] at hstep
    split_ifs at hstep with hphase
    obtain rfl := Option.some.inj hstep
    have hne : c ≠ d := fun heq => hevent (heq ▸ rfl)
    rcases h with hsession | hdisconnecting
    · exact .inl hsession
    · refine .inr ?_
      rw [phase_enter, if_neg hne]
      exact hdisconnecting
  | release d =>
    simp only [step] at hstep
    split_ifs at hstep with hphase
    obtain rfl := Option.some.inj hstep
    have hreleased : ({ s with hub := s.hub.release (deviceId d) d } : System Device Conn).Held
        deviceId c := by
      unfold Hub.release
      split_ifs
      · exact h
      · exact h
    exact hreleased.enter (by rw [hphase]; nofun)
  | publish document =>
    obtain ⟨⟨hub, signals⟩, hpublish, rfl⟩ := Option.map_eq_some_iff.mp hstep
    unfold Hub.publishSnapshot at hpublish
    split_ifs at hpublish
    obtain ⟨rfl, rfl⟩ := Prod.mk.inj (Option.some.inj hpublish)
    exact h
  | send call d =>
    simp only [step] at hstep
    split at hstep
    · cases hstep
    · split_ifs at hstep
      obtain rfl := Option.some.inj hstep
      exact h
  | close =>
    obtain rfl := Option.some.inj hstep
    show System.Held deviceId { s with hub := s.hub.close } c
    unfold Hub.close
    split_ifs
    · exact h
    · exact h

theorem held_run {c : Conn} {events : List (Event Conn)} (h : s.Held deviceId c)
    (hevents : .callback c ∉ events) (hrun : run (step deviceId) s events = some s') :
    s'.Held deviceId c := by
  induction events generalizing s with
  | nil =>
    obtain rfl := Option.some.inj hrun
    exact h
  | cons event events ih =>
    obtain ⟨t, hstep, hrun⟩ := run_cons.mp hrun
    rw [List.mem_cons, not_or] at hevents
    exact ih (held_step h (Ne.symm hevents.1) hstep) hevents.2 hrun

theorem reserve_step {c : Conn} (hstep : step deviceId s (.reserve c) = some s') :
    s.hub.sessions (deviceId c) = none ∧ s.hub.disconnecting (deviceId c) = none ∧
      s'.hub.sessions (deviceId c) = some c := by
  simp only [step] at hstep
  split_ifs at hstep with hphase
  obtain ⟨hub, hreserve, rfl⟩ := Option.map_eq_some_iff.mp hstep
  unfold Hub.reserve at hreserve
  split_ifs at hreserve with hclosed hsession hdisconnecting
  obtain rfl := Option.some.inj hreserve
  refine ⟨?_, ?_, assign_eq_some.mpr (.inl ⟨rfl, rfl⟩)⟩
  · simpa using hsession
  · simpa using hdisconnecting

theorem callback_between {before between after : List (Event Conn)} {c c' : Conn}
    (hrun : run (step deviceId) {}
      (before ++ .reserve c :: (between ++ .reserve c' :: after)) = some s)
    (hdevice : deviceId c = deviceId c') : .callback c ∈ between := by
  by_contra hevents
  rw [run_append] at hrun
  obtain ⟨s₁, hbefore, hrun⟩ := Option.bind_eq_some_iff.mp hrun
  obtain ⟨s₂, hfirst, hrun⟩ := run_cons.mp hrun
  rw [run_append] at hrun
  obtain ⟨s₃, hbetween, hrun⟩ := Option.bind_eq_some_iff.mp hrun
  obtain ⟨s₄, hsecond, -⟩ := run_cons.mp hrun
  have hsound : s₃.Sound deviceId :=
    run_invariant (fun _ _ _ h hstep => sound_step h hstep) (sound_step (sound_run hbefore) hfirst)
      hbetween
  have hheld : s₃.Held deviceId c := held_run (.inl (reserve_step hfirst).2.2) hevents hbetween
  obtain ⟨hsession, hdisconnecting, -⟩ := reserve_step hsecond
  rw [← hdevice] at hsession hdisconnecting
  rcases hheld with hstored | hphase
  · rw [hsession] at hstored
    cases hstored
  · rw [hsound.removing c (by rw [hphase]; rfl)] at hdisconnecting
    cases hdisconnecting

/-! ### The safety of the hub -/

/-- A device has one connection, the callback of one connection has returned before the next one is
registered, and an idle connection that is behind the open hub has a value in its signal, or a call of
`PublishSnapshot` that has left the lock is about to send one. -/
theorem hub_safe {events : List (Event Conn)} (hrun : run (step deviceId) {} events = some s) :
    (∀ c c', (s.phase c).served = true → (s.phase c').served = true → deviceId c = deviceId c' →
      c = c') ∧
    (∀ before c between c' after, events = before ++ .reserve c :: (between ++ .reserve c' :: after) →
      deviceId c = deviceId c' → .callback c ∈ between) ∧
    (∀ c generation, s.phase c = .idle generation → s.hub.closed = false →
      generation ≠ s.hub.snapshotGeneration →
      s.signalled c = true ∨ ∃ signals ∈ s.publishing, c ∈ signals) := by
  have hsound := sound_run hrun
  refine ⟨?_, ?_, ?_⟩
  · intro c c' hc hc' hdevice
    have hfirst := (hsound.served c hc).1
    have hsecond := (hsound.served c' hc').1
    rw [hdevice, hsecond] at hfirst
    exact (Option.some.inj hfirst).symm
  · rintro before c between c' after rfl hdevice
    exact callback_between hrun hdevice
  · intro c generation hphase hopen hne
    exact hsound.woken c generation (by rw [hphase]; rfl) hopen hne

/-- A connection that waits, and a call that has published and sent nothing yet. -/
def sampleEvents : List (Event ℕ) :=
  [.accept 0, .reserve 0, .subscribe 0, .check 0, .publish (sampleRoot .null []).print]

/-- All connections are of one device. -/
def sampleDevice : ℕ → Bytes := fun _ => bytes "deck"

theorem sampleEvents_run :
    (run (step sampleDevice) {} sampleEvents).map (fun s : System Bytes ℕ =>
      (s.phase 0, s.hub.closed, s.hub.snapshotGeneration, s.signalled 0)) =
        some (.idle 0, false, 1, false) := by
  decide +kernel

/-- The call has the signal. -/
theorem hub_safe_published :
    ∃ s, run (step sampleDevice) {} sampleEvents = some s ∧
      (s.signalled 0 = true ∨ ∃ signals ∈ s.publishing, 0 ∈ signals) := by
  obtain ⟨s, hrun, hs⟩ := Option.map_eq_some_iff.mp sampleEvents_run
  simp only [Prod.mk.injEq] at hs
  obtain ⟨hphase, hopen, hgeneration, -⟩ := hs
  refine ⟨s, hrun, (hub_safe hrun).2.2 0 0 hphase hopen ?_⟩
  rw [hgeneration]
  decide

/-- An idle connection is behind the hub while its signal is empty. -/
theorem hub_safe_fails :
    ∃ s, run (step sampleDevice) {} sampleEvents = some s ∧
      s.phase 0 = .idle 0 ∧ s.hub.closed = false ∧ s.hub.snapshotGeneration = 1 ∧
      s.signalled 0 = false := by
  obtain ⟨s, hrun, hs⟩ := Option.map_eq_some_iff.mp sampleEvents_run
  simp only [Prod.mk.injEq] at hs
  exact ⟨s, hrun, hs.1, hs.2.1, hs.2.2.1, hs.2.2.2⟩

end RlcdDeck.DeviceLink
