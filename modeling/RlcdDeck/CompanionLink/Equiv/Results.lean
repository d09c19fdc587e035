import RlcdDeck.CompanionLink.Requests
import RlcdDeck.SerialService.Equiv.Results

/-!
# The result of a Web owner request

The link waits for the result of its pending request, which the owner task publishes in a slot
that every other command with a result shares.  The result is there at every poll until the link
has read it, as long as the owner task publishes no other result in between
(`owner_result_kept`); an `enter`, an `exit`, a `stop` or a revocation in between takes it away for
good, and the link waits for ever (`owner_result_lost`).

The transport epoch plays no part in this: it moves only while the link has no transport, and the
link forgets its request before it has one again (`Inv.asked`).
-/

namespace RlcdDeck.CompanionLink

open SerialSession SerialService

/-! ### Interference -/

/-- The commands whose result takes the slot. -/
def publishesResult : CommandKind → Bool
  | .enter | .exit | .requestWeb | .revokeWebTransport | .stop => true
  | .webActivity | .webDisconnect => false

variable {p : Publisher} {i : Inputs} {c : Command} {s : Service} {d : Deck}

namespace Deck

/-- The link has a request whose result is published and not read yet. -/
def unread (d : Deck) : Bool :=
  d.link.client && d.link.requests.pending &&
    match d.progress with
    | .answered _ => true
    | _ => false

/-- The step publishes the result of another command while one is unread. -/
def interferes (d : Deck) (e : Event) : Bool :=
  d.unread &&
    match e, d.service.pc with
    | .service (.owner _), .finish c => publishesResult c.kind
    | _, _ => false

/-- No step of the run interferes. -/
def undisturbed (d : Deck) : List Event → Bool
  | [] => true
  | e :: events => !d.interferes e && (d.step e).undisturbed events

/-! ### The invariant -/

/-- The link is on its way to forgetting its request. -/
def Closing : LinkPc → Prop
  | .revoke true | .revoking true _ | .reset => True
  | _ => False

/-- What holds between two steps. -/
structure Inv (d : Deck) : Prop where
  replays : Replays d.service.session
  closing : d.link.client = false → d.link.requests.pending = true → Closing d.link.pc
  online : d.link.client = true → d.link.pc = .loop ∨ ∃ c, d.link.pc = .request c
  /-- The command of the pending request carries the current transport epoch. -/
  asked : d.link.client = true → d.link.requests.pending = true →
    d.asked.kind = .requestWeb ∧ d.asked.requestId = d.link.requests.serviceRequestId ∧
      d.asked.requestId ≠ 0 ∧ d.asked.controlEpoch = d.service.webTransportEpoch
  silent : ∀ c, d.service.Applied c → publishesResult c.kind = false → d.publisher.result = none
  others : ∀ c, d.service.Applied c → publishesResult c.kind = true → c.kind ≠ .requestWeb →
    ∃ result, d.publisher.result = some result ∧ result.requestId = 0
  applied : d.link.client = true → d.link.requests.pending = true → d.progress = .applied →
    (∃ c, d.service.Applied c) ∧
      ∃ result, d.publisher.result = some result ∧ result.requestId = d.asked.requestId
  answered : ∀ result, d.link.client = true → d.link.requests.pending = true →
    d.progress = .answered result → d.publisher.latestCommandResult = result ∧
      ∃ x, result = some x ∧ x.requestId = d.asked.requestId

/-! ### The owner task -/

theorem publisher_service (p : Publisher) (i : Inputs) :
    (p.ownerStep i).service = (p.service.ownerStep i).1 := by
  unfold Publisher.ownerStep
  split <;> rfl

theorem publisher_result (h : ∀ c nowMs, p.service.pc ≠ .apply c nowMs) :
    (p.ownerStep i).result = p.result := by
  unfold Publisher.ownerStep
  split
  · next c nowMs hpc => exact absurd hpc (h c nowMs)
  · rfl
  · rfl

theorem publisher_apply {nowMs : UInt64} (h : p.service.pc = .apply c nowMs) :
    ∃ path, (p.ownerStep i).result = (p.service.setPath path).commandResult c nowMs := by
  unfold Publisher.ownerStep
  rw [h]
  exact ⟨_, rfl⟩

theorem publisher_latest (h : ∀ c, p.service.pc ≠ .finish c) :
    (p.ownerStep i).latestCommandResult = p.latestCommandResult := by
  unfold Publisher.ownerStep
  split
  · rfl
  · next c hpc => exact absurd hpc (h c)
  · rfl

theorem publisher_finish (h : p.service.pc = .finish c) :
    (p.ownerStep i).latestCommandResult = (p.result <|> p.latestCommandResult) := by
  unfold Publisher.ownerStep
  rw [h]

theorem commandResult_of_silent (nowMs : UInt64) (h : publishesResult c.kind = false) :
    s.commandResult c nowMs = none := by
  unfold Service.commandResult
  split <;> first | rfl | (next hkind => rw [hkind] at h; cases h)

theorem commandResult_of_other (nowMs : UInt64) (h : publishesResult c.kind = true)
    (hkind : c.kind ≠ .requestWeb) :
    ∃ result, s.commandResult c nowMs = some result ∧ result.requestId = 0 := by
  unfold Service.commandResult
  split
  · exact ⟨_, rfl, enter_requestId _ _ _⟩
  · exact ⟨_, rfl, exit_requestId _ _ _⟩
  · exact ⟨_, rfl, exit_requestId _ _ _⟩
  · next hweb => exact absurd hweb hkind
  · next hactivity =>
    rw [hactivity] at h
    cases h
  · next hdisconnect =>
    rw [hdisconnect] at h
    cases h
  · exact ⟨_, rfl, revokeWebTransport_requestId _ _ _⟩

theorem replays_service (h : Replays s.session) (e : SerialService.Event) :
    Replays (s.step e).session :=
  Service.session_step (fun bridge _ op hd => replays_step (adapter bridge) hd op) h e

theorem note_eq_applied (h : d.note = .applied) :
    (∃ nowMs, d.service.pc = .apply d.asked nowMs) ∨
      (d.progress = .applied ∧ ∀ c, d.service.pc ≠ .finish c) := by
  unfold note at h
  split at h
  · next c nowMs hpc _ =>
    split_ifs at h with hasked
    exact .inl ⟨nowMs, hasked.2 ▸ hpc⟩
  · cases h
  · next hother hfinish =>
    exact .inr ⟨h, fun c hpc => hfinish c hpc h⟩

theorem note_eq_answered {result : Option CommandResult} (h : d.note = .answered result) :
    (d.progress = .applied ∧ (∃ c, d.service.pc = .finish c) ∧ result = d.publisher.result) ∨
      d.progress = .answered result := by
  unfold note at h
  split at h
  · split_ifs at h
  · next c hpc happlied => exact .inl ⟨happlied, ⟨c, hpc⟩, (Progress.answered.inj h).symm⟩
  · exact .inr h

theorem commandResult_asked (hi : Inv d) (hclient : d.link.client = true)
    (hpending : d.link.requests.pending = true) (path : DataPath) (nowMs : UInt64) :
    ∃ result, (d.service.setPath path).commandResult d.asked nowMs = some result ∧
      result.requestId = d.asked.requestId := by
  obtain ⟨hkind, -, hne, hepoch⟩ := hi.asked hclient hpending
  have hsame : d.asked.controlEpoch = (d.service.setPath path).webTransportEpoch := hepoch
  have hreplays : Replays (d.service.setPath path).device.session := hi.replays
  unfold Service.commandResult
  rw [hkind]
  dsimp only
  rw [if_pos hsame]
  exact requestWebAtEpoch_requestId _ hreplays hne

theorem inv_owner (hi : Inv d) (i : Inputs)
    (hquiet : d.interferes (.service (.owner i)) = false) : Inv (d.step (.service (.owner i))) := by
  have hservice : (d.step (.service (.owner i))).service = (d.service.ownerStep i).1 :=
    publisher_service d.publisher i
  have hframe := Service.ownerFrame_ownerStep d.service i
  constructor
  case replays =>
    rw [hservice]
    exact replays_service hi.replays (.owner i)
  case closing => exact hi.closing
  case online => exact hi.online
  case asked =>
    rw [hservice, hframe.webTransportEpoch]
    exact hi.asked
  case silent =>
    intro c happlied hkind
    rw [hservice, Service.pc_ownerStep] at happlied
    rcases happlied with ⟨nowMs, hpc⟩ | hpc
    · obtain ⟨path, hresult⟩ := publisher_apply (i := i) hpc
      exact hresult.trans (commandResult_of_silent nowMs hkind)
    · have hsame : (d.publisher.ownerStep i).result = d.publisher.result :=
        publisher_result fun c' nowMs h => by rw [hpc] at h; cases h
      exact hsame.trans (hi.silent c (.inl hpc) hkind)
  case others =>
    intro c happlied hpublishes hkind
    rw [hservice, Service.pc_ownerStep] at happlied
    rcases happlied with ⟨nowMs, hpc⟩ | hpc
    · obtain ⟨path, hresult⟩ := publisher_apply (i := i) hpc
      obtain ⟨result, hsome, hid⟩ :=
        commandResult_of_other (s := d.service.setPath path) nowMs hpublishes hkind
      exact ⟨result, hresult.trans hsome, hid⟩
    · have hsame : (d.publisher.ownerStep i).result = d.publisher.result :=
        publisher_result fun c' nowMs h => by rw [hpc] at h; cases h
      obtain ⟨result, hsome, hid⟩ := hi.others c (.inl hpc) hpublishes hkind
      exact ⟨result, hsame.trans hsome, hid⟩
  case applied =>
    intro hclient hpending hprogress
    rw [hservice]
    rcases note_eq_applied hprogress with ⟨nowMs, hpc⟩ | ⟨happlied, hfinish⟩
    · obtain ⟨path, hresult⟩ := publisher_apply (i := i) hpc
      obtain ⟨result, hsome, hid⟩ := commandResult_asked hi hclient hpending path nowMs
      exact ⟨⟨d.asked, (Service.pc_ownerStep _ _ _).mpr (.inl ⟨nowMs, hpc⟩)⟩, result,
        hresult.trans hsome, hid⟩
    · obtain ⟨⟨c, hc⟩, result, hsome, hid⟩ := hi.applied hclient hpending happlied
      have hpc : d.service.pc = .resync c := hc.resolve_right (hfinish c)
      have hsame : (d.publisher.ownerStep i).result = d.publisher.result :=
        publisher_result fun c' nowMs h => by rw [hpc] at h; cases h
      exact ⟨⟨c, (Service.pc_ownerStep _ _ _).mpr (.inr hpc)⟩, result, hsame.trans hsome, hid⟩
  case answered =>
    intro result hclient hpending hprogress
    rcases note_eq_answered hprogress with ⟨happlied, ⟨c, hpc⟩, rfl⟩ | hanswered
    · obtain ⟨-, x, hx, hid⟩ := hi.applied hclient hpending happlied
      have hlatest : (d.publisher.ownerStep i).latestCommandResult = d.publisher.result := by
        rw [publisher_finish hpc, hx]
        rfl
      exact ⟨hlatest, x, hx, hid⟩
    · obtain ⟨hlatest, hx⟩ := hi.answered result hclient hpending hanswered
      refine ⟨?_, hx⟩
      by_cases hfinish : ∃ c, d.service.pc = .finish c
      · -- what is published here has no result of its own
        obtain ⟨c, hpc⟩ := hfinish
        have hkind : publishesResult c.kind = false := by
          have hunread : d.unread = true := by
            have hpend : d.link.requests.pending = true := hpending
            have hcl : d.link.client = true := hclient
            rw [unread, hcl, hpend, hanswered]
            rfl
          unfold interferes at hquiet
          rw [hunread, hpc] at hquiet
          exact hquiet
        have hnone := hi.silent c (.inr hpc) hkind
        have hkeep : (d.publisher.ownerStep i).latestCommandResult =
            d.publisher.latestCommandResult := by
          rw [publisher_finish hpc, hnone]
          rfl
        exact hkeep.trans hlatest
      · have hkeep : (d.publisher.ownerStep i).latestCommandResult =
            d.publisher.latestCommandResult :=
          publisher_latest fun c hpc => hfinish ⟨c, hpc⟩
        exact hkeep.trans hlatest

/-! ### The other tasks and the link -/

theorem inv_service (hi : Inv d) {e : SerialService.Event} (howner : ∀ i, e ≠ .owner i)
    (hlink : linkOnly e = false) :
    Inv { d with publisher := { d.publisher with service := d.service.step e } } := by
  have hframe : Service.Frame d.service (d.service.step e) := by
    refine Service.frame_step howner fun c hc hkind => ?_
    rw [hc, linkOnly, hkind] at hlink
    cases hlink
  have happlied : ∀ c, (d.service.step e).Applied c ↔ d.service.Applied c := by
    intro c
    unfold Service.Applied
    rw [hframe.pc]
  exact
    { replays := replays_service hi.replays e
      closing := hi.closing
      online := hi.online
      asked := by
        show d.link.client = true → d.link.requests.pending = true → _
        intro hclient hpending
        obtain ⟨hkind, hid, hne, hepoch⟩ := hi.asked hclient hpending
        exact ⟨hkind, hid, hne, hepoch.trans hframe.webTransportEpoch.symm⟩
      silent := fun c hc => hi.silent c ((happlied c).mp hc)
      others := fun c hc => hi.others c ((happlied c).mp hc)
      applied := by
        intro hclient hpending hprogress
        obtain ⟨⟨c, hc⟩, hresult⟩ := hi.applied hclient hpending hprogress
        exact ⟨⟨c, (happlied c).mpr hc⟩, hresult⟩
      answered := hi.answered }

theorem inv_offline (hi : Inv d) {link : Link} (hclient : link.client = false)
    (hclosing : link.requests.pending = true → Closing link.pc) (asked : Command)
    (progress : Progress) : Inv { d with link, asked, progress } where
  replays := hi.replays
  closing := fun _ => hclosing
  online h := absurd (hclient.symm.trans h) (by decide)
  asked h := absurd (hclient.symm.trans h) (by decide)
  silent := hi.silent
  others := hi.others
  applied h := absurd (hclient.symm.trans h) (by decide)
  answered _ h := absurd (hclient.symm.trans h) (by decide)

theorem inv_idle (hi : Inv d) {link : Link} (hpending : link.requests.pending = false)
    (honline : link.client = true → link.pc = .loop ∨ ∃ c, link.pc = .request c) (asked : Command)
    (progress : Progress) : Inv { d with link, asked, progress } where
  replays := hi.replays
  closing _ h := absurd (hpending.symm.trans h) (by decide)
  online := honline
  asked _ h := absurd (hpending.symm.trans h) (by decide)
  silent := hi.silent
  others := hi.others
  applied _ h := absurd (hpending.symm.trans h) (by decide)
  answered _ _ h := absurd (hpending.symm.trans h) (by decide)

theorem inv_drop (hi : Inv d) : Inv d.drop := by
  refine inv_offline hi ?_ ?_ d.asked d.progress
  · rfl
  · exact fun _ => trivial

theorem begin_new {t requests : RequestTracker} {requestId : UInt64}
    (h : t.begin requestId = (.new, requests)) :
    requests.pending = true ∧ requests.serviceRequestId ≠ 0 := by
  unfold RequestTracker.begin RequestTracker.allocateServiceRequestId at h
  split_ifs at h with hzero hpending hother hnext
  · cases h
  · cases h
  · cases h
  · obtain rfl := (Prod.mk.inj h).2
    exact ⟨rfl, by simp⟩
  · obtain rfl := (Prod.mk.inj h).2
    exact ⟨rfl, hnext⟩

theorem inv_ownerRequest (hi : Inv d) (hclient : d.link.client = true)
    (sessionId requestId : UInt64) (enable locked : Bool) :
    Inv (d.ownerRequest sessionId requestId enable locked) := by
  unfold ownerRequest
  dsimp only
  by_cases hrefused : locked = false ∨ d.service.latestSnapshot.state = .disarmed ∨
      d.service.latestSnapshot.sessionId ≠ sessionId
  · rw [if_pos hrefused]
    exact inv_drop hi
  rw [if_neg hrefused]
  split
  · exact hi
  · next requests hbegin =>
    obtain ⟨hpending, hne⟩ := begin_new hbegin
    split_ifs
    · refine inv_drop ?_
      refine inv_idle hi ?_ ?_ d.asked d.progress
      · rfl
      · exact fun _ => hi.online hclient
    · exact
        { replays := hi.replays
          closing := fun h => absurd (hclient.symm.trans h) (by decide)
          online := fun _ => .inr ⟨_, rfl⟩
          asked := fun _ _ => ⟨rfl, rfl, hne, rfl⟩
          silent := hi.silent
          others := hi.others
          applied := fun _ _ h => by cases h
          answered := fun _ _ _ h => by cases h }
  · exact inv_drop hi

theorem inv_sendRequest (hi : Inv d) {command : Command} (hpc : d.link.pc = .request command) :
    Inv (d.sendRequest command) := by
  unfold sendRequest
  split_ifs
  · exact
      { replays := hi.replays
        closing := by
          intro hclient hpending
          have h := hi.closing hclient hpending
          rw [hpc] at h
          exact h.elim
        online := fun _ => .inl rfl
        asked := hi.asked
        silent := hi.silent
        others := hi.others
        applied := hi.applied
        answered := hi.answered }
  · refine inv_drop ?_
    refine inv_idle hi ?_ ?_ d.asked .waiting
    · rfl
    · exact hi.online

theorem complete_pending {t requests : RequestTracker} {serviceRequestId : UInt64}
    (h : t.complete serviceRequestId = (true, requests)) : requests.pending = false := by
  unfold RequestTracker.complete at h
  split_ifs at h
  · cases h
  · obtain rfl := (Prod.mk.inj h).2
    rfl

theorem inv_poll (hi : Inv d) (hclient : d.link.client = true) (locked sent : Bool) :
    Inv (d.poll locked sent) := by
  unfold poll
  by_cases hpoll : d.link.requests.pending = true ∧ locked = true
  · rw [if_pos hpoll]
    split
    · exact hi
    · next result _ =>
      cases sent with
      | false => exact inv_drop hi
      | true =>
        rw [if_pos rfl]
        split
        · next requests hcomplete =>
          refine inv_idle hi ?_ ?_ d.asked .waiting
          · exact complete_pending hcomplete
          · exact fun _ => hi.online hclient
        · exact inv_drop hi
  · rw [if_neg hpoll]
    exact hi

theorem inv_offline_service (hi : Inv d) {service : Service}
    (hsession : service.session = d.service.session) (hpc : service.pc = d.service.pc) {link : Link}
    (hclient : link.client = false)
    (hclosing : link.requests.pending = true → Closing link.pc) :
    Inv { d.setService service with link } where
  replays := by
    show Replays service.session
    rw [hsession]
    exact hi.replays
  closing := fun _ => hclosing
  online h := absurd (hclient.symm.trans h) (by decide)
  asked h := absurd (hclient.symm.trans h) (by decide)
  silent c hc := hi.silent c (by
    have h : service.pc = .resync c ∨ service.pc = .finish c := hc
    rwa [hpc] at h)
  others c hc := hi.others c (by
    have h : service.pc = .resync c ∨ service.pc = .finish c := hc
    rwa [hpc] at h)
  applied h := absurd (hclient.symm.trans h) (by decide)
  answered _ h := absurd (hclient.symm.trans h) (by decide)

theorem inv_beginRevoke (hi : Inv d) (hclient : d.link.client = false) {closing : Bool}
    (hpc : d.link.pc = .revoke closing) : Inv (d.beginRevoke closing) := by
  have hclosing : d.link.requests.pending = true → closing = true := by
    intro hpending
    have h := hi.closing hclient hpending
    rw [hpc] at h
    cases closing with
    | false => exact h.elim
    | true => rfl
  have hafter : ∀ succeeded, Inv (d.afterRevoke closing succeeded) := by
    intro succeeded
    refine inv_offline hi ?_ ?_ d.asked d.progress
    · exact hclient
    · intro hpending
      obtain rfl := hclosing hpending
      exact trivial
  unfold beginRevoke
  split_ifs
  · exact hafter true
  · exact hafter false
  · refine inv_offline_service hi ?_ ?_ ?_ ?_
    · rfl
    · rfl
    · exact hclient
    · intro hpending
      obtain rfl := hclosing hpending
      exact trivial

theorem inv_sendRevoke (hi : Inv d) (hclient : d.link.client = false) {closing : Bool}
    {epoch : UInt64} (hpc : d.link.pc = .revoking closing epoch) :
    Inv (d.sendRevoke closing epoch) := by
  have hclosing : d.link.requests.pending = true → closing = true := by
    intro hpending
    have h := hi.closing hclient hpending
    rw [hpc] at h
    cases closing with
    | false => exact h.elim
    | true => rfl
  have hreset : d.link.requests.pending = true → ∀ succeeded : Bool,
      Closing (if closing then .reset else if succeeded then .revoked else .loop) := by
    intro hpending succeeded
    obtain rfl := hclosing hpending
    exact trivial
  unfold sendRevoke afterRevoke
  split
  · refine inv_offline_service hi ?_ ?_ ?_ ?_
    · rfl
    · rfl
    · exact hclient
    · exact fun hpending => hreset hpending true
  · refine inv_offline hi ?_ ?_ d.asked d.progress
    · exact hclient
    · exact fun hpending => hreset hpending false

theorem inv_advance (hi : Inv d) : Inv d.advance := by
  have offline : (d.link.pc ≠ .loop ∧ ∀ c, d.link.pc ≠ .request c) → d.link.client = false := by
    rintro ⟨hloop, hrequest⟩
    cases hclient : d.link.client with
    | false => rfl
    | true =>
      rcases hi.online hclient with h | ⟨c, h⟩
      · exact absurd h hloop
      · exact absurd h (hrequest c)
  unfold advance
  split
  · exact hi
  · next command hpc => exact inv_sendRequest hi hpc
  · next closing hpc =>
    have hclient := offline (by rw [hpc]; exact ⟨nofun, fun _ => nofun⟩)
    exact inv_beginRevoke hi hclient hpc
  · next closing epoch hpc =>
    have hclient := offline (by rw [hpc]; exact ⟨nofun, fun _ => nofun⟩)
    exact inv_sendRevoke hi hclient hpc
  · next hpc =>
    have hclient := offline (by rw [hpc]; exact ⟨nofun, fun _ => nofun⟩)
    refine inv_offline hi ?_ ?_ d.asked .waiting
    · exact hclient
    · nofun
  · next hpc =>
    have hclient := offline (by rw [hpc]; exact ⟨nofun, fun _ => nofun⟩)
    have hidle : d.link.requests.pending = true → False := by
      intro hpending
      have h := hi.closing hclient hpending
      rw [hpc] at h
      exact h
    unfold checkRevoked
    split <;> refine inv_offline hi ?_ ?_ d.asked d.progress
    · exact hclient
    · exact fun hpending => (hidle hpending).elim
    · exact hclient
    · exact fun hpending => (hidle hpending).elim

/-- **One step** that does not interfere keeps the invariant. -/
theorem inv_step (hi : Inv d) {e : Event} (hquiet : d.interferes e = false) :
    Inv (d.step e) := by
  cases e with
  | service event =>
    by_cases howner : ∃ i, event = .owner i
    · obtain ⟨i, rfl⟩ := howner
      exact inv_owner hi i hquiet
    · have hne : ∀ i, event ≠ .owner i := fun i h => howner ⟨i, h⟩
      have hstep : d.step (.service event) =
          if linkOnly event then d
          else { d with publisher := { d.publisher with service := d.service.step event } } := by
        cases event with
        | owner i => exact absurd rfl (hne i)
        | _ => rfl
      rw [hstep]
      split_ifs with hlink
      · exact hi
      · exact inv_service hi hne (Bool.eq_false_of_not_eq_true hlink)
  | connect =>
    unfold step
    dsimp only
    split_ifs with hconnect
    · have hidle : d.link.requests.pending = false := by
        by_contra hpending
        have h := hi.closing hconnect.2.1 (Bool.of_not_eq_false hpending)
        rw [hconnect.1] at h
        exact h
      refine inv_idle hi ?_ ?_ d.asked d.progress
      · exact hidle
      · exact fun _ => .inl hconnect.1
    · exact hi
  | disconnect =>
    unfold step
    dsimp only
    split_ifs
    · exact inv_drop hi
    · exact hi
  | ensureRevoked =>
    unfold step
    dsimp only
    split_ifs with hensure
    · refine inv_offline hi ?_ ?_ d.asked d.progress
      · exact hensure.2.1
      · intro hpending
        have h := hi.closing hensure.2.1 hpending
        rw [hensure.1] at h
        exact h.elim
    · exact hi
  | ownerRequest sessionId requestId enable locked =>
    unfold step
    dsimp only
    split_ifs with honline
    · exact inv_ownerRequest hi honline.2 sessionId requestId enable locked
    · exact hi
  | poll locked sent =>
    unfold step
    dsimp only
    split_ifs with honline
    · exact inv_poll hi honline.2 locked sent
    · exact hi
  | advance => exact inv_advance hi

theorem inv_start (usbBridgeEnabled : Bool) : Inv (start usbBridgeEnabled) where
  replays := .of_none rfl
  closing _ h := by cases h
  online h := by cases h
  asked h := by cases h
  silent c h := by rcases h with h | h <;> cases h
  others c h := by rcases h with h | h <;> cases h
  applied h := by cases h
  answered _ h := by cases h

theorem inv_run {d : Deck} (hi : Inv d) {events : List Event} (h : d.undisturbed events = true) :
    Inv (d.run events) := by
  induction events generalizing d with
  | nil => exact hi
  | cons e events ih =>
    rw [undisturbed, Bool.and_eq_true, Bool.not_eq_true_eq_eq_false] at h
    exact ih (inv_step hi h.1) h.2

/-! ### The result of a request -/

theorem commandResult_lost (hi : Inv d) (hclient : d.link.client = true)
    (hpending : d.link.requests.pending = true) {c : Command} (hpc : d.service.pc = .finish c)
    (hpublishes : publishesResult c.kind = true) (hkind : c.kind ≠ .requestWeb) (i : Inputs) :
    (d.step (.service (.owner i))).publisher.commandResult d.link.requests.serviceRequestId =
      none := by
  obtain ⟨-, hrequest, hne, -⟩ := hi.asked hclient hpending
  obtain ⟨result, hsome, hid⟩ := hi.others c (.inr hpc) hpublishes hkind
  have hlatest : (d.step (.service (.owner i))).publisher.latestCommandResult = some result := by
    show (d.publisher.ownerStep i).latestCommandResult = _
    rw [publisher_finish hpc, hsome]
    rfl
  have hother : ¬result.requestId = d.link.requests.serviceRequestId := by
    rw [hid, ← hrequest]
    exact hne.symm
  unfold Publisher.commandResult
  rw [hlatest]
  split_ifs
  · rfl
  · simp [hother]

/-- **The result of a request**, in every run in which the owner task publishes no other result
while one is unread: behind the publication the link finds the result of its pending request at
every poll.  An `enter`, an `exit`, a `stop` or a revocation that is published in between takes it
away. -/
theorem owner_result_kept (usbBridgeEnabled : Bool) (events : List Event)
    (h : (start usbBridgeEnabled).undisturbed events = true) :
    let d := (start usbBridgeEnabled).run events
    d.link.client = true → d.link.requests.pending = true →
    (∀ result, d.progress = .answered result →
      ∃ x, result = some x ∧
        d.publisher.commandResult d.link.requests.serviceRequestId = some x) ∧
    ∀ c i, d.service.pc = .finish c → publishesResult c.kind = true → c.kind ≠ .requestWeb →
      (d.step (.service (.owner i))).publisher.commandResult d.link.requests.serviceRequestId =
        none := by
  intro d hclient hpending
  have hi : Inv d := inv_run (inv_start usbBridgeEnabled) h
  refine ⟨?_, fun c i hpc hpublishes hkind =>
    commandResult_lost hi hclient hpending hpc hpublishes hkind i⟩
  intro result hanswered
  obtain ⟨hlatest, x, rfl, hid⟩ := hi.answered result hclient hpending hanswered
  obtain ⟨-, hrequest, hne, -⟩ := hi.asked hclient hpending
  refine ⟨x, rfl, ?_⟩
  unfold Publisher.commandResult
  rw [if_neg (by rw [← hrequest]; exact hne), hlatest]
  simp [hid, hrequest]

/-- The owner task takes one command from the queue, with a UART that starts. -/
def ownerTurn : List Event :=
  List.replicate 8 (.service (.owner { install := .started, uninstall := [.released true] }))

/-- The application queues a command, and the owner task runs it. -/
def buttonTurn (kind : CommandKind) : List Event :=
  [.service (.stamp { kind }), .service (.send 0)] ++ ownerTurn

/-- A session is entered, the transport is fenced and connects, the Companion asks for the Web
line, and the owner task grants it. -/
def granted : List Event :=
  buttonTurn .enter ++ [.ensureRevoked, .advance, .advance] ++ ownerTurn ++
    [.advance, .connect, .ownerRequest 1 7 true true, .advance] ++ ownerTurn

/-- A granted request is read by the link. -/
theorem owner_result_kept_granted :
    ∃ x, ((start true).run granted).publisher.commandResult 1 = some x := by
  have h := (owner_result_kept true granted (by decide)) (by decide) (by decide)
  obtain ⟨x, -, hx⟩ := h.1 _ rfl
  exact ⟨x, hx⟩

/-- **The result is lost**: the BOOT button ends the session before the link polls, and the link
keeps a pending request whose result it never finds. -/
theorem owner_result_lost :
    let d := (start true).run granted
    let d' := (start true).run (granted ++ buttonTurn .exit)
    (d.progress = .answered (some ⟨.applied, .webTx, 1, 1, 2, 1⟩) ∧
      d.publisher.commandResult 1 = some ⟨.applied, .webTx, 1, 1, 2, 1⟩) ∧
    d'.link.client = true ∧ d'.link.requests.pending = true ∧
      d'.link.requests.serviceRequestId = 1 ∧ d'.publisher.commandResult 1 = none := by
  decide

end Deck

end RlcdDeck.CompanionLink
