import RlcdDeck.OtaTransaction.Transaction
import Mathlib.Data.List.Basic

/-!
# Boot selection

The adapters' calls of a run are kept in a log, and everything a boot selection rests on is read
off that log: the manifest that was offered and verified, the accepted chunks, the bytes that
were hashed.  `Inv` ties the log to the transaction; `inv_handle` is its step over the requests,
and `boot_selection_safe` the result over runs.
-/

namespace RlcdDeck.OtaTransaction

open Effects

/-! ### The log -/

/-- A request of the caller, or a call of an adapter with its answer. -/
inductive Event where
  | request (request : Request)
  | call (call : Call) (answer : Answer call)

/-- What the log says of the image: the chunk that is being written, the accepted chunks with
their offsets, and the bytes hashed so far. -/
structure Ledger where
  pending : Option (UInt32 × List UInt8) := none
  writes : List (UInt32 × List UInt8) := []
  hashed : List UInt8 := []

/-- A chunk is accepted when it was written to the flash. -/
def Ledger.record (l : Ledger) : Event → Ledger
  | .request (.write offset data _ _) => { l with pending := some (offset, data) }
  | .call .hashBegin true => { l with hashed := [] }
  | .call (.hashUpdate data) true => { l with hashed := l.hashed ++ data }
  | .call (.flashWrite _) true => { l with writes := l.writes ++ l.pending.toList }
  | _ => l

def ledger (log : List Event) : Ledger :=
  log.foldl Ledger.record {}

/-- The bytes of the accepted chunks. -/
def imageBytes (writes : List (UInt32 × List UInt8)) : List UInt8 :=
  (writes.map Prod.snd).flatten

/-- Each chunk starts where the one before it ends. -/
def Contiguous : ℕ → List (UInt32 × List UInt8) → Prop
  | _, [] => True
  | start, (offset, data) :: rest => offset.toNat = start ∧ Contiguous (start + data.length) rest

/-- `hash_finish` answers the hash of the bytes given to it. -/
def Allowed (hash : List UInt8 → List UInt8) (log : List Event) : (c : Call) → Answer c → Prop
  | .hashFinish, some digest => digest = hash (ledger log).hashed
  | _, _ => True

/-- A call is answered and logged. -/
def answers (hash : List UInt8 → List UInt8) (log : List Event) (c : Call) (answer : Answer c)
    (log' : List Event) : Prop :=
  Allowed hash log c answer ∧ log' = log ++ [.call c answer]

/-- The states a created transaction reaches, with the log of the run. -/
inductive Reachable (hash : List UInt8 → List UInt8) (options : Options) :
    Transaction → List Event → Prop where
  | create {t : Transaction} : create options = some t → Reachable hash options t []
  | request {t t' : Transaction} {log log' : List Event} {request : Request} {result : Result} :
      Reachable hash options t log →
      (handle t request).Exec (answers hash) (log ++ [.request request]) (some (result, t')) log' →
      Reachable hash options t' log'

/-! ### Matched resources -/

/-- A resource was opened or closed. -/
inductive Use where
  | begun
  | closed
  deriving DecidableEq

/-- The flash is closed by an abort, and by a finish whatever it answers. -/
def flashUse : Event → Option Use
  | .call (.flashBegin _) true => some .begun
  | .call .flashFinish _ => some .closed
  | .call .flashAbort _ => some .closed
  | _ => none

/-- The hash is closed by an abort and by a successful finish. -/
def hashUse : Event → Option Use
  | .call .hashBegin true => some .begun
  | .call .hashFinish (some _) => some .closed
  | .call .hashAbort _ => some .closed
  | _ => none

/-- An open resource was begun once; any other was never begun, or begun and then closed once. -/
def Matched (isOpen : Bool) (uses : List Use) : Prop :=
  if isOpen then uses = [.begun] else uses = [] ∨ uses = [.begun, .closed]

def isSelectBoot : Event → Bool
  | .call .selectBoot _ => true
  | _ => false

/-! ### Boot selections -/

/-- The manifest was offered and verified, and is newer than the running version. -/
structure Offered (options : Options) (m : Manifest) (log : List Event) : Prop where
  offered : ∃ nowMs, .request (.offer m nowMs) ∈ log
  verified : .call (.verifyManifest m) true ∈ log
  newer : strictlyNewer m.version options.runningVersion = true

/-- What must have happened before a boot selection. -/
structure Selectable (hash : List UInt8 → List UInt8) (options : Options) (m : Manifest)
    (log : List Event) : Prop extends Offered options m log where
  contiguous : Contiguous 0 (ledger log).writes
  complete : (imageBytes (ledger log).writes).length = m.imageLength.toNat
  digest : hash (imageBytes (ledger log).writes) = m.imageSha256
  finished : .call .flashFinish true ∈ log

/-- At most one boot selection, and only of an offered, complete and verified image. -/
structure BootSafe (hash : List UInt8 → List UInt8) (options : Options) (log : List Event) :
    Prop where
  once : log.countP isSelectBoot ≤ 1
  selectable : ∀ before answer after, log = before ++ .call .selectBoot answer :: after →
    ∃ m, Selectable hash options m before

theorem countP_eq_zero_of_split {log before after : List Event} {answer : Bool}
    (h : log.countP isSelectBoot = 0) : log ≠ before ++ .call .selectBoot answer :: after := by
  rintro rfl
  simp [isSelectBoot] at h

variable {hash : List UInt8 → List UInt8} {options : Options} {t : Transaction}
  {log : List Event}

theorem BootSafe.of_none (h : log.countP isSelectBoot = 0) : BootSafe hash options log :=
  ⟨by omega, fun _ _ _ heq => absurd heq (countP_eq_zero_of_split h)⟩

theorem BootSafe.append (h : BootSafe hash options log) {e : Event} (he : isSelectBoot e = false) :
    BootSafe hash options (log ++ [e]) := by
  refine ⟨by simpa [he] using h.once, fun before answer after heq => ?_⟩
  rcases List.eq_nil_or_concat after with rfl | ⟨init, last, rfl⟩
  · -- the last event is not a selection
    have hlast := (List.append_inj' heq rfl).2
    rw [List.cons.injEq] at hlast
    rw [hlast.1] at he
    cases he
  · rw [List.concat_eq_append, ← List.cons_append, ← List.append_assoc] at heq
    exact h.selectable before answer init (List.append_inj' heq rfl).1

theorem BootSafe.select (hnone : log.countP isSelectBoot = 0) {m : Manifest}
    (hm : Selectable hash options m log) (selected : Bool) :
    BootSafe hash options (log ++ [.call .selectBoot selected]) := by
  refine ⟨by simp [hnone, isSelectBoot], fun before answer after heq => ?_⟩
  rcases List.eq_nil_or_concat after with rfl | ⟨init, last, rfl⟩
  · rw [← (List.append_inj' heq rfl).1]
    exact ⟨m, hm⟩
  · rw [List.concat_eq_append, ← List.cons_append, ← List.append_assoc] at heq
    exact absurd (List.append_inj' heq rfl).1 (countP_eq_zero_of_split hnone)

/-! ### The invariant -/

/-- What holds while the image is received. -/
structure Receiving (options : Options) (t : Transaction) (m : Manifest) (log : List Event) :
    Prop extends Offered options m log where
  manifest : t.manifest = some m
  imageLength : t.snapshot.imageLength = m.imageLength
  contiguous : Contiguous 0 (ledger log).writes
  hashed : (ledger log).hashed = imageBytes (ledger log).writes
  received : (imageBytes (ledger log).writes).length = t.snapshot.receivedBytes.toNat
  within : t.snapshot.receivedBytes.toNat ≤ m.imageLength.toNat

/-- The resources of a transaction are matched in the log. -/
structure Held (t : Transaction) (log : List Event) : Prop where
  flash : Matched t.flashOpen (log.filterMap flashUse)
  hash : Matched t.hashOpen (log.filterMap hashUse)

/-- What holds of a transaction and the log between any two requests. -/
structure Inv (hash : List UInt8 → List UInt8) (options : Options) (t : Transaction)
    (log : List Event) : Prop where
  opts : t.options = options
  held : Held t log
  opened : t.flashOpen = decide (t.snapshot.state = .receiving) ∧
    t.hashOpen = decide (t.snapshot.state = .receiving)
  idle : t.snapshot.state = .idle → log.filterMap flashUse = [] ∧ log.filterMap hashUse = [] ∧
    (ledger log).writes = []
  receiving : t.snapshot.state = .receiving → ∃ m, Receiving options t m log
  unselected : t.snapshot.state = .idle ∨ t.snapshot.state = .receiving →
    log.countP isSelectBoot = 0
  safe : BootSafe hash options log

theorem inv_create (h : create options = some t) : Inv hash options t [] := by
  unfold create at h
  split_ifs at h
  obtain rfl := Option.some.inj h
  exact
    { opts := rfl
      held := ⟨.inl rfl, .inl rfl⟩
      opened := ⟨rfl, rfl⟩
      idle := fun _ => ⟨rfl, rfl, rfl⟩
      receiving := fun h => by cases h
      unselected := fun _ => rfl
      safe := .of_none rfl }

/-! ### Closing -/

/-- The weakest precondition over the adapters' log; a run that is cut off promises nothing. -/
abbrev Ensures {α : Type} (hash : List UInt8 → List UInt8) (p : Ota α)
    (post : α → List Event → Prop) (log : List Event) : Prop :=
  p.wp (answers hash) post (fun _ => True) log

theorem ensures_ask {β : Type} {c : Call} {f : Answer c → Ota β} {post : β → List Event → Prop}
    (h : ∀ a, Allowed hash log c a → Ensures hash (f a) post (log ++ [.call c a])) :
    Ensures hash (ask c >>= f) post log := by
  refine Program.wp_perform trivial ?_
  rintro a log' ⟨hallowed, rfl⟩
  exact h a hallowed

theorem uses_of_none {use : Event → Option Use} {e : Event} (he : use e = none) :
    (log ++ [e]).filterMap use = log.filterMap use := by
  rw [List.filterMap_append, List.filterMap_cons_none he, List.filterMap_nil, List.append_nil]

theorem uses_of_some {use : Event → Option Use} {e : Event} {u : Use} (he : use e = some u) :
    (log ++ [e]).filterMap use = log.filterMap use ++ [u] := by
  rw [List.filterMap_append, List.filterMap_cons_some he, List.filterMap_nil]

theorem matched_append_closed {uses : List Use} (h : Matched true uses) :
    Matched false (uses ++ [.closed]) := by
  obtain rfl : uses = [.begun] := h
  exact .inr rfl

/-- **Closing** matches every open resource. -/
theorem closeOpenResources_spec (hheld : Held t log) (hsafe : BootSafe hash options log) :
    Ensures hash (closeOpenResources t)
      (fun t' log' => t' = { t with flashOpen := false, hashOpen := false } ∧
        Held t' log' ∧ BootSafe hash options log') log := by
  obtain ⟨hflash, hhash⟩ := hheld
  unfold closeOpenResources
  dsimp only
  -- the hash is closed after the flash was
  have hash_part : ∀ log', Matched false (log'.filterMap flashUse) →
      Matched t.hashOpen (log'.filterMap hashUse) → BootSafe hash options log' →
      Ensures hash (if t.hashOpen = true then do
          ask .hashAbort
          return { t with flashOpen := false, hashOpen := false }
        else return { t with flashOpen := false, hashOpen := false })
        (fun t' log' => t' = { t with flashOpen := false, hashOpen := false } ∧
          Held t' log' ∧ BootSafe hash options log') log' := by
    intro log' hflash hhash hsafe
    cases hopen : t.hashOpen with
    | true =>
      rw [hopen] at hhash
      rw [if_pos rfl]
      refine ensures_ask fun a _ => Program.wp_pure trivial ⟨rfl, ⟨?_, ?_⟩, hsafe.append rfl⟩
      · rw [uses_of_none rfl]
        exact hflash
      · rw [uses_of_some rfl]
        exact matched_append_closed hhash
    | false =>
      rw [hopen] at hhash
      rw [if_neg (by simp)]
      exact Program.wp_pure trivial ⟨rfl, ⟨hflash, hhash⟩, hsafe⟩
  cases hopen : t.flashOpen with
  | true =>
    rw [hopen] at hflash
    rw [if_pos rfl]
    refine ensures_ask fun a _ => hash_part _ ?_ ?_ (hsafe.append rfl)
    · rw [uses_of_some rfl]
      exact matched_append_closed hflash
    · rw [uses_of_none rfl]
      exact hhash
  | false =>
    rw [hopen] at hflash
    rw [if_neg (by simp)]
    exact hash_part log hflash hhash hsafe

theorem fail_spec (hopts : t.options = options) (hheld : Held t log)
    (hsafe : BootSafe hash options log) (result : Result) :
    Ensures hash (fail t result) (fun out log' => Inv hash options out.2 log') log := by
  refine Program.wp_bind (Program.wp_mono (closeOpenResources_spec hheld hsafe) (fun _ h => h) ?_)
  rintro t' log' ⟨rfl, hheld', hsafe'⟩
  refine Program.wp_pure trivial ?_
  exact
    { opts := hopts
      held := ⟨hheld'.flash, hheld'.hash⟩
      opened := ⟨rfl, rfl⟩
      idle := fun h => by cases h
      receiving := fun h => by cases h
      unselected := fun h => by rcases h with h | h <;> cases h
      safe := hsafe' }

/-! ### The requests -/

theorem ledger_append (log : List Event) (e : Event) :
    ledger (log ++ [e]) = (ledger log).record e := by
  simp [ledger]

theorem Offered.append {m : Manifest} (h : Offered options m log) (e : Event) :
    Offered options m (log ++ [e]) := by
  obtain ⟨nowMs, hoffer⟩ := h.offered
  exact ⟨⟨nowMs, List.mem_append_left _ hoffer⟩, List.mem_append_left _ h.verified, h.newer⟩

theorem inv_request (h : Inv hash options t log) (request : Request) :
    Inv hash options t (log ++ [.request request]) := by
  have hwrites : (ledger (log ++ [.request request])).writes = (ledger log).writes := by
    rw [ledger_append]
    cases request <;> rfl
  have hhashed : (ledger (log ++ [.request request])).hashed = (ledger log).hashed := by
    rw [ledger_append]
    cases request <;> rfl
  refine
    { opts := h.opts
      held := ⟨?_, ?_⟩
      opened := h.opened
      idle := fun hs => ?_
      receiving := fun hs => ?_
      unselected := fun hs => ?_
      safe := h.safe.append rfl }
  · rw [uses_of_none rfl]
    exact h.held.flash
  · rw [uses_of_none rfl]
    exact h.held.hash
  · rw [uses_of_none rfl, uses_of_none rfl, hwrites]
    exact h.idle hs
  · obtain ⟨m, hm⟩ := h.receiving hs
    exact ⟨m, hm.toOffered.append _, hm.manifest, hm.imageLength, hwrites ▸ hm.contiguous,
      by rw [hhashed, hwrites]; exact hm.hashed, by rw [hwrites]; exact hm.received, hm.within⟩
  · rw [List.countP_append, h.unselected hs]
    rfl

theorem offer_spec (h : Inv hash options t log) {m : Manifest} {nowMs : UInt64}
    (hoffer : .request (.offer m nowMs) ∈ log) :
    Ensures hash (offer t m nowMs) (fun out log' => Inv hash options out.2 log') log := by
  unfold offer
  by_cases hidle : t.snapshot.state ≠ .idle
  · rw [if_pos hidle]
    exact Program.wp_pure trivial h
  rw [if_neg hidle]
  rw [ne_eq, not_not] at hidle
  have hfail := fail_spec h.opts h.held h.safe
  obtain ⟨hflash, hhash, hwrites⟩ := h.idle hidle
  have hclosed : t.flashOpen = false ∧ t.hashOpen = false := by
    simpa [hidle] using h.opened
  have hselect := h.unselected (.inl hidle)
  split_ifs with hsafe hboard hprotocol hnewer hlarge
  · exact hfail _
  · exact hfail _
  · exact hfail _
  · exact hfail _
  · exact hfail _
  have hnewer' : strictlyNewer m.version options.runningVersion = true := by
    rw [h.opts] at hnewer
    simpa using hnewer
  refine ensures_ask fun verified _ => ?_
  have hflash₁ : (log ++ [Event.call (.verifyManifest m) verified]).filterMap flashUse = [] := by
    rw [uses_of_none rfl, hflash]
  have hhash₁ : (log ++ [Event.call (.verifyManifest m) verified]).filterMap hashUse = [] := by
    rw [uses_of_none rfl, hhash]
  have hheld₁ : Held t (log ++ [.call (.verifyManifest m) verified]) := by
    refine ⟨?_, ?_⟩
    · rw [hclosed.1, hflash₁]
      exact .inl rfl
    · rw [hclosed.2, hhash₁]
      exact .inl rfl
  cases verified with
  | false => exact fail_spec h.opts hheld₁ (h.safe.append rfl) _
  | true =>
    refine ensures_ask fun begun _ => ?_
    cases begun with
    | false =>
      refine fail_spec h.opts ⟨?_, ?_⟩ ((h.safe.append rfl).append rfl) _
      · rw [uses_of_none rfl]
        exact hheld₁.flash
      · rw [uses_of_none rfl]
        exact hheld₁.hash
    | true =>
      refine ensures_ask fun begun _ => ?_
      cases begun with
      | false =>
        refine fail_spec (t := { t with hashOpen := true }) h.opts ⟨?_, ?_⟩ (.of_none ?_) _
        · rw [uses_of_none rfl, uses_of_none rfl]
          exact hheld₁.flash
        · rw [uses_of_none rfl, uses_of_some rfl, hhash₁]
          rfl
        · simp [hselect, isSelectBoot]
      | true =>
        refine Program.wp_pure trivial ?_
        have hledger : ledger (((log ++ [.call (.verifyManifest m) true]) ++
            [.call .hashBegin true]) ++ [.call (.flashBegin m.imageLength) true]) =
            { ledger log with hashed := [] } := by
          rw [ledger_append, ledger_append, ledger_append]
          rfl
        refine
          { opts := h.opts
            held := ⟨?_, ?_⟩
            opened := ⟨rfl, rfl⟩
            idle := fun hs => by cases hs
            receiving := fun _ => ⟨m, ?_⟩
            unselected := fun _ => ?_
            safe := .of_none (by simp [hselect, isSelectBoot]) }
        · rw [uses_of_some rfl, uses_of_none rfl, hflash₁]
          rfl
        · rw [uses_of_none rfl, uses_of_some rfl, hhash₁]
          rfl
        · refine
            { offered := ⟨nowMs, by simp [hoffer]⟩
              verified := by simp
              newer := hnewer'
              manifest := rfl
              imageLength := rfl
              contiguous := ?_
              hashed := ?_
              received := ?_
              within := Nat.zero_le _ }
          · rw [hledger]
            show Contiguous 0 (ledger log).writes
            rw [hwrites]
            trivial
          · rw [hledger]
            show [] = imageBytes (ledger log).writes
            rw [hwrites]
            rfl
          · rw [hledger]
            show (imageBytes (ledger log).writes).length = 0
            rw [hwrites]
            rfl
        · simp [hselect, isSelectBoot]

theorem Contiguous.append {start : ℕ} {writes : List (UInt32 × List UInt8)}
    (h : Contiguous start writes) {offset : UInt32} {data : List UInt8}
    (hoffset : offset.toNat = start + (imageBytes writes).length) :
    Contiguous start (writes ++ [(offset, data)]) := by
  induction writes generalizing start with
  | nil => exact ⟨by simpa [imageBytes] using hoffset, trivial⟩
  | cons w rest ih =>
    refine ⟨h.1, ih h.2 ?_⟩
    rw [hoffset]
    simp [imageBytes, Nat.add_assoc]

theorem imageBytes_append (writes : List (UInt32 × List UInt8)) (offset : UInt32)
    (data : List UInt8) : imageBytes (writes ++ [(offset, data)]) = imageBytes writes ++ data := by
  simp [imageBytes]

theorem Held.append (h : Held t log) {e : Event} (hflash : flashUse e = none)
    (hhash : hashUse e = none) : Held t (log ++ [e]) := by
  refine ⟨?_, ?_⟩
  · rw [uses_of_none hflash]
    exact h.flash
  · rw [uses_of_none hhash]
    exact h.hash

theorem inv_ended {state : State} (hstate : state = .failed ∨ state = .readyToReboot)
    (hopts : t.options = options) (hs : t.snapshot.state = state)
    (hopen : t.flashOpen = false ∧ t.hashOpen = false) (hheld : Held t log)
    (hsafe : BootSafe hash options log) : Inv hash options t log := by
  have hne : t.snapshot.state ≠ .idle ∧ t.snapshot.state ≠ .receiving := by
    rw [hs]
    rcases hstate with rfl | rfl <;> exact ⟨by decide, by decide⟩
  exact
    { opts := hopts
      held := hheld
      opened := by simp [hopen, hne.2]
      idle := fun h => absurd h hne.1
      receiving := fun h => absurd h hne.2
      unselected := fun h => absurd h (by simp [hne])
      safe := hsafe }

/-- **The end of the image**: the boot is selected only if digest and flash agree. -/
theorem finishImage_spec {m : Manifest} (hopts : t.options = options)
    (hopen : t.flashOpen = true ∧ t.hashOpen = true) (hheld : Held t log)
    (hselect : log.countP isSelectBoot = 0) (hm : Receiving options t m log)
    (hcomplete : t.snapshot.receivedBytes = m.imageLength) :
    Ensures hash (finishImage t) (fun out log' => Inv hash options out.2 log') log := by
  obtain ⟨hflash, hhash⟩ := hheld
  unfold finishImage
  refine ensures_ask fun digest hdigest => ?_
  cases digest with
  | none =>
    refine fail_spec hopts (Held.append ⟨hflash, hhash⟩ rfl rfl) (.of_none ?_) _
    simp [hselect, isSelectBoot]
  | some digest =>
    have hdigest' : digest = hash (ledger log).hashed := hdigest
    have hhash₁ : Matched false
        ((log ++ [Event.call .hashFinish (some digest)]).filterMap hashUse) := by
      rw [hopen.2] at hhash
      rw [uses_of_some rfl]
      exact matched_append_closed hhash
    have hflash₁ : Matched t.flashOpen
        ((log ++ [Event.call .hashFinish (some digest)]).filterMap flashUse) := by
      rw [uses_of_none rfl]
      exact hflash
    dsimp only
    split_ifs with hmismatch
    · refine fail_spec (t := { t with hashOpen := false }) hopts ⟨hflash₁, hhash₁⟩ (.of_none ?_) _
      simp [hselect, isSelectBoot]
    rw [hm.manifest, not_not, Option.map_some, Option.some.injEq] at hmismatch
    refine ensures_ask fun valid _ => ?_
    have hheld₂ : Held { t with hashOpen := false, flashOpen := false }
        ((log ++ [Event.call .hashFinish (some digest)]) ++ [Event.call .flashFinish valid]) := by
      refine ⟨?_, ?_⟩
      · rw [hopen.1] at hflash₁
        rw [uses_of_some rfl]
        exact matched_append_closed hflash₁
      · rw [uses_of_none rfl]
        exact hhash₁
    have hselect₂ : ((log ++ [Event.call .hashFinish (some digest)]) ++
        [Event.call .flashFinish valid]).countP isSelectBoot = 0 := by
      simp [hselect, isSelectBoot]
    cases valid with
    | false =>
      exact Program.wp_pure trivial
        (inv_ended (.inl rfl) hopts rfl ⟨rfl, rfl⟩ ⟨hheld₂.flash, hheld₂.hash⟩ (.of_none hselect₂))
    | true =>
      have hsel : Selectable hash options m
          ((log ++ [Event.call .hashFinish (some digest)]) ++ [Event.call .flashFinish true]) := by
        have hledger : ledger ((log ++ [Event.call .hashFinish (some digest)]) ++
            [Event.call .flashFinish true]) = ledger log := by
          rw [ledger_append, ledger_append]
          rfl
        refine
          { toOffered := (hm.toOffered.append _).append _
            contiguous := ?_
            complete := ?_
            digest := ?_
            finished := by simp }
        · rw [hledger]
          exact hm.contiguous
        · rw [hledger, hm.received, hcomplete]
        · rw [hledger, ← hm.hashed, ← hdigest', hmismatch]
      refine ensures_ask fun selected _ => ?_
      have hheld₃ := hheld₂.append (e := .call .selectBoot selected) rfl rfl
      have hsafe₃ := BootSafe.select hselect₂ hsel selected
      cases selected with
      | false =>
        exact Program.wp_pure trivial
          (inv_ended (.inl rfl) hopts rfl ⟨rfl, rfl⟩ ⟨hheld₃.flash, hheld₃.hash⟩ hsafe₃)
      | true =>
        exact Program.wp_pure trivial
          (inv_ended (.inr rfl) hopts rfl ⟨rfl, rfl⟩ ⟨hheld₃.flash, hheld₃.hash⟩ hsafe₃)

theorem toNat_add_length {received total : UInt32} {n : ℕ}
    (hle : received.toNat ≤ total.toNat) (hn : n ≤ (total - received).toNat) :
    (received + UInt32.ofNat n).toNat = received.toNat + n ∧
      received.toNat + n ≤ total.toNat ∧ (total - received).toNat = total.toNat - received.toNat := by
  have hsub : (total - received).toNat = total.toNat - received.toNat :=
    UInt32.toNat_sub_of_le _ _ (UInt32.le_iff_toNat_le.mpr hle)
  have hlt := total.toNat_lt
  rw [hsub] at hn
  refine ⟨?_, by omega, hsub⟩
  rw [UInt32.toNat_add, UInt32.toNat_ofNat']
  omega

/-- **A chunk**: it is accepted only at the offset where the image ends so far. -/
theorem write_spec (h : Inv hash options t log) {offset : UInt32} {data : List UInt8}
    {final : Bool} {nowMs : UInt64} (hpending : (ledger log).pending = some (offset, data)) :
    Ensures hash (write t offset data final nowMs)
      (fun out log' => Inv hash options out.2 log') log := by
  unfold write
  by_cases hbad : (data.length = 0 || maxChunkBytes < data.length ||
      t.snapshot.state ≠ .receiving) = true
  · rw [if_pos hbad]
    exact Program.wp_pure trivial h
  rw [if_neg hbad]
  have hstate : t.snapshot.state = .receiving := by
    simp only [Bool.or_eq_true, decide_eq_true_eq, not_or, not_not, ne_eq] at hbad
    exact hbad.2
  have hopen : t.flashOpen = true ∧ t.hashOpen = true := by simpa [hstate] using h.opened
  have hselect := h.unselected (.inr hstate)
  obtain ⟨m, hm⟩ := h.receiving hstate
  dsimp only
  by_cases htimeout : timedOut t nowMs = true
  · rw [if_pos htimeout]
    exact fail_spec h.opts h.held h.safe _
  rw [if_neg htimeout]
  by_cases hstale : (offset ≠ t.snapshot.receivedBytes ||
      (t.snapshot.imageLength - t.snapshot.receivedBytes).toNat < data.length ||
      (final && data.length ≠ (t.snapshot.imageLength - t.snapshot.receivedBytes).toNat) ||
      (!final && data.length = (t.snapshot.imageLength - t.snapshot.receivedBytes).toNat)) = true
  · rw [if_pos hstale]
    exact fail_spec h.opts h.held h.safe _
  rw [if_neg hstale]
  simp only [Bool.or_eq_true, Bool.and_eq_true, decide_eq_true_eq, not_or, not_and, not_not,
    Nat.not_lt, ne_eq, Bool.not_eq_true'] at hstale
  obtain ⟨⟨⟨hoffset, hfits⟩, hlast⟩, -⟩ := hstale
  rw [hm.imageLength] at hfits hlast
  obtain ⟨hreceived, hwithin, hremaining⟩ := toNat_add_length hm.within hfits
  refine ensures_ask fun hashed _ => ?_
  cases hashed with
  | false => exact fail_spec h.opts (h.held.append rfl rfl) (h.safe.append rfl) _
  | true =>
    refine ensures_ask fun written _ => ?_
    have hheld := (h.held.append (e := .call (.hashUpdate data) true) rfl rfl).append
      (e := .call (.flashWrite data) written) rfl rfl
    have hselect' : ((log ++ [Event.call (.hashUpdate data) true]) ++
        [Event.call (.flashWrite data) written]).countP isSelectBoot = 0 := by
      simp [hselect, isSelectBoot]
    cases written with
    | false => exact fail_spec h.opts hheld (.of_none hselect') _
    | true =>
      have hledger : ledger ((log ++ [Event.call (.hashUpdate data) true]) ++
          [Event.call (.flashWrite data) true]) =
          { ledger log with
            writes := (ledger log).writes ++ [(offset, data)]
            hashed := (ledger log).hashed ++ data } := by
        rw [ledger_append, ledger_append]
        simp only [Ledger.record, hpending, Option.toList_some]
      -- the transaction after the chunk
      set t' : Transaction :=
        { t with
          snapshot :=
            { t.snapshot with
              receivedBytes := t.snapshot.receivedBytes + UInt32.ofNat data.length }
          lastActivityMs := nowMs } with ht'
      have hreceiving : Receiving options t' m ((log ++ [Event.call (.hashUpdate data) true]) ++
          [Event.call (.flashWrite data) true]) := by
        refine
          { toOffered := (hm.toOffered.append _).append _
            manifest := hm.manifest
            imageLength := hm.imageLength
            contiguous := ?_
            hashed := ?_
            received := ?_
            within := by rw [ht', hreceived]; exact hwithin }
        · rw [hledger]
          refine hm.contiguous.append ?_
          rw [hm.received, hoffset, Nat.zero_add]
        · rw [hledger]
          show (ledger log).hashed ++ data = _
          rw [imageBytes_append, hm.hashed]
        · rw [hledger]
          show (imageBytes ((ledger log).writes ++ [(offset, data)])).length = _
          rw [imageBytes_append, List.length_append, hm.received, ht', hreceived]
      cases final with
      | false =>
        refine Program.wp_pure trivial ?_
        exact
          { opts := h.opts
            held := ⟨hheld.flash, hheld.hash⟩
            opened := h.opened
            idle := fun hs => by rw [show t'.snapshot.state = .receiving from hstate] at hs; cases hs
            receiving := fun _ => ⟨m, hreceiving⟩
            unselected := fun _ => hselect'
            safe := .of_none hselect' }
      | true =>
        refine finishImage_spec (t := t') h.opts hopen ⟨hheld.flash, hheld.hash⟩ hselect'
          hreceiving ?_
        apply UInt32.toNat_inj.mp
        rw [ht', hreceived]
        have hall := hlast rfl
        omega

theorem tick_spec (h : Inv hash options t log) (nowMs : UInt64) :
    Ensures hash (tick t nowMs) (fun out log' => Inv hash options out.2 log') log := by
  unfold tick
  split_ifs
  · exact fail_spec h.opts h.held h.safe _
  · exact Program.wp_pure trivial h

/-- **One request** keeps the invariant, whatever the adapters answer. -/
theorem inv_handle (h : Inv hash options t log) (request : Request) :
    Ensures hash (handle t request) (fun out log' => Inv hash options out.2 log')
      (log ++ [.request request]) := by
  have hinv := inv_request h request
  cases request with
  | offer m nowMs => exact offer_spec hinv (by simp)
  | write offset data final nowMs =>
    refine write_spec hinv ?_
    rw [ledger_append]
    rfl
  | tick nowMs => exact tick_spec hinv nowMs

theorem inv_reachable (h : Reachable hash options t log) : Inv hash options t log := by
  induction h with
  | create hcreate => exact inv_create hcreate
  | request _ hexec ih => exact hexec.sound (inv_handle ih _)

/-- **Boot selection is safe**, after every sequence of requests and with every failure of the
adapters: the boot is selected at most once, and only after the manifest was offered, is newer
and verified, the accepted chunks are contiguous from zero and make up the whole image, their hash
is the manifest's digest and the flash was finished.  Flash and hash are open exactly while the
image is received, and otherwise were never begun, or begun once and closed once; this includes
the end of a transaction by `destroy`. -/
theorem boot_selection_safe (h : Reachable hash options t log) :
    BootSafe hash options log ∧
      Matched (t.snapshot.state = .receiving) (log.filterMap flashUse) ∧
      Matched (t.snapshot.state = .receiving) (log.filterMap hashUse) ∧
      ∀ t' log', (destroy t).Exec (answers hash) log (some t') log' →
        Matched false (log'.filterMap flashUse) ∧ Matched false (log'.filterMap hashUse) := by
  have hinv := inv_reachable h
  refine ⟨hinv.safe, hinv.opened.1 ▸ hinv.held.flash, hinv.opened.2 ▸ hinv.held.hash, ?_⟩
  intro t' log' hexec
  obtain ⟨rfl, hheld, -⟩ := hexec.sound (closeOpenResources_spec hinv.held hinv.safe)
  exact ⟨hheld.flash, hheld.hash⟩

/-! ### Runs with given answers -/

/-- Adapters that succeed, but for the two finishing calls. -/
def reply (hash : List UInt8 → List UInt8) (hashFinishes flashFinishes : Bool)
    (log : List Event) (c : Call) : Answer c × List Event :=
  let answer : Answer c :=
    match c with
    | .verifyManifest _ | .hashBegin | .hashUpdate _ | .flashBegin _ | .flashWrite _
    | .selectBoot => true
    | .hashFinish => if hashFinishes then some (hash (ledger log).hashed) else none
    | .flashFinish => flashFinishes
    | .hashAbort | .flashAbort => ()
  (answer, log ++ [.call c answer])

theorem answers_reply (hashFinishes flashFinishes : Bool) (log : List Event) (c : Call) :
    answers hash log c (reply hash hashFinishes flashFinishes log c).1
      (reply hash hashFinishes flashFinishes log c).2 := by
  refine ⟨?_, rfl⟩
  cases c with
  | hashFinish => cases hashFinishes <;> trivial
  | _ => trivial

/-- The transaction and the log after the requests, with these answers. -/
def runRequests (hash : List UInt8 → List UInt8) (hashFinishes flashFinishes : Bool) :
    Transaction → List Event → List Request → Transaction × List Event
  | t, log, [] => (t, log)
  | t, log, request :: requests =>
    let out := (handle t request).run (reply hash hashFinishes flashFinishes)
      (log ++ [.request request])
    runRequests hash hashFinishes flashFinishes out.1.2 out.2 requests

theorem reachable_runRequests (hashFinishes flashFinishes : Bool)
    (h : Reachable hash options t log) (requests : List Request) :
    Reachable hash options (runRequests hash hashFinishes flashFinishes t log requests).1
      (runRequests hash hashFinishes flashFinishes t log requests).2 := by
  induction requests generalizing t log with
  | nil => exact h
  | cons request requests ih =>
    exact ih (.request h (Program.Exec.of_run (answers_reply _ _) _ _))

/-- A board running version 1.0.0. -/
def sampleOptions : Options :=
  ⟨[49, 46, 48, 46, 48, 0], [98, 0], 1, 4096, 30000, 600000⟩

/-- The SHA-256 of the one-byte image. -/
def sampleDigest : List UInt8 :=
  [0x4b, 0xf5, 0x12, 0x2f, 0x34, 0x45, 0x54, 0xc5, 0x3b, 0xde, 0x2e, 0xbb, 0x8c, 0xd2, 0xb7,
    0xe3, 0xd1, 0x60, 0x0a, 0xd6, 0x31, 0xc3, 0x85, 0xa5, 0xd7, 0xcc, 0xe2, 0x3c, 0x77, 0x85,
    0x45, 0x9a]

def sampleHash (bytes : List UInt8) : List UInt8 :=
  if bytes = [1] then sampleDigest else []

/-- Version 1.0.1 with an image of one byte. -/
def sampleManifest : Manifest :=
  ⟨[49, 46, 48, 46, 49, 0], [98, 0], 1, sampleDigest, [], 1, 1⟩

/-- The image is offered and written. -/
def sampleUpdate : List Request :=
  [.offer sampleManifest 0, .write 0 [1] true 1]

theorem sample_reachable (hashFinishes flashFinishes : Bool) :
    Reachable sampleHash sampleOptions
      (runRequests sampleHash hashFinishes flashFinishes { options := sampleOptions } []
        sampleUpdate).1
      (runRequests sampleHash hashFinishes flashFinishes { options := sampleOptions } []
        sampleUpdate).2 :=
  reachable_runRequests _ _ (.create (by decide)) _

theorem boot_selection_safe_update :
    let out := runRequests sampleHash true true { options := sampleOptions } [] sampleUpdate
    out.1.snapshot.state = .readyToReboot ∧ out.2.countP isSelectBoot = 1 ∧
      BootSafe sampleHash sampleOptions out.2 :=
  ⟨by decide, by decide, (boot_selection_safe (sample_reachable true true)).1⟩

/-- Every closing call counts, whatever it answers. -/
def hashCall : Event → Option Use
  | .call .hashBegin true => some .begun
  | .call .hashFinish _ => some .closed
  | .call .hashAbort _ => some .closed
  | _ => none

/-- A failed closing call does not count. -/
def flashSuccess : Event → Option Use
  | .call (.flashBegin _) true => some .begun
  | .call .flashFinish true => some .closed
  | .call .flashAbort _ => some .closed
  | _ => none

/-- A failed `hash_finish` is followed by an abort, and a failed `flash.finish` is not. -/
theorem boot_selection_limits :
    (∃ t log, Reachable sampleHash sampleOptions t log ∧
      log.filterMap hashCall = [.begun, .closed, .closed]) ∧
    ∃ t log, Reachable sampleHash sampleOptions t log ∧ t.snapshot.state = .failed ∧
      log.filterMap flashSuccess = [.begun] :=
  ⟨⟨_, _, sample_reachable false true, by decide⟩,
    ⟨_, _, sample_reachable true false, by decide, by decide⟩⟩

end RlcdDeck.OtaTransaction
