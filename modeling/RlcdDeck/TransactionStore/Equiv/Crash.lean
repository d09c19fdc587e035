import RlcdDeck.Effects.Frame
import RlcdDeck.TransactionStore.Equiv.Codecs

/-!
# Power losses

`Known`: what a store that has not failed has in memory is what a `create` would find.  Every
operation keeps this, whichever call of the storage fails (`known_of_reachable`).  A commit writes
the slot that is not active before the marker, so wherever it is cut off the storage has the record
that was active or the candidate (`commit_atomic`).
-/

namespace RlcdDeck.TransactionStore

open Effects Store

variable {o : Options} {s t : Store} {flash flash' : Flash} {key : StorageKey}
  {record candidate : TransactionRecord} {marker : Marker}

/-! ### Calls -/

theorem step_allocate {r : Bool} (h : Flash.Step flash .allocate r flash') : flash' = flash := by
  cases h
  · rfl
  · rfl

theorem step_read {capacity : ℕ} {r : ReadResult}
    (h : Flash.Step flash (.read key capacity) r flash') :
    flash' = flash ∧ (r = .error ∨ r = flash.get key capacity) := by
  cases h
  · exact ⟨rfl, .inr rfl⟩
  · exact ⟨rfl, .inl rfl⟩

/-- A call that changes a key changes it or leaves it, and has changed it if it answers true. -/
def Changed (flash : Flash) (key : StorageKey) (bytes : Option (List UInt8)) (ok : Bool)
    (flash' : Flash) : Prop :=
  (flash' = flash ∨ flash' = flash.put key bytes) ∧ (ok = true → flash' = flash.put key bytes)

theorem step_write {data : List UInt8} {r : Bool}
    (h : Flash.Step flash (.write key data) r flash') :
    Changed flash key (some data) r flash' := by
  cases h
  · exact ⟨.inr rfl, fun _ => rfl⟩
  · exact ⟨.inl rfl, nofun⟩
  · exact ⟨.inr rfl, nofun⟩

theorem step_erase {r : Bool} (h : Flash.Step flash (.erase key) r flash') :
    Changed flash key none r flash' := by
  cases h
  · exact ⟨.inr rfl, fun _ => rfl⟩
  · exact ⟨.inl rfl, nofun⟩
  · exact ⟨.inr rfl, nofun⟩

theorem Flash.put_of_ne {bytes : Option (List UInt8)} {other : StorageKey} (h : other ≠ key) :
    flash.put key bytes other = flash other :=
  if_neg h

/-! ### What a storage holds -/

/-- What a read of a record finds in a storage that works. -/
def Flash.readRecord (o : Options) (flash : Flash) (key : StorageKey) : RecordRead :=
  match flash.get key (recordHeaderSize + o.payloadCapacity + checksumSize) with
  | .ok bytes => .ok (decodeRecord o bytes)
  | .notFound => .notFound
  | .error => .error

/-- The marker in a storage. -/
def Flash.readMarker (o : Options) (flash : Flash) : Option Marker :=
  match flash.get .activeMarker markerSize with
  | .ok bytes => (decodeMarker o bytes).toOption
  | .notFound => none
  | .error => none

/-- The record of a storage that is active. -/
def Flash.active (o : Options) (flash : Flash) : Option TransactionRecord :=
  (flash.readMarker o).bind fun marker =>
    (matchesGeneration (flash.readRecord o (slotKey marker.activeSlot)) marker.activeGeneration).or
      (marker.previousGeneration.bind fun generation =>
        matchesGeneration (flash.readRecord o (slotKey marker.previousSlot)) generation)

theorem active_congr (hmarker : flash' .activeMarker = flash .activeMarker)
    (hslot : ∀ slot, flash' (slotKey slot) = flash (slotKey slot)) :
    flash'.active o = flash.active o := by
  have hrecord (slot : Slot) :
      flash'.readRecord o (slotKey slot) = flash.readRecord o (slotKey slot) := by
    unfold Flash.readRecord Flash.get
    rw [hslot]
  unfold Flash.active Flash.readMarker Flash.get
  simp only [hmarker, hrecord]

theorem generation_ne_of_record (h : flash.readRecord o key = .ok (.ok record)) :
    record.generation ≠ 0 := by
  unfold Flash.readRecord at h
  split at h
  · exact (sound_of_decodeRecord (RecordRead.ok.inj h)).2
  · cases h
  · cases h

theorem matchesGeneration_self (h : flash.readRecord o key = .ok (.ok record)) :
    matchesGeneration (flash.readRecord o key) record.generation = some record := by
  rw [h]
  exact if_pos rfl

/-- The marker of a storage speaks of a record in its slot. -/
structure Names (o : Options) (flash : Flash) (slot : Slot) (record : TransactionRecord) :
    Prop where
  reads : flash.readRecord o (slotKey slot) = .ok (.ok record)
  marks : ∃ marker, flash.readMarker o = some marker ∧ marker.activeSlot = slot ∧
    marker.activeGeneration = record.generation

theorem Names.active {slot : Slot} (h : Names o flash slot record) :
    flash.active o = some record := by
  obtain ⟨marker, hmarker, rfl, hgeneration⟩ := h.marks
  unfold Flash.active
  rw [hmarker, Option.bind_some, hgeneration, matchesGeneration_self h.reads, Option.some_or]

theorem active_of_absent (h : flash .activeMarker = none) : flash.active o = none := by
  unfold Flash.active Flash.readMarker Flash.get
  rw [h]
  rfl

theorem slotKey_ne (slot : Slot) : slotKey slot ≠ .activeMarker ∧ slotKey slot ≠ .candidate := by
  unfold slotKey
  split_ifs
  · exact ⟨nofun, nofun⟩
  · exact ⟨nofun, nofun⟩

theorem record_put_of_ne {bytes : Option (List UInt8)} {other : StorageKey} (h : other ≠ key) :
    (flash.put key bytes).readRecord o other = flash.readRecord o other := by
  unfold Flash.readRecord Flash.get
  rw [Flash.put_of_ne h]

theorem names_of_written
    (hrecord : flash.readRecord o (slotKey marker.activeSlot) = .ok (.ok record))
    (hgeneration : marker.activeGeneration = record.generation)
    (hprevious : marker.previousGeneration ≠ some 0) :
    Names o (flash.put .activeMarker (some (encodeMarker o marker))) marker.activeSlot record := by
  constructor
  · rw [record_put_of_ne (slotKey_ne _).1, hrecord]
  · refine ⟨marker, ?_, rfl, hgeneration⟩
    have hactive : marker.activeGeneration ≠ 0 := hgeneration ▸ generation_ne_of_record hrecord
    unfold Flash.readMarker
    rw [Flash.get_put (length_encodeMarker o marker).le]
    dsimp only
    rw [decodeMarker_encodeMarker o hactive hprevious]
    rfl

/-! ### What a store knows of its storage -/

/-- What a store that has not failed knows of its storage. -/
structure Known (o : Options) (s : Store) (flash : Flash) : Prop where
  active : flash.active o = s.active
  reads : ∀ record, s.active = some record →
    flash.readRecord o (slotKey s.activeSlot) = .ok (.ok record)
  names : ∀ record, s.active = some record → s.markerMatchesActive = true →
    Names o flash s.activeSlot record
  absent : s.active = none → s.markerPresent = false → flash .activeMarker = none

/-- The marker names the active record, or there is neither. -/
structure Prepared (o : Options) (s : Store) (flash : Flash) : Prop where
  names : ∀ record, s.active = some record → Names o flash s.activeSlot record
  absent : s.active = none → flash .activeMarker = none

theorem Prepared.active (h : Prepared o s flash) : flash.active o = s.active := by
  cases hactive : s.active with
  | none => exact active_of_absent (h.absent hactive)
  | some record => exact (h.names record hactive).active

theorem Names.known (ht : t.active = some record) (h : Names o flash t.activeSlot record) :
    Known o t flash := by
  have hall : ∀ other, t.active = some other → Names o flash t.activeSlot other := by
    intro other hother
    obtain rfl := Option.some.inj (ht.symm.trans hother)
    exact h
  refine ⟨h.active.trans ht.symm, ?_, ?_, fun hnone => absurd (ht.symm.trans hnone) nofun⟩
  · exact fun other hother => (hall other hother).reads
  · exact fun other hother _ => hall other hother

theorem Known.put_candidate {bytes : Option (List UInt8)} (h : Known o s flash) :
    Known o s (flash.put .candidate bytes) := by
  have hrecord : ∀ slot, (flash.put .candidate bytes).readRecord o (slotKey slot) =
      flash.readRecord o (slotKey slot) := fun slot => record_put_of_ne (slotKey_ne slot).2
  constructor
  · rw [← h.active]
    exact active_congr rfl fun slot => Flash.put_of_ne (slotKey_ne slot).2
  · intro record hactive
    rw [hrecord, h.reads record hactive]
  · intro record hactive hmatches
    have hnames := h.names record hactive hmatches
    exact ⟨(hrecord _).trans hnames.reads, hnames.marks⟩
  · exact h.absent

theorem Prepared.put_slot {bytes : Option (List UInt8)} (h : Prepared o s flash) :
    Prepared o s (flash.put (slotKey s.nextSlot) bytes) := by
  have hmarker : (flash.put (slotKey s.nextSlot) bytes) .activeMarker = flash .activeMarker :=
    Flash.put_of_ne (slotKey_ne _).1.symm
  constructor
  · intro record hactive
    obtain ⟨hrecord, hnamed⟩ := h.names record hactive
    constructor
    · rw [record_put_of_ne, hrecord]
      have hnext : ∀ slot : Slot, slotKey slot ≠ slotKey (1 - slot) := by decide
      unfold nextSlot
      rw [hactive]
      exact hnext s.activeSlot
    · unfold Flash.readMarker Flash.get at hnamed ⊢
      rw [hmarker]
      exact hnamed
  · exact fun hactive => hmarker.trans (h.absent hactive)

/-! ### The calls of the operations -/

section Operations

variable {post : Bool → Flash → Prop} {cut : Flash → Prop}

theorem readEncodedRecord_wp {post : RecordRead → Flash → Prop} (hcut : cut flash)
    (hpost : ∀ found, found = .error ∨ found = flash.readRecord o key → post found flash) :
    (readEncodedRecord o key).wp Flash.Step post cut flash := by
  have herror := hpost .error (.inl rfl)
  replace hpost := hpost _ (.inr rfl)
  refine Program.wp_perform hcut fun allocated flash' hstep => ?_
  obtain rfl := step_allocate hstep
  cases allocated with
  | false => exact Program.wp_pure hcut herror
  | true =>
    refine Program.wp_perform hcut fun answer flash'' hstep => ?_
    obtain ⟨rfl, rfl | rfl⟩ := step_read hstep
    · exact Program.wp_pure hcut herror
    unfold Flash.readRecord at hpost
    revert hpost
    cases flash''.get key (recordHeaderSize + o.payloadCapacity + checksumSize) with
    | notFound => exact fun hpost => Program.wp_pure hcut hpost
    | error => exact fun hpost => Program.wp_pure hcut hpost
    | ok bytes =>
      intro hpost
      dsimp only at hpost ⊢
      cases hdecoded : decodeRecord o bytes with
      | error failure =>
        rw [hdecoded] at hpost
        exact Program.wp_pure hcut hpost
      | ok record =>
        rw [hdecoded] at hpost
        refine Program.wp_perform hcut fun allocated flash' hstep => ?_
        obtain rfl := step_allocate hstep
        cases allocated with
        | false => exact Program.wp_pure hcut herror
        | true => exact Program.wp_pure hcut hpost

theorem writeRecord_wp (hcut : cut flash) (hput : ∀ bytes, cut (flash.put key (some bytes)))
    (hfailed : ∀ flash', cut flash' → post false flash')
    (hwritten : ∀ bytes, (flash.put key (some bytes)).readRecord o key = .ok (.ok record) →
      post true (flash.put key (some bytes))) :
    (writeRecord o key record).wp Flash.Step post cut flash := by
  refine Program.wp_perform hcut fun allocated flash' hstep => ?_
  obtain rfl := step_allocate hstep
  cases allocated with
  | false => exact Program.wp_pure hcut (hfailed _ hcut)
  | true =>
    simp only [Bool.not_true, Bool.false_eq_true, if_false]
    cases encodeRecord o record with
    | none => exact Program.wp_pure hcut (hfailed _ hcut)
    | some encoded =>
      refine Program.wp_perform hcut fun written flash'' hstep => ?_
      obtain ⟨heither, htrue⟩ := step_write hstep
      have hcut'' : cut flash'' := by
        rcases heither with rfl | rfl
        · exact hcut
        · exact hput encoded
      cases written with
      | false => exact Program.wp_pure hcut'' (hfailed _ hcut'')
      | true =>
        obtain rfl := htrue rfl
        refine Program.wp_bind (readEncodedRecord_wp hcut'' ?_)
        rintro found (rfl | rfl)
        · exact Program.wp_pure hcut'' (hfailed _ hcut'')
        · refine Program.wp_pure hcut'' ?_
          by_cases hsame : (flash'.put key (some encoded)).readRecord o key = .ok (.ok record)
          · rw [decide_eq_true hsame]
            exact hwritten encoded hsame
          · rw [decide_eq_false hsame]
            exact hfailed _ hcut''

theorem writeAndVerifyMarker_wp {bytes : List UInt8} (hcut : cut flash)
    (hput : cut (flash.put .activeMarker (some bytes))) (hfailed : post false flash)
    (hfailedPut : post false (flash.put .activeMarker (some bytes)))
    (hwritten : post true (flash.put .activeMarker (some bytes))) :
    (writeAndVerifyMarker bytes).wp Flash.Step post cut flash := by
  refine Program.wp_perform hcut fun written flash' hstep => ?_
  obtain ⟨heither, htrue⟩ := step_write hstep
  cases written with
  | false =>
    rcases heither with rfl | rfl
    · exact Program.wp_pure hcut hfailed
    · exact Program.wp_pure hput hfailedPut
  | true =>
    obtain rfl := htrue rfl
    refine Program.wp_perform hput fun answer flash'' hstep => ?_
    obtain ⟨rfl, -⟩ := step_read hstep
    refine Program.wp_pure hput ?_
    by_cases hsame : answer = .ok bytes
    · rw [decide_eq_true hsame]
      exact hwritten
    · rw [decide_eq_false hsame]
      exact hfailedPut

theorem rollbackMarker_wp (hcut : cut flash)
    (hrecord : ∀ record, s.active = some record →
      flash.readRecord o (slotKey s.activeSlot) = .ok (.ok record))
    (hactive : ∀ flash' : Flash, flash'.active o = s.active → cut flash')
    (hpost : ∀ ok flash', cut flash' → post ok flash') :
    (rollbackMarker (s.activeMarker o)).wp Flash.Step post cut flash := by
  have hdone : ∀ {bytes ok flash'}, Changed flash .activeMarker bytes ok flash' →
      (flash.put .activeMarker bytes).active o = s.active →
      (pure ok : Storage Bool).wp Flash.Step post cut flash' := by
    rintro bytes ok flash' ⟨rfl | rfl, -⟩ hback
    · exact Program.wp_pure hcut (hpost _ _ hcut)
    · exact Program.wp_pure (hactive _ hback) (hpost _ _ (hactive _ hback))
  unfold activeMarker
  cases hstore : s.active with
  | none =>
    refine ⟨hcut, fun ok flash' hstep => hdone (step_erase hstep) ?_⟩
    rw [hstore]
    exact active_of_absent (Flash.put_self _ _ _)
  | some record =>
    refine ⟨hcut, fun ok flash' hstep => hdone (step_write hstep) ?_⟩
    rw [hstore]
    exact (@names_of_written o flash record ⟨s.activeSlot, record.generation, none⟩
      (hrecord record hstore) rfl nofun).active

end Operations

/-! ### Committing -/

/-- The marker is made to name the active record before a slot is written. -/
theorem prepareMarker_wp (h : Known o s flash) :
    (s.prepareMarker o).wp Flash.Step
      (fun out flash' => out.2.active = s.active ∧ (out.1 = true → Prepared o out.2 flash'))
      (fun flash' => flash'.active o = s.active) flash := by
  have hstart := h.active
  unfold prepareMarker activeMarker
  cases hactive : s.active with
  | none =>
    rw [hactive] at hstart
    dsimp only [Option.map_none]
    split_ifs with hpresent
    · refine Program.wp_pure hstart ⟨hactive, fun _ => ⟨?_, fun _ => ?_⟩⟩
      · intro record hrecord
        rw [hactive] at hrecord
        cases hrecord
      · exact h.absent hactive (by simpa using hpresent)
    · refine Program.wp_perform hstart fun erased flash' hstep => ?_
      obtain ⟨heither, htrue⟩ := step_erase hstep
      have hcut : flash'.active o = none := by
        rcases heither with rfl | rfl
        · exact hstart
        · exact active_of_absent (Flash.put_self _ _ _)
      cases erased with
      | false => exact Program.wp_pure hcut ⟨hactive, nofun⟩
      | true =>
        refine Program.wp_pure hcut ⟨rfl, fun _ => ⟨nofun, fun _ => ?_⟩⟩
        · rw [htrue rfl]
          exact Flash.put_self _ _ _
  | some record =>
    rw [hactive] at hstart
    dsimp only [Option.map_some]
    -- a marker of the previous slot is replaced by one of the active record alone
    split_ifs with hmatches
    · refine Program.wp_pure hstart ⟨hactive, fun _ => ⟨?_, fun hnone => ?_⟩⟩
      · exact fun record hrecord => h.names record hrecord hmatches
      · exact absurd (hactive.symm.trans hnone) nofun
    · have hnames : Names o (flash.put .activeMarker (some (encodeMarker o
          ⟨s.activeSlot, record.generation, none⟩))) s.activeSlot record :=
        @names_of_written o flash record ⟨s.activeSlot, record.generation, none⟩
          (h.reads record hactive) rfl nofun
      refine Program.wp_bind (writeAndVerifyMarker_wp hstart hnames.active ?_ ?_ ?_)
      · exact Program.wp_pure hstart ⟨hactive, nofun⟩
      · exact Program.wp_pure hnames.active ⟨hactive, nofun⟩
      · refine Program.wp_pure hnames.active ⟨rfl, fun _ => ⟨?_, nofun⟩⟩
        intro other hother
        obtain rfl := Option.some.inj hother
        exact hnames

/-- What a commit leaves, wherever it is cut off. -/
def Either (o : Options) (s : Store) (candidate : TransactionRecord) (flash : Flash) : Prop :=
  flash.active o = s.active ∨ flash.active o = some candidate

/-- How a commit ends. -/
def Ended (o : Options) (s : Store) (candidate : TransactionRecord) (out : UpdateResult × Store)
    (flash : Flash) : Prop :=
  (out.2.storageFaulted = false → Known o out.2 flash) ∧
    if out.1 = .updated then flash.active o = some candidate ∧ out.2.active = some candidate
    else out.2.active = s.active

theorem known_committed (h : Names o flash s.nextSlot candidate)
    (erased : Bool) (status : RecordStatus) (hchanged : Changed flash .candidate none erased flash')
    (left : Option TransactionRecord) :
    flash'.active o = some candidate ∧
      Known o { s with
        active := some candidate, activeSlot := s.nextSlot, recordStatus := .valid,
        markerPresent := true, markerMatchesActive := true, candidate := left,
        candidateRecordStatus := status } flash' := by
  have hknown : Known o { s with
      active := some candidate, activeSlot := s.nextSlot, recordStatus := .valid,
      markerPresent := true, markerMatchesActive := true, candidate := left,
      candidateRecordStatus := status } flash := h.known rfl
  rcases hchanged.1 with rfl | rfl
  · exact ⟨h.active, hknown⟩
  · exact ⟨hknown.put_candidate.active, hknown.put_candidate⟩

theorem commit_wp (h : Known o s flash) (hcandidate : s.candidate = some candidate) :
    (s.commit o).wp Flash.Step (Ended o s candidate) (Either o s candidate) flash := by
  have hfailed : ∀ {t : Store} {flash'}, t.active = s.active → Either o s candidate flash' →
      Program.wp Flash.Step (Ended o s candidate) (Either o s candidate)
        (pure (.storageFailure, t.setStorageFailure) : Storage _) flash' :=
    fun hactive hcut => Program.wp_pure hcut ⟨nofun, hactive⟩
  unfold commit
  rw [hcandidate]
  dsimp only
  split_ifs
  · exact Program.wp_pure (.inl h.active) ⟨fun _ => h, rfl⟩
  refine Program.wp_seq (prepareMarker_wp h) (fun _ hcut => .inl hcut) ?_
  rintro ⟨prepared, t⟩ flash₁ hcut ⟨hactive, hprepared⟩
  dsimp only at hactive hprepared ⊢
  cases prepared with
  | false => exact hfailed hactive (.inl hcut)
  | true =>
  have hprepared := hprepared rfl
  have hslot : ∀ bytes, Either o s candidate (flash₁.put (slotKey t.nextSlot) bytes) :=
    fun bytes => .inl (hprepared.put_slot.active.trans hactive)
  refine Program.wp_bind (writeRecord_wp (.inl hcut) (fun bytes => hslot _)
    (fun flash' hcut => hfailed hactive hcut) fun bytes hrecord => ?_)
  -- the slot is written, the marker still names the active record
  have hprevious : (t.active.map fun active => active.generation) ≠ some 0 := by
    cases ht : t.active with
    | none => nofun
    | some active =>
      exact fun hzero => generation_ne_of_record (hprepared.names active ht).reads
        (Option.some.inj hzero)
  generalize hmarker : (⟨t.nextSlot, candidate.generation,
    t.active.map fun active => active.generation⟩ : Marker) = marker
  have hnames : Names o ((flash₁.put (slotKey t.nextSlot) (some bytes)).put .activeMarker
      (some (encodeMarker o marker))) t.nextSlot candidate := by
    subst hmarker
    exact @names_of_written o _ candidate ⟨t.nextSlot, candidate.generation, _⟩ hrecord rfl
      hprevious
  have hprepared := @Prepared.put_slot o t flash₁ (some bytes) hprepared
  generalize flash₁.put (slotKey t.nextSlot) (some bytes) = flash₂ at *
  have hcut₂ : Either o s candidate flash₂ := .inl (hprepared.active.trans hactive)
  -- a rollback may fail as well, and the store counts as faulted after it
  have hback : ∀ {flash₃}, Either o s candidate flash₃ →
      (∀ record, t.active = some record →
        flash₃.readRecord o (slotKey t.activeSlot) = .ok (.ok record)) →
      Program.wp Flash.Step (Ended o s candidate) (Either o s candidate)
        (rollbackMarker (t.activeMarker o) >>= fun _ =>
          pure (.storageFailure, t.setStorageFailure)) flash₃ := by
    intro flash₃ hcut hrecord
    refine Program.wp_bind (rollbackMarker_wp hcut hrecord ?_ ?_)
    · exact fun flash' hsame => .inl (hsame.trans hactive)
    · exact fun _ flash' hcut => hfailed hactive hcut
  refine Program.wp_bind (writeAndVerifyMarker_wp hcut₂ (.inr hnames.active) ?_ ?_ ?_)
  · exact hback hcut₂ fun record hrecord => (hprepared.names record hrecord).reads
  · refine hback (.inr hnames.active) fun record hrecord => ?_
    rw [record_put_of_ne (slotKey_ne _).1]
    exact (hprepared.names record hrecord).reads
  · -- the marker is verified, so the answer is the same whether or not the candidate is erased
    refine Program.wp_perform (.inr hnames.active) fun erased flash₄ hstep => ?_
    have hchanged := step_erase hstep
    cases erased with
    | false =>
      obtain ⟨hactive', hknown⟩ := known_committed hnames false .ioError hchanged t.candidate
      exact Program.wp_pure (.inr hactive') ⟨fun _ => hknown, hactive', rfl⟩
    | true =>
      obtain ⟨hactive', hknown⟩ := known_committed hnames true .empty hchanged none
      exact Program.wp_pure (.inr hactive') ⟨fun _ => hknown, hactive', rfl⟩

/-! ### The other operations -/

theorem stage_wp (payload : List UInt8) (h : s.storageFaulted = false → Known o s flash) :
    (s.stage o payload).wp Flash.Step
      (fun out flash' => (out.2.storageFaulted = false → Known o out.2 flash') ∧
        out.2.active = s.active ∧ (out.1 = .updated → out.2.storageFaulted = false ∧
          out.2.candidate = some ⟨payload, s.nextGeneration⟩))
      (fun flash' => s.storageFaulted = false → flash'.active o = s.active) flash := by
  have hcut := fun hs => (h hs).active
  unfold stage
  split_ifs with hinvalid hfaulted
  · exact Program.wp_pure hcut ⟨h, rfl, nofun⟩
  · exact Program.wp_pure hcut ⟨h, rfl, nofun⟩
  · rw [Bool.not_eq_true] at hfaulted
    have hknown := h hfaulted
    refine Program.wp_bind (writeRecord_wp hcut ?_ ?_ ?_)
    · exact fun _ _ => hknown.put_candidate.active
    · exact fun _ hcut => Program.wp_pure hcut ⟨nofun, rfl, nofun⟩
    · intro bytes _
      have hput := @Known.put_candidate o s flash (some bytes) hknown
      refine Program.wp_pure (fun _ => hput.active) ⟨fun _ => ?_, rfl, fun _ => ⟨hfaulted, rfl⟩⟩
      exact ⟨hput.active, hput.reads, hput.names, hput.absent⟩

theorem Changed.absent {ok : Bool} (h : Changed flash key none ok flash')
    (habsent : flash .activeMarker = none) : flash' .activeMarker = none := by
  rcases h.1 with rfl | rfl
  · exact habsent
  · unfold Flash.put
    split_ifs
    · rfl
    · exact habsent

theorem clear_wp : s.clear.wp Flash.Step
    (fun out flash' => out.2.storageFaulted = false → Known o out.2 flash')
    (fun _ => True) flash := by
  refine Program.wp_perform trivial fun marker flash₁ hstep => ?_
  have h₁ : marker = true → flash₁ .activeMarker = none := by
    intro htrue
    rw [(step_erase hstep).2 htrue]
    exact Flash.put_self _ _ _
  refine Program.wp_perform trivial fun erasedCandidate flash₂ hstep₂ => ?_
  refine Program.wp_perform trivial fun slot0 flash₃ hstep₃ => ?_
  refine Program.wp_perform trivial fun slot1 flash₄ hstep₄ => ?_
  refine Program.wp_perform trivial fun metadata flash₅ hstep₅ => ?_
  split_ifs with hall
  · simp only [Bool.and_eq_true] at hall
    have habsent : flash₅ .activeMarker = none :=
      (step_erase hstep₅).absent ((step_erase hstep₄).absent
        ((step_erase hstep₃).absent ((step_erase hstep₂).absent (h₁ hall.1.1.1.1))))
    exact Program.wp_pure trivial fun _ =>
      ⟨active_of_absent habsent, nofun, nofun, fun _ _ => habsent⟩
  · exact Program.wp_pure trivial nofun

theorem matchesGeneration_some {found : RecordRead} {generation : UInt32}
    (h : matchesGeneration found generation = some record) :
    found = .ok (.ok record) ∧ record.generation = generation := by
  unfold matchesGeneration at h
  split at h
  · split_ifs at h with hgeneration
    obtain rfl := Option.some.inj h
    exact ⟨rfl, hgeneration⟩
  · cases h

theorem known_unrecovered {selected previous : RecordRead} (hactive : s.active = none)
    (hpresent : s.markerPresent = true)
    (hnone : selected ≠ .error → previous ≠ .error → flash.active o = none)
    (hfaulted : (s.unrecovered selected previous).storageFaulted = false) :
    Known o (s.unrecovered selected previous) flash := by
  have hsame : (s.unrecovered selected previous).active = none :=
    (unrecovered_active s selected previous).trans hactive
  unfold unrecovered at hfaulted
  split_ifs at hfaulted with herror
  · cases hfaulted
  · rw [not_or] at herror
    refine ⟨(hnone herror.1 herror.2).trans hsame.symm, ?_, ?_, fun _ habsent => ?_⟩
    · exact fun record hrecord => absurd (hsame.symm.trans hrecord) nofun
    · exact fun record hrecord => absurd (hsame.symm.trans hrecord) nofun
    · have hkept : (s.unrecovered selected previous).markerPresent = true := by
        unfold unrecovered
        rw [if_neg (not_or.mpr herror)]
        split
        · exact hpresent
        · exact hpresent
      exact absurd (hkept.symm.trans habsent) nofun

/-- A store that has just been allocated. -/
def Fresh (s : Store) : Prop :=
  s.active = none ∧ s.markerPresent = false ∧ s.markerMatchesActive = false

theorem loadCandidate_wp :
    (loadCandidate o {}).wp Flash.Step (fun t flash' => Fresh t ∧ flash' = flash)
      (fun _ => True) flash := by
  unfold loadCandidate
  refine Program.wp_bind (readEncodedRecord_wp trivial fun found _ => ?_)
  split
  · exact Program.wp_pure trivial ⟨⟨rfl, rfl, rfl⟩, rfl⟩
  · exact Program.wp_pure trivial ⟨⟨rfl, rfl, rfl⟩, rfl⟩
  · exact Program.wp_pure trivial ⟨⟨rfl, rfl, rfl⟩, rfl⟩
  · exact Program.wp_pure trivial ⟨⟨rfl, rfl, rfl⟩, rfl⟩

/-- What `create` recovers without a failure is the active record of the storage. -/
theorem loadActive_wp (hs : Fresh s) :
    (s.loadActive o).wp Flash.Step
      (fun t flash' => t.storageFaulted = false → Known o t flash') (fun _ => True) flash := by
  obtain ⟨hactive, hpresent, hmatches⟩ := hs
  have hrecord : ∀ {t : Store} {P : TransactionRecord → Prop}, t.active = s.active →
      ∀ record, t.active = some record → P record :=
    fun ht record hrecord => absurd ((ht.trans hactive).symm.trans hrecord) nofun
  unfold loadActive
  refine Program.wp_perform trivial fun answer flash' hstep => ?_
  obtain ⟨rfl, hanswer⟩ := step_read hstep
  rcases hanswer with rfl | rfl
  · exact Program.wp_pure trivial nofun
  cases hget : Flash.get _ .activeMarker markerSize with
  | error => exact Program.wp_pure trivial nofun
  | notFound =>
    have habsent : flash' .activeMarker = none := by
      unfold Flash.get at hget
      split at hget
      · assumption
      · split_ifs at hget
    have hnone := (active_of_absent (o := o) habsent).trans hactive.symm
    refine Program.wp_pure trivial fun _ => ⟨hnone, ?_, ?_, ?_⟩
    · exact hrecord rfl
    · exact hrecord rfl
    · exact fun _ _ => habsent
  | ok bytes =>
    dsimp only
    cases hdecoded : decodeMarker o bytes with
    | error failure =>
      have hnone : Flash.active o flash' = none := by
        unfold Flash.active Flash.readMarker
        rw [hget]
        dsimp only
        rw [hdecoded]
        rfl
      refine Program.wp_pure trivial fun _ => ⟨hnone.trans hactive.symm, ?_, ?_, nofun⟩
      · exact hrecord rfl
      · exact hrecord rfl
    | ok marker =>
      have hmarker : Flash.readMarker o flash' = some marker := by
        unfold Flash.readMarker
        rw [hget]
        dsimp only
        rw [hdecoded]
        rfl
      refine Program.wp_bind (readEncodedRecord_wp trivial fun selected hselected => ?_)
      cases hmatch : matchesGeneration selected marker.activeGeneration with
      | some record =>
        obtain ⟨hfound, hgeneration⟩ := matchesGeneration_some hmatch
        have hread := hselected.resolve_left (by rw [hfound]; nofun)
        have hnames : Names o flash' marker.activeSlot record :=
          ⟨hread.symm.trans hfound, marker, hmarker, rfl, hgeneration.symm⟩
        exact Program.wp_pure trivial fun _ => hnames.known rfl
      | none =>
        -- a slot that cannot be read is not one that does not match: the store is faulted then
        have hrest : selected ≠ .error → flash'.active o =
            marker.previousGeneration.bind fun generation =>
              matchesGeneration (flash'.readRecord o (slotKey marker.previousSlot)) generation := by
          intro herror
          obtain rfl := hselected.resolve_left herror
          unfold Flash.active
          rw [hmarker, Option.bind_some, hmatch, Option.none_or]
        dsimp only
        cases hprevious : marker.previousGeneration with
        | none =>
          rw [hprevious] at hrest
          exact Program.wp_pure trivial (known_unrecovered hactive rfl fun herror _ => hrest herror)
        | some generation =>
          rw [hprevious, Option.bind_some] at hrest
          refine Program.wp_bind (readEncodedRecord_wp trivial fun previous hread => ?_)
          cases hold : matchesGeneration previous generation with
          | none =>
            refine Program.wp_pure trivial (known_unrecovered hactive rfl fun herror hfailed => ?_)
            rw [hrest herror, ← hread.resolve_left hfailed, hold]
          | some record =>
            obtain ⟨rfl, -⟩ := matchesGeneration_some hold
            have hfound := hread.resolve_left nofun
            refine Program.wp_pure trivial ?_
            split_ifs with herror
            · exact nofun
            · refine fun _ => ⟨?_, ?_, fun _ _ habsurd => ?_, nofun⟩
              · rw [hrest herror, ← hfound, hold]
              · intro other hother
                obtain rfl := Option.some.inj hother
                exact hfound.symm
              · exact absurd (hmatches.symm.trans habsurd) nofun

theorem create_wp : (create o).wp Flash.Step
    (fun out flash' => ∀ t, out = some t → t.storageFaulted = false → Known o t flash')
    (fun _ => True) flash := by
  refine Program.wp_perform trivial fun allocated flash' hstep => ?_
  cases allocated with
  | false => exact Program.wp_pure trivial fun _ habsurd => absurd habsurd nofun
  | true =>
    refine Program.wp_bind (Program.wp_mono loadCandidate_wp (fun _ _ => trivial) ?_)
    rintro t flash₁ ⟨ht, -⟩
    refine Program.wp_bind (Program.wp_mono (loadActive_wp ht) (fun _ _ => trivial) ?_)
    intro u flash₂ hknown
    refine Program.wp_pure trivial fun v hv => ?_
    obtain rfl := Option.some.inj hv
    exact hknown

/-! ### Runs -/

/-- A store, if there is one, and its storage, after any operations and losses of power. -/
inductive Reachable (o : Options) : Option Store → Flash → Prop
  | start (flash : Flash) : Reachable o none flash
  | powerLost {store : Option Store} {flash : Flash} : Reachable o store flash →
    Reachable o none flash
  | created {flash flash' : Flash} {out : Option (Option Store)} : Reachable o none flash →
    Program.Exec Flash.Step (create o) flash out flash' → Reachable o out.join flash'
  | staged {s : Store} {flash flash' : Flash} {payload : List UInt8}
    {out : Option (UpdateResult × Store)} : Reachable o (some s) flash →
    Program.Exec Flash.Step (s.stage o payload) flash out flash' →
    Reachable o (out.map Prod.snd) flash'
  | committed {s : Store} {flash flash' : Flash} {out : Option (UpdateResult × Store)} :
    Reachable o (some s) flash → Program.Exec Flash.Step (s.commit o) flash out flash' →
    Reachable o (out.map Prod.snd) flash'
  | cleared {s : Store} {flash flash' : Flash} {out : Option (Bool × Store)} :
    Reachable o (some s) flash → Program.Exec Flash.Step s.clear flash out flash' →
    Reachable o (out.map Prod.snd) flash'

theorem known_of_exec {α : Type} {p : Storage (α × Store)} {out : Option (α × Store)}
    {cut : Flash → Prop} {post : α × Store → Flash → Prop}
    (hexec : Program.Exec Flash.Step p flash out flash') (hwp : p.wp Flash.Step post cut flash)
    (hpost : ∀ out flash', post out flash' → out.2.storageFaulted = false → Known o out.2 flash') :
    ∀ s, out.map Prod.snd = some s → s.storageFaulted = false → Known o s flash' := by
  intro s hs
  obtain ⟨last, rfl, rfl⟩ := Option.map_eq_some_iff.mp hs
  exact hpost _ _ (hexec.sound hwp)

/-- A store that has not failed knows what its storage holds. -/
theorem known_of_reachable {store : Option Store} (h : Reachable o store flash) :
    ∀ s, store = some s → s.storageFaulted = false → Known o s flash := by
  induction h with
  | start => exact fun _ habsurd => absurd habsurd nofun
  | powerLost => exact fun _ habsurd => absurd habsurd nofun
  | created _ hexec _ =>
    intro s hs
    obtain rfl := Option.join_eq_some_iff.mp hs
    exact hexec.sound create_wp s rfl
  | staged _ hexec ih => exact known_of_exec hexec (stage_wp _ (ih _ rfl)) fun _ _ h => h.1
  | cleared _ hexec _ => exact known_of_exec hexec clear_wp fun _ _ h => h
  | @committed s flash _ _ _ hexec ih =>
    by_cases hs : s.storageFaulted = false ∧ s.candidate.isSome
    · obtain ⟨candidate, hcandidate⟩ := Option.isSome_iff_exists.mp hs.2
      exact known_of_exec hexec (commit_wp (ih s rfl hs.1) hcandidate) fun _ _ h => h.1
    · -- without a candidate, or after a failure, a commit does nothing
      have hsame : (s.commit o).wp Flash.Step (fun out flash' => out.2 = s ∧ flash' = flash)
          (fun _ => True) flash := by
        unfold commit
        cases hcandidate : s.candidate with
        | none => exact Program.wp_pure trivial ⟨rfl, rfl⟩
        | some candidate =>
          rw [hcandidate] at hs
          dsimp only
          rw [if_pos (by simpa using hs)]
          exact Program.wp_pure trivial ⟨rfl, rfl⟩
      refine known_of_exec hexec hsame ?_
      rintro out flash' ⟨hout, rfl⟩
      rw [hout]
      exact ih s rfl

/-! ### Recovery -/

/-- What is active after a `create` whose calls work. -/
def recovered (o : Options) (flash : Flash) : Option TransactionRecord :=
  ((create o).run Flash.answer flash).1.bind Store.active

theorem run_readEncodedRecord_eq (key : StorageKey) :
    (readEncodedRecord o key).run Flash.answer flash = (flash.readRecord o key, flash) := by
  unfold readEncodedRecord Flash.readRecord
  simp only [Program.run_bind, Flash.run_allocate, Flash.run_read, Bool.not_true,
    Bool.false_eq_true, if_false]
  cases flash.get key (recordHeaderSize + o.payloadCapacity + checksumSize) with
  | notFound => rfl
  | error => rfl
  | ok bytes =>
    dsimp only
    cases decodeRecord o bytes with
    | error failure => rfl
    | ok record => rfl

theorem run_loadActive_active (hs : s.active = none) :
    ((s.loadActive o).run Flash.answer flash).1.active = flash.active o := by
  unfold loadActive Flash.active Flash.readMarker
  simp only [Program.run_bind, Flash.run_read]
  cases flash.get .activeMarker markerSize with
  | notFound => exact hs
  | error => exact hs
  | ok bytes =>
    dsimp only
    cases decodeMarker o bytes with
    | error failure => exact hs
    | ok marker =>
      simp only [Program.run_bind, run_readEncodedRecord_eq, Except.toOption, Option.bind_some]
      generalize flash.readRecord o (slotKey marker.activeSlot) = selected
      cases matchesGeneration selected marker.activeGeneration with
      | some record => rfl
      | none =>
        rw [Option.none_or]
        cases marker.previousGeneration with
        | none => exact (unrecovered_active _ _ _).trans hs
        | some generation =>
          simp only [Program.run_bind, run_readEncodedRecord_eq, Option.bind_some]
          cases matchesGeneration (flash.readRecord o (slotKey marker.previousSlot)) generation with
          | none => exact (unrecovered_active _ _ _).trans hs
          | some record =>
            dsimp only
            split_ifs
            · rfl
            · rfl

theorem exec_answer {α : Type} (p : Storage α) (flash : Flash) :
    Program.Exec Flash.Step p flash (some (p.run Flash.answer flash).1)
      (p.run Flash.answer flash).2 :=
  Program.Exec.of_run Flash.Step.answered p flash

theorem exists_run_create (o : Options) (flash : Flash) : ∃ t,
    ((create o).run Flash.answer flash).1 = some t ∧ t.active = flash.active o := by
  have hloaded := (exec_answer (loadCandidate o {}) flash).sound loadCandidate_wp
  unfold create
  simp only [Program.run_bind, Flash.run_allocate, Bool.not_true, Bool.false_eq_true, if_false,
    Program.run_pure]
  refine ⟨_, rfl, ?_⟩
  rw [run_loadActive_active hloaded.1.1, hloaded.2]

theorem recovered_eq : recovered o flash = flash.active o := by
  obtain ⟨t, hcreated, hactive⟩ := exists_run_create o flash
  rw [recovered, hcreated, Option.bind_some, hactive]

/-- **A commit is atomic**: wherever it is cut off, a `create` recovers the record that was active or
the candidate, and the one that the answer speaks of. -/
theorem commit_atomic (h : Reachable o (some s) flash) (hs : s.storageFaulted = false)
    (hcandidate : s.candidate = some candidate) {out : Option (UpdateResult × Store)}
    (hexec : Program.Exec Flash.Step (s.commit o) flash out flash') :
    recovered o flash = s.active ∧
      (recovered o flash' = s.active ∨ recovered o flash' = some candidate) ∧
      ∀ result t, out = some (result, t) →
        if result = .updated then recovered o flash' = some candidate ∧ t.active = some candidate
        else t.active = s.active := by
  have hknown := known_of_reachable h s rfl hs
  have hcommit := commit_wp hknown hcandidate
  simp only [recovered_eq]
  refine ⟨hknown.active, hexec.sound_cut hcommit, ?_⟩
  rintro result t rfl
  exact (hexec.sound hcommit).2

theorem run_create_empty (o : Options) :
    (create o).run Flash.answer Flash.empty = (some {}, Flash.empty) := rfl

theorem reachable_empty (o : Options) : Reachable o (some {}) Flash.empty := by
  have hcreated := exec_answer (create o) Flash.empty
  rw [run_create_empty] at hcreated
  exact .created (.start Flash.empty) hcreated

/-- The candidate of the example, staged. -/
def sampleStaged : Store :=
  { candidate := some ⟨[1, 2, 3], 1⟩, candidateRecordStatus := .valid }

theorem storable_sample : Storable sampleCodecOptions [1, 2, 3] :=
  ⟨by decide, by decide, by decide, by decide⟩

theorem commit_atomic_sample : ∃ flash,
    let committed := ((sampleStaged.commit sampleCodecOptions).run Flash.answer flash).2
    recovered sampleCodecOptions flash = none ∧
      (recovered sampleCodecOptions committed = none ∨
        recovered sampleCodecOptions committed = some ⟨[1, 2, 3], 1⟩) := by
  obtain ⟨flash, hstaged⟩ := @run_stage _ {} _ storable_sample rfl Flash.empty
  have hexec := exec_answer (Store.stage sampleCodecOptions {} [1, 2, 3]) Flash.empty
  rw [hstaged] at hexec
  have hreachable : Reachable sampleCodecOptions (some sampleStaged) flash :=
    .staged (reachable_empty _) hexec
  obtain ⟨hbefore, hafter, -⟩ := commit_atomic hreachable rfl rfl (exec_answer _ flash)
  exact ⟨flash, hbefore, hafter⟩

/-! ### Durability -/

theorem run_prepareMarker_any (o : Options) (s : Store) (flash : Flash) :
    ∃ t flash', (s.prepareMarker o).run Flash.answer flash = ((true, t), flash') := by
  unfold prepareMarker activeMarker
  cases s.active with
  | none =>
    dsimp only [Option.map_none]
    split_ifs
    · exact ⟨_, _, rfl⟩
    · exact ⟨_, _, rfl⟩
  | some record =>
    dsimp only [Option.map_some]
    split_ifs
    · exact ⟨_, _, rfl⟩
    · obtain ⟨flash', hwritten⟩ :=
        run_writeAndVerifyMarker o ⟨s.activeSlot, record.generation, none⟩ flash
      rw [Program.run_bind, hwritten]
      exact ⟨_, _, rfl⟩

theorem run_commit_updated (hs : s.storageFaulted = false)
    (hcandidate : s.candidate = some candidate) (hpayload : Storable o candidate.payload)
    (hgeneration : candidate.generation ≠ 0) (flash : Flash) : ((s.commit o).run Flash.answer flash).1.1 = .updated := by
  obtain ⟨t, prepared, hprepared⟩ := run_prepareMarker_any o s flash
  obtain ⟨written, hwritten⟩ := run_writeRecord hpayload hgeneration (slotKey t.nextSlot) prepared
  obtain ⟨marked, hmarked⟩ := run_writeAndVerifyMarker o
    ⟨t.nextSlot, candidate.generation, t.active.map fun active => active.generation⟩ written
  unfold commit
  simp only [hcandidate, hs, Program.run_bind, hprepared, hwritten, hmarked, Flash.run_erase,
    Bool.not_true, Bool.false_eq_true, if_false, if_true, Program.run_pure]

/-- Once the storage works, a payload that can be staged is committed and recovered. -/
theorem stored_durable {payload : List UInt8} (h : Reachable o (some s) flash)
    (hs : s.storageFaulted = false) (hpayload : Storable o payload) :
    ∃ t u flash₁ flash₂, (s.stage o payload).run Flash.answer flash = ((.updated, t), flash₁) ∧
      (t.commit o).run Flash.answer flash₁ = ((.updated, u), flash₂) ∧
      (recovered o flash₂).map TransactionRecord.payload = some payload := by
  obtain ⟨flash₁, hstaged⟩ := run_stage hpayload hs flash
  have hgeneration : s.nextGeneration ≠ 0 := by
    rw [nextGeneration_eq]
    exact Counter.nonzeroNext32_ne_zero _
  have hknown := (exec_answer (s.stage o payload) flash).sound
    (stage_wp payload fun _ => known_of_reachable h s rfl hs)
  rw [hstaged] at hknown
  replace hknown := hknown.1
  have hupdated := @run_commit_updated o
    { s with
      candidate := some ⟨payload, s.nextGeneration⟩, candidateRecordStatus := .valid }
    ⟨payload, s.nextGeneration⟩ hs rfl hpayload hgeneration flash₁
  have hended := (exec_answer _ flash₁).sound (commit_wp (hknown hs) rfl)
  refine ⟨_, _, flash₁, _, hstaged, Prod.ext (Prod.ext hupdated rfl) rfl, ?_⟩
  have hactive := hended.2
  rw [if_pos hupdated] at hactive
  rw [recovered_eq, hactive.1]
  rfl

theorem stored_durable_sample : ∃ t u flash₁ flash₂,
    (Store.stage sampleCodecOptions {} [1, 2, 3]).run Flash.answer Flash.empty =
        ((.updated, t), flash₁) ∧
      (t.commit sampleCodecOptions).run Flash.answer flash₁ = ((.updated, u), flash₂) ∧
      (recovered sampleCodecOptions flash₂).map TransactionRecord.payload = some [1, 2, 3] :=
  stored_durable (reachable_empty _) rfl storable_sample

end RlcdDeck.TransactionStore
