import RlcdDeck.Counter.Nonzero
import RlcdDeck.TransactionStore.Store

/-!
# The transaction store in memory

What the operations do to the records in memory, whatever the storage answers: a `stage` never
touches the active record, and a `commit` that does not report `UPDATED` leaves it as it was
(`stage_memory`, `commit_memory`).  A record that `create` recovers has passed the validation of
its payload (`create_memory`).
-/

namespace RlcdDeck.TransactionStore

open Effects

variable {σ : Type} {step : σ → (op : Call) → op.Answer → σ → Prop}

theorem wp_of_forall {α : Type} {post : α → σ → Prop} (h : ∀ a s, post a s) (p : Storage α)
    (world : σ) : p.wp step post (fun _ => True) world := by
  induction p generalizing world with
  | ret a => exact ⟨trivial, h a world⟩
  | call op k ih => exact ⟨trivial, fun r world' _ => ih r world'⟩

theorem wp_bind_any {α β : Type} {post : β → σ → Prop} {p : Storage α} {f : α → Storage β}
    {world : σ} (h : ∀ a world', (f a).wp step post (fun _ => True) world') :
    (p >>= f).wp step post (fun _ => True) world :=
  Program.wp_bind (wp_of_forall h p world)

theorem wp_pure {α : Type} {post : α → σ → Prop} {a : α} {world : σ} (h : post a world) :
    (pure a : Storage α).wp step post (fun _ => True) world :=
  Program.wp_pure trivial h

namespace Store

/-! ### Staging -/

/-- The generation that a store shows, zero for none. -/
def generation (s : Store) : UInt32 :=
  match s.active with
  | some active => active.generation
  | none => 0

theorem nextGeneration_eq (s : Store) : s.nextGeneration = Counter.nonzeroNext s.generation := by
  unfold nextGeneration generation Counter.nonzeroNext
  match s.active with
  | some active => rfl
  | none => rfl

/-- What `stage` does in memory. -/
def Staged (o : Options) (s : Store) (payload : List UInt8) (out : UpdateResult × Store) : Prop :=
  out.2.active = s.active ∧
    (out.1 = .updated → out.2.candidate = some ⟨payload, s.nextGeneration⟩ ∧
      o.validatePayload payload = true ∧ s.storageFaulted = false)

theorem stage_memory (o : Options) (s : Store) (payload : List UInt8) (world : σ) :
    (s.stage o payload).wp step (fun out _ => Staged o s payload out) (fun _ => True) world := by
  unfold stage
  split_ifs with hpayload hfaulted
  · exact wp_pure ⟨rfl, fun h => by cases h⟩
  · exact wp_pure ⟨rfl, fun h => by cases h⟩
  · refine wp_bind_any fun written world' => ?_
    split_ifs
    · exact wp_pure ⟨rfl, fun h => by cases h⟩
    · simp only [not_or, Bool.not_eq_false] at hpayload
      exact wp_pure ⟨rfl, fun _ => ⟨rfl, hpayload.2.2.2, by simpa using hfaulted⟩⟩

/-! ### Committing -/

/-- What `commit` does in memory. -/
def Committed (s : Store) (out : UpdateResult × Store) : Prop :=
  if out.1 = .updated then ∃ candidate, s.candidate = some candidate ∧ out.2.active = some candidate
  else out.2.active = s.active

theorem prepareMarker_memory (o : Options) (s : Store) (world : σ) :
    (s.prepareMarker o).wp step (fun out _ => out.2.active = s.active) (fun _ => True) world := by
  unfold prepareMarker
  split
  · split_ifs
    · exact wp_pure rfl
    · refine wp_bind_any fun written world' => ?_
      split_ifs
      · exact wp_pure rfl
      · exact wp_pure rfl
  · split_ifs
    · exact wp_pure rfl
    · refine wp_bind_any fun erased world' => ?_
      split_ifs
      · exact wp_pure rfl
      · exact wp_pure rfl

theorem commit_memory (o : Options) (s : Store) (world : σ) :
    (s.commit o).wp step (fun out _ => Committed s out) (fun _ => True) world := by
  have hfailed : ∀ {result : UpdateResult} {t : Store}, result ≠ .updated →
      t.active = s.active → Committed s (result, t) := by
    intro result t hresult hactive
    unfold Committed
    rw [if_neg hresult]
    exact hactive
  unfold commit
  match hcandidate : s.candidate with
  | none => exact wp_pure (hfailed (by simp) rfl)
  | some candidate =>
    dsimp only
    split_ifs
    · exact wp_pure (hfailed (by simp) rfl)
    refine Program.wp_bind (Program.wp_mono (prepareMarker_memory o s world) (fun _ h => h) ?_)
    rintro ⟨prepared, t⟩ world' hactive
    dsimp only at hactive ⊢
    split_ifs
    · exact wp_pure (hfailed (by simp) hactive)
    refine wp_bind_any fun written world' => ?_
    split_ifs
    · exact wp_pure (hfailed (by simp) hactive)
    refine wp_bind_any fun marked world' => ?_
    split_ifs
    · exact wp_bind_any fun rolledBack world' => wp_pure (hfailed (by simp) hactive)
    refine wp_bind_any fun erased world' => ?_
    split_ifs
    · exact wp_pure ⟨candidate, hcandidate, rfl⟩
    · exact wp_pure ⟨candidate, hcandidate, rfl⟩

/-! ### Recovery -/

/-- A record that has passed the validation. -/
def Sound (o : Options) (record : TransactionRecord) : Prop :=
  o.validatePayload record.payload = true ∧ record.generation ≠ 0

theorem sound_of_decodeRecord {o : Options} {input : List UInt8} {record : TransactionRecord}
    (h : decodeRecord o input = .ok record) : Sound o record := by
  unfold decodeRecord at h
  split_ifs at h
  dsimp only at h
  split_ifs at h with hsize hfields
  obtain rfl := Except.ok.inj h
  simp only [not_or, not_not, Bool.not_eq_false] at hfields
  exact ⟨hfields.2.2.2.2.2.2, hfields.2.2.2.2.1⟩

theorem readEncodedRecord_memory (o : Options) (key : StorageKey) (world : σ) :
    (readEncodedRecord o key).wp step
      (fun found _ => ∀ record, found = .ok (.ok record) → Sound o record)
      (fun _ => True) world := by
  unfold readEncodedRecord
  refine wp_bind_any fun allocated world' => ?_
  split_ifs
  · exact wp_pure fun record h => by cases h
  refine wp_bind_any fun answer world' => ?_
  split
  · exact wp_pure fun record h => by cases h
  · exact wp_pure fun record h => by cases h
  · split
    · exact wp_pure fun record h => by cases h
    · next found hdecoded =>
      refine wp_bind_any fun allocated world' => ?_
      split_ifs
      · refine wp_pure fun record h => ?_
        obtain rfl := Except.ok.inj (RecordRead.ok.inj h)
        exact sound_of_decodeRecord hdecoded
      · exact wp_pure fun record h => by cases h

theorem sound_of_matchesGeneration {o : Options} {found : RecordRead} {generation : UInt32}
    {record : TransactionRecord} (hfound : ∀ record, found = .ok (.ok record) → Sound o record)
    (h : matchesGeneration found generation = some record) : Sound o record := by
  unfold matchesGeneration at h
  split at h
  · split_ifs at h
    obtain rfl := Option.some.inj h
    exact hfound _ rfl
  · exact absurd h (by simp)

theorem unrecovered_active (s : Store) (selected previous : RecordRead) :
    (s.unrecovered selected previous).active = s.active := by
  unfold unrecovered
  split_ifs
  · rfl
  · split
    · rfl
    · rfl

theorem loadActive_memory (o : Options) {s : Store} (hs : s.active = none) (world : σ) :
    (s.loadActive o).wp step
      (fun t _ => ∀ record, t.active = some record → Sound o record) (fun _ => True) world := by
  have hnone : ∀ {t : Store}, t.active = none → ∀ record, t.active = some record →
      Sound o record := by
    intro t ht record hrecord
    rw [ht] at hrecord
    cases hrecord
  unfold loadActive
  refine wp_bind_any fun answer world' => ?_
  split
  · exact wp_pure (hnone hs)
  · exact wp_pure (hnone hs)
  dsimp only
  split
  · exact wp_pure (hnone hs)
  next marker hmarker =>
  refine Program.wp_bind (Program.wp_mono (readEncodedRecord_memory o _ _) (fun _ h => h) ?_)
  intro selected world' hselected
  split
  · next record hrecord =>
    refine wp_pure fun r hr => ?_
    obtain rfl := Option.some.inj hr
    exact sound_of_matchesGeneration hselected hrecord
  split
  · exact wp_pure (hnone ((unrecovered_active _ _ _).trans hs))
  next generation hprevious =>
  refine Program.wp_bind (Program.wp_mono (readEncodedRecord_memory o _ _) (fun _ h => h) ?_)
  intro previous world' hprevious
  split
  · exact wp_pure (hnone ((unrecovered_active _ _ _).trans hs))
  · next record hrecord =>
    refine wp_pure fun r hr => ?_
    have hsame : some record = some r := by
      split_ifs at hr
      · exact hr
      · exact hr
    obtain rfl := Option.some.inj hsame
    exact sound_of_matchesGeneration hprevious hrecord

theorem loadCandidate_memory (o : Options) (s : Store) (world : σ) :
    (s.loadCandidate o).wp step (fun t _ => t.active = s.active) (fun _ => True) world := by
  unfold loadCandidate
  refine wp_bind_any fun found world' => ?_
  split
  · exact wp_pure rfl
  · exact wp_pure rfl
  · exact wp_pure rfl
  · exact wp_pure rfl

theorem create_memory (o : Options) (world : σ) :
    (create o).wp step
      (fun out _ => ∀ s, out = some s → ∀ record, s.active = some record → Sound o record)
      (fun _ => True) world := by
  unfold create
  refine wp_bind_any fun allocated world' => ?_
  split_ifs
  · exact wp_pure fun s h => by cases h
  refine Program.wp_bind (Program.wp_mono (loadCandidate_memory o _ _) (fun _ h => h) ?_)
  intro s world' hs
  refine Program.wp_bind (Program.wp_mono (loadActive_memory o hs _) (fun _ h => h) ?_)
  intro t world' ht
  refine wp_pure fun r hr => ?_
  obtain rfl := Option.some.inj hr
  exact ht

end Store

end RlcdDeck.TransactionStore
