import RlcdDeck.SerialRouter.Equiv.Pool
import Mathlib.Data.Fintype.EquivFin
import Mathlib.Data.Fintype.Lattice

/-!
# `submit` and the pool

`submit` makes room in every full sink, takes a free block, fills it and appends it to every
registered queue.  Since any two queues are comparable, the blocks in use are those of the
longest one, and after the evictions that one has room: a block is free (`exists_free`), and
every valid block is accepted (`submit_accepts`).
-/

namespace RlcdDeck.SerialRouter

open Collections Counter

/-! ### The evictions of `submit` -/

def Sink.full (s : Sink) : Prop :=
  s.registered = true ∧ s.blocks.count = s.blocks.capacity

instance (s : Sink) : Decidable s.full :=
  inferInstanceAs (Decidable (_ ∧ _))

/-- The sink after `submit` made room in it. -/
def evicted (r : Router) (k : SinkId) : Sink :=
  let s := r.sinks k
  if s.full then s.removed .overwritten (r.metadata (s.blocks.slots s.blocks.head)).length else s

/-- `r'` is `r` after room was made in the sinks `l`. -/
structure Evicts (l : List SinkId) (r r' : Router) : Prop where
  inv : Inv r'
  sinks : ∀ k, r'.sinks k = if k ∈ l then evicted r k else r.sinks k
  suffix : ∀ k, contents r' k <:+ contents r k
  stored : ∀ k, ∀ x ∈ contents r' k,
    stored r' x = stored r x ∧ (r'.metadata x).length = (r.metadata x).length
  stats : r'.stats = r.stats
  sessionId : r'.sessionId = r.sessionId
  poolBlocks : r'.poolBlocks = r.poolBlocks
  poolCapacityBytes : r'.poolCapacityBytes = r.poolCapacityBytes

theorem count_ne_zero_of_full {r : Router} (h : Inv r) {k : SinkId}
    (hfull : (r.sinks k).full) : (r.sinks k).blocks.count ≠ 0 := by
  have hhead := (h.shape k).head hfull.1
  rw [hfull.2]
  omega

theorem evicts_evictIfFull {r : Router} (h : Inv r) (k : SinkId) :
    Evicts [k] r (evictIfFull r k) := by
  unfold evictIfFull
  dsimp only
  by_cases hfull : (r.sinks k).full
  · rw [if_pos (by exact hfull)]
    have hrem := removeFront_removes h (count_ne_zero_of_full h hfull) .overwritten
    refine ⟨hrem.inv, fun j => ?_, fun j => ?_, hrem.stored, hrem.stats, hrem.sessionId,
      hrem.poolBlocks, hrem.poolCapacityBytes⟩
    · by_cases hj : j = k
      · subst hj
        rw [if_pos List.mem_cons_self, hrem.sink, evicted, if_pos hfull]
      · rw [if_neg (by simpa using hj), hrem.others j hj]
    · by_cases hj : j = k
      · subst hj
        rw [hrem.front]
        exact List.suffix_cons _ _
      · rw [contents, hrem.others j hj, contents]
  · rw [if_neg (by exact hfull)]
    refine ⟨h, fun j => ?_, fun j => List.suffix_rfl, fun _ _ _ => ⟨rfl, rfl⟩, rfl, rfl, rfl, rfl⟩
    by_cases hj : j = k
    · subst hj
      rw [if_pos List.mem_cons_self, evicted, if_neg hfull]
    · rw [if_neg (by simpa using hj)]

theorem evicted_of_evicts {l : List SinkId} {r r' : Router} (h : Evicts l r r') {k : SinkId}
    (hk : k ∉ l) : evicted r' k = evicted r k := by
  have hsink : r'.sinks k = r.sinks k := by rw [h.sinks, if_neg hk]
  unfold evicted
  rw [hsink]
  dsimp only
  split_ifs with hfull
  · have hcount := count_ne_zero_of_full h.inv (hsink ▸ hfull)
    have hmem : (r.sinks k).blocks.slots (r.sinks k).blocks.head ∈ contents r' k := by
      rw [contents_eq_front h.inv hcount, hsink]
      exact List.mem_cons_self
    rw [(h.stored k _ hmem).2]
  · rfl

theorem evicts_foldl {r : Router} (h : Inv r) {l : List SinkId} (hl : l.Nodup) :
    Evicts l r (l.foldl evictIfFull r) := by
  induction l using List.reverseRecOn with
  | nil =>
    exact ⟨h, fun k => by simp, fun _ => List.suffix_rfl, fun _ _ _ => ⟨rfl, rfl⟩, rfl, rfl, rfl,
      rfl⟩
  | append_singleton l k ih =>
    have hnodup := List.nodup_append.mp hl
    have hk : k ∉ l := fun hin => hnodup.2.2 k hin k List.mem_cons_self rfl
    have h₁ := ih hnodup.1
    have h₂ := evicts_evictIfFull h₁.inv k
    rw [List.foldl_append, List.foldl_cons, List.foldl_nil]
    refine ⟨h₂.inv, fun j => ?_, fun j => (h₂.suffix j).trans (h₁.suffix j), fun j x hx => ?_,
      h₂.stats.trans h₁.stats, h₂.sessionId.trans h₁.sessionId,
      h₂.poolBlocks.trans h₁.poolBlocks, h₂.poolCapacityBytes.trans h₁.poolCapacityBytes⟩
    · rw [h₂.sinks]
      by_cases hj : j = k
      · subst hj
        rw [if_pos List.mem_cons_self, if_pos (by simp), evicted_of_evicts h₁ hk]
      · rw [if_neg (by simpa using hj), h₁.sinks]
        simp [hj]
    · have hx₁ := (h₂.suffix j).subset hx
      exact ⟨(h₂.stored j x hx).1.trans (h₁.stored j x hx₁).1,
        (h₂.stored j x hx).2.trans (h₁.stored j x hx₁).2⟩

theorem nodup_sinkIds : sinkIds.Nodup := by decide

theorem evicts_all {r : Router} (h : Inv r) : Evicts sinkIds r (sinkIds.foldl evictIfFull r) :=
  evicts_foldl h nodup_sinkIds

theorem evicted_count_lt {r : Router} (h : Inv r) {k : SinkId}
    (hreg : (r.sinks k).registered = true) :
    (evicted r k).blocks.count < (evicted r k).blocks.capacity := by
  have hhead := (h.shape k).head hreg
  have hcount := (h.shape k).count
  unfold evicted
  dsimp only
  split_ifs with hfull
  · rw [Sink.removed, countRemoval_blocks]
    show (r.sinks k).blocks.count - 1 < (r.sinks k).blocks.capacity
    omega
  · have hne : (r.sinks k).blocks.count ≠ (r.sinks k).blocks.capacity :=
      fun heq => hfull ⟨hreg, heq⟩
    omega

@[simp] theorem evicted_registered (r : Router) (k : SinkId) :
    (evicted r k).registered = (r.sinks k).registered := by
  unfold evicted
  dsimp only
  split_ifs
  · rw [Sink.removed, countRemoval_registered]
  · rfl

/-! ### A free block -/

instance : Fintype SinkId :=
  ⟨{.usb, .wss, .history, .stats}, fun k => by cases k <;> decide⟩

instance : Nonempty SinkId := ⟨.usb⟩

theorem exists_longest {r : Router} (h : Inv r) :
    ∃ m, ∀ k, ∀ i ∈ contents r k, i ∈ contents r m := by
  obtain ⟨m, hm⟩ := Finite.exists_max fun k => (contents r k).length
  refine ⟨m, fun k i hi => ?_⟩
  rcases h.comparable k m with hsuf | hsuf
  · exact hsuf.subset hi
  · rw [hsuf.eq_of_length (le_antisymm hsuf.length_le (hm k))]
    exact hi

theorem exists_free {r : Router} (h : Inv r)
    (hroom : ∀ k, (r.sinks k).registered = true →
      (r.sinks k).blocks.count < (r.sinks k).blocks.capacity) : r.freeHead ≠ none := by
  intro hnone
  obtain ⟨free, hchain, -, hmem⟩ := h.pool
  rw [hnone] at hchain
  obtain rfl := hchain.eq_nil_of_none
  obtain ⟨m, hm⟩ := exists_longest h
  -- every block of the pool is in the longest queue
  have hsub : List.range r.poolBlocks ⊆ contents r m := by
    intro i hi
    have href : (r.metadata i).references ≠ 0 := fun h0 =>
      List.not_mem_nil ((hmem i).mpr ⟨List.mem_range.mp hi, h0⟩)
    rw [h.references] at href
    obtain ⟨k, hk⟩ := exists_mem_of_occurrences_pos (Nat.pos_of_ne_zero href)
    exact hm k i hk
  have hle : r.poolBlocks ≤ (contents r m).length := by
    have hperm := List.Nodup.subperm List.nodup_range hsub
    simpa using hperm.length_le
  rw [contents, RingBuffer.length_contents] at hle
  have hpos := h.positive
  by_cases hreg : (r.sinks m).registered = true
  · have hlt := hroom m hreg
    have hfits := (h.shape m).fits
    omega
  · rw [Bool.not_eq_true] at hreg
    rw [(h.shape m).idle hreg] at hle
    have hzero : (({} : Sink).blocks.count) = 0 := rfl
    omega

/-! ### Appending the block -/

/-- The sink after the block `i` of `length` bytes was appended. -/
def Sink.appended (s : Sink) (i length : ℕ) : Sink :=
  if s.registered = false then s
  else
    { s with blocks := s.blocks.push i, queuedBytes := saturatingAddSize s.queuedBytes length }

/-- `r'` is `r` after the block `i` was appended to the sinks `l`. -/
structure Appends (l : List SinkId) (i length : ℕ) (r r' : Router) : Prop where
  sinks : ∀ k, r'.sinks k = if k ∈ l then (r.sinks k).appended i length else r.sinks k
  self : r'.metadata i =
    { r.metadata i with
      references := (r.metadata i).references +
        (l.filter fun k => (r.sinks k).registered).length }
  others : ∀ x, x ≠ i → r'.metadata x = r.metadata x
  payloads : r'.payloads = r.payloads
  freeHead : r'.freeHead = r.freeHead
  stats : r'.stats = r.stats
  sessionId : r'.sessionId = r.sessionId
  poolBlocks : r'.poolBlocks = r.poolBlocks
  poolCapacityBytes : r'.poolCapacityBytes = r.poolCapacityBytes

theorem appends_foldl (i length : ℕ) (r : Router) {l : List SinkId} (hl : l.Nodup) :
    Appends l i length r (l.foldl (appendBlock i length) r) := by
  induction l using List.reverseRecOn with
  | nil => exact ⟨fun k => by simp, by simp, fun _ _ => rfl, rfl, rfl, rfl, rfl, rfl, rfl⟩
  | append_singleton l k ih =>
    have hnodup := List.nodup_append.mp hl
    have hk : k ∉ l := fun hin => hnodup.2.2 k hin k List.mem_cons_self rfl
    have h := ih hnodup.1
    rw [List.foldl_append, List.foldl_cons, List.foldl_nil]
    set r' := l.foldl (appendBlock i length) r with hr'
    have hsink : r'.sinks k = r.sinks k := by rw [h.sinks, if_neg hk]
    unfold appendBlock
    dsimp only
    by_cases hreg : (r'.sinks k).registered = false
    · rw [if_pos hreg]
      rw [hsink] at hreg
      refine ⟨fun j => ?_, ?_, h.others, h.payloads, h.freeHead, h.stats, h.sessionId,
        h.poolBlocks, h.poolCapacityBytes⟩
      · rw [h.sinks]
        by_cases hj : j = k
        · subst hj
          simp [hk, Sink.appended, hreg]
        · simp [hj]
      · rw [h.self]
        simp [hreg]
    · rw [if_neg hreg]
      rw [hsink, Bool.not_eq_false] at hreg
      refine ⟨fun j => ?_, ?_, fun x hx => ?_, h.payloads, h.freeHead, h.stats, h.sessionId,
        h.poolBlocks, h.poolCapacityBytes⟩
      · by_cases hj : j = k
        · subst hj
          simp [hsink, Sink.appended, hreg]
        · simp [hj, h.sinks]
      · simp [h.self, hreg, Nat.add_assoc]
      · simp [hx, h.others x hx]

/-- The router after a free block was filled and appended to every registered sink. -/
def place (r : Router) (i : ℕ) (input : InputBlock) : Router :=
  sinkIds.foldl (appendBlock i input.bytes.length) (fillBlock r i input)

/-- The number of registered sinks. -/
def registeredCount (r : Router) : ℕ :=
  (sinkIds.filter fun k => (r.sinks k).registered).length

section Place

variable {r : Router} {i : ℕ} {b : InputBlock}

theorem appends_place (r : Router) (i : ℕ) (b : InputBlock) :
    Appends sinkIds i b.bytes.length (fillBlock r i b) (place r i b) :=
  appends_foldl _ _ _ nodup_sinkIds

theorem place_sinks (k : SinkId) :
    (place r i b).sinks k = (r.sinks k).appended i b.bytes.length := by
  rw [(appends_place r i b).sinks, if_pos (mem_sinkIds k)]
  rfl

theorem place_metadata_self : (place r i b).metadata i =
    { sequence := nextNonzero r.stats.lastSequence, monotonicMs := b.monotonicMs,
      nextFree := none, length := b.bytes.length, references := registeredCount r } := by
  rw [(appends_place r i b).self]
  simp [fillBlock, registeredCount]

theorem place_metadata_of_ne {x : ℕ} (hx : x ≠ i) :
    (place r i b).metadata x = r.metadata x := by
  rw [(appends_place r i b).others x hx]
  simp [fillBlock, hx]

theorem place_payloads : (place r i b).payloads =
    Function.update r.payloads i (padded b.bytes) :=
  (appends_place r i b).payloads

theorem place_freeHead : (place r i b).freeHead = (r.metadata i).nextFree :=
  (appends_place r i b).freeHead

theorem appended_blocks_of_registered {s : Sink} (hreg : s.registered = true) (i n : ℕ) :
    (s.appended i n).blocks = s.blocks.push i := by
  unfold Sink.appended
  rw [if_neg (by simp [hreg])]

theorem appended_of_not_registered {s : Sink} (hreg : s.registered = false) (i n : ℕ) :
    s.appended i n = s := by
  unfold Sink.appended
  rw [if_pos hreg]

/-- Every registered queue has room. -/
def Roomy (r : Router) : Prop :=
  ∀ k, (r.sinks k).registered = true →
    (r.sinks k).blocks.count < (r.sinks k).blocks.capacity

theorem contents_place (hroom : Roomy r) (k : SinkId) :
    contents (place r i b) k =
      if (r.sinks k).registered then contents r k ++ [i] else contents r k := by
  unfold contents
  rw [place_sinks]
  by_cases hreg : (r.sinks k).registered = true
  · rw [appended_blocks_of_registered hreg, RingBuffer.contents_push (hroom k hreg), if_pos hreg]
  · rw [if_neg hreg, appended_of_not_registered (by simpa using hreg)]

theorem not_mem_contents (h : Inv r) (hfree : (r.metadata i).references = 0) (k : SinkId) :
    i ∉ contents r k := by
  intro hmem
  have hpos := occurrences_pos_of_mem hmem
  rw [← h.references, hfree] at hpos
  exact absurd hpos (lt_irrefl 0)

theorem occurrences_place (hroom : Roomy r) (x : ℕ) :
    occurrences (place r i b) x =
      occurrences r x + if x = i then registeredCount r else 0 := by
  have hcount : ∀ k, (contents (place r i b) k).count x =
      (contents r k).count x + if x = i ∧ (r.sinks k).registered then 1 else 0 := by
    intro k
    rw [contents_place hroom]
    by_cases hx : x = i
    · by_cases hreg : (r.sinks k).registered = true <;> simp [hx, hreg]
    · by_cases hreg : (r.sinks k).registered = true <;> simp [hx, hreg, Ne.symm hx]
  rw [occurrences_eq, occurrences_eq, hcount, hcount, hcount, hcount]
  by_cases hx : x = i
  · simp only [hx, true_and, if_true, registeredCount, sinkIds, List.filter_cons,
      List.filter_nil]
    split_ifs <;> simp <;> omega
  · simp [hx]

theorem contents_of_not_registered (h : Inv r) {k : SinkId}
    (hreg : (r.sinks k).registered = false) : contents r k = [] := by
  unfold contents
  rw [(h.shape k).idle hreg]
  rfl

/-- The router after `submit` took the free block `i`. -/
def accepted (r : Router) (i : ℕ) (b : InputBlock) : Router :=
  let r' := place r i b
  let r' :=
    { r' with
      stats :=
        { r'.stats with
          acceptedBytes := saturatingAddLength r'.stats.acceptedBytes b.bytes.length
          acceptedBlocks := saturatingAdd r'.stats.acceptedBlocks 1
          lastSequence := nextNonzero r.stats.lastSequence } }
  if (r'.metadata i).references = 0 then returnBlock r' i else r'

theorem accepted_sinks (k : SinkId) : (accepted r i b).sinks k =
    (r.sinks k).appended i b.bytes.length := by
  unfold accepted returnBlock
  dsimp only
  split_ifs <;> exact place_sinks k

theorem accepted_metadata_of_ne {x : ℕ} (hx : x ≠ i) :
    (accepted r i b).metadata x = r.metadata x := by
  unfold accepted returnBlock
  dsimp only
  split_ifs <;> simp [hx, place_metadata_of_ne]

theorem accepted_payloads_of_ne {x : ℕ} (hx : x ≠ i) :
    (accepted r i b).payloads x = r.payloads x := by
  unfold accepted returnBlock
  dsimp only
  split_ifs <;> simp [hx, place_payloads]

theorem accepted_of_registered (hpos : registeredCount r ≠ 0) :
    (accepted r i b).metadata i = (place r i b).metadata i ∧
      (accepted r i b).payloads = (place r i b).payloads ∧
      (accepted r i b).freeHead = (place r i b).freeHead := by
  unfold accepted
  dsimp only
  rw [if_neg (by rw [place_metadata_self]; exact hpos)]
  exact ⟨rfl, rfl, rfl⟩

theorem accepted_of_not_registered (hzero : registeredCount r = 0) :
    (accepted r i b).metadata i = { nextFree := (r.metadata i).nextFree } ∧
      (accepted r i b).freeHead = some i := by
  unfold accepted returnBlock
  dsimp only
  rw [if_pos (by rw [place_metadata_self]; exact hzero)]
  simp [place_freeHead]

theorem accepted_references : ((accepted r i b).metadata i).references =
    registeredCount r := by
  by_cases hzero : registeredCount r = 0
  · rw [(accepted_of_not_registered hzero).1, hzero]
  · rw [(accepted_of_registered hzero).1, place_metadata_self]

theorem contents_accepted (hroom : Roomy r) (k : SinkId) :
    contents (accepted r i b) k =
      if (r.sinks k).registered then contents r k ++ [i] else contents r k := by
  rw [← contents_place (b := b) hroom, contents, contents, accepted_sinks, place_sinks]

theorem occurrences_accepted (hroom : Roomy r) (x : ℕ) :
    occurrences (accepted r i b) x =
      occurrences r x + if x = i then registeredCount r else 0 := by
  rw [← occurrences_place (b := b) hroom, occurrences_eq, occurrences_eq]
  simp only [contents_accepted hroom, contents_place hroom]

theorem registeredCount_ne_zero {k : SinkId} (hreg : (r.sinks k).registered = true) :
    registeredCount r ≠ 0 := by
  unfold registeredCount
  rw [Ne, List.length_eq_zero_iff, List.filter_eq_nil_iff]
  push Not
  exact ⟨k, mem_sinkIds k, hreg⟩

theorem mem_contents_accepted (h : Inv r) (hroom : Roomy r)
    (hfree : (r.metadata i).references = 0) {k : SinkId} {x : ℕ}
    (hx : x ∈ contents (accepted r i b) k) :
    (x ∈ contents r k ∧ x ≠ i) ∨ (x = i ∧ (r.sinks k).registered = true) := by
  rw [contents_accepted hroom] at hx
  split_ifs at hx with hreg
  · rcases List.mem_append.mp hx with hold | hnew
    · exact .inl ⟨hold, fun heq => not_mem_contents h hfree k (heq ▸ hold)⟩
    · exact .inr ⟨List.mem_singleton.mp hnew, hreg⟩
  · exact .inl ⟨hx, fun heq => not_mem_contents h hfree k (heq ▸ hx)⟩

theorem pool_accepted (h : Inv r) (hhead : r.freeHead = some i) :
    ∃ free, FreeChain (fun x => ((accepted r i b).metadata x).nextFree)
        (accepted r i b).freeHead free ∧ free.Nodup ∧
      ∀ x, x ∈ free ↔ x < (accepted r i b).poolBlocks ∧
        ((accepted r i b).metadata x).references = 0 := by
  have hblocks : (accepted r i b).poolBlocks = r.poolBlocks := by
    unfold accepted returnBlock
    dsimp only
    split_ifs <;> exact (appends_place r i b).poolBlocks
  obtain ⟨free, hchain, hnodup, hmem⟩ := h.pool
  rw [hhead] at hchain
  obtain ⟨rest, rfl, hrest⟩ := hchain.pop
  have hnot : i ∉ rest := (List.nodup_cons.mp hnodup).1
  rw [hblocks]
  by_cases hzero : registeredCount r = 0
  · -- the block went back to where it was
    obtain ⟨hmeta, hfree⟩ := accepted_of_not_registered (i := i) (b := b) hzero
    have hsame : ∀ x, ((accepted r i b).metadata x).nextFree = (r.metadata x).nextFree ∧
        (((accepted r i b).metadata x).references = 0 ↔ (r.metadata x).references = 0) := by
      intro x
      by_cases hx : x = i
      · subst hx
        rw [hmeta]
        exact ⟨rfl, iff_of_true rfl ((hmem x).mp List.mem_cons_self).2⟩
      · rw [accepted_metadata_of_ne hx]
        exact ⟨rfl, Iff.rfl⟩
    refine ⟨i :: rest, ?_, hnodup, fun x => ?_⟩
    · rw [hfree, funext fun x => (hsame x).1]
      exact hchain
    · rw [(hsame x).2]
      exact hmem x
  · obtain ⟨hmeta, -, hfree⟩ := accepted_of_registered (i := i) (b := b) hzero
    have hnext : (fun x => ((accepted r i b).metadata x).nextFree) =
        Function.update (fun x => (r.metadata x).nextFree) i none := by
      funext x
      by_cases hx : x = i
      · subst hx
        rw [hmeta, place_metadata_self, Function.update_self]
      · rw [accepted_metadata_of_ne hx, Function.update_of_ne hx]
    refine ⟨rest, ?_, (List.nodup_cons.mp hnodup).2, fun x => ?_⟩
    · rw [hnext, hfree, place_freeHead]
      exact hrest.update hnot none
    · by_cases hx : x = i
      · subst hx
        rw [accepted_references]
        exact iff_of_false hnot fun hx => hzero hx.2
      · rw [accepted_metadata_of_ne hx, ← hmem, List.mem_cons]
        simp [hx]

theorem saturatingAddSize_eq {a b : ℕ} (h : a + b < 2 ^ 32) : saturatingAddSize a b = a + b := by
  unfold saturatingAddSize
  rw [if_neg (by omega)]

theorem appended_queuedBytes_of_registered {s : Sink} (hreg : s.registered = true) (i n : ℕ) :
    (s.appended i n).queuedBytes = saturatingAddSize s.queuedBytes n := by
  unfold Sink.appended
  rw [if_neg (by simp [hreg])]

@[simp] theorem appended_config (s : Sink) (i n : ℕ) : (s.appended i n).config = s.config := by
  unfold Sink.appended
  split_ifs <;> rfl

@[simp] theorem appended_registered (s : Sink) (i n : ℕ) :
    (s.appended i n).registered = s.registered := by
  unfold Sink.appended
  split_ifs <;> rfl

theorem queued_accepted (h : Inv r) (hroom : Roomy r) (hfree : (r.metadata i).references = 0)
    (hlen : b.bytes.length ≤ blockBytes) (k : SinkId) :
    ((accepted r i b).sinks k).queuedBytes =
      ((contents (accepted r i b) k).map
        fun x => ((accepted r i b).metadata x).length).sum := by
  have hold : (contents r k).map (fun x => ((accepted r i b).metadata x).length) =
      (contents r k).map fun x => (r.metadata x).length := by
    apply List.map_congr_left
    intro x hx
    have hne : x ≠ i := fun heq => not_mem_contents h hfree k (heq ▸ hx)
    rw [accepted_metadata_of_ne hne]
  rw [accepted_sinks, contents_accepted hroom]
  by_cases hreg : (r.sinks k).registered = true
  · obtain ⟨hmeta, -, -⟩ := accepted_of_registered (i := i) (b := b) (registeredCount_ne_zero hreg)
    have hlt := queuedBytes_lt h k
    rw [if_pos hreg, List.map_append, List.sum_append, hold, ← h.queued,
      appended_queuedBytes_of_registered hreg, saturatingAddSize_eq (by omega)]
    simp [hmeta, place_metadata_self]
  · rw [if_neg hreg, hold, appended_of_not_registered (by simpa using hreg)]
    exact h.queued k

theorem comparable_accepted (h : Inv r) (hroom : Roomy r) (j k : SinkId) :
    Comparable (contents (accepted r i b) j) (contents (accepted r i b) k) := by
  rw [contents_accepted hroom, contents_accepted hroom]
  by_cases hj : (r.sinks j).registered = true
  · by_cases hk : (r.sinks k).registered = true
    · rw [if_pos hj, if_pos hk]
      exact (h.comparable j k).append [i]
    · have hnil : contents r k = [] := contents_of_not_registered h (by simpa using hk)
      rw [if_neg hk, hnil]
      exact .inr List.nil_suffix
  · have hnil : contents r j = [] := contents_of_not_registered h (by simpa using hj)
    rw [if_neg hj, hnil]
    exact .inl List.nil_suffix

theorem lengths_accepted (h : Inv r) (hroom : Roomy r) (hfree : (r.metadata i).references = 0)
    (hpos : 0 < b.bytes.length) (hlen : b.bytes.length ≤ blockBytes) (k : SinkId) (x : ℕ)
    (hx : x ∈ contents (accepted r i b) k) :
    0 < ((accepted r i b).metadata x).length ∧
      ((accepted r i b).metadata x).length ≤ blockBytes := by
  rcases mem_contents_accepted h hroom hfree hx with ⟨hold, hne⟩ | ⟨rfl, hreg⟩
  · rw [accepted_metadata_of_ne hne]
    exact h.lengths k x hold
  · rw [(accepted_of_registered (registeredCount_ne_zero hreg)).1, place_metadata_self]
    exact ⟨hpos, hlen⟩

theorem length_padded {bytes : List UInt8} (h : bytes.length ≤ blockBytes) :
    (padded bytes).length = blockBytes := by
  simp [padded]
  omega

theorem payload_accepted (h : Inv r) (hlen : b.bytes.length ≤ blockBytes) (x : ℕ) :
    ((accepted r i b).payloads x).length = blockBytes := by
  by_cases hx : x = i
  · subst hx
    unfold accepted returnBlock
    dsimp only
    split_ifs
    · simp
    · simp [place_payloads, length_padded hlen]
  · rw [accepted_payloads_of_ne hx]
    exact h.payload x

theorem shape_accepted (h : Inv r) (hroom : Roomy r) (k : SinkId) :
    SinkShape r.poolBlocks ((accepted r i b).sinks k) := by
  obtain ⟨hidle, hhead, hfits, hbytes, hcount⟩ := h.shape k
  rw [accepted_sinks]
  by_cases hreg : (r.sinks k).registered = true
  · have hblocks := appended_blocks_of_registered hreg i b.bytes.length
    refine ⟨fun hr => ?_, fun _ => ?_, ?_, ?_, ?_⟩
    · rw [appended_registered, hreg] at hr
      cases hr
    · rw [hblocks]
      exact hhead hreg
    · rw [hblocks]
      exact hfits
    · rw [hblocks, appended_config]
      exact hbytes
    · rw [hblocks]
      exact hroom k hreg
  · rw [appended_of_not_registered (by simpa using hreg)]
    exact h.shape k

theorem inv_accepted (h : Inv r) (hroom : Roomy r) (hhead : r.freeHead = some i)
    (hpos : 0 < b.bytes.length) (hlen : b.bytes.length ≤ blockBytes) :
    Inv (accepted r i b) := by
  have happ := appends_place r i b
  have hblocks : (accepted r i b).poolBlocks = r.poolBlocks := by
    unfold accepted returnBlock
    dsimp only
    split_ifs <;> exact happ.poolBlocks
  obtain ⟨hi, hfree⟩ : i < r.poolBlocks ∧ (r.metadata i).references = 0 := by
    obtain ⟨free, hchain, -, hmem⟩ := h.pool
    rw [hhead] at hchain
    obtain ⟨rest, rfl, -⟩ := hchain.pop
    exact (hmem i).mp List.mem_cons_self
  constructor
  · exact pool_accepted h hhead
  · exact hblocks ▸ h.positive
  · exact hblocks ▸ h.small
  · rw [hblocks]
    unfold accepted returnBlock
    dsimp only
    split_ifs <;> exact happ.poolCapacityBytes.trans h.capacity
  · intro x
    rw [occurrences_accepted hroom, ← h.references]
    by_cases hx : x = i
    · subst hx
      rw [accepted_references, hfree, if_pos rfl, Nat.zero_add]
    · rw [accepted_metadata_of_ne hx, if_neg hx, Nat.add_zero]
  · intro k x hx
    rw [hblocks]
    rcases mem_contents_accepted h hroom hfree hx with ⟨hold, -⟩ | ⟨rfl, -⟩
    · exact h.bound k x hold
    · exact hi
  · intro k
    rw [contents_accepted hroom]
    split_ifs
    · have hnot := not_mem_contents h hfree k
      exact List.Nodup.append (h.nodup k) (List.nodup_singleton i) (by simpa using hnot)
    · exact h.nodup k
  · exact comparable_accepted h hroom
  · exact lengths_accepted h hroom hfree hpos hlen
  · exact queued_accepted h hroom hfree hlen
  · exact payload_accepted h hlen
  · rw [hblocks]
    exact shape_accepted h hroom
  · have hex : (place r i b).stats.poolExhaustions = 0 := by
      rw [happ.stats]
      exact h.exhaustions
    unfold accepted returnBlock
    dsimp only
    split_ifs <;> exact hex

end Place

/-! ### `submit` -/

theorem roomy_evicted {r r' : Router} (h : Inv r) (he : Evicts sinkIds r r') : Roomy r' := by
  intro k hreg
  have hsink : r'.sinks k = evicted r k := by rw [he.sinks, if_pos (mem_sinkIds k)]
  rw [hsink] at hreg ⊢
  exact evicted_count_lt h (by simpa using hreg)

/-- **Every valid block is accepted**: after the evictions a block is free. -/
theorem submit_accepts {r : Router} (h : Inv r) {input : InputBlock}
    (hpos : 0 < input.bytes.length) (hlen : input.bytes.length ≤ blockBytes) :
    ∃ i, (sinkIds.foldl evictIfFull r).freeHead = some i ∧
      submit r input = (some (nextNonzero r.stats.lastSequence),
        accepted (sinkIds.foldl evictIfFull r) i input) := by
  have he := evicts_all h
  have hfree := exists_free he.inv (roomy_evicted h he)
  obtain ⟨i, hi⟩ := Option.ne_none_iff_exists'.mp hfree
  refine ⟨i, hi, ?_⟩
  unfold submit
  dsimp only
  rw [if_neg (by omega), hi]
  dsimp only
  rw [he.stats]
  unfold accepted
  dsimp only
  rw [he.stats]
  rfl

theorem submit_of_invalid {r : Router} {input : InputBlock}
    (h : input.bytes.length = 0 ∨ blockBytes < input.bytes.length) :
    submit r input = (none, r) := by
  unfold submit
  exact if_pos h

theorem inv_submit {r : Router} (h : Inv r) (input : InputBlock) : Inv (submit r input).2 := by
  by_cases hvalid : input.bytes.length = 0 ∨ blockBytes < input.bytes.length
  · rw [submit_of_invalid hvalid]
    exact h
  · have he := evicts_all h
    obtain ⟨i, hi, hsub⟩ := submit_accepts h (show 0 < input.bytes.length by omega) (by omega)
    rw [hsub]
    exact inv_accepted he.inv (roomy_evicted h he) hi (by omega) (by omega)

end RlcdDeck.SerialRouter
