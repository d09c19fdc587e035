import RlcdDeck.SerialRouter.Fifo
import Mathlib.Algebra.Order.BigOperators.Group.List
import Mathlib.Data.List.Infix

/-!
# The pool invariant of the serial router

`Inv` ties the shared pool to the sinks: a block's reference count is the number of times it
occurs in the sinks' queues, the free list holds exactly the unreferenced blocks, and every
sink's byte total is the sum over its queue.  Any two queues are comparable (one is a suffix of
the other), since every block goes to every sink and leaves from the front only.

`removeFront_removes` is the step every operation is made of: it keeps the invariant, and leaves
every block that is still queued anywhere as it was (`Removes.stored`), which is what isolates
the sinks from each other.
-/

namespace RlcdDeck.SerialRouter

open Collections Counter

/-! ### Queues -/

/-- The block indices in a sink's queue, oldest first. -/
def contents (r : Router) (k : SinkId) : List ℕ :=
  (r.sinks k).blocks.contents

/-- How often a block occurs in the sinks' queues. -/
def occurrences (r : Router) (i : ℕ) : ℕ :=
  (sinkIds.map fun k => (contents r k).count i).sum

/-- What a block holds. -/
def stored (r : Router) (i : ℕ) : StoredBlock :=
  ⟨(r.metadata i).sequence, (r.metadata i).monotonicMs,
    (r.payloads i).take (r.metadata i).length⟩

theorem mem_sinkIds (k : SinkId) : k ∈ sinkIds := by
  cases k <;> simp [sinkIds]

theorem occurrences_eq (r : Router) (i : ℕ) :
    occurrences r i = (contents r .usb).count i + (contents r .wss).count i +
      (contents r .history).count i + (contents r .stats).count i := by
  simp only [occurrences, sinkIds, List.map_cons, List.map_nil, List.sum_cons, List.sum_nil]
  omega

theorem occurrences_pos_of_mem {r : Router} {k : SinkId} {i : ℕ} (h : i ∈ contents r k) :
    0 < occurrences r i := by
  have hcount := List.count_pos_iff.mpr h
  rw [occurrences_eq]
  cases k <;> omega

theorem exists_mem_of_occurrences_pos {r : Router} {i : ℕ} (h : 0 < occurrences r i) :
    ∃ k, i ∈ contents r k := by
  by_contra hnone
  push Not at hnone
  rw [occurrences_eq] at h
  simp only [List.count_eq_zero_of_not_mem (hnone _)] at h
  omega

/-- One queue is a suffix of the other. -/
def Comparable (l m : List ℕ) : Prop :=
  l <:+ m ∨ m <:+ l

theorem Comparable.of_suffix {l m l' m' : List ℕ} (h : Comparable l m) (hl : l' <:+ l)
    (hm : m' <:+ m) : Comparable l' m' := by
  rcases h with h | h
  · exact List.suffix_or_suffix_of_suffix (hl.trans h) hm
  · exact List.suffix_or_suffix_of_suffix hl (hm.trans h)

theorem Comparable.append {l m : List ℕ} (h : Comparable l m) (t : List ℕ) :
    Comparable (l ++ t) (m ++ t) :=
  h.imp (fun ⟨s, hs⟩ => ⟨s, by rw [← List.append_assoc, hs]⟩)
    (fun ⟨s, hs⟩ => ⟨s, by rw [← List.append_assoc, hs]⟩)

/-! ### The invariant -/

/-- The shape of one sink. -/
structure SinkShape (poolBlocks : ℕ) (s : Sink) : Prop where
  idle : s.registered = false → s = {}
  head : s.registered = true → s.blocks.head < s.blocks.capacity
  fits : s.blocks.capacity ≤ poolBlocks
  bytes : s.config.capacityBytes = s.blocks.capacity * blockBytes
  count : s.blocks.count ≤ s.blocks.capacity

/-- What holds of the router between any two calls. -/
structure Inv (r : Router) : Prop where
  pool : ∃ free, FreeChain (fun i => (r.metadata i).nextFree) r.freeHead free ∧ free.Nodup ∧
    ∀ i, i ∈ free ↔ i < r.poolBlocks ∧ (r.metadata i).references = 0
  positive : 0 < r.poolBlocks
  small : r.poolBlocks ≤ 8192
  capacity : r.poolCapacityBytes = r.poolBlocks * blockBytes
  references : ∀ i, (r.metadata i).references = occurrences r i
  bound : ∀ k, ∀ i ∈ contents r k, i < r.poolBlocks
  nodup : ∀ k, (contents r k).Nodup
  comparable : ∀ j k, Comparable (contents r j) (contents r k)
  lengths : ∀ k, ∀ i ∈ contents r k,
    0 < (r.metadata i).length ∧ (r.metadata i).length ≤ blockBytes
  queued : ∀ k, (r.sinks k).queuedBytes =
    ((contents r k).map fun i => (r.metadata i).length).sum
  payload : ∀ i, (r.payloads i).length = blockBytes
  shape : ∀ k, SinkShape r.poolBlocks (r.sinks k)
  exhaustions : r.stats.poolExhaustions = 0

theorem sum_lengths_le {r : Router} {l : List ℕ}
    (h : ∀ i ∈ l, (r.metadata i).length ≤ blockBytes) :
    (l.map fun i => (r.metadata i).length).sum ≤ l.length * blockBytes := by
  have hsum := List.sum_le_card_nsmul (l.map fun i => (r.metadata i).length) blockBytes
    (by simpa using h)
  simpa using hsum

theorem queuedBytes_le {r : Router} (h : Inv r) (k : SinkId) :
    (r.sinks k).queuedBytes ≤ (r.sinks k).config.capacityBytes := by
  rw [h.queued, (h.shape k).bytes]
  refine (sum_lengths_le fun i hi => (h.lengths k i hi).2).trans ?_
  exact Nat.mul_le_mul_right _ (by rw [contents, RingBuffer.length_contents]; exact (h.shape k).count)

theorem queuedBytes_lt {r : Router} (h : Inv r) (k : SinkId) :
    (r.sinks k).queuedBytes + blockBytes < 2 ^ 32 := by
  have hle := queuedBytes_le h k
  have hfits : (r.sinks k).config.capacityBytes ≤ 8192 * 256 := by
    rw [(h.shape k).bytes]
    exact Nat.mul_le_mul_right _ ((h.shape k).fits.trans h.small)
  unfold blockBytes
  omega

/-! ### Removing the front of a queue -/

theorem contents_update (r : Router) (k : SinkId) (s : Sink) (j : SinkId) :
    contents { r with sinks := Function.update r.sinks k s } j =
      if j = k then s.blocks.contents else contents r j := by
  unfold contents
  by_cases hj : j = k
  · subst hj
    simp
  · simp [hj]

@[simp] theorem countRemoval_blocks (s : Sink) (why : Removal) (n : ℕ) :
    (s.countRemoval why n).blocks = s.blocks := by
  cases why <;> rfl

@[simp] theorem countRemoval_queuedBytes (s : Sink) (why : Removal) (n : ℕ) :
    (s.countRemoval why n).queuedBytes = s.queuedBytes := by
  cases why <;> rfl

@[simp] theorem countRemoval_registered (s : Sink) (why : Removal) (n : ℕ) :
    (s.countRemoval why n).registered = s.registered := by
  cases why <;> rfl

@[simp] theorem countRemoval_config (s : Sink) (why : Removal) (n : ℕ) :
    (s.countRemoval why n).config = s.config := by
  cases why <;> rfl

@[simp] theorem releaseReference_sinks (r : Router) (i : ℕ) :
    (releaseReference r i).sinks = r.sinks := by
  unfold releaseReference returnBlock
  dsimp only
  split_ifs <;> rfl

@[simp] theorem releaseReference_stats (r : Router) (i : ℕ) :
    (releaseReference r i).stats = r.stats := by
  unfold releaseReference returnBlock
  dsimp only
  split_ifs <;> rfl

@[simp] theorem releaseReference_poolBlocks (r : Router) (i : ℕ) :
    (releaseReference r i).poolBlocks = r.poolBlocks := by
  unfold releaseReference returnBlock
  dsimp only
  split_ifs <;> rfl

@[simp] theorem releaseReference_poolCapacityBytes (r : Router) (i : ℕ) :
    (releaseReference r i).poolCapacityBytes = r.poolCapacityBytes := by
  unfold releaseReference returnBlock
  dsimp only
  split_ifs <;> rfl

@[simp] theorem releaseReference_sessionId (r : Router) (i : ℕ) :
    (releaseReference r i).sessionId = r.sessionId := by
  unfold releaseReference returnBlock
  dsimp only
  split_ifs <;> rfl

theorem releaseReference_of_ne (r : Router) {i j : ℕ} (hj : j ≠ i) :
    (releaseReference r i).metadata j = r.metadata j ∧
      (releaseReference r i).payloads j = r.payloads j := by
  unfold releaseReference returnBlock
  dsimp only
  split_ifs <;> simp [hj]

theorem releaseReference_of_one {r : Router} {i : ℕ} (h : (r.metadata i).references = 1) :
    (releaseReference r i).metadata i = { nextFree := r.freeHead } ∧
      (releaseReference r i).payloads i = List.replicate blockBytes 0 ∧
      (releaseReference r i).freeHead = some i := by
  unfold releaseReference returnBlock
  simp [h]

theorem releaseReference_of_two_le {r : Router} {i : ℕ} (h : 2 ≤ (r.metadata i).references) :
    (releaseReference r i).metadata i =
        { r.metadata i with references := (r.metadata i).references - 1 } ∧
      (releaseReference r i).payloads = r.payloads ∧
      (releaseReference r i).freeHead = r.freeHead := by
  have h0 : (r.metadata i).references ≠ 0 := by omega
  have h1 : (r.metadata i).references - 1 ≠ 0 := by omega
  unfold releaseReference
  simp [h0, h1]

theorem releaseReference_references {r : Router} {i : ℕ} (h : (r.metadata i).references ≠ 0) :
    ((releaseReference r i).metadata i).references = (r.metadata i).references - 1 := by
  rcases Nat.lt_or_ge (r.metadata i).references 2 with hlt | hge
  · have hone : (r.metadata i).references = 1 := by omega
    rw [(releaseReference_of_one hone).1, hone]
  · rw [(releaseReference_of_two_le hge).1]

/-- The sink after its front block of `length` bytes was removed. -/
def Sink.removed (s : Sink) (why : Removal) (length : ℕ) : Sink :=
  Sink.countRemoval
    { s with blocks := s.blocks.pop, queuedBytes := subSize s.queuedBytes length } why length

/-- `r'` is `r` after the front block `i` of the sink `k` was removed. -/
structure Removes (r r' : Router) (k : SinkId) (why : Removal) (i : ℕ) : Prop where
  inv : Inv r'
  front : contents r k = i :: contents r' k
  sink : r'.sinks k = (r.sinks k).removed why (r.metadata i).length
  others : ∀ j, j ≠ k → r'.sinks j = r.sinks j
  /-- A block that is still queued holds what it held. -/
  stored : ∀ j, ∀ x ∈ contents r' j,
    stored r' x = stored r x ∧ (r'.metadata x).length = (r.metadata x).length
  stats : r'.stats = r.stats
  sessionId : r'.sessionId = r.sessionId
  poolBlocks : r'.poolBlocks = r.poolBlocks
  poolCapacityBytes : r'.poolCapacityBytes = r.poolCapacityBytes

theorem subSize_eq {a b : ℕ} (hle : b ≤ a) (hlt : a < 2 ^ 32) : subSize a b = a - b := by
  unfold subSize
  rw [show a + 2 ^ 32 - b = a - b + 2 ^ 32 by omega, Nat.add_mod_right]
  exact Nat.mod_eq_of_lt (by omega)

theorem contents_eq_front {r : Router} (h : Inv r) {k : SinkId}
    (hk : (r.sinks k).blocks.count ≠ 0) :
    contents r k = (r.sinks k).blocks.slots (r.sinks k).blocks.head ::
      (r.sinks k).blocks.pop.contents := by
  have hreg : (r.sinks k).registered = true := by
    by_contra hne
    rw [Bool.not_eq_true] at hne
    rw [(h.shape k).idle hne] at hk
    exact hk rfl
  unfold contents
  rw [RingBuffer.contents_eq_cons hk]
  congr 1
  unfold RingBuffer.peek
  rw [Nat.add_zero, Nat.mod_eq_of_lt ((h.shape k).head hreg)]

theorem occurrences_remove {r r' : Router} {k : SinkId} {i : ℕ}
    (hfront : contents r k = i :: contents r' k)
    (hothers : ∀ j, j ≠ k → contents r' j = contents r j) (x : ℕ) :
    occurrences r x = occurrences r' x + if x = i then 1 else 0 := by
  have hk : (contents r k).count x = (contents r' k).count x + if x = i then 1 else 0 := by
    rw [hfront, List.count_cons]
    by_cases hx : x = i
    · simp [hx]
    · simp [hx, Ne.symm hx]
  rw [occurrences_eq, occurrences_eq]
  cases k with
  | usb =>
    rw [hk, hothers .wss (by simp), hothers .history (by simp), hothers .stats (by simp)]
    omega
  | wss =>
    rw [hk, hothers .usb (by simp), hothers .history (by simp), hothers .stats (by simp)]
    omega
  | history =>
    rw [hk, hothers .usb (by simp), hothers .wss (by simp), hothers .stats (by simp)]
    omega
  | stats =>
    rw [hk, hothers .usb (by simp), hothers .wss (by simp), hothers .history (by simp)]
    omega

/-- The pool after one reference was released. -/
theorem pool_releaseReference {r : Router} {i : ℕ} (hi : i < r.poolBlocks)
    (hpool : ∃ free, FreeChain (fun i => (r.metadata i).nextFree) r.freeHead free ∧ free.Nodup ∧
      ∀ i, i ∈ free ↔ i < r.poolBlocks ∧ (r.metadata i).references = 0)
    (href : (r.metadata i).references ≠ 0) :
    ∃ free, FreeChain (fun j => ((releaseReference r i).metadata j).nextFree)
        (releaseReference r i).freeHead free ∧ free.Nodup ∧
      ∀ j, j ∈ free ↔ j < (releaseReference r i).poolBlocks ∧
        ((releaseReference r i).metadata j).references = 0 := by
  obtain ⟨free, hchain, hnodup, hmem⟩ := hpool
  have hnot : i ∉ free := fun hin => href ((hmem i).mp hin).2
  have hrefs := releaseReference_references href
  rw [releaseReference_poolBlocks]
  rcases Nat.lt_or_ge (r.metadata i).references 2 with hlt | hge
  · -- the block goes to the front of the free list
    have hone : (r.metadata i).references = 1 := by omega
    obtain ⟨hmeta, -, hhead⟩ := releaseReference_of_one hone
    have hnext : (fun j => ((releaseReference r i).metadata j).nextFree) =
        Function.update (fun j => (r.metadata j).nextFree) i r.freeHead := by
      funext j
      by_cases hj : j = i
      · subst hj
        rw [hmeta, Function.update_self]
      · rw [(releaseReference_of_ne r hj).1, Function.update_of_ne hj]
    refine ⟨i :: free, ?_, List.nodup_cons.mpr ⟨hnot, hnodup⟩, fun j => ?_⟩
    · rw [hnext, hhead]
      exact hchain.push hnot
    · by_cases hj : j = i
      · subst hj
        simp [hrefs, hone, hi]
      · rw [(releaseReference_of_ne r hj).1, List.mem_cons, ← hmem]
        simp [hj]
  · obtain ⟨hmeta, -, hhead⟩ := releaseReference_of_two_le hge
    have hnext : (fun j => ((releaseReference r i).metadata j).nextFree) =
        fun j => (r.metadata j).nextFree := by
      funext j
      by_cases hj : j = i
      · subst hj
        rw [hmeta]
      · rw [(releaseReference_of_ne r hj).1]
    refine ⟨free, by rw [hnext, hhead]; exact hchain, hnodup, fun j => ?_⟩
    by_cases hj : j = i
    · subst hj
      rw [hrefs]
      exact iff_of_false hnot (by omega)
    · rw [(releaseReference_of_ne r hj).1]
      exact hmem j

theorem releaseReference_stored {r : Router} {i x : ℕ} (href : (r.metadata i).references ≠ 0)
    (hx : ((releaseReference r i).metadata x).references ≠ 0) :
    stored (releaseReference r i) x = stored r x ∧
      ((releaseReference r i).metadata x).length = (r.metadata x).length := by
  by_cases hxi : x = i
  · subst hxi
    have hge : 2 ≤ (r.metadata x).references := by
      rw [releaseReference_references href] at hx
      omega
    obtain ⟨hmeta, hpay, -⟩ := releaseReference_of_two_le hge
    unfold stored
    rw [hmeta, hpay]
    exact ⟨rfl, rfl⟩
  · obtain ⟨hmeta, hpay⟩ := releaseReference_of_ne r hxi
    unfold stored
    rw [hmeta, hpay]
    exact ⟨rfl, rfl⟩

theorem payload_releaseReference {r : Router} (h : ∀ i, (r.payloads i).length = blockBytes)
    (i j : ℕ) : ((releaseReference r i).payloads j).length = blockBytes := by
  unfold releaseReference returnBlock
  dsimp only
  split_ifs
  · exact h j
  · by_cases hj : j = i
    · subst hj
      simp
    · simp [hj, h j]
  · exact h j

theorem removed_shape {r : Router} (h : Inv r) {k : SinkId}
    (hk : (r.sinks k).blocks.count ≠ 0) (why : Removal) (n : ℕ) :
    SinkShape r.poolBlocks ((r.sinks k).removed why n) := by
  obtain ⟨hidle, hhead, hfits, hbytes, hcount⟩ := h.shape k
  have hblocks : ((r.sinks k).removed why n).blocks = (r.sinks k).blocks.pop :=
    countRemoval_blocks _ _ _
  have hconfig : ((r.sinks k).removed why n).config = (r.sinks k).config :=
    countRemoval_config _ _ _
  have hreg : ((r.sinks k).removed why n).registered = (r.sinks k).registered :=
    countRemoval_registered _ _ _
  refine ⟨fun hr => ?_, fun _ => ?_, ?_, ?_, ?_⟩
  · rw [hreg] at hr
    rw [hidle hr] at hk
    exact absurd rfl hk
  · rw [hblocks]
    exact Nat.mod_lt _ (by omega)
  · rw [hblocks]
    exact hfits
  · rw [hblocks, hconfig]
    exact hbytes
  · rw [hblocks]
    exact (Nat.sub_le _ _).trans hcount

/-- The router after the front block `i` left the queue of `k` and its reference was released. -/
def detach (r : Router) (k : SinkId) (why : Removal) (i : ℕ) : Router :=
  let sink := (r.sinks k).removed why (r.metadata i).length
  releaseReference { r with sinks := Function.update r.sinks k sink } i

theorem removeFront_eq_detach {r : Router} {k : SinkId} (hk : (r.sinks k).blocks.count ≠ 0)
    (why : Removal) :
    removeFront r k why = detach r k why ((r.sinks k).blocks.slots (r.sinks k).blocks.head) := by
  unfold removeFront
  rw [if_neg hk]
  rfl

section Detach

variable {r : Router} {k : SinkId} {i : ℕ} (why : Removal)

theorem detach_sink_self : (detach r k why i).sinks k =
    (r.sinks k).removed why (r.metadata i).length := by
  simp [detach]

theorem detach_sink_of_ne {j : SinkId} (hj : j ≠ k) :
    (detach r k why i).sinks j = r.sinks j := by
  simp [detach, hj]

theorem detach_front (hcons : contents r k = i :: (r.sinks k).blocks.pop.contents) :
    contents r k = i :: contents (detach r k why i) k := by
  rw [hcons, contents, detach_sink_self, Sink.removed, countRemoval_blocks]

theorem detach_contents_of_ne {j : SinkId} (hj : j ≠ k) :
    contents (detach r k why i) j = contents r j := by
  rw [contents, detach_sink_of_ne why hj, contents]

theorem detach_suffix (hcons : contents r k = i :: (r.sinks k).blocks.pop.contents)
    (j : SinkId) : contents (detach r k why i) j <:+ contents r j := by
  by_cases hj : j = k
  · subst hj
    rw [detach_front why hcons]
    exact List.suffix_cons _ _
  · rw [detach_contents_of_ne why hj]

theorem detach_references (h : Inv r)
    (hcons : contents r k = i :: (r.sinks k).blocks.pop.contents) (x : ℕ) :
    ((detach r k why i).metadata x).references = occurrences (detach r k why i) x := by
  have hocc := occurrences_remove (detach_front why hcons)
    (fun j hj => detach_contents_of_ne why hj) x
  rw [← h.references] at hocc
  by_cases hx : x = i
  · subst hx
    rw [if_pos rfl] at hocc
    unfold detach at hocc ⊢
    rw [releaseReference_references (by show (r.metadata x).references ≠ 0; omega)]
    show (r.metadata x).references - 1 = _
    omega
  · rw [if_neg hx] at hocc
    rw [detach, (releaseReference_of_ne _ hx).1]
    exact hocc

theorem references_ne_zero (h : Inv r)
    (hcons : contents r k = i :: (r.sinks k).blocks.pop.contents) :
    (r.metadata i).references ≠ 0 := by
  rw [h.references]
  exact (occurrences_pos_of_mem (k := k) (hcons ▸ List.mem_cons_self)).ne'

theorem detach_stored (h : Inv r)
    (hcons : contents r k = i :: (r.sinks k).blocks.pop.contents) {j : SinkId} {x : ℕ}
    (hx : x ∈ contents (detach r k why i) j) :
    stored (detach r k why i) x = stored r x ∧
      ((detach r k why i).metadata x).length = (r.metadata x).length := by
  have hpos := (occurrences_pos_of_mem hx).ne'
  rw [← detach_references why h hcons] at hpos
  have href := references_ne_zero h hcons
  unfold detach at hpos ⊢
  exact releaseReference_stored (by exact href) hpos

theorem detach_queued (h : Inv r)
    (hcons : contents r k = i :: (r.sinks k).blocks.pop.contents) (j : SinkId) :
    ((detach r k why i).sinks j).queuedBytes =
      ((contents (detach r k why i) j).map
        fun x => ((detach r k why i).metadata x).length).sum := by
  have hsum : ((contents (detach r k why i) j).map
      fun x => ((detach r k why i).metadata x).length) =
      (contents (detach r k why i) j).map fun x => (r.metadata x).length :=
    List.map_congr_left fun x hx => (detach_stored why h hcons hx).2
  have htotal := h.queued j
  rw [hsum]
  by_cases hj : j = k
  · subst hj
    have hlt := queuedBytes_lt h j
    rw [detach_front why hcons, List.map_cons, List.sum_cons] at htotal
    rw [detach_sink_self, Sink.removed, countRemoval_queuedBytes]
    show subSize (r.sinks j).queuedBytes (r.metadata i).length = _
    rw [subSize_eq (by omega) (by omega)]
    omega
  · rw [detach_contents_of_ne why hj, detach_sink_of_ne why hj]
    exact htotal

theorem inv_detach (h : Inv r)
    (hcons : contents r k = i :: (r.sinks k).blocks.pop.contents)
    (hk : (r.sinks k).blocks.count ≠ 0) : Inv (detach r k why i) := by
  have hsuffix := detach_suffix why hcons
  have hmem : i ∈ contents r k := hcons ▸ List.mem_cons_self
  have hblocks : (detach r k why i).poolBlocks = r.poolBlocks := releaseReference_poolBlocks _ _
  constructor
  · have href := references_ne_zero h hcons
    unfold detach
    exact pool_releaseReference (by exact h.bound k i hmem) h.pool (by exact href)
  · exact hblocks ▸ h.positive
  · exact hblocks ▸ h.small
  · rw [hblocks, detach, releaseReference_poolCapacityBytes]
    exact h.capacity
  · exact detach_references why h hcons
  · intro j x hx
    rw [hblocks]
    exact h.bound j x ((hsuffix j).subset hx)
  · exact fun j => (h.nodup j).sublist (hsuffix j).sublist
  · exact fun a b => (h.comparable a b).of_suffix (hsuffix a) (hsuffix b)
  · intro j x hx
    rw [(detach_stored why h hcons hx).2]
    exact h.lengths j x ((hsuffix j).subset hx)
  · exact detach_queued why h hcons
  · intro j
    unfold detach
    exact payload_releaseReference (by exact h.payload) i j
  · intro j
    rw [hblocks]
    by_cases hj : j = k
    · subst hj
      rw [detach_sink_self]
      exact removed_shape h hk why _
    · rw [detach_sink_of_ne why hj]
      exact h.shape j
  · rw [detach, releaseReference_stats]
    exact h.exhaustions

end Detach

/-- **Removing the front** of a nonempty queue. -/
theorem removeFront_removes {r : Router} (h : Inv r) {k : SinkId}
    (hk : (r.sinks k).blocks.count ≠ 0) (why : Removal) :
    Removes r (removeFront r k why) k why
      ((r.sinks k).blocks.slots (r.sinks k).blocks.head) := by
  have hcons := contents_eq_front h hk
  rw [removeFront_eq_detach hk]
  exact
    { inv := inv_detach why h hcons hk
      front := detach_front why hcons
      sink := detach_sink_self why
      others := fun j hj => detach_sink_of_ne why hj
      stored := fun j x hx => detach_stored why h hcons hx
      stats := releaseReference_stats _ _
      sessionId := releaseReference_sessionId _ _
      poolBlocks := releaseReference_poolBlocks _ _
      poolCapacityBytes := releaseReference_poolCapacityBytes _ _ }

theorem removeFront_of_count_eq_zero {r : Router} {k : SinkId}
    (hk : (r.sinks k).blocks.count = 0) (why : Removal) : removeFront r k why = r := by
  unfold removeFront
  rw [if_pos hk]

end RlcdDeck.SerialRouter
