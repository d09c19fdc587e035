import RlcdDeck.SerialRouter.Equiv.Submit

/-!
# The calls on a sink and its stand-alone queue

`fifoOf r k` is the queue the sink `k` stands for.  Every call keeps the pool invariant and acts
on that queue as the stand-alone sink does; calls on other sinks leave it alone.
-/

namespace RlcdDeck.SerialRouter

open Collections Counter

/-! ### The queue a sink stands for -/

/-- The contents of a sink's queue. -/
def toFifo (r : Router) (s : Sink) : Fifo :=
  { capacityBytes := s.config.capacityBytes
    capacityBlocks := s.blocks.capacity
    retained := s.config.retained
    queue := s.blocks.contents.map (stored r)
    overwrittenBytes := s.overwrittenBytes
    overwrittenBlocks := s.overwrittenBlocks
    deliveredBytes := s.deliveredBytes
    deliveredBlocks := s.deliveredBlocks
    clearedBytes := s.clearedBytes
    clearedBlocks := s.clearedBlocks }

def fifoOf (r : Router) (k : SinkId) : Option Fifo :=
  if (r.sinks k).registered then some (toFifo r (r.sinks k)) else none

variable {r r' : Router}

theorem toFifo_congr {s : Sink} (h : ∀ x ∈ s.blocks.contents, stored r' x = stored r x) :
    toFifo r' s = toFifo r s := by
  unfold toFifo
  rw [List.map_congr_left h]

variable {k : SinkId}

theorem fifoOf_congr (hsink : r'.sinks k = r.sinks k)
    (h : ∀ x ∈ contents r k, stored r' x = stored r x) : fifoOf r' k = fifoOf r k := by
  unfold fifoOf
  rw [hsink, toFifo_congr h]

theorem length_stored (h : Inv r) {k : SinkId} {i : ℕ} (hi : i ∈ contents r k) :
    (stored r i).bytes.length = (r.metadata i).length := by
  have hlen := (h.lengths k i hi).2
  show ((r.payloads i).take _).length = _
  rw [List.length_take, h.payload]
  exact Nat.min_eq_left hlen

theorem copyBlock_eq_routed (h : Inv r) {k : SinkId} {i : ℕ} (hi : i ∈ contents r k) :
    copyBlock r i = Fifo.routed r.sessionId (stored r i) := by
  unfold copyBlock Fifo.routed
  rw [length_stored h hi]
  rfl

theorem toFifo_queuedBytes (h : Inv r) (k : SinkId) :
    (toFifo r (r.sinks k)).queuedBytes = (r.sinks k).queuedBytes := by
  rw [h.queued]
  show (((contents r k).map (stored r)).map _).sum = _
  rw [List.map_map]
  congr 1
  apply List.map_congr_left
  intro i hi
  exact length_stored h hi

/-! ### Removals -/

theorem toFifo_removed (r : Router) (s : Sink) (why : Removal) (n : ℕ) :
    toFifo r (s.removed why n) =
      Fifo.countRemoval { toFifo r s with queue := s.blocks.pop.contents.map (stored r) } why
        n := by
  cases why <;> rfl

variable {why : Removal} {i : ℕ}

theorem removes_toFifo (h : Inv r) (hrem : Removes r r' k why i) :
    toFifo r' (r'.sinks k) = (toFifo r (r.sinks k)).remove why := by
  have hmem : i ∈ contents r k := hrem.front ▸ List.mem_cons_self
  have hqueue : (toFifo r (r.sinks k)).queue =
      stored r i :: (contents r' k).map (stored r) := by
    show (contents r k).map (stored r) = _
    rw [hrem.front, List.map_cons]
  have hpop : contents r' k = (r.sinks k).blocks.pop.contents := by
    unfold contents
    rw [hrem.sink, Sink.removed, countRemoval_blocks]
  rw [toFifo_congr fun x hx => (hrem.stored k x hx).1, hrem.sink, toFifo_removed, Fifo.remove,
    hqueue]
  dsimp only
  rw [hpop, length_stored h hmem]

theorem removes_fifoOf_of_ne {j : SinkId} (hrem : Removes r r' k why i) (hj : j ≠ k) :
    fifoOf r' j = fifoOf r j := by
  have hsink := hrem.others j hj
  refine fifoOf_congr hsink fun x hx => (hrem.stored j x ?_).1
  unfold contents at hx ⊢
  rwa [hsink]

theorem removes_sink (hrem : Removes r r' k why i) :
    (r'.sinks k).registered = (r.sinks k).registered ∧
      (r'.sinks k).config = (r.sinks k).config ∧
      (r'.sinks k).blocks.count = (r.sinks k).blocks.count - 1 ∧
      (r'.sinks k).blocks.capacity = (r.sinks k).blocks.capacity := by
  rw [hrem.sink, Sink.removed, countRemoval_registered, countRemoval_config,
    countRemoval_blocks]
  exact ⟨rfl, rfl, rfl, rfl⟩

/-- The rest of the router is as it was: the other sinks, and what is not a sink. -/
structure Frame (r r' : Router) (k : SinkId) : Prop where
  fifos : ∀ j, j ≠ k → fifoOf r' j = fifoOf r j
  stats : r'.stats = r.stats
  sessionId : r'.sessionId = r.sessionId
  poolCapacityBytes : r'.poolCapacityBytes = r.poolCapacityBytes

theorem Frame.refl (r : Router) (k : SinkId) : Frame r r k :=
  ⟨fun _ _ => rfl, rfl, rfl, rfl⟩

theorem Frame.trans {a b c : Router} (h : Frame a b k) (h' : Frame b c k) :
    Frame a c k :=
  ⟨fun j hj => (h'.fifos j hj).trans (h.fifos j hj), h'.stats.trans h.stats,
    h'.sessionId.trans h.sessionId, h'.poolCapacityBytes.trans h.poolCapacityBytes⟩

theorem removes_frame (hrem : Removes r r' k why i) : Frame r r' k :=
  ⟨fun _ hj => removes_fifoOf_of_ne hrem hj, hrem.stats, hrem.sessionId, hrem.poolCapacityBytes⟩

/-- **Emptying a queue**, one block after the other. -/
theorem removeAll_spec (h : Inv r) {k : SinkId} {n : ℕ} (hn : (r.sinks k).blocks.count = n) :
    Inv (removeAll k n r) ∧ Frame r (removeAll k n r) k ∧
      ((removeAll k n r).sinks k).blocks.count = 0 ∧
      ((removeAll k n r).sinks k).registered = (r.sinks k).registered ∧
      toFifo (removeAll k n r) ((removeAll k n r).sinks k) =
        Fifo.removeAll n (toFifo r (r.sinks k)) := by
  induction n generalizing r with
  | zero => exact ⟨h, .refl r k, hn, rfl, rfl⟩
  | succ n ih =>
    have hk : (r.sinks k).blocks.count ≠ 0 := by omega
    have hrem := removeFront_removes h hk .cleared
    obtain ⟨hreg, -, hcount, -⟩ := removes_sink hrem
    obtain ⟨hinv, hframe, hzero, hreg', hfifo⟩ :=
      ih hrem.inv (by rw [hcount, hn]; rfl)
    refine ⟨hinv, (removes_frame hrem).trans hframe, hzero, hreg'.trans hreg, ?_⟩
    rw [Fifo.removeAll, ← removes_toFifo h hrem]
    exact hfifo

/-! ### Replacing a sink -/

/-- A sink may be replaced by one with the same queue. -/
theorem inv_setSink (h : Inv r) {k : SinkId} {s : Sink} (hshape : SinkShape r.poolBlocks s)
    (hcontents : s.blocks.contents = contents r k)
    (hqueued : s.queuedBytes = (r.sinks k).queuedBytes) :
    Inv { r with sinks := Function.update r.sinks k s } := by
  have hsame : ∀ j, contents { r with sinks := Function.update r.sinks k s } j = contents r j := by
    intro j
    rw [contents_update]
    split_ifs with hj
    · rw [hj, hcontents]
    · rfl
  constructor
  · exact h.pool
  · exact h.positive
  · exact h.small
  · exact h.capacity
  · intro i
    rw [occurrences_eq]
    simp only [hsame]
    rw [← occurrences_eq]
    exact h.references i
  · intro j
    rw [hsame]
    exact h.bound j
  · intro j
    rw [hsame]
    exact h.nodup j
  · intro j l
    rw [hsame, hsame]
    exact h.comparable j l
  · intro j
    rw [hsame]
    exact h.lengths j
  · intro j
    rw [hsame]
    by_cases hj : j = k
    · subst hj
      show (Function.update r.sinks j s j).queuedBytes = _
      rw [Function.update_self, hqueued]
      exact h.queued j
    · show (Function.update r.sinks k s j).queuedBytes = _
      rw [Function.update_of_ne hj]
      exact h.queued j
  · exact h.payload
  · intro j
    by_cases hj : j = k
    · subst hj
      show SinkShape _ (Function.update r.sinks j s j)
      rw [Function.update_self]
      exact hshape
    · show SinkShape _ (Function.update r.sinks k s j)
      rw [Function.update_of_ne hj]
      exact h.shape j
  · exact h.exhaustions

theorem frame_setSink (r : Router) (k : SinkId) (s : Sink) :
    Frame r { r with sinks := Function.update r.sinks k s } k := by
  refine ⟨fun j hj => fifoOf_congr ?_ fun _ _ => rfl, rfl, rfl, rfl⟩
  exact Function.update_of_ne hj _ _

theorem fifoOf_setSink (r : Router) (k : SinkId) (s : Sink) :
    fifoOf { r with sinks := Function.update r.sinks k s } k =
      if s.registered then some (toFifo r s) else none := by
  unfold fifoOf
  simp only [Function.update_self]
  rfl

theorem contents_eq_nil {s : Sink} (h : s.blocks.count = 0) : s.blocks.contents = [] :=
  (RingBuffer.contents_eq_nil_iff _).mpr h

/-! ### Clearing, registering, unregistering -/

theorem toFifo_queue_length (r : Router) (s : Sink) :
    (toFifo r s).queue.length = s.blocks.count := by
  simp [toFifo]

/-- Clearing a sink empties its queue and nothing else. -/
theorem clearSinkLocked_spec (h : Inv r) (k : SinkId) :
    Inv (clearSinkLocked r k) ∧ Frame r (clearSinkLocked r k) k ∧
      ((clearSinkLocked r k).sinks k).blocks.count = 0 ∧
      ((clearSinkLocked r k).sinks k).registered = (r.sinks k).registered ∧
      toFifo (clearSinkLocked r k) ((clearSinkLocked r k).sinks k) =
        (toFifo r (r.sinks k)).clear := by
  obtain ⟨hinv, hframe, hzero, hreg, hfifo⟩ := removeAll_spec h (rfl : _ = (r.sinks k).blocks.count)
  unfold clearSinkLocked
  dsimp only
  generalize removeAll k (r.sinks k).blocks.count r = r' at hinv hframe hzero hreg hfifo ⊢
  set s : Sink := { r'.sinks k with blocks := { (r'.sinks k).blocks with head := 0 } } with hs
  have hcount : s.blocks.count = 0 := hzero
  have hnil : s.blocks.contents = [] := contents_eq_nil hcount
  have hnil' : (r'.sinks k).blocks.contents = [] := contents_eq_nil hzero
  have hshape : SinkShape r'.poolBlocks s := by
    obtain ⟨hidle, hhead, hfits, hbytes, hcount'⟩ := hinv.shape k
    refine ⟨fun hr => ?_, fun hr => ?_, hfits, hbytes, hcount'⟩
    · rw [hs, hidle hr]
      rfl
    · exact lt_of_le_of_lt (Nat.zero_le _) (hhead hr)
  refine ⟨inv_setSink hinv hshape (hnil.trans hnil'.symm) rfl,
    hframe.trans (frame_setSink r' k s), ?_, ?_, ?_⟩
  · simp only [Function.update_self]
    exact hcount
  · simp only [Function.update_self]
    exact hreg
  · rw [Fifo.clear, toFifo_queue_length, ← hfifo]
    simp only [Function.update_self]
    unfold toFifo
    rw [hnil, hnil']
    rfl

theorem fifoOf_of_registered (h : (r.sinks k).registered = true) :
    fifoOf r k = some (toFifo r (r.sinks k)) := by
  unfold fifoOf
  rw [if_pos h]

theorem fifoOf_of_not_registered (h : (r.sinks k).registered = false) : fifoOf r k = none := by
  unfold fifoOf
  rw [if_neg (by simp [h])]

theorem clearSink_spec (h : Inv r) (k : SinkId) :
    Inv (clearSink r k).2 ∧ Frame r (clearSink r k).2 k ∧
      (clearSink r k).1 = (fifoOf r k).isSome ∧
      fifoOf (clearSink r k).2 k = (fifoOf r k).map Fifo.clear := by
  unfold clearSink
  by_cases hreg : (r.sinks k).registered = false
  · rw [if_pos hreg, fifoOf_of_not_registered hreg]
    exact ⟨h, .refl r k, rfl, rfl⟩
  · rw [if_neg hreg]
    rw [Bool.not_eq_false] at hreg
    obtain ⟨hinv, hframe, -, hreg', hfifo⟩ := clearSinkLocked_spec h k
    rw [fifoOf_of_registered hreg, fifoOf_of_registered (hreg'.trans hreg), hfifo]
    exact ⟨hinv, hframe, rfl, rfl⟩

theorem sinkShape_default (poolBlocks : ℕ) : SinkShape poolBlocks {} :=
  ⟨fun _ => rfl, fun h => absurd h (by simp), Nat.zero_le _, rfl, le_refl _⟩

theorem unregisterSink_spec (h : Inv r) (k : SinkId) :
    Inv (unregisterSink r k).2 ∧ Frame r (unregisterSink r k).2 k ∧
      (unregisterSink r k).1 = (fifoOf r k).isSome ∧
      fifoOf (unregisterSink r k).2 k = none := by
  unfold unregisterSink
  by_cases hreg : (r.sinks k).registered = false
  · rw [if_pos hreg, fifoOf_of_not_registered hreg]
    exact ⟨h, .refl r k, rfl, rfl⟩
  · rw [if_neg hreg]
    rw [Bool.not_eq_false] at hreg
    obtain ⟨hinv, hframe, hzero, -, -⟩ := clearSinkLocked_spec h k
    have hnil : contents (clearSinkLocked r k) k = [] := contents_eq_nil hzero
    have hqueued := hinv.queued k
    rw [hnil] at hqueued
    dsimp only
    refine ⟨inv_setSink hinv (sinkShape_default _) hnil.symm hqueued.symm,
      hframe.trans (frame_setSink _ k {}), ?_, ?_⟩
    · rw [fifoOf_of_registered hreg]
      rfl
    · rw [fifoOf_setSink]
      rfl

/-- The session a sink belongs to, and its queue. -/
def solo (r : Router) (k : SinkId) : Solo :=
  ⟨r.sessionId, r.poolCapacityBytes, r.stats.lastSequence, fifoOf r k⟩

theorem validConfig_iff (r : Router) (k : SinkId) (config : SinkConfig) :
    (solo r k).validConfig config = true ↔
      ¬(config.capacityBytes = 0 ∨ config.capacityBytes % blockBytes ≠ 0 ∨
        r.poolCapacityBytes < config.capacityBytes ∨
        config.retained ≠ decide (config.id = .history) ∨
        (config.id = .history ∧ config.capacityBytes < historyMinBytes)) := by
  unfold Solo.validConfig solo
  simp only [Bool.and_eq_true, decide_eq_true_eq, Bool.not_eq_true', Bool.and_eq_false_iff,
    decide_eq_false_iff_not, not_or, not_not, not_lt, not_and_or, and_assoc, ne_eq]

theorem registerSink_spec (h : Inv r) (config : SinkConfig) (allocated : Bool) :
    Inv (registerSink r config allocated).2 ∧
      Frame r (registerSink r config allocated).2 config.id ∧
      (solo r config.id).register config allocated =
        ((registerSink r config allocated).1,
          solo (registerSink r config allocated).2 config.id) := by
  unfold registerSink Solo.register
  by_cases hbad : config.capacityBytes = 0 ∨ config.capacityBytes % blockBytes ≠ 0 ∨
      r.poolCapacityBytes < config.capacityBytes ∨
      config.retained ≠ decide (config.id = .history) ∨
      (config.id = .history ∧ config.capacityBytes < historyMinBytes)
  · have hno : (solo r config.id).validConfig config = false := by
      rw [← Bool.not_eq_true, validConfig_iff]
      exact not_not.mpr hbad
    rw [if_pos hbad]
    simp only [hno, Bool.false_and, Bool.false_eq_true, if_false]
    exact ⟨h, .refl r _, trivial⟩
  rw [if_neg hbad]
  have hyes := (validConfig_iff r config.id config).mpr hbad
  by_cases hreg : (r.sinks config.id).registered = true
  · have hsome : (solo r config.id).fifo.isNone = false := by
      show (fifoOf r config.id).isNone = false
      rw [fifoOf_of_registered hreg]
      rfl
    rw [if_pos hreg]
    simp only [hsome, Bool.and_false, Bool.false_and, Bool.false_eq_true, if_false]
    exact ⟨h, .refl r _, trivial⟩
  rw [if_neg hreg]
  rw [Bool.not_eq_true] at hreg
  have hnone : (solo r config.id).fifo.isNone = true := by
    show (fifoOf r config.id).isNone = true
    rw [fifoOf_of_not_registered hreg]
    rfl
  cases allocated with
  | false =>
    rw [if_pos rfl]
    simp only [Bool.and_false, Bool.false_eq_true, if_false]
    exact ⟨h, .refl r _, trivial⟩
  | true =>
    push Not at hbad
    obtain ⟨hcap, hmod, hle, -⟩ := hbad
    have hfresh := (h.shape config.id).idle hreg
    have hbytes : config.capacityBytes = config.capacityBytes / blockBytes * blockBytes :=
      (Nat.div_mul_cancel (Nat.dvd_of_mod_eq_zero hmod)).symm
    have hblocks : config.capacityBytes / blockBytes ≤ r.poolBlocks := by
      have hpool := h.capacity
      unfold blockBytes at hpool hbytes ⊢
      omega
    have hpositive : 0 < config.capacityBytes / blockBytes := by
      unfold blockBytes at hbytes ⊢
      omega
    rw [if_neg (by simp)]
    simp only [hyes, hnone, Bool.and_self, if_true]
    refine ⟨inv_setSink h ?_ ?_ rfl, frame_setSink r config.id _, ?_⟩
    · exact ⟨fun hr => absurd hr (by simp), fun _ => hpositive, hblocks, hbytes, Nat.zero_le _⟩
    · have hnil : contents r config.id = [] := contents_eq_nil (by rw [hfresh]; rfl)
      rw [RingBuffer.contents_empty, hnil]
    · unfold solo
      rw [fifoOf_setSink, hfresh]
      rfl

/-! ### Taking and copying -/

theorem toFifo_queue (r : Router) (k : SinkId) :
    (toFifo r (r.sinks k)).queue = (contents r k).map (stored r) := rfl

theorem queue_getElem? {offset : ℕ} (h : offset < (r.sinks k).blocks.count) :
    (toFifo r (r.sinks k)).queue[offset]? = some (stored r ((r.sinks k).blocks.peek offset)) := by
  rw [toFifo_queue, List.getElem?_map, contents, RingBuffer.getElem?_contents h]
  rfl

theorem peek_mem_contents {offset : ℕ}
    (h : offset < (r.sinks k).blocks.count) : (r.sinks k).blocks.peek offset ∈ contents r k :=
  List.mem_of_getElem? (RingBuffer.getElem?_contents h)

theorem queue_eq_cons (h : (r.sinks k).blocks.count ≠ 0) :
    ∃ rest, (toFifo r (r.sinks k)).queue = stored r ((r.sinks k).blocks.peek 0) :: rest :=
  ⟨(r.sinks k).blocks.pop.contents.map (stored r), by
    rw [toFifo_queue, contents, RingBuffer.contents_eq_cons h, List.map_cons]⟩

theorem queue_eq_nil (h : (r.sinks k).blocks.count = 0) :
    (toFifo r (r.sinks k)).queue = [] := by
  rw [toFifo_queue, contents, contents_eq_nil h, List.map_nil]

theorem take_registered (h : Inv r) {k : SinkId} (hreg : (r.sinks k).registered = true) :
    Inv (take r k).2 ∧ Frame r (take r k).2 k ∧
      fifoOf (take r k).2 k = some ((toFifo r (r.sinks k)).take r.sessionId).2 ∧
      (take r k).1 = ((toFifo r (r.sinks k)).take r.sessionId).1 := by
  cases hret : (r.sinks k).config.retained with
  | true =>
    have hcall : take r k = (.invalid, r) := by simp [take, hret]
    have hfifo : (toFifo r (r.sinks k)).take r.sessionId = (.invalid, toFifo r (r.sinks k)) := by
      simp [Fifo.take, toFifo, hret]
    rw [hcall, hfifo]
    exact ⟨h, .refl r k, fifoOf_of_registered hreg, rfl⟩
  | false =>
    have hret' : (toFifo r (r.sinks k)).retained = false := hret
    by_cases hk : (r.sinks k).blocks.count = 0
    · have hcall : take r k = (.empty, r) := by simp [take, hret, hreg, hk]
      have hfifo : (toFifo r (r.sinks k)).take r.sessionId = (.empty, toFifo r (r.sinks k)) := by
        simp [Fifo.take, hret', queue_eq_nil hk]
      rw [hcall, hfifo]
      exact ⟨h, .refl r k, fifoOf_of_registered hreg, rfl⟩
    · obtain ⟨rest, hrest⟩ := queue_eq_cons hk
      have hrem := removeFront_removes h hk .delivered
      have hmem := peek_mem_contents (Nat.pos_of_ne_zero hk)
      have hcall : take r k = (.ok (Fifo.routed r.sessionId (stored r ((r.sinks k).blocks.peek 0))),
          removeFront r k .delivered) := by
        simp [take, hret, hreg, hk, copyBlock_eq_routed h hmem]
      have hfifo : (toFifo r (r.sinks k)).take r.sessionId =
          (.ok (Fifo.routed r.sessionId (stored r ((r.sinks k).blocks.peek 0))),
            (toFifo r (r.sinks k)).remove .delivered) := by
        simp [Fifo.take, hret', hrest]
      rw [hcall, hfifo]
      refine ⟨hrem.inv, removes_frame hrem, ?_, rfl⟩
      rw [fifoOf_of_registered ((removes_sink hrem).1.trans hreg), removes_toFifo h hrem]

theorem solo_of_frame (hframe : Frame r r' k) :
    solo r' k = { solo r k with fifo := fifoOf r' k } := by
  unfold solo
  rw [hframe.stats, hframe.sessionId, hframe.poolCapacityBytes]

theorem solo_of_frame_of_ne {j : SinkId} (hframe : Frame r r' k) (hj : j ≠ k) :
    solo r' j = solo r j := by
  unfold solo
  rw [hframe.stats, hframe.sessionId, hframe.poolCapacityBytes, hframe.fifos j hj]

theorem take_spec (h : Inv r) (k : SinkId) :
    Inv (take r k).2 ∧ Frame r (take r k).2 k ∧
      (solo r k).perform (.take k) = (.copied (take r k).1, solo (take r k).2 k) := by
  by_cases hreg : (r.sinks k).registered = true
  · obtain ⟨hinv, hframe, hfifo, hresult⟩ := take_registered h hreg
    have hsome : (solo r k).fifo = some (toFifo r (r.sinks k)) := fifoOf_of_registered hreg
    refine ⟨hinv, hframe, ?_⟩
    rw [solo_of_frame hframe, hfifo, hresult]
    simp only [Solo.perform, hsome]
    rfl
  · rw [Bool.not_eq_true] at hreg
    have hnone : (solo r k).fifo = none := fifoOf_of_not_registered hreg
    have hcall : take r k = (.invalid, r) := by simp [take, hreg]
    rw [hcall]
    refine ⟨h, .refl r k, ?_⟩
    simp only [Solo.perform, hnone]

theorem findSequence_eq (r : Router) (s : Sink) (sequence : UInt64) :
    findSequence r s sequence =
      (toFifo r s).queue.findIdx? fun b => b.sequence == sequence := by
  unfold findSequence toFifo
  rw [RingBuffer.find?_range_peek s.blocks fun i => (r.metadata i).sequence == sequence,
    List.findIdx?_map]
  rfl

/-- Copying a queued block changes the counters only. -/
theorem deliver_spec (h : Inv r) {k : SinkId} {offset : ℕ}
    (hreg : (r.sinks k).registered = true) (hlt : offset < (r.sinks k).blocks.count) :
    Inv (deliver r k offset).2 ∧ Frame r (deliver r k offset).2 k ∧
      (deliver r k offset).1 =
        Fifo.routed r.sessionId (stored r ((r.sinks k).blocks.peek offset)) ∧
      fifoOf (deliver r k offset).2 k =
        some ((toFifo r (r.sinks k)).deliver (stored r ((r.sinks k).blocks.peek offset))) := by
  have hmem := peek_mem_contents hlt
  obtain ⟨hidle, hhead, hfits, hbytes, hcount⟩ := h.shape k
  unfold deliver
  dsimp only
  refine ⟨inv_setSink h ⟨fun hr => ?_, hhead, hfits, hbytes, hcount⟩ rfl rfl,
    frame_setSink r k _, copyBlock_eq_routed h hmem, ?_⟩
  · rw [hreg] at hr
    cases hr
  · rw [fifoOf_setSink, if_pos hreg, ← length_stored h hmem]
    rfl

theorem copyAfter_registered (h : Inv r) {k : SinkId} (after : UInt64)
    (hreg : (r.sinks k).registered = true) :
    Inv (copyAfter r k after).2 ∧ Frame r (copyAfter r k after).2 k ∧
      fifoOf (copyAfter r k after).2 k =
        some ((toFifo r (r.sinks k)).copyAfter r.sessionId after).2 ∧
      (copyAfter r k after).1 = ((toFifo r (r.sinks k)).copyAfter r.sessionId after).1 := by
  set f := toFifo r (r.sinks k) with hf
  have hsome : fifoOf r k = some f := fifoOf_of_registered hreg
  cases hret : (r.sinks k).config.retained with
  | false =>
    have hcall : copyAfter r k after = (.invalid, r) := by simp [copyAfter, hret]
    have hfifo : f.copyAfter r.sessionId after = (.invalid, f) := by
      simp [Fifo.copyAfter, hf, toFifo, hret]
    rw [hcall, hfifo]
    exact ⟨h, .refl r k, hsome, rfl⟩
  | true =>
    have hret' : f.retained = true := hret
    by_cases hk : (r.sinks k).blocks.count = 0
    · have hcall : copyAfter r k after = (.empty, r) := by simp [copyAfter, hret, hreg, hk]
      have hnil : f.queue = [] := queue_eq_nil hk
      have hfifo : f.copyAfter r.sessionId after = (.empty, f) := by
        simp [Fifo.copyAfter, hret', hnil]
      rw [hcall, hfifo]
      exact ⟨h, .refl r k, hsome, rfl⟩
    obtain ⟨rest, hrest⟩ := queue_eq_cons hk
    rw [← hf] at hrest
    obtain ⟨hinv, hframe, hblock, hdelivered⟩ := deliver_spec h hreg (Nat.pos_of_ne_zero hk)
    by_cases hafter : after = 0
    · have hcall : copyAfter r k after = (.ok (deliver r k 0).1, (deliver r k 0).2) := by
        simp [copyAfter, hret, hreg, hk, hafter]
      have hfifo : f.copyAfter r.sessionId after =
          (.ok (Fifo.routed r.sessionId (stored r ((r.sinks k).blocks.peek 0))),
            f.deliver (stored r ((r.sinks k).blocks.peek 0))) := by
        simp [Fifo.copyAfter, hret', hrest, hafter]
      rw [hcall, hfifo, hblock]
      exact ⟨hinv, hframe, hdelivered, rfl⟩
    have hfind : findSequence r (r.sinks k) after =
        f.queue.findIdx? fun b => b.sequence == after := findSequence_eq _ _ _
    cases hidx : findSequence r (r.sinks k) after with
    | none =>
      have hcall : copyAfter r k after = (.gap (deliver r k 0).1, (deliver r k 0).2) := by
        simp [copyAfter, hret, hreg, hk, hafter, hidx]
      have hfifo : f.copyAfter r.sessionId after =
          (.gap (Fifo.routed r.sessionId (stored r ((r.sinks k).blocks.peek 0))),
            f.deliver (stored r ((r.sinks k).blocks.peek 0))) := by
        unfold Fifo.copyAfter
        rw [← hfind, hidx, hrest]
        simp [hret', hafter]
      rw [hcall, hfifo, hblock]
      exact ⟨hinv, hframe, hdelivered, rfl⟩
    | some offset =>
      by_cases hlast : offset + 1 = (r.sinks k).blocks.count
      · have hnone : f.queue[offset + 1]? = none := by
          rw [List.getElem?_eq_none_iff, hf, toFifo_queue_length, hlast]
        have hcall : copyAfter r k after = (.empty, r) := by
          simp [copyAfter, hret, hreg, hk, hafter, hidx, hlast]
        have hfifo : f.copyAfter r.sessionId after = (.empty, f) := by
          unfold Fifo.copyAfter
          rw [← hfind, hidx, hrest]
          rw [hrest] at hnone
          simp only [hret', hafter, hnone, if_false]
          simp
        rw [hcall, hfifo]
        exact ⟨h, .refl r k, hsome, rfl⟩
      · have hlt : offset + 1 < (r.sinks k).blocks.count := by
          have hmem := List.find?_range_eq_some.mp hidx
          have hoff := List.mem_range.mp hmem.2.1
          omega
        have hget := queue_getElem? hlt
        rw [← hf] at hget
        obtain ⟨hinv, hframe, hblock, hdelivered⟩ := deliver_spec h hreg hlt
        have hcall : copyAfter r k after =
            (.ok (deliver r k (offset + 1)).1, (deliver r k (offset + 1)).2) := by
          simp [copyAfter, hret, hreg, hk, hafter, hidx, hlast]
        have hfifo : f.copyAfter r.sessionId after =
            (.ok (Fifo.routed r.sessionId (stored r ((r.sinks k).blocks.peek (offset + 1)))),
              f.deliver (stored r ((r.sinks k).blocks.peek (offset + 1)))) := by
          unfold Fifo.copyAfter
          rw [← hfind, hidx, hrest]
          rw [hrest] at hget
          simp only [hret', hafter, hget, if_false]
          simp
        rw [hcall, hfifo, hblock]
        exact ⟨hinv, hframe, hdelivered, rfl⟩

theorem copyAfter_spec (h : Inv r) (k : SinkId) (after : UInt64) :
    Inv (copyAfter r k after).2 ∧ Frame r (copyAfter r k after).2 k ∧
      (solo r k).perform (.copyAfter k after) =
        (.copied (copyAfter r k after).1, solo (copyAfter r k after).2 k) := by
  by_cases hreg : (r.sinks k).registered = true
  · obtain ⟨hinv, hframe, hfifo, hresult⟩ := copyAfter_registered h after hreg
    have hsome : (solo r k).fifo = some (toFifo r (r.sinks k)) := fifoOf_of_registered hreg
    refine ⟨hinv, hframe, ?_⟩
    rw [solo_of_frame hframe, hfifo, hresult]
    simp only [Solo.perform, hsome]
    rfl
  · rw [Bool.not_eq_true] at hreg
    have hnone : (solo r k).fifo = none := fifoOf_of_not_registered hreg
    have hcall : copyAfter r k after = (.invalid, r) := by simp [copyAfter, hreg]
    rw [hcall]
    refine ⟨h, .refl r k, ?_⟩
    simp only [Solo.perform, hnone]

/-! ### Submitting -/

theorem makeRoom_of_hasRoom {f : Fifo} {length : ℕ} (h : f.hasRoom length = true) (n : ℕ) :
    f.makeRoom length n = f := by
  cases n with
  | zero => rfl
  | succ n => rw [Fifo.makeRoom, if_pos h]

/-- A queue below its block limit is below its byte limit too, as blocks have at most
`blockBytes` bytes. -/
theorem hasRoom_of_lt {f : Fifo} {length : ℕ}
    (hcap : f.capacityBytes = f.capacityBlocks * blockBytes) (hlt : f.queue.length < f.capacityBlocks)
    (hbytes : ∀ b ∈ f.queue, b.bytes.length ≤ blockBytes) (hlen : length ≤ blockBytes) :
    f.hasRoom length = true := by
  have hsum : f.queuedBytes ≤ f.queue.length * blockBytes := by
    have hle := List.sum_le_card_nsmul (f.queue.map fun b => b.bytes.length) blockBytes
      (by simpa using hbytes)
    simpa [Fifo.queuedBytes] using hle
  have hmul : (f.queue.length + 1) * blockBytes ≤ f.capacityBlocks * blockBytes :=
    Nat.mul_le_mul_right _ hlt
  unfold Fifo.hasRoom
  rw [Bool.and_eq_true, decide_eq_true_eq, decide_eq_true_eq]
  refine ⟨hlt, ?_⟩
  rw [Nat.add_mul] at hmul
  omega

theorem mem_queue_length (h : Inv r) {k : SinkId} {b : StoredBlock}
    (hb : b ∈ (toFifo r (r.sinks k)).queue) : b.bytes.length ≤ blockBytes := by
  rw [toFifo_queue, List.mem_map] at hb
  obtain ⟨i, hi, rfl⟩ := hb
  rw [length_stored h hi]
  exact (h.lengths k i hi).2

/-- **Making room** in a sink drops one block from its queue if it is full. -/
theorem evicts_toFifo (h : Inv r) (he : Evicts sinkIds r r') {k : SinkId}
    (hreg : (r.sinks k).registered = true) {length : ℕ} (hlen : length ≤ blockBytes) :
    toFifo r' (r'.sinks k) =
      (toFifo r (r.sinks k)).makeRoom length (toFifo r (r.sinks k)).queue.length := by
  have hsink : r'.sinks k = evicted r k := by rw [he.sinks, if_pos (mem_sinkIds k)]
  have hroom : (toFifo r' (r'.sinks k)).hasRoom length = true := by
    refine hasRoom_of_lt (he.inv.shape k).bytes ?_ (fun b hb => mem_queue_length he.inv hb) hlen
    rw [toFifo_queue_length]
    exact roomy_evicted h he k (by rw [hsink, evicted_registered]; exact hreg)
  by_cases hfull : (r.sinks k).full
  · have hcount := count_ne_zero_of_full h hfull
    have hrem := removeFront_removes h hcount .overwritten
    have hsame : r'.sinks k = (removeFront r k .overwritten).sinks k := by
      rw [hsink, hrem.sink, evicted, if_pos hfull]
    have hstep : toFifo r' (r'.sinks k) = (toFifo r (r.sinks k)).remove .overwritten := by
      rw [← removes_toFifo h hrem, ← hsame]
      apply toFifo_congr
      intro x hx
      have hx' : x ∈ contents (removeFront r k .overwritten) k := by
        rw [contents, ← hsame]
        exact hx
      rw [(he.stored k x hx).1, (hrem.stored k x hx').1]
    have hno : (toFifo r (r.sinks k)).hasRoom length = false := by
      unfold Fifo.hasRoom
      rw [Bool.and_eq_false_iff]
      left
      rw [decide_eq_false_iff_not, toFifo_queue_length, hfull.2]
      exact lt_irrefl _
    obtain ⟨n, hn⟩ := Nat.exists_eq_succ_of_ne_zero hcount
    rw [toFifo_queue_length, hn, Fifo.makeRoom, if_neg (by simp [hno]), ← hstep,
      makeRoom_of_hasRoom hroom]
  · have hsame : r'.sinks k = r.sinks k := by rw [hsink, evicted, if_neg hfull]
    have hstep : toFifo r' (r'.sinks k) = toFifo r (r.sinks k) := by
      rw [toFifo_congr fun x hx => (he.stored k x hx).1, hsame]
    rw [hstep] at hroom
    rw [makeRoom_of_hasRoom hroom, hstep]

theorem take_padded (bytes : List UInt8) : (padded bytes).take bytes.length = bytes := by
  unfold padded
  exact List.take_left

/-- **Appending** the new block to a queue with room. -/
theorem accepted_toFifo (h : Inv r) (hroom : Roomy r) {i : ℕ}
    (hfree : (r.metadata i).references = 0) {b : InputBlock} {k : SinkId}
    (hreg : (r.sinks k).registered = true) :
    toFifo (accepted r i b) ((accepted r i b).sinks k) =
      { toFifo r (r.sinks k) with
        queue := (toFifo r (r.sinks k)).queue ++
          [⟨nextNonzero r.stats.lastSequence, b.monotonicMs, b.bytes⟩] } := by
  have hqueue : (contents (accepted r i b) k).map (stored (accepted r i b)) =
      (contents r k).map (stored r) ++
        [⟨nextNonzero r.stats.lastSequence, b.monotonicMs, b.bytes⟩] := by
    rw [contents_accepted hroom, if_pos hreg, List.map_append, List.map_singleton]
    congr 1
    · apply List.map_congr_left
      intro x hx
      have hne : x ≠ i := fun heq => not_mem_contents h hfree k (heq ▸ hx)
      unfold stored
      rw [accepted_metadata_of_ne hne, accepted_payloads_of_ne hne]
    · obtain ⟨hmeta, hpay, -⟩ :=
        accepted_of_registered (i := i) (b := b) (registeredCount_ne_zero hreg)
      unfold stored
      rw [hmeta, hpay, place_metadata_self, place_payloads, Function.update_self]
      dsimp only
      rw [take_padded]
  have hsink : (accepted r i b).sinks k =
      { r.sinks k with
        blocks := (r.sinks k).blocks.push i
        queuedBytes := saturatingAddSize (r.sinks k).queuedBytes b.bytes.length } := by
    rw [accepted_sinks, Sink.appended, if_neg (by simp [hreg])]
  unfold toFifo
  rw [show ((accepted r i b).sinks k).blocks.contents.map (stored (accepted r i b)) = _ from hqueue,
    hsink]
  rfl

theorem accepted_frame (r : Router) (i : ℕ) (b : InputBlock) :
    (accepted r i b).sessionId = r.sessionId ∧
      (accepted r i b).poolCapacityBytes = r.poolCapacityBytes ∧
      (accepted r i b).stats.lastSequence = nextNonzero r.stats.lastSequence := by
  have happ := appends_place r i b
  unfold accepted returnBlock
  dsimp only
  split_ifs <;> exact ⟨happ.sessionId, happ.poolCapacityBytes, rfl⟩

theorem submit_spec (h : Inv r) (input : InputBlock) (k : SinkId) :
    (solo r k).submit input = ((submit r input).1, solo (submit r input).2 k) := by
  unfold Solo.submit
  by_cases hvalid : input.bytes.length = 0 ∨ blockBytes < input.bytes.length
  · rw [if_pos hvalid, submit_of_invalid hvalid]
  have hpos : 0 < input.bytes.length := by omega
  have hlen : input.bytes.length ≤ blockBytes := by omega
  have he := evicts_all h
  have hroom := roomy_evicted h he
  obtain ⟨i, hi, hsub⟩ := submit_accepts h hpos hlen
  rw [if_neg hvalid, hsub]
  generalize sinkIds.foldl evictIfFull r = r' at he hroom hi ⊢
  obtain ⟨hsession, hcapacity, hlast⟩ := accepted_frame r' i input
  have hfree : (r'.metadata i).references = 0 := by
    obtain ⟨free, hchain, -, hmem⟩ := he.inv.pool
    rw [hi] at hchain
    obtain ⟨rest, rfl, -⟩ := hchain.pop
    exact ((hmem i).mp List.mem_cons_self).2
  have hreg' : (r'.sinks k).registered = (r.sinks k).registered := by
    rw [he.sinks, if_pos (mem_sinkIds k), evicted_registered]
  have hfifo : fifoOf (accepted r' i input) k = (fifoOf r k).map fun f =>
      f.submit ⟨nextNonzero r.stats.lastSequence, input.monotonicMs, input.bytes⟩ := by
    cases hreg : (r.sinks k).registered with
    | true =>
      rw [hreg] at hreg'
      rw [fifoOf_of_registered hreg, fifoOf_of_registered
        (by rw [accepted_sinks, appended_registered]; exact hreg'),
        accepted_toFifo he.inv hroom hfree hreg', evicts_toFifo h he hreg hlen, he.stats]
      rfl
    | false =>
      rw [hreg] at hreg'
      rw [fifoOf_of_not_registered hreg, fifoOf_of_not_registered
        (by rw [accepted_sinks, appended_registered]; exact hreg')]
      rfl
  unfold solo
  rw [hsession, hcapacity, hlast, hfifo, he.sessionId, he.poolCapacityBytes, he.stats]

/-! ### The counters -/

theorem noteUartError_solo (r : Router) (error : UartError) (k : SinkId) :
    solo (noteUartError r error) k = solo r k := by
  cases error <;> rfl

theorem inv_noteUartError (h : Inv r) (error : UartError) :
    Inv (noteUartError r error) := by
  have hex : (noteUartError r error).stats.poolExhaustions = 0 := by
    cases error <;> exact h.exhaustions
  exact ⟨h.pool, h.positive, h.small, h.capacity, h.references, h.bound, h.nodup, h.comparable,
    h.lengths, h.queued, h.payload, h.shape, hex⟩

theorem fillSinkStats_eq (h : Inv r) (k : SinkId) :
    fillSinkStats r (r.sinks k) = (toFifo r (r.sinks k)).stats := by
  have hbytes := toFifo_queuedBytes h k
  have hlength := toFifo_queue_length r (r.sinks k)
  have hold : (if (r.sinks k).blocks.count ≠ 0 then
      (r.metadata ((r.sinks k).blocks.peek 0)).sequence else 0) =
      ((toFifo r (r.sinks k)).queue.head?.map fun b => b.sequence).getD 0 := by
    by_cases hk : (r.sinks k).blocks.count = 0
    · rw [if_neg (by simpa using hk), queue_eq_nil hk]
      rfl
    · rw [if_pos hk, List.head?_eq_getElem?, queue_getElem? (Nat.pos_of_ne_zero hk)]
      rfl
  have hnew : (if (r.sinks k).blocks.count ≠ 0 then
      (r.metadata ((r.sinks k).blocks.peek ((r.sinks k).blocks.count - 1))).sequence else 0) =
      ((toFifo r (r.sinks k)).queue.getLast?.map fun b => b.sequence).getD 0 := by
    by_cases hk : (r.sinks k).blocks.count = 0
    · rw [if_neg (by simpa using hk), queue_eq_nil hk]
      rfl
    · rw [if_pos hk, List.getLast?_eq_getElem?, hlength, queue_getElem? (by omega)]
      rfl
  unfold fillSinkStats Fifo.stats
  rw [hbytes, hlength, hold, hnew]
  rfl

theorem sinkStats_eq (h : Inv r) (k : SinkId) :
    sinkStats r k = (fifoOf r k).map Fifo.stats := by
  unfold sinkStats
  cases hreg : (r.sinks k).registered with
  | true =>
    rw [if_neg (by simp), fifoOf_of_registered hreg, fillSinkStats_eq h]
    rfl
  | false =>
    rw [if_pos rfl, fifoOf_of_not_registered hreg]
    rfl

end RlcdDeck.SerialRouter
