import RlcdDeck.SerialRouter.Equiv.Calls

/-!
# Runs of the serial router

The pool invariant holds from `create` on (`inv_create`, `inv_run`), and one call on the router
is one call on each stand-alone sink it concerns (`perform_solo`).  Two results about whole runs
follow.

* `sink_isolation`: what a sink answers depends on the submits and on the calls on that sink
  only, and is what a stand-alone bounded drop-oldest queue answers.
* `pool_invariant`: the pool's bookkeeping is exact in every state, every queue is a contiguous
  run of the accepted sequences, and no valid block is ever refused.
-/

namespace RlcdDeck.SerialRouter

open Collections Counter

/-! ### The invariant over runs -/

theorem inv_create {config : RouterConfig} {allocated : Bool} {r : Router}
    (h : create config allocated = some r) : Inv r := by
  unfold create at h
  dsimp only at h
  by_cases hbad : config.sessionId = 0 ∨ config.poolCapacityBytes = 0 ∨
      config.poolCapacityBytes % blockBytes ≠ 0 ∨ historyMaxBytes < config.poolCapacityBytes
  · rw [if_pos hbad] at h
    cases h
  rw [if_neg hbad] at h
  by_cases hnone : config.poolCapacityBytes / blockBytes = 0 ∨ allocated = false
  · rw [if_pos hnone] at h
    cases h
  rw [if_neg hnone, Option.some.injEq] at h
  subst h
  push Not at hbad hnone
  obtain ⟨-, -, hmod, hmax⟩ := hbad
  have hbytes : config.poolCapacityBytes = config.poolCapacityBytes / blockBytes * blockBytes :=
    (Nat.div_mul_cancel (Nat.dvd_of_mod_eq_zero hmod)).symm
  set n := config.poolCapacityBytes / blockBytes with hn
  have hpos : 0 < n := Nat.pos_of_ne_zero hnone.1
  have hsmall : n ≤ 8192 := by
    unfold blockBytes at hbytes
    unfold historyMaxBytes at hmax
    omega
  constructor
  · obtain ⟨m, hm⟩ := Nat.exists_eq_succ_of_ne_zero hnone.1
    refine ⟨List.range' 0 n, ?_, List.nodup_range', fun i => ?_⟩
    · rw [hm]
      exact FreeChain.range' (fun i _ => rfl) m 0 (Nat.zero_add _)
    · simp
  · exact hpos
  · exact hsmall
  · exact hbytes
  · intro i
    rw [occurrences_eq]
    rfl
  · exact fun k i hi => absurd hi List.not_mem_nil
  · exact fun k => List.nodup_nil
  · exact fun j k => .inl List.nil_suffix
  · exact fun k i hi => absurd hi List.not_mem_nil
  · exact fun k => rfl
  · exact fun i => List.length_replicate
  · exact fun k => sinkShape_default n
  · rfl

/-- The calls that a sink takes part in. -/
def concerns (k : SinkId) : Op → Bool
  | .register config _ => config.id = k
  | .unregister j => j = k
  | .submit _ => true
  | .take j => j = k
  | .copyAfter j _ => j = k
  | .clear j => j = k
  | .noteUartError _ => false
  | .sinkStats j => j = k

variable {r : Router}

/-- **One call**: it keeps the invariant, is the stand-alone sink's call for every sink it
concerns, and leaves every other sink alone. -/
theorem perform_solo (h : Inv r) (op : Op) :
    Inv (perform r op).2 ∧ ∀ k,
      if concerns k op then (solo r k).perform op = ((perform r op).1, solo (perform r op).2 k)
      else solo (perform r op).2 k = solo r k := by
  -- a call on one sink, from its frame and its answer
  have named : ∀ {j : SinkId} {r' : Router} {out : Output}, Frame r r' j →
      (solo r j).perform op = (out, solo r' j) → ∀ k,
      if decide (j = k) = true then (solo r k).perform op = (out, solo r' k)
      else solo r' k = solo r k := by
    intro j r' out hframe hcall k
    by_cases hk : j = k
    · subst hk
      rw [if_pos (by simp)]
      exact hcall
    · rw [if_neg (by simpa using hk)]
      exact solo_of_frame_of_ne hframe (Ne.symm hk)
  cases op with
  | register config allocated =>
    obtain ⟨hinv, hframe, hcall⟩ := registerSink_spec h config allocated
    refine ⟨hinv, named hframe ?_⟩
    rw [Solo.perform, hcall]
    rfl
  | unregister j =>
    obtain ⟨hinv, hframe, hresult, hfifo⟩ := unregisterSink_spec h j
    refine ⟨hinv, named hframe ?_⟩
    rw [perform, solo_of_frame hframe, hfifo, hresult]
    rfl
  | submit input =>
    refine ⟨inv_submit h input, fun k => ?_⟩
    rw [if_pos (by rfl), Solo.perform, submit_spec h]
    rfl
  | take j =>
    obtain ⟨hinv, hframe, hcall⟩ := take_spec h j
    exact ⟨hinv, named hframe hcall⟩
  | copyAfter j after =>
    obtain ⟨hinv, hframe, hcall⟩ := copyAfter_spec h j after
    exact ⟨hinv, named hframe hcall⟩
  | clear j =>
    obtain ⟨hinv, hframe, hresult, hfifo⟩ := clearSink_spec h j
    refine ⟨hinv, named hframe ?_⟩
    rw [perform, solo_of_frame hframe, hfifo, hresult]
    rfl
  | noteUartError error =>
    refine ⟨inv_noteUartError h error, fun k => ?_⟩
    rw [if_neg (by simp [concerns])]
    exact noteUartError_solo r error k
  | sinkStats j =>
    refine ⟨h, named (.refl r j) ?_⟩
    rw [perform, sinkStats_eq h]
    rfl

theorem inv_run {r : Router} (h : Inv r) (ops : List Op) : Inv (run r ops) := by
  induction ops generalizing r with
  | nil => exact h
  | cons op ops ih => exact ih (perform_solo h op).1

/-! ### Isolation -/

/-- What the calls that concern a sink answer. -/
def outputs (k : SinkId) : Router → List Op → List Output
  | _, [] => []
  | r, op :: ops =>
    let result := perform r op
    if concerns k op then result.1 :: outputs k result.2 ops else outputs k result.2 ops

/-- What a stand-alone sink answers. -/
def Solo.outputs : Solo → List Op → List Output
  | _, [] => []
  | s, op :: ops => (s.perform op).1 :: Solo.outputs (s.perform op).2 ops

/-- The stand-alone sink after a sequence of calls. -/
def Solo.run (s : Solo) (ops : List Op) : Solo :=
  ops.foldl (fun s op => (s.perform op).2) s

theorem outputs_eq_solo (h : Inv r) (k : SinkId) (ops : List Op) :
    outputs k r ops = (solo r k).outputs (ops.filter (concerns k)) ∧
      solo (run r ops) k = (solo r k).run (ops.filter (concerns k)) := by
  induction ops generalizing r with
  | nil => exact ⟨rfl, rfl⟩
  | cons op ops ih =>
    obtain ⟨hinv, hsolo⟩ := perform_solo h op
    obtain ⟨hout, hrun⟩ := ih hinv
    have hk := hsolo k
    rw [outputs, List.filter_cons]
    by_cases hc : concerns k op = true
    · rw [if_pos hc] at hk
      rw [if_pos hc, if_pos hc, Solo.outputs, hk, hout]
      refine ⟨rfl, ?_⟩
      rw [Solo.run, List.foldl_cons, hk]
      exact hrun
    · rw [if_neg hc] at hk
      rw [if_neg hc, if_neg hc, hout, hk]
      refine ⟨rfl, ?_⟩
      rw [← hk]
      exact hrun

/-- The sink of a new session. -/
def Solo.fresh (config : RouterConfig) : Solo :=
  ⟨config.sessionId, config.poolCapacityBytes, config.initialSequence, none⟩

theorem solo_create {config : RouterConfig} {allocated : Bool}
    (h : create config allocated = some r) (k : SinkId) : solo r k = .fresh config := by
  unfold create at h
  dsimp only at h
  split at h
  · cases h
  · split at h
    · cases h
    · rw [Option.some.injEq] at h
      subst h
      rfl

/-- **Sink isolation**: two runs of a router with the same submits and the same calls on a sink
have the same answers from that sink and leave it with the same counters, whatever they do with
the other sinks; and these are the answers and counters of a stand-alone bounded drop-oldest
queue. -/
theorem sink_isolation {config : RouterConfig} {allocated : Bool} {r : Router}
    (h : create config allocated = some r) (k : SinkId) (ops ops' : List Op)
    (hsame : ops.filter (concerns k) = ops'.filter (concerns k)) :
    outputs k r ops = outputs k r ops' ∧
      sinkStats (run r ops) k = sinkStats (run r ops') k ∧
      outputs k r ops = (Solo.fresh config).outputs (ops.filter (concerns k)) ∧
      sinkStats (run r ops) k =
        ((Solo.fresh config).run (ops.filter (concerns k))).fifo.map Fifo.stats := by
  have hinv := inv_create h
  obtain ⟨hout, hrun⟩ := outputs_eq_solo hinv k ops
  obtain ⟨hout', hrun'⟩ := outputs_eq_solo hinv k ops'
  rw [solo_create h] at hout hrun hout' hrun'
  have hstats : sinkStats (run r ops) k = (solo (run r ops) k).fifo.map Fifo.stats :=
    sinkStats_eq (inv_run hinv ops) k
  have hstats' : sinkStats (run r ops') k = (solo (run r ops') k).fifo.map Fifo.stats :=
    sinkStats_eq (inv_run hinv ops') k
  refine ⟨?_, ?_, hout, ?_⟩
  · rw [hout, hout', hsame]
  · rw [hstats, hstats', hrun, hrun', hsame]
  · rw [hstats, hrun]

/-- Two runs that differ in what they do with the other sinks. -/
theorem sink_isolation_clear :
    ∃ r, create ⟨7, 512, 41⟩ true = some r ∧
      outputs .wss r
        [.register ⟨.wss, 256, false⟩ true, .register ⟨.usb, 512, false⟩ true, .submit ⟨1, [5]⟩,
          .clear .usb, .submit ⟨2, [6]⟩, .take .usb, .take .wss, .sinkStats .wss] =
      outputs .wss r
        [.register ⟨.wss, 256, false⟩ true, .submit ⟨1, [5]⟩, .submit ⟨2, [6]⟩, .take .wss,
          .sinkStats .wss] := by
  refine ⟨_, rfl, ?_⟩
  refine (@sink_isolation ⟨7, 512, 41⟩ true _ rfl .wss _ _ ?_).1
  decide

/-! ### Sequences -/

theorem countRemoval_queue (f : Fifo) (why : Removal) (n : ℕ) :
    (f.countRemoval why n).queue = f.queue := by
  cases why <;> rfl

theorem remove_queue (f : Fifo) (why : Removal) : (f.remove why).queue = f.queue.tail := by
  unfold Fifo.remove
  split
  · simp_all
  · next h => rw [countRemoval_queue, h, List.tail_cons]

theorem makeRoom_suffix (length n : ℕ) (f : Fifo) :
    (f.makeRoom length n).queue <:+ f.queue := by
  induction n generalizing f with
  | zero => exact List.suffix_rfl
  | succ n ih =>
    rw [Fifo.makeRoom]
    split_ifs
    · exact List.suffix_rfl
    · refine (ih _).trans ?_
      rw [remove_queue]
      exact List.tail_suffix _

theorem removeAll_queue (n : ℕ) (f : Fifo) : (Fifo.removeAll n f).queue = f.queue.drop n := by
  induction n generalizing f with
  | zero => rfl
  | succ n ih => rw [Fifo.removeAll, ih, remove_queue, List.drop_tail]

theorem clear_queue (f : Fifo) : f.clear.queue = [] := by
  rw [Fifo.clear, removeAll_queue, List.drop_length]

theorem take_suffix (f : Fifo) (sessionId : UInt64) :
    (f.take sessionId).2.queue <:+ f.queue := by
  unfold Fifo.take
  split_ifs
  · exact List.suffix_rfl
  · split
    · exact List.suffix_rfl
    · rw [remove_queue]
      exact List.tail_suffix _

theorem copyAfter_queue (f : Fifo) (sessionId after : UInt64) :
    (f.copyAfter sessionId after).2.queue = f.queue := by
  unfold Fifo.copyAfter
  split_ifs
  · rfl
  · split
    · rfl
    · exact countRemoval_queue _ _ _
  · split
    · rfl
    · split
      · exact countRemoval_queue _ _ _
      · split
        · rfl
        · exact countRemoval_queue _ _ _

/-- The accepted sequences since a sink was last registered or cleared. -/
def acceptedAfter (k : SinkId) (accepted : List UInt64) : Op → Output → List UInt64
  | .submit _, .sequence (some sequence) => accepted ++ [sequence]
  | .register config _, .done true => if config.id = k then [] else accepted
  | .clear j, .done true => if j = k then [] else accepted
  | _, _ => accepted

/-- The same over a run. -/
def acceptedSince (k : SinkId) : List UInt64 → Router → List Op → List UInt64
  | accepted, _, [] => accepted
  | accepted, r, op :: ops =>
    acceptedSince k (acceptedAfter k accepted op (perform r op).1) (perform r op).2 ops

/-- The queue of a stand-alone sink holds the newest of the accepted sequences, which follow
each other. -/
structure Consecutive (s : Solo) (accepted : List UInt64) : Prop where
  suffix : ∀ f, s.fifo = some f → f.queue.map (fun b => b.sequence) <:+ accepted
  chain : accepted.IsChain fun a b => b = nextNonzero a
  last : ∀ a ∈ accepted.getLast?, a = s.lastSequence

variable {s : Solo} {accepted : List UInt64}

theorem Consecutive.of_suffix (h : Consecutive s accepted) {fifo : Option Fifo}
    (hsuffix : ∀ f', fifo = some f' → ∃ f, s.fifo = some f ∧ f'.queue <:+ f.queue) :
    Consecutive { s with fifo } accepted := by
  refine ⟨fun f' hf' => ?_, h.chain, h.last⟩
  obtain ⟨f, hf, hqueue⟩ := hsuffix f' hf'
  exact (hqueue.map _).trans (h.suffix f hf)

theorem Consecutive.empty (h : ∀ f, s.fifo = some f → f.queue = []) : Consecutive s [] := by
  refine ⟨fun f hf => ?_, List.isChain_nil, fun a ha => by simp at ha⟩
  rw [h f hf]
  exact List.nil_suffix

theorem Consecutive.submit (h : Consecutive s accepted) (k : SinkId) (input : InputBlock) :
    Consecutive (s.submit input).2
      (acceptedAfter k accepted (.submit input) (.sequence (s.submit input).1)) := by
  unfold Solo.submit
  split_ifs
  · exact h
  · dsimp only [acceptedAfter]
    refine ⟨fun f' hf' => ?_, ?_, fun a ha => ?_⟩
    · obtain ⟨f, hf, rfl⟩ := Option.map_eq_some_iff.mp hf'
      obtain ⟨front, hfront⟩ := ((makeRoom_suffix _ _ f).map _).trans (h.suffix f hf)
      refine ⟨front, ?_⟩
      unfold Fifo.submit
      rw [List.map_append, ← List.append_assoc, hfront]
      rfl
    · rw [List.isChain_append]
      refine ⟨h.chain, List.isChain_singleton _, fun a ha b hb => ?_⟩
      rw [List.head?_cons, Option.mem_some_iff] at hb
      rw [← hb, h.last a ha]
    · rw [List.getLast?_append, List.getLast?_singleton] at ha
      exact (Option.mem_some_iff.mp ha).symm

/-- One call on the stand-alone sink. -/
theorem Consecutive.perform (h : Consecutive s accepted) {k : SinkId} {op : Op}
    (hop : concerns k op = true) :
    Consecutive (s.perform op).2 (acceptedAfter k accepted op (s.perform op).1) := by
  cases op with
  | register config allocated =>
    have hid : config.id = k := by simpa [concerns] using hop
    dsimp only [Solo.perform, Solo.register]
    split_ifs
    · dsimp only [acceptedAfter]
      rw [if_pos hid]
      refine .empty fun f hf => ?_
      obtain rfl := Option.some.inj hf
      rfl
    · exact h
  | unregister j => exact h.of_suffix fun f' hf' => by cases hf'
  | submit input => exact h.submit k input
  | take j =>
    dsimp only [Solo.perform]
    split
    · exact h
    · next f hf =>
      refine h.of_suffix fun f' hf' => ⟨f, hf, ?_⟩
      obtain rfl := Option.some.inj hf'
      exact take_suffix f _
  | copyAfter j after =>
    dsimp only [Solo.perform]
    split
    · exact h
    · next f hf =>
      refine h.of_suffix fun f' hf' => ⟨f, hf, ?_⟩
      obtain rfl := Option.some.inj hf'
      rw [copyAfter_queue]
  | clear j =>
    have hid : j = k := by simpa [concerns] using hop
    cases hf : s.fifo with
    | none =>
      have hclear : s.perform (.clear j) = (.done false, s) := by
        cases s
        simp_all [Solo.perform]
      rw [hclear]
      exact h
    | some f =>
      have hclear : s.perform (.clear j) = (.done true, { s with fifo := some f.clear }) := by
        simp [Solo.perform, hf]
      rw [hclear]
      dsimp only [acceptedAfter]
      rw [if_pos hid]
      refine .empty fun f' hf' => ?_
      obtain rfl := Option.some.inj hf'
      exact clear_queue f
  | noteUartError error => exact h
  | sinkStats j => exact h

theorem acceptedAfter_of_not_concerns {k : SinkId} {op : Op} (hop : concerns k op = false)
    (accepted : List UInt64) (out : Output) : acceptedAfter k accepted op out = accepted := by
  cases op with
  | register config allocated =>
    have hid : ¬config.id = k := by simpa [concerns] using hop
    unfold acceptedAfter
    split <;> simp_all
  | clear j =>
    have hid : ¬j = k := by simpa [concerns] using hop
    unfold acceptedAfter
    split <;> simp_all
  | submit input => cases hop
  | _ => rfl

theorem consecutive_run (h : Inv r) {k : SinkId} {accepted : List UInt64}
    (hc : Consecutive (solo r k) accepted) (ops : List Op) :
    Consecutive (solo (run r ops) k) (acceptedSince k accepted r ops) := by
  induction ops generalizing r accepted with
  | nil => exact hc
  | cons op ops ih =>
    obtain ⟨hinv, hsolo⟩ := perform_solo h op
    have hk := hsolo k
    refine ih hinv ?_
    cases hop : concerns k op with
    | true =>
      rw [if_pos hop] at hk
      have hstep := hc.perform hop
      rw [hk] at hstep
      exact hstep
    | false =>
      rw [if_neg (by simp [hop])] at hk
      rw [acceptedAfter_of_not_concerns hop, hk]
      exact hc

/-! ### The pool over runs -/

/-- Removals of front blocks, as `clear`, `take` and the evictions of `submit` make them. -/
def Removing : Router → Router → Prop :=
  Relation.ReflTransGen fun r r' => ∃ k why, r' = removeFront r k why

theorem inv_removing {r' : Router} (h : Inv r) (hr : Removing r r') : Inv r' := by
  induction hr with
  | refl => exact h
  | @tail r' _ _ hstep ih =>
    obtain ⟨k, why, rfl⟩ := hstep
    by_cases hk : (r'.sinks k).blocks.count = 0
    · rw [removeFront_of_count_eq_zero hk]
      exact ih
    · exact (removeFront_removes ih hk why).inv

theorem front_le_queuedBytes (h : Inv r) {k : SinkId} {i : ℕ}
    (hi : i ∈ (contents r k).head?) : (r.metadata i).length ≤ (r.sinks k).queuedBytes := by
  rw [h.queued]
  apply List.single_le_sum (fun _ _ => Nat.zero_le _)
  exact List.mem_map_of_mem (List.mem_of_mem_head? hi)

/-- **The pool invariant**: in every state of every run, reference counts are the numbers of
occurrences, the free list is a finite chain of distinct blocks holding exactly the unreferenced
ones, byte totals are sums within their limits and no removal subtracts more than there is, every
queue holds the newest of the consecutive sequences accepted since the sink was registered or
cleared; every valid block is accepted and the pool is never exhausted. -/
theorem pool_invariant {config : RouterConfig} {allocated : Bool} {r₀ : Router}
    (h : create config allocated = some r₀) (ops : List Op) :
    let r := run r₀ ops
    (∀ i, (r.metadata i).references = occurrences r i) ∧
      (∃ free, FreeChain (fun i => (r.metadata i).nextFree) r.freeHead free ∧ free.Nodup ∧
        ∀ i, i ∈ free ↔ i < r.poolBlocks ∧ (r.metadata i).references = 0) ∧
      (∀ k, (r.sinks k).queuedBytes =
          ((contents r k).map fun i => (r.metadata i).length).sum ∧
        (r.sinks k).queuedBytes ≤ (r.sinks k).config.capacityBytes) ∧
      (∀ r', Removing r r' → ∀ k, ∀ i ∈ (contents r' k).head?,
        (r'.metadata i).length ≤ (r'.sinks k).queuedBytes) ∧
      (∀ k, (contents r k).map (fun i => (r.metadata i).sequence) <:+
          acceptedSince k [] r₀ ops ∧
        (acceptedSince k [] r₀ ops).IsChain (fun a b => b = nextNonzero a) ∧
        ∀ a ∈ (acceptedSince k [] r₀ ops).getLast?, a = r.stats.lastSequence) ∧
      (∀ input, 0 < input.bytes.length → input.bytes.length ≤ blockBytes →
        (submit r input).1 = some (nextNonzero r.stats.lastSequence)) ∧
      r.stats.poolExhaustions = 0 := by
  have hinv₀ := inv_create h
  intro r
  have hinv : Inv r := inv_run hinv₀ ops
  refine ⟨hinv.references, hinv.pool, fun k => ⟨hinv.queued k, queuedBytes_le hinv k⟩,
    fun r' hr k i hi => front_le_queuedBytes (inv_removing hinv hr) hi, fun k => ?_,
    fun input hpos hlen => ?_, hinv.exhaustions⟩
  · have hfresh : Consecutive (solo r₀ k) [] := by
      rw [solo_create h]
      exact .empty fun f hf => by cases hf
    obtain ⟨hsuffix, hchain, hlast⟩ := consecutive_run hinv₀ hfresh ops
    refine ⟨?_, hchain, hlast⟩
    by_cases hreg : (r.sinks k).registered = true
    · have hqueue := hsuffix _ (fifoOf_of_registered hreg)
      rw [toFifo_queue, List.map_map] at hqueue
      exact hqueue
    · rw [contents_of_not_registered hinv (by simpa using hreg)]
      exact List.nil_suffix
  · obtain ⟨i, -, hsub⟩ := submit_accepts hinv hpos hlen
    rw [hsub]

/-- A run whose sink overflows. -/
theorem pool_invariant_overflow :
    ∃ r₀, create ⟨7, 256, 41⟩ true = some r₀ ∧
      (run r₀ [.register ⟨.wss, 256, false⟩ true, .submit ⟨1, [5]⟩,
        .submit ⟨2, [6]⟩]).stats.poolExhaustions = 0 := by
  refine ⟨_, rfl, ?_⟩
  exact (@pool_invariant ⟨7, 256, 41⟩ true _ rfl _).2.2.2.2.2.2

end RlcdDeck.SerialRouter
