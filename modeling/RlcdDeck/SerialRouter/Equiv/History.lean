import RlcdDeck.SerialRouter.Equiv.Isolation

/-!
# Reading the history from a cursor

A reader calls `copy_after` again and again, each time with the sequence of the block it got last.
What the history still holds is the newest part of everything that was accepted
(`logged_run`), so such a reader gets all retained blocks after its own, in order, and a gap exactly
when its own block is no longer retained (`history_cursor`).
-/

namespace RlcdDeck.SerialRouter

open Collections Counter

/-! ### What was accepted and what was read -/

/-- The block that a call added. -/
def acceptedBlock : Op → Output → List StoredBlock
  | .submit input, .sequence (some sequence) => [⟨sequence, input.monotonicMs, input.bytes⟩]
  | _, _ => []

/-- The blocks that a sequence of calls added, oldest first. -/
def acceptedBlocks : Router → List Op → List StoredBlock
  | _, [] => []
  | r, op :: ops => acceptedBlock op (perform r op).1 ++ acceptedBlocks (perform r op).2 ops

/-- The cursor that a call on the history returned. -/
def returnedCursor : Op → Output → List UInt64
  | .copyAfter .history _, .copied (.ok block) => [block.sequence]
  | .copyAfter .history _, .copied (.gap block) => [block.sequence]
  | _, _ => []

def returnedCursors : Router → List Op → List UInt64
  | _, [] => []
  | r, op :: ops => returnedCursor op (perform r op).1 ++ returnedCursors (perform r op).2 ops

/-- `copy_after` with the cursor it returned, until it returns no block. -/
def readHistory : ℕ → Router → UInt64 → List CopyResult
  | 0, _, _ => []
  | fuel + 1, r, cursor =>
    let result := copyAfter r .history cursor
    match result.1 with
    | .ok block => .ok block :: readHistory fuel result.2 block.sequence
    | .gap block => .gap block :: readHistory fuel result.2 block.sequence
    | .empty => [.empty]
    | .invalid => [.invalid]

/-! ### Sequences -/

theorem getElem?_of_isChain {a : UInt64} {l : List UInt64}
    (h : (a :: l).IsChain fun a b => b = nextNonzero a) {i : ℕ} {b : UInt64}
    (hb : (a :: l)[i]? = some b) : b = nonzeroNext^[i] a := by
  induction l generalizing a i with
  | nil =>
    cases i with
    | zero => exact (Option.some.inj hb).symm
    | succ i => simp at hb
  | cons c l ih =>
    rw [List.isChain_cons_cons] at h
    cases i with
    | zero => exact (Option.some.inj hb).symm
    | succ i =>
      rw [List.getElem?_cons_succ] at hb
      rw [ih h.2 hb, h.1]
      rfl

theorem nodup_of_isChain {l : List UInt64} (h : l.IsChain fun a b => b = nextNonzero a)
    (hnonzero : ∀ a ∈ l, a ≠ 0) (hlength : l.length < 2 ^ 64) : l.Nodup := by
  induction l with
  | nil => exact List.nodup_nil
  | cons a l ih =>
    rw [List.nodup_cons]
    refine ⟨fun ha => ?_, ih h.of_cons (fun b hb => hnonzero b (List.mem_cons_of_mem _ hb)) ?_⟩
    · obtain ⟨i, hi, hget⟩ := List.getElem_of_mem ha
      have hb : (a :: l)[i + 1]? = some a := by
        rw [List.getElem?_cons_succ, List.getElem?_eq_getElem hi, hget]
      have hiter := getElem?_of_isChain h hb
      have hdvd := (iterate_nonzeroNext64_eq_self_iff (hnonzero a List.mem_cons_self) _).mp hiter.symm
      have hle := Nat.le_of_dvd (by omega) hdvd
      rw [List.length_cons] at hlength
      omega
    · rw [List.length_cons] at hlength
      omega

/-! ### The retention flag -/

theorem countRemoval_retained (f : Fifo) (why : Removal) (n : ℕ) :
    (f.countRemoval why n).retained = f.retained := by
  cases why <;> rfl

theorem remove_retained (f : Fifo) (why : Removal) : (f.remove why).retained = f.retained := by
  unfold Fifo.remove
  split
  · rfl
  · exact countRemoval_retained _ _ _

theorem makeRoom_retained (length n : ℕ) (f : Fifo) :
    (f.makeRoom length n).retained = f.retained := by
  induction n generalizing f with
  | zero => rfl
  | succ n ih =>
    rw [Fifo.makeRoom]
    split_ifs
    · rfl
    · rw [ih, remove_retained]

theorem removeAll_retained (n : ℕ) (f : Fifo) : (Fifo.removeAll n f).retained = f.retained := by
  induction n generalizing f with
  | zero => rfl
  | succ n ih => rw [Fifo.removeAll, ih, remove_retained]

theorem take_retained (f : Fifo) (sessionId : UInt64) :
    (f.take sessionId).2.retained = f.retained := by
  unfold Fifo.take
  split_ifs
  · rfl
  · split
    · rfl
    · exact remove_retained _ _

theorem copyAfter_retained (f : Fifo) (sessionId after : UInt64) :
    (f.copyAfter sessionId after).2.retained = f.retained := by
  unfold Fifo.copyAfter
  split_ifs
  · rfl
  · split
    · rfl
    · exact countRemoval_retained _ _ _
  · split
    · rfl
    · split
      · exact countRemoval_retained _ _ _
      · split
        · rfl
        · exact countRemoval_retained _ _ _

/-! ### The log -/

/-- The history holds the newest of the accepted blocks, whose sequences follow each other. -/
structure Logged (s : Solo) (log : List StoredBlock) : Prop where
  suffix : ∀ f, s.fifo = some f → f.queue <:+ log
  retained : ∀ f, s.fifo = some f → f.retained = true
  chain : (log.map fun b => b.sequence).IsChain fun a b => b = nextNonzero a
  nonzero : ∀ b ∈ log, b.sequence ≠ 0
  last : ∀ b ∈ log.getLast?, b.sequence = s.lastSequence

variable {s : Solo} {log : List StoredBlock}

theorem Logged.of_suffix (h : Logged s log) {fifo : Option Fifo} (hsuffix : ∀ f', fifo = some f' →
      ∃ f, s.fifo = some f ∧ f'.queue <:+ f.queue ∧ f'.retained = f.retained) :
    Logged { s with fifo } log := by
  refine ⟨fun f' hf' => ?_, fun f' hf' => ?_, h.chain, h.nonzero, h.last⟩
  · obtain ⟨f, hf, hqueue, -⟩ := hsuffix f' hf'
    exact hqueue.trans (h.suffix f hf)
  · obtain ⟨f, hf, -, hretained⟩ := hsuffix f' hf'
    rw [hretained, h.retained f hf]

theorem Logged.submit (h : Logged s log) (input : InputBlock) :
    Logged (s.submit input).2
      (log ++ acceptedBlock (.submit input) (.sequence (s.submit input).1)) := by
  unfold Solo.submit
  split_ifs
  · simpa [acceptedBlock] using h
  · dsimp only [acceptedBlock]
    refine ⟨fun f' hf' => ?_, fun f' hf' => ?_, ?_, fun b hb => ?_, fun b hb => ?_⟩
    · obtain ⟨f, hf, rfl⟩ := Option.map_eq_some_iff.mp hf'
      obtain ⟨front, hfront⟩ := (makeRoom_suffix input.bytes.length f.queue.length f).trans
        (h.suffix f hf)
      refine ⟨front, ?_⟩
      rw [← hfront, List.append_assoc]
      rfl
    · obtain ⟨f, hf, rfl⟩ := Option.map_eq_some_iff.mp hf'
      exact (makeRoom_retained _ _ f).trans (h.retained f hf)
    · rw [List.map_append, List.isChain_append]
      refine ⟨h.chain, List.isChain_singleton _, fun a ha b hb => ?_⟩
      rw [List.getLast?_map] at ha
      obtain ⟨last, hlast, rfl⟩ := Option.map_eq_some_iff.mp ha
      rw [List.map_cons, List.head?_cons, Option.mem_some_iff] at hb
      rw [← hb, h.last last hlast]
    · rw [List.mem_append, List.mem_singleton] at hb
      rcases hb with hb | rfl
      · exact h.nonzero b hb
      · exact nonzeroNext64_ne_zero _
    · rw [List.getLast?_append, List.getLast?_singleton] at hb
      rw [← Option.mem_some_iff.mp hb]

/-- One call on the history. -/
theorem Logged.perform (h : Logged s log) {op : Op} (hop : concerns .history op = true) :
    Logged (s.perform op).2 (log ++ acceptedBlock op (s.perform op).1) := by
  cases op with
  | submit input => exact h.submit input
  | register config allocated =>
    have hid : config.id = .history := by simpa [concerns] using hop
    rw [show acceptedBlock (.register config allocated) _ = [] from rfl, List.append_nil]
    dsimp only [Solo.perform, Solo.register]
    split_ifs with hok
    · refine ⟨fun f hf => ?_, fun f hf => ?_, h.chain, h.nonzero, h.last⟩
      · obtain rfl := Option.some.inj hf
        exact List.nil_suffix
      · obtain rfl := Option.some.inj hf
        simp only [Solo.validConfig, Bool.and_eq_true, decide_eq_true_eq] at hok
        show config.retained = true
        rw [hok.1.1.1.2, hid]
        rfl
    · exact h
  | unregister j =>
    rw [show acceptedBlock (.unregister j) _ = [] from rfl, List.append_nil]
    exact h.of_suffix fun f' hf' => by cases hf'
  | take j =>
    rw [show acceptedBlock (.take j) _ = [] from rfl, List.append_nil]
    dsimp only [Solo.perform]
    split
    · exact h
    · next f hf =>
      refine h.of_suffix fun f' hf' => ⟨f, hf, ?_⟩
      obtain rfl := Option.some.inj hf'
      exact ⟨take_suffix f _, take_retained f _⟩
  | copyAfter j after =>
    rw [show acceptedBlock (.copyAfter j after) _ = [] from rfl, List.append_nil]
    dsimp only [Solo.perform]
    split
    · exact h
    · next f hf =>
      refine h.of_suffix fun f' hf' => ⟨f, hf, ?_⟩
      obtain rfl := Option.some.inj hf'
      exact ⟨copyAfter_queue f _ _ ▸ List.suffix_rfl, copyAfter_retained f _ _⟩
  | clear j =>
    rw [show acceptedBlock (.clear j) _ = [] from rfl, List.append_nil]
    refine h.of_suffix fun f' hf' => ?_
    obtain ⟨f, hf, rfl⟩ := Option.map_eq_some_iff.mp hf'
    refine ⟨f, hf, ?_, removeAll_retained _ f⟩
    rw [clear_queue]
    exact List.nil_suffix
  | noteUartError error =>
    rw [show acceptedBlock (.noteUartError error) _ = [] from rfl, List.append_nil]
    exact h
  | sinkStats j =>
    rw [show acceptedBlock (.sinkStats j) _ = [] from rfl, List.append_nil]
    exact h

theorem acceptedBlock_of_not_concerns {k : SinkId} {op : Op} (hop : concerns k op = false)
    (out : Output) : acceptedBlock op out = [] := by
  cases op with
  | submit input => cases hop
  | _ => rfl

variable {r : Router}

/-- **The log**, after any sequence of calls. -/
theorem logged_run (h : Inv r) {log : List StoredBlock}
    (hlog : Logged (solo r .history) log) (ops : List Op) :
    Logged (solo (run r ops) .history) (log ++ acceptedBlocks r ops) := by
  induction ops generalizing r log with
  | nil =>
    rw [acceptedBlocks, List.append_nil]
    exact hlog
  | cons op ops ih =>
    obtain ⟨hinv, hsolo⟩ := perform_solo h op
    have hk := hsolo .history
    rw [acceptedBlocks, ← List.append_assoc]
    refine ih hinv ?_
    cases hop : concerns .history op with
    | true =>
      rw [if_pos hop] at hk
      have hstep := hlog.perform hop
      rw [hk] at hstep
      exact hstep
    | false =>
      rw [if_neg (by simp [hop])] at hk
      rw [acceptedBlock_of_not_concerns hop, List.append_nil, hk]
      exact hlog

theorem logged_create {config : RouterConfig} {allocated : Bool}
    (h : create config allocated = some r) : Logged (solo r .history) [] := by
  rw [solo_create h]
  constructor
  · intro f hf
    cases hf
  · intro f hf
    cases hf
  · exact List.isChain_nil
  · simp
  · simp

/-! ### Cursors -/

variable {f : Fifo}

theorem mem_queue_of_copyAfter {sessionId after : UInt64} {block : RoutedBlock}
    (h : (f.copyAfter sessionId after).1 = .ok block ∨
      (f.copyAfter sessionId after).1 = .gap block) :
    ∃ b ∈ f.queue, block = Fifo.routed sessionId b := by
  unfold Fifo.copyAfter at h
  split_ifs at h with hretained hafter
  · simp at h
  · split at h
    · simp at h
    · next b rest hqueue =>
      refine ⟨b, by simp [hqueue], ?_⟩
      simpa [eq_comm] using h
  · split at h
    · simp at h
    · next b rest hqueue =>
      split at h
      · refine ⟨b, by simp [hqueue], ?_⟩
        simpa [eq_comm] using h
      · split at h
        · simp at h
        · next c hget =>
          refine ⟨c, List.mem_of_getElem? hget, ?_⟩
          simpa [eq_comm] using h

theorem mem_of_returnedCursor (h : Inv r) {log : List StoredBlock}
    (hlog : Logged (solo r .history) log) {op : Op} {cursor : UInt64}
    (hcursor : cursor ∈ returnedCursor op (perform r op).1) :
    ∃ b ∈ log, b.sequence = cursor := by
  cases op with
  | copyAfter k after =>
    by_cases hk : k = .history
    · subst hk
      by_cases hreg : (r.sinks .history).registered = true
      · have hresult := (copyAfter_registered h after hreg).2.2.2
        have hqueue := hlog.suffix _ (fifoOf_of_registered hreg)
        have hblock : ∃ block : RoutedBlock, block.sequence = cursor ∧
            ((copyAfter r .history after).1 = .ok block ∨
              (copyAfter r .history after).1 = .gap block) := by
          simp only [perform] at hcursor
          cases hcopy : (copyAfter r .history after).1 with
          | ok block =>
            rw [hcopy] at hcursor
            exact ⟨block, (List.mem_singleton.mp hcursor).symm, .inl rfl⟩
          | gap block =>
            rw [hcopy] at hcursor
            exact ⟨block, (List.mem_singleton.mp hcursor).symm, .inr rfl⟩
          | empty => simp [hcopy, returnedCursor] at hcursor
          | invalid => simp [hcopy, returnedCursor] at hcursor
        obtain ⟨block, rfl, hcopy⟩ := hblock
        rw [hresult] at hcopy
        obtain ⟨b, hb, rfl⟩ := mem_queue_of_copyAfter hcopy
        exact ⟨b, hqueue.subset hb, rfl⟩
      · have hcall : copyAfter r .history after = (.invalid, r) := by simp [copyAfter, hreg]
        simp [perform, hcall, returnedCursor] at hcursor
    · cases k <;> simp_all [returnedCursor, perform]
  | _ => simp [returnedCursor] at hcursor

theorem mem_of_returnedCursors (h : Inv r) {log : List StoredBlock}
    (hlog : Logged (solo r .history) log) {ops : List Op} {cursor : UInt64}
    (hcursor : cursor ∈ returnedCursors r ops) :
    ∃ b ∈ log ++ acceptedBlocks r ops, b.sequence = cursor := by
  induction ops generalizing r log with
  | nil => cases hcursor
  | cons op ops ih =>
    have hinv := (perform_solo h op).1
    have hstep : Logged (solo (perform r op).2 .history)
        (log ++ acceptedBlock op (perform r op).1) := by
      have hone := logged_run h hlog [op]
      rw [acceptedBlocks, acceptedBlocks, List.append_nil] at hone
      exact hone
    rw [returnedCursors, List.mem_append] at hcursor
    rw [acceptedBlocks, ← List.append_assoc]
    rcases hcursor with hhead | hrest
    · obtain ⟨b, hb, hsequence⟩ := mem_of_returnedCursor h hlog hhead
      exact ⟨b, by simp [hb], hsequence⟩
    · exact ih hinv hstep hrest

/-! ### One read -/

theorem Fifo.copyAfter_nil (hretained : f.retained = true) (hqueue : f.queue = [])
    (sessionId after : UInt64) : (f.copyAfter sessionId after).1 = .empty := by
  simp [Fifo.copyAfter, hretained, hqueue]

theorem Fifo.copyAfter_zero (hretained : f.retained = true) {b : StoredBlock}
    {rest : List StoredBlock} (hqueue : f.queue = b :: rest) (sessionId : UInt64) :
    (f.copyAfter sessionId 0).1 = .ok (routed sessionId b) := by
  simp [Fifo.copyAfter, hretained, hqueue]

theorem Fifo.copyAfter_missing (hretained : f.retained = true) {b : StoredBlock}
    {rest : List StoredBlock} (hqueue : f.queue = b :: rest) {after : UInt64} (hafter : after ≠ 0)
    (hmissing : ∀ c ∈ f.queue, c.sequence ≠ after) (sessionId : UInt64) :
    (f.copyAfter sessionId after).1 = .gap (routed sessionId b) := by
  have hnone : (f.queue.findIdx? fun c => c.sequence == after) = none := by
    rw [List.findIdx?_eq_none_iff]
    intro c hc
    exact beq_false_of_ne (hmissing c hc)
  rw [hqueue] at hnone
  simp [Fifo.copyAfter, hretained, hqueue, hafter, hnone]

theorem Fifo.copyAfter_found (hretained : f.retained = true) {front rest : List StoredBlock}
    {b : StoredBlock} (hqueue : f.queue = front ++ b :: rest)
    (hfirst : ∀ c ∈ front, c.sequence ≠ b.sequence) (hnonzero : b.sequence ≠ 0)
    (sessionId : UInt64) :
    (f.copyAfter sessionId b.sequence).1 =
      (rest.head?.map fun c => .ok (routed sessionId c)).getD .empty := by
  have hfind : (f.queue.findIdx? fun c => c.sequence == b.sequence) = some front.length := by
    have hfront : (front.findIdx? fun c => c.sequence == b.sequence) = none := by
      rw [List.findIdx?_eq_none_iff]
      intro c hc
      exact beq_false_of_ne (hfirst c hc)
    rw [hqueue, List.findIdx?_append, hfront, List.findIdx?_cons]
    simp
  have hnext : f.queue[front.length + 1]? = rest.head? := by
    rw [hqueue, List.getElem?_append_right (by omega)]
    simp [List.head?_eq_getElem?]
  obtain ⟨oldest, others, holdest⟩ : ∃ oldest others, f.queue = oldest :: others := by
    cases front with
    | nil => exact ⟨b, rest, hqueue⟩
    | cons c front => exact ⟨c, front ++ b :: rest, hqueue⟩
  unfold Fifo.copyAfter
  rw [hfind, if_neg (by simp [hretained])]
  dsimp only
  rw [hnext, holdest]
  dsimp only
  rw [if_neg hnonzero]
  cases rest with
  | nil => rfl
  | cons c rest => rfl

/-! ### Reading on -/

/-- The history is registered and holds these blocks. -/
structure Holds (r : Router) (queue : List StoredBlock) : Prop where
  inv : Inv r
  fifo : ∃ f, fifoOf r .history = some f ∧ f.retained = true ∧ f.queue = queue
  nodup : (queue.map fun b => b.sequence).Nodup
  nonzero : ∀ b ∈ queue, b.sequence ≠ 0

variable {queue : List StoredBlock}

theorem Holds.copyAfter (h : Holds r queue) (after : UInt64) :
    Holds (copyAfter r .history after).2 queue ∧
      (copyAfter r .history after).2.sessionId = r.sessionId ∧
      ∃ f : Fifo, f.retained = true ∧ f.queue = queue ∧
        (copyAfter r .history after).1 = (f.copyAfter r.sessionId after).1 := by
  obtain ⟨f, hf, hretained, hqueue⟩ := h.fifo
  have hreg : (r.sinks .history).registered = true := by
    by_contra hno
    rw [fifoOf_of_not_registered (by simpa using hno)] at hf
    cases hf
  rw [fifoOf_of_registered hreg] at hf
  obtain rfl := Option.some.inj hf
  obtain ⟨hinv, hframe, hfifo, hresult⟩ := copyAfter_registered h.inv after hreg
  refine ⟨⟨hinv, ⟨_, hfifo, ?_, ?_⟩, h.nodup, h.nonzero⟩, hframe.sessionId, _, hretained, hqueue,
    hresult⟩
  · rw [copyAfter_retained, hretained]
  · rw [copyAfter_queue, hqueue]

theorem Holds.readHistory_found {r : Router} {front rest : List StoredBlock} {b : StoredBlock}
    (h : Holds r (front ++ b :: rest)) {fuel : ℕ} (hfuel : rest.length < fuel) :
    readHistory fuel r b.sequence =
      rest.map (fun c => .ok (Fifo.routed r.sessionId c)) ++ [.empty] := by
  induction rest generalizing r front b fuel with
  | nil =>
    obtain ⟨fuel, rfl⟩ := Nat.exists_eq_succ_of_ne_zero (by omega : fuel ≠ 0)
    obtain ⟨-, -, f, hretained, hqueue, hresult⟩ := h.copyAfter b.sequence
    have hnodup := h.nodup
    rw [List.map_append, List.map_cons, List.nodup_middle, List.nodup_cons] at hnodup
    rw [Fifo.copyAfter_found hretained hqueue (fun c hc heq => hnodup.1 ?_)
      (h.nonzero b (by simp))] at hresult
    · simp only [readHistory, hresult, List.head?_nil, Option.map_none, Option.getD_none]
      rfl
    · rw [← heq]
      exact List.mem_append_left _ (List.mem_map_of_mem hc)
  | cons c rest ih =>
    obtain ⟨fuel, rfl⟩ := Nat.exists_eq_succ_of_ne_zero (by omega : fuel ≠ 0)
    obtain ⟨hnext, hsession, f, hretained, hqueue, hresult⟩ := h.copyAfter b.sequence
    have hnodup := h.nodup
    rw [List.map_append, List.map_cons, List.nodup_middle, List.nodup_cons] at hnodup
    rw [Fifo.copyAfter_found hretained hqueue (fun x hx heq => hnodup.1 ?_)
      (h.nonzero b (by simp))] at hresult
    · have hsplit : front ++ b :: c :: rest = (front ++ [b]) ++ c :: rest := by simp
      rw [hsplit] at hnext
      rw [List.length_cons] at hfuel
      have hread := ih hnext (by omega : rest.length < fuel)
      rw [hsession] at hread
      simp only [readHistory, hresult, List.head?_cons, Option.map_some, Option.getD_some]
      rw [show (Fifo.routed r.sessionId c).sequence = c.sequence from rfl, hread]
      rfl
    · rw [← heq]
      exact List.mem_append_left _ (List.mem_map_of_mem hx)

theorem Holds.readHistory_zero (h : Holds r queue) {fuel : ℕ} (hfuel : queue.length < fuel) :
    readHistory fuel r 0 =
      queue.map (fun c => .ok (Fifo.routed r.sessionId c)) ++ [.empty] := by
  obtain ⟨fuel, rfl⟩ := Nat.exists_eq_succ_of_ne_zero (by omega : fuel ≠ 0)
  obtain ⟨hnext, hsession, f, hretained, hqueue, hresult⟩ := h.copyAfter 0
  cases queue with
  | nil =>
    rw [Fifo.copyAfter_nil hretained hqueue] at hresult
    simp only [readHistory, hresult]
    rfl
  | cons b rest =>
    rw [Fifo.copyAfter_zero hretained hqueue] at hresult
    rw [List.length_cons] at hfuel
    have hread := @Holds.readHistory_found _ [] rest b hnext fuel (by omega)
    rw [hsession] at hread
    simp only [readHistory, hresult]
    rw [show (Fifo.routed r.sessionId b).sequence = b.sequence from rfl, hread]
    rfl

/-- What is read after a gap. -/
def readWithGap (sessionId : UInt64) : List StoredBlock → List CopyResult
  | [] => [.empty]
  | b :: rest =>
    .gap (Fifo.routed sessionId b) ::
      (rest.map (fun c => .ok (Fifo.routed sessionId c)) ++ [.empty])

theorem Holds.readHistory_missing (h : Holds r queue) {cursor : UInt64} (hcursor : cursor ≠ 0)
    (hmissing : ∀ b ∈ queue, b.sequence ≠ cursor)
    {fuel : ℕ} (hfuel : queue.length < fuel) :
    readHistory fuel r cursor = readWithGap r.sessionId queue := by
  obtain ⟨fuel, rfl⟩ := Nat.exists_eq_succ_of_ne_zero (by omega : fuel ≠ 0)
  obtain ⟨hnext, hsession, f, hretained, hqueue, hresult⟩ := h.copyAfter cursor
  cases queue with
  | nil =>
    rw [Fifo.copyAfter_nil hretained hqueue] at hresult
    simp only [readHistory, hresult]
    rfl
  | cons b rest =>
    rw [Fifo.copyAfter_missing hretained hqueue hcursor (by rwa [hqueue])] at hresult
    rw [List.length_cons] at hfuel
    have hread := @Holds.readHistory_found _ [] rest b hnext fuel (by omega)
    rw [hsession] at hread
    simp only [readHistory, hresult]
    rw [show (Fifo.routed r.sessionId b).sequence = b.sequence from rfl, hread]
    rfl

/-! ### Whole runs -/

theorem holds_run {config : RouterConfig} {allocated : Bool} {r₀ : Router}
    (h : create config allocated = some r₀) {ops : List Op}
    (hreg : ((run r₀ ops).sinks .history).registered = true) :
    Holds (run r₀ ops) ((contents (run r₀ ops) .history).map (stored (run r₀ ops))) ∧
      (contents (run r₀ ops) .history).map (stored (run r₀ ops)) <:+ acceptedBlocks r₀ ops := by
  have hinv : Inv (run r₀ ops) := inv_run (inv_create h) ops
  have hlog := logged_run (inv_create h) (logged_create h) ops
  rw [List.nil_append] at hlog
  have hfifo := fifoOf_of_registered hreg
  have hsuffix := hlog.suffix _ hfifo
  rw [toFifo_queue] at hsuffix
  refine ⟨⟨hinv, ⟨_, hfifo, hlog.retained _ hfifo, toFifo_queue _ _⟩, ?_, ?_⟩, hsuffix⟩
  · refine nodup_of_isChain (hlog.chain.suffix (hsuffix.map _)) ?_ ?_
    · intro a ha
      obtain ⟨b, hb, rfl⟩ := List.mem_map.mp ha
      exact hlog.nonzero b (hsuffix.subset hb)
    · have hcount := (hinv.shape .history).count
      have hfits := (hinv.shape .history).fits
      have hsmall := hinv.small
      rw [List.length_map, List.length_map, contents, RingBuffer.length_contents]
      omega
  · exact fun b hb => hlog.nonzero b (hsuffix.subset hb)

theorem exists_last_sequence {cursor : UInt64} (h : ∃ b ∈ log, b.sequence = cursor) :
    ∃ before b after, log = before ++ b :: after ∧ b.sequence = cursor ∧
      ∀ c ∈ after, c.sequence ≠ cursor := by
  induction log with
  | nil =>
    obtain ⟨b, hb, -⟩ := h
    cases hb
  | cons a log ih =>
    by_cases hlater : ∃ b ∈ log, b.sequence = cursor
    · obtain ⟨before, b, after, rfl, hb, hafter⟩ := ih hlater
      exact ⟨a :: before, b, after, rfl, hb, hafter⟩
    · obtain ⟨b, hb, hsequence⟩ := h
      rcases List.mem_cons.mp hb with rfl | hmem
      · exact ⟨[], b, log, rfl, hsequence, fun c hc heq => hlater ⟨c, hc, heq⟩⟩
      · exact absurd ⟨b, hmem, hsequence⟩ hlater

/-- **The history cursor**: after any sequence of calls of a session, the registered history holds
the newest of the accepted blocks, whose sequences follow each other.  From the cursor `0` all of
them are read, in order.  From a returned cursor whose own block, the last accepted with that
sequence, is retained, exactly the blocks after it are read, in order and without a gap.  From one
whose own block is not retained, all retained blocks are read, the first of them as a gap. -/
theorem history_cursor {config : RouterConfig} {allocated : Bool} {r₀ : Router}
    (h : create config allocated = some r₀) (ops : List Op)
    (hreg : ((run r₀ ops).sinks .history).registered = true) {cursor : UInt64}
    (hcursor : cursor = 0 ∨ cursor ∈ returnedCursors r₀ ops) :
    let r := run r₀ ops
    let copied := fun b => CopyResult.ok (Fifo.routed r.sessionId b)
    ∃ lost retained, acceptedBlocks r₀ ops = lost ++ retained ∧
      (contents r .history).map (stored r) = retained ∧
      ((lost ++ retained).map fun b => b.sequence).IsChain (fun a b => b = nextNonzero a) ∧
      (retained.map fun b => b.sequence).Nodup ∧
      ∀ fuel, retained.length < fuel →
        (cursor = 0 → readHistory fuel r cursor = retained.map copied ++ [.empty]) ∧
          (cursor ≠ 0 → ∃ before b after, lost ++ retained = before ++ b :: after ∧
            b.sequence = cursor ∧ (∀ c ∈ after, c.sequence ≠ cursor) ∧
            readHistory fuel r cursor =
              if after.length < retained.length then after.map copied ++ [.empty]
              else readWithGap r.sessionId retained) := by
  intro r copied
  obtain ⟨hholds, lost, hlost⟩ := holds_run h hreg
  have hlog := logged_run (inv_create h) (logged_create h) ops
  rw [List.nil_append] at hlog
  refine ⟨lost, _, hlost.symm, rfl, ?_, hholds.nodup, fun fuel hfuel => ⟨?_, fun hne => ?_⟩⟩
  · rw [hlost]
    exact hlog.chain
  · rintro rfl
    exact hholds.readHistory_zero hfuel
  have hmem := mem_of_returnedCursors (inv_create h) (logged_create h)
    (hcursor.resolve_left hne)
  rw [List.nil_append, ← hlost] at hmem
  obtain ⟨before, b, after, hsplit, rfl, hafter⟩ := exists_last_sequence hmem
  refine ⟨before, b, after, hsplit, rfl, hafter, ?_⟩
  split_ifs with hlt
  · -- the cursor's block is in the retained part
    rw [List.length_map] at hlt
    obtain ⟨front, hfront⟩ : ∃ front, (contents r .history).map (stored r) = front ++ b :: after := by
      have hsuffix : b :: after <:+ lost ++ (contents r .history).map (stored r) :=
        ⟨before, hsplit.symm⟩
      obtain ⟨front, hfront⟩ := List.suffix_of_suffix_length_le hsuffix (List.suffix_append _ _)
        (by rw [List.length_cons, List.length_map]; exact hlt)
      exact ⟨front, hfront.symm⟩
    have hlonger : after.length < fuel := hlt.trans (by rwa [List.length_map] at hfuel)
    have hread : Holds r (front ++ b :: after) := hfront ▸ hholds
    exact hread.readHistory_found hlonger
  · -- every retained block comes after the cursor's block
    have hsuffix : (contents r .history).map (stored r) <:+ after := by
      refine List.suffix_of_suffix_length_le (List.suffix_append lost _) ?_ (not_lt.mp hlt)
      exact ⟨before ++ [b], by rw [hsplit]; simp⟩
    exact hholds.readHistory_missing hne (fun c hc => hafter c (hsuffix.subset hc)) hfuel

/-- A reader whose block was cleared. -/
theorem history_cursor_cleared :
    ∃ r₀, create ⟨7, 65536, 41⟩ true = some r₀ ∧
      ∃ lost retained, acceptedBlocks r₀
        [.register ⟨.history, 65536, true⟩ true, .submit ⟨1, [5]⟩, .copyAfter .history 0,
          .clear .history, .submit ⟨2, [6]⟩] = lost ++ retained ∧ retained.length = 1 := by
  refine ⟨_, rfl, ?_⟩
  obtain ⟨lost, retained, hsplit, hretained, -⟩ :=
    @history_cursor ⟨7, 65536, 41⟩ true _ rfl
      [.register ⟨.history, 65536, true⟩ true, .submit ⟨1, [5]⟩, .copyAfter .history 0,
        .clear .history, .submit ⟨2, [6]⟩] (by decide +kernel) 42 (.inr (by decide +kernel))
  refine ⟨lost, retained, hsplit, ?_⟩
  rw [← hretained, List.length_map]
  decide +kernel

/-- After its block was cleared, a reader gets the very next accepted block as a gap, and a reader
without a cursor gets it without one. -/
theorem history_cursor_adjacent :
    ∃ r₀, create ⟨7, 65536, 41⟩ true = some r₀ ∧
      let ops : List Op :=
        [.register ⟨.history, 65536, true⟩ true, .submit ⟨1, [5]⟩, .copyAfter .history 0,
          .clear .history, .submit ⟨2, [6]⟩]
      returnedCursors r₀ ops = [42] ∧
        acceptedBlocks r₀ ops = [⟨42, 1, [5]⟩, ⟨43, 2, [6]⟩] ∧
        (contents (run r₀ ops) .history).map (stored (run r₀ ops)) = [⟨43, 2, [6]⟩] ∧
        (copyAfter (run r₀ ops) .history 42).1 = .gap (Fifo.routed 7 ⟨43, 2, [6]⟩) ∧
        (copyAfter (run r₀ ops) .history 0).1 = .ok (Fifo.routed 7 ⟨43, 2, [6]⟩) := by
  refine ⟨_, rfl, ?_⟩
  decide +kernel

end RlcdDeck.SerialRouter
