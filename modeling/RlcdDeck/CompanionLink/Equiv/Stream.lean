import RlcdDeck.CompanionLink.Stream
import RlcdDeck.SerialRouter.Equiv.Isolation

/-!
# The handoff from history to live

What the Companion gets for a history request (`history_handoff`).  The blocks of a session carry
the sequences `1, 2, …`, so the history ring and the WSS ring each hold a window of them that ends
with the newest, and the invariant speaks of the ends of the two windows: everything up to the
last sent sequence was sent, has left the history ring or was dropped by the WSS ring, and once
the stream is live everything after it is still in the WSS ring or was dropped.

`sequence_after` compares modulo `2^64`, so a session may not take in `2^63` blocks;
`history_handoff_half_range` is a session that does.
-/

namespace RlcdDeck.CompanionLink

open SerialRouter Counter

/-! ### Windows of sequences -/

/-- The sequences `lo + 1, …, hi`. -/
def window (lo hi : ℕ) : List UInt64 :=
  (List.range' (lo + 1) (hi - lo)).map UInt64.ofNat

variable {n : ℕ}

theorem toNat_ofNat_of_lt (h : n < 2 ^ 64) : (UInt64.ofNat n).toNat = n := by
  rw [UInt64.toNat_ofNat']
  exact Nat.mod_eq_of_lt (by omega)

variable {m : ℕ}

theorem ofNat_inj_of_lt (hm : m < 2 ^ 64) (hn : n < 2 ^ 64) (h : UInt64.ofNat m = UInt64.ofNat n) :
    m = n := by
  rw [← toNat_ofNat_of_lt hm, h, toNat_ofNat_of_lt hn]

theorem window_self (n : ℕ) : window n n = [] := by
  rw [window, Nat.sub_self]
  rfl

variable {lo hi : ℕ}

theorem window_eq_cons (h : lo < hi) :
    window lo hi = UInt64.ofNat (lo + 1) :: window (lo + 1) hi := by
  unfold window
  obtain ⟨d, hd⟩ : ∃ d, hi - lo = d + 1 := ⟨hi - lo - 1, by omega⟩
  rw [hd, List.range'_succ, List.map_cons, show hi - (lo + 1) = d by omega]

theorem window_succ (h : lo ≤ hi) :
    window lo (hi + 1) = window lo hi ++ [UInt64.ofNat (hi + 1)] := by
  unfold window
  rw [show hi + 1 - lo = hi - lo + 1 by omega, List.range'_1_concat, List.map_append,
    List.map_singleton, show lo + 1 + (hi - lo) = hi + 1 by omega]

theorem mem_window {q : ℕ} (hhi : hi < 2 ^ 64) (hq : q < 2 ^ 64) :
    UInt64.ofNat q ∈ window lo hi ↔ lo < q ∧ q ≤ hi := by
  unfold window
  rw [List.mem_map]
  constructor
  · rintro ⟨m, hm, heq⟩
    rw [List.mem_range'_1] at hm
    obtain rfl := ofNat_inj_of_lt (by omega) hq heq
    omega
  · intro h
    exact ⟨q, by rw [List.mem_range'_1]; omega, rfl⟩

theorem exists_window_of_suffix (h : lo ≤ hi) {l : List UInt64} (hl : l <:+ window lo hi) :
    ∃ lo', lo ≤ lo' ∧ lo' ≤ hi ∧ l = window lo' hi := by
  induction hd : hi - lo generalizing lo with
  | zero =>
    obtain rfl : lo = hi := by omega
    rw [window_self, List.suffix_nil] at hl
    exact ⟨lo, le_rfl, le_rfl, by rw [hl, window_self]⟩
  | succ d ih =>
    rw [window_eq_cons (by omega), List.suffix_cons_iff] at hl
    rcases hl with rfl | hl
    · exact ⟨lo, le_rfl, h, (window_eq_cons (by omega)).symm⟩
    · obtain ⟨lo', hlo, hle, heq⟩ := ih (by omega) hl (by omega)
      exact ⟨lo', by omega, hle, heq⟩

theorem window_getElem? {j : ℕ} (h : lo + j < hi) :
    (window lo hi)[j]? = some (UInt64.ofNat (lo + j + 1)) := by
  unfold window
  rw [List.getElem?_map, List.getElem?_range' (by omega)]
  rw [Option.map_some, show lo + 1 + 1 * j = lo + j + 1 by omega]

theorem window_length (lo hi : ℕ) : (window lo hi).length = hi - lo := by
  simp [window]

theorem window_findIdx? (hhi : hi < 2 ^ 64) (hlo : lo < m) (hm : m ≤ hi) :
    (window lo hi).findIdx? (fun x => x == UInt64.ofNat m) = some (m - lo - 1) := by
  have hget : ∀ j, j < hi - lo → (window lo hi)[j]? = some (UInt64.ofNat (lo + j + 1)) :=
    fun j hj => window_getElem? (by omega)
  rw [List.findIdx?_eq_some_iff_getElem]
  have hlen : m - lo - 1 < (window lo hi).length := by
    rw [window_length]
    omega
  refine ⟨hlen, ?_, fun j hj => ?_⟩
  · have := hget (m - lo - 1) (by omega)
    rw [List.getElem?_eq_getElem hlen, Option.some.injEq] at this
    rw [this, show lo + (m - lo - 1) + 1 = m by omega]
    exact beq_self_eq_true _
  · have := hget j (by omega)
    rw [List.getElem?_eq_getElem (by omega), Option.some.injEq] at this
    rw [this, beq_iff_eq]
    intro heq
    have := ofNat_inj_of_lt (by omega) (by omega) heq
    omega

theorem window_findIdx?_none (hhi : hi < 2 ^ 64) (hm : m ≤ lo) (hlo : lo ≤ hi) :
    (window lo hi).findIdx? (fun x => x == UInt64.ofNat m) = none := by
  rw [List.findIdx?_eq_none_iff]
  intro x hx
  rw [beq_eq_false_iff_ne]
  rintro rfl
  have := (mem_window hhi (by omega)).mp hx
  omega

theorem nextNonzero_ofNat (h : n + 1 < 2 ^ 64) :
    nextNonzero (UInt64.ofNat n) = UInt64.ofNat (n + 1) := by
  rw [← UInt64.toNat_inj, nextNonzero, nonzeroNext64_toNat, toNat_ofNat_of_lt (by omega), nonzeroSucc,
    if_neg (by omega), UInt64.toNat_ofNat', Nat.mod_eq_of_lt (by omega)]

theorem sequenceAfter_ofNat {p q : ℕ} (hp : p < 2 ^ 63) (hq : q < 2 ^ 63) :
    sequenceAfter (UInt64.ofNat q) (UInt64.ofNat p) = true ↔ p < q := by
  have hsub : (UInt64.ofNat q - UInt64.ofNat p).toNat = (2 ^ 64 - p + q) % 2 ^ 64 := by
    rw [UInt64.toNat_sub, toNat_ofNat_of_lt (by omega), toNat_ofNat_of_lt (by omega)]
  unfold sequenceAfter
  simp only [Bool.and_eq_true, decide_eq_true_eq, ne_eq, ← UInt64.toNat_inj,
    UInt64.lt_iff_toNat_lt, hsub]
  simp only [UInt64.toNat_zero, UInt64.reduceToNat]
  omega

/-! ### The two rings -/

/-- A registered sink holds the sequences after `lo`, up to the newest. -/
structure SinkWindow (s : Solo) (retained : Bool) (lo n : ℕ) : Prop where
  le : lo ≤ n
  last : s.lastSequence = UInt64.ofNat n
  fifo : ∃ f, s.fifo = some f ∧ f.retained = retained ∧
    f.queue.map (fun b => b.sequence) = window lo n

/-- The history ring, never empty once a block was accepted, and the WSS ring. -/
structure Windows (r : Router) (n hlo wlo : ℕ) : Prop where
  inv : Inv r
  history : SinkWindow (solo r .history) true hlo n
  nonempty : 0 < n → hlo < n
  wss : SinkWindow (solo r .wss) false wlo n

variable {r : Router} {f : Fifo}

theorem queued_eq {k : SinkId} (h : (solo r k).fifo = some f) :
    queued r k = f.queue.map fun b => b.sequence := by
  have hreg : (r.sinks k).registered = true := by
    by_contra hreg
    rw [Bool.not_eq_true] at hreg
    have hnone : (solo r k).fifo = none := fifoOf_of_not_registered hreg
    rw [hnone] at h
    cases h
  have hsome : (solo r k).fifo = some (toFifo r (r.sinks k)) := fifoOf_of_registered hreg
  rw [hsome, Option.some.injEq] at h
  rw [← h, toFifo_queue, List.map_map]
  rfl

variable {retained : Bool}

theorem SinkWindow.queued {k : SinkId}
    (h : SinkWindow (solo r k) retained lo n) : queued r k = window lo n := by
  obtain ⟨f, hf, -, hqueue⟩ := h.fifo
  rw [queued_eq hf, hqueue]

theorem makeRoom_retained (length m : ℕ) (f : Fifo) :
    (f.makeRoom length m).retained = f.retained := by
  induction m generalizing f with
  | zero => rfl
  | succ m ih =>
    rw [Fifo.makeRoom]
    split_ifs
    · rfl
    · rw [ih]
      unfold Fifo.remove
      split
      · rfl
      · rfl

theorem copyAfter_retained (f : Fifo) (sessionId after : UInt64) :
    (f.copyAfter sessionId after).2.retained = f.retained := by
  unfold Fifo.copyAfter
  repeat' split
  all_goals rfl

theorem SinkWindow.submit {s : Solo} (h : SinkWindow s retained lo n) (hn : n + 1 < 2 ^ 64)
    (input : InputBlock) :
    ((s.submit input).1 = none ∧ (s.submit input).2 = s) ∨
      ((s.submit input).1 ≠ none ∧ ∃ lo', lo ≤ lo' ∧ lo' ≤ n ∧
        SinkWindow (s.submit input).2 retained lo' (n + 1)) := by
  unfold Solo.submit
  split_ifs with hvalid
  · exact .inl ⟨rfl, rfl⟩
  · right
    refine ⟨by simp, ?_⟩
    obtain ⟨f, hf, hretained, hqueue⟩ := h.fifo
    have hsuffix := (makeRoom_suffix input.bytes.length f.queue.length f).map
      fun b => b.sequence
    rw [hqueue] at hsuffix
    obtain ⟨lo', hlo, hle, heq⟩ := exists_window_of_suffix h.le hsuffix
    have hnext : nextNonzero s.lastSequence = UInt64.ofNat (n + 1) := by
      rw [h.last, nextNonzero_ofNat hn]
    refine ⟨lo', hlo, hle, ⟨by omega, hnext, ?_⟩⟩
    dsimp only
    rw [hf]
    refine ⟨_, rfl, ?_, ?_⟩
    · rw [← hretained]
      exact makeRoom_retained _ _ _
    · rw [window_succ hle, ← heq, ← hnext]
      exact List.map_append

/-- Whether a call submits a block. -/
def isSubmit : Op → Bool
  | .submit _ => true
  | _ => false

variable {hlo wlo : ℕ}

/-- A call of another user: nothing changes for the two rings, or a block becomes the newest of
both. -/
theorem Windows.perform (h : Windows r n hlo wlo) (hn : n + 1 < 2 ^ 64) {op : Op}
    (hop : Stream.allowed op = true) :
    (perform r op).2.sessionId = r.sessionId ∧
      (Windows (perform r op).2 n hlo wlo ∨
        isSubmit op = true ∧ ∃ hlo' wlo', hlo ≤ hlo' ∧ wlo ≤ wlo' ∧ wlo' ≤ n ∧
          Windows (perform r op).2 (n + 1) hlo' wlo') := by
  obtain ⟨hinv, hsolo⟩ := perform_solo h.inv op
  have hhistory := hsolo .history
  have hwss := hsolo .wss
  have same : concerns .history op = false → concerns .wss op = false →
      (SerialRouter.perform r op).2.sessionId = r.sessionId ∧
        Windows (SerialRouter.perform r op).2 n hlo wlo := by
    intro hc hc'
    rw [if_neg (by simp [hc])] at hhistory
    rw [if_neg (by simp [hc'])] at hwss
    refine ⟨congrArg Solo.sessionId hhistory, hinv, ?_, h.nonempty, ?_⟩
    · rw [hhistory]
      exact h.history
    · rw [hwss]
      exact h.wss
  cases op with
  | submit input =>
    rw [if_pos (by rfl)] at hhistory hwss
    simp only [Solo.perform, Prod.mk.injEq] at hhistory hwss
    have hsession : (SerialRouter.perform r (.submit input)).2.sessionId = r.sessionId := by
      have := congrArg Solo.sessionId hwss.2
      rw [Solo.submit] at this
      split_ifs at this
      · exact this.symm
      · exact this.symm
    refine ⟨hsession, ?_⟩
    have hresult : ((solo r .history).submit input).1 = ((solo r .wss).submit input).1 := by
      have := hhistory.1.trans hwss.1.symm
      exact Output.sequence.inj this
    rcases h.history.submit hn input with ⟨hnone, hsame⟩ | ⟨hsome, hlo', hle, hlt, hwin⟩
    · rcases h.wss.submit hn input with ⟨-, hsame'⟩ | ⟨hsome', -⟩
      · left
        refine ⟨hinv, ?_, h.nonempty, ?_⟩
        · rw [← hhistory.2, hsame]
          exact h.history
        · rw [← hwss.2, hsame']
          exact h.wss
      · exact absurd (hresult.symm.trans hnone) hsome'
    · rcases h.wss.submit hn input with ⟨hnone', -⟩ | ⟨-, wlo', hle', hlt', hwin'⟩
      · exact absurd (hresult.trans hnone') hsome
      · right
        refine ⟨rfl, hlo', wlo', hle, hle', hlt', ⟨hinv, ?_, fun _ => by omega, ?_⟩⟩
        · rw [← hhistory.2]
          exact hwin
        · rw [← hwss.2]
          exact hwin'
  | take k =>
    have hk : k = .usb ∨ k = .stats := by simpa [Stream.allowed] using hop
    obtain ⟨hsession, hwin⟩ := same
      (by rcases hk with rfl | rfl <;> rfl) (by rcases hk with rfl | rfl <;> rfl)
    exact ⟨hsession, .inl hwin⟩
  | noteUartError error => exact ⟨(same rfl rfl).1, .inl (same rfl rfl).2⟩
  | sinkStats k => exact ⟨rfl, .inl h⟩
  | register config allocated => cases hop
  | unregister k => cases hop
  | copyAfter k after => cases hop
  | clear k => cases hop

/-- Taking a block from the WSS ring takes the oldest of its window. -/
theorem Windows.take (h : Windows r n hlo wlo) :
    (take r .wss).2.sessionId = r.sessionId ∧
      (((take r .wss).1 = .empty ∧ Windows (take r .wss).2 n hlo wlo) ∨
        ∃ block, (take r .wss).1 = .ok block ∧ block.sessionId = r.sessionId ∧
          block.sequence = UInt64.ofNat (wlo + 1) ∧ wlo < n ∧
          Windows (take r .wss).2 n hlo (wlo + 1)) := by
  obtain ⟨hinv, hframe, hcall⟩ := take_spec h.inv .wss
  have hother : solo (SerialRouter.take r .wss).2 .history = solo r .history :=
    solo_of_frame_of_ne hframe (by decide)
  obtain ⟨f, hf, hretained, hqueue⟩ := h.wss.fifo
  simp only [Solo.perform, hf, Prod.mk.injEq, Output.copied.injEq] at hcall
  obtain ⟨hresult, hsolo⟩ := hcall
  refine ⟨hframe.sessionId, ?_⟩
  unfold Fifo.take at hresult hsolo
  rw [if_neg (by simp [hretained])] at hresult hsolo
  cases hcases : f.queue with
  | nil =>
    simp only [hcases] at hresult hsolo
    left
    refine ⟨hresult.symm, hinv, ?_, h.nonempty, ?_⟩
    · rw [hother]
      exact h.history
    · rw [← hsolo]
      exact ⟨h.wss.le, h.wss.last, f, rfl, hretained, hqueue⟩
  | cons b rest =>
    simp only [hcases] at hresult hsolo
    right
    have hlt : wlo < n := by
      by_contra hge
      obtain rfl : wlo = n := by have := h.wss.le; omega
      rw [hcases, window_self] at hqueue
      cases hqueue
    rw [hcases, window_eq_cons hlt, List.map_cons, List.cons.injEq] at hqueue
    refine ⟨_, hresult.symm, rfl, hqueue.1, hlt, hinv, ?_, h.nonempty, ?_⟩
    · rw [hother]
      exact h.history
    · rw [← hsolo]
      refine ⟨hlt, h.wss.last, _, rfl, ?_, ?_⟩
      · rw [← hretained]
        unfold Fifo.remove
        rw [hcases]
        rfl
      · rw [remove_queue, hcases, List.tail_cons, hqueue.2]

theorem Windows.of_copyAfter (h : Windows r n hlo wlo) (cursor : UInt64) :
    (copyAfter r .history cursor).2.sessionId = r.sessionId ∧
      Windows (copyAfter r .history cursor).2 n hlo wlo := by
  obtain ⟨hinv, hframe, hcall⟩ := copyAfter_spec h.inv .history cursor
  obtain ⟨f, hf, hretained, hqueue⟩ := h.history.fifo
  simp only [Solo.perform, hf, Prod.mk.injEq] at hcall
  refine ⟨hframe.sessionId, hinv, ?_, h.nonempty, ?_⟩
  · rw [← hcall.2]
    refine ⟨h.history.le, h.history.last, _, rfl, ?_, ?_⟩
    · rw [← hretained]
      exact copyAfter_retained f _ _
    · rw [copyAfter_queue, hqueue]
  · rw [solo_of_frame_of_ne hframe (by decide)]
    exact h.wss

/-- Copying from the history ring gives the first block after the cursor that the ring still has,
and nothing exactly when the cursor is the newest sequence. -/
theorem Windows.copyAfter (h : Windows r n hlo wlo) (hn : n + 1 < 2 ^ 64) (hm : m ≤ n) :
    ((copyAfter r .history (UInt64.ofNat m)).1 = .empty ∧ m = n) ∨
      ∃ block, ((copyAfter r .history (UInt64.ofNat m)).1 = .ok block ∨
          (copyAfter r .history (UInt64.ofNat m)).1 = .gap block) ∧
        block.sessionId = r.sessionId ∧ block.sequence = UInt64.ofNat (max hlo m + 1) ∧
        max hlo m < n := by
  obtain ⟨-, -, hcall⟩ := copyAfter_spec h.inv .history (UInt64.ofNat m)
  obtain ⟨f, hf, hretained, hqueue⟩ := h.history.fifo
  simp only [Solo.perform, hf, Prod.mk.injEq, Output.copied.injEq] at hcall
  have hresult := hcall.1
  have hlen : f.queue.length = n - hlo := by
    rw [← window_length, ← hqueue, List.length_map]
  unfold Fifo.copyAfter at hresult
  rw [if_neg (by simp [hretained])] at hresult
  cases hcases : f.queue with
  | nil =>
    simp only [hcases] at hresult
    left
    refine ⟨hresult.symm, ?_⟩
    have hnonempty := h.nonempty
    rw [hcases, List.length_nil] at hlen
    omega
  | cons b rest =>
    simp only [hcases] at hresult
    have hlt : hlo < n := by
      rw [hcases, List.length_cons] at hlen
      omega
    have hfirst : b.sequence = UInt64.ofNat (hlo + 1) := by
      rw [hcases, window_eq_cons hlt, List.map_cons, List.cons.injEq] at hqueue
      exact hqueue.1
    have hfind : (b :: rest).findIdx? (fun b => b.sequence == UInt64.ofNat m) =
        (window hlo n).findIdx? fun x => x == UInt64.ofNat m := by
      rw [← hqueue, hcases, List.findIdx?_map]
      rfl
    by_cases hzero : m = 0
    · subst hzero
      rw [if_pos (by rfl)] at hresult
      refine .inr ⟨_, .inl hresult.symm, rfl, ?_, ?_⟩
      · rw [max_eq_left (Nat.zero_le _)]
        exact hfirst
      · rw [max_eq_left (Nat.zero_le _)]
        exact hlt
    have hne : ¬UInt64.ofNat m = 0 := fun hz =>
      hzero (ofNat_inj_of_lt (by omega) (by norm_num) hz)
    rw [if_neg hne, hfind] at hresult
    by_cases hold : m ≤ hlo
    · -- the cursor has left the ring: the oldest block follows the gap
      rw [window_findIdx?_none (by omega) hold h.history.le] at hresult
      refine .inr ⟨_, .inr hresult.symm, rfl, ?_, ?_⟩
      · rw [max_eq_left hold]
        exact hfirst
      · rw [max_eq_left hold]
        exact hlt
    rw [window_findIdx? (by omega) (by omega) hm] at hresult
    dsimp only at hresult
    have hindex : m - hlo - 1 + 1 = m - hlo := by omega
    rw [hindex, ← hcases] at hresult
    by_cases hnewest : m = n
    · rw [List.getElem?_eq_none (by omega)] at hresult
      exact .inl ⟨hresult.symm, hnewest⟩
    · have hget : (f.queue.map fun b => b.sequence)[m - hlo]? = some (UInt64.ofNat (m + 1)) := by
        rw [hqueue, window_getElem? (by omega), show hlo + (m - hlo) + 1 = m + 1 by omega]
      rw [List.getElem?_map, Option.map_eq_some_iff] at hget
      obtain ⟨b', hb', hseq⟩ := hget
      rw [hb'] at hresult
      refine .inr ⟨_, .inl hresult.symm, rfl, ?_, ?_⟩
      · rw [max_eq_right (by omega)]
        exact hseq
      · rw [max_eq_right (by omega)]
        omega

/-! ### The stream of a request -/

variable {s : Stream}

namespace Stream

/-- What holds of the stream that answers a request for everything after `a`. -/
structure Following (s : Stream) (a : UInt64) (n hlo wlo : ℕ) : Prop where
  session : s.sentSerialSessionId = s.router.sessionId
  cursor : s.serialHistoryActive = true → s.serialHistoryCursor = s.sentSerialSequence
  sent_le : s.sentSerialSequence.toNat ≤ n
  increasing : (a :: s.emitted).Pairwise (· < ·)
  last : (a :: s.emitted).getLast? = some s.sentSerialSequence
  /-- What lies behind was sent, is no longer in the history ring or was dropped. -/
  behind : ∀ q, a.toNat < q → q ≤ s.sentSerialSequence.toNat →
    UInt64.ofNat q ∈ s.emitted ∨ q ≤ hlo ∨ UInt64.ofNat q ∈ s.dropped
  /-- What lies ahead of a live stream is in the WSS ring or was dropped. -/
  ahead : s.serialHistoryActive = false → ∀ q, s.sentSerialSequence.toNat < q → q ≤ n →
    wlo < q ∨ UInt64.ofNat q ∈ s.dropped

/-- The invariant of a session's stream. -/
structure Good (s : Stream) (n hlo wlo : ℕ) : Prop where
  windows : Windows s.router n hlo wlo
  ready : s.after = none → s.serialStreamReady = false
  following : ∀ a, s.after = some a → s.Following a n hlo wlo

theorem reset_good (h : Windows s.router n hlo wlo) :
    s.reset.Good n hlo wlo :=
  ⟨h, fun _ => rfl, fun a ha => by cases ha⟩

/-- A router call. -/
theorem Good.router (h : s.Good n hlo wlo) (hn : n < 2 ^ 63) (op : Op) :
    (s.step (.router op)).Good n hlo wlo ∨
      isSubmit op = true ∧ ∃ hlo' wlo', (s.step (.router op)).Good (n + 1) hlo' wlo' := by
  unfold step
  by_cases hop : allowed op = true
  swap
  · dsimp only
    rw [if_neg hop]
    exact .inl h
  dsimp only
  rw [if_pos hop]
  obtain ⟨hsession, hsame | ⟨hsubmit, hlo', wlo', hhlo, hwlo, hle, hnew⟩⟩ :=
    h.windows.perform (by omega) hop
  · left
    refine ⟨hsame, h.ready, fun a ha => ?_⟩
    have hf := h.following a ha
    refine ⟨hf.session.trans hsession.symm, hf.cursor, hf.sent_le, hf.increasing, hf.last,
      fun q hq hle => ?_, fun hlive q hq hle => ?_⟩
    · rcases hf.behind q hq hle with hin | hout | hdrop
      · exact .inl hin
      · exact .inr (.inl hout)
      · exact .inr (.inr (List.mem_append_left _ hdrop))
    · rcases hf.ahead hlive q hq hle with hin | hdrop
      · exact .inl hin
      · exact .inr (List.mem_append_left _ hdrop)
  · right
    refine ⟨hsubmit, hlo', wlo', hnew, h.ready, fun a ha => ?_⟩
    have hf := h.following a ha
    refine ⟨hf.session.trans hsession.symm, hf.cursor, by have := hf.sent_le; dsimp only; omega,
      hf.increasing, hf.last, fun q hq hle => ?_, fun hlive q hq hqn => ?_⟩
    · rcases hf.behind q hq hle with hin | hout | hdrop
      · exact .inl hin
      · exact .inr (.inl (by omega))
      · exact .inr (.inr (List.mem_append_left _ hdrop))
    · by_cases hin : wlo' < q
      · exact .inl hin
      · right
        rcases hf.ahead hlive q hq (by omega) with hwas | hdrop
        · -- the block was in the WSS ring and is not any more
          refine List.mem_append_right _ (List.mem_filter.mpr ⟨?_, ?_⟩)
          · rw [h.windows.wss.queued, mem_window (by omega) (by omega)]
            omega
          · rw [decide_eq_true_eq, hnew.wss.queued, mem_window (by omega) (by omega)]
            omega
        · exact List.mem_append_left _ hdrop

theorem le_of_getLast? {l : List UInt64} {z : UInt64} (h : l.Pairwise (· < ·))
    (hz : l.getLast? = some z) {y : UInt64} (hy : y ∈ l) : y ≤ z := by
  obtain ⟨front, rfl⟩ := List.getLast?_eq_some_iff.mp hz
  rcases List.mem_append.mp hy with hin | hin
  · exact UInt64.le_of_lt ((List.pairwise_append.mp h).2.2 y hin z (List.mem_singleton_self z))
  · rw [List.mem_singleton.mp hin]
    exact UInt64.le_refl z

theorem Following.advance {a : UInt64} (h : s.Following a n hlo wlo) (hn : n < 2 ^ 63) (q wlo' : ℕ)
    (cursor : UInt64)
    (hq : s.sentSerialSequence.toNat < q) (hqn : q ≤ n)
    (hskip : ∀ p, s.sentSerialSequence.toNat < p → p < q → p ≤ hlo ∨ UInt64.ofNat p ∈ s.dropped)
    (hahead : s.serialHistoryActive = false → ∀ p, q < p → p ≤ n →
      wlo' < p ∨ UInt64.ofNat p ∈ s.dropped)
    (hcursor : s.serialHistoryActive = true → cursor = UInt64.ofNat q) :
    Following
      { s with
        sentSerialSessionId := s.router.sessionId
        sentSerialSequence := UInt64.ofNat q
        emitted := s.emitted ++ [UInt64.ofNat q]
        serialHistoryCursor := cursor } a n hlo wlo' := by
  have htoNat : (UInt64.ofNat q).toNat = q := toNat_ofNat_of_lt (by omega)
  refine ⟨rfl, hcursor, by rw [htoNat]; exact hqn, ?_, ?_, fun p hp hle => ?_,
    fun hlive p hp hle => ?_⟩
  · dsimp only
    rw [← List.cons_append, List.pairwise_append]
    refine ⟨h.increasing, List.pairwise_singleton _ _, fun y hy x hx => ?_⟩
    obtain rfl := List.mem_singleton.mp hx
    have hle := UInt64.le_iff_toNat_le.mp (le_of_getLast? h.increasing h.last hy)
    rw [UInt64.lt_iff_toNat_lt, htoNat]
    omega
  · dsimp only
    rw [← List.cons_append, List.getLast?_append, List.getLast?_singleton]
    rfl
  · dsimp only at hle ⊢
    rw [htoNat] at hle
    by_cases hold : p ≤ s.sentSerialSequence.toNat
    · rcases h.behind p hp hold with hin | hout
      · exact .inl (List.mem_append_left _ hin)
      · exact .inr hout
    · by_cases hnew : p = q
      · rw [hnew]
        exact .inl (List.mem_append_right _ (List.mem_singleton_self _))
      · exact .inr (hskip p (by omega) (by omega))
  · dsimp only at hp
    rw [htoNat] at hp
    exact hahead hlive p hp hle

theorem Following.of_router {a : UInt64} (h : s.Following a n hlo wlo) {router : Router}
    (hsession : router.sessionId = s.router.sessionId) :
    Following { s with router } a n hlo wlo :=
  ⟨h.session.trans hsession.symm, h.cursor, h.sent_le, h.increasing, h.last, h.behind, h.ahead⟩

/-- A turn of a live stream. -/
theorem Good.sendLive (h : s.Good n hlo wlo) (hn : n < 2 ^ 63)
    (hlive : s.serialHistoryActive = false) (locked sent : Bool) :
    ∃ wlo', (s.sendOneLiveSerialBlock locked sent).Good n hlo wlo' := by
  unfold sendOneLiveSerialBlock serviceTake
  cases locked with
  | false => exact ⟨wlo, h⟩
  | true =>
    rw [if_pos rfl]
    obtain ⟨hsession, ⟨hempty, hwin⟩ | ⟨block, hok, hblock, hseq, hlt, hwin⟩⟩ := h.windows.take
    · rw [show SerialRouter.take s.router .wss = (.empty, (SerialRouter.take s.router .wss).2)
        from Prod.ext hempty rfl]
      exact ⟨wlo, hwin, h.ready, fun a ha => (h.following a ha).of_router hsession⟩
    · rw [show SerialRouter.take s.router .wss = (.ok block, (SerialRouter.take s.router .wss).2)
        from Prod.ext hok rfl]
      generalize SerialRouter.take s.router .wss = result at hsession hwin
      dsimp only
      refine ⟨wlo + 1, ?_⟩
      split_ifs with hlength hskip
      · exact reset_good hwin
      · -- an old block of the ring: it was sent from the history or is not wanted
        refine ⟨hwin, h.ready, fun a ha => ?_⟩
        have hf := (h.following a ha).of_router hsession
        refine ⟨hf.session, hf.cursor, hf.sent_le, hf.increasing, hf.last, hf.behind,
          fun _ q hq hqn => ?_⟩
        have hnot := hskip.2
        have hsent := hf.sent_le
        dsimp only at hsent hq
        rw [hseq, ← UInt64.ofNat_toNat (x := s.sentSerialSequence),
          sequenceAfter_ofNat (by omega) (by omega)] at hnot
        left
        omega
      · unfold sendSerialBlock
        split_ifs with hbad
        · exact reset_good hwin
        · refine ⟨hwin, h.ready, fun a ha => ?_⟩
          have hf := (h.following a ha).of_router hsession
          have hsent := hf.sent_le
          have hafter : sequenceAfter block.sequence s.sentSerialSequence = true := by
            by_contra hno
            exact hskip ⟨hf.session.trans (hsession.trans hblock.symm), hno⟩
          rw [hseq, ← UInt64.ofNat_toNat (x := s.sentSerialSequence),
            sequenceAfter_ofNat (by dsimp only at hsent; omega) (by omega)] at hafter
          dsimp only at hsent
          have hadvance := hf.advance hn (wlo + 1) (wlo + 1) s.serialHistoryCursor hafter
            (by omega) (fun p hp hpq => ?_) (fun _ p hp _ => .inl hp) (fun hactive => ?_)
          · dsimp only at hadvance ⊢
            rw [hseq, hblock, ← hsession]
            exact hadvance
          · rcases hf.ahead hlive p hp (by omega) with hin | hdrop
            · omega
            · exact .inr hdrop
          · dsimp only at hactive
            rw [hlive] at hactive
            cases hactive

theorem Good.sendHistoryBlock (h : s.Good n hlo wlo) (hn : n < 2 ^ 63)
    (hactive : s.serialHistoryActive = true) {block : RoutedBlock}
    (hsession : block.sessionId = s.router.sessionId)
    (hseq : block.sequence = UInt64.ofNat (max hlo s.sentSerialSequence.toNat + 1))
    (hlt : max hlo s.sentSerialSequence.toNat < n) (sent : Bool) :
    (s.sendHistoryBlock block sent).Good n hlo wlo := by
  unfold Stream.sendHistoryBlock sendSerialBlock
  by_cases hbad : block.sessionId = 0 ∨ block.sequence = 0 ∨ block.length = 0 ∨
      blockBytes < block.length ∨ sent = false
  · rw [if_pos hbad]
    exact reset_good h.windows
  · rw [if_neg hbad]
    refine ⟨h.windows, h.ready, fun a ha => ?_⟩
    have hf := h.following a ha
    have hadvance := hf.advance hn (max hlo s.sentSerialSequence.toNat + 1) wlo block.sequence
      (by omega) hlt (fun p hp hpq => .inl (by omega))
      (fun hlive => by rw [hactive] at hlive; cases hlive) (fun _ => hseq)
    dsimp only
    rw [hsession, hseq]
    rw [hseq] at hadvance
    exact hadvance

/-- A turn of a stream that replays the history. -/
theorem Good.sendHistory (h : s.Good n hlo wlo) (hn : n < 2 ^ 63) (hafter : s.after ≠ none)
    (hactive : s.serialHistoryActive = true) (locked sent : Bool) :
    (s.sendOneHistorySerialBlock locked sent).Good n hlo wlo := by
  obtain ⟨a, ha⟩ := Option.ne_none_iff_exists'.mp hafter
  have hf := h.following a ha
  have hcursor : s.serialHistoryCursor = UInt64.ofNat s.sentSerialSequence.toNat := by
    rw [hf.cursor hactive, UInt64.ofNat_toNat]
  unfold sendOneHistorySerialBlock serviceCopyHistoryAfter
  cases locked with
  | false => exact reset_good h.windows
  | true =>
    rw [if_pos rfl]
    obtain ⟨hsession, hwin⟩ := h.windows.of_copyAfter s.serialHistoryCursor
    have hcases := h.windows.copyAfter (by omega) hf.sent_le
    rw [← hcursor] at hcases
    generalize SerialRouter.copyAfter s.router .history s.serialHistoryCursor = result at *
    obtain ⟨copied, router⟩ := result
    have hnext : Good { s with router } n hlo wlo :=
      ⟨hwin, h.ready, fun b hb => (h.following b hb).of_router hsession⟩
    rcases hcases with ⟨hempty, hnewest⟩ | ⟨block, hblock, hid, hseq, hlt⟩
    · -- the history is exhausted, and nothing lies ahead of the cursor
      dsimp only at hempty
      subst hempty
      refine ⟨hwin, h.ready, fun b hb => ?_⟩
      have hfb := (h.following b hb).of_router hsession
      refine ⟨hfb.session, (fun hno => by cases hno), hfb.sent_le, hfb.increasing, hfb.last,
        hfb.behind, fun _ q hq hqn => ?_⟩
      dsimp only at hq
      omega
    · have hsend := hnext.sendHistoryBlock hn hactive (hid.trans hsession.symm) hseq hlt sent
      rcases hblock with hok | hgap
      · dsimp only at hok
        subst hok
        dsimp only
        split_ifs
        · exact reset_good hwin
        · exact reset_good hwin
        · exact hsend
      · dsimp only at hgap
        subst hgap
        dsimp only
        split_ifs
        · exact reset_good hwin
        · exact hsend

theorem Good.send (h : s.Good n hlo wlo) (hn : n < 2 ^ 63) (locked sent : Bool) :
    ∃ wlo', (s.send locked sent).Good n hlo wlo' := by
  unfold Stream.send
  by_cases hready : s.serialStreamReady = true
  · rw [if_pos hready]
    cases hactive : s.serialHistoryActive with
    | true =>
      have hafter : s.after ≠ none := fun hnone => by
        rw [h.ready hnone] at hready
        cases hready
      exact ⟨wlo, h.sendHistory hn hafter hactive locked sent⟩
    | false => exact h.sendLive hn hactive locked sent
  · rw [if_neg hready]
    exact ⟨wlo, h⟩

/-! ### Runs -/

/-- The number of submitted blocks. -/
def submits (events : List StreamEvent) : ℕ :=
  events.countP fun
    | .router op => isSubmit op
    | _ => false

/-- Whether an event is a history request. -/
def isRequest : StreamEvent → Bool
  | .historyRequest .. => true
  | _ => false

theorem Good.step (h : s.Good n hlo wlo) {e : StreamEvent} (hn : n + submits [e] < 2 ^ 63)
    (he : isRequest e = false) :
    ∃ n' hlo' wlo', n' ≤ n + submits [e] ∧ (s.step e).Good n' hlo' wlo' := by
  cases e with
  | router op =>
    rcases h.router (by omega) op with hsame | ⟨hop, hlo', wlo', hnew⟩
    · exact ⟨n, hlo, wlo, by omega, hsame⟩
    · have hcount : submits [.router op] = 1 := by simp [submits, hop]
      exact ⟨n + 1, hlo', wlo', by omega, hnew⟩
  | historyRequest sessionId afterSequence => cases he
  | send locked sent =>
    obtain ⟨wlo', hsend⟩ := h.send (by omega) locked sent
    exact ⟨n, hlo, wlo', by omega, hsend⟩
  | reset => exact ⟨n, hlo, wlo, by omega, reset_good h.windows⟩

theorem sendSerialBlock_router (s : Stream) (block : RoutedBlock) (sent : Bool) :
    (s.sendSerialBlock block sent).2.router = s.router := by
  unfold sendSerialBlock
  split_ifs
  · rfl
  · rfl

theorem sendHistoryBlock_router (s : Stream) (block : RoutedBlock) (sent : Bool) :
    (s.sendHistoryBlock block sent).router = s.router := by
  have hrouter := sendSerialBlock_router s block sent
  unfold sendHistoryBlock
  split
  · next heq => rw [heq] at hrouter; exact hrouter
  · next heq => rw [heq] at hrouter; exact hrouter

/-- What a turn of the sending loop does to the router, whatever the cursor is. -/
theorem send_router (s : Stream) (locked sent : Bool) :
    (s.send locked sent).router = s.router ∨
      (s.send locked sent).router = (take s.router .wss).2 ∨
      (s.send locked sent).router = (copyAfter s.router .history s.serialHistoryCursor).2 := by
  unfold Stream.send
  split_ifs
  · unfold sendOneHistorySerialBlock serviceCopyHistoryAfter
    cases locked with
    | false => exact .inl rfl
    | true =>
      right; right
      rw [if_pos rfl]
      obtain ⟨copied, router⟩ := copyAfter s.router .history s.serialHistoryCursor
      cases copied with
      | empty => rfl
      | invalid => rfl
      | gap block =>
        dsimp only
        split_ifs
        · rfl
        · exact sendHistoryBlock_router _ _ _
      | ok block =>
        dsimp only
        split_ifs
        · rfl
        · rfl
        · exact sendHistoryBlock_router _ _ _
  · unfold sendOneLiveSerialBlock serviceTake
    cases locked with
    | false => exact .inl rfl
    | true =>
      right; left
      rw [if_pos rfl]
      obtain ⟨copied, router⟩ := take s.router .wss
      cases copied with
      | empty => rfl
      | invalid => rfl
      | gap block => rfl
      | ok block =>
        dsimp only
        split_ifs
        · rfl
        · rfl
        · exact sendSerialBlock_router _ _ _
  · exact .inl rfl

theorem step_windows (h : Windows s.router n hlo wlo) (e : StreamEvent)
    (hn : n + submits [e] < 2 ^ 63) :
    (s.step e).router.sessionId = s.router.sessionId ∧
      ∃ n' hlo' wlo', n' ≤ n + submits [e] ∧ Windows (s.step e).router n' hlo' wlo' := by
  cases e with
  | router op =>
    unfold step
    by_cases hop : allowed op = true
    · dsimp only
      rw [if_pos hop]
      obtain ⟨hsession, hsame | ⟨hsubmit, hlo', wlo', -, -, -, hnew⟩⟩ := h.perform (by omega) hop
      · exact ⟨hsession, n, hlo, wlo, by omega, hsame⟩
      · have hcount : submits [.router op] = 1 := by simp [submits, hsubmit]
        exact ⟨hsession, n + 1, hlo', wlo', by omega, hnew⟩
    · dsimp only
      rw [if_neg hop]
      exact ⟨rfl, n, hlo, wlo, by omega, h⟩
  | historyRequest sessionId afterSequence =>
    have hrouter : (s.step (.historyRequest sessionId afterSequence)).router = s.router := by
      show (s.historyRequest sessionId afterSequence).router = s.router
      unfold historyRequest
      split_ifs
      · rfl
      · rfl
    rw [hrouter]
    exact ⟨rfl, n, hlo, wlo, by omega, h⟩
  | send locked sent =>
    rcases send_router s locked sent with hrouter | hrouter | hrouter
    · rw [show s.step (.send locked sent) = s.send locked sent from rfl, hrouter]
      exact ⟨rfl, n, hlo, wlo, by omega, h⟩
    · rw [show s.step (.send locked sent) = s.send locked sent from rfl, hrouter]
      obtain ⟨hsession, ⟨-, hwin⟩ | ⟨-, -, -, -, -, hwin⟩⟩ := h.take
      · exact ⟨hsession, n, hlo, wlo, by omega, hwin⟩
      · exact ⟨hsession, n, hlo, wlo + 1, by omega, hwin⟩
    · rw [show s.step (.send locked sent) = s.send locked sent from rfl, hrouter]
      obtain ⟨hsession, hwin⟩ := h.of_copyAfter s.serialHistoryCursor
      exact ⟨hsession, n, hlo, wlo, by omega, hwin⟩
  | reset => exact ⟨rfl, n, hlo, wlo, by omega, h⟩

theorem submits_cons (e : StreamEvent) (events : List StreamEvent) :
    submits (e :: events) = submits [e] + submits events := by
  unfold submits
  rw [← List.singleton_append, List.countP_append]

theorem run_windows {s : Stream} {n hlo wlo : ℕ} (h : Windows s.router n hlo wlo)
    {events : List StreamEvent} (hn : n + submits events < 2 ^ 63) :
    (s.run events).router.sessionId = s.router.sessionId ∧
      ∃ n' hlo' wlo', n' ≤ n + submits events ∧ Windows (s.run events).router n' hlo' wlo' := by
  induction events generalizing s n hlo wlo with
  | nil => exact ⟨rfl, n, hlo, wlo, by omega, h⟩
  | cons e events ih =>
    rw [submits_cons] at hn ⊢
    obtain ⟨hsession, n₁, hlo₁, wlo₁, hle₁, hwin₁⟩ := step_windows h e (by omega)
    obtain ⟨hsession', n₂, hlo₂, wlo₂, hle₂, hwin₂⟩ := ih hwin₁ (by omega)
    exact ⟨hsession'.trans hsession, n₂, hlo₂, wlo₂, by omega, hwin₂⟩

theorem Good.run (h : s.Good n hlo wlo) {events : List StreamEvent}
    (hn : n + submits events < 2 ^ 63)
    (hevents : ∀ e ∈ events, isRequest e = false) :
    ∃ n' hlo' wlo', n' ≤ n + submits events ∧ (s.run events).Good n' hlo' wlo' := by
  induction events generalizing s n hlo wlo with
  | nil => exact ⟨n, hlo, wlo, by omega, h⟩
  | cons e events ih =>
    rw [submits_cons] at hn ⊢
    obtain ⟨n₁, hlo₁, wlo₁, hle₁, hgood₁⟩ := h.step (by omega) (hevents e List.mem_cons_self)
    obtain ⟨n₂, hlo₂, wlo₂, hle₂, hgood₂⟩ :=
      ih hgood₁ (by omega) fun e' he' => hevents e' (List.mem_cons_of_mem _ he')
    exact ⟨n₂, hlo₂, wlo₂, by omega, hgood₂⟩

end Stream

/-! ### The handoff -/

/-- The queue of a sink that was just registered. -/
def emptyFifo (sink : SinkConfig) : Fifo :=
  { capacityBytes := sink.capacityBytes
    capacityBlocks := sink.capacityBytes / blockBytes
    retained := sink.retained }

theorem run_register {config : RouterConfig} {sink : SinkConfig}
    (hvalid : (Solo.fresh config).validConfig sink = true) :
    (Solo.fresh config).run [.register sink true] =
      { Solo.fresh config with fifo := some (emptyFifo sink) } := by
  show ((Solo.fresh config).register sink true).2 = _
  unfold Solo.register
  rw [if_pos (by rw [hvalid]; rfl)]
  rfl

theorem dataRouter_solo {sessionId : UInt64} {historyBytes : ℕ}
    (h : dataRouter sessionId historyBytes = some r) (hbytes : historyMinBytes ≤ historyBytes) :
    Inv r ∧
      solo r .history =
        ⟨sessionId, historyBytes, 0, some (emptyFifo ⟨.history, historyBytes, true⟩)⟩ ∧
      solo r .wss = ⟨sessionId, historyBytes, 0, some (emptyFifo ⟨.wss, liveSinkBytes, false⟩)⟩ := by
  obtain ⟨r', hcreate, rfl⟩ := Option.map_eq_some_iff.mp h
  have hinv := inv_create hcreate
  have hmod : historyBytes % blockBytes = 0 := by
    by_contra hmod
    unfold create at hcreate
    dsimp only at hcreate
    rw [if_pos (.inr (.inr (.inl hmod)))] at hcreate
    cases hcreate
  have hsolo : ∀ k, solo r' k = .fresh ⟨sessionId, historyBytes, 0⟩ := solo_create hcreate
  have hmin : 64 * 1024 ≤ historyBytes := hbytes
  refine ⟨inv_run hinv _, ?_, ?_⟩
  · rw [(outputs_eq_solo hinv .history _).2, hsolo]
    simp only [List.filter, concerns, reduceCtorEq, decide_true, decide_false]
    rw [run_register]
    · rfl
    · simp [Solo.validConfig, Solo.fresh, historyMinBytes, hmod]
      exact ⟨by omega, decide_eq_false (by omega)⟩
  · rw [(outputs_eq_solo hinv .wss _).2, hsolo]
    simp only [List.filter, concerns, reduceCtorEq, decide_true, decide_false]
    rw [run_register]
    · rfl
    · simp [Solo.validConfig, Solo.fresh, liveSinkBytes, blockBytes]
      exact decide_eq_true (by omega)

theorem dataRouter_windows {sessionId : UInt64} {historyBytes : ℕ}
    (h : dataRouter sessionId historyBytes = some r) (hbytes : historyMinBytes ≤ historyBytes) :
    Windows r 0 0 0 ∧ r.sessionId = sessionId := by
  obtain ⟨hinv, hhistory, hwss⟩ := dataRouter_solo h hbytes
  refine ⟨⟨hinv, ?_, fun hno => absurd hno (lt_irrefl 0), ?_⟩, congrArg Solo.sessionId hwss⟩
  · rw [hhistory]
    exact ⟨le_rfl, rfl, _, rfl, rfl, rfl⟩
  · rw [hwss]
    exact ⟨le_rfl, rfl, _, rfl, rfl, rfl⟩

variable {blocks : ℕ}

namespace Stream

/-- The block `q` is sent, waits in the ring that the stream reads next, has left the history
ring or was dropped by the WSS ring. -/
def Accounted (s : Stream) (q : UInt64) : Prop :=
  q ∈ s.emitted ∨
    (s.sentSerialSequence < q ∧
      q ∈ queued s.router (if s.serialHistoryActive then .history else .wss)) ∨
    q ∉ queued s.router .history ∨ q ∈ s.dropped

theorem Good.accounted (h : s.Good n hlo wlo) (hn : n < 2 ^ 63) {a q : UInt64}
    (ha : s.after = some a) (hq : a < q)
    (hle : q ≤ s.router.stats.lastSequence) : s.Accounted q := by
  have hf := h.following a ha
  have hlast : s.router.stats.lastSequence = UInt64.ofNat n := h.windows.history.last
  have hqn : q.toNat ≤ n := by
    rw [hlast, UInt64.le_iff_toNat_le, toNat_ofNat_of_lt (by omega)] at hle
    exact hle
  have hofNat : UInt64.ofNat q.toNat = q := UInt64.ofNat_toNat
  have hhistory : q ∈ queued s.router .history ↔ hlo < q.toNat := by
    rw [h.windows.history.queued, ← hofNat, mem_window (by omega) (by omega), hofNat]
    omega
  have hwss : wlo < q.toNat → q ∈ queued s.router .wss := by
    intro hlt
    rw [h.windows.wss.queued, ← hofNat, mem_window (by omega) (by omega)]
    omega
  unfold Accounted
  rw [hhistory, UInt64.lt_iff_toNat_lt]
  by_cases hsent : q.toNat ≤ s.sentSerialSequence.toNat
  · rcases hf.behind q.toNat (UInt64.lt_iff_toNat_lt.mp hq) hsent with hin | hout | hdrop
    · exact .inl (hofNat ▸ hin)
    · exact .inr (.inr (.inl (by omega)))
    · exact .inr (.inr (.inr (hofNat ▸ hdrop)))
  · cases hactive : s.serialHistoryActive with
    | true =>
      by_cases hin : hlo < q.toNat
      · exact .inr (.inl ⟨by omega, hhistory.mpr hin⟩)
      · exact .inr (.inr (.inl hin))
    | false =>
      rcases hf.ahead hactive q.toNat (by omega) hqn with hin | hdrop
      · exact .inr (.inl ⟨by omega, hwss hin⟩)
      · exact .inr (.inr (.inr (hofNat ▸ hdrop)))

theorem historyRequest_good (h : Windows s.router n hlo wlo) (hn : n < 2 ^ 63) {a : UInt64}
    (ha : a ≤ s.router.stats.lastSequence) :
    (s.historyRequest s.router.sessionId a).Good n hlo wlo := by
  unfold historyRequest
  rw [if_neg (by simp)]
  have hlast : s.router.stats.lastSequence = UInt64.ofNat n := h.history.last
  rw [hlast, UInt64.le_iff_toNat_le, toNat_ofNat_of_lt (by omega)] at ha
  refine ⟨h, (fun hno => by cases hno), fun b hb => ?_⟩
  obtain rfl := Option.some.inj hb
  refine ⟨rfl, fun _ => rfl, ha, List.pairwise_singleton _ _, rfl, fun q hq hle => ?_,
    (fun hno => by cases hno)⟩
  dsimp only at hle
  omega

/-- **History-to-live handoff**: after a request for everything after `a`, where `a` is `0` or a
sequence of the session, in any interleaving of submits and sends, the sent sequences are
strictly increasing and greater than `a`; and every later sequence is sent, still waits in the
ring the stream reads next, has left the history ring or was dropped by the WSS ring.  The session
takes in fewer than `2^63` blocks. -/
theorem history_handoff {sessionId : UInt64} {historyBytes : ℕ} {r : Router}
    (hrouter : dataRouter sessionId historyBytes = some r)
    (hbytes : historyMinBytes ≤ historyBytes) (before later : List StreamEvent) (a : UInt64)
    (ha : a ≤ (run { router := r } before).router.stats.lastSequence)
    (hlater : ∀ e ∈ later, isRequest e = false)
    (hcount : submits before + submits later < 2 ^ 63) :
    let s := run ((run { router := r } before).step (.historyRequest sessionId a)) later
    s.after = some a →
      (a :: s.emitted).Pairwise (· < ·) ∧
        ∀ q, a < q → q ≤ s.router.stats.lastSequence → s.Accounted q := by
  intro s hafter
  obtain ⟨hwin₀, hid⟩ := dataRouter_windows hrouter hbytes
  obtain ⟨hsession, n, hlo, wlo, hle, hwin⟩ :=
    @run_windows { router := r } 0 0 0 hwin₀ before (by omega)
  have hgood := historyRequest_good hwin (by omega) ha
  rw [show (run { router := r } before).router.sessionId = sessionId from hsession.trans hid]
    at hgood
  obtain ⟨n', hlo', wlo', hle', hgood'⟩ := hgood.run (by omega) hlater
  exact ⟨(hgood'.following a hafter).increasing,
    fun q hq hlast => hgood'.accounted (by omega) hafter hq hlast⟩

/-- A block of the history, one that arrives during the replay and a live one. -/
theorem history_handoff_two :
    let r := (dataRouter 1 (64 * 1024)).get (by decide)
    let s := run ((run { router := r } [.router (.submit ⟨5, [1]⟩)]).step (.historyRequest 1 0))
      [.send true true, .router (.submit ⟨6, [2]⟩), .send true true]
    s.after = some 0 ∧ s.emitted = [1, 2] ∧ (0 :: s.emitted).Pairwise (· < ·) := by
  intro r s
  have hafter : s.after = some 0 := by decide
  refine ⟨hafter, by decide, ?_⟩
  exact (@history_handoff 1 (64 * 1024) r (Option.some_get _).symm (by decide)
    [.router (.submit ⟨5, [1]⟩)] _ 0 (by decide) (by decide) (by decide) hafter).1

/-! ### Half of the range

A live stream that sends nothing while one-byte blocks come in. -/

/-- A queue of one-byte blocks that its block limit bounds. -/
structure OneByte (f : Fifo) (blocks : ℕ) : Prop where
  bytes : ∀ b ∈ f.queue, b.bytes.length = 1
  capacity : f.capacityBlocks = blocks
  room : blocks ≤ f.capacityBytes

theorem OneByte.hasRoom (h : OneByte f blocks) (hlt : f.queue.length < blocks) :
    f.hasRoom 1 = true := by
  have hsum : f.queuedBytes = f.queue.length := by
    unfold Fifo.queuedBytes
    rw [List.map_congr_left h.bytes]
    simp
  have hroom := h.room
  rw [Fifo.hasRoom, hsum, h.capacity, Bool.and_eq_true, decide_eq_true_eq, decide_eq_true_eq]
  omega

theorem makeRoom_of_hasRoom {length : ℕ} (h : f.hasRoom length = true) (n : ℕ) :
    f.makeRoom length n = f := by
  cases n with
  | zero => rfl
  | succ n => rw [Fifo.makeRoom, if_pos h]

theorem OneByte.remove (h : OneByte f blocks) :
    OneByte (f.remove .overwritten) blocks := by
  refine ⟨fun b hb => ?_, ?_, ?_⟩
  · rw [remove_queue] at hb
    exact h.bytes b (List.mem_of_mem_tail hb)
  · rw [← h.capacity]
    unfold Fifo.remove
    split
    · rfl
    · rfl
  · refine h.room.trans (le_of_eq ?_)
    unfold Fifo.remove
    split
    · rfl
    · rfl

theorem OneByte.makeRoom (h : OneByte f blocks) (hpos : 0 < blocks)
    (hle : f.queue.length ≤ blocks) :
    OneByte (f.makeRoom 1 f.queue.length) blocks ∧
      (f.makeRoom 1 f.queue.length).queue.length + 1 = min (f.queue.length + 1) blocks := by
  by_cases hlt : f.queue.length < blocks
  · rw [makeRoom_of_hasRoom (h.hasRoom hlt)]
    exact ⟨h, by omega⟩
  · obtain ⟨m, hm⟩ : ∃ m, f.queue.length = m + 1 := ⟨f.queue.length - 1, by omega⟩
    have hfull : ¬f.hasRoom 1 = true := by
      rw [Fifo.hasRoom, h.capacity, Bool.and_eq_true, decide_eq_true_eq]
      omega
    have hlength : (f.remove .overwritten).queue.length = m := by
      rw [remove_queue, List.length_tail]
      omega
    rw [hm, Fifo.makeRoom, if_neg hfull,
      makeRoom_of_hasRoom (h.remove.hasRoom (by omega)), hlength]
    exact ⟨h.remove, by omega⟩

/-- A sink after `n` one-byte blocks. -/
structure Flooded (s : Solo) (retained : Bool) (blocks n : ℕ) : Prop where
  window : SinkWindow s retained (n - min n blocks) n
  oneByte : ∀ f, s.fifo = some f → OneByte f blocks

theorem Flooded.submit {s : Solo} (h : Flooded s retained blocks n) (hpos : 0 < blocks)
    (hn : n + 1 < 2 ^ 64) :
    Flooded (s.submit ⟨0, [0]⟩).2 retained blocks (n + 1) := by
  rcases h.window.submit hn ⟨0, [0]⟩ with ⟨hnone, -⟩ | ⟨-, lo', -, hle, hwin⟩
  · unfold Solo.submit at hnone
    rw [if_neg (by decide)] at hnone
    cases hnone
  obtain ⟨f, hf, -, hqueue⟩ := h.window.fifo
  have hlen : f.queue.length = min n blocks := by
    rw [← List.length_map, hqueue, window_length]
    omega
  obtain ⟨hone, hroom⟩ := (h.oneByte f hf).makeRoom hpos (by omega)
  obtain ⟨f', hf', -, hqueue'⟩ := hwin.fifo
  have hfifo : (s.submit ⟨0, [0]⟩).2.fifo =
      some (f.submit ⟨nextNonzero s.lastSequence, 0, [0]⟩) := by
    unfold Solo.submit
    rw [if_neg (by decide), hf]
    rfl
  have hlen' : f'.queue.length = min (n + 1) blocks := by
    rw [hfifo, Option.some.injEq] at hf'
    rw [← hf']
    show (_ ++ [_]).length = _
    rw [List.length_append, List.length_singleton]
    show (f.makeRoom 1 f.queue.length).queue.length + 1 = _
    omega
  have hlo : lo' = n + 1 - min (n + 1) blocks := by
    rw [← List.length_map, hqueue', window_length] at hlen'
    omega
  rw [hlo] at hwin
  refine ⟨hwin, fun g hg => ?_⟩
  rw [hfifo, Option.some.injEq] at hg
  rw [← hg]
  refine ⟨fun b hb => ?_, hone.capacity, hone.room⟩
  rcases List.mem_append.mp hb with hold | hnew
  · exact hone.bytes b hold
  · rw [List.mem_singleton.mp hnew]
    rfl

/-- A live stream that has sent nothing of the `n` blocks of its session. -/
structure Waiting (s : Stream) (n : ℕ) : Prop where
  inv : Inv s.router
  session : s.sentSerialSessionId = s.router.sessionId
  history : Flooded (solo s.router .history) true 256 n
  wss : Flooded (solo s.router .wss) false 64 n
  dropped : ∀ q ∈ s.dropped, q.toNat ≤ n - min n 64
  after : s.after = some 0
  emitted : s.emitted = []
  ready : s.serialStreamReady = true
  live : s.serialHistoryActive = false
  sent : s.sentSerialSequence = 0

theorem Waiting.submit (h : s.Waiting n) (hn : n + 1 < 2 ^ 64) :
    (s.step (.router (.submit ⟨0, [0]⟩))).Waiting (n + 1) := by
  have hspec := fun k => submit_spec h.inv ⟨0, [0]⟩ k
  have hsolo : ∀ k, solo (SerialRouter.submit s.router ⟨0, [0]⟩).2 k =
      ((solo s.router k).submit ⟨0, [0]⟩).2 := fun k => (congrArg Prod.snd (hspec k)).symm
  have hwss := h.wss.submit (by norm_num) hn
  have hhistory := h.history.submit (by norm_num) hn
  rw [← hsolo] at hwss hhistory
  have hsession : (SerialRouter.submit s.router ⟨0, [0]⟩).2.sessionId = s.router.sessionId := by
    have heq := congrArg Solo.sessionId (hsolo .wss)
    unfold Solo.submit at heq
    rw [if_neg (by decide)] at heq
    exact heq
  refine ⟨inv_submit h.inv _, h.session.trans hsession.symm, hhistory, hwss, fun q hq => ?_,
    h.after, h.emitted, h.ready, h.live, h.sent⟩
  rcases List.mem_append.mp hq with hold | hnew
  · have := h.dropped q hold
    omega
  · rw [List.mem_filter, decide_eq_true_eq] at hnew
    obtain ⟨hin, hout⟩ := hnew
    have hofNat : UInt64.ofNat q.toNat = q := UInt64.ofNat_toNat
    rw [h.wss.window.queued, ← hofNat, mem_window (by omega) q.toNat_lt] at hin
    have hout' : UInt64.ofNat q.toNat ∉ window (n + 1 - min (n + 1) 64) (n + 1) := by
      rw [← hwss.window.queued, hofNat]
      exact hout
    rw [mem_window hn q.toNat_lt] at hout'
    omega

theorem Waiting.submits (h : s.Waiting 0) (n : ℕ) (hn : n < 2 ^ 64) :
    (s.run (List.replicate n (.router (.submit ⟨0, [0]⟩)))).Waiting n := by
  induction n with
  | zero => exact h
  | succ n ih =>
    rw [List.replicate_succ', run, List.foldl_append]
    exact (ih (by omega)).submit hn

/-- The oldest block of the WSS ring is half of the range ahead of `0` and is thrown away. -/
theorem Waiting.send (h : s.Waiting n) (hn : n = 2 ^ 63 + 63) :
    (s.step (.send true true)).after = some 0 ∧
      UInt64.ofNat (2 ^ 63) ≤ (s.step (.send true true)).router.stats.lastSequence ∧
      ¬(s.step (.send true true)).Accounted (UInt64.ofNat (2 ^ 63)) := by
  have hwin : Windows s.router n (n - min n 256) (n - min n 64) :=
    ⟨h.inv, h.history.window, fun _ => by omega, h.wss.window⟩
  obtain ⟨hinv, hframe, hcall⟩ := take_spec h.inv .wss
  obtain ⟨f, hf, hretained, hqueue⟩ := h.wss.window.fifo
  have hlo : n - min n 64 = 2 ^ 63 - 1 := by omega
  rw [hlo, window_eq_cons (by omega)] at hqueue
  obtain ⟨b, rest, hcases, hb, -⟩ := List.map_eq_cons_iff.mp hqueue
  have hbytes := (h.wss.oneByte f hf).bytes b (by rw [hcases]; exact List.mem_cons_self)
  simp only [Solo.perform, hf, Fifo.take, hretained, hcases, Prod.mk.injEq,
    Output.copied.injEq, Bool.false_eq_true, if_false] at hcall
  -- the turn takes the block and sends nothing
  have hstep : s.step (.send true true) = { s with router := (take s.router .wss).2 } := by
    show s.send true true = _
    unfold Stream.send
    rw [if_pos h.ready, if_neg (by simp [h.live])]
    unfold sendOneLiveSerialBlock serviceTake
    rw [if_pos rfl, show take s.router .wss = (.ok (Fifo.routed s.router.sessionId b),
      (take s.router .wss).2) from Prod.ext hcall.1.symm rfl]
    dsimp only
    rw [if_neg, if_pos]
    · refine ⟨h.session, ?_⟩
      show ¬sequenceAfter b.sequence s.sentSerialSequence = true
      rw [hb, h.sent]
      decide
    · show ¬(b.bytes.length = 0 ∨ blockBytes < b.bytes.length)
      rw [hbytes]
      decide
  obtain ⟨-, ⟨hempty, -⟩ | ⟨block, -, -, -, -, hnext⟩⟩ := hwin.take
  · rw [← hcall.1] at hempty
    cases hempty
  rw [hstep]
  refine ⟨h.after, ?_, ?_⟩
  · have hlast : (take s.router .wss).2.stats.lastSequence = UInt64.ofNat n := hnext.wss.last
    dsimp only
    rw [hlast, UInt64.le_iff_toNat_le, toNat_ofNat_of_lt (by omega), toNat_ofNat_of_lt (by omega)]
    omega
  · unfold Accounted
    dsimp only
    rw [h.emitted, h.live, if_neg (by simp), hnext.history.queued, hnext.wss.queued,
      mem_window (by omega) (by omega), mem_window (by omega) (by omega)]
    rintro (hin | ⟨-, hin⟩ | hout | hdrop)
    · cases hin
    · omega
    · omega
    · have := h.dropped _ hdrop
      rw [toNat_ofNat_of_lt (by omega)] at this
      omega

theorem waiting_of_request (hr : dataRouter 1 (64 * 1024) = some r) :
    (run { router := r } [.historyRequest 1 0, .send true true]).Waiting 0 := by
  obtain ⟨hinv, hhistory, hwss⟩ := dataRouter_solo hr (by decide)
  obtain ⟨hinv', hframe, hcall⟩ := copyAfter_spec hinv .history 0
  have hsession : r.sessionId = 1 := congrArg Solo.sessionId hwss
  rw [hhistory] at hcall
  have hcall' := Prod.mk.inj hcall
  have hsolo : solo (copyAfter r .history 0).2 .history = solo r .history := by
    rw [← hcall'.2, hhistory]
    rfl
  have hstep : run { router := r } [.historyRequest 1 0, .send true true] =
      { router := (copyAfter r .history 0).2
        serialStreamReady := true
        serialHistorySessionId := 1
        sentSerialSessionId := 1
        after := some 0 } := by
    show send (historyRequest { router := r } 1 0) true true = _
    unfold historyRequest
    rw [if_neg (by simp [hsession])]
    unfold send
    rw [if_pos rfl, if_pos rfl]
    unfold sendOneHistorySerialBlock serviceCopyHistoryAfter
    dsimp only
    rw [if_pos rfl, show copyAfter r .history 0 = (.empty, (copyAfter r .history 0).2) from
      Prod.ext (Output.copied.inj hcall'.1).symm rfl]
  rw [hstep]
  refine ⟨hinv', hsession.symm.trans hframe.sessionId.symm, ⟨?_, ?_⟩, ⟨?_, ?_⟩,
    (fun q hq => by cases hq), rfl, rfl, rfl, rfl, rfl⟩
  · rw [hsolo, hhistory]
    exact ⟨le_rfl, rfl, _, rfl, rfl, rfl⟩
  · intro f hf
    rw [hsolo, hhistory] at hf
    obtain rfl := Option.some.inj hf
    exact ⟨(fun b hb => by cases hb), rfl, by decide⟩
  · rw [solo_of_frame_of_ne hframe (by decide), hwss]
    exact ⟨le_rfl, rfl, _, rfl, rfl, rfl⟩
  · intro f hf
    rw [solo_of_frame_of_ne hframe (by decide), hwss] at hf
    obtain rfl := Option.some.inj hf
    exact ⟨(fun b hb => by cases hb), rfl, by decide⟩

/-- A session whose stream waits while more than `2^63` blocks come in loses a block that is
still in the history ring and that no ring dropped. -/
theorem history_handoff_half_range :
    ∃ r later, dataRouter 1 (64 * 1024) = some r ∧ (∀ e ∈ later, isRequest e = false) ∧
      let s := run ((run { router := r } []).step (.historyRequest 1 0)) later
      s.after = some 0 ∧ ∃ q, 0 < q ∧ q ≤ s.router.stats.lastSequence ∧ ¬s.Accounted q := by
  obtain ⟨r, hr⟩ : ∃ r, dataRouter 1 (64 * 1024) = some r := ⟨_, rfl⟩
  obtain ⟨n, hn⟩ : ∃ n : ℕ, n = 2 ^ 63 + 63 := ⟨_, rfl⟩
  have hwaiting := (waiting_of_request hr).submits n (by omega)
  refine ⟨r, .send true true :: (List.replicate n (.router (.submit ⟨0, [0]⟩)) ++
    [.send true true]), hr, fun e he => ?_, ?_⟩
  · rw [List.mem_cons, List.mem_append, List.mem_singleton] at he
    rcases he with rfl | he | rfl
    · rfl
    · rw [List.eq_of_mem_replicate he]
      rfl
    · rfl
  · obtain ⟨hafter, hlast, hlost⟩ := hwaiting.send hn
    dsimp only
    rw [run, List.foldl_cons, List.foldl_append, List.foldl_cons, List.foldl_nil]
    exact ⟨hafter, _, by decide, hlast, hlost⟩

end Stream

end RlcdDeck.CompanionLink
