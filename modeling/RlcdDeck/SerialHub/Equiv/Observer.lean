import RlcdDeck.SerialHub.Ring
import Mathlib.Algebra.BigOperators.Group.List.Basic
import Mathlib.Data.List.Infix
import Mathlib.Data.List.Nodup

/-!
# What an observer reads and misses

Beside the ring a run keeps what was ingested in the session and what each observer was given
(`History`).  `pending` are the frames an observer has yet to read.  An eviction moves a pending
frame to the bytes an observer lost, and a read moves pending frames to those it was given, so
nothing is counted twice and nothing is dropped silently (`Account`).
-/

namespace RlcdDeck.SerialHub

open Collections Counter

/-! ### Bytes and positions -/

/-- The payload bytes of some frames. -/
def bytes (frames : List Frame) : ℕ :=
  (frames.map fun f => f.payload.length).sum

@[simp] theorem bytes_nil : bytes [] = 0 := rfl

@[simp] theorem bytes_cons (f : Frame) (frames : List Frame) :
    bytes (f :: frames) = f.payload.length + bytes frames := by
  simp [bytes]

@[simp] theorem bytes_append (a b : List Frame) : bytes (a ++ b) = bytes a + bytes b := by
  simp [bytes]

/-- The frames at or behind a position. -/
def behind (next : UInt64) (records : List Record) : List Frame :=
  (records.filter fun x => next ≤ x.ordinal).map Record.frame

/-- The retained frames. -/
def Ring.frames (r : Ring) : List Frame :=
  r.records.contents.map Record.frame

/-- The retained frames an observer has yet to read. -/
def Ring.pending (r : Ring) (o : Observer) : List Frame :=
  behind o.nextOrdinal r.records.contents

/-- Records in the order of their ordinals, which have not wrapped. -/
def Ascending (records : List Record) : Prop :=
  records.Pairwise (fun a b => a.ordinal < b.ordinal) ∧
    ∀ x ∈ records, x.ordinal.toNat + 1 < 2 ^ 64

theorem toNat_add_one {v : UInt64} (h : v.toNat + 1 < 2 ^ 64) : (v + 1).toNat = v.toNat + 1 := by
  rw [UInt64.toNat_add]
  exact Nat.mod_eq_of_lt h

theorem behind_cons (next : UInt64) (x : Record) (rest : List Record) :
    behind next (x :: rest) =
      if next ≤ x.ordinal then x.frame :: behind next rest else behind next rest := by
  unfold behind
  rw [List.filter_cons]
  by_cases h : next ≤ x.ordinal
  · rw [if_pos (by simpa using h), if_pos h, List.map_cons]
  · rw [if_neg (by simpa using h), if_neg h]

theorem behind_eq_map {next : UInt64} {records : List Record}
    (h : ∀ x ∈ records, next ≤ x.ordinal) : behind next records = records.map Record.frame := by
  unfold behind
  rw [List.filter_eq_self.mpr]
  simpa using h

theorem Ascending.tail {x : Record} {rest : List Record} (h : Ascending (x :: rest)) :
    Ascending rest :=
  ⟨(List.pairwise_cons.mp h.1).2, fun y hy => h.2 y (List.mem_cons_of_mem _ hy)⟩

variable {x : Record} {rest : List Record}

theorem Ascending.succ_le (h : Ascending (x :: rest)) :
    ∀ y ∈ rest, x.ordinal + 1 ≤ y.ordinal := by
  intro y hy
  have hlt := (List.pairwise_cons.mp h.1).1 y hy
  have hbound := h.2 x List.mem_cons_self
  rw [UInt64.lt_iff_toNat_lt] at hlt
  rw [UInt64.le_iff_toNat_le, toNat_add_one hbound]
  omega

theorem Ascending.le (h : Ascending (x :: rest)) {next : UInt64} (hnext : next ≤ x.ordinal) :
    ∀ y ∈ rest, next ≤ y.ordinal := fun y hy =>
  UInt64.le_trans hnext (UInt64.le_of_lt ((List.pairwise_cons.mp h.1).1 y hy))

/-! ### Reading -/

variable {maximumBytes maximumFrames : ℤ}

/-- **The read loop** moves a position forward: the frames it passes are those it returns. -/
theorem readLoop_spec {records : List Record} (h : Ascending records) {frames frames' : List Frame}
    {used : ℕ} {next next' : UInt64}
    (hread : Ring.readLoop maximumBytes maximumFrames records frames used next =
      some (frames', next')) :
    next ≤ next' ∧
      (next' = next ∨ ∃ x ∈ records, next' = x.ordinal + 1) ∧
      ∃ read, frames' = frames ++ read ∧ behind next records = read ++ behind next' records := by
  induction records generalizing frames used next with
  | nil =>
    rw [Ring.readLoop, Option.some.injEq, Prod.mk.injEq] at hread
    obtain ⟨rfl, rfl⟩ := hread
    exact ⟨UInt64.le_refl _, .inl rfl, [], by simp, rfl⟩
  | cons x rest ih =>
    rw [Ring.readLoop] at hread
    have stop : some (frames, next) = some (frames', next') →
        next ≤ next' ∧ (next' = next ∨ ∃ y ∈ x :: rest, next' = y.ordinal + 1) ∧
        ∃ read, frames' = frames ++ read ∧
          behind next (x :: rest) = read ++ behind next' (x :: rest) := by
      intro heq
      rw [Option.some.injEq, Prod.mk.injEq] at heq
      obtain ⟨rfl, rfl⟩ := heq
      exact ⟨UInt64.le_refl _, .inl rfl, [], by simp, rfl⟩
    split_ifs at hread with hlimit hold hbytes hfirst
    · -- already read
      obtain ⟨hle, hwhere, read, hframes, hbehind⟩ := ih h.tail hread
      have hskip : ∀ n, next ≤ n → behind n (x :: rest) = behind n rest := by
        intro n hn
        rw [behind_cons, if_neg]
        rw [UInt64.le_iff_toNat_le] at hn ⊢
        rw [UInt64.lt_iff_toNat_lt] at hold
        omega
      refine ⟨hle, hwhere.imp_right fun ⟨y, hy, heq⟩ => ⟨y, List.mem_cons_of_mem _ hy, heq⟩,
        read, hframes, ?_⟩
      rw [hskip next (UInt64.le_refl _), hskip next' hle, hbehind]
    · exact stop hread
    · -- the record is read
      have hnext : next ≤ x.ordinal := UInt64.not_lt.mp hold
      have hbound := h.2 x List.mem_cons_self
      obtain ⟨hle, hwhere, read, hframes, hbehind⟩ := ih h.tail hread
      have hpast : ¬next' ≤ x.ordinal := by
        rw [UInt64.le_iff_toNat_le, toNat_add_one hbound] at hle
        rw [UInt64.le_iff_toNat_le]
        omega
      refine ⟨?_, .inr ?_, x.frame :: read, by rw [hframes]; simp, ?_⟩
      · rw [UInt64.le_iff_toNat_le] at hnext hle ⊢
        rw [toNat_add_one hbound] at hle
        omega
      · rcases hwhere with heq | ⟨y, hy, heq⟩
        · exact ⟨x, List.mem_cons_self, heq⟩
        · exact ⟨y, List.mem_cons_of_mem _ hy, heq⟩
      · rw [behind_cons, if_pos hnext, behind_cons, if_neg hpast, List.cons_append,
          behind_eq_map (h.le hnext), ← behind_eq_map h.succ_le, hbehind]
    · exact stop hread

/-! ### Histories -/

/-- What an observer was given since it was opened. -/
structure View where
  /-- The bytes retained when it was opened. -/
  opened : ℕ := 0
  /-- The frames ingested since. -/
  since : List Frame := []
  /-- The frames it has read. -/
  delivered : List Frame := []

/-- The ring with what happened in its session. -/
structure History where
  ring : Ring
  /-- The frames ingested in this session. -/
  accepted : List Frame := []
  /-- The number of frames ingested since the ring was made. -/
  ingested : ℕ := 0
  views : UInt64 → View := fun _ => {}

/-- A call on the ring. -/
inductive RingOp where
  | begin (sessionId : UInt64)
  | endSession (sessionId : UInt64)
  | ingest (frame : Frame)
  | openObserver (sessionId : UInt64)
  | closeObserver (id : UInt64)
  | readObserver (id : UInt64) (maximumBytes maximumFrames : ℤ)
  | close

namespace History

/-- The ring after a call that may change the session. -/
def session (h : History) (ring : Ring) : History :=
  { h with ring, accepted := if ring.sessionId = h.ring.sessionId then h.accepted else [] }

def step (h : History) : RingOp → History
  | .begin sessionId => h.session (h.ring.begin sessionId).2
  | .endSession sessionId => h.session (h.ring.endSession sessionId).2
  | .ingest frame =>
    match h.ring.ingest frame with
    | (some _, ring) => { h with ring }
    | (none, ring) =>
      { ring
        accepted := h.accepted ++ [frame]
        ingested := h.ingested + 1
        views := fun id => { h.views id with since := (h.views id).since ++ [frame] } }
  | .openObserver sessionId =>
    match h.ring.openObserver sessionId with
    | (.error _, ring) => { h with ring }
    | (.ok id, ring) =>
      { h with ring, views := Function.update h.views id { opened := bytes h.ring.frames } }
  | .closeObserver id => { h with ring := h.ring.closeObserver id }
  | .readObserver id maximumBytes maximumFrames =>
    match h.ring.readObserver id maximumBytes maximumFrames with
    | (.error _, ring) => { h with ring }
    | (.ok read, ring) =>
      { h with
        ring
        views := Function.update h.views id
          { h.views id with delivered := (h.views id).delivered ++ read.frames } }
  | .close => h.session h.ring.close

def run (h : History) (ops : List RingOp) : History :=
  ops.foldl step h

end History

/-! ### The invariant -/

/-- What an observer was given, what it lost and what it has yet to read make up what there was
when it was opened and what came since. -/
structure Account (r : Ring) (accepted : List Frame) (o : Observer) (v : View) : Prop where
  position : o.nextOrdinal ≤ r.nextOrdinal
  conserved : ∃ lost, o.overwrittenBytes = UInt64.ofNat lost ∧
    bytes v.delivered + lost + bytes (r.pending o) = v.opened + bytes v.since
  order : (v.delivered ++ r.pending o).Sublist accepted

/-- What holds of the ring and its history between two calls. -/
structure Inv (h : History) : Prop where
  next : h.ring.nextOrdinal.toNat = h.ingested + 1
  ascending : Ascending h.ring.records.contents
  below : ∀ x ∈ h.ring.records.contents, x.ordinal < h.ring.nextOrdinal
  head : h.ring.records.head < h.ring.records.capacity
  count : h.ring.records.count ≤ h.ring.records.capacity
  buffered : h.ring.bufferedBytes = bytes h.ring.frames
  within : bytes h.ring.frames ≤ h.ring.capacityBytes
  keys : (h.ring.observers.map Prod.fst).Nodup
  retained : h.ring.frames <:+ h.accepted
  idle : h.ring.sessionId = 0 → h.accepted = []
  chain : h.accepted.IsChain fun a b => Ring.sequenceAfter b.sequence a.sequence = true
  last : ∀ f ∈ h.accepted.getLast?,
    h.ring.hasLastSequence = true ∧ h.ring.lastSequence = f.sequence
  accounts : ∀ entry ∈ h.ring.observers,
    Account h.ring h.accepted entry.2 (h.views entry.1)

/-! ### Evictions -/

variable {h : History}

variable {r : Ring}

theorem contents_eq_oldest (hhead : r.records.head < r.records.capacity)
    (hcount : r.records.count ≠ 0) :
    r.records.contents = r.records.slots r.records.head :: r.records.pop.contents := by
  rw [RingBuffer.contents_eq_cons hcount]
  congr 1
  unfold RingBuffer.peek
  rw [Nat.add_zero, Nat.mod_eq_of_lt hhead]

variable {accepted : List Frame} {o : Observer} {v : View}

/-- An observer's account after the oldest record `x` was dropped. -/
theorem account_charge {r' : Ring} (ha : Account r accepted o v)
    (hcontents : r.records.contents = x :: rest) (hrest : r'.records.contents = rest)
    (hnext : r'.nextOrdinal = r.nextOrdinal) (hasc : Ascending (x :: rest))
    (hbelow : x.ordinal < r.nextOrdinal) : Account r' accepted (Ring.charge x o) v := by
  obtain ⟨hpos, ⟨lost, hlost, hsum⟩, horder⟩ := ha
  unfold Ring.pending at hsum horder
  rw [hcontents, behind_cons] at hsum horder
  unfold Ring.charge
  by_cases hle : o.nextOrdinal ≤ x.ordinal
  · rw [if_pos hle] at hsum horder ⊢
    have hbehind : behind (x.ordinal + 1) rest = behind o.nextOrdinal rest := by
      rw [behind_eq_map hasc.succ_le, behind_eq_map (hasc.le hle)]
    refine ⟨?_, ⟨lost + x.frame.payload.length, ?_, ?_⟩, ?_⟩
    · rw [hnext]
      rw [UInt64.lt_iff_toNat_lt] at hbelow
      rw [UInt64.le_iff_toNat_le, toNat_add_one (hasc.2 x List.mem_cons_self)]
      omega
    · show o.overwrittenBytes + _ = _
      rw [hlost, UInt64.ofNat_add]
    · show bytes v.delivered + _ + bytes (behind (x.ordinal + 1) r'.records.contents) = _
      rw [hrest, hbehind]
      rw [bytes_cons] at hsum
      omega
    · show (v.delivered ++ behind (x.ordinal + 1) r'.records.contents).Sublist accepted
      rw [hrest, hbehind]
      exact ((List.sublist_cons_self _ _).append_left v.delivered).trans horder
  · rw [if_neg hle] at hsum horder ⊢
    refine ⟨by rw [hnext]; exact hpos, ⟨lost, hlost, ?_⟩, ?_⟩
    · unfold Ring.pending
      rw [hrest]
      exact hsum
    · unfold Ring.pending
      rw [hrest]
      exact horder

theorem inv_evictOldest (hi : Inv h) : Inv { h with ring := h.ring.evictOldest } := by
  unfold Ring.evictOldest
  by_cases hcount : h.ring.records.count = 0
  · rw [if_pos hcount]
    exact hi
  rw [if_neg hcount]
  have hcontents := contents_eq_oldest hi.head hcount
  set x := h.ring.records.slots h.ring.records.head with hx
  have hasc := hi.ascending
  rw [hcontents] at hasc
  have hframes : h.ring.frames = x.frame :: h.ring.records.pop.contents.map Record.frame := by
    unfold Ring.frames
    rw [hcontents, List.map_cons]
  have hsub : ∀ y ∈ h.ring.records.pop.contents, y ∈ h.ring.records.contents := by
    intro y hy
    rw [hcontents]
    exact List.mem_cons_of_mem _ hy
  have hbytes : bytes h.ring.frames =
      x.frame.payload.length + bytes (h.ring.records.pop.contents.map Record.frame) := by
    rw [hframes, bytes_cons]
  refine
    { next := hi.next
      ascending := hasc.tail
      below := fun y hy => hi.below y (hsub y hy)
      head := Nat.mod_lt _ (by have := hi.head; omega)
      count := (Nat.sub_le _ _).trans hi.count
      buffered := ?_
      within := ?_
      keys := ?_
      retained := ?_
      idle := hi.idle
      chain := hi.chain
      last := hi.last
      accounts := ?_ }
  · show h.ring.bufferedBytes - (x.frame.payload.length : ℤ) =
      (bytes (h.ring.records.pop.contents.map Record.frame) : ℤ)
    rw [hi.buffered, hbytes]
    omega
  · show bytes (h.ring.records.pop.contents.map Record.frame) ≤ h.ring.capacityBytes
    have hwithin := hi.within
    omega
  · show ((h.ring.observers.map _).map Prod.fst).Nodup
    rw [List.map_map]
    exact hi.keys
  · refine List.IsSuffix.trans ?_ hi.retained
    rw [hframes]
    exact List.suffix_cons _ _
  · intro entry hentry
    obtain ⟨entry₀, hmem, rfl⟩ := List.mem_map.mp hentry
    exact account_charge (hi.accounts entry₀ hmem) hcontents rfl rfl hasc
      (hi.below x (by rw [hcontents]; exact List.mem_cons_self))

theorem inv_makeRoom (hi : Inv h) (length n : ℕ) :
    Inv { h with ring := h.ring.makeRoom length n } := by
  induction n generalizing h with
  | zero => exact hi
  | succ n ih =>
    rw [Ring.makeRoom]
    split_ifs
    · exact ih (inv_evictOldest hi)
    · exact hi

theorem needsRoom_of_empty (hi : Inv h) {length : ℕ} (hlength : length ≤ h.ring.capacityBytes)
    (hzero : h.ring.records.count = 0) : h.ring.needsRoom length = false := by
  have hnil : h.ring.records.contents = [] := (RingBuffer.contents_eq_nil_iff _).mpr hzero
  have hbuffered := hi.buffered
  unfold Ring.frames at hbuffered
  rw [hnil] at hbuffered
  have hhead := hi.head
  unfold Ring.needsRoom
  rw [hbuffered, hzero]
  simp only [List.map_nil, bytes_nil, Bool.or_eq_false_iff, decide_eq_false_iff_not]
  omega

theorem needsRoom_makeRoom (hi : Inv h) {length n : ℕ} (hlength : length ≤ h.ring.capacityBytes)
    (hn : h.ring.records.count ≤ n) :
    (h.ring.makeRoom length n).needsRoom length = false := by
  induction n generalizing h with
  | zero => exact needsRoom_of_empty hi hlength (by omega)
  | succ n ih =>
    rw [Ring.makeRoom]
    by_cases hroom : h.ring.needsRoom length = true
    · rw [if_pos hroom]
      have hcount : h.ring.records.count ≠ 0 := fun hzero => by
        rw [needsRoom_of_empty hi hlength hzero] at hroom
        cases hroom
      have hfields : h.ring.evictOldest.capacityBytes = h.ring.capacityBytes ∧
          h.ring.evictOldest.records.count = h.ring.records.count - 1 := by
        unfold Ring.evictOldest
        rw [if_neg hcount]
        exact ⟨rfl, rfl⟩
      refine ih (inv_evictOldest hi) ?_ ?_
      · show length ≤ h.ring.evictOldest.capacityBytes
        rw [hfields.1]
        exact hlength
      · show h.ring.evictOldest.records.count ≤ n
        omega
    · rw [if_neg hroom]
      simpa using hroom

/-! ### Ingesting -/

theorem toNat_nonzeroNext {v : UInt64} (hv : v.toNat + 1 < 2 ^ 64) :
    (nonzeroNext v).toNat = v.toNat + 1 := by
  have hadd := toNat_add_one hv
  have hne : v + 1 ≠ 0 := by
    intro hzero
    rw [hzero] at hadd
    simp at hadd
  unfold nonzeroNext
  rw [if_neg hne]
  exact hadd

/-- The history after a frame was stored. -/
def History.stored (h : History) (frame : Frame) : History :=
  { ring := h.ring.store frame
    accepted := h.accepted ++ [frame]
    ingested := h.ingested + 1
    views := fun id => { h.views id with since := (h.views id).since ++ [frame] } }

theorem contents_store (frame : Frame) (hroom : r.records.count < r.records.capacity) :
    (r.store frame).records.contents = r.records.contents ++ [⟨r.nextOrdinal, frame⟩] :=
  RingBuffer.contents_push hroom _

theorem pending_store (frame : Frame) {o : Observer} (hroom : r.records.count < r.records.capacity)
    (ho : o.nextOrdinal ≤ r.nextOrdinal) :
    (r.store frame).pending o = r.pending o ++ [frame] := by
  unfold Ring.pending behind
  rw [contents_store frame hroom, List.filter_append, List.map_append]
  simp [ho]

/-- **Storing** a frame that there is room for. -/
theorem inv_stored (hi : Inv h) {frame : Frame}
    (hroom : h.ring.needsRoom frame.payload.length = false)
    (hlast : h.ring.hasLastSequence = true →
      Ring.sequenceAfter frame.sequence h.ring.lastSequence = true)
    (hsession : h.ring.sessionId ≠ 0) (hbound : h.ingested + 2 < 2 ^ 64) :
    Inv (h.stored frame) := by
  simp only [Ring.needsRoom, Bool.or_eq_false_iff, decide_eq_false_iff_not] at hroom
  have hcount : h.ring.records.count < h.ring.records.capacity :=
    lt_of_le_of_ne hi.count hroom.1
  have hcontents := contents_store frame hcount
  have hframes : (h.ring.store frame).frames = h.ring.frames ++ [frame] := by
    unfold Ring.frames
    rw [hcontents, List.map_append, List.map_singleton]
  have hnext : (nonzeroNext h.ring.nextOrdinal).toNat = h.ingested + 2 := by
    rw [toNat_nonzeroNext (by rw [hi.next]; omega), hi.next]
  have hgrow : h.ring.nextOrdinal ≤ nonzeroNext h.ring.nextOrdinal := by
    rw [UInt64.le_iff_toNat_le, hnext, hi.next]
    omega
  refine
    { next := hnext
      ascending := ?_
      below := ?_
      head := hi.head
      count := hcount
      buffered := ?_
      within := ?_
      keys := hi.keys
      retained := ?_
      idle := fun hzero => absurd hzero hsession
      chain := ?_
      last := ?_
      accounts := ?_ }
  · show Ascending (h.ring.store frame).records.contents
    rw [hcontents]
    refine ⟨List.pairwise_append.mpr ⟨hi.ascending.1, List.pairwise_singleton _ _, ?_⟩, ?_⟩
    · intro x hx y hy
      rw [List.mem_singleton.mp hy]
      exact hi.below x hx
    · intro x hx
      rcases List.mem_append.mp hx with hold | hnew
      · exact hi.ascending.2 x hold
      · rw [List.mem_singleton.mp hnew]
        show h.ring.nextOrdinal.toNat + 1 < 2 ^ 64
        rw [hi.next]
        omega
  · intro x hx
    replace hx : x ∈ (h.ring.store frame).records.contents := hx
    show x.ordinal < nonzeroNext h.ring.nextOrdinal
    rw [hcontents] at hx
    rw [UInt64.lt_iff_toNat_lt, hnext]
    rcases List.mem_append.mp hx with hold | hnew
    · have hlt := hi.below x hold
      rw [UInt64.lt_iff_toNat_lt, hi.next] at hlt
      omega
    · rw [List.mem_singleton.mp hnew]
      show h.ring.nextOrdinal.toNat < _
      rw [hi.next]
      omega
  · show h.ring.bufferedBytes + (frame.payload.length : ℤ) = (bytes (h.ring.store frame).frames : ℤ)
    rw [hframes, bytes_append, bytes_cons, bytes_nil, hi.buffered]
    omega
  · show bytes (h.ring.store frame).frames ≤ h.ring.capacityBytes
    rw [hframes, bytes_append, bytes_cons, bytes_nil]
    have hle := hroom.2
    rw [hi.buffered] at hle
    omega
  · show (h.ring.store frame).frames <:+ h.accepted ++ [frame]
    obtain ⟨front, hfront⟩ := hi.retained
    exact ⟨front, by rw [hframes, ← List.append_assoc, hfront]⟩
  · refine List.isChain_append.mpr ⟨hi.chain, List.isChain_singleton _, ?_⟩
    intro a ha b hb
    rw [List.head?_cons, Option.mem_some_iff] at hb
    obtain ⟨hhas, hseq⟩ := hi.last a ha
    rw [← hb, ← hseq]
    exact hlast hhas
  · intro f hf
    replace hf : f ∈ (h.accepted ++ [frame]).getLast? := hf
    rw [List.getLast?_append, List.getLast?_singleton] at hf
    rw [← Option.mem_some_iff.mp hf]
    exact ⟨rfl, rfl⟩
  · intro entry hentry
    obtain ⟨hpos, ⟨lost, hlost, hsum⟩, horder⟩ := hi.accounts entry hentry
    have hpending := pending_store frame hcount hpos
    refine ⟨?_, ⟨lost, hlost, ?_⟩, ?_⟩
    · exact UInt64.le_trans hpos hgrow
    · show bytes (h.views entry.1).delivered + lost + bytes ((h.ring.store frame).pending entry.2) =
        (h.views entry.1).opened + bytes ((h.views entry.1).since ++ [frame])
      rw [hpending, bytes_append, bytes_append]
      omega
    · show ((h.views entry.1).delivered ++ (h.ring.store frame).pending entry.2).Sublist
        (h.accepted ++ [frame])
      rw [hpending, ← List.append_assoc]
      exact horder.append_right [frame]

theorem makeRoom_fields (length n : ℕ) (r : Ring) :
    (r.makeRoom length n).hasLastSequence = r.hasLastSequence ∧
      (r.makeRoom length n).lastSequence = r.lastSequence ∧
      (r.makeRoom length n).sessionId = r.sessionId := by
  induction n generalizing r with
  | zero => exact ⟨rfl, rfl, rfl⟩
  | succ n ih =>
    rw [Ring.makeRoom]
    split_ifs
    · obtain ⟨hhas, hlast, hsession⟩ := ih r.evictOldest
      rw [hhas, hlast, hsession]
      unfold Ring.evictOldest
      split_ifs <;> exact ⟨rfl, rfl, rfl⟩
    · exact ⟨rfl, rfl, rfl⟩

theorem ingestError_none {frame : Frame} (h : r.ingestError frame = none) :
    r.sessionId ≠ 0 ∧ frame.payload.length ≤ r.capacityBytes ∧
      (r.hasLastSequence = true → Ring.sequenceAfter frame.sequence r.lastSequence = true) := by
  unfold Ring.ingestError at h
  split_ifs at h with hclosed hsession hframe hlarge hsequence hmonotonic
  refine ⟨fun hzero => hsession (.inl hzero), Nat.not_lt.mp hlarge, fun hhas => ?_⟩
  by_contra hafter
  exact hsequence ⟨hhas, hafter⟩

theorem inv_ingest (hi : Inv h) (frame : Frame)
    (hbound : (h.step (.ingest frame)).ingested + 1 < 2 ^ 64) : Inv (h.step (.ingest frame)) := by
  unfold History.step Ring.ingest at hbound ⊢
  dsimp only at hbound ⊢
  cases herror : h.ring.ingestError frame with
  | some error => exact hi
  | none =>
    obtain ⟨hsession, hlength, hafter⟩ := ingestError_none herror
    rw [herror] at hbound
    obtain ⟨hhas, hlast, hsame⟩ := makeRoom_fields frame.payload.length h.ring.records.count h.ring
    refine inv_stored (inv_makeRoom hi frame.payload.length h.ring.records.count) ?_ ?_ ?_ hbound
    · exact needsRoom_makeRoom hi hlength (le_refl _)
    · intro hset
      replace hset : (h.ring.makeRoom _ _).hasLastSequence = true := hset
      show Ring.sequenceAfter frame.sequence (h.ring.makeRoom _ _).lastSequence = true
      rw [hhas] at hset
      rw [hlast]
      exact hafter hset
    · show (h.ring.makeRoom _ _).sessionId ≠ 0
      rw [hsame]
      exact hsession

/-! ### Observers -/

theorem Account.congr {r' : Ring} (ha : Account r accepted o v) (hrecords : r'.records = r.records)
    (hnext : r'.nextOrdinal = r.nextOrdinal) : Account r' accepted o v := by
  have hpending : r'.pending o = r.pending o := by
    unfold Ring.pending
    rw [hrecords]
  exact ⟨hnext ▸ ha.position, by rw [hpending]; exact ha.conserved, by
    rw [hpending]
    exact ha.order⟩

theorem account_opened (hi : Inv h) :
    Account h.ring h.accepted { nextOrdinal := h.ring.oldestOrdinal }
      { opened := bytes h.ring.frames } := by
  have hnext : h.ring.oldestOrdinal = if h.ring.records.count ≠ 0 then
      (h.ring.records.slots h.ring.records.head).ordinal else h.ring.nextOrdinal := rfl
  generalize h.ring.oldestOrdinal = next at hnext ⊢
  have hall : (∀ x ∈ h.ring.records.contents, next ≤ x.ordinal) ∧ next ≤ h.ring.nextOrdinal := by
    by_cases hcount : h.ring.records.count = 0
    · rw [if_neg (by simpa using hcount)] at hnext
      have hnil : h.ring.records.contents = [] := (RingBuffer.contents_eq_nil_iff _).mpr hcount
      rw [hnil, hnext]
      exact ⟨fun x hx => absurd hx List.not_mem_nil, UInt64.le_refl _⟩
    · rw [if_pos hcount] at hnext
      have hcontents := contents_eq_oldest hi.head hcount
      have hasc := hi.ascending
      rw [hcontents] at hasc
      have hfirst := hi.below (h.ring.records.slots h.ring.records.head)
        (by rw [hcontents]; exact List.mem_cons_self)
      rw [hnext]
      refine ⟨fun x hx => ?_, UInt64.le_of_lt hfirst⟩
      rw [hcontents] at hx
      rcases List.mem_cons.mp hx with rfl | hrest
      · exact UInt64.le_refl _
      · exact hasc.le (UInt64.le_refl _) x hrest
  have hpending : h.ring.pending { nextOrdinal := next } = h.ring.frames := behind_eq_map hall.1
  refine ⟨hall.2, ⟨0, rfl, ?_⟩, ?_⟩
  · rw [hpending]
    show bytes [] + 0 + _ = _ + bytes []
    simp
  · rw [hpending]
    exact hi.retained.sublist

theorem inv_openObserver (hi : Inv h) (sessionId : UInt64) :
    Inv (h.step (.openObserver sessionId)) := by
  unfold History.step Ring.openObserver
  dsimp only
  split_ifs with hclosed hsession hlimit
  · exact hi
  · exact hi
  · exact hi
  have hnew := account_opened hi
  refine
    { next := hi.next
      ascending := hi.ascending
      below := hi.below
      head := hi.head
      count := hi.count
      buffered := hi.buffered
      within := hi.within
      keys := ?_
      retained := hi.retained
      idle := hi.idle
      chain := hi.chain
      last := hi.last
      accounts := ?_ }
  · show ((Ring.setObserver h.ring.nextObserverId _ h.ring.observers).map Prod.fst).Nodup
    unfold Ring.setObserver
    rw [List.map_append, List.map_singleton]
    refine List.nodup_append.mpr ⟨?_, List.nodup_singleton _, ?_⟩
    · exact hi.keys.sublist (List.filter_sublist.map _)
    · intro a ha b hb
      obtain ⟨entry, hentry, rfl⟩ := List.mem_map.mp ha
      rw [List.mem_singleton.mp hb]
      simpa using (List.mem_filter.mp hentry).2
  · intro entry hentry
    replace hentry : entry ∈ Ring.setObserver h.ring.nextObserverId _ h.ring.observers := hentry
    rcases List.mem_append.mp hentry with hold | hmem
    · obtain ⟨hmem, hne⟩ := List.mem_filter.mp hold
      have hne' : entry.1 ≠ h.ring.nextObserverId := by simpa using hne
      dsimp only
      rw [Function.update_of_ne hne']
      exact (hi.accounts entry hmem).congr rfl rfl
    · rw [List.mem_singleton.mp hmem]
      dsimp only
      rw [Function.update_self]
      exact hnew.congr rfl rfl

theorem inv_closeObserver (hi : Inv h) (id : UInt64) : Inv (h.step (.closeObserver id)) :=
  { next := hi.next
    ascending := hi.ascending
    below := hi.below
    head := hi.head
    count := hi.count
    buffered := hi.buffered
    within := hi.within
    keys := hi.keys.sublist (List.filter_sublist.map _)
    retained := hi.retained
    idle := hi.idle
    chain := hi.chain
    last := hi.last
    accounts := fun entry hentry =>
      (hi.accounts entry (List.mem_of_mem_filter hentry)).congr rfl rfl }

theorem eq_of_observer? (hkeys : (r.observers.map Prod.fst).Nodup) {id : UInt64} {o : Observer}
    (ho : r.observer? id = some o) {entry : UInt64 × Observer}
    (hentry : entry ∈ r.observers) (hid : entry.1 = id) : entry.2 = o := by
  unfold Ring.observer? at ho
  obtain ⟨found, hfind, rfl⟩ := Option.map_eq_some_iff.mp ho
  have hfound := List.mem_of_find?_eq_some hfind
  have hfid : found.1 = id := by simpa using List.find?_some hfind
  rw [List.inj_on_of_nodup_map hkeys hentry hfound (hid.trans hfid.symm)]

/-- **Reading** moves frames from those pending to those delivered. -/
theorem account_read (ha : Account r accepted o v) (hasc : Ascending r.records.contents)
    (hbelow : ∀ x ∈ r.records.contents, x.ordinal < r.nextOrdinal)
    {maximumBytes maximumFrames : ℤ} {frames : List Frame} {next : UInt64}
    (hread : Ring.readLoop maximumBytes maximumFrames r.records.contents [] 0 o.nextOrdinal =
      some (frames, next)) :
    Account r accepted { o with nextOrdinal := next }
      { v with delivered := v.delivered ++ frames } := by
  obtain ⟨-, hwhere, read, hframes, hbehind⟩ := readLoop_spec hasc hread
  rw [List.nil_append] at hframes
  subst hframes
  obtain ⟨hpos, ⟨lost, hlost, hsum⟩, horder⟩ := ha
  unfold Ring.pending at hsum horder
  rw [hbehind] at hsum horder
  refine ⟨?_, ⟨lost, hlost, ?_⟩, ?_⟩
  · rcases hwhere with heq | ⟨x, hx, heq⟩
    · show next ≤ r.nextOrdinal
      rw [heq]
      exact hpos
    · have hlt := hbelow x hx
      show next ≤ r.nextOrdinal
      rw [UInt64.lt_iff_toNat_lt] at hlt
      rw [heq, UInt64.le_iff_toNat_le, toNat_add_one (hasc.2 x hx)]
      omega
  · show bytes (v.delivered ++ frames) + lost + bytes (behind next r.records.contents) = _
    rw [bytes_append] at hsum ⊢
    show _ = v.opened + bytes v.since
    omega
  · show ((v.delivered ++ frames) ++ behind next r.records.contents).Sublist accepted
    rw [List.append_assoc]
    exact horder

theorem inv_readObserver (hi : Inv h) (id : UInt64) (maximumBytes maximumFrames : ℤ) :
    Inv (h.step (.readObserver id maximumBytes maximumFrames)) := by
  unfold History.step Ring.readObserver
  dsimp only
  by_cases hclosed : h.ring.closed = true
  · rw [if_pos hclosed]
    exact hi
  rw [if_neg hclosed]
  cases hobserver : h.ring.observer? id with
  | none => exact hi
  | some reader =>
    dsimp only
    by_cases hlimit : maximumBytes ≤ 0 ∨ maximumFrames ≤ 0
    · rw [if_pos hlimit]
      exact hi
    rw [if_neg hlimit]
    cases hread : Ring.readLoop maximumBytes maximumFrames h.ring.records.contents [] 0
        reader.nextOrdinal with
    | none => exact hi
    | some result =>
      obtain ⟨frames, next⟩ := result
      refine
        { next := hi.next
          ascending := hi.ascending
          below := hi.below
          head := hi.head
          count := hi.count
          buffered := hi.buffered
          within := hi.within
          keys := ?_
          retained := hi.retained
          idle := hi.idle
          chain := hi.chain
          last := hi.last
          accounts := ?_ }
      · show ((h.ring.observers.map _).map Prod.fst).Nodup
        have hsame : (h.ring.observers.map fun entry =>
            if entry.1 = id then (id, { entry.2 with nextOrdinal := next }) else entry).map Prod.fst =
            h.ring.observers.map Prod.fst := by
          rw [List.map_map]
          apply List.map_congr_left
          intro entry _
          show (if entry.1 = id then (id, _) else entry).1 = entry.1
          split_ifs with heq
          · exact heq.symm
          · rfl
        rw [hsame]
        exact hi.keys
      · intro entry hentry
        replace hentry : entry ∈ h.ring.observers.map fun entry =>
          if entry.1 = id then (id, { entry.2 with nextOrdinal := next }) else entry := hentry
        obtain ⟨entry₀, hmem, rfl⟩ := List.mem_map.mp hentry
        by_cases heq : entry₀.1 = id
        · have hreader := eq_of_observer? hi.keys hobserver hmem heq
          have haccount := hi.accounts entry₀ hmem
          rw [heq, hreader] at haccount
          rw [if_pos heq, hreader]
          dsimp only
          rw [Function.update_self]
          exact (account_read haccount hi.ascending hi.below hread).congr rfl rfl
        · rw [if_neg heq]
          dsimp only
          rw [Function.update_of_ne heq]
          exact (hi.accounts entry₀ hmem).congr rfl rfl

/-! ### Sessions -/

theorem inv_cleared (hi : Inv h) {ring : Ring} {sessionId : UInt64} {closed : Bool}
    (hring : ring = { h.ring.clearSession with sessionId, closed }) :
    Inv { h with ring, accepted := [] } := by
  subst hring
  exact
    { next := hi.next
      ascending := ⟨List.Pairwise.nil, fun x hx => absurd hx List.not_mem_nil⟩
      below := fun x hx => absurd hx List.not_mem_nil
      head := lt_of_le_of_lt (Nat.zero_le _) hi.head
      count := Nat.zero_le _
      buffered := rfl
      within := Nat.zero_le _
      keys := List.nodup_nil
      retained := List.suffix_rfl
      idle := fun _ => rfl
      chain := List.isChain_nil
      last := fun f hf => by cases hf
      accounts := fun entry hentry => absurd hentry List.not_mem_nil }

theorem session_same (h : History) : h.session h.ring = h := by
  unfold History.session
  rw [if_pos rfl]

theorem session_other {ring : Ring} (hne : ring.sessionId ≠ h.ring.sessionId) :
    h.session ring = { h with ring, accepted := [] } := by
  unfold History.session
  rw [if_neg hne]

theorem session_of_nil {ring : Ring} (hnil : h.accepted = []) :
    h.session ring = { h with ring, accepted := [] } := by
  unfold History.session
  rw [hnil, ite_self]

theorem inv_beginSession (hi : Inv h) (sessionId : UInt64) : Inv (h.step (.begin sessionId)) := by
  unfold History.step Ring.begin
  dsimp only
  split_ifs with hclosed hzero hsame
  · rw [session_same]
    exact hi
  · rw [session_same]
    exact hi
  · rw [session_same]
    exact hi
  · rw [session_other (Ne.symm hsame)]
    exact inv_cleared hi rfl

theorem inv_endSession (hi : Inv h) (sessionId : UInt64) :
    Inv (h.step (.endSession sessionId)) := by
  unfold History.step Ring.endSession
  dsimp only
  split_ifs with hclosed hwrong
  · rw [session_same]
    exact hi
  · rw [session_same]
    exact hi
  · rw [not_or, not_not] at hwrong
    have hne : h.ring.clearSession.sessionId ≠ h.ring.sessionId := by
      rw [hwrong.2]
      exact Ne.symm hwrong.1
    rw [session_other hne]
    exact inv_cleared hi rfl

theorem inv_close (hi : Inv h) : Inv (h.step .close) := by
  unfold History.step Ring.close
  dsimp only
  split_ifs with hclosed
  · rw [session_same]
    exact hi
  · have hcleared : Inv
        { h with ring := { h.ring.clearSession with closed := true }, accepted := [] } :=
      inv_cleared hi rfl
    by_cases hzero : h.ring.sessionId = 0
    · rw [session_of_nil (hi.idle hzero)]
      exact hcleared
    · rw [session_other (Ne.symm hzero)]
      exact hcleared

/-! ### Runs -/

theorem inv_step (hi : Inv h) (op : RingOp) (hbound : (h.step op).ingested + 1 < 2 ^ 64) :
    Inv (h.step op) := by
  cases op with
  | begin sessionId => exact inv_beginSession hi sessionId
  | endSession sessionId => exact inv_endSession hi sessionId
  | ingest frame => exact inv_ingest hi frame hbound
  | openObserver sessionId => exact inv_openObserver hi sessionId
  | closeObserver id => exact inv_closeObserver hi id
  | readObserver id maximumBytes maximumFrames =>
    exact inv_readObserver hi id maximumBytes maximumFrames
  | close => exact inv_close hi

theorem ingested_le_step (h : History) (op : RingOp) : h.ingested ≤ (h.step op).ingested := by
  cases op with
  | ingest frame =>
    unfold History.step
    dsimp only
    split
    · exact le_refl _
    · exact Nat.le_succ _
  | openObserver sessionId =>
    unfold History.step
    dsimp only
    split <;> exact le_refl _
  | readObserver id maximumBytes maximumFrames =>
    unfold History.step
    dsimp only
    split <;> exact le_refl _
  | _ => exact le_refl _

theorem inv_run (hi : Inv h) (ops : List RingOp) (hbound : (h.run ops).ingested + 1 < 2 ^ 64) :
    Inv (h.run ops) := by
  induction ops using List.reverseRecOn with
  | nil => exact hi
  | append_singleton ops op ih =>
    unfold History.run at hbound ih ⊢
    rw [List.foldl_append, List.foldl_cons, List.foldl_nil] at hbound ⊢
    have hle := ingested_le_step (ops.foldl History.step h) op
    exact inv_step (ih (by omega)) op hbound

theorem inv_new {config : Config} (h : Ring.new config = some r) :
    Inv { ring := r } := by
  unfold Ring.new at h
  dsimp only at h
  split_ifs at h with hbad
  obtain rfl := Option.some.inj h
  simp only [not_or, not_le] at hbad
  exact
    { next := rfl
      ascending := ⟨List.Pairwise.nil, fun x hx => absurd hx List.not_mem_nil⟩
      below := fun x hx => absurd hx List.not_mem_nil
      head := by
        show 0 < (Ring.orDefault config.maximumFrames defaultMaximumFrames).toNat
        omega
      count := Nat.zero_le _
      buffered := rfl
      within := Nat.zero_le _
      keys := List.nodup_nil
      retained := List.suffix_rfl
      idle := fun _ => rfl
      chain := List.isChain_nil
      last := fun f hf => by cases hf
      accounts := fun entry hentry => absurd hentry List.not_mem_nil }

theorem ingest_of_error {frame : Frame} (h : (r.ingest frame).1 ≠ none) :
    (r.ingest frame).2 = r := by
  unfold Ring.ingest at h ⊢
  split
  · rfl
  · next hnone =>
    rw [hnone] at h
    exact absurd rfl h

theorem readObserver_of_error {id : UInt64} {error : RingError}
    (h : (r.readObserver id maximumBytes maximumFrames).1 = .error error) :
    (r.readObserver id maximumBytes maximumFrames).2 = r := by
  unfold Ring.readObserver at h ⊢
  by_cases hclosed : r.closed = true
  · rw [if_pos hclosed]
  rw [if_neg hclosed] at h ⊢
  cases hobserver : r.observer? id with
  | none => rfl
  | some reader =>
    rw [hobserver] at h
    dsimp only at h ⊢
    by_cases hlimit : maximumBytes ≤ 0 ∨ maximumFrames ≤ 0
    · rw [if_pos hlimit]
    rw [if_neg hlimit] at h ⊢
    cases hread : Ring.readLoop maximumBytes maximumFrames r.records.contents [] 0
        reader.nextOrdinal with
    | none => rfl
    | some result =>
      rw [hread] at h
      cases h

theorem readObserver_overwritten {id : UInt64} {read : ObserverRead}
    (h : (r.readObserver id maximumBytes maximumFrames).1 = .ok read) :
    ∃ o, r.observer? id = some o ∧ read.overwrittenBytes = o.overwrittenBytes := by
  unfold Ring.readObserver at h
  by_cases hclosed : r.closed = true
  · rw [if_pos hclosed] at h
    cases h
  rw [if_neg hclosed] at h
  cases hobserver : r.observer? id with
  | none =>
    rw [hobserver] at h
    cases h
  | some reader =>
    rw [hobserver] at h
    dsimp only at h
    by_cases hlimit : maximumBytes ≤ 0 ∨ maximumFrames ≤ 0
    · rw [if_pos hlimit] at h
      cases h
    rw [if_neg hlimit] at h
    cases hread : Ring.readLoop maximumBytes maximumFrames r.records.contents [] 0
        reader.nextOrdinal with
    | none =>
      rw [hread] at h
      cases h
    | some result =>
      rw [hread] at h
      obtain rfl := Except.ok.inj h
      exact ⟨reader, rfl, rfl⟩

/-- **Observer conservation**, in every run of a ring that has taken fewer than `2^64 - 1` frames.
For every observer, the bytes delivered, the bytes lost and the bytes it has yet to read are those
retained when it was opened and those ingested since; its counter shows the lost bytes modulo
`2^64`.  What it was given and has yet to read are frames of the session in the order they were
ingested, none twice, and each ingested frame's sequence follows the one before it.  The byte
count is exact and within capacity, and a failed call changes nothing. -/
theorem observer_conservation {config : Config} {r : Ring} (hnew : Ring.new config = some r)
    (ops : List RingOp) (hbound : (History.run { ring := r } ops).ingested < 2 ^ 64 - 1) :
    let h := History.run { ring := r } ops
    (∀ entry ∈ h.ring.observers,
      let o := entry.2
      let v := h.views entry.1
      (∃ lost, o.overwrittenBytes = UInt64.ofNat lost ∧
        bytes v.delivered + lost + bytes (h.ring.pending o) = v.opened + bytes v.since) ∧
      (v.delivered ++ h.ring.pending o).Sublist h.accepted) ∧
    (h.accepted.IsChain fun a b => Ring.sequenceAfter b.sequence a.sequence = true) ∧
    (h.ring.bufferedBytes = bytes h.ring.frames ∧ bytes h.ring.frames ≤ h.ring.capacityBytes ∧
      h.ring.records.count ≤ h.ring.records.capacity) ∧
    (∀ frame, (h.ring.ingest frame).1 ≠ none → (h.ring.ingest frame).2 = h.ring) ∧
    (∀ id maximumBytes maximumFrames error,
      (h.ring.readObserver id maximumBytes maximumFrames).1 = .error error →
      (h.ring.readObserver id maximumBytes maximumFrames).2 = h.ring) ∧
    ∀ id maximumBytes maximumFrames read,
      (h.ring.readObserver id maximumBytes maximumFrames).1 = .ok read →
      ∃ o, h.ring.observer? id = some o ∧ read.overwrittenBytes = o.overwrittenBytes := by
  intro h
  have hi : Inv h := inv_run (inv_new hnew) ops (by omega)
  exact ⟨fun entry hentry => ⟨(hi.accounts entry hentry).conserved, (hi.accounts entry hentry).order⟩,
    hi.chain, ⟨hi.buffered, hi.within, hi.count⟩, fun _ => ingest_of_error,
    fun _ _ _ _ => readObserver_of_error, fun _ _ _ _ => readObserver_overwritten⟩

/-- A one-byte frame of the session 1. -/
def frameAt (n : ℕ) : Frame :=
  ⟨.targetRx, 1, UInt64.ofNat n, 0, [0]⟩

/-- An observer loses a frame to a ring of two. -/
theorem observer_conservation_lost :
    ∃ r, Ring.new ⟨2, 2, 1⟩ = some r ∧
      (History.run { ring := r } [.begin 1, .openObserver 1, .ingest (frameAt 1),
        .ingest (frameAt 2), .ingest (frameAt 3)]).ring.bufferedBytes ≤ 2 := by
  refine ⟨_, rfl, ?_⟩
  have h := (@observer_conservation ⟨2, 2, 1⟩ _ rfl [.begin 1, .openObserver 1,
    .ingest (frameAt 1), .ingest (frameAt 2), .ingest (frameAt 3)] (by decide)).2.2.1
  rw [h.1]
  exact Int.ofNat_le.mpr h.2.1

/-! ### Beyond the bound -/

/-- A ring of one frame that has taken `n` frames. -/
structure Single (n : ℕ) (h : History) : Prop where
  closed : h.ring.closed = false
  session : h.ring.sessionId = 1
  capacity : h.ring.records.capacity = 1
  capacityBytes : h.ring.capacityBytes = 1
  maximumObservers : h.ring.maximumObservers = 1
  head : h.ring.records.head = 0
  count : h.ring.records.count = 1
  slot : h.ring.records.slots 0 = ⟨UInt64.ofNat n, frameAt n⟩
  buffered : h.ring.bufferedBytes = 1
  next : h.ring.nextOrdinal = nonzeroNext (UInt64.ofNat n)
  sequence : h.ring.lastSequence = UInt64.ofNat n
  monotonic : h.ring.lastMonotonicMs = 0
  observers : h.ring.observers = []
  nextObserver : h.ring.nextObserverId = 1

variable {n : ℕ}

theorem ofNat_succ_ne_zero (h : n + 1 < 2 ^ 64) : UInt64.ofNat (n + 1) ≠ 0 := by
  intro hzero
  have hnat : (n + 1) % 2 ^ 64 = 0 := congrArg UInt64.toNat hzero
  rw [Nat.mod_eq_of_lt h] at hnat
  omega

theorem sequenceAfter_succ (hn : 0 < n) (h : n + 1 < 2 ^ 64) :
    Ring.sequenceAfter (UInt64.ofNat (n + 1)) (UInt64.ofNat n) = true := by
  obtain ⟨m, rfl⟩ := Nat.exists_eq_succ_of_ne_zero hn.ne'
  have hsub : UInt64.ofNat (m + 1 + 1) - UInt64.ofNat (m + 1) = 1 := by
    rw [UInt64.ofNat_add (m + 1) 1, UInt64.add_comm]
    exact UInt64.add_sub_cancel _ _
  have hne : UInt64.ofNat (m + 1 + 1) ≠ UInt64.ofNat (m + 1) := by
    intro heq
    rw [heq, UInt64.sub_self] at hsub
    exact absurd hsub (by decide)
  unfold Ring.sequenceAfter
  rw [hsub]
  simp only [Bool.and_eq_true, decide_eq_true_eq]
  exact ⟨⟨⟨ofNat_succ_ne_zero h, ofNat_succ_ne_zero (by omega)⟩, hne⟩, by decide⟩

theorem single_ingest {h : History} (hs : Single n h) (hn : 0 < n) (hbound : n + 1 < 2 ^ 64) :
    Single (n + 1) (h.step (.ingest (frameAt (n + 1)))) := by
  have herror : h.ring.ingestError (frameAt (n + 1)) = none := by
    unfold Ring.ingestError
    rw [hs.closed, hs.session, hs.capacityBytes, hs.sequence, hs.monotonic]
    have hafter := sequenceAfter_succ hn hbound
    have hzero := ofNat_succ_ne_zero hbound
    rw [UInt64.ofNat_add n 1] at hafter hzero
    simp_all [frameAt, maxPayloadBytes]
  have hneeds : h.ring.needsRoom 1 = true := by
    unfold Ring.needsRoom
    rw [hs.count, hs.capacity]
    rfl
  have hroom : h.ring.makeRoom (frameAt (n + 1)).payload.length h.ring.records.count =
      h.ring.evictOldest := by
    rw [hs.count]
    show (if h.ring.needsRoom 1 then Ring.makeRoom 1 0 h.ring.evictOldest else h.ring) = _
    rw [if_pos hneeds]
    rfl
  have hne : h.ring.records.count ≠ 0 := by
    rw [hs.count]
    decide
  have hnext : nonzeroNext (UInt64.ofNat n) = UInt64.ofNat (n + 1) := by
    unfold nonzeroNext
    rw [show UInt64.ofNat n + 1 = UInt64.ofNat (n + 1) from (UInt64.ofNat_add n 1).symm,
      if_neg (ofNat_succ_ne_zero hbound)]
  have hring : (h.step (.ingest (frameAt (n + 1)))).ring =
      h.ring.evictOldest.store (frameAt (n + 1)) := by
    have hingest : h.ring.ingest (frameAt (n + 1)) =
        (none, h.ring.evictOldest.store (frameAt (n + 1))) := by
      unfold Ring.ingest
      rw [herror, hroom]
    unfold History.step
    dsimp only
    rw [hingest]
  have hhead : (h.ring.records.head + 1) % h.ring.records.capacity = 0 := by
    rw [hs.capacity]
    exact Nat.mod_one _
  constructor <;> rw [hring] <;> unfold Ring.evictOldest Ring.store <;> rw [if_neg hne]
  case slot =>
    show Function.update h.ring.records.slots
      (((h.ring.records.head + 1) % h.ring.records.capacity + (h.ring.records.count - 1)) %
        h.ring.records.capacity) ⟨h.ring.nextOrdinal, frameAt (n + 1)⟩ 0 = _
    rw [hs.capacity, Nat.mod_one, Function.update_self, hs.next, hnext]
  case buffered =>
    show h.ring.bufferedBytes - ((h.ring.records.slots h.ring.records.head).frame.payload.length : ℤ)
      + ((frameAt (n + 1)).payload.length : ℤ) = 1
    rw [hs.head, hs.slot, hs.buffered]
    rfl
  case next =>
    show nonzeroNext h.ring.nextOrdinal = _
    rw [hs.next, hnext]
  case head => exact hhead
  case count =>
    show h.ring.records.count - 1 + 1 = 1
    rw [hs.count]
  case observers =>
    show h.ring.observers.map _ = []
    rw [hs.observers]
    rfl
  case closed => exact hs.closed
  case session => exact hs.session
  case capacity => exact hs.capacity
  case capacityBytes => exact hs.capacityBytes
  case maximumObservers => exact hs.maximumObservers
  case sequence => rfl
  case monotonic => rfl
  case nextObserver => exact hs.nextObserver

/-- A ring of one byte and one frame. -/
def single : Ring :=
  { capacityBytes := 1, maximumObservers := 1, records := .empty 1 .zero }

/-- The first `n` one-byte frames of the session. -/
def ingests (n : ℕ) : List RingOp :=
  (List.range n).map fun k => .ingest (frameAt (k + 1))

theorem single_run {n : ℕ} (hn : 0 < n) (hbound : n < 2 ^ 64) :
    Single n (History.run { ring := single } (.begin 1 :: ingests n)) := by
  induction n, hn using Nat.le_induction with
  | base => constructor <;> decide
  | succ n hn ih =>
    have hsplit : RingOp.begin 1 :: ingests (n + 1) =
        (RingOp.begin 1 :: ingests n) ++ [.ingest (frameAt (n + 1))] := by
      simp [ingests, List.range_succ]
    rw [hsplit, History.run, List.foldl_append]
    exact single_ingest (ih (by omega)) hn hbound

theorem readObserver_last {n : ℕ} (hn : UInt64.ofNat n + 1 = 0) {r : Ring} {o : Observer}
    (hclosed : r.closed = false) (hcontents : r.records.contents = [⟨UInt64.ofNat n, frameAt n⟩])
    (hobservers : r.observers = [(1, o)]) (hnext : o.nextOrdinal ≤ UInt64.ofNat n) :
    r.readObserver 1 1 1 = (.ok ⟨r.sessionId, [frameAt n], o.overwrittenBytes⟩,
      { r with observers := [(1, { o with nextOrdinal := 0 })] }) := by
  have hlt : ¬UInt64.ofNat n < o.nextOrdinal := UInt64.not_lt.mpr hnext
  have hread : Ring.readLoop 1 1 [⟨UInt64.ofNat n, frameAt n⟩] [] 0 o.nextOrdinal =
      some ([frameAt n], 0) := by
    simp [Ring.readLoop, hlt, hn, frameAt]
  unfold Ring.readObserver Ring.observer?
  simp [hclosed, hobservers, hcontents, hread]

theorem single_read_twice (hn : UInt64.ofNat n + 1 = 0) {h : History} (hs : Single n h) :
    (h.run [.openObserver 1, .readObserver 1 1 1, .readObserver 1 1 1]).views 1 =
      { opened := 1, since := [], delivered := [frameAt n, frameAt n] } := by
  have hcontents : h.ring.records.contents = [⟨UInt64.ofNat n, frameAt n⟩] := by
    unfold RingBuffer.contents RingBuffer.peek
    rw [hs.count, hs.head, hs.capacity]
    show [h.ring.records.slots 0] = _
    rw [hs.slot]
  have hframes : bytes h.ring.frames = 1 := by
    unfold Ring.frames
    rw [hcontents]
    rfl
  have holdest : h.ring.oldestOrdinal = UInt64.ofNat n := by
    unfold Ring.oldestOrdinal
    rw [hs.count, hs.head, hs.slot]
    rfl
  have hopen : h.ring.openObserver 1 = (.ok 1,
      { h.ring with
        nextObserverId := nonzeroNext 1
        observers := [(1, { nextOrdinal := UInt64.ofNat n })] }) := by
    unfold Ring.openObserver Ring.setObserver
    simp [hs.closed, hs.session, hs.maximumObservers, hs.observers, hs.nextObserver, holdest]
  have hfirst := @readObserver_last n hn
    { h.ring with
      nextObserverId := nonzeroNext 1
      observers := [(1, { nextOrdinal := UInt64.ofNat n })] }
    { nextOrdinal := UInt64.ofNat n } hs.closed hcontents rfl (UInt64.le_refl _)
  have hsecond := @readObserver_last n hn
    { h.ring with
      nextObserverId := nonzeroNext 1
      observers := [(1, { nextOrdinal := 0 })] }
    { nextOrdinal := 0 } hs.closed hcontents rfl UInt64.zero_le
  unfold History.run
  simp only [List.foldl_cons, List.foldl_nil, History.step, hopen, hfirst, hsecond, hframes,
    Function.update_self]
  rfl

theorem single_wraps (hn : n = 2 ^ 64 - 1) :
    let v := (History.run { ring := single } ((.begin 1 :: ingests n) ++
      [.openObserver 1, .readObserver 1 1 1, .readObserver 1 1 1])).views 1
    v.delivered = [frameAt n, frameAt n] ∧ v.opened + bytes v.since < bytes v.delivered := by
  have hs := @single_run n (by omega) (by omega)
  have hv := single_read_twice (by rw [hn]; decide) hs
  unfold History.run at hv ⊢
  rw [List.foldl_append, hv]
  exact ⟨rfl, by simp [frameAt]⟩

/-- **Where the counts end**: the sequences of frames are ordered as wrapping counters, so a frame
1 follows the frame `2^64 - 1`; and once the ordinals of a ring wrap, a reader is given its last
frame again and again. -/
theorem observer_conservation_limits :
    (∃ r, Ring.new ⟨8, 4, 1⟩ = some r ∧
      let h := History.run { ring := r } [.begin 1, .openObserver 1, .ingest (frameAt (2 ^ 64 - 1)),
        .ingest (frameAt 1), .readObserver 1 8 4]
      (h.views 1).delivered.map Frame.sequence = [0xffffffffffffffff, 1]) ∧
    ∃ r, Ring.new ⟨1, 1, 1⟩ = some r ∧
      let h := History.run { ring := r } ((.begin 1 :: ingests (2 ^ 64 - 1)) ++
        [.openObserver 1, .readObserver 1 1 1, .readObserver 1 1 1])
      let v := h.views 1
      v.delivered = [frameAt (2 ^ 64 - 1), frameAt (2 ^ 64 - 1)] ∧
        v.opened + bytes v.since < bytes v.delivered :=
  ⟨⟨_, rfl, by decide⟩, single, rfl, single_wraps rfl⟩

end RlcdDeck.SerialHub
