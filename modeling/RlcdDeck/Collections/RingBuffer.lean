import Mathlib.Data.List.Range
import Mathlib.Data.Nat.ModEq

/-!
# Ring buffers

A queue kept in `capacity` slots: `count` elements starting at slot `head`, wrapping around.
`contents` is the queue they hold, and the lemmas say what the slot operations do to it:
`contents_eq_cons`, `contents_push` and `getElem?_contents`.
-/

namespace RlcdDeck.Collections

/-- `count` elements in the slots `head, head + 1, …` modulo `capacity`. -/
structure RingBuffer (α : Type*) where
  slots : ℕ → α
  capacity : ℕ
  head : ℕ
  count : ℕ

namespace RingBuffer

variable {α : Type*}

/-- An empty buffer. -/
def empty (capacity : ℕ) (fill : α) : RingBuffer α :=
  ⟨fun _ => fill, capacity, 0, 0⟩

/-- The element `offset` places behind the front. -/
def peek (b : RingBuffer α) (offset : ℕ) : α :=
  b.slots ((b.head + offset) % b.capacity)

/-- Removes the front element. -/
def pop (b : RingBuffer α) : RingBuffer α :=
  { b with head := (b.head + 1) % b.capacity, count := b.count - 1 }

/-- Appends an element. -/
def push (b : RingBuffer α) (x : α) : RingBuffer α :=
  { b with
    slots := Function.update b.slots ((b.head + b.count) % b.capacity) x
    count := b.count + 1 }

/-- The queue, front first. -/
def contents (b : RingBuffer α) : List α :=
  (List.range b.count).map b.peek

@[simp] theorem length_contents (b : RingBuffer α) : b.contents.length = b.count := by
  simp [contents]

@[simp] theorem contents_empty (capacity : ℕ) (fill : α) :
    (empty capacity fill).contents = [] := rfl

theorem contents_eq_nil_iff (b : RingBuffer α) : b.contents = [] ↔ b.count = 0 := by
  rw [← List.length_eq_zero_iff, length_contents]

theorem getElem?_contents {b : RingBuffer α} {k : ℕ} (h : k < b.count) :
    b.contents[k]? = some (b.peek k) := by
  simp [contents, h]

theorem peek_pop (b : RingBuffer α) (k : ℕ) : b.pop.peek k = b.peek (k + 1) := by
  show b.slots (((b.head + 1) % b.capacity + k) % b.capacity) = _
  rw [Nat.mod_add_mod, Nat.add_assoc, Nat.add_comm 1 k]
  rfl

theorem contents_eq_cons {b : RingBuffer α} (h : b.count ≠ 0) :
    b.contents = b.peek 0 :: b.pop.contents := by
  obtain ⟨n, hn⟩ := Nat.exists_eq_succ_of_ne_zero h
  have hpop : b.pop.count = n := by
    show b.count - 1 = n
    omega
  unfold contents
  rw [hn, hpop, List.range_succ_eq_map, List.map_cons, List.map_map]
  congr 1
  apply List.map_congr_left
  intro k _
  exact (peek_pop b k).symm

theorem peek_push_of_lt {b : RingBuffer α} (hfull : b.count < b.capacity) (x : α) {k : ℕ}
    (hk : k < b.count) : (b.push x).peek k = b.peek k := by
  refine Function.update_of_ne ?_ _ _
  -- two offsets below the capacity never share a slot
  intro heq
  have hmod : k % b.capacity = b.count % b.capacity :=
    Nat.ModEq.add_left_cancel' b.head heq
  rw [Nat.mod_eq_of_lt (by omega), Nat.mod_eq_of_lt hfull] at hmod
  omega

theorem peek_push_count (b : RingBuffer α) (x : α) : (b.push x).peek b.count = x :=
  Function.update_self _ _ _

theorem contents_push {b : RingBuffer α} (hfull : b.count < b.capacity) (x : α) :
    (b.push x).contents = b.contents ++ [x] := by
  have hcount : (b.push x).count = b.count + 1 := rfl
  unfold contents
  rw [hcount, List.range_succ, List.map_append, List.map_singleton, peek_push_count]
  congr 1
  apply List.map_congr_left
  intro k hk
  exact peek_push_of_lt hfull x (List.mem_range.mp hk)

theorem find?_range_peek (b : RingBuffer α) (p : α → Bool) :
    ((List.range b.count).find? fun k => p (b.peek k)) = b.contents.findIdx? p := by
  ext k
  rw [List.find?_range_eq_some, List.findIdx?_eq_some_iff_getElem]
  constructor
  · rintro ⟨hp, hk, hbefore⟩
    refine ⟨by simpa using hk, by simpa [contents] using hp, fun j hj => ?_⟩
    simpa [contents] using hbefore j hj
  · rintro ⟨hk, hp, hbefore⟩
    refine ⟨by simpa [contents] using hp, by simpa using hk, fun j hj => ?_⟩
    simpa [contents] using hbefore j hj

end RingBuffer

end RlcdDeck.Collections
