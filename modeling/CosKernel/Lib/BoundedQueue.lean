import CosKernel.Lib.RingBuffer

/-!
# Bounded queues, and rings that keep a slot free

A ring without a full flag is full when the index after `tail` is `head`: one of
its `n` slots stays free, and it is a queue of at most `n - 1` entries. The
indices may be of any type with a way to count up to `n`; the array is a function
of the number the index stands for.
-/

namespace CosKernel.BoundedQueue

universe u v

variable {α : Type u} {ι : Type v} {n : Nat}

/-! ## The queue -/

/-- Append an entry if there is room. -/
def enqueue (capacity : Nat) (a : α) (q : List α) : Bool × List α :=
  if q.length = capacity then (false, q) else (true, q ++ [a])

/-- Take the oldest entry. -/
def dequeue : List α → Option α × List α
  | [] => (none, [])
  | a :: q => (some a, q)

/-- A queue that is offered entries keeps those it had and takes from the offer. -/
theorem mem_enqueue {capacity : Nat} {a b : α} {q : List α} (h : b ∈ (enqueue capacity a q).2) :
    b ∈ q ∨ b = a := by
  unfold enqueue at h
  split at h
  · exact Or.inl h
  · rcases List.mem_append.mp h with hq | ha
    · exact Or.inl hq
    · exact Or.inr (List.mem_singleton.mp ha)

structure Ring (ι : Type v) (α : Type u) where
  slots : Nat → α
  head : ι
  tail : ι

/-- How indices of type `ι` count the `n` slots of an array. -/
structure Indexing (n : Nat) (ι : Type v) where
  next : ι → ι
  toNat : ι → Nat
  ofNat : Nat → ι
  toNat_ofNat : ∀ k < n, toNat (ofNat k) = k
  next_ofNat : ∀ k < n, next (ofNat k) = ofNat (RingBuffer.next n k)

variable (ix : Indexing n ι)

/-- What a slot holds: an entry of the queue, or anything at all. -/
def slotHolds (a : α) : Option α → Prop
  | some b => a = b
  | none => True

/-- The ring holds the entries of `q`, oldest first. -/
structure Holds (r : Ring ι α) (q : List α) : Prop where
  queue : ∃ head tail, r.head = ix.ofNat head ∧ r.tail = ix.ofNat tail ∧
    RingBuffer.Queue n slotHolds r.slots head tail false q

variable {ix} {r : Ring ι α} {q : List α}

theorem Indexing.ofNat_inj {j k : Nat} (hj : j < n) (hk : k < n) :
    ix.ofNat j = ix.ofNat k ↔ j = k := by
  constructor
  · intro h
    rw [← ix.toNat_ofNat j hj, h, ix.toNat_ofNat k hk]
  · intro h
    rw [h]

namespace Holds

/-- The indices are those of slots. -/
theorem inside (h : Holds ix r q) : ix.toNat r.head < n ∧ ix.toNat r.tail < n := by
  rcases h.queue with ⟨head, tail, hhead, htail, hqueue⟩
  rw [hhead, htail, ix.toNat_ofNat head hqueue.head_lt, ix.toNat_ofNat tail hqueue.tail_lt]
  exact ⟨hqueue.head_lt, hqueue.tail_lt⟩

theorem length_lt (h : Holds ix r q) : q.length < n := by
  rcases h.queue with ⟨_, _, _, _, hqueue⟩
  have hne : q.length ≠ n := by
    intro heq
    exact Bool.false_ne_true (hqueue.full_iff.mpr heq)
  exact lt_of_le_of_ne hqueue.length_le hne

/-- The ring looks empty exactly when it is. -/
theorem head_eq_tail_iff (h : Holds ix r q) : r.head = r.tail ↔ q = [] := by
  rcases h.queue with ⟨head, tail, hhead, htail, hqueue⟩
  rw [hhead, htail, Indexing.ofNat_inj hqueue.head_lt hqueue.tail_lt]
  have hne := hqueue.ne_nil_iff
  simp only [Bool.false_eq_true, or_false] at hne
  exact (not_iff_not.mp hne).symm

/-- It looks full exactly when all slots but one are taken. -/
theorem next_tail_eq_iff (h : Holds ix r q) : ix.next r.tail = r.head ↔ q.length = n - 1 := by
  have hlt := h.length_lt
  rcases h.queue with ⟨head, tail, hhead, htail, hqueue⟩
  have hpos : 0 < n := Nat.zero_lt_of_lt hqueue.head_lt
  rw [hhead, htail, ix.next_ofNat tail hqueue.tail_lt,
    Indexing.ofNat_inj (RingBuffer.next_lt hpos tail) hqueue.head_lt, hqueue.tail_eq,
    RingBuffer.next_after, RingBuffer.after_eq_self hqueue.head_lt hlt]
  omega

/-- An empty ring, whatever the slots hold. -/
theorem empty (hn : 0 < n) (slots : Nat → α) (ix : Indexing n ι) :
    Holds ix ⟨slots, ix.ofNat 0, ix.ofNat 0⟩ [] := by
  refine ⟨0, 0, rfl, rfl, ?_⟩
  apply RingBuffer.Queue.empty hn
  intro _
  trivial

end Holds

/-! ## The operations of the ring -/

namespace Ring

variable [DecidableEq ι] (ix : Indexing n ι)

/-- `next = tail + 1; if (next == head) return false; slots[tail] = a; tail = next;` -/
def enqueue (a : α) (r : Ring ι α) : Bool × Ring ι α :=
  if ix.next r.tail = r.head then (false, r)
  else
    (true, { r with
      slots := Function.update r.slots (ix.toNat r.tail) a
      tail := ix.next r.tail })

/-- `if (head == tail) return false; a = slots[head]; head = head + 1;` -/
def dequeue (r : Ring ι α) : Option α × Ring ι α :=
  if r.head = r.tail then (none, r)
  else (some (r.slots (ix.toNat r.head)), { r with head := ix.next r.head })

end Ring

namespace Holds

variable [DecidableEq ι]

/-- A full ring refuses the entry and stays as it is. -/
theorem enqueue_full (h : Holds ix r q) (hfull : q.length = n - 1) (a : α) :
    r.enqueue ix a = (false, r) := by
  unfold Ring.enqueue
  exact if_pos (h.next_tail_eq_iff.mpr hfull)

/-- The ring does what the queue of `n - 1` entries does. -/
theorem enqueue (h : Holds ix r q) (a : α) :
    (r.enqueue ix a).1 = (BoundedQueue.enqueue (n - 1) a q).1 ∧
      Holds ix (r.enqueue ix a).2 (BoundedQueue.enqueue (n - 1) a q).2 := by
  unfold BoundedQueue.enqueue
  by_cases hfull : q.length = n - 1
  · rw [if_pos hfull, h.enqueue_full hfull]
    exact ⟨rfl, h⟩
  · have hroom : ix.next r.tail ≠ r.head := by
      intro heq
      exact hfull (h.next_tail_eq_iff.mp heq)
    have hlt := h.length_lt
    unfold Ring.enqueue
    rw [if_neg hfull, if_neg hroom]
    refine ⟨rfl, ?_⟩
    rcases h.queue with ⟨head, tail, hhead, htail, hqueue⟩
    have hpos : 0 < n := Nat.zero_lt_of_lt hqueue.head_lt
    have hnext : ix.next r.tail = ix.ofNat (RingBuffer.next n tail) := by
      rw [htail, ix.next_ofNat tail hqueue.tail_lt]
    have hmeet : RingBuffer.next n tail ≠ head := by
      intro heq
      rw [hnext, heq] at hroom
      exact hroom hhead.symm
    have hpush := hqueue.push (Nat.ne_of_lt hlt) (show slotHolds a (some a) from rfl)
    rw [if_neg hmeet] at hpush
    refine ⟨head, RingBuffer.next n tail, hhead, hnext, ?_⟩
    rw [htail, ix.toNat_ofNat tail hqueue.tail_lt]
    exact hpush

theorem dequeue (h : Holds ix r q) :
    (r.dequeue ix).1 = (BoundedQueue.dequeue q).1 ∧
      Holds ix (r.dequeue ix).2 (BoundedQueue.dequeue q).2 := by
  unfold Ring.dequeue
  cases q with
  | nil =>
    rw [if_pos (h.head_eq_tail_iff.mpr rfl)]
    exact ⟨rfl, h⟩
  | cons b q =>
    have hne : r.head ≠ r.tail := by
      intro heq
      exact List.cons_ne_nil b q (h.head_eq_tail_iff.mp heq)
    rw [if_neg hne]
    rcases h.queue with ⟨head, tail, hhead, htail, hqueue⟩
    have hindex : ix.toNat r.head = head := by
      rw [hhead, ix.toNat_ofNat head hqueue.head_lt]
    have hfront : r.slots head = b := hqueue.front
    constructor
    · show some (r.slots (ix.toNat r.head)) = some b
      rw [hindex, hfront]
    · have hpop := hqueue.pop (show slotHolds (r.slots head) none from trivial)
      rw [Function.update_eq_self] at hpop
      refine ⟨RingBuffer.next n head, tail, ?_, htail, hpop⟩
      show ix.next r.head = _
      rw [hhead, ix.next_ofNat head hqueue.head_lt]

end Holds

end CosKernel.BoundedQueue
