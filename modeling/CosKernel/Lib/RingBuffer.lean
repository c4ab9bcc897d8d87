import Mathlib

/-!
# Ring buffers with a full flag

`n` slots, the index of the oldest entry (`head`), the index of the next free
slot (`tail`) and a flag that tells the full ring from the empty one, since
`head = tail` holds in both. `Queue` relates these four to the list of the
entries in the ring, oldest first; what it means for a slot to hold an entry, or
to hold none, is a parameter of it.
-/

namespace CosKernel.RingBuffer

universe u v

variable {n : Nat} {α : Type u} {β : Type v}

/-! ## Indices -/

/-- The index after `i`. -/
def next (n i : Nat) : Nat := (i + 1) % n

/-- The index `k` places after `i`. -/
def after (n i k : Nat) : Nat := (i + k) % n

theorem next_lt (hn : 0 < n) (i : Nat) : next n i < n := Nat.mod_lt _ hn

theorem after_zero {i : Nat} (hi : i < n) : after n i 0 = i := Nat.mod_eq_of_lt hi

theorem after_self {i : Nat} (hi : i < n) : after n i n = i := by
  unfold after
  rw [Nat.add_mod_right]
  exact Nat.mod_eq_of_lt hi

theorem next_after (i k : Nat) : next n (after n i k) = after n i (k + 1) := by
  unfold next after
  rw [Nat.mod_add_mod, Nat.add_assoc]

theorem after_next (i k : Nat) : after n (next n i) k = after n i (k + 1) := by
  unfold next after
  rw [Nat.mod_add_mod, Nat.add_assoc, Nat.add_comm 1 k]

/-- Within one turn of the ring, different distances name different slots. -/
theorem after_injective (i : Nat) {j k : Nat} (hj : j < n) (hk : k < n)
    (h : after n i j = after n i k) : j = k := by
  have hjk : j ≡ k [MOD n] := Nat.ModEq.add_left_cancel' _ h
  exact Nat.ModEq.eq_of_lt_of_lt hjk hj hk

theorem after_eq_self {i k : Nat} (hi : i < n) (hk : k ≤ n) :
    after n i k = i ↔ k = 0 ∨ k = n := by
  constructor
  · intro h
    rcases Nat.lt_or_eq_of_le hk with hlt | heq
    · left
      exact after_injective i hlt (by omega) (h.trans (after_zero hi).symm)
    · right
      exact heq
  · intro h
    rcases h with rfl | rfl
    · exact after_zero hi
    · exact after_self hi

theorem next_ne {i : Nat} (hn : 1 < n) (hi : i < n) : next n i ≠ i := by
  intro h
  have hone : (1 : Nat) = 0 := after_injective i hn (by omega) (h.trans (after_zero hi).symm)
  omega

/-! ## The entries of a ring -/

variable (n) (holds : α → Option β → Prop)

/-- The ring of `n` slots holds the entries of `q`, oldest first. -/
structure Queue (slots : Nat → α) (head tail : Nat) (full : Bool) (q : List β) : Prop where
  head_lt : head < n
  length_le : q.length ≤ n
  tail_eq : tail = after n head q.length
  full_iff : full = true ↔ q.length = n
  slot : ∀ i, i < n → holds (slots (after n head i)) q[i]?

namespace Queue

variable {n} {holds} {slots : Nat → α} {head tail : Nat} {full : Bool} {q : List β}

theorem tail_lt (h : Queue n holds slots head tail full q) : tail < n := by
  rw [h.tail_eq]
  exact Nat.mod_lt _ (Nat.zero_lt_of_lt h.head_lt)

/-- The ring is empty when the indices meet and the flag is clear. -/
theorem ne_nil_iff (h : Queue n holds slots head tail full q) :
    q ≠ [] ↔ head ≠ tail ∨ full = true := by
  have hhead := h.head_lt
  have hself := after_eq_self hhead h.length_le
  have hlen : q ≠ [] ↔ q.length ≠ 0 := List.length_eq_zero_iff.not.symm
  rw [hlen, h.full_iff, h.tail_eq, ne_comm (a := head), Ne, Ne, hself]
  omega

/-- In a full ring the index after `tail` is not `head`: a ring of two or more
slots never passes the test `next tail = head ∧ full`. -/
theorem next_tail_ne (h : Queue n holds slots head tail full q) (hn : 1 < n)
    (hfull : full = true) : next n tail ≠ head := by
  rw [h.tail_eq, h.full_iff.mp hfull, after_self h.head_lt]
  exact next_ne hn h.head_lt

/-- The slot of the oldest entry. -/
theorem front {b : β} (h : Queue n holds slots head tail full (b :: q)) :
    holds (slots head) (some b) := by
  have hslot := h.slot 0 (Nat.zero_lt_of_lt h.head_lt)
  rw [after_zero h.head_lt] at hslot
  exact hslot

/-- The slot at `head` of an empty ring. -/
theorem front_nil (h : Queue n holds slots head tail full []) : holds (slots head) none := by
  have hslot := h.slot 0 (Nat.zero_lt_of_lt h.head_lt)
  rw [after_zero h.head_lt] at hslot
  exact hslot

/-- Write an entry to the slot at `tail` of a ring that is not full. -/
theorem push (h : Queue n holds slots head tail full q) (hroom : q.length ≠ n)
    {a : α} {b : β} (hab : holds a (some b)) :
    Queue n holds (Function.update slots tail a) head (next n tail)
      (if next n tail = head then true else full) (q ++ [b]) := by
  have hlt : q.length < n := lt_of_le_of_ne h.length_le hroom
  have hnext : next n tail = after n head (q.length + 1) := by
    rw [h.tail_eq, next_after]
  have hfull : full = false := by
    have hnot := h.full_iff.not.mpr hroom
    simpa using hnot
  constructor
  · exact h.head_lt
  · simpa using hlt
  · simpa using hnext
  · -- the flag is set exactly when the new entry took the last free slot
    have hmeet := after_eq_self h.head_lt (show q.length + 1 ≤ n by omega)
    rw [hnext, hfull, List.length_append, List.length_singleton]
    by_cases hend : after n head (q.length + 1) = head
    · rw [if_pos hend]
      have := hmeet.mp hend
      simp
      omega
    · rw [if_neg hend]
      have := hmeet.not.mp hend
      simp
      omega
  · intro i hi
    by_cases hit : i = q.length
    · subst hit
      simpa [h.tail_eq] using hab
    · have hne : after n head i ≠ tail := by
        intro heq
        rw [h.tail_eq] at heq
        exact hit (after_injective head hi hlt heq)
      have hget : (q ++ [b])[i]? = q[i]? := by
        rcases Nat.lt_or_ge i q.length with hlow | hhigh
        · exact List.getElem?_append_left hlow
        · rw [List.getElem?_append_right hhigh, List.getElem?_eq_none hhigh]
          simp
          omega
      rw [Function.update_of_ne hne, hget]
      exact h.slot i hi

/-- Take the oldest entry out; the slot it leaves may be overwritten by what
holds no entry. -/
theorem pop {b : β} (h : Queue n holds slots head tail full (b :: q))
    {a : α} (ha : holds a none) :
    Queue n holds (Function.update slots head a) (next n head) tail false q := by
  have hlen := h.length_le
  have hhead := h.head_lt
  rw [List.length_cons] at hlen
  constructor
  · exact next_lt (by omega) head
  · omega
  · rw [h.tail_eq, after_next, List.length_cons]
  · simp
    omega
  · intro i hi
    rw [after_next]
    by_cases hlast : i + 1 = n
    · -- one turn around, back at the slot that was left
      have hnone : q[i]? = none := List.getElem?_eq_none (by omega)
      rw [hlast, after_self hhead, Function.update_self, hnone]
      exact ha
    · have hne : after n head (i + 1) ≠ head := by
        intro hmeet
        rcases (after_eq_self hhead (by omega)).mp hmeet with hzero | hn
        · omega
        · omega
      rw [Function.update_of_ne hne]
      exact h.slot (i + 1) (by omega)

/-- An empty ring: the indices meet and no slot holds an entry. -/
theorem empty (hhead : head < n) (hslots : ∀ i, holds (slots i) none) :
    Queue n holds slots head head false ([] : List β) := by
  constructor
  · exact hhead
  · simp
  · exact (after_zero hhead).symm
  · simp
    omega
  · intro i hi
    exact hslots (after n head i)

end Queue

end CosKernel.RingBuffer
