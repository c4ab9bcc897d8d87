import Mathlib

/-!
# One's complement sums

Numbers up to `m = 2 ^ w - 1` with an addition that adds the carry back in. They are
the remainders by `m`, where both 0 and `m` stand for zero; a sum is 0 only if
nothing but 0 was added (`reduce`), so that it does not matter when the carries are
added.
-/

namespace CosKernel.OnesComplement

variable {m : Nat}

/-- Addition with the carry added back in. -/
def add (m a b : Nat) : Nat := if a + b ≤ m then a + b else a + b - m

/-- A sum with all of its carries added. -/
def reduce (m n : Nat) : Nat := if n = 0 then 0 else (n - 1) % m + 1

@[simp] theorem reduce_zero : reduce m 0 = 0 := rfl

theorem reduce_le (hm : 0 < m) (n : Nat) : reduce m n ≤ m := by
  unfold reduce
  split
  · exact Nat.zero_le m
  · exact Nat.mod_lt _ hm

/-- A number without carries. -/
theorem reduce_of_le {n : Nat} (h : n ≤ m) : reduce m n = n := by
  unfold reduce
  split
  · omega
  · rw [Nat.mod_eq_of_lt (by omega)]
    omega

theorem reduce_eq_zero {n : Nat} : reduce m n = 0 ↔ n = 0 := by
  unfold reduce
  split
  · exact iff_of_true rfl ‹_›
  · exact iff_of_false (Nat.succ_ne_zero _) ‹_›

/-- The remainder does not change. -/
theorem reduce_modEq (n : Nat) : reduce m n ≡ n [MOD m] := by
  unfold reduce
  split
  · rename_i hn
    rw [hn]
  · have hmod := (Nat.mod_modEq (n - 1) m).add_right 1
    rwa [Nat.sub_add_cancel (by omega)] at hmod

/-- The remainder, and whether it is 0, are all there is to know of a sum. -/
theorem reduce_congr {n k : Nat} (hmod : n ≡ k [MOD m]) (hzero : n = 0 ↔ k = 0) :
    reduce m n = reduce m k := by
  by_cases hn : n = 0
  · rw [hn, hzero.1 hn]
  · have hk : k ≠ 0 := fun hk => hn (hzero.2 hk)
    have hpred : n - 1 ≡ k - 1 [MOD m] := by
      apply Nat.ModEq.add_right_cancel' 1
      rwa [Nat.sub_add_cancel (by omega), Nat.sub_add_cancel (by omega)]
    rw [reduce, reduce, if_neg hn, if_neg hk, hpred]

/-- Carries can be added at any time. -/
theorem reduce_reduce_add (a b : Nat) : reduce m (reduce m a + b) = reduce m (a + b) := by
  apply reduce_congr ((reduce_modEq a).add_right b)
  have hzero := reduce_eq_zero (m := m) (n := a)
  omega

/-- One addition. -/
theorem add_eq_reduce {a b : Nat} (ha : a ≤ m) (hb : b ≤ m) : add m a b = reduce m (a + b) := by
  unfold add
  split
  · rename_i hle
    rw [reduce_of_le hle]
  · have hsub : a + b - 1 - m < m := by omega
    rw [reduce, if_neg (by omega), Nat.mod_eq_sub_mod (by omega), Nat.mod_eq_of_lt hsub]
    omega

/-- A sum and its complement add up to `m`. -/
theorem reduce_add_complement (hm : 0 < m) (n : Nat) : reduce m (n + (m - reduce m n)) = m := by
  have hle := reduce_le hm n
  rw [← reduce_reduce_add, Nat.add_sub_cancel' hle, reduce_of_le (le_refl m)]

/-- A sum made by additions with carries. -/
theorem foldl_add (hm : 0 < m) {l : List Nat} (hl : ∀ a ∈ l, a ≤ m) {s : Nat} (hs : s ≤ m) :
    l.foldl (add m) s = reduce m (s + l.sum) := by
  induction l generalizing s with
  | nil => rw [List.foldl_nil, List.sum_nil, Nat.add_zero, reduce_of_le hs]
  | cons a l ih =>
    rw [List.forall_mem_cons] at hl
    rw [List.foldl_cons, add_eq_reduce hs hl.1, ih hl.2 (reduce_le hm _), reduce_reduce_add,
      List.sum_cons, Nat.add_assoc]

end CosKernel.OnesComplement
