import Mathlib

/-!
# Tables kept in the front of an array

The first `n` places of an array, read as a list. Code keeps such a table by
three loops: a search for the first entry that meets a test, the assignment
behind the last entry, and the shift that closes the gap a removed entry leaves.
-/

namespace CosKernel.ArrayTable

universe u

variable {α : Type u}

/-- The table: the first `n` places of the array. -/
def entries (array : Nat → α) (n : Nat) : List α := (List.range n).map array

@[simp] theorem length_entries (array : Nat → α) (n : Nat) : (entries array n).length = n := by
  simp [entries]

theorem getElem?_entries (array : Nat → α) {n i : Nat} (hi : i < n) :
    (entries array n)[i]? = some (array i) := by
  simp [entries, hi]

theorem entries_congr {array array' : Nat → α} {n : Nat} (h : ∀ i < n, array' i = array i) :
    entries array' n = entries array n := by
  apply List.map_congr_left
  intro i hi
  exact h i (List.mem_range.mp hi)

/-- `array[n] = a` behind a table of `n` entries. -/
theorem entries_push (array : Nat → α) (n : Nat) (a : α) :
    entries (Function.update array n a) (n + 1) = entries array n ++ [a] := by
  have hfront : entries (Function.update array n a) n = entries array n := by
    apply entries_congr
    intro i hi
    exact Function.update_of_ne (by omega) _ _
  unfold entries at hfront ⊢
  rw [List.range_succ, List.map_append, hfront]
  simp

/-! ## Search -/

/-- `for (; turns; i++) if (p(array[i])) return i;` -/
def findFrom (p : α → Bool) (array : Nat → α) : Nat → Nat → Option Nat
  | _, 0 => none
  | i, turns + 1 => if p (array i) then some i else findFrom p array (i + 1) turns

theorem findFrom_eq (p : α → Bool) (array : Nat → α) (i turns : Nat) :
    findFrom p array i turns =
      ((entries (fun k => array (i + k)) turns).findIdx? p).map (i + ·) := by
  induction turns generalizing i with
  | zero => rfl
  | succ turns ih =>
    have hcons : entries (fun k => array (i + k)) (turns + 1) =
        array i :: entries (fun k => array (i + 1 + k)) turns := by
      simp [entries, List.range_succ_eq_map, Nat.add_assoc, Nat.add_comm 1]
    rw [hcons, List.findIdx?_cons]
    unfold findFrom
    by_cases hp : p (array i) = true
    · simp [hp]
    · simp only [hp, Bool.false_eq_true, if_false, ih, Option.map_map]
      congr 1
      funext k
      show i + 1 + k = i + (k + 1)
      omega

/-- The search of a whole table. -/
theorem findFrom_zero (p : α → Bool) (array : Nat → α) (n : Nat) :
    findFrom p array 0 n = (entries array n).findIdx? p := by
  rw [findFrom_eq]
  simp

/-! ## Removal -/

/-- `for (; turns; j++) array[j] = array[j + 1];` -/
def shiftFrom : (Nat → α) → Nat → Nat → Nat → α
  | array, _, 0 => array
  | array, j, turns + 1 => shiftFrom (Function.update array j (array (j + 1))) (j + 1) turns

theorem shiftFrom_apply (array : Nat → α) (j turns k : Nat) :
    shiftFrom array j turns k = if j ≤ k ∧ k < j + turns then array (k + 1) else array k := by
  induction turns generalizing array j with
  | zero =>
    rw [if_neg (by omega)]
    rfl
  | succ turns ih =>
    unfold shiftFrom
    rw [ih]
    by_cases hj : k = j
    · subst hj
      rw [if_neg (by omega), if_pos (by omega), Function.update_self]
    · by_cases hk : j + 1 ≤ k ∧ k < j + 1 + turns
      · rw [if_pos hk, if_pos (by omega), Function.update_of_ne (by omega)]
      · rw [if_neg hk, if_neg (by omega), Function.update_of_ne hj]

/-- Shifting the entries behind `i` down by one removes entry `i`. -/
theorem entries_shiftFrom (array : Nat → α) {n i : Nat} (hi : i < n) :
    entries (shiftFrom array i (n - 1 - i)) (n - 1) = (entries array n).eraseIdx i := by
  apply List.ext_getElem?
  intro k
  rw [List.getElem?_eraseIdx]
  by_cases hk : k < n - 1
  · rw [getElem?_entries _ hk, shiftFrom_apply]
    by_cases hki : k < i
    · rw [if_neg (by omega), if_pos hki, getElem?_entries _ (by omega)]
    · rw [if_pos (by omega), if_neg hki, getElem?_entries _ (by omega)]
  · have hleft : (entries (shiftFrom array i (n - 1 - i)) (n - 1))[k]? = none := by
      apply List.getElem?_eq_none
      rw [length_entries]
      omega
    rw [hleft]
    split
    · omega
    · symm
      apply List.getElem?_eq_none
      rw [length_entries]
      omega

/-! ## Rankings -/

/-- The entries are `0`, …, `n - 1` in some order exactly when they lie in that
range and no two places hold the same. -/
theorem entries_perm_range_iff (rank : Nat → Int) (n : Nat) :
    (entries rank n).Perm ((List.range n).map Int.ofNat) ↔
      (∀ k < n, 0 ≤ rank k ∧ rank k < n) ∧ ∀ j < n, ∀ k < n, rank j = rank k → j = k := by
  have hmem : ∀ z : Int, z ∈ (List.range n).map Int.ofNat ↔ 0 ≤ z ∧ z < n := by
    intro z
    constructor
    · intro hz
      rcases List.mem_map.mp hz with ⟨k, hk, rfl⟩
      have hlt := List.mem_range.mp hk
      exact ⟨Int.natCast_nonneg k, Int.ofNat_lt.mpr hlt⟩
    · intro hz
      refine List.mem_map.mpr ⟨z.toNat, List.mem_range.mpr (by omega), ?_⟩
      exact Int.toNat_of_nonneg hz.1
  have hnodup : ((List.range n).map Int.ofNat).Nodup :=
    List.nodup_range.map (fun _ _ h => Int.ofNat.inj h)
  constructor
  · intro hperm
    constructor
    · intro k hk
      apply (hmem _).mp
      apply hperm.mem_iff.mp
      exact List.mem_map.mpr ⟨k, List.mem_range.mpr hk, rfl⟩
    · intro j hj k hk hjk
      have hinj := List.inj_on_of_nodup_map (hperm.nodup_iff.mpr hnodup)
      exact hinj (List.mem_range.mpr hj) (List.mem_range.mpr hk) hjk
  · intro h
    have hentries : (entries rank n).Nodup := by
      apply List.Nodup.map_on _ List.nodup_range
      intro j hj k hk hjk
      exact h.2 j (List.mem_range.mp hj) k (List.mem_range.mp hk) hjk
    have hsubset : entries rank n ⊆ (List.range n).map Int.ofNat := by
      intro z hz
      rcases List.mem_map.mp hz with ⟨k, hk, rfl⟩
      exact (hmem _).mpr (h.1 k (List.mem_range.mp hk))
    apply (List.subperm_of_subset hentries hsubset).perm_of_length_le
    simp

end CosKernel.ArrayTable
