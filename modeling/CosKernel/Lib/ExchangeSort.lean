import CosKernel.Lib.ArrayTable

/-!
# Exchange sort

The first `n` places of an array are sorted in place by two loops: the entry at
place `i` is compared with every entry behind it, and two entries that are out of
order change places. The result is a rearrangement of the table, in order.
-/

namespace CosKernel.ExchangeSort

open ArrayTable

universe u v

variable {α : Type u} {κ : Type v}

/-! ## The loops -/

/-- `temp = array[i]; array[i] = array[j]; array[j] = temp;` -/
def swap (array : Nat → α) (i j : Nat) : Nat → α :=
  Function.update (Function.update array i (array j)) j (array i)

section Loops

variable [LinearOrder κ] (key : α → κ)

/-- `for (; turns; j++) if (key(array[i]) > key(array[j])) swap(i, j);` -/
def settle (i : Nat) : (Nat → α) → Nat → Nat → Nat → α
  | array, _, 0 => array
  | array, j, turns + 1 =>
    settle i (if key (array i) > key (array j) then swap array i j else array) (j + 1) turns

/-- `for (; turns; i++) for (j = i + 1; j < n; j++) …` -/
def sortFrom (n : Nat) : (Nat → α) → Nat → Nat → Nat → α
  | array, _, 0 => array
  | array, i, turns + 1 => sortFrom n (settle key i array (i + 1) (n - (i + 1))) (i + 1) turns

/-- `for (i = 0; i < n - 1; i++) …` -/
def sort (array : Nat → α) (n : Nat) : Nat → α := sortFrom key n array 0 (n - 1)

end Loops

/-! ## Rearrangements -/

/-- The entries at the places from `i` to `n` have changed places among each other. -/
def Rearranged (i n : Nat) (array array' : Nat → α) : Prop :=
  ∃ σ : Equiv.Perm Nat, array' = array ∘ σ ∧ ∀ k, ¬(i ≤ k ∧ k < n) → σ k = k

theorem swap_eq (array : Nat → α) (i j : Nat) : swap array i j = array ∘ Equiv.swap i j := by
  funext k
  unfold swap
  by_cases hkj : k = j
  · subst hkj
    simp
  · rw [Function.update_of_ne hkj]
    by_cases hki : k = i
    · subst hki
      simp
    · rw [Function.update_of_ne hki, Function.comp_apply, Equiv.swap_apply_of_ne_of_ne hki hkj]

namespace Rearranged

variable {i n : Nat} {array array' array'' : Nat → α}

theorem refl (i n : Nat) (array : Nat → α) : Rearranged i n array array :=
  ⟨1, rfl, fun _ _ => rfl⟩

theorem trans (h : Rearranged i n array array') (h' : Rearranged i n array' array'') :
    Rearranged i n array array'' := by
  rcases h with ⟨σ, rfl, hσ⟩
  rcases h' with ⟨τ, rfl, hτ⟩
  refine ⟨σ * τ, rfl, ?_⟩
  intro k hk
  rw [Equiv.Perm.mul_apply, hτ k hk, hσ k hk]

theorem mono {i' : Nat} (h : Rearranged i' n array array') (hle : i ≤ i') :
    Rearranged i n array array' := by
  rcases h with ⟨σ, harray, hσ⟩
  refine ⟨σ, harray, ?_⟩
  intro k hk
  exact hσ k (by omega)

theorem of_swap {j : Nat} (array : Nat → α) (hij : i < j) (hj : j < n) :
    Rearranged i n array (swap array i j) := by
  refine ⟨Equiv.swap i j, swap_eq array i j, ?_⟩
  intro k hk
  apply Equiv.swap_apply_of_ne_of_ne
  · omega
  · omega

/-- The entries before place `i` stay. -/
theorem before (h : Rearranged i n array array') {k : Nat} (hk : k < i) : array' k = array k := by
  rcases h with ⟨σ, rfl, hσ⟩
  rw [Function.comp_apply, hσ k (by omega)]

/-- The entries from place `i` on come from there. -/
theorem exists_place (h : Rearranged i n array array') {k : Nat} (hik : i ≤ k) (hkn : k < n) :
    ∃ k', i ≤ k' ∧ k' < n ∧ array' k = array k' := by
  rcases h with ⟨σ, rfl, hσ⟩
  by_cases hplace : i ≤ σ k ∧ σ k < n
  · exact ⟨σ k, hplace.1, hplace.2, rfl⟩
  · -- a place outside is mapped to itself only
    have hk : σ k = k := σ.injective (hσ (σ k) hplace)
    exact ⟨k, hik, hkn, by rw [Function.comp_apply, hk]⟩

theorem perm (h : Rearranged 0 n array array') : (entries array' n).Perm (entries array n) := by
  have hplace := fun k => h.exists_place (k := k) (Nat.zero_le k)
  rcases h with ⟨σ, rfl, hσ⟩
  unfold entries
  rw [← List.map_map]
  apply List.Perm.map
  rw [List.perm_ext_iff_of_nodup (List.nodup_range.map σ.injective) List.nodup_range]
  have hrange : ∀ k, σ k < n ↔ k < n := by
    intro k
    by_cases hk : k < n
    · refine iff_of_true ?_ hk
      by_contra hσk
      have hfixed : σ k = k := σ.injective (hσ (σ k) (by omega))
      omega
    · rw [hσ k (by omega)]
  intro k
  rw [List.mem_map, List.mem_range]
  constructor
  · rintro ⟨k', hk', rfl⟩
    exact (hrange k').mpr (List.mem_range.mp hk')
  · intro hk
    refine ⟨σ.symm k, List.mem_range.mpr ((hrange _).mp ?_), σ.apply_symm_apply k⟩
    rwa [σ.apply_symm_apply]

end Rearranged

/-! ## Order -/

section Order

variable [LinearOrder κ] (key : α → κ)

/-- The inner loop leaves a least entry at place `i`. -/
theorem settle_spec {i n : Nat} (array : Nat → α) (j turns : Nat) (hij : i < j)
    (hn : j + turns ≤ n) (hleast : ∀ k, i < k → k < j → key (array i) ≤ key (array k)) :
    Rearranged i n array (settle key i array j turns) ∧
      ∀ k, i < k → k < j + turns →
        key (settle key i array j turns i) ≤ key (settle key i array j turns k) := by
  induction turns generalizing array j with
  | zero => exact ⟨.refl i n array, hleast⟩
  | succ turns ih =>
    have hturns : j + (turns + 1) = j + 1 + turns := by omega
    unfold settle
    rw [hturns]
    by_cases hgt : key (array i) > key (array j)
    · rw [if_pos hgt]
      have hi : swap array i j i = array j := by simp [swap_eq]
      have hleast' : ∀ k, i < k → k < j + 1 → key (swap array i j i) ≤ key (swap array i j k) := by
        intro k hik hkj
        rw [hi]
        by_cases hk : k = j
        · have hj : swap array i j k = array i := by simp [swap_eq, hk]
          rw [hj]
          exact hgt.le
        · have hsame : swap array i j k = array k := by
            rw [swap_eq, Function.comp_apply, Equiv.swap_apply_of_ne_of_ne (by omega) hk]
          rw [hsame]
          exact hgt.le.trans (hleast k hik (by omega))
      rcases ih (swap array i j) (j + 1) (by omega) (by omega) hleast' with ⟨hrest, horder⟩
      exact ⟨(Rearranged.of_swap array hij (by omega)).trans hrest, horder⟩
    · rw [if_neg hgt]
      apply ih array (j + 1) (by omega) (by omega)
      intro k hik hkj
      by_cases hk : k = j
      · rw [hk]
        exact le_of_not_gt hgt
      · exact hleast k hik (by omega)

/-- In turn `i` of the outer loop the entries before place `i` are the least ones, in order. -/
theorem sortFrom_spec {n : Nat} (array : Nat → α) (i turns : Nat) (hn : n ≤ i + turns + 1)
    (horder : ∀ j k, j < i → j < k → k < n → key (array j) ≤ key (array k)) :
    Rearranged 0 n array (sortFrom key n array i turns) ∧
      ∀ j k, j < k → k < n →
        key (sortFrom key n array i turns j) ≤ key (sortFrom key n array i turns k) := by
  induction turns generalizing array i with
  | zero =>
    refine ⟨.refl 0 n array, ?_⟩
    intro j k hjk hk
    exact horder j k (by omega) hjk hk
  | succ turns ih =>
    unfold sortFrom
    by_cases hi : i + 1 ≤ n
    · rcases settle_spec (n := n) key array (i + 1) (n - (i + 1)) (Nat.lt_succ_self i) (by omega)
        (fun k hik hk => absurd hk (by omega)) with ⟨hsettle, hleast⟩
      have hnext : ∀ j k, j < i + 1 → j < k → k < n →
          key (settle key i array (i + 1) (n - (i + 1)) j) ≤
            key (settle key i array (i + 1) (n - (i + 1)) k) := by
        intro j k hj hjk hk
        by_cases hji : j = i
        · subst hji
          exact hleast k hjk (by omega)
        · rw [hsettle.before (by omega)]
          by_cases hki : k < i
          · rw [hsettle.before hki]
            exact horder j k (by omega) hjk hk
          · rcases hsettle.exists_place (Nat.le_of_not_lt hki) hk with ⟨k', hik', hk', hsame⟩
            rw [hsame]
            exact horder j k' (by omega) (by omega) hk'
      rcases ih _ (i + 1) (by omega) hnext with ⟨hrest, hsorted⟩
      exact ⟨(hsettle.mono (Nat.zero_le i)).trans hrest, hsorted⟩
    · -- no entry is left
      have hnone : n - (i + 1) = 0 := by omega
      rw [hnone]
      apply ih array (i + 1) (by omega)
      intro j k hj hjk hk
      exact horder j k (by omega) hjk hk

/-- The sorted table holds the same entries. -/
theorem sort_perm (array : Nat → α) (n : Nat) :
    (entries (sort key array n) n).Perm (entries array n) :=
  (sortFrom_spec key array 0 (n - 1) (by omega) (fun _ _ hj => absurd hj (Nat.not_lt_zero _))).1.perm

/-- Its entries are in order. -/
theorem sort_sorted (array : Nat → α) (n : Nat) :
    (entries (sort key array n) n).Pairwise (fun a b => key a ≤ key b) := by
  unfold entries
  rw [List.pairwise_map]
  apply List.pairwise_lt_range.imp_of_mem
  intro j k _ hk hjk
  exact (sortFrom_spec key array 0 (n - 1) (by omega)
    (fun _ _ hj => absurd hj (Nat.not_lt_zero _))).2 j k hjk (List.mem_range.mp hk)

end Order

end CosKernel.ExchangeSort
