import Mathlib

/-!
# Pools

A set of free things of which the least is taken. What repeated takes give are
the things in increasing order, and then nothing.
-/

namespace CosKernel.Pool

universe u

variable {ι : Type u} [LinearOrder ι]

/-- Take the least of the free things. -/
def take (free : Finset ι) : Option ι × Finset ι :=
  if h : free.Nonempty then (some (free.min' h), free.erase (free.min' h)) else (none, free)

/-- Several takes. -/
def takes : Nat → Finset ι → List (Option ι) × Finset ι
  | 0, free => ([], free)
  | n + 1, free => ((take free).1 :: (takes n (take free).2).1, (takes n (take free).2).2)

theorem take_least {free : Finset ι} {a : ι} (ha : a ∈ free) (hle : ∀ b ∈ free, a ≤ b) :
    take free = (some a, free.erase a) := by
  have hmin : free.min' ⟨a, ha⟩ = a := le_antisymm (free.min'_le a ha) (hle _ (free.min'_mem ⟨a, ha⟩))
  unfold take
  rw [dif_pos ⟨a, ha⟩, hmin]

theorem take_empty : take (∅ : Finset ι) = (none, ∅) := dif_neg Finset.not_nonempty_empty

theorem takes_empty (n : Nat) : takes n (∅ : Finset ι) = (List.replicate n none, ∅) := by
  induction n with
  | zero => rfl
  | succ n ih =>
    unfold takes
    rw [take_empty, ih]
    rfl

/-- The takes give the least things, in increasing order, as long as there are any. -/
theorem takes_eq (n : Nat) (free : Finset ι) :
    (takes n free).1 = (free.sort.map some ++ List.replicate n none).take n ∧
      (takes n free).2 = (free.sort.drop n).toFinset := by
  induction n generalizing free with
  | zero => exact ⟨rfl, (Finset.sort_toFinset _ _).symm⟩
  | succ n ih =>
    rcases free.eq_empty_or_nonempty with rfl | hne
    · rw [takes_empty]
      simp
    · have hmin := free.min'_mem hne
      have hlt : ∀ b ∈ free.erase (free.min' hne), free.min' hne ≤ b :=
        fun b hb => free.min'_le b (Finset.mem_of_mem_erase hb)
      have hsort : free.sort = free.min' hne :: (free.erase (free.min' hne)).sort := by
        conv_lhs => rw [← Finset.insert_erase hmin]
        exact Finset.sort_insert _ hlt (Finset.notMem_erase _ _)
      have htake := take_least hmin fun b hb => free.min'_le b hb
      rcases ih (free.erase (free.min' hne)) with ⟨hfirst, hrest⟩
      unfold takes
      rw [htake]
      refine ⟨?_, ?_⟩
      · simp only [hsort, hfirst, List.map_cons, List.cons_append, List.take_succ_cons, List.cons.injEq, true_and]
        rw [List.replicate_succ', ← List.append_assoc]
        exact (List.take_append_of_le_length (by simp)).symm
      · simp only [hsort, hrest, List.drop_succ_cons]

end CosKernel.Pool
