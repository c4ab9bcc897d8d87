import CosKernel.Vmm.Model

/-!
# The page tables of `vmm_initialize`

They are tables of 1 GB pages: slots 0 and 256 of the PML4 share one
page-directory-pointer table, whose first six entries map the first six
gigabytes.
-/

namespace CosKernel.Vmm

open Paging

/-- Where the two tables may lie: on page boundaries below 4 GB, and apart. -/
structure Placed (kernelPml4 kernelPdpt : Word) : Prop where
  pml4_aligned : Aligned kernelPml4
  pml4_lt : kernelPml4.toNat < 2 ^ 32
  pdpt_aligned : Aligned kernelPdpt
  pdpt_lt : kernelPdpt.toNat < 2 ^ 32
  ne : kernelPml4 ≠ kernelPdpt

section Tables

variable {kernelPml4 kernelPdpt : Word}

/-- After `n` turns of the first loop, the first `n` entries of both tables are 0. -/
theorem clear_apply (mem : Word → Word) {n i : Nat} (hi : i < n) {table : Word}
    (htable : table = kernelPml4 ∨ table = kernelPdpt) :
    (List.range n).foldl
      (fun mem i => Function.update (Function.update mem (entry kernelPml4 i) 0) (entry kernelPdpt i) 0)
      mem (entry table i) = 0 := by
  induction n with
  | zero => omega
  | succ n ih =>
    rw [List.range_succ, List.foldl_append]
    show Function.update (Function.update _ (entry kernelPml4 n) 0) (entry kernelPdpt n) 0 _ = 0
    by_cases hpdpt : entry table i = entry kernelPdpt n
    · rw [hpdpt, Function.update_self]
    · rw [Function.update_of_ne hpdpt]
      by_cases hpml4 : entry table i = entry kernelPml4 n
      · rw [hpml4, Function.update_self]
      · rw [Function.update_of_ne hpml4]
        apply ih
        -- entry `n` of either table was just written
        have hne : i ≠ n := by
          intro heq
          rw [heq] at hpdpt hpml4
          rcases htable with rfl | rfl
          · exact hpml4 rfl
          · exact hpdpt rfl
        omega

variable (h : Placed kernelPml4 kernelPdpt)
include h

/-- After `n` turns of the second loop, the first `n` entries map their gigabyte. -/
theorem mapGigabytes_pdpt (mem : Word → Word) {n i : Nat} (hn : n ≤ 512) (hi : i < 512) :
    mapGigabytes kernelPdpt n mem (entry kernelPdpt i) =
      if i < n then BitVec.ofNat 64 i * 0x40000000 ||| defaultFlags ||| pteHuge
      else mem (entry kernelPdpt i) := by
  unfold mapGigabytes
  induction n with
  | zero => rfl
  | succ n ih =>
    rw [List.range_succ, List.foldl_append]
    show Function.update _ (entry kernelPdpt n) _ _ = _
    by_cases hin : i = n
    · subst hin
      rw [Function.update_self, if_pos (Nat.lt_succ_self i)]
    · have hne : entry kernelPdpt i ≠ entry kernelPdpt n := by
        intro heq
        exact hin (entry_inj h.pdpt_aligned h.pdpt_aligned hi (by omega) heq).2
      rw [Function.update_of_ne hne, ih (by omega)]
      by_cases hlt : i < n
      · rw [if_pos hlt, if_pos (by omega)]
      · rw [if_neg hlt, if_neg (by omega)]

/-- The second loop writes to the other table only. -/
theorem mapGigabytes_pml4 (mem : Word → Word) {n i : Nat} (hn : n ≤ 512) (hi : i < 512) :
    mapGigabytes kernelPdpt n mem (entry kernelPml4 i) = mem (entry kernelPml4 i) := by
  unfold mapGigabytes
  induction n with
  | zero => rfl
  | succ n ih =>
    rw [List.range_succ, List.foldl_append]
    show Function.update _ (entry kernelPdpt n) _ _ = _
    have hne : entry kernelPml4 i ≠ entry kernelPdpt n := by
      intro heq
      exact h.ne (entry_inj h.pml4_aligned h.pdpt_aligned hi (by omega) heq).1
    rw [Function.update_of_ne hne, ih (by omega)]

theorem vmmInitialize_pml4 (mem : Word → Word) {i : Nat} (hi : i < 512) :
    (vmmInitialize kernelPml4 kernelPdpt mem).1 (entry kernelPml4 i) =
      if i = 0 ∨ i = 256 then kernelPdpt ||| defaultFlags else 0 := by
  show mapGigabytes kernelPdpt 6 _ _ = _
  rw [mapGigabytes_pml4 h _ (by decide) hi]
  have hinj : ∀ j < 512, i ≠ j → entry kernelPml4 i ≠ entry kernelPml4 j := by
    intro j hj hne heq
    exact hne (entry_inj h.pml4_aligned h.pml4_aligned hi hj heq).2
  by_cases h256 : i = 256
  · subst h256
    rw [Function.update_self, if_pos (Or.inr rfl)]
  · rw [Function.update_of_ne (hinj 256 (by decide) h256)]
    by_cases h0 : i = 0
    · subst h0
      rw [Function.update_self, if_pos (Or.inl rfl)]
    · rw [Function.update_of_ne (hinj 0 (by decide) h0), if_neg (by omega)]
      exact clear_apply mem hi (Or.inl rfl)

theorem vmmInitialize_pdpt (mem : Word → Word) {i : Nat} (hi : i < 512) :
    (vmmInitialize kernelPml4 kernelPdpt mem).1 (entry kernelPdpt i) =
      if i < 6 then BitVec.ofNat 64 i * 0x40000000 ||| defaultFlags ||| pteHuge else 0 := by
  show mapGigabytes kernelPdpt 6 _ _ = _
  rw [mapGigabytes_pdpt h _ (by decide) hi]
  by_cases hlt : i < 6
  · rw [if_pos hlt, if_pos hlt]
  · have hne : ∀ j < 512, entry kernelPdpt i ≠ entry kernelPml4 j := by
      intro j hj heq
      exact h.ne (entry_inj h.pdpt_aligned h.pml4_aligned hi hj heq).1.symm
    rw [if_neg hlt, if_neg hlt, Function.update_of_ne (hne 256 (by decide)),
      Function.update_of_ne (hne 0 (by decide))]
    exact clear_apply mem hi (Or.inr rfl)

/-- The tables are tables of 1 GB pages. -/
theorem gigabytes_vmmInitialize (mem : Word → Word) :
    Gigabytes (vmmInitialize kernelPml4 kernelPdpt mem).1 (vmmInitialize kernelPml4 kernelPdpt mem).2
      kernelPdpt {0, 256} 6 := by
  have hpml4 : kernelPml4.toNat < 2 ^ 52 := by
    have := h.pml4_lt
    omega
  have hframe : frame (vmmInitialize kernelPml4 kernelPdpt mem).2 = kernelPml4 :=
    frame_eq h.pml4_aligned hpml4 (by decide : 0 < 4096) rfl
  constructor
  · exact h.pdpt_aligned
  · have := h.pdpt_lt
    omega
  · intro i hi
    have hslot : i = 0 ∨ i = 256 := by simpa using hi
    refine ⟨defaultFlags.toNat, by decide, by decide, ?_⟩
    rw [hframe, vmmInitialize_pml4 h mem (by omega), if_pos hslot]
    exact toNat_or_flags (k := 12) h.pdpt_aligned (by decide)
  · intro i hi hslot
    rw [hframe, vmmInitialize_pml4 h mem hi, if_neg (by simpa using hslot)]
  · intro i hi
    refine ⟨(defaultFlags ||| pteHuge).toNat, by decide, by decide, by decide, ?_⟩
    have hphys : (BitVec.ofNat 64 i * 0x40000000).toNat = i * 2 ^ 30 := by
      rw [BitVec.toNat_mul, BitVec.toNat_ofNat]
      show i % 2 ^ 64 * 0x40000000 % 2 ^ 64 = _
      omega
    rw [vmmInitialize_pdpt h mem (by omega), if_pos hi, BitVec.or_assoc,
      toNat_or_flags (k := 12) (by rw [hphys]; omega) (by decide), hphys]
  · intro i hi hge
    rw [vmmInitialize_pdpt h mem hi, if_neg (by omega)]

end Tables

end CosKernel.Vmm
