import CosKernel.Start.Handoff
import CosKernel.Vmm.PageTables

/-!
# The page tables of `boot.asm`, and the switch to those of the kernel

The tables of `_start` are tables of 1 GB pages as well: slot 0 of the PML4 and
the first four gigabytes. So the two sets of tables give the addresses below 4 GB
the same translation, and the assignment to `cr3` in `vmm_initialize` changes
nothing for the code and data in use.
-/

namespace CosKernel.Start

open X86Start Paging

/-! ## The memory `kernel_main` finds -/

section Writes

variable (flags : BitVec 32)

theorem writeEntries_of_outside {n : Nat} {a g : BitVec 32} {mem : Word → BitVec 32} {x : Word}
    (ha : a.toNat + 8 * n < 2 ^ 32) (hx : x.toNat < a.toNat ∨ a.toNat + 8 * n ≤ x.toNat) :
    writeEntries flags n a g mem x = mem x := by
  induction n generalizing a g mem with
  | zero => rfl
  | succ n ih =>
    have hnext : (a + 8).toNat = a.toNat + 8 := by bv_omega
    have hlow : x ≠ a.setWidth 64 := by bv_omega
    have hhigh : x ≠ (a + 4).setWidth 64 := by bv_omega
    unfold writeEntries
    rw [ih (by omega) (by omega), Function.update_of_ne hhigh, Function.update_of_ne hlow]

/-- Entry `k` of those written, its lower and its upper half. -/
theorem writeEntries_apply {n : Nat} {a : BitVec 32} {k : Nat} (ha : a.toNat + 8 * n < 2 ^ 32)
    (hk : k < n) (g : BitVec 32) (mem : Word → BitVec 32) (x : Word) :
    (x.toNat = a.toNat + 8 * k →
      writeEntries flags n a g mem x = g + BitVec.ofNat 32 k * 0x40000000 ||| flags) ∧
    (x.toNat = a.toNat + 8 * k + 4 → writeEntries flags n a g mem x = 0) := by
  induction n generalizing a g mem k with
  | zero => omega
  | succ n ih =>
    have hnext : (a + 8).toNat = a.toNat + 8 := by bv_omega
    unfold writeEntries
    cases k with
    | zero =>
      -- the later turns write behind this entry
      constructor
      · intro hx
        have hlow : x = a.setWidth 64 := by bv_omega
        have hhigh : x ≠ (a + 4).setWidth 64 := by bv_omega
        rw [writeEntries_of_outside flags (by omega) (by omega), Function.update_of_ne hhigh, hlow,
          Function.update_self]
        simp
      · intro hx
        have hhigh : x = (a + 4).setWidth 64 := by bv_omega
        rw [writeEntries_of_outside flags (by omega) (by omega), hhigh, Function.update_self]
    | succ k =>
      have hgig : g + 0x40000000 + BitVec.ofNat 32 k * 0x40000000 =
          g + BitVec.ofNat 32 (k + 1) * 0x40000000 := by
        rw [BitVec.ofNat_add, BitVec.add_mul, BitVec.add_assoc, BitVec.add_comm 0x40000000]
        rfl
      have hroom : (a + 8).toNat + 8 * n < 2 ^ 32 := by omega
      have hk' : k < n := by omega
      obtain ⟨hlow, hhigh⟩ := ih hroom hk' (g + 0x40000000)
        (Function.update (Function.update mem (a.setWidth 64) (g ||| flags)) ((a + 4).setWidth 64) 0)
      constructor
      · intro hx
        rw [hlow (by omega), hgig]
      · intro hx
        exact hhigh (by omega)

end Writes

variable (L : Layout)

/-- The two tables are zero, as all of `.bss` is when `_start` is entered. -/
def Zeroed (mem : Word → BitVec 32) : Prop :=
  ∀ x : Word, L.bootPml4.toNat ≤ x.toNat → x.toNat < L.bootPml4.toNat + 8192 → mem x = 0

/-- The words of the tables that `_start` writes are the first entry of the PML4
and the first four of the other table; the stack is below the tables. -/
theorem startMem_of_ge (returnAddress : Word) {mem : Word → BitVec 32} {x : Word}
    (hx : L.bootPml4.toNat ≤ x.toNat) :
    startMem L returnAddress mem x =
      Function.update (Function.update (writeEntries 0x83 4 L.bootPdpt 0 mem)
        (L.bootPml4.setWidth 64) (L.bootPdpt ||| 3)) ((L.bootPml4 + 4).setWidth 64) 0 x := by
  have hstack := L.stack_lt
  have htop := L.stackTop_le
  have hlow : x ≠ L.stackTop.setWidth 64 - 8 := by bv_omega
  have hhigh : x ≠ L.stackTop.setWidth 64 - 8 + 4 := by bv_omega
  unfold startMem
  rw [Function.update_of_ne hhigh, Function.update_of_ne hlow]

/-- A qword in memory. -/
def read64 (mem : Word → BitVec 32) (a : Word) : Word := mem (a + 4) ++ mem a

theorem toNat_read64 {mem : Word → BitVec 32} {a : Word} (hhigh : mem (a + 4) = 0) :
    (read64 mem a).toNat = (mem a).toNat := by
  unfold read64
  rw [hhigh, BitVec.toNat_append]
  simp

theorem read64_eq_zero {mem : Word → BitVec 32} {a : Word} (hhigh : mem (a + 4) = 0)
    (hlow : mem a = 0) : read64 mem a = 0 := by
  apply BitVec.eq_of_toNat_eq
  rw [toNat_read64 hhigh, hlow]
  rfl

section Tables

variable {L} (returnAddress : Word) {mem : Word → BitVec 32} {x : Word}

theorem startMem_pml4_zero (hx : x.toNat = L.bootPml4.toNat) :
    startMem L returnAddress mem x = L.bootPdpt ||| 3 ∧
      startMem L returnAddress mem (x + 4) = 0 := by
  have hpdpt := L.bootPdpt_eq
  have hlt := L.bootPdpt_lt
  have heq : x = L.bootPml4.setWidth 64 := by bv_omega
  have heq' : x + 4 = (L.bootPml4 + 4).setWidth 64 := by bv_omega
  have hne : L.bootPml4.setWidth 64 ≠ (L.bootPml4 + 4).setWidth 64 := by bv_omega
  constructor
  · rw [startMem_of_ge L _ (by omega), heq, Function.update_of_ne hne, Function.update_self]
  · rw [startMem_of_ge L _ (by bv_omega), heq', Function.update_self]

/-- Behind the first entry of the PML4, only the loop has written. -/
theorem startMem_of_gt (hx : L.bootPml4.toNat + 8 ≤ x.toNat) :
    startMem L returnAddress mem x = writeEntries 0x83 4 L.bootPdpt 0 mem x := by
  have hpdpt := L.bootPdpt_eq
  have hlt := L.bootPdpt_lt
  have hlow : x ≠ L.bootPml4.setWidth 64 := by bv_omega
  have hhigh : x ≠ (L.bootPml4 + 4).setWidth 64 := by bv_omega
  rw [startMem_of_ge L _ (by omega), Function.update_of_ne hhigh, Function.update_of_ne hlow]

/-- The rest of the tables is as it was. -/
theorem startMem_rest (hzero : Zeroed L mem) (hx : L.bootPml4.toNat + 8 ≤ x.toNat)
    (hx' : x.toNat < L.bootPdpt.toNat ∨ L.bootPdpt.toNat + 32 ≤ x.toNat)
    (hlt : x.toNat < L.bootPml4.toNat + 8192) : startMem L returnAddress mem x = 0 := by
  have hpdpt := L.bootPdpt_lt
  rw [startMem_of_gt returnAddress hx, writeEntries_of_outside _ (by omega) (by omega)]
  exact hzero x (by omega) hlt

end Tables

theorem toNat_wide (a : BitVec 32) : (a.setWidth 64 : Word).toNat = a.toNat := by
  bv_omega

theorem pml4_aligned : Aligned (L.bootPml4.setWidth 64) := by
  unfold Aligned
  rw [toNat_wide]
  exact L.aligned

theorem pdpt_aligned : Aligned (L.bootPdpt.setWidth 64) := by
  have haligned := L.aligned
  have hpdpt := L.bootPdpt_eq
  unfold Aligned
  rw [toNat_wide]
  omega

theorem frame_cr3 : frame (L.bootPml4.setWidth 64) = L.bootPml4.setWidth 64 := by
  have hlt := L.bootPml4.isLt
  apply frame_eq (pml4_aligned L) _ (by decide : 0 < 4096) rfl
  rw [toNat_wide]
  omega

/-- Slot 0 of the PML4. -/
theorem read64_slot (returnAddress : Word) (mem : Word → BitVec 32) :
    (read64 (startMem L returnAddress mem) (entry (L.bootPml4.setWidth 64) 0)).toNat =
      L.bootPdpt.toNat + 3 := by
  have haligned := L.aligned
  have hpdpt := L.bootPdpt_eq
  have haddr := toNat_entry (pml4_aligned L) (show 0 < 512 by decide)
  rw [toNat_wide] at haddr
  have hslot : startMem L returnAddress mem (entry (L.bootPml4.setWidth 64) 0) = L.bootPdpt ||| 3 ∧
      startMem L returnAddress mem (entry (L.bootPml4.setWidth 64) 0 + 4) = 0 :=
    startMem_pml4_zero returnAddress haddr
  rw [toNat_read64 hslot.2, hslot.1]
  exact toNat_or_flags (k := 12) (by omega) (by decide)

/-- The entries of the first four gigabytes. -/
theorem read64_page (returnAddress : Word) (mem : Word → BitVec 32) {i : Nat} (hi : i < 4) :
    (read64 (startMem L returnAddress mem) (entry (L.bootPdpt.setWidth 64) i)).toNat =
      i * 2 ^ 30 + 0x83 := by
  have hpdpt := L.bootPdpt_eq
  have hlt := L.bootPdpt_lt
  have haddr := toNat_entry (pdpt_aligned L) (show i < 512 by omega)
  rw [toNat_wide] at haddr
  have hroom : L.bootPdpt.toNat + 8 * 4 < 2 ^ 32 := by omega
  obtain ⟨hlow, -⟩ := writeEntries_apply 0x83 hroom hi 0 mem (entry (L.bootPdpt.setWidth 64) i)
  obtain ⟨-, hhigh⟩ :=
    writeEntries_apply 0x83 hroom hi 0 mem (entry (L.bootPdpt.setWidth 64) i + 4)
  have hgig : (0 + BitVec.ofNat 32 i * 0x40000000).toNat = i * 2 ^ 30 := by
    rw [zero_add, BitVec.toNat_mul, BitVec.toNat_ofNat]
    show i % 2 ^ 32 * 0x40000000 % 2 ^ 32 = _
    omega
  have hzero : startMem L returnAddress mem (entry (L.bootPdpt.setWidth 64) i + 4) = 0 := by
    rw [startMem_of_gt returnAddress (by bv_omega)]
    exact hhigh (by bv_omega)
  rw [toNat_read64 hzero, startMem_of_gt returnAddress (by omega), hlow haddr,
    toNat_or_flags (k := 12) (by rw [hgig]; omega) (by decide), hgig]
  rfl

/-- All other entries of both tables. -/
theorem read64_rest (returnAddress : Word) {mem : Word → BitVec 32} (hzero : Zeroed L mem)
    {a : Word} (ha : L.bootPml4.toNat + 8 ≤ a.toNat) (hlt : a.toNat + 8 ≤ L.bootPml4.toNat + 8192)
    (hout : a.toNat + 8 ≤ L.bootPdpt.toNat ∨ L.bootPdpt.toNat + 32 ≤ a.toNat) :
    read64 (startMem L returnAddress mem) a = 0 := by
  have hpml4 := L.bootPml4.isLt
  have hnext : (a + 4).toNat = a.toNat + 4 := by bv_omega
  apply read64_eq_zero
  · apply startMem_rest returnAddress hzero
    all_goals omega
  · apply startMem_rest returnAddress hzero
    all_goals omega

/-- The tables of `_start` are tables of 1 GB pages. -/
theorem gigabytes_start (returnAddress : Word) {mem : Word → BitVec 32} (hzero : Zeroed L mem) :
    Gigabytes (read64 (startMem L returnAddress mem)) (L.bootPml4.setWidth 64)
      (L.bootPdpt.setWidth 64) {0} 4 := by
  have hpdpt := L.bootPdpt_eq
  have hlt := L.bootPdpt_lt
  constructor
  · exact pdpt_aligned L
  · rw [toNat_wide]
    omega
  · intro i hi
    have hi0 : i = 0 := Finset.mem_singleton.mp hi
    subst hi0
    refine ⟨3, by decide, by decide, ?_⟩
    rw [frame_cr3, read64_slot, toNat_wide]
  · intro i hi hslot
    have hne : i ≠ 0 := fun h => hslot (Finset.mem_singleton.mpr h)
    have haddr := toNat_entry (pml4_aligned L) hi
    rw [toNat_wide] at haddr
    rw [frame_cr3]
    apply read64_rest L returnAddress hzero
    all_goals omega
  · intro i hi
    exact ⟨0x83, by decide, by decide, by decide, read64_page L returnAddress mem hi⟩
  · intro i hi hge
    have haddr := toNat_entry (pdpt_aligned L) hi
    rw [toNat_wide] at haddr
    apply read64_rest L returnAddress hzero
    all_goals omega

/-! ## Both sets of tables -/

/-- The translation that is intended: the first six gigabytes, at their own address
and in slot 256 of the PML4. -/
def intended (v : Word) : Option Word :=
  if v.toNat < 6 * 2 ^ 30 then some v
  else if 0xFFFF800000000000 ≤ v.toNat ∧ v.toNat < 0xFFFF800000000000 + 6 * 2 ^ 30 then
    some (v - 0xFFFF800000000000)
  else none

theorem walk_vmmInitialize {kernelPml4 kernelPdpt : Word} (h : Vmm.Placed kernelPml4 kernelPdpt)
    (mem : Word → Word) {v : Word} (hv : Canonical v) :
    walk (Vmm.vmmInitialize kernelPml4 kernelPdpt mem).1
      (Vmm.vmmInitialize kernelPml4 kernelPdpt mem).2 v = intended v := by
  rw [walk_gigabytes (Vmm.gigabytes_vmmInitialize h mem) (by decide)]
  have hlt := v.isLt
  unfold Canonical at hv
  unfold intended
  -- slot 0 is the first, slot 256 the middle one of all 512
  by_cases hlow : v.toNat < 6 * 2 ^ 30
  · have hcond : bits v 39 9 ∈ ({0, 256} : Finset Nat) ∧ bits v 30 9 < 6 := by
      simp only [bits, Finset.mem_insert, Finset.mem_singleton]
      omega
    rw [if_pos hcond, if_pos hlow]
    congr 1
    apply BitVec.eq_of_toNat_eq
    rw [BitVec.toNat_ofNat]
    unfold bits
    omega
  · rw [if_neg hlow]
    by_cases hhigh : 0xFFFF800000000000 ≤ v.toNat ∧ v.toNat < 0xFFFF800000000000 + 6 * 2 ^ 30
    · have hcond : bits v 39 9 ∈ ({0, 256} : Finset Nat) ∧ bits v 30 9 < 6 := by
        simp only [bits, Finset.mem_insert, Finset.mem_singleton]
        omega
      rw [if_pos hcond, if_pos hhigh]
      congr 1
      apply BitVec.eq_of_toNat_eq
      have hsub : (v - 0xFFFF800000000000).toNat = v.toNat - 0xFFFF800000000000 := by bv_omega
      rw [hsub, BitVec.toNat_ofNat]
      unfold bits
      omega
    · have hcond : ¬(bits v 39 9 ∈ ({0, 256} : Finset Nat) ∧ bits v 30 9 < 6) := by
        simp only [bits, Finset.mem_insert, Finset.mem_singleton]
        omega
      rw [if_neg hcond, if_neg hhigh]

theorem walk_start (returnAddress : Word) {mem : Word → BitVec 32} (hzero : Zeroed L mem)
    {v : Word} (hv : v.toNat < 4 * 2 ^ 30) :
    walk (read64 (startMem L returnAddress mem)) (L.bootPml4.setWidth 64) v = some v := by
  rw [walk_gigabytes (gigabytes_start L returnAddress hzero) (by decide)]
  have hcond : bits v 39 9 ∈ ({0} : Finset Nat) ∧ bits v 30 9 < 4 := by
    simp only [bits, Finset.mem_singleton]
    omega
  rw [if_pos hcond]
  congr 1
  apply BitVec.eq_of_toNat_eq
  rw [BitVec.toNat_ofNat]
  unfold bits
  omega

/-- The tables of `vmm_initialize` define the intended translation, and for the
addresses below 4 GB it is that of the tables with which `_start` enters
`kernel_main`. -/
theorem page_tables_agree (returnAddress : Word) (c : Cpu) (hzero : Zeroed L c.mem)
    {kernelPml4 kernelPdpt : Word} (h : Vmm.Placed kernelPml4 kernelPdpt) (mem : Word → Word) :
    (∀ v, Canonical v →
      walk (Vmm.vmmInitialize kernelPml4 kernelPdpt mem).1
        (Vmm.vmmInitialize kernelPml4 kernelPdpt mem).2 v = intended v) ∧
    ∃ c', (∀ fuel ≥ 4, start L returnAddress fuel c = some c') ∧
      ∀ v : Word, v.toNat < 4 * 2 ^ 30 →
        walk (read64 c'.mem) ((c'.cr .cr3).setWidth 64) v =
          walk (Vmm.vmmInitialize kernelPml4 kernelPdpt mem).1
            (Vmm.vmmInitialize kernelPml4 kernelPdpt mem).2 v := by
  obtain ⟨c', hstart, -, -, hcr3, hmem⟩ := start_spec L returnAddress c
  constructor
  · intro v hv
    exact walk_vmmInitialize h mem hv
  · refine ⟨c', hstart, ?_⟩
    intro v hv
    have hcanonical : Canonical v := by
      left
      omega
    rw [hcr3, hmem, walk_start L returnAddress hzero hv, walk_vmmInitialize h mem hcanonical]
    unfold intended
    rw [if_pos (by omega)]

theorem zeroed_bootedCpu : Zeroed lowLayout bootedCpu.mem := by
  intro x _ _
  rfl

/-- An address in slot 256. -/
theorem page_tables_agree_slot_256 :
    walk (Vmm.vmmInitialize 0x200000 0x201000 (fun _ => 0)).1
      (Vmm.vmmInitialize 0x200000 0x201000 (fun _ => 0)).2 0xFFFF800140001234 =
        some 0x140001234 := by
  have hplaced : Vmm.Placed 0x200000 0x201000 := by
    constructor
    all_goals decide
  have h := page_tables_agree lowLayout 0x100200 bootedCpu zeroed_bootedCpu hplaced (fun _ => 0)
  rw [h.1 0xFFFF800140001234 (by decide)]
  decide

end CosKernel.Start
