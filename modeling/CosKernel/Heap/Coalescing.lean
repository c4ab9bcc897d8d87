import CosKernel.Heap.Undo
import CosKernel.Lib.Pairing

/-!
# Coalescing again and again

Read as a row of sizes, with 0 for a block that is used or dead, the blocks are
passed once by each `heap_coalesce`: two neighbours of 1 MB become one of 2 MB
and a dead one (`row_heapCoalesce`). The dead block stays in the array, so blocks
of 2 MB that touch are never neighbours in it and are not merged. After the first
pass nothing changes any more, so what one pass leaves apart stays apart.
-/

namespace CosKernel.Heap

open Allocator

/-! ## Blocks that could be merged -/

/-- Two unused blocks of one size, the second behind the first in memory. -/
def Uncoalesced (h : HeapState) : Prop :=
  ∃ b b' : Fin buddyBlocksMax, (h.buddyBlocks b).used = false ∧ (h.buddyBlocks b').used = false ∧
    (h.buddyBlocks b).size = (h.buddyBlocks b').size ∧ (h.buddyBlocks b).size ≠ 0 ∧
    (h.buddyBlocks b).address + (h.buddyBlocks b).size = (h.buddyBlocks b').address

/-- The bytes of the unused blocks. -/
def unusedBytes (h : HeapState) : Nat :=
  ∑ b : Fin buddyBlocksMax, if (h.buddyBlocks b).used then 0 else (h.buddyBlocks b).size

/-- An unused block of this size. -/
def Free (h : HeapState) (i size : Nat) : Prop :=
  i < buddyBlocksMax ∧ (h.buddyBlocks i).used = false ∧ (h.buddyBlocks i).size = size

/-- The unused blocks that a pass leaves as blocks of 2 MB that touch: two of 2 MB, four of 1 MB in a
row, one of 2 MB with a pair of 1 MB behind it, or with exactly a pair of 1 MB in front of it. -/
def Stuck (h : HeapState) : Prop :=
  ∃ i, (Free h i 0x200000 ∧ Free h (i + 2) 0x200000) ∨
    (Free h i 0x100000 ∧ Free h (i + 1) 0x100000 ∧ Free h (i + 2) 0x100000 ∧ Free h (i + 3) 0x100000) ∨
    (Free h i 0x200000 ∧ Free h (i + 2) 0x100000 ∧ Free h (i + 3) 0x100000) ∨
    ((i = 0 ∨ ¬ Free h (i - 1) 0x100000) ∧ Free h i 0x100000 ∧ Free h (i + 1) 0x100000 ∧
      Free h (i + 2) 0x200000)

/-! ## The row of sizes -/

/-- The size of an unused block; 0 where there is none. -/
def row (h : HeapState) (i : Nat) : Nat :=
  if i < buddyBlocksMax ∧ (h.buddyBlocks i).used = false then (h.buddyBlocks i).size else 0

theorem row_eq_iff {h : HeapState} {i size : Nat} (hsize : size ≠ 0) : row h i = size ↔ Free h i size := by
  unfold row Free
  by_cases hfree : i < buddyBlocksMax ∧ (h.buddyBlocks i).used = false
  · rw [if_pos hfree]
    simp [hfree.1, hfree.2]
  · rw [if_neg hfree]
    constructor
    · intro h0
      exact absurd h0.symm hsize
    · rintro ⟨hlt, hun, -⟩
      exact absurd ⟨hlt, hun⟩ hfree

theorem stuck_iff (h : HeapState) : Stuck h ↔ Pairing.DoubleDouble 0x100000 0x200000 (row h) := by
  have h₁ : ∀ i, Free h i 0x100000 ↔ row h i = 0x100000 := fun i => (row_eq_iff (by norm_num)).symm
  have h₂ : ∀ i, Free h i 0x200000 ↔ row h i = 0x200000 := fun i => (row_eq_iff (by norm_num)).symm
  unfold Stuck Pairing.DoubleDouble
  simp only [h₁, h₂, ne_eq]

theorem row_of_le {h : HeapState} {i : Nat} (hi : buddyBlocksMax ≤ i) : row h i = 0 :=
  if_neg fun hfree => absurd hfree.1 (not_lt.2 hi)

/-- A merge is possible where two neighbours of the row have their initial size. -/
theorem mergeable_iff {h : HeapState} (hinv : Inv h) {i : Nat} (hi : i + 1 < buddyBlocksMax) :
    mergeable i h = true ↔ row h i = 0x100000 ∧ row h (i + 1) = 0x100000 := by
  rw [row_eq_iff (by norm_num), row_eq_iff (by norm_num)]
  constructor
  · intro hm
    rcases hinv.mergeable_size hi hm with ⟨hu₁, hu₂, hs₁, hs₂⟩
    exact ⟨⟨by omega, hu₁, hs₁⟩, hi, hu₂, hs₂⟩
  · rintro ⟨⟨hlt, hu₁, hs₁⟩, -, hu₂, hs₂⟩
    have ha₁ : (h.buddyBlocks i).address = 0x200000 + i * 0x100000 := hinv.address (.buddy ⟨i, hlt⟩)
    have ha₂ : (h.buddyBlocks (i + 1)).address = 0x200000 + (i + 1) * 0x100000 :=
      hinv.address (.buddy ⟨i + 1, hi⟩)
    simp only [buddyBlocksMax] at hi
    unfold mergeable
    rw [hu₁, hu₂, hs₁, hs₂, ha₁, ha₂]
    simp only [Bool.not_false, Bool.true_and, decide_true, Bool.and_true, decide_eq_true_eq]
    -- the sum stays below the end of the last block
    omega

theorem row_merge {h : HeapState} {i : Nat} (hi : i + 1 < buddyBlocksMax)
    (h₁ : Free h i 0x100000) (h₂ : Free h (i + 1) 0x100000) :
    row (merge i h) = Function.update (Function.update (row h) i 0x200000) (i + 1) 0 := by
  rcases chunk_merge hi h₁.2.2 with ⟨hleft, hright, hrest⟩
  have hleft' : (merge i h).buddyBlocks i = { h.buddyBlocks i with size := 0x200000 } := hleft
  have hright' : (merge i h).buddyBlocks (i + 1) = { h.buddyBlocks (i + 1) with size := 0, owner := "Merged" } :=
    hright
  funext j
  by_cases hj : j = i + 1
  · subst hj
    unfold row
    rw [Function.update_self, hright']
    simp
  rw [Function.update_of_ne hj]
  by_cases hji : j = i
  · subst hji
    unfold row
    rw [Function.update_self, hleft', if_pos ⟨h₁.1, h₁.2.1⟩]
  · rw [Function.update_of_ne hji]
    by_cases hlt : j < buddyBlocksMax
    · have hsame : (merge i h).buddyBlocks j = h.buddyBlocks j :=
        hrest (.buddy ⟨j, hlt⟩) (by simpa using hji) (by simpa using hj)
      unfold row
      rw [hsame]
    · rw [row_of_le (not_lt.1 hlt), row_of_le (not_lt.1 hlt)]

/-- A turn of the loop is a turn of the pass over the row. -/
theorem row_coalesceAt {h : HeapState} (hinv : Inv h) {i : Nat} (hi : i + 1 < buddyBlocksMax) :
    row (coalesceAt h i) = Pairing.joinAt 0x100000 0x200000 0 (row h) i := by
  unfold coalesceAt Pairing.joinAt
  by_cases hm : mergeable i h = true
  · have hrow := (mergeable_iff hinv hi).1 hm
    rw [if_pos hm, if_pos hrow]
    exact row_merge hi ((row_eq_iff (by norm_num)).1 hrow.1) ((row_eq_iff (by norm_num)).1 hrow.2)
  · rw [if_neg hm, if_neg (mt (mergeable_iff hinv hi).2 hm)]

theorem row_heapCoalesce {h : HeapState} (hinv : Inv h) :
    row (heapCoalesce h) = Pairing.pass 0x100000 0x200000 0 63 (row h) := by
  have hcount : (h.buddyBlockCount - 1).toNat = 63 := by
    rw [hinv.count]
    rfl
  have hloop : ∀ n, n ≤ 63 → Inv ((List.range n).foldl coalesceAt h) ∧
      row ((List.range n).foldl coalesceAt h) = Pairing.pass 0x100000 0x200000 0 n (row h) := by
    intro n
    induction n with
    | zero => exact fun _ => ⟨hinv, rfl⟩
    | succ n ih =>
      intro hn
      rcases ih (by omega) with ⟨hinv', hrow⟩
      have hi : n + 1 < buddyBlocksMax := by
        simp only [buddyBlocksMax]
        omega
      rw [List.range_succ, List.foldl_append, List.foldl_cons, List.foldl_nil]
      refine ⟨(coalesceAt_inv hinv' hi).1, ?_⟩
      rw [row_coalesceAt hinv' hi, hrow]
      unfold Pairing.pass
      rw [List.range_succ, List.foldl_append]
      rfl
  unfold heapCoalesce
  rw [hcount]
  exact (hloop 63 le_rfl).2

/-- The row ends with the array. -/
theorem row_end (h : HeapState) (i : Nat) (hi : 63 < i) : row h i ≠ 0x100000 := by
  rw [row_of_le (by simp only [buddyBlocksMax]; omega)]
  norm_num

/-! ## The total -/

theorem unusedBytes_eq (h : HeapState) : unusedBytes h = ∑ i ∈ Finset.range buddyBlocksMax, row h i := by
  rw [← Fin.sum_univ_eq_sum_range (row h) buddyBlocksMax]
  unfold unusedBytes
  apply Finset.sum_congr rfl
  intro b _
  unfold row
  rcases hused : (h.buddyBlocks b).used with _ | _
  · simp
  · simp

/-- A merge moves bytes from one block to its neighbour. -/
theorem sum_joinAt (r : Nat → Nat) {i n : Nat} (hi : i + 1 < n) :
    ∑ j ∈ Finset.range n, Pairing.joinAt 0x100000 0x200000 0 r i j = ∑ j ∈ Finset.range n, r j := by
  unfold Pairing.joinAt
  by_cases hpair : r i = 0x100000 ∧ r (i + 1) = 0x100000
  swap
  · rw [if_neg hpair]
  rw [if_pos hpair]
  have hmem : i + 1 ∈ Finset.range n := Finset.mem_range.2 hi
  have hmem' : i ∈ (Finset.range n).erase (i + 1) :=
    Finset.mem_erase.2 ⟨by omega, Finset.mem_range.2 (by omega)⟩
  -- both sums without the two cells are the same
  rw [← Finset.add_sum_erase _ _ hmem, ← Finset.add_sum_erase _ _ hmem', ← Finset.add_sum_erase _ r hmem,
    ← Finset.add_sum_erase _ r hmem', Function.update_self, Function.update_of_ne (by omega),
    Function.update_self, hpair.1, hpair.2]
  have hrest : ∑ j ∈ ((Finset.range n).erase (i + 1)).erase i,
      Function.update (Function.update r i 0x200000) (i + 1) 0 j =
        ∑ j ∈ ((Finset.range n).erase (i + 1)).erase i, r j := by
    apply Finset.sum_congr rfl
    intro j hj
    rw [Finset.mem_erase, Finset.mem_erase] at hj
    rw [Function.update_of_ne hj.2.1, Function.update_of_ne hj.1]
  rw [hrest]
  omega

theorem unusedBytes_heapCoalesce {h : HeapState} (hinv : Inv h) :
    unusedBytes (heapCoalesce h) = unusedBytes h := by
  refine (heapCoalesce_rule (P := fun t => unusedBytes t = unusedBytes h) hinv rfl ?_).2
  intro t i hi hinv' ht
  rw [← ht, unusedBytes_eq, unusedBytes_eq, row_coalesceAt hinv' hi]
  exact sum_joinAt (row t) hi

/-! ## Sizes -/

/-- Blocks never grow beyond 2 MB: only blocks of 1 MB are merged. -/
def Small (h : HeapState) : Prop := ∀ b : Fin buddyBlocksMax, (h.chunk (.buddy b)).size ≤ 0x200000

theorem small_update {h h' : HeapState} {p : Pos} {c : Chunk} (hsmall : Small h)
    (hchunk : h'.chunk = Function.update h.chunk p c)
    (hc : (∃ b, p = .buddy b) → c.size ≤ (h.chunk p).size) : Small h' := by
  intro b
  rw [hchunk]
  by_cases hb : Pos.buddy b = p
  · subst hb
    rw [Function.update_self]
    exact (hc ⟨b, rfl⟩).trans (hsmall b)
  · rw [Function.update_of_ne hb]
    exact hsmall b

theorem coalesceAt_small {h : HeapState} (hinv : Inv h) {i : Nat} (hi : i + 1 < buddyBlocksMax)
    (hsmall : Small h) : Small (coalesceAt h i) := by
  unfold coalesceAt
  by_cases hm : mergeable i h = true
  swap
  · rw [if_neg hm]
    exact hsmall
  rw [if_pos hm]
  intro b
  rw [size_merge hi (hinv.mergeable_size hi hm).2.2.1]
  split
  · exact le_rfl
  · split
    · exact Nat.zero_le _
    · exact hsmall b

theorem step_small {s : History} (hinv : Inv s.heap) (hsmall : Small s.heap) (c : Call) :
    Small (step s c).heap := by
  cases c with
  | kmalloc size owner =>
    rcases kmalloc_cases hinv size owner with ⟨p, -, -, hle, hk⟩ | ⟨-, hk⟩
    · simp only [step, hk]
      apply small_update hsmall (chunk_takeAt s.heap size owner p)
      rintro ⟨b, rfl⟩
      rcases hle with hle | ⟨c, i, hslab, -⟩
      · exact hle
      · cases hslab
    · simp only [step, hk]
      exact hsmall
  | kfree addr =>
    rcases kfree_cases hinv addr with ⟨p, -, -, hk⟩ | ⟨-, hk⟩
    · simp only [step, hk]
      rcases chunk_freeAt s.heap p with ⟨c, hchunk, -, -, hle⟩
      exact small_update hsmall hchunk fun _ => hle
    · simp only [step, hk]
      exact hsmall
  | heapCoalesce =>
    exact (heapCoalesce_rule (P := Small) hinv hsmall fun h i hi hinv hs => coalesceAt_small hinv hi hs).2

/-- What the analysis of a pass needs of a state. -/
structure Fit (h : HeapState) : Prop where
  inv : Inv h
  small : Small h

theorem Fit.heapCoalesce {h : HeapState} (hfit : Fit h) : Fit (heapCoalesce h) := by
  refine ⟨(heapCoalesce_inv hfit.inv).1, ?_⟩
  exact step_small (s := ⟨h, []⟩) hfit.inv hfit.small .heapCoalesce

theorem run_fit (calls : List Call) : Fit (run calls).heap := by
  have hinit : Fit heapInitialize := ⟨heapInitialize_inv, fun b => by show 0x100000 ≤ 0x200000; norm_num⟩
  have hstep : ∀ s c, (Refines s ∧ Small s.heap) → Refines (step s c) ∧ Small (step s c).heap := by
    rintro s c ⟨href, hsmall⟩
    exact ⟨(step_refines href c).1, step_small href.inv hsmall c⟩
  have hrun := Run.foldl_invariant _ hstep ⟨refines_init, hinit.small⟩ calls
  exact ⟨hrun.1.inv, hrun.2⟩

/-- A block of 2 MB covers the memory of the block behind it, which is dead. -/
theorem Fit.dead_behind {h : HeapState} (hfit : Fit h) (i : Nat) (hi : row h i = 0x200000) :
    row h (i + 1) ≠ 0x100000 := by
  intro hnext
  rw [row_eq_iff (by norm_num)] at hi hnext
  have hgap := hfit.inv.gap ⟨i, hi.1⟩ ⟨i + 1, hnext.1⟩ (Fin.lt_def.2 (Nat.lt_succ_self i))
  have hs : (h.chunk (.buddy ⟨i, hi.1⟩)).size = 0x200000 := hi.2.2
  have hs' : (h.chunk (.buddy ⟨i + 1, hnext.1⟩)).size = 0x100000 := hnext.2.2
  rw [hs, hs', base_buddy, base_buddy] at hgap
  simp only at hgap
  omega

/-- Blocks that touch and have one size are neighbours of 1 MB, or of 2 MB with a dead block in between. -/
theorem Fit.uncoalesced_iff {h : HeapState} (hfit : Fit h) :
    Uncoalesced h ↔ (∃ i, row h i = 0x100000 ∧ row h (i + 1) = 0x100000) ∨
      ∃ i, row h i = 0x200000 ∧ row h (i + 2) = 0x200000 := by
  have haddr : ∀ b : Fin buddyBlocksMax, (h.buddyBlocks b).address = 0x200000 + b.val * 0x100000 :=
    fun b => hfit.inv.address (.buddy b)
  simp only [row_eq_iff (show (0x100000 : Nat) ≠ 0 by norm_num), row_eq_iff (show (0x200000 : Nat) ≠ 0 by norm_num)]
  constructor
  · rintro ⟨b, b', hu, hu', hsize, hpos, htouch⟩
    have hle : (h.buddyBlocks b).size ≤ 0x200000 := hfit.small b
    rw [haddr, haddr] at htouch
    -- a multiple of 1 MB, and at most two
    have hsteps : ((h.buddyBlocks b).size = 0x100000 ∧ b'.val = b.val + 1) ∨
        ((h.buddyBlocks b).size = 0x200000 ∧ b'.val = b.val + 2) := by omega
    rcases hsteps with ⟨hs, hb⟩ | ⟨hs, hb⟩
    · exact Or.inl ⟨b, ⟨b.isLt, hu, hs⟩, hb ▸ ⟨b'.isLt, hu', hsize ▸ hs⟩⟩
    · exact Or.inr ⟨b, ⟨b.isLt, hu, hs⟩, hb ▸ ⟨b'.isLt, hu', hsize ▸ hs⟩⟩
  · rintro (⟨i, ⟨hi, hu, hs⟩, hi', hu', hs'⟩ | ⟨i, ⟨hi, hu, hs⟩, hi', hu', hs'⟩)
    · refine ⟨⟨i, hi⟩, ⟨i + 1, hi'⟩, hu, hu', hs.trans hs'.symm, ?_, ?_⟩
      · simp only
        omega
      · rw [haddr, haddr]
        simp only
        omega
    · refine ⟨⟨i, hi⟩, ⟨i + 2, hi'⟩, hu, hu', hs.trans hs'.symm, ?_, ?_⟩
      · simp only
        omega
      · rw [haddr, haddr]
        simp only
        omega

/-! ## Passes -/

section Passes

variable {h : HeapState} (hfit : Fit h)
include hfit

theorem Fit.iterate (n : Nat) : Fit (Heap.heapCoalesce^[n] h) := by
  induction n with
  | zero => exact hfit
  | succ n ih =>
    rw [Function.iterate_succ_apply']
    exact ih.heapCoalesce

/-- After the first pass there is nothing left to merge for the others. -/
theorem Fit.row_iterate (n : Nat) :
    row (Heap.heapCoalesce^[n + 1] h) = Pairing.pass 0x100000 0x200000 0 63 (row h) := by
  induction n with
  | zero => exact row_heapCoalesce hfit.inv
  | succ n ih =>
    rw [Function.iterate_succ_apply', row_heapCoalesce (hfit.iterate (n + 1)).inv, ih]
    apply Pairing.pass_of_no_singles (by norm_num)
    exact Pairing.pass_no_singles (by norm_num) (row_end h) (by norm_num)

theorem Fit.double_double_iff :
    (∃ i, Pairing.pass 0x100000 0x200000 0 63 (row h) i = 0x200000 ∧
      Pairing.pass 0x100000 0x200000 0 63 (row h) (i + 2) = 0x200000) ↔ Stuck h := by
  rw [stuck_iff]
  exact Pairing.double_double_iff (by norm_num) (by norm_num) (by norm_num) (row_end h) hfit.dead_behind

theorem Fit.uncoalesced_iterate_iff (n : Nat) : Uncoalesced (Heap.heapCoalesce^[n + 1] h) ↔ Stuck h := by
  rw [(hfit.iterate (n + 1)).uncoalesced_iff, hfit.row_iterate, ← hfit.double_double_iff]
  constructor
  · rintro (⟨i, hi⟩ | htwo)
    · exact absurd hi (Pairing.pass_no_singles (by norm_num) (row_end h) (by norm_num) i)
    · exact htwo
  · exact Or.inr

/-- Some number of passes merges all that touches if and only if no blocks are stuck. -/
theorem Fit.coalesced_iff : (∃ n, ¬ Uncoalesced (Heap.heapCoalesce^[n] h)) ↔ ¬ Stuck h := by
  constructor
  · rintro ⟨n, hn⟩
    cases n with
    | succ n => exact mt (hfit.uncoalesced_iterate_iff n).2 hn
    | zero =>
      -- nothing touches, so the first pass does nothing
      rw [Function.iterate_zero_apply, hfit.uncoalesced_iff] at hn
      push Not at hn
      rw [← hfit.double_double_iff, Pairing.pass_of_no_singles (by norm_num) 63 fun i hi => hn.1 i hi.1 hi.2]
      rintro ⟨i, hi, hi'⟩
      exact hn.2 i hi hi'
  · intro hstuck
    exact ⟨1, mt (hfit.uncoalesced_iterate_iff 0).1 hstuck⟩

end Passes

/-- In every state the heap can reach, repeated coalescing merges all unused blocks that touch and have
one size exactly when none are stuck; the bytes of the unused blocks stay the same in any case. -/
theorem coalescing_complete_iff (calls : List Call) :
    ((∃ n, ¬ Uncoalesced (heapCoalesce^[n] (run calls).heap)) ∧
      unusedBytes (heapCoalesce (run calls).heap) = unusedBytes (run calls).heap) ↔
    ¬ Stuck (run calls).heap := by
  have hfit := run_fit calls
  rw [hfit.coalesced_iff]
  exact and_iff_left (unusedBytes_heapCoalesce hfit.inv)

/-- The heap as it is initialised: all its blocks are free, and no number of passes merges them all. -/
theorem heapInitialize_never_coalesced : ¬ ∃ n, ¬ Uncoalesced (heapCoalesce^[n] (run []).heap) := by
  have hfree : ∀ i < 64, Free heapInitialize i 0x100000 := fun i hi => ⟨hi, rfl, rfl⟩
  have hstuck : Stuck heapInitialize :=
    ⟨0, Or.inr (Or.inl ⟨hfree 0 (by norm_num), hfree 1 (by norm_num), hfree 2 (by norm_num), hfree 3 (by norm_num)⟩)⟩
  intro hdone
  exact (run_fit []).coalesced_iff.1 hdone hstuck

end CosKernel.Heap
