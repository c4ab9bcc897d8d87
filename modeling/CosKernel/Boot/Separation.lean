import CosKernel.Boot.MemoryMap
import CosKernel.Heap.Refinement
import CosKernel.Pmm.Ownership

/-!
# The two allocators and the memory they share

The heap manages fixed addresses, the frames `256 .. 323` and `512 .. 16895`;
the memory manager hands out whatever the boot memory map made available above
2 MB. Nothing keeps the second apart from the first: frames and allocations are
disjoint in every run exactly when the map offers no frame of the heap
(`separate_iff`).
-/

namespace CosKernel.Boot

open Allocator Heap Pmm

/-! ## Both allocators together -/

/-- The heap with its live allocations, the memory manager, and all frames it has returned. -/
structure System where
  heap : History
  pmm : PmmT
  frames : List Extent

inductive SysCall where
  | heap (c : Heap.Call)
  | allocateFrame
  | freeFrame (paddr : UInt64)
deriving DecidableEq, Repr

/-- One call of one of the allocators. -/
def sysStep (s : System) : SysCall → System
  | .heap c => { s with heap := Heap.step s.heap c }
  | .allocateFrame =>
    let r := pmmAllocateFrame s.pmm
    { s with pmm := r.2, frames := if r.1 = 0 then s.frames else s.frames ++ [⟨r.1.toNat, 4096⟩] }
  | .freeFrame paddr => { s with pmm := pmmFreeFrame paddr s.pmm }

/-- The system after `kernel_main` has set up both. -/
def started (pmm : PmmT) : System := ⟨⟨heapInitialize, []⟩, pmm, []⟩

/-- No frame ever returned overlaps a live allocation. -/
def Separate (s : System) : Prop := ∀ e ∈ s.frames, ∀ a ∈ s.heap.live, e.Apart a

/-- A frame of the memory the heap manages. -/
def HeapFrame (f : Nat) : Prop := (256 ≤ f ∧ f < 324) ∨ (512 ≤ f ∧ f < 16896)

/-- No caller gives a frame of the heap to the memory manager. -/
def Respectful (s : System) : SysCall → Prop
  | .freeFrame paddr => s.pmm.words ≤ frameOf paddr / 64 ∨ ¬ HeapFrame (frameOf paddr)
  | _ => True

/-! ## Maps that offer no frame of the heap -/

/-- The bytes of a frame outside the heap are outside the heap's arena. -/
theorem disjoint_heapArena {f : Nat} (hf : ¬ HeapFrame f) :
    Disjoint (Extent.bytes ⟨f * 4096, 4096⟩) heapArena := by
  rw [Set.disjoint_left]
  intro a ha harena
  unfold HeapFrame at hf
  simp only [Extent.bytes, Set.mem_Ico] at ha
  simp only [heapArena, slabRegion, buddyRegion, Set.mem_union, Set.mem_Ico] at harena
  omega

structure SysInv (s : System) : Prop where
  refines : Refines s.heap
  bound : s.pmm.totalFrames ≤ bitmapStorageWords * 64
  free : ∀ f, Bitmap.test s.pmm.bitmap f = true → ¬ HeapFrame f
  frames : ∀ e ∈ s.frames, ∃ f, ¬ HeapFrame f ∧ e = ⟨f * 4096, 4096⟩

theorem SysInv.separate {s : System} (h : SysInv s) : Separate s := by
  intro e he a ha
  rcases h.frames e he with ⟨f, hf, rfl⟩
  have hinside := h.refines.inv.holds_inside ((h.refines.holds a).2 ha)
  exact Extent.apart_of_disjoint subset_rfl hinside (disjoint_heapArena hf)

theorem sysStep_inv {s : System} {c : SysCall} (h : SysInv s) (hc : Respectful s c) :
    SysInv (sysStep s c) := by
  cases c with
  | heap c => exact ⟨(step_refines h.refines c).1, h.bound, h.free, h.frames⟩
  | allocateFrame =>
    rcases pmmAllocateFrame_cases s.pmm with ⟨f, hlt, hset, -, halloc⟩ | ⟨-, halloc⟩
    · simp only [sysStep, halloc]
      refine ⟨h.refines, h.bound, ?_, ?_⟩
      · intro g hg
        rw [markUsed_test, Bool.and_eq_true] at hg
        exact h.free g hg.2
      · intro e he
        split at he
        · exact h.frames e he
        · rcases List.mem_append.1 he with he | he
          · exact h.frames e he
          · have hsmall : f < 2 ^ 52 := by
              have hbound := h.bound
              unfold PmmT.words at hlt
              unfold bitmapStorageWords at hbound
              omega
            -- the frame was free, hence not one of the heap
            refine ⟨f, h.free f hset, ?_⟩
            rw [List.mem_singleton.1 he]
            exact congrArg (fun n => Extent.mk n 4096) (frameAddr_toNat hsmall)
    · simp only [sysStep, halloc]
      exact ⟨h.refines, h.bound, h.free, h.frames⟩
  | freeFrame paddr =>
    show SysInv { s with pmm := pmmFreeFrame paddr s.pmm }
    unfold pmmFreeFrame
    by_cases hword : s.pmm.words ≤ frameOf paddr / 64
    · simp only [if_pos hword]
      exact h
    · simp only [if_neg hword]
      refine ⟨h.refines, h.bound, ?_, h.frames⟩
      intro g hg
      rw [markFree_test, Bool.or_eq_true, decide_eq_true_eq] at hg
      rcases hg with rfl | hg
      · exact hc.resolve_left hword
      · exact h.free g hg

/-! ## Maps that do -/

/-- The heap after `n` requests for 1 MB: the first `n` blocks are used up. -/
def filled (owner : String) (n : Nat) : HeapState :=
  { heapInitialize with
    buddyBlocks := fun i =>
      if i < n then (initBuddyBlocks i).take 0x100000 owner else initBuddyBlocks i }

theorem kmalloc_filled (owner : String) {n : Nat} (hn : n < buddyBlocksMax) :
    kmalloc 0x100000 owner (filled owner n) =
      (some (0x200000 + n * 0x100000), filled owner (n + 1)) := by
  have hclass : slabSlot 0x100000 (filled owner n) = none := rfl
  have hfit : firstFit 0x100000 (filled owner n) = some n := by
    unfold firstFit
    have hcount : (filled owner n).buddyBlockCount.toNat = buddyBlocksMax := rfl
    rw [hcount, List.find?_range_eq_some]
    refine ⟨?_, List.mem_range.2 hn, ?_⟩
    · simp [filled, initBuddyBlocks]
    · intro j hj
      simp [filled, hj, Chunk.take]
  have hblock : (filled owner n).buddyBlocks n = initBuddyBlocks n := by simp [filled]
  -- taking block `n` gives the next state of the series
  have hnext : (filled owner n).modifyBuddy n (Chunk.take 0x100000 owner) = filled owner (n + 1) := by
    unfold HeapState.modifyBuddy
    rw [hblock]
    simp only [filled, HeapState.mk.injEq, true_and, and_true]
    funext i
    by_cases hi : i = n
    · rw [hi, Function.update_self, if_pos (Nat.lt_succ_self n)]
    · rw [Function.update_of_ne hi]
      by_cases hlt : i < n
      · rw [if_pos hlt, if_pos (by omega)]
      · rw [if_neg hlt, if_neg (by omega)]
  unfold kmalloc
  rw [if_neg (by norm_num), hclass]
  simp only [hfit, hblock, hnext]
  rfl

/-- Requests for 1 MB each. -/
def fill (n : Nat) : List SysCall := List.replicate n (.heap (.kmalloc 0x100000 ""))

/-- Enough requests make any block live. -/
theorem fill_live {s : System} (hs : s.heap.heap = filled "" 0) {n : Nat} (hn : n ≤ buddyBlocksMax) :
    ((fill n).foldl sysStep s).heap.heap = filled "" n ∧
      ((fill n).foldl sysStep s).frames = s.frames ∧
      ∀ i < n, ⟨0x200000 + i * 0x100000, 0x100000⟩ ∈ ((fill n).foldl sysStep s).heap.live := by
  induction n with
  | zero => exact ⟨hs, rfl, by simp⟩
  | succ n ih =>
    rcases ih (by omega) with ⟨hheap, hframes, hlive⟩
    have hfill : fill (n + 1) = fill n ++ [.heap (.kmalloc 0x100000 "")] := List.replicate_succ'
    have hk := kmalloc_filled "" (n := n) (by omega)
    rw [hfill, List.foldl_append, List.foldl_cons, List.foldl_nil]
    generalize (fill n).foldl sysStep s = t at hheap hframes hlive
    simp only [sysStep, Heap.step, hheap, hk, recordGranted]
    refine ⟨trivial, hframes, ?_⟩
    intro i hi
    rw [List.mem_append]
    by_cases hin : i < n
    · exact Or.inl (hlive i hin)
    · have hieq : i = n := by omega
      right
      rw [hieq]
      exact List.mem_singleton.2 rfl

/-- Neither an allocation of a frame nor a request gives a frame back. -/
theorem each_respectful_fill (s : System) (n : Nat) : Run.Each sysStep Respectful s (fill n) := by
  induction n generalizing s with
  | zero => trivial
  | succ n ih => exact ⟨trivial, ih _⟩

/-- The first frame handed out. -/
theorem sysStep_allocate {pmm : PmmT} {g : Nat} (hpos : 0 < g) (hsmall : g < 2 ^ 52)
    (halloc : pmmAllocateFrame pmm = (UInt64.ofNat g * frameSize, pmm.markUsed g)) :
    sysStep (started pmm) .allocateFrame =
      ⟨⟨heapInitialize, []⟩, pmm.markUsed g, [⟨g * 4096, 4096⟩]⟩ := by
  have hne : UInt64.ofNat g * frameSize ≠ 0 := frameAddr_ne_zero hsmall hpos
  have haddr : (UInt64.ofNat g * frameSize).toNat = g * 4096 := frameAddr_toNat hsmall
  simp only [sysStep, started, halloc, if_neg hne, List.nil_append, haddr]

/-- The run that allocates a frame and then all blocks up to the one this frame lies in. -/
theorem not_separate_of_free {pmm : PmmT} (hacc : Accounting pmm) (hlow : ∀ f < 512, Bitmap.test pmm.bitmap f = false)
    {f : Nat} (hf : f < 16896) (hset : Bitmap.test pmm.bitmap f = true) :
    ∃ calls, Run.Each sysStep Respectful (started pmm) calls ∧
      ¬ Run.Always sysStep Separate (started pmm) calls := by
  rcases pmmAllocateFrame_cases pmm with ⟨g, -, hg, hlowest, halloc⟩ | ⟨hnone, -⟩
  swap
  · have hlt := lt_of_lt_of_le (hacc.lt_of_test hset) (totalFrames_le_words pmm)
    rw [hnone f hlt] at hset
    cases hset
  -- the frame handed out is a frame of the heap too
  have hgf : g ≤ f := by
    by_contra hgt
    rw [hlowest f (by omega)] at hset
    cases hset
  have hg512 : 512 ≤ g := by
    by_contra hlt
    rw [hlow g (by omega)] at hg
    cases hg
  have hstep := sysStep_allocate (by omega) (by omega) halloc
  -- a block has 256 frames
  have hblock : (g - 512) / 256 + 1 ≤ buddyBlocksMax := by
    unfold buddyBlocksMax
    omega
  refine ⟨.allocateFrame :: fill ((g - 512) / 256 + 1), ⟨trivial, each_respectful_fill _ _⟩, ?_⟩
  intro halways
  have hlast := halways.2.last
  rw [hstep] at hlast
  rcases fill_live (s := ⟨⟨heapInitialize, []⟩, pmm.markUsed g, [⟨g * 4096, 4096⟩]⟩) rfl hblock with
    ⟨-, hframes, hlive⟩
  have happart := hlast ⟨g * 4096, 4096⟩ (by rw [hframes]; exact List.mem_singleton.2 rfl) _
    (hlive ((g - 512) / 256) (by omega))
  rw [Extent.apart_iff (by norm_num) (by norm_num)] at happart
  simp only at happart
  omega

/-! ## The condition on the map -/

/-- No range the map makes available touches a frame of the heap above 2 MB that exists. -/
def OffersNoHeapFrame (t : List Visit) : Prop :=
  ∀ r ∈ bootRanges t, ∀ f, 512 ≤ f → f < 16896 →
    f < (pmmInitialize (maxMemory (memoryTop (entriesOf t))) pmmState).totalFrames →
    ¬ Covers r.1 r.2 f

/-- Frames and allocations stay apart in every run in which no frame of the heap is freed if and
only if the boot memory map offers no frame of the heap. -/
theorem separate_iff {info : Option (Nat → UInt8)} {t : List Visit} {pmm : PmmT}
    (htrace : bootTrace info = some t) (hboot : kernelMain info = some pmm) :
    (∀ calls, Run.Each sysStep Respectful (started pmm) calls →
      Run.Always sysStep Separate (started pmm) calls) ↔ OffersNoHeapFrame t := by
  rw [kernelMain_eq, htrace, Option.map_some, Option.some.injEq] at hboot
  have hfree := boot_test (maxMemory (memoryTop (entriesOf t))) (bootRanges t)
  have hacc := boot_accounting (maxMemory (memoryTop (entriesOf t))) (bootRanges t)
  rw [hboot] at hfree hacc
  constructor
  · intro hsep r hr f hge hlt htotal hcovers
    have hset := (hfree f).2 ⟨hge, htotal, r, hr, hcovers⟩
    have hlow : ∀ g < 512, Bitmap.test pmm.bitmap g = false := by
      intro g hg
      by_contra hset'
      have := ((hfree g).1 (by simpa using hset')).1
      omega
    rcases not_separate_of_free hacc hlow hlt hset with ⟨calls, heach, hnot⟩
    exact hnot (hsep calls heach)
  · intro hoffers calls heach
    refine Run.always_of_each SysInv (fun s c => sysStep_inv) (fun s h => h.separate) ?_ heach
    refine ⟨refines_init, hacc.bound, ?_, by simp [started]⟩
    intro f hset hheap
    rcases (hfree f).1 hset with ⟨hge, htotal, r, hr, hcovers⟩
    rcases hheap with hheap | hheap
    · omega
    · exact hoffers r hr f hge hheap.2 htotal hcovers

theorem separate_iff_one_entry : ∃ t pmm, bootTrace (some oneEntryBlock) = some t ∧
    kernelMain (some oneEntryBlock) = some pmm ∧
    ((∀ calls, Run.Each sysStep Respectful (started pmm) calls →
      Run.Always sysStep Separate (started pmm) calls) ↔ OffersNoHeapFrame t) := by
  have htrace := bootTrace_wf oneEntryBlock_wf
  have hboot := kernelMain_eq (some oneEntryBlock)
  rw [htrace, Option.map_some] at hboot
  exact ⟨_, _, htrace, hboot, separate_iff htrace hboot⟩

/-- With the megabyte from 2 MB on available, the first frame handed out and the first block of the
heap are the same memory. -/
theorem frame_overlaps_block : ∃ pmm, kernelMain (some oneEntryBlock) = some pmm ∧
    ¬ Run.Always sysStep Separate (started pmm) [.allocateFrame, .heap (.kmalloc 0x1000 "")] := by
  have hboot := kernelMain_eq (some oneEntryBlock)
  rw [bootTrace_wf oneEntryBlock_wf, Option.map_some] at hboot
  refine ⟨_, hboot, ?_⟩
  have hfree := boot_test (maxMemory (memoryTop (entriesOf (infoVisits (some oneEntryBlock) [8]))))
    (bootRanges (infoVisits (some oneEntryBlock) [8]))
  have hacc := boot_accounting (maxMemory (memoryTop (entriesOf (infoVisits (some oneEntryBlock) [8]))))
    (bootRanges (infoVisits (some oneEntryBlock) [8]))
  have h512 := (hfree 512).2 ⟨le_rfl, by decide, (0x200000, 0x100000), by decide, by decide⟩
  generalize boot _ _ = pmm at hfree hacc h512
  -- frame 512 is free, and no lower frame is
  rcases pmmAllocateFrame_cases pmm with ⟨g, -, hg, hlowest, halloc⟩ | ⟨hnone, -⟩
  swap
  · have hlt := lt_of_lt_of_le (hacc.lt_of_test h512) (totalFrames_le_words pmm)
    rw [hnone 512 hlt] at h512
    cases h512
  have hg512 : g = 512 := by
    have hge := ((hfree g).1 hg).1
    by_contra hne
    rw [hlowest 512 (by omega)] at h512
    cases h512
  rw [hg512] at halloc
  intro halways
  have hlast := halways.2.last
  rw [sysStep_allocate (by norm_num) (by norm_num) halloc] at hlast
  have happart := hlast ⟨0x200000, 4096⟩ (List.mem_singleton.2 rfl) ⟨0x200000, 0x1000⟩
    (List.mem_singleton.2 rfl)
  rw [Extent.apart_iff (by norm_num) (by norm_num)] at happart
  simp at happart

end CosKernel.Boot
