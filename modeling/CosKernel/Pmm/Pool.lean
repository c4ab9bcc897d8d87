import CosKernel.Lib.Pool
import CosKernel.Pmm.Ownership

/-!
# The memory manager as a pool of frames

Behind the bitmap, its words and the counter there is a set of free frames, from which
the lowest one is taken. As long as a frame that is freed exists and is not free already,
every run of calls gives the addresses and the amounts of memory that this set gives.
A frame is handed out as its address; frame 0 is then told from no frame only by the
amount that is left.
-/

namespace CosKernel.Pmm

/-! ## The pool -/

/-- The number of frames, and the free ones. -/
structure FramePool where
  total : Nat
  free : Finset Nat

/-- The frames a range touches, as far as they exist. -/
def touched (total : Nat) (address length : UInt64) : Finset Nat :=
  (Finset.range total).filter fun f => Covers address length f

/-- A call: the address that `pmm_allocate_frame` returns, if it is one of it. -/
def FramePool.call (p : FramePool) : Call → Option UInt64 × FramePool
  | .addAvailableRange address length => (none, { p with free := p.free ∪ touched p.total address length })
  | .reserveRange address length => (none, { p with free := p.free \ touched p.total address length })
  | .allocateFrame =>
    let (frame, free) := Pool.take p.free
    (some (frame.elim 0 frameAddr), { p with free := free })
  | .freeFrame paddr => (none, { p with free := insert (frameOf paddr) p.free })

/-- A call with its result and what `pmm_get_available` returns next. -/
def FramePool.step (p : FramePool) (c : Call) : (Option UInt64 × UInt64) × FramePool :=
  (((p.call c).1, UInt64.ofNat (p.call c).2.free.card * frameSize), (p.call c).2)

/-- What the pool asks of a call. -/
def FramePool.Allows (p : FramePool) : Call → Prop
  | .freeFrame paddr => frameOf paddr < p.total ∧ frameOf paddr ∉ p.free
  | _ => True

instance (p : FramePool) (c : Call) : Decidable (p.Allows c) := by
  cases c <;> unfold FramePool.Allows <;> infer_instance

/-! ## The manager -/

/-- The address that `pmm_allocate_frame` returns. -/
def returned (s : PmmT) : Call → Option UInt64
  | .allocateFrame => some (pmmAllocateFrame s).1
  | _ => none

/-- A call with its result and what `pmm_get_available` returns next. -/
def answer (s : PmmT) (c : Call) : (Option UInt64 × UInt64) × PmmT :=
  ((returned s c, pmmGetAvailable (step s c)), step s c)

/-- The bits that are set are those of the free frames, and the counter is their number. -/
structure Pools (s : PmmT) (p : FramePool) : Prop where
  accounting : Accounting s
  total : s.totalFrames = p.total
  free : ∀ f, Bitmap.test s.bitmap f = true ↔ f ∈ p.free

/-- The counter is the number of free frames. -/
theorem Pools.counter {s : PmmT} {p : FramePool} (h : Pools s p) : s.freeFrames = UInt64.ofNat p.free.card := by
  have hcount : Bitmap.count s.bitmap (s.words * 64) = p.free.card := by
    unfold Bitmap.count
    congr 1
    ext f
    rw [Finset.mem_filter, Finset.mem_range, h.free f, and_iff_right_iff_imp]
    intro hf
    exact lt_of_lt_of_le (h.accounting.lt_of_test ((h.free f).2 hf)) (totalFrames_le_words s)
  rw [← hcount, ← h.accounting.counter, UInt64.ofNat_toNat]

theorem mem_touched {total : Nat} {address length : UInt64} {f : Nat} :
    f ∈ touched total address length ↔ Covers address length f ∧ f < total := by
  unfold touched
  rw [Finset.mem_filter, Finset.mem_range, and_comm]

/-- A call that the pool allows does what it does to the pool. -/
theorem Pools.step {s : PmmT} {p : FramePool} (h : Pools s p) {c : Call} (hc : p.Allows c) :
    returned s c = (p.call c).1 ∧ Pools (Pmm.step s c) (p.call c).2 := by
  cases c with
  | addAvailableRange address length =>
    refine ⟨rfl, pmmAddAvailableRange_accounting h.accounting address length, ?_, ?_⟩
    · show (pmmAddAvailableRange address length s).totalFrames = p.total
      rw [pmmAddAvailableRange_totalFrames, h.total]
    · intro f
      show Bitmap.test (pmmAddAvailableRange address length s).bitmap f = true ↔ f ∈ p.free ∪ _
      rw [pmmAddAvailableRange_test, h.total, Finset.mem_union, mem_touched, ← h.free f]
      by_cases hf : Covers address length f ∧ f < p.total
      · simp [hf]
      · simp [hf]
  | reserveRange address length =>
    refine ⟨rfl, pmmReserveRange_accounting h.accounting address length, ?_, ?_⟩
    · show (pmmReserveRange address length s).totalFrames = p.total
      rw [pmmReserveRange_totalFrames, h.total]
    · intro f
      show Bitmap.test (pmmReserveRange address length s).bitmap f = true ↔ f ∈ p.free \ _
      rw [pmmReserveRange_test, h.total, Finset.mem_sdiff, mem_touched, ← h.free f]
      by_cases hf : Covers address length f ∧ f < p.total
      · simp [hf]
      · simp [hf]
  | allocateFrame =>
    show some (pmmAllocateFrame s).1 = _ ∧ Pools (pmmAllocateFrame s).2 _
    rcases pmmAllocateFrame_cases s with ⟨frame, -, hset, hlow, halloc⟩ | ⟨hnone, halloc⟩
    · have hle : ∀ b ∈ p.free, frame ≤ b := by
        intro b hb
        by_contra hlt
        have hclear := hlow b (not_le.1 hlt)
        rw [(h.free b).2 hb] at hclear
        cases hclear
      have htake := Pool.take_least ((h.free frame).1 hset) hle
      simp only [FramePool.call, htake, halloc]
      refine ⟨rfl, h.accounting.markUsed hset, h.total, ?_⟩
      intro f
      rw [markUsed_test, Finset.mem_erase, ← h.free f]
      by_cases hf : f = frame
      · simp [hf]
      · simp [hf]
    · have hempty : p.free = ∅ := by
        apply Finset.eq_empty_of_forall_notMem
        intro f hf
        have hset := (h.free f).2 hf
        rw [hnone f (lt_of_lt_of_le (h.accounting.lt_of_test hset) (totalFrames_le_words s))] at hset
        cases hset
      simp only [FramePool.call, hempty, Pool.take_empty, halloc]
      refine ⟨rfl, h.accounting, h.total, ?_⟩
      intro f
      rw [h.free f, hempty]
  | freeFrame paddr =>
    have hlt : frameOf paddr < s.totalFrames := h.total ▸ hc.1
    have hclear : Bitmap.test s.bitmap (frameOf paddr) = false := by
      rw [← Bool.not_eq_true, h.free]
      exact hc.2
    have hfree : pmmFreeFrame paddr s = s.markFree (frameOf paddr) := by
      unfold pmmFreeFrame
      rw [if_neg (not_le.2 (word_lt hlt))]
    show none = none ∧ Pools (pmmFreeFrame paddr s) _
    rw [hfree]
    refine ⟨rfl, h.accounting.markFree hlt hclear, h.total, ?_⟩
    intro f
    show _ ↔ f ∈ insert (frameOf paddr) p.free
    rw [markFree_test, Finset.mem_insert, ← h.free f]
    simp

/-- After `pmm_initialize` no frame is free. -/
theorem pools_pmmInitialize (totalMemory : UInt64) :
    Pools (pmmInitialize totalMemory pmmState) ⟨(pmmInitialize totalMemory pmmState).totalFrames, ∅⟩ := by
  refine ⟨pmmInitialize_accounting totalMemory, rfl, ?_⟩
  intro f
  rw [pmmInitialize_test]
  simp

/-- The run of a pool, call by call. -/
abbrev FramePool.next (p : FramePool) (c : Call) : FramePool := (p.step c).2

/-- A run of allowed calls gets the answers of the pool. -/
theorem Pools.run {s : PmmT} {p : FramePool} (h : Pools s p) {calls : List Call}
    (hall : Run.Each FramePool.next FramePool.Allows p calls) :
    (Run.results answer s calls).1 = (Run.results FramePool.step p calls).1 ∧
      Pools (Run.results answer s calls).2 (Run.results FramePool.step p calls).2 := by
  induction calls generalizing s p with
  | nil => exact ⟨rfl, h⟩
  | cons c calls ih =>
    rcases h.step hall.1 with ⟨hreturned, hnext⟩
    rcases ih hnext hall.2 with ⟨hrest, hlast⟩
    refine ⟨?_, hlast⟩
    have hfirst : (answer s c).1 = (p.step c).1 := by
      unfold answer FramePool.step pmmGetAvailable
      rw [hreturned, hnext.counter]
    unfold Run.results
    rw [hfirst]
    exact congrArg _ hrest

/-- A pool allows every allocation, and its allocations are takes. -/
theorem FramePool.allocations (n : Nat) (p : FramePool) :
    Run.Each FramePool.next FramePool.Allows p (List.replicate n .allocateFrame) ∧
      (Run.results FramePool.step p (List.replicate n .allocateFrame)).1.map Prod.fst =
        (Pool.takes n p.free).1.map fun frame => some (frame.elim 0 frameAddr) := by
  induction n generalizing p with
  | zero => exact ⟨trivial, rfl⟩
  | succ n ih =>
    rcases ih (p.next .allocateFrame) with ⟨hallowed, hrest⟩
    exact ⟨⟨trivial, hallowed⟩, congrArg (List.cons _) hrest⟩

/-- After `pmm_initialize` with any amount of memory, every run of calls in which only frames are freed
that exist and are not free gets the addresses and the amounts of memory of the pool. From there the
next allocations return the lowest free frames in increasing order, one each, and then 0. -/
theorem pmm_is_frame_pool (totalMemory : UInt64) (calls : List Call)
    (hallowed : Run.Each FramePool.next FramePool.Allows
      ⟨(pmmInitialize totalMemory pmmState).totalFrames, ∅⟩ calls) :
    (Run.results answer (pmmInitialize totalMemory pmmState) calls).1 =
        (Run.results FramePool.step ⟨(pmmInitialize totalMemory pmmState).totalFrames, ∅⟩ calls).1 ∧
      ∀ n, (Run.results answer (Run.results answer (pmmInitialize totalMemory pmmState) calls).2
          (List.replicate n .allocateFrame)).1.map Prod.fst =
        (((Run.results FramePool.step ⟨(pmmInitialize totalMemory pmmState).totalFrames, ∅⟩ calls).2.free.sort.map
          fun f => some (frameAddr f)) ++ List.replicate n (some 0)).take n := by
  rcases (pools_pmmInitialize totalMemory).run hallowed with ⟨hresults, hlast⟩
  refine ⟨hresults, ?_⟩
  intro n
  generalize (Run.results FramePool.step _ calls).2 = p at hlast ⊢
  rcases p.allocations n with ⟨hall, htakes⟩
  rw [(hlast.run hall).1, htakes, (Pool.takes_eq n p.free).1, List.map_take, List.map_append, List.map_map,
    List.map_replicate]
  rfl

/-- Four frames, of which one is allocated, freed and allocated again. -/
theorem pmm_is_frame_pool_four :
    (Run.results answer (pmmInitialize 0x4000 pmmState)
        [.addAvailableRange 0x1000 0x3000, .allocateFrame, .freeFrame 0x1000, .allocateFrame]).1 =
        (Run.results FramePool.step ⟨(pmmInitialize 0x4000 pmmState).totalFrames, ∅⟩
          [.addAvailableRange 0x1000 0x3000, .allocateFrame, .freeFrame 0x1000, .allocateFrame]).1 ∧
      ∀ n, (Run.results answer (Run.results answer (pmmInitialize 0x4000 pmmState)
          [.addAvailableRange 0x1000 0x3000, .allocateFrame, .freeFrame 0x1000, .allocateFrame]).2
          (List.replicate n .allocateFrame)).1.map Prod.fst =
        (((Run.results FramePool.step ⟨(pmmInitialize 0x4000 pmmState).totalFrames, ∅⟩
          [.addAvailableRange 0x1000 0x3000, .allocateFrame, .freeFrame 0x1000, .allocateFrame]).2.free.sort.map
          fun f => some (frameAddr f)) ++ List.replicate n (some 0)).take n :=
  pmm_is_frame_pool 0x4000 _ (by decide +kernel)

end CosKernel.Pmm
