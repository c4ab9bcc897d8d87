import CosKernel.Heap.Invariant

/-!
# The kernel heap refines the abstract allocator

The abstraction is `HeapState.Holds`: the extents of the used chunks. Along any
run it agrees with the list of live allocations that a caller would keep from
the results of the calls (`Refines`), and every call is a `Step` of the abstract
allocator over `heapArena`.
-/

namespace CosKernel.Heap

open Allocator

/-! ## The abstraction -/

/-- The heap has a used chunk with this extent. -/
def HeapState.Holds (h : HeapState) (e : Extent) : Prop :=
  ∃ p, (h.chunk p).used = true ∧ h.extent p = e

/-- The used chunks are the live allocations. -/
structure Refines (s : History) : Prop where
  inv : Inv s.heap
  holds : ∀ e, s.heap.Holds e ↔ e ∈ s.live

theorem refines_init : Refines ⟨heapInitialize, []⟩ := by
  refine ⟨heapInitialize_inv, ?_⟩
  intro e
  constructor
  · rintro ⟨p, hp, -⟩
    cases p <;> simp [HeapState.chunk, heapInitialize, initSlabCaches, initBuddyBlocks] at hp
  · intro he
    cases he

/-! ## The calls -/

theorem HeapState.addr_extent {h : HeapState} (hinv : Inv h) (p : Pos) :
    (h.extent p).addr = base p := hinv.address p

/-- `takeAt` adds one extent. -/
theorem holds_takeAt {h : HeapState} {p : Pos} (size : Nat) (owner : String)
    (hunused : (h.chunk p).used = false) (e : Extent) :
    (h.takeAt size owner p).Holds e ↔ h.Holds e ∨ e = ⟨(h.chunk p).address, size⟩ := by
  have hself : (h.takeAt size owner p).extent p = ⟨(h.chunk p).address, size⟩ := by
    unfold HeapState.extent
    rw [chunk_takeAt, Function.update_self]
    rfl
  have hother : ∀ q, q ≠ p → (h.takeAt size owner p).chunk q = h.chunk q := by
    intro q hq
    rw [chunk_takeAt, Function.update_of_ne hq]
  constructor
  · rintro ⟨q, hq, he⟩
    by_cases hqp : q = p
    · right
      rw [← he, hqp, hself]
    · left
      unfold HeapState.extent at he
      rw [hother q hqp] at hq he
      exact ⟨q, hq, he⟩
  · rintro (⟨q, hq, he⟩ | he)
    · have hqp : q ≠ p := by
        rintro rfl
        rw [hunused] at hq
        cases hq
      refine ⟨q, ?_, ?_⟩
      · rw [hother q hqp]
        exact hq
      · unfold HeapState.extent
        rw [hother q hqp]
        exact he
    · refine ⟨p, ?_, ?_⟩
      · rw [chunk_takeAt, Function.update_self]
        rfl
      · rw [hself, he]

/-- `freeAt` removes the extent at the address of the position, and no other. -/
theorem holds_freeAt {h : HeapState} (hinv : Inv h) {p : Pos} (e : Extent) :
    (h.freeAt p).Holds e ↔ h.Holds e ∧ e.addr ≠ base p := by
  rcases chunk_freeAt h p with ⟨b, hchunk, hb, -, -⟩
  have hother : ∀ q, q ≠ p → (h.freeAt p).chunk q = h.chunk q := by
    intro q hq
    rw [hchunk, Function.update_of_ne hq]
  constructor
  · rintro ⟨q, hq, he⟩
    have hqp : q ≠ p := by
      rintro rfl
      rw [hchunk, Function.update_self, hb] at hq
      cases hq
    unfold HeapState.extent at he
    rw [hother q hqp] at hq he
    refine ⟨⟨q, hq, he⟩, ?_⟩
    -- no other position has this address
    rw [← he]
    change (h.chunk q).address ≠ base p
    rw [hinv.address q]
    exact fun heq => hqp (base_injective heq)
  · rintro ⟨⟨q, hq, he⟩, hne⟩
    have hqp : q ≠ p := by
      rintro rfl
      apply hne
      rw [← he]
      exact hinv.address q
    refine ⟨q, ?_, ?_⟩
    · rw [hother q hqp]
      exact hq
    · unfold HeapState.extent
      rw [hother q hqp]
      exact he

/-- States with the same used chunks hold the same extents. -/
theorem SameUsed.holds {h h' : HeapState} (hsame : SameUsed h h') (e : Extent) :
    h'.Holds e ↔ h.Holds e := by
  constructor
  · rintro ⟨p, hp, he⟩
    have hp' : (h.chunk p).used = true := (hsame p).1 ▸ hp
    unfold HeapState.extent at he
    rw [(hsame p).2 hp'] at he
    exact ⟨p, hp', he⟩
  · rintro ⟨p, hp, he⟩
    refine ⟨p, (hsame p).1.trans hp, ?_⟩
    unfold HeapState.extent
    rw [(hsame p).2 hp]
    exact he

/-- An extent of an unused chunk that is large enough is apart from all held ones. -/
theorem Inv.fresh {h : HeapState} (hinv : Inv h) {p : Pos} {size : Nat} {owner : String}
    (hunused : (h.chunk p).used = false) (hpos : 0 < size)
    (hinv' : Inv (h.takeAt size owner p)) {f : Extent} (hf : h.Holds f) :
    f.Apart ⟨(h.chunk p).address, size⟩ := by
  rcases hf with ⟨q, hq, rfl⟩
  have hqp : q ≠ p := by
    rintro rfl
    rw [hunused] at hq
    cases hq
  -- both extents are extents of the state after the call
  have hq' : (h.takeAt size owner p).chunk q = h.chunk q := by
    rw [chunk_takeAt, Function.update_of_ne hqp]
  have hp' : (h.takeAt size owner p).chunk p = (h.chunk p).take size owner := by
    rw [chunk_takeAt, Function.update_self]
  have happ := hinv'.apart hqp (by rw [hq']; exact hinv.pos q hq) (by rw [hp']; exact hpos)
  unfold HeapState.extent at happ
  rw [hq', hp'] at happ
  exact happ

/-- Every extent the heap holds lies in the arena. -/
theorem Inv.holds_inside {h : HeapState} (hinv : Inv h) {e : Extent} (he : h.Holds e) :
    e.bytes ⊆ heapArena := by
  rcases he with ⟨p, -, rfl⟩
  rcases hinv.inside p with hin | hin
  · exact hin.trans Set.subset_union_left
  · exact hin.trans Set.subset_union_right

/-- One call keeps the refinement, and is a step of the abstract allocator. -/
theorem step_refines {s : History} (h : Refines s) (c : Call) :
    Refines (step s c) ∧ ∃ ev, Step heapArena s.live ev (step s c).live := by
  cases c with
  | kmalloc size owner =>
    rcases kmalloc_cases h.inv size owner with ⟨p, hpos, hun, hsize, hk⟩ | ⟨-, hk⟩
    · have hinv' := h.inv.takeAt owner hun hpos hsize
      have hholds := holds_takeAt size owner hun
      simp only [step, hk, recordGranted]
      -- the extent granted is that of the chunk after the call
      refine ⟨⟨hinv', ?_⟩, _, Step.grant ⟨(s.heap.chunk p).address, size⟩ hpos ?_ ?_⟩
      · intro e
        rw [hholds e, h.holds e, List.mem_append, List.mem_singleton]
      · exact hinv'.holds_inside ((hholds _).2 (Or.inr rfl))
      · intro f hf
        exact h.inv.fresh hun hpos hinv' ((h.holds f).2 hf)
    · simp only [step, hk, recordGranted]
      exact ⟨h, _, Step.idle⟩
  | kfree addr =>
    refine ⟨?_, _, Step.release addr⟩
    rcases kfree_cases h.inv addr with ⟨p, hused, hbase, hk⟩ | ⟨hnone, hk⟩
    · simp only [step, hk]
      refine ⟨h.inv.freeAt hused, ?_⟩
      intro e
      rw [holds_freeAt h.inv, h.holds e, hbase]
      simp [recordFreed, List.mem_filter]
    · simp only [step, hk]
      refine ⟨h.inv, ?_⟩
      intro e
      rw [h.holds e]
      simp only [recordFreed, List.mem_filter, decide_eq_true_eq]
      constructor
      · intro he
        refine ⟨he, ?_⟩
        -- `kfree` found nothing, so no live allocation has this address
        rcases (h.holds e).2 he with ⟨p, hp, rfl⟩
        rw [HeapState.addr_extent h.inv]
        exact hnone p hp
      · exact And.left
  | heapCoalesce =>
    rcases heapCoalesce_inv h.inv with ⟨hinv', hsame⟩
    refine ⟨⟨hinv', ?_⟩, _, Step.idle⟩
    intro e
    exact (hsame.holds e).trans (h.holds e)

/-- Any run of calls refines a run of the abstract allocator. -/
theorem run_refines (calls : List Call) :
    Refines (run calls) ∧ Reachable heapArena (run calls).live := by
  refine Run.foldl_invariant (fun s => Refines s ∧ Reachable heapArena s.live) ?_
    ⟨refines_init, Reachable.init⟩ calls
  rintro s c ⟨href, hreach⟩
  rcases step_refines href c with ⟨href', ev, hstep⟩
  exact ⟨href', hreach.step hstep⟩

/-! ## The contract of the heap -/

/-- What callers may rely on in a state with these live allocations. -/
structure Contract (s : History) : Prop where
  apart : s.live.Pairwise Extent.Apart
  inside : ∀ e ∈ s.live, e.bytes ⊆ slabRegion ∨ e.bytes ⊆ buddyRegion
  pos : ∀ e ∈ s.live, 0 < e.size
  holds : ∀ e, s.heap.Holds e ↔ e ∈ s.live
  kfree_live : ∀ e ∈ s.live,
    (∀ f, (kfree e.addr s.heap).Holds f ↔ f ∈ s.live ∧ f ≠ e) ∧
    ∀ p, base p ≠ e.addr → (kfree e.addr s.heap).chunk p = s.heap.chunk p
  kfree_other : ∀ addr, (∀ e ∈ s.live, e.addr ≠ addr) → kfree addr s.heap = s.heap
  kmalloc_null : ∀ size owner, (kmalloc size owner s.heap).1 = none →
    (size = 0 ∨ Exhausted size s.heap) ∧ (kmalloc size owner s.heap).2 = s.heap
  coalesce : SameUsed s.heap (heapCoalesce s.heap) ∧
    ∀ e, (heapCoalesce s.heap).Holds e ↔ e ∈ s.live
  freeCount : ∀ c, (s.heap.slabCaches c).freeCount.toNat = unused (s.heap.slabCaches c)

/-- `kfree` of a live allocation ends this one only. -/
theorem Refines.kfree_live {s : History} (h : Refines s) (hsafe : Safe heapArena s.live)
    {e : Extent} (he : e ∈ s.live) :
    (∀ f, (kfree e.addr s.heap).Holds f ↔ f ∈ s.live ∧ f ≠ e) ∧
      ∀ p, base p ≠ e.addr → (kfree e.addr s.heap).chunk p = s.heap.chunk p := by
  rcases kfree_cases h.inv e.addr with ⟨p, -, hbase, hk⟩ | ⟨hnone, -⟩
  · rw [hk]
    constructor
    · intro f
      rw [holds_freeAt h.inv, h.holds f, hbase]
      constructor
      · rintro ⟨hf, hne⟩
        exact ⟨hf, fun heq => hne (congrArg Extent.addr heq)⟩
      · rintro ⟨hf, hne⟩
        exact ⟨hf, fun heq => hne (hsafe.eq_of_addr_eq hf he heq)⟩
    · intro q hq
      rcases chunk_freeAt s.heap p with ⟨b, hchunk, -, -, -⟩
      have hqp : q ≠ p := by
        rintro rfl
        exact hq hbase
      rw [hchunk, Function.update_of_ne hqp]
  · -- a live allocation is held, so `kfree` finds it
    rcases (h.holds e).2 he with ⟨p, hp, rfl⟩
    exact absurd (HeapState.addr_extent h.inv p).symm (hnone p hp)

/-- `kfree` of any other address does nothing at all. -/
theorem Refines.kfree_other {s : History} (h : Refines s) {addr : Nat}
    (hne : ∀ e ∈ s.live, e.addr ≠ addr) : kfree addr s.heap = s.heap := by
  rcases kfree_cases h.inv addr with ⟨p, hused, hbase, -⟩ | ⟨-, hk⟩
  · have hlive := (h.holds (s.heap.extent p)).1 ⟨p, hused, rfl⟩
    exact absurd ((HeapState.addr_extent h.inv p).trans hbase) (hne _ hlive)
  · exact hk

theorem unused_le (c : SlabCache) : unused c ≤ slabObjectsPerCache := by
  unfold unused
  refine (Finset.card_filter_le _ _).trans ?_
  rw [Finset.card_univ, Fintype.card_fin]

/-- The contract holds after every sequence of calls. -/
theorem heap_refines_allocator (calls : List Call) : Contract (run calls) := by
  rcases run_refines calls with ⟨h, hreach⟩
  have hsafe := hreach.safe
  refine ⟨hsafe.apart, ?_, hsafe.pos, h.holds, fun e he => h.kfree_live hsafe he,
    fun addr => h.kfree_other, ?_, ?_, ?_⟩
  · intro e he
    rcases (h.holds e).2 he with ⟨p, -, rfl⟩
    exact h.inv.inside p
  · intro size owner hnull
    rcases kmalloc_cases h.inv size owner with ⟨p, -, -, -, hk⟩ | ⟨hex, hk⟩
    · rw [hk] at hnull
      cases hnull
    · rw [hk]
      exact ⟨hex, rfl⟩
  · have hsame := (heapCoalesce_inv h.inv).2
    exact ⟨hsame, fun e => (hsame.holds e).trans (h.holds e)⟩
  · intro c
    have hle := unused_le ((run calls).heap.slabCaches c)
    simp only [slabObjectsPerCache] at hle
    rw [h.inv.freeCount c, UInt32.toNat_ofNat']
    exact Nat.mod_eq_of_lt (by omega)

end CosKernel.Heap
