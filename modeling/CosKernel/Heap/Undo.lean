import CosKernel.Heap.Refinement

/-!
# An allocation and its release

Does `kfree` undo `kmalloc`? A slab object goes back to size 0 and owner "Free",
which is what every unused object has (`Tidy`). A block goes back to its owner
but keeps the size of the request, and `heap_coalesce` merges blocks of their
initial size only, so what a block lost is lost for good.
-/

namespace CosKernel.Heap

/-! ## Unused chunks -/

/-- What an unused chunk holds; a block of size 0 was merged into its neighbour. -/
def Tidy : Pos → Chunk → Prop
  | .slab _ _, b => b.used = false → b.size = 0 ∧ b.owner = "Free"
  | .buddy _, b => b.used = false → 0 < b.size → b.owner = "Free"

/-- The assignments `kfree` makes to the chunk it finds. -/
def Chunk.release : Pos → Chunk → Chunk
  | .slab _ _, b => { b with used := false, owner := "Free", size := 0 }
  | .buddy _, b => { b with used := false, owner := "Free" }

theorem chunk_freeAt_eq (h : HeapState) (p : Pos) :
    (h.freeAt p).chunk = Function.update h.chunk p ((h.chunk p).release p) := by
  cases p with
  | slab c i => exact chunk_modifySlab h c i _ _
  | buddy i => exact chunk_modifyBuddy h i fun b => { b with used := false, owner := "Free" }

theorem tidy_release (p : Pos) (b : Chunk) : Tidy p (b.release p) := by
  cases p with
  | slab c i => exact fun _ => ⟨rfl, rfl⟩
  | buddy i => exact fun _ _ => rfl

theorem tidy_take (p : Pos) (b : Chunk) (size : Nat) (owner : String) :
    Tidy p (b.take size owner) := by
  cases p with
  | slab c i => exact fun hun => absurd hun (by simp [Chunk.take])
  | buddy i => exact fun hun => absurd hun (by simp [Chunk.take])

/-- One chunk is written, and with what is fit for it. -/
theorem tidy_update {h h' : HeapState} {p : Pos} {b : Chunk} (htidy : ∀ q, Tidy q (h.chunk q))
    (hchunk : h'.chunk = Function.update h.chunk p b) (hb : Tidy p b) (q : Pos) :
    Tidy q (h'.chunk q) := by
  rw [hchunk]
  by_cases hq : q = p
  · subst hq
    rw [Function.update_self]
    exact hb
  · rw [Function.update_of_ne hq]
    exact htidy q

/-- A merge leaves the owner of the left block, and the right one without a size. -/
theorem coalesceAt_tidy {h : HeapState} (hinv : Inv h) {i : Nat} (hi : i + 1 < buddyBlocksMax)
    (htidy : ∀ q, Tidy q (h.chunk q)) (q : Pos) : Tidy q ((coalesceAt h i).chunk q) := by
  unfold coalesceAt
  by_cases hm : mergeable i h = true
  swap
  · rw [if_neg hm]
    exact htidy q
  rw [if_pos hm]
  rcases hinv.mergeable_size hi hm with ⟨hu₁, -, hs₁, -⟩
  rcases chunk_merge hi hs₁ with ⟨hleft, hright, hrest⟩
  -- the left block was free with a size before, so its owner is right already
  by_cases hq₁ : q = .buddy ⟨i, by omega⟩
  · rw [hq₁, hleft]
    intro _ _
    apply htidy (.buddy ⟨i, by omega⟩) hu₁
    show 0 < (h.buddyBlocks i).size
    omega
  by_cases hq₂ : q = .buddy ⟨i + 1, hi⟩
  · rw [hq₂, hright]
    intro _ hpos
    simp at hpos
  rw [hrest q hq₁ hq₂]
  exact htidy q

theorem step_tidy {s : History} (href : Refines s) (htidy : ∀ q, Tidy q (s.heap.chunk q))
    (c : Call) : ∀ q, Tidy q ((step s c).heap.chunk q) := by
  cases c with
  | kmalloc size owner =>
    rcases kmalloc_cases href.inv size owner with ⟨p, -, -, -, hk⟩ | ⟨-, hk⟩
    · simp only [step, hk]
      exact tidy_update htidy (chunk_takeAt s.heap size owner p) (tidy_take p _ size owner)
    · simp only [step, hk]
      exact htidy
  | kfree addr =>
    rcases kfree_cases href.inv addr with ⟨p, -, -, hk⟩ | ⟨-, hk⟩
    · simp only [step, hk]
      exact tidy_update htidy (chunk_freeAt_eq s.heap p) (tidy_release p _)
    · simp only [step, hk]
      exact htidy
  | heapCoalesce =>
    have hrule := heapCoalesce_rule (P := fun h => ∀ q, Tidy q (h.chunk q)) href.inv htidy
      fun h i hi hinv ht => coalesceAt_tidy hinv hi ht
    exact hrule.2

theorem run_tidy (calls : List Call) (q : Pos) : Tidy q ((run calls).heap.chunk q) := by
  have hinit : ∀ q, Tidy q (heapInitialize.chunk q) := by
    intro q
    cases q with
    | slab c i => exact fun _ => ⟨rfl, rfl⟩
    | buddy i => exact fun _ _ => rfl
  have hstep : ∀ s c, (Refines s ∧ ∀ q, Tidy q (s.heap.chunk q)) →
      Refines (step s c) ∧ ∀ q, Tidy q ((step s c).heap.chunk q) := by
    rintro s c ⟨href, htidy⟩
    exact ⟨(step_refines href c).1, step_tidy href htidy c⟩
  exact (Run.foldl_invariant _ hstep ⟨refines_init, hinit⟩ calls).2 q

/-! ## The pair of calls -/

/-- Every chunk and every counter is as it was. -/
structure Restored (h h' : HeapState) : Prop where
  chunks : ∀ p, h'.chunk p = h.chunk p
  counts : ∀ c, (h'.slabCaches c).freeCount = (h.slabCaches c).freeCount

/-- The request is served by a slab object, or by a block of exactly its size. -/
def ExactFit (size : Nat) (h : HeapState) : Prop :=
  slabSlot size h ≠ none ∨ ∃ i, firstFit size h = some i ∧ (h.buddyBlocks i).size = size

/-- Where `kmalloc` finds the memory it grants. -/
theorem kmalloc_granted {h : HeapState} (hinv : Inv h) {size addr : Nat} {owner : String}
    (hgrant : (kmalloc size owner h).1 = some addr) :
    ∃ p, addr = base p ∧ (h.chunk p).used = false ∧ 0 < size ∧
      (size ≤ (h.chunk p).size ∨ ∃ c i, p = .slab c i ∧ size ≤ 256) ∧
      (kmalloc size owner h).2 = h.takeAt size owner p ∧
      (ExactFit size h ↔ ∀ i, p = .buddy i → (h.chunk p).size = size) := by
  have hpos : size ≠ 0 := by
    intro hzero
    rw [kmalloc, if_pos hzero] at hgrant
    cases hgrant
  rw [kmalloc, if_neg hpos] at hgrant ⊢
  -- the slabs are tried first
  rcases hslab : slabSlot size h with _ | ⟨c, i⟩
  · rcases hfit : firstFit size h with _ | i
    · simp only [hslab, hfit] at hgrant
      cases hgrant
    rcases firstFit_spec hinv hfit with ⟨hi, hun, hle⟩
    simp only [hslab, hfit, Option.some.injEq] at hgrant
    refine ⟨.buddy ⟨i, hi⟩, ?_, hun, Nat.pos_of_ne_zero hpos, Or.inl hle, rfl, ?_⟩
    · rw [← hinv.address, ← hgrant]
      rfl
    · simp [ExactFit, hslab, hfit, HeapState.chunk]
  · rcases slabSlot_spec hslab with ⟨hun, hle⟩
    simp only [hslab, Option.some.injEq] at hgrant
    refine ⟨.slab c i, ?_, hun, Nat.pos_of_ne_zero hpos, Or.inr ⟨c, i, rfl, hle⟩, rfl, ?_⟩
    · rw [← hinv.address, ← hgrant]
      rfl
    · simp [ExactFit, hslab]

/-- `kfree` finds the chunk `kmalloc` took. -/
theorem kfree_takeAt {h : HeapState} {size : Nat} {owner : String} {p : Pos}
    (hinv : Inv (h.takeAt size owner p)) :
    kfree (base p) (h.takeAt size owner p) = (h.takeAt size owner p).freeAt p := by
  have hused : ((h.takeAt size owner p).chunk p).used = true := by
    rw [chunk_takeAt, Function.update_self]
    rfl
  rcases kfree_cases hinv (base p) with ⟨q, -, hbase, hk⟩ | ⟨hnone, -⟩
  · rw [hk, base_injective hbase]
  · exact absurd rfl (hnone p hused)

/-- The counter of the cache is taken down and up again. -/
theorem freeCount_takeAt_freeAt (h : HeapState) (size : Nat) (owner : String) (p : Pos)
    (c : Fin 5) :
    (((h.takeAt size owner p).freeAt p).slabCaches c).freeCount = (h.slabCaches c).freeCount := by
  cases p with
  | buddy i => rfl
  | slab c' i =>
    by_cases hc : c = c'
    · subst hc
      simp [HeapState.takeAt, HeapState.freeAt, HeapState.modifySlab, SlabCache.modify]
    · simp [HeapState.takeAt, HeapState.freeAt, HeapState.modifySlab, hc]

/-- What comes back of the chunk: all of a slab object, all but the size of a block. -/
theorem release_take_eq_iff {p : Pos} {b : Chunk} {size : Nat} (owner : String) (htidy : Tidy p b)
    (hun : b.used = false) (hpos : 0 < size) (hle : ∀ i, p = .buddy i → size ≤ b.size) :
    (b.take size owner).release p = b ↔ ∀ i, p = .buddy i → b.size = size := by
  rcases b with ⟨address, bsize, used, bowner⟩
  cases p with
  | slab c i =>
    obtain ⟨rfl, rfl⟩ : bsize = 0 ∧ bowner = "Free" := htidy hun
    have hun' : used = false := hun
    simp [Chunk.take, Chunk.release, hun']
  | buddy i =>
    obtain rfl : bowner = "Free" := htidy hun (lt_of_lt_of_le hpos (hle i rfl))
    have hun' : used = false := hun
    simp [Chunk.take, Chunk.release, hun', eq_comm]

/-- In every state the heap can reach, `kfree` undoes a `kmalloc` that was granted exactly when
the request was served by a slab object or fits its block exactly. -/
theorem kfree_undoes_kmalloc_iff (calls : List Call) (size : Nat) (owner : String) (addr : Nat)
    (hgrant : (kmalloc size owner (run calls).heap).1 = some addr) :
    Restored (run calls).heap (kfree addr (kmalloc size owner (run calls).heap).2) ↔
      ExactFit size (run calls).heap := by
  have hinv := (run_refines calls).1.inv
  have htidy := run_tidy calls
  generalize (run calls).heap = h at *
  rcases kmalloc_granted hinv hgrant with ⟨p, rfl, hun, hpos, hsize, hk, hexact⟩
  have hle : ∀ i, p = .buddy i → size ≤ (h.chunk p).size := by
    rintro i rfl
    rcases hsize with hsize | ⟨c, j, hcj, -⟩
    · exact hsize
    · cases hcj
  have hback := release_take_eq_iff owner (htidy p) hun hpos hle
  rw [hexact, ← hback, hk, kfree_takeAt (hinv.takeAt owner hun hpos hsize)]
  -- both calls write the one chunk, so the states differ there or nowhere
  have hchunk : ((h.takeAt size owner p).freeAt p).chunk =
      Function.update h.chunk p (((h.chunk p).take size owner).release p) := by
    rw [chunk_freeAt_eq, chunk_takeAt, Function.update_self, Function.update_idem]
  constructor
  · intro hrestored
    have hp := hrestored.chunks p
    rw [hchunk, Function.update_self] at hp
    exact hp
  · intro hp
    refine ⟨?_, freeCount_takeAt_freeAt h size owner p⟩
    intro q
    rw [hchunk, hp, Function.update_eq_self]

/-- A request of 16 bytes after boot. -/
theorem kfree_undoes_slab :
    Restored (run []).heap (kfree 0x100000 (kmalloc 16 "tcb" (run []).heap).2) :=
  (kfree_undoes_kmalloc_iff [] 16 "tcb" 0x100000 (by decide +kernel)).2 (Or.inl (by decide +kernel))

/-- A request of 300 bytes after boot takes the first block, which has 300 bytes from then on. -/
theorem kfree_loses_capacity :
    (kmalloc 300 "tcb" (run []).heap).1 = some 0x200000 ∧
      ((run []).heap.buddyBlocks 0).size = 0x100000 ∧
      ((kfree 0x200000 (kmalloc 300 "tcb" (run []).heap).2).buddyBlocks 0).size = 300 ∧
      ¬ Restored (run []).heap (kfree 0x200000 (kmalloc 300 "tcb" (run []).heap).2) := by
  have hbefore : ((run []).heap.buddyBlocks 0).size = 0x100000 := rfl
  have hafter : ((kfree 0x200000 (kmalloc 300 "tcb" (run []).heap).2).buddyBlocks 0).size = 300 := by
    decide +kernel
  refine ⟨by decide +kernel, hbefore, hafter, ?_⟩
  intro hrestored
  have hsize := congrArg Chunk.size (hrestored.chunks (.buddy ⟨0, by decide⟩))
  have hsame : ((kfree 0x200000 (kmalloc 300 "tcb" (run []).heap).2).buddyBlocks 0).size =
      ((run []).heap.buddyBlocks 0).size := hsize
  rw [hafter, hbefore] at hsame
  omega

end CosKernel.Heap
