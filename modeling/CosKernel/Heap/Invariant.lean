import CosKernel.Heap.Model

/-!
# The layout invariant of the kernel heap

Slab objects and buddy blocks are addressed uniformly by a position `Pos`, and
`HeapState.chunk` reads the chunk there. `kmalloc` and `kfree` are `takeAt` and
`freeAt` at the position found (`kmalloc_cases`, `kfree_cases`), which change the
chunk of one position only.

The invariant that makes live allocations disjoint concerns *all* blocks, used
or not: a block ends before the next block with a non-zero size begins
(`Inv.gap`). `heap_coalesce` can merge two blocks only when the left one still
has its initial size, and the block that grows then covers exactly what the two
covered.
-/

namespace CosKernel.Heap

open Allocator

/-! ## Positions -/

/-- A slab object or a buddy block. -/
inductive Pos where
  | slab (c : Fin 5) (i : Fin slabObjectsPerCache)
  | buddy (i : Fin buddyBlocksMax)
deriving DecidableEq, Repr

/-- The chunk at a position. -/
def HeapState.chunk (h : HeapState) : Pos → Chunk
  | .slab c i => (h.slabCaches c).objects i
  | .buddy i => h.buddyBlocks i

/-- The address `heap_initialize` gives a position. -/
def base : Pos → Nat
  | .slab c i => 0x100000 + c.val * 0x10000 + i.val * 512
  | .buddy i => 0x200000 + i.val * 0x100000

/-- The memory a position stands for now. -/
def HeapState.extent (h : HeapState) (p : Pos) : Extent := ⟨(h.chunk p).address, (h.chunk p).size⟩

/-- What `kmalloc` does to the chunk it takes. -/
def HeapState.takeAt (h : HeapState) (size : Nat) (owner : String) : Pos → HeapState
  | .slab c i => h.modifySlab c i (Chunk.take size owner) (· - 1)
  | .buddy i => h.modifyBuddy i (Chunk.take size owner)

/-- What `kfree` does to the chunk it finds. -/
def HeapState.freeAt (h : HeapState) : Pos → HeapState
  | .slab c i =>
    h.modifySlab c i (fun b => { b with used := false, owner := "Free", size := 0 }) (· + 1)
  | .buddy i => h.modifyBuddy i fun b => { b with used := false, owner := "Free" }

theorem chunk_modifySlab (h : HeapState) (c : Fin 5) (i : Fin slabObjectsPerCache)
    (f : Chunk → Chunk) (g : UInt32 → UInt32) :
    (h.modifySlab c i f g).chunk = Function.update h.chunk (.slab c i) (f (h.chunk (.slab c i))) := by
  funext p
  cases p with
  | slab c' i' =>
    by_cases hc : c' = c
    · subst hc
      by_cases hi : i' = i
      · subst hi
        simp [HeapState.chunk, HeapState.modifySlab, SlabCache.modify]
      · simp [HeapState.chunk, HeapState.modifySlab, SlabCache.modify, hi]
    · simp [HeapState.chunk, HeapState.modifySlab, hc]
  | buddy j => simp [HeapState.chunk, HeapState.modifySlab]

theorem chunk_modifyBuddy (h : HeapState) (i : Fin buddyBlocksMax) (f : Chunk → Chunk) :
    (h.modifyBuddy i f).chunk = Function.update h.chunk (.buddy i) (f (h.chunk (.buddy i))) := by
  funext p
  cases p with
  | slab c j => simp [HeapState.chunk, HeapState.modifyBuddy]
  | buddy j =>
    by_cases hj : j = i
    · subst hj
      simp [HeapState.chunk, HeapState.modifyBuddy]
    · have hne : j.val ≠ i.val := fun heq => hj (Fin.ext heq)
      simp [HeapState.chunk, HeapState.modifyBuddy, hj, hne]

/-- `takeAt` writes one chunk. -/
theorem chunk_takeAt (h : HeapState) (size : Nat) (owner : String) (p : Pos) :
    (h.takeAt size owner p).chunk = Function.update h.chunk p ((h.chunk p).take size owner) := by
  cases p with
  | slab c i => exact chunk_modifySlab h c i _ _
  | buddy i => exact chunk_modifyBuddy h i _

/-- `freeAt` writes one chunk: it is unused now, and not larger than before. -/
theorem chunk_freeAt (h : HeapState) (p : Pos) :
    ∃ b, (h.freeAt p).chunk = Function.update h.chunk p b ∧ b.used = false ∧
      b.address = (h.chunk p).address ∧ b.size ≤ (h.chunk p).size := by
  cases p with
  | slab c i =>
    exact ⟨{ h.chunk (.slab c i) with used := false, owner := "Free", size := 0 },
      chunk_modifySlab h c i _ _, rfl, rfl, Nat.zero_le _⟩
  | buddy i =>
    exact ⟨{ h.chunk (.buddy i) with used := false, owner := "Free" },
      chunk_modifyBuddy h i fun b => { b with used := false, owner := "Free" }, rfl, rfl, le_rfl⟩

/-! ## The invariant -/

/-- The number of unused objects of a cache. -/
def unused (c : SlabCache) : Nat := (Finset.univ.filter fun i => (c.objects i).used = false).card

/-- The bytes the slab objects may occupy. -/
def slabRegion : Set ℕ := Set.Ico 0x100000 0x144000

/-- The bytes of the buddy blocks. -/
def buddyRegion : Set ℕ := Set.Ico 0x200000 0x4200000

/-- The bytes the heap manages. -/
def heapArena : Set ℕ := slabRegion ∪ buddyRegion

structure Inv (h : HeapState) : Prop where
  count : h.buddyBlockCount = UInt32.ofNat buddyBlocksMax
  address : ∀ p, (h.chunk p).address = base p
  slabSize : ∀ c i, (h.chunk (.slab c i)).size ≤ 256
  buddyEnd : ∀ i, base (.buddy i) + (h.chunk (.buddy i)).size ≤ 0x4200000
  gap : ∀ i j, i < j → 0 < (h.chunk (.buddy j)).size →
    base (.buddy i) + (h.chunk (.buddy i)).size ≤ base (.buddy j)
  pos : ∀ p, (h.chunk p).used = true → 0 < (h.chunk p).size
  freeCount : ∀ c, (h.slabCaches c).freeCount = UInt32.ofNat (unused (h.slabCaches c))

theorem heapInitialize_inv : Inv heapInitialize where
  count := rfl
  address := fun p => by cases p <;> rfl
  slabSize := fun c i => Nat.zero_le _
  buddyEnd := fun i => by
    have := i.isLt
    simp only [buddyBlocksMax] at this
    simp only [base, HeapState.chunk, heapInitialize, initBuddyBlocks]
    omega
  gap := fun i j hij _ => by
    have : i.val < j.val := hij
    simp only [base, HeapState.chunk, heapInitialize, initBuddyBlocks]
    omega
  pos := fun p hp => by cases p <;> simp [HeapState.chunk, heapInitialize, initSlabCaches, initBuddyBlocks] at hp
  freeCount := fun c => by simp [heapInitialize, initSlabCaches, unused]

/-- Two positions never stand for the same byte. -/
theorem Inv.apart {h : HeapState} (hinv : Inv h) {p q : Pos} (hne : p ≠ q)
    (hp : 0 < (h.chunk p).size) (hq : 0 < (h.chunk q).size) : (h.extent p).Apart (h.extent q) := by
  rw [Extent.apart_iff hp hq]
  simp only [HeapState.extent, hinv.address]
  cases p with
  | slab c i =>
    have h₁ := hinv.slabSize c i
    have hc := c.isLt
    have hi := i.isLt
    simp only [slabObjectsPerCache] at hi
    cases q with
    | slab c' i' =>
      have h₂ := hinv.slabSize c' i'
      have hi' := i'.isLt
      simp only [slabObjectsPerCache] at hi'
      -- objects are 512 bytes apart and at most 256 bytes long
      have hne' : c.val ≠ c'.val ∨ i.val ≠ i'.val := by
        by_contra hcon
        push Not at hcon
        exact hne (by rw [Fin.ext hcon.1, Fin.ext hcon.2])
      simp only [base]
      omega
    | buddy j =>
      simp only [base]
      omega
  | buddy i =>
    cases q with
    | slab c' i' =>
      have h₂ := hinv.slabSize c' i'
      have hc := c'.isLt
      have hi' := i'.isLt
      simp only [slabObjectsPerCache] at hi'
      simp only [base]
      omega
    | buddy j =>
      rcases lt_trichotomy i j with hij | hij | hij
      · exact Or.inl (hinv.gap i j hij hq)
      · exact absurd (congrArg Pos.buddy hij) hne
      · exact Or.inr (hinv.gap j i hij hp)

/-- Every position lies in one of the two regions. -/
theorem Inv.inside {h : HeapState} (hinv : Inv h) (p : Pos) :
    (h.extent p).bytes ⊆ slabRegion ∨ (h.extent p).bytes ⊆ buddyRegion := by
  cases p with
  | slab c i =>
    left
    intro a ha
    have h₁ := hinv.slabSize c i
    have hc := c.isLt
    have hi := i.isLt
    simp only [slabObjectsPerCache] at hi
    simp only [Extent.bytes, HeapState.extent, hinv.address, Set.mem_Ico, base] at ha
    simp only [slabRegion, Set.mem_Ico]
    omega
  | buddy i =>
    right
    intro a ha
    have h₁ := hinv.buddyEnd i
    simp only [Extent.bytes, HeapState.extent, hinv.address, Set.mem_Ico, base] at ha h₁
    simp only [buddyRegion, Set.mem_Ico]
    omega

/-- A position is at no address but its own. -/
theorem base_injective : Function.Injective base := by
  intro p q hpq
  cases p with
  | slab c i =>
    have hc := c.isLt
    have hi := i.isLt
    simp only [slabObjectsPerCache] at hi
    cases q with
    | slab c' i' =>
      have hi' := i'.isLt
      simp only [slabObjectsPerCache] at hi'
      simp only [base] at hpq
      have hcc : c.val = c'.val := by omega
      have hii : i.val = i'.val := by omega
      rw [Fin.ext hcc, Fin.ext hii]
    | buddy j =>
      simp only [base] at hpq
      omega
  | buddy i =>
    cases q with
    | slab c' i' =>
      have hc := c'.isLt
      have hi' := i'.isLt
      simp only [slabObjectsPerCache] at hi'
      simp only [base] at hpq
      omega
    | buddy j =>
      simp only [base] at hpq
      have hij : i.val = j.val := by omega
      rw [Fin.ext hij]

theorem base_pos (p : Pos) : 0 < base p := by
  cases p with
  | slab c i => simp [base]
  | buddy i => simp [base]

/-! ## Writing one chunk -/

/-- A chunk may be overwritten by one that is not larger than its position allows. -/
theorem Inv.update {h h' : HeapState} (hinv : Inv h) {p : Pos} {b : Chunk}
    (hchunk : h'.chunk = Function.update h.chunk p b) (haddr : b.address = (h.chunk p).address)
    (hpos : b.used = true → 0 < b.size)
    (hsize : b.size ≤ (h.chunk p).size ∨ ∃ c i, p = .slab c i ∧ b.size ≤ 256)
    (hcount : h'.buddyBlockCount = h.buddyBlockCount)
    (hfree : ∀ c, (h'.slabCaches c).freeCount = UInt32.ofNat (unused (h'.slabCaches c))) :
    Inv h' := by
  -- a block never grows here, so its end and the gaps behind it only move away
  have hbuddy : ∀ i, (h'.chunk (.buddy i)).size ≤ (h.chunk (.buddy i)).size := by
    intro i
    rw [hchunk]
    by_cases hp : Pos.buddy i = p
    · subst hp
      rw [Function.update_self]
      rcases hsize with hsize | ⟨c, j, hcj, -⟩
      · exact hsize
      · cases hcj
    · rw [Function.update_of_ne hp]
  refine ⟨hcount.trans hinv.count, ?_, ?_, ?_, ?_, ?_, hfree⟩
  · intro q
    rw [hchunk]
    by_cases hq : q = p
    · subst hq
      rw [Function.update_self, haddr]
      exact hinv.address q
    · rw [Function.update_of_ne hq]
      exact hinv.address q
  · intro c i
    rw [hchunk]
    by_cases hp : Pos.slab c i = p
    · subst hp
      rw [Function.update_self]
      rcases hsize with hsize | ⟨-, -, -, hsize⟩
      · exact hsize.trans (hinv.slabSize c i)
      · exact hsize
    · rw [Function.update_of_ne hp]
      exact hinv.slabSize c i
  · intro i
    have := hinv.buddyEnd i
    have := hbuddy i
    omega
  · intro i j hij hj
    have := hinv.gap i j hij (lt_of_lt_of_le hj (hbuddy j))
    have := hbuddy i
    omega
  · intro q
    rw [hchunk]
    by_cases hq : q = p
    · subst hq
      rw [Function.update_self]
      exact hpos
    · rw [Function.update_of_ne hq]
      exact hinv.pos q

section FreeCount

variable {c : SlabCache} {i : Fin slabObjectsPerCache} {f : Chunk → Chunk} {g : UInt32 → UInt32}

@[simp] theorem modify_objects_self : (c.modify i f g).objects i = f (c.objects i) := by
  simp [SlabCache.modify]

@[simp] theorem modify_objects_ne {j : Fin slabObjectsPerCache} (hj : j ≠ i) :
    (c.modify i f g).objects j = c.objects j := by
  simp [SlabCache.modify, hj]

/-- Taking an unused object leaves one less. -/
theorem unused_take (hi : (c.objects i).used = false) (hf : (f (c.objects i)).used = true) :
    unused (c.modify i f g) + 1 = unused c := by
  unfold unused
  have hset : (Finset.univ.filter fun j => ((c.modify i f g).objects j).used = false) =
      (Finset.univ.filter fun j => (c.objects j).used = false).erase i := by
    ext j
    simp only [Finset.mem_filter, Finset.mem_univ, true_and, Finset.mem_erase]
    by_cases hj : j = i
    · subst hj
      simp [hf]
    · simp [hj]
  rw [hset]
  exact Finset.card_erase_add_one (by simp [hi])

/-- Giving back a used object leaves one more. -/
theorem unused_free (hi : (c.objects i).used = true) (hf : (f (c.objects i)).used = false) :
    unused (c.modify i f g) = unused c + 1 := by
  unfold unused
  have hset : (Finset.univ.filter fun j => ((c.modify i f g).objects j).used = false) =
      insert i (Finset.univ.filter fun j => (c.objects j).used = false) := by
    ext j
    simp only [Finset.mem_filter, Finset.mem_univ, true_and, Finset.mem_insert]
    by_cases hj : j = i
    · subst hj
      simp [hf]
    · simp [hj]
  rw [hset]
  exact Finset.card_insert_of_notMem (by simp [hi])

end FreeCount

/-- `kmalloc` on an unused chunk that is large enough keeps the invariant. -/
theorem Inv.takeAt {h : HeapState} (hinv : Inv h) {p : Pos} {size : Nat} (owner : String)
    (hunused : (h.chunk p).used = false) (hpos : 0 < size)
    (hsize : size ≤ (h.chunk p).size ∨ ∃ c i, p = .slab c i ∧ size ≤ 256) :
    Inv (h.takeAt size owner p) := by
  refine hinv.update (chunk_takeAt h size owner p) rfl (fun _ => hpos) hsize ?_ ?_
  · cases p <;> rfl
  · intro c
    cases p with
    | buddy i => exact hinv.freeCount c
    | slab c' i =>
      by_cases hc : c = c'
      · subst hc
        have hcard := unused_take (g := (· - 1)) (f := Chunk.take size owner) hunused rfl
        simp only [HeapState.takeAt, HeapState.modifySlab, Function.update_self]
        change (h.slabCaches c).freeCount - 1 = _
        -- there was an unused object, so the counter does not go below zero
        rw [hinv.freeCount c, ← hcard, UInt32.ofNat_add]
        exact UInt32.add_sub_cancel _ _
      · simp only [HeapState.takeAt, HeapState.modifySlab, Function.update_of_ne hc]
        exact hinv.freeCount c

/-- `kfree` of a used chunk keeps the invariant. -/
theorem Inv.freeAt {h : HeapState} (hinv : Inv h) {p : Pos} (hused : (h.chunk p).used = true) :
    Inv (h.freeAt p) := by
  rcases chunk_freeAt h p with ⟨b, hchunk, hbused, haddr, hsize⟩
  refine hinv.update hchunk haddr (by simp [hbused]) (Or.inl hsize) ?_ ?_
  · cases p <;> rfl
  · intro c
    cases p with
    | buddy i => exact hinv.freeCount c
    | slab c' i =>
      by_cases hc : c = c'
      · subst hc
        have hcard := unused_free (g := (· + 1))
          (f := fun b => { b with used := false, owner := "Free", size := 0 }) hused rfl
        simp only [HeapState.freeAt, HeapState.modifySlab, Function.update_self]
        change (h.slabCaches c).freeCount + 1 = _
        rw [hinv.freeCount c, hcard, UInt32.ofNat_add]
        rfl
      · simp only [HeapState.freeAt, HeapState.modifySlab, Function.update_of_ne hc]
        exact hinv.freeCount c

/-! ## What the calls do -/

theorem Inv.count_toNat {h : HeapState} (hinv : Inv h) : h.buddyBlockCount.toNat = buddyBlocksMax := by
  rw [hinv.count]
  rfl

theorem sizeClass_le {size : Nat} {c : Fin 5} (hc : sizeClass size = some c) : size ≤ 256 := by
  by_contra hlt
  unfold sizeClass at hc
  rw [if_neg (by omega), if_neg (by omega), if_neg (by omega), if_neg (by omega),
    if_neg (by omega)] at hc
  cases hc

/-- No memory for this request: its size class, if it has one, is used up, and no unused block
is large enough. -/
def Exhausted (size : Nat) (h : HeapState) : Prop :=
  (∀ c, sizeClass size = some c → ∀ i, ((h.slabCaches c).objects i).used = true) ∧
    ∀ i, i < h.buddyBlockCount.toNat → (h.buddyBlocks i).used = false →
      ¬ size ≤ (h.buddyBlocks i).size

/-- The slab object found is unused, and the request not larger than the largest objects. -/
theorem slabSlot_spec {h : HeapState} {size : Nat} {c : Fin 5} {i : Fin slabObjectsPerCache}
    (hslab : slabSlot size h = some (c, i)) :
    (h.chunk (.slab c i)).used = false ∧ size ≤ 256 := by
  unfold slabSlot firstUnused at hslab
  rw [Option.bind_eq_some_iff] at hslab
  rcases hslab with ⟨c', hc', hi⟩
  rw [Option.map_eq_some_iff] at hi
  rcases hi with ⟨i', hi', heq⟩
  have hprop := List.find?_some hi'
  cases heq
  rw [Bool.not_eq_true'] at hprop
  exact ⟨hprop, sizeClass_le hc'⟩

/-- The block found is unused and large enough. -/
theorem firstFit_spec {h : HeapState} (hinv : Inv h) {size i : Nat} (hfit : firstFit size h = some i) :
    ∃ hi : i < buddyBlocksMax, (h.chunk (.buddy ⟨i, hi⟩)).used = false ∧
      size ≤ (h.chunk (.buddy ⟨i, hi⟩)).size := by
  unfold firstFit at hfit
  have hmem := List.mem_of_find?_eq_some hfit
  have hprop := List.find?_some hfit
  rw [List.mem_range, hinv.count_toNat] at hmem
  rw [Bool.and_eq_true, decide_eq_true_eq, Bool.not_eq_true'] at hprop
  exact ⟨hmem, hprop⟩

/-- `kmalloc` takes an unused chunk of sufficient size, or there is none and nothing changes. -/
theorem kmalloc_cases {h : HeapState} (hinv : Inv h) (size : Nat) (owner : String) :
    (∃ p, 0 < size ∧ (h.chunk p).used = false ∧
      (size ≤ (h.chunk p).size ∨ ∃ c i, p = .slab c i ∧ size ≤ 256) ∧
      kmalloc size owner h = (some (h.chunk p).address, h.takeAt size owner p)) ∨
    ((size = 0 ∨ Exhausted size h) ∧ kmalloc size owner h = (none, h)) := by
  unfold kmalloc
  by_cases hsize : size = 0
  · right
    exact ⟨Or.inl hsize, if_pos hsize⟩
  rw [if_neg hsize]
  rcases hslab : slabSlot size h with _ | ⟨c, i⟩
  · -- no slab object: the blocks are searched
    have hfull : ∀ c, sizeClass size = some c → ∀ i, ((h.slabCaches c).objects i).used = true := by
      intro c hc i
      unfold slabSlot firstUnused at hslab
      rw [hc, Option.bind_some, Option.map_eq_none_iff, List.find?_eq_none] at hslab
      simpa using hslab i (List.mem_finRange i)
    rcases hfit : firstFit size h with _ | i
    · right
      refine ⟨Or.inr ⟨hfull, ?_⟩, rfl⟩
      intro i hi hun hle
      unfold firstFit at hfit
      rw [List.find?_eq_none] at hfit
      have := hfit i (List.mem_range.2 hi)
      simp [hun, hle] at this
    · left
      rcases firstFit_spec hinv hfit with ⟨hi, hun, hle⟩
      exact ⟨.buddy ⟨i, hi⟩, Nat.pos_of_ne_zero hsize, hun, Or.inl hle, rfl⟩
  · left
    rcases slabSlot_spec hslab with ⟨hun, hle⟩
    exact ⟨.slab c i, Nat.pos_of_ne_zero hsize, hun, Or.inr ⟨c, i, rfl, hle⟩, rfl⟩

/-- A `kmalloc` that fails changes nothing, in whatever state the heap is. -/
theorem kmalloc_none {size : Nat} {owner : String} {h : HeapState}
    (hnone : (kmalloc size owner h).1 = none) : kmalloc size owner h = (none, h) := by
  unfold kmalloc at hnone ⊢
  split
  · rfl
  rename_i hsize
  rw [if_neg hsize] at hnone
  rcases hslab : slabSlot size h with _ | ⟨c, i⟩
  · simp only [hslab] at hnone ⊢
    rcases hfit : firstFit size h with _ | i
    · rfl
    · rw [hfit] at hnone
      cases hnone
  · rw [hslab] at hnone
    cases hnone

/-- No allocation is larger than the blocks together. -/
theorem kmalloc_size_le {h h' : HeapState} (hinv : Inv h) {size addr : Nat} {owner : String}
    (hk : kmalloc size owner h = (some addr, h')) : size ≤ 0x4000000 := by
  rcases kmalloc_cases hinv size owner with ⟨p, -, -, hsize, -⟩ | ⟨-, hnone⟩
  swap
  · rw [hnone] at hk
    cases hk
  rcases hsize with hsize | ⟨c, i, -, hsize⟩
  swap
  · omega
  cases p with
  | slab c i =>
    have hslab := hinv.slabSize c i
    omega
  | buddy i =>
    have hend := hinv.buddyEnd i
    simp only [base] at hend
    omega

/-- `kfree` gives back the used chunk at the address, or there is none and nothing changes. -/
theorem kfree_cases {h : HeapState} (hinv : Inv h) (addr : Nat) :
    (∃ p, (h.chunk p).used = true ∧ base p = addr ∧ kfree addr h = h.freeAt p) ∨
    ((∀ p, (h.chunk p).used = true → base p ≠ addr) ∧ kfree addr h = h) := by
  unfold kfree
  by_cases haddr : addr = 0
  · right
    refine ⟨?_, if_pos haddr⟩
    intro p _ hp
    have := base_pos p
    omega
  rw [if_neg haddr]
  rcases hslab : findSlab addr h with _ | ⟨c, i⟩
  · have hnoslab : ∀ c i, (h.chunk (.slab c i)).used = true → base (.slab c i) ≠ addr := by
      intro c i hused hb
      unfold findSlab at hslab
      rw [List.findSome?_eq_none_iff] at hslab
      have hc := hslab c (List.mem_finRange c)
      rw [Option.map_eq_none_iff, List.find?_eq_none] at hc
      have hci := hc i (List.mem_finRange i)
      have haddr' : ((h.slabCaches c).objects i).address = addr :=
        (hinv.address (.slab c i)).trans hb
      have hused' : ((h.slabCaches c).objects i).used = true := hused
      simp [haddr', hused'] at hci
    rcases hbud : findBuddy addr h with _ | i
    · right
      refine ⟨?_, rfl⟩
      intro p hused hb
      cases p with
      | slab c i => exact hnoslab c i hused hb
      | buddy i =>
        unfold findBuddy at hbud
        rw [List.find?_eq_none] at hbud
        have hi := hbud i (by rw [List.mem_range, hinv.count_toNat]; exact i.isLt)
        have haddr' : (h.buddyBlocks i).address = addr := (hinv.address (.buddy i)).trans hb
        have hused' : (h.buddyBlocks i).used = true := hused
        simp [haddr', hused'] at hi
    · left
      unfold findBuddy at hbud
      have hmem := List.mem_of_find?_eq_some hbud
      have hprop := List.find?_some hbud
      rw [List.mem_range, hinv.count_toNat] at hmem
      rw [Bool.and_eq_true, decide_eq_true_eq] at hprop
      refine ⟨.buddy ⟨i, hmem⟩, hprop.2, ?_, rfl⟩
      exact (hinv.address (.buddy ⟨i, hmem⟩)).symm.trans hprop.1
  · left
    unfold findSlab at hslab
    rw [List.findSome?_eq_some_iff] at hslab
    rcases hslab with ⟨-, c', -, -, hc', -⟩
    rw [Option.map_eq_some_iff] at hc'
    rcases hc' with ⟨i', hi', heq⟩
    have hprop := List.find?_some hi'
    cases heq
    rw [Bool.and_eq_true, decide_eq_true_eq] at hprop
    exact ⟨.slab c i, hprop.2, (hinv.address (.slab c i)).symm.trans hprop.1, rfl⟩

/-! ## `heap_coalesce` -/

/-- A merge is possible only while the left block has its initial size. -/
theorem Inv.mergeable_size {h : HeapState} (hinv : Inv h) {i : Nat} (hi : i + 1 < buddyBlocksMax)
    (hm : mergeable i h = true) :
    (h.buddyBlocks i).used = false ∧ (h.buddyBlocks (i + 1)).used = false ∧
      (h.buddyBlocks i).size = 0x100000 ∧ (h.buddyBlocks (i + 1)).size = 0x100000 := by
  -- equal sizes and adjacent addresses leave only one size for the left block
  unfold mergeable at hm
  simp only [Bool.and_eq_true, Bool.not_eq_true', decide_eq_true_eq] at hm
  rcases hm with ⟨⟨⟨hu₁, hu₂⟩, hsz⟩, hadj⟩
  have ha₁ : (h.buddyBlocks i).address = 0x200000 + i * 0x100000 :=
    hinv.address (.buddy ⟨i, by omega⟩)
  have ha₂ : (h.buddyBlocks (i + 1)).address = 0x200000 + (i + 1) * 0x100000 :=
    hinv.address (.buddy ⟨i + 1, hi⟩)
  -- the sum that is compared does not wrap around
  have he : 0x200000 + i * 0x100000 + (h.buddyBlocks i).size ≤ 0x4200000 :=
    hinv.buddyEnd ⟨i, by omega⟩
  rw [ha₁, ha₂] at hadj
  have h₁ : (h.buddyBlocks i).size = 0x100000 := by omega
  exact ⟨hu₁, hu₂, h₁, hsz ▸ h₁⟩

/-- The chunks after a merge: the two blocks are written, every other position is as before. -/
theorem chunk_merge {h : HeapState} {i : Nat} (hi : i + 1 < buddyBlocksMax)
    (hs : (h.buddyBlocks i).size = 0x100000) :
    (merge i h).chunk (.buddy ⟨i, by omega⟩) = { h.buddyBlocks i with size := 0x200000 } ∧
    (merge i h).chunk (.buddy ⟨i + 1, hi⟩) =
      { h.buddyBlocks (i + 1) with size := 0, owner := "Merged" } ∧
    ∀ p, p ≠ .buddy ⟨i, by omega⟩ → p ≠ .buddy ⟨i + 1, hi⟩ → (merge i h).chunk p = h.chunk p := by
  have h₁ := chunk_modifyBuddy h ⟨i, by omega⟩ fun b => { b with size := b.size * 2 % 2 ^ 64 }
  have h₂ := chunk_modifyBuddy (h.modifyBuddy i fun b => { b with size := b.size * 2 % 2 ^ 64 })
    ⟨i + 1, hi⟩ fun b => { b with size := 0, owner := "Merged" }
  refine ⟨?_, ?_, ?_⟩
  · unfold merge
    rw [h₂, Function.update_of_ne (by simp), h₁, Function.update_self]
    simp [HeapState.chunk, hs]
  · unfold merge
    rw [h₂, Function.update_self, h₁, Function.update_of_ne (by simp)]
    simp [HeapState.chunk]
  · intro p hp₁ hp₂
    unfold merge
    rw [h₂, Function.update_of_ne hp₂, h₁, Function.update_of_ne hp₁]

/-- The sizes of all blocks after a merge, by index. -/
theorem size_merge {h : HeapState} {i : Nat} (hi : i + 1 < buddyBlocksMax)
    (hs : (h.buddyBlocks i).size = 0x100000) (j : Fin buddyBlocksMax) :
    ((merge i h).chunk (.buddy j)).size =
      if j.val = i then 0x200000 else if j.val = i + 1 then 0 else (h.chunk (.buddy j)).size := by
  rcases chunk_merge hi hs with ⟨hleft, hright, hrest⟩
  by_cases hj : j.val = i
  · have hji : j = ⟨i, by omega⟩ := Fin.ext hj
    rw [if_pos hj, hji, hleft]
  by_cases hj' : j.val = i + 1
  · have hji : j = ⟨i + 1, hi⟩ := Fin.ext hj'
    rw [if_neg hj, if_pos hj', hji, hright]
  rw [hrest _ (by simpa [Fin.ext_iff] using hj) (by simpa [Fin.ext_iff] using hj'),
    if_neg hj, if_neg hj']

theorem base_buddy (j : Fin buddyBlocksMax) : base (.buddy j) = 0x200000 + j.val * 0x100000 := rfl

/-- A merge keeps every block inside of the pool. -/
theorem Inv.merge_buddyEnd {h : HeapState} (hinv : Inv h) {i : Nat} (hi : i + 1 < buddyBlocksMax)
    (hs : (h.buddyBlocks i).size = 0x100000) (j : Fin buddyBlocksMax) :
    base (.buddy j) + ((merge i h).chunk (.buddy j)).size ≤ 0x4200000 := by
  have hend := hinv.buddyEnd j
  have hji := j.isLt
  simp only [buddyBlocksMax] at hi hji
  rw [base_buddy] at hend ⊢
  rw [size_merge hi hs]
  by_cases hj : j.val = i
  · rw [if_pos hj]
    omega
  by_cases hj' : j.val = i + 1
  · rw [if_neg hj, if_pos hj']
    omega
  rw [if_neg hj, if_neg hj']
  exact hend

/-- A merge keeps the blocks apart: the merged block ends where the dead one ended. -/
theorem Inv.merge_gap {h : HeapState} (hinv : Inv h) {i : Nat} (hi : i + 1 < buddyBlocksMax)
    (hs₁ : (h.buddyBlocks i).size = 0x100000) (hs₂ : (h.buddyBlocks (i + 1)).size = 0x100000)
    {j k : Fin buddyBlocksMax} (hjk : j < k) (hk : 0 < ((merge i h).chunk (.buddy k)).size) :
    base (.buddy j) + ((merge i h).chunk (.buddy j)).size ≤ base (.buddy k) := by
  have hjk' : j.val < k.val := hjk
  rw [size_merge hi hs₁] at hk ⊢
  by_cases hk' : k.val = i + 1
  · -- the dead block has size 0
    have hki : ¬ k.val = i := by omega
    rw [if_neg hki, if_pos hk'] at hk
    omega
  have hkold : 0 < (h.chunk (.buddy k)).size := by
    by_cases hki : k.val = i
    · have hki' : k = ⟨i, by omega⟩ := Fin.ext hki
      have hsize : (h.chunk (.buddy ⟨i, by omega⟩)).size = 0x100000 := hs₁
      rw [hki', hsize]
      norm_num
    · rw [if_neg hki, if_neg hk'] at hk
      exact hk
  by_cases hj : j.val = i
  · have hgap := hinv.gap ⟨i + 1, hi⟩ k (Fin.lt_def.2 (by simp only; omega)) hkold
    have hsize : (h.chunk (.buddy ⟨i + 1, hi⟩)).size = 0x100000 := hs₂
    rw [hsize, base_buddy, base_buddy] at hgap
    rw [if_pos hj, base_buddy, base_buddy]
    simp only at hgap
    omega
  by_cases hj' : j.val = i + 1
  · rw [if_neg hj, if_pos hj', base_buddy, base_buddy]
    omega
  rw [if_neg hj, if_neg hj']
  exact hinv.gap j k hjk hkold

/-- A merge keeps the invariant: what the left block gains is what the right one gives up. -/
theorem merge_inv {h : HeapState} (hinv : Inv h) {i : Nat} (hi : i + 1 < buddyBlocksMax)
    (hm : mergeable i h = true) : Inv (merge i h) := by
  rcases hinv.mergeable_size hi hm with ⟨hu₁, hu₂, hs₁, hs₂⟩
  rcases chunk_merge hi hs₁ with ⟨hleft, hright, hrest⟩
  have hcaches : (merge i h).slabCaches = h.slabCaches := rfl
  refine ⟨hinv.count, ?_, ?_, hinv.merge_buddyEnd hi hs₁, ?_, ?_, hcaches ▸ hinv.freeCount⟩
  · intro p
    by_cases hp₁ : p = .buddy ⟨i, by omega⟩
    · rw [hp₁, hleft]
      exact hinv.address (.buddy ⟨i, by omega⟩)
    by_cases hp₂ : p = .buddy ⟨i + 1, hi⟩
    · rw [hp₂, hright]
      exact hinv.address (.buddy ⟨i + 1, hi⟩)
    rw [hrest p hp₁ hp₂]
    exact hinv.address p
  · intro c j
    rw [hrest _ (by simp) (by simp)]
    exact hinv.slabSize c j
  · intro j k hjk hk
    exact hinv.merge_gap hi hs₁ hs₂ hjk hk
  · intro p hp
    by_cases hp₁ : p = .buddy ⟨i, by omega⟩
    · rw [hp₁, hleft]
      simp
    by_cases hp₂ : p = .buddy ⟨i + 1, hi⟩
    · rw [hp₂, hright] at hp
      simp [hu₂] at hp
    rw [hrest p hp₁ hp₂] at hp ⊢
    exact hinv.pos p hp

/-- The used chunks of two states are the same, with the same contents. -/
def SameUsed (h h' : HeapState) : Prop :=
  ∀ p, (h'.chunk p).used = (h.chunk p).used ∧ ((h.chunk p).used = true → h'.chunk p = h.chunk p)

/-- One turn of the loop writes unused blocks only, and leaves them unused. -/
theorem coalesceAt_inv {h : HeapState} (hinv : Inv h) {i : Nat} (hi : i + 1 < buddyBlocksMax) :
    Inv (coalesceAt h i) ∧ SameUsed h (coalesceAt h i) := by
  unfold coalesceAt
  by_cases hm : mergeable i h = true
  swap
  · rw [if_neg hm]
    exact ⟨hinv, fun _ => ⟨rfl, fun _ => rfl⟩⟩
  rw [if_pos hm]
  refine ⟨merge_inv hinv hi hm, ?_⟩
  rcases hinv.mergeable_size hi hm with ⟨hu₁, hu₂, hs₁, -⟩
  rcases chunk_merge hi hs₁ with ⟨hleft, hright, hrest⟩
  intro p
  by_cases hp₁ : p = .buddy ⟨i, by omega⟩
  · rw [hp₁, hleft]
    refine ⟨rfl, ?_⟩
    simp [HeapState.chunk, hu₁]
  by_cases hp₂ : p = .buddy ⟨i + 1, hi⟩
  · rw [hp₂, hright]
    refine ⟨rfl, ?_⟩
    simp [HeapState.chunk, hu₂]
  rw [hrest p hp₁ hp₂]
  exact ⟨rfl, fun _ => rfl⟩

/-- What every turn of the loop keeps, `heap_coalesce` keeps. -/
theorem heapCoalesce_rule {P : HeapState → Prop} {h : HeapState} (hinv : Inv h) (hP : P h)
    (hturn : ∀ h i, i + 1 < buddyBlocksMax → Inv h → P h → P (coalesceAt h i)) :
    Inv (heapCoalesce h) ∧ P (heapCoalesce h) := by
  unfold heapCoalesce
  have hcount : (h.buddyBlockCount - 1).toNat = 63 := by
    rw [hinv.count]
    rfl
  rw [hcount]
  -- induction over the turns of the loop
  have hloop : ∀ n, n ≤ 63 → Inv ((List.range n).foldl coalesceAt h) ∧
      P ((List.range n).foldl coalesceAt h) := by
    intro n
    induction n with
    | zero => exact fun _ => ⟨hinv, hP⟩
    | succ n ih =>
      intro hn
      rcases ih (by omega) with ⟨hinv', hP'⟩
      have hi : n + 1 < buddyBlocksMax := by
        simp only [buddyBlocksMax]
        omega
      rw [List.range_succ, List.foldl_append, List.foldl_cons, List.foldl_nil]
      exact ⟨(coalesceAt_inv hinv' hi).1, hturn _ n hi hinv' hP'⟩
  exact hloop 63 le_rfl

/-- `heap_coalesce` keeps the invariant and touches no used chunk. -/
theorem heapCoalesce_inv {h : HeapState} (hinv : Inv h) :
    Inv (heapCoalesce h) ∧ SameUsed h (heapCoalesce h) := by
  apply heapCoalesce_rule (P := SameUsed h) hinv (fun _ => ⟨rfl, fun _ => rfl⟩)
  intro h₁ i hi hinv₁ hsame p
  have hsame' := (coalesceAt_inv hinv₁ hi).2
  refine ⟨(hsame' p).1.trans (hsame p).1, ?_⟩
  intro hp
  exact ((hsame' p).2 ((hsame p).1.trans hp)).trans ((hsame p).2 hp)

end CosKernel.Heap
