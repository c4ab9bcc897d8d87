import CosKernel.Lib.Allocator

/-!
# The kernel heap (`heap.c`)

A slab part of five caches of 32 objects, and a "buddy" part of 64 blocks that
are never split: `kmalloc` shrinks the size of the block it takes, `kfree` does
not restore it, and `heap_coalesce` doubles the size of one block and zeroes
that of its neighbour. Base addresses never change.

Addresses and sizes are natural numbers; the two additions and the doubling of
`heap_coalesce`, the only arithmetic on them after `heap_initialize`, are taken
modulo `2 ^ 64`. The `next` fields are never read and are left out, as are the
log messages.
-/

namespace CosKernel.Heap

open Allocator

/-- The fields of `slab_object_t` and of `buddy_block_t`, which are the same. -/
structure Chunk where
  address : Nat
  size : Nat
  used : Bool
  owner : String
deriving DecidableEq, Repr

/-- `SLAB_OBJECTS_PER_CACHE` -/
def slabObjectsPerCache : Nat := 32

/-- `BUDDY_BLOCKS_MAX` -/
def buddyBlocksMax : Nat := 64

/-- An element of `slab_caches`. -/
structure SlabCache where
  objects : Fin slabObjectsPerCache → Chunk
  freeCount : UInt32

/-- The static variables of `heap.c`. -/
structure HeapState where
  slabCaches : Fin 5 → SlabCache
  buddyBlocks : Nat → Chunk
  buddyBlockCount : UInt32

/-! ## Initialisation -/

/-- `init_slab_caches` -/
def initSlabCaches : Fin 5 → SlabCache := fun c =>
  { objects := fun i =>
      { address := 0x100000 + c.val * 0x10000 + i.val * 512, size := 0, used := false,
        owner := "Free" }
    freeCount := UInt32.ofNat slabObjectsPerCache }

/-- `init_buddy_blocks` -/
def initBuddyBlocks : Nat → Chunk := fun i =>
  { address := 0x200000 + i * 0x100000, size := 0x100000, used := false, owner := "Free" }

/-- `heap_initialize` -/
def heapInitialize : HeapState where
  slabCaches := initSlabCaches
  buddyBlocks := initBuddyBlocks
  buddyBlockCount := UInt32.ofNat buddyBlocksMax

/-! ## Field writes -/

/-- Assign to one object of a cache and to its counter. -/
def SlabCache.modify (c : SlabCache) (i : Fin slabObjectsPerCache) (f : Chunk → Chunk)
    (g : UInt32 → UInt32) : SlabCache :=
  { objects := Function.update c.objects i (f (c.objects i)), freeCount := g c.freeCount }

/-- Assign to a slab object and to the counter of its cache. -/
def HeapState.modifySlab (h : HeapState) (c : Fin 5) (i : Fin slabObjectsPerCache)
    (f : Chunk → Chunk) (g : UInt32 → UInt32) : HeapState :=
  { h with slabCaches := Function.update h.slabCaches c ((h.slabCaches c).modify i f g) }

/-- Assign to a buddy block. -/
def HeapState.modifyBuddy (h : HeapState) (i : Nat) (f : Chunk → Chunk) : HeapState :=
  { h with buddyBlocks := Function.update h.buddyBlocks i (f (h.buddyBlocks i)) }

/-! ## `kmalloc` -/

/-- `Route to appropriate slab cache`; `none` for `cache_idx = -1`. -/
def sizeClass (size : Nat) : Option (Fin 5) :=
  if size ≤ 16 then some 0
  else if size ≤ 32 then some 1
  else if size ≤ 64 then some 2
  else if size ≤ 128 then some 3
  else if size ≤ 256 then some 4
  else none

/-- The first unused object of a cache. -/
def firstUnused (c : SlabCache) : Option (Fin slabObjectsPerCache) :=
  (List.finRange slabObjectsPerCache).find? fun i => !(c.objects i).used

/-- The slab object `kmalloc` takes, if its size class has one left. -/
def slabSlot (size : Nat) (h : HeapState) : Option (Fin 5 × Fin slabObjectsPerCache) :=
  (sizeClass size).bind fun c => (firstUnused (h.slabCaches c)).map fun i => (c, i)

/-- The first unused block of at least this size. -/
def firstFit (size : Nat) (h : HeapState) : Option Nat :=
  (List.range h.buddyBlockCount.toNat).find? fun i =>
    !(h.buddyBlocks i).used && decide (size ≤ (h.buddyBlocks i).size)

/-- The assignments `kmalloc` makes to the object or block it takes. -/
def Chunk.take (size : Nat) (owner : String) (b : Chunk) : Chunk :=
  { b with used := true, size := size, owner := owner }

/-- `kmalloc`: the address returned (`none` for `NULL`) and the new state. -/
def kmalloc (size : Nat) (owner : String) (h : HeapState) : Option Nat × HeapState :=
  if size = 0 then (none, h)
  else
    match slabSlot size h with
    | some (c, i) =>
      (some ((h.slabCaches c).objects i).address,
        h.modifySlab c i (Chunk.take size owner) (· - 1))
    | none =>
      match firstFit size h with
      | some i => (some (h.buddyBlocks i).address, h.modifyBuddy i (Chunk.take size owner))
      | none => (none, h)

/-! ## `kfree` -/

/-- The slab object in use at this address, in the order of the two loops. -/
def findSlab (addr : Nat) (h : HeapState) : Option (Fin 5 × Fin slabObjectsPerCache) :=
  (List.finRange 5).findSome? fun c =>
    ((List.finRange slabObjectsPerCache).find? fun i =>
      decide (((h.slabCaches c).objects i).address = addr) && ((h.slabCaches c).objects i).used).map
      fun i => (c, i)

/-- The block in use at this address. -/
def findBuddy (addr : Nat) (h : HeapState) : Option Nat :=
  (List.range h.buddyBlockCount.toNat).find? fun i =>
    decide ((h.buddyBlocks i).address = addr) && (h.buddyBlocks i).used

/-- `kfree`; the address 0 is `NULL`. A freed slab object loses its size, a freed block keeps
the size of its last allocation. -/
def kfree (addr : Nat) (h : HeapState) : HeapState :=
  if addr = 0 then h
  else
    match findSlab addr h with
    | some (c, i) =>
      h.modifySlab c i (fun b => { b with used := false, owner := "Free", size := 0 }) (· + 1)
    | none =>
      match findBuddy addr h with
      | some i => h.modifyBuddy i fun b => { b with used := false, owner := "Free" }
      | none => h

/-! ## `heap_coalesce` -/

/-- The condition of the loop body of `heap_coalesce` at index `i`. -/
def mergeable (i : Nat) (h : HeapState) : Bool :=
  !(h.buddyBlocks i).used && !(h.buddyBlocks (i + 1)).used &&
    decide ((h.buddyBlocks i).size = (h.buddyBlocks (i + 1)).size) &&
    decide (((h.buddyBlocks i).address + (h.buddyBlocks i).size) % 2 ^ 64 =
      (h.buddyBlocks (i + 1)).address)

/-- The assignments of the loop body: the left block takes both sizes, the right one is dead. -/
def merge (i : Nat) (h : HeapState) : HeapState :=
  (h.modifyBuddy i fun b => { b with size := b.size * 2 % 2 ^ 64 }).modifyBuddy (i + 1)
    fun b => { b with size := 0, owner := "Merged" }

/-- One turn of the loop of `heap_coalesce`. -/
def coalesceAt (h : HeapState) (i : Nat) : HeapState :=
  if mergeable i h then merge i h else h

/-- `heap_coalesce` -/
def heapCoalesce (h : HeapState) : HeapState :=
  (List.range (h.buddyBlockCount - 1).toNat).foldl coalesceAt h

/-! ## Histories -/

/-- The calls made on the heap. -/
inductive Call where
  | kmalloc (size : Nat) (owner : String)
  | kfree (addr : Nat)
  | heapCoalesce
deriving DecidableEq, Repr

/-- The heap together with the allocations returned and not freed since, kept from the calls
and their results only. -/
structure History where
  heap : HeapState
  live : List Extent

/-- The allocation `kmalloc` returned is live from now on. -/
def recordGranted (size : Nat) (live : List Extent) : Option Nat → List Extent
  | none => live
  | some addr => live ++ [⟨addr, size⟩]

/-- The allocation with this address is live no more. -/
def recordFreed (addr : Nat) (live : List Extent) : List Extent :=
  live.filter fun e => e.addr ≠ addr

/-- One call. -/
def step (s : History) : Call → History
  | .kmalloc size owner =>
    ⟨(kmalloc size owner s.heap).2, recordGranted size s.live (kmalloc size owner s.heap).1⟩
  | .kfree addr => ⟨kfree addr s.heap, recordFreed addr s.live⟩
  | .heapCoalesce => ⟨heapCoalesce s.heap, s.live⟩

/-- The run of a list of calls after `heap_initialize`. -/
def run (calls : List Call) : History := calls.foldl step ⟨heapInitialize, []⟩

end CosKernel.Heap
