import CosKernel.Lib.Bytes
import CosKernel.Pmm.Model

/-!
# The boot memory map (`kernel.c`)

`kernel_main` walks the multiboot2 information block twice, once for the highest
address and once to mark the available ranges. Both walkers are the same two
nested loops and differ in what they do when they meet a memory map tag and when
they meet one of its entries; the loops are `walk`, with these actions as its
parameter.

The block is the function from offsets to bytes. A loop that never advances (a
tag whose padded size is 0, an `entry_size` of 0) hangs: the loops get as many
turns as a loop that advances can need, and `none` says that they ran out.
-/

namespace CosKernel.Boot

open Bytes Pmm

/-! ## The walkers -/

/-- `multiboot_mmap_entry_t`; `reserved` is never read. -/
structure MmapEntry where
  addr : UInt64
  len : UInt64
  type : UInt32
deriving DecidableEq, Repr

/-- The entry at an offset. -/
def entryAt (b : Nat → UInt8) (off : Nat) : MmapEntry := ⟨le64 b off, le64 b (off + 8), le32 b (off + 16)⟩

/-- `tag->type` -/
def tagType (b : Nat → UInt8) (off : Nat) : UInt32 := le32 b off

/-- `tag->size` -/
def tagSize (b : Nat → UInt8) (off : Nat) : UInt32 := le32 b (off + 4)

/-- `mmap_tag->entry_size` -/
def entrySize (b : Nat → UInt8) (off : Nat) : UInt32 := le32 b (off + 8)

/-- `(tag->size + 7) & ~7u` -/
def paddedSize (b : Nat → UInt8) (off : Nat) : UInt32 := (tagSize b off + 7) &&& ~~~7

/-- What a walker meets: a memory map tag, or an entry of one. -/
inductive Visit where
  | mmap
  | entry (e : MmapEntry)
deriving DecidableEq, Repr

section Walk

variable {σ : Type} (visit : σ → Visit → σ) (b : Nat → UInt8)

/-- `while (entry_ptr < tag_end)` -/
def walkEntries (size tagEnd : Nat) : Nat → Nat → σ → Option σ
  | 0, entry, s => if entry < tagEnd then none else some s
  | fuel + 1, entry, s =>
    if entry < tagEnd then
      walkEntries size tagEnd fuel (entry + size) (visit s (.entry (entryAt b entry)))
    else some s

/-- The body of the loop over tags, up to the step to the next tag. -/
def walkTag (tag : Nat) (s : σ) : Option σ :=
  if tagType b tag = 6 then
    walkEntries visit b (entrySize b tag).toNat (tag + (tagSize b tag).toNat) (tagSize b tag).toNat
      (tag + 16) (visit s .mmap)
  else some s

/-- `while (tag_ptr < multiboot_info + info->total_size)` -/
def walkTags (totalSize : Nat) : Nat → Nat → σ → Option σ
  | 0, tag, s => if tag < totalSize ∧ tagType b tag ≠ 0 then none else some s
  | fuel + 1, tag, s =>
    if tag < totalSize then
      if tagType b tag = 0 then some s
      else (walkTag visit b tag s).bind (walkTags totalSize fuel (tag + (paddedSize b tag).toNat))
    else some s

/-- Both loops, from the first tag on. -/
def walk (s : σ) : Option σ := walkTags visit b (le32 b 0).toNat (le32 b 0).toNat 8 s

end Walk

/-- The assignment to `max_addr`. -/
def raiseTop (maxAddr : UInt64) : Visit → UInt64
  | .mmap => maxAddr
  | .entry e => if maxAddr < e.addr + e.len then e.addr + e.len else maxAddr

/-- `get_multiboot_memory_top`; the block is `none` for a `NULL` pointer. -/
def getMultibootMemoryTop : Option (Nat → UInt8) → Option UInt64
  | none => some 0
  | some b => walk raiseTop b 0

/-- The assignment to `found_mmap` and the call of `pmm_add_available_range`. -/
def markEntry (r : Bool × PmmT) : Visit → Bool × PmmT
  | .mmap => (true, r.2)
  | .entry e => (r.1, if e.type = 1 then pmmAddAvailableRange e.addr e.len r.2 else r.2)

/-- `mark_multiboot_memory`: the value returned and the new state of the memory manager. -/
def markMultibootMemory (info : Option (Nat → UInt8)) (s : PmmT) : Option (Bool × PmmT) :=
  match info with
  | none => some (false, s)
  | some b => walk markEntry b (false, s)

/-! ## `kernel_main` -/

/-- `max_memory` after the default of 6 GB. -/
def maxMemory (top : UInt64) : UInt64 := if top = 0 then 0x180000000 else top

/-- The part of `kernel_main` that sets up the physical memory manager. -/
def kernelMain (info : Option (Nat → UInt8)) : Option PmmT := do
  let top ← getMultibootMemoryTop info
  let s := pmmInitialize (maxMemory top) pmmState
  let (found, s) ← markMultibootMemory info s
  let s := if found then s else pmmAddAvailableRange 0x100000 (maxMemory top - 0x100000) s
  some (pmmReserveRange 0 0x200000 s)

end CosKernel.Boot
