import CosKernel.Lib.ArrayTable
import CosKernel.Lib.Paging
import CosKernel.Lib.Run

/-!
# The virtual memory manager (`vmm.c`)

Two parts that do not meet: the table of mappings, kept by `vmm_map_page` and
`vmm_unmap_page` and read by `vmm_translate`, and the page tables built by
`vmm_initialize`.
-/

namespace CosKernel.Vmm

open ArrayTable
open Paging (Word entry)

/-! ## The table of mappings -/

structure VmmMappingT where
  vaddr : Word
  paddr : Word
  flags : Word
deriving DecidableEq, Repr

def vmmMaxMappings : Nat := 1024

/-- `vmm_mappings` and `vmm_mapping_count` -/
structure VmmT where
  vmmMappings : Nat → VmmMappingT
  vmmMappingCount : Nat

/-- Their initial values. -/
def vmmState : VmmT := ⟨fun _ => ⟨0, 0, 0⟩, 0⟩

/-- `vmm_map_page` -/
def vmmMapPage (vaddr paddr flags : Word) (s : VmmT) : VmmT :=
  if vmmMaxMappings ≤ s.vmmMappingCount then s
  else
    { vmmMappings := Function.update s.vmmMappings s.vmmMappingCount ⟨vaddr, paddr, flags⟩
      vmmMappingCount := s.vmmMappingCount + 1 }

/-- The loop of `vmm_unmap_page` and `vmm_translate`: the first entry for `vaddr`. -/
def findMapping (vaddr : Word) (s : VmmT) : Option Nat :=
  findFrom (fun m => m.vaddr = vaddr) s.vmmMappings 0 s.vmmMappingCount

/-- `vmm_unmap_page` -/
def vmmUnmapPage (vaddr : Word) (s : VmmT) : VmmT :=
  match findMapping vaddr s with
  | some i =>
    { vmmMappings := shiftFrom s.vmmMappings i (s.vmmMappingCount - 1 - i)
      vmmMappingCount := s.vmmMappingCount - 1 }
  | none => s

/-- `vmm_translate` -/
def vmmTranslate (vaddr : Word) (s : VmmT) : Word :=
  match findMapping vaddr s with
  | some i => (s.vmmMappings i).paddr
  | none => 0

/-! ## Histories of calls -/

inductive Call where
  | mapPage (vaddr paddr flags : Word)
  | unmapPage (vaddr : Word)
deriving DecidableEq, Repr

def Call.vaddr : Call → Word
  | .mapPage vaddr _ _ => vaddr
  | .unmapPage vaddr => vaddr

def perform (s : VmmT) : Call → VmmT
  | .mapPage vaddr paddr flags => vmmMapPage vaddr paddr flags s
  | .unmapPage vaddr => vmmUnmapPage vaddr s

/-! ## Page tables -/

def ptePresent : Word := 0x001
def pteWritable : Word := 0x002
def pteAccessed : Word := 0x020
def pteHuge : Word := 0x080

def defaultFlags : Word := ptePresent ||| pteWritable ||| pteAccessed

/-- The first loop of `vmm_initialize`: both tables are cleared. -/
def clearTables (kernelPml4 kernelPdpt : Word) (mem : Word → Word) : Word → Word :=
  (List.range 512).foldl
    (fun mem i => Function.update (Function.update mem (entry kernelPml4 i) 0) (entry kernelPdpt i) 0)
    mem

/-- The second loop of `vmm_initialize`, up to `turns` (six): one entry for each gigabyte. -/
def mapGigabytes (kernelPdpt : Word) (turns : Nat) (mem : Word → Word) : Word → Word :=
  (List.range turns).foldl
    (fun mem i =>
      let phys := BitVec.ofNat 64 i * 0x40000000
      Function.update mem (entry kernelPdpt i) (phys ||| defaultFlags ||| pteHuge))
    mem

/-- `vmm_initialize`, for tables at the addresses `kernelPml4` and `kernelPdpt`: the memory, by
aligned words, and `cr3`. -/
def vmmInitialize (kernelPml4 kernelPdpt : Word) (mem : Word → Word) : (Word → Word) × Word :=
  let mem := clearTables kernelPml4 kernelPdpt mem
  let pml4Entry := kernelPdpt ||| defaultFlags
  let mem := Function.update mem (entry kernelPml4 0) pml4Entry
  let mem := Function.update mem (entry kernelPml4 256) pml4Entry
  let mem := mapGigabytes kernelPdpt 6 mem
  (mem, kernelPml4)

end CosKernel.Vmm
