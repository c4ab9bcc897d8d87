import CosKernel.Lib.X86Start

/-!
# The entry point (`boot.asm`)

`_start` is entered in protected mode with the multiboot magic in `eax` and the
address of the multiboot information in `ebx`. It builds page tables for the first
four gigabytes, switches to long mode and calls `kernel_main`.
-/

namespace CosKernel.Start

open X86 (Reg Word)
open X86Start

/-- The addresses of the symbols of the file. The stack and the two tables follow
each other in `.bss`, the tables on page boundaries. -/
structure Layout where
  stackTop : BitVec 32
  bootPml4 : BitVec 32
  bootPdpt : BitVec 32
  gdt64Pointer : BitVec 32
  stack_lt : 16384 ≤ stackTop.toNat
  stackTop_le : stackTop.toNat ≤ bootPml4.toNat
  aligned : bootPml4.toNat % 4096 = 0
  bootPdpt_eq : bootPdpt.toNat = bootPml4.toNat + 4096
  bootPdpt_lt : bootPdpt.toNat + 4096 ≤ 2 ^ 32

variable (L : Layout)

/-- From `_start` to the loop. -/
def saveArguments : List Instr :=
  [.cli,
    .mov .rdi .rbx,
    .mov .rsi .rax,
    .movFromCr .rax .cr0,
    .andLow8 .rax 0xFB,
    .orLow8 .rax 0x02,
    .movToCr .cr0 .rax,
    .movFromCr .rax .cr4,
    .orLow16 .rax 0x600,
    .movToCr .cr4 .rax,
    .movImm .rsp L.stackTop,
    .lgdt L.gdt64Pointer,
    .movImm .rcx L.bootPdpt,
    .movImm .rbx 0,
    .movImm .rax 0x00000083,
    .movImm .rdi 4]

/-- `long_mode_paging_loop`, without the jump at its end. -/
def longModePagingLoop : List Instr :=
  [.mov .rdx .rbx,
    .or .rdx .rax,
    .store .rcx 0 .rdx,
    .storeImm .rcx 4 0,
    .addImm .rbx 0x40000000,
    .addImm .rcx 8,
    .dec .rdi]

/-- From the loop to the far jump. -/
def enterLongMode : List Instr :=
  [.movImm .rax L.bootPdpt,
    .orImm .rax 0x03,
    .storeAt L.bootPml4 .rax,
    .storeImmAt (L.bootPml4 + 4) 0,
    .movFromCr .rax .cr4,
    .orImm .rax (1 <<< 5),
    .movToCr .cr4 .rax,
    .movImm .rcx 0xC0000080,
    .rdmsr,
    .orImm .rax (1 <<< 8),
    .wrmsr,
    .movImm .rax L.bootPml4,
    .movToCr .cr3 .rax,
    .movFromCr .rax .cr0,
    .orImm .rax 0x80000001,
    .movToCr .cr0 .rax,
    .farJmp 0x08]

/-- `bits64_entry`, up to the call. -/
def bits64Entry : List Instr :=
  [.movLow16 .rax 0x10,
    .movSeg .ds .rax,
    .movSeg .es .rax,
    .movSeg .fs .rax,
    .movSeg .gs .rax,
    .movSeg .ss .rax]

/-- `_start`: the machine when `kernel_main` is entered. `returnAddress` is the
address behind the call. -/
def start (returnAddress : Word) (fuel : Nat) (c : Cpu) : Option Cpu := do
  let c := (saveArguments L).foldl exec c
  let c ← loopNe longModePagingLoop fuel c
  let c := (enterLongMode L).foldl exec c
  let c := bits64Entry.foldl exec c
  return c.call returnAddress

end CosKernel.Start
