import CosKernel.Kprintf.Model

/-!
# System calls (`syscall_entry.asm`, `syscalls.c`)

The path of a system call: `SYSCALL` saves the return address in `rcx` and the
flags in `r11`; `syscall_entry` switches to the kernel stack and calls the
dispatcher; `SYSRET` goes back with what it finds in `rcx` and `r11`.
-/

namespace CosKernel.Syscall

open X86 Kprintf

/-! ## The machine -/

/-- The bits of `rflags` that `SYSRET` loads from `r11`; bit 1 is always set. -/
def loadFlags (r11 : Word) : Word := r11 &&& 0x3C7FD7 ||| 2

/-- The flags of a program in user mode: values that `SYSRET` can load. -/
structure RFlags where
  word : Word
  valid : loadFlags word = word

/-- The state of the user program at its `SYSCALL`; `rip` is the address behind it. -/
structure UserState where
  cpu : Cpu
  rflags : RFlags

/-- `SYSCALL` -/
def enter (u : UserState) : Cpu := (u.cpu.setReg .rcx u.cpu.rip).setReg .r11 u.rflags.word

/-- The state of the user program after `SYSRET`. -/
structure Resumed where
  cpu : Cpu
  rflags : Word

/-- `sysretq` -/
def sysretq (c : Cpu) : Resumed := ⟨{ c with rip := c.reg .rcx }, loadFlags (c.reg .r11)⟩

/-! ## `syscall_entry` -/

/-- Where the code finds its kernel stack, and the address behind its call. -/
structure Symbols where
  kernelStackTop : Word
  returnAddress : Word

/-- From the first instruction of `syscall_entry` to the first of `syscall_dispatcher`. -/
def callDispatcher (S : Symbols) (c : Cpu) : Cpu :=
  let c := c.setReg .r12 (c.reg .rsp)
  let c := c.setReg .rsp (c.mem S.kernelStackTop)
  c.pushWord S.returnAddress

/-- `syscall_entry`, with `dispatcher` for what the call does up to its return. -/
def syscallEntry (S : Symbols) (dispatcher : Cpu → Cpu) (c : Cpu) : Resumed :=
  let c := dispatcher (callDispatcher S c)
  let c := c.setReg .rsp (c.reg .r12)
  sysretq c

/-! ## `syscall_dispatcher` -/

def sysKprintf : Word := 1
def sysOpenFile : Word := 2
def sysSndBeep : Word := 3
def sysGetPid : Word := 5
def sysExit : Word := 60

def kernelSpaceStart : Word := 0xFFFFFFFF80000000

/-- What a call of the dispatcher does: its result if it returns, what it prints and reads, and the
process it passes to `kill_task`. -/
structure Dispatched where
  value : Option Word
  printing : Printing
  killed : Option (BitVec 32)
deriving DecidableEq

/-- A call of `kprintf`, and then a return. -/
def printAndReturn (print : Printing × Option Stop) (value : Word) (killed : Option (BitVec 32)) :
    Dispatched :=
  match print.2 with
  | none => ⟨some value, print.1, killed⟩
  | some _ => ⟨none, print.1, none⟩

/-- A return without printing. -/
def returnValue (value : Word) : Dispatched := ⟨some value, ⟨[], 0, []⟩, none⟩

/-- `syscall_dispatcher`; `current` is the `pid` of `get_current_task`. -/
def syscallDispatcher (mem : Word → Option UInt8) (fuel : Nat) (current : Option (BitVec 32))
    (syscallId arg1 arg2 arg3 : Word) : Dispatched :=
  if kernelSpaceStart ≤ arg1 ∨ kernelSpaceStart ≤ arg2 ∨ kernelSpaceStart ≤ arg3 then
    printAndReturn
      (kprintf mem fuel (kerror "Syscall: Illegal privilege violation (address in kernel space)") [])
      (-1) none
  else if syscallId = sysGetPid then
    match current with
    | some pid => returnValue (pid.setWidth 64)
    | none => returnValue 0
  else if syscallId = sysExit then
    match current with
    | some pid =>
      printAndReturn
        (kprintf mem fuel (klog "Task PID %u exiting with code %u")
          [pid.setWidth 64, (arg1.setWidth 32).setWidth 64])
        0 (some pid)
    | none => returnValue 0
  else if syscallId = sysSndBeep then
    printAndReturn
      (kprintf mem fuel (klog "Beep requested: %u Hz for %u ms")
        [(arg1.setWidth 16).setWidth 64, (arg2.setWidth 16).setWidth 64])
      0 none
  else if syscallId = sysKprintf then
    if arg1 ≠ 0 then
      printAndReturn (kprintf mem fuel "[User] %s\n".toList [arg1]) 0 none
    else returnValue 0
  else if syscallId = sysOpenFile then
    printAndReturn
      (kprintf mem fuel (klog "Open file syscall: '%s' (flags 0x%x)")
        [arg1, (arg2.setWidth 32).setWidth 64])
      0 none
  else
    printAndReturn (kprintf mem fuel (kerror "Unknown syscall ID: %lu") [syscallId]) (-2) none

end CosKernel.Syscall
