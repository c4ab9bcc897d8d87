import CosKernel.Lib.X86

/-!
# Interrupts (`isr_stubs.asm`, `interrupts.c`)

The path of an interrupt: the CPU pushes a frame of five words, for some vectors
with an error code below; the stub of the vector makes this uniform and jumps to
`common_isr`, which saves the registers, calls `isr_handler` with a pointer to
them, restores them and executes `iretq`.
-/

namespace CosKernel.Interrupts

open X86

/-! ## The stubs -/

/-- The code labels the stub macros define. -/
inductive Label where
  | isr (n : Nat)
  | irq (n : Nat)
deriving DecidableEq, Repr

/-- `ISR_NOERRCODE`: its label, and the words it pushes before it jumps to `common_isr`. -/
def isrNoErrCode (n : Nat) : Label × List Word := (.isr n, [0, BitVec.ofNat 64 n])

/-- `ISR_ERRCODE` -/
def isrErrCode (n : Nat) : Label × List Word := (.isr n, [BitVec.ofNat 64 n])

/-- `IRQ_NOERRCODE` -/
def irqNoErrCode (n : Nat) : Label × List Word := (.irq n, [0, BitVec.ofNat 64 n])

/-- The stubs of `isr_stubs.asm`. -/
def stubs : List (Label × List Word) :=
  [isrNoErrCode 0, isrNoErrCode 1, isrNoErrCode 2, isrNoErrCode 3, isrNoErrCode 4, isrNoErrCode 5,
    isrNoErrCode 6, isrNoErrCode 7, isrErrCode 8, isrNoErrCode 9, isrErrCode 10, isrErrCode 11,
    isrErrCode 12, isrErrCode 13, isrErrCode 14, isrNoErrCode 15, isrNoErrCode 16, isrErrCode 17,
    isrNoErrCode 18, isrNoErrCode 19, isrNoErrCode 20,
    irqNoErrCode 32, irqNoErrCode 33, irqNoErrCode 34, irqNoErrCode 35, irqNoErrCode 36,
    irqNoErrCode 37, irqNoErrCode 38, irqNoErrCode 39, irqNoErrCode 40, irqNoErrCode 41,
    irqNoErrCode 42, irqNoErrCode 43, irqNoErrCode 44, irqNoErrCode 45, irqNoErrCode 46,
    irqNoErrCode 47]

/-- The calls of `set_idt_gate` in `idt_initialize` that install a stub. -/
def gates : List (Nat × Label) :=
  [(0, .isr 0), (1, .isr 1), (2, .isr 2), (3, .isr 3), (4, .isr 4), (5, .isr 5), (6, .isr 6),
    (7, .isr 7), (8, .isr 8), (9, .isr 9), (10, .isr 10), (11, .isr 11), (12, .isr 12),
    (13, .isr 13), (14, .isr 14), (15, .isr 15), (16, .isr 16), (17, .isr 17), (18, .isr 18),
    (19, .isr 19), (20, .isr 20),
    (32, .irq 32), (33, .irq 33), (34, .irq 34), (35, .irq 35), (36, .irq 36), (37, .irq 37),
    (38, .irq 38), (39, .irq 39), (40, .irq 40), (41, .irq 41), (42, .irq 42), (43, .irq 43),
    (44, .irq 44), (45, .irq 45), (46, .irq 46), (47, .irq 47)]

/-- `set_idt_gate`, with the label in place of its address. -/
def setIdtGate (idt : Nat → Option Label) (vector : Nat) (handler : Label) : Nat → Option Label :=
  Function.update idt vector (some handler)

/-- `idt_initialize`: the gates, all without a handler at first. -/
def idtInitialize : Nat → Option Label :=
  gates.foldl (fun idt gate => setIdtGate idt gate.1 gate.2) fun _ => none

/-- The words pushed by the stub that is installed for a vector. -/
def stub (vector : Nat) : Option (List Word) :=
  (idtInitialize vector).bind fun label => stubs.lookup label

/-! ## The CPU -/

/-- The state of the interrupted code; `rip` is where it goes on. -/
structure Interrupted where
  cpu : Cpu
  ss : Word
  rflags : Word
  cs : Word

/-- The words the CPU pushes for every interrupt. -/
def Interrupted.frame (u : Interrupted) : List Word :=
  [u.ss, u.cpu.reg .rsp, u.rflags, u.cs, u.cpu.rip]

/-- The vectors for which the CPU pushes an error code. -/
def HasErrorCode (vector : Nat) : Prop := vector = 8 ∨ 10 ≤ vector ∧ vector ≤ 14 ∨ vector = 17

instance (vector : Nat) : Decidable (HasErrorCode vector) :=
  inferInstanceAs (Decidable (_ ∨ _ ∨ _))

/-- What the CPU pushes after its frame. -/
def pushedErrorCode (vector : Nat) (errorCode : Word) : List Word :=
  if HasErrorCode vector then [errorCode] else []

/-- The words of a list, pushed one after the other. -/
def pushWords (c : Cpu) (vs : List Word) : Cpu := vs.foldl Cpu.pushWord c

/-- The first instruction of the stub: `top` is where the CPU puts its frame, the stack pointer of
the interrupted code rounded down, or the kernel stack if the interrupted code is a program. -/
def interrupt (u : Interrupted) (top : Word) (vector : Nat) (errorCode : Word) : Cpu :=
  pushWords (u.cpu.setReg .rsp top) (u.frame ++ pushedErrorCode vector errorCode)

/-- The stub of a vector, up to its jump to `common_isr`. -/
def runStub (vector : Nat) (c : Cpu) : Option Cpu := (stub vector).map (pushWords c)

/-- `iretq` -/
def iretq (c : Cpu) : Interrupted where
  cpu :=
    { c.setReg .rsp (c.mem (c.reg .rsp + 24)) with rip := c.mem (c.reg .rsp) }
  ss := c.mem (c.reg .rsp + 32)
  rflags := c.mem (c.reg .rsp + 16)
  cs := c.mem (c.reg .rsp + 8)

/-! ## `common_isr` -/

/-- `common_isr` up to its call -/
def saveRegisters : List Instr :=
  [.push .rax, .push .rbx, .push .rcx, .push .rdx, .push .rsi, .push .rdi, .push .rbp, .push .r8,
    .push .r9, .push .r10, .push .r11, .push .r12, .push .r13, .push .r14, .push .r15,
    .mov .rdi .rsp]

/-- `common_isr` from its call to `add rsp, 16` -/
def restoreRegisters : List Instr :=
  [.pop .r15, .pop .r14, .pop .r13, .pop .r12, .pop .r11, .pop .r10, .pop .r9, .pop .r8, .pop .rbp,
    .pop .rdi, .pop .rsi, .pop .rdx, .pop .rcx, .pop .rbx, .pop .rax]

/-- The call of `isr_handler`: the state at its first instruction. -/
def callIsrHandler (returnAddress : Word) (c : Cpu) : Cpu :=
  (saveRegisters.foldl exec c).pushWord returnAddress

/-- `common_isr` up to `iretq`, with `isrHandler` for what the call does up to its return. -/
def commonIsr (isrHandler : Cpu → Cpu) (returnAddress : Word) (c : Cpu) : Cpu :=
  let c := restoreRegisters.foldl exec (isrHandler (callIsrHandler returnAddress c))
  c.setReg .rsp (c.reg .rsp + 16)

/-! ## `isr_handler` -/

/-- `isr_frame_t` -/
structure IsrFrame where
  r15 : Word
  r14 : Word
  r13 : Word
  r12 : Word
  r11 : Word
  r10 : Word
  r9 : Word
  r8 : Word
  rbp : Word
  rdi : Word
  rsi : Word
  rdx : Word
  rcx : Word
  rbx : Word
  rax : Word
  interruptNumber : Word
  errorCode : Word
deriving DecidableEq, Repr

/-- The fields of the `isr_frame_t` at an address. -/
def isrFrame (mem : Word → Word) (frame : Word) : IsrFrame where
  r15 := mem frame
  r14 := mem (frame + 8)
  r13 := mem (frame + 16)
  r12 := mem (frame + 24)
  r11 := mem (frame + 32)
  r10 := mem (frame + 40)
  r9 := mem (frame + 48)
  r8 := mem (frame + 56)
  rbp := mem (frame + 64)
  rdi := mem (frame + 72)
  rsi := mem (frame + 80)
  rdx := mem (frame + 88)
  rcx := mem (frame + 96)
  rbx := mem (frame + 104)
  rax := mem (frame + 112)
  interruptNumber := mem (frame + 120)
  errorCode := mem (frame + 128)

/-- What `isr_handler` does to the outside: it calls a registered handler, writes to a port, or
reports an interrupt nobody handles. -/
inductive Action where
  | call (irq : BitVec 32)
  | outb (port : UInt16) (value : UInt8)
  | unhandled (irq : BitVec 32) (errorCode : Word)
deriving DecidableEq, Repr

def pic1Command : UInt16 := 0x20
def pic2Command : UInt16 := 0xA0
def picEoi : UInt8 := 0x20

/-- `pic_send_eoi` -/
def picSendEoi (irq : BitVec 32) : List Action :=
  (if 8 ≤ irq then [.outb pic2Command picEoi] else []) ++ [.outb pic1Command picEoi]

/-- `isr_handler`; `handlers` tells for which vectors there is an entry in `interrupt_handlers`. -/
def isrHandler (handlers : BitVec 32 → Bool) (frame : IsrFrame) : List Action :=
  let irq := frame.interruptNumber.setWidth 32
  if 32 ≤ irq ∧ irq < 48 then
    (if handlers irq then [.call irq] else []) ++ picSendEoi (irq - 32)
  else if handlers irq then [.call irq]
  else [.unhandled irq frame.errorCode]

end CosKernel.Interrupts
