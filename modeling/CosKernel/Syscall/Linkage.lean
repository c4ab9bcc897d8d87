import CosKernel.Syscall.Model

/-!
# What survives a system call

`syscall_entry` leaves the arguments where the user put them, one register off
from where the dispatcher takes its parameters; it parks the user's stack pointer
in `r12` without saving `r12`; and it relies on `rcx` and `r11`, which the
dispatcher is free to change. So a call is linked correctly only by coincidence,
and for no user state can it be with every dispatcher.
-/

namespace CosKernel.Syscall

open X86

/-- The registers that a callee preserves. -/
def calleeSaved : List Reg := [.rbx, .rbp, .r12, .r13, .r14, .r15]

/-- The call is linked as it should be: the dispatcher gets `rax`, `rdi`, `rsi` and `rdx` as its
parameters, and the user goes on behind its `SYSCALL` with its flags, its stack pointer, its
callee-saved registers and the result of the dispatcher. -/
structure Linked (S : Symbols) (dispatcher : Cpu → Cpu) (u : UserState) : Prop where
  syscallId : (callDispatcher S (enter u)).reg .rdi = u.cpu.reg .rax
  arg1 : (callDispatcher S (enter u)).reg .rsi = u.cpu.reg .rdi
  arg2 : (callDispatcher S (enter u)).reg .rdx = u.cpu.reg .rsi
  arg3 : (callDispatcher S (enter u)).reg .rcx = u.cpu.reg .rdx
  rip : (syscallEntry S dispatcher (enter u)).cpu.rip = u.cpu.rip
  rflags : (syscallEntry S dispatcher (enter u)).rflags = u.rflags.word
  rsp : (syscallEntry S dispatcher (enter u)).cpu.reg .rsp = u.cpu.reg .rsp
  saved : ∀ r ∈ calleeSaved, (syscallEntry S dispatcher (enter u)).cpu.reg r = u.cpu.reg r
  result : (syscallEntry S dispatcher (enter u)).cpu.reg .rax =
    (dispatcher (callDispatcher S (enter u))).reg .rax

section Return

variable (S : Symbols) (dispatcher : Cpu → Cpu) (c : Cpu)

@[simp] theorem sysretq_reg : (sysretq c).cpu.reg = c.reg := rfl

@[simp] theorem sysretq_rip : (sysretq c).cpu.rip = c.reg .rcx := rfl

@[simp] theorem sysretq_rflags : (sysretq c).rflags = loadFlags (c.reg .r11) := rfl

end Return

end CosKernel.Syscall
