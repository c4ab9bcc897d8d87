import CosKernel.Lib.X86

/-!
# Context switching (`context_switch.asm`, `create_task`, `task_yield`)

The code of `switch_task_context`, the frame `create_task` builds by hand, and
the histories of a machine on which any number of contexts run, create tasks and
switch to one another.

Every context has a stack area of its own and a word that holds its saved stack
pointer (`stack_pointer` in its control block); the areas do not overlap and the
saved pointers lie outside all of them. That is the `Layout` all results assume.
-/

namespace CosKernel.Context

open X86

/-! ## The code -/

/-- `switch_task_context` -/
def switchTaskContext : List Instr :=
  [.push .rbx, .push .rbp, .push .r12, .push .r13, .push .r14, .push .r15,
    .store .rdi .rsp,
    .mov .rsp .rsi,
    .pop .r15, .pop .r14, .pop .r13, .pop .r12, .pop .rbp, .pop .rbx,
    .ret]

/-- The call `switch_task_context(&old->stack_pointer, new->stack_pointer)`: the arguments are
passed in `rdi` and `rsi`. -/
def callSwitch (oldCell newSp returnAddress : Word) (c : Cpu) : Cpu :=
  call switchTaskContext returnAddress ((c.setReg .rdi oldCell).setReg .rsi newSp)

/-- The words `create_task` stores from `stack_top[0]` on: `r15`, `r14`, `r13`, `r12`, `rbp`, `rbx`
and the return address. -/
def initialFrame (taskEntryWrapper : Word) : List Word := [0, 0, 0, 0, 0, 0, taskEntryWrapper]

/-- The assignments of `create_task` to memory: the frame and `tcb->stack_pointer`. -/
def createStack (taskEntryWrapper top cell : Word) (mem : Word → Word) : Word → Word :=
  let stackTop := top - 56
  Function.update (writeUp mem stackTop (initialFrame taskEntryWrapper)) cell stackTop

/-! ## Histories -/

/-- The seven words below an address. -/
def below (a : Word) : Set Word := span (a - 56) 7

/-- Where the contexts keep their stacks and their saved stack pointers. -/
structure Layout (Ctx : Type) where
  area : Ctx → Set Word
  cell : Ctx → Word
  top : Ctx → Word
  taskEntryWrapper : Word
  disjoint : ∀ {t u}, t ≠ u → Disjoint (area t) (area u)
  cell_injective : Function.Injective cell
  cell_outside : ∀ t u, cell t ∉ area u
  below_top : ∀ t, below (top t) ⊆ area t

/-- What a caller of a function may expect to find again when it returns: the callee-saved
registers and the stack pointer at the call, and where it returns to. -/
structure Snapshot where
  rbx : Word
  rbp : Word
  r12 : Word
  r13 : Word
  r14 : Word
  r15 : Word
  rsp : Word
  rip : Word
deriving DecidableEq, Repr

/-- These registers of the machine. -/
def Snapshot.ofCpu (c : Cpu) : Snapshot :=
  ⟨c.reg .rbx, c.reg .rbp, c.reg .r12, c.reg .r13, c.reg .r14, c.reg .r15, c.reg .rsp, c.rip⟩

/-- What is known of a context that is not running: nothing, or that `create_task` built its frame,
or what its registers were when it called the switch. -/
inductive Status where
  | unknown
  | created
  | switchedOut (s : Snapshot)
deriving DecidableEq, Repr

structure System (Ctx : Type) where
  cpu : Cpu
  current : Ctx
  status : Ctx → Status

inductive Event (Ctx : Type) where
  | run
  | create (t : Ctx)
  | switch (next : Ctx) (returnAddress : Word)

variable {Ctx : Type} [DecidableEq Ctx]

/-- The switch from the current context to another. -/
def System.switch (L : Layout Ctx) (s : System Ctx) (next : Ctx) (returnAddress : Word) : System Ctx where
  cpu := callSwitch (L.cell s.current) (s.cpu.mem (L.cell next)) returnAddress s.cpu
  current := next
  status := Function.update s.status s.current
    (.switchedOut { Snapshot.ofCpu s.cpu with rip := returnAddress })

/-- One step of a history. -/
inductive Step (L : Layout Ctx) (s : System Ctx) : Event Ctx → System Ctx → Prop where
  /-- The current context runs: it may change all registers and its own stack area. -/
  | run (cpu : Cpu) (hmem : ∀ a, a ∉ L.area s.current → cpu.mem a = s.cpu.mem a) :
      Step L s .run { s with cpu := cpu }
  /-- The current context calls `create_task`, which builds the frame of a task that never ran. -/
  | create (t : Ctx) (hne : t ≠ s.current) (hnew : s.status t = .unknown) :
      Step L s (.create t)
        { s with
          cpu := { s.cpu with mem := createStack L.taskEntryWrapper (L.top t) (L.cell t) s.cpu.mem }
          status := Function.update s.status t .created }
  /-- The current context switches, with room for the frame in its own stack area, to another one
  that was created or switched out before. -/
  | switch (next : Ctx) (returnAddress : Word) (hne : next ≠ s.current)
      (hroom : below (s.cpu.reg .rsp) ⊆ L.area s.current) (hnext : s.status next ≠ .unknown) :
      Step L s (.switch next returnAddress) (s.switch L next returnAddress)

/-- The states of histories that start in one context, with no other created. -/
inductive Reachable (L : Layout Ctx) : System Ctx → Prop where
  | start (cpu : Cpu) (t : Ctx) : Reachable L ⟨cpu, t, fun _ => .unknown⟩
  | step {s s' : System Ctx} {ev : Event Ctx} (h : Reachable L s) (hstep : Step L s ev s') :
      Reachable L s'

end CosKernel.Context
