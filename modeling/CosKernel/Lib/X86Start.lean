import CosKernel.Lib.X86

/-!
# The x86 in 32-bit mode

Enough of the machine for code that a boot loader enters in protected mode and
that switches to long mode: the general registers with their 8-, 16- and 32-bit
parts, the zero flag, the control registers, the model-specific registers and the
segment registers. Memory is one of 32-bit words, each named by its byte address;
the code keeps its accesses aligned.

An assignment to a 32-bit part clears the upper half of the register.

`writes` says which registers an instruction may change; a register that a piece
of code does not write is carried through it by `foldl_exec_reg`.
-/

namespace CosKernel.X86Start

open X86 (Reg Word)

inductive Cr where
  | cr0 | cr3 | cr4
deriving DecidableEq, Repr

inductive Seg where
  | cs | ds | es | fs | gs | ss
deriving DecidableEq, Repr

structure Cpu where
  reg : Reg → Word
  zf : Bool
  interruptFlag : Bool
  cr : Cr → BitVec 32
  msr : BitVec 32 → Word
  seg : Seg → BitVec 16
  /-- The address the descriptor-table register was loaded from. -/
  gdtr : BitVec 32
  mem : Word → BitVec 32

/-- The instructions; registers stand for their 32-bit parts, except in the names
with `Low8` and `Low16`. -/
inductive Instr where
  | cli
  | mov (dst src : Reg)
  | movImm (dst : Reg) (imm : BitVec 32)
  | movLow16 (dst : Reg) (imm : BitVec 16)
  | andLow8 (dst : Reg) (imm : BitVec 8)
  | orLow8 (dst : Reg) (imm : BitVec 8)
  | orLow16 (dst : Reg) (imm : BitVec 16)
  | or (dst src : Reg)
  | orImm (dst : Reg) (imm : BitVec 32)
  | addImm (dst : Reg) (imm : BitVec 32)
  | dec (dst : Reg)
  /-- `mov [base + disp], src` -/
  | store (base : Reg) (disp : BitVec 32) (src : Reg)
  /-- `mov dword [base + disp], imm` -/
  | storeImm (base : Reg) (disp imm : BitVec 32)
  /-- `mov [addr], src` -/
  | storeAt (addr : BitVec 32) (src : Reg)
  /-- `mov dword [addr], imm` -/
  | storeImmAt (addr imm : BitVec 32)
  | movFromCr (dst : Reg) (cr : Cr)
  | movToCr (cr : Cr) (src : Reg)
  | rdmsr
  | wrmsr
  | lgdt (addr : BitVec 32)
  | movSeg (seg : Seg) (src : Reg)
  /-- `jmp selector:next` -/
  | farJmp (selector : BitVec 16)
deriving DecidableEq, Repr

/-! ## Semantics -/

/-- The 32-bit part of a register. -/
def Cpu.r32 (c : Cpu) (r : Reg) : BitVec 32 := (c.reg r).setWidth 32

def Cpu.setReg (c : Cpu) (r : Reg) (v : Word) : Cpu := { c with reg := Function.update c.reg r v }

/-- Assign to the 32-bit part. -/
def Cpu.set32 (c : Cpu) (r : Reg) (v : BitVec 32) : Cpu := c.setReg r (v.setWidth 64)

/-- Assign to the 16-bit part. -/
def Cpu.set16 (c : Cpu) (r : Reg) (v : BitVec 16) : Cpu :=
  c.setReg r (c.reg r &&& ~~~0xFFFF ||| v.setWidth 64)

/-- Assign to the 8-bit part. -/
def Cpu.set8 (c : Cpu) (r : Reg) (v : BitVec 8) : Cpu :=
  c.setReg r (c.reg r &&& ~~~0xFF ||| v.setWidth 64)

def Cpu.setZf (c : Cpu) (b : Bool) : Cpu := { c with zf := b }

def Cpu.setMem (c : Cpu) (a : BitVec 32) (v : BitVec 32) : Cpu :=
  { c with mem := Function.update c.mem (a.setWidth 64) v }

/-- One instruction. -/
def exec (c : Cpu) : Instr → Cpu
  | .cli => { c with interruptFlag := false }
  | .mov dst src => c.set32 dst (c.r32 src)
  | .movImm dst imm => c.set32 dst imm
  | .movLow16 dst imm => c.set16 dst imm
  | .andLow8 dst imm =>
    let v := (c.reg dst).setWidth 8 &&& imm
    (c.set8 dst v).setZf (v == 0)
  | .orLow8 dst imm =>
    let v := (c.reg dst).setWidth 8 ||| imm
    (c.set8 dst v).setZf (v == 0)
  | .orLow16 dst imm =>
    let v := (c.reg dst).setWidth 16 ||| imm
    (c.set16 dst v).setZf (v == 0)
  | .or dst src =>
    let v := c.r32 dst ||| c.r32 src
    (c.set32 dst v).setZf (v == 0)
  | .orImm dst imm =>
    let v := c.r32 dst ||| imm
    (c.set32 dst v).setZf (v == 0)
  | .addImm dst imm =>
    let v := c.r32 dst + imm
    (c.set32 dst v).setZf (v == 0)
  | .dec dst =>
    let v := c.r32 dst - 1
    (c.set32 dst v).setZf (v == 0)
  | .store base disp src => c.setMem (c.r32 base + disp) (c.r32 src)
  | .storeImm base disp imm => c.setMem (c.r32 base + disp) imm
  | .storeAt addr src => c.setMem addr (c.r32 src)
  | .storeImmAt addr imm => c.setMem addr imm
  | .movFromCr dst cr => c.set32 dst (c.cr cr)
  | .movToCr cr src => { c with cr := Function.update c.cr cr (c.r32 src) }
  | .rdmsr =>
    let v := c.msr (c.r32 .rcx)
    (c.set32 .rax (v.setWidth 32)).set32 .rdx ((v >>> 32).setWidth 32)
  | .wrmsr => { c with msr := Function.update c.msr (c.r32 .rcx) (c.r32 .rdx ++ c.r32 .rax) }
  | .lgdt addr => { c with gdtr := addr }
  | .movSeg seg src => { c with seg := Function.update c.seg seg ((c.reg src).setWidth 16) }
  | .farJmp selector => { c with seg := Function.update c.seg .cs selector }

/-- `label: body; jne label`; `none` when the loop is not left within `fuel` turns. -/
def loopNe (body : List Instr) : Nat → Cpu → Option Cpu
  | 0, _ => none
  | fuel + 1, c =>
    let c := body.foldl exec c
    if c.zf = true then some c else loopNe body fuel c

theorem loopNe_succ (body : List Instr) (fuel : Nat) (c : Cpu) :
    loopNe body (fuel + 1) c =
      if (body.foldl exec c).zf = true then some (body.foldl exec c)
      else loopNe body fuel (body.foldl exec c) := rfl

/-- `call` in long mode: the return address is pushed, as two words of memory. -/
def Cpu.call (c : Cpu) (returnAddress : Word) : Cpu :=
  let rsp := c.reg .rsp - 8
  { c.setReg .rsp rsp with
    mem := Function.update (Function.update c.mem rsp (returnAddress.setWidth 32))
      (rsp + 4) ((returnAddress >>> 32).setWidth 32) }

/-! ## Registers -/

@[simp] theorem setReg_self (c : Cpu) (r : Reg) (v : Word) : (c.setReg r v).reg r = v :=
  Function.update_self _ _ _

theorem setReg_ne (c : Cpu) {r r' : Reg} (v : Word) (h : r' ≠ r) :
    (c.setReg r v).reg r' = c.reg r' := Function.update_of_ne h _ _

@[simp] theorem r32_set32_self (c : Cpu) (r : Reg) (v : BitVec 32) : (c.set32 r v).r32 r = v := by
  unfold Cpu.r32 Cpu.set32
  rw [setReg_self, BitVec.setWidth_setWidth_of_le _ (by decide), BitVec.setWidth_eq]

/-- The registers an instruction may change. -/
def Instr.writes : Instr → List Reg
  | .mov dst _ | .movImm dst _ | .movLow16 dst _ | .andLow8 dst _ | .orLow8 dst _ | .orLow16 dst _
  | .or dst _ | .orImm dst _ | .addImm dst _ | .dec dst | .movFromCr dst _ => [dst]
  | .rdmsr => [.rax, .rdx]
  | .cli | .store .. | .storeImm .. | .storeAt .. | .storeImmAt .. | .movToCr .. | .wrmsr | .lgdt _
  | .movSeg .. | .farJmp _ => []

theorem exec_reg (c : Cpu) (i : Instr) {r : Reg} (h : r ∉ i.writes) : (exec c i).reg r = c.reg r := by
  cases i with
  | mov dst src | movImm dst imm | movLow16 dst imm | andLow8 dst imm | orLow8 dst imm
  | orLow16 dst imm | or dst src | orImm dst imm | addImm dst imm | dec dst | movFromCr dst cr =>
    exact setReg_ne c _ (List.ne_of_not_mem_cons h)
  | rdmsr =>
    have hdx : r ≠ .rdx := List.ne_of_not_mem_cons (List.not_mem_of_not_mem_cons h)
    have hax : r ≠ .rax := List.ne_of_not_mem_cons h
    exact (setReg_ne _ _ hdx).trans (setReg_ne c _ hax)
  | cli | store _ _ _ | storeImm _ _ _ | storeAt _ _ | storeImmAt _ _ | movToCr _ _ | wrmsr
  | lgdt _ | movSeg _ _ | farJmp _ => rfl

/-- Code keeps the registers it does not write. -/
theorem foldl_exec_reg (code : List Instr) (c : Cpu) {r : Reg} (h : ∀ i ∈ code, r ∉ i.writes) :
    (code.foldl exec c).reg r = c.reg r := by
  induction code generalizing c with
  | nil => rfl
  | cons i code ih =>
    rw [List.foldl_cons, ih (exec c i) (fun j hj => h j (List.mem_cons_of_mem i hj))]
    exact exec_reg c i (h i List.mem_cons_self)

/-- A loop keeps the registers its body does not write. -/
theorem loopNe_reg {body : List Instr} {fuel : Nat} {c c' : Cpu} {r : Reg}
    (h : ∀ i ∈ body, r ∉ i.writes) (hrun : loopNe body fuel c = some c') : c'.reg r = c.reg r := by
  induction fuel generalizing c with
  | zero => exact absurd hrun (Option.some_ne_none c').symm
  | succ fuel ih =>
    rw [loopNe_succ] at hrun
    by_cases hzf : (body.foldl exec c).zf = true
    · rw [if_pos hzf] at hrun
      rw [← Option.some.inj hrun]
      exact foldl_exec_reg body c h
    · rw [if_neg hzf] at hrun
      exact (ih hrun).trans (foldl_exec_reg body c h)

end CosKernel.X86Start
