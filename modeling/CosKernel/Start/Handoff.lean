import CosKernel.Start.Model

/-!
# What `_start` hands over to `kernel_main`

`_start` saves the two multiboot arguments in `edi` and `esi`, the registers of
the first two parameters, and then counts the turns of its loop in `edi`. The loop
is left when `edi` is 0, and no later instruction assigns to it.
-/

namespace CosKernel.Start

open X86 (Reg Word)
open X86Start

variable (L : Layout)

/-! ## The loop -/

/-- One turn of the loop. -/
theorem pagingLoop_turn (c : Cpu) :
    (longModePagingLoop.foldl exec c).r32 .rdi = c.r32 .rdi - 1 ∧
    (longModePagingLoop.foldl exec c).zf = (c.r32 .rdi - 1 == 0) ∧
    (longModePagingLoop.foldl exec c).r32 .rbx = c.r32 .rbx + 0x40000000 ∧
    (longModePagingLoop.foldl exec c).r32 .rcx = c.r32 .rcx + 8 ∧
    (longModePagingLoop.foldl exec c).r32 .rax = c.r32 .rax ∧
    (longModePagingLoop.foldl exec c).reg .rdi = (c.r32 .rdi - 1).setWidth 64 ∧
    (longModePagingLoop.foldl exec c).cr = c.cr ∧
    (longModePagingLoop.foldl exec c).mem =
      Function.update (Function.update c.mem ((c.r32 .rcx).setWidth 64) (c.r32 .rbx ||| c.r32 .rax))
        ((c.r32 .rcx + 4).setWidth 64) 0 := by
  refine ⟨?_, ?_, ?_, ?_, ?_, ?_, ?_, ?_⟩
  all_goals simp [longModePagingLoop, exec, Cpu.set32, Cpu.setReg, Cpu.setMem, Cpu.setZf, Cpu.r32]

/-- The entries that `n` turns of the loop write, from the address `a` and the
gigabyte `g` on. -/
def writeEntries (flags : BitVec 32) : Nat → BitVec 32 → BitVec 32 → (Word → BitVec 32) →
    Word → BitVec 32
  | 0, _, _, mem => mem
  | n + 1, a, g, mem =>
    writeEntries flags n (a + 8) (g + 0x40000000)
      (Function.update (Function.update mem (a.setWidth 64) (g ||| flags)) ((a + 4).setWidth 64) 0)

/-- The loop turns as often as `edi` says and leaves with `edi` 0. -/
theorem pagingLoop_run (n : Nat) (hn : n + 1 < 2 ^ 32) (c : Cpu)
    (hdi : c.r32 .rdi = BitVec.ofNat 32 (n + 1)) :
    ∃ c', (∀ fuel ≥ n + 1, loopNe longModePagingLoop fuel c = some c') ∧ c'.reg .rdi = 0 ∧
      c'.cr = c.cr ∧
      c'.mem = writeEntries (c.r32 .rax) (n + 1) (c.r32 .rcx) (c.r32 .rbx) c.mem := by
  induction n generalizing c with
  | zero =>
    obtain ⟨_, hzf, _, _, _, hrdi, hcr, hmem⟩ := pagingLoop_turn c
    rw [hdi] at hzf hrdi
    refine ⟨longModePagingLoop.foldl exec c, ?_, hrdi, hcr, hmem⟩
    intro fuel hfuel
    obtain ⟨fuel, rfl⟩ : ∃ k, fuel = k + 1 := ⟨fuel - 1, by omega⟩
    rw [loopNe_succ]
    exact if_pos hzf
  | succ n ih =>
    obtain ⟨hdi', hzf, hbx, hcx, hax, _, hcr, hmem⟩ := pagingLoop_turn c
    have hdec : c.r32 .rdi - 1 = BitVec.ofNat 32 (n + 1) := by
      rw [hdi, BitVec.ofNat_add]
      exact BitVec.add_sub_cancel _ _
    rw [hdec] at hdi' hzf
    -- the counter is not 0 yet: the rest of the loop starts from the state after this turn
    obtain ⟨c', hrun, hzero, hcr', hmem'⟩ := ih (by omega) _ hdi'
    refine ⟨c', ?_, hzero, hcr'.trans hcr, ?_⟩
    · intro fuel hfuel
      obtain ⟨fuel, rfl⟩ : ∃ k, fuel = k + 1 := ⟨fuel - 1, by omega⟩
      have hne : BitVec.ofNat 32 (n + 1) ≠ 0 := by
        intro hzero
        have hnat := congrArg BitVec.toNat hzero
        rw [BitVec.toNat_ofNat, Nat.mod_eq_of_lt (by omega)] at hnat
        exact Nat.succ_ne_zero n hnat
      rw [loopNe_succ, hzf, if_neg (by simpa using hne)]
      exact hrun fuel (by omega)
    · rw [hmem', hax, hcx, hbx, hmem]
      rfl

/-! ## The straight-line parts -/

theorem saveArguments_spec (c : Cpu) :
    ((saveArguments L).foldl exec c).r32 .rdi = 4 ∧
    ((saveArguments L).foldl exec c).r32 .rcx = L.bootPdpt ∧
    ((saveArguments L).foldl exec c).r32 .rbx = 0 ∧
    ((saveArguments L).foldl exec c).r32 .rax = 0x83 ∧
    ((saveArguments L).foldl exec c).reg .rsi = (c.r32 .rax).setWidth 64 ∧
    ((saveArguments L).foldl exec c).reg .rsp = L.stackTop.setWidth 64 ∧
    ((saveArguments L).foldl exec c).mem = c.mem := by
  refine ⟨?_, ?_, ?_, ?_, ?_, ?_, ?_⟩
  all_goals simp [saveArguments, exec, Cpu.set32, Cpu.set16, Cpu.set8, Cpu.setReg, Cpu.setZf, Cpu.r32]

theorem enterLongMode_spec (c : Cpu) :
    (bits64Entry.foldl exec ((enterLongMode L).foldl exec c)).cr .cr3 = L.bootPml4 ∧
    (bits64Entry.foldl exec ((enterLongMode L).foldl exec c)).mem =
      Function.update (Function.update c.mem (L.bootPml4.setWidth 64) (L.bootPdpt ||| 3))
        ((L.bootPml4 + 4).setWidth 64) 0 := by
  constructor
  all_goals simp [enterLongMode, bits64Entry, exec, Cpu.set32, Cpu.set16, Cpu.setReg, Cpu.setZf,
    Cpu.setMem, Cpu.r32]

/-- From the loop to the call, none of these registers is written. -/
theorem enterLongMode_reg (c : Cpu) {r : Reg} (hr : r = .rdi ∨ r = .rsi ∨ r = .rsp) :
    (bits64Entry.foldl exec ((enterLongMode L).foldl exec c)).reg r = c.reg r := by
  have hentry : ∀ i ∈ bits64Entry, r ∉ i.writes := by
    rcases hr with rfl | rfl | rfl
    all_goals decide
  have henter : ∀ i ∈ enterLongMode L, r ∉ i.writes := by
    rcases hr with rfl | rfl | rfl
    all_goals simp [enterLongMode, Instr.writes]
  rw [foldl_exec_reg bits64Entry _ hentry, foldl_exec_reg (enterLongMode L) c henter]

/-- The loop writes neither `esi` nor `esp`. -/
theorem pagingLoop_writes {r : Reg} (hr : r = .rsi ∨ r = .rsp) :
    ∀ i ∈ longModePagingLoop, r ∉ i.writes := by
  rcases hr with rfl | rfl
  all_goals decide

/-! ## The handoff -/

/-- The memory in which `kernel_main` starts. -/
def startMem (returnAddress : Word) (mem : Word → BitVec 32) : Word → BitVec 32 :=
  let mem := writeEntries 0x83 4 L.bootPdpt 0 mem
  let mem := Function.update (Function.update mem (L.bootPml4.setWidth 64) (L.bootPdpt ||| 3))
    ((L.bootPml4 + 4).setWidth 64) 0
  let rsp := L.stackTop.setWidth 64 - 8
  Function.update (Function.update mem rsp (returnAddress.setWidth 32))
    (rsp + 4) ((returnAddress >>> 32).setWidth 32)

/-- `_start` reaches `kernel_main`, with 0 as its first argument and the magic as
its second. -/
theorem start_spec (returnAddress : Word) (c : Cpu) :
    ∃ c', (∀ fuel ≥ 4, start L returnAddress fuel c = some c') ∧ c'.reg .rdi = 0 ∧
      c'.reg .rsi = (c.r32 .rax).setWidth 64 ∧ c'.cr .cr3 = L.bootPml4 ∧
      c'.mem = startMem L returnAddress c.mem := by
  obtain ⟨hdi, hcx, hbx, hax, hsi, hsp, hmem⟩ := saveArguments_spec L c
  obtain ⟨c₁, hloop, hdi₁, hcr₁, hmem₁⟩ := pagingLoop_run 3 (by decide) _ hdi
  have hsi₁ := loopNe_reg (pagingLoop_writes (Or.inl rfl)) (hloop 4 (le_refl _))
  have hsp₁ := loopNe_reg (pagingLoop_writes (Or.inr rfl)) (hloop 4 (le_refl _))
  obtain ⟨hcr₂, hmem₂⟩ := enterLongMode_spec L c₁
  generalize hc₂ : bits64Entry.foldl exec ((enterLongMode L).foldl exec c₁) = c₂ at hcr₂ hmem₂
  have hreg : ∀ r, r = .rdi ∨ r = .rsi ∨ r = .rsp → c₂.reg r = c₁.reg r := by
    intro r hr
    rw [← hc₂]
    exact enterLongMode_reg L c₁ hr
  have hsp₂ : c₂.reg .rsp = L.stackTop.setWidth 64 := by
    rw [hreg .rsp (by simp), hsp₁, hsp]
  refine ⟨c₂.call returnAddress, ?_, ?_, ?_, hcr₂, ?_⟩
  · intro fuel hfuel
    show (loopNe longModePagingLoop fuel _).bind _ = _
    rw [hloop fuel hfuel, ← hc₂]
    rfl
  · show (c₂.setReg .rsp (c₂.reg .rsp - 8)).reg .rdi = _
    rw [setReg_ne _ _ (by decide), hreg .rdi (by simp), hdi₁]
  · show (c₂.setReg .rsp (c₂.reg .rsp - 8)).reg .rsi = _
    rw [setReg_ne _ _ (by decide), hreg .rsi (by simp), hsi₁, hsi]
  · show Function.update (Function.update c₂.mem _ _) _ _ = _
    rw [hmem₂, hmem₁, hax, hcx, hbx, hmem, hsp₂]
    rfl

/-- `kernel_main` is entered with the values that `ebx` and `eax` had at `_start`. -/
def HandsOver (returnAddress : Word) (c : Cpu) : Prop :=
  ∀ fuel ≥ 4, ∃ c', start L returnAddress fuel c = some c' ∧
    c'.reg .rdi = (c.r32 .rbx).setWidth 64 ∧ c'.reg .rsi = (c.r32 .rax).setWidth 64

/-- The multiboot arguments reach `kernel_main` exactly when the address of the
multiboot information is 0. -/
theorem hands_over_iff (returnAddress : Word) (c : Cpu) :
    HandsOver L returnAddress c ↔ c.r32 .rbx = 0 := by
  obtain ⟨c', hstart, hdi, hsi, -, -⟩ := start_spec L returnAddress c
  constructor
  · intro h
    obtain ⟨c'', hstart', hdi', _⟩ := h 4 (le_refl _)
    rw [hstart 4 (le_refl _)] at hstart'
    rw [← Option.some.inj hstart', hdi] at hdi'
    bv_omega
  · intro hbx fuel hfuel
    refine ⟨c', hstart fuel hfuel, ?_, hsi⟩
    rw [hdi, hbx]
    rfl

/-- A machine as a boot loader may leave it. -/
def bootedCpu : Cpu where
  reg := Function.update (Function.update (fun _ => 0) .rax 0x36D76289) .rbx 0x10000
  zf := false
  interruptFlag := false
  cr := Function.update (fun _ => 0) .cr0 1
  msr := fun _ => 0
  seg := fun _ => 0x10
  gdtr := 0
  mem := fun _ => 0

/-- A possible layout of the symbols. -/
def lowLayout : Layout where
  stackTop := 0x104000
  bootPml4 := 0x104000
  bootPdpt := 0x105000
  gdt64Pointer := 0x103000
  stack_lt := by decide
  stackTop_le := by decide
  aligned := by decide
  bootPdpt_eq := by decide
  bootPdpt_lt := by decide

/-- The multiboot information at 0x10000 is lost. -/
theorem multiboot_info_lost : ¬HandsOver lowLayout 0x100200 bootedCpu := by
  intro h
  obtain ⟨c', hstart, hdi, _⟩ := h 4 (le_refl _)
  obtain ⟨c'', hstart', hdi', _⟩ := start_spec lowLayout 0x100200 bootedCpu
  rw [hstart' 4 (le_refl _)] at hstart
  rw [← Option.some.inj hstart, hdi'] at hdi
  revert hdi
  decide

end CosKernel.Start
