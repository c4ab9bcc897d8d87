import CosKernel.Interrupts.Model

/-!
# Interrupts are transparent

With the error code made uniform by the stub, every interrupt leaves the same
words below the top of the stack (`stacked`): the frame of the CPU, the error
code, the vector and fifteen registers, and `isr_frame_t` names the last
seventeen of them in reverse. What the pops take back is then what was there, as
long as the handler keeps these words and returns to where it was called.
-/

namespace CosKernel.Interrupts

open X86

/-- The registers in the order in which `common_isr` saves them. -/
def savedRegisters : List Reg :=
  [.rax, .rbx, .rcx, .rdx, .rsi, .rdi, .rbp, .r8, .r9, .r10, .r11, .r12, .r13, .r14, .r15]

/-- The frame as it should be: the registers of the interrupted code, the vector, and the error code
if the CPU has one. -/
def Interrupted.savedFrame (u : Interrupted) (vector : Nat) (errorCode : Word) : IsrFrame where
  r15 := u.cpu.reg .r15
  r14 := u.cpu.reg .r14
  r13 := u.cpu.reg .r13
  r12 := u.cpu.reg .r12
  r11 := u.cpu.reg .r11
  r10 := u.cpu.reg .r10
  r9 := u.cpu.reg .r9
  r8 := u.cpu.reg .r8
  rbp := u.cpu.reg .rbp
  rdi := u.cpu.reg .rdi
  rsi := u.cpu.reg .rsi
  rdx := u.cpu.reg .rdx
  rcx := u.cpu.reg .rcx
  rbx := u.cpu.reg .rbx
  rax := u.cpu.reg .rax
  interruptNumber := BitVec.ofNat 64 vector
  errorCode := if HasErrorCode vector then errorCode else 0

/-- What the C handler has to leave as it was: the frame it is given, and the stack pointer up to the
return address that its `ret` takes. -/
structure Preserves (isrHandler : Cpu → Cpu) (c : Cpu) : Prop where
  frame : isrFrame (isrHandler c).mem (c.reg .rdi) = isrFrame c.mem (c.reg .rdi)
  rsp : (isrHandler c).reg .rsp = c.reg .rsp + 8

/-! ## Stubs -/

/-- The vectors with a stub. -/
def Installed (vector : Nat) : Prop := vector ≤ 20 ∨ 32 ≤ vector ∧ vector ≤ 47

/-- A stub pushes the vector, below a zero where the CPU has no error code. -/
theorem stub_eq {vector : Nat} (h : Installed vector) :
    stub vector =
      some ((if HasErrorCode vector then [] else [0]) ++ [BitVec.ofNat 64 vector]) := by
  rcases h with h | ⟨hlow, hhigh⟩
  · interval_cases vector <;> rfl
  · interval_cases vector <;> rfl

/-- Other vectors have no stub. -/
theorem stub_eq_none {vector : Nat} (h : ¬ Installed vector) : stub vector = none := by
  unfold Installed at h
  have hgate : idtInitialize vector = none := by
    unfold idtInitialize gates setIdtGate
    simp only [List.foldl_cons, List.foldl_nil, Function.update_apply]
    repeat rw [if_neg (by omega)]
  rw [stub, hgate]
  rfl

/-! ## The words on the stack -/

/-- The words of a frame, in the order of its fields. -/
def IsrFrame.words (f : IsrFrame) : List Word :=
  [f.r15, f.r14, f.r13, f.r12, f.r11, f.r10, f.r9, f.r8, f.rbp, f.rdi, f.rsi, f.rdx, f.rcx, f.rbx,
    f.rax, f.interruptNumber, f.errorCode]

theorem IsrFrame.words_injective : Function.Injective IsrFrame.words := by
  intro f g h
  cases f
  cases g
  simpa [IsrFrame.words] using h

theorem words_isrFrame (mem : Word → Word) (frame : Word) :
    (isrFrame mem frame).words = readUp mem frame 17 := by
  simp [isrFrame, IsrFrame.words, readUp, BitVec.add_assoc]

/-- The words pushed on the way to the call of `isr_handler`. -/
def stacked (u : Interrupted) (vector : Nat) (errorCode : Word) : List Word :=
  u.frame ++ [if HasErrorCode vector then errorCode else 0, BitVec.ofNat 64 vector] ++
    savedRegisters.map u.cpu.reg

theorem stacked_length (u : Interrupted) (vector : Nat) (errorCode : Word) :
    (stacked u vector errorCode).length = 22 := rfl

/-- The last seventeen of these are the frame of the handler. -/
theorem reverse_stacked (u : Interrupted) (vector : Nat) (errorCode : Word) :
    (stacked u vector errorCode).reverse =
      (u.savedFrame vector errorCode).words ++ u.frame.reverse := rfl

/-- The state at the call of `isr_handler`, from the words that are on the stack at `common_isr`. -/
theorem callIsrHandler_spec (returnAddress : Word) (c : Cpu) (vs : List Word) (sp : Word) :
    let called := callIsrHandler returnAddress (pushWords (c.setReg .rsp sp) vs)
    called.reg .rdi = sp - BitVec.ofNat 64 (8 * (vs ++ savedRegisters.map c.reg).length) ∧
    called.reg .rsp = called.reg .rdi - 8 ∧
    called.mem = Function.update (pushAll c.mem sp (vs ++ savedRegisters.map c.reg))
      (called.reg .rdi - 8) returnAddress := by
  intro called
  have hcode : saveRegisters = savedRegisters.map Instr.push ++ [.mov .rdi .rsp] := rfl
  -- the stack pointer is not among the registers that are saved
  have hregs : savedRegisters.map (pushWords (c.setReg .rsp sp) vs).reg = savedRegisters.map c.reg := by
    rw [pushWords, foldl_pushWord]
    rfl
  have hcalled : called =
      (exec (pushWords (c.setReg .rsp sp) (vs ++ savedRegisters.map c.reg)) (.mov .rdi .rsp)).pushWord
        returnAddress := by
    show callIsrHandler _ _ = _
    rw [callIsrHandler, hcode, List.foldl_append, foldl_push_values _ (by decide), hregs, pushWords,
      pushWords, List.foldl_append]
    rfl
  rw [hcalled, pushWords, foldl_pushWord, setReg_reg_self]
  exact ⟨rfl, rfl, rfl⟩

section Call

variable (u : Interrupted) (top : Word) (vector : Nat) (errorCode returnAddress : Word)

/-- The state at the first instruction of `common_isr`. -/
def atCommonIsr : Cpu :=
  pushWords (u.cpu.setReg .rsp top)
    (u.frame ++ [if HasErrorCode vector then errorCode else 0, BitVec.ofNat 64 vector])

/-- The error code of the CPU and the pushes of the stub together. -/
theorem runStub_interrupt {vector : Nat} (hvector : Installed vector) :
    runStub vector (interrupt u top vector errorCode) = some (atCommonIsr u top vector errorCode) := by
  rw [runStub, stub_eq hvector, Option.map_some, interrupt, atCommonIsr, pushWords, pushWords,
    ← List.foldl_append, List.append_assoc, pushedErrorCode]
  by_cases h : HasErrorCode vector
  · rw [if_pos h, if_pos h, if_pos h]
    rfl
  · rw [if_neg h, if_neg h, if_neg h]
    rfl

/-- The state at the first instruction of `isr_handler`. -/
def called : Cpu := callIsrHandler returnAddress (atCommonIsr u top vector errorCode)

theorem called_rdi : (called u top vector errorCode returnAddress).reg .rdi = top - 176 :=
  (callIsrHandler_spec returnAddress u.cpu _ top).1

theorem called_rsp : (called u top vector errorCode returnAddress).reg .rsp = top - 184 := by
  have hrsp := (callIsrHandler_spec returnAddress u.cpu
    (u.frame ++ [if HasErrorCode vector then errorCode else 0, BitVec.ofNat 64 vector]) top).2.1
  have hrdi := called_rdi u top vector errorCode returnAddress
  unfold called atCommonIsr at hrdi ⊢
  rw [hrsp, hrdi]
  bv_omega

/-- The stack at the call, upwards from the pointer the handler is given. -/
theorem called_stack :
    readUp (called u top vector errorCode returnAddress).mem (top - 176) 22 =
      (u.savedFrame vector errorCode).words ++ u.frame.reverse := by
  have hrdi := called_rdi u top vector errorCode returnAddress
  have hmem := (callIsrHandler_spec returnAddress u.cpu
    (u.frame ++ [if HasErrorCode vector then errorCode else 0, BitVec.ofNat 64 vector]) top).2.2
  have hread : readUp (pushAll u.cpu.mem top (stacked u vector errorCode)) (top - 176) 22 =
      (stacked u vector errorCode).reverse := readUp_pushAll _ _ _ (by simp [stacked_length])
  unfold called atCommonIsr at hrdi ⊢
  rw [hmem, hrdi, ← reverse_stacked, ← hread]
  -- the return address lies below
  have hbelow : top - 176 - 8 ∉ span (top - 176) 22 := by
    have hnot := notMem_span_add (a := top - 176 - 8) (n := 22) (by decide)
    rwa [BitVec.sub_add_cancel] at hnot
  refine readUp_congr ?_
  intro a ha
  refine Function.update_of_ne ?_ _ _
  rintro rfl
  exact hbelow ha

/-- The handler finds the frame it should. -/
theorem called_isrFrame :
    isrFrame (called u top vector errorCode returnAddress).mem
        ((called u top vector errorCode returnAddress).reg .rdi) = u.savedFrame vector errorCode := by
  apply IsrFrame.words_injective
  rw [words_isrFrame, called_rdi, ← readUp_take _ _ (show 17 ≤ 22 by decide), called_stack]
  rfl

end Call

/-! ## The way back -/

theorem savedRegisters_length : savedRegisters.length = 15 := rfl

/-- All registers are saved but the stack pointer. -/
theorem mem_savedRegisters {r : Reg} : r ∈ savedRegisters.reverse ↔ r ≠ .rsp := by
  cases r <;> decide

/-- The pops and `add rsp, 16`, from the return of the handler on. -/
theorem commonIsr_spec (isrHandler : Cpu → Cpu) (returnAddress : Word) (c : Cpu) :
    let returned := isrHandler (callIsrHandler returnAddress c)
    (commonIsr isrHandler returnAddress c).mem = returned.mem ∧
    (commonIsr isrHandler returnAddress c).reg .rsp = returned.reg .rsp + 136 ∧
    savedRegisters.reverse.map (commonIsr isrHandler returnAddress c).reg =
      readUp returned.mem (returned.reg .rsp) 15 := by
  intro returned
  have hcode : restoreRegisters = savedRegisters.reverse.map Instr.pop := rfl
  rcases foldl_pop savedRegisters.reverse (by decide) (by decide) returned with ⟨hmem, hrsp, hregs, -⟩
  have hsum : returned.reg .rsp + BitVec.ofNat 64 (8 * savedRegisters.reverse.length) + 16 =
      returned.reg .rsp + 136 := by
    show returned.reg .rsp + BitVec.ofNat 64 (8 * 15) + 16 = _
    bv_omega
  unfold commonIsr
  rw [hcode]
  refine ⟨hmem, ?_, ?_⟩
  · rw [setReg_reg_self, hrsp, hsum]
  · -- `add rsp, 16` leaves the registers that were popped
    rw [← savedRegisters_length, ← List.length_reverse, ← hregs]
    apply List.map_congr_left
    intro r hr
    exact setReg_reg_ne _ _ (mem_savedRegisters.1 hr)

/-- The frame tells the registers that are popped from it. -/
theorem map_savedRegisters (u : Interrupted) (vector : Nat) (errorCode : Word) :
    savedRegisters.reverse.map u.cpu.reg = (u.savedFrame vector errorCode).words.take 15 := rfl

section Return

variable {u : Interrupted} {top : Word} {vector : Nat} {errorCode returnAddress : Word} {isrHandler : Cpu → Cpu}

/-- A handler that keeps its frame comes back to `iretq` with the registers as they were. -/
theorem commonIsr_restores (hkept : Preserves isrHandler (called u top vector errorCode returnAddress)) :
    (∀ r, r ≠ .rsp →
      (commonIsr isrHandler returnAddress (atCommonIsr u top vector errorCode)).reg r = u.cpu.reg r) ∧
    (commonIsr isrHandler returnAddress (atCommonIsr u top vector errorCode)).reg .rsp = top - 40 := by
  rcases commonIsr_spec isrHandler returnAddress (atCommonIsr u top vector errorCode) with
    ⟨-, hrsp, hregs⟩
  have hpointer : (isrHandler (called u top vector errorCode returnAddress)).reg .rsp = top - 176 := by
    rw [hkept.rsp, called_rsp]
    bv_omega
  have hframe := hkept.frame
  rw [called_isrFrame, called_rdi] at hframe
  unfold called at hpointer hframe
  rw [hpointer] at hrsp hregs
  refine ⟨?_, ?_⟩
  · rw [← readUp_take _ _ (show 15 ≤ 17 by decide), ← words_isrFrame, hframe,
      ← map_savedRegisters, List.map_inj_left] at hregs
    intro r hr
    exact hregs r (mem_savedRegisters.2 hr)
  · rw [hrsp]
    bv_omega

/-- If it keeps the frame of the CPU as well, `iretq` resumes the interrupted code in its own state,
with what the handler did to memory. -/
theorem iretq_resumes (hkept : Preserves isrHandler (called u top vector errorCode returnAddress))
    (hframe : readUp (isrHandler (called u top vector errorCode returnAddress)).mem (top - 40) 5 =
      u.frame.reverse) :
    iretq (commonIsr isrHandler returnAddress (atCommonIsr u top vector errorCode)) =
      { u with
        cpu := { u.cpu with mem := (isrHandler (called u top vector errorCode returnAddress)).mem } } := by
  rcases commonIsr_restores hkept with ⟨hregs, hrsp⟩
  have hmem := (commonIsr_spec isrHandler returnAddress (atCommonIsr u top vector errorCode)).1
  have hmem' : (commonIsr isrHandler returnAddress (atCommonIsr u top vector errorCode)).mem =
    (isrHandler (called u top vector errorCode returnAddress)).mem := hmem
  generalize commonIsr isrHandler returnAddress (atCommonIsr u top vector errorCode) = c at hregs hrsp hmem'
  rw [← hmem', ← hrsp] at hframe
  simp only [readUp, Interrupted.frame, List.reverse_cons, List.reverse_nil, List.nil_append,
    List.cons_append, List.cons.injEq, and_true, BitVec.add_assoc] at hframe
  rcases hframe with ⟨hip, hcs, hflags, hsp, hss⟩
  have hall : Function.update c.reg .rsp (u.cpu.reg .rsp) = u.cpu.reg := by
    funext r
    by_cases hr : r = .rsp
    · rw [hr, Function.update_self]
    · rw [Function.update_of_ne hr, hregs r hr]
  show Interrupted.mk ⟨Function.update c.reg .rsp (c.mem (c.reg .rsp + 24)), c.mem (c.reg .rsp), c.mem⟩
    (c.mem (c.reg .rsp + 32)) (c.mem (c.reg .rsp + 16)) (c.mem (c.reg .rsp + 8)) = _
  have hsp' : c.mem (c.reg .rsp + 24) = u.cpu.reg .rsp := hsp
  have hss' : c.mem (c.reg .rsp + 32) = u.ss := hss
  have hflags' : c.mem (c.reg .rsp + 16) = u.rflags := hflags
  rw [hsp', hall, hip, hss', hflags', hcs, hmem']

end Return

/-- For an installed vector: the registered handler runs, an exception without one is reported with
its error code, and an interrupt of the second controller ends at both, one of the first at this one. -/
theorem isrHandler_savedFrame (handlers : BitVec 32 → Bool) (u : Interrupted) {vector : Nat}
    (errorCode : Word) (hvector : Installed vector) :
    isrHandler handlers (u.savedFrame vector errorCode) =
      (if handlers (BitVec.ofNat 32 vector) then [.call (BitVec.ofNat 32 vector)]
        else if vector < 32 then
          [.unhandled (BitVec.ofNat 32 vector) (if HasErrorCode vector then errorCode else 0)]
        else []) ++
      (if 40 ≤ vector then [.outb pic2Command picEoi] else []) ++
      (if 32 ≤ vector then [.outb pic1Command picEoi] else []) := by
  have hsmall : vector < 48 := by
    rcases hvector with h | ⟨-, h⟩ <;> omega
  have hirq : (u.savedFrame vector errorCode).interruptNumber.setWidth 32 = BitVec.ofNat 32 vector := by
    show (BitVec.ofNat 64 vector).setWidth 32 = _
    apply BitVec.eq_of_toNat_eq
    rw [BitVec.toNat_setWidth, BitVec.toNat_ofNat, BitVec.toNat_ofNat]
    omega
  have hlow : (32 : BitVec 32) ≤ BitVec.ofNat 32 vector ↔ 32 ≤ vector := by bv_omega
  have hhigh : BitVec.ofNat 32 vector < (48 : BitVec 32) := by bv_omega
  simp only [isrHandler, picSendEoi, hirq]
  by_cases h : 32 ≤ vector
  · have hpic : (8 : BitVec 32) ≤ BitVec.ofNat 32 vector - 32 ↔ 40 ≤ vector := by bv_omega
    have hnot : ¬ vector < 32 := by omega
    simp only [hlow, hhigh, h, hnot, hpic, and_true, if_true, if_false, List.append_assoc]
  · have hnot : ¬ 40 ≤ vector := by omega
    have hlt : vector < 32 := by omega
    simp only [hlow, h, hnot, hlt, false_and, if_true, if_false, List.append_nil]
    rfl

end CosKernel.Interrupts
