import CosKernel.Kprintf.Strings
import CosKernel.Syscall.Model

/-!
# The pointer check of the dispatcher

The dispatcher refuses arguments from `KERNEL_SPACE_START` = 0xFFFFFFFF80000000
on, while the kernel half of the address space starts at 0xFFFF800000000000,
where `vmm_initialize` maps all of physical memory. Two of the system calls read
a string at `arg1`; neither its start nor its end is compared with the bound that
counts.
-/

namespace CosKernel.Syscall

open X86 Kprintf

/-- The first address of slot 256 of the PML4. -/
def kernelHalf : Word := 0xFFFF800000000000

/-- The call passes the check. -/
def PassesCheck (arg1 arg2 arg3 : Word) : Prop :=
  arg1 < kernelSpaceStart ∧ arg2 < kernelSpaceStart ∧ arg3 < kernelSpaceStart

instance (arg1 arg2 arg3 : Word) : Decidable (PassesCheck arg1 arg2 arg3) :=
  inferInstanceAs (Decidable (_ ∧ _))

/-- The system calls that read a string at `arg1`. -/
def ReadsString (syscallId arg1 : Word) : Prop :=
  syscallId = sysKprintf ∧ arg1 ≠ 0 ∨ syscallId = sysOpenFile

instance (syscallId arg1 : Word) : Decidable (ReadsString syscallId arg1) :=
  inferInstanceAs (Decidable (_ ∨ _))

section Reads

variable (mem : Word → Option UInt8) (fuel : Nat) (current : Option (BitVec 32))
  (syscallId arg1 arg2 arg3 : Word)

@[simp] theorem printing_printAndReturn (print : Printing × Option Stop) (value : Word)
    (killed : Option (BitVec 32)) : (printAndReturn print value killed).printing = print.1 := by
  unfold printAndReturn
  cases print.2 with
  | none => rfl
  | some stop => rfl

/-- A call that passes the check and reads a string reads that string. -/
theorem reads_of_readsString (hcheck : PassesCheck arg1 arg2 arg3)
    (hreads : ReadsString syscallId arg1) :
    (syscallDispatcher mem fuel current syscallId arg1 arg2 arg3).printing.reads =
      (kstrlen mem fuel arg1).1 := by
  have hguard : ¬(kernelSpaceStart ≤ arg1 ∨ kernelSpaceStart ≤ arg2 ∨ kernelSpaceStart ≤ arg3) := by
    obtain ⟨h₁, h₂, h₃⟩ := hcheck
    simp only [not_or, BitVec.not_le]
    exact ⟨h₁, h₂, h₃⟩
  unfold syscallDispatcher
  rw [if_neg hguard]
  rcases hreads with ⟨rfl, hne⟩ | rfl
  · have hconv : conversions "[User] %s\n".toList = ['s'] := by decide
    rw [if_neg (by decide), if_neg (by decide), if_neg (by decide), if_pos rfl, if_pos hne,
      printing_printAndReturn]
    exact reads_kprintf_of_string mem fuel hconv (by decide) arg1 []
  · have hconv : conversions (klog "Open file syscall: '%s' (flags 0x%x)") = ['s', 'x'] := by decide
    rw [if_neg (by decide), if_neg (by decide), if_neg (by decide), if_neg (by decide), if_pos rfl,
      printing_printAndReturn]
    exact reads_kprintf_of_string mem fuel hconv (by decide) arg1 _

/-- Every other call reads nothing. -/
theorem reads_of_not (h : ¬(PassesCheck arg1 arg2 arg3 ∧ ReadsString syscallId arg1)) :
    (syscallDispatcher mem fuel current syscallId arg1 arg2 arg3).printing.reads = [] := by
  unfold syscallDispatcher
  by_cases hguard : kernelSpaceStart ≤ arg1 ∨ kernelSpaceStart ≤ arg2 ∨ kernelSpaceStart ≤ arg3
  · rw [if_pos hguard, printing_printAndReturn]
    exact reads_kprintf_of_notMem mem fuel _ (by decide)
  · rw [if_neg hguard]
    have hcheck : PassesCheck arg1 arg2 arg3 := by
      simp only [not_or, BitVec.not_le] at hguard
      exact hguard
    have hreads : ¬ReadsString syscallId arg1 := fun hr => h ⟨hcheck, hr⟩
    split
    · -- SYS_GET_PID
      cases current with
      | none => rfl
      | some pid => rfl
    · split
      · -- SYS_EXIT
        cases current with
        | none => rfl
        | some pid =>
          rw [printing_printAndReturn]
          exact reads_kprintf_of_notMem mem fuel _ (by decide)
      · split
        · -- SYS_SND_BEEP
          rw [printing_printAndReturn]
          exact reads_kprintf_of_notMem mem fuel _ (by decide)
        · split
          · -- SYS_KPRINTF
            rename_i hid
            have hzero : ¬arg1 ≠ 0 := fun hne => hreads (Or.inl ⟨hid, hne⟩)
            rw [if_neg hzero]
            rfl
          · split
            · -- SYS_OPEN_FILE
              rename_i hid
              exact absurd (Or.inr hid) hreads
            · rw [printing_printAndReturn]
              exact reads_kprintf_of_notMem mem fuel _ (by decide)

end Reads

/-- However long it runs, the dispatcher reads no byte of the kernel half for its caller. -/
def StaysInUserHalf (mem : Word → Option UInt8) (current : Option (BitVec 32))
    (syscallId arg1 arg2 arg3 : Word) : Prop :=
  ∀ fuel, ∀ a ∈ (syscallDispatcher mem fuel current syscallId arg1 arg2 arg3).printing.reads,
    a < kernelHalf

/-- The dispatcher stays out of the kernel half exactly when the call is refused,
is not one that reads a string, or reads a string that starts below the kernel half
and stops there: at a NUL or at an access that faults. -/
theorem syscall_pointer_check_iff (mem : Word → Option UInt8) (current : Option (BitVec 32))
    (syscallId arg1 arg2 arg3 : Word) :
    StaysInUserHalf mem current syscallId arg1 arg2 arg3 ↔
      (PassesCheck arg1 arg2 arg3 → ReadsString syscallId arg1 →
        ∃ a, arg1 ≤ a ∧ a < kernelHalf ∧ (mem a = some 0 ∨ mem a = none)) := by
  have hstop : ∀ a, ¬Continues mem a ↔ mem a = some 0 ∨ mem a = none := by
    intro a
    unfold Continues
    cases mem a with
    | none => simp
    | some c => simp
  unfold StaysInUserHalf
  by_cases h : PassesCheck arg1 arg2 arg3 ∧ ReadsString syscallId arg1
  · have hiff := kstrlen_below_iff mem arg1 kernelHalf
    simp only [hstop] at hiff
    simp only [reads_of_readsString mem _ current syscallId arg1 arg2 arg3 h.1 h.2, hiff, h.1, h.2,
      true_imp_iff]
  · simp only [reads_of_not mem _ current syscallId arg1 arg2 arg3 h, List.not_mem_nil,
      false_imp_iff, implies_true, true_iff]
    intro hcheck hreads
    exact absurd ⟨hcheck, hreads⟩ h

/-- `SYS_KPRINTF` with a pointer to the alias of physical address 0x100000. -/
theorem syscall_reads_kernel_half :
    ¬StaysInUserHalf (fun _ => some 0) (some 1) sysKprintf 0xFFFF800000100000 0 0 := by
  intro h
  have hread := h 1 0xFFFF800000100000
  rw [reads_of_readsString _ _ _ _ _ _ _ (by decide) (by decide)] at hread
  revert hread
  decide

end CosKernel.Syscall
