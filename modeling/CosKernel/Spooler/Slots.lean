import CosKernel.Spooler.Fifo

/-!
# The spooler stays in its slots

When a message is overwritten while it is printed, the service goes on in the
middle of the new one and may pass its NUL. What stops it then is no message at
all, but the last byte of the slot: no text is long enough to write anything but a
NUL there.
-/

namespace CosKernel.Spooler

open RingBuffer Run

/-- The last byte of a slot. -/
abbrev lastByte : Nat := printMessageSize - 1

theorem last_lt : lastByte < printMessageSize := by decide

/-- The indices are those of slots and bytes, and every slot ends with a NUL. -/
structure InSlots (s : PrintSpooler) : Prop where
  head_lt : s.printHead < printQueueSlots
  tail_lt : s.printTail < printQueueSlots
  offset_le : s.printOffset ≤ lastByte
  last : ∀ slot < printQueueSlots, s.printQueue slot lastByte = 0

/-! ## Writing a message -/

/-- The copy loop stops before the last byte, and does not change it. -/
theorem copyText_last (text : List UInt8) {index : Nat} (hindex : index ≤ lastByte) (row : Nat → UInt8) :
    (copyText text index row).2 ≤ lastByte ∧ (copyText text index row).1 lastByte = row lastByte := by
  induction text generalizing index row with
  | nil => exact ⟨hindex, rfl⟩
  | cons c text ih =>
    unfold copyText
    by_cases h : c ≠ 0 ∧ index < lastByte
    · rw [if_pos h]
      have hnext : index + 1 ≤ lastByte := h.2
      rcases ih hnext (Function.update row index c) with ⟨hend, hlast⟩
      refine ⟨hend, ?_⟩
      rw [hlast, Function.update_of_ne (Nat.ne_of_gt h.2)]
    · rw [if_neg h]
      exact ⟨hindex, rfl⟩

/-- A text of any length leaves a NUL at the end of the slot. -/
theorem writeMessage_last {row : Nat → UInt8} (hlast : row lastByte = 0) (text : List UInt8) :
    writeMessage row text lastByte = 0 := by
  have hcopy := (copyText_last text (Nat.zero_le _) row).2
  show Function.update (copyText text 0 row).1 (copyText text 0 row).2 0 lastByte = 0
  by_cases heq : lastByte = (copyText text 0 row).2
  · rw [heq, Function.update_self]
  · rw [Function.update_of_ne heq, hcopy, hlast]

/-! ## Steps -/

section Steps

variable {s : PrintSpooler}

/-- Every slot ends with a NUL after one of them is written so that it does. -/
theorem InSlots.update_last (h : InSlots s) (slot : Nat) {row : Nat → UInt8} (hrow : row lastByte = 0) :
    ∀ i < printQueueSlots, Function.update s.printQueue slot row i lastByte = 0 := by
  intro i hi
  by_cases heq : i = slot
  · rw [heq, Function.update_self]
    exact hrow
  · rw [Function.update_of_ne heq]
    exact h.last i hi

theorem InSlots.spoolPrint (h : InSlots s) (text : Option (List UInt8)) : InSlots (spoolPrint text s) := by
  cases text with
  | none => exact h
  | some text =>
    simp only [Spooler.spoolPrint]
    split
    · exact h
    · refine ⟨h.head_lt, next_lt (by decide) _, h.offset_le, ?_⟩
      exact h.update_last s.printTail (writeMessage_last (h.last s.printTail h.tail_lt) text)

/-- The offset grows only past a character that is not NUL, which the last one is. -/
theorem InSlots.servePrint (h : InSlots s) : InSlots (servePrint s) := by
  simp only [Spooler.servePrint]
  split
  · split
    · rename_i hc
      have hne : s.printOffset ≠ lastByte := by
        intro heq
        apply hc
        rw [heq]
        exact h.last s.printHead h.head_lt
      have hoffset := h.offset_le
      refine ⟨h.head_lt, h.tail_lt, ?_, h.last⟩
      show (s.printOffset + 1) % 2 ^ 8 ≤ lastByte
      have hlast : lastByte = 127 := rfl
      omega
    · refine ⟨next_lt (by decide) _, h.tail_lt, Nat.zero_le _, ?_⟩
      apply h.update_last
      rw [Function.update_of_ne (by decide)]
      exact h.last s.printHead h.head_lt
  · exact h

end Steps

theorem inSlots_step (h : History) (c : Call) (hinv : InSlots h.spooler.print) :
    InSlots (step h c).spooler.print := by
  cases c with
  | spoolPrint text => exact hinv.spoolPrint text
  | spoolAudioTone frequency durationMs => exact hinv
  | iterate => exact hinv.servePrint

theorem inSlots_start : InSlots start.spooler.print :=
  ⟨by decide, by decide, by decide, fun _ _ => rfl⟩

/-! ## Accesses -/

/-- The elements of `print_queue` that a call reads or writes: the bytes of the message and its NUL,
or the byte the service is at, and the first one if it leaves the slot. -/
def printAccesses (s : PrintSpooler) : Call → List (Nat × Nat)
  | .spoolPrint (some text) =>
    if next printQueueSlots s.printTail = s.printHead ∧ s.printQueueFull = true then []
    else (List.range ((copyText text 0 (s.printQueue s.printTail)).2 + 1)).map fun i => (s.printTail, i)
  | .spoolPrint none => []
  | .spoolAudioTone _ _ => []
  | .iterate =>
    if s.printHead ≠ s.printTail ∨ s.printOffset ≠ 0 ∨ s.printQueueFull = true then
      [(s.printHead, s.printOffset), (s.printHead, 0)]
    else []

theorem InSlots.accesses {s : PrintSpooler} (h : InSlots s) (c : Call) :
    ∀ a ∈ printAccesses s c, a.1 < printQueueSlots ∧ a.2 < printMessageSize := by
  intro a ha
  cases c with
  | spoolPrint text =>
    cases text with
    | none => cases ha
    | some text =>
      simp only [printAccesses] at ha
      split at ha
      · cases ha
      · obtain ⟨i, hi, rfl⟩ := List.mem_map.1 ha
        have hend := (copyText_last text (Nat.zero_le _) (s.printQueue s.printTail)).1
        have hlt := List.mem_range.1 hi
        exact ⟨h.tail_lt, Nat.lt_of_le_of_lt (Nat.le_of_lt_succ hlt) (Nat.lt_of_le_of_lt hend last_lt)⟩
  | spoolAudioTone frequency durationMs => cases ha
  | iterate =>
    simp only [printAccesses] at ha
    split at ha
    · simp only [List.mem_cons, List.not_mem_nil, or_false] at ha
      rcases ha with rfl | rfl
      · exact ⟨h.head_lt, Nat.lt_of_le_of_lt h.offset_le last_lt⟩
      · exact ⟨h.head_lt, Nat.zero_lt_succ _⟩
    · cases ha

/-- After any calls and iterations in any order, the indices of the print queue are in bounds, every
slot ends with a NUL, and what happens next reads and writes inside of the slots. -/
theorem print_stays_in_slots (cs : List Call) :
    (cs.foldl step start).spooler.print.printOffset ≤ 127 ∧
    (cs.foldl step start).spooler.print.printHead < 8 ∧
    (cs.foldl step start).spooler.print.printTail < 8 ∧
    (∀ slot < 8, (cs.foldl step start).spooler.print.printQueue slot 127 = 0) ∧
    ∀ c, ∀ a ∈ printAccesses (cs.foldl step start).spooler.print c, a.1 < 8 ∧ a.2 < 128 := by
  have h : InSlots (cs.foldl step start).spooler.print :=
    foldl_invariant (fun h : History => InSlots h.spooler.print) inSlots_step inSlots_start cs
  exact ⟨h.offset_le, h.head_lt, h.tail_lt, h.last, h.accesses⟩

end CosKernel.Spooler
