import CosKernel.Lib.Run
import CosKernel.Spooler.Model

/-!
# The spooler as two queues

Both producers refuse a call when `next == head` and the ring is full. In a full
ring `tail` equals `head` and `next` is the slot after it, so that the test never
holds there: an entry that comes while all eight slots are taken overwrites the
oldest one. As long as no such call is made, both rings are queues.

The invariants say what a ring holds (`RingBuffer.Queue`), that this is what was
accepted and is still owed, and, for the printer, how far into the oldest message
the service is.
-/

namespace CosKernel.Spooler

open RingBuffer Run

/-! ## Rows of the print queue -/

/-- The row holds the message as a string. -/
structure RowHolds (row : Nat → UInt8) (m : List UInt8) : Prop where
  char : ∀ i c, m[i]? = some c → row i = c
  nul : row m.length = 0
  ne_zero : 0 ∉ m
  length_lt : m.length < printMessageSize

/-- What a row of the queue holds: a pending message, or anything at all. -/
def printHolds (row : Nat → UInt8) : Option (List UInt8) → Prop
  | some m => RowHolds row m
  | none => True

/-- What the copy loop takes of the text when it starts at `index`. -/
def taken (text : List UInt8) (index : Nat) : List UInt8 :=
  (text.takeWhile (· ≠ 0)).take (printMessageSize - 1 - index)

theorem taken_cons {c : UInt8} (text : List UInt8) {index : Nat} (hc : c ≠ 0)
    (hindex : index < printMessageSize - 1) :
    taken (c :: text) index = c :: taken text (index + 1) := by
  unfold taken
  rw [List.takeWhile_cons_of_pos (by simpa using hc),
    show printMessageSize - 1 - index = printMessageSize - 1 - (index + 1) + 1 by omega,
    List.take_succ_cons]

theorem taken_stop {c : UInt8} (text : List UInt8) {index : Nat}
    (h : ¬(c ≠ 0 ∧ index < printMessageSize - 1)) : taken (c :: text) index = [] := by
  unfold taken
  rcases not_and_or.mp h with hc | hfull
  · rw [List.takeWhile_cons_of_neg (by simpa using hc), List.take_nil]
  · rw [show printMessageSize - 1 - index = 0 by omega, List.take_zero]

/-- The copy loop writes what it takes of the text from `index` on, and nothing
in front of it. -/
theorem copyText_spec (text : List UInt8) (index : Nat) (row : Nat → UInt8) :
    (copyText text index row).2 = index + (taken text index).length ∧
      (∀ i < index, (copyText text index row).1 i = row i) ∧
      ∀ i a, (taken text index)[i]? = some a → (copyText text index row).1 (index + i) = a := by
  induction text generalizing index row with
  | nil => simp [copyText, taken]
  | cons c text ih =>
    unfold copyText
    by_cases h : c ≠ 0 ∧ index < printMessageSize - 1
    · rw [if_pos h, taken_cons text h.1 h.2, List.length_cons]
      obtain ⟨hindex, hfront, hchars⟩ := ih (index + 1) (Function.update row index c)
      refine ⟨?_, ?_, ?_⟩
      · rw [hindex]
        omega
      · intro i hi
        rw [hfront i (by omega), Function.update_of_ne (by omega)]
      · intro i a ha
        cases i with
        | zero =>
          -- the character just written is in front of the rest of the loop
          have hfirst := hfront index (Nat.lt_succ_self index)
          rw [Function.update_self] at hfirst
          exact hfirst.trans (Option.some.inj ha)
        | succ i =>
          rw [show index + (i + 1) = index + 1 + i by omega]
          exact hchars i a ha
    · rw [if_neg h, taken_stop text h]
      simp

theorem length_message_lt (text : List UInt8) : (message text).length < printMessageSize := by
  have hle := List.length_take_le (printMessageSize - 1) (text.takeWhile (· ≠ 0))
  exact Nat.lt_of_le_of_lt hle (by decide)

/-- After `spool_print`, the row holds the message. -/
theorem rowHolds_writeMessage (row : Nat → UInt8) (text : List UInt8) :
    RowHolds (writeMessage row text) (message text) := by
  obtain ⟨hindex, _, hchars⟩ := copyText_spec text 0 row
  rw [Nat.zero_add, show taken text 0 = message text from rfl] at hindex
  have hwrite : writeMessage row text =
      Function.update (copyText text 0 row).1 (message text).length 0 := by
    rw [← hindex]
    rfl
  rw [hwrite]
  constructor
  · intro i a ha
    have hi := (List.getElem?_eq_some_iff.mp ha).1
    have hchar := hchars i a ha
    rw [Nat.zero_add] at hchar
    rw [Function.update_of_ne (by omega)]
    exact hchar
  · exact Function.update_self _ _ _
  · intro hmem
    have hne := List.mem_takeWhile_imp (List.mem_of_mem_take hmem)
    simp at hne
  · exact length_message_lt text

/-- The service reads the characters of the message in turn, and then a NUL. -/
theorem RowHolds.char_ne_zero_iff {row : Nat → UInt8} {m : List UInt8} (h : RowHolds row m)
    {offset : Nat} (hle : offset ≤ m.length) : row offset ≠ 0 ↔ offset < m.length := by
  constructor
  · intro hne
    by_contra hge
    apply hne
    have heq : offset = m.length := by omega
    rw [heq]
    exact h.nul
  · intro hlt hzero
    apply h.ne_zero
    rw [← hzero, h.char offset _ (List.getElem?_eq_getElem hlt)]
    exact List.getElem_mem hlt

theorem RowHolds.take_succ {row : Nat → UInt8} {m : List UInt8} (h : RowHolds row m)
    {offset : Nat} (hlt : offset < m.length) :
    m.take (offset + 1) = m.take offset ++ [row offset] := by
  rw [h.char offset _ (List.getElem?_eq_getElem hlt)]
  exact List.take_succ_eq_append_getElem hlt

/-! ## The print queue -/

/-- The ring holds the messages that are still owed, and the service is somewhere
in the oldest of them. -/
structure PrintInv (s : PrintSpooler) (accepted : List (List UInt8)) (finished : Nat) : Prop where
  queue : Queue printQueueSlots printHolds s.printQueue s.printHead s.printTail s.printQueueFull
    (accepted.drop finished)
  finished_le : finished ≤ accepted.length
  offset_le : s.printOffset ≤ ((accepted.drop finished).headD []).length
  serial_eq : s.serial = (accepted.take finished).flatten ++
    ((accepted.drop finished).headD []).take s.printOffset

/-- The invariant of a history. -/
def History.PrintInv (h : History) : Prop :=
  Spooler.PrintInv h.spooler.print h.acceptedPrints h.finishedPrints

theorem printInv_start : start.PrintInv := by
  constructor
  · apply Queue.empty
    · decide
    · intro i
      trivial
  · simp [start]
  · simp [start, spooler]
  · simp [start, spooler]

section Print

variable {s : PrintSpooler} {accepted : List (List UInt8)} {finished : Nat}

/-- A message is never refused. -/
theorem PrintInv.spoolPrint_eq (h : PrintInv s accepted finished) (text : List UInt8) :
    spoolPrint (some text) s =
      { s with
        printQueue := Function.update s.printQueue s.printTail
          (writeMessage (s.printQueue s.printTail) text)
        printTail := next printQueueSlots s.printTail
        printQueueFull := if next printQueueSlots s.printTail = s.printHead then true
          else s.printQueueFull } := by
  show (if _ ∧ _ then _ else _) = _
  rw [if_neg]
  intro hreject
  exact h.queue.next_tail_ne (by decide) hreject.2 hreject.1

theorem PrintInv.acceptedPrint_eq (h : PrintInv s accepted finished) (text : List UInt8) :
    acceptedPrint s (.spoolPrint (some text)) = [message text] := by
  show (if (Spooler.spoolPrint (some text) s).printTail ≠ s.printTail then _ else _) = _
  rw [h.spoolPrint_eq]
  exact if_pos (next_ne (by decide) h.queue.tail_lt)

theorem PrintInv.spoolPrint (h : PrintInv s accepted finished) (text : List UInt8)
    (hroom : (accepted.drop finished).length ≠ printQueueSlots) :
    PrintInv (spoolPrint (some text) s) (accepted ++ [message text]) finished := by
  rw [h.spoolPrint_eq]
  have hdrop : (accepted ++ [message text]).drop finished =
      accepted.drop finished ++ [message text] := List.drop_append_of_le_length h.finished_le
  have htake : (accepted ++ [message text]).take finished = accepted.take finished :=
    List.take_append_of_le_length h.finished_le
  have hoffset := h.offset_le
  constructor
  · rw [hdrop]
    exact h.queue.push hroom (rowHolds_writeMessage _ text)
  · rw [List.length_append]
    exact Nat.le_add_right_of_le h.finished_le
  · show s.printOffset ≤ _
    rw [hdrop]
    cases hq : accepted.drop finished with
    | nil =>
      rw [hq] at hoffset
      exact Nat.le_trans hoffset (Nat.zero_le _)
    | cons m q =>
      rw [hq] at hoffset
      exact hoffset
  · show s.serial = _ ++ List.take s.printOffset _
    rw [hdrop, htake, h.serial_eq]
    cases hq : accepted.drop finished with
    | nil =>
      -- nothing was pending, so the service is at the start of the new message
      rw [hq] at hoffset
      have hzero : s.printOffset = 0 := Nat.le_zero.mp hoffset
      simp [hzero]
    | cons m q => rfl

/-- Nothing is pending: the service does nothing. -/
theorem PrintInv.servePrint_nil (h : PrintInv s accepted finished)
    (hq : accepted.drop finished = []) : servePrint s = s := by
  have hqueue := h.queue.ne_nil_iff.not.mp (not_not.mpr hq)
  have hoffset := h.offset_le
  rw [hq] at hoffset
  have hzero : s.printOffset = 0 := Nat.le_zero.mp hoffset
  unfold servePrint
  rw [if_neg]
  intro hbusy
  rcases hbusy with hne | hne | hfull
  · exact hqueue (Or.inl hne)
  · exact hne hzero
  · exact hqueue (Or.inr hfull)

/-- While something is pending the service has work, and its row holds the oldest message. -/
theorem PrintInv.busy (h : PrintInv s accepted finished) {m : List UInt8} {q : List (List UInt8)}
    (hq : accepted.drop finished = m :: q) :
    (s.printHead ≠ s.printTail ∨ s.printOffset ≠ 0 ∨ s.printQueueFull = true) ∧
      RowHolds (s.printQueue s.printHead) m ∧ s.printOffset ≤ m.length := by
  have hqueue := h.queue
  have hoffset : s.printOffset ≤ ((accepted.drop finished).headD []).length := h.offset_le
  rw [hq] at hqueue hoffset
  refine ⟨?_, hqueue.front, hoffset⟩
  rcases hqueue.ne_nil_iff.mp (List.cons_ne_nil m q) with hne | hfull
  · exact Or.inl hne
  · exact Or.inr (Or.inr hfull)

/-- One more character of the oldest message is printed. -/
theorem PrintInv.servePrint_char (h : PrintInv s accepted finished) {m : List UInt8}
    {q : List (List UInt8)} (hq : accepted.drop finished = m :: q) (hlt : s.printOffset < m.length) :
    PrintInv (servePrint s) accepted finished ∧ (servePrint s).printHead = s.printHead ∧
      (servePrint s).printOffset = s.printOffset + 1 := by
  rcases h.busy hq with ⟨hbusy, hrow, hoffset⟩
  have hserial := h.serial_eq
  rw [hq] at hserial
  unfold servePrint
  rw [if_pos hbusy, if_pos ((hrow.char_ne_zero_iff hoffset).mpr hlt)]
  -- the offset is that of a character, far from the end of its type
  have hmod : (s.printOffset + 1) % 2 ^ 8 = s.printOffset + 1 := by
    have hlen : m.length < 128 := hrow.length_lt
    apply Nat.mod_eq_of_lt
    omega
  rw [hmod]
  refine ⟨?_, rfl, rfl⟩
  constructor
  · exact h.queue
  · exact h.finished_le
  · rw [hq]
    exact hlt
  · rw [hq]
    show s.serial ++ [_] = _ ++ List.take (s.printOffset + 1) m
    rw [hserial, hrow.take_succ hlt, List.append_assoc]
    rfl

/-- The oldest message is printed and leaves. -/
theorem PrintInv.servePrint_end (h : PrintInv s accepted finished) {m : List UInt8}
    {q : List (List UInt8)} (hq : accepted.drop finished = m :: q) (hend : s.printOffset = m.length) :
    PrintInv (servePrint s) accepted (finished + 1) ∧
      (servePrint s).printHead = next printQueueSlots s.printHead ∧
      (servePrint s).printOffset = 0 := by
  rcases h.busy hq with ⟨hbusy, hrow, hoffset⟩
  have hqueue := h.queue
  have hserial := h.serial_eq
  rw [hq] at hqueue hserial
  unfold servePrint
  rw [if_pos hbusy, if_neg ((hrow.char_ne_zero_iff hoffset).not.mpr (by omega))]
  refine ⟨?_, rfl, rfl⟩
  have hfin : finished < accepted.length := by
    by_contra hge
    rw [List.drop_eq_nil_of_le (Nat.le_of_not_lt hge)] at hq
    exact List.cons_ne_nil m q hq.symm
  have hdrop : accepted.drop (finished + 1) = q := by
    rw [← List.tail_drop, hq]
    rfl
  have hmsg : accepted[finished]? = some m := by
    rw [← List.head?_drop, hq]
    rfl
  constructor
  · rw [hdrop]
    exact hqueue.pop trivial
  · exact hfin
  · exact Nat.zero_le _
  · show s.serial = _ ++ List.take 0 _
    rw [hserial, List.take_add_one, hmsg, hend]
    simp

/-- Something is pending: the service prints one more character of the oldest
message, or leaves it when all of it is printed. -/
theorem PrintInv.servePrint_cons (h : PrintInv s accepted finished)
    {m : List UInt8} {q : List (List UInt8)} (hq : accepted.drop finished = m :: q) :
    (s.printOffset < m.length ∧ PrintInv (servePrint s) accepted finished ∧
      (servePrint s).printHead = s.printHead ∧
      (servePrint s).printOffset = s.printOffset + 1) ∨
    (s.printOffset = m.length ∧ PrintInv (servePrint s) accepted (finished + 1) ∧
      (servePrint s).printHead = next printQueueSlots s.printHead ∧
      (servePrint s).printOffset = 0) := by
  rcases h.busy hq with ⟨-, -, hoffset⟩
  rcases Nat.lt_or_eq_of_le hoffset with hlt | hend
  · exact Or.inl ⟨hlt, h.servePrint_char hq hlt⟩
  · exact Or.inr ⟨hend, h.servePrint_end hq hend⟩

/-- The number of iterations that print what is pending. -/
def printWork (pending : List (List UInt8)) (offset : Nat) : Nat :=
  (pending.map (·.length + 1)).sum - offset

/-- Enough iterations print all that was accepted. -/
theorem PrintInv.drain (h : PrintInv s accepted finished) {n : Nat}
    (hn : printWork (accepted.drop finished) s.printOffset ≤ n) :
    (servePrint^[n] s).serial = accepted.flatten := by
  induction n generalizing s finished with
  | zero =>
    have hpending : accepted.drop finished = [] := by
      cases hq : accepted.drop finished with
      | nil => rfl
      | cons m q =>
        have hoffset := h.offset_le
        rw [hq] at hn hoffset
        have hle : s.printOffset ≤ m.length := hoffset
        simp only [printWork, List.map_cons, List.sum_cons] at hn
        omega
    have htake : accepted.take finished = accepted :=
      List.take_of_length_le (List.drop_eq_nil_iff.mp hpending)
    show s.serial = _
    rw [h.serial_eq, hpending, htake]
    simp
  | succ n ih =>
    rw [Function.iterate_succ_apply]
    cases hq : accepted.drop finished with
    | nil =>
      rw [h.servePrint_nil hq]
      apply ih h
      simp [hq, printWork]
    | cons m q =>
      rw [hq] at hn
      simp only [printWork, List.map_cons, List.sum_cons] at hn
      rcases h.servePrint_cons hq with ⟨hlt, hinv, _, hoffset⟩ | ⟨hend, hinv, _, hoffset⟩
      · apply ih hinv
        rw [hq, hoffset]
        simp only [printWork, List.map_cons, List.sum_cons]
        omega
      · apply ih hinv
        have hdrop : accepted.drop (finished + 1) = q := by
          rw [← List.tail_drop, hq]
          rfl
        rw [hdrop, hoffset]
        show (q.map _).sum - 0 ≤ n
        omega

end Print

theorem print_iterate (s : SpoolerT) (n : Nat) :
    (audioSpoolerService^[n] s).print = servePrint^[n] s.print := by
  induction n generalizing s with
  | zero => rfl
  | succ n ih =>
    rw [Function.iterate_succ_apply, Function.iterate_succ_apply, ih]
    rfl

/-- The condition on a call: a message comes only while fewer than eight are pending. -/
def PrintRoom (h : History) (c : Call) : Prop :=
  ∀ text, c = .spoolPrint (some text) → h.pendingPrints.length ≠ printQueueSlots

theorem printInv_step (h : History) (c : Call) (hinv : h.PrintInv) (hroom : PrintRoom h c) :
    (step h c).PrintInv := by
  unfold History.PrintInv at hinv ⊢
  unfold step
  cases c with
  | spoolPrint text =>
    cases text with
    | none => simpa [perform, spoolPrint, acceptedPrint] using hinv
    | some text =>
      have hhead : (spoolPrint (some text) h.spooler.print).printHead =
          h.spooler.print.printHead := by
        rw [PrintInv.spoolPrint_eq hinv]
      have hnext := PrintInv.spoolPrint hinv text (hroom text rfl)
      simpa [perform, hhead, PrintInv.acceptedPrint_eq hinv text] using hnext
  | spoolAudioTone frequency durationMs => simpa [perform, acceptedPrint] using hinv
  | iterate =>
    cases hq : h.acceptedPrints.drop h.finishedPrints with
    | nil => simpa [perform, acceptedPrint, audioSpoolerService,
        PrintInv.servePrint_nil hinv hq] using hinv
    | cons m q =>
      rcases PrintInv.servePrint_cons hinv hq with ⟨_, hnext, hhead, _⟩ | ⟨_, hnext, hhead, _⟩
      · simpa [perform, acceptedPrint, audioSpoolerService, hhead] using hnext
      · have hne : next printQueueSlots h.spooler.print.printHead ≠ h.spooler.print.printHead :=
          next_ne (by decide) hinv.queue.head_lt
        simpa [perform, acceptedPrint, audioSpoolerService, hhead, hne] using hnext

/-- What is owed of the print queue in one state: the output is a prefix of all
accepted messages, and enough iterations of the service complete it. -/
def PrintsInOrder (h : History) : Prop :=
  h.spooler.print.serial <+: h.acceptedPrints.flatten ∧
    ∃ n₀, ∀ n ≥ n₀, (audioSpoolerService^[n] h.spooler).print.serial = h.acceptedPrints.flatten

/-- A `spool_print` that finds eight messages pending changes nothing. -/
def PrintRejects (h : History) (c : Call) : Prop :=
  ∀ text, c = .spoolPrint text → h.pendingPrints.length = printQueueSlots →
    perform h.spooler c = h.spooler

theorem printsInOrder_of_inv (h : History) (hinv : h.PrintInv) : PrintsInOrder h := by
  constructor
  · -- the rest of the oldest message and the messages behind it
    have hall : h.acceptedPrints.flatten = (h.acceptedPrints.take h.finishedPrints).flatten ++
        (h.acceptedPrints.drop h.finishedPrints).flatten := by
      rw [← List.flatten_append, List.take_append_drop]
    rw [hall, hinv.serial_eq]
    apply List.prefix_append_right_inj _ |>.mpr
    cases h.acceptedPrints.drop h.finishedPrints with
    | nil => simp
    | cons m q => exact (List.take_prefix _ _).trans (List.prefix_append _ _)
  · refine ⟨printWork h.pendingPrints h.spooler.print.printOffset, ?_⟩
    intro n hn
    rw [print_iterate]
    exact PrintInv.drain hinv hn

/-- With eight messages pending, the call is not rejected. -/
theorem printRoom_of_rejects (h : History) (c : Call) (hinv : h.PrintInv)
    (hrejects : PrintRejects h c) : PrintRoom h c := by
  intro text hc hfull
  subst hc
  have hsame := hrejects (some text) rfl hfull
  have htail := congrArg (fun s => s.print.printTail) hsame
  rw [show (perform h.spooler (.spoolPrint (some text))).print =
    spoolPrint (some text) h.spooler.print from rfl, PrintInv.spoolPrint_eq hinv text] at htail
  exact next_ne (by decide) hinv.queue.tail_lt htail

theorem printRejects_of_room (h : History) (c : Call) (hroom : PrintRoom h c) :
    PrintRejects h c := by
  intro text hc hfull
  cases text with
  | none =>
    subst hc
    rfl
  | some text => exact absurd hfull (hroom text hc)

/-- In every history, the printer keeps the order of the accepted messages and
refuses a message that finds eight pending, exactly when no message ever comes
while eight are pending. -/
theorem print_spooler_fifo_iff (calls : List Call) :
    Always step PrintsInOrder start calls ∧ Each step PrintRejects start calls ↔
      Each step PrintRoom start calls := by
  constructor
  · intro h
    exact Each.mono History.PrintInv printInv_step printRoom_of_rejects printInv_start h.2
  · intro h
    constructor
    · exact always_of_each History.PrintInv printInv_step printsInOrder_of_inv printInv_start h
    · apply Each.weaken History.PrintInv printInv_step _ printInv_start h
      intro h c _ hroom
      exact printRejects_of_room h c hroom

/-- Nine one-letter messages, then one iteration of the service. -/
def nineMessages : List Call :=
  (List.range 9).map (fun n => .spoolPrint (some [97 + n.toUInt8])) ++ [.iterate]

/-- The first character printed is that of the ninth message. -/
theorem print_spooler_loses_messages :
    ¬(Always step PrintsInOrder start nineMessages ∧ Each step PrintRejects start nineMessages) := by
  intro h
  have hprinted := h.1.last.1
  revert hprinted
  decide +kernel

/-! ## The audio queue -/

/-- What a slot of the queue holds: a pending tone, or nothing that is valid. -/
def audioHolds (slot : AudioSlot) : Option (UInt32 × UInt32) → Prop
  | some tone => slot = ⟨tone.1, tone.2, true⟩
  | none => slot.valid = false

/-- The ring holds the tones that are still owed. -/
structure AudioInv (s : AudioSpooler) (accepted : List (UInt32 × UInt32)) : Prop where
  queue : Queue audioQueueSlots audioHolds s.audioQueue s.audioHead s.audioTail s.audioQueueFull
    (accepted.drop s.played.length)
  played_prefix : s.played <+: accepted

/-- The invariant of a history. -/
def History.AudioInv (h : History) : Prop := Spooler.AudioInv h.spooler.audio h.acceptedTones

theorem audioInv_start : start.AudioInv := by
  constructor
  · apply Queue.empty
    · decide
    · intro i
      rfl
  · exact List.prefix_refl _

section Audio

variable {s : AudioSpooler} {accepted : List (UInt32 × UInt32)}

/-- A tone is never refused. -/
theorem AudioInv.spoolAudioTone_eq (h : AudioInv s accepted) (frequency durationMs : UInt32) :
    spoolAudioTone frequency durationMs s =
      { s with
        audioQueue := Function.update s.audioQueue s.audioTail ⟨frequency, durationMs, true⟩
        audioTail := next audioQueueSlots s.audioTail
        audioQueueFull := if next audioQueueSlots s.audioTail = s.audioHead then true
          else s.audioQueueFull } := by
  show (if _ ∧ _ then _ else _) = _
  rw [if_neg]
  intro hreject
  exact h.queue.next_tail_ne (by decide) hreject.2 hreject.1

theorem AudioInv.acceptedTone_eq (h : AudioInv s accepted) (frequency durationMs : UInt32) :
    acceptedTone s (.spoolAudioTone frequency durationMs) = [(frequency, durationMs)] := by
  show (if (Spooler.spoolAudioTone frequency durationMs s).audioTail ≠ s.audioTail then _
    else _) = _
  rw [h.spoolAudioTone_eq]
  exact if_pos (next_ne (by decide) h.queue.tail_lt)

theorem AudioInv.spoolAudioTone (h : AudioInv s accepted) (frequency durationMs : UInt32)
    (hroom : (accepted.drop s.played.length).length ≠ audioQueueSlots) :
    AudioInv (spoolAudioTone frequency durationMs s) (accepted ++ [(frequency, durationMs)]) := by
  rw [h.spoolAudioTone_eq]
  constructor
  · show Queue _ _ _ _ _ _ ((accepted ++ _).drop s.played.length)
    rw [List.drop_append_of_le_length h.played_prefix.length_le]
    apply h.queue.push hroom
    rfl
  · exact h.played_prefix.trans (List.prefix_append _ _)

/-- Nothing is pending: the slot at `audio_head` is not valid. -/
theorem AudioInv.serveAudio_nil (h : AudioInv s accepted)
    (hq : accepted.drop s.played.length = []) : serveAudio s = s := by
  have hqueue := h.queue
  rw [hq] at hqueue
  have hvalid : (s.audioQueue s.audioHead).valid = false := hqueue.front_nil
  unfold serveAudio
  exact if_neg (Bool.eq_false_iff.mp hvalid)

/-- Something is pending: the service plays the oldest tone. -/
theorem AudioInv.serveAudio_cons (h : AudioInv s accepted)
    {tone : UInt32 × UInt32} {q : List (UInt32 × UInt32)}
    (hq : accepted.drop s.played.length = tone :: q) :
    AudioInv (serveAudio s) accepted ∧ (serveAudio s).played = s.played ++ [tone] := by
  have hqueue := h.queue
  rw [hq] at hqueue
  have hslot : s.audioQueue s.audioHead = ⟨tone.1, tone.2, true⟩ := hqueue.front
  have hall : accepted = s.played ++ tone :: q := by
    rw [← hq]
    exact List.prefix_append_drop h.played_prefix
  unfold serveAudio
  simp only [hslot, if_true]
  refine ⟨?_, trivial⟩
  constructor
  · show Queue _ _ _ _ _ _ (accepted.drop (s.played ++ [tone]).length)
    rw [show accepted.drop (s.played ++ [tone]).length = q by rw [hall]; simp]
    apply hqueue.pop
    rfl
  · show s.played ++ [tone] <+: accepted
    rw [hall]
    exact ⟨q, by simp⟩

/-- Enough iterations play all that was accepted. -/
theorem AudioInv.drain (h : AudioInv s accepted) {n : Nat}
    (hn : (accepted.drop s.played.length).length ≤ n) :
    (serveAudio^[n] s).played = accepted := by
  induction n generalizing s with
  | zero =>
    have hpending := List.length_eq_zero_iff.mp (Nat.le_zero.mp hn)
    have hall := List.prefix_append_drop h.played_prefix
    rw [hpending, List.append_nil] at hall
    exact hall.symm
  | succ n ih =>
    rw [Function.iterate_succ_apply]
    cases hq : accepted.drop s.played.length with
    | nil =>
      rw [h.serveAudio_nil hq]
      apply ih h
      simp [hq]
    | cons tone q =>
      obtain ⟨hinv, hplayed⟩ := h.serveAudio_cons hq
      apply ih hinv
      rw [List.length_drop] at hn ⊢
      rw [hplayed, List.length_append, List.length_singleton]
      omega

end Audio

theorem audio_iterate (s : SpoolerT) (n : Nat) :
    (audioSpoolerService^[n] s).audio = serveAudio^[n] s.audio := by
  induction n generalizing s with
  | zero => rfl
  | succ n ih =>
    rw [Function.iterate_succ_apply, Function.iterate_succ_apply, ih]
    rfl

/-- The condition on a call: a tone comes only while fewer than eight are pending. -/
def ToneRoom (h : History) (c : Call) : Prop :=
  ∀ frequency durationMs, c = .spoolAudioTone frequency durationMs →
    h.pendingTones.length ≠ audioQueueSlots

theorem audioInv_step (h : History) (c : Call) (hinv : h.AudioInv) (hroom : ToneRoom h c) :
    (step h c).AudioInv := by
  unfold History.AudioInv at hinv ⊢
  unfold step
  cases c with
  | spoolPrint text => simpa [perform, acceptedTone] using hinv
  | spoolAudioTone frequency durationMs =>
    have hnext := AudioInv.spoolAudioTone hinv frequency durationMs
      (hroom frequency durationMs rfl)
    simpa [perform, AudioInv.acceptedTone_eq hinv] using hnext
  | iterate =>
    have hnext : AudioInv (serveAudio h.spooler.audio) h.acceptedTones := by
      cases hq : h.acceptedTones.drop h.spooler.audio.played.length with
      | nil =>
        rw [AudioInv.serveAudio_nil hinv hq]
        exact hinv
      | cons tone q => exact (AudioInv.serveAudio_cons hinv hq).1
    simpa [perform, acceptedTone, audioSpoolerService] using hnext

/-- What is owed of the audio queue in one state: the tones played are a prefix
of the accepted ones; every other accepted tone is valid in a slot of its own; and
enough iterations of the service play them all. -/
def PlaysInOrder (h : History) : Prop :=
  h.spooler.audio.played <+: h.acceptedTones ∧
    (∃ slot : Fin h.pendingTones.length → Fin audioQueueSlots, Function.Injective slot ∧
      ∀ i, h.spooler.audio.audioQueue (slot i) =
        ⟨(h.pendingTones.get i).1, (h.pendingTones.get i).2, true⟩) ∧
    ∃ n₀, ∀ n ≥ n₀, (audioSpoolerService^[n] h.spooler).audio.played = h.acceptedTones

theorem playsInOrder_of_inv (h : History) (hinv : h.AudioInv) : PlaysInOrder h := by
  have hlen : h.pendingTones.length ≤ audioQueueSlots := hinv.queue.length_le
  have hindex : ∀ i, after audioQueueSlots h.spooler.audio.audioHead i < audioQueueSlots := by
    intro i
    exact Nat.mod_lt _ (by decide)
  refine ⟨hinv.played_prefix, ⟨fun i => ⟨_, hindex i⟩, ?_, ?_⟩, ?_⟩
  · intro i j hij
    apply Fin.ext
    exact after_injective _ (by omega) (by omega) (congrArg Fin.val hij)
  · intro i
    have hslot := hinv.queue.slot i (by omega)
    have hget : (h.acceptedTones.drop h.spooler.audio.played.length)[i.val]? =
        some (h.pendingTones.get i) := List.getElem?_eq_getElem i.isLt
    rw [hget] at hslot
    exact hslot
  · refine ⟨h.pendingTones.length, ?_⟩
    intro n hn
    rw [audio_iterate]
    exact AudioInv.drain hinv hn

/-- A ninth pending tone has no slot. -/
theorem toneRoom_of_playsInOrder (h : History) (c : Call) (hinv : h.AudioInv)
    (hnext : PlaysInOrder (step h c)) : ToneRoom h c := by
  intro frequency durationMs hc hfull
  subst hc
  obtain ⟨_, ⟨slot, hslot, _⟩, _⟩ := hnext
  have hcard := Fintype.card_le_of_injective slot hslot
  rw [Fintype.card_fin, Fintype.card_fin] at hcard
  have hpending : (step h (.spoolAudioTone frequency durationMs)).pendingTones =
      h.pendingTones ++ [(frequency, durationMs)] := by
    show (h.acceptedTones ++ acceptedTone _ _).drop
      (spoolAudioTone frequency durationMs h.spooler.audio).played.length = _
    rw [AudioInv.acceptedTone_eq hinv, AudioInv.spoolAudioTone_eq hinv]
    exact List.drop_append_of_le_length hinv.played_prefix.length_le
  rw [hpending, List.length_append, hfull] at hcard
  exact Nat.not_succ_le_self _ hcard

/-- In every history, the tones are played in the order of the accepted calls and
none is lost, exactly when no tone ever comes while eight are pending. -/
theorem audio_spooler_fifo_iff (calls : List Call) :
    Always step PlaysInOrder start calls ↔ Each step ToneRoom start calls := by
  constructor
  · intro h
    exact Each.mono History.AudioInv audioInv_step toneRoom_of_playsInOrder audioInv_start
      h.each_next
  · intro h
    exact always_of_each History.AudioInv audioInv_step playsInOrder_of_inv audioInv_start h

/-- Nine tones, then one iteration of the service. -/
def nineTones : List Call :=
  (List.range 9).map (fun n => .spoolAudioTone (440 + n.toUInt32) 40) ++ [.iterate]

/-- The first tone played is the ninth. -/
theorem audio_spooler_overwrites_tone : ¬Always step PlaysInOrder start nineTones := by
  intro h
  have hplayed := h.last.1
  revert hplayed
  decide +kernel

end CosKernel.Spooler
