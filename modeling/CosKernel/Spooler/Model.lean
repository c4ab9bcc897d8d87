import CosKernel.Lib.RingBuffer

/-!
# The print and audio spooler (`services.c`)

Two rings of eight slots, filled by `spool_print` and `spool_audio_tone` and
emptied by the task `audio_spooler_service`. The tasks are scheduled
cooperatively, so that a history is a list of calls and of whole iterations of
the service, in any order.

An array is a function of the index; that the indices stay inside of it is
something to prove.
-/

namespace CosKernel.Spooler

open RingBuffer (next)

abbrev printQueueSlots : Nat := 8
abbrev printMessageSize : Nat := 128
abbrev audioQueueSlots : Nat := 8

/-! ## State -/

structure AudioSlot where
  frequency : UInt32
  durationMs : UInt32
  valid : Bool
deriving DecidableEq

/-- The variables of the print queue, and what the service has passed to
`serial_putchar`. -/
structure PrintSpooler where
  printQueue : Nat → Nat → UInt8
  printHead : Nat
  printTail : Nat
  printOffset : Nat
  printQueueFull : Bool
  serial : List UInt8

/-- The variables of the audio queue, and what the service has passed to
`audio_play_tone`. -/
structure AudioSpooler where
  audioQueue : Nat → AudioSlot
  audioHead : Nat
  audioTail : Nat
  audioQueueFull : Bool
  played : List (UInt32 × UInt32)

structure SpoolerT where
  print : PrintSpooler
  audio : AudioSpooler

/-- Their initial values. -/
def spooler : SpoolerT where
  print :=
    { printQueue := fun _ _ => 0
      printHead := 0
      printTail := 0
      printOffset := 0
      printQueueFull := false
      serial := [] }
  audio :=
    { audioQueue := fun _ => ⟨0, 0, false⟩
      audioHead := 0
      audioTail := 0
      audioQueueFull := false
      played := [] }

/-! ## Producers -/

/-- The loop of `spool_print`, from `index` on: the row and the `index` it ends
with. The end of the list is the NUL that ends the text. -/
def copyText : List UInt8 → Nat → (Nat → UInt8) → (Nat → UInt8) × Nat
  | [], index, row => (row, index)
  | c :: text, index, row =>
    if c ≠ 0 ∧ index < printMessageSize - 1 then
      copyText text (index + 1) (Function.update row index c)
    else (row, index)

/-- The loop of `spool_print` and the NUL it puts after the text. -/
def writeMessage (row : Nat → UInt8) (text : List UInt8) : Nat → UInt8 :=
  let (row, index) := copyText text 0 row
  Function.update row index 0

/-- `spool_print`; `none` is `NULL`. -/
def spoolPrint (text : Option (List UInt8)) (s : PrintSpooler) : PrintSpooler :=
  match text with
  | none => s
  | some text =>
    let next := next printQueueSlots s.printTail
    if next = s.printHead ∧ s.printQueueFull = true then s
    else
      { s with
        printQueue := Function.update s.printQueue s.printTail
          (writeMessage (s.printQueue s.printTail) text)
        printTail := next
        printQueueFull := if next = s.printHead then true else s.printQueueFull }

/-- `spool_audio_tone` -/
def spoolAudioTone (frequency durationMs : UInt32) (s : AudioSpooler) : AudioSpooler :=
  let next := next audioQueueSlots s.audioTail
  if next = s.audioHead ∧ s.audioQueueFull = true then s
  else
    { s with
      audioQueue := Function.update s.audioQueue s.audioTail ⟨frequency, durationMs, true⟩
      audioTail := next
      audioQueueFull := if next = s.audioHead then true else s.audioQueueFull }

/-! ## Consumer -/

/-- The audio part of one iteration of `audio_spooler_service`. -/
def serveAudio (s : AudioSpooler) : AudioSpooler :=
  let slot := s.audioQueue s.audioHead
  if slot.valid = true then
    { s with
      audioQueue := Function.update s.audioQueue s.audioHead { slot with valid := false }
      audioHead := next audioQueueSlots s.audioHead
      audioQueueFull := false
      played := s.played ++ [(slot.frequency, slot.durationMs)] }
  else s

/-- The print part of one iteration of `audio_spooler_service`; `print_offset` is
a `uint8_t`. -/
def servePrint (s : PrintSpooler) : PrintSpooler :=
  if s.printHead ≠ s.printTail ∨ s.printOffset ≠ 0 ∨ s.printQueueFull = true then
    let row := s.printQueue s.printHead
    let c := row s.printOffset
    if c ≠ 0 then
      { s with
        serial := s.serial ++ [c]
        printOffset := (s.printOffset + 1) % 2 ^ 8 }
    else
      { s with
        printQueue := Function.update s.printQueue s.printHead (Function.update row 0 0)
        printHead := next printQueueSlots s.printHead
        printOffset := 0
        printQueueFull := false }
  else s

/-- One iteration of `audio_spooler_service`. -/
def audioSpoolerService (s : SpoolerT) : SpoolerT where
  audio := serveAudio s.audio
  print := servePrint s.print

/-! ## Histories -/

/-- What may happen next: a call by some task, or an iteration of the service. -/
inductive Call where
  | spoolPrint (text : Option (List UInt8))
  | spoolAudioTone (frequency durationMs : UInt32)
  | iterate
deriving DecidableEq

def perform (s : SpoolerT) : Call → SpoolerT
  | .spoolPrint text => { s with print := spoolPrint text s.print }
  | .spoolAudioTone frequency durationMs =>
    { s with audio := spoolAudioTone frequency durationMs s.audio }
  | .iterate => audioSpoolerService s

/-- What is printed of a text: at most 127 characters. -/
def message (text : List UInt8) : List UInt8 :=
  (text.takeWhile (· ≠ 0)).take (printMessageSize - 1)

/-- The message that the call enqueues, if it does: `print_tail` advances. -/
def acceptedPrint (s : PrintSpooler) : Call → List (List UInt8)
  | .spoolPrint (some text) =>
    if (spoolPrint (some text) s).printTail ≠ s.printTail then [message text] else []
  | _ => []

/-- The tone that the call enqueues, if it does: `audio_tail` advances. -/
def acceptedTone (s : AudioSpooler) : Call → List (UInt32 × UInt32)
  | .spoolAudioTone frequency durationMs =>
    if (spoolAudioTone frequency durationMs s).audioTail ≠ s.audioTail then
      [(frequency, durationMs)]
    else []
  | _ => []

/-- The spooler with a record of what was enqueued so far and of how many
messages the service is done with: `print_head` advanced. -/
structure History where
  spooler : SpoolerT
  acceptedPrints : List (List UInt8)
  finishedPrints : Nat
  acceptedTones : List (UInt32 × UInt32)

def step (h : History) (c : Call) : History where
  spooler := perform h.spooler c
  acceptedPrints := h.acceptedPrints ++ acceptedPrint h.spooler.print c
  finishedPrints :=
    if (perform h.spooler c).print.printHead ≠ h.spooler.print.printHead then h.finishedPrints + 1
    else h.finishedPrints
  acceptedTones := h.acceptedTones ++ acceptedTone h.spooler.audio c

def start : History := ⟨spooler, [], 0, []⟩

/-- The messages that were enqueued and not yet left by the service. -/
def History.pendingPrints (h : History) : List (List UInt8) :=
  h.acceptedPrints.drop h.finishedPrints

/-- The tones that were enqueued and not yet played. -/
def History.pendingTones (h : History) : List (UInt32 × UInt32) :=
  h.acceptedTones.drop h.spooler.audio.played.length

end CosKernel.Spooler
