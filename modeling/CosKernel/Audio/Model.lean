import CosKernel.Spooler.Model

/-!
# Tones on the PC speaker (`audio.c`)

A tone is a divisor for channel 2 of the timer and two bits of the speaker port.
The functions are lists of writes to ports; what they read from the speaker port
is a parameter. The timer takes a divisor as two bytes after a command.
-/

namespace CosKernel.Audio

open Spooler

def pitControlPort : UInt16 := 0x43
def pitChannel2Port : UInt16 := 0x42
def pcSpeakerPort : UInt16 := 0x61
def pitFrequency : UInt32 := 1193180

/-- `outb(port, value)` -/
structure PortWrite where
  port : UInt16
  value : UInt8
deriving DecidableEq, Repr

/-- `audio_pit_disable`, with what `inb` returns. -/
def audioPitDisable (speaker : UInt8) : List PortWrite := [⟨pcSpeakerPort, speaker &&& 0xFC⟩]

/-- `uint16_t divisor` -/
def pitDivisor (frequency : UInt32) : UInt16 := (pitFrequency / frequency).toUInt16

/-- `audio_pit_set_frequency` -/
def audioPitSetFrequency (frequency : UInt32) (speaker : UInt8) : List PortWrite :=
  if frequency = 0 then audioPitDisable speaker
  else
    let divisor := pitDivisor frequency
    [⟨pitControlPort, 0xB6⟩, ⟨pitChannel2Port, (divisor &&& 0xFF).toUInt8⟩,
      ⟨pitChannel2Port, ((divisor >>> 8) &&& 0xFF).toUInt8⟩, ⟨pcSpeakerPort, speaker ||| 0x03⟩]

/-- `audio_play_tone`, with what the two reads of the speaker port return; waiting for the duration
writes nothing. -/
def audioPlayTone (audioInitialized : Bool) (frequency durationMs : UInt32) (before after : UInt8) :
    List PortWrite :=
  if audioInitialized = false ∨ frequency = 0 ∨ durationMs = 0 then audioPitDisable before
  else audioPitSetFrequency frequency before ++ audioPitDisable after

/-! ## The timer -/

/-- Channel 2: the low byte it has taken of a new divisor, and the divisors it was set to. -/
structure Pit where
  low : Option UInt8
  divisors : List Nat
deriving DecidableEq, Repr

/-- The divisor of two bytes; zero counts as 65536. -/
def counted (low high : UInt8) : Nat :=
  if low.toNat + 256 * high.toNat = 0 then 65536 else low.toNat + 256 * high.toNat

/-- A write to one of its ports. -/
def Pit.write (p : Pit) (w : PortWrite) : Pit :=
  if w.port = pitControlPort ∧ w.value = 0xB6 then { p with low := none }
  else if w.port = pitChannel2Port then
    match p.low with
    | none => { p with low := some w.value }
    | some low => ⟨none, p.divisors ++ [counted low w.value]⟩
  else p

/-- The divisors that a list of writes sets. -/
def programmed (writes : List PortWrite) : List Nat := (writes.foldl Pit.write ⟨none, []⟩).divisors

end CosKernel.Audio
