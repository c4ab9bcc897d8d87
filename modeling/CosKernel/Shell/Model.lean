import CosKernel.Lib.CString
import CosKernel.Vga.Model

/-!
# The shell (`kernel.c`)

`shell_task` keeps a line of 80 characters, the position in it, and the place of
the cursor. The model follows its loop for each character `keyboard_read_char`
returns, with the screen as the shell alone writes it; the polls of the mouse and
of the network touch none of its variables and are left out.

Every access of `line` is checked: `none` says that the index was outside of the
array.
-/

namespace CosKernel.Shell

open Vga

/-- `sizeof(line)` -/
def lineSize : Nat := 80

/-- `const char* prompt = "[.C OS]> ";` -/
def prompt : List UInt8 := [91, 46, 67, 32, 79, 83, 93, 62, 32]

/-- The local variables of `shell_task`, and the screen. -/
structure ShellTask where
  x : Int
  y : Int
  pos : Int
  line : Vector UInt8 lineSize
  vram : Vram

/-- `line[pos] = c;` -/
def setLine (pos : Int) (c : UInt8) (line : Vector UInt8 lineSize) : Option (Vector UInt8 lineSize) :=
  if 0 ≤ pos ∧ pos < lineSize then some (line.setIfInBounds pos.toNat c) else none

/-- `for (const char* p = prompt; *p; p++) vga_write_char(x++, y, *p, 0x0F);` -/
def writePrompt (s : ShellTask) : ShellTask :=
  prompt.foldl (fun s c => { s with x := s.x + 1, vram := vgaWriteChar s.x s.y c 0x0F s.vram }) s

/-- The variables in front of the loop. -/
def shellStart (vram : Vram) : ShellTask := writePrompt ⟨0, 22, 0, Vector.replicate lineSize 0, vram⟩

/-- `c == '\r' || c == '\n'` -/
def isEnter (c : UInt8) : Bool := c == 13 || c == 10

/-- The branch for Enter: `kprintf` reads the string in `line` for its `%s`. -/
def shellEnter (s : ShellTask) : Option (List UInt8 × ShellTask) := do
  let line ← setLine s.pos 0 s.line
  let command ← CString.scan line.toList
  let y := if s.y + 1 ≥ 24 then 23 else s.y + 1
  return (command, writePrompt { s with x := 0, y := y, pos := 0, line := line })

/-- The branch for `'\b'`. -/
def shellBackspace (s : ShellTask) : ShellTask :=
  if s.pos > 0 then
    { s with pos := s.pos - 1, x := s.x - 1, vram := vgaWriteChar (s.x - 1) s.y 32 0x0F s.vram }
  else s

/-- The branch for any other character. -/
def shellInsert (c : UInt8) (s : ShellTask) : Option ShellTask :=
  if s.pos < lineSize - 1 then do
    let line ← setLine s.pos c s.line
    return { s with pos := s.pos + 1, x := s.x + 1, line := line, vram := vgaWriteChar s.x s.y c 0x0F s.vram }
  else some s

/-- The loop body for a character: the command that is reported, if any, and the variables. -/
def shellKey (c : UInt8) (s : ShellTask) : Option (Option (List UInt8) × ShellTask) :=
  if isEnter c then (shellEnter s).map fun r => (some r.1, r.2)
  else if c = 8 then some (none, shellBackspace s)
  else (shellInsert c s).map fun s' => (none, s')

/-- The loop over these characters: the commands reported, in order, and the variables. -/
def shellRun : List UInt8 → ShellTask → Option (List (List UInt8) × ShellTask)
  | [], s => some ([], s)
  | c :: keys, s => do
    let (command, s') ← shellKey c s
    let (commands, s'') ← shellRun keys s'
    return (command.toList ++ commands, s'')

end CosKernel.Shell
