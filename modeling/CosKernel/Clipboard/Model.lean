import CosKernel.Lib.CString
import CosKernel.Lib.Run

/-!
# The clipboard (`clipboard.c`) and its daemon (`services.c`)

`clipboard_copy` stores bytes and their number; `clipboard_paste` hands out the
buffer alone, so what a reader makes of it is the C string that begins there.
The only reader in the kernel, the clipboard daemon, reads it so.

A pointer to the bytes copied is the function from offsets to what is found
there, `none` for `NULL`. `KLOG` and `KERROR` are left out.
-/

namespace CosKernel.Clipboard

/-- `CLIPBOARD_SIZE` -/
def clipboardSize : Nat := 512

/-- The static variables of `clipboard.c`. -/
structure ClipboardState where
  buffer : Vector UInt8 clipboardSize
  used : Nat
deriving DecidableEq

/-- The variables as the loader leaves them. -/
def bss : ClipboardState := ⟨Vector.replicate clipboardSize 0, 0⟩

/-- `clipboard_initialize` -/
def clipboardInitialize (s : ClipboardState) : ClipboardState := { s with used := 0 }

/-- `for (size_t i = 0; i < size; i++) clipboard_buffer[i] = data[i];` -/
def copyLoop (data : Nat → UInt8) (size : Nat) (buffer : Vector UInt8 clipboardSize) :
    Vector UInt8 clipboardSize :=
  (List.range size).foldl (fun b i => b.setIfInBounds i (data i)) buffer

/-- `clipboard_copy` -/
def clipboardCopy (data : Option (Nat → UInt8)) (size : Nat) (s : ClipboardState) : ClipboardState :=
  match data with
  | none => s
  | some data =>
    if size = 0 ∨ size > clipboardSize then s
    else { buffer := copyLoop data size s.buffer, used := size }

/-- `clipboard_paste`: `none` for `NULL`, else the buffer the pointer leads to. -/
def clipboardPaste (s : ClipboardState) : Option (Vector UInt8 clipboardSize) :=
  if s.used = 0 then none else some s.buffer

/-- `clipboard_clear` -/
def clipboardClear (s : ClipboardState) : ClipboardState := { s with used := 0 }

/-! ## The daemon -/

/-- `sizeof(clipboard_snapshot)` -/
def snapshotSize : Nat := 64

/-- The loop of `clipboard_daemon_service` over the pasted text, with `left` rounds to go:
the snapshot and `changed`. -/
def snapshotLoop (data : Vector UInt8 clipboardSize) :
    Nat → Nat → Vector UInt8 snapshotSize → Bool → Vector UInt8 snapshotSize × Bool
  | 0, _, snapshot, changed => (snapshot, changed)
  | left + 1, i, snapshot, changed =>
    let c := data.toList.getD i 0
    let changed' := changed || snapshot.toList.getD i 0 != c
    let snapshot' := snapshot.setIfInBounds i c
    if c = 0 then (snapshot', changed') else snapshotLoop data left (i + 1) snapshot' changed'

/-- One round of `clipboard_daemon_service`: the snapshot, and whether a notification is
posted. -/
def clipboardDaemonService (s : ClipboardState) (snapshot : Vector UInt8 snapshotSize) :
    Vector UInt8 snapshotSize × Bool :=
  match clipboardPaste s with
  | none => (snapshot, false)
  | some data => snapshotLoop data (snapshotSize - 1) 0 snapshot false

/-! ## Histories -/

/-- The calls made on the clipboard. -/
inductive Call where
  | copy (data : Option (Nat → UInt8)) (size : Nat)
  | clear

/-- One call. -/
def step (s : ClipboardState) : Call → ClipboardState
  | .copy data size => clipboardCopy data size s
  | .clear => clipboardClear s

/-- The clipboard after a history of calls. -/
def run (calls : List Call) : ClipboardState := calls.foldl step (clipboardInitialize bss)

/-- `data[0..size)` -/
def bytesOf (data : Nat → UInt8) (size : Nat) : List UInt8 := (List.range size).map data

/-- The C string a reader of `clipboard_paste` finds; `none` when there is no clipboard text or
the reader leaves the buffer. -/
def seen (s : ClipboardState) : Option (List UInt8) :=
  (clipboardPaste s).bind fun buffer => CString.scan buffer.toList

end CosKernel.Clipboard
