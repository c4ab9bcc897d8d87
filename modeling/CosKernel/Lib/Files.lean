import Mathlib

/-!
# Files that are read

A file server as its clients see it: a table of descriptors, each closed or with
the contents of a file and the position in it. To open a file takes the first
descriptor that is closed, a read takes the bytes from the position on.
-/

namespace CosKernel.Files

variable {β : Type*} {n : Nat}

/-- An open file. -/
structure OpenFile (β : Type*) where
  contents : List β
  position : Nat

/-- The descriptors; `none` is a closed one. -/
abbrev Table (β : Type*) (n : Nat) := Fin n → Option (OpenFile β)

/-- The bytes that a read of this size takes. -/
def OpenFile.next (f : OpenFile β) (size : Nat) : List β := (f.contents.drop f.position).take size

/-- The file behind a read. -/
def OpenFile.advance (f : OpenFile β) (size : Nat) : OpenFile β :=
  { f with position := f.position + (f.next size).length }

/-- The first closed descriptor. -/
def Table.free (t : Table β n) : Option (Fin n) := (List.finRange n).find? fun i => (t i).isNone

/-- Open a file with these contents, if there is one. -/
def Table.openFile (found : Option (List β)) (t : Table β n) : Option (Fin n) × Table β n :=
  match found, t.free with
  | some contents, some i => (some i, Function.update t i (some ⟨contents, 0⟩))
  | _, _ => (none, t)

/-- Read from a descriptor; there is no result for a closed one. -/
def Table.read (i : Fin n) (size : Nat) (t : Table β n) : Option (List β) × Table β n :=
  match t i with
  | none => (none, t)
  | some f => (some (f.next size), Function.update t i (some (f.advance size)))

def Table.close (i : Fin n) (t : Table β n) : Table β n := Function.update t i none

/-! ## Reads -/

theorem OpenFile.length_next (f : OpenFile β) (size : Nat) :
    (f.next size).length = min size (f.contents.length - f.position) := by
  rw [next, List.length_take, List.length_drop]

/-- A read does not go behind the end. -/
theorem OpenFile.advance_le {f : OpenFile β} (h : f.position ≤ f.contents.length) (size : Nat) :
    (f.advance size).position ≤ f.contents.length := by
  have hlen := f.length_next size
  unfold advance
  simp only
  omega

/-- What is read of a file of which only the front is known. -/
theorem OpenFile.next_take (whole : List β) (length position size : Nat) :
    (OpenFile.mk (whole.take length) position).next size =
      (whole.drop position).take (min size (length - position)) := by
  rw [next, List.drop_take, List.take_take]

/-! ## Descriptors -/

theorem Table.openFile_none (t : Table β n) : t.openFile none = (none, t) := rfl

theorem Table.openFile_full {t : Table β n} (hfull : t.free = none) (found : Option (List β)) :
    t.openFile found = (none, t) := by
  unfold openFile
  rw [hfull]
  cases found <;> rfl

theorem Table.openFile_some {t : Table β n} {i : Fin n} (hfree : t.free = some i) (contents : List β) :
    t.openFile (some contents) = (some i, Function.update t i (some ⟨contents, 0⟩)) := by
  unfold openFile
  rw [hfree]

end CosKernel.Files
