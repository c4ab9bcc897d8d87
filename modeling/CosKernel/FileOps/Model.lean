import CosKernel.Lib.ArrayTable
import CosKernel.Lib.CString

/-!
# The file-operation table (`file_ops.c`)

A table of 64 entries that is filled from the front. An operation looks for the
first existing entry with a path; a deleted entry keeps its place.

`none` is `NULL`.
-/

namespace CosKernel.FileOps

open ArrayTable (findFrom)
open CString (content)

abbrev maxFiles : Nat := 64

/-! ## Strings -/

/-- `strings_equal` -/
def stringsEqual (a b : Option (List UInt8)) : Bool := CString.equal a b

/-! ## State -/

structure VfsFileT where
  path : Option (List UInt8)
  isDirectory : Bool
  size : UInt32
  existsFlag : Bool
deriving DecidableEq

structure Table where
  fileTable : Nat → VfsFileT
  fileCount : Nat

/-- `file_ops_initialize`; the array keeps what it holds. -/
def fileOpsInitialize (t : Table) : Table := { t with fileCount := 0 }

/-! ## Operations -/

/-- The test of the searches. -/
def matchesPath (path : List UInt8) (f : VfsFileT) : Bool :=
  stringsEqual f.path (some path) && f.existsFlag

/-- The search of `delete`, `copy` and `move`. -/
def findFile (path : List UInt8) (t : Table) : Option Nat :=
  findFrom (matchesPath path) t.fileTable 0 t.fileCount

/-- `file_table[i] = f;` -/
def Table.set (t : Table) (i : Nat) (f : VfsFileT) : Table :=
  { t with fileTable := Function.update t.fileTable i f }

/-- `file_table[file_count] = f; file_count++;` -/
def Table.push (t : Table) (f : VfsFileT) : Table where
  fileTable := Function.update t.fileTable t.fileCount f
  fileCount := t.fileCount + 1

/-- `file_op_delete` -/
def fileOpDelete (path : Option (List UInt8)) (t : Table) : Int × Table :=
  match path with
  | none => (-1, t)
  | some path =>
    match findFile path t with
    | none => (-1, t)
    | some i => (0, t.set i { t.fileTable i with existsFlag := false })

/-- `file_op_copy` -/
def fileOpCopy (src dst : Option (List UInt8)) (t : Table) : Int × Table :=
  match src, dst with
  | some src, some dst =>
    match findFile src t with
    | none => (-1, t)
    | some i =>
      if t.fileCount ≥ maxFiles then (-1, t)
      else
        (0, t.push
          { path := some dst
            isDirectory := (t.fileTable i).isDirectory
            size := (t.fileTable i).size
            existsFlag := true })
  | _, _ => (-1, t)

/-- `file_op_mkdir` -/
def fileOpMkdir (path : Option (List UInt8)) (t : Table) : Int × Table :=
  match path with
  | none => (-1, t)
  | some path =>
    if t.fileCount ≥ maxFiles then (-1, t)
    else
      (0, t.push
        { path := some path
          isDirectory := true
          size := 0
          existsFlag := true })

/-- `file_op_move` -/
def fileOpMove (src dst : Option (List UInt8)) (t : Table) : Int × Table :=
  match src, dst with
  | some src, some dst =>
    match findFile src t with
    | none => (-1, t)
    | some i => (0, t.set i { t.fileTable i with path := some dst })
  | _, _ => (-1, t)

/-! ## Histories -/

inductive Call where
  | delete (path : Option (List UInt8))
  | copy (src dst : Option (List UInt8))
  | mkdir (path : Option (List UInt8))
  | move (src dst : Option (List UInt8))
deriving DecidableEq

def perform (t : Table) : Call → Int × Table
  | .delete path => fileOpDelete path t
  | .copy src dst => fileOpCopy src dst t
  | .mkdir path => fileOpMkdir path t
  | .move src dst => fileOpMove src dst t

def step (t : Table) (c : Call) : Table := (perform t c).2

theorem stringsEqual_some (a b : List UInt8) :
    stringsEqual (some a) (some b) = true ↔ content a = content b :=
  CString.equal_some a b

end CosKernel.FileOps
