import CosKernel.Fat32.Listing
import CosKernel.Lib.Files

/-!
# The driver as a file server

What the driver is for: the root directory names files, a name is opened for the
first entry it fits, and a handle reads the bytes of its file from the position
on. On a sound volume every sequence of calls, with any number of handles at a
time, gets the answers of such a server (`Lib.Files`): the buffers on the stack,
the clusters and the sectors are not to be seen. Writing is accepted and has no
effect.
-/

namespace CosKernel.Fat32

open Bytes Heap Files

/-! ## Calls and answers -/

inductive FileCall where
  | openFile (stack : Nat → UInt8) (filename : Option (List UInt8))
  | read (stack : Nat → UInt8) (fd : Int) (nonNull : Bool) (size : UInt64)
  | write (fd : Int) (size : UInt64)
  | close (fd : Int)
  | enumerateRoot (stack : Nat → UInt8) (nonNull : Bool)

/-- What a caller gets to see. -/
inductive Answer where
  | handle (fd : Int)
  | bytes (ret : Int) (written : List UInt8)
  | written (ret : Int)
  | closed
  | listing (ok : Bool) (calls : List (List UInt8 × UInt32))
deriving DecidableEq, Repr

/-- A read asks for less than 2³¹ bytes, as its result is an `int`. -/
def FileCall.Small : FileCall → Prop
  | .read _ _ _ size => size.toNat < 2 ^ 31
  | _ => True

/-- One call of the driver on a disk whose sectors can be read; `none` if it has not ended after `fuel`
clusters. -/
def driverStep (disk : UInt32 → Nat → UInt8) (fuel : Nat) (s : State) : FileCall → Option (Answer × State)
  | .openFile stack filename =>
    (fat32Open (imageAhci disk) stack fuel filename s).map fun r => (.handle r.1, r.2)
  | .read stack fd nonNull size =>
    let r := fat32Read (imageAhci disk) stack fd nonNull size s
    some (.bytes r.ret r.written, r.state)
  | .write fd size => some (.written (fat32Write fd size s), s)
  | .close fd => some (.closed, fat32Close fd s)
  | .enumerateRoot stack nonNull =>
    (fat32EnumerateRoot (imageAhci disk) stack fuel nonNull s).map fun r => (.listing r.1 r.2, s)

/-! ## The server -/

/-- What a server has: its directory, whether it can be listed, and the contents of its files. -/
structure Server where
  entries : List DirEntry
  listed : Bool
  contents : DirEntry → List UInt8

/-- The contents of the file that a name is opened for. -/
def Server.lookup (server : Server) (name : List UInt8) : Option (List UInt8) :=
  (server.entries.find? fun entry => fat32CompareEntryName entry name).map server.contents

def Server.open (server : Server) (filename : Option (List UInt8)) (t : Table UInt8 maxFiles) :
    Answer × Table UInt8 maxFiles :=
  let r := t.openFile (filename.bind server.lookup)
  (.handle (r.1.elim (-1) fun i => i.val), r.2)

/-- A read without a buffer, or of a handle that is not open, is refused. -/
def serverRead (fd : Int) (nonNull : Bool) (size : UInt64) (t : Table UInt8 maxFiles) :
    Answer × Table UInt8 maxFiles :=
  match handle? fd with
  | none => (.bytes (-1) [], t)
  | some i =>
    if nonNull then
      match t.read i size.toNat with
      | (none, t) => (.bytes (-1) [], t)
      | (some out, t) => (.bytes out.length out, t)
    else (.bytes (-1) [], t)

def serverWrite (fd : Int) (size : UInt64) (t : Table UInt8 maxFiles) : Answer :=
  match handle? fd with
  | none => .written (-1)
  | some i => .written (if (t i).isSome then asInt size.toNat else -1)

def serverClose (fd : Int) (t : Table UInt8 maxFiles) : Table UInt8 maxFiles :=
  match handle? fd with
  | none => t
  | some i => t.close i

def Server.step (server : Server) (t : Table UInt8 maxFiles) : FileCall → Answer × Table UInt8 maxFiles
  | .openFile _ filename => server.open filename t
  | .read _ fd nonNull size => serverRead fd nonNull size t
  | .write fd size => (serverWrite fd size t, t)
  | .close fd => (.closed, serverClose fd t)
  | .enumerateRoot _ nonNull =>
    (if nonNull then .listing server.listed (server.entries.map report) else .listing false [], t)

/-! ## Sound volumes -/

/-- A volume with whole clusters in the buffer, a root directory that ends, and a chain for each of its
files. -/
structure Sound (disk : UInt32 → Nat → UInt8) (fs : Fs) (table : Nat → UInt8) (cs : List UInt32)
    (chain : DirEntry → List UInt32) : Prop where
  loaded : fs.fatTable = some table
  height : fs.sectorsPerCluster = 8
  root : Walk fs fs.rootDirCluster cs
  stored : ∀ entry ∈ directory disk fs cs,
    Stored fs table (fat32MakeCluster entry) entry.fileSize.toNat (chain entry)

/-- The server that such a volume is. -/
def served (disk : UInt32 → Nat → UInt8) (fs : Fs) (cs : List UInt32) (chain : DirEntry → List UInt32) :
    Server where
  entries := directory disk fs cs
  listed := 2 ≤ fs.rootDirCluster
  contents entry := (content disk fs (chain entry)).take entry.fileSize.toNat

/-- The handle of a file that the server has open. -/
def fileOf (entry : DirEntry) (position : Nat) : File :=
  ⟨fat32MakeCluster entry, entry.fileSize, UInt32.ofNat position, true⟩

/-- A handle shows a descriptor: both are closed, or both are at the same place of the same file. -/
def Shows (server : Server) (file : File) : Option (OpenFile UInt8) → Prop
  | none => file.isOpen = false
  | some f => ∃ entry ∈ server.entries, f.contents = server.contents entry ∧
      file = fileOf entry f.position ∧ f.position ≤ f.contents.length

section Simulation

variable {disk : UInt32 → Nat → UInt8} {fs : Fs} {table : Nat → UInt8} {cs : List UInt32}
  {chain : DirEntry → List UInt32}

theorem Sound.length_contents (h : Sound disk fs table cs chain) {entry : DirEntry}
    (hentry : entry ∈ (served disk fs cs chain).entries) :
    ((served disk fs cs chain).contents entry).length = entry.fileSize.toNat := by
  have hsize := (h.stored entry hentry).size_le
  have hlen : (content disk fs (chain entry)).length = (chain entry).length * fs.clusterSize :=
    length_blocks (length_clusterBytes disk fs) (chain entry)
  show ((content disk fs (chain entry)).take entry.fileSize.toNat).length = _
  rw [List.length_take, hlen]
  exact Nat.min_eq_left hsize

/-- The driver and the server are in the same place. -/
structure Serving (disk : UInt32 → Nat → UInt8) (fs : Fs) (cs : List UInt32) (chain : DirEntry → List UInt32)
    (s : State) (t : Table UInt8 maxFiles) : Prop where
  fs_eq : s.fs = fs
  shows : ∀ i, Shows (served disk fs cs chain) (s.files i) (t i)

theorem Serving.isOpen {s : State} {t : Table UInt8 maxFiles} (h : Serving disk fs cs chain s t)
    (i : Fin maxFiles) : (s.files i).isOpen = (t i).isSome := by
  have hshows := h.shows i
  rcases hi : t i with _ | f
  · rw [hi] at hshows
    exact hshows
  · rw [hi] at hshows
    rcases hshows with ⟨entry, -, -, hfile, -⟩
    rw [hfile]
    rfl

theorem Serving.freeHandle {s : State} {t : Table UInt8 maxFiles} (h : Serving disk fs cs chain s t) :
    Fat32.freeHandle s = t.free := by
  unfold Fat32.freeHandle Table.free
  congr 1
  funext i
  rw [h.isOpen i]
  exact Option.not_isSome (t i)

/-- One handle and its descriptor are written. -/
theorem Serving.update {s : State} {t : Table UInt8 maxFiles} (h : Serving disk fs cs chain s t)
    (i : Fin maxFiles) {file : File} {f : Option (OpenFile UInt8)}
    (hshows : Shows (served disk fs cs chain) file f) :
    Serving disk fs cs chain (s.setFile i file) (Function.update t i f) := by
  refine ⟨h.fs_eq, ?_⟩
  intro j
  by_cases hj : j = i
  · subst hj
    rw [Function.update_self]
    show Shows _ (Function.update s.files j file j) f
    rw [Function.update_self]
    exact hshows
  · rw [Function.update_of_ne hj, setFile_files_ne hj]
    exact h.shows j

/-! ### Opening and closing -/

theorem Serving.open {s : State} {t : Table UInt8 maxFiles} (hsound : Sound disk fs table cs chain)
    (h : Serving disk fs cs chain s t) {fuel : Nat} (hfuel : cs.length ≤ fuel) (stack : Nat → UInt8)
    (filename : Option (List UInt8)) :
    ∃ s', driverStep disk fuel s (.openFile stack filename) =
        some (((served disk fs cs chain).open filename t).1, s') ∧
      Serving disk fs cs chain s' ((served disk fs cs chain).open filename t).2 := by
  have hfree := h.freeHandle
  rcases filename with _ | name
  · exact ⟨s, rfl, h⟩
  rcases hf : t.free with _ | i
  · -- no handle is left
    rw [hf] at hfree
    refine ⟨s, ?_, ?_⟩
    · simp only [driverStep, fat32Open, hfree, Option.map_some, Server.open, Table.openFile_full hf]
      rfl
    · simp only [Server.open, Table.openFile_full hf]
      exact h
  rw [hf] at hfree
  have hfind : findFrom (imageAhci disk) fs name fuel 0 stack fs.rootDirCluster = _ :=
    findFrom_walk hsound.height hsound.root name hfuel 0 stack
  rw [← h.fs_eq] at hfind
  have hlookup : (served disk fs cs chain).lookup name =
      ((directory disk fs cs).find? fun entry => fat32CompareEntryName entry name).map
        (served disk fs cs chain).contents := rfl
  rcases hentry : (directory disk fs cs).find? (fun entry => fat32CompareEntryName entry name)
    with _ | entry
  · -- no entry has this name
    rw [hentry] at hlookup
    rw [h.fs_eq, hentry, ← h.fs_eq] at hfind
    refine ⟨s, ?_, ?_⟩
    · simp only [driverStep, fat32Open, hfree, fat32FindInDirectory, hfind, Option.map_some, Server.open,
        Option.bind_some, hlookup, Option.map_none, Table.openFile_none]
      rfl
    · simp only [Server.open, Option.bind_some, hlookup, Option.map_none, Table.openFile_none]
      exact h
  · rw [hentry] at hlookup
    rw [h.fs_eq, hentry, ← h.fs_eq] at hfind
    refine ⟨s.setFile i (openedFile entry), ?_, ?_⟩
    · simp only [driverStep, fat32Open, hfree, fat32FindInDirectory, hfind, Option.map_some, Server.open,
        Option.bind_some, hlookup, Table.openFile_some hf]
      rfl
    · simp only [Server.open, Option.bind_some, hlookup, Option.map_some, Table.openFile_some hf]
      exact h.update i ⟨entry, List.mem_of_find?_eq_some hentry, rfl, rfl, Nat.zero_le _⟩

/-! ### Listing -/

theorem Serving.close {s : State} {t : Table UInt8 maxFiles} (h : Serving disk fs cs chain s t) (fd : Int) :
    Serving disk fs cs chain (fat32Close fd s) (serverClose fd t) := by
  unfold fat32Close serverClose
  rcases handle? fd with _ | i
  · exact h
  · exact h.update i rfl

/-! ### Reading -/

/-- An open handle reads what its descriptor reads. -/
theorem Serving.read_open {s : State} {t : Table UInt8 maxFiles} (hsound : Sound disk fs table cs chain)
    (hm : Mounted fs table) (h : Serving disk fs cs chain s t) {i : Fin maxFiles} {f : OpenFile UInt8}
    (hi : t i = some f) (stack : Nat → UInt8) {size : UInt64} (hsize : size.toNat < 2 ^ 31) :
    ∃ file, fat32Read (imageAhci disk) stack i.val true size s =
        ⟨(f.next size.toNat).length, f.next size.toNat, s.setFile i file⟩ ∧
      Shows (served disk fs cs chain) file (some (f.advance size.toNat)) := by
  have hopen := h.isOpen i
  have hshows := h.shows i
  rw [hi] at hopen hshows
  rcases hshows with ⟨entry, hentry, hcontents, hfile, hle⟩
  have hlen := hsound.length_contents hentry
  rw [hcontents, hlen] at hle
  have hlt := entry.fileSize.toNat_lt
  have hpos : (s.files i).currentPosition.toNat = f.position := by
    rw [hfile]
    show (UInt32.ofNat f.position).toNat = _
    rw [UInt32.toNat_ofNat']
    exact Nat.mod_eq_of_lt (by omega)
  have hstored : Stored s.fs table (s.files i).firstCluster (s.files i).fileSize.toNat (chain entry) := by
    rw [h.fs_eq, hfile]
    exact hsound.stored entry hentry
  have hread := fat32Read_spec (h.fs_eq ▸ hm) disk (by rw [h.fs_eq, hsound.height]; decide)
    (by rw [h.fs_eq, hsound.height]; decide) hstored hopen (by rw [hpos, hfile]; exact hle) stack hsize
  -- what is due is what the server reads
  have hdue : (s.files i).due size = min size.toNat (entry.fileSize.toNat - f.position) := by
    rw [File.due, hpos, hfile]
    rfl
  have hnext : f.next size.toNat =
      ((content disk fs (chain entry)).drop f.position).take ((s.files i).due size) := by
    have htake := OpenFile.next_take (content disk fs (chain entry)) entry.fileSize.toNat f.position size.toNat
    rw [hdue, ← htake]
    unfold OpenFile.next
    rw [hcontents]
    rfl
  have hnextlen : (f.next size.toNat).length = (s.files i).due size := by
    rw [hdue, OpenFile.length_next, hcontents, hlen]
  rw [hpos, h.fs_eq, ← hnext, ← hnextlen] at hread
  refine ⟨_, hread, entry, hentry, hcontents, ?_, ?_⟩
  · rw [hfile]
    show File.mk _ _ _ _ = File.mk _ _ _ _
    unfold OpenFile.advance
    rw [UInt32.ofNat_add]
    rfl
  · exact OpenFile.advance_le (by rw [hcontents, hlen]; exact hle) size.toNat

theorem Serving.read {s : State} {t : Table UInt8 maxFiles} (hsound : Sound disk fs table cs chain)
    (hm : Mounted fs table) (h : Serving disk fs cs chain s t) (stack : Nat → UInt8) (fd : Int)
    (nonNull : Bool) {size : UInt64} (hsize : size.toNat < 2 ^ 31) (fuel : Nat) :
    ∃ s', driverStep disk fuel s (.read stack fd nonNull size) = some ((serverRead fd nonNull size t).1, s') ∧
      Serving disk fs cs chain s' (serverRead fd nonNull size t).2 := by
  unfold serverRead
  rcases hh : handle? fd with _ | i
  · -- the number is none of a handle
    have hrefused : ∀ i, handle? fd = some i → (!(s.files i).isOpen || !nonNull) = true := by
      intro i hi
      rw [hh] at hi
      cases hi
    exact ⟨s, by simp only [driverStep, fat32Read_refused hrefused], h⟩
  obtain rfl := eq_of_handle? hh
  rcases nonNull with _ | _
  · have hrefused : ∀ j, handle? (i.val : Int) = some j → (!(s.files j).isOpen || !false) = true :=
      fun j _ => Bool.or_true _
    exact ⟨s, by simp only [driverStep, fat32Read_refused hrefused]; rfl, h⟩
  rcases hi : t i with _ | f
  · -- the handle is closed
    have hopen := h.isOpen i
    rw [hi] at hopen
    have hrefused : ∀ j, handle? (i.val : Int) = some j → (!(s.files j).isOpen || !true) = true := by
      intro j hj
      rw [hh, Option.some.injEq] at hj
      rw [← hj, hopen]
      rfl
    refine ⟨s, ?_, ?_⟩
    · simp only [driverStep, fat32Read_refused hrefused, if_true, Table.read, hi]
    · simp only [if_true, Table.read, hi]
      exact h
  · rcases h.read_open hsound hm hi stack hsize with ⟨file, hread, hshows⟩
    refine ⟨s.setFile i file, ?_, ?_⟩
    · simp only [driverStep, hread, if_true, Table.read, hi]
    · simp only [if_true, Table.read, hi]
      exact h.update i hshows

theorem Serving.write {s : State} {t : Table UInt8 maxFiles} (h : Serving disk fs cs chain s t) (fd : Int)
    (size : UInt64) : Answer.written (fat32Write fd size s) = serverWrite fd size t := by
  unfold fat32Write serverWrite
  rcases handle? fd with _ | i
  · rfl
  · simp only [h.isOpen i]

end Simulation

end CosKernel.Fat32
