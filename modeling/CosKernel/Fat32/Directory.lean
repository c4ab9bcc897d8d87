import CosKernel.Fat32.Accesses

/-!
# Directories

A directory is for its readers the list of its live entries: `fat32_open` wants
the first one of a name, `fat32_enumerate_root` all of them. `liveEntries` is this
list for one buffer, and both scanners are functions of it and of whether the
buffer has an end marker, a slot whose first byte is 0.

The buffer has `FAT32_CLUSTER_SIZE` bytes and both scanners go over all of it,
while a cluster is as large as the boot sector says. `view` is the buffer after a
cluster was read: behind a smaller cluster it is what the stack held before.
-/

namespace CosKernel.Fat32

open Bytes Heap

/-! ## One buffer -/

/-- A slot that ends the directory is among `left` slots from `off` on. -/
def Marked (buffer : Nat → UInt8) (left off : Nat) : Prop := ∃ k < left, buffer (off + 32 * k) = 0

instance (buffer : Nat → UInt8) (left off : Nat) : Decidable (Marked buffer left off) :=
  inferInstanceAs (Decidable (∃ k < left, _))

/-- The entries in use among `left` slots from `off` on, up to the slot that ends the directory. -/
def liveEntries (buffer : Nat → UInt8) : Nat → Nat → List DirEntry
  | 0, _ => []
  | left + 1, off =>
    if buffer off = 0 then []
    else if skipped (dirEntryAt buffer off) then liveEntries buffer left (off + 32)
    else dirEntryAt buffer off :: liveEntries buffer left (off + 32)

/-- How a search ends that finds this entry, in a buffer that has an end marker or not. -/
def scanEnd (marked : Bool) : Option DirEntry → Scan
  | some entry => .found entry
  | none => if marked then .lastEntry else .nextCluster

section Buffer

variable {buffer : Nat → UInt8} {left off : Nat}

theorem not_marked_zero : ¬ Marked buffer 0 off := by
  rintro ⟨k, hk, -⟩
  omega

theorem marked_succ : Marked buffer (left + 1) off ↔ buffer off = 0 ∨ Marked buffer left (off + 32) := by
  constructor
  · rintro ⟨k, hk, hzero⟩
    cases k with
    | zero => exact Or.inl hzero
    | succ k =>
      refine Or.inr ⟨k, by omega, ?_⟩
      rwa [show off + 32 + 32 * k = off + 32 * (k + 1) by omega]
  · rintro (hzero | ⟨k, hk, hzero⟩)
    · exact ⟨0, by omega, hzero⟩
    · refine ⟨k + 1, by omega, ?_⟩
      rwa [show off + 32 * (k + 1) = off + 32 + 32 * k by omega]

theorem head?_name : (dirEntryAt buffer off).name.head? = some (buffer off) := rfl

/-- `fat32_find_in_directory` looks for the first live entry of the name. -/
theorem scanBuffer_eq (filename : List UInt8) :
    scanBuffer buffer filename left off =
      scanEnd (Marked buffer left off)
        ((liveEntries buffer left off).find? fun entry => fat32CompareEntryName entry filename) := by
  induction left generalizing off with
  | zero => simp [scanBuffer, liveEntries, scanEnd, not_marked_zero]
  | succ left ih =>
    rw [scanBuffer, liveEntries]
    simp only [head?_name, Option.some.injEq, marked_succ]
    -- the three tests of the loop body, in its order
    by_cases hmark : buffer off = 0
    · simp [hmark, scanEnd]
    by_cases hskip : skipped (dirEntryAt buffer off) = true
    · simp [hmark, hskip, ih]
    by_cases hname : fat32CompareEntryName (dirEntryAt buffer off) filename = true
    · simp [hmark, hskip, hname, scanEnd]
    · simp [hmark, hskip, hname, ih]

/-- `fat32_enumerate_root` reports the live entries. -/
theorem listBuffer_eq :
    listBuffer buffer left off =
      (decide (Marked buffer left off),
        (liveEntries buffer left off).map fun entry => (fat32ExtractEntryName entry, entry.fileSize)) := by
  induction left generalizing off with
  | zero => simp [listBuffer, liveEntries, not_marked_zero]
  | succ left ih =>
    rw [listBuffer, liveEntries]
    simp only [head?_name, Option.some.injEq, marked_succ, ih]
    by_cases hmark : buffer off = 0
    · simp [hmark]
    by_cases hskip : skipped (dirEntryAt buffer off) = true
    · simp [hmark, hskip]
    · simp [hmark, hskip]

theorem listBuffer_fst_eq_false (hno : ¬ Marked buffer left off) : (listBuffer buffer left off).1 = false := by
  rw [listBuffer_eq]
  exact decide_eq_false hno

/-- A listing goes on to the next cluster only from a buffer without an end marker, -/
theorem not_marked_of_listed (h : (listBuffer buffer left off).1 = false) : ¬ Marked buffer left off := by
  rw [listBuffer_eq] at h
  exact of_decide_eq_false h

/-- and so does a search. -/
theorem not_marked_of_nextCluster {filename : List UInt8}
    (h : scanBuffer buffer filename left off = .nextCluster) : ¬ Marked buffer left off := by
  intro hmark
  rw [scanBuffer_eq] at h
  rcases hfind : (liveEntries buffer left off).find? (fun entry => fat32CompareEntryName entry filename)
    with _ | entry
  · simp [hfind, scanEnd, hmark] at h
  · simp [hfind, scanEnd] at h

end Buffer

/-- What the two scanners have in common: a cluster is looked at where a listing looks at it, and
left for the next one only if the buffer has no end marker. -/
structure Scanner (slots : (Nat → UInt8) → List Access) (stops : (Nat → UInt8) → Bool) : Prop where
  looks : ∀ buffer, ∀ a ∈ slots buffer, a ∈ listLog buffer (clusterBufferSize / 32) 0
  leaves : ∀ buffer, stops buffer = false → ¬ Marked buffer (clusterBufferSize / 32) 0

theorem scanner_find (filename : List UInt8) :
    Scanner (fun buffer => scanLog filename buffer (clusterBufferSize / 32) 0)
      (fun buffer => scanBuffer buffer filename (clusterBufferSize / 32) 0 ≠ .nextCluster) := by
  constructor
  · intro buffer a ha
    exact mem_listLog_of_scanLog ha
  · intro buffer hnext
    exact not_marked_of_nextCluster (by simpa using hnext)

theorem scanner_list :
    Scanner (fun buffer => listLog buffer (clusterBufferSize / 32) 0)
      (fun buffer => (listBuffer buffer (clusterBufferSize / 32) 0).1) := by
  constructor
  · intro buffer a ha
    exact ha
  · intro buffer hnext
    exact not_marked_of_listed hnext

/-! ## Buffers that agree where it matters -/

theorem dirEntryAt_congr {buffer buffer' : Nat → UInt8} {off : Nat} (h : Agree buffer buffer' (off, 32)) :
    dirEntryAt buffer' off = dirEntryAt buffer off := by
  have hname : ((List.range 11).map fun i => buffer' (off + i)) =
      (List.range 11).map fun i => buffer (off + i) := by
    apply List.map_congr_left
    intro i hi
    have hlt := List.mem_range.1 hi
    exact (h i (by omega)).symm
  have hattributes : buffer' (off + 11) = buffer (off + 11) := (h 11 (by omega)).symm
  have hhigh := le16_congr (h.sub (off + 20) 2 (by omega) (by omega))
  have hlow := le16_congr (h.sub (off + 26) 2 (by omega) (by omega))
  have hsize := le32_congr (h.sub (off + 28) 4 (by omega) (by omega))
  simp only [dirEntryAt, hname, hattributes, hhigh, hlow, hsize]

section Congr

variable {buffer buffer' : Nat → UInt8} {slots left off : Nat} (hle : slots ≤ left)
  (hend : slots = left ∨ Marked buffer slots off)
include hle hend

/-- The first slots decide, if an end marker is among them or there are no others. -/
theorem liveEntries_congr (hagree : Agree buffer buffer' (off, 32 * slots)) :
    liveEntries buffer' left off = liveEntries buffer left off ∧
      (Marked buffer' left off ↔ Marked buffer left off) := by
  induction slots generalizing left off with
  | zero =>
    rcases hend with rfl | hmark
    · exact ⟨rfl, iff_of_false not_marked_zero not_marked_zero⟩
    · exact absurd hmark not_marked_zero
  | succ slots ih =>
    cases left with
    | zero => omega
    | succ left =>
      -- both stop at this slot, or the end marker is still ahead of both
      have hfirst : buffer off = buffer' off := hagree 0 (by simp only; omega)
      have hentry := dirEntryAt_congr (hagree.sub off 32 le_rfl (by omega))
      rw [liveEntries, liveEntries, marked_succ, marked_succ, ← hfirst]
      by_cases hzero : buffer off = 0
      · simp [hzero]
      have hend' : slots = left ∨ Marked buffer slots (off + 32) := by
        rcases hend with heq | hmark
        · exact Or.inl (Nat.succ.inj heq)
        · exact Or.inr ((marked_succ.1 hmark).resolve_left hzero)
      rcases ih (Nat.le_of_succ_le_succ hle) hend'
        (hagree.sub (off + 32) (32 * slots) (by omega) (by omega)) with ⟨hlive, hmarked⟩
      rw [hlive, hmarked, hentry]
      exact ⟨rfl, Iff.rfl⟩

theorem scanBuffer_congr (hagree : Agree buffer buffer' (off, 32 * slots)) (filename : List UInt8) :
    scanBuffer buffer' filename left off = scanBuffer buffer filename left off := by
  rcases liveEntries_congr hle hend hagree with ⟨hlive, hmarked⟩
  simp only [scanBuffer_eq, hlive, hmarked]

theorem listBuffer_congr (hagree : Agree buffer buffer' (off, 32 * slots)) :
    listBuffer buffer' left off = listBuffer buffer left off := by
  rcases liveEntries_congr hle hend hagree with ⟨hlive, hmarked⟩
  simp only [listBuffer_eq, hlive, hmarked]

/-- Only these slots are looked at. -/
theorem listLog_within {o : Nat} (ha : .slot o ∈ listLog buffer left off) : o + 32 ≤ off + 32 * slots := by
  induction slots generalizing left off with
  | zero =>
    rcases hend with rfl | hmark
    · cases ha
    · exact absurd hmark not_marked_zero
  | succ slots ih =>
    cases left with
    | zero => omega
    | succ left =>
      rcases List.mem_cons.1 ha with heq | ha
      · cases heq
        omega
      rw [head?_name] at ha
      split at ha
      · cases ha
      rename_i hzero
      have hend' : slots = left ∨ Marked buffer slots (off + 32) := by
        rcases hend with heq | hmark
        · exact Or.inl (Nat.succ.inj heq)
        · exact Or.inr ((marked_succ.1 hmark).resolve_left fun h => hzero (congrArg some h))
      have hin := ih (Nat.le_of_succ_le_succ hle) hend' ha
      omega

end Congr

/-- A slot with no end marker before it is looked at. -/
theorem mem_listLog {buffer : Nat → UInt8} {left off k : Nat} (hk : k < left)
    (hno : ¬ Marked buffer k off) : .slot (off + 32 * k) ∈ listLog buffer left off := by
  induction k generalizing left off with
  | zero =>
    cases left with
    | zero => omega
    | succ left => exact List.mem_cons_self
  | succ k ih =>
    cases left with
    | zero => omega
    | succ left =>
      rw [marked_succ, not_or] at hno
      rw [listLog, head?_name, if_neg fun h => hno.1 (Option.some.inj h)]
      have hnext := ih (Nat.lt_of_succ_lt_succ hk) hno.2
      rw [show off + 32 + 32 * k = off + 32 * (k + 1) by omega] at hnext
      exact List.mem_cons_of_mem _ hnext

/-! ## The buffer after a cluster -/

section View

variable (disk : UInt32 → Nat → UInt8) (fs : Fs)

/-- A byte of a cluster on the disk. -/
def clusterByte (c : UInt32) (j : Nat) : UInt8 :=
  disk (fat32ClusterLba fs c + UInt32.ofNat (j / 512)) (j % 512)

/-- The buffer after a cluster was read into it: behind the cluster it holds what it held before. -/
def view (stack : Nat → UInt8) (c : UInt32) (j : Nat) : UInt8 :=
  if j < fs.clusterSize then clusterByte disk fs c j else stack j

/-- The cluster ends the directory with a slot of its own. -/
def OwnMarker (c : UInt32) : Prop := Marked (clusterByte disk fs c) (fs.clusterSize / 32) 0

instance (c : UInt32) : Decidable (OwnMarker disk fs c) :=
  inferInstanceAs (Decidable (Marked _ _ _))

variable {disk fs}

/-- Where the stack is not overwritten, one cluster after the other finds the same bytes. -/
theorem view_view (stack : Nat → UInt8) (c c' : UInt32) :
    view disk fs (view disk fs stack c) c' = view disk fs stack c' := by
  funext j
  unfold view
  by_cases hj : j < fs.clusterSize
  · rw [if_pos hj, if_pos hj]
  · rw [if_neg hj, if_neg hj, if_neg hj]

/-- The clusters of two views agree. -/
theorem agree_view (stack stack' : Nat → UInt8) (c : UInt32) {n : Nat} (hn : n ≤ fs.clusterSize) :
    Agree (view disk fs stack c) (view disk fs stack' c) (0, n) := by
  intro i hi
  have hlt : 0 + i < fs.clusterSize := by
    simp only at hi
    omega
  unfold view
  rw [if_pos hlt, if_pos hlt]

theorem marked_view (stack : Nat → UInt8) (c : UInt32) {slots : Nat} (hle : 32 * slots ≤ fs.clusterSize) :
    Marked (view disk fs stack c) slots 0 ↔ Marked (clusterByte disk fs c) slots 0 := by
  have hbyte : ∀ k < slots, view disk fs stack c (0 + 32 * k) = clusterByte disk fs c (0 + 32 * k) := by
    intro k hk
    unfold view
    rw [if_pos (by omega)]
  constructor
  · rintro ⟨k, hk, hzero⟩
    rw [hbyte k hk] at hzero
    exact ⟨k, hk, hzero⟩
  · rintro ⟨k, hk, hzero⟩
    rw [← hbyte k hk] at hzero
    exact ⟨k, hk, hzero⟩

/-- A read that succeeds is a read of the image. -/
theorem readSectorsFrom_succeeded {fails : Nat → Bool} {n : Nat} {lba : UInt32} {count i : Nat}
    {buffer : Nat → UInt8} (hok : (readSectorsFrom (faulty disk fails) n lba count i buffer).1 = true) :
    readSectorsFrom (faulty disk fails) n lba count i buffer =
      readSectorsFrom (imageAhci disk) n lba count i buffer := by
  induction count generalizing i buffer with
  | zero => rfl
  | succ count ih =>
    have hf : fails (n + i) = false := by
      have h0 := (readSectorsFrom_faulty disk fails n lba (count + 1) i buffer).1 hok 0 (by omega)
      rwa [Nat.add_zero] at h0
    have hsector : faulty disk fails (n + i) (lba + UInt32.ofNat i) = some (disk (lba + UInt32.ofNat i)) := by
      simp [faulty, hf]
    rw [readSectorsFrom, hsector] at hok ⊢
    exact ih hok

variable (disk) in
/-- Reading a cluster fails, whatever the buffer holds, or leaves its view. -/
theorem fat32ReadSectors_view (hspc : fs.sectorsPerCluster.toNat ≤ 255) (fails : Nat → Bool) (n : Nat)
    (c : UInt32) :
    (∀ buffer, (fat32ReadSectors (faulty disk fails) n (fat32ClusterLba fs c) fs.sectorsPerCluster
        buffer).1 = false) ∨
      ∀ buffer, fat32ReadSectors (faulty disk fails) n (fat32ClusterLba fs c) fs.sectorsPerCluster buffer =
        (true, view disk fs buffer c) := by
  -- which of the reads fail does not depend on the buffer
  by_cases hall : ∀ j < fs.sectorsPerCluster.toNat, fails (n + j) = false
  · right
    intro buffer
    have hok := (fat32ReadSectors_faulty disk fails n (fat32ClusterLba fs c) fs.sectorsPerCluster buffer).2 hall
    unfold fat32ReadSectors at hok ⊢
    rw [readSectorsFrom_succeeded hok]
    rcases readSectorsFrom_image disk n (fat32ClusterLba fs c) fs.sectorsPerCluster.toNat 0 buffer
      (by omega) with ⟨himage, hbuf⟩
    refine Prod.ext himage ?_
    funext j
    rw [hbuf]
    have hiff : (512 * 0 ≤ j ∧ j < 512 * (0 + fs.sectorsPerCluster.toNat)) ↔ j < fs.clusterSize := by
      unfold Fs.clusterSize
      omega
    simp only [hiff]
    rfl
  · left
    intro buffer
    have hno := mt (fat32ReadSectors_faulty disk fails n (fat32ClusterLba fs c) fs.sectorsPerCluster buffer).1 hall
    simpa using hno

variable (disk) in
/-- Without failures every read leaves the view. -/
theorem fat32ReadSectors_works (hspc : fs.sectorsPerCluster.toNat ≤ 255) (n : Nat) (c : UInt32)
    (buffer : Nat → UInt8) :
    fat32ReadSectors (faulty disk fun _ => false) n (fat32ClusterLba fs c) fs.sectorsPerCluster buffer =
      (true, view disk fs buffer c) := by
  rcases fat32ReadSectors_view disk hspc (fun _ => false) n c with hfail | hview
  · have hok := (fat32ReadSectors_faulty disk (fun _ => false) n (fat32ClusterLba fs c)
      fs.sectorsPerCluster buffer).2 fun _ _ => rfl
    rw [hfail] at hok
    cases hok
  · exact hview buffer

/-- What a successful read leaves. -/
theorem eq_view_of_read (hspc : fs.sectorsPerCluster.toNat ≤ 255) {fails : Nat → Bool} {n : Nat}
    {c : UInt32} {buffer buffer' : Nat → UInt8}
    (hread : fat32ReadSectors (faulty disk fails) n (fat32ClusterLba fs c) fs.sectorsPerCluster buffer =
      (true, buffer')) : buffer' = view disk fs buffer c := by
  rcases fat32ReadSectors_view disk hspc fails n c with hfail | hview
  · have hno := hfail buffer
    rw [hread] at hno
    cases hno
  · exact (Prod.mk.inj (hread.symm.trans (hview buffer))).2

end View

/-! ## One cluster of a scan -/

/-- How a search goes on after a cluster. -/
def findNext (scan : Scan) (rest : Option (Option DirEntry)) : Option (Option DirEntry) :=
  match scan with
  | .found entry => some (some entry)
  | .lastEntry => some none
  | .nextCluster => rest

section Turn

variable {ahci : Ahci} {fs : Fs} {fuel n : Nat} {buffer buffer' : Nat → UInt8} {c : UInt32}
  (hlinked : Linked c)
include hlinked

theorem findFrom_failed {filename : List UInt8}
    (hread : (fat32ReadSectors ahci n (fat32ClusterLba fs c) fs.sectorsPerCluster buffer).1 = false) :
    findFrom ahci fs filename (fuel + 1) n buffer c = some none := by
  rcases hr : fat32ReadSectors ahci n (fat32ClusterLba fs c) fs.sectorsPerCluster buffer with ⟨ok, buffer'⟩
  rw [hr] at hread
  cases hread
  rw [findFrom, if_pos hlinked, hr]

theorem findFrom_read {filename : List UInt8}
    (hread : fat32ReadSectors ahci n (fat32ClusterLba fs c) fs.sectorsPerCluster buffer = (true, buffer')) :
    findFrom ahci fs filename (fuel + 1) n buffer c =
      findNext (scanBuffer buffer' filename (clusterBufferSize / 32) 0)
        (findFrom ahci fs filename fuel (n + fs.sectorsPerCluster.toNat) buffer'
          (fat32FollowClusterChain fs c)) := by
  rw [findFrom, if_pos hlinked, hread]
  rfl

theorem enumerateFrom_failed {calls : List (List UInt8 × UInt32)}
    (hread : (fat32ReadSectors ahci n (fat32ClusterLba fs c) fs.sectorsPerCluster buffer).1 = false) :
    enumerateFrom ahci fs (fuel + 1) n buffer c calls = some (false, calls) := by
  rcases hr : fat32ReadSectors ahci n (fat32ClusterLba fs c) fs.sectorsPerCluster buffer with ⟨ok, buffer'⟩
  rw [hr] at hread
  cases hread
  rw [enumerateFrom, if_pos hlinked, hr]

theorem enumerateFrom_read {calls : List (List UInt8 × UInt32)}
    (hread : fat32ReadSectors ahci n (fat32ClusterLba fs c) fs.sectorsPerCluster buffer = (true, buffer')) :
    enumerateFrom ahci fs (fuel + 1) n buffer c calls =
      if Marked buffer' (clusterBufferSize / 32) 0 then
        some (true, calls ++ (listBuffer buffer' (clusterBufferSize / 32) 0).2)
      else
        enumerateFrom ahci fs fuel (n + fs.sectorsPerCluster.toNat) buffer' (fat32FollowClusterChain fs c)
          (calls ++ (listBuffer buffer' (clusterBufferSize / 32) 0).2) := by
  rw [enumerateFrom, if_pos hlinked, hread]
  simp only [listBuffer_eq, decide_eq_true_eq]

end Turn

end CosKernel.Fat32
