import CosKernel.Fat32.Mount

/-!
# What a failed mount leaves behind

`fat32_initialize` gives up in several places. Before `fat32_load_fat` nothing is
left but the bytes in `bpb`. When `kmalloc` refuses the block for the FAT, the root
directory is set already, and the later calls are guarded by nothing else. When
a sector of the FAT cannot be read, the block is neither freed nor forgotten.
-/

namespace CosKernel.Fat32

open Heap

/-! ## The failure points of `fat32_load_fat` -/

/-- The bytes `fat32_load_fat` asks for. -/
def fatBytes (bpb : Bpb) : Nat := (bpb.fatSize32.toUInt64 * 512).toNat

/-- The heap has a block for the FAT. -/
def fatFits (bpb : Bpb) (heap : HeapState) : Bool := (kmalloc (fatBytes bpb) "fat32" heap).1.isSome

section LoadFat

variable (ahci : Ahci) (memory : Nat → UInt8) (n : Nat) {heap : HeapState} {fs : Fs}

theorem fat32LoadFat_refused (hfits : fatFits fs.bpb heap = false) :
    fat32LoadFat ahci memory n heap fs = (false, heap, { fs with fatTable := none }) := by
  have hnone : (kmalloc (fatBytes fs.bpb) "fat32" heap).1 = none := by
    simpa [fatFits] using hfits
  have hk := kmalloc_none hnone
  unfold fatBytes at hk
  simp only [fat32LoadFat, hk]

/-- With a block, the reads decide; the table stays in either case. -/
theorem fat32LoadFat_granted (hfits : fatFits fs.bpb heap = true) :
    (fat32LoadFat ahci memory n heap fs).1 =
        (fat32ReadSectors ahci n fs.fatOffset fs.bpb.fatSize32 memory).1 ∧
      (fat32LoadFat ahci memory n heap fs).2.2.fatTable ≠ none := by
  rcases Option.isSome_iff_exists.1 hfits with ⟨addr, haddr⟩
  unfold fat32LoadFat
  simp only
  rcases hk : kmalloc (fs.bpb.fatSize32.toUInt64 * 512).toNat "fat32" heap with ⟨_ | addr', heap'⟩
  · unfold fatBytes at haddr
    rw [hk] at haddr
    cases haddr
  · simp only
    rcases fat32ReadSectors ahci n fs.fatOffset fs.bpb.fatSize32 memory with ⟨_ | _, table⟩
    · exact ⟨rfl, Option.some_ne_none table⟩
    · exact ⟨rfl, Option.some_ne_none table⟩

end LoadFat

/-! ## Listing a directory without a FAT -/

/-- Without a FAT every cluster is the last of its chain. -/
theorem fat32FollowClusterChain_none {fs : Fs} (htable : fs.fatTable = none) (cluster : UInt32) :
    fat32FollowClusterChain fs cluster = 0 := by
  unfold fat32FollowClusterChain fat32GetFatEntry
  rw [htable]
  rfl

/-- Without a FAT the first cluster of a root directory is listed, with success if the disk works. -/
theorem fat32EnumerateRoot_rooted (disk : UInt32 → Nat → UInt8) (stack : Nat → UInt8) {s : State}
    (htable : s.fs.fatTable = none) (hroot : ¬ s.fs.rootDirCluster < 2) (fuel : Nat) :
    (fat32EnumerateRoot (faulty disk fun _ => false) stack (fuel + 1) true s).map Prod.fst = some true := by
  unfold fat32EnumerateRoot
  rw [if_neg (by simpa using hroot)]
  by_cases hcurrent : Linked s.fs.rootDirCluster
  · rw [enumerateFrom, if_pos hcurrent]
    have hread := (fat32ReadSectors_faulty disk (fun _ => false) 0
      (fat32ClusterLba s.fs s.fs.rootDirCluster) s.fs.sectorsPerCluster stack).2 (fun _ _ => rfl)
    rcases hbuf : fat32ReadSectors (faulty disk fun _ => false) 0
        (fat32ClusterLba s.fs s.fs.rootDirCluster) s.fs.sectorsPerCluster stack with ⟨ok, buffer⟩
    rw [hbuf] at hread
    cases hread
    simp only
    split
    · rfl
    · -- the chain ends here, as there is no table to follow it
      rw [fat32FollowClusterChain_none htable, enumerateFrom_ended _ _ (by decide)]
      rfl
  · rw [enumerateFrom_ended _ _ hcurrent]
    rfl

theorem fat32EnumerateRoot_unrooted {s : State} (hroot : s.fs.rootDirCluster < 2) (ahci : Ahci)
    (stack : Nat → UInt8) (fuel : Nat) (nonNull : Bool) :
    fat32EnumerateRoot ahci stack fuel nonNull s = some (false, []) := by
  unfold fat32EnumerateRoot
  rw [if_pos (by simp [hroot])]

/-! ## Failed mounts -/

/-- A call that takes fuel returns `a`. -/
def Returns {α : Type} (call : Nat → Option α) (a : α) : Prop :=
  ∃ bound, ∀ fuel, bound ≤ fuel → call fuel = some a

/-- Nothing is mounted: there is no FAT, no block for one, and the driver finds no file, whatever the
disk does from now on. -/
structure NothingMounted (disk : UInt32 → Nat → UInt8) (heap heap' : HeapState) (s : State) : Prop where
  table : s.fs.fatTable = none
  heap_eq : heap' = heap
  opens : ∀ fails stack filename,
    Returns (fun fuel => (fat32Open (faulty disk fails) stack fuel filename s).map Prod.fst) (-1)
  lists : ∀ fails stack nonNull,
    Returns (fun fuel => (fat32EnumerateRoot (faulty disk fails) stack fuel nonNull s).map Prod.fst) false

theorem nothingMounted_of_unrooted {disk : UInt32 → Nat → UInt8} {heap : HeapState} {s : State}
    (htable : s.fs.fatTable = none) (hroot : s.fs.rootDirCluster < 2) : NothingMounted disk heap heap s := by
  refine ⟨htable, rfl, ?_, ?_⟩
  · intro fails stack filename
    refine ⟨0, ?_⟩
    intro fuel _
    show (fat32Open (faulty disk fails) stack fuel filename s).map Prod.fst = some (-1)
    rw [fat32Open_unrooted (not_linked_of_lt hroot)]
    rfl
  · intro fails stack nonNull
    refine ⟨0, ?_⟩
    intro fuel _
    show (fat32EnumerateRoot (faulty disk fails) stack fuel nonNull s).map Prod.fst = some false
    rw [fat32EnumerateRoot_unrooted hroot]
    rfl

theorem NothingMounted.unrooted {disk : UInt32 → Nat → UInt8} {heap heap' : HeapState} {s : State}
    (h : NothingMounted disk heap heap' s) : s.fs.rootDirCluster < 2 := by
  by_contra hroot
  rcases h.lists (fun _ => false) (fun _ => 0) true with ⟨bound, hfalse⟩
  have htrue := fat32EnumerateRoot_rooted disk (fun _ => 0) h.table hroot bound
  have heq := htrue.symm.trans (hfalse (bound + 1) (Nat.le_succ bound))
  cases heq

section Failed

variable (disk : UInt32 → Nat → UInt8) (fails : Nat → Bool) (stack memory : Nat → UInt8)
  (heap : HeapState)

/-- A mount that does not complete leaves nothing behind, after whatever calls follow. -/
def CleanFailure : Prop :=
  (booted disk fails stack memory heap).1 = false →
    ∀ calls s, Run.exec volumeStep (booted disk fails stack memory heap).2.2 calls = some s →
      NothingMounted disk heap (booted disk fails stack memory heap).2.1 s

/-- The FAT of the boot sector found can be loaded, or the heap has no block for it and the boot
sector has no root directory. -/
def LoadsOrUnrooted : Prop :=
  ∀ b, bootSector disk fails = some b → Loadable b.bpb →
    if fatFits b.bpb heap then ∀ i < b.bpb.fatSize32.toNat, fails (b.reads + i) = false
    else b.bpb.rootCluster < 2

variable {disk fails heap}

/-- The heap has no block for the FAT of the boot sector found. -/
theorem booted_refused {b : BootSector} (hb : bootSector disk fails = some b) (hload : Loadable b.bpb)
    (hfits : fatFits b.bpb heap = false) :
    booted disk fails stack memory heap =
      (false, heap, ⟨{ geometry b.fs with fatTable := none }, initialState.files⟩) := by
  have hcall := (loadFatCall_faulty disk fails stack).2 ⟨b, hb, hload, rfl, rfl⟩
  have hfits' : fatFits (geometry b.fs).bpb heap = false := hfits
  have hrefused := fat32LoadFat_refused (faulty disk fails) memory b.reads hfits'
  unfold booted
  rw [fat32Initialize_of_call hcall, hrefused]
  rfl

/-- The heap has a block: the mount completes if all of the FAT can be read, and a table is left in
any case. -/
theorem booted_granted {b : BootSector} (hb : bootSector disk fails = some b) (hload : Loadable b.bpb)
    (hfits : fatFits b.bpb heap = true) :
    ((booted disk fails stack memory heap).1 = true ↔
        ∀ i < b.bpb.fatSize32.toNat, fails (b.reads + i) = false) ∧
      (booted disk fails stack memory heap).2.2.fs.fatTable ≠ none := by
  have hcall := (loadFatCall_faulty disk fails stack).2 ⟨b, hb, hload, rfl, rfl⟩
  have hfits' : fatFits (geometry b.fs).bpb heap = true := hfits
  rcases fat32LoadFat_granted (faulty disk fails) memory b.reads hfits' with ⟨hok, htable⟩
  unfold booted
  rw [fat32Initialize_of_call hcall]
  refine ⟨?_, htable⟩
  show (fat32LoadFat (faulty disk fails) memory b.reads heap (geometry b.fs)).1 = true ↔ _
  rw [hok]
  exact fat32ReadSectors_faulty disk fails b.reads (geometry b.fs).fatOffset b.bpb.fatSize32 memory

variable {stack memory}

/-- Without a root directory a failed mount stays as it is. -/
theorem cleanFailure_of_unrooted {fs : Fs}
    (hbooted : booted disk fails stack memory heap = (false, heap, ⟨fs, initialState.files⟩))
    (htable : fs.fatTable = none) (hroot : fs.rootDirCluster < 2) :
    CleanFailure disk fails stack memory heap := by
  unfold CleanFailure
  rw [hbooted]
  intro _ calls s hrun
  have hsame : s = ⟨fs, initialState.files⟩ := by
    refine Run.exec_preserves (fun s => s = ⟨fs, initialState.files⟩) ?_ rfl hrun
    rintro s₁ c s₂ rfl hstep
    exact volumeStep_unrooted (not_linked_of_lt hroot) (fun _ => rfl) hstep
  rw [hsame]
  exact nothingMounted_of_unrooted htable hroot

variable (disk fails stack memory heap)

/-- A failed mount is clean exactly when it fails before the FAT, or for want of memory with a boot
sector that names no root directory. -/
theorem failed_mount_clean_iff :
    CleanFailure disk fails stack memory heap ↔ LoadsOrUnrooted disk fails heap := by
  constructor
  · intro h b hb hload
    split
    · -- a table that was not read completely stays
      rename_i hfits
      rcases booted_granted stack memory hb hload hfits with ⟨hok, htable⟩
      rw [← hok]
      by_contra hfailed
      exact htable (h (Bool.eq_false_iff.2 hfailed) [] _ rfl).table
    · -- the root directory of a boot sector without a table can be listed
      rename_i hfits
      have hbooted := booted_refused stack memory hb hload (Bool.eq_false_iff.2 hfits)
      unfold CleanFailure at h
      rw [hbooted] at h
      exact (h rfl [] _ rfl).unrooted
  · intro h
    rcases hcall : loadFatCall (faulty disk fails) stack initialState with _ | ⟨n, fs⟩
    · rcases booted_of_no_call hcall with ⟨bpb, lba, hbooted⟩
      have hroot : initialState.fs.rootDirCluster < 2 := by decide
      exact cleanFailure_of_unrooted hbooted rfl hroot
    · rcases (loadFatCall_faulty disk fails stack).1 hcall with ⟨b, hb, hload, _, _⟩
      have hgood := h b hb hload
      split at hgood
      · -- the FAT is loaded: there is no failure
        rename_i hfits
        intro hfailed
        rw [(booted_granted stack memory hb hload hfits).1.2 hgood] at hfailed
        cases hfailed
      · rename_i hfits
        exact cleanFailure_of_unrooted (booted_refused stack memory hb hload (Bool.eq_false_iff.2 hfits)) rfl hgood

end Failed

/-- The second sector read, the first of the FAT of the volume, fails. -/
def secondReadFails (n : Nat) : Bool := n == 1

theorem failed_mount_leaks :
    ¬ CleanFailure tinyDisk secondReadFails (fun _ => 0) (fun _ => 0) (Heap.run []).heap := by
  intro h
  have hfailed : (booted tinyDisk secondReadFails (fun _ => 0) (fun _ => 0) (Heap.run []).heap).1 = false := by
    decide +kernel
  have hstays : (booted tinyDisk secondReadFails (fun _ => 0) (fun _ => 0)
      (Heap.run []).heap).2.2.fs.fatTable.isSome = true := by
    decide +kernel
  rw [(h hfailed [] _ rfl).table] at hstays
  cases hstays

end CosKernel.Fat32
