import CosKernel.Fat32.Read

/-!
# Which boot sector is mounted

`fat32_initialize` reads LBA 0 and then the partitions of the table in it, one
candidate after the other into the same `bpb`, also those that
`fat32_read_boot_sector` rejects. Over a disk image and a pattern of failing
reads the outcome has a closed form: the first accepted candidate, else the last
one that could be read. The check before `fat32_load_fat` is weaker than that of
`fat32_read_boot_sector`, so the last candidate may be mounted although it was
rejected.
-/

namespace CosKernel.Fat32

open Bytes Heap

/-! ## Disks that fail -/

/-- `ahci_read_sector` on a disk image; `fails` tells which of the reads of one call fail. -/
def faulty (disk : UInt32 → Nat → UInt8) (fails : Nat → Bool) : Ahci :=
  fun n lba => if fails n then none else some (disk lba)

section Disk

variable (disk : UInt32 → Nat → UInt8) (fails : Nat → Bool) (stack : Nat → UInt8)

theorem readSectorsFrom_faulty (n : Nat) (lba : UInt32) (count i : Nat) (buffer : Nat → UInt8) :
    (readSectorsFrom (faulty disk fails) n lba count i buffer).1 = true ↔
      ∀ j < count, fails (n + i + j) = false := by
  rw [readSectorsFrom_ok_iff]
  have hread : ∀ j, (faulty disk fails (n + (i + j)) (lba + UInt32.ofNat (i + j))).isSome = true ↔
      fails (n + i + j) = false := by
    intro j
    rw [faulty, Nat.add_assoc]
    rcases fails (n + (i + j)) with _ | _
    · simp
    · simp
  simp only [hread]

theorem fat32ReadSectors_faulty (n : Nat) (lba count : UInt32) (buffer : Nat → UInt8) :
    (fat32ReadSectors (faulty disk fails) n lba count buffer).1 = true ↔
      ∀ j < count.toNat, fails (n + j) = false :=
  readSectorsFrom_faulty disk fails n lba count.toNat 0 buffer

/-- A read of one sector. -/
theorem fat32ReadSectors_one (n : Nat) (lba : UInt32) :
    fat32ReadSectors (faulty disk fails) n lba 1 stack =
      if fails n then (false, stack) else (true, writeSector stack 0 (disk lba)) := by
  show readSectorsFrom (faulty disk fails) n lba 1 0 stack = _
  simp only [readSectorsFrom, faulty, Nat.add_zero]
  rcases fails n with _ | _
  · simp
  · simp

theorem writeSector_of_lt (sector : Nat → UInt8) {j : Nat} (hj : j < 512) :
    writeSector stack 0 sector j = sector j := by
  unfold writeSector sectorSize
  rw [if_pos (by omega), Nat.sub_zero]

theorem bpbAt_writeSector (sector : Nat → UInt8) : bpbAt (writeSector stack 0 sector) = bpbAt sector := by
  have hbytes (off len : Nat) (hle : off + len ≤ 512) :
      bytesAt (writeSector stack 0 sector) off len = bytesAt sector off len := by
    apply List.map_congr_left
    intro i hi
    exact writeSector_of_lt stack sector (by have := List.mem_range.1 hi; omega)
  simp [bpbAt, le16, le32, le, hbytes, writeSector_of_lt]

/-! ## Candidates -/

/-- The checks of `fat32_read_boot_sector`. -/
def Accepted (bpb : Bpb) : Prop :=
  bpb.bytesPerSector = 512 ∧ bpb.sectorsPerCluster ≠ 0 ∧ bpb.fatSize32 ≠ 0

/-- The check of `fat32_initialize` before it loads the FAT. -/
def Loadable (bpb : Bpb) : Prop := bpb.bytesPerSector = 512 ∧ bpb.fatSize32 ≠ 0

instance (bpb : Bpb) : Decidable (Accepted bpb) := inferInstanceAs (Decidable (_ ∧ _ ∧ _))

instance (bpb : Bpb) : Decidable (Loadable bpb) := inferInstanceAs (Decidable (_ ∧ _))

theorem fat32ReadBootSector_faulty (n : Nat) (lba : UInt32) (bpb : Bpb) :
    fat32ReadBootSector (faulty disk fails) stack n lba bpb =
      if fails n then (false, bpb) else (decide (Accepted (bpbAt (disk lba))), bpbAt (disk lba)) := by
  unfold fat32ReadBootSector
  rw [fat32ReadSectors_one]
  rcases fails n with _ | _
  · simp only [Bool.false_eq_true, if_false, bpbAt_writeSector, Prod.mk.injEq, and_true]
    rw [Bool.eq_iff_iff, decide_eq_true_eq]
    simp [Accepted, and_assoc]
  · rfl

/-- The first sectors of the FAT32 partitions among `left` entries of a partition table, from entry
`i` on. -/
def partitionsFrom (sector : Nat → UInt8) : Nat → Nat → List UInt32
  | 0, _ => []
  | left + 1, i =>
    if sector (0x1BE + i * 16 + 4) = 0x0B ∨ sector (0x1BE + i * 16 + 4) = 0x0C then
      le32 sector (0x1BE + i * 16 + 8) :: partitionsFrom sector left (i + 1)
    else partitionsFrom sector left (i + 1)

/-- The sectors that can be read, each with the number of its read, the first being number `n`. -/
def readable (n : Nat) (lbas : List UInt32) : List (UInt32 × Nat) :=
  (lbas.zipIdx n).filter fun c => !fails c.2

/-- A boot sector left in `bpb`, with the number of reads made and `partition_lba`. -/
structure BootSector where
  reads : Nat
  lba : UInt32
  bpb : Bpb

/-- The first candidate accepted, else what the last one leaves; `bpb` and `lba` stand if there is
none. -/
def survivor (n : Nat) (lbas : List UInt32) (bpb : Bpb) (lba : UInt32) : BootSector :=
  match (readable fails n lbas).find? fun c => Accepted (bpbAt (disk c.1)) with
  | some c => ⟨c.2 + 1, c.1, bpbAt (disk c.1)⟩
  | none => ⟨n + lbas.length, lba, ((readable fails n lbas).map fun c => bpbAt (disk c.1)).getLastD bpb⟩

section Survivor

variable {disk fails} {n : Nat} {c : UInt32} (lbas : List UInt32) (bpb : Bpb) (lba : UInt32)

theorem readable_failed (hf : fails n = true) : readable fails n (c :: lbas) = readable fails (n + 1) lbas := by
  simp [readable, List.zipIdx_cons, hf]

theorem readable_read (hf : fails n = false) :
    readable fails n (c :: lbas) = (c, n) :: readable fails (n + 1) lbas := by
  simp [readable, List.zipIdx_cons, hf]

theorem survivor_failed (hf : fails n = true) :
    survivor disk fails n (c :: lbas) bpb lba = survivor disk fails (n + 1) lbas bpb lba := by
  simp only [survivor, readable_failed lbas hf, List.length_cons, Nat.add_assoc, Nat.add_comm 1]

theorem survivor_accepted (hf : fails n = false) (hacc : Accepted (bpbAt (disk c))) :
    survivor disk fails n (c :: lbas) bpb lba = ⟨n + 1, c, bpbAt (disk c)⟩ := by
  simp [survivor, readable_read lbas hf, hacc]

theorem survivor_rejected (hf : fails n = false) (hacc : ¬ Accepted (bpbAt (disk c))) :
    survivor disk fails n (c :: lbas) bpb lba = survivor disk fails (n + 1) lbas (bpbAt (disk c)) lba := by
  simp only [survivor, readable_read lbas hf, List.find?_cons, hacc, decide_false, List.map_cons,
    List.getLastD_cons, List.length_cons, Nat.add_assoc, Nat.add_comm 1]

end Survivor

/-- The scan of the partition table leaves the survivor. -/
theorem scanPartitions_faulty (sector : Nat → UInt8) (left i n : Nat) (bpb : Bpb) (lba : UInt32) :
    scanPartitions (faulty disk fails) stack sector left i n bpb lba =
      ((survivor disk fails n (partitionsFrom sector left i) bpb lba).reads,
        (survivor disk fails n (partitionsFrom sector left i) bpb lba).bpb,
        (survivor disk fails n (partitionsFrom sector left i) bpb lba).lba) := by
  induction left generalizing i n bpb with
  | zero => rfl
  | succ left ih =>
    rw [scanPartitions, partitionsFrom]
    by_cases htype : sector (0x1BE + i * 16 + 4) = 0x0B ∨ sector (0x1BE + i * 16 + 4) = 0x0C
    · simp only [if_pos htype, fat32ReadBootSector_faulty]
      -- a candidate that cannot be read, one that is accepted, and one rejected but left in `bpb`
      rcases hf : fails n with _ | _
      · by_cases hacc : Accepted (bpbAt (disk (le32 sector (0x1BE + i * 16 + 8))))
        · simp only [survivor_accepted _ _ _ hf hacc, Bool.false_eq_true, if_false, hacc, decide_true, if_true]
        · simp only [survivor_rejected _ _ _ hf hacc, Bool.false_eq_true, if_false, hacc, decide_false]
          exact ih (i + 1) (n + 1) _
      · simp only [survivor_failed _ _ _ hf, if_true, Bool.false_eq_true, if_false]
        exact ih (i + 1) (n + 1) bpb
    · rw [if_neg htype, if_neg htype]
      exact ih (i + 1) n bpb

/-! ## The call of `fat32_load_fat` -/

/-- The candidates of the partition table that could be read. -/
def candidates : List (UInt32 × Nat) := readable fails 2 (partitionsFrom (disk 0) 4 0)

/-- The boot sector `fat32_initialize` is left with; `none` if it could not read the partition
table. -/
def bootSector : Option BootSector :=
  if fails 0 = false ∧ Accepted (bpbAt (disk 0)) then some ⟨1, 0, bpbAt (disk 0)⟩
  else if fails 1 then none
  else
    some (survivor disk fails 2 (partitionsFrom (disk 0) 4 0)
      (if fails 0 then bpbAt fun _ => 0 else bpbAt (disk 0)) 0)

end Disk

/-- `fat32_initialize` up to the check of what it found: the number of reads and `fat32_fs`, or
`none` after the message that there is no partition table. -/
def locate (ahci : Ahci) (stack : Nat → UInt8) (s : State) : Option (Nat × Fs) :=
  let boot := fat32ReadBootSector ahci stack 0 0 s.fs.bpb
  let fs := { s.fs with partitionLba := 0, bpb := boot.2 }
  if boot.1 then some (1, fs)
  else
    match fat32ReadSectors ahci 1 0 1 stack with
    | (false, _) => none
    | (true, sector) =>
      let scan := scanPartitions ahci stack sector 4 0 2 fs.bpb fs.partitionLba
      some (scan.1, { fs with bpb := scan.2.1, partitionLba := scan.2.2 })

/-- The assignments of `fat32_initialize` before it loads the FAT. -/
def geometry (fs : Fs) : Fs :=
  { fs with
    fatOffset := fs.partitionLba + fs.bpb.reservedSectors.toUInt32
    dataOffset := fs.partitionLba + fs.bpb.reservedSectors.toUInt32 +
      fs.bpb.numFats.toUInt32 * fs.bpb.fatSize32
    sectorsPerCluster := fs.bpb.sectorsPerCluster.toUInt32
    rootDirCluster := fs.bpb.rootCluster }

/-- The call of `fat32_load_fat` that `fat32_initialize` makes, if it makes one: the number of reads
before it, and `fat32_fs`. -/
def loadFatCall (ahci : Ahci) (stack : Nat → UInt8) (s : State) : Option (Nat × Fs) :=
  (locate ahci stack s).bind fun r => if Loadable r.2.bpb then some (r.1, geometry r.2) else none

/-- The handles after `fat32_initialize`. -/
def closedFiles (files : Fin maxFiles → File) : Fin maxFiles → File :=
  fun i => { files i with isOpen := false }

section Initialize

variable (ahci : Ahci) (stack memory : Nat → UInt8) (heap : HeapState) (s : State)

theorem mount_eq (n : Nat) (fs : Fs) :
    mount ahci memory n heap fs =
      if Loadable fs.bpb then fat32LoadFat ahci memory n heap (geometry fs) else (false, heap, fs) := by
  unfold mount
  by_cases hload : Loadable fs.bpb
  · have hno : ¬ (fs.bpb.bytesPerSector ≠ 512 ∨ fs.bpb.fatSize32 = 0) := by
      rintro (hne | hzero)
      · exact hne hload.1
      · exact hload.2 hzero
    rw [if_pos hload, if_neg hno]
    rfl
  · have hyes : fs.bpb.bytesPerSector ≠ 512 ∨ fs.bpb.fatSize32 = 0 := by
      by_contra hno
      push Not at hno
      exact hload hno
    rw [if_neg hload, if_pos hyes]

/-- After `locate` comes `mount`. -/
theorem fat32Initialize_locate :
    fat32Initialize ahci stack memory heap s =
      match locate ahci stack s with
      | some (n, fs) =>
        ((mount ahci memory n heap fs).1, (mount ahci memory n heap fs).2.1,
          ⟨(mount ahci memory n heap fs).2.2, closedFiles s.files⟩)
      | none =>
        (false, heap, ⟨{ s.fs with partitionLba := 0, bpb := (fat32ReadBootSector ahci stack 0 0 s.fs.bpb).2 },
          closedFiles s.files⟩) := by
  unfold fat32Initialize locate
  by_cases hboot : (fat32ReadBootSector ahci stack 0 0 s.fs.bpb).1 = true
  · simp only [if_pos hboot]
    rfl
  · simp only [if_neg hboot]
    rcases fat32ReadSectors ahci 1 0 1 stack with ⟨_ | _, sector⟩
    · rfl
    · rfl

variable {ahci stack memory heap s}

theorem fat32Initialize_of_call {n : Nat} {fs : Fs} (hcall : loadFatCall ahci stack s = some (n, fs)) :
    fat32Initialize ahci stack memory heap s =
      ((fat32LoadFat ahci memory n heap fs).1, (fat32LoadFat ahci memory n heap fs).2.1,
        ⟨(fat32LoadFat ahci memory n heap fs).2.2, closedFiles s.files⟩) := by
  unfold loadFatCall at hcall
  rw [Option.bind_eq_some_iff] at hcall
  rcases hcall with ⟨⟨n', fs'⟩, hlocate, hload⟩
  rw [Option.ite_none_right_eq_some] at hload
  rcases hload with ⟨hload, heq⟩
  cases heq
  simp only [fat32Initialize_locate, hlocate, mount_eq, if_pos hload]

/-- `locate` writes two fields of `fat32_fs`. -/
theorem locate_fs {n : Nat} {fs : Fs} (h : locate ahci stack s = some (n, fs)) :
    ∃ bpb lba, fs = { s.fs with bpb := bpb, partitionLba := lba } := by
  unfold locate at h
  simp only at h
  split at h
  · cases h
    exact ⟨_, _, rfl⟩
  split at h
  · cases h
  · cases h
    exact ⟨_, _, rfl⟩

/-- Where the FAT is not loaded, only `bpb`, `partition_lba` and the handles are written. -/
theorem fat32Initialize_of_no_call (hcall : loadFatCall ahci stack s = none) :
    ∃ bpb lba, fat32Initialize ahci stack memory heap s =
      (false, heap, ⟨{ s.fs with bpb := bpb, partitionLba := lba }, closedFiles s.files⟩) := by
  rw [fat32Initialize_locate]
  rcases hlocate : locate ahci stack s with _ | ⟨n, fs⟩
  · exact ⟨_, _, rfl⟩
  · have hno : ¬ Loadable fs.bpb := by
      intro hload
      simp only [loadFatCall, hlocate, Option.bind_some, if_pos hload] at hcall
      cases hcall
    rcases locate_fs hlocate with ⟨bpb, lba, hfs⟩
    simp only [mount_eq, if_neg hno]
    exact ⟨bpb, lba, by rw [hfs]⟩

end Initialize

section Located

variable (disk : UInt32 → Nat → UInt8) (fails : Nat → Bool) (stack : Nat → UInt8)

theorem partitionsFrom_writeSector (sector : Nat → UInt8) :
    partitionsFrom (writeSector stack 0 sector) 4 0 = partitionsFrom sector 4 0 := by
  simp [partitionsFrom, le32, le, writeSector_of_lt]

/-- `fat32_fs` after its boot sector was located, from the state of a machine that just started. -/
def BootSector.fs (b : BootSector) : Fs := { initialState.fs with bpb := b.bpb, partitionLba := b.lba }

/-- `fat32_initialize` is left with the boot sector that `bootSector` says. -/
theorem locate_faulty :
    locate (faulty disk fails) stack initialState = (bootSector disk fails).map fun b => (b.reads, b.fs) := by
  simp only [locate, bootSector, fat32ReadBootSector_faulty, fat32ReadSectors_one]
  rcases h0 : fails 0 with _ | _
  · by_cases hacc : Accepted (bpbAt (disk 0))
    · simp [hacc, BootSector.fs]
    · rcases h1 : fails 1 with _ | _
      · simp [hacc, BootSector.fs, scanPartitions_faulty, partitionsFrom_writeSector]
      · simp [hacc]
  · rcases h1 : fails 1 with _ | _
    · simp [BootSector.fs, scanPartitions_faulty, partitionsFrom_writeSector, initialState]
    · simp

theorem loadFatCall_faulty {n : Nat} {fs : Fs} :
    loadFatCall (faulty disk fails) stack initialState = some (n, fs) ↔
      ∃ b, bootSector disk fails = some b ∧ Loadable b.bpb ∧ n = b.reads ∧ fs = geometry b.fs := by
  unfold loadFatCall
  rw [locate_faulty]
  constructor
  · intro h
    rw [Option.bind_eq_some_iff] at h
    rcases h with ⟨r, hmap, hload⟩
    rcases Option.map_eq_some_iff.1 hmap with ⟨b, hb, rfl⟩
    rw [Option.ite_none_right_eq_some] at hload
    rcases hload with ⟨hload, heq⟩
    cases heq
    exact ⟨b, hb, hload, rfl, rfl⟩
  · rintro ⟨b, hb, hload, rfl, rfl⟩
    have hload' : Loadable b.fs.bpb := hload
    simp [hb, hload']

end Located

/-! ## Later calls -/

/-- A call of the driver after `fat32_initialize`. -/
inductive VolumeCall where
  | openFile (ahci : Ahci) (stack : Nat → UInt8) (fuel : Nat) (filename : Option (List UInt8))
  | read (ahci : Ahci) (stack : Nat → UInt8) (fd : Int) (nonNull : Bool) (size : UInt64)
  | close (fd : Int)
  | enumerateRoot (ahci : Ahci) (stack : Nat → UInt8) (fuel : Nat) (nonNull : Bool)

/-- One call; `none` if it does not return. -/
def volumeStep (s : State) : VolumeCall → Option State
  | .openFile ahci stack fuel filename => (fat32Open ahci stack fuel filename s).map Prod.snd
  | .read ahci stack fd nonNull size => some (fat32Read ahci stack fd nonNull size s).state
  | .close fd => some (fat32Close fd s)
  | .enumerateRoot ahci stack fuel nonNull => (fat32EnumerateRoot ahci stack fuel nonNull s).map fun _ => s

/-- No read can divide by zero: clusters are not empty, or no file can be opened. -/
def ReadSafe (s : State) : Prop :=
  s.fs.sectorsPerCluster * 512 ≠ 0 ∨ s.fs.rootDirCluster < 2 ∧ ∀ i, (s.files i).isOpen = false

theorem ReadSafe.readDivisor_ne {s : State} (h : ReadSafe s) (fd : Int) (nonNull : Bool) :
    readDivisor fd nonNull s ≠ some 0 := by
  unfold readDivisor
  rcases handle? fd with _ | i
  · simp
  rcases h with hpos | ⟨_, hclosed⟩
  · simp only
    split
    · simp
    split
    · simp
    · intro heq
      exact hpos (Option.some.inj heq)
  · simp [hclosed i]

/-- The loops over chains go on with this cluster. -/
abbrev Linked (c : UInt32) : Prop := 2 ≤ c ∧ ¬ fat32IsEoc c = true

theorem not_linked_of_lt {c : UInt32} (hlt : c < 2) : ¬ Linked c := by
  rintro ⟨hle, -⟩
  rw [UInt32.le_iff_toNat_le] at hle
  rw [UInt32.lt_iff_toNat_lt] at hlt
  omega

/-- A chain that has ended is not searched. -/
theorem findFrom_ended (ahci : Ahci) (fs : Fs) (filename : List UInt8) {fuel n : Nat}
    {buffer : Nat → UInt8} {current : UInt32} (hend : ¬ Linked current) :
    findFrom ahci fs filename fuel n buffer current = some none := by
  cases fuel with
  | zero => rw [findFrom, if_neg hend]
  | succ fuel => rw [findFrom, if_neg hend]

theorem enumerateFrom_ended (ahci : Ahci) (fs : Fs) {fuel n : Nat} {buffer : Nat → UInt8}
    {current : UInt32} (hend : ¬ Linked current) (calls : List (List UInt8 × UInt32)) :
    enumerateFrom ahci fs fuel n buffer current calls = some (true, calls) := by
  cases fuel with
  | zero => rw [enumerateFrom, if_neg hend]
  | succ fuel => rw [enumerateFrom, if_neg hend]

/-- Without a root directory nothing is opened. -/
theorem fat32Open_unrooted {s : State} (hroot : ¬ Linked s.fs.rootDirCluster) (ahci : Ahci)
    (stack : Nat → UInt8) (fuel : Nat) (filename : Option (List UInt8)) :
    fat32Open ahci stack fuel filename s = some (-1, s) := by
  unfold fat32Open fat32FindInDirectory
  rcases filename with _ | name
  · rfl
  rcases freeHandle s with _ | i
  · rfl
  · simp only [findFrom_ended ahci s.fs name hroot]

theorem fat32Read_fs (ahci : Ahci) (stack : Nat → UInt8) (fd : Int) (nonNull : Bool) (size : UInt64)
    (s : State) : (fat32Read ahci stack fd nonNull size s).state.fs = s.fs := by
  rcases fat32Read_state ahci stack fd nonNull size s with hsame | ⟨i, p, -, -, -, -, hstate⟩
  · rw [hsame]
  · rw [hstate]
    rfl

theorem fat32Read_closed (ahci : Ahci) (stack : Nat → UInt8) (fd : Int) (nonNull : Bool) (size : UInt64)
    {s : State} (hclosed : ∀ i, (s.files i).isOpen = false) :
    (fat32Read ahci stack fd nonNull size s).state = s := by
  rw [fat32Read_refused fun i _ => by simp [hclosed i]]

theorem fat32Close_closed (fd : Int) {s : State} (hclosed : ∀ i, (s.files i).isOpen = false) :
    fat32Close fd s = s := by
  unfold fat32Close
  rcases handle? fd with _ | i
  · rfl
  · have hfile : ({ s.files i with isOpen := false } : File) = s.files i := by
      rw [← hclosed i]
    simp only [hfile]
    exact s.setFile_self i

/-- The handles are closed and none can be opened: no call changes anything. -/
theorem volumeStep_unrooted {s s' : State} {c : VolumeCall} (hroot : ¬ Linked s.fs.rootDirCluster)
    (hclosed : ∀ i, (s.files i).isOpen = false) (hstep : volumeStep s c = some s') : s' = s := by
  cases c with
  | openFile ahci stack fuel filename =>
    rcases Option.map_eq_some_iff.1 hstep with ⟨⟨ret, s''⟩, hopen, rfl⟩
    rw [fat32Open_unrooted hroot] at hopen
    cases hopen
    rfl
  | read ahci stack fd nonNull size =>
    cases hstep
    exact fat32Read_closed ahci stack fd nonNull size hclosed
  | close fd =>
    cases hstep
    exact fat32Close_closed fd hclosed
  | enumerateRoot ahci stack fuel nonNull =>
    rcases Option.map_eq_some_iff.1 hstep with ⟨_, _, rfl⟩
    rfl

/-- No call changes `fat32_fs`. -/
theorem volumeStep_fs {s s' : State} {c : VolumeCall} (hstep : volumeStep s c = some s') : s'.fs = s.fs := by
  cases c with
  | openFile ahci stack fuel filename =>
    rcases Option.map_eq_some_iff.1 hstep with ⟨⟨ret, s''⟩, hopen, rfl⟩
    exact (fat32Open_frame hopen).1
  | read ahci stack fd nonNull size =>
    cases hstep
    exact fat32Read_fs ahci stack fd nonNull size s
  | close fd =>
    cases hstep
    unfold fat32Close
    rcases handle? fd with _ | i
    · rfl
    · rfl
  | enumerateRoot ahci stack fuel nonNull =>
    rcases Option.map_eq_some_iff.1 hstep with ⟨_, _, rfl⟩
    rfl

theorem volumeStep_readSafe (s : State) (c : VolumeCall) (s' : State) (h : ReadSafe s)
    (hstep : volumeStep s c = some s') : ReadSafe s' := by
  rcases h with hpos | ⟨hroot, hclosed⟩
  · left
    rw [volumeStep_fs hstep]
    exact hpos
  · rw [volumeStep_unrooted (not_linked_of_lt hroot) hclosed hstep]
    exact Or.inr ⟨hroot, hclosed⟩

/-! ## Validation -/

/-- `fat32_load_fat` writes the last two fields of `fat32_fs`. -/
theorem fat32LoadFat_fs (ahci : Ahci) (memory : Nat → UInt8) (n : Nat) (heap : HeapState) (fs : Fs) :
    ∃ size table, (fat32LoadFat ahci memory n heap fs).2.2 =
      { fs with fatSizeBytes := size, fatTable := table } := by
  unfold fat32LoadFat
  simp only
  rcases kmalloc (fs.bpb.fatSize32.toUInt64 * 512).toNat "fat32" heap with ⟨_ | addr, heap'⟩
  · exact ⟨_, _, rfl⟩
  · simp only
    rcases fat32ReadSectors ahci n fs.fatOffset fs.bpb.fatSize32 memory with ⟨_ | _, table⟩
    · exact ⟨_, _, rfl⟩
    · exact ⟨_, _, rfl⟩

theorem spc_ne_zero {x : UInt8} (hx : x ≠ 0) : x.toUInt32 ≠ 0 ∧ x.toUInt32 * 512 ≠ 0 := by
  have hpos : x.toNat ≠ 0 := fun h => hx (UInt8.toNat_inj.1 h)
  have hlt := x.toNat_lt
  have h512 : (512 : UInt32).toNat = 512 := rfl
  constructor
  · intro h
    have := congrArg UInt32.toNat h
    rw [UInt8.toNat_toUInt32] at this
    exact hpos this
  · intro h
    have := congrArg UInt32.toNat h
    rw [UInt32.toNat_mul, UInt8.toNat_toUInt32, h512, Nat.mod_eq_of_lt (by omega)] at this
    have hzero : (0 : UInt32).toNat = 0 := rfl
    omega

section Validated

variable (disk : UInt32 → Nat → UInt8) (fails : Nat → Bool) (stack memory : Nat → UInt8)
  (heap : HeapState)

/-- `fat32_initialize` on a machine that just started. -/
def booted : Bool × HeapState × State :=
  fat32Initialize (faulty disk fails) stack memory heap initialState

/-- Only a validated boot sector is mounted, and nothing divides by zero. -/
structure ValidatedMount : Prop where
  loaded : ∀ n fs, loadFatCall (faulty disk fails) stack initialState = some (n, fs) →
    fs.bpb = bpbAt (disk fs.partitionLba) ∧ Accepted fs.bpb
  logged : (booted disk fails stack memory heap).1 = true →
    loggedClusters (booted disk fails stack memory heap).2.2.fs ≠ none
  reads : ∀ calls s, Run.exec volumeStep (booted disk fails stack memory heap).2.2 calls = some s →
    ∀ fd nonNull, readDivisor fd nonNull s ≠ some 0

/-- What the last candidate that could be read leaves in `bpb`, if all are tried. -/
def lastRead : Bpb :=
  ((candidates disk fails).map fun c => bpbAt (disk c.1)).getLastD
    (if fails 0 then bpbAt fun _ => 0 else bpbAt (disk 0))

/-- Some candidate is accepted, or the scan ends in an error message: the partition table cannot be
read, or the last candidate does not even pass the weaker check. -/
def SourceChecked : Prop :=
  fails 1 = true ∨ fails 0 = false ∧ Accepted (bpbAt (disk 0)) ∨
    (∃ c ∈ candidates disk fails, Accepted (bpbAt (disk c.1))) ∨ ¬ Loadable (lastRead disk fails)

variable {disk fails}

/-- The boot sector found is an accepted one, or none was. -/
theorem bootSector_cases {b : BootSector} (h : bootSector disk fails = some b) :
    b.bpb = bpbAt (disk b.lba) ∧ Accepted b.bpb ∨
      fails 1 = false ∧ ¬ (fails 0 = false ∧ Accepted (bpbAt (disk 0))) ∧
        (∀ c ∈ candidates disk fails, ¬ Accepted (bpbAt (disk c.1))) ∧ b.bpb = lastRead disk fails := by
  unfold bootSector at h
  split at h
  · rename_i hacc
    cases h
    exact Or.inl ⟨rfl, hacc.2⟩
  rename_i hzero
  split at h
  · cases h
  rename_i htable
  cases h
  unfold survivor
  rcases hfind : (readable fails 2 (partitionsFrom (disk 0) 4 0)).find?
      (fun c => decide (Accepted (bpbAt (disk c.1)))) with _ | c
  · right
    simp only [hfind]
    refine ⟨by simpa using htable, hzero, ?_, rfl⟩
    intro c hc
    have := List.find?_eq_none.1 hfind c hc
    simpa using this
  · left
    have hacc := List.find?_some hfind
    simp only [hfind]
    exact ⟨trivial, of_decide_eq_true hacc⟩

/-- Without an accepted candidate the last one read is left. -/
theorem bootSector_last (htable : fails 1 = false)
    (hzero : ¬ (fails 0 = false ∧ Accepted (bpbAt (disk 0))))
    (hnone : ∀ c ∈ candidates disk fails, ¬ Accepted (bpbAt (disk c.1))) :
    ∃ b, bootSector disk fails = some b ∧ b.bpb = lastRead disk fails := by
  have hfind : (readable fails 2 (partitionsFrom (disk 0) 4 0)).find?
      (fun c => decide (Accepted (bpbAt (disk c.1)))) = none := by
    rw [List.find?_eq_none]
    intro c hc
    simpa using hnone c hc
  unfold bootSector
  rw [if_neg hzero, if_neg (by simp [htable])]
  refine ⟨_, rfl, ?_⟩
  unfold survivor
  rw [hfind]
  rfl

/-- What is left without an accepted candidate is not acceptable. -/
theorem lastRead_rejected (hzero : ¬ (fails 0 = false ∧ Accepted (bpbAt (disk 0))))
    (hnone : ∀ c ∈ candidates disk fails, ¬ Accepted (bpbAt (disk c.1))) :
    ¬ Accepted (lastRead disk fails) := by
  have hmem : lastRead disk fails ∈ (if fails 0 then bpbAt fun _ => 0 else bpbAt (disk 0)) ::
      (candidates disk fails).map fun c => bpbAt (disk c.1) := List.getLastD_mem_cons
  rcases List.mem_cons.1 hmem with heq | hcand
  · rw [heq]
    split
    · decide
    · rename_i h0
      intro hacc
      exact hzero ⟨by simpa using h0, hacc⟩
  · rcases List.mem_map.1 hcand with ⟨c, hc, heq⟩
    rw [← heq]
    exact hnone c hc

/-- The boot sectors that get as far as the FAT are the accepted ones. -/
theorem sourceChecked_iff :
    SourceChecked disk fails ↔
      ∀ b, bootSector disk fails = some b → Loadable b.bpb → b.bpb = bpbAt (disk b.lba) ∧ Accepted b.bpb := by
  constructor
  · intro hchecked b hb hload
    rcases bootSector_cases hb with hacc | ⟨htable, hzero, hnone, hlast⟩
    · exact hacc
    · rcases hchecked with h1 | h0 | ⟨c, hc, hacc⟩ | hno
      · rw [htable] at h1
        cases h1
      · exact absurd h0 hzero
      · exact absurd hacc (hnone c hc)
      · rw [hlast] at hload
        exact absurd hload hno
  · intro h
    by_contra hno
    simp only [SourceChecked, not_or, not_exists, not_and, not_not, Bool.not_eq_true] at hno
    rcases hno with ⟨htable, hzero, hnone, hload⟩
    have hzero' : ¬ (fails 0 = false ∧ Accepted (bpbAt (disk 0))) := fun hacc => hzero hacc.1 hacc.2
    rcases bootSector_last htable hzero' hnone with ⟨b, hb, hlast⟩
    have hacc := (h b hb (hlast ▸ hload)).2
    rw [hlast] at hacc
    exact lastRead_rejected hzero' hnone hacc

variable {stack memory heap}

theorem booted_of_call {n : Nat} {fs : Fs}
    (hcall : loadFatCall (faulty disk fails) stack initialState = some (n, fs)) :
    (booted disk fails stack memory heap).2.2.fs.sectorsPerCluster = fs.sectorsPerCluster := by
  unfold booted
  rw [fat32Initialize_of_call hcall]
  rcases fat32LoadFat_fs (faulty disk fails) memory n heap fs with ⟨size, table, hfs⟩
  simp only [hfs]

theorem booted_of_no_call (hcall : loadFatCall (faulty disk fails) stack initialState = none) :
    ∃ bpb lba, booted disk fails stack memory heap =
      (false, heap, ⟨{ initialState.fs with bpb := bpb, partitionLba := lba }, initialState.files⟩) :=
  fat32Initialize_of_no_call hcall

variable (disk fails stack memory heap)

/-- Exactly the disks on which the last candidate is not rejected for its cluster size alone are
mounted from a validated boot sector, and never make the driver divide by zero. -/
theorem mount_validated_iff :
    ValidatedMount disk fails stack memory heap ↔ SourceChecked disk fails := by
  rw [sourceChecked_iff]
  constructor
  · intro h b hb hload
    exact h.loaded b.reads (geometry b.fs)
      ((loadFatCall_faulty disk fails stack).2 ⟨b, hb, hload, rfl, rfl⟩)
  · intro h
    have hspc : ∀ n fs, loadFatCall (faulty disk fails) stack initialState = some (n, fs) →
        (booted disk fails stack memory heap).2.2.fs.sectorsPerCluster ≠ 0 ∧
          (booted disk fails stack memory heap).2.2.fs.sectorsPerCluster * 512 ≠ 0 := by
      intro n fs hcall
      rw [booted_of_call hcall]
      rcases (loadFatCall_faulty disk fails stack).1 hcall with ⟨b, hb, hload, rfl, rfl⟩
      exact spc_ne_zero (h b hb hload).2.2.1
    refine ⟨?_, ?_, ?_⟩
    · intro n fs hcall
      rcases (loadFatCall_faulty disk fails stack).1 hcall with ⟨b, hb, hload, rfl, rfl⟩
      exact h b hb hload
    · intro hok
      rcases hcall : loadFatCall (faulty disk fails) stack initialState with _ | ⟨n, fs⟩
      · rcases booted_of_no_call hcall with ⟨bpb, lba, hbooted⟩
        rw [hbooted] at hok
        cases hok
      · simp [loggedClusters, (hspc n fs hcall).1]
    · intro calls s hrun
      have hsafe : ReadSafe (booted disk fails stack memory heap).2.2 := by
        rcases hcall : loadFatCall (faulty disk fails) stack initialState with _ | ⟨n, fs⟩
        · rcases booted_of_no_call hcall with ⟨bpb, lba, hbooted⟩
          rw [hbooted]
          have hroot : initialState.fs.rootDirCluster < 2 := by decide
          exact Or.inr ⟨hroot, fun _ => rfl⟩
        · exact Or.inl (hspc n fs hcall).2
      exact (Run.exec_preserves ReadSafe volumeStep_readSafe hsafe hrun).readDivisor_ne

end Validated

/-- A boot sector of 512 bytes per sector and a FAT of one sector, with no sectors in a cluster. -/
def unclusteredDisk (_ : UInt32) (j : Nat) : UInt8 := if j = 12 then 2 else if j = 36 then 1 else 0

theorem mount_not_validated :
    ¬ ValidatedMount unclusteredDisk (fun _ => false) (fun _ => 0) (fun _ => 0) (Heap.run []).heap := by
  intro h
  -- the volume is mounted, and the message about it divides by zero
  apply h.logged
  · decide +kernel
  · decide +kernel

end CosKernel.Fat32
