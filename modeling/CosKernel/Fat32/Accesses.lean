import CosKernel.Fat32.Mount

/-!
# What the driver touches

Three routines read clusters into a `cluster_buffer` of `FAT32_CLUSTER_SIZE`
bytes on their stack, and follow links through the loaded FAT. Here their loops
are written once more with a log in place of a result: where sectors are stored,
which directory slots are looked at, what is copied out, and which FAT entries are
looked up. The values that steer the loops are those of the model.

The first use is the size of the buffer. The number of sectors in a cluster is a
byte of the boot sector, and no check of the mount relates it to the buffer.
-/

namespace CosKernel.Fat32

open Bytes Heap

/-! ## The log -/

/-- An access of `cluster_buffer`, or a call of `fat32_get_fat_entry`. -/
inductive Access where
  | sector (off : Nat)
  | slot (off : Nat)
  | copy (off len : Nat)
  | lookup (cluster : UInt32)
deriving DecidableEq, Repr

/-- The sectors that `fat32_read_sectors` hands to `ahci_read_sector`, also the one that fails. -/
def sectorsLog (ahci : Ahci) (n : Nat) (lba : UInt32) : Nat → Nat → List Access
  | 0, _ => []
  | count + 1, i =>
    .sector (UInt32.ofNat i * 512).toNat ::
      if (ahci (n + i) (lba + UInt32.ofNat i)).isSome then sectorsLog ahci n lba count (i + 1) else []

/-- The slots that `fat32_find_in_directory` looks at in one cluster. -/
def scanLog (filename : List UInt8) (buffer : Nat → UInt8) : Nat → Nat → List Access
  | 0, _ => []
  | left + 1, off =>
    let entry := dirEntryAt buffer off
    .slot off ::
      if entry.name.head? = some 0 then []
      else if skipped entry then scanLog filename buffer left (off + 32)
      else if fat32CompareEntryName entry filename then []
      else scanLog filename buffer left (off + 32)

/-- The slots that `fat32_enumerate_root` looks at in one cluster. -/
def listLog (buffer : Nat → UInt8) : Nat → Nat → List Access
  | 0, _ => []
  | left + 1, off =>
    .slot off :: if (dirEntryAt buffer off).name.head? = some 0 then [] else listLog buffer left (off + 32)

/-- The loop over the clusters of a directory, for `fuel` clusters: `slots` are looked at in one of
them, and `stops` tells whether the scan ends there. -/
def directoryLog (ahci : Ahci) (fs : Fs) (slots : (Nat → UInt8) → List Access)
    (stops : (Nat → UInt8) → Bool) : Nat → Nat → (Nat → UInt8) → UInt32 → List Access
  | 0, _, _, _ => []
  | fuel + 1, n, buffer, current =>
    if Linked current then
      sectorsLog ahci n (fat32ClusterLba fs current) fs.sectorsPerCluster.toNat 0 ++
        match fat32ReadSectors ahci n (fat32ClusterLba fs current) fs.sectorsPerCluster buffer with
        | (false, _) => []
        | (true, buffer) =>
          slots buffer ++
            if stops buffer then []
            else
              .lookup current :: directoryLog ahci fs slots stops fuel (n + fs.sectorsPerCluster.toNat)
                buffer (fat32FollowClusterChain fs current)
    else []

/-- The accesses of `fat32_find_in_directory` in its first `fuel` clusters. -/
def findLog (ahci : Ahci) (stack : Nat → UInt8) (fuel : Nat) (fs : Fs) (cluster : UInt32)
    (filename : List UInt8) : List Access :=
  directoryLog ahci fs (fun buffer => scanLog filename buffer (clusterBufferSize / 32) 0)
    (fun buffer => scanBuffer buffer filename (clusterBufferSize / 32) 0 ≠ .nextCluster) fuel 0 stack cluster

/-- The accesses of `fat32_enumerate_root` in its first `fuel` clusters. -/
def enumerateLog (ahci : Ahci) (stack : Nat → UInt8) (fuel : Nat) (nonNull : Bool) (s : State) :
    List Access :=
  if !nonNull || s.fs.rootDirCluster < 2 then []
  else
    directoryLog ahci s.fs (fun buffer => listLog buffer (clusterBufferSize / 32) 0)
      (fun buffer => (listBuffer buffer (clusterBufferSize / 32) 0).1) fuel 0 stack s.fs.rootDirCluster

/-- The lookups of the loop that skips to the current position. -/
def skipLog (fs : Fs) : Nat → UInt32 → List Access
  | 0, _ => []
  | left + 1, cluster =>
    if fat32IsEoc cluster then [] else .lookup cluster :: skipLog fs left (fat32FollowClusterChain fs cluster)

/-- The accesses of the loop of `fat32_read`. -/
def readLoopLog (ahci : Ahci) (fs : Fs) (clusterSize : Nat) :
    Nat → Nat → (Nat → UInt8) → Nat → Nat → UInt32 → List Access
  | 0, _, _, _, _, _ => []
  | fuel + 1, n, buffer, count, offset, cluster =>
    if 0 < count ∧ Linked cluster then
      sectorsLog ahci n (fat32ClusterLba fs cluster) fs.sectorsPerCluster.toNat 0 ++
        match fat32ReadSectors ahci n (fat32ClusterLba fs cluster) fs.sectorsPerCluster buffer with
        | (false, _) => []
        | (true, buffer) =>
          let clusterOffset := offset % clusterSize
          let readBytes := min (clusterSize - clusterOffset) count
          .copy clusterOffset readBytes ::
            if (offset + readBytes) % clusterSize = 0 then
              .lookup cluster :: readLoopLog ahci fs clusterSize fuel (n + fs.sectorsPerCluster.toNat)
                buffer (count - readBytes) (offset + readBytes) (fat32FollowClusterChain fs cluster)
            else
              readLoopLog ahci fs clusterSize fuel (n + fs.sectorsPerCluster.toNat) buffer
                (count - readBytes) (offset + readBytes) cluster
    else []

/-- The accesses of `fat32_read`. A cluster size of 0 is a divide error before any of them. -/
def readLog (ahci : Ahci) (stack : Nat → UInt8) (fd : Int) (nonNull : Bool) (size : UInt64)
    (s : State) : List Access :=
  match handle? fd with
  | none => []
  | some i =>
    let file := s.files i
    if !file.isOpen || !nonNull then []
    else if file.fileSize ≤ file.currentPosition then []
    else if s.fs.sectorsPerCluster * 512 = 0 then []
    else
      let remaining := (file.fileSize - file.currentPosition).toNat
      let count := if remaining < size.toNat then remaining else size.toNat
      let offset := file.currentPosition.toNat
      let clusterSize := (s.fs.sectorsPerCluster * 512).toNat
      skipLog s.fs (offset / clusterSize) file.firstCluster ++
        readLoopLog ahci s.fs clusterSize count 0 stack count offset
          (skipClusters s.fs (offset / clusterSize) file.firstCluster)

/-- The accesses of one call; those of a call that never returns as far as its fuel goes. -/
def callLog (s : State) : VolumeCall → List Access
  | .openFile ahci stack fuel filename =>
    match filename with
    | none => []
    | some name =>
      match freeHandle s with
      | none => []
      | some _ => findLog ahci stack fuel s.fs s.fs.rootDirCluster name
  | .read ahci stack fd nonNull size => readLog ahci stack fd nonNull size s
  | .close _ => []
  | .enumerateRoot ahci stack fuel nonNull => enumerateLog ahci stack fuel nonNull s

section Mem

variable {ahci : Ahci} {fs : Fs} {a : Access} {fuel n : Nat} {buffer : Nat → UInt8}

/-- Reading sectors does nothing but store them. -/
theorem eq_sector_of_mem {lba : UInt32} {count i : Nat} (ha : a ∈ sectorsLog ahci n lba count i) :
    ∃ o, a = .sector o := by
  induction count generalizing i with
  | zero => cases ha
  | succ count ih =>
    rcases List.mem_cons.1 ha with rfl | ha
    · exact ⟨_, rfl⟩
    · split at ha
      · exact ih ha
      · cases ha

/-- Listing a cluster does nothing but look at its slots. -/
theorem eq_slot_of_mem {left off : Nat} (ha : a ∈ listLog buffer left off) : ∃ o, a = .slot o := by
  induction left generalizing off with
  | zero => cases ha
  | succ left ih =>
    rcases List.mem_cons.1 ha with rfl | ha
    · exact ⟨_, rfl⟩
    · split at ha
      · cases ha
      · exact ih ha

/-- One cluster of a directory. -/
theorem mem_directoryLog_succ {slots : (Nat → UInt8) → List Access} {stops : (Nat → UInt8) → Bool}
    {current : UInt32} :
    a ∈ directoryLog ahci fs slots stops (fuel + 1) n buffer current ↔
      Linked current ∧
        (a ∈ sectorsLog ahci n (fat32ClusterLba fs current) fs.sectorsPerCluster.toNat 0 ∨
          ∃ buffer', fat32ReadSectors ahci n (fat32ClusterLba fs current) fs.sectorsPerCluster buffer =
              (true, buffer') ∧
            (a ∈ slots buffer' ∨
              stops buffer' = false ∧
                (a = .lookup current ∨
                  a ∈ directoryLog ahci fs slots stops fuel (n + fs.sectorsPerCluster.toNat) buffer'
                    (fat32FollowClusterChain fs current)))) := by
  rw [directoryLog]
  by_cases hlinked : Linked current
  swap
  · simp [hlinked]
  rw [if_pos hlinked, and_iff_right hlinked, List.mem_append]
  rcases fat32ReadSectors ahci n (fat32ClusterLba fs current) fs.sectorsPerCluster buffer with ⟨_ | _, buffer'⟩
  · simp
  · rcases hstops : stops buffer' with _ | _
    · simp [hstops]
    · simp [hstops]

/-- A search looks at no slot that a listing of the cluster does not look at. -/
theorem mem_listLog_of_scanLog {filename : List UInt8} {left off : Nat}
    (ha : a ∈ scanLog filename buffer left off) : a ∈ listLog buffer left off := by
  induction left generalizing off with
  | zero => cases ha
  | succ left ih =>
    unfold scanLog at ha
    unfold listLog
    rcases List.mem_cons.1 ha with rfl | ha
    · exact List.mem_cons_self
    apply List.mem_cons_of_mem
    -- of the four outcomes of a slot two go on with the next
    split at ha
    · cases ha
    rename_i hmark
    rw [if_neg hmark]
    split at ha
    · exact ih ha
    split at ha
    · cases ha
    · exact ih ha

/-- One turn of the loop of `fat32_read`. -/
theorem mem_readLoopLog_succ {clusterSize count offset : Nat} {cluster : UInt32} :
    a ∈ readLoopLog ahci fs clusterSize (fuel + 1) n buffer count offset cluster ↔
      (0 < count ∧ Linked cluster) ∧
        (a ∈ sectorsLog ahci n (fat32ClusterLba fs cluster) fs.sectorsPerCluster.toNat 0 ∨
          ∃ buffer', fat32ReadSectors ahci n (fat32ClusterLba fs cluster) fs.sectorsPerCluster buffer =
              (true, buffer') ∧
            (a = .copy (offset % clusterSize) (min (clusterSize - offset % clusterSize) count) ∨
              (offset + min (clusterSize - offset % clusterSize) count) % clusterSize = 0 ∧
                a = .lookup cluster ∨
              a ∈ readLoopLog ahci fs clusterSize fuel (n + fs.sectorsPerCluster.toNat) buffer'
                (count - min (clusterSize - offset % clusterSize) count)
                (offset + min (clusterSize - offset % clusterSize) count)
                (if (offset + min (clusterSize - offset % clusterSize) count) % clusterSize = 0 then
                  fat32FollowClusterChain fs cluster else cluster))) := by
  rw [readLoopLog]
  by_cases hgo : 0 < count ∧ Linked cluster
  swap
  · rw [if_neg hgo]
    exact iff_of_false List.not_mem_nil fun h => hgo h.1
  rw [if_pos hgo, and_iff_right hgo, List.mem_append]
  rcases fat32ReadSectors ahci n (fat32ClusterLba fs cluster) fs.sectorsPerCluster buffer with ⟨_ | _, buffer'⟩
  · simp
  · by_cases hedge : (offset + min (clusterSize - offset % clusterSize) count) % clusterSize = 0
    · simp [hedge]
    · simp [hedge]

/-- The accesses of `fat32_read` are those of its two loops, on an open handle. -/
theorem mem_readLog {s : State} (hspc : s.fs.sectorsPerCluster.toNat ≤ 255) {stack : Nat → UInt8} {fd : Int}
    {nonNull : Bool} {size : UInt64} (ha : a ∈ readLog ahci stack fd nonNull size s) :
    ∃ i count, (s.files i).isOpen = true ∧ 0 < s.fs.clusterSize ∧
      count = (if ((s.files i).fileSize - (s.files i).currentPosition).toNat < size.toNat then
        ((s.files i).fileSize - (s.files i).currentPosition).toNat else size.toNat) ∧
      (a ∈ skipLog s.fs ((s.files i).currentPosition.toNat / s.fs.clusterSize) (s.files i).firstCluster ∨
        a ∈ readLoopLog ahci s.fs s.fs.clusterSize count 0 stack count (s.files i).currentPosition.toNat
          (skipClusters s.fs ((s.files i).currentPosition.toNat / s.fs.clusterSize)
            (s.files i).firstCluster)) := by
  unfold readLog at ha
  split at ha
  · cases ha
  rename_i i _
  simp only at ha
  split at ha
  · cases ha
  rename_i hopen
  split at ha
  · cases ha
  split at ha
  · cases ha
  rename_i hne
  rw [clusterSize_eq hspc] at ha
  refine ⟨i, _, ?_, ?_, rfl, List.mem_append.1 ha⟩
  · simp only [Bool.or_eq_true, Bool.not_eq_eq_eq_not, Bool.not_true, not_or, Bool.not_eq_false] at hopen
    exact hopen.1
  · rw [← clusterSize_eq hspc]
    exact Nat.pos_of_ne_zero fun hzero => hne (UInt32.toNat_inj.1 hzero)

end Mem

/-- The call works on this disk, where any read may fail. -/
def VolumeCall.On (disk : UInt32 → Nat → UInt8) : VolumeCall → Prop
  | .openFile ahci _ _ _ => ∃ fails, ahci = faulty disk fails
  | .read ahci _ _ _ _ => ∃ fails, ahci = faulty disk fails
  | .close _ => True
  | .enumerateRoot ahci _ _ _ => ∃ fails, ahci = faulty disk fails

/-! ## The size of the buffer -/

/-- The access is inside of `cluster_buffer`. -/
def Access.InBuffer : Access → Prop
  | .sector off => off + sectorSize ≤ clusterBufferSize
  | .slot off => off + 32 ≤ clusterBufferSize
  | .copy off len => off + len ≤ clusterBufferSize
  | .lookup _ => True

section InBuffer

variable {ahci : Ahci} {fs : Fs}

theorem sectorsLog_inBuffer (n : Nat) (lba : UInt32) {count i : Nat} (hle : i + count ≤ 8) :
    ∀ a ∈ sectorsLog ahci n lba count i, a.InBuffer := by
  induction count generalizing i with
  | zero =>
    intro a ha
    cases ha
  | succ count ih =>
    intro a ha
    rcases List.mem_cons.1 ha with rfl | ha
    · show (UInt32.ofNat i * 512).toNat + 512 ≤ 4096
      rw [sectorOffset_eq (by omega)]
      omega
    · split at ha
      · exact ih (by omega) a ha
      · cases ha

theorem listLog_inBuffer (buffer : Nat → UInt8) {left off : Nat}
    (hle : off + 32 * left ≤ clusterBufferSize) : ∀ a ∈ listLog buffer left off, a.InBuffer := by
  induction left generalizing off with
  | zero =>
    intro a ha
    cases ha
  | succ left ih =>
    intro a ha
    rcases List.mem_cons.1 ha with rfl | ha
    · show off + 32 ≤ clusterBufferSize
      omega
    split at ha
    · cases ha
    · exact ih (by omega) a ha

variable (hspc : fs.sectorsPerCluster.toNat ≤ 8)
include hspc

theorem directoryLog_inBuffer {slots : (Nat → UInt8) → List Access} {stops : (Nat → UInt8) → Bool}
    (hslots : ∀ buffer, ∀ a ∈ slots buffer, a.InBuffer) (fuel n : Nat) (buffer : Nat → UInt8)
    (current : UInt32) : ∀ a ∈ directoryLog ahci fs slots stops fuel n buffer current, a.InBuffer := by
  induction fuel generalizing n buffer current with
  | zero =>
    intro a ha
    cases ha
  | succ fuel ih =>
    intro a ha
    rcases mem_directoryLog_succ.1 ha with ⟨_, ha | ⟨buffer', _, ha | ⟨_, rfl | ha⟩⟩⟩
    · exact sectorsLog_inBuffer n _ (by omega) a ha
    · exact hslots buffer' a ha
    · trivial
    · exact ih _ _ _ a ha

omit hspc in
theorem skipLog_inBuffer (left : Nat) (cluster : UInt32) : ∀ a ∈ skipLog fs left cluster, a.InBuffer := by
  induction left generalizing cluster with
  | zero =>
    intro a ha
    cases ha
  | succ left ih =>
    intro a ha
    unfold skipLog at ha
    split at ha
    · cases ha
    rcases List.mem_cons.1 ha with rfl | ha
    · trivial
    · exact ih _ a ha

theorem readLoopLog_inBuffer (hpos : 0 < fs.clusterSize) (fuel n : Nat) (buffer : Nat → UInt8)
    (count offset : Nat) (cluster : UInt32) :
    ∀ a ∈ readLoopLog ahci fs fs.clusterSize fuel n buffer count offset cluster, a.InBuffer := by
  induction fuel generalizing n buffer count offset cluster with
  | zero =>
    intro a ha
    cases ha
  | succ fuel ih =>
    intro a ha
    rcases mem_readLoopLog_succ.1 ha with ⟨_, ha | ⟨buffer', _, rfl | ⟨_, rfl⟩ | ha⟩⟩
    · exact sectorsLog_inBuffer n _ (by omega) a ha
    · -- a copy ends with the cluster at the latest
      have hmod := Nat.mod_lt offset hpos
      have hsize : fs.clusterSize ≤ clusterBufferSize := Nat.mul_le_mul_left 512 hspc
      show offset % fs.clusterSize + min (fs.clusterSize - offset % fs.clusterSize) count ≤ clusterBufferSize
      omega
    · trivial
    · exact ih _ _ _ _ _ a ha

end InBuffer

/-- With at most 8 sectors in a cluster every call stays inside of its buffer. -/
theorem callLog_inBuffer {s : State} (hspc : s.fs.sectorsPerCluster.toNat ≤ 8) (c : VolumeCall) :
    ∀ a ∈ callLog s c, a.InBuffer := by
  intro a ha
  cases c with
  | openFile ahci stack fuel filename =>
    simp only [callLog] at ha
    split at ha
    · cases ha
    rename_i name
    split at ha
    · cases ha
    · refine directoryLog_inBuffer hspc ?_ _ _ _ _ a ha
      intro buffer a ha
      exact listLog_inBuffer buffer le_rfl a (mem_listLog_of_scanLog ha)
  | read ahci stack fd nonNull size =>
    rcases mem_readLog (Nat.le_trans hspc (by decide)) ha with ⟨i, count, _, hpos, _, ha | ha⟩
    · exact skipLog_inBuffer _ _ a ha
    · exact readLoopLog_inBuffer hspc hpos _ _ _ _ _ _ a ha
  | close fd => cases ha
  | enumerateRoot ahci stack fuel nonNull =>
    simp only [callLog, enumerateLog] at ha
    split at ha
    · cases ha
    · refine directoryLog_inBuffer hspc ?_ _ _ _ _ a ha
      intro buffer
      exact listLog_inBuffer buffer le_rfl

/-- Without a root directory and open handles nothing is touched. -/
theorem callLog_unrooted {s : State} (hroot : ¬ Linked s.fs.rootDirCluster)
    (hclosed : ∀ i, (s.files i).isOpen = false) (c : VolumeCall) : callLog s c = [] := by
  -- the loop over the clusters ends before its first turn
  have hdirectory : ∀ ahci slots stops fuel n buffer,
      directoryLog ahci s.fs slots stops fuel n buffer s.fs.rootDirCluster = [] := by
    intro ahci slots stops fuel n buffer
    cases fuel with
    | zero => rfl
    | succ fuel => rw [directoryLog, if_neg hroot]
  cases c with
  | openFile ahci stack fuel filename =>
    simp only [callLog, findLog, hdirectory]
    rcases filename with _ | name
    · rfl
    · rcases freeHandle s with _ | i
      · rfl
      · rfl
  | read ahci stack fd nonNull size =>
    simp only [callLog, readLog]
    rcases handle? fd with _ | i
    · rfl
    · simp [hclosed i]
  | close fd => rfl
  | enumerateRoot ahci stack fuel nonNull =>
    simp only [callLog, enumerateLog, hdirectory, ite_self]

/-- Every sector of a cluster is stored if no read fails. -/
theorem mem_sectorsLog (disk : UInt32 → Nat → UInt8) (n : Nat) (lba : UInt32) {count i k : Nat}
    (hk : k < count) :
    .sector (UInt32.ofNat (i + k) * 512).toNat ∈ sectorsLog (faulty disk fun _ => false) n lba count i := by
  induction count generalizing i k with
  | zero => omega
  | succ count ih =>
    have hread : (faulty disk (fun _ => false) (n + i) (lba + UInt32.ofNat i)).isSome = true := rfl
    rw [sectorsLog, if_pos hread]
    cases k with
    | zero => exact List.mem_cons_self
    | succ k =>
      have hnext := ih (i := i + 1) (Nat.lt_of_succ_lt_succ hk)
      rw [Nat.add_assoc, Nat.add_comm 1 k] at hnext
      exact List.mem_cons_of_mem _ hnext

/-- Whatever is called on a volume on this disk, the accesses of `cluster_buffer` are inside of
it. -/
def BufferSafe (disk : UInt32 → Nat → UInt8) (s : State) : Prop :=
  ∀ calls s', (∀ c ∈ calls, c.On disk) → Run.exec volumeStep s calls = some s' →
    ∀ c, c.On disk → ∀ a ∈ callLog s' c, a.InBuffer

/-- A ninth sector of the root directory is stored behind the buffer. -/
theorem not_bufferSafe {disk : UInt32 → Nat → UInt8} {s : State} (hspc : 8 < s.fs.sectorsPerCluster.toNat)
    (hroot : Linked s.fs.rootDirCluster) : ¬ BufferSafe disk s := by
  intro h
  have hcall : VolumeCall.On disk (.enumerateRoot (faulty disk fun _ => false) (fun _ => 0) 1 true) :=
    ⟨_, rfl⟩
  have hlog : .sector 4096 ∈ callLog s (.enumerateRoot (faulty disk fun _ => false) (fun _ => 0) 1 true) := by
    have hlt : ¬ s.fs.rootDirCluster < 2 := fun hlt => not_linked_of_lt hlt hroot
    simp only [callLog, enumerateLog, Bool.not_true, Bool.false_or, decide_eq_true_eq, if_neg hlt]
    refine mem_directoryLog_succ.2 ⟨hroot, Or.inl ?_⟩
    exact mem_sectorsLog disk 0 _ (i := 0) hspc
  have hin : 4096 + sectorSize ≤ clusterBufferSize := h [] s (by simp) rfl _ hcall _ hlog
  unfold sectorSize clusterBufferSize at hin
  omega

section Booted

variable {disk : UInt32 → Nat → UInt8} {fails : Nat → Bool} {stack memory : Nat → UInt8}
  {heap : HeapState} {b : BootSector}

/-- What a mount leaves in the static variables. -/
theorem booted_mounted (hok : (booted disk fails stack memory heap).1 = true)
    (hb : bootSector disk fails = some b) :
    ∃ size table, (booted disk fails stack memory heap).2.2 =
      ⟨{ geometry b.fs with fatSizeBytes := size, fatTable := table }, initialState.files⟩ := by
  rcases hcall : loadFatCall (faulty disk fails) stack initialState with _ | ⟨n, fs⟩
  · -- the mount has failed before the FAT was loaded
    rcases booted_of_no_call hcall with ⟨bpb, lba, hbooted⟩
    rw [hbooted] at hok
    cases hok
  · rcases (loadFatCall_faulty disk fails stack).1 hcall with ⟨b', hb', _, _, rfl⟩
    have heq : b' = b := Option.some.inj (hb'.symm.trans hb)
    subst heq
    rcases fat32LoadFat_fs (faulty disk fails) memory n heap (geometry b'.fs) with ⟨size, table, hfs⟩
    refine ⟨size, table, ?_⟩
    unfold booted
    rw [fat32Initialize_of_call hcall, hfs]
    rfl

variable (disk fails stack memory heap) in
/-- The number of sectors in a cluster is a byte of a boot sector. -/
theorem booted_spc_le : (booted disk fails stack memory heap).2.2.fs.sectorsPerCluster.toNat ≤ 255 := by
  rcases hcall : loadFatCall (faulty disk fails) stack initialState with _ | ⟨n, fs⟩
  · rcases booted_of_no_call hcall with ⟨bpb, lba, hbooted⟩
    rw [hbooted]
    exact Nat.zero_le 255
  · rw [booted_of_call hcall]
    rcases (loadFatCall_faulty disk fails stack).1 hcall with ⟨b', _, _, _, rfl⟩
    have hlt := b'.bpb.sectorsPerCluster.toNat_lt
    have heq : (geometry b'.fs).sectorsPerCluster.toNat = b'.bpb.sectorsPerCluster.toNat :=
      UInt8.toNat_toUInt32 _
    omega

variable (disk fails stack memory heap) in
/-- No file is open yet. -/
theorem booted_closed (i : Fin maxFiles) :
    ((booted disk fails stack memory heap).2.2.files i).isOpen = false := by
  unfold booted
  rw [fat32Initialize_locate]
  rcases locate (faulty disk fails) stack initialState with _ | ⟨n, fs⟩
  · rfl
  · rfl

/-- The calls on a mounted volume stay inside of their buffers exactly when a cluster has at most 8
sectors, or the boot sector names no root directory. -/
theorem cluster_buffer_fits_iff (hok : (booted disk fails stack memory heap).1 = true)
    (hb : bootSector disk fails = some b) :
    BufferSafe disk (booted disk fails stack memory heap).2.2 ↔
      b.bpb.sectorsPerCluster ≤ 8 ∨ ¬ Linked b.bpb.rootCluster := by
  rcases booted_mounted hok hb with ⟨size, table, hbooted⟩
  have hspc : (booted disk fails stack memory heap).2.2.fs.sectorsPerCluster.toNat =
      b.bpb.sectorsPerCluster.toNat := by
    rw [hbooted]
    exact UInt8.toNat_toUInt32 _
  have hroot : (booted disk fails stack memory heap).2.2.fs.rootDirCluster = b.bpb.rootCluster := by
    rw [hbooted]
    rfl
  have hclosed := booted_closed disk fails stack memory heap
  generalize (booted disk fails stack memory heap).2.2 = s at hspc hroot hclosed ⊢
  rw [UInt8.le_iff_toNat_le, ← hspc, ← hroot]
  constructor
  · intro hsafe
    by_contra hno
    push Not at hno
    exact not_bufferSafe hno.1 hno.2 hsafe
  · rintro (hle | hunrooted) calls s' _ hrun c _
    · -- no call changes the size of a cluster
      have hsame : s'.fs = s.fs :=
        Run.exec_preserves (fun s' => s'.fs = s.fs)
          (fun _ _ _ hfs hstep => (volumeStep_fs hstep).trans hfs) rfl hrun
      have hle' : s'.fs.sectorsPerCluster.toNat ≤ 8 := by
        rw [hsame]
        exact hle
      exact callLog_inBuffer hle' c
    · -- nothing can be opened, so no call changes anything
      have hsame : s' = s := by
        refine Run.exec_preserves (fun s' => s' = s) ?_ rfl hrun
        rintro _ c _ rfl hstep
        exact volumeStep_unrooted hunrooted hclosed hstep
      rw [hsame, callLog_unrooted hunrooted hclosed c]
      intro a ha
      cases ha

end Booted

theorem cluster_buffer_fits_tiny :
    BufferSafe tinyDisk (booted tinyDisk (fun _ => false) (fun _ => 0) (fun _ => 0) (Heap.run []).heap).2.2 := by
  have hok : (booted tinyDisk (fun _ => false) (fun _ => 0) (fun _ => 0) (Heap.run []).heap).1 = true := by
    decide +kernel
  have hboot : (bootSector tinyDisk fun _ => false).map (fun b => b.bpb.sectorsPerCluster) = some 1 := by
    decide +kernel
  rcases Option.map_eq_some_iff.1 hboot with ⟨b, hb, hone⟩
  refine (cluster_buffer_fits_iff hok hb).2 (Or.inl ?_)
  rw [hone]
  decide

/-- The volume of `tinyDisk`, but with clusters of 16 sectors. -/
def wideDisk (lba : UInt32) (j : Nat) : UInt8 := if lba = 0 ∧ j = 13 then 16 else tinyDisk lba j

theorem cluster_buffer_overrun :
    (booted wideDisk (fun _ => false) (fun _ => 0) (fun _ => 0) (Heap.run []).heap).1 = true ∧
      ¬ BufferSafe wideDisk
        (booted wideDisk (fun _ => false) (fun _ => 0) (fun _ => 0) (Heap.run []).heap).2.2 := by
  refine ⟨by decide +kernel, not_bufferSafe ?_ ?_⟩
  · decide +kernel
  · decide +kernel

end CosKernel.Fat32
