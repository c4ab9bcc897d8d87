import CosKernel.Fat32.Model
import CosKernel.Heap.Refinement

/-!
# Cluster chains

What a volume stores for a file: the chain of clusters that the loaded FAT
links, and the bytes of these clusters on the disk. A mounted volume has its FAT
in a heap block, so every cluster inside the FAT has a small number and the
driver's 32-bit arithmetic on it is exact.
-/

namespace CosKernel.Fat32

open Bytes Heap

/-! ## Mounted volumes -/

/-- The FAT is loaded, into a block the heap could provide. -/
structure Mounted (fs : Fs) (table : Nat → UInt8) : Prop where
  table : fs.fatTable = some table
  size_le : fs.fatSizeBytes.toNat ≤ 0x4000000

theorem mount_mounted {ahci : Ahci} {memory : Nat → UInt8} {n : Nat} {heap : HeapState} {fs : Fs}
    (hheap : Inv heap) (hok : (mount ahci memory n heap fs).1 = true) :
    ∃ table, Mounted (mount ahci memory n heap fs).2.2 table := by
  unfold mount at hok ⊢
  split at hok
  · cases hok
  rename_i hvalid
  rw [if_neg hvalid]
  simp only at hok ⊢
  unfold fat32LoadFat at hok ⊢
  simp only at hok ⊢
  rcases hk : kmalloc (fs.bpb.fatSize32.toUInt64 * 512).toNat "fat32" heap with ⟨_ | addr, heap'⟩
  · simp only [hk] at hok
    cases hok
  · simp only [hk] at hok ⊢
    have hsize := kmalloc_size_le hheap hk
    -- the FAT was read, or there would be no success
    split at hok
    · cases hok
    · rename_i table htable
      exact ⟨table, rfl, hsize⟩

/-- A volume that `fat32_initialize` mounted. -/
theorem fat32Initialize_mounted {ahci : Ahci} {stack memory : Nat → UInt8} {heap heap' : HeapState}
    {s s' : State} (hheap : Inv heap)
    (hinit : fat32Initialize ahci stack memory heap s = (true, heap', s')) :
    ∃ table, Mounted s'.fs table := by
  unfold fat32Initialize at hinit
  simp only at hinit
  split at hinit
  · have hok := congrArg Prod.fst hinit
    have hst := congrArg (fun r => r.2.2.fs) hinit
    simp only at hok hst
    rw [← hst]
    exact mount_mounted hheap hok
  · split at hinit
    · cases hinit
    · have hok := congrArg Prod.fst hinit
      have hst := congrArg (fun r => r.2.2.fs) hinit
      simp only at hok hst
      rw [← hst]
      exact mount_mounted hheap hok

/-! ## Chains -/

/-- A cluster with an entry in the loaded FAT. -/
def Inside (fs : Fs) (c : UInt32) : Prop := 2 ≤ c.toNat ∧ c.toNat * 4 + 4 ≤ fs.fatSizeBytes.toNat

/-- The FAT entry of a cluster. -/
def tableEntry (table : Nat → UInt8) (c : UInt32) : UInt32 := le32 table (c.toNat * 4) &&& 0x0FFFFFFF

/-- The chain of clusters that starts with `c`. -/
inductive Chain (fs : Fs) (table : Nat → UInt8) : UInt32 → List UInt32 → Prop where
  | last {c : UInt32} (hin : Inside fs c) (heoc : fat32Eoc ≤ tableEntry table c) : Chain fs table c [c]
  | next {c : UInt32} {cs : List UInt32} (hin : Inside fs c) (hlt : tableEntry table c < fat32Eoc)
      (hrest : Chain fs table (tableEntry table c) cs) : Chain fs table c (c :: cs)

section Lookup

variable {fs : Fs} {table : Nat → UInt8} (hm : Mounted fs table) {c : UInt32}
include hm

theorem Mounted.not_eoc (hin : Inside fs c) : fat32IsEoc c = false := by
  have hsize := hm.size_le
  have hfat := hin.2
  unfold fat32IsEoc
  rw [decide_eq_false_iff_not, UInt32.le_iff_toNat_le]
  have heoc : fat32Eoc.toNat = 0x0FFFFFF8 := rfl
  omega

theorem Mounted.getFatEntry (hin : Inside fs c) : fat32GetFatEntry fs c = tableEntry table c := by
  have hsize := hm.size_le
  have hfat := hin.2
  -- the offset of the entry fits in 32 bits, as the FAT fits in the heap
  have hmul : (c * 4).toNat = c.toNat * 4 := by
    have hfour : (4 : UInt32).toNat = 4 := rfl
    rw [UInt32.toNat_mul, hfour]
    exact Nat.mod_eq_of_lt (by omega)
  unfold fat32GetFatEntry tableEntry
  rw [hm.table, ← hmul]

/-- Following the chain from a cluster that is not the last. -/
theorem Mounted.follow (hin : Inside fs c) (hlt : tableEntry table c < fat32Eoc) :
    fat32FollowClusterChain fs c = tableEntry table c := by
  unfold fat32FollowClusterChain
  rw [hm.getFatEntry hin]
  simp only
  rw [if_neg]
  unfold fat32IsEoc
  rw [decide_eq_true_eq]
  intro hle
  rw [UInt32.le_iff_toNat_le] at hle
  rw [UInt32.lt_iff_toNat_lt] at hlt
  omega

end Lookup

theorem Chain.inside {fs : Fs} {table : Nat → UInt8} {c : UInt32} {chain : List UInt32}
    (h : Chain fs table c chain) : Inside fs c := by
  cases h with
  | last hin _ => exact hin
  | next hin _ _ => exact hin

/-- Skipping within the chain. -/
theorem skipClusters_chain {fs : Fs} {table : Nat → UInt8} (hm : Mounted fs table) {c : UInt32}
    {chain : List UInt32} (h : Chain fs table c chain) {q : Nat} (hq : q < chain.length) :
    Chain fs table (skipClusters fs q c) (chain.drop q) := by
  induction q generalizing c chain with
  | zero => exact h
  | succ q ih =>
    cases h with
    | last hin heoc =>
      simp only [List.length_singleton] at hq
      omega
    | next hin hlt hrest =>
      unfold skipClusters
      rw [hm.not_eoc hin, hm.follow hin hlt]
      exact ih hrest (by simpa using hq)

/-! ## Contents -/

/-- `ahci_read_sector` on a disk image, without failures. -/
def imageAhci (disk : UInt32 → Nat → UInt8) : Ahci := fun _ lba => some (disk lba)

/-- The bytes in a cluster. -/
def Fs.clusterSize (fs : Fs) : Nat := 512 * fs.sectorsPerCluster.toNat

/-- The bytes of a cluster on the disk. -/
def clusterBytes (disk : UInt32 → Nat → UInt8) (fs : Fs) (c : UInt32) : List UInt8 :=
  (List.range fs.clusterSize).map fun j => disk (fat32ClusterLba fs c + UInt32.ofNat (j / 512)) (j % 512)

theorem length_clusterBytes (disk : UInt32 → Nat → UInt8) (fs : Fs) (c : UInt32) :
    (clusterBytes disk fs c).length = fs.clusterSize := by
  simp [clusterBytes]

/-- The bytes of a chain of clusters. -/
def content (disk : UInt32 → Nat → UInt8) (fs : Fs) (chain : List UInt32) : List UInt8 :=
  chain.flatMap (clusterBytes disk fs)

/-- `i * FAT32_SECTOR_SIZE` is exact for the sectors of a cluster. -/
theorem sectorOffset_eq {i : Nat} (hi : 512 * i < 2 ^ 32) : (UInt32.ofNat i * 512).toNat = 512 * i := by
  have h512 : (512 : UInt32).toNat = 512 := rfl
  rw [UInt32.toNat_mul, UInt32.toNat_ofNat', h512, Nat.mod_eq_of_lt (by omega : i < 2 ^ 32), Nat.mul_comm]
  exact Nat.mod_eq_of_lt hi

/-- What `fat32_read_sectors` leaves in the buffer. -/
theorem readSectorsFrom_image (disk : UInt32 → Nat → UInt8) (n : Nat) (lba : UInt32) (count i : Nat)
    (buffer : Nat → UInt8) (hle : 512 * (i + count) ≤ 2 ^ 32) :
    (readSectorsFrom (imageAhci disk) n lba count i buffer).1 = true ∧
      ∀ j, (readSectorsFrom (imageAhci disk) n lba count i buffer).2 j =
        if 512 * i ≤ j ∧ j < 512 * (i + count) then disk (lba + UInt32.ofNat (j / 512)) (j % 512)
        else buffer j := by
  induction count generalizing i buffer with
  | zero =>
    refine ⟨rfl, ?_⟩
    intro j
    rw [if_neg (by omega)]
    rfl
  | succ count ih =>
    -- sector `i` is written first, the later ones leave it alone
    have hle' : 512 * (i + 1 + count) ≤ 2 ^ 32 := by omega
    unfold readSectorsFrom
    simp only [imageAhci]
    rw [sectorOffset_eq (by omega)]
    rcases ih (i + 1) (writeSector buffer (512 * i) (disk (lba + UInt32.ofNat i))) hle' with
      ⟨hok, hbuf⟩
    refine ⟨hok, ?_⟩
    intro j
    rw [hbuf]
    by_cases hlater : 512 * (i + 1) ≤ j ∧ j < 512 * (i + 1 + count)
    · rw [if_pos hlater, if_pos (by omega)]
    · rw [if_neg hlater]
      unfold writeSector sectorSize
      by_cases hthis : 512 * i ≤ j ∧ j < 512 * i + 512
      · have hdiv : j / 512 = i := by omega
        have hmod : j % 512 = j - 512 * i := by omega
        rw [if_pos hthis, if_pos (by omega), hdiv, hmod]
      · rw [if_neg hthis, if_neg (by omega)]

/-- The sectors of a cluster are read into the buffer. -/
theorem fat32ReadSectors_image (disk : UInt32 → Nat → UInt8) (n : Nat) (fs : Fs)
    (hspc : fs.sectorsPerCluster.toNat ≤ 8) (c : UInt32) (buffer : Nat → UInt8) :
    ∃ buffer', fat32ReadSectors (imageAhci disk) n (fat32ClusterLba fs c) fs.sectorsPerCluster buffer =
        (true, buffer') ∧
      ∀ j < fs.clusterSize, buffer' j = disk (fat32ClusterLba fs c + UInt32.ofNat (j / 512)) (j % 512) := by
  rcases readSectorsFrom_image disk n (fat32ClusterLba fs c) fs.sectorsPerCluster.toNat 0 buffer
    (by omega) with ⟨hok, hbuf⟩
  refine ⟨_, Prod.ext hok rfl, ?_⟩
  intro j hj
  unfold Fs.clusterSize at hj
  show (readSectorsFrom (imageAhci disk) n (fat32ClusterLba fs c) fs.sectorsPerCluster.toNat 0 buffer).2 j = _
  rw [hbuf, if_pos (by omega)]

end CosKernel.Fat32
