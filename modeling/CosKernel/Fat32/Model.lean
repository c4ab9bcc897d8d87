import CosKernel.Lib.Bytes
import CosKernel.Heap.Model

/-!
# The FAT32 driver (`fat32.c`)

Sectors come from `ahci_read_sector`, which is a parameter: for the number of the
read within one call of the driver and a sector number, the bytes of the sector,
or `none` for a failure. The buffers on the stack are not initialised; what they
hold is the parameter `stack`. `fat_table` points into the heap, and a lookup
beyond the loaded table reads whatever memory follows it: the table is the
function of all offsets from that pointer.

Cluster and sector numbers are 32-bit words, as is everything stored in a handle.
The counters of one read stay below `file_size`, so they are natural numbers.
The fields of directory entries that the driver never reads are left out.
-/

namespace CosKernel.Fat32

open Bytes Heap

/-! ## Data -/

/-- `ahci_read_sector` -/
abbrev Ahci := Nat → UInt32 → Option (Nat → UInt8)

/-- `fat32_bpb_t` -/
structure Bpb where
  bootJump : List UInt8
  oemName : List UInt8
  bytesPerSector : UInt16
  sectorsPerCluster : UInt8
  reservedSectors : UInt16
  numFats : UInt8
  rootEntries : UInt16
  totalSectors16 : UInt16
  mediaType : UInt8
  fatSize16 : UInt16
  sectorsPerTrack : UInt16
  numHeads : UInt16
  hiddenSectors : UInt32
  totalSectors32 : UInt32
  fatSize32 : UInt32
  extFlags : UInt16
  fsVersion : UInt16
  rootCluster : UInt32
  fsInfoSector : UInt16
  backupBootSector : UInt16
  reserved : List UInt8
  driveNumber : UInt8
  reserved2 : UInt8
  bootSignature : UInt8
  volumeId : UInt32
  volumeLabel : List UInt8
  fsType : List UInt8
deriving DecidableEq, Repr

/-- `fat32_direntry_t`; `name` holds the 8 bytes of the name and the 3 of the extension. -/
structure DirEntry where
  name : List UInt8
  attributes : UInt8
  firstClusterHigh : UInt16
  firstClusterLow : UInt16
  fileSize : UInt32
deriving DecidableEq, Repr

/-- `fat32_fs_t` -/
structure Fs where
  bpb : Bpb
  partitionLba : UInt32
  fatOffset : UInt32
  dataOffset : UInt32
  sectorsPerCluster : UInt32
  rootDirCluster : UInt32
  fatSizeBytes : UInt64
  fatTable : Option (Nat → UInt8)

/-- `fat32_file_t` -/
structure File where
  firstCluster : UInt32
  fileSize : UInt32
  currentPosition : UInt32
  isOpen : Bool
deriving DecidableEq, Repr

/-- `FAT32_MAX_FILES` -/
def maxFiles : Nat := 32

/-- The static variables of `fat32.c`. -/
structure State where
  fs : Fs
  files : Fin maxFiles → File

/-- A valid index of `fat32_files`. -/
def handle? (fd : Int) : Option (Fin maxFiles) :=
  if h : 0 ≤ fd ∧ fd < maxFiles then some ⟨fd.toNat, by omega⟩ else none

/-- Assign to a handle. -/
def State.setFile (s : State) (i : Fin maxFiles) (file : File) : State :=
  { s with files := Function.update s.files i file }

/-! ## Sectors and clusters -/

/-- `FAT32_SECTOR_SIZE` -/
def sectorSize : Nat := 512

/-- `FAT32_CLUSTER_SIZE`, the size of the cluster buffers. -/
def clusterBufferSize : Nat := 4096

/-- A sector stored at an offset of a buffer. -/
def writeSector (buffer : Nat → UInt8) (off : Nat) (sector : Nat → UInt8) : Nat → UInt8 :=
  fun j => if off ≤ j ∧ j < off + sectorSize then sector (j - off) else buffer j

/-- The loop of `fat32_read_sectors` from sector `i` on; `n` reads were made before. -/
def readSectorsFrom (ahci : Ahci) (n : Nat) (lba : UInt32) :
    Nat → Nat → (Nat → UInt8) → Bool × (Nat → UInt8)
  | 0, _, buffer => (true, buffer)
  | count + 1, i, buffer =>
    match ahci (n + i) (lba + UInt32.ofNat i) with
    | none => (false, buffer)
    | some sector =>
      readSectorsFrom ahci n lba count (i + 1) (writeSector buffer (UInt32.ofNat i * 512).toNat sector)

/-- `fat32_read_sectors`: success, and the buffer afterwards. -/
def fat32ReadSectors (ahci : Ahci) (n : Nat) (lba count : UInt32) (buffer : Nat → UInt8) :
    Bool × (Nat → UInt8) :=
  readSectorsFrom ahci n lba count.toNat 0 buffer

/-- `fat32_cluster_lba` -/
def fat32ClusterLba (fs : Fs) (cluster : UInt32) : UInt32 :=
  fs.dataOffset + (cluster - 2) * fs.sectorsPerCluster

/-- `FAT32_EOC` -/
def fat32Eoc : UInt32 := 0x0FFFFFF8

/-- `fat32_get_fat_entry` -/
def fat32GetFatEntry (fs : Fs) (cluster : UInt32) : UInt32 :=
  match fs.fatTable with
  | none => fat32Eoc
  | some table => le32 table (cluster * 4).toNat &&& 0x0FFFFFFF

/-- `fat32_is_eoc` -/
def fat32IsEoc (cluster : UInt32) : Bool := decide (fat32Eoc ≤ cluster)

/-- `fat32_follow_cluster_chain` -/
def fat32FollowClusterChain (fs : Fs) (cluster : UInt32) : UInt32 :=
  let next := fat32GetFatEntry fs cluster
  if fat32IsEoc next then 0 else next

/-! ## Names -/

/-- `c -= 32` for lower-case letters. -/
def upper (c : UInt8) : UInt8 := if 0x61 ≤ c ∧ c ≤ 0x7A then c - 32 else c

/-- A field of a short name, padded with spaces. -/
def padded (width : Nat) (chars : List UInt8) : List UInt8 :=
  chars.map upper ++ List.replicate (width - chars.length) 0x20

/-- `fat32_normalize_name`: up to 8 characters before a dot, the dot if it follows, and up to 3
characters of what remains. -/
def fat32NormalizeName (name : List UInt8) : List UInt8 :=
  let chars := name.takeWhile (· ≠ 0)
  let base := (chars.takeWhile (· ≠ 0x2E)).take 8
  let rest := chars.drop base.length
  let ext := (if rest.head? = some 0x2E then rest.tail else rest).take 3
  padded 8 base ++ padded 3 ext

/-- `fat32_compare_entry_name`: an unsigned byte is compared with a signed character. -/
def fat32CompareEntryName (entry : DirEntry) (target : List UInt8) : Bool :=
  (entry.name.zip (fat32NormalizeName target)).all fun p => decide ((p.1.toNat : Int) = p.2.toInt8.toInt)

/-! ## Mounting -/

/-- `len` bytes of a sector from `off` on. -/
def bytesAt (sector : Nat → UInt8) (off len : Nat) : List UInt8 :=
  (List.range len).map fun i => sector (off + i)

/-- The fields of a boot sector: its first 90 bytes. -/
def bpbAt (sector : Nat → UInt8) : Bpb where
  bootJump := bytesAt sector 0 3
  oemName := bytesAt sector 3 8
  bytesPerSector := le16 sector 11
  sectorsPerCluster := sector 13
  reservedSectors := le16 sector 14
  numFats := sector 16
  rootEntries := le16 sector 17
  totalSectors16 := le16 sector 19
  mediaType := sector 21
  fatSize16 := le16 sector 22
  sectorsPerTrack := le16 sector 24
  numHeads := le16 sector 26
  hiddenSectors := le32 sector 28
  totalSectors32 := le32 sector 32
  fatSize32 := le32 sector 36
  extFlags := le16 sector 40
  fsVersion := le16 sector 42
  rootCluster := le32 sector 44
  fsInfoSector := le16 sector 48
  backupBootSector := le16 sector 50
  reserved := bytesAt sector 52 12
  driveNumber := sector 64
  reserved2 := sector 65
  bootSignature := sector 66
  volumeId := le32 sector 67
  volumeLabel := bytesAt sector 71 11
  fsType := bytesAt sector 82 8

/-- `fat32_read_boot_sector`: the value returned and `*bpb` afterwards, which is overwritten even
when the sector is rejected. -/
def fat32ReadBootSector (ahci : Ahci) (stack : Nat → UInt8) (n : Nat) (baseLba : UInt32) (bpb : Bpb) :
    Bool × Bpb :=
  match fat32ReadSectors ahci n baseLba 1 stack with
  | (false, _) => (false, bpb)
  | (true, sector) =>
    let bpb := bpbAt sector
    (!(bpb.bytesPerSector ≠ 512 || bpb.sectorsPerCluster = 0 || bpb.fatSize32 = 0), bpb)

/-- The scan of the partition table from entry `i` on: the number of reads made, `bpb` and
`partition_lba`. -/
def scanPartitions (ahci : Ahci) (stack sector : Nat → UInt8) :
    Nat → Nat → Nat → Bpb → UInt32 → Nat × Bpb × UInt32
  | 0, _, n, bpb, lba => (n, bpb, lba)
  | left + 1, i, n, bpb, lba =>
    let entry := 0x1BE + i * 16
    if sector (entry + 4) = 0x0B ∨ sector (entry + 4) = 0x0C then
      let start := le32 sector (entry + 8)
      let r := fat32ReadBootSector ahci stack n start bpb
      if r.1 then (n + 1, r.2, start) else scanPartitions ahci stack sector left (i + 1) (n + 1) r.2 lba
    else scanPartitions ahci stack sector left (i + 1) n bpb lba

/-- `fat32_load_fat`, with the memory that follows the block `kmalloc` returns. -/
def fat32LoadFat (ahci : Ahci) (memory : Nat → UInt8) (n : Nat) (heap : HeapState) (fs : Fs) :
    Bool × HeapState × Fs :=
  let size := fs.bpb.fatSize32.toUInt64 * 512
  match kmalloc size.toNat "fat32" heap with
  | (none, heap) => (false, heap, { fs with fatTable := none })
  | (some _, heap) =>
    match fat32ReadSectors ahci n fs.fatOffset fs.bpb.fatSize32 memory with
    | (false, table) => (false, heap, { fs with fatTable := some table })
    | (true, table) => (true, heap, { fs with fatTable := some table, fatSizeBytes := size })

/-- `fat32_initialize` from the validity check on. -/
def mount (ahci : Ahci) (memory : Nat → UInt8) (n : Nat) (heap : HeapState) (fs : Fs) :
    Bool × HeapState × Fs :=
  if fs.bpb.bytesPerSector ≠ 512 ∨ fs.bpb.fatSize32 = 0 then (false, heap, fs)
  else
    let fatOffset := fs.partitionLba + fs.bpb.reservedSectors.toUInt32
    fat32LoadFat ahci memory n heap { fs with
      fatOffset := fatOffset
      dataOffset := fatOffset + fs.bpb.numFats.toUInt32 * fs.bpb.fatSize32
      sectorsPerCluster := fs.bpb.sectorsPerCluster.toUInt32
      rootDirCluster := fs.bpb.rootCluster }

/-- `fat32_initialize`: whether it completed, the heap and the static variables afterwards. -/
def fat32Initialize (ahci : Ahci) (stack memory : Nat → UInt8) (heap : HeapState) (s : State) :
    Bool × HeapState × State :=
  let files := fun i => { s.files i with isOpen := false }
  let boot := fat32ReadBootSector ahci stack 0 0 s.fs.bpb
  let fs := { s.fs with partitionLba := 0, bpb := boot.2 }
  if boot.1 then
    let r := mount ahci memory 1 heap fs
    (r.1, r.2.1, ⟨r.2.2, files⟩)
  else
    match fat32ReadSectors ahci 1 0 1 stack with
    | (false, _) => (false, heap, ⟨fs, files⟩)
    | (true, sector) =>
      let scan := scanPartitions ahci stack sector 4 0 2 fs.bpb fs.partitionLba
      let r := mount ahci memory scan.1 heap { fs with bpb := scan.2.1, partitionLba := scan.2.2 }
      (r.1, r.2.1, ⟨r.2.2, files⟩)

/-- The static variables before `fat32_initialize`: all zero. -/
def initialState : State where
  fs := ⟨bpbAt fun _ => 0, 0, 0, 0, 0, 0, 0, none⟩
  files := fun _ => ⟨0, 0, 0, false⟩

/-- The number of clusters in the last message of `fat32_initialize`; `none` is the divide error. -/
def loggedClusters (fs : Fs) : Option UInt32 :=
  if fs.sectorsPerCluster = 0 then none else some (fs.bpb.totalSectors32 / fs.sectorsPerCluster)

/-! ## Directories -/

/-- The directory entry at an offset of a buffer. -/
def dirEntryAt (buffer : Nat → UInt8) (off : Nat) : DirEntry where
  name := (List.range 11).map fun i => buffer (off + i)
  attributes := buffer (off + 11)
  firstClusterHigh := le16 buffer (off + 20)
  firstClusterLow := le16 buffer (off + 26)
  fileSize := le32 buffer (off + 28)

/-- How the scan of one cluster of a directory ends. -/
inductive Scan where
  | found (entry : DirEntry)
  | lastEntry
  | nextCluster
deriving DecidableEq, Repr

/-- An entry that both scanners skip: deleted, part of a long name, or a volume label. -/
def skipped (entry : DirEntry) : Bool :=
  entry.name.head? = some 0xE5 || entry.attributes = 0x0F || entry.attributes &&& 0x08 ≠ 0

/-- The loop of `fat32_find_in_directory` over the entries of the buffer. -/
def scanBuffer (buffer : Nat → UInt8) (filename : List UInt8) : Nat → Nat → Scan
  | 0, _ => .nextCluster
  | left + 1, off =>
    let entry := dirEntryAt buffer off
    if entry.name.head? = some 0 then .lastEntry
    else if skipped entry then scanBuffer buffer filename left (off + 32)
    else if fat32CompareEntryName entry filename then .found entry
    else scanBuffer buffer filename left (off + 32)

/-- The loop of `fat32_find_in_directory` over clusters. The outer `none` says that it has not
ended after `fuel` clusters. -/
def findFrom (ahci : Ahci) (fs : Fs) (filename : List UInt8) :
    Nat → Nat → (Nat → UInt8) → UInt32 → Option (Option DirEntry)
  | 0, _, _, current => if 2 ≤ current ∧ ¬ fat32IsEoc current then none else some none
  | fuel + 1, n, buffer, current =>
    if 2 ≤ current ∧ ¬ fat32IsEoc current then
      match fat32ReadSectors ahci n (fat32ClusterLba fs current) fs.sectorsPerCluster buffer with
      | (false, _) => some none
      | (true, buffer) =>
        match scanBuffer buffer filename (clusterBufferSize / 32) 0 with
        | .found entry => some (some entry)
        | .lastEntry => some none
        | .nextCluster =>
          findFrom ahci fs filename fuel (n + fs.sectorsPerCluster.toNat) buffer
            (fat32FollowClusterChain fs current)
    else some none

/-- `fat32_find_in_directory` -/
def fat32FindInDirectory (ahci : Ahci) (stack : Nat → UInt8) (fuel : Nat) (fs : Fs) (cluster : UInt32)
    (filename : List UInt8) : Option (Option DirEntry) :=
  findFrom ahci fs filename fuel 0 stack cluster

/-- `fat32_make_cluster` -/
def fat32MakeCluster (entry : DirEntry) : UInt32 :=
  entry.firstClusterHigh.toUInt32 <<< 16 ||| entry.firstClusterLow.toUInt32

/-! ## Handles -/

/-- The first handle that is not open. -/
def freeHandle (s : State) : Option (Fin maxFiles) :=
  (List.finRange maxFiles).find? fun i => !(s.files i).isOpen

/-- The assignments of `fat32_open` to the handle. -/
def openedFile (entry : DirEntry) : File where
  firstCluster := fat32MakeCluster entry
  fileSize := entry.fileSize
  currentPosition := 0
  isOpen := true

/-- `fat32_open`; the file name is `none` for `NULL`. -/
def fat32Open (ahci : Ahci) (stack : Nat → UInt8) (fuel : Nat) (filename : Option (List UInt8))
    (s : State) : Option (Int × State) :=
  match filename with
  | none => some (-1, s)
  | some name =>
    match freeHandle s with
    | none => some (-1, s)
    | some i =>
      match fat32FindInDirectory ahci stack fuel s.fs s.fs.rootDirCluster name with
      | none => none
      | some none => some (-1, s)
      | some (some entry) => some (i.val, s.setFile i (openedFile entry))

/-- The loop that skips to the cluster of the current position. -/
def skipClusters (fs : Fs) : Nat → UInt32 → UInt32
  | 0, cluster => cluster
  | left + 1, cluster =>
    if fat32IsEoc cluster then cluster else skipClusters fs left (fat32FollowClusterChain fs cluster)

/-- What the loop of `fat32_read` leaves: success, the bytes stored in the caller's buffer from
its start on, and `current_position`. -/
structure Progress where
  ok : Bool
  written : List UInt8
  position : UInt32

/-- The loop of `fat32_read`. Every turn stores at least one byte, so `count` turns are enough. -/
def readLoop (ahci : Ahci) (fs : Fs) (clusterSize : Nat) :
    Nat → Nat → (Nat → UInt8) → Nat → Nat → UInt32 → List UInt8 → UInt32 → Progress
  | 0, _, _, _, _, _, written, position => ⟨true, written, position⟩
  | fuel + 1, n, buffer, count, offset, cluster, written, position =>
    if 0 < count ∧ 2 ≤ cluster ∧ ¬ fat32IsEoc cluster then
      match fat32ReadSectors ahci n (fat32ClusterLba fs cluster) fs.sectorsPerCluster buffer with
      | (false, _) => ⟨false, written, position⟩
      | (true, buffer) =>
        let clusterOffset := offset % clusterSize
        let readBytes := min (clusterSize - clusterOffset) count
        readLoop ahci fs clusterSize fuel (n + fs.sectorsPerCluster.toNat) buffer (count - readBytes)
          (offset + readBytes)
          (if (offset + readBytes) % clusterSize = 0 then fat32FollowClusterChain fs cluster else cluster)
          (written ++ (List.range readBytes).map fun i => buffer (clusterOffset + i))
          (position + UInt32.ofNat readBytes)
    else ⟨true, written, position⟩

/-- A `uint32_t` returned as an `int`. -/
def asInt (n : Nat) : Int := (BitVec.ofNat 32 n).toInt

/-- The value `fat32_read` returns, the bytes it stored, and the state afterwards. -/
structure ReadResult where
  ret : Int
  written : List UInt8
  state : State

/-- `fat32_read`; `nonNull` says whether the buffer is not `NULL`. -/
def fat32Read (ahci : Ahci) (stack : Nat → UInt8) (fd : Int) (nonNull : Bool) (size : UInt64)
    (s : State) : ReadResult :=
  match handle? fd with
  | none => ⟨-1, [], s⟩
  | some i =>
    let file := s.files i
    if !file.isOpen || !nonNull then ⟨-1, [], s⟩
    else if file.fileSize ≤ file.currentPosition then ⟨0, [], s⟩
    else
      let remaining := (file.fileSize - file.currentPosition).toNat
      let count := if remaining < size.toNat then remaining else size.toNat
      let offset := file.currentPosition.toNat
      let clusterSize := (s.fs.sectorsPerCluster * 512).toNat
      let cluster := skipClusters s.fs (offset / clusterSize) file.firstCluster
      let r := readLoop ahci s.fs clusterSize count 0 stack count offset cluster [] file.currentPosition
      ⟨if r.ok then asInt r.written.length else -1, r.written,
        s.setFile i { file with currentPosition := r.position }⟩

/-- The `cluster_size` by which `fat32_read` divides, if it gets that far. -/
def readDivisor (fd : Int) (nonNull : Bool) (s : State) : Option UInt32 :=
  match handle? fd with
  | none => none
  | some i =>
    if !(s.files i).isOpen || !nonNull then none
    else if (s.files i).fileSize ≤ (s.files i).currentPosition then none
    else some (s.fs.sectorsPerCluster * 512)

/-- `fat32_write`, which stores nothing. -/
def fat32Write (fd : Int) (size : UInt64) (s : State) : Int :=
  match handle? fd with
  | none => -1
  | some i => if (s.files i).isOpen then asInt size.toNat else -1

/-- `fat32_close` -/
def fat32Close (fd : Int) (s : State) : State :=
  match handle? fd with
  | none => s
  | some i => s.setFile i { s.files i with isOpen := false }

/-! ## Listing the root directory -/

/-- A character that ends no field of a short name. -/
def nameChar (c : UInt8) : Bool := c ≠ 0x20 && c ≠ 0

/-- `fat32_extract_entry_name`, without the final zero. -/
def fat32ExtractEntryName (entry : DirEntry) : List UInt8 :=
  let ext := (entry.name.drop 8).takeWhile nameChar
  (entry.name.take 8).takeWhile nameChar ++ if ext = [] then [] else 0x2E :: ext

/-- The loop of `fat32_enumerate_root` over the entries of the buffer: whether it met the last entry
of the directory, and the calls of `callback`. -/
def listBuffer (buffer : Nat → UInt8) : Nat → Nat → Bool × List (List UInt8 × UInt32)
  | 0, _ => (false, [])
  | left + 1, off =>
    let entry := dirEntryAt buffer off
    if entry.name.head? = some 0 then (true, [])
    else
      let r := listBuffer buffer left (off + 32)
      if skipped entry then r else (r.1, (fat32ExtractEntryName entry, entry.fileSize) :: r.2)

/-- The loop of `fat32_enumerate_root` over clusters. `none` says that it has not ended after `fuel`
clusters. -/
def enumerateFrom (ahci : Ahci) (fs : Fs) :
    Nat → Nat → (Nat → UInt8) → UInt32 → List (List UInt8 × UInt32) → Option (Bool × List (List UInt8 × UInt32))
  | 0, _, _, current, calls => if 2 ≤ current ∧ ¬ fat32IsEoc current then none else some (true, calls)
  | fuel + 1, n, buffer, current, calls =>
    if 2 ≤ current ∧ ¬ fat32IsEoc current then
      match fat32ReadSectors ahci n (fat32ClusterLba fs current) fs.sectorsPerCluster buffer with
      | (false, _) => some (false, calls)
      | (true, buffer) =>
        let r := listBuffer buffer (clusterBufferSize / 32) 0
        if r.1 then some (true, calls ++ r.2)
        else
          enumerateFrom ahci fs fuel (n + fs.sectorsPerCluster.toNat) buffer
            (fat32FollowClusterChain fs current) (calls ++ r.2)
    else some (true, calls)

/-- `fat32_enumerate_root`: the value returned and the calls of `callback`, which is `NULL` if
`nonNull` is false. -/
def fat32EnumerateRoot (ahci : Ahci) (stack : Nat → UInt8) (fuel : Nat) (nonNull : Bool) (s : State) :
    Option (Bool × List (List UInt8 × UInt32)) :=
  if !nonNull || s.fs.rootDirCluster < 2 then some (false, [])
  else enumerateFrom ahci s.fs fuel 0 stack s.fs.rootDirCluster []

end CosKernel.Fat32
