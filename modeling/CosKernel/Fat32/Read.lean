import CosKernel.Fat32.Chain

/-!
# Sequential reads reproduce a file

`readLoop_chain` says what the loop of `fat32_read` stores when it starts inside
a chain, and `fat32Read_spec` what one call does to a handle whose chain is long
enough. A session then interleaves reads of one handle with anything done to the
others: what it has delivered is at all times a prefix of the file.
-/

namespace CosKernel.Fat32

open Bytes Heap

/-! ## The loop -/

/-- What is left of a cluster leads to the start of the next. -/
theorem add_sub_mod_mod (offset : Nat) {size : Nat} (hpos : 0 < size) :
    (offset + (size - offset % size)) % size = 0 := by
  have hdiv := Nat.div_add_mod offset size
  have hmod := Nat.mod_lt offset hpos
  have hsum : offset + (size - offset % size) = size * (offset / size + 1) := by
    rw [Nat.mul_succ]
    omega
  rw [hsum, Nat.mul_mod_right]

/-- Sectors are read as long as none of the reads fails. -/
theorem readSectorsFrom_ok_iff (ahci : Ahci) (n : Nat) (lba : UInt32) (count i : Nat) (buffer : Nat → UInt8) :
    (readSectorsFrom ahci n lba count i buffer).1 = true ↔
      ∀ j < count, (ahci (n + (i + j)) (lba + UInt32.ofNat (i + j))).isSome = true := by
  induction count generalizing i buffer with
  | zero =>
    constructor
    · intro _ j hj
      omega
    · intro _
      rfl
  | succ count ih =>
    rw [readSectorsFrom]
    rcases hsector : ahci (n + i) (lba + UInt32.ofNat i) with _ | sector
    · simp only [Bool.false_eq_true, false_iff]
      intro h
      have h0 := h 0 (by omega)
      rw [Nat.add_zero, hsector] at h0
      cases h0
    · rw [ih]
      constructor
      · intro h j hj
        cases j with
        | zero =>
          rw [Nat.add_zero, hsector]
          rfl
        | succ j =>
          have hj := h j (by omega)
          rwa [show i + 1 + j = i + (j + 1) by omega] at hj
      · intro h j hj
        have hj := h (j + 1) (by omega)
        rwa [show i + (j + 1) = i + 1 + j by omega] at hj

section Loop

variable {fs : Fs} {table : Nat → UInt8} (hm : Mounted fs table) (disk : UInt32 → Nat → UInt8)

/-- Nothing more to read. -/
theorem readLoop_ended (ahci : Ahci) (clusterSize fuel n : Nat) (buffer : Nat → UInt8) {count : Nat}
    (offset : Nat) {cluster : UInt32} (written : List UInt8) (position : UInt32)
    (hend : ¬ (0 < count ∧ 2 ≤ cluster ∧ ¬ fat32IsEoc cluster = true)) :
    readLoop ahci fs clusterSize fuel n buffer count offset cluster written position =
      ⟨true, written, position⟩ := by
  cases fuel with
  | zero => rfl
  | succ fuel => rw [readLoop, if_neg hend]

theorem readLoop_zero (ahci : Ahci) (clusterSize fuel n : Nat) (buffer : Nat → UInt8) (offset : Nat)
    (cluster : UInt32) (written : List UInt8) (position : UInt32) :
    readLoop ahci fs clusterSize fuel n buffer 0 offset cluster written position =
      ⟨true, written, position⟩ :=
  readLoop_ended ahci clusterSize fuel n buffer offset written position fun h => Nat.lt_irrefl 0 h.1

/-- The bytes copied from the buffer of a cluster. -/
theorem copied_eq {c : UInt32} {buffer : Nat → UInt8}
    (hbuf : ∀ j < fs.clusterSize,
      buffer j = disk (fat32ClusterLba fs c + UInt32.ofNat (j / 512)) (j % 512))
    {off len : Nat} (hlen : off + len ≤ fs.clusterSize) :
    ((List.range len).map fun i => buffer (off + i)) = ((clusterBytes disk fs c).drop off).take len := by
  apply List.ext_getElem
  · rw [List.length_map, List.length_range, List.length_take, List.length_drop, length_clusterBytes]
    omega
  · intro i h₁ h₂
    simp only [List.length_map, List.length_range] at h₁
    simp only [List.getElem_map, List.getElem_range, List.getElem_take, List.getElem_drop, clusterBytes]
    exact hbuf (off + i) (by omega)

include hm

/-- One turn of the loop inside a chain. -/
theorem readLoop_turn (hpos : 0 < fs.clusterSize) (hspc : fs.sectorsPerCluster.toNat ≤ 8) {c : UInt32}
    (hin : Inside fs c) (fuel n : Nat) (buffer : Nat → UInt8) {count : Nat} (hcount : 0 < count)
    (offset : Nat) (written : List UInt8) (position : UInt32) :
    ∃ buffer', readLoop (imageAhci disk) fs fs.clusterSize (fuel + 1) n buffer count offset c written
        position =
      readLoop (imageAhci disk) fs fs.clusterSize fuel (n + fs.sectorsPerCluster.toNat) buffer'
        (count - min (fs.clusterSize - offset % fs.clusterSize) count)
        (offset + min (fs.clusterSize - offset % fs.clusterSize) count)
        (if (offset + min (fs.clusterSize - offset % fs.clusterSize) count) % fs.clusterSize = 0 then
          fat32FollowClusterChain fs c else c)
        (written ++ ((clusterBytes disk fs c).drop (offset % fs.clusterSize)).take
          (min (fs.clusterSize - offset % fs.clusterSize) count))
        (position + UInt32.ofNat (min (fs.clusterSize - offset % fs.clusterSize) count)) := by
  rcases fat32ReadSectors_image disk n fs hspc c buffer with ⟨buffer', hread, hbuf⟩
  refine ⟨buffer', ?_⟩
  have htwo : 2 ≤ c := by
    rw [UInt32.le_iff_toNat_le]
    exact hin.1
  have hmod := Nat.mod_lt offset hpos
  rw [← copied_eq disk hbuf (by omega)]
  -- the cluster is inside the FAT, so the loop condition holds and the read succeeds
  conv_lhs => unfold readLoop
  rw [if_pos ⟨hcount, htwo, by simp [hm.not_eoc hin]⟩, hread]

/-- A read that ends in the cluster. -/
theorem readLoop_within (hpos : 0 < fs.clusterSize) (hspc : fs.sectorsPerCluster.toNat ≤ 8) {c : UInt32}
    (hin : Inside fs c) {fuel n : Nat} {buffer : Nat → UInt8} {count offset : Nat} {written : List UInt8}
    {position : UInt32} (hfuel : count ≤ fuel) (hcount : offset % fs.clusterSize + count ≤ fs.clusterSize) :
    readLoop (imageAhci disk) fs fs.clusterSize fuel n buffer count offset c written position =
      ⟨true, written ++ ((clusterBytes disk fs c).drop (offset % fs.clusterSize)).take count,
        position + UInt32.ofNat count⟩ := by
  rcases Nat.eq_zero_or_pos count with rfl | hne
  · rw [readLoop_zero]
    simp
  cases fuel with
  | zero => omega
  | succ fuel =>
    rcases readLoop_turn hm disk hpos hspc hin fuel n buffer hne offset written position with
      ⟨buffer', hturn⟩
    have hmin : min (fs.clusterSize - offset % fs.clusterSize) count = count := by omega
    rw [hturn, hmin, Nat.sub_self, readLoop_zero]

/-- A read that goes on: it has the rest of the cluster, and is at the start of the next. -/
theorem readLoop_across (hpos : 0 < fs.clusterSize) (hspc : fs.sectorsPerCluster.toNat ≤ 8) {c : UInt32}
    (hin : Inside fs c) (hlt : tableEntry table c < fat32Eoc) (fuel n : Nat) (buffer : Nat → UInt8)
    (count offset : Nat) (written : List UInt8) (position : UInt32)
    (hcount : fs.clusterSize - offset % fs.clusterSize < count) :
    ∃ buffer', readLoop (imageAhci disk) fs fs.clusterSize (fuel + 1) n buffer count offset c written
        position =
      readLoop (imageAhci disk) fs fs.clusterSize fuel (n + fs.sectorsPerCluster.toNat) buffer'
        (count - (fs.clusterSize - offset % fs.clusterSize))
        (offset + (fs.clusterSize - offset % fs.clusterSize)) (tableEntry table c)
        (written ++ (clusterBytes disk fs c).drop (offset % fs.clusterSize))
        (position + UInt32.ofNat (fs.clusterSize - offset % fs.clusterSize)) := by
  rcases readLoop_turn hm disk hpos hspc hin fuel n buffer (Nat.zero_lt_of_lt hcount) offset written
    position with ⟨buffer', hturn⟩
  refine ⟨buffer', ?_⟩
  have hmin : min (fs.clusterSize - offset % fs.clusterSize) count =
      fs.clusterSize - offset % fs.clusterSize := by omega
  have htake : ((clusterBytes disk fs c).drop (offset % fs.clusterSize)).take
      (fs.clusterSize - offset % fs.clusterSize) = (clusterBytes disk fs c).drop (offset % fs.clusterSize) := by
    apply List.take_of_length_le
    rw [List.length_drop, length_clusterBytes]
  rw [hturn, hmin, add_sub_mod_mod offset hpos, if_pos rfl, hm.follow hin hlt, htake]

/-- The loop stores the next `count` bytes of the chain. -/
theorem readLoop_chain (hpos : 0 < fs.clusterSize) (hspc : fs.sectorsPerCluster.toNat ≤ 8) {c : UInt32}
    {chain : List UInt32} (h : Chain fs table c chain) (fuel n : Nat) (buffer : Nat → UInt8)
    (count offset : Nat) (written : List UInt8) (position : UInt32) (hfuel : count ≤ fuel)
    (hcount : offset % fs.clusterSize + count ≤ (content disk fs chain).length) :
    readLoop (imageAhci disk) fs fs.clusterSize fuel n buffer count offset c written position =
      ⟨true, written ++ ((content disk fs chain).drop (offset % fs.clusterSize)).take count,
        position + UInt32.ofNat count⟩ := by
  have hmod := Nat.mod_lt offset hpos
  -- induction along the chain: a turn ends the read or uses up the cluster
  induction h generalizing fuel n buffer count offset written position with
  | @last c hin heoc =>
    have hcontent : content disk fs [c] = clusterBytes disk fs c := by simp [content]
    rw [hcontent, length_clusterBytes] at hcount
    rw [hcontent]
    exact readLoop_within hm disk hpos hspc hin hfuel hcount
  | @next c cs hin hlt hrest ih =>
    have hcontent : content disk fs (c :: cs) = clusterBytes disk fs c ++ content disk fs cs := rfl
    have hlen := length_clusterBytes disk fs c
    rw [hcontent, List.drop_append_of_le_length (by omega)]
    rw [hcontent, List.length_append, hlen] at hcount
    by_cases hend : offset % fs.clusterSize + count ≤ fs.clusterSize
    · have hlen' : count ≤ ((clusterBytes disk fs c).drop (offset % fs.clusterSize)).length := by
        rw [List.length_drop, hlen]
        omega
      rw [List.take_append_of_le_length hlen']
      exact readLoop_within hm disk hpos hspc hin hfuel hend
    cases fuel with
    | zero => omega
    | succ fuel =>
      rcases readLoop_across hm disk hpos hspc hin hlt fuel n buffer count offset written
        position (by omega) with ⟨buffer', hturn⟩
      have hedge := add_sub_mod_mod offset hpos
      have hrestread := ih fuel (n + fs.sectorsPerCluster.toNat) buffer'
        (count - (fs.clusterSize - offset % fs.clusterSize))
        (offset + (fs.clusterSize - offset % fs.clusterSize))
        (written ++ (clusterBytes disk fs c).drop (offset % fs.clusterSize))
        (position + UInt32.ofNat (fs.clusterSize - offset % fs.clusterSize)) (by omega)
        (by rw [hedge]; omega) (by rw [hedge]; exact hpos)
      rw [hturn, hrestread, hedge, List.drop_zero]
      -- what was read before and now, and the two advances of the position
      have htake : ((clusterBytes disk fs c).drop (offset % fs.clusterSize) ++ content disk fs cs).take count =
          (clusterBytes disk fs c).drop (offset % fs.clusterSize) ++
            (content disk fs cs).take (count - (fs.clusterSize - offset % fs.clusterSize)) := by
        rw [List.take_append, List.length_drop, hlen, List.take_of_length_le]
        rw [List.length_drop, hlen]
        omega
      have hposition : position + UInt32.ofNat (fs.clusterSize - offset % fs.clusterSize) +
          UInt32.ofNat (count - (fs.clusterSize - offset % fs.clusterSize)) =
          position + UInt32.ofNat count := by
        rw [UInt32.add_assoc, ← UInt32.ofNat_add]
        congr 2
        omega
      rw [htake, hposition, List.append_assoc]

end Loop

/-! ## One call -/

theorem handle?_val (i : Fin maxFiles) : handle? (i.val : Int) = some i := by
  unfold handle?
  rw [dif_pos ⟨by omega, by exact_mod_cast i.isLt⟩]
  simp

theorem eq_of_handle? {fd : Int} {i : Fin maxFiles} (h : handle? fd = some i) : fd = i.val := by
  unfold handle? at h
  split at h
  · rw [Option.some.injEq] at h
    rw [← h]
    simp only
    omega
  · cases h

theorem State.setFile_self (s : State) (i : Fin maxFiles) : s.setFile i (s.files i) = s := by
  unfold State.setFile
  rw [Function.update_eq_self]

theorem asInt_eq {n : Nat} (hn : n < 2 ^ 31) : asInt n = n := by
  unfold asInt
  have hmod : n % 2 ^ 32 = n := Nat.mod_eq_of_lt (by omega)
  rw [BitVec.toInt_eq_toNat_of_lt]
  · rw [BitVec.toNat_ofNat, hmod]
  · rw [BitVec.toNat_ofNat, hmod]
    omega

theorem clusterSize_eq {fs : Fs} (hspc : fs.sectorsPerCluster.toNat ≤ 255) :
    (fs.sectorsPerCluster * 512).toNat = fs.clusterSize := by
  have h512 : (512 : UInt32).toNat = 512 := rfl
  unfold Fs.clusterSize
  rw [UInt32.toNat_mul, h512, Nat.mul_comm]
  exact Nat.mod_eq_of_lt (by omega)

/-- The number of bytes a read of this size can deliver. -/
def File.due (file : File) (size : UInt64) : Nat :=
  min size.toNat (file.fileSize.toNat - file.currentPosition.toNat)

/-- A file as the volume stores it: its size, and a chain of clusters that holds this many bytes. -/
structure Stored (fs : Fs) (table : Nat → UInt8) (firstCluster : UInt32) (fileSize : Nat)
    (chain : List UInt32) : Prop where
  linked : chain = [] ∨ Chain fs table firstCluster chain
  size_le : fileSize ≤ chain.length * fs.clusterSize

/-- A position before the end of the file lies in one of its clusters. -/
theorem Stored.position {fs : Fs} {table : Nat → UInt8} {firstCluster : UInt32} {fileSize : Nat}
    {chain : List UInt32} (h : Stored fs table firstCluster fileSize chain) (hpos : 0 < fs.clusterSize)
    {position : Nat} (hlt : position < fileSize) :
    Chain fs table firstCluster chain ∧ position / fs.clusterSize < chain.length := by
  have hsize := h.size_le
  constructor
  · rcases h.linked with hnil | hchain
    · rw [hnil, List.length_nil, Nat.zero_mul] at hsize
      omega
    · exact hchain
  · rw [Nat.div_lt_iff_lt_mul hpos]
    omega

/-- The clusters before a position are whole blocks of the content. -/
theorem drop_content (disk : UInt32 → Nat → UInt8) (fs : Fs) (chain : List UInt32) (position : Nat) :
    (content disk fs (chain.drop (position / fs.clusterSize))).drop (position % fs.clusterSize) =
      (content disk fs chain).drop position := by
  have hdrop := drop_blocks (length_clusterBytes disk fs) chain (position / fs.clusterSize)
    (position % fs.clusterSize)
  rw [Nat.mul_comm, Nat.div_add_mod] at hdrop
  exact hdrop.symm

/-- The position is not behind the end, so the subtraction of the source is exact. -/
theorem File.due_eq (file : File) (size : UInt64)
    (hle : file.currentPosition.toNat ≤ file.fileSize.toNat) :
    (if (file.fileSize - file.currentPosition).toNat < size.toNat then
      (file.fileSize - file.currentPosition).toNat else size.toNat) = file.due size := by
  rw [UInt32.toNat_sub_of_le _ _ (UInt32.le_iff_toNat_le.mpr hle)]
  unfold File.due
  split <;> omega

/-- The bytes that a read takes are in the file. -/
theorem File.due_le (file : File) (size : UInt64)
    (hle : file.currentPosition.toNat ≤ file.fileSize.toNat) :
    file.currentPosition.toNat + file.due size ≤ file.fileSize.toNat := by
  unfold File.due
  omega

/-- A read of an open handle in front of the end of its file is the loop, from the cluster of the
position on. -/
theorem fat32Read_open {s : State} {clusterSize : Nat}
    (hcluster : (s.fs.sectorsPerCluster * 512).toNat = clusterSize) {i : Fin maxFiles}
    (hopen : (s.files i).isOpen = true)
    (hlt : (s.files i).currentPosition.toNat < (s.files i).fileSize.toNat) (ahci : Ahci)
    (stack : Nat → UInt8) (size : UInt64) {p : Progress}
    (hloop : readLoop ahci s.fs clusterSize ((s.files i).due size) 0 stack ((s.files i).due size)
      (s.files i).currentPosition.toNat
      (skipClusters s.fs ((s.files i).currentPosition.toNat / clusterSize) (s.files i).firstCluster) []
      (s.files i).currentPosition = p) :
    fat32Read ahci stack i.val true size s =
      ⟨if p.ok then asInt p.written.length else -1, p.written,
        s.setFile i { s.files i with currentPosition := p.position }⟩ := by
  have hbefore : ¬ (s.files i).fileSize ≤ (s.files i).currentPosition := by
    rw [UInt32.le_iff_toNat_le]
    omega
  unfold fat32Read
  rw [handle?_val, hcluster]
  simp only [hopen, Bool.not_true, Bool.or_self, Bool.false_eq_true, if_false]
  rw [if_neg hbefore, File.due_eq (s.files i) size (Nat.le_of_lt hlt), hloop]

/-- At the end of its file nothing is read. -/
theorem fat32Read_at_end {s : State} {i : Fin maxFiles} (hopen : (s.files i).isOpen = true)
    (hend : (s.files i).fileSize.toNat ≤ (s.files i).currentPosition.toNat) (ahci : Ahci)
    (stack : Nat → UInt8) (size : UInt64) : fat32Read ahci stack i.val true size s = ⟨0, [], s⟩ := by
  unfold fat32Read
  rw [handle?_val]
  simp only [hopen, Bool.not_true, Bool.or_self, Bool.false_eq_true, if_false]
  rw [if_pos (UInt32.le_iff_toNat_le.2 hend)]

/-- Without an open handle or a buffer a read is refused. -/
theorem fat32Read_refused {s : State} {fd : Int} {nonNull : Bool}
    (hrefused : ∀ i, handle? fd = some i → (!(s.files i).isOpen || !nonNull) = true) (ahci : Ahci)
    (stack : Nat → UInt8) (size : UInt64) : fat32Read ahci stack fd nonNull size s = ⟨-1, [], s⟩ := by
  unfold fat32Read
  rcases hh : handle? fd with _ | i
  · rfl
  · simp only [hrefused i hh, if_true]

/-- The state after a read: as before, or with another position of an open handle, that of the loop. -/
theorem fat32Read_state (ahci : Ahci) (stack : Nat → UInt8) (fd : Int) (nonNull : Bool) (size : UInt64)
    (s : State) :
    (fat32Read ahci stack fd nonNull size s).state = s ∨
      ∃ i p, handle? fd = some i ∧ (s.files i).isOpen = true ∧
        (s.files i).currentPosition.toNat < (s.files i).fileSize.toNat ∧
        readLoop ahci s.fs (s.fs.sectorsPerCluster * 512).toNat ((s.files i).due size) 0 stack
          ((s.files i).due size) (s.files i).currentPosition.toNat
          (skipClusters s.fs ((s.files i).currentPosition.toNat / (s.fs.sectorsPerCluster * 512).toNat)
            (s.files i).firstCluster) [] (s.files i).currentPosition = p ∧
        (fat32Read ahci stack fd nonNull size s).state =
          s.setFile i { s.files i with currentPosition := p.position } := by
  by_cases hrefused : ∀ i, handle? fd = some i → (!(s.files i).isOpen || !nonNull) = true
  · exact Or.inl (by rw [fat32Read_refused hrefused])
  push Not at hrefused
  obtain ⟨i, hh, hgranted⟩ := hrefused
  obtain ⟨hopen, rfl⟩ : (s.files i).isOpen = true ∧ nonNull = true := by simpa using hgranted
  obtain rfl := eq_of_handle? hh
  rcases Nat.lt_or_ge (s.files i).currentPosition.toNat (s.files i).fileSize.toNat with hlt | hend
  · exact Or.inr ⟨i, _, hh, hopen, hlt, rfl, by rw [fat32Read_open rfl hopen hlt ahci stack size rfl]⟩
  · exact Or.inl (by rw [fat32Read_at_end hopen hend])

/-- A read delivers the bytes due from the current position on, and moves it. -/
theorem fat32Read_spec {s : State} {table : Nat → UInt8} (hm : Mounted s.fs table)
    (disk : UInt32 → Nat → UInt8) (hone : 1 ≤ s.fs.sectorsPerCluster.toNat)
    (hspc : s.fs.sectorsPerCluster.toNat ≤ 8) {i : Fin maxFiles} {chain : List UInt32}
    (hst : Stored s.fs table (s.files i).firstCluster (s.files i).fileSize.toNat chain)
    (hopen : (s.files i).isOpen = true)
    (hle : (s.files i).currentPosition.toNat ≤ (s.files i).fileSize.toNat) (stack : Nat → UInt8)
    {size : UInt64} (hsize : size.toNat < 2 ^ 31) :
    fat32Read (imageAhci disk) stack i.val true size s =
      ⟨(s.files i).due size,
        ((content disk s.fs chain).drop (s.files i).currentPosition.toNat).take ((s.files i).due size),
        s.setFile i { s.files i with
          currentPosition := (s.files i).currentPosition + UInt32.ofNat ((s.files i).due size) }⟩ := by
  have hpos : 0 < s.fs.clusterSize := by
    unfold Fs.clusterSize
    omega
  by_cases heof : (s.files i).fileSize.toNat ≤ (s.files i).currentPosition.toNat
  · -- at the end of the file nothing is due
    have hdue : (s.files i).due size = 0 := by
      unfold File.due
      omega
    have hadd : (s.files i).currentPosition + UInt32.ofNat 0 = (s.files i).currentPosition := UInt32.add_zero _
    rw [fat32Read_at_end hopen heof, hdue, hadd, State.setFile_self]
    simp
  have hdue : (s.files i).due size ≤ (s.files i).fileSize.toNat - (s.files i).currentPosition.toNat :=
    Nat.min_le_right _ _
  have hdue' : (s.files i).due size < 2 ^ 31 := lt_of_le_of_lt (Nat.min_le_left _ _) hsize
  obtain ⟨hchain, hskip⟩ := hst.position hpos (Nat.lt_of_not_le heof)
  have hlen : (content disk s.fs chain).length = chain.length * s.fs.clusterSize :=
    length_blocks (length_clusterBytes disk s.fs) chain
  have hcontent := drop_content disk s.fs chain (s.files i).currentPosition.toNat
  have hsz := hst.size_le
  have hroom : (s.files i).currentPosition.toNat % s.fs.clusterSize + (s.files i).due size ≤
      (content disk s.fs (chain.drop ((s.files i).currentPosition.toNat / s.fs.clusterSize))).length := by
    have hlen' := congrArg List.length hcontent
    rw [List.length_drop, List.length_drop, hlen] at hlen'
    omega
  have hloop := readLoop_chain hm disk hpos hspc (skipClusters_chain hm hchain hskip) ((s.files i).due size) 0
    stack ((s.files i).due size) (s.files i).currentPosition.toNat [] (s.files i).currentPosition le_rfl hroom
  rw [List.nil_append, hcontent] at hloop
  have hwritten : (((content disk s.fs chain).drop (s.files i).currentPosition.toNat).take
      ((s.files i).due size)).length = (s.files i).due size := by
    rw [List.length_take, List.length_drop]
    omega
  have hcluster := clusterSize_eq (Nat.le_trans hspc (by decide))
  rw [fat32Read_open hcluster hopen (Nat.lt_of_not_le heof) _ _ _ hloop]
  simp only [if_true, hwritten, asInt_eq hdue']

/-! ## Sessions -/

/-- A call in a session with one handle: a read of it, or any use of the others. -/
inductive SessionCall where
  | read (stack : Nat → UInt8) (size : UInt64)
  | openOther (stack : Nat → UInt8) (fuel : Nat) (filename : Option (List UInt8))
  | readOther (stack : Nat → UInt8) (fd : Int) (nonNull : Bool) (size : UInt64)
  | closeOther (fd : Int)

/-- The driver, and the bytes delivered to the reader of the handle so far. -/
structure Session where
  state : State
  delivered : List UInt8

/-- One call of a session with `fd`; `none` if the call does not return, or is none of such a
session. -/
def sessionStep (disk : UInt32 → Nat → UInt8) (fd : Int) (s : Session) : SessionCall → Option Session
  | .read stack size =>
    if size.toNat < 2 ^ 31 then
      let r := fat32Read (imageAhci disk) stack fd true size s.state
      some ⟨r.state, s.delivered ++ r.written⟩
    else none
  | .openOther stack fuel filename =>
    (fat32Open (imageAhci disk) stack fuel filename s.state).map fun r => ⟨r.2, s.delivered⟩
  | .readOther stack fd' nonNull size =>
    if fd' = fd then none
    else some ⟨(fat32Read (imageAhci disk) stack fd' nonNull size s.state).state, s.delivered⟩
  | .closeOther fd' => if fd' = fd then none else some ⟨fat32Close fd' s.state, s.delivered⟩

/-- The handle `i` of this state reads a file stored in `chain`. -/
structure Reading (disk : UInt32 → Nat → UInt8) (fs : Fs) (i : Fin maxFiles) (firstCluster fileSize : UInt32)
    (chain : List UInt32) (s : Session) : Prop where
  fs_eq : s.state.fs = fs
  file : s.state.files i = ⟨firstCluster, fileSize, UInt32.ofNat s.delivered.length, true⟩
  length_le : s.delivered.length ≤ fileSize.toNat
  delivered : s.delivered = (content disk fs chain).take s.delivered.length

theorem setFile_files_ne {s : State} {i j : Fin maxFiles} (h : j ≠ i) (file : File) :
    (s.setFile i file).files j = s.files j := Function.update_of_ne h _ _

/-- `fat32_open` fails and changes nothing, or takes a handle that was not open for the entry it
found. -/
theorem fat32Open_cases {ahci : Ahci} {stack : Nat → UInt8} {fuel : Nat} {filename : Option (List UInt8)}
    {s s' : State} {ret : Int} (h : fat32Open ahci stack fuel filename s = some (ret, s')) :
    ret = -1 ∧ s' = s ∨
      ∃ name i entry, filename = some name ∧ (s.files i).isOpen = false ∧
        fat32FindInDirectory ahci stack fuel s.fs s.fs.rootDirCluster name = some (some entry) ∧
        ret = i.val ∧ s' = s.setFile i (openedFile entry) := by
  unfold fat32Open at h
  split at h
  · cases h
    exact Or.inl ⟨rfl, rfl⟩
  rename_i name
  split at h
  · cases h
    exact Or.inl ⟨rfl, rfl⟩
  rename_i i hfree
  split at h
  · cases h
  · cases h
    exact Or.inl ⟨rfl, rfl⟩
  · rename_i entry hfind
    cases h
    have hclosed := List.find?_some hfree
    exact Or.inr ⟨name, i, entry, rfl, by simpa using hclosed, hfind, rfl, rfl⟩

/-- `fat32_open` takes a handle that was not open and keeps everything else. -/
theorem fat32Open_frame {ahci : Ahci} {stack : Nat → UInt8} {fuel : Nat} {filename : Option (List UInt8)}
    {s s' : State} {ret : Int} (h : fat32Open ahci stack fuel filename s = some (ret, s')) :
    s'.fs = s.fs ∧ ∀ j, (s.files j).isOpen = true → s'.files j = s.files j := by
  rcases fat32Open_cases h with ⟨-, rfl⟩ | ⟨name, i, entry, -, hclosed, -, -, rfl⟩
  · exact ⟨rfl, fun _ _ => rfl⟩
  · refine ⟨rfl, ?_⟩
    intro j hj
    have hne : j ≠ i := by
      rintro rfl
      rw [hj] at hclosed
      cases hclosed
    exact setFile_files_ne hne _

/-- `fat32_read` writes the handle it is given only. -/
theorem fat32Read_frame (ahci : Ahci) (stack : Nat → UInt8) (fd : Int) (nonNull : Bool) (size : UInt64)
    (s : State) {j : Fin maxFiles} (hj : fd ≠ j.val) :
    (fat32Read ahci stack fd nonNull size s).state.fs = s.fs ∧
      (fat32Read ahci stack fd nonNull size s).state.files j = s.files j := by
  rcases fat32Read_state ahci stack fd nonNull size s with hsame | ⟨i, p, hh, -, -, -, hstate⟩
  · rw [hsame]
    exact ⟨rfl, rfl⟩
  · have hne : j ≠ i := by
      rintro rfl
      exact hj (eq_of_handle? hh)
    rw [hstate]
    exact ⟨rfl, setFile_files_ne hne _⟩

theorem fat32Close_frame (fd : Int) (s : State) {j : Fin maxFiles} (hj : fd ≠ j.val) :
    (fat32Close fd s).fs = s.fs ∧ (fat32Close fd s).files j = s.files j := by
  unfold fat32Close
  rcases hh : handle? fd with _ | i
  · exact ⟨rfl, rfl⟩
  have hne : j ≠ i := by
    rintro rfl
    exact hj (eq_of_handle? hh)
  exact ⟨rfl, setFile_files_ne hne _⟩

section Run

variable {disk : UInt32 → Nat → UInt8} {fs : Fs} {table : Nat → UInt8} {i : Fin maxFiles}
  {firstCluster fileSize : UInt32} {chain : List UInt32}

/-- A call that leaves the handle and the volume alone. -/
theorem Reading.frame {s s' : Session} (h : Reading disk fs i firstCluster fileSize chain s)
    (hfs : s'.state.fs = s.state.fs) (hfile : s'.state.files i = s.state.files i)
    (hdel : s'.delivered = s.delivered) : Reading disk fs i firstCluster fileSize chain s' :=
  ⟨hfs.trans h.fs_eq, by rw [hfile, hdel]; exact h.file, by rw [hdel]; exact h.length_le,
    by rw [hdel]; exact h.delivered⟩

variable (hm : Mounted fs table) (hone : 1 ≤ fs.sectorsPerCluster.toNat)
  (hspc : fs.sectorsPerCluster.toNat ≤ 8)
  (hst : Stored fs table firstCluster fileSize.toNat chain)
include hm hone hspc hst

/-- What the next read of the handle does. -/
theorem Reading.read {s : Session} (h : Reading disk fs i firstCluster fileSize chain s)
    (stack : Nat → UInt8) {size : UInt64} (hsize : size.toNat < 2 ^ 31) :
    fat32Read (imageAhci disk) stack i.val true size s.state =
      ⟨(min size.toNat (fileSize.toNat - s.delivered.length) : Nat),
        ((content disk fs chain).drop s.delivered.length).take
          (min size.toNat (fileSize.toNat - s.delivered.length)),
        s.state.setFile i ⟨firstCluster, fileSize,
          UInt32.ofNat (s.delivered.length + min size.toNat (fileSize.toNat - s.delivered.length)), true⟩⟩ := by
  have hpos : (UInt32.ofNat s.delivered.length).toNat = s.delivered.length := by
    have hle := h.length_le
    have hlt := fileSize.toNat_lt
    rw [UInt32.toNat_ofNat']
    exact Nat.mod_eq_of_lt (by omega)
  have hm' : Mounted s.state.fs table := by rw [h.fs_eq]; exact hm
  have hst' : Stored s.state.fs table (s.state.files i).firstCluster (s.state.files i).fileSize.toNat
      chain := by
    rw [h.fs_eq, h.file]
    exact hst
  have hread := fat32Read_spec hm' disk (by rw [h.fs_eq]; exact hone) (by rw [h.fs_eq]; exact hspc) hst'
    (by rw [h.file]) (by rw [h.file, hpos]; exact h.length_le) stack hsize
  rw [hread, h.file, h.fs_eq]
  simp only [File.due, hpos, UInt32.ofNat_add]

omit hm hone hspc in
/-- The next bytes of the content are delivered, and the position moves behind them. -/
theorem Reading.advance {s : Session} (h : Reading disk fs i firstCluster fileSize chain s) (due : Nat)
    (hdue : s.delivered.length + due ≤ fileSize.toNat) :
    Reading disk fs i firstCluster fileSize chain
      ⟨s.state.setFile i ⟨firstCluster, fileSize, UInt32.ofNat (s.delivered.length + due), true⟩,
        s.delivered ++ ((content disk fs chain).drop s.delivered.length).take due⟩ := by
  have hsz := hst.size_le
  have hlen : (content disk fs chain).length = chain.length * fs.clusterSize :=
    length_blocks (length_clusterBytes disk fs) chain
  have hwritten : (((content disk fs chain).drop s.delivered.length).take due).length = due := by
    rw [List.length_take, List.length_drop]
    omega
  have happend : (s.delivered ++ ((content disk fs chain).drop s.delivered.length).take due).length =
      s.delivered.length + due := by
    rw [List.length_append, hwritten]
  refine ⟨h.fs_eq, ?_, ?_, ?_⟩
  · rw [happend]
    exact Function.update_self _ _ _
  · rw [happend]
    exact hdue
  · show s.delivered ++ _ = (content disk fs chain).take _
    rw [happend, List.take_add, ← h.delivered]

/-- One call keeps the handle reading. -/
theorem sessionStep_reading (s : Session) (c : SessionCall) (s' : Session)
    (h : Reading disk fs i firstCluster fileSize chain s)
    (hstep : sessionStep disk i.val s c = some s') :
    Reading disk fs i firstCluster fileSize chain s' := by
  cases c with
  | read stack size =>
    simp only [sessionStep] at hstep
    split at hstep
    swap
    · cases hstep
    rename_i hsize
    rw [Option.some.injEq, h.read hm hone hspc hst stack hsize] at hstep
    subst hstep
    have hle := h.length_le
    exact h.advance hst _ (by omega)
  | openOther stack fuel filename =>
    simp only [sessionStep, Option.map_eq_some_iff] at hstep
    rcases hstep with ⟨⟨ret, st⟩, hopen, rfl⟩
    rcases fat32Open_frame hopen with ⟨hfs, hfiles⟩
    exact h.frame hfs (hfiles i (by rw [h.file])) rfl
  | readOther stack fd nonNull size =>
    simp only [sessionStep] at hstep
    split at hstep
    · cases hstep
    rename_i hne
    rw [Option.some.injEq] at hstep
    subst hstep
    rcases fat32Read_frame (imageAhci disk) stack fd nonNull size s.state hne with ⟨hfs, hfile⟩
    exact h.frame hfs hfile rfl
  | closeOther fd =>
    simp only [sessionStep] at hstep
    split at hstep
    · cases hstep
    rename_i hne
    rw [Option.some.injEq] at hstep
    subst hstep
    rcases fat32Close_frame fd s.state hne with ⟨hfs, hfile⟩
    exact h.frame hfs hfile rfl

end Run

/-- What a reader of the handle sees: a prefix of the file so far, and with the next read the part
of the file that follows. -/
structure Reproduced (disk : UInt32 → Nat → UInt8) (fs : Fs) (fd : Int) (fileSize : Nat)
    (chain : List UInt32) (s : Session) : Prop where
  sofar : s.delivered = ((content disk fs chain).take fileSize).take s.delivered.length
  position : ∀ i, handle? fd = some i →
    (s.state.files i).currentPosition.toNat = s.delivered.length ∧ s.delivered.length ≤ fileSize
  next : ∀ stack size, size.toNat < 2 ^ 31 →
    (fat32Read (imageAhci disk) stack fd true size s.state).ret =
      (min size.toNat (fileSize - s.delivered.length) : Nat) ∧
    s.delivered ++ (fat32Read (imageAhci disk) stack fd true size s.state).written =
      ((content disk fs chain).take fileSize).take
        (s.delivered.length + min size.toNat (fileSize - s.delivered.length))
  others : ∀ stack size (j : Fin maxFiles), fd ≠ j.val →
    (fat32Read (imageAhci disk) stack fd true size s.state).state.files j = s.state.files j

theorem Reading.reproduced {disk : UInt32 → Nat → UInt8} {fs : Fs} {table : Nat → UInt8}
    {i : Fin maxFiles} {firstCluster fileSize : UInt32} {chain : List UInt32} (hm : Mounted fs table)
    (hone : 1 ≤ fs.sectorsPerCluster.toNat) (hspc : fs.sectorsPerCluster.toNat ≤ 8)
    (hst : Stored fs table firstCluster fileSize.toNat chain) {s : Session}
    (h : Reading disk fs i firstCluster fileSize chain s) :
    Reproduced disk fs i.val fileSize.toNat chain s := by
  have hle := h.length_le
  refine ⟨?_, ?_, ?_, ?_⟩
  · rw [List.take_take, Nat.min_eq_left hle]
    exact h.delivered
  · intro j hj
    have hji : j = i := by
      rw [handle?_val, Option.some.injEq] at hj
      exact hj.symm
    have hlt := fileSize.toNat_lt
    refine ⟨?_, hle⟩
    rw [hji, h.file]
    show (UInt32.ofNat s.delivered.length).toNat = _
    rw [UInt32.toNat_ofNat']
    exact Nat.mod_eq_of_lt (by omega)
  · intro stack size hsize
    rw [h.read hm hone hspc hst stack hsize]
    have hend : s.delivered.length + min size.toNat (fileSize.toNat - s.delivered.length) ≤
        fileSize.toNat := by omega
    refine ⟨rfl, ?_⟩
    rw [List.take_take, Nat.min_eq_left hend, List.take_add, ← h.delivered]
  · intro stack size j hj
    exact (fat32Read_frame (imageAhci disk) stack i.val true size s.state hj).2

/-- A handle that was opened for a directory entry. -/
theorem fat32Open_opened {ahci : Ahci} {stack : Nat → UInt8} {fuel : Nat} {name : List UInt8}
    {s s' : State} {fd : Int} (h : fat32Open ahci stack fuel (some name) s = some (fd, s')) (hfd : 0 ≤ fd) :
    ∃ i : Fin maxFiles, ∃ entry, fd = i.val ∧
      fat32FindInDirectory ahci stack fuel s.fs s.fs.rootDirCluster name = some (some entry) ∧
      s' = s.setFile i (openedFile entry) := by
  rcases fat32Open_cases h with ⟨rfl, -⟩ | ⟨name', i, entry, hname, -, hfind, hret, hs'⟩
  · omega
  · cases hname
    exact ⟨i, entry, hret, hfind, hs'⟩

/-- Sequential reads of a file on a volume that `fat32_initialize` mounted, whatever is done to other
handles in between, reproduce the file. -/
theorem sequential_reads {disk : UInt32 → Nat → UInt8} {stack memory stack' : Nat → UInt8}
    {heapCalls : List Heap.Call} {heap : HeapState} {s₀ s₁ s₂ : State} {files : Fin maxFiles → File}
    {fuel : Nat} {name : List UInt8} {fd : Int} {entry : DirEntry} {table : Nat → UInt8}
    {chain : List UInt32} {calls : List SessionCall} {s : Session}
    (hinit : fat32Initialize (imageAhci disk) stack memory (Heap.run heapCalls).heap s₀ = (true, heap, s₁))
    (hone : 1 ≤ s₁.fs.sectorsPerCluster.toNat) (hspc : s₁.fs.sectorsPerCluster.toNat ≤ 8)
    (hopen : fat32Open (imageAhci disk) stack' fuel (some name) ⟨s₁.fs, files⟩ = some (fd, s₂))
    (hfd : 0 ≤ fd)
    (hfind : fat32FindInDirectory (imageAhci disk) stack' fuel s₁.fs s₁.fs.rootDirCluster name =
      some (some entry))
    (htable : s₁.fs.fatTable = some table)
    (hst : Stored s₁.fs table (fat32MakeCluster entry) entry.fileSize.toNat chain)
    (hrun : Run.exec (sessionStep disk fd) ⟨s₂, []⟩ calls = some s) :
    Reproduced disk s₁.fs fd entry.fileSize.toNat chain s := by
  have hm : Mounted s₁.fs table := by
    rcases fat32Initialize_mounted (run_refines heapCalls).1.inv hinit with ⟨table', hm⟩
    have heq : table' = table := by
      have := hm.table.symm.trans htable
      rwa [Option.some.injEq] at this
    exact heq ▸ hm
  rcases fat32Open_opened hopen hfd with ⟨i, entry', rfl, hfind', rfl⟩
  have hentry : entry' = entry := by
    have := hfind'.symm.trans hfind
    rwa [Option.some.injEq, Option.some.injEq] at this
  subst hentry
  -- the handle just opened has delivered nothing
  have hstart : Reading disk s₁.fs i (fat32MakeCluster entry') entry'.fileSize chain
      ⟨State.setFile ⟨s₁.fs, files⟩ i (openedFile entry'), []⟩ :=
    ⟨rfl, Function.update_self _ _ _, Nat.zero_le _, rfl⟩
  have hend := Run.exec_preserves (Reading disk s₁.fs i (fat32MakeCluster entry') entry'.fileSize chain)
    (sessionStep_reading hm hone hspc hst) hstart hrun
  exact hend.reproduced hm hone hspc hst

/-- A volume with one sector per cluster: the boot sector, a FAT of one sector, the root directory
with the file `A` of 5 bytes, and its one cluster. -/
def tinyDisk (lba : UInt32) (j : Nat) : UInt8 :=
  if lba = 0 then
    if j = 12 then 2 else if j = 13 ∨ j = 14 ∨ j = 16 ∨ j = 36 then 1 else if j = 44 then 2 else 0
  else if lba = 1 then if j = 11 ∨ j = 15 then 0x0F else if 8 ≤ j ∧ j < 15 then 0xFF else 0
  else if lba = 2 then
    if j = 0 then 0x41 else if j < 11 then 0x20 else if j = 26 then 3 else if j = 28 then 5 else 0
  else UInt8.ofNat j

/-- `fat32_initialize` on this volume, with a fresh heap. -/
def tinyMount : Bool × HeapState × State :=
  fat32Initialize (imageAhci tinyDisk) (fun _ => 0) (fun _ => 0) (Heap.run []).heap initialState

/-- The entry of `A`. -/
def tinyEntry : DirEntry := ⟨0x41 :: List.replicate 10 0x20, 0, 0, 3, 5⟩

theorem sequential_reads_tiny : ∃ s₂ s,
    fat32Open (imageAhci tinyDisk) (fun _ => 0) 1 (some [0x61]) tinyMount.2.2 = some (0, s₂) ∧
    Run.exec (sessionStep tinyDisk 0) ⟨s₂, []⟩ [.read (fun _ => 0) 3, .closeOther 1, .read (fun _ => 0) 9] =
      some s ∧
    Reproduced tinyDisk tinyMount.2.2.fs 0 5 [3] s := by
  have hok : tinyMount.1 = true := by decide +kernel
  have hinit : tinyMount = (true, tinyMount.2.1, tinyMount.2.2) := Prod.ext hok rfl
  have hopens : (fat32Open (imageAhci tinyDisk) (fun _ => 0) 1 (some [0x61]) tinyMount.2.2).map Prod.fst =
      some 0 := by decide +kernel
  rcases Option.map_eq_some_iff.1 hopens with ⟨⟨fd, s₂⟩, hopen, hfd⟩
  have hzero : fd = 0 := hfd
  subst hzero
  have hfind : fat32FindInDirectory (imageAhci tinyDisk) (fun _ => 0) 1 tinyMount.2.2.fs
      tinyMount.2.2.fs.rootDirCluster [0x61] = some (some tinyEntry) := by decide +kernel
  have heoc : tinyMount.2.2.fs.fatTable.map (fun t => decide (fat32Eoc ≤ tableEntry t 3)) = some true := by
    decide +kernel
  rcases Option.map_eq_some_iff.1 heoc with ⟨table, htable, hlast⟩
  have hin : Inside tinyMount.2.2.fs 3 := by
    have hbytes : tinyMount.2.2.fs.fatSizeBytes = 512 := by decide +kernel
    unfold Inside
    rw [hbytes]
    decide
  have hst : Stored tinyMount.2.2.fs table (fat32MakeCluster tinyEntry) tinyEntry.fileSize.toNat [3] := by
    have hspc : tinyMount.2.2.fs.sectorsPerCluster = 1 := by decide +kernel
    refine ⟨Or.inr (Chain.last hin (of_decide_eq_true hlast)), ?_⟩
    unfold Fs.clusterSize
    rw [hspc]
    decide
  have hruns : (Run.exec (sessionStep tinyDisk 0) ⟨s₂, []⟩
      [.read (fun _ => 0) 3, .closeOther 1, .read (fun _ => 0) 9]).isSome = true := rfl
  rcases Option.isSome_iff_exists.1 hruns with ⟨s, hrun⟩
  exact ⟨s₂, s, hopen, hrun, sequential_reads hinit (by decide +kernel) (by decide +kernel) hopen le_rfl
    hfind htable hst hrun⟩

end CosKernel.Fat32
