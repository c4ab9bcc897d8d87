import CosKernel.Fat32.Directory

/-!
# The log of lookups is complete

Two tables that agree on the entries in the log of a call are the same to it: the
driver looked up no other entry. So what is said about the lookups in the log is
said about all reads of the loaded FAT.
-/

namespace CosKernel.Fat32

variable {fs : Fs} {table' : Nat → UInt8}

/-- The volume with another table. -/
def Fs.withTable (fs : Fs) (table : Nat → UInt8) : Fs := { fs with fatTable := some table }

/-- The two tables have the same entry for every cluster looked up. -/
def AgreeOn (fs : Fs) (table' : Nat → UInt8) (log : List Access) : Prop :=
  ∀ c, .lookup c ∈ log → fat32GetFatEntry (fs.withTable table') c = fat32GetFatEntry fs c

theorem AgreeOn.mono {log log' : List Access} (h : AgreeOn fs table' log) (hsub : ∀ a ∈ log', a ∈ log) :
    AgreeOn fs table' log' := fun c hc => h c (hsub _ hc)

theorem AgreeOn.follow {log : List Access} (h : AgreeOn fs table' log) {c : UInt32} (hc : .lookup c ∈ log) :
    fat32FollowClusterChain (fs.withTable table') c = fat32FollowClusterChain fs c := by
  unfold fat32FollowClusterChain
  rw [h c hc]

section Turn

variable {ahci : Ahci} {fuel n : Nat} {buffer buffer' : Nat → UInt8} {c : UInt32}

/-- A scan that leaves a cluster looks up where, and the rest of the log is that of the rest. -/
theorem AgreeOn.leave {slots : (Nat → UInt8) → List Access} {stops : (Nat → UInt8) → Bool}
    (h : AgreeOn fs table' (directoryLog ahci fs slots stops (fuel + 1) n buffer c)) (hlinked : Linked c)
    (hread : fat32ReadSectors ahci n (fat32ClusterLba fs c) fs.sectorsPerCluster buffer = (true, buffer'))
    (hgo : stops buffer' = false) :
    fat32FollowClusterChain (fs.withTable table') c = fat32FollowClusterChain fs c ∧
      AgreeOn fs table' (directoryLog ahci fs slots stops fuel (n + fs.sectorsPerCluster.toNat) buffer'
        (fat32FollowClusterChain fs c)) := by
  constructor
  · exact h.follow (mem_directoryLog_succ.2 ⟨hlinked, Or.inr ⟨buffer', hread, Or.inr ⟨hgo, Or.inl rfl⟩⟩⟩)
  · apply h.mono
    intro a ha
    exact mem_directoryLog_succ.2 ⟨hlinked, Or.inr ⟨buffer', hread, Or.inr ⟨hgo, Or.inr ha⟩⟩⟩

end Turn

theorem findFrom_agree (ahci : Ahci) (filename : List UInt8) (fuel n : Nat) (buffer : Nat → UInt8)
    (c : UInt32)
    (h : AgreeOn fs table' (directoryLog ahci fs (fun buffer => scanLog filename buffer (clusterBufferSize / 32) 0)
      (fun buffer => scanBuffer buffer filename (clusterBufferSize / 32) 0 ≠ .nextCluster) fuel n buffer c)) :
    findFrom ahci (fs.withTable table') filename fuel n buffer c =
      findFrom ahci fs filename fuel n buffer c := by
  induction fuel generalizing n buffer c with
  | zero => rfl
  | succ fuel ih =>
    by_cases hlinked : Linked c
    swap
    · rw [findFrom_ended _ _ _ hlinked, findFrom_ended _ _ _ hlinked]
    rcases hread : fat32ReadSectors ahci n (fat32ClusterLba fs c) fs.sectorsPerCluster buffer with
      ⟨_ | _, buffer'⟩
    · have hfail := congrArg Prod.fst hread
      have hfail' : (fat32ReadSectors ahci n (fat32ClusterLba (fs.withTable table') c)
        (fs.withTable table').sectorsPerCluster buffer).1 = false := hfail
      rw [findFrom_failed hlinked hfail, findFrom_failed hlinked hfail']
    have hread' : fat32ReadSectors ahci n (fat32ClusterLba (fs.withTable table') c)
      (fs.withTable table').sectorsPerCluster buffer = (true, buffer') := hread
    rw [findFrom_read hlinked hread, findFrom_read hlinked hread']
    rcases hscan : scanBuffer buffer' filename (clusterBufferSize / 32) 0 with entry | _ | _
    · rfl
    · rfl
    · rcases h.leave hlinked hread (by simp [hscan]) with ⟨hfollow, hrest⟩
      rw [hfollow]
      exact ih _ _ _ hrest

theorem enumerateFrom_agree (ahci : Ahci) (fuel n : Nat) (buffer : Nat → UInt8) (c : UInt32)
    (calls : List (List UInt8 × UInt32))
    (h : AgreeOn fs table' (directoryLog ahci fs (fun buffer => listLog buffer (clusterBufferSize / 32) 0)
      (fun buffer => (listBuffer buffer (clusterBufferSize / 32) 0).1) fuel n buffer c)) :
    enumerateFrom ahci (fs.withTable table') fuel n buffer c calls =
      enumerateFrom ahci fs fuel n buffer c calls := by
  induction fuel generalizing n buffer c calls with
  | zero => rfl
  | succ fuel ih =>
    by_cases hlinked : Linked c
    swap
    · rw [enumerateFrom_ended _ _ hlinked, enumerateFrom_ended _ _ hlinked]
    rcases hread : fat32ReadSectors ahci n (fat32ClusterLba fs c) fs.sectorsPerCluster buffer with
      ⟨_ | _, buffer'⟩
    · have hfail := congrArg Prod.fst hread
      have hfail' : (fat32ReadSectors ahci n (fat32ClusterLba (fs.withTable table') c)
        (fs.withTable table').sectorsPerCluster buffer).1 = false := hfail
      rw [enumerateFrom_failed hlinked hfail, enumerateFrom_failed hlinked hfail']
    have hread' : fat32ReadSectors ahci n (fat32ClusterLba (fs.withTable table') c)
      (fs.withTable table').sectorsPerCluster buffer = (true, buffer') := hread
    rw [enumerateFrom_read hlinked hread, enumerateFrom_read hlinked hread']
    by_cases hmark : Marked buffer' (clusterBufferSize / 32) 0
    · rw [if_pos hmark, if_pos hmark]
    · rcases h.leave hlinked hread (listBuffer_fst_eq_false hmark) with ⟨hfollow, hrest⟩
      rw [if_neg hmark, if_neg hmark, hfollow]
      exact ih _ _ _ _ hrest

theorem skipClusters_agree (q : Nat) (c : UInt32) (h : AgreeOn fs table' (skipLog fs q c)) :
    skipClusters (fs.withTable table') q c = skipClusters fs q c := by
  induction q generalizing c with
  | zero => rfl
  | succ q ih =>
    unfold skipLog at h
    unfold skipClusters
    by_cases heoc : fat32IsEoc c = true
    · rw [if_pos heoc, if_pos heoc]
    · rw [if_neg heoc] at h
      rw [if_neg heoc, if_neg heoc, h.follow List.mem_cons_self]
      exact ih _ (h.mono fun a ha => List.mem_cons_of_mem _ ha)

theorem readLoop_agree (ahci : Ahci) (size fuel n : Nat) (buffer : Nat → UInt8) (count offset : Nat)
    (c : UInt32) (written : List UInt8) (position : UInt32)
    (h : AgreeOn fs table' (readLoopLog ahci fs size fuel n buffer count offset c)) :
    readLoop ahci (fs.withTable table') size fuel n buffer count offset c written position =
      readLoop ahci fs size fuel n buffer count offset c written position := by
  induction fuel generalizing n buffer count offset c written position with
  | zero => rfl
  | succ fuel ih =>
    by_cases hgo : 0 < count ∧ Linked c
    swap
    · rw [readLoop, readLoop, if_neg hgo, if_neg hgo]
    rw [readLoop, readLoop, if_pos hgo, if_pos hgo]
    rcases hread : fat32ReadSectors ahci n (fat32ClusterLba fs c) fs.sectorsPerCluster buffer with
      ⟨_ | _, buffer'⟩
    · have hread' : fat32ReadSectors ahci n (fat32ClusterLba (fs.withTable table') c)
        (fs.withTable table').sectorsPerCluster buffer = (false, buffer') := hread
      rw [hread']
    have hread' : fat32ReadSectors ahci n (fat32ClusterLba (fs.withTable table') c)
      (fs.withTable table').sectorsPerCluster buffer = (true, buffer') := hread
    rw [hread']
    have hrest := h.mono fun a ha => mem_readLoopLog_succ.2 ⟨hgo, Or.inr ⟨buffer', hread, Or.inr (Or.inr ha)⟩⟩
    simp only
    by_cases hedge : (offset + min (size - offset % size) count) % size = 0
    · -- the next cluster is looked up at the end of this one
      have hfollow := h.follow
        (mem_readLoopLog_succ.2 ⟨hgo, Or.inr ⟨buffer', hread, Or.inr (Or.inl ⟨hedge, rfl⟩)⟩⟩)
      rw [if_pos hedge] at hrest
      rw [if_pos hedge, if_pos hedge, hfollow]
      exact ih _ _ _ _ _ _ _ hrest
    · rw [if_neg hedge] at hrest
      rw [if_neg hedge, if_neg hedge]
      exact ih _ _ _ _ _ _ _ hrest

/-- The state with another table. -/
def State.withTable (s : State) (table : Nat → UInt8) : State := ⟨s.fs.withTable table, s.files⟩

section Calls

variable {s : State} (ahci : Ahci) (stack : Nat → UInt8)

theorem fat32FindInDirectory_agree (fuel : Nat) (c : UInt32) (filename : List UInt8)
    (h : AgreeOn fs table' (findLog ahci stack fuel fs c filename)) :
    fat32FindInDirectory ahci stack fuel (fs.withTable table') c filename =
      fat32FindInDirectory ahci stack fuel fs c filename :=
  findFrom_agree ahci filename fuel 0 stack c h

theorem fat32EnumerateRoot_agree (fuel : Nat) (nonNull : Bool)
    (h : AgreeOn s.fs table' (enumerateLog ahci stack fuel nonNull s)) :
    fat32EnumerateRoot ahci stack fuel nonNull (s.withTable table') =
      fat32EnumerateRoot ahci stack fuel nonNull s := by
  unfold enumerateLog at h
  unfold fat32EnumerateRoot
  by_cases hnone : (!nonNull || decide (s.fs.rootDirCluster < 2)) = true
  · have hnone' : (!nonNull || decide ((s.withTable table').fs.rootDirCluster < 2)) = true := hnone
    rw [if_pos hnone, if_pos hnone']
  · have hsome' : ¬ (!nonNull || decide ((s.withTable table').fs.rootDirCluster < 2)) = true := hnone
    rw [if_neg hnone] at h
    rw [if_neg hnone, if_neg hsome']
    exact enumerateFrom_agree ahci fuel 0 stack s.fs.rootDirCluster [] h

theorem fat32Read_agree (fd : Int) (nonNull : Bool) (size : UInt64) (hne : s.fs.sectorsPerCluster * 512 ≠ 0)
    (h : AgreeOn s.fs table' (readLog ahci stack fd nonNull size s)) :
    fat32Read ahci stack fd nonNull size (s.withTable table') =
      ⟨(fat32Read ahci stack fd nonNull size s).ret, (fat32Read ahci stack fd nonNull size s).written,
        (fat32Read ahci stack fd nonNull size s).state.withTable table'⟩ := by
  unfold readLog at h
  unfold fat32Read
  rcases hh : handle? fd with _ | i
  · rfl
  have hfiles : (s.withTable table').files i = s.files i := rfl
  simp only [hh, hfiles] at h ⊢
  by_cases hopen : (!(s.files i).isOpen || !nonNull) = true
  · simp only [if_pos hopen]
  by_cases hend : (s.files i).fileSize ≤ (s.files i).currentPosition
  · simp only [if_neg hopen, if_pos hend]
  simp only [if_neg hopen, if_neg hend, if_neg hne] at h ⊢
  -- first the clusters that are skipped, then those that are read
  have hskip := skipClusters_agree _ _ (h.mono fun a ha => List.mem_append_left _ ha)
  have hloop := h.mono fun a ha => List.mem_append_right _ ha
  have hfs : (s.withTable table').fs = s.fs.withTable table' := rfl
  have hspc : (s.fs.withTable table').sectorsPerCluster = s.fs.sectorsPerCluster := rfl
  simp only [hfs, hspc, hskip, readLoop_agree _ _ _ _ _ _ _ _ _ _ hloop]
  rfl

end Calls

end CosKernel.Fat32
