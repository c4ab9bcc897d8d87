import CosKernel.Fat32.Directory

/-!
# Which FAT entries are looked up

`fat32_load_fat` records the size of the table, and `fat32_get_fat_entry` does not
look at it: the cluster numbers come from directory entries and from the table
itself, and the loops only stop at numbers below 2 and at the end mark. What is
looked up, over all calls that can follow a mount, are the clusters that a listing
of the root directory passes (`Passed`), and of every file that can be opened the
clusters that the file fills (`link`).
-/

namespace CosKernel.Fat32

open Bytes Heap

/-! ## Lookups -/

/-- The entry of the cluster is inside of the loaded table. -/
def InTable (fs : Fs) (c : UInt32) : Prop := c.toNat * 4 + 4 ≤ fs.fatSizeBytes.toNat

/-- A lookup is one of an entry inside of the table. -/
def Access.InTable (fs : Fs) (a : Access) : Prop := ∀ c, a = .lookup c → Fat32.InTable fs c

/-- Whatever is called on a volume on this disk, it looks up entries inside of the table only. -/
def LookupsInside (disk : UInt32 → Nat → UInt8) (s : State) : Prop :=
  ∀ calls s', (∀ c ∈ calls, c.On disk) → Run.exec volumeStep s calls = some s' →
    ∀ c, c.On disk → ∀ a ∈ callLog s' c, a.InTable s'.fs

/-! ## The root directory -/

section Directory

variable (disk : UInt32 → Nat → UInt8) (fs : Fs) (stack : Nat → UInt8)

/-- A scan of a directory from the first of these clusters on passes the second: it follows the chain
there, and finds no end marker up to it. -/
inductive Passed : UInt32 → UInt32 → Prop where
  | here {c : UInt32} (hlinked : Linked c)
      (hno : ¬ Marked (view disk fs stack c) (clusterBufferSize / 32) 0) : Passed c c
  | later {c x : UInt32} (hlinked : Linked c)
      (hno : ¬ Marked (view disk fs stack c) (clusterBufferSize / 32) 0)
      (h : Passed (fat32FollowClusterChain fs c) x) : Passed c x

/-- The live entry of this name in the directory from this cluster on, the first one if there are
several. -/
inductive Named (filename : List UInt8) : UInt32 → DirEntry → Prop where
  | here {c : UInt32} {entry : DirEntry} (hlinked : Linked c)
      (hfind : (liveEntries (view disk fs stack c) (clusterBufferSize / 32) 0).find?
        (fun entry => fat32CompareEntryName entry filename) = some entry) : Named filename c entry
  | later {c : UInt32} {entry : DirEntry} (hlinked : Linked c)
      (hnone : (liveEntries (view disk fs stack c) (clusterBufferSize / 32) 0).find?
        (fun entry => fat32CompareEntryName entry filename) = none)
      (hno : ¬ Marked (view disk fs stack c) (clusterBufferSize / 32) 0)
      (h : Named filename (fat32FollowClusterChain fs c) entry) : Named filename c entry

end Directory

section Scans

variable {disk : UInt32 → Nat → UInt8} {fs : Fs} {stack : Nat → UInt8}
  (hspc : fs.sectorsPerCluster.toNat ≤ 255)
include hspc

/-- A scan looks up the clusters it passes. -/
theorem passed_of_lookup {slots : (Nat → UInt8) → List Access} {stops : (Nat → UInt8) → Bool}
    (hscanner : Scanner slots stops) {fails : Nat → Bool} {fuel n : Nat} {buffer : Nat → UInt8}
    (hstale : ∀ c', view disk fs buffer c' = view disk fs stack c') {c x : UInt32}
    (h : .lookup x ∈ directoryLog (faulty disk fails) fs slots stops fuel n buffer c) :
    Passed disk fs stack c x := by
  induction fuel generalizing n buffer c with
  | zero => cases h
  | succ fuel ih =>
    rcases mem_directoryLog_succ.1 h with ⟨hlinked, h | ⟨buffer', hread, h⟩⟩
    · rcases eq_sector_of_mem h with ⟨o, heq⟩
      cases heq
    -- the lookup is that of this cluster, or of one further on
    rw [eq_view_of_read hspc hread, hstale] at h
    rcases h with h | ⟨hnext, heq | h⟩
    · rcases eq_slot_of_mem (hscanner.looks _ _ h) with ⟨o, heq⟩
      cases heq
    · cases heq
      exact .here hlinked (hscanner.leaves _ hnext)
    · exact .later hlinked (hscanner.leaves _ hnext) (ih (fun c' => view_view stack c c') h)

/-- A listing without failures looks up every cluster that can be passed. -/
theorem lookup_of_passed {c x : UInt32} (h : Passed disk fs stack c x) (n : Nat) {buffer : Nat → UInt8}
    (hstale : ∀ c', view disk fs buffer c' = view disk fs stack c') :
    ∃ fuel, .lookup x ∈ directoryLog (faulty disk fun _ => false) fs
      (fun buffer => listLog buffer (clusterBufferSize / 32) 0)
      (fun buffer => (listBuffer buffer (clusterBufferSize / 32) 0).1) fuel n buffer c := by
  induction h generalizing n buffer with
  | @here c hlinked hno =>
    have hread := fat32ReadSectors_works disk hspc n c buffer
    rw [hstale] at hread
    refine ⟨1, mem_directoryLog_succ.2 ⟨hlinked, Or.inr ⟨_, hread, Or.inr ⟨?_, Or.inl rfl⟩⟩⟩⟩
    exact listBuffer_fst_eq_false hno
  | @later c x hlinked hno _ ih =>
    have hread := fat32ReadSectors_works disk hspc n c buffer
    rw [hstale] at hread
    rcases ih (n + fs.sectorsPerCluster.toNat) (fun c' => view_view stack c c') with ⟨fuel, hrest⟩
    refine ⟨fuel + 1, mem_directoryLog_succ.2 ⟨hlinked, Or.inr ⟨_, hread, Or.inr ⟨?_, Or.inr hrest⟩⟩⟩⟩
    exact listBuffer_fst_eq_false hno

/-- What is found has the name. -/
theorem named_of_find {filename : List UInt8} {fails : Nat → Bool} {fuel n : Nat} {buffer : Nat → UInt8}
    (hstale : ∀ c', view disk fs buffer c' = view disk fs stack c') {c : UInt32} {entry : DirEntry}
    (h : findFrom (faulty disk fails) fs filename fuel n buffer c = some (some entry)) :
    Named disk fs stack filename c entry := by
  induction fuel generalizing n buffer c with
  | zero =>
    rw [findFrom] at h
    split at h
    · cases h
    · cases h
  | succ fuel ih =>
    by_cases hlinked : Linked c
    swap
    · rw [findFrom_ended _ _ _ hlinked] at h
      cases h
    rcases fat32ReadSectors_view disk hspc fails n c with hfail | hview
    · rw [findFrom_failed hlinked (hfail buffer)] at h
      cases h
    rw [findFrom_read hlinked (hview buffer), hstale, scanBuffer_eq] at h
    rcases hfind : (liveEntries (view disk fs stack c) (clusterBufferSize / 32) 0).find?
      (fun entry => fat32CompareEntryName entry filename) with _ | found
    · -- nothing in this cluster: it is the last one, or the search goes on
      rw [hfind] at h
      by_cases hmark : Marked (view disk fs stack c) (clusterBufferSize / 32) 0
      · simp [scanEnd, findNext, hmark] at h
      · simp only [scanEnd, hmark, decide_false, Bool.false_eq_true, if_false, findNext] at h
        exact .later hlinked hfind hmark (ih (fun c' => view_view stack c c') h)
    · rw [hfind] at h
      cases h
      exact .here hlinked hfind

/-- What has the name is found. -/
theorem find_of_named {filename : List UInt8} {c : UInt32} {entry : DirEntry}
    (h : Named disk fs stack filename c entry) (n : Nat) {buffer : Nat → UInt8}
    (hstale : ∀ c', view disk fs buffer c' = view disk fs stack c') :
    ∃ fuel, findFrom (faulty disk fun _ => false) fs filename fuel n buffer c = some (some entry) := by
  induction h generalizing n buffer with
  | @here c entry hlinked hfind =>
    refine ⟨1, ?_⟩
    rw [findFrom_read hlinked (fat32ReadSectors_works disk hspc n c buffer), hstale, scanBuffer_eq, hfind]
    rfl
  | @later c entry hlinked hnone hno _ ih =>
    rcases ih (n + fs.sectorsPerCluster.toNat) (fun c' => view_view stack c c') with ⟨fuel, hrest⟩
    refine ⟨fuel + 1, ?_⟩
    rw [findFrom_read hlinked (fat32ReadSectors_works disk hspc n c buffer), hstale, scanBuffer_eq, hnone]
    simp only [scanEnd, hno, decide_false, Bool.false_eq_true, if_false, findNext]
    exact hrest

end Scans

/-! ## Files -/

/-- Link `k` of the chain from a cluster. -/
def link (fs : Fs) (c : UInt32) (k : Nat) : UInt32 := (fat32FollowClusterChain fs)^[k] c

/-- The clusters that are followed have entries in the table: those that a listing of the root
directory passes, whatever the stack held, and those that a file fills, for every file that can be
found, as far as its chain leads. -/
structure ChainsInside (disk : UInt32 → Nat → UInt8) (fs : Fs) : Prop where
  directory : ∀ stack x, Passed disk fs stack fs.rootDirCluster x → InTable fs x
  files : ∀ stack filename entry, Named disk fs stack filename fs.rootDirCluster entry →
    ∀ k < entry.fileSize.toNat / fs.clusterSize,
      (∀ i ≤ k, Linked (link fs (fat32MakeCluster entry) i)) → InTable fs (link fs (fat32MakeCluster entry) k)

section Links

variable {fs : Fs} {first : UInt32}

theorem link_succ (k : Nat) : link fs first (k + 1) = fat32FollowClusterChain fs (link fs first k) :=
  Function.iterate_succ_apply' _ _ _

theorem link_follow (k : Nat) : link fs (fat32FollowClusterChain fs first) k = link fs first (k + 1) := rfl

theorem not_eoc_follow (fs : Fs) (c : UInt32) : fat32IsEoc (fat32FollowClusterChain fs c) = false := by
  unfold fat32FollowClusterChain
  simp only
  split
  · rfl
  · rename_i h
    simpa using h

/-- Only a first cluster that ends the chain stops the loop that skips. -/
theorem skipClusters_eq (fs : Fs) (q : Nat) (c : UInt32) :
    skipClusters fs q c = if fat32IsEoc c then c else link fs c q := by
  induction q generalizing c with
  | zero => simp [skipClusters, link]
  | succ q ih =>
    rw [skipClusters, ih, not_eoc_follow, link_follow]
    simp

/-- Skipping along linked clusters leads to the link. -/
theorem skipClusters_link {q : Nat} (h : ∀ k < q, Linked (link fs first k)) :
    skipClusters fs q first = link fs first q := by
  rw [skipClusters_eq]
  cases q with
  | zero => exact ite_self first
  | succ q =>
    have hfirst : Linked first := h 0 (Nat.succ_pos q)
    exact if_neg hfirst.2

theorem skipLog_lookups {q : Nat} {x : UInt32} (h : .lookup x ∈ skipLog fs q first) :
    ∃ k < q, x = link fs first k := by
  induction q generalizing first with
  | zero => cases h
  | succ q ih =>
    unfold skipLog at h
    split at h
    · cases h
    rcases List.mem_cons.1 h with heq | h
    · cases heq
      exact ⟨0, Nat.succ_pos q, rfl⟩
    · rcases ih h with ⟨k, hk, heq⟩
      exact ⟨k + 1, Nat.succ_lt_succ hk, heq⟩

/-- The cluster of the position after one turn of the loop of `fat32_read`. -/
theorem turn_div {size count : Nat} (offset : Nat) (hpos : 0 < size) (hcount : 0 < count) :
    (offset + min (size - offset % size) count) / size =
      if (offset + min (size - offset % size) count) % size = 0 then offset / size + 1
      else offset / size := by
  have hdiv := Nat.div_add_mod offset size
  have hmod := Nat.mod_lt offset hpos
  by_cases hend : size - offset % size ≤ count
  · -- the rest of the cluster is read
    have hsum : offset + (size - offset % size) = size * (offset / size + 1) := by
      rw [Nat.mul_succ]
      omega
    rw [Nat.min_eq_left hend, hsum, Nat.mul_mod_right, Nat.mul_div_cancel_left _ hpos, if_pos rfl]
  · have hsum : offset + count = offset % size + count + size * (offset / size) := by omega
    have hlt : offset % size + count < size := by omega
    rw [Nat.min_eq_right (by omega), hsum, Nat.add_mul_mod_self_left, Nat.mod_eq_of_lt hlt,
      Nat.add_mul_div_left _ _ hpos, Nat.div_eq_of_lt hlt, Nat.zero_add, if_neg (by omega)]

/-- One turn keeps the loop on the chain. -/
theorem turn_link {size offset count : Nat} {cluster : UInt32} (hpos : 0 < size) (hcount : 0 < count)
    (hcluster : cluster = link fs first (offset / size)) (hgo : Linked cluster)
    (hlinked : ∀ k < offset / size, Linked (link fs first k)) :
    (if (offset + min (size - offset % size) count) % size = 0 then fat32FollowClusterChain fs cluster
      else cluster) = link fs first ((offset + min (size - offset % size) count) / size) ∧
    ∀ k < (offset + min (size - offset % size) count) / size, Linked (link fs first k) := by
  rw [turn_div offset hpos hcount]
  split
  · refine ⟨?_, ?_⟩
    · rw [link_succ, hcluster]
    · intro k hk
      rcases Nat.lt_succ_iff_lt_or_eq.1 hk with hlt | rfl
      · exact hlinked k hlt
      · rw [← hcluster]
        exact hgo
  · exact ⟨hcluster, hlinked⟩

/-- The loop of `fat32_read` moves the position along linked clusters. -/
theorem readLoop_position (ahci : Ahci) {size : Nat} (hpos : 0 < size) (fuel n : Nat)
    (buffer : Nat → UInt8) (count offset : Nat) {cluster : UInt32} (written : List UInt8)
    (position : UInt32) (hcluster : cluster = link fs first (offset / size))
    (hlinked : ∀ k < offset / size, Linked (link fs first k)) :
    ∃ m ≤ count, (readLoop ahci fs size fuel n buffer count offset cluster written position).position =
        position + UInt32.ofNat m ∧
      ∀ k < (offset + m) / size, Linked (link fs first k) := by
  -- where the loop ends, the position stays
  have hstay : ∀ (count offset : Nat) (position : UInt32),
      (∀ k < offset / size, Linked (link fs first k)) →
      ∃ m ≤ count, position = position + UInt32.ofNat m ∧
        ∀ k < (offset + m) / size, Linked (link fs first k) := by
    intro count offset position hlinked
    exact ⟨0, Nat.zero_le count, (UInt32.add_zero position).symm, hlinked⟩
  induction fuel generalizing n buffer count offset cluster written position with
  | zero => exact hstay count offset position hlinked
  | succ fuel ih =>
    unfold readLoop
    split
    swap
    · exact hstay count offset position hlinked
    rename_i hgo
    rcases fat32ReadSectors ahci n (fat32ClusterLba fs cluster) fs.sectorsPerCluster buffer with
      ⟨_ | _, buffer'⟩
    · exact hstay count offset position hlinked
    · -- one turn, and the `m` bytes of the turns after it
      rcases turn_link hpos hgo.1 hcluster hgo.2 hlinked with ⟨hnext, hlinked'⟩
      rcases ih (n + fs.sectorsPerCluster.toNat) buffer' (count - min (size - offset % size) count)
        (offset + min (size - offset % size) count) _ _ hnext hlinked' with ⟨m, hm, hposition, hall⟩
      refine ⟨min (size - offset % size) count + m, by omega, ?_, ?_⟩
      · simp only
        rw [hposition, UInt32.add_assoc, ← UInt32.ofNat_add]
      · rw [← Nat.add_assoc]
        exact hall

/-- The lookups of the loop are those of clusters that the file fills. -/
theorem readLoopLog_lookups {ahci : Ahci} {size fileSize : Nat} (hpos : 0 < size) {fuel n : Nat}
    {buffer : Nat → UInt8} {count offset : Nat} {cluster x : UInt32}
    (hcluster : cluster = link fs first (offset / size))
    (hlinked : ∀ k < offset / size, Linked (link fs first k)) (hle : offset + count ≤ fileSize)
    (h : .lookup x ∈ readLoopLog ahci fs size fuel n buffer count offset cluster) :
    ∃ k < fileSize / size, x = link fs first k ∧ ∀ i ≤ k, Linked (link fs first i) := by
  induction fuel generalizing n buffer count offset cluster with
  | zero => cases h
  | succ fuel ih =>
    rcases mem_readLoopLog_succ.1 h with ⟨⟨hcount, hgo⟩, h | ⟨buffer', _, heq | ⟨hedge, heq⟩ | h⟩⟩
    · rcases eq_sector_of_mem h with ⟨o, heq⟩
      cases heq
    · cases heq
    · -- the end of a cluster was reached, so the file fills it
      cases heq
      have hdiv := turn_div offset hpos hcount
      rw [if_pos hedge] at hdiv
      have hmono : (offset + min (size - offset % size) count) / size ≤ fileSize / size :=
        Nat.div_le_div_right (by omega)
      refine ⟨offset / size, by omega, hcluster, ?_⟩
      intro i hi
      rcases Nat.lt_or_eq_of_le hi with hlt | rfl
      · exact hlinked i hlt
      · rw [← hcluster]
        exact hgo
    · rcases turn_link hpos hcount hcluster hgo hlinked with ⟨hnext, hlinked'⟩
      exact ih hnext hlinked' (by omega) h

end Links

/-! ## Runs -/

/-- An open handle: it is one of a file that can be found, and its position was reached along linked
clusters. -/
structure KnownFile (disk : UInt32 → Nat → UInt8) (fs : Fs) (file : File) : Prop where
  named : ∃ stack filename entry, Named disk fs stack filename fs.rootDirCluster entry ∧
    file.firstCluster = fat32MakeCluster entry ∧ file.fileSize = entry.fileSize
  position_le : 0 < fs.clusterSize → file.currentPosition.toNat ≤ file.fileSize.toNat
  linked : 0 < fs.clusterSize →
    ∀ k < file.currentPosition.toNat / fs.clusterSize, Linked (link fs file.firstCluster k)

/-- All open handles are such. -/
structure Known (disk : UInt32 → Nat → UInt8) (fs : Fs) (s : State) : Prop where
  fs_eq : s.fs = fs
  files : ∀ i, (s.files i).isOpen = true → KnownFile disk fs (s.files i)

section Runs

variable {disk : UInt32 → Nat → UInt8} {fs : Fs} (hspc : fs.sectorsPerCluster.toNat ≤ 255)

/-- A handle is written. -/
theorem Known.setFile {s : State} (h : Known disk fs s) (i : Fin maxFiles) {file : File}
    (hfile : file.isOpen = true → KnownFile disk fs file) : Known disk fs (s.setFile i file) := by
  refine ⟨h.fs_eq, ?_⟩
  intro j hj
  by_cases hij : j = i
  · subst hij
    have hself : (s.setFile j file).files j = file := Function.update_self _ _ _
    rw [hself] at hj ⊢
    exact hfile hj
  · rw [setFile_files_ne hij] at hj ⊢
    exact h.files j hj

/-- The loop of a read that stays within the file moves the position along linked clusters. -/
theorem KnownFile.moved {file : File} (h : KnownFile disk fs file) (hpos : 0 < fs.clusterSize) (ahci : Ahci)
    (stack : Nat → UInt8) {count : Nat} (hcount : file.currentPosition.toNat + count ≤ file.fileSize.toNat)
    {position : UInt32}
    (hposition : (readLoop ahci fs fs.clusterSize count 0 stack count file.currentPosition.toNat
      (skipClusters fs (file.currentPosition.toNat / fs.clusterSize) file.firstCluster) []
      file.currentPosition).position = position) :
    position.toNat ≤ file.fileSize.toNat ∧
      ∀ k < position.toNat / fs.clusterSize, Linked (link fs file.firstCluster k) := by
  rcases readLoop_position ahci hpos count 0 stack count file.currentPosition.toNat []
    file.currentPosition (skipClusters_link (h.linked hpos)) (h.linked hpos) with ⟨m, hm, hmoved, hall⟩
  -- the position stays in the file, so the 32-bit sum does not wrap
  have hlt := file.fileSize.toNat_lt
  have hsum : position.toNat = file.currentPosition.toNat + m := by
    rw [← hposition, hmoved, UInt32.toNat_add, UInt32.toNat_ofNat', Nat.mod_eq_of_lt (by omega : m < 2 ^ 32)]
    exact Nat.mod_eq_of_lt (by omega)
  rw [hsum]
  exact ⟨by omega, hall⟩

include hspc

theorem fat32Read_known {s : State} (h : Known disk fs s) (ahci : Ahci) (stack : Nat → UInt8) (fd : Int)
    (nonNull : Bool) (size : UInt64) : Known disk fs (fat32Read ahci stack fd nonNull size s).state := by
  rcases fat32Read_state ahci stack fd nonNull size s with hsame | ⟨i, p, -, hopen, hlt, hloop, hstate⟩
  · rw [hsame]
    exact h
  -- only this handle moves, and only its position changes
  have hknown := h.files i hopen
  rw [h.fs_eq, clusterSize_eq hspc] at hloop
  rw [hstate]
  generalize s.files i = file at hknown hlt hloop ⊢
  have hcount := file.due_le size (Nat.le_of_lt hlt)
  apply h.setFile i
  intro _
  refine ⟨hknown.named, ?_, ?_⟩
  · intro hpos
    exact (hknown.moved hpos ahci stack hcount (congrArg Progress.position hloop)).1
  · intro hpos
    exact (hknown.moved hpos ahci stack hcount (congrArg Progress.position hloop)).2

/-- Every call keeps the open handles known. -/
theorem volumeStep_known {s s' : State} {c : VolumeCall} (hon : c.On disk) (h : Known disk fs s)
    (hstep : volumeStep s c = some s') : Known disk fs s' := by
  cases c with
  | openFile ahci stack fuel filename =>
    rcases hon with ⟨fails, rfl⟩
    rcases Option.map_eq_some_iff.1 hstep with ⟨⟨ret, s''⟩, hopen, rfl⟩
    rcases fat32Open_cases hopen with ⟨-, rfl⟩ | ⟨name, i, entry, -, -, hfind, -, rfl⟩
    · exact h
    · -- the handle is at the start of an entry that was found
      rw [h.fs_eq] at hfind
      apply h.setFile i
      intro _
      refine ⟨⟨stack, name, entry, named_of_find hspc (fun _ => rfl) hfind, rfl, rfl⟩, ?_, ?_⟩
      · intro _
        exact Nat.zero_le _
      · intro _ k hk
        have hzero : (openedFile entry).currentPosition.toNat / fs.clusterSize = 0 := Nat.zero_div _
        omega
  | read ahci stack fd nonNull size =>
    cases hstep
    exact fat32Read_known hspc h ahci stack fd nonNull size
  | close fd =>
    cases hstep
    unfold fat32Close
    rcases handle? fd with _ | i
    · exact h
    · exact h.setFile i (by simp)
  | enumerateRoot ahci stack fuel nonNull =>
    rcases Option.map_eq_some_iff.1 hstep with ⟨_, _, rfl⟩
    exact h

omit hspc in
/-- The lookups of a read of such a handle. -/
theorem KnownFile.inTable (hin : ChainsInside disk fs) {file : File} (h : KnownFile disk fs file)
    (hpos : 0 < fs.clusterSize) {ahci : Ahci} {stack : Nat → UInt8} {count : Nat}
    (hcount : file.currentPosition.toNat + count ≤ file.fileSize.toNat) {x : UInt32}
    (hx : .lookup x ∈ skipLog fs (file.currentPosition.toNat / fs.clusterSize) file.firstCluster ∨
      .lookup x ∈ readLoopLog ahci fs fs.clusterSize count 0 stack count file.currentPosition.toNat
        (skipClusters fs (file.currentPosition.toNat / fs.clusterSize) file.firstCluster)) :
    InTable fs x := by
  have hlinked := h.linked hpos
  rcases h.named with ⟨stack', filename, entry, hnamed, hfirst, hsize⟩
  rw [hfirst] at hx hlinked
  rw [hsize] at hcount
  rcases hx with hx | hx
  · -- a cluster before the current position
    rcases skipLog_lookups hx with ⟨k, hk, rfl⟩
    have hmono : file.currentPosition.toNat / fs.clusterSize ≤ entry.fileSize.toNat / fs.clusterSize :=
      Nat.div_le_div_right (by omega)
    exact hin.files stack' filename entry hnamed k (by omega) fun i hi => hlinked i (by omega)
  · rcases readLoopLog_lookups hpos (skipClusters_link hlinked) hlinked hcount hx with ⟨k, hk, rfl, hall⟩
    exact hin.files stack' filename entry hnamed k hk hall

/-- Where the chains are inside of the table, so are the lookups of every call. -/
theorem callLog_inTable (hin : ChainsInside disk fs) {s : State} (h : Known disk fs s) {c : VolumeCall}
    (hon : c.On disk) : ∀ a ∈ callLog s c, a.InTable fs := by
  rintro _ ha x rfl
  cases c with
  | openFile ahci stack fuel filename =>
    rcases hon with ⟨fails, rfl⟩
    simp only [callLog] at ha
    split at ha
    · cases ha
    rename_i name
    split at ha
    · cases ha
    rw [h.fs_eq] at ha
    exact hin.directory stack x (passed_of_lookup hspc (scanner_find name) (fun _ => rfl) ha)
  | read ahci stack fd nonNull size =>
    have hspc' : s.fs.sectorsPerCluster.toNat ≤ 255 := by
      rw [h.fs_eq]
      exact hspc
    rcases mem_readLog hspc' ha with ⟨i, count, hopen, hpos, hcount, hx⟩
    rw [h.fs_eq] at hpos hx
    have hknown := h.files i hopen
    refine hknown.inTable hin hpos ?_ hx
    rw [hcount, (s.files i).due_eq size (hknown.position_le hpos)]
    exact (s.files i).due_le size (hknown.position_le hpos)
  | close fd => cases ha
  | enumerateRoot ahci stack fuel nonNull =>
    rcases hon with ⟨fails, rfl⟩
    simp only [callLog, enumerateLog] at ha
    split at ha
    · cases ha
    rw [h.fs_eq] at ha
    exact hin.directory stack x (passed_of_lookup hspc scanner_list (fun _ => rfl) ha)

variable (disk) in
/-- A read without failures looks up every cluster that the file fills. -/
theorem lookup_mem_readLoopLog (hpos : 0 < fs.clusterSize) {first : UInt32} (d q n : Nat) {count fuel : Nat}
    (buffer : Nat → UInt8) (hlinked : ∀ i ≤ q + d, Linked (link fs first i))
    (hcount : (d + 1) * fs.clusterSize ≤ count) (hfuel : count ≤ fuel) :
    .lookup (link fs first (q + d)) ∈ readLoopLog (faulty disk fun _ => false) fs fs.clusterSize fuel n
      buffer count (q * fs.clusterSize) (link fs first q) := by
  -- on the number of clusters between the one that is read and the one that is looked up
  induction d generalizing q n count fuel buffer with
  | zero =>
    rw [Nat.zero_add, Nat.one_mul] at hcount
    cases fuel with
    | zero => omega
    | succ fuel =>
      have hread := fat32ReadSectors_works disk hspc n (link fs first q) buffer
      refine mem_readLoopLog_succ.2 ⟨⟨by omega, hlinked q (by omega)⟩, Or.inr ⟨_, hread, Or.inr (Or.inl ⟨?_, rfl⟩)⟩⟩
      rw [Nat.mul_mod_left, Nat.sub_zero, Nat.min_eq_left hcount, Nat.add_mod_right, Nat.mul_mod_left]
  | succ d ih =>
    rw [Nat.succ_mul] at hcount
    cases fuel with
    | zero => omega
    | succ fuel =>
      have hread := fat32ReadSectors_works disk hspc n (link fs first q) buffer
      refine mem_readLoopLog_succ.2 ⟨⟨by omega, hlinked q (by omega)⟩, Or.inr ⟨_, hread, Or.inr (Or.inr ?_)⟩⟩
      -- the whole cluster is read, and the loop goes on with the next
      have hnext : q * fs.clusterSize + fs.clusterSize = (q + 1) * fs.clusterSize := (Nat.succ_mul _ _).symm
      rw [Nat.mul_mod_left, Nat.sub_zero, Nat.min_eq_left (by omega), Nat.add_mod_right, Nat.mul_mod_left,
        if_pos rfl, ← link_succ, hnext, show q + (d + 1) = q + 1 + d by omega]
      apply ih
      · intro i hi
        exact hlinked i (by omega)
      · omega
      · omega

/-- The accesses of a read of a whole file that was just opened. -/
theorem readLog_opened {s : State} {i : Fin maxFiles} {entry : DirEntry} (hfs : s.fs = fs)
    (hfile : s.files i = openedFile entry) (hpos : 0 < fs.clusterSize) (hsize : 0 < entry.fileSize.toNat)
    (ahci : Ahci) (stack : Nat → UInt8) :
    readLog ahci stack i.val true entry.fileSize.toUInt64 s =
      readLoopLog ahci fs fs.clusterSize entry.fileSize.toNat 0 stack entry.fileSize.toNat 0
        (fat32MakeCluster entry) := by
  have hzero : (0 : UInt32).toNat = 0 := rfl
  have hne : ¬ fs.sectorsPerCluster * 512 = 0 := by
    intro hmul
    have hcluster := clusterSize_eq hspc
    rw [hmul] at hcluster
    omega
  have hunread : ¬ entry.fileSize ≤ 0 := by
    rw [UInt32.le_iff_toNat_le]
    omega
  unfold readLog
  rw [handle?_val, hfs, clusterSize_eq hspc]
  simp only [hfile, openedFile, Bool.not_true, Bool.or_self, Bool.false_eq_true, if_false, if_neg hunread,
    if_neg hne, UInt32.sub_zero, UInt32.toNat_toUInt64, lt_irrefl, hzero, Nat.zero_div, skipLog,
    skipClusters, List.nil_append]

/-- A file that can be found is opened and read from a state without open handles. -/
theorem lookup_of_named {s : State} (hfs : s.fs = fs) (hclosed : ∀ i, (s.files i).isOpen = false)
    {stack : Nat → UInt8} {filename : List UInt8} {entry : DirEntry}
    (hnamed : Named disk fs stack filename fs.rootDirCluster entry) {k : Nat}
    (hk : k < entry.fileSize.toNat / fs.clusterSize)
    (hlinked : ∀ i ≤ k, Linked (link fs (fat32MakeCluster entry) i)) :
    ∃ calls s' c, (∀ c ∈ calls, c.On disk) ∧ Run.exec volumeStep s calls = some s' ∧ c.On disk ∧
      s'.fs = fs ∧ .lookup (link fs (fat32MakeCluster entry) k) ∈ callLog s' c := by
  rcases find_of_named hspc hnamed 0 (fun _ => rfl) with ⟨fuel, hfind⟩
  rcases hfree : freeHandle s with _ | i
  · have hnone := List.find?_eq_none.1 hfree ⟨0, by decide⟩ (List.mem_finRange _)
    simp [hclosed] at hnone
  have hopen : fat32Open (faulty disk fun _ => false) stack fuel (some filename) s =
      some ((i.val : Int), s.setFile i (openedFile entry)) := by
    unfold fat32Open fat32FindInDirectory
    simp only [hfree, hfs, hfind]
  refine ⟨[.openFile (faulty disk fun _ => false) stack fuel (some filename)],
    s.setFile i (openedFile entry),
    .read (faulty disk fun _ => false) stack i.val true entry.fileSize.toUInt64, ?_, ?_, ⟨_, rfl⟩, hfs, ?_⟩
  · intro c hc
    rw [List.mem_singleton.1 hc]
    exact ⟨_, rfl⟩
  · simp only [Run.exec, volumeStep, hopen, Option.map_some, Option.bind_some]
  · -- the read starts with the first cluster and takes the whole file
    have hpos : 0 < fs.clusterSize := by
      by_contra hzero
      rw [Nat.eq_zero_of_not_pos hzero, Nat.div_zero] at hk
      omega
    have hfill : (k + 1) * fs.clusterSize ≤ entry.fileSize.toNat := (Nat.le_div_iff_mul_le hpos).1 hk
    have hsize : 0 < entry.fileSize.toNat := by
      rw [Nat.succ_mul] at hfill
      omega
    have hself : (s.setFile i (openedFile entry)).files i = openedFile entry := Function.update_self _ _ _
    have hopened : (s.setFile i (openedFile entry)).fs = fs := hfs
    show _ ∈ readLog _ _ _ _ _ _
    rw [readLog_opened hspc hopened hself hpos hsize]
    have hmem := lookup_mem_readLoopLog disk hspc hpos k 0 0 stack (by simpa using hlinked) hfill le_rfl
    rw [Nat.zero_add, Nat.zero_mul] at hmem
    exact hmem

end Runs

/-- A lookup of the root directory outside of the table is one of a listing. -/
theorem inTable_of_passed {disk : UInt32 → Nat → UInt8} {s : State}
    (hspc : s.fs.sectorsPerCluster.toNat ≤ 255) (h : LookupsInside disk s) {stack : Nat → UInt8} {x : UInt32}
    (hpassed : Passed disk s.fs stack s.fs.rootDirCluster x) : InTable s.fs x := by
  rcases lookup_of_passed hspc hpassed 0 (fun _ => rfl) with ⟨fuel, hmem⟩
  have hroot : ¬ s.fs.rootDirCluster < 2 := by
    intro hlt
    cases hpassed with
    | here hlinked _ => exact not_linked_of_lt hlt hlinked
    | later hlinked _ _ => exact not_linked_of_lt hlt hlinked
  have hlog : .lookup x ∈ callLog s (.enumerateRoot (faulty disk fun _ => false) stack fuel true) := by
    simp only [callLog, enumerateLog, Bool.not_true, Bool.false_or, decide_eq_true_eq, if_neg hroot]
    exact hmem
  have hon : VolumeCall.On disk (.enumerateRoot (faulty disk fun _ => false) stack fuel true) := ⟨_, rfl⟩
  exact h [] s (by simp) rfl _ hon _ hlog x rfl

/-- After `fat32_initialize`, all lookups of all calls are inside of the table exactly when the chains
of the root directory and of the files that can be found are. -/
theorem lookups_inside_iff (disk : UInt32 → Nat → UInt8) (fails : Nat → Bool)
    (stack memory : Nat → UInt8) (heap : HeapState) :
    LookupsInside disk (booted disk fails stack memory heap).2.2 ↔
      ChainsInside disk (booted disk fails stack memory heap).2.2.fs := by
  have hspc := booted_spc_le disk fails stack memory heap
  have hclosed := booted_closed disk fails stack memory heap
  generalize (booted disk fails stack memory heap).2.2 = s at hspc hclosed ⊢
  constructor
  · intro h
    constructor
    · intro stack x hpassed
      exact inTable_of_passed hspc h hpassed
    · -- the file is opened and read as a whole
      intro stack filename entry hnamed k hk hlinked
      rcases lookup_of_named hspc rfl hclosed hnamed hk hlinked with
        ⟨calls, s', c, hcalls, hrun, hon, hfs, hmem⟩
      have hin := h calls s' hcalls hrun c hon _ hmem _ rfl
      rw [hfs] at hin
      exact hin
  · intro hin calls s' hcalls hrun c hon
    -- no handle is open at first
    have hstart : Known disk s.fs s := by
      refine ⟨rfl, ?_⟩
      intro i hopen
      rw [hclosed i] at hopen
      cases hopen
    have hknown : Known disk s.fs s' :=
      Run.exec_preserves_of (Known disk s.fs) (VolumeCall.On disk)
        (fun _ _ _ hon h hstep => volumeStep_known hspc hon h hstep) hcalls hstart hrun
    rw [hknown.fs_eq]
    exact callLog_inTable hspc hin hknown hon

/-- A volume with clusters of 8 sectors, whose root directory is full and linked to cluster 128, the
first one without an entry in its FAT of one sector. -/
def strayDisk (lba : UInt32) (j : Nat) : UInt8 :=
  if lba = 0 then if j = 13 then 8 else tinyDisk 0 j
  else if lba = 1 then if j = 8 then 128 else 0
  else 0x41

theorem lookup_behind_table :
    (booted strayDisk (fun _ => false) (fun _ => 0) (fun _ => 0) (Heap.run []).heap).1 = true ∧
      ¬ LookupsInside strayDisk
        (booted strayDisk (fun _ => false) (fun _ => 0) (fun _ => 0) (Heap.run []).heap).2.2 := by
  refine ⟨by decide +kernel, ?_⟩
  intro h
  have hlog : .lookup 128 ∈ callLog
      (booted strayDisk (fun _ => false) (fun _ => 0) (fun _ => 0) (Heap.run []).heap).2.2
      (.enumerateRoot (faulty strayDisk fun _ => false) (fun _ => 0) 2 true) := by
    decide +kernel
  have hsize : (booted strayDisk (fun _ => false) (fun _ => 0) (fun _ => 0)
      (Heap.run []).heap).2.2.fs.fatSizeBytes.toNat = 512 := by
    decide +kernel
  have hon : VolumeCall.On strayDisk (.enumerateRoot (faulty strayDisk fun _ => false) (fun _ => 0) 2 true) :=
    ⟨_, rfl⟩
  have hin := h [] _ (by simp) rfl _ hon _ hlog 128 rfl
  unfold InTable at hin
  rw [hsize] at hin
  have hstray : (128 : UInt32).toNat = 128 := rfl
  omega

end CosKernel.Fat32
