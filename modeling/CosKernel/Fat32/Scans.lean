import CosKernel.Fat32.Directory

/-!
# What a scan of a directory depends on, and whether it ends

Both scanners go over a whole buffer for every cluster and follow the chain of the
directory as long as it leads on. With clusters smaller than the buffer they take
what the stack held for directory slots, unless an end marker in the first cluster
stops them. And nothing but an end marker or the end of the chain stops them: on
a chain that comes back to itself they go round for ever, while `fat32_read` on such
a chain is bounded by the number of bytes asked for.
-/

namespace CosKernel.Fat32

open Bytes Heap

/-! ## Scans that see the disk only -/

section DiskOnly

variable (disk : UInt32 → Nat → UInt8) {fs : Fs}

/-- A scan that begins here ends before the bytes behind a cluster: there are none, or there is no
cluster, or the cluster has an end marker. -/
def Covered (fs : Fs) (c : UInt32) : Prop :=
  fs.sectorsPerCluster = 8 ∨ ¬ Linked c ∨ OwnMarker disk fs c

variable {disk} {c : UInt32}

theorem clusterSize_div (fs : Fs) : fs.clusterSize / 32 = 16 * fs.sectorsPerCluster.toNat := by
  unfold Fs.clusterSize
  omega

/-- The slots of the cluster decide how it is scanned. -/
theorem Covered.slots (hcov : Covered disk fs c) (hlinked : Linked c) (stack : Nat → UInt8) :
    fs.clusterSize / 32 = clusterBufferSize / 32 ∨
      Marked (view disk fs stack c) (fs.clusterSize / 32) 0 := by
  rcases hcov with height | hunlinked | hmark
  · left
    rw [clusterSize_div, height]
    rfl
  · exact absurd hlinked hunlinked
  · right
    rw [marked_view stack c (by omega)]
    exact hmark

/-- A scan that leaves the cluster has seen all of a full buffer. -/
theorem Covered.next (hcov : Covered disk fs c) (hlinked : Linked c) (hspc : fs.sectorsPerCluster.toNat ≤ 8)
    {stack : Nat → UInt8} (hno : ¬ Marked (view disk fs stack c) (clusterBufferSize / 32) 0) :
    fs.sectorsPerCluster = 8 := by
  rcases hcov with height | hunlinked | hmark
  · exact height
  · exact absurd hlinked hunlinked
  · have hdiv := clusterSize_div fs
    rcases (marked_view stack c (by omega)).2 hmark with ⟨k, hk, hzero⟩
    have hsize : clusterBufferSize / 32 = 128 := rfl
    exact absurd ⟨k, by omega, hzero⟩ hno

variable (hspc : fs.sectorsPerCluster.toNat ≤ 8)
include hspc

theorem clusterSlots_le : fs.clusterSize / 32 ≤ clusterBufferSize / 32 := by
  rw [clusterSize_div]
  show 16 * fs.sectorsPerCluster.toNat ≤ 128
  omega

/-- Two searches that begin with different buffers. -/
theorem findFrom_stack (hcov : Covered disk fs c) (fails : Nat → Bool) (filename : List UInt8)
    (fuel n : Nat) (stack stack' : Nat → UInt8) :
    findFrom (faulty disk fails) fs filename fuel n stack c =
      findFrom (faulty disk fails) fs filename fuel n stack' c := by
  induction fuel generalizing n stack stack' c with
  | zero => rfl
  | succ fuel ih =>
    by_cases hlinked : Linked c
    swap
    · rw [findFrom_ended _ _ _ hlinked, findFrom_ended _ _ _ hlinked]
    rcases fat32ReadSectors_view disk (Nat.le_trans hspc (by decide)) fails n c with hfail | hview
    · rw [findFrom_failed hlinked (hfail stack), findFrom_failed hlinked (hfail stack')]
    -- the two buffers have the same cluster in them
    have hscan := scanBuffer_congr (clusterSlots_le hspc) (hcov.slots hlinked stack)
      (agree_view stack stack' c (by omega)) filename
    rw [findFrom_read hlinked (hview stack), findFrom_read hlinked (hview stack'), hscan]
    rcases hend : scanBuffer (view disk fs stack c) filename (clusterBufferSize / 32) 0 with entry | _ | _
    · rfl
    · rfl
    · -- a search that goes on saw no end marker, so the clusters fill the buffer and stay covered
      have height := hcov.next hlinked hspc (not_marked_of_nextCluster hend)
      exact ih (Or.inl height) _ _ _

/-- Two listings that begin with different buffers. -/
theorem enumerateFrom_stack (hcov : Covered disk fs c) (fails : Nat → Bool)
    (fuel n : Nat) (stack stack' : Nat → UInt8) (calls : List (List UInt8 × UInt32)) :
    enumerateFrom (faulty disk fails) fs fuel n stack c calls =
      enumerateFrom (faulty disk fails) fs fuel n stack' c calls := by
  induction fuel generalizing n stack stack' c calls with
  | zero => rfl
  | succ fuel ih =>
    by_cases hlinked : Linked c
    swap
    · rw [enumerateFrom_ended _ _ hlinked, enumerateFrom_ended _ _ hlinked]
    rcases fat32ReadSectors_view disk (Nat.le_trans hspc (by decide)) fails n c with hfail | hview
    · rw [enumerateFrom_failed hlinked (hfail stack), enumerateFrom_failed hlinked (hfail stack')]
    -- the entries and the end marker are found in the bytes that the two buffers share
    have hslots := hcov.slots hlinked stack
    have hagree : Agree (view disk fs stack c) (view disk fs stack' c) (0, 32 * (fs.clusterSize / 32)) :=
      agree_view stack stack' c (by omega)
    have hlist := listBuffer_congr (clusterSlots_le hspc) hslots hagree
    have hmarked := (liveEntries_congr (clusterSlots_le hspc) hslots hagree).2
    rw [enumerateFrom_read hlinked (hview stack), enumerateFrom_read hlinked (hview stack'), hlist]
    simp only [hmarked]
    by_cases hmark : Marked (view disk fs stack c) (clusterBufferSize / 32) 0
    · rw [if_pos hmark, if_pos hmark]
    · rw [if_neg hmark, if_neg hmark]
      exact ih (Or.inl (hcov.next hlinked hspc hmark)) _ _ _ _

/-- The slots looked at are those of the cluster just read. -/
theorem directoryLog_within {slots : (Nat → UInt8) → List Access} {stops : (Nat → UInt8) → Bool}
    (hscanner : Scanner slots stops) (hcov : Covered disk fs c) (fails : Nat → Bool) (fuel n : Nat) (stack : Nat → UInt8) {o : Nat}
    (ho : .slot o ∈ directoryLog (faulty disk fails) fs slots stops fuel n stack c) :
    o + 32 ≤ fs.clusterSize := by
  induction fuel generalizing n stack c with
  | zero => cases ho
  | succ fuel ih =>
    rcases mem_directoryLog_succ.1 ho with ⟨hlinked, ho | ⟨buffer, hread, ho⟩⟩
    · rcases eq_sector_of_mem ho with ⟨o', heq⟩
      cases heq
    -- the slot is one of this cluster, or of one further on
    rw [eq_view_of_read (Nat.le_trans hspc (by decide)) hread] at ho
    rcases ho with ho | ⟨hnext, heq | ho⟩
    · have hin := listLog_within (clusterSlots_le hspc) (hcov.slots hlinked stack) (hscanner.looks _ _ ho)
      omega
    · cases heq
    · have height := hcov.next hlinked hspc (hscanner.leaves _ hnext)
      exact ih (Or.inl height) _ _ ho

end DiskOnly

/-- What a scan of the root directory does depends on the disk only, and it looks at slots of the
cluster just read only, whatever its buffer held before. -/
structure DiskOnly (disk : UInt32 → Nat → UInt8) (s : State) : Prop where
  find : ∀ fails fuel filename stack stack',
    fat32FindInDirectory (faulty disk fails) stack fuel s.fs s.fs.rootDirCluster filename =
      fat32FindInDirectory (faulty disk fails) stack' fuel s.fs s.fs.rootDirCluster filename
  list : ∀ fails fuel nonNull stack stack',
    fat32EnumerateRoot (faulty disk fails) stack fuel nonNull s =
      fat32EnumerateRoot (faulty disk fails) stack' fuel nonNull s
  findSlots : ∀ fails fuel filename stack o,
    .slot o ∈ findLog (faulty disk fails) stack fuel s.fs s.fs.rootDirCluster filename →
      o + 32 ≤ s.fs.clusterSize
  listSlots : ∀ fails fuel nonNull stack o,
    .slot o ∈ enumerateLog (faulty disk fails) stack fuel nonNull s → o + 32 ≤ s.fs.clusterSize

/-- A listing gets to the first slot behind a small cluster without an end marker. -/
theorem slot_behind_cluster {disk : UInt32 → Nat → UInt8} {s : State}
    (hspc : s.fs.sectorsPerCluster.toNat ≤ 8) (hne : s.fs.sectorsPerCluster ≠ 8)
    (hlinked : Linked s.fs.rootDirCluster) (hmark : ¬ OwnMarker disk s.fs s.fs.rootDirCluster) :
    .slot s.fs.clusterSize ∈ enumerateLog (faulty disk fun _ => false) (fun _ => 0) 1 true s := by
  have hsize : 0 + 32 * (s.fs.clusterSize / 32) = s.fs.clusterSize := by
    unfold Fs.clusterSize
    omega
  have hlt : s.fs.clusterSize / 32 < clusterBufferSize / 32 := by
    have hne' : s.fs.sectorsPerCluster.toNat ≠ 8 := fun heq => hne (UInt32.toNat_inj.1 heq)
    rw [clusterSize_div]
    show 16 * s.fs.sectorsPerCluster.toNat < 128
    omega
  have hroot : ¬ s.fs.rootDirCluster < 2 := fun hlt => not_linked_of_lt hlt hlinked
  have hread := fat32ReadSectors_works disk (Nat.le_trans hspc (by decide)) 0 s.fs.rootDirCluster fun _ => 0
  -- one cluster is enough, whatever the stack holds
  simp only [enumerateLog, Bool.not_true, Bool.false_or, decide_eq_true_eq, if_neg hroot]
  refine mem_directoryLog_succ.2 ⟨hlinked, Or.inr ⟨_, hread, Or.inl ?_⟩⟩
  rw [← hsize]
  apply mem_listLog hlt
  rw [marked_view _ _ (by omega)]
  exact hmark

/-- With clusters of at most 8 sectors, scans see the disk only exactly when the clusters have 8, or
the first cluster of the root directory ends it with a slot of its own, or there is none. -/
theorem scans_disk_only_iff {disk : UInt32 → Nat → UInt8} {s : State}
    (hspc : s.fs.sectorsPerCluster.toNat ≤ 8) :
    DiskOnly disk s ↔
      s.fs.sectorsPerCluster = 8 ∨ ¬ Linked s.fs.rootDirCluster ∨ OwnMarker disk s.fs s.fs.rootDirCluster := by
  constructor
  · intro h
    by_contra hno
    push Not at hno
    rcases hno with ⟨hne, hlinked, hmark⟩
    have hin := h.listSlots _ _ _ _ _ (slot_behind_cluster hspc hne hlinked hmark)
    omega
  · intro hcov
    refine ⟨?_, ?_, ?_, ?_⟩
    · intro fails fuel filename stack stack'
      exact findFrom_stack hspc hcov fails filename fuel 0 stack stack'
    · intro fails fuel nonNull stack stack'
      unfold fat32EnumerateRoot
      rw [enumerateFrom_stack hspc hcov fails fuel 0 stack stack']
    · intro fails fuel filename stack o ho
      exact directoryLog_within hspc (scanner_find filename) hcov fails fuel 0 stack ho
    · intro fails fuel nonNull stack o ho
      unfold enumerateLog at ho
      split at ho
      · cases ho
      · exact directoryLog_within hspc scanner_list hcov fails fuel 0 stack ho

theorem scans_disk_only_tiny :
    DiskOnly tinyDisk (booted tinyDisk (fun _ => false) (fun _ => 0) (fun _ => 0) (Heap.run []).heap).2.2 := by
  have hspc : (booted tinyDisk (fun _ => false) (fun _ => 0) (fun _ => 0)
      (Heap.run []).heap).2.2.fs.sectorsPerCluster.toNat ≤ 8 := by
    decide +kernel
  -- the second slot of the root directory is free
  have hmark : OwnMarker tinyDisk
      (booted tinyDisk (fun _ => false) (fun _ => 0) (fun _ => 0) (Heap.run []).heap).2.2.fs
      (booted tinyDisk (fun _ => false) (fun _ => 0) (fun _ => 0) (Heap.run []).heap).2.2.fs.rootDirCluster := by
    decide +kernel
  exact (scans_disk_only_iff hspc).2 (Or.inr (Or.inr hmark))

/-- The volume of `tinyDisk`, but with a root directory of 16 entries that fill its one sector. -/
def fullDisk (lba : UInt32) (j : Nat) : UInt8 := if lba = 0 ∨ lba = 1 then tinyDisk lba j else 0x41

/-- After the 16 entries of the root directory, 112 more are reported from the stack. -/
theorem scans_see_stack :
    (booted fullDisk (fun _ => false) (fun _ => 0) (fun _ => 0) (Heap.run []).heap).1 = true ∧
      (booted fullDisk (fun _ => false) (fun _ => 0) (fun _ => 0)
        (Heap.run []).heap).2.2.fs.sectorsPerCluster = 1 ∧
      ¬ DiskOnly fullDisk
        (booted fullDisk (fun _ => false) (fun _ => 0) (fun _ => 0) (Heap.run []).heap).2.2 := by
  refine ⟨by decide +kernel, by decide +kernel, ?_⟩
  intro h
  have hsame := congrArg (Option.map fun r => r.2.length)
    (h.list (fun _ => false) 1 true (fun _ => 0) fun _ => 0x42)
  have hzero : (fat32EnumerateRoot (faulty fullDisk fun _ => false) (fun _ => 0) 1 true
      (booted fullDisk (fun _ => false) (fun _ => 0) (fun _ => 0) (Heap.run []).heap).2.2).map
        (fun r => r.2.length) = some 16 := by
    decide +kernel
  have hfilled : (fat32EnumerateRoot (faulty fullDisk fun _ => false) (fun _ => 0x42) 1 true
      (booted fullDisk (fun _ => false) (fun _ => 0) (fun _ => 0) (Heap.run []).heap).2.2).map
        (fun r => r.2.length) = some 128 := by
    decide +kernel
  rw [hzero, hfilled] at hsame
  cases hsame

/-! ## Scans that end -/

/-- Along the chain from a cluster one comes to its end, or to a cluster that leaves an end marker in
the buffer. -/
inductive DirectoryEnds (disk : UInt32 → Nat → UInt8) (fs : Fs) (stack : Nat → UInt8) : UInt32 → Prop where
  | ended {c : UInt32} (h : ¬ Linked c) : DirectoryEnds disk fs stack c
  | marked {c : UInt32} (h : Marked (view disk fs stack c) (clusterBufferSize / 32) 0) :
      DirectoryEnds disk fs stack c
  | next {c : UInt32} (h : DirectoryEnds disk fs stack (fat32FollowClusterChain fs c)) :
      DirectoryEnds disk fs stack c

/-- Scans of the root directory end, for every file name, if the sectors can be read. -/
structure ScansEnd (disk : UInt32 → Nat → UInt8) (stack : Nat → UInt8) (s : State) : Prop where
  find : ∀ filename, ∃ fuel,
    (fat32FindInDirectory (imageAhci disk) stack fuel s.fs s.fs.rootDirCluster filename).isSome
  list : ∀ nonNull, ∃ fuel, (fat32EnumerateRoot (imageAhci disk) stack fuel nonNull s).isSome

theorem faulty_none (disk : UInt32 → Nat → UInt8) : faulty disk (fun _ => false) = imageAhci disk := rfl

section Ends

variable {disk : UInt32 → Nat → UInt8} {fs : Fs} {stack : Nat → UInt8} {c : UInt32}
  (hspc : fs.sectorsPerCluster.toNat ≤ 255)
include hspc

theorem findFrom_ends (h : DirectoryEnds disk fs stack c) (filename : List UInt8) (n : Nat)
    {buffer : Nat → UInt8} (hstale : ∀ c', view disk fs buffer c' = view disk fs stack c') :
    ∃ fuel, (findFrom (imageAhci disk) fs filename fuel n buffer c).isSome := by
  -- along the chain the buffer changes, but not what lies behind a cluster in it (`hstale`)
  rw [← faulty_none]
  induction h generalizing n buffer with
  | @ended c hunlinked =>
    refine ⟨0, ?_⟩
    rw [findFrom_ended _ _ _ hunlinked]
    rfl
  | @marked c hmark =>
    by_cases hlinked : Linked c
    swap
    · exact ⟨0, by rw [findFrom_ended _ _ _ hlinked]; rfl⟩
    refine ⟨1, ?_⟩
    rw [findFrom_read hlinked (fat32ReadSectors_works disk hspc n c buffer), hstale]
    rcases hscan : scanBuffer (view disk fs stack c) filename (clusterBufferSize / 32) 0 with entry | _ | _
    · rfl
    · rfl
    · exact absurd hmark (not_marked_of_nextCluster hscan)
  | @next c _ ih =>
    by_cases hlinked : Linked c
    swap
    · exact ⟨0, by rw [findFrom_ended _ _ _ hlinked]; rfl⟩
    rcases ih (n + fs.sectorsPerCluster.toNat) (fun c' => view_view stack c c') with ⟨fuel, hrest⟩
    refine ⟨fuel + 1, ?_⟩
    rw [findFrom_read hlinked (fat32ReadSectors_works disk hspc n c buffer), hstale]
    rcases scanBuffer (view disk fs stack c) filename (clusterBufferSize / 32) 0 with entry | _ | _
    · rfl
    · rfl
    · exact hrest

theorem enumerateFrom_ends (h : DirectoryEnds disk fs stack c) (n : Nat) {buffer : Nat → UInt8}
    (hstale : ∀ c', view disk fs buffer c' = view disk fs stack c')
    (calls : List (List UInt8 × UInt32)) :
    ∃ fuel, (enumerateFrom (imageAhci disk) fs fuel n buffer c calls).isSome := by
  rw [← faulty_none]
  induction h generalizing n buffer calls with
  | @ended c hunlinked =>
    refine ⟨0, ?_⟩
    rw [enumerateFrom_ended _ _ hunlinked]
    rfl
  | @marked c hmark =>
    by_cases hlinked : Linked c
    swap
    · exact ⟨0, by rw [enumerateFrom_ended _ _ hlinked]; rfl⟩
    refine ⟨1, ?_⟩
    rw [enumerateFrom_read hlinked (fat32ReadSectors_works disk hspc n c buffer), hstale, if_pos hmark]
    rfl
  | @next c _ ih =>
    by_cases hlinked : Linked c
    swap
    · exact ⟨0, by rw [enumerateFrom_ended _ _ hlinked]; rfl⟩
    rcases ih (n + fs.sectorsPerCluster.toNat) (fun c' => view_view stack c c')
      (calls ++ (listBuffer (view disk fs stack c) (clusterBufferSize / 32) 0).2) with ⟨fuel, hrest⟩
    refine ⟨fuel + 1, ?_⟩
    rw [enumerateFrom_read hlinked (fat32ReadSectors_works disk hspc n c buffer), hstale]
    split
    · rfl
    · exact hrest

/-- A listing that has ended came to the end of the chain or to an end marker. -/
theorem directoryEnds_of_enumerateFrom {fuel n : Nat} {buffer : Nat → UInt8}
    (hstale : ∀ c', view disk fs buffer c' = view disk fs stack c') {calls : List (List UInt8 × UInt32)}
    (h : (enumerateFrom (imageAhci disk) fs fuel n buffer c calls).isSome) : DirectoryEnds disk fs stack c := by
  rw [← faulty_none] at h
  induction fuel generalizing n buffer c calls with
  | zero =>
    by_cases hlinked : Linked c
    · rw [enumerateFrom, if_pos hlinked] at h
      cases h
    · exact .ended hlinked
  | succ fuel ih =>
    by_cases hlinked : Linked c
    swap
    · exact .ended hlinked
    rw [enumerateFrom_read hlinked (fat32ReadSectors_works disk hspc n c buffer), hstale] at h
    split at h
    · rename_i hmark
      exact .marked hmark
    · exact .next (ih (fun c' => view_view stack c c') h)

end Ends

/-- A cluster linked to itself, without an end marker. -/
theorem not_directoryEnds {disk : UInt32 → Nat → UInt8} {fs : Fs} {stack : Nat → UInt8} {c : UInt32}
    (hlinked : Linked c) (hmark : ¬ Marked (view disk fs stack c) (clusterBufferSize / 32) 0)
    (hloop : fat32FollowClusterChain fs c = c) : ¬ DirectoryEnds disk fs stack c := by
  intro h
  induction h with
  | ended hunlinked => exact hunlinked hlinked
  | marked hm => exact hmark hm
  | next _ ih =>
    -- the rest of the chain is the chain
    rw [hloop] at ih
    exact ih hlinked hmark hloop

/-- Listing the root directory ends only if it does. -/
theorem directoryEnds_of_list {disk : UInt32 → Nat → UInt8} {stack : Nat → UInt8} {s : State}
    (hspc : s.fs.sectorsPerCluster.toNat ≤ 255) (h : ScansEnd disk stack s) :
    DirectoryEnds disk s.fs stack s.fs.rootDirCluster := by
  by_cases hroot : s.fs.rootDirCluster < 2
  · exact .ended (not_linked_of_lt hroot)
  rcases h.list true with ⟨fuel, hlist⟩
  rw [fat32EnumerateRoot, if_neg (by simpa using hroot)] at hlist
  exact directoryEnds_of_enumerateFrom hspc (fun _ => rfl) hlist

/-- After `fat32_initialize`, scans of the root directory end exactly when its chain leads to its end,
or to a cluster with an end marker. -/
theorem scans_end_iff (disk : UInt32 → Nat → UInt8) (fails : Nat → Bool) (stack memory : Nat → UInt8)
    (heap : HeapState) (stack' : Nat → UInt8) :
    ScansEnd disk stack' (booted disk fails stack memory heap).2.2 ↔
      DirectoryEnds disk (booted disk fails stack memory heap).2.2.fs stack'
        (booted disk fails stack memory heap).2.2.fs.rootDirCluster := by
  have hspc := booted_spc_le disk fails stack memory heap
  generalize (booted disk fails stack memory heap).2.2 = s at hspc ⊢
  constructor
  · exact directoryEnds_of_list hspc
  · intro h
    constructor
    · intro filename
      exact findFrom_ends hspc h filename 0 fun _ => rfl
    · intro nonNull
      by_cases hnone : (!nonNull || decide (s.fs.rootDirCluster < 2)) = true
      · refine ⟨0, ?_⟩
        rw [fat32EnumerateRoot, if_pos hnone]
        rfl
      · rcases enumerateFrom_ends hspc h 0 (fun _ => rfl) [] with ⟨fuel, hlist⟩
        refine ⟨fuel, ?_⟩
        rw [fat32EnumerateRoot, if_neg hnone]
        exact hlist

/-- A volume with clusters of 8 sectors, whose root directory is full and linked to itself. -/
def loopDisk (lba : UInt32) (j : Nat) : UInt8 :=
  if lba = 0 then if j = 13 then 8 else tinyDisk 0 j
  else if lba = 1 then if j = 8 then 2 else 0
  else 0x41

theorem scans_go_round :
    (booted loopDisk (fun _ => false) (fun _ => 0) (fun _ => 0) (Heap.run []).heap).1 = true ∧
      ¬ ScansEnd loopDisk (fun _ => 0)
        (booted loopDisk (fun _ => false) (fun _ => 0) (fun _ => 0) (Heap.run []).heap).2.2 := by
  refine ⟨by decide +kernel, ?_⟩
  intro h
  refine not_directoryEnds ?_ ?_ ?_ (directoryEnds_of_list (booted_spc_le _ _ _ _ _) h)
  · decide +kernel
  · decide +kernel
  · decide +kernel

end CosKernel.Fat32
