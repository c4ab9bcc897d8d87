import CosKernel.Fat32.Directory

/-!
# Searching and listing

With clusters of 8 sectors a cluster fills the buffer, and the slots of a directory
are those of its clusters, in order. `directory` is what a directory is for its
readers: the slots in front of the first end marker, without the deleted ones, parts
of long names and volume labels. The loops of `fat32_find_in_directory` and
`fat32_enumerate_root` are written twice, but both go over this list.
-/

namespace CosKernel.Fat32

open Bytes Heap

/-! ## The directory -/

/-- The clusters that a scan passes from `c` on, on a chain that ends. -/
inductive Walk (fs : Fs) : UInt32 → List UInt32 → Prop where
  | ended {c : UInt32} (hend : ¬ Linked c) : Walk fs c []
  | next {c : UInt32} {cs : List UInt32} (hlinked : Linked c)
      (hrest : Walk fs (fat32FollowClusterChain fs c) cs) : Walk fs c (c :: cs)

/-- `left` slots from `off` on. -/
def slotsAt (buffer : Nat → UInt8) (left off : Nat) : List DirEntry :=
  (List.range left).map fun k => dirEntryAt buffer (off + 32 * k)

/-- The slots of a cluster on the disk. -/
def clusterSlots (disk : UInt32 → Nat → UInt8) (fs : Fs) (c : UInt32) : List DirEntry :=
  slotsAt (clusterByte disk fs c) (clusterBufferSize / 32) 0

/-- The slot does not end the directory. -/
def goesOn (entry : DirEntry) : Bool := entry.name.head? ≠ some 0

/-- The entries in use among these slots: those in front of the end marker, if they are not skipped. -/
def inUse (slots : List DirEntry) : List DirEntry := (slots.takeWhile goesOn).filter fun entry => !skipped entry

/-- The directory that these clusters hold. -/
def directory (disk : UInt32 → Nat → UInt8) (fs : Fs) (cs : List UInt32) : List DirEntry :=
  inUse (cs.flatMap (clusterSlots disk fs))

/-- What `fat32_enumerate_root` tells `callback` of an entry. -/
def report (entry : DirEntry) : List UInt8 × UInt32 := (fat32ExtractEntryName entry, entry.fileSize)

section Slots

variable {buffer : Nat → UInt8}

theorem slotsAt_succ (left off : Nat) :
    slotsAt buffer (left + 1) off = dirEntryAt buffer off :: slotsAt buffer left (off + 32) := by
  have hshift : ∀ k, off + 32 * (k + 1) = off + 32 + 32 * k := by
    intro k
    omega
  simp [slotsAt, List.range_succ_eq_map, List.map_map, Function.comp_def, hshift]

theorem goesOn_dirEntryAt (off : Nat) : goesOn (dirEntryAt buffer off) = decide (buffer off ≠ 0) := by
  simp [goesOn, head?_name]

theorem liveEntries_eq (left off : Nat) : liveEntries buffer left off = inUse (slotsAt buffer left off) := by
  induction left generalizing off with
  | zero => rfl
  | succ left ih =>
    rw [liveEntries, slotsAt_succ, inUse, List.takeWhile_cons, goesOn_dirEntryAt, ih]
    by_cases hmark : buffer off = 0
    · simp [hmark]
    by_cases hskip : skipped (dirEntryAt buffer off) = true
    · simp [hmark, hskip, inUse]
    · simp [hmark, hskip, inUse]

/-- An end marker is a slot at which the directory does not go on. -/
theorem not_marked_iff (left off : Nat) :
    ¬ Marked buffer left off ↔ ∀ entry ∈ slotsAt buffer left off, goesOn entry = true := by
  induction left generalizing off with
  | zero => simp [not_marked_zero, slotsAt]
  | succ left ih =>
    rw [marked_succ, not_or, ih, slotsAt_succ, List.forall_mem_cons, goesOn_dirEntryAt, decide_eq_true_eq]

end Slots

/-- Behind an end marker no slot counts. -/
theorem inUse_append (slots more : List DirEntry) :
    inUse (slots ++ more) =
      inUse slots ++ if (∀ entry ∈ slots, goesOn entry = true) then inUse more else [] := by
  by_cases hall : ∀ entry ∈ slots, goesOn entry = true
  · rw [if_pos hall, inUse, List.takeWhile_append_of_pos hall, List.filter_append, inUse,
      List.takeWhile_eq_self_iff.2 hall, inUse]
  · have hcut : ¬ (slots.takeWhile goesOn).length = slots.length := by
      intro hlen
      exact hall (List.takeWhile_eq_self_iff.1 ((List.takeWhile_prefix goesOn).eq_of_length hlen))
    rw [if_neg hall, inUse, List.takeWhile_append, if_neg hcut, List.append_nil, inUse]

theorem directory_cons (disk : UInt32 → Nat → UInt8) (fs : Fs) (c : UInt32) (cs : List UInt32) :
    directory disk fs (c :: cs) =
      inUse (clusterSlots disk fs c) ++
        if (∀ entry ∈ clusterSlots disk fs c, goesOn entry = true) then directory disk fs cs else [] := by
  rw [directory, List.flatMap_cons, inUse_append]
  rfl

/-! ## The two scanners -/

section Scanners

variable {disk : UInt32 → Nat → UInt8} {fs : Fs} (height : fs.sectorsPerCluster = 8)
include height

variable (disk) in
/-- The buffer after a cluster was read holds the slots of the cluster. -/
theorem view_slots (stack : Nat → UInt8) (c : UInt32) :
    liveEntries (view disk fs stack c) (clusterBufferSize / 32) 0 = inUse (clusterSlots disk fs c) ∧
      (Marked (view disk fs stack c) (clusterBufferSize / 32) 0 ↔
        ¬ ∀ entry ∈ clusterSlots disk fs c, goesOn entry = true) := by
  have hagree : Agree (clusterByte disk fs c) (view disk fs stack c) (0, 32 * (clusterBufferSize / 32)) := by
    intro i hi
    have hlt : 0 + i < fs.clusterSize := by
      rw [Fs.clusterSize, height]
      simpa [clusterBufferSize] using hi
    rw [view, if_pos hlt]
  obtain ⟨hlive, hmarked⟩ := liveEntries_congr le_rfl (Or.inl rfl) hagree
  refine ⟨hlive.trans (liveEntries_eq _ _), ?_⟩
  rw [hmarked, clusterSlots, ← not_marked_iff, not_not]

theorem read_works (n : Nat) (c : UInt32) (buffer : Nat → UInt8) :
    fat32ReadSectors (imageAhci disk) n (fat32ClusterLba fs c) fs.sectorsPerCluster buffer =
      (true, view disk fs buffer c) :=
  fat32ReadSectors_works disk (by rw [height]; decide) n c buffer

/-- A search finds the first entry of the name that the clusters ahead hold. -/
theorem findFrom_walk {c : UInt32} {cs : List UInt32} (hwalk : Walk fs c cs) (filename : List UInt8)
    {fuel : Nat} (hfuel : cs.length ≤ fuel) (n : Nat) (buffer : Nat → UInt8) :
    findFrom (imageAhci disk) fs filename fuel n buffer c =
      some ((directory disk fs cs).find? fun entry => fat32CompareEntryName entry filename) := by
  induction hwalk generalizing fuel n buffer with
  | ended hend => exact findFrom_ended _ _ _ hend
  | @next c cs hlinked hrest ih =>
    obtain ⟨fuel, rfl⟩ : ∃ k, fuel = k + 1 := ⟨fuel - 1, by simp at hfuel; omega⟩
    obtain ⟨hlive, hmarked⟩ := view_slots disk height buffer c
    have hgo := ih (Nat.le_of_succ_le_succ hfuel) (n + fs.sectorsPerCluster.toNat) (view disk fs buffer c)
    rw [findFrom_read hlinked (read_works height n c buffer), scanBuffer_eq, hlive, hgo]
    rw [directory_cons, List.find?_append]
    rcases hfind : (inUse (clusterSlots disk fs c)).find? (fun entry => fat32CompareEntryName entry filename)
      with _ | entry
    · -- nothing in this cluster: an end marker ends the search, or the next cluster is looked at
      by_cases hall : ∀ entry ∈ clusterSlots disk fs c, goesOn entry = true
      · have hno : ¬ Marked (view disk fs buffer c) (clusterBufferSize / 32) 0 := fun hmark => hmarked.1 hmark hall
        rw [if_pos hall]
        simp [scanEnd, hno, findNext]
      · have hmark := hmarked.2 hall
        rw [if_neg hall]
        simp [scanEnd, hmark, findNext]
    · rfl

/-- A listing reports the entries that the clusters ahead hold. -/
theorem enumerateFrom_walk {c : UInt32} {cs : List UInt32} (hwalk : Walk fs c cs)
    {fuel : Nat} (hfuel : cs.length ≤ fuel) (n : Nat) (buffer : Nat → UInt8)
    (calls : List (List UInt8 × UInt32)) :
    enumerateFrom (imageAhci disk) fs fuel n buffer c calls =
      some (true, calls ++ (directory disk fs cs).map report) := by
  induction hwalk generalizing fuel n buffer calls with
  | ended hend =>
    rw [enumerateFrom_ended _ _ hend]
    simp [directory, inUse]
  | @next c cs hlinked hrest ih =>
    obtain ⟨fuel, rfl⟩ : ∃ k, fuel = k + 1 := ⟨fuel - 1, by simp at hfuel; omega⟩
    obtain ⟨hlive, hmarked⟩ := view_slots disk height buffer c
    have hgo := ih (Nat.le_of_succ_le_succ hfuel) (n + fs.sectorsPerCluster.toNat) (view disk fs buffer c)
      (calls ++ (inUse (clusterSlots disk fs c)).map report)
    rw [enumerateFrom_read hlinked (read_works height n c buffer), listBuffer_eq, hlive]
    rw [directory_cons, List.map_append]
    by_cases hall : ∀ entry ∈ clusterSlots disk fs c, goesOn entry = true
    · rw [if_neg (fun hmark => hmarked.1 hmark hall), if_pos hall, ← List.append_assoc]
      exact hgo
    · rw [if_pos (hmarked.2 hall), if_neg hall, List.map_nil, List.append_nil]
      rfl

end Scanners

/-- A search of the root directory finds the first entry of the name among those that a listing
reports, and both go over the slots up to the end marker and skip the same ones. -/
theorem find_and_list_agree {disk : UInt32 → Nat → UInt8} {s : State} {cs : List UInt32}
    (height : s.fs.sectorsPerCluster = 8) (hwalk : Walk s.fs s.fs.rootDirCluster cs)
    {fuel : Nat} (hfuel : cs.length ≤ fuel) (stack stack' : Nat → UInt8) :
    fat32EnumerateRoot (imageAhci disk) stack fuel true s =
        some (decide (2 ≤ s.fs.rootDirCluster), (directory disk s.fs cs).map report) ∧
      ∀ filename, fat32FindInDirectory (imageAhci disk) stack' fuel s.fs s.fs.rootDirCluster filename =
        some ((directory disk s.fs cs).find? fun entry => fat32CompareEntryName entry filename) := by
  refine ⟨?_, fun filename => findFrom_walk height hwalk filename hfuel 0 stack'⟩
  unfold fat32EnumerateRoot
  by_cases hroot : s.fs.rootDirCluster < 2
  · -- a listing of nothing fails, but it does report nothing
    cases hwalk with
    | ended hend => simp [hroot, directory, inUse]
    | next hlinked => exact absurd hlinked (not_linked_of_lt hroot)
  · have hle : 2 ≤ s.fs.rootDirCluster := UInt32.not_lt.1 hroot
    simp [hroot, hle, enumerateFrom_walk height hwalk hfuel]

/-- A volume whose root directory has the clusters 2 and 3. -/
def twoClusters : State :=
  { initialState with fs := { initialState.fs with
      sectorsPerCluster := 8
      rootDirCluster := 2
      fatTable := some fun i => if i = 8 then 3 else if 12 ≤ i then 0xFF else 0 } }

theorem find_and_list_agree_two :
    fat32EnumerateRoot (imageAhci fun _ _ => 0x41) (fun _ => 0) 2 true twoClusters =
        some (true, (directory (fun _ _ => 0x41) twoClusters.fs [2, 3]).map report) ∧
      ∀ filename, fat32FindInDirectory (imageAhci fun _ _ => 0x41) (fun _ => 1) 2 twoClusters.fs 2 filename =
        some ((directory (fun _ _ => 0x41) twoClusters.fs [2, 3]).find? fun entry =>
          fat32CompareEntryName entry filename) :=
  find_and_list_agree rfl (.next (by decide) (.next (by decide) (.ended (by decide)))) (by decide) _ _

end CosKernel.Fat32
