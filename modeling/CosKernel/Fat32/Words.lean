import CosKernel.Lib.Words
import CosKernel.Fat32.Mount

/-!
# The counters of a read

`fat32_read` counts with 32-bit words: how many bytes are left, where it is in the
file and in the caller's buffer. `fat32ReadWords` is the function with these words
and with the indices it stores at, which has no value where a sum or difference would
wrap around. It always has one: every turn of the loop takes bytes off `count`, wherever
the chain leads, and the counters are coupled to each other.
-/

namespace CosKernel.Fat32

open Words

/-! ## The function with its words -/

/-- The variables of the loop of `fat32_read`, with the stores to the caller's buffer so far. -/
structure Counters where
  count : UInt32
  offset : UInt32
  bufferOffset : UInt32
  position : UInt32
  cluster : UInt32
  stores : List (UInt32 × UInt8)

/-- The loop that skips to the cluster of the current position. -/
def skipWords (fs : Fs) (skip : UInt32) : Nat → UInt32 → UInt32 → Option UInt32
  | 0, i, cluster => if i < skip ∧ ¬ fat32IsEoc cluster then none else some cluster
  | turns + 1, i, cluster =>
    if i < skip ∧ ¬ fat32IsEoc cluster then do
      let next ← add? i 1
      skipWords fs skip turns next (fat32FollowClusterChain fs cluster)
    else some cluster

/-- One turn of the loop of `fat32_read`, with the cluster in the buffer. -/
def Counters.turn (fs : Fs) (clusterSize : UInt32) (turns : Nat) (buffer : Nat → UInt8) (c : Counters) :
    Option Counters := do
  let clusterOffset := c.offset % clusterSize
  let rest ← sub? clusterSize clusterOffset
  let readBytes := if c.count < rest then c.count else rest
  let stores ← copyLoop buffer c.bufferOffset clusterOffset readBytes turns 0
  let bufferOffset ← add? c.bufferOffset readBytes
  let count ← sub? c.count readBytes
  let offset ← add? c.offset readBytes
  let position ← add? c.position readBytes
  let cluster := if offset % clusterSize = 0 then fat32FollowClusterChain fs c.cluster else c.cluster
  return ⟨count, offset, bufferOffset, position, cluster, c.stores ++ stores⟩

/-- The loop of `fat32_read`, with at most `turns` turns of it and of the loop inside. -/
def loopWords (ahci : Ahci) (fs : Fs) (clusterSize : UInt32) (turns : Nat) :
    Nat → Nat → (Nat → UInt8) → Counters → Option (Bool × Counters)
  | 0, _, _, c => if 0 < c.count ∧ 2 ≤ c.cluster ∧ ¬ fat32IsEoc c.cluster then none else some (true, c)
  | left + 1, n, buffer, c =>
    if 0 < c.count ∧ 2 ≤ c.cluster ∧ ¬ fat32IsEoc c.cluster then
      match fat32ReadSectors ahci n (fat32ClusterLba fs c.cluster) fs.sectorsPerCluster buffer with
      | (false, _) => some (false, c)
      | (true, buffer) => do
        let c ← c.turn fs clusterSize turns buffer
        loopWords ahci fs clusterSize turns left (n + fs.sectorsPerCluster.toNat) buffer c
    else some (true, c)

/-- The value returned, the stores to the caller's buffer, and the state afterwards. -/
structure WordRead where
  ret : Int
  stores : List (UInt32 × UInt8)
  state : State

/-- `fat32_read`. `none` says that a sum or difference wrapped, or that one of the loops has not
ended after `turns` turns. -/
def fat32ReadWords (ahci : Ahci) (stack : Nat → UInt8) (turns : Nat) (fd : Int) (nonNull : Bool)
    (size : UInt64) (s : State) : Option WordRead :=
  match handle? fd with
  | none => some ⟨-1, [], s⟩
  | some i =>
    let file := s.files i
    if !file.isOpen || !nonNull then some ⟨-1, [], s⟩
    else if file.fileSize ≤ file.currentPosition then some ⟨0, [], s⟩
    else do
      let remaining ← sub? file.fileSize file.currentPosition
      let count := if remaining.toUInt64 < size then remaining else size.toUInt32
      let offset := file.currentPosition
      let clusterSize := s.fs.sectorsPerCluster * 512
      let cluster ← skipWords s.fs (offset / clusterSize) turns 0 file.firstCluster
      let r ← loopWords ahci s.fs clusterSize turns turns 0 stack ⟨count, offset, 0, offset, cluster, []⟩
      return ⟨if r.1 then asInt r.2.bufferOffset.toNat else -1, r.2.stores,
        s.setFile i { file with currentPosition := r.2.position }⟩

/-! ## The coupling of the counters -/

/-- The counters in a read of `due` bytes from `start` on: what was stored and what is left add up,
the position is as far in the file, and the stores went to the buffer one behind the other. -/
structure Counters.Coupled (start due : Nat) (c : Counters) : Prop where
  offset_eq : c.offset = c.position
  position_eq : c.position.toNat = start + c.bufferOffset.toNat
  left : c.bufferOffset.toNat + c.count.toNat = due
  stored : c.stores.map (·.1.toNat) = List.range c.bufferOffset.toNat

section Turn

variable {fs : Fs} {clusterSize : UInt32} {start due turns : Nat}

/-- The bytes that a turn takes. -/
def Counters.taken (clusterSize : UInt32) (c : Counters) : Nat :=
  min (clusterSize.toNat - c.offset.toNat % clusterSize.toNat) c.count.toNat

theorem Counters.taken_le_count (clusterSize : UInt32) (c : Counters) : c.taken clusterSize ≤ c.count.toNat :=
  Nat.min_le_right ..

/-- The word `read_bytes` of a turn. -/
theorem Counters.toNat_readBytes (hpos : 0 < clusterSize.toNat) (c : Counters) :
    (if c.count < clusterSize - c.offset % clusterSize then c.count
      else clusterSize - c.offset % clusterSize).toNat = c.taken clusterSize := by
  have hmod : (c.offset % clusterSize).toNat = c.offset.toNat % clusterSize.toNat := UInt32.toNat_mod _ _
  have hlt := Nat.mod_lt c.offset.toNat hpos
  rw [toNat_ite_lt, toNat_sub_of_le (by omega), hmod, Nat.min_comm]
  rfl

variable (fs) in
/-- What a turn does to counters that are coupled: it takes its bytes off `count` and adds them to the
others, without a wrap. -/
theorem Counters.turn_spec {c : Counters} (hpos : 0 < clusterSize.toNat) (hturns : clusterSize.toNat ≤ turns)
    (hdue : start + due < 2 ^ 32) (h : c.Coupled start due) (buffer : Nat → UInt8) :
    ∃ c', c.turn fs clusterSize turns buffer = some c' ∧ c'.Coupled start due ∧
      c'.count.toNat = c.count.toNat - c.taken clusterSize ∧
      c'.offset.toNat = c.offset.toNat + c.taken clusterSize ∧
      c'.position = c.position + UInt32.ofNat (c.taken clusterSize) ∧
      c'.cluster = (if (c.offset.toNat + c.taken clusterSize) % clusterSize.toNat = 0 then
        fat32FollowClusterChain fs c.cluster else c.cluster) ∧
      c'.stores.map Prod.snd = c.stores.map Prod.snd ++
        (List.range (c.taken clusterSize)).map fun i => buffer (c.offset.toNat % clusterSize.toNat + i) := by
  have hmod : (c.offset % clusterSize).toNat = c.offset.toNat % clusterSize.toNat := UInt32.toNat_mod _ _
  have hlt := Nat.mod_lt c.offset.toNat hpos
  have hle : (c.offset % clusterSize).toNat ≤ clusterSize.toNat := by omega
  -- the bytes of the turn, which stay in the cluster and in what is left
  have htaken := c.toNat_readBytes hpos
  generalize hread : (if c.count < clusterSize - c.offset % clusterSize then c.count
    else clusterSize - c.offset % clusterSize) = readBytes at htaken
  have hcount := c.taken_le_count clusterSize
  have hcluster : c.taken clusterSize ≤ clusterSize.toNat - c.offset.toNat % clusterSize.toNat := Nat.min_le_left ..
  have hleft := h.left
  have hposition := h.position_eq
  have hoffset : c.offset.toNat = c.position.toNat := congrArg UInt32.toNat h.offset_eq
  have hsize := clusterSize.toNat_lt
  have hzero : (0 : UInt32).toNat = 0 := rfl
  obtain ⟨stores, hcopy, hindices, hbytes⟩ :=
    copyLoop_spec buffer 0 (by omega : c.bufferOffset.toNat + readBytes.toNat < 2 ^ 32)
      (by omega : (c.offset % clusterSize).toNat + readBytes.toNat < 2 ^ 32)
      (by omega : readBytes.toNat ≤ turns + (0 : UInt32).toNat)
  have hbuffer' := toNat_add_of_lt (by omega : c.bufferOffset.toNat + readBytes.toNat < 2 ^ 32)
  have hcount' := toNat_sub_of_le (by omega : readBytes.toNat ≤ c.count.toNat)
  have hoffset' := toNat_add_of_lt (by omega : c.offset.toNat + readBytes.toNat < 2 ^ 32)
  have hposition' := toNat_add_of_lt (by omega : c.position.toNat + readBytes.toNat < 2 ^ 32)
  refine ⟨⟨c.count - readBytes, c.offset + readBytes, c.bufferOffset + readBytes, c.position + readBytes,
    if (c.offset + readBytes) % clusterSize = 0 then fat32FollowClusterChain fs c.cluster else c.cluster,
    c.stores ++ stores⟩, ?_, ⟨?_, ?_, ?_, ?_⟩, ?_, ?_, ?_, ?_, ?_⟩
  · unfold Counters.turn
    simp only [sub?_of_le hle, Option.bind_eq_bind, Option.bind_some, hread, hcopy, Option.pure_def]
    rw [add?_of_lt (by omega), sub?_of_le (by omega), add?_of_lt (by omega), add?_of_lt (by omega)]
    rfl
  · rw [h.offset_eq]
  · show (c.position + readBytes).toNat = start + (c.bufferOffset + readBytes).toNat
    omega
  · show (c.bufferOffset + readBytes).toNat + (c.count - readBytes).toNat = due
    omega
  · simp only [List.map_append, h.stored, hindices, hzero, Nat.add_zero, Nat.sub_zero, hbuffer',
      List.range_eq_range']
    rw [← List.range'_append_1, Nat.zero_add]
  · exact hcount'.trans (by rw [htaken])
  · exact hoffset'.trans (by rw [htaken])
  · rw [← htaken, UInt32.ofNat_toNat]
  · have hedge : (c.offset + readBytes) % clusterSize = 0 ↔
        (c.offset.toNat + c.taken clusterSize) % clusterSize.toNat = 0 := by
      rw [← UInt32.toNat_inj, UInt32.toNat_mod, hoffset', htaken, hzero]
    simp only [hedge]
  · simp only [List.map_append, hbytes, hmod, htaken, hzero, Nat.add_zero, Nat.sub_zero,
      List.range'_eq_map_range, List.map_map]
    rfl

theorem Counters.taken_pos {c : Counters} (hpos : 0 < clusterSize.toNat) (hcount : 0 < c.count.toNat) :
    0 < c.taken clusterSize := by
  have hlt := Nat.mod_lt c.offset.toNat hpos
  exact Nat.lt_min.2 ⟨by omega, hcount⟩

/-- The loop goes on with this many bytes left, at this cluster. -/
abbrev Goes (count : Nat) (cluster : UInt32) : Prop := 0 < count ∧ Linked cluster

theorem goes_iff (c : Counters) :
    (0 < c.count ∧ 2 ≤ c.cluster ∧ ¬ fat32IsEoc c.cluster = true) ↔ Goes c.count.toNat c.cluster := by
  rw [UInt32.lt_iff_toNat_lt]
  rfl

theorem loopWords_ended (ahci : Ahci) (left n : Nat) (buffer : Nat → UInt8) {c : Counters}
    (hend : ¬ Goes c.count.toNat c.cluster) :
    loopWords ahci fs clusterSize turns left n buffer c = some (true, c) := by
  cases left with
  | zero => rw [loopWords, if_neg (mt (goes_iff c).1 hend)]
  | succ left => rw [loopWords, if_neg (mt (goes_iff c).1 hend)]

/-- The loop with its words ends after `count` turns at most, and does what the loop without them does. -/
theorem loopWords_spec (ahci : Ahci) {c : Counters} (hpos : 0 < clusterSize.toNat)
    (hturns : clusterSize.toNat ≤ turns) (hdue : start + due < 2 ^ 32) {left fuel : Nat}
    (hleft : c.count.toNat ≤ left) (hfuel : c.count.toNat ≤ fuel) (h : c.Coupled start due) (n : Nat)
    (buffer : Nat → UInt8) :
    ∃ r c', readLoop ahci fs clusterSize.toNat fuel n buffer c.count.toNat c.offset.toNat c.cluster
        (c.stores.map Prod.snd) c.position = r ∧
      loopWords ahci fs clusterSize turns left n buffer c = some (r.ok, c') ∧ c'.Coupled start due ∧
      c'.stores.map Prod.snd = r.written ∧ c'.position = r.position := by
  induction left generalizing c fuel n buffer with
  | zero =>
    have hend : ¬ Goes c.count.toNat c.cluster := fun hgo => by omega
    exact ⟨_, c, readLoop_ended ahci _ _ _ _ _ _ _ hend, loopWords_ended ahci _ _ _ hend, h, rfl, rfl⟩
  | succ left ih =>
    by_cases hgo : Goes c.count.toNat c.cluster
    swap
    · exact ⟨_, c, readLoop_ended ahci _ _ _ _ _ _ _ hgo, loopWords_ended ahci _ _ _ hgo, h, rfl, rfl⟩
    obtain ⟨fuel, rfl⟩ : ∃ k, fuel = k + 1 := ⟨fuel - 1, by omega⟩
    rw [loopWords, if_pos ((goes_iff c).2 hgo), readLoop, if_pos hgo]
    rcases fat32ReadSectors ahci n (fat32ClusterLba fs c.cluster) fs.sectorsPerCluster buffer with
      ⟨_ | _, buffer'⟩
    · exact ⟨_, c, rfl, rfl, h, rfl, rfl⟩
    -- one turn keeps the counters coupled, and leaves the ones of the loop on numbers
    obtain ⟨c₁, hturn, h₁, hcount, hoffset, hposition, hcluster, hstores⟩ :=
      Counters.turn_spec fs hpos hturns hdue h buffer'
    have htaken := c.taken_pos hpos hgo.1
    have hle := c.taken_le_count clusterSize
    obtain ⟨r, c', hr, hwords, hrest⟩ := ih (by omega : c₁.count.toNat ≤ left)
      (by omega : c₁.count.toNat ≤ fuel) h₁ (n + fs.sectorsPerCluster.toNat) buffer'
    refine ⟨r, c', ?_, ?_, hrest⟩
    · rw [← hr, hcount, hoffset, hposition, hcluster, hstores]
      rfl
    · simp only [hturn, Option.bind_eq_bind, Option.bind_some, hwords]

end Turn

/-- The loop that skips clusters ends after `skip` turns at most. -/
theorem skipWords_spec (fs : Fs) {skip i : UInt32} {turns : Nat} (hturns : skip.toNat ≤ turns + i.toNat)
    (cluster : UInt32) :
    skipWords fs skip turns i cluster = some (skipClusters fs (skip.toNat - i.toNat) cluster) := by
  have hlt : i < skip ↔ i.toNat < skip.toNat := UInt32.lt_iff_toNat_lt
  induction turns generalizing i cluster with
  | zero =>
    have hzero : skip.toNat - i.toNat = 0 := by omega
    rw [skipWords, if_neg (fun h => by have hi := hlt.1 h.1; omega), hzero, skipClusters]
  | succ turns ih =>
    by_cases hgo : i.toNat < skip.toNat
    swap
    · have hzero : skip.toNat - i.toNat = 0 := by omega
      rw [skipWords, if_neg (fun h => hgo (hlt.1 h.1)), hzero, skipClusters]
    have hone : (1 : UInt32).toNat = 1 := rfl
    have hskip := skip.toNat_lt
    have hnext : (i + 1).toNat = i.toNat + 1 := toNat_add_of_lt (by omega)
    have hleft : skip.toNat - i.toNat = skip.toNat - (i + 1).toNat + 1 := by omega
    rw [skipWords, hleft, skipClusters]
    by_cases heoc : fat32IsEoc cluster = true
    · rw [if_neg (fun h => h.2 heoc), if_pos heoc]
    · rw [if_pos ⟨hlt.2 hgo, heoc⟩, if_neg heoc, add?_of_lt (by omega)]
      simp only [Option.bind_eq_bind, Option.bind_some]
      exact ih (by omega) _ UInt32.lt_iff_toNat_lt

/-! ## A read -/

/-- What a read of `size` bytes that returned `n` has done: it stored at the first `n` places of the
buffer, no more than were asked for and left in the file, and moved the position as far. -/
structure Counted (s : State) (i : Fin maxFiles) (size : UInt64) (n : Nat) (r : WordRead) : Prop where
  le : n ≤ min size.toNat ((s.files i).fileSize.toNat - (s.files i).currentPosition.toNat)
  stored : r.stores.map (·.1.toNat) = List.range n
  moved : ∃ position : UInt32, r.state = s.setFile i { s.files i with currentPosition := position } ∧
    position.toNat = (s.files i).currentPosition.toNat + n ∧ position.toNat ≤ (s.files i).fileSize.toNat

/-- Counters that are coupled say what a read has done. -/
theorem Counters.Coupled.counted {s : State} {i : Fin maxFiles} {size : UInt64} {c : Counters} {ret : Int}
    (h : c.Coupled (s.files i).currentPosition.toNat ((s.files i).due size))
    (hposition : (s.files i).currentPosition.toNat ≤ (s.files i).fileSize.toNat) :
    Counted s i size c.bufferOffset.toNat
      ⟨ret, c.stores, s.setFile i { s.files i with currentPosition := c.position }⟩ := by
  have hleft := h.left
  have hmoves := h.position_eq
  have hfits := (s.files i).due_le size hposition
  have hmin : (s.files i).due size =
    min size.toNat ((s.files i).fileSize.toNat - (s.files i).currentPosition.toNat) := rfl
  exact ⟨by omega, h.stored, c.position, rfl, hmoves, by omega⟩

theorem Counters.Coupled.length_stores {start due : Nat} {c : Counters} (h : c.Coupled start due) :
    c.stores.length = c.bufferOffset.toNat := by
  have hlen := congrArg List.length h.stored
  rwa [List.length_map, List.length_range] at hlen

/-- The words in which the bytes of a read are counted. -/
theorem toNat_count {file : File} {size : UInt64} (hle : file.currentPosition.toNat ≤ file.fileSize.toNat)
    (hsize : size.toNat < 2 ^ 31) :
    (if (file.fileSize - file.currentPosition).toUInt64 < size then file.fileSize - file.currentPosition
      else size.toUInt32).toNat = file.due size := by
  have hlt : (file.fileSize - file.currentPosition).toUInt64 < size ↔
      (file.fileSize - file.currentPosition).toNat < size.toNat := by
    rw [UInt64.lt_iff_toNat_lt, UInt32.toNat_toUInt64]
  rw [← file.due_eq size hle]
  simp only [hlt]
  split
  · rfl
  · rw [UInt64.toNat_toUInt32]
    exact Nat.mod_eq_of_lt (by omega)

/-- A read of an open handle in front of the end of its file, with the words of its loop. -/
theorem fat32ReadWords_open {s : State} (hspc : s.fs.sectorsPerCluster.toNat ≤ 8) {i : Fin maxFiles}
    (hopen : (s.files i).isOpen = true)
    (hlt : (s.files i).currentPosition.toNat < (s.files i).fileSize.toNat) (ahci : Ahci)
    (stack : Nat → UInt8) {turns : Nat} (hturns : 2 ^ 32 ≤ turns) (size : UInt64) {ok : Bool} {c : Counters}
    (hloop : loopWords ahci s.fs (s.fs.sectorsPerCluster * 512) turns turns 0 stack
      ⟨if ((s.files i).fileSize - (s.files i).currentPosition).toUInt64 < size then
        (s.files i).fileSize - (s.files i).currentPosition else size.toUInt32,
        (s.files i).currentPosition, 0, (s.files i).currentPosition,
        skipClusters s.fs ((s.files i).currentPosition.toNat / s.fs.clusterSize) (s.files i).firstCluster, []⟩ =
      some (ok, c)) :
    fat32ReadWords ahci stack turns i.val true size s =
      some ⟨if ok then asInt c.bufferOffset.toNat else -1, c.stores,
        s.setFile i { s.files i with currentPosition := c.position }⟩ := by
  have hbefore : ¬ (s.files i).fileSize ≤ (s.files i).currentPosition := by
    rw [UInt32.le_iff_toNat_le]
    omega
  have hzero : (0 : UInt32).toNat = 0 := rfl
  have hskip : skipWords s.fs ((s.files i).currentPosition / (s.fs.sectorsPerCluster * 512)) turns 0
      (s.files i).firstCluster =
        some (skipClusters s.fs ((s.files i).currentPosition.toNat / s.fs.clusterSize) (s.files i).firstCluster) := by
    have hskipLt := ((s.files i).currentPosition / (s.fs.sectorsPerCluster * 512)).toNat_lt
    rw [skipWords_spec s.fs (by omega), UInt32.toNat_div, clusterSize_eq (Nat.le_trans hspc (by decide)), hzero,
      Nat.sub_zero]
  unfold fat32ReadWords
  rw [handle?_val]
  simp only [hopen, Bool.not_true, Bool.or_self, Bool.false_eq_true, if_false]
  rw [if_neg hbefore, sub?_of_le (Nat.le_of_lt hlt)]
  simp only [Option.bind_eq_bind, Option.bind_some, hskip, hloop, Option.pure_def]

/-- Without an open handle or a buffer nothing is counted. -/
theorem fat32ReadWords_refused {s : State} {fd : Int} {nonNull : Bool}
    (hrefused : ∀ i, handle? fd = some i → (!(s.files i).isOpen || !nonNull) = true) (ahci : Ahci)
    (stack : Nat → UInt8) (turns : Nat) (size : UInt64) :
    fat32ReadWords ahci stack turns fd nonNull size s = some ⟨-1, [], s⟩ := by
  unfold fat32ReadWords
  rcases hh : handle? fd with _ | i
  · rfl
  · simp only [hrefused i hh, if_true]

/-- At the end of its file nothing is counted. -/
theorem fat32ReadWords_at_end {s : State} {i : Fin maxFiles} (hopen : (s.files i).isOpen = true)
    (hend : (s.files i).fileSize.toNat ≤ (s.files i).currentPosition.toNat) (ahci : Ahci)
    (stack : Nat → UInt8) (turns : Nat) (size : UInt64) :
    fat32ReadWords ahci stack turns i.val true size s = some ⟨0, [], s⟩ := by
  unfold fat32ReadWords
  rw [handle?_val]
  simp only [hopen, Bool.not_true, Bool.or_self, Bool.false_eq_true, if_false]
  rw [if_pos (UInt32.le_iff_toNat_le.2 hend)]

/-- Whatever the FAT holds, a read ends and no word in it wraps around, it does what the reading with
plain numbers does, and what it returns, what it stores and how far it moves the position agree. -/
theorem fat32_read_counts {s : State} (hone : 1 ≤ s.fs.sectorsPerCluster.toNat)
    (hspc : s.fs.sectorsPerCluster.toNat ≤ 8) {fd : Int}
    (hle : ∀ i, handle? fd = some i → (s.files i).currentPosition.toNat ≤ (s.files i).fileSize.toNat)
    {size : UInt64} (hsize : size.toNat < 2 ^ 31) (ahci : Ahci) (stack : Nat → UInt8) (nonNull : Bool)
    {turns : Nat} (hturns : 2 ^ 32 ≤ turns) :
    ∃ r, fat32ReadWords ahci stack turns fd nonNull size s = some r ∧
      r.ret = (fat32Read ahci stack fd nonNull size s).ret ∧
      r.stores.map Prod.snd = (fat32Read ahci stack fd nonNull size s).written ∧
      r.state = (fat32Read ahci stack fd nonNull size s).state ∧
      (0 ≤ r.ret → ∃ i n, handle? fd = some i ∧ r.ret = (n : Nat) ∧ Counted s i size n r) := by
  by_cases hrefused : ∀ i, handle? fd = some i → (!(s.files i).isOpen || !nonNull) = true
  · rw [fat32Read_refused hrefused, fat32ReadWords_refused hrefused]
    exact ⟨_, rfl, rfl, rfl, rfl, fun h => by simp at h⟩
  push Not at hrefused
  obtain ⟨i, hh, hgranted⟩ := hrefused
  have hposition := hle i hh
  obtain ⟨hopen, rfl⟩ : (s.files i).isOpen = true ∧ nonNull = true := by simpa using hgranted
  obtain rfl := eq_of_handle? hh
  by_cases hend : (s.files i).fileSize.toNat ≤ (s.files i).currentPosition.toNat
  · -- at the end of the file nothing is read
    rw [fat32Read_at_end hopen hend, fat32ReadWords_at_end hopen hend]
    exact ⟨_, rfl, rfl, rfl, rfl, fun _ => ⟨i, 0, hh, rfl, Nat.zero_le _, rfl,
      (s.files i).currentPosition, (s.setFile_self i).symm, rfl, hposition⟩⟩
  have hlt := Nat.lt_of_not_le hend
  have hfits := (s.files i).due_le size hposition
  have hfile := (s.files i).fileSize.toNat_lt
  have hcount := toNat_count hposition hsize
  have hcluster := clusterSize_eq (Nat.le_trans hspc (by decide) : s.fs.sectorsPerCluster.toNat ≤ 255)
  have hclusterSize : s.fs.clusterSize = 512 * s.fs.sectorsPerCluster.toNat := rfl
  generalize hw : (if ((s.files i).fileSize - (s.files i).currentPosition).toUInt64 < size then
    (s.files i).fileSize - (s.files i).currentPosition else size.toUInt32) = count at hcount
  have hcoupled : Counters.Coupled (s.files i).currentPosition.toNat count.toNat
      ⟨count, (s.files i).currentPosition, 0, (s.files i).currentPosition,
        skipClusters s.fs ((s.files i).currentPosition.toNat / s.fs.clusterSize) (s.files i).firstCluster, []⟩ :=
    ⟨rfl, rfl, Nat.zero_add _, rfl⟩
  have hdue : (s.files i).due size ≤ size.toNat := Nat.min_le_left ..
  obtain ⟨r, c, hloop, hwords, hcounters, hstores, hmoved⟩ := loopWords_spec ahci
    (by omega : 0 < (s.fs.sectorsPerCluster * 512).toNat) (by omega : (s.fs.sectorsPerCluster * 512).toNat ≤ turns)
    (by omega) (by simp only; omega : _ ≤ turns) (le_refl count.toNat) hcoupled 0 stack
  simp only [List.map_nil, hcluster, hcount] at hloop
  rw [fat32Read_open hcluster hopen hlt ahci stack size hloop,
    fat32ReadWords_open hspc hopen hlt ahci stack hturns size (by rw [hw]; exact hwords)]
  -- as many bytes were stored as the offset in the buffer says
  have hwritten : r.written.length = c.bufferOffset.toNat := by
    rw [← hstores, List.length_map, hcounters.length_stores]
  refine ⟨_, rfl, ?_, hstores, ?_, ?_⟩
  · rw [hwritten]
  · rw [hmoved]
  intro hret
  cases hok : r.ok with
  | false => simp [hok] at hret
  | true =>
    have hleft := hcounters.left
    rw [hcount] at hcounters
    refine ⟨i, c.bufferOffset.toNat, hh, ?_, hcounters.counted hposition⟩
    simp only [if_true]
    exact asInt_eq (by omega)

/-- An open file of 2000 bytes, on a volume whose FAT links its only cluster to itself. -/
def cyclicFile : State where
  fs := { initialState.fs with
    sectorsPerCluster := 1
    fatTable := some fun j => if j = 12 then 3 else 0 }
  files := fun _ => ⟨3, 2000, 100, true⟩

theorem fat32_read_counts_cyclic :
    ∃ r, fat32ReadWords (imageAhci fun _ _ => 7) (fun _ => 0) (2 ^ 32) 0 true 1500 cyclicFile = some r ∧
      r.ret = (fat32Read (imageAhci fun _ _ => 7) (fun _ => 0) 0 true 1500 cyclicFile).ret ∧
      (0 ≤ r.ret → ∃ i n, handle? 0 = some i ∧ r.ret = (n : Nat) ∧ Counted cyclicFile i 1500 n r) := by
  have hle : ∀ i, handle? 0 = some i →
      (cyclicFile.files i).currentPosition.toNat ≤ (cyclicFile.files i).fileSize.toNat := by
    intro i _
    exact (by decide : (100 : UInt32).toNat ≤ (2000 : UInt32).toNat)
  obtain ⟨r, hr, hret, -, -, hcounted⟩ := fat32_read_counts (by decide) (by decide) hle
    (by decide : (1500 : UInt64).toNat < 2 ^ 31) (imageAhci fun _ _ => 7) (fun _ => 0) true (le_refl (2 ^ 32))
  exact ⟨r, hr, hret, hcounted⟩

end CosKernel.Fat32
