import CosKernel.Boot.MemoryMap

/-!
# Where the walkers read

Both walkers bound their loops by pointers, `tag_ptr` by the end of the block and
`entry_ptr` by the end of the tag, but check neither that a header begins far
enough before that end, nor that a tag ends before the block does, nor that a
step leads on. Here the loops of `walk` are written once more with a log of their
reads instead of an action (`tagsLog`), and `Walkable` says which blocks are read
inside of their size, to the end.
-/

namespace CosKernel.Boot

open Bytes

/-! ## The log -/

/-- A read: the offset and the number of bytes. -/
abbrev Read := Nat × Nat

/-- What `get_multiboot_memory_top` reads of an entry: `addr` and `len`. -/
def topReads (_ : MmapEntry) : List Read := [(0, 8), (8, 8)]

/-- What `mark_multiboot_memory` reads of an entry: `type`, and for type 1 `addr` and `len`. -/
def markReads (e : MmapEntry) : List Read := (16, 4) :: if e.type = 1 then [(0, 8), (8, 8)] else []

section Log

variable (reads : MmapEntry → List Read) (b : Nat → UInt8)

/-- The reads of `while (entry_ptr < tag_end)`: those of the entry, and `mmap_tag->entry_size`. -/
def entriesLog (tag size tagEnd : Nat) : Nat → Nat → Option (List Read)
  | 0, entry => if entry < tagEnd then none else some []
  | fuel + 1, entry =>
    if entry < tagEnd then
      (entriesLog tag size tagEnd fuel (entry + size)).map fun log =>
        (reads (entryAt b entry)).map (fun r => (entry + r.1, r.2)) ++ (tag + 8, 4) :: log
    else some []

/-- The reads of the body of the loop over tags, behind those of the tag header. -/
def tagLog (tag : Nat) : Option (List Read) :=
  if tagType b tag = 6 then
    entriesLog reads b tag (entrySize b tag).toNat (tag + (tagSize b tag).toNat)
      (tagSize b tag).toNat (tag + 16)
  else some []

/-- The reads of the loop over tags: `tag->type`, and unless it is 0 also `tag->size`. -/
def tagsLog (totalSize : Nat) : Nat → Nat → Option (List Read)
  | 0, tag =>
    if tag < totalSize then
      if tagType b tag = 0 then some [(tag, 4)] else none
    else some []
  | fuel + 1, tag =>
    if tag < totalSize then
      if tagType b tag = 0 then some [(tag, 4)]
      else
        (tagLog reads b tag).bind fun entries =>
          (tagsLog totalSize fuel (tag + (paddedSize b tag).toNat)).map fun log =>
            (tag, 4) :: (tag + 4, 4) :: (entries ++ log)
    else some []

/-- The walker with these reads of an entry ends, and has read inside of the first `total_size`
bytes only. -/
def Robust : Prop :=
  ∃ fuel log, tagsLog reads b (le32 b 0).toNat fuel 8 = some log ∧
    ∀ r ∈ log, r.1 + r.2 ≤ (le32 b 0).toNat

end Log

/-! ## The log is complete

A block that agrees with another one on what is read of it is walked in the same way, whatever
else it holds: the log leaves out no read. -/

/-- An action that looks at an entry only where `reads` says so. -/
def LooksAt {σ : Type} (reads : MmapEntry → List Read) (visit : σ → Visit → σ) : Prop :=
  ∀ b b' off s, (∀ r ∈ reads (entryAt b off), Agree b b' (off + r.1, r.2)) →
    reads (entryAt b' off) = reads (entryAt b off) ∧
      visit s (.entry (entryAt b' off)) = visit s (.entry (entryAt b off))

theorem raiseTop_looksAt : LooksAt topReads raiseTop := by
  intro b b' off s h
  have haddr : (entryAt b' off).addr = (entryAt b off).addr :=
    le64_congr (h (0, 8) List.mem_cons_self)
  have hlen : (entryAt b' off).len = (entryAt b off).len :=
    le64_congr (h (8, 8) (List.mem_cons_of_mem _ List.mem_cons_self))
  generalize entryAt b' off = e' at haddr hlen ⊢
  generalize entryAt b off = e at haddr hlen ⊢
  refine ⟨rfl, ?_⟩
  simp only [raiseTop, haddr, hlen]

theorem markEntry_looksAt : LooksAt markReads markEntry := by
  intro b b' off s h
  have htype : (entryAt b' off).type = (entryAt b off).type :=
    le32_congr (h (16, 4) List.mem_cons_self)
  have hreads : markReads (entryAt b' off) = markReads (entryAt b off) := by
    unfold markReads
    rw [htype]
  refine ⟨hreads, ?_⟩
  rw [markEntry, markEntry, htype]
  by_cases hone : (entryAt b off).type = 1
  · -- the range is read as well
    have hrange : markReads (entryAt b off) = [(16, 4), (0, 8), (8, 8)] := by
      unfold markReads
      rw [if_pos hone]
    rw [hrange] at h
    have haddr : (entryAt b' off).addr = (entryAt b off).addr :=
      le64_congr (h (0, 8) (by simp))
    have hlen : (entryAt b' off).len = (entryAt b off).len :=
      le64_congr (h (8, 8) (by simp))
    rw [haddr, hlen]
  · rw [if_neg hone, if_neg hone]

/-- The loop over entries that has nothing to do. -/
theorem entriesLog_done {reads : MmapEntry → List Read} {b : Nat → UInt8}
    {tag size tagEnd fuel entry : Nat} (h : ¬ entry < tagEnd) :
    entriesLog reads b tag size tagEnd fuel entry = some [] := by
  cases fuel with
  | zero => rw [entriesLog, if_neg h]
  | succ fuel => rw [entriesLog, if_neg h]

theorem walkEntries_done {σ : Type} {visit : σ → Visit → σ} {b : Nat → UInt8}
    {size tagEnd fuel entry : Nat} {s : σ} (h : ¬ entry < tagEnd) :
    walkEntries visit b size tagEnd fuel entry s = some s := by
  cases fuel with
  | zero => rw [walkEntries, if_neg h]
  | succ fuel => rw [walkEntries, if_neg h]

/-- A walk whose reads come to an end returns. -/
theorem walkEntries_isSome {σ : Type} {visit : σ → Visit → σ} {reads : MmapEntry → List Read}
    {b : Nat → UInt8} {tag size tagEnd fuel entry : Nat} {log : List Read}
    (hlog : entriesLog reads b tag size tagEnd fuel entry = some log) (s : σ) :
    (walkEntries visit b size tagEnd fuel entry s).isSome := by
  induction fuel generalizing entry log s with
  | zero =>
    unfold entriesLog at hlog
    unfold walkEntries
    by_cases hlt : entry < tagEnd
    · simp [hlt] at hlog
    · simp [hlt]
  | succ fuel ih =>
    by_cases hlt : entry < tagEnd
    · rw [entriesLog, if_pos hlt] at hlog
      rcases Option.map_eq_some_iff.1 hlog with ⟨rest, hrest, -⟩
      rw [walkEntries, if_pos hlt]
      exact ih hrest _
    · rw [walkEntries_done hlt]
      rfl

theorem walkTags_isSome {σ : Type} {visit : σ → Visit → σ} {reads : MmapEntry → List Read}
    {b : Nat → UInt8} {totalSize fuel tag : Nat} {log : List Read}
    (hlog : tagsLog reads b totalSize fuel tag = some log) (s : σ) :
    (walkTags visit b totalSize fuel tag s).isSome := by
  induction fuel generalizing tag log s with
  | zero =>
    unfold tagsLog at hlog
    unfold walkTags
    by_cases hlt : tag < totalSize
    · by_cases hzero : tagType b tag = 0
      · simp [hzero]
      · simp [hlt, hzero] at hlog
    · simp [hlt]
  | succ fuel ih =>
    unfold tagsLog at hlog
    unfold walkTags
    by_cases hlt : tag < totalSize
    swap
    · simp [hlt]
    by_cases hzero : tagType b tag = 0
    · simp [hlt, hzero]
    simp only [hlt, hzero, if_true, if_false] at hlog ⊢
    rcases Option.bind_eq_some_iff.1 hlog with ⟨entries, hentries, hmap⟩
    rcases Option.map_eq_some_iff.1 hmap with ⟨rest, hrest, -⟩
    have htag : (walkTag visit b tag s).isSome := by
      unfold tagLog at hentries
      unfold walkTag
      by_cases hsix : tagType b tag = 6
      · simp only [hsix, if_true] at hentries ⊢
        exact walkEntries_isSome hentries _
      · simp [hsix]
    rcases Option.isSome_iff_exists.1 htag with ⟨s₁, hs₁⟩
    rw [hs₁, Option.bind_some]
    exact ih hrest s₁

section Complete

variable {σ : Type} {reads : MmapEntry → List Read} {visit : σ → Visit → σ}
  (hlooks : LooksAt reads visit) {b b' : Nat → UInt8}
include hlooks

theorem walkEntries_congr {tag size tagEnd fuel entry : Nat} {log : List Read} (s : σ)
    (hlog : entriesLog reads b tag size tagEnd fuel entry = some log)
    (hagree : ∀ r ∈ log, Agree b b' r) :
    entriesLog reads b' tag size tagEnd fuel entry = some log ∧
      walkEntries visit b' size tagEnd fuel entry s = walkEntries visit b size tagEnd fuel entry s := by
  induction fuel generalizing entry log s with
  | zero => exact ⟨hlog, rfl⟩
  | succ fuel ih =>
    unfold entriesLog at hlog ⊢
    unfold walkEntries
    by_cases hlt : entry < tagEnd
    swap
    · simp only [hlt, if_false] at hlog ⊢
      exact ⟨hlog, trivial⟩
    simp only [hlt, if_true] at hlog ⊢
    rcases Option.map_eq_some_iff.1 hlog with ⟨rest, hrest, rfl⟩
    have hentry : ∀ r ∈ reads (entryAt b entry), Agree b b' (entry + r.1, r.2) := by
      intro r hr
      apply hagree
      exact List.mem_append_left _ (List.mem_map_of_mem (f := fun r => (entry + r.1, r.2)) hr)
    have hrest' : ∀ r ∈ rest, Agree b b' r := fun r hr =>
      hagree r (List.mem_append_right _ (List.mem_cons_of_mem _ hr))
    rcases hlooks b b' entry s hentry with ⟨hreads, hvisit⟩
    rcases ih (visit s (.entry (entryAt b entry))) hrest hrest' with ⟨hlog', hwalk⟩
    rw [hlog', hreads, hvisit, hwalk]
    exact ⟨rfl, rfl⟩

theorem walkTag_congr {tag : Nat} {log : List Read} (s : σ) (hlog : tagLog reads b tag = some log)
    (hagree : ∀ r ∈ log, Agree b b' r) (hsize : tagSize b' tag = tagSize b tag)
    (htype : tagType b' tag = tagType b tag) :
    tagLog reads b' tag = some log ∧ walkTag visit b' tag s = walkTag visit b tag s := by
  unfold tagLog at hlog ⊢
  unfold walkTag
  rw [htype, hsize]
  by_cases hsix : tagType b tag = 6
  swap
  · simp only [hsix, if_false] at hlog ⊢
    exact ⟨hlog, trivial⟩
  simp only [hsix, if_true] at hlog ⊢
  by_cases hnone : tag + 16 < tag + (tagSize b tag).toNat
  · -- some entry is read, and with it the size of entries
    have hmem : (tag + 8, 4) ∈ log := by
      cases hfuel : (tagSize b tag).toNat with
      | zero => omega
      | succ fuel =>
        rw [hfuel, entriesLog, if_pos (by omega)] at hlog
        rcases Option.map_eq_some_iff.1 hlog with ⟨rest, -, rfl⟩
        simp
    have hentry : entrySize b' tag = entrySize b tag := le32_congr (hagree _ hmem)
    rw [hentry]
    exact walkEntries_congr hlooks _ hlog hagree
  · -- no entry, and nothing read
    rw [walkEntries_done hnone, walkEntries_done hnone]
    rw [entriesLog_done hnone] at hlog ⊢
    exact ⟨hlog, rfl⟩

theorem walkTags_congr {totalSize fuel tag : Nat} {log : List Read} (s : σ)
    (hlog : tagsLog reads b totalSize fuel tag = some log) (hagree : ∀ r ∈ log, Agree b b' r) :
    tagsLog reads b' totalSize fuel tag = some log ∧
      walkTags visit b' totalSize fuel tag s = walkTags visit b totalSize fuel tag s := by
  induction fuel generalizing tag log s with
  | zero =>
    unfold tagsLog at hlog ⊢
    unfold walkTags
    by_cases hlt : tag < totalSize
    swap
    · simp only [hlt, if_false] at hlog
      simp only [hlt, if_false, false_and, hlog, and_self]
    simp only [hlt, if_true, true_and] at hlog ⊢
    -- without fuel the loop ends at a tag of type 0 only
    by_cases hzero : tagType b tag = 0
    swap
    · simp [hzero] at hlog
    simp only [hzero, if_true, Option.some.injEq] at hlog
    subst hlog
    have htype : tagType b' tag = tagType b tag := le32_congr (hagree (tag, 4) List.mem_cons_self)
    simp [htype, hzero]
  | succ fuel ih =>
    unfold tagsLog at hlog ⊢
    unfold walkTags
    by_cases hlt : tag < totalSize
    swap
    · simp only [hlt, if_false] at hlog ⊢
      exact ⟨hlog, trivial⟩
    simp only [hlt, if_true] at hlog ⊢
    by_cases hzero : tagType b tag = 0
    · simp only [hzero, if_true, Option.some.injEq] at hlog
      subst hlog
      have htype : tagType b' tag = tagType b tag := le32_congr (hagree (tag, 4) List.mem_cons_self)
      simp [htype, hzero]
    simp only [hzero, if_false] at hlog
    rcases Option.bind_eq_some_iff.1 hlog with ⟨entries, hentries, hmap⟩
    rcases Option.map_eq_some_iff.1 hmap with ⟨rest, hrest, rfl⟩
    -- type and size of the tag are in the log, so the blocks agree on where the next one is
    have htype : tagType b' tag = tagType b tag := le32_congr (hagree (tag, 4) List.mem_cons_self)
    have hsize : tagSize b' tag = tagSize b tag := le32_congr (hagree (tag + 4, 4) (by simp))
    have hpadded : paddedSize b' tag = paddedSize b tag := by
      unfold paddedSize
      rw [hsize]
    have hin : ∀ r ∈ entries, Agree b b' r := fun r hr => hagree r (by simp [hr])
    rcases walkTag_congr hlooks s hentries hin hsize htype with ⟨hentries', hwalk⟩
    have hrest' : ∀ r ∈ rest, Agree b b' r := fun r hr => hagree r (by simp [hr])
    simp only [htype, hzero, if_false, hentries', hwalk, hpadded, Option.bind_some]
    refine ⟨?_, ?_⟩
    · rw [(ih s hrest hrest').1, Option.map_some]
    · cases walkTag visit b tag s with
      | none => rfl
      | some s₁ => exact (ih s₁ hrest hrest').2

end Complete

/-! ## Blocks that are read inside of their size -/

section Walkable

variable (b : Nat → UInt8) (totalSize : Nat)

/-- The entries of a memory map tag can be read: the loop over them leads on, and each entry it
comes to is in the block up to its `type`. -/
structure EntriesInside (tag : Nat) : Prop where
  advances : 16 < (tagSize b tag).toNat → 0 < (entrySize b tag).toNat
  inside : ∀ k, 16 + k * (entrySize b tag).toNat < (tagSize b tag).toNat →
    tag + 16 + k * (entrySize b tag).toNat + 20 ≤ totalSize

/-- From this offset on, every tag header is in the block, every tag leads on, and the entries of
memory map tags can be read, up to the end of the block or a tag of type 0. -/
inductive Walkable : Nat → Prop where
  | done {tag : Nat} (h : totalSize ≤ tag) : Walkable tag
  | stop {tag : Nat} (hin : tag + 4 ≤ totalSize) (htype : tagType b tag = 0) : Walkable tag
  | tag {tag : Nat} (hin : tag + 8 ≤ totalSize) (htype : tagType b tag ≠ 0)
      (hadvances : 0 < (paddedSize b tag).toNat)
      (hentries : tagType b tag = 6 → EntriesInside b totalSize tag)
      (hrest : Walkable (tag + (paddedSize b tag).toNat)) : Walkable tag

end Walkable

section Entries

variable {reads : MmapEntry → List Read} {b : Nat → UInt8} {totalSize tag size tagEnd : Nat}

/-- An entry size of 0 stalls the loop. -/
theorem entriesLog_stalls (fuel : Nat) {entry : Nat} (h : entry < tagEnd) :
    entriesLog reads b tag 0 tagEnd fuel entry = none := by
  induction fuel with
  | zero => rw [entriesLog, if_pos h]
  | succ fuel ih =>
    simp only [entriesLog, h, if_true, Nat.add_zero, ih, Option.map_none]

/-- A loop that leads on through entries in the block ends, and reads inside. -/
theorem entriesLog_inside (hreads : ∀ e, ∀ r ∈ reads e, r.1 + r.2 ≤ 20) (hsize : 0 < size)
    (fuel : Nat) {entry : Nat} (hfuel : tagEnd ≤ entry + fuel) (hentry : tag + 12 ≤ entry)
    (hin : ∀ k, entry + k * size < tagEnd → entry + k * size + 20 ≤ totalSize) :
    ∃ log, entriesLog reads b tag size tagEnd fuel entry = some log ∧
      ∀ r ∈ log, r.1 + r.2 ≤ totalSize := by
  induction fuel generalizing entry with
  | zero =>
    refine ⟨[], entriesLog_done (by omega), ?_⟩
    simp
  | succ fuel ih =>
    by_cases hlt : entry < tagEnd
    swap
    · refine ⟨[], entriesLog_done hlt, ?_⟩
      simp
    have hfirst : entry + 20 ≤ totalSize := by
      have hzero := hin 0
      rw [Nat.zero_mul, Nat.add_zero] at hzero
      exact hzero hlt
    have hnext : ∀ k, entry + size + k * size < tagEnd → entry + size + k * size + 20 ≤ totalSize := by
      intro k hk
      have hsucc := hin (k + 1)
      rw [Nat.succ_mul] at hsucc
      omega
    rcases ih (by omega) (by omega) hnext with ⟨log, hlog, hall⟩
    refine ⟨_, by rw [entriesLog, if_pos hlt, hlog]; rfl, ?_⟩
    intro r hr
    -- the fields of the entry, the entry size in the tag again, and the rest of the loop
    rcases List.mem_append.1 hr with hr | hr
    · rcases List.mem_map.1 hr with ⟨r', hr', rfl⟩
      have hle := hreads _ r' hr'
      show entry + r'.1 + r'.2 ≤ totalSize
      omega
    · rcases List.mem_cons.1 hr with rfl | hr
      · show tag + 8 + 4 ≤ totalSize
        omega
      · exact hall r hr

/-- A loop that has read inside only came to entries that are in the block. -/
theorem inside_of_entriesLog (hlast : ∀ e, (16, 4) ∈ reads e) (fuel : Nat) {entry : Nat}
    {log : List Read} (hlog : entriesLog reads b tag size tagEnd fuel entry = some log)
    (hin : ∀ r ∈ log, r.1 + r.2 ≤ totalSize) (k : Nat) (hk : entry + k * size < tagEnd) :
    entry + k * size + 20 ≤ totalSize := by
  induction fuel generalizing entry log k with
  | zero =>
    rw [entriesLog, if_pos (by omega)] at hlog
    cases hlog
  | succ fuel ih =>
    rw [entriesLog, if_pos (by omega)] at hlog
    rcases Option.map_eq_some_iff.1 hlog with ⟨rest, hrest, rfl⟩
    cases k with
    | zero =>
      -- the `type` of the entry is the last field that is read
      have hmem := List.mem_map_of_mem (f := fun r : Read => (entry + r.1, r.2))
        (hlast (entryAt b entry))
      have hle : entry + 16 + 4 ≤ totalSize := hin _ (List.mem_append_left _ hmem)
      rw [Nat.zero_mul]
      omega
    | succ k =>
      rw [Nat.succ_mul] at hk ⊢
      have hnext := ih hrest (fun r hr => hin r (List.mem_append_right _ (List.mem_cons_of_mem _ hr)))
        k (by omega)
      omega

end Entries

/-- The entries of one tag. -/
theorem tagLog_inside {reads : MmapEntry → List Read}
    (hreads : ∀ e, ∀ r ∈ reads e, r.1 + r.2 ≤ 20) {b : Nat → UInt8} {totalSize tag : Nat}
    (hentries : tagType b tag = 6 → EntriesInside b totalSize tag) :
    ∃ entries, tagLog reads b tag = some entries ∧ ∀ r ∈ entries, r.1 + r.2 ≤ totalSize := by
  unfold tagLog
  by_cases hsix : tagType b tag = 6
  swap
  · exact ⟨[], if_neg hsix, by simp⟩
  rw [if_pos hsix]
  have hok := hentries hsix
  by_cases hsome : 16 < (tagSize b tag).toNat
  · apply entriesLog_inside hreads (hok.advances hsome) _ (by omega) (by omega)
    intro k hk
    exact hok.inside k (by omega)
  · exact ⟨[], entriesLog_done (by omega), by simp⟩

/-- A walkable block is walked to its end, inside of its size, whatever is read of the entries; a
turn for each byte is enough. -/
theorem robust_of_walkable {reads : MmapEntry → List Read}
    (hreads : ∀ e, ∀ r ∈ reads e, r.1 + r.2 ≤ 20) {b : Nat → UInt8} {totalSize tag : Nat}
    (h : Walkable b totalSize tag) (fuel : Nat) (hfuel : totalSize ≤ tag + fuel) :
    ∃ log, tagsLog reads b totalSize fuel tag = some log ∧ ∀ r ∈ log, r.1 + r.2 ≤ totalSize := by
  induction h generalizing fuel with
  | @done tag h =>
    refine ⟨[], ?_, by simp⟩
    cases fuel with
    | zero => rw [tagsLog, if_neg (by omega)]
    | succ fuel => rw [tagsLog, if_neg (by omega)]
  | @stop tag hin htype =>
    refine ⟨[(tag, 4)], ?_, by simpa using hin⟩
    cases fuel with
    | zero => rw [tagsLog, if_pos (by omega), if_pos htype]
    | succ fuel => rw [tagsLog, if_pos (by omega), if_pos htype]
  | @tag tag hin htype hadvances hentries _ ih =>
    cases fuel with
    | zero => omega
    | succ fuel =>
      rcases ih fuel (by omega) with ⟨log, hlog, hall⟩
      rcases tagLog_inside hreads hentries with ⟨entries, hentries', hin'⟩
      refine ⟨(tag, 4) :: (tag + 4, 4) :: (entries ++ log), ?_, ?_⟩
      · rw [tagsLog, if_pos (by omega), if_neg htype, hentries', Option.bind_some, hlog]
        rfl
      · intro r hr
        simp only [List.mem_cons, List.mem_append] at hr
        rcases hr with rfl | rfl | hr | hr
        · show tag + 4 ≤ totalSize
          omega
        · show tag + 4 + 4 ≤ totalSize
          omega
        · exact hin' r hr
        · exact hall r hr

/-- A tag whose size rounds up to 0 stalls the loop over tags. -/
theorem tagsLog_stalls {reads : MmapEntry → List Read} {b : Nat → UInt8} {totalSize tag : Nat}
    (hlt : tag < totalSize) (htype : tagType b tag ≠ 0) (hzero : (paddedSize b tag).toNat = 0)
    (fuel : Nat) : tagsLog reads b totalSize fuel tag = none := by
  induction fuel with
  | zero => rw [tagsLog, if_pos hlt, if_neg htype]
  | succ fuel ih =>
    rw [tagsLog, if_pos hlt, if_neg htype]
    cases tagLog reads b tag with
    | none => rfl
    | some entries =>
      simp only [hzero, Nat.add_zero, ih, Option.bind_some, Option.map_none]

/-- A block on which a walker that reads the types of entries ends and stays inside is walkable. -/
theorem walkable_of_robust {reads : MmapEntry → List Read} (hlast : ∀ e, (16, 4) ∈ reads e)
    {b : Nat → UInt8} {totalSize : Nat} (fuel : Nat) {tag : Nat} {log : List Read}
    (hlog : tagsLog reads b totalSize fuel tag = some log)
    (hin : ∀ r ∈ log, r.1 + r.2 ≤ totalSize) : Walkable b totalSize tag := by
  induction fuel generalizing tag log with
  | zero =>
    rw [tagsLog] at hlog
    by_cases hlt : tag < totalSize
    swap
    · exact .done (by omega)
    by_cases hzero : tagType b tag = 0
    · simp only [hlt, hzero, if_true, Option.some.injEq] at hlog
      exact .stop (hin (tag, 4) (by simp [← hlog])) hzero
    · simp [hlt, hzero] at hlog
  | succ fuel ih =>
    by_cases hlt : tag < totalSize
    swap
    · exact .done (by omega)
    by_cases hzero : tagType b tag = 0
    · simp only [tagsLog, hlt, hzero, if_true, Option.some.injEq] at hlog
      exact .stop (hin (tag, 4) (by simp [← hlog])) hzero
    -- the loop has ended, so it cannot have stalled here
    have hadvances : 0 < (paddedSize b tag).toNat := by
      by_contra hstall
      rw [tagsLog_stalls hlt hzero (by omega)] at hlog
      cases hlog
    rw [tagsLog, if_pos hlt, if_neg hzero] at hlog
    rcases Option.bind_eq_some_iff.1 hlog with ⟨entries, hentries, hmap⟩
    rcases Option.map_eq_some_iff.1 hmap with ⟨rest, hrest, rfl⟩
    have hheader : tag + 4 + 4 ≤ totalSize := hin (tag + 4, 4) (by simp)
    refine .tag (by omega) hzero hadvances ?_ (ih hrest fun r hr => hin r (by simp [hr]))
    intro hsix
    have hinside : ∀ r ∈ entries, r.1 + r.2 ≤ totalSize := fun r hr => hin r (by simp [hr])
    rw [tagLog, if_pos hsix] at hentries
    refine ⟨?_, ?_⟩
    · intro hsome
      by_contra hstall
      have hes : (entrySize b tag).toNat = 0 := by omega
      rw [hes, entriesLog_stalls _ (by omega)] at hentries
      cases hentries
    · intro k hk
      exact inside_of_entriesLog hlast _ hentries hinside k (by omega)

theorem topReads_le (e : MmapEntry) : ∀ r ∈ topReads e, r.1 + r.2 ≤ 20 := by
  intro r hr
  simp only [topReads, List.mem_cons, List.not_mem_nil, or_false] at hr
  rcases hr with rfl | rfl
  · decide
  · decide

theorem markReads_le (e : MmapEntry) : ∀ r ∈ markReads e, r.1 + r.2 ≤ 20 := by
  intro r hr
  rcases List.mem_cons.1 hr with rfl | hr
  · decide
  by_cases hone : e.type = 1
  · rw [if_pos hone] at hr
    exact topReads_le e r hr
  · rw [if_neg hone] at hr
    cases hr

/-- Both walkers of the kernel end on a block and read inside of its size exactly when the block
is walkable from its first tag on. -/
theorem walkers_robust_iff (b : Nat → UInt8) :
    (Robust topReads b ∧ Robust markReads b) ↔ Walkable b (le32 b 0).toNat 8 := by
  constructor
  · -- `mark_multiboot_memory` reads the type of every entry, available or not
    rintro ⟨-, fuel, log, hlog, hin⟩
    exact walkable_of_robust (fun e => List.mem_cons_self) fuel hlog hin
  · intro h
    have hfuel : (le32 b 0).toNat ≤ 8 + (le32 b 0).toNat := by omega
    exact ⟨⟨_, robust_of_walkable topReads_le h _ hfuel⟩, ⟨_, robust_of_walkable markReads_le h _ hfuel⟩⟩

/-- On a walkable block both walkers return, and what they do depends on the block's own bytes
only. -/
theorem walkers_of_walkable {b b' : Nat → UInt8} (h : Walkable b (le32 b 0).toNat 8)
    (hsame : ∀ i, i < 4 ∨ i < (le32 b 0).toNat → b i = b' i) :
    getMultibootMemoryTop (some b') = getMultibootMemoryTop (some b) ∧
      (getMultibootMemoryTop (some b)).isSome ∧
      ∀ s, markMultibootMemory (some b') s = markMultibootMemory (some b) s ∧
        (markMultibootMemory (some b) s).isSome := by
  have hfuel : (le32 b 0).toNat ≤ 8 + (le32 b 0).toNat := by omega
  have hword : le32 b' 0 = le32 b 0 := by
    apply le32_congr
    intro i hi
    rw [Nat.zero_add]
    exact hsame i (Or.inl hi)
  have hagree : ∀ log : List Read, (∀ r ∈ log, r.1 + r.2 ≤ (le32 b 0).toNat) →
      ∀ r ∈ log, Agree b b' r := by
    intro log hin r hr i hi
    have hle := hin r hr
    exact hsame _ (Or.inr (by omega))
  rcases robust_of_walkable topReads_le h _ hfuel with ⟨log, hlog, hin⟩
  rcases robust_of_walkable markReads_le h _ hfuel with ⟨log', hlog', hin'⟩
  have htop := walkTags_congr raiseTop_looksAt (0 : UInt64) hlog (hagree log hin)
  refine ⟨?_, walkTags_isSome hlog 0, ?_⟩
  · show walk raiseTop b' 0 = walk raiseTop b 0
    unfold walk
    rw [hword]
    exact htop.2
  · intro s
    refine ⟨?_, walkTags_isSome hlog' _⟩
    show walk markEntry b' (false, s) = walk markEntry b (false, s)
    unfold walk
    rw [hword]
    exact (walkTags_congr markEntry_looksAt (false, s) hlog' (hagree log' hin')).2

/-- A block of 16 bytes with one tag of size 0. -/
def zeroSizeBlock (i : Nat) : UInt8 := [16, 0, 0, 0, 0, 0, 0, 0, 1, 0, 0, 0, 0, 0, 0, 0].getD i 0

/-- A block of 24 bytes that ends with the header of a memory map tag; the tag claims one entry
more. -/
def cutShortBlock (i : Nat) : UInt8 :=
  [24, 0, 0, 0, 0, 0, 0, 0, 6, 0, 0, 0, 40, 0, 0, 0, 24, 0, 0, 0, 0, 0, 0, 0].getD i 0

/-- The walkers never get past the tag of size 0, and read an entry behind the end of the block that
is cut short. -/
theorem walkers_stall_and_overrun :
    ¬ (Robust topReads zeroSizeBlock ∧ Robust markReads zeroSizeBlock) ∧
      (∀ fuel, tagsLog topReads zeroSizeBlock 16 fuel 8 = none) ∧
      tagsLog topReads cutShortBlock 24 1 8 =
        some [(8, 4), (12, 4), (24, 8), (32, 8), (16, 4)] := by
  have hstall : ∀ fuel, tagsLog topReads zeroSizeBlock 16 fuel 8 = none := by
    intro fuel
    apply tagsLog_stalls (by decide) (by decide) (by decide)
  refine ⟨?_, hstall, by decide⟩
  rintro ⟨⟨fuel, log, hlog, -⟩, -⟩
  have hsize : (le32 zeroSizeBlock 0).toNat = 16 := by decide
  rw [hsize, hstall fuel] at hlog
  cases hlog

end CosKernel.Boot
