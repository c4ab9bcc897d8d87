import CosKernel.Boot.Model
import CosKernel.Pmm.Boot

/-!
# From the boot memory map to free frames

Whatever a walker does, it meets the same tags and entries in the same order
(`walk_eq_trace`), so `kernel_main` sets the memory manager up from one list
(`kernelMain_eq`). For a well-formed information block this list is that of the
entries of its memory map tags, and the free frames are those a reader of the
map expects (`boot_free_frames`).
-/

namespace CosKernel.Boot

open Bytes Pmm

/-! ## What the walkers meet -/

/-- Everything a walker meets, in order. -/
def trace (b : Nat → UInt8) : Option (List Visit) := walk (fun l v => l ++ [v]) b []

section Trace

variable {σ : Type} (visit : σ → Visit → σ) (b : Nat → UInt8) (s : σ)

/-- The accumulated list can be folded afterwards or along the way. -/
theorem walkEntries_foldl (size tagEnd fuel entry : Nat) (l : List Visit) :
    walkEntries visit b size tagEnd fuel entry (l.foldl visit s) =
      (walkEntries (fun l v => l ++ [v]) b size tagEnd fuel entry l).map (List.foldl visit s) := by
  induction fuel generalizing entry l with
  | zero =>
    unfold walkEntries
    split <;> rfl
  | succ fuel ih =>
    unfold walkEntries
    -- both loops take the same branch, for they look at the block only
    by_cases hlt : entry < tagEnd
    · rw [if_pos hlt, if_pos hlt, ← ih, List.foldl_append]
      rfl
    · rw [if_neg hlt, if_neg hlt]
      rfl

theorem walkTag_foldl (tag : Nat) (l : List Visit) :
    walkTag visit b tag (l.foldl visit s) =
      (walkTag (fun l v => l ++ [v]) b tag l).map (List.foldl visit s) := by
  unfold walkTag
  by_cases htype : tagType b tag = 6
  · rw [if_pos htype, if_pos htype, ← walkEntries_foldl, List.foldl_append]
    rfl
  · rw [if_neg htype, if_neg htype]
    rfl

theorem walkTags_foldl (totalSize fuel tag : Nat) (l : List Visit) :
    walkTags visit b totalSize fuel tag (l.foldl visit s) =
      (walkTags (fun l v => l ++ [v]) b totalSize fuel tag l).map (List.foldl visit s) := by
  induction fuel generalizing tag l with
  | zero =>
    unfold walkTags
    split <;> rfl
  | succ fuel ih =>
    unfold walkTags
    by_cases hlt : tag < totalSize
    · rw [if_pos hlt, if_pos hlt]
      by_cases htype : tagType b tag = 0
      · rw [if_pos htype, if_pos htype]
        rfl
      · rw [if_neg htype, if_neg htype, walkTag_foldl]
        cases walkTag (fun l v => l ++ [v]) b tag l with
        | none => rfl
        | some l' => exact ih _ l'
    · rw [if_neg hlt, if_neg hlt]
      rfl

/-- A walk folds its action over the trace. -/
theorem walk_eq_trace : walk visit b s = (trace b).map (List.foldl visit s) :=
  walkTags_foldl visit b s _ _ 8 []

end Trace

/-! ## The two walkers on a trace -/

/-- The entries among the visits. -/
def entriesOf (t : List Visit) : List MmapEntry :=
  t.filterMap fun v => match v with
    | .mmap => none
    | .entry e => some e

/-- The ranges of the available entries, as `pmm_add_available_range` gets them. -/
def availableRanges (es : List MmapEntry) : List (UInt64 × UInt64) :=
  (es.filter fun e => e.type = 1).map fun e => (e.addr, e.len)

/-- The highest end of an entry, in 64-bit arithmetic. -/
def memoryTop (es : List MmapEntry) : UInt64 :=
  es.foldl (fun m e => raiseTop m (.entry e)) 0

theorem foldl_raiseTop (t : List Visit) (m : UInt64) :
    t.foldl raiseTop m = (entriesOf t).foldl (fun m e => raiseTop m (.entry e)) m := by
  induction t generalizing m with
  | nil => rfl
  | cons v t ih =>
    cases v with
    | mmap => exact ih m
    | entry e => exact ih _

theorem foldl_markEntry (t : List Visit) (r : Bool × PmmT) :
    t.foldl markEntry r =
      (r.1 || decide (Visit.mmap ∈ t), addRanges (availableRanges (entriesOf t)) r.2) := by
  induction t generalizing r with
  | nil => simp [entriesOf, availableRanges, addRanges]
  | cons v t ih =>
    rw [List.foldl_cons, ih]
    cases v with
    | mmap => simp [markEntry, entriesOf]
    | entry e =>
      by_cases htype : e.type = 1
      · simp [markEntry, entriesOf, availableRanges, addRanges, htype]
      · simp [markEntry, entriesOf, availableRanges, addRanges, htype]

/-- What the walkers meet in the block `kernel_main` gets. -/
def bootTrace : Option (Nat → UInt8) → Option (List Visit)
  | none => some []
  | some b => trace b

/-- The ranges `kernel_main` makes available: those of the map, and all memory above 1 MB if the
block has no memory map tag. -/
def bootRanges (t : List Visit) : List (UInt64 × UInt64) :=
  availableRanges (entriesOf t) ++ if Visit.mmap ∈ t then []
    else [(0x100000, maxMemory (memoryTop (entriesOf t)) - 0x100000)]

/-- `kernel_main` runs the boot sequence of the memory manager on what the walkers meet, and hangs
if they do. -/
theorem kernelMain_eq (info : Option (Nat → UInt8)) :
    kernelMain info = (bootTrace info).map fun t =>
      boot (maxMemory (memoryTop (entriesOf t))) (bootRanges t) := by
  have htop : getMultibootMemoryTop info =
      (bootTrace info).map fun t => memoryTop (entriesOf t) := by
    cases info with
    | none => rfl
    | some b =>
      show walk raiseTop b 0 = _
      rw [walk_eq_trace]
      congr 1
      funext t
      exact foldl_raiseTop t 0
  have hmark : ∀ s, markMultibootMemory info s = (bootTrace info).map fun t =>
      (decide (Visit.mmap ∈ t), addRanges (availableRanges (entriesOf t)) s) := by
    intro s
    cases info with
    | none => rfl
    | some b =>
      show walk markEntry b (false, s) = _
      rw [walk_eq_trace]
      congr 1
      funext t
      rw [foldl_markEntry, Bool.false_or]
  unfold kernelMain
  rw [htop]
  cases htrace : bootTrace info with
  | none => rfl
  | some t =>
    simp only [Option.map_some, Option.bind_eq_bind, Option.bind_some, hmark, htrace]
    unfold boot bootRanges
    by_cases hmem : Visit.mmap ∈ t
    · simp [hmem]
    · simp [hmem, addRanges]

/-! ## Well-formed blocks -/

/-- The frames needed for this many bytes. -/
def ceilFrames (bytes : Nat) : Nat := (bytes + 4095) / 4096

/-- The number of entries of a memory map tag. -/
def entryCount (b : Nat → UInt8) (tag : Nat) : Nat :=
  ((tagSize b tag).toNat - 16) / (entrySize b tag).toNat

/-- The entries of a tag: none unless it is a memory map tag. -/
def tagEntries (b : Nat → UInt8) (tag : Nat) : List MmapEntry :=
  if tagType b tag = 6 then
    (List.range (entryCount b tag)).map fun i => entryAt b (tag + 16 + i * (entrySize b tag).toNat)
  else []

/-- The end of an entry does not come near the top of the address space. -/
def MmapEntry.Fits (e : MmapEntry) : Prop := e.addr.toNat + e.len.toNat + 4095 < 2 ^ 64

/-- A well-formed tag. That the size can be padded in 32 bits follows from the tag being inside
a block whose size has 32 bits. -/
structure WfTag (b : Nat → UInt8) (tag : Nat) : Prop where
  size_ge : 8 ≤ (tagSize b tag).toNat
  size_lt : (tagSize b tag).toNat + 7 < 2 ^ 32
  entrySize_ge : tagType b tag = 6 → 24 ≤ (entrySize b tag).toNat
  entrySize_dvd : tagType b tag = 6 → (entrySize b tag).toNat ∣ (tagSize b tag).toNat - 16
  fits : ∀ e ∈ tagEntries b tag, e.Fits

/-- The offsets of the tags of a block from one offset on, each 8-byte aligned after the other, up
to the end of the block or to a tag of type 0. -/
inductive Tags (b : Nat → UInt8) (totalSize : Nat) : Nat → List Nat → Prop where
  | done {tag : Nat} (h : totalSize ≤ tag) : Tags b totalSize tag []
  | stop {tag : Nat} (hlt : tag < totalSize) (htype : tagType b tag = 0) : Tags b totalSize tag []
  | tag {tag : Nat} {tags : List Nat} (hlt : tag < totalSize) (htype : tagType b tag ≠ 0)
      (hwf : WfTag b tag) (hrest : Tags b totalSize (tag + ((tagSize b tag).toNat + 7) / 8 * 8) tags) :
      Tags b totalSize tag (tag :: tags)

/-- The information `kernel_main` gets is `NULL` or a well-formed block with these tags. -/
inductive WfInfo : Option (Nat → UInt8) → List Nat → Prop where
  | null : WfInfo none []
  | block {b : Nat → UInt8} {tags : List Nat} (h : Tags b (le32 b 0).toNat 8 tags) : WfInfo (some b) tags

/-- Clearing the low three bits rounds down to a multiple of 8. -/
theorem toNat_and_not_seven (x : UInt32) : (x &&& ~~~7).toNat = x.toNat / 8 * 8 := by
  apply Nat.eq_of_testBit_eq
  intro i
  -- bit by bit: the mask keeps the bits from 3 on, as the two shifts do
  have hmask : ∀ i < 32, Nat.testBit (~~~7 : UInt32).toNat i = decide (3 ≤ i) := by decide
  have hmul : x.toNat / 8 * 8 = (x.toNat >>> 3) <<< 3 := by
    rw [Nat.shiftRight_eq_div_pow, Nat.shiftLeft_eq]
  rw [UInt32.toNat_and, Nat.testBit_and, hmul, Nat.testBit_shiftLeft, Nat.testBit_shiftRight]
  by_cases hi : i < 32
  · rw [hmask i hi]
    by_cases hlow : 3 ≤ i
    · have hback : 3 + (i - 3) = i := by omega
      simp [hlow, hback]
    · simp [hlow]
  · have hzero : x.toNat.testBit i = false :=
      Nat.testBit_lt_two_pow (lt_of_lt_of_le x.toNat_lt (Nat.pow_le_pow_right (by norm_num) (by omega)))
    have hback : 3 + (i - 3) = i := by omega
    rw [hback, hzero]
    simp

theorem paddedSize_toNat {b : Nat → UInt8} {tag : Nat} (h : (tagSize b tag).toNat + 7 < 2 ^ 32) :
    (paddedSize b tag).toNat = ((tagSize b tag).toNat + 7) / 8 * 8 := by
  unfold paddedSize
  have hseven : (7 : UInt32).toNat = 7 := rfl
  rw [toNat_and_not_seven, UInt32.toNat_add, hseven, Nat.mod_eq_of_lt h]

/-- What a walker meets in a tag. -/
def tagVisits (b : Nat → UInt8) (tag : Nat) : List Visit :=
  if tagType b tag = 6 then .mmap :: (tagEntries b tag).map .entry else []

section Wf

variable {σ : Type} (visit : σ → Visit → σ) (b : Nat → UInt8)

/-- The loop over entries, when the entry size divides the entry area. -/
theorem walkEntries_range (size n fuel entry : Nat) (s : σ) (hsize : 0 < size) (hn : n ≤ fuel) :
    walkEntries visit b size (entry + n * size) fuel entry s =
      some (((List.range n).map fun i => Visit.entry (entryAt b (entry + i * size))).foldl visit s) := by
  induction n generalizing fuel entry s with
  | zero =>
    cases fuel with
    | zero => simp [walkEntries]
    | succ fuel => simp [walkEntries]
  | succ n ih =>
    cases fuel with
    | zero => omega
    | succ fuel =>
      have hend : entry + (n + 1) * size = entry + size + n * size := by
        rw [Nat.succ_mul]
        omega
      have hlt : entry < entry + size + n * size := by omega
      have hmap : ((List.range n).map fun i => Visit.entry (entryAt b (entry + size + i * size))) =
          (List.range n).map ((fun i => Visit.entry (entryAt b (entry + i * size))) ∘ Nat.succ) := by
        apply List.map_congr_left
        intro i _
        show _ = Visit.entry (entryAt b (entry + (i + 1) * size))
        rw [Nat.succ_mul, Nat.add_assoc, Nat.add_comm size]
      -- the first entry is visited, and the rest is the same loop one entry further
      unfold walkEntries
      rw [hend, if_pos hlt, ih fuel (entry + size) _ (by omega), hmap, List.range_succ_eq_map,
        List.map_cons, List.map_map, List.foldl_cons, Nat.zero_mul, Nat.add_zero]

theorem walkTag_wf {tag : Nat} (hwf : WfTag b tag) (s : σ) :
    walkTag visit b tag s = some ((tagVisits b tag).foldl visit s) := by
  unfold walkTag tagVisits
  by_cases htype : tagType b tag = 6
  swap
  · rw [if_neg htype, if_neg htype]
    rfl
  rw [if_pos htype, if_pos htype, List.foldl_cons]
  unfold tagEntries
  rw [if_pos htype, List.map_map]
  have hsize := hwf.entrySize_ge htype
  have hcount : entryCount b tag * (entrySize b tag).toNat = (tagSize b tag).toNat - 16 :=
    Nat.div_mul_cancel (hwf.entrySize_dvd htype)
  by_cases harea : 16 ≤ (tagSize b tag).toNat
  · have hend : tag + (tagSize b tag).toNat = tag + 16 + entryCount b tag * (entrySize b tag).toNat := by
      omega
    have hfuel : entryCount b tag ≤ (tagSize b tag).toNat := by
      unfold entryCount
      exact (Nat.div_le_self _ _).trans (Nat.sub_le _ _)
    rw [hend]
    exact walkEntries_range visit b _ _ _ _ _ (by omega) hfuel
  · -- no room for entries
    have hzero : entryCount b tag = 0 := by
      unfold entryCount
      rw [Nat.sub_eq_zero_of_le (by omega), Nat.zero_div]
    rw [hzero]
    cases hfuel : (tagSize b tag).toNat with
    | zero => simp [walkEntries]
    | succ fuel =>
      unfold walkEntries
      rw [if_neg (by omega)]
      rfl

theorem walkTags_wf {totalSize tag : Nat} {tags : List Nat} (h : Tags b totalSize tag tags)
    (fuel : Nat) (hfuel : totalSize ≤ tag + fuel) (s : σ) :
    walkTags visit b totalSize fuel tag s = some ((tags.flatMap (tagVisits b)).foldl visit s) := by
  -- every tag of a well-formed block moves the walker on by at least 8 bytes
  induction h generalizing fuel s with
  | done hge =>
    cases fuel with
    | zero => simp [walkTags, not_lt.2 hge]
    | succ fuel => simp [walkTags, not_lt.2 hge]
  | stop hlt htype =>
    cases fuel with
    | zero => simp [walkTags, htype]
    | succ fuel => simp [walkTags, hlt, htype]
  | @tag tag tags hlt htype hwf _ ih =>
    cases fuel with
    | zero => omega
    | succ fuel =>
      have hpad := paddedSize_toNat hwf.size_lt
      have hge := hwf.size_ge
      unfold walkTags
      rw [if_pos hlt, if_neg htype, walkTag_wf visit b hwf, Option.bind_some, hpad,
        ih fuel (by omega), List.flatMap_cons, List.foldl_append]

end Wf

/-- The visits of a well-formed block, or of none. -/
def infoVisits : Option (Nat → UInt8) → List Nat → List Visit
  | none, _ => []
  | some b, tags => tags.flatMap (tagVisits b)

theorem foldl_snoc {α : Type} (l l' : List α) : l'.foldl (fun l v => l ++ [v]) l = l ++ l' := by
  induction l' generalizing l with
  | nil => simp
  | cons a l' ih =>
    rw [List.foldl_cons, ih]
    simp

theorem bootTrace_wf {info : Option (Nat → UInt8)} {tags : List Nat} (h : WfInfo info tags) :
    bootTrace info = some (infoVisits info tags) := by
  cases h with
  | null => rfl
  | block h =>
    show walk _ _ [] = _
    unfold walk
    rw [walkTags_wf _ _ h _ (by omega), foldl_snoc]
    rfl

/-! ## What a reader of the map expects -/

/-- All entries of all memory map tags. -/
def infoEntries : Option (Nat → UInt8) → List Nat → List MmapEntry
  | none, _ => []
  | some b, tags => tags.flatMap (tagEntries b)

/-- There is a memory map tag. -/
def HasMmap : Option (Nat → UInt8) → List Nat → Prop
  | none, _ => False
  | some b, tags => ∃ tag ∈ tags, tagType b tag = 6

/-- The largest end of an entry. -/
def topOf (es : List MmapEntry) : Nat := (es.map fun e => e.addr.toNat + e.len.toNat).foldr max 0

/-- The size of physical memory: the largest end of an entry, 6 GB if that is 0. -/
def physicalTop (es : List MmapEntry) : Nat := if topOf es = 0 then 0x180000000 else topOf es

/-- A frame that is usable after boot according to the map. -/
def Usable (info : Option (Nat → UInt8)) (tags : List Nat) (f : Nat) : Prop :=
  512 ≤ f ∧ f < min (ceilFrames (physicalTop (infoEntries info tags))) (131072 * 64) ∧
    ((∃ e ∈ infoEntries info tags, e.type = 1 ∧ 0 < e.len.toNat ∧
        e.addr.toNat / 4096 ≤ f ∧ f < ceilFrames (e.addr.toNat + e.len.toNat)) ∨
      (¬ HasMmap info tags ∧ 0x100000 / 4096 ≤ f ∧
        f < ceilFrames (physicalTop (infoEntries info tags))))

theorem entriesOf_tagVisits (b : Nat → UInt8) (tag : Nat) :
    entriesOf (tagVisits b tag) = tagEntries b tag := by
  unfold tagVisits
  by_cases htype : tagType b tag = 6
  · rw [if_pos htype]
    simp [entriesOf, List.filterMap_map]
  · simp [htype, entriesOf, tagEntries]

theorem entriesOf_infoVisits (info : Option (Nat → UInt8)) (tags : List Nat) :
    entriesOf (infoVisits info tags) = infoEntries info tags := by
  cases info with
  | none => rfl
  | some b =>
    induction tags with
    | nil => rfl
    | cons tag tags ih =>
      show entriesOf (tagVisits b tag ++ infoVisits (some b) tags) =
        tagEntries b tag ++ infoEntries (some b) tags
      rw [← ih, ← entriesOf_tagVisits]
      exact List.filterMap_append

theorem mmap_mem_infoVisits (info : Option (Nat → UInt8)) (tags : List Nat) :
    Visit.mmap ∈ infoVisits info tags ↔ HasMmap info tags := by
  cases info with
  | none => simp [infoVisits, HasMmap]
  | some b =>
    simp only [infoVisits, HasMmap, List.mem_flatMap]
    constructor
    · rintro ⟨tag, hmem, hvisit⟩
      refine ⟨tag, hmem, ?_⟩
      by_contra htype
      simp [tagVisits, htype] at hvisit
    · rintro ⟨tag, hmem, htype⟩
      exact ⟨tag, hmem, by simp [tagVisits, htype]⟩

/-- Without a memory map tag there are no entries. -/
theorem infoEntries_nil {info : Option (Nat → UInt8)} {tags : List Nat} (h : ¬ HasMmap info tags) :
    infoEntries info tags = [] := by
  cases info with
  | none => rfl
  | some b =>
    show tags.flatMap (tagEntries b) = []
    rw [List.flatMap_eq_nil_iff]
    intro tag hmem
    unfold tagEntries
    rw [if_neg]
    intro htype
    exact h ⟨tag, hmem, htype⟩

theorem WfInfo.fits {info : Option (Nat → UInt8)} {tags : List Nat} (h : WfInfo info tags) :
    ∀ e ∈ infoEntries info tags, e.Fits := by
  -- along the tags, for the block of `WfInfo` starts at a fixed offset
  have htags : ∀ {b : Nat → UInt8} {totalSize tag : Nat} {tags : List Nat},
      Tags b totalSize tag tags → ∀ e ∈ tags.flatMap (tagEntries b), e.Fits := by
    intro b totalSize tag tags h
    induction h with
    | done _ => simp
    | stop _ _ => simp
    | tag _ _ hwf _ ih =>
      intro e he
      rw [List.flatMap_cons, List.mem_append] at he
      rcases he with he | he
      · exact hwf.fits e he
      · exact ih e he
  cases h with
  | null => simp [infoEntries]
  | block h => exact htags h

/-! ## Arithmetic of the map -/

theorem framesFor_eq {x : UInt64} (hx : x.toNat + 4095 < 2 ^ 64) : framesFor x = ceilFrames x.toNat := by
  have hsize : frameSize.toNat = 4096 := rfl
  have hone : (1 : UInt64).toNat = 1 := rfl
  have hnum : (x + frameSize - 1).toNat = x.toNat + 4095 := by
    rw [UInt64.toNat_sub, UInt64.toNat_add, hsize, hone]
    omega
  unfold framesFor ceilFrames
  rw [UInt64.toNat_div, hnum, hsize]

theorem frameOf_eq (x : UInt64) : frameOf x = x.toNat / 4096 := UInt64.toNat_div x frameSize

/-- The frames of a range whose end fits in 64 bits. -/
theorem covers_iff {address length : UInt64} (h : address.toNat + length.toNat + 4095 < 2 ^ 64) (f : Nat) :
    Covers address length f ↔ 0 < length.toNat ∧ address.toNat / 4096 ≤ f ∧
      f < ceilFrames (address.toNat + length.toNat) := by
  have hsum : (address + length).toNat = address.toNat + length.toNat := by
    rw [UInt64.toNat_add]
    exact Nat.mod_eq_of_lt (by omega)
  have hne : length ≠ 0 ↔ 0 < length.toNat := by
    rw [ne_eq, ← UInt64.toNat_inj, Nat.pos_iff_ne_zero]
    rfl
  unfold Covers
  rw [framesFor_eq (by rw [hsum]; exact h), hsum, hne, frameOf_eq]

theorem pmmInitialize_totalFrames {x : UInt64} (hx : x.toNat + 4095 < 2 ^ 64) (s : PmmT) :
    (pmmInitialize x s).totalFrames = min (ceilFrames x.toNat) (131072 * 64) := by
  unfold pmmInitialize bitmapStorageWords
  rw [framesFor_eq hx]
  by_cases hclamp : 131072 < (ceilFrames x.toNat + 63) / 64
  · simp only [if_pos hclamp]
    omega
  · simp only [if_neg hclamp]
    omega

/-- The walker's maximum is the largest end. -/
theorem memoryTop_toNat_of_lt {es : List MmapEntry}
    (hends : ∀ e ∈ es, e.addr.toNat + e.len.toNat < 2 ^ 64) : (memoryTop es).toNat = topOf es := by
  have hfold : ∀ m : UInt64, (es.foldl (fun m e => raiseTop m (.entry e)) m).toNat =
      max m.toNat (topOf es) := by
    induction es with
    | nil =>
      intro m
      simp [topOf]
    | cons e es ih =>
      intro m
      have he := hends e (List.mem_cons_self)
      have hsum : (e.addr + e.len).toNat = e.addr.toNat + e.len.toNat := by
        rw [UInt64.toNat_add]
        exact Nat.mod_eq_of_lt he
      -- no end of an entry wraps around, so the comparison is that of the numbers
      have hraise : (raiseTop m (.entry e)).toNat = max m.toNat (e.addr.toNat + e.len.toNat) := by
        show (if m < e.addr + e.len then e.addr + e.len else m).toNat = _
        by_cases hlt : m < e.addr + e.len
        · rw [if_pos hlt, hsum]
          rw [UInt64.lt_iff_toNat_lt, hsum] at hlt
          omega
        · rw [if_neg hlt]
          rw [UInt64.lt_iff_toNat_lt, hsum] at hlt
          omega
      have htop : topOf (e :: es) = max (e.addr.toNat + e.len.toNat) (topOf es) := rfl
      rw [List.foldl_cons, ih (fun e he => hends e (List.mem_cons_of_mem _ he)), hraise, htop]
      omega
  have hzero : (0 : UInt64).toNat = 0 := rfl
  rw [memoryTop, hfold 0, hzero]
  omega

theorem memoryTop_toNat {es : List MmapEntry} (hfits : ∀ e ∈ es, e.Fits) :
    (memoryTop es).toNat = topOf es := by
  apply memoryTop_toNat_of_lt
  intro e he
  have hfit := hfits e he
  unfold MmapEntry.Fits at hfit
  omega

theorem topOf_lt {es : List MmapEntry} (hfits : ∀ e ∈ es, e.Fits) : topOf es + 4095 < 2 ^ 64 := by
  induction es with
  | nil => simp [topOf]
  | cons e es ih =>
    have he := hfits e (List.mem_cons_self)
    have hes := ih fun e he => hfits e (List.mem_cons_of_mem _ he)
    unfold MmapEntry.Fits at he
    have htop : topOf (e :: es) = max (e.addr.toNat + e.len.toNat) (topOf es) := rfl
    omega

theorem maxMemory_toNat {es : List MmapEntry} (hfits : ∀ e ∈ es, e.Fits) :
    (maxMemory (memoryTop es)).toNat = physicalTop es := by
  have htop := memoryTop_toNat hfits
  unfold maxMemory physicalTop
  by_cases hzero : memoryTop es = 0
  · have htop' : topOf es = 0 := by
      rw [← htop, hzero]
      rfl
    rw [if_pos hzero, if_pos htop']
    rfl
  · have hne : topOf es ≠ 0 := by
      rw [← htop]
      intro h
      apply hzero
      rw [← UInt64.toNat_inj]
      exact h
    rw [if_neg hzero, if_neg hne, htop]

theorem physicalTop_lt {es : List MmapEntry} (hfits : ∀ e ∈ es, e.Fits) :
    physicalTop es + 4095 < 2 ^ 64 := by
  have htop := topOf_lt hfits
  unfold physicalTop
  split <;> omega

/-- The fallback range runs from 1 MB to the end of memory. -/
theorem covers_fallback (top : UInt64) (htop : 0x100000 ≤ top.toNat) (hlt : top.toNat + 4095 < 2 ^ 64)
    (f : Nat) : Covers 0x100000 (top - 0x100000) f ↔
      0x100000 < top.toNat ∧ 0x100000 / 4096 ≤ f ∧ f < ceilFrames top.toNat := by
  have hstart : (0x100000 : UInt64).toNat = 0x100000 := rfl
  have hlen : (top - 0x100000).toNat = top.toNat - 0x100000 := by
    rw [UInt64.toNat_sub_of_le]
    · rfl
    · rw [UInt64.le_iff_toNat_le]
      exact htop
  rw [covers_iff (by rw [hstart, hlen]; omega), hstart, hlen]
  have hsum : 0x100000 + (top.toNat - 0x100000) = top.toNat := by omega
  rw [hsum]
  constructor
  · rintro ⟨hpos, hf⟩
    exact ⟨by omega, hf⟩
  · rintro ⟨hpos, hf⟩
    exact ⟨by omega, hf⟩

/-! ## The result -/

theorem mem_availableRanges (es : List MmapEntry) (r : UInt64 × UInt64) :
    r ∈ availableRanges es ↔ ∃ e ∈ es, e.type = 1 ∧ (e.addr, e.len) = r := by
  unfold availableRanges
  simp only [List.mem_map, List.mem_filter, decide_eq_true_eq, and_assoc]

/-- A frame is touched by a range `kernel_main` adds if it belongs to an available entry, or to
the fallback range when there is no map. -/
theorem covered_iff {info : Option (Nat → UInt8)} {tags : List Nat} (h : WfInfo info tags) (f : Nat) :
    (∃ r ∈ bootRanges (infoVisits info tags), Covers r.1 r.2 f) ↔
      (∃ e ∈ infoEntries info tags, e.type = 1 ∧ 0 < e.len.toNat ∧
        e.addr.toNat / 4096 ≤ f ∧ f < ceilFrames (e.addr.toNat + e.len.toNat)) ∨
      (¬ HasMmap info tags ∧ 0x100000 / 4096 ≤ f ∧
        f < ceilFrames (physicalTop (infoEntries info tags))) := by
  have hentries : (∃ r ∈ availableRanges (infoEntries info tags), Covers r.1 r.2 f) ↔
      ∃ e ∈ infoEntries info tags, e.type = 1 ∧ 0 < e.len.toNat ∧
        e.addr.toNat / 4096 ≤ f ∧ f < ceilFrames (e.addr.toNat + e.len.toNat) := by
    constructor
    · rintro ⟨r, hr, hcovers⟩
      rcases (mem_availableRanges _ r).1 hr with ⟨e, he, htype, rfl⟩
      exact ⟨e, he, htype, (covers_iff (h.fits e he) f).1 hcovers⟩
    · rintro ⟨e, he, htype, hcovers⟩
      exact ⟨(e.addr, e.len), (mem_availableRanges _ _).2 ⟨e, he, htype, rfl⟩,
        (covers_iff (h.fits e he) f).2 hcovers⟩
  unfold bootRanges
  rw [entriesOf_infoVisits]
  by_cases hmmap : HasMmap info tags
  · rw [if_pos ((mmap_mem_infoVisits info tags).2 hmmap), List.append_nil, hentries]
    simp [hmmap]
  · -- no tag: the only range is the fallback one, up to the default of 6 GB
    rw [if_neg (fun hmem => hmmap ((mmap_mem_infoVisits info tags).1 hmem)), infoEntries_nil hmmap]
    have htop : (maxMemory (memoryTop [])).toNat = physicalTop [] := maxMemory_toNat (by simp)
    have hsix : physicalTop [] = 0x180000000 := rfl
    have hfallback := covers_fallback (maxMemory (memoryTop [])) (by rw [htop, hsix]; norm_num)
      (by rw [htop, hsix]; norm_num) f
    rw [htop] at hfallback
    simp only [availableRanges, List.filter_nil, List.map_nil, List.nil_append, List.mem_singleton,
      exists_eq_left, hfallback, List.not_mem_nil, false_and, exists_false, false_or]
    constructor
    · rintro ⟨-, hf⟩
      exact ⟨hmmap, hf⟩
    · rintro ⟨-, hf⟩
      exact ⟨by rw [hsix]; norm_num, hf⟩

/-- The memory reported is that of the frames whose bits are set. -/
theorem pmmGetAvailable_eq {s : PmmT} (h : Accounting s) :
    (pmmGetAvailable s).toNat = 4096 * {f | Bitmap.test s.bitmap f = true}.ncard := by
  -- no bit is set beyond the words in use, so the set is finite and counted
  have hset : {f | Bitmap.test s.bitmap f = true} =
      ((Finset.range (s.words * 64)).filter fun f => Bitmap.test s.bitmap f = true : Finset ℕ) := by
    ext f
    simp only [Set.mem_ofPred_eq, Finset.coe_filter, Finset.mem_range]
    constructor
    · intro hf
      refine ⟨?_, hf⟩
      by_contra hge
      have hle := totalFrames_le_words s
      rw [h.tail f (by omega)] at hf
      cases hf
    · exact And.right
  have hcount := Bitmap.count_le_of_clear s.bitmap (s.words * 64) h.tail
  have hbound := h.bound
  unfold bitmapStorageWords at hbound
  have hsize : frameSize.toNat = 4096 := rfl
  rw [hset, Set.ncard_coe_finset]
  unfold pmmGetAvailable
  rw [UInt64.toNat_mul, h.counter, hsize, Nat.mod_eq_of_lt (by omega), Nat.mul_comm]
  rfl

/-- After `kernel_main` has set the memory manager up from a well-formed map, the free frames are
the usable ones, and the memory reported is theirs. -/
theorem boot_free_frames {info : Option (Nat → UInt8)} {tags : List Nat} (h : WfInfo info tags) :
    ∃ s, kernelMain info = some s ∧ (∀ f, Bitmap.test s.bitmap f = true ↔ Usable info tags f) ∧
      (pmmGetAvailable s).toNat = 4096 * {f | Usable info tags f}.ncard := by
  have hmain := kernelMain_eq info
  rw [bootTrace_wf h, Option.map_some, entriesOf_infoVisits] at hmain
  have hfits := h.fits
  have htop := maxMemory_toNat hfits
  have hfree : ∀ f, Bitmap.test (boot (maxMemory (memoryTop (infoEntries info tags)))
      (bootRanges (infoVisits info tags))).bitmap f = true ↔ Usable info tags f := by
    intro f
    rw [boot_test, covered_iff h, pmmInitialize_totalFrames (by rw [htop]; exact physicalTop_lt hfits),
      htop]
    rfl
  refine ⟨_, hmain, hfree, ?_⟩
  rw [pmmGetAvailable_eq (boot_accounting _ _)]
  congr 2
  ext f
  exact hfree f

/-- A block with one memory map tag of one available entry, the megabyte from 2 MB on, and an end
tag. -/
def oneEntryBlock (i : Nat) : UInt8 :=
  [56, 0, 0, 0, 0, 0, 0, 0,
    6, 0, 0, 0, 40, 0, 0, 0, 24, 0, 0, 0, 0, 0, 0, 0,
    0, 0, 32, 0, 0, 0, 0, 0, 0, 0, 16, 0, 0, 0, 0, 0, 1, 0, 0, 0, 0, 0, 0, 0,
    0, 0, 0, 0, 8, 0, 0, 0].getD i 0

theorem oneEntryBlock_wf : WfInfo (some oneEntryBlock) [8] := by
  have hwf : WfTag oneEntryBlock 8 := by
    refine ⟨by decide, by decide, fun _ => by decide, fun _ => by decide, ?_⟩
    have hentries : tagEntries oneEntryBlock 8 = [⟨0x200000, 0x100000, 1⟩] := by decide
    rw [hentries]
    intro e he
    rw [List.mem_singleton.1 he]
    unfold MmapEntry.Fits
    decide
  have hnext : 8 + ((tagSize oneEntryBlock 8).toNat + 7) / 8 * 8 = 48 := by decide
  apply WfInfo.block
  refine Tags.tag (by decide) (by decide) hwf ?_
  rw [hnext]
  exact Tags.stop (by decide) (by decide)

theorem boot_free_frames_one_entry : ∃ s, kernelMain (some oneEntryBlock) = some s ∧
    (∀ f, Bitmap.test s.bitmap f = true ↔ Usable (some oneEntryBlock) [8] f) ∧
    (pmmGetAvailable s).toNat = 4096 * {f | Usable (some oneEntryBlock) [8] f}.ncard :=
  boot_free_frames oneEntryBlock_wf

end CosKernel.Boot
