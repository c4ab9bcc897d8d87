import CosKernel.Boot.MemoryMap

/-!
# Frames that are available only in part

`pmm_add_available_range` takes every frame a range touches: it rounds the start
down and the end up, as `pmm_reserve_range` does, where the rounding is right.
So a frame at the border of an available entry is handed out whatever else is in
it, and nothing ever reserves the entries of another type. The frames handed out
are available as a whole exactly when the borders of the available entries fall
on pages that other available entries fill up, and no page is shared with an
entry of another type (`PageClean`).
-/

namespace CosKernel.Boot

open Pmm

/-! ## Entries and frames -/

/-- The address is one of the entry's. -/
def MmapEntry.Holds (e : MmapEntry) (a : Nat) : Prop :=
  e.addr.toNat ≤ a ∧ a < e.addr.toNat + e.len.toNat

/-- The entry has an address in the frame. -/
def MmapEntry.Touches (e : MmapEntry) (f : Nat) : Prop :=
  0 < e.len.toNat ∧ e.addr.toNat / 4096 ≤ f ∧ f < ceilFrames (e.addr.toNat + e.len.toNat)

/-- The entry begins or ends inside of the frame, not at its border. -/
def MmapEntry.Borders (e : MmapEntry) (f : Nat) : Prop :=
  (¬ 4096 ∣ e.addr.toNat ∧ f = e.addr.toNat / 4096) ∨
    (¬ 4096 ∣ e.addr.toNat + e.len.toNat ∧ f = (e.addr.toNat + e.len.toNat) / 4096)

/-- A frame that the boot sequence may leave free: above the 2 MB it reserves, and in the bitmap. -/
def Managed (f : Nat) : Prop := 512 ≤ f ∧ f < 131072 * 64

theorem MmapEntry.touches_iff (e : MmapEntry) (f : Nat) :
    e.Touches f ↔ ∃ a, 4096 * f ≤ a ∧ a < 4096 * f + 4096 ∧ e.Holds a := by
  unfold MmapEntry.Touches MmapEntry.Holds ceilFrames
  constructor
  · rintro ⟨hpos, hstart, hend⟩
    refine ⟨max (4096 * f) e.addr.toNat, ?_, ?_, ?_, ?_⟩ <;> omega
  · rintro ⟨a, hlow, hhigh, hstart, hend⟩
    refine ⟨?_, ?_, ?_⟩ <;> omega

/-- A frame an entry touches is all of it, or at one of its borders. -/
theorem MmapEntry.Touches.holds_or_borders {e : MmapEntry} {f : Nat} (h : e.Touches f) :
    (∀ a, 4096 * f ≤ a → a < 4096 * f + 4096 → e.Holds a) ∨ e.Borders f := by
  unfold MmapEntry.Touches ceilFrames at h
  unfold MmapEntry.Holds MmapEntry.Borders
  by_cases hstart : e.addr.toNat ≤ 4096 * f
  · by_cases hend : 4096 * f + 4096 ≤ e.addr.toNat + e.len.toNat
    · left
      intro a hlow hhigh
      omega
    · right
      right
      omega
  · right
    left
    omega

theorem MmapEntry.Borders.touches {e : MmapEntry} {f : Nat} (h : e.Borders f)
    (hpos : 0 < e.len.toNat) : e.Touches f := by
  unfold MmapEntry.Borders at h
  unfold MmapEntry.Touches ceilFrames
  omega

/-! ## What is free after boot -/

/-- Every free frame is in the available entries as a whole, and in no other entry. -/
def OnlyAvailable (es : List MmapEntry) (s : PmmT) : Prop :=
  ∀ f, Bitmap.test s.bitmap f = true → ∀ a, 4096 * f ≤ a → a < 4096 * f + 4096 →
    (∃ e ∈ es, e.type = 1 ∧ e.Holds a) ∧ ∀ e ∈ es, e.type ≠ 1 → ¬ e.Holds a

/-- The pages at the borders of the available entries are filled up by available entries, and no
page is shared with an entry of another type. -/
structure PageClean (es : List MmapEntry) : Prop where
  filled : ∀ e ∈ es, e.type = 1 → 0 < e.len.toNat → ∀ f, Managed f → e.Borders f →
    ∀ a, 4096 * f ≤ a → a < 4096 * f + 4096 → ∃ e' ∈ es, e'.type = 1 ∧ e'.Holds a
  apart : ∀ e ∈ es, e.type = 1 → ∀ e' ∈ es, e'.type ≠ 1 → ∀ f, Managed f →
    ¬ (e.Touches f ∧ e'.Touches f)

/-- An entry ends in the last page of the address space; the number of frames that hold all memory
then wraps around to 0. -/
def EndsAtTop (es : List MmapEntry) : Prop :=
  ∃ e ∈ es, 2 ^ 64 ≤ e.addr.toNat + e.len.toNat + 4095

theorem le_topOf {es : List MmapEntry} {e : MmapEntry} (he : e ∈ es) :
    e.addr.toNat + e.len.toNat ≤ topOf es := by
  induction es with
  | nil => simp at he
  | cons e' es ih =>
    have htop : topOf (e' :: es) = max (e'.addr.toNat + e'.len.toNat) (topOf es) := rfl
    rcases List.mem_cons.1 he with rfl | he
    · omega
    · have hle := ih he
      omega

/-- The frames free after boot: the managed ones that an available entry touches. -/
theorem boot_free_iff {es : List MmapEntry} (hfits : ¬ EndsAtTop es) (f : Nat) :
    Bitmap.test (boot (maxMemory (memoryTop es)) (availableRanges es)).bitmap f = true ↔
      Managed f ∧ ∃ e ∈ es, e.type = 1 ∧ e.Touches f := by
  have hfits' : ∀ e ∈ es, e.Fits := by
    intro e he
    unfold MmapEntry.Fits
    by_contra hge
    exact hfits ⟨e, he, by omega⟩
  have htop := maxMemory_toNat hfits'
  rw [boot_test, pmmInitialize_totalFrames (by rw [htop]; exact physicalTop_lt hfits'), htop]
  unfold Managed
  constructor
  · rintro ⟨hlow, hhigh, r, hr, hcovers⟩
    rcases (mem_availableRanges es r).1 hr with ⟨e, he, htype, rfl⟩
    exact ⟨⟨hlow, by omega⟩, e, he, htype, (covers_iff (hfits' e he) f).1 hcovers⟩
  · rintro ⟨⟨hlow, hhigh⟩, e, he, htype, htouch⟩
    refine ⟨hlow, ?_, (e.addr, e.len), (mem_availableRanges es _).2 ⟨e, he, htype, rfl⟩,
      (covers_iff (hfits' e he) f).2 htouch⟩
    -- an entry ends below the top of memory, so its frames are among those counted
    have hle := le_topOf he
    have hphys : topOf es ≤ physicalTop es := by
      unfold physicalTop
      split <;> omega
    have hend := htouch.2.2
    unfold ceilFrames at hend ⊢
    omega

section Boot

variable {es : List MmapEntry} (hends : ∀ e ∈ es, e.addr.toNat + e.len.toNat < 2 ^ 64)
include hends

/-- With an entry up to the top of the address space, no frame is managed. -/
theorem totalFrames_of_endsAtTop (h : EndsAtTop es) :
    (pmmInitialize (maxMemory (memoryTop es)) pmmState).totalFrames = 0 := by
  rcases h with ⟨e, he, hwrap⟩
  have htop := memoryTop_toNat_of_lt hends
  have hle := le_topOf he
  have hne : memoryTop es ≠ 0 := by
    intro hzero
    rw [hzero] at htop
    have hz : (0 : UInt64).toNat = 0 := rfl
    omega
  have hlt := (memoryTop es).toNat_lt
  have hframes : framesFor (memoryTop es) = 0 := by
    have hsize : frameSize.toNat = 4096 := rfl
    have hone : (1 : UInt64).toNat = 1 := rfl
    -- rounding up wraps around
    have hnum : (memoryTop es + frameSize - 1).toNat = (memoryTop es).toNat + 4095 - 2 ^ 64 := by
      rw [UInt64.toNat_sub, UInt64.toNat_add, hsize, hone]
      omega
    unfold framesFor
    rw [UInt64.toNat_div, hnum, hsize]
    omega
  unfold maxMemory pmmInitialize
  rw [if_neg hne, hframes]
  rfl

/-- Exactly when the frames handed out are available as a whole. -/
theorem onlyAvailable_boot_iff :
    OnlyAvailable es (boot (maxMemory (memoryTop es)) (availableRanges es)) ↔
      EndsAtTop es ∨ PageClean es := by
  by_cases hwrap : EndsAtTop es
  · refine iff_of_true ?_ (Or.inl hwrap)
    intro f hf
    rw [boot_test, totalFrames_of_endsAtTop hends hwrap] at hf
    omega
  have hfree := boot_free_iff hwrap
  simp only [hwrap, false_or]
  constructor
  · intro honly
    refine ⟨?_, ?_⟩
    · intro e he htype hpos f hman hborders a hlow hhigh
      have hf := (hfree f).2 ⟨hman, e, he, htype, hborders.touches hpos⟩
      exact (honly f hf a hlow hhigh).1
    · -- a byte of the other entry would be in a free frame
      rintro e he htype e' he' htype' f hman ⟨htouch, htouch'⟩
      have hf := (hfree f).2 ⟨hman, e, he, htype, htouch⟩
      rcases (e'.touches_iff f).1 htouch' with ⟨a, hlow, hhigh, ha⟩
      exact (honly f hf a hlow hhigh).2 e' he' htype' ha
  · intro hclean f hf a hlow hhigh
    rcases (hfree f).1 hf with ⟨hman, e, he, htype, htouch⟩
    refine ⟨?_, ?_⟩
    · -- inside of the entry, or at a border that is filled up
      rcases htouch.holds_or_borders with hall | hborders
      · exact ⟨e, he, htype, hall a hlow hhigh⟩
      · exact hclean.filled e he htype htouch.1 f hman hborders a hlow hhigh
    · intro e' he' htype' ha
      exact hclean.apart e he htype e' he' htype' f hman
        ⟨htouch, (e'.touches_iff f).2 ⟨a, hlow, hhigh, ha⟩⟩

end Boot

/-- For every memory map, the frames free after `kernel_main` has set the memory manager up are
available as a whole exactly when the map is clean at its page borders, or no frame is managed. -/
theorem free_frames_available_iff (info : Option (Nat → UInt8)) (t : List Visit)
    (htrace : bootTrace info = some t) (hmmap : Visit.mmap ∈ t)
    (hends : ∀ e ∈ entriesOf t, e.addr.toNat + e.len.toNat < 2 ^ 64) :
    ∃ s, kernelMain info = some s ∧
      (OnlyAvailable (entriesOf t) s ↔ EndsAtTop (entriesOf t) ∨ PageClean (entriesOf t)) := by
  have hmain := kernelMain_eq info
  rw [htrace, Option.map_some] at hmain
  refine ⟨_, hmain, ?_⟩
  have hranges : bootRanges t = availableRanges (entriesOf t) := by
    unfold bootRanges
    rw [if_pos hmmap, List.append_nil]
  rw [hranges]
  exact onlyAvailable_boot_iff hends

theorem oneEntryBlock_trace :
    bootTrace (some oneEntryBlock) = some [.mmap, .entry ⟨0x200000, 0x100000, 1⟩] := by
  decide +kernel

/-- An available entry with its borders on page borders. -/
theorem free_frames_available_one_entry : ∃ s, kernelMain (some oneEntryBlock) = some s ∧
    OnlyAvailable [⟨0x200000, 0x100000, 1⟩] s := by
  have hends : ∀ e ∈ entriesOf [.mmap, .entry ⟨0x200000, 0x100000, 1⟩],
      e.addr.toNat + e.len.toNat < 2 ^ 64 := by decide
  have hclean : PageClean (entriesOf [.mmap, .entry ⟨0x200000, 0x100000, 1⟩]) := by
    refine ⟨?_, ?_⟩
    · intro e he _ _ f _ hborders
      obtain rfl : e = ⟨0x200000, 0x100000, 1⟩ := List.mem_singleton.1 he
      exfalso
      rcases hborders with ⟨hndvd, -⟩ | ⟨hndvd, -⟩
      · exact hndvd (by decide)
      · exact hndvd (by decide)
    · intro e he htype e' he' htype'
      obtain rfl : e' = ⟨0x200000, 0x100000, 1⟩ := List.mem_singleton.1 he'
      exact absurd rfl htype'
  rcases free_frames_available_iff (some oneEntryBlock) _ oneEntryBlock_trace (by decide) hends with
    ⟨s, hmain, hiff⟩
  exact ⟨s, hmain, hiff.2 (Or.inr hclean)⟩

/-- A block whose map has an available entry from 2 MB on that ends in the middle of a page, and a
reserved entry for the rest of that page. -/
def sharedPageBlock (i : Nat) : UInt8 :=
  [80, 0, 0, 0, 0, 0, 0, 0,
    6, 0, 0, 0, 64, 0, 0, 0, 24, 0, 0, 0, 0, 0, 0, 0,
    0, 0, 32, 0, 0, 0, 0, 0, 0, 24, 0, 0, 0, 0, 0, 0, 1, 0, 0, 0, 0, 0, 0, 0,
    0, 24, 32, 0, 0, 0, 0, 0, 0, 8, 0, 0, 0, 0, 0, 0, 2, 0, 0, 0, 0, 0, 0, 0,
    0, 0, 0, 0, 8, 0, 0, 0].getD i 0

/-- The entries of that block. -/
def sharedPage : List MmapEntry := [⟨0x200000, 0x1800, 1⟩, ⟨0x201800, 0x800, 2⟩]

/-- Frame 513 is free after boot, and its upper half is reserved. -/
theorem shared_page_is_free :
    bootTrace (some sharedPageBlock) = some (.mmap :: sharedPage.map .entry) ∧
      ∃ s, kernelMain (some sharedPageBlock) = some s ∧ Bitmap.test s.bitmap 513 = true ∧
        (⟨0x201800, 0x800, 2⟩ : MmapEntry) ∈ sharedPage ∧
        (⟨0x201800, 0x800, 2⟩ : MmapEntry).Holds (4096 * 513 + 2048) ∧
        ¬ OnlyAvailable sharedPage s := by
  have htrace : bootTrace (some sharedPageBlock) = some (.mmap :: sharedPage.map .entry) := by
    decide +kernel
  have hmain := kernelMain_eq (some sharedPageBlock)
  have hentries : entriesOf (.mmap :: sharedPage.map .entry) = sharedPage := by decide
  have hranges : bootRanges (.mmap :: sharedPage.map .entry) = availableRanges sharedPage := by
    decide
  rw [htrace, Option.map_some, hentries, hranges] at hmain
  have hfits : ¬ EndsAtTop sharedPage := by
    rintro ⟨e, he, hwrap⟩
    have hlow : e.addr.toNat + e.len.toNat ≤ 0x202000 := by
      revert e
      decide
    omega
  have hfree := (boot_free_iff hfits 513).2
    ⟨⟨by decide, by decide⟩, ⟨0x200000, 0x1800, 1⟩, by decide, rfl, by decide, by decide, by decide⟩
  have hholds : (⟨0x201800, 0x800, 2⟩ : MmapEntry).Holds (4096 * 513 + 2048) := by
    constructor
    · decide
    · decide
  refine ⟨htrace, _, hmain, hfree, by decide, hholds, ?_⟩
  intro honly
  exact (honly 513 hfree (4096 * 513 + 2048) (by decide) (by decide)).2 _ (by decide) (by decide)
    hholds

end CosKernel.Boot
