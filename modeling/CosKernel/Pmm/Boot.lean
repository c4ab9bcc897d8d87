import CosKernel.Pmm.Accounting

/-!
# The frames that are free after boot

Each range function writes one value to the bits of the frames a range touches
and leaves every other bit alone (`forRange_test`), so the frames free after the
boot sequence are those that some range touches, less the first 512
(`boot_test`).
-/

namespace CosKernel.Pmm

/-! ## Range functions -/

/-- The frames a range touches, as the range functions compute them. -/
def Covers (address length : UInt64) (f : Nat) : Prop :=
  length ≠ 0 ∧ frameOf address ≤ f ∧ f < framesFor (address + length)

instance (address length : UInt64) (f : Nat) : Decidable (Covers address length f) :=
  inferInstanceAs (Decidable (_ ∧ _ ∧ _))

section Range

variable {visit : Nat → PmmT → PmmT} {v : Bool}
  (htest : ∀ g t f, Bitmap.test (visit g t).bitmap f = if f = g then v else Bitmap.test t.bitmap f)
  (htotal : ∀ g t, (visit g t).totalFrames = t.totalFrames)
include htest htotal

/-- The loop visits all its frames: the `break` is never taken below `total_frames`. -/
theorem forFrames_test (n frame : Nat) (s : PmmT) (hle : frame + n ≤ s.totalFrames) (f : Nat) :
    Bitmap.test (forFrames visit n frame s).bitmap f =
      if frame ≤ f ∧ f < frame + n then v else Bitmap.test s.bitmap f := by
  induction n generalizing frame s with
  | zero =>
    rw [if_neg (by omega)]
    rfl
  | succ n ih =>
    unfold forFrames
    -- a frame below `total_frames` has its word, so there is no `break`
    rw [if_neg (not_le.2 (word_lt (by omega)))]
    rw [ih (frame + 1) (visit frame s) (by rw [htotal]; omega), htest]
    by_cases hf : f = frame
    · rw [if_neg (by omega), if_pos hf, if_pos (by omega)]
    · rw [if_neg hf]
      congr 1
      rw [eq_iff_iff]
      omega

theorem forRange_test (address length : UInt64) (s : PmmT) (f : Nat) :
    Bitmap.test (forRange visit address length s).bitmap f =
      if Covers address length f ∧ f < s.totalFrames then v else Bitmap.test s.bitmap f := by
  unfold forRange Covers
  by_cases hlen : length = 0
  · simp [hlen]
  rw [if_neg hlen]
  by_cases hstart : frameOf address ≤ min (framesFor (address + length)) s.totalFrames
  · simp only
    rw [forFrames_test htest htotal _ _ s (by omega) f]
    congr 1
    rw [eq_iff_iff]
    constructor
    · intro hf
      refine ⟨⟨hlen, ?_⟩, ?_⟩ <;> omega
    · rintro ⟨⟨-, hf⟩, hlt⟩
      omega
  · have hzero : min (framesFor (address + length)) s.totalFrames - frameOf address = 0 := by omega
    simp only [hzero, forFrames]
    rw [if_neg]
    rintro ⟨⟨-, hf⟩, hlt⟩
    omega

end Range

theorem addFrame_test (g : Nat) (t : PmmT) (f : Nat) :
    Bitmap.test (addFrame g t).bitmap f = if f = g then true else Bitmap.test t.bitmap f := by
  unfold addFrame
  by_cases hset : Bitmap.test t.bitmap g = true
  · rw [if_pos hset]
    by_cases hf : f = g
    · rw [if_pos hf, hf, hset]
    · rw [if_neg hf]
  · rw [if_neg hset]
    rw [markFree_test]
    by_cases hf : f = g
    · simp [hf]
    · simp [hf]

theorem reserveFrame_test (g : Nat) (t : PmmT) (f : Nat) :
    Bitmap.test (reserveFrame g t).bitmap f = if f = g then false else Bitmap.test t.bitmap f := by
  unfold reserveFrame
  by_cases hset : Bitmap.test t.bitmap g = true
  · rw [if_pos hset]
    rw [markUsed_test]
    by_cases hf : f = g
    · simp [hf]
    · simp [hf]
  · rw [if_neg hset]
    by_cases hf : f = g
    · rw [if_pos hf, hf]
      simpa using hset
    · rw [if_neg hf]

/-- `pmm_add_available_range` sets the bits of the range. -/
theorem pmmAddAvailableRange_test (address length : UInt64) (s : PmmT) (f : Nat) :
    Bitmap.test (pmmAddAvailableRange address length s).bitmap f =
      if Covers address length f ∧ f < s.totalFrames then true else Bitmap.test s.bitmap f :=
  forRange_test addFrame_test addFrame_totalFrames address length s f

/-- `pmm_reserve_range` clears them. -/
theorem pmmReserveRange_test (address length : UInt64) (s : PmmT) (f : Nat) :
    Bitmap.test (pmmReserveRange address length s).bitmap f =
      if Covers address length f ∧ f < s.totalFrames then false else Bitmap.test s.bitmap f :=
  forRange_test reserveFrame_test reserveFrame_totalFrames address length s f

@[simp] theorem pmmAddAvailableRange_totalFrames (address length : UInt64) (s : PmmT) :
    (pmmAddAvailableRange address length s).totalFrames = s.totalFrames :=
  forRange_invariant (fun t => t.totalFrames = s.totalFrames) rfl
    (fun f t _ ht => (addFrame_totalFrames f t).trans ht) address length

@[simp] theorem pmmReserveRange_totalFrames (address length : UInt64) (s : PmmT) :
    (pmmReserveRange address length s).totalFrames = s.totalFrames :=
  forRange_invariant (fun t => t.totalFrames = s.totalFrames) rfl
    (fun f t _ ht => (reserveFrame_totalFrames f t).trans ht) address length

/-! ## The memory map -/

theorem addRanges_totalFrames (ranges : List (UInt64 × UInt64)) (s : PmmT) :
    (addRanges ranges s).totalFrames = s.totalFrames :=
  Run.foldl_invariant (fun t => t.totalFrames = s.totalFrames)
    (fun t r ht => (pmmAddAvailableRange_totalFrames r.1 r.2 t).trans ht) rfl ranges

theorem addRanges_accounting {s : PmmT} (h : Accounting s) (ranges : List (UInt64 × UInt64)) :
    Accounting (addRanges ranges s) :=
  Run.foldl_invariant Accounting (fun _ r ht => pmmAddAvailableRange_accounting ht r.1 r.2) h ranges

/-- Ranges may overlap or repeat: a frame is free if one of them touches it. -/
theorem addRanges_test (ranges : List (UInt64 × UInt64)) (s : PmmT) (f : Nat) :
    Bitmap.test (addRanges ranges s).bitmap f = true ↔
      Bitmap.test s.bitmap f = true ∨ f < s.totalFrames ∧ ∃ r ∈ ranges, Covers r.1 r.2 f := by
  induction ranges generalizing s with
  | nil => simp [addRanges]
  | cons r ranges ih =>
    have hcons : addRanges (r :: ranges) s = addRanges ranges (pmmAddAvailableRange r.1 r.2 s) := rfl
    rw [hcons, ih, pmmAddAvailableRange_test, pmmAddAvailableRange_totalFrames]
    by_cases hr : Covers r.1 r.2 f ∧ f < s.totalFrames
    · rw [if_pos hr]
      simp [hr.1, hr.2]
    · rw [if_neg hr]
      -- this range does not touch the frame, so another one must
      simp only [List.mem_cons, exists_eq_or_imp]
      tauto

theorem covers_first_two_megabytes (f : Nat) : Covers 0 0x200000 f ↔ f < 512 := by
  unfold Covers
  have hstart : frameOf 0 = 0 := by decide
  have hend : framesFor (0 + 0x200000) = 512 := by decide
  rw [hstart, hend]
  simp

theorem boot_totalFrames (totalMemory : UInt64) (ranges : List (UInt64 × UInt64)) :
    (boot totalMemory ranges).totalFrames = (pmmInitialize totalMemory pmmState).totalFrames := by
  unfold boot
  rw [pmmReserveRange_totalFrames]
  exact addRanges_totalFrames ranges _

theorem boot_accounting (totalMemory : UInt64) (ranges : List (UInt64 × UInt64)) :
    Accounting (boot totalMemory ranges) := by
  unfold boot
  apply pmmReserveRange_accounting
  exact addRanges_accounting (pmmInitialize_accounting totalMemory) ranges

/-- The frames free after boot. -/
theorem boot_test (totalMemory : UInt64) (ranges : List (UInt64 × UInt64)) (f : Nat) :
    Bitmap.test (boot totalMemory ranges).bitmap f = true ↔
      512 ≤ f ∧ f < (pmmInitialize totalMemory pmmState).totalFrames ∧
        ∃ r ∈ ranges, Covers r.1 r.2 f := by
  have hadd := addRanges_test ranges (pmmInitialize totalMemory pmmState) f
  rw [pmmInitialize_test] at hadd
  have htotal := addRanges_totalFrames ranges (pmmInitialize totalMemory pmmState)
  unfold boot
  rw [pmmReserveRange_test, htotal]
  -- the reservation comes last and wins over every range
  by_cases hlow : Covers 0 0x200000 f ∧ f < (pmmInitialize totalMemory pmmState).totalFrames
  · rw [if_pos hlow]
    rw [covers_first_two_megabytes] at hlow
    constructor
    · intro h
      cases h
    · rintro ⟨hge, -, -⟩
      omega
  · rw [if_neg hlow, hadd]
    rw [covers_first_two_megabytes] at hlow
    constructor
    · rintro (h | ⟨hlt, hr⟩)
      · cases h
      · exact ⟨by omega, hlt, hr⟩
    · rintro ⟨-, hlt, hr⟩
      exact Or.inr ⟨hlt, hr⟩

end CosKernel.Pmm
