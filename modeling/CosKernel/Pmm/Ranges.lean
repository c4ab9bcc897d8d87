import CosKernel.Pmm.Boot

/-!
# Ranges in any order

The counter of free frames moves with the bits: a range function leaves the
difference between the counter and the number of bits set as it is
(`forRange_surplus`), whatever the state was before. A list of ranges writes the
bits of the frames its ranges touch, so the state after it depends on the set of
its ranges alone (`addRanges_congr`, `reserveRanges_congr`).
-/

namespace CosKernel.Pmm

/-- Ranges reserved one after the other. -/
def reserveRanges (ranges : List (UInt64 × UInt64)) (s : PmmT) : PmmT :=
  ranges.foldl (fun s r => pmmReserveRange r.1 r.2 s) s

/-- One of the ranges touches the frame. -/
def CoveredBy (ranges : List (UInt64 × UInt64)) (f : Nat) : Prop := ∃ r ∈ ranges, Covers r.1 r.2 f

instance (ranges : List (UInt64 × UInt64)) (f : Nat) : Decidable (CoveredBy ranges f) :=
  inferInstanceAs (Decidable (∃ r ∈ ranges, Covers r.1 r.2 f))

theorem coveredBy_congr {l l' : List (UInt64 × UInt64)} (h : ∀ r, r ∈ l ↔ r ∈ l') (f : Nat) :
    CoveredBy l f ↔ CoveredBy l' f := by
  constructor
  · rintro ⟨r, hr, hf⟩
    exact ⟨r, (h r).1 hr, hf⟩
  · rintro ⟨r, hr, hf⟩
    exact ⟨r, (h r).2 hr, hf⟩

/-! ## The counter and the bits -/

/-- How far the counter is ahead of the number of bits set, as a 64-bit word. -/
def PmmT.surplus (s : PmmT) : UInt64 :=
  s.freeFrames - UInt64.ofNat (Bitmap.count s.bitmap (s.words * 64))

theorem markFree_surplus {s : PmmT} {f : Nat} (hf : f < s.words * 64)
    (hclear : Bitmap.test s.bitmap f = false) : (s.markFree f).surplus = s.surplus := by
  have hcount := Bitmap.count_set (by norm_num) s.bitmap hf hclear
  show s.freeFrames + 1 - UInt64.ofNat (Bitmap.count (Bitmap.set s.bitmap f) (s.words * 64)) = s.surplus
  have hone : UInt64.ofNat 1 = 1 := rfl
  rw [hcount, UInt64.ofNat_add, hone]
  unfold PmmT.surplus
  grind

theorem markUsed_surplus {s : PmmT} {f : Nat} (hf : f < s.words * 64)
    (hset : Bitmap.test s.bitmap f = true) : (s.markUsed f).surplus = s.surplus := by
  have hcount := Bitmap.count_clear (by norm_num) s.bitmap hf hset
  show s.freeFrames - 1 - UInt64.ofNat (Bitmap.count (Bitmap.clear s.bitmap f) (s.words * 64)) = s.surplus
  have hone : UInt64.ofNat 1 = 1 := rfl
  unfold PmmT.surplus
  rw [← hcount, UInt64.ofNat_add, hone]
  grind

theorem addFrame_surplus {s : PmmT} {f : Nat} (hf : f < s.words * 64) :
    (addFrame f s).surplus = s.surplus := by
  unfold addFrame
  by_cases hset : Bitmap.test s.bitmap f = true
  · rw [if_pos hset]
  · rw [if_neg hset]
    exact markFree_surplus hf (by simpa using hset)

theorem reserveFrame_surplus {s : PmmT} {f : Nat} (hf : f < s.words * 64) :
    (reserveFrame f s).surplus = s.surplus := by
  unfold reserveFrame
  by_cases hset : Bitmap.test s.bitmap f = true
  · rw [if_pos hset]
    exact markUsed_surplus hf hset
  · rw [if_neg hset]

/-- A range function keeps what its loop body keeps of the counter and the bits. -/
theorem forRange_surplus {visit : Nat → PmmT → PmmT} (htotal : ∀ g t, (visit g t).totalFrames = t.totalFrames)
    (hvisit : ∀ f t, f < t.words * 64 → (visit f t).surplus = t.surplus) (address length : UInt64) (s : PmmT) :
    (forRange visit address length s).surplus = s.surplus := by
  refine (forRange_invariant (fun t => t.totalFrames = s.totalFrames ∧ t.surplus = s.surplus) ⟨rfl, rfl⟩ ?_
    address length).2
  rintro f t hf ⟨htot, hsurplus⟩
  have hlt : f < t.words * 64 := lt_of_lt_of_le (htot ▸ hf) (totalFrames_le_words t)
  exact ⟨(htotal f t).trans htot, (hvisit f t hlt).trans hsurplus⟩

/-- The bits and the surplus determine the state. -/
theorem eq_of_test {s t : PmmT} (htotal : s.totalFrames = t.totalFrames)
    (htest : ∀ f, Bitmap.test s.bitmap f = Bitmap.test t.bitmap f) (hsurplus : s.surplus = t.surplus) : s = t := by
  have hbitmap : s.bitmap = t.bitmap := Bitmap.ext_test (by norm_num) s.bitmap htest
  have hwords : s.words = t.words := by
    unfold PmmT.words
    rw [htotal]
  unfold PmmT.surplus at hsurplus
  rw [hbitmap, hwords, sub_left_inj] at hsurplus
  cases s
  cases t
  simp only [PmmT.mk.injEq]
  exact ⟨hbitmap, htotal, hsurplus⟩

/-! ## Lists of ranges -/

theorem addRanges_surplus (ranges : List (UInt64 × UInt64)) (s : PmmT) :
    (addRanges ranges s).surplus = s.surplus :=
  Run.foldl_invariant (fun t => t.surplus = s.surplus)
    (fun t r ht => (forRange_surplus (fun g t => addFrame_totalFrames g t) (fun _ _ => addFrame_surplus)
      r.1 r.2 t).trans ht) rfl ranges

theorem reserveRanges_surplus (ranges : List (UInt64 × UInt64)) (s : PmmT) :
    (reserveRanges ranges s).surplus = s.surplus :=
  Run.foldl_invariant (fun t => t.surplus = s.surplus)
    (fun t r ht => (forRange_surplus (fun g t => reserveFrame_totalFrames g t) (fun _ _ => reserveFrame_surplus)
      r.1 r.2 t).trans ht) rfl ranges

theorem reserveRanges_totalFrames (ranges : List (UInt64 × UInt64)) (s : PmmT) :
    (reserveRanges ranges s).totalFrames = s.totalFrames :=
  Run.foldl_invariant (fun t => t.totalFrames = s.totalFrames)
    (fun t r ht => (pmmReserveRange_totalFrames r.1 r.2 t).trans ht) rfl ranges

/-- A frame stays free if no range touches it. -/
theorem reserveRanges_test (ranges : List (UInt64 × UInt64)) (s : PmmT) (f : Nat) :
    Bitmap.test (reserveRanges ranges s).bitmap f = true ↔
      Bitmap.test s.bitmap f = true ∧ ¬ (f < s.totalFrames ∧ CoveredBy ranges f) := by
  induction ranges generalizing s with
  | nil => simp [reserveRanges, CoveredBy]
  | cons r ranges ih =>
    have hcons : reserveRanges (r :: ranges) s = reserveRanges ranges (pmmReserveRange r.1 r.2 s) := rfl
    have hcovered : CoveredBy (r :: ranges) f ↔ Covers r.1 r.2 f ∨ CoveredBy ranges f := by
      simp only [CoveredBy, List.mem_cons, exists_eq_or_imp]
    rw [hcons, ih, pmmReserveRange_test, pmmReserveRange_totalFrames, hcovered]
    by_cases hr : Covers r.1 r.2 f ∧ f < s.totalFrames
    · rw [if_pos hr]
      simp [hr.1, hr.2]
    · rw [if_neg hr]
      -- this range does not touch the frame, so only the others count
      tauto

theorem addRanges_congr {l l' : List (UInt64 × UInt64)} (h : ∀ r, r ∈ l ↔ r ∈ l') (s : PmmT) :
    addRanges l s = addRanges l' s := by
  apply eq_of_test
  · rw [addRanges_totalFrames, addRanges_totalFrames]
  · intro f
    have hcovered : (∃ r ∈ l, Covers r.1 r.2 f) ↔ ∃ r ∈ l', Covers r.1 r.2 f := coveredBy_congr h f
    rw [Bool.eq_iff_iff, addRanges_test, addRanges_test, hcovered]
  · rw [addRanges_surplus, addRanges_surplus]

theorem reserveRanges_congr {l l' : List (UInt64 × UInt64)} (h : ∀ r, r ∈ l ↔ r ∈ l') (s : PmmT) :
    reserveRanges l s = reserveRanges l' s := by
  apply eq_of_test
  · rw [reserveRanges_totalFrames, reserveRanges_totalFrames]
  · intro f
    rw [Bool.eq_iff_iff, reserveRanges_test, reserveRanges_test, coveredBy_congr h]
  · rw [reserveRanges_surplus, reserveRanges_surplus]

/-- Frames that one of the lists does not touch are the same in both orders. -/
theorem addRanges_reserveRanges_test (added reserved : List (UInt64 × UInt64)) (s : PmmT) {f : Nat}
    (hf : ¬ (f < s.totalFrames ∧ CoveredBy added f ∧ CoveredBy reserved f)) :
    Bitmap.test (addRanges added (reserveRanges reserved s)).bitmap f =
      Bitmap.test (reserveRanges reserved (addRanges added s)).bitmap f := by
  rw [Bool.eq_iff_iff, addRanges_test, reserveRanges_test, reserveRanges_test, addRanges_test,
    addRanges_totalFrames, reserveRanges_totalFrames]
  have hadded : (∃ r ∈ added, Covers r.1 r.2 f) ↔ CoveredBy added f := Iff.rfl
  rw [hadded]
  tauto

/-- Lists that share no frame may be added and reserved in either order. -/
theorem addRanges_reserveRanges_comm {added reserved : List (UInt64 × UInt64)} {s : PmmT}
    (h : ∀ f < s.totalFrames, ¬ (CoveredBy added f ∧ CoveredBy reserved f)) :
    addRanges added (reserveRanges reserved s) = reserveRanges reserved (addRanges added s) := by
  apply eq_of_test
  · rw [addRanges_totalFrames, reserveRanges_totalFrames, reserveRanges_totalFrames, addRanges_totalFrames]
  · intro f
    exact addRanges_reserveRanges_test added reserved s fun hf => h f hf.1 hf.2
  · rw [addRanges_surplus, reserveRanges_surplus, reserveRanges_surplus, addRanges_surplus]

/-- Neither the order nor repetitions in a list of ranges matter, and the two kinds of call can only
disagree about frames that both touch. -/
theorem ranges_in_any_order (s : PmmT) :
    (∀ l l' : List (UInt64 × UInt64), (∀ r, r ∈ l ↔ r ∈ l') →
      addRanges l s = addRanges l' s ∧ reserveRanges l s = reserveRanges l' s) ∧
    ∀ added reserved : List (UInt64 × UInt64),
      (∀ f, Bitmap.test (addRanges added (reserveRanges reserved s)).bitmap f ≠
          Bitmap.test (reserveRanges reserved (addRanges added s)).bitmap f →
        CoveredBy added f ∧ CoveredBy reserved f) ∧
      ((∀ f < s.totalFrames, ¬ (CoveredBy added f ∧ CoveredBy reserved f)) →
        addRanges added (reserveRanges reserved s) = reserveRanges reserved (addRanges added s)) := by
  refine ⟨fun l l' h => ⟨addRanges_congr h s, reserveRanges_congr h s⟩, fun added reserved => ⟨?_, ?_⟩⟩
  · intro f hne
    by_contra hf
    exact hne (addRanges_reserveRanges_test added reserved s fun h => hf h.2)
  · exact addRanges_reserveRanges_comm

/-- A frame that is reserved after it was added is not free, in the other order it is. -/
example : Bitmap.test (addRanges [(0, 4096)] (reserveRanges [(0, 1)] (pmmInitialize 4096 pmmState))).bitmap 0 = true ∧
    Bitmap.test (reserveRanges [(0, 1)] (addRanges [(0, 4096)] (pmmInitialize 4096 pmmState))).bitmap 0 = false := by
  decide

end CosKernel.Pmm
