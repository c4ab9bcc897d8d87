import CosKernel.Lib.Run

/-!
# Bitmaps

An array of `w`-bit words read as one long row of bits: bit `n` is bit `n % w`
of word `n / w`. The operations are the usual mask expressions; `test_set` and
`test_clear` say what they do to the row, and `firstSet_eq` that the search over
words and then over the bits of one word finds the lowest bit set.
-/

namespace CosKernel.Bitmap

variable {w : Nat}

/-! ## Single bits -/

/-- Bit `n` is set. -/
def test (b : Nat → BitVec w) (n : Nat) : Bool := decide (b (n / w) &&& 1#w <<< (n % w) ≠ 0)

/-- Set bit `n`. -/
def set (b : Nat → BitVec w) (n : Nat) : Nat → BitVec w :=
  Function.update b (n / w) (b (n / w) ||| 1#w <<< (n % w))

/-- Clear bit `n`. -/
def clear (b : Nat → BitVec w) (n : Nat) : Nat → BitVec w :=
  Function.update b (n / w) (b (n / w) &&& ~~~(1#w <<< (n % w)))

/-- The mask of a bit picks this bit. -/
theorem and_mask_ne_zero (x : BitVec w) (j : Nat) : x &&& 1#w <<< j ≠ 0 ↔ x.getLsbD j = true := by
  rw [← BitVec.twoPow_eq]
  constructor
  · intro hne
    by_contra hj
    apply hne
    apply BitVec.eq_of_getLsbD_eq
    intro i hi
    rw [BitVec.getLsbD_and, BitVec.getLsbD_twoPow]
    by_cases hij : j = i
    · subst hij
      simp [hj]
    · simp [hij]
  · intro hj hzero
    have hbit : (x &&& BitVec.twoPow w j).getLsbD j = true := by
      rw [BitVec.getLsbD_and, BitVec.getLsbD_twoPow, hj]
      simp [BitVec.lt_of_getLsbD hj]
    rw [hzero] at hbit
    simp at hbit

theorem test_eq (b : Nat → BitVec w) (n : Nat) : test b n = (b (n / w)).getLsbD (n % w) := by
  unfold test
  rw [Bool.eq_iff_iff, decide_eq_true_eq]
  exact and_mask_ne_zero _ _

/-- Two numbers name the same bit only if they are equal. -/
theorem eq_of_div_mod {m n : Nat} (hdiv : m / w = n / w) (hmod : n % w = m % w) : m = n := by
  have hm := Nat.div_add_mod m w
  have hn := Nat.div_add_mod n w
  rw [← hm, ← hn, hdiv, hmod]

section Positive

variable (hw : 0 < w) (b : Nat → BitVec w)
include hw

theorem test_set (n m : Nat) : test (set b n) m = (decide (m = n) || test b m) := by
  rw [test_eq, test_eq]
  unfold set
  by_cases hdiv : m / w = n / w
  · rw [hdiv, Function.update_self, BitVec.getLsbD_or, ← BitVec.twoPow_eq, BitVec.getLsbD_twoPow]
    -- in the word written, the mask tells the bits apart
    have hlt : n % w < w := Nat.mod_lt _ hw
    by_cases hmod : n % w = m % w
    · simp [eq_of_div_mod hdiv hmod, hlt]
    · have hne : m ≠ n := by
        rintro rfl
        exact hmod rfl
      simp [hmod, hne]
  · have hne : m ≠ n := by
      rintro rfl
      exact hdiv rfl
    rw [Function.update_of_ne hdiv]
    simp [hne]

theorem test_clear (n m : Nat) : test (clear b n) m = (!decide (m = n) && test b m) := by
  rw [test_eq, test_eq]
  unfold clear
  by_cases hdiv : m / w = n / w
  · rw [hdiv, Function.update_self, BitVec.getLsbD_and, BitVec.getLsbD_not, ← BitVec.twoPow_eq,
      BitVec.getLsbD_twoPow]
    have hlt : n % w < w := Nat.mod_lt _ hw
    have hlt' : m % w < w := Nat.mod_lt _ hw
    by_cases hmod : n % w = m % w
    · simp [eq_of_div_mod hdiv hmod, hlt]
    · have hne : m ≠ n := by
        rintro rfl
        exact hmod rfl
      simp [hmod, hne, hlt']
  · have hne : m ≠ n := by
      rintro rfl
      exact hdiv rfl
    rw [Function.update_of_ne hdiv]
    simp [hne]

/-- A bitmap is determined by its bits. -/
theorem ext_test {b' : Nat → BitVec w} (h : ∀ n, test b n = test b' n) : b = b' := by
  funext i
  apply BitVec.eq_of_getLsbD_eq
  intro j hj
  have hbit := h (i * w + j)
  have hdiv : (i * w + j) / w = i := by
    rw [Nat.mul_comm, Nat.mul_add_div hw, Nat.div_eq_of_lt hj, Nat.add_zero]
  have hmod : (i * w + j) % w = j := by
    rw [Nat.mul_comm, Nat.mul_add_mod, Nat.mod_eq_of_lt hj]
  rw [test_eq, test_eq, hdiv, hmod] at hbit
  exact hbit

/-- Setting a bit that was set before it was cleared gives the bitmap back. -/
theorem set_clear {n : Nat} (hn : test b n = true) : set (clear b n) n = b := by
  apply ext_test hw
  intro m
  rw [test_set hw, test_clear hw]
  by_cases hm : m = n
  · simp [hm, hn]
  · simp [hm]

end Positive

/-! ## Searching -/

/-- The lowest bit set in the first `words` words: zero words are skipped, in any other the bits
are tried in turn. -/
def firstSet (b : Nat → BitVec w) (words : Nat) : Option Nat :=
  (List.range words).findSome? fun i =>
    if b i ≠ 0 then
      ((List.range w).find? fun j => decide (b i &&& 1#w <<< j ≠ 0)).map fun j => i * w + j
    else none

/-- The search of one word. -/
theorem search_word (hw : 0 < w) (b : Nat → BitVec w) (i : Nat) :
    (if b i ≠ 0 then
      ((List.range w).find? fun j => decide (b i &&& 1#w <<< j ≠ 0)).map fun j => i * w + j
    else none) = ((List.range w).map fun j => i * w + j).find? (test b) := by
  have hbits : ∀ j ∈ List.range w, decide (b i &&& 1#w <<< j ≠ 0) = (test b ∘ fun j => i * w + j) j := by
    intro j hj
    have hjw := List.mem_range.1 hj
    show _ = decide (b ((i * w + j) / w) &&& 1#w <<< ((i * w + j) % w) ≠ 0)
    rw [Nat.mul_comm i w, Nat.mul_add_div hw, Nat.div_eq_of_lt hjw, Nat.mul_add_mod,
      Nat.mod_eq_of_lt hjw, Nat.add_zero]
  rw [List.find?_map]
  by_cases hzero : b i = 0
  · rw [if_neg (not_not.2 hzero)]
    symm
    rw [Option.map_eq_none_iff, List.find?_eq_none]
    intro j hj
    rw [← hbits j hj, hzero]
    simp
  · rw [if_pos hzero]
    congr 1
    exact List.find?_congr hbits

/-- The search over words and bits is the search over the row of bits. -/
theorem firstSet_eq (hw : 0 < w) (b : Nat → BitVec w) (words : Nat) :
    firstSet b words = (List.range (words * w)).find? (test b) := by
  unfold firstSet
  induction words with
  | zero => simp
  | succ words ih =>
    -- the last word is searched only if the words before it are zero
    rw [List.range_succ, List.findSome?_append, ih, Nat.succ_mul, List.range_add, List.find?_append,
      List.findSome?_singleton, search_word hw]

theorem firstSet_eq_some (hw : 0 < w) (b : Nat → BitVec w) (words n : Nat) :
    firstSet b words = some n ↔ n < words * w ∧ test b n = true ∧ ∀ m < n, test b m = false := by
  rw [firstSet_eq hw, List.find?_range_eq_some]
  simp only [List.mem_range, Bool.not_eq_true']
  tauto

theorem firstSet_eq_none (hw : 0 < w) (b : Nat → BitVec w) (words : Nat) :
    firstSet b words = none ↔ ∀ n < words * w, test b n = false := by
  rw [firstSet_eq hw, List.find?_eq_none]
  simp only [List.mem_range, Bool.not_eq_true]

/-! ## Counting -/

/-- The number of bits set among the first `n`. -/
def count (b : Nat → BitVec w) (n : Nat) : Nat := ((Finset.range n).filter fun i => test b i = true).card

/-- Bits that are all clear from `t` on do not count. -/
theorem count_le_of_clear (b : Nat → BitVec w) {t : Nat} (n : Nat) (h : ∀ i, t ≤ i → test b i = false) :
    count b n ≤ t := by
  unfold count
  rw [← Finset.card_range t]
  apply Finset.card_le_card
  intro i hi
  rw [Finset.mem_filter] at hi
  rw [Finset.mem_range]
  by_contra hlt
  rw [h i (not_lt.1 hlt)] at hi
  cases hi.2

theorem count_set (hw : 0 < w) (b : Nat → BitVec w) {i n : Nat} (hi : i < n)
    (hclear : test b i = false) : count (set b i) n = count b n + 1 := by
  unfold count
  have hins : (Finset.range n).filter (fun j => test (set b i) j = true) =
      insert i ((Finset.range n).filter fun j => test b j = true) := by
    ext j
    simp only [Finset.mem_filter, Finset.mem_range, Finset.mem_insert, test_set hw, Bool.or_eq_true,
      decide_eq_true_eq]
    constructor
    · rintro ⟨hj, rfl | hbit⟩
      · exact Or.inl rfl
      · exact Or.inr ⟨hj, hbit⟩
    · rintro (rfl | ⟨hj, hbit⟩)
      · exact ⟨hi, Or.inl rfl⟩
      · exact ⟨hj, Or.inr hbit⟩
  rw [hins, Finset.card_insert_of_notMem]
  simp [hclear]

theorem count_clear (hw : 0 < w) (b : Nat → BitVec w) {i n : Nat} (hi : i < n)
    (hset : test b i = true) : count (clear b i) n + 1 = count b n := by
  have hback := count_set hw (clear b i) hi (by simp [test_clear hw])
  rw [set_clear hw b hset] at hback
  exact hback.symm

end CosKernel.Bitmap
