import Mathlib

/-!
# C strings

A string is the list of its characters; a NUL, or the end of the list, ends it.
-/

namespace CosKernel.CString

/-- `while (*a && *b) { if (*a != *b) return false; a++; b++; } return *a == *b;` -/
def compareLoop : List UInt8 → List UInt8 → Bool
  | a :: as, b :: bs =>
    if a ≠ 0 ∧ b ≠ 0 then
      if a ≠ b then false else compareLoop as bs
    else a == b
  | as, bs => as.headD 0 == bs.headD 0

/-- The comparison of two pointers to strings; `none` is `NULL`, which equals none. -/
def equal (a b : Option (List UInt8)) : Bool :=
  match a, b with
  | some a, some b => compareLoop a b
  | _, _ => false

/-- The characters in front of the NUL. -/
def content (s : List UInt8) : List UInt8 := s.takeWhile (· ≠ 0)

@[simp] theorem content_nil : content [] = [] := rfl

@[simp] theorem content_cons_zero (s : List UInt8) : content (0 :: s) = [] := by
  simp [content]

theorem content_cons {c : UInt8} (hc : c ≠ 0) (s : List UInt8) :
    content (c :: s) = c :: content s :=
  List.takeWhile_cons_of_pos (by simpa using hc)

theorem compareLoop_iff (a b : List UInt8) : compareLoop a b = true ↔ content a = content b := by
  induction a generalizing b with
  | nil =>
    cases b with
    | nil => simp [compareLoop, content]
    | cons y b =>
      by_cases hy : y = 0
      · simp [compareLoop, content, hy]
      · simp [compareLoop, content, hy, Ne.symm hy]
  | cons x a ih =>
    cases b with
    | nil =>
      by_cases hx : x = 0
      · simp [compareLoop, content, hx]
      · simp [compareLoop, content, hx]
    | cons y b =>
      by_cases hx : x = 0
      · by_cases hy : y = 0
        · simp [compareLoop, content, hx, hy]
        · rw [content_cons hy]
          simp [compareLoop, content, hx, Ne.symm hy]
      · by_cases hy : y = 0
        · rw [content_cons hx]
          simp [compareLoop, content, hx, hy]
        · rw [content_cons hx, content_cons hy]
          unfold compareLoop
          rw [if_pos ⟨hx, hy⟩]
          by_cases hxy : x = y
          · simp [hxy, ih]
          · simp [hxy]

/-! ## Reading a string out of an array -/

/-- The string in an array, read up to its NUL; `none` when there is none and the reader
leaves the array. -/
def scan : List UInt8 → Option (List UInt8)
  | [] => none
  | c :: rest => if c = 0 then some [] else (scan rest).map (c :: ·)

theorem scan_eq (s : List UInt8) : scan s = if 0 ∈ s then some (content s) else none := by
  induction s with
  | nil => rfl
  | cons c s ih =>
    by_cases hc : c = 0
    · simp [scan, hc]
    · have hc' : 0 ≠ c := Ne.symm hc
      rw [scan, if_neg hc, ih, content_cons hc]
      by_cases hs : 0 ∈ s
      · simp [hs]
      · simp [hs, hc']

/-- A NUL in the first part hides the second. -/
theorem content_append_of_mem {s : List UInt8} (h : 0 ∈ s) (t : List UInt8) :
    content (s ++ t) = content s := by
  induction s with
  | nil => simp at h
  | cons c s ih =>
    by_cases hc : c = 0
    · simp [hc]
    · have hs : 0 ∈ s := by simpa [Ne.symm hc] using h
      rw [List.cons_append, content_cons hc, content_cons hc, ih hs]

theorem content_append_of_not_mem {s : List UInt8} (h : 0 ∉ s) (t : List UInt8) :
    content (s ++ t) = s ++ content t := by
  induction s with
  | nil => rfl
  | cons c s ih =>
    rw [List.mem_cons, not_or] at h
    rw [List.cons_append, content_cons (Ne.symm h.1), ih h.2, List.cons_append]

/-- A string without a NUL is all content. -/
theorem content_of_not_mem {s : List UInt8} (h : 0 ∉ s) : content s = s := by
  have happ := content_append_of_not_mem h []
  simpa using happ

/-- The first characters of a string. -/
theorem content_take (s : List UInt8) (n : Nat) : content (s.take n) = (content s).take n := by
  induction s generalizing n with
  | nil => simp
  | cons c s ih =>
    cases n with
    | zero => simp
    | succ n =>
      rw [List.take_succ_cons]
      by_cases hc : c = 0
      · rw [hc, content_cons_zero, content_cons_zero]
        rfl
      · rw [content_cons hc, content_cons hc, ih, List.take_succ_cons]

/-- A string whose first NUL is at `k` is read up to there. -/
theorem scan_eq_take {s : List UInt8} {k : Nat} (hk : k < s.length)
    (htext : ∀ i < k, s.getD i 0 ≠ 0) (hnul : s.getD k 0 = 0) : scan s = some (s.take k) := by
  induction s generalizing k with
  | nil => simp at hk
  | cons c s ih =>
    cases k with
    | zero =>
      have hc : c = 0 := by simpa using hnul
      simp [scan, hc]
    | succ k =>
      have hc : c ≠ 0 := by simpa using htext 0 (Nat.succ_pos k)
      have hrest : ∀ i < k, s.getD i 0 ≠ 0 := by
        intro i hi
        simpa using htext (i + 1) (by omega)
      rw [scan, if_neg hc, ih (by simpa using hk) hrest (by simpa using hnul)]
      rfl

/-- An array that begins with a text and a NUL behind it is read as the text. -/
theorem scan_of_getD {s text : List UInt8} (hlen : text.length < s.length)
    (hsame : ∀ i < text.length, s.getD i 0 = text.getD i 0) (htext : ∀ c ∈ text, c ≠ 0)
    (hnul : s.getD text.length 0 = 0) : scan s = some text := by
  have hnonzero : ∀ i < text.length, s.getD i 0 ≠ 0 := by
    intro i hi
    rw [hsame i hi, List.getD_eq_getElem _ _ hi]
    exact htext _ (List.getElem_mem hi)
  rw [scan_eq_take hlen hnonzero hnul]
  congr 1
  apply List.ext_getElem
  · rw [List.length_take]
    omega
  · intro i hi hi'
    have hi'' := hsame i hi'
    rw [List.getD_eq_getElem _ _ (by omega), List.getD_eq_getElem _ _ hi'] at hi''
    rw [List.getElem_take]
    exact hi''

/-- One byte of an array after a store. -/
theorem getD_setIfInBounds {n : Nat} (v : Vector UInt8 n) {i : Nat} (hi : i < n) (c : UInt8) (j : Nat) :
    (v.setIfInBounds i c).toList.getD j 0 = if j = i then c else v.toList.getD j 0 := by
  rw [Vector.toList_setIfInBounds, List.getD_eq_getElem?_getD, List.getD_eq_getElem?_getD, List.getElem?_set]
  by_cases hji : j = i
  · simp [hji, hi]
  · simp [hji, Ne.symm hji]

/-- Strings are compared by content. -/
theorem equal_some (a b : List UInt8) :
    equal (some a) (some b) = true ↔ content a = content b :=
  compareLoop_iff a b

end CosKernel.CString
