import CosKernel.Pmm.Model

/-!
# Accounting of the physical memory manager

The counter of free frames is the number of bits set, and no bit is set beyond
`total_frames`. Marking, reserving and allocating keep this law; freeing keeps it
exactly when the frame exists and is not free already, which `pmm_free_frame`
does not check (`accounting_iff`).
-/

namespace CosKernel.Pmm

/-! ## Frames and words -/

theorem word_lt {s : PmmT} {f : Nat} (hf : f < s.totalFrames) : f / 64 < s.words := by
  unfold PmmT.words
  omega

theorem totalFrames_le_words (s : PmmT) : s.totalFrames ≤ s.words * 64 := by
  unfold PmmT.words
  omega

/-! ## What the calls do -/

theorem markFree_test (s : PmmT) (f g : Nat) :
    Bitmap.test (s.markFree f).bitmap g = (decide (g = f) || Bitmap.test s.bitmap g) :=
  Bitmap.test_set (by norm_num) s.bitmap f g

theorem markUsed_test (s : PmmT) (f g : Nat) :
    Bitmap.test (s.markUsed f).bitmap g = (!decide (g = f) && Bitmap.test s.bitmap g) :=
  Bitmap.test_clear (by norm_num) s.bitmap f g

/-- A property kept by one turn of the loop is kept by a range function; only frames below
`total_frames` are visited. -/
theorem forRange_invariant {visit : Nat → PmmT → PmmT} (P : PmmT → Prop) {s : PmmT} (hs : P s)
    (hvisit : ∀ f t, f < s.totalFrames → P t → P (visit f t)) (address length : UInt64) :
    P (forRange visit address length s) := by
  -- induction over the turns left; the bound on the frame is that of the first state
  have hloop : ∀ n frame t, frame + n ≤ s.totalFrames → P t → P (forFrames visit n frame t) := by
    intro n
    induction n with
    | zero =>
      intro frame t _ ht
      exact ht
    | succ n ih =>
      intro frame t hle ht
      unfold forFrames
      by_cases hbreak : t.words ≤ frame / 64
      · rw [if_pos hbreak]
        exact ht
      · rw [if_neg hbreak]
        exact ih (frame + 1) _ (by omega) (hvisit frame t (by omega) ht)
  unfold forRange
  by_cases hlen : length = 0
  · rw [if_pos hlen]
    exact hs
  · rw [if_neg hlen]
    by_cases hstart : frameOf address ≤ min (framesFor (address + length)) s.totalFrames
    · exact hloop _ _ s (by omega) hs
    · -- an empty range
      have hzero : min (framesFor (address + length)) s.totalFrames - frameOf address = 0 := by omega
      show P (forFrames visit (min (framesFor (address + length)) s.totalFrames - frameOf address) _ s)
      rw [hzero]
      exact hs

/-- `pmm_allocate_frame` takes the lowest free frame, or there is none and nothing changes. -/
theorem pmmAllocateFrame_cases (s : PmmT) :
    (∃ frame, frame < s.words * 64 ∧ Bitmap.test s.bitmap frame = true ∧
      (∀ f < frame, Bitmap.test s.bitmap f = false) ∧
      pmmAllocateFrame s = (UInt64.ofNat frame * frameSize, s.markUsed frame)) ∨
    ((∀ f < s.words * 64, Bitmap.test s.bitmap f = false) ∧ pmmAllocateFrame s = (0, s)) := by
  unfold pmmAllocateFrame
  rcases hfirst : Bitmap.firstSet s.bitmap s.words with _ | frame
  · right
    exact ⟨(Bitmap.firstSet_eq_none (by norm_num) _ _).1 hfirst, rfl⟩
  · left
    rcases (Bitmap.firstSet_eq_some (by norm_num) _ _ _).1 hfirst with ⟨hlt, hset, hlow⟩
    exact ⟨frame, hlt, hset, hlow, rfl⟩

/-! ## The law -/

structure Accounting (s : PmmT) : Prop where
  bound : s.totalFrames ≤ bitmapStorageWords * 64
  counter : s.freeFrames.toNat = Bitmap.count s.bitmap (s.words * 64)
  tail : ∀ f, s.totalFrames ≤ f → Bitmap.test s.bitmap f = false

/-- The counter never comes near its 64 bits. -/
theorem Accounting.count_lt {s : PmmT} (h : Accounting s) :
    Bitmap.count s.bitmap (s.words * 64) + 1 < 2 ^ 64 := by
  have hcount := Bitmap.count_le_of_clear s.bitmap (s.words * 64) h.tail
  have hbound := h.bound
  unfold bitmapStorageWords at hbound
  omega

theorem pmmInitialize_bound (totalMemory : UInt64) (s : PmmT) :
    (pmmInitialize totalMemory s).totalFrames ≤ bitmapStorageWords * 64 := by
  unfold pmmInitialize
  simp only
  split
  · exact le_rfl
  · show framesFor totalMemory ≤ bitmapStorageWords * 64
    omega

theorem pmmInitialize_test (totalMemory : UInt64) (f : Nat) :
    Bitmap.test (pmmInitialize totalMemory pmmState).bitmap f = false := by
  have hzero : (pmmInitialize totalMemory pmmState).bitmap = fun _ => 0 := by
    unfold pmmInitialize clearWords pmmState
    simp only [ite_self]
    split <;> rfl
  rw [hzero]
  simp [Bitmap.test]

theorem pmmInitialize_accounting (totalMemory : UInt64) :
    Accounting (pmmInitialize totalMemory pmmState) := by
  refine ⟨pmmInitialize_bound _ _, ?_, fun f _ => pmmInitialize_test totalMemory f⟩
  have hfree : (pmmInitialize totalMemory pmmState).freeFrames = 0 := by
    unfold pmmInitialize
    simp only
    split <;> rfl
  have hcount : Bitmap.count (pmmInitialize totalMemory pmmState).bitmap
      ((pmmInitialize totalMemory pmmState).words * 64) ≤ 0 :=
    Bitmap.count_le_of_clear _ _ fun f _ => pmmInitialize_test totalMemory f
  rw [hfree, Nat.le_zero.1 hcount]
  rfl

/-- Setting the bit of an existing frame and counting it. -/
theorem Accounting.markFree {s : PmmT} (h : Accounting s) {f : Nat} (hf : f < s.totalFrames)
    (hclear : Bitmap.test s.bitmap f = false) : Accounting (s.markFree f) := by
  refine ⟨h.bound, ?_, ?_⟩
  · have hlt : f < s.words * 64 := lt_of_lt_of_le hf (totalFrames_le_words s)
    have hcount := Bitmap.count_set (by norm_num) s.bitmap hlt hclear
    have hmax := h.count_lt
    show (s.freeFrames + 1).toNat = Bitmap.count (Bitmap.set s.bitmap f) (s.words * 64)
    rw [hcount, UInt64.toNat_add, h.counter]
    exact Nat.mod_eq_of_lt hmax
  · intro g hg
    have hne : g ≠ f := by
      rintro rfl
      exact absurd hf (not_lt.2 hg)
    rw [markFree_test, h.tail g hg]
    simp [hne]

/-- Clearing a bit that is set and counting it off. -/
theorem Accounting.markUsed {s : PmmT} (h : Accounting s) {f : Nat}
    (hset : Bitmap.test s.bitmap f = true) : Accounting (s.markUsed f) := by
  refine ⟨h.bound, ?_, ?_⟩
  · have hlt : f < s.words * 64 := by
      -- a bit that is set belongs to an existing frame
      by_contra hge
      have hle := totalFrames_le_words s
      rw [h.tail f (by omega)] at hset
      cases hset
    have hcount := Bitmap.count_clear (by norm_num) s.bitmap hlt hset
    -- the bit cleared was counted, so there is one to count off
    have hone : (1 : UInt64) ≤ s.freeFrames := by
      rw [UInt64.le_iff_toNat_le, h.counter]
      show 1 ≤ _
      omega
    show (s.freeFrames - 1).toNat = Bitmap.count (Bitmap.clear s.bitmap f) (s.words * 64)
    rw [UInt64.toNat_sub_of_le _ _ hone, h.counter, ← hcount]
    rfl
  · intro g hg
    rw [markUsed_test, h.tail g hg]
    simp

theorem addFrame_accounting {s : PmmT} (h : Accounting s) {f : Nat} (hf : f < s.totalFrames) :
    Accounting (addFrame f s) := by
  unfold addFrame
  by_cases hset : Bitmap.test s.bitmap f = true
  · rw [if_pos hset]
    exact h
  · rw [if_neg hset]
    exact h.markFree hf (by simpa using hset)

theorem reserveFrame_accounting {s : PmmT} (h : Accounting s) (f : Nat) :
    Accounting (reserveFrame f s) := by
  unfold reserveFrame
  by_cases hset : Bitmap.test s.bitmap f = true
  · rw [if_pos hset]
    exact h.markUsed hset
  · rw [if_neg hset]
    exact h

@[simp] theorem addFrame_totalFrames (f : Nat) (s : PmmT) :
    (addFrame f s).totalFrames = s.totalFrames := by
  unfold addFrame
  split <;> rfl

@[simp] theorem reserveFrame_totalFrames (f : Nat) (s : PmmT) :
    (reserveFrame f s).totalFrames = s.totalFrames := by
  unfold reserveFrame
  split <;> rfl

theorem pmmAddAvailableRange_accounting {s : PmmT} (h : Accounting s) (address length : UInt64) :
    Accounting (pmmAddAvailableRange address length s) := by
  refine (forRange_invariant (fun t => t.totalFrames = s.totalFrames ∧ Accounting t) ⟨rfl, h⟩ ?_
    address length).2
  rintro f t hf ⟨htot, ht⟩
  exact ⟨(addFrame_totalFrames f t).trans htot, addFrame_accounting ht (htot ▸ hf)⟩

theorem pmmReserveRange_accounting {s : PmmT} (h : Accounting s) (address length : UInt64) :
    Accounting (pmmReserveRange address length s) :=
  forRange_invariant Accounting h (fun f _ _ ht => reserveFrame_accounting ht f) address length

theorem pmmAllocateFrame_accounting {s : PmmT} (h : Accounting s) :
    Accounting (pmmAllocateFrame s).2 := by
  rcases pmmAllocateFrame_cases s with ⟨frame, -, hset, -, halloc⟩ | ⟨-, halloc⟩
  · rw [halloc]
    exact h.markUsed hset
  · rw [halloc]
    exact h

/-! ## Freeing -/

/-- What the law needs of a call: a frame that is freed exists and is not free, unless the call
is refused because there is no such word. -/
def Sound (s : PmmT) : Call → Prop
  | .freeFrame paddr => s.words ≤ frameOf paddr / 64 ∨
      (frameOf paddr < s.totalFrames ∧ Bitmap.test s.bitmap (frameOf paddr) = false)
  | _ => True

/-- A sound call keeps the law. -/
theorem step_accounting {s : PmmT} {c : Call} (h : Accounting s) (hc : Sound s c) :
    Accounting (step s c) := by
  cases c with
  | addAvailableRange address length => exact pmmAddAvailableRange_accounting h address length
  | reserveRange address length => exact pmmReserveRange_accounting h address length
  | allocateFrame => exact pmmAllocateFrame_accounting h
  | freeFrame paddr =>
    show Accounting (pmmFreeFrame paddr s)
    unfold pmmFreeFrame
    simp only
    rcases hc with hword | ⟨hlt, hclear⟩
    · rw [if_pos hword]
      exact h
    · rw [if_neg (not_le.2 (word_lt hlt))]
      exact h.markFree hlt hclear

/-- What the callers see of the law: the memory reported exists, and so does a frame handed out. -/
structure Accounted (s : PmmT) : Prop where
  counter : s.freeFrames.toNat = Bitmap.count s.bitmap (s.words * 64)
  tail : ∀ f, s.totalFrames ≤ f → Bitmap.test s.bitmap f = false
  available : (pmmGetAvailable s).toNat ≤ s.totalFrames * 4096
  allocated : (pmmAllocateFrame s).1 ≠ 0 → (pmmAllocateFrame s).1.toNat < s.totalFrames * 4096

/-- An address computed in 64 bits is not above the frame's. -/
theorem toNat_mul_frameSize_le (n : UInt64) : (n * frameSize).toNat ≤ n.toNat * 4096 := by
  rw [UInt64.toNat_mul]
  exact Nat.mod_le _ _

theorem Accounting.accounted {s : PmmT} (h : Accounting s) : Accounted s := by
  refine ⟨h.counter, h.tail, ?_, ?_⟩
  · have hcount := Bitmap.count_le_of_clear s.bitmap (s.words * 64) h.tail
    have hle := toNat_mul_frameSize_le s.freeFrames
    rw [h.counter] at hle
    exact hle.trans (Nat.mul_le_mul_right 4096 hcount)
  · intro hne
    rcases pmmAllocateFrame_cases s with ⟨frame, -, hset, -, halloc⟩ | ⟨-, halloc⟩
    · have hlt : frame < s.totalFrames := by
        by_contra hge
        rw [h.tail frame (not_lt.1 hge)] at hset
        cases hset
      -- the bound needs no exact address: wrapping around only makes it smaller
      have hle := toNat_mul_frameSize_le (UInt64.ofNat frame)
      have hframe : (UInt64.ofNat frame).toNat ≤ frame := by
        rw [UInt64.toNat_ofNat']
        exact Nat.mod_le _ _
      have hfst : (pmmAllocateFrame s).1 = UInt64.ofNat frame * frameSize := by rw [halloc]
      rw [hfst]
      omega
    · rw [halloc] at hne
      exact absurd rfl hne

/-- Between two states that keep the law, every call was sound. -/
theorem sound_of_accounted {s : PmmT} {c : Call} (h : Accounted s) (h' : Accounted (step s c)) :
    Sound s c := by
  cases c with
  | addAvailableRange address length => trivial
  | reserveRange address length => trivial
  | allocateFrame => trivial
  | freeFrame paddr =>
    by_cases hword : s.words ≤ frameOf paddr / 64
    · exact Or.inl hword
    right
    have hstep : step s (.freeFrame paddr) = s.markFree (frameOf paddr) := by
      show pmmFreeFrame paddr s = _
      unfold pmmFreeFrame
      rw [if_neg hword]
    rw [hstep] at h'
    constructor
    · -- the bit is set now, so the frame must exist
      by_contra hge
      have htail := h'.tail (frameOf paddr) (not_lt.1 hge)
      rw [markFree_test] at htail
      simp at htail
    · -- had the bit been set before, the counter would be one ahead
      by_contra hset
      have hset' : Bitmap.test s.bitmap (frameOf paddr) = true := by simpa using hset
      have hsame : Bitmap.set s.bitmap (frameOf paddr) = s.bitmap := by
        apply Bitmap.ext_test (by norm_num)
        intro g
        rw [Bitmap.test_set (by norm_num)]
        by_cases hg : g = frameOf paddr
        · simp [hg, hset']
        · simp [hg]
      have hcounter : (s.freeFrames + 1).toNat =
          Bitmap.count (Bitmap.set s.bitmap (frameOf paddr)) (s.words * 64) := h'.counter
      rw [hsame, ← h.counter, UInt64.toNat_add] at hcounter
      have hlt := s.freeFrames.toNat_lt
      have hone : (1 : UInt64).toNat = 1 := rfl
      simp only [hone] at hcounter
      omega

/-- The law holds throughout a run if and only if every free of the run names a frame that
exists and is not free, or is refused. -/
theorem accounting_iff (totalMemory : UInt64) (calls : List Call) :
    Run.Always step Accounted (pmmInitialize totalMemory pmmState) calls ↔
      Run.Each step Sound (pmmInitialize totalMemory pmmState) calls := by
  constructor
  · intro halways
    exact Run.each_of_always (fun s c => sound_of_accounted) halways
  · intro heach
    exact Run.always_of_each Accounting (fun s c => step_accounting) (fun s h => h.accounted)
      (pmmInitialize_accounting totalMemory) heach

/-- Frame 0 of a one-page machine is never made available; freed twice, it counts as two pages. -/
theorem double_free_overcounts : ¬ Run.Always step Accounted (pmmInitialize 4096 pmmState)
    [.freeFrame 0, .freeFrame 0] := by
  intro halways
  have heach := Run.each_of_always (fun s c => sound_of_accounted) halways
  rcases heach.2.1 with hword | ⟨-, hclear⟩
  · revert hword
    decide
  · revert hclear
    decide

end CosKernel.Pmm
