import CosKernel.Pmm.Boot

/-!
# The words of the bitmap that are accessed

The functions of `pmm.c` once more, with the index of every word they read or
write. Each is the function of the model with a log (`logged_step`), and each
index is below `bitmap_size` as `pmm_initialize` left it (`logged_lt_words`):
the range functions stop at `total_frames` and at the last word, allocating and
freeing at the last word. `pmm_initialize` clears exactly these words
(`pmmInitializeLogged_log`).
-/

namespace CosKernel.Pmm

/-- The indices of the words accessed, in order, and the state left. -/
structure Logged (α : Type) where
  log : List Nat
  value : α

/-! ## The functions with their accesses -/

/-- `pmm_initialize`: the loop that clears the words, and the state. -/
def pmmInitializeLogged (totalMemory : UInt64) (s : PmmT) : Logged PmmT :=
  let totalFrames := framesFor totalMemory
  let bitmapSize := (totalFrames + 63) / 64
  if bitmapStorageWords < bitmapSize then
    ⟨List.range bitmapStorageWords,
      ⟨(List.range bitmapStorageWords).foldl (fun b i => Function.update b i 0) s.bitmap,
        bitmapStorageWords * 64, 0⟩⟩
  else
    ⟨List.range bitmapSize,
      ⟨(List.range bitmapSize).foldl (fun b i => Function.update b i 0) s.bitmap, totalFrames, 0⟩⟩

/-- The loop body of `pmm_add_available_range`: the test reads the word, `|=` reads and writes it. -/
def addFrameLogged (frame : Nat) (s : PmmT) : Logged PmmT :=
  if Bitmap.test s.bitmap frame then ⟨[frame / 64], s⟩
  else ⟨[frame / 64, frame / 64, frame / 64], s.markFree frame⟩

/-- The loop body of `pmm_reserve_range`. -/
def reserveFrameLogged (frame : Nat) (s : PmmT) : Logged PmmT :=
  if Bitmap.test s.bitmap frame then ⟨[frame / 64, frame / 64, frame / 64], s.markUsed frame⟩
  else ⟨[frame / 64], s⟩

/-- The loop of both range functions. -/
def forFramesLogged (visit : Nat → PmmT → Logged PmmT) : Nat → Nat → PmmT → Logged PmmT
  | 0, _, s => ⟨[], s⟩
  | n + 1, frame, s =>
    if s.words ≤ frame / 64 then ⟨[], s⟩
    else
      let here := visit frame s
      let rest := forFramesLogged visit n (frame + 1) here.value
      ⟨here.log ++ rest.log, rest.value⟩

/-- The range functions. -/
def forRangeLogged (visit : Nat → PmmT → Logged PmmT) (address length : UInt64) (s : PmmT) : Logged PmmT :=
  if length = 0 then ⟨[], s⟩
  else
    let startFrame := frameOf address
    let endFrame := framesFor (address + length)
    forFramesLogged visit (min endFrame s.totalFrames - startFrame) startFrame s

/-- The bits of word `i` tried from `bit` on; each turn reads the word. -/
def searchBitsLogged (word : BitVec 64) (i : Nat) : Nat → Nat → Logged (Option Nat)
  | 0, _ => ⟨[], none⟩
  | n + 1, bit =>
    if word &&& 1#64 <<< bit ≠ 0 then ⟨[i], some (i * 64 + bit)⟩
    else
      let rest := searchBitsLogged word i n (bit + 1)
      ⟨i :: rest.log, rest.value⟩

/-- The words tried from `i` on: each is compared with 0, and its bits are tried if it differs. -/
def searchWordsLogged (bitmap : Nat → BitVec 64) : Nat → Nat → Logged (Option Nat)
  | 0, _ => ⟨[], none⟩
  | n + 1, i =>
    let bits := if bitmap i ≠ 0 then searchBitsLogged (bitmap i) i 64 0 else ⟨[], none⟩
    match bits.value with
    | some frame => ⟨i :: bits.log, some frame⟩
    | none =>
      let rest := searchWordsLogged bitmap n (i + 1)
      ⟨i :: bits.log ++ rest.log, rest.value⟩

/-- `pmm_allocate_frame` -/
def pmmAllocateFrameLogged (s : PmmT) : Logged (UInt64 × PmmT) :=
  let found := searchWordsLogged s.bitmap s.words 0
  match found.value with
  | some frame =>
    ⟨found.log ++ [frame / 64, frame / 64], (UInt64.ofNat frame * frameSize, s.markUsed frame)⟩
  | none => ⟨found.log, (0, s)⟩

/-- `pmm_free_frame` -/
def pmmFreeFrameLogged (paddr : UInt64) (s : PmmT) : Logged PmmT :=
  let frame := frameOf paddr
  if s.words ≤ frame / 64 then ⟨[], s⟩ else ⟨[frame / 64, frame / 64], s.markFree frame⟩

/-- One call. `pmm_get_available` reads the counter only. -/
def stepLogged (s : PmmT) : Call → Logged PmmT
  | .addAvailableRange address length => forRangeLogged addFrameLogged address length s
  | .reserveRange address length => forRangeLogged reserveFrameLogged address length s
  | .allocateFrame => ⟨(pmmAllocateFrameLogged s).log, (pmmAllocateFrameLogged s).value.2⟩
  | .freeFrame paddr => pmmFreeFrameLogged paddr s

/-- The accesses of a run. -/
def accesses : PmmT → List Call → List Nat
  | _, [] => []
  | s, c :: calls => (stepLogged s c).log ++ accesses (stepLogged s c).value calls

/-! ## They compute what the model computes -/

theorem foldl_clear (n : Nat) (b : Nat → BitVec 64) :
    (List.range n).foldl (fun b i => Function.update b i 0) b = clearWords n b := by
  induction n with
  | zero => rfl
  | succ n ih =>
    rw [List.range_succ, List.foldl_append, ih]
    funext i
    show Function.update (clearWords n b) n 0 i = clearWords (n + 1) b i
    unfold clearWords
    by_cases hi : i = n
    · rw [hi, Function.update_self, if_pos (Nat.lt_succ_self n)]
    · rw [Function.update_of_ne hi]
      congr 1
      rw [eq_iff_iff]
      omega

theorem pmmInitializeLogged_value (totalMemory : UInt64) (s : PmmT) :
    (pmmInitializeLogged totalMemory s).value = pmmInitialize totalMemory s := by
  unfold pmmInitializeLogged pmmInitialize
  simp only [foldl_clear]
  split <;> rfl

/-- 64 frames to a word. -/
theorem words_mul (bitmap : Nat → BitVec 64) (n : Nat) (freeFrames : UInt64) :
    PmmT.words ⟨bitmap, n * 64, freeFrames⟩ = n := by
  unfold PmmT.words
  simp only
  omega

/-- `pmm_initialize` clears the words that hold a frame, no others. -/
theorem pmmInitializeLogged_log (totalMemory : UInt64) (s : PmmT) :
    (pmmInitializeLogged totalMemory s).log = List.range (pmmInitialize totalMemory s).words := by
  unfold pmmInitializeLogged pmmInitialize
  simp only
  split
  · rw [words_mul]
  · rfl

theorem pmmInitialize_bitmap (totalMemory : UInt64) (s : PmmT) :
    (pmmInitialize totalMemory s).bitmap = clearWords (pmmInitialize totalMemory s).words s.bitmap := by
  unfold pmmInitialize
  simp only
  split
  · rw [words_mul]
  · rfl

theorem forFramesLogged_value {visit : Nat → PmmT → Logged PmmT} {visit' : Nat → PmmT → PmmT}
    (hvisit : ∀ f t, (visit f t).value = visit' f t) (n frame : Nat) (s : PmmT) :
    (forFramesLogged visit n frame s).value = forFrames visit' n frame s := by
  induction n generalizing frame s with
  | zero => rfl
  | succ n ih =>
    unfold forFramesLogged forFrames
    by_cases hbreak : s.words ≤ frame / 64
    · rw [if_pos hbreak, if_pos hbreak]
    · rw [if_neg hbreak, if_neg hbreak, ← hvisit]
      exact ih (frame + 1) _

theorem forRangeLogged_value {visit : Nat → PmmT → Logged PmmT} {visit' : Nat → PmmT → PmmT}
    (hvisit : ∀ f t, (visit f t).value = visit' f t) (address length : UInt64) (s : PmmT) :
    (forRangeLogged visit address length s).value = forRange visit' address length s := by
  unfold forRangeLogged forRange
  by_cases hlen : length = 0
  · rw [if_pos hlen, if_pos hlen]
  · rw [if_neg hlen, if_neg hlen]
    exact forFramesLogged_value hvisit _ _ s

theorem addFrameLogged_value (f : Nat) (s : PmmT) : (addFrameLogged f s).value = addFrame f s := by
  unfold addFrameLogged addFrame
  split <;> rfl

theorem reserveFrameLogged_value (f : Nat) (s : PmmT) : (reserveFrameLogged f s).value = reserveFrame f s := by
  unfold reserveFrameLogged reserveFrame
  split <;> rfl

theorem searchBitsLogged_value (word : BitVec 64) (i n bit : Nat) :
    (searchBitsLogged word i n bit).value =
      ((List.range' bit n).find? fun j => decide (word &&& 1#64 <<< j ≠ 0)).map fun j => i * 64 + j := by
  induction n generalizing bit with
  | zero => rfl
  | succ n ih =>
    unfold searchBitsLogged
    rw [List.range'_succ]
    by_cases hbit : word &&& 1#64 <<< bit ≠ 0
    · rw [if_pos hbit, List.find?_cons_of_pos (by simpa using hbit)]
      rfl
    · rw [if_neg hbit, List.find?_cons_of_neg (by simpa using hbit)]
      exact ih (bit + 1)

theorem searchWordsLogged_value (bitmap : Nat → BitVec 64) (n : Nat) :
    (searchWordsLogged bitmap n 0).value = Bitmap.firstSet bitmap n := by
  -- the search from any word on is the search of the words from there
  have hfrom : ∀ n i, (searchWordsLogged bitmap n i).value = (List.range' i n).findSome? fun i =>
      if bitmap i ≠ 0 then
        ((List.range 64).find? fun j => decide (bitmap i &&& 1#64 <<< j ≠ 0)).map fun j => i * 64 + j
      else none := by
    intro n
    induction n with
    | zero => exact fun i => rfl
    | succ n ih =>
      intro i
      have hword : (if bitmap i ≠ 0 then searchBitsLogged (bitmap i) i 64 0 else ⟨[], none⟩).value =
          if bitmap i ≠ 0 then
            ((List.range 64).find? fun j => decide (bitmap i &&& 1#64 <<< j ≠ 0)).map fun j => i * 64 + j
          else none := by
        by_cases hzero : bitmap i ≠ 0
        · rw [if_pos hzero, if_pos hzero, searchBitsLogged_value, List.range_eq_range']
        · rw [if_neg hzero, if_neg hzero]
      unfold searchWordsLogged
      rw [List.range'_succ, List.findSome?_cons, ← hword, ← ih (i + 1)]
      simp only
      rcases (if bitmap i ≠ 0 then searchBitsLogged (bitmap i) i 64 0 else ⟨[], none⟩).value with _ | frame
      · rfl
      · rfl
  rw [hfrom, ← List.range_eq_range']
  rfl

theorem pmmAllocateFrameLogged_value (s : PmmT) : (pmmAllocateFrameLogged s).value = pmmAllocateFrame s := by
  unfold pmmAllocateFrameLogged pmmAllocateFrame
  simp only [searchWordsLogged_value]
  rcases Bitmap.firstSet s.bitmap s.words with _ | frame
  · rfl
  · rfl

theorem stepLogged_value (s : PmmT) (c : Call) : (stepLogged s c).value = step s c := by
  cases c with
  | addAvailableRange address length => exact forRangeLogged_value addFrameLogged_value address length s
  | reserveRange address length => exact forRangeLogged_value reserveFrameLogged_value address length s
  | allocateFrame =>
    show (pmmAllocateFrameLogged s).value.2 = (pmmAllocateFrame s).2
    rw [pmmAllocateFrameLogged_value]
  | freeFrame paddr =>
    show (pmmFreeFrameLogged paddr s).value = pmmFreeFrame paddr s
    unfold pmmFreeFrameLogged pmmFreeFrame
    simp only
    split <;> rfl

/-! ## Where they access the bitmap -/

/-- The loop of the range functions is at a word of the bitmap whenever it runs its body. -/
theorem forFramesLogged_lt {visit : Nat → PmmT → Logged PmmT} (hlog : ∀ f t, ∀ i ∈ (visit f t).log, i = f / 64)
    (hwords : ∀ f t, (visit f t).value.words = t.words) (n frame : Nat) (s : PmmT) :
    ∀ i ∈ (forFramesLogged visit n frame s).log, i < s.words := by
  induction n generalizing frame s with
  | zero =>
    intro i hi
    cases hi
  | succ n ih =>
    intro i hi
    unfold forFramesLogged at hi
    by_cases hbreak : s.words ≤ frame / 64
    · rw [if_pos hbreak] at hi
      cases hi
    · rw [if_neg hbreak] at hi
      rcases List.mem_append.1 hi with hhere | hrest
      · rw [hlog frame s i hhere]
        omega
      · have hlt := ih (frame + 1) _ i hrest
        rwa [hwords] at hlt

theorem forRangeLogged_lt {visit : Nat → PmmT → Logged PmmT} (hlog : ∀ f t, ∀ i ∈ (visit f t).log, i = f / 64)
    (hwords : ∀ f t, (visit f t).value.words = t.words) (address length : UInt64) (s : PmmT) :
    ∀ i ∈ (forRangeLogged visit address length s).log, i < s.words := by
  unfold forRangeLogged
  by_cases hlen : length = 0
  · rw [if_pos hlen]
    intro i hi
    cases hi
  · rw [if_neg hlen]
    exact forFramesLogged_lt hlog hwords _ _ s

theorem addFrameLogged_log (f : Nat) (s : PmmT) : ∀ i ∈ (addFrameLogged f s).log, i = f / 64 := by
  unfold addFrameLogged
  split <;> simp

theorem reserveFrameLogged_log (f : Nat) (s : PmmT) : ∀ i ∈ (reserveFrameLogged f s).log, i = f / 64 := by
  unfold reserveFrameLogged
  split <;> simp

theorem addFrameLogged_words (f : Nat) (s : PmmT) : (addFrameLogged f s).value.words = s.words := by
  unfold addFrameLogged
  split <;> rfl

theorem reserveFrameLogged_words (f : Nat) (s : PmmT) : (reserveFrameLogged f s).value.words = s.words := by
  unfold reserveFrameLogged
  split <;> rfl

theorem searchBitsLogged_log (word : BitVec 64) (i n bit : Nat) :
    ∀ k ∈ (searchBitsLogged word i n bit).log, k = i := by
  induction n generalizing bit with
  | zero =>
    intro k hk
    cases hk
  | succ n ih =>
    intro k hk
    unfold searchBitsLogged at hk
    split at hk
    · exact List.mem_singleton.1 hk
    · rcases List.mem_cons.1 hk with hk | hk
      · exact hk
      · exact ih (bit + 1) k hk

theorem searchWordsLogged_lt (bitmap : Nat → BitVec 64) (n i : Nat) :
    ∀ k ∈ (searchWordsLogged bitmap n i).log, k < i + n := by
  induction n generalizing i with
  | zero =>
    intro k hk
    cases hk
  | succ n ih =>
    intro k hk
    -- in this word, whether its bits are tried or not
    have hhere : ∀ k ∈ i :: (if bitmap i ≠ 0 then searchBitsLogged (bitmap i) i 64 0 else ⟨[], none⟩).log,
        k < i + (n + 1) := by
      intro k hk
      have hki : k = i := by
        rcases List.mem_cons.1 hk with hk | hk
        · exact hk
        · split at hk
          · exact searchBitsLogged_log _ i 64 0 k hk
          · cases hk
      omega
    unfold searchWordsLogged at hk
    simp only at hk
    split at hk
    · exact hhere k hk
    · rcases List.mem_append.1 hk with hk | hk
      · exact hhere k hk
      · have hlt := ih (i + 1) k hk
        omega

theorem pmmAllocateFrameLogged_lt (s : PmmT) : ∀ i ∈ (pmmAllocateFrameLogged s).log, i < s.words := by
  have hsearch : ∀ i ∈ (searchWordsLogged s.bitmap s.words 0).log, i < s.words := by
    intro i hi
    have hlt := searchWordsLogged_lt s.bitmap s.words 0 i hi
    omega
  intro i hi
  unfold pmmAllocateFrameLogged at hi
  simp only at hi
  split at hi
  · rename_i frame hfound
    rw [searchWordsLogged_value] at hfound
    have hframe := ((Bitmap.firstSet_eq_some (by norm_num) _ _ _).1 hfound).1
    rcases List.mem_append.1 hi with hi | hi
    · exact hsearch i hi
    · -- the word of the frame found
      have hki : i = frame / 64 := by simpa using hi
      omega
  · exact hsearch i hi

theorem stepLogged_lt_words (s : PmmT) (c : Call) : ∀ i ∈ (stepLogged s c).log, i < s.words := by
  cases c with
  | addAvailableRange address length =>
    exact forRangeLogged_lt addFrameLogged_log addFrameLogged_words address length s
  | reserveRange address length =>
    exact forRangeLogged_lt reserveFrameLogged_log reserveFrameLogged_words address length s
  | allocateFrame => exact pmmAllocateFrameLogged_lt s
  | freeFrame paddr =>
    intro i hi
    replace hi : i ∈ (pmmFreeFrameLogged paddr s).log := hi
    unfold pmmFreeFrameLogged at hi
    simp only at hi
    split at hi
    · cases hi
    · have hki : i = frameOf paddr / 64 := by simpa using hi
      omega

theorem step_totalFrames (s : PmmT) (c : Call) : (step s c).totalFrames = s.totalFrames := by
  cases c with
  | addAvailableRange address length => exact pmmAddAvailableRange_totalFrames address length s
  | reserveRange address length => exact pmmReserveRange_totalFrames address length s
  | allocateFrame =>
    rcases pmmAllocateFrame_cases s with ⟨frame, -, -, -, halloc⟩ | ⟨-, halloc⟩
    · show (pmmAllocateFrame s).2.totalFrames = _
      rw [halloc]
      rfl
    · show (pmmAllocateFrame s).2.totalFrames = _
      rw [halloc]
  | freeFrame paddr =>
    show (pmmFreeFrame paddr s).totalFrames = _
    unfold pmmFreeFrame
    simp only
    split <;> rfl

/-- No call of a run leaves the words that were there at its start. -/
theorem accesses_lt_words (s : PmmT) (calls : List Call) : ∀ i ∈ accesses s calls, i < s.words := by
  induction calls generalizing s with
  | nil =>
    intro i hi
    cases hi
  | cons c calls ih =>
    intro i hi
    rcases List.mem_append.1 hi with hhere | hrest
    · exact stepLogged_lt_words s c i hhere
    · have hlt := ih _ i hrest
      rw [stepLogged_value] at hlt
      unfold PmmT.words at hlt ⊢
      rwa [step_totalFrames] at hlt

theorem pmmInitialize_words_le (totalMemory : UInt64) (s : PmmT) :
    (pmmInitialize totalMemory s).words ≤ bitmapStorageWords := by
  have hbound := pmmInitialize_bound totalMemory s
  unfold PmmT.words
  omega

/-- The number of frames, for the sizes that can be rounded up. -/
theorem pmmInitialize_totalFrames {totalMemory : UInt64} (h : totalMemory.toNat + 4095 < 2 ^ 64) (s : PmmT) :
    (pmmInitialize totalMemory s).totalFrames = min (totalMemory.toNat ⌈/⌉ 4096) (131072 * 64) := by
  have hround : framesFor totalMemory = totalMemory.toNat ⌈/⌉ 4096 := by
    have hsize : frameSize.toNat = 4096 := rfl
    have hone : (1 : UInt64).toNat = 1 := rfl
    unfold framesFor
    rw [Nat.ceilDiv_eq_add_pred_div, UInt64.toNat_div, hsize]
    -- `totalMemory + 4096 - 1` in 64 bits: the sum may wrap, the difference does not
    have hsum : (totalMemory + frameSize - 1).toNat = totalMemory.toNat + 4095 := by
      rw [UInt64.toNat_sub, UInt64.toNat_add, hsize, hone]
      omega
    rw [hsum]
    omega
  unfold pmmInitialize
  simp only
  rw [hround]
  split
  · show bitmapStorageWords * 64 = _
    unfold bitmapStorageWords at *
    omega
  · show totalMemory.toNat ⌈/⌉ 4096 = _
    unfold bitmapStorageWords at *
    omega

/-- Whatever the size of the memory and the calls that follow, the words accessed lie in
`bitmap_storage` and are words `pmm_initialize` cleared. -/
theorem accesses_cleared (totalMemory : UInt64) (s : PmmT) (calls : List Call) :
    (∀ i ∈ (pmmInitializeLogged totalMemory s).log ++ accesses (pmmInitializeLogged totalMemory s).value calls,
      i < 131072 ∧ i ∈ (pmmInitializeLogged totalMemory s).log ∧ (pmmInitialize totalMemory s).bitmap i = 0) ∧
    (totalMemory.toNat + 4095 < 2 ^ 64 →
      (pmmInitialize totalMemory s).totalFrames = min (totalMemory.toNat ⌈/⌉ 4096) (131072 * 64)) := by
  refine ⟨?_, fun h => pmmInitialize_totalFrames h s⟩
  intro i hi
  rw [pmmInitializeLogged_value, pmmInitializeLogged_log] at *
  have hlt : i < (pmmInitialize totalMemory s).words := by
    rcases List.mem_append.1 hi with hi | hi
    · exact List.mem_range.1 hi
    · exact accesses_lt_words _ calls i hi
  refine ⟨lt_of_lt_of_le hlt (pmmInitialize_words_le totalMemory s), List.mem_range.2 hlt, ?_⟩
  rw [pmmInitialize_bitmap]
  exact if_pos hlt

end CosKernel.Pmm
