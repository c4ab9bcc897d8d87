import CosKernel.Clipboard.Model

/-!
# What a reader of the clipboard sees

`clipboard_copy` writes no NUL behind the text. Where the text has none of its
own, the reader goes on into what earlier copies left in the buffer
(`residue`), and a text of 512 bytes ends in no byte of the buffer at all.
-/

namespace CosKernel.Clipboard

/-! ## The buffer after a history -/

/-- The byte at offset `i` after a call, if it was `b` before. -/
def writtenBy (i : Nat) (b : UInt8) : Call → UInt8
  | .copy (some data) size => if i < size ∧ size ≤ clipboardSize then data i else b
  | _ => b

/-- The byte at offset `i` that earlier copies left: that of the last accepted copy of more
than `i` bytes, or the zero of `.bss`. Clearing leaves it. -/
def residue (calls : List Call) (i : Nat) : UInt8 := calls.foldl (writtenBy i) 0

theorem copyLoop_get (data : Nat → UInt8) (size : Nat) (buffer : Vector UInt8 clipboardSize)
    (i : Nat) (hi : i < clipboardSize) :
    (copyLoop data size buffer)[i] = if i < size then data i else buffer[i] := by
  induction size with
  | zero => simp [copyLoop]
  | succ size ih =>
    have hsucc : copyLoop data (size + 1) buffer =
        (copyLoop data size buffer).setIfInBounds size (data size) := by
      simp [copyLoop, List.range_succ]
    simp only [hsucc, Vector.getElem_setIfInBounds, ih]
    by_cases his : size = i
    · simp [his]
    · have hiff : i < size + 1 ↔ i < size := by omega
      simp [his, hiff]

/-- A copy that is accepted puts its bytes in front and keeps the rest of the buffer. -/
theorem copyLoop_toList (data : Nat → UInt8) {size : Nat} (hsize : size ≤ clipboardSize)
    (buffer : Vector UInt8 clipboardSize) :
    (copyLoop data size buffer).toList = bytesOf data size ++ buffer.toList.drop size := by
  apply List.ext_getElem
  · simp [bytesOf]
    omega
  · intro i hi _
    have hi' : i < clipboardSize := by simpa using hi
    rw [Vector.getElem_toList, copyLoop_get data size buffer i hi']
    by_cases his : i < size
    · simp [bytesOf, his]
    · simp only [his, if_false]
      rw [List.getElem_append_right (by simpa [bytesOf] using his)]
      simp [bytesOf, Nat.add_sub_cancel' (Nat.not_lt.1 his)]

theorem step_get (s : ClipboardState) (call : Call) (i : Nat) (hi : i < clipboardSize) :
    (step s call).buffer[i] = writtenBy i s.buffer[i] call := by
  cases call with
  | clear => rfl
  | copy data size =>
    cases data with
    | none => rfl
    | some data =>
      show (clipboardCopy (some data) size s).buffer[i] = _
      unfold clipboardCopy writtenBy
      by_cases hbad : size = 0 ∨ size > clipboardSize
      · have hnot : ¬(i < size ∧ size ≤ clipboardSize) := by omega
        simp only [hbad, hnot, if_true, if_false]
      · have hle : size ≤ clipboardSize := by omega
        simp only [hbad, hle, if_false, and_true, copyLoop_get]

theorem run_get (calls : List Call) (i : Nat) (hi : i < clipboardSize) :
    (run calls).buffer[i] = residue calls i := by
  -- one byte of the buffer has a history of its own
  have hfold : ∀ s : ClipboardState, (calls.foldl step s).buffer[i] =
      calls.foldl (writtenBy i) s.buffer[i] := by
    induction calls with
    | nil => exact fun s => rfl
    | cons call calls ih =>
      intro s
      rw [List.foldl_cons, List.foldl_cons, ih, step_get s call i hi]
  have hzero : (clipboardInitialize bss).buffer[i] = 0 := by simp [clipboardInitialize, bss]
  rw [run, hfold, hzero, residue]

/-! ## The reader -/

section LastCopy

variable (calls : List Call) (data : Nat → UInt8) {size : Nat}

/-- The reader finds the bytes copied, and behind them what was in the buffer. -/
theorem seen_after_copy (hpos : 1 ≤ size) (hsize : size ≤ clipboardSize) :
    seen (run (calls ++ [Call.copy (some data) size])) =
      CString.scan (bytesOf data size ++ (run calls).buffer.toList.drop size) := by
  have hok : ¬(size = 0 ∨ size > clipboardSize) := by omega
  have hrun : run (calls ++ [Call.copy (some data) size]) =
      { buffer := copyLoop data size (run calls).buffer, used := size } := by
    rw [run, List.foldl_append]
    show clipboardCopy (some data) size (run calls) = _
    rw [clipboardCopy, if_neg hok]
  have hused : size ≠ 0 := by omega
  rw [hrun, seen, clipboardPaste, if_neg hused, Option.bind_some, copyLoop_toList data hsize]

/-- What is left in the buffer begins with a NUL, or it does not end the text at once. -/
theorem scan_rest_eq_nil_iff :
    CString.scan ((run calls).buffer.toList.drop size) = some [] ↔
      size < clipboardSize ∧ residue calls size = 0 := by
  rcases Nat.lt_or_ge size clipboardSize with hlt | hge
  · have hdrop : (run calls).buffer.toList.drop size =
        residue calls size :: (run calls).buffer.toList.drop (size + 1) := by
      rw [List.drop_eq_getElem_cons (by simpa using hlt), Vector.getElem_toList,
        run_get calls size hlt]
    rw [hdrop, CString.scan]
    by_cases hzero : residue calls size = 0
    · simp [hzero, hlt]
    · simp [hzero]
  · have hdrop : (run calls).buffer.toList.drop size = [] := by
      apply List.drop_eq_nil_of_le
      simpa using hge
    rw [hdrop]
    simp [CString.scan, Nat.not_lt.2 hge]

/-- The text has a NUL of its own, or the byte behind it in the buffer is one. -/
def Terminated (calls : List Call) (data : Nat → UInt8) (size : Nat) : Prop :=
  0 ∈ bytesOf data size ∨ size < clipboardSize ∧ residue calls size = 0

instance : Decidable (Terminated calls data size) :=
  inferInstanceAs (Decidable (_ ∨ _))

theorem seen_eq_content_iff (hpos : 1 ≤ size) (hsize : size ≤ clipboardSize) :
    seen (run (calls ++ [Call.copy (some data) size])) = some (CString.content (bytesOf data size)) ↔
      Terminated calls data size := by
  rw [seen_after_copy calls data hpos hsize, Terminated]
  by_cases hnul : 0 ∈ bytesOf data size
  · rw [CString.scan_eq, if_pos (List.mem_append_left _ hnul), CString.content_append_of_mem hnul]
    simp [hnul]
  · -- the reader goes on behind the text
    rw [← scan_rest_eq_nil_iff calls]
    simp only [hnul, false_or]
    rw [CString.scan_eq, CString.scan_eq, CString.content_append_of_not_mem hnul,
      CString.content_of_not_mem hnul]
    simp only [List.mem_append, hnul, false_or]
    by_cases hrest : 0 ∈ (run calls).buffer.toList.drop size
    · simp [hrest]
    · simp [hrest]

end LastCopy

/-! ## The daemon

The daemon is a reader that stops after 63 bytes, so it stays inside of the buffer whatever
is there, and keeps what it saw in a snapshot of its own. -/

section Daemon

variable (data : Vector UInt8 clipboardSize)

/-- `snapshot` holds the first `k` characters of the text and a NUL behind them. -/
structure Holds (snapshot : Vector UInt8 snapshotSize) (k : Nat) : Prop where
  lt : k < snapshotSize
  same : ∀ i < k, snapshot.toList.getD i 0 = data.toList.getD i 0
  text : ∀ i < k, data.toList.getD i 0 ≠ 0
  ended : snapshot.toList.getD k 0 = 0

/-- The loop leaves the text up to its NUL, or its first 63 characters. -/
theorem snapshotLoop_holds (left i : Nat) (snapshot : Vector UInt8 snapshotSize) (changed : Bool)
    (hleft : i + left = snapshotSize - 1)
    (hsame : ∀ j < i, snapshot.toList.getD j 0 = data.toList.getD j 0)
    (htext : ∀ j < i, data.toList.getD j 0 ≠ 0)
    (hlast : snapshot.toList.getD (snapshotSize - 1) 0 = 0) :
    ∃ k, Holds data (snapshotLoop data left i snapshot changed).1 k ∧
      (k = snapshotSize - 1 ∨ data.toList.getD k 0 = 0) ∧
      (snapshotLoop data left i snapshot changed).1.toList.getD (snapshotSize - 1) 0 = 0 := by
  induction left generalizing i snapshot changed with
  | zero =>
    refine ⟨i, ⟨?_, hsame, htext, ?_⟩, Or.inl (by omega), hlast⟩
    · have : snapshotSize = 64 := rfl
      omega
    · have hi : i = snapshotSize - 1 := by omega
      rw [hi]
      exact hlast
  | succ left ih =>
    have hi : i < snapshotSize := by omega
    rw [snapshotLoop]
    by_cases hc : data.toList.getD i 0 = 0
    · -- the NUL of the text is copied, and the loop ends
      simp only [hc, if_true]
      refine ⟨i, ⟨hi, ?_, htext, ?_⟩, Or.inr hc, ?_⟩
      · intro j hj
        rw [CString.getD_setIfInBounds _ hi, if_neg (Nat.ne_of_lt hj), hsame j hj]
      · rw [CString.getD_setIfInBounds _ hi, if_pos rfl]
      · rw [CString.getD_setIfInBounds _ hi, if_neg (by omega), hlast]
    · -- one more character is the same, and none of them is the NUL
      simp only [hc, if_false]
      apply ih (i + 1) _ _ (by omega)
      · intro j hj
        rw [CString.getD_setIfInBounds _ hi]
        by_cases hji : j = i
        · rw [if_pos hji, hji]
        · rw [if_neg hji, hsame j (by omega)]
      · intro j hj
        by_cases hji : j = i
        · rw [hji]
          exact hc
        · exact htext j (by omega)
      · rw [CString.getD_setIfInBounds _ hi, if_neg (by omega), hlast]

/-- The first `k` characters are no NUL. -/
theorem Holds.nonzero {data : Vector UInt8 clipboardSize} {snapshot : Vector UInt8 snapshotSize}
    {k : Nat} (h : Holds data snapshot k) : ∀ c ∈ data.toList.take k, c ≠ 0 := by
  intro c hc
  rcases List.mem_take_iff_getElem.1 hc with ⟨i, hi, rfl⟩
  rw [← List.getD_eq_getElem _ 0]
  exact h.text i (by omega)

/-- What the snapshot holds is a string: the first characters of the text. -/
theorem Holds.scan_eq {data : Vector UInt8 clipboardSize} {snapshot : Vector UInt8 snapshotSize}
    {k : Nat} (h : Holds data snapshot k) :
    CString.scan snapshot.toList = some (data.toList.take k) := by
  have hlt := h.lt
  have hsize : snapshotSize ≤ clipboardSize := by decide
  have hlen : (data.toList.take k).length = k := by
    simp
    omega
  apply CString.scan_of_getD
  · simpa [hlen] using hlt
  · intro i hi
    rw [hlen] at hi
    rw [h.same i hi, List.getD_eq_getElem?_getD, List.getD_eq_getElem?_getD,
      List.getElem?_take_of_lt hi]
  · exact h.nonzero
  · rw [hlen]
    exact h.ended

end Daemon

/-- The text a reader finds is the string in the buffer. -/
theorem content_of_seen {s : ClipboardState} {data : Vector UInt8 clipboardSize} {text : List UInt8}
    (hpaste : clipboardPaste s = some data) (htext : seen s = some text) :
    CString.content data.toList = text := by
  rw [seen, hpaste, Option.bind_some, CString.scan_eq] at htext
  by_cases hmem : 0 ∈ data.toList
  · simpa [hmem] using htext
  · simp [hmem] at htext

/-- The snapshot is a string again after a round of the daemon, and where the clipboard shows
a text, it is the first 63 characters of it. -/
theorem clipboardDaemonService_reads (s : ClipboardState) (snapshot : Vector UInt8 snapshotSize)
    (hlast : snapshot.toList.getD (snapshotSize - 1) 0 = 0) :
    (clipboardDaemonService s snapshot).1.toList.getD (snapshotSize - 1) 0 = 0 ∧
      ∀ text, seen s = some text →
        CString.scan (clipboardDaemonService s snapshot).1.toList =
          some (text.take (snapshotSize - 1)) := by
  unfold clipboardDaemonService
  cases hpaste : clipboardPaste s with
  | none =>
    refine ⟨hlast, ?_⟩
    intro text htext
    rw [seen, hpaste] at htext
    cases htext
  | some data =>
    rcases snapshotLoop_holds data (snapshotSize - 1) 0 snapshot false (by omega)
      (fun j hj => absurd hj (Nat.not_lt_zero j)) (fun j hj => absurd hj (Nat.not_lt_zero j)) hlast
      with ⟨k, hholds, hend, hlast'⟩
    refine ⟨hlast', ?_⟩
    intro text htext
    have hlt := hholds.lt
    have hsize : snapshotSize ≤ clipboardSize := by decide
    have hcontent := content_of_seen hpaste htext
    rw [hholds.scan_eq, ← hcontent, ← CString.content_take]
    rcases hend with hfull | hnul
    · -- 63 characters without a NUL
      have hnot : 0 ∉ data.toList.take k := fun hmem => hholds.nonzero 0 hmem rfl
      rw [← hfull, CString.content_of_not_mem hnot]
    · -- the text ends before
      rw [seen, hpaste, Option.bind_some,
        CString.scan_eq_take (by simp; omega) hholds.text hnul, Option.some.injEq] at htext
      rw [CString.content_take, hcontent, ← htext, List.take_take, Nat.min_eq_right (by omega)]

/-- After a history that ends with an accepted copy, the C string at `clipboard_paste` is the text
copied, inside of the buffer, exactly when a NUL ends it in the buffer; and histories of which
this holds cannot be told apart once they end with the same copy. -/
theorem paste_shows_last_copy_iff (calls : List Call) (data : Nat → UInt8) (size : Nat)
    (hpos : 1 ≤ size) (hsize : size ≤ clipboardSize) :
    (seen (run (calls ++ [.copy (some data) size])) = some (CString.content (bytesOf data size)) ↔
        Terminated calls data size) ∧
      ∀ calls', Terminated calls data size → Terminated calls' data size →
        seen (run (calls ++ [.copy (some data) size])) =
          seen (run (calls' ++ [.copy (some data) size])) := by
  refine ⟨seen_eq_content_iff calls data hpos hsize, ?_⟩
  intro calls' hc hc'
  rw [(seen_eq_content_iff calls data hpos hsize).2 hc,
    (seen_eq_content_iff calls' data hpos hsize).2 hc']

/-- `hi`, without a NUL. -/
def hi : Nat → UInt8 := fun i => [104, 105].getD i 0

/-- `secret`, without a NUL. -/
def secret : Nat → UInt8 := fun i => [115, 101, 99, 114, 101, 116].getD i 0

/-- The first copy after boot is followed by the zeros of `.bss`. -/
theorem paste_shows_hi :
    seen (run ([] ++ [.copy (some hi) 2])) = some (CString.content (bytesOf hi 2)) :=
  (paste_shows_last_copy_iff [] hi 2 (by decide) (by decide)).1.2 (by decide)

/-- `secret` is copied and cleared, then `hi` is copied: the reader sees `hicret`, and can tell
this history from one without the secret. -/
theorem paste_shows_earlier_copy :
    seen (run ([.copy (some secret) 6, .clear] ++ [.copy (some hi) 2])) =
        some [104, 105, 99, 114, 101, 116] ∧
      CString.content (bytesOf hi 2) = [104, 105] ∧
      seen (run ([.copy (some secret) 6, .clear] ++ [.copy (some hi) 2])) ≠
        seen (run ([] ++ [.copy (some hi) 2])) := by
  decide +kernel

end CosKernel.Clipboard
