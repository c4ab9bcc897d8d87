import CosKernel.Clipboard.LastCopy

/-!
# When the daemon reports a change

A round of the daemon compares the snapshot with the text and overwrites it in
the same pass, up to the NUL of the text. Bytes of a longer text stay behind that
NUL. They are never reported: the pass ends at the NUL of the new text, where the
old one has its own NUL if the texts agree so far (`snapshotLoop_changed`).
-/

namespace CosKernel.Clipboard

/-- What the snapshot says: the string in it. -/
def shown (snapshot : Vector UInt8 snapshotSize) : List UInt8 := CString.content snapshot.toList

/-- `clipboard_snapshot` before the first round. -/
def zeroSnapshot : Vector UInt8 snapshotSize := Vector.replicate snapshotSize 0

/-- The snapshot after the daemon's rounds over these clipboards. -/
def snapshotAfter (states : List ClipboardState) : Vector UInt8 snapshotSize :=
  states.foldl (fun snapshot s => (clipboardDaemonService s snapshot).1) zeroSnapshot

/-- The last text the rounds have seen, at first the empty one. -/
def lastSeen (states : List ClipboardState) : List UInt8 := ((states.filterMap seen).getLast?).getD []

/-! ## One round -/

section Round

variable (data : Vector UInt8 clipboardSize)

/-- What the loop finds out: whether the rest of the snapshot and the rest of the text, as far as it
is read, are different strings. -/
theorem snapshotLoop_changed (left i : Nat) (snapshot : Vector UInt8 snapshotSize) (changed : Bool)
    (hleft : i + left = snapshotSize - 1) (hlast : snapshot.toList.getD (snapshotSize - 1) 0 = 0) :
    (snapshotLoop data left i snapshot changed).2 = true ↔
      changed = true ∨ CString.content (snapshot.toList.drop i) ≠
        CString.content ((data.toList.drop i).take left) := by
  have hsize : snapshotSize = 64 := rfl
  have hsize' : clipboardSize = 512 := rfl
  induction left generalizing i snapshot changed with
  | zero =>
    -- the last byte of the snapshot is its NUL
    have hi : i < snapshot.toList.length := by
      rw [Vector.length_toList]
      omega
    have hi' : i = snapshotSize - 1 := by omega
    have hzero : snapshot.toList[i] = 0 := by
      rw [← List.getD_eq_getElem _ 0 hi, hi']
      exact hlast
    rw [snapshotLoop, List.drop_eq_getElem_cons hi, hzero]
    simp
  | succ left ih =>
    have hi : i < snapshotSize := by omega
    have hsnap : i < snapshot.toList.length := by
      rw [Vector.length_toList]
      exact hi
    have hdata : i < data.toList.length := by
      rw [Vector.length_toList]
      omega
    rw [snapshotLoop, List.drop_eq_getElem_cons hsnap, List.drop_eq_getElem_cons hdata, List.take_succ_cons,
      List.getD_eq_getElem _ _ hsnap, List.getD_eq_getElem _ _ hdata]
    generalize snapshot.toList[i] = x, data.toList[i] = c
    by_cases hc : c = 0
    · -- the text ends here, and so must the snapshot
      simp only [hc, if_true, CString.content_cons_zero]
      by_cases hx : x = 0
      · simp [hx]
      · rw [CString.content_cons hx]
        simp [hx]
    · simp only [hc, if_false]
      have hlast' : (snapshot.setIfInBounds i c).toList.getD (snapshotSize - 1) 0 = 0 := by
        rw [CString.getD_setIfInBounds _ hi, if_neg (by omega), hlast]
      -- behind this byte the snapshot has not been written yet
      have hdrop : (snapshot.setIfInBounds i c).toList.drop (i + 1) = snapshot.toList.drop (i + 1) := by
        rw [Vector.toList_setIfInBounds, List.drop_set_of_lt (Nat.lt_succ_self i)]
      have hrest := ih (i + 1) (snapshot.setIfInBounds i c) (changed || x != c) (by omega) hlast'
      rw [hdrop] at hrest
      refine hrest.trans ?_
      rw [CString.content_cons hc]
      by_cases hx : x = 0
      · simp [hx, Ne.symm hc]
      · rw [CString.content_cons hx]
        simp only [Bool.or_eq_true, bne_iff_ne, ne_eq, List.cons.injEq, not_and_or, or_assoc]

end Round

/-- What a round over a text leaves in the snapshot, and when it reports a change. -/
theorem clipboardDaemonService_round {s : ClipboardState} {snapshot : Vector UInt8 snapshotSize}
    {text : List UInt8} (htext : seen s = some text)
    (hlast : snapshot.toList.getD (snapshotSize - 1) 0 = 0) :
    CString.scan (clipboardDaemonService s snapshot).1.toList = some (text.take (snapshotSize - 1)) ∧
      ((clipboardDaemonService s snapshot).2 = true ↔ text.take (snapshotSize - 1) ≠ shown snapshot) := by
  refine ⟨(clipboardDaemonService_reads s snapshot hlast).2 text htext, ?_⟩
  rcases hpaste : clipboardPaste s with _ | data
  · rw [seen, hpaste] at htext
    cases htext
  have hchanged := snapshotLoop_changed data (snapshotSize - 1) 0 snapshot false (by omega) hlast
  rw [List.drop_zero, List.drop_zero, CString.content_take, content_of_seen hpaste htext] at hchanged
  unfold clipboardDaemonService
  rw [hpaste]
  simp only
  rw [hchanged]
  unfold shown
  simp only [Bool.false_eq_true, false_or]
  exact ne_comm

/-! ## Rounds one after the other -/

/-- The rounds find no text, or one that ends in the clipboard. -/
def Readable (s : ClipboardState) : Prop := clipboardPaste s = none ∨ ∃ text, seen s = some text

/-- What the rounds keep: the snapshot ends, and shows the beginning of the last text seen. -/
structure Follows (states : List ClipboardState) (snapshot : Vector UInt8 snapshotSize) : Prop where
  last : snapshot.toList.getD (snapshotSize - 1) 0 = 0
  shows : shown snapshot = (lastSeen states).take (snapshotSize - 1)

theorem lastSeen_append {states : List ClipboardState} {s : ClipboardState} {text : List UInt8}
    (htext : seen s = some text) : lastSeen (states ++ [s]) = text := by
  unfold lastSeen
  rw [List.filterMap_append, List.filterMap_cons, htext]
  simp

theorem lastSeen_append_none {states : List ClipboardState} {s : ClipboardState}
    (hpaste : clipboardPaste s = none) : lastSeen (states ++ [s]) = lastSeen states := by
  have hseen : seen s = none := by
    rw [seen, hpaste]
    rfl
  unfold lastSeen
  rw [List.filterMap_append, List.filterMap_cons, hseen]
  simp

theorem follows_snapshotAfter {states : List ClipboardState} (hread : ∀ s ∈ states, Readable s) :
    Follows states (snapshotAfter states) := by
  induction states using List.reverseRecOn with
  | nil => exact ⟨by decide, by decide⟩
  | append_singleton states s ih =>
    have hprev := ih fun t ht => hread t (List.mem_append_left [s] ht)
    have hafter : snapshotAfter (states ++ [s]) = (clipboardDaemonService s (snapshotAfter states)).1 := by
      unfold snapshotAfter
      rw [List.foldl_append]
      rfl
    rw [hafter]
    refine ⟨(clipboardDaemonService_reads s _ hprev.last).1, ?_⟩
    rcases hread s (List.mem_append_right states List.mem_cons_self) with hnone | ⟨text, htext⟩
    · -- nothing to read, nothing done
      rw [lastSeen_append_none hnone, ← hprev.shows]
      unfold clipboardDaemonService
      rw [hnone]
    · have hscan := (clipboardDaemonService_round htext hprev.last).1
      rw [lastSeen_append htext]
      rw [CString.scan_eq] at hscan
      split at hscan
      · exact Option.some.inj hscan
      · cases hscan

/-- In every round that finds a text, whatever texts the rounds before it found, the snapshot becomes
the first 63 characters, and a change is reported if and only if these differ from those of the text
found last. -/
theorem clipboard_changes_reported (states : List ClipboardState) (s : ClipboardState) (text : List UInt8)
    (hread : ∀ t ∈ states, Readable t) (htext : seen s = some text) :
    CString.scan (clipboardDaemonService s (snapshotAfter states)).1.toList = some (text.take 63) ∧
      ((clipboardDaemonService s (snapshotAfter states)).2 = true ↔
        text.take 63 ≠ (lastSeen states).take 63) := by
  have hprev := follows_snapshotAfter hread
  rcases clipboardDaemonService_round htext hprev.last with ⟨hscan, hchanged⟩
  rw [hprev.shows] at hchanged
  exact ⟨hscan, hchanged⟩

/-- `secret`, then `hi` with the NUL behind it: the bytes of `secret` behind the NUL are not seen. -/
theorem clipboard_changes_reported_hi :
    CString.scan (clipboardDaemonService (run [.copy (some hi) 3])
        (snapshotAfter [run [.copy (some secret) 7], run [.copy (some hi) 3]])).1.toList = some [104, 105] ∧
      (clipboardDaemonService (run [.copy (some hi) 3])
        (snapshotAfter [run [.copy (some secret) 7], run [.copy (some hi) 3]])).2 = false := by
  have hhi : seen (run [.copy (some hi) 3]) = some [104, 105] := by decide +kernel
  have hsecret : seen (run [.copy (some secret) 7]) = some [115, 101, 99, 114, 101, 116] := by decide +kernel
  have hread : ∀ t ∈ [run [.copy (some secret) 7], run [.copy (some hi) 3]], Readable t := by
    intro t ht
    rcases List.mem_pair.1 ht with rfl | rfl
    · exact Or.inr ⟨_, hsecret⟩
    · exact Or.inr ⟨_, hhi⟩
  have hround := clipboard_changes_reported _ _ _ hread hhi
  have hlast : lastSeen [run [.copy (some secret) 7], run [.copy (some hi) 3]] = [104, 105] :=
    @lastSeen_append [run [.copy (some secret) 7]] _ _ hhi
  rw [hlast] at hround
  refine ⟨hround.1, ?_⟩
  rw [← Bool.not_eq_true, hround.2]
  simp

end CosKernel.Clipboard
