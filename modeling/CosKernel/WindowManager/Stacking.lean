import CosKernel.Lib.Run
import CosKernel.WindowManager.Model

/-!
# Stacking order and focus

`raise` and `lower` close the gap the window leaves in the stack, and keep the
order a permutation. `set_focus` puts a window on top and moves no other, so that
two windows share the top place unless it was there already.

The focus is kept twice. `set_focus` sets the flag of the new window and leaves
the old one set; `raise` moves only the index. Both agree with the flags exactly
when the window has the focus already.
-/

namespace CosKernel.WindowManager

open ArrayTable Run

/-! ## Stacking order -/

/-- The `z_order` values of the windows are a permutation of `0`, …, `window_count - 1`. -/
def Stacked (s : Manager) : Prop :=
  (entries (fun k => (s.windows k).zOrder) s.windowCount).Perm
    ((List.range s.windowCount).map Int.ofNat)

instance (s : Manager) : Decidable (Stacked s) := inferInstanceAs (Decidable (List.Perm _ _))

/-- The condition on a call: `set_focus` is for the window that is on top already,
or for none. -/
def FocusesTop (s : Manager) (c : Call) : Prop :=
  ∀ windowId, c = .setFocus windowId → ∀ i, findWindow windowId s = some i →
    (s.windows i).zOrder = s.windowCount - 1

theorem stacked_initial (s : Manager) : Stacked (windowManagerInitialize s) :=
  List.Perm.refl _

/-- A new window comes on top of the others. -/
theorem stacked_createWindow {s : Manager} (h : Stacked s) (x y width height : Int)
    (title : Option (List UInt8)) :
    Stacked (windowManagerCreateWindow x y width height title s) := by
  unfold windowManagerCreateWindow
  split
  · exact h
  · unfold Stacked at h ⊢
    have hentries : ∀ w : WindowT, entries (fun k =>
        (Function.update s.windows s.windowCount w k).zOrder) (s.windowCount + 1) =
        entries (fun k => (s.windows k).zOrder) s.windowCount ++ [w.zOrder] := by
      intro w
      rw [← entries_push]
      apply entries_congr
      intro k _
      exact Function.apply_update (fun _ => WindowT.zOrder) _ _ _ k
    show (entries (fun k => (Function.update s.windows s.windowCount _ k).zOrder) _).Perm _
    rw [hentries, List.range_succ, List.map_append]
    exact h.append_right _

theorem stacked_iff (s : Manager) :
    Stacked s ↔
      (∀ k < s.windowCount, 0 ≤ (s.windows k).zOrder ∧ (s.windows k).zOrder < s.windowCount) ∧
        ∀ j < s.windowCount, ∀ k < s.windowCount,
          (s.windows j).zOrder = (s.windows k).zOrder → j = k :=
  entries_perm_range_iff _ _

/-- An operation that moves the places of the stack one to one keeps the order. -/
theorem stacked_of_moves {s s' : Manager} (h : Stacked s) (f : Int → Int)
    (hcount : s'.windowCount = s.windowCount)
    (hf : ∀ z : Int, 0 ≤ z → z < s.windowCount → 0 ≤ f z ∧ f z < s.windowCount)
    (hinj : ∀ z z' : Int, f z = f z' → 0 ≤ z → z < s.windowCount → 0 ≤ z' →
      z' < s.windowCount → z = z')
    (hmoves : ∀ k < s.windowCount, (s'.windows k).zOrder = f (s.windows k).zOrder) :
    Stacked s' := by
  rw [stacked_iff] at h ⊢
  rw [hcount]
  rcases h with ⟨hrange, hunique⟩
  constructor
  · intro k hk
    rw [hmoves k hk]
    exact hf _ (hrange k hk).1 (hrange k hk).2
  · intro j hj k hk hjk
    rw [hmoves j hj, hmoves k hk] at hjk
    apply hunique j hj k hk
    exact hinj _ _ hjk (hrange j hj).1 (hrange j hj).2 (hrange k hk).1 (hrange k hk).2

theorem stacked_raiseWindow {s : Manager} (h : Stacked s) (windowId : Int) :
    Stacked (windowManagerRaiseWindow windowId s) := by
  cases hfind : findWindow windowId s with
  | none =>
    rwa [raiseWindow_absent hfind]
  | some i =>
    have hi := findWindow_some hfind
    rcases (stacked_iff s).mp h with ⟨hrange, hunique⟩
    have hzi := hrange i hi
    apply stacked_of_moves h (fun z =>
      if z = (s.windows i).zOrder then s.windowCount - 1
      else if z > (s.windows i).zOrder then z - 1 else z)
    · exact raiseWindow_windowCount windowId s
    · intro z hz hlt
      split_ifs <;> omega
    · intro z z' hzz'
      split_ifs at hzz' <;> omega
    · intro k hk
      have hki := hunique k hk i hi
      rw [raiseWindow_windows hfind]
      split_ifs <;> simp_all

theorem stacked_lowerWindow {s : Manager} (h : Stacked s) (windowId : Int) :
    Stacked (windowManagerLowerWindow windowId s) := by
  cases hfind : findWindow windowId s with
  | none =>
    rwa [lowerWindow_absent hfind]
  | some i =>
    have hi := findWindow_some hfind
    rcases (stacked_iff s).mp h with ⟨hrange, hunique⟩
    have hzi := hrange i hi
    apply stacked_of_moves h (fun z =>
      if z = (s.windows i).zOrder then 0
      else if z < (s.windows i).zOrder then z + 1 else z)
    · exact lowerWindow_windowCount windowId s
    · intro z hz hlt
      split_ifs <;> omega
    · intro z z' hzz'
      split_ifs at hzz' <;> omega
    · intro k hk
      have hki := hunique k hk i hi
      rw [lowerWindow_windows hfind]
      split_ifs <;> simp_all

/-- Some window is on top. -/
theorem Stacked.exists_top {s : Manager} (h : Stacked s) (hpos : 0 < s.windowCount) :
    ∃ k < s.windowCount, (s.windows k).zOrder = s.windowCount - 1 := by
  have hmem : ((s.windowCount - 1 : Nat) : Int) ∈ (List.range s.windowCount).map Int.ofNat :=
    List.mem_map.mpr ⟨_, List.mem_range.mpr (by omega), rfl⟩
  rcases List.mem_map.mp (h.mem_iff.mpr hmem) with ⟨k, hk, hz⟩
  refine ⟨k, List.mem_range.mp hk, ?_⟩
  rw [hz]
  omega

theorem stacked_setFocus_iff {s : Manager} (h : Stacked s) (windowId : Int) :
    Stacked (windowManagerSetFocus windowId s) ↔ FocusesTop s (.setFocus windowId) := by
  have htop : FocusesTop s (.setFocus windowId) ↔ ∀ i, findWindow windowId s = some i →
      (s.windows i).zOrder = s.windowCount - 1 := by
    simp [FocusesTop]
  rw [htop]
  cases hfind : findWindow windowId s with
  | none =>
    rw [setFocus_absent hfind]
    simpa using h
  | some i =>
    have hi := findWindow_some hfind
    have hwindows := setFocus_windows hfind
    constructor
    · intro hnext j hj
      cases hj
      -- the window that was on top and window `i` now have the same place
      rcases h.exists_top (by omega) with ⟨k, hk, hz⟩
      by_contra hne
      have hki : k ≠ i := by
        intro hki
        rw [hki] at hz
        exact hne hz
      have hunique := ((stacked_iff _).mp hnext).2
      rw [setFocus_windowCount] at hunique
      apply hki
      apply hunique k hk i hi
      rw [hwindows k, hwindows i, if_neg hki, if_pos rfl]
      exact hz
    · intro hz
      apply stacked_of_moves h id (setFocus_windowCount windowId s)
      · intro z h0 hlt
        exact ⟨h0, hlt⟩
      · intro z z' hzz' _ _ _ _
        exact hzz'
      · intro k _
        rw [hwindows k]
        split
        · rename_i hki
          rw [hki]
          exact (hz i rfl).symm
        · rfl

theorem stacked_step_iff (s : Manager) (c : Call) (h : Stacked s) :
    Stacked (step s c) ↔ FocusesTop s c := by
  have hother : (∀ windowId, c ≠ .setFocus windowId) → FocusesTop s c := by
    intro hne windowId hc
    exact absurd hc (hne windowId)
  cases c with
  | createWindow x y width height title =>
    exact iff_of_true (stacked_createWindow h x y width height title) (hother (by simp))
  | setFocus windowId => exact stacked_setFocus_iff h windowId
  | raiseWindow windowId => exact iff_of_true (stacked_raiseWindow h windowId) (hother (by simp))
  | lowerWindow windowId => exact iff_of_true (stacked_lowerWindow h windowId) (hother (by simp))

/-- In every history, the `z_order` values are a permutation throughout exactly
when every `set_focus` is for the window on top, or for none. -/
theorem z_order_permutation_iff (s : Manager) (calls : List Call) :
    Always step Stacked (windowManagerInitialize s) calls ↔
      Each step FocusesTop (windowManagerInitialize s) calls := by
  apply always_iff_each (D := fun _ _ => True)
  · intro s c h _
    exact stacked_step_iff s c h
  · exact stacked_initial s
  · apply each_of_invariant (fun _ => True)
    · intro _ _ _
      trivial
    · trivial

/-- The variables before the first call. -/
def manager : Manager where
  windows := fun _ => ⟨0, 0, 0, 0, 0, none, 0, false, false, false⟩
  windowCount := 0
  nextWindowId := 1
  focusedWindow := -1

/-- The two windows of `kernel_main`, and the focus on the first of them. -/
def consoleFocused : List Call :=
  [.createWindow 2 2 36 10 (some "System Console".toUTF8.data.toList),
    .createWindow 40 2 36 10 (some "Task Monitor".toUTF8.data.toList), .setFocus 1]

theorem set_focus_shares_top :
    ¬Always step Stacked (windowManagerInitialize manager) consoleFocused := by
  intro h
  have hlast := h.last
  revert hlast
  decide +kernel

/-! ## Focus -/

/-- The flags and the index agree, and so at most one window has a focused frame. -/
def FocusAgrees (s : Manager) : Prop :=
  (∀ k < s.windowCount, (s.windows k).focused = true ↔ (k : Int) = s.focusedWindow) ∧
    ∀ j < s.windowCount, ∀ k < s.windowCount,
      frameColor (s.windows j) = 0x1F → frameColor (s.windows k) = 0x1F → j = k

/-- The index names a window as soon as there is one. -/
def FocusInRange (s : Manager) : Prop :=
  s.windowCount = 0 ∧ s.focusedWindow = -1 ∨ 0 ≤ s.focusedWindow ∧ s.focusedWindow < s.windowCount

/-- The condition on a call: `set_focus` and `raise` are for the window that has
the focus already, or for none. -/
def FocusesFocused (s : Manager) (c : Call) : Prop :=
  ∀ windowId, c = .setFocus windowId ∨ c = .raiseWindow windowId →
    ∀ i, findWindow windowId s = some i → (i : Int) = s.focusedWindow

theorem frameColor_focused (w : WindowT) : frameColor w = 0x1F ↔ w.focused = true := by
  unfold frameColor
  cases w.focused with
  | false => decide
  | true => decide

theorem focusAgrees_iff (s : Manager) :
    FocusAgrees s ↔
      ∀ k < s.windowCount, (s.windows k).focused = true ↔ (k : Int) = s.focusedWindow := by
  constructor
  · intro h
    exact h.1
  · intro h
    refine ⟨h, ?_⟩
    intro j hj k hk hcolorj hcolork
    have hj' := (h j hj).mp ((frameColor_focused _).mp hcolorj)
    have hk' := (h k hk).mp ((frameColor_focused _).mp hcolork)
    omega

/-- `set_focus` and `raise`, as far as the focus is concerned: the index moves to
`i`, and the flags of the other windows stay. -/
theorem focusAgrees_moved_iff {s s' : Manager} {i : Nat} (h : FocusAgrees s)
    (hrange : FocusInRange s) (hi : i < s.windowCount) (hcount : s'.windowCount = s.windowCount)
    (hindex : s'.focusedWindow = i)
    (hflags : ∀ k, k ≠ i → (s'.windows k).focused = (s.windows k).focused)
    (hflag : (s.windows i).focused = true → (s'.windows i).focused = true) :
    FocusAgrees s' ↔ (i : Int) = s.focusedWindow := by
  rw [focusAgrees_iff] at h ⊢
  rw [hcount, hindex]
  constructor
  · intro hnext
    by_contra hne
    -- the window that had the focus keeps its flag
    have hold : 0 ≤ s.focusedWindow ∧ s.focusedWindow < s.windowCount := by
      rcases hrange with h0 | hrange
      · omega
      · exact hrange
    have hk : s.focusedWindow.toNat < s.windowCount := by omega
    have hki : s.focusedWindow.toNat ≠ i := by omega
    have hfocused := (h _ hk).mpr (by omega)
    rw [← hflags _ hki] at hfocused
    have hsame := (hnext _ hk).mp hfocused
    omega
  · intro hsame k hk
    by_cases hki : k = i
    · subst hki
      exact iff_of_true (hflag ((h k hk).mpr hsame)) rfl
    · rw [hflags k hki, h k hk, hsame]

theorem focusInRange_initial (s : Manager) : FocusInRange (windowManagerInitialize s) :=
  Or.inl ⟨rfl, rfl⟩

theorem focusAgrees_initial (s : Manager) : FocusAgrees (windowManagerInitialize s) := by
  rw [focusAgrees_iff]
  intro k hk
  exact absurd hk (Nat.not_lt_zero k)

theorem focusInRange_step (s : Manager) (c : Call) (h : FocusInRange s) :
    FocusInRange (step s c) := by
  have hfound : ∀ {s' : Manager} {i : Nat}, i < s.windowCount →
      s'.windowCount = s.windowCount → s'.focusedWindow = i → FocusInRange s' := by
    intro s' i hi hcount hindex
    right
    omega
  cases c with
  | createWindow x y width height title =>
    unfold step windowManagerCreateWindow
    dsimp only
    unfold FocusInRange at *
    split
    · exact h
    · dsimp only
      right
      split
      · omega
      · omega
  | setFocus windowId =>
    show FocusInRange (windowManagerSetFocus windowId s)
    cases hfind : findWindow windowId s with
    | none => rwa [setFocus_absent hfind]
    | some i =>
      exact hfound (findWindow_some hfind) (setFocus_windowCount windowId s)
        (setFocus_focusedWindow hfind)
  | raiseWindow windowId =>
    show FocusInRange (windowManagerRaiseWindow windowId s)
    cases hfind : findWindow windowId s with
    | none => rwa [raiseWindow_absent hfind]
    | some i =>
      exact hfound (findWindow_some hfind) (raiseWindow_windowCount windowId s)
        (raiseWindow_focusedWindow hfind)
  | lowerWindow windowId =>
    show FocusInRange (windowManagerLowerWindow windowId s)
    cases hfind : findWindow windowId s with
    | none => rwa [lowerWindow_absent hfind]
    | some i =>
      unfold FocusInRange at *
      rwa [lowerWindow_windowCount, lowerWindow_focusedWindow hfind]

/-- `create` gives the focus to the first window only. -/
theorem focusAgrees_createWindow {s : Manager} (h : FocusAgrees s) (hrange : FocusInRange s)
    (x y width height : Int) (title : Option (List UInt8)) :
    FocusAgrees (windowManagerCreateWindow x y width height title s) := by
  rw [focusAgrees_iff] at h ⊢
  unfold windowManagerCreateWindow
  split
  · exact h
  · intro k hk
    dsimp only at hk ⊢
    by_cases hlast : k = s.windowCount
    · subst hlast
      rw [Function.update_self]
      rcases hrange with ⟨h0, hnone⟩ | hsome
      · simp [hnone]
      · have hne : s.focusedWindow ≠ -1 := by omega
        simp only [beq_iff_eq, hne, if_false, false_iff]
        omega
    · rw [Function.update_of_ne hlast, h k (by omega)]
      rcases hrange with hnone | hsome
      · omega
      · rw [if_neg (by omega)]

theorem focusAgrees_lowerWindow {s : Manager} (h : FocusAgrees s) (windowId : Int) :
    FocusAgrees (windowManagerLowerWindow windowId s) := by
  cases hfind : findWindow windowId s with
  | none => rwa [lowerWindow_absent hfind]
  | some i =>
    rw [focusAgrees_iff] at h ⊢
    intro k hk
    rw [lowerWindow_windowCount] at hk
    rw [lowerWindow_focusedWindow hfind, lowerWindow_windows hfind, ← h k hk]
    split
    · rename_i hki
      rw [hki]
    · split
      · rfl
      · rfl

theorem focusesFocused_iff {s : Manager} {c : Call} {windowId : Int}
    (hc : c = .setFocus windowId ∨ c = .raiseWindow windowId) :
    FocusesFocused s c ↔ ∀ i, findWindow windowId s = some i → (i : Int) = s.focusedWindow := by
  constructor
  · intro h
    exact h windowId hc
  · intro h windowId' hc'
    have hsame : windowId' = windowId := by
      rcases hc with rfl | rfl
      · simpa [eq_comm] using hc'
      · simpa [eq_comm] using hc'
    rw [hsame]
    exact h

theorem focusAgrees_step_iff (s : Manager) (c : Call) (h : FocusAgrees s)
    (hrange : FocusInRange s) : FocusAgrees (step s c) ↔ FocusesFocused s c := by
  cases c with
  | createWindow x y width height title =>
    apply iff_of_true (focusAgrees_createWindow h hrange x y width height title)
    intro _ hc
    simp at hc
  | setFocus windowId =>
    rw [focusesFocused_iff (Or.inl rfl)]
    show FocusAgrees (windowManagerSetFocus windowId s) ↔ _
    cases hfind : findWindow windowId s with
    | none =>
      rw [setFocus_absent hfind]
      simpa using h
    | some i =>
      rw [focusAgrees_moved_iff h hrange (findWindow_some hfind)
        (setFocus_windowCount windowId s) (setFocus_focusedWindow hfind)]
      · simp
      · intro k hki
        rw [setFocus_windows hfind, if_neg hki]
      · intro _
        rw [setFocus_windows hfind, if_pos rfl]
  | raiseWindow windowId =>
    rw [focusesFocused_iff (Or.inr rfl)]
    show FocusAgrees (windowManagerRaiseWindow windowId s) ↔ _
    cases hfind : findWindow windowId s with
    | none =>
      rw [raiseWindow_absent hfind]
      simpa using h
    | some i =>
      rw [focusAgrees_moved_iff h hrange (findWindow_some hfind)
        (raiseWindow_windowCount windowId s) (raiseWindow_focusedWindow hfind)]
      · simp
      · intro k hki
        rw [raiseWindow_windows hfind, if_neg hki]
        split
        · rfl
        · rfl
      · intro hfocused
        rw [raiseWindow_windows hfind, if_pos rfl]
        exact hfocused
  | lowerWindow windowId =>
    apply iff_of_true (focusAgrees_lowerWindow h windowId)
    intro _ hc
    simp at hc

/-- In every history, the flags and the index of the focus agree throughout
exactly when every `set_focus` and every `raise` is for the window that has the
focus, or for none. -/
theorem focus_unique_iff (s : Manager) (calls : List Call) :
    Always step FocusAgrees (windowManagerInitialize s) calls ↔
      Each step FocusesFocused (windowManagerInitialize s) calls := by
  apply always_iff_each (D := fun s _ => FocusInRange s)
  · intro s c h hrange
    exact focusAgrees_step_iff s c h hrange
  · exact focusAgrees_initial s
  · exact each_of_invariant FocusInRange focusInRange_step (focusInRange_initial s) calls

/-- The same two windows, and the focus on the second: both are drawn as focused. -/
def monitorFocused : List Call :=
  [.createWindow 2 2 36 10 (some "System Console".toUTF8.data.toList),
    .createWindow 40 2 36 10 (some "Task Monitor".toUTF8.data.toList), .setFocus 2]

theorem set_focus_leaves_two_focused :
    ¬Always step FocusAgrees (windowManagerInitialize manager) monitorFocused := by
  intro h
  have hsame := h.last.2 0 (by decide +kernel) 1 (by decide +kernel) (by decide +kernel)
    (by decide +kernel)
  exact absurd hsame (by decide)

end CosKernel.WindowManager
