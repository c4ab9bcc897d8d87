import CosKernel.Lib.ArrayTable

/-!
# The window manager (`window_manager.c`)

Up to eight windows, each with its place in the stack (`z_order`, 0 at the
bottom) and a flag that says whether it has the focus. The focus is kept a second
time, as the index `focused_window` of a window, or -1.

No window is ever removed, so that the counters stay far below the range of an
`int`, and the shifts of `raise` and `lower` stay between 0 and `window_count`.
-/

namespace CosKernel.WindowManager

open ArrayTable (findFrom)

abbrev maxWindows : Nat := 8

/-! ## State -/

/-- `window_t`; a title is its characters, and `none` is `NULL`. -/
structure WindowT where
  id : Int
  x : Int
  y : Int
  width : Int
  height : Int
  title : Option (List UInt8)
  zOrder : Int
  active : Bool
  minimized : Bool
  focused : Bool
deriving DecidableEq

/-- The static variables. -/
structure Manager where
  windows : Nat → WindowT
  windowCount : Nat
  nextWindowId : Int
  focusedWindow : Int

/-- `window_manager_initialize`; it leaves the array as it is. -/
def windowManagerInitialize (s : Manager) : Manager :=
  { s with
    windowCount := 0
    nextWindowId := 1
    focusedWindow := -1 }

/-! ## Operations -/

/-- `window_manager_create_window` -/
def windowManagerCreateWindow (x y width height : Int) (title : Option (List UInt8))
    (s : Manager) : Manager :=
  if s.windowCount ≥ maxWindows then s
  else
    { windows := Function.update s.windows s.windowCount
        { id := s.nextWindowId
          x := x
          y := y
          width := width
          height := height
          title := title
          zOrder := s.windowCount
          active := true
          minimized := false
          focused := s.focusedWindow == -1 }
      windowCount := s.windowCount + 1
      nextWindowId := s.nextWindowId + 1
      focusedWindow := if s.focusedWindow = -1 then s.windowCount else s.focusedWindow }

/-- The search all three operations below begin with. -/
def findWindow (windowId : Int) (s : Manager) : Option Nat :=
  findFrom (fun w => w.id == windowId) s.windows 0 s.windowCount

/-- `windows[i].z_order = z;` -/
def setZOrder (windows : Nat → WindowT) (i : Nat) (z : Int) : Nat → WindowT :=
  Function.update windows i { windows i with zOrder := z }

/-- `window_manager_set_focus` -/
def windowManagerSetFocus (windowId : Int) (s : Manager) : Manager :=
  match findWindow windowId s with
  | none => s
  | some i =>
    { s with
      focusedWindow := i
      windows := setZOrder
        (Function.update s.windows i { s.windows i with focused := true }) i (s.windowCount - 1) }

/-- The inner loop of `raise` and `lower`: every window whose `z_order` compares
with that of window `i` moves by `d`. The `z_order` of window `i` is read again in
each turn. -/
def shiftLoop (moves : Int → Int → Bool) (d : Int) (i : Nat) :
    (Nat → WindowT) → Nat → Nat → Nat → WindowT
  | windows, _, 0 => windows
  | windows, j, turns + 1 =>
    shiftLoop moves d i
      (if moves (windows j).zOrder (windows i).zOrder then
        setZOrder windows j ((windows j).zOrder + d)
      else windows) (j + 1) turns

/-- `window_manager_raise_window` -/
def windowManagerRaiseWindow (windowId : Int) (s : Manager) : Manager :=
  match findWindow windowId s with
  | none => s
  | some i =>
    { s with
      windows := setZOrder (shiftLoop (fun zj zi => zj > zi) (-1) i s.windows 0 s.windowCount) i
        (s.windowCount - 1)
      focusedWindow := i }

/-- `window_manager_lower_window` -/
def windowManagerLowerWindow (windowId : Int) (s : Manager) : Manager :=
  match findWindow windowId s with
  | none => s
  | some i =>
    { s with
      windows := setZOrder (shiftLoop (fun zj zi => zj < zi) 1 i s.windows 0 s.windowCount) i 0 }

/-- The `frame_color` of `window_manager_render`. -/
def frameColor (w : WindowT) : UInt8 := if w.focused then 0x1F else 0x0F

/-! ## Histories -/

inductive Call where
  | createWindow (x y width height : Int) (title : Option (List UInt8))
  | setFocus (windowId : Int)
  | raiseWindow (windowId : Int)
  | lowerWindow (windowId : Int)
deriving DecidableEq

def step (s : Manager) : Call → Manager
  | .createWindow x y width height title => windowManagerCreateWindow x y width height title s
  | .setFocus windowId => windowManagerSetFocus windowId s
  | .raiseWindow windowId => windowManagerRaiseWindow windowId s
  | .lowerWindow windowId => windowManagerLowerWindow windowId s

/-! ## What the operations do to one window -/

theorem findWindow_some {windowId : Int} {s : Manager} {i : Nat}
    (h : findWindow windowId s = some i) : i < s.windowCount := by
  unfold findWindow at h
  rw [ArrayTable.findFrom_zero] at h
  have hlt := (List.findIdx?_eq_some_iff_getElem.mp h).1
  rwa [ArrayTable.length_entries] at hlt

/-- The loop reads the `z_order` of window `i` as it was at the start, as long as
no window moves past itself. -/
theorem shiftLoop_apply {moves : Int → Int → Bool} (hirrefl : ∀ z, moves z z = false) (d : Int)
    (i : Nat) (windows : Nat → WindowT) (j turns k : Nat) :
    shiftLoop moves d i windows j turns k =
      if (j ≤ k ∧ k < j + turns) ∧ moves (windows k).zOrder (windows i).zOrder = true then
        { windows k with zOrder := (windows k).zOrder + d }
      else windows k := by
  induction turns generalizing windows j with
  | zero =>
    rw [if_neg (by omega)]
    rfl
  | succ turns ih =>
    unfold shiftLoop
    rw [ih]
    by_cases hmoves : moves (windows j).zOrder (windows i).zOrder = true
    · have hij : i ≠ j := by
        intro hij
        rw [hij, hirrefl] at hmoves
        exact Bool.false_ne_true hmoves
      rw [if_pos hmoves]
      have hi : setZOrder windows j ((windows j).zOrder + d) i = windows i :=
        Function.update_of_ne hij _ _
      rw [hi]
      by_cases hkj : k = j
      · subst hkj
        rw [if_neg (by omega), if_pos ⟨by omega, hmoves⟩]
        exact Function.update_self _ _ _
      · have hk : setZOrder windows j ((windows j).zOrder + d) k = windows k :=
          Function.update_of_ne hkj _ _
        rw [hk]
        have hiff : (j + 1 ≤ k ∧ k < j + 1 + turns) ↔ (j ≤ k ∧ k < j + (turns + 1)) := by omega
        simp only [hiff]
    · rw [if_neg hmoves]
      by_cases hkj : k = j
      · subst hkj
        rw [if_neg (by omega), if_neg]
        intro h
        exact hmoves h.2
      · have hiff : (j + 1 ≤ k ∧ k < j + 1 + turns) ↔ (j ≤ k ∧ k < j + (turns + 1)) := by omega
        simp only [hiff]

/-- Window `i` goes to its new place, and the windows that compare with it move by `d`. -/
theorem setZOrder_shiftLoop {moves : Int → Int → Bool} (hirrefl : ∀ z, moves z z = false)
    (d z : Int) (i : Nat) (windows : Nat → WindowT) (n k : Nat) :
    setZOrder (shiftLoop moves d i windows 0 n) i z k =
      if k = i then { windows i with zOrder := z }
      else if k < n ∧ moves (windows k).zOrder (windows i).zOrder = true then
        { windows k with zOrder := (windows k).zOrder + d }
      else windows k := by
  have hloop := shiftLoop_apply hirrefl d i windows 0 n
  unfold setZOrder
  by_cases hki : k = i
  · subst hki
    have hk : shiftLoop moves d k windows 0 n k = windows k := by
      rw [hloop, if_neg]
      intro h
      rw [hirrefl] at h
      exact Bool.false_ne_true h.2
    rw [if_pos rfl, Function.update_self, hk]
  · rw [if_neg hki, Function.update_of_ne hki, hloop]
    simp only [Nat.zero_le, true_and, Nat.zero_add]

@[simp] theorem setFocus_windowCount (windowId : Int) (s : Manager) :
    (windowManagerSetFocus windowId s).windowCount = s.windowCount := by
  unfold windowManagerSetFocus
  cases findWindow windowId s with
  | none => rfl
  | some i => rfl

theorem setFocus_absent {windowId : Int} {s : Manager} (h : findWindow windowId s = none) :
    windowManagerSetFocus windowId s = s := by
  unfold windowManagerSetFocus
  rw [h]

theorem setFocus_focusedWindow {windowId : Int} {s : Manager} {i : Nat}
    (h : findWindow windowId s = some i) :
    (windowManagerSetFocus windowId s).focusedWindow = i := by
  unfold windowManagerSetFocus
  rw [h]

theorem setFocus_windows {windowId : Int} {s : Manager} {i : Nat}
    (h : findWindow windowId s = some i) (k : Nat) :
    (windowManagerSetFocus windowId s).windows k =
      if k = i then { s.windows i with focused := true, zOrder := s.windowCount - 1 }
      else s.windows k := by
  unfold windowManagerSetFocus
  simp only [h, setZOrder]
  by_cases hki : k = i
  · subst hki
    simp
  · rw [if_neg hki, Function.update_of_ne hki, Function.update_of_ne hki]

@[simp] theorem raiseWindow_windowCount (windowId : Int) (s : Manager) :
    (windowManagerRaiseWindow windowId s).windowCount = s.windowCount := by
  unfold windowManagerRaiseWindow
  cases findWindow windowId s with
  | none => rfl
  | some i => rfl

theorem raiseWindow_absent {windowId : Int} {s : Manager} (h : findWindow windowId s = none) :
    windowManagerRaiseWindow windowId s = s := by
  unfold windowManagerRaiseWindow
  rw [h]

theorem raiseWindow_focusedWindow {windowId : Int} {s : Manager} {i : Nat}
    (h : findWindow windowId s = some i) :
    (windowManagerRaiseWindow windowId s).focusedWindow = i := by
  unfold windowManagerRaiseWindow
  rw [h]

theorem raiseWindow_windows {windowId : Int} {s : Manager} {i : Nat}
    (h : findWindow windowId s = some i) (k : Nat) :
    (windowManagerRaiseWindow windowId s).windows k =
      if k = i then { s.windows i with zOrder := s.windowCount - 1 }
      else if k < s.windowCount ∧ (s.windows k).zOrder > (s.windows i).zOrder then
        { s.windows k with zOrder := (s.windows k).zOrder - 1 }
      else s.windows k := by
  unfold windowManagerRaiseWindow
  simp only [h]
  rw [setZOrder_shiftLoop (by simp)]
  simp only [decide_eq_true_eq, Int.sub_eq_add_neg]

@[simp] theorem lowerWindow_windowCount (windowId : Int) (s : Manager) :
    (windowManagerLowerWindow windowId s).windowCount = s.windowCount := by
  unfold windowManagerLowerWindow
  cases findWindow windowId s with
  | none => rfl
  | some i => rfl

theorem lowerWindow_absent {windowId : Int} {s : Manager} (h : findWindow windowId s = none) :
    windowManagerLowerWindow windowId s = s := by
  unfold windowManagerLowerWindow
  rw [h]

theorem lowerWindow_focusedWindow {windowId : Int} {s : Manager} {i : Nat}
    (h : findWindow windowId s = some i) :
    (windowManagerLowerWindow windowId s).focusedWindow = s.focusedWindow := by
  unfold windowManagerLowerWindow
  rw [h]

theorem lowerWindow_windows {windowId : Int} {s : Manager} {i : Nat}
    (h : findWindow windowId s = some i) (k : Nat) :
    (windowManagerLowerWindow windowId s).windows k =
      if k = i then { s.windows i with zOrder := 0 }
      else if k < s.windowCount ∧ (s.windows k).zOrder < (s.windows i).zOrder then
        { s.windows k with zOrder := (s.windows k).zOrder + 1 }
      else s.windows k := by
  unfold windowManagerLowerWindow
  simp only [h]
  rw [setZOrder_shiftLoop (by simp)]
  simp only [decide_eq_true_eq]

end CosKernel.WindowManager
