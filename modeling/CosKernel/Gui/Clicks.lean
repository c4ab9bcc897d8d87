import CosKernel.Gui.Render

/-!
# Clicks and labels

The rectangles of the clicks against the labels that are drawn. A left click does what the topmost
label of the status bar, the icons and the taskbar says, for every resolution; but it reaches through
everything that is drawn over these labels: the panel of the taskbar, the windows and the three panels.
-/

namespace CosKernel.Gui

open Layers Notifications Picture Vga

/-! ## The part that is seen -/

def seenPart (items : Items) (q : Int × Int) : Option Part := (seen items q).map Prod.fst

/-- What the topmost part at a place is for. -/
def seenAction (items : Items) (q : Int × Int) : Option Action := (seenPart items q).bind Part.action

theorem seenPart_append (items items' : Items) (q : Int × Int) :
    seenPart (items ++ items') q = (seenPart items' q).or (seenPart items q) := by
  unfold seenPart
  rw [seen_append]
  cases seen items' q with
  | none => rfl
  | some s => rfl

theorem seenPart_item (part : Part) (content : Contents) (q : Int × Int) :
    seenPart (item part content) q = if (content q).isSome then some part else none := by
  unfold seenPart item
  rw [seen, seen_nil, Option.none_or]
  dsimp only
  cases content q with
  | none => rfl
  | some v => rfl

/-- The parts on top are looked at first. -/
theorem seenAction_append (items items' : Items) (q : Int × Int) :
    seenAction (items ++ items') q = (seenPart items' q).elim (seenAction items q) Part.action := by
  unfold seenAction
  rw [seenPart_append]
  cases seenPart items' q with
  | none => rfl
  | some part => rfl

/-- The place is one of the `n` characters of a label. -/
def InLabel (x y labelX labelY n : Int) : Prop := y = labelY ∧ labelX ≤ x ∧ x < labelX + n

instance (x y labelX labelY n : Int) : Decidable (InLabel x y labelX labelY n) := inferInstanceAs (Decidable (_ ∧ _))

theorem seenPart_label (part : Part) {limit labelX labelY n : Int} {color : UInt8} {text : List UInt8}
    (htext : 0 ∉ text) (hn : text.length = n) {x y : Int} (hlimit : x < limit) :
    seenPart (item part (line limit labelY color text labelX)) (x, y) =
      if InLabel x y labelX labelY n then some part else none := by
  rw [seenPart_item]
  congr 1
  rw [eq_iff_iff, line, CString.content_of_not_mem htext, InLabel]
  by_cases hrow : y = labelY ∧ labelX ≤ x ∧ x < limit
  · rw [if_pos hrow, Option.isSome_map, isSome_getElem?]
    show (x - labelX).toNat < text.length ↔ _
    omega
  · rw [if_neg hrow]
    refine iff_of_false (by simp) ?_
    omega

theorem ite_or {α : Type} {c : Prop} [Decidable c] (a : α) (o : Option α) :
    (if c then some a else none).or o = if c then some a else o := by
  split <;> rfl

theorem elim_ite {α β : Type} {c : Prop} [Decidable c] (o o' : Option α) (b : β) (f : α → β) :
    (if c then o else o').elim b f = if c then o.elim b f else o'.elim b f := by
  split <;> rfl

/-! ## The labels -/

section Labels

variable (r : Resolution) {x y : Int}

theorem seenAction_statusBar (hx : x < r.screenWidth) :
    seenAction (statusBarItems r) (x, y) =
      if InLabel x y (r.screenWidth - 10) 0 3 then some .controlCenterToggle
      else if InLabel x y (r.screenWidth - 18) 0 3 then some .notificationCenterToggle
      else none := by
  have hplain : (seenPart (item .background (block 0 0 (min (0 + r.screenWidth) r.screenWidth)
      (min (0 + 1) r.screenHeight) ' '.toUInt8 guiStatusColor)) (x, y)).bind Part.action = none := by
    rw [seenPart_item]
    split <;> rfl
  unfold seenAction statusBarItems
  rw [seenPart_append, seenPart_append, seenPart_append, seenPart_append,
    seenPart_label _ (by decide) (show (chars "[C]").length = (3 : Int) by decide) hx,
    seenPart_label _ (by decide) (show (chars "[N]").length = (3 : Int) by decide) hx,
    seenPart_label _ (by decide) (show (chars ".C OS").length = (5 : Int) by decide) hx,
    seenPart_label _ (by decide) (show (chars "Online | WiFi | 89% Battery").length = (27 : Int) by decide) hx]
  simp only [ite_or]
  split_ifs
  · rfl
  · rfl
  · rfl
  · rfl
  · exact hplain

theorem seenPart_icons (hx : x < r.screenWidth) :
    seenPart (iconItems r) (x, y) =
      if InLabel x y 14 4 7 then some .text
      else if InLabel x y 14 2 7 then some .text
      else if InLabel x y 2 6 7 then some (.button (.appLaunch "Settings"))
      else if InLabel x y 2 4 7 then some (.button (.appLaunch "Terminal"))
      else if InLabel x y 2 2 7 then some (.button (.appLaunch "Files"))
      else none := by
  unfold iconItems
  rw [seenPart_append, seenPart_append, seenPart_append, seenPart_append,
    seenPart_label _ (by decide) (show (chars "[Files]").length = (7 : Int) by decide) hx,
    seenPart_label _ (by decide) (show (chars "[Term ]").length = (7 : Int) by decide) hx,
    seenPart_label _ (by decide) (show (chars "[Sets ]").length = (7 : Int) by decide) hx,
    seenPart_label _ (by decide) (show (chars "[Web  ]").length = (7 : Int) by decide) hx,
    seenPart_label _ (by decide) (show (chars "[Edit ]").length = (7 : Int) by decide) hx]
  simp only [ite_or]

theorem seenPart_taskbar (hx : x < r.screenWidth) :
    seenPart (taskbarButtons r) (x, y) =
      if InLabel x y (r.screenWidth - 10) (taskbarY r + 1) 6 then some (.button .controlCenterToggle)
      else if InLabel x y (r.screenWidth - 18) (taskbarY r + 1) 7 then some (.button .notificationCenterToggle)
      else if InLabel x y 34 (taskbarY r + 1) 6 then some (.button (.appLaunch "Edit"))
      else if InLabel x y 33 (taskbarY r + 1) 1 then some .text
      else if InLabel x y 28 (taskbarY r + 1) 5 then some (.button (.appLaunch "Web"))
      else if InLabel x y 27 (taskbarY r + 1) 1 then some .text
      else if InLabel x y 21 (taskbarY r + 1) 6 then some (.button (.appLaunch "Settings"))
      else if InLabel x y 20 (taskbarY r + 1) 1 then some .text
      else if InLabel x y 14 (taskbarY r + 1) 6 then some (.button (.appLaunch "Terminal"))
      else if InLabel x y 13 (taskbarY r + 1) 1 then some .text
      else if InLabel x y 6 (taskbarY r + 1) 7 then some (.button (.appLaunch "Files"))
      else none := by
  unfold taskbarButtons taskbarLabels
  dsimp only
  rw [seenPart_append, seenPart_append, seenPart_append, seenPart_append, seenPart_append, seenPart_append,
    seenPart_append, seenPart_append, seenPart_append, seenPart_append,
    seenPart_label _ (by decide) (show (chars "[CTRL]").length = (6 : Int) by decide) hx,
    seenPart_label _ (by decide) (show (chars "[NOTIF]").length = (7 : Int) by decide) hx,
    seenPart_label _ (by decide) (show (chars "[Files]").length = (7 : Int) by decide) hx,
    seenPart_label _ (by decide) (show (chars "[Term]").length = (6 : Int) by decide) hx,
    seenPart_label _ (by decide) (show (chars "[Sets]").length = (6 : Int) by decide) hx,
    seenPart_label _ (by decide) (show (chars "[Web]").length = (5 : Int) by decide) hx,
    seenPart_label _ (by decide) (show (chars "[Edit]").length = (6 : Int) by decide) hx]
  have hblank : ∀ labelX, seenPart (item .text (line r.screenWidth (taskbarY r + 1) guiPanelText (chars " ")
      labelX)) (x, y) = if InLabel x y labelX (taskbarY r + 1) 1 then some .text else none :=
    fun _ => seenPart_label _ (by decide) (show (chars " ").length = (1 : Int) by decide) hx
  rw [hblank, hblank, hblank, hblank]
  simp only [ite_or]

/-- The action of the icons, and of the status bar where no icon is. -/
theorem seenAction_icons (hx : x < r.screenWidth) :
    seenAction (statusBarItems r ++ iconItems r) (x, y) =
      if InLabel x y (r.screenWidth - 18) 0 3 then some .notificationCenterToggle
      else if InLabel x y (r.screenWidth - 10) 0 3 then some .controlCenterToggle
      else if InLabel x y 2 2 7 then some (.appLaunch "Files")
      else if InLabel x y 2 4 7 then some (.appLaunch "Terminal")
      else if InLabel x y 2 6 7 then some (.appLaunch "Settings")
      else none := by
  rw [seenAction_append, seenPart_icons r hx, seenAction_statusBar r hx]
  simp only [elim_ite]
  by_cases htop : y = 0
  · -- no icon is in this row
    have hicon : ∀ labelX n, ¬InLabel x y labelX 2 n ∧ ¬InLabel x y labelX 4 n ∧ ¬InLabel x y labelX 6 n := by
      intro labelX n
      simp [InLabel, htop]
    simp only [hicon, if_false]
    show (if InLabel x y (r.screenWidth - 10) 0 3 then _ else _) = _
    by_cases hctrl : InLabel x y (r.screenWidth - 10) 0 3
    · have hnotif : ¬InLabel x y (r.screenWidth - 18) 0 3 := by
        unfold InLabel at hctrl ⊢
        omega
      rw [if_pos hctrl, if_neg hnotif, if_pos hctrl]
    · rw [if_neg hctrl, if_neg hctrl]
  · have hstatus : ∀ labelX n, ¬InLabel x y labelX 0 n := fun _ _ h => htop h.1
    simp only [hstatus, if_false]
    split_ifs with hedit hweb hsets hfiles hterm <;> first | rfl | (exfalso; simp only [InLabel] at *; omega)

end Labels

/-! ## The left button -/

theorem pointInRect_iff (x y rx ry rw : Int) : pointInRect x y rx ry rw 1 = true ↔ InLabel x y rx ry rw := by
  simp only [pointInRect, InLabel, decide_eq_true_eq]
  omega

/-- Labels in one row that have no column in common. -/
theorem InLabel.disjoint {x y labelX labelY n : Int} (h : InLabel x y labelX labelY n) (labelX' n' : Int)
    (hdisjoint : labelX + n ≤ labelX' ∨ labelX' + n' ≤ labelX) : ¬InLabel x y labelX' labelY n' := by
  unfold InLabel at h ⊢
  omega

/-- The labels, without anything that is drawn over them. -/
def labelItems (r : Resolution) : Items := statusBarItems r ++ iconItems r ++ taskbarButtons r

/-- Outside of the taskbar's row only the icons and the status bar are looked up. -/
theorem leftClickAction_off_row (r : Resolution) {x y : Int} (hrow : y ≠ taskbarY r + 1) :
    leftClickAction r x y =
      if InLabel x y (r.screenWidth - 18) 0 3 then some .notificationCenterToggle
      else if InLabel x y (r.screenWidth - 10) 0 3 then some .controlCenterToggle
      else if InLabel x y 2 2 7 then some (.appLaunch "Files")
      else if InLabel x y 2 4 7 then some (.appLaunch "Terminal")
      else if InLabel x y 2 6 7 then some (.appLaunch "Settings")
      else none := by
  have htaskbar : r.screenHeight - 6 = taskbarY r := by
    unfold taskbarY taskbarHeight
    omega
  have hbar : ∀ labelX n, ¬InLabel x y labelX (taskbarY r + 1) n := fun _ _ h => hrow h.1
  unfold leftClickAction
  simp only [pointInRect_iff, htaskbar, hbar, if_false]

theorem leftClickAction_in_row (r : Resolution) {x y : Int} (hrow : y = taskbarY r + 1) :
    leftClickAction r x y =
      if InLabel x y (r.screenWidth - 18) (taskbarY r + 1) 7 then some .notificationCenterToggle
      else if InLabel x y (r.screenWidth - 10) (taskbarY r + 1) 6 then some .controlCenterToggle
      else if InLabel x y 6 (taskbarY r + 1) 7 then some (.appLaunch "Files")
      else if InLabel x y 14 (taskbarY r + 1) 6 then some (.appLaunch "Terminal")
      else if InLabel x y 21 (taskbarY r + 1) 6 then some (.appLaunch "Settings")
      else if InLabel x y 28 (taskbarY r + 1) 5 then some (.appLaunch "Web")
      else if InLabel x y 34 (taskbarY r + 1) 6 then some (.appLaunch "Edit")
      else if InLabel x y 2 2 7 then some (.appLaunch "Files")
      else if InLabel x y 2 4 7 then some (.appLaunch "Terminal")
      else if InLabel x y 2 6 7 then some (.appLaunch "Settings")
      else none := by
  have htaskbar : r.screenHeight - 6 = taskbarY r := by
    unfold taskbarY taskbarHeight
    omega
  unfold leftClickAction
  simp only [pointInRect_iff, htaskbar]
  -- a button of the status bar would be a part of the same button of the taskbar
  by_cases hnotif : InLabel x y (r.screenWidth - 18) (taskbarY r + 1) 7
  · have hctrl : ¬InLabel x y (r.screenWidth - 10) 0 3 := by
      unfold InLabel at hnotif ⊢
      omega
    rw [if_pos hnotif, if_neg hctrl, ite_self]
  · have hstatus : ¬InLabel x y (r.screenWidth - 18) 0 3 := by
      unfold InLabel at hnotif ⊢
      omega
    rw [if_neg hnotif, if_neg hstatus]
    by_cases hctrl : InLabel x y (r.screenWidth - 10) (taskbarY r + 1) 6
    · rw [if_pos hctrl, ite_self]
    · have hcontrol : ¬InLabel x y (r.screenWidth - 10) 0 3 := by
        unfold InLabel at hctrl ⊢
        omega
      rw [if_neg hctrl, if_neg hcontrol]

/-- The branch that `gui_handle_left_click` takes is the topmost label. -/
theorem leftClickAction_eq (r : Resolution) {x : Int} (y : Int) (hx : x < r.screenWidth) :
    leftClickAction r x y = seenAction (labelItems r) (x, y) := by
  unfold labelItems
  rw [seenAction_append, seenAction_icons r hx, seenPart_taskbar r hx]
  by_cases hrow : y = taskbarY r + 1
  · rw [leftClickAction_in_row r hrow]
    simp only [elim_ite]
    by_cases hnotif : InLabel x y (r.screenWidth - 18) (taskbarY r + 1) 7
    · rw [if_pos hnotif, if_pos hnotif, if_neg (hnotif.disjoint (r.screenWidth - 10) 6 (by omega))]
      rfl
    rw [if_neg hnotif, if_neg hnotif]
    by_cases hctrl : InLabel x y (r.screenWidth - 10) (taskbarY r + 1) 6
    · rw [if_pos hctrl, if_pos hctrl]
      rfl
    rw [if_neg hctrl, if_neg hctrl]
    by_cases hfiles : InLabel x y 6 (taskbarY r + 1) 7
    · rw [if_pos hfiles, if_neg (hfiles.disjoint 34 6 (by omega)), if_neg (hfiles.disjoint 33 1 (by omega)),
        if_neg (hfiles.disjoint 28 5 (by omega)), if_neg (hfiles.disjoint 27 1 (by omega)),
        if_neg (hfiles.disjoint 21 6 (by omega)), if_neg (hfiles.disjoint 20 1 (by omega)),
        if_neg (hfiles.disjoint 14 6 (by omega)), if_neg (hfiles.disjoint 13 1 (by omega)), if_pos hfiles]
      rfl
    rw [if_neg hfiles, if_neg hfiles]
    by_cases hterm : InLabel x y 14 (taskbarY r + 1) 6
    · rw [if_pos hterm, if_neg (hterm.disjoint 34 6 (by omega)), if_neg (hterm.disjoint 33 1 (by omega)),
        if_neg (hterm.disjoint 28 5 (by omega)), if_neg (hterm.disjoint 27 1 (by omega)),
        if_neg (hterm.disjoint 21 6 (by omega)), if_neg (hterm.disjoint 20 1 (by omega)), if_pos hterm]
      rfl
    rw [if_neg hterm, if_neg hterm]
    by_cases hsets : InLabel x y 21 (taskbarY r + 1) 6
    · rw [if_pos hsets, if_neg (hsets.disjoint 34 6 (by omega)), if_neg (hsets.disjoint 33 1 (by omega)),
        if_neg (hsets.disjoint 28 5 (by omega)), if_neg (hsets.disjoint 27 1 (by omega)), if_pos hsets]
      rfl
    rw [if_neg hsets, if_neg hsets]
    by_cases hweb : InLabel x y 28 (taskbarY r + 1) 5
    · rw [if_pos hweb, if_neg (hweb.disjoint 34 6 (by omega)), if_neg (hweb.disjoint 33 1 (by omega)), if_pos hweb]
      rfl
    rw [if_neg hweb, if_neg hweb]
    by_cases hedit : InLabel x y 34 (taskbarY r + 1) 6
    · rw [if_pos hedit, if_pos hedit]
      rfl
    rw [if_neg hedit, if_neg hedit]
    -- no button of the taskbar; no icon is under its blanks
    have hblank : ∀ labelX, 13 ≤ labelX → InLabel x y labelX (taskbarY r + 1) 1 →
        (if InLabel x y 2 2 7 then some (Action.appLaunch "Files")
          else if InLabel x y 2 4 7 then some (.appLaunch "Terminal")
          else if InLabel x y 2 6 7 then some (.appLaunch "Settings")
          else none) = none := by
      intro labelX hright hlabel
      have hicon : ∀ labelY, ¬InLabel x y 2 labelY 7 := by
        intro labelY hicon
        unfold InLabel at hlabel hicon
        omega
      rw [if_neg (hicon 2), if_neg (hicon 4), if_neg (hicon 6)]
    have hstatus : ¬InLabel x y (r.screenWidth - 18) 0 3 := by
      unfold InLabel at hnotif ⊢
      omega
    have hcontrol : ¬InLabel x y (r.screenWidth - 10) 0 3 := by
      unfold InLabel at hctrl ⊢
      omega
    rw [if_neg hstatus, if_neg hcontrol]
    by_cases hx33 : InLabel x y 33 (taskbarY r + 1) 1
    · rw [if_pos hx33, hblank 33 (by omega) hx33]
      rfl
    rw [if_neg hx33]
    by_cases hx27 : InLabel x y 27 (taskbarY r + 1) 1
    · rw [if_pos hx27, hblank 27 (by omega) hx27]
      rfl
    rw [if_neg hx27]
    by_cases hx20 : InLabel x y 20 (taskbarY r + 1) 1
    · rw [if_pos hx20, hblank 20 (by omega) hx20]
      rfl
    rw [if_neg hx20]
    by_cases hx13 : InLabel x y 13 (taskbarY r + 1) 1
    · rw [if_pos hx13, hblank 13 (by omega) hx13]
      rfl
    rw [if_neg hx13]
    rfl
  · have hbar : ∀ labelX n, ¬InLabel x y labelX (taskbarY r + 1) n := fun _ _ h => hrow h.1
    rw [leftClickAction_off_row r hrow]
    simp only [hbar, if_false]
    rfl

/-! ## Buttons that are seen -/

/-- The parts of a picture are no buttons. -/
def NoButton (items : Items) : Prop := ∀ i ∈ items, i.tag.action = none

theorem NoButton.append {items items' : Items} (h : NoButton items) (h' : NoButton items') :
    NoButton (items ++ items') := by
  intro i hi
  rcases List.mem_append.mp hi with hi | hi
  · exact h i hi
  · exact h' i hi

theorem NoButton.flatMap {ι : Type} {l : List ι} {picture : ι → Items} (h : ∀ k, NoButton (picture k)) :
    NoButton (l.flatMap picture) := by
  intro i hi
  rcases List.mem_flatMap.mp hi with ⟨k, -, hk⟩
  exact h k i hk

/-- The resolution of the boot, and the invariant of the launcher. -/
structure Booted (entries : AppLauncher.Entries) (l : AppLauncher.Launcher) (d : Desktop) : Prop where
  width : d.resolution.screenWidth = 80
  height : d.resolution.screenHeight = 24
  launcher : AppLauncher.Inv entries l d.launcher

section Booted

variable {entries : AppLauncher.Entries} {l : AppLauncher.Launcher} {d : Desktop} (taskStacks : UInt64)

theorem Booted.openWindow (h : Booted entries l d) (title : Option (List UInt8)) (x y width height : Int) :
    Booted entries l (guiOpenWindow title x y width height d) := by
  unfold guiOpenWindow
  split
  · exact h
  · exact ⟨h.width, h.height, h.launcher⟩

theorem booted_initialized (entries : AppLauncher.Entries) (d : Desktop) :
    Booted entries d.launcher.launcher (initialized entries d) := by
  -- the registry and the scheduler are set before the windows are opened
  have hstart : Booted entries d.launcher.launcher
      { guiInitialize d with
        notificationCenter := notificationPost (chars "Welcome") (chars "System started") 0
          (notificationCenterInitialize d.notificationCenter)
        controlCenterVisible := false
        launcher := AppLauncher.start entries d.launcher.launcher } :=
    ⟨show (guiSetResolution 80 24 defaultResolution).screenWidth = 80 by decide,
      show (guiSetResolution 80 24 defaultResolution).screenHeight = 24 by decide,
      AppLauncher.inv_start entries d.launcher.launcher⟩
  have hwindows := ((hstart.openWindow (some (chars "System Console")) 10 3 40 12).openWindow
    (some (chars "Task Monitor")) 52 3 26 10).openWindow (some (chars "File Manager")) 15 14 50 8
  exact ⟨hwindows.width, hwindows.height, hwindows.launcher⟩

theorem Booted.act (h : Booted entries l d) (action : Action) :
    ∃ d', d.act taskStacks action = some d' ∧ Booted entries l d' := by
  cases action with
  | notificationCenterToggle => exact ⟨_, rfl, h.width, h.height, h.launcher⟩
  | controlCenterToggle => exact ⟨_, rfl, h.width, h.height, h.launcher⟩
  | appLaunch appName =>
    rcases h.launcher.appLaunch_step taskStacks (some (chars appName)) with ⟨r, hr, hinv⟩
    refine ⟨{ d with launcher := r.2 }, ?_, h.width, h.height, hinv⟩
    rw [Desktop.act, hr]
    rfl

theorem Booted.take (h : Booted entries l d) (action : Option Action) :
    ∃ d', d.take taskStacks action = some d' ∧ Booted entries l d' := by
  cases action with
  | some action => exact h.act taskStacks action
  | none => exact ⟨d, rfl, h⟩

theorem Booted.mouseClick (h : Booted entries l d) (x y : Int) (left right middle : Bool) :
    ∃ d', guiHandleMouseClick taskStacks x y left right middle d = some d' ∧ Booted entries l d' := by
  have hleft : ∃ d₁, (if left then guiHandleLeftClick taskStacks x y d else some d) = some d₁ ∧ Booted entries l d₁ := by
    split
    · exact h.take taskStacks _
    · exact ⟨d, rfl, h⟩
  rcases hleft with ⟨d₁, hleft, h₁⟩
  have hright : ∃ d₂, (if right then guiHandleRightClick taskStacks x y d₁ else some d₁) = some d₂ ∧
      Booted entries l d₂ := by
    split
    · exact h₁.take taskStacks _
    · exact ⟨d₁, rfl, h₁⟩
  rcases hright with ⟨d₂, hright, h₂⟩
  have hmiddle : ∃ d₃, (if middle then d₂.act taskStacks .controlCenterToggle else some d₂) = some d₃ ∧
      Booted entries l d₃ := by
    split
    · exact h₂.act taskStacks _
    · exact ⟨d₂, rfl, h₂⟩
  rcases hmiddle with ⟨d₃, hmiddle, h₃⟩
  refine ⟨d₃, ?_, h₃⟩
  rw [guiHandleMouseClick, hleft, Option.bind_some, hright, Option.bind_some]
  exact hmiddle

theorem Booted.step (h : Booted entries l d) (event : Event entries) :
    ∃ d', d.step taskStacks event = some d' ∧ Booted entries l d' := by
  cases event with
  | mouseClick x y left right middle => exact h.mouseClick taskStacks x y left right middle
  | openWindow title x y width height => exact ⟨_, rfl, h.openWindow title x y width height⟩
  | post title message priority => exact ⟨_, rfl, h.width, h.height, h.launcher⟩
  | manage c => exact ⟨_, rfl, h.width, h.height, h.launcher⟩
  | launcher c =>
    rcases AppLauncher.step_inv taskStacks d.launcher c h.launcher with ⟨m, hm, hinv⟩
    refine ⟨{ d with launcher := m }, ?_, h.width, h.height, hinv⟩
    rw [Desktop.step, hm]
    rfl

/-- The names in the registry. -/
theorem Booted.name (h : Booted entries l d) :
    (d.launcher.launcher.appRegistry 0).name = some (chars "Files") ∧
      (d.launcher.launcher.appRegistry 1).name = some (chars "Terminal") ∧
      (d.launcher.launcher.appRegistry 2).name = some (chars "Settings") := by
  rcases AppLauncher.appRegistry_initial entries l with ⟨h0, h1, h2⟩
  refine ⟨?_, ?_, ?_⟩
  · rw [(h.launcher.fixed 0).1, h0]
    rfl
  · rw [(h.launcher.fixed 1).1, h1]
    rfl
  · rw [(h.launcher.fixed 2).1, h2]
    rfl

end Booted

end CosKernel.Gui
