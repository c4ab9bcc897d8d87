import CosKernel.AppLauncher.Live
import CosKernel.Gui.Model
import CosKernel.Notifications.Model
import CosKernel.WindowManager.Render

/-!
# The desktop's parts and its clicks (`gui.c`, `control_center.c`)

`gui_render` draws the background, the status bar, the icons, the windows of both kinds, the taskbar
and the three panels, in this order. A click is looked up in rectangles of its own, which
`gui_handle_left_click` and `gui_handle_right_click` list one after the other; the drawings and the
rectangles do not know of each other.
-/

namespace CosKernel.Gui

open Layers Notifications Vga

def guiStatusColor : UInt8 := 0x1F
def guiStatusText : UInt8 := 0x0F

/-! ## State -/

/-- `gui_window_t` -/
structure GuiWindowT where
  x : Int
  y : Int
  width : Int
  height : Int
  title : Option (List UInt8)
  active : Bool
  minimized : Bool

abbrev guiMaxWindows : Nat := 6

/-- The static variables of the desktop and of its parts. -/
structure Desktop where
  resolution : Resolution
  guiWindows : Nat → GuiWindowT
  guiWindowCount : Nat
  notificationCenter : Notifications.Center
  controlCenterVisible : Bool
  manager : WindowManager.Manager
  launcher : AppLauncher.System

/-! ## Drawing (`gui.c`) -/

/-- `draw_text` -/
def drawText (r : Resolution) (x y : Int) (text : List UInt8) (color : UInt8) (vram : Vram) : Vram :=
  writeString r.screenWidth y color text x vram

/-- `colors[y % 4]` -/
def backgroundColor (y : Int) : UInt8 := [0x16, 0x15, 0x14, 0x13].getD (y % 4).toNat 0

/-- `draw_background` -/
def drawBackground (r : Resolution) (vram : Vram) : Vram :=
  loop (fun y => loop (fun x => vgaWriteChar x y ' '.toUInt8 (backgroundColor y)) 0 r.screenWidth.toNat)
    1 (r.screenHeight - 3 - 1).toNat vram

/-- `draw_status_bar` -/
def drawStatusBar (r : Resolution) (vram : Vram) : Vram :=
  let vram := fillRect r 0 0 r.screenWidth 1 guiStatusColor vram
  let vram := drawText r 1 0 (chars ".C OS") guiStatusText vram
  let vram := drawText r 10 0 (chars "Online | WiFi | 89% Battery") guiStatusText vram
  let vram := drawText r (r.screenWidth - 18) 0 (chars "[N]") guiStatusText vram
  drawText r (r.screenWidth - 10) 0 (chars "[C]") guiStatusText vram

/-- `draw_desktop_icons` -/
def drawDesktopIcons (r : Resolution) (vram : Vram) : Vram :=
  let vram := drawText r 2 2 (chars "[Files]") guiPanelText vram
  let vram := drawText r 2 4 (chars "[Term ]") guiPanelText vram
  let vram := drawText r 2 6 (chars "[Sets ]") guiPanelText vram
  let vram := drawText r 14 2 (chars "[Web  ]") guiPanelText vram
  drawText r 14 4 (chars "[Edit ]") guiPanelText vram

/-- `draw_gui_windows` -/
def drawGuiWindows (d : Desktop) (vram : Vram) : Vram :=
  (List.range d.guiWindowCount).foldl (fun vram i =>
    let window := d.guiWindows i
    if window.active = false ∨ window.minimized = true then vram
    else drawPanel d.resolution window.x window.y window.width window.height window.title vram) vram

def taskbarHeight : Int := 4

/-- `taskbar_y`, which `gui_handle_left_click` and `gui_handle_right_click` compute as well. -/
def taskbarY (r : Resolution) : Int := r.screenHeight - taskbarHeight - 2

def taskbarText : String := "[Files] [Term] [Sets] [Web] [Edit]"

/-- `draw_floating_taskbar` -/
def drawFloatingTaskbar (r : Resolution) (vram : Vram) : Vram :=
  let vram := drawPanel r 4 (taskbarY r) (r.screenWidth - 8) taskbarHeight (some (chars " ")) vram
  let vram := drawText r (4 + 2) (taskbarY r + 1) (chars taskbarText) guiPanelText vram
  let vram := drawText r (r.screenWidth - 18) (taskbarY r + 1) (chars "[NOTIF]") guiPanelText vram
  drawText r (r.screenWidth - 10) (taskbarY r + 1) (chars "[CTRL]") guiPanelText vram

/-! ## The panels -/

def controlCenterItems : List String :=
  ["WiFi:     [ON]", "Bluetooth:[OFF]", "Airplane: [OFF]", "Brightness: 80%", "Volume:   65%", "Battery:  85%"]

/-- `for (int i = 0; i < 6 && cy < y + h - 1; i++, cy++)`, with `y + h - 1` 15 -/
def controlCenterLoop : List String → Int → Vram → Vram
  | [], _, vram => vram
  | item :: items, cy, vram =>
    if cy < 2 + 14 - 1 then
      controlCenterLoop items (cy + 1) (writeString (50 + 28 - 1) cy 0x0F (chars item) (50 + 2) vram)
    else vram

/-- `control_center_render` -/
def controlCenterRender (d : Desktop) (vram : Vram) : Vram :=
  if d.controlCenterVisible then
    let vram := drawFrame 50 2 28 14 0x0F vram
    let vram := writeString (50 + 28 - 2) 2 0x1F (chars "Control Center") (50 + 2) vram
    controlCenterLoop controlCenterItems (2 + 2) vram
  else vram

/-- `draw_box` (`app_launcher.c`) -/
def drawBox (x y width height : Int) (vram : Vram) : Vram := drawFrame x y width height 0x0F vram

/-- `app_launcher_render` (`app_launcher.c`) -/
def appLauncherRender (l : AppLauncher.Launcher) (vram : Vram) : Vram :=
  let vram := drawBox 4 16 28 8 vram
  let vram := writeString (4 + 28 - 2) 16 0x1F (chars "App Launcher") (4 + 2) vram
  (List.range (min l.appCount (8 - 2))).foldl (fun vram (i : Nat) =>
    match (l.appRegistry i).name with
    | some name => writeString (4 + 28 - 2) (16 + 1 + i) 0x0F name (4 + 2) vram
    | none => vram) vram

/-- `gui_render` -/
def guiRender (d : Desktop) (vram : Vram) : Vram :=
  let vram := drawBackground d.resolution vram
  let vram := drawStatusBar d.resolution vram
  let vram := drawDesktopIcons d.resolution vram
  let vram := drawGuiWindows d vram
  let vram := WindowManager.windowManagerRender d.manager vram
  let vram := drawFloatingTaskbar d.resolution vram
  let vram := notificationCenterRender d.notificationCenter vram
  let vram := controlCenterRender d vram
  appLauncherRender d.launcher.launcher vram

/-! ## Clicks -/

/-- What a click does to the desktop. -/
inductive Action where
  | notificationCenterToggle
  | controlCenterToggle
  | appLaunch (appName : String)
deriving DecidableEq

/-- `point_in_rect` -/
def pointInRect (x y rx ry rw rh : Int) : Bool := x ≥ rx ∧ x < rx + rw ∧ y ≥ ry ∧ y < ry + rh

/-- The branch that `gui_handle_left_click` takes; `none` when it takes none. -/
def leftClickAction (r : Resolution) (x y : Int) : Option Action :=
  let statusNotifX := r.screenWidth - 18
  let statusCtrlX := r.screenWidth - 10
  let taskbarY := r.screenHeight - 6
  if pointInRect x y statusNotifX 0 3 1 then some .notificationCenterToggle
  else if pointInRect x y statusCtrlX 0 3 1 then some .controlCenterToggle
  else if pointInRect x y (r.screenWidth - 18) (taskbarY + 1) 7 1 then some .notificationCenterToggle
  else if pointInRect x y (r.screenWidth - 10) (taskbarY + 1) 6 1 then some .controlCenterToggle
  else if pointInRect x y 6 (taskbarY + 1) 7 1 then some (.appLaunch "Files")
  else if pointInRect x y 14 (taskbarY + 1) 6 1 then some (.appLaunch "Terminal")
  else if pointInRect x y 21 (taskbarY + 1) 6 1 then some (.appLaunch "Settings")
  else if pointInRect x y 28 (taskbarY + 1) 5 1 then some (.appLaunch "Web")
  else if pointInRect x y 34 (taskbarY + 1) 6 1 then some (.appLaunch "Edit")
  else if pointInRect x y 2 2 7 1 then some (.appLaunch "Files")
  else if pointInRect x y 2 4 7 1 then some (.appLaunch "Terminal")
  else if pointInRect x y 2 6 7 1 then some (.appLaunch "Settings")
  else none

/-- The branch that `gui_handle_right_click` takes; `none` when it opens the menu. -/
def rightClickAction (r : Resolution) (x y : Int) : Option Action :=
  let statusNotifX := r.screenWidth - 18
  let statusCtrlX := r.screenWidth - 10
  let taskbarY := r.screenHeight - 6
  if y = 0 ∧ x ≥ statusCtrlX ∧ x < statusCtrlX + 3 then some .controlCenterToggle
  else if y = 0 ∧ x ≥ statusNotifX ∧ x < statusNotifX + 3 then some .notificationCenterToggle
  else if x ≥ 2 ∧ x ≤ 8 ∧ y = 2 then some (.appLaunch "Files")
  else if x ≥ 2 ∧ x ≤ 8 ∧ y = 4 then some (.appLaunch "Terminal")
  else if x ≥ 2 ∧ x ≤ 8 ∧ y = 6 then some (.appLaunch "Settings")
  else if x ≥ r.screenWidth - 18 ∧ x < r.screenWidth - 11 ∧ y = taskbarY + 1 then some .notificationCenterToggle
  else if x ≥ r.screenWidth - 10 ∧ x < r.screenWidth - 4 ∧ y = taskbarY + 1 then some .controlCenterToggle
  else none

/-- The call behind an action; `none` when `create_task` hangs. -/
def Desktop.act (taskStacks : UInt64) (d : Desktop) : Action → Option Desktop
  | .notificationCenterToggle => some { d with notificationCenter := notificationCenterToggle d.notificationCenter }
  | .controlCenterToggle => some { d with controlCenterVisible := !d.controlCenterVisible }
  | .appLaunch appName =>
    (AppLauncher.appLaunch taskStacks (some (chars appName)) d.launcher).map fun r => { d with launcher := r.2 }

/-- A branch with its call; without one, the handler returns. -/
def Desktop.take (taskStacks : UInt64) (d : Desktop) : Option Action → Option Desktop
  | some action => d.act taskStacks action
  | none => some d

/-- `gui_handle_left_click` -/
def guiHandleLeftClick (taskStacks : UInt64) (x y : Int) (d : Desktop) : Option Desktop :=
  d.take taskStacks (leftClickAction d.resolution x y)

/-- `gui_handle_right_click`; the menu it may draw changes the screen only. -/
def guiHandleRightClick (taskStacks : UInt64) (x y : Int) (d : Desktop) : Option Desktop :=
  d.take taskStacks (rightClickAction d.resolution x y)

/-- `gui_handle_mouse_click` -/
def guiHandleMouseClick (taskStacks : UInt64) (x y : Int) (left right middle : Bool) (d : Desktop) :
    Option Desktop :=
  (if left then guiHandleLeftClick taskStacks x y d else some d).bind fun d =>
    (if right then guiHandleRightClick taskStacks x y d else some d).bind fun d =>
      if middle then d.act taskStacks .controlCenterToggle else some d

/-! ## The other calls -/

/-- `gui_open_window`, without the taskbar's list, which nothing reads. -/
def guiOpenWindow (title : Option (List UInt8)) (x y width height : Int) (d : Desktop) : Desktop :=
  if d.guiWindowCount ≥ guiMaxWindows then d
  else
    { d with
      guiWindows := Function.update d.guiWindows d.guiWindowCount ⟨x, y, width, height, title, true, false⟩
      guiWindowCount := d.guiWindowCount + 1 }

/-- `gui_initialize` and `gui_set_resolution(80, 24)` -/
def guiInitialize (d : Desktop) : Desktop :=
  { d with
    guiWindowCount := 0
    resolution := guiSetResolution 80 24 defaultResolution }

/-- What `kernel_main` calls of the desktop, before `gui_render`. -/
def initialized (entries : AppLauncher.Entries) (d : Desktop) : Desktop :=
  let d := guiInitialize d
  let d :=
    { d with
      notificationCenter := notificationPost (chars "Welcome") (chars "System started") 0
        (notificationCenterInitialize d.notificationCenter) }
  let d := { d with controlCenterVisible := false }
  let d := { d with launcher := AppLauncher.start entries d.launcher.launcher }
  let d := guiOpenWindow (some (chars "System Console")) 10 3 40 12 d
  let d := guiOpenWindow (some (chars "Task Monitor")) 52 3 26 10 d
  let d := guiOpenWindow (some (chars "File Manager")) 15 14 50 8 d
  { d with
    manager := WindowManager.windowManagerCreateWindow 40 2 36 10 (some (chars "Task Monitor"))
      (WindowManager.windowManagerCreateWindow 2 2 36 10 (some (chars "System Console"))
        (WindowManager.windowManagerInitialize d.manager)) }

/-- What may happen to the desktop from then on. -/
inductive Event (entries : AppLauncher.Entries) where
  | mouseClick (x y : Int) (left right middle : Bool)
  | openWindow (title : Option (List UInt8)) (x y width height : Int)
  | post (title message : List UInt8) (priority : Int)
  | manage (c : WindowManager.Call)
  | launcher (c : AppLauncher.Call entries)

def Desktop.step {entries : AppLauncher.Entries} (taskStacks : UInt64) (d : Desktop) :
    Event entries → Option Desktop
  | .mouseClick x y left right middle => guiHandleMouseClick taskStacks x y left right middle d
  | .openWindow title x y width height => some (guiOpenWindow title x y width height d)
  | .post title message priority =>
    some { d with notificationCenter := notificationPost title message priority d.notificationCenter }
  | .manage c => some { d with manager := WindowManager.step d.manager c }
  | .launcher c => (AppLauncher.step taskStacks d.launcher c).map fun m => { d with launcher := m }

end CosKernel.Gui
