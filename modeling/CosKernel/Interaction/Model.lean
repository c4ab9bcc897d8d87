import CosKernel.Gui.Menu
import CosKernel.Input.Packets
import CosKernel.Shell.Session

/-!
# The shell, the mice and the desktop (`kernel.c`)

A pass of the loop of `shell_task` first serves the keyboards and then the mice: an event of the mouse
queue moves the mouse, is shown in the row 23, and is a click on the desktop if a button is down. The
screen is the one that `gui_render` drew at boot, where the shell types on as well.

`network_poll` and the log are left out: they touch none of this.
-/

namespace CosKernel.Interaction

open Input Vga
open Shell (Poll Session passKeyboard)

/-! ## The mouse status -/

/-- Calls of `vga_write_char` for one place behind the other. -/
def writeChars (y : Int) (color : UInt8) : List UInt8 → Int → Vram → Vram
  | [], _, vram => vram
  | c :: text, x, vram => writeChars y color text (x + 1) (vgaWriteChar x y c color vram)

/-- `'0' + n` -/
def digit (n : Int) : UInt8 := UInt8.ofInt (48 + n)

/-- The characters of `draw_mouse_status`. -/
def statusText (mx my : Int) (left right middle : Bool) : List UInt8 :=
  ['M'.toUInt8, 'X'.toUInt8, ':'.toUInt8, digit (mx.tdiv 10), digit (mx.tmod 10), ' '.toUInt8,
    'M'.toUInt8, 'Y'.toUInt8, ':'.toUInt8, digit (my.tdiv 10), digit (my.tmod 10), ' '.toUInt8,
    if left then 'L'.toUInt8 else '-'.toUInt8, if right then 'R'.toUInt8 else '-'.toUInt8,
    if middle then 'M'.toUInt8 else '-'.toUInt8]

/-- `draw_mouse_status` -/
def drawMouseStatus (x y mx my : Int) (left right middle : Bool) (vram : Vram) : Vram :=
  if x < 0 ∨ x ≥ 78 ∨ y < 0 ∨ y ≥ 24 then vram
  else writeChars y 0x0F (statusText mx my left right middle) x vram

/-! ## The loop -/

/-- What a poll of the mice sees on their ports. -/
structure MousePoll where
  status : UInt8
  data : UInt8
  hasMouse : Bool
deriving DecidableEq

/-- `left || right || middle` -/
def pressed (e : MouseEventT) : Bool := e.left || e.right || e.middle

/-- The arguments of a call of `gui_handle_mouse_click`. -/
structure Click where
  x : Int
  y : Int
  left : Bool
  right : Bool
  middle : Bool
deriving DecidableEq

/-- The click that an event is, with the mouse at this place. -/
def clickAt (place : Int × Int) (e : MouseEventT) : Click := ⟨place.1, place.2, e.left, e.right, e.middle⟩

section Loop

variable {entries : AppLauncher.Entries}

/-- The shell's session and the desktop, with a record of the mouse events that the polls found and of
those that were taken, and of the calls made on the desktop. -/
structure Machine (entries : AppLauncher.Entries) where
  session : Session
  desktop : Gui.Desktop
  found : List MouseEventT
  taken : List MouseEventT
  calls : List (Gui.Event entries)

def Machine.screen (m : Machine entries) : Vram := m.session.shell.vram

/-- Store the variables of the drivers and the screen. -/
def Machine.update (m : Machine entries) (devices : Devices) (screen : Vram) : Machine entries :=
  { m with session := { m.session with
      devices := devices
      shell := { m.session.shell with vram := screen } } }

/-- The events that a poll offers to the queue: one of each mouse at most. -/
def pollFinds (p : MousePoll) (s : Devices) : List MouseEventT :=
  (decodePs2 p.status p.data s.control).2.toList ++
    ((if p.hasMouse then (usbDequeueMouseEvent s.usbMouse).1 else none).map reportEvent).toList

/-- The click that a call of the desktop is. -/
def clickOf : Gui.Event entries → Option Click
  | .mouseClick x y left right middle => some ⟨x, y, left, right, middle⟩
  | _ => none

/-- The branch of `mouse_has_event`, behind `mouse_get_event`. -/
def serveEvent (taskStacks : UInt64) (e : MouseEventT) (devices : Devices) (m : Machine entries) :
    Option (Machine entries) :=
  let place := position devices
  let screen := drawMouseStatus 0 23 place.1 place.2 e.left e.right e.middle m.screen
  let m := { m.update devices screen with taken := m.taken ++ [e] }
  if pressed e then
    (Gui.guiHandleMouseClick taskStacks place.1 place.2 e.left e.right e.middle m.desktop).map fun desktop =>
      { m.update devices (Gui.clickDraws m.desktop.resolution place.1 place.2 e.right screen) with
        desktop := desktop
        calls := m.calls ++ [.mouseClick place.1 place.2 e.left e.right e.middle] }
  else some m

/-- `if (mouse_has_event()) { … }` -/
def passMouse (taskStacks : UInt64) (p : MousePoll) (m : Machine entries) : Option (Machine entries) :=
  let polled := mouseHasEvent p.status p.data p.hasMouse m.session.devices
  let found := if m.session.devices.control.mouseInitialized then pollFinds p m.session.devices else []
  let m := { m.update polled.2 m.screen with found := m.found ++ found }
  if polled.1 then
    let got := mouseGetEvent polled.2
    serveEvent taskStacks got.1 got.2 m
  else some m

/-- A pass of the loop, a report of a USB device, or a call that another task makes on the desktop. -/
inductive Event (entries : AppLauncher.Entries) where
  | pass (hasData readChar : Poll) (mouse : MousePoll)
  | keyboardReport (report : Vector UInt8 8)
  | mouseReport (report : Report)
  | desktop (call : Gui.Event entries) (h : clickOf call = none)

def step (taskStacks : UInt64) (m : Machine entries) : Event entries → Option (Machine entries)
  | .pass hasData readChar mouse =>
    (passKeyboard hasData readChar m.session).bind fun session =>
      passMouse taskStacks mouse { m with session := session }
  | .keyboardReport report =>
    some (m.update (usbProcessKeyboardReport report m.session.devices) m.screen)
  | .mouseReport report =>
    let devices := m.session.devices
    some (m.update { devices with usbMouse := (usbQueueMouseEvent report devices.usbMouse).2 } m.screen)
  | .desktop call _ =>
    (m.desktop.step taskStacks call).map fun desktop =>
      { m with desktop := desktop, calls := m.calls ++ [call] }

/-- `kernel_main` up to its loop, as far as the screen, the mice and the keyboards are concerned, and the
variables of `shell_task`. -/
def boot (entries : AppLauncher.Entries) (before : Gui.Desktop) (vram : Vram) : Machine entries :=
  let desktop := Gui.initialized entries before
  { session := { Shell.start (Gui.guiRender desktop vram) with devices := mouseInitialize powerOn }
    desktop := desktop
    found := []
    taken := []
    calls := [] }

end Loop

end CosKernel.Interaction
