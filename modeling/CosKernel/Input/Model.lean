import CosKernel.Lib.BoundedQueue

/-!
# Keyboard, mouse and USB input (`keyboard.c`, `mouse.c`, `usb.c`)

Four ring buffers with one free slot each. The drivers are polled: a call reads
the status and data ports of the PS/2 controller and moves at most one entry from
a USB ring to the ring of the keyboard or of the mouse. What the ports return, and
whether a USB device is attached, is an argument of the call.

`keyboard.c` and `mouse.c` count with an `int` and a mask, `usb.c` with a
`uint32_t` and a remainder.
-/

namespace CosKernel.Input

open BoundedQueue (Ring Indexing)

/-! ## Indices -/

/-- `(i + 1) & 0xFF` -/
def keyNext (i : Int32) : Int32 := (i + 1) &&& 0xFF

/-- `(i + 1) & 31` -/
def mouseQueueNext (i : Int32) : Int32 := (i + 1) &&& 31

abbrev usbKeyboardQueueSize : Nat := 64
abbrev usbMouseQueueSize : Nat := 32

/-- `(i + 1) % USB_KEYBOARD_QUEUE_SIZE` -/
def usbKeyboardNext (i : UInt32) : UInt32 := (i + 1) % 64

/-- `(i + 1) % USB_MOUSE_QUEUE_SIZE` -/
def usbMouseNext (i : UInt32) : UInt32 := (i + 1) % 32

def keyIndex : Indexing 256 Int32 where
  next := keyNext
  toNat := Int32.toNatClampNeg
  ofNat := Int32.ofNat
  toNat_ofNat := by decide +kernel
  next_ofNat := by decide +kernel

def mouseQueueIndex : Indexing 32 Int32 where
  next := mouseQueueNext
  toNat := Int32.toNatClampNeg
  ofNat := Int32.ofNat
  toNat_ofNat := by decide +kernel
  next_ofNat := by decide +kernel

def usbKeyboardIndex : Indexing usbKeyboardQueueSize UInt32 where
  next := usbKeyboardNext
  toNat := UInt32.toNat
  ofNat := UInt32.ofNat
  toNat_ofNat := by decide +kernel
  next_ofNat := by decide +kernel

def usbMouseIndex : Indexing usbMouseQueueSize UInt32 where
  next := usbMouseNext
  toNat := UInt32.toNat
  ofNat := UInt32.ofNat
  toNat_ofNat := by decide +kernel
  next_ofNat := by decide +kernel

/-! ## State -/

structure MouseEventT where
  dx : Int8
  dy : Int8
  left : Bool
  right : Bool
  middle : Bool
deriving DecidableEq

/-- A report of a USB mouse. -/
abbrev Report : Type := Vector UInt8 4

/-- The variables of the drivers besides their rings. -/
structure Control where
  shiftDown : Bool
  mousePacket : Nat → UInt8
  mousePacketOffset : Nat
  mouseX : Int
  mouseY : Int
  mouseInitialized : Bool

/-- `key_queue`, `mouse_queue`, `keyboard_buffer` and `mouse_events` with their
head and tail. -/
structure Devices where
  control : Control
  keys : Ring Int32 UInt8
  mouse : Ring Int32 MouseEventT
  usbKeys : Ring UInt32 UInt8
  usbMouse : Ring UInt32 Report

/-! ## The ring operations -/

/-- `keyboard_queue_char` -/
def keyboardQueueChar (c : UInt8) (keys : Ring Int32 UInt8) : Ring Int32 UInt8 :=
  (keys.enqueue keyIndex c).2

/-- `enqueue_mouse_event` -/
def enqueueMouseEvent (event : MouseEventT) (mouse : Ring Int32 MouseEventT) :
    Ring Int32 MouseEventT :=
  (mouse.enqueue mouseQueueIndex event).2

/-- `usb_queue_keyboard_char` -/
def usbQueueKeyboardChar (c : UInt8) (keys : Ring UInt32 UInt8) : Bool × Ring UInt32 UInt8 :=
  keys.enqueue usbKeyboardIndex c

/-- `usb_dequeue_keyboard_char`; `none` is `false`. -/
def usbDequeueKeyboardChar (keys : Ring UInt32 UInt8) : Option UInt8 × Ring UInt32 UInt8 :=
  keys.dequeue usbKeyboardIndex

/-- `usb_queue_mouse_event` -/
def usbQueueMouseEvent (report : Report) (mouse : Ring UInt32 Report) :
    Bool × Ring UInt32 Report :=
  mouse.enqueue usbMouseIndex report

/-- `usb_dequeue_mouse_event`; `none` is `false`. -/
def usbDequeueMouseEvent (mouse : Ring UInt32 Report) : Option Report × Ring UInt32 Report :=
  mouse.dequeue usbMouseIndex

/-! ## Keyboard -/

def keymap : List Char :=
  ['\x00', '\x00', '1', '2', '3', '4', '5', '6', '7', '8',
    '9', '0', '-', '=', '\x08', '\t', 'q', 'w', 'e', 'r',
    't', 'y', 'u', 'i', 'o', 'p', '[', ']', '\n', '\x00',
    'a', 's', 'd', 'f', 'g', 'h', 'j', 'k', 'l', ';',
    '\x27', '\x60', '\x00', '\x5c', 'z', 'x', 'c', 'v', 'b', 'n',
    'm', ',', '.', '/', '\x00', '*', '\x00', ' ', '\x00']

def shiftKeymap : List Char :=
  ['\x00', '\x00', '!', '@', '#', '$', '%', '^', '&', '*',
    '(', ')', '_', '+', '\x08', '\t', 'Q', 'W', 'E', 'R',
    'T', 'Y', 'U', 'I', 'O', 'P', '\x7b', '\x7d', '\n', '\x00',
    'A', 'S', 'D', 'F', 'G', 'H', 'J', 'K', 'L', ':',
    '\x22', '~', '\x00', '|', 'Z', 'X', 'C', 'V', 'B', 'N',
    'M', '<', '>', '?', '\x00', '*', '\x00', ' ', '\x00']

/-- `map[scancode]`; the rest of the array is zero. -/
def lookupKey (map : List Char) (scancode : UInt8) : UInt8 :=
  (map.getD scancode.toNat '\x00').toUInt8

/-- `keyboard_poll` up to the queue: the new `shift_down`, and the character to
enqueue. -/
def decodeKey (status data : UInt8) (control : Control) : Control × Option UInt8 :=
  if status &&& 0x01 = 0 ∨ status &&& 0x20 ≠ 0 then (control, none)
  else
    let released := data &&& 0x80 ≠ 0
    let scancode := data &&& 0x7F
    if scancode = 0x2A ∨ scancode = 0x36 then ({ control with shiftDown := ¬released }, none)
    else if released then (control, none)
    else
      let chr := if control.shiftDown then lookupKey shiftKeymap scancode
        else lookupKey keymap scancode
      (control, if chr ≠ 0 then some chr else none)

/-- `keyboard_poll` -/
def keyboardPoll (status data : UInt8) (s : Devices) : Devices :=
  let decoded := decodeKey status data s.control
  { s with
    control := decoded.1
    keys := match decoded.2 with
      | some chr => keyboardQueueChar chr s.keys
      | none => s.keys }

/-- `usb_keyboard_poll` -/
def usbKeyboardPoll (hasKeyboard : Bool) (s : Devices) : Devices :=
  if hasKeyboard then
    let dequeued := usbDequeueKeyboardChar s.usbKeys
    { s with
      usbKeys := dequeued.2
      keys := match dequeued.1 with
        | some c => if c ≠ 0 then keyboardQueueChar c s.keys else s.keys
        | none => s.keys }
  else s

/-- `keyboard_has_data` -/
def keyboardHasData (status data : UInt8) (hasKeyboard : Bool) (s : Devices) : Bool × Devices :=
  let s := usbKeyboardPoll hasKeyboard (keyboardPoll status data s)
  (s.keys.head ≠ s.keys.tail, s)

/-- `keyboard_read_char` -/
def keyboardReadChar (status data : UInt8) (hasKeyboard : Bool) (s : Devices) : UInt8 × Devices :=
  let s := usbKeyboardPoll hasKeyboard (keyboardPoll status data s)
  let dequeued := s.keys.dequeue keyIndex
  (dequeued.1.getD 0, { s with keys := dequeued.2 })

/-! ## Mouse -/

/-- The buttons are the low bits of a status byte. -/
def mouseEvent (status dx dy : UInt8) : MouseEventT where
  dx := dx.toInt8
  dy := dy.toInt8
  left := status &&& 0x01 ≠ 0
  right := status &&& 0x02 ≠ 0
  middle := status &&& 0x04 ≠ 0

/-- `mouse_poll_ps2` up to the queue; `process_ps2_packet` makes the event of the
three bytes. -/
def decodePs2 (status data : UInt8) (control : Control) : Control × Option MouseEventT :=
  if status &&& 0x01 = 0 ∨ status &&& 0x20 = 0 then (control, none)
  else if control.mousePacketOffset = 0 ∧ data &&& 0x08 = 0 then (control, none)
  else
    let packet := Function.update control.mousePacket control.mousePacketOffset data
    let offset := control.mousePacketOffset + 1
    if offset ≥ 3 then
      ({ control with mousePacket := packet, mousePacketOffset := 0 },
        some (mouseEvent (packet 0) (packet 1) (packet 2)))
    else ({ control with mousePacket := packet, mousePacketOffset := offset }, none)

/-- `mouse_poll_ps2` -/
def mousePollPs2 (status data : UInt8) (s : Devices) : Devices :=
  let decoded := decodePs2 status data s.control
  { s with
    control := decoded.1
    mouse := match decoded.2 with
      | some event => enqueueMouseEvent event s.mouse
      | none => s.mouse }

/-- The event `usb_get_mouse_report` makes of a report. -/
def reportEvent (report : Report) : MouseEventT := mouseEvent report[0] report[1] report[2]

/-- `poll_usb_mouse`, behind `usb_poll`. -/
def pollUsbMouse (hasMouse : Bool) (s : Devices) : Devices :=
  if hasMouse then
    let dequeued := usbDequeueMouseEvent s.usbMouse
    { s with
      usbMouse := dequeued.2
      mouse := match dequeued.1 with
        | some report => enqueueMouseEvent (reportEvent report) s.mouse
        | none => s.mouse }
  else s

/-- `mouse_has_event` -/
def mouseHasEvent (status data : UInt8) (hasMouse : Bool) (s : Devices) : Bool × Devices :=
  if s.control.mouseInitialized then
    let s := pollUsbMouse hasMouse (mousePollPs2 status data s)
    (s.mouse.head ≠ s.mouse.tail, s)
  else (false, s)

/-- The two `if`s that keep a coordinate on the screen. -/
def clamp (bound v : Int) : Int := if v < 0 then 0 else if v > bound then bound else v

/-- `mouse_x += event.dx; mouse_y -= event.dy;` and the bounds of the screen. -/
def moveMouse (event : MouseEventT) (control : Control) : Control :=
  { control with
    mouseX := clamp 79 (control.mouseX + event.dx.toInt)
    mouseY := clamp 23 (control.mouseY - event.dy.toInt) }

/-- What `mouse_get_event` returns when there is no event. -/
def noEvent : MouseEventT := ⟨0, 0, false, false, false⟩

/-- `mouse_get_event` with pointers that are not `NULL`. -/
def mouseGetEvent (s : Devices) : MouseEventT × Devices :=
  let dequeued := s.mouse.dequeue mouseQueueIndex
  match dequeued.1 with
  | none => (noEvent, s)
  | some event =>
    (event, { s with mouse := dequeued.2, control := moveMouse event s.control })

/-! ## Calls -/

inductive Call where
  | keyboardQueueChar (c : UInt8)
  | keyboardHasData (status data : UInt8) (hasKeyboard : Bool)
  | keyboardReadChar (status data : UInt8) (hasKeyboard : Bool)
  | enqueueMouseEvent (event : MouseEventT)
  | mouseHasEvent (status data : UInt8) (hasMouse : Bool)
  | mouseGetEvent
  | usbQueueKeyboardChar (c : UInt8)
  | usbDequeueKeyboardChar
  | usbQueueMouseEvent (report : Report)
  | usbDequeueMouseEvent
deriving DecidableEq

/-- What a call returns. -/
inductive Result where
  | done
  | bool (b : Bool)
  | char (c : UInt8)
  | event (event : MouseEventT)
  | key (c : Option UInt8)
  | report (report : Option Report)
deriving DecidableEq

def perform (s : Devices) : Call → Result × Devices
  | .keyboardQueueChar c => (.done, { s with keys := keyboardQueueChar c s.keys })
  | .keyboardHasData status data hasKeyboard =>
    let r := keyboardHasData status data hasKeyboard s
    (.bool r.1, r.2)
  | .keyboardReadChar status data hasKeyboard =>
    let r := keyboardReadChar status data hasKeyboard s
    (.char r.1, r.2)
  | .enqueueMouseEvent event => (.done, { s with mouse := enqueueMouseEvent event s.mouse })
  | .mouseHasEvent status data hasMouse =>
    let r := mouseHasEvent status data hasMouse s
    (.bool r.1, r.2)
  | .mouseGetEvent =>
    let r := mouseGetEvent s
    (.event r.1, r.2)
  | .usbQueueKeyboardChar c =>
    let r := usbQueueKeyboardChar c s.usbKeys
    (.bool r.1, { s with usbKeys := r.2 })
  | .usbDequeueKeyboardChar =>
    let r := usbDequeueKeyboardChar s.usbKeys
    (.key r.1, { s with usbKeys := r.2 })
  | .usbQueueMouseEvent report =>
    let r := usbQueueMouseEvent report s.usbMouse
    (.bool r.1, { s with usbMouse := r.2 })
  | .usbDequeueMouseEvent =>
    let r := usbDequeueMouseEvent s.usbMouse
    (.report r.1, { s with usbMouse := r.2 })

/-- The rings before the first call: the indices are zero. -/
def initial (control : Control) (keys : Nat → UInt8) (mouse : Nat → MouseEventT)
    (usbKeys : Nat → UInt8) (usbMouse : Nat → Report) : Devices where
  control := control
  keys := ⟨keys, 0, 0⟩
  mouse := ⟨mouse, 0, 0⟩
  usbKeys := ⟨usbKeys, 0, 0⟩
  usbMouse := ⟨usbMouse, 0, 0⟩

/-- The devices at power on: the static variables have the values they are declared with. -/
def powerOn : Devices :=
  initial ⟨false, fun _ => 0, 0, 40, 12, false⟩ (fun _ => 0) (fun _ => noEvent) (fun _ => 0)
    (fun _ => Vector.replicate 4 0)

end CosKernel.Input
