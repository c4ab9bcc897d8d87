import CosKernel.Lib.Run

/-!
# The USB devices the kernel knows of (`usb.c`)

`usb_poll` looks at the status word of every port of the xHCI controller and
enters a port that has a device into the table `hid_devices`. The words come
from the hardware and may be anything at each poll.

Of `usb_initialize` only what it leaves for the polls is kept: whether a
controller was found, and its number of ports. The rings and the report queues
are no part of this, and neither are the log messages.
-/

namespace CosKernel.Usb

/-- `MAX_HID_DEVICES` -/
def maxHidDevices : Nat := 4

instance : NeZero maxHidDevices := ⟨by decide⟩

/-- `usb_hid_type_t` -/
inductive HidType where
  | none
  | keyboard
  | mouse
deriving DecidableEq, Repr

/-- `usb_hid_device_t` -/
structure HidDevice where
  attached : Bool
  slotId : UInt8
  address : UInt8
  type : HidType
  endpointAddress : UInt8
  maxPacketSize : UInt16
  interfaceNumber : UInt8
deriving DecidableEq, Repr

/-- The table `hid_devices`. -/
abbrev Table := Fin maxHidDevices → HidDevice

/-- The static variables of `usb.c` that the polls use. `xhciPorts` says that the pointer to
the port registers is not `NULL`. -/
structure UsbState where
  xhciReady : Bool
  xhciPorts : Bool
  maxPorts : UInt32
  hidDevices : Table

/-- The variables as the loader leaves them (`USB_HID_NONE` is 0). -/
def bss : UsbState where
  xhciReady := false
  xhciPorts := false
  maxPorts := 0
  hidDevices := fun _ =>
    { attached := false, slotId := 0, address := 0, type := .none, endpointAddress := 0,
      maxPacketSize := 0, interfaceNumber := 0 }

/-- What `pci_find_xhci_controller` finds: the base address and, there, `hcs_params1`. -/
structure Controller where
  bar0 : UInt32
  hcsParams1 : UInt32

/-- `usb_initialize`; `none` when there is no controller. -/
def usbInitialize (controller : Option Controller) (s : UsbState) : UsbState :=
  match controller with
  | none => s
  | some c =>
    if c.bar0 = 0 then s
    else { s with maxPorts := c.hcsParams1 &&& 0xFF, xhciPorts := true, xhciReady := true }

/-! ## The poll -/

/-- `(portsc & 1) != 0` -/
def connected (portsc : UInt32) : Bool := portsc &&& 1 != 0

/-- `((portsc >> 1) & 1) != 0` -/
def enabled (portsc : UInt32) : Bool := (portsc >>> 1) &&& 1 != 0

/-- The entry of this port, if there is one. -/
def findExisting (devices : Table) (port : Nat) : Option (Fin maxHidDevices) :=
  (List.finRange maxHidDevices).find? fun i =>
    (devices i).attached && decide ((devices i).address.toNat = port + 1)

/-- The first entry that is not attached. -/
def findFree (devices : Table) : Option (Fin maxHidDevices) :=
  (List.finRange maxHidDevices).find? fun i => !(devices i).attached

/-- The entry as it is filled in for a port. The first one is taken to be the keyboard. -/
def newDevice (i : Fin maxHidDevices) (port : Nat) : HidDevice where
  attached := true
  slotId := UInt8.ofNat (i.val + 1)
  address := UInt8.ofNat (port + 1)
  type := if i.val = 0 then .keyboard else .mouse
  endpointAddress := if i.val = 0 then 0x81 else 0x82
  maxPacketSize := 8
  interfaceNumber := 0

/-- The body of the loop for a port with a device. -/
def attachPort (devices : Table) (port : Nat) : Table :=
  match findExisting devices port with
  | some _ => devices
  | none =>
    match findFree devices with
    | some i => Function.update devices i (newDevice i port)
    | none => devices

/-- One turn of the loop of `usb_poll_hid_devices`: the table and `found`. -/
def pollPort (words : Nat → UInt32) (r : Table × Bool) (port : Nat) : Table × Bool :=
  if !connected (words port) || !enabled (words port) then r
  else (attachPort r.1 port, true)

/-- The ports of the loop: `port < max_ports && port < 256`. -/
def ports (s : UsbState) : List Nat := List.range (min s.maxPorts.toNat 256)

/-- `usb_poll_hid_devices` -/
def usbPollHidDevices (words : Nat → UInt32) (s : UsbState) : Bool × UsbState :=
  if !s.xhciReady || !s.xhciPorts then (false, s)
  else
    let r := (ports s).foldl (pollPort words) (s.hidDevices, false)
    (r.2, { s with hidDevices := r.1 })

/-- `usb_poll`, with the port status words it meets. -/
def usbPoll (s : UsbState) (words : Nat → UInt32) : UsbState :=
  if !s.xhciReady then s else (usbPollHidDevices words s).2

/-- The search of `usb_has_keyboard` and `usb_has_mouse`. -/
def hasDevice (type : HidType) (s : UsbState) : Bool :=
  (List.finRange maxHidDevices).any fun i =>
    (s.hidDevices i).attached && decide ((s.hidDevices i).type = type)

/-- `usb_has_keyboard` -/
def usbHasKeyboard (s : UsbState) : Bool := hasDevice .keyboard s

/-- `usb_has_mouse` -/
def usbHasMouse (s : UsbState) : Bool := hasDevice .mouse s

/-- The driver after boot, with the controller found or not. -/
def boot (controller : Option Controller) : UsbState := usbInitialize controller bss

end CosKernel.Usb
