import CosKernel.Lib.Bytes
import CosKernel.Lib.Search

/-!
# PCI (`pci_find_device` and `pci_find_class` in `audio.c`, `pci_find_xhci_controller` in `usb.c`)

The configuration space behind its two ports, and the three scanners. They are
the same loop (`pciScan`) over the first two buses: only what makes a function
match differs, and `usb.c` builds its addresses and its base address on its own.
-/

namespace CosKernel.Pci

open Search

/-- A configuration space: what the register of a function of a device on a bus holds. -/
abbrev ConfigSpace := UInt8 → UInt8 → UInt8 → UInt8 → UInt32

/-- `inl(PCI_CONFIG_DATA)` after `outl(PCI_CONFIG_ADDRESS, address)`: the host bridge takes the
address apart. -/
def configData (cs : ConfigSpace) (address : UInt32) : UInt32 :=
  if address &&& 0x80000000 = 0 then 0xFFFFFFFF
  else
    cs (address >>> 16).toUInt8 ((address >>> 11) &&& 0x1F).toUInt8 ((address >>> 8) &&& 0x07).toUInt8
      (address.toUInt8 &&& 0xFC)

/-- `pci_build_address` -/
def pciBuildAddress (bus device function offset : UInt8) : UInt32 :=
  (0x80000000 : UInt32) ||| bus.toUInt32 <<< 16 ||| device.toUInt32 <<< 11 ||| function.toUInt32 <<< 8 |||
    (offset.toUInt32 &&& 0xFC)

/-- `pci_read_config_dword` -/
def pciReadConfigDword (cs : ConfigSpace) (bus device function offset : UInt8) : UInt32 :=
  configData cs (pciBuildAddress bus device function offset)

/-- `pci_config_read`; here the offset is rounded down before it becomes a `uint32_t`. -/
def pciConfigRead (cs : ConfigSpace) (bus device function offset : UInt8) : UInt32 :=
  configData cs
    ((0x80000000 : UInt32) ||| bus.toUInt32 <<< 16 ||| device.toUInt32 <<< 11 ||| function.toUInt32 <<< 8 |||
      (offset &&& 0xFC).toUInt32)

/-- `pci_config_bar0` -/
def pciConfigBar0 (cs : ConfigSpace) (bus device function : UInt8) : UInt32 :=
  pciConfigRead cs bus device function 0x10 &&& ~~~0x0F

/-- `pci_device_t`, and `xhci_pci_device_t` with the same fields. -/
structure PciDevice where
  bus : UInt8
  device : UInt8
  function : UInt8
  vendorId : UInt16
  deviceId : UInt16
  baseClass : UInt8
  subclass : UInt8
  progIf : UInt8
  bar0 : UInt32
deriving DecidableEq, Repr

/-! ## The scanners -/

/-- The body of the scanners, for one function: `result` is what it stores in `out` if this function,
with the given vendor and device, is the one it looks for. -/
def scanTurn (read : UInt8 → UInt8 → UInt8 → UInt8 → UInt32)
    (result : UInt8 → UInt8 → UInt8 → UInt32 → Option PciDevice) (bus device function : UInt8) :
    Turn PciDevice :=
  let vendorDevice := read bus device function 0x00
  if vendorDevice.toUInt16 = 0xFFFF then
    if function = 0 then .leave else .next
  else
    match result bus device function vendorDevice with
    | some out => .found out
    | none =>
      let headerType := (read bus device function 0x0C >>> 16).toUInt8
      if function = 0 ∧ headerType &&& 0x80 = 0 then .leave else .next

/-- The three loops of the scanners. -/
def pciScan (turn : UInt8 → UInt8 → UInt8 → Turn PciDevice) : Option PciDevice :=
  search (fun bus =>
    .ofOption (search (fun device =>
      .ofOption (search (fun function =>
        turn (.ofNat bus) (.ofNat device) (.ofNat function)) 8)) 32)) 2

/-- `pci_find_device`, with an `out` to fill. -/
def pciFindDevice (cs : ConfigSpace) (vendorId deviceId : UInt16) : Option PciDevice :=
  pciScan (scanTurn (pciReadConfigDword cs) fun bus device function vendorDevice =>
    let vendor := vendorDevice.toUInt16
    let deviceIdRaw := (vendorDevice >>> 16).toUInt16
    if vendor = vendorId ∧ deviceIdRaw = deviceId then
      let classCode := pciReadConfigDword cs bus device function 0x08
      some
        { bus := bus
          device := device
          function := function
          vendorId := vendor
          deviceId := deviceIdRaw
          baseClass := (classCode >>> 24).toUInt8
          subclass := (classCode >>> 16).toUInt8
          progIf := (classCode >>> 8).toUInt8
          bar0 := ((pciReadConfigDword cs bus device function 0x10).toUInt64 &&& ~~~0x0F).toUInt32 }
    else none)

/-- `pci_find_class`, with an `out` to fill. -/
def pciFindClass (cs : ConfigSpace) (classCode subclass progIf : UInt8) : Option PciDevice :=
  pciScan (scanTurn (pciReadConfigDword cs) fun bus device function vendorDevice =>
    let classCodeReg := pciReadConfigDword cs bus device function 0x08
    let baseClass := (classCodeReg >>> 24).toUInt8
    let subClass := (classCodeReg >>> 16).toUInt8
    let progInterface := (classCodeReg >>> 8).toUInt8
    if baseClass = classCode ∧ subClass = subclass ∧ progInterface = progIf then
      some
        { bus := bus
          device := device
          function := function
          vendorId := vendorDevice.toUInt16
          deviceId := (vendorDevice >>> 16).toUInt16
          baseClass := baseClass
          subclass := subClass
          progIf := progInterface
          bar0 := ((pciReadConfigDword cs bus device function 0x10).toUInt64 &&& ~~~0x0F).toUInt32 }
    else none)

def xhciPciClassSerialBus : UInt8 := 0x0C
def xhciPciSubclassUsb : UInt8 := 0x03
def xhciPciProgifXhci : UInt8 := 0x30

/-- `pci_find_xhci_controller` -/
def pciFindXhciController (cs : ConfigSpace) : Option PciDevice :=
  pciScan (scanTurn (pciConfigRead cs) fun bus device function vendorDevice =>
    let classCode := pciConfigRead cs bus device function 0x08
    let progIf := (classCode >>> 8).toUInt8
    let subclass := (classCode >>> 16).toUInt8
    let baseClass := (classCode >>> 24).toUInt8
    if baseClass = xhciPciClassSerialBus ∧ subclass = xhciPciSubclassUsb ∧ progIf = xhciPciProgifXhci then
      some
        { bus := bus
          device := device
          function := function
          vendorId := vendorDevice.toUInt16
          deviceId := (vendorDevice >>> 16).toUInt16
          baseClass := baseClass
          subclass := subclass
          progIf := progIf
          bar0 := pciConfigBar0 cs bus device function }
    else none)

end CosKernel.Pci
