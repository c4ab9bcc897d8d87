import CosKernel.Network.Driver

/-!
# The network stack (`network.c`): `network_initialize`

Everything the function meets is an argument: what `pci_find_device` finds, the
address the card has, what is in the arrays on the stack, and what the card shows
to each call of `rtl8139_process_rx`. The calls of that function are numbered
through the three loops.
-/

namespace CosKernel.Network

open Bytes

/-! ## IP packets -/

/-- The words of a buffer, low byte first, and a last single byte. -/
def wordSum : List UInt8 → Nat
  | a :: b :: rest => a.toNat + 256 * b.toNat + wordSum rest
  | [a] => a.toNat
  | [] => 0

/-- The loop of `checksum16` that adds the carries. -/
def addCarries (sum : Nat) : Nat :=
  if sum / 0x10000 = 0 then sum else addCarries (sum % 0x10000 + sum / 0x10000)
termination_by sum
decreasing_by omega

/-- `checksum16`; its sum has 32 bits, which an IP header does not fill. -/
def checksum16 (data : List UInt8) : UInt16 := ~~~UInt16.ofNat (addCarries (wordSum data))

/-- `write_ip_header`, at an offset of an array. -/
def writeIpHeader {n : Nat} (buffer : Vector UInt8 n) (off : Nat) (totalLength : UInt16)
    (protocol : UInt8) (srcIp destIp : UInt32) : Option (Vector UInt8 n) := do
  let buffer ← store buffer off ([0x45, 0x00] ++ be16 totalLength ++
    [0x00, 0x00, 0x40, 0x00, 64, protocol, 0, 0] ++ be32 srcIp ++ be32 destIp)
  let checksum := checksum16 (← load buffer.toList off 20)
  store buffer (off + 10) (be16 checksum)

/-- `network_send_dhcp_packet` -/
def networkSendDhcpPacket (ipPacket : Vector UInt8 1514) (data : List UInt8) (s : DriverT) :
    Option (Bool × DriverT) := do
  let udpLen := 8 + data.length
  let ipPacket ← writeEthHeader ipPacket (Vector.replicate 6 0xFF) ethPIp s
  let ipPacket ← writeIpHeader ipPacket 14 (UInt16.ofNat (20 + udpLen)) ipProtoUdp 0 0xFFFFFFFF
  let ipPacket ← store ipPacket 34
    (be16 dhcpClientPort ++ be16 dhcpServerPort ++ be16 (UInt16.ofNat udpLen) ++ [0, 0])
  let ipPacket ← store ipPacket 42 data
  rtl8139SendFrame (← macAt ipPacket.toList 0) ethPIp (← load ipPacket.toList 14 (20 + udpLen)) s

/-! ## DHCP -/

def dhcpOptRequestedIp : UInt8 := 50

/-- `build_dhcp_request`: the type of the message, at 242, is overwritten. -/
def buildDhcpRequest (s : NetworkT) (buffer : List UInt8) : List UInt8 × Nat :=
  let buffer := (buildDhcpDiscover s buffer).1
  let buffer := storeFrom buffer 242 [dhcpOptRequestedIp, 4]
  let buffer := storeFrom buffer 244 (be32 s.localIp)
  let buffer := storeFrom buffer 248 [dhcpOptServerId, 4]
  let buffer := storeFrom buffer 250 (be32 s.dhcpServerIp)
  let buffer := storeFrom buffer 254 [dhcpOptEnd]
  (buffer, 255)

/-- The arrays on the stack when a DHCP message is sent. -/
structure SendArrays where
  packet : Vector UInt8 300
  ipPacket : Vector UInt8 1514

/-- What one call of `rtl8139_process_rx` meets: the array of `send_arp_reply`, its own array, and
what the card shows in each turn. -/
structure Poll where
  stack : Vector UInt8 60
  packet : Vector UInt8 1514
  seen : List Rx

/-- The call. -/
def Poll.run (p : Poll) (s : DriverT) : Option DriverT := rtl8139ProcessRx p.stack p.seen p.packet s

/-- The loop after the request. -/
def pollAll (polls : Nat → Poll) : Nat → Nat → DriverT → Option DriverT
  | 0, _, s => some s
  | left + 1, k, s => do
    let s ← (polls k).run s
    pollAll polls left (k + 1) s

/-! ## `network_initialize` -/

/-- What the function meets. -/
structure Surroundings where
  /-- `bar0` of the card, if there is one. -/
  device : Option UInt32
  mac : Mac
  /-- The arrays in each of the calls that send. -/
  arrays : Nat → SendArrays
  polls : Nat → Poll

/-- The variables of the module, with the two that only `network_initialize` writes. -/
structure ModuleT extends DriverT where
  ioBase : UInt16
  networkReady : Bool

/-- The base address that `bar0` gives. -/
def ioBaseOf (bar0 : UInt32) : UInt16 := (bar0 &&& ~~~3).toUInt16

end CosKernel.Network
