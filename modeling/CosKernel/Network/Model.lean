import CosKernel.Lib.Bytes

/-!
# The network stack (`network.c`): DHCP

A pointer to the rest of a packet, together with its length, is the list of the
bytes that are left; adding to the pointer drops bytes. All reads are checked: a
read outside of the packet makes the result `none`.
-/

namespace CosKernel.Network

open Bytes

/-! ## State -/

/-- The variables of the module that these functions read or write. -/
structure NetworkT where
  localMac : Vector UInt8 6
  localIp : UInt32
  localNetmask : UInt32
  localGateway : UInt32
  dhcpServerIp : UInt32
  dhcpTransactionId : UInt32
  dhcpAcquired : Bool
deriving DecidableEq, Repr

/-- Their initial values. -/
def networkState : NetworkT where
  localMac := Vector.replicate 6 0
  localIp := 0
  localNetmask := 0
  localGateway := 0
  dhcpServerIp := 0
  dhcpTransactionId := 0x393047
  dhcpAcquired := false

def ipProtoUdp : UInt8 := 17
def dhcpClientPort : UInt16 := 68
def dhcpServerPort : UInt16 := 67
def dhcpOpRequest : UInt8 := 1
def dhcpOptMessageType : UInt8 := 53
def dhcpOptServerId : UInt8 := 54
def dhcpOptSubnetMask : UInt8 := 1
def dhcpOptRouter : UInt8 := 3
def dhcpOptEnd : UInt8 := 255

/-! ## Sending -/

/-- `build_dhcp_discover`: the buffer and `*length`. -/
def buildDhcpDiscover (s : NetworkT) (buffer : List UInt8) : List UInt8 × Nat :=
  let buffer := storeFrom buffer 0 (List.replicate 240 0)
  let buffer := storeFrom buffer 0 [dhcpOpRequest, 1, 6, 0]
  let buffer := storeFrom buffer 4 (be32 s.dhcpTransactionId)
  let buffer := storeFrom buffer 8 (List.replicate 8 0)
  let buffer := storeFrom buffer 28 s.localMac.toList
  let buffer := storeFrom buffer 236 [0x63, 0x82, 0x53, 0x63]
  let buffer := storeFrom buffer 240 [dhcpOptMessageType, 1, 1, dhcpOptEnd]
  (buffer, 244)

/-! ## Receiving -/

/-- `parse_ipv4_address` -/
def parseIpv4Address (bytes : List UInt8) : Option UInt32 := be32At bytes 0

/-- The `switch` of `parse_dhcp_options`; `value` is the rest of the packet from the value on. -/
def switchOption (opt optLen : UInt8) (value : List UInt8) (s : NetworkT) : Option NetworkT :=
  if opt = dhcpOptMessageType then
    if 1 ≤ optLen then do
      if (← value[0]?) = 2 then return { s with dhcpAcquired := true } else return s
    else return s
  else if opt = dhcpOptSubnetMask then
    if optLen = 4 then do return { s with localNetmask := ← parseIpv4Address value } else return s
  else if opt = dhcpOptRouter then
    if 4 ≤ optLen then do return { s with localGateway := ← parseIpv4Address value } else return s
  else if opt = dhcpOptServerId then
    if optLen = 4 then do return { s with dhcpServerIp := ← parseIpv4Address value } else return s
  else return s

/-- The loop of `parse_dhcp_options`. -/
def parseDhcpOptionsFrom (options : List UInt8) (offset : Nat) (s : NetworkT) : Option NetworkT :=
  if offset + 2 ≤ options.length then do
    let opt ← options[offset]?
    if opt = dhcpOptEnd then return s
    else if opt = 0 then parseDhcpOptionsFrom options (offset + 1) s
    else
      let optLen ← options[offset + 1]?
      if offset + 2 + optLen.toNat > options.length then return s
      else
        let s ← switchOption opt optLen (options.drop (offset + 2)) s
        parseDhcpOptionsFrom options (offset + (2 + optLen.toNat)) s
  else return s
termination_by options.length - offset

/-- `parse_dhcp_options` -/
def parseDhcpOptions (options : List UInt8) (s : NetworkT) : Option NetworkT :=
  parseDhcpOptionsFrom options 0 s

/-- `network_handle_dhcp_offer` -/
def networkHandleDhcpOffer (packet : List UInt8) (s : NetworkT) : Option NetworkT :=
  if packet.length < 248 then return s
  else do
    let xid ← be32At packet 4
    if xid ≠ s.dhcpTransactionId then return s
    else
      let s := { s with localIp := ← parseIpv4Address (packet.drop 24) }
      parseDhcpOptions (packet.drop 248) s

/-- `network_handle_ip` -/
def networkHandleIp (frame : List UInt8) (s : NetworkT) : Option NetworkT :=
  if frame.length < 20 then return s
  else do
    let protocol ← frame[9]?
    let destIp ← parseIpv4Address (frame.drop 16)
    if destIp ≠ s.localIp ∧ destIp ≠ 0xFFFFFFFF then return s
    else if protocol = ipProtoUdp ∧ 28 ≤ frame.length then
      let srcPort ← be16At frame 20
      let destPort ← be16At frame 22
      if destPort = dhcpClientPort ∧ srcPort = dhcpServerPort then
        networkHandleDhcpOffer (frame.drop 20) s
      else return s
    else return s

end CosKernel.Network
