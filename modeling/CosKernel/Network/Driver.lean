import CosKernel.Lib.Buffer
import CosKernel.Network.Model

/-!
# The network stack (`network.c`): the RTL8139 and ARP

The transmit buffers and the registers of the card are part of the state. The card
sends when `TxStatus` is written: the first `TxStatus` bytes of what `TxAddr` points
to. What it shows when it is read (the receive buffer, `CurR` and `CapR`) is an
argument, as it may change at any time.
-/

namespace CosKernel.Network

open Bytes

/-! ## State -/

abbrev rxBufferSize : Nat := 8192 + 16 + 1500
abbrev txBufferSize : Nat := 2048
abbrev txDescCount : Nat := 4

def ethPIp : UInt16 := 0x0800
def ethPArp : UInt16 := 0x0806
def arpOperRequest : UInt16 := 0x0001
def arpOperReply : UInt16 := 0x0002

/-- A hardware address. -/
abbrev Mac := Vector UInt8 6

/-- The variables of the driver and the registers of the card. A register `TxAddr` holds the number
of the buffer whose physical address was written to it. -/
structure DriverT extends NetworkT where
  arpPeerMac : Mac
  arpPeerIp : UInt32
  txBuffers : Vector (Vector UInt8 txBufferSize) txDescCount
  txIndex : Fin txDescCount
  txAddr : Vector (Option (Fin txDescCount)) txDescCount
  txStatus : Vector UInt32 txDescCount
  capR : UInt16
  /-- The frames that the card has sent. -/
  sent : List (List UInt8)
deriving DecidableEq, Repr

/-- The state after a reset. -/
def driverState : DriverT where
  toNetworkT := networkState
  arpPeerMac := Vector.replicate 6 0
  arpPeerIp := 0
  txBuffers := Vector.replicate txDescCount (Vector.replicate txBufferSize 0)
  txIndex := 0
  txAddr := Vector.replicate txDescCount none
  txStatus := Vector.replicate txDescCount 0
  capR := 0xFFF0
  sent := []

/-! ## Sending -/

/-- The card: the frame that a descriptor describes is sent. -/
def transmit (i : Fin txDescCount) (s : DriverT) : DriverT :=
  match s.txAddr[i] with
  | none => s
  | some k => { s with sent := s.sent ++ [s.txBuffers[k].toList.take s.txStatus[i].toNat] }

/-- The writes to the registers in `rtl8139_send_frame`, and the step to the next buffer. -/
def startTransmit (payloadLen : Nat) (s : DriverT) : DriverT :=
  let s := { s with txAddr := s.txAddr.set s.txIndex (some s.txIndex) }
  let s := { s with txStatus := s.txStatus.set s.txIndex (UInt32.ofNat payloadLen) }
  let currentIndex := s.txIndex
  { transmit currentIndex s with txIndex := currentIndex + 1 }

/-- `rtl8139_send_frame`. It waits for the card, but not forever, and returns `true` in the end. -/
def rtl8139SendFrame (destMac : Mac) (ethertype : UInt16) (payload : List UInt8) (s : DriverT) :
    Option (Bool × DriverT) :=
  if payload.length + 14 > txBufferSize then return (false, s)
  else do
    let frame := s.txBuffers[s.txIndex]
    let frame ← store frame 0 destMac.toList
    let frame ← store frame 6 s.localMac.toList
    let frame ← store frame 12 (be16 ethertype)
    let frame ← store frame 14 payload
    let s := { s with txBuffers := s.txBuffers.set s.txIndex frame }
    return (true, startTransmit payload.length s)

/-- `write_eth_header` -/
def writeEthHeader {n : Nat} (buffer : Vector UInt8 n) (destMac : Mac) (ethertype : UInt16)
    (s : DriverT) : Option (Vector UInt8 n) := do
  let buffer ← store buffer 0 destMac.toList
  let buffer ← store buffer 6 s.localMac.toList
  store buffer 12 (be16 ethertype)

/-- `mac_copy`, from what a pointer leads to. -/
def macAt (bytes : List UInt8) (off : Nat) : Option Mac := do
  return #v[← bytes[off]?, ← bytes[off + 1]?, ← bytes[off + 2]?, ← bytes[off + 3]?,
    ← bytes[off + 4]?, ← bytes[off + 5]?]

/-- `write_arp_request` -/
def writeArpRequest {n : Nat} (buffer : Vector UInt8 n) (targetIp : UInt32) (s : DriverT) :
    Option (Vector UInt8 n) := do
  let buffer ← store buffer 0 (List.replicate 6 0xFF)
  let buffer ← store buffer 6 s.localMac.toList
  let buffer ← store buffer 12 [0x08, 0x06]
  let buffer ← store buffer 14 [0x00, 0x01, 0x08, 0x00, 0x06, 0x04, 0x00, 0x01]
  let buffer ← store buffer 22 s.localMac.toList
  let buffer ← store buffer 28 [0, 0, 0, 0]
  let buffer ← store buffer 32 (be32 targetIp)
  let buffer ← store buffer 36 (List.replicate 6 0)
  store buffer 42 [0, 0, 0, 0, 0, 0]

/-- `send_arp_request`. The array is on the stack and holds anything at first. -/
def sendArpRequest (packet : Vector UInt8 60) (targetIp : UInt32) (s : DriverT) :
    Option DriverT := do
  let packet ← writeArpRequest packet targetIp s
  let result ← rtl8139SendFrame (← macAt packet.toList 0) ethPArp (← load packet.toList 14 46) s
  return result.2

/-- `send_arp_reply` -/
def sendArpReply (packet : Vector UInt8 60) (targetMac : Mac) (targetIp : UInt32) (s : DriverT) :
    Option DriverT := do
  let packet ← writeEthHeader packet targetMac ethPArp s
  let packet ← store packet 14 [0x00, 0x02, 0x08, 0x00, 0x06, 0x04, 0x00, 0x02]
  let packet ← store packet 22 s.localMac.toList
  let packet ← store packet 28 targetMac.toList
  let packet ← store packet 34 (be32 s.localIp)
  let packet ← store packet 38 (be32 targetIp)
  let packet ← store packet 42 (List.replicate 18 0)
  let result ← rtl8139SendFrame targetMac ethPArp (← load packet.toList 14 46) s
  return result.2

/-! ## Receiving -/

/-- `network_handle_arp`. The array is the one of `send_arp_reply`. -/
def networkHandleArp (packet : Vector UInt8 60) (frame : List UInt8) (s : DriverT) :
    Option DriverT :=
  if frame.length < 42 then return s
  else do
    let arp := frame.drop 14
    let oper ← be16At arp 6
    let srcIp ← parseIpv4Address (arp.drop 14)
    let targetIp ← parseIpv4Address (arp.drop 24)
    let s ←
      if oper = arpOperRequest ∧ targetIp = s.localIp then
        sendArpReply packet (← macAt arp 8) srcIp s
      else some s
    if oper = arpOperReply then
      return { s with arpPeerMac := ← macAt arp 8, arpPeerIp := srcIp }
    else return s

/-- What the card shows to one call of `rtl8139_receive_packet`. -/
structure Rx where
  rxBuffer : Vector UInt8 rxBufferSize
  curR : UInt16
  capR : UInt16
deriving DecidableEq, Repr

/-- What such a call leaves behind: the caller's buffer, `*out_len` when it returns `true`, and
what it wrote to `CapR`, if anything. -/
structure Received (n : Nat) where
  buffer : Vector UInt8 n
  outLen : Option Nat
  capR : Option UInt16
deriving DecidableEq, Repr

/-- `rtl8139_receive_packet`. It reads `CurR` and makes no use of it. -/
def rtl8139ReceivePacket {n : Nat} (rx : Rx) (buffer : Vector UInt8 n) : Option (Received n) := do
  let rxBuffer := rx.rxBuffer.toList
  let boundary := if rx.capR = 0 then 0x3F8 else rx.capR
  let offset := (boundary + 16) &&& 0xFFF8
  let offset := if offset.toNat ≥ rxBufferSize then 0 else offset
  let status ← le16At rxBuffer offset.toNat
  if status &&& 0x01 = 0 then return ⟨buffer, none, none⟩
  else
    let length ← le16At rxBuffer (offset.toNat + 2)
    if length > 1500 ∨ offset.toNat + 4 + length.toNat > rxBufferSize then
      return ⟨buffer, none, some ((offset - 16) &&& 0xFFF8)⟩
    else
      let buffer ← store buffer 0 (← load rxBuffer (offset.toNat + 4) length.toNat)
      let next := offset + length + 4
      let next := (next + 3) &&& ~~~3
      let next := if next.toNat ≥ rxBufferSize then 0 else next
      return ⟨buffer, some length.toNat, some ((next - 16) &&& 0xFFF8)⟩

/-- What `rtl8139_process_rx` does with a packet. -/
def processPacket (stack : Vector UInt8 60) (packet : List UInt8) (s : DriverT) : Option DriverT :=
  if packet.length < 14 then return s
  else do
    let ethertype ← be16At packet 12
    if ethertype = ethPArp then networkHandleArp stack packet s
    else if ethertype = ethPIp then
      return { s with toNetworkT := ← networkHandleIp (packet.drop 14) s.toNetworkT }
    else return s

/-- One turn of the loop of `rtl8139_process_rx`, and whether the loop goes on. -/
def processRxStep (stack : Vector UInt8 60) (rx : Rx) (packet : Vector UInt8 1514) (s : DriverT) :
    Option (Bool × Vector UInt8 1514 × DriverT) := do
  let received ← rtl8139ReceivePacket rx packet
  let s := { s with capR := received.capR.getD s.capR }
  match received.outLen with
  | none => return (false, received.buffer, s)
  | some packetLen =>
    let s ← processPacket stack (received.buffer.toList.take packetLen) s
    return (true, received.buffer, s)

/-- `rtl8139_process_rx`, with what the card shows in each turn; the list may end before the loop
does. -/
def rtl8139ProcessRx (stack : Vector UInt8 60) :
    List Rx → Vector UInt8 1514 → DriverT → Option DriverT
  | [], _, s => some s
  | rx :: rest, packet, s => do
    let (again, packet, s) ← processRxStep stack rx packet s
    if again then rtl8139ProcessRx stack rest packet s else return s

end CosKernel.Network
