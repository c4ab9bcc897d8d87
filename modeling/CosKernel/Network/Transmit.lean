import CosKernel.Network.Arp
import CosKernel.Network.Checksum

/-!
# What goes out

`rtl8139_send_frame` builds a whole Ethernet frame in the transmit buffer and writes
the length of the payload to `TxStatus`, so the card leaves out the last 14 bytes of
every frame. The buffer itself is right: for `network_send_dhcp_packet` it holds the
payload inside of UDP, IPv4 and Ethernet.
-/

namespace CosKernel.Network

open Bytes

/-! ## The length of a frame -/

/-- What the card sends for a descriptor: as many bytes as `TxStatus` says, from `TxAddr` on. -/
def described (i : Fin txDescCount) (s : DriverT) : Option (List UInt8) :=
  (s.txAddr.get i).map fun k => (s.txBuffers.get k).toList.take (s.txStatus.get i).toNat

/-- A payload that fits is sent in a whole frame, and any other is refused without a change. -/
structure SendsWhole (destMac : Mac) (ethertype : UInt16) (payload : List UInt8) (s : DriverT) : Prop where
  whole : payload.length + 14 ≤ txBufferSize → ∃ s',
    rtl8139SendFrame destMac ethertype payload s = some (true, s') ∧
      described s.txIndex s' = some (ethernetFrame destMac s.localMac ethertype payload)
  refused : txBufferSize < payload.length + 14 →
    rtl8139SendFrame destMac ethertype payload s = some (false, s)

/-- A payload that fits goes out without the end of its frame. -/
theorem described_rtl8139SendFrame {payload : List UInt8} (h : payload.length + 14 ≤ txBufferSize)
    (destMac : Mac) (ethertype : UInt16) (s : DriverT) :
    ∃ s', rtl8139SendFrame destMac ethertype payload s = some (true, s') ∧
      described s.txIndex s' =
        some ((ethernetFrame destMac s.localMac ethertype payload).take payload.length) := by
  rcases rtl8139SendFrame_left h destMac ethertype s with ⟨frame, hframe, hsend⟩
  refine ⟨_, hsend, ?_⟩
  have haddr : (s.txAddr.set s.txIndex (some s.txIndex)).get s.txIndex = some s.txIndex :=
    Vector.getElem_set_self _
  have hbuffer : (s.txBuffers.set s.txIndex frame).get s.txIndex = frame := Vector.getElem_set_self _
  have hset : (s.txStatus.set s.txIndex (UInt32.ofNat payload.length)).get s.txIndex =
      UInt32.ofNat payload.length := Vector.getElem_set_self _
  have hstatus : (UInt32.ofNat payload.length).toNat = payload.length := by
    have : payload.length + 14 ≤ 2048 := h
    exact UInt32.toNat_ofNat_of_lt' (by simp only [UInt32.size]; omega)
  have hlen := length_ethernetFrame destMac s.localMac ethertype payload
  simp only [described, haddr, Option.map_some, hbuffer, hset, hstatus, hframe]
  rw [List.take_append_of_le_length (by omega)]

/-- No frame is sent as a whole, so this holds just for the payloads that are refused. -/
theorem sends_whole_iff (destMac : Mac) (ethertype : UInt16) (payload : List UInt8) (s : DriverT) :
    SendsWhole destMac ethertype payload s ↔ txBufferSize < payload.length + 14 := by
  constructor
  · intro hsends
    by_contra hlong
    have hfits : payload.length + 14 ≤ txBufferSize := Nat.not_lt.1 hlong
    rcases hsends.whole hfits with ⟨s', hsend, hwhole⟩
    rcases described_rtl8139SendFrame hfits destMac ethertype s with ⟨s'', hsend', hcut⟩
    obtain rfl : s'' = s' := by
      have hsame := hsend'.symm.trans hsend
      simpa using hsame
    -- the two frames would have the same length
    have hlen := congrArg (Option.map List.length) (hcut.symm.trans hwhole)
    simp only [Option.map_some, Option.some.injEq, List.length_take, length_ethernetFrame] at hlen
    omega
  · intro hlong
    refine ⟨?_, ?_⟩
    · intro hfits
      omega
    · intro _
      rw [rtl8139SendFrame, if_pos hlong]
      rfl

/-- A frame of 17 bytes is sent as one of 3. -/
theorem short_frame_cut :
    (rtl8139SendFrame broadcast ethPIp [1, 2, 3] driverState).map (fun r => described 0 r.2) =
        some (some [0xFF, 0xFF, 0xFF]) ∧
      ¬ SendsWhole broadcast ethPIp [1, 2, 3] driverState := by
  have hfits : ([1, 2, 3] : List UInt8).length + 14 ≤ txBufferSize := by decide
  rcases described_rtl8139SendFrame hfits broadcast ethPIp driverState with ⟨s', hsend, hcut⟩
  refine ⟨?_, ?_⟩
  · rw [hsend, Option.map_some]
    exact congrArg some hcut
  · intro hsends
    rcases hsends.whole hfits with ⟨s'', hsend', hwhole⟩
    rw [hsend] at hsend'
    cases hsend'
    rw [hcut] at hwhole
    revert hwhole
    decide

/-! ## DHCP messages -/

/-- A UDP datagram without a checksum. -/
def udpDatagram (srcPort destPort : UInt16) (data : List UInt8) : List UInt8 :=
  be16 srcPort ++ (be16 destPort ++ (be16 (UInt16.ofNat (8 + data.length)) ++ ([0, 0] ++ data)))

/-- A broadcast packet from a client without an address. -/
def dhcpPacket (data : List UInt8) : List UInt8 :=
  ipHeader (UInt16.ofNat (20 + (8 + data.length))) ipProtoUdp 0 0xFFFFFFFF
    (checksum16 (ipHeader (UInt16.ofNat (20 + (8 + data.length))) ipProtoUdp 0 0xFFFFFFFF 0)) ++
    udpDatagram dhcpClientPort dhcpServerPort data

theorem length_dhcpPacket (data : List UInt8) : (dhcpPacket data).length = 28 + data.length := by
  simp [dhcpPacket, udpDatagram]
  omega

/-- The three stores of `write_eth_header` are one. -/
theorem writeEthHeader_eq {n : Nat} (buffer : Vector UInt8 n) (destMac : Mac) (ethertype : UInt16)
    (s : DriverT) :
    writeEthHeader buffer destMac ethertype s =
      store buffer 0 (ethernetFrame destMac s.localMac ethertype []) := by
  rw [writeEthHeader, store_store_bind (by simp), store_store (by simp)]
  simp [ethernetFrame]

/-- A DHCP message is put into a packet and sent in a frame, inside of all arrays. -/
theorem networkSendDhcpPacket_eq (ipPacket : Vector UInt8 1514) {data : List UInt8}
    (hdata : data.length ≤ 1472) (s : DriverT) :
    networkSendDhcpPacket ipPacket data s = rtl8139SendFrame broadcast ethPIp (dhcpPacket data) s := by
  -- the header of the frame, that of the packet, that of the datagram, and the message
  have heth : (ethernetFrame broadcast s.localMac ethPIp []).length = 14 := length_ethernetFrame ..
  rcases store_zero_spec (by rw [heth]; decide :
    (ethernetFrame broadcast s.localMac ethPIp []).length ≤ 1514) ipPacket with ⟨b₁, h₁, hbytes₁⟩
  rcases writeIpHeader_spec (UInt16.ofNat (20 + (8 + data.length))) ipProtoUdp 0 0xFFFFFFFF
    (by decide : 14 + 20 ≤ 1514) b₁ with ⟨b₂, h₂, hbytes₂⟩
  rw [hbytes₁, List.take_left' heth, ← List.append_assoc] at hbytes₂
  rcases store_append_spec hbytes₂ (by rw [List.length_append, heth, length_ipHeader])
    (by simp : 34 + (be16 dhcpClientPort ++ be16 dhcpServerPort ++
      be16 (UInt16.ofNat (8 + data.length)) ++ [0, 0]).length ≤ 1514) with ⟨b₃, h₃, hbytes₃⟩
  rw [← List.append_assoc] at hbytes₃
  rcases store_append_spec hbytes₃ (by simp [heth]) (by omega : 42 + data.length ≤ 1514) with
    ⟨b₄, h₄, hbytes₄⟩
  generalize hrest : List.drop data.length _ = rest at hbytes₄
  have hframe : b₄.toList = ethernetFrame broadcast s.localMac ethPIp (dhcpPacket data ++ rest) := by
    rw [hbytes₄]
    simp [ethernetFrame, dhcpPacket, udpDatagram]
  have hmac : macAt b₄.toList 0 = some broadcast := by
    rw [hframe]
    exact macAt_append (rfl : ([] : List UInt8).length = 0) broadcast _
  have hlen := length_dhcpPacket data
  have hload : load b₄.toList 14 (20 + (8 + data.length)) = some (dhcpPacket data) := by
    rw [load_eq (by rw [Vector.length_toList]; omega), hframe, drop_ethernetFrame,
      List.take_left' (by omega)]
  have hbroadcast : (Vector.replicate 6 0xFF : Mac) = broadcast := rfl
  simp only [networkSendDhcpPacket, hbroadcast, writeEthHeader_eq, h₁, h₂, h₃, h₄, hmac, hload,
    Option.bind_eq_bind, Option.bind_some]

/-- What a receiver reads from the bytes of a frame that carries a DHCP message. -/
structure CarriesDhcp (frame : List UInt8) (mac : Mac) (data : List UInt8) : Prop where
  destMac : macAt frame 0 = some broadcast
  srcMac : macAt frame 6 = some mac
  ethertype : be16At frame 12 = some 0x0800
  version : frame[14]? = some 0x45
  totalLength : (be16At frame 16).map UInt16.toNat = some (28 + data.length)
  protocol : frame[23]? = some 17
  srcIp : be32At frame 26 = some 0
  destIp : be32At frame 30 = some 0xFFFFFFFF
  srcPort : be16At frame 34 = some 68
  destPort : be16At frame 36 = some 67
  udpLength : (be16At frame 38).map UInt16.toNat = some (8 + data.length)
  data : (frame.drop 42).take data.length = data

/-- The fields of the frame are found at their offsets, whatever stands behind it. -/
theorem carriesDhcp_frame (mac : Mac) {data : List UInt8} (hdata : data.length ≤ 1472) (rest : List UInt8) :
    CarriesDhcp (ethernetFrame broadcast mac ethPIp (dhcpPacket data) ++ rest) mac data := by
  have htotal : (UInt16.ofNat (20 + (8 + data.length))).toNat = 28 + data.length := by
    rw [UInt16.toNat_ofNat_of_lt' (by simp only [UInt16.size]; omega)]
    omega
  have hudp : (UInt16.ofNat (8 + data.length)).toNat = 8 + data.length :=
    UInt16.toNat_ofNat_of_lt' (by simp only [UInt16.size]; omega)
  unfold dhcpPacket
  generalize UInt16.ofNat (20 + (8 + data.length)) = totalLength at *
  generalize checksum16 _ = checksum
  unfold udpDatagram
  generalize UInt16.ofNat (8 + data.length) = udpLength at *
  obtain ⟨⟨bytes⟩, hbytes⟩ := mac
  match bytes, hbytes with
  | [a, b, c, d, e, f], _ =>
    refine ⟨rfl, rfl, rfl, rfl, ?_, rfl, rfl, rfl, rfl, rfl, ?_, ?_⟩
    · rw [← htotal]
      exact congrArg (some ∘ UInt16.toNat) (join_be16 totalLength)
    · rw [← hudp]
      exact congrArg (some ∘ UInt16.toNat) (join_be16 udpLength)
    · show (data ++ rest).take data.length = data
      exact List.take_left

/-- A DHCP message of up to 1472 bytes is left in the transmit buffer inside of UDP, IPv4 and Ethernet,
without a store outside of an array, and the other buffers stay as they are. -/
theorem dhcp_packet_encapsulated (ipPacket : Vector UInt8 1514) {data : List UInt8}
    (hdata : data.length ≤ 1472) (s : DriverT) :
    ∃ s', networkSendDhcpPacket ipPacket data s = some (true, s') ∧
      CarriesDhcp (s'.txBuffers.get s.txIndex).toList s.localMac data ∧
      ∀ k ≠ s.txIndex, s'.txBuffers.get k = s.txBuffers.get k := by
  have hfits : (dhcpPacket data).length + 14 ≤ txBufferSize := by
    rw [length_dhcpPacket]
    show _ ≤ 2048
    omega
  rcases rtl8139SendFrame_left hfits broadcast ethPIp s with ⟨frame, hframe, hsend⟩
  rw [← networkSendDhcpPacket_eq ipPacket hdata] at hsend
  refine ⟨_, hsend, ?_, ?_⟩
  · have hbuffer : (s.txBuffers.set s.txIndex frame).get s.txIndex = frame := Vector.getElem_set_self _
    simp only [hbuffer, hframe]
    exact carriesDhcp_frame s.localMac hdata _
  · intro k hk
    have hne : s.txIndex.val ≠ k.val := fun heq => hk (Fin.ext heq.symm)
    exact Vector.getElem_set_ne s.txIndex.isLt k.isLt hne

/-- A message of three bytes. -/
theorem dhcp_packet_encapsulated_three :
    ∃ s', networkSendDhcpPacket (Vector.replicate 1514 0) [1, 2, 3] driverState = some (true, s') ∧
      CarriesDhcp (s'.txBuffers.get driverState.txIndex).toList driverState.localMac [1, 2, 3] := by
  rcases dhcp_packet_encapsulated (Vector.replicate 1514 0)
    (by decide : ([1, 2, 3] : List UInt8).length ≤ 1472) driverState with ⟨s', hsend, hcarries, -⟩
  exact ⟨s', hsend, hcarries⟩

end CosKernel.Network
