import CosKernel.Network.Arp
import CosKernel.Network.Dhcp

/-!
# The receive path is memory-safe

Whatever the card shows and whatever is in the packets, no read or write of
`rtl8139_receive_packet` is outside of its arrays, and the functions that get a
packet read no byte at or after its length.
-/

namespace CosKernel.Network

open Bytes

/-! ## Receiving a packet -/

/-- Where `rtl8139_receive_packet` reads. -/
def rxOffset (capR : UInt16) : UInt16 :=
  let boundary := if capR = 0 then 0x3F8 else capR
  let offset := (boundary + 16) &&& 0xFFF8
  if offset.toNat ≥ rxBufferSize then 0 else offset

/-- What it writes to `CapR` after a packet. -/
def rxNext (offset length : UInt16) : UInt16 :=
  let next := (offset + length + 4 + 3) &&& ~~~3
  let next := if next.toNat ≥ rxBufferSize then 0 else next
  (next - 16) &&& 0xFFF8

theorem toNat_and_fff8 (x : UInt16) : (x &&& 0xFFF8).toNat = x.toNat / 8 * 8 := by
  rw [UInt16.toNat_and]
  exact and_mask (w := 13) (k := 3) x.toNat_lt

theorem toNat_and_not_three (x : UInt16) : (x &&& ~~~3).toNat = x.toNat / 4 * 4 := by
  rw [UInt16.toNat_and]
  exact and_mask (w := 14) (k := 2) x.toNat_lt

theorem rxOffset_le (capR : UInt16) : (rxOffset capR).toNat + 4 ≤ rxBufferSize := by
  unfold rxOffset
  generalize (if capR = 0 then 0x3F8 else capR) = boundary
  have hround := toNat_and_fff8 (boundary + 16)
  show (if ((boundary + 16) &&& 0xFFF8).toNat ≥ rxBufferSize then 0
    else (boundary + 16) &&& 0xFFF8).toNat + 4 ≤ 9708
  split_ifs with h
  · decide
  · -- the offset is a multiple of 8 below 9708
    have hlt : ¬ ((boundary + 16) &&& 0xFFF8).toNat ≥ 9708 := h
    omega

/-- The code with its two computations of an offset named. -/
theorem rtl8139ReceivePacket_eq {n : Nat} (rx : Rx) (buffer : Vector UInt8 n) :
    rtl8139ReceivePacket rx buffer = (do
      let offset := rxOffset rx.capR
      let status ← le16At rx.rxBuffer.toList offset.toNat
      if status &&& 0x01 = 0 then return ⟨buffer, none, none⟩
      else
        let length ← le16At rx.rxBuffer.toList (offset.toNat + 2)
        if length > 1500 ∨ offset.toNat + 4 + length.toNat > rxBufferSize then
          return ⟨buffer, none, some ((offset - 16) &&& 0xFFF8)⟩
        else
          let buffer ← store buffer 0 (← load rx.rxBuffer.toList (offset.toNat + 4) length.toNat)
          return ⟨buffer, some length.toNat, some (rxNext offset length)⟩) := rfl

/-- The two numbers in front of a packet. -/
structure RxHeader (rx : Rx) (status length : UInt16) : Prop where
  status : le16At rx.rxBuffer.toList (rxOffset rx.capR).toNat = some status
  length : le16At rx.rxBuffer.toList ((rxOffset rx.capR).toNat + 2) = some length

theorem exists_rxHeader (rx : Rx) : ∃ status length, RxHeader rx status length := by
  have hle := rxOffset_le rx.capR
  have hsize : rx.rxBuffer.toList.length = rxBufferSize := Vector.length_toList
  obtain ⟨status, hstatus⟩ := le16At_isSome (b := rx.rxBuffer.toList)
    (by omega : (rxOffset rx.capR).toNat + 2 ≤ _)
  obtain ⟨length, hlength⟩ := le16At_isSome (b := rx.rxBuffer.toList)
    (by omega : (rxOffset rx.capR).toNat + 2 + 2 ≤ _)
  exact ⟨status, length, hstatus, hlength⟩

/-- The data behind them. -/
def rxData (rx : Rx) (length : UInt16) : List UInt8 :=
  (rx.rxBuffer.toList.drop ((rxOffset rx.capR).toNat + 4)).take length.toNat

theorem length_rxData {rx : Rx} {length : UInt16}
    (hfits : (rxOffset rx.capR).toNat + 4 + length.toNat ≤ rxBufferSize) :
    (rxData rx length).length = length.toNat := by
  rw [rxData, List.length_take, List.length_drop, Vector.length_toList]
  omega

section Receive

variable {n : Nat} {rx : Rx} {status length : UInt16}

/-- No packet is there. -/
theorem rtl8139ReceivePacket_of_even (h : RxHeader rx status length) (heven : status &&& 0x01 = 0)
    (buffer : Vector UInt8 n) : rtl8139ReceivePacket rx buffer = some ⟨buffer, none, none⟩ := by
  rw [rtl8139ReceivePacket_eq]
  simp only [h.status, Option.bind_eq_bind, Option.bind_some]
  rw [if_pos heven]
  rfl

/-- A packet is there, and its length is refused. -/
theorem rtl8139ReceivePacket_of_long (h : RxHeader rx status length) (hodd : status &&& 0x01 ≠ 0)
    (hlong : 1500 < length.toNat ∨ rxBufferSize < (rxOffset rx.capR).toNat + 4 + length.toNat)
    (buffer : Vector UInt8 n) :
    rtl8139ReceivePacket rx buffer =
      some ⟨buffer, none, some ((rxOffset rx.capR - 16) &&& 0xFFF8)⟩ := by
  rw [rtl8139ReceivePacket_eq]
  simp only [h.status, h.length, Option.bind_eq_bind, Option.bind_some]
  rw [if_neg hodd, if_pos (by simpa [UInt16.lt_iff_toNat_lt] using hlong)]
  rfl

/-- A packet is there and is copied to the start of the caller's buffer. -/
theorem rtl8139ReceivePacket_of_fits (h : RxHeader rx status length) (hodd : status &&& 0x01 ≠ 0)
    (hshort : length.toNat ≤ 1500)
    (hfits : (rxOffset rx.capR).toNat + 4 + length.toNat ≤ rxBufferSize)
    (hn : 1500 ≤ n) (buffer : Vector UInt8 n) :
    ∃ buffer', rtl8139ReceivePacket rx buffer =
        some ⟨buffer', some length.toNat, some (rxNext (rxOffset rx.capR) length)⟩ ∧
      buffer'.toList = rxData rx length ++ buffer.toList.drop length.toNat := by
  have hsize : rx.rxBuffer.toList.length = rxBufferSize := Vector.length_toList
  have hload : load rx.rxBuffer.toList ((rxOffset rx.capR).toNat + 4) length.toNat =
      some (rxData rx length) := load_eq (by omega)
  have hdata := length_rxData hfits
  obtain ⟨buffer', hstore, hbytes⟩ := store_zero_spec (hdata.trans_le (hshort.trans hn)) buffer
  refine ⟨buffer', ?_, by rw [hbytes, hdata]⟩
  rw [rtl8139ReceivePacket_eq]
  simp only [h.status, h.length, hload, hstore, Option.bind_eq_bind, Option.bind_some]
  rw [if_neg hodd, if_neg (by simp [UInt16.lt_iff_toNat_lt]; omega)]
  rfl

end Receive

/-- A call never leaves its arrays, and the bytes from 1500 on of the caller's buffer stay. -/
theorem rtl8139ReceivePacket_safe {n : Nat} (hn : 1500 ≤ n) (rx : Rx) (buffer : Vector UInt8 n) :
    ∃ received, rtl8139ReceivePacket rx buffer = some received ∧
      received.buffer.toList.drop 1500 = buffer.toList.drop 1500 ∧
      ∀ len ∈ received.outLen, len ≤ 1500 := by
  obtain ⟨status, length, hheader⟩ := exists_rxHeader rx
  by_cases heven : status &&& 0x01 = 0
  · exact ⟨_, rtl8139ReceivePacket_of_even hheader heven buffer, rfl, by simp⟩
  by_cases hlong : 1500 < length.toNat ∨
      rxBufferSize < (rxOffset rx.capR).toNat + 4 + length.toNat
  · exact ⟨_, rtl8139ReceivePacket_of_long hheader heven hlong buffer, rfl, by simp⟩
  · rw [not_or, Nat.not_lt, Nat.not_lt] at hlong
    obtain ⟨hshort, hfits⟩ := hlong
    obtain ⟨buffer', hreceive, hbytes⟩ :=
      rtl8139ReceivePacket_of_fits hheader heven hshort hfits hn buffer
    refine ⟨_, hreceive, ?_, by simpa using hshort⟩
    show buffer'.toList.drop 1500 = _
    have hdata := length_rxData hfits
    rw [hbytes, List.drop_append, hdata, List.drop_eq_nil_of_le (by omega), List.nil_append,
      List.drop_drop, Nat.add_sub_cancel' hshort]

/-! ## Handling a packet -/

/-- `network_handle_dhcp_offer` applies the messages that pass its checks. -/
theorem networkHandleDhcpOffer_eq (packet : List UInt8) (n : NetworkT) :
    networkHandleDhcpOffer packet n =
      some (if 248 ≤ packet.length ∧ be32At packet 4 = some n.dhcpTransactionId then
        applyOptions { n with localIp := (be32At packet 24).getD 0 }
          (Tlv.decode 0 dhcpOptEnd (packet.drop 248))
      else n) := by
  unfold networkHandleDhcpOffer
  by_cases hlen : packet.length < 248
  · rw [if_pos hlen, if_neg (by omega)]
    rfl
  · rw [if_neg hlen]
    rcases be32At_isSome (b := packet) (by omega : 4 + 4 ≤ _) with ⟨xid, hxid⟩
    rcases be32At_isSome (b := packet) (by omega : 24 + 0 + 4 ≤ _) with ⟨ip, hip⟩
    simp only [hxid, parseIpv4Address, be32At_drop, hip, Option.bind_eq_bind, Option.bind_some,
      parseDhcpOptions, parseDhcpOptionsFrom_eq, List.drop_zero, Option.some.injEq]
    by_cases hmine : xid = n.dhcpTransactionId
    · rw [if_neg (not_not.2 hmine), if_pos ⟨by omega, hmine⟩]
      rfl
    · rw [if_pos hmine, if_neg (fun h => hmine h.2)]
      rfl

/-- The checks of `network_handle_ip`. -/
def ForDhcp (n : NetworkT) (packet : List UInt8) : Prop :=
  28 ≤ packet.length ∧ packet[9]? = some ipProtoUdp ∧
    (be32At packet 16 = some n.localIp ∨ be32At packet 16 = some 0xFFFFFFFF) ∧
    be16At packet 20 = some dhcpServerPort ∧ be16At packet 22 = some dhcpClientPort

instance (n : NetworkT) (packet : List UInt8) : Decidable (ForDhcp n packet) :=
  inferInstanceAs (Decidable (_ ∧ _ ∧ _ ∧ _ ∧ _))

theorem networkHandleIp_eq (packet : List UInt8) (n : NetworkT) :
    networkHandleIp packet n =
      if ForDhcp n packet then networkHandleDhcpOffer (packet.drop 20) n else some n := by
  unfold networkHandleIp
  by_cases hlen : packet.length < 20
  · rw [if_pos hlen, if_neg (by rintro ⟨h, _⟩; omega)]
    rfl
  rw [if_neg hlen]
  have hproto : packet[9]? = some packet[9] := List.getElem?_eq_getElem (by omega)
  rcases be32At_isSome (b := packet) (by omega : 16 + 0 + 4 ≤ _) with ⟨destIp, hdest⟩
  simp only [hproto, parseIpv4Address, be32At_drop, hdest, Option.bind_eq_bind, Option.bind_some]
  by_cases hmine : destIp ≠ n.localIp ∧ destIp ≠ 0xFFFFFFFF
  · -- the packet is for somebody else
    rw [if_pos hmine, if_neg]
    · rfl
    rintro ⟨_, _, hfor, _⟩
    rw [hdest, Option.some.injEq, Option.some.injEq] at hfor
    tauto
  rw [if_neg hmine]
  by_cases hudp : packet[9] = ipProtoUdp ∧ 28 ≤ packet.length
  · rcases be16At_isSome (b := packet) (by omega : 20 + 2 ≤ _) with ⟨srcPort, hsrc⟩
    rcases be16At_isSome (b := packet) (by omega : 22 + 2 ≤ _) with ⟨destPort, hport⟩
    have hfor : be32At packet 16 = some n.localIp ∨ be32At packet 16 = some 0xFFFFFFFF := by
      rw [hdest, Option.some.injEq, Option.some.injEq]
      tauto
    rw [if_pos hudp]
    simp only [hsrc, hport, Option.bind_some]
    by_cases hports : destPort = dhcpClientPort ∧ srcPort = dhcpServerPort
    · rw [if_pos hports, if_pos]
      exact ⟨hudp.2, by rw [hproto, hudp.1], hfor, by rw [hsrc, hports.2], by rw [hport, hports.1]⟩
    · rw [if_neg hports, if_neg]
      · rfl
      rintro ⟨_, _, _, hserver, hclient⟩
      rw [hsrc, Option.some.injEq] at hserver
      rw [hport, Option.some.injEq] at hclient
      exact hports ⟨hclient, hserver⟩
  · rw [if_neg hudp, if_neg]
    · rfl
    rintro ⟨hlong, hprotocol, _⟩
    rw [hproto, Option.some.injEq] at hprotocol
    exact hudp ⟨hprotocol, hlong⟩

theorem networkHandleIp_safe (packet : List UInt8) (s : NetworkT) :
    ∃ s', networkHandleIp packet s = some s' := by
  rw [networkHandleIp_eq, networkHandleDhcpOffer_eq]
  by_cases hfor : ForDhcp s packet
  · rw [if_pos hfor]
    exact ⟨_, rfl⟩
  · rw [if_neg hfor]
    exact ⟨s, rfl⟩

theorem macAt_isSome {bytes : List UInt8} {off : Nat} (h : off + 6 ≤ bytes.length) :
    ∃ mac, macAt bytes off = some mac := by
  simp only [macAt, List.getElem?_eq_getElem (by omega : off < bytes.length),
    List.getElem?_eq_getElem (by omega : off + 1 < bytes.length),
    List.getElem?_eq_getElem (by omega : off + 2 < bytes.length),
    List.getElem?_eq_getElem (by omega : off + 3 < bytes.length),
    List.getElem?_eq_getElem (by omega : off + 4 < bytes.length),
    List.getElem?_eq_getElem (by omega : off + 5 < bytes.length)]
  exact ⟨_, rfl⟩

/-- A frame of at least 42 bytes has all fields. -/
theorem exists_arpFields {frame : List UInt8} (h : 42 ≤ frame.length) :
    ∃ oper senderMac srcIp targetIp, ArpFields frame oper senderMac srcIp targetIp := by
  have hlen : (frame.drop 14).length = frame.length - 14 := List.length_drop
  obtain ⟨oper, hoper⟩ := be16At_isSome (b := frame.drop 14) (by omega : 6 + 2 ≤ _)
  obtain ⟨senderMac, hmac⟩ := macAt_isSome (by omega : 8 + 6 ≤ (frame.drop 14).length)
  obtain ⟨srcIp, hsrc⟩ := be32At_isSome (b := frame.drop 14) (by omega : 14 + 4 ≤ _)
  obtain ⟨targetIp, htarget⟩ := be32At_isSome (b := frame.drop 14) (by omega : 24 + 4 ≤ _)
  exact ⟨oper, senderMac, srcIp, targetIp, h, hoper, hmac, hsrc, htarget⟩

/-- ARP does not touch what the client knows of the network. -/
theorem networkHandleArp_network (stack : Vector UInt8 60) (frame : List UInt8) (s : DriverT) :
    ∃ s', networkHandleArp stack frame s = some s' ∧ s'.toNetworkT = s.toNetworkT := by
  by_cases hlen : frame.length < 42
  · rw [networkHandleArp, if_pos hlen]
    exact ⟨s, rfl, rfl⟩
  · obtain ⟨oper, senderMac, srcIp, targetIp, hfields⟩ := exists_arpFields (Nat.le_of_not_lt hlen)
    rw [networkHandleArp_eq hfields]
    split_ifs with hrequest hmine hreply
    · obtain ⟨s', hsend, hsends⟩ := sendArpReply_spec stack senderMac srcIp s
      exact ⟨s', hsend, hsends.network⟩
    · exact ⟨s, rfl, rfl⟩
    · exact ⟨_, rfl, rfl⟩
    · exact ⟨s, rfl, rfl⟩

theorem processPacket_safe (stack : Vector UInt8 60) (packet : List UInt8) (s : DriverT) :
    ∃ s', processPacket stack packet s = some s' := by
  unfold processPacket
  split_ifs with hlen
  · exact ⟨s, rfl⟩
  · obtain ⟨ethertype, htype⟩ := be16At_isSome (b := packet) (by omega : 12 + 2 ≤ _)
    obtain ⟨n, hip⟩ := networkHandleIp_safe (packet.drop 14) s.toNetworkT
    simp only [htype, hip, Option.bind_eq_bind, Option.bind_some]
    split_ifs with harp
    · obtain ⟨s', harp', -⟩ := networkHandleArp_network stack packet s
      exact ⟨s', harp'⟩
    · exact ⟨_, rfl⟩
    · exact ⟨s, rfl⟩

/-! ## The loop -/

theorem processRxStep_safe (stack : Vector UInt8 60) (rx : Rx) (packet : Vector UInt8 1514)
    (s : DriverT) : ∃ result, processRxStep stack rx packet s = some result := by
  obtain ⟨received, hreceive, -, -⟩ := rtl8139ReceivePacket_safe (by decide) rx packet
  simp only [processRxStep, hreceive, Option.bind_eq_bind, Option.bind_some]
  cases received.outLen with
  | none => exact ⟨_, rfl⟩
  | some packetLen =>
    obtain ⟨s', hpacket⟩ := processPacket_safe stack (received.buffer.toList.take packetLen)
      { s with capR := received.capR.getD s.capR }
    simp only [hpacket, Option.bind_some]
    exact ⟨_, rfl⟩

/-- Every turn of the loop may see something else. -/
theorem rtl8139ProcessRx_safe (stack : Vector UInt8 60) (seen : List Rx) (packet : Vector UInt8 1514)
    (s : DriverT) : ∃ s', rtl8139ProcessRx stack seen packet s = some s' := by
  induction seen generalizing packet s with
  | nil => exact ⟨s, rfl⟩
  | cons rx rest ih =>
    obtain ⟨⟨again, packet', s'⟩, hstep⟩ := processRxStep_safe stack rx packet s
    simp only [rtl8139ProcessRx, hstep, Option.bind_eq_bind, Option.bind_some]
    split_ifs with hagain
    · exact ih packet' s'
    · exact ⟨s', rfl⟩

/-- The receive path is memory-safe. A call stores only below index 1500: no bytes from there on
change, and none need to be there. -/
theorem receive_path_safe :
    (∀ n, 1500 ≤ n → ∀ (rx : Rx) (buffer : Vector UInt8 n),
      ∃ received, rtl8139ReceivePacket rx buffer = some received ∧
        received.buffer.toList.drop 1500 = buffer.toList.drop 1500 ∧
        ∀ len ∈ received.outLen, len ≤ 1500) ∧
    (∀ (stack : Vector UInt8 60) (packet : List UInt8) (s : DriverT),
      (processPacket stack packet s).isSome) ∧
    ∀ (stack : Vector UInt8 60) (seen : List Rx) (packet : Vector UInt8 1514) (s : DriverT),
      (rtl8139ProcessRx stack seen packet s).isSome := by
  refine ⟨?_, ?_, ?_⟩
  · intro n hn rx buffer
    exact rtl8139ReceivePacket_safe hn rx buffer
  · intro stack packet s
    obtain ⟨s', hpacket⟩ := processPacket_safe stack packet s
    rw [hpacket]
    rfl
  · intro stack seen packet s
    obtain ⟨s', hloop⟩ := rtl8139ProcessRx_safe stack seen packet s
    rw [hloop]
    rfl

end CosKernel.Network
