import CosKernel.Network.Driver

/-!
# ARP between two nodes

The frames that the two functions send, byte by byte, and what `network_handle_arp`
makes of them. `write_arp_request` stores the address it asks for at offset 32,
where the hardware address of the target belongs, and the parser looks for it at
offset 38, where it finds zero. `send_arp_reply` stores both hardware addresses
before both protocol addresses, so that the parser takes the first four bytes of the
target's hardware address for the address of the sender.
-/

namespace CosKernel.Network

open Bytes

/-! ## Sending a frame -/

/-- An Ethernet frame. -/
def ethernetFrame (dest src : Mac) (ethertype : UInt16) (payload : List UInt8) : List UInt8 :=
  dest.toList ++ (src.toList ++ (be16 ethertype ++ payload))

theorem length_ethernetFrame (dest src : Mac) (ethertype : UInt16) (payload : List UInt8) :
    (ethernetFrame dest src ethertype payload).length = 14 + payload.length := by
  simp [ethernetFrame]
  omega

/-- What sending a frame changes, and what it does not. -/
structure Sends (frame : List UInt8) (s s' : DriverT) : Prop where
  sent : s'.sent = s.sent ++ [frame]
  network : s'.toNetworkT = s.toNetworkT
  peerMac : s'.arpPeerMac = s.arpPeerMac
  peerIp : s'.arpPeerIp = s.arpPeerIp

/-- The card sends the first bytes of the buffer it was given. -/
theorem startTransmit_eq {payloadLen : Nat} (h : payloadLen < 2 ^ 32) (s : DriverT) :
    startTransmit payloadLen s = { s with
      txAddr := s.txAddr.set s.txIndex (some s.txIndex)
      txStatus := s.txStatus.set s.txIndex (UInt32.ofNat payloadLen)
      sent := s.sent ++ [s.txBuffers[s.txIndex].toList.take payloadLen]
      txIndex := s.txIndex + 1 } := by
  have haddr : (s.txAddr.set s.txIndex (some s.txIndex))[s.txIndex] = some s.txIndex :=
    Vector.getElem_set_self _
  have hstatus : (s.txStatus.set s.txIndex (UInt32.ofNat payloadLen))[s.txIndex].toNat =
      payloadLen := by
    rw [Fin.getElem_fin, Vector.getElem_set_self]
    exact UInt32.toNat_ofNat_of_lt' h
  simp only [startTransmit, transmit, haddr, hstatus]

/-- The four stores of `rtl8139_send_frame` are one. -/
theorem rtl8139SendFrame_eq {payload : List UInt8} (h : payload.length + 14 ≤ txBufferSize)
    (destMac : Mac) (ethertype : UInt16) (s : DriverT) :
    rtl8139SendFrame destMac ethertype payload s =
      (store s.txBuffers[s.txIndex] 0 (ethernetFrame destMac s.localMac ethertype payload)).bind
        fun frame => some (true,
          startTransmit payload.length { s with txBuffers := s.txBuffers.set s.txIndex frame }) := by
  rw [rtl8139SendFrame, if_neg (by omega)]
  rw [store_store_bind (by simp), store_store_bind (by simp), store_store_bind (by simp)]
  simp only [ethernetFrame, List.append_assoc]
  rfl

/-- What `rtl8139_send_frame` leaves: the frame in the buffer it took, and a card that was given the
length of the payload for the length of the frame. -/
theorem rtl8139SendFrame_left {payload : List UInt8} (h : payload.length + 14 ≤ txBufferSize)
    (destMac : Mac) (ethertype : UInt16) (s : DriverT) :
    ∃ frame, frame.toList = ethernetFrame destMac s.localMac ethertype payload ++
        s.txBuffers[s.txIndex].toList.drop (14 + payload.length) ∧
      rtl8139SendFrame destMac ethertype payload s = some (true, { s with
        txBuffers := s.txBuffers.set s.txIndex frame
        txAddr := s.txAddr.set s.txIndex (some s.txIndex)
        txStatus := s.txStatus.set s.txIndex (UInt32.ofNat payload.length)
        sent := s.sent ++ [(ethernetFrame destMac s.localMac ethertype payload).take payload.length]
        txIndex := s.txIndex + 1 }) := by
  have hlen := length_ethernetFrame destMac s.localMac ethertype payload
  have hfits : (ethernetFrame destMac s.localMac ethertype payload).length ≤ txBufferSize := by
    omega
  obtain ⟨frame, hstore, hbytes⟩ := store_zero_spec hfits s.txBuffers[s.txIndex]
  have hsize : payload.length < 2 ^ 32 := by
    have : payload.length + 14 ≤ 2048 := h
    omega
  have hbuffer : (s.txBuffers.set s.txIndex frame)[s.txIndex] = frame := Vector.getElem_set_self _
  refine ⟨frame, by rw [hbytes, hlen], ?_⟩
  rw [rtl8139SendFrame_eq h, hstore, Option.bind_some, startTransmit_eq hsize]
  simp only [hbuffer, hbytes]
  rw [List.take_append_of_le_length (by omega)]

/-- What matters to those who receive it. -/
theorem rtl8139SendFrame_spec {payload : List UInt8} (h : payload.length + 14 ≤ txBufferSize)
    (destMac : Mac) (ethertype : UInt16) (s : DriverT) :
    ∃ s', rtl8139SendFrame destMac ethertype payload s = some (true, s') ∧
      Sends ((ethernetFrame destMac s.localMac ethertype payload).take payload.length) s s' := by
  obtain ⟨frame, -, hsend⟩ := rtl8139SendFrame_left h destMac ethertype s
  exact ⟨_, hsend, rfl, rfl, rfl, rfl⟩

/-! ## Frames -/

/-- The ARP packet of `send_arp_request`, as far as the card sends it. -/
def arpRequest (mac : Mac) (targetIp : UInt32) : List UInt8 :=
  [0x00, 0x01, 0x08, 0x00, 0x06, 0x04, 0x00, 0x01] ++ (mac.toList ++ ([0, 0, 0, 0] ++
    (be32 targetIp ++ List.replicate 10 0)))

/-- The ARP packet of `send_arp_reply`, as far as the card sends it. -/
def arpReply (mac : Mac) (ip : UInt32) (targetMac : Mac) (targetIp : UInt32) : List UInt8 :=
  [0x00, 0x02, 0x08, 0x00, 0x06, 0x04, 0x00, 0x02] ++ (mac.toList ++ (targetMac.toList ++
    (be32 ip ++ (be32 targetIp ++ List.replicate 4 0))))

def broadcast : Mac := Vector.replicate 6 0xFF

def requestFrame (mac : Mac) (targetIp : UInt32) : List UInt8 :=
  ethernetFrame broadcast mac ethPArp (arpRequest mac targetIp)

def replyFrame (mac : Mac) (ip : UInt32) (targetMac : Mac) (targetIp : UInt32) : List UInt8 :=
  ethernetFrame targetMac mac ethPArp (arpReply mac ip targetMac targetIp)

theorem drop_ethernetFrame (dest src : Mac) (ethertype : UInt16) (payload : List UInt8) :
    (ethernetFrame dest src ethertype payload).drop 14 = payload := by
  have hsplit : ethernetFrame dest src ethertype payload =
      (dest.toList ++ src.toList ++ be16 ethertype) ++ payload := by
    simp [ethernetFrame]
  rw [hsplit]
  exact List.drop_left' (by simp)

theorem take_ethernetFrame (dest src : Mac) (ethertype : UInt16) (payload rest : List UInt8) :
    (ethernetFrame dest src ethertype (payload ++ rest)).take (14 + payload.length) =
      ethernetFrame dest src ethertype payload := by
  have hsplit : ethernetFrame dest src ethertype (payload ++ rest) =
      ethernetFrame dest src ethertype payload ++ rest := by
    simp [ethernetFrame]
  rw [hsplit]
  exact List.take_left' (length_ethernetFrame ..)

theorem macAt_append {pre : List UInt8} {off : Nat} (h : pre.length = off) (mac : Mac)
    (rest : List UInt8) : macAt (pre ++ (mac.toList ++ rest)) off = some mac := by
  subst h
  obtain ⟨⟨bytes⟩, hbytes⟩ := mac
  match bytes, hbytes with
  | [a, b, c, d, e, f], _ => simp [macAt]

/-- The part of a packet of 60 bytes that the card sends: its first 46 bytes. -/
theorem sendArpPacket_spec {packet : Vector UInt8 60} {dest src : Mac} {body rest : List UInt8}
    (hbytes : packet.toList = ethernetFrame dest src ethPArp (body ++ rest))
    (hbody : body.length = 32) (s : DriverT) :
    ∃ payload s', load packet.toList 14 46 = some payload ∧
      rtl8139SendFrame dest ethPArp payload s = some (true, s') ∧
      Sends (ethernetFrame dest s.localMac ethPArp body) s s' := by
  have hlen : (body ++ rest).length = 46 := by
    have htotal := congrArg List.length hbytes
    rw [length_ethernetFrame, Vector.length_toList] at htotal
    omega
  have hload : load packet.toList 14 46 = some (body ++ rest) := by
    rw [load_eq (by simp), hbytes, drop_ethernetFrame, List.take_of_length_le (by omega)]
  have hfits : (body ++ rest).length + 14 ≤ txBufferSize := by
    rw [hlen]
    decide
  obtain ⟨s', hsend, hsends⟩ := rtl8139SendFrame_spec hfits dest ethPArp s
  have hframe : (ethernetFrame dest s.localMac ethPArp (body ++ rest)).take (body ++ rest).length =
      ethernetFrame dest s.localMac ethPArp body := by
    rw [hlen, ← take_ethernetFrame dest s.localMac ethPArp body rest, hbody]
  exact ⟨body ++ rest, s', hload, hsend, hframe ▸ hsends⟩

theorem sendArpRequest_spec (packet : Vector UInt8 60) (targetIp : UInt32) (s : DriverT) :
    ∃ s', sendArpRequest packet targetIp s = some s' ∧
      Sends (requestFrame s.localMac targetIp) s s' := by
  have hstores : writeArpRequest packet targetIp s =
      store packet 0 (requestFrame s.localMac targetIp ++ [0, 0]) := by
    unfold writeArpRequest
    rw [store_store_bind (by simp), store_store_bind (by simp), store_store_bind (by simp),
      store_store_bind (by simp), store_store_bind (by simp), store_store_bind (by simp),
      store_store_bind (by simp), store_store (by simp)]
    congr 1
    have htype : be16 ethPArp = [0x08, 0x06] := by decide
    simp [requestFrame, ethernetFrame, arpRequest, broadcast, htype]
  have hlen : (requestFrame s.localMac targetIp ++ [0, 0]).length ≤ 60 := by
    simp [requestFrame, length_ethernetFrame, arpRequest]
  obtain ⟨packet', hstore, hbytes⟩ := store_zero_spec hlen packet
  have hsplit : packet'.toList = ethernetFrame broadcast s.localMac ethPArp
      (arpRequest s.localMac targetIp ++ ([0, 0] ++ packet.toList.drop 48)) := by
    rw [hbytes]
    simp [requestFrame, ethernetFrame, arpRequest]
  have hdest : macAt packet'.toList 0 = some broadcast := by
    rw [hsplit]
    exact macAt_append (rfl : ([] : List UInt8).length = 0) broadcast _
  obtain ⟨payload, s', hload, hsend, hsends⟩ := sendArpPacket_spec hsplit (by simp [arpRequest]) s
  refine ⟨s', ?_, hsends⟩
  simp only [sendArpRequest, hstores, hstore, hdest, hload, hsend, Option.bind_eq_bind,
    Option.bind_some]
  rfl

theorem sendArpReply_spec (packet : Vector UInt8 60) (targetMac : Mac) (targetIp : UInt32)
    (s : DriverT) :
    ∃ s', sendArpReply packet targetMac targetIp s = some s' ∧
      Sends (replyFrame s.localMac s.localIp targetMac targetIp) s s' := by
  have hstores : sendArpReply packet targetMac targetIp s = do
      let packet ← store packet 0
        (replyFrame s.localMac s.localIp targetMac targetIp ++ List.replicate 14 0)
      let result ← rtl8139SendFrame targetMac ethPArp (← load packet.toList 14 46) s
      return result.2 := by
    unfold sendArpReply writeEthHeader
    simp only [bind_assoc]
    rw [store_store_bind (by simp), store_store_bind (by simp), store_store_bind (by simp),
      store_store_bind (by simp), store_store_bind (by simp), store_store_bind (by simp),
      store_store_bind (by simp), store_store_bind (by simp)]
    have hzeros : List.replicate 18 (0 : UInt8) = List.replicate 4 0 ++ List.replicate 14 0 := rfl
    simp only [replyFrame, ethernetFrame, arpReply, List.append_assoc, hzeros]
  have hlen : (replyFrame s.localMac s.localIp targetMac targetIp ++
      List.replicate 14 0).length ≤ 60 := by
    simp [replyFrame, length_ethernetFrame, arpReply]
  obtain ⟨packet', hstore, hbytes⟩ := store_zero_spec hlen packet
  have hsplit : packet'.toList = ethernetFrame targetMac s.localMac ethPArp
      (arpReply s.localMac s.localIp targetMac targetIp ++
        (List.replicate 14 0 ++ packet.toList.drop 60)) := by
    rw [hbytes]
    simp [replyFrame, ethernetFrame, arpReply]
  obtain ⟨payload, s', hload, hsend, hsends⟩ := sendArpPacket_spec hsplit (by simp [arpReply]) s
  refine ⟨s', ?_, hsends⟩
  simp only [hstores, hstore, hload, hsend, Option.bind_eq_bind, Option.bind_some]
  rfl

/-! ## Handling a frame -/

/-- The fields of an ARP packet that `network_handle_arp` looks at. -/
structure ArpFields (frame : List UInt8) (oper : UInt16) (senderMac : Mac) (srcIp targetIp : UInt32) :
    Prop where
  length : 42 ≤ frame.length
  oper : be16At (frame.drop 14) 6 = some oper
  senderMac : macAt (frame.drop 14) 8 = some senderMac
  srcIp : be32At (frame.drop 14) 14 = some srcIp
  targetIp : be32At (frame.drop 14) 24 = some targetIp

section Handle

variable {frame : List UInt8} {oper : UInt16} {senderMac : Mac} {srcIp targetIp : UInt32}

theorem networkHandleArp_eq (h : ArpFields frame oper senderMac srcIp targetIp)
    (packet : Vector UInt8 60) (s : DriverT) :
    networkHandleArp packet frame s =
      if oper = arpOperRequest then
        if targetIp = s.localIp then sendArpReply packet senderMac srcIp s else some s
      else if oper = arpOperReply then
        some { s with arpPeerMac := senderMac, arpPeerIp := srcIp }
      else some s := by
  have hlen := h.length
  have hsrc : parseIpv4Address ((frame.drop 14).drop 14) = some srcIp := by
    rw [parseIpv4Address, be32At_drop]
    exact h.srcIp
  have htarget : parseIpv4Address ((frame.drop 14).drop 24) = some targetIp := by
    rw [parseIpv4Address, be32At_drop]
    exact h.targetIp
  rw [networkHandleArp, if_neg (by omega)]
  simp only [h.oper, h.senderMac, hsrc, htarget, Option.bind_eq_bind, Option.bind_some]
  by_cases hrequest : oper = arpOperRequest
  · have hreply : oper ≠ arpOperReply := by
      rw [hrequest]
      decide
    by_cases hmine : targetIp = s.localIp
    · rw [if_pos ⟨hrequest, hmine⟩, if_pos hrequest, if_pos hmine]
      simp [hreply]
    · rw [if_neg (by tauto), if_pos hrequest, if_neg hmine, if_neg hreply]
      rfl
  · rw [if_neg (by tauto), if_neg hrequest]
    rfl

end Handle

/-- A request, as it is parsed: whatever was asked for, the target's address is zero. -/
theorem requestFrame_fields (mac : Mac) (targetIp : UInt32) :
    ArpFields (requestFrame mac targetIp) arpOperRequest mac 0 0 where
  length := by simp [requestFrame, length_ethernetFrame, arpRequest]
  oper := by
    rw [requestFrame, drop_ethernetFrame]
    rfl
  senderMac := by
    rw [requestFrame, drop_ethernetFrame]
    exact macAt_append rfl mac _
  srcIp := by
    rw [requestFrame, drop_ethernetFrame, arpRequest, ← List.append_assoc]
    exact be32At_append (by simp) 0 _
  targetIp := by
    have hsplit : arpRequest mac targetIp =
        ([0x00, 0x01, 0x08, 0x00, 0x06, 0x04, 0x00, 0x01] ++ mac.toList ++ [0, 0, 0, 0] ++
          be32 targetIp ++ [0, 0]) ++ (be32 0 ++ [0, 0, 0, 0]) := by
      simp [arpRequest]
      rfl
    rw [requestFrame, drop_ethernetFrame, hsplit]
    exact be32At_append (by simp) 0 _

/-- The number in the first four bytes of a hardware address. -/
def Mac.firstFour (mac : Mac) : UInt32 := (be32At mac.toList 0).getD 0

theorem be32At_append_mac {pre : List UInt8} {off : Nat} (h : pre.length = off) (mac : Mac)
    (rest : List UInt8) : be32At (pre ++ (mac.toList ++ rest)) off = some (Mac.firstFour mac) := by
  subst h
  obtain ⟨⟨bytes⟩, hbytes⟩ := mac
  match bytes, hbytes with
  | [a, b, c, d, e, f], _ => simp [be32At, Mac.firstFour]

theorem Mac.firstFour_eq_zero_iff (mac : Mac) :
    Mac.firstFour mac = 0 ↔ mac.toList.take 4 = [0, 0, 0, 0] := by
  obtain ⟨⟨bytes⟩, hbytes⟩ := mac
  match bytes, hbytes with
  | [a, b, c, d, e, f], _ =>
    show a.toUInt32 <<< 24 ||| b.toUInt32 <<< 16 ||| c.toUInt32 <<< 8 ||| d.toUInt32 = 0 ↔
      [a, b, c, d] = [0, 0, 0, 0]
    rw [← UInt32.toNat_inj, toNat_join32]
    simp only [List.cons.injEq, and_true, ← UInt8.toNat_inj, UInt32.toNat_zero, UInt8.toNat_zero]
    omega

/-- A reply, as it is parsed: the sender's address is taken from the target's hardware address. -/
theorem replyFrame_fields (mac : Mac) (ip : UInt32) (targetMac : Mac) (targetIp : UInt32) :
    ArpFields (replyFrame mac ip targetMac targetIp) arpOperReply mac (Mac.firstFour targetMac)
      targetIp where
  length := by simp [replyFrame, length_ethernetFrame, arpReply]
  oper := by
    rw [replyFrame, drop_ethernetFrame]
    rfl
  senderMac := by
    rw [replyFrame, drop_ethernetFrame]
    exact macAt_append rfl mac _
  srcIp := by
    rw [replyFrame, drop_ethernetFrame, arpReply, ← List.append_assoc]
    exact be32At_append_mac (by simp) targetMac _
  targetIp := by
    have hsplit : arpReply mac ip targetMac targetIp =
        ([0x00, 0x02, 0x08, 0x00, 0x06, 0x04, 0x00, 0x02] ++ mac.toList ++ targetMac.toList ++
          be32 ip) ++ (be32 targetIp ++ List.replicate 4 0) := by
      simp [arpReply]
    rw [replyFrame, drop_ethernetFrame, hsplit]
    exact be32At_append (by simp) targetIp _

/-! ## The exchange -/

/-- The frames that a node has sent from one state to the other. -/
def emitted (s s' : DriverT) : List (List UInt8) := s'.sent.drop s.sent.length

/-- The link delivers frames to a node, which processes them one after the other. -/
def deliver (stack : Vector UInt8 60) (frames : List (List UInt8)) (s : DriverT) : Option DriverT :=
  frames.foldlM (fun s frame => networkHandleArp stack frame s) s

/-- What ARP is for: `a` asks for the address of `b`, `b` sends one reply and that to `a`, which then
knows the hardware address of `b`; a node with another address is silent. -/
def Resolves (stackA stackB : Vector UInt8 60) (a b : DriverT) : Prop :=
  ∃ a₁ b₁ a₂ reply,
    sendArpRequest stackA b.localIp a = some a₁ ∧
    deliver stackB (emitted a a₁) b = some b₁ ∧
    emitted b b₁ = [reply] ∧
    be16At reply 20 = some arpOperReply ∧ reply.take 6 = a.localMac.toList ∧
    deliver stackA (emitted b b₁) a₁ = some a₂ ∧
    a₂.arpPeerIp = b.localIp ∧ a₂.arpPeerMac = b.localMac ∧
    ∀ (c : DriverT) (stackC : Vector UInt8 60), c.localIp ≠ b.localIp →
      ∃ c₁, deliver stackC (emitted a a₁) c = some c₁ ∧ emitted c c₁ = []

theorem Sends.emitted {frame : List UInt8} {s s' : DriverT} (h : Sends frame s s') :
    emitted s s' = [frame] := by
  rw [Network.emitted, h.sent, List.drop_left]

theorem deliver_singleton (stack : Vector UInt8 60) (frame : List UInt8) (s : DriverT) :
    deliver stack [frame] s = networkHandleArp stack frame s := by
  simp [deliver]

/-- The first step: the request that is sent. -/
theorem request_emitted (stackA : Vector UInt8 60) (ip : UInt32) (a : DriverT) :
    ∃ a₁, sendArpRequest stackA ip a = some a₁ ∧ emitted a a₁ = [requestFrame a.localMac ip] ∧
      a₁.toNetworkT = a.toNetworkT := by
  obtain ⟨a₁, hsend, hsends⟩ := sendArpRequest_spec stackA ip a
  exact ⟨a₁, hsend, hsends.emitted, hsends.network⟩

/-- A node that has an address does not answer. -/
theorem deliver_request_of_ne (stack : Vector UInt8 60) (mac : Mac) (ip : UInt32) {s : DriverT}
    (h : s.localIp ≠ 0) : deliver stack [requestFrame mac ip] s = some s := by
  rw [deliver_singleton, networkHandleArp_eq (requestFrame_fields mac ip), if_pos rfl,
    if_neg (Ne.symm h)]

/-- A node that has none does, whatever the request is for. -/
theorem deliver_request_of_eq (stack : Vector UInt8 60) (mac : Mac) (ip : UInt32) {s : DriverT}
    (h : s.localIp = 0) :
    ∃ s', deliver stack [requestFrame mac ip] s = some s' ∧
      emitted s s' = [replyFrame s.localMac s.localIp mac 0] := by
  obtain ⟨s', hsend, hsends⟩ := sendArpReply_spec stack mac 0 s
  refine ⟨s', ?_, hsends.emitted⟩
  rw [deliver_singleton, networkHandleArp_eq (requestFrame_fields mac ip), if_pos rfl, if_pos h.symm,
    hsend]

theorem deliver_reply (stack : Vector UInt8 60) (mac : Mac) (ip : UInt32) (targetMac : Mac)
    (targetIp : UInt32) (s : DriverT) :
    deliver stack [replyFrame mac ip targetMac targetIp] s =
      some { s with arpPeerMac := mac, arpPeerIp := Mac.firstFour targetMac } := by
  rw [deliver_singleton, networkHandleArp_eq (replyFrame_fields mac ip targetMac targetIp),
    if_neg (by decide), if_pos rfl]

/-- ARP resolves an address exactly when it is zero and the hardware address of the node that asks
begins with four zero bytes. -/
theorem arp_resolves_iff (stackA stackB : Vector UInt8 60) (a b : DriverT) :
    Resolves stackA stackB a b ↔ b.localIp = 0 ∧ a.localMac.toList.take 4 = [0, 0, 0, 0] := by
  obtain ⟨a₁, hask, hrequest, hnetwork⟩ := request_emitted stackA b.localIp a
  rw [← Mac.firstFour_eq_zero_iff]
  constructor
  · rintro ⟨a₁', b₁, a₂, _, hask', hdeliver, hreply, -, -, hback, hip, -, -⟩
    obtain rfl : a₁ = a₁' := by simpa [hask] using hask'
    rw [hrequest] at hdeliver
    have hzero : b.localIp = 0 := by
      by_contra hne
      -- `b` would be silent
      rw [deliver_request_of_ne stackB a.localMac b.localIp hne] at hdeliver
      obtain rfl : b = b₁ := by simpa using hdeliver
      simp [emitted] at hreply
    refine ⟨hzero, ?_⟩
    obtain ⟨b₁', hdeliver', hemitted⟩ := deliver_request_of_eq stackB a.localMac b.localIp hzero
    obtain rfl : b₁' = b₁ := by simpa [hdeliver'] using hdeliver
    rw [hemitted, deliver_reply] at hback
    obtain rfl := Option.some.inj hback
    exact hip.trans hzero
  · rintro ⟨hzero, hfour⟩
    obtain ⟨b₁, hdeliver, hemitted⟩ := deliver_request_of_eq stackB a.localMac b.localIp hzero
    have hback := hemitted ▸ deliver_reply stackA b.localMac b.localIp a.localMac 0 a₁
    refine ⟨a₁, b₁, _, _, hask, hrequest ▸ hdeliver, hemitted, ?_, ?_, hback,
      hfour.trans hzero.symm, rfl, ?_⟩
    · have hoper := (replyFrame_fields b.localMac b.localIp a.localMac 0).oper
      simpa [be16At] using hoper
    · exact List.take_left' (by simp)
    · intro c stackC hc
      rw [hzero] at hc
      exact ⟨c, hrequest ▸ deliver_request_of_ne stackC a.localMac b.localIp hc, by simp [emitted]⟩

/-- A node at 10.0.2.15. -/
def nodeA : DriverT :=
  { driverState with localMac := #v[0x52, 0x54, 0x00, 0x12, 0x34, 0x56], localIp := 0x0A00020F }

/-- A node at 10.0.2.2. -/
def nodeB : DriverT :=
  { driverState with localMac := #v[0x52, 0x55, 0x0A, 0x00, 0x02, 0x02], localIp := 0x0A000202 }

/-- The request for 10.0.2.2 stays without an answer. -/
theorem arp_request_unanswered :
    ¬ Resolves (Vector.replicate 60 0) (Vector.replicate 60 0) nodeA nodeB := by
  rintro ⟨a₁, b₁, a₂, reply, hask, hdeliver, hreply, -⟩
  obtain ⟨a₁', hask', hrequest, -⟩ := request_emitted (Vector.replicate 60 0) nodeB.localIp nodeA
  obtain rfl : a₁' = a₁ := by simpa [hask'] using hask
  rw [hrequest, deliver_request_of_ne _ _ _ (by decide)] at hdeliver
  obtain rfl : nodeB = b₁ := by simpa using hdeliver
  simp [emitted] at hreply

end CosKernel.Network
