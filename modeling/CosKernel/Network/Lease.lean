import CosKernel.Network.Receive
import CosKernel.Network.Transmit

/-!
# Leases

A frame that passes all checks on the way to `network_handle_dhcp_offer` carries a
message, and the rest of the stack sees nothing of the others. `network_initialize`
is then a small protocol over the sequence of frames: it waits for an offer, sends
the request, and goes on polling. Since `dhcp_acquired` is set by offers and never
cleared, the second wait waits for nothing, and `local_ip` is overwritten by every
message.
-/

namespace CosKernel.Network

open Bytes

/-! ## Messages -/

/-- What the client sees of a DHCP message. -/
structure Message where
  yiaddr : UInt32
  options : List DhcpOption

/-- The message in a frame that passes the checks of `network_handle_ip` and
`network_handle_dhcp_offer`. What these take for the transaction id is the length and the checksum of
the UDP datagram. -/
def message (n : NetworkT) (frame : List UInt8) : Option Message :=
  if be16At frame 12 = some ethPIp ∧ frame[23]? = some ipProtoUdp ∧
      (be32At frame 30 = some n.localIp ∨ be32At frame 30 = some 0xFFFFFFFF) ∧
      be16At frame 34 = some dhcpServerPort ∧ be16At frame 36 = some dhcpClientPort ∧
      282 ≤ frame.length ∧ be32At frame 38 = some n.dhcpTransactionId then
    some ⟨(be32At frame 58).getD 0, Tlv.decode 0 dhcpOptEnd (frame.drop 282)⟩
  else none

/-- The type of a message: the first byte of its first option 53. -/
def Message.type (m : Message) : Option UInt8 :=
  (m.options.find? fun o => o.code = dhcpOptMessageType).bind fun o => o.value.head?

/-- The parser takes a message for an offer. -/
def Message.Offers (m : Message) : Prop :=
  ∃ o ∈ m.options, o.code = dhcpOptMessageType ∧ o.value.head? = some 2

/-- What a frame does to the variables of the client. -/
def receiveFrame (n : NetworkT) (frame : List UInt8) : NetworkT :=
  match message n frame with
  | none => n
  | some m => applyOptions { n with localIp := m.yiaddr } m.options

/-- `network_handle_ip` makes of the packet in a frame what `receiveFrame` says. -/
theorem networkHandleIp_frame {frame : List UInt8} (htype : be16At frame 12 = some ethPIp) (n : NetworkT) :
    networkHandleIp (frame.drop 14) n = some (receiveFrame n frame) := by
  rw [networkHandleIp_eq, List.drop_drop, networkHandleDhcpOffer_eq, be32At_drop, be32At_drop,
    List.length_drop, List.drop_drop]
  unfold receiveFrame
  by_cases hfor : ForDhcp n (frame.drop 14)
  · rw [if_pos hfor]
    rcases hfor with ⟨_, hprotocol, hdest, hserver, hclient⟩
    rw [be32At_drop] at hdest
    rw [be16At_drop] at hserver hclient
    rw [List.getElem?_drop] at hprotocol
    by_cases hcheck : 248 ≤ frame.length - (14 + 20) ∧
        be32At frame (14 + 20 + 4) = some n.dhcpTransactionId
    · have hlong : 282 ≤ frame.length := by omega
      have hsome : message n frame =
          some ⟨(be32At frame 58).getD 0, Tlv.decode 0 dhcpOptEnd (frame.drop 282)⟩ :=
        if_pos ⟨htype, hprotocol, hdest, hserver, hclient, hlong, hcheck.2⟩
      rw [if_pos hcheck, hsome]
    · have hnone : message n frame = none := by
        apply if_neg
        rintro ⟨_, _, _, _, _, hlong, hxid⟩
        exact hcheck ⟨by omega, hxid⟩
      rw [if_neg hcheck, hnone]
  · have hnone : message n frame = none := by
      apply if_neg
      rintro ⟨_, hprotocol, hdest, hserver, hclient, hlong, _⟩
      apply hfor
      refine ⟨by rw [List.length_drop]; omega, ?_, ?_, ?_, ?_⟩
      · rw [List.getElem?_drop]
        exact hprotocol
      · rw [be32At_drop]
        exact hdest
      · rw [be16At_drop]
        exact hserver
      · rw [be16At_drop]
        exact hclient
    rw [if_neg hfor, hnone]

/-- A packet changes what `receiveFrame` says, and otherwise at most the state of the card and of
ARP. -/
theorem processPacket_network (stack : Vector UInt8 60) (packet : List UInt8) (s : DriverT) :
    ∃ s', processPacket stack packet s = some s' ∧ s'.toNetworkT = receiveFrame s.toNetworkT packet := by
  have hignored (h : be16At packet 12 ≠ some ethPIp) : receiveFrame s.toNetworkT packet = s.toNetworkT := by
    have hnone : message s.toNetworkT packet = none := if_neg (fun hall => h hall.1)
    rw [receiveFrame, hnone]
  unfold processPacket
  by_cases hlen : packet.length < 14
  · rw [if_pos hlen, hignored]
    · exact ⟨s, rfl, rfl⟩
    · simp [be16At, List.getElem?_eq_none (by omega : packet.length ≤ 13)]
  rw [if_neg hlen]
  rcases be16At_isSome (b := packet) (by omega : 12 + 2 ≤ _) with ⟨ethertype, htype⟩
  simp only [htype, Option.bind_eq_bind, Option.bind_some]
  by_cases harp : ethertype = ethPArp
  · rw [if_pos harp, hignored]
    · exact networkHandleArp_network stack packet s
    · rw [htype, harp]
      decide
  rw [if_neg harp]
  by_cases hip : ethertype = ethPIp
  · rw [if_pos hip, networkHandleIp_frame (by rw [htype, hip])]
    exact ⟨_, rfl, rfl⟩
  · rw [if_neg hip, hignored]
    · exact ⟨s, rfl, rfl⟩
    · rw [htype, Ne, Option.some.injEq]
      exact hip

/-! ## Polls -/

/-- The frames that `rtl8139_process_rx` finds. -/
def receivedFrames : List Rx → Vector UInt8 1514 → List (List UInt8)
  | [], _ => []
  | rx :: rest, packet =>
    match rtl8139ReceivePacket rx packet with
    | none => []
    | some received =>
      match received.outLen with
      | none => []
      | some packetLen => received.buffer.toList.take packetLen :: receivedFrames rest received.buffer

/-- The frames of one call. -/
def Poll.frames (p : Poll) : List (List UInt8) := receivedFrames p.seen p.packet

/-- The frames of `m` calls from call `k` on. -/
def frames (polls : Nat → Poll) (k m : Nat) : List (List UInt8) :=
  (List.range' k m).flatMap fun i => (polls i).frames

section Polls

variable (polls : Nat → Poll)

theorem frames_add (k a b : Nat) : frames polls k (a + b) = frames polls k a ++ frames polls (k + a) b := by
  unfold frames
  rw [← List.range'_append_1, List.flatMap_append]

/-- What the client knows after `m` calls. -/
def after (n : NetworkT) (k m : Nat) : NetworkT := (frames polls k m).foldl receiveFrame n

theorem after_add (n : NetworkT) (k a b : Nat) :
    after polls n k (a + b) = after polls (after polls n k a) (k + a) b := by
  unfold after
  rw [frames_add, List.foldl_append]

end Polls

/-! ## Offers -/

/-- A frame that the client takes for an offer. -/
def Offer (n : NetworkT) (frame : List UInt8) : Prop := ∃ m, message n frame = some m ∧ m.Offers

section Discovery

variable (polls : Nat → Poll)

/-- An offer is among the frames of `m` calls. -/
def Offered (n : NetworkT) (k m : Nat) : Prop := Run.Happens receiveFrame Offer n (frames polls k m)

/-- The first offer comes with the call after `m` others. -/
def FirstOffer (n : NetworkT) (k m : Nat) : Prop := ¬ Offered polls n k m ∧ Offered polls n k (m + 1)

theorem offered_add (n : NetworkT) (k a b : Nat) :
    Offered polls n k (a + b) ↔ Offered polls n k a ∨ Offered polls (after polls n k a) (k + a) b := by
  unfold Offered
  rw [frames_add, Run.happens_append]
  exact Iff.rfl

theorem Offered.mono {polls : Nat → Poll} {n : NetworkT} {k a b : Nat} (h : Offered polls n k a)
    (hle : a ≤ b) : Offered polls n k b := by
  rw [show b = a + (b - a) by omega, offered_add]
  exact Or.inl h

theorem FirstOffer.unique {polls : Nat → Poll} {n : NetworkT} {k a b : Nat}
    (ha : FirstOffer polls n k a) (hb : FirstOffer polls n k b) : a = b := by
  rcases Nat.lt_trichotomy a b with hlt | heq | hgt
  · exact absurd (ha.2.mono hlt) hb.1
  · exact heq
  · exact absurd (hb.2.mono hgt) ha.1

/-- How polling for an offer ends: with the first one, or after all calls without any. -/
inductive Polled (n : NetworkT) (k left : Nat) (r : Nat × DriverT) : Prop where
  | found (m : Nat) (hlt : m < left) (hfirst : FirstOffer polls n k m) (hnext : r.1 = k + m + 1)
      (hnetwork : r.2.toNetworkT = after polls n k (m + 1))
  | exhausted (hnone : ¬ Offered polls n k left) (hnext : r.1 = k + left)
      (hnetwork : r.2.toNetworkT = after polls n k left)

variable {polls}

/-- Two waits in a row are one, the second after the first found nothing. -/
theorem Polled.append {n : NetworkT} {k a b : Nat} {r : Nat × DriverT} (hnone : ¬ Offered polls n k a)
    (h : Polled polls (after polls n k a) (k + a) b r) : Polled polls n k (a + b) r := by
  cases h with
  | found m hlt hfirst hnext hnetwork =>
    refine .found (a + m) (by omega) ⟨?_, ?_⟩ (by omega) ?_
    · rw [offered_add]
      exact not_or.2 ⟨hnone, hfirst.1⟩
    · rw [Nat.add_assoc, offered_add]
      exact Or.inr hfirst.2
    · rw [hnetwork, Nat.add_assoc a, ← after_add]
  | exhausted hnone' hnext hnetwork =>
    refine .exhausted ?_ (by omega) ?_
    · rw [offered_add]
      exact not_or.2 ⟨hnone, hnone'⟩
    · rw [hnetwork, after_add]

variable (polls)

end Discovery

/-! ## Sending -/

/-- There is a card, and it has a base address. -/
def Surroundings.Usable (env : Surroundings) : Prop := ∃ bar0, env.device = some bar0 ∧ ioBaseOf bar0 ≠ 0

/-- What the client knows when the first discover message is sent. -/
def Surroundings.started (env : Surroundings) : NetworkT := { networkState with localMac := env.mac }

section Initialize

variable (env : Surroundings)

end Initialize

/-! ## A server that only offers -/

end CosKernel.Network
