import CosKernel.Network.Lease
import CosKernel.Network.Options

/-!
# What a node says

Everything the card sends, over whole runs. While it polls, a node answers the ARP
requests for the address it has at that moment, one frame for each, and says
nothing else; `network_initialize` says up to three discover messages, and one
request if an offer came. The trace of a run is a function of the frames received:
it is put together from the traces of its parts.
-/

namespace CosKernel.Network

open Bytes

/-! ## Answers -/

/-- The frame is an ARP packet with this operation. -/
def IsArp (oper : UInt16) (frame : List UInt8) : Prop :=
  42 ≤ frame.length ∧ be16At frame 12 = some ethPArp ∧ be16At frame 20 = some oper

instance (oper : UInt16) (frame : List UInt8) : Decidable (IsArp oper frame) :=
  inferInstanceAs (Decidable (_ ∧ _))

def senderMac (frame : List UInt8) : Mac := (macAt frame 22).getD (Vector.replicate 6 0)

def senderIp (frame : List UInt8) : UInt32 := (be32At frame 28).getD 0

/-- What a node that knows `n` of the network says when it receives the frame. -/
def answer (n : NetworkT) (frame : List UInt8) : List (List UInt8) :=
  if IsArp arpOperRequest frame ∧ be32At frame 38 = some n.localIp then
    [replyFrame n.localMac n.localIp (senderMac frame) (senderIp frame)]
  else []

/-- What it says when it receives these frames. -/
def answers : NetworkT → List (List UInt8) → List (List UInt8)
  | _, [] => []
  | n, frame :: frames => answer n frame ++ answers (receiveFrame n frame) frames

/-- The peer that is known after the frame: the sender of a reply. -/
def learn (peer : Mac × UInt32) (frame : List UInt8) : Mac × UInt32 :=
  if IsArp arpOperReply frame then (senderMac frame, senderIp frame) else peer

theorem answers_append (n : NetworkT) (frames frames' : List (List UInt8)) :
    answers n (frames ++ frames') = answers n frames ++ answers (frames.foldl receiveFrame n) frames' := by
  induction frames generalizing n with
  | nil => rfl
  | cons frame frames ih => rw [List.cons_append, answers, answers, ih, List.append_assoc, List.foldl_cons]

/-! ## Traces -/

def DriverT.peer (s : DriverT) : Mac × UInt32 := (s.arpPeerMac, s.arpPeerIp)

/-- From `s` to `s'` the node received these frames, and answered them. -/
structure Answers (frames : List (List UInt8)) (s s' : DriverT) : Prop where
  network : s'.toNetworkT = frames.foldl receiveFrame s.toNetworkT
  sent : s'.sent = s.sent ++ answers s.toNetworkT frames
  peer : s'.peer = frames.foldl learn s.peer

theorem Answers.refl (s : DriverT) : Answers [] s s := ⟨rfl, (List.append_nil _).symm, rfl⟩

theorem Answers.trans {frames frames' : List (List UInt8)} {s s₁ s₂ : DriverT} (h : Answers frames s s₁)
    (h' : Answers frames' s₁ s₂) : Answers (frames ++ frames') s s₂ := by
  refine ⟨?_, ?_, ?_⟩
  · rw [h'.network, h.network, List.foldl_append]
  · rw [h'.sent, h.sent, h.network, answers_append, List.append_assoc]
  · rw [h'.peer, h.peer, List.foldl_append]

/-- A frame that is not an ARP packet of these two kinds is not answered, and nothing is learned. -/
theorem answer_of_not {n : NetworkT} {frame : List UInt8} (h : ¬ IsArp arpOperRequest frame) :
    answer n frame = [] := if_neg fun hall => h hall.1

theorem learn_of_not {peer : Mac × UInt32} {frame : List UInt8} (h : ¬ IsArp arpOperReply frame) :
    learn peer frame = peer := if_neg h

section Fields

variable {frame : List UInt8} {oper : UInt16} {mac : Mac} {srcIp targetIp : UInt32}
  (h : ArpFields frame oper mac srcIp targetIp) (htype : be16At frame 12 = some ethPArp)

include h

theorem isArp_iff (code : UInt16) : IsArp code frame ↔ be16At frame 12 = some ethPArp ∧ oper = code := by
  have hoper := h.oper
  rw [be16At_drop] at hoper
  unfold IsArp
  rw [hoper, Option.some.injEq]
  exact and_iff_right h.length

theorem senderMac_eq : senderMac frame = mac := by
  have hdrop := h.senderMac
  simp only [macAt, List.getElem?_drop] at hdrop
  simp only [senderMac, macAt, hdrop, Option.getD_some]

theorem senderIp_eq : senderIp frame = srcIp := by
  have hsrc := h.srcIp
  rw [be32At_drop] at hsrc
  rw [senderIp, hsrc, Option.getD_some]

include htype

/-- The answer in terms of the fields the handler reads. -/
theorem answer_eq (n : NetworkT) :
    answer n frame = if oper = arpOperRequest ∧ targetIp = n.localIp
      then [replyFrame n.localMac n.localIp mac srcIp] else [] := by
  have htarget := h.targetIp
  rw [be32At_drop] at htarget
  unfold answer
  rw [senderMac_eq h, senderIp_eq h]
  refine if_congr ?_ rfl rfl
  rw [isArp_iff h, htarget, Option.some.injEq]
  exact and_congr_left' (and_iff_right htype)

theorem learn_eq (peer : Mac × UInt32) :
    learn peer frame = if oper = arpOperReply then (mac, srcIp) else peer := by
  unfold learn
  rw [senderMac_eq h, senderIp_eq h]
  refine if_congr ?_ rfl rfl
  rw [isArp_iff h]
  exact and_iff_right htype

end Fields

section Packet

variable (stack : Vector UInt8 60)

/-- `network_handle_arp` answers and learns. -/
theorem networkHandleArp_answers {frame : List UInt8} (htype : be16At frame 12 = some ethPArp) (s : DriverT) :
    ∃ s', networkHandleArp stack frame s = some s' ∧
      s'.sent = s.sent ++ answer s.toNetworkT frame ∧ s'.peer = learn s.peer frame := by
  by_cases hlen : frame.length < 42
  · have hnot (oper : UInt16) : ¬ IsArp oper frame := fun h => absurd h.1 (by omega)
    rw [networkHandleArp, if_pos hlen, answer_of_not (hnot _), learn_of_not (hnot _), List.append_nil]
    exact ⟨s, rfl, rfl, rfl⟩
  rcases exists_arpFields (Nat.le_of_not_lt hlen) with ⟨oper, mac, srcIp, targetIp, hfields⟩
  rw [networkHandleArp_eq hfields, answer_eq hfields htype, learn_eq hfields htype]
  by_cases hrequest : oper = arpOperRequest
  · have hreply : oper ≠ arpOperReply := by
      rw [hrequest]
      decide
    rw [if_pos hrequest, if_neg hreply]
    by_cases hmine : targetIp = s.localIp
    · rw [if_pos hmine, if_pos ⟨hrequest, hmine⟩]
      rcases sendArpReply_spec stack mac srcIp s with ⟨s', hsend, hsends⟩
      exact ⟨s', hsend, hsends.sent, Prod.ext hsends.peerMac hsends.peerIp⟩
    · rw [if_neg hmine, if_neg (fun h => hmine h.2), List.append_nil]
      exact ⟨s, rfl, rfl, rfl⟩
  have hsilent : ¬ (oper = arpOperRequest ∧ targetIp = s.localIp) := fun h => hrequest h.1
  rw [if_neg hsilent, if_neg hrequest, List.append_nil]
  by_cases hreply : oper = arpOperReply
  · rw [if_pos hreply, if_pos hreply]
    exact ⟨_, rfl, rfl, rfl⟩
  · rw [if_neg hreply, if_neg hreply]
    exact ⟨s, rfl, rfl, rfl⟩

/-- A packet is answered like the frame it is. -/
theorem processPacket_answers (packet : List UInt8) (s : DriverT) :
    ∃ s', processPacket stack packet s = some s' ∧ Answers [packet] s s' := by
  rcases processPacket_network stack packet s with ⟨s₁, hprocess, hnetwork⟩
  suffices hsaid : s₁.sent = s.sent ++ answer s.toNetworkT packet ∧ s₁.peer = learn s.peer packet by
    refine ⟨s₁, hprocess, hnetwork, ?_, hsaid.2⟩
    rw [answers, answers, List.append_nil]
    exact hsaid.1
  -- what is not ARP changes neither
  have hsilent (hnot : be16At packet 12 ≠ some ethPArp ∨ packet.length < 14)
      (hsame : s₁.sent = s.sent ∧ s₁.peer = s.peer) :
      s₁.sent = s.sent ++ answer s.toNetworkT packet ∧ s₁.peer = learn s.peer packet := by
    have hnone (oper : UInt16) : ¬ IsArp oper packet := by
      rintro ⟨hlen, htype, -⟩
      rcases hnot with hnot | hnot
      · exact hnot htype
      · omega
    rw [answer_of_not (hnone _), learn_of_not (hnone _), List.append_nil]
    exact hsame
  unfold processPacket at hprocess
  by_cases hlen : packet.length < 14
  · rw [if_pos hlen] at hprocess
    obtain rfl : s = s₁ := Option.some.inj hprocess
    exact hsilent (Or.inr hlen) ⟨rfl, rfl⟩
  rcases be16At_isSome (b := packet) (by omega : 12 + 2 ≤ _) with ⟨ethertype, htype⟩
  simp only [if_neg hlen, htype, Option.bind_eq_bind, Option.bind_some] at hprocess
  by_cases harp : ethertype = ethPArp
  · rw [if_pos harp] at hprocess
    rw [harp] at htype
    rcases networkHandleArp_answers stack htype s with ⟨s₂, hhandle, hsaid⟩
    obtain rfl : s₁ = s₂ := Option.some.inj (hprocess.symm.trans hhandle)
    exact hsaid
  have hother : be16At packet 12 ≠ some ethPArp := by
    rw [htype, Ne, Option.some.injEq]
    exact harp
  refine hsilent (Or.inl hother) ?_
  rw [if_neg harp] at hprocess
  by_cases hip : ethertype = ethPIp
  · rw [if_pos hip, Option.bind_eq_some_iff] at hprocess
    rcases hprocess with ⟨n, -, hn⟩
    obtain rfl := Option.some.inj hn
    exact ⟨rfl, rfl⟩
  · rw [if_neg hip] at hprocess
    obtain rfl : s = s₁ := Option.some.inj hprocess
    exact ⟨rfl, rfl⟩

/-- A call of `rtl8139_process_rx` answers the frames it finds. -/
theorem rtl8139ProcessRx_answers (seen : List Rx) (packet : Vector UInt8 1514) (s : DriverT) :
    ∃ s', rtl8139ProcessRx stack seen packet s = some s' ∧ Answers (receivedFrames seen packet) s s' := by
  induction seen generalizing packet s with
  | nil => exact ⟨s, rfl, Answers.refl s⟩
  | cons rx rest ih =>
    rcases rtl8139ReceivePacket_safe (by decide) rx packet with ⟨⟨buffer, outLen, capR⟩, hreceive, -, -⟩
    simp only [rtl8139ProcessRx, processRxStep, receivedFrames, hreceive, Option.bind_eq_bind,
      Option.bind_some]
    -- the register `CapR` is of no interest here
    have hcapR : Answers [] s { s with capR := capR.getD s.capR } := ⟨rfl, (List.append_nil _).symm, rfl⟩
    cases outLen with
    | none => exact ⟨_, rfl, hcapR⟩
    | some packetLen =>
      rcases processPacket_answers stack (buffer.toList.take packetLen)
        { s with capR := capR.getD s.capR } with ⟨s₁, hpacket, hanswers⟩
      simp only [hpacket, Option.bind_some]
      rcases ih buffer s₁ with ⟨s₂, hrest, hanswers₂⟩
      exact ⟨s₂, hrest, (hcapR.trans hanswers).trans hanswers₂⟩

end Packet

theorem Poll.run_answers (p : Poll) (s : DriverT) : ∃ s', p.run s = some s' ∧ Answers p.frames s s' :=
  rtl8139ProcessRx_answers p.stack p.seen p.packet s

/-! ## `network_poll` -/

/-- `network_poll` -/
def networkPoll (s : ModuleT) (p : Poll) : Option ModuleT :=
  if !s.networkReady then return s
  else do return { s with toDriverT := ← p.run s.toDriverT }

/-- For any number of `network_poll` calls: before the network is ready they do nothing, and after that
the node sends the answers to the frames it finds, in their order, and nothing else; it knows of the
network what these frames tell, and as its peer the sender of the last reply. -/
theorem network_poll_answers (polls : List Poll) (s : ModuleT) :
    ∃ s', polls.foldlM networkPoll s = some s' ∧ s'.networkReady = s.networkReady ∧
      (s.networkReady = false → s' = s) ∧
      (s.networkReady = true →
        s'.toNetworkT = (polls.flatMap Poll.frames).foldl receiveFrame s.toNetworkT ∧
        s'.sent = s.sent ++ answers s.toNetworkT (polls.flatMap Poll.frames) ∧
        s'.peer = (polls.flatMap Poll.frames).foldl learn s.peer) := by
  have hrun : ∃ s', polls.foldlM networkPoll s = some s' ∧ s'.networkReady = s.networkReady ∧
      (s.networkReady = false → s' = s) ∧
      (s.networkReady = true → Answers (polls.flatMap Poll.frames) s.toDriverT s'.toDriverT) := by
    induction polls generalizing s with
    | nil => exact ⟨s, rfl, rfl, fun _ => rfl, fun _ => Answers.refl _⟩
    | cons p polls ih =>
      rcases hready : s.networkReady with _ | _
      · rcases ih s with ⟨s', hs', hready', hsame, -⟩
        refine ⟨s', ?_, hready'.trans hready, fun _ => hsame hready, fun h => absurd h (by decide)⟩
        simp only [List.foldlM_cons, networkPoll, hready, Bool.not_false, if_true, Option.bind_eq_bind]
        exact hs'
      · rcases p.run_answers s.toDriverT with ⟨d, hd, hanswers⟩
        rcases ih { s with toDriverT := d } with ⟨s', hs', hready', -, hrest⟩
        refine ⟨s', ?_, hready'.trans hready, fun h => absurd h (by decide), ?_⟩
        · simp only [List.foldlM_cons, networkPoll, hready, hd, Bool.not_true, Bool.false_eq_true, if_false,
            Option.bind_eq_bind, Option.bind_some]
          rw [hready] at hs'
          exact hs'
        · intro _
          exact hanswers.trans (hrest hready)
  rcases hrun with ⟨s', hs', hready, hsame, hanswers⟩
  refine ⟨s', hs', hready, hsame, ?_⟩
  intro h
  exact ⟨(hanswers h).network, (hanswers h).sent, (hanswers h).peer⟩

/-! ## The messages of DHCP -/

section Initialize

variable (polls : Nat → Poll)

end Initialize

end CosKernel.Network
