import CosKernel.Lib.Run
import CosKernel.Network.Delivery

/-!
# The receive loop when the card is quiet

Nothing marks a packet as taken: `rtl8139_process_rx` goes on as long as the status
at the next offset has its lowest bit set. When the card writes nothing more, the
offsets depend on the contents of the receive buffer only, and they grow but for two
cases. Behind an empty packet the code rounds the next offset down to that of the
packet itself. And behind a packet in the last four bytes of the buffer it goes on at
offset 0.
-/

namespace CosKernel.Network

open Bytes

/-! ## The loop -/

/-- `rtl8139_process_rx` with a card that writes nothing and shows the last value of `CapR`, and a
value of `CurR` for each turn; `none` if the loop has not ended within `n` turns. -/
def quietProcessRx (stack : Vector UInt8 60) (rxBuffer : Vector UInt8 rxBufferSize) :
    (n : Nat) → (Nat → UInt16) → Vector UInt8 1514 → DriverT → Option DriverT
  | 0, _, _, _ => none
  | n + 1, curR, packet, s => do
    let (again, packet, s) ← processRxStep stack ⟨rxBuffer, curR 0, s.capR⟩ packet s
    if again then quietProcessRx stack rxBuffer n (fun i => curR (i + 1)) packet s else return s

/-- The turns up to the end of the loop are a run of `rtl8139_process_rx`. -/
theorem rtl8139ProcessRx_of_quiet {stack : Vector UInt8 60} {rxBuffer : Vector UInt8 rxBufferSize}
    {n : Nat} {curR : Nat → UInt16} {packet : Vector UInt8 1514} {s s' : DriverT}
    (h : quietProcessRx stack rxBuffer n curR packet s = some s') :
    ∃ seen, rtl8139ProcessRx stack seen packet s = some s' := by
  induction n generalizing curR packet s with
  | zero => cases h
  | succ n ih =>
    simp only [quietProcessRx, Option.bind_eq_bind, Option.bind_eq_some_iff] at h
    rcases h with ⟨⟨again, packet', s₁⟩, hstep, h⟩
    cases again with
    | false =>
      refine ⟨[⟨rxBuffer, curR 0, s.capR⟩], ?_⟩
      simp only [rtl8139ProcessRx, hstep, Option.bind_eq_bind, Option.bind_some]
      exact h
    | true =>
      rcases ih h with ⟨seen, hseen⟩
      refine ⟨⟨rxBuffer, curR 0, s.capR⟩ :: seen, ?_⟩
      simp only [rtl8139ProcessRx, hstep, Option.bind_eq_bind, Option.bind_some]
      exact hseen

/-! ## `CapR` is left alone by the handlers -/

theorem startTransmit_capR (payloadLen : Nat) (s : DriverT) :
    (startTransmit payloadLen s).capR = s.capR := by
  unfold startTransmit transmit
  dsimp only
  split <;> rfl

theorem rtl8139SendFrame_capR {destMac : Mac} {ethertype : UInt16} {payload : List UInt8}
    {s s' : DriverT} {sent : Bool}
    (h : rtl8139SendFrame destMac ethertype payload s = some (sent, s')) : s'.capR = s.capR := by
  unfold rtl8139SendFrame at h
  split at h
  · cases h
    rfl
  · simp only [Option.bind_eq_bind, Option.bind_eq_some_iff, Option.pure_def, Option.some.injEq,
      Prod.mk.injEq] at h
    rcases h with ⟨_, _, _, _, _, _, _, _, _, hs⟩
    rw [← hs]
    exact startTransmit_capR _ _

theorem sendArpReply_capR {stack : Vector UInt8 60} {targetMac : Mac} {targetIp : UInt32}
    {s s' : DriverT} (h : sendArpReply stack targetMac targetIp s = some s') : s'.capR = s.capR := by
  simp only [sendArpReply, Option.bind_eq_bind, Option.bind_eq_some_iff, Option.pure_def,
    Option.some.injEq] at h
  rcases h with ⟨_, _, _, _, _, _, _, _, _, _, _, _, _, _, _, _, ⟨sent, s₁⟩, hsend, hs⟩
  rw [← hs]
  exact rtl8139SendFrame_capR hsend

theorem networkHandleArp_capR {stack : Vector UInt8 60} {frame : List UInt8} {s s' : DriverT}
    (h : networkHandleArp stack frame s = some s') : s'.capR = s.capR := by
  by_cases hlen : frame.length < 42
  · rw [networkHandleArp, if_pos hlen] at h
    cases h
    rfl
  · rcases exists_arpFields (Nat.le_of_not_lt hlen) with ⟨oper, senderMac, srcIp, targetIp, hfields⟩
    rw [networkHandleArp_eq hfields] at h
    split_ifs at h
    · exact sendArpReply_capR h
    · cases h
      rfl
    · cases h
      rfl
    · cases h
      rfl

theorem processPacket_capR {stack : Vector UInt8 60} {packet : List UInt8} {s s' : DriverT}
    (h : processPacket stack packet s = some s') : s'.capR = s.capR := by
  unfold processPacket at h
  by_cases hlen : packet.length < 14
  · rw [if_pos hlen] at h
    cases h
    rfl
  · rw [if_neg hlen, Option.bind_eq_bind, Option.bind_eq_some_iff] at h
    rcases h with ⟨ethertype, _, h⟩
    by_cases harp : ethertype = ethPArp
    · rw [if_pos harp] at h
      exact networkHandleArp_capR h
    rw [if_neg harp] at h
    by_cases hip : ethertype = ethPIp
    · rw [if_pos hip, Option.bind_eq_bind, Option.bind_eq_some_iff] at h
      rcases h with ⟨n, _, hs⟩
      cases hs
      rfl
    · rw [if_neg hip] at h
      cases h
      rfl

/-- A turn takes the packet of one call, and goes on if there is one. -/
theorem processRxStep_quiet (stack : Vector UInt8 60) (rxBuffer : Vector UInt8 rxBufferSize)
    (curR : UInt16) (packet : Vector UInt8 1514) (s : DriverT) :
    ∃ packet' s', processRxStep stack ⟨rxBuffer, curR, s.capR⟩ packet s =
        some ((callStep rxBuffer.toList s.capR).1.isSome, packet', s') ∧
      s'.capR = (callStep rxBuffer.toList s.capR).2 := by
  rcases rtl8139ReceivePacket_callStep ⟨rxBuffer, curR, s.capR⟩ packet with
    ⟨received, hreceive, hresult, hcap⟩
  rw [← hresult, ← hcap]
  simp only [processRxStep, hreceive, Option.bind_eq_bind, Option.bind_some]
  cases received.outLen with
  | none => exact ⟨_, _, rfl, rfl⟩
  | some packetLen =>
    rcases processPacket_safe stack (received.buffer.toList.take packetLen)
      { s with capR := received.capR.getD s.capR } with ⟨s', hpacket⟩
    simp only [hpacket, Option.bind_some]
    exact ⟨_, _, rfl, processPacket_capR hpacket⟩

/-! ## Offsets -/

/-- The length of the packet that the code takes at offset `o`, if it takes one. -/
def packetAt (m : List UInt8) (o : Nat) : Option Nat :=
  let status := (le16At m o).getD 0
  let length := (le16At m (o + 2)).getD 0
  if status &&& 0x01 = 0 ∨ 1500 < length.toNat ∨ rxBufferSize < o + 4 + length.toNat then none
  else some length.toNat

/-- The packet ends in the last four bytes of the receive buffer. -/
def EndsLast (o length : Nat) : Prop := rxBufferSize ≤ o + recordSize length

instance (o length : Nat) : Decidable (EndsLast o length) := inferInstanceAs (Decidable (_ ≤ _))

/-- Where the code looks for the packet behind one at offset `o`. -/
def following (o length : Nat) : Nat :=
  if EndsLast o length then 0 else readAt (o + recordSize length)

/-- The offset of the next turn. -/
def nextOffset (m : List UInt8) (o : Nat) : Option Nat := (packetAt m o).map (following o)

theorem eight_dvd_rxOffset (capR : UInt16) : 8 ∣ (rxOffset capR).toNat := by
  unfold rxOffset
  generalize (if capR = 0 then 0x3F8 else capR) = boundary
  dsimp only
  split_ifs
  · exact Nat.dvd_zero 8
  · rw [toNat_and_fff8]
    exact Nat.dvd_mul_left 8 _

/-- Behind the last packet that fits, the code goes on at offset 0. -/
theorem rxNext_of_endsLast {offset length : UInt16} (h4 : 4 ∣ offset.toNat)
    (hfits : offset.toNat + 4 + length.toNat ≤ 9708)
    (hend : 9708 ≤ offset.toNat + recordSize length.toNat) : rxNext offset length = capOf 0 := by
  have hsmall : offset.toNat + length.toNat + 7 < 65536 := by omega
  have hnext := toNat_next h4 hsmall
  unfold rxNext
  show (if ((offset + length + 4 + 3) &&& ~~~3).toNat ≥ 9708 then 0
    else (offset + length + 4 + 3) &&& ~~~3) - 16 &&& 0xFFF8 = _
  rw [if_pos (by omega)]
  rfl

theorem toNat_rxOffset_rxNext {offset length : UInt16} (h4 : 4 ∣ offset.toNat)
    (hfits : offset.toNat + 4 + length.toNat ≤ 9708) :
    (rxOffset (rxNext offset length)).toNat = following offset.toNat length.toNat := by
  unfold following
  by_cases hend : EndsLast offset.toNat length.toNat
  · rw [if_pos hend, rxNext_of_endsLast h4 hfits hend, toNat_rxOffset_capOf (by omega)]
    rfl
  · have hlt : offset.toNat + recordSize length.toNat < 9708 := Nat.lt_of_not_le hend
    rw [if_neg hend, rxNext_eq h4 hlt, toNat_rxOffset_capOf hlt]

/-- One call, in terms of the offsets. -/
theorem callStep_nextOffset (m : List UInt8) (capR : UInt16) :
    ((callStep m capR).1 = none ∧ nextOffset m (rxOffset capR).toNat = none) ∨
      ((callStep m capR).1.isSome = true ∧ nextOffset m (rxOffset capR).toNat =
        some (rxOffset (callStep m capR).2).toNat) := by
  have h8 := eight_dvd_rxOffset capR
  unfold callStep nextOffset packetAt
  dsimp only
  generalize (le16At m (rxOffset capR).toNat).getD 0 = status
  generalize (le16At m ((rxOffset capR).toNat + 2)).getD 0 = length
  by_cases heven : status &&& 0x01 = 0
  · left
    simp [heven]
  by_cases hlong : 1500 < length.toNat ∨ rxBufferSize < (rxOffset capR).toNat + 4 + length.toNat
  · left
    simp [heven, hlong]
  · right
    have hbounds := hlong
    rw [not_or, Nat.not_lt, Nat.not_lt] at hbounds
    have hnext := toNat_rxOffset_rxNext (by omega) hbounds.2
    simp only [heven, hlong, or_self, if_false, Option.isSome_some, Option.map_some, hnext, and_self]

/-- The loop ends when its offsets do. -/
theorem quietProcessRx_isSome (stack : Vector UInt8 60) (rxBuffer : Vector UInt8 rxBufferSize)
    (n : Nat) (curR : Nat → UInt16) (packet : Vector UInt8 1514) (s : DriverT) :
    (quietProcessRx stack rxBuffer n curR packet s).isSome =
      Run.endsWithin (nextOffset rxBuffer.toList) n (rxOffset s.capR).toNat := by
  induction n generalizing curR packet s with
  | zero => rfl
  | succ n ih =>
    rcases processRxStep_quiet stack rxBuffer (curR 0) packet s with ⟨packet', s', hstep, hcap⟩
    simp only [quietProcessRx, hstep, Option.bind_eq_bind, Option.bind_some]
    rcases callStep_nextOffset rxBuffer.toList s.capR with ⟨hnone, hnext⟩ | ⟨hsome, hnext⟩
    · simp [hnone, Run.endsWithin, hnext]
    · simp [hsome, Run.endsWithin, hnext, ih, hcap]

/-! ## Offsets that come back -/

/-- An empty packet at this offset is found again behind itself. -/
def Repeats (m : List UInt8) (o : Nat) : Prop := packetAt m o = some 0 ∧ o ≠ 16 ∧ ¬EndsLast o 0

/-- Behind the packet at this offset the code goes on at offset 0. -/
def Wraps (m : List UInt8) (o : Nat) : Prop := ∃ length, packetAt m o = some length ∧ EndsLast o length

/-- From offset `o` the packets lead to an empty one; or to the end of the buffer, and from offset 0
there again. -/
def Hangs (m : List UInt8) (o : Nat) : Prop :=
  (∃ o', Run.Leads (nextOffset m) o o' ∧ Repeats m o') ∨
    ((∃ o', Run.Leads (nextOffset m) o o' ∧ Wraps m o') ∧
      ∃ o', Run.Leads (nextOffset m) 0 o' ∧ Wraps m o')

section Offsets

variable {m : List UInt8} {o o' : Nat}

theorem eight_dvd_nextOffset (h : nextOffset m o = some o') : 8 ∣ o' := by
  rw [nextOffset, Option.map_eq_some_iff] at h
  rcases h with ⟨length, _, rfl⟩
  unfold following
  split_ifs
  · exact Nat.dvd_zero 8
  · exact eight_dvd_readAt _

theorem eight_dvd_of_leads (h8 : 8 ∣ o) (h : Run.Leads (nextOffset m) o o') : 8 ∣ o' := by
  rcases h.cases_tail with rfl | ⟨o₁, _, hstep⟩
  · exact h8
  · exact eight_dvd_nextOffset hstep

theorem nextOffset_of_repeats (h8 : 8 ∣ o) (h : Repeats m o) : nextOffset m o = some o := by
  rcases h with ⟨hpacket, h16, hend⟩
  have hempty : recordSize 0 = 4 := by decide
  rw [nextOffset, hpacket, Option.map_some, following, if_neg hend, hempty, readAt,
    if_neg (by omega), Option.some.injEq]
  omega

theorem nextOffset_of_wraps (h : Wraps m o) : nextOffset m o = some 0 := by
  rcases h with ⟨length, hpacket, hend⟩
  rw [nextOffset, hpacket, Option.map_some, following, if_pos hend]

/-- Else the offset grows. -/
theorem lt_nextOffset (h8 : 8 ∣ o) (hstep : nextOffset m o = some o') (hrepeats : ¬Repeats m o)
    (hwraps : ¬Wraps m o) : o < o' := by
  rw [nextOffset, Option.map_eq_some_iff] at hstep
  rcases hstep with ⟨length, hpacket, rfl⟩
  have hend : ¬EndsLast o length := fun hend => hwraps ⟨length, hpacket, hend⟩
  rw [following, if_neg hend, readAt]
  rcases Nat.eq_zero_or_pos length with rfl | hpos
  · -- an empty packet that is not found again is the one at offset 16
    have h16 : o = 16 := by
      by_contra h16
      exact hrepeats ⟨hpacket, h16, hend⟩
    rw [h16]
    decide
  · have hrecord : 8 ≤ recordSize length := by
      unfold recordSize
      omega
    split_ifs <;> omega

theorem le_of_nextOffset (hstep : nextOffset m o = some o') : o ≤ 9704 := by
  rw [nextOffset, Option.map_eq_some_iff] at hstep
  rcases hstep with ⟨length, hpacket, _⟩
  unfold packetAt at hpacket
  dsimp only at hpacket
  split_ifs at hpacket with hnone
  have hfits : ¬9708 < o + 4 + ((le16At m (o + 2)).getD 0).toNat :=
    fun hlong => hnone (Or.inr (Or.inr hlong))
  omega

/-- The loop ends if no empty packet is on its way, and if it ends from offset 0 in case it gets
there. -/
theorem ends_of_not_repeats (h8 : 8 ∣ o)
    (hrepeats : ∀ o', Run.Leads (nextOffset m) o o' → ¬Repeats m o')
    (hwraps : (∃ o', Run.Leads (nextOffset m) o o' ∧ Wraps m o') → Run.Ends (nextOffset m) 0) :
    Run.Ends (nextOffset m) o := by
  -- the offsets grow up to the end of the buffer
  induction hleft : 9708 - o using Nat.strong_induction_on generalizing o with
  | _ left ih =>
    refine ⟨o, ?_⟩
    intro o₁ hstep
    by_cases hwrap : Wraps m o
    · have hzero := nextOffset_of_wraps hwrap
      rw [hstep, Option.some.injEq] at hzero
      subst hzero
      exact hwraps ⟨o, .refl, hwrap⟩
    · have hgrows := lt_nextOffset h8 hstep (hrepeats o .refl) hwrap
      have hle := le_of_nextOffset hstep
      apply ih (9708 - o₁) (by omega) (eight_dvd_nextOffset hstep) _ _ rfl
      · intro o' hleads
        exact hrepeats o' (hleads.head hstep)
      · rintro ⟨o', hleads, hwrap'⟩
        exact hwraps ⟨o', hleads.head hstep, hwrap'⟩

theorem ends_iff (h8 : 8 ∣ o) : Run.Ends (nextOffset m) o ↔ ¬Hangs m o := by
  constructor
  · rintro hends (⟨o', hleads, hrepeats⟩ | ⟨⟨o', hleads, hwrap⟩, o'', hleads', hwrap'⟩)
    · have hagain := nextOffset_of_repeats (eight_dvd_of_leads h8 hleads) hrepeats
      exact Run.not_ends_of_cycle hagain .refl (hends.of_leads hleads)
    · -- offset 0 is behind the packet at `o''`, and in front of it
      have hzero : Run.Leads (nextOffset m) o o'' :=
        (hleads.tail (nextOffset_of_wraps hwrap)).trans hleads'
      exact Run.not_ends_of_cycle (nextOffset_of_wraps hwrap') hleads' (hends.of_leads hzero)
  · intro h
    rcases not_or.mp h with ⟨hrepeats, hwraps⟩
    apply ends_of_not_repeats h8
    · intro o' hleads hagain
      exact hrepeats ⟨o', hleads, hagain⟩
    · rintro ⟨o', hleads, hwrap⟩
      have hzero : Run.Leads (nextOffset m) o 0 := hleads.tail (nextOffset_of_wraps hwrap)
      apply ends_of_not_repeats (Nat.dvd_zero 8)
      · intro o'' hleads' hagain
        exact hrepeats ⟨o'', hzero.trans hleads', hagain⟩
      · rintro ⟨o'', hleads', hwrap'⟩
        exact absurd ⟨⟨o', hleads, hwrap⟩, o'', hleads', hwrap'⟩ hwraps

end Offsets

/-- **Packet processing with a quiet card.** Whatever is in the receive buffer, and whatever `CapR` is
at first, `rtl8139_process_rx` ends exactly when the packets neither lead to an empty one that is
found again behind itself, nor twice to the end of the buffer. -/
theorem quiet_loop_ends_iff (stack : Vector UInt8 60) (rxBuffer : Vector UInt8 rxBufferSize)
    (curR : Nat → UInt16) (packet : Vector UInt8 1514) (s : DriverT) :
    (∃ n, (quietProcessRx stack rxBuffer n curR packet s).isSome = true) ↔
      ¬Hangs rxBuffer.toList (rxOffset s.capR).toNat := by
  simp only [quietProcessRx_isSome]
  rw [Run.exists_endsWithin_iff, ends_iff (eight_dvd_rxOffset s.capR)]

/-- A receive buffer that begins with the header of an empty packet. -/
def emptyPacket : Vector UInt8 rxBufferSize :=
  Vector.ofFn fun i => if i.val = 0 then 1 else 0

theorem le16At_emptyPacket :
    le16At emptyPacket.toList 0 = some 1 ∧ le16At emptyPacket.toList 2 = some 0 := by
  have hget : ∀ i, i < rxBufferSize →
      emptyPacket.toList[i]? = some (if i = 0 then (1 : UInt8) else 0) := by
    intro i hi
    rw [Vector.getElem?_toList, emptyPacket, Vector.getElem?_ofFn, dif_pos hi]
  unfold le16At
  rw [hget 0 (by decide), hget (0 + 1) (by decide), hget 2 (by decide), hget (2 + 1) (by decide)]
  exact ⟨rfl, rfl⟩

/-- After a reset, the loop takes the empty packet at offset 0 again and again. -/
theorem empty_packet_hangs :
    ¬∀ (stack : Vector UInt8 60) (rxBuffer : Vector UInt8 rxBufferSize) (curR : Nat → UInt16)
      (packet : Vector UInt8 1514) (s : DriverT),
      ∃ n, (quietProcessRx stack rxBuffer n curR packet s).isSome = true := by
  intro h
  rcases h (Vector.replicate 60 0) emptyPacket (fun _ => 0) (Vector.replicate 1514 0) driverState with
    ⟨n, hn⟩
  rw [quietProcessRx_isSome] at hn
  have hoffset : (rxOffset driverState.capR).toNat = 0 := by decide
  rw [hoffset] at hn
  have hpacket : packetAt emptyPacket.toList 0 = some 0 := by
    unfold packetAt
    rw [le16At_emptyPacket.1, Nat.zero_add, le16At_emptyPacket.2]
    decide
  have hagain := nextOffset_of_repeats (Nat.dvd_zero 8) ⟨hpacket, by decide, by decide⟩
  exact Run.not_ends_of_cycle hagain .refl (.of_endsWithin hn)

end CosKernel.Network
