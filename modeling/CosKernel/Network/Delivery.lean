import CosKernel.Network.Receive

/-!
# Delivery of received packets

The card writes packets one after the other, each at a multiple of 4, and successive
calls of `rtl8139_receive_packet` should return them. The code rounds the offset of
the next packet to a multiple of 4 and then, twice, to a multiple of 8; and it takes
the value 0 of `CapR`, which it writes itself for the offsets 16 and 20, for a
register that was never set.
-/

namespace CosKernel.Network

open Bytes

/-! ## Packets in the receive buffer -/

/-- A packet, as the card writes it. -/
structure RxPacket where
  status : UInt16
  data : List UInt8
  status_odd : status &&& 0x01 ≠ 0
  length_le : data.length ≤ 1500

/-- The bytes from a packet to the next one. -/
def recordSize (length : Nat) : Nat := (length + 7) / 4 * 4

def RxPacket.encode (p : RxPacket) : List UInt8 :=
  le16Bytes p.status ++ (le16Bytes (UInt16.ofNat p.data.length) ++
    (p.data ++ List.replicate (recordSize p.data.length - (4 + p.data.length)) 0))

/-- The receive buffer: the packets from offset 0 on, and zeros. -/
def memory (ps : List RxPacket) : List UInt8 :=
  ps.flatMap RxPacket.encode ++
    List.replicate (rxBufferSize - (ps.flatMap RxPacket.encode).length) 0

/-- The bytes that packets of these lengths take. -/
def totalSize (lengths : List Nat) : Nat := (lengths.map recordSize).sum

/-- Successive calls of `rtl8139_receive_packet`, one for each value of `CurR`, with `CapR` as it was
last written: the packets that they return. -/
def receiveCalls (rxBuffer : Vector UInt8 rxBufferSize) :
    List UInt16 → UInt16 → Vector UInt8 1514 → Option (List (Option (List UInt8)))
  | [], _, _ => some []
  | curR :: rest, capR, buffer => do
    let received ← rtl8139ReceivePacket ⟨rxBuffer, curR, capR⟩ buffer
    let results ← receiveCalls rxBuffer rest (received.capR.getD capR) received.buffer
    return received.outLen.map (received.buffer.toList.take ·) :: results

/-- Every packet is returned once and in order, and then nothing. -/
def Delivered (ps : List RxPacket) : Prop :=
  ∀ (rxBuffer : Vector UInt8 rxBufferSize) (curRs : List UInt16) (buffer : Vector UInt8 1514),
    rxBuffer.toList = memory ps → curRs.length = ps.length + 1 →
      receiveCalls rxBuffer curRs 0xFFF0 buffer = some (ps.map (fun p => some p.data) ++ [none])

/-- The packets from offset `o` on begin where the code looks for them. -/
def Readable : Nat → List Nat → Prop
  | _, [] => True
  | o, length :: rest => (8 ∣ o ∧ o ≠ 16) ∧ Readable (o + recordSize length) rest

/-- The same for all packets, and the code finds nothing after the last one. -/
def InStep (lengths : List Nat) : Prop :=
  Readable 0 lengths ∧ (8 ∣ totalSize lengths ∨ totalSize lengths = 20)

instance decidableReadable : (o : Nat) → (lengths : List Nat) → Decidable (Readable o lengths)
  | _, [] => isTrue trivial
  | o, length :: rest =>
    have := decidableReadable (o + recordSize length) rest
    inferInstanceAs (Decidable ((8 ∣ o ∧ o ≠ 16) ∧ Readable (o + recordSize length) rest))

instance (lengths : List Nat) : Decidable (InStep lengths) :=
  inferInstanceAs (Decidable (Readable 0 lengths ∧ _))

theorem recordSize_ge (length : Nat) : 4 + length ≤ recordSize length := by
  unfold recordSize
  omega

theorem four_dvd_recordSize (length : Nat) : 4 ∣ recordSize length := Nat.dvd_mul_left 4 _

theorem length_encode (p : RxPacket) : p.encode.length = recordSize p.data.length := by
  have hge := recordSize_ge p.data.length
  simp [RxPacket.encode, le16Bytes]
  omega

theorem length_flatMap_encode (ps : List RxPacket) :
    (ps.flatMap RxPacket.encode).length = totalSize (ps.map (·.data.length)) := by
  induction ps with
  | nil => rfl
  | cons p ps ih =>
    rw [List.flatMap_cons, List.length_append, ih, length_encode]
    rfl

theorem length_memory {ps : List RxPacket} (h : totalSize (ps.map (·.data.length)) ≤ 8192) :
    (memory ps).length = rxBufferSize := by
  have hlen := length_flatMap_encode ps
  rw [memory, List.length_append, List.length_replicate]
  show _ + (9708 - _) = 9708
  omega

/-! ## One call -/

/-- What a call returns and the `CapR` it leaves, given the contents of the receive buffer. -/
def callStep (m : List UInt8) (capR : UInt16) : Option (List UInt8) × UInt16 :=
  let offset := rxOffset capR
  let status := (le16At m offset.toNat).getD 0
  let length := (le16At m (offset.toNat + 2)).getD 0
  if status &&& 0x01 = 0 then (none, capR)
  else if 1500 < length.toNat ∨ rxBufferSize < offset.toNat + 4 + length.toNat then
    (none, (offset - 16) &&& 0xFFF8)
  else (some ((m.drop (offset.toNat + 4)).take length.toNat), rxNext offset length)

def calls (m : List UInt8) : Nat → UInt16 → List (Option (List UInt8))
  | 0, _ => []
  | n + 1, capR => (callStep m capR).1 :: calls m n (callStep m capR).2

/-- A call depends on nothing else. -/
theorem rtl8139ReceivePacket_callStep (rx : Rx) (buffer : Vector UInt8 1514) :
    ∃ received, rtl8139ReceivePacket rx buffer = some received ∧
      received.outLen.map (received.buffer.toList.take ·) = (callStep rx.rxBuffer.toList rx.capR).1 ∧
      received.capR.getD rx.capR = (callStep rx.rxBuffer.toList rx.capR).2 := by
  obtain ⟨status, length, hheader⟩ := exists_rxHeader rx
  unfold callStep
  simp only [hheader.status, hheader.length, Option.getD_some]
  by_cases heven : status &&& 0x01 = 0
  · rw [if_pos heven]
    exact ⟨_, rtl8139ReceivePacket_of_even hheader heven buffer, rfl, rfl⟩
  rw [if_neg heven]
  by_cases hlong : 1500 < length.toNat ∨
      rxBufferSize < (rxOffset rx.capR).toNat + 4 + length.toNat
  · rw [if_pos hlong]
    exact ⟨_, rtl8139ReceivePacket_of_long hheader heven hlong buffer, rfl, rfl⟩
  · rw [if_neg hlong]
    rw [not_or, Nat.not_lt, Nat.not_lt] at hlong
    obtain ⟨hshort, hfits⟩ := hlong
    obtain ⟨buffer', hreceive, hbytes⟩ :=
      rtl8139ReceivePacket_of_fits hheader heven hshort hfits (by decide) buffer
    refine ⟨_, hreceive, ?_, rfl⟩
    show some (buffer'.toList.take length.toNat) = _
    rw [hbytes, List.take_left' (length_rxData hfits)]
    rfl

theorem receiveCalls_eq (rxBuffer : Vector UInt8 rxBufferSize) (curRs : List UInt16) (capR : UInt16)
    (buffer : Vector UInt8 1514) :
    receiveCalls rxBuffer curRs capR buffer = some (calls rxBuffer.toList curRs.length capR) := by
  induction curRs generalizing capR buffer with
  | nil => rfl
  | cons curR rest ih =>
    obtain ⟨received, hreceive, hresult, hcap⟩ :=
      rtl8139ReceivePacket_callStep ⟨rxBuffer, curR, capR⟩ buffer
    simp only [receiveCalls, hreceive, Option.bind_eq_bind, Option.bind_some, ih]
    rw [hresult, hcap]
    rfl

/-- So delivery is about the contents of the receive buffer only. -/
theorem delivered_iff {ps : List RxPacket} (h : totalSize (ps.map (·.data.length)) ≤ 8192) :
    Delivered ps ↔
      calls (memory ps) (ps.length + 1) 0xFFF0 = ps.map (fun p => some p.data) ++ [none] := by
  constructor
  · intro hdelivered
    have hsize : (memory ps).toArray.size = rxBufferSize := length_memory h
    have hcalls := hdelivered ⟨(memory ps).toArray, hsize⟩ (List.replicate (ps.length + 1) 0)
      (Vector.replicate 1514 0) rfl List.length_replicate
    rw [receiveCalls_eq, List.length_replicate] at hcalls
    exact Option.some.inj hcalls
  · intro hcalls rxBuffer curRs buffer hmemory hlength
    rw [receiveCalls_eq, hmemory, hlength, hcalls]

/-! ## Offsets -/

/-- `CapR` for the offset `o`. -/
def capOf (o : Nat) : UInt16 := (UInt16.ofNat o - 16) &&& 0xFFF8

/-- Where the code reads when it has written `CapR` for the offset `o`. -/
def readAt (o : Nat) : Nat := if o / 8 = 2 then 1032 else o / 8 * 8

theorem toNat_capOf {o : Nat} (h : o < 9708) :
    (capOf o).toNat = (65520 + o) % 65536 / 8 * 8 := by
  rw [capOf, toNat_and_fff8, UInt16.toNat_sub, UInt16.toNat_ofNat_of_lt' (by
    show o < 65536
    omega)]
  rfl

theorem toNat_rxOffset_capOf {o : Nat} (h : o < 9708) :
    (rxOffset (capOf o)).toNat = readAt o := by
  have hcap := toNat_capOf h
  have hzero : capOf o = 0 ↔ o / 8 = 2 := by
    rw [← UInt16.toNat_inj, hcap]
    show _ = 0 ↔ _
    omega
  unfold rxOffset readAt
  by_cases hfallback : o / 8 = 2
  · rw [if_pos hfallback, if_pos (hzero.mpr hfallback)]
    decide
  · rw [if_neg hfallback, if_neg (mt hzero.mp hfallback)]
    have hoffset : ((capOf o + 16) &&& 0xFFF8).toNat = o / 8 * 8 := by
      rw [toNat_and_fff8, UInt16.toNat_add, hcap]
      show ((65520 + o) % 65536 / 8 * 8 + 16) % 65536 / 8 * 8 = _
      omega
    show (if ((capOf o + 16) &&& 0xFFF8).toNat ≥ 9708 then (0 : UInt16)
      else (capOf o + 16) &&& 0xFFF8).toNat = _
    rw [if_neg (by omega), hoffset]

/-- The offset of the next packet, before it is compared with the size of the buffer. -/
theorem toNat_next {offset length : UInt16} (h4 : 4 ∣ offset.toNat)
    (hlt : offset.toNat + length.toNat + 7 < 65536) :
    ((offset + length + 4 + 3) &&& ~~~3).toNat = offset.toNat + recordSize length.toNat := by
  unfold recordSize
  rw [toNat_and_not_three, UInt16.toNat_add, UInt16.toNat_add, UInt16.toNat_add]
  show (((offset.toNat + length.toNat) % 65536 + 4) % 65536 + 3) % 65536 / 4 * 4 = _
  omega

/-- After a packet at a multiple of 4 comes the next one. -/
theorem rxNext_eq {offset length : UInt16} (h4 : 4 ∣ offset.toNat)
    (hlt : offset.toNat + recordSize length.toNat < 9708) :
    rxNext offset length = capOf (offset.toNat + recordSize length.toNat) := by
  have hge := recordSize_ge length.toNat
  have hsmall : offset.toNat + length.toNat + 7 < 65536 := by omega
  have hnext := toNat_next h4 hsmall
  have hword : (offset + length + 4 + 3) &&& ~~~3 =
      UInt16.ofNat (offset.toNat + recordSize length.toNat) := by
    rw [← hnext, UInt16.ofNat_toNat]
  unfold rxNext
  show (if ((offset + length + 4 + 3) &&& ~~~3).toNat ≥ 9708 then 0
    else (offset + length + 4 + 3) &&& ~~~3) - 16 &&& 0xFFF8 = _
  rw [if_neg (by omega), hword]
  rfl

/-! ## Packets at their offsets -/

theorem le16At_drop (m : List UInt8) (r off : Nat) : le16At (m.drop r) off = le16At m (r + off) := by
  simp [le16At, Nat.add_assoc]

theorem and_one_eq_zero_iff (x y : UInt8) :
    (x.toUInt16 ||| y.toUInt16 <<< 8) &&& 0x01 = 0 ↔ x.toNat % 2 = 0 := by
  rw [UInt16.or_comm, ← UInt16.toNat_inj, UInt16.toNat_and, toNat_join16]
  show (256 * y.toNat + x.toNat) &&& 1 = 0 ↔ _
  rw [Nat.and_one_is_mod]
  omega

section Call

variable {m : List UInt8} {capR : UInt16} {r : Nat} (hr : (rxOffset capR).toNat = r)
include hr

/-- Nothing is returned where there is a zero. -/
theorem callStep_of_zero (hzero : m[r]?.getD 0 = 0) : (callStep m capR).1 = none := by
  have hnone : (0 : UInt16) &&& 0x01 = 0 := by decide
  have hstatus : (le16At m r).getD 0 &&& 0x01 = 0 := by
    rw [le16At]
    cases hx : m[r]? with
    | none => exact hnone
    | some x =>
      cases hy : m[r + 1]? with
      | none => exact hnone
      | some y =>
        rw [hx] at hzero
        have hx0 : x = 0 := hzero
        exact (and_one_eq_zero_iff x y).mpr (by rw [hx0]; rfl)
  unfold callStep
  simp only [hr, hstatus, if_true]

/-- A packet is returned where there is a header. -/
theorem callStep_of_header {status length : UInt16} (hstatus : le16At (m.drop r) 0 = some status)
    (hodd : status &&& 0x01 ≠ 0) (hlength : le16At (m.drop r) 2 = some length)
    (hshort : length.toNat ≤ 1500) (hfits : r + 4 + length.toNat ≤ 9708) :
    callStep m capR =
      (some (((m.drop r).drop 4).take length.toNat), rxNext (rxOffset capR) length) := by
  rw [le16At_drop] at hstatus hlength
  unfold callStep
  simp only [hr, Nat.add_zero] at hstatus ⊢
  simp only [hstatus, hlength, Option.getD_some]
  have hfits' : ¬ (1500 < length.toNat ∨ rxBufferSize < r + 4 + length.toNat) := by
    show ¬ (1500 < length.toNat ∨ 9708 < r + 4 + length.toNat)
    omega
  rw [if_neg hodd, if_neg hfits', List.drop_drop]

end Call

/-- The header of a packet and its data, as they are read. -/
theorem callStep_packet {m tail : List UInt8} {p : RxPacket} {o : Nat} (hm : m.drop o = p.encode ++ tail)
    (h8 : 8 ∣ o) (h16 : o ≠ 16) (hfits : o + recordSize p.data.length ≤ 8192) :
    callStep m (capOf o) = (some p.data, capOf (o + recordSize p.data.length)) := by
  have hge := recordSize_ge p.data.length
  have hle := p.length_le
  have hlength : (UInt16.ofNat p.data.length).toNat = p.data.length :=
    UInt16.toNat_ofNat_of_lt' (by
      show p.data.length < 65536
      omega)
  have hr : (rxOffset (capOf o)).toNat = o := by
    rw [toNat_rxOffset_capOf (by omega), readAt]
    split_ifs <;> omega
  have hm' : m.drop o = le16Bytes p.status ++ (le16Bytes (UInt16.ofNat p.data.length) ++
      (p.data ++ (List.replicate (recordSize p.data.length - (4 + p.data.length)) 0 ++ tail))) := by
    rw [hm, RxPacket.encode]
    simp only [List.append_assoc]
  have hcall := callStep_of_header hr (hm' ▸ le16At_append (rfl : ([] : List UInt8).length = 0) _ _)
    p.status_odd (hm' ▸ le16At_append rfl _ _) (hlength.trans_le hle)
    (by rw [hlength]; omega)
  have hnext : rxNext (rxOffset (capOf o)) (UInt16.ofNat p.data.length) =
      capOf (o + recordSize p.data.length) := by
    rw [rxNext_eq (by rw [hr]; omega) (by rw [hr, hlength]; omega), hr, hlength]
  rw [hcall, hnext, hlength, hm']
  simp [le16Bytes]

/-- Packets that can be read are returned, one after the other. -/
theorem calls_packets {m tail : List UInt8} {ps : List RxPacket} {o : Nat}
    (hm : m.drop o = ps.flatMap RxPacket.encode ++ tail)
    (hread : Readable o (ps.map (·.data.length)))
    (hfits : o + totalSize (ps.map (·.data.length)) ≤ 8192) (n : Nat) :
    calls m (ps.length + n) (capOf o) = ps.map (fun p => some p.data) ++
      calls m n (capOf (o + totalSize (ps.map (·.data.length)))) := by
  induction ps generalizing o with
  | nil => simp [totalSize]
  | cons p ps ih =>
    obtain ⟨⟨h8, h16⟩, hrest⟩ := hread
    have htotal : totalSize ((p :: ps).map (·.data.length)) =
        recordSize p.data.length + totalSize (ps.map (·.data.length)) := rfl
    rw [List.flatMap_cons, List.append_assoc] at hm
    have hcall := callStep_packet hm h8 h16 (by omega)
    have hm' : m.drop (o + recordSize p.data.length) = ps.flatMap RxPacket.encode ++ tail := by
      rw [← List.drop_drop, hm]
      exact List.drop_left' (length_encode p)
    rw [List.length_cons, Nat.add_right_comm, calls, hcall, ih hm' hrest (by omega), htotal,
      Nat.add_assoc]
    rfl

/-- The value of `CapR` after a reset belongs to offset 0. -/
theorem capOf_zero : capOf 0 = 0xFFF0 := by decide

theorem drop_memory (ps qs : List RxPacket) :
    (memory (ps ++ qs)).drop (totalSize (ps.map (·.data.length))) =
      qs.flatMap RxPacket.encode ++
        List.replicate (rxBufferSize - ((ps ++ qs).flatMap RxPacket.encode).length) 0 := by
  rw [memory, List.flatMap_append, List.append_assoc]
  exact List.drop_left' (length_flatMap_encode ps)

theorem totalSize_append (ls ls' : List Nat) :
    totalSize (ls ++ ls') = totalSize ls + totalSize ls' := by
  simp [totalSize]

/-- The first packets are returned when they can be read. -/
theorem calls_memory {ps : List RxPacket} (hread : Readable 0 (ps.map (·.data.length)))
    (hfits : totalSize (ps.map (·.data.length)) ≤ 8192) (qs : List RxPacket) (n : Nat) :
    calls (memory (ps ++ qs)) (ps.length + n) 0xFFF0 = ps.map (fun p => some p.data) ++
      calls (memory (ps ++ qs)) n (capOf (totalSize (ps.map (·.data.length)))) := by
  have hm : (memory (ps ++ qs)).drop 0 = ps.flatMap RxPacket.encode ++
      (qs.flatMap RxPacket.encode ++
        List.replicate (rxBufferSize - ((ps ++ qs).flatMap RxPacket.encode).length) 0) := by
    rw [memory, List.flatMap_append, List.append_assoc]
    rfl
  rw [← capOf_zero, calls_packets hm hread (by omega), Nat.zero_add]

/-- After the last packet there are zeros. -/
theorem getElem?_memory_of_ge {ps : List RxPacket} {r : Nat}
    (h : totalSize (ps.map (·.data.length)) ≤ r) : (memory ps)[r]?.getD 0 = 0 := by
  rw [memory, List.getElem?_append_right (by rw [length_flatMap_encode]; exact h),
    List.getElem?_replicate]
  split_ifs <;> rfl

/-- Delivery, for packets whose lengths keep the code in step. -/
theorem delivered_of_inStep {ps : List RxPacket} (hstep : InStep (ps.map (·.data.length)))
    (hfits : totalSize (ps.map (·.data.length)) ≤ 8192) : Delivered ps := by
  obtain ⟨hread, hend⟩ := hstep
  rw [delivered_iff hfits]
  have hfirst := calls_memory hread hfits [] 1
  rw [List.append_nil] at hfirst
  have hlt : totalSize (ps.map (·.data.length)) < 9708 := by omega
  -- the last call reads at the end, or at offset 1032 when the end is before it
  have hafter : totalSize (ps.map (·.data.length)) ≤ readAt (totalSize (ps.map (·.data.length))) := by
    unfold readAt
    split_ifs <;> omega
  rw [hfirst, calls, callStep_of_zero (toNat_rxOffset_capOf hlt) (getElem?_memory_of_ge hafter)]
  rfl

/-! ## Out of step -/

/-- What a call returns depends on the bytes from its offset on. -/
theorem callStep_congr {m m' : List UInt8} {capR capR' : UInt16} (hcap : rxOffset capR = rxOffset capR')
    (hm : m.drop (rxOffset capR).toNat = m'.drop (rxOffset capR).toNat) :
    (callStep m capR).1 = (callStep m' capR').1 := by
  have hread : ∀ off, le16At m ((rxOffset capR).toNat + off) =
      le16At m' ((rxOffset capR).toNat + off) := by
    intro off
    rw [← le16At_drop, hm, le16At_drop]
  have hdata : m.drop ((rxOffset capR).toNat + 4) = m'.drop ((rxOffset capR).toNat + 4) := by
    rw [← List.drop_drop, hm, List.drop_drop]
  have hstatus := hread 0
  rw [Nat.add_zero] at hstatus
  unfold callStep
  simp only [← hcap, hstatus, hread, hdata]
  split_ifs <;> rfl

theorem callStep_of_some {m data : List UInt8} {capR : UInt16} (hm : m.length = rxBufferSize)
    (h : (callStep m capR).1 = some data) :
    (callStep m capR).2 = rxNext (rxOffset capR) (UInt16.ofNat data.length) := by
  unfold callStep at *
  simp only at *
  generalize (le16At m (rxOffset capR).toNat).getD 0 = status at *
  generalize (le16At m ((rxOffset capR).toNat + 2)).getD 0 = length at *
  split_ifs at h ⊢ with heven hlong
  have hdata : data.length = length.toNat := by
    rw [← Option.some.inj h, List.length_take, List.length_drop, hm]
    omega
  rw [hdata, UInt16.ofNat_toNat]

/-- An empty packet is returned again and again. -/
theorem calls_stuck {m : List UInt8} {capR : UInt16} (hm : m.length = rxBufferSize)
    (h8 : 8 ∣ (rxOffset capR).toNat) (h16 : (rxOffset capR).toNat ≠ 16)
    (hlt : (rxOffset capR).toNat ≤ 8192) (h : (callStep m capR).1 = some []) (n : Nat) :
    calls m n capR = List.replicate n (some []) := by
  induction n generalizing capR with
  | zero => rfl
  | succ n ih =>
    have hnext : (callStep m capR).2 = capOf ((rxOffset capR).toNat + 4) := by
      have hempty : recordSize (0 : UInt16).toNat = 4 := by decide
      rw [callStep_of_some hm h]
      show rxNext (rxOffset capR) 0 = _
      rw [rxNext_eq (by omega) (by omega), hempty]
    have hback : (rxOffset (capOf ((rxOffset capR).toNat + 4))).toNat = (rxOffset capR).toNat := by
      rw [toNat_rxOffset_capOf (by omega), readAt]
      split_ifs <;> omega
    have hsame := UInt16.toNat_inj.mp hback
    have hagain : (callStep m (capOf ((rxOffset capR).toNat + 4))).1 = some [] :=
      (callStep_congr hsame rfl).trans h
    rw [calls, h, hnext, List.replicate_succ, ih (by rwa [hback]) (by rwa [hback]) (by rwa [hback])
      hagain]

/-- Packets of given lengths with the same byte everywhere. -/
def filled (v : UInt8) (length : Nat) : RxPacket where
  status := 1
  data := List.replicate (min length 1500) v
  status_odd := by decide
  length_le := by simp

theorem length_filled {length : Nat} (h : length ≤ 1500) (v : UInt8) :
    (filled v length).data.length = length := by
  simp [filled, h]

theorem lengths_filled {lengths : List Nat} (h : ∀ length ∈ lengths, length ≤ 1500) (v : UInt8) :
    (lengths.map (filled v)).map (·.data.length) = lengths := by
  rw [List.map_map]
  calc lengths.map _ = lengths.map id :=
        List.map_congr_left fun length hmem => length_filled (h length hmem) v
    _ = lengths := List.map_id _

/-- The last word of a packet: the header of an empty one, else data and zeros. -/
theorem encode_filled {length : Nat} (h : length ≤ 1500) (v : UInt8) :
    ∃ front a b c d, (filled v length).encode = front ++ [a, b, c, d] ∧
      front.length + 4 = recordSize length ∧
      (length = 0 → [a, b, c, d] = [1, 0, 0, 0]) ∧ (0 < length → a = v) ∧
      (c = v ∨ c = 0) ∧ (d = v ∨ d = 0) := by
  rcases Nat.eq_zero_or_pos length with hzero | hpos
  · subst hzero
    have hencode : (filled v 0).encode = [] ++ [1, 0, 0, 0] := by
      rw [RxPacket.encode, length_filled h]
      simp [filled]
      decide
    exact ⟨[], 1, 0, 0, 0, hencode, by decide, by simp, by simp, by simp, by simp⟩
  · -- the data are whole words and one to four bytes
    obtain ⟨q, s, hlength, hs⟩ : ∃ q s, length = 4 * q + (s + 1) ∧ s < 4 :=
      ⟨(length - 1) / 4, (length - 1) % 4, by omega, by omega⟩
    have hrecord : recordSize length = 4 * q + 8 := by
      unfold recordSize
      omega
    have hencode : (filled v length).encode =
        (le16Bytes 1 ++ (le16Bytes (UInt16.ofNat length) ++ List.replicate (4 * q) v)) ++
          (List.replicate (s + 1) v ++ List.replicate (3 - s) 0) := by
      have hdata : (filled v length).data = List.replicate (4 * q) v ++ List.replicate (s + 1) v := by
        rw [List.replicate_append_replicate, ← hlength]
        simp [filled, h]
      have hpad : recordSize length - (4 + length) = 3 - s := by omega
      rw [RxPacket.encode, length_filled h, hpad, hdata]
      simp only [List.append_assoc]
      rfl
    have hfront : (le16Bytes 1 ++ (le16Bytes (UInt16.ofNat length) ++
        List.replicate (4 * q) v)).length + 4 = recordSize length := by
      rw [hrecord]
      simp [le16Bytes]
    interval_cases s
    · exact ⟨_, v, 0, 0, 0, hencode, hfront, by omega, by simp, by simp, by simp⟩
    · exact ⟨_, v, v, 0, 0, hencode, hfront, by omega, by simp, by simp, by simp⟩
    · exact ⟨_, v, v, v, 0, hencode, hfront, by omega, by simp, by simp, by simp⟩
    · exact ⟨_, v, v, v, v, hencode, hfront, by omega, by simp, by simp, by simp⟩

theorem eight_dvd_readAt (o : Nat) : 8 ∣ readAt o := by
  unfold readAt
  split_ifs <;> omega

theorem readAt_ne_sixteen (o : Nat) : readAt o ≠ 16 := by
  unfold readAt
  split_ifs <;> omega

theorem readAt_le {o : Nat} (h : o ≤ 8192) : readAt o ≤ 8192 := by
  unfold readAt
  split_ifs <;> omega

section Rest

variable (ps qs : List RxPacket) (hfits : totalSize ((ps ++ qs).map (·.data.length)) ≤ 8192)
include hfits

theorem totalSize_front_le : totalSize (ps.map (·.data.length)) ≤ 8192 := by
  rw [List.map_append, totalSize_append] at hfits
  omega

theorem toNat_rxOffset_front : (rxOffset (capOf (totalSize (ps.map (·.data.length))))).toNat =
    readAt (totalSize (ps.map (·.data.length))) := by
  have hle := totalSize_front_le ps qs hfits
  exact toNat_rxOffset_capOf (by omega)

variable (h : Delivered (ps ++ qs)) (hread : Readable 0 (ps.map (·.data.length)))
include h hread

/-- What delivery says about the calls after the first packets. -/
theorem calls_rest :
    calls (memory (ps ++ qs)) (qs.length + 1) (capOf (totalSize (ps.map (·.data.length)))) =
      qs.map (fun p => some p.data) ++ [none] := by
  rw [delivered_iff hfits, List.length_append, Nat.add_assoc,
    calls_memory hread (totalSize_front_le ps qs hfits), List.map_append, List.append_assoc] at h
  exact List.append_cancel_left h

/-- The next call does not return an empty packet: no call would ever return nothing. -/
theorem callStep_ne_empty :
    (callStep (memory (ps ++ qs)) (capOf (totalSize (ps.map (·.data.length))))).1 ≠ some [] := by
  intro hempty
  have hr := toNat_rxOffset_front ps qs hfits
  have hrest := calls_rest ps qs hfits h hread
  rw [calls_stuck (length_memory hfits) (hr ▸ eight_dvd_readAt _) (hr ▸ readAt_ne_sixteen _)
    (hr ▸ readAt_le (totalSize_front_le ps qs hfits)) hempty] at hrest
  have hlast : none ∈ List.replicate (qs.length + 1) (some ([] : List UInt8)) := by
    rw [hrest]
    simp
  simp at hlast

end Rest

theorem four_dvd_totalSize (lengths : List Nat) : 4 ∣ totalSize lengths := by
  induction lengths with
  | nil => exact Nat.dvd_zero 4
  | cons length rest ih => exact Nat.dvd_add (four_dvd_recordSize length) ih

/-- The four bytes before the end of the first packets. -/
theorem drop_memory_last {front : List Nat} {length : Nat}
    (hshort : ∀ l ∈ front ++ [length], l ≤ 1500) (v : UInt8) (qs : List RxPacket) :
    ∃ a b c d rest,
      (memory ((front ++ [length]).map (filled v) ++ qs)).drop (totalSize (front ++ [length]) - 4) =
        [a, b, c, d] ++ rest ∧
      (length = 0 → [a, b, c, d] = [1, 0, 0, 0]) ∧ (0 < length → a = v) ∧
      (c = v ∨ c = 0) ∧ (d = v ∨ d = 0) := by
  obtain ⟨before, a, b, c, d, hencode, hlen, hempty, ha, hc, hd⟩ :=
    encode_filled (hshort length (by simp)) v
  have hfront := lengths_filled (fun l hl => hshort l (List.mem_append_left _ hl)) v
  have hsize : totalSize (front ++ [length]) - 4 = totalSize front + before.length := by
    rw [totalSize_append, totalSize, totalSize, List.map_singleton, List.sum_singleton]
    omega
  have hdrop := drop_memory (front.map (filled v)) (filled v length :: qs)
  rw [hfront, List.flatMap_cons, hencode] at hdrop
  generalize rxBufferSize - _ = zeros at hdrop
  refine ⟨a, b, c, d, qs.flatMap RxPacket.encode ++ List.replicate zeros 0, ?_, hempty, ha, hc, hd⟩
  rw [hsize, ← List.drop_drop, List.map_append, List.map_singleton, List.append_assoc,
    List.singleton_append, hdrop, List.append_assoc, List.append_assoc]
  exact List.drop_left

/-- The first packet that does not begin where the code looks for it. -/
theorem exists_not_readable {lengths : List Nat} {o : Nat} (h : ¬ Readable o lengths) :
    ∃ front length rest, lengths = front ++ length :: rest ∧ Readable o front ∧
      ¬ (8 ∣ o + totalSize front ∧ o + totalSize front ≠ 16) := by
  induction lengths generalizing o with
  | nil => exact absurd trivial h
  | cons length lengths ih =>
    by_cases hstart : 8 ∣ o ∧ o ≠ 16
    · have hrest : ¬ Readable (o + recordSize length) lengths := fun hr => h ⟨hstart, hr⟩
      obtain ⟨front, length', rest, hsplit, hread, hbad⟩ := ih hrest
      refine ⟨length :: front, length', rest, by rw [hsplit]; rfl, ⟨hstart, hread⟩, ?_⟩
      have htotal : o + totalSize (length :: front) = o + recordSize length + totalSize front :=
        (Nat.add_assoc ..).symm
      rwa [htotal]
    · exact ⟨[], length, lengths, rfl, trivial, hstart⟩

/-- Packets that do not end at a multiple of 8 have a last one. -/
theorem exists_last {lengths : List Nat} (h : ¬ 8 ∣ totalSize lengths) :
    ∃ front last, lengths = front ++ [last] := by
  rcases List.eq_nil_or_concat lengths with hnil | ⟨front, last, hconcat⟩
  · rw [hnil] at h
    exact absurd (Nat.dvd_zero 8) h
  · exact ⟨front, last, by rw [hconcat, List.concat_eq_append]⟩

/-- Behind such packets the code reads the word before their end. -/
theorem toNat_rxOffset_last_word {o : Nat} (h4 : 4 ∣ o) (h8 : ¬ 8 ∣ o) (hfallback : o / 8 ≠ 2)
    (hle : o ≤ 8192) : (rxOffset (capOf o)).toNat = o - 4 := by
  rw [toNat_rxOffset_capOf (by omega), readAt, if_neg hfallback]
  omega

/-- When the packets end at the wrong place, the last word of a packet of ones is taken for a
header. -/
theorem not_delivered_of_end {lengths : List Nat} (hshort : ∀ l ∈ lengths, l ≤ 1500)
    (hfits : totalSize lengths ≤ 8192) (hread : Readable 0 lengths)
    (hend : ¬ (8 ∣ totalSize lengths ∨ totalSize lengths = 20)) :
    ¬ Delivered (lengths.map (filled 1)) := by
  intro hdelivered
  have h4 := four_dvd_totalSize lengths
  have hlengths := lengths_filled hshort 1
  have hcalls := calls_rest (lengths.map (filled 1)) [] (by simpa [hlengths] using hfits)
    (by simpa using hdelivered) (by rwa [hlengths])
  rw [hlengths] at hcalls
  obtain ⟨h8, h20⟩ := not_or.mp hend
  obtain ⟨front, length, rfl⟩ := exists_last h8
  obtain ⟨a, b, c, d, rest, hdrop, hempty, ha, hc, hd⟩ := drop_memory_last hshort 1 []
  generalize totalSize (front ++ [length]) = o at *
  generalize memory _ = m at *
  have hr := toNat_rxOffset_last_word h4 h8 (by omega) hfits
  have ha1 : a = 1 := by
    rcases Nat.eq_zero_or_pos length with hzero | hpos
    · simpa using congrArg List.head? (hempty hzero)
    · exact ha hpos
  have hstatus : le16At (m.drop (o - 4)) 0 = some (a.toUInt16 ||| b.toUInt16 <<< 8) := by
    rw [hdrop]
    rfl
  have hlength : le16At (m.drop (o - 4)) 2 = some (c.toUInt16 ||| d.toUInt16 <<< 8) := by
    rw [hdrop]
    rfl
  have hsmall : (c.toUInt16 ||| d.toUInt16 <<< 8).toNat ≤ 257 := by
    rcases hc with rfl | rfl <;> rcases hd with rfl | rfl <;> decide
  have hodd : (a.toUInt16 ||| b.toUInt16 <<< 8) &&& 0x01 ≠ 0 := by
    rw [ne_eq, and_one_eq_zero_iff, ha1]
    decide
  have hcall := callStep_of_header hr hstatus hodd hlength (by omega) (by omega)
  rw [calls, hcall] at hcalls
  simp at hcalls

/-- A packet of zeros is zero after its header. -/
theorem getElem?_encode_zeros (length : Nat) {k : Nat} (hk : 4 ≤ k) :
    (filled 0 length).encode[k]?.getD 0 = 0 := by
  have hencode : (filled 0 length).encode = (le16Bytes 1 ++
      le16Bytes (UInt16.ofNat (filled 0 length).data.length)) ++ List.replicate (min length 1500 +
        (recordSize (filled 0 length).data.length - (4 + (filled 0 length).data.length))) 0 := by
    rw [← List.replicate_append_replicate, List.append_assoc]
    rfl
  rw [hencode, List.getElem?_append_right (by simpa [le16Bytes] using hk), List.getElem?_replicate]
  split_ifs <;> rfl

/-- Packets of zeros, but for one. -/
def oneFilled (v : UInt8) (front : List Nat) (length : Nat) (rest : List Nat) : List RxPacket :=
  front.map (filled 0) ++ filled v length :: rest.map (filled 0)

section Start

variable {front : List Nat} {length : Nat} {rest : List Nat}
  (hshort : ∀ l ∈ front ++ length :: rest, l ≤ 1500)
include hshort

theorem lengths_front : (front.map (filled 0)).map (·.data.length) = front :=
  lengths_filled (fun l hl => hshort l (List.mem_append_left _ hl)) 0

theorem lengths_oneFilled (v : UInt8) :
    (oneFilled v front length rest).map (·.data.length) = front ++ length :: rest := by
  have hlength : length ≤ 1500 := hshort length (by simp)
  have hmem : ∀ l ∈ rest, l ≤ 1500 := by
    intro l hl
    exact hshort l (by simp [hl])
  rw [oneFilled, List.map_append, List.map_cons, lengths_front hshort, lengths_filled hmem,
    length_filled hlength]

/-- The receive buffer from that packet on. -/
theorem drop_memory_oneFilled (v : UInt8) :
    (memory (oneFilled v front length rest)).drop (totalSize front) =
      (filled v length).encode ++ ((rest.map (filled 0)).flatMap RxPacket.encode ++
        List.replicate (rxBufferSize - totalSize (front ++ length :: rest)) 0) := by
  have hdrop := drop_memory (front.map (filled 0)) (filled v length :: rest.map (filled 0))
  rw [lengths_front hshort, length_flatMap_encode, ← oneFilled, lengths_oneFilled hshort,
    List.flatMap_cons, List.append_assoc] at hdrop
  exact hdrop

variable (hfits : totalSize (front ++ length :: rest) ≤ 8192) (hread : Readable 0 front)
include hfits hread

/-- What delivery says about the call that should return that packet. -/
theorem callStep_oneFilled {v : UInt8} (h : Delivered (oneFilled v front length rest)) :
    (callStep (memory (oneFilled v front length rest)) (capOf (totalSize front))).1 =
      some (List.replicate length v) ∧ 0 < length := by
  have hlength : length ≤ 1500 := hshort length (by simp)
  have hfront := lengths_front hshort
  have hfits' : totalSize ((oneFilled v front length rest).map (·.data.length)) ≤ 8192 := by
    rwa [lengths_oneFilled hshort]
  have hread' : Readable 0 ((front.map (filled 0)).map (·.data.length)) := by rwa [hfront]
  have hcalls := calls_rest _ _ hfits' h hread'
  have hne := callStep_ne_empty _ _ hfits' h hread'
  rw [hfront] at hcalls hne
  have hcall : (callStep (memory (oneFilled v front length rest)) (capOf (totalSize front))).1 =
      some (List.replicate length v) := by
    have hdata : (filled v length).data = List.replicate length v := by simp [filled, hlength]
    rw [← hdata]
    exact (List.cons.inj hcalls).1
  refine ⟨hcall, Nat.pos_of_ne_zero ?_⟩
  intro hzero
  exact hne (hcall.trans (by rw [hzero]; rfl))

/-- At offset 1032 the code finds data of that packet, or something that does not depend on them. -/
theorem not_delivered_of_fallback (hfallback : totalSize front / 8 = 2) :
    ¬ (Delivered (oneFilled 0 front length rest) ∧ Delivered (oneFilled 1 front length rest)) := by
  rintro ⟨hzeros, hones⟩
  have hr : (rxOffset (capOf (totalSize front))).toNat = 1032 := by
    rw [toNat_rxOffset_capOf (by omega), readAt, if_pos hfallback]
  obtain ⟨hcall0, hpos⟩ := callStep_oneFilled hshort hfits hread hzeros
  obtain ⟨hcall1, -⟩ := callStep_oneFilled hshort hfits hread hones
  have hdrop0 := drop_memory_oneFilled hshort 0
  have hdrop1 := drop_memory_oneFilled hshort 1
  generalize memory (oneFilled 0 front length rest) = m0 at *
  generalize memory (oneFilled 1 front length rest) = m1 at *
  have hencode : ∀ v, (filled v length).encode.length = recordSize length := by
    intro v
    rw [length_encode, length_filled (hshort length (by simp))]
  by_cases hinside : 1032 < totalSize front + recordSize length
  · -- a zero of the packet
    have hzero : m0[1032]?.getD 0 = 0 := by
      have hget := congrArg (fun l => l[1032 - totalSize front]?) hdrop0
      simp only [List.getElem?_drop] at hget
      rw [Nat.add_sub_cancel' (by omega), List.getElem?_append_left (by rw [hencode]; omega)] at hget
      rw [hget]
      exact getElem?_encode_zeros length (by omega)
    rw [callStep_of_zero hr hzero] at hcall0
    exact absurd hcall0 (by simp)
  · -- the two contents do not differ from there on
    have hsame : m0.drop 1032 = m1.drop 1032 := by
      generalize (rest.map (filled 0)).flatMap RxPacket.encode ++ _ = tail at hdrop0 hdrop1
      obtain ⟨k, hk⟩ : ∃ k, 1032 = totalSize front + (recordSize length + k) :=
        ⟨1032 - (totalSize front + recordSize length), by omega⟩
      have hafter : ∀ {m : List UInt8} {v : UInt8},
          m.drop (totalSize front) = (filled v length).encode ++ tail → m.drop 1032 = tail.drop k := by
        intro m v hm
        rw [hk, ← List.drop_drop, hm, ← List.drop_drop, List.drop_left' (hencode v)]
      rw [hafter hdrop0, hafter hdrop1]
    have hequal : (callStep m0 (capOf (totalSize front))).1 =
        (callStep m1 (capOf (totalSize front))).1 :=
      callStep_congr rfl (by rw [hr]; exact hsame)
    rw [hcall0, hcall1, Option.some.injEq, List.replicate_inj] at hequal
    rcases hequal.2 with hlength | hbyte
    · omega
    · exact absurd hbyte (by decide)

/-- Else it finds the last word of the packet before. -/
theorem not_delivered_of_last_word (hodd : ¬ 8 ∣ totalSize front)
    (hfallback : totalSize front / 8 ≠ 2) : ¬ Delivered (oneFilled 0 front length rest) := by
  intro h
  have h4 := four_dvd_totalSize front
  have hle : totalSize front ≤ 8192 := by
    rw [totalSize_append] at hfits
    omega
  have hr := toNat_rxOffset_last_word h4 hodd hfallback hle
  obtain ⟨hcall, hpos⟩ := callStep_oneFilled hshort hfits hread h
  obtain ⟨before, last, rfl⟩ := exists_last hodd
  obtain ⟨a, b, c, d, tail, hdrop, hempty, ha, -, -⟩ := drop_memory_last
    (fun l hl => hshort l (List.mem_append_left _ hl)) 0 (filled 0 length :: rest.map (filled 0))
  rw [← oneFilled] at hdrop
  generalize memory (oneFilled 0 (before ++ [last]) length rest) = m at *
  generalize totalSize (before ++ [last]) = o at *
  rcases Nat.eq_zero_or_pos last with hlast | hlast
  · -- the header of an empty packet
    rw [hempty hlast] at hdrop
    have hstatus : le16At (m.drop (o - 4)) 0 = some 1 := by
      rw [hdrop]
      rfl
    have hlength : le16At (m.drop (o - 4)) 2 = some 0 := by
      rw [hdrop]
      rfl
    have hagain := callStep_of_header hr hstatus (by decide) hlength (by decide)
      (by show _ + 0 ≤ 9708; omega)
    rw [hagain] at hcall
    simp at hcall
    omega
  · -- a zero
    have hzero : m[o - 4]?.getD 0 = 0 := by
      have hget := congrArg List.head? hdrop
      rw [List.head?_drop, ha hlast] at hget
      rw [hget]
      rfl
    rw [callStep_of_zero hr hzero] at hcall
    exact absurd hcall (by simp)

end Start

/-- A receive buffer with packets of given lengths is read as it should be, whatever is in the
packets, exactly when every packet begins at a multiple of 8 other than 16 and the last one ends at
a multiple of 8 or at 20. -/
theorem receive_delivers_iff (lengths : List Nat) (hshort : ∀ l ∈ lengths, l ≤ 1500)
    (hfits : totalSize lengths ≤ 8192) :
    (∀ ps : List RxPacket, ps.map (·.data.length) = lengths → Delivered ps) ↔ InStep lengths := by
  constructor
  · intro hall
    by_contra hstep
    by_cases hread : Readable 0 lengths
    · have hend : ¬ (8 ∣ totalSize lengths ∨ totalSize lengths = 20) := fun hend => hstep ⟨hread, hend⟩
      exact not_delivered_of_end hshort hfits hread hend (hall _ (lengths_filled hshort 1))
    · obtain ⟨front, length, rest, rfl, hfront, hbad⟩ := exists_not_readable hread
      rw [Nat.zero_add] at hbad
      have h4 := four_dvd_totalSize front
      have hdelivered : ∀ v, Delivered (oneFilled v front length rest) := fun v =>
        hall _ (lengths_oneFilled hshort v)
      by_cases hfallback : totalSize front / 8 = 2
      · exact not_delivered_of_fallback hshort hfits hfront hfallback ⟨hdelivered 0, hdelivered 1⟩
      · exact not_delivered_of_last_word hshort hfits hfront (by omega) hfallback (hdelivered 0)
  · rintro hstep ps rfl
    exact delivered_of_inStep hstep hfits

theorem receive_delivers_two_packets :
    (∀ l ∈ [60, 60], l ≤ 1500) ∧ totalSize [60, 60] ≤ 8192 ∧
      ∀ ps : List RxPacket, ps.map (·.data.length) = [60, 60] → Delivered ps :=
  ⟨by decide, by decide, (receive_delivers_iff [60, 60] (by decide) (by decide)).mpr (by decide)⟩

/-- The packet after one of 46 bytes begins at offset 52, and the code looks for it at offset 48. -/
theorem second_packet_lost :
    totalSize [46, 60] ≤ 8192 ∧ ¬ Delivered [filled 0 46, filled 0 60] := by
  have hlost : ¬ Delivered (oneFilled 0 [46] 60 []) :=
    not_delivered_of_last_word (by decide) (by decide) (by decide) (by decide) (by decide)
  exact ⟨by decide, hlost⟩

end CosKernel.Network
