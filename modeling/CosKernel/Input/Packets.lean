import CosKernel.Input.Model
import CosKernel.Lib.Run

/-!
# The packets of the PS/2 mouse

A packet is three bytes, polled one at a time and kept in `mouse_packet` until
the third one arrives; then an event is queued. Whatever polls come in between,
the events obtained are those of the packets in order, as long as the queue never
refuses one (`mouseRun_spec`).

A movement has nine bits: eight in a byte of its own and the sign in the first
byte. The driver reads the byte as a signed one and ignores the sign bit, which
gives the movement exactly if it fits in eight bits (`packets_decoded_iff`).
-/

namespace CosKernel.Input

open BoundedQueue Run

/-! ## Packets -/

/-- A packet: bit 3 of the first byte is set, and the movements have not overflowed. -/
structure Packet where
  status : UInt8
  dx : UInt8
  dy : UInt8
  sync : status &&& 0x08 ≠ 0
  inRange : status &&& 0xC0 = 0

/-- The three bytes, in the order they are sent. -/
def Packet.bytes (p : Packet) : List UInt8 := [p.status, p.dx, p.dy]

/-- What a packet says: the movements and the buttons. -/
structure Motion where
  dx : Int
  dy : Int
  left : Bool
  right : Bool
  middle : Bool
deriving DecidableEq

/-- A number of nine bits in two's complement, with its sign in another byte. -/
def signed (low : UInt8) (negative : Prop) [Decidable negative] : Int :=
  low.toNat - if negative then 256 else 0

/-- What the packet says. -/
def Packet.motion (p : Packet) : Motion where
  dx := signed p.dx (p.status &&& 0x10 ≠ 0)
  dy := signed p.dy (p.status &&& 0x20 ≠ 0)
  left := p.status &&& 0x01 ≠ 0
  right := p.status &&& 0x02 ≠ 0
  middle := p.status &&& 0x04 ≠ 0

/-- Both movements fit in eight bits. -/
def Packet.Small (p : Packet) : Prop :=
  (-128 ≤ p.motion.dx ∧ p.motion.dx ≤ 127) ∧ (-128 ≤ p.motion.dy ∧ p.motion.dy ≤ 127)

/-- What an event says. -/
def MouseEventT.motion (e : MouseEventT) : Motion := ⟨e.dx.toInt, e.dy.toInt, e.left, e.right, e.middle⟩

/-- The position after a movement: y counts downwards, and the screen has bounds. -/
def follow (position : Int × Int) (m : Motion) : Int × Int :=
  (clamp 79 (position.1 + m.dx), clamp 23 (position.2 - m.dy))

/-! ## Polls and events -/

/-- `mouse_initialize`, as far as the variables of the driver are concerned. -/
def mouseInitialize (s : Devices) : Devices :=
  { s with
    mouse := { s.mouse with head := 0, tail := 0 }
    control := { s.control with mousePacketOffset := 0, mouseX := 40, mouseY := 12, mouseInitialized := true } }

/-- What the driver is used for: a poll of the two ports, and taking an event. -/
inductive MouseOp where
  | poll (status data : UInt8)
  | get
deriving DecidableEq

/-- `queue_is_full` -/
def queueIsFull (mouse : Ring Int32 MouseEventT) : Bool := mouseQueueNext mouse.tail = mouse.head

/-- One operation, and the event it obtains. -/
def mouseStep (op : MouseOp) (s : Devices) : Option MouseEventT × Devices :=
  match op with
  | .poll status data => (none, mousePollPs2 status data s)
  | .get => (if s.mouse.head = s.mouse.tail then none else some (mouseGetEvent s).1, (mouseGetEvent s).2)

/-- A run: the events obtained, in order, and the variables. -/
def mouseRun : List MouseOp → Devices → List MouseEventT × Devices
  | [], s => ([], s)
  | op :: ops, s =>
    ((mouseStep op s).1.toList ++ (mouseRun ops (mouseStep op s).2).1, (mouseRun ops (mouseStep op s).2).2)

/-- The byte a poll takes from the data port, if the status says that the mouse has sent one. -/
def MouseOp.byte : MouseOp → Option UInt8
  | .poll status data => if status &&& 0x01 = 0 ∨ status &&& 0x20 = 0 then none else some data
  | .get => none

/-- The bytes taken in a run. -/
def delivered (ops : List MouseOp) : List UInt8 := ops.filterMap MouseOp.byte

/-- The packet that this operation completes, if any, finds room. -/
def HasRoom (s : Devices) (op : MouseOp) : Prop :=
  ∀ status data, op = .poll status data → (decodePs2 status data s.control).2 ≠ none → queueIsFull s.mouse = false

/-- The number of events that are taken, with `part` bytes of a packet delivered and `pending` packets
completed and not taken. -/
def taken : Nat → Nat → List MouseOp → Nat
  | _, _, [] => 0
  | part, pending, .poll status data :: ops =>
    if (MouseOp.poll status data).byte = none then taken part pending ops
    else if part = 2 then taken 0 (pending + 1) ops
    else taken (part + 1) pending ops
  | part, pending, .get :: ops =>
    if pending = 0 then taken part 0 ops else taken part (pending - 1) ops + 1

/-! ## One byte -/

/-- The event the driver makes of a packet. -/
def Packet.event (p : Packet) : MouseEventT := mouseEvent p.status p.dx p.dy

/-- The driver holds the first bytes of a packet. -/
structure Begun (control : Control) (part : List UInt8) : Prop where
  offset : control.mousePacketOffset = part.length
  lt : part.length < 3
  bytes : ∀ i < part.length, control.mousePacket i = part.getD i 0

theorem decodePs2_idle {status data : UInt8} (h : (MouseOp.poll status data).byte = none) (control : Control) :
    decodePs2 status data control = (control, none) := by
  simp only [MouseOp.byte] at h
  by_cases hport : status &&& 0x01 = 0 ∨ status &&& 0x20 = 0
  · unfold decodePs2
    rw [if_pos hport]
  · rw [if_neg hport] at h
    cases h

theorem mousePollPs2_idle {status data : UInt8} (h : (MouseOp.poll status data).byte = none) (s : Devices) :
    mousePollPs2 status data s = s := by
  unfold mousePollPs2
  rw [decodePs2_idle h]

/-- A byte that is taken is stored behind those before, and the third one makes an event. -/
theorem decodePs2_byte {status data b : UInt8} (h : (MouseOp.poll status data).byte = some b) {control : Control}
    (hfirst : control.mousePacketOffset = 0 → b &&& 0x08 ≠ 0) :
    decodePs2 status data control =
      if control.mousePacketOffset + 1 ≥ 3 then
        ({ control with
            mousePacket := Function.update control.mousePacket control.mousePacketOffset b
            mousePacketOffset := 0 },
          some (mouseEvent (Function.update control.mousePacket control.mousePacketOffset b 0)
            (Function.update control.mousePacket control.mousePacketOffset b 1)
            (Function.update control.mousePacket control.mousePacketOffset b 2)))
      else
        ({ control with
            mousePacket := Function.update control.mousePacket control.mousePacketOffset b
            mousePacketOffset := control.mousePacketOffset + 1 }, none) := by
  simp only [MouseOp.byte] at h
  by_cases hport : status &&& 0x01 = 0 ∨ status &&& 0x20 = 0
  · rw [if_pos hport] at h
    cases h
  rw [if_neg hport] at h
  have hdata : data = b := Option.some.inj h
  unfold decodePs2
  rw [if_neg hport, hdata, if_neg fun hskip => hfirst hskip.1 hskip.2]

/-- A byte stored behind those of `part`. -/
theorem stored_append {packet : Nat → UInt8} {part : List UInt8}
    (h : ∀ i < part.length, packet i = part.getD i 0) (b : UInt8) :
    ∀ i < part.length + 1, Function.update packet part.length b i = (part ++ [b]).getD i 0 := by
  intro i hi
  by_cases hlast : i = part.length
  · rw [hlast, Function.update_self]
    simp
  · rw [Function.update_of_ne hlast, h i (by omega), List.getD_append _ _ _ _ (by omega)]

/-- The next byte of a packet: it is kept, or it completes the packet. -/
theorem Begun.step {control : Control} {part : List UInt8} (hpart : Begun control part) {p : Packet}
    {status data b : UInt8} (hbyte : (MouseOp.poll status data).byte = some b)
    (hnext : part ++ [b] <+: p.bytes) :
    (part.length = 2 ∧ part ++ [b] = p.bytes ∧ (decodePs2 status data control).2 = some p.event ∧
      Begun (decodePs2 status data control).1 []) ∨
    (part.length ≠ 2 ∧ (decodePs2 status data control).2 = none ∧
      Begun (decodePs2 status data control).1 (part ++ [b])) := by
  have hoffset := hpart.offset
  unfold Packet.bytes at hnext
  -- the first byte of a packet is the one with bit 3
  have hfirst : control.mousePacketOffset = 0 → b &&& 0x08 ≠ 0 := by
    intro hzero
    have hnil : part = [] := List.length_eq_zero_iff.1 (by omega)
    rw [hnil] at hnext
    have hb : b = p.status := (List.cons_prefix_cons.1 hnext).1
    rw [hb]
    exact p.sync
  rw [decodePs2_byte hbyte hfirst, hoffset]
  by_cases hlast : part.length = 2
  · left
    have hwhole : part ++ [b] = [p.status, p.dx, p.dy] :=
      hnext.eq_of_length (by rw [List.length_append, hlast]; rfl)
    rw [if_pos (by omega)]
    refine ⟨hlast, hwhole, ?_, rfl, by simp, fun i hi => absurd hi (Nat.not_lt_zero i)⟩
    have hbytes := stored_append hpart.bytes b
    rw [hwhole, hlast] at hbytes
    rw [hlast, hbytes 0 (by norm_num), hbytes 1 (by norm_num), hbytes 2 (by norm_num)]
    rfl
  · right
    have hlt := hpart.lt
    rw [if_neg (by omega)]
    refine ⟨hlast, rfl, ?_, ?_, ?_⟩
    · rw [List.length_append]
      rfl
    · rw [List.length_append]
      show part.length + 1 < 3
      omega
    · intro i hi
      rw [List.length_append, List.length_singleton] at hi
      exact stored_append hpart.bytes b i hi

/-! ## Runs -/

/-- Where the mouse is. -/
def position (s : Devices) : Int × Int := (s.control.mouseX, s.control.mouseY)

theorem decodePs2_position (status data : UInt8) (control : Control) :
    ((decodePs2 status data control).1.mouseX, (decodePs2 status data control).1.mouseY) =
      (control.mouseX, control.mouseY) := by
  unfold decodePs2
  split
  · rfl
  · split
    · rfl
    · simp only
      split <;> rfl

theorem mousePollPs2_position (status data : UInt8) (s : Devices) :
    position (mousePollPs2 status data s) = position s :=
  decodePs2_position status data s.control

/-- Taking an event from a queue that holds one moves the mouse. -/
theorem mouseStep_get_cons {s : Devices} {e : MouseEventT} {q : List MouseEventT}
    (hq : Holds mouseQueueIndex s.mouse (e :: q)) :
    (mouseStep .get s).1 = some e ∧ Holds mouseQueueIndex (mouseStep .get s).2.mouse q ∧
      (mouseStep .get s).2.control = moveMouse e s.control := by
  rcases hq.dequeue with ⟨hevent, hrest⟩
  have hne : s.mouse.head ≠ s.mouse.tail := fun heq => List.cons_ne_nil e q (hq.head_eq_tail_iff.1 heq)
  have hget : mouseGetEvent s =
      (e, { s with mouse := (s.mouse.dequeue mouseQueueIndex).2, control := moveMouse e s.control }) := by
    unfold mouseGetEvent
    simp only [hevent, dequeue]
  unfold mouseStep
  rw [if_neg hne, hget]
  exact ⟨rfl, hrest, rfl⟩

theorem mouseStep_get_nil {s : Devices} (hq : Holds mouseQueueIndex s.mouse []) : mouseStep .get s = (none, s) := by
  rcases hq.dequeue with ⟨hevent, -⟩
  have heq : s.mouse.head = s.mouse.tail := hq.head_eq_tail_iff.2 rfl
  have hget : mouseGetEvent s = (noEvent, s) := by
    unfold mouseGetEvent
    simp only [hevent, dequeue]
  unfold mouseStep
  rw [if_pos heq, hget]

/-- A packet that finds room is queued behind the others. -/
theorem holds_enqueue_room {mouse : Ring Int32 MouseEventT} {q : List MouseEventT}
    (hq : Holds mouseQueueIndex mouse q) (hroom : queueIsFull mouse = false) (e : MouseEventT) :
    Holds mouseQueueIndex (enqueueMouseEvent e mouse) (q ++ [e]) := by
  have hlength : q.length ≠ 31 := by
    intro hfull
    have hmeet : mouseQueueNext mouse.tail = mouse.head := hq.next_tail_eq_iff.2 hfull
    unfold queueIsFull at hroom
    rw [hmeet] at hroom
    simp at hroom
  have hnext := (hq.enqueue e).2
  unfold BoundedQueue.enqueue at hnext
  rwa [if_neg hlength] at hnext

/-- What a run starts from: the driver holds the first bytes of the packets that are still to come, and
the events `q` that are not taken. -/
structure Streaming (ops : List MouseOp) (s : Devices) (q : List MouseEventT) (part : List UInt8)
    (ps : List Packet) : Prop where
  begun : Begun s.control part
  queue : Holds mouseQueueIndex s.mouse q
  bytes : part ++ delivered ops <+: ps.flatMap Packet.bytes
  room : Each (fun s op => (mouseStep op s).2) HasRoom s ops

section Steps

variable {ops : List MouseOp} {s : Devices} {q : List MouseEventT} {part : List UInt8} {ps : List Packet}

theorem delivered_cons_none {op : MouseOp} (h : op.byte = none) : delivered (op :: ops) = delivered ops := by
  unfold delivered
  rw [List.filterMap_cons, h]

theorem delivered_cons_some {op : MouseOp} {b : UInt8} (h : op.byte = some b) :
    delivered (op :: ops) = b :: delivered ops := by
  unfold delivered
  rw [List.filterMap_cons, h]

theorem Streaming.get_nil (h : Streaming (.get :: ops) s [] part ps) : Streaming ops s [] part ps := by
  have hstep := mouseStep_get_nil h.queue
  have hlater := h.room.2
  simp only [hstep] at hlater
  exact ⟨h.begun, h.queue, h.bytes, hlater⟩

theorem Streaming.get_cons {e : MouseEventT} (h : Streaming (.get :: ops) s (e :: q) part ps) :
    Streaming ops (mouseStep .get s).2 q part ps ∧ (mouseStep .get s).1 = some e ∧
      position (mouseStep .get s).2 = follow (position s) e.motion := by
  rcases mouseStep_get_cons h.queue with ⟨hevent, hrest, hcontrol⟩
  refine ⟨⟨?_, hrest, h.bytes, h.room.2⟩, hevent, ?_⟩
  · rw [hcontrol]
    exact ⟨h.begun.offset, h.begun.lt, h.begun.bytes⟩
  · unfold position
    rw [hcontrol]
    rfl

theorem Streaming.idle {status data : UInt8} (h : Streaming (.poll status data :: ops) s q part ps)
    (hbyte : (MouseOp.poll status data).byte = none) : Streaming ops s q part ps := by
  have hsame : (mouseStep (.poll status data) s).2 = s := mousePollPs2_idle hbyte s
  have hbytes := h.bytes
  have hlater := h.room.2
  rw [delivered_cons_none hbyte] at hbytes
  simp only [hsame] at hlater
  exact ⟨h.begun, h.queue, hbytes, hlater⟩

/-- A byte that is taken completes the packet begun, and its event is queued, or it is kept. -/
theorem Streaming.byte {status data b : UInt8} (h : Streaming (.poll status data :: ops) s q part ps)
    (hbyte : (MouseOp.poll status data).byte = some b) : ∃ p ps', ps = p :: ps' ∧
      ((part.length = 2 ∧ Streaming ops (mousePollPs2 status data s) (q ++ [p.event]) [] ps') ∨
        (part.length ≠ 2 ∧ Streaming ops (mousePollPs2 status data s) q (part ++ [b]) ps)) := by
  have hbytes := h.bytes
  have hlt := h.begun.lt
  rw [delivered_cons_some hbyte] at hbytes
  rcases ps with _ | ⟨p, ps'⟩
  · -- there is no byte without a packet
    have hlen := hbytes.length_le
    rw [List.length_append] at hlen
    simp at hlen
  refine ⟨p, ps', rfl, ?_⟩
  have hsplit : (p :: ps').flatMap Packet.bytes = p.bytes ++ ps'.flatMap Packet.bytes := rfl
  have hbytes' : part ++ [b] ++ delivered ops <+: p.bytes ++ ps'.flatMap Packet.bytes := by
    rw [← hsplit, ← List.append_cons]
    exact hbytes
  -- the bytes so far are the beginning of the packet
  have hnext : part ++ [b] <+: p.bytes := by
    apply List.prefix_of_prefix_length_le ((List.prefix_append _ _).trans hbytes') (List.prefix_append _ _)
    rw [List.length_append]
    show part.length + 1 ≤ 3
    omega
  rcases h.begun.step hbyte hnext with ⟨hlast, hwhole, hevent, hbegun⟩ | ⟨hlast, hevent, hbegun⟩
  · have hfits := h.room.1 status data rfl (by rw [hevent]; exact Option.some_ne_none _)
    rw [hwhole, List.prefix_append_right_inj] at hbytes'
    refine Or.inl ⟨hlast, hbegun, ?_, hbytes', h.room.2⟩
    unfold mousePollPs2
    simp only [hevent]
    exact holds_enqueue_room h.queue hfits p.event
  · refine Or.inr ⟨hlast, hbegun, ?_, hbytes', h.room.2⟩
    unfold mousePollPs2
    simp only [hevent]
    exact h.queue

end Steps

/-- A run hands out the events of the packets completed, in order, as many as `taken` says, and the
mouse follows them. -/
theorem mouseRun_spec (ops : List MouseOp) {s : Devices} {q : List MouseEventT} {part : List UInt8}
    {ps : List Packet} (h : Streaming ops s q part ps) :
    (mouseRun ops s).1 <+: q ++ ps.map Packet.event ∧
      (mouseRun ops s).1.length = taken part.length q.length ops ∧
      position (mouseRun ops s).2 = ((mouseRun ops s).1.map MouseEventT.motion).foldl follow (position s) := by
  induction ops generalizing s q part ps with
  | nil => exact ⟨List.nil_prefix, rfl, rfl⟩
  | cons op ops ih =>
    cases op with
    | get =>
      cases q with
      | nil =>
        unfold mouseRun taken
        rw [mouseStep_get_nil h.queue]
        exact ih h.get_nil
      | cons e q =>
        rcases h.get_cons with ⟨hnext, hevent, hmoved⟩
        rcases ih hnext with ⟨hevents, hcount, hposition⟩
        unfold mouseRun taken
        rw [hevent]
        refine ⟨List.cons_prefix_cons.2 ⟨rfl, hevents⟩, ?_, ?_⟩
        · rw [if_neg (Nat.ne_of_gt (List.length_pos_of_ne_nil (List.cons_ne_nil e q)))]
          exact congrArg (· + 1) hcount
        · rw [hposition, hmoved]
          rfl
    | poll status data =>
      have hposition' := mousePollPs2_position status data s
      unfold mouseRun taken
      rcases hbyte : (MouseOp.poll status data).byte with _ | b
      · have hsame : mouseStep (.poll status data) s = (none, s) :=
          congrArg (Prod.mk none) (mousePollPs2_idle hbyte s)
        rw [hsame, if_pos rfl]
        exact ih (h.idle hbyte)
      · rw [if_neg (Option.some_ne_none b)]
        rcases h.byte hbyte with ⟨p, ps', rfl, ⟨hlast, hnext⟩ | ⟨hlast, hnext⟩⟩
        · rcases ih hnext with ⟨hevents, hcount, hposition⟩
          rw [if_pos hlast]
          refine ⟨?_, ?_, ?_⟩
          · rw [List.append_assoc] at hevents
            exact hevents
          · rw [List.length_append] at hcount
            exact hcount
          · rw [hposition'] at hposition
            exact hposition
        · rcases ih hnext with ⟨hevents, hcount, hposition⟩
          rw [if_neg hlast]
          refine ⟨hevents, ?_, ?_⟩
          · rw [List.length_append] at hcount
            exact hcount
          · rw [hposition'] at hposition
            exact hposition

/-! ## Movements of eight and of nine bits -/

theorem toInt_toInt8 : ∀ b : UInt8, b.toInt8.toInt = if b.toNat < 128 then (b.toNat : Int) else b.toNat - 256 := by
  decide +kernel

/-- The signed byte is the movement exactly if this fits in eight bits. -/
theorem toInt8_eq_signed_iff (b : UInt8) (negative : Prop) [Decidable negative] :
    b.toInt8.toInt = signed b negative ↔ -128 ≤ signed b negative ∧ signed b negative ≤ 127 := by
  have hlt := b.toNat_lt
  rw [toInt_toInt8]
  unfold signed
  split <;> split <;> omega

/-- The event says what the packet says exactly if both movements fit in eight bits. -/
theorem event_motion_iff (p : Packet) : p.event.motion = p.motion ↔ p.Small := by
  unfold Packet.Small
  have hx := toInt8_eq_signed_iff p.dx (p.status &&& 0x10 ≠ 0)
  have hy := toInt8_eq_signed_iff p.dy (p.status &&& 0x20 ≠ 0)
  constructor
  · intro h
    exact ⟨hx.1 (congrArg Motion.dx h), hy.1 (congrArg Motion.dy h)⟩
  · rintro ⟨hsx, hsy⟩
    unfold MouseEventT.motion Packet.motion
    rw [Motion.mk.injEq]
    exact ⟨hx.2 hsx, hy.2 hsy, rfl, rfl, rfl⟩

theorem map_event_motion_iff (ps : List Packet) :
    (ps.map Packet.event).map MouseEventT.motion = ps.map Packet.motion ↔ ∀ p ∈ ps, p.Small := by
  rw [List.map_map, List.map_inj_left]
  apply forall₂_congr
  intro p _
  exact event_motion_iff p

/-- The events obtained are the packets, in order and with their movements, and the mouse is where these
movements lead from the middle of the screen. -/
structure Decoded (packets : List Packet) (r : List MouseEventT × Devices) : Prop where
  events : r.1.map MouseEventT.motion = packets.map Packet.motion
  position : position r.2 = (packets.map Packet.motion).foldl follow (40, 12)

/-- For every stream of packets and every run that polls it byte by byte and never fills the queue, the
events obtained are the packets taken exactly if their movements fit in eight bits. -/
theorem packets_decoded_iff (s : Devices) (packets : List Packet) (ops : List MouseOp)
    (hbytes : delivered ops <+: packets.flatMap Packet.bytes)
    (hroom : Each (fun s op => (mouseStep op s).2) HasRoom (mouseInitialize s) ops) :
    Decoded (packets.take (taken 0 0 ops)) (mouseRun ops (mouseInitialize s)) ↔
      ∀ p ∈ packets.take (taken 0 0 ops), p.Small := by
  have hbegun : Begun (mouseInitialize s).control [] := ⟨rfl, by simp, fun i hi => absurd hi (Nat.not_lt_zero i)⟩
  have hempty : Holds mouseQueueIndex (mouseInitialize s).mouse [] :=
    Holds.empty (by norm_num) s.mouse.slots mouseQueueIndex
  rcases mouseRun_spec ops ⟨hbegun, hempty, hbytes, hroom⟩ with ⟨hevents, hcount, hposition⟩
  have hobtained : (mouseRun ops (mouseInitialize s)).1 = (packets.take (taken 0 0 ops)).map Packet.event := by
    rw [List.prefix_iff_eq_take, hcount, List.nil_append, ← List.map_take] at hevents
    exact hevents
  have hstart : position (mouseInitialize s) = (40, 12) := rfl
  rw [← map_event_motion_iff, ← hobtained]
  constructor
  · intro h
    exact h.events
  · intro h
    refine ⟨h, ?_⟩
    rw [hposition, h, hstart]

/-- A movement by 56 to the left. -/
def leftBy56 : Packet := ⟨0x18, 200, 0, by decide, by decide⟩

/-- A movement by 200 to the right. -/
def rightBy200 : Packet := ⟨0x08, 200, 0, by decide, by decide⟩

/-- The bytes of a packet, polled one after the other, and the event taken. -/
def deliver (p : Packet) : List MouseOp := p.bytes.map (.poll 0x21) ++ [.get]

/-- A small movement arrives as it was sent. -/
theorem left_by_56_decoded :
    Decoded [leftBy56] (mouseRun (deliver leftBy56) (mouseInitialize powerOn)) := by
  have htaken : [leftBy56].take (taken 0 0 (deliver leftBy56)) = [leftBy56] := rfl
  have hiff := packets_decoded_iff powerOn [leftBy56] (deliver leftBy56) (by decide) (by
    refine ⟨?_, ?_, ?_, ?_, trivial⟩ <;> intro status data _ _ <;> decide +kernel)
  rw [htaken] at hiff
  apply hiff.2
  intro p hp
  rw [List.mem_singleton.1 hp]
  unfold Packet.Small
  decide

/-- The movement by 200 to the right has the same second byte, and arrives as one by 56 to the left. -/
theorem right_by_200_reversed :
    ¬ Decoded [rightBy200] (mouseRun (deliver rightBy200) (mouseInitialize powerOn)) ∧
      rightBy200.motion.dx = 200 ∧
      (mouseRun (deliver rightBy200) (mouseInitialize powerOn)).1.map MouseEventT.motion =
        [⟨-56, 0, false, false, false⟩] := by
  have hevents : (mouseRun (deliver rightBy200) (mouseInitialize powerOn)).1.map MouseEventT.motion =
      [⟨-56, 0, false, false, false⟩] := by decide +kernel
  refine ⟨?_, by decide, hevents⟩
  intro h
  have hsame := h.events
  rw [hevents] at hsame
  exact absurd hsame (by decide)

end CosKernel.Input
