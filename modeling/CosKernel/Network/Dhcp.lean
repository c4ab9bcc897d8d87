import CosKernel.Lib.Tlv
import CosKernel.Network.Model

/-!
# DHCP offers

What a DHCP message means to the client, the bytes of one inside an IPv4 packet,
and when `network_handle_ip` does what the message means.

`network_handle_dhcp_offer` gets a pointer to the UDP header. It adds the eight
bytes of that header to the offsets of `yiaddr` and of the options but not to the
offset of `xid`, so the number it compares with `dhcp_transaction_id` is the
length and the checksum of the UDP datagram.
-/

namespace CosKernel.Network

open Bytes

/-! ## Options -/

abbrev DhcpOption := Tlv.Record 0 dhcpOptEnd

/-- The address in the first four bytes of a value. -/
def DhcpOption.address (o : DhcpOption) : UInt32 := (be32At o.value 0).getD 0

/-- What an option means to the client. -/
def applyOption (s : NetworkT) (o : DhcpOption) : NetworkT :=
  if o.code = dhcpOptMessageType then
    if o.value.head? = some 2 then { s with dhcpAcquired := true } else s
  else if o.code = dhcpOptSubnetMask then
    if o.value.length = 4 then { s with localNetmask := o.address } else s
  else if o.code = dhcpOptRouter then
    if 4 ≤ o.value.length then { s with localGateway := o.address } else s
  else if o.code = dhcpOptServerId then
    if o.value.length = 4 then { s with dhcpServerIp := o.address } else s
  else s

/-- All options, in their order. -/
def applyOptions (s : NetworkT) (os : List DhcpOption) : NetworkT := os.foldl applyOption s

theorem parseIpv4Address_value {o : DhcpOption} (h : 4 ≤ o.value.length) (rest : List UInt8) :
    parseIpv4Address (o.value ++ rest) = some o.address := by
  match hv : o.value with
  | [] | [_] | [_, _] | [_, _, _] => simp [hv] at h
  | a :: b :: c :: d :: value =>
    simp [parseIpv4Address, DhcpOption.address, hv, be32At]

/-- The `switch` applies the option. -/
theorem switchOption_eq (o : DhcpOption) {optLen : UInt8} (hlen : optLen.toNat = o.value.length)
    (rest : List UInt8) (s : NetworkT) :
    switchOption o.code optLen (o.value ++ rest) s = some (applyOption s o) := by
  -- the tests of the source on the length byte are tests on the length of the value
  have hfour : optLen = 4 ↔ o.value.length = 4 := by
    rw [← UInt8.toNat_inj, hlen]
    rfl
  have hge : 4 ≤ optLen ↔ 4 ≤ o.value.length := by
    rw [UInt8.le_iff_toNat_le, hlen]
    rfl
  have hone : 1 ≤ optLen ↔ 1 ≤ o.value.length := by
    rw [UInt8.le_iff_toNat_le, hlen]
    rfl
  unfold switchOption applyOption
  simp only [hfour, hge, hone]
  by_cases hmessage : o.code = dhcpOptMessageType
  · rw [if_pos hmessage, if_pos hmessage]
    match o.value with
    | [] => simp
    | v :: value => by_cases h2 : v = 2 <;> simp [h2]
  · -- the other options are addresses
    rw [if_neg hmessage, if_neg hmessage]
    split_ifs with _ h4 _ h4 _ h4
    all_goals first | rfl | rw [parseIpv4Address_value (by omega)]; rfl

/-- The same, for the value as the loop finds it: at the front of the rest of the buffer. -/
theorem switchOption_take {o : DhcpOption} {optLen : UInt8} {value : List UInt8}
    (hvalue : o.value = value.take optLen.toNat) (hle : optLen.toNat ≤ value.length) (s : NetworkT) :
    switchOption o.code optLen value s = some (applyOption s o) := by
  have hlen : optLen.toNat = o.value.length := by
    rw [hvalue, List.length_take_of_le hle]
  have hsplit : value = o.value ++ value.drop optLen.toNat := by
    rw [hvalue, List.take_append_drop]
  rw [hsplit]
  exact switchOption_eq o hlen _ s

/-- The loop applies the options that lie completely in the buffer. -/
theorem parseDhcpOptionsFrom_eq (options : List UInt8) (offset : Nat) (s : NetworkT) :
    parseDhcpOptionsFrom options offset s =
      some (applyOptions s (Tlv.decode 0 dhcpOptEnd (options.drop offset))) := by
  fun_induction parseDhcpOptionsFrom options offset s with
  | case1 offset s hlt ihPad ihOption =>
    -- the two bytes at the offset are in the buffer
    have hdrop : options.drop offset =
        options[offset] :: options[offset + 1] :: options.drop (offset + 2) := by
      rw [List.drop_eq_getElem_cons (by omega), List.drop_eq_getElem_cons (by omega)]
    rw [List.getElem?_eq_getElem (by omega), List.getElem?_eq_getElem (by omega), hdrop]
    generalize options[offset] = opt at hdrop ⊢
    generalize options[offset + 1] = optLen at hdrop ⊢
    show (if opt = dhcpOptEnd then some s else _) = _
    by_cases hend : opt = dhcpOptEnd
    · rw [if_pos hend, hend, Tlv.decode_stop]
      rfl
    rw [if_neg hend]
    by_cases hpad : opt = 0
    · have htail := congrArg List.tail hdrop
      rw [List.tail_drop, List.tail_cons] at htail
      rw [if_pos hpad, ihPad, hpad, Tlv.decode_pad (by decide), htail]
    rw [if_neg hpad]
    show (if offset + 2 + optLen.toNat > options.length then some s else _) = _
    have hrest : (options.drop (offset + 2)).length = options.length - (offset + 2) := List.length_drop
    by_cases hlong : offset + 2 + optLen.toNat > options.length
    · rw [if_pos hlong, Tlv.decode, dif_neg hend, dif_neg hpad, if_neg (by omega)]
      rfl
    · -- the value is complete
      rw [if_neg hlong, Tlv.decode, dif_neg hend, dif_neg hpad, if_pos (by omega), List.drop_drop,
        Nat.add_assoc]
      generalize ho : Tlv.Record.mk opt _ hend hpad _ = o
      have hcode : o.code = opt := by rw [← ho]
      have hvalue : o.value = (options.drop (offset + 2)).take optLen.toNat := by rw [← ho]
      rw [← hcode, switchOption_take hvalue (by omega)]
      exact ihOption optLen hlong (applyOption s o)
  | case2 offset s hlt =>
    rw [Tlv.decode_short (by rw [List.length_drop]; omega)]
    rfl

/-- Parsing applies exactly the options that were written. -/
theorem parseDhcpOptions_encode (items : List (Tlv.Item 0 dhcpOptEnd)) (rest : List UInt8)
    (s : NetworkT) :
    parseDhcpOptions (items.flatMap Tlv.Item.encode ++ dhcpOptEnd :: rest) s =
      some (applyOptions s (Tlv.records items)) := by
  rw [parseDhcpOptions, parseDhcpOptionsFrom_eq, List.drop_zero, Tlv.decode_encode (by decide)]

/-! ## Messages -/

/-- An IPv4 packet with a header of 20 bytes that carries a DHCP message from the server port to the
client port. Runs of fields the client does not look at are kept as their bytes; lengths and
checksums may be anything. -/
structure DhcpPacket where
  tosToTtl : Vector UInt8 8
  ipChecksum : UInt16
  srcIp : UInt32
  destIp : UInt32
  udpLength : UInt16
  udpChecksum : UInt16
  opToHops : Vector UInt8 4
  xid : UInt32
  secsToCiaddr : Vector UInt8 8
  yiaddr : UInt32
  siaddrToFile : Vector UInt8 216
  items : List (Tlv.Item 0 dhcpOptEnd)
  trailer : List UInt8

namespace DhcpPacket

def options (p : DhcpPacket) : List DhcpOption := Tlv.records p.items

def ipHeader (p : DhcpPacket) : List UInt8 :=
  0x45 :: (p.tosToTtl.toList ++ ipProtoUdp :: (be16 p.ipChecksum ++ (be32 p.srcIp ++ be32 p.destIp)))

/-- The magic cookie, the options and what stands behind them. -/
def vend (p : DhcpPacket) : List UInt8 :=
  [0x63, 0x82, 0x53, 0x63] ++ (p.items.flatMap Tlv.Item.encode ++ dhcpOptEnd :: p.trailer)

def bootp (p : DhcpPacket) : List UInt8 :=
  p.opToHops.toList ++ (be32 p.xid ++ (p.secsToCiaddr.toList ++ (be32 p.yiaddr ++
    (p.siaddrToFile.toList ++ p.vend))))

def datagram (p : DhcpPacket) : List UInt8 :=
  be16 dhcpServerPort ++ (be16 dhcpClientPort ++ (be16 p.udpLength ++ (be16 p.udpChecksum ++ p.bootp)))

def encode (p : DhcpPacket) : List UInt8 := p.ipHeader ++ p.datagram

/-- The message is an offer. -/
def IsOffer (p : DhcpPacket) : Prop :=
  ∃ o ∈ p.options, o.code = dhcpOptMessageType ∧ o.value.head? = some 2

/-- What the message means to the client it is for. -/
def applyTo (p : DhcpPacket) (s : NetworkT) : NetworkT :=
  applyOptions { s with localIp := p.yiaddr } p.options

/-- The length and the checksum of the datagram read as one number. -/
def lengthAndChecksum (p : DhcpPacket) : UInt32 :=
  UInt32.ofNat (65536 * p.udpLength.toNat + p.udpChecksum.toNat)

theorem length_ipHeader (p : DhcpPacket) : p.ipHeader.length = 20 := by simp [ipHeader]

theorem length_datagram (p : DhcpPacket) :
    p.datagram.length = 249 + (p.items.flatMap Tlv.Item.encode).length + p.trailer.length := by
  simp only [datagram, bootp, vend, List.length_append, List.length_cons, List.length_nil,
    Vector.length_toList, length_be16, length_be32]
  omega

theorem drop_encode (p : DhcpPacket) : p.encode.drop 20 = p.datagram :=
  List.drop_left' p.length_ipHeader

theorem protocol_encode (p : DhcpPacket) : p.encode[9]? = some ipProtoUdp := by
  simp [encode, ipHeader]

theorem destIp_encode (p : DhcpPacket) : parseIpv4Address (p.encode.drop 16) = some p.destIp := by
  have hsplit : p.encode = (0x45 :: (p.tosToTtl.toList ++ ipProtoUdp :: (be16 p.ipChecksum ++
      be32 p.srcIp))) ++ (be32 p.destIp ++ p.datagram) := by
    simp [encode, ipHeader]
  rw [parseIpv4Address, be32At_drop, hsplit]
  exact be32At_append (by simp) _ _

theorem srcPort_encode (p : DhcpPacket) : be16At p.encode 20 = some dhcpServerPort :=
  be16At_append p.length_ipHeader _ _

theorem destPort_encode (p : DhcpPacket) : be16At p.encode 22 = some dhcpClientPort := by
  rw [encode, datagram, ← List.append_assoc]
  exact be16At_append (by simp [length_ipHeader]) _ _

/-- The four bytes that the handler takes for the transaction id. -/
theorem xid_datagram (p : DhcpPacket) : be32At p.datagram 4 = some p.lengthAndChecksum := by
  rw [datagram, ← List.append_assoc]
  exact be32At_append_be16 rfl _ _ _

theorem yiaddr_datagram (p : DhcpPacket) : parseIpv4Address (p.datagram.drop 24) = some p.yiaddr := by
  have hsplit : p.datagram = (be16 dhcpServerPort ++ (be16 dhcpClientPort ++ (be16 p.udpLength ++
      (be16 p.udpChecksum ++ (p.opToHops.toList ++ (be32 p.xid ++ p.secsToCiaddr.toList)))))) ++
      (be32 p.yiaddr ++ (p.siaddrToFile.toList ++ p.vend)) := by
    simp [datagram, bootp]
  rw [parseIpv4Address, be32At_drop, hsplit]
  exact be32At_append (by simp) _ _

theorem options_datagram (p : DhcpPacket) :
    p.datagram.drop 248 = p.items.flatMap Tlv.Item.encode ++ dhcpOptEnd :: p.trailer := by
  have hsplit : p.datagram = (be16 dhcpServerPort ++ (be16 dhcpClientPort ++ (be16 p.udpLength ++
      (be16 p.udpChecksum ++ (p.opToHops.toList ++ (be32 p.xid ++ (p.secsToCiaddr.toList ++
      (be32 p.yiaddr ++ (p.siaddrToFile.toList ++ [0x63, 0x82, 0x53, 0x63]))))))))) ++
      (p.items.flatMap Tlv.Item.encode ++ dhcpOptEnd :: p.trailer) := by
    simp [datagram, bootp, vend]
  rw [hsplit]
  exact List.drop_left' (by simp)

end DhcpPacket

/-! ## What the handler does -/

/-- A message to this host is handled when the length and the checksum of the datagram happen to be
the transaction id, and ignored otherwise. -/
theorem networkHandleIp_encode {s : NetworkT} {p : DhcpPacket}
    (hdest : p.destIp = s.localIp ∨ p.destIp = 0xFFFFFFFF) :
    networkHandleIp p.encode s =
      some (if p.lengthAndChecksum = s.dhcpTransactionId then p.applyTo s else s) := by
  have hlong : 249 ≤ p.datagram.length := by
    rw [p.length_datagram]
    omega
  have hlen : p.encode.length = 20 + p.datagram.length := by
    rw [DhcpPacket.encode, List.length_append, p.length_ipHeader]
  have hforus : ¬(p.destIp ≠ s.localIp ∧ p.destIp ≠ 0xFFFFFFFF) := by tauto
  -- the packet passes every test of `network_handle_ip`
  have hip : networkHandleIp p.encode s = networkHandleDhcpOffer p.datagram s := by
    rw [networkHandleIp, if_neg (by omega), p.protocol_encode, p.destIp_encode, p.srcPort_encode,
      p.destPort_encode, p.drop_encode]
    show (if p.destIp ≠ s.localIp ∧ p.destIp ≠ 0xFFFFFFFF then some s
      else if ipProtoUdp = ipProtoUdp ∧ 28 ≤ p.encode.length then
        if dhcpClientPort = dhcpClientPort ∧ dhcpServerPort = dhcpServerPort then
          networkHandleDhcpOffer p.datagram s
        else some s
      else some s) = _
    rw [if_neg hforus, if_pos ⟨rfl, by omega⟩, if_pos ⟨rfl, rfl⟩]
  rw [hip, networkHandleDhcpOffer, if_neg (by omega), p.xid_datagram, p.yiaddr_datagram,
    p.options_datagram]
  show (if p.lengthAndChecksum ≠ s.dhcpTransactionId then some s else
    parseDhcpOptions _ { s with localIp := p.yiaddr }) = _
  rw [parseDhcpOptions_encode]
  by_cases hxid : p.lengthAndChecksum = s.dhcpTransactionId
  · rw [if_neg (not_not.mpr hxid), if_pos hxid]
    rfl
  · rw [if_pos hxid, if_neg hxid]

/-- With the transaction id the client has, no message of the right length is ever handled: its
length would have to be 57. -/
theorem networkHandleIp_ignores {s : NetworkT} {p : DhcpPacket}
    (hid : s.dhcpTransactionId = networkState.dhcpTransactionId)
    (hlen : p.udpLength.toNat = p.datagram.length)
    (hdest : p.destIp = s.localIp ∨ p.destIp = 0xFFFFFFFF) :
    networkHandleIp p.encode s = some s := by
  have hne : p.lengthAndChecksum ≠ s.dhcpTransactionId := by
    intro heq
    have hlt := p.udpLength.toNat_lt
    have hsum := p.udpChecksum.toNat_lt
    have hnat := congrArg UInt32.toNat heq
    rw [hid, DhcpPacket.lengthAndChecksum,
      UInt32.toNat_ofNat_of_lt' (by simp only [UInt32.size]; omega)] at hnat
    have hvalue : networkState.dhcpTransactionId.toNat = 0x393047 := rfl
    rw [p.length_datagram] at hlen
    omega
  rw [networkHandleIp_encode hdest, if_neg hne]

/-- The transaction id of the client's own discover. -/
theorem xid_buildDhcpDiscover (s : NetworkT) {buffer : List UInt8} (h : 244 ≤ buffer.length) :
    be32At (buildDhcpDiscover s buffer).1 4 = some s.dhcpTransactionId := by
  simp only [buildDhcpDiscover]
  rw [be32At_storeFrom_of_le (by omega), be32At_storeFrom_of_le (by omega),
    be32At_storeFrom_of_le (by omega), be32At_storeFrom_of_le (by omega)]
  refine be32At_storeFrom ?_ _
  rw [length_storeFrom, length_storeFrom]
  omega

/-- Options leave the address and the variables that are no part of the configuration alone. -/
theorem applyOptions_keeps (s : NetworkT) (os : List DhcpOption) :
    (applyOptions s os).localMac = s.localMac ∧ (applyOptions s os).localIp = s.localIp ∧
      (applyOptions s os).dhcpTransactionId = s.dhcpTransactionId := by
  induction os generalizing s with
  | nil => exact ⟨rfl, rfl, rfl⟩
  | cons o os ih =>
    -- each option writes at most one variable of the configuration
    have hstep : (applyOption s o).localMac = s.localMac ∧ (applyOption s o).localIp = s.localIp ∧
        (applyOption s o).dhcpTransactionId = s.dhcpTransactionId := by
      unfold applyOption
      split_ifs <;> exact ⟨rfl, rfl, rfl⟩
    rw [← hstep.1, ← hstep.2.1, ← hstep.2.2]
    exact ih (applyOption s o)

theorem applyOption_acquired (s : NetworkT) (o : DhcpOption) :
    (applyOption s o).dhcpAcquired = true ↔
      s.dhcpAcquired = true ∨ o.code = dhcpOptMessageType ∧ o.value.head? = some 2 := by
  unfold applyOption
  by_cases hcode : o.code = dhcpOptMessageType
  · rw [if_pos hcode]
    by_cases hvalue : o.value.head? = some 2
    · simp [hcode, hvalue]
    · simp [hvalue]
  · rw [if_neg hcode]
    split_ifs <;> simp [hcode]

/-- An offer among the options sets `dhcp_acquired`, and it stays set. -/
theorem applyOptions_acquired (s : NetworkT) (os : List DhcpOption) :
    (applyOptions s os).dhcpAcquired = true ↔
      s.dhcpAcquired = true ∨ ∃ o ∈ os, o.code = dhcpOptMessageType ∧ o.value.head? = some 2 := by
  induction os generalizing s with
  | nil =>
    show s.dhcpAcquired = true ↔ _
    simp
  | cons o os ih =>
    show (applyOptions (applyOption s o) os).dhcpAcquired = true ↔ _
    rw [ih, applyOption_acquired, or_assoc]
    simp

/-- The variables DHCP configures have the same values. -/
def SameConfiguration (s s' : NetworkT) : Prop :=
  s'.localIp = s.localIp ∧ s'.localNetmask = s.localNetmask ∧ s'.localGateway = s.localGateway ∧
    s'.dhcpServerIp = s.dhcpServerIp ∧ s'.dhcpAcquired = s.dhcpAcquired

theorem DhcpPacket.applyTo_eq_of_sameConfiguration {p : DhcpPacket} {s : NetworkT}
    (h : SameConfiguration s (p.applyTo s)) : p.applyTo s = s := by
  have hkeeps := applyOptions_keeps { s with localIp := p.yiaddr } p.options
  obtain ⟨hip, hmask, hgateway, hserver, hacquired⟩ := h
  generalize happly : p.applyTo s = s' at *
  rw [DhcpPacket.applyTo] at happly
  rw [happly] at hkeeps
  cases s'
  cases s
  simp_all

/-- A message that brings nothing new. -/
theorem DhcpPacket.applyTo_eq_iff {p : DhcpPacket} {s : NetworkT} :
    p.applyTo s = s ↔ p.yiaddr = s.localIp ∧ applyOptions s p.options = s := by
  constructor
  · intro h
    -- no option sets the address, so it is the one in `yiaddr`
    have hip : p.yiaddr = s.localIp := by
      have hkeeps := (applyOptions_keeps { s with localIp := p.yiaddr } p.options).2.1
      rw [← h]
      exact hkeeps.symm
    rw [DhcpPacket.applyTo, hip] at h
    exact ⟨hip, h⟩
  · rintro ⟨hip, h⟩
    rw [DhcpPacket.applyTo, hip]
    exact h

/-- A DHCP message is understood: one with the client's transaction id is applied, and any other
leaves the configuration alone. -/
def Understood (s : NetworkT) (p : DhcpPacket) : Prop :=
  ∃ s', networkHandleIp p.encode s = some s' ∧
    (p.xid = s.dhcpTransactionId →
      s' = applyOptions { s with localIp := p.yiaddr } p.options ∧ s'.localIp = p.yiaddr ∧
        (p.IsOffer → s'.dhcpAcquired = true)) ∧
    (p.xid ≠ s.dhcpTransactionId → SameConfiguration s s')

/-- A message to this host is understood exactly when the length and the checksum of its datagram,
read as one number, are the transaction id just if its `xid` is, or when it brings nothing new. -/
theorem understood_iff {s : NetworkT} {p : DhcpPacket}
    (hdest : p.destIp = s.localIp ∨ p.destIp = 0xFFFFFFFF) :
    Understood s p ↔
      (p.lengthAndChecksum = s.dhcpTransactionId ↔ p.xid = s.dhcpTransactionId) ∨
      (p.yiaddr = s.localIp ∧ applyOptions s p.options = s) := by
  have happlied : p.applyTo s = applyOptions { s with localIp := p.yiaddr } p.options ∧
      (p.applyTo s).localIp = p.yiaddr ∧ (p.IsOffer → (p.applyTo s).dhcpAcquired = true) :=
    ⟨rfl, (applyOptions_keeps _ _).2.1, fun hoffer => (applyOptions_acquired _ _).2 (Or.inr hoffer)⟩
  have hsame : SameConfiguration s s := ⟨rfl, rfl, rfl, rfl, rfl⟩
  rw [← DhcpPacket.applyTo_eq_iff, Understood, networkHandleIp_encode hdest]
  by_cases hread : p.lengthAndChecksum = s.dhcpTransactionId
  · rw [if_pos hread]
    by_cases hxid : p.xid = s.dhcpTransactionId
    · exact iff_of_true ⟨_, rfl, fun _ => happlied, fun hne => absurd hxid hne⟩
        (Or.inl (iff_of_true hread hxid))
    · -- another client's message is applied
      constructor
      · rintro ⟨s', hs', -, hother⟩
        rw [Option.some.injEq] at hs'
        rw [← hs'] at hother
        exact Or.inr (DhcpPacket.applyTo_eq_of_sameConfiguration (hother hxid))
      · rintro (hiff | hnop)
        · exact absurd (hiff.mp hread) hxid
        · rw [hnop]
          exact ⟨s, rfl, fun heq => absurd heq hxid, fun _ => hsame⟩
  · rw [if_neg hread]
    by_cases hxid : p.xid = s.dhcpTransactionId
    · -- the client's own message is ignored
      constructor
      · rintro ⟨s', hs', hown, -⟩
        rw [Option.some.injEq] at hs'
        rw [← hs'] at hown
        exact Or.inr (hown hxid).1.symm
      · rintro (hiff | hnop)
        · exact absurd (hiff.mpr hxid) hread
        · rw [hnop] at happlied
          exact ⟨s, rfl, fun _ => happlied, fun hne => absurd hxid hne⟩
    · exact iff_of_true ⟨s, rfl, fun heq => absurd heq hxid, fun _ => hsame⟩
        (Or.inl (iff_of_false hread hxid))

/-- An offer of 10.0.2.15 to a client that has no address yet. -/
def offer : DhcpPacket where
  tosToTtl := #v[0, 1, 16, 0, 0, 0, 0, 64]
  ipChecksum := 0
  srcIp := 0x0A000202
  destIp := 0xFFFFFFFF
  udpLength := 252
  udpChecksum := 0
  opToHops := #v[2, 1, 6, 0]
  xid := 0x393047
  secsToCiaddr := Vector.replicate 8 0
  yiaddr := 0x0A00020F
  siaddrToFile := Vector.replicate 216 0
  items := [.record ⟨53, [2], by decide, by decide, by decide⟩]
  trailer := []

/-- Another client's message is ignored. -/
theorem understood_iff_other_client : offer.destIp = 0xFFFFFFFF ∧
    Understood networkState { offer with xid := 1 } := by
  refine ⟨rfl, (understood_iff (Or.inr rfl)).mpr (Or.inl (iff_of_false ?_ ?_))⟩
  · decide
  · decide

/-- The offer, of the right length and with the transaction id of the discover, is ignored. -/
theorem offer_not_understood : offer.udpLength.toNat = offer.datagram.length ∧ offer.IsOffer ∧
    be32At (buildDhcpDiscover networkState (List.replicate 300 0)).1 4 = some offer.xid ∧
    networkHandleIp offer.encode networkState = some networkState ∧
    ¬Understood networkState offer := by
  have hlen : offer.udpLength.toNat = offer.datagram.length := by
    rw [offer.length_datagram]
    rfl
  have hignored := networkHandleIp_ignores (s := networkState) (p := offer) rfl hlen (Or.inr rfl)
  refine ⟨hlen, ⟨_, List.mem_singleton_self _, rfl, rfl⟩, ?_, hignored, ?_⟩
  · exact xid_buildDhcpDiscover networkState (by rw [List.length_replicate]; decide)
  · rintro ⟨s', hs', hown, -⟩
    rw [hignored, Option.some.injEq] at hs'
    have hip := (hown rfl).2.1
    rw [← hs'] at hip
    exact absurd hip (by decide)

end CosKernel.Network
