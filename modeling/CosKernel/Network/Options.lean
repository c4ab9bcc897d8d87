import CosKernel.Network.Dhcp
import CosKernel.Network.Initialize

/-!
# The options of DHCP messages

What `parse_dhcp_options` leaves in the variables, said without the order in which
it gets there: each address is that of the last option that sets it. The buffer may
be cut anywhere.

The other direction is what `build_dhcp_discover` and `build_dhcp_request` write. The
second patches the message of the first from offset 242 on, where the value of the
message type is, so its type is 50, and the stream is out of step from there.
-/

namespace CosKernel.Network

open Bytes

/-! ## Reading -/

/-- The address that an option sets: its code is this, and its length is as it should be. -/
def DhcpOption.sets (code : UInt8) (fits : Nat → Bool) (o : DhcpOption) : Option UInt32 :=
  if o.code = code ∧ fits o.value.length = true then some o.address else none

/-- The address in the last option that sets it, or the old one. -/
def lastAddress (code : UInt8) (fits : Nat → Bool) (os : List DhcpOption) (old : UInt32) : UInt32 :=
  ((os.filterMap (DhcpOption.sets code fits)).getLast?).getD old

/-- The option says that the message is an offer. -/
def DhcpOption.isOffer (o : DhcpOption) : Bool := o.code = dhcpOptMessageType && o.value.head? = some 2

/-- The variables after these options: the last subnet mask and server of 4 bytes, the first address
of the last list of routers, and whether there was an offer. -/
def configured (os : List DhcpOption) (s : NetworkT) : NetworkT :=
  { s with
    localNetmask := lastAddress dhcpOptSubnetMask (fun n => n = 4) os s.localNetmask
    localGateway := lastAddress dhcpOptRouter (fun n => 4 ≤ n) os s.localGateway
    dhcpServerIp := lastAddress dhcpOptServerId (fun n => n = 4) os s.dhcpServerIp
    dhcpAcquired := s.dhcpAcquired || os.any DhcpOption.isOffer }

/-- What one option writes to each of the addresses. -/
theorem applyOption_addresses (s : NetworkT) (o : DhcpOption) :
    (applyOption s o).localNetmask =
        (o.sets dhcpOptSubnetMask fun n => n = 4).getD s.localNetmask ∧
      (applyOption s o).localGateway = (o.sets dhcpOptRouter fun n => 4 ≤ n).getD s.localGateway ∧
      (applyOption s o).dhcpServerIp =
        (o.sets dhcpOptServerId fun n => n = 4).getD s.dhcpServerIp := by
  -- at most one of the four codes is the one of the option
  have hmasks : dhcpOptSubnetMask ≠ dhcpOptMessageType := by decide
  have hrouters : dhcpOptRouter ≠ dhcpOptMessageType ∧ dhcpOptRouter ≠ dhcpOptSubnetMask := by decide
  have hservers : dhcpOptServerId ≠ dhcpOptMessageType ∧ dhcpOptServerId ≠ dhcpOptSubnetMask ∧
      dhcpOptServerId ≠ dhcpOptRouter := by decide
  unfold applyOption DhcpOption.sets
  by_cases hmask : o.code = dhcpOptSubnetMask
  · by_cases hlen : o.value.length = 4
    · simp [hmask, hlen, hmasks, hrouters.2.symm, hservers.2.1.symm]
    · simp [hmask, hlen, hmasks, hrouters.2.symm, hservers.2.1.symm]
  by_cases hrouter : o.code = dhcpOptRouter
  · rcases Nat.lt_or_ge o.value.length 4 with hlen | hlen
    · simp [hrouter, hrouters, hservers.2.2.symm, Nat.not_le.2 hlen]
    · simp [hrouter, hrouters, hservers.2.2.symm, hlen]
  by_cases hserver : o.code = dhcpOptServerId
  · by_cases hlen : o.value.length = 4
    · simp [hserver, hservers, hlen]
    · simp [hserver, hservers, hlen]
  · -- no address is set
    simp only [hmask, hrouter, hserver, if_false, false_and]
    split_ifs <;> simp

/-- All options together. -/
theorem applyOptions_eq (s : NetworkT) (os : List DhcpOption) : applyOptions s os = configured os s := by
  have hmask := Run.foldl_last_write NetworkT.localNetmask _
    (fun s o => (applyOption_addresses s o).1) s os
  have hgateway := Run.foldl_last_write NetworkT.localGateway _
    (fun s o => (applyOption_addresses s o).2.1) s os
  have hserver := Run.foldl_last_write NetworkT.dhcpServerIp _
    (fun s o => (applyOption_addresses s o).2.2) s os
  rcases applyOptions_keeps s os with ⟨hmac, hip, hid⟩
  have hacquired : (applyOptions s os).dhcpAcquired = (s.dhcpAcquired || os.any DhcpOption.isOffer) := by
    rw [Bool.eq_iff_iff, applyOptions_acquired]
    simp [DhcpOption.isOffer]
  unfold applyOptions at hmac hip hid hacquired ⊢
  generalize os.foldl applyOption s = s' at *
  cases s'
  simp only at hmask hgateway hserver hmac hip hid hacquired
  simp only [configured, lastAddress, hmask, hgateway, hserver, hmac, hip, hid, hacquired]

/-- Parsing applies exactly the options that lie completely before END, and before the point where
the buffer is cut. -/
theorem parse_dhcp_options_applies (items : List (Tlv.Item 0 dhcpOptEnd)) (rest : List UInt8)
    (s : NetworkT) :
    parseDhcpOptions (items.flatMap Tlv.Item.encode ++ dhcpOptEnd :: rest) s =
        some (configured (Tlv.records items) s) ∧
      ∀ n, parseDhcpOptions ((items.flatMap Tlv.Item.encode ++ dhcpOptEnd :: rest).take n) s =
        some (configured (Tlv.complete items n) s) := by
  refine ⟨?_, ?_⟩
  · rw [parseDhcpOptions_encode, applyOptions_eq]
  · intro n
    rw [parseDhcpOptions, parseDhcpOptionsFrom_eq, List.drop_zero, Tlv.decode_take (by decide),
      applyOptions_eq]

/-- A mask, a pad and a list of routers, cut in the last byte of the routers: the mask counts. -/
example : (Tlv.complete
    [.record ⟨1, [255, 255, 255, 0], by decide, by decide, by decide⟩, .filler,
      .record ⟨3, [10, 0, 2, 2], by decide, by decide, by decide⟩] 12 : List DhcpOption) =
    [⟨1, [255, 255, 255, 0], by decide, by decide, by decide⟩] := by
  decide

/-! ## Writing -/

/-- The options of a message that was built: from byte 240 up to the length returned. -/
def optionArea (built : List UInt8 × Nat) : List UInt8 := (built.1.take built.2).drop 240

/-- The area decodes to these options, and END stands behind them. -/
def DecodesTo (area : List UInt8) (os : List DhcpOption) : Prop :=
  Tlv.decode 0 dhcpOptEnd area = os ∧
    ∃ items, Tlv.records items = os ∧ area = items.flatMap Tlv.Item.encode ++ [dhcpOptEnd]

/-- The type of a message, 1 for a discover and 3 for a request. -/
def messageType (type : UInt8) : DhcpOption :=
  ⟨dhcpOptMessageType, [type], by decide, by decide, by rw [List.length_singleton]; decide⟩

/-- An option that holds an address. -/
def addressOption (code : UInt8) (hend : code ≠ dhcpOptEnd) (hpad : code ≠ 0) (ip : UInt32) : DhcpOption :=
  ⟨code, be32 ip, hend, hpad, by rw [length_be32]; decide⟩

def requestedIp (ip : UInt32) : DhcpOption := addressOption dhcpOptRequestedIp (by decide) (by decide) ip

def serverId (ip : UInt32) : DhcpOption := addressOption dhcpOptServerId (by decide) (by decide) ip

/-- Bytes stored in front of the end of what is taken. -/
theorem drop_take_storeFrom (b : List UInt8) (off : Nat) (vs : List UInt8) (skip : Nat)
    (h : off + vs.length ≤ b.length) (hskip : skip ≤ off) :
    ((storeFrom b off vs).take (off + vs.length)).drop skip = (b.take off).drop skip ++ vs := by
  have hlen : (b.take off).length = off := by
    rw [List.length_take]
    omega
  rw [storeFrom_eq h, ← List.append_assoc,
    List.take_left' (by rw [List.length_append, hlen]), List.drop_append_of_le_length (by omega)]

variable {s : NetworkT} {buffer : List UInt8}

theorem optionArea_buildDhcpDiscover (h : 244 ≤ buffer.length) :
    optionArea (buildDhcpDiscover s buffer) = [dhcpOptMessageType, 1, 1, dhcpOptEnd] := by
  simp only [optionArea, buildDhcpDiscover]
  generalize hb : storeFrom (storeFrom _ _ _) 236 _ = b
  have hlen : b.length = buffer.length := by
    rw [← hb]
    simp only [length_storeFrom]
  have hdrop := drop_take_storeFrom b 240 [dhcpOptMessageType, 1, 1, dhcpOptEnd] 240
    (by rw [hlen]; exact h) le_rfl
  rw [List.drop_take_self, List.nil_append] at hdrop
  exact hdrop

/-- What `build_dhcp_request` writes over the message of `build_dhcp_discover`, from 242 on. -/
def requestPatch (s : NetworkT) : List UInt8 :=
  [dhcpOptRequestedIp, 4] ++ (be32 s.localIp ++ ([dhcpOptServerId, 4] ++ (be32 s.dhcpServerIp ++
    [dhcpOptEnd])))

theorem buildDhcpRequest_eq (s : NetworkT) (buffer : List UInt8) :
    buildDhcpRequest s buffer =
      (storeFrom (buildDhcpDiscover s buffer).1 242 (requestPatch s), 255) := by
  rw [requestPatch, storeFrom_append, storeFrom_append, storeFrom_append, storeFrom_append]
  rfl

theorem optionArea_buildDhcpRequest (h : 255 ≤ buffer.length) :
    optionArea (buildDhcpRequest s buffer) = [dhcpOptMessageType, 1] ++ requestPatch s := by
  have hlen : (buildDhcpDiscover s buffer).1.length = buffer.length := by
    simp only [buildDhcpDiscover, length_storeFrom]
  have hpatch : 242 + (requestPatch s).length = 255 := rfl
  -- of the options of the discover only the first two bytes stay
  have hkept : ((buildDhcpDiscover s buffer).1.take 242).drop 240 = [dhcpOptMessageType, 1] := by
    have harea : optionArea (buildDhcpDiscover s buffer) = [dhcpOptMessageType, 1, 1, dhcpOptEnd] :=
      optionArea_buildDhcpDiscover (by omega)
    have htake := congrArg (List.take 2) harea
    rw [optionArea, List.take_drop, List.take_take] at htake
    exact htake
  have hdrop := drop_take_storeFrom (buildDhcpDiscover s buffer).1 242 (requestPatch s) 240
    (by rw [hlen, hpatch]; exact h) (by decide)
  rw [hpatch, hkept] at hdrop
  simp only [optionArea, buildDhcpRequest_eq]
  exact hdrop

/-- The first option of a request has the type 50, so it is never one of type 3. -/
theorem not_decodesTo_buildDhcpRequest (h : 255 ≤ buffer.length) (os : List DhcpOption) :
    ¬ DecodesTo (optionArea (buildDhcpRequest s buffer)) (messageType 3 :: os) := by
  have hsplit : optionArea (buildDhcpRequest s buffer) =
      Tlv.Item.encode (.record (messageType dhcpOptRequestedIp)) ++
        (4 :: (be32 s.localIp ++ ([dhcpOptServerId, 4] ++ (be32 s.dhcpServerIp ++ [dhcpOptEnd])))) := by
    rw [optionArea_buildDhcpRequest h]
    rfl
  rintro ⟨hdecode, -⟩
  rw [hsplit, Tlv.decode_record, List.cons.injEq] at hdecode
  have hvalue := congrArg Tlv.Record.value hdecode.1
  exact absurd hvalue (by decide)

/-- A discover is what it should be; a request never is, whatever the addresses are. -/
theorem dhcp_messages_decode (s : NetworkT) (buffer : List UInt8) (h : 255 ≤ buffer.length) :
    DecodesTo (optionArea (buildDhcpDiscover s buffer)) [messageType 1] ∧
      ¬ DecodesTo (optionArea (buildDhcpRequest s buffer))
        [messageType 3, requestedIp s.localIp, serverId s.dhcpServerIp] := by
  refine ⟨?_, not_decodesTo_buildDhcpRequest h _⟩
  have harea : optionArea (buildDhcpDiscover s buffer) =
      [.record (messageType 1)].flatMap Tlv.Item.encode ++ [dhcpOptEnd] := by
    rw [optionArea_buildDhcpDiscover (by omega)]
    rfl
  refine ⟨?_, [.record (messageType 1)], rfl, harea⟩
  rw [harea, Tlv.decode_encode (by decide)]
  rfl

/-- The array of `network_dhcp_request`. -/
theorem dhcp_messages_decode_array :
    255 ≤ (List.replicate 300 (0 : UInt8)).length ∧
      DecodesTo (optionArea (buildDhcpDiscover networkState (List.replicate 300 0))) [messageType 1] ∧
      ¬ DecodesTo (optionArea (buildDhcpRequest networkState (List.replicate 300 0)))
        [messageType 3, requestedIp 0, serverId 0] := by
  have hlen : 255 ≤ (List.replicate 300 (0 : UInt8)).length := by
    rw [List.length_replicate]
    decide
  exact ⟨hlen, dhcp_messages_decode networkState (List.replicate 300 0) hlen⟩

/-- A client that was offered 10.0.2.15 by 10.0.2.2. -/
def offered : NetworkT := { networkState with localIp := 0x0A00020F, dhcpServerIp := 0x0A000202 }

/-- Its request is decoded to a message of type 50, and to an option 4 of 10 bytes. -/
theorem request_out_of_step :
    (Tlv.decode 0 dhcpOptEnd (optionArea (buildDhcpRequest offered (List.replicate 300 0)))).map
        (fun o => (o.code, o.value)) = [(53, [50]), (4, [0, 2, 15, 54, 4, 10, 0, 2, 2, 255])] ∧
      ¬ DecodesTo (optionArea (buildDhcpRequest offered (List.replicate 300 0)))
        [messageType 3, requestedIp 0x0A00020F, serverId 0x0A000202] := by
  have hlen : 255 ≤ (List.replicate 300 (0 : UInt8)).length := by
    rw [List.length_replicate]
    decide
  refine ⟨?_, not_decodesTo_buildDhcpRequest hlen _⟩
  rw [optionArea_buildDhcpRequest hlen]
  decide +kernel

end CosKernel.Network
