import CosKernel.Lib.OnesComplement
import CosKernel.Network.Initialize

/-!
# The checksum of IP headers

A sum with its carries added is a remainder by 65535, and for such sums the order of
the bytes in the words is a factor of 256. `checksum16` adds the words with the low
byte first, and `write_ip_header` stores the result with the high byte first, which
is off by this factor: a receiver accepts the header only if 257 divides the sum of
its words.
-/

namespace CosKernel.Network

open Bytes

/-! ## One's complement sums -/

/-- A sum with its carries added is the remainder by 65535, with 65535 in the place of 0. -/
theorem addCarries_eq (n : Nat) : addCarries n = if n = 0 then 0 else (n - 1) % 65535 + 1 := by
  fun_induction addCarries n with
  | case1 n hsmall =>
    split
    · assumption
    · omega
  | case2 n hcarry ih =>
    rw [ih, if_neg (by omega), if_neg (by omega)]
    omega

theorem addCarries_eq_reduce (n : Nat) : addCarries n = OnesComplement.reduce 65535 n := addCarries_eq n

theorem addCarries_le (n : Nat) : addCarries n ≤ 65535 := by
  rw [addCarries_eq_reduce]
  exact OnesComplement.reduce_le (by decide) n

/-- All bits are set for the multiples of 65535 other than 0. -/
theorem addCarries_eq_ones_iff (n : Nat) : addCarries n = 0xFFFF ↔ 0 < n ∧ 65535 ∣ n := by
  rw [addCarries_eq]
  split
  · omega
  · omega

/-- The words of a buffer in network order, and a last single byte. -/
def beWordSum : List UInt8 → Nat
  | a :: b :: rest => 256 * a.toNat + b.toNat + beWordSum rest
  | [a] => 256 * a.toNat
  | [] => 0

/-- The order of the bytes in the words is a factor of 256. -/
theorem wordSum_swap (l : List UInt8) :
    (∃ k, 256 * wordSum l = beWordSum l + 65535 * k) ∧ wordSum l ≤ 256 * beWordSum l := by
  induction l using wordSum.induct with
  | case1 a b rest ih =>
    rcases ih with ⟨⟨k, hk⟩, hle⟩
    rw [wordSum, beWordSum]
    exact ⟨⟨k + b.toNat, by omega⟩, by omega⟩
  | case2 a =>
    rw [wordSum, beWordSum]
    exact ⟨⟨0, by omega⟩, by omega⟩
  | case3 => exact ⟨⟨0, rfl⟩, Nat.zero_le _⟩

theorem toNat_not_ofNat {n : Nat} (h : n ≤ 65535) : (~~~UInt16.ofNat n).toNat = 65535 - n := by
  rw [UInt16.toNat_not, UInt16.toNat_ofNat_of_lt' (by simp only [UInt16.size]; omega)]
  rfl

theorem toNat_checksum16 (l : List UInt8) : (checksum16 l).toNat = 65535 - addCarries (wordSum l) := by
  rw [checksum16, toNat_not_ofNat (addCarries_le _)]

/-- The check of a receiver: the words of the header, with the checksum, add up to all ones. -/
def Verifies (header : List UInt8) : Prop := addCarries (beWordSum header) = 0xFFFF

/-- The order of the bytes makes no difference to the check. -/
theorem verifies_iff_checksum16 (header : List UInt8) : Verifies header ↔ checksum16 header = 0 := by
  have hzero : checksum16 header = 0 ↔ addCarries (wordSum header) = 0xFFFF := by
    have hle := addCarries_le (wordSum header)
    rw [← UInt16.toNat_inj, toNat_checksum16]
    show _ = 0 ↔ _
    omega
  rcases wordSum_swap header with ⟨⟨k, hk⟩, hle⟩
  rw [hzero, Verifies, addCarries_eq_ones_iff, addCarries_eq_ones_iff]
  omega

/-! ## `write_ip_header` -/

/-- The header, with some checksum. -/
def ipHeader (totalLength : UInt16) (protocol : UInt8) (srcIp destIp : UInt32) (checksum : UInt16) :
    List UInt8 :=
  [0x45, 0x00] ++ (be16 totalLength ++ ([0x00, 0x00, 0x40, 0x00, 64, protocol] ++ (be16 checksum ++
    (be32 srcIp ++ be32 destIp))))

/-- The sum of its words without the checksum. -/
def headerSum (totalLength : UInt16) (protocol : UInt8) (srcIp destIp : UInt32) : Nat :=
  0x4500 + totalLength.toNat + 0x4000 + (0x4000 + protocol.toNat) +
    (srcIp.toNat / 65536 + srcIp.toNat % 65536) + (destIp.toNat / 65536 + destIp.toNat % 65536)

theorem be16_sum (x : UInt16) (rest : List UInt8) : beWordSum (be16 x ++ rest) = x.toNat + beWordSum rest := by
  have hx := x.toNat_lt
  show 256 * (x >>> 8).toUInt8.toNat + x.toUInt8.toNat + beWordSum rest = _
  simp [Nat.shiftRight_eq_div_pow]
  omega

theorem be32_sum (x : UInt32) (rest : List UInt8) :
    beWordSum (be32 x ++ rest) = x.toNat / 65536 + x.toNat % 65536 + beWordSum rest := by
  have hx := x.toNat_lt
  show 256 * (x >>> 24).toUInt8.toNat + (x >>> 16).toUInt8.toNat +
    (256 * (x >>> 8).toUInt8.toNat + x.toUInt8.toNat + beWordSum rest) = _
  simp [Nat.shiftRight_eq_div_pow]
  omega

section Header

variable (totalLength : UInt16) (protocol : UInt8) (srcIp destIp : UInt32)

@[simp] theorem length_ipHeader (checksum : UInt16) :
    (ipHeader totalLength protocol srcIp destIp checksum).length = 20 := by
  simp [ipHeader]

theorem beWordSum_ipHeader (checksum : UInt16) :
    beWordSum (ipHeader totalLength protocol srcIp destIp checksum) =
      headerSum totalLength protocol srcIp destIp + checksum.toNat := by
  have hconstant : ∀ rest, beWordSum ([0x45, 0x00] ++ rest) = 0x4500 + beWordSum rest := fun _ => rfl
  have hmiddle : ∀ rest, beWordSum ([0x00, 0x00, 0x40, 0x00, 64, protocol] ++ rest) =
      0x4000 + (0x4000 + protocol.toNat + beWordSum rest) := by
    intro rest
    show 0 + (0x4000 + (0x4000 + protocol.toNat + beWordSum rest)) = _
    omega
  have hlast : beWordSum (be32 destIp) = destIp.toNat / 65536 + destIp.toNat % 65536 := by
    have hsum := be32_sum destIp []
    rw [List.append_nil] at hsum
    exact hsum
  rw [ipHeader, hconstant, be16_sum, hmiddle, be16_sum, be32_sum, hlast, headerSum]
  omega

/-- With the checksum that `write_ip_header` stores, the words add up to 255 times their sum. -/
theorem verifies_ipHeader_iff :
    Verifies (ipHeader totalLength protocol srcIp destIp
        (checksum16 (ipHeader totalLength protocol srcIp destIp 0))) ↔
      257 ∣ headerSum totalLength protocol srcIp destIp := by
  rcases wordSum_swap (ipHeader totalLength protocol srcIp destIp 0) with ⟨⟨k, hk⟩, -⟩
  have hzero : (0 : UInt16).toNat = 0 := rfl
  rw [beWordSum_ipHeader, hzero, Nat.add_zero] at hk
  have hpos : 0 < headerSum totalLength protocol srcIp destIp := by
    unfold headerSum
    omega
  rw [Verifies, addCarries_eq_ones_iff, beWordSum_ipHeader, toNat_checksum16, addCarries_eq,
    if_neg (by omega)]
  generalize headerSum totalLength protocol srcIp destIp = sum at *
  generalize wordSum (ipHeader totalLength protocol srcIp destIp 0) = words at *
  omega

variable {n off : Nat}

/-- `write_ip_header` stores the header, with the checksum of the header without one. -/
theorem writeIpHeader_spec (h : off + 20 ≤ n) (buffer : Vector UInt8 n) :
    ∃ buffer', writeIpHeader buffer off totalLength protocol srcIp destIp = some buffer' ∧
      buffer'.toList = buffer.toList.take off ++ (ipHeader totalLength protocol srcIp destIp
        (checksum16 (ipHeader totalLength protocol srcIp destIp 0)) ++ buffer.toList.drop (off + 20)) := by
  have hheader : [0x45, 0x00] ++ be16 totalLength ++ [0x00, 0x00, 0x40, 0x00, 64, protocol, 0, 0] ++
      be32 srcIp ++ be32 destIp = ipHeader totalLength protocol srcIp destIp 0 := rfl
  have hlen := length_ipHeader totalLength protocol srcIp destIp 0
  rcases store_spec (by rw [hlen]; exact h :
    off + (ipHeader totalLength protocol srcIp destIp 0).length ≤ n) buffer with ⟨b₁, h₁, hbytes₁⟩
  rw [hlen] at hbytes₁
  have htake : (buffer.toList.take off).length = off := by
    rw [List.length_take, Vector.length_toList]
    omega
  have hload : load b₁.toList off 20 = some (ipHeader totalLength protocol srcIp destIp 0) := by
    rw [load_eq (by rw [Vector.length_toList]; exact h), hbytes₁, List.append_assoc, List.drop_left' htake,
      List.take_left' hlen]
  generalize hsum : checksum16 (ipHeader totalLength protocol srcIp destIp 0) = checksum
  rcases store_spec (by simp; omega : off + 10 + (be16 checksum).length ≤ n) b₁ with ⟨b₂, h₂, hbytes₂⟩
  refine ⟨b₂, ?_, ?_⟩
  · simp only [writeIpHeader, hheader, h₁, hload, hsum, Option.bind_eq_bind, Option.bind_some]
    exact h₂
  · -- ten bytes of the header, the checksum, and the other eight
    have hfront : (b₁.toList.take (off + 10)) = buffer.toList.take off ++
        ([0x45, 0x00] ++ (be16 totalLength ++ [0x00, 0x00, 0x40, 0x00, 64, protocol])) := by
      rw [hbytes₁, List.append_assoc, List.take_append, htake, List.take_of_length_le (by omega),
        Nat.add_sub_cancel_left]
      rfl
    have hback : b₁.toList.drop (off + 10 + 2) = be32 srcIp ++ (be32 destIp ++ buffer.toList.drop (off + 20)) := by
      rw [hbytes₁, List.append_assoc, Nat.add_assoc, List.drop_append, htake,
        List.drop_eq_nil_of_le (by omega), Nat.add_sub_cancel_left]
      rfl
    rw [hbytes₂, hfront, length_be16, hback, ipHeader]
    simp only [List.append_assoc]

/-- A header that `write_ip_header` has written passes the check of a receiver exactly when 257 divides
the sum of its other words. -/
theorem ip_header_verifies_iff (h : off + 20 ≤ n) (buffer : Vector UInt8 n) :
    ∃ buffer', writeIpHeader buffer off totalLength protocol srcIp destIp = some buffer' ∧
      (Verifies ((buffer'.toList.drop off).take 20) ↔ checksum16 ((buffer'.toList.drop off).take 20) = 0) ∧
      (Verifies ((buffer'.toList.drop off).take 20) ↔ 257 ∣ headerSum totalLength protocol srcIp destIp) := by
  rcases writeIpHeader_spec totalLength protocol srcIp destIp h buffer with ⟨buffer', hwrite, hbytes⟩
  refine ⟨buffer', hwrite, verifies_iff_checksum16 _, ?_⟩
  have htake : (buffer.toList.take off).length = off := by
    rw [List.length_take, Vector.length_toList]
    omega
  rw [hbytes, List.drop_left' htake, List.take_left' (length_ipHeader ..)]
  exact verifies_ipHeader_iff ..

end Header

/-- A DHCP message of 152 bytes, for which 257 divides the sum. -/
theorem ip_header_verifies_180 :
    ∃ buffer', writeIpHeader (Vector.replicate 20 0) 0 180 ipProtoUdp 0 0xFFFFFFFF = some buffer' ∧
      Verifies ((buffer'.toList.drop 0).take 20) := by
  rcases ip_header_verifies_iff 180 ipProtoUdp 0 0xFFFFFFFF (by decide : 0 + 20 ≤ 20)
    (Vector.replicate 20 0) with ⟨buffer', hwrite, -, hiff⟩
  exact ⟨buffer', hwrite, hiff.2 (by decide)⟩

/-- The header of a discover, as `network_send_dhcp_packet` has it written. -/
theorem discover_header_rejected :
    ∃ buffer', writeIpHeader (Vector.replicate 20 0) 0 272 ipProtoUdp 0 0xFFFFFFFF = some buffer' ∧
      ¬ Verifies ((buffer'.toList.drop 0).take 20) := by
  rcases writeIpHeader_spec 272 ipProtoUdp 0 0xFFFFFFFF (by decide : 0 + 20 ≤ 20) (Vector.replicate 20 0)
    with ⟨buffer', hwrite, hbytes⟩
  refine ⟨buffer', hwrite, ?_⟩
  rw [hbytes, List.take_zero, List.nil_append, List.drop_zero, List.take_left' (length_ipHeader ..),
    verifies_ipHeader_iff]
  decide

end CosKernel.Network
