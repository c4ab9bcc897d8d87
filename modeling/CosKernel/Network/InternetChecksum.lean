import CosKernel.Lib.Words
import CosKernel.Network.Checksum

/-!
# The Internet checksum

`checksum16` with the types it has: the words are added in 32 bits, and a loop adds
the carries at the end. For data of up to 65535 words nothing is lost, so the
result is that of one's complement addition, of the words with the low byte first.
With the bytes of each word in the other order the sum is the same number with its
bytes in the other order.
-/

namespace CosKernel.Network

open OnesComplement

/-! ## `checksum16` in 32 bits -/

/-- The loop over the words, and the last byte of an odd number of them. -/
def accumulate : List UInt8 → UInt32 → UInt32
  | a :: b :: rest, sum => accumulate rest (sum + (a.toUInt16 ||| b.toUInt16 <<< 8).toUInt32)
  | [a], sum => sum + a.toUInt32
  | [], sum => sum

/-- `while (sum >> 16)`: the sum it ends with, if that is within some number of tests. -/
def foldSum : Nat → UInt32 → Option UInt32
  | 0, _ => none
  | tests + 1, sum =>
    if sum >>> 16 = 0 then some sum else foldSum tests ((sum &&& (0xFFFF : UInt32)) + (sum >>> 16))

/-- `checksum16` -/
def checksum16U32 (tests : Nat) (data : List UInt8) : Option UInt16 :=
  (foldSum tests (accumulate data 0)).map fun sum => (~~~sum).toUInt16

/-! ## The checksum of the standard -/

/-- The words of data in network order; a last single byte is followed by a zero. -/
def beWords : List UInt8 → List Nat
  | a :: b :: rest => (256 * a.toNat + b.toNat) :: beWords rest
  | [a] => [256 * a.toNat]
  | [] => []

/-- The complement of the one's complement sum of the words. -/
def internetChecksum (data : List UInt8) : UInt16 := ~~~UInt16.ofNat ((beWords data).foldl (add 65535) 0)

/-- The same two bytes in the other order. -/
def swapBytes (x : UInt16) : UInt16 := x <<< 8 ||| x >>> 8

/-! ## Sums -/

theorem sum_beWords (data : List UInt8) : (beWords data).sum = beWordSum data := by
  fun_induction beWords data with
  | case1 a b rest ih => rw [List.sum_cons, ih, beWordSum]
  | case2 a => rw [List.sum_singleton, beWordSum]
  | case3 => rfl

theorem beWords_le (data : List UInt8) : ∀ w ∈ beWords data, w ≤ 65535 := by
  fun_induction beWords data with
  | case1 a b rest ih =>
    rw [List.forall_mem_cons]
    have ha := a.toNat_lt
    have hb := b.toNat_lt
    exact ⟨by omega, ih⟩
  | case2 a =>
    have ha := a.toNat_lt
    intro w hw
    rw [List.mem_singleton.1 hw]
    omega
  | case3 =>
    intro w hw
    cases hw

theorem toNat_internetChecksum (data : List UInt8) :
    (internetChecksum data).toNat = 65535 - reduce 65535 (beWordSum data) := by
  have hfold := foldl_add (m := 65535) (by decide) (beWords_le data) (Nat.zero_le _)
  rw [Nat.zero_add, sum_beWords] at hfold
  rw [internetChecksum, hfold, toNat_not_ofNat (reduce_le (by decide) _)]

theorem toNat_swapBytes (x : UInt16) : (swapBytes x).toNat = x.toNat % 256 * 256 + x.toNat / 256 := by
  have hx := x.toNat_lt
  have hlow : (x <<< 8).toNat = x.toNat % 256 * 256 := by
    rw [UInt16.toNat_shiftLeft]
    show x.toNat <<< 8 % 2 ^ 16 = _
    rw [Nat.shiftLeft_eq]
    omega
  have hhigh : (x >>> 8).toNat = x.toNat / 256 := by
    rw [UInt16.toNat_shiftRight]
    exact Nat.shiftRight_eq_div_pow _ _
  have hor := Nat.shiftLeft_add_eq_or_of_lt (show x.toNat / 256 < 2 ^ 8 by omega) (x.toNat % 256)
  rw [Nat.shiftLeft_eq] at hor
  rw [swapBytes, UInt16.toNat_or, hlow, hhigh, ← hor]

/-- `checksum16` is the checksum of the standard with its bytes in the other order. -/
theorem checksum16_eq_swapBytes (data : List UInt8) : checksum16 data = swapBytes (internetChecksum data) := by
  apply UInt16.toNat_inj.1
  rw [toNat_checksum16, toNat_swapBytes, toNat_internetChecksum, ← addCarries_eq_reduce, addCarries_eq,
    addCarries_eq]
  rcases wordSum_swap data with ⟨⟨k, hk⟩, hle⟩
  split <;> split <;> omega

/-! ## The loops -/

theorem wordSum_le (data : List UInt8) : wordSum data ≤ 65535 * ((data.length + 1) / 2) := by
  fun_induction wordSum data with
  | case1 a b rest ih =>
    have ha := a.toNat_lt
    have hb := b.toNat_lt
    have hlen : ((a :: b :: rest).length + 1) / 2 = (rest.length + 1) / 2 + 1 := by
      rw [List.length_cons, List.length_cons]
      omega
    rw [hlen]
    omega
  | case2 a =>
    have ha := a.toNat_lt
    rw [List.length_singleton]
    omega
  | case3 => exact Nat.zero_le _

/-- The words of a sum that fits into 32 bits are added without a loss. -/
theorem toNat_accumulate (data : List UInt8) {sum : UInt32} (h : sum.toNat + wordSum data < 2 ^ 32) :
    (accumulate data sum).toNat = sum.toNat + wordSum data := by
  fun_induction accumulate data sum with
  | case1 a b rest sum ih =>
    have hword : (a.toUInt16 ||| b.toUInt16 <<< 8).toUInt32.toNat = a.toNat + 256 * b.toNat := by
      rw [UInt16.toNat_toUInt32, UInt16.or_comm, Bytes.toNat_join16, Nat.add_comm]
    rw [wordSum] at h ⊢
    have hadd : (sum + (a.toUInt16 ||| b.toUInt16 <<< 8).toUInt32).toNat =
        sum.toNat + (a.toNat + 256 * b.toNat) := by
      rw [Words.toNat_add_of_lt (by omega), hword]
    rw [ih (by omega), hadd]
    omega
  | case2 a sum =>
    rw [wordSum] at h ⊢
    rw [Words.toNat_add_of_lt (by rwa [UInt8.toNat_toUInt32]), UInt8.toNat_toUInt32]
  | case3 sum => rfl

/-- The sum of the checksum fits. -/
theorem toNat_accumulate_zero {data : List UInt8} (hlen : data.length ≤ 131070) :
    (accumulate data 0).toNat = wordSum data := by
  have hle := wordSum_le data
  have hzero : (0 : UInt32).toNat = 0 := rfl
  rw [toNat_accumulate data (by rw [hzero]; omega), hzero, Nat.zero_add]

/-- The test of the loop. -/
theorem shiftRight_eq_zero_iff (sum : UInt32) : sum >>> 16 = 0 ↔ sum.toNat / 0x10000 = 0 := by
  rw [← UInt32.toNat_inj, UInt32.toNat_shiftRight]
  show sum.toNat >>> 16 = 0 ↔ _
  rw [Nat.shiftRight_eq_div_pow]

/-- Its body. -/
theorem toNat_foldTurn (sum : UInt32) : ((sum &&& (0xFFFF : UInt32)) + (sum >>> 16)).toNat =
    sum.toNat % 0x10000 + sum.toNat / 0x10000 := by
  have hsum := sum.toNat_lt
  have hlow : (sum &&& (0xFFFF : UInt32)).toNat = sum.toNat % 0x10000 := by
    rw [UInt32.toNat_and]
    exact Nat.and_two_pow_sub_one_eq_mod sum.toNat 16
  have hhigh : (sum >>> 16).toNat = sum.toNat / 0x10000 := by
    rw [UInt32.toNat_shiftRight]
    exact Nat.shiftRight_eq_div_pow _ _
  rw [Words.toNat_add_of_lt (by omega), hlow, hhigh]

/-- A sum that the loop ends with has all carries added. -/
theorem addCarries_of_foldSum {tests : Nat} {sum r : UInt32} (h : foldSum tests sum = some r) :
    r.toNat = addCarries sum.toNat := by
  induction tests generalizing sum with
  | zero => cases h
  | succ tests ih =>
    rw [foldSum] at h
    rw [addCarries]
    by_cases hsmall : sum.toNat / 0x10000 = 0
    · rw [if_pos ((shiftRight_eq_zero_iff sum).2 hsmall), Option.some.injEq] at h
      rw [if_pos hsmall, h]
    · rw [if_neg ((shiftRight_eq_zero_iff sum).not.2 hsmall)] at h
      rw [if_neg hsmall, ih h, toNat_foldTurn]

/-- After one turn the sum has at most 17 bits, and after two turns 16. -/
theorem exists_foldSum (sum : UInt32) {tests : Nat} (htests : 3 ≤ tests) : ∃ r, foldSum tests sum = some r := by
  obtain ⟨n, rfl⟩ : ∃ n, tests = n + 3 := ⟨tests - 3, by omega⟩
  have hsum := sum.toNat_lt
  have hfirst := toNat_foldTurn sum
  generalize hs₁ : (sum &&& (0xFFFF : UInt32)) + (sum >>> 16) = s₁ at hfirst
  have hsecond := toNat_foldTurn s₁
  generalize hs₂ : (s₁ &&& (0xFFFF : UInt32)) + (s₁ >>> 16) = s₂ at hsecond
  have hend : s₂ >>> 16 = 0 := (shiftRight_eq_zero_iff s₂).2 (by omega)
  rw [foldSum, foldSum, foldSum, hs₁, hs₂, if_pos hend]
  split
  · exact ⟨_, rfl⟩
  · split
    · exact ⟨_, rfl⟩
    · exact ⟨_, rfl⟩

/-- In 32 bits the result is the same. -/
theorem checksum16U32_eq {data : List UInt8} (hlen : data.length ≤ 131070) {tests : Nat}
    (htests : 3 ≤ tests) : checksum16U32 tests data = some (checksum16 data) := by
  obtain ⟨r, hr⟩ := exists_foldSum (accumulate data 0) htests
  have hcarries := addCarries_of_foldSum hr
  rw [toNat_accumulate_zero hlen] at hcarries
  have hmax := addCarries_le (wordSum data)
  rw [checksum16U32, hr, Option.map_some, Option.some.injEq]
  apply UInt16.toNat_inj.1
  rw [toNat_checksum16, ← hcarries, UInt32.toNat_toUInt16, UInt32.toNat_not]
  simp only [UInt32.size]
  omega

/-! ## Storing the checksum -/

/-- A word in the place of two zero bytes adds to the sum. -/
theorem wordSum_set (data : List UInt8) (j : Nat) (low high : UInt8) (hlow : data[2 * j]? = some 0)
    (hhigh : data[2 * j + 1]? = some 0) :
    wordSum ((data.set (2 * j) low).set (2 * j + 1) high) = wordSum data + low.toNat + 256 * high.toNat := by
  induction j generalizing data with
  | zero =>
    match data, hlow, hhigh with
    | a :: b :: rest, hlow, hhigh =>
      obtain rfl : a = 0 := Option.some.inj hlow
      obtain rfl : b = 0 := Option.some.inj hhigh
      show low.toNat + 256 * high.toNat + wordSum rest = 0 + 256 * 0 + wordSum rest + low.toNat + 256 * high.toNat
      omega
  | succ j ih =>
    match data, hlow, hhigh with
    | a :: b :: rest, hlow, hhigh =>
      have ih' := ih rest hlow hhigh
      show a.toNat + 256 * b.toNat + wordSum ((rest.set (2 * j) low).set (2 * j + 1) high) =
        a.toNat + 256 * b.toNat + wordSum rest + low.toNat + 256 * high.toNat
      omega

/-- With its checksum stored low byte first, data has the checksum 0. -/
theorem checksum16_set (data : List UInt8) (j : Nat) (hlow : data[2 * j]? = some 0)
    (hhigh : data[2 * j + 1]? = some 0) :
    checksum16 ((data.set (2 * j) (checksum16 data).toUInt8).set (2 * j + 1)
      (checksum16 data >>> 8).toUInt8) = 0 := by
  have hword : (checksum16 data).toUInt8.toNat + 256 * (checksum16 data >>> 8).toUInt8.toNat =
      65535 - addCarries (wordSum data) := by
    have hlt := (checksum16 data).toNat_lt
    rw [← toNat_checksum16, UInt16.toNat_toUInt8, UInt16.toNat_toUInt8, UInt16.toNat_shiftRight]
    show _ + 256 * ((checksum16 data).toNat >>> 8 % 256) = _
    rw [Nat.shiftRight_eq_div_pow]
    omega
  apply UInt16.toNat_inj.1
  rw [toNat_checksum16, wordSum_set data j _ _ hlow hhigh, Nat.add_assoc, hword, addCarries_eq_reduce,
    addCarries_eq_reduce, reduce_add_complement (by decide)]
  rfl

/-- For data of up to 131070 bytes no addition of `checksum16` overflows, its loop ends, and the result
is the Internet checksum with its bytes in the other order; stored low byte first in the place of two
zero bytes at an even offset, it makes the checksum 0. -/
theorem checksum16_is_internet_checksum (data : List UInt8) (hlen : data.length ≤ 131070) :
    (accumulate data 0).toNat = wordSum data ∧
    (∀ tests, 3 ≤ tests → checksum16U32 tests data = some (swapBytes (internetChecksum data))) ∧
    ∀ k, k % 2 = 0 → data[k]? = some 0 → data[k + 1]? = some 0 → ∀ checksum tests, 3 ≤ tests →
      checksum16U32 tests data = some checksum →
      checksum16U32 tests ((data.set k checksum.toUInt8).set (k + 1) (checksum >>> 8).toUInt8) = some 0 := by
  refine ⟨toNat_accumulate_zero hlen, ?_, ?_⟩
  · intro tests htests
    rw [checksum16U32_eq hlen htests, checksum16_eq_swapBytes]
  · intro k heven hlow hhigh checksum tests htests hchecksum
    obtain ⟨j, rfl⟩ : ∃ j, k = 2 * j := ⟨k / 2, by omega⟩
    rw [checksum16U32_eq hlen htests, Option.some.injEq] at hchecksum
    rw [checksum16U32_eq (by rw [List.length_set, List.length_set]; exact hlen) htests, ← hchecksum,
      checksum16_set data j hlow hhigh]

/-- Two bytes and a place for their checksum. -/
theorem checksum16_is_internet_checksum_four :
    checksum16U32 3 [0x45, 0x01, 0x00, 0x00] = some (swapBytes (internetChecksum [0x45, 0x01, 0x00, 0x00])) ∧
    checksum16U32 3 [0x45, 0x01, 0xBA, 0xFE] = some 0 := by
  have h := checksum16_is_internet_checksum [0x45, 0x01, 0x00, 0x00] (by decide)
  exact ⟨h.2.1 3 (le_refl 3), h.2.2 2 rfl rfl rfl 0xFEBA 3 (le_refl 3) (by decide)⟩

end CosKernel.Network
