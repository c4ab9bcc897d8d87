import CosKernel.Lib.Run

/-!
# Bytes in memory

A block of memory is the function from offsets to bytes; a field of a packed
structure is the little-endian number in its bytes. A packet is the list of its
bytes, with numbers in network order, and a read outside of it is `none`. A file
is a concatenation of blocks of one size.
-/

namespace CosKernel.Bytes

/-! ## Little-endian reads -/

/-- The number in `n` bytes from `off` on, low byte first. -/
def le (b : Nat → UInt8) (off : Nat) : Nat → Nat
  | 0 => 0
  | n + 1 => (b off).toNat + 256 * le b (off + 1) n

/-- A `uint16_t` in memory. -/
def le16 (b : Nat → UInt8) (off : Nat) : UInt16 := UInt16.ofNat (le b off 2)

/-- A `uint32_t` in memory. -/
def le32 (b : Nat → UInt8) (off : Nat) : UInt32 := UInt32.ofNat (le b off 4)

/-- A `uint64_t` in memory. -/
def le64 (b : Nat → UInt8) (off : Nat) : UInt64 := UInt64.ofNat (le b off 8)

/-- The two blocks have the same bytes there, at an offset and for a number of bytes. -/
def Agree (b b' : Nat → UInt8) (r : Nat × Nat) : Prop := ∀ i < r.2, b (r.1 + i) = b' (r.1 + i)

section Agree

variable {b b' : Nat → UInt8} {off n : Nat}

/-- A number is read from its own bytes only. -/
theorem le_congr (h : Agree b b' (off, n)) : le b off n = le b' off n := by
  induction n generalizing off with
  | zero => rfl
  | succ n ih =>
    have hhead : b off = b' off := h 0 (Nat.succ_pos n)
    have hrest : Agree b b' (off + 1, n) := by
      intro i hi
      have hi' := h (i + 1) (Nat.succ_lt_succ hi)
      rw [← Nat.add_assoc, Nat.add_right_comm] at hi'
      exact hi'
    unfold le
    rw [hhead, ih hrest]

theorem le16_congr (h : Agree b b' (off, 2)) : le16 b' off = le16 b off := by
  unfold le16
  rw [le_congr h]

theorem le32_congr (h : Agree b b' (off, 4)) : le32 b' off = le32 b off := by
  unfold le32
  rw [le_congr h]

theorem le64_congr (h : Agree b b' (off, 8)) : le64 b' off = le64 b off := by
  unfold le64
  rw [le_congr h]

/-- A part of a range on which the blocks agree. -/
theorem Agree.sub (h : Agree b b' (off, n)) (off' n' : Nat) (hle : off ≤ off')
    (hle' : off' + n' ≤ off + n) : Agree b b' (off', n') := by
  intro i hi
  have hi' := h (off' - off + i) (by simp only at hi ⊢; omega)
  rw [← Nat.add_assoc, Nat.add_sub_cancel' hle] at hi'
  exact hi'

end Agree

/-! ## Network order -/

/-- `(b[off] << 8) | b[off + 1]` -/
def be16At (b : List UInt8) (off : Nat) : Option UInt16 := do
  return (← b[off]?).toUInt16 <<< 8 ||| (← b[off + 1]?).toUInt16

/-- `(b[off] << 24) | (b[off + 1] << 16) | (b[off + 2] << 8) | b[off + 3]` -/
def be32At (b : List UInt8) (off : Nat) : Option UInt32 := do
  return (← b[off]?).toUInt32 <<< 24 ||| (← b[off + 1]?).toUInt32 <<< 16 |||
    (← b[off + 2]?).toUInt32 <<< 8 ||| (← b[off + 3]?).toUInt32

/-- The bytes of a 16-bit number, high byte first. -/
def be16 (x : UInt16) : List UInt8 := [(x >>> 8).toUInt8, x.toUInt8]

/-- The bytes of a 32-bit number, high byte first. -/
def be32 (x : UInt32) : List UInt8 :=
  [(x >>> 24).toUInt8, (x >>> 16).toUInt8, (x >>> 8).toUInt8, x.toUInt8]

@[simp] theorem length_be16 (x : UInt16) : (be16 x).length = 2 := rfl

@[simp] theorem length_be32 (x : UInt32) : (be32 x).length = 4 := rfl

/-- A byte shifted to its place. -/
theorem toNat_shiftLeft_byte (x : UInt8) {k : UInt32} (hk : k.toNat ≤ 24) :
    (x.toUInt32 <<< k).toNat = x.toNat <<< k.toNat := by
  have hx := x.toNat_lt
  have hmod : k.toNat % 32 = k.toNat := by omega
  have hlt : x.toNat <<< k.toNat < 2 ^ 32 := by
    calc x.toNat <<< k.toNat = x.toNat * 2 ^ k.toNat := Nat.shiftLeft_eq _ _
      _ ≤ x.toNat * 2 ^ 24 := Nat.mul_le_mul_left _ (Nat.pow_le_pow_right (by decide) hk)
      _ < 2 ^ 32 := by omega
  rw [UInt32.toNat_shiftLeft, UInt8.toNat_toUInt32, hmod, Nat.mod_eq_of_lt hlt]

/-- Four bytes read as one number. -/
theorem toNat_join32 (a b c d : UInt8) :
    (a.toUInt32 <<< 24 ||| b.toUInt32 <<< 16 ||| c.toUInt32 <<< 8 ||| d.toUInt32).toNat =
      16777216 * a.toNat + 65536 * b.toNat + 256 * c.toNat + d.toNat := by
  have hb := b.toNat_lt
  have hc := c.toNat_lt
  have hd := d.toNat_lt
  have hlow : c.toNat <<< 8 ||| d.toNat = 256 * c.toNat + d.toNat := by
    rw [← Nat.shiftLeft_add_eq_or_of_lt hd, Nat.shiftLeft_eq]
    omega
  have hmid : b.toNat <<< 16 ||| (256 * c.toNat + d.toNat) =
      65536 * b.toNat + (256 * c.toNat + d.toNat) := by
    rw [← Nat.shiftLeft_add_eq_or_of_lt (by omega), Nat.shiftLeft_eq]
    omega
  have hhigh : a.toNat <<< 24 ||| (65536 * b.toNat + (256 * c.toNat + d.toNat)) =
      16777216 * a.toNat + (65536 * b.toNat + (256 * c.toNat + d.toNat)) := by
    rw [← Nat.shiftLeft_add_eq_or_of_lt (by omega), Nat.shiftLeft_eq]
    omega
  simp only [UInt32.toNat_or, UInt8.toNat_toUInt32, toNat_shiftLeft_byte a (k := 24) (by decide),
    toNat_shiftLeft_byte b (k := 16) (by decide), toNat_shiftLeft_byte c (k := 8) (by decide)]
  show ((a.toNat <<< 24 ||| b.toNat <<< 16) ||| c.toNat <<< 8) ||| d.toNat = _
  rw [Nat.or_assoc, Nat.or_assoc, hlow, hmid, hhigh]
  omega

theorem toNat_join16 (a b : UInt8) :
    (a.toUInt16 <<< 8 ||| b.toUInt16).toNat = 256 * a.toNat + b.toNat := by
  have ha := a.toNat_lt
  have hlt : a.toNat <<< 8 < 2 ^ 16 := by
    rw [Nat.shiftLeft_eq]
    omega
  have hshift : (a.toUInt16 <<< 8).toNat = a.toNat <<< 8 := by
    rw [UInt16.toNat_shiftLeft, UInt8.toNat_toUInt16]
    exact Nat.mod_eq_of_lt hlt
  rw [UInt16.toNat_or, hshift, UInt8.toNat_toUInt16, ← Nat.shiftLeft_add_eq_or_of_lt b.toNat_lt,
    Nat.shiftLeft_eq]
  omega

theorem join_be16 (x : UInt16) : (x >>> 8).toUInt8.toUInt16 <<< 8 ||| x.toUInt8.toUInt16 = x := by
  have hx := x.toNat_lt
  apply UInt16.toNat_inj.mp
  rw [toNat_join16]
  simp [Nat.shiftRight_eq_div_pow]
  omega

theorem join_be32 (x : UInt32) :
    (x >>> 24).toUInt8.toUInt32 <<< 24 ||| (x >>> 16).toUInt8.toUInt32 <<< 16 |||
      (x >>> 8).toUInt8.toUInt32 <<< 8 ||| x.toUInt8.toUInt32 = x := by
  have hx := x.toNat_lt
  apply UInt32.toNat_inj.mp
  rw [toNat_join32]
  simp [Nat.shiftRight_eq_div_pow]
  omega

/-- Two numbers of 16 bits read as one. -/
theorem join_be16_be16 (x y : UInt16) :
    (x >>> 8).toUInt8.toUInt32 <<< 24 ||| x.toUInt8.toUInt32 <<< 16 |||
      (y >>> 8).toUInt8.toUInt32 <<< 8 ||| y.toUInt8.toUInt32 =
        UInt32.ofNat (65536 * x.toNat + y.toNat) := by
  have hx := x.toNat_lt
  have hy := y.toNat_lt
  apply UInt32.toNat_inj.mp
  rw [toNat_join32, UInt32.toNat_ofNat_of_lt' (by simp only [UInt32.size]; omega)]
  simp [Nat.shiftRight_eq_div_pow]
  omega

/-- A number that was written is read back. -/
theorem be16At_append {pre : List UInt8} {off : Nat} (h : pre.length = off) (x : UInt16)
    (rest : List UInt8) : be16At (pre ++ (be16 x ++ rest)) off = some x := by
  subst h
  have h0 : (pre ++ (be16 x ++ rest))[pre.length]? = some (x >>> 8).toUInt8 := by simp [be16]
  have h1 : (pre ++ (be16 x ++ rest))[pre.length + 1]? = some x.toUInt8 := by simp [be16]
  rw [be16At, h0, h1]
  exact congrArg some (join_be16 x)

theorem be32At_eq_some {b : List UInt8} {off : Nat} {x : UInt32}
    (h0 : b[off]? = some (x >>> 24).toUInt8) (h1 : b[off + 1]? = some (x >>> 16).toUInt8)
    (h2 : b[off + 2]? = some (x >>> 8).toUInt8) (h3 : b[off + 3]? = some x.toUInt8) :
    be32At b off = some x := by
  rw [be32At, h0, h1, h2, h3]
  exact congrArg some (join_be32 x)

theorem be32At_append {pre : List UInt8} {off : Nat} (h : pre.length = off) (x : UInt32)
    (rest : List UInt8) : be32At (pre ++ (be32 x ++ rest)) off = some x := by
  subst h
  refine be32At_eq_some ?_ ?_ ?_ ?_ <;> simp [be32]

theorem be32At_append_be16 {pre : List UInt8} {off : Nat} (h : pre.length = off) (x y : UInt16)
    (rest : List UInt8) :
    be32At (pre ++ (be16 x ++ (be16 y ++ rest))) off = some (UInt32.ofNat (65536 * x.toNat + y.toNat)) := by
  subst h
  rw [← join_be16_be16]
  simp [be32At, be16]

theorem be16At_drop (b : List UInt8) (n off : Nat) : be16At (b.drop n) off = be16At b (n + off) := by
  simp [be16At, Nat.add_assoc]

theorem be32At_drop (b : List UInt8) (n off : Nat) : be32At (b.drop n) off = be32At b (n + off) := by
  simp [be32At, Nat.add_assoc]

/-! ## Stores -/

/-- Stores bytes one after the other from `off` on. -/
def storeFrom : List UInt8 → Nat → List UInt8 → List UInt8
  | b, _, [] => b
  | b, off, v :: vs => storeFrom (b.set off v) (off + 1) vs

theorem getElem?_storeFrom_of_lt {off i : Nat} (h : i < off) (b vs : List UInt8) :
    (storeFrom b off vs)[i]? = b[i]? := by
  induction vs generalizing b off with
  | nil => rfl
  | cons v vs ih => rw [storeFrom, ih (by omega), List.getElem?_set_ne (by omega)]

/-- A number below the bytes stored is still there. -/
theorem be32At_storeFrom_of_le {off pos : Nat} (h : off + 4 ≤ pos) (b vs : List UInt8) :
    be32At (storeFrom b pos vs) off = be32At b off := by
  unfold be32At
  rw [getElem?_storeFrom_of_lt (by omega), getElem?_storeFrom_of_lt (by omega),
    getElem?_storeFrom_of_lt (by omega), getElem?_storeFrom_of_lt (by omega)]

/-- A number stored in a buffer that has room for it is read back. -/
theorem be32At_storeFrom {b : List UInt8} {off : Nat} (h : off + 4 ≤ b.length) (x : UInt32) :
    be32At (storeFrom b off (be32 x)) off = some x := by
  refine be32At_eq_some ?_ ?_ ?_ ?_ <;>
    (simp only [be32, storeFrom, List.getElem?_set, List.length_set]; grind)

theorem length_storeFrom (b : List UInt8) (off : Nat) (vs : List UInt8) :
    (storeFrom b off vs).length = b.length := by
  induction vs generalizing b off with
  | nil => rfl
  | cons v vs ih => rw [storeFrom, ih, List.length_set]

/-- Stores that follow each other are one store. -/
theorem storeFrom_append (b : List UInt8) (off : Nat) (vs ws : List UInt8) :
    storeFrom b off (vs ++ ws) = storeFrom (storeFrom b off vs) (off + vs.length) ws := by
  induction vs generalizing b off with
  | nil => rfl
  | cons v vs ih =>
    rw [List.cons_append, storeFrom, storeFrom, ih, List.length_cons, Nat.add_assoc, Nat.add_comm 1]

/-- A store that fits changes the bytes it is about and no others. -/
theorem storeFrom_eq {b : List UInt8} {off : Nat} {vs : List UInt8} (h : off + vs.length ≤ b.length) :
    storeFrom b off vs = b.take off ++ (vs ++ b.drop (off + vs.length)) := by
  induction vs generalizing b off with
  | nil => simp [storeFrom]
  | cons v vs ih =>
    rw [List.length_cons] at h
    have hlt : off < b.length := by omega
    rw [storeFrom, ih (by rw [List.length_set]; omega)]
    rw [List.take_succ_eq_append_getElem (by simpa using hlt), List.getElem_set_self,
        List.take_set_of_le (Nat.le_refl off), List.drop_set_of_lt (by omega), List.length_cons]
    simp [Nat.add_assoc, Nat.add_comm 1]

/-! ## Concatenated blocks -/

section Blocks

variable {α β : Type} {block : α → List β} {size : Nat} (hsize : ∀ a, (block a).length = size)
include hsize

theorem length_blocks (l : List α) : (l.flatMap block).length = l.length * size := by
  induction l with
  | nil => simp
  | cons a l ih =>
    rw [List.flatMap_cons, List.length_append, ih, hsize, List.length_cons, Nat.succ_mul, Nat.add_comm]

/-- Whole blocks can be dropped one by one. -/
theorem drop_blocks (l : List α) (q r : Nat) :
    (l.flatMap block).drop (q * size + r) = ((l.drop q).flatMap block).drop r := by
  induction q generalizing l with
  | zero => simp
  | succ q ih =>
    cases l with
    | nil => simp
    | cons a l =>
      rw [List.drop_succ_cons, ← ih, List.flatMap_cons, List.drop_append, hsize]
      have hlong : (block a).length ≤ (q + 1) * size + r := by
        rw [hsize, Nat.succ_mul]
        omega
      have hrest : (q + 1) * size + r - size = q * size + r := by
        rw [Nat.succ_mul]
        omega
      rw [List.drop_eq_nil_of_le hlong, List.nil_append, hrest]

end Blocks

end CosKernel.Bytes
