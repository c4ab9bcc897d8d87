import CosKernel.Lib.Bytes

/-!
# Checked accesses to arrays of bytes

An array has its size in its type; what a pointer leads to is the list of the bytes
that are left. A store or a read outside of the array makes the result `none`.
-/

namespace CosKernel.Bytes

/-! ## Reads -/

/-- `b[off] | (b[off + 1] << 8)` -/
def le16At (b : List UInt8) (off : Nat) : Option UInt16 := do
  return (← b[off]?).toUInt16 ||| (← b[off + 1]?).toUInt16 <<< 8

/-- Reads bytes one after the other from `off` on. -/
def load (b : List UInt8) : Nat → Nat → Option (List UInt8)
  | _, 0 => some []
  | off, len + 1 => do return (← b[off]?) :: (← load b (off + 1) len)

/-- The bytes of a 16-bit number, low byte first. -/
def le16Bytes (x : UInt16) : List UInt8 := [x.toUInt8, (x >>> 8).toUInt8]

/-- The bytes of a number, low byte first. -/
def leBytes : Nat → Nat → List UInt8
  | 0, _ => []
  | n + 1, x => UInt8.ofNat x :: leBytes n (x / 256)

@[simp] theorem length_leBytes (n x : Nat) : (leBytes n x).length = n := by
  induction n generalizing x with
  | zero => rfl
  | succ n ih => rw [leBytes, List.length_cons, ih]

/-- A number is read from where its bytes are. -/
theorem le_leBytes {b : Nat → UInt8} {off n x : Nat} (h : ∀ i < n, b (off + i) = (leBytes n x).getD i 0) :
    le b off n = x % 256 ^ n := by
  induction n generalizing off x with
  | zero => exact (Nat.mod_one x).symm
  | succ n ih =>
    have hhead : b off = UInt8.ofNat x := h 0 (Nat.succ_pos n)
    have hrest : ∀ i < n, b (off + 1 + i) = (leBytes n (x / 256)).getD i 0 := by
      intro i hi
      rw [Nat.add_assoc, Nat.add_comm 1 i]
      exact h (i + 1) (Nat.succ_lt_succ hi)
    have hbyte : (UInt8.ofNat x).toNat = x % 256 := UInt8.toNat_ofNat'
    rw [le, ih hrest, hhead, hbyte, Nat.pow_succ', Nat.mod_mul]

/-- The low bytes of a number and those behind them. -/
theorem le_add (b : Nat → UInt8) (off m n : Nat) : le b off (m + n) = le b off m + 256 ^ m * le b (off + m) n := by
  induction m generalizing off with
  | zero => simp [le]
  | succ m ih =>
    have hoff : off + 1 + m = off + (m + 1) := by omega
    rw [Nat.succ_add, le, ih (off + 1), le, Nat.pow_succ', hoff]
    ring

/-- A `uint64_t` that was stored as two halves. -/
theorem le64_of_halves {b : Nat → UInt8} {off : Nat} {x : UInt64}
    (hlow : ∀ i < 4, b (off + i) = (leBytes 4 x.toUInt32.toNat).getD i 0)
    (hhigh : ∀ i < 4, b (off + 4 + i) = (leBytes 4 (x >>> 32).toUInt32.toNat).getD i 0) : le64 b off = x := by
  have hx := x.toNat_lt
  have hshift : (x >>> 32).toNat = x.toNat / 2 ^ 32 := by
    rw [UInt64.toNat_shiftRight, Nat.shiftRight_eq_div_pow]
    rfl
  rw [le64, le_add b off 4 4, le_leBytes hlow, le_leBytes hhigh, UInt64.toNat_toUInt32, UInt64.toNat_toUInt32, hshift]
  apply UInt64.toNat_inj.1
  rw [UInt64.toNat_ofNat']
  omega

theorem le16At_eq {b : List UInt8} {off : Nat} {x y : UInt8} (hx : b[off]? = some x)
    (hy : b[off + 1]? = some y) : le16At b off = some (x.toUInt16 ||| y.toUInt16 <<< 8) := by
  rw [le16At, hx, hy]
  rfl

theorem le16At_isSome {b : List UInt8} {off : Nat} (h : off + 2 ≤ b.length) :
    ∃ x, le16At b off = some x :=
  ⟨_, le16At_eq (List.getElem?_eq_getElem (by omega)) (List.getElem?_eq_getElem (by omega))⟩

/-- A number that was written is read back. -/
theorem le16At_append {pre : List UInt8} {off : Nat} (h : pre.length = off) (x : UInt16)
    (rest : List UInt8) : le16At (pre ++ (le16Bytes x ++ rest)) off = some x := by
  subst h
  have hlow : (pre ++ (le16Bytes x ++ rest))[pre.length]? = some x.toUInt8 := by simp [le16Bytes]
  have hhigh : (pre ++ (le16Bytes x ++ rest))[pre.length + 1]? = some (x >>> 8).toUInt8 := by
    simp [le16Bytes]
  rw [le16At_eq hlow hhigh, UInt16.or_comm, join_be16]

theorem be16At_isSome {b : List UInt8} {off : Nat} (h : off + 2 ≤ b.length) :
    ∃ x, be16At b off = some x := by
  rw [be16At, List.getElem?_eq_getElem (by omega), List.getElem?_eq_getElem (by omega)]
  exact ⟨_, rfl⟩

theorem be32At_isSome {b : List UInt8} {off : Nat} (h : off + 4 ≤ b.length) :
    ∃ x, be32At b off = some x := by
  rw [be32At, List.getElem?_eq_getElem (by omega), List.getElem?_eq_getElem (by omega),
    List.getElem?_eq_getElem (by omega), List.getElem?_eq_getElem (by omega)]
  exact ⟨_, rfl⟩

/-- Bytes that are all in the array are read. -/
theorem load_eq {b : List UInt8} {off len : Nat} (h : off + len ≤ b.length) :
    load b off len = some ((b.drop off).take len) := by
  induction len generalizing off with
  | zero => simp [load]
  | succ len ih =>
    have hlt : off < b.length := by omega
    rw [load, ih (by omega), List.drop_eq_getElem_cons hlt, List.take_succ_cons,
      List.getElem?_eq_getElem hlt]
    rfl

/-! ## Rounding -/

/-- A mask without its `k` lowest bits rounds down. -/
theorem and_mask {w k x : Nat} (h : x < 2 ^ (w + k)) :
    x &&& ((2 ^ w - 1) <<< k) = x / 2 ^ k * 2 ^ k := by
  have hshift : x &&& ((2 ^ w - 1) <<< k) = ((x >>> k) &&& (2 ^ w - 1)) <<< k := by
    apply Nat.eq_of_testBit_eq
    intro i
    simp only [Nat.testBit_and, Nat.testBit_shiftLeft, Nat.testBit_shiftRight]
    by_cases hi : k ≤ i
    · simp [hi]
    · simp [hi]
  have hlt : x / 2 ^ k < 2 ^ w := by
    rw [Nat.div_lt_iff_lt_mul (Nat.two_pow_pos k), ← Nat.pow_add]
    exact h
  rw [hshift, Nat.shiftRight_eq_div_pow, Nat.and_two_pow_sub_one_of_lt_two_pow hlt,
    Nat.shiftLeft_eq]

/-! ## Stores -/

section Store

variable {n : Nat}

/-- Stores bytes one after the other from `off` on. -/
def store : Vector UInt8 n → Nat → List UInt8 → Option (Vector UInt8 n)
  | b, _, [] => some b
  | b, off, v :: vs => if h : off < n then store (b.set off v h) (off + 1) vs else none

/-- Stores that follow each other are one store. -/
theorem store_store {off off' : Nat} {vs : List UInt8} (h : off + vs.length = off')
    (b : Vector UInt8 n) (ws : List UInt8) :
    (do store (← store b off vs) off' ws) = store b off (vs ++ ws) := by
  induction vs generalizing b off with
  | nil =>
    rw [← h]
    rfl
  | cons v vs ih =>
    have hrest : off + 1 + vs.length = off' := by
      rw [← h, List.length_cons]
      omega
    rw [List.cons_append, store, store]
    by_cases hlt : off < n
    · rw [dif_pos hlt, dif_pos hlt, ih hrest]
    · rw [dif_neg hlt, dif_neg hlt]
      rfl

/-- The same, in the middle of a computation. -/
theorem store_store_bind {β : Type} {off off' : Nat} {vs : List UInt8} (h : off + vs.length = off')
    (b : Vector UInt8 n) (ws : List UInt8) (k : Vector UInt8 n → Option β) :
    (do let b ← store b off vs; let b ← store b off' ws; k b) =
      (do let b ← store b off (vs ++ ws); k b) := by
  rw [← store_store h, bind_assoc]

/-- A store that fits changes the bytes it is about and no others. -/
theorem store_spec {off : Nat} {vs : List UInt8} (h : off + vs.length ≤ n) (b : Vector UInt8 n) :
    ∃ b', store b off vs = some b' ∧
      b'.toList = b.toList.take off ++ vs ++ b.toList.drop (off + vs.length) := by
  induction vs generalizing b off with
  | nil => exact ⟨b, rfl, by simp⟩
  | cons v vs ih =>
    rw [List.length_cons] at h
    have hlt : off < n := by omega
    have hrest : off + 1 + vs.length ≤ n := by omega
    obtain ⟨b', hstore, hbytes⟩ := ih hrest (b.set off v hlt)
    refine ⟨b', ?_, ?_⟩
    · rw [store, dif_pos hlt]
      exact hstore
    · have hset : (b.set off v hlt).toList = b.toList.set off v := Vector.toList_set hlt
      have hlen : off < b.toList.length := by
        rw [Vector.length_toList]
        exact hlt
      rw [hbytes, hset, List.take_succ_eq_append_getElem (by simpa using hlt), List.getElem_set_self,
        List.take_set_of_le (Nat.le_refl off), List.drop_set_of_lt (by omega), List.length_cons]
      simp [Nat.add_assoc, Nat.add_comm 1]

/-- The same, for a store at the start of the array. -/
theorem store_zero_spec {vs : List UInt8} (h : vs.length ≤ n) (b : Vector UInt8 n) :
    ∃ b', store b 0 vs = some b' ∧ b'.toList = vs ++ b.toList.drop vs.length := by
  have hfits : 0 + vs.length ≤ n := by omega
  obtain ⟨b', hstore, hbytes⟩ := store_spec hfits b
  exact ⟨b', hstore, by simpa using hbytes⟩

/-- The same, for a store behind what was stored before. -/
theorem store_append_spec {off : Nat} {vs pre rest : List UInt8} {b : Vector UInt8 n}
    (hb : b.toList = pre ++ rest) (hpre : pre.length = off) (h : off + vs.length ≤ n) :
    ∃ b', store b off vs = some b' ∧ b'.toList = pre ++ (vs ++ rest.drop vs.length) := by
  obtain ⟨b', hstore, hbytes⟩ := store_spec h b
  refine ⟨b', hstore, ?_⟩
  rw [hbytes, hb, List.take_left' hpre, List.append_assoc, ← hpre, List.drop_append]
  simp

/-- A store behind the array does not work. -/
theorem store_outside {off : Nat} {vs : List UInt8} (hvs : vs ≠ []) (h : n ≤ off) (b : Vector UInt8 n) :
    store b off vs = none := by
  rcases vs with _ | ⟨v, vs⟩
  · exact absurd rfl hvs
  · exact dif_neg (Nat.not_lt.2 h)

/-- The bytes of an array, and 0 behind it. -/
def bytesOf (b : Vector UInt8 n) (i : Nat) : UInt8 := b[i]?.getD 0

/-- The same as `store_spec`, byte by byte. -/
theorem store_bytesOf {off : Nat} {vs : List UInt8} (h : off + vs.length ≤ n) (b : Vector UInt8 n) :
    ∃ b', store b off vs = some b' ∧ ∀ i, bytesOf b' i =
      if off ≤ i ∧ i < off + vs.length then vs.getD (i - off) 0 else bytesOf b i := by
  rcases store_spec h b with ⟨b', hstore, hbytes⟩
  refine ⟨b', hstore, ?_⟩
  intro i
  have hlen : b.toList.length = n := Vector.length_toList
  unfold bytesOf
  rw [← Vector.getElem?_toList, ← Vector.getElem?_toList, hbytes, List.append_assoc]
  by_cases hlow : i < off
  · rw [if_neg (by omega), List.getElem?_append_left (by rw [List.length_take]; omega), List.getElem?_take_of_lt hlow]
  · rw [List.getElem?_append_right (by rw [List.length_take]; omega), List.length_take, hlen, Nat.min_eq_left (by omega)]
    by_cases hhigh : i < off + vs.length
    · rw [if_pos ⟨Nat.not_lt.1 hlow, hhigh⟩, List.getElem?_append_left (by omega), List.getD_eq_getElem?_getD]
    · rw [if_neg (fun hin => hhigh hin.2), List.getElem?_append_right (by omega), List.getElem?_drop]
      congr 2
      omega

end Store

end CosKernel.Bytes
