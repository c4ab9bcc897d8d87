import CosKernel.Lib.Run

/-!
# Type-length-value records

A buffer of records, each a code byte, a length byte and as many bytes of value.
A pad byte stands for itself and a stop byte ends the buffer; no record has
either as its code.
-/

namespace CosKernel.Tlv

variable {pad stop : UInt8}

structure Record (pad stop : UInt8) where
  code : UInt8
  value : List UInt8
  code_ne_stop : code ≠ stop
  code_ne_pad : code ≠ pad
  length_lt : value.length < 256
deriving DecidableEq, Repr

/-- What a buffer is written from. -/
inductive Item (pad stop : UInt8) where
  | filler
  | record (r : Record pad stop)
deriving DecidableEq, Repr

/-- The bytes of an item. -/
def Item.encode : Item pad stop → List UInt8
  | .filler => [pad]
  | .record r => r.code :: UInt8.ofNat r.value.length :: r.value

/-- The records among the items. -/
def records (items : List (Item pad stop)) : List (Record pad stop) :=
  items.filterMap fun
    | .filler => none
    | .record r => some r

/-- The records that lie completely before the end of the buffer and before its first stop byte. -/
def decode (pad stop : UInt8) : List UInt8 → List (Record pad stop)
  | code :: len :: rest =>
    if hstop : code = stop then []
    else if hpad : code = pad then decode pad stop (len :: rest)
    else if len.toNat ≤ rest.length then
      ⟨code, rest.take len.toNat, hstop, hpad,
        Nat.lt_of_le_of_lt (List.length_take_le _ _) len.toNat_lt⟩ ::
        decode pad stop (rest.drop len.toNat)
    else []
  | _ => []
termination_by buffer => buffer.length
decreasing_by
  all_goals simp only [List.length_cons, List.length_drop]; omega

theorem decode_short {buffer : List UInt8} (h : buffer.length < 2) : decode pad stop buffer = [] := by
  match buffer with
  | [] => simp [decode]
  | [_] => simp [decode]

theorem decode_stop (rest : List UInt8) : decode pad stop (stop :: rest) = [] := by
  match rest with
  | [] => simp [decode]
  | _ :: _ => simp [decode]

theorem decode_pad (hne : pad ≠ stop) (rest : List UInt8) :
    decode pad stop (pad :: rest) = decode pad stop rest := by
  match rest with
  | [] => simp [decode]
  | _ :: _ =>
    rw [decode, dif_neg hne, dif_pos rfl]

/-- A whole record in front of other bytes is decoded first. -/
theorem decode_record (r : Record pad stop) (rest : List UInt8) :
    decode pad stop (Item.encode (.record r) ++ rest) = r :: decode pad stop rest := by
  have hlen : (UInt8.ofNat r.value.length).toNat = r.value.length :=
    UInt8.toNat_ofNat_of_lt' r.length_lt
  show decode pad stop (r.code :: UInt8.ofNat r.value.length :: (r.value ++ rest)) = _
  rw [decode, dif_neg r.code_ne_stop, dif_neg r.code_ne_pad, if_pos (by rw [hlen]; simp)]
  simp [hlen]

/-- The records of the items that lie completely in the first `n` bytes. -/
def complete : List (Item pad stop) → Nat → List (Record pad stop)
  | [], _ => []
  | item :: items, n =>
    if item.encode.length ≤ n then records [item] ++ complete items (n - item.encode.length) else []

theorem complete_of_le {items : List (Item pad stop)} {n : Nat}
    (h : (items.flatMap Item.encode).length ≤ n) : complete items n = records items := by
  induction items generalizing n with
  | nil => rfl
  | cons item items ih =>
    rw [List.flatMap_cons, List.length_append] at h
    rw [complete, if_pos (by omega), ih (by omega)]
    exact (List.filterMap_append (l := [item])).symm

/-- A record that is cut short, and nothing behind it, is decoded. -/
theorem decode_cut (r : Record pad stop) (rest : List UInt8) {n : Nat}
    (h : n < (Item.encode (.record r)).length) :
    decode pad stop ((Item.encode (.record r) ++ rest).take n) = [] := by
  have hlen : (UInt8.ofNat r.value.length).toNat = r.value.length :=
    UInt8.toNat_ofNat_of_lt' r.length_lt
  match n with
  | 0 => exact decode_short (by simp)
  | 1 => exact decode_short (by simp [Item.encode])
  | n + 2 =>
    simp only [Item.encode, List.length_cons] at h
    show decode pad stop (r.code :: UInt8.ofNat r.value.length :: (r.value ++ rest).take n) = []
    have hshort : ¬ (UInt8.ofNat r.value.length).toNat ≤ ((r.value ++ rest).take n).length := by
      rw [hlen, List.length_take]
      omega
    rw [decode, dif_neg r.code_ne_stop, dif_neg r.code_ne_pad, if_neg hshort]

/-- A buffer that is cut at any point decodes to the records before the cut. -/
theorem decode_take (hne : pad ≠ stop) (items : List (Item pad stop)) (rest : List UInt8) (n : Nat) :
    decode pad stop ((items.flatMap Item.encode ++ stop :: rest).take n) = complete items n := by
  induction items generalizing n with
  | nil =>
    cases n with
    | zero => exact decode_short (by simp)
    | succ n => exact decode_stop _
  | cons item items ih =>
    rw [List.flatMap_cons, List.append_assoc, complete]
    by_cases hfits : item.encode.length ≤ n
    · rw [if_pos hfits, List.take_append, List.take_of_length_le hfits]
      cases item with
      | filler => exact (decode_pad hne _).trans (ih _)
      | record r =>
        rw [decode_record, ih]
        rfl
    · rw [if_neg hfits]
      cases item with
      | filler =>
        obtain rfl : n = 0 := by simpa [Item.encode] using hfits
        exact decode_short (by simp)
      | record r => exact decode_cut r _ (by omega)

/-- Decoding gives back the records that were written, whatever stands behind the stop byte. -/
theorem decode_encode (hne : pad ≠ stop) (items : List (Item pad stop)) (rest : List UInt8) :
    decode pad stop (items.flatMap Item.encode ++ stop :: rest) = records items := by
  have hall : ((items.flatMap Item.encode ++ stop :: rest).take
      (items.flatMap Item.encode ++ stop :: rest).length) = items.flatMap Item.encode ++ stop :: rest :=
    List.take_length
  rw [← hall, decode_take hne]
  exact complete_of_le (by simp)

end CosKernel.Tlv
