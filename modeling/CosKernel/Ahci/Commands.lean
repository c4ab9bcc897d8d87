import CosKernel.Ahci.Model
import CosKernel.Lib.Checked

/-!
# The commands the controller is told of

A transfer fills in the header and the table of a slot and sets a bit of `ci`. The
controller then follows the base address of the port to the header, and the address
there to the table; `fetch` is what it makes of them.

The address in the header is from `ahci_port_rebase`, which takes the table by the index of
the port. `ahci_prepare_command` takes it by the distance of the registers of the port from
those of port 0, in bytes. These are the same table if port 0 is there, since it is
then the port that all transfers use. If it is not, its address is `NULL` and the distance is an
address itself.
-/

namespace CosKernel.Ahci

open Bytes Checked

/-! ## What the controller reads -/

/-- A transfer as the controller sees it: the first sector, the number of sectors, the address of the
buffer and its size. -/
structure Request where
  write : Bool
  lba : Nat
  sectors : Nat
  address : UInt64
  size : Nat
deriving DecidableEq, Repr

/-- What the controller finds for a slot when the bit is set: a header with a FIS of five words and
one buffer, and a table with a command of the same direction. -/
def fetch (layout : Layout) (issue : Issue) (slot : Nat) : Option Request :=
  let headers := bytesOf issue.memory.cmdList
  let tables := bytesOf issue.memory.cmdTables
  let header := (issue.bases.commandList - layout.cmdList).toNat + 32 * slot
  let table := (le64 headers (header + 8) - layout.cmdTables).toNat
  let write := headers header &&& 0x40 != 0
  if headers header &&& 0x1F = 5 ∧ le16 headers (header + 2) = 1 ∧ tables table = 0x27 ∧ tables (table + 1) = 0x80 ∧
      tables (table + 2) = (if write then 0x35 else 0x25) then
    some
      { write := write
        lba := le tables (table + 4) 3 + 2 ^ 24 * le tables (table + 8) 3
        sectors := le tables (table + 12) 2
        address := le64 tables (table + 128)
        size := (le32 tables (table + 140) &&& 0x3FFFFF).toNat + 1 }
  else none

/-! ## Stores -/

/-- A store that fits, byte by byte. -/
theorem inside_store {n : Nat} (b : Vector UInt8 n) (off : Nat) (vs : List UInt8) (h : off + vs.length ≤ n) :
    ∃ b', inside (store b off vs) = .ok b' ∧ ∀ i, bytesOf b' i =
      if off ≤ i ∧ i < off + vs.length then vs.getD (i - off) 0 else bytesOf b i := by
  rcases store_bytesOf h b with ⟨b', hstore, hbytes⟩
  refine ⟨b', ?_, hbytes⟩
  rw [hstore]
  rfl

@[simp] theorem length_literal (layout : Layout) (len count : Nat) : (literal layout len count).length = count := by
  simp [literal]

/-- A table that is in the array is filled in. -/
theorem prepareTable_spec (layout : Layout) (tables : Vector UInt8 (32 * 32 * 256)) {table : Nat}
    (h : table + 256 ≤ 32 * 32 * 256) (buffer : UInt64) (count : UInt32) (write : Bool) (lba : UInt64) :
    ∃ tables', prepareTable layout tables table buffer count write lba = .ok tables' ∧
      (∀ i < 11, bytesOf tables' (table + i) = (fisBytes write lba).getD i 0) ∧
      (∀ i < 2, bytesOf tables' (table + 12 + i) = [count.toUInt8, (count >>> 8).toUInt8].getD i 0) ∧
      le64 (bytesOf tables') (table + 128) = buffer ∧
      le32 (bytesOf tables') (table + 140) = byteCount count := by
  have hfis : (fisBytes write lba).length = 11 := rfl
  have hcount : [count.toUInt8, (count >>> 8).toUInt8].length = 2 := rfl
  have hacmd : [(0 : UInt8)].length = 1 := rfl
  rcases inside_store tables table (literal layout 171 256) (by rw [length_literal]; exact h) with ⟨t₁, h₁, -⟩
  rcases inside_store t₁ (table + 128) (leBytes 4 buffer.toUInt32.toNat) (by simp only [length_leBytes]; omega)
    with ⟨t₂, h₂, b₂⟩
  rcases inside_store t₂ (table + 132) (leBytes 4 (buffer >>> 32).toUInt32.toNat) (by simp only [length_leBytes]; omega)
    with ⟨t₃, h₃, b₃⟩
  rcases inside_store t₃ (table + 140) (leBytes 4 (byteCount count).toNat)
    (by simp only [length_leBytes]; omega) with ⟨t₄, h₄, b₄⟩
  rcases inside_store t₄ table (fisBytes write lba) (by omega) with ⟨t₅, h₅, b₅⟩
  rcases inside_store t₅ (table + 12) [count.toUInt8, (count >>> 8).toUInt8] (by omega) with ⟨t₆, h₆, b₆⟩
  rcases inside_store t₆ (table + 64) [0] (by omega) with ⟨t₇, h₇, b₇⟩
  rw [length_leBytes] at b₂ b₃ b₄
  rw [hfis] at b₅
  rw [hcount] at b₆
  rw [hacmd] at b₇
  refine ⟨t₇, ?_, ?_, ?_, ?_, ?_⟩
  · simp only [prepareTable, ahciMemcpy, h₁, h₂, h₃, h₄, h₅, h₆, h₇, bind, Except.bind]
  · intro i hi
    rw [b₇, if_neg (by omega), b₆, if_neg (by omega), b₅, if_pos (by omega), Nat.add_sub_cancel_left]
  · intro i hi
    rw [b₇, if_neg (by omega), b₆, if_pos (by omega), Nat.add_sub_cancel_left]
  · apply le64_of_halves
    · intro i hi
      rw [b₇, if_neg (by omega), b₆, if_neg (by omega), b₅, if_neg (by omega), b₄, if_neg (by omega), b₃,
        if_neg (by omega), b₂, if_pos (by omega), Nat.add_sub_cancel_left]
    · intro i hi
      have hoff : table + 128 + 4 + i = table + 132 + i := by omega
      rw [hoff, b₇, if_neg (by omega), b₆, if_neg (by omega), b₅, if_neg (by omega), b₄, if_neg (by omega), b₃,
        if_pos (by omega), Nat.add_sub_cancel_left]
  · have hbytes : ∀ i < 4, bytesOf t₇ (table + 140 + i) =
        (leBytes 4 (byteCount count).toNat).getD i 0 := by
      intro i hi
      rw [b₇, if_neg (by omega), b₆, if_neg (by omega), b₅, if_neg (by omega), b₄, if_pos (by omega),
        Nat.add_sub_cancel_left]
    have hlt : (byteCount count).toNat < 256 ^ 4 := UInt32.toNat_lt _
    rw [le32, le_leBytes hbytes, Nat.mod_eq_of_lt hlt, UInt32.ofNat_toNat]

/-- The first byte of a header afterwards. -/
theorem header_flags (flags : UInt8) (write : Bool) :
    ((flags &&& 0xE0 ||| 5) &&& 0xBF ||| if write then 0x40 else 0) &&& 0x1F = 5 ∧
      (((flags &&& 0xE0 ||| 5) &&& 0xBF ||| if write then 0x40 else 0) &&& 0x40 != 0) = write := by
  revert flags write
  decide +kernel

/-- A header that is in the array is filled in, and no byte behind its first four is changed. -/
theorem prepareHeader_spec (headers : Vector UInt8 (32 * 1024)) {header : Nat} (h : header + 4 ≤ 32 * 1024)
    (write : Bool) : ∃ headers', prepareHeader headers header write = .ok headers' ∧
      bytesOf headers' header &&& 0x1F = 5 ∧ (bytesOf headers' header &&& 0x40 != 0) = write ∧
      le16 (bytesOf headers') (header + 2) = 1 ∧
      ∀ i, i < header ∨ header + 4 ≤ i → bytesOf headers' i = bytesOf headers i := by
  have hflags : headers[header]? = some (headers.get ⟨header, by omega⟩) := Vector.getElem?_eq_getElem (by omega)
  generalize headers.get ⟨header, by omega⟩ = flags at hflags
  have hone : [(flags &&& 0xE0 ||| 5) &&& 0xBF ||| if write then 0x40 else 0].length = 1 := rfl
  rcases inside_store headers header [(flags &&& 0xE0 ||| 5) &&& 0xBF ||| if write then 0x40 else 0] (by omega)
    with ⟨h₁, hs₁, b₁⟩
  rcases inside_store h₁ (header + 2) (leBytes 2 1) (by simp only [length_leBytes]; omega) with ⟨h₂, hs₂, b₂⟩
  rw [hone] at b₁
  rw [length_leBytes] at b₂
  have hfirst : bytesOf h₂ header = (flags &&& 0xE0 ||| 5) &&& 0xBF ||| if write then 0x40 else 0 := by
    rw [b₂, if_neg (by omega), b₁, if_pos (by omega), Nat.sub_self]
    rfl
  refine ⟨h₂, ?_, ?_, ?_, ?_, ?_⟩
  · have hread : inside headers[header]? = .ok flags := by
      rw [hflags]
      rfl
    simp only [prepareHeader, hread, hs₁, hs₂, bind, Except.bind]
  · rw [hfirst]
    exact (header_flags flags write).1
  · rw [hfirst]
    exact (header_flags flags write).2
  · have hbytes : ∀ i < 2, bytesOf h₂ (header + 2 + i) = (leBytes 2 1).getD i 0 := by
      intro i hi
      rw [b₂, if_pos (by omega), Nat.add_sub_cancel_left]
    rw [le16, le_leBytes hbytes]
    rfl
  · intro i hi
    rw [b₂, if_neg (by omega), b₁, if_neg (by omega)]

/-! ## Ports that are set up -/

/-- The registers of a port lead to its headers, and these to its tables. -/
structure Based (layout : Layout) (d : Driver) (i : Fin ahciMaxPorts) : Prop where
  list : (d.bases (d.ports i)).commandList = layout.cmdList + UInt64.ofNat (1024 * i)
  tables : ∀ slot < ahciMaxCommandSlots, le64 (bytesOf d.memory.cmdList) (1024 * i + 32 * slot + 8) =
    layout.cmdTables + UInt64.ofNat (8192 * i + 256 * slot)

/-- The ports that are there have their registers behind those of the controller, and are set up. -/
structure Inv (layout : Layout) (d : Driver) : Prop where
  placed : ∀ i, d.ports i ≠ 0 → d.ports i = d.hba + 0x100 + UInt64.ofNat (i * 0x80)
  controller : ∀ i, d.ports i ≠ 0 → d.hba ≠ 0
  based : ∀ i, d.ports i ≠ 0 → Based layout d i

/-- The controller has more to say, or the call waits for ever. -/
def Waits (e : Stop) : Prop := e = .waits

/-- An address in a header is the same where its bytes are. -/
theorem le64_same {b b' : Nat → UInt8} {off : Nat} (h : ∀ k, off ≤ k → k < off + 8 → b' k = b k) :
    le64 b' off = le64 b off :=
  le64_congr fun k hk => (h (off + k) (Nat.le_add_right _ _) (Nat.add_lt_add_left hk _)).symm

/-- A byte of a number. -/
theorem toNat_shifted_byte (x : UInt64) {k : UInt64} (hk : k.toNat < 64) :
    (x >>> k).toUInt8.toNat = x.toNat / 2 ^ k.toNat % 256 := by
  rw [UInt64.toNat_toUInt8, UInt64.toNat_shiftRight, Nat.mod_eq_of_lt hk, Nat.shiftRight_eq_div_pow]

/-- A header and a table that are filled in give the transfer they were filled in for. -/
theorem fetch_eq {layout : Layout} {issue : Issue} {slot header table : Nat} {write : Bool} {lba buffer : UInt64}
    (hheader : (issue.bases.commandList - layout.cmdList).toNat + 32 * slot = header)
    (htable : (le64 (bytesOf issue.memory.cmdList) (header + 8) - layout.cmdTables).toNat = table)
    (hcfl : bytesOf issue.memory.cmdList header &&& 0x1F = 5)
    (hw : (bytesOf issue.memory.cmdList header &&& 0x40 != 0) = write)
    (hprdtl : le16 (bytesOf issue.memory.cmdList) (header + 2) = 1)
    (hfis : ∀ i < 11, bytesOf issue.memory.cmdTables (table + i) = (fisBytes write lba).getD i 0)
    (hcount : ∀ i < 2, bytesOf issue.memory.cmdTables (table + 12 + i) =
      [(1 : UInt32).toUInt8, ((1 : UInt32) >>> 8).toUInt8].getD i 0)
    (haddress : le64 (bytesOf issue.memory.cmdTables) (table + 128) = buffer)
    (hdbc : le32 (bytesOf issue.memory.cmdTables) (table + 140) = byteCount 1) (hlba : lba.toNat < 2 ^ 48) :
    fetch layout issue slot = some ⟨write, lba.toNat, 1, buffer, 512⟩ := by
  have hcommand : bytesOf issue.memory.cmdTables (table + 2) = if write then 0x35 else 0x25 := hfis 2 (by decide)
  have hnumber : le (bytesOf issue.memory.cmdTables) (table + 4) 3 +
      2 ^ 24 * le (bytesOf issue.memory.cmdTables) (table + 8) 3 = lba.toNat := by
    have h₄ : bytesOf issue.memory.cmdTables (table + 4) = lba.toUInt8 := hfis 4 (by decide)
    have h₅ : bytesOf issue.memory.cmdTables (table + 4 + 1) = (lba >>> 8).toUInt8 := hfis 5 (by decide)
    have h₆ : bytesOf issue.memory.cmdTables (table + 4 + 1 + 1) = (lba >>> 16).toUInt8 := hfis 6 (by decide)
    have h₈ : bytesOf issue.memory.cmdTables (table + 8) = (lba >>> 24).toUInt8 := hfis 8 (by decide)
    have h₉ : bytesOf issue.memory.cmdTables (table + 8 + 1) = (lba >>> 32).toUInt8 := hfis 9 (by decide)
    have h₁₀ : bytesOf issue.memory.cmdTables (table + 8 + 1 + 1) = (lba >>> 40).toUInt8 := hfis 10 (by decide)
    have b₀ : lba.toUInt8.toNat = lba.toNat % 256 := UInt64.toNat_toUInt8 lba
    have b₁ : (lba >>> 8).toUInt8.toNat = lba.toNat / 2 ^ 8 % 256 := toNat_shifted_byte lba (by decide)
    have b₂ : (lba >>> 16).toUInt8.toNat = lba.toNat / 2 ^ 16 % 256 := toNat_shifted_byte lba (by decide)
    have b₃ : (lba >>> 24).toUInt8.toNat = lba.toNat / 2 ^ 24 % 256 := toNat_shifted_byte lba (by decide)
    have b₄ : (lba >>> 32).toUInt8.toNat = lba.toNat / 2 ^ 32 % 256 := toNat_shifted_byte lba (by decide)
    have b₅ : (lba >>> 40).toUInt8.toNat = lba.toNat / 2 ^ 40 % 256 := toNat_shifted_byte lba (by decide)
    simp only [le, h₄, h₅, h₆, h₈, h₉, h₁₀, b₀, b₁, b₂, b₃, b₄, b₅]
    omega
  have hsectors : le (bytesOf issue.memory.cmdTables) (table + 12) 2 = 1 := by
    have h₀ : bytesOf issue.memory.cmdTables (table + 12) = 1 := hcount 0 (by decide)
    have h₁ : bytesOf issue.memory.cmdTables (table + 12 + 1) = 0 := hcount 1 (by decide)
    simp only [le, h₀, h₁]
    rfl
  have hsize : (byteCount 1 &&& 0x3FFFFF).toNat + 1 = 512 := by decide
  simp only [fetch, hheader, htable, hw, hcommand, hnumber, hsectors, haddress, hdbc, hsize]
  exact if_pos ⟨hcfl, hprdtl, hfis 0 (by decide), hfis 1 (by decide), trivial⟩

/-- The difference of an address in an array and its start. -/
theorem toNat_offset (base : UInt64) {off : Nat} (h : off < 2 ^ 64) :
    (base + UInt64.ofNat off - base).toNat = off := by
  rw [add_sub_cancel_left]
  exact UInt64.toNat_ofNat_of_lt' h

/-- A slot of a port that is set up is filled in and its bit is set, if the table that is taken is in the
array; the controller finds the transfer there, if it is the table of the port. -/
theorem ahciPrepareCommand_spec {layout : Layout} {d : Driver} {i : Fin ahciMaxPorts} (h : Based layout d i)
    {slot : Nat} (hslot : slot < ahciMaxCommandSlots) (hrow : (tableRow d (d.ports i)).toNat < 32) (buffer : UInt64)
    (write : Bool) (lba : UInt64) (ci : UInt32) (answers : Answers) :
    ∃ issue : Issue, ahciPrepareCommand layout (d.ports i) slot buffer 1 write lba d (ci :: answers) =
        .ok (true, { d with memory := issue.memory, issued := d.issued ++ [issue] }, answers) ∧
      issue.port = d.ports i ∧ issue.ci = ci ∧ issue.bit = (1 : UInt32) <<< UInt32.ofNat slot ∧
      (∀ off, (∀ k, off ≤ k → k < off + 8 → 8 ≤ k % 32) →
        le64 (bytesOf issue.memory.cmdList) off = le64 (bytesOf d.memory.cmdList) off) ∧
      ((tableRow d (d.ports i)).toNat = i → lba.toNat < 2 ^ 48 →
        fetch layout issue slot = some ⟨write, lba.toNat, 1, buffer, 512⟩) := by
  have hi : i.val < 32 := i.isLt
  have hs : slot < 32 := hslot
  have hheader : ((d.bases (d.ports i)).commandList - layout.cmdList).toNat + 32 * slot = 1024 * i + 32 * slot := by
    rw [h.list, toNat_offset _ (by omega)]
  rcases prepareTable_spec layout d.memory.cmdTables
      (show 8192 * (tableRow d (d.ports i)).toNat + 256 * slot + 256 ≤ 32 * 32 * 256 by omega) buffer 1 write lba
    with ⟨tables, htables, hfis, hcount, haddress, hdbc⟩
  rcases prepareHeader_spec d.memory.cmdList (show 1024 * i.val + 32 * slot + 4 ≤ 32 * 1024 by omega) write
    with ⟨list, hlist, hcfl, hw, hprdtl, hframe⟩
  have hkept : ∀ off, (∀ k, off ≤ k → k < off + 8 → 8 ≤ k % 32) →
      le64 (bytesOf list) off = le64 (bytesOf d.memory.cmdList) off := by
    intro off hoff
    apply le64_same
    intro k hk hk'
    have hfar := hoff k hk hk'
    exact hframe k (by omega)
  refine ⟨⟨d.ports i, ci, (1 : UInt32) <<< UInt32.ofNat slot, d.bases (d.ports i),
    { d.memory with cmdList := list, cmdTables := tables }⟩, ?_, rfl, rfl, rfl, hkept, ?_⟩
  · unfold ahciPrepareCommand
    rw [if_neg (Nat.not_le.2 hslot)]
    simp only [hheader, htables, hlist, bind, Except.bind, pure, Except.pure]
  · intro hsame hlba
    have htable : (le64 (bytesOf list) (1024 * i + 32 * slot + 8) - layout.cmdTables).toNat =
        8192 * (tableRow d (d.ports i)).toNat + 256 * slot := by
      rw [hkept _ (fun k hk hk' => by omega), h.tables slot hslot, toNat_offset _ (by omega), hsame]
    exact fetch_eq hheader htable hcfl hw hprdtl hfis hcount haddress hdbc hlba

/-- A table outside of the array ends the run. -/
theorem ahciPrepareCommand_outside (layout : Layout) (d : Driver) (port : UInt64) {slot : Nat}
    (hslot : slot < ahciMaxCommandSlots) (hrow : 32 ≤ (tableRow d port).toNat) (buffer : UInt64) (count : UInt32)
    (write : Bool) (lba : UInt64) (answers : Answers) :
    ahciPrepareCommand layout port slot buffer count write lba d answers = .error .outside := by
  have hliteral : literal layout 171 256 ≠ [] := by
    intro h
    have hlen := congrArg List.length h
    rw [length_literal] at hlen
    exact absurd hlen (by decide)
  have hstore : store d.memory.cmdTables (8192 * (tableRow d port).toNat + 256 * slot) (literal layout 171 256) = none :=
    store_outside hliteral (by omega) _
  have htables : prepareTable layout d.memory.cmdTables (8192 * (tableRow d port).toNat + 256 * slot) buffer count
      write lba = .error .outside := by
    unfold prepareTable ahciMemcpy
    rw [hstore]
    rfl
  unfold ahciPrepareCommand
  rw [if_neg (Nat.not_le.2 hslot)]
  simp only [htables, bind, Except.bind]

/-- The slot that is found exists, and its bit is clear. -/
theorem freeSlot_some {slots : UInt32} {slot : Nat} (h : freeSlot slots = some slot) :
    slot < ahciMaxCommandSlots ∧ slots &&& (1 : UInt32) <<< UInt32.ofNat slot = 0 := by
  have hclear := List.find?_some h
  exact ⟨List.mem_range.1 (List.mem_of_find?_eq_some h), eq_of_beq hclear⟩

/-! ## Transfers -/

/-- The first port is there. -/
theorem firstPort_ne {d : Driver} {i : Fin ahciMaxPorts} (h : firstPort d = some i) : d.ports i ≠ 0 := by
  simpa using List.find?_some h

section Transfers

variable {layout : Layout} {d : Driver} (hinv : Inv layout d)
include hinv

/-- A transfer that finds a free slot, after the command is prepared. -/
theorem sector_free {i : Fin ahciMaxPorts} (hfirst : firstPort d = some i) {sact ci : UInt32} {slot : Nat}
    (hslot : freeSlot (sact ||| ci) = some slot) (write : Bool) (lba : UInt32) {buffer : UInt64} (hbuffer : buffer ≠ 0)
    (answers : Answers) : sector write layout lba buffer d (sact :: ci :: answers) = do
      let r ← ahciPrepareCommand layout (d.ports i) slot buffer 1 write lba.toUInt64 d answers
      if !r.1 then return (-1, r.2)
      else
        let r' ← ahciWaitCompletion slot r.2.2
        return (if r'.1 then 0 else -1, r.2.1, r'.2) := by
  have hhba := hinv.controller i (firstPort_ne hfirst)
  simp only [sector, if_neg hbuffer, ahciDoTransfer, if_neg hhba, hfirst, ahciPortFindFreeSlot, hslot, bind, Except.bind,
    pure, Except.pure]
  rcases ahciPrepareCommand layout (d.ports i) slot buffer 1 write lba.toUInt64 d answers with e | ⟨prepared, d', rest⟩
  · rfl
  rcases prepared with _ | _
  · rfl
  simp only [Bool.not_true, Bool.false_eq_true, if_false]
  rcases ahciWaitCompletion slot rest with e | ⟨completed, rest'⟩
  · rfl
  · rfl

/-- What a transfer that returns leaves behind. -/
theorem sector_inv (write : Bool) (lba : UInt32) (buffer : UInt64) (answers : Answers) :
    Meets (fun _ => True) (fun r => Inv layout r.2.1) (sector write layout lba buffer d answers) := by
  by_cases hbuffer : buffer = 0
  · rw [sector, if_pos hbuffer]
    exact hinv
  rcases hfirst : firstPort d with _ | i
  · -- no port is there
    have hresult : sector write layout lba buffer d answers = .ok (-1, d, answers) := by
      simp only [sector, if_neg hbuffer, ahciDoTransfer, hfirst, ite_self]
      rfl
    rw [hresult]
    exact hinv
  have hhba := hinv.controller i (firstPort_ne hfirst)
  rcases answers with _ | ⟨sact, _ | ⟨ci, answers⟩⟩
  · simp only [sector, if_neg hbuffer, ahciDoTransfer, if_neg hhba, hfirst]
    trivial
  · simp only [sector, if_neg hbuffer, ahciDoTransfer, if_neg hhba, hfirst]
    trivial
  rcases hslot : freeSlot (sact ||| ci) with _ | slot
  · -- all slots are in use
    simp only [sector, if_neg hbuffer, ahciDoTransfer, if_neg hhba, hfirst, ahciPortFindFreeSlot, hslot]
    exact hinv
  have hfree := freeSlot_some hslot
  rw [sector_free hinv hfirst hslot write lba hbuffer]
  by_cases hrow : 32 ≤ (tableRow d (d.ports i)).toNat
  · rw [ahciPrepareCommand_outside layout d _ hfree.1 hrow]
    trivial
  rcases answers with _ | ⟨ci', answers⟩
  · rcases hprepare : ahciPrepareCommand layout (d.ports i) slot buffer 1 write lba.toUInt64 d [] with e | r
    · trivial
    · -- it cannot read `ci`
      exfalso
      unfold ahciPrepareCommand at hprepare
      rw [if_neg (Nat.not_le.2 hfree.1)] at hprepare
      simp only [bind, Except.bind] at hprepare
      split at hprepare
      · cases hprepare
      · split at hprepare
        · cases hprepare
        · cases hprepare
  rcases ahciPrepareCommand_spec (hinv.based i (firstPort_ne hfirst)) hfree.1 (by omega) buffer write lba.toUInt64
    ci' answers with ⟨issue, hprepare, -, -, -, hkept, -⟩
  rw [hprepare]
  have hnext : Inv layout { d with memory := issue.memory, issued := d.issued ++ [issue] } := by
    refine ⟨hinv.placed, hinv.controller, ?_⟩
    intro j hj
    have hold := hinv.based j hj
    refine ⟨hold.list, ?_⟩
    intro s hs
    rw [← hold.tables s hs]
    exact hkept _ (fun k hk hk' => by omega)
  simp only [bind, Except.bind, Bool.not_true, Bool.false_eq_true, if_false]
  rcases ahciWaitCompletion slot answers with e | r
  · trivial
  · exact hnext

end Transfers

/-! ## Initialization -/

/-- A call of `ahci_read_sector` or `ahci_write_sector`, with what the registers say meanwhile. -/
structure Call where
  write : Bool
  lba : UInt32
  buffer : UInt64
  answers : Answers

/-- The driver after a call. -/
def Call.step (layout : Layout) (d : Driver) (c : Call) : Except Stop Driver :=
  (if c.write then ahciWriteSector layout c.lba c.buffer d c.answers
    else ahciReadSector layout c.lba c.buffer d c.answers).map fun r => r.2.1

theorem Call.step_inv (layout : Layout) (d : Driver) (c : Call) (h : Inv layout d) :
    Meets (fun _ => True) (Inv layout) (c.step layout d) := by
  have hsector := sector_inv h c.write c.lba c.buffer c.answers
  have heq : c.step layout d = (sector c.write layout c.lba c.buffer d c.answers).map fun r => r.2.1 := by
    unfold Call.step ahciWriteSector ahciReadSector
    rcases c.write with _ | _
    · rfl
    · rfl
  rw [heq]
  rcases hresult : sector c.write layout c.lba c.buffer d c.answers with e | r
  · trivial
  · rw [hresult] at hsector
    exact hsector

end CosKernel.Ahci
