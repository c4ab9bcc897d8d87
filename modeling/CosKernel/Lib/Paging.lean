import Mathlib

/-!
# Four-level paging on x86-64

The translation of a virtual address by the page tables in memory, with pages of
4 KB, 2 MB and 1 GB. `Gigabytes` describes tables that use 1 GB pages only, all
of them in one page-directory-pointer table; `walk_gigabytes` is the translation
they define.
-/

namespace CosKernel.Paging

abbrev Word := BitVec 64

/-- The `n` bits of a word from bit `lo` on, as a number. -/
def bits (w : Word) (lo n : Nat) : Nat := w.toNat / 2 ^ lo % 2 ^ n

/-- Entry `i` of the table at an address. -/
def entry (table : Word) (i : Nat) : Word := table + BitVec.ofNat 64 (8 * i)

/-- The table that an entry (or `cr3`) points to: bits 12 to 51. -/
def frame (e : Word) : Word := BitVec.ofNat 64 (bits e 12 40 * 2 ^ 12)

/-- Bit 0 of an entry. -/
def present (e : Word) : Bool := bits e 0 1 = 1

/-- Bit 7 of an entry: it maps a 1 GB or 2 MB page. -/
def huge (e : Word) : Bool := bits e 7 1 = 1

/-- Entry `i` of the table that `e` points to, if it is present. -/
def descend (read : Word → Word) (e : Word) (i : Nat) : Option Word :=
  let next := read (entry (frame e) i)
  if present next then some next else none

/-- The address in a page: the bits of the entry from `n` on, and the low `n` bits
of the virtual address. -/
def inPage (e v : Word) (n : Nat) : Word := BitVec.ofNat 64 (bits e n (52 - n) * 2 ^ n + bits v 0 n)

/-- The walk; `none` when an entry is not present. -/
def walk (read : Word → Word) (cr3 v : Word) : Option Word := do
  let pml4e ← descend read cr3 (bits v 39 9)
  let pdpte ← descend read pml4e (bits v 30 9)
  if huge pdpte then return inPage pdpte v 30
  let pde ← descend read pdpte (bits v 21 9)
  if huge pde then return inPage pde v 21
  let pte ← descend read pde (bits v 12 9)
  return inPage pte v 12

/-- The addresses whose bits 48 to 63 all equal bit 47. -/
def Canonical (v : Word) : Prop := v.toNat < 2 ^ 47 ∨ 2 ^ 64 - 2 ^ 47 ≤ v.toNat

instance (v : Word) : Decidable (Canonical v) :=
  inferInstanceAs (Decidable (v.toNat < 2 ^ 47 ∨ 2 ^ 64 - 2 ^ 47 ≤ v.toNat))

/-! ## Entries of aligned tables -/

/-- A table starts on a page boundary. -/
def Aligned (table : Word) : Prop := table.toNat % 4096 = 0

instance (table : Word) : Decidable (Aligned table) :=
  inferInstanceAs (Decidable (table.toNat % 4096 = 0))

theorem toNat_entry {table : Word} (h : Aligned table) {i : Nat} (hi : i < 512) :
    (entry table i).toNat = table.toNat + 8 * i := by
  have hlt := table.isLt
  unfold Aligned at h
  unfold entry
  rw [BitVec.toNat_add, BitVec.toNat_ofNat]
  omega

/-- Entries of aligned tables are the same only if both table and index are. -/
theorem entry_inj {table table' : Word} (h : Aligned table) (h' : Aligned table')
    {i j : Nat} (hi : i < 512) (hj : j < 512) (heq : entry table i = entry table' j) :
    table = table' ∧ i = j := by
  have hnat := congrArg BitVec.toNat heq
  rw [toNat_entry h hi, toNat_entry h' hj] at hnat
  unfold Aligned at h h'
  constructor
  · apply BitVec.eq_of_toNat_eq
    omega
  · omega

/-- A base address and flags below it. -/
theorem toNat_or_flags {w : Nat} {base flags : BitVec w} {k : Nat} (hbase : base.toNat % 2 ^ k = 0)
    (hflags : flags.toNat < 2 ^ k) : (base ||| flags).toNat = base.toNat + flags.toNat := by
  have hmul : base.toNat = 2 ^ k * (base.toNat / 2 ^ k) := by
    have hdiv := Nat.div_add_mod base.toNat (2 ^ k)
    omega
  rw [BitVec.toNat_or, hmul]
  exact (Nat.two_pow_add_eq_or_of_lt hflags _).symm

/-- The frame of an entry made of an aligned address and flags. -/
theorem frame_eq {table e : Word} {flags : Nat} (h : Aligned table) (hlt : table.toNat < 2 ^ 52)
    (hflags : flags < 4096) (he : e.toNat = table.toNat + flags) : frame e = table := by
  apply BitVec.eq_of_toNat_eq
  unfold Aligned at h
  unfold frame bits
  rw [BitVec.toNat_ofNat, he]
  omega

/-! ## Tables of 1 GB pages -/

/-- The slots in `slots` of the table at `cr3` point to the table `pdpt`, whose
first `n` entries map the first `n` gigabytes; no other entry is present. -/
structure Gigabytes (read : Word → Word) (cr3 pdpt : Word) (slots : Finset Nat) (n : Nat) :
    Prop where
  aligned : Aligned pdpt
  lt : pdpt.toNat < 2 ^ 52
  slot : ∀ i ∈ slots, ∃ flags, flags < 4096 ∧ flags % 2 = 1 ∧
    (read (entry (frame cr3) i)).toNat = pdpt.toNat + flags
  other_slot : ∀ i < 512, i ∉ slots → read (entry (frame cr3) i) = 0
  page : ∀ i < n, ∃ flags, flags < 4096 ∧ flags % 2 = 1 ∧ flags / 2 ^ 7 % 2 = 1 ∧
    (read (entry pdpt i)).toNat = i * 2 ^ 30 + flags
  other_page : ∀ i < 512, n ≤ i → read (entry pdpt i) = 0

section Gigabytes

variable {read : Word → Word} {cr3 pdpt : Word} {slots : Finset Nat} {n : Nat}

theorem not_present_zero : present 0 = false := by
  decide

theorem Gigabytes.descend_slot (h : Gigabytes read cr3 pdpt slots n) {i : Nat} (hi : i ∈ slots) :
    ∃ e, descend read cr3 i = some e ∧ frame e = pdpt := by
  obtain ⟨flags, hflags, hodd, he⟩ := h.slot i hi
  have haligned := h.aligned
  unfold Aligned at haligned
  have hpresent : present (read (entry (frame cr3) i)) = true := by
    simp only [present, bits, decide_eq_true_eq, he]
    omega
  refine ⟨read (entry (frame cr3) i), ?_, frame_eq h.aligned h.lt hflags he⟩
  unfold descend
  rw [if_pos hpresent]

theorem Gigabytes.descend_page (h : Gigabytes read cr3 pdpt slots n) {e : Word}
    (he : frame e = pdpt) {i : Nat} (hi : i < n) (hn : n ≤ 512) :
    ∃ e', descend read e i = some e' ∧ huge e' = true ∧ bits e' 30 22 = i := by
  obtain ⟨flags, hflags, hodd, hps, hread⟩ := h.page i hi
  have hpresent : present (read (entry pdpt i)) = true := by
    simp only [present, bits, decide_eq_true_eq, hread]
    omega
  refine ⟨read (entry pdpt i), ?_, ?_, ?_⟩
  · unfold descend
    rw [he, if_pos hpresent]
  · simp only [huge, bits, decide_eq_true_eq, hread]
    omega
  · simp only [bits, hread]
    omega

theorem descend_of_zero {e : Word} {i : Nat} (h : read (entry (frame e) i) = 0) :
    descend read e i = none := by
  unfold descend
  rw [h]
  exact if_neg (Bool.eq_false_iff.mp not_present_zero)

/-- The translation: a slot in `slots` and one of the first `n` gigabytes give the
low 39 bits of the address, everything else is not present. -/
theorem walk_gigabytes (h : Gigabytes read cr3 pdpt slots n) (hn : n ≤ 512) (v : Word) :
    walk read cr3 v =
      if bits v 39 9 ∈ slots ∧ bits v 30 9 < n then some (BitVec.ofNat 64 (bits v 0 39)) else none := by
  have hslot : bits v 39 9 < 512 := Nat.mod_lt _ (by decide)
  have hpage : bits v 30 9 < 512 := Nat.mod_lt _ (by decide)
  unfold walk
  by_cases hs : bits v 39 9 ∈ slots
  · obtain ⟨e, hdescend, hframe⟩ := h.descend_slot hs
    rw [hdescend]
    by_cases hp : bits v 30 9 < n
    · obtain ⟨e', hdescend', hhuge, hbits⟩ := h.descend_page hframe hp hn
      have hlow : bits v 30 9 * 2 ^ 30 + bits v 0 30 = bits v 0 39 := by
        unfold bits
        omega
      rw [if_pos ⟨hs, hp⟩, ← hlow]
      simp [hdescend', hhuge, inPage, hbits]
    · have hnone : descend read e (bits v 30 9) = none := by
        apply descend_of_zero
        rw [hframe]
        exact h.other_page _ hpage (by omega)
      rw [if_neg (fun hboth => hp hboth.2)]
      simp [hnone]
  · have hnone : descend read cr3 (bits v 39 9) = none :=
      descend_of_zero (h.other_slot _ hslot hs)
    rw [if_neg (fun hboth => hs hboth.1)]
    simp [hnone]

end Gigabytes

end CosKernel.Paging
