import CosKernel.Pci.Model

/-!
# What the scanners find

A scanner looks at the functions of a device only if function 0 is present, and
beyond function 0 only if that says so; with this in the condition, its `break`
leaves out no function it could find, and what it returns is the first function
that meets the condition. The two scanners for a class read the same registers,
so they find the same.
-/

namespace CosKernel.Pci

open Search

/-! ## Addresses -/

theorem toUInt32_and_fc (offset : UInt8) : offset.toUInt32 &&& 0xFC = (offset &&& 0xFC).toUInt32 := by
  revert offset
  decide +kernel

/-- Both address builders build the same address. -/
theorem pciConfigRead_eq (cs : ConfigSpace) : pciConfigRead cs = pciReadConfigDword cs := by
  funext bus device function offset
  rw [pciConfigRead, pciReadConfigDword, pciBuildAddress, toUInt32_and_fc]

/-- Device and function share the second byte of an address. -/
theorem device_or_function (device : Fin 32) (function : Fin 8) :
    (UInt8.ofNat device).toUInt32 <<< 11 ||| (UInt8.ofNat function).toUInt32 <<< 8 =
      (UInt8.ofNat (8 * device + function)).toUInt32 <<< 8 := by
  revert device function
  decide +kernel

theorem toNat_pciBuildAddress (bus offset : UInt8) {device function : Nat} (hd : device < 32)
    (hf : function < 8) :
    (pciBuildAddress bus (.ofNat device) (.ofNat function) offset).toNat =
      2147483648 + 65536 * bus.toNat + 256 * (8 * device + function) + (offset &&& 0xFC).toNat := by
  have hbyte : (UInt8.ofNat (8 * device + function)).toNat = 8 * device + function :=
    UInt8.toNat_ofNat_of_lt' (by simp only [UInt8.size]; omega)
  have henable : (0x80000000 : UInt32) = (0x80 : UInt8).toUInt32 <<< 24 := rfl
  have hshared := device_or_function ⟨device, hd⟩ ⟨function, hf⟩
  rw [pciBuildAddress, toUInt32_and_fc, henable, UInt32.or_assoc _ ((UInt8.ofNat device).toUInt32 <<< 11),
    hshared, Bytes.toNat_join32, hbyte]
  rfl

/-- What is read is the register that was asked for. -/
theorem pciReadConfigDword_eq (cs : ConfigSpace) (bus offset : UInt8) {device function : Nat}
    (hd : device < 32) (hf : function < 8) :
    pciReadConfigDword cs bus (.ofNat device) (.ofNat function) offset =
      cs bus (.ofNat device) (.ofNat function) (offset &&& 0xFC) := by
  have haddr := toNat_pciBuildAddress bus offset hd hf
  have hb := bus.toNat_lt
  have ho : (offset &&& 0xFC).toNat < 256 := UInt8.toNat_lt _
  have hd' : (UInt8.ofNat device).toNat = device := UInt8.toNat_ofNat_of_lt' (by simp only [UInt8.size]; omega)
  have hf' : (UInt8.ofNat function).toNat = function :=
    UInt8.toNat_ofNat_of_lt' (by simp only [UInt8.size]; omega)
  -- the fields of the address, each as a quotient and a remainder
  generalize hA : pciBuildAddress bus (.ofNat device) (.ofNat function) offset = A at haddr
  have henabled : A &&& 0x80000000 ≠ 0 := by
    intro h
    have hbit := congrArg UInt32.toNat h
    rw [UInt32.toNat_and] at hbit
    have hpow : (0x80000000 : UInt32).toNat = 2 ^ 31 := rfl
    rw [hpow, Nat.and_two_pow, Nat.testBit_eq_decide_div_mod_eq, haddr] at hbit
    have hone : (2147483648 + 65536 * bus.toNat + 256 * (8 * device + function) +
      (offset &&& 0xFC).toNat) / 2 ^ 31 % 2 = 1 := by omega
    rw [hone] at hbit
    cases hbit
  have hbus : (A >>> 16).toUInt8 = bus := by
    apply UInt8.toNat_inj.1
    rw [UInt32.toNat_toUInt8, UInt32.toNat_shiftRight]
    show A.toNat >>> 16 % 256 = _
    rw [Nat.shiftRight_eq_div_pow, haddr]
    omega
  have hdevice : ((A >>> 11) &&& 0x1F).toUInt8 = .ofNat device := by
    apply UInt8.toNat_inj.1
    simp only [UInt32.toNat_toUInt8, UInt32.toNat_and, UInt32.toNat_shiftRight]
    show (A.toNat >>> 11 &&& 2 ^ 5 - 1) % 256 = _
    rw [Nat.and_two_pow_sub_one_eq_mod, Nat.shiftRight_eq_div_pow, haddr, hd']
    omega
  have hfunction : ((A >>> 8) &&& 0x07).toUInt8 = .ofNat function := by
    apply UInt8.toNat_inj.1
    simp only [UInt32.toNat_toUInt8, UInt32.toNat_and, UInt32.toNat_shiftRight]
    show (A.toNat >>> 8 &&& 2 ^ 3 - 1) % 256 = _
    rw [Nat.and_two_pow_sub_one_eq_mod, Nat.shiftRight_eq_div_pow, haddr, hf']
    omega
  have hoffset : A.toUInt8 = offset &&& 0xFC := by
    apply UInt8.toNat_inj.1
    rw [UInt32.toNat_toUInt8, haddr]
    omega
  rw [pciReadConfigDword, hA, configData, if_neg henabled, hbus, hdevice, hfunction, hoffset,
    UInt8.and_assoc, UInt8.and_self]

/-! ## The functions a scanner looks at -/

/-- A bus, a device and a function. -/
abbrev Slot := Nat × Nat × Nat

/-- The order in which the scanners go through the slots. -/
def Before : Slot → Slot → Prop := Prod.Lex (· < ·) (Prod.Lex (· < ·) (· < ·))

/-- What a register of a slot holds. -/
def ConfigSpace.at (cs : ConfigSpace) (s : Slot) (offset : UInt8) : UInt32 :=
  cs (.ofNat s.1) (.ofNat s.2.1) (.ofNat s.2.2) offset

/-- There is a function in the slot: its vendor is not `0xFFFF`. -/
def Present (cs : ConfigSpace) (s : Slot) : Prop := (cs.at s 0x00).toUInt16 ≠ 0xFFFF

/-- The multi-function bit. -/
def MultiFunction (cs : ConfigSpace) (s : Slot) : Prop := (cs.at s 0x0C >>> 16).toUInt8 &&& 0x80 ≠ 0

/-- The function 0 of the same device. -/
def Slot.functionZero (s : Slot) : Slot := (s.1, s.2.1, 0)

/-- A slot on the first two buses with a function that has a property, and whose function 0 says that
the device has this function. -/
structure Candidate (cs : ConfigSpace) (hit : Slot → Prop) (s : Slot) : Prop where
  bus : s.1 < 2
  device : s.2.1 < 32
  function : s.2.2 < 8
  present : Present cs s
  hit : hit s
  zero : Present cs s.functionZero
  multi : 0 < s.2.2 → MultiFunction cs s.functionZero

/-- The function has a class. -/
def HasClass (cs : ConfigSpace) (classCode subclass progIf : UInt8) (s : Slot) : Prop :=
  (cs.at s 0x08 >>> 24).toUInt8 = classCode ∧ (cs.at s 0x08 >>> 16).toUInt8 = subclass ∧
    (cs.at s 0x08 >>> 8).toUInt8 = progIf

/-- The function is from a vendor. -/
def HasId (cs : ConfigSpace) (vendorId deviceId : UInt16) (s : Slot) : Prop :=
  (cs.at s 0x00).toUInt16 = vendorId ∧ (cs.at s 0x00 >>> 16).toUInt16 = deviceId

/-- What the scanners report of a slot. -/
def describe (cs : ConfigSpace) (s : Slot) : PciDevice where
  bus := .ofNat s.1
  device := .ofNat s.2.1
  function := .ofNat s.2.2
  vendorId := (cs.at s 0x00).toUInt16
  deviceId := (cs.at s 0x00 >>> 16).toUInt16
  baseClass := (cs.at s 0x08 >>> 24).toUInt8
  subclass := (cs.at s 0x08 >>> 16).toUInt8
  progIf := (cs.at s 0x08 >>> 8).toUInt8
  bar0 := cs.at s 0x10 &&& 0xFFFFFFF0

/-! ## The loops -/

/-- The scanner stores the description of the functions with a property, and nothing for others. -/
structure Selects (cs : ConfigSpace) (hit : Slot → Prop)
    (result : UInt8 → UInt8 → UInt8 → UInt32 → Option PciDevice) : Prop where
  stores : ∀ s : Slot, s.2.1 < 32 → s.2.2 < 8 → hit s →
    result (.ofNat s.1) (.ofNat s.2.1) (.ofNat s.2.2) (cs.at s 0x00) = some (describe cs s)
  skips : ∀ s : Slot, s.2.1 < 32 → s.2.2 < 8 → ¬ hit s →
    result (.ofNat s.1) (.ofNat s.2.1) (.ofNat s.2.2) (cs.at s 0x00) = none

section Scan

variable {cs : ConfigSpace} {hit : Slot → Prop}
  {result : UInt8 → UInt8 → UInt8 → UInt32 → Option PciDevice}

/-- The body of a scanner at a slot. -/
def turnAt (cs : ConfigSpace) (result : UInt8 → UInt8 → UInt8 → UInt32 → Option PciDevice) (s : Slot) :
    Turn PciDevice :=
  scanTurn (pciReadConfigDword cs) result (.ofNat s.1) (.ofNat s.2.1) (.ofNat s.2.2)

theorem read_slot (cs : ConfigSpace) {s : Slot} (hd : s.2.1 < 32) (hf : s.2.2 < 8) {offset : UInt8}
    (haligned : offset &&& 0xFC = offset) :
    pciReadConfigDword cs (.ofNat s.1) (.ofNat s.2.1) (.ofNat s.2.2) offset = cs.at s offset := by
  rw [pciReadConfigDword_eq cs (.ofNat s.1) offset hd hf, haligned]
  rfl

theorem ofNat_eq_zero {f : Nat} (hf : f < 8) : UInt8.ofNat f = 0 ↔ f = 0 := by
  interval_cases f <;> decide

/-- It returns at a function with the property. -/
theorem turnAt_found (hsel : Selects cs hit result) {s : Slot} (hd : s.2.1 < 32) (hf : s.2.2 < 8)
    (hpresent : Present cs s) (hhit : hit s) : turnAt cs result s = .found (describe cs s) := by
  have hread : pciReadConfigDword cs _ _ _ 0x00 = _ := read_slot cs hd hf rfl
  unfold turnAt scanTurn
  simp only [hread]
  rw [if_neg hpresent, hsel.stores s hd hf hhit]

/-- It goes on from another function, unless it is function 0 and leaves no hope for more. -/
theorem turnAt_next (hsel : Selects cs hit result) {s : Slot} (hd : s.2.1 < 32) (hf : s.2.2 < 8)
    (hnot : ¬ (Present cs s ∧ hit s)) (hmore : s.2.2 = 0 → Present cs s ∧ MultiFunction cs s) :
    turnAt cs result s = .next := by
  have hread : pciReadConfigDword cs _ _ _ 0x00 = _ := read_slot cs hd hf rfl
  have hheader : pciReadConfigDword cs _ _ _ 0x0C = _ := read_slot cs hd hf rfl
  have hzero := ofNat_eq_zero hf
  unfold turnAt scanTurn
  simp only [hread, hheader, hzero]
  by_cases hpresent : Present cs s
  · rw [if_neg hpresent, hsel.skips s hd hf fun hhit => hnot ⟨hpresent, hhit⟩]
    refine if_neg ?_
    rintro ⟨hf0, hsingle⟩
    exact (hmore hf0).2 hsingle
  · rw [if_pos (not_not.1 hpresent)]
    exact if_neg fun hf0 => hpresent (hmore hf0).1

theorem turnAt_leave (hsel : Selects cs hit result) {s : Slot} (hd : s.2.1 < 32) (hf : s.2.2 = 0)
    (hnot : ¬ (Present cs s ∧ hit s)) (hlast : ¬ (Present cs s ∧ MultiFunction cs s)) :
    turnAt cs result s = .leave := by
  have hf' : s.2.2 < 8 := by omega
  have hread : pciReadConfigDword cs _ _ _ 0x00 = _ := read_slot cs hd hf' rfl
  have hheader : pciReadConfigDword cs _ _ _ 0x0C = _ := read_slot cs hd hf' rfl
  have hzero := ofNat_eq_zero hf'
  unfold turnAt scanTurn
  simp only [hread, hheader, hzero]
  by_cases hpresent : Present cs s
  · rw [if_neg hpresent, hsel.skips s hd hf' fun hhit => hnot ⟨hpresent, hhit⟩]
    have hsingle : ¬ MultiFunction cs s := fun hmulti => hlast ⟨hpresent, hmulti⟩
    exact if_pos ⟨hf, not_not.1 hsingle⟩
  · rw [if_pos (not_not.1 hpresent), if_pos hf]

/-- The innermost loop finds the first function of a device that meets the condition. -/
theorem functions_isFirst (hsel : Selects cs hit result) (bus : Nat) {device : Nat} (hd : device < 32) :
    IsFirst (· < ·)
      (fun f => f < 8 ∧ Present cs (bus, device, f) ∧ hit (bus, device, f) ∧
        Present cs (bus, device, 0) ∧ (0 < f → MultiFunction cs (bus, device, 0)))
      (fun f => describe cs (bus, device, f))
      (search (fun f => turnAt cs result (bus, device, f)) 8) := by
  apply search_isFirst
  · rintro f hf ⟨hpresent, hhit, -, -⟩
    exact turnAt_found hsel hd hf hpresent hhit
  · intro f hf hreach hnot
    cases f with
    | zero =>
      have hnot' : ¬ (Present cs (bus, device, 0) ∧ hit (bus, device, 0)) := by
        rintro ⟨hpresent, hhit⟩
        exact hnot ⟨hpresent, hhit, hpresent, fun h => absurd h (lt_irrefl 0)⟩
      by_cases hmore : Present cs (bus, device, 0) ∧ MultiFunction cs (bus, device, 0)
      · exact .inl (turnAt_next hsel hd hf hnot' fun _ => hmore)
      · refine .inr ⟨turnAt_leave hsel hd rfl hnot' hmore, ?_⟩
        rintro g hg - ⟨-, -, hpresent, hmulti⟩
        exact hmore ⟨hpresent, hmulti hg⟩
    | succ f =>
      -- the loop is here because function 0 let it go on
      have hzero := hreach 0 (Nat.succ_pos f)
      have hmore : Present cs (bus, device, 0) ∧ MultiFunction cs (bus, device, 0) := by
        by_contra hmore
        by_cases hfound : Present cs (bus, device, 0) ∧ hit (bus, device, 0)
        · rw [turnAt_found hsel hd (show 0 < 8 by decide) hfound.1 hfound.2] at hzero
          cases hzero
        · rw [turnAt_leave hsel hd rfl hfound hmore] at hzero
          cases hzero
      refine .inl (turnAt_next hsel hd hf ?_ fun h => absurd h (Nat.succ_ne_zero f))
      rintro ⟨hpresent, hhit⟩
      exact hnot ⟨hpresent, hhit, hmore.1, fun _ => hmore.2⟩

/-- A scanner finds the first candidate. -/
theorem pciScan_isFirst (hsel : Selects cs hit result) :
    IsFirst Before (Candidate cs hit) (describe cs) (pciScan (scanTurn (pciReadConfigDword cs) result)) := by
  have hscan := nested_isFirst (n := 2) fun bus _ =>
    nested_isFirst (n := 32) fun _ hd => functions_isFirst hsel bus hd
  have hiff : Candidate cs hit = fun s : Slot => s.1 < 2 ∧ s.2.1 < 32 ∧ s.2.2 < 8 ∧ Present cs s ∧ hit s ∧
      Present cs s.functionZero ∧ (0 < s.2.2 → MultiFunction cs s.functionZero) := by
    funext s
    apply propext
    constructor
    · rintro ⟨hb, hd, hf, hpresent, hhit, hzero, hmulti⟩
      exact ⟨hb, hd, hf, hpresent, hhit, hzero, hmulti⟩
    · rintro ⟨hb, hd, hf, hpresent, hhit, hzero, hmulti⟩
      exact ⟨hb, hd, hf, hpresent, hhit, hzero, hmulti⟩
  rw [hiff]
  exact hscan

end Scan

/-! ## The three scanners -/

/-- The mask of `audio.c` has 64 bits. -/
theorem toUInt32_and_bar (x : UInt32) : (x.toUInt64 &&& ~~~0x0F).toUInt32 = x &&& 0xFFFFFFF0 := by
  rw [UInt64.toUInt32_and, UInt32.toUInt32_toUInt64]
  rfl

/-- `pci_find_class` returns the first candidate of the class. -/
theorem pciFindClass_isFirst (cs : ConfigSpace) (classCode subclass progIf : UInt8) :
    IsFirst Before (Candidate cs (HasClass cs classCode subclass progIf)) (describe cs)
      (pciFindClass cs classCode subclass progIf) := by
  apply pciScan_isFirst
  constructor
  · intro s hd hf hhit
    have hclass : pciReadConfigDword cs _ _ _ 0x08 = _ := read_slot cs hd hf rfl
    have hbar : pciReadConfigDword cs _ _ _ 0x10 = _ := read_slot cs hd hf rfl
    simp only [hclass, hbar, toUInt32_and_bar]
    exact if_pos hhit
  · intro s hd hf hmiss
    have hclass : pciReadConfigDword cs _ _ _ 0x08 = _ := read_slot cs hd hf rfl
    simp only [hclass]
    exact if_neg hmiss

/-- `pci_find_device` returns the first candidate of the vendor. -/
theorem pciFindDevice_isFirst (cs : ConfigSpace) (vendorId deviceId : UInt16) :
    IsFirst Before (Candidate cs (HasId cs vendorId deviceId)) (describe cs)
      (pciFindDevice cs vendorId deviceId) := by
  apply pciScan_isFirst
  constructor
  · intro s hd hf hhit
    have hclass : pciReadConfigDword cs _ _ _ 0x08 = _ := read_slot cs hd hf rfl
    have hbar : pciReadConfigDword cs _ _ _ 0x10 = _ := read_slot cs hd hf rfl
    simp only [hclass, hbar, toUInt32_and_bar]
    exact if_pos hhit
  · intro s hd hf hmiss
    exact if_neg hmiss

/-- `pci_find_xhci_controller` is `pci_find_class` for one class. -/
theorem pciFindXhciController_eq (cs : ConfigSpace) :
    pciFindXhciController cs = pciFindClass cs 0x0C 0x03 0x30 := by
  unfold pciFindXhciController pciFindClass pciConfigBar0 xhciPciClassSerialBus xhciPciSubclassUsb
    xhciPciProgifXhci
  simp only [pciConfigRead_eq, toUInt32_and_bar]
  rfl

/-- In every configuration space the two scanners for a class agree on the controller, and each
returns the first candidate of its class in the order of buses, devices and functions, or nothing if
there is none. -/
theorem pci_find_first (cs : ConfigSpace) :
    pciFindXhciController cs = pciFindClass cs 0x0C 0x03 0x30 ∧
    IsFirst Before (Candidate cs (HasClass cs 0x0C 0x03 0x30)) (describe cs) (pciFindXhciController cs) ∧
    ∀ classCode subclass progIf,
      IsFirst Before (Candidate cs (HasClass cs classCode subclass progIf)) (describe cs)
        (pciFindClass cs classCode subclass progIf) := by
  refine ⟨pciFindXhciController_eq cs, ?_, pciFindClass_isFirst cs⟩
  rw [pciFindXhciController_eq]
  exact pciFindClass_isFirst cs 0x0C 0x03 0x30

end CosKernel.Pci
