import CosKernel.Vmm.Model

/-!
# The table of mappings as a map

The abstract map gives each virtual address the physical address of its latest
`vmm_map_page`. The table keeps every entry ever made and not removed, looks up
the first one for an address and removes the first one: the entries for an
address are a queue where the map has a single value. The two agree as long as
that queue never holds a second entry that could be seen.
-/

namespace CosKernel.Vmm

open ArrayTable Run
open Paging (Word)

/-! ## The entries for an address -/

/-- The physical addresses of the entries for `vaddr`, in the order of the table. -/
def VmmT.paddrs (s : VmmT) (vaddr : Word) : List Word :=
  ((entries s.vmmMappings s.vmmMappingCount).filter (·.vaddr = vaddr)).map (·.paddr)

theorem findMapping_eq (vaddr : Word) (s : VmmT) :
    findMapping vaddr s =
      (entries s.vmmMappings s.vmmMappingCount).findIdx? (·.vaddr = vaddr) :=
  findFrom_zero _ _ _

/-- An entry that the search finds is in the table. -/
theorem lt_of_findMapping {vaddr : Word} {s : VmmT} {i : Nat}
    (h : findMapping vaddr s = some i) : i < s.vmmMappingCount := by
  rw [findMapping_eq] at h
  have hlt := (List.findIdx?_eq_some_iff_getElem.mp h).1
  rwa [length_entries] at hlt

/-- `vmm_translate` gives the first entry for the address. -/
theorem vmmTranslate_eq (vaddr : Word) (s : VmmT) :
    vmmTranslate vaddr s = (s.paddrs vaddr).headD 0 := by
  have hhead : (s.paddrs vaddr).head? =
      ((entries s.vmmMappings s.vmmMappingCount).find? (·.vaddr = vaddr)).map (·.paddr) := by
    unfold VmmT.paddrs
    rw [List.head?_map, List.head?_filter]
  rw [List.headD_eq_head?_getD, hhead, List.find?_eq_bind_findIdx?_getElem?, ← findMapping_eq]
  unfold vmmTranslate
  cases hfind : findMapping vaddr s with
  | none => rfl
  | some i =>
    show _ = (((entries s.vmmMappings s.vmmMappingCount)[i]?).map (·.paddr)).getD 0
    rw [getElem?_entries _ (lt_of_findMapping hfind)]
    rfl

theorem paddrs_mapPage (vaddr paddr flags : Word) (s : VmmT)
    (hroom : s.vmmMappingCount < vmmMaxMappings) (w : Word) :
    (vmmMapPage vaddr paddr flags s).paddrs w =
      if w = vaddr then s.paddrs w ++ [paddr] else s.paddrs w := by
  unfold vmmMapPage VmmT.paddrs
  rw [if_neg (by omega), entries_push, List.filter_append, List.map_append]
  by_cases hw : w = vaddr
  · subst hw
    simp
  · have hne : vaddr ≠ w := fun h => hw h.symm
    simp [hw, hne]

/-- Removing the first entry for an address leaves the others for it, and all
entries for other addresses. -/
theorem filter_eraseP (l : List VmmMappingT) (vaddr w : Word) :
    (l.eraseP (·.vaddr = vaddr)).filter (·.vaddr = w) =
      if w = vaddr then (l.filter (·.vaddr = w)).tail else l.filter (·.vaddr = w) := by
  induction l with
  | nil => simp
  | cons m l ih =>
    by_cases hm : m.vaddr = vaddr
    · rw [List.eraseP_cons_of_pos (by simpa using hm)]
      by_cases hw : w = vaddr
      · simp [hm, hw]
      · have hne : vaddr ≠ w := fun h => hw h.symm
        simp [hm, hw, hne]
    · rw [List.eraseP_cons_of_neg (by simpa using hm)]
      by_cases hw : w = vaddr
      · rw [if_pos hw] at ih ⊢
        have hmw : m.vaddr ≠ w := by
          rw [hw]
          exact hm
        rw [List.filter_cons_of_neg (by simpa using hmw), List.filter_cons_of_neg (by simpa using hmw)]
        exact ih
      · rw [if_neg hw] at ih ⊢
        rw [List.filter_cons, List.filter_cons, ih]

theorem paddrs_unmapPage (vaddr : Word) (s : VmmT) (w : Word) :
    (vmmUnmapPage vaddr s).paddrs w = if w = vaddr then (s.paddrs w).tail else s.paddrs w := by
  have hentries : entries (vmmUnmapPage vaddr s).vmmMappings (vmmUnmapPage vaddr s).vmmMappingCount =
      (entries s.vmmMappings s.vmmMappingCount).eraseP (·.vaddr = vaddr) := by
    rw [List.eraseP_eq_eraseIdx, ← findMapping_eq]
    unfold vmmUnmapPage
    cases hfind : findMapping vaddr s with
    | none => rfl
    | some i => exact entries_shiftFrom _ (lt_of_findMapping hfind)
  unfold VmmT.paddrs
  rw [hentries, filter_eraseP]
  by_cases hw : w = vaddr
  · rw [if_pos hw, if_pos hw, List.map_tail]
  · rw [if_neg hw, if_neg hw]

/-! ## The abstract map -/

/-- The physical address of the latest `vmm_map_page` of each address that was
not unmapped since. -/
abbrev PageMap := Word → Option Word

def PageMap.perform (m : PageMap) : Call → PageMap
  | .mapPage vaddr paddr _ => Function.update m vaddr (some paddr)
  | .unmapPage vaddr => Function.update m vaddr none

/-- The table and, beside it, the map it should be. -/
structure History where
  vmm : VmmT
  map : PageMap

def step (h : History) (c : Call) : History := ⟨perform h.vmm c, h.map.perform c⟩

def start : History := ⟨vmmState, fun _ => none⟩

/-- `vmm_translate` gives what the map gives, and 0 where it gives nothing. -/
def Translates (h : History) : Prop :=
  ∀ vaddr, vmmTranslate vaddr h.vmm = (h.map vaddr).getD 0

/-- A call leaves the translation of all other addresses alone. -/
def KeepsOthers (h : History) (c : Call) : Prop :=
  ∀ vaddr, vaddr ≠ c.vaddr → vmmTranslate vaddr (step h c).vmm = vmmTranslate vaddr h.vmm

/-- The call does not find the table full. -/
def Room (h : History) : Call → Prop
  | .mapPage _ _ _ => h.vmm.vmmMappingCount < vmmMaxMappings
  | .unmapPage _ => True

/-- The condition on a call. `vmm_map_page`: the first entry for the address, if
there is one, already has this physical address. `vmm_unmap_page`: the second
entry for the address, if there is one, has the physical address 0. -/
def Single (h : History) : Call → Prop
  | .mapPage vaddr paddr _ => ∀ p ∈ (h.vmm.paddrs vaddr).head?, p = paddr
  | .unmapPage vaddr => ∀ p ∈ (h.vmm.paddrs vaddr).tail.head?, p = 0

instance (h : History) : ∀ c, Decidable (Room h c)
  | .mapPage _ _ _ => inferInstanceAs (Decidable (_ < _))
  | .unmapPage _ => .isTrue trivial

instance (h : History) : ∀ c, Decidable (Single h c)
  | .mapPage vaddr paddr _ =>
    decidable_of_iff ((h.vmm.paddrs vaddr).head?.all (· = paddr) = true) (by simp [Single, Option.all_eq_true])
  | .unmapPage vaddr =>
    decidable_of_iff ((h.vmm.paddrs vaddr).tail.head?.all (· = 0) = true) (by simp [Single, Option.all_eq_true])

theorem translates_start : Translates start := by
  intro vaddr
  rfl

/-- The map changes at the address of the call only. -/
theorem map_step_ne (h : History) (c : Call) {vaddr : Word} (hne : vaddr ≠ c.vaddr) :
    (step h c).map vaddr = h.map vaddr := by
  cases c with
  | mapPage v p f => exact Function.update_of_ne hne _ _
  | unmapPage v => exact Function.update_of_ne hne _ _

theorem keepsOthers (h : History) (c : Call) : KeepsOthers h c := by
  intro vaddr hne
  rw [vmmTranslate_eq, vmmTranslate_eq]
  congr 1
  cases c with
  | mapPage v p f =>
    by_cases hroom : h.vmm.vmmMappingCount < vmmMaxMappings
    · exact (paddrs_mapPage v p f h.vmm hroom vaddr).trans (if_neg hne)
    · show (vmmMapPage v p f h.vmm).paddrs vaddr = _
      unfold vmmMapPage
      rw [if_pos (by omega)]
  | unmapPage v => exact (paddrs_unmapPage v h.vmm vaddr).trans (if_neg hne)

/-- After a call, the table gives the right translation of the address of the
call exactly when the call meets the condition. -/
theorem translate_vaddr_iff (h : History) (c : Call) (hroom : Room h c) :
    vmmTranslate c.vaddr (step h c).vmm = ((step h c).map c.vaddr).getD 0 ↔ Single h c := by
  rw [vmmTranslate_eq]
  cases c with
  | mapPage v p f =>
    have hpaddrs : (step h (.mapPage v p f)).vmm.paddrs v = h.vmm.paddrs v ++ [p] :=
      (paddrs_mapPage v p f h.vmm hroom v).trans (if_pos rfl)
    have hmap : (step h (.mapPage v p f)).map v = some p := Function.update_self _ _ _
    show (VmmT.paddrs _ v).headD 0 = (History.map _ v).getD 0 ↔ ∀ q ∈ (h.vmm.paddrs v).head?, q = p
    rw [hpaddrs, hmap]
    cases h.vmm.paddrs v with
    | nil => simp
    | cons q qs => simp
  | unmapPage v =>
    have hpaddrs : (step h (.unmapPage v)).vmm.paddrs v = (h.vmm.paddrs v).tail :=
      (paddrs_unmapPage v h.vmm v).trans (if_pos rfl)
    have hmap : (step h (.unmapPage v)).map v = none := Function.update_self _ _ _
    show (VmmT.paddrs _ v).headD 0 = (History.map _ v).getD 0 ↔
      ∀ q ∈ (h.vmm.paddrs v).tail.head?, q = 0
    rw [hpaddrs, hmap]
    cases (h.vmm.paddrs v).tail with
    | nil => simp
    | cons q qs => simp

theorem translates_step_iff (h : History) (c : Call) (htrans : Translates h) (hroom : Room h c) :
    Translates (step h c) ↔ Single h c := by
  rw [← translate_vaddr_iff h c hroom]
  constructor
  · intro hnext
    exact hnext c.vaddr
  · intro hnext vaddr
    by_cases hv : vaddr = c.vaddr
    · rw [hv]
      exact hnext
    · rw [keepsOthers h c vaddr hv, map_step_ne h c hv]
      exact htrans vaddr

theorem each_keepsOthers (h : History) (calls : List Call) : Each step KeepsOthers h calls := by
  induction calls generalizing h with
  | nil => trivial
  | cons c calls ih => exact ⟨keepsOthers h c, ih (step h c)⟩

/-- In every history that never finds the table full, `vmm_translate` always
gives the latest mapping of each address, and a call leaves the other addresses
alone, exactly when no call makes or uncovers a second entry that differs. -/
theorem vmm_finite_map_iff (calls : List Call) (hroom : Each step Room start calls) :
    Always step Translates start calls ∧ Each step KeepsOthers start calls ↔
      Each step Single start calls := by
  have hiff := always_iff_each translates_step_iff translates_start hroom
  constructor
  · intro h
    exact hiff.mp h.1
  · intro h
    exact ⟨hiff.mpr h, each_keepsOthers start calls⟩

/-- Two addresses mapped, one of them unmapped. -/
theorem vmm_finite_map_two_pages :
    Always step Translates start
        [.mapPage 0x1000 0x5000 3, .mapPage 0x2000 0x6000 3, .unmapPage 0x1000] ∧
      Each step KeepsOthers start
        [.mapPage 0x1000 0x5000 3, .mapPage 0x2000 0x6000 3, .unmapPage 0x1000] := by
  apply (vmm_finite_map_iff _ _).mpr
  · decide +kernel
  · decide +kernel

/-- An address mapped a second time keeps its first translation. -/
theorem vmm_remap_keeps_first_page :
    ¬(Always step Translates start [.mapPage 0x1000 0x5000 3, .mapPage 0x1000 0x6000 3] ∧
      Each step KeepsOthers start [.mapPage 0x1000 0x5000 3, .mapPage 0x1000 0x6000 3]) := by
  intro h
  have htrans := h.1.last 0x1000
  revert htrans
  decide

end CosKernel.Vmm
