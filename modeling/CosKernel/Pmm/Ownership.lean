import CosKernel.Pmm.Boot

/-!
# Exclusive ownership of frames

Callers that free only what they hold. The addresses returned and not freed
since are kept in a ghost list; together with the free frames they always make
up the frames that were free after boot.
-/

namespace CosKernel.Pmm

/-! ## Callers -/

/-- The manager together with the addresses its callers hold. -/
structure Owned where
  pmm : PmmT
  held : List UInt64

inductive CallerCall where
  | allocate
  | free (paddr : UInt64)
deriving DecidableEq, Repr

/-- One call; a caller frees no address that it does not hold. -/
def callerStep (s : Owned) : CallerCall → Option Owned
  | .allocate =>
    let r := pmmAllocateFrame s.pmm
    some ⟨r.2, if r.1 = 0 then s.held else s.held ++ [r.1]⟩
  | .free paddr =>
    if paddr ∈ s.held then some ⟨pmmFreeFrame paddr s.pmm, s.held.erase paddr⟩ else none

/-! ## Addresses of frames -/

/-- The address of a frame. -/
def frameAddr (f : Nat) : UInt64 := UInt64.ofNat f * frameSize

theorem frameAddr_toNat {f : Nat} (hf : f < 2 ^ 52) : (frameAddr f).toNat = f * 4096 := by
  have hof : (UInt64.ofNat f).toNat = f := by
    rw [UInt64.toNat_ofNat']
    exact Nat.mod_eq_of_lt (by omega)
  have hsize : frameSize.toNat = 4096 := rfl
  unfold frameAddr
  rw [UInt64.toNat_mul, hof, hsize]
  exact Nat.mod_eq_of_lt (by omega)

theorem frameOf_frameAddr {f : Nat} (hf : f < 2 ^ 52) : frameOf (frameAddr f) = f := by
  have hsize : frameSize.toNat = 4096 := rfl
  unfold frameOf
  rw [UInt64.toNat_div, frameAddr_toNat hf, hsize]
  exact Nat.mul_div_cancel _ (by norm_num)

theorem frameAddr_ne_zero {f : Nat} (hf : f < 2 ^ 52) (hpos : 0 < f) : frameAddr f ≠ 0 := by
  intro hzero
  have htoNat := frameAddr_toNat hf
  rw [hzero] at htoNat
  have hz : (0 : UInt64).toNat = 0 := rfl
  omega

/-! ## The invariant -/

/-- A frame that can have been handed out: it exists, is not among the first 512, and is not free. -/
def Out (s : PmmT) (f : Nat) : Prop :=
  512 ≤ f ∧ f < s.totalFrames ∧ Bitmap.test s.bitmap f = false

structure OwnInv (b : PmmT) (s : Owned) : Prop where
  accounting : Accounting s.pmm
  low : ∀ f, Bitmap.test s.pmm.bitmap f = true → 512 ≤ f
  nodup : s.held.Nodup
  out : ∀ p ∈ s.held, ∃ f, p = frameAddr f ∧ Out s.pmm f
  total : s.pmm.totalFrames = b.totalFrames
  conserved : s.pmm.freeFrames.toNat + s.held.length = b.freeFrames.toNat

theorem boot_ownInv (totalMemory : UInt64) (ranges : List (UInt64 × UInt64)) :
    OwnInv (boot totalMemory ranges) ⟨boot totalMemory ranges, []⟩ := by
  refine ⟨boot_accounting _ _, ?_, List.nodup_nil, by simp, rfl, rfl⟩
  intro f hf
  exact ((boot_test totalMemory ranges f).1 hf).1

/-- Frame numbers are small. -/
theorem Accounting.frame_lt {s : PmmT} (h : Accounting s) {f : Nat} (hf : f < s.totalFrames) :
    f < 2 ^ 52 := by
  have hbound := h.bound
  unfold bitmapStorageWords at hbound
  omega

/-- A free frame exists. -/
theorem Accounting.lt_of_test {s : PmmT} (h : Accounting s) {f : Nat}
    (hf : Bitmap.test s.bitmap f = true) : f < s.totalFrames := by
  by_contra hge
  rw [h.tail f (not_lt.1 hge)] at hf
  cases hf

/-- What `pmm_allocate_frame` does in a state of such a run. -/
theorem OwnInv.allocate_cases {b : PmmT} {s : Owned} (h : OwnInv b s) :
    (∃ f, 512 ≤ f ∧ f < s.pmm.totalFrames ∧ Bitmap.test s.pmm.bitmap f = true ∧
      (∀ g < f, Bitmap.test s.pmm.bitmap g = false) ∧
      pmmAllocateFrame s.pmm = (frameAddr f, s.pmm.markUsed f)) ∨
    ((∀ f, Bitmap.test s.pmm.bitmap f = false) ∧ pmmAllocateFrame s.pmm = (0, s.pmm)) := by
  rcases pmmAllocateFrame_cases s.pmm with ⟨f, -, hset, hlow, halloc⟩ | ⟨hnone, halloc⟩
  · left
    exact ⟨f, h.low f hset, h.accounting.lt_of_test hset, hset, hlow, halloc⟩
  · right
    refine ⟨?_, halloc⟩
    intro f
    by_cases hf : f < s.pmm.words * 64
    · exact hnone f hf
    · have hle := totalFrames_le_words s.pmm
      exact h.accounting.tail f (by omega)

/-- A frame that is free is held by nobody. -/
theorem OwnInv.not_held {b : PmmT} {s : Owned} (h : OwnInv b s) {f : Nat}
    (hset : Bitmap.test s.pmm.bitmap f = true) : frameAddr f ∉ s.held := by
  intro hmem
  rcases h.out _ hmem with ⟨g, hfg, -, hg, hclear⟩
  have hf := h.accounting.frame_lt (h.accounting.lt_of_test hset)
  have hg' := h.accounting.frame_lt hg
  have heq : f = g := by
    rw [← frameOf_frameAddr hf, ← frameOf_frameAddr hg', hfg]
  rw [heq, hclear] at hset
  cases hset

theorem OwnInv.allocate {b : PmmT} {s : Owned} (h : OwnInv b s) {f : Nat} (hf : 512 ≤ f)
    (hset : Bitmap.test s.pmm.bitmap f = true) :
    OwnInv b ⟨s.pmm.markUsed f, s.held ++ [frameAddr f]⟩ := by
  have hacc := h.accounting.markUsed hset
  have hlt := h.accounting.lt_of_test hset
  refine ⟨hacc, ?_, ?_, ?_, h.total, ?_⟩
  · intro g hg
    rw [markUsed_test, Bool.and_eq_true] at hg
    exact h.low g hg.2
  · rw [List.nodup_append]
    refine ⟨h.nodup, List.nodup_singleton _, ?_⟩
    intro p hp q hq hpq
    rw [List.mem_singleton.1 hq] at hpq
    exact h.not_held hset (hpq ▸ hp)
  · intro p hp
    rcases List.mem_append.1 hp with hp | hp
    · rcases h.out p hp with ⟨g, rfl, hg, hgt, hclear⟩
      refine ⟨g, rfl, hg, hgt, ?_⟩
      rw [markUsed_test, hclear, Bool.and_false]
    · refine ⟨f, List.mem_singleton.1 hp, hf, hlt, ?_⟩
      rw [markUsed_test]
      simp
  · -- one frame moves from the free ones to the held ones
    have hcount := Bitmap.count_clear (by norm_num) s.pmm.bitmap
      (lt_of_lt_of_le hlt (totalFrames_le_words s.pmm)) hset
    have hnew : (s.pmm.markUsed f).freeFrames.toNat =
        Bitmap.count (Bitmap.clear s.pmm.bitmap f) (s.pmm.words * 64) := hacc.counter
    have hold := h.accounting.counter
    have hcons := h.conserved
    show (s.pmm.markUsed f).freeFrames.toNat + (s.held ++ [frameAddr f]).length = b.freeFrames.toNat
    rw [List.length_append, List.length_singleton]
    omega

theorem OwnInv.free {b : PmmT} {s : Owned} (h : OwnInv b s) {p : UInt64} (hp : p ∈ s.held) :
    OwnInv b ⟨pmmFreeFrame p s.pmm, s.held.erase p⟩ := by
  rcases h.out p hp with ⟨f, rfl, hlow, hlt, hclear⟩
  have hframe := frameOf_frameAddr (h.accounting.frame_lt hlt)
  have hfree : pmmFreeFrame (frameAddr f) s.pmm = s.pmm.markFree f := by
    unfold pmmFreeFrame
    rw [hframe, if_neg (not_le.2 (word_lt hlt))]
  have hacc := h.accounting.markFree hlt hclear
  rw [hfree]
  refine ⟨hacc, ?_, h.nodup.erase _, ?_, h.total, ?_⟩
  · intro g hg
    rw [markFree_test, Bool.or_eq_true, decide_eq_true_eq] at hg
    rcases hg with rfl | hg
    · exact hlow
    · exact h.low g hg
  · intro q hq
    rw [h.nodup.mem_erase_iff] at hq
    rcases h.out q hq.2 with ⟨g, rfl, hg, hgt, hgclear⟩
    -- an address that is still held is that of another frame
    have hne : g ≠ f := by
      rintro rfl
      exact hq.1 rfl
    refine ⟨g, rfl, hg, hgt, ?_⟩
    rw [markFree_test, hgclear]
    simp [hne]
  · have hcount := Bitmap.count_set (by norm_num) s.pmm.bitmap
      (lt_of_lt_of_le hlt (totalFrames_le_words s.pmm)) hclear
    have hnew : (s.pmm.markFree f).freeFrames.toNat =
        Bitmap.count (Bitmap.set s.pmm.bitmap f) (s.pmm.words * 64) := hacc.counter
    have hold := h.accounting.counter
    have hcons := h.conserved
    have hlen := List.length_erase_of_mem hp
    have hpos := List.length_pos_of_mem hp
    show (s.pmm.markFree f).freeFrames.toNat + (s.held.erase (frameAddr f)).length =
      b.freeFrames.toNat
    omega

/-- One call keeps the invariant. -/
theorem callerStep_inv {b : PmmT} (s : Owned) (c : CallerCall) (s' : Owned) (h : OwnInv b s)
    (hstep : callerStep s c = some s') : OwnInv b s' := by
  cases c with
  | allocate =>
    simp only [callerStep, Option.some.injEq] at hstep
    subst hstep
    rcases h.allocate_cases with ⟨f, hlow, hlt, hset, -, halloc⟩ | ⟨-, halloc⟩
    · have hne := frameAddr_ne_zero (h.accounting.frame_lt hlt) (by omega)
      rw [halloc]
      simp only [if_neg hne]
      exact h.allocate hlow hset
    · rw [halloc]
      exact h
  | free paddr =>
    simp only [callerStep] at hstep
    by_cases hmem : paddr ∈ s.held
    · rw [if_pos hmem, Option.some.injEq] at hstep
      subst hstep
      exact h.free hmem
    · rw [if_neg hmem] at hstep
      cases hstep

/-! ## What callers rely on -/

/-- The address `pmm_allocate_frame` returns next is a good one. -/
structure Granted (s : Owned) (p : UInt64) : Prop where
  aligned : p.toNat % 4096 = 0
  above : 0x200000 ≤ p.toNat
  below : p.toNat < s.pmm.totalFrames * 4096
  free : Bitmap.test s.pmm.bitmap (frameOf p) = true
  lowest : ∀ f < frameOf p, Bitmap.test s.pmm.bitmap f = false
  fresh : p ∉ s.held

/-- Frames are owned exclusively in this state of a run that booted with `b`. -/
structure Exclusive (b : PmmT) (s : Owned) : Prop where
  granted : (pmmAllocateFrame s.pmm).1 ≠ 0 → Granted s (pmmAllocateFrame s.pmm).1
  exhausted : (pmmAllocateFrame s.pmm).1 = 0 ↔ ∀ f, Bitmap.test s.pmm.bitmap f = false
  nodup : s.held.Nodup
  conserved : s.pmm.freeFrames.toNat + s.held.length = b.freeFrames.toNat
  restored : (pmmAllocateFrame s.pmm).1 ≠ 0 →
    pmmFreeFrame (pmmAllocateFrame s.pmm).1 (pmmAllocateFrame s.pmm).2 = s.pmm

theorem OwnInv.granted {b : PmmT} {s : Owned} (h : OwnInv b s) {f : Nat} (hlow : 512 ≤ f)
    (hset : Bitmap.test s.pmm.bitmap f = true) (hlowest : ∀ g < f, Bitmap.test s.pmm.bitmap g = false) :
    Granted s (frameAddr f) := by
  have hlt := h.accounting.lt_of_test hset
  have hf := h.accounting.frame_lt hlt
  have hnat := frameAddr_toNat hf
  have hof := frameOf_frameAddr hf
  refine ⟨?_, ?_, ?_, ?_, ?_, h.not_held hset⟩
  · rw [hnat]
    exact Nat.mul_mod_left f 4096
  · rw [hnat]
    omega
  · rw [hnat]
    exact Nat.mul_lt_mul_of_pos_right hlt (by norm_num)
  · rw [hof]
    exact hset
  · rw [hof]
    exact hlowest

/-- Giving back the frame just taken restores bitmap and counter. -/
theorem OwnInv.restored {b : PmmT} {s : Owned} (h : OwnInv b s) {f : Nat}
    (hset : Bitmap.test s.pmm.bitmap f = true) :
    pmmFreeFrame (frameAddr f) (s.pmm.markUsed f) = s.pmm := by
  have hlt := h.accounting.lt_of_test hset
  unfold pmmFreeFrame
  rw [frameOf_frameAddr (h.accounting.frame_lt hlt), markUsed_words, if_neg (not_le.2 (word_lt hlt))]
  unfold PmmT.markFree PmmT.markUsed
  simp only [Bitmap.set_clear (by norm_num) s.pmm.bitmap hset, UInt64.sub_add_cancel]

/-- After boot with any memory map, along every run of callers that free only what they hold. -/
theorem exclusive_ownership (totalMemory : UInt64) (ranges : List (UInt64 × UInt64))
    (calls : List CallerCall) (s : Owned)
    (hrun : Run.exec callerStep ⟨boot totalMemory ranges, []⟩ calls = some s) :
    Exclusive (boot totalMemory ranges) s := by
  have h := Run.exec_preserves (OwnInv (boot totalMemory ranges)) callerStep_inv
    (boot_ownInv totalMemory ranges) hrun
  rcases h.allocate_cases with ⟨f, hlow, hlt, hset, hlowest, halloc⟩ | ⟨hnone, halloc⟩
  · have hne := frameAddr_ne_zero (h.accounting.frame_lt hlt) (by omega)
    refine ⟨?_, ?_, h.nodup, h.conserved, ?_⟩
    · rw [halloc]
      exact fun _ => h.granted hlow hset hlowest
    · rw [halloc]
      constructor
      · intro hzero
        exact absurd hzero hne
      · intro hnone
        rw [hnone f] at hset
        cases hset
    · rw [halloc]
      exact fun _ => h.restored hset
  · have hzero : (pmmAllocateFrame s.pmm).1 = 0 := by rw [halloc]
    refine ⟨?_, ?_, h.nodup, h.conserved, ?_⟩
    · exact fun hne => absurd hzero hne
    · exact ⟨fun _ => hnone, fun _ => hzero⟩
    · exact fun hne => absurd hzero hne

/-- A machine with 513 pages: the page above 2 MB is handed out and given back. -/
theorem exclusive_ownership_513 : ∃ s,
    Run.exec callerStep ⟨boot 0x201000 [(0, 0x201000)], []⟩ [.allocate, .free 0x200000] = some s ∧
      Exclusive (boot 0x201000 [(0, 0x201000)]) s := by
  have htotal : (boot 0x201000 [(0, 0x201000)]).totalFrames = 513 := by
    rw [boot_totalFrames]
    decide
  have halloc : (pmmAllocateFrame (boot 0x201000 [(0, 0x201000)])).1 = 0x200000 := by
    rcases (boot_ownInv 0x201000 [(0, 0x201000)]).allocate_cases with
      ⟨f, hlow, hlt, -, -, halloc⟩ | ⟨hnone, -⟩
    · have hf : f = 512 := by
        have hlt' : f < (boot 0x201000 [(0, 0x201000)]).totalFrames := hlt
        omega
      rw [halloc, hf]
      decide
    · have hfree : Bitmap.test (boot 0x201000 [(0, 0x201000)]).bitmap 512 = true := by
        rw [boot_test, ← boot_totalFrames 0x201000 [(0, 0x201000)], htotal]
        exact ⟨le_rfl, by norm_num, (0, 0x201000), List.mem_singleton.2 rfl, by decide⟩
      rw [hnone 512] at hfree
      cases hfree
  have hrun : Run.exec callerStep ⟨boot 0x201000 [(0, 0x201000)], []⟩ [.allocate, .free 0x200000] =
      some ⟨pmmFreeFrame 0x200000 (pmmAllocateFrame (boot 0x201000 [(0, 0x201000)])).2, []⟩ := by
    simp [Run.exec, callerStep, halloc]
  exact ⟨_, hrun, exclusive_ownership _ _ _ _ hrun⟩

end CosKernel.Pmm
