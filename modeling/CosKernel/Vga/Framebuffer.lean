import Mathlib

/-!
# The back buffer (`vga.c`)

The functions that draw on a linear framebuffer draw on `backbuffer`, whose size
is fixed, by the width and the height of the mode. A pixel is checked against
these two, not against the buffer, and its index is computed with 32 bits; so
what keeps the drawing inside is how many pixels the mode has.
-/

namespace CosKernel.Vga

/-- The number of elements of `backbuffer`. -/
def backbufferSize : Nat := 1024 * 768

/-- The fields of `fb` that drawing uses. -/
structure Framebuffer where
  width : UInt32
  height : UInt32
deriving DecidableEq, Repr

/-- `vga_initialize_framebuffer` -/
def vgaInitializeFramebuffer (width height : UInt32) : Framebuffer := ⟨width, height⟩

/-- An assignment to an element of `backbuffer`. -/
structure Store where
  index : Int
  rgb : UInt32
deriving DecidableEq, Repr

/-- The assignment is to an element that exists. -/
def Store.InBuffer (s : Store) : Prop := 0 ≤ s.index ∧ s.index < backbufferSize

/-- The check of `fb_draw_pixel`. -/
def Accepts (fb : Framebuffer) (x y : Int32) : Prop :=
  ¬ (x < 0 ∨ x ≥ fb.width.toInt32 ∨ y < 0 ∨ y ≥ fb.height.toInt32)

instance (fb : Framebuffer) (x y : Int32) : Decidable (Accepts fb x y) :=
  inferInstanceAs (Decidable (¬ _))

/-- `int index = y * fb.width + x`, an unsigned number until it is assigned. -/
def pixelIndex (fb : Framebuffer) (x y : Int32) : Int32 :=
  (y.toUInt32 * fb.width + x.toUInt32).toInt32

/-- `fb_draw_pixel`: the assignments it makes. -/
def fbDrawPixel (fb : Framebuffer) (x y : Int32) (rgb : UInt32) : List Store :=
  if Accepts fb x y then [⟨(pixelIndex fb x y).toInt, rgb⟩] else []

/-- `fb_clear` -/
def fbClear (fb : Framebuffer) (rgb : UInt32) : List Store :=
  (List.range (fb.width * fb.height).toNat).map fun i : Nat => ⟨(i : Int), rgb⟩

/-- `for (int i = start; goes(i); i++)`, for at most `turns` turns: the assignments made so far. A
loop up to the greatest `int` has no end. -/
def forInt (goes : Int32 → Bool) (body : Int32 → List Store) : Nat → Int32 → List Store
  | 0, _ => []
  | turns + 1, i => if goes i then body i ++ forInt goes body turns (i + 1) else []

/-- `fb_draw_rectangle` -/
def fbDrawRectangle (turns : Nat) (fb : Framebuffer) (x y w h : Int32) (rgb : UInt32) : List Store :=
  forInt (fun py => py < y + h)
    (fun py => forInt (fun px => px < x + w) (fun px => fbDrawPixel fb px py rgb) turns x) turns y

/-- `fb_draw_circle` -/
def fbDrawCircle (turns : Nat) (fb : Framebuffer) (cx cy r : Int32) (rgb : UInt32) : List Store :=
  forInt (fun y => y ≤ r)
    (fun y =>
      forInt (fun x => x ≤ r)
        (fun x => if x * x + y * y ≤ r * r then fbDrawPixel fb (cx + x) (cy + y) rgb else [])
        turns (-r))
    turns (-r)

/-! ## Every assignment is one of a pixel -/

theorem exists_of_mem_forInt {goes : Int32 → Bool} {body : Int32 → List Store} {turns : Nat} {i : Int32}
    {s : Store} (h : s ∈ forInt goes body turns i) : ∃ j, s ∈ body j := by
  induction turns generalizing i with
  | zero => cases h
  | succ turns ih =>
    rw [forInt] at h
    split at h
    · rcases List.mem_append.1 h with hbody | hrest
      · exact ⟨i, hbody⟩
      · exact ih hrest
    · cases h

theorem exists_of_mem_rectangle {turns : Nat} {fb : Framebuffer} {x y w h : Int32} {rgb : UInt32} {s : Store}
    (hs : s ∈ fbDrawRectangle turns fb x y w h rgb) : ∃ px py, s ∈ fbDrawPixel fb px py rgb := by
  obtain ⟨py, hpy⟩ := exists_of_mem_forInt hs
  obtain ⟨px, hpx⟩ := exists_of_mem_forInt hpy
  exact ⟨px, py, hpx⟩

theorem exists_of_mem_circle {turns : Nat} {fb : Framebuffer} {cx cy r : Int32} {rgb : UInt32} {s : Store}
    (hs : s ∈ fbDrawCircle turns fb cx cy r rgb) : ∃ px py, s ∈ fbDrawPixel fb px py rgb := by
  obtain ⟨y, hy⟩ := exists_of_mem_forInt hs
  obtain ⟨x, hx⟩ := exists_of_mem_forInt hy
  split at hx
  · exact ⟨cx + x, cy + y, hx⟩
  · cases hx

theorem mem_fbDrawPixel {fb : Framebuffer} {x y : Int32} {rgb : UInt32} {s : Store} :
    s ∈ fbDrawPixel fb x y rgb ↔ Accepts fb x y ∧ s = ⟨(pixelIndex fb x y).toInt, rgb⟩ := by
  unfold fbDrawPixel
  split
  · simp [*]
  · simp [*]

/-! ## Indices -/

/-- An `int` and the `uint32_t` with the same bits. -/
theorem toInt_toInt32 (w : UInt32) :
    w.toInt32.toInt = if 2 * w.toNat < 2 ^ 32 then (w.toNat : Int) else (w.toNat : Int) - (2 ^ 32 : Nat) :=
  BitVec.toInt_eq_toNat_cond w.toBitVec

/-- A coordinate that passes the check, as a natural number. -/
theorem coordinate_spec {x : Int32} {w : UInt32} (hlow : ¬ x < 0) (hhigh : ¬ x ≥ w.toInt32) :
    w.toNat < 2 ^ 31 ∧ x.toUInt32.toNat < w.toNat ∧ x.toInt = x.toUInt32.toNat := by
  have hx : x.toInt = _ := toInt_toInt32 x.toUInt32
  have hw := toInt_toInt32 w
  have hxlt := x.toUInt32.toNat_lt
  have hwlt := w.toNat_lt
  rw [Int32.lt_iff_toInt_lt, Int32.toInt_zero] at hlow
  rw [ge_iff_le, Int32.le_iff_toInt_le] at hhigh
  split at hx <;> split at hw <;> omega

/-- Every natural number below a width that is positive as an `int` is such a coordinate. -/
theorem exists_coordinate {n : Nat} {w : UInt32} (hw : w.toNat < 2 ^ 31) (hn : n < w.toNat) :
    ∃ x : Int32, ¬ x < 0 ∧ ¬ x ≥ w.toInt32 ∧ x.toUInt32.toNat = n := by
  have hnat : (UInt32.ofNat n).toNat = n := UInt32.toNat_ofNat_of_lt' (by simp only [UInt32.size]; omega)
  have hx := toInt_toInt32 (UInt32.ofNat n)
  have hw' := toInt_toInt32 w
  rw [if_pos (by omega), hnat] at hx
  rw [if_pos (by omega)] at hw'
  refine ⟨(UInt32.ofNat n).toInt32, ?_, ?_, hnat⟩
  · rw [Int32.lt_iff_toInt_lt, Int32.toInt_zero, hx]
    omega
  · rw [ge_iff_le, Int32.le_iff_toInt_le, hx, hw']
    omega

/-- As many pixels as the buffer has elements, both in the product of `fb_clear`, which wraps, and, if
the width and the height are positive as `int`s, in the product itself. -/
structure Fits (fb : Framebuffer) : Prop where
  cleared : (fb.width * fb.height).toNat ≤ backbufferSize
  drawn : fb.width.toNat < 2 ^ 31 → fb.height.toNat < 2 ^ 31 →
    fb.width.toNat * fb.height.toNat ≤ backbufferSize

/-- The index of a pixel, if there is no wrap. -/
theorem toNat_index (fb : Framebuffer) (x y : Int32) :
    (y.toUInt32 * fb.width + x.toUInt32).toNat =
      (fb.width.toNat * y.toUInt32.toNat + x.toUInt32.toNat) % 2 ^ 32 := by
  rw [UInt32.toNat_add, UInt32.toNat_mul, Nat.mod_add_mod, Nat.mul_comm]

/-- A pixel in row-major order comes before the end of its row. -/
theorem row_major_lt {w h x y : Nat} (hx : x < w) (hy : y < h) : w * y + x < w * h := by
  calc w * y + x < w * y + w := Nat.add_lt_add_left hx _
    _ = w * (y + 1) := rfl
    _ ≤ w * h := Nat.mul_le_mul_left w hy

/-- In a mode that fits, accepted pixels have their places in row-major order. -/
theorem pixelIndex_spec {fb : Framebuffer} (hfits : Fits fb) {x y : Int32} (h : Accepts fb x y) :
    (pixelIndex fb x y).toInt = (fb.width.toNat * y.toUInt32.toNat + x.toUInt32.toNat : Nat) ∧
    fb.width.toNat * y.toUInt32.toNat + x.toUInt32.toNat < backbufferSize := by
  simp only [Accepts, not_or] at h
  rcases h with ⟨hxlow, hxhigh, hylow, hyhigh⟩
  rcases coordinate_spec hxlow hxhigh with ⟨hw, hx, -⟩
  rcases coordinate_spec hylow hyhigh with ⟨hh, hy, -⟩
  have hlt : fb.width.toNat * y.toUInt32.toNat + x.toUInt32.toNat < backbufferSize :=
    Nat.lt_of_lt_of_le (row_major_lt hx hy) (hfits.drawn hw hh)
  have hsize : backbufferSize = 786432 := rfl
  refine ⟨?_, hlt⟩
  rw [pixelIndex, toInt_toInt32, toNat_index, Nat.mod_eq_of_lt (by omega), if_pos (by omega)]

/-! ## The property -/

/-- All drawing is in the buffer, and different pixels have different elements. -/
structure StaysInBuffer (fb : Framebuffer) : Prop where
  pixel : ∀ x y rgb, ∀ s ∈ fbDrawPixel fb x y rgb, s.InBuffer
  clear : ∀ rgb, ∀ s ∈ fbClear fb rgb, s.InBuffer
  rectangle : ∀ turns x y w h rgb, ∀ s ∈ fbDrawRectangle turns fb x y w h rgb, s.InBuffer
  circle : ∀ turns cx cy r rgb, ∀ s ∈ fbDrawCircle turns fb cx cy r rgb, s.InBuffer
  distinct : ∀ x y x' y', Accepts fb x y → Accepts fb x' y' →
    pixelIndex fb x y = pixelIndex fb x' y' → x = x' ∧ y = y'

theorem staysInBuffer_of_fits {fb : Framebuffer} (hfits : Fits fb) : StaysInBuffer fb := by
  have hpixel : ∀ x y rgb, ∀ s ∈ fbDrawPixel fb x y rgb, s.InBuffer := by
    intro x y rgb s hs
    obtain ⟨haccepts, rfl⟩ := mem_fbDrawPixel.1 hs
    rcases pixelIndex_spec hfits haccepts with ⟨hindex, hlt⟩
    show 0 ≤ (pixelIndex fb x y).toInt ∧ (pixelIndex fb x y).toInt < backbufferSize
    rw [hindex]
    omega
  refine ⟨hpixel, ?_, ?_, ?_, ?_⟩
  · intro rgb s hs
    obtain ⟨i, hi, rfl⟩ := List.mem_map.1 hs
    have hlt := List.mem_range.1 hi
    have hcleared := hfits.cleared
    show (0 : Int) ≤ i ∧ (i : Int) < backbufferSize
    omega
  · intro turns x y w h rgb s hs
    obtain ⟨px, py, hs'⟩ := exists_of_mem_rectangle hs
    exact hpixel px py rgb s hs'
  · intro turns cx cy r rgb s hs
    obtain ⟨px, py, hs'⟩ := exists_of_mem_circle hs
    exact hpixel px py rgb s hs'
  · intro x y x' y' h h' heq
    have hindex := (pixelIndex_spec hfits h).1
    have hindex' := (pixelIndex_spec hfits h').1
    rw [heq, hindex'] at hindex
    simp only [Accepts, not_or] at h h'
    rcases coordinate_spec h.1 h.2.1 with ⟨-, hx, hxint⟩
    rcases coordinate_spec h'.1 h'.2.1 with ⟨-, hx', hxint'⟩
    rcases coordinate_spec h.2.2.1 h.2.2.2 with ⟨-, -, hyint⟩
    rcases coordinate_spec h'.2.2.1 h'.2.2.2 with ⟨-, -, hyint'⟩
    -- quotient and remainder by the width tell the row and the column
    have hpos : 0 < fb.width.toNat := by omega
    have hsplit := (Nat.div_mod_unique (d := y.toUInt32.toNat) hpos).2 ⟨Nat.add_comm _ _, hx⟩
    have hsplit' := (Nat.div_mod_unique (d := y'.toUInt32.toNat) hpos).2 ⟨Nat.add_comm _ _, hx'⟩
    have hnat : fb.width.toNat * y'.toUInt32.toNat + x'.toUInt32.toNat =
        fb.width.toNat * y.toUInt32.toNat + x.toUInt32.toNat := by exact_mod_cast hindex
    rw [hnat] at hsplit'
    have hrow := hsplit.1.symm.trans hsplit'.1
    have hcolumn := hsplit.2.symm.trans hsplit'.2
    refine ⟨Int32.toInt_inj.1 ?_, Int32.toInt_inj.1 ?_⟩
    · rw [hxint, hxint', hcolumn]
    · rw [hyint, hyint', hrow]

/-- Drawing stays in the buffer exactly in the modes that fit: in another one `fb_clear` runs over the
end, or the pixel that would be the first behind the end is accepted. -/
theorem staysInBuffer_iff (width height : UInt32) :
    StaysInBuffer (vgaInitializeFramebuffer width height) ↔ Fits (vgaInitializeFramebuffer width height) := by
  refine ⟨?_, staysInBuffer_of_fits⟩
  generalize vgaInitializeFramebuffer width height = fb
  intro h
  refine ⟨?_, ?_⟩
  · by_contra hover
    have hmem : (⟨(backbufferSize : Int), 0⟩ : Store) ∈ fbClear fb 0 :=
      List.mem_map.2 ⟨backbufferSize, List.mem_range.2 (by omega), rfl⟩
    exact lt_irrefl _ (h.clear 0 _ hmem).2
  · intro hw hh
    by_contra hover
    have hpos : 0 < fb.width.toNat := by
      by_contra hzero
      rw [Nat.eq_zero_of_not_pos hzero, Nat.zero_mul] at hover
      exact hover (Nat.zero_le _)
    have hrow : backbufferSize / fb.width.toNat < fb.height.toNat :=
      Nat.div_lt_of_lt_mul (by omega)
    obtain ⟨x, hxlow, hxhigh, hx⟩ := exists_coordinate hw (Nat.mod_lt backbufferSize hpos)
    obtain ⟨y, hylow, hyhigh, hy⟩ := exists_coordinate hh hrow
    have haccepts : Accepts fb x y := by
      simp only [Accepts, not_or]
      exact ⟨hxlow, hxhigh, hylow, hyhigh⟩
    have hindex : (pixelIndex fb x y).toInt = (backbufferSize : Int) := by
      have hsize : backbufferSize = 786432 := rfl
      rw [pixelIndex, toInt_toInt32, toNat_index, hx, hy, Nat.div_add_mod, Nat.mod_eq_of_lt (by omega),
        if_pos (by omega)]
    have hin := (h.pixel x y 0 _ (mem_fbDrawPixel.2 ⟨haccepts, rfl⟩)).2
    rw [hindex] at hin
    exact lt_irrefl _ hin

/-- In a common mode, with 1280 times 1024 pixels, drawing does not stay in the buffer. -/
theorem not_staysInBuffer : ¬ StaysInBuffer (vgaInitializeFramebuffer 1280 1024) := by
  intro h
  have hmem : (⟨786432, 0⟩ : Store) ∈ fbDrawPixel (vgaInitializeFramebuffer 1280 1024) 512 614 0 := by decide
  have hin := (h.pixel 512 614 0 _ hmem).2
  exact absurd hin (by decide)

end CosKernel.Vga
