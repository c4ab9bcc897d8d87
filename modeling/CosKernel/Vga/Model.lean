import Mathlib

/-!
# The text screen (`vga.c`)

25 rows of 80 cells, each a character and a colour in one 16-bit word.
`vga_write_char` is the only function the shell and the windows draw with.
-/

namespace CosKernel.Vga

/-- `VGA_WIDTH` -/
abbrev vgaWidth : Int := 80

/-- `VGA_HEIGHT` -/
abbrev vgaHeight : Int := 25

/-- `VGA_VRAM`, by index. -/
abbrev Vram : Type := Nat → UInt16

/-- A place on the screen. -/
def OnScreen (x y : Int) : Prop := 0 ≤ x ∧ x < vgaWidth ∧ 0 ≤ y ∧ y < vgaHeight

instance (x y : Int) : Decidable (OnScreen x y) := inferInstanceAs (Decidable (_ ∧ _))

/-- `y * VGA_WIDTH + x` -/
def vramIndex (x y : Int) : Nat := (y * vgaWidth + x).toNat

/-- `(c | (color << 8))`: the `char` is signed and sign-extended, the word is cut to 16 bits. -/
def cell (c color : UInt8) : UInt16 := c.toInt8.toInt16.toUInt16 ||| (color.toUInt16 <<< 8)

/-- `vga_write_char` -/
def vgaWriteChar (x y : Int) (c color : UInt8) (vram : Vram) : Vram :=
  if x < 0 ∨ x ≥ vgaWidth ∨ y < 0 ∨ y ≥ vgaHeight then vram
  else Function.update vram (vramIndex x y) (cell c color)

/-- The word written is one of those on the screen. -/
theorem OnScreen.index_lt {x y : Int} (h : OnScreen x y) : vramIndex x y < 80 * 25 := by
  unfold OnScreen vgaWidth vgaHeight at h
  unfold vramIndex vgaWidth
  omega

/-- Places on the screen have cells of their own. -/
theorem OnScreen.index_inj {x y x' y' : Int} (h : OnScreen x y) (h' : OnScreen x' y')
    (heq : vramIndex x y = vramIndex x' y') : x = x' ∧ y = y' := by
  unfold OnScreen vgaWidth vgaHeight at h h'
  unfold vramIndex vgaWidth at heq
  omega

theorem vgaWriteChar_of_onScreen {x y : Int} (h : OnScreen x y) (c color : UInt8) (vram : Vram) :
    vgaWriteChar x y c color vram = Function.update vram (vramIndex x y) (cell c color) := by
  unfold OnScreen at h
  exact if_neg (by omega)

theorem vgaWriteChar_of_not {x y : Int} (h : ¬ OnScreen x y) (c color : UInt8) (vram : Vram) :
    vgaWriteChar x y c color vram = vram := by
  unfold OnScreen at h
  exact if_pos (by omega)

/-- A write changes the cell of its place and no other. -/
theorem vgaWriteChar_at (x y : Int) (c color : UInt8) (vram : Vram) {x' y' : Int} (h : OnScreen x' y') :
    vgaWriteChar x y c color vram (vramIndex x' y') =
      if x' = x ∧ y' = y then cell c color else vram (vramIndex x' y') := by
  by_cases hscreen : OnScreen x y
  · rw [vgaWriteChar_of_onScreen hscreen, Function.update_apply]
    by_cases hsame : x' = x ∧ y' = y
    · rw [if_pos hsame, hsame.1, hsame.2, if_pos rfl]
    · rw [if_neg hsame, if_neg (fun heq => hsame (h.index_inj hscreen heq))]
  · rw [vgaWriteChar_of_not hscreen, if_neg]
    rintro ⟨rfl, rfl⟩
    exact hscreen h

end CosKernel.Vga
