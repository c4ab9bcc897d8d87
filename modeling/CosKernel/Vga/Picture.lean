import CosKernel.Lib.CString
import CosKernel.Lib.Picture
import CosKernel.Vga.Model

/-!
# Pictures on the text screen

The drawings that the desktop and its panels are made of, with what they show: single
characters, filled blocks, strings that end at a column, and frames.
-/

namespace CosKernel.Vga

open Layers Picture

/-- The text screen, by columns and rows. -/
def screen : View (Int × Int) Nat where
  On := fun q => OnScreen q.1 q.2
  index := fun q => vramIndex q.1 q.2

/-- What a drawing shows on the text screen. -/
abbrev Contents := Int × Int → Option UInt16

/-! ## Characters and blocks -/

def dot (x y : Int) (c color : UInt8) : Contents := fun q => if q = (x, y) then some (cell c color) else none

/-- The columns from `x` to before `right` of the rows from `y` to before `bottom`. -/
def block (x y right bottom : Int) (c color : UInt8) : Contents := fun q =>
  if x ≤ q.1 ∧ q.1 < right ∧ y ≤ q.2 ∧ q.2 < bottom then some (cell c color) else none

theorem shows_writeChar (x y : Int) (c color : UInt8) :
    Shows screen (dot x y c color) (vgaWriteChar x y c color) := by
  rintro vram ⟨x', y'⟩ hon
  show vgaWriteChar x y c color vram (vramIndex x' y') = (dot x y c color (x', y')).getD (vram (vramIndex x' y'))
  rw [vgaWriteChar_at x y c color vram hon, dot]
  by_cases hsame : x' = x ∧ y' = y
  · rw [if_pos hsame, if_pos (Prod.ext hsame.1 hsame.2)]
    rfl
  · have hne : (x', y') ≠ (x, y) := fun heq => hsame ⟨congrArg Prod.fst heq, congrArg Prod.snd heq⟩
    rw [if_neg hsame, if_neg hne]
    rfl

/-- Blocks that together are a block. -/
theorem shows_blocks (left turnRight top turnBottom : Int → Int) {x y right bottom : Int} {c color : UInt8}
    {body : Int → Vram → Vram} {j : Int} {turns : Nat}
    (hbody : ∀ k, Shows screen (block (left k) (top k) (turnRight k) (turnBottom k) c color) (body k))
    (hcover : ∀ q : Int × Int, (x ≤ q.1 ∧ q.1 < right ∧ y ≤ q.2 ∧ q.2 < bottom) ↔
      ∃ k, j ≤ k ∧ k < j + turns ∧ left k ≤ q.1 ∧ q.1 < turnRight k ∧ top k ≤ q.2 ∧ q.2 < turnBottom k) :
    Shows screen (block x y right bottom c color) (loop body j turns) := by
  apply Shows.loop hbody
  · intro q k hjk hk
    unfold block
    by_cases hturn : left k ≤ q.1 ∧ q.1 < turnRight k ∧ top k ≤ q.2 ∧ q.2 < turnBottom k
    · right
      rw [if_pos hturn, if_pos ((hcover q).2 ⟨k, hjk, hk, hturn⟩)]
    · left
      exact if_neg hturn
  · intro q hq
    unfold block at hq ⊢
    by_cases hinside : x ≤ q.1 ∧ q.1 < right ∧ y ≤ q.2 ∧ q.2 < bottom
    · rcases (hcover q).1 hinside with ⟨k, hjk, hk, hturn⟩
      refine ⟨k, hjk, hk, ?_⟩
      rw [if_pos hturn, if_pos hinside]
    · exact absurd (if_neg hinside) hq

theorem dot_eq_block (x y : Int) (c color : UInt8) : dot x y c color = block x y (x + 1) (y + 1) c color := by
  funext q
  unfold dot block
  congr 1
  rw [Prod.ext_iff, eq_iff_iff]
  show q.1 = x ∧ q.2 = y ↔ _
  omega

/-- A row of one character, by the offset in it. -/
theorem shows_row (x y : Int) (n : Nat) (c color : UInt8) :
    Shows screen (block x y (x + n) (y + 1) c color) (loop (fun i => vgaWriteChar (x + i) y c color) 0 n) := by
  apply shows_blocks (fun i => x + i) (fun i => x + i + 1) (fun _ => y) (fun _ => y + 1)
  · intro k
    rw [← dot_eq_block]
    exact shows_writeChar _ _ _ _
  · intro q
    constructor
    · intro hq
      exact ⟨q.1 - x, by omega, by omega, by omega, by omega, by omega, by omega⟩
    · rintro ⟨k, hk⟩
      omega

/-- A column of one character. -/
theorem shows_column (x y : Int) (n : Nat) (c color : UInt8) :
    Shows screen (block x y (x + 1) (y + n) c color) (loop (fun i => vgaWriteChar x (y + i) c color) 0 n) := by
  apply shows_blocks (fun _ => x) (fun _ => x + 1) (fun i => y + i) (fun i => y + i + 1)
  · intro k
    rw [← dot_eq_block]
    exact shows_writeChar _ _ _ _
  · intro q
    constructor
    · intro hq
      exact ⟨q.2 - y, by omega, by omega, by omega, by omega, by omega, by omega⟩
    · rintro ⟨k, hk⟩
      omega

/-- `for (const char* p = text; *p && x < limit; p++, x++) vga_write_char(x, y, *p, color);` -/
def writeString (limit y : Int) (color : UInt8) : List UInt8 → Int → Vram → Vram
  | [], _, vram => vram
  | c :: p, x, vram =>
    if c ≠ 0 ∧ x < limit then writeString limit y color p (x + 1) (vgaWriteChar x y c color vram) else vram

/-- The characters in front of the NUL, from `x` on, as far as the limit. -/
def line (limit y : Int) (color : UInt8) (text : List UInt8) (x : Int) : Contents := fun q =>
  if q.2 = y ∧ x ≤ q.1 ∧ q.1 < limit then
    ((CString.content text)[(q.1 - x).toNat]?).map fun c => cell c color
  else none

theorem line_cons {limit y : Int} {color : UInt8} {c : UInt8} (hc : c ≠ 0) (p : List UInt8) {x : Int}
    (hx : x < limit) (q : Int × Int) :
    line limit y color (c :: p) x q = (line limit y color p (x + 1) q).or (dot x y c color q) := by
  unfold line dot
  rw [CString.content_cons hc]
  by_cases hq : q = (x, y)
  · subst hq
    rw [if_pos ⟨rfl, le_refl x, hx⟩, if_neg (fun h => absurd h.2.1 (by omega)), if_pos rfl, Option.none_or, sub_self]
    rfl
  · rw [if_neg hq, Option.or_none]
    by_cases hfirst : q.2 = y ∧ q.1 = x
    · exact absurd (Prod.ext hfirst.2 hfirst.1) hq
    · by_cases hrow : q.2 = y ∧ x ≤ q.1 ∧ q.1 < limit
      · have hoffset : (q.1 - x).toNat = (q.1 - (x + 1)).toNat + 1 := by omega
        rw [if_pos hrow, if_pos (by omega), hoffset, List.getElem?_cons_succ]
      · rw [if_neg hrow, if_neg (by omega)]

theorem shows_string (limit y : Int) (color : UInt8) (text : List UInt8) (x : Int) :
    Shows screen (line limit y color text x) (writeString limit y color text x) := by
  induction text generalizing x with
  | nil =>
    refine Shows.nothing.congr ?_
    intro q _
    unfold line
    split <;> rfl
  | cons c p ih =>
    by_cases hgoes : c ≠ 0 ∧ x < limit
    · have hdraw : writeString limit y color (c :: p) x =
          fun vram => writeString limit y color p (x + 1) (vgaWriteChar x y c color vram) := by
        funext vram
        rw [writeString, if_pos hgoes]
      rw [hdraw]
      refine (Shows.comp (shows_writeChar x y c color) (ih (x + 1))).congr ?_
      intro q _
      exact line_cons hgoes.1 p hgoes.2 q
    · have hdraw : writeString limit y color (c :: p) x = fun vram => vram := by
        funext vram
        rw [writeString, if_neg hgoes]
      rw [hdraw]
      refine Shows.nothing.congr ?_
      intro q _
      unfold line
      split
      · by_cases hc : c = 0
        · rw [hc, CString.content_cons_zero]
          rfl
        · exact absurd ⟨hc, by omega⟩ hgoes
      · rfl

/-! ## Frames -/

/-- The corners, the two edges and the two sides of a rectangle. -/
def frame (x y width height : Int) (color : UInt8) : Contents := fun q =>
  if (q.1 = x ∨ q.1 = x + width - 1) ∧ (q.2 = y ∨ q.2 = y + height - 1) then some (cell '+'.toUInt8 color)
  else if (x < q.1 ∧ q.1 < x + width - 1) ∧ (q.2 = y ∨ q.2 = y + height - 1) then some (cell '-'.toUInt8 color)
  else if (q.1 = x ∨ q.1 = x + width - 1) ∧ (y < q.2 ∧ q.2 < y + height - 1) then some (cell '|'.toUInt8 color)
  else none

/-- The corners, then the edges from left to right, then the sides from top to bottom. -/
def drawFrame (x y width height : Int) (color : UInt8) (vram : Vram) : Vram :=
  let vram := vgaWriteChar x y '+'.toUInt8 color vram
  let vram := vgaWriteChar (x + width - 1) y '+'.toUInt8 color vram
  let vram := vgaWriteChar x (y + height - 1) '+'.toUInt8 color vram
  let vram := vgaWriteChar (x + width - 1) (y + height - 1) '+'.toUInt8 color vram
  let vram := loop (fun i vram =>
    let vram := vgaWriteChar (x + i) y '-'.toUInt8 color vram
    vgaWriteChar (x + i) (y + height - 1) '-'.toUInt8 color vram) 1 (width - 1 - 1).toNat vram
  loop (fun i vram =>
    let vram := vgaWriteChar x (y + i) '|'.toUInt8 color vram
    vgaWriteChar (x + width - 1) (y + i) '|'.toUInt8 color vram) 1 (height - 1 - 1).toNat vram

end CosKernel.Vga
