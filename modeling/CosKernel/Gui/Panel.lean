import CosKernel.Gui.Model
import CosKernel.WindowManager.Render

/-!
# Where a panel is drawn

`draw_panel` checks the size and the place it is given, and cuts the size off at
the end of the screen only then. If the place itself is beyond the end, what is
left is no size at all, but the corners are drawn all the same: one of them on
the last column or row of the screen, outside of the panel.
-/

namespace CosKernel.Gui

open Layers Vga WindowManager

/-! ## Drawings of a panel -/

/-- The part of a rectangle that is on the screen of a resolution. -/
def visiblePart (r : Resolution) (x y width height : Int) : Set (Int × Int) :=
  {q | x ≤ q.1 ∧ q.1 < x + width ∧ y ≤ q.2 ∧ q.2 < y + height ∧ q.1 < r.screenWidth ∧
    q.2 < r.screenHeight}

section Drawings

variable (r : Resolution) (x y : Int)

theorem draws_fillRect (width height : Int) (color : UInt8) :
    Draws (visiblePart r x y width height) (fillRect r x y width height color) := by
  have hdraws := Draws.loop (fun row => Draws.loop (fun col => draws_writeChar col row ' '.toUInt8 color) x
    (min (x + width) r.screenWidth - x).toNat) y (min (y + height) r.screenHeight - y).toNat
  refine hdraws.of_iff ?_
  intro cx cy
  simp only [visiblePart, Set.mem_singleton_iff, Prod.mk.injEq, Set.mem_ofPred_eq]
  constructor
  · rintro ⟨hx, hx', hy, hy', hsw, hsh⟩
    exact ⟨cy, by omega, by omega, cx, by omega, by omega, rfl, rfl⟩
  · rintro ⟨row, hrow, hrow', col, hcol, hcol', rfl, rfl⟩
    omega

theorem draws_horizontal (length : Int) (glyph color : UInt8) :
    Draws {q | x ≤ q.1 ∧ q.1 < x + length ∧ q.1 < r.screenWidth ∧ q.2 = y}
      (drawHorizontal r x y length glyph color) := by
  have hdraws := Draws.loop (fun i => draws_writeChar (x + i) y glyph color) 0
    (min length (r.screenWidth - x)).toNat
  refine hdraws.of_iff ?_
  intro cx cy
  simp only [Set.mem_singleton_iff, Prod.mk.injEq, Set.mem_ofPred_eq]
  constructor
  · rintro ⟨hx, hx', hsw, hy⟩
    exact ⟨cx - x, by omega, by omega, by omega, hy⟩
  · rintro ⟨i, hi, hi', rfl, rfl⟩
    omega

theorem draws_vertical (length : Int) (glyph color : UInt8) :
    Draws {q | y ≤ q.2 ∧ q.2 < y + length ∧ q.2 < r.screenHeight ∧ q.1 = x}
      (drawVertical r x y length glyph color) := by
  have hdraws := Draws.loop (fun i => draws_writeChar x (y + i) glyph color) 0
    (min length (r.screenHeight - y)).toNat
  refine hdraws.of_iff ?_
  intro cx cy
  simp only [Set.mem_singleton_iff, Prod.mk.injEq, Set.mem_ofPred_eq]
  constructor
  · rintro ⟨hy, hy', hsh, hx⟩
    exact ⟨cy - y, by omega, by omega, hx, by omega⟩
  · rintro ⟨i, hi, hi', rfl, rfl⟩
    omega

/-- A title is drawn between its two ends, on one row. -/
theorem draws_title (right : Int) (title : List UInt8) (tx : Int) :
    ∃ region, Draws region (drawTitle right y title tx) ∧ ∀ q ∈ region, tx ≤ q.1 ∧ q.1 < right ∧ q.2 = y := by
  induction title generalizing tx with
  | nil => exact ⟨∅, draws_nothing, fun q hq => absurd hq (Set.notMem_empty q)⟩
  | cons c p ih =>
    by_cases hgoes : c ≠ 0 ∧ tx < right
    · rcases ih (tx + 1) with ⟨region, hdraws, hregion⟩
      have hdraw : drawTitle right y (c :: p) tx =
          fun vram => drawTitle right y p (tx + 1) (vgaWriteChar tx y c guiPanelText vram) := by
        funext vram
        rw [drawTitle, if_pos hgoes]
      rw [hdraw]
      refine ⟨_, (draws_writeChar _ _ _ _).comp hdraws, ?_⟩
      rintro q (rfl | hq)
      · exact ⟨le_refl _, hgoes.2, rfl⟩
      · have hq' := hregion q hq
        omega
    · have hdraw : drawTitle right y (c :: p) tx = fun vram => vram := by
        funext vram
        rw [drawTitle, if_neg hgoes]
      rw [hdraw]
      exact ⟨∅, draws_nothing, fun q hq => absurd hq (Set.notMem_empty q)⟩

theorem draws_panelTitle (width : Int) (title : Option (List UInt8)) :
    ∃ region, Draws region (drawPanelTitle x y width title) ∧
      ∀ q ∈ region, x + 2 ≤ q.1 ∧ q.1 < x + width - 2 ∧ q.2 = y := by
  cases title with
  | none => exact draws_title y (x + width - 2) [] (x + 2)
  | some title =>
    by_cases hfirst : title.headD 0 ≠ 0
    · have hdraw : drawPanelTitle x y width (some title) = drawTitle (x + width - 2) y title (x + 2) :=
        funext fun _ => if_pos hfirst
      rw [hdraw]
      exact draws_title y (x + width - 2) title (x + 2)
    · have hdraw : drawPanelTitle x y width (some title) = fun vram => vram :=
        funext fun _ => if_neg hfirst
      rw [hdraw]
      exact ⟨∅, draws_nothing, fun q hq => absurd hq (Set.notMem_empty q)⟩

/-- The places of the frame: its corners, and its edges between them. -/
def frame (width height : Int) : Set (Int × Int) :=
  {q | (q.1 = x ∨ q.1 = x + width - 1 ∨ x < q.1 ∧ q.1 < x + width - 1) ∧
    (q.2 = y ∨ q.2 = y + height - 1 ∨ y < q.2 ∧ q.2 < y + height - 1) ∧
    (q.1 = x ∨ q.1 = x + width - 1 ∨ q.2 = y ∨ q.2 = y + height - 1)}

/-- What follows the checks draws all corners, whatever is left of the size, and nothing but the inside
and the frame. -/
theorem draws_framed (width height : Int) (title : Option (List UInt8)) :
    ∃ region, Draws region (drawFramed r x y width height title) ∧
      (∀ q, (q.1 = x ∨ q.1 = x + width - 1) → (q.2 = y ∨ q.2 = y + height - 1) → q ∈ region) ∧
      region ⊆ visiblePart r x y width height ∪ frame x y width height := by
  rcases draws_panelTitle x y width title with ⟨titled, htitle, htitled⟩
  refine ⟨_, (((((((((draws_fillRect r x y width height _).comp
    (draws_writeChar _ _ _ _)).comp (draws_writeChar _ _ _ _)).comp (draws_writeChar _ _ _ _)).comp
    (draws_writeChar _ _ _ _)).comp (draws_horizontal _ _ _ _ _ _)).comp
    (draws_horizontal _ _ _ _ _ _)).comp (draws_vertical _ _ _ _ _ _)).comp
    (draws_vertical _ _ _ _ _ _)).comp htitle, ?_, ?_⟩
  · rintro ⟨cx, cy⟩ hx hy
    simp only [Set.mem_union, Set.mem_singleton_iff, Prod.mk.injEq]
    tauto
  · rintro ⟨cx, cy⟩ hq
    simp only [Set.mem_union, Set.mem_singleton_iff, Prod.mk.injEq, Set.mem_ofPred_eq] at hq
    have ht := htitled (cx, cy)
    simp only [frame, Set.mem_union, Set.mem_ofPred_eq]
    rcases hq with ((((((((hq | hq) | hq) | hq) | hq) | hq) | hq) | hq) | hq) | hq
    · exact Or.inl hq
    · right; omega
    · right; omega
    · right; omega
    · right; omega
    · right; omega
    · right; omega
    · right; omega
    · right; omega
    · right
      have hq' := ht hq
      omega

end Drawings

/-! ## `draw_panel` -/

/-- The panel changes only cells in its rectangle and on the screen. -/
def StaysInside (r : Resolution) (x y width height : Int) (title : Option (List UInt8)) : Prop :=
  ∀ vram p, drawPanel r x y width height title vram p ≠ vram p →
    p ∈ cells (visiblePart r x y width height)

/-- The panel is refused, or it starts on the screen, or it is so far out that nothing of it reaches
the text screen. -/
def StartsOnScreen (r : Resolution) (x y width height : Int) : Prop :=
  (width < 2 ∨ height < 2 ∨ x < 0 ∨ y < 0) ∨ (x < r.screenWidth ∧ y < r.screenHeight) ∨
    vgaWidth ≤ min x (r.screenWidth - 1) ∨ vgaHeight ≤ min y (r.screenHeight - 1)

instance (r : Resolution) (x y width height : Int) : Decidable (StartsOnScreen r x y width height) :=
  inferInstanceAs (Decidable (_ ∨ _))

/-- `draw_panel` keeps to its rectangle exactly if it is given a panel that starts on the screen. -/
theorem staysInside_iff (r : Resolution) (x y width height : Int) (title : Option (List UInt8)) :
    StaysInside r x y width height title ↔ StartsOnScreen r x y width height := by
  by_cases hrefused : width < 2 ∨ height < 2 ∨ x < 0 ∨ y < 0
  · refine iff_of_true ?_ (Or.inl hrefused)
    intro vram p hchange
    rw [drawPanel, if_pos hrefused] at hchange
    exact absurd rfl hchange
  · -- the size that is left
    obtain ⟨w, hw⟩ : ∃ w, w = if x + width > r.screenWidth then r.screenWidth - x else width := ⟨_, rfl⟩
    obtain ⟨h, hh⟩ : ∃ h, h = if y + height > r.screenHeight then r.screenHeight - y else height := ⟨_, rfl⟩
    have hdraw : drawPanel r x y width height title = drawFramed r x y w h title := by
      funext vram
      rw [drawPanel, if_neg hrefused, hw, hh]
    have hpart : visiblePart r x y w h = visiblePart r x y width height := by
      ext q
      simp only [visiblePart, Set.mem_ofPred_eq]
      split at hw <;> split at hh <;> omega
    rcases draws_framed r x y w h title with ⟨region, hdraws, hcorners, hregion⟩
    have hstays : StaysInside r x y width height title ↔ cells region ⊆ cells (visiblePart r x y w h) := by
      have hwords : Nontrivial UInt16 := ⟨0, 1, by decide⟩
      rw [StaysInside, hdraw, hpart]
      exact (Paints.subset_iff hdraws).symm
    rw [hstays]
    constructor
    · intro hsub
      by_contra hstarts
      simp only [StartsOnScreen, not_or] at hstarts
      rcases hstarts with ⟨-, hbeyond, hcolumn, hrow⟩
      -- the corner next to the upper left is drawn, and it is on the text screen
      have hcorner : (min x (x + w - 1), min y (y + h - 1)) ∈ region := by
        apply hcorners
        · show min x (x + w - 1) = x ∨ min x (x + w - 1) = x + w - 1
          omega
        · show min y (y + h - 1) = y ∨ min y (y + h - 1) = y + h - 1
          omega
      have hwidth := r.width_pos
      have hheight := r.height_pos
      have hscreen : OnScreen (min x (x + w - 1)) (min y (y + h - 1)) := by
        unfold OnScreen
        split at hw <;> split at hh <;> omega
      have hinside := hsub ((vramIndex_mem_cells hscreen _).2 hcorner)
      rw [vramIndex_mem_cells hscreen] at hinside
      simp only [visiblePart, Set.mem_ofPred_eq] at hinside
      omega
    · rintro (hrefused' | ⟨hx, hy⟩ | hfar)
      · exact absurd hrefused' hrefused
      · rintro p ⟨q, hq, hscreen, hp⟩
        refine ⟨q, ?_, hscreen, hp⟩
        rcases hregion hq with hpart' | hframe
        · exact hpart'
        · -- something is left of the size, so the frame is inside
          simp only [frame, Set.mem_ofPred_eq] at hframe
          simp only [visiblePart, Set.mem_ofPred_eq]
          split at hw <;> split at hh <;> omega
      · rintro p ⟨q, hq, hscreen, hp⟩
        exfalso
        unfold OnScreen at hscreen
        rcases hregion hq with hpart' | hframe
        · simp only [visiblePart, Set.mem_ofPred_eq] at hpart'
          split at hw <;> split at hh <;> omega
        · simp only [frame, Set.mem_ofPred_eq] at hframe
          split at hw <;> split at hh <;> omega

/-- A panel just beyond the last column draws two of its corners into that column. -/
theorem not_staysInside : ¬ StaysInside defaultResolution 80 2 10 5 none := by
  intro h
  have hchange : drawPanel defaultResolution 80 2 10 5 none (fun _ => 0) 239 ≠ 0 := by decide
  obtain ⟨q, hq, -, -⟩ := h (fun _ => 0) 239 hchange
  have hleft : 80 ≤ q.1 := hq.1
  have hright : q.1 < 80 := hq.2.2.2.2.1
  omega

end CosKernel.Gui
