import CosKernel.Lib.ExchangeSort
import CosKernel.Lib.Layers
import CosKernel.Vga.Model
import CosKernel.WindowManager.Stacking

/-!
# Painting the windows

`window_manager_render` sorts pointers to the windows by `z_order` and draws the
windows in that order. A window is drawn by single characters: the corners, the
edges, the title over the upper edge, and blanks inside. Together they are its
rectangle, whatever its size, cut off where the screen ends.
-/

namespace CosKernel.WindowManager

open ArrayTable Layers Run Vga

/-! ## `window_manager_render` -/

def drawCorners (w : WindowT) (vram : Vram) : Vram :=
  let vram := vgaWriteChar w.x w.y '+'.toUInt8 (frameColor w) vram
  let vram := vgaWriteChar (w.x + w.width - 1) w.y '+'.toUInt8 (frameColor w) vram
  let vram := vgaWriteChar w.x (w.y + w.height - 1) '+'.toUInt8 (frameColor w) vram
  vgaWriteChar (w.x + w.width - 1) (w.y + w.height - 1) '+'.toUInt8 (frameColor w) vram

/-- `for (int j = 1; j < w->width - 1; j++)` -/
def drawEdges (w : WindowT) (vram : Vram) : Vram :=
  loop (fun j vram =>
    let vram := vgaWriteChar (w.x + j) w.y '-'.toUInt8 (frameColor w) vram
    vgaWriteChar (w.x + j) (w.y + w.height - 1) '-'.toUInt8 (frameColor w) vram)
    1 (w.width - 1 - 1).toNat vram

/-- `for (int j = 1; j < w->height - 1; j++)` -/
def drawSides (w : WindowT) (vram : Vram) : Vram :=
  loop (fun j vram =>
    let vram := vgaWriteChar w.x (w.y + j) '|'.toUInt8 (frameColor w) vram
    vgaWriteChar (w.x + w.width - 1) (w.y + j) '|'.toUInt8 (frameColor w) vram)
    1 (w.height - 1 - 1).toNat vram

/-- `for (const char* p = w->title; *p && tx < w->x + w->width - 2; p++, tx++)` -/
def drawTitle (w : WindowT) : List UInt8 → Int → Vram → Vram
  | [], _, vram => vram
  | c :: p, tx, vram =>
    if c ≠ 0 ∧ tx < w.x + w.width - 2 then
      drawTitle w p (tx + 1) (vgaWriteChar tx w.y c 0x1F vram)
    else vram

/-- `for (int row …) for (int col …)` -/
def fillInside (w : WindowT) (vram : Vram) : Vram :=
  loop (fun row =>
    loop (fun col => vgaWriteChar col row ' '.toUInt8 0x07) (w.x + 1) (w.width - 1 - 1).toNat)
    (w.y + 1) (w.height - 1 - 1).toNat vram

/-- A turn of the last loop, for a window that is not skipped. -/
def drawWindow (w : WindowT) (vram : Vram) : Vram :=
  let vram := drawCorners w vram
  let vram := drawEdges w vram
  let vram := drawSides w vram
  let vram :=
    match w.title with
    | some title => drawTitle w title (w.x + 2) vram
    | none => vram
  fillInside w vram

/-- The windows that are not skipped. -/
def Visible (w : WindowT) : Prop := w.active = true ∧ w.minimized = false

instance (w : WindowT) : Decidable (Visible w) := inferInstanceAs (Decidable (_ ∧ _))

/-- `sorted`, after the two loops; a pointer to a window is its index. -/
def sortedWindows (s : Manager) : List Nat :=
  entries (ExchangeSort.sort (fun i => (s.windows i).zOrder) (fun i => i) s.windowCount) s.windowCount

/-- `window_manager_render` -/
def windowManagerRender (s : Manager) (vram : Vram) : Vram :=
  (sortedWindows s).foldl (fun vram i =>
    if Visible (s.windows i) then drawWindow (s.windows i) vram else vram) vram

/-! ## The places of a drawing -/

/-- The cells of places that are on the screen. -/
def cells (region : Set (Int × Int)) : Set Nat :=
  {p | ∃ q ∈ region, OnScreen q.1 q.2 ∧ vramIndex q.1 q.2 = p}

/-- A drawing on the screen. -/
def Draws (region : Set (Int × Int)) (draw : Vram → Vram) : Prop := Paints (cells region) draw

/-- The places of a drawing can be described in another way. -/
theorem Draws.of_iff {region region' : Set (Int × Int)} {draw : Vram → Vram} (h : Draws region draw)
    (hiff : ∀ x y, (x, y) ∈ region' ↔ (x, y) ∈ region) : Draws region' draw := by
  have heq : region' = region := Set.ext fun q => hiff q.1 q.2
  rw [heq]
  exact h

/-- A drawing of no places. -/
theorem draws_nothing : Draws ∅ (fun vram => vram) := by
  have hcells : cells ∅ = ∅ := by simp [cells]
  unfold Draws
  rw [hcells]
  exact Paints.nothing

theorem vramIndex_mem_cells {x y : Int} (h : OnScreen x y) (region : Set (Int × Int)) :
    vramIndex x y ∈ cells region ↔ (x, y) ∈ region := by
  constructor
  · rintro ⟨⟨x', y'⟩, hregion, hscreen, hindex⟩
    rcases hscreen.index_inj h hindex with ⟨rfl, rfl⟩
    exact hregion
  · intro hregion
    exact ⟨(x, y), hregion, h, rfl⟩

theorem draws_writeChar (x y : Int) (c color : UInt8) : Draws {(x, y)} (vgaWriteChar x y c color) := by
  by_cases h : OnScreen x y
  · have hcells : cells {(x, y)} = {vramIndex x y} := by
      ext p
      constructor
      · rintro ⟨q, rfl, _, hp⟩
        exact hp.symm
      · rintro rfl
        exact (vramIndex_mem_cells h _).mpr rfl
    have hdraw : vgaWriteChar x y c color =
        fun vram => Function.update vram (vramIndex x y) (cell c color) :=
      funext (vgaWriteChar_of_onScreen h c color)
    unfold Draws
    rw [hcells, hdraw]
    exact Paints.update _ _
  · -- nothing is written
    have hcells : cells {(x, y)} = ∅ := by
      rw [Set.eq_empty_iff_forall_notMem]
      rintro p ⟨q, rfl, hscreen, _⟩
      exact h hscreen
    have hdraw : vgaWriteChar x y c color = fun vram => vram := funext (vgaWriteChar_of_not h c color)
    unfold Draws
    rw [hcells, hdraw]
    exact Paints.nothing

theorem Draws.comp {region region' : Set (Int × Int)} {draw draw' : Vram → Vram}
    (h : Draws region draw) (h' : Draws region' draw') :
    Draws (region ∪ region') (fun vram => draw' (draw vram)) := by
  have hcells : cells (region ∪ region') = cells region ∪ cells region' := by
    ext p
    constructor
    · rintro ⟨q, hq | hq, hp⟩
      · exact Or.inl ⟨q, hq, hp⟩
      · exact Or.inr ⟨q, hq, hp⟩
    · rintro (⟨q, hq, hp⟩ | ⟨q, hq, hp⟩)
      · exact ⟨q, Or.inl hq, hp⟩
      · exact ⟨q, Or.inr hq, hp⟩
  unfold Draws
  rw [hcells]
  exact Paints.comp h h'

theorem Draws.loop {region : Int → Set (Int × Int)} {body : Int → Vram → Vram}
    (h : ∀ j, Draws (region j) (body j)) (j : Int) (turns : Nat) :
    Draws {q | ∃ k, j ≤ k ∧ k < j + turns ∧ q ∈ region k} (Layers.loop body j turns) := by
  have hcells : cells {q | ∃ k, j ≤ k ∧ k < j + turns ∧ q ∈ region k} =
      {p | ∃ k, j ≤ k ∧ k < j + turns ∧ p ∈ cells (region k)} := by
    ext p
    constructor
    · rintro ⟨q, ⟨k, hjk, hk, hq⟩, hp⟩
      exact ⟨k, hjk, hk, q, hq, hp⟩
    · rintro ⟨k, hjk, hk, q, hq, hp⟩
      exact ⟨q, ⟨k, hjk, hk, hq⟩, hp⟩
  unfold Draws
  rw [hcells]
  exact Paints.loop h j turns

/-! ## One window -/

/-- The rectangle of a window. -/
def rectangle (w : WindowT) : Set (Int × Int) :=
  {q | w.x ≤ q.1 ∧ q.1 < w.x + w.width ∧ w.y ≤ q.2 ∧ q.2 < w.y + w.height}

section Window

variable (w : WindowT)

theorem draws_corners : ∃ region, Draws region (drawCorners w) ∧ ∀ x y, (x, y) ∈ region ↔
    (x = w.x ∨ x = w.x + w.width - 1) ∧ (y = w.y ∨ y = w.y + w.height - 1) := by
  refine ⟨_, (((draws_writeChar _ _ _ _).comp (draws_writeChar _ _ _ _)).comp
    (draws_writeChar _ _ _ _)).comp (draws_writeChar _ _ _ _), ?_⟩
  intro x y
  simp only [Set.mem_union, Set.mem_singleton_iff, Prod.mk.injEq]
  tauto

theorem draws_edges : ∃ region, Draws region (drawEdges w) ∧ ∀ x y, (x, y) ∈ region ↔
    (w.x + 1 ≤ x ∧ x < w.x + w.width - 1) ∧ (y = w.y ∨ y = w.y + w.height - 1) := by
  refine ⟨_, Draws.loop (fun j => (draws_writeChar _ _ _ _).comp (draws_writeChar _ _ _ _)) _ _, ?_⟩
  intro x y
  simp only [Set.mem_union, Set.mem_singleton_iff, Prod.mk.injEq, Set.mem_ofPred_eq]
  constructor
  · rintro ⟨k, hk, hlt, hx⟩
    omega
  · rintro ⟨hx, hy⟩
    exact ⟨x - w.x, by omega, by omega, by omega⟩

theorem draws_sides : ∃ region, Draws region (drawSides w) ∧ ∀ x y, (x, y) ∈ region ↔
    (x = w.x ∨ x = w.x + w.width - 1) ∧ (w.y + 1 ≤ y ∧ y < w.y + w.height - 1) := by
  refine ⟨_, Draws.loop (fun j => (draws_writeChar _ _ _ _).comp (draws_writeChar _ _ _ _)) _ _, ?_⟩
  intro x y
  simp only [Set.mem_union, Set.mem_singleton_iff, Prod.mk.injEq, Set.mem_ofPred_eq]
  constructor
  · rintro ⟨k, hk, hlt, hx⟩
    omega
  · rintro ⟨hx, hy⟩
    exact ⟨y - w.y, by omega, by omega, by omega⟩

theorem draws_inside : ∃ region, Draws region (fillInside w) ∧ ∀ x y, (x, y) ∈ region ↔
    (w.x + 1 ≤ x ∧ x < w.x + w.width - 1) ∧ (w.y + 1 ≤ y ∧ y < w.y + w.height - 1) := by
  refine ⟨_, Draws.loop (fun row => Draws.loop (fun col => draws_writeChar col row _ _) _ _) _ _, ?_⟩
  intro x y
  simp only [Set.mem_singleton_iff, Prod.mk.injEq, Set.mem_ofPred_eq]
  constructor
  · rintro ⟨row, hrow, hrow', col, hcol, hcol', hx, hy⟩
    omega
  · rintro ⟨hx, hy⟩
    exact ⟨y, by omega, by omega, x, by omega, by omega, rfl, rfl⟩

/-- The title stays on the upper edge. -/
theorem draws_title (title : List UInt8) (tx : Int) :
    ∃ region, Draws region (drawTitle w title tx) ∧ ∀ x y, (x, y) ∈ region →
      (tx ≤ x ∧ x < w.x + w.width - 2) ∧ y = w.y := by
  induction title generalizing tx with
  | nil => exact ⟨∅, draws_nothing, fun x y hq => absurd hq (Set.notMem_empty _)⟩
  | cons c p ih =>
    by_cases hgoes : c ≠ 0 ∧ tx < w.x + w.width - 2
    · rcases ih (tx + 1) with ⟨region, hdraws, hregion⟩
      have hdraw : drawTitle w (c :: p) tx =
          fun vram => drawTitle w p (tx + 1) (vgaWriteChar tx w.y c 0x1F vram) := by
        funext vram
        rw [drawTitle, if_pos hgoes]
      rw [hdraw]
      refine ⟨_, (draws_writeChar _ _ _ _).comp hdraws, ?_⟩
      rintro x y (hq | hq)
      · cases hq
        omega
      · have := hregion x y hq
        omega
    · have hdraw : drawTitle w (c :: p) tx = fun vram => vram := by
        funext vram
        rw [drawTitle, if_neg hgoes]
      rw [hdraw]
      exact ⟨∅, draws_nothing, fun x y hq => absurd hq (Set.notMem_empty _)⟩

/-- A window is drawn on all of its rectangle and nowhere else. -/
theorem draws_window (hwidth : 1 ≤ w.width) (hheight : 1 ≤ w.height) :
    Draws (rectangle w) (drawWindow w) := by
  rcases draws_corners w with ⟨corners, hcorners, hcorners'⟩
  rcases draws_edges w with ⟨edges, hedges, hedges'⟩
  rcases draws_sides w with ⟨sides, hsides, hsides'⟩
  rcases draws_inside w with ⟨inside, hinside, hinside'⟩
  have htitle : ∃ region, Draws region (fun vram =>
      match w.title with
      | some title => drawTitle w title (w.x + 2) vram
      | none => vram) ∧ ∀ x y, (x, y) ∈ region →
        (w.x + 2 ≤ x ∧ x < w.x + w.width - 2) ∧ y = w.y := by
    cases w.title with
    | some title => exact draws_title w title (w.x + 2)
    | none => exact draws_title w [] (w.x + 2)
  rcases htitle with ⟨title, htitle, htitle'⟩
  have hregion : rectangle w = (((corners ∪ edges) ∪ sides) ∪ title) ∪ inside := by
    ext ⟨x, y⟩
    have hover := htitle' x y
    simp only [Set.mem_union, hcorners', hedges', hsides', hinside', rectangle, Set.mem_ofPred_eq]
    constructor
    · intro h
      omega
    · rintro ((((h | h) | h) | h) | h)
      · omega
      · omega
      · omega
      · have := hover h
        omega
      · omega
  rw [hregion]
  exact (((hcorners.comp hedges).comp hsides).comp htitle).comp hinside

end Window

/-! ## All windows -/

/-- The place is on a window that is not skipped. -/
def Covers (w : WindowT) (x y : Int) : Prop := Visible w ∧ (x, y) ∈ rectangle w

/-- Every window has at least one row and one column. -/
def Sized (s : Manager) : Prop :=
  ∀ k < s.windowCount, 1 ≤ (s.windows k).width ∧ 1 ≤ (s.windows k).height

theorem mem_sortedWindows (s : Manager) (k : Nat) : k ∈ sortedWindows s ↔ k < s.windowCount := by
  have hperm := ExchangeSort.sort_perm (fun i => (s.windows i).zOrder) (fun i => i) s.windowCount
  unfold sortedWindows
  rw [hperm.mem_iff, entries, List.map_id', List.mem_range]

/-- A drawing of the last loop, windows that are skipped included. -/
theorem paints_turn {s : Manager} (h : Sized s) {k : Nat} (hk : k < s.windowCount) :
    Paints (cells {q | Covers (s.windows k) q.1 q.2})
      (fun vram => if Visible (s.windows k) then drawWindow (s.windows k) vram else vram) := by
  by_cases hvisible : Visible (s.windows k)
  · have hcovers : {q : Int × Int | Covers (s.windows k) q.1 q.2} = rectangle (s.windows k) := by
      ext q
      exact ⟨fun hq => hq.2, fun hq => ⟨hvisible, hq⟩⟩
    have hdraw : (fun vram => if Visible (s.windows k) then drawWindow (s.windows k) vram else vram) =
        drawWindow (s.windows k) := funext fun _ => if_pos hvisible
    rw [hcovers, hdraw]
    exact draws_window _ (h k hk).1 (h k hk).2
  · have hcovers : cells {q : Int × Int | Covers (s.windows k) q.1 q.2} = ∅ := by
      rw [Set.eq_empty_iff_forall_notMem]
      rintro p ⟨q, hq, _⟩
      exact hvisible hq.1
    have hdraw : (fun vram => if Visible (s.windows k) then drawWindow (s.windows k) vram else vram) =
        fun vram => vram := funext fun _ => if_neg hvisible
    rw [hcovers, hdraw]
    exact Paints.nothing

/-- A place shows the covering window that is highest in the stack, and the old content where there
is none. -/
def PaintedInOrder (s : Manager) : Prop :=
  ∀ (vram : Vram) (x y : Int), OnScreen x y →
    ((∀ k < s.windowCount, ¬Covers (s.windows k) x y) →
      windowManagerRender s vram (vramIndex x y) = vram (vramIndex x y)) ∧
    ((∃ k < s.windowCount, Covers (s.windows k) x y) →
      ∃ k < s.windowCount, Covers (s.windows k) x y ∧
        (∀ j < s.windowCount, j ≠ k → Covers (s.windows j) x y →
          (s.windows j).zOrder < (s.windows k).zOrder) ∧
        ∀ vram', windowManagerRender s vram (vramIndex x y) =
          drawWindow (s.windows k) vram' (vramIndex x y))

theorem paintedInOrder_of_stacked {s : Manager} (hstacked : Stacked s) (hsized : Sized s) :
    PaintedInOrder s := by
  intro vram x y hscreen
  have hcovers : ∀ k, vramIndex x y ∈ cells {q | Covers (s.windows k) q.1 q.2} ↔
      Covers (s.windows k) x y := fun k => vramIndex_mem_cells hscreen _
  rcases foldl_paints (fun k hk => paints_turn hsized ((mem_sortedWindows s k).mp hk)) vram
    (vramIndex x y) with ⟨hnone, hsame⟩ | ⟨front, k, back, hsorted, hk, hback, hseen⟩
  · refine ⟨fun _ => hsame, ?_⟩
    rintro ⟨k, hk, hcover⟩
    exact absurd ((hcovers k).mpr hcover) (hnone k ((mem_sortedWindows s k).mpr hk))
  · rw [hcovers] at hk
    have hcount : k < s.windowCount := (mem_sortedWindows s k).mp (by rw [hsorted]; simp)
    refine ⟨fun hnone => absurd hk (hnone k hcount), ?_⟩
    intro _
    refine ⟨k, hcount, hk, ?_, ?_⟩
    · intro j hj hjk hcover
      -- the other windows on this place were drawn before
      have hfront : j ∈ front := by
        have hmem := (mem_sortedWindows s j).mpr hj
        rw [hsorted, List.mem_append, List.mem_cons] at hmem
        rcases hmem with hfront | rfl | hmem
        · exact hfront
        · exact absurd rfl hjk
        · exact absurd ((hcovers j).mpr hcover) (hback j hmem)
      have horder := ExchangeSort.sort_sorted (fun i => (s.windows i).zOrder) (fun i => i)
        s.windowCount
      have hle : (s.windows j).zOrder ≤ (s.windows k).zOrder := by
        change (sortedWindows s).Pairwise _ at horder
        rw [hsorted, List.pairwise_append] at horder
        exact horder.2.2 j hfront k List.mem_cons_self
      have hne : (s.windows j).zOrder ≠ (s.windows k).zOrder :=
        fun heq => hjk (((stacked_iff s).mp hstacked).2 j hj k hcount heq)
      exact lt_of_le_of_ne hle hne
    · intro vram'
      rw [windowManagerRender, hseen vram', if_pos hk.1]

/-! ## Histories -/

/-- The calls that create a window of a proper size, raise or lower one. -/
def Arranges : Call → Prop
  | .createWindow _ _ width height _ => 1 ≤ width ∧ 1 ≤ height
  | .setFocus _ => False
  | .raiseWindow _ => True
  | .lowerWindow _ => True

instance : DecidablePred Arranges := fun c =>
  match c with
  | .createWindow _ _ _ _ _ => inferInstanceAs (Decidable (_ ∧ _))
  | .setFocus _ => inferInstanceAs (Decidable False)
  | .raiseWindow _ => inferInstanceAs (Decidable True)
  | .lowerWindow _ => inferInstanceAs (Decidable True)

theorem sized_createWindow {s : Manager} (h : Sized s) (x y : Int) {width height : Int}
    (hwidth : 1 ≤ width) (hheight : 1 ≤ height) (title : Option (List UInt8)) :
    Sized (windowManagerCreateWindow x y width height title s) := by
  unfold windowManagerCreateWindow
  split
  · exact h
  · intro k hk
    dsimp only at hk ⊢
    by_cases hlast : k = s.windowCount
    · subst hlast
      rw [Function.update_self]
      exact ⟨hwidth, hheight⟩
    · rw [Function.update_of_ne hlast]
      exact h k (by omega)

/-- Windows that only change places keep their sizes. -/
theorem Sized.of_moves {s s' : Manager} (h : Sized s) {moves : Int → Int → Bool}
    (hirrefl : ∀ z, moves z z = false) {d z : Int} {i : Nat}
    (hcount : s'.windowCount = s.windowCount)
    (hwindows : s'.windows = setZOrder (shiftLoop moves d i s.windows 0 s.windowCount) i z) :
    Sized s' := by
  intro k hk
  rw [hcount] at hk
  rw [hwindows, setZOrder_shiftLoop hirrefl]
  split_ifs with hki hmoves
  · subst hki
    exact h k hk
  · exact h k hk
  · exact h k hk

theorem sized_raiseWindow {s : Manager} (h : Sized s) (windowId : Int) :
    Sized (windowManagerRaiseWindow windowId s) := by
  unfold windowManagerRaiseWindow
  cases findWindow windowId s with
  | none => exact h
  | some i => exact h.of_moves (by simp) rfl rfl

theorem sized_lowerWindow {s : Manager} (h : Sized s) (windowId : Int) :
    Sized (windowManagerLowerWindow windowId s) := by
  unfold windowManagerLowerWindow
  cases findWindow windowId s with
  | none => exact h
  | some i => exact h.of_moves (by simp) rfl rfl

theorem stacked_sized_step {s : Manager} {c : Call} (h : Stacked s ∧ Sized s) (hc : Arranges c) :
    Stacked (step s c) ∧ Sized (step s c) := by
  cases c with
  | createWindow x y width height title =>
    exact ⟨stacked_createWindow h.1 x y width height title,
      sized_createWindow h.2 x y hc.1 hc.2 title⟩
  | setFocus windowId => exact absurd hc not_false
  | raiseWindow windowId => exact ⟨stacked_raiseWindow h.1 windowId, sized_raiseWindow h.2 windowId⟩
  | lowerWindow windowId => exact ⟨stacked_lowerWindow h.1 windowId, sized_lowerWindow h.2 windowId⟩

/-- **Windows are painted in stacking order.** After windows of any position, size and title were
created, raised and lowered in any order, `window_manager_render` leaves on every place of the screen
what the highest window that covers it draws there, and the old content where none does. -/
theorem windows_painted_in_order (s : Manager) (calls : List Call) (h : ∀ c ∈ calls, Arranges c) :
    PaintedInOrder (calls.foldl step (windowManagerInitialize s)) := by
  have hreached : Stacked (calls.foldl step (windowManagerInitialize s)) ∧
      Sized (calls.foldl step (windowManagerInitialize s)) := by
    apply List.foldlRecOn calls step (motive := fun t => Stacked t ∧ Sized t)
    · exact ⟨stacked_initial s, fun k hk => absurd hk (Nat.not_lt_zero k)⟩
    · intro t ht c hc
      exact stacked_sized_step ht (h c hc)
  exact paintedInOrder_of_stacked hreached.1 hreached.2

/-- The two windows of `kernel_main`, and the first of them raised. -/
def consoleRaised : List Call :=
  [.createWindow 2 2 36 10 (some "System Console".toUTF8.data.toList),
    .createWindow 40 2 36 10 (some "Task Monitor".toUTF8.data.toList), .raiseWindow 1]

theorem console_painted_in_order :
    (∀ c ∈ consoleRaised, Arranges c) ∧
      PaintedInOrder (consoleRaised.foldl step (windowManagerInitialize manager)) := by
  have h : ∀ c ∈ consoleRaised, Arranges c := by
    decide
  exact ⟨h, windows_painted_in_order manager consoleRaised h⟩

end CosKernel.WindowManager
