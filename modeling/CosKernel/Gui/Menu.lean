import CosKernel.Gui.Render

/-!
# The context menu (`gui.c`)

A right click that meets no label draws a menu at its place, or as far to the left and up as it has to
be for the menu to end before the last column and row. The menu has a row less than its options need:
the last option is written into its lower edge.
-/

namespace CosKernel.Gui

open Layers Notifications Picture Vga

def menuWidth : Int := 18
def menuHeight : Int := 5

/-- `menu_x` -/
def menuX (r : Resolution) (x : Int) : Int :=
  if x + menuWidth ≥ r.screenWidth then r.screenWidth - menuWidth - 1 else x

/-- `menu_y` -/
def menuY (r : Resolution) (y : Int) : Int :=
  if y + menuHeight ≥ r.screenHeight then r.screenHeight - menuHeight - 1 else y

def menuOptions : List String := ["Open", "Edit", "Move", "Close"]

/-- The loop over the options, with the row of the next one. -/
def drawOptions (left : Int) : List String → Int → Vram → Vram
  | [], _, vram => vram
  | label :: options, y, vram =>
    drawOptions left options (y + 1) (writeString (left + menuWidth - 2) y guiPanelText (chars label) (left + 2) vram)

/-- `draw_context_menu` -/
def drawContextMenu (r : Resolution) (x y : Int) (vram : Vram) : Vram :=
  let left := menuX r x
  let top := menuY r y
  let vram := drawHorizontal r left top menuWidth '-'.toUInt8 guiFrameColor vram
  let vram := drawHorizontal r left (top + menuHeight - 1) menuWidth '-'.toUInt8 guiFrameColor vram
  let vram := drawVertical r left (top + 1) (menuHeight - 2) '|'.toUInt8 guiFrameColor vram
  let vram := drawVertical r (left + menuWidth - 1) (top + 1) (menuHeight - 2) '|'.toUInt8 guiFrameColor vram
  let vram := vgaWriteChar left top '+'.toUInt8 guiFrameColor vram
  let vram := vgaWriteChar (left + menuWidth - 1) top '+'.toUInt8 guiFrameColor vram
  let vram := vgaWriteChar left (top + menuHeight - 1) '+'.toUInt8 guiFrameColor vram
  let vram := vgaWriteChar (left + menuWidth - 1) (top + menuHeight - 1) '+'.toUInt8 guiFrameColor vram
  drawOptions left menuOptions (top + 1) vram

/-- What `gui_handle_mouse_click` draws: the menu, if there is a right click and it takes no branch. -/
def clickDraws (r : Resolution) (x y : Int) (right : Bool) (vram : Vram) : Vram :=
  if right = true ∧ rightClickAction r x y = none then drawContextMenu r x y vram else vram

/-! ## What they show -/

/-- The options, one in each row. -/
def optionItems (left : Int) : List String → Int → Items
  | [], _ => []
  | label :: options, y =>
    item .text (line (left + menuWidth - 2) y guiPanelText (chars label) (left + 2)) ++ optionItems left options (y + 1)

/-- The parts of the menu. -/
def menuItems (r : Resolution) (x y : Int) : Items :=
  let left := menuX r x
  let top := menuY r y
  item .text (block left top (min (left + menuWidth) r.screenWidth) (top + 1) '-'.toUInt8 guiFrameColor) ++
    item .text (block left (top + menuHeight - 1) (min (left + menuWidth) r.screenWidth) (top + menuHeight - 1 + 1)
      '-'.toUInt8 guiFrameColor) ++
    item .text (block left (top + 1) (left + 1) (min (top + 1 + (menuHeight - 2)) r.screenHeight) '|'.toUInt8
      guiFrameColor) ++
    item .text (block (left + menuWidth - 1) (top + 1) (left + menuWidth - 1 + 1)
      (min (top + 1 + (menuHeight - 2)) r.screenHeight) '|'.toUInt8 guiFrameColor) ++
    item .text (dot left top '+'.toUInt8 guiFrameColor) ++
    item .text (dot (left + menuWidth - 1) top '+'.toUInt8 guiFrameColor) ++
    item .text (dot left (top + menuHeight - 1) '+'.toUInt8 guiFrameColor) ++
    item .text (dot (left + menuWidth - 1) (top + menuHeight - 1) '+'.toUInt8 guiFrameColor) ++
    optionItems left menuOptions (top + 1)

/-- The parts a click adds to the screen. -/
def clickItems (r : Resolution) (x y : Int) (right : Bool) : Items :=
  if right = true ∧ rightClickAction r x y = none then menuItems r x y else []

theorem depicts_options (left : Int) (options : List String) (y : Int) :
    Depicts screen (optionItems left options y) (drawOptions left options y) := by
  induction options generalizing y with
  | nil => exact Depicts.nothing
  | cons label options ih => exact (Depicts.single (shows_string _ _ _ _ _) Part.text).comp (ih (y + 1))

theorem depicts_contextMenu (r : Resolution) (x y : Int) :
    Depicts screen (menuItems r x y) (drawContextMenu r x y) :=
  ((((((((depicts_horizontal r .text _ _ _ _ _).comp (depicts_horizontal r .text _ _ _ _ _)).comp
    (depicts_vertical r .text _ _ _ _ _)).comp (depicts_vertical r .text _ _ _ _ _)).comp
    (depicts_char .text _ _ _ _)).comp (depicts_char .text _ _ _ _)).comp (depicts_char .text _ _ _ _)).comp
    (depicts_char .text _ _ _ _)).comp (depicts_options _ _ _)

theorem depicts_click (r : Resolution) (x y : Int) (right : Bool) :
    Depicts screen (clickItems r x y right) (clickDraws r x y right) := by
  by_cases hmenu : right = true ∧ rightClickAction r x y = none
  · have hdraw : clickDraws r x y right = drawContextMenu r x y := funext fun _ => if_pos hmenu
    rw [hdraw, clickItems, if_pos hmenu]
    exact depicts_contextMenu r x y
  · have hdraw : clickDraws r x y right = fun vram => vram := funext fun _ => if_neg hmenu
    rw [hdraw, clickItems, if_neg hmenu]
    exact Depicts.nothing

/-! ## Where the menu is -/

/-- The parts have no content outside of these rows. -/
def Between (top bottom : Int) (items : Items) : Prop :=
  ∀ q : Int × Int, q.2 < top ∨ bottom ≤ q.2 → contents items q = none

theorem Between.append {top bottom : Int} {items items' : Items} (h : Between top bottom items)
    (h' : Between top bottom items') : Between top bottom (items ++ items') := by
  intro q hq
  rw [contents_append, h q hq, h' q hq]
  rfl

theorem between_item {top bottom : Int} {tag : Part} {content : Contents}
    (h : ∀ q : Int × Int, q.2 < top ∨ bottom ≤ q.2 → content q = none) : Between top bottom (item tag content) := by
  intro q hq
  rw [item, contents_cons]
  exact h q hq

theorem between_block {top bottom : Int} {tag : Part} {x y right low : Int} {c color : UInt8} (hy : top ≤ y)
    (hlow : low ≤ bottom) : Between top bottom (item tag (block x y right low c color)) := by
  apply between_item
  intro q hq
  exact if_neg (by omega)

theorem between_dot {top bottom : Int} {tag : Part} {x y : Int} {c color : UInt8} (hy : top ≤ y) (hlow : y < bottom) :
    Between top bottom (item tag (dot x y c color)) := by
  rw [dot_eq_block]
  exact between_block hy hlow

theorem between_options {top bottom : Int} (left : Int) (options : List String) {y : Int} (hy : top ≤ y)
    (hlow : y + options.length ≤ bottom) : Between top bottom (optionItems left options y) := by
  induction options generalizing y with
  | nil => exact fun _ _ => rfl
  | cons label options ih =>
    rw [List.length_cons] at hlow
    refine (between_item ?_).append (ih (by omega) (by omega))
    intro q hq
    exact if_neg (by omega)

/-- The five rows of the menu. -/
theorem between_menu (r : Resolution) (x y : Int) :
    Between (menuY r y) (menuY r y + menuHeight) (menuItems r x y) := by
  have hheight : menuHeight = 5 := rfl
  have hoptions : menuOptions.length = 4 := rfl
  exact ((((((((between_block (by omega) (by omega)).append (between_block (by omega) (by omega))).append
    (between_block (by omega) (by omega))).append (between_block (by omega) (by omega))).append
    (between_dot (by omega) (by omega))).append (between_dot (by omega) (by omega))).append
    (between_dot (by omega) (by omega))).append (between_dot (by omega) (by omega))).append
    (between_options _ _ (by omega) (by omega))

/-- On the screen of the boot the menu ends above the row of the mouse status. -/
theorem clickItems_below {r : Resolution} (hr : r.screenHeight = 24) (x y : Int) (right : Bool) {q : Int × Int}
    (hq : 23 ≤ q.2) : contents (clickItems r x y right) q = none := by
  unfold clickItems
  split
  · apply between_menu r x y
    right
    unfold menuY menuHeight
    rw [hr]
    split
    · omega
    · omega
  · rfl

end CosKernel.Gui
