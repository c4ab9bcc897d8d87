import CosKernel.Gui.Desktop

/-!
# What the desktop shows

The picture of the desktop, part by part in the order of `gui_render`, with tags that say what a
part is. Each drawing of the source shows its parts, whatever the sizes and places are and whatever
was on the screen, and so `gui_render` shows all of them, the last one on top.
-/

namespace CosKernel.Gui

open Layers Notifications Picture Vga

/-- What a part of the desktop is. -/
inductive Part where
  | background
  | text
  | button (action : Action)
  | taskbar
  | guiWindow
  | window
  | notification
  | controlCenter
  | launcher
deriving DecidableEq

/-- What a label is for. -/
def Part.action : Part → Option Action
  | .button action => some action
  | _ => none

abbrev Items := List (Item (Int × Int) UInt16 Part)

/-- One part. -/
def item (tag : Part) (content : Contents) : Items := [⟨tag, content⟩]

section Drawings

variable (r : Resolution)

theorem depicts_horizontal (tag : Part) (x y length : Int) (glyph color : UInt8) :
    Depicts screen (item tag (block x y (min (x + length) r.screenWidth) (y + 1) glyph color))
      (drawHorizontal r x y length glyph color) := by
  refine Depicts.single ((shows_row x y (min length (r.screenWidth - x)).toNat glyph color).congr ?_) tag
  intro q _
  unfold block
  congr 1
  rw [eq_iff_iff]
  omega

theorem depicts_vertical (tag : Part) (x y length : Int) (glyph color : UInt8) :
    Depicts screen (item tag (block x y (x + 1) (min (y + length) r.screenHeight) glyph color))
      (drawVertical r x y length glyph color) := by
  refine Depicts.single ((shows_column x y (min length (r.screenHeight - y)).toNat glyph color).congr ?_) tag
  intro q _
  unfold block
  congr 1
  rw [eq_iff_iff]
  omega

theorem depicts_char (tag : Part) (x y : Int) (c color : UInt8) :
    Depicts screen (item tag (dot x y c color)) (vgaWriteChar x y c color) :=
  Depicts.single (shows_writeChar x y c color) tag

end Drawings

/-! ## Panels -/

section Bars

variable (r : Resolution)

def statusBarItems : Items :=
  item .background (block 0 0 (min (0 + r.screenWidth) r.screenWidth) (min (0 + 1) r.screenHeight) ' '.toUInt8
      guiStatusColor) ++
    item .text (line r.screenWidth 0 guiStatusText (chars ".C OS") 1) ++
    item .text (line r.screenWidth 0 guiStatusText (chars "Online | WiFi | 89% Battery") 10) ++
    item (.button .notificationCenterToggle)
      (line r.screenWidth 0 guiStatusText (chars "[N]") (r.screenWidth - 18)) ++
    item (.button .controlCenterToggle)
      (line r.screenWidth 0 guiStatusText (chars "[C]") (r.screenWidth - 10))

def iconItems : Items :=
  item (.button (.appLaunch "Files")) (line r.screenWidth 2 guiPanelText (chars "[Files]") 2) ++
    item (.button (.appLaunch "Terminal")) (line r.screenWidth 4 guiPanelText (chars "[Term ]") 2) ++
    item (.button (.appLaunch "Settings")) (line r.screenWidth 6 guiPanelText (chars "[Sets ]") 2) ++
    item .text (line r.screenWidth 2 guiPanelText (chars "[Web  ]") 14) ++
    item .text (line r.screenWidth 4 guiPanelText (chars "[Edit ]") 14)

/-- The labels that `draw_floating_taskbar` writes as one text, with the blanks between them. -/
def taskbarLabels : Items :=
  let label (part : Part) (text : String) (x : Int) :=
    item part (line r.screenWidth (taskbarY r + 1) guiPanelText (chars text) x)
  label (.button (.appLaunch "Files")) "[Files]" 6 ++ label .text " " 13 ++
    label (.button (.appLaunch "Terminal")) "[Term]" 14 ++ label .text " " 20 ++
    label (.button (.appLaunch "Settings")) "[Sets]" 21 ++ label .text " " 27 ++
    label (.button (.appLaunch "Web")) "[Web]" 28 ++ label .text " " 33 ++
    label (.button (.appLaunch "Edit")) "[Edit]" 34

def taskbarButtons : Items :=
  taskbarLabels r ++
    item (.button .notificationCenterToggle)
      (line r.screenWidth (taskbarY r + 1) guiPanelText (chars "[NOTIF]") (r.screenWidth - 18)) ++
    item (.button .controlCenterToggle)
      (line r.screenWidth (taskbarY r + 1) guiPanelText (chars "[CTRL]") (r.screenWidth - 10))

end Bars

/-! ## Windows -/

end CosKernel.Gui
