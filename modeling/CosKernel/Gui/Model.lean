import CosKernel.Lib.Layers
import CosKernel.Vga.Model

/-!
# The desktop (`gui.c`)

The resolution the desktop is drawn for, and its panels: a filled rectangle with
a frame and a title. A panel that reaches over the screen is cut off there.
-/

namespace CosKernel.Gui

open Layers Vga

def guiPanelColor : UInt8 := 0x2F
def guiPanelText : UInt8 := 0x0F
def guiFrameColor : UInt8 := 0x0F

/-- `screen_width` and `screen_height`; no call makes them anything but positive. -/
structure Resolution where
  screenWidth : Int
  screenHeight : Int
  width_pos : 0 < screenWidth
  height_pos : 0 < screenHeight

/-- The values they start with. -/
def defaultResolution : Resolution := ⟨80, 24, by decide, by decide⟩

/-- `gui_set_resolution` -/
def guiSetResolution (width height : Int) (r : Resolution) : Resolution :=
  if h : width > 0 ∧ height > 0 then ⟨width, height, h.1, h.2⟩ else r

/-- `fill_rect` -/
def fillRect (r : Resolution) (x y width height : Int) (color : UInt8) (vram : Vram) : Vram :=
  loop (fun row =>
    loop (fun col => vgaWriteChar col row ' '.toUInt8 color) x (min (x + width) r.screenWidth - x).toNat)
    y (min (y + height) r.screenHeight - y).toNat vram

/-- `draw_horizontal` -/
def drawHorizontal (r : Resolution) (x y length : Int) (glyph color : UInt8) (vram : Vram) : Vram :=
  loop (fun i => vgaWriteChar (x + i) y glyph color) 0 (min length (r.screenWidth - x)).toNat vram

/-- `draw_vertical` -/
def drawVertical (r : Resolution) (x y length : Int) (glyph color : UInt8) (vram : Vram) : Vram :=
  loop (fun i => vgaWriteChar x (y + i) glyph color) 0 (min length (r.screenHeight - y)).toNat vram

/-- `for (const char* p = title; *p && tx < x + width - 2; p++, tx++)` -/
def drawTitle (right y : Int) : List UInt8 → Int → Vram → Vram
  | [], _, vram => vram
  | c :: p, tx, vram =>
    if c ≠ 0 ∧ tx < right then drawTitle right y p (tx + 1) (vgaWriteChar tx y c guiPanelText vram)
    else vram

/-- `if (title && title[0])` -/
def drawPanelTitle (x y width : Int) (title : Option (List UInt8)) (vram : Vram) : Vram :=
  match title with
  | some title =>
    if title.headD 0 ≠ 0 then drawTitle (x + width - 2) y title (x + 2) vram else vram
  | none => vram

/-- `draw_panel` from `fill_rect` on, with the width and the height cut off. -/
def drawFramed (r : Resolution) (x y width height : Int) (title : Option (List UInt8)) (vram : Vram) :
    Vram :=
  let vram := fillRect r x y width height guiPanelColor vram
  let vram := vgaWriteChar x y '+'.toUInt8 guiFrameColor vram
  let vram := vgaWriteChar (x + width - 1) y '+'.toUInt8 guiFrameColor vram
  let vram := vgaWriteChar x (y + height - 1) '+'.toUInt8 guiFrameColor vram
  let vram := vgaWriteChar (x + width - 1) (y + height - 1) '+'.toUInt8 guiFrameColor vram
  let vram := drawHorizontal r (x + 1) y (width - 2) '-'.toUInt8 guiFrameColor vram
  let vram := drawHorizontal r (x + 1) (y + height - 1) (width - 2) '-'.toUInt8 guiFrameColor vram
  let vram := drawVertical r x (y + 1) (height - 2) '|'.toUInt8 guiFrameColor vram
  let vram := drawVertical r (x + width - 1) (y + 1) (height - 2) '|'.toUInt8 guiFrameColor vram
  drawPanelTitle x y width title vram

/-- `draw_panel` -/
def drawPanel (r : Resolution) (x y width height : Int) (title : Option (List UInt8)) (vram : Vram) :
    Vram :=
  if width < 2 ∨ height < 2 ∨ x < 0 ∨ y < 0 then vram
  else
    let width := if x + width > r.screenWidth then r.screenWidth - x else width
    let height := if y + height > r.screenHeight then r.screenHeight - y else height
    drawFramed r x y width height title vram

end CosKernel.Gui
