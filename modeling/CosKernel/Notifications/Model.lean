import CosKernel.Lib.ArrayTable
import CosKernel.Vga.Picture

/-!
# The notification center (`notifications.c`)

A table of at most sixteen notifications. `notification_post` writes behind the last one, and
nothing takes one out. The log messages are left out, and so is the time of a notification, which
nothing reads.
-/

namespace CosKernel.Notifications

open ArrayTable Layers Vga

/-- The characters of a text in the source. -/
def chars (text : String) : List UInt8 := text.toUTF8.data.toList

abbrev maxNotifications : Nat := 16

/-- `notification_t` -/
structure NotificationT where
  title : List UInt8
  message : List UInt8
  priority : Int
  active : Bool
deriving DecidableEq

/-- The static variables; `display_y` is always 2. -/
structure Center where
  notifications : Nat → NotificationT
  notificationCount : Nat
  visible : Bool

/-- `notification_center_initialize` -/
def notificationCenterInitialize (s : Center) : Center where
  notifications := fun i =>
    if i < maxNotifications then { s.notifications i with active := false } else s.notifications i
  notificationCount := 0
  visible := false

/-- `notification_center_toggle` -/
def notificationCenterToggle (s : Center) : Center := { s with visible := !s.visible }

/-- `notification_post` -/
def notificationPost (title message : List UInt8) (priority : Int) (s : Center) : Center :=
  if s.notificationCount ≥ maxNotifications then s
  else
    { s with
      notifications := Function.update s.notifications s.notificationCount ⟨title, message, priority, true⟩
      notificationCount := s.notificationCount + 1 }

/-! ## Drawing -/

/-- A turn of the loop of `notification_center_render` for a notification that is active. -/
def drawNotification (n : NotificationT) (renderY : Int) (vram : Vram) : Vram :=
  let color : UInt8 := if n.priority > 1 then 0x0C else 0x0F
  let vram := vgaWriteChar 75 renderY '+'.toUInt8 color vram
  let vram := loop (fun j => vgaWriteChar j renderY '-'.toUInt8 color) 76 2 vram
  let vram := vgaWriteChar 78 renderY '+'.toUInt8 color vram
  let vram := writeString 78 renderY color n.title 76 vram
  let vram := vgaWriteChar 75 (renderY + 1) '|'.toUInt8 color vram
  let vram := writeString 78 (renderY + 1) 0x07 n.message 76 vram
  let vram := vgaWriteChar 78 (renderY + 1) '|'.toUInt8 color vram
  let vram := vgaWriteChar 75 (renderY + 2) '+'.toUInt8 color vram
  let vram := vgaWriteChar 76 (renderY + 2) '-'.toUInt8 color vram
  let vram := vgaWriteChar 77 (renderY + 2) '-'.toUInt8 color vram
  vgaWriteChar 78 (renderY + 2) '+'.toUInt8 color vram

/-- `for (int i = 0; i < notification_count && render_y < 22; i++)` -/
def renderLoop (notifications : Nat → NotificationT) : Nat → Nat → Int → Vram → Vram
  | 0, _, _, vram => vram
  | turns + 1, i, renderY, vram =>
    if renderY < 22 then
      if (notifications i).active then
        renderLoop notifications turns (i + 1) (renderY + 4) (drawNotification (notifications i) renderY vram)
      else renderLoop notifications turns (i + 1) renderY vram
    else vram

/-- `notification_center_render` -/
def notificationCenterRender (s : Center) (vram : Vram) : Vram :=
  if s.visible then renderLoop s.notifications s.notificationCount 0 2 vram else vram

/-! ## What the table holds -/

/-- The notifications posted since `notification_center_initialize` are `posts`, of which the table
holds the first ones. -/
structure Holds (s : Center) (posts : List NotificationT) : Prop where
  count : s.notificationCount = min maxNotifications posts.length
  table : entries s.notifications s.notificationCount = posts.take maxNotifications

theorem holds_start (s : Center) : Holds (notificationCenterInitialize s) [] := ⟨rfl, rfl⟩

theorem Holds.post {s : Center} {posts : List NotificationT} (h : Holds s posts) (title message : List UInt8)
    (priority : Int) :
    Holds (notificationPost title message priority s) (posts ++ [⟨title, message, priority, true⟩]) := by
  have hcount := h.count
  unfold notificationPost
  split
  · -- the table is full
    have hfull : maxNotifications ≤ posts.length := by omega
    refine ⟨?_, ?_⟩
    · rw [hcount, List.length_append]
      omega
    · rw [h.table, List.take_append_of_le_length hfull]
  · have hroom : posts.length < maxNotifications := by omega
    have hlength : s.notificationCount = posts.length := by omega
    refine ⟨?_, ?_⟩
    · show s.notificationCount + 1 = _
      rw [hlength, List.length_append, List.length_singleton]
      omega
    · show entries (Function.update s.notifications s.notificationCount _) (s.notificationCount + 1) = _
      rw [entries_push, h.table, List.take_of_length_le (by omega), List.take_of_length_le]
      rw [List.length_append, List.length_singleton]
      omega

end CosKernel.Notifications
