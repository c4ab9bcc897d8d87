import CosKernel.Interaction.Model
import CosKernel.Shell.Screen

/-!
# What a pass does to the screen and to the queues

The keyboards' half of a pass leaves the mouse queue and the position alone and types on the rows 22 and
23 only; the mouse's half polls both mice once and serves one event.
-/

namespace CosKernel.Interaction

open BoundedQueue Input Picture Vga
open Shell (Elsewhere Poll Session passKeyboard polled pollDevices represents_polled)

/-! ## The keyboards' half -/

/-- What belongs to the mice. -/
def mouseOf (q : Queues) : List MouseEventT × List Report × Int × Int × Bool :=
  (q.mouse, q.usbMouse, q.control.mouseX, q.control.mouseY, q.control.mouseInitialized)

theorem polled_mouse (p : Poll) (q : Queues) : mouseOf (polled p q) = mouseOf q := by
  have hcontrol : mouseOf (q.pollKeyboard p.status p.data) = mouseOf q := by
    unfold Queues.pollKeyboard mouseOf decodeKey
    split
    · rfl
    · dsimp only
      split
      · rfl
      · split <;> rfl
  unfold polled Queues.pollUsbKeyboard
  split
  · exact hcontrol
  · exact hcontrol

/-- A key changes the two rows the shell types on. -/
theorem shellKey_elsewhere {c : UInt8} {s : Shell.ShellTask} {r : Option (List UInt8) × Shell.ShellTask}
    (hy : 22 ≤ s.y ∧ s.y ≤ 23) (h : Shell.shellKey c s = some r) : Elsewhere s.vram r.2.vram := by
  have hsame : Elsewhere s.vram s.vram := fun _ _ _ _ _ => rfl
  unfold Shell.shellKey at h
  split at h
  · -- Enter: a prompt on the next row
    rcases Option.map_eq_some_iff.mp h with ⟨entered, henter, rfl⟩
    unfold Shell.shellEnter at henter
    rcases Option.bind_eq_some_iff.mp henter with ⟨line, _, hrest⟩
    rcases Option.bind_eq_some_iff.mp hrest with ⟨command, _, hlast⟩
    rw [← Option.some.inj hlast]
    refine Shell.writeText_elsewhere Shell.prompt ?_ hsame
    dsimp only
    split
    · omega
    · omega
  · split at h
    · rw [← Option.some.inj h]
      dsimp only
      unfold Shell.shellBackspace
      split
      · exact hsame.write hy _ _ _
      · exact hsame
    · rcases Option.map_eq_some_iff.mp h with ⟨s', hinsert, rfl⟩
      unfold Shell.shellInsert at hinsert
      split at hinsert
      · rcases Option.bind_eq_some_iff.mp hinsert with ⟨line, _, hlast⟩
        rw [← Option.some.inj hlast]
        exact hsame.write hy _ _ _
      · rw [← Option.some.inj hinsert]
        exact hsame

/-- The keyboards' half always returns, with everything of the mice as it was. -/
theorem passKeyboard_spec {s : Session} {q : Queues} {kept : List UInt8} (hrep : Represents s.devices q)
    (hnonzero : 0 ∉ q.keys) (hholds : Shell.Holds kept s.shell) (hasData readChar : Poll) :
    ∃ s' q' kept', passKeyboard hasData readChar s = some s' ∧ Represents s'.devices q' ∧ 0 ∉ q'.keys ∧
      Shell.Holds kept' s'.shell ∧ mouseOf q' = mouseOf q ∧ Elsewhere s.shell.vram s'.shell.vram := by
  have hrep₁ := represents_polled hrep hasData
  have hnonzero₁ : 0 ∉ (polled hasData q).keys := Queues.not_mem_polled hnonzero _ _ _
  rw [Shell.passKeyboard_eq]
  by_cases hempty : (polled hasData q).keys = []
  · have hhas := hrep₁.keys.head_eq_tail_iff.2 hempty
    simp only [hhas, if_true]
    exact ⟨_, polled hasData q, kept, rfl, hrep₁, hnonzero₁, hholds, polled_mouse hasData q, fun _ _ _ _ _ => rfl⟩
  · have hhas := mt hrep₁.keys.head_eq_tail_iff.1 hempty
    have hrep₂ := represents_polled hrep₁ readChar
    have hnonzero₂ : 0 ∉ (polled readChar (polled hasData q)).keys := Queues.not_mem_polled hnonzero₁ _ _ _
    rcases Shell.polled_keys readChar (polled hasData q) with ⟨taken, htaken, -⟩
    have hkeys : (polled readChar (polled hasData q)).keys ≠ [] := by
      rw [htaken]
      exact List.append_ne_nil_of_left_ne_nil hempty _
    rcases List.exists_cons_of_ne_nil hkeys with ⟨c, rest, hcons⟩
    rw [hcons, List.mem_cons, not_or] at hnonzero₂
    rcases hrep₂.keys.dequeue with ⟨hchar, hrest⟩
    rw [hcons] at hchar hrest
    rcases hholds.shellKey (Ne.symm hnonzero₂.1) with ⟨shell, hkey, hholds'⟩
    simp only [hhas, if_false, hchar, dequeue, Option.getD_some, hkey, Option.map_some]
    refine ⟨_, { polled readChar (polled hasData q) with keys := rest }, _, rfl,
      ⟨hrep₂.control, hrest, hrep₂.mouse, hrep₂.usbKeys, hrep₂.usbMouse⟩, hnonzero₂.2, hholds', ?_,
      shellKey_elsewhere hholds.y hkey⟩
    exact (polled_mouse readChar _).trans (polled_mouse hasData q)

/-! ## The polls of the mice -/

/-- The devices after a poll of the mice. -/
def mousePolled (p : MousePoll) (q : Queues) : Queues := (q.pollPs2 p.status p.data).pollUsb p.hasMouse

/-- `pollFinds` of the abstract machine. -/
def queueFinds (p : MousePoll) (q : Queues) : List MouseEventT :=
  (decodePs2 p.status p.data q.control).2.toList ++
    ((if p.hasMouse then (dequeue q.usbMouse).1 else none).map reportEvent).toList

theorem pollFinds_eq {s : Devices} {q : Queues} (h : Represents s q) (p : MousePoll) :
    pollFinds p s = queueFinds p q := by
  unfold pollFinds queueFinds
  rw [h.control, show (usbDequeueMouseEvent s.usbMouse).1 = (dequeue q.usbMouse).1 from h.usbMouse.dequeue.1]

theorem decodePs2_initialized (status data : UInt8) (control : Control) :
    (decodePs2 status data control).1.mouseInitialized = control.mouseInitialized := by
  unfold decodePs2
  split
  · rfl
  · split
    · rfl
    · dsimp only
      split <;> rfl

/-- A poll appends some of what it finds, and all of it if there is room; it moves nothing. -/
theorem mousePolled_spec (p : MousePoll) (q : Queues) :
    (∃ new, (mousePolled p q).mouse = q.mouse ++ new ∧ new.Sublist (queueFinds p q) ∧
      (q.mouse.length + (queueFinds p q).length ≤ mouseCapacity → new = queueFinds p q)) ∧
      (mousePolled p q).keys = q.keys ∧
      ((mousePolled p q).control.mouseX, (mousePolled p q).control.mouseY) =
        (q.control.mouseX, q.control.mouseY) ∧
      (mousePolled p q).control.mouseInitialized = q.control.mouseInitialized := by
  have hoffers := Shell.offer_offer mouseCapacity (decodePs2 p.status p.data q.control).2
    ((if p.hasMouse then (dequeue q.usbMouse).1 else none).map reportEvent) q.mouse
  have hplace := decodePs2_position p.status p.data q.control
  have hinit := decodePs2_initialized p.status p.data q.control
  unfold mousePolled Queues.pollUsb queueFinds
  by_cases hmouse : p.hasMouse = true
  · simp only [hmouse, if_true] at hoffers ⊢
    exact ⟨hoffers, rfl, hplace, hinit⟩
  · -- only the PS/2 mouse is there
    simp only [hmouse, if_false, Bool.false_eq_true] at hoffers ⊢
    exact ⟨hoffers, rfl, hplace, hinit⟩

/-! ## The mouse status -/

/-- The characters of a text, one place behind the other. -/
def placed (y : Int) (color : UInt8) (text : List UInt8) (x : Int) : Contents := fun q =>
  if q.2 = y ∧ x ≤ q.1 then (text[(q.1 - x).toNat]?).map fun c => cell c color else none

theorem shows_chars (y : Int) (color : UInt8) (text : List UInt8) (x : Int) :
    Shows screen (placed y color text x) (writeChars y color text x) := by
  induction text generalizing x with
  | nil =>
    refine Shows.nothing.congr ?_
    intro q _
    unfold placed
    split <;> rfl
  | cons c text ih =>
    refine (Shows.comp (shows_writeChar x y c color) (ih (x + 1))).congr ?_
    intro q _
    unfold placed dot
    by_cases hq : q = (x, y)
    · subst hq
      rw [if_pos ⟨rfl, le_refl x⟩, if_neg (fun h => absurd h.2 (by omega)), if_pos rfl, Option.none_or, sub_self]
      rfl
    · rw [if_neg hq, Option.or_none]
      by_cases hrow : q.2 = y ∧ x ≤ q.1
      · have hne : q.1 ≠ x := fun heq => hq (Prod.ext heq hrow.1)
        have hoffset : (q.1 - x).toNat = (q.1 - (x + 1)).toNat + 1 := by omega
        rw [if_pos hrow, if_pos ⟨hrow.1, by omega⟩, hoffset, List.getElem?_cons_succ]
      · rw [if_neg hrow, if_neg (by omega)]

/-- The status is written over the first places of the row 23. -/
theorem shows_status (mx my : Int) (left right middle : Bool) :
    Shows screen (placed 23 0x0F (statusText mx my left right middle) 0)
      (drawMouseStatus 0 23 mx my left right middle) := by
  have hdraw : drawMouseStatus 0 23 mx my left right middle =
      writeChars 23 0x0F (statusText mx my left right middle) 0 :=
    funext fun _ => if_neg (by omega)
  rw [hdraw]
  exact shows_chars _ _ _ _

end CosKernel.Interaction
