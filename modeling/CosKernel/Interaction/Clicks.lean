import CosKernel.Gui.Clicks
import CosKernel.Interaction.Pass

/-!
# Every run of the shell, the mice and the desktop

The events that the shell takes from the mouse queue are, in their order, some of those the polls found.
Each moves the mouse, and each with a button down is one click, at the place it moved the mouse to. The
clicks change the desktop, but nothing draws it again: outside of the shell's rows the screen keeps what
`gui_render` drew at boot, under the menus of right clicks.
-/

namespace CosKernel.Interaction

open BoundedQueue Input Picture Vga
open Shell (Elsewhere Poll Session passKeyboard)

variable {entries : AppLauncher.Entries}

/-! ## The clicks of a list of events -/

/-- Where the mouse is after these events. -/
def followed (start : Int × Int) (events : List MouseEventT) : Int × Int :=
  events.foldl (fun place e => follow place e.motion) start

/-- The clicks that these events are, with the mouse at `start` before them. -/
def clicks (start : Int × Int) : List MouseEventT → List Click
  | [] => []
  | e :: events =>
    let place := follow start e.motion
    (if pressed e then [clickAt place e] else []) ++ clicks place events

/-- What the clicks draw. -/
def menus (r : Gui.Resolution) (made : List Click) : Gui.Items := made.flatMap fun c => Gui.clickItems r c.x c.y c.right

theorem clicks_append (start : Int × Int) (events events' : List MouseEventT) :
    clicks start (events ++ events') = clicks start events ++ clicks (followed start events) events' := by
  induction events generalizing start with
  | nil => rfl
  | cons e events ih =>
    rw [List.cons_append, clicks, ih, clicks, List.append_assoc]
    rfl

theorem clamp_bounds {bound v : Int} (h : 0 ≤ bound) : 0 ≤ clamp bound v ∧ clamp bound v ≤ bound := by
  unfold clamp
  split
  · omega
  · split
    · omega
    · omega

/-- Every click is on the screen of the boot. -/
theorem clicks_on_screen (start : Int × Int) (events : List MouseEventT) :
    ∀ c ∈ clicks start events, 0 ≤ c.x ∧ c.x < 80 ∧ 0 ≤ c.y ∧ c.y < 24 := by
  induction events generalizing start with
  | nil => exact fun _ hmem => absurd hmem List.not_mem_nil
  | cons e events ih =>
    intro c hmem
    rcases List.mem_append.mp hmem with hmem | hmem
    · split at hmem
      · rw [List.mem_singleton] at hmem
        have hx := clamp_bounds (v := start.1 + e.motion.dx) (by omega : (0 : Int) ≤ 79)
        have hy := clamp_bounds (v := start.2 - e.motion.dy) (by omega : (0 : Int) ≤ 23)
        rw [hmem]
        exact ⟨hx.1, lt_of_le_of_lt hx.2 (by omega), hy.1, lt_of_le_of_lt hy.2 (by omega)⟩
      · exact absurd hmem List.not_mem_nil
    · exact ih _ c hmem

/-- The desktops of a run have one resolution. -/
theorem booted_resolution {l : AppLauncher.Launcher} {d d' : Gui.Desktop} (h : Gui.Booted entries l d)
    (h' : Gui.Booted entries l d') : d'.resolution = d.resolution := by
  have hwidth := h'.width.trans h.width.symm
  have hheight := h'.height.trans h.height.symm
  rcases hd : d.resolution with ⟨width, height, _, _⟩
  rcases hd' : d'.resolution with ⟨width', height', _, _⟩
  rw [hd, hd'] at hwidth hheight
  obtain rfl : width' = width := hwidth
  obtain rfl : height' = height := hheight
  rfl

/-- The first places of the row 23 show where the mouse is, and the buttons of the event. -/
def ShowsStatus (place : Int × Int) (e : MouseEventT) (vram : Vram) : Prop :=
  ∀ i : Nat, i < 15 →
    vram (vramIndex i 23) = cell ((statusText place.1 place.2 e.left e.right e.middle).getD i 0) 0x0F

/-! ## The invariant -/

/-- The shell is at most 30 events behind. -/
def Machine.KeepsUp (m : Machine entries) : Prop := m.found.length ≤ m.taken.length + 30

/-- No event was lost. -/
def Complete (m : Machine entries) (q : Queues) : Prop := m.found = m.taken ++ q.mouse

/-- `base` is the screen as the boot leaves it, and `first` the desktop. -/
structure Inv (taskStacks : UInt64) (l : AppLauncher.Launcher) (first : Gui.Desktop) (base : Vram)
    (m : Machine entries) (q : Queues) : Prop where
  represents : Represents m.session.devices q
  nonzero : 0 ∉ q.keys
  line : ∃ kept, Shell.Holds kept m.session.shell
  initialized : q.control.mouseInitialized = true
  order : (m.taken ++ q.mouse).Sublist m.found
  place : (q.control.mouseX, q.control.mouseY) = followed (40, 12) m.taken
  booted : Gui.Booted entries l m.desktop
  ran : Run.exec (Gui.Desktop.step taskStacks) first m.calls = some m.desktop
  made : m.calls.filterMap clickOf = clicks (40, 12) m.taken
  resolution : m.desktop.resolution = first.resolution
  screen : ∀ x y, OnScreen x y → y ≠ 22 → y ≠ 23 →
    m.screen (vramIndex x y) =
      (contents (menus first.resolution (clicks (40, 12) m.taken)) (x, y)).getD (base (vramIndex x y))

/-! ## One pass -/

/-- The machine behind the poll of `mouse_has_event`. -/
def afterPoll (p : MousePoll) (m : Machine entries) : Machine entries :=
  { m.update (pollUsbMouse p.hasMouse (mousePollPs2 p.status p.data m.session.devices)) m.screen with
    found := m.found ++ pollFinds p m.session.devices }

/-- The mice's half behind `mouse_initialize`. -/
theorem passMouse_eq {m : Machine entries} (hinit : m.session.devices.control.mouseInitialized = true)
    (taskStacks : UInt64) (p : MousePoll) :
    passMouse taskStacks p m =
      let polled := (afterPoll p m).session.devices
      if polled.mouse.head = polled.mouse.tail then some (afterPoll p m)
      else serveEvent taskStacks (mouseGetEvent polled).1 (mouseGetEvent polled).2 (afterPoll p m) := by
  unfold passMouse mouseHasEvent
  rw [if_pos hinit, if_pos hinit]
  change (if decide ((afterPoll p m).session.devices.mouse.head ≠ (afterPoll p m).session.devices.mouse.tail) = true
    then _ else _) = _
  by_cases hmeet : (afterPoll p m).session.devices.mouse.head = (afterPoll p m).session.devices.mouse.tail
  · rw [if_neg (by simpa using hmeet)]
    exact (if_pos hmeet).symm
  · rw [if_pos (by simpa using hmeet)]
    exact (if_neg hmeet).symm

/-- `mouse_get_event` takes the oldest event and moves the mouse. -/
theorem mouseGetEvent_spec {s : Devices} {q : Queues} {e : MouseEventT} {rest : List MouseEventT}
    (h : Represents s q) (hq : q.mouse = e :: rest) :
    (mouseGetEvent s).1 = e ∧
      Represents (mouseGetEvent s).2 { q with mouse := rest, control := moveMouse e q.control } := by
  rcases represents_mouseGetEvent h with ⟨hevent, hrep⟩
  unfold Queues.perform at hevent hrep
  rw [hq] at hevent hrep
  exact ⟨Result.event.inj hevent, hrep⟩

section Pass

variable {taskStacks : UInt64} {l : AppLauncher.Launcher} {first : Gui.Desktop} {base : Vram}
  {m : Machine entries} {q : Queues}

/-- The keyboards' half. -/
theorem Inv.keyboards (h : Inv taskStacks l first base m q) (hasData readChar : Poll) :
    ∃ session q', passKeyboard hasData readChar m.session = some session ∧ q'.mouse = q.mouse ∧
      Inv taskStacks l first base { m with session := session } q' := by
  rcases h.line with ⟨kept, hholds⟩
  rcases passKeyboard_spec h.represents h.nonzero hholds hasData readChar with
    ⟨session, q', kept', hpass, hrep, hnonzero, hholds', hsame, helse⟩
  unfold mouseOf at hsame
  simp only [Prod.mk.injEq] at hsame
  rcases hsame with ⟨hmouse, -, hx, hy, hinit⟩
  refine ⟨session, q', hpass, hmouse, ?_⟩
  refine ⟨hrep, hnonzero, ⟨kept', hholds'⟩, hinit.trans h.initialized, ?_, ?_, h.booted, h.ran, h.made,
    h.resolution, ?_⟩
  · rw [hmouse]
    exact h.order
  · rw [hx, hy]
    exact h.place
  · intro x y hscreen h22 h23
    exact (helse x y hscreen h22 h23).trans (h.screen x y hscreen h22 h23)

/-- The poll of the mice. -/
theorem Inv.poll (h : Inv taskStacks l first base m q) (p : MousePoll) :
    Inv taskStacks l first base (afterPoll p m) (mousePolled p q) ∧
      (Complete m q → q.mouse.length + (queueFinds p q).length ≤ mouseCapacity →
        Complete (afterPoll p m) (mousePolled p q)) := by
  rcases mousePolled_spec p q with ⟨⟨new, hnew, hsub, hall⟩, hkeys, hplace, hinit⟩
  have hfinds := pollFinds_eq h.represents p
  refine ⟨⟨represents_pollUsbMouse (represents_mousePollPs2 h.represents _ _) _, ?_, h.line,
    hinit.trans h.initialized, ?_, hplace.trans h.place, h.booted, h.ran, h.made, h.resolution, h.screen⟩, ?_⟩
  · rw [hkeys]
    exact h.nonzero
  · show (m.taken ++ (mousePolled p q).mouse).Sublist (m.found ++ pollFinds p m.session.devices)
    rw [hnew, hfinds, ← List.append_assoc]
    exact h.order.append hsub
  · intro hcomplete hroom
    show m.found ++ pollFinds p m.session.devices = m.taken ++ (mousePolled p q).mouse
    rw [hnew, hfinds, hall hroom, ← List.append_assoc, hcomplete]

/-- The status and the menu leave the other rows of the screen to what was there. -/
theorem screen_served {menu : Vram → Vram} {items : Gui.Items} (hmenu : Depicts screen items menu)
    (place : Int × Int) (e : MouseEventT) (vram : Vram) {x y : Int} (hscreen : OnScreen x y) (h23 : y ≠ 23) :
    menu (drawMouseStatus 0 23 place.1 place.2 e.left e.right e.middle vram) (vramIndex x y) =
      (contents items (x, y)).getD (vram (vramIndex x y)) := by
  have hstatus := shows_status place.1 place.2 e.left e.right e.middle vram (x, y) hscreen
  have hrow : placed 23 0x0F (statusText place.1 place.2 e.left e.right e.middle) 0 (x, y) = none :=
    if_neg fun hrow => h23 hrow.1
  rw [hrow] at hstatus
  have hshown := hmenu (drawMouseStatus 0 23 place.1 place.2 e.left e.right e.middle vram) (x, y) hscreen
  rw [hstatus] at hshown
  exact hshown

/-- The status that is drawn for an event. -/
def status (devices : Devices) (e : MouseEventT) : Vram → Vram :=
  drawMouseStatus 0 23 (position devices).1 (position devices).2 e.left e.right e.middle

theorem serveEvent_moved {e : MouseEventT} {devices : Devices} (hpressed : ¬pressed e = true) :
    serveEvent taskStacks e devices m =
      some { m.update devices (status devices e m.screen) with taken := m.taken ++ [e] } := by
  unfold serveEvent
  exact if_neg hpressed

theorem serveEvent_pressed {e : MouseEventT} {devices : Devices} (hpressed : pressed e = true) {desktop : Gui.Desktop}
    (hclick : Gui.guiHandleMouseClick taskStacks (position devices).1 (position devices).2 e.left e.right e.middle
      m.desktop = some desktop) :
    serveEvent taskStacks e devices m =
      some { m.update devices (Gui.clickDraws m.desktop.resolution (position devices).1 (position devices).2 e.right
          (status devices e m.screen)) with
        desktop := desktop
        taken := m.taken ++ [e]
        calls := m.calls ++ [.mouseClick (position devices).1 (position devices).2 e.left e.right e.middle] } := by
  unfold serveEvent
  dsimp only
  rw [if_pos hpressed]
  show (Gui.guiHandleMouseClick taskStacks (position devices).1 (position devices).2 e.left e.right e.middle
    m.desktop).map _ = _
  rw [hclick]
  rfl

/-- The status stays visible under a menu that ends above it. -/
theorem status_shown {menu : Vram → Vram} {items : Gui.Items} (hmenu : Depicts screen items menu)
    (hbelow : ∀ q : Int × Int, 23 ≤ q.2 → contents items q = none) (devices : Devices) (e : MouseEventT)
    (vram : Vram) : ShowsStatus (position devices) e (menu (status devices e vram)) := by
  intro i hi
  have hscreen : OnScreen i 23 := ⟨Int.natCast_nonneg i, by unfold vgaWidth; omega, by omega, by unfold vgaHeight; omega⟩
  have hlength : i < (statusText (position devices).1 (position devices).2 e.left e.right e.middle).length := hi
  have hstatus := shows_status (position devices).1 (position devices).2 e.left e.right e.middle vram (i, 23) hscreen
  have hplaced : placed 23 0x0F (statusText (position devices).1 (position devices).2 e.left e.right e.middle) 0 (i, 23) =
      some (cell ((statusText (position devices).1 (position devices).2 e.left e.right e.middle).getD i 0) 0x0F) := by
    unfold placed
    rw [if_pos ⟨rfl, Int.natCast_nonneg i⟩, sub_zero, Int.toNat_natCast, List.getElem?_eq_getElem hlength,
      List.getD_eq_getElem _ _ hlength]
    rfl
  have hshown := hmenu (status devices e vram) (i, 23) hscreen
  rw [hbelow (i, 23) (le_refl 23)] at hshown
  rw [hplaced] at hstatus
  exact hshown.trans hstatus

/-- The event that is served is one more that was taken. -/
theorem Inv.serve (h : Inv taskStacks l first base m q) {e : MouseEventT} {rest : List MouseEventT}
    (hq : q.mouse = e :: rest) {devices : Devices}
    (hrep : Represents devices { q with mouse := rest, control := moveMouse e q.control }) :
    ∃ m', serveEvent taskStacks e devices m = some m' ∧
      Inv taskStacks l first base m' { q with mouse := rest, control := moveMouse e q.control } ∧
      m'.found = m.found ∧ m'.taken = m.taken ++ [e] ∧
      m'.session.devices = devices ∧ ShowsStatus (position devices) e m'.screen := by
  have hmoved : ((moveMouse e q.control).mouseX, (moveMouse e q.control).mouseY) =
      followed (40, 12) (m.taken ++ [e]) := by
    unfold followed
    rw [List.foldl_append]
    show follow (q.control.mouseX, q.control.mouseY) e.motion = _
    rw [h.place]
    rfl
  have hplace : position devices = followed (40, 12) (m.taken ++ [e]) := by
    unfold position
    rw [hrep.control]
    exact hmoved
  have horder : ((m.taken ++ [e]) ++ rest).Sublist m.found := by
    have horder := h.order
    rw [hq, List.append_cons] at horder
    exact horder
  have hclicks : clicks (40, 12) (m.taken ++ [e]) =
      clicks (40, 12) m.taken ++ (if pressed e then [clickAt (position devices) e] else []) := by
    rw [clicks_append, hplace]
    unfold followed
    rw [List.foldl_append, clicks, clicks, List.append_nil]
    rfl
  rcases h.line with ⟨kept, hholds⟩
  -- the shell's variables do not depend on the screen
  have hline : ∀ vram, ∃ kept, Shell.Holds kept { m.session.shell with vram := vram } :=
    fun _ => ⟨kept, hholds.pos, hholds.le, hholds.text, hholds.nonzero, hholds.x, hholds.y⟩
  by_cases hpressed : pressed e = true
  · rcases h.booted.mouseClick taskStacks (position devices).1 (position devices).2 e.left e.right e.middle with
      ⟨desktop, hclick, hbooted⟩
    rw [if_pos hpressed] at hclicks
    refine ⟨_, serveEvent_pressed hpressed hclick,
      ⟨hrep, h.nonzero, hline _, h.initialized, horder, hmoved, hbooted, ?_, ?_, ?_, ?_⟩, rfl, rfl, rfl, ?_⟩
    · show Run.exec _ first (m.calls ++ [_]) = _
      rw [Run.exec_append, h.ran, Option.bind_some, Run.exec]
      show (Gui.guiHandleMouseClick _ _ _ _ _ _ _).bind _ = _
      rw [hclick]
      rfl
    · show (m.calls ++ [_]).filterMap clickOf = clicks (40, 12) (m.taken ++ [e])
      rw [hclicks, List.filterMap_append, h.made]
      rfl
    · exact (booted_resolution h.booted hbooted).trans h.resolution
    · intro x y hscreen h22 h23
      show Gui.clickDraws _ _ _ _ _ _ = (contents (menus _ (clicks (40, 12) (m.taken ++ [e]))) (x, y)).getD _
      rw [hclicks, menus, List.flatMap_append, List.flatMap_singleton, contents_append, Option.getD_or, ← menus,
        ← h.screen x y hscreen h22 h23, h.resolution]
      exact screen_served (Gui.depicts_click _ _ _ _) _ e _ hscreen h23
    · exact status_shown (Gui.depicts_click _ _ _ _) (fun q hq => Gui.clickItems_below h.booted.height _ _ _ hq)
        devices e m.screen
  · rw [if_neg hpressed, List.append_nil] at hclicks
    refine ⟨_, serveEvent_moved hpressed,
      ⟨hrep, h.nonzero, hline _, h.initialized, horder, hmoved, h.booted, h.ran, ?_, h.resolution, ?_⟩, rfl, rfl, rfl, ?_⟩
    · show m.calls.filterMap clickOf = clicks (40, 12) (m.taken ++ [e])
      rw [hclicks]
      exact h.made
    · intro x y hscreen h22 h23
      show _ = (contents (menus _ (clicks (40, 12) (m.taken ++ [e]))) (x, y)).getD _
      rw [hclicks, ← h.screen x y hscreen h22 h23]
      exact screen_served Depicts.nothing (position devices) e m.screen hscreen h23
    · exact status_shown Depicts.nothing (fun _ _ => rfl) devices e m.screen

/-- The mice's half: no event is lost as long as the shell keeps up, and an event that is taken is shown. -/
theorem Inv.mice (h : Inv taskStacks l first base m q) (p : MousePoll) :
    ∃ m' q', passMouse taskStacks p m = some m' ∧ Inv taskStacks l first base m' q' ∧
      (Complete m q → m'.KeepsUp → Complete m' q') ∧
      ∀ e, m'.taken = m.taken ++ [e] → ShowsStatus (position m'.session.devices) e m'.screen := by
  have hinit : m.session.devices.control.mouseInitialized = true := by
    rw [h.represents.control]
    exact h.initialized
  rcases h.poll p with ⟨hpolled, hcomplete⟩
  have hlength : (afterPoll p m).found.length = m.found.length + (queueFinds p q).length := by
    rw [← pollFinds_eq h.represents]
    exact List.length_append
  have hbefore : Complete m q → m.found.length = m.taken.length + q.mouse.length := by
    intro hall
    rw [hall, List.length_append]
  have hcapacity : mouseCapacity = 31 := rfl
  rw [passMouse_eq hinit]
  dsimp only
  cases hmouse : (mousePolled p q).mouse with
  | nil =>
    rw [if_pos (hpolled.represents.mouse.head_eq_tail_iff.2 hmouse)]
    refine ⟨_, _, rfl, hpolled, ?_, ?_⟩
    · intro hall hkeeps
      have hfew : (afterPoll p m).found.length ≤ m.taken.length + 30 := hkeeps
      have hcount := hbefore hall
      exact hcomplete hall (by omega)
    · intro e htaken
      have hsame : m.taken = m.taken ++ [e] := htaken
      exact absurd (List.self_eq_append_right.mp hsame) (List.cons_ne_nil e [])
  | cons e rest =>
    have hsome : (mousePolled p q).mouse ≠ [] := hmouse ▸ List.cons_ne_nil e rest
    rw [if_neg (mt hpolled.represents.mouse.head_eq_tail_iff.1 hsome)]
    rcases mouseGetEvent_spec hpolled.represents hmouse with ⟨hevent, hrep⟩
    rcases hpolled.serve hmouse hrep with ⟨m', hserve, hinv, hfound, htaken, hdevices, hstatus⟩
    rw [hevent]
    refine ⟨m', _, hserve, hinv, ?_, ?_⟩
    · intro hall hkeeps
      have hfew : m'.found.length ≤ m'.taken.length + 30 := hkeeps
      have hcount := hbefore hall
      have hafter : m'.taken.length = m.taken.length + 1 := by
        rw [htaken, List.length_append]
        rfl
      rw [hfound, hafter] at hfew
      have hmore : (afterPoll p m).found = (afterPoll p m).taken ++ (mousePolled p q).mouse :=
        hcomplete hall (by omega)
      rw [hmouse, List.append_cons, ← hfound, ← htaken] at hmore
      exact hmore
    · intro e' htaken'
      rw [htaken] at htaken'
      have hlast : [e] = [e'] := List.append_cancel_left htaken'
      rw [hdevices, ← (List.cons.inj hlast).1]
      exact hstatus

/-- A pass of the loop. -/
theorem Inv.pass (h : Inv taskStacks l first base m q) (hasData readChar : Poll) (p : MousePoll) :
    ∃ m' q', step taskStacks m (.pass hasData readChar p) = some m' ∧ Inv taskStacks l first base m' q' ∧
      (Complete m q → m'.KeepsUp → Complete m' q') ∧
      ∀ e, m'.taken = m.taken ++ [e] → ShowsStatus (position m'.session.devices) e m'.screen := by
  rcases h.keyboards hasData readChar with ⟨session, q₁, hkeyboard, hmouse, hinv₁⟩
  rcases hinv₁.mice p with ⟨m', q', hpass, hinv, hcomplete, hstatus⟩
  refine ⟨m', q', ?_, hinv, ?_, hstatus⟩
  · rw [step, hkeyboard]
    exact hpass
  · intro hall
    apply hcomplete
    show m.found = m.taken ++ q₁.mouse
    rw [hmouse]
    exact hall

/-- Every event leaves the machine in order. -/
theorem Inv.step (h : Inv taskStacks l first base m q) (event : Event entries) :
    ∃ m' q', Interaction.step taskStacks m event = some m' ∧ Inv taskStacks l first base m' q' ∧
      (Complete m q → m'.KeepsUp → Complete m' q') := by
  cases event with
  | pass hasData readChar mouse =>
    rcases h.pass hasData readChar mouse with ⟨m', q', hstep, hinv, hcomplete, -⟩
    exact ⟨m', q', hstep, hinv, hcomplete⟩
  | keyboardReport report =>
    exact ⟨_, _, rfl, ⟨represents_usbProcessKeyboardReport h.represents report, h.nonzero, h.line, h.initialized,
      h.order, h.place, h.booted, h.ran, h.made, h.resolution, h.screen⟩, fun hall _ => hall⟩
  | mouseReport report =>
    have hrep := (represents_perform _ _ (.usbQueueMouseEvent report) h.represents).2
    exact ⟨_, _, rfl, ⟨hrep, h.nonzero, h.line, h.initialized, h.order, h.place, h.booted, h.ran, h.made,
      h.resolution, h.screen⟩, fun hall _ => hall⟩
  | desktop call hcall =>
    rcases h.booted.step taskStacks call with ⟨desktop, hdesktop, hbooted⟩
    refine ⟨{ m with desktop := desktop, calls := m.calls ++ [call] }, q, ?_,
      ⟨h.represents, h.nonzero, h.line, h.initialized, h.order, h.place, hbooted, ?_, ?_,
        (booted_resolution h.booted hbooted).trans h.resolution, h.screen⟩, fun hall _ => hall⟩
    · rw [Interaction.step, hdesktop]
      rfl
    · show Run.exec _ first (m.calls ++ [call]) = _
      rw [Run.exec_append, h.ran, Option.bind_some, Run.exec, hdesktop]
      rfl
    · show (m.calls ++ [call]).filterMap clickOf = _
      rw [List.filterMap_append, List.filterMap_cons_none hcall, List.filterMap_nil, List.append_nil]
      exact h.made

end Pass

/-! ## Runs -/

section Runs

variable (entries : AppLauncher.Entries) (taskStacks : UInt64) (before : Gui.Desktop) (vram : Vram)

/-- The shell's prompt is on one of its own rows. -/
theorem inv_start (first : Gui.Desktop) (base : Vram) {l : AppLauncher.Launcher} (hbooted : Gui.Booted entries l first) :
    Inv taskStacks l first base
      (⟨{ Shell.start base with devices := mouseInitialize powerOn }, first, [], [], []⟩ : Machine entries)
      (Queues.initial (mouseInitialize powerOn).control) where
  represents := represents_initial _ _ _ _ _
  nonzero := List.not_mem_nil
  line := ⟨[], Shell.holds_shellStart base⟩
  initialized := rfl
  order := List.Sublist.refl _
  place := rfl
  booted := hbooted
  ran := rfl
  made := rfl
  resolution := rfl
  screen := (Shell.shows_shellStart base).elsewhere

theorem inv_boot :
    Inv taskStacks before.launcher.launcher (Gui.initialized entries before)
      (Gui.guiRender (Gui.initialized entries before) vram) (boot entries before vram)
      (Queues.initial (mouseInitialize powerOn).control) :=
  inv_start entries taskStacks _ _ (Gui.booted_initialized entries before)

/-- Every run returns, in order, and without a loss as long as the shell keeps up. -/
theorem run_inv (events : List (Event entries)) :
    ∃ m q, Run.exec (step taskStacks) (boot entries before vram) events = some m ∧
      Inv taskStacks before.launcher.launcher (Gui.initialized entries before)
        (Gui.guiRender (Gui.initialized entries before) vram) m q ∧
      ((∀ past m', past <+: events → Run.exec (step taskStacks) (boot entries before vram) past = some m' →
        m'.KeepsUp) → Complete m q) := by
  induction events using List.reverseRecOn with
  | nil => exact ⟨_, _, rfl, inv_boot entries taskStacks before vram, fun _ => rfl⟩
  | append_singleton events event ih =>
    rcases ih with ⟨m, q, hrun, hinv, hall⟩
    rcases hinv.step event with ⟨m', q', hstep, hinv', hkept⟩
    have hrun' : Run.exec (step taskStacks) (boot entries before vram) (events ++ [event]) = some m' := by
      rw [Run.exec_append, hrun, Option.bind_some, Run.exec, hstep]
      rfl
    refine ⟨m', q', hrun', hinv', ?_⟩
    intro hkeeps
    refine hkept (hall ?_) (hkeeps _ m' (List.prefix_refl _) hrun')
    intro past m₁ hpast
    exact hkeeps past m₁ (hpast.trans (List.prefix_append events [event]))

/-- **The mice click the desktop.** Whatever the mice and the keyboards send and the other tasks do, the events
the shell takes are, in their order, some of those the polls found, with the rest still queued, and all of
them as long as the shell keeps up; the mouse is where they moved it. The clicks on the desktop are these
events with a button down, each at the place it moved the mouse to, which is on the screen, and a left click
there takes the branch of the topmost label. The desktop is what the clicks and the other calls made of it. -/
theorem mice_click_the_desktop (events : List (Event entries)) :
    ∃ m pending, Run.exec (step taskStacks) (boot entries before vram) events = some m ∧
      Holds mouseQueueIndex m.session.devices.mouse pending ∧
      (m.taken ++ pending).Sublist m.found ∧
      ((∀ past m', past <+: events → Run.exec (step taskStacks) (boot entries before vram) past = some m' →
        m'.KeepsUp) → m.found = m.taken ++ pending) ∧
      position m.session.devices = followed (40, 12) m.taken ∧
      m.calls.filterMap clickOf = clicks (40, 12) m.taken ∧
      (∀ c ∈ clicks (40, 12) m.taken, OnScreen c.x c.y ∧
        Gui.leftClickAction m.desktop.resolution c.x c.y =
          Gui.seenAction (Gui.labelItems m.desktop.resolution) (c.x, c.y)) ∧
      Run.exec (Gui.Desktop.step taskStacks) (Gui.initialized entries before) m.calls = some m.desktop := by
  rcases run_inv entries taskStacks before vram events with ⟨m, q, hrun, hinv, hall⟩
  refine ⟨m, q.mouse, hrun, hinv.represents.mouse, hinv.order, hall, ?_, hinv.made, ?_, hinv.ran⟩
  · unfold position
    rw [hinv.represents.control]
    exact hinv.place
  · intro c hc
    rcases clicks_on_screen (40, 12) m.taken c hc with ⟨hx, hx', hy, hy'⟩
    refine ⟨⟨hx, hx', hy, lt_trans hy' (by decide)⟩, ?_⟩
    apply Gui.leftClickAction_eq
    rw [hinv.booted.width]
    exact hx'

/-- **The desktop is drawn once.** In every such run the screen outside of the shell's two rows shows the menus
of the right clicks that met no label, one on the other, and below them what `gui_render` drew at boot,
whatever the clicks have made of the desktop; and a pass that takes an event from the mice writes the
mouse status over the first places of the shell's last row. -/
theorem desktop_is_drawn_once (events : List (Event entries)) :
    ∃ m, Run.exec (step taskStacks) (boot entries before vram) events = some m ∧
      (∀ x y, OnScreen x y → y ≠ 22 → y ≠ 23 →
        m.screen (vramIndex x y) =
          (contents (menus m.desktop.resolution (m.calls.filterMap clickOf)) (x, y)).getD
            (Gui.guiRender (Gui.initialized entries before) vram (vramIndex x y))) ∧
      ∀ hasData readChar mouse, ∃ m', step taskStacks m (.pass hasData readChar mouse) = some m' ∧
        ∀ e, m'.taken = m.taken ++ [e] → ShowsStatus (followed (40, 12) m'.taken) e m'.screen := by
  rcases run_inv entries taskStacks before vram events with ⟨m, q, hrun, hinv, -⟩
  refine ⟨m, hrun, ?_, ?_⟩
  · rw [hinv.resolution, hinv.made]
    exact hinv.screen
  · intro hasData readChar mouse
    rcases hinv.pass hasData readChar mouse with ⟨m', q', hstep, hinv', -, hstatus⟩
    refine ⟨m', hstep, ?_⟩
    intro e htaken
    have hplace : position m'.session.devices = followed (40, 12) m'.taken := by
      unfold position
      rw [hinv'.represents.control]
      exact hinv'.place
    rw [← hplace]
    exact hstatus e htaken

end Runs

end CosKernel.Interaction
