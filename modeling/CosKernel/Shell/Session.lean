import CosKernel.Input.Reports
import CosKernel.Shell.LineEditing

/-!
# From the keyboards to the commands

`shell_task` is the only reader of the key queue. Each pass of its loop polls both
keyboards once to see whether there is a character, and once more to read one.
The characters the polls find are offered to the queue; what the queue takes is
read in that order, and the commands are the lines entered of what was read. The
queue takes everything as long as the shell does not fall behind by more than its
254 characters.
-/

namespace CosKernel.Shell

open BoundedQueue Input

/-! ## The session -/

/-- What a poll of the keyboards sees on their ports. -/
structure Poll where
  status : UInt8
  data : UInt8
  hasKeyboard : Bool
deriving DecidableEq

/-- The call has to do with the mouse only. -/
def isMouseCall : Call → Bool
  | .enqueueMouseEvent _ => true
  | .mouseHasEvent _ _ _ => true
  | .mouseGetEvent => true
  | .usbQueueMouseEvent _ => true
  | .usbDequeueMouseEvent => true
  | _ => false

inductive Event where
  /-- A pass of the loop of `shell_task`: what `keyboard_has_data` and then `keyboard_read_char` poll. -/
  | pass (hasData readChar : Poll)
  | keyboardReport (report : Vector UInt8 8)
  | mouse (call : Call) (h : isMouseCall call = true)

/-- The devices and the shell, with the characters that were found and those that were read. -/
structure Session where
  devices : Devices
  shell : ShellTask
  found : List UInt8
  read : List UInt8
  commands : List (List UInt8)

/-- The characters that a poll offers to the queue: one of each keyboard at most. -/
def pollFinds (p : Poll) (s : Devices) : List UInt8 :=
  (decodeKey p.status p.data s.control).2.toList ++
    if p.hasKeyboard then ((usbDequeueKeyboardChar s.usbKeys).1.filter (· ≠ 0)).toList else []

/-- `if (keyboard_has_data()) { char c = keyboard_read_char(); … }` -/
def passKeyboard (hasData readChar : Poll) (s : Session) : Option Session := do
  let (has, devices) := keyboardHasData hasData.status hasData.data hasData.hasKeyboard s.devices
  let found := s.found ++ pollFinds hasData s.devices
  if has then do
    let (c, devices') := keyboardReadChar readChar.status readChar.data readChar.hasKeyboard devices
    let (command, shell) ← shellKey c s.shell
    return ⟨devices', shell, found ++ pollFinds readChar devices, s.read ++ [c], s.commands ++ command.toList⟩
  else return { s with devices := devices, found := found }

def step (s : Session) : Event → Option Session
  | .pass hasData readChar => passKeyboard hasData readChar s
  | .keyboardReport report => some { s with devices := usbProcessKeyboardReport report s.devices }
  | .mouse call _ => some { s with devices := (perform s.devices call).2 }

def start (vram : Vga.Vram) : Session := ⟨powerOn, shellStart vram, [], [], []⟩

/-- The shell is at most 254 characters behind. -/
def Session.KeepsUp (s : Session) : Prop := s.found.length ≤ s.read.length + 254

/-! ## Polls -/

/-- `pollFinds` of the abstract machine. -/
def queueFinds (p : Poll) (q : Queues) : List UInt8 :=
  (decodeKey p.status p.data q.control).2.toList ++
    if p.hasKeyboard then ((dequeue q.usbKeys).1.filter (· ≠ 0)).toList else []

/-- The devices after a poll. -/
def pollDevices (p : Poll) (s : Devices) : Devices :=
  usbKeyboardPoll p.hasKeyboard (keyboardPoll p.status p.data s)

/-- The abstract machine after a poll. -/
def polled (p : Poll) (q : Queues) : Queues :=
  (q.pollKeyboard p.status p.data).pollUsbKeyboard p.hasKeyboard

section Poll

variable {s : Devices} {q : Queues}

theorem pollFinds_eq (h : Represents s q) (p : Poll) : pollFinds p s = queueFinds p q := by
  unfold pollFinds queueFinds
  rw [h.control, show (usbDequeueKeyboardChar s.usbKeys).1 = (dequeue q.usbKeys).1 from h.usbKeys.dequeue.1]

theorem represents_polled (h : Represents s q) (p : Poll) :
    Represents (pollDevices p s) (polled p q) :=
  represents_usbKeyboardPoll (represents_keyboardPoll h p.status p.data) p.hasKeyboard

/-- An offer appends what is offered if there is room, and nothing otherwise. -/
theorem offer_keys {α : Type} (capacity : Nat) (a : Option α) (l : List α) :
    ∃ taken, Queues.offer capacity a l = l ++ taken ∧ taken.Sublist a.toList ∧
      (l.length + a.toList.length ≤ capacity → taken = a.toList) := by
  cases a with
  | none => exact ⟨[], (List.append_nil l).symm, List.Sublist.refl [], fun _ => rfl⟩
  | some a =>
    unfold Queues.offer enqueue
    dsimp only
    split
    · next hfull =>
      refine ⟨[], (List.append_nil l).symm, List.nil_sublist _, ?_⟩
      intro hroom
      rw [Option.toList_some, List.length_singleton] at hroom
      omega
    · exact ⟨[a], rfl, List.Sublist.refl [a], fun _ => rfl⟩

/-- Two offers, one after the other. -/
theorem offer_offer {α : Type} (capacity : Nat) (a b : Option α) (l : List α) :
    ∃ taken, Queues.offer capacity b (Queues.offer capacity a l) = l ++ taken ∧
      taken.Sublist (a.toList ++ b.toList) ∧
      (l.length + (a.toList ++ b.toList).length ≤ capacity → taken = a.toList ++ b.toList) := by
  rcases offer_keys capacity a l with ⟨first, hfirst, hfirstSub, hfirstAll⟩
  rcases offer_keys capacity b (l ++ first) with ⟨second, hsecond, hsecondSub, hsecondAll⟩
  refine ⟨first ++ second, ?_, hfirstSub.append hsecondSub, ?_⟩
  · rw [hfirst, hsecond, List.append_assoc]
  · intro hle
    rw [List.length_append] at hle
    have hall := hfirstAll (by omega)
    rw [List.length_append, hall] at hsecondAll
    rw [hall, hsecondAll (by omega)]

/-- A poll appends some of what it finds, and all of it if that is not more than the queue can take. -/
theorem polled_keys (p : Poll) (q : Queues) :
    ∃ taken, (polled p q).keys = q.keys ++ taken ∧ taken.Sublist (queueFinds p q) ∧
      (q.keys.length + (queueFinds p q).length ≤ keyCapacity → taken = queueFinds p q) := by
  have hoffers := offer_offer keyCapacity (decodeKey p.status p.data q.control).2
    (if p.hasKeyboard then (dequeue q.usbKeys).1.filter (· ≠ 0) else none) q.keys
  unfold polled Queues.pollUsbKeyboard queueFinds
  by_cases hkeyboard : p.hasKeyboard = true
  · simp only [hkeyboard, if_true] at hoffers ⊢
    exact hoffers
  · -- only the PS/2 keyboard is there
    simp only [hkeyboard, if_false, Bool.false_eq_true] at hoffers ⊢
    exact hoffers

end Poll

/-! ## Passes of the loop -/

/-- The queue holds what was found and not yet read, or some of it; the shell is where reading brought it. -/
structure Inv (vram : Vga.Vram) (s : Session) (q : Queues) : Prop where
  represents : Represents s.devices q
  nonzero : 0 ∉ q.keys
  order : (s.read ++ q.keys).Sublist s.found
  readNonzero : ∀ c ∈ s.read, c ≠ 0
  shell : shellRun s.read (shellStart vram) = some (s.commands, s.shell)

theorem shellRun_append (keys keys' : List UInt8) (s : ShellTask) :
    shellRun (keys ++ keys') s = (shellRun keys s).bind fun r =>
      (shellRun keys' r.2).map fun r' => (r.1 ++ r'.1, r'.2) := by
  induction keys generalizing s with
  | nil => simp [shellRun]
  | cons c keys ih =>
    simp only [List.cons_append, shellRun, Option.bind_eq_bind]
    cases shellKey c s with
    | none => rfl
    | some r =>
      simp only [Option.bind_some, ih]
      cases shellRun keys r.2 with
      | none => rfl
      | some r' =>
        simp only [Option.bind_some, Option.pure_def]
        cases shellRun keys' r'.2 with
        | none => rfl
        | some r'' => simp [List.append_assoc]

/-- A pass in terms of the two polls. -/
theorem passKeyboard_eq (hasData readChar : Poll) (s : Session) :
    passKeyboard hasData readChar s =
      let devices := pollDevices hasData s.devices
      let found := s.found ++ pollFinds hasData s.devices
      if devices.keys.head = devices.keys.tail then some { s with devices := devices, found := found }
      else
        let dequeued := (pollDevices readChar devices).keys.dequeue keyIndex
        let c := dequeued.1.getD 0
        (shellKey c s.shell).map fun r =>
          ⟨{ pollDevices readChar devices with keys := dequeued.2 }, r.2, found ++ pollFinds readChar devices,
            s.read ++ [c], s.commands ++ r.1.toList⟩ := by
  unfold passKeyboard keyboardHasData keyboardReadChar
  change (if decide ((pollDevices hasData s.devices).keys.head ≠ (pollDevices hasData s.devices).keys.tail) = true
    then _ else _) = _
  by_cases hhas : (pollDevices hasData s.devices).keys.head = (pollDevices hasData s.devices).keys.tail
  · rw [if_neg (by simpa using hhas), if_pos hhas]
    rfl
  · rw [if_pos (by simpa using hhas), if_neg hhas, Option.bind_eq_bind, Option.map_eq_bind]
    rfl

section Pass

variable {vram : Vga.Vram} {s : Session} {q : Queues}

/-- The shell takes every character that is not NUL. -/
theorem Inv.shellKey (h : Inv vram s q) {c : UInt8} (hc : c ≠ 0) :
    ∃ command shell, Shell.shellKey c s.shell = some (command, shell) ∧
      shellRun (s.read ++ [c]) (shellStart vram) = some (s.commands ++ command.toList, shell) := by
  have hkeys : ∀ d ∈ s.read ++ [c], d ≠ 0 := by
    intro d hd
    rcases List.mem_append.1 hd with hd | hd
    · exact h.readNonzero d hd
    · exact List.mem_singleton.1 hd ▸ hc
  rcases shellRun_spec (List.forall_mem_nil _) _ hkeys (holds_shellStart vram) with ⟨shell, -, hrun, -⟩
  have happend := shellRun_append s.read [c] (shellStart vram)
  rw [hrun, h.shell, Option.bind_some] at happend
  cases hkey : Shell.shellKey c s.shell with
  | none => simp [shellRun, hkey] at happend
  | some r =>
    refine ⟨r.1, r.2, rfl, ?_⟩
    rw [shellRun_append, h.shell]
    simp [shellRun, hkey]

/-- A pass that finds the queue empty only polls. -/
theorem Inv.pass_empty (h : Inv vram s q) {hasData : Poll} (hempty : (polled hasData q).keys = [])
    (readChar : Poll) :
    ∃ s', passKeyboard hasData readChar s = some s' ∧ Inv vram s' (polled hasData q) ∧
      (s.found = s.read ++ q.keys → s'.KeepsUp → s'.found = s'.read ++ (polled hasData q).keys) := by
  have hrep := represents_polled h.represents hasData
  have hhas := hrep.keys.head_eq_tail_iff.2 hempty
  rcases polled_keys hasData q with ⟨taken, htaken, hsub, hall⟩
  rw [hempty, eq_comm, List.append_eq_nil_iff] at htaken
  rcases htaken with ⟨hkeys, htaken⟩
  rw [passKeyboard_eq]
  simp only [hhas, if_true]
  refine ⟨_, rfl, ⟨hrep, Queues.not_mem_polled h.nonzero _ _ _, ?_, h.readNonzero, h.shell⟩, ?_⟩
  · have horder := h.order
    rw [hkeys, List.append_nil] at horder
    rw [hempty, List.append_nil]
    exact horder.trans (List.sublist_append_left _ _)
  · intro hfound hkeeps
    unfold Session.KeepsUp at hkeeps
    rw [hfound, hkeys, pollFinds_eq h.represents] at hkeeps ⊢
    simp only [List.append_nil, List.length_append] at hkeeps ⊢
    have hnone := hall (by rw [hkeys, List.length_nil]; simp only [keyCapacity]; omega)
    rw [← hnone, htaken, hempty]

/-- A pass that finds a character reads the oldest one. -/
theorem Inv.pass_some (h : Inv vram s q) {hasData : Poll} (hsome : (polled hasData q).keys ≠ [])
    (readChar : Poll) :
    ∃ s' q', passKeyboard hasData readChar s = some s' ∧ Inv vram s' q' ∧
      (s.found = s.read ++ q.keys → s'.KeepsUp → s'.found = s'.read ++ q'.keys) := by
  have hrep := represents_polled h.represents hasData
  have hnonzero : 0 ∉ (polled hasData q).keys := Queues.not_mem_polled h.nonzero _ _ _
  have hhas := mt hrep.keys.head_eq_tail_iff.1 hsome
  have hrep' := represents_polled hrep readChar
  have hnonzero' : 0 ∉ (polled readChar (polled hasData q)).keys := Queues.not_mem_polled hnonzero _ _ _
  rcases polled_keys hasData q with ⟨taken, htaken, hsub, hall⟩
  rcases polled_keys readChar (polled hasData q) with ⟨taken', htaken', hsub', hall'⟩
  rw [htaken] at htaken' hall'
  -- the queue before the character is taken
  have hkeys : (polled readChar (polled hasData q)).keys ≠ [] := by
    rw [htaken', ← htaken]
    exact List.append_ne_nil_of_left_ne_nil hsome _
  rcases List.exists_cons_of_ne_nil hkeys with ⟨c, rest, hcons⟩
  have hc : c ≠ 0 := by
    rintro rfl
    rw [hcons] at hnonzero'
    exact hnonzero' List.mem_cons_self
  rcases hrep'.keys.dequeue with ⟨hchar, hrest⟩
  rw [hcons] at hchar hrest
  rcases h.shellKey hc with ⟨command, shell, hkey, hrun⟩
  have hall₂ : s.read ++ [c] ++ rest = s.read ++ q.keys ++ taken ++ taken' := by
    have heq := hcons.symm.trans htaken'
    simp only [List.append_assoc, List.singleton_append, heq]
  rw [passKeyboard_eq]
  simp only [hhas, if_false, hchar, BoundedQueue.dequeue, Option.getD_some, hkey, Option.map_some]
  refine ⟨_, { polled readChar (polled hasData q) with keys := rest }, rfl,
    ⟨⟨hrep'.control, hrest, hrep'.mouse, hrep'.usbKeys, hrep'.usbMouse⟩, ?_, ?_, ?_, hrun⟩, ?_⟩
  · intro hmem
    rw [hcons] at hnonzero'
    exact hnonzero' (List.mem_cons_of_mem c hmem)
  · show (s.read ++ [c] ++ rest).Sublist _
    rw [hall₂, pollFinds_eq h.represents, pollFinds_eq hrep]
    exact (h.order.append hsub).append hsub'
  · intro d hd
    rcases List.mem_append.1 hd with hd | hd
    · exact h.readNonzero d hd
    · exact List.mem_singleton.1 hd ▸ hc
  · intro hfound hkeeps
    unfold Session.KeepsUp at hkeeps
    show _ = s.read ++ [c] ++ rest
    rw [hall₂, hfound, pollFinds_eq h.represents, pollFinds_eq hrep] at *
    simp only [List.length_append, List.length_singleton] at hkeeps hall'
    have htaken₁ := hall (by simp only [keyCapacity]; omega)
    rw [htaken₁] at hall'
    rw [htaken₁, hall' (by simp only [keyCapacity]; omega)]

theorem Inv.pass (h : Inv vram s q) (hasData readChar : Poll) :
    ∃ s' q', passKeyboard hasData readChar s = some s' ∧ Inv vram s' q' ∧
      (s.found = s.read ++ q.keys → s'.KeepsUp → s'.found = s'.read ++ q'.keys) := by
  by_cases hempty : (polled hasData q).keys = []
  · rcases h.pass_empty hempty readChar with ⟨s', hs', hinv', hall⟩
    exact ⟨s', _, hs', hinv', hall⟩
  · exact h.pass_some hempty readChar

end Pass

/-! ## Runs -/

theorem mouse_keys (q : Queues) {call : Call} (h : isMouseCall call = true) : (q.perform call).2.keys = q.keys := by
  cases call with
  | enqueueMouseEvent event => rfl
  | mouseHasEvent status data hasMouse =>
    unfold Queues.perform
    dsimp only
    split
    · unfold Queues.pollUsb
      split <;> rfl
    · rfl
  | mouseGetEvent =>
    unfold Queues.perform
    dsimp only
    split <;> rfl
  | usbQueueMouseEvent report => rfl
  | usbDequeueMouseEvent => rfl
  | keyboardQueueChar | keyboardHasData | keyboardReadChar | usbQueueKeyboardChar | usbDequeueKeyboardChar =>
    cases h

/-- What an event leaves; only a pass of the loop touches the key queue. -/
theorem Inv.step {vram : Vga.Vram} {s : Session} {q : Queues} (h : Inv vram s q) (event : Event) :
    ∃ s' q', step s event = some s' ∧ Inv vram s' q' ∧
      (s.found = s.read ++ q.keys → s'.KeepsUp → s'.found = s'.read ++ q'.keys) := by
  cases event with
  | pass hasData readChar => exact h.pass hasData readChar
  | keyboardReport report =>
    exact ⟨_, _, rfl, ⟨represents_usbProcessKeyboardReport h.represents report, h.nonzero, h.order, h.readNonzero,
      h.shell⟩, fun hfound _ => hfound⟩
  | mouse call hcall =>
    have hkeys := mouse_keys q hcall
    refine ⟨_, (q.perform call).2, rfl, ⟨(represents_perform _ _ call h.represents).2, ?_, ?_, h.readNonzero,
      h.shell⟩, ?_⟩
    · rw [hkeys]
      exact h.nonzero
    · rw [hkeys]
      exact h.order
    · intro hfound _
      rw [hkeys]
      exact hfound

theorem inv_start (vram : Vga.Vram) : Inv vram (start vram) (Queues.initial powerOn.control) :=
  ⟨represents_initial _ _ _ _ _, List.not_mem_nil, List.Sublist.refl _, List.forall_mem_nil _, rfl⟩

theorem run_inv (vram : Vga.Vram) (events : List Event) :
    ∃ s q, Run.exec step (start vram) events = some s ∧ Inv vram s q ∧
      ((∀ before s', before <+: events → Run.exec step (start vram) before = some s' → s'.KeepsUp) →
        s.found = s.read ++ q.keys) := by
  induction events using List.reverseRecOn with
  | nil => exact ⟨_, _, rfl, inv_start vram, fun _ => rfl⟩
  | append_singleton events event ih =>
    rcases ih with ⟨s, q, hrun, hinv, hall⟩
    rcases hinv.step event with ⟨s', q', hstep, hinv', hkept⟩
    have hrun' : Run.exec step (start vram) (events ++ [event]) = some s' := by
      rw [Run.exec_append, hrun, Option.bind_some, Run.exec, hstep]
      rfl
    refine ⟨s', q', hrun', hinv', ?_⟩
    intro hkeeps
    refine hkept (hall ?_) (hkeeps _ s' (List.prefix_refl _) hrun')
    intro before s₁ hbefore
    exact hkeeps before s₁ (hbefore.trans (List.prefix_append events [event]))

end CosKernel.Shell
