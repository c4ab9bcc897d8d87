import CosKernel.Lib.Run
import CosKernel.Input.Model

/-!
# The rings are bounded queues

The abstract machine has the same calls, and a list in the place of each ring: a
queue of 255 characters, one of 31 mouse events, one of 63 characters and one of
31 reports. Every history of calls gives the same results on both machines, and
the rings hold the entries of the lists throughout.
-/

namespace CosKernel.Input

open BoundedQueue Run

/-! ## The abstract machine -/

abbrev keyCapacity : Nat := 255
abbrev mouseCapacity : Nat := 31
abbrev usbKeyboardCapacity : Nat := 63
abbrev usbMouseCapacity : Nat := 31

structure Queues where
  control : Control
  keys : List UInt8
  mouse : List MouseEventT
  usbKeys : List UInt8
  usbMouse : List Report

namespace Queues

/-- Append what a poll may have to append. -/
def offer {α : Type} (capacity : Nat) (a : Option α) (q : List α) : List α :=
  match a with
  | some a => (enqueue capacity a q).2
  | none => q

/-- A poll of the PS/2 keyboard. -/
def pollKeyboard (status data : UInt8) (q : Queues) : Queues :=
  { q with
    control := (decodeKey status data q.control).1
    keys := offer keyCapacity (decodeKey status data q.control).2 q.keys }

/-- A poll of the USB keyboard moves its oldest character, unless that is NUL. -/
def pollUsbKeyboard (hasKeyboard : Bool) (q : Queues) : Queues :=
  if hasKeyboard then
    { q with
      usbKeys := (dequeue q.usbKeys).2
      keys := offer keyCapacity ((dequeue q.usbKeys).1.filter (· ≠ 0)) q.keys }
  else q

/-- A poll of the PS/2 mouse. -/
def pollPs2 (status data : UInt8) (q : Queues) : Queues :=
  { q with
    control := (decodePs2 status data q.control).1
    mouse := offer mouseCapacity (decodePs2 status data q.control).2 q.mouse }

/-- A poll of the USB mouse moves its oldest report. -/
def pollUsb (hasMouse : Bool) (q : Queues) : Queues :=
  if hasMouse then
    { q with
      usbMouse := (dequeue q.usbMouse).2
      mouse := offer mouseCapacity ((dequeue q.usbMouse).1.map reportEvent) q.mouse }
  else q

def perform (q : Queues) : Call → Result × Queues
  | .keyboardQueueChar c => (.done, { q with keys := (enqueue keyCapacity c q.keys).2 })
  | .keyboardHasData status data hasKeyboard =>
    let q := pollUsbKeyboard hasKeyboard (pollKeyboard status data q)
    (.bool (q.keys ≠ []), q)
  | .keyboardReadChar status data hasKeyboard =>
    let q := pollUsbKeyboard hasKeyboard (pollKeyboard status data q)
    (.char ((dequeue q.keys).1.getD 0), { q with keys := (dequeue q.keys).2 })
  | .enqueueMouseEvent event =>
    (.done, { q with mouse := (enqueue mouseCapacity event q.mouse).2 })
  | .mouseHasEvent status data hasMouse =>
    if q.control.mouseInitialized then
      let q := pollUsb hasMouse (pollPs2 status data q)
      (.bool (q.mouse ≠ []), q)
    else (.bool false, q)
  | .mouseGetEvent =>
    match q.mouse with
    | [] => (.event noEvent, q)
    | event :: rest =>
      (.event event, { q with mouse := rest, control := moveMouse event q.control })
  | .usbQueueKeyboardChar c =>
    (.bool (enqueue usbKeyboardCapacity c q.usbKeys).1,
      { q with usbKeys := (enqueue usbKeyboardCapacity c q.usbKeys).2 })
  | .usbDequeueKeyboardChar =>
    (.key (dequeue q.usbKeys).1, { q with usbKeys := (dequeue q.usbKeys).2 })
  | .usbQueueMouseEvent report =>
    (.bool (enqueue usbMouseCapacity report q.usbMouse).1,
      { q with usbMouse := (enqueue usbMouseCapacity report q.usbMouse).2 })
  | .usbDequeueMouseEvent =>
    (.report (dequeue q.usbMouse).1, { q with usbMouse := (dequeue q.usbMouse).2 })

def initial (control : Control) : Queues := ⟨control, [], [], [], []⟩

end Queues

/-! ## The simulation -/

/-- The rings hold the entries of the queues. -/
structure Represents (s : Devices) (q : Queues) : Prop where
  control : s.control = q.control
  keys : Holds keyIndex s.keys q.keys
  mouse : Holds mouseQueueIndex s.mouse q.mouse
  usbKeys : Holds usbKeyboardIndex s.usbKeys q.usbKeys
  usbMouse : Holds usbMouseIndex s.usbMouse q.usbMouse

theorem represents_initial (control : Control) (keys : Nat → UInt8) (mouse : Nat → MouseEventT)
    (usbKeys : Nat → UInt8) (usbMouse : Nat → Report) :
    Represents (initial control keys mouse usbKeys usbMouse) (Queues.initial control) := by
  constructor
  · rfl
  · exact Holds.empty (by decide) keys keyIndex
  · exact Holds.empty (by decide) mouse mouseQueueIndex
  · exact Holds.empty (by decide) usbKeys usbKeyboardIndex
  · exact Holds.empty (by decide) usbMouse usbMouseIndex

/-- Each driver appends with its own function. -/
theorem holds_keyboardQueueChar {keys : Ring Int32 UInt8} {q : List UInt8}
    (h : Holds keyIndex keys q) (c : UInt8) :
    Holds keyIndex (keyboardQueueChar c keys) (enqueue keyCapacity c q).2 :=
  (h.enqueue c).2

theorem holds_enqueueMouseEvent {mouse : Ring Int32 MouseEventT} {q : List MouseEventT}
    (h : Holds mouseQueueIndex mouse q) (event : MouseEventT) :
    Holds mouseQueueIndex (enqueueMouseEvent event mouse) (enqueue mouseCapacity event q).2 :=
  (h.enqueue event).2

section Polls

variable {s : Devices} {q : Queues}

theorem represents_keyboardPoll (h : Represents s q) (status data : UInt8) :
    Represents (keyboardPoll status data s) (q.pollKeyboard status data) := by
  unfold keyboardPoll Queues.pollKeyboard
  rw [h.control]
  constructor
  · rfl
  · dsimp only
    cases (decodeKey status data q.control).2 with
    | none => exact h.keys
    | some c => exact holds_keyboardQueueChar h.keys c
  · exact h.mouse
  · exact h.usbKeys
  · exact h.usbMouse

theorem represents_usbKeyboardPoll (h : Represents s q) (hasKeyboard : Bool) :
    Represents (usbKeyboardPoll hasKeyboard s) (q.pollUsbKeyboard hasKeyboard) := by
  unfold usbKeyboardPoll Queues.pollUsbKeyboard
  rcases h.usbKeys.dequeue with ⟨hkey, hrest⟩
  cases hasKeyboard with
  | false => exact h
  | true =>
    constructor
    · exact h.control
    · simp only [if_true, usbDequeueKeyboardChar, hkey]
      cases (dequeue q.usbKeys).1 with
      | none => exact h.keys
      | some c =>
        by_cases hc : c = 0
        · simpa [hc, Queues.offer, Option.filter] using h.keys
        · simpa [hc, Queues.offer, Option.filter] using holds_keyboardQueueChar h.keys c
    · exact h.mouse
    · exact hrest
    · exact h.usbMouse

theorem represents_mousePollPs2 (h : Represents s q) (status data : UInt8) :
    Represents (mousePollPs2 status data s) (q.pollPs2 status data) := by
  unfold mousePollPs2 Queues.pollPs2
  rw [h.control]
  constructor
  · rfl
  · exact h.keys
  · dsimp only
    cases (decodePs2 status data q.control).2 with
    | none => exact h.mouse
    | some event => exact holds_enqueueMouseEvent h.mouse event
  · exact h.usbKeys
  · exact h.usbMouse

theorem represents_pollUsbMouse (h : Represents s q) (hasMouse : Bool) :
    Represents (pollUsbMouse hasMouse s) (q.pollUsb hasMouse) := by
  unfold pollUsbMouse Queues.pollUsb
  rcases h.usbMouse.dequeue with ⟨hreport, hrest⟩
  cases hasMouse with
  | false => exact h
  | true =>
    constructor
    · exact h.control
    · exact h.keys
    · simp only [if_true, usbDequeueMouseEvent, hreport]
      cases (dequeue q.usbMouse).1 with
      | none => exact h.mouse
      | some report => exact holds_enqueueMouseEvent h.mouse (reportEvent report)
    · exact h.usbKeys
    · exact hrest

end Polls

theorem represents_mouseGetEvent {s : Devices} {q : Queues} (h : Represents s q) :
    (perform s .mouseGetEvent).1 = (q.perform .mouseGetEvent).1 ∧
      Represents (perform s .mouseGetEvent).2 (q.perform .mouseGetEvent).2 := by
  rcases h.mouse.dequeue with ⟨hevent, hrest⟩
  unfold perform mouseGetEvent Queues.perform
  cases hq : q.mouse with
  | nil =>
    rw [hq] at hevent
    simp only [hevent, dequeue]
    exact ⟨trivial, h⟩
  | cons event rest =>
    rw [hq] at hevent hrest
    simp only [hevent, dequeue]
    refine ⟨trivial, ?_⟩
    constructor
    · show moveMouse event s.control = moveMouse event q.control
      rw [h.control]
    · exact h.keys
    · exact hrest
    · exact h.usbKeys
    · exact h.usbMouse

/-- One call gives the same result on both machines, and keeps them related. -/
theorem represents_perform (s : Devices) (q : Queues) (c : Call) (h : Represents s q) :
    (perform s c).1 = (q.perform c).1 ∧ Represents (perform s c).2 (q.perform c).2 := by
  cases c with
  | keyboardQueueChar c =>
    refine ⟨rfl, h.control, ?_, h.mouse, h.usbKeys, h.usbMouse⟩
    exact holds_keyboardQueueChar h.keys c
  | keyboardHasData status data hasKeyboard =>
    have hpolled := represents_usbKeyboardPoll (represents_keyboardPoll h status data) hasKeyboard
    refine ⟨?_, hpolled⟩
    simp only [perform, keyboardHasData, Queues.perform, ne_eq, hpolled.keys.head_eq_tail_iff]
  | keyboardReadChar status data hasKeyboard =>
    have hpolled := represents_usbKeyboardPoll (represents_keyboardPoll h status data) hasKeyboard
    rcases hpolled.keys.dequeue with ⟨hchar, hrest⟩
    refine ⟨?_, hpolled.control, hrest, hpolled.mouse, hpolled.usbKeys, hpolled.usbMouse⟩
    simp only [perform, keyboardReadChar, Queues.perform, hchar]
  | enqueueMouseEvent event =>
    refine ⟨rfl, h.control, h.keys, ?_, h.usbKeys, h.usbMouse⟩
    exact holds_enqueueMouseEvent h.mouse event
  | mouseHasEvent status data hasMouse =>
    unfold perform mouseHasEvent Queues.perform
    rw [h.control]
    by_cases hinit : q.control.mouseInitialized = true
    · have hpolled := represents_pollUsbMouse (represents_mousePollPs2 h status data) hasMouse
      simp only [hinit, if_true]
      refine ⟨?_, hpolled⟩
      simp only [ne_eq, hpolled.mouse.head_eq_tail_iff]
    · simp only [hinit, Bool.false_eq_true, if_false]
      exact ⟨trivial, h⟩
  | mouseGetEvent => exact represents_mouseGetEvent h
  | usbQueueKeyboardChar c =>
    rcases h.usbKeys.enqueue c with ⟨hok, hnext⟩
    exact ⟨congrArg Result.bool hok, h.control, h.keys, h.mouse, hnext, h.usbMouse⟩
  | usbDequeueKeyboardChar =>
    rcases h.usbKeys.dequeue with ⟨hkey, hrest⟩
    exact ⟨congrArg Result.key hkey, h.control, h.keys, h.mouse, hrest, h.usbMouse⟩
  | usbQueueMouseEvent report =>
    rcases h.usbMouse.enqueue report with ⟨hok, hnext⟩
    exact ⟨congrArg Result.bool hok, h.control, h.keys, h.mouse, h.usbKeys, hnext⟩
  | usbDequeueMouseEvent =>
    rcases h.usbMouse.dequeue with ⟨hreport, hrest⟩
    exact ⟨congrArg Result.report hreport, h.control, h.keys, h.mouse, h.usbKeys, hrest⟩

/-! ## Characters are never NUL -/

theorem decodeKey_ne_zero {status data c : UInt8} {control : Control}
    (h : (decodeKey status data control).2 = some c) : c ≠ 0 := by
  unfold decodeKey at h
  split at h
  · cases h
  · dsimp only at h
    split at h
    · cases h
    · split at h
      · cases h
      · rcases Option.ite_none_right_eq_some.mp h with ⟨hne, hchr⟩
        rw [← Option.some.inj hchr]
        exact hne

theorem Queues.mem_offer {α : Type} {capacity : Nat} {a : Option α} {b : α} {q : List α}
    (h : b ∈ offer capacity a q) : b ∈ q ∨ a = some b := by
  cases a with
  | none => exact Or.inl h
  | some a =>
    rcases mem_enqueue h with hq | hb
    · exact Or.inl hq
    · exact Or.inr (congrArg some hb.symm)

/-- The polls enqueue no NUL. -/
theorem Queues.not_mem_polled {q : Queues} (h : 0 ∉ q.keys) (status data : UInt8)
    (hasKeyboard : Bool) : 0 ∉ ((q.pollKeyboard status data).pollUsbKeyboard hasKeyboard).keys := by
  have hfirst : 0 ∉ (q.pollKeyboard status data).keys := by
    intro hmem
    rcases Queues.mem_offer hmem with hq | hdecoded
    · exact h hq
    · exact decodeKey_ne_zero hdecoded rfl
  unfold Queues.pollUsbKeyboard
  split
  · intro hmem
    rcases Queues.mem_offer hmem with hq | hmoved
    · exact hfirst hq
    · have hne := (Option.filter_eq_some_iff.mp hmoved).2
      simp at hne
  · exact hfirst

/-- The indices are inside of the arrays. -/
structure Inside (s : Devices) : Prop where
  keys : (0 ≤ s.keys.head.toInt ∧ s.keys.head.toInt < 256) ∧
    0 ≤ s.keys.tail.toInt ∧ s.keys.tail.toInt < 256
  mouse : (0 ≤ s.mouse.head.toInt ∧ s.mouse.head.toInt < 32) ∧
    0 ≤ s.mouse.tail.toInt ∧ s.mouse.tail.toInt < 32
  usbKeys : s.usbKeys.head.toNat < usbKeyboardQueueSize ∧
    s.usbKeys.tail.toNat < usbKeyboardQueueSize
  usbMouse : s.usbMouse.head.toNat < usbMouseQueueSize ∧
    s.usbMouse.tail.toNat < usbMouseQueueSize

theorem toInt_ofNat_inside {n k : Nat} (hn : n ≤ 256) (hk : k < n) :
    0 ≤ (Int32.ofNat k).toInt ∧ (Int32.ofNat k).toInt < n := by
  have hall : ∀ k < 256, (Int32.ofNat k).toInt = k := by decide +kernel
  rw [hall k (by omega)]
  omega

theorem Represents.inside {s : Devices} {q : Queues} (h : Represents s q) : Inside s := by
  constructor
  · rcases h.keys.queue with ⟨head, tail, hhead, htail, hqueue⟩
    rw [hhead, htail]
    exact ⟨toInt_ofNat_inside (by decide) hqueue.head_lt,
      toInt_ofNat_inside (by decide) hqueue.tail_lt⟩
  · rcases h.mouse.queue with ⟨head, tail, hhead, htail, hqueue⟩
    rw [hhead, htail]
    exact ⟨toInt_ofNat_inside (by decide) hqueue.head_lt,
      toInt_ofNat_inside (by decide) hqueue.tail_lt⟩
  · exact h.usbKeys.inside
  · exact h.usbMouse.inside

end CosKernel.Input
