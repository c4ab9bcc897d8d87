import CosKernel.Input.Queues

/-!
# Reports of a USB keyboard (`usb.c`)

A report names up to six keys that are down. Each key that stands for a character
goes to the USB ring, with two exceptions the source makes: the codes of backspace
and of the space bar are left out.
-/

namespace CosKernel.Input

open BoundedQueue

/-- `usb_hid_keyboard_map`; what is not named is zero. -/
def usbHidKeyboardMap : List (UInt8 × Char) :=
  [(4, 'a'), (5, 'b'), (6, 'c'), (7, 'd'), (8, 'e'), (9, 'f'), (10, 'g'), (11, 'h'),
    (12, 'i'), (13, 'j'), (14, 'k'), (15, 'l'), (16, 'm'), (17, 'n'), (18, 'o'), (19, 'p'),
    (20, 'q'), (21, 'r'), (22, 's'), (23, 't'), (24, 'u'), (25, 'v'), (26, 'w'), (27, 'x'),
    (28, 'y'), (29, 'z'), (30, '1'), (31, '2'), (32, '3'), (33, '4'), (34, '5'), (35, '6'),
    (36, '7'), (37, '8'), (38, '9'), (39, '0'), (40, '\n'), (41, '\x1b'), (42, '\x08'), (43, '\t'),
    (44, ' '), (45, '-'), (46, '='), (47, '['), (48, ']'), (49, '\x5c'), (51, ';'), (52, '\x27'),
    (53, '\x60'), (54, ','), (55, '.'), (56, '/')]

/-- `usb_hid_shift_map` -/
def usbHidShiftMap : List (UInt8 × Char) :=
  [(4, 'A'), (5, 'B'), (6, 'C'), (7, 'D'), (8, 'E'), (9, 'F'), (10, 'G'), (11, 'H'),
    (12, 'I'), (13, 'J'), (14, 'K'), (15, 'L'), (16, 'M'), (17, 'N'), (18, 'O'), (19, 'P'),
    (20, 'Q'), (21, 'R'), (22, 'S'), (23, 'T'), (24, 'U'), (25, 'V'), (26, 'W'), (27, 'X'),
    (28, 'Y'), (29, 'Z'), (30, '!'), (31, '@'), (32, '#'), (33, '$'), (34, '%'), (35, '^'),
    (36, '&'), (37, '*'), (38, '('), (39, ')'), (40, '\n'), (41, '\x1b'), (42, '\x08'), (43, '\t'),
    (44, ' '), (45, '_'), (46, '+'), (47, '\x7b'), (48, '\x7d'), (49, '|'), (51, ':'), (52, '\x22'),
    (53, '~'), (54, '<'), (55, '>'), (56, '?')]

/-- `map[code]` -/
def lookupCode (map : List (UInt8 × Char)) (code : UInt8) : UInt8 := ((map.lookup code).getD '\x00').toUInt8

/-- The character of a code of the report, if it is queued. -/
def reportChar (shift : Bool) (code : UInt8) : Option UInt8 :=
  if code = 0 then none
  else if code = 0x2A ∨ code = 0x2C then none
  else
    let c := if shift then lookupCode usbHidShiftMap code else lookupCode usbHidKeyboardMap code
    if c ≠ 0 then some c else none

/-- The loop of `usb_process_keyboard_report`. -/
def queueCodes (shift : Bool) (codes : List UInt8) (keys : Ring UInt32 UInt8) : Ring UInt32 UInt8 :=
  codes.foldl
    (fun keys code => match reportChar shift code with
      | some c => (usbQueueKeyboardChar c keys).2
      | none => keys) keys

/-- `usb_process_keyboard_report` -/
def usbProcessKeyboardReport (report : Vector UInt8 8) (s : Devices) : Devices :=
  { s with usbKeys := queueCodes (report[0] &&& 0x22 ≠ 0) (report.toList.drop 2) s.usbKeys }

/-! ## What a report queues -/

/-- The characters of a report, in the order of its codes. -/
def reportChars (report : Vector UInt8 8) : List UInt8 :=
  (report.toList.drop 2).filterMap (reportChar (report[0] &&& 0x22 ≠ 0))

theorem reportChar_ne_zero {shift : Bool} {code c : UInt8} (h : reportChar shift code = some c) : c ≠ 0 := by
  unfold reportChar at h
  split at h
  · cases h
  · split at h
    · cases h
    · rcases Option.ite_none_right_eq_some.mp h with ⟨hne, hchr⟩
      rw [← Option.some.inj hchr]
      exact hne

theorem holds_queueCodes {keys : Ring UInt32 UInt8} {q : List UInt8} (h : Holds usbKeyboardIndex keys q)
    (shift : Bool) (codes : List UInt8) :
    Holds usbKeyboardIndex (queueCodes shift codes keys)
      ((codes.filterMap (reportChar shift)).foldl (fun q c => (enqueue usbKeyboardCapacity c q).2) q) := by
  induction codes generalizing keys q with
  | nil => exact h
  | cons code codes ih =>
    cases hchar : reportChar shift code with
    | none =>
      rw [List.filterMap_cons_none hchar]
      unfold queueCodes
      rw [List.foldl_cons, hchar]
      exact ih h
    | some c =>
      rw [List.filterMap_cons_some hchar, List.foldl_cons]
      unfold queueCodes
      rw [List.foldl_cons, hchar]
      exact ih (h.enqueue c).2

/-- A report appends its characters to the queue of the USB keyboard, while there is room. -/
theorem represents_usbProcessKeyboardReport {s : Devices} {q : Queues} (h : Represents s q)
    (report : Vector UInt8 8) :
    Represents (usbProcessKeyboardReport report s)
      { q with usbKeys := (reportChars report).foldl (fun q c => (enqueue usbKeyboardCapacity c q).2) q.usbKeys } :=
  ⟨h.control, h.keys, h.mouse, holds_queueCodes h.usbKeys _ _, h.usbMouse⟩

end CosKernel.Input
