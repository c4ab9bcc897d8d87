import CosKernel.Input.Model
import CosKernel.Lib.Run

/-!
# The shift keys

`keyboard_poll` keeps one flag for two keys: a make code of either sets it, a
break code of either clears it. So the flag tells what the last code of a shift
key was (`shiftFlag`), and that is whether some shift key is held as long as no
shift key is released while the other one is held (`shift_tracked_iff`).
-/

namespace CosKernel.Input

/-! ## Polls of the keyboard -/

/-- `keyboard_initialize` -/
def keyboardInitialize (s : Devices) : Devices :=
  { s with
    keys := { s.keys with head := 0, tail := 0 }
    control := { s.control with shiftDown := false } }

/-- The code that a poll takes from the data port, if the status says that there is one. -/
def received (poll : UInt8 × UInt8) : Option UInt8 :=
  if poll.1 &&& 0x01 = 0 ∨ poll.1 &&& 0x20 ≠ 0 then none else some poll.2

/-- The codes taken by these polls. -/
def codes (polls : List (UInt8 × UInt8)) : List UInt8 := polls.filterMap received

/-- Polls one after the other, each with what it finds in the two ports. -/
def pollAll (polls : List (UInt8 × UInt8)) (s : Devices) : Devices :=
  polls.foldl (fun s poll => keyboardPoll poll.1 poll.2 s) s

/-! ## Keys that are held -/

/-- The left shift key. -/
def leftShift : UInt8 := 0x2A

/-- The right shift key. -/
def rightShift : UInt8 := 0x36

/-- The code sent when a key is released. -/
def breakCode (key : UInt8) : UInt8 := key ||| 0x80

/-- A make code of the key is not followed by its break code. -/
def HeldKey (key : UInt8) (cs : List UInt8) : Prop :=
  ∃ before after, cs = before ++ key :: after ∧ breakCode key ∉ after

/-- Some shift key is held. -/
def ShiftHeld (cs : List UInt8) : Prop := HeldKey leftShift cs ∨ HeldKey rightShift cs

theorem not_heldKey_nil (key : UInt8) : ¬ HeldKey key [] := by
  rintro ⟨before, after, hsplit, -⟩
  simp at hsplit

/-- The last code makes the key held, or does not release it. -/
theorem heldKey_append (key : UInt8) (hkey : key ≠ breakCode key) (cs : List UInt8) (c : UInt8) :
    HeldKey key (cs ++ [c]) ↔ c = key ∨ (c ≠ breakCode key ∧ HeldKey key cs) := by
  constructor
  · rintro ⟨before, after, hsplit, hnot⟩
    rcases List.eq_nil_or_concat after with rfl | ⟨after', d, rfl⟩
    · left
      have hlast := congrArg List.getLast? hsplit
      simpa using hlast
    · right
      have hcs : cs ++ [c] = (before ++ key :: after') ++ [d] := by
        rw [hsplit]
        simp
      rcases List.append_inj' hcs rfl with ⟨hfront, hd⟩
      have hcd : c = d := by simpa using hd
      rw [List.concat_eq_append, List.mem_append, not_or] at hnot
      refine ⟨?_, before, after', hfront, hnot.1⟩
      rw [hcd]
      exact fun heq => hnot.2 (List.mem_singleton.2 heq.symm)
  · rintro (rfl | ⟨hc, before, after, rfl, hnot⟩)
    · exact ⟨cs, [], rfl, List.not_mem_nil⟩
    · refine ⟨before, after ++ [c], by simp, ?_⟩
      rw [List.mem_append, List.mem_singleton, not_or]
      exact ⟨hnot, Ne.symm hc⟩

theorem heldKey_leftShift (cs : List UInt8) (c : UInt8) :
    HeldKey leftShift (cs ++ [c]) ↔ c = 0x2A ∨ (c ≠ 0xAA ∧ HeldKey leftShift cs) :=
  heldKey_append leftShift (by decide) cs c

theorem heldKey_rightShift (cs : List UInt8) (c : UInt8) :
    HeldKey rightShift (cs ++ [c]) ↔ c = 0x36 ∨ (c ≠ 0xB6 ∧ HeldKey rightShift cs) :=
  heldKey_append rightShift (by decide) cs c

/-! ## The flag -/

/-- What one code does to `shift_down`. -/
def shiftStep (flag : Bool) (c : UInt8) : Bool :=
  if c &&& 0x7F = 0x2A ∨ c &&& 0x7F = 0x36 then c &&& 0x80 = 0 else flag

/-- `shift_down` after these codes. -/
def shiftFlag (cs : List UInt8) : Bool := cs.foldl shiftStep false

theorem decodeKey_shiftDown (status data : UInt8) (control : Control) :
    (decodeKey status data control).1.shiftDown =
      ((received (status, data)).toList).foldl shiftStep control.shiftDown := by
  unfold decodeKey received
  by_cases hport : status &&& 0x01 = 0 ∨ status &&& 0x20 ≠ 0
  · rw [if_pos hport, if_pos hport]
    rfl
  · rw [if_neg hport, if_neg hport]
    show _ = shiftStep control.shiftDown data
    unfold shiftStep
    by_cases hshift : data &&& 0x7F = 0x2A ∨ data &&& 0x7F = 0x36
    · simp only [hshift, if_true]
      simp
    · simp only [hshift, if_false]
      split <;> rfl

theorem pollAll_shiftDown (polls : List (UInt8 × UInt8)) (s : Devices) :
    (pollAll polls (keyboardInitialize s)).control.shiftDown = shiftFlag (codes polls) := by
  induction polls using List.reverseRecOn with
  | nil => rfl
  | append_singleton polls poll ih =>
    have hpoll : (pollAll (polls ++ [poll]) (keyboardInitialize s)).control.shiftDown =
        (decodeKey poll.1 poll.2 (pollAll polls (keyboardInitialize s)).control).1.shiftDown := by
      unfold pollAll
      rw [List.foldl_append]
      rfl
    have hcodes : codes (polls ++ [poll]) = codes polls ++ (received poll).toList := by
      unfold codes
      rw [List.filterMap_append]
      rcases hrec : received poll with _ | c
      · simp [hrec]
      · simp [hrec]
    rw [hpoll, decodeKey_shiftDown, ih, hcodes]
    unfold shiftFlag
    rw [List.foldl_append]

/-- The codes of the shift keys, and the rest. -/
theorem shiftStep_cases (flag : Bool) (c : UInt8) :
    ((c = 0x2A ∨ c = 0x36) ∧ shiftStep flag c = true) ∨ ((c = 0xAA ∨ c = 0xB6) ∧ shiftStep flag c = false) ∨
      ((c ≠ 0x2A ∧ c ≠ 0x36 ∧ c ≠ 0xAA ∧ c ≠ 0xB6) ∧ shiftStep flag c = flag) := by
  revert flag c
  decide +kernel

/-! ## When the flag tells what is held -/

/-- `shift_down` says whether a shift key is held, and the next character comes from the map it should
come from. -/
def ShiftTracked (s : Devices) (cs : List UInt8) : Prop :=
  (s.control.shiftDown = true ↔ ShiftHeld cs) ∧
    ∀ status data chr, (decodeKey status data s.control).2 = some chr →
      (ShiftHeld cs → chr = lookupKey shiftKeymap (data &&& 0x7F)) ∧
      (¬ ShiftHeld cs → chr = lookupKey keymap (data &&& 0x7F))

/-- No shift key is released while the other one is held. -/
def ReleasedAlone (cs : List UInt8) : Prop :=
  ∀ before c, before ++ [c] <+: cs →
    (c = breakCode leftShift → ¬ HeldKey rightShift before) ∧
      (c = breakCode rightShift → ¬ HeldKey leftShift before)

/-- A character is looked up in the map the flag selects. -/
theorem decodeKey_char {status data chr : UInt8} {control : Control}
    (h : (decodeKey status data control).2 = some chr) :
    chr = if control.shiftDown then lookupKey shiftKeymap (data &&& 0x7F) else lookupKey keymap (data &&& 0x7F) := by
  unfold decodeKey at h
  simp only at h
  split at h
  · cases h
  · split at h
    · cases h
    · split at h
      · cases h
      · -- NUL is not queued, any other character is the one looked up
        generalize (if control.shiftDown = true then lookupKey shiftKeymap (data &&& 0x7F)
          else lookupKey keymap (data &&& 0x7F)) = looked at h ⊢
        by_cases hnul : looked ≠ 0
        · rw [if_pos hnul] at h
          exact (Option.some.inj h).symm
        · rw [if_neg hnul] at h
          cases h

theorem shiftTracked_iff (s : Devices) (cs : List UInt8) :
    ShiftTracked s cs ↔ (s.control.shiftDown = true ↔ ShiftHeld cs) := by
  constructor
  · exact And.left
  · intro hflag
    refine ⟨hflag, ?_⟩
    intro status data chr hchr
    have hmap := decodeKey_char hchr
    constructor
    · intro hheld
      rwa [if_pos (hflag.2 hheld)] at hmap
    · intro hheld
      rwa [if_neg (mt hflag.1 hheld)] at hmap

theorem ReleasedAlone.mono {cs cs' : List UInt8} (h : ReleasedAlone cs) (hpre : cs' <+: cs) :
    ReleasedAlone cs' :=
  fun before c hbefore => h before c (hbefore.trans hpre)

/-- Make codes set the flag, break codes clear it, and by then no key is held any more. -/
theorem shiftFlag_iff {cs : List UInt8} (h : ReleasedAlone cs) : shiftFlag cs = true ↔ ShiftHeld cs := by
  induction cs using List.reverseRecOn with
  | nil =>
    apply iff_of_false Bool.false_ne_true
    rintro (hl | hr)
    · exact not_heldKey_nil _ hl
    · exact not_heldKey_nil _ hr
  | append_singleton cs c ih =>
    have hprev := ih (h.mono (List.prefix_append cs [c]))
    have hlast := h cs c List.prefix_rfl
    have hstep : shiftFlag (cs ++ [c]) = shiftStep (shiftFlag cs) c := by
      unfold shiftFlag
      rw [List.foldl_append]
      rfl
    unfold ShiftHeld
    rw [hstep, heldKey_leftShift, heldKey_rightShift]
    rcases shiftStep_cases (shiftFlag cs) c with ⟨hmake, hflag⟩ | ⟨hbreak, hflag⟩ | ⟨⟨h₁, h₂, h₃, h₄⟩, hflag⟩
    · rw [hflag]
      apply iff_of_true rfl
      rcases hmake with rfl | rfl
      · exact Or.inl (Or.inl rfl)
      · exact Or.inr (Or.inl rfl)
    · rw [hflag]
      apply iff_of_false Bool.false_ne_true
      -- the key released is not held, and the other one was not
      rcases hbreak with rfl | rfl
      · rintro ((heq | ⟨hne, -⟩) | (heq | ⟨-, hr⟩))
        · exact absurd heq (by decide)
        · exact hne rfl
        · exact absurd heq (by decide)
        · exact hlast.1 rfl hr
      · rintro ((heq | ⟨-, hl⟩) | (heq | ⟨hne, -⟩))
        · exact absurd heq (by decide)
        · exact hlast.2 rfl hl
        · exact absurd heq (by decide)
        · exact hne rfl
    · rw [hflag, hprev]
      unfold ShiftHeld
      simp [h₁, h₂, h₃, h₄]

/-- A break code clears the flag, whatever else is held. -/
theorem shiftFlag_break {cs : List UInt8} {c : UInt8} (hc : c = breakCode leftShift ∨ c = breakCode rightShift) :
    shiftFlag (cs ++ [c]) = false := by
  unfold shiftFlag
  rw [List.foldl_append]
  rcases hc with rfl | rfl
  · rfl
  · rfl

/-- For every sequence of polls, the flag tells throughout whether a shift key is held, and the
characters come from the map it should come from, exactly when no shift key is released while the
other one is held. -/
theorem shift_tracked_iff (s : Devices) (polls : List (UInt8 × UInt8)) :
    (∀ before, before <+: polls → ShiftTracked (pollAll before (keyboardInitialize s)) (codes before)) ↔
      ReleasedAlone (codes polls) := by
  simp only [shiftTracked_iff, pollAll_shiftDown]
  constructor
  · intro htracked before c hpre
    rcases List.prefix_filterMap_iff.1 hpre with ⟨polls', hpolls', hcodes⟩
    have hflag := htracked polls' hpolls'
    have hcodes' : codes polls' = before ++ [c] := hcodes.symm
    rw [hcodes'] at hflag
    constructor
    · rintro rfl hheld
      have hset := hflag.2 (Or.inr ((heldKey_rightShift before _).2 (Or.inr ⟨by decide, hheld⟩)))
      rw [shiftFlag_break (Or.inl rfl)] at hset
      cases hset
    · rintro rfl hheld
      have hset := hflag.2 (Or.inl ((heldKey_leftShift before _).2 (Or.inr ⟨by decide, hheld⟩)))
      rw [shiftFlag_break (Or.inr rfl)] at hset
      cases hset
  · intro hreleased before hpre
    apply shiftFlag_iff
    exact hreleased.mono (List.prefix_filterMap_iff.2 ⟨before, hpre, rfl⟩)

/-- Both shift keys are pressed and the left one is released: the right one is held, but the flag is
clear, and the key A gives a small letter. -/
theorem shift_lost_with_both_held :
    ¬ ShiftTracked (pollAll [(1, 0x2A), (1, 0x36), (1, 0xAA)] (keyboardInitialize powerOn))
      (codes [(1, 0x2A), (1, 0x36), (1, 0xAA)]) ∧
    (decodeKey 1 0x1E (pollAll [(1, 0x2A), (1, 0x36), (1, 0xAA)] (keyboardInitialize powerOn)).control).2 =
      some 97 := by
  constructor
  · intro htracked
    have hheld : ShiftHeld (codes [(1, 0x2A), (1, 0x36), (1, 0xAA)]) :=
      Or.inr ⟨[0x2A], [0xAA], by decide, by decide⟩
    have hset := htracked.1.2 hheld
    rw [pollAll_shiftDown] at hset
    revert hset
    decide
  · decide +kernel

end CosKernel.Input
