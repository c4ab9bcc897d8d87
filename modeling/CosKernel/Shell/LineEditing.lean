import CosKernel.Shell.Model

/-!
# Line editing

What the shell holds of a line is the line as edited so far, its length is the
position, and the cursor stands behind it: all three are one list (`Holds`), and
each key does to the list what an editor would do (`editKey`). Every access of
`line` stays in the array.
-/

namespace CosKernel.Shell

open Vga

/-! ## The reference -/

/-- What an editor of at most 79 characters does for a key: a backspace removes the last character. -/
def editKey (kept : List UInt8) (c : UInt8) : List UInt8 :=
  if c = 8 then kept.dropLast else if kept.length < 79 then kept ++ [c] else kept

/-- The line after these keys. -/
def edit (keys : List UInt8) : List UInt8 := keys.foldl editKey []

/-- The lines that are entered: the keys between two Enters, edited. What follows the last Enter is
not entered yet. -/
def entered (keys : List UInt8) : List (List UInt8) := ((keys.splitOnP isEnter).dropLast).map edit

/-! ## What the shell holds -/

/-- The variables for a line `kept`: the characters stand in front of `pos`, and the cursor behind the
prompt and the characters. -/
structure Holds (kept : List UInt8) (s : ShellTask) : Prop where
  pos : s.pos = kept.length
  le : kept.length ≤ 79
  text : ∀ i < kept.length, s.line.toList.getD i 0 = kept.getD i 0
  nonzero : ∀ c ∈ kept, c ≠ 0
  x : s.x = 9 + s.pos
  y : 22 ≤ s.y ∧ s.y ≤ 23

theorem writePrompt_x (s : ShellTask) : (writePrompt s).x = s.x + 9 := by
  show s.x + 1 + 1 + 1 + 1 + 1 + 1 + 1 + 1 + 1 = s.x + 9
  omega

/-- A line without characters: the cursor stands behind the prompt. -/
theorem holds_prompt {s : ShellTask} (hx : s.x = 0) (hy : 22 ≤ s.y ∧ s.y ≤ 23) (hpos : s.pos = 0) :
    Holds [] (writePrompt s) := by
  have hx' := writePrompt_x s
  refine ⟨hpos, Nat.zero_le _, fun i hi => absurd hi (Nat.not_lt_zero i), ?_, ?_, hy⟩
  · intro c hc
    cases hc
  · show (writePrompt s).x = 9 + s.pos
    omega

theorem holds_shellStart (vram : Vram) : Holds [] (shellStart vram) :=
  holds_prompt rfl ⟨le_rfl, by norm_num⟩ rfl

section Store

variable {pos : Int} {n : Nat} (hpos : pos = n) (hn : n ≤ 79)
include hpos hn

/-- A store at a position up to 79 is one into the array. -/
theorem setLine_of_le (c : UInt8) (line : Vector UInt8 lineSize) :
    setLine pos c line = some (line.setIfInBounds n c) := by
  have hsize : (lineSize : Int) = 80 := rfl
  unfold setLine
  rw [if_pos (by omega), hpos, Int.toNat_natCast]

end Store

/-! ## Keys -/

section Keys

variable {kept : List UInt8} {s : ShellTask} (h : Holds kept s)
include h

/-- The NUL is stored behind the characters, so the string in `line` is the line held. -/
theorem Holds.scan_line : CString.scan (s.line.setIfInBounds kept.length 0).toList = some kept := by
  have hlen : kept.length < lineSize := by
    have hle := h.le
    have hsize : lineSize = 80 := rfl
    omega
  apply CString.scan_of_getD _ _ h.nonzero
  · rw [CString.getD_setIfInBounds _ hlen, if_pos rfl]
  · rw [Vector.length_toList]
    exact hlen
  · intro i hi
    rw [CString.getD_setIfInBounds _ hlen, if_neg (Nat.ne_of_lt hi), h.text i hi]

theorem Holds.shellEnter : ∃ s', shellEnter s = some (kept, s') ∧ Holds [] s' := by
  refine ⟨_, ?_, holds_prompt (s := ⟨0, if s.y + 1 ≥ 24 then 23 else s.y + 1, 0,
    s.line.setIfInBounds kept.length 0, s.vram⟩) rfl ?_ rfl⟩
  · unfold Shell.shellEnter
    rw [setLine_of_le h.pos h.le, Option.bind_eq_bind, Option.bind_some, h.scan_line]
    rfl
  · have hy := h.y
    simp only
    split <;> omega

theorem Holds.shellBackspace : Holds kept.dropLast (shellBackspace s) := by
  have hpos := h.pos
  have hle := h.le
  unfold Shell.shellBackspace
  by_cases hsome : s.pos > 0
  swap
  · -- nothing is held, and nothing is removed
    rw [if_neg hsome]
    have hnil : kept = [] := List.length_eq_zero_iff.1 (by omega)
    rw [hnil] at h ⊢
    exact h
  rw [if_pos hsome]
  have hlen : kept.dropLast.length = kept.length - 1 := List.length_dropLast
  refine ⟨?_, by omega, ?_, ?_, ?_, h.y⟩
  · simp only
    omega
  · intro i hi
    rw [h.text i (by omega), List.getD_eq_getElem _ _ (by omega), List.getD_eq_getElem _ _ hi, List.getElem_dropLast]
  · intro c hc
    exact h.nonzero c (List.mem_of_mem_dropLast hc)
  · have hx := h.x
    simp only
    omega

theorem Holds.shellInsert {c : UInt8} (hc : c ≠ 0) :
    ∃ s', shellInsert c s = some s' ∧ Holds (if kept.length < 79 then kept ++ [c] else kept) s' := by
  have hpos := h.pos
  have hsize : (lineSize : Int) = 80 := rfl
  unfold Shell.shellInsert
  by_cases hroom : kept.length < 79
  swap
  · rw [if_neg hroom, if_neg (by omega)]
    exact ⟨s, rfl, h⟩
  rw [if_pos hroom, if_pos (by omega), setLine_of_le h.pos h.le]
  refine ⟨_, rfl, ?_, ?_, ?_, ?_, ?_, h.y⟩
  · rw [List.length_append, List.length_singleton]
    simp only
    omega
  · rw [List.length_append, List.length_singleton]
    omega
  · intro i hi
    rw [List.length_append, List.length_singleton] at hi
    rw [CString.getD_setIfInBounds _ (by omega)]
    by_cases hlast : i = kept.length
    · rw [if_pos hlast, hlast]
      simp
    · rw [if_neg hlast, h.text i (by omega), List.getD_append _ _ _ _ (by omega)]
  · intro d hd
    rcases List.mem_append.1 hd with hd | hd
    · exact h.nonzero d hd
    · exact List.mem_singleton.1 hd ▸ hc
  · have hx := h.x
    simp only
    omega

/-- What one key does: Enter reports the line held, any other key edits it. -/
theorem Holds.shellKey {c : UInt8} (hc : c ≠ 0) :
    ∃ s', Shell.shellKey c s = some (if isEnter c then some kept else none, s') ∧
      Holds (if isEnter c then [] else editKey kept c) s' := by
  unfold Shell.shellKey editKey
  by_cases henter : isEnter c = true
  · simp only [henter, if_true]
    rcases h.shellEnter with ⟨s', hs', hholds⟩
    exact ⟨s', by rw [hs']; rfl, hholds⟩
  simp only [henter]
  by_cases hback : c = 8
  · simp only [hback, if_true]
    exact ⟨_, rfl, h.shellBackspace⟩
  · simp only [hback, if_false]
    rcases h.shellInsert hc with ⟨s', hs', hholds⟩
    exact ⟨s', by rw [hs']; rfl, hholds⟩

end Keys

/-! ## Runs -/

/-- From a state that holds the edit of `typed`, the keys that follow report what the whole is. -/
theorem shellRun_spec {typed : List UInt8} (htyped : ∀ c ∈ typed, isEnter c = false) (keys : List UInt8)
    (hkeys : ∀ c ∈ keys, c ≠ 0) {s : ShellTask} (h : Holds (edit typed) s) :
    ∃ s' kept, shellRun keys s = some (entered (typed ++ keys), s') ∧ Holds kept s' := by
  induction keys generalizing typed s with
  | nil =>
    have hnone : entered (typed ++ []) = [] := by
      unfold entered
      rw [List.append_nil, List.splitOnP_eq_singleton htyped]
      rfl
    rw [hnone]
    exact ⟨s, edit typed, rfl, h⟩
  | cons c keys ih =>
    have hrest : ∀ d ∈ keys, d ≠ 0 := fun d hd => hkeys d (List.mem_cons_of_mem c hd)
    rcases h.shellKey (hkeys c List.mem_cons_self) with ⟨s₁, hs₁, hholds⟩
    by_cases henter : isEnter c = true
    · -- the line is entered, the next one begins
      rw [if_pos henter] at hs₁ hholds
      rcases ih (List.forall_mem_nil _) hrest hholds with ⟨s₂, kept, hs₂, hkept⟩
      have hsplit : entered (typed ++ c :: keys) = edit typed :: entered ([] ++ keys) := by
        unfold entered
        rw [List.splitOnP_append_cons_of_forall_mem htyped c henter,
          List.dropLast_cons_of_ne_nil (List.splitOnP_ne_nil isEnter keys), List.map_cons, List.nil_append]
      refine ⟨s₂, kept, ?_, hkept⟩
      unfold shellRun
      simp only [hs₁, hs₂, hsplit, Option.bind_eq_bind, Option.bind_some]
      rfl
    · -- one more character of the same line
      rw [if_neg henter] at hs₁ hholds
      have hedit : editKey (edit typed) c = edit (typed ++ [c]) := by
        unfold edit
        rw [List.foldl_append]
        rfl
      have htyped' : ∀ d ∈ typed ++ [c], isEnter d = false := by
        intro d hd
        rcases List.mem_append.1 hd with hd | hd
        · exact htyped d hd
        · rw [List.mem_singleton.1 hd]
          simpa using henter
      rw [hedit] at hholds
      rcases ih htyped' hrest hholds with ⟨s₂, kept, hs₂, hkept⟩
      rw [List.append_assoc] at hs₂
      refine ⟨s₂, kept, ?_, hkept⟩
      unfold shellRun
      simp only [hs₁, hs₂, Option.bind_eq_bind, Option.bind_some]
      rfl

/-- For every sequence of characters, the shell reports the lines entered, indexes `line` in its
bounds, and keeps the position and the cursor in step. -/
theorem shell_edits_lines (vram : Vram) (keys : List UInt8) (hkeys : ∀ c ∈ keys, c ≠ 0) :
    ∃ s, shellRun keys (shellStart vram) = some (entered keys, s) ∧
      0 ≤ s.pos ∧ s.pos ≤ 79 ∧ s.x = 9 + s.pos ∧ 22 ≤ s.y ∧ s.y ≤ 23 := by
  rcases shellRun_spec (List.forall_mem_nil _) keys hkeys (holds_shellStart vram) with ⟨s, kept, hs, hholds⟩
  have hpos := hholds.pos
  have hle := hholds.le
  exact ⟨s, hs, by omega, by omega, hholds.x, hholds.y.1, hholds.y.2⟩

/-- `lx`, a backspace, `s` and Enter. -/
theorem shell_edits_ls : ∃ s, shellRun [108, 120, 8, 115, 13] (shellStart fun _ => 0) = some ([[108, 115]], s) ∧
    0 ≤ s.pos ∧ s.pos ≤ 79 ∧ s.x = 9 + s.pos ∧ 22 ≤ s.y ∧ s.y ≤ 23 := by
  have hentered : entered [108, 120, 8, 115, 13] = [[108, 115]] := by decide
  rw [← hentered]
  exact shell_edits_lines _ _ (by simp)

end CosKernel.Shell
