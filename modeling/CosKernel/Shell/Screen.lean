import CosKernel.Shell.LineEditing

/-!
# What the shell shows

The row of the cursor shows the prompt and the line that is being edited, as far
as they fit on the screen: a write past its last column does nothing, and the
line goes on all the same. Only the two rows the shell types on are ever written.
-/

namespace CosKernel.Shell

open Vga

/-! ## The line that is edited -/

/-- The line after one more key: Enter begins a new one. -/
def lineKey (kept : List UInt8) (c : UInt8) : List UInt8 := if isEnter c then [] else editKey kept c

/-- The row `y` shows the text from its first column on. -/
def RowShows (text : List UInt8) (y : Int) (vram : Vram) : Prop :=
  ∀ i : Nat, i < text.length → (i : Int) < vgaWidth → vram (vramIndex i y) = cell (text.getD i 0) 0x0F

/-- No row but 22 and 23 is changed. -/
def Elsewhere (vram vram' : Vram) : Prop :=
  ∀ x y, OnScreen x y → y ≠ 22 → y ≠ 23 → vram' (vramIndex x y) = vram (vramIndex x y)

section Rows

variable {text : List UInt8} {y : Int} {vram vram' : Vram}

theorem onScreen_row (hy : 0 ≤ y ∧ y < vgaHeight) {i : Nat} (hi : (i : Int) < vgaWidth) : OnScreen i y :=
  ⟨Int.natCast_nonneg i, hi, hy.1, hy.2⟩

/-- A character behind the text. -/
theorem RowShows.append (h : RowShows text y vram) (hy : 0 ≤ y ∧ y < vgaHeight) (c : UInt8) :
    RowShows (text ++ [c]) y (vgaWriteChar text.length y c 0x0F vram) := by
  intro i hi hwidth
  rw [vgaWriteChar_at _ _ _ _ _ (onScreen_row hy hwidth)]
  rw [List.length_append, List.length_singleton] at hi
  by_cases hlast : i = text.length
  · rw [if_pos ⟨congrArg Nat.cast hlast, rfl⟩, hlast]
    simp
  · have hne : ¬ ((i : Int) = text.length ∧ y = y) := fun heq => hlast (Int.ofNat.inj heq.1)
    rw [if_neg hne, List.getD_append _ _ _ _ (by omega)]
    exact h i (by omega) hwidth

/-- A write at or behind the end of the text does not change what is shown of it. -/
theorem RowShows.beyond (h : RowShows text y vram) (hy : 0 ≤ y ∧ y < vgaHeight) {x : Int}
    (hx : (text.length : Int) ≤ x) (c : UInt8) : RowShows text y (vgaWriteChar x y c 0x0F vram) := by
  intro i hi hwidth
  rw [vgaWriteChar_at _ _ _ _ _ (onScreen_row hy hwidth), if_neg (fun heq => by omega)]
  exact h i hi hwidth

theorem RowShows.dropLast (h : RowShows text y vram) : RowShows text.dropLast y vram := by
  intro i hi hwidth
  rw [List.length_dropLast] at hi
  have hlen : i < text.dropLast.length := by
    rw [List.length_dropLast]
    exact hi
  rw [h i (by omega) hwidth, List.getD_eq_getElem _ _ (by omega), List.getD_eq_getElem _ _ hlen,
    List.getElem_dropLast]

theorem Elsewhere.write (h : Elsewhere vram vram') {y : Int} (hy : 22 ≤ y ∧ y ≤ 23) (x : Int) (c color : UInt8) :
    Elsewhere vram (vgaWriteChar x y c color vram') := by
  intro x' y' hscreen hne hne'
  rw [vgaWriteChar_at _ _ _ _ _ hscreen, if_neg (fun heq => by omega)]
  exact h x' y' hscreen hne hne'

/-- The text of a row, written from its first column on. -/
theorem writeText_shows (hy : 0 ≤ y ∧ y < vgaHeight) (chars : List UInt8) {s : ShellTask} (hs : s.y = y)
    (hx : s.x = text.length) (h : RowShows text y s.vram) :
    RowShows (text ++ chars) y (chars.foldl
      (fun s c => { s with x := s.x + 1, vram := vgaWriteChar s.x s.y c 0x0F s.vram }) s).vram := by
  induction chars generalizing text s with
  | nil =>
    rw [List.append_nil]
    exact h
  | cons c chars ih =>
    have hwritten := h.append hy c
    rw [← hx, ← hs] at hwritten
    rw [List.foldl_cons, List.append_cons]
    refine ih (s := { s with x := s.x + 1, vram := vgaWriteChar s.x s.y c 0x0F s.vram }) hs ?_ (hs ▸ hwritten)
    rw [List.length_append, List.length_singleton, Nat.cast_add, Nat.cast_one, ← hx]

theorem writeText_elsewhere (chars : List UInt8) {s : ShellTask} (hs : 22 ≤ s.y ∧ s.y ≤ 23)
    (h : Elsewhere vram s.vram) :
    Elsewhere vram (chars.foldl
      (fun s c => { s with x := s.x + 1, vram := vgaWriteChar s.x s.y c 0x0F s.vram }) s).vram := by
  induction chars generalizing s with
  | nil => exact h
  | cons c chars ih => exact ih hs (h.write hs s.x c 0x0F)

end Rows

/-! ## What one key does -/

/-- The shell holds the line, and its row shows it. -/
structure Shows (vram : Vram) (kept : List UInt8) (s : ShellTask) : Prop where
  holds : Holds kept s
  row : RowShows (prompt ++ kept) s.y s.vram
  elsewhere : Elsewhere vram s.vram

theorem prompt_length (kept : List UInt8) : ((prompt ++ kept).length : Int) = 9 + kept.length := by
  rw [List.length_append, Nat.cast_add]
  rfl

/-- A prompt on a row of its own. -/
theorem shows_prompt {vram : Vram} {s : ShellTask} (hholds : Holds [] (writePrompt s)) (hx : s.x = 0)
    (hy : 22 ≤ s.y ∧ s.y ≤ 23) (helse : Elsewhere vram s.vram) : Shows vram [] (writePrompt s) := by
  refine ⟨hholds, ?_, writeText_elsewhere prompt hy helse⟩
  have hrow : 0 ≤ s.y ∧ s.y < vgaHeight := by
    have hheight : vgaHeight = 25 := rfl
    omega
  have hempty : RowShows [] s.y s.vram := fun i hi _ => absurd hi (Nat.not_lt_zero i)
  have hstart : s.x = ([] : List UInt8).length := hx
  have hwritten := writeText_shows hrow prompt rfl hstart hempty
  rw [List.nil_append] at hwritten
  exact hwritten

theorem shows_shellStart (vram : Vram) : Shows vram [] (shellStart vram) :=
  shows_prompt (holds_shellStart vram) rfl ⟨le_rfl, by norm_num⟩ (fun _ _ _ _ _ => rfl)

section Keys

variable {vram : Vram} {kept : List UInt8} {s s' : ShellTask} (h : Shows vram kept s)

include h

theorem Shows.row_mem : 0 ≤ s.y ∧ s.y < vgaHeight := by
  have hy := h.holds.y
  have hheight : vgaHeight = 25 := rfl
  omega

theorem Shows.enter {command : List UInt8} (hs' : shellEnter s = some (command, s')) : Shows vram [] s' := by
  rcases h.holds.shellEnter with ⟨s₁, hs₁, hholds⟩
  obtain rfl : s₁ = s' := congrArg Prod.snd (Option.some.inj (hs₁.symm.trans hs'))
  have hy := h.holds.y
  unfold shellEnter at hs'
  rw [setLine_of_le h.holds.pos h.holds.le, Option.bind_eq_bind, Option.bind_some, h.holds.scan_line,
    Option.bind_eq_bind, Option.bind_some] at hs'
  obtain rfl := congrArg Prod.snd (Option.some.inj hs')
  refine shows_prompt hholds rfl ?_ h.elsewhere
  show 22 ≤ (if s.y + 1 ≥ 24 then 23 else s.y + 1) ∧ (if s.y + 1 ≥ 24 then 23 else s.y + 1) ≤ 23
  split <;> omega

theorem Shows.backspace : Shows vram kept.dropLast (shellBackspace s) := by
  refine ⟨h.holds.shellBackspace, ?_, ?_⟩
  · have hpos := h.holds.pos
    have hx := h.holds.x
    unfold shellBackspace
    by_cases hsome : s.pos > 0
    swap
    · rw [if_neg hsome]
      obtain rfl : kept = [] := List.length_eq_zero_iff.1 (by omega)
      exact h.row
    rw [if_pos hsome]
    have hne : kept ≠ [] := by
      rintro rfl
      rw [List.length_nil] at hpos
      omega
    -- the blank goes where the last character was
    have hdrop : (prompt ++ kept).dropLast = prompt ++ kept.dropLast := List.dropLast_append_of_ne_nil hne
    have hlen : ((prompt ++ kept.dropLast).length : Int) ≤ s.x - 1 := by
      rw [prompt_length, List.length_dropLast]
      omega
    have hrow := h.row.dropLast
    rw [hdrop] at hrow
    exact hrow.beyond h.row_mem hlen 32
  · unfold shellBackspace
    split
    · exact h.elsewhere.write h.holds.y _ _ _
    · exact h.elsewhere

theorem Shows.insert {c : UInt8} (hc : c ≠ 0) :
    ∃ s', shellInsert c s = some s' ∧ Shows vram (if kept.length < 79 then kept ++ [c] else kept) s' := by
  rcases h.holds.shellInsert hc with ⟨s', hs', hholds⟩
  suffices hshown : RowShows (prompt ++ if kept.length < 79 then kept ++ [c] else kept) s'.y s'.vram ∧
      Elsewhere vram s'.vram from ⟨s', hs', hholds, hshown.1, hshown.2⟩
  have hpos := h.holds.pos
  have hsize : (lineSize : Int) = 80 := rfl
  unfold shellInsert at hs'
  by_cases hroom : kept.length < 79
  swap
  · rw [if_neg (by omega), Option.some.injEq] at hs'
    rw [if_neg hroom, ← hs']
    exact ⟨h.row, h.elsewhere⟩
  rw [if_pos (by omega), setLine_of_le h.holds.pos h.holds.le, Option.bind_eq_bind, Option.bind_some,
    Option.pure_def, Option.some.injEq] at hs'
  rw [if_pos hroom, ← hs']
  have hx : s.x = ((prompt ++ kept).length : Int) := by
    rw [prompt_length, h.holds.x, hpos]
  have hrow := h.row.append h.row_mem c
  rw [← hx, List.append_assoc] at hrow
  exact ⟨hrow, h.elsewhere.write h.holds.y _ _ _⟩

/-- Each key leaves the row of the cursor showing the line that is now edited. -/
theorem Shows.shellKey {c : UInt8} (hc : c ≠ 0) :
    ∃ s', Shell.shellKey c s = some (if isEnter c then some kept else none, s') ∧
      Shows vram (lineKey kept c) s' := by
  rcases h.holds.shellKey hc with ⟨s', hs', -⟩
  refine ⟨s', hs', ?_⟩
  unfold Shell.shellKey at hs'
  unfold lineKey editKey
  by_cases henter : isEnter c = true
  · simp only [henter, if_true] at hs' ⊢
    rw [Option.map_eq_some_iff] at hs'
    rcases hs' with ⟨r, hr, heq⟩
    obtain rfl : r.2 = s' := congrArg Prod.snd heq
    exact h.enter hr
  simp only [henter, Bool.false_eq_true, if_false] at hs' ⊢
  by_cases hback : c = 8
  · simp only [hback, if_true] at hs' ⊢
    obtain rfl : shellBackspace s = s' := congrArg Prod.snd (Option.some.inj hs')
    exact h.backspace
  · simp only [hback, if_false] at hs' ⊢
    rcases h.insert hc with ⟨s₁, hs₁, hshows⟩
    rw [hs₁, Option.map_some] at hs'
    obtain rfl : s₁ = s' := congrArg Prod.snd (Option.some.inj hs')
    exact hshows

end Keys

/-! ## Runs -/

end CosKernel.Shell
