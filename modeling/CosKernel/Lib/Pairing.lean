import Mathlib

/-!
# Joining neighbours in one pass

A row of cells is passed once from left to right, and two neighbours that are both
`single` become a `double` and a `dead` cell. The pass looks at neighbouring places
only: after it no two singles are left side by side (`pass_no_singles`), but the
doubles it makes stand two places apart and are never joined again. Where that
happens can be read off the row before the pass (`double_double_iff`).
-/

namespace CosKernel.Pairing

universe u

variable {α : Type u}

/-! ## The places that are joined -/

/-- The pass joins the cell at this place with the next one: both are `single`, and the cell has not
been joined with the one before it. -/
def Joins (single : α) (r : Nat → α) : Nat → Prop
  | 0 => r 0 = single ∧ r 1 = single
  | i + 1 => r (i + 1) = single ∧ r (i + 2) = single ∧ ¬ Joins single r i

/-- The pass joins the cell with the one before it. -/
def Taken (single : α) (r : Nat → α) (i : Nat) : Prop := ∃ j, j + 1 = i ∧ Joins single r j

variable {single double dead : α} {r : Nat → α}

theorem Joins.left {i : Nat} (h : Joins single r i) : r i = single := by
  cases i with
  | zero => exact h.1
  | succ i => exact h.1

theorem Joins.right {i : Nat} (h : Joins single r i) : r (i + 1) = single := by
  cases i with
  | zero => exact h.2
  | succ i => exact h.2.1

theorem Joins.lt {i n : Nat} (h : Joins single r i) (hend : ∀ i, n < i → r i ≠ single) : i < n := by
  by_contra hge
  exact hend (i + 1) (by omega) h.right

/-- Of two singles side by side the first is joined, with the second or with the one before. -/
theorem joins_or_taken {i : Nat} (h : r i = single) (h' : r (i + 1) = single) :
    Joins single r i ∨ Taken single r i := by
  cases i with
  | zero => exact Or.inl ⟨h, h'⟩
  | succ i =>
    by_cases hi : Joins single r i
    · exact Or.inr ⟨i, rfl, hi⟩
    · exact Or.inl ⟨h, h', hi⟩

theorem Taken.not_joins {i : Nat} (h : Taken single r i) : ¬ Joins single r i := by
  rcases h with ⟨j, rfl, hj⟩
  exact fun hi => hi.2.2 hj

theorem Taken.eq_single {i : Nat} (h : Taken single r i) : r i = single := by
  rcases h with ⟨j, rfl, hj⟩
  exact hj.right

/-- Four singles in a row make two doubles, whichever of them the pass joins first. -/
theorem joins_of_four {i : Nat} (h₀ : r i = single) (h₁ : r (i + 1) = single) (h₂ : r (i + 2) = single)
    (h₃ : r (i + 3) = single) : ∃ k, Joins single r k ∧ Joins single r (k + 2) := by
  by_cases hi : Joins single r i
  · have hnot : ¬ Joins single r (i + 1) := fun h => h.2.2 hi
    exact ⟨i, hi, h₂, h₃, hnot⟩
  · rcases joins_or_taken h₀ h₁ with hi' | ⟨j, rfl, hj⟩
    · exact absurd hi' hi
    · exact ⟨j, hj, h₁, h₂, hi⟩

/-! ## The pass -/

variable [DecidableEq α]

/-- One turn: the cells at `i` and `i + 1` are joined if both are `single`. -/
def joinAt (single double dead : α) (r : Nat → α) (i : Nat) : Nat → α :=
  if r i = single ∧ r (i + 1) = single then Function.update (Function.update r i double) (i + 1) dead else r

/-- The turns for `0, …, n - 1`. -/
def pass (single double dead : α) (n : Nat) (r : Nat → α) : Nat → α :=
  (List.range n).foldl (joinAt single double dead) r

/-- What the turns for `0, …, n - 1` do to one cell. -/
structure Passed (single double dead : α) (n : Nat) (r : Nat → α) (i : Nat) : Prop where
  joins : i < n → Joins single r i → pass single double dead n r i = double
  taken : ∀ j < n, j + 1 = i → Joins single r j → pass single double dead n r i = dead
  rest : (i < n → ¬ Joins single r i) → (∀ j < n, j + 1 = i → ¬ Joins single r j) →
    pass single double dead n r i = r i

section Pass

variable (hdead : dead ≠ single)
include hdead

/-- The turn for `n` joins where `Joins` says. -/
theorem joinAt_pass {n : Nat} (hpass : ∀ i, Passed single double dead n r i) :
    (pass single double dead n r n = single ∧ pass single double dead n r (n + 1) = single) ↔
      Joins single r n := by
  -- the cell behind has not been touched, this one may have been taken by the turn before
  have hnext : pass single double dead n r (n + 1) = r (n + 1) :=
    (hpass (n + 1)).rest (fun h => absurd h (by omega)) (fun j hj hjn => absurd hjn (by omega))
  rw [hnext]
  cases n with
  | zero => exact Iff.rfl
  | succ n =>
    by_cases hjoins : Joins single r n
    · rw [(hpass (n + 1)).taken n (Nat.lt_succ_self n) rfl hjoins]
      exact iff_of_false (fun h => hdead h.1) (fun h => h.2.2 hjoins)
    · have hhere : pass single double dead (n + 1) r (n + 1) = r (n + 1) := by
        refine (hpass (n + 1)).rest (fun h => absurd h (by omega)) (fun j hj hjn => ?_)
        have hjn' : j = n := by omega
        rwa [hjn']
      rw [hhere]
      exact ⟨fun h => ⟨h.1, h.2, hjoins⟩, fun h => ⟨h.1, h.2.1⟩⟩

theorem pass_spec (n i : Nat) : Passed single double dead n r i := by
  induction n generalizing i with
  | zero =>
    refine ⟨fun h => absurd h (Nat.not_lt_zero i), fun j hj => absurd hj (Nat.not_lt_zero j), fun _ _ => rfl⟩
  | succ n ih =>
    have hturn := joinAt_pass hdead ih
    have hsucc : pass single double dead (n + 1) r =
        joinAt single double dead (pass single double dead n r) n := by
      unfold pass
      rw [List.range_succ, List.foldl_append]
      rfl
    by_cases hn : Joins single r n
    · have hwrite : pass single double dead (n + 1) r =
          Function.update (Function.update (pass single double dead n r) n double) (n + 1) dead := by
        rw [hsucc]
        exact if_pos (hturn.2 hn)
      by_cases hi : i = n + 1
      · -- taken by this turn
        have hcell : pass single double dead (n + 1) r i = dead := by
          rw [hwrite, hi, Function.update_self]
        refine ⟨fun h => absurd h (by omega), fun _ _ _ _ => hcell, ?_⟩
        intro _ hnot
        exact absurd hn (hnot n (Nat.lt_succ_self n) hi.symm)
      by_cases hin : i = n
      · have hcell : pass single double dead (n + 1) r i = double := by
          rw [hwrite, Function.update_of_ne hi, hin, Function.update_self]
        subst hin
        refine ⟨fun _ _ => hcell, ?_, fun hnot => absurd hn (hnot (Nat.lt_succ_self i))⟩
        intro j _ hji hj
        exact absurd hn (Taken.not_joins ⟨j, hji, hj⟩)
      · have hcell : pass single double dead (n + 1) r i = pass single double dead n r i := by
          rw [hwrite, Function.update_of_ne hi, Function.update_of_ne hin]
        refine ⟨fun hlt h => ?_, fun j hj hji h => ?_, fun hleft hright => ?_⟩
        · exact hcell.trans ((ih i).joins (by omega) h)
        · exact hcell.trans ((ih i).taken j (by omega) hji h)
        · exact hcell.trans ((ih i).rest (fun hlt => hleft (by omega)) (fun j hj => hright j (by omega)))
    · -- nothing changes, and `n` joins nothing
      have hcell : pass single double dead (n + 1) r i = pass single double dead n r i := by
        rw [hsucc]
        exact congrFun (if_neg (mt hturn.1 hn)) i
      refine ⟨fun hlt h => ?_, fun j hj hji h => ?_, fun hleft hright => ?_⟩
      · have hne : i ≠ n := fun heq => hn (heq ▸ h)
        exact hcell.trans ((ih i).joins (by omega) h)
      · have hne : j ≠ n := fun heq => hn (heq ▸ h)
        exact hcell.trans ((ih i).taken j (by omega) hji h)
      · exact hcell.trans ((ih i).rest (fun hlt => hleft (by omega)) (fun j hj => hright j (by omega)))

theorem pass_of_not {n i : Nat} (hjoins : ¬ Joins single r i) (htaken : ¬ Taken single r i) :
    pass single double dead n r i = r i :=
  (pass_spec hdead n i).rest (fun _ => hjoins) (fun j _ hji hj => htaken ⟨j, hji, hj⟩)

/-- A row without two singles side by side stays as it is. -/
theorem pass_of_no_singles (n : Nat) (h : ∀ i, ¬ (r i = single ∧ r (i + 1) = single)) :
    pass single double dead n r = r := by
  have hjoins : ∀ i, ¬ Joins single r i := fun i hi => h i ⟨hi.left, hi.right⟩
  funext i
  apply pass_of_not hdead (hjoins i)
  rintro ⟨j, -, hj⟩
  exact hjoins j hj

section Whole

variable {n : Nat} (hend : ∀ i, n < i → r i ≠ single)
include hend

theorem pass_of_joins {i : Nat} (h : Joins single r i) : pass single double dead n r i = double :=
  (pass_spec hdead n i).joins (h.lt hend) h

theorem pass_of_taken {i : Nat} (h : Taken single r i) : pass single double dead n r i = dead := by
  rcases h with ⟨j, hji, hj⟩
  exact (pass_spec hdead n i).taken j (hj.lt hend) hji hj

variable (hdouble : double ≠ single)
include hdouble

/-- A single that is left was a single before, and has not been joined. -/
theorem pass_eq_single {i : Nat} (h : pass single double dead n r i = single) :
    r i = single ∧ ¬ Joins single r i ∧ ¬ Taken single r i := by
  by_cases hjoins : Joins single r i
  · exact absurd ((pass_of_joins hdead hend hjoins).symm.trans h) hdouble
  by_cases htaken : Taken single r i
  · exact absurd ((pass_of_taken hdead hend htaken).symm.trans h) hdead
  exact ⟨(pass_of_not hdead hjoins htaken).symm.trans h, hjoins, htaken⟩

/-- No two singles are left side by side. -/
theorem pass_no_singles (i : Nat) :
    ¬ (pass single double dead n r i = single ∧ pass single double dead n r (i + 1) = single) := by
  rintro ⟨h, h'⟩
  rcases pass_eq_single hdead hend hdouble h with ⟨hi, hjoins, htaken⟩
  rcases joins_or_taken hi (pass_eq_single hdead hend hdouble h').1 with hj | ht
  · exact hjoins hj
  · exact htaken ht

/-- The doubles after the pass: those it made, and those from before. -/
theorem pass_eq_double (hne : dead ≠ double) (i : Nat) :
    pass single double dead n r i = double ↔ Joins single r i ∨ r i = double := by
  by_cases hjoins : Joins single r i
  · exact iff_of_true (pass_of_joins hdead hend hjoins) (Or.inl hjoins)
  by_cases htaken : Taken single r i
  · rw [pass_of_taken hdead hend htaken]
    apply iff_of_false hne
    rintro (h | h)
    · exact hjoins h
    · exact hdouble (h.symm.trans htaken.eq_single)
  rw [pass_of_not hdead hjoins htaken]
  exact ⟨Or.inr, fun h => h.resolve_left hjoins⟩

end Whole

end Pass

/-! ## Doubles two places apart -/

/-- Where a pass leaves two doubles two places apart: there are two already, or one meets a pair of
singles on either side, or there are four singles in a row. -/
def DoubleDouble {α : Type u} (single double : α) (r : Nat → α) : Prop :=
  ∃ i, (r i = double ∧ r (i + 2) = double) ∨
    (r i = single ∧ r (i + 1) = single ∧ r (i + 2) = single ∧ r (i + 3) = single) ∨
    (r i = double ∧ r (i + 2) = single ∧ r (i + 3) = single) ∨
    ((i = 0 ∨ r (i - 1) ≠ single) ∧ r i = single ∧ r (i + 1) = single ∧ r (i + 2) = double)

variable (hdouble : double ≠ single) (hdead : dead ≠ single) (hne : dead ≠ double)
  {n : Nat} (hend : ∀ i, n < i → r i ≠ single) (hnext : ∀ i, r i = double → r (i + 1) ≠ single)
include hdouble hdead hne hend hnext

/-- Which rows have two doubles two places apart after the pass; a double of the row covers the
place next to it. -/
theorem double_double_iff :
    (∃ i, pass single double dead n r i = double ∧ pass single double dead n r (i + 2) = double) ↔
      DoubleDouble single double r := by
  simp only [pass_eq_double hdead hend hdouble hne]
  constructor
  · rintro ⟨i, hi | hi, hi₂ | hi₂⟩
    · exact ⟨i, Or.inr (Or.inl ⟨hi.left, hi.right, hi₂.left, hi₂.right⟩)⟩
    · by_cases hfirst : i = 0 ∨ r (i - 1) ≠ single
      · exact ⟨i, Or.inr (Or.inr (Or.inr ⟨hfirst, hi.left, hi.right, hi₂⟩))⟩
      · -- the single before has been joined with the one before that
        push Not at hfirst
        rcases hfirst with ⟨hpos, hprev⟩
        obtain ⟨k, rfl⟩ := Nat.exists_eq_succ_of_ne_zero hpos
        have hk : r k = single := hprev
        rcases joins_or_taken hk hi.left with hj | ⟨j, rfl, hj⟩
        · exact absurd hj hi.2.2
        · exact ⟨j, Or.inr (Or.inl ⟨hj.left, hk, hi.left, hi.right⟩)⟩
    · exact ⟨i, Or.inr (Or.inr (Or.inl ⟨hi, hi₂.left, hi₂.right⟩))⟩
    · exact ⟨i, Or.inl ⟨hi, hi₂⟩⟩
  · rintro ⟨i, ⟨h₀, h₂⟩ | ⟨h₀, h₁, h₂, h₃⟩ | ⟨h₀, h₂, h₃⟩ | ⟨hfirst, h₀, h₁, h₂⟩⟩
    · exact ⟨i, Or.inr h₀, Or.inr h₂⟩
    · rcases joins_of_four h₀ h₁ h₂ h₃ with ⟨k, hk, hk₂⟩
      exact ⟨k, Or.inl hk, Or.inl hk₂⟩
    · -- the place next to the double is covered by it
      have hnot : ¬ Joins single r (i + 1) := fun h => hnext i h₀ h.left
      exact ⟨i, Or.inr h₀, Or.inl ⟨h₂, h₃, hnot⟩⟩
    · refine ⟨i, Or.inl ?_, Or.inr h₂⟩
      rcases joins_or_taken h₀ h₁ with hi | ⟨j, rfl, hj⟩
      · exact hi
      · rcases hfirst with hzero | hprev
        · omega
        · exact absurd hj.left hprev

end CosKernel.Pairing
