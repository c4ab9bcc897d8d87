import CosKernel.Lib.Run

/-!
# Intrusive singly linked lists

A `next` pointer of every cell, as a function `α → Option α` with `none` for
`NULL`. `Linked next p l` says that the walk from `p` visits the cells of `l`,
in this order, and then meets `NULL`. The walk is deterministic, so a list that
ends is acyclic: `Linked.nodup` needs no hypothesis on the cells.

`Linked` is kept by a write to a cell off the list (`Linked.frame`), by hanging
a cell on the tail (`Linked.append`) and by bypassing a cell (`Linked.unlink`):
the writes an intrusive list is edited with.
-/

namespace CosKernel

universe u

variable {α : Type u}

/-- The walk from `p` along `next` is exactly `l`. -/
def Linked (next : α → Option α) : Option α → List α → Prop
  | p, [] => p = none
  | p, a :: l => p = some a ∧ Linked next (next a) l

namespace Linked

variable {next : α → Option α} {p : Option α} {a b : α} {l l₁ l₂ : List α}

@[simp] theorem nil_iff : Linked next p [] ↔ p = none := Iff.rfl

@[simp] theorem cons_iff : Linked next p (a :: l) ↔ p = some a ∧ Linked next (next a) l :=
  Iff.rfl

/-- The walk from a pointer visits one list only. -/
theorem unique (h₁ : Linked next p l₁) (h₂ : Linked next p l₂) : l₁ = l₂ := by
  induction l₁ generalizing p l₂ with
  | nil =>
    cases l₂ with
    | nil => rfl
    | cons b l₂ => simp_all
  | cons a l₁ ih =>
    obtain ⟨rfl, hrest⟩ := h₁
    cases l₂ with
    | nil => simp_all
    | cons b l₂ =>
      obtain ⟨hb, hrest₂⟩ := h₂
      obtain rfl := Option.some.inj hb
      rw [ih hrest hrest₂]

/-- The part of the walk behind a cell of the list is the walk from that cell. -/
theorem tail (h : Linked next p (l₁ ++ a :: l₂)) : Linked next (next a) l₂ := by
  induction l₁ generalizing p with
  | nil => exact h.2
  | cons c l₁ ih => exact ih h.2

/-- A walk that ends meets no cell twice: a second visit would make the rest of
the walk a proper part of itself. -/
theorem nodup (h : Linked next p l) : l.Nodup := by
  induction l generalizing p with
  | nil => exact List.nodup_nil
  | cons a l ih =>
    refine List.nodup_cons.2 ⟨fun ha => ?_, ih h.2⟩
    -- met again behind `s`, the walk from `a` would be both `s ++ a :: t` and `t`
    obtain ⟨s, t, rfl⟩ := List.append_of_mem ha
    have hlen := congrArg List.length (unique h.2 (tail h.2))
    simp at hlen
    omega

/-- A cell of the list points to the head of what follows it. -/
theorem next_eq (h : Linked next p (l₁ ++ a :: l₂)) : next a = l₂.head? := by
  have ht := tail h
  cases l₂ with
  | nil => exact ht
  | cons b l₂ => exact ht.1

theorem head_eq (h : Linked next p l) : p = l.head? := by
  cases l with
  | nil => exact h
  | cons a l => exact h.1

variable [DecidableEq α]

/-- Writing a cell that is off the list does not change the walk. -/
theorem frame (h : Linked next p l) (ha : a ∉ l) (q : Option α) :
    Linked (Function.update next a q) p l := by
  induction l generalizing p with
  | nil => exact h
  | cons c l ih =>
    rw [List.mem_cons, not_or] at ha
    refine ⟨h.1, ?_⟩
    rw [Function.update_of_ne (Ne.symm ha.1)]
    exact ih h.2 ha.2

/-- Redirecting one cell of the list replaces what follows it. -/
theorem splice {q : Option α} (h : Linked next p (l₁ ++ a :: l₂))
    (hq : Linked (Function.update next a q) q l) :
    Linked (Function.update next a q) p (l₁ ++ a :: l) := by
  have hnd := h.nodup
  induction l₁ generalizing p with
  | nil =>
    refine ⟨h.1, ?_⟩
    rw [Function.update_self]
    exact hq
  | cons c l₁ ih =>
    have hca : c ≠ a := by
      rintro rfl
      simp at hnd
    refine ⟨h.1, ?_⟩
    rw [Function.update_of_ne hca]
    exact ih h.2 (List.nodup_cons.1 hnd).2

/-- Hanging a fresh last cell on the tail. -/
theorem append (h : Linked next p (l ++ [a])) (hb : next b = none) (hfresh : b ∉ l ++ [a]) :
    Linked (Function.update next a (some b)) p (l ++ [a, b]) := by
  have hba : b ≠ a := by
    rintro rfl
    simp at hfresh
  refine splice h ⟨rfl, ?_⟩
  rw [Function.update_of_ne hba, hb]
  rfl

/-- Bypassing the cell behind `a`. -/
theorem unlink (h : Linked next p (l₁ ++ a :: b :: l₂)) :
    Linked (Function.update next a (next b)) p (l₁ ++ a :: l₂) := by
  have hb : Linked next (next b) l₂ := (tail h).2
  have ha : a ∉ l₂ := by
    have hnd := List.Nodup.of_append_right h.nodup
    simp only [List.nodup_cons, List.mem_cons, not_or] at hnd
    exact hnd.1.2
  exact splice h (hb.frame ha (next b))

end Linked

end CosKernel
