import Mathlib

/-!
# Runs of a step function

The subsystems of the kernel are modelled as step functions on a state, and a
history as the list of calls made. Two kinds of step function occur:

* **total** ones (`σ → α → σ`), where a run is `List.foldl`;
* **partial** ones (`σ → α → Option σ`), where `none` says that a loop of the
  call never ends, and a run is `Run.exec`.

The rules below turn a statement about one step into one about every run. A loop
inside of a call is a function `σ → Option σ`, with `none` where it ends.
-/

namespace CosKernel.Run

universe u v

variable {σ : Type u} {α : Type v}

/-! ## Total step functions -/

section Total

variable (step : σ → α → σ)

/-- `P` holds in every state of the run of `as` from `s`, both ends included. -/
def Always (P : σ → Prop) : σ → List α → Prop
  | s, [] => P s
  | s, a :: as => P s ∧ Always P (step s a) as

/-- Every step of the run of `as` from `s` meets `C`, a condition on the state
before the step and on the call. -/
def Each (C : σ → α → Prop) : σ → List α → Prop
  | _, [] => True
  | s, a :: as => C s a ∧ Each C (step s a) as

/-- Some step of the run of `as` from `s` meets `C`. -/
def Happens (C : σ → α → Prop) : σ → List α → Prop
  | _, [] => False
  | s, a :: as => C s a ∨ Happens C (step s a) as

/-- A condition that can be evaluated at every step can be evaluated for a run. -/
instance decidableEach (C : σ → α → Prop) [∀ s a, Decidable (C s a)] :
    ∀ s as, Decidable (Each step C s as)
  | _, [] => .isTrue trivial
  | s, a :: as =>
    have := decidableEach C (step s a) as
    inferInstanceAs (Decidable (C s a ∧ Each step C (step s a) as))

variable {step}

/-- An invariant that every step keeps holds at the end of every run. -/
theorem foldl_invariant (Inv : σ → Prop) (hstep : ∀ s a, Inv s → Inv (step s a))
    {s : σ} (hs : Inv s) (as : List α) : Inv (as.foldl step s) := by
  induction as generalizing s with
  | nil => exact hs
  | cons a as ih => exact ih (hstep s a hs)

/-- Every step of a run starts from a state that meets an invariant of all steps. -/
theorem each_of_invariant (Inv : σ → Prop) (hstep : ∀ s a, Inv s → Inv (step s a))
    {s : σ} (hs : Inv s) (as : List α) : Each step (fun s _ => Inv s) s as := by
  induction as generalizing s with
  | nil => trivial
  | cons a as ih => exact ⟨hs, ih (hstep s a hs)⟩

/-- An invariant kept by the steps that meet `C` holds throughout every run
whose steps all meet `C`. -/
theorem always_of_each (Inv : σ → Prop) {P : σ → Prop} {C : σ → α → Prop}
    (hstep : ∀ s a, Inv s → C s a → Inv (step s a)) (hP : ∀ s, Inv s → P s)
    {s : σ} {as : List α} (hs : Inv s) (hC : Each step C s as) : Always step P s as := by
  induction as generalizing s with
  | nil => exact hP s hs
  | cons a as ih => exact ⟨hP s hs, ih (hstep s a hs hC.1) hC.2⟩

/-- If a step between two `P` states always meets `C`, a run that stays in `P`
consists of such steps. -/
theorem each_of_always {P : σ → Prop} {C : σ → α → Prop}
    (hstep : ∀ s a, P s → P (step s a) → C s a)
    {s : σ} {as : List α} (hP : Always step P s as) : Each step C s as := by
  induction as generalizing s with
  | nil => trivial
  | cons a as ih =>
    obtain ⟨hs, hrest⟩ := hP
    have hnext : P (step s a) := by
      cases as with
      | nil => exact hrest
      | cons b bs => exact hrest.1
    exact ⟨hstep s a hs hnext, ih hrest⟩

/-- A run that stays in `P` reaches `P` with each of its steps. -/
theorem Always.each_next {P : σ → Prop} {s : σ} {as : List α} (h : Always step P s as) :
    Each step (fun s a => P (step s a)) s as := by
  apply each_of_always _ h
  intro s a _ hnext
  exact hnext

/-- A run whose steps all meet two conditions meets both at each step. -/
theorem Each.and {C D : σ → α → Prop} {s : σ} {as : List α} (hC : Each step C s as)
    (hD : Each step D s as) : Each step (fun s a => C s a ∧ D s a) s as := by
  induction as generalizing s with
  | nil => trivial
  | cons a as ih => exact ⟨⟨hC.1, hD.1⟩, ih hC.2 hD.2⟩

/-- Where the steps that meet `D` keep `Inv`, and meet `C` in every `Inv` state, a
run whose steps meet `D` meets `C` throughout. -/
theorem Each.weaken {C D : σ → α → Prop} (Inv : σ → Prop)
    (hstep : ∀ s a, Inv s → D s a → Inv (step s a)) (hDC : ∀ s a, Inv s → D s a → C s a)
    {s : σ} {as : List α} (hs : Inv s) (h : Each step D s as) : Each step C s as := by
  induction as generalizing s with
  | nil => trivial
  | cons a as ih => exact ⟨hDC s a hs h.1, ih (hstep s a hs h.1) h.2⟩

/-- The same where it is the steps that meet `C` that keep `Inv`. -/
theorem Each.mono {C D : σ → α → Prop} (Inv : σ → Prop)
    (hstep : ∀ s a, Inv s → C s a → Inv (step s a)) (hDC : ∀ s a, Inv s → D s a → C s a)
    {s : σ} {as : List α} (hs : Inv s) (h : Each step D s as) : Each step C s as := by
  apply Each.weaken Inv _ hDC hs h
  intro s a hinv hD
  exact hstep s a hinv (hDC s a hinv hD)

/-- Where a step that meets `D` leads from `P` to `P` exactly when it meets `C`,
a run of such steps stays in `P` exactly when all of them meet `C`. -/
theorem always_iff_each {P : σ → Prop} {C D : σ → α → Prop}
    (hstep : ∀ s a, P s → D s a → (P (step s a) ↔ C s a))
    {s : σ} {as : List α} (hs : P s) (hD : Each step D s as) :
    Always step P s as ↔ Each step C s as := by
  induction as generalizing s with
  | nil => exact iff_of_true hs trivial
  | cons a as ih =>
    have hiff := hstep s a hs hD.1
    constructor
    · intro h
      have hnext : P (step s a) := h.each_next.1
      exact ⟨hiff.mp hnext, (ih hnext hD.2).mp h.2⟩
    · intro h
      have hnext : P (step s a) := hiff.mpr h.1
      exact ⟨hs, (ih hnext hD.2).mpr h.2⟩

theorem happens_append {C : σ → α → Prop} (s : σ) (as bs : List α) :
    Happens step C s (as ++ bs) ↔ Happens step C s as ∨ Happens step C (as.foldl step s) bs := by
  induction as generalizing s with
  | nil => exact (false_or _).to_iff.symm
  | cons a as ih =>
    show C s a ∨ Happens step C (step s a) (as ++ bs) ↔ (C s a ∨ Happens step C (step s a) as) ∨ _
    rw [ih, or_assoc]
    exact Iff.rfl

/-- A field that every step overwrites or leaves alone holds what was written to it last. -/
theorem foldl_last_write {β : Type*} (field : σ → β) (write : α → Option β)
    (hwrite : ∀ s a, field (step s a) = (write a).getD (field s)) (s : σ) (as : List α) :
    field (as.foldl step s) = ((as.filterMap write).getLast?).getD (field s) := by
  induction as generalizing s with
  | nil => rfl
  | cons a as ih =>
    rw [List.foldl_cons, ih, hwrite, List.filterMap_cons]
    rcases write a with _ | b
    · rfl
    · rw [List.getLast?_cons]
      rfl

/-- The last state of a run that stays in `P` is in `P`. -/
theorem Always.last {P : σ → Prop} {s : σ} {as : List α} (h : Always step P s as) :
    P (as.foldl step s) := by
  induction as generalizing s with
  | nil => exact h
  | cons a as ih => exact ih h.2

end Total

/-! ## Step functions with a result -/

section Results

variable {τ β : Type*}

/-- The results of the calls `as` from `s`, and the state they end in. -/
def results (step : σ → α → β × σ) : σ → List α → List β × σ
  | s, [] => ([], s)
  | s, a :: as => ((step s a).1 :: (results step (step s a).2 as).1, (results step (step s a).2 as).2)

end Results

/-! ## Step functions that may hang -/

section Partial

variable (step : σ → α → Option σ)

/-- The run of `as` from `s`; `none` when one of the calls never returns. -/
def exec : σ → List α → Option σ
  | s, [] => some s
  | s, a :: as => (step s a).bind fun s' => exec s' as

variable {step}

@[simp] theorem exec_nil (s : σ) : exec step s [] = some s := rfl

theorem exec_append (s : σ) (as bs : List α) :
    exec step s (as ++ bs) = (exec step s as).bind fun s' => exec step s' bs := by
  induction as generalizing s with
  | nil => rfl
  | cons a as ih =>
    rw [List.cons_append, exec, exec, Option.bind_assoc]
    congr 1
    funext s₁
    exact ih s₁

/-- If every step from an `Inv` state returns, in an `Inv` state again, so does
every run. -/
theorem exec_invariant (Inv : σ → Prop)
    (hstep : ∀ s a, Inv s → ∃ s', step s a = some s' ∧ Inv s')
    {s : σ} (hs : Inv s) (as : List α) : ∃ s', exec step s as = some s' ∧ Inv s' := by
  induction as generalizing s with
  | nil => exact ⟨s, rfl, hs⟩
  | cons a as ih =>
    obtain ⟨s₁, hs₁, hinv₁⟩ := hstep s a hs
    obtain ⟨s₂, hs₂, hinv₂⟩ := ih hinv₁
    refine ⟨s₂, ?_, hinv₂⟩
    rw [exec, hs₁]
    exact hs₂

/-- Partial correctness: an invariant of the steps that return holds wherever a
run of steps that meet `C` ends. -/
theorem exec_preserves_of (Inv : σ → Prop) (C : α → Prop)
    (hstep : ∀ s a s', C a → Inv s → step s a = some s' → Inv s')
    {s s' : σ} {as : List α} (hC : ∀ a ∈ as, C a) (hs : Inv s) (hrun : exec step s as = some s') :
    Inv s' := by
  induction as generalizing s with
  | nil =>
    rw [exec_nil, Option.some.injEq] at hrun
    exact hrun ▸ hs
  | cons a as ih =>
    rw [exec, Option.bind_eq_some_iff] at hrun
    obtain ⟨s₁, hs₁, hrest⟩ := hrun
    exact ih (fun b hb => hC b (List.mem_cons_of_mem a hb))
      (hstep s a s₁ (hC a List.mem_cons_self) hs hs₁) hrest

theorem exec_preserves (Inv : σ → Prop)
    (hstep : ∀ s a s', Inv s → step s a = some s' → Inv s')
    {s s' : σ} {as : List α} (hs : Inv s) (hrun : exec step s as = some s') : Inv s' :=
  exec_preserves_of Inv (fun _ => True) (fun s a s' _ => hstep s a s') (fun _ _ => trivial) hs hrun

/-- Every call of the run of `as` from `s` returns and meets `C`, a condition on
the state before the call and on the call. -/
def Throughout (step : σ → α → Option σ) (C : σ → α → Prop) : σ → List α → Prop
  | _, [] => True
  | s, a :: as => C s a ∧ ∃ s', step s a = some s' ∧ Throughout step C s' as

/-- Where a call from an `Inv` state meets `C` exactly when it meets `D`, and then
returns in an `Inv` state again, the calls of a run all meet `C` exactly when they
all meet `D`. -/
theorem throughout_congr (Inv : σ → Prop) {C D : σ → α → Prop}
    (hstep : ∀ s a, Inv s → D s a → ∃ s', step s a = some s' ∧ Inv s')
    (hCD : ∀ s a, Inv s → (C s a ↔ D s a)) {s : σ} {as : List α} (hs : Inv s) :
    Throughout step C s as ↔ Throughout step D s as := by
  induction as generalizing s with
  | nil => exact Iff.rfl
  | cons a as ih =>
    show (C s a ∧ _) ↔ (D s a ∧ _)
    rw [hCD s a hs]
    apply and_congr_right
    intro hD
    rcases hstep s a hs hD with ⟨s₁, hs₁, hinv₁⟩
    simp only [hs₁, Option.some.injEq, exists_eq_left']
    exact ih hinv₁

/-- An invariant of all calls that gives `C` gives it throughout every run. -/
theorem throughout_of_invariant (Inv : σ → Prop) {C : σ → α → Prop}
    (hstep : ∀ s a, Inv s → ∃ s', step s a = some s' ∧ Inv s')
    (hC : ∀ s a, Inv s → C s a) {s : σ} (hs : Inv s) (as : List α) : Throughout step C s as := by
  induction as generalizing s with
  | nil => trivial
  | cons a as ih =>
    rcases hstep s a hs with ⟨s₁, hs₁, hinv₁⟩
    exact ⟨hC s a hs, s₁, hs₁, ih hinv₁⟩

/-- The condition holds of a call wherever it is made in the run. -/
theorem Throughout.at {C : σ → α → Prop} {s s' : σ} {before : List α} {a : α} {after : List α}
    (h : Throughout step C s (before ++ a :: after)) (hrun : exec step s before = some s') :
    C s' a := by
  induction before generalizing s with
  | nil =>
    rw [exec_nil, Option.some.injEq] at hrun
    rw [← hrun]
    exact h.1
  | cons b before ih =>
    rcases h.2 with ⟨s₁, hs₁, hrest⟩
    rw [exec, hs₁, Option.bind_some] at hrun
    exact ih hrest hrun

end Partial

section Answers

variable {τ β : Type*}

/-- The results of the calls `as` from `s`, and the state they end in; `none` when
one of them never returns. -/
def answers (step : σ → α → Option (β × σ)) : σ → List α → Option (List β × σ)
  | s, [] => some ([], s)
  | s, a :: as => (step s a).bind fun r => (answers step r.2 as).map fun rest => (r.1 :: rest.1, rest.2)

end Answers

/-! ## Loops -/

section Loop

/-- The loop that goes from `s` to `next s` while there is one ends within `n` turns. -/
def endsWithin (next : σ → Option σ) : Nat → σ → Bool
  | 0, _ => false
  | n + 1, s =>
    match next s with
    | none => true
    | some s' => endsWithin next n s'

/-- The turns of the loop lead from `s` to `s'`. -/
def Leads (next : σ → Option σ) (s s' : σ) : Prop :=
  Relation.ReflTransGen (fun a b => next a = some b) s s'

/-- The loop ends from `s`. -/
def Ends (next : σ → Option σ) (s : σ) : Prop := Acc (fun b a => next a = some b) s

variable {next : σ → Option σ} {s s' : σ}

theorem Ends.of_endsWithin {n : Nat} (h : endsWithin next n s = true) : Ends next s := by
  induction n generalizing s with
  | zero => exact absurd h Bool.false_ne_true
  | succ n ih =>
    refine ⟨s, ?_⟩
    intro s₁ hs₁
    apply ih
    rw [endsWithin, hs₁] at h
    exact h

theorem Ends.exists_endsWithin (h : Ends next s) : ∃ n, endsWithin next n s = true := by
  induction h with
  | intro s _ ih =>
    cases hs : next s with
    | none => exact ⟨1, by rw [endsWithin, hs]⟩
    | some s₁ =>
      rcases ih s₁ hs with ⟨n, hn⟩
      exact ⟨n + 1, by rw [endsWithin, hs]; exact hn⟩

theorem exists_endsWithin_iff : (∃ n, endsWithin next n s = true) ↔ Ends next s := by
  constructor
  · rintro ⟨n, hn⟩
    exact Ends.of_endsWithin hn
  · exact Ends.exists_endsWithin

/-- A loop that ends also ends from where its turns lead. -/
theorem Ends.of_leads (h : Ends next s) (hleads : Leads next s s') : Ends next s' := by
  induction hleads with
  | refl => exact h
  | tail _ hstep ih => exact ih.inv hstep

/-- A loop does not end where it comes back to. -/
theorem not_ends_of_cycle {s₁ : σ} (hstep : next s = some s₁) (hback : Leads next s₁ s) :
    ¬Ends next s := by
  intro h
  induction h generalizing s₁ with
  | intro s _ ih =>
    -- the turn behind `s` is on the same cycle
    rcases hback.cases_head with heq | ⟨s₂, hs₂, hrest⟩
    · subst heq
      exact ih s₁ hstep hstep .refl
    · exact ih s₁ hstep hs₂ (hrest.tail hstep)

end Loop

end CosKernel.Run
