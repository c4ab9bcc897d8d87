import CosKernel.Sync.Model

/-!
# The spinlock is a mutex

The byte `locked` is zero exactly when no thread is behind `spin_lock`, and there is never more than one,
as long as nobody unlocks the lock for somebody else. One such call is enough to break it: the thread that
makes it can lock at once.
-/

namespace CosKernel.Sync

open Mutex (Event run_acquire run_release)

universe u

variable {T : Type u} [DecidableEq T]

/-- The lock stands for a mutex with this owner, which is the only thread behind `spin_lock`. -/
structure Inv (s : System T) (owner : Option T) : Prop where
  lock : ∃ l, s.lock = some l ∧ (l.locked = 0 ↔ owner = none)
  run : Mutex.run s.events = some owner
  inside : ∀ t, s.place t = .inside ↔ owner = some t

section Steps

variable {s : System T} {owner : Option T}

theorem inv_initial (l : SpinlockT) : Inv (initial (T := T) (some l)) none where
  lock := ⟨⟨0⟩, rfl, iff_of_true rfl rfl⟩
  run := rfl
  inside := by
    intro t
    exact iff_of_false (fun h : Place.outside = .inside => Place.noConfusion h) (Option.some_ne_none t).symm

/-- A thread that moves to a place that is not behind `spin_lock`, without the lock. -/
theorem Inv.inside_update (h : Inv s owner) {t : T} {p : Place} (ht : owner ≠ some t) (hp : p ≠ .inside) (u : T) :
    Function.update s.place t p u = .inside ↔ owner = some u := by
  by_cases hut : u = t
  · rw [hut, Function.update_self]
    exact iff_of_false hp ht
  · rw [Function.update_of_ne hut]
    exact h.inside u

theorem Inv.not_owner (h : Inv s owner) {t : T} (ht : s.place t ≠ .inside) : owner ≠ some t :=
  mt (h.inside t).mpr ht

theorem Inv.call (h : Inv s owner) (t : T) : Inv (Sync.call t s) owner := by
  rcases h.lock with ⟨l, hl, hfree⟩
  unfold Sync.call
  cases hplace : s.place t with
  | outside =>
    rw [hl]
    refine ⟨⟨l, rfl, hfree⟩, h.run, h.inside_update (h.not_owner ?_) ?_⟩
    · rw [hplace]
      exact Place.noConfusion
    · exact Place.noConfusion
  | spinning => exact h
  | inside => exact h

/-- A turn of the loop ends it exactly when the mutex is free. -/
theorem Inv.turn (h : Inv s owner) (t : T) :
    ∃ owner', Inv (Sync.turn t s) owner' ∧
      (s.place t = .spinning → ((Sync.turn t s).place t = .inside ↔ owner = none)) := by
  rcases h.lock with ⟨l, hl, hfree⟩
  unfold Sync.turn
  cases hplace : s.place t with
  | outside => exact ⟨owner, h, fun hspin => Place.noConfusion hspin⟩
  | inside => exact ⟨owner, h, fun hspin => Place.noConfusion hspin⟩
  | spinning =>
    rw [hl]
    by_cases hset : l.locked ≠ 0
    · -- the byte is set, and set again
      have howned : owner ≠ none := mt hfree.mpr hset
      refine ⟨owner, ?_, ?_⟩
      · simp only [atomicTestAndSet, hset, decide_true, if_true, ne_eq, not_false_eq_true]
        exact ⟨⟨⟨1⟩, rfl, iff_of_false (by decide) howned⟩, h.run, h.inside⟩
      · intro _
        simp only [atomicTestAndSet, hset, decide_true, if_true, ne_eq, not_false_eq_true, hplace]
        exact iff_of_false Place.noConfusion howned
    · rw [not_not] at hset
      obtain rfl : owner = none := hfree.mp hset
      refine ⟨some t, ?_, ?_⟩
      · simp only [atomicTestAndSet, hset, ne_eq, not_true_eq_false, decide_false, if_false, Bool.false_eq_true]
        refine ⟨⟨⟨1⟩, rfl, iff_of_false (by decide) (Option.some_ne_none t)⟩, run_acquire h.run t, ?_⟩
        intro u
        dsimp only
        by_cases hut : u = t
        · rw [hut, Function.update_self]
          exact iff_of_true rfl rfl
        · rw [Function.update_of_ne hut, h.inside u]
          exact iff_of_false (Option.some_ne_none u).symm fun heq => hut (Option.some.inj heq).symm
      · intro _
        simp only [atomicTestAndSet, hset, ne_eq, not_true_eq_false, decide_false, if_false, Bool.false_eq_true,
          Function.update_self]

/-- Nobody unlocks for somebody else. -/
theorem Inv.unlock (h : Inv s owner) {t : T} (hright : Rightful s (.unlock t)) :
    ∃ owner', Inv (Sync.unlock t s) owner' := by
  rcases h.lock with ⟨l, hl, -⟩
  unfold Sync.unlock
  cases hplace : s.place t with
  | inside =>
    obtain rfl : owner = some t := (h.inside t).mp hplace
    refine ⟨none, ⟨⟨0⟩, by rw [hl]; rfl, iff_of_true rfl rfl⟩, run_release h.run, ?_⟩
    intro u
    dsimp only
    by_cases hut : u = t
    · rw [hut, Function.update_self]
      exact iff_of_false Place.noConfusion (Option.some_ne_none t).symm
    · rw [Function.update_of_ne hut, h.inside u]
      exact iff_of_false (fun heq => hut (Option.some.inj heq).symm) (Option.some_ne_none u).symm
  | outside =>
    have hnone : owner = none := by
      rw [Option.eq_none_iff_forall_ne_some]
      intro u hu
      exact hright t rfl hplace u ((h.inside u).mpr hu)
    exact ⟨owner, ⟨⟨0⟩, by rw [hl]; rfl, iff_of_true rfl hnone⟩, h.run, h.inside⟩
  | spinning => exact ⟨owner, h⟩

theorem Inv.locks (h : Inv s owner) {e : Step T} (he : e.locks = true) : ∃ owner', Inv (step s e) owner' := by
  cases e with
  | call t => exact ⟨owner, h.call t⟩
  | turn t =>
    rcases h.turn t with ⟨owner', hinv, -⟩
    exact ⟨owner', hinv⟩
  | unlock t => exact absurd he Bool.false_ne_true

theorem Inv.step (h : Inv s owner) {e : Step T} (hright : Rightful s e) : ∃ owner', Inv (Sync.step s e) owner' := by
  cases e with
  | call t => exact h.locks rfl
  | turn t => exact h.locks rfl
  | unlock t => exact h.unlock hright

end Steps

/-! ## Runs -/

/-- The run of `spin_lock` and `spin_unlock` is one of a mutex, whose owner is the only thread behind
`spin_lock`, and a turn of the loop ends it exactly when the mutex is free. -/
def ActsAsMutex (s : System T) : Prop :=
  ∃ owner, Mutex.run s.events = some owner ∧ (∀ t, s.place t = .inside ↔ owner = some t) ∧
    ∀ t, s.place t = .spinning → ((turn t s).place t = .inside ↔ owner = none)

theorem Inv.actsAsMutex {s : System T} {owner : Option T} (h : Inv s owner) : ActsAsMutex s := by
  refine ⟨owner, h.run, h.inside, ?_⟩
  intro t hspin
  rcases h.turn t with ⟨_, -, hturn⟩
  exact hturn hspin

/-- Rightful steps keep the invariant. -/
theorem exists_inv {s : System T} (hs : ∃ owner, Inv s owner) {steps : List (Step T)}
    (hright : Run.Each step Rightful s steps) : ∃ owner, Inv (steps.foldl step s) owner := by
  induction steps generalizing s with
  | nil => exact hs
  | cons e steps ih =>
    rcases hs with ⟨owner, hinv⟩
    exact ih (hinv.step hright.1) hright.2

/-- A step that is not rightful lets a second thread in. -/
theorem breaks {s : System T} {owner : Option T} (h : Inv s owner) {e : Step T} (hwrong : ¬Rightful s e) :
    ∃ more : List (Step T), (∀ e ∈ more, e.locks = true) ∧ ¬ActsAsMutex ((e :: more).foldl step s) := by
  unfold Rightful at hwrong
  push Not at hwrong
  rcases hwrong with ⟨t, rfl, hplace, u, hu⟩
  rcases h.lock with ⟨l, hl, -⟩
  have hut : u ≠ t := by
    rintro rfl
    rw [hplace] at hu
    exact Place.noConfusion hu
  refine ⟨[.call t, .turn t], ?_, ?_⟩
  · intro e he
    simp only [List.mem_cons, List.not_mem_nil, or_false] at he
    rcases he with rfl | rfl
    · rfl
    · rfl
  · have hunlocked : step s (.unlock t) = { s with lock := some ⟨0⟩ } := by
      show unlock t s = _
      unfold unlock
      rw [hplace, hl]
      rfl
    have hcalled : step { s with lock := some ⟨0⟩ } (.call t) =
        { s with lock := some ⟨0⟩, place := Function.update s.place t .spinning } := by
      show call t _ = _
      unfold call
      simp only [hplace]
    have hturned : (step { s with lock := some ⟨0⟩, place := Function.update s.place t .spinning } (.turn t)).place =
        Function.update (Function.update s.place t .spinning) t .inside := by
      show (turn t _).place = _
      unfold turn
      simp only [Function.update_self]
      rfl
    rintro ⟨owner', -, hinside, -⟩
    rw [List.foldl_cons, List.foldl_cons, List.foldl_cons, List.foldl_nil, hunlocked, hcalled, hturned] at hinside
    have ht := (hinside t).mp (Function.update_self _ _ _)
    have hu' := (hinside u).mp (by rw [Function.update_of_ne hut, Function.update_of_ne hut, hu])
    rw [ht] at hu'
    exact hut (Option.some.inj hu').symm

end CosKernel.Sync
