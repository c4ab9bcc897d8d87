import Mathlib

/-!
# Search loops

`for (i = 0; i < n; i++)` with a body that may go on, `break` or `return`, and such
loops inside of one another, where an inner `return` leaves all of them.

`IsFirst` says what a search is for: the value at the first place with a
property, in an order of the places. `search_isFirst` is the rule for a loop
whose `break` is justified, `nested_isFirst` the one for a loop around a search.
-/

namespace CosKernel.Search

variable {α ι : Type}

/-- What the body of a loop does at its end. -/
inductive Turn (α : Type) where
  | next
  | leave
  | found (a : α)
deriving DecidableEq, Repr

/-- The loop from `i` on, for `n` turns at most. -/
def searchFrom (turn : Nat → Turn α) : Nat → Nat → Option α
  | _, 0 => none
  | i, n + 1 =>
    match turn i with
    | .next => searchFrom turn (i + 1) n
    | .leave => none
    | .found a => some a

/-- The loop over the numbers below `n`. -/
def search (turn : Nat → Turn α) (n : Nat) : Option α := searchFrom turn 0 n

/-- A loop as the body of another: its `return` is a `return` of the outer one. -/
def Turn.ofOption : Option α → Turn α
  | none => .next
  | some a => .found a

theorem ofOption_eq_found {r : Option α} {a : α} : Turn.ofOption r = .found a ↔ r = some a := by
  cases r <;> simp [Turn.ofOption]

/-- `r` is the value at the first place with `P`, and nothing if there is no such place. -/
def IsFirst (lt : ι → ι → Prop) (P : ι → Prop) (v : ι → α) : Option α → Prop
  | none => ∀ i, ¬ P i
  | some a => ∃ i, P i ∧ (∀ j, lt j i → ¬ P j) ∧ v i = a

/-- There is a result exactly if there is a place. -/
theorem IsFirst.isSome_iff {lt : ι → ι → Prop} {P : ι → Prop} {v : ι → α} {r : Option α}
    (h : IsFirst lt P v r) : r.isSome ↔ ∃ i, P i := by
  cases r with
  | none => simpa using fun i => h i
  | some a =>
    obtain ⟨i, hi, -⟩ := h
    exact iff_of_true rfl ⟨i, hi⟩

section Loop

variable {turn : Nat → Turn α} {P : Nat → Prop}

/-- What a loop from `i` on finds, if it is where it is because the turns before went on. -/
theorem searchFrom_spec {i n : Nat} (hhit : ∀ k < i + n, P k → ∃ a, turn k = .found a)
    (hmiss : ∀ k < i + n, (∀ j < k, turn j = .next) → ¬ P k →
      turn k = .next ∨ turn k = .leave ∧ ∀ j, k < j → j < i + n → ¬ P j)
    (hreach : ∀ j < i, turn j = .next) :
    (searchFrom turn i n = none → ∀ k, i ≤ k → k < i + n → ¬ P k) ∧
    (∀ a, searchFrom turn i n = some a →
      ∃ k, i ≤ k ∧ k < i + n ∧ P k ∧ turn k = .found a ∧ ∀ j, i ≤ j → j < k → ¬ P j) := by
  induction n generalizing i with
  | zero =>
    refine ⟨(fun _ k hlow hhigh => by omega), ?_⟩
    intro a h
    cases h
  | succ n ih =>
    have hend : i + (n + 1) = i + 1 + n := by omega
    rw [searchFrom]
    by_cases hP : P i
    · obtain ⟨b, hb⟩ := hhit i (by omega) hP
      rw [hb]
      refine ⟨(fun h => by cases h), ?_⟩
      intro a h
      obtain rfl : b = a := Option.some.inj h
      exact ⟨i, le_refl _, by omega, hP, hb, fun j hlow hhigh => by omega⟩
    · rcases hmiss i (by omega) hreach hP with hnext | ⟨hleave, hrest⟩
      · rw [hnext]
        have hreach' : ∀ j < i + 1, turn j = .next := by
          intro j hj
          rcases Nat.lt_succ_iff_lt_or_eq.1 hj with hlt | rfl
          · exact hreach j hlt
          · exact hnext
        rw [hend] at hhit hmiss ⊢
        rcases ih hhit hmiss hreach' with ⟨hnone, hsome⟩
        -- the places from `i` on are `i` and those from `i + 1` on
        refine ⟨?_, ?_⟩
        · intro h k hlow hhigh
          rcases Nat.eq_or_lt_of_le hlow with rfl | hlt
          · exact hP
          · exact hnone h k hlt hhigh
        · intro a h
          obtain ⟨k, hlow, hhigh, hk, hfound, hfirst⟩ := hsome a h
          refine ⟨k, by omega, hhigh, hk, hfound, ?_⟩
          intro j hj hjk
          rcases Nat.eq_or_lt_of_le hj with rfl | hlt
          · exact hP
          · exact hfirst j hlt hjk
      · rw [hleave]
        refine ⟨?_, (fun a h => by cases h)⟩
        intro _ k hlow hhigh
        rcases Nat.eq_or_lt_of_le hlow with rfl | hlt
        · exact hP
        · exact hrest k hlt hhigh

/-- The same for a whole loop. -/
theorem search_spec {n : Nat} (hhit : ∀ k < n, P k → ∃ a, turn k = .found a)
    (hmiss : ∀ k < n, (∀ j < k, turn j = .next) → ¬ P k →
      turn k = .next ∨ turn k = .leave ∧ ∀ j, k < j → j < n → ¬ P j) :
    (search turn n = none → ∀ k < n, ¬ P k) ∧
    (∀ a, search turn n = some a → ∃ k < n, P k ∧ turn k = .found a ∧ ∀ j < k, ¬ P j) := by
  have hzero : 0 + n = n := Nat.zero_add n
  have hhit' : ∀ k < 0 + n, P k → ∃ a, turn k = .found a := by rwa [hzero]
  have hmiss' : ∀ k < 0 + n, (∀ j < k, turn j = .next) → ¬ P k →
      turn k = .next ∨ turn k = .leave ∧ ∀ j, k < j → j < 0 + n → ¬ P j := by rwa [hzero]
  rcases searchFrom_spec hhit' hmiss' (fun j hj => absurd hj (Nat.not_lt_zero j)) with ⟨hnone, hsome⟩
  rw [hzero] at hnone hsome
  refine ⟨fun h k hk => hnone h k (Nat.zero_le k) hk, ?_⟩
  intro a h
  obtain ⟨k, -, hkn, hk, hfound, hfirst⟩ := hsome a h
  exact ⟨k, hkn, hk, hfound, fun j hjk => hfirst j (Nat.zero_le j) hjk⟩

/-- A loop that returns at places with `P`, and breaks only if there are no such places further on. -/
theorem search_isFirst {v : Nat → α} {n : Nat} (hhit : ∀ k < n, P k → turn k = .found (v k))
    (hmiss : ∀ k < n, (∀ j < k, turn j = .next) → ¬ P k →
      turn k = .next ∨ turn k = .leave ∧ ∀ j, k < j → j < n → ¬ P j) :
    IsFirst (· < ·) (fun k => k < n ∧ P k) v (search turn n) := by
  rcases search_spec (fun k hkn hk => ⟨v k, hhit k hkn hk⟩) hmiss with ⟨hnone, hsome⟩
  cases hr : search turn n with
  | none =>
    rintro k ⟨hkn, hk⟩
    exact hnone hr k hkn hk
  | some a =>
    obtain ⟨k, hkn, hk, hfound, hfirst⟩ := hsome a hr
    refine ⟨k, ⟨hkn, hk⟩, ?_, Turn.found.inj ((hhit k hkn hk).symm.trans hfound)⟩
    rintro j hjk ⟨-, hj⟩
    exact hfirst j hjk hj

/-- A loop around a search finds the first place in the lexicographic order. -/
theorem nested_isFirst {lt : ι → ι → Prop} {Q : Nat → ι → Prop} {v : Nat → ι → α} {inner : Nat → Option α}
    {n : Nat} (hinner : ∀ k < n, IsFirst lt (Q k) (v k) (inner k)) :
    IsFirst (Prod.Lex (· < ·) lt) (fun p => p.1 < n ∧ Q p.1 p.2) (fun p => v p.1 p.2)
      (search (fun k => .ofOption (inner k)) n) := by
  have hhit : ∀ k < n, (∃ x, Q k x) → ∃ a, Turn.ofOption (inner k) = .found a := by
    intro k hkn hk
    obtain ⟨a, ha⟩ := Option.isSome_iff_exists.1 ((hinner k hkn).isSome_iff.2 hk)
    exact ⟨a, ofOption_eq_found.2 ha⟩
  have hmiss : ∀ k < n, (∀ j < k, Turn.ofOption (inner j) = .next) → ¬ (∃ x, Q k x) →
      Turn.ofOption (inner k) = .next ∨
        Turn.ofOption (inner k) = .leave ∧ ∀ j, k < j → j < n → ¬ ∃ x, Q j x := by
    intro k hkn _ hk
    have hnone : inner k = none := by
      rw [← Option.not_isSome_iff_eq_none, (hinner k hkn).isSome_iff]
      exact hk
    exact .inl (by rw [hnone]; rfl)
  rcases search_spec hhit hmiss with ⟨hnone, hsome⟩
  cases hr : search (fun k => Turn.ofOption (inner k)) n with
  | none =>
    rintro ⟨k, x⟩ ⟨hkn, hk⟩
    exact hnone hr k hkn ⟨x, hk⟩
  | some a =>
    obtain ⟨k, hkn, -, hfound, hfirst⟩ := hsome a hr
    have hfirst' := hinner k hkn
    rw [ofOption_eq_found.1 hfound] at hfirst'
    obtain ⟨x, hx, hbefore, hv⟩ := hfirst'
    refine ⟨(k, x), ⟨hkn, hx⟩, ?_, hv⟩
    rintro ⟨j, y⟩ hlex ⟨-, hy⟩
    rcases Prod.lex_def.1 hlex with hlt | ⟨heq, hlt⟩
    · exact hfirst j hlt ⟨y, hy⟩
    · obtain rfl : j = k := heq
      exact hbefore y hlt hy

end Loop

end CosKernel.Search
