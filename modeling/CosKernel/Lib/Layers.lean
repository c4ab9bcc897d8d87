import Mathlib

/-!
# Layers of paint

A drawing changes a canvas, a map from places to contents. It *paints* a set of
places when it fills each of them with a content that does not depend on the canvas,
and leaves the others alone. Such drawings can be made one after the other, in loops
and in layers; of layers, the last one that covers a place is seen there.
-/

namespace CosKernel.Layers

universe u v w

variable {P : Type u} {V : Type v}

/-- The drawing paints the places of `S`. -/
structure Paints (S : Set P) (draw : (P → V) → P → V) : Prop where
  inside : ∀ canvas canvas' p, p ∈ S → draw canvas p = draw canvas' p
  outside : ∀ canvas p, p ∉ S → draw canvas p = canvas p

/-- `for (; turns; j++) body(j);` -/
def loop (body : Int → (P → V) → P → V) : Int → Nat → (P → V) → P → V
  | _, 0, canvas => canvas
  | j, turns + 1, canvas => loop body (j + 1) turns (body j canvas)

namespace Paints

variable {S T : Set P} {draw draw' : (P → V) → P → V}

theorem nothing : Paints (∅ : Set P) (fun canvas : P → V => canvas) := by
  refine ⟨?_, ?_⟩
  · intro _ _ p hp
    exact absurd hp (Set.notMem_empty p)
  · intro _ _ _
    rfl

theorem update [DecidableEq P] (p : P) (a : V) :
    Paints {p} (fun canvas : P → V => Function.update canvas p a) := by
  refine ⟨?_, ?_⟩
  · rintro canvas canvas' q rfl
    rw [Function.update_self, Function.update_self]
  · intro canvas q hq
    exact Function.update_of_ne hq _ _

/-- A drawing keeps to a set of places exactly if it paints none but those: of two canvases that differ
at a painted place, one is changed there. -/
theorem subset_iff [Nontrivial V] (h : Paints S draw) :
    S ⊆ T ↔ ∀ canvas p, draw canvas p ≠ canvas p → p ∈ T := by
  constructor
  · intro hsub canvas p hchange
    by_contra hp
    exact hchange (h.outside canvas p fun hS => hp (hsub hS))
  · intro hkeep p hp
    obtain ⟨a, b, hab⟩ := exists_pair_ne V
    have hsame := h.inside (fun _ => a) (fun _ => b) p hp
    by_cases ha : draw (fun _ => a) p = a
    · refine hkeep (fun _ => b) p ?_
      rw [← hsame, ha]
      exact hab
    · exact hkeep (fun _ => a) p ha

/-- One drawing after the other. -/
theorem comp (h : Paints S draw) (h' : Paints T draw') :
    Paints (S ∪ T) (fun canvas => draw' (draw canvas)) := by
  refine ⟨?_, ?_⟩
  · intro canvas canvas' p hp
    by_cases hT : p ∈ T
    · exact h'.inside _ _ p hT
    · -- the second drawing leaves the place alone
      rw [h'.outside _ p hT, h'.outside _ p hT]
      exact h.inside _ _ p (hp.resolve_right hT)
  · intro canvas p hp
    rw [h'.outside _ p (fun hT => hp (Or.inr hT)), h.outside _ p (fun hS => hp (Or.inl hS))]

/-- A loop of drawings. -/
theorem loop {S : Int → Set P} {body : Int → (P → V) → P → V} (h : ∀ j, Paints (S j) (body j))
    (j : Int) (turns : Nat) :
    Paints {p | ∃ k, j ≤ k ∧ k < j + turns ∧ p ∈ S k} (Layers.loop body j turns) := by
  induction turns generalizing j with
  | zero =>
    have hnone : {p | ∃ k, j ≤ k ∧ k < j + (0 : Nat) ∧ p ∈ S k} = ∅ := by
      rw [Set.eq_empty_iff_forall_notMem]
      rintro p ⟨k, hjk, hk, _⟩
      omega
    rw [hnone]
    exact nothing
  | succ turns ih =>
    have hsplit : {p | ∃ k, j ≤ k ∧ k < j + (turns + 1 : Nat) ∧ p ∈ S k} =
        S j ∪ {p | ∃ k, j + 1 ≤ k ∧ k < j + 1 + turns ∧ p ∈ S k} := by
      ext p
      constructor
      · rintro ⟨k, hjk, hk, hp⟩
        rcases eq_or_lt_of_le hjk with rfl | hlt
        · left
          exact hp
        · right
          exact ⟨k, by omega, by omega, hp⟩
      · rintro (hp | ⟨k, hjk, hk, hp⟩)
        · exact ⟨j, by omega, by omega, hp⟩
        · exact ⟨k, by omega, by omega, hp⟩
    rw [hsplit]
    exact (h j).comp (ih (j + 1))

end Paints

/-- Of layers made one after the other, the last one that covers a place is seen there; where none
does, the canvas is. -/
theorem foldl_paints {ι : Type w} {S : ι → Set P} {draw : ι → (P → V) → P → V}
    {layers : List ι} (h : ∀ k ∈ layers, Paints (S k) (draw k)) (canvas : P → V) (p : P) :
    ((∀ k ∈ layers, p ∉ S k) ∧
        layers.foldl (fun canvas k => draw k canvas) canvas p = canvas p) ∨
      ∃ front k back, layers = front ++ k :: back ∧ p ∈ S k ∧ (∀ j ∈ back, p ∉ S j) ∧
        ∀ canvas', layers.foldl (fun canvas k => draw k canvas) canvas p = draw k canvas' p := by
  induction layers using List.reverseRecOn with
  | nil =>
    left
    exact ⟨fun k hk => absurd hk List.not_mem_nil, rfl⟩
  | append_singleton layers top ih =>
    have htop := h top (by simp)
    rw [List.foldl_append, List.foldl_cons, List.foldl_nil]
    by_cases hp : p ∈ S top
    · right
      refine ⟨layers, top, [], rfl, hp, fun j hj => absurd hj List.not_mem_nil, ?_⟩
      intro canvas'
      exact htop.inside _ _ p hp
    · -- the layers below are seen through the top one
      rw [htop.outside _ p hp]
      rcases ih (fun k hk => h k (List.mem_append_left _ hk)) with
        ⟨hnone, hsame⟩ | ⟨front, k, back, hlayers, hk, hback, hseen⟩
      · left
        refine ⟨?_, hsame⟩
        intro k hk
        rcases List.mem_append.mp hk with hk | hk
        · exact hnone k hk
        · rwa [List.mem_singleton.mp hk]
      · right
        refine ⟨front, k, back ++ [top], by rw [hlayers]; simp, hk, ?_, hseen⟩
        intro j hj
        rcases List.mem_append.mp hj with hj | hj
        · exact hback j hj
        · rwa [List.mem_singleton.mp hj]

end CosKernel.Layers
