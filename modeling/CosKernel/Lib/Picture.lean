import CosKernel.Lib.Layers

/-!
# Pictures

What a drawing leaves on a canvas, place by place. A canvas is looked at through a
view, which has a cell of the canvas at each of its places. A drawing *shows* a
partial function when afterwards each place has the content of the function, and its
old content where the function has none. A *picture* is a list of such functions with
their tags; at a place the last one is seen that has a content there. Drawings made
one after the other show their pictures one on the other.
-/

namespace CosKernel.Picture

open Layers

universe u v w a

/-- The places that are looked at, and the cells they show. -/
structure View (P : Type u) (Q : Type w) where
  On : P → Prop
  index : P → Q

variable {P : Type u} {Q : Type w} {V : Type v} {A : Type a}

/-- The drawing shows the contents `f`, and the old ones where it has none. -/
def Shows (view : View P Q) (f : P → Option V) (draw : (Q → V) → Q → V) : Prop :=
  ∀ canvas p, view.On p → draw canvas (view.index p) = (f p).getD (canvas (view.index p))

namespace Shows

variable {view : View P Q} {f g : P → Option V} {draw draw' : (Q → V) → Q → V}

theorem nothing : Shows view (fun _ => none) (fun canvas : Q → V => canvas) := by
  intro canvas p _
  rfl

/-- The contents can be described in another way. -/
theorem congr (h : Shows view f draw) (hfg : ∀ p, view.On p → g p = f p) : Shows view g draw := by
  intro canvas p hp
  rw [hfg p hp]
  exact h canvas p hp

/-- The second drawing is seen where it has a content, and the first one elsewhere. -/
theorem comp (h : Shows view f draw) (h' : Shows view g draw') :
    Shows view (fun p => (g p).or (f p)) (fun canvas => draw' (draw canvas)) := by
  intro canvas p hp
  show draw' (draw canvas) (view.index p) = ((g p).or (f p)).getD (canvas (view.index p))
  rw [h' (draw canvas) p hp, h canvas p hp]
  cases g p with
  | none => rfl
  | some v => rfl

/-- A loop whose turns agree with `g` wherever they have a content, and which has a turn for every
content of `g`. -/
theorem loop {body : Int → (Q → V) → Q → V} {turn : Int → P → Option V}
    (hbody : ∀ j, Shows view (turn j) (body j)) {j : Int} {turns : Nat}
    (hagree : ∀ p k, j ≤ k → k < j + turns → turn k p = none ∨ turn k p = g p)
    (hturn : ∀ p, g p ≠ none → ∃ k, j ≤ k ∧ k < j + turns ∧ turn k p = g p) :
    Shows view g (Layers.loop body j turns) := by
  induction turns generalizing j g with
  | zero =>
    intro canvas p _
    have hnone : g p = none := by
      by_contra hsome
      rcases hturn p hsome with ⟨k, hjk, hk, -⟩
      omega
    rw [hnone]
    rfl
  | succ turns ih =>
    -- what the turns behind the first one show
    classical
    let rest : P → Option V := fun p =>
      if ∃ k, j + 1 ≤ k ∧ k < j + 1 + turns ∧ turn k p = g p then g p else none
    have hrest : Shows view rest (Layers.loop body (j + 1) turns) := by
      apply ih
      · intro p k hjk hk
        rcases hagree p k (by omega) (by omega) with hnone | hsame
        · exact Or.inl hnone
        · right
          rw [hsame]
          exact (if_pos ⟨k, hjk, hk, hsame⟩).symm
      · intro p hp
        by_cases hlater : ∃ k, j + 1 ≤ k ∧ k < j + 1 + turns ∧ turn k p = g p
        · rcases hlater with ⟨k, hjk, hk, hsame⟩
          refine ⟨k, hjk, hk, hsame.trans ?_⟩
          exact (if_pos ⟨k, hjk, hk, hsame⟩).symm
        · exact absurd (if_neg hlater) hp
    refine (Shows.comp (hbody j) hrest).congr ?_
    intro p _
    by_cases hlater : ∃ k, j + 1 ≤ k ∧ k < j + 1 + turns ∧ turn k p = g p
    · have hnow := hagree p j (le_refl j) (by omega)
      rw [show rest p = g p from if_pos hlater]
      rcases hnow with hnone | hsame
      · rw [hnone, Option.or_none]
      · rw [hsame, Option.or_self]
    · rw [show rest p = none from if_neg hlater, Option.none_or]
      by_cases hp : g p = none
      · rcases hagree p j (le_refl j) (by omega) with hnone | hsame
        · rw [hnone, hp]
        · exact hsame.symm
      · rcases hturn p hp with ⟨k, hjk, hk, hsame⟩
        have hkj : k = j := by
          by_contra hne
          exact hlater ⟨k, by omega, by omega, hsame⟩
        rw [← hkj]
        exact hsame.symm

/-- What is seen does not depend on the canvas where there is a content. -/
theorem at_some (h : Shows view f draw) {p : P} (hp : view.On p) {v : V} (hv : f p = some v)
    (canvas : Q → V) : draw canvas (view.index p) = v := by
  rw [h canvas p hp, hv]
  rfl

end Shows

/-! ## Pictures -/

/-- A part of a picture. -/
structure Item (P : Type u) (V : Type v) (A : Type a) where
  tag : A
  content : P → Option V

/-- The part that is seen at a place, as its tag and its content. The parts are listed in the order
they are drawn in. -/
def seen : List (Item P V A) → P → Option (A × V)
  | [], _ => none
  | i :: items, p => (seen items p).or ((i.content p).map fun v => (i.tag, v))

/-- The contents that are seen. -/
def contents (items : List (Item P V A)) (p : P) : Option V := (seen items p).map Prod.snd

@[simp] theorem seen_nil (p : P) : seen ([] : List (Item P V A)) p = none := rfl

theorem seen_append (items items' : List (Item P V A)) (p : P) :
    seen (items ++ items') p = (seen items' p).or (seen items p) := by
  induction items with
  | nil => exact (Option.or_none).symm
  | cons i items ih =>
    rw [List.cons_append, seen, ih, seen, Option.or_assoc]

theorem contents_append (items items' : List (Item P V A)) (p : P) :
    contents (items ++ items') p = (contents items' p).or (contents items p) := by
  unfold contents
  rw [seen_append]
  cases seen items' p with
  | none => rfl
  | some s => rfl

theorem contents_cons (i : Item P V A) (items : List (Item P V A)) (p : P) :
    contents (i :: items) p = (contents items p).or (i.content p) := by
  unfold contents
  rw [seen]
  cases seen items p with
  | none =>
    cases i.content p with
    | none => rfl
    | some v => rfl
  | some s => rfl

/-- The drawing shows the picture. -/
def Depicts (view : View P Q) (items : List (Item P V A)) (draw : (Q → V) → Q → V) : Prop :=
  Shows view (contents items) draw

namespace Depicts

variable {view : View P Q} {items items' : List (Item P V A)} {draw draw' : (Q → V) → Q → V}

theorem nothing : Depicts view ([] : List (Item P V A)) (fun canvas : Q → V => canvas) := Shows.nothing

theorem single {f : P → Option V} (h : Shows view f draw) (tag : A) : Depicts view [⟨tag, f⟩] draw := by
  refine h.congr ?_
  intro p _
  rw [contents_cons]
  rfl

theorem comp (h : Depicts view items draw) (h' : Depicts view items' draw') :
    Depicts view (items ++ items') (fun canvas => draw' (draw canvas)) :=
  (Shows.comp h h').congr fun p _ => contents_append items items' p

/-- Drawings for the entries of a list, one after the other. -/
theorem foldl {ι : Type*} {picture : ι → List (Item P V A)} {drawing : ι → (Q → V) → Q → V}
    (l : List ι) (h : ∀ k ∈ l, Depicts view (picture k) (drawing k)) :
    Depicts view (l.flatMap picture) (fun canvas => l.foldl (fun canvas k => drawing k canvas) canvas) := by
  induction l with
  | nil => exact nothing
  | cons k l ih =>
    have hrest := ih fun j hj => h j (List.mem_cons_of_mem k hj)
    exact comp (h k List.mem_cons_self) hrest

end Depicts

end CosKernel.Picture
