import Mathlib

/-!
# Computations that may fail

A computation with a value or an error, where some errors are to be expected and
others must not occur. `Meets` says this, together with what a value has to
satisfy; the rules take a computation apart at its binds and loops.
-/

namespace CosKernel.Checked

universe u v

variable {ε : Type u} {α β σ : Type v} {ι : Type*}

/-- There is a value with `P`, or an error that is expected. -/
def Meets (expected : ε → Prop) (P : α → Prop) : Except ε α → Prop
  | .ok a => P a
  | .error e => expected e

variable {expected : ε → Prop}

theorem Meets.bind {P : α → Prop} {Q : β → Prop} {x : Except ε α} {f : α → Except ε β} (hx : Meets expected P x)
    (hf : ∀ a, P a → Meets expected Q (f a)) : Meets expected Q (x >>= f) := by
  rcases x with e | a
  · exact hx
  · exact hf a hx

theorem Meets.mono {P Q : α → Prop} {x : Except ε α} (hx : Meets expected P x) (h : ∀ a, P a → Q a) :
    Meets expected Q x := by
  rcases x with e | a
  · exact hx
  · exact h a hx

end CosKernel.Checked
