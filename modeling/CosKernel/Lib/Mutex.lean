import CosKernel.Lib.Run

/-!
# Mutual exclusion

A mutex has an owner or none. Who acquires it must find it free, and only the owner
releases it: a list of events that the mutex accepts is one of sections that follow
each other.
-/

namespace CosKernel.Mutex

universe u

variable {T : Type u} [DecidableEq T]

inductive Event (T : Type u) where
  | acquire (t : T)
  | release (t : T)
deriving DecidableEq

/-- The owner after an event; `none` when the mutex does not accept it. -/
def step (owner : Option T) : Event T → Option (Option T)
  | .acquire t => if owner = none then some (some t) else none
  | .release t => if owner = some t then some none else none

/-- The owner after the events. -/
def run (events : List (Event T)) : Option (Option T) := Run.exec step none events

theorem run_append (events : List (Event T)) (e : Event T) :
    run (events ++ [e]) = (run events).bind fun owner => step owner e := by
  unfold run
  rw [Run.exec_append]
  congr 1
  funext owner
  rw [Run.exec]
  cases step owner e with
  | none => rfl
  | some owner' => rfl

/-- A free mutex is acquired. -/
theorem run_acquire {events : List (Event T)} (h : run events = some none) (t : T) :
    run (events ++ [.acquire t]) = some (some t) := by
  rw [run_append, h, Option.bind_some, step, if_pos rfl]

/-- The owner releases it. -/
theorem run_release {events : List (Event T)} {t : T} (h : run events = some (some t)) :
    run (events ++ [.release t]) = some none := by
  rw [run_append, h, Option.bind_some, step, if_pos rfl]

end CosKernel.Mutex
