import CosKernel.Lib.Mutex

/-!
# Spinlocks (`sync.c`)

A lock and the threads that use it, on as many processors as there may be. The two atomic operations
on the byte `locked` are the only accesses to it, so that a run is a list of steps of the threads, in any
order: calls of `spin_lock`, turns of its loop, and calls of `spin_unlock`. A step that a thread is not
at leaves everything as it is.
-/

namespace CosKernel.Sync

open Mutex (Event)

universe u

variable {T : Type u} [DecidableEq T]

/-- `spinlock_t` -/
structure SpinlockT where
  locked : UInt8
deriving DecidableEq

/-- `__atomic_test_and_set(&lock->locked, __ATOMIC_ACQUIRE)`: whether the byte was set, and the lock. -/
def atomicTestAndSet (lock : SpinlockT) : Bool × SpinlockT := (lock.locked ≠ 0, ⟨1⟩)

/-- `__atomic_clear(&lock->locked, __ATOMIC_RELEASE)` -/
def atomicClear (_lock : SpinlockT) : SpinlockT := ⟨0⟩

/-- `spinlock_init` -/
def spinlockInit (lock : Option SpinlockT) : Option SpinlockT := lock.map fun _ => ⟨0⟩

/-- Where a thread is: in none of the functions and without the lock, in the loop of `spin_lock`, or behind
it. -/
inductive Place where
  | outside
  | spinning
  | inside
deriving DecidableEq

/-- The lock, or `NULL`, and the threads. The events are a record of the turns that ended `spin_lock` and of
the calls of `spin_unlock` by threads behind it. -/
structure System (T : Type u) where
  lock : Option SpinlockT
  place : T → Place
  events : List (Event T)

inductive Step (T : Type u) where
  /-- `spin_lock(lock)` is called. -/
  | call (t : T)
  /-- `while (__atomic_test_and_set(…)) asm volatile("pause");`, once -/
  | turn (t : T)
  | unlock (t : T)

/-- `spin_lock` up to its loop; it returns at once for `NULL`. -/
def call (t : T) (s : System T) : System T :=
  match s.place t, s.lock with
  | .outside, none => { s with
      place := Function.update s.place t .inside
      events := s.events ++ [.acquire t] }
  | .outside, some _ => { s with place := Function.update s.place t .spinning }
  | _, _ => s

/-- A turn of the loop. -/
def turn (t : T) (s : System T) : System T :=
  match s.place t, s.lock with
  | .spinning, some lock =>
    let r := atomicTestAndSet lock
    if r.1 then { s with lock := some r.2 }
    else
      { lock := some r.2
        place := Function.update s.place t .inside
        events := s.events ++ [.acquire t] }
  | _, _ => s

/-- `spin_unlock` -/
def unlock (t : T) (s : System T) : System T :=
  match s.place t with
  | .inside =>
    { lock := s.lock.map atomicClear
      place := Function.update s.place t .outside
      events := s.events ++ [.release t] }
  | .outside => { s with lock := s.lock.map atomicClear }
  | .spinning => s

def step (s : System T) : Step T → System T
  | .call t => call t s
  | .turn t => turn t s
  | .unlock t => unlock t s

/-- A lock that `spinlock_init` was called for, and no thread that has called `spin_lock`. -/
def initial (lock : Option SpinlockT) : System T := ⟨spinlockInit lock, fun _ => .outside, []⟩

/-- The step belongs to `spin_lock`. -/
def Step.locks : Step T → Bool
  | .unlock _ => false
  | _ => true

/-- A thread that is not behind `spin_lock` calls `spin_unlock` only while no thread is behind it. -/
def Rightful (s : System T) (e : Step T) : Prop :=
  ∀ t, e = .unlock t → s.place t = .outside → ∀ u, s.place u ≠ .inside

end CosKernel.Sync
