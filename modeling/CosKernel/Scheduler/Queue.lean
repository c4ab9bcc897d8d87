import CosKernel.Scheduler.Model

/-!
# The ready queue of the scheduler

What the three queue loops compute on a queue that ends, and what the writes of
the scheduler do to the `next` pointers. Every later proof about the scheduler
goes through these lemmas and never unfolds a loop.
-/

namespace CosKernel.Scheduler

/-- The `next` pointers of the task table. -/
def Sched.next (s : Sched) (t : Slot) : Option Slot := (s.taskTable t).next

/-! ## Field writes -/

@[simp] theorem modify_taskTable_self (s : Sched) (t : Slot) (f : Tcb → Tcb) :
    (s.modify t f).taskTable t = f (s.taskTable t) := by
  simp [Sched.modify]

@[simp] theorem modify_taskTable_ne (s : Sched) {t u : Slot} (f : Tcb → Tcb) (h : u ≠ t) :
    (s.modify t f).taskTable u = s.taskTable u := by
  simp [Sched.modify, h]

/-- A write that leaves the `next` field alone leaves all links alone. -/
theorem modify_next_eq (s : Sched) (t : Slot) {f : Tcb → Tcb} (hf : ∀ b, (f b).next = b.next) :
    (s.modify t f).next = s.next := by
  funext u
  by_cases h : u = t
  · subst h
    simp [Sched.next, hf]
  · simp [Sched.next, h]

/-- A write to the `next` field of one block. -/
theorem modify_next_update (s : Sched) (t : Slot) {f : Tcb → Tcb} {q : Option Slot}
    (hf : (f (s.taskTable t)).next = q) :
    (s.modify t f).next = Function.update s.next t q := by
  funext u
  by_cases h : u = t
  · subst h
    simp [Sched.next, hf]
  · simp [Sched.next, h]

/-- A write that leaves the `pid` field alone keeps every pid. -/
theorem modify_pid_eq (s : Sched) (t u : Slot) {f : Tcb → Tcb} (hf : ∀ b, (f b).pid = b.pid) :
    ((s.modify t f).taskTable u).pid = (s.taskTable u).pid := by
  by_cases h : u = t
  · subst h
    simp [hf]
  · simp [h]

@[simp] theorem setState_currentTask (s : Sched) (t : Slot) (st : TaskState) :
    (s.setState t st).currentTask = s.currentTask := rfl

@[simp] theorem setState_state_self (s : Sched) (t : Slot) (st : TaskState) :
    ((s.setState t st).taskTable t).state = st := by
  simp [Sched.setState]

@[simp] theorem setState_state_ne (s : Sched) {t u : Slot} (st : TaskState) (h : u ≠ t) :
    ((s.setState t st).taskTable u).state = (s.taskTable u).state := by
  simp [Sched.setState, h]

@[simp] theorem setNext_taskCount (s : Sched) (t : Slot) (q : Option Slot) :
    (s.setNext t q).taskCount = s.taskCount := rfl

@[simp] theorem setNext_nextPid (s : Sched) (t : Slot) (q : Option Slot) :
    (s.setNext t q).nextPid = s.nextPid := rfl

@[simp] theorem setNext_currentTask (s : Sched) (t : Slot) (q : Option Slot) :
    (s.setNext t q).currentTask = s.currentTask := rfl

@[simp] theorem setState_next (s : Sched) (t : Slot) (st : TaskState) :
    (s.setState t st).next = s.next :=
  modify_next_eq s t fun _ => rfl

@[simp] theorem setState_pid (s : Sched) (t u : Slot) (st : TaskState) :
    ((s.setState t st).taskTable u).pid = (s.taskTable u).pid :=
  modify_pid_eq s t u (f := fun b => { b with state := st }) fun _ => rfl

@[simp] theorem setNext_pid (s : Sched) (t u : Slot) (q : Option Slot) :
    ((s.setNext t q).taskTable u).pid = (s.taskTable u).pid :=
  modify_pid_eq s t u (f := fun b => { b with next := q }) fun _ => rfl

@[simp] theorem setNext_state (s : Sched) (t u : Slot) (q : Option Slot) :
    ((s.setNext t q).taskTable u).state = (s.taskTable u).state := by
  by_cases h : u = t
  · subst h
    simp [Sched.setNext]
  · simp [Sched.setNext, h]

theorem setNext_next (s : Sched) (t : Slot) (q : Option Slot) :
    (s.setNext t q).next = Function.update s.next t q :=
  modify_next_update s t rfl

/-! ## The loops -/

/-- The walk of `create_task` stops at the last block. -/
theorem lastTask_eq {table : Slot → Tcb} {fuel : Nat} {p : Option Slot} {a b : Slot}
    {l : List Slot} (h : Linked (fun t => (table t).next) p (l ++ [b])) (hp : p = some a)
    (hfuel : l.length < fuel) : lastTask table fuel a = some b := by
  induction l generalizing p a fuel with
  | nil =>
    obtain ⟨n, rfl⟩ := Nat.exists_eq_succ_of_ne_zero (Nat.ne_of_gt hfuel)
    obtain ⟨hb, hend⟩ := h
    obtain rfl : a = b := Option.some.inj (hp.symm.trans hb)
    have hnext : (table a).next = none := hend
    simp [lastTask, hnext]
  | cons c l ih =>
    obtain ⟨n, rfl⟩ := Nat.exists_eq_succ_of_ne_zero (Nat.ne_of_gt (Nat.lt_of_le_of_lt (Nat.zero_le _) hfuel))
    obtain ⟨hc, hrest⟩ := h
    obtain rfl : a = c := Option.some.inj (hp.symm.trans hc)
    -- the block `a` is not the last one, so its `next` is not NULL
    obtain ⟨d, hd⟩ : ∃ d, (table a).next = some d := by
      cases l with
      | nil => exact ⟨b, hrest.1⟩
      | cons d l => exact ⟨d, hrest.1⟩
    rw [lastTask, hd]
    exact ih hrest hd (by simpa using hfuel)

/-- The search of `kill_task` runs off the end when no block has the pid. -/
theorem findPid_absent {table : Slot → Tcb} {pid : UInt32} {fuel : Nat}
    {prev p : Option Slot} {l : List Slot} (h : Linked (fun t => (table t).next) p l)
    (hpid : ∀ t ∈ l, (table t).pid ≠ pid) (hfuel : l.length ≤ fuel) :
    findPid table pid fuel prev p = some none := by
  induction l generalizing prev p fuel with
  | nil =>
    obtain rfl : p = none := h
    simp [findPid]
  | cons a l ih =>
    obtain ⟨rfl, hrest⟩ := h
    obtain ⟨n, rfl⟩ := Nat.exists_eq_add_of_lt hfuel
    rw [findPid, if_neg (hpid a (by simp))]
    exact ih hrest (fun t ht => hpid t (by simp [ht])) (by simp)

/-- The search of `kill_task` stops at the first block with the pid, with the block
before it in `prev`. -/
theorem findPid_found {table : Slot → Tcb} {pid : UInt32} {fuel : Nat}
    {prev p : Option Slot} {t : Slot} {l₁ l₂ : List Slot}
    (h : Linked (fun t => (table t).next) p (l₁ ++ t :: l₂))
    (hpid : ∀ u ∈ l₁, (table u).pid ≠ pid) (ht : (table t).pid = pid)
    (hfuel : l₁.length < fuel) :
    findPid table pid fuel prev p = some (some (l₁.getLast?.or prev, t)) := by
  induction l₁ generalizing prev p fuel with
  | nil =>
    obtain ⟨rfl, -⟩ := h
    obtain ⟨n, rfl⟩ := Nat.exists_eq_succ_of_ne_zero (Nat.ne_of_gt hfuel)
    simp [findPid, ht]
  | cons a l₁ ih =>
    obtain ⟨rfl, hrest⟩ := h
    obtain ⟨n, rfl⟩ := Nat.exists_eq_add_of_lt hfuel
    rw [findPid, if_neg (hpid a (by simp))]
    -- this block is passed, and becomes `prev`
    rw [ih hrest (fun u hu => hpid u (by simp [hu])) (by simp; omega)]
    cases l₁ with
    | nil => simp
    | cons b l₁ =>
      have hlast := List.getLast?_eq_some_getLast (List.cons_ne_nil b l₁)
      simp [hlast]

/-- The search of `task_yield` stops at once on a READY task. -/
theorem skipToReady_ready {table : Slot → Tcb} {t : Slot} (h : (table t).state = .ready) :
    skipToReady table maxTasks (some t) = some (some t) := by
  simp [skipToReady, maxTasks, h]

@[simp] theorem skipToReady_none (table : Slot → Tcb) (fuel : Nat) :
    skipToReady table fuel none = some none := by
  cases fuel <;> rfl

/-- A queue that ends has at most `maxTasks` blocks. -/
theorem queue_length_le {next : Slot → Option Slot} {p : Option Slot} {l : List Slot}
    (h : Linked next p l) : l.length ≤ maxTasks := by
  have := h.nodup.length_le_card
  simpa using this

end CosKernel.Scheduler
