import CosKernel.Scheduler.Capacity

/-!
# What a task keeps

The name, the entry, the priority and the `memory_kb` of a task are given to it when it is created. No
call of the scheduler touches them afterwards, not even when the task is killed, since its block is
never used again: a later `create_task` takes the block with the number `task_count`, and that
counter only grows.
-/

namespace CosKernel.Scheduler

open Run

/-- What `create_task` and its callers give to a task. -/
def givenTo (b : Tcb) : Option String × UInt64 × UInt32 × UInt32 := (b.name, b.entry, b.priority, b.memoryKb)

/-- The tasks of both states are given the same. -/
def SameTasks (s s' : Sched) : Prop := ∀ u, givenTo (s'.taskTable u) = givenTo (s.taskTable u)

theorem SameTasks.trans {s s₁ s₂ : Sched} (h₁ : SameTasks s s₁) (h₂ : SameTasks s₁ s₂) : SameTasks s s₂ :=
  fun u => (h₂ u).trans (h₁ u)

theorem modify_sameTasks (s : Sched) (t : Slot) {f : Tcb → Tcb} (hf : ∀ b, givenTo (f b) = givenTo b) :
    SameTasks s (s.modify t f) := by
  intro u
  by_cases hut : u = t
  · subst hut
    rw [modify_taskTable_self, hf]
  · rw [modify_taskTable_ne _ _ hut]

theorem setState_sameTasks (s : Sched) (t : Slot) (st : TaskState) : SameTasks s (s.setState t st) :=
  modify_sameTasks s t fun _ => rfl

theorem enqueue_sameTasks {t : Slot} {s s' : Sched} (h : enqueue t s = some s') : SameTasks s s' := by
  unfold enqueue at h
  cases hhead : s.readyQueueHead with
  | none =>
    rw [hhead] at h
    rw [← Option.some.inj h]
    exact setState_sameTasks s t .running
  | some head =>
    rw [hhead] at h
    rcases Option.map_eq_some_iff.mp h with ⟨iter, _, rfl⟩
    exact modify_sameTasks s iter fun _ => rfl

theorem unlinkTask_sameTasks (prev : Option Slot) (t : Slot) (s : Sched) : SameTasks s (unlinkTask prev t s) := by
  have hrelink : SameTasks s (relink prev t (s.setState t .zombie)) := by
    apply (setState_sameTasks s t .zombie).trans
    unfold relink
    split
    · exact fun _ => rfl
    · exact modify_sameTasks _ _ fun _ => rfl
  unfold unlinkTask
  dsimp only
  split
  · exact hrelink
  · exact hrelink

theorem killTask_sameTasks {pid : UInt32} {s s' : Sched} (h : killTask pid s = some s') : SameTasks s s' := by
  unfold killTask at h
  rcases Option.map_eq_some_iff.mp h with ⟨found, _, rfl⟩
  cases found with
  | none => exact fun _ => rfl
  | some place => exact unlinkTask_sameTasks place.1 place.2 s

theorem preempt_sameTasks (c : Slot) (s : Sched) : SameTasks s (preempt c s) := by
  unfold preempt
  split
  · exact modify_sameTasks _ c fun _ => rfl
  · exact fun _ => rfl

theorem handOver_sameTasks (c : Slot) (next : Option Slot) (s : Sched) : SameTasks s (handOver c next s).1 := by
  unfold handOver
  cases next with
  | none => exact setState_sameTasks s c .running
  | some t =>
    by_cases htc : t = c
    · simp only [htc, if_true]
      exact setState_sameTasks s c .running
    · simp only [htc, if_false]
      exact modify_sameTasks s t (f := fun b => { b with state := .running, timeslice := 20 }) fun _ => rfl

theorem taskYield_sameTasks {s : Sched} {r : Sched × Option (Slot × Slot)} (h : taskYield s = some r) :
    SameTasks s r.1 := by
  unfold taskYield at h
  split at h
  · rename_i old head _ _
    rcases Option.map_eq_some_iff.mp h with ⟨next, _, rfl⟩
    exact (preempt_sameTasks old s).trans (handOver_sameTasks old next _)
  · rw [← Option.some.inj h]
    exact fun _ => rfl

theorem saveStackPointer_sameTasks (rsp : UInt64) (sw : Option (Slot × Slot)) (s : Sched) :
    SameTasks s (saveStackPointer rsp sw s) := by
  cases sw with
  | none => exact fun _ => rfl
  | some p => exact modify_sameTasks s p.1 (f := fun b => { b with stackPointer := rsp }) fun _ => rfl

theorem taskExit_sameTasks {s s' : Sched} (h : taskExit s = some s') :
    SameTasks s s' ∧ s'.taskCount = s.taskCount := by
  unfold taskExit at h
  cases hcurrent : s.currentTask with
  | none =>
    rw [hcurrent] at h
    rw [← Option.some.inj h]
    exact ⟨fun _ => rfl, rfl⟩
  | some c =>
    rw [hcurrent] at h
    have hkill : killTask (s.taskTable c).pid (s.setState c .zombie) = some s' := h
    refine ⟨(setState_sameTasks s c .zombie).trans (killTask_sameTasks hkill), ?_⟩
    exact (killTask_taskCount hkill).trans rfl

/-! ## `create_task` -/

/-- The calls that can take a block of the table. -/
def Call.creations : Call → Nat
  | .createTask _ _ _ => 1
  | _ => 0

/-- With room in the table, the block with the number `task_count` becomes the new task, and the
others keep what they were given. -/
theorem createTask_given {taskStacks : UInt64} {name : Option String} {entry : UInt64} {priority : UInt32}
    {s : Sched} {r : Option Slot × Sched} (h : createTask taskStacks name entry priority s = some r)
    (hroom : s.taskCount < maxTasks) :
    r.1 = some ⟨s.taskCount, hroom⟩ ∧ r.2.taskCount = s.taskCount + 1 ∧
      givenTo (r.2.taskTable ⟨s.taskCount, hroom⟩) = (name, entry, priority, 0) ∧
      ∀ u, u ≠ ⟨s.taskCount, hroom⟩ → givenTo (r.2.taskTable u) = givenTo (s.taskTable u) := by
  unfold createTask at h
  rw [dif_pos hroom] at h
  rcases Option.map_eq_some_iff.mp h with ⟨s₂, henqueue, rfl⟩
  have hsame := enqueue_sameTasks henqueue
  refine ⟨rfl, rfl, ?_, ?_⟩
  · show givenTo (s₂.taskTable _) = _
    rw [hsame, initTask_self]
    rfl
  · intro u hu
    show givenTo (s₂.taskTable u) = _
    rw [hsame, initTask_of_ne taskStacks name entry priority hu]

/-- `create_task` counts up to the size of the table, and leaves the tasks that there are what they
were given. -/
theorem createTask_keeps {taskStacks : UInt64} {name : Option String} {entry : UInt64} {priority : UInt32}
    {s : Sched} {r : Option Slot × Sched} (h : createTask taskStacks name entry priority s = some r)
    (hcount : s.taskCount ≤ maxTasks) :
    r.2.taskCount = min maxTasks (s.taskCount + 1) ∧
      ∀ u : Slot, u.val < s.taskCount → givenTo (r.2.taskTable u) = givenTo (s.taskTable u) := by
  by_cases hroom : s.taskCount < maxTasks
  · rcases createTask_given h hroom with ⟨_, hnext, _, hothers⟩
    refine ⟨?_, ?_⟩
    · rw [hnext, Nat.min_eq_right hroom]
    · intro u hu
      apply hothers
      intro heq
      rw [heq] at hu
      exact lt_irrefl _ hu
  · rw [createTask_full hroom, Option.some.injEq] at h
    rw [← h]
    refine ⟨?_, fun _ _ => rfl⟩
    show s.taskCount = _
    omega

/-! ## Every call -/

/-- One call leaves the tasks that there are what they were given, and counts its creation. -/
theorem step_keeps {taskStacks : UInt64} {h h' : History} {call : Call} (hinv : Inv h.sched h.live)
    (hstep : step taskStacks h call = some h') :
    h'.sched.taskCount = min maxTasks (h.sched.taskCount + call.creations) ∧
      ∀ u : Slot, u.val < h.sched.taskCount → givenTo (h'.sched.taskTable u) = givenTo (h.sched.taskTable u) := by
  have hcount := hinv.count
  cases call with
  | createTask name entry priority =>
    rcases Option.map_eq_some_iff.mp hstep with ⟨r, hr, rfl⟩
    exact createTask_keeps hr hcount
  | killTask pid =>
    rcases Option.map_eq_some_iff.mp hstep with ⟨s, hs, rfl⟩
    refine ⟨?_, fun u _ => killTask_sameTasks hs u⟩
    exact (killTask_taskCount hs).trans (Nat.min_eq_right hcount).symm
  | taskExit =>
    rcases Option.map_eq_some_iff.mp hstep with ⟨s, hs, rfl⟩
    rcases taskExit_sameTasks hs with ⟨hsame, hsameCount⟩
    refine ⟨?_, fun u _ => hsame u⟩
    exact hsameCount.trans (Nat.min_eq_right hcount).symm
  | requestSchedule =>
    rw [← Option.some.inj hstep]
    exact ⟨(Nat.min_eq_right hcount).symm, fun _ _ => rfl⟩
  | taskYield rsp =>
    rcases Option.map_eq_some_iff.mp hstep with ⟨r, hr, rfl⟩
    refine ⟨?_, fun u _ => ((taskYield_sameTasks hr).trans (saveStackPointer_sameTasks rsp r.2 r.1)) u⟩
    have hsaved : (saveStackPointer rsp r.2 r.1).taskCount = r.1.taskCount := by
      cases r.2 with
      | none => rfl
      | some p => rfl
    exact (hsaved.trans (taskYield_fields hr).2).trans (Nat.min_eq_right hcount).symm

/-- Every run returns, and leaves the tasks that there were what they were given; the creations take
the blocks that were left. -/
theorem exec_keeps (taskStacks : UInt64) (calls : List Call) {h : History} (hinv : Inv h.sched h.live) :
    ∃ h', exec (step taskStacks) h calls = some h' ∧ Inv h'.sched h'.live ∧
      h'.sched.taskCount = min maxTasks (h.sched.taskCount + (calls.map Call.creations).sum) ∧
      ∀ u : Slot, u.val < h.sched.taskCount → givenTo (h'.sched.taskTable u) = givenTo (h.sched.taskTable u) := by
  induction calls generalizing h with
  | nil =>
    refine ⟨h, rfl, hinv, ?_, fun _ _ => rfl⟩
    exact (Nat.min_eq_right hinv.count).symm
  | cons call calls ih =>
    rcases step_inv taskStacks h call hinv with ⟨h₁, hstep, hinv₁⟩
    rcases step_keeps hinv hstep with ⟨hcount₁, hkept₁⟩
    rcases ih hinv₁ with ⟨h', hrun, hinv', hcount', hkept'⟩
    refine ⟨h', ?_, hinv', ?_, ?_⟩
    · rw [exec, hstep]
      exact hrun
    · rw [hcount', hcount₁, List.map_cons, List.sum_cons]
      omega
    · intro u hu
      have hle : h.sched.taskCount ≤ h₁.sched.taskCount := by
        rw [hcount₁]
        exact le_min hinv.count (Nat.le_add_right _ _)
      rw [hkept' u (lt_of_lt_of_le hu hle), hkept₁ u hu]

end CosKernel.Scheduler
