import CosKernel.Scheduler.Invariant

/-!
# How many tasks there can be

`create_task` takes the slot and the stack with the number `task_count`, and
`kill_task` leaves that counter alone: it counts the creations since boot. As
long as there were fewer than 256 of them, every creation gets a stack of its own;
from then on `create_task` fails, however few tasks are left.
-/

namespace CosKernel.Scheduler

open Run

/-- The bytes of `task_stacks[t]`, counted from the start of `task_stacks`. -/
def stackBytes (t : Slot) : Set Nat := Set.Ico (t.val * taskStackSize) ((t.val + 1) * taskStackSize)

/-- What a `create_task` owes while fewer than 256 tasks are live: a task, with a
stack that no live task has a byte of. -/
def Grants (taskStacks : UInt64) (h : History) (c : Call) : Prop :=
  ∀ name entry priority, c = .createTask name entry priority → h.live.length < maxTasks →
    ∃ t s', createTask taskStacks name entry priority h.sched = some (some t, s') ∧
      (∃ offset ∈ stackBytes t,
        (s'.taskTable t).stackPointer = taskStacks + UInt64.ofNat offset) ∧
      ∀ e ∈ h.live, Disjoint (stackBytes t) (stackBytes e.1)

/-- The condition on a call: a `create_task` comes while `task_count` is below 256,
or while 256 tasks are live. -/
def TableHasRoom (h : History) (c : Call) : Prop :=
  ∀ name entry priority, c = .createTask name entry priority →
    h.sched.taskCount < maxTasks ∨ h.live.length = maxTasks

/-- Different slots have different stacks. -/
theorem stackBytes_disjoint {t u : Slot} (h : t ≠ u) : Disjoint (stackBytes t) (stackBytes u) := by
  rw [Set.disjoint_left]
  intro offset ht hu
  apply h
  apply Fin.ext
  unfold stackBytes taskStackSize at ht hu
  rw [Set.mem_Ico] at ht hu
  omega

/-- The frame `create_task` builds is on the task's own stack. -/
theorem builtFrame_mem (taskStacks : UInt64) (t : Slot) :
    ∃ offset ∈ stackBytes t, stackTop taskStacks t - 7 * 8 = taskStacks + UInt64.ofNat offset := by
  have ht := t.isLt
  refine ⟨(t.val + 1) * taskStackSize - 56, ?_, ?_⟩
  · unfold stackBytes taskStackSize
    rw [Set.mem_Ico]
    omega
  · have hsplit : (t.val + 1) * taskStackSize = (t.val + 1) * taskStackSize - 56 + 56 := by
      unfold taskStackSize
      omega
    unfold stackTop
    rw [hsplit, UInt64.ofNat_add, ← UInt64.add_assoc]
    simp

/-! ## What the calls leave in the blocks -/

/-- Where a task goes on and what it was created to run. -/
def startOf (b : Tcb) : UInt64 × UInt64 := (b.stackPointer, b.entry)

/-- Links and states have no part in that. -/
theorem modify_startOf (s : Sched) (t u : Slot) {f : Tcb → Tcb}
    (hf : ∀ b, startOf (f b) = startOf b) :
    startOf ((s.modify t f).taskTable u) = startOf (s.taskTable u) := by
  by_cases hut : u = t
  · subst hut
    rw [modify_taskTable_self, hf]
  · rw [modify_taskTable_ne _ _ hut]

theorem setState_startOf (s : Sched) (t u : Slot) (st : TaskState) :
    startOf ((s.setState t st).taskTable u) = startOf (s.taskTable u) := by
  unfold Sched.setState
  exact modify_startOf s t u (fun _ => rfl)

/-- `task_yield` moves states and time slices only. -/
theorem preempt_startOf (c u : Slot) (s : Sched) :
    startOf ((preempt c s).taskTable u) = startOf (s.taskTable u) := by
  unfold preempt
  split
  · exact setState_startOf _ c u .ready
  · rfl

theorem preempt_taskCount (c : Slot) (s : Sched) : (preempt c s).taskCount = s.taskCount := by
  unfold preempt
  split
  · rfl
  · rfl

theorem handOver_taskCount (c : Slot) (next : Option Slot) (s : Sched) :
    (handOver c next s).1.taskCount = s.taskCount := by
  unfold handOver
  cases next with
  | none => rfl
  | some t =>
    by_cases htc : t = c
    · simp [htc, Sched.setState, Sched.modify]
    · simp [htc, Sched.modify]

theorem handOver_startOf (c u : Slot) (next : Option Slot) (s : Sched) :
    startOf ((handOver c next s).1.taskTable u) = startOf (s.taskTable u) := by
  unfold handOver
  cases next with
  | none => exact setState_startOf s c u .running
  | some t =>
    by_cases htc : t = c
    · simp only [htc, if_true]
      exact setState_startOf s c u .running
    · simp only [htc, if_false]
      exact modify_startOf s t u (fun _ => rfl)

theorem taskYield_fields {s : Sched} {r : Sched × Option (Slot × Slot)}
    (h : taskYield s = some r) :
    (∀ u, (r.1.taskTable u).entry = (s.taskTable u).entry) ∧ r.1.taskCount = s.taskCount := by
  unfold taskYield at h
  split at h
  · rename_i old head _ _
    rcases Option.map_eq_some_iff.mp h with ⟨next, _, rfl⟩
    refine ⟨?_, ?_⟩
    · intro u
      have hstart := handOver_startOf old u next (preempt old s)
      rw [preempt_startOf] at hstart
      exact congrArg Prod.snd hstart
    · rw [handOver_taskCount, preempt_taskCount]
  · rw [← Option.some.inj h]
    exact ⟨fun _ => rfl, rfl⟩

/-- `kill_task` moves a state and a link only. -/
theorem killTask_startOf {pid : UInt32} {s s' : Sched} (h : killTask pid s = some s') (u : Slot) :
    startOf (s'.taskTable u) = startOf (s.taskTable u) := by
  unfold killTask at h
  rcases Option.map_eq_some_iff.mp h with ⟨found, _, rfl⟩
  cases found with
  | none => rfl
  | some place =>
    have hrelink : startOf ((relink place.1 place.2 (s.setState place.2 .zombie)).taskTable u) =
        startOf (s.taskTable u) := by
      rw [← setState_startOf s place.2 u .zombie]
      unfold relink
      split
      · rfl
      · exact modify_startOf _ _ u (fun _ => rfl)
    show startOf ((unlinkTask place.1 place.2 s).taskTable u) = _
    unfold unlinkTask
    dsimp only
    split
    · exact hrelink
    · exact hrelink

/-- An empty queue makes the new task the current one. -/
theorem enqueue_fields {t : Slot} {s s' : Sched} (h : enqueue t s = some s') :
    (∀ u, startOf (s'.taskTable u) = startOf (s.taskTable u)) ∧
      s'.currentTask = if s.readyQueueHead = none then some t else s.currentTask := by
  unfold enqueue at h
  cases hhead : s.readyQueueHead with
  | none =>
    rw [hhead] at h
    rw [← Option.some.inj h]
    refine ⟨?_, rfl⟩
    intro u
    exact setState_startOf s t u .running
  | some head =>
    rw [hhead] at h
    rcases Option.map_eq_some_iff.mp h with ⟨iter, _, rfl⟩
    refine ⟨?_, rfl⟩
    intro u
    show startOf ((s.modify iter fun b => { b with next := some t }).taskTable u) = _
    exact modify_startOf s iter u (fun _ => rfl)

/-- With room in the table, `create_task` returns the slot with the number
`task_count`, and touches no other block's stack pointer or entry. -/
theorem createTask_room {s : Sched} {live : List (Slot × UInt32)} (h : Inv s live)
    (hroom : s.taskCount < maxTasks) (taskStacks : UInt64) (name : Option String) (entry : UInt64)
    (priority : UInt32) :
    ∃ s', createTask taskStacks name entry priority s = some (some ⟨s.taskCount, hroom⟩, s') ∧
      s'.taskCount = s.taskCount + 1 ∧
      startOf (s'.taskTable ⟨s.taskCount, hroom⟩) =
        (stackTop taskStacks ⟨s.taskCount, hroom⟩ - 7 * 8, entry) ∧
      (∀ u, u ≠ ⟨s.taskCount, hroom⟩ →
        startOf (s'.taskTable u) = startOf (s.taskTable u)) ∧
      s'.currentTask = if s.readyQueueHead = none then some ⟨s.taskCount, hroom⟩
        else s.currentTask := by
  rcases createTask_inv h taskStacks name entry priority with ⟨r, hr, _⟩
  unfold createTask at hr ⊢
  rw [dif_pos hroom] at hr ⊢
  rcases Option.map_eq_some_iff.mp hr with ⟨s₂, henqueue, _⟩
  rcases enqueue_fields henqueue with ⟨hstart, hcurrent⟩
  rw [henqueue]
  refine ⟨{ s₂ with taskCount := s.taskCount + 1 }, rfl, rfl, ?_, ?_, hcurrent⟩
  · show startOf (s₂.taskTable _) = _
    rw [hstart, initTask_self]
    rfl
  · intro u hu
    show startOf (s₂.taskTable u) = _
    rw [hstart, initTask_of_ne taskStacks name entry priority hu]

/-- Without, it fails. -/
theorem createTask_full {s : Sched} (hfull : ¬s.taskCount < maxTasks) (taskStacks : UInt64)
    (name : Option String) (entry : UInt64) (priority : UInt32) :
    createTask taskStacks name entry priority s = some (none, s) := by
  unfold createTask
  exact dif_neg hfull

/-- `kill_task` leaves the counter alone. -/
theorem killTask_taskCount {pid : UInt32} {s s' : Sched} (h : killTask pid s = some s') :
    s'.taskCount = s.taskCount := by
  unfold killTask at h
  rcases Option.map_eq_some_iff.mp h with ⟨found, _, rfl⟩
  cases found with
  | none => rfl
  | some place =>
    have hrelink := (relink_fields place.1 (s.setState place.2 .zombie) place.2).2.2.1
    show (unlinkTask place.1 place.2 s).taskCount = s.taskCount
    unfold unlinkTask
    dsimp only
    split
    · exact hrelink
    · exact hrelink

theorem grants_iff (taskStacks : UInt64) (h : History) (c : Call) (hinv : Inv h.sched h.live) :
    Grants taskStacks h c ↔ TableHasRoom h c := by
  constructor
  · intro hgrants name entry priority hc
    by_cases hroom : h.sched.taskCount < maxTasks
    · exact Or.inl hroom
    · right
      have hle : h.live.length ≤ maxTasks := by
        have hlen := queue_length_le hinv.linked
        rwa [List.length_map] at hlen
      by_contra hne
      rcases hgrants name entry priority hc (lt_of_le_of_ne hle hne) with ⟨t, s', hr, _⟩
      rw [createTask_full hroom] at hr
      simp at hr
  · intro hcond name entry priority hc hlive
    rcases hcond name entry priority hc with hroom | hfull
    · rcases createTask_room hinv hroom taskStacks name entry priority with ⟨s', hr, _, hstart, _⟩
      refine ⟨⟨h.sched.taskCount, hroom⟩, s', hr, ?_, ?_⟩
      · have hpointer := congrArg Prod.fst hstart
        rcases builtFrame_mem taskStacks ⟨h.sched.taskCount, hroom⟩ with ⟨offset, hmem, hoffset⟩
        exact ⟨offset, hmem, hpointer.trans hoffset⟩
      · intro e he
        apply stackBytes_disjoint
        intro heq
        exact hinv.fresh hroom (heq ▸ List.mem_map_of_mem he)
    · omega

/-- In every run from boot, every `create_task` made while fewer than 256 tasks
are live gives a task with a stack of its own, exactly when every `create_task`
is made while `task_count` is below 256 or while 256 tasks are live. -/
theorem create_task_granted_iff (taskStacks : UInt64) (calls : List Call) :
    Throughout (step taskStacks) (Grants taskStacks) boot calls ↔
      Throughout (step taskStacks) TableHasRoom boot calls := by
  apply throughout_congr (fun h : History => Inv h.sched h.live)
  · intro h c hinv _
    exact step_inv taskStacks h c hinv
  · intro h c hinv
    exact grants_iff taskStacks h c hinv
  · exact boot_inv

/-- `n` creations use up `n` slots. -/
theorem exec_creations (taskStacks : UInt64) (entry : UInt64) (n : Nat) (h : History)
    (hinv : Inv h.sched h.live) (hroom : h.sched.taskCount + n ≤ maxTasks) :
    ∃ h', exec (step taskStacks) h (List.replicate n (.createTask none entry 0)) = some h' ∧
      Inv h'.sched h'.live ∧ h'.sched.taskCount = h.sched.taskCount + n := by
  induction n generalizing h with
  | zero => exact ⟨h, rfl, hinv, rfl⟩
  | succ n ih =>
    have hlt : h.sched.taskCount < maxTasks := by omega
    rcases createTask_room hinv hlt taskStacks none entry 0 with ⟨s₁, hr, hcount, _⟩
    rcases step_inv taskStacks h (.createTask none entry 0) hinv with ⟨h₁, hstep, hinv₁⟩
    have hsched : h₁.sched = s₁ := by
      rw [step, hr] at hstep
      rw [← Option.some.inj hstep]
    rw [← hsched] at hcount
    rcases ih h₁ hinv₁ (by omega) with ⟨h', hrun, hinv', hcount'⟩
    refine ⟨h', ?_, hinv', by omega⟩
    rw [List.replicate_succ, exec, hstep]
    exact hrun

/-- Without the first task, fewer than 256 are live. -/
theorem length_live_lt {s : Sched} {live : List (Slot × UInt32)} (h : Wf s live)
    (hfirst : ∀ e ∈ live, e.2 ≠ 1) : live.length < maxTasks := by
  have hne : (0 : Slot) ∉ slots live := by
    intro hmem
    rcases List.mem_map.mp hmem with ⟨e, he, hzero⟩
    have hpid := h.slotOf e he
    rw [hzero] at hpid
    apply hfirst e he
    exact UInt32.toNat_inj.mp hpid
  have hlen := (List.nodup_cons.mpr ⟨hne, h.linked.nodup⟩).length_le_card
  rw [List.length_cons, List.length_map, Fintype.card_fin] at hlen
  omega

/-- 256 creations, the end of the first task, and one more creation. -/
def manyCreations : List Call :=
  List.replicate 256 (.createTask none 0x1000 0) ++ [.killTask 1, .createTask none 0x1000 0]

/-- The last one fails, with 255 tasks live. -/
theorem create_task_fails_with_room :
    ¬Throughout (step 0x200000) (Grants 0x200000) boot manyCreations := by
  intro hall
  rcases exec_creations 0x200000 0x1000 256 boot boot_inv (Nat.le_refl 256) with
    ⟨h₁, hrun₁, hinv₁, hcount₁⟩
  rcases killTask_inv hinv₁ 1 with ⟨s₂, hkill, hinv₂⟩
  have hcount₂ : s₂.taskCount = 256 := by
    rw [killTask_taskCount hkill, hcount₁]
    rfl
  have hlive : (recordKilled 1 h₁.live).length < maxTasks := by
    apply length_live_lt hinv₂.toWf
    intro e he
    simpa [recordKilled] using (List.mem_filter.mp he).2
  have hrun₂ : exec (step 0x200000) boot
      (List.replicate 256 (.createTask none 0x1000 0) ++ [.killTask 1]) =
        some ⟨s₂, recordKilled 1 h₁.live⟩ := by
    rw [exec_append, hrun₁]
    show exec _ h₁ [Call.killTask 1] = _
    rw [exec, step, hkill]
    rfl
  have hsplit : manyCreations = (List.replicate 256 (.createTask none 0x1000 0) ++ [.killTask 1]) ++
      Call.createTask none 0x1000 0 :: [] :=
    (List.append_assoc (List.replicate 256 (Call.createTask none 0x1000 0)) [Call.killTask 1]
      [Call.createTask none 0x1000 0]).symm
  rw [hsplit] at hall
  rcases hall.at hrun₂ none 0x1000 0 rfl hlive with ⟨t, s', hr, _⟩
  rw [createTask_full (by rw [hcount₂]; decide)] at hr
  simp at hr

end CosKernel.Scheduler
