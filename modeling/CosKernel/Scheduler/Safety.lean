import CosKernel.Scheduler.Invariant

/-!
# Safety of the scheduler over whole runs

* `queue_is_live_tasks`: whatever is called after boot, the ready queue is the
  list of the live tasks and the task states agree with `current_task`.
* `ends_dispatch_iff`: after the end of a task (`kill_task` followed by
  `task_yield`) some queued task runs, except when `current_task` is NULL after
  the kill. `kill_task` clears it with the current task, and `task_yield`
  returns at once on a NULL `current_task`: no task is ever dispatched again
  (`exit_of_current_stalls`).
-/

namespace CosKernel.Scheduler

/-- After any run from boot: the walk along the `next` pointers visits the created and not yet
killed tasks, each once, oldest first, with strictly increasing pids; the current task is the
one RUNNING task, every other queued task is READY; without a current task none is RUNNING; and
`kill_task` of a pid that is not queued does nothing. Every call returns. -/
theorem queue_is_live_tasks (taskStacks : UInt64) (calls : List Call) :
    ∃ h, run taskStacks calls = some h ∧
      Linked h.sched.next h.sched.readyQueueHead (slots h.live) ∧ (slots h.live).Nodup ∧
      (∀ e ∈ h.live, (h.sched.taskTable e.1).pid = e.2) ∧
      (h.live.map Prod.snd).Pairwise (· < ·) ∧
      (∀ c, h.sched.currentTask = some c →
        c ∈ slots h.live ∧ (h.sched.taskTable c).state = .running ∧
        (∀ t, t ≠ c → (h.sched.taskTable t).state ≠ .running) ∧
        ∀ t ∈ slots h.live, t ≠ c → (h.sched.taskTable t).state = .ready) ∧
      (h.sched.currentTask = none → ∀ t ∈ slots h.live, (h.sched.taskTable t).state ≠ .running) ∧
      ∀ pid, pid ∉ h.live.map Prod.snd → killTask pid h.sched = some h.sched := by
  rcases run_inv taskStacks calls with ⟨h, hrun, hinv⟩
  refine ⟨h, hrun, hinv.linked, hinv.linked.nodup, hinv.pids, ?_, ?_, ?_, ?_⟩
  · exact List.pairwise_map.2 hinv.sorted
  · intro c hc
    have hmem := hinv.current c hc
    have hready : ∀ t ∈ slots h.live, t ≠ c → (h.sched.taskTable t).state = .ready := by
      intro t ht htc
      have hne : h.sched.currentTask ≠ some t := by
        rw [hc]
        intro heq
        exact htc (Option.some.inj heq).symm
      exact (hinv.states t ht).trans (if_neg hne)
    refine ⟨hmem, (hinv.states c hmem).trans (if_pos hc), ?_, hready⟩
    intro t htc
    -- a block off the queue is unused or was killed
    by_cases ht : t ∈ slots h.live
    · rw [hready t ht htc]
      simp
    · rw [hinv.dead t ht]
      simp
  · intro hc t ht
    rw [hinv.states t ht, expected, hc]
    simp
  · intro pid hpid
    apply killTask_absent hinv.toWf
    intro e he heq
    exact hpid (heq ▸ List.mem_map_of_mem he)

/-! ## The end of a task -/

/-- Either the ready queue is empty, or the current task is one of its members and RUNNING. -/
def Dispatching (s : Sched) : Prop :=
  s.readyQueueHead ≠ none →
    ∃ c q, s.currentTask = some c ∧ Linked s.next s.readyQueueHead q ∧ c ∈ q ∧
      (s.taskTable c).state = .running

/-- In a state in order, that comes down to `current_task` and the queue head. -/
theorem Inv.dispatching_iff {s : Sched} {live : List (Slot × UInt32)} (h : Inv s live) :
    Dispatching s ↔ live = [] ∨ s.currentTask ≠ none := by
  constructor
  · intro hd
    by_cases hhead : s.readyQueueHead = none
    · left
      have hnil : slots live = [] := h.linked.unique (hhead ▸ Linked.nil_iff.2 rfl)
      simpa using hnil
    · right
      rcases hd hhead with ⟨c, q, hc, -⟩
      rw [hc]
      simp
  · rintro (hnil | hcur) hhead
    · have hlinked := h.linked
      rw [hnil] at hlinked
      exact absurd hlinked hhead
    · rcases Option.ne_none_iff_exists'.1 hcur with ⟨c, hc⟩
      have hmem := h.current c hc
      exact ⟨c, slots live, hc, h.linked, hmem, (h.states c hmem).trans (if_pos hc)⟩

theorem unlinkTask_currentTask (prev : Option Slot) (t : Slot) (s : Sched) :
    (unlinkTask prev t s).currentTask = if s.currentTask = some t then none else s.currentTask := by
  have hcur : (relink prev t (s.setState t .zombie)).currentTask = s.currentTask :=
    (relink_fields prev (s.setState t .zombie) t).2.2.2.2
  unfold unlinkTask
  by_cases hc : s.currentTask = some t
  · simp [hcur, hc]
  · simp [hcur, hc]

/-- `task_yield` neither finds a current task where there was none nor loses one. -/
theorem taskYield_currentTask {s : Sched} {live : List (Slot × UInt32)} (h : Inv s live)
    {r : Sched × Option (Slot × Slot)} (hr : taskYield s = some r) :
    r.1.currentTask = none ↔ s.currentTask = none := by
  cases hcur : s.currentTask with
  | none =>
    unfold taskYield at hr
    simp only [hcur, Option.some.injEq] at hr
    simp [← hr, hcur]
  | some c =>
    rcases List.append_of_mem (h.current c hcur) with ⟨q₁, q₂, hq⟩
    rw [taskYield_eq h hcur hq, Option.some.injEq] at hr
    have hcur' : (preempt c s).currentTask = some c := by rw [preempt_currentTask, hcur]
    rw [← hr, handOver_currentTask hcur']
    simp

/-- A current task is left by the kill of `t` exactly when the current task has another pid. -/
theorem Inv.current_left_iff {s : Sched} {live : List (Slot × UInt32)} (h : Inv s live) {t : Slot}
    {pid : UInt32} (ht : (t, pid) ∈ live) :
    (if s.currentTask = some t then none else s.currentTask) ≠ none ↔
      ∃ c, s.currentTask = some c ∧ (s.taskTable c).pid ≠ pid := by
  constructor
  · intro hne
    by_cases hc : s.currentTask = some t
    · simp [hc] at hne
    rw [if_neg hc] at hne
    rcases Option.ne_none_iff_exists'.1 hne with ⟨c, hcc⟩
    refine ⟨c, hcc, ?_⟩
    -- another task of the queue has another pid
    rcases List.mem_map.1 (h.current c hcc) with ⟨e, he, rfl⟩
    rw [h.pids e he]
    have het : e.1 ≠ t := fun heq => hc (heq ▸ hcc)
    intro hep
    apply het
    have h₁ : e.2.toNat = e.1.val + 1 := h.slotOf e he
    have h₂ : pid.toNat = t.val + 1 := h.slotOf (t, pid) ht
    rw [hep] at h₁
    exact Fin.ext (by omega)
  · rintro ⟨c, hcc, hpid⟩
    have hct : c ≠ t := by
      rintro rfl
      exact hpid (h.pids (c, pid) ht)
    have hne : s.currentTask ≠ some t := by
      rw [hcc]
      exact fun heq => hct (Option.some.inj heq)
    rw [if_neg hne, hcc]
    simp

/-- After `kill_task(pid)` and `task_yield` on a live pid, the scheduler dispatches iff the task
killed was the only one, or there was a current task and it was another one. -/
theorem ends_dispatch_iff (taskStacks : UInt64) (calls : List Call) (h : History)
    (hrun : run taskStacks calls = some h) (pid : UInt32) (hlive : pid ∈ h.live.map Prod.snd)
    (rsp : UInt64) :
    ∃ h', Run.exec (step taskStacks) h [.killTask pid, .taskYield rsp] = some h' ∧
      (Dispatching h'.sched ↔
        (∀ p ∈ h.live.map Prod.snd, p = pid) ∨
        ∃ c, h.sched.currentTask = some c ∧ (h.sched.taskTable c).pid ≠ pid) := by
  rcases run_inv taskStacks calls with ⟨h₀, hrun₀, hinv⟩
  obtain rfl : h = h₀ := Option.some.inj (hrun.symm.trans hrun₀)
  rcases List.mem_map.1 hlive with ⟨⟨t, p⟩, ht, rfl⟩
  rcases List.append_of_mem ht with ⟨l₁, l₂, hl⟩
  -- the state after the kill
  have hinv₁ : Inv (unlinkTask (slots l₁).getLast? t h.sched) (recordKilled p h.live) := by
    rcases killTask_inv hinv p with ⟨s₁, hs₁, hinv₁⟩
    rw [killTask_live (hl ▸ hinv.toWf)] at hs₁
    exact Option.some.inj hs₁ ▸ hinv₁
  have hstep₁ : step taskStacks h (.killTask p) =
      some ⟨unlinkTask (slots l₁).getLast? t h.sched, recordKilled p h.live⟩ := by
    rw [step, killTask_live (hl ▸ hinv.toWf), Option.map_some]
  have hcur₁ := unlinkTask_currentTask (slots l₁).getLast? t h.sched
  generalize unlinkTask (slots l₁).getLast? t h.sched = s₁ at hinv₁ hstep₁ hcur₁
  -- the state after the yield
  rcases taskYield_inv hinv₁ with ⟨r, hr, hinv₂⟩
  refine ⟨⟨saveStackPointer rsp r.2 r.1, recordKilled p h.live⟩, ?_, ?_⟩
  · rw [Run.exec, hstep₁, Option.bind_some, Run.exec, step, hr]
    rfl
  have hcur₂ : (saveStackPointer rsp r.2 r.1).currentTask = none ↔ s₁.currentTask = none := by
    rw [← taskYield_currentTask hinv₁ hr]
    cases r.2 <;> rfl
  have hempty : recordKilled p h.live = [] ↔ ∀ q ∈ h.live.map Prod.snd, q = p := by
    simp only [recordKilled, List.filter_eq_nil_iff, List.forall_mem_map]
    simp
  have hother : s₁.currentTask ≠ none ↔
      ∃ c, h.sched.currentTask = some c ∧ (h.sched.taskTable c).pid ≠ p := by
    rw [hcur₁]
    exact hinv.current_left_iff ht
  rw [(saveStackPointer_inv hinv₂ rsp r.2).dispatching_iff, hempty, ← hother]
  exact or_congr_right (not_congr hcur₂)

/-- The first two tasks `kernel_main` creates; idle becomes the current one. -/
def bootTasks : List Call := [.createTask (some "idle") 0x1000 0, .createTask (some "shell") 0x2000 1]

/-- The scheduler after them. -/
def bootHistory : History := (run 0 bootTasks).getD boot

/-- The end of shell leaves idle running. -/
theorem ends_dispatch_shell :
    ∃ h', Run.exec (step 0) bootHistory [.killTask 2, .taskYield 0] = some h' ∧
      Dispatching h'.sched := by
  have hrun : run 0 bootTasks = some bootHistory := rfl
  rcases ends_dispatch_iff 0 bootTasks bootHistory hrun 2 (by decide +kernel) 0 with
    ⟨h', hrun', hiff⟩
  refine ⟨h', hrun', hiff.2 (Or.inr ⟨0, rfl, ?_⟩)⟩
  decide +kernel

/-- The end of idle, the current task: shell is queued, but `current_task` is NULL after the
kill, and the `task_yield` that should dispatch shell returns at once. -/
theorem exit_of_current_stalls :
    run 0 bootTasks = some bootHistory ∧ (1 : UInt32) ∈ bootHistory.live.map Prod.snd ∧
      ∃ h', Run.exec (step 0) bootHistory [.killTask 1, .taskYield 0] = some h' ∧
        h'.sched.readyQueueHead = some 1 ∧ h'.sched.currentTask = none ∧
        ¬ Dispatching h'.sched := by
  refine ⟨rfl, by decide +kernel, ?_⟩
  rcases hrun : Run.exec (step 0) bootHistory [.killTask 1, .taskYield 0] with _ | h'
  · exact absurd hrun (by decide +kernel)
  have hfields : (Run.exec (step 0) bootHistory [.killTask 1, .taskYield 0]).map
      (fun h => (h.sched.readyQueueHead, h.sched.currentTask)) = some (some 1, none) := by
    decide +kernel
  rw [hrun, Option.map_some, Option.some.injEq, Prod.mk.injEq] at hfields
  rcases hfields with ⟨hhead, hcur⟩
  refine ⟨h', rfl, hhead, hcur, ?_⟩
  intro hd
  rcases hd (by simp [hhead]) with ⟨c, q, hc, -⟩
  rw [hcur] at hc
  simp at hc

end CosKernel.Scheduler
