import CosKernel.Scheduler.Capacity
import CosKernel.Scheduler.RoundRobin

/-!
# How long a task waits

While tasks come and go, the order of the turns does not stay a plain rotation.
But a new task is hung on the tail of the queue and comes in at one place of the
order, so it delays the others by one turn; a task that is killed delays nobody;
and a yield takes the first task of the order. So a task that is spared waits for
the tasks that were queued when it began to wait and for those created meanwhile,
and for no one else.
-/

namespace CosKernel.Scheduler

def Call.isCreate : Call → Bool
  | .createTask _ _ _ => true
  | _ => false

/-- The call ends neither this task nor the one that runs. -/
def Spares (t : Slot) (h : History) : Call → Prop
  | .killTask pid => (h.sched.taskTable t).pid ≠ pid ∧
      ∀ c, h.sched.currentTask = some c → (h.sched.taskTable c).pid ≠ pid
  | .taskExit => False
  | _ => True

/-- The task comes behind `k` others in the order of the turns. -/
def Waits (h : History) (t : Slot) (k : Nat) : Prop :=
  ∃ ahead behind, Turns h (ahead ++ t :: behind) ∧ ahead.length = k

/-! ## One call -/

section Step

variable (taskStacks : UInt64) {h h' : History} {order : List Slot}

/-- A new task comes in behind the tasks from the current one to the tail of the queue. -/
theorem createTask_turns {name : Option String} {entry : UInt64} {priority : UInt32}
    (hturns : Turns h order) (hstep : step taskStacks h (.createTask name entry priority) = some h') :
    ∃ first rest new, order = first ++ rest ∧ (h' = h ∨ Turns h' (first ++ new :: rest)) := by
  rcases hturns with ⟨hinv, c, q₁, q₂, hcur, hq, rfl⟩
  refine ⟨q₂, q₁ ++ [c], ⟨h.sched.taskCount % maxTasks, Nat.mod_lt _ (by decide)⟩, by simp, ?_⟩
  have hhead : h.sched.readyQueueHead ≠ none := by
    intro hnone
    have hlinked := hinv.linked
    rw [hnone, hq] at hlinked
    have hnil := hlinked.unique (Linked.nil_iff.2 rfl)
    simp at hnil
  by_cases hroom : h.sched.taskCount < maxTasks
  swap
  · left
    rw [step, createTask_full hroom, Option.map_some, Option.some.injEq] at hstep
    exact hstep.symm
  right
  rcases createTask_room hinv hroom taskStacks name entry priority with ⟨s', hr, -, -, -, hcur'⟩
  rcases step_inv taskStacks h (.createTask name entry priority) hinv with ⟨h₁, hstep₁, hinv'⟩
  obtain rfl : h₁ = h' := Option.some.inj (hstep₁.symm.trans hstep)
  rw [step, hr, Option.map_some, Option.some.injEq] at hstep
  subst hstep
  rw [if_neg hhead, hcur] at hcur'
  refine ⟨hinv', c, q₁, q₂ ++ [⟨h.sched.taskCount, hroom⟩], hcur', ?_, ?_⟩
  · simp only [recordCreated, slots, List.map_append, List.map_cons, List.map_nil]
    rw [show h.live.map Prod.fst = q₁ ++ c :: q₂ from hq]
    simp
  · simp [Nat.mod_eq_of_lt hroom]

/-- The queue without the task of this pid: slots are numbered like pids. -/
theorem slots_recordKilled {s : Sched} {live : List (Slot × UInt32)} (hwf : Wf s live) (pid : UInt32) :
    slots (recordKilled pid live) = (slots live).filter fun u => u.val + 1 ≠ pid.toNat := by
  unfold slots recordKilled
  rw [List.filter_map]
  congr 1
  apply List.filter_congr
  intro e he
  have hslot := hwf.slotOf e he
  have hiff : e.2 = pid ↔ e.1.val + 1 = pid.toNat := by
    rw [← hslot]
    exact UInt32.toNat_inj.symm
  simp [hiff]

/-- The pid of a queued task is the number of its slot plus one. -/
theorem Wf.pid_eq {s : Sched} {live : List (Slot × UInt32)} (hwf : Wf s live) {t : Slot}
    (ht : t ∈ slots live) : (s.taskTable t).pid.toNat = t.val + 1 := by
  rcases List.mem_map.1 ht with ⟨e, he, rfl⟩
  rw [hwf.pids e he]
  exact hwf.slotOf e he

/-- `kill_task` of another task leaves `current_task` alone. -/
theorem killTask_currentTask {s s' : Sched} {live : List (Slot × UInt32)} (hinv : Inv s live) {pid : UInt32}
    {c : Slot} (hcur : s.currentTask = some c) (hother : (s.taskTable c).pid ≠ pid)
    (hkill : killTask pid s = some s') : s'.currentTask = some c := by
  by_cases hpid : ∃ t, (t, pid) ∈ live
  · rcases hpid with ⟨t, ht⟩
    have htc : s.currentTask ≠ some t := by
      rw [hcur]
      intro heq
      obtain rfl := Option.some.inj heq
      exact hother (hinv.pids (c, pid) ht)
    rcases List.append_of_mem ht with ⟨l₁, l₂, rfl⟩
    rw [killTask_live hinv.toWf, Option.some.injEq] at hkill
    rw [← hkill, unlinkTask_currentTask, if_neg htc, hcur]
  · have hne : ∀ e ∈ live, e.2 ≠ pid := by
      intro e he heq
      exact hpid ⟨e.1, heq ▸ he⟩
    rw [killTask_absent hinv.toWf hne, Option.some.injEq] at hkill
    rw [← hkill, hcur]

/-- A task that is killed leaves the order, and the others keep theirs. -/
theorem killTask_turns {pid : UInt32} (hturns : Turns h order)
    (hspared : ∀ c, h.sched.currentTask = some c → (h.sched.taskTable c).pid ≠ pid)
    (hstep : step taskStacks h (.killTask pid) = some h') :
    Turns h' (order.filter fun u => u.val + 1 ≠ pid.toNat) := by
  rcases hturns with ⟨hinv, c, q₁, q₂, hcur, hq, rfl⟩
  rcases step_inv taskStacks h (.killTask pid) hinv with ⟨h₁, hstep₁, hinv'⟩
  obtain rfl : h₁ = h' := Option.some.inj (hstep₁.symm.trans hstep)
  rw [step, Option.map_eq_some_iff] at hstep
  rcases hstep with ⟨s', hkill, rfl⟩
  have hkept : c.val + 1 ≠ pid.toNat := by
    rw [← hinv.pid_eq (hinv.current c hcur)]
    intro heq
    exact hspared c hcur (UInt32.toNat_inj.1 heq)
  refine ⟨hinv', c, q₁.filter fun u => u.val + 1 ≠ pid.toNat, q₂.filter fun u => u.val + 1 ≠ pid.toNat,
    killTask_currentTask hinv hcur (hspared c hcur) hkill, ?_, ?_⟩
  · rw [slots_recordKilled hinv.toWf, hq, List.filter_append, List.filter_cons_of_pos (by simpa using hkept)]
  · rw [List.filter_append, List.filter_append, List.filter_cons_of_pos (by simpa using hkept), List.filter_nil]

end Step

/-! ## Waiting -/

section Wait

variable (taskStacks : UInt64) {h h' : History} {t : Slot} {k : Nat}

/-- The first in the order is dispatched by the next yield. -/
theorem Waits.dispatched (hwaits : Waits h t 0) {rsp : UInt64}
    (hstep : step taskStacks h (.taskYield rsp) = some h') : h'.sched.currentTask = some t := by
  rcases hwaits with ⟨ahead, behind, hturns, hlen⟩
  obtain rfl := List.length_eq_zero_iff.1 hlen
  rcases taskYield_turns taskStacks hturns rsp with ⟨h₁, hstep₁, hcur, -, -⟩
  obtain rfl : h₁ = h' := Option.some.inj (hstep₁.symm.trans hstep)
  exact hcur

/-- Each yield brings the others one place forward. -/
theorem Waits.yield (hwaits : Waits h t (k + 1)) {rsp : UInt64}
    (hstep : step taskStacks h (.taskYield rsp) = some h') : Waits h' t k := by
  rcases hwaits with ⟨_ | ⟨n, ahead⟩, behind, hturns, hlen⟩
  · simp at hlen
  rcases taskYield_turns taskStacks hturns rsp with ⟨h₁, hstep₁, -, hturns', -⟩
  obtain rfl : h₁ = h' := Option.some.inj (hstep₁.symm.trans hstep)
  refine ⟨ahead, behind ++ [n], ?_, by simpa using hlen⟩
  simpa using hturns'

/-- A new task delays the others by one turn at most. -/
theorem Waits.create (hwaits : Waits h t k) {name : Option String} {entry : UInt64} {priority : UInt32}
    (hstep : step taskStacks h (.createTask name entry priority) = some h') :
    ∃ k' ≤ k + 1, Waits h' t k' := by
  rcases hwaits with ⟨ahead, behind, hturns, hlen⟩
  rcases createTask_turns taskStacks hturns hstep with ⟨first, rest, new, horder, rfl | hturns'⟩
  · exact ⟨k, Nat.le_succ k, ahead, behind, hturns, hlen⟩
  rcases List.append_eq_append_iff.1 horder with ⟨mid, rfl, hrest⟩ | ⟨mid, rfl, hbehind⟩
  · -- the task is in the part behind which the new one comes, or the new one comes right ahead of it
    cases mid with
    | nil =>
      rw [List.nil_append] at hrest
      refine ⟨k + 1, le_rfl, ahead ++ [new], behind, ?_, by simp [hlen]⟩
      rw [← hrest] at hturns'
      simpa using hturns'
    | cons u mid =>
      rw [List.cons_append] at hrest
      obtain ⟨rfl, rfl⟩ := List.cons.inj hrest
      refine ⟨k, Nat.le_succ k, ahead, mid ++ new :: rest, ?_, hlen⟩
      simpa using hturns'
  · refine ⟨k + 1, le_rfl, first ++ new :: mid, behind, ?_, ?_⟩
    · rw [hbehind] at hturns'
      simpa using hturns'
    · rw [← hlen, List.length_append, List.length_append, List.length_cons]
      omega

/-- A task that is killed delays nobody. -/
theorem Waits.kill (hwaits : Waits h t k) {pid : UInt32} (hspared : Spares t h (.killTask pid))
    (hstep : step taskStacks h (.killTask pid) = some h') : ∃ k' ≤ k, Waits h' t k' := by
  rcases hwaits with ⟨ahead, behind, hturns, rfl⟩
  have hmem : t ∈ slots h.live := by
    rcases hturns.order with ⟨c, q₁, q₂, -, hq, horder⟩
    have ht : t ∈ ahead ++ t :: behind := by simp
    rw [horder] at ht
    rw [hq]
    simp only [List.mem_append, List.mem_cons, List.not_mem_nil, or_false] at ht ⊢
    tauto
  have hkept : t.val + 1 ≠ pid.toNat := by
    rw [← hturns.inv.pid_eq hmem]
    intro heq
    exact hspared.1 (UInt32.toNat_inj.1 heq)
  have hturns' := killTask_turns taskStacks hturns hspared.2 hstep
  rw [List.filter_append, List.filter_cons_of_pos (by simpa using hkept)] at hturns'
  exact ⟨_, List.length_filter_le _ ahead, _, _, hturns', rfl⟩

theorem Waits.request (hwaits : Waits h t k) (hstep : step taskStacks h .requestSchedule = some h') :
    Waits h' t k := by
  rcases hwaits with ⟨ahead, behind, hturns, hlen⟩
  rcases requestSchedule_turns taskStacks hturns with ⟨h₁, hstep₁, hturns', -⟩
  obtain rfl : h₁ = h' := Option.some.inj (hstep₁.symm.trans hstep)
  exact ⟨ahead, behind, hturns', hlen⟩

end Wait

/-! ## Runs -/

/-- A task that comes behind `k` others is dispatched by as many yields as these, itself and the
tasks created meanwhile. -/
theorem Waits.served (taskStacks : UInt64) (calls : List Call) {h : History} {t : Slot} {k : Nat}
    (hwaits : Waits h t k) (hspared : Run.Throughout (step taskStacks) (Spares t) h calls)
    (hyields : k + calls.countP Call.isCreate < calls.countP Call.isYield) :
    some t ∈ dispatches taskStacks h calls := by
  -- on the calls; each moves the task by what it counts for
  induction calls generalizing h k with
  | nil => simp at hyields
  | cons call calls ih =>
    rcases hspared with ⟨hspare, h₁, hstep, hrest⟩
    unfold dispatches
    rw [hstep]
    cases call with
    | taskYield rsp =>
      rw [List.countP_cons_of_neg (by simp [Call.isCreate]), List.countP_cons_of_pos rfl] at hyields
      simp only [Call.isYield, if_true]
      cases k with
      | zero =>
        rw [hwaits.dispatched taskStacks hstep]
        exact List.mem_cons_self
      | succ k => exact List.mem_cons_of_mem _ (ih (hwaits.yield taskStacks hstep) hrest (by omega))
    | createTask name entry priority =>
      rw [List.countP_cons_of_pos rfl, List.countP_cons_of_neg (by simp [Call.isYield])] at hyields
      simp only [Call.isYield, Bool.false_eq_true, if_false]
      rcases hwaits.create taskStacks hstep with ⟨k', hk', hwaits'⟩
      exact ih hwaits' hrest (by omega)
    | killTask pid =>
      rw [List.countP_cons_of_neg (by simp [Call.isCreate]),
        List.countP_cons_of_neg (by simp [Call.isYield])] at hyields
      simp only [Call.isYield, Bool.false_eq_true, if_false]
      rcases hwaits.kill taskStacks hspare hstep with ⟨k', hk', hwaits'⟩
      exact ih hwaits' hrest (by omega)
    | requestSchedule =>
      rw [List.countP_cons_of_neg (by simp [Call.isCreate]),
        List.countP_cons_of_neg (by simp [Call.isYield])] at hyields
      simp only [Call.isYield, Bool.false_eq_true, if_false]
      exact ih (hwaits.request taskStacks hstep) hrest hyields
    | taskExit => exact absurd hspare not_false

/-- From every reachable state in which a task runs, every queued task that is not ended is dispatched
by as many yields as there are queued tasks and tasks created meanwhile, whatever else is created,
killed or requested in between, as long as no task is ended while it runs. -/
theorem waiting_is_bounded (taskStacks : UInt64) (past : List Call) (h : History)
    (hrun : run taskStacks past = some h) (c : Slot) (hcur : h.sched.currentTask = some c) (t : Slot)
    (ht : t ∈ slots h.live) (calls : List Call)
    (hspared : Run.Throughout (step taskStacks) (Spares t) h calls)
    (hyields : h.live.length + calls.countP Call.isCreate ≤ calls.countP Call.isYield) :
    some t ∈ dispatches taskStacks h calls := by
  rcases run_inv taskStacks past with ⟨h₀, hrun₀, hinv⟩
  obtain rfl : h₀ = h := Option.some.inj (hrun₀.symm.trans hrun)
  rcases List.append_of_mem (hinv.current c hcur) with ⟨q₁, q₂, hq⟩
  have hturns : Turns h₀ (q₂ ++ q₁ ++ [c]) := ⟨hinv, c, q₁, q₂, hcur, hq, rfl⟩
  have hmem : t ∈ q₂ ++ q₁ ++ [c] := by
    rw [hq] at ht
    simp only [List.mem_append, List.mem_cons, List.not_mem_nil, or_false] at ht ⊢
    tauto
  have hlen : h₀.live.length = (q₂ ++ q₁ ++ [c]).length := by
    have hslots := congrArg List.length hq
    simp only [List.length_map, List.length_append, List.length_cons, List.length_nil] at hslots ⊢
    omega
  rcases List.append_of_mem hmem with ⟨ahead, behind, horder⟩
  rw [horder] at hturns
  rw [horder, List.length_append, List.length_cons] at hlen
  have hwaits : Waits h₀ t ahead.length := ⟨ahead, behind, hturns, rfl⟩
  exact hwaits.served taskStacks calls hspared (by omega)

/-- Shell waits while a third task is created and killed again. -/
theorem waiting_is_bounded_shell : some (1 : Slot) ∈ dispatches 0 bootHistory
    [.createTask none 0x3000 0, .taskYield 0, .killTask 3, .taskYield 0, .taskYield 0] := by
  have hrun : run 0 bootTasks = some bootHistory := rfl
  refine waiting_is_bounded 0 bootTasks bootHistory hrun 0 rfl 1 (by decide +kernel) _ ?_ (by decide +kernel)
  refine ⟨trivial, _, rfl, trivial, _, rfl, ⟨by decide +kernel, ?_⟩, _, rfl, trivial, _, rfl, trivial, _, rfl,
    trivial⟩
  decide +kernel

end CosKernel.Scheduler
