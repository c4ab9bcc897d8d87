import CosKernel.Scheduler.Safety

/-!
# One round of the ready queue

`task_yield` searches the queue twice, from the task behind the current one to
the tail and again from the head, and moves the states of two tasks on the way.
What all this amounts to is one rotation. `Turns s live ahead` says it: `ahead`
lists the queued tasks in the order of their next turn, the current task last.
A yield takes the first of them to the end (`taskYield_turns`), and everything
else follows by induction on the calls.
-/

namespace CosKernel.Scheduler

/-! ## Rounds of a run -/

/-- The calls that neither create nor end a task. -/
def Call.keepsTasks : Call → Bool
  | .taskYield _ => true
  | .requestSchedule => true
  | _ => false

def Call.isYield : Call → Bool
  | .taskYield _ => true
  | _ => false

/-- `current_task` after each `task_yield` of a run. -/
def dispatches (taskStacks : UInt64) : History → List Call → List (Option Slot)
  | _, [] => []
  | h, call :: calls =>
    match step taskStacks h call with
    | none => []
    | some h' =>
      if call.isYield then h'.sched.currentTask :: dispatches taskStacks h' calls
      else dispatches taskStacks h' calls

/-- Same queue: the links, the head and every pid. -/
structure SameQueue (s s' : Sched) : Prop where
  next : s'.next = s.next
  head : s'.readyQueueHead = s.readyQueueHead
  pids : ∀ t, (s'.taskTable t).pid = (s.taskTable t).pid

theorem SameQueue.refl (s : Sched) : SameQueue s s := ⟨rfl, rfl, fun _ => rfl⟩

theorem SameQueue.trans {s s₁ s₂ : Sched} (h₁ : SameQueue s s₁) (h₂ : SameQueue s₁ s₂) :
    SameQueue s s₂ := by
  refine ⟨h₂.next.trans h₁.next, h₂.head.trans h₁.head, ?_⟩
  intro t
  exact (h₂.pids t).trans (h₁.pids t)

/-! ## What a yield leaves alone -/

/-- A write to the other fields of a block. -/
theorem modify_sameQueue (s : Sched) (t : Slot) {f : Tcb → Tcb} (hn : ∀ b, (f b).next = b.next)
    (hp : ∀ b, (f b).pid = b.pid) : SameQueue s (s.modify t f) := by
  refine ⟨modify_next_eq s t hn, rfl, ?_⟩
  intro u
  exact modify_pid_eq s t u hp

theorem preempt_sameQueue (c : Slot) (s : Sched) : SameQueue s (preempt c s) := by
  have hflag : SameQueue s { s with scheduleRequested := false } := ⟨rfl, rfl, fun _ => rfl⟩
  unfold preempt
  split
  · exact hflag.trans (modify_sameQueue _ c (fun _ => rfl) (fun _ => rfl))
  · exact hflag

theorem handOver_sameQueue (c n : Slot) (s : Sched) :
    SameQueue s (handOver c (some n) s).1 := by
  unfold handOver
  by_cases hnc : n = c
  · simp only [hnc, if_true]
    exact modify_sameQueue s c (fun _ => rfl) (fun _ => rfl)
  · simp only [hnc, if_false]
    have h := modify_sameQueue s n (f := fun b => { b with state := .running, timeslice := 20 })
      (fun _ => rfl) (fun _ => rfl)
    exact ⟨h.next, h.head, h.pids⟩

theorem saveStackPointer_sameQueue (rsp : UInt64) (sw : Option (Slot × Slot)) (s : Sched) :
    SameQueue s (saveStackPointer rsp sw s) := by
  cases sw with
  | none => exact SameQueue.refl s
  | some p =>
    exact modify_sameQueue s p.1 (f := fun b => { b with stackPointer := rsp }) (fun _ => rfl)
      (fun _ => rfl)

@[simp] theorem saveStackPointer_currentTask (rsp : UInt64) (sw : Option (Slot × Slot))
    (s : Sched) : (saveStackPointer rsp sw s).currentTask = s.currentTask := by
  cases sw with
  | none => rfl
  | some p => rfl

/-! ## The order of the turns -/

/-- `ahead` lists the queue from the task behind the current one round to the current one. -/
structure Turns (h : History) (ahead : List Slot) : Prop where
  inv : Inv h.sched h.live
  order : ∃ c q₁ q₂, h.sched.currentTask = some c ∧ slots h.live = q₁ ++ c :: q₂ ∧
    ahead = q₂ ++ q₁ ++ [c]

/-- Rotating a queue by one task: what was ahead of `n` comes behind it. -/
theorem rotate_order {c n : Slot} {q₁ q₂ rest : List Slot} (h : q₂ ++ q₁ ++ [c] = n :: rest) :
    (q₂ ++ q₁).head?.getD c = n ∧
      ∃ q₁' q₂', q₁ ++ c :: q₂ = q₁' ++ n :: q₂' ∧ rest ++ [n] = q₂' ++ q₁' ++ [n] := by
  cases q₂ with
  | cons b q₂ =>
    -- the search behind the current task finds its neighbour
    obtain ⟨rfl, rfl⟩ := List.cons.inj h
    refine ⟨by simp, q₁ ++ [c], q₂, by simp, by simp⟩
  | nil =>
    -- the current task is the last one: the search from the head
    cases q₁ with
    | nil =>
      obtain ⟨rfl, rfl⟩ := List.cons.inj h
      exact ⟨rfl, [], [], rfl, rfl⟩
    | cons b q₁ =>
      obtain ⟨rfl, rfl⟩ := List.cons.inj h
      refine ⟨by simp, [], q₁ ++ [c], by simp, by simp⟩

/-- A yield hands over to the first task of the order, and moves it to the end. -/
theorem taskYield_turns (taskStacks : UInt64) {h : History} {n : Slot} {rest : List Slot}
    (hturns : Turns h (n :: rest)) (rsp : UInt64) :
    ∃ h', step taskStacks h (.taskYield rsp) = some h' ∧ h'.sched.currentTask = some n ∧
      Turns h' (rest ++ [n]) ∧ SameQueue h.sched h'.sched := by
  rcases hturns with ⟨hinv, c, q₁, q₂, hcur, hq, hahead⟩
  rcases rotate_order hahead.symm with ⟨hn, q₁', q₂', hq', hrest⟩
  -- the other queued tasks are ready, so the successor is the next in the order
  have hyield := taskYield_eq hinv hcur hq
  rw [hn] at hyield
  have hmem : n ∈ slots h.live := by
    rw [hq, hq']
    simp
  have hcur' : (preempt c h.sched).currentTask = some c := by rw [preempt_currentTask, hcur]
  have hcurrent := handOver_currentTask hcur' n
  have hinv' := handOver_inv hinv hcur hmem
  have hsame := (preempt_sameQueue c h.sched).trans (handOver_sameQueue c n (preempt c h.sched))
  generalize handOver c (some n) (preempt c h.sched) = r at hyield hcurrent hinv' hsame
  have hcurrent' : (saveStackPointer rsp r.2 r.1).currentTask = some n := by
    rw [saveStackPointer_currentTask, hcurrent]
  refine ⟨⟨saveStackPointer rsp r.2 r.1, h.live⟩, ?_, hcurrent', ?_, ?_⟩
  · rw [step, hyield, Option.map_some]
  · exact ⟨saveStackPointer_inv hinv' rsp r.2, n, q₁', q₂', hcurrent', hq.trans hq', hrest⟩
  · exact hsame.trans (saveStackPointer_sameQueue rsp r.2 r.1)

/-- A request to schedule changes nothing of this. -/
theorem requestSchedule_turns (taskStacks : UInt64) {h : History} {ahead : List Slot}
    (hturns : Turns h ahead) :
    ∃ h', step taskStacks h .requestSchedule = some h' ∧ Turns h' ahead ∧
      SameQueue h.sched h'.sched := by
  rcases hturns with ⟨hinv, horder⟩
  refine ⟨⟨requestSchedule h.sched, h.live⟩, rfl, ⟨?_, horder⟩, ⟨rfl, rfl, fun _ => rfl⟩⟩
  have hwf : Wf (requestSchedule h.sched) h.live :=
    ⟨hinv.linked, hinv.pids, hinv.slotOf, hinv.used, hinv.sorted, hinv.count, hinv.counter,
      hinv.current⟩
  exact ⟨hwf, hinv.states, hinv.dead⟩

/-- Yields take the tasks in the order of their turns, which goes round by as many
tasks as there are yields. -/
theorem exec_turns (taskStacks : UInt64) (calls : List Call) {h : History} {served rest : List Slot}
    (hturns : Turns h (served ++ rest)) (hcalls : ∀ call ∈ calls, call.keepsTasks)
    (hcount : calls.countP Call.isYield = served.length) :
    ∃ h', Run.exec (step taskStacks) h calls = some h' ∧
      dispatches taskStacks h calls = served.map some ∧ Turns h' (rest ++ served) ∧
      SameQueue h.sched h'.sched := by
  -- on the calls; each yield takes one task from `served` to the end of `rest`
  induction calls generalizing h served rest with
  | nil =>
    obtain rfl : served = [] := List.length_eq_zero_iff.1 hcount.symm
    refine ⟨h, rfl, rfl, ?_, SameQueue.refl _⟩
    simpa using hturns
  | cons call calls ih =>
    have hrest : ∀ call ∈ calls, call.keepsTasks := fun d hd => hcalls d (List.mem_cons_of_mem _ hd)
    have hfirst := hcalls call List.mem_cons_self
    cases call with
    | taskYield rsp =>
      rw [List.countP_cons_of_pos rfl] at hcount
      cases served with
      | nil => simp at hcount
      | cons n served =>
        rw [List.cons_append] at hturns
        rcases taskYield_turns taskStacks hturns rsp with ⟨h₁, hstep, hcur, hturns₁, hsame₁⟩
        rw [List.append_assoc] at hturns₁
        rcases ih hturns₁ hrest (by simpa using hcount) with ⟨h₂, hexec, htrace, hturns₂, hsame₂⟩
        refine ⟨h₂, ?_, ?_, ?_, hsame₁.trans hsame₂⟩
        · rw [Run.exec, hstep, Option.bind_some, hexec]
        · simp only [dispatches, hstep, Call.isYield, if_true, hcur, htrace, List.map_cons]
        · simpa using hturns₂
    | requestSchedule =>
      rw [List.countP_cons_of_neg (by simp [Call.isYield])] at hcount
      rcases requestSchedule_turns taskStacks hturns with ⟨h₁, hstep, hturns₁, hsame₁⟩
      rcases ih hturns₁ hrest hcount with ⟨h₂, hexec, htrace, hturns₂, hsame₂⟩
      refine ⟨h₂, ?_, ?_, hturns₂, hsame₁.trans hsame₂⟩
      · rw [Run.exec, hstep, Option.bind_some, hexec]
      · simp only [dispatches, hstep, Call.isYield, Bool.false_eq_true, if_false, htrace]
    | createTask name entry priority => exact absurd hfirst Bool.false_ne_true
    | killTask pid => exact absurd hfirst Bool.false_ne_true
    | taskExit => exact absurd hfirst Bool.false_ne_true

/-! ## A full round -/

/-- From every reachable state with a current task, as many yields as there are queued tasks
make each of them current once, in the order of the queue from the one behind the current
task, and come back to that task. Requests to schedule may come in between. -/
theorem yields_go_round (taskStacks : UInt64) (calls : List Call) (h : History)
    (hrun : run taskStacks calls = some h) (c : Slot) (hcur : h.sched.currentTask = some c) :
    ∃ q₁ q₂, Linked h.sched.next h.sched.readyQueueHead (q₁ ++ c :: q₂) ∧
      ∀ round : List Call, (∀ call ∈ round, call.keepsTasks) →
        round.countP Call.isYield = (q₁ ++ c :: q₂).length →
        ∃ h', Run.exec (step taskStacks) h round = some h' ∧
          dispatches taskStacks h round = (q₂ ++ q₁ ++ [c]).map some ∧
          (∀ t ∈ q₁ ++ c :: q₂, (dispatches taskStacks h round).count (some t) = 1) ∧
          h'.sched.currentTask = some c ∧ (h'.sched.taskTable c).state = .running ∧
          SameQueue h.sched h'.sched := by
  rcases run_inv taskStacks calls with ⟨h₀, hrun₀, hinv⟩
  obtain rfl : h₀ = h := Option.some.inj (hrun₀.symm.trans hrun)
  rcases List.append_of_mem (hinv.current c hcur) with ⟨q₁, q₂, hq⟩
  have hlinked := hinv.linked
  rw [hq] at hlinked
  refine ⟨q₁, q₂, hlinked, ?_⟩
  intro round hround hcount
  have hturns : Turns h₀ (q₂ ++ q₁ ++ [c]) := ⟨hinv, c, q₁, q₂, hcur, hq, rfl⟩
  have hperm : (q₂ ++ q₁ ++ [c]).Perm (q₁ ++ c :: q₂) := by
    have hswap : (q₂ ++ (q₁ ++ [c])).Perm ((q₁ ++ [c]) ++ q₂) := List.perm_append_comm
    simpa using hswap
  have hlen : round.countP Call.isYield = (q₂ ++ q₁ ++ [c]).length := by rw [hcount, hperm.length_eq]
  rw [← List.append_nil (q₂ ++ q₁ ++ [c])] at hturns
  rcases exec_turns taskStacks round hturns hround hlen with
    ⟨h', hexec, htrace, ⟨hinv', c', p₁, p₂, hcur', hq', hahead⟩, hsame⟩
  -- the order of the turns is the one the round began with, so the last of it is the same task
  obtain rfl : c' = c := by
    have hlast := congrArg List.getLast? hahead
    simpa using hlast.symm
  refine ⟨h', hexec, htrace, ?_, hcur', ?_, hsame⟩
  · intro t ht
    rw [htrace, List.count_map_of_injective _ _ (Option.some_injective _)]
    exact List.count_eq_one_of_mem (hperm.nodup_iff.2 hlinked.nodup) (hperm.mem_iff.2 ht)
  · rw [hinv'.states c' (hinv'.current c' hcur'), expected, if_pos hcur']

/-- Idle and shell take turns; a request to schedule in between has no part in it. -/
theorem yields_go_round_idle_shell :
    ∃ h', Run.exec (step 0) bootHistory [.taskYield 0, .requestSchedule, .taskYield 0] = some h' ∧
      dispatches 0 bootHistory [.taskYield 0, .requestSchedule, .taskYield 0] = [some 1, some 0] ∧
      h'.sched.currentTask = some 0 := by
  have hrun : run 0 bootTasks = some bootHistory := rfl
  rcases yields_go_round 0 bootTasks bootHistory hrun 0 rfl with ⟨q₁, q₂, hlinked, hround⟩
  have hqueue : q₁ ++ 0 :: q₂ = [0, 1] := by
    apply hlinked.unique
    exact ⟨rfl, rfl, rfl⟩
  rcases hround [.taskYield 0, .requestSchedule, .taskYield 0] (by decide) (by rw [hqueue]; rfl)
    with ⟨h', hexec, htrace, -, hcur, -, -⟩
  refine ⟨h', hexec, ?_, hcur⟩
  rw [htrace]
  cases q₁ with
  | nil =>
    obtain rfl : q₂ = [1] := by simpa using hqueue
    rfl
  | cons b q₁ =>
    have htail : q₁ ++ 0 :: q₂ = [1] := (List.cons.inj hqueue).2
    have hmem : (0 : Slot) ∈ q₁ ++ 0 :: q₂ := by simp
    rw [htail] at hmem
    exact absurd hmem (by decide)

end CosKernel.Scheduler
