import CosKernel.Scheduler.Queue

/-!
# The representation invariant of the scheduler

`Wf s live` ties the links and the pids of the queue to the record of the live
tasks; `Inv` adds the task states. The split is there for `task_entry_wrapper`,
which marks a task `ZOMBIE` while it is still queued: such a state is `Wf` but
not `Inv`, and the `kill_task` that follows restores `Inv`.

Each operation gets one lemma (`createTask_inv`, `killTask_absent`,
`killTask_live`, `taskExit_inv`, `taskYield_eq`, `taskYield_inv`), and
`step_inv` collects them.
-/

namespace CosKernel.Scheduler

/-- The slots of the recorded tasks. -/
abbrev slots (live : List (Slot × UInt32)) : List Slot := live.map Prod.fst

/-- The queue holds exactly the live tasks, oldest first. Slots are handed out in
order and never reused, so a task's pid is its slot number plus one. -/
structure Wf (s : Sched) (live : List (Slot × UInt32)) : Prop where
  linked : Linked s.next s.readyQueueHead (slots live)
  pids : ∀ e ∈ live, (s.taskTable e.1).pid = e.2
  slotOf : ∀ e ∈ live, e.2.toNat = e.1.val + 1
  used : ∀ e ∈ live, e.1.val < s.taskCount
  sorted : live.Pairwise fun a b => a.2 < b.2
  count : s.taskCount ≤ maxTasks
  counter : s.nextPid.toNat = s.taskCount + 1
  current : ∀ c, s.currentTask = some c → c ∈ slots live

/-- The state a queued task has: RUNNING if it is the current task, else READY. -/
def expected (s : Sched) (t : Slot) : TaskState :=
  if s.currentTask = some t then .running else .ready

/-- The representation invariant: queued blocks have the state expected of them, and all other
blocks, unused or killed, are ZOMBIE. -/
structure Inv (s : Sched) (live : List (Slot × UInt32)) : Prop extends Wf s live where
  states : ∀ t ∈ slots live, (s.taskTable t).state = expected s t
  dead : ∀ t, t ∉ slots live → (s.taskTable t).state = .zombie

theorem boot_inv : Inv boot.sched boot.live where
  linked := rfl
  pids := by simp [boot]
  slotOf := by simp [boot]
  used := by simp [boot]
  sorted := List.Pairwise.nil
  count := by simp [boot, schedulerInitialize]
  counter := rfl
  current := by simp [boot, schedulerInitialize, bss]
  states := by simp [boot]
  dead := by simp [boot, schedulerInitialize]

/-! ## Consequences of the invariant -/

section Basic

variable {s : Sched} {live l₁ l₂ : List (Slot × UInt32)} {t : Slot} {pid : UInt32}

/-- The pids before and behind a live task differ from its own. -/
theorem Wf.pid_ne (h : Wf s (l₁ ++ (t, pid) :: l₂)) : ∀ e ∈ l₁ ++ l₂, e.2 ≠ pid := by
  intro e he
  have hs := List.pairwise_append.1 h.sorted
  rcases List.mem_append.1 he with he | he
  · have hlt : e.2 < pid := hs.2.2 e he (t, pid) (by simp)
    exact UInt32.ne_of_lt hlt
  · have hlt : pid < e.2 := (List.pairwise_cons.1 hs.2.1).1 e he
    exact (UInt32.ne_of_lt hlt).symm

/-- Killing a live task takes exactly its entry out of the record. -/
theorem Wf.recordKilled_eq (h : Wf s (l₁ ++ (t, pid) :: l₂)) :
    recordKilled pid (l₁ ++ (t, pid) :: l₂) = l₁ ++ l₂ := by
  have hne := h.pid_ne
  have h₁ : l₁.filter (fun e => e.2 ≠ pid) = l₁ :=
    List.filter_eq_self.2 fun e he => by simpa using hne e (by simp [he])
  have h₂ : l₂.filter (fun e => e.2 ≠ pid) = l₂ :=
    List.filter_eq_self.2 fun e he => by simpa using hne e (by simp [he])
  simp only [recordKilled, List.filter_append, List.filter_cons, h₁, h₂]
  simp

/-- A slot occurs once in the queue, so the other live tasks sit in other slots. -/
theorem Wf.slot_ne (h : Wf s (l₁ ++ (t, pid) :: l₂)) : ∀ e ∈ l₁ ++ l₂, e.1 ≠ t := by
  intro e he heq
  have hnd := h.linked.nodup
  simp only [slots, List.map_append, List.map_cons, List.nodup_append, List.nodup_cons] at hnd
  rcases List.mem_append.1 he with he | he
  · exact hnd.2.2 e.1 (List.mem_map_of_mem he) t (by simp) heq
  · exact hnd.2.1.1 (heq ▸ List.mem_map_of_mem he)

/-- The tasks left when one is taken out were there before. -/
theorem mem_of_mem_removed {e : Slot × UInt32} (he : e ∈ l₁ ++ l₂) : e ∈ l₁ ++ (t, pid) :: l₂ := by
  rcases List.mem_append.1 he with he | he
  · exact List.mem_append_left _ he
  · exact List.mem_append_right _ (List.mem_cons_of_mem _ he)

/-- The next free slot is not in the queue. -/
theorem Wf.fresh (h : Wf s live) (hroom : s.taskCount < maxTasks) :
    (⟨s.taskCount, hroom⟩ : Slot) ∉ slots live := by
  intro hmem
  obtain ⟨e, he, heq⟩ := List.mem_map.1 hmem
  have := h.used e he
  rw [heq] at this
  exact lt_irrefl _ this

/-- Links and pids do not depend on the other fields of the blocks. -/
theorem Wf.modify (h : Wf s live) {f : Tcb → Tcb} (hn : ∀ b, (f b).next = b.next)
    (hp : ∀ b, (f b).pid = b.pid) : Wf (s.modify t f) live where
  linked := by
    rw [modify_next_eq s t hn]
    exact h.linked
  pids := fun e he => (modify_pid_eq s t e.1 hp).trans (h.pids e he)
  slotOf := h.slotOf
  used := h.used
  sorted := h.sorted
  count := h.count
  counter := h.counter
  current := h.current

end Basic

/-! ## `create_task` -/

/-- Queueing a block that is filled in, READY, unlinked and off the queue puts it behind all
others; only an empty queue makes it the current task. -/
theorem enqueue_spec {s : Sched} {q : List Slot} {t : Slot}
    (hq : Linked s.next s.readyQueueHead q) (ht : t ∉ q) (hnext : s.next t = none)
    (hready : (s.taskTable t).state = .ready) (hcur : ∀ c, s.currentTask = some c → c ∈ q)
    (hst : ∀ u ∈ q, (s.taskTable u).state = expected s u) :
    ∃ s', enqueue t s = some s' ∧ Linked s'.next s'.readyQueueHead (q ++ [t]) ∧
      (∀ u, (s'.taskTable u).pid = (s.taskTable u).pid) ∧ s'.nextPid = s.nextPid ∧
      (∀ c, s'.currentTask = some c → c ∈ q ++ [t]) ∧
      (∀ u ∈ q ++ [t], (s'.taskTable u).state = expected s' u) ∧
      ∀ u, u ≠ t → (s'.taskTable u).state = (s.taskTable u).state := by
  rcases List.eq_nil_or_concat q with rfl | ⟨l, b, rfl⟩
  · -- empty queue
    have hhead : s.readyQueueHead = none := hq
    refine ⟨{ s.setState t .running with readyQueueHead := some t, currentTask := some t },
      by simp only [enqueue, hhead], ⟨rfl, ?_⟩, fun u => ?_, rfl, ?_, ?_, ?_⟩
    · exact (congrFun (setState_next s t .running) t).trans hnext
    · exact setState_pid s t u .running
    · simp
    · simp [expected, Sched.setState]
    · exact fun u hu => setState_state_ne s .running hu
  · -- the walk from the head stops at the last block, which gets the link
    rw [List.concat_eq_append] at *
    obtain ⟨a, hhead⟩ : ∃ a, s.readyQueueHead = some a := by
      have := hq.head_eq
      cases l <;> exact ⟨_, this⟩
    have hlen : l.length < maxTasks := by
      simpa using queue_length_le hq
    have hlast : lastTask s.taskTable maxTasks a = some b := lastTask_eq hq hhead hlen
    refine ⟨s.setNext b (some t), by simp [enqueue, hhead, hlast], ?_, ?_, rfl, ?_, ?_,
      fun u _ => setNext_state s b u _⟩
    · change Linked (s.setNext b (some t)).next s.readyQueueHead _
      rw [setNext_next, List.append_assoc]
      exact hq.append hnext ht
    · exact fun u => setNext_pid s b u _
    · exact fun c hc => List.mem_append_left _ (hcur c hc)
    · intro u hu
      rw [setNext_state]
      rcases List.mem_append.1 hu with hu | hu
      · exact hst u hu
      · -- the current task is in the old queue, so the new one is READY
        obtain rfl := List.mem_singleton.1 hu
        have hne : s.currentTask ≠ some u := fun hc => ht (hcur u hc)
        exact hready.trans (if_neg hne).symm

section InitTask

variable (taskStacks : UInt64) (name : Option String) (entry : UInt64) (priority : UInt32) {s : Sched}
  {t : Slot}

theorem initTask_self : (initTask taskStacks name entry priority t s).taskTable t =
    newTcb taskStacks name entry priority s.nextPid t := by
  simp [initTask]

theorem initTask_of_ne {u : Slot} (hu : u ≠ t) :
    (initTask taskStacks name entry priority t s).taskTable u = s.taskTable u := by
  simp [initTask, hu]

/-- A block that is not queued can be filled in. -/
theorem initTask_linked {l : List Slot} (h : Linked s.next s.readyQueueHead l) (hfresh : t ∉ l) :
    Linked (initTask taskStacks name entry priority t s).next s.readyQueueHead l := by
  have hnext : (initTask taskStacks name entry priority t s).next = Function.update s.next t none :=
    modify_next_update s t (f := fun _ => newTcb taskStacks name entry priority s.nextPid t) rfl
  rw [hnext]
  exact h.frame hfresh _

end InitTask

/-- A state with one more block at the end of the queue, taken from the front of the unused ones. -/
theorem Wf.append {s s' : Sched} {live : List (Slot × UInt32)} {t : Slot} (h : Wf s live)
    (hroom : s.taskCount < maxTasks) (htval : t.val = s.taskCount)
    (hlinked : Linked s'.next s'.readyQueueHead (slots live ++ [t]))
    (hpid : ∀ e ∈ live, (s'.taskTable e.1).pid = (s.taskTable e.1).pid)
    (hnew : (s'.taskTable t).pid = s.nextPid) (hcount : s'.taskCount = s.taskCount + 1)
    (hctr : s'.nextPid = s.nextPid + 1) (hcur : ∀ c, s'.currentTask = some c → c ∈ slots live ++ [t]) :
    Wf s' (live ++ [(t, s.nextPid)]) := by
  have hslots : slots (live ++ [(t, s.nextPid)]) = slots live ++ [t] := by simp [slots]
  -- pids are handed out in order, so the new one is above all live ones
  have hlt : ∀ e ∈ live, e.2 < s.nextPid := by
    intro e he
    rw [UInt32.lt_iff_toNat_lt, h.slotOf e he, h.counter]
    exact Nat.succ_lt_succ (h.used e he)
  refine ⟨hslots ▸ hlinked, ?_, ?_, ?_, ?_, ?_, ?_, ?_⟩
  · intro e he
    rcases List.mem_append.1 he with he | he
    · rw [hpid e he]
      exact h.pids e he
    · rw [List.mem_singleton.1 he]
      exact hnew
  · intro e he
    rcases List.mem_append.1 he with he | he
    · exact h.slotOf e he
    · rw [List.mem_singleton.1 he, htval]
      exact h.counter
  · intro e he
    rw [hcount]
    rcases List.mem_append.1 he with he | he
    · exact Nat.lt_succ_of_lt (h.used e he)
    · rw [List.mem_singleton.1 he, htval]
      exact Nat.lt_succ_self _
  · rw [List.pairwise_append]
    refine ⟨h.sorted, List.pairwise_singleton _ _, fun a ha c hc => ?_⟩
    rw [List.mem_singleton.1 hc]
    exact hlt a ha
  · rw [hcount]
    exact hroom
  · -- at most `maxTasks` pids are ever handed out, so the counter does not wrap around
    rw [hctr, hcount, UInt32.toNat_add, h.counter]
    simp only [maxTasks] at hroom
    simp
    omega
  · exact fun c hc => hslots ▸ hcur c hc

/-- `create_task` returns for every queue, and the record follows it. -/
theorem createTask_inv {s : Sched} {live : List (Slot × UInt32)} (h : Inv s live)
    (taskStacks : UInt64) (name : Option String) (entry : UInt64) (priority : UInt32) :
    ∃ r, createTask taskStacks name entry priority s = some r ∧
      Inv r.2 (recordCreated r.2 live r.1) := by
  unfold createTask
  by_cases hroom : s.taskCount < maxTasks
  swap
  · -- the table is used up: NULL, and nothing changes
    exact ⟨(none, s), by rw [dif_neg hroom], h⟩
  rw [dif_pos hroom]
  have hfresh := h.fresh hroom
  have htval : (⟨s.taskCount, hroom⟩ : Slot).val = s.taskCount := rfl
  generalize (⟨s.taskCount, hroom⟩ : Slot) = t at hfresh htval ⊢
  -- the state in which `enqueue` is entered: only block `t` differs, and `t` is not queued
  have hblock := initTask_self taskStacks name entry priority (s := s) (t := t)
  have hother : ∀ u ∈ slots live, (initTask taskStacks name entry priority t s).taskTable u =
      s.taskTable u := by
    intro u hu
    exact initTask_of_ne taskStacks name entry priority (fun heq => hfresh (heq ▸ hu))
  obtain ⟨s₂, henq, hlinked, hpid, hctr, hcur, hst, hrest⟩ :=
    enqueue_spec (initTask_linked taskStacks name entry priority h.linked hfresh) hfresh
      (by rw [Sched.next, hblock]; rfl) (by rw [hblock]; rfl) h.current
      (fun u hu => by
        rw [hother u hu, h.states u hu]
        rfl)
  have hnew : (s₂.taskTable t).pid = s.nextPid := by rw [hpid, hblock]; rfl
  have hslots : slots (live ++ [(t, s.nextPid)]) = slots live ++ [t] := by simp [slots]
  refine ⟨_, by rw [henq, Option.map_some], ?_⟩
  simp only [recordCreated]
  rw [hnew]
  refine ⟨h.append hroom htval hlinked ?_ hnew rfl hctr hcur, ?_, ?_⟩
  · intro e he
    rw [hpid, hother e.1 (List.mem_map_of_mem he)]
  · exact fun u hu => hst u (hslots ▸ hu)
  · intro u hu
    rw [hslots, List.mem_append, List.mem_singleton, not_or] at hu
    refine (hrest u hu.2).trans ?_
    rw [initTask_of_ne taskStacks name entry priority hu.2]
    exact h.dead u hu.1

/-! ## `kill_task` and the end of a task -/

/-- `kill_task` of a pid that is not queued changes nothing. -/
theorem killTask_absent {s : Sched} {live : List (Slot × UInt32)} (h : Wf s live) {pid : UInt32}
    (hpid : ∀ e ∈ live, e.2 ≠ pid) : killTask pid s = some s := by
  have habsent : ∀ t ∈ slots live, (s.taskTable t).pid ≠ pid := by
    intro t ht
    rcases List.mem_map.1 ht with ⟨e, he, rfl⟩
    rw [h.pids e he]
    exact hpid e he
  unfold killTask
  rw [findPid_absent h.linked habsent (queue_length_le h.linked)]
  rfl

section Unlink

variable {s : Sched} {l₁ l₂ : List (Slot × UInt32)} {t : Slot} {pid : UInt32}

/-- On a live task the search of `kill_task` stops at its block. -/
theorem killTask_live (h : Wf s (l₁ ++ (t, pid) :: l₂)) :
    killTask pid s = some (unlinkTask (slots l₁).getLast? t s) := by
  have hslots : slots (l₁ ++ (t, pid) :: l₂) = slots l₁ ++ t :: slots l₂ := by simp [slots]
  have hlinked := h.linked
  rw [hslots] at hlinked
  have hbefore : ∀ u ∈ slots l₁, (s.taskTable u).pid ≠ pid := by
    intro u hu
    rcases List.mem_map.1 hu with ⟨e, he, rfl⟩
    rw [h.pids e (by simp [he])]
    exact h.pid_ne e (by simp [he])
  have hfuel : (slots l₁).length < maxTasks := by
    have hlen := queue_length_le hlinked
    rw [List.length_append, List.length_cons] at hlen
    omega
  unfold killTask
  rw [findPid_found hlinked hbefore (h.pids (t, pid) (by simp)) hfuel]
  simp

/-- Unlinking edits links only. -/
theorem relink_fields (prev : Option Slot) (s : Sched) (t : Slot) :
    (∀ u, ((relink prev t s).taskTable u).pid = (s.taskTable u).pid) ∧
    (∀ u, ((relink prev t s).taskTable u).state = (s.taskTable u).state) ∧
    (relink prev t s).taskCount = s.taskCount ∧ (relink prev t s).nextPid = s.nextPid ∧
    (relink prev t s).currentTask = s.currentTask := by
  unfold relink
  cases prev with
  | none => simp
  | some p => simp

/-- Unlinking takes the block out of the walk, whether it is the head or not. -/
theorem relink_linked {q₁ q₂ : List Slot}
    (h : Linked s.next s.readyQueueHead (q₁ ++ t :: q₂)) :
    Linked (relink q₁.getLast? t s).next (relink q₁.getLast? t s).readyQueueHead (q₁ ++ q₂) := by
  unfold relink
  rcases List.eq_nil_or_concat q₁ with rfl | ⟨q, a, rfl⟩
  · -- the head dies: the head pointer moves on
    exact h.2
  · -- the block before `t` bypasses it
    simp only [List.concat_eq_append, List.getLast?_concat, List.append_assoc,
      List.singleton_append] at h ⊢
    rw [setNext_next]
    exact h.unlink

/-- A state in which one block has left the queue. -/
theorem Wf.remove {s' : Sched} (h : Wf s (l₁ ++ (t, pid) :: l₂))
    (hlinked : Linked s'.next s'.readyQueueHead (slots (l₁ ++ l₂)))
    (hpid : ∀ u, (s'.taskTable u).pid = (s.taskTable u).pid) (hcount : s'.taskCount = s.taskCount)
    (hctr : s'.nextPid = s.nextPid) (hcur : ∀ c, s'.currentTask = some c → c ∈ slots (l₁ ++ l₂)) :
    Wf s' (l₁ ++ l₂) := by
  refine ⟨hlinked, ?_, ?_, ?_, ?_, ?_, ?_, hcur⟩
  · intro e he
    exact (hpid e.1).trans (h.pids e (mem_of_mem_removed he))
  · exact fun e he => h.slotOf e (mem_of_mem_removed he)
  · intro e he
    rw [hcount]
    exact h.used e (mem_of_mem_removed he)
  · exact h.sorted.sublist (List.Sublist.append_left (List.sublist_cons_self _ _) l₁)
  · rw [hcount]
    exact h.count
  · rw [hctr, hcount]
    exact h.counter

/-- `kill_task` on a live task, from a state in which that task's own state may be
anything: the rest of the queue is a queue in order again. -/
theorem unlinkTask_inv (h : Wf s (l₁ ++ (t, pid) :: l₂))
    (hst : ∀ e ∈ l₁ ++ l₂, (s.taskTable e.1).state = expected s e.1)
    (hdead : ∀ u, u ∉ slots (l₁ ++ (t, pid) :: l₂) → (s.taskTable u).state = .zombie) :
    Inv (unlinkTask (slots l₁).getLast? t s) (l₁ ++ l₂) := by
  have hslots : slots (l₁ ++ (t, pid) :: l₂) = slots l₁ ++ t :: slots l₂ := by simp [slots]
  have hslots' : slots (l₁ ++ l₂) = slots l₁ ++ slots l₂ := by simp [slots]
  have hlinked : Linked (s.setState t .zombie).next (s.setState t .zombie).readyQueueHead
      (slots l₁ ++ t :: slots l₂) := by
    rw [setState_next, ← hslots]
    exact h.linked
  have hl := relink_linked hlinked
  rcases relink_fields (slots l₁).getLast? (s.setState t .zombie) t with
    ⟨hpid, hstate, hcount, hctr, hcur⟩
  unfold unlinkTask
  generalize relink (slots l₁).getLast? t (s.setState t .zombie) = s₁ at hl hpid hstate hcount hctr hcur
  -- links and pids do not depend on whether the current task was the one killed
  have hwf : ∀ cur, (∀ c, cur = some c → c ∈ slots (l₁ ++ l₂)) →
      Wf { s₁ with currentTask := cur } (l₁ ++ l₂) := by
    intro cur hcurmem
    refine h.remove ?_ ?_ hcount hctr hcurmem
    · rw [hslots']
      exact hl
    · intro u
      exact (hpid u).trans (setState_pid s t u .zombie)
  have hstates : ∀ e ∈ l₁ ++ l₂, (s₁.taskTable e.1).state = expected s e.1 := by
    intro e he
    rw [hstate, setState_state_ne s .zombie (h.slot_ne e he)]
    exact hst e he
  have hzombie : ∀ u, u ∉ slots (l₁ ++ l₂) → (s₁.taskTable u).state = .zombie := by
    intro u hu
    rw [hstate]
    by_cases hut : u = t
    · rw [hut]
      exact setState_state_self s t .zombie
    · rw [setState_state_ne s .zombie hut]
      apply hdead
      rw [hslots]
      rw [hslots'] at hu
      simpa [hut] using hu
  by_cases hc : s₁.currentTask = some t
  · -- the current task died: `current_task` is NULL and nothing is RUNNING
    rw [if_pos hc]
    refine ⟨hwf none (by simp), ?_, hzombie⟩
    intro u hu
    rcases List.mem_map.1 hu with ⟨e, he, rfl⟩
    have hne : s.currentTask ≠ some e.1 := by
      rw [← setState_currentTask s t .zombie, ← hcur, hc]
      intro heq
      exact h.slot_ne e he (Option.some.inj heq).symm
    refine (hstates e he).trans ?_
    simp [expected, hne]
  · rw [if_neg hc]
    have hcs : s₁.currentTask = s.currentTask := hcur
    refine ⟨hwf s₁.currentTask ?_, ?_, hzombie⟩
    · intro c hcc
      have hq := h.current c (hcs ▸ hcc)
      have hct : c ≠ t := fun heq => hc (heq ▸ hcc)
      rw [hslots] at hq
      rw [hslots']
      simpa [hct] using hq
    · intro u hu
      rcases List.mem_map.1 hu with ⟨e, he, rfl⟩
      refine (hstates e he).trans ?_
      simp [expected, hcs]

end Unlink

/-- `kill_task` returns for every queue and every pid. -/
theorem killTask_inv {s : Sched} {live : List (Slot × UInt32)} (h : Inv s live) (pid : UInt32) :
    ∃ s', killTask pid s = some s' ∧ Inv s' (recordKilled pid live) := by
  by_cases hpid : ∃ t, (t, pid) ∈ live
  · rcases hpid with ⟨t, ht⟩
    rcases List.append_of_mem ht with ⟨l₁, l₂, rfl⟩
    rw [h.recordKilled_eq]
    refine ⟨_, killTask_live h.toWf, unlinkTask_inv h.toWf ?_ h.dead⟩
    intro e he
    exact h.states e.1 (List.mem_map_of_mem (mem_of_mem_removed he))
  · have hne : ∀ e ∈ live, e.2 ≠ pid := by
      intro e he heq
      exact hpid ⟨e.1, heq ▸ he⟩
    refine ⟨s, killTask_absent h.toWf hne, ?_⟩
    have hsame : recordKilled pid live = live := by
      apply List.filter_eq_self.2
      intro e he
      simpa using hne e he
    rw [hsame]
    exact h

/-- The end of a task: the current task is ZOMBIE while `kill_task` looks for it. -/
theorem taskExit_inv {s : Sched} {live : List (Slot × UInt32)} (h : Inv s live) :
    ∃ s', taskExit s = some s' ∧
      Inv s' (match s.currentTask with
        | none => live
        | some c => recordKilled (s.taskTable c).pid live) := by
  unfold taskExit
  cases hcur : s.currentTask with
  | none => exact ⟨s, rfl, h⟩
  | some c =>
    rcases List.mem_map.1 (h.current c hcur) with ⟨⟨t, pid⟩, he, rfl⟩
    have hpid : (s.taskTable t).pid = pid := h.pids (t, pid) he
    rcases List.append_of_mem he with ⟨l₁, l₂, rfl⟩
    have hwf : Wf (s.setState t .zombie) (l₁ ++ (t, pid) :: l₂) :=
      h.toWf.modify (fun _ => rfl) (fun _ => rfl)
    simp only [hpid]
    rw [h.recordKilled_eq]
    refine ⟨_, killTask_live hwf, unlinkTask_inv hwf ?_ ?_⟩
    · intro e he
      rw [setState_state_ne s .zombie (h.slot_ne e he)]
      exact h.states e.1 (List.mem_map_of_mem (mem_of_mem_removed he))
    · intro u hu
      have hut : u ≠ t := by
        intro heq
        exact hu (by simp [heq])
      rw [setState_state_ne s .zombie hut]
      exact h.dead u hu

/-! ## `task_yield` -/

@[simp] theorem preempt_currentTask (c : Slot) (s : Sched) :
    (preempt c s).currentTask = s.currentTask := by
  unfold preempt
  split <;> rfl

/-- The task handed over to is the current one. -/
theorem handOver_currentTask {s : Sched} {c : Slot} (hcur : s.currentTask = some c) (n : Slot) :
    (handOver c (some n) s).1.currentTask = some n := by
  unfold handOver
  by_cases hnc : n = c
  · simp [hnc, hcur]
  · simp [hnc]

/-- Set back to READY, the current task looks like every other queued task. -/
theorem preempt_ready {s : Sched} {live : List (Slot × UInt32)} (h : Inv s live) {c : Slot}
    (hcur : s.currentTask = some c) :
    (∀ u ∈ slots live, ((preempt c s).taskTable u).state = .ready) ∧ (preempt c s).next = s.next ∧
      Wf (preempt c s) live ∧
      ∀ u, u ∉ slots live → ((preempt c s).taskTable u).state = .zombie := by
  have hrun : (s.taskTable c).state = .running := by
    rw [h.states c (h.current c hcur), expected, if_pos hcur]
  have hwf : Wf ({ s with scheduleRequested := false } : Sched) live :=
    ⟨h.linked, h.pids, h.slotOf, h.used, h.sorted, h.count, h.counter, h.current⟩
  unfold preempt
  rw [if_pos hrun]
  refine ⟨?_, setState_next _ c .ready, hwf.modify (fun _ => rfl) (fun _ => rfl), ?_⟩
  · intro u hu
    by_cases huc : u = c
    · rw [huc]
      exact setState_state_self _ c .ready
    · have hne : s.currentTask ≠ some u := by
        rw [hcur]
        intro heq
        exact huc (Option.some.inj heq).symm
      rw [setState_state_ne _ .ready huc]
      exact (h.states u hu).trans (if_neg hne)
  · intro u hu
    have huc : u ≠ c := fun heq => hu (heq ▸ h.current c hcur)
    rw [setState_state_ne _ .ready huc]
    exact h.dead u hu

/-- From the current task `c`, the round robin goes on to the task behind it, or from the last
one to the head of the queue; alone in the queue, `c` is its own successor. Every queued task
is READY by then, so neither search loop skips a task. -/
theorem pickNext_eq {s : Sched} {c head : Slot} {q₁ q₂ : List Slot}
    (hlinked : Linked s.next (some head) (q₁ ++ c :: q₂))
    (hready : ∀ u ∈ q₁ ++ c :: q₂, (s.taskTable u).state = .ready) :
    pickNext c head s = some (some ((q₂ ++ q₁).head?.getD c)) := by
  have hnext : (s.taskTable c).next = q₂.head? := hlinked.next_eq
  unfold pickNext
  rw [hnext]
  cases q₂ with
  | cons n q₂ =>
    rw [List.head?_cons, skipToReady_ready (hready n (by simp))]
    rfl
  | nil =>
    have hhead := hlinked.head_eq
    cases q₁ with
    | nil =>
      obtain rfl : head = c := by simpa using hhead
      rw [List.head?_nil, skipToReady_none, Option.bind_some, skipToReady_ready (hready head (by simp))]
      rfl
    | cons b q₁ =>
      obtain rfl : head = b := by simpa using hhead
      rw [List.head?_nil, skipToReady_none, Option.bind_some, skipToReady_ready (hready head (by simp))]
      rfl

/-- `task_yield` on a queue `q₁ ++ c :: q₂` with current task `c`. -/
theorem taskYield_eq {s : Sched} {live : List (Slot × UInt32)} (h : Inv s live) {c : Slot}
    (hcur : s.currentTask = some c) {q₁ q₂ : List Slot} (hq : slots live = q₁ ++ c :: q₂) :
    taskYield s = some (handOver c (some ((q₂ ++ q₁).head?.getD c)) (preempt c s)) := by
  rcases preempt_ready h hcur with ⟨hready, hnext, -, -⟩
  have hlinked := h.linked
  rw [hq] at hlinked hready
  rcases hhead : s.readyQueueHead with _ | head
  · -- impossible: the queue holds `c`
    rw [hhead] at hlinked
    cases q₁ <;> simp at hlinked
  rw [hhead, ← hnext] at hlinked
  unfold taskYield
  simp only [hcur, hhead]
  rw [pickNext_eq hlinked hready, Option.map_some]

/-- A queue in which all but the current task are READY is in order. -/
theorem Wf.inv_of_running {s : Sched} {live : List (Slot × UInt32)} (h : Wf s live) {n : Slot}
    (hcur : s.currentTask = some n) (hrun : (s.taskTable n).state = .running)
    (hready : ∀ u ∈ slots live, u ≠ n → (s.taskTable u).state = .ready)
    (hdead : ∀ u, u ∉ slots live → (s.taskTable u).state = .zombie) : Inv s live := by
  refine ⟨h, ?_, hdead⟩
  intro u hu
  by_cases hun : u = n
  · rw [hun, hrun, expected, if_pos hcur]
  · have hne : s.currentTask ≠ some u := by
      rw [hcur]
      exact fun heq => hun (Option.some.inj heq).symm
    rw [hready u hu hun, expected, if_neg hne]

/-- Handing the CPU to a queued task moves the RUNNING mark and nothing else. -/
theorem handOver_inv {s : Sched} {live : List (Slot × UInt32)} (h : Inv s live) {c n : Slot}
    (hcur : s.currentTask = some c) (hn : n ∈ slots live) :
    Inv (handOver c (some n) (preempt c s)).1 live := by
  rcases preempt_ready h hcur with ⟨hready, -, hwf, hdead⟩
  have hcur' : (preempt c s).currentTask = some c := by rw [preempt_currentTask, hcur]
  have hne : ∀ u, u ∉ slots live → u ≠ n := fun u hu heq => hu (heq ▸ hn)
  generalize preempt c s = s₁ at hready hwf hdead hcur'
  unfold handOver
  by_cases hnc : n = c
  · -- no other task: `c` is marked RUNNING again
    subst hnc
    simp only [if_true]
    have hwf' : Wf (s₁.setState n .running) live := hwf.modify (fun _ => rfl) (fun _ => rfl)
    refine hwf'.inv_of_running hcur' (setState_state_self s₁ n .running) ?_ ?_
    · intro u hu hun
      rw [setState_state_ne s₁ .running hun]
      exact hready u hu
    · intro u hu
      rw [setState_state_ne s₁ .running (hne u hu)]
      exact hdead u hu
  · -- the successor gets the mark and a new time slice, and `current_task` moves to it
    simp only [hnc, if_false]
    have hwf' := hwf.modify (t := n) (f := fun b => { b with state := .running, timeslice := 20 })
      (fun _ => rfl) (fun _ => rfl)
    have hwf'' : Wf { s₁.modify n (fun b => { b with state := .running, timeslice := 20 }) with
        currentTask := some n } live := by
      refine ⟨hwf'.linked, hwf'.pids, hwf'.slotOf, hwf'.used, hwf'.sorted, hwf'.count,
        hwf'.counter, ?_⟩
      intro u hu
      rw [← Option.some.inj hu]
      exact hn
    refine hwf''.inv_of_running rfl (by simp) ?_ ?_
    · intro u hu hun
      simp only [modify_taskTable_ne _ _ hun]
      exact hready u hu
    · intro u hu
      simp only [modify_taskTable_ne _ _ (hne u hu)]
      exact hdead u hu

/-- The task `task_yield` picks is a queued one. -/
theorem successor_mem (q₁ q₂ : List Slot) (c : Slot) :
    (q₂ ++ q₁).head?.getD c ∈ q₁ ++ c :: q₂ := by
  cases q₂ with
  | cons n q₂ => simp
  | nil =>
    cases q₁ with
    | nil => simp
    | cons a q₁ => simp

/-- `task_yield` returns for every queue. -/
theorem taskYield_inv {s : Sched} {live : List (Slot × UInt32)} (h : Inv s live) :
    ∃ r, taskYield s = some r ∧ Inv r.1 live := by
  cases hcur : s.currentTask with
  | none =>
    refine ⟨(s, none), ?_, h⟩
    unfold taskYield
    rw [hcur]
  | some c =>
    have hc := h.current c hcur
    rcases List.append_of_mem hc with ⟨q₁, q₂, hq⟩
    refine ⟨_, taskYield_eq h hcur hq, handOver_inv h hcur ?_⟩
    rw [hq]
    exact successor_mem q₁ q₂ c

/-! ## Every call -/

/-- Saving a stack pointer touches no link, pid or state. -/
theorem saveStackPointer_inv {s : Sched} {live : List (Slot × UInt32)} (h : Inv s live)
    (rsp : UInt64) (sw : Option (Slot × Slot)) : Inv (saveStackPointer rsp sw s) live := by
  cases sw with
  | none => exact h
  | some p =>
    have hwf := h.toWf.modify (t := p.1) (f := fun b => { b with stackPointer := rsp })
      (fun _ => rfl) (fun _ => rfl)
    have hstate : ∀ u, ((saveStackPointer rsp (some p) s).taskTable u).state =
        (s.taskTable u).state := by
      intro u
      by_cases hup : u = p.1
      · subst hup
        simp [saveStackPointer]
      · simp [saveStackPointer, hup]
    refine ⟨hwf, ?_, ?_⟩
    · exact fun u hu => (hstate u).trans (h.states u hu)
    · exact fun u hu => (hstate u).trans (h.dead u hu)

/-- Every call returns, and leaves the scheduler and the record in step. -/
theorem step_inv (taskStacks : UInt64) (h : History) (call : Call) (hinv : Inv h.sched h.live) :
    ∃ h', step taskStacks h call = some h' ∧ Inv h'.sched h'.live := by
  cases call with
  | createTask name entry priority =>
    rcases createTask_inv hinv taskStacks name entry priority with ⟨r, hr, hinv'⟩
    exact ⟨_, by rw [step, hr, Option.map_some], hinv'⟩
  | killTask pid =>
    rcases killTask_inv hinv pid with ⟨s', hs', hinv'⟩
    exact ⟨_, by rw [step, hs', Option.map_some], hinv'⟩
  | taskExit =>
    rcases taskExit_inv hinv with ⟨s', hs', hinv'⟩
    exact ⟨_, by rw [step, hs', Option.map_some], hinv'⟩
  | requestSchedule =>
    refine ⟨_, rfl, ?_⟩
    exact ⟨⟨hinv.linked, hinv.pids, hinv.slotOf, hinv.used, hinv.sorted, hinv.count,
      hinv.counter, hinv.current⟩, hinv.states, hinv.dead⟩
  | taskYield rsp =>
    rcases taskYield_inv hinv with ⟨r, hr, hinv'⟩
    exact ⟨_, by rw [step, hr, Option.map_some], saveStackPointer_inv hinv' rsp r.2⟩

/-- The invariant holds after every run from boot, and every run returns. -/
theorem run_inv (taskStacks : UInt64) (calls : List Call) :
    ∃ h, run taskStacks calls = some h ∧ Inv h.sched h.live :=
  Run.exec_invariant (fun h : History => Inv h.sched h.live) (step_inv taskStacks) boot_inv calls

end CosKernel.Scheduler
