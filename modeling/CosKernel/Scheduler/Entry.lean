import CosKernel.Scheduler.Capacity

/-!
# Where a task starts

`create_task` makes the first task the current one without switching to it:
`kernel_main` runs on in its own context, and the first switch saves that context
in the block of the first task, over the frame `create_task` built there. This
module keeps track of the context that really executes beside `current_task`.

A context is that of `kernel_main` (`none`), or that of a task: the one that
begins in `task_entry_wrapper` when the frame built for the task is loaded.
-/

namespace CosKernel.Scheduler.Entry

open Run

/-! ## The machine -/

/-- What a saved stack pointer points to: the frame `create_task` built for the
task, or the one a context left when it switched. -/
inductive Saved where
  | built
  | suspended (context : Option Slot)
deriving DecidableEq, Repr

/-- The scheduler, the context that executes, what the saved stack pointers point
to, the entries the tasks were created with, and the tasks a switch has loaded. -/
structure Machine where
  sched : Sched
  executing : Option Slot
  saved : Slot → Saved
  entryOf : Slot → UInt64
  loaded : List Slot

inductive Call where
  | createTask (name : Option String) (entry : UInt64) (priority : UInt32)
  | taskYield (rsp : UInt64)
deriving DecidableEq, Repr

/-- The frame of the task `create_task` returned. -/
def Machine.created (m : Machine) (entry : UInt64) : Option Slot × Sched → Machine
  | (none, s) => { m with sched := s }
  | (some t, s) =>
    { m with
      sched := s
      saved := Function.update m.saved t .built
      entryOf := Function.update m.entryOf t entry }

/-- The switch at the end of `task_yield`: the context that executes is saved in
the block of `old`, and the one saved in the block of `new` goes on. -/
def Machine.switched (m : Machine) (rsp : UInt64) : Sched × Option (Slot × Slot) → Machine
  | (s, none) => { m with sched := s }
  | (s, some (old, new)) =>
    { m with
      sched := saveStackPointer rsp (some (old, new)) s
      executing := match m.saved new with
        | .built => some new
        | .suspended context => context
      saved := Function.update m.saved old (.suspended m.executing)
      loaded := new :: m.loaded }

def step (taskStacks : UInt64) (m : Machine) : Call → Option Machine
  | .createTask name entry priority =>
    (createTask taskStacks name entry priority m.sched).map (m.created entry)
  | .taskYield rsp => (taskYield m.sched).map (m.switched rsp)

/-- `kernel_main` behind `scheduler_initialize`. -/
def start : Machine where
  sched := schedulerInitialize bss
  executing := none
  saved := fun _ => .built
  entryOf := fun _ => 0
  loaded := []

/-- The entry that `task_entry_wrapper` calls. -/
def calledEntry (s : Sched) : Option UInt64 :=
  s.currentTask.bind fun c =>
    if (s.taskTable c).entry ≠ 0 then some (s.taskTable c).entry else none

/-! ## The property -/

/-- What is owed to task `t` at a `task_yield` that switches: the first time it is
loaded, it begins in `task_entry_wrapper` from the frame `create_task` built, and
its own entry is called; and the pointer to that frame is not overwritten before. -/
def Starts (taskStacks : UInt64) (t : Slot) (m : Machine) (c : Call) : Prop :=
  ∀ rsp s' old new, c = .taskYield rsp → taskYield m.sched = some (s', some (old, new)) →
    (new = t → t ∉ m.loaded → m.saved t = .built ∧
      (m.sched.taskTable t).stackPointer = stackTop taskStacks t - 7 * 8 ∧
      calledEntry s' = if m.entryOf t ≠ 0 then some (m.entryOf t) else none) ∧
    (old = t → t ∉ m.loaded → m.saved t ≠ .built)

/-- The condition on a call: no `task_yield` while there are two or more tasks. -/
def YieldsAlone (m : Machine) (c : Call) : Prop :=
  ∀ rsp, c = .taskYield rsp → m.sched.taskCount < 2

/-! ## The invariant -/

/-- No task was killed, so that every slot in use is queued; a task that was not
loaded still has its frame, unless it is the first one; and a current task that
was not loaded is the first one. -/
structure Inv (taskStacks : UInt64) (m : Machine) (live : List (Slot × UInt32)) : Prop where
  sched : Scheduler.Inv m.sched live
  length_live : live.length = m.sched.taskCount
  current : 0 < m.sched.taskCount → m.sched.currentTask ≠ none
  current_loaded : ∀ c, m.sched.currentTask = some c → c ≠ 0 → c ∈ m.loaded
  entry : ∀ t : Slot, t.val < m.sched.taskCount → (m.sched.taskTable t).entry = m.entryOf t
  built : ∀ t : Slot, t.val < m.sched.taskCount → t ∉ m.loaded → t ≠ 0 ∨ m.loaded = [] →
    m.saved t = .built ∧ (m.sched.taskTable t).stackPointer = stackTop taskStacks t - 7 * 8

theorem inv_start (taskStacks : UInt64) : Inv taskStacks start [] := by
  constructor
  · exact boot_inv
  · rfl
  · intro hpos
    exact absurd hpos (Nat.lt_irrefl 0)
  · intro c hc
    cases hc
  · intro t ht
    exact absurd ht (Nat.not_lt_zero t)
  · intro t ht
    exact absurd ht (Nat.not_lt_zero t)

/-- The queue is empty before the first task, and only then. -/
theorem Inv.head_none_iff {taskStacks : UInt64} {m : Machine} {live : List (Slot × UInt32)}
    (h : Inv taskStacks m live) : m.sched.readyQueueHead = none ↔ m.sched.taskCount = 0 := by
  have hlinked := h.sched.linked
  rw [← h.length_live, List.length_eq_zero_iff]
  constructor
  · intro hnone
    rw [hnone] at hlinked
    exact List.map_eq_nil_iff.1 (hlinked.unique (Linked.nil_iff.2 rfl))
  · intro hnil
    rw [hnil] at hlinked
    exact hlinked

/-! ## One call -/

/-- `task_yield` goes on to a queued task, which is another one as soon as there
are two. -/
theorem taskYield_successor {s : Sched} {live : List (Slot × UInt32)} (h : Scheduler.Inv s live)
    {c : Slot} (hcur : s.currentTask = some c) :
    ∃ n ∈ slots live, taskYield s = some (handOver c (some n) (preempt c s)) ∧
      (n = c ↔ live.length < 2) := by
  rcases List.append_of_mem (h.current c hcur) with ⟨q₁, q₂, hq⟩
  refine ⟨(q₂ ++ q₁).head?.getD c, ?_, taskYield_eq h hcur hq, ?_⟩
  · rw [hq]
    exact successor_mem q₁ q₂ c
  · have hlen : live.length = (q₂ ++ q₁).length + 1 := by
      have hslots := congrArg List.length hq
      rw [List.length_map] at hslots
      rw [hslots, List.length_append, List.length_cons, List.length_append]
      omega
    have hnodup := h.linked.nodup
    rw [hq, List.nodup_middle, List.nodup_cons] at hnodup
    cases hrest : q₂ ++ q₁ with
    | nil =>
      rw [hrest] at hlen
      exact iff_of_true rfl (by rw [hlen]; decide)
    | cons n rest =>
      rw [hrest, List.length_cons] at hlen
      apply iff_of_false _ (by omega)
      intro heq
      apply hnodup.1
      have hmem : n ∈ q₂ ++ q₁ := hrest ▸ List.mem_cons_self
      have hc : n = c := heq
      rw [← hc, List.mem_append, or_comm, ← List.mem_append]
      exact hmem

/-- What `task_yield` does to the machine: nothing that matters here, or a switch
away from the current task. -/
theorem taskYield_cases {taskStacks : UInt64} {m : Machine} {live : List (Slot × UInt32)}
    (h : Inv taskStacks m live) :
    ∃ s', Scheduler.Inv s' live ∧ s'.taskCount = m.sched.taskCount ∧
      (∀ u, startOf (s'.taskTable u) = startOf (m.sched.taskTable u)) ∧
      (m.sched.taskCount < 2 ∧ taskYield m.sched = some (s', none) ∧
          s'.currentTask = m.sched.currentTask ∨
        2 ≤ m.sched.taskCount ∧ ∃ old new, taskYield m.sched = some (s', some (old, new)) ∧
          m.sched.currentTask = some old ∧ s'.currentTask = some new ∧ new ≠ old ∧
          new ∈ slots live) := by
  cases hcur : m.sched.currentTask with
  | none =>
    have hcount : m.sched.taskCount = 0 := by
      by_contra hne
      exact h.current (Nat.pos_of_ne_zero hne) hcur
    refine ⟨m.sched, h.sched, rfl, fun _ => rfl, Or.inl ⟨by omega, ?_, hcur⟩⟩
    unfold taskYield
    rw [hcur]
  | some c =>
    rcases taskYield_successor h.sched hcur with ⟨n, hn, hyield, hiff⟩
    have hinv := handOver_inv h.sched hcur hn
    have hcur' : (preempt c m.sched).currentTask = some c := by rw [preempt_currentTask, hcur]
    have hcurrent := handOver_currentTask hcur' n
    have hcount : (handOver c (some n) (preempt c m.sched)).1.taskCount = m.sched.taskCount := by
      rw [handOver_taskCount, preempt_taskCount]
    refine ⟨(handOver c (some n) (preempt c m.sched)).1, hinv, hcount, ?_, ?_⟩
    · intro u
      rw [handOver_startOf, preempt_startOf]
    · rw [h.length_live] at hiff
      by_cases hnc : n = c
      · left
        refine ⟨hiff.mp hnc, ?_, by rw [hcurrent, hnc]⟩
        rw [hyield]
        simp [handOver, hnc]
      · right
        have htwo : 2 ≤ m.sched.taskCount := by
          by_contra hlt
          exact hnc (hiff.mpr (by omega))
        refine ⟨htwo, c, n, ?_, rfl, hcurrent, hnc, hn⟩
        rw [hyield]
        simp [handOver, hnc]

theorem createTask_step {taskStacks : UInt64} {m : Machine} {live : List (Slot × UInt32)}
    (h : Inv taskStacks m live) (name : Option String) (entry : UInt64) (priority : UInt32) :
    ∃ m', step taskStacks m (.createTask name entry priority) = some m' ∧
      ∃ live', Inv taskStacks m' live' := by
  rw [step]
  by_cases hroom : m.sched.taskCount < maxTasks
  swap
  · rw [createTask_full hroom]
    exact ⟨m, rfl, live, h⟩
  rcases createTask_room h.sched hroom taskStacks name entry priority with
    ⟨s', hr, hcount, hstart, hother, hcurrent⟩
  rcases createTask_inv h.sched taskStacks name entry priority with ⟨r, hr', hinv⟩
  rw [hr, Option.some.injEq] at hr'
  subst hr'
  have hlength := h.length_live
  generalize ht : (⟨m.sched.taskCount, hroom⟩ : Slot) = t at hr hstart hother hcurrent hinv
  have htval : t.val = m.sched.taskCount := by rw [← ht]
  refine ⟨_, by rw [hr]; rfl, _, hinv, ?_, ?_, ?_, ?_, ?_⟩
  · show (live ++ [_]).length = s'.taskCount
    rw [List.length_append, hcount, hlength]
    rfl
  · intro _
    show s'.currentTask ≠ none
    rw [hcurrent]
    split
    · simp
    · rename_i hsome
      rw [h.head_none_iff] at hsome
      exact h.current (Nat.pos_of_ne_zero hsome)
  · intro c hc hne
    show c ∈ m.loaded
    have hc' : s'.currentTask = some c := hc
    rw [hcurrent] at hc'
    split at hc'
    · -- only the first task becomes current without a switch
      rename_i hnone
      have hzero := h.head_none_iff.1 hnone
      exfalso
      apply hne
      rw [← Option.some.inj hc']
      exact Fin.ext (htval.trans hzero)
    · exact h.current_loaded c hc' hne
  · intro u hu
    have hu' : u.val < s'.taskCount := hu
    show (s'.taskTable u).entry = Function.update m.entryOf t entry u
    by_cases hut : u = t
    · subst hut
      rw [Function.update_self]
      exact congrArg Prod.snd hstart
    · have hne : u.val ≠ t.val := fun heq => hut (Fin.ext heq)
      rw [Function.update_of_ne hut, ← h.entry u (by omega)]
      exact congrArg Prod.snd (hother u hut)
  · intro u hu hunloaded hfirst
    have hu' : u.val < s'.taskCount := hu
    show Function.update m.saved t .built u = .built ∧ (s'.taskTable u).stackPointer = _
    by_cases hut : u = t
    · subst hut
      rw [Function.update_self]
      exact ⟨rfl, congrArg Prod.fst hstart⟩
    · have hne : u.val ≠ t.val := fun heq => hut (Fin.ext heq)
      have hpointer : (s'.taskTable u).stackPointer = (m.sched.taskTable u).stackPointer :=
        congrArg Prod.fst (hother u hut)
      rw [Function.update_of_ne hut, hpointer]
      exact h.built u (by omega) hunloaded hfirst

section Yield

variable {taskStacks : UInt64} {m : Machine} {live : List (Slot × UInt32)} (h : Inv taskStacks m live)
  {s' : Sched} (hinv : Scheduler.Inv s' live) (hcount : s'.taskCount = m.sched.taskCount)
  (hstart : ∀ u, startOf (s'.taskTable u) = startOf (m.sched.taskTable u))
include h hinv hcount hstart

/-- A yield that keeps the current task. -/
theorem Inv.stay (hcurrent : s'.currentTask = m.sched.currentTask) :
    Inv taskStacks { m with sched := s' } live := by
  refine ⟨hinv, ?_, ?_, ?_, ?_, ?_⟩
  · exact h.length_live.trans hcount.symm
  · intro hpos
    show s'.currentTask ≠ none
    rw [hcurrent]
    exact h.current (by rw [← hcount]; exact hpos)
  · intro c hc
    exact h.current_loaded c (hcurrent ▸ hc)
  · intro t ht
    have hentry : (s'.taskTable t).entry = (m.sched.taskTable t).entry := congrArg Prod.snd (hstart t)
    show (s'.taskTable t).entry = _
    rw [hentry]
    exact h.entry t (hcount ▸ ht)
  · intro t ht hunloaded hfirst
    have hpointer : (s'.taskTable t).stackPointer = (m.sched.taskTable t).stackPointer :=
      congrArg Prod.fst (hstart t)
    show m.saved t = _ ∧ (s'.taskTable t).stackPointer = _
    rw [hpointer]
    exact h.built t (hcount ▸ ht) hunloaded hfirst

/-- A yield that switches from one task to another. -/
theorem Inv.switch {old new : Slot} (hold : m.sched.currentTask = some old)
    (hnew : s'.currentTask = some new) (rsp : UInt64) :
    Inv taskStacks (m.switched rsp (s', some (old, new))) live := by
  refine ⟨saveStackPointer_inv hinv rsp (some (old, new)), ?_, ?_, ?_, ?_, ?_⟩
  · exact h.length_live.trans hcount.symm
  · intro _
    show s'.currentTask ≠ none
    rw [hnew]
    simp
  · intro c hc _
    have hc' : s'.currentTask = some c := hc
    rw [hnew, Option.some.injEq] at hc'
    rw [← hc']
    exact List.mem_cons_self
  · intro t ht
    have ht' : t.val < m.sched.taskCount := hcount ▸ ht
    have hentry : (s'.taskTable t).entry = (m.sched.taskTable t).entry := congrArg Prod.snd (hstart t)
    show ((s'.modify old fun b => { b with stackPointer := rsp }).taskTable t).entry = m.entryOf t
    rw [← h.entry t ht', ← hentry]
    by_cases hto : t = old
    · subst hto
      rw [modify_taskTable_self]
    · rw [modify_taskTable_ne _ _ hto]
  · intro t ht hunloaded hfirst
    have ht' : t.val < m.sched.taskCount := hcount ▸ ht
    have hpointer : (s'.taskTable t).stackPointer = (m.sched.taskTable t).stackPointer :=
      congrArg Prod.fst (hstart t)
    have hnotin : t ∉ m.loaded := fun hmem => hunloaded (List.mem_cons_of_mem new hmem)
    have hzero : t ≠ 0 := by
      rcases hfirst with hzero | hnil
      · exact hzero
      · cases hnil
    -- the task switched out was loaded before, or is the first one
    have hto : t ≠ old := by
      intro hto
      exact hnotin (h.current_loaded t (hto ▸ hold) hzero)
    show Function.update m.saved old _ t = _ ∧
      ((s'.modify old fun b => { b with stackPointer := rsp }).taskTable t).stackPointer = _
    rw [Function.update_of_ne hto, modify_taskTable_ne _ _ hto, hpointer]
    exact h.built t ht' hnotin (Or.inl hzero)

end Yield

theorem taskYield_step {taskStacks : UInt64} {m : Machine} {live : List (Slot × UInt32)}
    (h : Inv taskStacks m live) (rsp : UInt64) :
    ∃ m', step taskStacks m (.taskYield rsp) = some m' ∧ Inv taskStacks m' live := by
  rw [step]
  rcases taskYield_cases h with ⟨s', hinv, hcount, hstart, hcase⟩
  rcases hcase with ⟨_, hyield, hcurrent⟩ | ⟨_, old, new, hyield, hold, hnew, -, -⟩
  · exact ⟨{ m with sched := s' }, by rw [hyield]; rfl, h.stay hinv hcount hstart hcurrent⟩
  · exact ⟨m.switched rsp (s', some (old, new)), by rw [hyield]; rfl,
      h.switch hinv hcount hstart hold hnew rsp⟩

theorem step_inv (taskStacks : UInt64) (m : Machine) (c : Call)
    (h : ∃ live, Inv taskStacks m live) :
    ∃ m', step taskStacks m c = some m' ∧ ∃ live, Inv taskStacks m' live := by
  rcases h with ⟨live, h⟩
  cases c with
  | createTask name entry priority => exact createTask_step h name entry priority
  | taskYield rsp =>
    rcases taskYield_step h rsp with ⟨m', hstep, hinv⟩
    exact ⟨m', hstep, live, hinv⟩

/-! ## Histories -/

/-- At a switch to `new`, `task_entry_wrapper` would call the entry of `new`. -/
theorem calledEntry_eq {taskStacks : UInt64} {m : Machine} {live : List (Slot × UInt32)}
    (h : Inv taskStacks m live) {s' : Sched} {new : Slot} (hcurrent : s'.currentTask = some new)
    (hstart : startOf (s'.taskTable new) = startOf (m.sched.taskTable new))
    (hused : new.val < m.sched.taskCount) :
    calledEntry s' = if m.entryOf new ≠ 0 then some (m.entryOf new) else none := by
  have hentry : (s'.taskTable new).entry = m.entryOf new :=
    (congrArg Prod.snd hstart).trans (h.entry new hused)
  unfold calledEntry
  rw [hcurrent, Option.bind_some, hentry]

/-- A task that is switched to for the first time with its frame in place starts
at its entry, and none but the first task loses its frame. -/
theorem starts_of_inv {taskStacks : UInt64} {m : Machine} {live : List (Slot × UInt32)}
    (h : Inv taskStacks m live) {t : Slot} (ht : t ≠ 0) (c : Call) : Starts taskStacks t m c := by
  intro rsp s' old new hc hyield
  rcases taskYield_cases h with ⟨s₁, hinv, _, hstart, ⟨_, hnone, _⟩ |
    ⟨_, old₁, new₁, hswitch, hold, hnew, _, hmem⟩⟩
  · rw [hyield] at hnone
    simp at hnone
  · rw [hyield] at hswitch
    simp only [Option.some.injEq, Prod.mk.injEq] at hswitch
    rcases hswitch with ⟨rfl, rfl, rfl⟩
    constructor
    · intro hnt hunloaded
      subst hnt
      rcases List.mem_map.mp hmem with ⟨e, he, rfl⟩
      have hused := h.sched.used e he
      rcases h.built e.1 hused hunloaded (Or.inl ht) with ⟨hbuilt, hpointer⟩
      exact ⟨hbuilt, hpointer, calledEntry_eq h hnew (hstart e.1) hused⟩
    · intro hot hunloaded
      subst hot
      exact absurd (h.current_loaded old hold ht) hunloaded

/-- In every run, every task but the first one created starts at its entry. -/
theorem later_tasks_start (taskStacks : UInt64) (t : Slot) (ht : t ≠ 0) (calls : List Call) :
    Throughout (step taskStacks) (Starts taskStacks t) start calls := by
  apply throughout_of_invariant (fun m => ∃ live, Inv taskStacks m live) (step_inv taskStacks)
  · intro m c hinv
    rcases hinv with ⟨live, h⟩
    exact starts_of_inv h ht c
  · exact ⟨[], inv_start taskStacks⟩

/-- Before the first switch, every task has its frame, and a switch would take it
from the current one. -/
theorem starts_iff_of_unloaded {taskStacks : UInt64} {m : Machine} {live : List (Slot × UInt32)}
    (h : Inv taskStacks m live) (hloaded : m.loaded = []) (c : Call) :
    (∀ t, Starts taskStacks t m c) ↔ YieldsAlone m c := by
  rcases taskYield_cases h with ⟨s₁, hinv, _, hstart, ⟨halone, hnone, _⟩ |
    ⟨htwo, old, new, hswitch, hold, hnew, _, hmem⟩⟩
  · apply iff_of_true
    · intro t rsp s' old new _ hyield
      rw [hyield] at hnone
      simp at hnone
    · intro _ _
      exact halone
  · constructor
    · intro hall rsp hc
      rcases List.mem_map.mp (h.sched.current old hold) with ⟨e, he, rfl⟩
      have hunloaded : e.1 ∉ m.loaded := by
        rw [hloaded]
        exact List.not_mem_nil
      have hbuilt := (h.built e.1 (h.sched.used e he) hunloaded (Or.inr hloaded)).1
      exact absurd hbuilt ((hall e.1 rsp s₁ e.1 new hc hswitch).2 rfl hunloaded)
    · intro halone t rsp s' old' new' hc _
      exact absurd (halone rsp hc) (by omega)

theorem step_unloaded {taskStacks : UInt64} {m m' : Machine} {live : List (Slot × UInt32)}
    {c : Call} (h : Inv taskStacks m live) (hloaded : m.loaded = []) (halone : YieldsAlone m c)
    (hstep : step taskStacks m c = some m') : m'.loaded = [] := by
  cases c with
  | createTask name entry priority =>
    rw [step] at hstep
    rcases Option.map_eq_some_iff.mp hstep with ⟨r, _, rfl⟩
    rcases r with ⟨_ | t, s'⟩
    · exact hloaded
    · exact hloaded
  | taskYield rsp =>
    rcases taskYield_cases h with ⟨s₁, _, _, _, ⟨_, hnone, _⟩ | ⟨htwo, _⟩⟩
    · rw [step, hnone] at hstep
      rw [← Option.some.inj hstep]
      exact hloaded
    · exact absurd (halone rsp rfl) (by omega)

/-- In every run, every task starts at its entry the first time it is switched to,
exactly when no `task_yield` is ever made while there are two or more tasks. -/
theorem created_tasks_start_iff (taskStacks : UInt64) (calls : List Call) :
    Throughout (step taskStacks) (fun m c => ∀ t, Starts taskStacks t m c) start calls ↔
      Throughout (step taskStacks) YieldsAlone start calls := by
  apply throughout_congr (fun m => (∃ live, Inv taskStacks m live) ∧ m.loaded = [])
  · intro m c hinv halone
    rcases step_inv taskStacks m c hinv.1 with ⟨m', hstep, hinv'⟩
    rcases hinv.1 with ⟨live, h⟩
    exact ⟨m', hstep, hinv', step_unloaded h hinv.2 halone hstep⟩
  · intro m c hinv
    rcases hinv with ⟨⟨live, h⟩, hloaded⟩
    exact starts_iff_of_unloaded h hloaded c
  · exact ⟨⟨[], inv_start taskStacks⟩, rfl⟩

/-- The idle task and the shell of `kernel_main`, and the first `task_yield`. -/
def firstYield : List Call :=
  [.createTask (some "idle") 0x1000 0, .createTask (some "shell") 0x2000 1, .taskYield 0x7FF00]

/-- It saves the context of `kernel_main` over the frame of the idle task. -/
theorem first_yield_overwrites_frame :
    ¬Throughout (step 0x200000) (fun m c => ∀ t, Starts 0x200000 t m c) start firstYield := by
  intro hall
  rcases hrun : exec (step 0x200000) start (firstYield.take 2) with _ | m
  · exact absurd hrun (by decide +kernel)
  have hfields : (exec (step 0x200000) start (firstYield.take 2)).map
      (fun m => (m.loaded, m.saved 0, (taskYield m.sched).bind Prod.snd)) =
        some ([], .built, some (0, 1)) := by
    decide +kernel
  rw [hrun, Option.map_some, Option.some.injEq, Prod.mk.injEq, Prod.mk.injEq] at hfields
  rcases hfields with ⟨hloaded, hsaved, hswitch⟩
  rcases Option.bind_eq_some_iff.mp hswitch with ⟨⟨s', sw⟩, hyield, rfl⟩
  have hsplit : firstYield = firstYield.take 2 ++ Call.taskYield 0x7FF00 :: [] := rfl
  rw [hsplit] at hall
  have hstarts := hall.at hrun
  apply (hstarts 0 0x7FF00 s' 0 1 rfl hyield).2 rfl _ hsaved
  rw [hloaded]
  exact List.not_mem_nil

end CosKernel.Scheduler.Entry
