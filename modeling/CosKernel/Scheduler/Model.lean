import CosKernel.Lib.Linked

/-!
# The process scheduler (`scheduler.c`)

The task table is a function from slots to task control blocks; a `tcb_t*` is
the slot it points to. The ready queue is the intrusive list the source keeps:
`readyQueueHead` and the `next` field of the blocks. A killed block is unlinked
but keeps its `next`, and its slot is never used again.

The three queue loops are written with the fuel `maxTasks`. A walk over a list
that ends visits every block at most once, so running out of fuel means that
the loop of the source never ends: such a call returns `none` here.

`KLOG` and `KERROR` have no effect on the scheduler and are left out. The
context switch at the end of `task_yield` is returned as the pair of tasks it
is called for; what the assembly does is in `CosKernel.Context`.
-/

namespace CosKernel.Scheduler

/-- `MAX_TASKS` -/
def maxTasks : Nat := 256

/-- `TASK_STACK_SIZE` -/
def taskStackSize : Nat := 0x4000

/-- A `tcb_t*`: the index of a block of `task_table`. -/
abbrev Slot := Fin maxTasks

instance : NeZero maxTasks := ⟨by decide⟩

/-- `task_state_t` -/
inductive TaskState where
  | running
  | ready
  | sleeping
  | zombie
deriving DecidableEq, Repr

/-- `tcb_t`. `entry` is a code address, `stackPointer` a data address. -/
structure Tcb where
  pid : UInt32
  name : Option String
  state : TaskState
  priority : UInt32
  timeslice : UInt32
  stackPointer : UInt64
  entry : UInt64
  memoryKb : UInt32
  next : Option Slot
deriving DecidableEq, Repr

/-- The static variables of `scheduler.c`. -/
structure Sched where
  taskTable : Slot → Tcb
  taskCount : Nat
  nextPid : UInt32
  currentTask : Option Slot
  readyQueueHead : Option Slot
  scheduleRequested : Bool

/-- Assign to fields of the block `t` points to. -/
def Sched.modify (s : Sched) (t : Slot) (f : Tcb → Tcb) : Sched :=
  { s with taskTable := Function.update s.taskTable t (f (s.taskTable t)) }

/-- `t->state = st` -/
def Sched.setState (s : Sched) (t : Slot) (st : TaskState) : Sched :=
  s.modify t fun b => { b with state := st }

/-- `t->next = q` -/
def Sched.setNext (s : Sched) (t : Slot) (q : Option Slot) : Sched :=
  s.modify t fun b => { b with next := q }

/-! ## Boot -/

/-- The variables as the loader leaves them: `.bss` zeroed (`TASK_RUNNING` is 0),
`next_pid = 1`. -/
def bss : Sched where
  taskTable := fun _ =>
    { pid := 0, name := none, state := .running, priority := 0, timeslice := 0,
      stackPointer := 0, entry := 0, memoryKb := 0, next := none }
  taskCount := 0
  nextPid := 1
  currentTask := none
  readyQueueHead := none
  scheduleRequested := false

/-- `scheduler_initialize`. Queue head, current task and pid counter are not touched. -/
def schedulerInitialize (s : Sched) : Sched :=
  { s with
    taskTable := fun t =>
      { s.taskTable t with pid := 0, name := none, state := .zombie, next := none }
    taskCount := 0 }

/-! ## `create_task` -/

/-- `(uintptr_t)&task_stacks[t][TASK_STACK_SIZE]`, with `task_stacks` at the address given. -/
def stackTop (taskStacks : UInt64) (t : Slot) : UInt64 :=
  taskStacks + UInt64.ofNat ((t.val + 1) * taskStackSize)

/-- `while (iter->next != NULL) iter = iter->next;` -/
def lastTask (table : Slot → Tcb) : Nat → Slot → Option Slot
  | 0, _ => none
  | fuel + 1, iter =>
    match (table iter).next with
    | none => some iter
    | some n => lastTask table fuel n

/-- The block as `create_task` fills it in. The stack pointer is seven words below the
stack's top: the frame for `switch_task_context` built there. -/
def newTcb (taskStacks : UInt64) (name : Option String) (entry : UInt64) (priority : UInt32)
    (pid : UInt32) (t : Slot) : Tcb where
  pid := pid
  name := name
  state := .ready
  priority := priority
  timeslice := 20
  stackPointer := stackTop taskStacks t - 7 * 8
  entry := entry
  memoryKb := 0
  next := none

/-- The first part of `create_task`: fill in the block at `t` and take the next pid. -/
def initTask (taskStacks : UInt64) (name : Option String) (entry : UInt64) (priority : UInt32)
    (t : Slot) (s : Sched) : Sched :=
  { s.modify t (fun _ => newTcb taskStacks name entry priority s.nextPid t) with
    nextPid := s.nextPid + 1 }

/-- The end of `create_task`: the new block becomes head and current task of an empty queue,
or is hung on the last block. -/
def enqueue (t : Slot) (s : Sched) : Option Sched :=
  match s.readyQueueHead with
  | none => some { s.setState t .running with readyQueueHead := some t, currentTask := some t }
  | some head => (lastTask s.taskTable maxTasks head).map fun iter => s.setNext iter (some t)

/-- `create_task`: the block returned (`none` for `NULL`) and the new state. -/
def createTask (taskStacks : UInt64) (name : Option String) (entry : UInt64)
    (priority : UInt32) (s : Sched) : Option (Option Slot × Sched) :=
  if h : s.taskCount < maxTasks then
    (enqueue ⟨s.taskCount, h⟩ (initTask taskStacks name entry priority ⟨s.taskCount, h⟩ s)).map
      fun s' => (some ⟨s.taskCount, h⟩, { s' with taskCount := s.taskCount + 1 })
  else
    some (none, s)

/-! ## `kill_task` -/

/-- The search loop of `kill_task`, from `prev` and `tcb`: the pair at which the
pid was found, or `none` inside when the queue ended first. -/
def findPid (table : Slot → Tcb) (pid : UInt32) :
    Nat → Option Slot → Option Slot → Option (Option (Option Slot × Slot))
  | _, _, none => some none
  | 0, _, some _ => none
  | fuel + 1, prev, some tcb =>
    if (table tcb).pid = pid then some (some (prev, tcb))
    else findPid table pid fuel (some tcb) (table tcb).next

/-- `Unlink from queue` of `kill_task`. -/
def relink (prev : Option Slot) (tcb : Slot) (s : Sched) : Sched :=
  match prev with
  | none => { s with readyQueueHead := (s.taskTable tcb).next }
  | some p => s.setNext p (s.taskTable tcb).next

/-- The branch of `kill_task` taken when the block was found. -/
def unlinkTask (prev : Option Slot) (tcb : Slot) (s : Sched) : Sched :=
  let s₁ := relink prev tcb (s.setState tcb .zombie)
  if s₁.currentTask = some tcb then { s₁ with currentTask := none } else s₁

/-- `kill_task` -/
def killTask (pid : UInt32) (s : Sched) : Option Sched :=
  (findPid s.taskTable pid maxTasks none s.readyQueueHead).map fun
    | none => s
    | some (prev, tcb) => unlinkTask prev tcb s

/-- How `task_entry_wrapper` ends a task, up to the final `task_yield`:
`current_task->state = TASK_ZOMBIE; kill_task(current_task->pid);`. -/
def taskExit (s : Sched) : Option Sched :=
  match s.currentTask with
  | none => some s
  | some c => killTask (s.taskTable c).pid (s.setState c .zombie)

/-! ## `request_schedule` and `task_yield` -/

/-- `request_schedule` -/
def requestSchedule (s : Sched) : Sched := { s with scheduleRequested := true }

/-- `while (next_task != NULL && next_task->state != TASK_READY) next_task = next_task->next;` -/
def skipToReady (table : Slot → Tcb) : Nat → Option Slot → Option (Option Slot)
  | _, none => some none
  | 0, some _ => none
  | fuel + 1, some t =>
    if (table t).state ≠ .ready then skipToReady table fuel (table t).next
    else some (some t)

/-- The first half of `task_yield`: the request is consumed and a RUNNING task set back. -/
def preempt (old : Slot) (s : Sched) : Sched :=
  if (s.taskTable old).state = .running then
    { s with scheduleRequested := false }.setState old .ready
  else
    { s with scheduleRequested := false }

/-- The two searches of `task_yield`: behind `old_task`, then from the head of the queue. -/
def pickNext (old head : Slot) (s : Sched) : Option (Option Slot) :=
  (skipToReady s.taskTable maxTasks (s.taskTable old).next).bind fun
    | some t => some (some t)
    | none => skipToReady s.taskTable maxTasks (some head)

/-- The end of `task_yield`: stay with `old_task` or hand over to `next_task`. -/
def handOver (old : Slot) (next : Option Slot) (s : Sched) : Sched × Option (Slot × Slot) :=
  match next with
  | none => (s.setState old .running, none)
  | some t =>
    if t = old then (s.setState old .running, none)
    else
      ({ s.modify t (fun b => { b with state := .running, timeslice := 20 }) with
          currentTask := some t }, some (old, t))

/-- `task_yield`: the new state and, when a switch is made, the tasks `old` and `new` of
`switch_task_context(&old->stack_pointer, new->stack_pointer)`. -/
def taskYield (s : Sched) : Option (Sched × Option (Slot × Slot)) :=
  match s.currentTask, s.readyQueueHead with
  | some old, some head =>
    (pickNext old head (preempt old s)).map fun next => handOver old next (preempt old s)
  | _, _ => some (s, none)

/-- `mov [rdi], rsp` of the switch: the stack pointer saved for the task switched out. -/
def saveStackPointer (rsp : UInt64) (sw : Option (Slot × Slot)) (s : Sched) : Sched :=
  match sw with
  | none => s
  | some (old, _) => s.modify old fun b => { b with stackPointer := rsp }

/-! ## Histories -/

/-- The calls made on the scheduler. `taskYield rsp` is a `task_yield` whose switch,
if there is one, saves `rsp`. -/
inductive Call where
  | createTask (name : Option String) (entry : UInt64) (priority : UInt32)
  | killTask (pid : UInt32)
  | taskExit
  | requestSchedule
  | taskYield (rsp : UInt64)
deriving DecidableEq, Repr

/-- The scheduler together with a record of the tasks created and not killed since, with
their pids, in the order of their creation. The record is kept from the calls and their
results only. -/
structure History where
  sched : Sched
  live : List (Slot × UInt32)

/-- The task `create_task` returned is live from now on. -/
def recordCreated (s : Sched) (live : List (Slot × UInt32)) : Option Slot → List (Slot × UInt32)
  | none => live
  | some t => live ++ [(t, (s.taskTable t).pid)]

/-- The task with this pid is live no more. -/
def recordKilled (pid : UInt32) (live : List (Slot × UInt32)) : List (Slot × UInt32) :=
  live.filter fun e => e.2 ≠ pid

/-- One call. -/
def step (taskStacks : UInt64) (h : History) : Call → Option History
  | .createTask name entry priority =>
    (createTask taskStacks name entry priority h.sched).map fun r =>
      ⟨r.2, recordCreated r.2 h.live r.1⟩
  | .killTask pid => (killTask pid h.sched).map fun s => ⟨s, recordKilled pid h.live⟩
  | .taskExit =>
    (taskExit h.sched).map fun s =>
      ⟨s, match h.sched.currentTask with
        | none => h.live
        | some c => recordKilled (h.sched.taskTable c).pid h.live⟩
  | .requestSchedule => some ⟨requestSchedule h.sched, h.live⟩
  | .taskYield rsp =>
    (taskYield h.sched).map fun r => ⟨saveStackPointer rsp r.2 r.1, h.live⟩

/-- The history right after `scheduler_initialize`. -/
def boot : History := ⟨schedulerInitialize bss, []⟩

/-- The run of a list of calls after boot; `none` when one of them hangs. -/
def run (taskStacks : UInt64) (calls : List Call) : Option History :=
  Run.exec (step taskStacks) boot calls

end CosKernel.Scheduler
