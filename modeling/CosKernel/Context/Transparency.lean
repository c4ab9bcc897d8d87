import CosKernel.Context.Model

/-!
# Context switching is transparent

A suspended context, whether created or switched out, is represented by the same
seven words on its own stack (`Frame`), so `create_task` by hand and
`switch_task_context` by its pushes build what its pops take apart. The
invariant says that every suspended context has its frame, and that no step of
another context can reach it.
-/

namespace CosKernel.Context

open X86

/-! ## Frames -/

/-- The words of a frame, in the order in which the switch pops them. -/
def Snapshot.words (s : Snapshot) : List Word := [s.r15, s.r14, s.r13, s.r12, s.rbp, s.rbx, s.rip]

/-- The seven words below the stack pointer of a snapshot hold the rest of it. -/
def Frame (mem : Word → Word) (s : Snapshot) : Prop := readUp mem (s.rsp - 56) 7 = s.words

/-- A frame depends on its own seven words only. -/
theorem Frame.congr {mem mem' : Word → Word} {s : Snapshot} (h : Frame mem s)
    (hsame : ∀ a ∈ below s.rsp, mem' a = mem a) : Frame mem' s := by
  unfold Frame
  rw [readUp_congr hsame]
  exact h

/-- A store outside of the seven words leaves the frame alone. -/
theorem Frame.update {mem : Word → Word} {s : Snapshot} (h : Frame mem s) {cell : Word}
    (hcell : cell ∉ below s.rsp) (v : Word) : Frame (Function.update mem cell v) s := by
  refine h.congr ?_
  intro a ha
  refine Function.update_of_ne ?_ _ _
  rintro rfl
  exact hcell ha

/-- The words the current context pushes, its return address first. -/
def pushed (returnAddress : Word) (c : Cpu) : List Word :=
  [returnAddress, c.reg .rbx, c.reg .rbp, c.reg .r12, c.reg .r13, c.reg .r14, c.reg .r15]

/-- What `switch_task_context` does, as one step. -/
theorem callSwitch_spec (oldCell newSp returnAddress : Word) (c : Cpu) :
    (callSwitch oldCell newSp returnAddress c).mem =
      Function.update (pushAll c.mem (c.reg .rsp) (pushed returnAddress c)) oldCell (c.reg .rsp - 56) ∧
    (callSwitch oldCell newSp returnAddress c).reg .rsp = newSp + 56 ∧
    (Snapshot.ofCpu (callSwitch oldCell newSp returnAddress c)).words =
      readUp (callSwitch oldCell newSp returnAddress c).mem newSp 7 := by
  -- the code in its four parts
  have hcode : switchTaskContext = [Reg.rbx, .rbp, .r12, .r13, .r14, .r15].map Instr.push ++
      [.store .rdi .rsp, .mov .rsp .rsi] ++
      ([Reg.r15, .r14, .r13, .r12, .rbp, .rbx].map Instr.pop ++ [.ret]) := rfl
  have hsum : c.reg .rsp - 8 - BitVec.ofNat 64 (8 * 6) = c.reg .rsp - 56 := by bv_omega
  unfold callSwitch call
  rw [hcode, List.foldl_append, List.foldl_append, List.foldl_append, foldl_push _ (by decide)]
  -- the state between the pushes and the pops
  generalize hmid : List.foldl exec _ [Instr.store .rdi .rsp, .mov .rsp .rsi] = mid
  have hmem : mid.mem =
      Function.update (pushAll c.mem (c.reg .rsp) (pushed returnAddress c)) oldCell (c.reg .rsp - 56) := by
    rw [← hmid, ← hsum]
    rfl
  have hsp : mid.reg .rsp = newSp := by
    rw [← hmid]
    rfl
  rcases foldl_pop [Reg.r15, .r14, .r13, .r12, .rbp, .rbx] (by decide) (by decide) mid with
    ⟨hmem', hsp', hregs, -⟩
  generalize List.foldl exec mid _ = popped at hmem' hsp' hregs
  rw [hsp] at hsp' hregs
  have hsp'' : popped.reg .rsp = newSp + BitVec.ofNat 64 (8 * 6) := hsp'
  have hregs' : [Reg.r15, .r14, .r13, .r12, .rbp, .rbx].map popped.reg = readUp mid.mem newSp 6 := hregs
  have hret : newSp + BitVec.ofNat 64 (8 * 6) + 8 = newSp + 56 := by bv_omega
  refine ⟨hmem'.trans hmem, ?_, ?_⟩
  · show (popped.setReg .rsp (popped.reg .rsp + 8)).reg .rsp = _
    rw [setReg_reg_self, hsp'', hret]
  · -- the six registers popped, and the return address above them
    show [popped.reg .r15, popped.reg .r14, popped.reg .r13, popped.reg .r12, popped.reg .rbp,
      popped.reg .rbx] ++ [popped.mem (popped.reg .rsp)] = readUp popped.mem newSp 7
    rw [readUp_succ_last, hmem', ← hregs', hsp'']
    rfl

/-- A context whose frame is in place when the pops begin gets back what its snapshot says. -/
theorem callSwitch_restores {oldCell newSp returnAddress : Word} {c : Cpu} {s : Snapshot}
    (hsp : newSp = s.rsp - 56) (hframe : Frame (callSwitch oldCell newSp returnAddress c).mem s) :
    Snapshot.ofCpu (callSwitch oldCell newSp returnAddress c) = s := by
  rcases callSwitch_spec oldCell newSp returnAddress c with ⟨-, hrsp, hwords⟩
  unfold Frame at hframe
  rw [← hsp, ← hwords] at hframe
  have hback : newSp + 56 = s.rsp := by
    rw [hsp]
    bv_omega
  simp only [Snapshot.words, List.cons.injEq, and_true] at hframe
  rcases hframe with ⟨h₁₅, h₁₄, h₁₃, h₁₂, hbp, hbx, hip⟩
  have hrsp' : (Snapshot.ofCpu (callSwitch oldCell newSp returnAddress c)).rsp = s.rsp :=
    hrsp.trans hback
  cases s
  simp only [Snapshot.mk.injEq, Snapshot.ofCpu] at *
  exact ⟨hbx, hbp, h₁₂, h₁₃, h₁₄, h₁₅, hrsp', hip⟩

/-! ## The invariant -/

variable {Ctx : Type} {L : Layout Ctx}

/-- The snapshot a suspended context will be resumed with: that of its own call of the switch, or
that of a task that has not run. -/
def Status.snapshot (L : Layout Ctx) (t : Ctx) : Status → Option Snapshot
  | .unknown => none
  | .created => some ⟨0, 0, 0, 0, 0, 0, L.top t, L.taskEntryWrapper⟩
  | .switchedOut s => some s

/-- A context is suspended with this snapshot: its frame is in its own stack area, and its saved
stack pointer points to it. -/
structure Suspended (L : Layout Ctx) (mem : Word → Word) (t : Ctx) (s : Snapshot) : Prop where
  inside : below s.rsp ⊆ L.area t
  pointer : mem (L.cell t) = s.rsp - 56
  frame : Frame mem s

/-- Every context but the current one is suspended with its snapshot. -/
def Inv (L : Layout Ctx) (s : System Ctx) : Prop :=
  ∀ t, t ≠ s.current → ∀ snap, (s.status t).snapshot L t = some snap → Suspended L s.cpu.mem t snap

/-- Memory that changes neither in the area of a context nor in its saved pointer. -/
theorem Suspended.congr {mem mem' : Word → Word} {t : Ctx} {s : Snapshot} (h : Suspended L mem t s)
    (harea : ∀ a ∈ L.area t, mem' a = mem a) (hcell : mem' (L.cell t) = mem (L.cell t)) :
    Suspended L mem' t s :=
  ⟨h.inside, hcell.trans h.pointer, h.frame.congr fun a ha => harea a (h.inside ha)⟩

/-- An address of one stack area is in no other. -/
theorem Layout.notMem_area (L : Layout Ctx) {t u : Ctx} (hne : t ≠ u) {a : Word} (ha : a ∈ L.area t) :
    a ∉ L.area u := Set.disjoint_left.1 (L.disjoint hne) ha

/-- `create_task` leaves the frame of the new task. -/
theorem createStack_suspended (L : Layout Ctx) (t : Ctx) (mem : Word → Word) :
    Suspended L (createStack L.taskEntryWrapper (L.top t) (L.cell t) mem) t
      ⟨0, 0, 0, 0, 0, 0, L.top t, L.taskEntryWrapper⟩ := by
  refine ⟨L.below_top t, Function.update_self _ _ _, ?_⟩
  have hwritten : Frame (writeUp mem (L.top t - 56) (initialFrame L.taskEntryWrapper))
      ⟨0, 0, 0, 0, 0, 0, L.top t, L.taskEntryWrapper⟩ :=
    readUp_writeUp mem (L.top t - 56) (initialFrame L.taskEntryWrapper)
      (by simp only [initialFrame, List.length_cons, List.length_nil]; norm_num)
  exact hwritten.update (fun hcell => L.cell_outside t t (L.below_top t hcell)) _

/-- `create_task` writes nothing but the new frame and pointer. -/
theorem createStack_of_notMem (L : Layout Ctx) (t : Ctx) (mem : Word → Word) {a : Word}
    (harea : a ∉ L.area t) (hcell : a ≠ L.cell t) :
    createStack L.taskEntryWrapper (L.top t) (L.cell t) mem a = mem a := by
  unfold createStack
  rw [Function.update_of_ne hcell, writeUp_of_notMem]
  intro hmem
  exact harea (L.below_top t hmem)

/-- The switch writes nothing but the frame and the pointer of the old context. -/
theorem callSwitch_of_notMem {s : System Ctx} (hroom : below (s.cpu.reg .rsp) ⊆ L.area s.current)
    (newSp returnAddress : Word) {a : Word} (harea : a ∉ L.area s.current)
    (hcell : a ≠ L.cell s.current) :
    (callSwitch (L.cell s.current) newSp returnAddress s.cpu).mem a = s.cpu.mem a := by
  rw [(callSwitch_spec _ _ _ _).1, Function.update_of_ne hcell, pushAll_of_notMem]
  intro hmem
  exact harea (hroom hmem)

/-- The switch leaves the frame of the old context. -/
theorem callSwitch_suspended {s : System Ctx} (hroom : below (s.cpu.reg .rsp) ⊆ L.area s.current)
    (newSp returnAddress : Word) :
    Suspended L (callSwitch (L.cell s.current) newSp returnAddress s.cpu).mem s.current
      { Snapshot.ofCpu s.cpu with rip := returnAddress } := by
  rw [(callSwitch_spec _ _ _ _).1]
  refine ⟨hroom, Function.update_self _ _ _, ?_⟩
  have hpushed : Frame (pushAll s.cpu.mem (s.cpu.reg .rsp) (pushed returnAddress s.cpu))
      { Snapshot.ofCpu s.cpu with rip := returnAddress } :=
    readUp_pushAll s.cpu.mem (s.cpu.reg .rsp) (pushed returnAddress s.cpu)
      (by simp only [pushed, List.length_cons, List.length_nil]; norm_num)
  exact hpushed.update (fun hcell => L.cell_outside s.current s.current (hroom hcell)) _

variable [DecidableEq Ctx]

/-- One step keeps every suspended context's frame. -/
theorem step_inv {s s' : System Ctx} {ev : Event Ctx} (h : Inv L s) (hstep : Step L s ev s') :
    Inv L s' := by
  cases hstep with
  | run cpu hmem =>
    intro t ht snap hsnap
    -- the running context writes its own area only
    refine (h t ht snap hsnap).congr ?_ (hmem _ (L.cell_outside t s.current))
    intro a ha
    exact hmem a (L.notMem_area ht ha)
  | create u hne hnew =>
    intro t ht snap hsnap
    by_cases htu : t = u
    · subst htu
      -- the new task gets the frame built by hand
      simp only [Function.update_self, Status.snapshot, Option.some.injEq] at hsnap
      rw [← hsnap]
      exact createStack_suspended L t s.cpu.mem
    · simp only [Function.update_of_ne htu] at hsnap
      refine (h t ht snap hsnap).congr ?_ ?_
      · intro a ha
        refine createStack_of_notMem L u s.cpu.mem (L.notMem_area htu ha) ?_
        rintro rfl
        exact L.cell_outside u t ha
      · refine createStack_of_notMem L u s.cpu.mem (L.cell_outside t u) ?_
        exact fun heq => htu (L.cell_injective heq)
  | switch next returnAddress hne hroom hnext =>
    intro t ht snap hsnap
    by_cases htc : t = s.current
    · -- the context that switched out now has its frame
      rw [htc] at hsnap ⊢
      simp only [System.switch, Function.update_self, Status.snapshot, Option.some.injEq] at hsnap
      rw [← hsnap]
      exact callSwitch_suspended hroom _ returnAddress
    · simp only [System.switch, Function.update_of_ne htc] at hsnap
      refine (h t htc snap hsnap).congr ?_ ?_
      · intro a ha
        refine callSwitch_of_notMem hroom _ _ (L.notMem_area htc ha) ?_
        rintro rfl
        exact L.cell_outside s.current t ha
      · refine callSwitch_of_notMem hroom _ _ (L.cell_outside t s.current) ?_
        exact fun heq => htc (L.cell_injective heq)

/-- The invariant holds in every history. -/
theorem Reachable.inv {s : System Ctx} (h : Reachable L s) : Inv L s := by
  induction h with
  | start cpu t =>
    intro u _ snap hsnap
    cases hsnap
  | step _ hstep ih => exact step_inv ih hstep

/-! ## Switching in -/

/-- A switch resumes the context with its snapshot. -/
theorem switch_snapshot {s : System Ctx} (h : Inv L s) {next : Ctx} (hne : next ≠ s.current)
    (hroom : below (s.cpu.reg .rsp) ⊆ L.area s.current) (returnAddress : Word) {snap : Snapshot}
    (hsnap : (s.status next).snapshot L next = some snap) :
    Snapshot.ofCpu (s.switch L next returnAddress).cpu = snap := by
  have hsus := h next hne snap hsnap
  refine callSwitch_restores hsus.pointer (hsus.frame.congr ?_)
  intro a ha
  refine callSwitch_of_notMem hroom _ _ (L.notMem_area hne (hsus.inside ha)) ?_
  rintro rfl
  exact L.cell_outside s.current next (hsus.inside ha)

/-- In every history, a context that is switched in finds its registers, its stack pointer and its
return address as they were at its own call of the switch, and a task that has not run yet starts in
`task_entry_wrapper` at the top of its stack with these registers zero. -/
theorem switch_transparent {s s' : System Ctx} (h : Reachable L s) {next : Ctx} {returnAddress : Word}
    (hstep : Step L s (.switch next returnAddress) s') :
    s'.current = next ∧
    (∀ snap, s.status next = .switchedOut snap → Snapshot.ofCpu s'.cpu = snap) ∧
    (s.status next = .created →
      Snapshot.ofCpu s'.cpu = ⟨0, 0, 0, 0, 0, 0, L.top next, L.taskEntryWrapper⟩) ∧
    s'.status s.current = .switchedOut { Snapshot.ofCpu s.cpu with rip := returnAddress } := by
  cases hstep with
  | switch _ _ hne hroom hnext =>
    refine ⟨rfl, ?_, ?_, Function.update_self _ _ _⟩
    · intro snap hout
      exact switch_snapshot h.inv hne hroom returnAddress (by rw [hout]; rfl)
    · intro hcreated
      exact switch_snapshot h.inv hne hroom returnAddress (by rw [hcreated]; rfl)

/-- Two contexts, each with a stack of one page. -/
def twoStacks : Layout Bool where
  area t := if t then {a | 0x1000 ≤ a.toNat ∧ a.toNat < 0x2000} else {a | a.toNat < 0x1000}
  cell t := if t then 0x3008 else 0x3000
  top t := if t then 0x2000 else 0x1000
  taskEntryWrapper := 0x400000
  disjoint := by
    intro t u hne
    rw [Set.disjoint_left]
    intro a
    cases t <;> cases u <;> simp at hne ⊢
    all_goals omega
  cell_injective := by
    intro t u
    cases t <;> cases u <;> decide
  cell_outside := by
    intro t u
    cases t <;> cases u <;> simp
  below_top := by
    rintro t a ⟨k, hk, rfl⟩
    cases t <;> interval_cases k <;> simp

/-- The first context, with its stack pointer in the middle of its stack. -/
def bootCpu : Cpu := ⟨fun r => if r = .rsp then 0x800 else 7, 0, fun _ => 0⟩

/-- The state after it created the other task. -/
def afterCreate : System Bool where
  cpu := { bootCpu with mem := createStack 0x400000 0x2000 0x3008 bootCpu.mem }
  current := false
  status := Function.update (fun _ => .unknown) true .created

/-- The other task is created, switched to for the first time, and switches back. -/
theorem switch_transparent_two_stacks : ∃ s : System Bool, Reachable twoStacks s ∧ s.current = false ∧
    Snapshot.ofCpu s.cpu = ⟨7, 7, 7, 7, 7, 7, 0x800, 0x111⟩ := by
  have hreach : Reachable twoStacks afterCreate :=
    (Reachable.start bootCpu false).step (Step.create true (by decide) rfl)
  have hroom : below (bootCpu.reg .rsp) ⊆ twoStacks.area false := by
    rintro a ⟨k, hk, rfl⟩
    interval_cases k <;> simp [bootCpu, twoStacks]
  have hnew : afterCreate.status true = .created := rfl
  have hfirst : Step twoStacks afterCreate (.switch true 0x111) (afterCreate.switch twoStacks true 0x111) :=
    Step.switch true 0x111 (by decide) hroom (by rw [hnew]; exact Status.noConfusion)
  have hreach' := hreach.step hfirst
  obtain ⟨hcurrent, -, hstart, hout⟩ := switch_transparent hreach hfirst
  have hrsp := congrArg Snapshot.rsp (hstart hnew)
  generalize afterCreate.switch twoStacks true 0x111 = s at hcurrent hout hrsp hreach'
  have hsecond : Step twoStacks s (.switch false 0x222) (s.switch twoStacks false 0x222) := by
    refine Step.switch false 0x222 ?_ ?_ ?_
    · rw [hcurrent]
      decide
    · show below (Snapshot.ofCpu s.cpu).rsp ⊆ _
      rw [hrsp, hcurrent]
      exact twoStacks.below_top true
    · show s.status afterCreate.current ≠ _
      rw [hout]
      exact Status.noConfusion
  obtain ⟨hback, hsnap, -⟩ := switch_transparent hreach' hsecond
  exact ⟨_, hreach'.step hsecond, hback, hsnap _ hout⟩

end CosKernel.Context
