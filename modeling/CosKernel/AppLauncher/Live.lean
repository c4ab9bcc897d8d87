import CosKernel.AppLauncher.Model

/-!
# Live applications

At most one task is ever created for an application, since nothing clears its
flag `running`: two live tasks never run the same one. For the same reason
`app_launch` goes on to return the pid of a task that has ended. It names a live
task exactly when the application is launched for the first time or its task is
still there.
-/

namespace CosKernel.AppLauncher

open Run
open Scheduler (Slot Sched History createTask recordCreated recordKilled slots startOf)

/-! ## Calls of the scheduler -/

/-- The end of a task changes no entry. -/
theorem taskExit_quiet {s s' : Scheduler.Sched} (hexit : Scheduler.taskExit s = some s') :
    (∀ u, (s'.taskTable u).entry = (s.taskTable u).entry) ∧ s'.taskCount = s.taskCount := by
  unfold Scheduler.taskExit at hexit
  cases hcur : s.currentTask with
  | none =>
    rw [hcur] at hexit
    rw [← Option.some.inj hexit]
    exact ⟨fun _ => rfl, rfl⟩
  | some c =>
    rw [hcur] at hexit
    have hkill : Scheduler.killTask (s.taskTable c).pid (s.setState c .zombie) = some s' := hexit
    refine ⟨?_, (Scheduler.killTask_taskCount hkill).trans rfl⟩
    intro u
    have hstart := Scheduler.killTask_startOf hkill u
    rw [Scheduler.setState_startOf] at hstart
    exact congrArg Prod.snd hstart

theorem saveStackPointer_entry (rsp : UInt64) (switch : Option (Slot × Slot)) (s : Scheduler.Sched)
    (u : Slot) :
    ((Scheduler.saveStackPointer rsp switch s).taskTable u).entry = (s.taskTable u).entry := by
  rcases switch with _ | ⟨old, new⟩
  · rfl
  · by_cases huo : u = old
    · subst huo
      simp [Scheduler.saveStackPointer]
    · simp [Scheduler.saveStackPointer, huo]

theorem saveStackPointer_taskCount (rsp : UInt64) (switch : Option (Slot × Slot)) (s : Scheduler.Sched) :
    (Scheduler.saveStackPointer rsp switch s).taskCount = s.taskCount := by
  rcases switch with _ | ⟨old, new⟩
  · rfl
  · rfl

/-- A call that creates no task changes no entry, and no task becomes live by it. -/
theorem schedule_quiet {taskStacks : UInt64} {h h' : History} {c : Scheduler.Call}
    (hc : ∀ name entry priority, c ≠ .createTask name entry priority)
    (hstep : Scheduler.step taskStacks h c = some h') :
    (∀ u, (h'.sched.taskTable u).entry = (h.sched.taskTable u).entry) ∧
      (∀ e ∈ h'.live, e ∈ h.live) ∧ h'.sched.taskCount = h.sched.taskCount := by
  cases c with
  | createTask name entry priority => exact absurd rfl (hc name entry priority)
  | killTask pid =>
    rw [Scheduler.step] at hstep
    rcases Option.map_eq_some_iff.mp hstep with ⟨s', hkill, rfl⟩
    refine ⟨?_, ?_, Scheduler.killTask_taskCount hkill⟩
    · intro u
      exact congrArg Prod.snd (Scheduler.killTask_startOf hkill u)
    · intro e he
      exact (List.mem_filter.mp he).1
  | taskExit =>
    rw [Scheduler.step] at hstep
    rcases Option.map_eq_some_iff.mp hstep with ⟨s', hexit, rfl⟩
    rcases taskExit_quiet hexit with ⟨hentry, hcount⟩
    refine ⟨hentry, ?_, hcount⟩
    intro e he
    cases hcur : h.sched.currentTask with
    | none =>
      rw [hcur] at he
      exact he
    | some c =>
      rw [hcur] at he
      exact (List.mem_filter.mp he).1
  | requestSchedule =>
    rw [Scheduler.step, Option.some.injEq] at hstep
    rw [← hstep]
    exact ⟨fun _ => rfl, fun _ he => he, rfl⟩
  | taskYield rsp =>
    rw [Scheduler.step] at hstep
    rcases Option.map_eq_some_iff.mp hstep with ⟨r, hyield, rfl⟩
    have hr : (∀ u, (r.1.taskTable u).entry = (h.sched.taskTable u).entry) ∧
        r.1.taskCount = h.sched.taskCount := Scheduler.taskYield_fields hyield
    refine ⟨?_, fun _ he => he, ?_⟩
    · intro u
      rw [← hr.1 u]
      exact saveStackPointer_entry rsp r.2 r.1 u
    · rw [← hr.2]
      exact saveStackPointer_taskCount rsp r.2 r.1

/-- A creation fails and changes nothing, or puts a task with a new pid behind the
others. -/
theorem createRecorded_cases {h : History} (hinv : Scheduler.Inv h.sched h.live)
    (taskStacks : UInt64) (name : Option String) (entry : UInt64) (priority : UInt32) :
    createRecorded taskStacks name entry priority h = some (none, h) ∨
    ∃ t h', createRecorded taskStacks name entry priority h = some (some t, h') ∧
      Scheduler.Inv h'.sched h'.live ∧
      h'.live = h.live ++ [(t, (h'.sched.taskTable t).pid)] ∧
      (h'.sched.taskTable t).pid.toNat = h.sched.taskCount + 1 ∧
      h'.sched.taskCount = h.sched.taskCount + 1 ∧
      (h'.sched.taskTable t).entry = entry ∧
      ∀ e ∈ h.live, (h'.sched.taskTable e.1).entry = (h.sched.taskTable e.1).entry := by
  unfold createRecorded
  by_cases hroom : h.sched.taskCount < Scheduler.maxTasks
  swap
  · left
    rw [Scheduler.createTask_full hroom]
    rfl
  · right
    rcases Scheduler.createTask_room hinv hroom taskStacks name entry priority with
      ⟨s', hr, hcount, hstart, hother, _⟩
    rcases Scheduler.createTask_inv hinv taskStacks name entry priority with ⟨r, hr', hinv'⟩
    rw [hr, Option.some.injEq] at hr'
    subst hr'
    have hpid := hinv'.slotOf
      (⟨h.sched.taskCount, hroom⟩, (s'.taskTable ⟨h.sched.taskCount, hroom⟩).pid)
      (List.mem_append_right _ List.mem_cons_self)
    refine ⟨⟨h.sched.taskCount, hroom⟩, ⟨s', h.live ++ [_]⟩, by rw [hr]; rfl, hinv', rfl, hpid,
      hcount, congrArg Prod.snd hstart, ?_⟩
    intro e he
    apply congrArg Prod.snd (hother e.1 _)
    intro heq
    exact hinv.fresh hroom (heq ▸ List.mem_map_of_mem he)

/-! ## The registry -/

section Registry

variable (entries : Entries) (l : Launcher)

/-- The three names. -/
def registeredName : Fin 3 → List UInt8 :=
  ["Files".toUTF8.data.toList, "Terminal".toUTF8.data.toList, "Settings".toUTF8.data.toList].get

/-- The registry as `app_launcher_initialize` leaves it. -/
theorem appRegistry_initial :
    (appLauncherInitialize entries l).appRegistry 0 =
        ⟨some "Files".toUTF8.data.toList, entries.fileManagerApp, false, 0⟩ ∧
      (appLauncherInitialize entries l).appRegistry 1 =
        ⟨some "Terminal".toUTF8.data.toList, entries.terminalApp, false, 0⟩ ∧
      (appLauncherInitialize entries l).appRegistry 2 =
        ⟨some "Settings".toUTF8.data.toList, entries.settingsApp, false, 0⟩ := by
  refine ⟨?_, ?_, ?_⟩
  · simp [appLauncherInitialize, Launcher.register]
  · simp [appLauncherInitialize, Launcher.register]
  · simp [appLauncherInitialize, Launcher.register]

theorem running_initial {i : Nat} (hi : i < 3) :
    ((appLauncherInitialize entries l).appRegistry i).running = false := by
  rcases appRegistry_initial entries l with ⟨h0, h1, h2⟩
  interval_cases i
  · rw [h0]
  · rw [h1]
  · rw [h2]

/-- Every application has an entry of its own. -/
theorem entry_injective {i j : Nat} (hi : i < 3) (hj : j < 3)
    (h : ((appLauncherInitialize entries l).appRegistry i).entry =
      ((appLauncherInitialize entries l).appRegistry j).entry) : i = j := by
  have hdistinct := entries.distinct
  simp only [List.nodup_cons, List.mem_cons, List.not_mem_nil, or_false, not_or] at hdistinct
  rcases appRegistry_initial entries l with ⟨h0, h1, h2⟩
  interval_cases i <;> interval_cases j <;> simp_all

theorem isApp_entry {i : Nat} (hi : i < 3) :
    entries.IsApp ((appLauncherInitialize entries l).appRegistry i).entry := by
  rcases appRegistry_initial entries l with ⟨h0, h1, h2⟩
  unfold Entries.IsApp
  interval_cases i
  · simp [h0]
  · simp [h1]
  · simp [h2]

/-- No two applications have the same name. -/
theorem name_injective {i j : Nat} (hi : i < 3) (hj : j < 3) {appName : List UInt8}
    (hmatchi : stringsEqual ((appLauncherInitialize entries l).appRegistry i).name
      (some appName) = true)
    (hmatchj : stringsEqual ((appLauncherInitialize entries l).appRegistry j).name
      (some appName) = true) : i = j := by
  have hdistinct : ∀ i j, CString.content (registeredName i) = CString.content (registeredName j) →
      i = j := by
    decide +kernel
  have hname : ∀ i (hi : i < 3), ((appLauncherInitialize entries l).appRegistry i).name =
      some (registeredName ⟨i, hi⟩) := by
    rcases appRegistry_initial entries l with ⟨h0, h1, h2⟩
    intro i hi
    interval_cases i
    · rw [h0]
      rfl
    · rw [h1]
      rfl
    · rw [h2]
      rfl
  unfold stringsEqual at hmatchi hmatchj
  rw [hname i hi, CString.equal_some] at hmatchi
  rw [hname j hj, CString.equal_some] at hmatchj
  exact congrArg Fin.val (hdistinct ⟨i, hi⟩ ⟨j, hj⟩ (hmatchi.trans hmatchj.symm))

end Registry

/-! ## The invariant -/

/-- The registry lists the applications of boot; a live task that runs one of them
is the one the registry remembers, and the other way round. -/
structure Inv (entries : Entries) (l : Launcher) (m : System) : Prop where
  sched : Scheduler.Inv m.history.sched m.history.live
  count : m.launcher.appCount = 3
  fixed : ∀ i, (m.launcher.appRegistry i).name =
      ((appLauncherInitialize entries l).appRegistry i).name ∧
    (m.launcher.appRegistry i).entry = ((appLauncherInitialize entries l).appRegistry i).entry
  apps : ∀ e ∈ m.history.live, ∀ i < 3,
    (m.history.sched.taskTable e.1).entry = (m.launcher.appRegistry i).entry →
      (m.launcher.appRegistry i).running = true ∧ (m.launcher.appRegistry i).pid = e.2
  old : ∀ i < 3, (m.launcher.appRegistry i).running = true →
    (m.launcher.appRegistry i).pid.toNat ≤ m.history.sched.taskCount
  launched : ∀ i < 3, (m.launcher.appRegistry i).running = true → ∀ e ∈ m.history.live,
    e.2 = (m.launcher.appRegistry i).pid →
      (m.history.sched.taskTable e.1).entry = (m.launcher.appRegistry i).entry

variable {entries : Entries} {l : Launcher} {m : System}

theorem inv_start (entries : Entries) (l : Launcher) : Inv entries l (start entries l) := by
  have hrunning : ∀ i < 3, ((start entries l).launcher.appRegistry i).running ≠ true := by
    intro i hi
    show ((appLauncherInitialize entries l).appRegistry i).running ≠ true
    rw [running_initial entries l hi]
    exact Bool.false_ne_true
  constructor
  · exact Scheduler.boot_inv
  · rfl
  · intro i
    exact ⟨rfl, rfl⟩
  · intro e he
    cases he
  · intro i hi h
    exact absurd h (hrunning i hi)
  · intro i hi h
    exact absurd h (hrunning i hi)

/-- Two live tasks with the entry of one application are the same. -/
theorem Inv.unique (h : Inv entries l m) {i : Nat} (hi : i < 3) {e e' : Slot × UInt32}
    (he : e ∈ m.history.live) (he' : e' ∈ m.history.live)
    (hentry : (m.history.sched.taskTable e.1).entry = (m.launcher.appRegistry i).entry)
    (hentry' : (m.history.sched.taskTable e'.1).entry = (m.launcher.appRegistry i).entry) :
    e = e' := by
  have hpid : e.2 = e'.2 := (h.apps e he i hi hentry).2.symm.trans (h.apps e' he' i hi hentry').2
  have hslot := h.sched.slotOf e he
  have hslot' := h.sched.slotOf e' he'
  rw [hpid] at hslot
  exact Prod.ext (Fin.ext (by omega)) hpid

/-- A call that creates no task. -/
theorem Inv.quiet (h : Inv entries l m) {taskStacks : UInt64} {c : Scheduler.Call}
    (hc : ∀ name entry priority, c ≠ .createTask name entry priority) :
    ∃ m', m.schedule taskStacks c = some m' ∧ Inv entries l m' := by
  rcases Scheduler.step_inv taskStacks m.history c h.sched with ⟨h', hstep, hinv⟩
  rcases schedule_quiet hc hstep with ⟨hentry, hlive, hcount⟩
  refine ⟨{ m with history := h' }, by rw [System.schedule, hstep]; rfl, ?_⟩
  constructor
  · exact hinv
  · exact h.count
  · exact h.fixed
  · intro e he i hi hsame
    rw [hentry] at hsame
    exact h.apps e (hlive e he) i hi hsame
  · intro i hi hrunning
    show _ ≤ h'.sched.taskCount
    rw [hcount]
    exact h.old i hi hrunning
  · intro i hi hrunning e he hpid
    show (h'.sched.taskTable e.1).entry = _
    rw [hentry]
    exact h.launched i hi hrunning e (hlive e he) hpid

/-- A pid the registry remembers is not that of a task created later. -/
theorem Inv.pid_ne (h : Inv entries l m) {i : Nat} (hi : i < 3)
    (hrunning : (m.launcher.appRegistry i).running = true) {pid : UInt32}
    (hpid : pid.toNat = m.history.sched.taskCount + 1) : pid ≠ (m.launcher.appRegistry i).pid := by
  intro heq
  have hold := h.old i hi hrunning
  rw [← heq] at hold
  omega

/-- Another task is created. -/
theorem Inv.create (h : Inv entries l m) {taskStacks : UInt64} (name : Option String)
    (entry : {entry : UInt64 // ¬entries.IsApp entry}) (priority : UInt32) :
    ∃ m', m.schedule taskStacks (.createTask name entry priority) = some m' ∧
      Inv entries l m' := by
  have hschedule : m.schedule taskStacks (.createTask name entry priority) =
      (createRecorded taskStacks name entry priority m.history).map fun r =>
        { m with history := r.2 } := by
    unfold System.schedule createRecorded
    rw [Scheduler.step, Option.map_map, Option.map_map]
    rfl
  rw [hschedule]
  rcases createRecorded_cases h.sched taskStacks name entry.1 priority with hfull |
    ⟨t, h', hcreate, hinv, hlive, hpid, hcount, hentry, hother⟩
  · rw [hfull]
    exact ⟨m, rfl, h⟩
  · rw [hcreate]
    refine ⟨{ m with history := h' }, rfl, hinv, h.count, h.fixed, ?_, ?_, ?_⟩
    · intro e he i hi hsame
      have he' : e ∈ m.history.live ++ [(t, (h'.sched.taskTable t).pid)] := hlive ▸ he
      rcases List.mem_append.mp he' with hold | hnew
      · apply h.apps e hold i hi
        rw [← hother e hold]
        exact hsame
      · rw [List.mem_singleton.mp hnew] at hsame
        exfalso
        apply entry.2
        rw [← hentry, hsame, (h.fixed i).2]
        exact isApp_entry entries l hi
    · intro i hi hrunning
      show _ ≤ h'.sched.taskCount
      rw [hcount]
      exact Nat.le_succ_of_le (h.old i hi hrunning)
    · intro i hi hrunning e he heq
      have he' : e ∈ m.history.live ++ [(t, (h'.sched.taskTable t).pid)] := hlive ▸ he
      rcases List.mem_append.mp he' with hold | hnew
      · show (h'.sched.taskTable e.1).entry = _
        rw [hother e hold]
        exact h.launched i hi hrunning e hold heq
      · rw [List.mem_singleton.mp hnew] at heq
        exact absurd heq (h.pid_ne hi hrunning hpid)

/-! ## `app_launch` -/

/-- The entry `k` of the registry has the name. -/
abbrev Matches (m : System) (appName : List UInt8) (k : Nat) : Prop :=
  stringsEqual (m.launcher.appRegistry k).name (some appName) = true

/-- The loop passes the entries with other names. -/
theorem launchLoop_skip (taskStacks : UInt64) {appName : List UInt8} {m : System} (d turns j : Nat)
    (h : ∀ k, j ≤ k → k < j + d → ¬Matches m appName k) :
    launchLoop taskStacks appName (d + turns) j m =
      launchLoop taskStacks appName turns (j + d) m := by
  induction d generalizing j with
  | zero => simp
  | succ d ih =>
    rw [show d + 1 + turns = d + turns + 1 by omega, launchLoop,
      if_neg (h j (Nat.le_refl j) (by omega)), ih (j + 1), show j + 1 + d = j + (d + 1) by omega]
    intro k hjk hk
    exact h k (by omega) (by omega)

theorem Inv.matches_unique (h : Inv entries l m) {appName : List UInt8} {i j : Nat} (hi : i < 3)
    (hj : j < 3) (hmatchi : Matches m appName i) (hmatchj : Matches m appName j) : i = j := by
  unfold Matches at hmatchi hmatchj
  rw [(h.fixed i).1] at hmatchi
  rw [(h.fixed j).1] at hmatchj
  exact name_injective entries l hi hj hmatchi hmatchj

theorem Inv.appLaunch_absent (h : Inv entries l m) {taskStacks : UInt64} {appName : List UInt8}
    (hmiss : ∀ k < 3, ¬Matches m appName k) :
    appLaunch taskStacks (some appName) m = some (-1, m) := by
  show launchLoop taskStacks appName m.launcher.appCount 0 m = _
  rw [h.count]
  have hskip := launchLoop_skip taskStacks 3 0 0 (fun k _ hk => hmiss k (by omega))
  exact hskip

/-- What `app_launch` does for the application with the number `i`. -/
theorem Inv.appLaunch_eq (h : Inv entries l m) {taskStacks : UInt64} {appName : List UInt8}
    {i : Nat} (hi : i < 3) (hmatch : Matches m appName i) :
    appLaunch taskStacks (some appName) m =
      if (m.launcher.appRegistry i).running then some (toInt (m.launcher.appRegistry i).pid, m)
      else
        (createRecorded taskStacks (some (taskName appName)) (m.launcher.appRegistry i).entry 1
          m.history).map fun r =>
            match r.1 with
            | some task => (toInt (r.2.sched.taskTable task).pid,
                ⟨m.launcher.launched i (r.2.sched.taskTable task).pid, r.2⟩)
            | none => (-1, { m with history := r.2 }) := by
  show launchLoop taskStacks appName m.launcher.appCount 0 m = _
  have hmiss : ∀ k < 3, k ≠ i → ¬Matches m appName k := by
    intro k hk hki hmatchk
    exact hki (h.matches_unique hk hi hmatchk hmatch)
  have hfront := launchLoop_skip taskStacks i (2 - i + 1) 0
    (fun k _ hk => hmiss k (by omega) (by omega))
  rw [show i + (2 - i + 1) = 3 by omega, Nat.zero_add] at hfront
  rw [h.count, hfront, launchLoop, if_pos hmatch]
  split
  · rfl
  · cases hcreate : createRecorded taskStacks (some (taskName appName))
        (m.launcher.appRegistry i).entry 1 m.history with
    | none => rfl
    | some r =>
      rcases r with ⟨_ | task, h'⟩
      · -- no entry behind `i` has the name
        have hrest := launchLoop_skip (m := { m with history := h' }) taskStacks (2 - i) 0 (i + 1)
          (fun k hik hk => hmiss k (by omega) (by omega))
        exact hrest
      · rfl

/-- The pids of the scheduler are small. -/
theorem toInt_eq {pid : UInt32} (h : pid.toNat ≤ Scheduler.maxTasks) : toInt pid = pid.toNat := by
  have hle : pid.toNat ≤ 256 := h
  show pid.toBitVec.toInt = pid.toBitVec.toNat
  apply BitVec.toInt_eq_toNat_of_lt
  show 2 * pid.toNat < 2 ^ 32
  omega

theorem Inv.live_pid_le (h : Inv entries l m) {e : Slot × UInt32} (he : e ∈ m.history.live) :
    e.2.toNat ≤ Scheduler.maxTasks := by
  have hslot := h.sched.slotOf e he
  have hlt := e.1.isLt
  omega

theorem Inv.registered_pid_le (h : Inv entries l m) {i : Nat} (hi : i < 3)
    (hrunning : (m.launcher.appRegistry i).running = true) :
    (m.launcher.appRegistry i).pid.toNat ≤ Scheduler.maxTasks :=
  Nat.le_trans (h.old i hi hrunning) h.sched.count

theorem launched_self (l : Launcher) (i : Nat) (pid : UInt32) :
    (l.launched i pid).appRegistry i = { l.appRegistry i with running := true, pid := pid } :=
  Function.update_self _ _ _

theorem launched_of_ne (l : Launcher) {i j : Nat} (h : j ≠ i) (pid : UInt32) :
    (l.launched i pid).appRegistry j = l.appRegistry j := Function.update_of_ne h _ _

/-- The history after a `create_task` that granted the slot `t` to application `i`. -/
structure TaskCreated (m : System) (i : Nat) (t : Slot) (pid : UInt32) (h' : History) : Prop where
  sched : Scheduler.Inv h'.sched h'.live
  live : h'.live = m.history.live ++ [(t, pid)]
  pid : pid.toNat = m.history.sched.taskCount + 1
  count : h'.sched.taskCount = m.history.sched.taskCount + 1
  entry : (h'.sched.taskTable t).entry = (m.launcher.appRegistry i).entry
  other : ∀ e ∈ m.history.live,
    (h'.sched.taskTable e.1).entry = (m.history.sched.taskTable e.1).entry

section Launch

variable {i : Nat} {t : Slot} {pid : UInt32} {h' : History}

theorem TaskCreated.mem_live (hc : TaskCreated m i t pid h') {e : Slot × UInt32} (he : e ∈ h'.live) :
    e ∈ m.history.live ∨ e = (t, pid) := by
  rw [hc.live] at he
  rcases List.mem_append.mp he with hold | hnew
  · exact Or.inl hold
  · exact Or.inr (List.mem_singleton.mp hnew)

/-- The live tasks that run an application are still the registered ones. -/
theorem Inv.launch_apps (h : Inv entries l m) (hc : TaskCreated m i t pid h') (hi : i < 3)
    (hrunning : (m.launcher.appRegistry i).running = false) {e : Slot × UInt32} (he : e ∈ h'.live)
    {j : Nat} (hj : j < 3)
    (hsame : (h'.sched.taskTable e.1).entry = ((m.launcher.launched i pid).appRegistry j).entry) :
    ((m.launcher.launched i pid).appRegistry j).running = true ∧
      ((m.launcher.launched i pid).appRegistry j).pid = e.2 := by
  rcases hc.mem_live he with hold | hnew
  · rw [hc.other e hold] at hsame
    by_cases hji : j = i
    · -- a live task that runs the application would have been registered
      subst hji
      rw [launched_self] at hsame
      have happ := (h.apps e hold j hj hsame).1
      rw [hrunning] at happ
      exact absurd happ Bool.false_ne_true
    · rw [launched_of_ne m.launcher hji] at hsame ⊢
      exact h.apps e hold j hj hsame
  · subst hnew
    have hji : j = i := by
      by_contra hji
      rw [launched_of_ne m.launcher hji, hc.entry, (h.fixed i).2, (h.fixed j).2] at hsame
      exact hji (entry_injective entries l hi hj hsame).symm
    subst hji
    rw [launched_self]
    exact ⟨rfl, rfl⟩

/-- A live task with a registered pid runs that application. -/
theorem Inv.launch_launched (h : Inv entries l m) (hc : TaskCreated m i t pid h') {j : Nat} (hj : j < 3)
    (hrun : ((m.launcher.launched i pid).appRegistry j).running = true) {e : Slot × UInt32}
    (he : e ∈ h'.live) (heq : e.2 = ((m.launcher.launched i pid).appRegistry j).pid) :
    (h'.sched.taskTable e.1).entry = ((m.launcher.launched i pid).appRegistry j).entry := by
  by_cases hji : j = i
  · subst hji
    rw [launched_self] at heq ⊢
    rcases hc.mem_live he with hold | hnew
    · -- the pid is above those of the tasks that were live before
      have hslot := h.sched.slotOf e hold
      have hused := h.sched.used e hold
      have hpid : e.2.toNat = pid.toNat := congrArg UInt32.toNat heq
      have hnew := hc.pid
      omega
    · rw [hnew]
      exact hc.entry
  · rw [launched_of_ne m.launcher hji] at hrun heq ⊢
    rcases hc.mem_live he with hold | hnew
    · rw [hc.other e hold]
      exact h.launched j hj hrun e hold heq
    · subst hnew
      exact absurd heq (h.pid_ne hj hrun hc.pid)

/-- The application is launched for the first time. -/
theorem Inv.launch (h : Inv entries l m) (hc : TaskCreated m i t pid h') (hi : i < 3)
    (hrunning : (m.launcher.appRegistry i).running = false) :
    Inv entries l ⟨m.launcher.launched i pid, h'⟩ := by
  constructor
  · exact hc.sched
  · exact h.count
  · intro j
    show ((m.launcher.launched i pid).appRegistry j).name = _ ∧
      ((m.launcher.launched i pid).appRegistry j).entry = _
    by_cases hji : j = i
    · subst hji
      rw [launched_self]
      exact h.fixed j
    · rw [launched_of_ne m.launcher hji]
      exact h.fixed j
  · intro e he j hj hsame
    exact h.launch_apps hc hi hrunning he hj hsame
  · intro j hj hrun
    have hrun' : ((m.launcher.launched i pid).appRegistry j).running = true := hrun
    show ((m.launcher.launched i pid).appRegistry j).pid.toNat ≤ h'.sched.taskCount
    rw [hc.count]
    by_cases hji : j = i
    · subst hji
      rw [launched_self]
      exact Nat.le_of_eq hc.pid
    · rw [launched_of_ne m.launcher hji] at hrun' ⊢
      exact Nat.le_succ_of_le (h.old j hj hrun')
  · intro j hj hrun e he heq
    exact h.launch_launched hc hj hrun he heq

end Launch

/-! ## Histories -/

/-- What is owed of one call: a pid that `app_launch` returns is that of a task in
the ready queue, which runs the application. -/
def ReturnsLive (taskStacks : UInt64) (m : System) (c : Call entries) : Prop :=
  ∀ appName r m', c = .appLaunch appName → appLaunch taskStacks appName m = some (r, m') →
    r ≠ -1 → ∃ i < m.launcher.appCount, ∃ q t,
      stringsEqual (m.launcher.appRegistry i).name appName = true ∧
      Linked m'.history.sched.next m'.history.sched.readyQueueHead q ∧ t ∈ q ∧
      toInt (m'.history.sched.taskTable t).pid = r ∧
      (m'.history.sched.taskTable t).entry = (m.launcher.appRegistry i).entry

/-- No two live tasks run the same application. -/
def OneInstance (m : System) : Prop :=
  ∀ i < m.launcher.appCount, ∀ e ∈ m.history.live, ∀ e' ∈ m.history.live,
    (m.history.sched.taskTable e.1).entry = (m.launcher.appRegistry i).entry →
    (m.history.sched.taskTable e'.1).entry = (m.launcher.appRegistry i).entry → e = e'

/-- The condition on a call: `app_launch` is not called for an application whose
task has ended. -/
def StillLive (m : System) (c : Call entries) : Prop :=
  ∀ appName, c = .appLaunch (some appName) → ∀ i < m.launcher.appCount, Matches m appName i →
    (m.launcher.appRegistry i).running = true →
      ∃ e ∈ m.history.live, e.2 = (m.launcher.appRegistry i).pid

theorem Inv.appLaunch_step (h : Inv entries l m) (taskStacks : UInt64)
    (appName : Option (List UInt8)) :
    ∃ r, appLaunch taskStacks appName m = some r ∧ Inv entries l r.2 := by
  cases appName with
  | none => exact ⟨(-1, m), rfl, h⟩
  | some appName =>
    by_cases hmatch : ∃ i < 3, Matches m appName i
    · rcases hmatch with ⟨i, hi, hmatch⟩
      rw [h.appLaunch_eq hi hmatch]
      by_cases hrunning : (m.launcher.appRegistry i).running = true
      · rw [if_pos hrunning]
        exact ⟨_, rfl, h⟩
      · rw [if_neg hrunning]
        rcases createRecorded_cases h.sched taskStacks (some (taskName appName))
          (m.launcher.appRegistry i).entry 1 with hfull |
          ⟨t, h', hcreate, hinv, hlive, hpid, hcount, hentry, hother⟩
        · rw [hfull]
          exact ⟨_, rfl, h⟩
        · rw [hcreate]
          refine ⟨_, rfl, ?_⟩
          exact h.launch ⟨hinv, hlive, hpid, hcount, hentry, hother⟩ hi (Bool.eq_false_iff.mpr hrunning)
    · push Not at hmatch
      rw [h.appLaunch_absent hmatch]
      exact ⟨_, rfl, h⟩

theorem step_inv (taskStacks : UInt64) (m : System) (c : Call entries) (h : Inv entries l m) :
    ∃ m', step taskStacks m c = some m' ∧ Inv entries l m' := by
  cases c with
  | appLaunch appName =>
    rcases h.appLaunch_step taskStacks appName with ⟨r, hr, hinv⟩
    exact ⟨r.2, by rw [step, hr]; rfl, hinv⟩
  | createTask name entry priority => exact h.create name entry priority
  | killTask pid => exact h.quiet (by simp)
  | taskExit => exact h.quiet (by simp)
  | taskYield rsp => exact h.quiet (by simp)

theorem Inv.oneInstance (h : Inv entries l m) : OneInstance m := by
  intro i hi e he e' he' hentry hentry'
  rw [h.count] at hi
  exact h.unique hi he he' hentry hentry'

theorem Inv.stillLive_of_returnsLive (h : Inv entries l m) {taskStacks : UInt64} {c : Call entries}
    (hlive : ReturnsLive taskStacks m c) : StillLive m c := by
  intro appName hc i hi hmatch hrunning
  rw [h.count] at hi
  have hlaunch : appLaunch taskStacks (some appName) m =
      some (toInt (m.launcher.appRegistry i).pid, m) := by
    rw [h.appLaunch_eq hi hmatch, if_pos hrunning]
  have hle := h.registered_pid_le hi hrunning
  have hne : toInt (m.launcher.appRegistry i).pid ≠ -1 := by
    rw [toInt_eq hle]
    omega
  rcases hlive (some appName) _ m hc hlaunch hne with ⟨_, _, q, t, _, hlinked, ht, hpid, _⟩
  rw [hlinked.unique h.sched.linked] at ht
  rcases List.mem_map.mp ht with ⟨e, he, rfl⟩
  refine ⟨e, he, ?_⟩
  rw [h.sched.pids e he, toInt_eq (h.live_pid_le he), toInt_eq hle] at hpid
  exact UInt32.toNat_inj.mp (Int.ofNat.inj hpid)

theorem Inv.returnsLive_of_stillLive (h : Inv entries l m) {taskStacks : UInt64} {c : Call entries}
    (hstill : StillLive m c) : ReturnsLive taskStacks m c := by
  intro appName r m' hc hlaunch hne
  cases appName with
  | none =>
    simp only [appLaunch, Option.some.injEq, Prod.mk.injEq] at hlaunch
    exact absurd hlaunch.1.symm hne
  | some appName =>
    by_cases hmatch : ∃ i < 3, Matches m appName i
    swap
    · push Not at hmatch
      rw [h.appLaunch_absent hmatch, Option.some.injEq, Prod.mk.injEq] at hlaunch
      exact absurd hlaunch.1.symm hne
    rcases hmatch with ⟨i, hi, hmatch⟩
    refine ⟨i, by rw [h.count]; exact hi, ?_⟩
    rw [h.appLaunch_eq hi hmatch] at hlaunch
    by_cases hrunning : (m.launcher.appRegistry i).running = true
    · -- the task the registry remembers
      rw [if_pos hrunning, Option.some.injEq, Prod.mk.injEq] at hlaunch
      rcases hlaunch with ⟨rfl, rfl⟩
      rcases hstill appName hc i (by rw [h.count]; exact hi) hmatch hrunning with ⟨e, he, hpid⟩
      refine ⟨slots m.history.live, e.1, hmatch, h.sched.linked, List.mem_map_of_mem he, ?_,
        h.launched i hi hrunning e he hpid⟩
      rw [h.sched.pids e he, hpid]
    · -- a new task
      rw [if_neg hrunning] at hlaunch
      rcases createRecorded_cases h.sched taskStacks (some (taskName appName))
        (m.launcher.appRegistry i).entry 1 with hfull |
        ⟨t, h', hcreate, hinv, hlive, _, _, hentry, _⟩
      · rw [hfull, Option.map_some, Option.some.injEq, Prod.mk.injEq] at hlaunch
        exact absurd hlaunch.1.symm hne
      · rw [hcreate, Option.map_some, Option.some.injEq, Prod.mk.injEq] at hlaunch
        rcases hlaunch with ⟨rfl, rfl⟩
        refine ⟨slots h'.live, t, hmatch, hinv.linked, ?_, rfl, hentry⟩
        rw [hlive]
        simp [slots]

/-- In every history, `app_launch` returns pids of live tasks that run the
application and no two live tasks run the same one, exactly when it is never
called for an application whose task has ended. -/
theorem app_launch_live_iff (entries : Entries) (l : Launcher) (taskStacks : UInt64)
    (calls : List (Call entries)) :
    Throughout (step taskStacks)
        (fun m c => ReturnsLive taskStacks m c ∧ ∀ m', step taskStacks m c = some m' →
          OneInstance m') (start entries l) calls ↔
      Throughout (step taskStacks) StillLive (start entries l) calls := by
  apply throughout_congr (Inv entries l)
  · intro m c h _
    exact step_inv taskStacks m c h
  · intro m c h
    constructor
    · intro hlive
      exact h.stillLive_of_returnsLive hlive.1
    · intro hstill
      refine ⟨h.returnsLive_of_stillLive hstill, ?_⟩
      intro m' hm'
      rcases step_inv taskStacks m c h with ⟨m₁, hm₁, hinv⟩
      rw [hm', Option.some.injEq] at hm₁
      rw [hm₁]
      exact hinv.oneInstance
  · exact inv_start entries l

/-- Some addresses of the three functions. -/
def someEntries : Entries := ⟨0x1000, 0x2000, 0x3000, by decide⟩

/-- A registry of zeros. -/
def launcher : Launcher := ⟨fun _ => ⟨none, 0, false, 0⟩, 0⟩

/-- The terminal is launched, its task ends, and it is launched again. -/
def launchedTwice : List (Call someEntries) :=
  [.appLaunch (some (registeredName 1)), .taskExit, .appLaunch (some (registeredName 1))]

/-- The second time, the pid returned is that of no task. -/
theorem app_launch_returns_dead_pid :
    ¬Throughout (step 0x200000)
      (fun m c => ReturnsLive 0x200000 m c ∧ ∀ m', step 0x200000 m c = some m' → OneInstance m')
      (start someEntries launcher) launchedTwice := by
  intro hall
  rcases exec_invariant (Inv someEntries launcher) (step_inv 0x200000)
    (inv_start someEntries launcher) (launchedTwice.take 2) with ⟨m, hrun, hinv⟩
  have hfields : (exec (step 0x200000) (start someEntries launcher) (launchedTwice.take 2)).map
      (fun m => (m.launcher.appCount, (m.launcher.appRegistry 1).running,
        stringsEqual (m.launcher.appRegistry 1).name (some (registeredName 1)),
        m.history.live)) = some (3, true, true, []) := by
    decide +kernel
  rw [hrun, Option.map_some, Option.some.injEq] at hfields
  simp only [Prod.mk.injEq] at hfields
  rcases hfields with ⟨hcount, hrunning, hmatch, hlive⟩
  have hsplit : launchedTwice = launchedTwice.take 2 ++
      Call.appLaunch (some (registeredName 1)) :: [] := rfl
  rw [hsplit] at hall
  rcases hinv.stillLive_of_returnsLive (hall.at hrun).1 (registeredName 1) rfl 1
    (by rw [hcount]; decide) hmatch hrunning with ⟨e, he, _⟩
  rw [hlive] at he
  cases he

end CosKernel.AppLauncher
