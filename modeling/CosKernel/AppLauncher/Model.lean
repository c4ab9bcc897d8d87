import CosKernel.Lib.CString
import CosKernel.Scheduler.Capacity

/-!
# The application launcher (`app_launcher.c`)

Three applications are registered at boot. `app_launch` creates a task for one
that is not running, and returns the pid it remembers for one that is. The flag
`running` and the pid are the launcher's own: the scheduler does not know them,
and a task that ends leaves them as they are.

The addresses of the three functions are parameters; a linker gives different
functions different addresses.
-/

namespace CosKernel.AppLauncher

open Scheduler (Slot Sched History createTask recordCreated)

/-- `strings_equal` -/
def stringsEqual (a b : Option (List UInt8)) : Bool := CString.equal a b

/-! ## State -/

structure AppT where
  name : Option (List UInt8)
  entry : UInt64
  running : Bool
  pid : UInt32
deriving DecidableEq

structure Launcher where
  appRegistry : Nat → AppT
  appCount : Nat

/-- The addresses of `file_manager_app`, `terminal_app` and `settings_app`. -/
structure Entries where
  fileManagerApp : UInt64
  terminalApp : UInt64
  settingsApp : UInt64
  distinct : [fileManagerApp, terminalApp, settingsApp].Nodup

/-- The address is that of an application. -/
def Entries.IsApp (entries : Entries) (entry : UInt64) : Prop :=
  entry ∈ [entries.fileManagerApp, entries.terminalApp, entries.settingsApp]

/-- `app_registry[app_count] = …; app_count++;` -/
def Launcher.register (name : String) (entry : UInt64) (l : Launcher) : Launcher where
  appRegistry := Function.update l.appRegistry l.appCount
    { name := some name.toUTF8.data.toList
      entry := entry
      running := false
      pid := 0 }
  appCount := l.appCount + 1

/-- `app_launcher_initialize` -/
def appLauncherInitialize (entries : Entries) (l : Launcher) : Launcher :=
  ({ l with appCount := 0 }.register "Files" entries.fileManagerApp
    |>.register "Terminal" entries.terminalApp).register "Settings" entries.settingsApp

/-- The launcher, and the scheduler with its record of live tasks. -/
structure System where
  launcher : Launcher
  history : History

/-! ## `app_launch` -/

/-- The `int` a `uint32_t` is returned as. -/
def toInt (pid : UInt32) : Int := pid.toInt32.toInt

/-- `create_task` as the scheduler's history records it. -/
def createRecorded (taskStacks : UInt64) (name : Option String) (entry : UInt64)
    (priority : UInt32) (h : History) : Option (Option Slot × History) :=
  (createTask taskStacks name entry priority h.sched).map fun r =>
    (r.1, ⟨r.2, recordCreated r.2 h.live r.1⟩)

/-- The name of the new task. -/
def taskName (name : List UInt8) : String := String.ofList (name.map Char.ofUInt8)

/-- `app_registry[i].running = true; app_registry[i].pid = pid;` -/
def Launcher.launched (l : Launcher) (i : Nat) (pid : UInt32) : Launcher :=
  { l with
    appRegistry := Function.update l.appRegistry i
      { l.appRegistry i with running := true, pid := pid } }

/-- The loop of `app_launch`, from `i` on: the result and the new state, or `none`
when `create_task` hangs. A `create_task` that fails lets the loop go on. -/
def launchLoop (taskStacks : UInt64) (appName : List UInt8) :
    Nat → Nat → System → Option (Int × System)
  | 0, _, m => some (-1, m)
  | turns + 1, i, m =>
    if stringsEqual (m.launcher.appRegistry i).name (some appName) then
      if (m.launcher.appRegistry i).running then
        some (toInt (m.launcher.appRegistry i).pid, m)
      else
        match createRecorded taskStacks (some (taskName appName))
            (m.launcher.appRegistry i).entry 1 m.history with
        | none => none
        | some (some task, h) =>
          some (toInt (h.sched.taskTable task).pid,
            ⟨m.launcher.launched i (h.sched.taskTable task).pid, h⟩)
        | some (none, h) => launchLoop taskStacks appName turns (i + 1) { m with history := h }
    else launchLoop taskStacks appName turns (i + 1) m

/-- `app_launch` -/
def appLaunch (taskStacks : UInt64) (appName : Option (List UInt8)) (m : System) :
    Option (Int × System) :=
  match appName with
  | none => some (-1, m)
  | some appName => launchLoop taskStacks appName m.launcher.appCount 0 m

/-! ## Histories -/

/-- What may happen behind `app_launcher_initialize`. Other code creates tasks too,
but none with the function of an application. -/
inductive Call (entries : Entries) where
  | appLaunch (appName : Option (List UInt8))
  | createTask (name : Option String) (entry : {entry : UInt64 // ¬entries.IsApp entry})
    (priority : UInt32)
  | killTask (pid : UInt32)
  | taskExit
  | taskYield (rsp : UInt64)

/-- A call of the scheduler alone. -/
def System.schedule (m : System) (taskStacks : UInt64) (c : Scheduler.Call) : Option System :=
  (Scheduler.step taskStacks m.history c).map fun h => { m with history := h }

def step {entries : Entries} (taskStacks : UInt64) (m : System) : Call entries → Option System
  | .appLaunch appName => (appLaunch taskStacks appName m).map Prod.snd
  | .createTask name entry priority => m.schedule taskStacks (.createTask name entry priority)
  | .killTask pid => m.schedule taskStacks (.killTask pid)
  | .taskExit => m.schedule taskStacks .taskExit
  | .taskYield rsp => m.schedule taskStacks (.taskYield rsp)

/-- The state behind `app_launcher_initialize`: the registry array may hold
anything before, and no task was created yet. -/
def start (entries : Entries) (l : Launcher) : System where
  launcher := appLauncherInitialize entries l
  history := Scheduler.boot

end CosKernel.AppLauncher
