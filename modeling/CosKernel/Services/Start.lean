import CosKernel.Lib.Buffer
import CosKernel.Lib.CString
import CosKernel.Notifications.Model
import CosKernel.Scheduler.Kept
import CosKernel.Spooler.Model

/-!
# Starting the background services (`background_services_initialize`)

The loop makes two hundred tasks and tells each of them its number in the field `memory_kb`, where
`generic_background_service` looks for it. The names are put together in the rows of
`service_names`; a store outside of its row would make the start `none`.
-/

namespace CosKernel.ServiceStart

open Bytes Run Scheduler

/-- `BACKGROUND_SERVICE_COUNT` -/
def backgroundServiceCount : Nat := 200

/-- `SERVICE_NAME_BUFFER` -/
def serviceNameBuffer : Nat := 32

/-- The addresses of the service functions. -/
structure ServiceEntries where
  diskIndexerService : UInt64
  inputMonitorService : UInt64
  clipboardDaemonService : UInt64
  audioSpoolerService : UInt64
  genericBackgroundService : UInt64

/-- The names in `service_table`. -/
def tableNames : List (List UInt8) :=
  [Notifications.chars "Disk/File Indexer", Notifications.chars "Input Monitor / Polling",
    Notifications.chars "Clipboard Daemon", Notifications.chars "Print / Audio Spooler"]

/-- The entries in `service_table`. -/
def tableEntries (e : ServiceEntries) : List UInt64 :=
  [e.diskIndexerService, e.inputMonitorService, e.clipboardDaemonService, e.audioSpoolerService]

/-- `service_names`, `service_id_map`, the spooler and the scheduler. -/
structure Startup where
  serviceNames : Nat → Vector UInt8 serviceNameBuffer
  serviceIdMap : Nat → UInt32
  spooler : Spooler.SpoolerT
  history : History

/-- `while (*base && index < SERVICE_NAME_BUFFER - 1) name[index++] = *base++;`, from `index` on: the
buffer and the `index` it ends with. -/
def copyBase : List UInt8 → Nat → Vector UInt8 serviceNameBuffer → Option (Vector UInt8 serviceNameBuffer × Nat)
  | [], index, name => some (name, index)
  | c :: base, index, name =>
    if c ≠ 0 ∧ index < serviceNameBuffer - 1 then
      (store name index [c]).bind fun name => copyBase base (index + 1) name
    else some (name, index)

/-- `'0' + (value % 10)` -/
def digit (value : Nat) : UInt8 := UInt8.ofNat (48 + value % 10)

/-- The three digits stored behind the name of a service that is not in the table. -/
def digits (value : Nat) : List UInt8 := [digit (value / 100), digit (value / 10), digit value]

/-- The name of service `i` in its row. -/
def writeServiceName (i : Nat) (name : Vector UInt8 serviceNameBuffer) : Option (Vector UInt8 serviceNameBuffer) :=
  match tableNames[i]? with
  | some base => do
    let (name, index) ← copyBase base 0 name
    store name index [0]
  | none => do
    let (name, index) ← copyBase (Notifications.chars "BackgroundService") 0 name
    if index < serviceNameBuffer - 4 then
      let name ← store name index (digits (i + 1))
      store name (index + 3) [0]
    else store name index [0]

/-- The function that service `i` runs. -/
def serviceEntry (e : ServiceEntries) (i : Nat) : UInt64 := (tableEntries e)[i]?.getD e.genericBackgroundService

/-- The string a row holds. -/
def nameText (name : Vector UInt8 serviceNameBuffer) : String :=
  String.ofList ((CString.content name.toList).map fun c => Char.ofNat c.toNat)

/-- One turn of the loop. -/
def startService (taskStacks : UInt64) (e : ServiceEntries) (s : Startup) (i : Nat) : Option Startup := do
  let name ← writeServiceName i (s.serviceNames i)
  let r ← createTask taskStacks (some (nameText name)) (serviceEntry e i) 1 s.history.sched
  let live := recordCreated r.2 s.history.live r.1
  match r.1 with
  | none => return { s with
      serviceNames := Function.update s.serviceNames i name
      history := ⟨r.2, live⟩ }
  | some task => return { s with
      serviceNames := Function.update s.serviceNames i name
      serviceIdMap := Function.update s.serviceIdMap i (UInt32.ofNat i)
      history := ⟨r.2.modify task fun b => { b with memoryKb := UInt32.ofNat i }, live⟩ }

/-- `background_services_initialize` -/
def backgroundServicesInitialize (taskStacks : UInt64) (e : ServiceEntries) (s : Startup) : Option Startup :=
  (exec (startService taskStacks e) s (List.range backgroundServiceCount)).map fun s =>
    { s with spooler :=
        { print := Spooler.spoolPrint (some (Notifications.chars "[Spooler] System print queue initialized\n"))
            s.spooler.print
          audio := Spooler.spoolAudioTone 440 40 s.spooler.audio } }

/-- The `service_id` of a `generic_background_service` that begins to run. -/
def serviceId (s : Sched) : UInt32 :=
  match s.currentTask with
  | none => 0
  | some current => (s.taskTable current).memoryKb

/-! ## The names -/

/-- What a service is called. -/
def serviceName (i : Nat) : List UInt8 :=
  (tableNames[i]?).getD (Notifications.chars "BackgroundService" ++ digits (i + 1))

/-- A base without a NUL that fits is copied as a whole. -/
theorem copyBase_eq {base : List UInt8} {index : Nat} (htext : ∀ c ∈ base, c ≠ 0)
    (hfits : index + base.length < serviceNameBuffer) (name : Vector UInt8 serviceNameBuffer) :
    copyBase base index name = (store name index base).map fun name => (name, index + base.length) := by
  induction base generalizing index name with
  | nil => rfl
  | cons c base ih =>
    rw [List.length_cons] at hfits
    have hbuffer : index < serviceNameBuffer - 1 := by omega
    have hstore : store name index [c] = some (name.set index c (by omega)) := by
      rw [store, dif_pos (by omega)]
      rfl
    have hnext : index + 1 + base.length < serviceNameBuffer := by omega
    have hrest := ih (fun b hb => htext b (List.mem_cons_of_mem c hb)) hnext (name.set index c (by omega))
    rw [copyBase, if_pos ⟨htext c List.mem_cons_self, hbuffer⟩, hstore, Option.bind_some, hrest, store,
      dif_pos (by omega), List.length_cons, Nat.add_assoc, Nat.add_comm 1]

theorem digit_toNat (value : Nat) : (digit value).toNat = 48 + value % 10 := by
  rw [digit, UInt8.toNat_ofNat']
  omega

theorem digit_ne_zero (value : Nat) : digit value ≠ 0 := by
  intro hzero
  have hnat := congrArg UInt8.toNat hzero
  rw [digit_toNat] at hnat
  simp at hnat

/-- Three digits tell the numbers below a thousand apart. -/
theorem digits_inj {a b : Nat} (ha : a < 1000) (hb : b < 1000) (h : digits a = digits b) : a = b := by
  have hdigit : ∀ {x y : Nat}, digit x = digit y → x % 10 = y % 10 := by
    intro x y hxy
    have hnat := congrArg UInt8.toNat hxy
    rw [digit_toNat, digit_toNat] at hnat
    omega
  rcases List.cons.inj h with ⟨hhundreds, hrest⟩
  rcases List.cons.inj hrest with ⟨htens, hunits⟩
  have h₁ := hdigit hhundreds
  have h₂ := hdigit htens
  have h₃ := hdigit (List.cons.inj hunits).1
  omega

/-- Behind the table come the numbered names. -/
theorem serviceName_numbered (i : Nat) :
    serviceName (i + 4) = Notifications.chars "BackgroundService" ++ digits (i + 5) := rfl

theorem length_serviceName_numbered (i : Nat) : (serviceName (i + 4)).length = 20 := rfl

/-- Every name is a string that fits in its row. -/
theorem serviceName_fits (i : Nat) : (∀ c ∈ serviceName i, c ≠ 0) ∧ (serviceName i).length < serviceNameBuffer := by
  match i with
  | 0 => decide +kernel
  | 1 => decide +kernel
  | 2 => decide +kernel
  | 3 => decide +kernel
  | i + 4 =>
    refine ⟨?_, ?_⟩
    swap
    · rw [length_serviceName_numbered]
      decide
    rw [serviceName_numbered]
    intro c hc
    rcases List.mem_append.mp hc with hbase | hdigits
    · exact (by decide +kernel : ∀ c ∈ Notifications.chars "BackgroundService", c ≠ 0) c hbase
    · simp only [digits, List.mem_cons, List.not_mem_nil, or_false] at hdigits
      rcases hdigits with rfl | rfl | rfl
      · exact digit_ne_zero _
      · exact digit_ne_zero _
      · exact digit_ne_zero _

/-- The names in the table differ from each other and from the numbered ones in their lengths. -/
theorem serviceName_inj {i j : Nat} (hi : i < backgroundServiceCount) (hj : j < backgroundServiceCount)
    (h : serviceName i = serviceName j) : i = j := by
  unfold backgroundServiceCount at hi hj
  have hlength := congrArg List.length h
  have htable : (serviceName 0).length = 17 ∧ (serviceName 1).length = 23 ∧ (serviceName 2).length = 16 ∧
      (serviceName 3).length = 21 := by decide
  rcases htable with ⟨h₀, h₁, h₂, h₃⟩
  have hcases : ∀ n : Nat, n = 0 ∨ n = 1 ∨ n = 2 ∨ n = 3 ∨ ∃ m, n = m + 4 := by
    intro n
    match n with
    | 0 => simp
    | 1 => simp
    | 2 => simp
    | 3 => simp
    | n + 4 => exact Or.inr (Or.inr (Or.inr (Or.inr ⟨n, rfl⟩)))
  rcases hcases i with rfl | rfl | rfl | rfl | ⟨m, rfl⟩ <;>
    rcases hcases j with rfl | rfl | rfl | rfl | ⟨n, rfl⟩ <;>
    first
      | rfl
      | (simp only [h₀, h₁, h₂, h₃, length_serviceName_numbered] at hlength; omega)
      | skip
  rw [serviceName_numbered, serviceName_numbered] at h
  have hnumber := digits_inj (by omega) (by omega) (List.append_cancel_left h)
  omega

/-- The stores of a name and its NUL are one store. -/
theorem writeServiceName_eq (i : Nat) (name : Vector UInt8 serviceNameBuffer) :
    writeServiceName i name = store name 0 (serviceName i ++ [0]) := by
  have hfits := serviceName_fits i
  unfold writeServiceName
  unfold serviceName at hfits ⊢
  cases htable : tableNames[i]? with
  | some base =>
    rw [htable, Option.getD_some] at hfits
    dsimp only
    rw [copyBase_eq hfits.1 (by omega), Option.getD_some, ← store_store rfl]
    rcases store name 0 base with _ | name
    · rfl
    · rfl
  | none =>
    rw [htable, Option.getD_none] at hfits
    dsimp only
    rw [copyBase_eq (fun c hc => hfits.1 c (List.mem_append_left _ hc)) (by decide), Option.getD_none,
      ← store_store rfl, ← store_store rfl]
    rcases store name 0 (Notifications.chars "BackgroundService") with _ | name
    · rfl
    · rfl

/-- The row then holds the name of the service. -/
theorem writeServiceName_spec (i : Nat) (name : Vector UInt8 serviceNameBuffer) :
    ∃ name', writeServiceName i name = some name' ∧ CString.scan name'.toList = some (serviceName i) := by
  rcases serviceName_fits i with ⟨htext, hlength⟩
  have hroom : (serviceName i ++ [0]).length ≤ serviceNameBuffer := by
    rw [List.length_append]
    exact hlength
  rcases store_zero_spec hroom name with ⟨name', hstore, hbytes⟩
  refine ⟨name', ?_, ?_⟩
  · rw [writeServiceName_eq]
    exact hstore
  · have hnul : (0 : UInt8) ∉ serviceName i := fun hmem => htext 0 hmem rfl
    rw [hbytes, CString.scan_eq, if_pos (by simp), List.append_assoc, CString.content_append_of_not_mem hnul,
      List.singleton_append, CString.content_cons_zero, List.append_nil]

/-! ## The loop -/

/-- The services that have been started behind `k` tasks, when the loop is at service `i`. -/
structure Started (e : ServiceEntries) (k i : Nat) (s : Startup) : Prop where
  inv : Inv s.history.sched s.history.live
  count : s.history.sched.taskCount = min maxTasks (k + i)
  names : ∀ j < i, CString.scan (s.serviceNames j).toList = some (serviceName j)
  tasks : ∀ j < i, ∀ hroom : k + j < maxTasks, s.serviceIdMap j = UInt32.ofNat j ∧
    givenTo (s.history.sched.taskTable ⟨k + j, hroom⟩) =
      (some (nameText (s.serviceNames j)), serviceEntry e j, 1, UInt32.ofNat j)

/-- A new `memory_kb` leaves the scheduler in order. -/
theorem modify_memoryKb_inv {s : Sched} {live : List (Slot × UInt32)} (h : Inv s live) (t : Slot) (x : UInt32) :
    Inv (s.modify t fun b => { b with memoryKb := x }) live := by
  have hstate : ∀ u, ((s.modify t fun b => { b with memoryKb := x }).taskTable u).state = (s.taskTable u).state := by
    intro u
    by_cases hut : u = t
    · subst hut
      rw [modify_taskTable_self]
    · rw [modify_taskTable_ne _ _ hut]
  refine ⟨h.toWf.modify (fun _ => rfl) (fun _ => rfl), ?_, ?_⟩
  · exact fun u hu => (hstate u).trans (h.states u hu)
  · exact fun u hu => (hstate u).trans (h.dead u hu)

/-- One turn starts one service, as long as there is room. -/
theorem Started.turn {e : ServiceEntries} {k i : Nat} {s : Startup} (h : Started e k i s) (taskStacks : UInt64) :
    ∃ s', startService taskStacks e s i = some s' ∧ Started e k (i + 1) s' := by
  rcases writeServiceName_spec i (s.serviceNames i) with ⟨name, hwrite, hname⟩
  rcases createTask_inv h.inv taskStacks (some (nameText name)) (serviceEntry e i) 1 with ⟨r, hr, hinv⟩
  rcases createTask_keeps hr h.inv.count with ⟨hcount, hkept⟩
  have hnames : ∀ j < i + 1,
      CString.scan (Function.update s.serviceNames i name j).toList = some (serviceName j) := by
    intro j hj
    by_cases hji : j = i
    · rw [hji, Function.update_self, hname]
    · rw [Function.update_of_ne hji, h.names j (by omega)]
  have hnext : r.2.taskCount = min maxTasks (k + (i + 1)) := by
    rw [hcount, h.count]
    omega
  unfold startService
  rw [hwrite, Option.bind_eq_bind, Option.bind_some, hr, Option.bind_eq_bind, Option.bind_some]
  by_cases hroom : s.history.sched.taskCount < maxTasks
  · rcases createTask_given hr hroom with ⟨htask, _, hgiven, _⟩
    have hslot : s.history.sched.taskCount = k + i := by
      rw [h.count] at hroom ⊢
      omega
    rw [htask] at hinv ⊢
    refine ⟨_, rfl, modify_memoryKb_inv hinv _ _, hnext, hnames, ?_⟩
    intro j hj hlt
    by_cases hji : j = i
    · -- the task that was made in this turn
      subst hji
      have heq : (⟨k + j, hlt⟩ : Slot) = ⟨s.history.sched.taskCount, hroom⟩ := Fin.ext hslot.symm
      simp only [givenTo, Prod.mk.injEq] at hgiven
      refine ⟨Function.update_self _ _ _, ?_⟩
      dsimp only
      rw [heq, modify_taskTable_self, Function.update_self, givenTo, hgiven.1, hgiven.2.1, hgiven.2.2.1]
    · have hne : (⟨k + j, hlt⟩ : Slot) ≠ ⟨s.history.sched.taskCount, hroom⟩ := by
        intro heq
        have hval : k + j = s.history.sched.taskCount := congrArg Fin.val heq
        omega
      have hold : k + j < s.history.sched.taskCount := by omega
      rcases h.tasks j (by omega) hlt with ⟨hid, htask⟩
      dsimp only
      rw [Function.update_of_ne hji, Function.update_of_ne hji, modify_taskTable_ne _ _ hne, hkept ⟨k + j, hlt⟩ hold]
      exact ⟨hid, htask⟩
  · -- the table is used up, and so it is for the services behind
    rw [createTask_full hroom, Option.some.injEq] at hr
    rw [← hr] at hinv hnext ⊢
    refine ⟨_, rfl, hinv, hnext, hnames, ?_⟩
    intro j hj hlt
    have hfull : maxTasks ≤ k + i := by
      rw [h.count] at hroom
      omega
    have hji : j ≠ i := by omega
    dsimp only
    rw [Function.update_of_ne hji]
    exact h.tasks j (by omega) hlt

/-- The turns start the services one after the other. -/
theorem exec_started (taskStacks : UInt64) (e : ServiceEntries) {s : Startup} {k : Nat} (h : Started e k 0 s) (n : Nat) :
    ∃ s', exec (startService taskStacks e) s (List.range n) = some s' ∧ Started e k n s' := by
  induction n with
  | zero => exact ⟨s, rfl, h⟩
  | succ n ih =>
    rcases ih with ⟨s₁, hrun₁, h₁⟩
    rcases h₁.turn taskStacks with ⟨s₂, hturn, h₂⟩
    refine ⟨s₂, ?_, h₂⟩
    rw [List.range_succ, exec_append, hrun₁, Option.bind_some, exec, hturn]
    rfl

/-- Behind any calls of the scheduler, the start puts every service that finds room in a task of its
own, with a name of its own that fits in its row, and in every run of calls from then on the task of
service `i` keeps that name, its function and the number `i`, which is what the service reads when
it begins to run; the calls of the run find as many free blocks as the services left. -/
theorem services_keep_their_numbers (taskStacks : UInt64) (e : ServiceEntries) (before : Startup)
    (past calls : List Call) :
    ∃ h₀ s h, run taskStacks past = some h₀ ∧
      backgroundServicesInitialize taskStacks e { before with history := h₀ } = some s ∧
      exec (step taskStacks) s.history calls = some h ∧
      (∀ i < backgroundServiceCount, CString.scan (s.serviceNames i).toList = some (serviceName i) ∧
        ∀ j < backgroundServiceCount, serviceName i = serviceName j → i = j) ∧
      (∀ i < backgroundServiceCount, ∀ hroom : h₀.sched.taskCount + i < maxTasks,
        s.serviceIdMap i = UInt32.ofNat i ∧
        givenTo (h.sched.taskTable ⟨h₀.sched.taskCount + i, hroom⟩) =
          (some (nameText (s.serviceNames i)), serviceEntry e i, 1, UInt32.ofNat i) ∧
        (h.sched.currentTask = some ⟨h₀.sched.taskCount + i, hroom⟩ → serviceId h.sched = UInt32.ofNat i)) ∧
      h.sched.taskCount =
        min maxTasks (h₀.sched.taskCount + backgroundServiceCount + (calls.map Call.creations).sum) := by
  rcases run_inv taskStacks past with ⟨h₀, hpast, hinv₀⟩
  have hstarted₀ : Started e h₀.sched.taskCount 0 { before with history := h₀ } := by
    refine ⟨hinv₀, (Nat.min_eq_right hinv₀.count).symm, ?_, ?_⟩
    · exact fun j hj => absurd hj (Nat.not_lt_zero j)
    · exact fun j hj => absurd hj (Nat.not_lt_zero j)
  rcases exec_started taskStacks e hstarted₀ backgroundServiceCount with ⟨s, hloop, hstarted⟩
  rcases exec_keeps taskStacks calls hstarted.inv with ⟨h, hrun, _, hcount, hkept⟩
  refine ⟨h₀, _, h, hpast, congrArg (Option.map _) hloop, hrun, ?_, ?_, ?_⟩
  · intro i hi
    exact ⟨hstarted.names i hi, fun j hj => serviceName_inj hi hj⟩
  · intro i hi hroom
    have hold : h₀.sched.taskCount + i < s.history.sched.taskCount := by
      rw [hstarted.count]
      exact lt_min hroom (by omega)
    rcases hstarted.tasks i hi hroom with ⟨hid, htask⟩
    have hgiven := (hkept ⟨h₀.sched.taskCount + i, hroom⟩ hold).trans htask
    refine ⟨hid, hgiven, ?_⟩
    intro hcurrent
    unfold serviceId
    rw [hcurrent]
    exact congrArg (fun given => given.2.2.2) hgiven
  · rw [hcount, hstarted.count]
    omega

end CosKernel.ServiceStart
