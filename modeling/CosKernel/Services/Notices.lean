import CosKernel.Lib.Run
import CosKernel.Services.Model
import CosKernel.Usb.Order

/-!
# What becomes of the notifications

The center holds the first sixteen notifications of all services. The input monitor posts at most
two, since a device that was entered stays in the table and the first one entered is the keyboard.
The disk indexer posts one in each turn until the root directory is listed for the first time; on a
disk that cannot be read it fills the center alone, and no notification posted later is kept.
-/

namespace CosKernel.Services

open Notifications Run Usb

/-! ## One event -/

theorem Holds.postAll {center : Center} {before posts : List NotificationT} (h : Holds center before)
    (hactive : ∀ n ∈ posts, n.active = true) : Holds (postAll posts center) (before ++ posts) := by
  induction posts generalizing center before with
  | nil =>
    rw [List.append_nil]
    exact h
  | cons n posts ih =>
    have hpost : (⟨n.title, n.message, n.priority, true⟩ : NotificationT) = n := by
      rw [← hactive n List.mem_cons_self]
    have hfirst := h.post n.title n.message n.priority
    rw [hpost] at hfirst
    have hrest := ih hfirst fun m hm => hactive m (List.mem_cons_of_mem n hm)
    rw [List.append_assoc, List.singleton_append] at hrest
    exact hrest

/-- A turn of the disk indexer: nothing once it is done, and else the one or the other notification. -/
theorem diskIndexerService_cases {ahci : Fat32.Ahci} {stack : Nat → UInt8} {fuel : Nat} {s s' : State}
    {posts : List NotificationT} (hturn : diskIndexerService ahci stack fuel s = some (posts, s')) :
    (s.diskIndexReady = true ∧ posts = [] ∧ s' = s) ∨
      (s.diskIndexReady = false ∧ posts = [indexed] ∧
        ∃ files, s' = { s with diskIndexReady := true, diskIndexedFiles := files }) ∨
      (s.diskIndexReady = false ∧ posts = [indexingFailed] ∧ s' = s) := by
  unfold diskIndexerService at hturn
  cases hready : s.diskIndexReady with
  | true =>
    rw [if_pos hready] at hturn
    cases hturn
    exact Or.inl ⟨rfl, rfl, rfl⟩
  | false =>
    rw [hready, if_neg (by decide), Option.map_eq_some_iff] at hturn
    rcases hturn with ⟨r, -, hr⟩
    split at hr
    · cases hr
      exact Or.inr (Or.inl ⟨rfl, rfl, _, rfl⟩)
    · cases hr
      exact Or.inr (Or.inr ⟨rfl, rfl, rfl⟩)

/-- Every notification is posted as an active one. -/
theorem turn_active {fuel : Nat} {s s' : State} {e : Event} {posts : List NotificationT}
    (hturn : turn fuel s e = some (posts, s')) : ∀ n ∈ posts, n.active = true := by
  have hone : ∀ {c : Bool} {n : NotificationT}, n.active = true → ∀ m ∈ (if c then [n] else []), m.active = true := by
    intro c n hn m hm
    cases c with
    | true =>
      rw [if_pos rfl, List.mem_singleton] at hm
      rw [hm]
      exact hn
    | false => exact absurd hm (by simp)
  cases e with
  | diskIndexer ahci stack =>
    rcases diskIndexerService_cases hturn with ⟨-, rfl, -⟩ | ⟨-, rfl, -⟩ | ⟨-, rfl, -⟩
    · simp
    · simp [indexed, notice]
    · simp [indexingFailed, notice]
  | inputMonitor words =>
    cases hturn
    intro n hn
    rcases List.mem_append.mp hn with hn | hn
    · exact hone rfl n hn
    · exact hone rfl n hn
  | clipboardDaemon =>
    cases hturn
    exact hone rfl
  | usbPoll words =>
    cases hturn
    simp
  | clipboard c =>
    cases hturn
    simp
  | post title message priority =>
    cases hturn
    simp

/-- The posts of one of them after an event. -/
theorem postsOf_append (record : List (Poster × NotificationT)) (poster p : Poster) (posts : List NotificationT) :
    (record ++ posts.map fun n => (poster, n)).filterMap (fun e => if e.1 = p then some e.2 else none) =
      record.filterMap (fun e => if e.1 = p then some e.2 else none) ++ if poster = p then posts else [] := by
  rw [List.filterMap_append, List.filterMap_map]
  congr 1
  by_cases hp : poster = p
  · rw [if_pos hp]
    have hsame : ((fun e : Poster × NotificationT => if e.1 = p then some e.2 else none) ∘ fun n => (poster, n)) =
        some := funext fun n => if_pos hp
    rw [hsame, List.filterMap_some]
  · rw [if_neg hp]
    have hnone : ((fun e : Poster × NotificationT => if e.1 = p then some e.2 else none) ∘ fun n => (poster, n)) =
        fun _ => none := funext fun n => if_neg hp
    rw [hnone]
    exact List.filterMap_none posts

/-! ## The invariant -/

/-- What the input monitor has posted is what it remembers; it remembers devices that are in the table. -/
structure Monitored (s : State) (posts : List NotificationT) : Prop where
  inOrder : InOrder s.usb.hidDevices
  keyboard : s.hadKeyboard = true → usbHasKeyboard s.usb = true
  mouse : s.hadMouse = true → usbHasMouse s.usb = true
  order : s.hadMouse = true → s.hadKeyboard = true
  posts : posts = (if s.hadKeyboard then [keyboardDetected] else []) ++ (if s.hadMouse then [mouseDetected] else [])

theorem Monitored.turn {s : State} {posts : List NotificationT} (h : Monitored s posts) (words : Nat → UInt32) :
    Monitored (inputMonitorService words s).2 (posts ++ (inputMonitorService words s).1) := by
  have hkeyboard : s.hadKeyboard = true → usbHasKeyboard (usbPoll s.usb words) = true :=
    fun hk => h.inOrder.hasDevice_usbPoll words (h.keyboard hk)
  have hmouse : s.hadMouse = true → usbHasMouse (usbPoll s.usb words) = true :=
    fun hm => h.inOrder.hasDevice_usbPoll words (h.mouse hm)
  have hbehind := (h.inOrder.usbPoll words).1.keyboard_of_mouse
  refine ⟨(h.inOrder.usbPoll words).1, id, id, hbehind, ?_⟩
  rw [h.posts]
  show _ ++ ((if usbHasKeyboard (usbPoll s.usb words) && !s.hadKeyboard then [keyboardDetected] else []) ++
    (if usbHasMouse (usbPoll s.usb words) && !s.hadMouse then [mouseDetected] else [])) =
    (if usbHasKeyboard (usbPoll s.usb words) then [keyboardDetected] else []) ++
      (if usbHasMouse (usbPoll s.usb words) then [mouseDetected] else [])
  have horder := h.order
  -- by what was remembered and what is found now
  cases hk : s.hadKeyboard with
  | true =>
    rw [hkeyboard hk]
    cases hm : s.hadMouse with
    | true =>
      rw [hmouse hm]
      rfl
    | false =>
      cases usbHasMouse (usbPoll s.usb words) with
      | true => rfl
      | false => rfl
  | false =>
    cases hm : s.hadMouse with
    | true =>
      rw [horder hm] at hk
      exact absurd hk (by decide)
    | false =>
      cases usbHasKeyboard (usbPoll s.usb words) with
      | true =>
        cases usbHasMouse (usbPoll s.usb words) with
        | true => rfl
        | false => rfl
      | false =>
        cases usbHasMouse (usbPoll s.usb words) with
        | true => rfl
        | false => rfl

/-- A poll by the mouse driver. -/
theorem Monitored.usbPoll {s : State} {posts : List NotificationT} (h : Monitored s posts) (words : Nat → UInt32) :
    Monitored { s with usb := Usb.usbPoll s.usb words } posts :=
  ⟨(h.inOrder.usbPoll words).1, fun hk => h.inOrder.hasDevice_usbPoll words (h.keyboard hk),
    fun hm => h.inOrder.hasDevice_usbPoll words (h.mouse hm), h.order, h.posts⟩

/-- What the disk indexer has posted: failures, and a last notification once it is done. -/
def Indexed (s : State) (posts : List NotificationT) : Prop :=
  ∃ k, posts = List.replicate k indexingFailed ++ if s.diskIndexReady then [indexed] else []

theorem Indexed.turn {s s' : State} {posts new : List NotificationT} (h : Indexed s posts) {ahci : Fat32.Ahci}
    {stack : Nat → UInt8} {fuel : Nat} (hturn : diskIndexerService ahci stack fuel s = some (new, s')) :
    Indexed s' (posts ++ new) := by
  rcases h with ⟨k, hposts⟩
  rcases diskIndexerService_cases hturn with ⟨-, rfl, rfl⟩ | ⟨hready, rfl, files, rfl⟩ | ⟨hready, rfl, rfl⟩
  · refine ⟨k, ?_⟩
    rw [List.append_nil]
    exact hposts
  · rw [hready, if_neg (by decide), List.append_nil] at hposts
    exact ⟨k, by rw [hposts]; rfl⟩
  · rw [hready, if_neg (by decide), List.append_nil] at hposts
    refine ⟨k + 1, ?_⟩
    rw [hposts, hready, if_neg (by decide), List.append_nil, List.replicate_succ']

/-- Only the turns of the input monitor and the polls concern it. -/
theorem Monitored.event {s s' : State} {posts new : List NotificationT} (h : Monitored s posts) {fuel : Nat}
    {e : Event} (hturn : Services.turn fuel s e = some (new, s')) :
    Monitored s' (posts ++ if e.poster = .inputMonitor then new else []) := by
  cases e with
  | inputMonitor words =>
    cases hturn
    exact h.turn words
  | usbPoll words =>
    cases hturn
    show Monitored _ (posts ++ [])
    rw [List.append_nil]
    exact h.usbPoll words
  | diskIndexer ahci stack =>
    show Monitored s' (posts ++ [])
    rw [List.append_nil]
    rcases diskIndexerService_cases hturn with ⟨-, -, rfl⟩ | ⟨-, -, files, rfl⟩ | ⟨-, -, rfl⟩
    · exact h
    · exact ⟨h.inOrder, h.keyboard, h.mouse, h.order, h.posts⟩
    · exact h
  | clipboardDaemon =>
    cases hturn
    show Monitored _ (posts ++ [])
    rw [List.append_nil]
    exact ⟨h.inOrder, h.keyboard, h.mouse, h.order, h.posts⟩
  | clipboard c =>
    cases hturn
    show Monitored _ (posts ++ [])
    rw [List.append_nil]
    exact ⟨h.inOrder, h.keyboard, h.mouse, h.order, h.posts⟩
  | post title message priority =>
    cases hturn
    show Monitored s (posts ++ [])
    rw [List.append_nil]
    exact h

theorem Indexed.event {s s' : State} {posts new : List NotificationT} (h : Indexed s posts) {fuel : Nat}
    {e : Event} (hturn : Services.turn fuel s e = some (new, s')) :
    Indexed s' (posts ++ if e.poster = .diskIndexer then new else []) := by
  cases e with
  | diskIndexer ahci stack => exact h.turn hturn
  | inputMonitor words =>
    cases hturn
    show Indexed _ (posts ++ [])
    rw [List.append_nil]
    exact h
  | usbPoll words =>
    cases hturn
    show Indexed _ (posts ++ [])
    rw [List.append_nil]
    exact h
  | clipboardDaemon =>
    cases hturn
    show Indexed _ (posts ++ [])
    rw [List.append_nil]
    exact h
  | clipboard c =>
    cases hturn
    show Indexed _ (posts ++ [])
    rw [List.append_nil]
    exact h
  | post title message priority =>
    cases hturn
    show Indexed s (posts ++ [])
    rw [List.append_nil]
    exact h

structure Inv (h : History) : Prop where
  center : Holds h.center (h.record.map Prod.snd)
  welcome : ∃ rest, h.record = (.other, notice "Welcome" "System started" 0) :: rest
  monitored : Monitored h.services (h.postsOf .inputMonitor)
  indexed : Indexed h.services (h.postsOf .diskIndexer)

theorem inv_boot (disk : Fat32.State) (controller : Option Controller) (center : Center) :
    Inv (boot disk controller center) := by
  refine ⟨?_, ⟨[], rfl⟩, ?_, ⟨0, rfl⟩⟩
  · exact (holds_start center).post (chars "Welcome") (chars "System started") 0
  · exact ⟨inOrder_boot controller, fun h => absurd h Bool.false_ne_true, fun h => absurd h Bool.false_ne_true,
      fun h => absurd h Bool.false_ne_true, rfl⟩

theorem Inv.step {fuel : Nat} {h h' : History} {e : Event} (hinv : Inv h) (hstep : step fuel h e = some h') :
    Inv h' := by
  unfold Services.step at hstep
  rw [Option.map_eq_some_iff] at hstep
  rcases hstep with ⟨⟨posts, s'⟩, hturn, rfl⟩
  have hof : ∀ p, History.postsOf ⟨s', postAll posts h.center, h.record ++ posts.map fun n => (e.poster, n)⟩ p =
      h.postsOf p ++ if e.poster = p then posts else [] := fun p => postsOf_append h.record e.poster p posts
  refine ⟨?_, ?_, ?_, ?_⟩
  · show Holds (postAll posts h.center) ((h.record ++ posts.map fun n => (e.poster, n)).map Prod.snd)
    rw [List.map_append, List.map_map]
    have hsame : (Prod.snd ∘ fun n : NotificationT => (e.poster, n)) = id := rfl
    rw [hsame, List.map_id]
    exact Holds.postAll hinv.center (turn_active hturn)
  · rcases hinv.welcome with ⟨rest, hrecord⟩
    exact ⟨rest ++ posts.map fun n => (e.poster, n), by rw [hrecord]; rfl⟩
  · rw [hof]
    exact hinv.monitored.event hturn
  · rw [hof]
    exact hinv.indexed.event hturn

/-! ## Every run -/

/-- The turns of the disk indexer in a run. -/
def indexerTurns (events : List Event) : Nat := (events.filter fun e => e.poster = .diskIndexer).length

theorem indexerTurns_cons (e : Event) (events : List Event) :
    indexerTurns (e :: events) = indexerTurns [e] + indexerTurns events := by
  unfold indexerTurns
  rw [← List.length_append, ← List.filter_append, List.singleton_append]

/-- Until the root directory is listed, every turn of the disk indexer posts a notification. -/
theorem postsOf_unindexed {fuel : Nat} {events : List Event} {h h' : History}
    (hrun : exec (step fuel) h events = some h') (hready : h'.services.diskIndexReady = false) :
    h.services.diskIndexReady = false ∧
      (h'.postsOf .diskIndexer).length = (h.postsOf .diskIndexer).length + indexerTurns events := by
  induction events generalizing h with
  | nil =>
    rw [exec_nil, Option.some.injEq] at hrun
    subst hrun
    exact ⟨hready, rfl⟩
  | cons e events ih =>
    rw [exec, Option.bind_eq_some_iff] at hrun
    rcases hrun with ⟨h₁, hstep, hrest⟩
    rcases ih hrest with ⟨hready₁, hlength⟩
    unfold step at hstep
    rw [Option.map_eq_some_iff] at hstep
    rcases hstep with ⟨⟨posts, s'⟩, hturn, rfl⟩
    have hof := postsOf_append h.record e.poster .diskIndexer posts
    change History.postsOf ⟨s', postAll posts h.center, h.record ++ posts.map fun n => (e.poster, n)⟩ .diskIndexer =
      h.postsOf .diskIndexer ++ _ at hof
    rw [hof, List.length_append] at hlength
    have hcount : h.services.diskIndexReady = false ∧
        (if e.poster = .diskIndexer then posts else []).length = indexerTurns [e] := by
      cases e with
      | diskIndexer ahci stack =>
        rcases diskIndexerService_cases hturn with ⟨hdone, -, rfl⟩ | ⟨-, -, files, rfl⟩ | ⟨hnot, rfl, -⟩
        · exact absurd (hready₁.symm.trans hdone) (by decide)
        · exact absurd (show true = false from hready₁) (by decide)
        · exact ⟨hnot, rfl⟩
      | inputMonitor words =>
        cases hturn
        exact ⟨hready₁, rfl⟩
      | usbPoll words =>
        cases hturn
        exact ⟨hready₁, rfl⟩
      | clipboardDaemon =>
        cases hturn
        exact ⟨hready₁, rfl⟩
      | clipboard c =>
        cases hturn
        exact ⟨hready₁, rfl⟩
      | post title message priority =>
        cases hturn
        exact ⟨hready₁, rfl⟩
    refine ⟨hcount.1, ?_⟩
    rw [hlength, hcount.2, indexerTurns_cons e events, Nat.add_assoc]

/-- **The first sixteen notifications.** In every interleaving of the turns of the three services and of
the calls of other tasks, with any disk, any port status words and any clipboard contents at each of them:
the center holds the first sixteen notifications that were posted; the input monitor has posted one for the
first device and one for the second, if it has seen them, and no more; the disk indexer has posted its
failures and then, if it is done, one notification; as long as it is not done each of its turns is such a
failure, and after fifteen of them nothing that is posted is kept. -/
theorem first_sixteen_are_kept (disk : Fat32.State) (controller : Option Controller) (center : Center)
    (fuel : Nat) (events : List Event) (h : History)
    (hrun : exec (step fuel) (boot disk controller center) events = some h) :
    Holds h.center (h.record.map Prod.snd) ∧
      h.postsOf .inputMonitor = (if h.services.hadKeyboard then [keyboardDetected] else []) ++
        (if h.services.hadMouse then [mouseDetected] else []) ∧
      (∃ k, h.postsOf .diskIndexer =
          List.replicate k indexingFailed ++ (if h.services.diskIndexReady then [indexed] else []) ∧
        (h.services.diskIndexReady = false → k = indexerTurns events ∧
          (15 ≤ k → ∀ title message priority, notificationPost title message priority h.center = h.center))) := by
  have hinv : Inv h := exec_preserves Inv (fun _ _ _ hinv hstep => hinv.step hstep) (inv_boot disk controller center) hrun
  rcases hinv.indexed with ⟨k, hposts⟩
  refine ⟨hinv.center, hinv.monitored.posts, k, hposts, ?_⟩
  intro hready
  have hturns := (postsOf_unindexed hrun hready).2
  rw [hready, if_neg (by decide), List.append_nil] at hposts
  rw [hposts, List.length_replicate] at hturns
  have hk : k = indexerTurns events := hturns.trans (Nat.zero_add _)
  refine ⟨hk, ?_⟩
  intro hmany title message priority
  -- the notification of the boot and the failures fill the center
  rcases hinv.welcome with ⟨rest, hrecord⟩
  have hrest : (rest.filterMap fun e => if e.1 = Poster.diskIndexer then some e.2 else none).length = k := by
    have hlength := congrArg List.length hposts
    rw [List.length_replicate, History.postsOf, hrecord] at hlength
    exact hlength
  have hle : k ≤ rest.length := by
    rw [← hrest]
    exact List.length_filterMap_le _ _
  have hfull : h.center.notificationCount ≥ maxNotifications := by
    rw [hinv.center.count, List.length_map, hrecord, List.length_cons]
    exact le_min (le_refl _) (by show 16 ≤ _; omega)
  rw [notificationPost, if_pos hfull]

/-- Without a disk and a controller, a turn of the disk indexer and one of the input monitor. -/
theorem first_sixteen_are_kept_no_disk :
    ∃ h, exec (step 0) (boot Fat32.initialState none ⟨fun _ => indexed, 0, false⟩)
        [.diskIndexer (fun _ _ => none) (fun _ => 0), .inputMonitor fun _ => 0] = some h ∧
      Holds h.center (h.record.map Prod.snd) :=
  ⟨_, rfl, (first_sixteen_are_kept Fat32.initialState none ⟨fun _ => indexed, 0, false⟩ 0
    [.diskIndexer (fun _ _ => none) (fun _ => 0), .inputMonitor fun _ => 0] _ rfl).1⟩

end CosKernel.Services
