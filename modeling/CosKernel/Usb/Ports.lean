import CosKernel.Usb.Model

/-!
# The device table and the ports

A poll enters every port with a device, as long as an entry is free, and never
enters one twice. It never takes an entry out either: nothing clears `attached`.
So the table follows the ports exactly as long as no port that has an entry loses
its device (`StillPlugged`).
-/

namespace CosKernel.Usb

open Run

/-- The port is one of the controller's, and has a device on it that is enabled. -/
def Plugged (s : UsbState) (words : Nat → UInt32) (port : Nat) : Prop :=
  port ∈ ports s ∧ connected (words port) ∧ enabled (words port)

instance (s : UsbState) (words : Nat → UInt32) : DecidablePred (Plugged s words) := fun port =>
  inferInstanceAs (Decidable (port ∈ ports s ∧ connected (words port) ∧ enabled (words port)))

/-- The port has an entry. -/
def Has (devices : Table) (port : Nat) : Prop :=
  ∃ i, (devices i).attached = true ∧ (devices i).address.toNat = port + 1

/-- No two entries in use have the same address. -/
def Unique (devices : Table) : Prop :=
  ∀ i j, (devices i).attached = true → (devices j).attached = true →
    (devices i).address = (devices j).address → i = j

/-- The table follows the ports. -/
structure Follows (s : UsbState) (words : Nat → UInt32) : Prop where
  unique : Unique s.hidDevices
  plugged : ∀ i, (s.hidDevices i).attached = true →
    ∃ port, Plugged s words port ∧ (s.hidDevices i).address.toNat = port + 1
  covered : ((ports s).filter fun port => decide (Plugged s words port)).length ≤ maxHidDevices →
    ∀ port, Plugged s words port → Has s.hidDevices port

/-- No port with an entry has lost its device. -/
def StillPlugged (s : UsbState) (words : Nat → UInt32) : Prop :=
  ∀ i, (s.hidDevices i).attached = true →
    ∃ port, Plugged s words port ∧ (s.hidDevices i).address.toNat = port + 1

/-! ## One port -/

theorem findExisting_none {devices : Table} {port : Nat} (h : findExisting devices port = none) :
    ¬ Has devices port := by
  rintro ⟨i, hatt, haddr⟩
  unfold findExisting at h
  rw [List.find?_eq_none] at h
  have hi := h i (List.mem_finRange i)
  simp [hatt, haddr] at hi

theorem findExisting_some {devices : Table} {port : Nat} {i : Fin maxHidDevices}
    (h : findExisting devices port = some i) : Has devices port := by
  have hprop := List.find?_some h
  rw [Bool.and_eq_true, decide_eq_true_eq] at hprop
  exact ⟨i, hprop⟩

/-- The address of a port of the controller fits in the field. -/
theorem newDevice_address (i : Fin maxHidDevices) {port : Nat} (hport : port < 255) :
    (newDevice i port).address.toNat = port + 1 := by
  show (UInt8.ofNat (port + 1)).toNat = port + 1
  rw [UInt8.toNat_ofNat']
  omega

/-- What the loop body does for a port with a device: it leaves the table, or fills in one of the
free entries. -/
theorem attachPort_cases (devices : Table) (port : Nat) :
    (Has devices port ∧ attachPort devices port = devices) ∨
    (¬ Has devices port ∧ ∃ i, (devices i).attached = false ∧
      attachPort devices port = Function.update devices i (newDevice i port)) ∨
    (¬ Has devices port ∧ (∀ i, (devices i).attached = true) ∧ attachPort devices port = devices) := by
  unfold attachPort
  rcases hex : findExisting devices port with _ | e
  swap
  · exact Or.inl ⟨findExisting_some hex, rfl⟩
  right
  rcases hfree : findFree devices with _ | i
  · right
    refine ⟨findExisting_none hex, ?_, rfl⟩
    intro i
    unfold findFree at hfree
    rw [List.find?_eq_none] at hfree
    simpa using hfree i (List.mem_finRange i)
  · left
    have hprop := List.find?_some hfree
    exact ⟨findExisting_none hex, i, by simpa using hprop, rfl⟩

/-- What a stretch of the loop does: entries stay as they are, a new one is for a port of the
stretch with a device, and such a port is entered unless the table is full. -/
structure Advances (devices devices' : Table) (new : Nat → Prop) : Prop where
  stays : ∀ i, (devices i).attached = true → devices' i = devices i
  adds : ∀ i, (devices' i).attached = true →
    (devices i).attached = true ∨ ∃ port, new port ∧ (devices' i).address.toNat = port + 1
  unique : Unique devices → Unique devices'
  enters : ∀ port, new port → Has devices' port ∨ ∀ i, (devices' i).attached = true

namespace Advances

variable {d d₁ d₂ : Table} {new new' : Nat → Prop}

theorem keeps (h : Advances d d₁ new) {port : Nat} : Has d port → Has d₁ port := by
  rintro ⟨i, hatt, haddr⟩
  refine ⟨i, ?_⟩
  rw [h.stays i hatt]
  exact ⟨hatt, haddr⟩

theorem full (h : Advances d d₁ new) (hfull : ∀ i, (d i).attached = true) (i : Fin maxHidDevices) :
    (d₁ i).attached = true := by
  rw [h.stays i (hfull i)]
  exact hfull i

theorem refl (d : Table) : Advances d d fun _ => False where
  stays := fun _ _ => rfl
  adds := fun _ h => Or.inl h
  unique := fun h => h
  enters := fun _ h => absurd h id

theorem trans (h₁ : Advances d d₁ new) (h₂ : Advances d₁ d₂ new') :
    Advances d d₂ fun port => new port ∨ new' port where
  stays := by
    intro i hi
    rw [h₂.stays i (by rw [h₁.stays i hi]; exact hi), h₁.stays i hi]
  adds := by
    intro i hi
    rcases h₂.adds i hi with hi₁ | ⟨port, hnew, haddr⟩
    · rcases h₁.adds i hi₁ with hi₀ | ⟨port, hnew, haddr⟩
      · exact Or.inl hi₀
      · refine Or.inr ⟨port, Or.inl hnew, ?_⟩
        rw [h₂.stays i hi₁]
        exact haddr
    · exact Or.inr ⟨port, Or.inr hnew, haddr⟩
  unique := fun h => h₂.unique (h₁.unique h)
  enters := by
    rintro port (hnew | hnew)
    · rcases h₁.enters port hnew with hhas | hfull
      · exact Or.inl (h₂.keeps hhas)
      · exact Or.inr (h₂.full hfull)
    · exact h₂.enters port hnew

theorem congr (h : Advances d d₁ new) (hnew : ∀ port, new port ↔ new' port) :
    Advances d d₁ new' := by
  obtain rfl : new = new' := funext fun port => propext (hnew port)
  exact h

end Advances

/-- A device on a free port is entered, or the table is full. -/
theorem attachPort_advances (devices : Table) {port : Nat} (hport : port < 255) :
    Advances devices (attachPort devices port) fun p => p = port := by
  rcases attachPort_cases devices port with ⟨hhas, heq⟩ | ⟨hnew, i, hfree, heq⟩ | ⟨-, hfull, heq⟩
  · -- the port was entered at an earlier poll
    rw [heq]
    refine ⟨fun _ _ => rfl, fun _ h => Or.inl h, fun h => h, ?_⟩
    rintro p rfl
    exact Or.inl hhas
  · -- a free entry is filled in, and all that are in use are others
    rw [heq]
    have haddr := newDevice_address i hport
    have hne : ∀ j, (devices j).attached = true → j ≠ i := by
      rintro j hj rfl
      rw [hfree] at hj
      cases hj
    refine ⟨?_, ?_, ?_, ?_⟩
    · intro j hj
      exact Function.update_of_ne (hne j hj) _ _
    · intro j hj
      by_cases hji : j = i
      · right
        rw [hji, Function.update_self]
        exact ⟨port, rfl, haddr⟩
      · left
        rw [Function.update_of_ne hji] at hj
        exact hj
    · -- a new address is not that of any entry
      intro huniq j k hj hk hjk
      by_cases hji : j = i
      · by_cases hki : k = i
        · rw [hji, hki]
        · rw [hji, Function.update_self, Function.update_of_ne hki] at hjk
          rw [Function.update_of_ne hki] at hk
          exact absurd ⟨k, hk, hjk ▸ haddr⟩ hnew
      · by_cases hki : k = i
        · rw [hki, Function.update_self, Function.update_of_ne hji] at hjk
          rw [Function.update_of_ne hji] at hj
          exact absurd ⟨j, hj, hjk ▸ haddr⟩ hnew
        · rw [Function.update_of_ne hji] at hj hjk
          rw [Function.update_of_ne hki] at hk hjk
          exact huniq j k hj hk hjk
    · rintro p rfl
      refine Or.inl ⟨i, ?_⟩
      rw [Function.update_self]
      exact ⟨rfl, haddr⟩
  · -- no entry is free: the device is left out
    rw [heq]
    exact ⟨fun _ _ => rfl, fun _ h => Or.inl h, fun h => h, fun _ _ => Or.inr hfull⟩

/-! ## One poll -/

/-- The loop over a list of ports. -/
theorem pollPorts_advances (words : Nat → UInt32) (ps : List Nat) (hps : ∀ port ∈ ps, port < 255)
    (r : Table × Bool) :
    Advances r.1 (ps.foldl (pollPort words) r).1 fun port =>
      port ∈ ps ∧ connected (words port) ∧ enabled (words port) := by
  induction ps generalizing r with
  | nil => exact (Advances.refl r.1).congr (by simp)
  | cons port ps ih =>
    have hrest := ih (fun p hp => hps p (List.mem_cons_of_mem _ hp)) (pollPort words r port)
    rw [List.foldl_cons]
    unfold pollPort at hrest ⊢
    by_cases hskip : (!connected (words port) || !enabled (words port)) = true
    · -- nothing on this port
      simp only [hskip, if_true] at hrest ⊢
      apply hrest.congr
      intro p
      constructor
      · rintro ⟨hp, hc, he⟩
        exact ⟨List.mem_cons_of_mem _ hp, hc, he⟩
      · rintro ⟨hp, hc, he⟩
        rcases List.mem_cons.1 hp with rfl | hp
        · simp [hc, he] at hskip
        · exact ⟨hp, hc, he⟩
    · -- this port first, then the others
      simp only [hskip] at hrest ⊢
      have hon : connected (words port) ∧ enabled (words port) := by
        simpa using hskip
      apply ((attachPort_advances r.1 (hps port List.mem_cons_self)).trans hrest).congr
      intro p
      constructor
      · rintro (rfl | ⟨hp, hc, he⟩)
        · exact ⟨List.mem_cons_self, hon⟩
        · exact ⟨List.mem_cons_of_mem _ hp, hc, he⟩
      · rintro ⟨hp, hc, he⟩
        rcases List.mem_cons.1 hp with rfl | hp
        · exact Or.inl rfl
        · exact Or.inr ⟨hp, hc, he⟩

/-- The driver between polls: it has ports only once the controller is set up, at most 255, and
no address is in the table twice. -/
structure Inv (s : UsbState) : Prop where
  unready : (!s.xhciReady || !s.xhciPorts) = true → s.maxPorts = 0
  count : s.maxPorts.toNat ≤ 255
  unique : Unique s.hidDevices

theorem boot_inv (controller : Option Controller) : Inv (boot controller) := by
  have hnone : Unique bss.hidDevices := by
    intro i j hi
    cases hi
  have hbss : Inv bss := ⟨fun _ => rfl, by decide, hnone⟩
  cases controller with
  | none => exact hbss
  | some c =>
    unfold boot usbInitialize
    by_cases hbar : c.bar0 = 0
    · simp only [hbar, if_true]
      exact hbss
    · simp only [hbar, if_false]
      refine ⟨by simp, ?_, hnone⟩
      show (c.hcsParams1 &&& 0xFF).toNat ≤ 255
      rw [UInt32.toNat_and]
      exact Nat.and_le_right

/-- A poll enters the ports with a device, and changes nothing but the table. -/
theorem usbPoll_advances {s : UsbState} (hinv : Inv s) (words : Nat → UInt32) :
    Advances s.hidDevices (usbPoll s words).hidDevices (Plugged s words) ∧
      (usbPoll s words).xhciReady = s.xhciReady ∧ (usbPoll s words).xhciPorts = s.xhciPorts ∧
      (usbPoll s words).maxPorts = s.maxPorts := by
  by_cases hoff : (!s.xhciReady || !s.xhciPorts) = true
  · -- without a controller there are no ports
    have hsame : usbPoll s words = s := by
      unfold usbPoll usbPollHidDevices
      simp [hoff]
    rw [hsame]
    refine ⟨(Advances.refl _).congr ?_, rfl, rfl, rfl⟩
    intro port
    simp [Plugged, ports, hinv.unready hoff]
  · have hon : s.xhciReady = true ∧ s.xhciPorts = true := by simpa using hoff
    have hpoll : usbPoll s words =
        { s with hidDevices := ((ports s).foldl (pollPort words) (s.hidDevices, false)).1 } := by
      unfold usbPoll usbPollHidDevices
      simp [hon]
    rw [hpoll]
    refine ⟨?_, rfl, rfl, rfl⟩
    apply pollPorts_advances words (ports s) _ (s.hidDevices, false)
    intro port hport
    have hcount := hinv.count
    rw [ports, List.mem_range] at hport
    omega

theorem usbPoll_inv {s : UsbState} (hinv : Inv s) (words : Nat → UInt32) :
    Inv (usbPoll s words) := by
  rcases usbPoll_advances hinv words with ⟨hadv, hready, hports, hmax⟩
  refine ⟨?_, ?_, hadv.unique hinv.unique⟩
  · rw [hready, hports, hmax]
    exact hinv.unready
  · rw [hmax]
    exact hinv.count

/-- The ports a poll goes through do not change. -/
theorem plugged_usbPoll {s : UsbState} (hinv : Inv s) (words words' : Nat → UInt32) (port : Nat) :
    Plugged (usbPoll s words) words' port ↔ Plugged s words' port := by
  have hmax := (usbPoll_advances hinv words).2.2.2
  unfold Plugged ports
  rw [hmax]

/-- A full table whose entries are all ports with a device leaves out none, if there are not
more such ports than entries. -/
theorem has_of_full {devices : Table} (huniq : Unique devices) {plugged : List Nat}
    (hlen : plugged.length ≤ maxHidDevices)
    (hplugged : ∀ i, ∃ port ∈ plugged, (devices i).address.toNat = port + 1)
    (hfull : ∀ i, (devices i).attached = true) {port : Nat} (hport : port ∈ plugged) :
    Has devices port := by
  by_contra hnot
  -- the four addresses are different, and all of them are among the other ports
  have hinj : Function.Injective fun i => (devices i).address.toNat := by
    intro i j hij
    exact huniq i j (hfull i) (hfull j) (UInt8.toNat_inj.1 hij)
  have hsub : Finset.univ.image (fun i => (devices i).address.toNat) ⊆
      (plugged.toFinset.erase port).image (· + 1) := by
    intro a ha
    rcases Finset.mem_image.1 ha with ⟨i, -, rfl⟩
    rcases hplugged i with ⟨p, hp, haddr⟩
    refine Finset.mem_image.2 ⟨p, Finset.mem_erase.2 ⟨?_, List.mem_toFinset.2 hp⟩, haddr.symm⟩
    rintro rfl
    exact hnot ⟨i, hfull i, haddr⟩
  have hcard := (Finset.card_le_card hsub).trans Finset.card_image_le
  rw [Finset.card_image_of_injective _ hinj, Finset.card_erase_of_mem (List.mem_toFinset.2 hport),
    Finset.card_univ, Fintype.card_fin] at hcard
  have hle := List.toFinset_card_le plugged
  have hfour : maxHidDevices = 4 := rfl
  omega

/-- A poll leaves a table that follows the ports iff no port with an entry lost its device. -/
theorem follows_usbPoll_iff {s : UsbState} (hinv : Inv s) (words : Nat → UInt32) :
    Follows (usbPoll s words) words ↔ StillPlugged s words := by
  have hadv := (usbPoll_advances hinv words).1
  have hiff := plugged_usbPoll hinv words words
  constructor
  · -- the entry is still there after the poll, so its port must have a device
    intro hfollows i hi
    have hstays := hadv.stays i hi
    rcases hfollows.plugged i (by rw [hstays]; exact hi) with ⟨port, hport, haddr⟩
    rw [hstays] at haddr
    exact ⟨port, (hiff port).1 hport, haddr⟩
  · intro hstill
    have hplugged : ∀ i, ((usbPoll s words).hidDevices i).attached = true →
        ∃ port, Plugged (usbPoll s words) words port ∧
          ((usbPoll s words).hidDevices i).address.toNat = port + 1 := by
      intro i hi
      rcases hadv.adds i hi with hold | ⟨port, hnew, haddr⟩
      · rcases hstill i hold with ⟨port, hport, haddr⟩
        rw [hadv.stays i hold]
        exact ⟨port, (hiff port).2 hport, haddr⟩
      · exact ⟨port, (hiff port).2 hnew, haddr⟩
    refine ⟨hadv.unique hinv.unique, hplugged, ?_⟩
    -- a port that was left out found the table full
    intro hlen port hport
    rcases hadv.enters port ((hiff port).1 hport) with hhas | hfull
    · exact hhas
    · apply has_of_full (hadv.unique hinv.unique) hlen _ hfull
      · exact List.mem_filter.2 ⟨hport.1, decide_eq_true hport⟩
      · intro i
        rcases hplugged i (hfull i) with ⟨p, hp, haddr⟩
        exact ⟨p, List.mem_filter.2 ⟨hp.1, decide_eq_true hp⟩, haddr⟩

/-! ## Every sequence of polls -/

/-- For whatever the ports say at each poll of a run, the table follows them after every poll iff
no poll finds a port that has an entry without its device. -/
theorem table_follows_ports_iff (controller : Option Controller) (polls : List (Nat → UInt32)) :
    Each usbPoll (fun s words => Follows (usbPoll s words) words) (boot controller) polls ↔
      Each usbPoll StillPlugged (boot controller) polls := by
  constructor
  · apply Each.mono Inv (fun s words hinv _ => usbPoll_inv hinv words) _ (boot_inv controller)
    intro s words hinv hfollows
    exact (follows_usbPoll_iff hinv words).1 hfollows
  · apply Each.mono Inv (fun s words hinv _ => usbPoll_inv hinv words) _ (boot_inv controller)
    intro s words hinv hstill
    exact (follows_usbPoll_iff hinv words).2 hstill

/-- A controller with eight ports. -/
def eightPorts : Controller := ⟨0xFEB00000, 8⟩

/-- Status words with a device on this port only, connected and enabled. -/
def onlyOn (port : Nat) : Nat → UInt32 := fun p => if p = port then 3 else 0

/-- A device is moved from port 0 to port 1: port 0 keeps its entry. -/
theorem moved_device_leaves_entry :
    ((usbPoll (usbPoll (boot (some eightPorts)) (onlyOn 0)) (onlyOn 1)).hidDevices 0).attached =
        true ∧
      ((usbPoll (usbPoll (boot (some eightPorts)) (onlyOn 0)) (onlyOn 1)).hidDevices 0).address =
        1 ∧
      ¬ Each usbPoll (fun s words => Follows (usbPoll s words) words) (boot (some eightPorts))
        [onlyOn 0, onlyOn 1] := by
  have hatt : ((usbPoll (usbPoll (boot (some eightPorts)) (onlyOn 0)) (onlyOn 1)).hidDevices
      0).attached = true := by decide +kernel
  have haddr : ((usbPoll (usbPoll (boot (some eightPorts)) (onlyOn 0)) (onlyOn 1)).hidDevices
      0).address = 1 := by decide +kernel
  refine ⟨hatt, haddr, ?_⟩
  intro heach
  rcases heach.2.1.plugged 0 hatt with ⟨port, hport, hp⟩
  rw [haddr] at hp
  obtain rfl : port = 0 := by
    have hone : (1 : UInt8).toNat = 1 := rfl
    omega
  exact absurd hport.2.1 (by decide)

/-! ## What the input monitor is told -/

/-- A device that was seen once is reported for good: `usb_has_keyboard` and `usb_has_mouse` never
go back to false, whatever is unplugged. -/
theorem hasDevice_stays (type : HidType) {s : UsbState} (hinv : Inv s)
    (polls : List (Nat → UInt32)) (h : hasDevice type s = true) :
    hasDevice type (polls.foldl usbPoll s) = true := by
  have hstep : ∀ s words, Inv s ∧ hasDevice type s = true →
      Inv (usbPoll s words) ∧ hasDevice type (usbPoll s words) = true := by
    rintro s words ⟨hinv, h⟩
    refine ⟨usbPoll_inv hinv words, ?_⟩
    have hadv := (usbPoll_advances hinv words).1
    unfold hasDevice at h ⊢
    rcases List.any_eq_true.1 h with ⟨i, hi, htype⟩
    have hatt := (Bool.and_eq_true _ _ ▸ htype).1
    refine List.any_eq_true.2 ⟨i, hi, ?_⟩
    rw [hadv.stays i hatt]
    exact htype
  exact (foldl_invariant (fun s => Inv s ∧ hasDevice type s = true) hstep ⟨hinv, h⟩ polls).2

end CosKernel.Usb
