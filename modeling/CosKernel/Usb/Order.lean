import CosKernel.Usb.Model

/-!
# The order of the device table

A device is entered in the first free entry and never taken out. So the entries in use are the first
ones, and there is a mouse only behind a keyboard.
-/

namespace CosKernel.Usb

/-- The entries are taken from the first on, the first one for a keyboard and the others for mice. -/
structure InOrder (devices : Table) : Prop where
  before : ∀ i, (devices i).attached = true → ∀ j < i, (devices j).attached = true
  type : ∀ i, (devices i).attached = true → (devices i).type = if i.val = 0 then .keyboard else .mouse

theorem findFree_first {devices : Table} {i : Fin maxHidDevices} (h : findFree devices = some i) :
    (devices i).attached = false ∧ ∀ j < i, (devices j).attached = true := by
  unfold findFree at h
  rw [List.find?_eq_some_iff_getElem] at h
  rcases h with ⟨hfree, k, hk, hget, hbefore⟩
  rw [List.getElem_finRange] at hget
  refine ⟨by simpa using hfree, ?_⟩
  intro j hj
  have hlt : j.val < k := by
    have hval := congrArg Fin.val hget
    have hcast : k = i.val := by simpa using hval
    rw [hcast]
    exact hj
  have hattached := hbefore j.val hlt
  rw [List.getElem_finRange] at hattached
  simpa using hattached

/-- A device is entered behind the others, or nothing changes. -/
theorem InOrder.attachPort {devices : Table} (h : InOrder devices) (port : Nat) :
    InOrder (attachPort devices port) ∧
      ∀ i, (devices i).attached = true → (Usb.attachPort devices port i).attached = true := by
  cases hex : findExisting devices port with
  | some _ =>
    have hsame : Usb.attachPort devices port = devices := by rw [Usb.attachPort, hex]
    rw [hsame]
    exact ⟨h, fun _ hi => hi⟩
  | none =>
    cases hfree : findFree devices with
    | none =>
      have hsame : Usb.attachPort devices port = devices := by rw [Usb.attachPort, hex, hfree]
      rw [hsame]
      exact ⟨h, fun _ hi => hi⟩
    | some e =>
      rcases findFree_first hfree with ⟨hnot, hbefore⟩
      have henter : Usb.attachPort devices port = Function.update devices e (newDevice e port) := by
        rw [Usb.attachPort, hex, hfree]
      rw [henter]
      have hattached : ∀ i, (Function.update devices e (newDevice e port) i).attached = true ↔
          i = e ∨ (devices i).attached = true := by
        intro i
        by_cases hie : i = e
        · subst hie
          rw [Function.update_self]
          exact iff_of_true rfl (Or.inl rfl)
        · rw [Function.update_of_ne hie]
          exact ⟨Or.inr, fun hi => hi.resolve_left hie⟩
      refine ⟨⟨?_, ?_⟩, fun i hi => (hattached i).2 (Or.inr hi)⟩
      · intro i hi j hj
        rw [hattached] at hi ⊢
        rcases hi with rfl | hi
        · exact Or.inr (hbefore j hj)
        · exact Or.inr (h.before i hi j hj)
      · intro i hi
        by_cases hie : i = e
        · subst hie
          rw [Function.update_self]
          rfl
        · rw [Function.update_of_ne hie]
          exact h.type i (((hattached i).1 hi).resolve_left hie)

theorem InOrder.pollPorts {devices : Table} (h : InOrder devices) (words : Nat → UInt32) (ps : List Nat)
    (found : Bool) :
    InOrder (ps.foldl (pollPort words) (devices, found)).1 ∧
      ∀ i, (devices i).attached = true → ((ps.foldl (pollPort words) (devices, found)).1 i).attached = true := by
  induction ps generalizing devices found with
  | nil => exact ⟨h, fun _ hi => hi⟩
  | cons port ps ih =>
    rw [List.foldl_cons]
    unfold pollPort
    split
    · exact ih h found
    · rcases h.attachPort port with ⟨hnext, hstays⟩
      rcases ih hnext true with ⟨hlast, hrest⟩
      exact ⟨hlast, fun i hi => hrest i (hstays i hi)⟩

/-- A poll takes no device out. -/
theorem InOrder.usbPoll {s : UsbState} (h : InOrder s.hidDevices) (words : Nat → UInt32) :
    InOrder (usbPoll s words).hidDevices ∧
      ∀ i, (s.hidDevices i).attached = true → ((Usb.usbPoll s words).hidDevices i).attached = true := by
  unfold Usb.usbPoll usbPollHidDevices
  split
  · exact ⟨h, fun _ hi => hi⟩
  · split
    · exact ⟨h, fun _ hi => hi⟩
    · exact h.pollPorts words (ports s) false

theorem inOrder_boot (controller : Option Controller) : InOrder (boot controller).hidDevices := by
  have hnone : ∀ i, ((boot controller).hidDevices i).attached = false := by
    intro i
    unfold boot usbInitialize
    split
    · rfl
    · split
      · rfl
      · rfl
  refine ⟨?_, ?_⟩
  · intro i hi
    rw [hnone] at hi
    exact absurd hi Bool.false_ne_true
  · intro i hi
    rw [hnone] at hi
    exact absurd hi Bool.false_ne_true

theorem hasDevice_iff {s : UsbState} (type : HidType) :
    hasDevice type s = true ↔ ∃ i, (s.hidDevices i).attached = true ∧ (s.hidDevices i).type = type := by
  unfold hasDevice
  simp only [List.any_eq_true, List.mem_finRange, true_and, Bool.and_eq_true, decide_eq_true_eq]

theorem InOrder.first {devices : Table} (h : InOrder devices) {i : Fin maxHidDevices}
    (hattached : (devices i).attached = true) : (devices 0).attached = true := by
  by_cases hzero : i = 0
  · rw [← hzero]
    exact hattached
  · exact h.before i hattached 0 (Fin.pos_of_ne_zero hzero)

theorem InOrder.hasKeyboard_iff {s : UsbState} (h : InOrder s.hidDevices) :
    usbHasKeyboard s = true ↔ (s.hidDevices 0).attached = true := by
  unfold usbHasKeyboard
  rw [hasDevice_iff]
  constructor
  · rintro ⟨i, hattached, -⟩
    exact h.first hattached
  · intro hattached
    exact ⟨0, hattached, h.type 0 hattached⟩

/-- There is a mouse only behind a keyboard. -/
theorem InOrder.keyboard_of_mouse {s : UsbState} (h : InOrder s.hidDevices) (hmouse : usbHasMouse s = true) :
    usbHasKeyboard s = true := by
  unfold usbHasMouse at hmouse
  rw [hasDevice_iff] at hmouse
  rcases hmouse with ⟨i, hattached, -⟩
  exact h.hasKeyboard_iff.2 (h.first hattached)

/-- What was found is found again. -/
theorem InOrder.hasDevice_usbPoll {s : UsbState} (h : InOrder s.hidDevices) (words : Nat → UInt32) {type : HidType}
    (hhas : hasDevice type s = true) : hasDevice type (Usb.usbPoll s words) = true := by
  rw [hasDevice_iff] at hhas ⊢
  rcases hhas with ⟨i, hattached, htype⟩
  rcases h.usbPoll words with ⟨hnext, hstays⟩
  refine ⟨i, hstays i hattached, ?_⟩
  rw [hnext.type i (hstays i hattached), ← h.type i hattached]
  exact htype

end CosKernel.Usb
