import Mathlib

/-!
# A pair of 8259 interrupt controllers

Each controller has eight lines, of which a lower one comes first, and the second
one reports to line 2 of the first. A controller is set up by four words; what
belongs to polling, rotation and the special modes is left out.

To the processor the pair is one set of requested lines (`order` is their order):
an acknowledge takes the first of them, and between it and the ends of interrupt the
line is in service, alone (`Serving`). Lines may be raised and lowered at any time.
-/

namespace CosKernel.Pic8259

/-! ## One controller -/

/-- The word a controller waits for. -/
inductive Phase where
  | ready
  | icw2
  | icw3
  | icw4
deriving DecidableEq, Repr

/-- A controller. `cascade` is the third word: the lines with another controller behind them or, of
the other controller, its line. -/
structure Chip where
  phase : Phase
  single : Bool
  needsIcw4 : Bool
  base : UInt8
  cascade : UInt8
  autoEoi : Bool
  mask : UInt8
  requested : Fin 8 → Bool
  inService : Fin 8 → Bool

/-- No line. -/
def nothing : Fin 8 → Bool := fun _ => false

/-- One line. -/
def only (i : Fin 8) : Fin 8 → Bool := fun j => decide (j = i)

/-- The first of some lines. -/
def first (lines : Fin 8 → Bool) : Option (Fin 8) := (List.finRange 8).find? lines

/-- The end of the interrupt that is first among those in service. -/
def Chip.endOfInterrupt (c : Chip) : Chip :=
  match first c.inService with
  | some i => { c with inService := Function.update c.inService i false }
  | none => c

/-- A write to the command port: the first word of an initialization, or an end of interrupt. -/
def Chip.command (c : Chip) (v : UInt8) : Chip :=
  if v &&& 0x10 ≠ 0 then
    { c with
      phase := .icw2
      single := v &&& 0x02 != 0
      needsIcw4 := v &&& 0x01 != 0
      autoEoi := false
      mask := 0
      requested := nothing
      inService := nothing }
  else if v = 0x20 then c.endOfInterrupt
  else c

/-- A write to the data port: the words of an initialization, and the mask. -/
def Chip.data (c : Chip) (v : UInt8) : Chip :=
  match c.phase with
  | .ready => { c with mask := v }
  | .icw2 =>
    { c with
      base := v &&& 0xF8
      phase := if !c.single then .icw3 else if c.needsIcw4 then .icw4 else .ready }
  | .icw3 => { c with cascade := v, phase := if c.needsIcw4 then .icw4 else .ready }
  | .icw4 => { c with autoEoi := v &&& 0x02 != 0, phase := .ready }

/-- Bit `i` of a word. -/
def bit (v : UInt8) (i : Fin 8) : Bool := v &&& (1 : UInt8) <<< UInt8.ofNat i != 0

/-- The line that is reported: requested, not masked, and before every line in service. -/
def Chip.pending (c : Chip) (requested : Fin 8 → Bool) : Option (Fin 8) :=
  first fun i => requested i && !bit c.mask i && decide (∀ j ≤ i, c.inService j = false)

/-- The line that is acknowledged; with no pending one it is line 7, and nothing changes. -/
def Chip.acknowledge (c : Chip) (requested : Fin 8 → Bool) : Fin 8 × Chip :=
  match c.pending requested with
  | some i =>
    (i, { c with
      requested := Function.update c.requested i false
      inService := if c.autoEoi then c.inService else Function.update c.inService i true })
  | none => (7, c)

/-! ## The pair -/

structure Pair where
  master : Chip
  slave : Chip

/-- A line of the pair. -/
abbrev Line := Fin 16

/-- What the first controller finds on its lines. -/
def Pair.masterRequests (p : Pair) : Fin 8 → Bool :=
  Function.update p.master.requested 2 (p.slave.pending p.slave.requested).isSome

/-- The processor acknowledges an interrupt: the vector it is given. -/
def Pair.acknowledge (p : Pair) : UInt8 × Pair :=
  let r := p.master.acknowledge p.masterRequests
  if bit r.2.cascade r.1 ∧ p.slave.cascade = UInt8.ofNat r.1 then
    let r' := p.slave.acknowledge p.slave.requested
    (p.slave.base + UInt8.ofNat r'.1, ⟨r.2, r'.2⟩)
  else (p.master.base + UInt8.ofNat r.1, ⟨r.2, p.slave⟩)

/-- A write to one of the four ports. -/
def Pair.outb (p : Pair) (port : UInt16) (v : UInt8) : Pair :=
  if port = 0x20 then { p with master := p.master.command v }
  else if port = 0x21 then { p with master := p.master.data v }
  else if port = 0xA0 then { p with slave := p.slave.command v }
  else if port = 0xA1 then { p with slave := p.slave.data v }
  else p

/-- A device sets or takes back the request on its line. -/
def Pair.setLine (p : Pair) (n : Line) (level : Bool) : Pair :=
  if h : n.val < 8 then
    { p with master := { p.master with requested := Function.update p.master.requested ⟨n, h⟩ level } }
  else
    { p with slave :=
      { p.slave with requested := Function.update p.slave.requested ⟨n - 8, by omega⟩ level } }

/-! ## Lines as the processor sees them -/

/-- The lines in the order in which they are served; line 2 has the second controller in its place. -/
def order : List Line := [0, 1, 8, 9, 10, 11, 12, 13, 14, 15, 3, 4, 5, 6, 7]

/-- A controller that is set up, with the lines in service. -/
structure Chip.SetUp (c : Chip) (base cascade : UInt8) (inService : Fin 8 → Bool) : Prop where
  phase : c.phase = .ready
  base : c.base = base
  cascade : c.cascade = cascade
  autoEoi : c.autoEoi = false
  mask : c.mask = 0
  inService : c.inService = inService

/-- A pair that is set up, with the lines in service and the lines requested. -/
structure Pair.Holds (p : Pair) (base base' : UInt8) (inService inService' : Fin 8 → Bool)
    (lines : Line → Bool) : Prop where
  master : p.master.SetUp base 4 inService
  slave : p.slave.SetUp base' 2 inService'
  low : ∀ i : Fin 8, i ≠ 2 → p.master.requested i = lines (Fin.castLE (by decide) i)
  high : ∀ i : Fin 8, p.slave.requested i = lines (Fin.natAdd 8 i)

/-- Nothing is in service. -/
def Pair.Idle (p : Pair) (base base' : UInt8) (lines : Line → Bool) : Prop := p.Holds base base' nothing nothing lines

/-- A line is in service, and no other. -/
def Pair.Serving (p : Pair) (base base' : UInt8) (n : Line) (lines : Line → Bool) : Prop :=
  if h : n.val < 8 then p.Holds base base' (only ⟨n, h⟩) nothing lines
  else p.Holds base base' (only 2) (only ⟨n - 8, by omega⟩) lines

theorem first_some {lines : Fin 8 → Bool} {i : Fin 8} (h : first lines = some i) : lines i = true :=
  List.find?_some h

theorem first_nothing : first nothing = none := by decide

theorem first_only (i : Fin 8) : first (only i) = some i := by
  revert i
  decide

theorem update_only (i : Fin 8) : Function.update (only i) i false = nothing := by
  funext j
  by_cases hji : j = i
  · subst hji
    exact Function.update_self ..
  · rw [Function.update_of_ne hji]
    exact decide_eq_false hji

theorem update_nothing (i : Fin 8) : Function.update nothing i true = only i := by
  funext j
  by_cases hji : j = i
  · subst hji
    rw [Function.update_self]
    exact (decide_eq_true rfl).symm
  · rw [Function.update_of_ne hji]
    exact (decide_eq_false hji).symm

section Chip

variable {c : Chip} {base cascade : UInt8} {inService : Fin 8 → Bool}

/-- A controller with nothing in service reports the first line. -/
theorem Chip.SetUp.pending (h : c.SetUp base cascade nothing) (requested : Fin 8 → Bool) :
    c.pending requested = first requested := by
  unfold Chip.pending
  congr 1
  funext i
  have hmask : bit c.mask i = false := by
    rw [h.mask]
    revert i
    decide
  have hfree : ∀ j ≤ i, c.inService j = false := by
    intro j _
    rw [h.inService]
    rfl
  rw [hmask, decide_eq_true hfree]
  simp

/-- An end of interrupt ends the only one in service. -/
theorem Chip.SetUp.command_end {i : Fin 8} (h : c.SetUp base cascade (only i)) :
    (c.command 0x20).SetUp base cascade nothing ∧ (c.command 0x20).requested = c.requested := by
  have hcommand : c.command 0x20 = { c with inService := Function.update c.inService i false } := by
    have hfirst : first c.inService = some i := by
      rw [h.inService]
      exact first_only i
    unfold Chip.command Chip.endOfInterrupt
    rw [if_neg (by decide), if_pos rfl, hfirst]
  rw [hcommand]
  refine ⟨⟨h.phase, h.base, h.cascade, h.autoEoi, h.mask, ?_⟩, rfl⟩
  show Function.update c.inService i false = nothing
  rw [h.inService, update_only]

/-- Without one in service it does nothing. -/
theorem Chip.SetUp.command_end_nothing (h : c.SetUp base cascade nothing) : c.command 0x20 = c := by
  have hfirst : first c.inService = none := by
    rw [h.inService]
    exact first_nothing
  unfold Chip.command Chip.endOfInterrupt
  rw [if_neg (by decide), if_pos rfl, hfirst]

/-- The controller with a line taken. -/
def Chip.serve (c : Chip) (i : Fin 8) : Chip :=
  { c with requested := Function.update c.requested i false, inService := only i }

theorem Chip.SetUp.serve (h : c.SetUp base cascade inService) {i : Fin 8} :
    (c.serve i).SetUp base cascade (only i) :=
  ⟨h.phase, h.base, h.cascade, h.autoEoi, h.mask, rfl⟩

theorem Chip.SetUp.acknowledge_some (h : c.SetUp base cascade nothing) {requested : Fin 8 → Bool} {i : Fin 8}
    (hi : first requested = some i) : c.acknowledge requested = (i, c.serve i) := by
  unfold Chip.acknowledge Chip.serve
  rw [h.pending, hi]
  simp only [h.autoEoi, h.inService, update_nothing, Bool.false_eq_true, if_false]

theorem Chip.SetUp.acknowledge_none (h : c.SetUp base cascade nothing) {requested : Fin 8 → Bool}
    (hi : first requested = none) : c.acknowledge requested = (7, c) := by
  unfold Chip.acknowledge
  rw [h.pending, hi]

/-- The four words of an initialization, and a mask of 0. -/
theorem Chip.setUp (c : Chip) (base cascade : UInt8) (hbase : base &&& 0xF8 = base) :
    (((((c.command 0x11).data base).data cascade).data 0x01).data 0x00).SetUp base cascade nothing ∧
      (((((c.command 0x11).data base).data cascade).data 0x01).data 0x00).requested = nothing :=
  ⟨⟨rfl, hbase, rfl, rfl, rfl, rfl⟩, rfl⟩

end Chip

section Pair

variable {p : Pair} {base base' : UInt8} {inService inService' : Fin 8 → Bool} {lines : Line → Bool}

/-- Raising or lowering a line. -/
theorem Pair.Holds.setLine (h : p.Holds base base' inService inService' lines) (n : Line) (level : Bool) :
    (p.setLine n level).Holds base base' inService inService' (Function.update lines n level) := by
  unfold Pair.setLine
  split
  · rename_i hn
    refine ⟨⟨h.master.phase, h.master.base, h.master.cascade, h.master.autoEoi, h.master.mask, h.master.inService⟩,
      h.slave, ?_, ?_⟩
    · intro i hi
      by_cases hin : i = ⟨n, hn⟩
      · have hline : Fin.castLE (by decide : 8 ≤ 16) i = n := by rw [hin]; rfl
        rw [hline, Function.update_self, hin]
        exact Function.update_self ..
      · have hne : Fin.castLE (by decide : 8 ≤ 16) i ≠ n := by
          intro heq
          have hval : i.val = n.val := congrArg Fin.val heq
          exact hin (Fin.ext hval)
        rw [Function.update_of_ne hne, ← h.low i hi]
        exact Function.update_of_ne hin ..
    · intro i
      have hne : Fin.natAdd 8 i ≠ n := by
        intro heq
        have hval := congrArg Fin.val heq
        simp only [Fin.val_natAdd] at hval
        omega
      rw [Function.update_of_ne hne]
      exact h.high i
  · rename_i hn
    refine ⟨h.master,
      ⟨h.slave.phase, h.slave.base, h.slave.cascade, h.slave.autoEoi, h.slave.mask, h.slave.inService⟩, ?_, ?_⟩
    · intro i hi
      have hne : Fin.castLE (by decide : 8 ≤ 16) i ≠ n := by
        intro heq
        have hval := congrArg Fin.val heq
        simp only [Fin.val_castLE] at hval
        omega
      rw [Function.update_of_ne hne]
      exact h.low i hi
    · intro i
      by_cases hin : i = ⟨n - 8, by omega⟩
      · have hline : Fin.natAdd 8 i = n := by
          rw [hin]
          exact Fin.ext (by simp only [Fin.natAdd_mk]; omega)
        rw [hline, Function.update_self, hin]
        exact Function.update_self ..
      · have hne : Fin.natAdd 8 i ≠ n := by
          intro heq
          apply hin
          have hval := congrArg Fin.val heq
          simp only [Fin.val_natAdd] at hval
          exact Fin.ext (by simp only; omega)
        rw [Function.update_of_ne hne, ← h.high i]
        exact Function.update_of_ne hin ..

/-- The lines of the first controller, with the second one on line 2. -/
def view (lines : Line → Bool) : Fin 8 → Bool :=
  Function.update (fun i => lines (Fin.castLE (by decide) i)) 2 (first fun i => lines (Fin.natAdd 8 i)).isSome

/-- The first line is the first one of the first controller, or of the second one behind it. -/
theorem order_find (lines : Line → Bool) : order.find? lines = (first (view lines)).bind fun i =>
    if i = 2 then (first fun j => lines (Fin.natAdd 8 j)).map (Fin.natAdd 8) else some (Fin.castLE (by decide) i) := by
  have horder : order = ([0, 1] : List (Fin 8)).map (Fin.castLE (by decide)) ++
      ((List.finRange 8).map (Fin.natAdd 8) ++ ([3, 4, 5, 6, 7] : List (Fin 8)).map (Fin.castLE (by decide))) := by
    decide
  have hfin : List.finRange 8 = [0, 1] ++ ([2] ++ [3, 4, 5, 6, 7]) := by decide
  have hview : ∀ i : Fin 8, i ≠ 2 → view lines i = lines (Fin.castLE (by decide) i) :=
    fun i hi => Function.update_of_ne hi ..
  have htwo : view lines 2 = (first fun i => lines (Fin.natAdd 8 i)).isSome := Function.update_self ..
  have hlow : ([0, 1] : List (Fin 8)).find? (view lines) =
      ([0, 1] : List (Fin 8)).find? (lines ∘ Fin.castLE (by decide)) := by
    simp only [List.find?_cons, hview 0 (by decide), hview 1 (by decide)]
    rfl
  have hhigh : ([3, 4, 5, 6, 7] : List (Fin 8)).find? (view lines) =
      ([3, 4, 5, 6, 7] : List (Fin 8)).find? (lines ∘ Fin.castLE (by decide)) := by
    simp only [List.find?_cons, hview 3 (by decide), hview 4 (by decide), hview 5 (by decide), hview 6 (by decide),
      hview 7 (by decide)]
    rfl
  have hfirst : first (view lines) = (([0, 1] : List (Fin 8)).find? (view lines)).or
      ((([2] : List (Fin 8)).find? (view lines)).or (([3, 4, 5, 6, 7] : List (Fin 8)).find? (view lines))) := by
    unfold first
    rw [hfin, List.find?_append, List.find?_append]
  have hslave : (List.finRange 8).find? (lines ∘ Fin.natAdd 8) = first fun i => lines (Fin.natAdd 8 i) := rfl
  have hmiddle : ([2] : List (Fin 8)).find? (view lines) =
      if (first fun i => lines (Fin.natAdd 8 i)).isSome then some 2 else none := by
    rw [← htwo]
    rcases h : view lines 2 with _ | _
    · simp [h]
    · simp [h]
  rw [hfirst, hlow, hhigh, hmiddle, horder, List.find?_append, List.find?_append, List.find?_map, List.find?_map,
    List.find?_map, hslave]
  rcases ha : ([0, 1] : List (Fin 8)).find? (lines ∘ Fin.castLE (by decide)) with _ | a
  swap
  · have hne : a ≠ 2 := by
      rintro rfl
      exact absurd (List.mem_of_find?_eq_some ha) (by decide)
    simp [hne]
  rcases first fun i => lines (Fin.natAdd 8 i) with _ | s
  swap
  · simp
  rcases hc : ([3, 4, 5, 6, 7] : List (Fin 8)).find? (lines ∘ Fin.castLE (by decide)) with _ | c
  · simp
  · have hne : c ≠ 2 := by
      rintro rfl
      exact absurd (List.mem_of_find?_eq_some hc) (by decide)
    simp [hne]

/-- The vector of a line. -/
def vectorOf (base base' : UInt8) (n : Line) : UInt8 :=
  if n.val < 8 then base + UInt8.ofNat n else base' + UInt8.ofNat (n - 8)

theorem Pair.Serving.setLine {n : Line} (h : p.Serving base base' n lines) (m : Line) (level : Bool) :
    (p.setLine m level).Serving base base' n (Function.update lines m level) := by
  unfold Pair.Serving at h ⊢
  split at h
  · rename_i hn
    rw [dif_pos hn]
    exact Pair.Holds.setLine h m level
  · rename_i hn
    rw [dif_neg hn]
    exact Pair.Holds.setLine h m level

theorem Pair.Idle.masterRequests (h : p.Idle base base' lines) : p.masterRequests = view lines := by
  have hslave : p.slave.requested = fun i => lines (Fin.natAdd 8 i) := funext h.high
  unfold Pair.masterRequests view
  rw [h.slave.pending, hslave]
  funext i
  by_cases hi : i = 2
  · subst hi
    rw [Function.update_self, Function.update_self]
  · rw [Function.update_of_ne hi, Function.update_of_ne hi]
    exact h.low i hi

/-- A line that is taken back. -/
theorem update_low (h : ∀ i : Fin 8, i ≠ 2 → p.master.requested i = lines (Fin.castLE (by decide) i)) (k : Fin 8)
    (hk : k ≠ 2) : ∀ i : Fin 8, i ≠ 2 → Function.update p.master.requested k false i =
      Function.update lines (Fin.castLE (by decide) k) false (Fin.castLE (by decide) i) := by
  intro i hi
  by_cases hik : i = k
  · subst hik
    rw [Function.update_self, Function.update_self]
  · have hne : Fin.castLE (by decide : 8 ≤ 16) i ≠ Fin.castLE (by decide) k := by
      intro heq
      exact hik (Fin.castLE_injective _ heq)
    rw [Function.update_of_ne hik, Function.update_of_ne hne]
    exact h i hi

/-- An acknowledge takes the first line. -/
theorem Pair.Idle.acknowledge_some (h : p.Idle base base' lines) {n : Line} (hn : order.find? lines = some n) :
    ∃ p', p.acknowledge = (vectorOf base base' n, p') ∧ p'.Serving base base' n (Function.update lines n false) := by
  rw [order_find] at hn
  rcases hfirst : first (view lines) with _ | i
  · rw [hfirst] at hn
    cases hn
  rw [hfirst, Option.bind_some] at hn
  have hack := h.master.acknowledge_some hfirst
  rw [← h.masterRequests] at hack
  by_cases hi : i = 2
  · -- the second controller is asked
    subst hi
    rw [if_pos rfl] at hn
    rcases Option.map_eq_some_iff.1 hn with ⟨j, hslave, rfl⟩
    have hslaveRequests : p.slave.requested = fun i => lines (Fin.natAdd 8 i) := funext h.high
    have hslaveAck := h.slave.acknowledge_some hslave
    rw [← hslaveRequests] at hslaveAck
    refine ⟨⟨p.master.serve 2, p.slave.serve j⟩, ?_, ?_⟩
    · have hcascade : bit (p.master.serve 2).cascade 2 ∧ p.slave.cascade = UInt8.ofNat (2 : Fin 8) := by
        rw [h.slave.cascade, h.master.serve.cascade]
        decide
      have hvector : vectorOf base base' (Fin.natAdd 8 j) = p.slave.base + UInt8.ofNat j := by
        have hj := j.isLt
        rw [vectorOf, if_neg (by simp), h.slave.base, Fin.val_natAdd, Nat.add_sub_cancel_left]
      unfold Pair.acknowledge
      simp only [hack, hslaveAck]
      rw [if_pos hcascade, hvector]
    · unfold Pair.Serving
      rw [dif_neg (by simp)]
      have hline : (⟨(Fin.natAdd 8 j : Line) - 8, by have := (Fin.natAdd 8 j : Line).isLt; omega⟩ : Fin 8) = j :=
        Fin.ext (by simp)
      rw [hline]
      refine ⟨h.master.serve, h.slave.serve, ?_, ?_⟩
      · intro k hk
        have hne : Fin.castLE (by decide : 8 ≤ 16) k ≠ Fin.natAdd 8 j := by
          intro heq
          have hval := congrArg Fin.val heq
          simp only [Fin.val_castLE, Fin.val_natAdd] at hval
          omega
        rw [Function.update_of_ne hne, ← h.low k hk]
        exact Function.update_of_ne hk ..
      · intro k
        by_cases hkj : k = j
        · subst hkj
          rw [Function.update_self]
          exact Function.update_self ..
        · have hne : (Fin.natAdd 8 k : Line) ≠ Fin.natAdd 8 j := fun heq => hkj (Fin.natAdd_injective _ _ heq)
          rw [Function.update_of_ne hne, ← h.high k]
          exact Function.update_of_ne hkj ..
  · -- the line is one of the first controller
    rw [if_neg hi] at hn
    obtain rfl := Option.some.inj hn
    refine ⟨⟨p.master.serve i, p.slave⟩, ?_, ?_⟩
    · have hcascade : ¬ (bit (p.master.serve i).cascade i ∧ p.slave.cascade = UInt8.ofNat i) := by
        rw [h.slave.cascade]
        rintro ⟨-, heq⟩
        have hall : ∀ k : Fin 8, (2 : UInt8) = UInt8.ofNat k → k = 2 := by decide
        exact hi (hall i heq)
      have hvector : vectorOf base base' (Fin.castLE (by decide) i) = p.master.base + UInt8.ofNat i := by
        rw [vectorOf, if_pos (by simp), h.master.base]
        rfl
      unfold Pair.acknowledge
      simp only [hack]
      rw [if_neg hcascade, hvector]
    · unfold Pair.Serving
      rw [dif_pos (by simp)]
      refine ⟨h.master.serve, h.slave, update_low h.low i hi, ?_⟩
      intro k
      have hne : (Fin.natAdd 8 k : Line) ≠ Fin.castLE (by decide) i := by
        intro heq
        have hval := congrArg Fin.val heq
        simp only [Fin.val_castLE, Fin.val_natAdd] at hval
        omega
      rw [Function.update_of_ne hne]
      exact h.high k

/-- Without a line it gives the last vector of the first controller, and changes nothing. -/
theorem Pair.Idle.acknowledge_none (h : p.Idle base base' lines) (hn : order.find? lines = none) :
    p.acknowledge = (base + 7, p) := by
  rw [order_find] at hn
  rcases hfirst : first (view lines) with _ | i
  · have hack := h.master.acknowledge_none hfirst
    rw [← h.masterRequests] at hack
    have hcascade : ¬ (bit p.master.cascade 7 ∧ p.slave.cascade = UInt8.ofNat (7 : Fin 8)) := by
      rw [h.slave.cascade]
      rintro ⟨-, heq⟩
      exact absurd heq (by decide)
    unfold Pair.acknowledge
    simp only [hack]
    rw [if_neg hcascade, h.master.base]
    rfl
  · -- a line that is reported is a line
    rw [hfirst, Option.bind_some] at hn
    split at hn
    · rename_i hi
      subst hi
      have hsome : (first fun i => lines (Fin.natAdd 8 i)).isSome = true := by
        rw [← first_some hfirst, view, Function.update_self]
      rw [Option.map_eq_none_iff] at hn
      rw [hn] at hsome
      cases hsome
    · cases hn

/-- The ends of interrupt that belong to a line. -/
def Pair.finish (p : Pair) (n : Line) : Pair :=
  (if 8 ≤ n.val then p.outb 0xA0 0x20 else p).outb 0x20 0x20

/-- They end it. -/
theorem Pair.Serving.finish {n : Line} (h : p.Serving base base' n lines) : (p.finish n).Idle base base' lines := by
  unfold Pair.Serving at h
  unfold Pair.finish
  split at h
  · rename_i hn
    rw [if_neg (by omega)]
    rcases h.master.command_end with ⟨hmaster, hrequested⟩
    exact ⟨hmaster, h.slave, fun i hi => by rw [← h.low i hi]; exact congrFun hrequested i, h.high⟩
  · rename_i hn
    rw [if_pos (by omega)]
    rcases h.master.command_end with ⟨hmaster, hrequested⟩
    rcases h.slave.command_end with ⟨hslave, hrequested'⟩
    exact ⟨hmaster, hslave, fun i hi => by rw [← h.low i hi]; exact congrFun hrequested i,
      fun i => by rw [← h.high i]; exact congrFun hrequested' i⟩

/-- An end of interrupt of the first controller when nothing is in service. -/
theorem Pair.Idle.outb_end (h : p.Idle base base' lines) : p.outb 0x20 0x20 = p := by
  show { p with master := p.master.command 0x20 } = p
  rw [h.master.command_end_nothing]

end Pair

end CosKernel.Pic8259
