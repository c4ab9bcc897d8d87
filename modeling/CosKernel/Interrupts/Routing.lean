import CosKernel.Interrupts.Transparency
import CosKernel.Lib.Pic8259

/-!
# From the line of a device to its handler

`pic_remap` programs the two interrupt controllers, the IDT has a stub for each
of their vectors, and `isr_handler` calls the handler that is registered and ends the
interrupt. Together they are a table of handlers by line (`Router`): an interrupt
calls the handler of the first line that is requested and takes the request back.

The gates are interrupt gates, so a handler is not interrupted; but the
devices go on, and their lines may change before the interrupt is ended. A line that is
taken back too early gives an interrupt without a line, with the vector of line 7.
-/

namespace CosKernel.Interrupts

open X86 Pic8259

variable {H : Type}

/-! ## The source -/

/-- `IDT_GATES` -/
def idtGates : Int := 256

def pic1Data : UInt16 := 0x21
def pic2Data : UInt16 := 0xA1

/-- `pic_remap` -/
def picRemap : List Action :=
  [.outb pic1Command 0x11, .outb pic2Command 0x11, .outb pic1Data 0x20, .outb pic2Data 0x28, .outb pic1Data 0x04,
    .outb pic2Data 0x02, .outb pic1Data 0x01, .outb pic2Data 0x01, .outb pic1Data 0x00, .outb pic2Data 0x00]

/-- `set_interrupt_handler`; `none` is `NULL`. -/
def setInterruptHandler (handlers : Nat → Option H) (irq : Int) (handler : Option H) : Nat → Option H :=
  if irq < 0 ∨ idtGates ≤ irq then handlers else Function.update handlers irq.toNat handler

/-- The controllers, `interrupt_handlers`, and the handlers called so far with their vectors. -/
structure Kernel (H : Type) where
  pics : Pair
  handlers : Nat → Option H
  called : List (Nat × H)

/-- What an action of the kernel does; `KERROR` has no effect here. -/
def Kernel.perform (k : Kernel H) : Action → Kernel H
  | .call irq => { k with called := k.called ++ (k.handlers irq.toNat).toList.map fun h => (irq.toNat, h) }
  | .outb port value => { k with pics := k.pics.outb port value }
  | .unhandled _ _ => k

/-- What `idt_initialize` does besides the gates. -/
def Kernel.initialized (pics : Pair) : Kernel H := picRemap.foldl Kernel.perform ⟨pics, fun _ => none, []⟩

/-- A device changes its line, a handler is registered, or the processor takes an interrupt; then it
is in the code `u`, and the lines `during` change before the interrupt is ended. -/
inductive Event (H : Type) where
  | setLine (n : Line) (level : Bool)
  | setInterruptHandler (irq : Int) (handler : Option H)
  | interrupt (u : Interrupted) (top returnAddress : Word) (during : List (Line × Bool))

/-- Some lines change. -/
def Kernel.setLines (k : Kernel H) (changes : List (Line × Bool)) : Kernel H :=
  { k with pics := changes.foldl (fun p change => p.setLine change.1 change.2) k.pics }

/-- An event; `none` for a vector without a stub. -/
def Kernel.step (k : Kernel H) : Event H → Option (Kernel H)
  | .setLine n level => some { k with pics := k.pics.setLine n level }
  | .setInterruptHandler irq handler => some { k with handlers := setInterruptHandler k.handlers irq handler }
  | .interrupt u top returnAddress during => do
    let (vector, pics) := k.pics.acknowledge
    let c ← runStub vector.toNat (interrupt u top vector.toNat 0)
    let c := callIsrHandler returnAddress c
    let frame := isrFrame c.mem (c.reg .rdi)
    let k := { k with pics := pics }.setLines during
    return (isrHandler (fun irq => (k.handlers irq.toNat).isSome) frame).foldl Kernel.perform k

/-! ## What it is for -/

/-- The lines that are requested, the handlers by vector, and the handlers called so far. -/
structure Router (H : Type) where
  lines : Line → Bool
  handlers : Nat → Option H
  called : List (Nat × H)

/-- No line is requested, and no handler is there. -/
def Router.initial : Router H := ⟨fun _ => false, fun _ => none, []⟩

/-- The vector of the first line, or of none. -/
def Router.vector (r : Router H) : Nat :=
  match order.find? r.lines with
  | some n => 32 + n
  | none => 39

/-- The lines after the first one is taken. -/
def Router.taken (r : Router H) : Line → Bool :=
  match order.find? r.lines with
  | some n => Function.update r.lines n false
  | none => r.lines

def Router.step (r : Router H) : Event H → Router H
  | .setLine n level => { r with lines := Function.update r.lines n level }
  | .setInterruptHandler irq handler => { r with handlers := setInterruptHandler r.handlers irq handler }
  | .interrupt _ _ _ during =>
    { r with
      lines := during.foldl (fun lines change => Function.update lines change.1 change.2) r.taken
      called := r.called ++ (r.handlers r.vector).toList.map fun h => (r.vector, h) }

/-! ## The kernel routes interrupts -/

/-- Nothing is in service, and the rest is as in the router. -/
structure Routes (k : Kernel H) (r : Router H) : Prop where
  idle : k.pics.Idle 0x20 0x28 r.lines
  handlers : k.handlers = r.handlers
  called : k.called = r.called

theorem routes_initialized (pics : Pair) : Routes (Kernel.initialized pics) (Router.initial (H := H)) := by
  rcases pics with ⟨master, slave⟩
  rcases master.setUp 0x20 0x04 (by decide) with ⟨hmaster, hlow⟩
  rcases slave.setUp 0x28 0x02 (by decide) with ⟨hslave, hhigh⟩
  exact ⟨⟨hmaster, hslave, fun i _ => congrFun hlow i, fun i => congrFun hhigh i⟩, rfl, rfl⟩

/-- The vectors of the lines. -/
theorem toNat_vectorOf (n : Line) : (vectorOf 0x20 0x28 n).toNat = 32 + n := by
  revert n
  decide

/-- The line is still in service after other lines change. -/
theorem serving_setLines {p : Pair} {n : Line} {lines : Line → Bool} (h : p.Serving 0x20 0x28 n lines)
    (changes : List (Line × Bool)) :
    (changes.foldl (fun p change => p.setLine change.1 change.2) p).Serving 0x20 0x28 n
      (changes.foldl (fun lines change => Function.update lines change.1 change.2) lines) := by
  induction changes generalizing p lines with
  | nil => exact h
  | cons change changes ih => exact ih (h.setLine change.1 change.2)

theorem idle_setLines {p : Pair} {lines : Line → Bool} (h : p.Idle 0x20 0x28 lines) (changes : List (Line × Bool)) :
    (changes.foldl (fun p change => p.setLine change.1 change.2) p).Idle 0x20 0x28
      (changes.foldl (fun lines change => Function.update lines change.1 change.2) lines) := by
  induction changes generalizing p lines with
  | nil => exact h
  | cons change changes ih => exact ih (Pair.Holds.setLine h change.1 change.2)

/-- The way from a vector of the controllers to `isr_handler`, and what this does: it calls the handler
and ends the interrupt. -/
theorem handled_interrupt (k : Kernel H) (u : Interrupted) (top returnAddress : Word) (during : List (Line × Bool))
    {vector : UInt8} {pics : Pair} (hack : k.pics.acknowledge = (vector, pics)) (hlow : 32 ≤ vector.toNat)
    (hhigh : vector.toNat ≤ 47) :
    k.step (.interrupt u top returnAddress during) = some
      { k with
        pics := (if 40 ≤ vector.toNat then Pair.outb
            (during.foldl (fun p change => p.setLine change.1 change.2) pics) 0xA0 0x20
          else during.foldl (fun p change => p.setLine change.1 change.2) pics).outb 0x20 0x20
        called := k.called ++ (k.handlers vector.toNat).toList.map fun h => (vector.toNat, h) } := by
  have hinstalled : Installed vector.toNat := Or.inr ⟨hlow, hhigh⟩
  have hframe := called_isrFrame u top vector.toNat 0 returnAddress
  unfold called at hframe
  have hirq : (BitVec.ofNat 32 vector.toNat).toNat = vector.toNat := by
    rw [BitVec.toNat_ofNat]
    omega
  simp only [Kernel.step, hack, runStub_interrupt u top 0 hinstalled, Option.bind_eq_bind, Option.bind_some, hframe,
    Option.pure_def]
  rw [isrHandler_savedFrame _ u 0 hinstalled, hirq, if_neg (Nat.not_lt.2 hlow), if_pos hlow]
  congr 1
  rcases hhandler : k.handlers vector.toNat with _ | h
  · by_cases hslave : 40 ≤ vector.toNat
    · simp [Kernel.setLines, Kernel.perform, hhandler, hslave, pic1Command, pic2Command, picEoi]
    · simp [Kernel.setLines, Kernel.perform, hhandler, hslave, pic1Command, picEoi]
  · by_cases hslave : 40 ≤ vector.toNat
    · simp [Kernel.setLines, Kernel.perform, hhandler, hslave, hirq, pic1Command, pic2Command, picEoi]
    · simp [Kernel.setLines, Kernel.perform, hhandler, hslave, hirq, pic1Command, picEoi]

/-- Every event is handled, as the router does. -/
theorem step_routes {k : Kernel H} {r : Router H} (h : Routes k r) (event : Event H) :
    ∃ k', k.step event = some k' ∧ Routes k' (r.step event) := by
  cases event with
  | setLine n level => exact ⟨_, rfl, Pair.Holds.setLine h.idle n level, h.handlers, h.called⟩
  | setInterruptHandler irq handler =>
    exact ⟨_, rfl, h.idle, congrArg (setInterruptHandler · irq handler) h.handlers, h.called⟩
  | interrupt u top returnAddress during =>
    rcases hfirst : order.find? r.lines with _ | n
    · -- no line is requested any more
      have hvector : r.vector = 39 := by
        unfold Router.vector
        rw [hfirst]
      have htaken : r.taken = r.lines := by
        unfold Router.taken
        rw [hfirst]
      have hack := h.idle.acknowledge_none hfirst
      have hstep := handled_interrupt k u top returnAddress during hack (by decide) (by decide)
      have hidle := idle_setLines h.idle during
      refine ⟨_, hstep, ?_, h.handlers, ?_⟩
      · show Pair.Idle (Pair.outb (if 40 ≤ (39 : Nat) then _ else _) 0x20 0x20) 0x20 0x28 (List.foldl _ r.taken during)
        rw [if_neg (by decide), hidle.outb_end, htaken]
        exact hidle
      · show k.called ++ _ = r.called ++ (r.handlers r.vector).toList.map _
        rw [h.called, h.handlers, hvector]
        rfl
    · have hvector : r.vector = 32 + n := by
        unfold Router.vector
        rw [hfirst]
      have htaken : r.taken = Function.update r.lines n false := by
        unfold Router.taken
        rw [hfirst]
      have hnat := toNat_vectorOf n
      have hn := n.isLt
      rcases h.idle.acknowledge_some hfirst with ⟨pics, hack, hserving⟩
      have hstep := handled_interrupt k u top returnAddress during hack (by omega) (by omega)
      have hserved := (serving_setLines hserving during).finish
      rw [hnat] at hstep
      refine ⟨_, hstep, ?_, h.handlers, ?_⟩
      · show Pair.Idle (Pair.outb (if 40 ≤ 32 + n.val then _ else _) 0x20 0x20) 0x20 0x28 (List.foldl _ r.taken during)
        have hiff : 40 ≤ 32 + n.val ↔ 8 ≤ n.val := by omega
        rw [htaken]
        simp only [hiff]
        exact hserved
      · show k.called ++ _ = r.called ++ (r.handlers r.vector).toList.map _
        rw [h.called, h.handlers, hvector]

/-- From every state of the two controllers, and for every sequence of requests, registrations and
interrupts of any code: after `idt_initialize` every interrupt has a stub and calls the handler that is
registered for the first line requested, in the order of the lines, and no other; nothing is left in
service by it, and all other requests are kept. -/
theorem interrupts_are_routed (pics : Pair) (events : List (Event H)) :
    ∃ k, Run.exec Kernel.step (Kernel.initialized pics) events = some k ∧
      k.called = (events.foldl Router.step Router.initial).called ∧
      k.pics.Idle 0x20 0x28 (events.foldl Router.step Router.initial).lines := by
  have hrun : ∀ {k : Kernel H} {r : Router H}, Routes k r → ∃ k', Run.exec Kernel.step k events = some k' ∧
      Routes k' (events.foldl Router.step r) := by
    induction events with
    | nil => exact fun h => ⟨_, rfl, h⟩
    | cons event events ih =>
      intro k r h
      rcases step_routes h event with ⟨k₁, hstep, hnext⟩
      rcases ih hnext with ⟨k', hexec, hlast⟩
      refine ⟨k', ?_, hlast⟩
      rw [Run.exec, hstep]
      exact hexec
  rcases hrun (routes_initialized pics) with ⟨k, hexec, hroutes⟩
  exact ⟨k, hexec, hroutes.called, hroutes.idle⟩

end CosKernel.Interrupts
