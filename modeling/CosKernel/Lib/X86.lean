import CosKernel.Lib.Run

/-!
# A small x86-64 machine

Straight-line code over the general registers and a memory of 64-bit words: each
word is named by its byte address, and code that uses it keeps its accesses
aligned, so that different words do not overlap.

Symbolic execution goes by runs of like instructions: `foldl_push` and
`foldl_pop` say what a series of pushes or pops does, and `readUp_pushAll` that a
series of pops finds what was pushed, in reverse.
-/

namespace CosKernel.X86

/-- A 64-bit word, also as an address. -/
abbrev Word := BitVec 64

inductive Reg where
  | rax | rbx | rcx | rdx | rsi | rdi | rbp | rsp
  | r8 | r9 | r10 | r11 | r12 | r13 | r14 | r15
deriving DecidableEq, Repr

structure Cpu where
  reg : Reg → Word
  rip : Word
  mem : Word → Word

inductive Instr where
  | push (r : Reg)
  | pop (r : Reg)
  | mov (dst src : Reg)
  /-- `mov [addr], src` -/
  | store (addr src : Reg)
  | ret
deriving DecidableEq, Repr

/-- Assign to a register. -/
def Cpu.setReg (c : Cpu) (r : Reg) (v : Word) : Cpu := { c with reg := Function.update c.reg r v }

/-- Assign to a word of memory. -/
def Cpu.setMem (c : Cpu) (a v : Word) : Cpu := { c with mem := Function.update c.mem a v }

@[simp] theorem setReg_reg_self (c : Cpu) (r : Reg) (v : Word) : (c.setReg r v).reg r = v :=
  Function.update_self _ _ _

@[simp] theorem setReg_reg_ne (c : Cpu) {r r' : Reg} (v : Word) (h : r' ≠ r) :
    (c.setReg r v).reg r' = c.reg r' := Function.update_of_ne h _ _

/-- A value on top of the stack. -/
def Cpu.pushWord (c : Cpu) (v : Word) : Cpu :=
  (c.setReg .rsp (c.reg .rsp - 8)).setMem (c.reg .rsp - 8) v

/-- One instruction; `rip` is followed only where control leaves the code. -/
def exec (c : Cpu) : Instr → Cpu
  | .push r => c.pushWord (c.reg r)
  | .pop r => (c.setReg .rsp (c.reg .rsp + 8)).setReg r (c.mem (c.reg .rsp))
  | .mov dst src => c.setReg dst (c.reg src)
  | .store addr src => c.setMem (c.reg addr) (c.reg src)
  | .ret => { c.setReg .rsp (c.reg .rsp + 8) with rip := c.mem (c.reg .rsp) }

/-- A routine entered by `call`: the return address is pushed, then its code runs. -/
def call (code : List Instr) (returnAddress : Word) (c : Cpu) : Cpu :=
  code.foldl exec (c.pushWord returnAddress)

/-! ## Words in a row -/

/-- The addresses of `n` words from `a` on. -/
def span (a : Word) (n : Nat) : Set Word := {x | ∃ k < n, x = a + BitVec.ofNat 64 (8 * k)}

/-- The `n` words from `a` on. -/
def readUp (mem : Word → Word) : Word → Nat → List Word
  | _, 0 => []
  | a, n + 1 => mem a :: readUp mem (a + 8) n

/-- The words of a list, stored from `a` on. -/
def writeUp (mem : Word → Word) : Word → List Word → Word → Word
  | _, [] => mem
  | a, v :: vs => writeUp (Function.update mem a v) (a + 8) vs

/-- The words of a list, pushed one after the other from `sp` down. -/
def pushAll (mem : Word → Word) : Word → List Word → Word → Word
  | _, [] => mem
  | sp, v :: vs => pushAll (Function.update mem (sp - 8) v) (sp - 8) vs

theorem ofNat_words_succ (n : Nat) : BitVec.ofNat 64 (8 * (n + 1)) = BitVec.ofNat 64 (8 * n) + 8 := by
  rw [Nat.mul_succ, BitVec.ofNat_add]
  rfl

theorem sub_words_succ (sp : Word) (n : Nat) :
    sp - BitVec.ofNat 64 (8 * (n + 1)) = sp - 8 - BitVec.ofNat 64 (8 * n) := by
  rw [ofNat_words_succ]
  bv_omega

theorem toNat_words {n : Nat} (h : 8 * n < 2 ^ 64) : (BitVec.ofNat 64 (8 * n)).toNat = 8 * n := by
  rw [BitVec.toNat_ofNat]
  exact Nat.mod_eq_of_lt h

theorem span_succ (a : Word) (n : Nat) (x : Word) : x ∈ span a (n + 1) ↔ x = a ∨ x ∈ span (a + 8) n := by
  constructor
  · rintro ⟨k, hk, rfl⟩
    cases k with
    | zero =>
      left
      simp
    | succ k =>
      right
      refine ⟨k, by omega, ?_⟩
      rw [ofNat_words_succ]
      bv_omega
  · rintro (rfl | ⟨k, hk, rfl⟩)
    · exact ⟨0, by omega, by simp⟩
    · refine ⟨k + 1, by omega, ?_⟩
      rw [ofNat_words_succ]
      bv_omega

/-- A row that does not wrap around does not come back to its start. -/
theorem notMem_span_add {a : Word} {n : Nat} (hn : 8 * (n + 1) < 2 ^ 64) : a ∉ span (a + 8) n := by
  rintro ⟨k, hk, heq⟩
  have hmod := toNat_words (n := k) (by omega)
  bv_omega

theorem readUp_congr {mem mem' : Word → Word} {a : Word} {n : Nat}
    (h : ∀ x ∈ span a n, mem' x = mem x) : readUp mem' a n = readUp mem a n := by
  induction n generalizing a with
  | zero => rfl
  | succ n ih =>
    unfold readUp
    rw [h a ((span_succ a n a).2 (Or.inl rfl)), ih fun x hx => h x ((span_succ a n x).2 (Or.inr hx))]

theorem readUp_succ_last (mem : Word → Word) (a : Word) (n : Nat) :
    readUp mem a (n + 1) = readUp mem a n ++ [mem (a + BitVec.ofNat 64 (8 * n))] := by
  induction n generalizing a with
  | zero => simp [readUp]
  | succ n ih =>
    have hnext : a + 8 + BitVec.ofNat 64 (8 * n) = a + BitVec.ofNat 64 (8 * (n + 1)) := by
      rw [ofNat_words_succ]
      bv_omega
    rw [readUp, ih (a + 8), hnext]
    rfl

theorem writeUp_of_notMem {mem : Word → Word} {a : Word} {vs : List Word} {x : Word}
    (hx : x ∉ span a vs.length) : writeUp mem a vs x = mem x := by
  induction vs generalizing mem a with
  | nil => rfl
  | cons v vs ih =>
    rw [List.length_cons, span_succ, not_or] at hx
    rw [writeUp, ih hx.2, Function.update_of_ne hx.1]

/-- What is stored in a row is read back. -/
theorem readUp_writeUp (mem : Word → Word) (a : Word) (vs : List Word) (hlen : 8 * vs.length < 2 ^ 64) :
    readUp (writeUp mem a vs) a vs.length = vs := by
  induction vs generalizing mem a with
  | nil => rfl
  | cons v vs ih =>
    rw [List.length_cons] at hlen ⊢
    rw [writeUp, readUp, ih _ _ (by omega), writeUp_of_notMem (notMem_span_add hlen),
      Function.update_self]

theorem pushAll_of_notMem {mem : Word → Word} {sp : Word} {vs : List Word} {x : Word}
    (hx : x ∉ span (sp - BitVec.ofNat 64 (8 * vs.length)) vs.length) : pushAll mem sp vs x = mem x := by
  induction vs generalizing mem sp with
  | nil => rfl
  | cons v vs ih =>
    have hstart := sub_words_succ sp vs.length
    have hx' : x ∉ span (sp - 8 - BitVec.ofNat 64 (8 * vs.length)) vs.length := by
      rintro ⟨k, hk, hkx⟩
      apply hx
      refine ⟨k, by rw [List.length_cons]; omega, ?_⟩
      rw [List.length_cons, hstart]
      exact hkx
    have hne : x ≠ sp - 8 := by
      rintro rfl
      apply hx
      refine ⟨vs.length, by rw [List.length_cons]; omega, ?_⟩
      rw [List.length_cons, hstart]
      bv_omega
    rw [pushAll, ih hx', Function.update_of_ne hne]

/-- What was pushed is found again from the last word pushed on. -/
theorem readUp_pushAll (mem : Word → Word) (sp : Word) (vs : List Word) (hlen : 8 * vs.length < 2 ^ 64) :
    readUp (pushAll mem sp vs) (sp - BitVec.ofNat 64 (8 * vs.length)) vs.length = vs.reverse := by
  induction vs generalizing mem sp with
  | nil => rfl
  | cons v vs ih =>
    rw [List.length_cons] at hlen ⊢
    have hstart := sub_words_succ sp vs.length
    have hlast : sp - 8 - BitVec.ofNat 64 (8 * vs.length) + BitVec.ofNat 64 (8 * vs.length) = sp - 8 := by
      bv_omega
    -- the words pushed later lie below the first one
    have hkept : sp - 8 ∉ span (sp - 8 - BitVec.ofNat 64 (8 * vs.length)) vs.length := by
      rintro ⟨k, hk, heq⟩
      have hmod := toNat_words (n := k) (by omega)
      have hmod' := toNat_words (n := vs.length) (by omega)
      bv_omega
    rw [pushAll, readUp_succ_last, hstart, ih _ _ (by omega), hlast, pushAll_of_notMem hkept,
      Function.update_self, List.reverse_cons]

/-- Part of a row. -/
theorem readUp_take (mem : Word → Word) (a : Word) {m n : Nat} (h : m ≤ n) :
    (readUp mem a n).take m = readUp mem a m := by
  induction m generalizing a n with
  | zero => rfl
  | succ m ih =>
    cases n with
    | zero => omega
    | succ n => rw [readUp, readUp, List.take_succ_cons, ih (a + 8) (by omega)]

/-- Pushing values. -/
theorem foldl_pushWord (vs : List Word) (c : Cpu) :
    vs.foldl Cpu.pushWord c =
      { c.setReg .rsp (c.reg .rsp - BitVec.ofNat 64 (8 * vs.length)) with
        mem := pushAll c.mem (c.reg .rsp) vs } := by
  induction vs generalizing c with
  | nil =>
    have hzero : c.reg .rsp - BitVec.ofNat 64 (8 * 0) = c.reg .rsp := by simp
    simp only [List.foldl_nil, List.length_nil, hzero, pushAll, Cpu.setReg, Function.update_eq_self]
  | cons v vs ih =>
    have hsp : (c.pushWord v).reg .rsp = c.reg .rsp - 8 := by
      show (c.setReg .rsp (c.reg .rsp - 8)).reg .rsp = _
      rw [setReg_reg_self]
    rw [List.foldl_cons, ih, hsp, ← sub_words_succ]
    simp only [List.length_cons, pushAll, Cpu.pushWord, Cpu.setReg, Cpu.setMem, Function.update_idem]

/-- Pushing registers pushes their values. -/
theorem foldl_push_values (rs : List Reg) (hrsp : Reg.rsp ∉ rs) (c : Cpu) :
    (rs.map Instr.push).foldl exec c = (rs.map c.reg).foldl Cpu.pushWord c := by
  induction rs generalizing c with
  | nil => rfl
  | cons r rs ih =>
    rw [List.mem_cons, not_or] at hrsp
    -- a push changes no register that is pushed later
    have hregs : rs.map (exec c (.push r)).reg = rs.map c.reg := by
      apply List.map_congr_left
      intro q hq
      have hne : q ≠ .rsp := by
        rintro rfl
        exact hrsp.2 hq
      exact setReg_reg_ne c _ hne
    rw [List.map_cons, List.foldl_cons, ih hrsp.2, hregs]
    rfl

/-- Pushing registers. -/
theorem foldl_push (rs : List Reg) (hrsp : Reg.rsp ∉ rs) (c : Cpu) :
    (rs.map Instr.push).foldl exec c =
      { c.setReg .rsp (c.reg .rsp - BitVec.ofNat 64 (8 * rs.length)) with
        mem := pushAll c.mem (c.reg .rsp) (rs.map c.reg) } := by
  rw [foldl_push_values rs hrsp, foldl_pushWord, List.length_map]

/-- Popping registers. -/
theorem foldl_pop (rs : List Reg) (hrsp : Reg.rsp ∉ rs) (hnodup : rs.Nodup) (c : Cpu) :
    ((rs.map Instr.pop).foldl exec c).mem = c.mem ∧
    ((rs.map Instr.pop).foldl exec c).reg .rsp = c.reg .rsp + BitVec.ofNat 64 (8 * rs.length) ∧
    rs.map ((rs.map Instr.pop).foldl exec c).reg = readUp c.mem (c.reg .rsp) rs.length ∧
    ∀ r, r ≠ .rsp → r ∉ rs → ((rs.map Instr.pop).foldl exec c).reg r = c.reg r := by
  induction rs generalizing c with
  | nil =>
    refine ⟨rfl, ?_, rfl, fun _ _ _ => rfl⟩
    simp
  | cons r rs ih =>
    rw [List.mem_cons, not_or] at hrsp
    rw [List.nodup_cons] at hnodup
    -- the later pops write neither memory nor the register popped first
    rcases ih hrsp.2 hnodup.2 (exec c (.pop r)) with ⟨hmem, hsp, hregs, hother⟩
    have hmem' : (exec c (.pop r)).mem = c.mem := rfl
    have hsp' : (exec c (.pop r)).reg .rsp = c.reg .rsp + 8 := by
      show ((c.setReg .rsp (c.reg .rsp + 8)).setReg r _).reg .rsp = _
      rw [setReg_reg_ne _ _ hrsp.1, setReg_reg_self]
    have hr : (exec c (.pop r)).reg r = c.mem (c.reg .rsp) := setReg_reg_self _ _ _
    rw [hmem', hsp'] at hregs
    simp only [List.map_cons, List.foldl_cons, List.length_cons]
    refine ⟨hmem.trans hmem', ?_, ?_, ?_⟩
    · rw [hsp, hsp', ofNat_words_succ]
      bv_omega
    · rw [hother r (Ne.symm hrsp.1) hnodup.1, hr, hregs]
      rfl
    · intro q hq hqmem
      rw [List.mem_cons, not_or] at hqmem
      rw [hother q hq hqmem.2]
      show ((c.setReg .rsp (c.reg .rsp + 8)).setReg r _).reg q = _
      rw [setReg_reg_ne _ _ hqmem.1, setReg_reg_ne _ _ hq]

end CosKernel.X86
