import CosKernel.Kprintf.Model

/-!
# What `kprintf` reads for its caller

`kstrlen` reads the bytes from its argument up to the first NUL, or up to the
first address where an access faults. A format whose only string conversion comes
first makes `kprintf` read exactly that, for its first argument.
-/

namespace CosKernel.Kprintf

open X86 (Word)

/-! ## The bytes of a string -/

/-- `kstrlen` goes on behind this address: it holds a character. -/
def Continues (mem : Word → Option UInt8) (a : Word) : Prop := ∃ c, mem a = some c ∧ c ≠ 0

theorem kstrlen_succ_of_continues {mem : Word → Option UInt8} {str : Word}
    (h : Continues mem str) (fuel : Nat) :
    (kstrlen mem (fuel + 1) str).1 = str :: (kstrlen mem fuel (str + 1)).1 := by
  obtain ⟨c, hc, hne⟩ := h
  simp [kstrlen, hc, hne]

theorem kstrlen_succ_of_stops {mem : Word → Option UInt8} {str : Word}
    (h : ¬Continues mem str) (fuel : Nat) : (kstrlen mem (fuel + 1) str).1 = [str] := by
  unfold kstrlen
  cases hmem : mem str with
  | none => rfl
  | some c =>
    have hzero : c = 0 := by
      by_contra hne
      exact h ⟨c, hmem, hne⟩
    simp [hzero]

theorem add_one_add_ofNat (str : Word) (k : Nat) :
    str + 1 + BitVec.ofNat 64 k = str + BitVec.ofNat 64 (k + 1) := by
  rw [BitVec.ofNat_add, BitVec.add_assoc, BitVec.add_comm 1]
  rfl

/-- The loop gets to turn `n + 1` when the first byte is a character and it gets to turn `n` from the
second byte on. -/
theorem forall_continues_succ_iff (mem : Word → Option UInt8) (str : Word) (n : Nat) :
    (∀ k < n + 1, Continues mem (str + BitVec.ofNat 64 k)) ↔
      Continues mem str ∧ ∀ k < n, Continues mem (str + 1 + BitVec.ofNat 64 k) := by
  have hstart : str + BitVec.ofNat 64 0 = str := by simp
  constructor
  · intro h
    refine ⟨hstart ▸ h 0 (by omega), ?_⟩
    intro k hk
    rw [add_one_add_ofNat]
    exact h (k + 1) (by omega)
  · rintro ⟨hfirst, h⟩ k hk
    cases k with
    | zero =>
      rw [hstart]
      exact hfirst
    | succ k =>
      rw [← add_one_add_ofNat]
      exact h k (by omega)

/-- The address read in turn `n`, if the loop gets there. -/
theorem mem_kstrlen_iff (mem : Word → Option UInt8) (fuel : Nat) (str a : Word) :
    a ∈ (kstrlen mem fuel str).1 ↔
      ∃ n < fuel, a = str + BitVec.ofNat 64 n ∧
        ∀ k < n, Continues mem (str + BitVec.ofNat 64 k) := by
  induction fuel generalizing str with
  | zero => simp [kstrlen]
  | succ fuel ih =>
    have hstart : str + BitVec.ofNat 64 0 = str := by simp
    by_cases hcont : Continues mem str
    · rw [kstrlen_succ_of_continues hcont, List.mem_cons, ih]
      constructor
      · intro h
        rcases h with rfl | ⟨n, hn, rfl, hk⟩
        · exact ⟨0, by omega, hstart.symm, fun k hk => by omega⟩
        · exact ⟨n + 1, by omega, add_one_add_ofNat str n,
            (forall_continues_succ_iff mem str n).mpr ⟨hcont, hk⟩⟩
      · intro h
        rcases h with ⟨n, hn, rfl, hk⟩
        cases n with
        | zero =>
          left
          exact hstart
        | succ n =>
          right
          exact ⟨n, by omega, (add_one_add_ofNat str n).symm,
            ((forall_continues_succ_iff mem str n).mp hk).2⟩
    · rw [kstrlen_succ_of_stops hcont, List.mem_singleton]
      constructor
      · intro h
        exact ⟨0, by omega, h.trans hstart.symm, fun k hk => by omega⟩
      · intro h
        rcases h with ⟨n, hn, rfl, hk⟩
        cases n with
        | zero => exact hstart
        | succ n =>
          -- a second turn needs a character in the first byte
          exact absurd ((forall_continues_succ_iff mem str n).mp hk).1 hcont

/-- All bytes that `kstrlen` ever reads are below a bound exactly when the string starts and stops
below it. -/
theorem kstrlen_below_iff (mem : Word → Option UInt8) (str bound : Word) :
    (∀ fuel, ∀ a ∈ (kstrlen mem fuel str).1, a < bound) ↔
      ∃ a, str ≤ a ∧ a < bound ∧ ¬Continues mem a := by
  constructor
  · intro h
    by_contra hnone
    have hcont : ∀ a, str ≤ a → a < bound → Continues mem a := by
      intro a hle hlt
      by_contra hstop
      exact hnone ⟨a, hle, hlt, hstop⟩
    have hstr : str < bound := by
      apply h 1
      rw [mem_kstrlen_iff]
      exact ⟨0, by omega, by simp, fun k hk => by omega⟩
    -- no byte below the bound stops the loop, so it reads the byte at the bound
    have hread := h (bound.toNat - str.toNat + 1) bound
    rw [mem_kstrlen_iff] at hread
    have hself : bound < bound := by
      apply hread
      refine ⟨bound.toNat - str.toNat, by omega, ?_, ?_⟩
      · bv_omega
      · intro k hk
        apply hcont
        · bv_omega
        · bv_omega
    bv_omega
  · intro h fuel a ha
    obtain ⟨stop, hle, hlt, hstop⟩ := h
    rw [mem_kstrlen_iff] at ha
    obtain ⟨n, _, rfl, hk⟩ := ha
    -- the loop does not get behind the byte where it stops
    have hn : n ≤ stop.toNat - str.toNat := by
      by_contra hgt
      apply hstop
      have hcont := hk (stop.toNat - str.toNat) (by omega)
      have haddr : str + BitVec.ofNat 64 (stop.toNat - str.toNat) = stop := by bv_omega
      rwa [haddr] at hcont
    bv_omega

/-! ## Conversions of a format -/

/-- The conversions of a format that take an argument, in order. -/
def conversions : List Char → List Char
  | [] => []
  | [_] => []
  | c :: c' :: fmt =>
    if c = '%' then
      if takesArgument c' = true then c' :: conversions fmt else conversions fmt
    else conversions (c' :: fmt)

theorem conversions_argument {c : Char} (h : takesArgument c = true) (fmt : List Char) :
    conversions ('%' :: c :: fmt) = c :: conversions fmt := by
  simp [conversions, h]

theorem conversions_other {c : Char} (h : ¬takesArgument c = true) (fmt : List Char) :
    conversions ('%' :: c :: fmt) = conversions fmt := by
  simp [conversions, h]

theorem conversions_plain {c : Char} (h : ¬c = '%') (c' : Char) (fmt : List Char) :
    conversions (c :: c' :: fmt) = conversions (c' :: fmt) := by
  simp [conversions, h]

variable (mem : Word → Option UInt8) (fuel : Nat)

/-- Without a string conversion, nothing is read. -/
theorem reads_kprintfFrom_of_notMem (fmt : List Char) (args : List Word) (p : Printing)
    (h : 's' ∉ conversions fmt) : (kprintfFrom mem fuel fmt args p).1.reads = p.reads := by
  fun_induction kprintfFrom mem fuel fmt args p with
  | case1 => rfl
  | case2 => rfl
  | case3 => rfl
  | case4 => rfl
  | case5 fmt p arg args reads harg =>
    rw [conversions_argument harg] at h
    exact absurd List.mem_cons_self h
  | case6 fmt p arg args reads len harg =>
    rw [conversions_argument harg] at h
    exact absurd List.mem_cons_self h
  | case7 c fmt p harg arg args hne ih =>
    rw [conversions_argument harg] at h
    exact ih (List.not_mem_of_not_mem_cons h)
  | case8 c fmt args p harg ih =>
    rw [conversions_other harg] at h
    exact ih h
  | case9 c c' fmt args p hc ih =>
    rw [conversions_plain hc] at h
    exact ih h

/-- With a string conversion first and no other, the string of the first argument is read. -/
theorem reads_kprintfFrom_of_string (fmt : List Char) (args : List Word) (p : Printing)
    {rest : List Char} (h : conversions fmt = 's' :: rest) (hrest : 's' ∉ rest)
    {arg : Word} (harg : args.head? = some arg) :
    (kprintfFrom mem fuel fmt args p).1.reads = p.reads ++ (kstrlen mem fuel arg).1 := by
  fun_induction kprintfFrom mem fuel fmt args p with
  | case1 => exact absurd h.symm (List.cons_ne_nil _ _)
  | case2 => exact absurd h.symm (List.cons_ne_nil _ _)
  | case3 => exact absurd h.symm (List.cons_ne_nil _ _)
  | case4 => exact absurd harg.symm (Option.some_ne_none _)
  | case5 fmt p arg' args reads htakes hrun =>
    rw [← Option.some.inj harg, hrun]
  | case6 fmt p arg' args reads len htakes hrun =>
    rw [conversions_argument htakes] at h
    have hconv : conversions fmt = rest := (List.cons.inj h).2
    rw [← Option.some.inj harg, hrun]
    apply reads_kprintfFrom_of_notMem
    rw [hconv]
    exact hrest
  | case7 c fmt p htakes arg' args hne ih =>
    rw [conversions_argument htakes] at h
    exact absurd (List.cons.inj h).1 hne
  | case8 c fmt args p htakes ih =>
    rw [conversions_other htakes] at h
    exact ih h harg
  | case9 c c' fmt args p hc ih =>
    rw [conversions_plain hc] at h
    exact ih h harg

theorem reads_kprintf_of_notMem {fmt : List Char} (args : List Word) (h : 's' ∉ conversions fmt) :
    (kprintf mem fuel fmt args).1.reads = [] :=
  reads_kprintfFrom_of_notMem mem fuel fmt args _ h

theorem reads_kprintf_of_string {fmt rest : List Char} (h : conversions fmt = 's' :: rest)
    (hrest : 's' ∉ rest) (arg : Word) (args : List Word) :
    (kprintf mem fuel fmt (arg :: args)).1.reads = (kstrlen mem fuel arg).1 :=
  (reads_kprintfFrom_of_string mem fuel fmt _ _ h hrest rfl).trans (List.nil_append _)

end CosKernel.Kprintf
