import CosKernel.Kprintf.Model
import Mathlib.Algebra.Group.Nat.Even
import Mathlib.Data.List.DropRight

/-!
# The arguments that `kprintf` takes

The formats of the kernel are written for the conversions of C: a letter, in front
of it a zero-padded width (`%02x`) or a length modifier (`%lu`, `%zu`), and `%%`.
`kprintf` knows the letter right behind the `%` only. Of a longer conversion it
skips the `%` and the next character, prints the others and takes no argument, so
that every later conversion gets an argument meant for an earlier one. And a `%`
that ends the format makes it skip the NUL.

`takes` is the walk of `kprintf` with the arguments it takes, `directives` are the
conversions that the format means. They agree exactly where every conversion is a
single letter and the `%` at the end of the format, if any, come in pairs.
-/

namespace CosKernel.Kprintf

open X86 (Word)

/-! ## The arguments taken -/

/-- An argument taken: the place of its `%` in the format, the letter it is taken for, the
argument. -/
structure Taken where
  offset : Nat
  conv : Char
  arg : Word
deriving DecidableEq, Repr

/-- The walk of `kprintf` from place `n` of the format: the arguments it takes, and why it does not
get to the NUL, the strings apart. -/
def takes : Nat → List Char → List Word → List Taken × Option Stop
  | _, [], _ => ([], none)
  | _, [c], _ => if c = '%' then ([], some .pastFormat) else ([], none)
  | n, c :: c' :: fmt, args =>
    if c = '%' then
      if takesArgument c' = true then
        match args with
        | [] => ([], some .noArgument)
        | arg :: args =>
          let (taken, stop) := takes (n + 2) fmt args
          (⟨n, c', arg⟩ :: taken, stop)
      else takes (n + 2) fmt args
    else takes (n + 1) (c' :: fmt) args

/-- The bytes that `kstrlen` reads for the arguments taken, and why `kprintf` does not return: the
first string whose length is not found, or what ends the walk. -/
def measured (mem : Word → Option UInt8) (fuel : Nat) :
    List Taken → Option Stop → List Word × Option Stop
  | [], stop => ([], stop)
  | t :: taken, stop =>
    if t.conv = 's' then
      let (reads, len) := kstrlen mem fuel t.arg
      match len with
      | none => (reads, some .kstrlen)
      | some _ =>
        let (reads', stop) := measured mem fuel taken stop
        (reads ++ reads', stop)
    else measured mem fuel taken stop

/-- `kprintf` measures the strings among the arguments of its walk, and stops with it. -/
theorem kprintfFrom_measured (mem : Word → Option UInt8) (fuel n : Nat) (fmt : List Char)
    (args : List Word) (p : Printing) :
    (kprintfFrom mem fuel fmt args p).1.reads =
        p.reads ++ (measured mem fuel (takes n fmt args).1 (takes n fmt args).2).1 ∧
      (kprintfFrom mem fuel fmt args p).2 =
        (measured mem fuel (takes n fmt args).1 (takes n fmt args).2).2 := by
  fun_induction kprintfFrom mem fuel fmt args p generalizing n with
  | case1 => simp [takes, measured]
  | case2 => simp [takes, measured]
  | case3 c args p hc => simp [takes, measured, hc]
  | case4 c fmt p htakes => simp [takes, measured, htakes]
  | case5 fmt p arg args reads htakes hrun => simp [takes, measured, htakes, hrun]
  | case6 fmt p arg args reads len htakes hrun ih =>
    rcases ih (n + 2) with ⟨hreads, hstop⟩
    simp [takes, measured, htakes, hrun, hreads, hstop]
  | case7 c fmt p htakes arg args hne ih =>
    rcases ih (n + 2) with ⟨hreads, hstop⟩
    simp [takes, measured, htakes, hne, hreads, hstop]
  | case8 c fmt args p htakes ih =>
    rcases ih (n + 2) with ⟨hreads, hstop⟩
    simp [takes, htakes, hreads, hstop]
  | case9 c c' fmt args p hc ih =>
    have hwalk : takes n (c :: c' :: fmt) args = takes (n + 1) (c' :: fmt) args := by
      simp [takes, hc]
    rw [hwalk]
    exact ih (n + 1)

/-! ## The arguments meant -/

/-- A conversion that takes an argument: the place of its `%` in the format, what stands between the
`%` and the letter, and the letter. -/
structure Directive where
  offset : Nat
  modifiers : List Char
  conv : Char
deriving DecidableEq, Repr

/-- The argument of a conversion. -/
def Directive.taken (d : Directive) (arg : Word) : Taken := ⟨d.offset, d.conv, arg⟩

/-- The digits of a zero-padded width. -/
def paddedWidth (fmt : List Char) : List Char :=
  if fmt.head? = some '0' then fmt.takeWhile Char.isDigit else []

/-- A length modifier: `ll`, `l` or `z`. -/
def lengthModifier : List Char → List Char
  | 'l' :: 'l' :: _ => ['l', 'l']
  | 'l' :: _ => ['l']
  | 'z' :: _ => ['z']
  | _ => []

/-- The conversion whose `%`, at place `n`, stands in front of this text. -/
def directiveAt (n : Nat) (fmt : List Char) : Option Directive :=
  let width := paddedWidth fmt
  let length := lengthModifier (fmt.drop width.length)
  match fmt.drop (width.length + length.length) with
  | c :: _ => if takesArgument c = true then some ⟨n, width ++ length, c⟩ else none
  | [] => none

/-- The conversions of a format that take an argument, from place `n` on. -/
def directives : Nat → List Char → List Directive
  | _, [] => []
  | _, [_] => []
  | n, c :: c' :: fmt =>
    if c = '%' then
      if c' = '%' then directives (n + 2) fmt
      else (directiveAt n (c' :: fmt)).toList ++ directives (n + 1) (c' :: fmt)
    else directives (n + 1) (c' :: fmt)

theorem directives_plain {c : Char} (h : ¬c = '%') (n : Nat) (fmt : List Char) :
    directives n (c :: fmt) = directives (n + 1) fmt := by
  cases fmt with
  | nil => rfl
  | cons c' fmt => simp [directives, h]

/-- Behind the `%` of a conversion, the rest of it holds no other. -/
theorem directives_conversion {c : Char} (h : ¬c = '%') (n : Nat) (fmt : List Char) :
    directives n ('%' :: c :: fmt) =
      (directiveAt n (c :: fmt)).toList ++ directives (n + 2) fmt := by
  simp [directives, h, directives_plain h]

theorem ne_of_takesArgument {c d : Char} (h : takesArgument c = true) (hd : takesArgument d = false) :
    ¬c = d := by
  rintro rfl
  rw [h] at hd
  exact absurd hd (by decide)

/-- A letter right behind the `%` is a conversion. -/
theorem directiveAt_letter {c : Char} (h : takesArgument c = true) (n : Nat) (fmt : List Char) :
    directiveAt n (c :: fmt) = some ⟨n, [], c⟩ := by
  have hzero : ¬c = '0' := ne_of_takesArgument h (by decide)
  have hl : ¬c = 'l' := ne_of_takesArgument h (by decide)
  have hz : ¬c = 'z' := ne_of_takesArgument h (by decide)
  have hwidth : paddedWidth (c :: fmt) = [] := by simp [paddedWidth, hzero]
  have hlength : lengthModifier (c :: fmt) = [] := by
    unfold lengthModifier
    split <;> simp_all
  simp [directiveAt, hwidth, hlength, h]

/-- Without a letter right behind the `%`, a conversion has modifiers. -/
theorem modifiers_of_directiveAt {c : Char} (h : ¬takesArgument c = true) {n : Nat}
    {fmt : List Char} {d : Directive} (hd : directiveAt n (c :: fmt) = some d) :
    ¬d.modifiers = [] := by
  intro hnone
  unfold directiveAt at hd
  dsimp only at hd
  split at hd
  · rename_i c' rest hdrop
    split at hd
    · rename_i htakes
      cases hd
      -- no width and no length modifier: the letter is the first character
      rcases List.append_eq_nil_iff.mp hnone with ⟨hwidth, hlength⟩
      rw [hlength, hwidth] at hdrop
      have hc : c = c' := (List.cons.inj hdrop).1
      rw [hc] at h
      exact h htakes
    · cases hd
  · cases hd

/-! ## The `%` at the end of a format -/

/-- How many `%` end the format. -/
def percentsAtEnd (fmt : List Char) : Nat := (fmt.rtakeWhile (· = '%')).length

@[simp] theorem percentsAtEnd_nil : percentsAtEnd [] = 0 := rfl

theorem percentsAtEnd_cons (c : Char) (fmt : List Char) :
    percentsAtEnd (c :: fmt) =
      if percentsAtEnd fmt = fmt.length ∧ c = '%' then fmt.length + 1 else percentsAtEnd fmt := by
  unfold percentsAtEnd List.rtakeWhile
  rw [List.reverse_cons, List.takeWhile_append]
  by_cases hall : (fmt.reverse.takeWhile (· = '%')).length = fmt.reverse.length
  · by_cases hc : c = '%'
    · simp_all
    · simp_all
  · simp_all

theorem percentsAtEnd_plain {c : Char} (h : ¬c = '%') (fmt : List Char) :
    percentsAtEnd (c :: fmt) = percentsAtEnd fmt := by
  simp [percentsAtEnd_cons, h]

theorem percentsAtEnd_le (fmt : List Char) : percentsAtEnd fmt ≤ fmt.length := by
  have hle := (List.takeWhile_sublist (fun c => decide (c = '%')) (l := fmt.reverse)).length_le
  unfold percentsAtEnd List.rtakeWhile
  rw [List.length_reverse] at hle ⊢
  exact hle

theorem percentsAtEnd_conversion {c : Char} (h : ¬c = '%') (fmt : List Char) :
    percentsAtEnd ('%' :: c :: fmt) = percentsAtEnd fmt := by
  have hle := percentsAtEnd_le fmt
  rw [percentsAtEnd_cons, percentsAtEnd_plain h, if_neg]
  rintro ⟨hall, _⟩
  rw [List.length_cons] at hall
  omega

/-- `%%` leaves it open whether the `%` at the end come in pairs. -/
theorem even_percentsAtEnd_percent (fmt : List Char) :
    Even (percentsAtEnd ('%' :: '%' :: fmt)) ↔ Even (percentsAtEnd fmt) := by
  have hle := percentsAtEnd_le fmt
  rw [percentsAtEnd_cons, percentsAtEnd_cons]
  by_cases hall : percentsAtEnd fmt = fmt.length
  · simp [hall, Nat.even_add_one]
  · have hne : ¬percentsAtEnd fmt = fmt.length + 1 := by omega
    simp [hall, hne]

/-! ## Walk and meaning -/

/-- The letter stands right behind the `%`. -/
def Directive.plain (d : Directive) : Bool := d.modifiers = []

/-- The arguments of the walk are for the single letters, in order; it stays in the format when the
`%` at the end come in pairs. -/
theorem takes_eq (n : Nat) (fmt : List Char) (args : List Word)
    (h : ((directives n fmt).filter Directive.plain).length ≤ args.length) :
    takes n fmt args =
      (((directives n fmt).filter Directive.plain).zipWith Directive.taken args,
        if Even (percentsAtEnd fmt) then none else some .pastFormat) := by
  fun_induction takes n fmt args with
  | case1 n args => simp [directives]
  | case2 n args => simp [directives, percentsAtEnd_cons]
  | case3 n c args hc => simp [directives, percentsAtEnd_plain hc]
  | case4 n c fmt htakes =>
    -- the argument that is missing is one of the single letters
    have hc : ¬c = '%' := ne_of_takesArgument htakes (by decide)
    rw [directives_conversion hc, directiveAt_letter htakes] at h
    simp [Directive.plain] at h
  | case5 n c fmt htakes arg args taken stop hrun ih =>
    have hc : ¬c = '%' := ne_of_takesArgument htakes (by decide)
    rw [directives_conversion hc, directiveAt_letter htakes] at h ⊢
    simp only [Option.toList_some, List.singleton_append, Directive.plain, decide_true,
      List.filter_cons_of_pos, List.length_cons, Nat.add_le_add_iff_right] at h
    have hrest := ih h
    rw [hrun] at hrest
    cases hrest
    simp [Directive.plain, Directive.taken, percentsAtEnd_conversion hc]
  | case6 n c fmt args htakes ih =>
    by_cases hc : c = '%'
    · subst hc
      have hpercent : directives n ('%' :: '%' :: fmt) = directives (n + 2) fmt := by
        simp [directives]
      rw [hpercent] at h ⊢
      rw [ih h]
      simp only [even_percentsAtEnd_percent]
    · -- a conversion with modifiers takes nothing
      have hskip : ((directiveAt n (c :: fmt)).toList).filter Directive.plain = [] := by
        rw [List.filter_eq_nil_iff]
        intro d hd hplain
        rw [Option.mem_toList] at hd
        exact modifiers_of_directiveAt htakes hd (of_decide_eq_true hplain)
      rw [directives_conversion hc, List.filter_append, hskip, List.nil_append] at h ⊢
      rw [ih h, percentsAtEnd_conversion hc]
  | case7 n c c' fmt args hc ih =>
    rw [directives_plain hc] at h ⊢
    rw [ih h, percentsAtEnd_plain hc]

/-- `kprintf` takes one argument for each conversion, in order, and does not get past the NUL of the
format. -/
def Walked (fmt : List Char) (args : List Word) : Prop :=
  takes 0 fmt args = ((directives 0 fmt).zipWith Directive.taken args, none)

instance (fmt : List Char) (args : List Word) : Decidable (Walked fmt args) :=
  inferInstanceAs (Decidable (_ = _))

/-- **Arguments of `kprintf`.** What `kprintf` reads for its caller, and where it stops, is decided by
the arguments of its walk. With one argument for each conversion, these are the ones meant and the
walk ends at the NUL exactly when every conversion is a single letter and the `%` at the end of the
format come in pairs. -/
theorem format_walked_iff (fmt : List Char) (args : List Word)
    (h : args.length = (directives 0 fmt).length) :
    (∀ mem fuel,
      ((kprintf mem fuel fmt args).1.reads, (kprintf mem fuel fmt args).2) =
        measured mem fuel (takes 0 fmt args).1 (takes 0 fmt args).2) ∧
      (Walked fmt args ↔
        (∀ d ∈ directives 0 fmt, d.modifiers = []) ∧ Even (percentsAtEnd fmt)) := by
  have hle : ((directives 0 fmt).filter Directive.plain).length ≤ args.length := by
    rw [h]
    exact List.length_filter_le _ _
  refine ⟨?_, ?_⟩
  · intro mem fuel
    rcases kprintfFrom_measured mem fuel 0 fmt args ⟨[], 0, []⟩ with ⟨hreads, hstop⟩
    rw [List.nil_append] at hreads
    exact Prod.ext hreads hstop
  · unfold Walked
    rw [takes_eq 0 fmt args hle, Prod.mk.injEq]
    constructor
    · rintro ⟨htaken, hstop⟩
      refine ⟨?_, ?_⟩
      · -- as many arguments are taken as there are conversions
        have hlen := congrArg List.length htaken
        rw [List.length_zipWith, List.length_zipWith] at hlen
        have hall : ((directives 0 fmt).filter Directive.plain).length = (directives 0 fmt).length := by
          omega
        intro d hd
        exact of_decide_eq_true (List.length_filter_eq_length_iff.mp hall d hd)
      · by_contra hodd
        rw [if_neg hodd] at hstop
        cases hstop
    · rintro ⟨hplain, heven⟩
      have hall : (directives 0 fmt).filter Directive.plain = directives 0 fmt := by
        rw [List.filter_eq_self]
        intro d hd
        exact decide_eq_true (hplain d hd)
      exact ⟨by rw [hall], if_pos heven⟩

/-- A size in front of a string is taken for the string. -/
example : takes 0 "%zu %s".toList [16, 0x1000] = ([⟨4, 's', 16⟩], none) := by decide

/-- The line typed at the shell is the one string that its message takes. -/
theorem shell_command_walked :
    [(0x1000 : Word)].length = (directives 0 "Shell command: %s\n".toList).length ∧
      Walked "Shell command: %s\n".toList [0x1000] := by
  have hlen : [(0x1000 : Word)].length = (directives 0 "Shell command: %s\n".toList).length := by
    decide
  refine ⟨hlen, ?_⟩
  rw [(format_walked_iff "Shell command: %s\n".toList [0x1000] hlen).2]
  decide

/-- `kmalloc` reports the size of a failed allocation, and `kprintf` takes no argument for it. -/
theorem kmalloc_size_not_taken :
    ¬∀ (fmt : List Char) (args : List Word),
      args.length = (directives 0 fmt).length → Walked fmt args := by
  intro h
  have hwalked := h (kerror "kmalloc: Out of memory for allocation of %zu bytes") [16] (by decide)
  revert hwalked
  decide

end CosKernel.Kprintf
