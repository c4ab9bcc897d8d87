import CosKernel.Lib.X86

/-!
# `kprintf` and `kstrlen` (`kernel.c`)

`kprintf` walks its format, prints what is not part of a conversion and takes one
argument for each conversion it knows; of the arguments it prints nothing. The
only memory it reads on behalf of its caller is that of the strings, in `kstrlen`.

A format is the list of its characters in front of the NUL. Memory gives a byte
for each address, or `none` where an access faults; a loop over memory has a
bound on its turns, and the results hold for every bound.
-/

namespace CosKernel.Kprintf

open X86 (Word)

/-! ## `kstrlen` -/

/-- The addresses that `kstrlen` reads in its first `fuel` turns, and its result if it returns
within them. -/
def kstrlen (mem : Word → Option UInt8) : Nat → Word → List Word × Option Nat
  | 0, _ => ([], none)
  | fuel + 1, str =>
    match mem str with
    | none => ([str], none)
    | some c =>
      if c ≠ 0 then
        let (reads, len) := kstrlen mem fuel (str + 1)
        (str :: reads, len.map (· + 1))
      else ([str], some 0)

/-! ## `kprintf` -/

/-- What a call has done so far: the characters passed to `serial_putchar`, the variable `written`
(an `int`), and the bytes that `kstrlen` read. -/
structure Printing where
  serial : List Char
  written : BitVec 32
  reads : List Word
deriving DecidableEq, Repr

/-- Why a call does not return: a `kstrlen` does not, there is no argument for a conversion, or the
walk went past the NUL of the format. -/
inductive Stop where
  | kstrlen
  | noArgument
  | pastFormat
deriving DecidableEq, Repr

/-- The conversions that take an argument. -/
def takesArgument (c : Char) : Bool :=
  c = 'd' || c = 'x' || c = 'X' || c = 's' || c = 'p' || c = 'u'

/-- What a conversion other than `%s` adds to `written`. -/
def conversionWidth (c : Char) : BitVec 32 :=
  if c = 'd' then 10
  else if c = 'x' || c = 'X' then 16
  else if c = 'p' then 18
  else if c = 'u' then 20
  else if c = '%' then 1
  else 0

/-- The loop of `kprintf`. -/
def kprintfFrom (mem : Word → Option UInt8) (fuel : Nat) :
    List Char → List Word → Printing → Printing × Option Stop
  | [], _, p => (p, none)
  | [c], _, p =>
    -- a lone `%` is followed by the NUL, which the second `fmt++` skips
    if c = '%' then (p, some .pastFormat)
    else ({ p with serial := p.serial ++ [c], written := p.written + 1 }, none)
  | c :: c' :: fmt, args, p =>
    if c = '%' then
      if takesArgument c' = true then
        match args with
        | [] => (p, some .noArgument)
        | arg :: args =>
          if c' = 's' then
            let (reads, len) := kstrlen mem fuel arg
            match len with
            | none => ({ p with reads := p.reads ++ reads }, some .kstrlen)
            | some len =>
              kprintfFrom mem fuel fmt args
                { p with
                  reads := p.reads ++ reads
                  written := p.written + BitVec.ofNat 32 len }
          else kprintfFrom mem fuel fmt args { p with written := p.written + conversionWidth c' }
      else kprintfFrom mem fuel fmt args { p with written := p.written + conversionWidth c' }
    else
      kprintfFrom mem fuel (c' :: fmt) args
        { p with serial := p.serial ++ [c], written := p.written + 1 }

/-- `kprintf` -/
def kprintf (mem : Word → Option UInt8) (fuel : Nat) (fmt : List Char) (args : List Word) :
    Printing × Option Stop :=
  kprintfFrom mem fuel fmt args ⟨[], 0, []⟩

/-- `KLOG` -/
def klog (fmt : String) : List Char := ("[KERNEL] " ++ fmt ++ "\n").toList

/-- `KERROR` -/
def kerror (fmt : String) : List Char := ("[ERROR] " ++ fmt ++ "\n").toList

end CosKernel.Kprintf
