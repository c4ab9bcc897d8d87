import CosKernel.Lib.CString
import CosKernel.Fat32.Model

/-!
# Short names

An entry has eight bytes for a name and three for an extension, both filled up with
spaces. `fat32_extract_entry_name` writes them with a dot in between, and
`fat32_compare_entry_name` cuts a file name into two such fields. It does give back the
name of an entry, but compares it with `char`, which is signed: no byte from 0x80 on
is ever equal. And it cuts file names of any length and form, so many of them lead
to the same entry.
-/

namespace CosKernel.Fat32

/-! ## Characters -/

/-- Characters, filled up with spaces. -/
def field (width : Nat) (chars : List UInt8) : List UInt8 :=
  chars ++ List.replicate (width - chars.length) 0x20

theorem length_field {width : Nat} {chars : List UInt8} (h : chars.length ≤ width) :
    (field width chars).length = width := by
  rw [field, List.length_append, List.length_replicate]
  omega

/-- A character that a short name may have: no NUL, space or dot, and no lower-case letter. -/
def ShortChar (c : UInt8) : Prop := c ≠ 0 ∧ c ≠ 0x20 ∧ c ≠ 0x2E ∧ ¬ (0x61 ≤ c ∧ c ≤ 0x7A)

/-- The entry has this name and extension, filled up with spaces. -/
structure ShortName (entry : DirEntry) (base ext : List UInt8) : Prop where
  name : entry.name = field 8 base ++ field 3 ext
  base_ne : base ≠ []
  base_le : base.length ≤ 8
  ext_le : ext.length ≤ 3
  chars : ∀ c ∈ base ++ ext, ShortChar c

theorem ShortName.length {entry : DirEntry} {base ext : List UInt8} (h : ShortName entry base ext) :
    entry.name.length = 11 := by
  rw [h.name, List.length_append, length_field h.base_le, length_field h.ext_le]

theorem ShortName.nameChar {entry : DirEntry} {base ext : List UInt8} (h : ShortName entry base ext)
    (c : UInt8) (hc : c ∈ base ++ ext) : nameChar c = true := by
  obtain ⟨hnul, hspace, -, -⟩ := h.chars c hc
  simp [Fat32.nameChar, hnul, hspace]

/-- A part of a file name that fills a field: spaces, if there are any, only at its end. -/
def Fits (part chars : List UInt8) : Prop :=
  (∀ c ∈ chars, c ≠ 0x20 ∧ c ≠ 0x2E ∧ c < 0x80) ∧ ∃ n, part = chars ++ List.replicate n 0x20

end CosKernel.Fat32
