import CosKernel.Lib.Run
import CosKernel.FileOps.Model

/-!
# The table as a finite map

The table stands for the map that takes a path to what its existing entry says.
No operation looks for the destination it creates, and none uses a deleted entry
again: a path that exists already gets a second entry, and the 64th creation is
the last one. As long as neither comes up, the operations are those of a map of
at most 64 paths.
-/

namespace CosKernel.FileOps

open ArrayTable Run
open CString (content)

/-! ## Existing entries -/

/-- Entry `i` exists and has the path. -/
structure Holds (t : Table) (path : List UInt8) (i : Nat) : Prop where
  lt : i < t.fileCount
  exists_flag : (t.fileTable i).existsFlag = true
  path_eq : stringsEqual (t.fileTable i).path (some path) = true

/-- No existing entry has the path. -/
def Absent (t : Table) (path : List UInt8) : Prop := ∀ i, ¬Holds t path i

/-- At most one existing entry has any given path. -/
def UniquePaths (t : Table) : Prop :=
  ∀ path i j, Holds t path i → Holds t path j → i = j

/-- How many entries exist. -/
def existing (t : Table) : Nat := (entries t.fileTable t.fileCount).countP (·.existsFlag)

theorem matchesPath_iff (path : List UInt8) (f : VfsFileT) :
    matchesPath path f = true ↔
      f.existsFlag = true ∧ stringsEqual f.path (some path) = true := by
  unfold matchesPath
  rw [Bool.and_eq_true, and_comm]

theorem holds_iff (t : Table) (path : List UInt8) (i : Nat) :
    Holds t path i ↔ i < t.fileCount ∧ matchesPath path (t.fileTable i) = true := by
  rw [matchesPath_iff]
  constructor
  · intro h
    exact ⟨h.lt, h.exists_flag, h.path_eq⟩
  · intro h
    exact ⟨h.1, h.2.1, h.2.2⟩

theorem findFile_some {path : List UInt8} {t : Table} {i : Nat} (h : findFile path t = some i) :
    Holds t path i := by
  unfold findFile at h
  rw [findFrom_zero, List.findIdx?_eq_some_iff_getElem] at h
  rcases h with ⟨hlt, hmatch, _⟩
  rw [length_entries] at hlt
  rw [holds_iff]
  refine ⟨hlt, ?_⟩
  simpa [entries] using hmatch

theorem findFile_none {path : List UInt8} {t : Table} :
    findFile path t = none ↔ Absent t path := by
  unfold findFile Absent
  rw [findFrom_zero, List.findIdx?_eq_none_iff]
  simp only [holds_iff, not_and, Bool.not_eq_true]
  constructor
  · intro h i hi
    exact h _ (List.mem_map.mpr ⟨i, List.mem_range.mpr hi, rfl⟩)
  · intro h f hf
    rcases List.mem_map.mp hf with ⟨i, hi, rfl⟩
    exact h i (List.mem_range.mp hi)

/-- Paths with the same content are the same path. -/
theorem holds_congr {t : Table} {path path' : List UInt8} (h : content path = content path')
    (i : Nat) : Holds t path i ↔ Holds t path' i := by
  rw [holds_iff, holds_iff, matchesPath_iff, matchesPath_iff]
  cases (t.fileTable i).path with
  | none => simp [stringsEqual, CString.equal]
  | some p => rw [stringsEqual_some, stringsEqual_some, h]

/-- An existing entry has one path. -/
theorem Holds.content_eq {t : Table} {path path' : List UInt8} {i : Nat} (h : Holds t path i)
    (h' : Holds t path' i) : content path = content path' := by
  have hpath := h.path_eq
  have hpath' := h'.path_eq
  cases hp : (t.fileTable i).path with
  | none =>
    rw [hp] at hpath
    exact absurd hpath (by simp [stringsEqual, CString.equal])
  | some p =>
    rw [hp, stringsEqual_some] at hpath hpath'
    exact hpath.symm.trans hpath'

theorem holds_push (t : Table) (f : VfsFileT) (path : List UInt8) (i : Nat) :
    Holds (t.push f) path i ↔ Holds t path i ∨ i = t.fileCount ∧ matchesPath path f = true := by
  rw [holds_iff, holds_iff]
  unfold Table.push
  dsimp only
  by_cases hi : i = t.fileCount
  · subst hi
    simp
  · rw [Function.update_of_ne hi]
    constructor
    · intro h
      exact Or.inl ⟨by omega, h.2⟩
    · intro h
      rcases h with h | h
      · exact ⟨by omega, h.2⟩
      · exact absurd h.1 hi

theorem holds_set (t : Table) {i : Nat} (hi : i < t.fileCount) (f : VfsFileT) (path : List UInt8)
    (k : Nat) :
    Holds (t.set i f) path k ↔ if k = i then matchesPath path f = true else Holds t path k := by
  rw [holds_iff, holds_iff]
  unfold Table.set
  dsimp only
  by_cases hki : k = i
  · subst hki
    simp [hi]
  · rw [Function.update_of_ne hki, if_neg hki]

/-! ## One call -/

/-- Why a call with paths fails. -/
structure Refused (t : Table) (c : Call) : Prop where
  copy : ∀ src dst, c = .copy (some src) (some dst) → ¬Absent t src → maxFiles ≤ t.fileCount
  mkdir : ∀ path, c = .mkdir (some path) → maxFiles ≤ t.fileCount
  move : ∀ src dst, c = .move (some src) (some dst) → Absent t src

theorem fileOpDelete_cases (path : Option (List UInt8)) (t : Table) :
    fileOpDelete path t = (-1, t) ∨
    ∃ p i, path = some p ∧ Holds t p i ∧
      fileOpDelete path t = (0, t.set i { t.fileTable i with existsFlag := false }) := by
  cases path with
  | none => exact Or.inl rfl
  | some p =>
    cases hfind : findFile p t with
    | none =>
      left
      simp only [fileOpDelete, hfind]
    | some i =>
      right
      refine ⟨p, i, rfl, findFile_some hfind, ?_⟩
      simp only [fileOpDelete, hfind]

theorem fileOpCopy_cases (src dst : Option (List UInt8)) (t : Table) :
    (fileOpCopy src dst t = (-1, t) ∧
      ∀ p q, src = some p → dst = some q → ¬ Absent t p → maxFiles ≤ t.fileCount) ∨
    ∃ p q i, src = some p ∧ dst = some q ∧ Holds t p i ∧ t.fileCount < maxFiles ∧
      fileOpCopy src dst t = (0, t.push
        ⟨some q, (t.fileTable i).isDirectory, (t.fileTable i).size, true⟩) := by
  cases src with
  | none => exact Or.inl ⟨rfl, by simp⟩
  | some p =>
    cases dst with
    | none => exact Or.inl ⟨rfl, by simp⟩
    | some q =>
      cases hfind : findFile p t with
      | none =>
        left
        refine ⟨by simp only [fileOpCopy, hfind], ?_⟩
        intro p' q' hp _ hsrc
        cases hp
        exact absurd (findFile_none.mp hfind) hsrc
      | some i =>
        by_cases hfull : t.fileCount ≥ maxFiles
        · left
          exact ⟨by simp only [fileOpCopy, hfind, if_pos hfull], fun _ _ _ _ _ => hfull⟩
        · right
          refine ⟨p, q, i, rfl, rfl, findFile_some hfind, Nat.lt_of_not_ge hfull, ?_⟩
          simp only [fileOpCopy, hfind, if_neg hfull]

theorem fileOpMkdir_cases (path : Option (List UInt8)) (t : Table) :
    (fileOpMkdir path t = (-1, t) ∧ ∀ p, path = some p → maxFiles ≤ t.fileCount) ∨
    ∃ p, path = some p ∧ t.fileCount < maxFiles ∧
      fileOpMkdir path t = (0, t.push ⟨some p, true, 0, true⟩) := by
  cases path with
  | none => exact Or.inl ⟨rfl, by simp⟩
  | some p =>
    by_cases hfull : t.fileCount ≥ maxFiles
    · left
      exact ⟨if_pos hfull, fun _ _ => hfull⟩
    · right
      exact ⟨p, rfl, Nat.lt_of_not_ge hfull, if_neg hfull⟩

theorem fileOpMove_cases (src dst : Option (List UInt8)) (t : Table) :
    (fileOpMove src dst t = (-1, t) ∧ ∀ p q, src = some p → dst = some q → Absent t p) ∨
    ∃ p q i, src = some p ∧ dst = some q ∧ Holds t p i ∧
      fileOpMove src dst t = (0, t.set i { t.fileTable i with path := some q }) := by
  cases src with
  | none => exact Or.inl ⟨rfl, by simp⟩
  | some p =>
    cases dst with
    | none => exact Or.inl ⟨rfl, by simp⟩
    | some q =>
      cases hfind : findFile p t with
      | none =>
        left
        refine ⟨by simp only [fileOpMove, hfind], ?_⟩
        intro p' q' hp _
        cases hp
        exact findFile_none.mp hfind
      | some i =>
        right
        refine ⟨p, q, i, rfl, rfl, findFile_some hfind, ?_⟩
        simp only [fileOpMove, hfind]

/-- What a call can do: fail and leave the table, or change one entry. -/
theorem perform_cases (t : Table) (c : Call) :
    (perform t c = (-1, t) ∧ Refused t c) ∨
    (∃ path i, c = .delete (some path) ∧ Holds t path i ∧
      perform t c = (0, t.set i { t.fileTable i with existsFlag := false })) ∨
    (∃ src dst i, c = .copy (some src) (some dst) ∧ Holds t src i ∧ t.fileCount < maxFiles ∧
      perform t c = (0, t.push
        ⟨some dst, (t.fileTable i).isDirectory, (t.fileTable i).size, true⟩)) ∨
    (∃ path, c = .mkdir (some path) ∧ t.fileCount < maxFiles ∧
      perform t c = (0, t.push ⟨some path, true, 0, true⟩)) ∨
    ∃ src dst i, c = .move (some src) (some dst) ∧ Holds t src i ∧
      perform t c = (0, t.set i { t.fileTable i with path := some dst }) := by
  cases c with
  | delete path =>
    rcases fileOpDelete_cases path t with hfail | ⟨p, i, rfl, hholds, hdone⟩
    · exact Or.inl ⟨hfail, by simp, by simp, by simp⟩
    · exact Or.inr (Or.inl ⟨p, i, rfl, hholds, hdone⟩)
  | copy src dst =>
    rcases fileOpCopy_cases src dst t with ⟨hfail, hfull⟩ | ⟨p, q, i, rfl, rfl, hholds, hroom, hdone⟩
    · left
      refine ⟨hfail, ?_, by simp, by simp⟩
      intro p q hc
      cases hc
      exact hfull p q rfl rfl
    · exact Or.inr (Or.inr (Or.inl ⟨p, q, i, rfl, hholds, hroom, hdone⟩))
  | mkdir path =>
    rcases fileOpMkdir_cases path t with ⟨hfail, hfull⟩ | ⟨p, rfl, hroom, hdone⟩
    · left
      refine ⟨hfail, by simp, ?_, by simp⟩
      intro p hc
      cases hc
      exact hfull p rfl
    · exact Or.inr (Or.inr (Or.inr (Or.inl ⟨p, rfl, hroom, hdone⟩)))
  | move src dst =>
    rcases fileOpMove_cases src dst t with ⟨hfail, habsent⟩ | ⟨p, q, i, rfl, rfl, hholds, hdone⟩
    · left
      refine ⟨hfail, by simp, by simp, ?_⟩
      intro p q hc
      cases hc
      exact habsent p q rfl rfl
    · exact Or.inr (Or.inr (Or.inr (Or.inr ⟨p, q, i, rfl, hholds, hdone⟩)))

/-- The result tells whether the call was refused. -/
theorem perform_failed {t : Table} {c : Call} (h : (perform t c).1 = -1) :
    perform t c = (-1, t) ∧ Refused t c := by
  have hne : ∀ t' : Table, perform t c ≠ (0, t') := by
    intro t' heq
    rw [heq] at h
    exact absurd (show (0 : Int) = -1 from h) (by decide)
  rcases perform_cases t c with hfail | ⟨_, _, _, _, heq⟩ | ⟨_, _, _, _, _, _, heq⟩ |
    ⟨_, _, _, heq⟩ | ⟨_, _, _, _, _, heq⟩
  · exact hfail
  all_goals exact absurd heq (hne _)

/-- A file or directory may be created: the path is new, or the table is full of
existing entries. -/
def Creates (t : Table) (path : List UInt8) : Prop :=
  (t.fileCount < maxFiles → Absent t path) ∧ (maxFiles ≤ t.fileCount → existing t = maxFiles)

/-- The condition on a call. -/
def Fresh (t : Table) : Call → Prop
  | .mkdir (some path) => Creates t path
  | .copy (some src) (some dst) => ¬Absent t src → Creates t dst
  | .move (some src) (some dst) => ¬Absent t src → content dst = content src ∨ Absent t dst
  | _ => True

theorem Holds.not_absent {t : Table} {path : List UInt8} {i : Nat} (h : Holds t path i) :
    ¬Absent t path := by
  intro habsent
  exact habsent i h

/-- A new entry keeps the paths apart exactly when its path is new. -/
theorem uniquePaths_push {t : Table} (h : UniquePaths t) {path : List UInt8} {f : VfsFileT}
    (hf : f.path = some path) (habsent : Absent t path) : UniquePaths (t.push f) := by
  have hnew : ∀ q i, Holds t q i → ¬matchesPath q f = true := by
    intro q i hold hmatch
    rw [matchesPath_iff, hf, stringsEqual_some] at hmatch
    exact habsent i ((holds_congr hmatch.2 i).mpr hold)
  intro q i j hi hj
  rw [holds_push] at hi hj
  rcases hi with hi | hi
  · rcases hj with hj | hj
    · exact h q i j hi hj
    · exact absurd hj.2 (hnew q i hi)
  · rcases hj with hj | hj
    · exact absurd hi.2 (hnew q j hj)
    · exact hi.1.trans hj.1.symm

theorem uniquePaths_step (t : Table) (c : Call) (h : UniquePaths t) (hfresh : Fresh t c) :
    UniquePaths (step t c) := by
  unfold step
  rcases perform_cases t c with ⟨heq, _⟩ | ⟨path, i, rfl, hi, heq⟩ |
    ⟨src, dst, i, rfl, hi, hroom, heq⟩ | ⟨path, rfl, hroom, heq⟩ | ⟨src, dst, i, rfl, hi, heq⟩
  · rwa [heq]
  · rw [heq]
    -- an entry less exists
    have hold : ∀ q k, Holds (t.set i { t.fileTable i with existsFlag := false }) q k →
        Holds t q k := by
      intro q k hk
      rw [holds_set t hi.lt, matchesPath_iff] at hk
      split at hk
      · exact absurd hk.1 Bool.false_ne_true
      · exact hk
    intro q j k hj hk
    exact h q j k (hold q j hj) (hold q k hk)
  · rw [heq]
    exact uniquePaths_push h rfl ((hfresh hi.not_absent).1 hroom)
  · rw [heq]
    exact uniquePaths_push h rfl (hfresh.1 hroom)
  · rw [heq]
    -- entry `i` is the only one with the path it gets
    have hother : ∀ q k, k ≠ i → Holds t q k → content dst ≠ content q := by
      intro q k hki hk hsame
      rcases hfresh hi.not_absent with hsrc | habsent
      · exact hki (h src k i ((holds_congr (hsame.symm.trans hsrc) k).mp hk) hi)
      · exact habsent k ((holds_congr hsame k).mpr hk)
    intro q j k hj hk
    rw [holds_set t hi.lt, matchesPath_iff, stringsEqual_some] at hj hk
    split at hj
    · rename_i hji
      split at hk
      · rename_i hki
        exact hji.trans hki.symm
      · rename_i hki
        exact absurd hj.2 (hother q k hki hk)
    · rename_i hji
      split at hk
      · exact absurd hk.2 (hother q j hji hj)
      · exact h q j k hj hk

/-! ## The map -/

/-- The map the table stands for: what the first existing entry with a path says. -/
def fileMap (t : Table) (path : List UInt8) : Option (Bool × UInt32) :=
  (findFile path t).map fun i => ((t.fileTable i).isDirectory, (t.fileTable i).size)

/-- What a successful call does to such a map. -/
def mapCall (m : List UInt8 → Option (Bool × UInt32)) :
    Call → List UInt8 → Option (Bool × UInt32)
  | .delete (some path), q => if content q = content path then none else m q
  | .copy (some src) (some dst), q => if content q = content dst then m src else m q
  | .mkdir (some path), q => if content q = content path then some (true, 0) else m q
  | .move (some src) (some dst), q =>
    if content q = content dst then m src
    else if content q = content src then none else m q
  | _, q => m q

theorem fileMap_of_absent {t : Table} {path : List UInt8} (h : Absent t path) :
    fileMap t path = none := by
  unfold fileMap
  rw [findFile_none.mpr h]
  rfl

theorem fileMap_of_holds {t : Table} (h : UniquePaths t) {path : List UInt8} {i : Nat}
    (hi : Holds t path i) :
    fileMap t path = some ((t.fileTable i).isDirectory, (t.fileTable i).size) := by
  unfold fileMap
  cases hfind : findFile path t with
  | none => exact absurd (findFile_none.mp hfind) hi.not_absent
  | some j =>
    have hij := h path i j hi (findFile_some hfind)
    rw [hij]
    rfl

/-- A path whose entries a call leaves alone is mapped as before. -/
theorem fileMap_frame {t t' : Table} (h : UniquePaths t) (h' : UniquePaths t') {q : List UInt8}
    (hiff : ∀ k, Holds t' q k ↔ Holds t q k)
    (hsame : ∀ k, Holds t q k → t'.fileTable k = t.fileTable k) : fileMap t' q = fileMap t q := by
  by_cases habsent : Absent t q
  · have habsent' : Absent t' q := by
      intro k hk
      exact habsent k ((hiff k).mp hk)
    rw [fileMap_of_absent habsent, fileMap_of_absent habsent']
  · unfold Absent at habsent
    push Not at habsent
    rcases habsent with ⟨k, hk⟩
    rw [fileMap_of_holds h hk, fileMap_of_holds h' ((hiff k).mpr hk), hsame k hk]

/-- A new entry adds its path to the map. -/
theorem fileMap_push {t : Table} (h : UniquePaths t) {path : List UInt8} {f : VfsFileT}
    (hf : f.path = some path) (hexists : f.existsFlag = true) (h' : UniquePaths (t.push f))
    (q : List UInt8) :
    fileMap (t.push f) q =
      if content q = content path then some (f.isDirectory, f.size) else fileMap t q := by
  have hmatch : matchesPath q f = true ↔ content path = content q := by
    rw [matchesPath_iff, hf, stringsEqual_some]
    exact and_iff_right hexists
  have hlast : (t.push f).fileTable t.fileCount = f := Function.update_self _ _ _
  split
  · rename_i hq
    have hnew : Holds (t.push f) q t.fileCount :=
      (holds_push t f q _).mpr (Or.inr ⟨rfl, hmatch.mpr hq.symm⟩)
    rw [fileMap_of_holds h' hnew, hlast]
  · rename_i hq
    apply fileMap_frame h h'
    · intro k
      rw [holds_push]
      constructor
      · intro hk
        rcases hk with hk | hk
        · exact hk
        · exact absurd (hmatch.mp hk.2).symm hq
      · intro hk
        exact Or.inl hk
    · intro k hk
      exact Function.update_of_ne (Nat.ne_of_lt hk.lt) _ _

theorem fileMap_delete {t : Table} (h : UniquePaths t) {path : List UInt8} {i : Nat}
    (hi : Holds t path i)
    (h' : UniquePaths (t.set i { t.fileTable i with existsFlag := false })) (q : List UInt8) :
    fileMap (t.set i { t.fileTable i with existsFlag := false }) q =
      if content q = content path then none else fileMap t q := by
  have hset : ∀ k, Holds (t.set i { t.fileTable i with existsFlag := false }) q k ↔
      k ≠ i ∧ Holds t q k := by
    intro k
    rw [holds_set t hi.lt, matchesPath_iff]
    by_cases hki : k = i
    · simp [hki]
    · simp [hki]
  split
  · rename_i hq
    apply fileMap_of_absent
    intro k hk
    rcases (hset k).mp hk with ⟨hki, hk⟩
    exact hki (h path k i ((holds_congr hq k).mp hk) hi)
  · rename_i hq
    have hne : ∀ k, Holds t q k → k ≠ i := by
      intro k hk hki
      rw [hki] at hk
      exact hq (hk.content_eq hi)
    apply fileMap_frame h h'
    · intro k
      rw [hset]
      constructor
      · intro hk
        exact hk.2
      · intro hk
        exact ⟨hne k hk, hk⟩
    · intro k hk
      exact Function.update_of_ne (hne k hk) _ _

theorem fileMap_move {t : Table} (h : UniquePaths t) {src dst : List UInt8} {i : Nat}
    (hi : Holds t src i)
    (h' : UniquePaths (t.set i { t.fileTable i with path := some dst })) (q : List UInt8) :
    fileMap (t.set i { t.fileTable i with path := some dst }) q =
      if content q = content dst then fileMap t src
      else if content q = content src then none else fileMap t q := by
  have hset : ∀ k, Holds (t.set i { t.fileTable i with path := some dst }) q k ↔
      if k = i then content dst = content q else Holds t q k := by
    intro k
    rw [holds_set t hi.lt, matchesPath_iff, stringsEqual_some]
    simp [hi.exists_flag]
  split
  · rename_i hq
    have hmoved : Holds (t.set i { t.fileTable i with path := some dst }) q i := by
      rw [hset, if_pos rfl]
      exact hq.symm
    rw [fileMap_of_holds h' hmoved, fileMap_of_holds h hi]
    simp [Table.set]
  · rename_i hdst
    split
    · rename_i hsrc
      apply fileMap_of_absent
      intro k hk
      rw [hset] at hk
      split at hk
      · exact hdst hk.symm
      · rename_i hki
        exact hki (h src k i ((holds_congr hsrc k).mp hk) hi)
    · rename_i hsrc
      have hne : ∀ k, Holds t q k → k ≠ i := by
        intro k hk hki
        rw [hki] at hk
        exact hsrc (hk.content_eq hi)
      apply fileMap_frame h h'
      · intro k
        rw [hset]
        by_cases hki : k = i
        · rw [if_pos hki]
          constructor
          · intro hk
            exact absurd hk.symm hdst
          · intro hk
            exact absurd hki (hne k hk)
        · rw [if_neg hki]
      · intro k hk
        exact Function.update_of_ne (hne k hk) _ _

/-! ## Histories -/

/-- What is owed of one call: a deleted or moved path is gone, there is no lack of
space while fewer than 64 entries exist, a failed call changes nothing, and a
successful one does to the map what it says. -/
structure BehavesAsMap (t : Table) (c : Call) : Prop where
  deleted : ∀ path, c = .delete (some path) → (perform t c).1 = 0 → Absent (step t c) path
  moved : ∀ src dst, c = .move (some src) (some dst) → (perform t c).1 = 0 →
    stringsEqual (some dst) (some src) = false → Absent (step t c) src
  mkdir_full : ∀ path, c = .mkdir (some path) → (perform t c).1 = -1 → existing t = maxFiles
  copy_full : ∀ src dst, c = .copy (some src) (some dst) → ¬Absent t src →
    (perform t c).1 = -1 → existing t = maxFiles
  failed : (perform t c).1 = -1 → step t c = t
  succeeded : (perform t c).1 ≠ -1 → fileMap (step t c) = mapCall (fileMap t) c

theorem absent_of_fileMap {t : Table} (h : UniquePaths t) {path : List UInt8}
    (hnone : fileMap t path = none) : Absent t path := by
  intro i hi
  rw [fileMap_of_holds h hi] at hnone
  exact Option.some_ne_none _ hnone

/-- A call that meets the condition acts on the map. -/
theorem fileMap_step {t : Table} {c : Call} (h : UniquePaths t) (hfresh : Fresh t c)
    (hok : (perform t c).1 ≠ -1) : fileMap (step t c) = mapCall (fileMap t) c := by
  have h' := uniquePaths_step t c h hfresh
  unfold step at h' ⊢
  funext q
  rcases perform_cases t c with ⟨heq, _⟩ | ⟨path, i, rfl, hi, heq⟩ |
    ⟨src, dst, i, rfl, hi, hroom, heq⟩ | ⟨path, rfl, hroom, heq⟩ | ⟨src, dst, i, rfl, hi, heq⟩
  · rw [heq] at hok
    exact absurd rfl hok
  · rw [heq] at h' ⊢
    exact fileMap_delete h hi h' q
  · rw [heq] at h' ⊢
    rw [fileMap_push h rfl rfl h' q]
    show _ = if content q = content dst then fileMap t src else fileMap t q
    rw [fileMap_of_holds h hi]
  · rw [heq] at h' ⊢
    exact fileMap_push h rfl rfl h' q
  · rw [heq] at h' ⊢
    exact fileMap_move h hi h' q

theorem behavesAsMap_of_fresh (t : Table) (c : Call) (h : UniquePaths t) (hfresh : Fresh t c) :
    BehavesAsMap t c := by
  have h' := uniquePaths_step t c h hfresh
  constructor
  · intro path hc hok
    have hmap := fileMap_step h hfresh (by rw [hok]; decide)
    apply absent_of_fileMap h'
    rw [hmap, hc]
    exact if_pos rfl
  · intro src dst hc hok hne
    have hmap := fileMap_step h hfresh (by rw [hok]; decide)
    have hcontent : content src ≠ content dst := by
      intro hsame
      rw [(stringsEqual_some dst src).mpr hsame.symm] at hne
      exact Bool.false_ne_true hne.symm
    apply absent_of_fileMap h'
    rw [hmap, hc]
    show (if _ then _ else if _ then _ else _) = _
    rw [if_neg hcontent, if_pos rfl]
  · intro path hc hfail
    have hfull := (perform_failed hfail).2.mkdir path hc
    subst hc
    exact hfresh.2 hfull
  · intro src dst hc hsrc hfail
    have hfull := (perform_failed hfail).2.copy src dst hc hsrc
    subst hc
    exact (hfresh hsrc).2 hfull
  · intro hfail
    unfold step
    rw [(perform_failed hfail).1]
  · intro hok
    exact fileMap_step h hfresh hok

/-- A refused call meets the condition if it is not refused for lack of space
while fewer than 64 entries exist. -/
theorem fresh_of_refused {t : Table} {c : Call} (h : Refused t c)
    (hmkdir : ∀ path, c = .mkdir (some path) → existing t = maxFiles)
    (hcopy : ∀ src dst, c = .copy (some src) (some dst) → ¬Absent t src → existing t = maxFiles) :
    Fresh t c := by
  unfold Fresh
  split
  · rename_i path
    have hfull := h.mkdir path rfl
    refine ⟨?_, ?_⟩
    · intro hroom
      exact absurd hroom (Nat.not_lt_of_ge hfull)
    · intro _
      exact hmkdir path rfl
  · rename_i src dst
    intro hsrc
    have hfull := h.copy src dst rfl hsrc
    refine ⟨?_, ?_⟩
    · intro hroom
      exact absurd hroom (Nat.not_lt_of_ge hfull)
    · intro _
      exact hcopy src dst rfl hsrc
  · rename_i src dst
    intro hsrc
    exact absurd (h.move src dst rfl) hsrc
  · trivial

/-- A call that keeps the paths apart and behaves as the map's operation meets the
condition. -/
theorem fresh_of_behavesAsMap {t : Table} {c : Call} (h' : UniquePaths (step t c))
    (hmap : BehavesAsMap t c) : Fresh t c := by
  have hpush : ∀ path f, step t c = t.push f → f.path = some path → f.existsFlag = true →
      Absent t path := by
    intro path f hstep hf hexists i hi
    have hmatch : matchesPath path f = true := by
      rw [matchesPath_iff, hf, stringsEqual_some]
      exact ⟨hexists, rfl⟩
    rw [hstep] at h'
    have hsame := h' path i t.fileCount ((holds_push t f path i).mpr (Or.inl hi))
      ((holds_push t f path _).mpr (Or.inr ⟨rfl, hmatch⟩))
    exact absurd hsame (Nat.ne_of_lt hi.lt)
  unfold step at h' hpush
  rcases perform_cases t c with ⟨heq, hrefused⟩ | ⟨path, i, rfl, hi, heq⟩ |
    ⟨src, dst, i, rfl, hi, hroom, heq⟩ | ⟨path, rfl, hroom, heq⟩ | ⟨src, dst, i, rfl, hi, heq⟩
  · have hfail : (perform t c).1 = -1 := congrArg Prod.fst heq
    exact fresh_of_refused hrefused (fun path hc => hmap.mkdir_full path hc hfail)
      (fun src dst hc hsrc => hmap.copy_full src dst hc hsrc hfail)
  · trivial
  · intro _
    refine ⟨?_, ?_⟩
    · intro _
      exact hpush dst _ (congrArg Prod.snd heq) rfl rfl
    · intro hfull
      exact absurd hroom (Nat.not_lt_of_ge hfull)
  · refine ⟨?_, ?_⟩
    · intro _
      exact hpush path _ (congrArg Prod.snd heq) rfl rfl
    · intro hfull
      exact absurd hroom (Nat.not_lt_of_ge hfull)
  · intro _
    by_cases hsame : content dst = content src
    · exact Or.inl hsame
    · right
      intro j hj
      have hji : j ≠ i := by
        intro hji
        rw [hji] at hj
        exact hsame (hj.content_eq hi)
      rw [heq] at h'
      apply hji
      apply h' dst j i
      · rw [holds_set t hi.lt, if_neg hji]
        exact hj
      · rw [holds_set t hi.lt, if_pos rfl, matchesPath_iff, stringsEqual_some]
        exact ⟨hi.exists_flag, rfl⟩

theorem uniquePaths_initial (t : Table) : UniquePaths (fileOpsInitialize t) := by
  intro path i j hi _
  exact absurd hi.lt (Nat.not_lt_zero i)

/-- In every history, the table is a finite map of at most 64 paths exactly when
every creation and every move is for a path that does not exist yet, and no
creation finds deleted entries in a table whose places are all used. -/
theorem file_table_map_iff (t : Table) (calls : List Call) :
    Always step UniquePaths (fileOpsInitialize t) calls ∧
        Each step BehavesAsMap (fileOpsInitialize t) calls ↔
      Each step Fresh (fileOpsInitialize t) calls := by
  constructor
  · intro h
    apply Each.weaken (fun _ => True) _ _ trivial (h.1.each_next.and h.2)
    · intro _ _ _ _
      trivial
    · intro t c _ hstep
      exact fresh_of_behavesAsMap hstep.1 hstep.2
  · intro h
    have h0 := uniquePaths_initial t
    constructor
    · exact always_of_each UniquePaths uniquePaths_step (fun _ hunique => hunique) h0 h
    · exact Each.weaken UniquePaths uniquePaths_step behavesAsMap_of_fresh h0 h

/-- The table before the first call. -/
def table : Table where
  fileTable := fun _ => ⟨none, false, 0, false⟩
  fileCount := 0

/-- `mkdir` twice for one path. -/
def mkdirTwice : List Call :=
  [.mkdir (some "/tmp".toUTF8.data.toList), .mkdir (some "/tmp".toUTF8.data.toList)]

theorem mkdir_duplicates_path :
    ¬(Always step UniquePaths (fileOpsInitialize table) mkdirTwice ∧
      Each step BehavesAsMap (fileOpsInitialize table) mkdirTwice) := by
  intro h
  have hlast := h.1.last "/tmp".toUTF8.data.toList 0 1
    ⟨by decide +kernel, by decide +kernel, by decide +kernel⟩
    ⟨by decide +kernel, by decide +kernel, by decide +kernel⟩
  exact absurd hlast (by decide)

end CosKernel.FileOps
