import CosKernel.Fat32.Lookups

/-!
# Reads that fail

The loop of `fat32_read` moves `current_position` in every turn, and a turn reads one
cluster. So what a failing read leaves depends on where it fails: in the first turn
nothing has changed yet, in a later one the position is behind the bytes of the turns
before, which the caller is told nothing of. `outcome` says how many bytes the loop
took and how it ended, in terms of its turns.
-/

namespace CosKernel.Fat32

/-! ## Turns -/

/-- With `count` bytes to read from `offset` on, there are some in the cluster that is `t` clusters
further. -/
def Reached (size offset count t : Nat) : Prop := 0 < count ∧ (offset / size + t) * size < offset + count

/-- The sectors of a cluster can be read, from read `n` on. -/
def ClusterRead (ahci : Ahci) (fs : Fs) (n : Nat) (c : UInt32) : Prop :=
  ∀ j < fs.sectorsPerCluster.toNat, (ahci (n + j) (fat32ClusterLba fs c + UInt32.ofNat j)).isSome = true

/-- The loop gets to its turn `t` from cluster `c` on, and a read of this turn fails. -/
structure FailsAt (ahci : Ahci) (fs : Fs) (size offset count n : Nat) (c : UInt32) (t : Nat) : Prop where
  reached : Reached size offset count t
  linked : ∀ k ≤ t, Linked (link fs c k)
  earlier : ∀ k < t, ClusterRead ahci fs (n + k * fs.sectorsPerCluster.toNat) (link fs c k)
  fails : ¬ ClusterRead ahci fs (n + t * fs.sectorsPerCluster.toNat) (link fs c t)

/-- All turns that the bytes need can be made from cluster `c` on. -/
def Complete (ahci : Ahci) (fs : Fs) (size offset count n : Nat) (c : UInt32) : Prop :=
  ∀ t, Reached size offset count t →
    Linked (link fs c t) ∧ ClusterRead ahci fs (n + t * fs.sectorsPerCluster.toNat) (link fs c t)

theorem fat32ReadSectors_ok_iff (ahci : Ahci) (fs : Fs) (n : Nat) (c : UInt32) (buffer : Nat → UInt8) :
    (fat32ReadSectors ahci n (fat32ClusterLba fs c) fs.sectorsPerCluster buffer).1 = true ↔
      ClusterRead ahci fs n c := by
  unfold fat32ReadSectors
  rw [readSectorsFrom_ok_iff]
  simp only [Nat.zero_add]
  rfl

section Reach

variable {size offset count : Nat}

theorem reached_zero : Reached size offset count 0 ↔ 0 < count := by
  have hdiv := Nat.div_mul_le_self offset size
  constructor
  · exact fun h => h.1
  · intro h
    exact ⟨h, by rw [Nat.add_zero]; omega⟩

theorem not_reached (hcount : count = 0) (t : Nat) : ¬ Reached size offset count t := by
  rintro ⟨hpos, -⟩
  omega

/-- A turn that takes all the bytes is the last. -/
theorem not_reached_succ (hend : count ≤ size - offset % size) (hpos : 0 < size) (t : Nat) :
    ¬ Reached size offset count (t + 1) := by
  rintro ⟨-, hlt⟩
  have hdiv := Nat.div_add_mod' offset size
  have hmod := Nat.mod_lt offset hpos
  have hle : (offset / size + 1) * size ≤ (offset / size + (t + 1)) * size := Nat.mul_le_mul_right _ (by omega)
  rw [Nat.add_mul, Nat.one_mul] at hle
  omega

/-- Behind a turn that goes to the end of its cluster, every turn is one nearer. -/
theorem reached_next (hpos : 0 < size) (hmore : size - offset % size < count) (t : Nat) :
    Reached size (offset + (size - offset % size)) (count - (size - offset % size)) t ↔
      Reached size offset count (t + 1) := by
  have hdiv := Nat.div_add_mod' offset size
  have hmod := Nat.mod_lt offset hpos
  have hsum : offset + (size - offset % size) = (offset / size + 1) * size := by
    rw [Nat.add_mul, Nat.one_mul]
    omega
  have hquot : (offset + (size - offset % size)) / size = offset / size + 1 := by
    rw [hsum, Nat.mul_div_cancel _ hpos]
  have hend : offset + (size - offset % size) + (count - (size - offset % size)) = offset + count := by omega
  unfold Reached
  rw [hquot, hend, Nat.add_assoc, Nat.add_comm 1 t]
  constructor
  · exact fun h => ⟨by omega, h.2⟩
  · exact fun h => ⟨by omega, h.2⟩

end Reach

section Shift

variable {ahci : Ahci} {fs : Fs} {size offset count n : Nat} {c : UInt32}

theorem failsAt_zero : FailsAt ahci fs size offset count n c 0 ↔
    0 < count ∧ Linked c ∧ ¬ ClusterRead ahci fs n c := by
  constructor
  · intro h
    have hfails := h.fails
    rw [Nat.zero_mul, Nat.add_zero] at hfails
    exact ⟨h.reached.1, h.linked 0 le_rfl, hfails⟩
  · rintro ⟨hcount, hlinked, hfails⟩
    refine ⟨reached_zero.2 hcount, ?_, fun k hk => by omega, ?_⟩
    · intro k hk
      obtain rfl : k = 0 := by omega
      exact hlinked
    · rw [Nat.zero_mul, Nat.add_zero]
      exact hfails

theorem shift_reads (k spc : Nat) : n + spc + k * spc = n + (k + 1) * spc := by
  rw [Nat.succ_mul]
  omega

/-- After a turn that succeeds, the turn that fails is one nearer. -/
theorem failsAt_succ (hpos : 0 < size) (hmore : size - offset % size < count) (hlinked : Linked c)
    (hread : ClusterRead ahci fs n c) (t : Nat) :
    FailsAt ahci fs size (offset + (size - offset % size)) (count - (size - offset % size))
        (n + fs.sectorsPerCluster.toNat) (fat32FollowClusterChain fs c) t ↔
      FailsAt ahci fs size offset count n c (t + 1) := by
  constructor
  · intro h
    refine ⟨(reached_next hpos hmore t).1 h.reached, ?_, ?_, ?_⟩
    · intro k hk
      cases k with
      | zero => exact hlinked
      | succ k => exact h.linked k (by omega)
    · intro k hk
      cases k with
      | zero =>
        rw [Nat.zero_mul, Nat.add_zero]
        exact hread
      | succ k =>
        rw [← shift_reads]
        exact h.earlier k (by omega)
    · rw [← shift_reads]
      exact h.fails
  · intro h
    refine ⟨(reached_next hpos hmore t).2 h.reached, fun k hk => h.linked (k + 1) (by omega), ?_, ?_⟩
    · intro k hk
      rw [shift_reads]
      exact h.earlier (k + 1) (by omega)
    · rw [shift_reads]
      exact h.fails

theorem complete_iff_succ (hpos : 0 < size) (hmore : size - offset % size < count) (hlinked : Linked c)
    (hread : ClusterRead ahci fs n c) :
    Complete ahci fs size (offset + (size - offset % size)) (count - (size - offset % size))
        (n + fs.sectorsPerCluster.toNat) (fat32FollowClusterChain fs c) ↔
      Complete ahci fs size offset count n c := by
  constructor
  · intro h t ht
    cases t with
    | zero =>
      rw [Nat.zero_mul, Nat.add_zero]
      exact ⟨hlinked, hread⟩
    | succ t =>
      rw [← shift_reads]
      exact h t ((reached_next hpos hmore t).2 ht)
  · intro h t ht
    rw [shift_reads]
    exact h (t + 1) ((reached_next hpos hmore t).1 ht)

/-- The first turn of those that a complete read needs. -/
theorem Complete.first (h : Complete ahci fs size offset count n c) (hcount : 0 < count) :
    Linked c ∧ ClusterRead ahci fs n c := by
  have hzero := h 0 (reached_zero.2 hcount)
  rwa [Nat.zero_mul, Nat.add_zero] at hzero

end Shift

/-! ## The loop -/

/-- How the loop ends that took `m` bytes: a read failed, in its first turn or in a later one, or it
has taken all it was asked for, or the chain has ended before. -/
structure Outcome (ahci : Ahci) (fs : Fs) (size offset count n : Nat) (c : UInt32) (ok : Bool) (m : Nat) :
    Prop where
  le : m ≤ count
  failed : ok = false ↔ ∃ t, FailsAt ahci fs size offset count n c t
  failed_first : ok = false ∧ m = 0 ↔ FailsAt ahci fs size offset count n c 0
  complete : ok = true ∧ m = count ↔ Complete ahci fs size offset count n c

section Outcomes

variable {ahci : Ahci} {fs : Fs} {size offset count n : Nat} {c : UInt32}

/-- A loop that failed has taken nothing unless it failed in a later turn. -/
theorem Outcome.unmoved_iff {m : Nat} (h : Outcome ahci fs size offset count n c false m) :
    m = 0 ↔ ¬ ∃ t, 0 < t ∧ FailsAt ahci fs size offset count n c t := by
  constructor
  · -- nothing was taken, so the first turn failed
    rintro hzero ⟨t, ht, hfails⟩
    have hfirst := (failsAt_zero.1 (h.failed_first.1 ⟨rfl, hzero⟩)).2.2
    have hearlier := hfails.earlier 0 ht
    rw [Nat.zero_mul, Nat.add_zero] at hearlier
    exact hfirst hearlier
  · intro hno
    obtain ⟨t, ht⟩ := h.failed.1 rfl
    obtain rfl : t = 0 := by
      by_contra hne
      exact hno ⟨t, Nat.pos_of_ne_zero hne, ht⟩
    exact (h.failed_first.2 ht).2

/-- A loop that did not fail has taken as much as possible exactly if that much is due and all its
turns can be made. -/
theorem Outcome.delivers_iff {m most : Nat} (h : Outcome ahci fs size offset count n c true m)
    (hmost : count ≤ most) : (count = most ∧ Complete ahci fs size offset count n c) ↔ m = most := by
  have hle := h.le
  rw [← h.complete]
  simp only [true_and]
  omega

/-- The loop does not start, for want of bytes or of a cluster. -/
theorem outcome_ended (hend : ¬ (0 < count ∧ Linked c)) : Outcome ahci fs size offset count n c true 0 := by
  have hno : ∀ t, ¬ FailsAt ahci fs size offset count n c t := fun t h =>
    hend ⟨h.reached.1, h.linked 0 (Nat.zero_le t)⟩
  refine ⟨Nat.zero_le _, ?_, ?_, ?_⟩
  · simp [hno]
  · simp [hno]
  · constructor
    · rintro ⟨-, hzero⟩ t ht
      exact absurd ht (not_reached hzero.symm t)
    · intro h
      by_contra hne
      have hcount : 0 < count := by
        by_contra hzero
        exact hne ⟨rfl, by omega⟩
      exact hend ⟨hcount, (h.first hcount).1⟩

/-- A read of the first turn fails. -/
theorem outcome_failed (hcount : 0 < count) (hlinked : Linked c) (hread : ¬ ClusterRead ahci fs n c) :
    Outcome ahci fs size offset count n c false 0 := by
  have hfails : FailsAt ahci fs size offset count n c 0 := failsAt_zero.2 ⟨hcount, hlinked, hread⟩
  refine ⟨Nat.zero_le _, ?_, ?_, ?_⟩
  · simp only [true_iff]
    exact ⟨0, hfails⟩
  · simp [hfails]
  · simp only [Bool.false_eq_true, false_and, false_iff]
    exact fun h => hread (h.first hcount).2

/-- The first turn takes all the bytes. -/
theorem outcome_last (hpos : 0 < size) (hend : count ≤ size - offset % size)
    (hlinked : Linked c) (hread : ClusterRead ahci fs n c) :
    Outcome ahci fs size offset count n c true count := by
  have hno : ∀ t, ¬ FailsAt ahci fs size offset count n c t := by
    intro t h
    cases t with
    | zero => exact (failsAt_zero.1 h).2.2 hread
    | succ t => exact not_reached_succ hend hpos t h.reached
  refine ⟨le_rfl, ?_, ?_, ?_⟩
  · simp [hno]
  · simp [hno]
  · simp only [true_and, true_iff]
    intro t ht
    cases t with
    | zero =>
      rw [Nat.zero_mul, Nat.add_zero]
      exact ⟨hlinked, hread⟩
    | succ t => exact absurd ht (not_reached_succ hend hpos t)

/-- The first turn goes to the end of its cluster, and the loop goes on. -/
theorem Outcome.next {ok : Bool} {m : Nat} (hpos : 0 < size) (hmore : size - offset % size < count)
    (hlinked : Linked c) (hread : ClusterRead ahci fs n c)
    (h : Outcome ahci fs size (offset + (size - offset % size)) (count - (size - offset % size))
      (n + fs.sectorsPerCluster.toNat) (fat32FollowClusterChain fs c) ok m) :
    Outcome ahci fs size offset count n c ok (size - offset % size + m) := by
  have hle := h.le
  have hmod := Nat.mod_lt offset hpos
  have hfirst : ¬ FailsAt ahci fs size offset count n c 0 := fun hfails => (failsAt_zero.1 hfails).2.2 hread
  refine ⟨by omega, ?_, ?_, ?_⟩
  · rw [h.failed]
    constructor
    · rintro ⟨t, ht⟩
      exact ⟨t + 1, (failsAt_succ hpos hmore hlinked hread t).1 ht⟩
    · rintro ⟨t, ht⟩
      cases t with
      | zero => exact absurd ht hfirst
      | succ t => exact ⟨t, (failsAt_succ hpos hmore hlinked hread t).2 ht⟩
  · refine iff_of_false ?_ hfirst
    rintro ⟨-, hzero⟩
    omega
  · rw [← complete_iff_succ hpos hmore hlinked hread, ← h.complete]
    refine and_congr_right fun _ => ?_
    omega

variable (ahci) in
/-- How the loop of `fat32_read` ends. -/
theorem readLoop_outcome (hpos : 0 < size) {fuel : Nat} (hfuel : count ≤ fuel) (buffer : Nat → UInt8)
    (written : List UInt8) (position : UInt32) :
    ∃ ok m, Outcome ahci fs size offset count n c ok m ∧
      ∃ p, readLoop ahci fs size fuel n buffer count offset c written position = p ∧ p.ok = ok ∧
        p.written.length = written.length + m ∧ p.position = position + UInt32.ofNat m := by
  have hstay : ∀ position : UInt32, position = position + UInt32.ofNat 0 := fun position =>
    (UInt32.add_zero position).symm
  induction fuel generalizing n buffer count offset c written position with
  | zero =>
    have hend : ¬ (0 < count ∧ Linked c) := fun h => by omega
    exact ⟨true, 0, outcome_ended hend, _, readLoop_ended ahci _ _ _ _ _ _ _ hend, rfl, rfl, hstay _⟩
  | succ fuel ih =>
    by_cases hgo : 0 < count ∧ Linked c
    swap
    · exact ⟨true, 0, outcome_ended hgo, _, readLoop_ended ahci _ _ _ _ _ _ _ hgo, rfl, rfl, hstay _⟩
    obtain ⟨hcount, hlinked⟩ := hgo
    have hok := fat32ReadSectors_ok_iff ahci fs n c buffer
    rw [readLoop, if_pos ⟨hcount, hlinked⟩]
    rcases hsectors : fat32ReadSectors ahci n (fat32ClusterLba fs c) fs.sectorsPerCluster buffer with
      ⟨_ | _, buffer'⟩
    · rw [hsectors] at hok
      have hread : ¬ ClusterRead ahci fs n c := by simpa using hok
      exact ⟨false, 0, outcome_failed hcount hlinked hread, _, rfl, rfl, rfl, hstay _⟩
    rw [hsectors] at hok
    have hread : ClusterRead ahci fs n c := by simpa using hok
    by_cases hend : count ≤ size - offset % size
    · -- the last turn
      have hnone : count - count = 0 := Nat.sub_self count
      simp only [Nat.min_eq_right hend, hnone, readLoop_zero]
      refine ⟨true, count, outcome_last hpos hend hlinked hread, _, rfl, rfl, ?_, rfl⟩
      rw [List.length_append, List.length_map, List.length_range]
    · have hmore := Nat.lt_of_not_le hend
      have hmod := Nat.mod_lt offset hpos
      have hedge := add_sub_mod_mod offset hpos
      simp only [Nat.min_eq_left (Nat.le_of_lt hmore), hedge, if_true]
      obtain ⟨ok, m, houtcome, p, hp, hpok, hlen, hposition⟩ :=
        ih (by omega : count - (size - offset % size) ≤ fuel) buffer'
        (written ++ (List.range (size - offset % size)).map fun i => buffer' (offset % size + i))
        (position + UInt32.ofNat (size - offset % size))
      refine ⟨ok, _, houtcome.next hpos hmore hlinked hread, p, hp, hpok, ?_, ?_⟩
      · rw [hlen, List.length_append, List.length_map, List.length_range, Nat.add_assoc]
      · rw [hposition, UInt32.add_assoc, ← UInt32.ofNat_add]

end Outcomes

/-! ## A read -/

/-- The cluster that the current position of a file is in, as far as its chain leads. -/
def positionCluster (fs : Fs) (file : File) : UInt32 :=
  if fat32IsEoc file.firstCluster then file.firstCluster
  else link fs file.firstCluster (file.currentPosition.toNat / (fs.sectorsPerCluster * 512).toNat)

/-- The read fails in a turn of its loop after the first. -/
def FailsLate (ahci : Ahci) (fs : Fs) (file : File) (size : UInt64) : Prop :=
  ∃ t, 0 < t ∧ FailsAt ahci fs (fs.sectorsPerCluster * 512).toNat file.currentPosition.toNat (file.due size) 0
    (positionCluster fs file) t

/-- The read delivers so many bytes that their number is -1 as an `int`. -/
def DeliversMinusOne (ahci : Ahci) (fs : Fs) (file : File) (size : UInt64) : Prop :=
  file.due size = 2 ^ 32 - 1 ∧
    Complete ahci fs (fs.sectorsPerCluster * 512).toNat file.currentPosition.toNat (file.due size) 0
      (positionCluster fs file)

theorem asInt_eq_neg_one_iff {n : Nat} (hn : n < 2 ^ 32) : asInt n = -1 ↔ n = 2 ^ 32 - 1 := by
  have hmod : n % 2 ^ 32 = n := Nat.mod_eq_of_lt hn
  unfold asInt
  rw [BitVec.toInt_eq_toNat_cond, BitVec.toNat_ofNat, hmod]
  split <;> omega

/-- Only the position of the handle was written, so the state is the same if it is. -/
theorem setFile_position_eq_iff (s : State) (i : Fin maxFiles) (position : UInt32) :
    s.setFile i { s.files i with currentPosition := position } = s ↔ position = (s.files i).currentPosition := by
  constructor
  · intro h
    have hfile := congrArg (fun s : State => (s.files i).currentPosition) h
    simpa [State.setFile] using hfile
  · rintro rfl
    exact s.setFile_self i

/-- A position moved by less than 2^32 bytes is the same only if it did not move. -/
theorem add_ofNat_eq_self_iff (position : UInt32) {m : Nat} (hm : m < 2 ^ 32) :
    position + UInt32.ofNat m = position ↔ m = 0 := by
  have hlt := position.toNat_lt
  rw [← UInt32.toNat_inj, UInt32.toNat_add, UInt32.toNat_ofNat', Nat.mod_eq_of_lt hm]
  omega

/-- How a read of an open handle in front of the end of its file ends. -/
theorem fat32Read_outcome {s : State} {i : Fin maxFiles} (hopen : (s.files i).isOpen = true)
    (hlt : (s.files i).currentPosition.toNat < (s.files i).fileSize.toNat) (ahci : Ahci)
    (stack : Nat → UInt8) (size : UInt64) (hdiv : readDivisor i.val true s ≠ some 0) :
    ∃ ok m, Outcome ahci s.fs (s.fs.sectorsPerCluster * 512).toNat (s.files i).currentPosition.toNat
        ((s.files i).due size) 0 (positionCluster s.fs (s.files i)) ok m ∧
      (fat32Read ahci stack i.val true size s).ret = (if ok then asInt m else -1) ∧
      (fat32Read ahci stack i.val true size s).state = s.setFile i { s.files i with
        currentPosition := (s.files i).currentPosition + UInt32.ofNat m } := by
  -- the size of a cluster is divided by, so it is not 0
  have hpos : 0 < (s.fs.sectorsPerCluster * 512).toNat := by
    have hbefore : ¬ (s.files i).fileSize ≤ (s.files i).currentPosition := by
      rw [UInt32.le_iff_toNat_le]
      omega
    unfold readDivisor at hdiv
    rw [handle?_val] at hdiv
    simp only [hopen, Bool.not_true, Bool.or_self, Bool.false_eq_true, if_false, if_neg hbefore, ne_eq,
      Option.some.injEq] at hdiv
    exact Nat.pos_of_ne_zero fun hzero => hdiv (UInt32.toNat_inj.1 hzero)
  have hskip : skipClusters s.fs ((s.files i).currentPosition.toNat / (s.fs.sectorsPerCluster * 512).toNat)
      (s.files i).firstCluster = positionCluster s.fs (s.files i) := skipClusters_eq _ _ _
  obtain ⟨ok, m, houtcome, p, hp, hok, hlen, hposition⟩ :=
    readLoop_outcome ahci (c := positionCluster s.fs (s.files i)) (n := 0) hpos
      (le_refl ((s.files i).due size)) stack [] (s.files i).currentPosition
  rw [← hskip] at hp
  rw [fat32Read_open rfl hopen hlt ahci stack size hp, hok, hlen, hposition, List.length_nil, Nat.zero_add]
  exact ⟨ok, m, houtcome, rfl, rfl⟩

/-- A read that returns -1 leaves everything as it was, unless it fails behind its first cluster or has
delivered 2^32 - 1 bytes. -/
theorem failed_read_unmoved_iff {s : State} {i : Fin maxFiles} (hopen : (s.files i).isOpen = true)
    (ahci : Ahci) (stack : Nat → UInt8) (nonNull : Bool) (size : UInt64)
    (hdiv : readDivisor i.val nonNull s ≠ some 0) :
    ((fat32Read ahci stack i.val nonNull size s).ret = -1 →
      (fat32Read ahci stack i.val nonNull size s).state = s) ↔
        (nonNull = true →
          ¬ FailsLate ahci s.fs (s.files i) size ∧ ¬ DeliversMinusOne ahci s.fs (s.files i) size) := by
  cases nonNull with
  | false =>
    rw [fat32Read_refused fun i _ => by simp]
    simp
  | true =>
    have hfile := (s.files i).fileSize.toNat_lt
    have hdue : (s.files i).due size ≤ (s.files i).fileSize.toNat - (s.files i).currentPosition.toNat :=
      Nat.min_le_right ..
    by_cases hend : (s.files i).fileSize.toNat ≤ (s.files i).currentPosition.toNat
    · -- nothing is due, and nothing fails
      rw [fat32Read_at_end hopen hend]
      refine iff_of_true (fun h => by simp at h) fun _ => ⟨?_, ?_⟩
      · rintro ⟨t, -, hfails⟩
        have hreached := hfails.reached.1
        omega
      · rintro ⟨hall, -⟩
        omega
    obtain ⟨ok, m, houtcome, hret, hstate⟩ :=
      fat32Read_outcome hopen (Nat.lt_of_not_le hend) ahci stack size hdiv
    have hm := houtcome.le
    rw [hret, hstate, setFile_position_eq_iff, add_ofNat_eq_self_iff _ (by omega)]
    simp only [true_imp_iff]
    cases ok with
    | false =>
      have hnot : ¬ DeliversMinusOne ahci s.fs (s.files i) size := fun h =>
        absurd (houtcome.complete.2 h.2).1 (by simp)
      simp only [Bool.false_eq_true, if_false, true_imp_iff, hnot, not_false_iff, and_true]
      exact houtcome.unmoved_iff
    | true =>
      have hnot : ¬ FailsLate ahci s.fs (s.files i) size := fun ⟨t, _, ht⟩ =>
        absurd (houtcome.failed.2 ⟨t, ht⟩) (by simp)
      simp only [if_true, asInt_eq_neg_one_iff (by omega : m < 2 ^ 32), hnot, not_false_iff, true_and]
      have hfull : DeliversMinusOne ahci s.fs (s.files i) size ↔ m = 2 ^ 32 - 1 :=
        houtcome.delivers_iff (by omega)
      rw [hfull]
      omega

/-- An open file of 1000 bytes in the clusters 3 and 4, of one sector each. -/
def twoClusterFile : State where
  fs := { initialState.fs with
    sectorsPerCluster := 1
    fatTable := some fun j => if j = 12 then 4 else if 16 ≤ j then 0xFF else 0 }
  files := fun _ => ⟨3, 1000, 0, true⟩

/-- The first cluster cannot be read. -/
theorem failed_read_unmoved_first :
    (fat32Read (fun _ _ => none) (fun _ => 0) 0 true 1000 twoClusterFile).ret = -1 ∧
      (fat32Read (fun _ _ => none) (fun _ => 0) 0 true 1000 twoClusterFile).state =
        twoClusterFile := by
  have hret : (fat32Read (fun _ _ => none) (fun _ => 0) 0 true 1000 twoClusterFile).ret = -1 := by
    decide
  have hopen : (twoClusterFile.files ⟨0, by decide⟩).isOpen = true := rfl
  refine ⟨hret, (failed_read_unmoved_iff hopen _ _ true 1000 (by decide)).2 (fun _ => ⟨?_, ?_⟩) hret⟩
  · rintro ⟨t, ht, hfails⟩
    -- no turn comes before the one that fails
    have hread := hfails.earlier 0 ht 0 (by decide)
    cases hread
  · rintro ⟨hall, -⟩
    revert hall
    decide

/-- The second cluster cannot be read: the 512 bytes of the first are lost. -/
theorem failed_read_moves :
    (fat32Read (faulty (fun _ _ => 7) fun n => n = 1) (fun _ => 0) 0 true 1000 twoClusterFile).ret = -1 ∧
      ((fat32Read (faulty (fun _ _ => 7) fun n => n = 1) (fun _ => 0) 0 true 1000
        twoClusterFile).state.files ⟨0, by decide⟩).currentPosition = 512 ∧
      (twoClusterFile.files ⟨0, by decide⟩).currentPosition = 0 := by
  refine ⟨?_, ?_, rfl⟩
  · decide +kernel
  · decide +kernel

end CosKernel.Fat32
