import CosKernel.Audio.Model

/-!
# The divisor of a tone

The quotient of the two frequencies is cut to 16 bits without a look at its size.
It is the divisor that comes nearest to the tone only where it has a size the
timer can count with: not below 19 Hz, where the upper bits are lost, and not
above the frequency of the timer, where a quotient of zero is the longest count
of all.
-/

namespace CosKernel.Audio

open Spooler

/-! ## Bytes of a divisor -/

theorem toNat_pitDivisor (frequency : UInt32) :
    (pitDivisor frequency).toNat = 1193180 / frequency.toNat % 65536 := by
  rw [pitDivisor, UInt32.toNat_toUInt16, UInt32.toNat_div]
  rfl

/-- The two bytes sent are the divisor. -/
theorem bytes_divisor (d : UInt16) :
    (d &&& 0xFF).toUInt8.toNat + 256 * ((d >>> 8) &&& 0xFF).toUInt8.toNat = d.toNat := by
  have hd := d.toNat_lt
  rw [UInt16.toNat_toUInt8, UInt16.toNat_toUInt8, UInt16.toNat_and, UInt16.toNat_and,
    UInt16.toNat_shiftRight]
  show (d.toNat &&& 2 ^ 8 - 1) % 256 + 256 * ((d.toNat >>> 8 &&& 2 ^ 8 - 1) % 256) = d.toNat
  rw [Nat.and_two_pow_sub_one_eq_mod, Nat.and_two_pow_sub_one_eq_mod, Nat.shiftRight_eq_div_pow]
  omega

/-- The divisor the timer counts with for a tone. -/
def sentDivisor (frequency : UInt32) : Nat :=
  if 1193180 / frequency.toNat % 65536 = 0 then 65536 else 1193180 / frequency.toNat % 65536

/-- A tone that is played sets one divisor, whatever the timer was set to before. -/
theorem foldl_audioPlayTone {frequency durationMs : UInt32} (hf : frequency ≠ 0) (hd : durationMs ≠ 0)
    (before after : UInt8) (p : Pit) :
    (audioPlayTone true frequency durationMs before after).foldl Pit.write p =
      ⟨none, p.divisors ++ [sentDivisor frequency]⟩ := by
  have hsilent : ¬ (true = false ∨ frequency = 0 ∨ durationMs = 0) := by
    rintro (h | h | h)
    · cases h
    · exact hf h
    · exact hd h
  have hbytes := bytes_divisor (pitDivisor frequency)
  rw [toNat_pitDivisor] at hbytes
  rw [audioPlayTone, if_neg hsilent, audioPitSetFrequency, if_neg hf]
  show Pit.mk none (p.divisors ++ [counted _ _]) = _
  rw [counted, hbytes, sentDivisor]

/-- A tone that is not played sets none. -/
theorem foldl_audioPlayTone_silent {initialized : Bool} {frequency durationMs : UInt32}
    (h : initialized = false ∨ frequency = 0 ∨ durationMs = 0) (before after : UInt8) (p : Pit) :
    (audioPlayTone initialized frequency durationMs before after).foldl Pit.write p = p := by
  rw [audioPlayTone, if_pos h]
  rfl

/-! ## The right divisor -/

/-- The divisor of a tone, kept in the range of the timer. -/
def toneDivisor (frequency : UInt32) : Nat := max 1 (min 65536 (1193180 / frequency.toNat))

/-- The tones whose quotient is in this range. -/
def InRange (frequency : UInt32) : Prop := 19 ≤ frequency.toNat ∧ frequency.toNat ≤ 1193180

instance (frequency : UInt32) : Decidable (InRange frequency) := inferInstanceAs (Decidable (_ ∧ _))

theorem toNat_pos {f : UInt32} (hf : f ≠ 0) : 0 < f.toNat := by
  rw [Nat.pos_iff_ne_zero]
  intro h
  exact hf (UInt32.toNat_inj.1 h)

theorem sentDivisor_eq_iff {frequency : UInt32} (hf : frequency ≠ 0) :
    sentDivisor frequency = toneDivisor frequency ↔ InRange frequency := by
  have hpos := toNat_pos hf
  unfold sentDivisor toneDivisor InRange
  generalize frequency.toNat = f at hpos
  by_cases hlow : f < 19
  · -- below 19 Hz the quotient has more than 16 bits
    refine iff_of_false ?_ (by omega)
    interval_cases f <;> decide
  · by_cases hhigh : 1193180 < f
    · refine iff_of_false ?_ (by omega)
      rw [Nat.div_eq_of_lt hhigh]
      decide
    · refine iff_of_true ?_ (by omega)
      have hle : 1193180 / f ≤ 1193180 / 19 := Nat.div_le_div_left (by omega) (by decide)
      have hge : 0 < 1193180 / f := Nat.div_pos (by omega) hpos
      have hmod : 1193180 / f % 65536 = 1193180 / f := Nat.mod_eq_of_lt (by omega)
      rw [hmod, if_neg (by omega)]
      omega

/-- Higher tones have smaller divisors, or the same. -/
theorem toneDivisor_antitone {f g : UInt32} (hf : f ≠ 0) (hfg : f ≤ g) : toneDivisor g ≤ toneDivisor f := by
  have hdiv : 1193180 / g.toNat ≤ 1193180 / f.toNat := Nat.div_le_div_left hfg (toNat_pos hf)
  exact max_le_max (le_refl _) (min_le_min (le_refl _) hdiv)

/-! ## Tones of the spooler -/

/-- All tones that were played or that wait in a slot are in a set. -/
structure OnlyTones (tones : Set (UInt32 × UInt32)) (s : AudioSpooler) : Prop where
  played : ∀ t ∈ s.played, t ∈ tones
  queued : ∀ i, (s.audioQueue i).valid = true →
    ((s.audioQueue i).frequency, (s.audioQueue i).durationMs) ∈ tones

theorem OnlyTones.mono {tones tones' : Set (UInt32 × UInt32)} {s : AudioSpooler} (h : OnlyTones tones s)
    (hsub : tones ⊆ tones') : OnlyTones tones' s :=
  ⟨fun t ht => hsub (h.played t ht), fun i hi => hsub (h.queued i hi)⟩

theorem OnlyTones.spoolAudioTone {tones : Set (UInt32 × UInt32)} {s : AudioSpooler}
    (h : OnlyTones tones s) {frequency durationMs : UInt32} (hmem : (frequency, durationMs) ∈ tones) :
    OnlyTones tones (spoolAudioTone frequency durationMs s) := by
  simp only [Spooler.spoolAudioTone]
  split
  · exact h
  · refine ⟨h.played, ?_⟩
    intro i hi
    by_cases heq : i = s.audioTail
    · simp only [heq, Function.update_self]
      exact hmem
    · simp only [Function.update_of_ne heq] at hi ⊢
      exact h.queued i hi

theorem OnlyTones.serveAudio {tones : Set (UInt32 × UInt32)} {s : AudioSpooler} (h : OnlyTones tones s) :
    OnlyTones tones (serveAudio s) := by
  simp only [Spooler.serveAudio]
  split
  · rename_i hvalid
    refine ⟨?_, ?_⟩
    · intro t ht
      rcases List.mem_append.1 ht with hold | hnew
      · exact h.played t hold
      · rw [List.mem_singleton.1 hnew]
        exact h.queued s.audioHead hvalid
    · intro i hi
      by_cases heq : i = s.audioHead
      · simp only [heq, Function.update_self, Bool.false_eq_true] at hi
      · simp only [Function.update_of_ne heq] at hi ⊢
        exact h.queued i hi
  · exact h

/-- The service plays nothing but what was queued. -/
theorem onlyTones_calls (cs : List Call) :
    OnlyTones {t | Call.spoolAudioTone t.1 t.2 ∈ cs} (cs.foldl step start).spooler.audio := by
  induction cs using List.reverseRecOn with
  | nil =>
    refine ⟨fun t ht => absurd ht List.not_mem_nil, ?_⟩
    intro i hi
    cases hi
  | append_singleton cs c ih =>
    rw [List.foldl_append, List.foldl_cons, List.foldl_nil]
    have ih' : OnlyTones {t | Call.spoolAudioTone t.1 t.2 ∈ cs ++ [c]} (cs.foldl step start).spooler.audio :=
      ih.mono fun t ht => List.mem_append_left _ ht
    cases c with
    | spoolPrint text => exact ih'
    | spoolAudioTone frequency durationMs =>
      exact ih'.spoolAudioTone (List.mem_append_right _ (List.mem_singleton.2 rfl))
    | iterate => exact ih'.serveAudio

/-- A tone that is queued first is played by the next iteration. -/
theorem played_first (frequency durationMs : UInt32) :
    ([.spoolAudioTone frequency durationMs, .iterate].foldl step start).spooler.audio.played =
      [(frequency, durationMs)] := rfl

/-- The frequency is programmed as it should be: whenever a tone of it that was queued is played, the
timer is set to the right divisor. -/
def ProgramsTone (frequency : UInt32) : Prop :=
  frequency ≠ 0 → ∀ (cs : List Call) (durationMs : UInt32), durationMs ≠ 0 →
    Call.spoolAudioTone frequency durationMs ∈ cs →
    (frequency, durationMs) ∈ (cs.foldl step start).spooler.audio.played →
    ∀ (before after : UInt8) (p : Pit),
      ((audioPlayTone true frequency durationMs before after).foldl Pit.write p).divisors =
        p.divisors ++ [toneDivisor frequency]

/-- There is no frequency that is never played. -/
theorem programsTone_iff_sent (frequency : UInt32) :
    ProgramsTone frequency ↔ frequency = 0 ∨ sentDivisor frequency = toneDivisor frequency := by
  constructor
  · intro h
    by_cases hf : frequency = 0
    · exact .inl hf
    · right
      have hset := h hf [.spoolAudioTone frequency 1, .iterate] 1 (by decide) (by simp)
        (by rw [played_first]; simp) 0 0 ⟨none, []⟩
      rw [foldl_audioPlayTone hf (by decide)] at hset
      simpa using hset
  · rintro h hf cs durationMs hd - - before after p
    rw [foldl_audioPlayTone hf hd, h.resolve_left hf]

/-- A frequency is programmed as it should be exactly if its quotient is in the range of the timer, and
no higher one in this range has a greater divisor. -/
theorem tone_divisors (frequency : UInt32) :
    (ProgramsTone frequency ↔ frequency = 0 ∨ InRange frequency) ∧
    ∀ higher, InRange frequency → InRange higher → frequency ≤ higher →
      sentDivisor higher ≤ sentDivisor frequency := by
  have hne : ∀ {k : UInt32}, InRange k → k ≠ 0 := by
    rintro k hk rfl
    exact absurd hk (by decide)
  refine ⟨?_, ?_⟩
  · rw [programsTone_iff_sent]
    by_cases hf : frequency = 0
    · exact iff_of_true (.inl hf) (.inl hf)
    · rw [sentDivisor_eq_iff hf]
  · intro higher hf hg hle
    rw [(sentDivisor_eq_iff (hne hf)).2 hf, (sentDivisor_eq_iff (hne hg)).2 hg]
    exact toneDivisor_antitone (hne hf) hle

/-- At 18 Hz the timer is set to 751 in place of 65536. -/
theorem not_programsTone : ¬ ProgramsTone 18 := by
  rw [programsTone_iff_sent]
  decide

end CosKernel.Audio
