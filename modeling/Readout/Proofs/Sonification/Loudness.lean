import Mathlib
import Readout.Proofs.Rationals
import Readout.Proofs.Sonification.Pitches

/-!
# Loudness by counts

Computed without rounding, the chord of an outcome is of loudness one, and a rest of loudness zero
(`Chord.loudness_ofBitstring`). A table scales its chords by the share that a count is of the
largest one. As the total of a table is positive, the largest count is recorded and positive
(`DistributionTable.isGreatest_maxCount`), so that the loudness of a chord that is no rest tells its
count (`DistributionTable.chords_loud_by_counts`). The frequencies play no part in this.
-/

namespace Readout

/-! ## One chord -/

theorem Bitstring.countOnes_eq_zero_iff {s : Bitstring} : s.countOnes = 0 ↔ true ∉ s.bits :=
  List.count_eq_zero

namespace Chord

variable {tuning : Tuning ℚ} {scale : Scale} {s : Bitstring} {factor : ℚ}

theorem loudness_rat (c : Chord ℚ) : c.loudness = (c.tones.map (·.amplitude)).sum :=
  Arithmetic.sum_rat _

theorem loudness_scaled (c : Chord ℚ) (factor : ℚ) :
    (c.scaled factor).loudness = c.loudness * factor := by
  rw [loudness_rat, loudness_rat, ← List.sum_map_mul_right, scaled, List.map_map]
  rfl

theorem map_amplitude_ofBitstring (tuning : Tuning ℚ) (scale : Scale) (s : Bitstring) :
    (ofBitstring tuning scale s).tones.map (·.amplitude) =
      List.replicate s.countOnes (1 / s.countOnes : ℚ) := by
  rw [tones_ofBitstring, List.map_map, ← s.length_setPositions]
  exact List.map_const'

/-- The tones of an outcome share a loudness of one evenly; a rest has none. -/
theorem loudness_ofBitstring (tuning : Tuning ℚ) (scale : Scale) (s : Bitstring) :
    (ofBitstring tuning scale s).loudness = if true ∈ s.bits then 1 else 0 := by
  rw [loudness_rat, map_amplitude_ofBitstring, List.sum_replicate, nsmul_eq_mul]
  split
  · rename_i hset
    have hne : s.countOnes ≠ 0 := fun hzero => Bitstring.countOnes_eq_zero_iff.mp hzero hset
    exact mul_one_div_cancel (Nat.cast_ne_zero.mpr hne)
  · rename_i hrest
    rw [Bitstring.countOnes_eq_zero_iff.mpr hrest, Nat.cast_zero, zero_mul]

theorem amplitude_mem_of_scaled (hnonneg : 0 ≤ factor) (hle : factor ≤ 1) :
    ∀ tone ∈ ((ofBitstring tuning scale s).scaled factor).tones,
      0 ≤ tone.amplitude ∧ tone.amplitude ≤ 1 := by
  intro scaledTone hscaled
  obtain ⟨tone, htone, rfl⟩ := List.mem_map.mp hscaled
  have hamplitude : tone.amplitude = 1 / s.countOnes := by
    refine List.eq_of_mem_replicate (n := s.countOnes) ?_
    rw [← map_amplitude_ofBitstring tuning scale s]
    exact List.mem_map_of_mem htone
  have hshare : (1 / s.countOnes : ℚ) ≤ 1 := by
    rw [one_div]
    exact Nat.cast_inv_le_one _
  show 0 ≤ tone.amplitude * factor ∧ tone.amplitude * factor ≤ 1
  rw [hamplitude]
  exact ⟨by positivity, mul_le_one₀ hshare hnonneg hle⟩

end Chord

/-! ## The chords of a table -/

namespace DistributionTable

variable {t : DistributionTable} {e e' : Bitstring × Nat} {c c' : Bitstring × Chord ℚ}

theorem maxCount_spec (t : DistributionTable) :
    t.maxCount ∈ 1 :: t.weights ∧ ∀ n ∈ 1 :: t.weights, n ≤ t.maxCount :=
  List.max?_eq_some_iff.mp List.max?_cons'

theorem one_le_maxCount (t : DistributionTable) : 1 ≤ t.maxCount :=
  t.maxCount_spec.2 1 List.mem_cons_self

/-- The largest count is one of the counts, as not all of them are zero. -/
theorem maxCount_mem (t : DistributionTable) : t.maxCount ∈ t.weights := by
  obtain ⟨hmem, hmax⟩ := t.maxCount_spec
  rcases List.mem_cons.mp hmem with hone | hmem
  · obtain ⟨n, hn, hpos⟩ := List.sum_pos_iff_exists_pos_nat.mp t.total_pos
    have hle := hmax n (.tail 1 hn)
    obtain rfl : n = t.maxCount := by omega
    exact hn
  · exact hmem

theorem mem_weights_iff {n : Nat} : n ∈ t.weights ↔ ∃ key, (key, n) ∈ t.entries := by
  constructor
  · intro h
    obtain ⟨⟨key, _⟩, hmem, rfl⟩ := List.mem_map.mp h
    exact ⟨key, hmem⟩
  · rintro ⟨key, hmem⟩
    exact List.mem_map_of_mem hmem

theorem le_maxCount (h : e ∈ t.entries) : e.2 ≤ t.maxCount :=
  t.maxCount_spec.2 e.2 (.tail 1 (mem_weights_iff.mpr ⟨e.1, h⟩))

theorem isGreatest_maxCount (t : DistributionTable) :
    IsGreatest {n | ∃ key, (key, n) ∈ t.entries} t.maxCount :=
  ⟨mem_weights_iff.mp t.maxCount_mem, fun _ ⟨_, h⟩ => le_maxCount h⟩

/-- What stands for an entry among the chords of its table. -/
structure Voices (t : DistributionTable) (e : Bitstring × Nat) (c : Bitstring × Chord ℚ) :
    Prop where
  key_eq : c.1 = e.1
  length_tones : c.2.tones.length = e.1.countOnes
  amplitude_mem : ∀ tone ∈ c.2.tones, 0 ≤ tone.amplitude ∧ tone.amplitude ≤ 1
  loudness_eq : c.2.loudness = if true ∈ e.1.bits then (e.2 / t.maxCount : ℚ) else 0

theorem share_mem (h : e ∈ t.entries) :
    (0 : ℚ) ≤ e.2 / t.maxCount ∧ (e.2 / t.maxCount : ℚ) ≤ 1 := by
  have hle : (e.2 : ℚ) ≤ t.maxCount := Nat.cast_le.mpr (le_maxCount h)
  exact ⟨by positivity, div_le_one_of_le₀ hle (Nat.cast_nonneg _)⟩

theorem forall₂_voices (t : DistributionTable) (tuning : Tuning ℚ) (scale : Scale) :
    List.Forall₂ t.Voices t.entries (t.chords tuning scale) := by
  refine List.forall₂_map_right_iff.mpr (List.forall₂_same.mpr fun e he => ?_)
  obtain ⟨hnonneg, hle⟩ := share_mem he
  refine ⟨rfl, ?_, Chord.amplitude_mem_of_scaled hnonneg hle, ?_⟩
  · exact (List.length_map _).trans (Chord.length_tones_ofBitstring tuning scale e.1)
  · rw [Chord.loudness_scaled, Chord.loudness_ofBitstring, ite_mul, one_mul, zero_mul]
    rfl

/-- **A chord is as loud as its outcome is frequent.** The chords of a table stand in the order of
its entries, one for each, with a tone for each set bit and gains between zero and one. A rest has
no loudness, and any other chord the share that its count is of the largest count, which is at least
one. So no chord is louder than one, the most frequent outcomes are exactly that loud unless they
are rests, and of two chords that are no rests the one of the higher count is the louder one. -/
theorem chords_loud_by_counts (t : DistributionTable) (tuning : Tuning ℚ) (scale : Scale) :
    (1 ≤ t.maxCount ∧ IsGreatest {n | ∃ key, (key, n) ∈ t.entries} t.maxCount) ∧
    List.Forall₂ t.Voices t.entries (t.chords tuning scale) ∧
    (∀ e c, (e, c) ∈ t.entries.zip (t.chords tuning scale) → c.2.loudness ≤ 1 ∧
      (e.2 = t.maxCount → true ∈ e.1.bits → c.2.loudness = 1)) ∧
    ∀ e c e' c', (e, c) ∈ t.entries.zip (t.chords tuning scale) →
      (e', c') ∈ t.entries.zip (t.chords tuning scale) → true ∈ e.1.bits → true ∈ e'.1.bits →
      (c.2.loudness < c'.2.loudness ↔ e.2 < e'.2) := by
  have hvoices := t.forall₂_voices tuning scale
  have hmax : (0 : ℚ) < t.maxCount := Nat.cast_pos.mpr t.one_le_maxCount
  have hvoice : ∀ e c, (e, c) ∈ t.entries.zip (t.chords tuning scale) →
      e ∈ t.entries ∧ t.Voices e c := fun e c h =>
    ⟨(List.of_mem_zip h).1, (List.forall₂_iff_zip.mp hvoices).2 h⟩
  refine ⟨⟨t.one_le_maxCount, t.isGreatest_maxCount⟩, hvoices, ?_, ?_⟩
  · intro e c h
    obtain ⟨he, hc⟩ := hvoice e c h
    rw [hc.loudness_eq]
    refine ⟨?_, fun hcount hset => ?_⟩
    · split
      · exact (share_mem he).2
      · exact zero_le_one
    · rw [if_pos hset, hcount, div_self (ne_of_gt hmax)]
  · intro e c e' c' h h' hset hset'
    obtain ⟨-, hc⟩ := hvoice e c h
    obtain ⟨-, hc'⟩ := hvoice e' c' h'
    rw [hc.loudness_eq, hc'.loudness_eq, if_pos hset, if_pos hset',
      div_lt_div_iff_of_pos_right hmax, Nat.cast_lt]

/-- One note of five bits, read five times. -/
def singleNote : Bitstring × Nat := (⟨[false, true, false, false, false], by decide⟩, 5)

/-- All notes of five bits, read twenty times. -/
def fullChord : Bitstring × Nat := (⟨[true, true, true, true, true], by decide⟩, 20)

/-- Reads of five bits in which the rest is as frequent as the full chord, and two notes are on
record without having been read. -/
def tiedReads : DistributionTable :=
  ⟨none, 5, ⟨[(⟨[false, false, false, false, false], by decide⟩, 20), singleNote,
      (⟨[true, false, true, false, false], by decide⟩, 0), fullChord], by decide⟩,
    by decide, by decide, by decide⟩

/-- The chords of these reads, where the frequency of a tone is its number of semitones. -/
def tiedChords : List (Bitstring × Chord ℚ) := tiedReads.chords (fun n => n) .pentatonic

/-- Of the two most frequent outcomes the full chord is of loudness one and the rest silent, and the
single note is softer than the full chord. -/
theorem tiedReads_loudness :
    tiedChords.map (·.2.loudness) = [0, 1 / 4, 0, 1] ∧
    ∃ low high, (singleNote, low) ∈ tiedReads.entries.zip tiedChords ∧
      (fullChord, high) ∈ tiedReads.entries.zip tiedChords ∧
      high.2.loudness = 1 ∧ low.2.loudness < high.2.loudness := by
  obtain ⟨-, hvoices, hloudest, horder⟩ :=
    chords_loud_by_counts tiedReads (fun n => n) .pentatonic
  have hshares : List.Forall₂ (· = ·)
      (tiedReads.entries.map fun e => if true ∈ e.1.bits then (e.2 / tiedReads.maxCount : ℚ) else 0)
      (tiedChords.map (·.2.loudness)) := by
    rw [List.forall₂_map_left_iff, List.forall₂_map_right_iff]
    exact hvoices.imp fun _ _ hvoice => hvoice.loudness_eq.symm
  rw [List.forall₂_eq_eq_eq] at hshares
  have hlow : (singleNote, _) ∈ tiedReads.entries.zip tiedChords :=
    .tail _ (.head _)
  have hhigh : (fullChord, _) ∈ tiedReads.entries.zip tiedChords :=
    .tail _ (.tail _ (.tail _ (.head _)))
  refine ⟨hshares.symm.trans (by decide +kernel), _, _, hlow, hhigh, ?_, ?_⟩
  · exact (hloudest _ _ hhigh).2 (by decide) (by decide)
  · exact (horder _ _ _ _ hlow hhigh (by decide) (by decide)).mpr (by decide)

end DistributionTable

end Readout
