import Mathlib.Data.List.Basic
import Mathlib.Data.List.GetD
import Mathlib.Order.Monotone.Basic
import Readout.Proofs.Bitstring.SetPositions
import Readout.Sonification

/-!
# Pitches of outcomes

A scale climbs from each degree to the next, also where one octave ends and the next one begins,
since all steps of an octave are less than twelve semitones (`Scale.height_strictMono`). So degrees
are told apart by their semitones as long as these fit the 32 bits in which they are counted
(`Scale.semitones_eq_height`). The tones of a chord stand at the degrees of the set bits, from the
left, and an outcome of a known width can be read off them
(`Scale.semitones_tell_set_bits`).
-/

namespace Readout

namespace Scale

/-- The semitones of a degree above the root, counted without bound. -/
def height (scale : Scale) (degree : Nat) : Nat :=
  degree / scale.size * 12 + scale.steps.getD (degree % scale.size) 0

variable {scale : Scale} {degree place : Nat}

theorem pairwise_steps (scale : Scale) : scale.steps.Pairwise (· < ·) := by
  cases scale <;> decide

theorem step_lt_twelve (scale : Scale) : ∀ step ∈ scale.steps, step < 12 := by
  cases scale <;> decide

theorem getD_steps_lt_twelve (h : place < scale.size) : scale.steps.getD place 0 < 12 := by
  rw [List.getD_eq_getElem _ _ h]
  exact scale.step_lt_twelve _ (List.getElem_mem h)

theorem getD_steps_lt {lower higher : Nat} (hlt : lower < higher) (h : higher < scale.size) :
    scale.steps.getD lower 0 < scale.steps.getD higher 0 := by
  rw [List.getD_eq_getElem _ _ (Nat.lt_trans hlt h), List.getD_eq_getElem _ _ h]
  exact List.pairwise_iff_getElem.mp scale.pairwise_steps _ _ _ _ hlt

/-- A higher degree is higher: within an octave as the steps ascend, and in a higher octave as no
step reaches it. -/
theorem height_strictMono (scale : Scale) : StrictMono scale.height := by
  intro lower higher hlt
  have hplace : lower % scale.size < scale.size := Nat.mod_lt _ scale.size_pos
  have hplace' : higher % scale.size < scale.size := Nat.mod_lt _ scale.size_pos
  unfold height
  rcases Nat.lt_or_eq_of_le (Nat.div_le_div_right (c := scale.size) (Nat.le_of_lt hlt)) with
    hoctave | hoctave
  · have hstep := getD_steps_lt_twelve hplace
    omega
  · have hlower := Nat.div_add_mod lower scale.size
    have hhigher := Nat.div_add_mod higher scale.size
    rw [hoctave] at hlower ⊢
    exact Nat.add_lt_add_left (getD_steps_lt (by omega) hplace') _

theorem height_add_size (scale : Scale) (degree : Nat) :
    scale.height (degree + scale.size) = scale.height degree + 12 := by
  unfold height
  rw [Nat.add_div_right _ scale.size_pos, Nat.add_mod_right, Nat.succ_mul]
  omega

/-- In a word of 32 bits the semitones are counted modulo its size. -/
theorem semitones_eq_mod (scale : Scale) (degree : Nat) :
    scale.semitones degree = scale.height degree % 2 ^ 32 := by
  unfold semitones height
  rw [UInt32.toNat_add, UInt32.toNat_mul, UInt32.toNat_ofNat', UInt32.toNat_ofNat']
  have htwelve : (12 : UInt32).toNat = 12 := rfl
  rw [htwelve]
  omega

/-- Semitones that fit 32 bits are counted as they are. -/
theorem semitones_eq_height (h : scale.height degree < 2 ^ 32) :
    scale.semitones degree = scale.height degree := by
  rw [semitones_eq_mod, Nat.mod_eq_of_lt h]

end Scale

namespace Bitstring

variable {s t : Bitstring} {scale : Scale}

theorem length_semitones (s : Bitstring) (scale : Scale) :
    (s.semitones scale).length = s.countOnes := by
  rw [semitones, List.length_map, length_setPositions]

theorem semitones_eq_map_height (h : ∀ p < s.width, scale.height p < 2 ^ 32) :
    s.semitones scale = s.setPositions.map scale.height :=
  List.map_congr_left fun p hp => Scale.semitones_eq_height (h p (lt_width_of_mem_setPositions hp))

theorem pairwise_semitones (h : ∀ p < s.width, scale.height p < 2 ^ 32) :
    (s.semitones scale).Pairwise (· < ·) := by
  rw [semitones_eq_map_height h, List.pairwise_map]
  exact s.pairwise_setPositions.imp fun hlt => scale.height_strictMono hlt

/-- An outcome of a known width can be read off its semitones. -/
theorem eq_of_semitones_eq (hwidth : t.width = s.width)
    (h : ∀ p < s.width, scale.height p < 2 ^ 32) (heq : s.semitones scale = t.semitones scale) :
    s = t := by
  rw [semitones_eq_map_height h, semitones_eq_map_height (hwidth ▸ h)] at heq
  exact eq_of_setPositions_eq hwidth.symm
    (List.map_injective_iff.mpr scale.height_strictMono.injective heq)

end Bitstring

section Tones

variable {α : Type} [Arithmetic α]

theorem Chord.tones_ofBitstring (tuning : Tuning α) (scale : Scale) (s : Bitstring) :
    (Chord.ofBitstring tuning scale s).tones = s.setPositions.map fun p =>
      ⟨tuning (scale.semitones p), Arithmetic.ofNat 1 / Arithmetic.ofNat s.countOnes⟩ :=
  List.map_map

theorem Chord.length_tones_ofBitstring (tuning : Tuning α) (scale : Scale) (s : Bitstring) :
    (Chord.ofBitstring tuning scale s).tones.length = s.countOnes := by
  rw [Chord.tones_ofBitstring, List.length_map, Bitstring.length_setPositions]

end Tones

/-- **Pitches ascend with the positions and tell which bits are set.** As long as its semitones fit
32 bits, a higher degree of a scale is higher, and one full scale higher is twelve semitones higher.
So for an outcome whose positions stay in this range, in whatever numbers and tuning: its chord has
a tone for each set bit, in the order of the bits and each at the semitones of its position; these
ascend strictly; and no other outcome of the same width has the same. -/
theorem Scale.semitones_tell_set_bits {α : Type} [Arithmetic α] (tuning : Tuning α)
    (scale : Scale) :
    (∀ lower higher, lower < higher → scale.height higher < 2 ^ 32 →
      scale.semitones lower < scale.semitones higher) ∧
    (∀ degree, scale.height (degree + scale.size) < 2 ^ 32 →
      scale.semitones (degree + scale.size) = scale.semitones degree + 12) ∧
    ∀ s : Bitstring, (∀ p < s.width, scale.height p < 2 ^ 32) →
      (Chord.ofBitstring tuning scale s).tones.length = s.countOnes ∧
      (s.semitones scale).length = s.countOnes ∧
      (∀ k < s.countOnes, ∃ p, s.IsSetBit k p ∧
        (s.semitones scale)[k]? = some (scale.semitones p) ∧
        (Chord.ofBitstring tuning scale s).tones[k]? = some ⟨tuning (scale.semitones p),
          Arithmetic.ofNat 1 / Arithmetic.ofNat s.countOnes⟩) ∧
      (s.semitones scale).Pairwise (· < ·) ∧
      ∀ t : Bitstring, t.width = s.width → (s.semitones scale = t.semitones scale ↔ s = t) := by
  refine ⟨?_, ?_, ?_⟩
  · intro lower higher hlt h
    have hheight := scale.height_strictMono hlt
    rw [semitones_eq_height h, semitones_eq_height (Nat.lt_trans hheight h)]
    exact hheight
  · intro degree h
    have hheight := scale.height_add_size degree
    rw [semitones_eq_height h, semitones_eq_height (by omega), hheight]
  · intro s h
    refine ⟨Chord.length_tones_ofBitstring tuning scale s, s.length_semitones scale, ?_,
      Bitstring.pairwise_semitones h, ?_⟩
    · intro k hk
      obtain ⟨p, hp⟩ := Bitstring.exists_isSetBit hk
      have hplace := Bitstring.getElem?_setPositions_eq_some_iff.mpr hp
      refine ⟨p, hp, ?_, ?_⟩
      · rw [Bitstring.semitones, List.getElem?_map, hplace, Option.map_some]
      · rw [Chord.tones_ofBitstring, List.getElem?_map, hplace, Option.map_some]
    · intro t hwidth
      exact ⟨Bitstring.eq_of_semitones_eq hwidth h, fun heq => heq ▸ rfl⟩

/-- Seven bits of which the first and, from one octave above it on, the last two are set. -/
def octaveBits : Bitstring := ⟨[true, false, false, false, false, true, true], by decide⟩

/-- The highest pentatonic degree in range, and the next one that is not; the tones of
`octaveBits`. -/
theorem octaveBits_pitches :
    (Scale.pentatonic.height 1789569706 < 2 ^ 32 ∧ 2 ^ 32 ≤ Scale.pentatonic.height 1789569707 ∧
      Scale.pentatonic.semitones 4 < Scale.pentatonic.semitones 1789569706) ∧
    (∀ p < octaveBits.width, Scale.pentatonic.height p < 2 ^ 32) ∧
    (SonificationSettings.standard.chord octaveBits).tones.length = 3 ∧
    (octaveBits.semitones .pentatonic)[2]? = some 14 ∧
    (octaveBits.semitones .pentatonic).Pairwise (· < ·) ∧
    ∀ t : Bitstring, t.width = 7 → octaveBits.semitones .pentatonic = t.semitones .pentatonic →
      octaveBits = t := by
  obtain ⟨hlt, -, hbits⟩ :=
    Scale.semitones_tell_set_bits SonificationSettings.standard.tuning .pentatonic
  have hrange : ∀ p < octaveBits.width, Scale.pentatonic.height p < 2 ^ 32 := by decide
  obtain ⟨hlength, -, htones, hascend, htell⟩ := hbits octaveBits hrange
  have hdegree : Scale.pentatonic.height 1789569706 < 2 ^ 32 := by decide
  refine ⟨⟨hdegree, by decide, hlt 4 1789569706 (by decide) hdegree⟩, hrange, hlength, ?_, hascend,
    fun t hwidth => (htell t hwidth).mp⟩
  obtain ⟨p, hp, hsemitones, -⟩ := htones 2 (by decide)
  -- the third set bit stands at position 6
  have hplace := Bitstring.getElem?_setPositions_eq_some_iff.mpr hp
  obtain rfl : 6 = p := Option.some.inj hplace
  exact hsemitones

end Readout
