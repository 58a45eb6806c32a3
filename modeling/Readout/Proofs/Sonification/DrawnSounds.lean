import Readout.Proofs.Draw.Samples
import Readout.Proofs.Timeline.Sequence
import Readout.Sonification

/-!
# Sounds of drawn outcomes

Drawing and laying take turns: a sample is drawn right before it is laid, and laying may stop early.
What is laid is still what laying all the samples at once gives, failure included
(`fst_sounds?`). The words tell how far it came: none if a stride is no duration, one for each
sample if all of them fit, and otherwise the least number of words whose strides are no duration
(`snd_soundsFrom?_of_lt`).
-/

namespace Readout.DistributionTable

open Duration

variable (α : Type) [Arithmetic α] {κ : Type} {t : DistributionTable} {sound : Bitstring → κ}
  {note step offset : Duration} {timing : Timing} {ticks : Nat} {s : WordStream}

theorem soundsFrom?_of_none (h : offset.add? step = none) :
    t.soundsFrom? α sound note step offset (ticks + 1) s = (none, (t.sample α s).2) := by
  rw [soundsFrom?, h]

theorem soundsFrom?_of_some {next : Duration} (h : offset.add? step = some next) :
    t.soundsFrom? α sound note step offset (ticks + 1) s =
      ((t.soundsFrom? α sound note step next ticks (t.sample α s).2).1.map
          (⟨offset, note, sound (t.sample α s).1.key⟩ :: ·),
        (t.soundsFrom? α sound note step next ticks (t.sample α s).2).2) := by
  rw [soundsFrom?, h]

/-- What is laid is what laying all samples at once gives. -/
theorem fst_soundsFrom? :
    (t.soundsFrom? α sound note step offset ticks s).1 =
      Timeline.layFrom? note step offset ((t.samples α ticks s).1.map fun x => sound x.key) := by
  induction ticks generalizing offset s with
  | zero => rfl
  | succ ticks ih =>
    rw [samples_succ, List.map_cons, Timeline.layFrom?]
    cases hnext : offset.add? step with
    | none =>
      rw [soundsFrom?_of_none α hnext]
      rfl
    | some next =>
      rw [soundsFrom?_of_some α hnext]
      show Option.map _ (t.soundsFrom? α sound note step next ticks (t.sample α s).2).1 = _
      rw [ih]
      exact Option.map_eq_bind

theorem fst_sounds? :
    (t.sounds? α sound timing ticks s).1 =
      Timeline.sequence? timing ((t.samples α ticks s).1.map fun x => sound x.key) := by
  unfold sounds? Timeline.sequence?
  cases timing.step? with
  | none => rfl
  | some step => exact fst_soundsFrom? α

/-- Where all samples can be laid, each takes its word. -/
theorem snd_soundsFrom?_of_le
    (h : offset.nanoseconds + ticks * step.nanoseconds ≤ maxNanoseconds) :
    (t.soundsFrom? α sound note step offset ticks s).2 = s.drop ticks := by
  induction ticks generalizing offset s with
  | zero => rfl
  | succ ticks ih =>
    rw [Nat.succ_mul] at h
    obtain ⟨next, hnext, hnanoseconds⟩ := exists_add? (a := offset) (b := step) (by omega)
    rw [soundsFrom?_of_some α hnext]
    show (t.soundsFrom? α sound note step next ticks (t.sample α s).2).2 = _
    rw [ih (by omega), snd_sample, WordStream.drop_drop, Nat.add_comm]

/-- Laying stops behind the first sample whose stride ends at no duration. -/
theorem snd_soundsFrom?_of_lt
    (h : maxNanoseconds < offset.nanoseconds + ticks * step.nanoseconds) :
    ∃ k, (t.soundsFrom? α sound note step offset ticks s).2 = s.drop k ∧
      IsLeast {k | 1 ≤ k ∧ maxNanoseconds < offset.nanoseconds + k * step.nanoseconds} k := by
  induction ticks generalizing offset s with
  | zero =>
    have hle := offset.nanoseconds_le
    omega
  | succ ticks ih =>
    cases hnext : offset.add? step with
    | none =>
      have hlt := add?_eq_none_iff_lt.mp hnext
      refine ⟨1, ?_, ⟨Nat.le_refl 1, by omega⟩, fun j hj => hj.1⟩
      rw [soundsFrom?_of_none α hnext, snd_sample]
    | some next =>
      have hnanoseconds := add?_eq_some_iff.mp hnext
      have hle := next.nanoseconds_le
      rw [Nat.succ_mul] at h
      have hlater : maxNanoseconds < next.nanoseconds + ticks * step.nanoseconds := by omega
      obtain ⟨k, hk, ⟨hone, hlt⟩, hleast⟩ := ih (s := (t.sample α s).2) hlater
      refine ⟨k + 1, ?_, ⟨Nat.le_add_left 1 k, ?_⟩, fun j hj => ?_⟩
      · rw [soundsFrom?_of_some α hnext]
        show (t.soundsFrom? α sound note step next ticks (t.sample α s).2).2 = _
        rw [hk, snd_sample, WordStream.drop_drop, Nat.add_comm]
      · rw [Nat.succ_mul]
        omega
      · obtain ⟨hj, hover⟩ := hj
        obtain ⟨i, rfl⟩ := Nat.exists_eq_add_of_le' hj
        rw [Nat.succ_mul] at hover
        -- one stride still ends at a duration, so that the number is not one
        have hi : 1 ≤ i := by
          rcases Nat.eq_zero_or_pos i with rfl | hpos
          · omega
          · exact hpos
        exact Nat.succ_le_succ (hleast ⟨hi, by omega⟩)

theorem sounds?_of_stride_lt (h : maxNanoseconds < timing.stride) :
    t.sounds? α sound timing ticks s = (none, s) := by
  unfold sounds?
  rw [Timing.step?_eq_none_iff.mpr h]

theorem sounds?_of_stride_le (h : timing.stride ≤ maxNanoseconds) :
    ∃ step : Duration, step.nanoseconds = timing.stride ∧
      t.sounds? α sound timing ticks s =
        t.soundsFrom? α sound timing.note step .zero ticks s := by
  obtain ⟨step, hstep, hstride⟩ := exists_add? h
  refine ⟨step, hstride, ?_⟩
  have hsome : timing.step? = some step := hstep
  unfold sounds?
  rw [hsome]

/-- **Drawing sounds one by one is drawing samples and laying their chords.** What comes out is the
sequence of the chords of as many samples, in their order, each of an outcome that was recorded. It
fails exactly if a stride or all of them together are no duration: where already one stride is none,
no word is taken, and otherwise the least number of words whose strides are no duration. Where it
does not fail it takes a word for each sample. -/
theorem sounds?_draws_samples (t : DistributionTable) (c : SonificationSettings) (ticks : Nat)
    (s : WordStream) :
    ((t.sounds? α c.chord c.timing ticks s).1 = none ↔
      maxNanoseconds < c.timing.stride ∨ maxNanoseconds < ticks * c.timing.stride) ∧
    (maxNanoseconds < c.timing.stride → (t.sounds? α c.chord c.timing ticks s).2 = s) ∧
    (c.timing.stride ≤ maxNanoseconds → maxNanoseconds < ticks * c.timing.stride →
      ∃ k, (t.sounds? α c.chord c.timing ticks s).2 = s.drop k ∧
        IsLeast {k | 1 ≤ k ∧ maxNanoseconds < k * c.timing.stride} k) ∧
    (c.timing.stride ≤ maxNanoseconds → ticks * c.timing.stride ≤ maxNanoseconds →
      (t.sounds? α c.chord c.timing ticks s).2 = s.drop ticks ∧
      ∃ tasks, (t.sounds? α c.chord c.timing ticks s).1 = some tasks ∧ tasks.length = ticks ∧
        ∀ i < ticks, ∃ task x, tasks[i]? = some task ∧ (t.samples α ticks s).1[i]? = some x ∧
          task.offset.nanoseconds = i * c.timing.stride ∧ task.duration = c.timing.note ∧
          task.sound = c.chord x.key ∧ 0 < t.count x.key) := by
  have hnone : (t.sounds? α c.chord c.timing ticks s).1 = none ↔
      maxNanoseconds < c.timing.stride ∨ maxNanoseconds < ticks * c.timing.stride := by
    rw [fst_sounds?, Timeline.sequence?_eq_none_iff, List.length_map, length_samples]
  refine ⟨hnone, fun h => ?_, fun hstride hlt => ?_, fun hstride hfits => ⟨?_, ?_⟩⟩
  · rw [sounds?_of_stride_lt α h]
  · obtain ⟨step, hstep, heq⟩ := sounds?_of_stride_le α hstride
    rw [heq, ← hstep]
    have hover : maxNanoseconds < Duration.zero.nanoseconds + ticks * step.nanoseconds := by
      rw [hstep]
      exact Nat.lt_of_lt_of_le hlt (Nat.le_add_left _ _)
    have hleast : ∃ k,
        (t.soundsFrom? α c.chord c.timing.note step .zero ticks s).2 = s.drop k ∧ _ :=
      snd_soundsFrom?_of_lt α hover
    simpa only [Duration.zero, Nat.zero_add] using hleast
  · obtain ⟨step, hstep, heq⟩ := sounds?_of_stride_le α hstride
    rw [heq]
    refine snd_soundsFrom?_of_le α ?_
    rw [hstep]
    exact Nat.le_trans (Nat.le_of_eq (Nat.zero_add _)) hfits
  · obtain ⟨tasks, htasks, hlaid⟩ :=
      Timeline.exists_laid ((t.samples α ticks s).1.map fun x => c.chord x.key) hstride
        (by rw [List.length_map, length_samples]; exact hfits)
    refine ⟨tasks, (fst_sounds? α).trans htasks, ?_, fun i hi => ?_⟩
    · rw [hlaid.length_eq, List.length_map, length_samples]
    · have hlt : i < (t.samples α ticks s).1.length := by
        rw [length_samples]
        exact hi
      have hx := List.getElem?_eq_getElem hlt
      obtain ⟨task, htask, hsound, hoffset, hduration⟩ :=
        hlaid.exists_task (i := i) (by rw [List.getElem?_map, hx]; rfl)
      rw [Nat.zero_add] at hoffset
      exact ⟨task, _, htask, hx, hoffset, hduration, hsound,
        count_pos_of_mem_samples α (List.getElem_mem hlt)⟩

/-- A bit that was one three times out of four. -/
def loadedBit : DistributionTable :=
  ⟨none, 1, ⟨[(⟨[false], by decide⟩, 1), (⟨[true], by decide⟩, 3)], by decide⟩,
    by decide, by decide, by decide⟩

/-- Notes of half of all time that there is, and silences of the given length between them. -/
def halves (gap : Duration) : SonificationSettings :=
  ⟨SonificationSettings.standardBase, .pentatonic, ⟨⟨2 ^ 63 * 10 ^ 9, by decide⟩, gap⟩⟩

/-- Three chords in the standard timing take three words. Of two notes of half of all time the
second has no end, so that five of them take two words; and none is drawn where already one note and
its silence are too long. -/
theorem loadedBit_sounds :
    (3 * SonificationSettings.standard.timing.stride ≤ maxNanoseconds ∧
      (loadedBit.sounds? Rat SonificationSettings.standard.chord
        SonificationSettings.standard.timing 3 (.splitMix 7)).2 = (WordStream.splitMix 7).drop 3) ∧
    ((halves .zero).timing.stride ≤ maxNanoseconds ∧
      maxNanoseconds < 5 * (halves .zero).timing.stride ∧
      loadedBit.sounds? Rat (halves .zero).chord (halves .zero).timing 5 (.splitMix 7) =
        (none, (WordStream.splitMix 7).drop 2)) ∧
    maxNanoseconds < (halves ⟨2 ^ 63 * 10 ^ 9, by decide⟩).timing.stride ∧
      loadedBit.sounds? Rat (halves ⟨2 ^ 63 * 10 ^ 9, by decide⟩).chord
        (halves ⟨2 ^ 63 * 10 ^ 9, by decide⟩).timing 1 (.splitMix 7) = (none, .splitMix 7) := by
  obtain ⟨-, -, -, hall⟩ :=
    sounds?_draws_samples Rat loadedBit SonificationSettings.standard 3 (.splitMix 7)
  obtain ⟨hnone, -, hsome, -⟩ :=
    sounds?_draws_samples Rat loadedBit (halves .zero) 5 (.splitMix 7)
  obtain ⟨hnone', hno, -, -⟩ := sounds?_draws_samples Rat loadedBit
    (halves ⟨2 ^ 63 * 10 ^ 9, by decide⟩) 1 (.splitMix 7)
  have hfits : 3 * SonificationSettings.standard.timing.stride ≤ maxNanoseconds := by decide
  have hstride : (halves .zero).timing.stride ≤ maxNanoseconds := by decide
  have hlt : maxNanoseconds < 5 * (halves .zero).timing.stride := by decide
  have hlt' : maxNanoseconds < (halves ⟨2 ^ 63 * 10 ^ 9, by decide⟩).timing.stride := by decide
  have hleast : IsLeast {k | 1 ≤ k ∧ maxNanoseconds < k * (halves .zero).timing.stride} 2 := by
    refine ⟨⟨by decide, by decide⟩, fun k hk => ?_⟩
    obtain ⟨hpos, hover⟩ := hk
    refine Nat.succ_le_of_lt (Nat.lt_of_le_of_ne hpos ?_)
    rintro rfl
    exact absurd hover (by decide)
  obtain ⟨k, hrest, hk⟩ := hsome hstride hlt
  obtain rfl := hk.unique hleast
  exact ⟨⟨hfits, (hall (by decide) hfits).1⟩,
    ⟨hstride, hlt, Prod.ext (hnone.mpr (.inr hlt)) hrest⟩,
    hlt', Prod.ext (hnone'.mpr (.inl hlt')) (hno hlt')⟩

end Readout.DistributionTable
