import Readout.Proofs.Draw.Support

/-!
# Samples one after the other

A sample takes one word, so that any number of them takes as many words (`snd_samples`), and each
is an outcome that was recorded (`count_pos_of_mem_samples`).
-/

namespace Readout.DistributionTable

variable (α : Type) [Arithmetic α]

/-- So many samples, each drawn from the words that the one before it left. -/
def samples (t : DistributionTable) : Nat → WordStream → List Sample × WordStream
  | 0, s => ([], s)
  | n + 1, s =>
    let (first, rest) := t.sample α s
    let (others, rest) := t.samples n rest
    (first :: others, rest)

variable {t : DistributionTable} {s : WordStream} {n : Nat}

theorem samples_succ : t.samples α (n + 1) s =
    ((t.sample α s).1 :: (t.samples α n (t.sample α s).2).1,
      (t.samples α n (t.sample α s).2).2) := rfl

theorem snd_sample : (t.sample α s).2 = s.drop 1 := by
  have hpos : t.total ≠ 0 := Nat.ne_of_gt t.total_pos
  show (drawIndex α t.weights t.total s).2 = s.drop 1
  rw [snd_drawIndex, if_neg hpos]

theorem snd_samples : (t.samples α n s).2 = s.drop n := by
  induction n generalizing s with
  | zero => rfl
  | succ n ih =>
    rw [samples_succ, ih, snd_sample, WordStream.drop_drop, Nat.add_comm]

theorem length_samples : (t.samples α n s).1.length = n := by
  induction n generalizing s with
  | zero => rfl
  | succ n ih => rw [samples_succ, List.length_cons, ih]

theorem count_pos_of_sample : 0 < t.count (t.sample α s).1.key := by
  obtain ⟨i, key, -, -, hpos, hdraw⟩ := t.exists_drawn_entry α s
  rw [t.sample_eq α s, hdraw]
  exact hpos

theorem count_pos_of_mem_samples {x : Sample} (h : x ∈ (t.samples α n s).1) :
    0 < t.count x.key := by
  induction n generalizing s with
  | zero => exact absurd h List.not_mem_nil
  | succ n ih =>
    rw [samples_succ] at h
    rcases List.mem_cons.mp h with rfl | h
    · exact count_pos_of_sample α
    · exact ih h

end Readout.DistributionTable
