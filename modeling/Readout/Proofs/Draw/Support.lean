import Mathlib
import Readout.Poem

/-!
# What can be drawn

A walk ends early, passes zeros over and falls back at its end, all steered by rounded numbers. What
it can end at does not depend on the rounding: over any `Arithmetic` it finds nothing exactly if all
weights are zero (`walk_eq_none_iff`), and what it finds is the index of a weight other than zero
(`pos_of_walk`). A table has a positive total, so a draw from it always ends at a recorded outcome
(`DistributionTable.exists_drawn_entry`).
-/

namespace Readout

section Walk

variable {α : Type} [Arithmetic α]

theorem walk_eq_none_iff {remaining : α} {index : Nat} {fallback : Option Nat}
    {weights : List Nat} :
    walk remaining index fallback weights = none ↔
      fallback = none ∧ ∀ w ∈ weights, w = 0 := by
  induction weights generalizing remaining index fallback with
  | nil => simp [walk]
  | cons weight rest ih =>
    rw [walk]
    by_cases hzero : weight = 0
    · rw [if_pos hzero, ih]
      simp [hzero]
    · rw [if_neg hzero]
      -- from here on there is a fallback, and an early end is not `none`
      by_cases hleft : Arithmetic.isNonpos (remaining - Arithmetic.ofNat weight) = true
      · simp [hleft, hzero]
      · simp [hleft, hzero, ih]

/-- A walk ends at its fallback or at a weight other than zero. -/
theorem pos_of_walk {remaining : α} {index i : Nat} {fallback : Option Nat} {weights : List Nat}
    (h : walk remaining index fallback weights = some i) :
    fallback = some i ∨ ∃ k w, i = index + k ∧ weights[k]? = some w ∧ 0 < w := by
  induction weights generalizing remaining index fallback with
  | nil => exact .inl h
  | cons weight rest ih =>
    rw [walk] at h
    by_cases hzero : weight = 0
    · rw [if_pos hzero] at h
      rcases ih h with hf | ⟨k, w, rfl, hw, hpos⟩
      · exact .inl hf
      · exact .inr ⟨k + 1, w, by omega, hw, hpos⟩
    · rw [if_neg hzero] at h
      have hhere : ∃ k w, index = index + k ∧ (weight :: rest)[k]? = some w ∧ 0 < w :=
        ⟨0, weight, rfl, rfl, Nat.pos_of_ne_zero hzero⟩
      right
      by_cases hleft : Arithmetic.isNonpos (remaining - Arithmetic.ofNat weight) = true
      · simp only [hleft, if_true] at h
        obtain rfl := Option.some.inj h
        exact hhere
      · simp only [hleft] at h
        rcases ih h with hf | ⟨k, w, rfl, hw, hpos⟩
        · obtain rfl := Option.some.inj hf
          exact hhere
        · exact ⟨k + 1, w, by omega, hw, hpos⟩

theorem pickIndex_eq_none_iff {weights : List Nat} {total : Nat} {u : α} :
    pickIndex weights total u = none ↔ ∀ w ∈ weights, w = 0 := by
  rw [pickIndex, walk_eq_none_iff]
  simp

theorem pos_of_pickIndex {weights : List Nat} {total i : Nat} {u : α}
    (h : pickIndex weights total u = some i) : ∃ w, weights[i]? = some w ∧ 0 < w := by
  rcases pos_of_walk h with hf | ⟨k, w, rfl, hw, hpos⟩
  · cases hf
  · rw [Nat.zero_add]
    exact ⟨w, hw, hpos⟩

end Walk

/-! ## Sums held at the largest word -/

theorem saturate_eq_zero_iff {n : Nat} : saturate n = 0 ↔ n = 0 := by
  unfold saturate maxWord
  omega

/-- Adding up word by word, each sum held at the largest word, holds the sum at the largest word. -/
theorem foldl_saturate {start : Nat} (h : start ≤ maxWord) (weights : List Nat) :
    weights.foldl (fun n w => saturate (n + w)) start = saturate (start + weights.sum) := by
  induction weights generalizing start with
  | nil =>
    rw [List.foldl_nil, List.sum_nil, Nat.add_zero, saturate_of_le h]
  | cons w weights ih =>
    rw [List.foldl_cons, ih (saturate_le _), List.sum_cons]
    unfold saturate
    omega

/-! ## Draws -/

section Draw

variable (α : Type) [Arithmetic α]

theorem drawIndex_eq_none_iff (weights : List Nat) (total : Nat) (s : WordStream) :
    (drawIndex α weights total s).1 = none ↔ total = 0 ∨ ∀ w ∈ weights, w = 0 := by
  unfold drawIndex
  split
  · rename_i h
    simp [h]
  · rename_i h
    simp [h, pickIndex_eq_none_iff]

theorem pos_of_drawIndex {weights : List Nat} {total i : Nat} {s : WordStream}
    (h : (drawIndex α weights total s).1 = some i) : ∃ w, weights[i]? = some w ∧ 0 < w := by
  unfold drawIndex at h
  split at h
  · cases h
  · exact pos_of_pickIndex h

theorem fst_drawIndex (weights : List Nat) {total : Nat} (s : WordStream) (h : total ≠ 0) :
    (drawIndex α weights total s).1 = pickIndex weights total (unitOfWord α s.next.1) := by
  rw [drawIndex, if_neg h]

/-- A draw takes one word, unless its total is zero. -/
theorem snd_drawIndex (weights : List Nat) (total : Nat) (s : WordStream) :
    (drawIndex α weights total s).2 = if total = 0 then s else s.drop 1 := by
  unfold drawIndex
  split
  · rfl
  · exact s.snd_next

/-- With its own sum as total a draw finds nothing exactly if the sum is zero. -/
theorem drawIndex_sum_eq_none_iff (weights : List Nat) (s : WordStream) :
    (drawIndex α weights weights.sum s).1 = none ↔ weights.sum = 0 := by
  rw [drawIndex_eq_none_iff, ← List.sum_eq_zero_iff_forall_eq_nat, or_self]

theorem drawWeighted_eq_drawIndex_foldl (weights : List Nat) (s : WordStream) :
    drawWeighted α weights s =
      drawIndex α weights (weights.foldl (fun n w => saturate (n + w)) 0) s := by
  rw [foldl_saturate (Nat.zero_le _), Nat.zero_add, drawWeighted]

theorem drawWeighted_eq_none_iff (weights : List Nat) (s : WordStream) :
    (drawWeighted α weights s).1 = none ↔ ∀ w ∈ weights, w = 0 := by
  rw [drawWeighted, drawIndex_eq_none_iff, saturate_eq_zero_iff, List.sum_eq_zero_iff_forall_eq_nat,
    or_self]

/-- A draw from a table ends at an entry that was recorded, and the walk itself finds it. -/
theorem DistributionTable.exists_drawn_entry (t : DistributionTable) (s : WordStream) :
    ∃ i key, (drawIndex α t.weights t.total s).1 = some i ∧
      t.entries[i]? = some (key, t.count key) ∧ 0 < t.count key ∧
      (t.drawEntry α s).1 = (key, t.count key) := by
  have hsome : (drawIndex α t.weights t.total s).1 ≠ none := by
    rw [Ne, drawIndex_eq_none_iff]
    rintro (hzero | hzero)
    · exact Nat.ne_of_gt t.total_pos hzero
    · exact Nat.ne_of_gt t.total_pos (List.sum_eq_zero_iff_forall_eq_nat.mpr hzero)
  obtain ⟨i, hi⟩ := Option.ne_none_iff_exists'.mp hsome
  obtain ⟨w, hw, hpos⟩ := pos_of_drawIndex α hi
  have hvalues : t.weights = t.entries.map (·.2) := rfl
  rw [hvalues, List.getElem?_map] at hw
  obtain ⟨⟨key, n⟩, hentry, rfl⟩ := Option.map_eq_some_iff.mp hw
  have hcount : t.count key = n :=
    DistributionTable.count_eq_of_mem (List.mem_of_getElem? hentry)
  rw [← hcount] at hentry hpos
  refine ⟨i, key, hi, hentry, hpos, ?_⟩
  unfold DistributionTable.drawEntry DistributionTable.drawEntryBy
  simp only [hi, Option.getD_some]
  rw [List.getD_eq_getElem?_getD, hentry, Option.getD_some]

theorem DistributionTable.sample_eq (t : DistributionTable) (s : WordStream) :
    (t.sample α s).1 = ⟨(t.drawEntry α s).1.1, (t.drawEntry α s).1.2, t.total⟩ := rfl

theorem Decoder.key_of_decode {d : Decoder} {s : Bitstring} {a : Artifact}
    (h : d.decode s = .ok a) : a.key = s := by
  unfold decode at h
  split at h
  · cases h
  · split at h
    · cases h
    · rw [← Except.ok.inj h]

/-- A poem keeps the key and the numbers of its sample. -/
theorem PoemGenerator.sample_of_poemOfSample {g : PoemGenerator} {sample : Sample} {p : Poem}
    (h : g.poemOfSample sample = .ok p) : (⟨p.key, p.count, p.total⟩ : Sample) = sample := by
  unfold poemOfSample at h
  split at h
  · cases h
  · rename_i artifact hdecode
    rw [← Except.ok.inj h, Poem.key, Decoder.key_of_decode hdecode]

/-- The weights that a generator keeps are those of its table, so that it draws the table's samples. -/
theorem PoemGenerator.sampleBy_weights (g : PoemGenerator) (s : WordStream) :
    g.table.sampleBy α g.weights s = g.table.sample α s := by
  rw [g.weights_eq, DistributionTable.sample]

theorem PoemGenerator.draw_eq (g : PoemGenerator) (s : WordStream) :
    g.draw α s = (g.poemOfSample (g.table.sample α s).1, (g.table.sample α s).2) := by
  rw [← g.sampleBy_weights α s]
  rfl

/-- **Only what was recorded is drawn,** whatever the rounding and whether or not the total is that
of the weights. A draw finds nothing exactly if the total or every weight is zero, and else the
index of a positive weight; a draw that sums the weights itself holds the sum at the largest word
and finds nothing exactly if every weight is zero. So the entry that a table draws was recorded a
positive number of times, the walk itself finds it, and samples and poems carry its key, its count
and the total of the table. -/
theorem drawn_is_recorded :
    (∀ (weights : List Nat) (total : Nat) (s : WordStream),
      ((drawIndex α weights total s).1 = none ↔ total = 0 ∨ ∀ w ∈ weights, w = 0) ∧
      ∀ i, (drawIndex α weights total s).1 = some i → ∃ w, weights[i]? = some w ∧ 0 < w) ∧
    (∀ (weights : List Nat) (s : WordStream),
      drawWeighted α weights s =
        drawIndex α weights (weights.foldl (fun n w => saturate (n + w)) 0) s ∧
      ((drawWeighted α weights s).1 = none ↔ ∀ w ∈ weights, w = 0)) ∧
    (∀ (t : DistributionTable) (s : WordStream), ∃ i key,
      (drawIndex α t.weights t.total s).1 = some i ∧
      t.entries[i]? = some (key, t.count key) ∧ 0 < t.count key ∧
      (t.drawEntry α s).1 = (key, t.count key) ∧
      (t.sample α s).1 = ⟨key, t.count key, t.total⟩) ∧
    ∀ (g : PoemGenerator) (s : WordStream), ∃ i key,
      (drawIndex α g.table.weights g.table.total s).1 = some i ∧
      g.table.entries[i]? = some (key, g.table.count key) ∧ 0 < g.table.count key ∧
      (g.draw α s).1 = g.poemOfSample ⟨key, g.table.count key, g.table.total⟩ ∧
      ∀ p, (g.draw α s).1 = .ok p →
        p.key = key ∧ p.count = g.table.count key ∧ p.total = g.table.total := by
  refine ⟨fun weights total s => ⟨drawIndex_eq_none_iff α weights total s,
      fun i h => pos_of_drawIndex α h⟩,
    fun weights s => ⟨drawWeighted_eq_drawIndex_foldl α weights s,
      drawWeighted_eq_none_iff α weights s⟩, fun t s => ?_, fun g s => ?_⟩
  · obtain ⟨i, key, hi, hentry, hpos, hdraw⟩ := t.exists_drawn_entry α s
    refine ⟨i, key, hi, hentry, hpos, hdraw, ?_⟩
    rw [t.sample_eq α s, hdraw]
  · obtain ⟨i, key, hi, hentry, hpos, hdraw⟩ := g.table.exists_drawn_entry α s
    have hpoem : (g.draw α s).1 = g.poemOfSample ⟨key, g.table.count key, g.table.total⟩ := by
      rw [g.draw_eq α s, g.table.sample_eq α s, hdraw]
    refine ⟨i, key, hi, hentry, hpos, hpoem, fun p hp => ?_⟩
    rw [hpoem] at hp
    have hsame := g.sample_of_poemOfSample hp
    exact ⟨congrArg Sample.key hsame, congrArg Sample.count hsame, congrArg Sample.total hsame⟩

end Draw

end Readout
