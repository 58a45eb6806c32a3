import Readout.Proofs.Decoder.Decoding
import Readout.Proofs.Matrix.PairedDraw

/-!
# Poems of paired draws

A paired poem goes through four stages: the line of the axis, the draw, the encoder and the decoder.
The draw counts rows and columns of the joint counts where the encoder counts words of the outer
banks; a generator has as many of the one as of the other, so that only the axis and the middle line
can be refused (`exists_poemOfDraw_iff`). What is encoded decodes to itself, hence
the poem is also the one of its key (`isPaired_of_poemOfDraw`).
-/

namespace Readout.PoemGenerator

variable {g : PoemGenerator} {d : CorrelatedDraw} {middle : Nat} {p : CorrelatedPoem}

/-- The generators are those that `ofParts` returns. -/
theorem ofParts_eq_ok_iff {table : DistributionTable} {decoder : Decoder}
    {matrix : CorrelationMatrix} :
    ofParts table decoder matrix = .ok g ↔
      g.table = table ∧ g.decoder = decoder ∧ g.matrix = matrix := by
  constructor
  · intro h
    unfold ofParts at h
    split at h
    · split at h
      · split at h
        · split at h
          · obtain rfl := Except.ok.inj h
            exact ⟨rfl, rfl, rfl⟩
          · cases h
        · cases h
      · cases h
    · cases h
  · rintro ⟨rfl, rfl, rfl⟩
    obtain ⟨table, _, decoder, matrix, rfl, hwidth, first, middle, last, hfields, hfirst, hlast⟩ := g
    unfold ofParts
    simp only
    rw [dif_pos hwidth]
    split
    · rename_i heq
      rw [hfields] at heq
      obtain ⟨rfl, rfl, rfl⟩ : first = _ ∧ middle = _ ∧ last = _ := by simpa using heq
      rw [dif_pos hfirst, dif_pos hlast]
    · rename_i hne
      exact absurd hfields (hne first middle last)

/-- What a poem with a given middle line is: it has the drawn indices around the middle one and the
words of the three banks there, its key has the width of the decoder and encodes the indices, and
read as an outcome the key is the same poem. -/
structure IsPaired (g : PoemGenerator) (middle : Nat) (p : CorrelatedPoem) : Prop where
  indices_eq : p.artifact.fields.map (·.index) = [p.draw.first, middle, p.draw.last]
  words_eq : p.artifact.words.map some =
    [g.first.bank.words[p.draw.first]?, g.middle.bank.words[middle]?,
      g.last.bank.words[p.draw.last]?]
  width_eq : p.artifact.key.width = g.decoder.width
  encode_eq : g.decoder.encode [p.draw.first, middle, p.draw.last] = .ok p.artifact.key
  poemOfKey_eq : g.poemOfKey p.artifact.key =
    .ok ⟨p.artifact, g.table.count p.artifact.key, g.table.total⟩

/-! ## Encoding a pair -/

theorem poemOfDraw_of_le (hfirst : d.first < g.matrix.size) (h : g.middle.bank.size ≤ middle) :
    g.poemOfDraw d middle =
      .error (.indexOutOfRange middle g.middle.bank.size (.wordBank g.middle.bank.role)) := by
  have hfind : (g.decoder.fields.zip [d.first, middle, d.last]).find?
      (fun e => e.1.bank.size ≤ e.2) = some (g.middle, middle) := by
    rw [← g.size_first] at hfirst
    simp [g.fields_eq, Nat.not_le.mpr hfirst, h]
  have hlength : [d.first, middle, d.last].length = g.decoder.fields.length := by
    rw [g.fields_eq]
    rfl
  unfold poemOfDraw
  rw [Decoder.encode_eq_error hlength hfind]

theorem exists_encode (hwidth : g.decoder.width < maxWord) (hfirst : d.first < g.matrix.size)
    (hlast : d.last < g.matrix.size) (h : middle < g.middle.bank.size) :
    ∃ key, g.decoder.encode [d.first, middle, d.last] = .ok key := by
  have hlength : [d.first, middle, d.last].length = g.decoder.fields.length := by
    rw [g.fields_eq]
    rfl
  have hin : ∀ e ∈ g.decoder.fields.zip [d.first, middle, d.last], e.2 < e.1.bank.size := by
    rw [← g.size_first] at hfirst
    rw [← g.size_last] at hlast
    intro e he
    rw [g.fields_eq] at he
    obtain rfl | rfl | rfl : e = (g.first, d.first) ∨ e = (g.middle, middle) ∨
        e = (g.last, d.last) := by simpa using he
    · exact hfirst
    · exact h
    · exact hlast
  obtain ⟨key, hkey, -⟩ := Decoder.exists_encode_eq_ok hwidth hlength hin
  exact ⟨key, hkey⟩

theorem exists_poemOfDraw_iff (hwidth : g.decoder.width < maxWord)
    (hbanks : ∀ f ∈ g.decoder.fields, f.bank.size ≤ maxWord) (hfirst : d.first < g.matrix.size)
    (hlast : d.last < g.matrix.size) :
    (∃ p, g.poemOfDraw d middle = .ok p) ↔ middle < g.middle.bank.size := by
  constructor
  · rintro ⟨p, hp⟩
    by_contra hn
    rw [poemOfDraw_of_le hfirst (Nat.not_lt.mp hn)] at hp
    cases hp
  · intro h
    obtain ⟨key, hkey⟩ := exists_encode hwidth hfirst hlast h
    obtain ⟨a, ha, -⟩ := Decoder.exists_decode_of_encode hwidth hbanks hkey
    refine ⟨⟨a, d⟩, ?_⟩
    unfold poemOfDraw
    simp only [hkey, ha]

/-- The stages behind a poem, read off from it. -/
theorem stages_of_poemOfDraw (h : g.poemOfDraw d middle = .ok p) :
    p.draw = d ∧ g.decoder.encode [d.first, middle, d.last] = .ok p.artifact.key ∧
      g.decoder.decode p.artifact.key = .ok p.artifact := by
  unfold poemOfDraw at h
  split at h
  · cases h
  · rename_i key hkey
    split at h
    · cases h
    · rename_i a ha
      obtain rfl := Except.ok.inj h
      obtain rfl : a.key = key := Decoder.key_of_decode ha
      exact ⟨rfl, hkey, ha⟩

theorem isPaired_of_poemOfDraw (hwidth : g.decoder.width < maxWord)
    (hbanks : ∀ f ∈ g.decoder.fields, f.bank.size ≤ maxWord)
    (h : g.poemOfDraw d middle = .ok p) : p.draw = d ∧ g.IsPaired middle p := by
  obtain ⟨rfl, hencode, hdecode⟩ := stages_of_poemOfDraw h
  obtain ⟨a, ha, -, hindices, hwords⟩ := Decoder.exists_decode_of_encode hwidth hbanks hencode
  obtain rfl : p.artifact = a := Except.ok.inj (hdecode.symm.trans ha)
  refine ⟨rfl, hindices, ?_, Decoder.width_of_encode hwidth hencode, hencode, ?_⟩
  · rw [hwords, g.fields_eq]
    rfl
  · unfold poemOfKey poemOfSample
    simp only [hdecode]

/-! ## Drawing the pair -/

section Draw

variable (α : Type) [Arithmetic α]

theorem drawCorrelated_of_le {axis : Axis} {s : WordStream} (h : g.matrix.size ≤ axis.index) :
    g.drawCorrelated α axis middle s =
      (.error (.indexOutOfRange axis.index g.matrix.size (.matrixLine axis.kind)), s) := by
  unfold drawCorrelated
  rw [CorrelationMatrix.drawAlong_of_le α h]

theorem drawCorrelated_of_drawAlong {axis : Axis} {s rest : WordStream}
    (h : g.matrix.drawAlong α axis s = (.ok d, rest)) :
    g.drawCorrelated α axis middle s = (g.poemOfDraw d middle, rest) := by
  unfold drawCorrelated
  rw [h]

/-- **A paired poem is the poem of its key.** There is one exactly if the axis is in range of the
joint counts and the middle line in its bank; the axis is refused first. It keeps the side that the
axis fixes, carries the draw of the joint counts and is the poem of that draw and the middle line. A
word is taken exactly if the line of the axis has mass, also where the middle line is refused. -/
theorem drawCorrelated_is_paired (g : PoemGenerator) (hwidth : g.decoder.width < maxWord)
    (hbanks : ∀ f ∈ g.decoder.fields, f.bank.size ≤ maxWord) (axis : Axis) (middle : Nat)
    (s : WordStream) :
    ((∃ p, (g.drawCorrelated α axis middle s).1 = .ok p) ↔
      axis.index < g.matrix.size ∧ middle < g.middle.bank.size) ∧
    (g.matrix.size ≤ axis.index → (g.drawCorrelated α axis middle s).1 =
      .error (.indexOutOfRange axis.index g.matrix.size (.matrixLine axis.kind))) ∧
    (axis.index < g.matrix.size → g.middle.bank.size ≤ middle →
      (g.drawCorrelated α axis middle s).1 =
        .error (.indexOutOfRange middle g.middle.bank.size (.wordBank g.middle.bank.role))) ∧
    (∀ p, (g.drawCorrelated α axis middle s).1 = .ok p →
      (g.matrix.drawAlong α axis s).1 = .ok p.draw ∧ axis.fixedSide p.draw = axis.index ∧
        g.IsPaired middle p) ∧
    ((∃ n, g.matrix.lineTotal axis = .ok n ∧ 0 < n) →
      (g.drawCorrelated α axis middle s).2 = s.drop 1) ∧
    ((¬ ∃ n, g.matrix.lineTotal axis = .ok n ∧ 0 < n) →
      (g.drawCorrelated α axis middle s).2 = s) := by
  by_cases haxis : axis.index < g.matrix.size
  · obtain ⟨d, rest, hdraw, hd⟩ := CorrelationMatrix.exists_isDrawn α s haxis
    rw [drawCorrelated_of_drawAlong α hdraw, hdraw, hd.exists_mass_iff, hd.rest_eq]
    refine ⟨?_, fun h => absurd haxis (Nat.not_lt.mpr h),
      fun _ h => poemOfDraw_of_le hd.first_lt h, fun p hp => ?_, fun h => if_neg h,
      fun h => if_pos (not_not.mp h)⟩
    · show (∃ p, g.poemOfDraw d middle = .ok p) ↔ _
      rw [exists_poemOfDraw_iff hwidth hbanks hd.first_lt hd.last_lt]
      exact ⟨fun h => ⟨haxis, h⟩, fun h => h.2⟩
    · obtain ⟨rfl, hpaired⟩ := isPaired_of_poemOfDraw hwidth hbanks hp
      exact ⟨rfl, hd.fixedSide_eq, hpaired⟩
  · have hle : g.matrix.size ≤ axis.index := Nat.not_lt.mp haxis
    have hmass : ¬ ∃ n, g.matrix.lineTotal axis = .ok n ∧ 0 < n := by
      rintro ⟨n, hn, -⟩
      rw [CorrelationMatrix.lineTotal_of_le hle] at hn
      cases hn
    rw [drawCorrelated_of_le α hle]
    refine ⟨⟨?_, fun h => absurd h.1 haxis⟩, fun _ => rfl, fun h => absurd h haxis, ?_,
      fun h => absurd h hmass, fun _ => rfl⟩
    · rintro ⟨p, hp⟩
      cases hp
    · intro p hp
      cases hp

end Draw

/-- Two outer lines of two words each around four seasons; nothing was recorded with the second
first line. -/
def seasons : PoemGenerator where
  table := ⟨none, 4,
    ⟨[(⟨[true, false, true, false], by decide⟩, 5)], List.pairwise_singleton _ _⟩,
    by decide, by decide, by decide⟩
  weights := [5]
  decoder := ⟨4,
    [⟨⟨3, 1⟩, ⟨"first", ["dawn", "dusk"], 1, Nat.one_pos, rfl⟩⟩,
      ⟨⟨1, 2⟩, ⟨"middle", ["winter", "spring", "summer", "autumn"], 2, Nat.two_pos, rfl⟩⟩,
      ⟨⟨0, 1⟩, ⟨"last", ["rain", "snow"], 1, Nat.one_pos, rfl⟩⟩],
    by decide, by cbv⟩
  matrix := ⟨[[3, 1], [0, 0]], by decide, by decide, by decide⟩
  weights_eq := rfl
  width_eq := rfl
  first := ⟨⟨3, 1⟩, ⟨"first", ["dawn", "dusk"], 1, Nat.one_pos, rfl⟩⟩
  middle := ⟨⟨1, 2⟩, ⟨"middle", ["winter", "spring", "summer", "autumn"], 2, Nat.two_pos, rfl⟩⟩
  last := ⟨⟨0, 1⟩, ⟨"last", ["rain", "snow"], 1, Nat.one_pos, rfl⟩⟩
  fields_eq := rfl
  size_first := rfl
  size_last := rfl

/-- A summer after dusk takes no word, since dusk was never recorded. A fifth season is refused
after a word was taken for the column of the rain. -/
theorem seasons_drawCorrelated :
    seasons.decoder.width < maxWord ∧ (∀ f ∈ seasons.decoder.fields, f.bank.size ≤ maxWord) ∧
      (∃ p, (seasons.drawCorrelated Rat (.row 1) 2 (.splitMix 7)).1 = .ok p ∧ p.draw.first = 1 ∧
        seasons.IsPaired 2 p) ∧
      (seasons.drawCorrelated Rat (.row 1) 2 (.splitMix 7)).2 = .splitMix 7 ∧
      (seasons.drawCorrelated Rat (.column 0) 4 (.splitMix 7)).1 =
        .error (.indexOutOfRange 4 4 (.wordBank "middle")) ∧
      (seasons.drawCorrelated Rat (.column 0) 4 (.splitMix 7)).2 =
        (WordStream.splitMix 7).drop 1 := by
  have hwidth : seasons.decoder.width < maxWord := by decide
  have hbanks : ∀ f ∈ seasons.decoder.fields, f.bank.size ≤ maxWord := by decide
  have hnone : ¬ ∃ n, seasons.matrix.lineTotal (.row 1) = .ok n ∧ 0 < n := by
    rintro ⟨n, hn, hpos⟩
    obtain rfl : 0 = n := Except.ok.inj hn
    exact Nat.lt_irrefl 0 hpos
  obtain ⟨hok, -, -, hpaired, -, hempty⟩ :=
    drawCorrelated_is_paired Rat seasons hwidth hbanks (.row 1) 2 (.splitMix 7)
  obtain ⟨-, -, hrefused, -, hmass, -⟩ :=
    drawCorrelated_is_paired Rat seasons hwidth hbanks (.column 0) 4 (.splitMix 7)
  obtain ⟨p, hp⟩ := hok.mpr ⟨by decide, by decide⟩
  obtain ⟨-, hfixed, hp'⟩ := hpaired p hp
  exact ⟨hwidth, hbanks, ⟨p, hp, hfixed, hp'⟩, hempty hnone, hrefused (by decide) (by decide),
    hmass ⟨3, rfl, by decide⟩⟩

end Readout.PoemGenerator
