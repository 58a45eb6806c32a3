import Readout.Proofs.Decoder.RoundTrip

/-!
# Decoding

On a bitstring of the decoder's width every field finds its word, so that decoding is a map over the
fields (`decode_eq_ok`). Together with the inversion of `encode` the artifact of an encoded
bitstring has the indices that were encoded (`exists_decode_of_encode`).
-/

namespace Readout

/-- What a field finds in a bitstring: the index that its range reads and the word there. -/
def Field.find (f : Field) (s : Bitstring) : ArtifactField :=
  let index := readRange s.bits f.range
  ⟨f.bank.role, index, f.bank.words.getD index ""⟩

namespace Decoder

variable {d : Decoder} {s : Bitstring} {v : List Nat} {f : Field}

theorem readRange_lt_size (hwidth : d.width < maxWord) (hs : s.width = d.width)
    (hf : f ∈ d.fields) : readRange s.bits f.range < f.bank.size := by
  have hlength : s.bits.length = d.width := hs
  rw [f.bank.size_eq, ← d.width_range f hf]
  apply readRange_lt
  rw [hlength]
  exact d.range_fits hwidth hf

/-- The word of a field is one of its bank. -/
theorem getElem?_words (hwidth : d.width < maxWord) (hs : s.width = d.width) (hf : f ∈ d.fields) :
    f.bank.words[readRange s.bits f.range]? = some (f.find s).word := by
  have hlt := readRange_lt_size hwidth hs hf
  show _ = some (f.bank.words.getD _ "")
  rw [List.getD_eq_getElem?_getD, List.getElem?_eq_getElem hlt]
  rfl

theorem decode_eq_ok (hwidth : d.width < maxWord) (hbanks : ∀ f ∈ d.fields, f.bank.size ≤ maxWord)
    (hs : s.width = d.width) : d.decode s = .ok ⟨s, d.fields.map (·.find s)⟩ := by
  have hread : ∀ f ∈ d.fields, readField s f = .ok (f.find s) := by
    intro f hf
    have hfits : f.range.start + f.range.width ≤ s.width := by
      rw [hs]
      exact d.range_fits hwidth hf
    have hnarrow : f.range.width < 64 := by
      rw [d.width_range f hf]
      exact WordBank.indexBits_lt (hbanks f hf)
    unfold readField
    rw [Bitstring.slice_eq_ok hfits hnarrow]
    simp only
    rw [WordBank.get_eq_ok_iff.mpr (getElem?_words hwidth hs hf)]
    rfl
  unfold decode checkWidth
  rw [if_pos hs]
  simp only
  rw [mapM_eq_ok hread]

/-- An encoded bitstring decodes to the words at the indices that were encoded. -/
theorem exists_decode_of_encode (hwidth : d.width < maxWord)
    (hbanks : ∀ f ∈ d.fields, f.bank.size ≤ maxWord) (h : d.encode v = .ok s) :
    ∃ a, d.decode s = .ok a ∧ a.key = s ∧ a.fields.map (·.index) = v ∧
      a.words.map some = List.zipWith (fun f index => f.bank.words[index]?) d.fields v := by
  obtain ⟨hs, rfl⟩ := (encode_eq_ok_iff_reads hwidth hbanks).mp h
  refine ⟨_, decode_eq_ok hwidth hbanks hs, rfl, ?_, ?_⟩
  · rw [List.map_map]
    rfl
  · rw [List.zipWith_map_right, List.zipWith_self, Artifact.words, List.map_map, List.map_map]
    exact List.map_congr_left fun f hf => (getElem?_words hwidth hs hf).symm

/-! ## Two ways to read a bitstring -/

theorem decode_eq_error (h : s.width ≠ d.width) :
    d.decode s = .error (.widthMismatch d.width s.width) := by
  unfold decode checkWidth
  rw [if_neg h]

theorem indices_eq_error (h : s.width ≠ d.width) :
    d.indices s = .error (.widthMismatch d.width s.width) := by
  unfold indices checkWidth
  rw [if_neg h]

theorem index_find_eq_placeSum (hwidth : d.width < maxWord) (hs : s.width = d.width)
    (hf : f ∈ d.fields) : (f.find s).index = placeSum s.bits f.range := by
  have hlength : s.bits.length = d.width := hs
  apply readRange_eq_placeSum
  rw [hlength]
  exact d.range_fits hwidth hf

/-- **Decoding and indexing agree.** Both refuse exactly the bitstrings of another width, and that is
all they refuse. On the others they find, field by field, the same index: the value of the bits in
the field's range, which is below the size of its bank, with the word that stands there. -/
theorem decode_agrees_with_indices (d : Decoder) (hwidth : d.width < maxWord)
    (hbanks : ∀ f ∈ d.fields, f.bank.size ≤ maxWord) (s : Bitstring) :
    (s.width ≠ d.width →
      d.decode s = .error (.widthMismatch d.width s.width) ∧
      d.indices s = .error (.widthMismatch d.width s.width)) ∧
    (s.width = d.width → ∃ a v, d.decode s = .ok a ∧ d.indices s = .ok v ∧ a.key = s ∧
      a.fields.length = d.fields.length ∧ v.length = d.fields.length ∧
      ∀ (i : Nat) f, d.fields[i]? = some f → ∃ x, a.fields[i]? = some x ∧
        v[i]? = some x.index ∧ x.role = f.bank.role ∧ x.index = placeSum s.bits f.range ∧
        x.index < f.bank.size ∧ f.bank.words[x.index]? = some x.word) ∧
    ∀ e, d.decode s = .error e ∨ d.indices s = .error e →
      s.width ≠ d.width ∧ e = .widthMismatch d.width s.width := by
  by_cases hs : s.width = d.width
  · have hdecode := decode_eq_ok hwidth hbanks hs
    have hindices := indices_eq_ok hwidth hbanks hs
    refine ⟨fun h => absurd hs h, fun _ => ⟨_, _, hdecode, hindices, rfl, List.length_map _,
      List.length_map _, fun i f hi => ?_⟩, fun e he => ?_⟩
    · have hf : f ∈ d.fields := List.mem_of_getElem? hi
      refine ⟨f.find s, ?_, ?_, rfl, index_find_eq_placeSum hwidth hs hf,
        readRange_lt_size hwidth hs hf, getElem?_words hwidth hs hf⟩
      · rw [List.getElem?_map, hi]
        rfl
      · rw [List.getElem?_map, hi]
        rfl
    · rw [hdecode, hindices] at he
      rcases he with he | he <;> cases he
  · refine ⟨fun _ => ⟨decode_eq_error hs, indices_eq_error hs⟩, fun h => absurd h hs,
      fun e he => ⟨hs, ?_⟩⟩
    rw [decode_eq_error hs, indices_eq_error hs] at he
    rcases he with he | he <;> exact (Except.error.inj he).symm

/-- On the crossed fields the season is read behind the light; four bits are refused. -/
theorem crossedDecoder_decode :
    crossedDecoder.width < maxWord ∧ (∀ f ∈ crossedDecoder.fields, f.bank.size ≤ maxWord) ∧
      (∃ a v, crossedDecoder.decode ⟨[true, true, false], by decide⟩ = .ok a ∧
        crossedDecoder.indices ⟨[true, true, false], by decide⟩ = .ok v ∧
        ∃ x, a.fields[0]? = some x ∧ v[0]? = some x.index ∧ x.role = "season" ∧
          x.index = 2 ∧ some "autumn" = some x.word) ∧
      crossedDecoder.decode ⟨[true, true, false, true], by decide⟩ =
        .error (.widthMismatch 3 4) := by
  have hwidth : crossedDecoder.width < maxWord := by decide
  have hbanks : ∀ f ∈ crossedDecoder.fields, f.bank.size ≤ maxWord := by decide
  obtain ⟨-, hok, -⟩ := decode_agrees_with_indices crossedDecoder hwidth hbanks
    ⟨[true, true, false], by decide⟩
  obtain ⟨hwide, -, -⟩ := decode_agrees_with_indices crossedDecoder hwidth hbanks
    ⟨[true, true, false, true], by decide⟩
  obtain ⟨a, v, ha, hv, -, -, -, hfields⟩ := hok rfl
  obtain ⟨x, hx, hvx, hrole, hindex, -, hword⟩ := hfields 0 _ rfl
  have hplace : x.index = 2 := hindex.trans (by decide)
  rw [hplace] at hword
  exact ⟨hwidth, hbanks, ⟨a, v, ha, hv, x, hx, hvx, hrole, hplace, hword⟩,
    (hwide (by decide)).1⟩

end Decoder

end Readout
