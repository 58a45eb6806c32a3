import Readout.Decoder
import Readout.Proofs.Tiling

/-!
# Which fields make a decoder

`Decoder.ofFields` accepts a list of fields exactly if each reads as many bits as its bank needs and
their ranges tile the width. The decoders of a width and a list of fields are those that it returns
(`ofFields_eq_ok_iff`), so what is proved of every `Decoder` is proved of every accepted list.
-/

namespace Readout

theorem WordBank.log2_size (b : WordBank) : b.size.log2 = b.indexBits := by
  rw [b.size_eq, Nat.log2_two_pow]

/-- The word banks are those that `WordBank.ofList` returns. -/
theorem WordBank.ofList_eq_ok_iff {role : String} {words : List String} {b : WordBank} :
    ofList role words = .ok b ↔ b.role = role ∧ b.words = words := by
  unfold ofList
  refine ⟨?_, ?_⟩
  · intro h
    split at h
    · obtain rfl := Except.ok.inj h
      exact ⟨rfl, rfl⟩
    · cases h
  · rintro ⟨rfl, rfl⟩
    obtain ⟨role, words, bits, hpos, hlength⟩ := b
    obtain rfl : words.length.log2 = bits := by rw [hlength, Nat.log2_two_pow]
    rw [dif_pos ⟨hpos, hlength⟩]

/-- A bank whose length is a word is addressed by fewer bits than a word has. -/
theorem WordBank.indexBits_lt {b : WordBank} (h : b.size ≤ maxWord) : b.indexBits < 64 := by
  rw [b.size_eq] at h
  by_contra hn
  have hpow : 2 ^ 64 ≤ 2 ^ b.indexBits := Nat.pow_le_pow_right (by decide) (by omega)
  unfold maxWord at h
  omega

namespace Decoder

variable {width : Nat} {fields : List Field}

theorem ofFields_eq_ok (hrange : ∀ f ∈ fields, f.range.width = f.bank.indexBits)
    (hcovers : checkCoverage width (fields.map (·.range)) = .ok ()) :
    ofFields width fields = .ok ⟨width, fields, hrange, hcovers⟩ := by
  unfold ofFields
  split
  · rename_i f hfind
    have hne := List.find?_some hfind
    simp only [decide_eq_true_eq] at hne
    exact absurd (hrange f (List.mem_of_find?_eq_some hfind)) hne
  · split
    · rename_i fault hfault
      rw [hcovers] at hfault
      cases hfault
    · rfl

theorem ofFields_eq_ok_iff {d : Decoder} :
    ofFields width fields = .ok d ↔ d.width = width ∧ d.fields = fields := by
  refine ⟨?_, ?_⟩
  · intro h
    unfold ofFields at h
    split at h
    · cases h
    · split at h
      · cases h
      · obtain rfl := Except.ok.inj h
        exact ⟨rfl, rfl⟩
  · rintro ⟨rfl, rfl⟩
    exact ofFields_eq_ok d.width_range d.covers

/-- A refusal is always about the wiring. -/
theorem eq_invalidBinding_of_ofFields {e : Error} (h : ofFields width fields = .error e) :
    ∃ fault, e = .invalidBinding fault := by
  unfold ofFields at h
  split at h
  · exact ⟨_, (Except.error.inj h).symm⟩
  · split at h
    · exact ⟨_, (Except.error.inj h).symm⟩
    · cases h

/-! ## What the fields of a decoder do -/

theorem tiles (d : Decoder) (h : d.width < maxWord) : Tiles d.width (d.fields.map (·.range)) :=
  ((checkCoverage_eq_ok_iff h).mp d.covers).2.2

theorem width_pos (d : Decoder) (h : d.width < maxWord) : 0 < d.width :=
  ((checkCoverage_eq_ok_iff h).mp d.covers).1

theorem range_fits (d : Decoder) (h : d.width < maxWord) {f : Field} (hf : f ∈ d.fields) :
    f.range.start + f.range.width ≤ d.width := by
  apply (d.tiles h).stop_le (List.mem_map_of_mem hf)
  rw [d.width_range f hf]
  exact f.bank.indexBits_pos

/-! ## Acceptance -/

/-- **What is accepted.** Fields make a decoder exactly if each range is as wide as its bank needs
and the ranges tile a positive width; all else is refused as a fault of the wiring. -/
theorem ofFields_ok_iff_tiles {width : Nat} (hwidth : width < maxWord) (fields : List Field) :
    ((∃ d, ofFields width fields = .ok d) ↔
      0 < width ∧ (∀ f ∈ fields, f.range.width = f.bank.size.log2) ∧
        Tiles width (fields.map (·.range))) ∧
    ((¬ ∃ d, ofFields width fields = .ok d) →
      ∃ fault, ofFields width fields = .error (.invalidBinding fault)) := by
  refine ⟨⟨?_, ?_⟩, fun h => ?_⟩
  · rintro ⟨d, hd⟩
    obtain ⟨rfl, rfl⟩ := ofFields_eq_ok_iff.mp hd
    refine ⟨d.width_pos hwidth, fun f hf => ?_, d.tiles hwidth⟩
    rw [WordBank.log2_size, d.width_range f hf]
  · rintro ⟨hpos, hrange, htiles⟩
    have hbits : ∀ f ∈ fields, f.range.width = f.bank.indexBits := fun f hf => by
      rw [hrange f hf, WordBank.log2_size]
    have hcovers : checkCoverage width (fields.map (·.range)) = .ok () := by
      refine (checkCoverage_eq_ok_iff hwidth).mpr ⟨hpos, fun r hr => ?_, htiles⟩
      obtain ⟨f, hf, rfl⟩ := List.mem_map.mp hr
      rw [hbits f hf]
      exact f.bank.indexBits_pos
    exact ⟨_, ofFields_eq_ok hbits hcovers⟩
  · cases hresult : ofFields width fields with
    | ok d => exact absurd ⟨d, hresult⟩ h
    | error e =>
      obtain ⟨fault, rfl⟩ := eq_invalidBinding_of_ofFields hresult
      exact ⟨fault, rfl⟩

/-- A field of two bits listed before the field of one bit that it stands behind. -/
def crossedFields : List Field :=
  [⟨⟨1, 2⟩, ⟨"season", ["spring", "summer", "autumn", "winter"], 2, by decide, rfl⟩⟩,
    ⟨⟨0, 1⟩, ⟨"light", ["moon", "sun"], 1, by decide, rfl⟩⟩]

/-- Crossed fields are accepted; with one more field, from the largest word on, they are not. -/
theorem ofFields_crossedFields :
    3 < maxWord ∧ (∃ d, ofFields 3 crossedFields = .ok d) ∧
      ¬ ∃ d, ofFields 3 (crossedFields ++
        [⟨⟨maxWord, 1⟩, ⟨"end", ["a", "b"], 1, by decide, rfl⟩⟩]) = .ok d := by
  have hwidth : 3 < maxWord := by decide
  refine ⟨hwidth, (ofFields_ok_iff_tiles hwidth crossedFields).1.mpr
    ⟨by decide, by decide, by decide, ?_⟩, fun h => ?_⟩
  · intro r hr p hstart hstop
    have hmem : r = ⟨1, 2⟩ ∨ r = ⟨0, 1⟩ := by simpa [crossedFields] using hr
    rcases hmem with rfl | rfl <;> simp only at hstart hstop <;> omega
  · have htiles := ((ofFields_ok_iff_tiles hwidth _).1.mp h).2.2
    have hbeyond := htiles.2 ⟨maxWord, 1⟩ (by simp) maxWord (by decide) (by decide)
    exact absurd hbeyond (by decide)

end Decoder

end Readout
