import Readout.Proofs.Decoder.RoundTrip

/-!
# The order of fields

Fields are listed in some order, but their ranges say where they stand, so that no other order makes
another reading: permuted fields are accepted alike (`exists_ofFields_iff_of_perm`), read the
permuted indices, and encode permuted indices to the same bitstring. Encoding writes the fields in
their order; that this order leaves no trace follows from what is read back
(`encode_eq_ok_iff_reads`).
-/

namespace Readout

theorem tiles_iff_of_perm {width : Nat} {ranges permuted : List BitRange}
    (h : permuted.Perm ranges) : Tiles width permuted ↔ Tiles width ranges := by
  rw [tiles_iff_coverCount, tiles_iff_coverCount]
  simp only [coverCount_perm h]

theorem checkCoverage_eq_ok_iff_of_perm {width : Nat} (hwidth : width < maxWord)
    {ranges permuted : List BitRange} (h : permuted.Perm ranges) :
    checkCoverage width permuted = .ok () ↔ checkCoverage width ranges = .ok () := by
  rw [checkCoverage_eq_ok_iff hwidth, checkCoverage_eq_ok_iff hwidth, tiles_iff_of_perm h]
  simp only [h.mem_iff]

namespace Decoder

variable {width n : Nat}

theorem exists_ofFields_iff {fields : List Field} :
    (∃ d, ofFields width fields = .ok d) ↔
      (∀ f ∈ fields, f.range.width = f.bank.indexBits) ∧
        checkCoverage width (fields.map (·.range)) = .ok () := by
  constructor
  · rintro ⟨d, hd⟩
    obtain ⟨rfl, rfl⟩ := ofFields_eq_ok_iff.mp hd
    exact ⟨d.width_range, d.covers⟩
  · rintro ⟨hrange, hcovers⟩
    exact ⟨_, ofFields_eq_ok hrange hcovers⟩

/-- Fields in another order are accepted or refused alike. -/
theorem exists_ofFields_iff_of_perm (hwidth : width < maxWord) {fields permuted : List Field}
    (h : permuted.Perm fields) :
    (∃ d, ofFields width permuted = .ok d) ↔ ∃ d, ofFields width fields = .ok d := by
  rw [exists_ofFields_iff, exists_ofFields_iff,
    checkCoverage_eq_ok_iff_of_perm hwidth (h.map (·.range))]
  simp only [h.mem_iff]

section OfFn

variable {fields : Fin n → Field} {d : Decoder} {s : Bitstring}

theorem forall_mem_fields_of_ofFn {P : Field → Prop} (hd : ofFields width (List.ofFn fields) = .ok d)
    (h : ∀ i, P (fields i)) : ∀ f ∈ d.fields, P f := by
  intro f hf
  rw [(ofFields_eq_ok_iff.mp hd).2, List.mem_ofFn] at hf
  obtain ⟨i, rfl⟩ := hf
  exact h i

theorem map_fields_ofFn {β : Type} (hd : ofFields width (List.ofFn fields) = .ok d) (g : Field → β) :
    d.fields.map g = List.ofFn fun i => g (fields i) := by
  rw [(ofFields_eq_ok_iff.mp hd).2, List.map_ofFn]
  rfl

theorem indices_ofFn (hd : ofFields width (List.ofFn fields) = .ok d) (hwidth : width < maxWord)
    (hbanks : ∀ i, (fields i).bank.size ≤ maxWord) (hs : s.width = width) :
    d.indices s = .ok (List.ofFn fun i => readRange s.bits (fields i).range) := by
  obtain ⟨rfl, -⟩ := ofFields_eq_ok_iff.mp hd
  rw [indices_eq_ok hwidth (forall_mem_fields_of_ofFn hd hbanks) hs, map_fields_ofFn hd]

theorem encode_ofFn_eq_ok_iff (hd : ofFields width (List.ofFn fields) = .ok d)
    (hwidth : width < maxWord) (hbanks : ∀ i, (fields i).bank.size ≤ maxWord) {v : Fin n → Nat} :
    d.encode (List.ofFn v) = .ok s ↔
      s.width = width ∧ ∀ i, readRange s.bits (fields i).range = v i := by
  obtain ⟨rfl, -⟩ := ofFields_eq_ok_iff.mp hd
  rw [encode_eq_ok_iff_reads hwidth (forall_mem_fields_of_ofFn hd hbanks), map_fields_ofFn hd,
    List.ofFn_inj, funext_iff]

theorem encode_of_length_ne (hd : ofFields width (List.ofFn fields) = .ok d) {v : List Nat}
    (h : v.length ≠ n) : d.encode v = .error (.invalidBinding (.indexCount v.length n)) := by
  have hlength : d.fields.length = n := by
    rw [(ofFields_eq_ok_iff.mp hd).2, List.length_ofFn]
  have herror := d.encode_eq_error_of_length (v := v) (by rwa [hlength])
  rwa [hlength] at herror

end OfFn

/-- **The order of fields is immaterial.** Fields and any permutation of them are accepted or
refused alike. Where they are accepted, the permuted fields read the permuted indices in every
bitstring of the width, and permuted indices encode exactly if the indices do, to the same
bitstring; a list with another number of indices is refused by both. -/
theorem field_order_immaterial {width n : Nat} (hwidth : width < maxWord) (fields : Fin n → Field)
    (hbanks : ∀ i, (fields i).bank.size ≤ maxWord) (σ : Equiv.Perm (Fin n)) :
    ((∃ d, ofFields width (List.ofFn (fields ∘ σ)) = .ok d) ↔
      ∃ d, ofFields width (List.ofFn fields) = .ok d) ∧
    ∀ d permuted, ofFields width (List.ofFn fields) = .ok d →
      ofFields width (List.ofFn (fields ∘ σ)) = .ok permuted →
      (∀ s : Bitstring, s.width = width → ∃ v : Fin n → Nat,
        d.indices s = .ok (List.ofFn v) ∧ permuted.indices s = .ok (List.ofFn (v ∘ σ))) ∧
      (∀ (v : Fin n → Nat) s,
        permuted.encode (List.ofFn (v ∘ σ)) = .ok s ↔ d.encode (List.ofFn v) = .ok s) ∧
      ∀ v : List Nat, v.length ≠ n →
        d.encode v = .error (.invalidBinding (.indexCount v.length n)) ∧
        permuted.encode v = .error (.invalidBinding (.indexCount v.length n)) := by
  have hbanks' : ∀ i, ((fields ∘ σ) i).bank.size ≤ maxWord := fun i => hbanks (σ i)
  refine ⟨exists_ofFields_iff_of_perm hwidth (σ.ofFn_comp_perm fields), fun d permuted hd hd' => ?_⟩
  refine ⟨fun s hs => ?_, fun v s => ?_, fun v h => ?_⟩
  · exact ⟨_, indices_ofFn hd hwidth hbanks hs, indices_ofFn hd' hwidth hbanks' hs⟩
  · rw [encode_ofFn_eq_ok_iff hd hwidth hbanks, encode_ofFn_eq_ok_iff hd' hwidth hbanks']
    exact and_congr_right fun _ => (σ.surjective.forall (p := fun i =>
      readRange s.bits (fields i).range = v i)).symm
  · exact ⟨encode_of_length_ne hd h, encode_of_length_ne hd' h⟩

/-- The crossed fields, light before season, encode sunlight in autumn as the decoder does that has
them crossed. -/
theorem crossedFields_uncrossed :
    3 < maxWord ∧ (∀ i : Fin 2, (crossedFields.get i).bank.size ≤ maxWord) ∧
      ∃ uncrossed, ofFields 3 crossedFields.reverse = .ok uncrossed ∧
        ∀ s, uncrossed.encode [1, 2] = .ok s ↔ crossedDecoder.encode [2, 1] = .ok s := by
  have hwidth : 3 < maxWord := by decide
  have hbanks : ∀ i : Fin 2, (crossedFields.get i).bank.size ≤ maxWord := by decide
  have hd : ofFields 3 (List.ofFn (n := 2) crossedFields.get) = .ok crossedDecoder :=
    ofFields_eq_ok crossedDecoder.width_range crossedDecoder.covers
  obtain ⟨haccept, hsame⟩ :=
    field_order_immaterial (n := 2) hwidth crossedFields.get hbanks (Equiv.swap 0 1)
  obtain ⟨uncrossed, hd'⟩ := haccept.mpr ⟨_, hd⟩
  obtain ⟨-, hencode, -⟩ := hsame _ _ hd hd'
  exact ⟨hwidth, hbanks, uncrossed, hd', fun s => hencode ![2, 1] s⟩

end Decoder

end Readout
