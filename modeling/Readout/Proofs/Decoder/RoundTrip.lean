import Readout.Proofs.BitSlices
import Readout.Proofs.Decoder.Acceptance
import Readout.Proofs.Lists

/-!
# Encoding and reading are inverse

The fields of a decoder tile its width. So each position of an encoded bitstring is written by
exactly one field: no field overwrites another (`indices_of_encode`), and no position keeps the zero
that it started with (`encode_of_indices`). Both say that `encode` and `indices` are inverse, and
`encode_eq_ok_iff` and `encode_eq_error` say on which lists of indices `encode` is defined.

`encode?` is the same encoding in a buffer that ends. It never writes outside of it
(`encode?_eq_encode`).
-/

namespace Readout

namespace Decoder

/-! ## One field after the other -/

theorem writeFields_cons_of_lt {f : Field} {index : Nat} (bits : List Bool) (fields : List Field)
    (indices : List Nat) (hrange : f.range.width = f.bank.indexBits) (h : index < f.bank.size) :
    writeFields bits (f :: fields) (index :: indices) =
      writeFields (overwrite f.range.start (binaryDigits f.range.width index) bits)
        fields indices := by
  have hget : f.bank.get index = .ok f.bank.words[index] :=
    WordBank.get_eq_ok_iff.mpr (List.getElem?_eq_getElem h)
  have hlt : index < 2 ^ f.range.width := by
    rw [hrange, ← f.bank.size_eq]
    exact h
  have hne : binaryDigits f.range.width index ≠ [] := by
    apply List.ne_nil_of_length_pos
    rw [length_binaryDigits, hrange]
    exact f.bank.indexBits_pos
  have hslice : Bitstring.ofIndex index f.range.width = .ok ⟨_, hne⟩ :=
    Bitstring.ofIndex_eq_ok_iff.mpr ⟨rfl, hlt⟩
  rw [writeFields, hget]
  simp only
  rw [hslice]

theorem writeFields_cons_of_le {f : Field} {index : Nat} (bits : List Bool) (fields : List Field)
    (indices : List Nat) (h : f.bank.size ≤ index) :
    writeFields bits (f :: fields) (index :: indices) =
      .error (.indexOutOfRange index f.bank.size (.wordBank f.bank.role)) := by
  have hget := WordBank.get_eq_error_iff.mpr ⟨h, rfl⟩
  rw [writeFields, hget]

theorem writeFields_eq_ok {bits : List Bool} {fields : List Field} {indices : List Nat}
    (hrange : ∀ f ∈ fields, f.range.width = f.bank.indexBits)
    (h : ∀ e ∈ fields.zip indices, e.2 < e.1.bank.size) :
    writeFields bits fields indices =
      .ok (writeAll bits ((fields.map (·.range)).zip indices)) := by
  induction fields generalizing bits indices with
  | nil => rfl
  | cons f fields ih =>
    cases indices with
    | nil => rfl
    | cons index indices =>
      rw [writeFields_cons_of_lt bits fields indices (hrange f List.mem_cons_self)
        (h (f, index) List.mem_cons_self),
        ih (fun g hg => hrange g (.tail f hg)) fun e he => h e (.tail _ he)]
      rfl

/-- The first index that is not in its bank is the one that is refused. -/
theorem writeFields_eq_error {bits : List Bool} {fields : List Field} {indices : List Nat}
    {f : Field} {index : Nat} (hrange : ∀ f ∈ fields, f.range.width = f.bank.indexBits)
    (h : (fields.zip indices).find? (fun e => e.1.bank.size ≤ e.2) = some (f, index)) :
    writeFields bits fields indices =
      .error (.indexOutOfRange index f.bank.size (.wordBank f.bank.role)) := by
  induction fields generalizing bits indices with
  | nil => cases h
  | cons g fields ih =>
    cases indices with
    | nil => cases h
    | cons i indices =>
      rw [List.zip_cons_cons] at h
      by_cases hi : g.bank.size ≤ i
      · rw [List.find?_cons_of_pos (by simpa using hi)] at h
        obtain ⟨rfl, rfl⟩ := Prod.mk.inj (Option.some.inj h)
        exact writeFields_cons_of_le bits fields indices hi
      · rw [List.find?_cons_of_neg (by simpa using hi)] at h
        rw [writeFields_cons_of_lt bits fields indices (hrange g List.mem_cons_self) (by omega)]
        exact ih (fun g' hg => hrange g' (.tail g hg)) h

/-! ## Where the two are defined -/

variable {d : Decoder} {s : Bitstring} {v : List Nat}

theorem indices_eq_ok (hwidth : d.width < maxWord) (hbanks : ∀ f ∈ d.fields, f.bank.size ≤ maxWord)
    (hs : s.width = d.width) :
    d.indices s = .ok (d.fields.map fun f => readRange s.bits f.range) := by
  unfold indices checkWidth
  rw [if_pos hs]
  refine mapM_eq_ok fun f hf => Bitstring.slice_eq_ok ?_ ?_
  · rw [hs]
    exact d.range_fits hwidth hf
  · rw [d.width_range f hf]
    exact WordBank.indexBits_lt (hbanks f hf)

theorem encode_eq_error_of_length (h : v.length ≠ d.fields.length) :
    d.encode v = .error (.invalidBinding (.indexCount v.length d.fields.length)) := by
  unfold encode
  rw [if_pos h]

theorem encode_eq_error (hlength : v.length = d.fields.length) {f : Field} {index : Nat}
    (h : (d.fields.zip v).find? (fun e => e.1.bank.size ≤ e.2) = some (f, index)) :
    d.encode v = .error (.indexOutOfRange index f.bank.size (.wordBank f.bank.role)) := by
  unfold encode
  rw [if_neg (not_not_intro hlength), writeFields_eq_error d.width_range h]

theorem encode_eq_ok (hlength : v.length = d.fields.length)
    (hin : ∀ e ∈ d.fields.zip v, e.2 < e.1.bank.size)
    (hbits : s.bits = writeAll (List.replicate d.width false) ((d.fields.map (·.range)).zip v)) :
    d.encode v = .ok s := by
  unfold encode
  rw [if_neg (not_not_intro hlength), writeFields_eq_ok d.width_range hin]
  simp only
  rw [Bitstring.ofBits?_eq_some_iff.mpr hbits]

/-- Indices that are in their banks give a bitstring, since a decoder has some width. -/
theorem exists_encode_eq_ok (hwidth : d.width < maxWord) (hlength : v.length = d.fields.length)
    (hin : ∀ e ∈ d.fields.zip v, e.2 < e.1.bank.size) :
    ∃ s, d.encode v = .ok s ∧
      s.bits = writeAll (List.replicate d.width false) ((d.fields.map (·.range)).zip v) := by
  have hne : writeAll (List.replicate d.width false) ((d.fields.map (·.range)).zip v) ≠ [] := by
    apply List.ne_nil_of_length_pos
    rw [length_writeAll, List.length_replicate]
    exact d.width_pos hwidth
  exact ⟨⟨_, hne⟩, encode_eq_ok hlength hin rfl, rfl⟩

theorem encode_eq_ok_iff (hwidth : d.width < maxWord) :
    d.encode v = .ok s ↔ v.length = d.fields.length ∧
      (∀ e ∈ d.fields.zip v, e.2 < e.1.bank.size) ∧
      s.bits = writeAll (List.replicate d.width false) ((d.fields.map (·.range)).zip v) := by
  refine ⟨fun h => ?_, fun ⟨hlength, hin, hbits⟩ => encode_eq_ok hlength hin hbits⟩
  by_cases hlength : v.length = d.fields.length
  · cases hfind : (d.fields.zip v).find? (fun e => e.1.bank.size ≤ e.2) with
    | some e =>
      rw [encode_eq_error hlength hfind] at h
      cases h
    | none =>
      have hin : ∀ e ∈ d.fields.zip v, e.2 < e.1.bank.size := by
        simpa using List.find?_eq_none.mp hfind
      obtain ⟨t, ht, hbits⟩ := exists_encode_eq_ok hwidth hlength hin
      rw [h] at ht
      obtain rfl := Except.ok.inj ht
      exact ⟨hlength, hin, hbits⟩
  · rw [encode_eq_error_of_length hlength] at h
    cases h

theorem width_of_encode (hwidth : d.width < maxWord) (h : d.encode v = .ok s) :
    s.width = d.width := by
  obtain ⟨-, -, hbits⟩ := (encode_eq_ok_iff hwidth).mp h
  rw [Bitstring.width, hbits, length_writeAll, List.length_replicate]

/-! ## The two inversions -/

/-- Every pair of a range and an index comes from a field. -/
theorem exists_field_of_mem_zip {e : BitRange × Nat} (h : e ∈ (d.fields.map (·.range)).zip v) :
    ∃ f, (f, e.2) ∈ d.fields.zip v ∧ f.range = e.1 := by
  rw [List.zip_map_left] at h
  obtain ⟨⟨f, index⟩, hmem, rfl⟩ := List.mem_map.mp h
  exact ⟨f, hmem, rfl⟩

theorem zip_fits (hwidth : d.width < maxWord) :
    ∀ e ∈ (d.fields.map (·.range)).zip v, e.1.start + e.1.width ≤ d.width := by
  intro e he
  obtain ⟨f, hf, hrange⟩ := exists_field_of_mem_zip he
  rw [← hrange]
  exact d.range_fits hwidth (List.of_mem_zip hf).1

theorem indices_of_encode (hwidth : d.width < maxWord)
    (hbanks : ∀ f ∈ d.fields, f.bank.size ≤ maxWord) (h : d.encode v = .ok s) :
    d.indices s = .ok v := by
  obtain ⟨hlength, hin, hbits⟩ := (encode_eq_ok_iff hwidth).mp h
  have hranges : v.length = (d.fields.map (·.range)).length := by
    rw [List.length_map]
    exact hlength
  have hread : ∀ e ∈ (d.fields.map (·.range)).zip v, readRange s.bits e.1 = e.2 := by
    rw [hbits]
    refine readRange_writeAll (fun e he => ?_)
      (pairwise_zip hranges (d.tiles hwidth).pairwise_disjoint) fun e he => ?_
    · rw [List.length_replicate]
      exact zip_fits hwidth e he
    · obtain ⟨f, hf, hrange⟩ := exists_field_of_mem_zip he
      rw [← hrange, d.width_range f (List.of_mem_zip hf).1, ← f.bank.size_eq]
      exact hin _ hf
  have hmap := map_eq_of_forall_mem_zip hranges hread
  rw [indices_eq_ok hwidth hbanks (width_of_encode hwidth h), ← hmap, List.map_map]
  rfl

theorem encode_of_indices (hwidth : d.width < maxWord)
    (hbanks : ∀ f ∈ d.fields, f.bank.size ≤ maxWord) (hs : s.width = d.width) :
    ∃ v, d.indices s = .ok v ∧ d.encode v = .ok s := by
  have hlength : s.bits.length = d.width := hs
  refine ⟨_, indices_eq_ok hwidth hbanks hs, encode_eq_ok (List.length_map _) ?_
    (writeAll_eq_of_read ?_ ?_ ?_ ?_).symm⟩
  · intro e he
    rw [← List.map_prod_left_eq_zip] at he
    obtain ⟨f, hf, rfl⟩ := List.mem_map.mp he
    simp only
    rw [f.bank.size_eq, ← d.width_range f hf]
    apply readRange_lt
    rw [hlength]
    exact d.range_fits hwidth hf
  · rw [List.length_replicate, hlength]
  · rw [hlength]
    exact zip_fits hwidth
  · intro e he
    rw [List.zip_map'] at he
    obtain ⟨f, -, rfl⟩ := List.mem_map.mp he
    rfl
  · intro p hp
    rw [hlength] at hp
    obtain ⟨r, hr, hold⟩ := (d.tiles hwidth).exists_holds hp
    obtain ⟨f, hf, rfl⟩ := List.mem_map.mp hr
    refine ⟨(f.range, readRange s.bits f.range), ?_, hold⟩
    rw [List.zip_map']
    exact List.mem_map_of_mem hf

/-- What encodes to a bitstring is what the fields read in it. -/
theorem encode_eq_ok_iff_reads (hwidth : d.width < maxWord)
    (hbanks : ∀ f ∈ d.fields, f.bank.size ≤ maxWord) :
    d.encode v = .ok s ↔
      s.width = d.width ∧ (d.fields.map fun f => readRange s.bits f.range) = v := by
  constructor
  · intro h
    have hs := width_of_encode hwidth h
    have hread := indices_of_encode hwidth hbanks h
    rw [indices_eq_ok hwidth hbanks hs] at hread
    exact ⟨hs, Except.ok.inj hread⟩
  · rintro ⟨hs, rfl⟩
    obtain ⟨v, hread, hencode⟩ := encode_of_indices hwidth hbanks hs
    rw [indices_eq_ok hwidth hbanks hs] at hread
    rw [Except.ok.inj hread]
    exact hencode

/-! ## No write outside the buffer -/

/-- `writeFields` in a buffer that ends: `none` as soon as a bit falls outside. -/
def writeFields? (buffer : List Bool) : List Field → List Nat → Option (Except Error (List Bool))
  | f :: fields, index :: indices =>
    match f.bank.get index with
    | .error e => some (.error e)
    | .ok _ =>
      match Bitstring.ofIndex index f.range.width with
      | .error e => some (.error e)
      | .ok slice => do
        let written ← writeBits? f.range.start slice.bits buffer
        writeFields? written fields indices
  | _, _ => some (.ok buffer)

/-- `encode` in a buffer that ends: `none` as soon as a bit falls outside. -/
def encode? (d : Decoder) (indices : List Nat) : Option (Except Error Bitstring) :=
  if indices.length ≠ d.fields.length then
    some (.error (.invalidBinding (.indexCount indices.length d.fields.length)))
  else do
    match ← writeFields? (List.replicate d.width false) d.fields indices with
    | .error e => some (.error e)
    | .ok bits =>
      match Bitstring.ofBits? bits with
      | some s => some (.ok s)
      | none => some (.error (.invalidBitstring ""))

theorem writeFields?_eq_writeFields {buffer : List Bool} {fields : List Field}
    {indices : List Nat}
    (hfits : ∀ f ∈ fields, f.range.start + f.range.width ≤ buffer.length) :
    writeFields? buffer fields indices = some (writeFields buffer fields indices) := by
  induction fields generalizing buffer indices with
  | nil => rfl
  | cons f fields ih =>
    cases indices with
    | nil => rfl
    | cons index indices =>
      rw [writeFields?, writeFields]
      cases f.bank.get index with
      | error e => rfl
      | ok word =>
        cases hslice : Bitstring.ofIndex index f.range.width with
        | error e => rfl
        | ok slice =>
          have hlength : slice.bits.length = f.range.width := by
            rw [(Bitstring.ofIndex_eq_ok_iff.mp hslice).1, length_binaryDigits]
          have hslice : f.range.start + slice.bits.length ≤ buffer.length := by
            rw [hlength]
            exact hfits f List.mem_cons_self
          simp only [writeBits?_eq_overwrite hslice, Option.bind_eq_bind, Option.bind_some]
          refine ih fun g hg => ?_
          rw [length_overwrite]
          exact hfits g (.tail f hg)

theorem encode?_eq_encode (d : Decoder) (hwidth : d.width < maxWord) (v : List Nat) :
    d.encode? v = some (d.encode v) := by
  have hfields : writeFields? (List.replicate d.width false) d.fields v =
      some (writeFields (List.replicate d.width false) d.fields v) := by
    apply writeFields?_eq_writeFields
    intro f hf
    rw [List.length_replicate]
    exact d.range_fits hwidth hf
  unfold encode? encode
  split
  · rfl
  · simp only [hfields, Option.bind_eq_bind, Option.bind_some]
    cases writeFields (List.replicate d.width false) d.fields v with
    | error e => rfl
    | ok bits =>
      simp only
      cases Bitstring.ofBits? bits with
      | none => rfl
      | some s => rfl

/-! ## The round trip -/

/-- **Encoding and reading are inverse.** A bitstring of the decoder's width reads as indices that
encode to it; indices encode exactly if there is one for each field and each is in its bank, and then
the bitstring reads as them. A wrong number of indices is refused first, then the first index that
is not in its bank. No bit is written outside the buffer. -/
theorem encode_indices_inverse (d : Decoder) (hwidth : d.width < maxWord)
    (hbanks : ∀ f ∈ d.fields, f.bank.size ≤ maxWord) :
    (∀ s : Bitstring, s.width = d.width → ∃ v, d.indices s = .ok v ∧ d.encode v = .ok s) ∧
    (∀ v, (∃ s, d.encode v = .ok s) ↔
      v.length = d.fields.length ∧ ∀ e ∈ d.fields.zip v, e.2 < e.1.bank.size) ∧
    (∀ v s, d.encode v = .ok s → s.width = d.width ∧ d.indices s = .ok v) ∧
    (∀ v, v.length ≠ d.fields.length →
      d.encode v = .error (.invalidBinding (.indexCount v.length d.fields.length))) ∧
    (∀ v f index, v.length = d.fields.length →
      (d.fields.zip v).find? (fun e => e.1.bank.size ≤ e.2) = some (f, index) →
      d.encode v = .error (.indexOutOfRange index f.bank.size (.wordBank f.bank.role))) ∧
    ∀ v, d.encode? v = some (d.encode v) := by
  refine ⟨fun s hs => encode_of_indices hwidth hbanks hs, fun v => ⟨?_, ?_⟩, fun v s h => ?_,
    fun v h => encode_eq_error_of_length h, fun v f index hlength h => encode_eq_error hlength h,
    d.encode?_eq_encode hwidth⟩
  · rintro ⟨s, h⟩
    obtain ⟨hlength, hin, -⟩ := (encode_eq_ok_iff hwidth).mp h
    exact ⟨hlength, hin⟩
  · rintro ⟨hlength, hin⟩
    obtain ⟨s, h, -⟩ := exists_encode_eq_ok hwidth hlength hin
    exact ⟨s, h⟩
  · exact ⟨width_of_encode hwidth h, indices_of_encode hwidth hbanks h⟩

/-- The decoder of the crossed fields. -/
def crossedDecoder : Decoder := ⟨3, crossedFields, by decide, by cbv⟩

/-- Autumn by sunlight is written across and reads back; a fifth season is refused. -/
theorem crossedDecoder_encode :
    crossedDecoder.width < maxWord ∧ (∀ f ∈ crossedDecoder.fields, f.bank.size ≤ maxWord) ∧
      (∃ s, crossedDecoder.encode [2, 1] = .ok s ∧ s.width = 3 ∧
        crossedDecoder.indices s = .ok [2, 1]) ∧
      crossedDecoder.encode [4, 1] = .error (.indexOutOfRange 4 4 (.wordBank "season")) ∧
      crossedDecoder.encode? [4, 1] = some (crossedDecoder.encode [4, 1]) := by
  have hwidth : crossedDecoder.width < maxWord := by decide
  have hbanks : ∀ f ∈ crossedDecoder.fields, f.bank.size ≤ maxWord := by decide
  obtain ⟨-, hok, hback, -, hout, hinside⟩ :=
    encode_indices_inverse crossedDecoder hwidth hbanks
  obtain ⟨s, hs⟩ := (hok [2, 1]).mpr ⟨rfl, by decide⟩
  exact ⟨hwidth, hbanks, ⟨s, hs, hback [2, 1] s hs⟩, hout [4, 1] _ 4 rfl rfl, hinside [4, 1]⟩

end Decoder

end Readout
