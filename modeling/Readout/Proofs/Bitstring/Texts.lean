import Readout.Bitstring.Reading

/-!
# Bitstrings and their texts

A bitstring is written as a text of zeros and ones, and every such text that is not empty is read
back (`exists_text_eq_iff`). The text has a character for each bit and orders bitstrings as
themselves (`compare_eq_lt_iff_text_lt`).
-/

namespace Readout

/-- A text of zeros and ones, at least one of them. -/
def IsBitText (s : String) : Prop := s ≠ "" ∧ ∀ c ∈ s.toList, c = '0' ∨ c = '1'

namespace Bitstring

theorem parse_eq_ok_iff {input : String} {s : Bitstring} :
    parse input = .ok s ↔ s.text = input := by
  rw [← ofString?_eq_some_iff]
  unfold parse
  cases ofString? input <;> simp

theorem toList_text (s : Bitstring) : s.text.toList = s.bits.map charOfBit := String.toList_ofList

theorem length_text (s : Bitstring) : s.text.length = s.width := by
  rw [← String.length_toList, toList_text, List.length_map]
  rfl

theorem text_injective {s t : Bitstring} (h : s.text = t.text) : s = t := by
  have hs := ofString?_eq_some_iff.mpr h
  rw [ofString?_eq_some_iff.mpr rfl] at hs
  exact (Option.some.inj hs).symm

theorem exists_text_eq_iff {input : String} :
    (∃ s : Bitstring, s.text = input) ↔ IsBitText input := by
  constructor
  · rintro ⟨s, rfl⟩
    refine ⟨fun h => ?_, fun c hc => ?_⟩
    · have hlength := s.length_text
      rw [h] at hlength
      exact Nat.ne_of_lt s.width_pos hlength
    · rw [toList_text] at hc
      obtain ⟨b, -, rfl⟩ := List.mem_map.mp hc
      cases b
      · exact .inl rfl
      · exact .inr rfl
  · rintro ⟨hne, hchars⟩
    have hbits : (input.toList.map (· == '1')).map charOfBit = input.toList := by
      rw [List.map_map]
      refine (List.map_congr_left fun c hc => ?_).trans (List.map_id _)
      rcases hchars c hc with rfl | rfl <;> rfl
    have hsome : input.toList.map (· == '1') ≠ [] := by
      rw [Ne, List.map_eq_nil_iff, String.toList_eq_nil_iff]
      exact hne
    refine ⟨⟨_, hsome⟩, ?_⟩
    rw [← String.toList_inj, toList_text, hbits]

theorem parse_eq_error_iff {input : String} {e : Error} :
    parse input = .error e ↔ ¬ IsBitText input ∧ e = .invalidBitstring input := by
  rw [← exists_text_eq_iff]
  simp only [← ofString?_eq_some_iff]
  unfold parse
  cases ofString? input with
  | none => simp [eq_comm]
  | some s => simp

theorem compare_bits_cons (a b : Bool) (l r : List Bool) :
    compare (a :: l) (b :: r) = (compare a b).then (compare l r) := by
  rw [List.compare_eq_compareLex, List.compareLex_cons_cons]

/-- The order of bitstrings is that of their texts. -/
theorem compare_eq_lt_iff_text_lt {s t : Bitstring} : compare s t = .lt ↔ s.text < t.text := by
  have hbits : ∀ l r : List Bool, compare l r = .lt ↔ l.map charOfBit < r.map charOfBit := by
    intro l
    induction l with
    | nil =>
      intro r
      cases r with
      | nil => simp
      | cons b r => exact ⟨fun _ => List.nil_lt_cons _ _, fun _ => rfl⟩
    | cons a l ih =>
      intro r
      cases r with
      | nil => exact ⟨nofun, nofun⟩
      | cons b r =>
        rw [List.map_cons, List.map_cons, List.cons_lt_cons_iff, ← ih, compare_bits_cons]
        cases a <;> cases b <;> simp [charOfBit, Ordering.then, compare]
  rw [compare_def, String.lt_iff, toList_text, toList_text]
  exact hbits s.bits t.bits

end Bitstring

end Readout
