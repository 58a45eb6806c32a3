import Mathlib.Data.Nat.Find
import Mathlib.Order.Bounds.Defs
import Readout.Proofs.Lists
import Readout.Proofs.Table.Acceptance

/-!
# Which fault a list is refused for

A list of counts can have many faults at once. The pairs are gone through from the left, so that the
first key that does not go with the keys before it is what is refused (`BadKey`,
`exists_keyRefusal_of_isLeast`), whatever stands behind it. Only where every key is good are the
counts looked at: there have to be some, and their sum must not be zero or leave a word
(`ofCounts_eq_error_iff_of_good`).
-/

namespace Readout

/-- The key at a place is no text of bits, or not as long as the first key, or stands at an earlier
place too. -/
def BadKey (keys : List String) (i : Nat) : Prop :=
  ∃ key first, keys[i]? = some key ∧ keys[0]? = some first ∧
    (¬ IsBitText key ∨ key.length ≠ first.length ∨ key ∈ keys.take i)

/-- Whether a key is bad hangs on the keys up to it. -/
theorem badKey_congr {keys others : List String} {i j : Nat}
    (h : others.take (i + 1) = keys.take (i + 1)) (hj : j ≤ i) :
    BadKey others j ↔ BadKey keys j := by
  unfold BadKey
  rw [getElem?_eq_of_take_eq h (Nat.lt_succ_of_le hj),
    getElem?_eq_of_take_eq h (Nat.succ_pos i), take_eq_of_take_eq h (Nat.le_succ_of_le hj)]

theorem exists_isLeast_badKey {keys : List String} (h : ∃ i, BadKey keys i) :
    ∃ i, IsLeast {j | BadKey keys j} i := by
  classical exact ⟨Nat.find h, Nat.find_spec h, fun _ hj => Nat.find_min' h hj⟩

theorem isLeast_badKey_congr {keys others : List String} {i : Nat}
    (h : others.take (i + 1) = keys.take (i + 1)) (hleast : IsLeast {j | BadKey keys j} i) :
    IsLeast {j | BadKey others j} i := by
  refine ⟨(badKey_congr h (Nat.le_refl i)).mpr hleast.1, fun j hj => ?_⟩
  rcases Nat.lt_or_ge j i with hlt | hle
  · exact hleast.2 ((badKey_congr h (Nat.le_of_lt hlt)).mp hj)
  · exact hle

/-- What a key is refused with behind the keys `seen`, where keys are `width` bits long. -/
inductive KeyRefusal (label : Option String) (width : Nat) (seen : List String) (key : String) :
    Error → Prop
  | notBits (h : ¬ IsBitText key) : KeyRefusal label width seen key (.invalidBitstring key)
  | mixedWidth (hbits : IsBitText key) (h : key.length ≠ width) :
      KeyRefusal label width seen key (.malformedTable label (.mixedWidth key key.length width))
  | duplicateKey (hbits : IsBitText key) (hlength : key.length = width) (h : key ∈ seen) :
      KeyRefusal label width seen key (.malformedTable label (.duplicateKey key))

section KeyRefusal

variable {label : Option String} {width : Nat} {seen : List String} {key : String} {e : Error}

theorem keyRefusal_iff_of_not_isBitText (h : ¬ IsBitText key) :
    KeyRefusal label width seen key e ↔ e = .invalidBitstring key := by
  constructor
  · intro hrefusal
    cases hrefusal with
    | notBits => rfl
    | mixedWidth hbits => exact absurd hbits h
    | duplicateKey hbits => exact absurd hbits h
  · rintro rfl
    exact .notBits h

theorem keyRefusal_iff_of_length_ne (hbits : IsBitText key) (h : key.length ≠ width) :
    KeyRefusal label width seen key e ↔
      e = .malformedTable label (.mixedWidth key key.length width) := by
  constructor
  · intro hrefusal
    cases hrefusal with
    | notBits hnot => exact absurd hbits hnot
    | mixedWidth => rfl
    | duplicateKey _ hlength => exact absurd hlength h
  · rintro rfl
    exact .mixedWidth hbits h

theorem keyRefusal_iff_of_length_eq (hbits : IsBitText key) (hlength : key.length = width) :
    KeyRefusal label width seen key e ↔
      key ∈ seen ∧ e = .malformedTable label (.duplicateKey key) := by
  constructor
  · intro hrefusal
    cases hrefusal with
    | notBits hnot => exact absurd hbits hnot
    | mixedWidth _ h => exact absurd hlength h
    | duplicateKey _ _ h => exact ⟨h, rfl⟩
  · rintro ⟨h, rfl⟩
    exact .duplicateKey hbits hlength h

theorem exists_keyRefusal_iff (label : Option String) :
    (∃ e, KeyRefusal label width seen key e) ↔
      ¬ IsBitText key ∨ key.length ≠ width ∨ key ∈ seen := by
  by_cases hbits : IsBitText key
  · by_cases hlength : key.length = width
    · simp [keyRefusal_iff_of_length_eq hbits hlength, hbits, hlength]
    · simp [keyRefusal_iff_of_length_ne hbits hlength, hlength]
  · simp [keyRefusal_iff_of_not_isBitText hbits, hbits]

/-- A key is refused in one way. -/
theorem KeyRefusal.unique {e' : Error} (h : KeyRefusal label width seen key e)
    (h' : KeyRefusal label width seen key e') : e = e' := by
  by_cases hbits : IsBitText key
  · by_cases hlength : key.length = width
    · rw [keyRefusal_iff_of_length_eq hbits hlength] at h h'
      rw [h.2, h'.2]
    · rw [keyRefusal_iff_of_length_ne hbits hlength] at h h'
      rw [h, h']
  · rw [keyRefusal_iff_of_not_isBitText hbits] at h h'
    rw [h, h']

theorem KeyRefusal.label_eq {given : Option String} {fault : TableFault}
    (h : KeyRefusal label width seen key (.malformedTable given fault)) : given = label := by
  cases h <;> rfl

theorem KeyRefusal.of_subset {seen' : List String} (h : KeyRefusal label width seen key e)
    (hsubset : seen ⊆ seen') : KeyRefusal label width seen' key e := by
  cases h with
  | notBits h => exact .notBits h
  | mixedWidth hbits h => exact .mixedWidth hbits h
  | duplicateKey hbits hlength h => exact .duplicateKey hbits hlength (hsubset h)

end KeyRefusal

namespace DistributionTable

variable {label : Option String} {pairs : List (String × Nat)} {e : Error}

/-! ## The first pair that is refused -/

section Draft

variable {width : Nat} {draft next : Draft width} {pair : String × Nat}

theorem Draft.contains_iff {key : Bitstring} :
    draft.counts.contains key = true ↔ key.text ∈ (writtenPairs draft.counts).map (·.1) := by
  rw [map_fst_writtenPairs, List.mem_map_of_injective fun _ _ => Bitstring.text_injective,
    OrderedMap.contains, Option.isSome_iff_exists]
  simp [OrderedMap.get?_eq_some_iff, OrderedMap.keys]

theorem Draft.add_eq_error_iff :
    draft.add label pair = .error e ↔
      KeyRefusal label width ((writtenPairs draft.counts).map (·.1)) pair.1 e := by
  unfold Draft.add
  cases hparse : Bitstring.parse pair.1 with
  | error parseError =>
    obtain ⟨hbits, rfl⟩ := Bitstring.parse_eq_error_iff.mp hparse
    rw [keyRefusal_iff_of_not_isBitText hbits]
    simp [eq_comm]
  | ok key =>
    have htext := Bitstring.parse_eq_ok_iff.mp hparse
    have hbits : IsBitText pair.1 := Bitstring.exists_text_eq_iff.mp ⟨key, htext⟩
    have hlength : pair.1.length = key.width := by rw [← htext, key.length_text]
    simp only
    split
    · rename_i hwidth
      rw [keyRefusal_iff_of_length_eq hbits (hlength.trans hwidth), ← htext, ← Draft.contains_iff]
      split
      · rename_i hcontains
        simp [hcontains, eq_comm]
      · rename_i hcontains
        simp [hcontains]
    · rename_i hwidth
      rw [keyRefusal_iff_of_length_ne hbits (hlength ▸ hwidth), htext, hlength]
      simp [eq_comm]

/-- The pairs before the first that is refused are taken; what stands behind it is not looked at. -/
theorem Draft.addAll_append_of_ok {before after : List (String × Nat)}
    (h : draft.addAll label before = .ok next) :
    draft.addAll label (before ++ after) = next.addAll label after := by
  induction before generalizing draft with
  | nil =>
    obtain rfl := Except.ok.inj h
    rfl
  | cons pair rest ih =>
    rw [Draft.addAll] at h
    rw [List.cons_append, Draft.addAll]
    split at h
    · cases h
    · exact ih h

theorem Draft.addAll_eq_error {i : Nat} (hnext : draft.addAll label (pairs.take i) = .ok next)
    (hpair : pairs[i]? = some pair) (hadd : next.add label pair = .error e) :
    draft.addAll label pairs = .error e := by
  have hsplit : pairs.take i ++ pair :: pairs.drop (i + 1) = pairs := by
    obtain ⟨hi, rfl⟩ := List.getElem?_eq_some_iff.mp hpair
    rw [← List.drop_eq_getElem_cons hi, List.take_append_drop]
  rw [← hsplit, Draft.addAll_append_of_ok hnext, Draft.addAll, hadd]

theorem Draft.finish_eq_error_iff :
    draft.finish label = .error e ↔
      maxWord < draft.counts.values.sum ∧ e = .malformedTable label .totalTooLarge ∨
      draft.counts.values.sum = 0 ∧ e = .malformedTable label .allZero := by
  unfold Draft.finish
  split
  · rename_i hle
    split
    · rename_i hpos
      simp [Nat.not_lt_of_le hle, Nat.ne_of_gt hpos]
    · rename_i hpos
      simp [Nat.eq_zero_of_not_pos hpos, eq_comm]
  · rename_i hle
    have hne : draft.counts.values.sum ≠ 0 := by omega
    simp [Nat.lt_of_not_le hle, hne, eq_comm]

end Draft

theorem ofCounts_cons {first : String × Nat} {width : Nat} (h : first.1.length = width)
    (rest : List (String × Nat)) :
    ofCounts label (first :: rest) =
      ((Draft.empty width).addAll label (first :: rest)).bind (Draft.finish label) := by
  unfold ofCounts
  cases hparse : Bitstring.parse first.1 with
  | error e => simp [Draft.addAll, Draft.add, hparse, Except.bind]
  | ok key =>
    obtain rfl : key.width = width := by
      rw [← h, ← Bitstring.parse_eq_ok_iff.mp hparse, key.length_text]
    simp only [hparse]
    cases (Draft.empty key.width).addAll label (first :: rest) <;> rfl

/-! ## Places of keys -/

section Places

variable {first key : String} {i : Nat}

theorem badKey_iff (hkey : (pairs.map (·.1))[i]? = some key)
    (hfirst : (pairs.map (·.1))[0]? = some first) :
    BadKey (pairs.map (·.1)) i ↔
      ∃ e, KeyRefusal label first.length ((pairs.map (·.1)).take i) key e := by
  rw [exists_keyRefusal_iff]
  constructor
  · rintro ⟨key', first', hkey', hfirst', hbad⟩
    rw [hkey] at hkey'
    rw [hfirst] at hfirst'
    obtain rfl := Option.some.inj hkey'
    obtain rfl := Option.some.inj hfirst'
    exact hbad
  · intro hbad
    exact ⟨key, first, hkey, hfirst, hbad⟩

theorem Draft.add_eq_error_iff_of_taken {width : Nat} {next : Draft width} {pair : String × Nat}
    (h : (Draft.empty width).addAll label (pairs.take i) = .ok next) :
    next.add label pair = .error e ↔
      KeyRefusal label width ((pairs.map (·.1)).take i) pair.1 e := by
  have hperm := (Draft.addAll_eq_ok_iff.mp h).map (·.1)
  rw [Draft.add_eq_error_iff, ← List.map_take]
  exact ⟨fun h => h.of_subset hperm.subset, fun h => h.of_subset hperm.symm.subset⟩

/-- The pairs in front of the first bad key are taken. -/
theorem exists_addAll_take (label : Option String) (hfirst : (pairs.map (·.1))[0]? = some first)
    (hgood : ∀ j < i, ¬ BadKey (pairs.map (·.1)) j) :
    ∃ next, (Draft.empty first.length).addAll label (pairs.take i) = .ok next := by
  induction i with
  | zero => exact ⟨_, rfl⟩
  | succ i ih =>
    obtain ⟨next, hnext⟩ := ih fun j hj => hgood j (Nat.lt_succ_of_lt hj)
    rw [List.take_add_one, Draft.addAll_append_of_ok hnext]
    cases hpair : pairs[i]? with
    | none => exact ⟨next, rfl⟩
    | some pair =>
      rw [Option.toList_some, Draft.addAll]
      cases hadd : next.add label pair with
      | ok last => exact ⟨last, rfl⟩
      | error e =>
        have hkey : (pairs.map (·.1))[i]? = some pair.1 := by rw [List.getElem?_map, hpair]; rfl
        have hrefusal := (Draft.add_eq_error_iff_of_taken hnext).mp hadd
        exact absurd ((badKey_iff hkey hfirst).mpr ⟨e, hrefusal⟩) (hgood i (Nat.lt_succ_self i))

theorem ofCounts_of_first (hfirst : (pairs.map (·.1))[0]? = some first) :
    ofCounts label pairs =
      ((Draft.empty first.length).addAll label pairs).bind (Draft.finish label) := by
  cases pairs with
  | nil => cases hfirst
  | cons p rest => exact ofCounts_cons (congrArg String.length (Option.some.inj hfirst)) rest

/-- The first bad key is what a list is refused for. -/
theorem exists_keyRefusal_of_isLeast (label : Option String)
    (hleast : IsLeast {j | BadKey (pairs.map (·.1)) j} i) (hkey : (pairs.map (·.1))[i]? = some key)
    (hfirst : (pairs.map (·.1))[0]? = some first) :
    ∃ e, KeyRefusal label first.length ((pairs.map (·.1)).take i) key e ∧
      ofCounts label pairs = .error e := by
  obtain ⟨next, hnext⟩ := exists_addAll_take label hfirst fun j hj hbad =>
    Nat.not_lt_of_le (hleast.2 hbad) hj
  obtain ⟨e, hrefusal⟩ := (badKey_iff hkey hfirst).mp hleast.1
  refine ⟨e, hrefusal, ?_⟩
  rw [List.getElem?_map] at hkey
  obtain ⟨pair, hpair, rfl⟩ := Option.map_eq_some_iff.mp hkey
  have hadd := (Draft.add_eq_error_iff_of_taken hnext).mpr hrefusal
  rw [ofCounts_of_first hfirst, Draft.addAll_eq_error hnext hpair hadd]
  rfl

/-- What stands behind the first bad key, and every count, may be otherwise. -/
theorem ofCounts_of_take_eq (label : Option String) {others : List (String × Nat)}
    (hleast : IsLeast {j | BadKey (pairs.map (·.1)) j} i)
    (h : (others.map (·.1)).take (i + 1) = (pairs.map (·.1)).take (i + 1)) :
    ofCounts label others = ofCounts label pairs := by
  obtain ⟨key, first, hkey, hfirst, -⟩ := hleast.1
  have hkey' := (getElem?_eq_of_take_eq h (Nat.lt_succ_self i)).trans hkey
  have hfirst' := (getElem?_eq_of_take_eq h (Nat.succ_pos i)).trans hfirst
  obtain ⟨e, hrefusal, heq⟩ := exists_keyRefusal_of_isLeast label hleast hkey hfirst
  obtain ⟨e', hrefusal', heq'⟩ :=
    exists_keyRefusal_of_isLeast label (isLeast_badKey_congr h hleast) hkey' hfirst'
  rw [take_eq_of_take_eq h (Nat.le_succ i)] at hrefusal'
  rw [heq, heq', hrefusal.unique hrefusal']

/-- Where every key is good, the counts alone decide. -/
theorem ofCounts_eq_error_iff_of_good (hgood : ∀ j, ¬ BadKey (pairs.map (·.1)) j) :
    ofCounts label pairs = .error e ↔
      pairs = [] ∧ e = .malformedTable label .noEntries ∨
      maxWord < (pairs.map (·.2)).sum ∧ e = .malformedTable label .totalTooLarge ∨
      pairs ≠ [] ∧ (pairs.map (·.2)).sum = 0 ∧ e = .malformedTable label .allZero := by
  by_cases hne : pairs = []
  · subst hne
    simp [ofCounts, eq_comm]
  · obtain ⟨p, rest, rfl⟩ := List.exists_cons_of_ne_nil hne
    have hfirst : ((p :: rest).map (·.1))[0]? = some p.1 := rfl
    obtain ⟨draft, hdraft⟩ := exists_addAll_take (i := (p :: rest).length) label hfirst
      fun j _ => hgood j
    rw [List.take_length] at hdraft
    have hsum : draft.counts.values.sum = ((p :: rest).map (·.2)).sum := by
      rw [← map_snd_writtenPairs, ((Draft.addAll_eq_ok_iff.mp hdraft).map (·.2)).sum_nat]
      rfl
    rw [ofCounts_of_first hfirst, hdraft, Except.bind]
    simp only [Draft.finish_eq_error_iff, hsum, hne, false_and, false_or, ne_eq, not_false_eq_true,
      true_and]

end Places

/-- **A list is refused for its first fault.** Take the first key that is no text of bits, or not as
long as the first key of all, or a repetition of a key before it. If there is one, the refusal names
that key, and the faults of a key are looked at in this order; all that stands behind it, and every
count, may be otherwise. If there is none, what is wrong is that there are no entries, that the sum
of the counts leaves a word, or that it is zero. A refused table keeps the label it was given. -/
theorem ofCounts_refuses_first_fault (label : Option String) (pairs : List (String × Nat)) :
    (∀ i key first, IsLeast {j | BadKey (pairs.map (·.1)) j} i →
      (pairs.map (·.1))[i]? = some key → (pairs.map (·.1))[0]? = some first →
      (¬ IsBitText key → ofCounts label pairs = .error (.invalidBitstring key)) ∧
      (IsBitText key → key.length ≠ first.length → ofCounts label pairs =
        .error (.malformedTable label (.mixedWidth key key.length first.length))) ∧
      (IsBitText key → key.length = first.length → ofCounts label pairs =
        .error (.malformedTable label (.duplicateKey key))) ∧
      ∀ others : List (String × Nat),
        (others.map (·.1)).take (i + 1) = (pairs.map (·.1)).take (i + 1) →
        ofCounts label others = ofCounts label pairs) ∧
    ((∀ j, ¬ BadKey (pairs.map (·.1)) j) → ∀ e, ofCounts label pairs = .error e ↔
      pairs = [] ∧ e = .malformedTable label .noEntries ∨
      maxWord < (pairs.map (·.2)).sum ∧ e = .malformedTable label .totalTooLarge ∨
      pairs ≠ [] ∧ (pairs.map (·.2)).sum = 0 ∧ e = .malformedTable label .allZero) ∧
    ∀ given fault, ofCounts label pairs = .error (.malformedTable given fault) → given = label := by
  refine ⟨fun i key first hleast hkey hfirst => ?_, fun hgood e => ?_, fun given fault h => ?_⟩
  · obtain ⟨e, hrefusal, heq⟩ := exists_keyRefusal_of_isLeast label hleast hkey hfirst
    refine ⟨fun hbits => ?_, fun hbits hlength => ?_, fun hbits hlength => ?_, fun others h => ?_⟩
    · rw [heq, (keyRefusal_iff_of_not_isBitText hbits).mp hrefusal]
    · rw [heq, (keyRefusal_iff_of_length_ne hbits hlength).mp hrefusal]
    · rw [heq, ((keyRefusal_iff_of_length_eq hbits hlength).mp hrefusal).2]
    · exact ofCounts_of_take_eq label hleast h
  · exact ofCounts_eq_error_iff_of_good hgood
  · by_cases hbad : ∃ j, BadKey (pairs.map (·.1)) j
    · obtain ⟨i, hleast⟩ := exists_isLeast_badKey hbad
      obtain ⟨key, first, hkey, hfirst, -⟩ := hleast.1
      obtain ⟨e, hrefusal, heq⟩ := exists_keyRefusal_of_isLeast label hleast hkey hfirst
      obtain rfl := Except.error.inj (heq.symm.trans h)
      exact hrefusal.label_eq
    · rw [ofCounts_eq_error_iff_of_good (not_exists.mp hbad)] at h
      rcases h with ⟨-, h⟩ | ⟨-, h⟩ | ⟨-, -, h⟩ <;> exact (Error.malformedTable.inj h).1

/-- The second key is refused, though the third is no text of bits and the counts leave a word. -/
example : ofCounts (some "tilted") [("01", maxWord), ("1", 2), ("0x", 0), ("01", 3)] =
    .error (.malformedTable (some "tilted") (.mixedWidth "1" 1 2)) := rfl

end DistributionTable

end Readout
