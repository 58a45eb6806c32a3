import Readout.Json.Reader

/-!
# Counts as they are written

A count stands in a document as its decimal digits and in no other way: without a sign, a needless
zero, a point or an exponent (`readValue_eq_count_iff`). Everything else that can be read there is
another value.
-/

namespace Readout.Json

/-! ## Digits -/

theorem digit?_eq_some_iff {c : Char} {d : Nat} : digit? c = some d ↔ d < 10 ∧ d.digitChar = c := by
  unfold digit?
  constructor
  · intro h
    split at h
    · rename_i hdigit
      obtain ⟨hlow, hhigh⟩ : 48 ≤ c.toNat ∧ c.toNat ≤ 57 := by
        simpa [Char.isDigit, UInt32.le_iff_toNat_le] using hdigit
      obtain rfl : c.toNat - 48 = d := Option.some.inj h
      have hlt : c.toNat - 48 < 10 := by omega
      refine ⟨hlt, Char.toNat_inj.mp ?_⟩
      rw [Nat.toNat_digitChar_of_lt_ten hlt]
      omega
    · cases h
  · rintro ⟨hlt, rfl⟩
    rw [if_pos (by simpa [Nat.isDigit_digitChar] using hlt)]
    exact congrArg some (Nat.toNat_digitChar_sub_48_of_lt_ten hlt)

theorem digit?_eq_none_iff {c : Char} : digit? c = none ↔ c.isDigit = false := by
  unfold digit?
  split <;> simp_all

theorem spanDigits_append {ds : List Nat} {rest : List Char} (hds : ∀ d ∈ ds, d < 10)
    (hrest : ∀ c ∈ rest.head?, c.isDigit = false) :
    spanDigits (ds.map Nat.digitChar ++ rest) = (ds, rest) := by
  induction ds with
  | nil =>
    cases rest with
    | nil => rfl
    | cons c rest =>
      have hnone := digit?_eq_none_iff.mpr (hrest c rfl)
      rw [List.map_nil, List.nil_append, spanDigits, hnone]
  | cons d ds ih =>
    have hd := digit?_eq_some_iff.mpr ⟨hds d List.mem_cons_self, rfl⟩
    rw [List.map_cons, List.cons_append, spanDigits, hd]
    simp only [ih fun e he => hds e (List.mem_cons_of_mem d he)]

theorem of_spanDigits {s rest : List Char} {ds : List Nat} (h : spanDigits s = (ds, rest)) :
    s = ds.map Nat.digitChar ++ rest ∧ (∀ d ∈ ds, d < 10) ∧
      ∀ c ∈ rest.head?, c.isDigit = false := by
  induction s generalizing ds with
  | nil =>
    obtain ⟨rfl, rfl⟩ := Prod.mk.inj h
    exact ⟨rfl, nofun, nofun⟩
  | cons c s ih =>
    rw [spanDigits] at h
    split at h
    · rename_i hnone
      obtain ⟨rfl, rfl⟩ := Prod.mk.inj h
      refine ⟨rfl, nofun, fun b hb => ?_⟩
      obtain rfl : c = b := Option.some.inj hb
      exact digit?_eq_none_iff.mp hnone
    · rename_i d hd
      obtain ⟨rfl, rfl⟩ := Prod.mk.inj h
      obtain ⟨hs, hds, hrest⟩ := ih rfl
      obtain ⟨hlt, rfl⟩ := digit?_eq_some_iff.mp hd
      refine ⟨congrArg (d.digitChar :: ·) hs, fun e he => ?_, hrest⟩
      rcases List.mem_cons.mp he with rfl | he
      · exact hlt
      · exact hds e he

/-! ## Whole numbers -/

/-- The digits of a whole number, with no needless zero in front. -/
structure IsWhole (ds : List Nat) : Prop where
  ne_nil : ds ≠ []
  lt_ten : ∀ d ∈ ds, d < 10
  ne_zero_cons : ∀ d rest, ds ≠ 0 :: d :: rest

theorem readWhole_eq_some_iff {s rest : List Char} {ds : List Nat} :
    readWhole s = some (ds, rest) ↔
      s = ds.map Nat.digitChar ++ rest ∧ IsWhole ds ∧ ∀ c ∈ rest.head?, c.isDigit = false := by
  unfold readWhole
  constructor
  · intro h
    split at h
    · cases h
    · cases h
    · rename_i hnil hzero
      obtain ⟨hs, hds, hrest⟩ := of_spanDigits (Option.some.inj h)
      refine ⟨hs, ⟨?_, hds, ?_⟩, hrest⟩
      · rintro rfl
        exact hnil _ (Option.some.inj h)
      · rintro d tail rfl
        exact hzero _ _ _ (Option.some.inj h)
  · rintro ⟨rfl, hwhole, hrest⟩
    rw [spanDigits_append hwhole.lt_ten hrest]
    split
    · rename_i heq
      exact absurd (Prod.mk.inj heq).1 hwhole.ne_nil
    · rename_i heq
      exact absurd (Prod.mk.inj heq).1 (hwhole.ne_zero_cons _ _)
    · rfl

theorem toDigits_foldl {ds : List Nat} {n : Nat} (hn : 0 < n) (hds : ∀ d ∈ ds, d < 10) :
    Nat.toDigits 10 (ds.foldl (fun n d => 10 * n + d) n) =
      Nat.toDigits 10 n ++ ds.map Nat.digitChar := by
  induction ds generalizing n with
  | nil => simp
  | cons d ds ih =>
    have hd := hds d List.mem_cons_self
    rw [List.foldl_cons, ih (by omega) fun e he => hds e (List.mem_cons_of_mem d he),
      ← Nat.toDigits_append_toDigits (by decide) hn hd, Nat.toDigits_of_lt_base hd,
      List.append_assoc]
    rfl

theorem IsWhole.toDigits_ofDigits {ds : List Nat} (h : IsWhole ds) :
    Nat.toDigits 10 (ofDigits ds) = ds.map Nat.digitChar := by
  obtain ⟨hne, hlt, hzero⟩ := h
  cases ds with
  | nil => exact absurd rfl hne
  | cons d rest =>
    have hd := hlt d List.mem_cons_self
    by_cases hpos : 0 < d
    · rw [ofDigits, List.foldl_cons, Nat.mul_zero, Nat.zero_add,
        toDigits_foldl hpos fun e he => hlt e (List.mem_cons_of_mem d he),
        Nat.toDigits_of_lt_base hd]
      rfl
    · obtain rfl : d = 0 := by omega
      cases rest with
      | nil => rfl
      | cons e rest => exact absurd rfl (hzero e rest)

theorem exists_isWhole (n : Nat) : ∃ ds, IsWhole ds ∧ ofDigits ds = n := by
  induction n using Nat.strongRecOn with
  | ind n ih =>
    by_cases hn : n < 10
    · exact ⟨[n], ⟨nofun, by simpa using hn, nofun⟩, by simp [ofDigits]⟩
    · obtain ⟨ds, ⟨hne, hlt, hzero⟩, hvalue⟩ := ih (n / 10) (by omega)
      refine ⟨ds ++ [n % 10], ⟨by simp, ?_, ?_⟩, ?_⟩
      · intro d hd
        rcases List.mem_append.mp hd with hd | hd
        · exact hlt d hd
        · rw [List.mem_singleton.mp hd]
          exact Nat.mod_lt n (by decide)
      · intro d rest heq
        match ds, hne with
        | [first], _ =>
          obtain ⟨rfl, -⟩ := List.cons.inj heq
          rw [ofDigits, List.foldl_cons, List.foldl_nil] at hvalue
          omega
        | first :: second :: tail, _ =>
          obtain ⟨rfl, -⟩ := List.cons.inj heq
          exact hzero second tail rfl
      · rw [ofDigits, List.foldl_append, ← ofDigits, hvalue]
        exact Nat.div_add_mod n 10

/-! ## Plain numerals -/

/-- A text that can follow a number without belonging to it. -/
def EndsNumber (rest : List Char) : Prop :=
  ∀ c ∈ rest.head?, c.isDigit = false ∧ c ≠ '.' ∧ c ≠ 'e' ∧ c ≠ 'E'

theorem readFraction_eq_self_iff {s rest : List Char} {ds : List Nat} :
    readFraction s = some (ds, false, rest) ↔
      ds = [] ∧ s = rest ∧ ∀ c ∈ rest.head?, c ≠ '.' := by
  unfold readFraction
  constructor
  · intro h
    split at h
    · split at h
      · cases h
      · simp at h
    · rename_i hpoint
      obtain ⟨rfl, rfl⟩ : [] = ds ∧ s = rest := by simpa using h
      refine ⟨rfl, rfl, fun c hc heq => ?_⟩
      obtain ⟨tail, rfl⟩ := List.head?_eq_some_iff.mp hc
      exact hpoint tail (by rw [heq])
  · rintro ⟨rfl, rfl, hpoint⟩
    split
    · exact absurd rfl (hpoint '.' rfl)
    · rfl

theorem readExponent_eq_self_iff {s rest : List Char} {x : Int} :
    readExponent s = some (x, false, rest) ↔
      x = 0 ∧ s = rest ∧ ∀ c ∈ rest.head?, c ≠ 'e' ∧ c ≠ 'E' := by
  cases s with
  | nil =>
    rw [readExponent]
    constructor
    · intro h
      obtain ⟨rfl, rfl⟩ : 0 = x ∧ [] = rest := by simpa using h
      exact ⟨rfl, rfl, nofun⟩
    · rintro ⟨rfl, rfl, -⟩
      rfl
  | cons c tail =>
    rw [readExponent]
    split
    · rename_i hc
      constructor
      · intro h
        obtain ⟨-, -, h⟩ := Option.map_eq_some_iff.mp h
        simp at h
      · rintro ⟨-, rfl, hrest⟩
        obtain ⟨hlower, hupper⟩ := hrest c rfl
        rcases hc with rfl | rfl
        · exact absurd rfl hlower
        · exact absurd rfl hupper
    · rename_i hc
      constructor
      · intro h
        obtain ⟨rfl, rfl⟩ : 0 = x ∧ c :: tail = rest := by simpa using h
        refine ⟨rfl, rfl, fun b hb => ?_⟩
        obtain rfl : c = b := Option.some.inj hb
        exact not_or.mp hc
      · rintro ⟨rfl, rfl, -⟩
        rfl

theorem IsWhole.exists_cons {ds : List Nat} (h : IsWhole ds) :
    ∃ c tail, ds.map Nat.digitChar = c :: tail ∧ c.isDigit = true := by
  obtain ⟨d, tail, rfl⟩ := List.exists_cons_of_ne_nil h.ne_nil
  refine ⟨d.digitChar, tail.map Nat.digitChar, rfl, ?_⟩
  rw [Nat.isDigit_digitChar]
  exact decide_eq_true (h.lt_ten d List.mem_cons_self)

theorem readNumeral_append {ds : List Nat} {rest : List Char} (hwhole : IsWhole ds)
    (hrest : EndsNumber rest) :
    readNumeral (ds.map Nat.digitChar ++ rest) = some (⟨false, ds, [], 0, true⟩, rest) := by
  have hread := readWhole_eq_some_iff.mpr ⟨rfl, hwhole, fun c hc => (hrest c hc).1⟩
  have hfraction := readFraction_eq_self_iff.mpr ⟨rfl, rfl, fun c hc => (hrest c hc).2.1⟩
  have hexponent := readExponent_eq_self_iff.mpr ⟨rfl, rfl, fun c hc => (hrest c hc).2.2⟩
  unfold readNumeral
  split
  rename_i negative t hsign
  split at hsign
  · rename_i tail hminus
    obtain ⟨c, digits, hcons, hdigit⟩ := hwhole.exists_cons
    rw [hcons] at hminus
    obtain ⟨rfl, -⟩ := List.cons.inj hminus
    exact absurd hdigit (by decide)
  · obtain ⟨rfl, rfl⟩ := Prod.mk.inj hsign
    simp [hread, hfraction, hexponent]

theorem of_readNumeral {s rest : List Char} {n : Numeral} (h : readNumeral s = some (n, rest))
    (hplain : n.plain = true) (hsign : n.negative = false) :
    s = n.whole.map Nat.digitChar ++ rest ∧ IsWhole n.whole ∧ EndsNumber rest := by
  unfold readNumeral at h
  split at h
  rename_i negative t hsigned
  obtain ⟨⟨whole, u⟩, hwhole, h⟩ := Option.bind_eq_some_iff.mp h
  obtain ⟨⟨fraction, hasFraction, v⟩, hfraction, h⟩ := Option.bind_eq_some_iff.mp h
  obtain ⟨⟨x, hasExponent, w⟩, hexponent, h⟩ := Option.bind_eq_some_iff.mp h
  obtain ⟨rfl, rfl⟩ := Prod.mk.inj (Option.some.inj h)
  simp only [Bool.and_eq_true, Bool.not_eq_true'] at hplain hsign
  obtain ⟨rfl, rfl⟩ := hplain
  obtain ⟨-, rfl, hpoint⟩ := readFraction_eq_self_iff.mp hfraction
  obtain ⟨-, rfl, hpower⟩ := readExponent_eq_self_iff.mp hexponent
  obtain ⟨rfl, hdigits, hnodigit⟩ := readWhole_eq_some_iff.mp hwhole
  refine ⟨?_, hdigits, fun c hc => ⟨hnodigit c hc, hpoint c hc, hpower c hc⟩⟩
  split at hsigned
  · obtain ⟨rfl, -⟩ := Prod.mk.inj hsigned
    cases hsign
  · exact (Prod.mk.inj hsigned).2

theorem Numeral.toJson?_eq_count_iff {n : Numeral} {k : Nat} :
    n.toJson? = some (.count k) ↔
      n.plain = true ∧ n.negative = false ∧ ofDigits n.whole = k ∧ k ≤ maxWord := by
  unfold Numeral.toJson?
  split
  · rename_i h
    obtain ⟨hplain, hsign, hle⟩ := h
    simp only [Option.some.injEq, Json.count.injEq, hplain, Bool.not_eq_true _ ▸ hsign, true_and]
    exact ⟨fun h => ⟨h, h ▸ hle⟩, fun h => h.1⟩
  · rename_i h
    refine iff_of_false ?_ ?_
    · split <;> simp
    · rintro ⟨hplain, hsign, rfl, hle⟩
      exact h ⟨hplain, by simp [hsign], hle⟩

/-! ## Counts -/

theorem readLiteral_ne_count {word : String} {value : Json} {s rest : List Char} {n : Nat}
    (h : value ≠ .count n) : readLiteral word value s ≠ some (.count n, rest) := by
  unfold readLiteral
  split
  · intro heq
    exact h (Prod.mk.inj (Option.some.inj heq)).1
  · exact nofun

theorem readScalar_of_isDigit {c : Char} {tail : List Char} (h : c.isDigit = true) :
    readScalar (c :: tail) = (readNumeral (c :: tail)).bind fun p =>
      p.1.toJson?.bind fun value => some (value, p.2) := by
  unfold readScalar
  split
  all_goals first
    | rfl
    | rename_i heq
      obtain ⟨rfl, -⟩ := List.cons.inj heq
      exact absurd h (by decide)

theorem readScalar_eq_count_iff {s rest : List Char} {n : Nat} :
    readScalar s = some (.count n, rest) ↔
      s = (toString n).toList ++ rest ∧ n ≤ maxWord ∧ EndsNumber rest := by
  rw [Nat.toString_eq_repr, Nat.toList_repr]
  constructor
  · intro h
    unfold readScalar at h
    split at h
    · exact absurd h (readLiteral_ne_count nofun)
    · exact absurd h (readLiteral_ne_count nofun)
    · exact absurd h (readLiteral_ne_count nofun)
    · obtain ⟨_, -, h⟩ := Option.map_eq_some_iff.mp h
      cases (Prod.mk.inj h).1
    · obtain ⟨⟨numeral, tail⟩, hnumeral, h⟩ := Option.bind_eq_some_iff.mp h
      obtain ⟨value, hvalue, h⟩ := Option.bind_eq_some_iff.mp h
      obtain ⟨rfl, rfl⟩ := Prod.mk.inj (Option.some.inj h)
      obtain ⟨hplain, hsign, rfl, hle⟩ := Numeral.toJson?_eq_count_iff.mp hvalue
      obtain ⟨hs, hwhole, hrest⟩ := of_readNumeral hnumeral hplain hsign
      exact ⟨by rw [hwhole.toDigits_ofDigits, ← hs], hle, hrest⟩
  · rintro ⟨rfl, hle, hrest⟩
    obtain ⟨ds, hwhole, rfl⟩ := exists_isWhole n
    have hnumeral := readNumeral_append hwhole hrest
    have hvalue := Numeral.toJson?_eq_count_iff (n := ⟨false, ds, [], 0, true⟩).mpr
      ⟨rfl, rfl, rfl, hle⟩
    obtain ⟨c, tail, hcons, hdigit⟩ := hwhole.exists_cons
    rw [hwhole.toDigits_ofDigits]
    rw [hcons, List.cons_append] at hnumeral ⊢
    rw [readScalar_of_isDigit hdigit, hnumeral, Option.bind_some, hvalue, Option.bind_some]

theorem isDigit_of_readScalar {c : Char} {tail rest : List Char} {n : Nat}
    (h : readScalar (c :: tail) = some (.count n, rest)) : c.isDigit = true := by
  obtain ⟨hs, -⟩ := readScalar_eq_count_iff.mp h
  rw [Nat.toString_eq_repr, Nat.toList_repr] at hs
  obtain ⟨b, digits, hcons⟩ := List.exists_cons_of_ne_nil (Nat.toDigits_ne_nil (n := n) (b := 10))
  rw [hcons] at hs
  obtain ⟨rfl, -⟩ := List.cons.inj hs
  exact Nat.isDigit_of_mem_toDigits (by decide) (by decide) (hcons ▸ List.mem_cons_self)

/-- A value is read as a count exactly off the digits of a number that fits a word, where they are
the whole of a numeral. -/
theorem readValue_eq_count_iff {depth : Nat} {s rest : List Char} {n : Nat} :
    readValue depth s = some (.count n, rest) ↔
      s = (toString n).toList ++ rest ∧ n ≤ maxWord ∧ EndsNumber rest := by
  rw [← readScalar_eq_count_iff]
  -- an array or an object is no count, and a count does not begin as one of them
  cases depth with
  | zero =>
    unfold readValue
    split
    · exact iff_of_false nofun fun h => absurd (isDigit_of_readScalar h) (by decide)
    · exact iff_of_false nofun fun h => absurd (isDigit_of_readScalar h) (by decide)
    · rfl
  | succ depth =>
    unfold readValue
    split
    · refine iff_of_false (fun h => ?_) fun h => absurd (isDigit_of_readScalar h) (by decide)
      obtain ⟨_, -, h⟩ := Option.map_eq_some_iff.mp h
      cases (Prod.mk.inj h).1
    · refine iff_of_false (fun h => ?_) fun h => absurd (isDigit_of_readScalar h) (by decide)
      obtain ⟨_, -, h⟩ := Option.map_eq_some_iff.mp h
      cases (Prod.mk.inj h).1
    · rfl

end Readout.Json
