import Mathlib.Data.List.Nodup
import Readout.Experiment
import Readout.Proofs.Table.Insertion
import Readout.Proofs.Text.ByteOrder

/-!
# Documents of counts

A document is one of counts, one of counts for several bases, or neither, and what is kept of it are
the pairs it was written from (`RawCounts.ofJson?_eq_some_iff`). Where no name repeats, an ordered
map of its members lists them in ascending byte order of their names (`entries_ofList_eq_byName`).
-/

namespace Readout

/-! ## Members in the order of their names -/

section Names

variable {β : Type}

/-- Members in ascending byte order of their names. -/
def byName (members : List (String × β)) : List (String × β) :=
  members.mergeSort fun a b => decide (Text.bytes a.1 ≤ Text.bytes b.1)

theorem byName_perm (members : List (String × β)) : (byName members).Perm members :=
  List.mergeSort_perm members _

theorem pairwise_byName (members : List (String × β)) :
    (byName members).Pairwise fun a b => Text.bytes a.1 ≤ Text.bytes b.1 := by
  have hsorted : (byName members).Pairwise fun a b =>
      decide (Text.bytes a.1 ≤ Text.bytes b.1) = true := by
    refine List.pairwise_mergeSort (fun a b c hab hbc => ?_) (fun a b => ?_) members
    · exact decide_eq_true (List.le_trans (of_decide_eq_true hab) (of_decide_eq_true hbc))
    · rcases List.le_total (Text.bytes a.1) (Text.bytes b.1) with h | h <;> simp [h]
  exact hsorted.imp of_decide_eq_true

theorem pairwise_entries (m : OrderedMap String β) :
    m.entries.Pairwise fun a b => Text.bytes a.1 < Text.bytes b.1 :=
  m.ascending.imp fun h => Text.bytes_lt_iff.mpr (compareOfLessAndEq_eq_lt.mp h)

theorem entries_ofList_eq_byName {members : List (String × β)}
    (h : (members.map (·.1)).Nodup) : (OrderedMap.ofList members).entries = byName members := by
  have hentries := OrderedMap.entries_ofList_perm h
  refine List.Perm.eq_of_pairwise (fun a b ha hb hab hba => ?_)
    ((pairwise_entries _).imp List.le_of_lt) (pairwise_byName members)
    (hentries.trans (byName_perm members).symm)
  have hname : a.1 = b.1 := by
    rw [← List.not_lt, Text.bytes_lt_iff, String.not_lt] at hab hba
    exact String.le_antisymm hab hba
  exact List.inj_on_of_nodup_map h (hentries.mem_iff.mp ha) ((byName_perm members).mem_iff.mp hb)
    hname

end Names

/-! ## Shapes -/

namespace Json

/-- The object of these members, each value written as a document. -/
def record {γ : Type} (write : γ → Json) (members : List (String × γ)) : Json :=
  .object (members.map fun m => (m.1, write m.2))

/-- The document of the counts of one histogram. -/
def counts (pairs : List (String × Nat)) : Json := record .count pairs

/-- The document of a histogram for each basis. -/
def bases (histograms : List (String × List (String × Nat))) : Json := record counts histograms

/-- No object of the document, at any depth, repeats a name. -/
inductive NamesDiffer : Json → Prop
  | null : NamesDiffer .null
  | bool (value : Bool) : NamesDiffer (.bool value)
  | count (value : Nat) : NamesDiffer (.count value)
  | number : NamesDiffer .number
  | text (value : String) : NamesDiffer (.text value)
  | array {items : List Json} (each : ∀ item ∈ items, NamesDiffer item) : NamesDiffer (.array items)
  | object {members : List (String × Json)} (names : (members.map (·.1)).Nodup)
      (each : ∀ m ∈ members, NamesDiffer m.2) : NamesDiffer (.object members)

theorem namesDiffer_object_iff {members : List (String × Json)} :
    (object members).NamesDiffer ↔
      (members.map (·.1)).Nodup ∧ ∀ m ∈ members, m.2.NamesDiffer := by
  constructor
  · intro h
    cases h with
    | object names each => exact ⟨names, each⟩
  · rintro ⟨names, each⟩
    exact .object names each

theorem namesDiffer_array_iff {items : List Json} :
    (array items).NamesDiffer ↔ ∀ item ∈ items, item.NamesDiffer := by
  constructor
  · intro h
    cases h with
    | array each => exact each
  · exact .array

theorem namesDiffer_record_iff {γ : Type} {write : γ → Json} {members : List (String × γ)} :
    (record write members).NamesDiffer ↔
      (members.map (·.1)).Nodup ∧ ∀ m ∈ members, (write m.2).NamesDiffer := by
  rw [record, namesDiffer_object_iff, List.map_map, List.forall_mem_map]
  rfl

theorem namesDiffer_counts_iff {pairs : List (String × Nat)} :
    (counts pairs).NamesDiffer ↔ (pairs.map (·.1)).Nodup :=
  namesDiffer_record_iff.trans (and_iff_left fun m _ => .count m.2)

theorem namesDiffer_bases_iff {histograms : List (String × List (String × Nat))} :
    (bases histograms).NamesDiffer ↔
      (histograms.map (·.1)).Nodup ∧ ∀ b ∈ histograms, (b.2.map (·.1)).Nodup := by
  rw [bases, namesDiffer_record_iff]
  simp only [namesDiffer_counts_iff]

/-- If a value is read exactly where it was written, so is an object of such values. -/
theorem membersBy?_eq_some_iff {β γ : Type} {read? : Json → Option β} {write : γ → Json}
    {keep : γ → β}
    (h : ∀ document v, read? document = some v ↔ ∃ x, write x = document ∧ keep x = v)
    {document : Json} {l : List (String × β)} :
    document.membersBy? read? = some l ↔
      ∃ members, record write members = document ∧ members.map (fun m => (m.1, keep m.2)) = l := by
  cases document
  case object members =>
    simp only [membersBy?, record, Json.object.injEq]
    induction members generalizing l with
    | nil =>
      constructor
      · intro hread
        obtain rfl : [] = l := Option.some.inj hread
        exact ⟨[], rfl, rfl⟩
      · rintro ⟨xs, hwritten, rfl⟩
        obtain rfl := List.map_eq_nil_iff.mp hwritten
        rfl
    | cons m members ih =>
      rw [List.mapM_cons]
      constructor
      · intro hread
        obtain ⟨e, he, hread⟩ := Option.bind_eq_some_iff.mp hread
        obtain ⟨rest, hrest, hread⟩ := Option.bind_eq_some_iff.mp hread
        obtain rfl : e :: rest = l := Option.some.inj hread
        obtain ⟨v, hv, rfl⟩ := Option.map_eq_some_iff.mp he
        obtain ⟨x, hx, rfl⟩ := (h _ _).mp hv
        obtain ⟨xs, rfl, rfl⟩ := ih.mp hrest
        exact ⟨(m.1, x) :: xs, by rw [List.map_cons, hx], rfl⟩
      · rintro ⟨xs, hwritten, rfl⟩
        obtain ⟨x, xs, rfl⟩ := List.exists_cons_of_ne_nil (l := xs) (by rintro rfl; cases hwritten)
        obtain ⟨rfl, hrest⟩ := List.cons.inj hwritten
        rw [(h _ _).mpr ⟨x.2, rfl, rfl⟩, ih.mpr ⟨xs, hrest, rfl⟩]
        rfl
  all_goals simp [membersBy?, record]

theorem count?_eq_some_iff {document : Json} {n : Nat} :
    document.count? = some n ↔ ∃ k, Json.count k = document ∧ k = n := by
  cases document <;> simp [count?, eq_comm]

end Json

/-! ## What is kept of a document -/

namespace RawCounts

open Json

theorem countMap?_eq_some_iff {document : Json} {m : OrderedMap String Nat} :
    countMap? document = some m ↔
      ∃ pairs, Json.counts pairs = document ∧ OrderedMap.ofList pairs = m := by
  have hread (l : List (String × Nat)) :
      document.membersBy? count? = some l ↔ Json.counts l = document := by
    rw [membersBy?_eq_some_iff fun _ _ => count?_eq_some_iff]
    simp [Json.counts]
  simp only [countMap?, Option.map_eq_some_iff, hread]

/-- The maps of several histograms, each from its pairs. -/
def ofHistograms (histograms : List (String × List (String × Nat))) :
    OrderedMap String (OrderedMap String Nat) :=
  OrderedMap.ofList (histograms.map fun b => (b.1, OrderedMap.ofList b.2))

/-- The histograms of several bases are no counts of one. -/
theorem countMap?_bases {histograms : List (String × List (String × Nat))}
    (h : histograms ≠ []) : countMap? (Json.bases histograms) = none := by
  rw [Option.eq_none_iff_forall_ne_some]
  intro m hm
  obtain ⟨pairs, hpairs, -⟩ := countMap?_eq_some_iff.mp hm
  obtain ⟨b, rest, rfl⟩ := List.exists_cons_of_ne_nil h
  cases pairs <;> simp [Json.counts, Json.bases, record] at hpairs

theorem ofJson?_eq_some_iff {document : Json} {raw : RawCounts} :
    ofJson? document = some raw ↔
      (∃ pairs, Json.counts pairs = document ∧ .flat (OrderedMap.ofList pairs) = raw) ∨
      ∃ histograms, histograms ≠ [] ∧ Json.bases histograms = document ∧
        .perBasis (ofHistograms histograms) = raw := by
  unfold ofJson?
  split
  · rename_i m hm
    constructor
    · intro h
      obtain rfl := Option.some.inj h
      obtain ⟨pairs, hdocument, rfl⟩ := countMap?_eq_some_iff.mp hm
      exact .inl ⟨pairs, hdocument, rfl⟩
    · rintro (⟨pairs, rfl, rfl⟩ | ⟨histograms, hne, rfl, rfl⟩)
      · rw [countMap?_eq_some_iff.mpr ⟨pairs, rfl, rfl⟩] at hm
        rw [Option.some.inj hm]
      · rw [countMap?_bases hne] at hm
        cases hm
  · rename_i hnone
    rw [Option.map_eq_some_iff]
    simp only [membersBy?_eq_some_iff fun _ _ => countMap?_eq_some_iff]
    constructor
    · rintro ⟨_, ⟨histograms, rfl, rfl⟩, rfl⟩
      refine .inr ⟨histograms, ?_, rfl, rfl⟩
      rintro rfl
      cases hnone
    · rintro (⟨pairs, rfl, rfl⟩ | ⟨histograms, -, rfl, rfl⟩)
      · rw [countMap?_eq_some_iff.mpr ⟨pairs, rfl, rfl⟩] at hnone
        cases hnone
      · exact ⟨_, ⟨histograms, rfl, rfl⟩, rfl⟩

end RawCounts

end Readout
