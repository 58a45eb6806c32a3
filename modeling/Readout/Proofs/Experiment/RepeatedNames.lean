import Mathlib.Data.List.Flatten
import Readout.Proofs.Experiment.ByShape
import Readout.Proofs.Table.Acceptance

/-!
# Repeated names

Of several members with one name an object keeps the last (`keepLast`). A document gives what it
gives without the members that are overtaken in this way, at any depth (`Json.lastOnly`,
`RawCounts.ofJson?_lastOnly`), so the counts that end up in tables are those written in that part
of it (`ExperimentCounts.recorded_perm`). Where no name is repeated nothing is overtaken
(`Json.lastOnly_eq_self`), and every count that was written is recorded.
-/

namespace Readout

/-! ## The last of each name -/

section Names

variable {β γ : Type}

/-- The members whose names none of the members behind them has. -/
def keepLast : List (String × β) → List (String × β)
  | [] => []
  | m :: rest => if m.1 ∈ rest.map (·.1) then keepLast rest else m :: keepLast rest

theorem keepLast_sublist (members : List (String × β)) : (keepLast members).Sublist members := by
  induction members with
  | nil => exact .slnil
  | cons m rest ih =>
    rw [keepLast]
    split
    · exact ih.cons m
    · exact ih.cons_cons m

theorem nodup_keepLast (members : List (String × β)) : ((keepLast members).map (·.1)).Nodup := by
  induction members with
  | nil => exact .nil
  | cons m rest ih =>
    rw [keepLast]
    split
    · exact ih
    · rename_i hnot
      rw [List.map_cons, List.nodup_cons]
      exact ⟨fun hmem => hnot (((keepLast_sublist rest).map (·.1)).subset hmem), ih⟩

theorem keepLast_eq_self {members : List (String × β)} (h : (members.map (·.1)).Nodup) :
    keepLast members = members := by
  induction members with
  | nil => rfl
  | cons m rest ih =>
    obtain ⟨hnot, hrest⟩ := List.nodup_cons.mp h
    rw [keepLast, if_neg hnot, ih hrest]

theorem keepLast_ne_nil {members : List (String × β)} (h : members ≠ []) :
    keepLast members ≠ [] := by
  induction members with
  | nil => exact absurd rfl h
  | cons m rest ih =>
    rw [keepLast]
    split
    · rename_i hmem
      refine ih ?_
      rintro rfl
      exact List.not_mem_nil hmem
    · exact List.cons_ne_nil _ _

theorem keepLast_map (f : β → γ) (members : List (String × β)) :
    keepLast (members.map fun m => (m.1, f m.2)) =
      (keepLast members).map fun m => (m.1, f m.2) := by
  induction members with
  | nil => rfl
  | cons m rest ih =>
    have hnames : (rest.map fun m => (m.1, f m.2)).map (·.1) = rest.map (·.1) := by
      rw [List.map_map]
      rfl
    rw [List.map_cons, keepLast, keepLast, hnames, ih]
    split <;> rfl

/-! ## Maps of members -/

/-- What stood at the keys of a list before it is inserted is immaterial. -/
theorem OrderedMap.foldl_insert_congr {l : List (String × β)} {m n : OrderedMap String β}
    (h : ∀ name, name ∉ l.map (·.1) → m.get? name = n.get? name) :
    l.foldl (fun m e => m.insert e.1 e.2) m = l.foldl (fun m e => m.insert e.1 e.2) n := by
  induction l generalizing m n with
  | nil => exact OrderedMap.ext_get? fun name => h name List.not_mem_nil
  | cons e l ih =>
    refine ih fun name hname => ?_
    rw [OrderedMap.get?_insert, OrderedMap.get?_insert]
    split
    · rfl
    · rename_i hne
      exact h name (List.not_mem_cons_of_ne_of_not_mem hne hname)

theorem OrderedMap.foldl_insert_keepLast (l : List (String × β)) (m : OrderedMap String β) :
    (keepLast l).foldl (fun m e => m.insert e.1 e.2) m =
      l.foldl (fun m e => m.insert e.1 e.2) m := by
  induction l generalizing m with
  | nil => rfl
  | cons e l ih =>
    rw [keepLast]
    split
    · rename_i hmem
      -- a later member has this name, and inserting it undoes what this one did
      rw [ih, List.foldl_cons]
      refine OrderedMap.foldl_insert_congr fun name hname => ?_
      have hne : name ≠ e.1 := by
        rintro rfl
        exact hname hmem
      rw [OrderedMap.get?_insert, if_neg hne]
    · rw [List.foldl_cons, List.foldl_cons, ih]

theorem OrderedMap.ofList_keepLast (members : List (String × β)) :
    OrderedMap.ofList (keepLast members) = OrderedMap.ofList members :=
  OrderedMap.foldl_insert_keepLast members ∅

/-- A map of members lists the last of each name. -/
theorem OrderedMap.entries_ofList_perm_keepLast (members : List (String × β)) :
    (OrderedMap.ofList members).entries.Perm (keepLast members) := by
  rw [← OrderedMap.ofList_keepLast]
  exact OrderedMap.entries_ofList_perm (nodup_keepLast members)

end Names

/-! ## Documents -/

namespace Json

theorem sizeOf_value_lt {members : List (String × Json)} {m : String × Json} (h : m ∈ members) :
    sizeOf m.2 < sizeOf (object members) := by
  have hmember := List.sizeOf_lt_of_mem h
  obtain ⟨name, value⟩ := m
  simp only [Prod.mk.sizeOf_spec, object.sizeOf_spec] at hmember ⊢
  omega

theorem sizeOf_item_lt {items : List Json} {item : Json} (h : item ∈ items) :
    sizeOf item < sizeOf (array items) := by
  have hitem := List.sizeOf_lt_of_mem h
  rw [array.sizeOf_spec]
  omega

/-- The document without the members that a later one of the same object overtakes, at any depth. -/
def lastOnly : Json → Json
  | .null => .null
  | .bool value => .bool value
  | .count value => .count value
  | .number => .number
  | .text value => .text value
  | .array items => .array (items.map lastOnly)
  | .object members => .object (keepLast (members.map fun m => (m.1, m.2.lastOnly)))
termination_by document => sizeOf document
decreasing_by
  · exact sizeOf_item_lt ‹_›
  · exact sizeOf_value_lt ‹_›

/-- All counts that are written in a document, at any depth, in the order of the text. -/
def writtenCounts : Json → List Nat
  | .null => []
  | .bool _ => []
  | .count value => [value]
  | .number => []
  | .text _ => []
  | .array items => items.flatMap writtenCounts
  | .object members => members.flatMap fun m => m.2.writtenCounts
termination_by document => sizeOf document
decreasing_by
  · exact sizeOf_item_lt ‹_›
  · exact sizeOf_value_lt ‹_›

theorem lastOnly_object (members : List (String × Json)) :
    (object members).lastOnly = .object ((keepLast members).map fun m => (m.1, m.2.lastOnly)) := by
  rw [lastOnly, keepLast_map]

theorem lastOnly_eq_self {document : Json} (h : document.NamesDiffer) :
    document.lastOnly = document := by
  induction h with
  | array _ ih =>
    rw [lastOnly, List.map_congr_left ih, List.map_id']
  | object names _ ih =>
    rw [lastOnly_object, keepLast_eq_self names]
    refine congrArg object ((List.map_congr_left fun m hm => ?_).trans (List.map_id _))
    rw [ih m hm]
    rfl
  | _ => rw [lastOnly]

theorem writtenCounts_lastOnly_sublist (document : Json) :
    document.lastOnly.writtenCounts.Sublist document.writtenCounts := by
  induction document using lastOnly.induct with
  | case6 items ih =>
    rw [lastOnly, writtenCounts, writtenCounts, List.flatMap_map]
    exact List.Sublist.flatMap_right items ih
  | case7 members ih =>
    rw [lastOnly_object, writtenCounts, writtenCounts, List.flatMap_map]
    exact (List.Sublist.flatMap_right (keepLast members) fun m hm =>
      ih m ((keepLast_sublist members).subset hm)).trans ((keepLast_sublist members).flatMap _)
  | _ =>
    rw [lastOnly]

theorem lastOnly_record {γ : Type} {write : γ → Json} {last : γ → γ}
    (h : ∀ x, (write x).lastOnly = write (last x)) (members : List (String × γ)) :
    (record write members).lastOnly =
      record write ((keepLast members).map fun m => (m.1, last m.2)) := by
  rw [record, lastOnly_object, keepLast_map, List.map_map, record, List.map_map]
  simp only [Function.comp_def, h]

theorem lastOnly_counts (pairs : List (String × Nat)) :
    (counts pairs).lastOnly = counts (keepLast pairs) := by
  have hcount : ∀ n, (Json.count n).lastOnly = .count (id n) := fun n => by rw [lastOnly, id]
  exact (lastOnly_record hcount pairs).trans (congrArg counts (List.map_id _))

theorem lastOnly_bases (histograms : List (String × List (String × Nat))) :
    (bases histograms).lastOnly =
      bases ((keepLast histograms).map fun b => (b.1, keepLast b.2)) :=
  lastOnly_record lastOnly_counts histograms

theorem writtenCounts_counts (pairs : List (String × Nat)) :
    (counts pairs).writtenCounts = pairs.map (·.2) := by
  rw [counts, record, writtenCounts, List.flatMap_map]
  simp only [writtenCounts]
  exact List.flatMap_pure_eq_map _ _

theorem writtenCounts_bases (histograms : List (String × List (String × Nat))) :
    (bases histograms).writtenCounts = histograms.flatMap fun b => b.2.map (·.2) := by
  rw [bases, record, writtenCounts, List.flatMap_map]
  simp only [writtenCounts_counts]

/-- A text is one document at most. -/
theorem IsDocument.unique {text : String} {document document' : Json} (h : IsDocument text document)
    (h' : IsDocument text document') : document = document' := by
  obtain ⟨_, hread, -⟩ := h
  obtain ⟨_, hread', -⟩ := h'
  rw [hread] at hread'
  exact (Prod.mk.inj (Option.some.inj hread')).1

end Json

/-! ## What is kept of a document -/

namespace RawCounts

open Json

variable {document : Json} {raw : RawCounts} {label : String}

theorem ofHistograms_keepLast (histograms : List (String × List (String × Nat))) :
    ofHistograms ((keepLast histograms).map fun b => (b.1, keepLast b.2)) =
      ofHistograms histograms := by
  rw [ofHistograms, ofHistograms, List.map_map]
  simp only [Function.comp_def, OrderedMap.ofList_keepLast]
  rw [← keepLast_map, OrderedMap.ofList_keepLast]

/-- What is overtaken is not looked at, as long as the document has a shape. -/
theorem ofJson?_lastOnly (h : ofJson? document = some raw) :
    ofJson? document.lastOnly = some raw := by
  rcases ofJson?_eq_some_iff.mp h with ⟨pairs, rfl, rfl⟩ | ⟨histograms, hne, rfl, rfl⟩
  · refine ofJson?_eq_some_iff.mpr (.inl ⟨keepLast pairs, (lastOnly_counts pairs).symm, ?_⟩)
    rw [OrderedMap.ofList_keepLast]
  · refine ofJson?_eq_some_iff.mpr (.inr ⟨_, ?_, (lastOnly_bases histograms).symm, ?_⟩)
    · exact mt List.map_eq_nil_iff.mp (keepLast_ne_nil hne)
    · rw [ofHistograms_keepLast]

/-! ## What is recorded -/

variable {made tables : OrderedMap String DistributionTable}
  {l : List (String × OrderedMap String Nat)}

/-- Tables that are made beside others record the counts of their bases. -/
theorem recorded_perm_of_addTables (h : addTables label made l = .ok tables)
    (hnodup : (l.map (·.1)).Nodup) (hfresh : ∀ b ∈ l, made.get? b.1 = none) :
    (tables.values.flatMap DistributionTable.weights).Perm
      (made.values.flatMap DistributionTable.weights ++ l.flatMap fun b => b.2.values) := by
  induction l generalizing made with
  | nil =>
    obtain rfl := Except.ok.inj h
    rw [List.flatMap_nil, List.append_nil]
  | cons b l ih =>
    obtain ⟨hb, hnodup⟩ := List.nodup_cons.mp hnodup
    cases htable : table label b with
    | error e =>
      rw [addTables_cons_of_error htable] at h
      cases h
    | ok t =>
      rw [addTables_cons_of_ok htable] at h
      have hfresh' : ∀ d ∈ l, (made.insert b.1 t).get? d.1 = none := by
        intro d hd
        have hne : d.1 ≠ b.1 := by
          intro heq
          exact hb (List.mem_map.mpr ⟨d, hd, heq⟩)
        rw [OrderedMap.get?_insert, if_neg hne]
        exact hfresh d (List.mem_cons_of_mem b hd)
      have hinsert := OrderedMap.entries_insert_perm (v := t) (hfresh b List.mem_cons_self)
      have hmade : ((made.insert b.1 t).values.flatMap DistributionTable.weights).Perm
          (t.weights ++ made.values.flatMap DistributionTable.weights) :=
        (hinsert.map (·.2)).flatMap_right _
      have hweights : t.weights.Perm b.2.values :=
        DistributionTable.weights_perm_of_perm (DistributionTable.ofCounts_eq_ok_iff.mp htable).2
      have hboth := (hmade.trans (hweights.append_right _)).trans List.perm_append_comm
      rw [List.flatMap_cons, ← List.append_assoc]
      exact (ih h hnodup hfresh').trans (hboth.append_right _)

/-- The tables of several bases record the counts of the last member of each name. -/
theorem ofHistograms_values_perm (histograms : List (String × List (String × Nat))) :
    ((ofHistograms histograms).entries.flatMap fun b => b.2.values).Perm
      (Json.bases histograms).lastOnly.writtenCounts := by
  have hkeep : (ofHistograms histograms).entries.Perm
      ((keepLast histograms).map fun b => (b.1, OrderedMap.ofList b.2)) := by
    rw [← keepLast_map]
    exact OrderedMap.entries_ofList_perm_keepLast _
  have heach : ∀ b ∈ keepLast histograms,
      (OrderedMap.ofList b.2).values.Perm ((keepLast b.2).map (·.2)) :=
    fun b _ => (OrderedMap.entries_ofList_perm_keepLast b.2).map Prod.snd
  rw [lastOnly_bases, writtenCounts_bases, List.flatMap_map]
  refine (hkeep.flatMap_right _).trans ?_
  rw [List.flatMap_map]
  exact List.Perm.flatMap_left _ heach

end RawCounts

namespace ExperimentCounts

open Json

/-- The tables of an experiment, one for each basis. -/
def tables : ExperimentCounts → List DistributionTable
  | flat table => [table]
  | perBasis tables => tables.values

variable {label text : String} {document : Json} {c : ExperimentCounts}

theorem exists_of_map_eq_ok {ε α β : Type} {f : α → β} {x : Except ε α} {b : β}
    (h : x.map f = .ok b) : ∃ a, x = .ok a ∧ f a = b := by
  cases x with
  | error e => cases h
  | ok a => exact ⟨a, rfl, Except.ok.inj h⟩

/-- What is recorded are the counts that are written in the last member of each name. -/
theorem recorded_perm {raw : RawCounts} (hraw : RawCounts.ofJson? document = some raw)
    (h : raw.toExperiment label = .ok c) :
    (c.tables.flatMap DistributionTable.weights).Perm document.lastOnly.writtenCounts := by
  rcases RawCounts.ofJson?_eq_some_iff.mp hraw with ⟨pairs, rfl, rfl⟩ | ⟨histograms, hne, rfl, rfl⟩
  · rw [RawCounts.toExperiment] at h
    obtain ⟨t, ht, rfl⟩ := exists_of_map_eq_ok h
    rw [lastOnly_counts, writtenCounts_counts, tables, List.flatMap_singleton]
    have hweights :=
      DistributionTable.weights_perm_of_perm (DistributionTable.ofCounts_eq_ok_iff.mp ht).2
    exact hweights.trans ((OrderedMap.entries_ofList_perm_keepLast pairs).map Prod.snd)
  · rw [RawCounts.toExperiment, if_neg (RawCounts.entries_ofHistograms_ne_nil hne)] at h
    obtain ⟨made, hmade, rfl⟩ := exists_of_map_eq_ok h
    have hrecorded := RawCounts.recorded_perm_of_addTables hmade
      (RawCounts.ofHistograms histograms).nodup_keys fun _ _ => rfl
    exact hrecorded.trans (RawCounts.ofHistograms_values_perm histograms)

theorem sum_total_eq (c : ExperimentCounts) : (c.tables.map DistributionTable.total).sum =
    (c.tables.flatMap DistributionTable.weights).sum := by
  rw [List.flatMap_def, List.sum_flatten, List.map_map]
  rfl

theorem sum_size_eq (c : ExperimentCounts) : (c.tables.map DistributionTable.size).sum =
    (c.tables.flatMap DistributionTable.weights).length := by
  have hsize : ∀ t : DistributionTable, t.size = t.weights.length :=
    fun t => (List.length_map _).symm
  rw [List.length_flatMap, List.map_congr_left fun t _ => hsize t]

theorem exists_document_of_ofText (h : ofText label text = .ok c) :
    ∃ document raw, IsDocument text document ∧ RawCounts.ofJson? document = some raw ∧
      raw.toExperiment label = .ok c := by
  unfold ofText at h
  split at h
  · cases h
  · rename_i document rest hread
    split at h
    · cases h
    · rename_i raw hraw
      split at h
      · rename_i hblank
        exact ⟨document, raw, ⟨rest, hread, hblank⟩, hraw, h⟩
      · cases h

/-- **Of repeated names the last member is recorded, and of different names every one.** If a text
gives tables, they hold the counts that are written in its document without the members that are
overtaken by a later one of the same name: these counts sum to the totals, and there is an entry for
each. So where no object repeats a name, no count that is written is lost. Members that are
overtaken change nothing: the text gives what any text of the document without them gives. -/
theorem ofText_records_last_members (h : ofText label text = .ok c) :
    ∃ document, IsDocument text document ∧
      ((c.tables.map DistributionTable.total).sum = document.lastOnly.writtenCounts.sum ∧
        (c.tables.map DistributionTable.size).sum = document.lastOnly.writtenCounts.length) ∧
      (document.NamesDiffer →
        (c.tables.map DistributionTable.total).sum = document.writtenCounts.sum ∧
        (c.tables.map DistributionTable.size).sum = document.writtenCounts.length) ∧
      document.lastOnly.writtenCounts.Sublist document.writtenCounts ∧
      ∀ text', IsDocument text' document.lastOnly → ofText label text' = .ok c := by
  obtain ⟨document, raw, hdocument, hraw, hmade⟩ := exists_document_of_ofText h
  have hrecorded := recorded_perm hraw hmade
  have hkept : (c.tables.map DistributionTable.total).sum = document.lastOnly.writtenCounts.sum ∧
      (c.tables.map DistributionTable.size).sum = document.lastOnly.writtenCounts.length := by
    rw [sum_total_eq, sum_size_eq]
    exact ⟨hrecorded.sum_nat, hrecorded.length_eq⟩
  refine ⟨document, hdocument, hkept, fun hnames => ?_, writtenCounts_lastOnly_sublist document,
    fun text' htext' => ?_⟩
  · rwa [lastOnly_eq_self hnames] at hkept
  · rw [ofText_of_isDocument htext' (RawCounts.ofJson?_lastOnly hraw), hmade]

/-- A coin in two bases, with `"0"` written twice in the first. -/
def repeatedCoin : String :=
  "\x7b\"Z\":\x7b\"0\":1,\"1\":4,\"0\":2\x7d,\"X\":\x7b\"1\":3\x7d\x7d"

theorem repeatedCoin_records_last :
    ∃ c, ofText "coin" repeatedCoin = .ok c ∧
      (c.tables.map DistributionTable.total).sum = 9 ∧
      (c.tables.map DistributionTable.size).sum = 3 := by
  have hmade : ∃ c, ofText "coin" repeatedCoin = .ok c := ⟨_, by rfl⟩
  have hread : IsDocument repeatedCoin
      (Json.bases [("Z", [("0", 1), ("1", 4), ("0", 2)]), ("X", [("1", 3)])]) := ⟨[], by rfl, rfl⟩
  obtain ⟨c, hc⟩ := hmade
  obtain ⟨document, hdocument, ⟨htotal, hsize⟩, -⟩ := ofText_records_last_members hc
  obtain rfl := hdocument.unique hread
  rw [lastOnly_bases, writtenCounts_bases] at htotal hsize
  exact ⟨c, hc, htotal, hsize⟩

/-- What is overtaken is lost: neither an outcome nor a basis that is repeated is refused, and of
three shots two are left. -/
theorem ofText_loses_overtaken_counts :
    (∃ c document, ofText "coin" "\x7b\"0\":1,\"0\":2\x7d" = .ok c ∧
      IsDocument "\x7b\"0\":1,\"0\":2\x7d" document ∧
      ((c.tables.map DistributionTable.total).sum = 2 ∧ document.writtenCounts.sum = 3) ∧
      ((c.tables.map DistributionTable.size).sum = 1 ∧ document.writtenCounts.length = 2)) ∧
    ∃ c document, ofText "coin" "\x7b\"Z\":\x7b\"0\":1\x7d,\"Z\":\x7b\"0\":2\x7d\x7d" = .ok c ∧
      IsDocument "\x7b\"Z\":\x7b\"0\":1\x7d,\"Z\":\x7b\"0\":2\x7d\x7d" document ∧
      ((c.tables.map DistributionTable.total).sum = 2 ∧ document.writtenCounts.sum = 3) ∧
      ((c.tables.map DistributionTable.size).sum = 1 ∧ document.writtenCounts.length = 2) := by
  have hflat : (counts [("0", 1), ("0", 2)]).writtenCounts = [1, 2] := writtenCounts_counts _
  have hbases : (Json.bases [("Z", [("0", 1)]), ("Z", [("0", 2)])]).writtenCounts = [1, 2] :=
    writtenCounts_bases _
  constructor
  · exact ⟨_, counts [("0", 1), ("0", 2)], by rfl, ⟨[], by rfl, rfl⟩,
      ⟨by rfl, congrArg List.sum hflat⟩, by rfl, congrArg List.length hflat⟩
  · exact ⟨_, Json.bases [("Z", [("0", 1)]), ("Z", [("0", 2)])], by rfl, ⟨[], by rfl, rfl⟩,
      ⟨by rfl, congrArg List.sum hbases⟩, by rfl, congrArg List.length hbases⟩

end ExperimentCounts

end Readout
