import Readout.Proofs.Experiment.Shape
import Readout.Proofs.Json.Counts

/-!
# Experiments follow the shape of their documents

The bases of a document are gone through in byte order, so the first one refused is the least
(`RawCounts.addTables_eq_error_iff`), and what is made otherwise has the table of each
(`RawCounts.get?_of_addTables`). With the shapes told apart this settles what
`ExperimentCounts.ofText` gives for every text.
-/

namespace Readout

/-! ## Refusals of a table -/

section Refusals

variable {label : Option String} {width : Nat} {draft : DistributionTable.Draft width}
  {fault : DocumentFault}

open DistributionTable

theorem Bitstring.parse_ne_ingestion {input : String} :
    Bitstring.parse input ≠ .error (.ingestion fault) := by
  unfold Bitstring.parse
  split <;> exact nofun

theorem DistributionTable.addAll_ne_ingestion {pairs : List (String × Nat)} :
    draft.addAll label pairs ≠ .error (.ingestion fault) := by
  induction pairs generalizing draft with
  | nil => exact nofun
  | cons pair rest ih =>
    intro h
    rw [Draft.addAll] at h
    split at h
    · rename_i e hadd
      obtain rfl := Except.error.inj h
      unfold Draft.add at hadd
      split at hadd
      · rename_i hparse
        obtain rfl := Except.error.inj hadd
        exact Bitstring.parse_ne_ingestion hparse
      · split at hadd
        · split at hadd <;> cases hadd
        · cases hadd
    · exact ih h

/-- A list of counts is refused for its pairs, not for the document it came from. -/
theorem DistributionTable.ofCounts_ne_ingestion {pairs : List (String × Nat)} :
    ofCounts label pairs ≠ .error (.ingestion fault) := by
  intro h
  unfold ofCounts at h
  split at h
  · cases h
  · split at h
    · rename_i hparse
      obtain rfl := Except.error.inj h
      exact Bitstring.parse_ne_ingestion hparse
    · split at h
      · rename_i hadd
        obtain rfl := Except.error.inj h
        exact addAll_ne_ingestion hadd
      · unfold Draft.finish at h
        split at h
        · split at h <;> cases h
        · cases h

end Refusals

/-! ## The tables of the bases -/

namespace RawCounts

/-- The table of one basis. -/
def table (label : String) (b : String × OrderedMap String Nat) : Except Error DistributionTable :=
  DistributionTable.ofCounts (some (label ++ "/" ++ b.1)) b.2.entries

variable {label : String} {made tables : OrderedMap String DistributionTable}
  {l : List (String × OrderedMap String Nat)}

theorem addTables_cons_of_error {b : String × OrderedMap String Nat} {e : Error}
    (h : table label b = .error e) : addTables label made (b :: l) = .error e := by
  rw [table] at h
  simp only [addTables, h]

theorem addTables_cons_of_ok {b : String × OrderedMap String Nat} {t : DistributionTable}
    (h : table label b = .ok t) :
    addTables label made (b :: l) = addTables label (made.insert b.1 t) l := by
  rw [table] at h
  simp only [addTables, h]

/-- The error is that of the least basis for which there is no table. -/
theorem addTables_eq_error_iff (hl : l.Pairwise fun a b => Text.bytes a.1 < Text.bytes b.1)
    {e : Error} :
    addTables label made l = .error e ↔ ∃ b ∈ l, table label b = .error e ∧
      ∀ d ∈ l, Text.bytes d.1 < Text.bytes b.1 → ∃ t, table label d = .ok t := by
  induction l generalizing made with
  | nil => simp [addTables]
  | cons c l ih =>
    obtain ⟨hc, hl⟩ := List.pairwise_cons.mp hl
    cases htable : table label c with
    | error e' =>
      rw [addTables_cons_of_error htable]
      constructor
      · intro h
        obtain rfl := Except.error.inj h
        refine ⟨c, List.mem_cons_self, htable, fun d hd hlt => ?_⟩
        rcases List.mem_cons.mp hd with rfl | hd
        · exact absurd hlt (List.lt_irrefl _)
        · exact absurd hlt (List.lt_asymm (hc d hd))
      · rintro ⟨b, hb, he, hleast⟩
        rcases List.mem_cons.mp hb with rfl | hb
        · rw [htable] at he
          exact congrArg Except.error (Except.error.inj he)
        · obtain ⟨t, ht⟩ := hleast c List.mem_cons_self (hc b hb)
          rw [htable] at ht
          cases ht
    | ok t =>
      rw [addTables_cons_of_ok htable, ih hl]
      constructor
      · rintro ⟨b, hb, he, hleast⟩
        refine ⟨b, List.mem_cons_of_mem c hb, he, fun d hd hlt => ?_⟩
        rcases List.mem_cons.mp hd with rfl | hd
        · exact ⟨t, htable⟩
        · exact hleast d hd hlt
      · rintro ⟨b, hb, he, hleast⟩
        rcases List.mem_cons.mp hb with rfl | hb
        · rw [htable] at he
          cases he
        · exact ⟨b, hb, he, fun d hd => hleast d (List.mem_cons_of_mem c hd)⟩

theorem exists_table_of_addTables (h : addTables label made l = .ok tables) :
    ∀ b ∈ l, ∃ t, table label b = .ok t := by
  induction l generalizing made with
  | nil => exact nofun
  | cons c l ih =>
    intro b hb
    cases htable : table label c with
    | error e =>
      rw [addTables_cons_of_error htable] at h
      cases h
    | ok t =>
      rw [addTables_cons_of_ok htable] at h
      rcases List.mem_cons.mp hb with rfl | hb
      · exact ⟨t, htable⟩
      · exact ih h b hb

/-- Where tables are made, a name has the table of its basis, or else the one it had before. -/
theorem get?_of_addTables (hl : l.Pairwise fun a b => Text.bytes a.1 < Text.bytes b.1)
    (h : addTables label made l = .ok tables) (name : String) (t : DistributionTable) :
    tables.get? name = some t ↔ (∃ b ∈ l, b.1 = name ∧ table label b = .ok t) ∨
      made.get? name = some t ∧ ∀ b ∈ l, b.1 ≠ name := by
  induction l generalizing made with
  | nil =>
    obtain rfl := Except.ok.inj h
    simp
  | cons c l ih =>
    obtain ⟨hc, hl⟩ := List.pairwise_cons.mp hl
    cases htable : table label c with
    | error e =>
      rw [addTables_cons_of_error htable] at h
      cases h
    | ok t' =>
      rw [addTables_cons_of_ok htable] at h
      rw [ih hl h, OrderedMap.get?_insert]
      by_cases hname : name = c.1
      · -- the names ascend, so no later basis has the name of this one
        have hother : ∀ b ∈ l, b.1 ≠ name := by
          intro b hb heq
          have hlt := hc b hb
          rw [heq, hname] at hlt
          exact List.lt_irrefl _ hlt
        have hrest : ¬ ∃ b ∈ l, b.1 = name ∧ table label b = .ok t := by
          rintro ⟨b, hb, heq, -⟩
          exact hother b hb heq
        rw [if_pos hname, or_iff_right hrest, and_iff_left hother]
        constructor
        · intro ht
          refine .inl ⟨c, List.mem_cons_self, hname.symm, ?_⟩
          rw [htable, Option.some.inj ht]
        · rintro (⟨b, hb, heq, ht⟩ | ⟨-, hno⟩)
          · rcases List.mem_cons.mp hb with rfl | hb
            · rw [htable] at ht
              rw [Except.ok.inj ht]
            · exact absurd heq (hother b hb)
          · exact absurd hname.symm (hno c List.mem_cons_self)
      · simp [hname, Ne.symm hname]

/-! ## What becomes of a shape -/

theorem entries_ofHistograms_ne_nil {histograms : List (String × List (String × Nat))}
    (h : histograms ≠ []) : (ofHistograms histograms).entries ≠ [] := by
  have hinsert (m : OrderedMap String (OrderedMap String Nat)) (k v) :
      (m.insert k v).entries ≠ [] := by
    intro hnil
    have hmem := OrderedMap.get?_eq_some_iff.mp
      ((OrderedMap.get?_insert m k k v).trans (if_pos rfl))
    rw [hnil] at hmem
    exact List.not_mem_nil hmem
  rw [ofHistograms, OrderedMap.ofList]
  obtain ⟨front, last, rfl⟩ := List.eq_nil_or_concat histograms |>.resolve_left h
  rw [List.concat_eq_append, List.map_append, List.foldl_append]
  exact hinsert _ _ _

/-- A document of one of the two shapes is not refused as a document. -/
theorem toExperiment_ne_ingestion {document : Json} {raw : RawCounts} {fault : DocumentFault}
    (h : ofJson? document = some raw) : raw.toExperiment label ≠ .error (.ingestion fault) := by
  intro herror
  rcases ofJson?_eq_some_iff.mp h with ⟨pairs, -, rfl⟩ | ⟨histograms, hne, -, rfl⟩
  · rw [toExperiment] at herror
    cases hcounts : DistributionTable.ofCounts (some label) (OrderedMap.ofList pairs).entries with
    | ok t =>
      rw [hcounts] at herror
      cases herror
    | error e =>
      rw [hcounts] at herror
      obtain rfl := Except.error.inj herror
      exact DistributionTable.ofCounts_ne_ingestion hcounts
  · rw [toExperiment, if_neg (entries_ofHistograms_ne_nil hne)] at herror
    cases htables : addTables label ∅ (ofHistograms histograms).entries with
    | ok tables =>
      rw [htables] at herror
      cases herror
    | error e =>
      rw [htables] at herror
      obtain rfl := Except.error.inj herror
      obtain ⟨b, -, hb, -⟩ := (addTables_eq_error_iff (pairwise_entries _)).mp htables
      exact DistributionTable.ofCounts_ne_ingestion hb

end RawCounts

namespace Json

/-- A text is the document, with blanks around it. -/
def IsDocument (text : String) (document : Json) : Prop :=
  ∃ rest, readFirst text = some (document, rest) ∧ rest.all isBlank = true

/-- A document of counts, or of counts for at least one basis. -/
def HasShape (document : Json) : Prop :=
  (∃ pairs, counts pairs = document) ∨ ∃ histograms, histograms ≠ [] ∧ bases histograms = document

end Json

namespace ExperimentCounts

open Json RawCounts

variable {label text : String} {document : Json}

theorem ofText_of_isDocument (h : IsDocument text document) {raw : RawCounts}
    (hraw : ofJson? document = some raw) : ofText label text = raw.toExperiment label := by
  obtain ⟨rest, hread, hblank⟩ := h
  simp [ofText, hread, hraw, hblank]

theorem hasShape_iff : document.HasShape ↔ ∃ raw, ofJson? document = some raw := by
  constructor
  · rintro (⟨pairs, h⟩ | ⟨histograms, hne, h⟩)
    · exact ⟨_, ofJson?_eq_some_iff.mpr (.inl ⟨pairs, h, rfl⟩)⟩
    · exact ⟨_, ofJson?_eq_some_iff.mpr (.inr ⟨histograms, hne, h, rfl⟩)⟩
  · rintro ⟨raw, hraw⟩
    rcases ofJson?_eq_some_iff.mp hraw with ⟨pairs, h, -⟩ | ⟨histograms, hne, h, -⟩
    · exact .inl ⟨pairs, h⟩
    · exact .inr ⟨histograms, hne, h⟩

theorem ofText_ne_ingestion (h : IsDocument text document) (hshape : document.HasShape)
    {fault : DocumentFault} : ofText label text ≠ .error (.ingestion fault) := by
  obtain ⟨raw, hraw⟩ := hasShape_iff.mp hshape
  rw [ofText_of_isDocument h hraw]
  exact toExperiment_ne_ingestion hraw

/-- A text that is no document of a shape is refused as text or for its shape. -/
theorem ofText_of_not_hasShape (label : String)
    (h : ∀ document, IsDocument text document → ¬ document.HasShape) :
    ofText label text = .error (.ingestion (.notJson label)) ∨
      ofText label text = .error (.ingestion (.wrongShape label)) := by
  cases hread : readFirst text with
  | none => exact .inl (by simp [ofText, hread])
  | some found =>
    obtain ⟨document, rest⟩ := found
    cases hraw : ofJson? document with
    | none => exact .inr (by simp [ofText, hread, hraw])
    | some raw =>
      have hbehind : ¬ rest.all isBlank = true := by
        intro hblank
        exact h document ⟨rest, hread, hblank⟩ (hasShape_iff.mpr ⟨raw, hraw⟩)
      exact .inl (by simp only [ofText, hread, hraw, if_neg hbehind])

/-- The table of a basis is made of its counts in byte order. -/
def basisTable (label : String) (b : String × List (String × Nat)) :
    Except Error DistributionTable :=
  DistributionTable.ofCounts (some (label ++ "/" ++ b.1)) (byName b.2)

theorem ofText_counts {pairs : List (String × Nat)} (h : IsDocument text (counts pairs))
    (hnames : (counts pairs).NamesDiffer) :
    ofText label text = (DistributionTable.ofCounts (some label) (byName pairs)).map .flat := by
  rw [ofText_of_isDocument h (ofJson?_eq_some_iff.mpr (.inl ⟨pairs, rfl, rfl⟩)), toExperiment,
    entries_ofList_eq_byName (namesDiffer_counts_iff.mp hnames)]

theorem ofText_bases {histograms : List (String × List (String × Nat))} (hne : histograms ≠ [])
    (h : IsDocument text (Json.bases histograms)) :
    ofText label text = (addTables label ∅ (ofHistograms histograms).entries).map .perBasis := by
  have hraw := ofJson?_eq_some_iff.mpr (.inr ⟨histograms, hne, rfl, rfl⟩)
  rw [ofText_of_isDocument h hraw, toExperiment, if_neg (entries_ofHistograms_ne_nil hne)]

section Bases

variable {histograms : List (String × List (String × Nat))}

/-- What is kept of a document without repeated names are its bases. -/
theorem map_table_perm (label : String) (h : (Json.bases histograms).NamesDiffer) :
    ((ofHistograms histograms).entries.map fun b => (b.1, table label b)).Perm
      (histograms.map fun b => (b.1, basisTable label b)) := by
  obtain ⟨hnodup, hcounts⟩ := namesDiffer_bases_iff.mp h
  have hperm : (ofHistograms histograms).entries.Perm _ :=
    OrderedMap.entries_ofList_perm (by simpa [List.map_map, Function.comp_def] using hnodup)
  refine (hperm.map _).trans (.of_eq ?_)
  rw [List.map_map]
  refine List.map_congr_left fun b hb => ?_
  simp [table, basisTable, entries_ofList_eq_byName (hcounts b hb)]

theorem forall_mem_entries_iff (label : String) (h : (Json.bases histograms).NamesDiffer)
    {p : String × Except Error DistributionTable → Prop} :
    (∀ b ∈ (ofHistograms histograms).entries, p (b.1, table label b)) ↔
      ∀ b ∈ histograms, p (b.1, basisTable label b) := by
  have hperm : (∀ o ∈ _, p o) ↔ ∀ o ∈ _, p o :=
    forall_congr' fun o => imp_congr_left (map_table_perm label h).mem_iff
  simpa only [List.forall_mem_map] using hperm

theorem exists_mem_entries_iff (label : String) (h : (Json.bases histograms).NamesDiffer)
    {p : String × Except Error DistributionTable → Prop} :
    (∃ b ∈ (ofHistograms histograms).entries, p (b.1, table label b)) ↔
      ∃ b ∈ histograms, p (b.1, basisTable label b) := by
  have hperm : (∃ o ∈ _, p o) ↔ ∃ o ∈ _, p o :=
    exists_congr fun o => and_congr_left fun _ => (map_table_perm label h).mem_iff
  simpa only [List.mem_map, exists_exists_and_eq_and] using hperm

/-- What several bases give: a table for each of them, or the error of the least one for which there
is none. -/
structure IsOutcome (label : String) (histograms : List (String × List (String × Nat)))
    (outcome : Except Error ExperimentCounts) : Prop where
  made : (∀ b ∈ histograms, ∃ t, basisTable label b = .ok t) →
    ∃ tables, outcome = .ok (.perBasis tables) ∧ ∀ name t,
      tables.get? name = some t ↔ ∃ b ∈ histograms, b.1 = name ∧ basisTable label b = .ok t
  refused : (¬ ∀ b ∈ histograms, ∃ t, basisTable label b = .ok t) →
    ∃ b ∈ histograms, ∃ e, basisTable label b = .error e ∧ outcome = .error e ∧
      ∀ d ∈ histograms, Text.bytes d.1 < Text.bytes b.1 → ∃ t, basisTable label d = .ok t

theorem isOutcome_ofText (hne : histograms ≠ []) (h : IsDocument text (Json.bases histograms))
    (hnames : (Json.bases histograms).NamesDiffer) :
    IsOutcome label histograms (ofText label text) := by
  have hall := forall_mem_entries_iff label hnames (p := fun o => ∃ t, o.2 = .ok t)
  rw [ofText_bases hne h]
  cases htables : addTables label ∅ (ofHistograms histograms).entries with
  | ok tables =>
    have hmade := exists_table_of_addTables htables
    refine ⟨fun _ => ⟨tables, rfl, fun name t => ?_⟩, fun hnot => absurd (hall.mp hmade) hnot⟩
    have hmem := exists_mem_entries_iff label hnames
      (p := fun o => o.1 = name ∧ o.2 = .ok t)
    rw [get?_of_addTables (pairwise_entries _) htables, ← hmem]
    simp
  | error e =>
    have hleast := (addTables_eq_error_iff (pairwise_entries _)).mp htables
    have hmem := exists_mem_entries_iff label hnames (p := fun o => o.2 = .error e ∧
      ∀ d ∈ (ofHistograms histograms).entries, Text.bytes d.1 < Text.bytes o.1 →
        ∃ t, table label d = .ok t)
    obtain ⟨b, hb, he, hbelow⟩ := hmem.mp hleast
    refine ⟨fun hmade => ?_, fun _ => ⟨b, hb, e, he, rfl, ?_⟩⟩
    · obtain ⟨t, ht⟩ := hmade b hb
      exact nomatch he.symm.trans ht
    · exact (forall_mem_entries_iff label hnames
        (p := fun o => Text.bytes o.1 < Text.bytes b.1 → ∃ t, o.2 = .ok t)).mp hbelow

end Bases

/-- **A document is taken by its shape alone.** A count is what stands as the digits of a number
that fits a word. An object of counts gives what its members give as one table, in byte order of
their names. An object of such objects gives a table for each basis, or the error of the least one
for which there is none. Every other text is refused as a document, none of these is, and no text is
refused for having no bases. -/
theorem ofText_follows_shape (label text : String) :
    (∀ depth s n rest, readValue depth s = some (.count n, rest) ↔
      s = (toString n).toList ++ rest ∧ n ≤ maxWord ∧ EndsNumber rest) ∧
    (∀ pairs, IsDocument text (counts pairs) → (counts pairs).NamesDiffer →
      ofText label text = (DistributionTable.ofCounts (some label) (byName pairs)).map .flat) ∧
    (∀ histograms, histograms ≠ [] → IsDocument text (Json.bases histograms) →
      (Json.bases histograms).NamesDiffer →
      IsOutcome label histograms (ofText label text)) ∧
    ((∃ fault, ofText label text = .error (.ingestion fault)) ↔
      ∀ document, IsDocument text document → ¬ document.HasShape) ∧
    ∀ name, ofText label text ≠ .error (.ingestion (.noBases name)) := by
  refine ⟨fun _ _ _ _ => readValue_eq_count_iff, fun pairs => ofText_counts,
    fun histograms => isOutcome_ofText, ⟨?_, ?_⟩, fun name h => ?_⟩
  · rintro ⟨fault, hfault⟩ document hdocument hshape
    exact ofText_ne_ingestion hdocument hshape hfault
  · intro hother
    rcases ofText_of_not_hasShape label hother with h | h
    · exact ⟨_, h⟩
    · exact ⟨_, h⟩
  · have hother : ∀ document, IsDocument text document → ¬ document.HasShape := by
      intro document hdocument hshape
      exact ofText_ne_ingestion hdocument hshape h
    rcases ofText_of_not_hasShape label hother with h' | h' <;> rw [h'] at h <;> cases h

/-- A coin in one basis, in two, in two of which neither has a table, and in a mixed document. -/
theorem coin_follows_shape :
    ofText "coin" "\x7b\"1\": 3, \"0\": 2\x7d" =
      (DistributionTable.ofCounts (some "coin") [("0", 2), ("1", 3)]).map .flat ∧
    (∃ tables, ofText "coin" "\x7b\"Z\":\x7b\"0\":1\x7d,\"X\":\x7b\"1\":2\x7d\x7d" =
      .ok (.perBasis tables)) ∧
    ofText "coin" "\x7b\"Z\":\x7b\"2\":1\x7d,\"X\":\x7b\x7d\x7d" =
      .error (.malformedTable (some "coin/X") .noEntries) ∧
    ∃ fault, ofText "coin" "\x7b\"0\":1,\"Z\":\x7b\x7d\x7d" = .error (.ingestion fault) := by
  refine ⟨?_, ?_, ?_, ?_⟩
  · have hdocument : IsDocument "\x7b\"1\": 3, \"0\": 2\x7d" (counts [("1", 3), ("0", 2)]) :=
      ⟨[], by rfl, rfl⟩
    have hflat := (ofText_follows_shape "coin" _).2.1 _ hdocument
      (namesDiffer_counts_iff.mpr (by decide))
    have hsorted : byName [("1", 3), ("0", 2)] = [("0", 2), ("1", 3)] := by
      rw [← entries_ofList_eq_byName (by decide)]
      rfl
    rwa [hsorted] at hflat
  · have hdocument : IsDocument "\x7b\"Z\":\x7b\"0\":1\x7d,\"X\":\x7b\"1\":2\x7d\x7d"
        (Json.bases [("Z", [("0", 1)]), ("X", [("1", 2)])]) := ⟨[], by rfl, rfl⟩
    have hmade : ∀ b ∈ [("Z", [("0", 1)]), ("X", [("1", 2)])],
        ∃ t, basisTable "coin" b = .ok t := by
      simp only [List.forall_mem_cons, List.not_mem_nil, false_imp_iff, implies_true, and_true,
        basisTable, byName, List.mergeSort_singleton]
      exact ⟨⟨_, rfl⟩, ⟨_, rfl⟩⟩
    obtain ⟨tables, htables, -⟩ := ((ofText_follows_shape "coin" _).2.2.1 _ (by decide) hdocument
      (namesDiffer_bases_iff.mpr (by decide))).made hmade
    exact ⟨tables, htables⟩
  · have hdocument : IsDocument "\x7b\"Z\":\x7b\"2\":1\x7d,\"X\":\x7b\x7d\x7d"
        (Json.bases [("Z", [("2", 1)]), ("X", [])]) := ⟨[], by rfl, rfl⟩
    have hempty : basisTable "coin" ("X", []) =
        .error (.malformedTable (some "coin/X") .noEntries) := by
      simp only [basisTable, byName, List.mergeSort_nil]
      rfl
    obtain ⟨b, hb, e, he, htext, hleast⟩ := ((ofText_follows_shape "coin" _).2.2.1 _ (by decide)
      hdocument (namesDiffer_bases_iff.mpr (by decide))).refused (by simp [hempty])
    rcases List.mem_cons.mp hb with rfl | hb
    · obtain ⟨t, ht⟩ := hleast ("X", []) (by simp) (by decide)
      rw [hempty] at ht
      cases ht
    · obtain rfl := List.mem_singleton.mp hb
      rw [hempty] at he
      rw [htext, Except.error.inj he]
  · have hread : readFirst "\x7b\"0\":1,\"Z\":\x7b\x7d\x7d" =
        some (.object [("0", .count 1), ("Z", .object [])], []) := by rfl
    refine (ofText_follows_shape "coin" _).2.2.2.1.mpr ?_
    rintro document ⟨rest, hdocument, -⟩ hshape
    rw [hread] at hdocument
    cases hdocument
    obtain ⟨raw, hraw⟩ := hasShape_iff.mp hshape
    cases hraw

end ExperimentCounts

end Readout
