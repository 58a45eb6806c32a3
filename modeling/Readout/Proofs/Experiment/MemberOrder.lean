import Readout.Proofs.Experiment.ByShape
import Readout.Proofs.Lists

/-!
# The order of members

Documents can differ in the order of the members of their objects and in nothing else
(`Json.Reordered`). A reading is blind to that order if it gives the same for such documents, and if
the values of members are read blindly, then so are objects of them, since their members are put
into the order of their names (`OrderBlind.ordered`). This carries from counts to histograms and
from those to the histograms of bases, so the shape of a document and all that is kept of it do not
hang on the order (`orderBlind_ofJson?`).
-/

namespace Readout

namespace Json

/-- Documents that differ at most in the order of members, in objects at any depth. -/
inductive Reordered : Json → Json → Prop
  | refl (document : Json) : Reordered document document
  | trans {first second third : Json} (h : Reordered first second) (h' : Reordered second third) :
      Reordered first third
  | members {members members' : List (String × Json)} (h : members.Perm members') :
      Reordered (.object members) (.object members')
  | inMember (front : List (String × Json)) (name : String) {value value' : Json}
      (back : List (String × Json)) (h : Reordered value value') :
      Reordered (.object (front ++ (name, value) :: back))
        (.object (front ++ (name, value') :: back))
  | inItem (front : List Json) {item item' : Json} (back : List Json) (h : Reordered item item') :
      Reordered (.array (front ++ item :: back)) (.array (front ++ item' :: back))

/-- Reordering repeats no name. -/
theorem Reordered.namesDiffer {document document' : Json} (h : Reordered document document')
    (hnames : document.NamesDiffer) : document'.NamesDiffer := by
  induction h with
  | refl document => exact hnames
  | trans _ _ ih ih' => exact ih' (ih hnames)
  | members h =>
    rw [namesDiffer_object_iff] at hnames ⊢
    exact ⟨(h.map (·.1)).nodup_iff.mp hnames.1, fun m hm => hnames.2 m (h.mem_iff.mpr hm)⟩
  | inMember front name back _ ih =>
    simp only [namesDiffer_object_iff, List.map_append, List.map_cons, List.forall_mem_append,
      List.forall_mem_cons] at hnames ⊢
    obtain ⟨names, hfront, hvalue, hback⟩ := hnames
    exact ⟨names, hfront, ih hvalue, hback⟩
  | inItem front back _ ih =>
    simp only [namesDiffer_array_iff, List.forall_mem_append, List.forall_mem_cons] at hnames ⊢
    obtain ⟨hfront, hitem, hback⟩ := hnames
    exact ⟨hfront, ih hitem, hback⟩

/-! ## Readings that do not see the order -/

/-- A reading that gives the same for documents that differ in the order of members, where no object
repeats a name. -/
def OrderBlind {β : Type} (read? : Json → Option β) : Prop :=
  ∀ document document', Reordered document document' → document.NamesDiffer →
    read? document' = read? document

section Blind

variable {β : Type} {read? : Json → Option β}

/-- What is the same for all arrays, for objects with permuted members and for objects that differ
in one member, is blind to the order. -/
theorem OrderBlind.of_object
    (harray : ∀ items items', read? (.array items') = read? (.array items))
    (hperm : ∀ {members members'}, members.Perm members' → (members.map (·.1)).Nodup →
      read? (.object members') = read? (.object members))
    (hmember : ∀ front name value value' back, Reordered value value' → value.NamesDiffer →
      read? (.object (front ++ (name, value') :: back)) =
        read? (.object (front ++ (name, value) :: back))) : OrderBlind read? := by
  intro document document' h hnames
  induction h with
  | refl => rfl
  | trans h _ ih ih' => exact (ih' (h.namesDiffer hnames)).trans (ih hnames)
  | members h => exact hperm h (namesDiffer_object_iff.mp hnames).1
  | inMember front name back h =>
    have heach := (namesDiffer_object_iff.mp hnames).2
    exact hmember front name _ _ back h (heach _ (List.mem_append_right front List.mem_cons_self))
  | inItem => exact harray _ _

/-- A reordered document is a count only if it is the same one. -/
theorem orderBlind_count? : OrderBlind count? :=
  OrderBlind.of_object (fun _ _ => rfl) (fun _ _ => rfl) fun _ _ _ _ _ _ _ => rfl

theorem map_fst_of_membersBy? {members : List (String × Json)} {l : List (String × β)}
    (h : (object members).membersBy? read? = some l) : l.map (·.1) = members.map (·.1) := by
  induction members generalizing l with
  | nil =>
    obtain rfl : [] = l := Option.some.inj h
    rfl
  | cons m members ih =>
    obtain ⟨e, rest, he, hrest, rfl⟩ := mapM_cons_eq_some_iff.mp h
    obtain ⟨v, -, rfl⟩ := Option.map_eq_some_iff.mp he
    rw [List.map_cons, List.map_cons, ih hrest]

/-- Members whose names differ are kept in the order of their names, however they stand. -/
theorem ofList_membersBy?_of_perm {members members' : List (String × Json)}
    (h : members.Perm members') (hnodup : (members.map (·.1)).Nodup) {m : OrderedMap String β}
    (hread : ((object members).membersBy? read?).map OrderedMap.ofList = some m) :
    ((object members').membersBy? read?).map OrderedMap.ofList = some m := by
  obtain ⟨l, hl, rfl⟩ := Option.map_eq_some_iff.mp hread
  obtain ⟨l', hl', hperm⟩ := exists_mapM_of_perm h hl
  have hnames : (l.map (·.1)).Nodup := by rwa [map_fst_of_membersBy? hl]
  have hnames' : (l'.map (·.1)).Nodup := (hperm.map (·.1)).nodup_iff.mp hnames
  have hsame : (OrderedMap.ofList l').entries.Perm (OrderedMap.ofList l).entries :=
    (OrderedMap.entries_ofList_perm hnames').trans
      (hperm.symm.trans (OrderedMap.entries_ofList_perm hnames).symm)
  exact Option.map_eq_some_iff.mpr ⟨l', hl', OrderedMap.eq_of_perm hsame⟩

/-- If the values of members are read blindly, so are objects of them. -/
theorem OrderBlind.ordered (h : OrderBlind read?) :
    OrderBlind fun document => (document.membersBy? read?).map OrderedMap.ofList := by
  refine OrderBlind.of_object (fun _ _ => rfl) (fun hperm hnodup => Option.ext fun m => ?_)
    fun front name value value' back hvalue hnames => ?_
  · have hnodup' := (hperm.map (·.1)).nodup_iff.mp hnodup
    exact ⟨ofList_membersBy?_of_perm hperm.symm hnodup', ofList_membersBy?_of_perm hperm hnodup⟩
  · simp only [membersBy?, List.mapM_append, List.mapM_cons, h _ _ hvalue hnames]

end Blind

end Json

/-! ## What is kept of a document -/

namespace RawCounts

open Json

theorem orderBlind_countMap? : OrderBlind countMap? := orderBlind_count?.ordered

/-- Counts of one basis, or else of several. -/
theorem ofJson?_eq_or (document : Json) :
    ofJson? document = ((countMap? document).map .flat).or
      (((document.membersBy? countMap?).map OrderedMap.ofList).map .perBasis) := by
  unfold ofJson?
  rw [Option.map_map]
  cases countMap? document <;> rfl

/-- All that is kept of a document. -/
theorem orderBlind_ofJson? : OrderBlind ofJson? := by
  intro document document' h hnames
  have hcounts := orderBlind_countMap? document document' h hnames
  have hbases := orderBlind_countMap?.ordered document document' h hnames
  rw [ofJson?_eq_or, ofJson?_eq_or, hcounts]
  exact congrArg (fun bases => Option.or _ (Option.map _ bases)) hbases

end RawCounts

namespace ExperimentCounts

open Json

variable {text text' : String} {document document' : Json}

theorem ofText_of_ofJson?_eq_none (label : String) (h : IsDocument text document)
    (hnone : RawCounts.ofJson? document = none) :
    ofText label text = .error (.ingestion (.wrongShape label)) := by
  obtain ⟨rest, hread, -⟩ := h
  simp [ofText, hread, hnone]

/-- **The order of members is immaterial.** Two texts whose documents differ at most in the order of
members, in objects at any depth, none of which repeats a name, give the same under every label: the
same bases with the same tables, or the same refusal, about the same basis and the same key. -/
theorem ofText_ignores_member_order (label : String) (h : IsDocument text document)
    (h' : IsDocument text' document') (hnames : document.NamesDiffer)
    (hreordered : Reordered document document') : ofText label text' = ofText label text := by
  have hraw' := RawCounts.orderBlind_ofJson? document document' hreordered hnames
  cases hraw : RawCounts.ofJson? document with
  | none =>
    rw [hraw] at hraw'
    rw [ofText_of_ofJson?_eq_none label h hraw, ofText_of_ofJson?_eq_none label h' hraw']
  | some raw =>
    rw [hraw] at hraw'
    rw [ofText_of_isDocument h hraw, ofText_of_isDocument h' hraw']

/-- Two bases, both refused for several reasons: written the other way round, with blanks, the
refusal is still that of `"X"`, and there about `"02"`. -/
theorem coin_ignores_member_order :
    ofText "coin" "\x7b \"X\": \x7b\"1\": 0, \"02\": 1\x7d, \"Z\": \x7b\"\": 4\x7d \x7d" =
      ofText "coin" "\x7b\"Z\":\x7b\"\":4\x7d,\"X\":\x7b\"02\":1,\"1\":0\x7d\x7d" ∧
    ofText "coin" "\x7b\"Z\":\x7b\"\":4\x7d,\"X\":\x7b\"02\":1,\"1\":0\x7d\x7d" =
      .error (.invalidBitstring "02") := by
  have h : IsDocument "\x7b\"Z\":\x7b\"\":4\x7d,\"X\":\x7b\"02\":1,\"1\":0\x7d\x7d"
      (Json.bases [("Z", [("", 4)]), ("X", [("02", 1), ("1", 0)])]) := ⟨[], by rfl, rfl⟩
  have h' : IsDocument "\x7b \"X\": \x7b\"1\": 0, \"02\": 1\x7d, \"Z\": \x7b\"\": 4\x7d \x7d"
      (Json.bases [("X", [("1", 0), ("02", 1)]), ("Z", [("", 4)])]) := ⟨[], by rfl, rfl⟩
  have hnames : (Json.bases [("Z", [("", 4)]), ("X", [("02", 1), ("1", 0)])]).NamesDiffer :=
    namesDiffer_bases_iff.mpr (by decide)
  have hinside : Reordered (counts [("02", 1), ("1", 0)]) (counts [("1", 0), ("02", 1)]) :=
    .members (.swap _ _ [])
  have hreordered : Reordered (Json.bases [("Z", [("", 4)]), ("X", [("02", 1), ("1", 0)])])
      (Json.bases [("X", [("1", 0), ("02", 1)]), ("Z", [("", 4)])]) :=
    (Reordered.inMember [("Z", counts [("", 4)])] "X" [] hinside).trans (.members (.swap _ _ []))
  exact ⟨ofText_ignores_member_order "coin" h h' hnames hreordered, by rfl⟩

end ExperimentCounts

end Readout
