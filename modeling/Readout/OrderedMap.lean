import Readout.Bisection

/-!
# Ordered maps

`OrderedMap κ β` is a finite map whose entries stand in strictly ascending order of their keys, so
two maps with the same look-ups are equal and every traversal visits the keys in one fixed order.

* `OrderedMap.get?_insert`: inserting changes the look-up at the inserted key and nowhere else.
* `OrderedMap.ext_get?`: maps with the same look-ups are equal.
* `OrderedMap.bisect_entries`: a look-up may halve the entries.
-/

namespace Readout

open Std

/-- A finite map listed by strictly ascending keys. -/
structure OrderedMap (κ : Type) [Ord κ] (β : Type) where
  entries : List (κ × β)
  ascending : entries.Pairwise fun a b => compare a.1 b.1 = .lt

namespace OrderedMap

variable {κ β : Type} [Ord κ]

/-! ## Lists of entries -/

/-- Puts `v` at `k` in an ascending list, in place of the value that stood there. -/
def insertEntry (k : κ) (v : β) : List (κ × β) → List (κ × β)
  | [] => [(k, v)]
  | e :: rest =>
    match compare k e.1 with
    | .lt => (k, v) :: e :: rest
    | .eq => (k, v) :: rest
    | .gt => e :: insertEntry k v rest

/-- The value at `k`. -/
def lookup (k : κ) : List (κ × β) → Option β
  | [] => none
  | e :: rest => if compare k e.1 = .eq then some e.2 else lookup k rest

theorem mem_insertEntry {k : κ} {v : β} {e : κ × β} {l : List (κ × β)}
    (h : e ∈ insertEntry k v l) : e = (k, v) ∨ e ∈ l := by
  induction l with
  | nil => simpa [insertEntry] using h
  | cons d rest ih =>
    rw [insertEntry] at h
    split at h
    · simpa using h
    · rcases List.mem_cons.mp h with h | h
      · exact .inl h
      · exact .inr (List.mem_cons_of_mem d h)
    · rcases List.mem_cons.mp h with rfl | h
      · exact .inr List.mem_cons_self
      · exact (ih h).imp_right (List.mem_cons_of_mem d)

theorem pairwise_insertEntry [TransOrd κ] {k : κ} {v : β} {l : List (κ × β)}
    (h : l.Pairwise fun a b => compare a.1 b.1 = .lt) :
    (insertEntry k v l).Pairwise fun a b => compare a.1 b.1 = .lt := by
  induction l with
  | nil => simp [insertEntry]
  | cons d rest ih =>
    obtain ⟨hd, hr⟩ := List.pairwise_cons.mp h
    rw [insertEntry]
    split
    · rename_i hk
      refine List.pairwise_cons.mpr ⟨fun e he => ?_, h⟩
      rcases List.mem_cons.mp he with rfl | he
      · exact hk
      · exact TransCmp.lt_trans hk (hd e he)
    · rename_i hk
      exact List.pairwise_cons.mpr ⟨fun e he => TransCmp.lt_of_eq_of_lt hk (hd e he), hr⟩
    · rename_i hk
      refine List.pairwise_cons.mpr ⟨fun e he => ?_, ih hr⟩
      rcases mem_insertEntry he with rfl | he
      · exact OrientedCmp.gt_iff_lt.mp hk
      · exact hd e he

theorem lookup_insertEntry [TransOrd κ] [LawfulEqOrd κ] [DecidableEq κ] (k k' : κ) (v : β)
    (l : List (κ × β)) :
    lookup k' (insertEntry k v l) = if k' = k then some v else lookup k' l := by
  induction l with
  | nil => simp [insertEntry, lookup, LawfulEqCmp.compare_eq_iff_eq]
  | cons d rest ih =>
    rw [insertEntry]
    split
    · simp [lookup, LawfulEqCmp.compare_eq_iff_eq]
    · rename_i hk
      obtain rfl := LawfulEqCmp.compare_eq_iff_eq.mp hk
      by_cases h : k' = d.1 <;> simp [lookup, LawfulEqCmp.compare_eq_iff_eq, h]
    · rename_i hk
      simp only [lookup, ih, LawfulEqCmp.compare_eq_iff_eq]
      by_cases h : k' = d.1
      · subst h
        have hne : ¬ d.1 = k := by
          rintro rfl
          simp at hk
        simp [hne]
      · simp [h]

/-! ## Maps -/

instance : EmptyCollection (OrderedMap κ β) := ⟨⟨[], .nil⟩⟩

instance : Inhabited (OrderedMap κ β) := ⟨∅⟩

@[ext] theorem ext {m n : OrderedMap κ β} (h : m.entries = n.entries) : m = n := by
  obtain ⟨_, _⟩ := m
  obtain ⟨_, _⟩ := n
  simp only at h
  subst h
  rfl

instance [DecidableEq κ] [DecidableEq β] : DecidableEq (OrderedMap κ β) := fun m n =>
  decidable_of_iff (m.entries = n.entries) ⟨ext, fun h => h ▸ rfl⟩

/-- Sets the value at `k`. -/
def insert [TransOrd κ] (m : OrderedMap κ β) (k : κ) (v : β) : OrderedMap κ β :=
  ⟨insertEntry k v m.entries, pairwise_insertEntry m.ascending⟩

/-- The value at `k`, if there is one. -/
def get? (m : OrderedMap κ β) (k : κ) : Option β := lookup k m.entries

/-- The value at `k`, or `d` where there is none. -/
def getD (m : OrderedMap κ β) (k : κ) (d : β) : β := (m.get? k).getD d

/-- Whether `k` has a value. -/
def contains (m : OrderedMap κ β) (k : κ) : Bool := (m.get? k).isSome

/-- The keys, ascending. -/
def keys (m : OrderedMap κ β) : List κ := m.entries.map (·.1)

/-- The values, in the order of their keys. -/
def values (m : OrderedMap κ β) : List β := m.entries.map (·.2)

/-- The map that the entries of a list give when they are inserted from the left, so that of two
entries with one key the later stays. -/
def ofList [TransOrd κ] (l : List (κ × β)) : OrderedMap κ β :=
  l.foldl (fun m e => m.insert e.1 e.2) ∅

@[simp] theorem get?_empty (k : κ) : (∅ : OrderedMap κ β).get? k = none := rfl

theorem get?_insert [TransOrd κ] [LawfulEqOrd κ] [DecidableEq κ] (m : OrderedMap κ β) (k k' : κ)
    (v : β) : (m.insert k v).get? k' = if k' = k then some v else m.get? k' :=
  lookup_insertEntry k k' v m.entries

theorem get?_eq_some_iff [TransOrd κ] [LawfulEqOrd κ] {m : OrderedMap κ β} {k : κ} {v : β} :
    m.get? k = some v ↔ (k, v) ∈ m.entries := by
  obtain ⟨l, hl⟩ := m
  simp only [get?]
  induction l with
  | nil => simp [lookup]
  | cons d rest ih =>
    obtain ⟨hd, hr⟩ := List.pairwise_cons.mp hl
    simp only [lookup, List.mem_cons]
    split
    · rename_i hk
      obtain rfl := LawfulEqCmp.compare_eq_iff_eq.mp hk
      constructor
      · intro h
        simp only [Option.some.injEq] at h
        exact .inl (by rw [← h])
      · rintro (h | h)
        · rw [← h]
        · have := hd _ h
          simp at this
    · rename_i hk
      rw [ih hr]
      constructor
      · exact .inr
      · rintro (h | h)
        · exact absurd (LawfulEqCmp.compare_eq_iff_eq.mpr (congrArg Prod.fst h)) hk
        · exact h

theorem ext_get? [TransOrd κ] [LawfulEqOrd κ] {m n : OrderedMap κ β}
    (h : ∀ k, m.get? k = n.get? k) : m = n := by
  have hmem : ∀ e, e ∈ m.entries ↔ e ∈ n.entries := fun e => by
    rw [← get?_eq_some_iff, ← get?_eq_some_iff, h]
  apply ext
  obtain ⟨l, hl⟩ := m
  obtain ⟨r, hr⟩ := n
  simp only at hmem ⊢
  clear h
  induction l generalizing r with
  | nil =>
    cases r with
    | nil => rfl
    | cons b r => exact absurd ((hmem b).mpr List.mem_cons_self) List.not_mem_nil
  | cons a l ih =>
    cases r with
    | nil => exact absurd ((hmem a).mp List.mem_cons_self) List.not_mem_nil
    | cons b r =>
      obtain ⟨ha, hl'⟩ := List.pairwise_cons.mp hl
      obtain ⟨hb, hr'⟩ := List.pairwise_cons.mp hr
      have hab : a = b := by
        rcases List.mem_cons.mp ((hmem a).mp List.mem_cons_self) with h | h
        · exact h
        · rcases List.mem_cons.mp ((hmem b).mpr List.mem_cons_self) with h' | h'
          · exact h'.symm
          · have := TransCmp.lt_trans (ha b h') (hb a h)
            simp at this
      subst hab
      refine congrArg (a :: ·) (ih hl' r hr' fun e => ?_)
      have hirrefl : ¬ (compare a.1 a.1 = .lt) := by simp
      constructor
      · intro he
        rcases List.mem_cons.mp ((hmem e).mp (List.mem_cons_of_mem a he)) with rfl | h
        · exact absurd (ha e he) hirrefl
        · exact h
      · intro he
        rcases List.mem_cons.mp ((hmem e).mpr (List.mem_cons_of_mem a he)) with rfl | h
        · exact absurd (hb e he) hirrefl
        · exact h

/-! ## Looking up by halving -/

theorem ascends_entries [TransOrd κ] (m : OrderedMap κ β) (k : κ) :
    Ascends (fun e => compare e.1 k) m.entries :=
  m.ascending.imp fun hlt hle => TransCmp.lt_of_lt_of_isLE hlt (Ordering.isLE_iff_ne_gt.mpr hle)

theorem lookup_eq_find? [TransOrd κ] (k : κ) (l : List (κ × β)) :
    lookup k l = (l.find? fun e => compare e.1 k = .eq).map (·.2) := by
  induction l with
  | nil => rfl
  | cons d rest ih =>
    have hcomm : compare k d.1 = .eq ↔ compare d.1 k = .eq := OrientedCmp.eq_comm
    rw [lookup, List.find?_cons, ih]
    by_cases h : compare d.1 k = .eq <;> simp [hcomm, h]

theorem bisect_entries [TransOrd κ] (m : OrderedMap κ β) (k : κ) :
    (bisect (fun e => compare e.1 k) m.entries).map (·.2) = m.get? k := by
  rw [bisect_eq_find? (m.ascends_entries k), get?, lookup_eq_find?]

end OrderedMap

end Readout
