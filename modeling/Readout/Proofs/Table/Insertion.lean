import Readout.Naturals
import Readout.OrderedMap

/-!
# Insertion as a permutation

Inserting at a key that is not there yet loses no entry and merges none: up to order the entries are
those before and the new one (`entries_insert_perm`). A list whose keys differ is therefore kept
whole by `OrderedMap.ofList`, and two maps with the same entries up to order are equal
(`eq_of_perm`). At any key, a sum of values changes by the difference of the two values there
(`sum_values_insert`).
-/

namespace Readout.OrderedMap

open Std

variable {κ β : Type} [Ord κ] {m n : OrderedMap κ β}

theorem insertEntry_perm {k : κ} {v : β} {l : List (κ × β)} (h : lookup k l = none) :
    (insertEntry k v l).Perm ((k, v) :: l) := by
  induction l with
  | nil => exact .refl _
  | cons e rest ih =>
    rw [lookup] at h
    rw [insertEntry]
    split
    · exact .refl _
    · rename_i hcompare
      rw [if_pos hcompare] at h
      cases h
    · rename_i hcompare
      rw [if_neg (by rw [hcompare]; decide)] at h
      exact ((ih h).cons e).trans (.swap (k, v) e rest)

theorem lookup_eq_none_of_lt {k : κ} {l : List (κ × β)} (h : ∀ e ∈ l, compare k e.1 = .lt) :
    lookup k l = none := by
  induction l with
  | nil => rfl
  | cons e rest ih =>
    have hne : ¬ compare k e.1 = .eq := by
      rw [h e List.mem_cons_self]
      decide
    rw [lookup, if_neg hne]
    exact ih fun d hd => h d (List.mem_cons_of_mem e hd)

theorem nodup_keys [LawfulEqOrd κ] (m : OrderedMap κ β) : (m.entries.map (·.1)).Nodup := by
  rw [List.nodup_iff_pairwise_ne, List.pairwise_map]
  refine m.ascending.imp fun {a b} hlt heq => ?_
  rw [heq] at hlt
  simp at hlt

variable [TransOrd κ]

theorem entries_insert_perm {k : κ} {v : β} (h : m.get? k = none) :
    (m.insert k v).entries.Perm ((k, v) :: m.entries) :=
  insertEntry_perm h

/-- A sum of values changes by what the inserted value is more than the one it replaces. -/
theorem sum_values_insert (m : OrderedMap κ Nat) (k : κ) (v : Nat) :
    (m.insert k v).values.sum + m.getD k 0 = m.values.sum + v := by
  obtain ⟨l, hl⟩ := m
  show ((insertEntry k v l).map (·.2)).sum + (lookup k l).getD 0 = (l.map (·.2)).sum + v
  induction l with
  | nil => simp [insertEntry, lookup]
  | cons e rest ih =>
    obtain ⟨he, hrest⟩ := List.pairwise_cons.mp hl
    rw [insertEntry]
    split
    · rename_i hlt
      have hnone : lookup k (e :: rest) = none := by
        refine lookup_eq_none_of_lt fun d hd => ?_
        rcases List.mem_cons.mp hd with rfl | hd
        · exact hlt
        · exact TransCmp.lt_trans hlt (he d hd)
      rw [hnone, List.map_cons, List.sum_cons, Option.getD_none]
      omega
    · rename_i heq
      rw [lookup, if_pos heq, List.map_cons, List.map_cons, List.sum_cons, List.sum_cons,
        Option.getD_some]
      omega
    · rename_i hgt
      have hne : ¬ compare k e.1 = .eq := by
        rw [hgt]
        decide
      have hsum := ih hrest
      rw [lookup, if_neg hne, List.map_cons, List.map_cons, List.sum_cons, List.sum_cons]
      omega

variable [LawfulEqOrd κ]

theorem get?_eq_none_iff {k : κ} : m.get? k = none ↔ ∀ e ∈ m.entries, e.1 ≠ k := by
  constructor
  · rintro h ⟨k', v⟩ he rfl
    rw [get?_eq_some_iff.mpr he] at h
    cases h
  · intro h
    cases hget : m.get? k with
    | none => rfl
    | some v => exact absurd rfl (h (k, v) (get?_eq_some_iff.mp hget))

theorem eq_of_perm (h : m.entries.Perm n.entries) : m = n := by
  refine ext_get? fun k => Option.ext fun v => ?_
  rw [get?_eq_some_iff, get?_eq_some_iff, h.mem_iff]

/-- Entries whose keys differ are all kept when they are inserted one after the other. -/
theorem entries_foldl_insert_perm {l : List (κ × β)}
    (h : ((m.entries ++ l).map (·.1)).Nodup) :
    (l.foldl (fun m e => m.insert e.1 e.2) m).entries.Perm (m.entries ++ l) := by
  induction l generalizing m with
  | nil =>
    rw [List.append_nil]
    exact .refl _
  | cons e l ih =>
    have hmiddle : (m.entries ++ e :: l).Perm (e :: (m.entries ++ l)) := List.perm_middle
    have hnodup := (hmiddle.map (·.1)).nodup_iff.mp h
    rw [List.map_cons, List.nodup_cons] at hnodup
    have hnone : m.get? e.1 = none := by
      rw [get?_eq_none_iff]
      intro d hd heq
      exact hnodup.1 (heq ▸ List.mem_map_of_mem (List.mem_append_left l hd))
    have hinsert : ((m.insert e.1 e.2).entries ++ l).Perm (e :: (m.entries ++ l)) :=
      (entries_insert_perm hnone).append_right l
    have hrest := ih ((hinsert.map (·.1)).nodup_iff.mpr (List.nodup_cons.mpr hnodup))
    exact hrest.trans (hinsert.trans hmiddle.symm)

theorem entries_ofList_perm {l : List (κ × β)} (h : (l.map (·.1)).Nodup) :
    (ofList l).entries.Perm l :=
  entries_foldl_insert_perm h

end Readout.OrderedMap
