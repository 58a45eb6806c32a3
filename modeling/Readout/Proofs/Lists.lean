/-!
# Lists

What the theory needs of lists and does not find in the library: traversals in which no step fails,
a search that stops at the first place, two lists entry by entry, lists with the same beginning, and
lists filled up in front.
-/

namespace Readout

/-! ## Traversals -/

theorem mapM_eq_ok {ε α β : Type} {l : List α} {f : α → Except ε β} {g : α → β}
    (h : ∀ a ∈ l, f a = .ok (g a)) : l.mapM f = .ok (l.map g) := by
  induction l with
  | nil => rfl
  | cons a l ih =>
    rw [List.mapM_cons, h a List.mem_cons_self, ih fun b hb => h b (.tail a hb)]
    rfl

theorem mapM_cons_eq_some_iff {α β : Type} {f : α → Option β} {a : α} {l : List α} {v : List β} :
    (a :: l).mapM f = some v ↔ ∃ b w, f a = some b ∧ l.mapM f = some w ∧ b :: w = v := by
  rw [List.mapM_cons]
  constructor
  · intro h
    obtain ⟨b, hb, h⟩ := Option.bind_eq_some_iff.mp h
    obtain ⟨w, hw, h⟩ := Option.bind_eq_some_iff.mp h
    exact ⟨b, w, hb, hw, Option.some.inj h⟩
  · rintro ⟨b, w, hb, hw, rfl⟩
    rw [hb, hw]
    rfl

/-- A traversal of a permuted list gives what the traversal of the list does, permuted. -/
theorem exists_mapM_of_perm {α β : Type} {f : α → Option β} {l l' : List α} (h : l.Perm l')
    {v : List β} (hv : l.mapM f = some v) : ∃ v', l'.mapM f = some v' ∧ v.Perm v' := by
  induction h generalizing v with
  | nil => exact ⟨v, hv, .refl v⟩
  | cons a _ ih =>
    obtain ⟨b, w, hb, hw, rfl⟩ := mapM_cons_eq_some_iff.mp hv
    obtain ⟨w', hw', hperm⟩ := ih hw
    exact ⟨b :: w', mapM_cons_eq_some_iff.mpr ⟨b, w', hb, hw', rfl⟩, hperm.cons b⟩
  | swap a a' l =>
    obtain ⟨b', w, hb', hw, rfl⟩ := mapM_cons_eq_some_iff.mp hv
    obtain ⟨b, u, hb, hu, rfl⟩ := mapM_cons_eq_some_iff.mp hw
    have hback := mapM_cons_eq_some_iff.mpr ⟨b', u, hb', hu, rfl⟩
    exact ⟨b :: b' :: u, mapM_cons_eq_some_iff.mpr ⟨b, _, hb, hback, rfl⟩, .swap b b' u⟩
  | trans _ _ ih ih' =>
    obtain ⟨w, hw, hperm⟩ := ih hv
    obtain ⟨w', hw', hperm'⟩ := ih' hw
    exact ⟨w', hw', hperm.trans hperm'⟩

/-! ## Searches -/

theorem exists_of_findSome?_range {β : Type} {n : Nat} {f : Nat → Option β} {b : β}
    (h : (List.range n).findSome? f = some b) : ∃ i < n, f i = some b ∧ ∀ j < i, f j = none := by
  induction n with
  | zero => cases h
  | succ n ih =>
    rw [List.range_succ, List.findSome?_append] at h
    cases hfront : (List.range n).findSome? f with
    | none =>
      rw [hfront, Option.none_or, List.findSome?_singleton] at h
      exact ⟨n, Nat.lt_succ_self n, h, fun j hj =>
        List.findSome?_eq_none_iff.mp hfront j (List.mem_range.mpr hj)⟩
    | some found =>
      rw [hfront, Option.some_or] at h
      obtain ⟨i, hi, hfound⟩ := ih (hfront.trans h)
      exact ⟨i, Nat.lt_succ_of_lt hi, hfound⟩

/-! ## Two lists side by side -/

theorem map_eq_of_forall_mem_zip {α β : Type} {g : α → β} {l : List α} {v : List β}
    (hlength : v.length = l.length) (h : ∀ e ∈ l.zip v, g e.1 = e.2) : l.map g = v := by
  induction l generalizing v with
  | nil =>
    obtain rfl := List.eq_nil_of_length_eq_zero hlength
    rfl
  | cons a l ih =>
    cases v with
    | nil => cases hlength
    | cons b v =>
      rw [List.map_cons, h (a, b) List.mem_cons_self,
        ih (Nat.succ.inj hlength) fun e he => h e (.tail _ he)]

theorem pairwise_zip {α β : Type} {R : α → α → Prop} {l : List α} {v : List β}
    (hlength : v.length = l.length) (h : l.Pairwise R) :
    (l.zip v).Pairwise fun d e => R d.1 e.1 := by
  rw [← List.map_fst_zip (Nat.le_of_eq hlength.symm), List.pairwise_map] at h
  exact h

/-! ## Lists with the same beginning -/

theorem take_eq_of_take_eq {α : Type} {l l' : List α} {i j : Nat} (h : l.take i = l'.take i)
    (hj : j ≤ i) : l.take j = l'.take j := by
  have hcut := congrArg (List.take j) h
  rwa [List.take_take, List.take_take, Nat.min_eq_left hj] at hcut

theorem getElem?_eq_of_take_eq {α : Type} {l l' : List α} {i j : Nat} (h : l.take i = l'.take i)
    (hj : j < i) : l[j]? = l'[j]? := by
  rw [← List.getElem?_take_of_lt hj, h, List.getElem?_take_of_lt hj]

/-! ## Lists filled up in front -/

theorem leftpad_concat {α : Type} (k : Nat) (a x : α) (l : List α) :
    (l ++ [x]).leftpad (k + 1) a = l.leftpad k a ++ [x] := by
  simp [List.leftpad]

theorem leftpad_singleton {α : Type} (k : Nat) (a x : α) :
    [x].leftpad (k + 1) a = List.replicate k a ++ [x] := by
  simp [List.leftpad]

end Readout
