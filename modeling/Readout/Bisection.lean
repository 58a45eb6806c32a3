/-!
# Search by halving

`bisect` looks for an element in a list that ascends towards it. A comparison tells of each element
whether it stands before what is looked for, is it, or stands behind it; the search looks at the
middle element and goes on in one half.

* `bisect_eq_find?`: where the list ascends strictly, halving finds what a look at every element
  finds.
-/

namespace Readout

variable {α : Type} {f : α → Ordering}

/-- The element that `f` finds equal, looked for by halving. -/
def bisect (f : α → Ordering) (l : List α) : Option α :=
  let half := l.length / 2
  if h : half < l.length then
    match f l[half] with
    | .lt => bisect f (l.drop (half + 1))
    | .eq => some l[half]
    | .gt => bisect f (l.take half)
  else none
termination_by l.length
decreasing_by
  · rw [List.length_drop]
    omega
  · rw [List.length_take]
    omega

/-- The list ascends strictly as `f` sees it: in front of an element that is not beyond what is
looked for, every element is below it. -/
def Ascends (f : α → Ordering) (l : List α) : Prop :=
  l.Pairwise fun a b => f b ≠ .gt → f a = .lt

section Middle

variable {front back : List α} {middle : α}

theorem Ascends.lt_of_mem_front (h : Ascends f (front ++ middle :: back)) (hm : f middle ≠ .gt) :
    ∀ a ∈ front, f a = .lt := by
  intro a ha
  exact (List.pairwise_append.mp h).2.2 a ha middle List.mem_cons_self hm

theorem Ascends.gt_of_mem_back (h : Ascends f (front ++ middle :: back)) (hm : f middle ≠ .lt) :
    ∀ b ∈ back, f b = .gt := by
  intro b hb
  have hbelow := (List.pairwise_cons.mp (List.pairwise_append.mp h).2.1).1 b hb
  cases hfb : f b with
  | gt => rfl
  | lt => exact absurd (hbelow (by rw [hfb]; decide)) hm
  | eq => exact absurd (hbelow (by rw [hfb]; decide)) hm

theorem Ascends.find?_append_cons (h : Ascends f (front ++ middle :: back)) :
    (front ++ middle :: back).find? (f · = .eq) =
      match f middle with
      | .lt => back.find? (f · = .eq)
      | .eq => some middle
      | .gt => front.find? (f · = .eq) := by
  have hfront (hm : f middle ≠ .gt) : front.find? (f · = .eq) = none := by
    rw [List.find?_eq_none]
    intro a ha
    rw [h.lt_of_mem_front hm a ha]
    decide
  have hback (hm : f middle ≠ .lt) : back.find? (f · = .eq) = none := by
    rw [List.find?_eq_none]
    intro b hb
    rw [h.gt_of_mem_back hm b hb]
    decide
  rw [List.find?_append, List.find?_cons]
  cases hm : f middle with
  | lt => simp [hfront (by simp [hm])]
  | eq => simp [hfront (by simp [hm])]
  | gt => simp [hback (by simp [hm])]

end Middle

variable {l : List α}

/-- Any element tells in which part to look on. -/
theorem Ascends.find?_eq (h : Ascends f l) {place : Nat} (hplace : place < l.length) :
    l.find? (f · = .eq) =
      match f l[place] with
      | .lt => (l.drop (place + 1)).find? (f · = .eq)
      | .eq => some l[place]
      | .gt => (l.take place).find? (f · = .eq) := by
  have hsplit : l.take place ++ l[place] :: l.drop (place + 1) = l := by
    rw [← List.drop_eq_getElem_cons hplace, List.take_append_drop]
  have hparts : Ascends f (l.take place ++ l[place] :: l.drop (place + 1)) := by
    rw [hsplit]
    exact h
  have hfind := hparts.find?_append_cons
  rwa [hsplit] at hfind

theorem Ascends.sublist {part : List α} (h : Ascends f l) (hpart : part.Sublist l) :
    Ascends f part :=
  List.Pairwise.sublist hpart h

/-- Halving finds what a look at every element finds. -/
theorem bisect_eq_find? (h : Ascends f l) : bisect f l = l.find? (f · = .eq) := by
  fun_induction bisect f l with
  | case1 l half hhalf hlt ih =>
    rw [ih (h.sublist (List.drop_sublist _ l)), h.find?_eq hhalf, hlt]
  | case2 l half hhalf heq => rw [h.find?_eq hhalf, heq]
  | case3 l half hhalf hgt ih =>
    rw [ih (h.sublist (List.take_sublist _ l)), h.find?_eq hhalf, hgt]
  | case4 l half hhalf =>
    obtain rfl : l = [] := List.eq_nil_of_length_eq_zero (by omega)
    rfl

end Readout
