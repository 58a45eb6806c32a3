import Mathlib.Tactic.ByContra
import Readout.Playback

/-!
# Handles and their flags

A playback is looked at through its handles: `Playback.flag?` is the flag behind a handle that is
still there. Seen this way every operation does at most three things: it makes one handle, it sets
the flag behind one handle, it gives one handle up. `Operation.made?`, `Operation.cancelled?` and
`Operation.disposed?` read off the operation which, and `effect_of_perform?` says that nothing else
happens.
-/

namespace Readout

/-- A schedule by its slot or a token by its number. -/
inductive Handle
  | schedule (slot : Nat)
  | token (number : Nat)
  deriving DecidableEq

namespace Operation

variable {κ : Type}

/-- Whether the operation makes a schedule. -/
def makesSchedule : Operation κ → Bool
  | schedule _ | copy _ => true
  | _ => false

/-- Whether the operation makes a token. -/
def makesToken : Operation κ → Bool
  | handle _ | token | copyToken _ => true
  | _ => false

/-- The handle that the operation makes where so many schedules and tokens were made before. -/
def made? (schedules tokens : Nat) : Operation κ → Option Handle
  | schedule _ | copy _ => some (.schedule schedules)
  | handle _ | token | copyToken _ => some (.token tokens)
  | _ => none

/-- The handle that the new one is obtained from; none where it starts a family. -/
def source? : Operation κ → Option Handle
  | copy slot | handle slot => some (.schedule slot)
  | copyToken number => some (.token number)
  | _ => none

/-- Whether the operation makes a handle that is obtained from no other. -/
def startsFamily : Operation κ → Bool
  | schedule _ | token => true
  | _ => false

/-- The handle that is cancelled. -/
def cancelled? : Operation κ → Option Handle
  | cancel slot | dispose slot => some (.schedule slot)
  | cancelToken number => some (.token number)
  | _ => none

/-- The handle that is given up. -/
def disposed? : Operation κ → Option Handle
  | dispose slot => some (.schedule slot)
  | _ => none

theorem cancelled?_of_disposed? {op : Operation κ} {x : Handle} (h : op.disposed? = some x) :
    op.cancelled? = some x := by
  cases op with
  | dispose slot => exact h
  | _ => cases h

theorem cancelled?_of_made? {op : Operation κ} {schedules tokens : Nat} {x : Handle}
    (h : op.made? schedules tokens = some x) : op.cancelled? = none := by
  cases op with
  | cancel _ | dispose _ | cancelToken _ => cases h
  | _ => rfl

/-- A handle that is obtained from no other starts a family. -/
theorem startsFamily_of_made? {op : Operation κ} {schedules tokens : Nat} {x : Handle}
    (h : op.made? schedules tokens = some x) (hsource : op.source? = none) :
    op.startsFamily = true := by
  cases op with
  | schedule _ | token => rfl
  | copy _ | handle _ | copyToken _ => cases hsource
  | _ => cases h

end Operation

namespace Playback

variable {κ : Type}

/-- The flag behind a handle that is still there. -/
def flag? (p : Playback κ) : Handle → Option Nat
  | .schedule slot => (p.schedule? slot).map (·.flag)
  | .token number => p.tokens[number]?

/-- Whether a handle that is still there was cancelled, as it reports itself. -/
def reports? (p : Playback κ) : Handle → Option Bool
  | .schedule slot => (p.schedule? slot).map p.isCancelled
  | .token number => p.tokens[number]?.map p.isSet

theorem reports?_eq_map (p : Playback κ) (x : Handle) : p.reports? x = (p.flag? x).map p.isSet := by
  cases x with
  | schedule slot => exact (Option.map_map p.isSet (·.flag) (p.schedule? slot)).symm
  | token number => rfl

/-! ## Views of a changed playback -/

theorem getElem?_concat {β : Type} (l : List β) (a : β) (i : Nat) :
    (l ++ [a])[i]? = if i = l.length then some a else l[i]? := by
  rcases Nat.lt_trichotomy i l.length with h | h | h
  · rw [List.getElem?_append_left h, if_neg (Nat.ne_of_lt h)]
  · rw [h, List.getElem?_concat_length, if_pos rfl]
  · rw [if_neg (Nat.ne_of_gt h), List.getElem?_eq_none (Nat.le_of_lt h), List.getElem?_eq_none]
    rw [List.length_append, List.length_singleton]
    exact h

theorem flag?_append_schedule (p : Playback κ) (flags : List Bool) (s : Schedule κ) (x : Handle) :
    flag? { p with flags := flags, schedules := p.schedules ++ [some s] } x =
      if .schedule p.schedules.length = x then some s.flag else p.flag? x := by
  cases x with
  | schedule slot =>
    show ((p.schedules ++ [some s])[slot]?.join).map _ = _
    rw [getElem?_concat]
    by_cases h : slot = p.schedules.length
    · simp [h]
    · simp [h, Ne.symm h, flag?, schedule?]
  | token number => rfl

theorem flag?_append_token (p : Playback κ) (flags : List Bool) (flag : Nat) (x : Handle) :
    flag? { p with flags := flags, tokens := p.tokens ++ [flag] } x =
      if .token p.tokens.length = x then some flag else p.flag? x := by
  cases x with
  | schedule slot => rfl
  | token number =>
    show (p.tokens ++ [flag])[number]? = _
    rw [getElem?_concat]
    simp [flag?, eq_comm]

theorem flag?_setFlag (p : Playback κ) (flag : Nat) (x : Handle) :
    (p.setFlag flag).flag? x = p.flag? x := by
  cases x <;> rfl

theorem flag?_set_schedule {p : Playback κ} {slot : Nat} {s : Schedule κ}
    (h : p.schedule? slot = some s) (flags : List Bool) (new : Option (Schedule κ)) (x : Handle) :
    flag? { p with flags := flags, schedules := p.schedules.set slot new } x =
      if .schedule slot = x then new.map (·.flag) else p.flag? x := by
  cases x with
  | schedule other =>
    have hlt : slot < p.schedules.length := by
      by_contra hn
      simp [schedule?, List.getElem?_eq_none (Nat.not_lt.mp hn)] at h
    show ((p.schedules.set slot new)[other]?.join).map _ = _
    by_cases hother : other = slot
    · simp [hother, hlt]
    · simp [Ne.symm hother, List.getElem?_set_ne (Ne.symm hother), flag?, schedule?]
  | token number => rfl

theorem getD_append_false (flags : List Bool) (flag : Nat) :
    (flags ++ [false]).getD flag false = flags.getD flag false := by
  simp only [List.getD_eq_getElem?_getD]
  rw [getElem?_concat]
  by_cases h : flag = flags.length <;> simp [h]

theorem getD_set_true {flags : List Bool} {flag : Nat} (h : flag < flags.length) (other : Nat) :
    (flags.set flag true).getD other false = true ↔
      flags.getD other false = true ∨ other = flag := by
  simp only [List.getD_eq_getElem?_getD]
  by_cases hother : other = flag
  · simp [hother, h]
  · simp [hother, List.getElem?_set_ne (Ne.symm hother)]

theorem flag?_of_schedule? {p : Playback κ} {slot : Nat} {s : Schedule κ}
    (h : p.schedule? slot = some s) : p.flag? (.schedule slot) = some s.flag := by
  simp [flag?, h]

/-! ## What an operation does -/

/-- The flag that a new handle is put under: that of the handle it is obtained from, or else a new
one. -/
def givenFlag (p : Playback κ) (op : Operation κ) : Nat :=
  match op.source? with
  | some old => (p.flag? old).getD 0
  | none => p.flags.length

/-- All that an operation does to handles and flags. -/
structure Effect (p : Playback κ) (op : Operation κ) (q : Playback κ) : Prop where
  source : ∀ old, op.source? = some old → ∃ flag, p.flag? old = some flag
  cancelled : ∀ old, op.cancelled? = some old → ∃ flag, p.flag? old = some flag
  flag?_eq : ∀ x, q.flag? x =
    if op.made? p.schedules.length p.tokens.length = some x then some (p.givenFlag op)
    else if op.disposed? = some x then none
    else p.flag? x
  schedules_length : q.schedules.length = p.schedules.length + op.makesSchedule.toNat
  tokens_length : q.tokens.length = p.tokens.length + op.makesToken.toNat
  flags_eq : q.flags = match op.cancelled?.bind p.flag? with
    | some flag => p.flags.set flag true
    | none => if op.startsFamily then p.flags ++ [false] else p.flags

theorem effect_of_perform? {p q : Playback κ} {op : Operation κ} (h : p.perform? op = some q) :
    Effect p op q := by
  cases op with
  | schedule tasks =>
    obtain rfl := Option.some.inj h
    refine ⟨nofun, nofun, fun x => ?_, List.length_append, rfl, rfl⟩
    rw [flag?_append_schedule]
    simp [Operation.made?, Operation.disposed?, givenFlag, Operation.source?, Schedule.ofTasks]
  | copy slot =>
    obtain ⟨s, hs, hq⟩ := Option.bind_eq_some_iff.mp h
    obtain rfl := Option.some.inj hq
    have hflag := flag?_of_schedule? hs
    refine ⟨?_, nofun, fun x => ?_, List.length_append, rfl, rfl⟩
    · rintro _ ⟨⟩
      exact ⟨_, hflag⟩
    · rw [flag?_append_schedule]
      simp [Operation.made?, Operation.disposed?, givenFlag, Operation.source?, hflag]
  | push slot task =>
    obtain ⟨s, hs, hq⟩ := Option.bind_eq_some_iff.mp h
    obtain rfl := Option.some.inj hq
    refine ⟨nofun, nofun, fun x => ?_, List.length_set, rfl, rfl⟩
    rw [flag?_set_schedule hs]
    by_cases hx : .schedule slot = x
    · subst hx
      simp [Operation.made?, Operation.disposed?, flag?_of_schedule? hs, Schedule.push]
    · simp [Operation.made?, Operation.disposed?, hx]
  | handle slot =>
    obtain ⟨s, hs, hq⟩ := Option.bind_eq_some_iff.mp h
    obtain rfl := Option.some.inj hq
    have hflag := flag?_of_schedule? hs
    refine ⟨?_, nofun, fun x => ?_, rfl, List.length_append, rfl⟩
    · rintro _ ⟨⟩
      exact ⟨_, hflag⟩
    · rw [flag?_append_token]
      simp [Operation.made?, Operation.disposed?, givenFlag, Operation.source?, hflag]
  | cancel slot =>
    obtain ⟨s, hs, hq⟩ := Option.bind_eq_some_iff.mp h
    obtain rfl := Option.some.inj hq
    have hflag := flag?_of_schedule? hs
    refine ⟨nofun, ?_, fun x => ?_, rfl, rfl, ?_⟩
    · rintro _ ⟨⟩
      exact ⟨_, hflag⟩
    · rw [flag?_setFlag]
      simp [Operation.made?, Operation.disposed?]
    · simp [Operation.cancelled?, hflag, setFlag]
  | dispose slot =>
    obtain ⟨s, hs, hq⟩ := Option.bind_eq_some_iff.mp h
    obtain rfl := Option.some.inj hq
    have hflag := flag?_of_schedule? hs
    refine ⟨nofun, ?_, fun x => ?_, List.length_set, rfl, ?_⟩
    · rintro _ ⟨⟩
      exact ⟨_, hflag⟩
    · exact (flag?_set_schedule hs _ none x).trans (by simp [Operation.made?, Operation.disposed?])
    · simp [Operation.cancelled?, hflag, setFlag]
  | token =>
    obtain rfl := Option.some.inj h
    refine ⟨nofun, nofun, fun x => ?_, rfl, List.length_append, rfl⟩
    rw [flag?_append_token]
    simp [Operation.made?, Operation.disposed?, givenFlag, Operation.source?]
  | copyToken number =>
    obtain ⟨flag, hflag, hq⟩ := Option.bind_eq_some_iff.mp h
    obtain rfl := Option.some.inj hq
    refine ⟨?_, nofun, fun x => ?_, rfl, List.length_append, rfl⟩
    · rintro _ ⟨⟩
      exact ⟨_, hflag⟩
    · rw [flag?_append_token]
      have hold : p.flag? (.token number) = some flag := hflag
      simp [Operation.made?, Operation.disposed?, givenFlag, Operation.source?, hold]
  | cancelToken number =>
    obtain ⟨flag, hflag, hq⟩ := Option.bind_eq_some_iff.mp h
    obtain rfl := Option.some.inj hq
    have hold : p.flag? (.token number) = some flag := hflag
    refine ⟨nofun, ?_, fun x => ?_, rfl, rfl, ?_⟩
    · rintro _ ⟨⟩
      exact ⟨_, hold⟩
    · rw [flag?_setFlag]
      simp [Operation.made?, Operation.disposed?]
    · simp [Operation.cancelled?, hold, setFlag]

namespace Effect

variable {p q : Playback κ} {op : Operation κ}

theorem length_flags_le (e : Effect p op q) : p.flags.length ≤ q.flags.length := by
  rw [e.flags_eq]
  split
  · exact Nat.le_of_eq List.length_set.symm
  · split
    · rw [List.length_append]
      exact Nat.le_add_right _ _
    · exact Nat.le_refl _

theorem length_flags_lt (e : Effect p op q) (hnone : op.cancelled? = none)
    (h : op.startsFamily = true) : p.flags.length < q.flags.length := by
  rw [e.flags_eq, hnone, Option.bind_none, h, if_pos rfl, List.length_append]
  exact Nat.lt_succ_self _

/-- The flags that are set afterwards: those set before and the one behind the cancelled handle. -/
theorem isSet_iff (e : Effect p op q)
    (hlt : ∀ x flag, p.flag? x = some flag → flag < p.flags.length) (flag : Nat) :
    q.isSet flag = true ↔
      p.isSet flag = true ∨ ∃ old, op.cancelled? = some old ∧ p.flag? old = some flag := by
  unfold isSet
  rw [e.flags_eq]
  cases hold : op.cancelled? with
  | none =>
    rw [Option.bind_none]
    have hflags : (if op.startsFamily then p.flags ++ [false] else p.flags).getD flag false =
        p.flags.getD flag false := by
      split
      · exact getD_append_false p.flags flag
      · rfl
    show (if op.startsFamily then p.flags ++ [false] else p.flags).getD flag false = true ↔ _
    rw [hflags]
    simp
  | some old =>
    obtain ⟨f, hf⟩ := e.cancelled old hold
    rw [Option.bind_some, hf]
    simp only [Option.some.injEq, exists_eq_left', hf]
    rw [getD_set_true (hlt old f hf)]
    exact or_congr_right eq_comm

end Effect

end Playback

end Readout
