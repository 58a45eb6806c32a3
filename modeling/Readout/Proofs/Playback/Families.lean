import Mathlib.Data.List.Basic
import Mathlib.Logic.Relation
import Readout.Proofs.Playback.Handles

/-!
# Families of handles

Handles obtained from one another form a family. `SameFamily` reads the families off the operations
of a run alone, without flags; `Tracks` ties them to the flags: handles of one family, also those
that were given up, stand for one flag, handles of different families for different ones, and a flag
is set exactly if a handle that stands for it was cancelled. Every operation keeps this
(`Tracks.perform`), so every run does (`Tracks.run`).
-/

namespace Readout

variable {κ : Type}

/-! ## What a run makes -/

/-- The number of schedules that a run makes. -/
def schedulesMade (run : List (Operation κ)) : Nat := run.countP (·.makesSchedule)

/-- The number of tokens that a run makes. -/
def tokensMade (run : List (Operation κ)) : Nat := run.countP (·.makesToken)

/-- The handle that an operation makes behind a run. -/
def Operation.madeAfter? (run : List (Operation κ)) (op : Operation κ) : Option Handle :=
  op.made? (schedulesMade run) (tokensMade run)

namespace Handle

/-- The handle is made in the run. -/
def MadeIn (run : List (Operation κ)) : Handle → Prop
  | schedule slot => slot < schedulesMade run
  | token number => number < tokensMade run

/-- The handle is made in the run and not given up again. -/
def SurvivesIn (run : List (Operation κ)) (x : Handle) : Prop :=
  x.MadeIn run ∧ ∀ op ∈ run, op.disposed? ≠ some x

theorem madeIn_concat_iff {run : List (Operation κ)} {op : Operation κ} {x : Handle} :
    x.MadeIn (run ++ [op]) ↔ x.MadeIn run ∨ op.madeAfter? run = some x := by
  cases x <;> cases op <;>
    simp [MadeIn, schedulesMade, tokensMade, Operation.madeAfter?, Operation.made?,
      Operation.makesSchedule, Operation.makesToken] <;> omega

theorem not_madeIn_of_madeAfter? {run : List (Operation κ)} {op : Operation κ} {x : Handle}
    (h : op.madeAfter? run = some x) : ¬ x.MadeIn run := by
  cases op <;> cases h <;> exact Nat.lt_irrefl _

end Handle

/-- The second handle is obtained from the first one in the run: by a copy of a schedule, as the
token of a schedule, or by a copy of a token. -/
def Obtained (run : List (Operation κ)) (old new : Handle) : Prop :=
  ∃ before op after, run = before ++ op :: after ∧
    op.source? = some old ∧ op.madeAfter? before = some new

/-- The handles are obtained from one another, in any number of steps. -/
def SameFamily (run : List (Operation κ)) : Handle → Handle → Prop :=
  Relation.EqvGen (Obtained run)

theorem obtained_concat_iff {run : List (Operation κ)} {op : Operation κ} {old new : Handle} :
    Obtained (run ++ [op]) old new ↔
      Obtained run old new ∨ (op.source? = some old ∧ op.madeAfter? run = some new) := by
  constructor
  · rintro ⟨before, op', after, hrun, hsource, hmade⟩
    rcases List.eq_nil_or_concat after with rfl | ⟨after, last, rfl⟩
    · obtain ⟨rfl, hop⟩ := List.append_inj' hrun rfl
      obtain rfl : op = op' := List.singleton_inj.mp hop
      exact .inr ⟨hsource, hmade⟩
    · rw [List.concat_eq_append, ← List.cons_append, ← List.append_assoc] at hrun
      obtain ⟨rfl, -⟩ := List.append_inj' hrun rfl
      exact .inl ⟨before, op', after, rfl, hsource, hmade⟩
  · rintro (⟨before, op', after, rfl, hsource, hmade⟩ | ⟨hsource, hmade⟩)
    · exact ⟨before, op', after ++ [op], by simp, hsource, hmade⟩
    · exact ⟨run, op, [], rfl, hsource, hmade⟩

theorem SameFamily.append {before : List (Operation κ)} {x y : Handle}
    (h : SameFamily before x y) (after : List (Operation κ)) :
    SameFamily (before ++ after) x y := by
  refine h.mono fun old new hobtained => ?_
  obtain ⟨first, op, rest, rfl, hsource, hmade⟩ := hobtained
  exact ⟨first, op, rest ++ after, by simp, hsource, hmade⟩

/-- What is the same for each handle and the one obtained from it is the same for a family. -/
theorem SameFamily.eq_of_obtained {run : List (Operation κ)} {f : Handle → Nat}
    (hf : ∀ old new, Obtained run old new → f old = f new) {x y : Handle}
    (h : SameFamily run x y) : f x = f y := by
  induction h with
  | rel _ _ hobtained => exact hf _ _ hobtained
  | refl _ => rfl
  | symm _ _ _ ih => exact ih.symm
  | trans _ _ _ _ _ ih ih' => exact ih.trans ih'

namespace Playback

/-! ## Families and flags -/

/-- The playback `p` is where the run leads to, and `flagOf` are the flags that the handles made in
it were put under. -/
structure Tracks (flagOf : Handle → Nat) (run : List (Operation κ)) (p : Playback κ) : Prop where
  schedules_length : p.schedules.length = schedulesMade run
  tokens_length : p.tokens.length = tokensMade run
  flag?_eq_some_iff : ∀ x flag, p.flag? x = some flag ↔ x.SurvivesIn run ∧ flagOf x = flag
  flagOf_lt : ∀ x, x.MadeIn run → flagOf x < p.flags.length
  madeIn_of_obtained : ∀ old new, Obtained run old new → old.MadeIn run ∧ new.MadeIn run
  madeIn_of_cancelled : ∀ op ∈ run, ∀ x, op.cancelled? = some x → x.MadeIn run
  flagOf_eq : ∀ old new, Obtained run old new → flagOf old = flagOf new
  sameFamily : ∀ x y, x.MadeIn run → y.MadeIn run → flagOf x = flagOf y → SameFamily run x y
  isSet_iff : ∀ flag, p.isSet flag = true ↔
    ∃ op ∈ run, ∃ x, op.cancelled? = some x ∧ flagOf x = flag

theorem tracks_empty : Tracks (fun _ => 0) [] (∅ : Playback κ) := by
  have hmade : ∀ x : Handle, ¬ x.MadeIn ([] : List (Operation κ)) := by
    intro x
    cases x <;> exact Nat.not_lt_zero _
  have hobtained : ∀ old new, ¬ Obtained ([] : List (Operation κ)) old new := by
    rintro old new ⟨before, op, after, hrun, -⟩
    cases before <;> cases hrun
  refine ⟨rfl, rfl, fun x flag => ?_, fun x hx => absurd hx (hmade x),
    fun old new h => absurd h (hobtained old new), nofun,
    fun old new h => absurd h (hobtained old new), fun x _ hx => absurd hx (hmade x),
    fun flag => ?_⟩
  · have hnone : (∅ : Playback κ).flag? x = none := by cases x <;> rfl
    rw [hnone]
    exact ⟨nofun, fun h => absurd h.1.1 (hmade x)⟩
  · have hunset : (∅ : Playback κ).isSet flag = false := rfl
    rw [hunset]
    exact ⟨nofun, nofun⟩

section Step

variable {flagOf : Handle → Nat} {run : List (Operation κ)} {p q : Playback κ} {op : Operation κ}

/-- The flags of the handles after one more operation. -/
def flagsAfter (flagOf : Handle → Nat) (run : List (Operation κ)) (p : Playback κ)
    (op : Operation κ) (x : Handle) : Nat :=
  if op.madeAfter? run = some x then p.givenFlag op else flagOf x

theorem flagsAfter_of_madeIn {x : Handle} (h : x.MadeIn run) :
    flagsAfter flagOf run p op x = flagOf x :=
  if_neg fun hmade => Handle.not_madeIn_of_madeAfter? hmade h

theorem flagsAfter_of_made {x : Handle} (h : op.madeAfter? run = some x) :
    flagsAfter flagOf run p op x = p.givenFlag op := if_pos h

namespace Tracks

theorem made?_eq (h : Tracks flagOf run p) :
    op.made? p.schedules.length p.tokens.length = op.madeAfter? run := by
  rw [h.schedules_length, h.tokens_length]
  rfl

/-- A handle that is still there is made in the run. -/
theorem madeIn_of_flag? (h : Tracks flagOf run p) {x : Handle} {flag : Nat}
    (hx : p.flag? x = some flag) : x.MadeIn run ∧ flagOf x = flag :=
  ((h.flag?_eq_some_iff x flag).mp hx).imp_left And.left

theorem source_madeIn (h : Tracks flagOf run p) (e : Effect p op q) {old : Handle}
    (hsource : op.source? = some old) : old.MadeIn run ∧ p.givenFlag op = flagOf old := by
  obtain ⟨flag, hflag⟩ := e.source old hsource
  obtain ⟨hmade, rfl⟩ := h.madeIn_of_flag? hflag
  refine ⟨hmade, ?_⟩
  unfold givenFlag
  simp [hsource, hflag]

theorem cancelled_madeIn (h : Tracks flagOf run p) (e : Effect p op q) :
    ∀ op' ∈ run ++ [op], ∀ x, op'.cancelled? = some x → x.MadeIn run := by
  intro op' hop x hx
  rcases List.mem_append.mp hop with hop | hop
  · exact h.madeIn_of_cancelled op' hop x hx
  · obtain rfl := List.mem_singleton.mp hop
    obtain ⟨flag, hflag⟩ := e.cancelled x hx
    exact (h.madeIn_of_flag? hflag).1

theorem step_flag? (h : Tracks flagOf run p) (e : Effect p op q) (x : Handle) (flag : Nat) :
    q.flag? x = some flag ↔
      x.SurvivesIn (run ++ [op]) ∧ flagsAfter flagOf run p op x = flag := by
  rw [e.flag?_eq, h.made?_eq]
  by_cases hmade : op.madeAfter? run = some x
  · -- a new handle was not given up before it was made
    have hkept : ∀ op' ∈ run ++ [op], op'.disposed? ≠ some x := by
      intro op' hop hdisposed
      exact Handle.not_madeIn_of_madeAfter? hmade
        (h.cancelled_madeIn e op' hop x (Operation.cancelled?_of_disposed? hdisposed))
    have hsurvives : x.SurvivesIn (run ++ [op]) :=
      ⟨Handle.madeIn_concat_iff.mpr (.inr hmade), hkept⟩
    rw [if_pos hmade, flagsAfter_of_made hmade, Option.some.injEq]
    exact ⟨fun hflag => ⟨hsurvives, hflag⟩, fun hflag => hflag.2⟩
  · have hafter : flagsAfter flagOf run p op x = flagOf x := if_neg hmade
    rw [if_neg hmade, hafter]
    by_cases hdisposed : op.disposed? = some x
    · rw [if_pos hdisposed]
      exact ⟨nofun, fun hsurvives => absurd hdisposed (hsurvives.1.2 op (by simp))⟩
    · have hsurvives : x.SurvivesIn (run ++ [op]) ↔ x.SurvivesIn run := by
        unfold Handle.SurvivesIn
        rw [Handle.madeIn_concat_iff]
        simp [hmade, hdisposed, or_imp, forall_and]
      rw [if_neg hdisposed, hsurvives]
      exact h.flag?_eq_some_iff x flag

theorem step_flagOf_lt (h : Tracks flagOf run p) (e : Effect p op q) {x : Handle}
    (hx : x.MadeIn (run ++ [op])) : flagsAfter flagOf run p op x < q.flags.length := by
  have hle := e.length_flags_le
  rcases Handle.madeIn_concat_iff.mp hx with hold | hmade
  · rw [flagsAfter_of_madeIn hold]
    exact Nat.lt_of_lt_of_le (h.flagOf_lt x hold) hle
  · rw [flagsAfter_of_made hmade]
    cases hsource : op.source? with
    | none =>
      have hgiven : p.givenFlag op = p.flags.length := by simp [givenFlag, hsource]
      rw [hgiven]
      exact e.length_flags_lt (Operation.cancelled?_of_made? hmade)
        (Operation.startsFamily_of_made? hmade hsource)
    | some old =>
      obtain ⟨hold, hgiven⟩ := h.source_madeIn e hsource
      rw [hgiven]
      exact Nat.lt_of_lt_of_le (h.flagOf_lt old hold) hle

theorem step_flagOf_eq (h : Tracks flagOf run p) (e : Effect p op q) {old new : Handle}
    (hobtained : Obtained (run ++ [op]) old new) :
    flagsAfter flagOf run p op old = flagsAfter flagOf run p op new := by
  rcases obtained_concat_iff.mp hobtained with hbefore | ⟨hsource, hmade⟩
  · obtain ⟨hold, hnew⟩ := h.madeIn_of_obtained old new hbefore
    rw [flagsAfter_of_madeIn hold, flagsAfter_of_madeIn hnew]
    exact h.flagOf_eq old new hbefore
  · obtain ⟨hold, hgiven⟩ := h.source_madeIn e hsource
    rw [flagsAfter_of_madeIn hold, flagsAfter_of_made hmade, hgiven]

/-- A new handle shares its flag with none made before, unless it is obtained from one. -/
theorem step_sameFamily_new (h : Tracks flagOf run p) (e : Effect p op q) {x y : Handle}
    (hx : op.madeAfter? run = some x) (hy : y.MadeIn run) (hflag : p.givenFlag op = flagOf y) :
    SameFamily (run ++ [op]) x y := by
  cases hsource : op.source? with
  | none =>
    have hgiven : p.givenFlag op = p.flags.length := by simp [givenFlag, hsource]
    have hlt := h.flagOf_lt y hy
    omega
  | some old =>
    obtain ⟨hold, hgiven⟩ := h.source_madeIn e hsource
    have hnew : SameFamily (run ++ [op]) old x :=
      .rel old x (obtained_concat_iff.mpr (.inr ⟨hsource, hx⟩))
    have hfamily := h.sameFamily old y hold hy (hgiven.symm.trans hflag)
    exact .trans x old y (.symm old x hnew) (hfamily.append [op])

theorem step_sameFamily (h : Tracks flagOf run p) (e : Effect p op q) {x y : Handle}
    (hx : x.MadeIn (run ++ [op])) (hy : y.MadeIn (run ++ [op]))
    (hflag : flagsAfter flagOf run p op x = flagsAfter flagOf run p op y) :
    SameFamily (run ++ [op]) x y := by
  -- at most one handle is new, so that two new ones are the same
  rcases Handle.madeIn_concat_iff.mp hx with hxold | hxnew <;>
    rcases Handle.madeIn_concat_iff.mp hy with hyold | hynew
  · rw [flagsAfter_of_madeIn hxold, flagsAfter_of_madeIn hyold] at hflag
    exact (h.sameFamily x y hxold hyold hflag).append [op]
  · rw [flagsAfter_of_madeIn hxold, flagsAfter_of_made hynew] at hflag
    exact .symm y x (h.step_sameFamily_new e hynew hxold hflag.symm)
  · rw [flagsAfter_of_made hxnew, flagsAfter_of_madeIn hyold] at hflag
    exact h.step_sameFamily_new e hxnew hyold hflag
  · obtain rfl : x = y := Option.some.inj (hxnew.symm.trans hynew)
    exact .refl x

theorem step_isSet (h : Tracks flagOf run p) (e : Effect p op q) (flag : Nat) :
    q.isSet flag = true ↔ ∃ op' ∈ run ++ [op], ∃ x, op'.cancelled? = some x ∧
      flagsAfter flagOf run p op x = flag := by
  have hlt : ∀ x flag, p.flag? x = some flag → flag < p.flags.length := by
    intro x flag hx
    obtain ⟨hmade, rfl⟩ := h.madeIn_of_flag? hx
    exact h.flagOf_lt x hmade
  rw [e.isSet_iff hlt, h.isSet_iff]
  constructor
  · rintro (⟨op', hop, x, hx, rfl⟩ | ⟨x, hx, hflag⟩)
    · have hmade := h.madeIn_of_cancelled op' hop x hx
      exact ⟨op', List.mem_append_left _ hop, x, hx, flagsAfter_of_madeIn hmade⟩
    · obtain ⟨hmade, rfl⟩ := h.madeIn_of_flag? hflag
      exact ⟨op, by simp, x, hx, flagsAfter_of_madeIn hmade⟩
  · rintro ⟨op', hop, x, hx, hflag⟩
    rw [flagsAfter_of_madeIn (h.cancelled_madeIn e op' hop x hx)] at hflag
    rcases List.mem_append.mp hop with hop | hop
    · exact .inl ⟨op', hop, x, hx, hflag⟩
    · obtain rfl := List.mem_singleton.mp hop
      obtain ⟨flag', hflag'⟩ := e.cancelled x hx
      obtain ⟨-, rfl⟩ := h.madeIn_of_flag? hflag'
      exact .inr ⟨x, hx, hflag ▸ hflag'⟩

/-- One operation: families and flags stay tied, and no handle changes its flag. -/
theorem perform (h : Tracks flagOf run p) (hq : p.perform? op = some q) :
    Tracks (flagsAfter flagOf run p op) (run ++ [op]) q := by
  have e := effect_of_perform? hq
  refine ⟨?_, ?_, h.step_flag? e, fun x => h.step_flagOf_lt e, fun old new hobtained => ?_,
    fun op' hop x hx => ?_, fun old new => h.step_flagOf_eq e, fun x y => h.step_sameFamily e,
    h.step_isSet e⟩
  · rw [e.schedules_length, h.schedules_length, schedulesMade, schedulesMade, List.countP_append,
      List.countP_singleton]
    cases op.makesSchedule <;> rfl
  · rw [e.tokens_length, h.tokens_length, tokensMade, tokensMade, List.countP_append,
      List.countP_singleton]
    cases op.makesToken <;> rfl
  · rw [Handle.madeIn_concat_iff, Handle.madeIn_concat_iff]
    rcases obtained_concat_iff.mp hobtained with hbefore | ⟨hsource, hmade⟩
    · exact (h.madeIn_of_obtained old new hbefore).imp .inl .inl
    · exact ⟨.inl (h.source_madeIn e hsource).1, .inr hmade⟩
  · exact Handle.madeIn_concat_iff.mpr (.inl (h.cancelled_madeIn e op' hop x hx))

end Tracks

end Step

/-- A whole run: families and flags are tied wherever it leads, and no handle made before changes
its flag. -/
theorem Tracks.run {flagOf : Handle → Nat} {before after : List (Operation κ)} {p q : Playback κ}
    (h : Tracks flagOf before p) (hq : p.run? after = some q) :
    ∃ flagOf', Tracks flagOf' (before ++ after) q ∧
      ∀ x, x.MadeIn before → flagOf' x = flagOf x := by
  -- from the left, since it is the operations done so far that fix the flags of their handles
  induction after generalizing flagOf before p with
  | nil =>
    obtain rfl := Option.some.inj hq
    rw [List.append_nil]
    exact ⟨flagOf, h, fun x _ => rfl⟩
  | cons op after ih =>
    obtain ⟨next, hnext, hrest⟩ := Option.bind_eq_some_iff.mp hq
    obtain ⟨flagOf', htracks, hkept⟩ := ih (h.perform hnext) hrest
    rw [List.append_assoc, List.singleton_append] at htracks
    refine ⟨flagOf', htracks, fun x hx => ?_⟩
    rw [hkept x (Handle.madeIn_concat_iff.mpr (.inl hx)), flagsAfter_of_madeIn hx]

theorem run?_append (p : Playback κ) (before after : List (Operation κ)) :
    p.run? (before ++ after) = (p.run? before).bind (·.run? after) :=
  List.foldlM_append

/-- **A handle was cancelled exactly if one of its family was.** After every beginning of a run, the
handles that report are those made and not given up, and such a handle reports that it was cancelled
exactly if an operation up to there cancelled a handle of its family, be that handle gone or not. -/
theorem cancelled_iff_family_cancelled {before after : List (Operation κ)} {last : Playback κ}
    (h : run? ∅ (before ++ after) = some last) :
    ∃ p, run? ∅ before = some p ∧ ∀ x : Handle,
      ((p.reports? x).isSome = true ↔ x.SurvivesIn before) ∧
      ∀ cancelled, p.reports? x = some cancelled →
        (cancelled = true ↔ ∃ op ∈ before, ∃ other, op.cancelled? = some other ∧
          SameFamily (before ++ after) other x) := by
  rw [run?_append] at h
  obtain ⟨p, hp, hlast⟩ := Option.bind_eq_some_iff.mp h
  obtain ⟨flagOf, htracks, -⟩ := tracks_empty.run hp
  rw [List.nil_append] at htracks
  obtain ⟨flagOf', htracks', hkept⟩ := htracks.run hlast
  refine ⟨p, hp, fun x => ⟨?_, fun cancelled hreports => ?_⟩⟩
  · rw [p.reports?_eq_map, Option.isSome_map, Option.isSome_iff_exists]
    simp only [htracks.flag?_eq_some_iff]
    exact ⟨fun ⟨_, hx, _⟩ => hx, fun hx => ⟨_, hx, rfl⟩⟩
  · rw [p.reports?_eq_map] at hreports
    obtain ⟨flag, hflag, rfl⟩ := Option.map_eq_some_iff.mp hreports
    obtain ⟨hx, rfl⟩ := htracks.madeIn_of_flag? hflag
    rw [htracks.isSet_iff]
    constructor
    · rintro ⟨op, hop, other, hother, hsame⟩
      have hmade := htracks.madeIn_of_cancelled op hop other hother
      exact ⟨op, hop, other, hother, (htracks.sameFamily other x hmade hx hsame).append after⟩
    · rintro ⟨op, hop, other, hother, hfamily⟩
      have hmade := htracks.madeIn_of_cancelled op hop other hother
      have hsame := hfamily.eq_of_obtained htracks'.flagOf_eq
      rw [hkept other hmade, hkept x hx] at hsame
      exact ⟨op, hop, other, hother, hsame⟩

/-- A schedule, its copy and the copy's token; beside them a token of its own and its copy. The
schedule is disposed of. -/
def twoFamilies : List (Operation Unit) :=
  [.schedule [], .copy 0, .handle 1, .token, .copyToken 1, .dispose 0]

/-- The copy's token reports what was done to the schedule that is gone, the other token does not,
though its family is cancelled later in the run. -/
theorem twoFamilies_reports :
    run? ∅ (twoFamilies ++ [.cancelToken 2]) =
      some ⟨[true, true], [none, some ⟨[], 0⟩], [0, 1, 1]⟩ ∧
    ∃ p, run? ∅ twoFamilies = some p ∧ p.reports? (.schedule 0) = none ∧
      p.reports? (.token 0) = some true ∧ p.reports? (.token 1) = some false ∧
      (∃ op ∈ twoFamilies, ∃ other, op.cancelled? = some other ∧
        SameFamily (twoFamilies ++ [.cancelToken 2]) other (.token 0)) ∧
      ¬ ∃ op ∈ twoFamilies, ∃ other, op.cancelled? = some other ∧
        SameFamily (twoFamilies ++ [.cancelToken 2]) other (.token 1) := by
  have hrun : run? ∅ (twoFamilies ++ [.cancelToken 2]) =
      some ⟨[true, true], [none, some ⟨[], 0⟩], [0, 1, 1]⟩ := by decide
  obtain ⟨p, hp, hreports⟩ := cancelled_iff_family_cancelled hrun
  have hstate : run? ∅ twoFamilies = some ⟨[true, false], [none, some ⟨[], 0⟩], [0, 1, 1]⟩ := by
    decide
  obtain rfl := Option.some.inj (hstate.symm.trans hp)
  refine ⟨hrun, _, hp, rfl, rfl, rfl, ?_, fun hcancelled => ?_⟩
  · exact ((hreports (.token 0)).2 true rfl).mp rfl
  · exact Bool.noConfusion (((hreports (.token 1)).2 false rfl).mpr hcancelled)

end Playback

end Readout
