import Readout.Proofs.Playback.Families
import Readout.Proofs.Timeline.Tasks

/-!
# Task lists and their schedules

Each task keeps the flag that it was scheduled under. Copies share flags but not tasks, so that a
task could outlive its schedule; that it does not is an invariant: a schedule has only tasks under
its own flag (`Schedule.Owns`). `schedule?_of_perform?` says what an operation does to the schedules:
it makes one, gives one up, or puts a task at the end of one. From it the invariant is kept by every
operation (`owns_of_perform?`) and every run (`owns_of_run?`), and a schedule that stays has the tasks
it had and behind them those pushed on it since (`schedule?_of_run?`).
-/

namespace Readout

variable {κ : Type}

/-! ## Schedules -/

/-- The schedule's tasks are under its own flag. -/
def Schedule.Owns (s : Schedule κ) : Prop := ∀ t ∈ s.tasks, t.flag = s.flag

/-- Adds tasks one after the other. -/
def Schedule.pushAll (s : Schedule κ) (tasks : List (Task κ)) : Schedule κ :=
  tasks.foldl Schedule.push s

@[simp] theorem Schedule.pushAll_nil (s : Schedule κ) : s.pushAll [] = s := rfl

theorem Schedule.pushAll_append (s : Schedule κ) (tasks more : List (Task κ)) :
    s.pushAll (tasks ++ more) = (s.pushAll tasks).pushAll more := List.foldl_append

theorem Schedule.pushAll_eq (s : Schedule κ) (tasks : List (Task κ)) :
    s.pushAll tasks = ⟨s.tasks ++ tasks.map fun t => ⟨t, s.flag⟩, s.flag⟩ := by
  induction tasks generalizing s with
  | nil => rw [pushAll_nil, List.map_nil, List.append_nil]
  | cons t tasks ih =>
    show (s.push t).pushAll tasks = _
    rw [ih, push, List.append_assoc]
    rfl

theorem Schedule.Owns.pushAll {s : Schedule κ} (h : s.Owns) (tasks : List (Task κ)) :
    (s.pushAll tasks).Owns := by
  intro t ht
  rw [pushAll_eq] at ht ⊢
  rcases List.mem_append.mp ht with hold | hnew
  · exact h t hold
  · obtain ⟨task, -, rfl⟩ := List.mem_map.mp hnew
    rfl

/-- A schedule of tasks is what pushing them on an empty one gives. -/
theorem Schedule.ofTasks_eq_pushAll (flag : Nat) (tasks : List (Task κ)) :
    Schedule.ofTasks flag tasks = (Schedule.ofTasks flag []).pushAll tasks := by
  rw [pushAll_eq]
  rfl

theorem Schedule.owns_ofTasks (flag : Nat) (tasks : List (Task κ)) :
    (Schedule.ofTasks flag tasks).Owns := by
  have hempty : (Schedule.ofTasks flag ([] : List (Task κ))).Owns := nofun
  rw [ofTasks_eq_pushAll]
  exact hempty.pushAll tasks

theorem Schedule.map_task_pushAll (s : Schedule κ) (tasks : List (Task κ)) :
    (s.pushAll tasks).tasks.map (·.task) = s.tasks.map (·.task) ++ tasks := by
  rw [pushAll_eq, List.map_append, List.map_map]
  exact congrArg (s.tasks.map (·.task) ++ ·) (List.map_id tasks)

/-! ## What an operation does to schedules -/

/-- The tasks that the operation puts on the schedule in a slot. -/
def Operation.pushedTo (slot : Nat) : Operation κ → List (Task κ)
  | push other task => if other = slot then [task] else []
  | _ => []

namespace Playback

/-- The schedule that the operation makes. -/
def madeSchedule? (p : Playback κ) : Operation κ → Option (Schedule κ)
  | .schedule tasks => some (.ofTasks p.flags.length tasks)
  | .copy slot => p.schedule? slot
  | _ => none

theorem schedule?_of_le {p : Playback κ} {slot : Nat} (h : p.schedules.length ≤ slot) :
    p.schedule? slot = none := by
  rw [schedule?, List.getElem?_eq_none h]
  rfl

theorem lt_of_schedule? {p : Playback κ} {slot : Nat} {s : Schedule κ}
    (h : p.schedule? slot = some s) : slot < p.schedules.length := by
  by_contra hn
  rw [schedule?_of_le (Nat.not_lt.mp hn)] at h
  cases h

theorem schedule?_append (p : Playback κ) (flags : List Bool) (s : Schedule κ) (slot : Nat) :
    schedule? { p with flags := flags, schedules := p.schedules ++ [some s] } slot =
      if slot = p.schedules.length then some s else p.schedule? slot := by
  show (p.schedules ++ [some s])[slot]?.join = _
  rw [getElem?_concat]
  split <;> rfl

theorem schedule?_set {p : Playback κ} {slot : Nat} {s : Schedule κ}
    (h : p.schedule? slot = some s) (flags : List Bool) (new : Option (Schedule κ)) (other : Nat) :
    schedule? { p with flags := flags, schedules := p.schedules.set slot new } other =
      if slot = other then new else p.schedule? other := by
  have hlt := lt_of_schedule? h
  show (p.schedules.set slot new)[other]?.join = _
  rw [List.getElem?_set]
  by_cases hother : slot = other
  · rw [if_pos hother, if_pos hother, if_pos hlt]
    rfl
  · rw [if_neg hother, if_neg hother]
    rfl

/-- An operation that makes no schedule, gives none up and puts no task on it leaves a slot as it
is. -/
theorem schedule?_untouched {p : Playback κ} {op : Operation κ} {slot : Nat}
    (hmade : p.madeSchedule? op = none) (hdisposed : op.disposed? = none)
    (hpushed : op.pushedTo slot = []) : p.schedule? slot =
      if slot = p.schedules.length then p.madeSchedule? op
      else if op.disposed? = some (.schedule slot) then none
      else (p.schedule? slot).map (·.pushAll (op.pushedTo slot)) := by
  by_cases hslot : slot = p.schedules.length
  · rw [if_pos hslot, hmade, schedule?_of_le (Nat.le_of_eq hslot.symm)]
  · simp [hslot, hdisposed, hpushed]

/-- All that an operation does to the schedules: it makes the one in the next slot, gives one up, or
puts tasks at the end of one. -/
theorem schedule?_of_perform? {p q : Playback κ} {op : Operation κ} (h : p.perform? op = some q)
    (slot : Nat) : q.schedule? slot =
      if slot = p.schedules.length then p.madeSchedule? op
      else if op.disposed? = some (.schedule slot) then none
      else (p.schedule? slot).map (·.pushAll (op.pushedTo slot)) := by
  have hnext := schedule?_of_le (Nat.le_refl p.schedules.length)
  cases op with
  | schedule tasks =>
    obtain rfl := Option.some.inj h
    rw [schedule?_append]
    simp [madeSchedule?, Operation.disposed?, Operation.pushedTo]
  | copy old =>
    obtain ⟨s, hs, hq⟩ := Option.bind_eq_some_iff.mp h
    obtain rfl := Option.some.inj hq
    rw [schedule?_append]
    simp [madeSchedule?, hs, Operation.disposed?, Operation.pushedTo]
  | push other task =>
    obtain ⟨s, hs, hq⟩ := Option.bind_eq_some_iff.mp h
    obtain rfl := Option.some.inj hq
    have hne := Nat.ne_of_lt (lt_of_schedule? hs)
    rw [schedule?_set hs]
    by_cases hother : other = slot
    · subst hother
      simp [hne, hs, Operation.disposed?, Operation.pushedTo, Schedule.pushAll]
    · by_cases hslot : slot = p.schedules.length
      · simp [hslot, hnext, hne, madeSchedule?]
      · simp [hother, hslot, Operation.disposed?, Operation.pushedTo]
  | dispose other =>
    obtain ⟨s, hs, hq⟩ := Option.bind_eq_some_iff.mp h
    obtain rfl := Option.some.inj hq
    have hne := Nat.ne_of_lt (lt_of_schedule? hs)
    refine (schedule?_set hs _ none slot).trans ?_
    by_cases hslot : slot = p.schedules.length
    · simp [hslot, hnext, hne, madeSchedule?]
    · simp [hslot, Operation.disposed?, Operation.pushedTo]
  | handle _ | cancel _ | copyToken _ | cancelToken _ =>
    obtain ⟨_, -, hq⟩ := Option.bind_eq_some_iff.mp h
    obtain rfl := Option.some.inj hq
    exact schedule?_untouched rfl rfl rfl
  | token =>
    obtain rfl := Option.some.inj h
    exact schedule?_untouched rfl rfl rfl

/-! ## Tasks under the flag of their schedule -/

/-- Every schedule has only tasks under its own flag. -/
def AllOwn (p : Playback κ) : Prop := ∀ slot s, p.schedule? slot = some s → s.Owns

theorem allOwn_empty : (∅ : Playback κ).AllOwn := by
  intro slot s hs
  exact absurd (lt_of_schedule? hs) (Nat.not_lt_zero slot)

variable {p q : Playback κ} {op : Operation κ} {run : List (Operation κ)} {slot : Nat}
  {s s' : Schedule κ}

theorem AllOwn.owns_madeSchedule? (hp : p.AllOwn) (h : p.madeSchedule? op = some s) : s.Owns := by
  cases op with
  | schedule tasks =>
    obtain rfl := Option.some.inj h
    exact Schedule.owns_ofTasks _ tasks
  | copy old => exact hp old s h
  | _ => cases h

theorem AllOwn.of_perform? (hp : p.AllOwn) (h : p.perform? op = some q) : q.AllOwn := by
  intro slot s hs
  rw [schedule?_of_perform? h] at hs
  split at hs
  · exact hp.owns_madeSchedule? hs
  · split at hs
    · cases hs
    · obtain ⟨old, hold, rfl⟩ := Option.map_eq_some_iff.mp hs
      exact (hp slot old hold).pushAll _

theorem AllOwn.of_run? (hp : p.AllOwn) (h : p.run? run = some q) : q.AllOwn := by
  induction run generalizing p with
  | nil =>
    obtain rfl := Option.some.inj h
    exact hp
  | cons op run ih =>
    obtain ⟨next, hnext, hrest⟩ := Option.bind_eq_some_iff.mp h
    exact ih (hp.of_perform? hnext) hrest

theorem owns_of_run? (h : run? ∅ run = some p) (hs : p.schedule? slot = some s) : s.Owns :=
  allOwn_empty.of_run? h slot s hs

theorem isLive_of_owns (h : s.Owns) {t : ScheduledTask κ} (ht : t ∈ s.tasks) :
    p.isLive t = !p.isCancelled s := by
  rw [isLive, isCancelled, h t ht]

theorem isLive_of_isCancelled (h : s.Owns) (hcancelled : p.isCancelled s = true) :
    ∀ t ∈ s.tasks, p.isLive t = false := by
  intro t ht
  rw [isLive_of_owns h ht, hcancelled]
  rfl

theorem sounding?_of_isCancelled (h : s.Owns) (hcancelled : p.isCancelled s = true)
    (elapsed : Duration) : p.sounding? elapsed s.tasks = some [] := by
  have hdead := isLive_of_isCancelled h hcancelled
  rw [sounding?_eq_filter fun t ht hlive => absurd hlive (by simp [hdead t ht])]
  refine congrArg some (List.filter_eq_nil_iff.mpr fun t ht => ?_)
  simp [hdead t ht]

/-- A schedule is cancelled once a handle of its family was. -/
theorem Tracks.isCancelled_of_sameFamily {flagOf : Handle → Nat} (h : Tracks flagOf run p)
    (hop : op ∈ run) {x : Handle} (hx : op.cancelled? = some x)
    (hfamily : SameFamily run x (.schedule slot)) (hs : p.schedule? slot = some s) :
    p.isCancelled s = true := by
  obtain ⟨-, hflag⟩ := h.madeIn_of_flag? (flag?_of_schedule? hs)
  have hsame := hfamily.eq_of_obtained h.flagOf_eq
  exact (h.isSet_iff s.flag).mpr ⟨op, hop, x, hx, hsame.trans hflag⟩

/-! ## Task lists in a run -/

/-- A schedule that stays has the tasks that it had, and behind them those that were pushed on it,
whatever else is done. -/
theorem schedule?_of_run? (h : p.run? run = some q) (hlt : slot < p.schedules.length) :
    q.schedule? slot =
      if ∃ op ∈ run, op.disposed? = some (.schedule slot) then none
      else (p.schedule? slot).map (·.pushAll (run.flatMap (·.pushedTo slot))) := by
  induction run generalizing p with
  | nil =>
    obtain rfl := Option.some.inj h
    simp
  | cons op run ih =>
    obtain ⟨next, hnext, hrest⟩ := Option.bind_eq_some_iff.mp h
    have hlt' : slot < next.schedules.length := by
      rw [(effect_of_perform? hnext).schedules_length]
      omega
    rw [ih hrest hlt', schedule?_of_perform? hnext, if_neg (Nat.ne_of_lt hlt)]
    by_cases hdisposed : op.disposed? = some (.schedule slot)
    · simp [hdisposed]
    · simp [hdisposed, Schedule.pushAll_append, Function.comp_def]

/-- Whatever the tasks, they can be pushed one after the other. -/
theorem exists_run?_pushes (hs : p.schedule? slot = some s) (tasks : List (Task κ)) :
    ∃ q, p.run? (tasks.map (.push slot)) = some q ∧
      q.schedule? slot = some (s.pushAll tasks) := by
  induction tasks generalizing p s with
  | nil => exact ⟨p, rfl, hs⟩
  | cons t tasks ih =>
    have hpush : p.perform? (.push slot t) =
        some { p with schedules := p.schedules.set slot (some (s.push t)) } := by
      rw [perform?, hs]
      rfl
    obtain ⟨q, hq, hschedule⟩ := ih ((schedule?_set hs p.flags _ slot).trans (if_pos rfl))
    refine ⟨q, ?_, hschedule⟩
    rw [List.map_cons, run?, List.foldlM_cons, hpush]
    exact hq

theorem eq_pushAll_of_run? (h : p.run? run = some q) (hs : p.schedule? slot = some s)
    (hs' : q.schedule? slot = some s') : s' = s.pushAll (run.flatMap (·.pushedTo slot)) := by
  rw [schedule?_of_run? h (lt_of_schedule? hs), hs] at hs'
  split at hs'
  · cases hs'
  · exact (Option.some.inj hs').symm

/-! ## Cancelling and pushing -/

theorem flags_of_push {task : Task κ} (h : p.perform? (.push slot task) = some q) :
    q.flags = p.flags := (effect_of_perform? h).flags_eq

/-- A push is not seen through any handle. -/
theorem reports?_of_push {task : Task κ} (h : p.perform? (.push slot task) = some q) (x : Handle) :
    q.reports? x = p.reports? x := by
  have hset : q.isSet = p.isSet := by
    funext flag
    rw [isSet, isSet, flags_of_push h]
  rw [reports?_eq_map, reports?_eq_map, (effect_of_perform? h).flag?_eq, hset]
  simp [Operation.made?, Operation.disposed?]

theorem schedule?_of_push {task : Task κ} (h : p.perform? (.push slot task) = some q) :
    (∃ s, p.schedule? slot = some s ∧
      q.schedule? slot = some ⟨s.tasks ++ [⟨task, s.flag⟩], s.flag⟩) ∧
    ∀ other, other ≠ slot → q.schedule? other = p.schedule? other := by
  obtain ⟨s, hs, hq⟩ := Option.bind_eq_some_iff.mp h
  obtain rfl := Option.some.inj hq
  refine ⟨⟨s, hs, ?_⟩, fun other hother => ?_⟩
  · rw [schedule?_set hs, if_pos rfl]
    rfl
  · rw [schedule?_set hs, if_neg hother.symm]

/-- **Tasks fall silent with their schedule.** Wherever a run leads, the tasks of a schedule that is
still there, pushed on it before or after it was cancelled or copied with it, are live exactly if it
was not cancelled, and a cancelled schedule sounds nothing at any time. So cancelling any handle
silences all schedules of its family that are there then or are made from it later. A push puts one
task at the end of one schedule, sets no flag and changes no report. Any other operation leaves the
tasks of a schedule as they are, unless it gives the schedule up. -/
theorem tasks_live_with_schedule (h : run? ∅ run = some p) :
    (∀ slot s, p.schedule? slot = some s →
      (∀ t ∈ s.tasks, p.isLive t = !p.isCancelled s) ∧
      (p.isCancelled s = true → ∀ elapsed, p.sounding? elapsed s.tasks = some [])) ∧
    (∀ op ∈ run, ∀ x slot s, op.cancelled? = some x → SameFamily run x (.schedule slot) →
      p.schedule? slot = some s →
      (∀ t ∈ s.tasks, p.isLive t = false) ∧ ∀ elapsed, p.sounding? elapsed s.tasks = some []) ∧
    (∀ slot task q, p.perform? (.push slot task) = some q →
      ((∃ s, p.schedule? slot = some s ∧
        q.schedule? slot = some ⟨s.tasks ++ [⟨task, s.flag⟩], s.flag⟩) ∧
      ∀ other, other ≠ slot → q.schedule? other = p.schedule? other) ∧
      q.flags = p.flags ∧ ∀ x, q.reports? x = p.reports? x) ∧
    ∀ op q slot s, p.perform? op = some q → p.schedule? slot = some s →
      op.pushedTo slot = [] → op.disposed? ≠ some (.schedule slot) →
      q.schedule? slot = some s := by
  refine ⟨fun slot s hs => ?_, fun op hop x slot s hx hfamily hs => ?_, fun slot task q hq => ?_,
    fun op q slot s hq hs hpushed hdisposed => ?_⟩
  · have howns := owns_of_run? h hs
    exact ⟨fun t => isLive_of_owns howns, sounding?_of_isCancelled howns⟩
  · have howns := owns_of_run? h hs
    obtain ⟨flagOf, htracks, -⟩ := tracks_empty.run h
    have hcancelled := htracks.isCancelled_of_sameFamily hop hx hfamily hs
    exact ⟨isLive_of_isCancelled howns hcancelled, sounding?_of_isCancelled howns hcancelled⟩
  · exact ⟨schedule?_of_push hq, flags_of_push hq, reports?_of_push hq⟩
  · rw [schedule?_of_perform? hq, if_neg (Nat.ne_of_lt (lt_of_schedule? hs)), if_neg hdisposed, hs,
      hpushed]
    rfl

/-- A second of sound, from the start. -/
def firstSecond : Task String := ⟨.zero, ⟨10 ^ 9, by decide⟩, "do"⟩

/-- A schedule and its copy, which is cancelled through its token and then gets one more task. -/
def cancelledCopy : List (Operation String) :=
  [.schedule [firstSecond], .copy 0, .handle 1, .cancelToken 0, .push 1 firstSecond]

/-- Both schedules fall silent, also with the task that the copy got after that; and one more task
on the copy leaves the other schedule as it is. -/
theorem cancelledCopy_silent :
    ∃ p, run? ∅ cancelledCopy = some p ∧
      SameFamily cancelledCopy (.token 0) (.schedule 0) ∧
      (∃ s, p.schedule? 0 = some s ∧ s.tasks.length = 1 ∧
        (∀ t ∈ s.tasks, p.isLive t = false) ∧ ∀ elapsed, p.sounding? elapsed s.tasks = some []) ∧
      (∃ s, p.schedule? 1 = some s ∧ s.tasks.length = 2 ∧
        ∀ t ∈ s.tasks, p.isLive t = !p.isCancelled s) ∧
      ∃ q, p.perform? (.push 1 firstSecond) = some q ∧ q.schedule? 0 = p.schedule? 0 := by
  have hrun : run? ∅ cancelledCopy = some ⟨[true], [some ⟨[⟨firstSecond, 0⟩], 0⟩,
      some ⟨[⟨firstSecond, 0⟩, ⟨firstSecond, 0⟩], 0⟩], [0]⟩ := rfl
  have hcopy : Obtained cancelledCopy (.schedule 0) (.schedule 1) :=
    ⟨[.schedule [firstSecond]], .copy 0, _, rfl, rfl, rfl⟩
  have htoken : Obtained cancelledCopy (.schedule 1) (.token 0) :=
    ⟨[.schedule [firstSecond], .copy 0], .handle 1, _, rfl, rfl, rfl⟩
  have hfamily : SameFamily cancelledCopy (.token 0) (.schedule 0) :=
    .symm _ _ (.trans _ _ _ (.rel _ _ hcopy) (.rel _ _ htoken))
  obtain ⟨hlive, hsilent, hpush, -⟩ := tasks_live_with_schedule hrun
  have hfirst := hsilent (.cancelToken 0) (by simp [cancelledCopy]) (.token 0) 0 _ rfl hfamily rfl
  have hsecond := (hlive 1 _ rfl).1
  have hkept := (hpush 1 firstSecond _ rfl).1.2 0 (by decide)
  exact ⟨_, hrun, hfamily, ⟨_, rfl, rfl, hfirst⟩, ⟨_, rfl, rfl, hsecond⟩, _, rfl, hkept⟩

end Playback

end Readout
