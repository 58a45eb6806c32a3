import Readout.Proofs.Playback.TaskLists

/-!
# What a schedule plays

The tasks of a schedule are live together or not at all, so that what it plays is told by its task
list and one flag. A cancelled schedule asks none of its tasks anything. One that is not asks each
task that has begun for its end, and so has no answer if one of those ends is no duration; tasks that
have not begun do not matter. The total asks every task, cancelled or not. `PlaysTasks` says so for a
schedule in a playback, `Schedule.Owns.playsTasks` that it holds of every schedule with tasks under
its own flag.
-/

namespace Readout

variable {κ : Type}

/-- The total is the latest end, and zero where there are no tasks. -/
theorem Timeline.exists_total?_eq_max? {tasks : List (Task κ)}
    (h : ∀ t ∈ tasks, t.stopNanoseconds ≤ Duration.maxNanoseconds) :
    ∃ total, total? tasks = some total ∧
      total.nanoseconds = (tasks.map (·.stopNanoseconds)).max?.getD 0 := by
  obtain ⟨total, htotal, hle, hlatest⟩ := exists_total? h
  refine ⟨total, htotal, ?_⟩
  rcases hlatest with ⟨rfl, hzero⟩ | ⟨t, ht, hstop⟩
  · exact hzero
  · have hmax : (tasks.map (·.stopNanoseconds)).max? = some total.nanoseconds := by
      rw [List.max?_eq_some_iff, List.forall_mem_map]
      exact ⟨hstop ▸ List.mem_map_of_mem ht, hle⟩
    rw [hmax]
    rfl

theorem Schedule.total?_eq_none_iff (s : Schedule κ) : s.total? = none ↔
    ∃ t ∈ s.tasks, Duration.maxNanoseconds < t.task.stopNanoseconds := by
  rw [Schedule.total?, Timeline.total?_eq_none_iff]
  simp

theorem Schedule.exists_total? (s : Schedule κ)
    (h : ∀ t ∈ s.tasks, t.task.stopNanoseconds ≤ Duration.maxNanoseconds) :
    ∃ total, s.total? = some total ∧
      total.nanoseconds = (s.tasks.map (·.task.stopNanoseconds)).max?.getD 0 := by
  obtain ⟨total, htotal, hmax⟩ :=
    Timeline.exists_total?_eq_max? (List.forall_mem_map.mpr h)
  rw [List.map_map] at hmax
  exact ⟨total, htotal, hmax⟩

namespace Playback

variable {p : Playback κ} {s : Schedule κ}

/-- What a schedule plays. Cancelled, it sounds nothing at any time. Not cancelled, it has no answer
for a time exactly if a task has begun whose end is no duration, and else sounds the tasks that have
begun and not ended, in their order. Cancelled or not, it has no total exactly if the end of a task
is no duration; else the total is the latest end, zero without tasks, and from it on nothing
sounds. -/
structure PlaysTasks (p : Playback κ) (s : Schedule κ) : Prop where
  sounding_of_cancelled : p.isCancelled s = true →
    ∀ elapsed, p.sounding? elapsed s.tasks = some []
  sounding_eq_none_iff : p.isCancelled s = false → ∀ elapsed,
    (p.sounding? elapsed s.tasks = none ↔ ∃ t ∈ s.tasks,
      t.task.offset ≤ elapsed ∧ Duration.maxNanoseconds < t.task.stopNanoseconds)
  sounding_eq_filter : p.isCancelled s = false → ∀ elapsed,
    (∀ t ∈ s.tasks, t.task.offset ≤ elapsed →
      t.task.stopNanoseconds ≤ Duration.maxNanoseconds) →
    p.sounding? elapsed s.tasks = some (s.tasks.filter fun t => t.task.SoundsAt elapsed)
  total_eq_none_iff : s.total? = none ↔
    ∃ t ∈ s.tasks, Duration.maxNanoseconds < t.task.stopNanoseconds
  total_eq_max : (∀ t ∈ s.tasks, t.task.stopNanoseconds ≤ Duration.maxNanoseconds) →
    ∃ total, s.total? = some total ∧
      total.nanoseconds = (s.tasks.map (·.task.stopNanoseconds)).max?.getD 0 ∧
      ∀ elapsed, total ≤ elapsed → p.sounding? elapsed s.tasks = some []

/-- From the latest end on no task sounds. -/
theorem sounding?_of_ended {elapsed : Duration} {tasks : List (ScheduledTask κ)}
    (h : ∀ t ∈ tasks, t.task.stopNanoseconds ≤ elapsed.nanoseconds) :
    p.sounding? elapsed tasks = some [] := by
  have hends : ∀ t ∈ tasks, t.task.stopNanoseconds ≤ Duration.maxNanoseconds :=
    fun t ht => Nat.le_trans (h t ht) elapsed.nanoseconds_le
  rw [sounding?_eq_filter fun t ht _ _ => hends t ht]
  refine congrArg some (List.filter_eq_nil_iff.mpr fun t ht hsounds => ?_)
  have hbefore : t.task.SoundsAt elapsed := by simpa using (Bool.and_eq_true_iff.mp hsounds).2
  exact Nat.not_lt.mpr (h t ht) hbefore.2

theorem PlaysTasks.of_owns (h : s.Owns) : PlaysTasks p s where
  sounding_of_cancelled := sounding?_of_isCancelled h
  sounding_eq_none_iff := by
    intro hcancelled elapsed
    rw [sounding?_eq_none_iff]
    have hlive : ∀ t ∈ s.tasks, p.isLive t = true := by
      intro t ht
      rw [isLive_of_owns h ht, hcancelled]
      rfl
    exact exists_congr fun t => and_congr_right fun ht => and_iff_right (hlive t ht)
  sounding_eq_filter := by
    intro hcancelled elapsed hends
    rw [sounding?_eq_filter fun t ht _ => hends t ht]
    refine congrArg some (List.filter_congr fun t ht => ?_)
    rw [isLive_of_owns h ht, hcancelled]
    rfl
  total_eq_none_iff := s.total?_eq_none_iff
  total_eq_max := by
    intro hends
    obtain ⟨total, htotal, hmax⟩ := s.exists_total? hends
    refine ⟨total, htotal, hmax, fun elapsed hle => sounding?_of_ended fun t ht => ?_⟩
    have hstop : t.task.stopNanoseconds ≤ total.nanoseconds := by
      rw [hmax]
      exact List.le_max?_getD_of_mem (List.mem_map.mpr ⟨t, ht, rfl⟩)
    exact Nat.le_trans hstop hle

/-- **A schedule plays the tasks that were pushed on it.** Wherever a run leads, every schedule that
is still there plays its tasks as `PlaysTasks` says. A schedule that was made of some tasks has those
and behind them the ones pushed on it since, in that order, and any tasks can be pushed on one that
is there. -/
theorem schedules_play_pushed_tasks {run : List (Operation κ)} (h : run? ∅ run = some p) :
    (∀ slot s, p.schedule? slot = some s → PlaysTasks p s) ∧
    (∀ before tasks after s, run = before ++ .schedule tasks :: after →
      p.schedule? (schedulesMade before) = some s →
      s.tasks.map (·.task) = tasks ++ after.flatMap (·.pushedTo (schedulesMade before))) ∧
    ∀ slot s, p.schedule? slot = some s → ∀ tasks : List (Task κ),
      ∃ q s', p.run? (tasks.map (.push slot)) = some q ∧ q.schedule? slot = some s' ∧
        s'.tasks.map (·.task) = s.tasks.map (·.task) ++ tasks ∧ PlaysTasks q s' := by
  refine ⟨fun slot s hs => .of_owns (owns_of_run? h hs), ?_, fun slot s hs tasks => ?_⟩
  · rintro before tasks after s rfl hs
    rw [run?_append] at h
    obtain ⟨made, hmade, hrest⟩ := Option.bind_eq_some_iff.mp h
    rw [run?, List.foldlM_cons] at hrest
    obtain ⟨next, hnext, hafter⟩ := Option.bind_eq_some_iff.mp hrest
    obtain ⟨flagOf, htracks, -⟩ := tracks_empty.run hmade
    have hnew := schedule?_of_perform? hnext made.schedules.length
    rw [if_pos rfl, htracks.schedules_length, List.nil_append] at hnew
    rw [eq_pushAll_of_run? hafter hnew hs, Schedule.map_task_pushAll, Schedule.ofTasks_eq_pushAll,
      Schedule.map_task_pushAll]
    rfl
  · obtain ⟨q, hq, hschedule⟩ := exists_run?_pushes hs tasks
    exact ⟨q, s.pushAll tasks, hq, hschedule, s.map_task_pushAll tasks,
      .of_owns ((owns_of_run? h hs).pushAll tasks)⟩

/-- A sound whose end is no duration. -/
def endlessSound : Task String :=
  ⟨⟨2 * 10 ^ 9, by decide⟩, ⟨Duration.maxNanoseconds, by decide⟩, "mi"⟩

/-- A new schedule with a second of sound and a sound that has no end. -/
def endlessPlayback : List (Operation String) :=
  [.schedule [], .push 0 endlessSound, .push 0 firstSecond]

/-- Before the sound without an end begins the other one sounds; from there on there is no answer,
and there is no total. -/
theorem endlessPlayback_plays :
    ∃ p s, run? ∅ endlessPlayback = some p ∧ p.schedule? 0 = some s ∧ p.isCancelled s = false ∧
      s.tasks.map (·.task) = [endlessSound, firstSecond] ∧
      p.sounding? ⟨10 ^ 8, by decide⟩ s.tasks = some [⟨firstSecond, 0⟩] ∧
      p.sounding? ⟨2 * 10 ^ 9, by decide⟩ s.tasks = none ∧ s.total? = none := by
  have hrun : run? ∅ endlessPlayback =
      some ⟨[false], [some ⟨[⟨endlessSound, 0⟩, ⟨firstSecond, 0⟩], 0⟩], []⟩ := rfl
  obtain ⟨hplays, hpushed, -⟩ := schedules_play_pushed_tasks hrun
  have htasks := hpushed [] [] [.push 0 endlessSound, .push 0 firstSecond] _ rfl rfl
  have hplay := hplays 0 _ rfl
  have hfirst := hplay.sounding_eq_filter rfl ⟨10 ^ 8, by decide⟩ (by decide)
  have hnone := (hplay.sounding_eq_none_iff rfl ⟨2 * 10 ^ 9, by decide⟩).mpr (by decide)
  have htotal := hplay.total_eq_none_iff.mpr (by decide)
  exact ⟨_, _, hrun, rfl, rfl, htasks, hfirst, hnone, htotal⟩

end Playback

end Readout
