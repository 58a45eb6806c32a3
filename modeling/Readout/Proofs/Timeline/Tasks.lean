import Readout.Playback

/-!
# Tasks in time

Written in nanoseconds a task has an end even where that is no duration. It sounds from its offset
up to its end (`Task.SoundsAt`), and a question about it has no answer only if the task has begun
and its end is no duration (`Task.isSounding?_eq_some`, `Task.isSounding?_eq_none_iff`). Of a list
of tasks those sound that are live and sound by themselves (`Playback.sounding?_eq_filter`), and the
total is the latest end (`Timeline.exists_total?`). A list has no answer exactly if one of its tasks
has none (`Playback.sounding?_eq_none_iff`, `Timeline.total?_eq_none_iff`).
-/

namespace Readout

namespace Duration

/-- The nanoseconds of the longest duration. -/
def maxNanoseconds : Nat := 2 ^ 64 * 10 ^ 9 - 1

theorem nanoseconds_le (d : Duration) : d.nanoseconds ≤ maxNanoseconds := by
  have hlt := d.lt_limit
  unfold maxNanoseconds
  omega

theorem add?_eq_none_iff_lt {a b : Duration} :
    a.add? b = none ↔ maxNanoseconds < a.nanoseconds + b.nanoseconds := by
  rw [add?_eq_none_iff]
  unfold maxNanoseconds
  omega

theorem exists_add? {a b : Duration} (h : a.nanoseconds + b.nanoseconds ≤ maxNanoseconds) :
    ∃ c, a.add? b = some c ∧ c.nanoseconds = a.nanoseconds + b.nanoseconds := by
  have hsome : a.add? b ≠ none := fun hnone =>
    Nat.not_lt.mpr h (add?_eq_none_iff_lt.mp hnone)
  obtain ⟨c, hc⟩ := Option.ne_none_iff_exists'.mp hsome
  exact ⟨c, hc, add?_eq_some_iff.mp hc⟩

theorem nanoseconds_max (a b : Duration) :
    (a.max b).nanoseconds = Nat.max a.nanoseconds b.nanoseconds := by
  unfold max
  split
  · rename_i h
    exact (Nat.max_eq_right h).symm
  · rename_i h
    exact (Nat.max_eq_left (Nat.le_of_not_le h)).symm

end Duration

variable {κ : Type}

namespace Task

/-- The end of a task in nanoseconds. -/
def stopNanoseconds (t : Task κ) : Nat := t.offset.nanoseconds + t.duration.nanoseconds

/-- The task has begun at a time and has not ended. -/
def SoundsAt (t : Task κ) (elapsed : Duration) : Prop :=
  t.offset.nanoseconds ≤ elapsed.nanoseconds ∧ elapsed.nanoseconds < t.stopNanoseconds

instance (t : Task κ) (elapsed : Duration) : Decidable (t.SoundsAt elapsed) :=
  inferInstanceAs (Decidable (_ ∧ _))

variable {t : Task κ} {elapsed : Duration}

theorem exists_stop? (h : t.stopNanoseconds ≤ Duration.maxNanoseconds) :
    ∃ stop, t.stop? = some stop ∧ stop.nanoseconds = t.stopNanoseconds :=
  Duration.exists_add? h

theorem isSounding?_eq_some
    (h : t.offset.nanoseconds ≤ elapsed.nanoseconds →
      t.stopNanoseconds ≤ Duration.maxNanoseconds) :
    t.isSounding? elapsed = some (decide (t.SoundsAt elapsed)) := by
  unfold isSounding?
  by_cases hbegun : t.offset ≤ elapsed
  · obtain ⟨stop, hstop, hnanoseconds⟩ := exists_stop? (h hbegun)
    have hsounds : elapsed < stop ↔ t.SoundsAt elapsed := by
      rw [SoundsAt, ← hnanoseconds]
      exact ⟨fun hlt => ⟨hbegun, hlt⟩, fun hlt => hlt.2⟩
    rw [if_pos hbegun, hstop, Option.map_some]
    simp only [hsounds]
  · have hnot : ¬ t.SoundsAt elapsed := fun hsounds => hbegun hsounds.1
    rw [if_neg hbegun, decide_eq_false hnot]

theorem stop?_eq_none_iff : t.stop? = none ↔ Duration.maxNanoseconds < t.stopNanoseconds :=
  Duration.add?_eq_none_iff_lt

theorem isSounding?_eq_none_iff : t.isSounding? elapsed = none ↔
    t.offset ≤ elapsed ∧ Duration.maxNanoseconds < t.stopNanoseconds := by
  unfold isSounding?
  by_cases hbegun : t.offset ≤ elapsed
  · rw [if_pos hbegun, Option.map_eq_none_iff, stop?_eq_none_iff, and_iff_right hbegun]
  · simp [hbegun]

end Task

/-- The tasks that sound are those that are live and sound by themselves, if every live one that
has begun has an end. -/
theorem Playback.sounding?_eq_filter {p : Playback κ} {elapsed : Duration}
    {tasks : List (ScheduledTask κ)}
    (h : ∀ t ∈ tasks, p.isLive t = true → t.task.offset.nanoseconds ≤ elapsed.nanoseconds →
      t.task.stopNanoseconds ≤ Duration.maxNanoseconds) :
    p.sounding? elapsed tasks =
      some (tasks.filter fun t => p.isLive t && decide (t.task.SoundsAt elapsed)) := by
  induction tasks with
  | nil => rfl
  | cons t rest ih =>
    have hhere : p.isSounding? elapsed t =
        some (p.isLive t && decide (t.task.SoundsAt elapsed)) := by
      unfold isSounding?
      split
      · rename_i hlive
        rw [Task.isSounding?_eq_some (h t List.mem_cons_self hlive), hlive, Bool.true_and]
      · rename_i hdead
        rw [Bool.not_eq_true] at hdead
        rw [hdead, Bool.false_and]
    rw [sounding?, hhere, ih fun t ht => h t (List.mem_cons_of_mem _ ht), List.filter_cons]
    rfl

theorem Playback.isSounding?_eq_none_iff {p : Playback κ} {elapsed : Duration}
    {t : ScheduledTask κ} : p.isSounding? elapsed t = none ↔
      p.isLive t = true ∧ t.task.offset ≤ elapsed ∧
        Duration.maxNanoseconds < t.task.stopNanoseconds := by
  unfold isSounding?
  by_cases hlive : p.isLive t = true
  · rw [if_pos hlive, Task.isSounding?_eq_none_iff, and_iff_right hlive]
  · simp [hlive]

/-- A task that was cancelled, or has not begun, is not asked for its end. -/
theorem Playback.sounding?_eq_none_iff {p : Playback κ} {elapsed : Duration}
    {tasks : List (ScheduledTask κ)} : p.sounding? elapsed tasks = none ↔
      ∃ t ∈ tasks, p.isLive t = true ∧ t.task.offset ≤ elapsed ∧
        Duration.maxNanoseconds < t.task.stopNanoseconds := by
  induction tasks with
  | nil => simp [sounding?]
  | cons t rest ih =>
    simp only [List.mem_cons, exists_eq_or_imp]
    rw [sounding?, ← ih, ← isSounding?_eq_none_iff]
    cases p.isSounding? elapsed t <;> cases p.sounding? elapsed rest <;> simp

namespace Timeline

theorem total?_eq_none_iff {tasks : List (Task κ)} : total? tasks = none ↔
    ∃ t ∈ tasks, Duration.maxNanoseconds < t.stopNanoseconds := by
  induction tasks with
  | nil => simp [total?]
  | cons t rest ih =>
    simp only [List.mem_cons, exists_eq_or_imp]
    rw [total?, ← ih, ← Task.stop?_eq_none_iff]
    cases t.stop? <;> cases total? rest <;> simp

/-- The total is the latest end, if every task has an end. -/
theorem exists_total? {tasks : List (Task κ)}
    (h : ∀ t ∈ tasks, t.stopNanoseconds ≤ Duration.maxNanoseconds) :
    ∃ total, total? tasks = some total ∧
      (∀ t ∈ tasks, t.stopNanoseconds ≤ total.nanoseconds) ∧
      (tasks = [] ∧ total.nanoseconds = 0 ∨
        ∃ t ∈ tasks, t.stopNanoseconds = total.nanoseconds) := by
  induction tasks with
  | nil => exact ⟨.zero, rfl, nofun, .inl ⟨rfl, rfl⟩⟩
  | cons t rest ih =>
    obtain ⟨stop, hstop, hnanoseconds⟩ := Task.exists_stop? (h t List.mem_cons_self)
    obtain ⟨others, hothers, hle, hlatest⟩ := ih fun t ht => h t (List.mem_cons_of_mem _ ht)
    have hmax := Duration.nanoseconds_max stop others
    refine ⟨stop.max others, ?_, fun t' ht' => ?_, .inr ?_⟩
    · rw [total?, hstop, hothers]
      rfl
    · rw [hmax]
      rcases List.mem_cons.mp ht' with rfl | ht'
      · exact hnanoseconds ▸ Nat.le_max_left _ _
      · exact Nat.le_trans (hle t' ht') (Nat.le_max_right _ _)
    · rcases Nat.le_total others.nanoseconds stop.nanoseconds with hle' | hle'
      · refine ⟨t, List.mem_cons_self, ?_⟩
        rw [hmax, ← hnanoseconds]
        exact (Nat.max_eq_left hle').symm
      · rcases hlatest with ⟨rfl, hzero⟩ | ⟨t', ht', hlast⟩
        · refine ⟨t, List.mem_cons_self, ?_⟩
          rw [hmax, ← hnanoseconds, hzero]
          exact (Nat.max_eq_left (Nat.zero_le _)).symm
        · refine ⟨t', List.mem_cons_of_mem _ ht', ?_⟩
          rw [hmax, hlast]
          exact (Nat.max_eq_right hle').symm

end Timeline

end Readout
