import Readout.Proofs.Timeline.Tasks

/-!
# Sounds one after the other

Sounds laid one after the other start at the multiples of one stride, a note and the gap behind it.
The offset behind the last one is computed too, so the laying fails exactly if that many strides are
no duration (`layFrom?_eq_none_iff`), and what is laid has its offsets in arithmetic progression
(`laid_of_layFrom?`). As a note is no longer than a stride, the one task that can sound at a time is
found by a division (`sounding?_of_laid`).
-/

namespace Readout

/-- From the start of one sound to the start of the next, in nanoseconds. -/
def Timing.stride (t : Timing) : Nat := t.note.nanoseconds + t.gap.nanoseconds

theorem Timing.step?_eq_none_iff {t : Timing} :
    t.step? = none ↔ Duration.maxNanoseconds < t.stride := Duration.add?_eq_none_iff_lt

variable {κ : Type}

namespace Timeline

/-- The tasks are those of the sounds, each of the length of a note and started one step after the
one before it. -/
structure Laid (note : Duration) (step start : Nat) (sounds : List κ) (tasks : List (Task κ)) :
    Prop where
  offset_eq : ∀ i t, tasks[i]? = some t → t.offset.nanoseconds = start + i * step
  duration_eq : ∀ t ∈ tasks, t.duration = note
  sound_eq : tasks.map (·.sound) = sounds

section Laying

variable {note step offset : Duration} {start : Nat} {sounds : List κ} {tasks : List (Task κ)}

theorem Laid.length_eq {step : Nat} (h : Laid note step start sounds tasks) :
    tasks.length = sounds.length := by
  rw [← h.sound_eq, List.length_map]

/-- The task of a sound. -/
theorem Laid.exists_task {step i : Nat} {sound : κ} (h : Laid note step start sounds tasks)
    (hi : sounds[i]? = some sound) : ∃ t, tasks[i]? = some t ∧ t.sound = sound ∧
      t.offset.nanoseconds = start + i * step ∧ t.duration = note := by
  rw [← h.sound_eq, List.getElem?_map, Option.map_eq_some_iff] at hi
  obtain ⟨t, ht, hsound⟩ := hi
  exact ⟨t, ht, hsound, h.offset_eq i t ht, h.duration_eq t (List.mem_of_getElem? ht)⟩

theorem Laid.cons {step : Nat} {t : Task κ} {sound : κ}
    (h : Laid note step (start + step) sounds tasks) (hoffset : t.offset.nanoseconds = start)
    (hduration : t.duration = note) (hsound : t.sound = sound) :
    Laid note step start (sound :: sounds) (t :: tasks) where
  offset_eq i t' ht' := by
    cases i with
    | zero =>
      obtain rfl := Option.some.inj ht'
      rw [hoffset, Nat.zero_mul, Nat.add_zero]
    | succ i =>
      rw [h.offset_eq i t' ht', Nat.succ_mul]
      omega
  duration_eq t' ht' := by
    rcases List.mem_cons.mp ht' with rfl | ht'
    · exact hduration
    · exact h.duration_eq t' ht'
  sound_eq := by rw [List.map_cons, h.sound_eq, hsound]

theorem layFrom?_eq_none_iff : layFrom? note step offset sounds = none ↔
    Duration.maxNanoseconds < offset.nanoseconds + sounds.length * step.nanoseconds := by
  induction sounds generalizing offset with
  | nil =>
    have hle := offset.nanoseconds_le
    simp only [layFrom?, reduceCtorEq, List.length_nil, Nat.zero_mul, false_iff]
    omega
  | cons sound sounds ih =>
    rw [List.length_cons, Nat.succ_mul, layFrom?]
    cases hnext : offset.add? step with
    | none =>
      have hlt := Duration.add?_eq_none_iff_lt.mp hnext
      simp only [Option.bind_eq_bind, Option.bind_none, true_iff]
      omega
    | some next =>
      have hnanoseconds := Duration.add?_eq_some_iff.mp hnext
      have hrest : layFrom? note step next sounds = none ↔ _ := ih
      rw [hnanoseconds] at hrest
      cases hlaid : layFrom? note step next sounds with
      | none =>
        have hlt := hrest.mp hlaid
        simp only [Option.bind_eq_bind, Option.bind_some, hlaid, Option.bind_none, true_iff]
        omega
      | some tasks =>
        have hnot := mt hrest.mpr (by rw [hlaid]; exact nofun)
        simp only [Option.bind_eq_bind, Option.bind_some, hlaid, reduceCtorEq, false_iff]
        omega

theorem laid_of_layFrom? (h : layFrom? note step offset sounds = some tasks) :
    Laid note step.nanoseconds offset.nanoseconds sounds tasks := by
  induction sounds generalizing offset tasks with
  | nil =>
    obtain rfl := Option.some.inj h
    exact ⟨nofun, nofun, rfl⟩
  | cons sound sounds ih =>
    obtain ⟨next, hnext, h⟩ := Option.bind_eq_some_iff.mp h
    obtain ⟨rest, hrest, h⟩ := Option.bind_eq_some_iff.mp h
    obtain rfl := Option.some.inj h
    have hlaid := ih hrest
    rw [Duration.add?_eq_some_iff.mp hnext] at hlaid
    exact hlaid.cons rfl rfl rfl

theorem sequence?_eq_none_iff {timing : Timing} : sequence? timing sounds = none ↔
    Duration.maxNanoseconds < timing.stride ∨
      Duration.maxNanoseconds < sounds.length * timing.stride := by
  unfold sequence?
  cases hstep : timing.step? with
  | none =>
    have hlt := Timing.step?_eq_none_iff.mp hstep
    simp only [Option.bind_eq_bind, Option.bind_none, true_iff]
    exact .inl hlt
  | some step =>
    have hstride : step.nanoseconds = timing.stride := Duration.add?_eq_some_iff.mp hstep
    have hle := step.nanoseconds_le
    rw [hstride] at hle
    show layFrom? timing.note step .zero sounds = none ↔ _
    rw [layFrom?_eq_none_iff, hstride]
    simp only [Duration.zero, Nat.zero_add, Nat.not_lt.mpr hle, false_or]

theorem laid_of_sequence? {timing : Timing} (h : sequence? timing sounds = some tasks) :
    Laid timing.note timing.stride 0 sounds tasks := by
  obtain ⟨step, hstep, h⟩ := Option.bind_eq_some_iff.mp h
  have hstride : step.nanoseconds = timing.stride := Duration.add?_eq_some_iff.mp hstep
  have hlaid := laid_of_layFrom? h
  rwa [hstride] at hlaid

theorem exists_laid {timing : Timing} (sounds : List κ)
    (hstride : timing.stride ≤ Duration.maxNanoseconds)
    (hfits : sounds.length * timing.stride ≤ Duration.maxNanoseconds) :
    ∃ tasks, sequence? timing sounds = some tasks ∧
      Laid timing.note timing.stride 0 sounds tasks := by
  have hsome : sequence? timing sounds ≠ none := fun hnone => by
    rcases sequence?_eq_none_iff.mp hnone with hlt | hlt
    · exact Nat.not_lt.mpr hstride hlt
    · exact Nat.not_lt.mpr hfits hlt
  obtain ⟨tasks, htasks⟩ := Option.ne_none_iff_exists'.mp hsome
  exact ⟨tasks, htasks, laid_of_sequence? htasks⟩

end Laying

/-! ## What sounds in a sequence -/

section Sounding

variable {note : Duration} {step : Nat} {sounds : List κ} {tasks : List (Task κ)}

/-- A time falls into a note exactly if the note is that of its stride and it falls into the first
part of the stride. -/
theorem within_note_iff {note i t : Nat} (h : note ≤ step) :
    i * step ≤ t ∧ t < i * step + note ↔ t / step = i ∧ t % step < note := by
  have hparts := Nat.div_add_mod t step
  rw [Nat.mul_comm] at hparts
  constructor
  · rintro ⟨hbegun, hlt⟩
    have hdiv : t / step = i := by
      refine Nat.div_eq_of_lt_le hbegun ?_
      rw [Nat.succ_mul]
      omega
    rw [hdiv] at hparts
    exact ⟨hdiv, by omega⟩
  · rintro ⟨rfl, hlt⟩
    omega

theorem Laid.stop_eq (h : Laid note step 0 sounds tasks) {i : Nat} {t : Task κ}
    (ht : tasks[i]? = some t) : t.stopNanoseconds = i * step + note.nanoseconds := by
  rw [Task.stopNanoseconds, h.offset_eq i t ht, h.duration_eq t (List.mem_of_getElem? ht),
    Nat.zero_add]

theorem Laid.stop_le (h : Laid note step 0 sounds tasks) (hnote : note.nanoseconds ≤ step)
    (hfits : sounds.length * step ≤ Duration.maxNanoseconds) {t : Task κ} (ht : t ∈ tasks) :
    t.stopNanoseconds ≤ Duration.maxNanoseconds := by
  obtain ⟨i, hi⟩ := List.getElem?_of_mem ht
  have hlt : i + 1 ≤ sounds.length := by
    rw [← h.length_eq]
    exact (List.getElem?_eq_some_iff.mp hi).1
  have hmul := Nat.mul_le_mul_right step hlt
  rw [Nat.succ_mul] at hmul
  rw [h.stop_eq hi]
  omega

theorem Laid.soundsAt_iff (h : Laid note step 0 sounds tasks) (hnote : note.nanoseconds ≤ step)
    {i : Nat} {t : Task κ} (ht : tasks[i]? = some t) {elapsed : Duration} :
    t.SoundsAt elapsed ↔
      elapsed.nanoseconds / step = i ∧ elapsed.nanoseconds % step < note.nanoseconds := by
  rw [Task.SoundsAt, h.stop_eq ht, h.offset_eq i t ht, Nat.zero_add]
  exact within_note_iff hnote

/-- The elements of a list that have a property, where only the one in a given place can have it. -/
theorem filter_eq_of_place {β : Type} {l : List β} {p : β → Bool} {place : Nat}
    (h : ∀ i a, l[i]? = some a → p a = true → i = place) :
    l.filter p = (l[place]?.filter p).toList := by
  induction l generalizing place with
  | nil => rfl
  | cons a l ih =>
    cases place with
    | zero =>
      have hrest : l.filter p = [] := List.filter_eq_nil_iff.mpr fun b hb hp => by
        obtain ⟨i, hi⟩ := List.getElem?_of_mem hb
        exact Nat.succ_ne_zero i (h (i + 1) b hi hp)
      rw [List.filter_cons, hrest]
      cases hp : p a <;> simp [Option.filter, hp]
    | succ place =>
      have hp : ¬ p a = true := fun hp => Nat.noConfusion (h 0 a rfl hp)
      rw [List.filter_cons_of_neg hp, List.getElem?_cons_succ]
      exact ih fun i b hb hpb => Nat.succ.inj (h (i + 1) b hb hpb)

variable {p : Playback κ} {flag : Nat}

theorem getElem?_ofTasks {flag i : Nat} {t : ScheduledTask κ} :
    (Schedule.ofTasks flag tasks).tasks[i]? = some t ↔
      tasks[i]? = some t.task ∧ t.flag = flag := by
  obtain ⟨task, flag'⟩ := t
  rw [Schedule.ofTasks, List.getElem?_map, Option.map_eq_some_iff]
  simp only [ScheduledTask.mk.injEq, eq_comm (a := flag)]
  constructor
  · rintro ⟨t, ht, rfl, hflag⟩
    exact ⟨ht, hflag⟩
  · rintro ⟨ht, hflag⟩
    exact ⟨task, ht, rfl, hflag⟩

/-- At most the task of the stride that a time falls into sounds, and it sounds while its note
lasts. -/
theorem Laid.sounding?_eq (h : Laid note step 0 sounds tasks) (hnote : note.nanoseconds ≤ step)
    (hfits : sounds.length * step ≤ Duration.maxNanoseconds) (hunset : p.isSet flag = false)
    (elapsed : Duration) :
    p.sounding? elapsed (Schedule.ofTasks flag tasks).tasks =
      some ((Schedule.ofTasks flag tasks).tasks[elapsed.nanoseconds / step]?.filter
        fun _ => elapsed.nanoseconds % step < note.nanoseconds).toList := by
  have hsounds : ∀ i t, (Schedule.ofTasks flag tasks).tasks[i]? = some t →
      ((p.isLive t && decide (t.task.SoundsAt elapsed)) = true ↔
        elapsed.nanoseconds / step = i ∧ elapsed.nanoseconds % step < note.nanoseconds) := by
    intro i t ht
    obtain ⟨htask, rfl⟩ := getElem?_ofTasks.mp ht
    rw [Playback.isLive, hunset, ← h.soundsAt_iff hnote htask]
    simp
  rw [Playback.sounding?_eq_filter fun t ht _ _ => ?_,
    filter_eq_of_place fun i t ht hp => ((hsounds i t ht).mp hp).1.symm]
  · cases hget : (Schedule.ofTasks flag tasks).tasks[elapsed.nanoseconds / step]? with
    | none => rfl
    | some t =>
      have hnow : (p.isLive t && decide (t.task.SoundsAt elapsed)) =
          decide (elapsed.nanoseconds % step < note.nanoseconds) := by
        rw [Bool.eq_iff_iff, hsounds _ t hget, decide_eq_true_iff]
        exact and_iff_right rfl
      rw [Option.filter_some, Option.filter_some, hnow]
  · obtain ⟨i, hi⟩ := List.getElem?_of_mem ht
    exact h.stop_le hnote hfits (List.mem_of_getElem? (getElem?_ofTasks.mp hi).1)

/-- The last sound ends last, one note after its offset. -/
theorem Laid.exists_total? (h : Laid note step 0 sounds tasks) (hnote : note.nanoseconds ≤ step)
    (hfits : sounds.length * step ≤ Duration.maxNanoseconds) :
    ∃ total, total? tasks = some total ∧ total.nanoseconds =
      if sounds = [] then 0 else (sounds.length - 1) * step + note.nanoseconds := by
  obtain ⟨total, htotal, hle, hlatest⟩ :=
    Timeline.exists_total? fun t ht => h.stop_le hnote hfits ht
  refine ⟨total, htotal, ?_⟩
  have hlength := h.length_eq
  split
  · rename_i hnil
    rw [hnil, List.length_nil, List.length_eq_zero_iff] at hlength
    rcases hlatest with ⟨-, hzero⟩ | ⟨t, ht, -⟩
    · exact hzero
    · rw [hlength] at ht
      exact absurd ht List.not_mem_nil
  · rename_i hne
    have hpos := List.length_pos_iff.mpr hne
    have hlast : tasks[sounds.length - 1]? = some tasks[sounds.length - 1] :=
      List.getElem?_eq_getElem (by omega)
    have hge := hle _ (List.mem_of_getElem? hlast)
    rw [h.stop_eq hlast] at hge
    refine Nat.le_antisymm ?_ hge
    rcases hlatest with ⟨rfl, -⟩ | ⟨t, ht, hstop⟩
    · rw [List.length_nil] at hlength
      omega
    · obtain ⟨i, hi⟩ := List.getElem?_of_mem ht
      have hlt := (List.getElem?_eq_some_iff.mp hi).1
      have hmul := Nat.mul_le_mul_right step (show i ≤ sounds.length - 1 by omega)
      rw [← hstop, h.stop_eq hi]
      omega

end Sounding

/-- The moments of a note: its sound is there, and its stride has gone no further than the note. -/
def IsWithinNote (timing : Timing) (count : Nat) (elapsed : Duration) : Prop :=
  0 < timing.stride ∧ elapsed.nanoseconds / timing.stride < count ∧
    elapsed.nanoseconds % timing.stride < timing.note.nanoseconds

instance (timing : Timing) (count : Nat) (elapsed : Duration) :
    Decidable (IsWithinNote timing count elapsed) := inferInstanceAs (Decidable (_ ∧ _ ∧ _))

/-- What a schedule of sounds one after the other is: it has a live task for each sound, the length
of a note and as many strides from the start as sounds stand before it; the total is the end of the
last note; and at every time it sounds the task of the stride that the time falls into, while its
note lasts, and nothing else. -/
structure PlaysInTurn (timing : Timing) (sounds : List κ) (p : Playback κ) (s : Schedule κ) :
    Prop where
  length_eq : s.tasks.length = sounds.length
  isLive : ∀ t ∈ s.tasks, p.isLive t = true
  task_eq : ∀ i sound, sounds[i]? = some sound → ∃ t, s.tasks[i]? = some t ∧
    t.task.sound = sound ∧ t.task.offset.nanoseconds = i * timing.stride ∧
    t.task.duration = timing.note
  total_eq : ∃ total, s.total? = some total ∧ total.nanoseconds =
    if sounds = [] then 0 else (sounds.length - 1) * timing.stride + timing.note.nanoseconds
  sounding_of_isWithinNote : ∀ elapsed, IsWithinNote timing sounds.length elapsed →
    ∃ t, s.tasks[elapsed.nanoseconds / timing.stride]? = some t ∧
      p.sounding? elapsed s.tasks = some [t]
  sounding_of_not_isWithinNote : ∀ elapsed, ¬ IsWithinNote timing sounds.length elapsed →
    p.sounding? elapsed s.tasks = some []

theorem Laid.playsInTurn {timing : Timing} {sounds : List κ} {tasks : List (Task κ)}
    {p : Playback κ} {flag : Nat} (h : Laid timing.note timing.stride 0 sounds tasks)
    (hfits : sounds.length * timing.stride ≤ Duration.maxNanoseconds)
    (hunset : p.isSet flag = false) :
    PlaysInTurn timing sounds p (.ofTasks flag tasks) := by
  have hnote : timing.note.nanoseconds ≤ timing.stride := Nat.le_add_right _ _
  have hlength : (Schedule.ofTasks flag tasks).tasks.length = sounds.length := by
    rw [Schedule.ofTasks, List.length_map, h.length_eq]
  have hsounding := fun elapsed => h.sounding?_eq hnote hfits hunset elapsed
  refine ⟨hlength, fun t ht => ?_, fun i sound hi => ?_, ?_, fun elapsed hwithin => ?_,
    fun elapsed hnot => ?_⟩
  · obtain ⟨i, hi⟩ := List.getElem?_of_mem ht
    rw [Playback.isLive, (getElem?_ofTasks.mp hi).2, hunset]
    rfl
  · obtain ⟨t, ht, hsound, hoffset, hduration⟩ := h.exists_task hi
    rw [Nat.zero_add] at hoffset
    exact ⟨⟨t, flag⟩, getElem?_ofTasks.mpr ⟨ht, rfl⟩, hsound, hoffset, hduration⟩
  · have htasks : (Schedule.ofTasks flag tasks).tasks.map (·.task) = tasks := by
      rw [Schedule.ofTasks, List.map_map]
      exact List.map_id tasks
    rw [Schedule.total?, htasks]
    exact h.exists_total? hnote hfits
  · obtain ⟨-, hlt, hnow⟩ := hwithin
    have hget : (Schedule.ofTasks flag tasks).tasks[elapsed.nanoseconds / timing.stride]? =
        some (Schedule.ofTasks flag tasks).tasks[elapsed.nanoseconds / timing.stride] :=
      List.getElem?_eq_getElem (by rw [hlength]; exact hlt)
    refine ⟨_, hget, ?_⟩
    rw [hsounding, hget, Option.filter_some, decide_eq_true hnow]
    rfl
  · rw [hsounding]
    cases hget : (Schedule.ofTasks flag tasks).tasks[elapsed.nanoseconds / timing.stride]? with
    | none => rfl
    | some t =>
      have hlt := (List.getElem?_eq_some_iff.mp hget).1
      rw [hlength] at hlt
      have hover : ¬ elapsed.nanoseconds % timing.stride < timing.note.nanoseconds :=
        fun hnow => hnot ⟨by omega, hlt, hnow⟩
      rw [Option.filter_some, decide_eq_false hover]
      rfl

/-- **Sounds one after the other play in turn.** With one stride, a note and a gap, for each sound,
laying fails exactly if the stride or all of them together are no duration. Else what is laid, put
into a playback as a new schedule, plays in turn. -/
theorem sequence?_plays_in_turn (timing : Timing) (sounds : List κ) (p : Playback κ) :
    (sequence? timing sounds = none ↔ Duration.maxNanoseconds < timing.stride ∨
      Duration.maxNanoseconds < sounds.length * timing.stride) ∧
    (timing.stride ≤ Duration.maxNanoseconds →
      sounds.length * timing.stride ≤ Duration.maxNanoseconds →
      ∃ tasks q s, sequence? timing sounds = some tasks ∧
        p.perform? (.schedule tasks) = some q ∧ q.schedule? p.schedules.length = some s ∧
        PlaysInTurn timing sounds q s) := by
  refine ⟨sequence?_eq_none_iff, fun hstride hfits => ?_⟩
  obtain ⟨tasks, htasks, hlaid⟩ := exists_laid sounds hstride hfits
  refine ⟨tasks, _, .ofTasks p.flags.length tasks, htasks, rfl, ?_,
    hlaid.playsInTurn hfits ?_⟩
  · simp [Playback.schedule?]
  · simp [Playback.isSet]

/-- Notes of 300 milliseconds with 50 milliseconds between them. -/
def shortNotes : Timing := ⟨⟨300 * 10 ^ 6, by decide⟩, ⟨50 * 10 ^ 6, by decide⟩⟩

/-- After 360 milliseconds the second of three notes sounds, after 320 milliseconds none does. -/
theorem shortNotes_play_in_turn :
    shortNotes.stride ≤ Duration.maxNanoseconds ∧
      ["do", "re", "mi"].length * shortNotes.stride ≤ Duration.maxNanoseconds ∧
      ∃ tasks q s, sequence? shortNotes ["do", "re", "mi"] = some tasks ∧
        Playback.perform? ∅ (.schedule tasks) = some q ∧ q.schedule? 0 = some s ∧
        PlaysInTurn shortNotes ["do", "re", "mi"] q s ∧
        (∃ t, s.tasks[1]? = some t ∧ q.sounding? ⟨360 * 10 ^ 6, by decide⟩ s.tasks = some [t]) ∧
        q.sounding? ⟨320 * 10 ^ 6, by decide⟩ s.tasks = some [] := by
  have hstride : shortNotes.stride ≤ Duration.maxNanoseconds := by decide
  have hfits : ["do", "re", "mi"].length * shortNotes.stride ≤ Duration.maxNanoseconds := by decide
  obtain ⟨tasks, q, s, htasks, hq, hs, hplays⟩ :=
    (sequence?_plays_in_turn shortNotes ["do", "re", "mi"] ∅).2 hstride hfits
  have hsecond := hplays.sounding_of_isWithinNote ⟨360 * 10 ^ 6, by decide⟩ (by decide)
  have hnone := hplays.sounding_of_not_isWithinNote ⟨320 * 10 ^ 6, by decide⟩ (by decide)
  exact ⟨hstride, hfits, tasks, q, s, htasks, hq, hs, hplays, hsecond, hnone⟩

end Timeline

end Readout
