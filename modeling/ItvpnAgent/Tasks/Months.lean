import ItvpnAgent.Kit.Cadence
import ItvpnAgent.Kit.Calendar
import ItvpnAgent.Tasks.GetLicenseTask
import ItvpnAgent.Tasks.ProcessKillerTask

/-! The days on which the two tasks look at the license, over whole runs on their
own timers: the timer expires, `svc` reads the date and takes up to an hour, and
re-arms the timer for the next day. The clock is local time in microseconds since
the first of January 1970, without changes to summer time. The starts of `svc`
are events with gaps between `day_waiting_hours_` and an hour more, so what days
a task can miss depends on the options only. -/

namespace ItvpnAgent

open Kit Kit.Calendar Prog LicenseChecker

def second : ℕ := 1000000

def hour : ℕ := 3600000000

def dayLength : ℕ := 86400000000

/-- What `ACE_Date_Time` reads off the clock. -/
def todayAt (time : ℕ) : DateTime where
  day := (dateAt (time / dayLength)).day
  month := (dateAt (time / dayLength)).month
  year := (dateAt (time / dayLength)).year

/-- A task between two runs of `svc`. `clock` is when the last one ended; `runs`
tells of each when it started and what it saw. -/
structure Clocked (τ : Type) where
  task : TaskState τ
  clock : ℕ
  runs : List (ℕ × Env)

/-- What a run of `svc` sees: the options in force and the date are given. -/
def Env.at_ (env : Env) (options : Options) (time : ℕ) : Env :=
  { env with
    options := fun _ => options
    today := todayAt time }

namespace Clocked

variable {τ : Type}

/-- When the pending timer expires. -/
def due (s : Clocked τ) : ℕ :=
  match s.task.timers with
  | timer :: _ => s.clock + timer.secs.toNat * second
  | [] => s.clock

/-- The timer expires, `svc` runs for `duration` and re-arms with
`next_day_waiting_secs()`. -/
def cycle (code : TaskCode τ) (options : Options) (s : Clocked τ) (env : Env) (duration : ℕ) :
    Option (Clocked τ) := do
  let env := env.at_ options s.due
  let started ← (taskMachine code).step s.task (.expire true)
  let ended ← (taskMachine code).step started (.finish env)
  if duration ≤ hour ∧ ended.timers.map Timer.secs = [ended.ctx.task.nextDayWaitingSecs] then
    return { task := ended, clock := s.due + duration, runs := s.runs ++ [(s.due, env)] }
  else none

/-- The task after `open` at this time. -/
def start (task : Timed τ) (licFile : Option Str) (time : ℕ) : Clocked τ where
  task := opened task licFile
  clock := time
  runs := []

/-- The starts of `svc`, as events in a row. -/
def cadence (s : Clocked τ) : Cadence where
  due := s.due
  past := s.runs.map Prod.fst

end Clocked

def clockMachine {τ : Type} (code : TaskCode τ) (options : Options) :
    Machine (Clocked τ) (Env × ℕ) where
  step s l := s.cycle code options l.1 l.2

/-- A task with the test that its `svc` makes first. -/
structure DayTask (τ : Type) where
  code : TaskCode τ
  make : Options → Timed τ
  isDay : Env → Bool

/-- In every run, the clock passes over no month that began after the start
without a run of `svc` in it whose test was true. -/
def DayTask.NoMonthSkipped {τ : Type} (task : DayTask τ) (options : Options) : Prop :=
  ∀ (licFile : Option Str) (time : ℕ) (labels : List (Env × ℕ)) (s : Clocked τ),
    (clockMachine task.code options).run (.start (task.make options) licFile time) labels = some s →
    ∀ n, (dateAt n).day = 1 → time ≤ n * dayLength →
      (n + (dateAt n).daysInMonth) * dayLength ≤ s.due →
      ∃ r ∈ s.runs, n * dayLength ≤ r.1 ∧ r.1 < (n + (dateAt n).daysInMonth) * dayLength ∧
        task.isDay r.2 = true

namespace ProcessKillerTask

def checking : DayTask ProcessKillerTask where
  code := code
  make := make
  isDay := isLicenseCheckDay

end ProcessKillerTask

namespace GetLicenseTask

def updating : DayTask GetLicenseTask where
  code := code
  make := make
  isDay := isLicenseUpdateDay

end GetLicenseTask

namespace DayTask

variable {τ : Type}

/-- The facts about a task that decide which days it can miss: the test is for
days from `first` to `last`, the code leaves `day_waiting_hours_` alone, and
a run that meets a `quiet` day and no license file is one that re-arms for the next
day. -/
structure Daily (task : DayTask τ) (options : Options) (first last : ℕ) (quiet : ℤ → Prop) : Prop where
  hours : (task.make options).dayWaitingHours = options.nextDayWaitingHours
  timers : (task.make options).timers = []
  isDay_iff : ∀ env, (env.options = fun _ => options) →
    (task.isDay env = true ↔ (first : ℤ) ≤ env.today.day ∧ env.today.day ≤ last)
  keepsHours : ∀ env, Moves KeepsHours (task.code.svc env)
  rearms : ∀ env c, (env.options = fun _ => options) → (∀ dir, env.listDir dir = .ok none) →
    quiet env.today.day →
    ∃ t, task.code.svc env c = (.ok (), t) ∧
      t.task.timers.map Timer.secs = [t.task.nextDayWaitingSecs]

end DayTask

namespace Clocked

variable {τ : Type} {task : DayTask τ} {options : Options} {s t : Clocked τ}

/-- What holds between any two runs of `svc`: the hours are those of the options,
and each run has seen the options and the date of its start. -/
structure Regular (options : Options) (s : Clocked τ) : Prop where
  hours : s.task.ctx.task.dayWaitingHours = options.nextDayWaitingHours
  seen : ∀ r ∈ s.runs, (r.2.options = fun _ => options) ∧ r.2.today = todayAt r.1

theorem timers_singleton {timers : List Timer} {secs : ℤ} (h : timers.map Timer.secs = [secs]) :
    ∃ timer, timers = [timer] ∧ timer.secs = secs := by
  cases timers with
  | nil => cases h
  | cons timer rest =>
    cases rest with
    | nil => exact ⟨timer, rfl, List.head_eq_of_cons_eq h⟩
    | cons _ _ => cases h

theorem expire_hours {code : TaskCode τ} {s t : TaskState τ} {spawns : Bool}
    (h : (taskMachine code).step s (.expire spawns) = some t) :
    t.ctx.task.dayWaitingHours = s.ctx.task.dayWaitingHours := by
  obtain ⟨timer, rest, -, -, ⟨-, rfl⟩ | ⟨-, -, rfl⟩ | ⟨-, -, rfl⟩⟩ := step_expire h
  all_goals rfl

/-- The delay of the timer for the next day, on the clock. -/
theorem secs_toNat (hours : ℕ) : ((hours : ℤ) * 60 * 60).toNat * second = hours * hour := by
  have hsecs : ((hours : ℤ) * 60 * 60).toNat = hours * 3600 := by omega
  rw [hsecs, second, hour]
  omega

/-! ### Days of a month on the clock -/

/-- A moment between two midnights of a month, as a day of it. -/
theorem exists_day {n p q time : ℕ} (hfrom : (n + p) * dayLength ≤ time)
    (hto : time < (n + q) * dayLength) : ∃ i, time / dayLength = n + i ∧ p ≤ i ∧ i < q := by
  have hpos : 0 < dayLength := by decide
  have hle := (Nat.le_div_iff_mul_le hpos).mpr hfrom
  have hlt := (Nat.div_lt_iff_lt_mul hpos).mpr hto
  exact ⟨time / dayLength - n, by omega, by omega, by omega⟩

/-- A run of `svc` in a month sees the day that the calendar gives. -/
theorem day_of_seen {n i : ℕ} (hday : (dateAt n).day = 1) (hi : i < (dateAt n).daysInMonth) {time : ℕ}
    (htime : time / dayLength = n + i) : (todayAt time).day = (i + 1 : ℕ) := by
  rw [todayAt, htime]
  exact congrArg Nat.cast (dateAt_add hday hi).2.2

theorem february_day : (dateAt 31).day = 1 := by rw [dateAt_february]; rfl

theorem february_daysInMonth : (dateAt 31).daysInMonth = 28 := by rw [dateAt_february]; rfl

/-! ### One cycle -/

section Daily

variable {first last : ℕ} {quiet : ℤ → Prop} (htask : task.Daily options first last quiet)
  {hours : ℕ} (hhours : options.nextDayWaitingHours = hours)
include htask hhours

/-- One cycle is one event, `day_waiting_hours_` and up to an hour before the next. -/
theorem cycle_some {env : Env} {duration : ℕ} (hs : s.Regular options)
    (h : s.cycle task.code options env duration = some t) :
    t.Regular options ∧ duration ≤ hour ∧
      t.cadence = s.cadence.advance (duration + hours * hour) := by
  obtain ⟨started, hstart, h⟩ := Option.bind_eq_some_iff.mp h
  obtain ⟨ended, hend, h⟩ := Option.bind_eq_some_iff.mp h
  have hkept : ended.ctx.task.dayWaitingHours = options.nextDayWaitingHours := by
    rw [finish_ctx (step_finish hend).2.2]
    exact (htask.keepsHours _ _).trans ((expire_hours hstart).trans hs.hours)
  split at h
  · next hrearmed =>
    cases h
    obtain ⟨timer, htimer, hsecs⟩ := timers_singleton hrearmed.2
    have hdue : due {
        task := ended
        clock := s.due + duration
        runs := s.runs ++ [(s.due, env.at_ options s.due)] } = s.due + (duration + hours * hour) := by
      simp only [due, htimer, hsecs, Timed.nextDayWaitingSecs, hkept, hhours, secs_toNat, Nat.add_assoc]
    refine ⟨⟨hkept, fun r hr => ?_⟩, hrearmed.1, ?_⟩
    · rcases List.mem_append.mp hr with hold | hnew
      · exact hs.seen r hold
      · rw [List.mem_singleton] at hnew
        subst hnew
        exact ⟨rfl, rfl⟩
    · simp only [cadence, hdue, Cadence.advance, List.map_append, List.map_cons, List.map_nil]
  · cases h

omit hhours in
theorem regular_start (licFile : Option Str) (time : ℕ) :
    (start (task.make options) licFile time).Regular options where
  hours := htask.hours
  seen := fun _ hr => absurd hr List.not_mem_nil

omit hhours in
theorem cadence_start (licFile : Option Str) (time : ℕ) :
    (start (task.make options) licFile time).cadence = { due := time + 5 * second, past := [] } := by
  simp [cadence, start, due, opened, Timed.scheduleTimer, TaskState.timers, htask.timers]

/-! ### Windows that are never missed -/

/-- A window of time as wide as the longest gap has a run of `svc`. -/
theorem hits_run {a w : ℕ} (hwide : a + (hour + hours * hour) ≤ w) {licFile : Option Str} {time : ℕ}
    (hstart : time + 5 * second < w) {labels : List (Env × ℕ)}
    (hrun : (clockMachine task.code options).run (.start (task.make options) licFile time) labels =
      some s) :
    s.Regular options ∧ s.cadence.Hits a w := by
  refine (clockMachine task.code options).run_invariant (C := fun _ _ => True)
    (I := fun s => s.Regular options ∧ s.cadence.Hits a w) ?_ ?_
    ((clockMachine task.code options).along_of_forall fun _ _ => trivial) hrun
  · rintro s l t ⟨hregular, hhits⟩ - hstep
    obtain ⟨hregular', hduration, hcadence⟩ := cycle_some htask hhours hregular hstep
    rw [hcadence]
    exact ⟨hregular', Cadence.hits_advance (by omega) hwide hhits⟩
  · refine ⟨regular_start htask licFile time, .inl ?_⟩
    rw [cadence_start htask]
    exact hstart

/-- No month is skipped if the days of the test that every month has are a window
as wide as the longest gap: one day if the gap is at most a day, two otherwise. -/
theorem noMonthSkipped (hpos : 1 ≤ first) (hle : first ≤ last) (hmax : hours ≤ 24)
    (hwide : (first ≤ 28 ∧ hours ≤ 23) ∨ (first ≤ 27 ∧ first < last)) :
    task.NoMonthSkipped options := by
  intro licFile time labels s hrun n hday hstart hpassed
  have hlength := daysIn_bounds (dateAt n).year (dateAt n).month
  obtain ⟨k, hk, hklast, hkwide⟩ : ∃ k, k ≤ (dateAt n).daysInMonth ∧ k ≤ last ∧
      (first - 1) * dayLength + (hour + hours * hour) ≤ k * dayLength := by
    refine ⟨min last (dateAt n).daysInMonth, Nat.min_le_right _ _, Nat.min_le_left _ _, ?_⟩
    simp only [Date.daysInMonth, dayLength, hour]
    omega
  have hsplit (m : ℕ) : (n + m) * dayLength = n * dayLength + m * dayLength := Nat.add_mul n m dayLength
  have hend : (n + k) * dayLength ≤ (n + (dateAt n).daysInMonth) * dayLength :=
    Nat.mul_le_mul_right _ (by omega)
  have hwindow : (n + (first - 1)) * dayLength + (hour + hours * hour) ≤ (n + k) * dayLength := by
    rw [hsplit, hsplit]
    omega
  have hbegin : n * dayLength ≤ (n + (first - 1)) * dayLength := Nat.mul_le_mul_right _ (by omega)
  have hsoon : time + 5 * second < (n + k) * dayLength := by
    simp only [second, hour] at hwindow ⊢
    omega
  obtain ⟨hregular, hhits⟩ := hits_run htask hhours hwindow hsoon hrun
  obtain ⟨moment, hpast, hfrom, hto⟩ := Cadence.exists_of_hits hhits (Nat.le_trans hend hpassed)
  obtain ⟨r, hr, rfl⟩ := List.mem_map.mp hpast
  obtain ⟨i, hi, hifrom, hito⟩ := exists_day hfrom hto
  obtain ⟨hoptions, htoday⟩ := hregular.seen r hr
  have hsaw : r.2.today.day = (i + 1 : ℕ) := by
    rw [htoday]
    exact day_of_seen hday (by omega) hi
  refine ⟨r, hr, by omega, by omega, (htask.isDay_iff r.2 hoptions).mpr ?_⟩
  rw [hsaw]
  omega

/-! ### Runs that miss a month -/

/-- No `svc` is running, and one timer is pending. -/
structure Ready (s : Clocked τ) : Prop where
  running : s.task.running = false
  ended : s.task.ended = false
  timers : ∃ timer, s.task.timers = [timer]

variable {env : Env} (hlist : ∀ dir, env.listDir dir = .ok none)
include hlist

omit hhours in
theorem exists_cycle {duration : ℕ} (hs : s.Ready) (hduration : duration ≤ hour)
    (hquiet : quiet (todayAt s.due).day) :
    ∃ t, s.cycle task.code options env duration = some t ∧ t.Ready := by
  obtain ⟨timer, htimer⟩ := hs.timers
  obtain ⟨started, hstart, hrunning, hended⟩ : ∃ started,
      (taskMachine task.code).step s.task (.expire true) = some started ∧ started.running = true ∧
        started.ended = false := by
    simp [taskMachine, htimer, hs.ended, TaskState.handleTimeout, activate, TaskState.setTask, hs.running]
  obtain ⟨ctx, hsvc, hrearmed⟩ := htask.rearms (env.at_ options s.due) started.ctx rfl hlist hquiet
  have hend : (taskMachine task.code).step started (.finish (env.at_ options s.due)) =
      some { started with ctx, running := false } := by
    simp [taskMachine, hrunning, hended, TaskState.finish, hsvc]
  obtain ⟨timer', htimer', -⟩ := timers_singleton hrearmed
  refine ⟨{
    task := { started with ctx, running := false }
    clock := s.due + duration
    runs := s.runs ++ [(s.due, env.at_ options s.due)] }, ?_, rfl, hended, timer', htimer'⟩
  simp only [cycle, hstart, hend, Option.bind_eq_bind, Option.bind_some, TaskState.timers, hduration,
    hrearmed, and_self, if_true]
  rfl

/-- Every list of durations is one of a run, as long as each of its days is quiet. -/
theorem exists_run {durations : List ℕ} (hs : s.Regular options) (hready : s.Ready)
    (hdurations : ∀ d ∈ durations, d ≤ hour)
    (hquiet : ∀ time ∈ (s.cadence.run (durations.map (· + hours * hour))).past,
      quiet (todayAt time).day) :
    ∃ t, (clockMachine task.code options).run s (durations.map fun d => (env, d)) = some t ∧
      t.Regular options ∧ t.cadence = s.cadence.run (durations.map (· + hours * hour)) := by
  induction durations generalizing s with
  | nil => exact ⟨s, rfl, hs, rfl⟩
  | cons duration durations ih =>
    have hnow : s.due ∈ (s.cadence.run ((duration :: durations).map (· + hours * hour))).past :=
      Cadence.past_subset (s.cadence.advance (duration + hours * hour)) _
        (List.mem_append_right _ List.mem_cons_self)
    obtain ⟨u, hstep, hready'⟩ :=
      exists_cycle htask hlist hready (hdurations duration List.mem_cons_self) (hquiet _ hnow)
    obtain ⟨hs', -, hcadence⟩ := cycle_some htask hhours hs hstep
    have hrest : (s.cadence.run ((duration :: durations).map (· + hours * hour))) =
        u.cadence.run (durations.map (· + hours * hour)) := by
      rw [hcadence]
      rfl
    rw [hrest] at hquiet ⊢
    obtain ⟨t, hrun, ht⟩ := ih hs' hready' (fun d hd => hdurations d (List.mem_cons_of_mem _ hd)) hquiet
    exact ⟨t, (Machine.run_cons _ hstep).trans hrun, ht⟩

/-- In the February of 1970, 28 days from day 31 on, no run of `svc` meets a day
of its test. -/
def SkipsFebruary (task : DayTask τ) (options : Options) (time : ℕ) (labels : List (Env × ℕ)) : Prop :=
  ∃ s, (clockMachine task.code options).run (.start (task.make options) none time) labels = some s ∧
    time ≤ 31 * dayLength ∧ (31 + 28) * dayLength ≤ s.due ∧
    ∀ r ∈ s.runs, 31 * dayLength ≤ r.1 → r.1 < (31 + 28) * dayLength → task.isDay r.2 = false

omit htask hhours hlist in
theorem not_noMonthSkipped {time : ℕ} {labels : List (Env × ℕ)}
    (h : SkipsFebruary task options time labels) : ¬ task.NoMonthSkipped options := by
  intro hnone
  obtain ⟨s, hrun, hstart, hpassed, hmissed⟩ := h
  have hfebruary := hnone none time labels s hrun 31 february_day hstart
  rw [february_daysInMonth] at hfebruary
  obtain ⟨r, hr, hfrom, hto, hday⟩ := hfebruary hpassed
  rw [hmissed r hr hfrom hto] at hday
  cases hday

/-- Durations whose events keep off the days of the test give a run that skips
February. -/
theorem skipsFebruary {time : ℕ} (durations : List ℕ) (hstart : time ≤ 31 * dayLength)
    (hdurations : ∀ d ∈ durations, d ≤ hour)
    (hpassed : (31 + 28) * dayLength ≤
      (Cadence.run ⟨time + 5 * second, []⟩ (durations.map (· + hours * hour))).due)
    (hpast : ∀ moment ∈ (Cadence.run ⟨time + 5 * second, []⟩ (durations.map (· + hours * hour))).past,
      quiet (todayAt moment).day ∧ ∀ i < 28, moment / dayLength = 31 + i → i + 1 < first ∨ last < i + 1) :
    SkipsFebruary task options time (durations.map fun d => (env, d)) := by
  have hready : (start (task.make options) none time).Ready :=
    ⟨rfl, rfl, ⟨5, .opened, (task.make options).dayWaitingHours⟩, by
      simp [start, opened, Timed.scheduleTimer, TaskState.timers, htask.timers]⟩
  have hcadence := cadence_start htask none time
  obtain ⟨s, hrun, hs, hs'⟩ := exists_run htask hhours hlist (regular_start htask none time) hready
    hdurations (fun moment hmoment => (hpast moment (hcadence ▸ hmoment)).1)
  rw [hcadence] at hs'
  refine ⟨s, hrun, hstart, ?_, fun r hr hfrom hto => ?_⟩
  · have hdue := congrArg Cadence.due hs'
    exact Nat.le_trans hpassed (Nat.le_of_eq hdue.symm)
  · obtain ⟨hoptions, htoday⟩ := hs.seen r hr
    obtain ⟨i, hi, -, hlt⟩ := exists_day (p := 0) hfrom hto
    have hmoment : r.1 ∈ (Cadence.run ⟨time + 5 * second, []⟩ (durations.map (· + hours * hour))).past := by
      rw [← hs']
      exact List.mem_map_of_mem hr
    have hmissed := (hpast r.1 hmoment).2 i hlt hi
    have hday : r.2.today.day = (i + 1 : ℕ) := by
      rw [htoday]
      exact day_of_seen february_day (by rw [february_daysInMonth]; exact hlt) hi
    rw [Bool.eq_false_iff, Ne, htask.isDay_iff r.2 hoptions, hday]
    omega

/-- Days that February lacks are missed by every run: the shortest one from the
first of February on will do. -/
theorem skips_absent_days (hfirst : 29 ≤ first) (hpos : 1 ≤ hours)
    (hquiet : ∀ day : ℕ, day < first → quiet day) :
    ∃ labels, SkipsFebruary task options (31 * dayLength) labels := by
  have hgap : 0 < hours * hour := Nat.mul_pos hpos (by decide)
  obtain ⟨n, hdue, hpast⟩ := Cadence.exists_reaching hgap
    ⟨31 * dayLength + 5 * second, []⟩ ((31 + 28) * dayLength)
  have hgaps : (List.replicate n 0).map (· + hours * hour) = List.replicate n (hours * hour) := by
    rw [List.map_replicate, Nat.zero_add]
  refine ⟨_, skipsFebruary htask hhours hlist (List.replicate n 0) (Nat.le_refl _) ?_ ?_ ?_⟩
  · intro d hd
    rw [List.eq_of_mem_replicate hd]
    exact Nat.zero_le _
  · rw [hgaps]
    exact hdue
  · rw [hgaps]
    intro moment hmoment
    rcases hpast moment hmoment with hnil | ⟨hfrom, hto⟩
    · cases hnil
    · have hsince : (31 + 0) * dayLength ≤ moment := Nat.le_trans (Nat.le_add_right _ _) hfrom
      obtain ⟨i, hi, -, hlt⟩ := exists_day hsince hto
      have hday := day_of_seen february_day (by rw [february_daysInMonth]; exact hlt) hi
      refine ⟨?_, fun j hj hsame => .inl (by omega)⟩
      rw [hday]
      exact hquiet (i + 1) (by omega)

end Daily

/-! ### The drift of a whole day's delay -/

section Drift

variable {first last : ℕ} {quiet : ℤ → Prop} (htask : task.Daily options first last quiet)
  (hhours : options.nextDayWaitingHours = 24) {env : Env} (hlist : ∀ dir, env.listDir dir = .ok none)
include htask hhours hlist

/-- A run that starts `svc` right before every midnight, and once takes an hour:
the day behind that midnight has no start. -/
theorem skips_single_day (hpos : 1 ≤ first) (hmax : first ≤ 28) (hlast : last = first)
    (hquiet : ∀ day, quiet day) :
    SkipsFebruary task options (31 * dayLength - 1 - 5 * second)
      ((List.replicate (first - 1) 0 ++ hour :: List.replicate 31 0).map fun d => (env, d)) := by
  have hstart : 31 * dayLength - 1 - 5 * second + 5 * second = 31 * dayLength - 1 := by decide
  have hgaps : (List.replicate (first - 1) 0 ++ hour :: List.replicate 31 0).map (· + 24 * hour) =
      List.replicate (first - 1) dayLength ++ (hour + 24 * hour) :: List.replicate 31 dayLength := by
    simp only [List.map_append, List.map_cons, List.map_replicate, Nat.zero_add]
    rfl
  have hpositive (n : ℕ) : ∀ g ∈ List.replicate n dayLength, 0 < g := fun g hg => by
    rw [List.eq_of_mem_replicate hg]
    decide
  have hhours : options.nextDayWaitingHours = (24 : ℕ) := hhours
  refine skipsFebruary htask hhours hlist _ (Nat.le_trans (Nat.sub_le _ _) (Nat.sub_le _ _))
    (fun d hd => ?_) ?_ (fun moment hmoment => ⟨hquiet _, fun i hi hday => ?_⟩)
  · rcases List.mem_append.mp hd with hd | hd
    · rw [List.eq_of_mem_replicate hd]
      exact Nat.zero_le _
    · rcases List.mem_cons.mp hd with rfl | hd
      · exact Nat.le_refl _
      · rw [List.eq_of_mem_replicate hd]
        exact Nat.zero_le _
  · rw [hgaps, hstart, Cadence.run_append, Cadence.run_cons, Cadence.due_replicate, Cadence.advance,
      Cadence.due_replicate]
    simp only [dayLength, hour]
    omega
  · rw [hgaps, hstart] at hmoment
    have hdue := Cadence.due_replicate ⟨31 * dayLength - 1, []⟩ (first - 1) dayLength
    rcases Cadence.mem_past_around (hpositive _) (hpositive _) hmoment with hnil | hbefore | hafter
    · cases hnil
    · left
      rw [hdue] at hbefore
      simp only [dayLength] at hbefore hday
      omega
    · right
      rw [hdue] at hafter
      simp only [dayLength, hour] at hafter hday
      omega

/-- From the first of February on, an hour a day for 23 days brings the start of
`svc` to the end of a day; a last hour then takes it over the 28th. -/
theorem skips_last_day (hfirst : first = 28) (hquiet : ∀ day : ℕ, day < first → quiet day) :
    SkipsFebruary task options (31 * dayLength)
      (((List.replicate 23 hour ++ List.replicate 3 0) ++ [hour]).map fun d => (env, d)) := by
  have hgaps : ((List.replicate 23 hour ++ List.replicate 3 0) ++ [hour]).map (· + 24 * hour) =
      (List.replicate 23 (hour + 24 * hour) ++ List.replicate 3 dayLength) ++ [hour + 24 * hour] := rfl
  have hdue : (Cadence.run ⟨31 * dayLength + 5 * second, []⟩
      (List.replicate 23 (hour + 24 * hour) ++ List.replicate 3 dayLength)).due =
      (31 + 27) * dayLength - hour + 5 * second := by
    rw [Cadence.run_append, Cadence.due_replicate, Cadence.due_replicate]
    rfl
  have hhours : options.nextDayWaitingHours = (24 : ℕ) := hhours
  refine skipsFebruary htask hhours hlist _ (Nat.le_refl _) (by decide) ?_
    (fun moment hmoment => ?_)
  · rw [hgaps, Cadence.run_append, Cadence.run_cons, Cadence.run_nil, Cadence.advance, hdue]
    decide
  · rw [hgaps] at hmoment
    have hbetween : 31 * dayLength + 5 * second ≤ moment ∧
        moment ≤ (31 + 27) * dayLength - hour + 5 * second := by
      rw [← hdue]
      rcases Cadence.mem_past_around (by decide) (by decide) hmoment with hnil | hbefore | hafter
      · cases hnil
      · exact hbefore
      · exact absurd (Nat.lt_of_le_of_lt hafter.1 hafter.2) (Nat.lt_irrefl _)
    have hfrom : (31 + 0) * dayLength ≤ moment := Nat.le_trans (by decide) hbetween.1
    have hto : moment < (31 + 27) * dayLength := Nat.lt_of_le_of_lt hbetween.2 (by decide)
    obtain ⟨i, hi, -, hlt⟩ := exists_day hfrom hto
    have hday := day_of_seen february_day (by rw [february_daysInMonth]; omega) hi
    refine ⟨?_, fun j hj hsame => .inl (by omega)⟩
    rw [hday]
    exact hquiet (i + 1) (by omega)

end Drift

end Clocked

/-! ### The two tasks -/

open Clocked

variable {options : Options}

theorem still_listDir (options : Options) (today : DateTime) (dir : Str) :
    (Env.still options today).listDir dir = .ok none := rfl

theorem ProcessKillerTask.checking_daily (h : Parser.InRange options) :
    checking.Daily options options.dayLicenseCheck.toNat options.dayLicenseCheck.toNat fun _ => True where
  hours := rfl
  timers := rfl
  isDay_iff env henv := by
    have hcheck := h.check
    simp only [checking, isLicenseCheckDay, henv, decide_eq_true_eq]
    omega
  keepsHours env := ProcessKillerTask.moves_svc strokes_keepsHours env
  rearms env c _ hlist _ := by
    have hformed : Formed env := fun _ hfile => by
      rw [isLicenseFile, findFile, hlist] at hfile
      cases hfile
    exact ⟨_, ProcessKillerTask.svc_run hformed c, rfl⟩

theorem GetLicenseTask.svc_other_day {env : Env} (h : isLicenseUpdateDay env = false)
    (c : Ctx (Timed GetLicenseTask)) :
    svc env c = (.ok (), { countDay c with
      task := (countDay c).task.scheduleHandleTimeout .svc (countDay c).task.nextDayWaitingSecs }) := by
  refine catching_ok ?_
  simp only [svcBody, h, Bool.false_eq_true, if_false]
  rfl

theorem GetLicenseTask.updating_daily (h : Parser.InRange options) :
    updating.Daily options options.dayLicenseUpdate.toNat (options.dayLicenseUpdate.toNat + 5)
      fun day => day < options.dayLicenseUpdate where
  hours := rfl
  timers := rfl
  isDay_iff env henv := by
    have hupdate := h.update
    simp only [updating, isLicenseUpdateDay, henv, Constants.checkDays, ge_iff_le, Bool.and_eq_true,
      decide_eq_true_eq]
    omega
  keepsHours env := GetLicenseTask.moves_svc strokes_keepsHours env fun _ _ => trivial
  rearms env c henv _ hday := by
    have hother : isLicenseUpdateDay env = false := by
      have hnot : ¬ options.dayLicenseUpdate ≤ env.today.day := by omega
      simp [isLicenseUpdateDay, henv, hnot]
    exact ⟨_, GetLicenseTask.svc_other_day hother c, rfl⟩

/-- The check day is never missed if every month has it and the timer is back
within a day. -/
theorem ProcessKillerTask.checking_noMonthSkipped_iff (h : Parser.InRange options) :
    checking.NoMonthSkipped options ↔ options.dayLicenseCheck ≤ 28 ∧ options.nextDayWaitingHours ≤ 23 := by
  have hcheck := h.check
  have hhours := h.hours
  have hdaily := ProcessKillerTask.checking_daily h
  obtain ⟨hours, hwaits⟩ : ∃ hours : ℕ, options.nextDayWaitingHours = hours :=
    ⟨options.nextDayWaitingHours.toNat, by omega⟩
  constructor
  · intro hnone
    by_contra hnot
    by_cases habsent : options.dayLicenseCheck ≤ 28
    · have hday : options.nextDayWaitingHours = 24 := by omega
      have hskips := skips_single_day hdaily hday (still_listDir options (todayAt 0)) (by omega) (by omega) rfl
        fun _ => trivial
      exact not_noMonthSkipped hskips hnone
    · obtain ⟨labels, hskips⟩ := skips_absent_days hdaily hwaits (still_listDir options (todayAt 0))
        (by omega) (by omega) fun _ _ => trivial
      exact not_noMonthSkipped hskips hnone
  · rintro ⟨hday, hwait⟩
    exact noMonthSkipped hdaily hwaits (by omega) (Nat.le_refl _) (by omega) (.inl (by omega))

/-- Of the update days, two in every month are enough; if February has only one,
the timer must be back within a day. -/
theorem GetLicenseTask.updating_noMonthSkipped_iff (h : Parser.InRange options) :
    updating.NoMonthSkipped options ↔ options.dayLicenseUpdate ≤ 27 ∨
      (options.dayLicenseUpdate = 28 ∧ options.nextDayWaitingHours ≤ 23) := by
  have hupdate := h.update
  have hhours := h.hours
  have hdaily := GetLicenseTask.updating_daily h
  have hquiet (day : ℕ) (hday : day < options.dayLicenseUpdate.toNat) :
      (day : ℤ) < options.dayLicenseUpdate := by omega
  obtain ⟨hours, hwaits⟩ : ∃ hours : ℕ, options.nextDayWaitingHours = hours :=
    ⟨options.nextDayWaitingHours.toNat, by omega⟩
  constructor
  · intro hnone
    by_contra hnot
    by_cases habsent : options.dayLicenseUpdate ≤ 28
    · have hday : options.nextDayWaitingHours = 24 := by omega
      have hskips := skips_last_day hdaily hday (still_listDir options (todayAt 0)) (by omega) hquiet
      exact not_noMonthSkipped hskips hnone
    · obtain ⟨labels, hskips⟩ := skips_absent_days hdaily hwaits (still_listDir options (todayAt 0))
        (by omega) (by omega) hquiet
      exact not_noMonthSkipped hskips hnone
  · intro hday
    exact noMonthSkipped hdaily hwaits (by omega) (by omega) (by omega) (by omega)

/-- Neither task ever skips a month exactly if every month has its first day and
the timer is back within a day. -/
theorem no_month_skipped_iff (h : options.Accepted) :
    (ProcessKillerTask.checking.NoMonthSkipped options ∧ GetLicenseTask.updating.NoMonthSkipped options) ↔
      options.dayLicenseCheck ≤ 28 ∧ options.dayLicenseUpdate ≤ 28 ∧ options.nextDayWaitingHours ≤ 23 := by
  rw [ProcessKillerTask.checking_noMonthSkipped_iff h.inRange,
    GetLicenseTask.updating_noMonthSkipped_iff h.inRange]
  omega

theorem no_month_skipped_iff_shipped :
    ¬ (ProcessKillerTask.checking.NoMonthSkipped (shippedOptions "/usr/sbin/openvpn".toList) ∧
      GetLicenseTask.updating.NoMonthSkipped (shippedOptions "/usr/sbin/openvpn".toList)) := by
  rw [no_month_skipped_iff (shippedOptions_accepted (by decide))]
  decide

/-- On the shipped configuration, check day 11 and 24 hours: a service that comes
up right before midnight makes no check in February if `svc` takes an hour on
the 10th. -/
theorem check_day_stepped_over :
    (shippedOptions "/usr/sbin/openvpn".toList).Accepted ∧
    SkipsFebruary ProcessKillerTask.checking (shippedOptions "/usr/sbin/openvpn".toList)
      (31 * dayLength - 1 - 5 * second)
      ((List.replicate 10 0 ++ hour :: List.replicate 31 0).map fun d =>
        (Env.still (shippedOptions "/usr/sbin/openvpn".toList) (todayAt 0), d)) ∧
    ¬ ProcessKillerTask.checking.NoMonthSkipped (shippedOptions "/usr/sbin/openvpn".toList) := by
  have haccepted : (shippedOptions "/usr/sbin/openvpn".toList).Accepted :=
    shippedOptions_accepted (by decide)
  have hskips := skips_single_day (ProcessKillerTask.checking_daily haccepted.inRange) rfl
    (still_listDir (shippedOptions "/usr/sbin/openvpn".toList) (todayAt 0)) (by decide) (by decide) rfl
    fun _ => trivial
  exact ⟨haccepted, hskips, not_noMonthSkipped hskips⟩

end ItvpnAgent
