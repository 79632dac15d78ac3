import ItvpnAgent.License.VerifyCommand
import ItvpnAgent.Tasks.ProcessKillerTask

/-! License enforcement over whole runs: the process killer runs or has exactly
one timer in every state of a run from `open`, whenever the configuration is
reloaded, and the delay of the timer is the one of `open` and of a reload or the
waiting time in force when `svc` armed it. Of what its runs meet, one thing alone
can end that: a command of the verifier that is too long for its array. -/

namespace ItvpnAgent.ProcessKillerTask

open Kit Prog LicenseChecker

/-- The delay of a timer: five seconds, or the hours at the time of arming. -/
def Timely (timer : Timer) : Prop :=
  (timer.caller ≠ .svc ∧ timer.secs = 5) ∨
    (timer.caller = .svc ∧ timer.secs = timer.hours * 3600 ∧
      3600 ≤ timer.secs ∧ timer.secs ≤ 86400)

structure Enforcing (s : TaskState ProcessKillerTask) : Prop where
  live : s.ended = false
  armed : s.running = true ∨ ∃ timer, s.timers = [timer]
  single : s.timers.length ≤ 1
  timely : ∀ timer ∈ s.timers, Timely timer

/-- The range of the waiting time that `init` has checked; it carries `Enforcing`
through a run. -/
def HoursInRange (s : TaskState ProcessKillerTask) : Prop :=
  1 ≤ s.ctx.task.dayWaitingHours ∧ s.ctx.task.dayWaitingHours ≤ 24

/-- Reloads have accepted their options. -/
def Accepts : TaskLabel → Prop
  | .reshedule options => options.Accepted
  | .expire _ | .finish _ => True

/-- The step leaves the task armed. -/
def Arms (s : TaskState ProcessKillerTask) : TaskLabel → Prop
  | .expire spawns => s.running = true ∨ spawns = true
  | .finish env => Formed env
  | .reshedule _ => True

section Step

variable {s t : TaskState ProcessKillerTask}

theorem timely_nextDay (h : HoursInRange s) :
    Timely { secs := s.ctx.task.nextDayWaitingSecs, caller := .svc, hours := s.ctx.task.dayWaitingHours } := by
  have hlow := h.1
  have hhigh := h.2
  refine .inr ⟨rfl, ?_⟩
  simp only [Timed.nextDayWaitingSecs]
  omega

/-- A single timer, and the process lives. -/
theorem enforcing_of_single {timer : Timer} (hended : s.ended = false) (htimers : s.timers = [timer])
    (htimer : Timely timer) : Enforcing s where
  live := hended
  armed := .inr ⟨timer, htimers⟩
  single := by simp [htimers]
  timely := by simpa [htimers] using htimer

/-- A task whose only timer has expired. -/
theorem enforcing_of_running (hended : s.ended = false) (hrun : s.running = true)
    (htimers : s.timers = []) : Enforcing s where
  live := hended
  armed := .inl hrun
  single := by simp [htimers]
  timely := by simp [htimers]

theorem finish_formed {env : Env} (h : Formed env) : s.finish code env = some { s with
    ctx := {
      task := s.ctx.task.scheduleHandleTimeout .svc s.ctx.task.nextDayWaitingSecs
      outside := (svc env s.ctx).2.outside }
    running := false } := by
  simp only [TaskState.finish, code, svc_run h]

theorem finish_not_formed {env : Env} (h : ¬ Formed env) :
    s.finish code env = some { s with running := false, ended := true } := by
  simp only [TaskState.finish, code, svc_undefined h]

/-- The end of `svc` leaves the settings of the task alone. -/
theorem finish_settings {env : Env} (h : s.finish code env = some t) :
    t.ctx.task.own = s.ctx.task.own ∧ t.ctx.task.dayWaitingHours = s.ctx.task.dayWaitingHours := by
  by_cases hformed : Formed env
  · rw [finish_formed hformed] at h
    cases h
    exact ⟨rfl, rfl⟩
  · rw [finish_not_formed hformed] at h
    cases h
    exact ⟨rfl, rfl⟩

theorem hours_step {l : TaskLabel} (hl : Accepts l) (h : HoursInRange s)
    (hstep : (taskMachine code).step s l = some t) : HoursInRange t := by
  cases l with
  | expire spawns =>
    obtain ⟨timer, rest, -, -, ⟨-, rfl⟩ | ⟨-, -, rfl⟩ | ⟨-, -, rfl⟩⟩ := step_expire hstep
    all_goals exact h
  | finish env =>
    rw [HoursInRange, (finish_settings (step_finish hstep).2.2).2]
    exact h
  | reshedule options =>
    obtain ⟨-, rfl⟩ := step_reshedule hstep
    exact hl.inRange.hours

/-- The end of a run of `svc` re-arms exactly if its command has fitted. -/
theorem enforcing_finish_iff {env : Env} (hhours : HoursInRange s) (hlive : s.ended = false)
    (h : s.finish code env = some t) : Enforcing t ↔ Formed env := by
  by_cases hformed : Formed env
  · rw [finish_formed hformed] at h
    cases h
    exact iff_of_true (enforcing_of_single hlive rfl (timely_nextDay hhours)) hformed
  · rw [finish_not_formed hformed] at h
    cases h
    exact iff_of_false (fun hno => absurd hno.live nofun) hformed

/-- Armed stays armed exactly if a thread is there or can be spawned when the timer
expires, and the command of a run that ends has fitted. -/
theorem enforcing_step_iff {l : TaskLabel} (hhours : HoursInRange s) (h : Enforcing s)
    (hstep : (taskMachine code).step s l = some t) : Enforcing t ↔ Arms s l := by
  cases l with
  | expire spawns =>
    obtain ⟨timer, hended, htimers, hcase⟩ := step_expire_single h.single hstep
    obtain ⟨hrun, rfl⟩ | ⟨-, rfl, rfl⟩ | ⟨hrun, rfl, rfl⟩ := hcase
    · exact iff_of_true (enforcing_of_running hended hrun rfl) (.inl hrun)
    · exact iff_of_true (enforcing_of_running hended rfl rfl) (.inr rfl)
    · refine iff_of_false (fun hno => ?_) ?_
      · obtain hrun' | ⟨timer', htimers'⟩ := hno.armed
        · exact absurd (hrun.symm.trans hrun') Bool.false_ne_true
        · cases htimers'
      · simp [Arms, hrun]
  | finish env => exact enforcing_finish_iff hhours h.live (step_finish hstep).2.2
  | reshedule options =>
    obtain ⟨hended, rfl⟩ := step_reshedule hstep
    exact iff_of_true (enforcing_of_single hended rfl (.inl ⟨nofun, rfl⟩)) trivial

theorem opened_spec {options : Options} (h : options.Accepted) (licFile : Option Str) :
    HoursInRange (opened (make options) licFile) ∧ Enforcing (opened (make options) licFile) :=
  ⟨h.inRange.hours, enforcing_of_single rfl rfl (.inl ⟨nofun, rfl⟩)⟩

/-- A run of `svc` in flight can always end. -/
theorem exists_finish (h : Enforcing s) (hrun : s.running = true) (env : Env) :
    ∃ t, (taskMachine code).step s (.finish env) = some t := by
  have hguard : (s.running && !s.ended) = true := by rw [hrun, h.live]; rfl
  by_cases hformed : Formed env
  · exact ⟨_, (if_pos hguard).trans (finish_formed hformed)⟩
  · exact ⟨_, (if_pos hguard).trans (finish_not_formed hformed)⟩

end Step

/-! ### Whole runs -/

/-- Threads can be spawned, and reloads have accepted their options. -/
def Admissible : TaskLabel → Prop
  | .expire spawns => spawns = true
  | .finish _ => True
  | .reshedule options => options.Accepted

/-- A run of `svc` that ends on a check day with the license file in place has had a
command that fits its array. -/
def Forms : TaskLabel → Prop
  | .finish env => isLicenseCheckDay env = true → isLicenseFile env = .ok true → CommandFits env
  | .expire _ | .reshedule _ => True

theorem arms_iff_forms {s : TaskState ProcessKillerTask} {l : TaskLabel} (hl : Admissible l) :
    Arms s l ↔ Forms l := by
  cases l with
  | expire spawns => exact iff_of_true (.inr hl) trivial
  | finish env => exact Iff.rfl
  | reshedule options => exact Iff.rfl

/-- The process killer stays armed along a run exactly if all the commands of its runs
fit. -/
theorem always_enforcing_iff {options : Options} (h : options.Accepted) (licFile : Option Str)
    {labels : List TaskLabel} (hl : ∀ l ∈ labels, Admissible l) :
    (taskMachine code).Always Enforcing (opened (make options) licFile) labels ↔
      (taskMachine code).Along (fun _ => Forms) (opened (make options) licFile) labels := by
  obtain ⟨hhours, henforcing⟩ := opened_spec h licFile
  refine (taskMachine code).always_iff_along_of_forall (L := Admissible) (J := HoursInRange)
    (fun s l t hadmissible hs hstep => hours_step ?_ hs hstep)
    (fun s l t hadmissible hs henforcing hstep =>
      (enforcing_step_iff hs henforcing hstep).trans (arms_iff_forms hadmissible)) hl hhours henforcing
  cases l with
  | expire | finish => trivial
  | reshedule options => exact hadmissible

/-- A reload falls into a run of `svc` on the check day, and the timer it arms expires
before that run ends. -/
def overtakenRun : List TaskLabel := [.expire true, .reshedule (shippedOptions "/usr/sbin/openvpn".toList),
  .expire true, .finish (Env.still (shippedOptions "/usr/sbin/openvpn".toList) ⟨11, 1, 2020⟩)]

theorem always_enforcing_iff_overtaken :
    (taskMachine code).Always Enforcing (opened (make (shippedOptions "/usr/sbin/openvpn".toList)) none)
      overtakenRun := by
  have haccepted : (shippedOptions "/usr/sbin/openvpn".toList).Accepted :=
    shippedOptions_accepted (by decide)
  have hl : ∀ l ∈ overtakenRun, Admissible l := by
    simp only [overtakenRun, List.forall_mem_cons, Admissible, List.not_mem_nil, false_imp_iff,
      implies_true, and_true, true_and]
    exact haccepted
  have hforms : ∀ l ∈ overtakenRun, Forms l := by
    simp only [overtakenRun, List.forall_mem_cons, Forms, List.not_mem_nil, false_imp_iff, implies_true,
      and_true, true_and]
    -- there is no license file
    exact fun _ hfile => by cases hfile
  exact (always_enforcing_iff haccepted none hl).mpr ((taskMachine code).along_of_forall hforms)

/-- Accepted options with a product of 8192 characters. -/
def longProduct : Options := shippedVerifier "/opt/itvpn/itvpn_lic".toList (List.replicate 8192 '2')

/-- The check day, with the license file in place. -/
def longCheckDay : Env :=
  { Env.still longProduct { day := 11, month := 1, year := 2020 } with
    listDir := fun _ => .ok (some [{ leaf := "license.lic".toList, isDirectory := false }]) }

theorem longCheckDay_not_formed : ¬ Formed longCheckDay := by
  intro h
  have hfits : (makeVerifyLicenseCmd longProduct).length < 8192 := h rfl rfl
  have hprod : cStr longProduct.prod = List.replicate 8192 '2' :=
    upTo_of_notMem fun hmem => absurd (List.eq_of_mem_replicate hmem) (by decide)
  rw [length_makeVerifyLicenseCmd, hprod, List.length_replicate] at hfits
  omega

/-- On these options the first run of the check day prints past the array: no timer is
left, and nobody to arm one. -/
theorem ended_by_long_command : longProduct.Accepted ∧
    (∀ l ∈ [TaskLabel.expire true, .finish longCheckDay], Admissible l) ∧
    ∃ s, (taskMachine code).run (opened (make longProduct) none)
        [.expire true, .finish longCheckDay] = some s ∧
      s.ended = true ∧ s.running = false ∧ s.timers = [] ∧ ¬ Enforcing s := by
  have hprod : List.replicate 8192 '2' ≠ [] := by
    rw [ne_eq, List.replicate_eq_nil_iff]
    decide
  refine ⟨shippedVerifier_accepted (by decide) hprod, by simp [Admissible], ?_⟩
  obtain ⟨s, hs, hrun, hended, htimers⟩ : ∃ s, (taskMachine code).step (opened (make longProduct) none)
      (.expire true) = some s ∧ s.running = true ∧ s.ended = false ∧ s.timers = [] := ⟨_, rfl, rfl, rfl, rfl⟩
  have hfinish : (taskMachine code).step s (.finish longCheckDay) =
      some { s with running := false, ended := true } := by
    have hguard : (s.running && !s.ended) = true := by rw [hrun, hended]; rfl
    exact (if_pos hguard).trans (finish_not_formed longCheckDay_not_formed)
  refine ⟨{ s with running := false, ended := true }, ?_, rfl, rfl, htimers, fun hno => absurd hno.live nofun⟩
  rw [Machine.run_cons _ hs, Machine.run_cons _ hfinish]
  rfl

end ItvpnAgent.ProcessKillerTask
