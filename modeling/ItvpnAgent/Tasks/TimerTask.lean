import ItvpnAgent.Kit.Machine
import ItvpnAgent.License.LicenseChecker

/-! A task that lives on one-shot timers of the reactor: the timer expires,
`handle_timeout` activates the task, its thread runs `svc`, and `svc` arms the
next timer. A reload of the configuration re-arms the timer from another thread.
`Get_License_Task` and `Process_Killer_Task` are two such tasks; their code is
the parameter of the machine below. The re-arming call and the exit of `svc`
are one step. -/

namespace ItvpnAgent

open Kit Prog

/-- Who armed a timer: `open`, `reshedule_tasks` or `svc`. -/
inductive Caller where
  | opened
  | reload
  | svc
  deriving DecidableEq, Repr

/-- A pending one-shot timer: its delay in seconds, who armed it, and the
`day_waiting_hours_` of the task at that moment. -/
structure Timer where
  secs : ℤ
  caller : Caller
  hours : ℤ
  deriving DecidableEq, Repr

/-- The members of a task: its own, `day_waiting_hours_`, and the timers the
reactor holds for it. -/
structure Timed (τ : Type) where
  own : τ
  dayWaitingHours : ℤ
  timers : List Timer
  deriving DecidableEq, Repr

namespace Timed

variable {τ : Type}

/-- `reactor()->schedule_timer(this, ...)`. -/
def scheduleTimer (caller : Caller) (secs : ℤ) (t : Timed τ) : Timed τ :=
  { t with timers := t.timers ++ [{ secs, caller, hours := t.dayWaitingHours }] }

/-- `reactor()->cancel_timer(this)`. -/
def cancelTimer (t : Timed τ) : Timed τ := { t with timers := [] }

/-- `schedule_handle_timeout`. -/
def scheduleHandleTimeout (caller : Caller) (secs : ℤ) (t : Timed τ) : Timed τ :=
  t.cancelTimer.scheduleTimer caller secs

def nextDayWaitingSecs (t : Timed τ) : ℤ := t.dayWaitingHours * 60 * 60

@[simp] theorem scheduleHandleTimeout_timers (caller : Caller) (secs : ℤ) (t : Timed τ) :
    (t.scheduleHandleTimeout caller secs).timers = [⟨secs, caller, t.dayWaitingHours⟩] := rfl

@[simp] theorem scheduleHandleTimeout_dayWaitingHours (caller : Caller) (secs : ℤ) (t : Timed τ) :
    (t.scheduleHandleTimeout caller secs).dayWaitingHours = t.dayWaitingHours := rfl

@[simp] theorem scheduleHandleTimeout_own (caller : Caller) (secs : ℤ) (t : Timed τ) :
    (t.scheduleHandleTimeout caller secs).own = t.own := rfl

end Timed

/-- The call of `schedule_handle_timeout` inside `svc`. -/
def schedule {τ : Type} (secs : Timed τ → ℤ) : Prog (Ctx (Timed τ)) Exn Unit :=
  update fun c => { c with task := c.task.scheduleHandleTimeout .svc (secs c.task) }

@[simp] theorem schedule_run {τ : Type} (secs : Timed τ → ℤ) (c : Ctx (Timed τ)) :
    schedule secs c =
      (.ok (), { c with task := c.task.scheduleHandleTimeout .svc (secs c.task) }) := rfl

/-- The one timer of the task was armed by `svc`. -/
def Timed.ArmedBySvc {τ : Type} (t : Timed τ) : Prop :=
  ∃ secs hours, t.timers = [{ secs, caller := .svc, hours }]

/-- The strokes of the code of a task: it may set its own members, and re-arm. -/
structure TaskStrokes {τ : Type} (R : Ctx (Timed τ) → Ctx (Timed τ) → Prop)
    (licenses : HostLicense → Prop) : Prop extends LicenseChecker.Strokes R licenses where
  own : ∀ c own, R c { c with task := { c.task with own } }
  schedule : ∀ c secs, R c { c with task := c.task.scheduleHandleTimeout .svc secs }

theorem TaskStrokes.moves_schedule {τ : Type} {R : Ctx (Timed τ) → Ctx (Timed τ) → Prop}
    {licenses : HostLicense → Prop} (h : TaskStrokes R licenses) (secs : Timed τ → ℤ) :
    Moves R (ItvpnAgent.schedule secs) := fun c => h.schedule c (secs c.task)

/-- All a task's code does to its timers: it leaves them alone or re-arms. -/
def KeepsOrArms {τ : Type} (c t : Ctx (Timed τ)) : Prop :=
  t.task.timers = c.task.timers ∨ t.task.ArmedBySvc

theorem strokes_keepsOrArms {τ : Type} : TaskStrokes (KeepsOrArms (τ := τ)) fun _ => True where
  self _ := .inl rfl
  seq c t u h h' := by
    obtain h' | h' := h'
    · obtain h | ⟨secs, hours, h⟩ := h
      · exact .inl (h'.trans h)
      · exact .inr ⟨secs, hours, h'.trans h⟩
    · exact .inr h'
  act _ _ _ := .inl rfl
  setLicFile _ _ := .inl rfl
  own _ _ := .inl rfl
  schedule _ _ := .inr ⟨_, _, rfl⟩

/-- A task's code leaves `day_waiting_hours_` to the setters. -/
def KeepsHours {τ : Type} (c t : Ctx (Timed τ)) : Prop :=
  t.task.dayWaitingHours = c.task.dayWaitingHours

theorem strokes_keepsHours {τ : Type} : TaskStrokes (KeepsHours (τ := τ)) fun _ => True where
  self _ := rfl
  seq _ _ _ h h' := h'.trans h
  act _ _ _ := rfl
  setLicFile _ _ := rfl
  own _ _ := rfl
  schedule _ _ := rfl

/-! ### The machine -/

/-- The code of a task: `svc`, and the setters `reshedule_tasks` calls. -/
structure TaskCode (τ : Type) where
  svc : Env → Prog (Ctx (Timed τ)) Exn Unit
  adopt : Options → Timed τ → Timed τ

/-- `ended`: an exception nobody caught, or undefined behaviour, has ended the
process. `reloaded`: `reshedule_tasks` was called after the last start of `svc`. -/
structure TaskState (τ : Type) where
  ctx : Ctx (Timed τ)
  running : Bool
  reloaded : Bool
  ended : Bool
  deriving DecidableEq, Repr

/-- A timer expires, `svc` ends having seen the world `env`, or a reload with
the given options in force reschedules the task. -/
inductive TaskLabel where
  | expire (spawns : Bool)
  | finish (env : Env)
  | reshedule (options : Options)

/-- `activate` is a no-op that returns 1 while a thread of the task runs;
otherwise it spawns one or fails. -/
def activate (running spawns : Bool) : ℤ := if running then 1 else if spawns then 0 else -1

namespace TaskState

variable {τ : Type} (s : TaskState τ)

def timers : List Timer := s.ctx.task.timers

def setTask (task : Timed τ) : TaskState τ := { s with ctx := { s.ctx with task } }

/-- `handle_timeout` of the expired timer: 0, or -1 where `activate` fails, and
then the reactor drops the other timers of the task too. -/
def handleTimeout (rest : List Timer) (spawns : Bool) : TaskState τ :=
  let s := s.setTask { s.ctx.task with timers := rest }
  if activate s.running spawns = -1 then s.setTask s.ctx.task.cancelTimer
  else if activate s.running spawns = 0 then { s with running := true, reloaded := false }
  else s

/-- The task's share of `Service::reshedule_tasks`. -/
def reshedule (code : TaskCode τ) (options : Options) : TaskState τ :=
  { s.setTask ((code.adopt options s.ctx.task).scheduleHandleTimeout .reload 5) with
    reloaded := true }

def finish (code : TaskCode τ) (env : Env) : Option (TaskState τ) :=
  match code.svc env s.ctx with
  | (.ok (), ctx) => some { s with ctx, running := false }
  | (.throw _, ctx) | (.undefined, ctx) => some { s with ctx, running := false, ended := true }
  | (.stuck, _) => none

end TaskState

/-- A task after `open`, which arms the first timer. -/
def opened {τ : Type} (task : Timed τ) (licFile : Option Str) : TaskState τ where
  ctx := { task := task.scheduleTimer .opened 5, outside := { log := [], licFile } }
  running := false
  reloaded := false
  ended := false

def taskMachine {τ : Type} (code : TaskCode τ) : Machine (TaskState τ) TaskLabel where
  step s
    | .expire spawns =>
      match s.ended, s.timers with
      | false, _ :: rest => some (s.handleTimeout rest spawns)
      | _, _ => none
    | .finish env => if s.running && !s.ended then s.finish code env else none
    | .reshedule options => if s.ended then none else some (s.reshedule code options)

/-! ### What a step can do -/

section Step

variable {τ : Type} {code : TaskCode τ} {s t : TaskState τ}

theorem step_expire {spawns : Bool} (h : (taskMachine code).step s (.expire spawns) = some t) :
    ∃ timer rest, s.ended = false ∧ s.timers = timer :: rest ∧
      ((s.running = true ∧ t = s.setTask { s.ctx.task with timers := rest }) ∨
       (s.running = false ∧ spawns = true ∧
         t = { s.setTask { s.ctx.task with timers := rest } with
           running := true, reloaded := false }) ∨
       (s.running = false ∧ spawns = false ∧
         t = s.setTask { s.ctx.task with timers := [] })) := by
  simp only [taskMachine] at h
  split at h
  · next timer rest he ht =>
    simp only [Option.some.injEq] at h
    subst h
    refine ⟨timer, rest, he, ht, ?_⟩
    cases hr : s.running
    · cases spawns <;>
        simp [TaskState.handleTimeout, activate, TaskState.setTask, hr, Timed.cancelTimer]
    · simp [TaskState.handleTimeout, activate, TaskState.setTask, hr]
  · contradiction

/-- With one timer at most none is left behind. -/
theorem step_expire_single {spawns : Bool} (hsingle : s.timers.length ≤ 1)
    (h : (taskMachine code).step s (.expire spawns) = some t) : ∃ timer, s.ended = false ∧ s.timers = [timer] ∧
      ((s.running = true ∧ t = s.setTask { s.ctx.task with timers := [] }) ∨
       (s.running = false ∧ spawns = true ∧
         t = { s.setTask { s.ctx.task with timers := [] } with
           running := true, reloaded := false }) ∨
       (s.running = false ∧ spawns = false ∧ t = s.setTask { s.ctx.task with timers := [] })) := by
  obtain ⟨timer, rest, hended, htimers, hcase⟩ := step_expire h
  have hrest : rest = [] := by
    rw [htimers, List.length_cons] at hsingle
    exact List.length_eq_zero_iff.mp (by omega)
  subst hrest
  exact ⟨timer, hended, htimers, hcase⟩

theorem step_finish {env : Env} (h : (taskMachine code).step s (.finish env) = some t) :
    s.running = true ∧ s.ended = false ∧ s.finish code env = some t := by
  simp only [taskMachine] at h
  split at h
  · next hs =>
    simp only [Bool.and_eq_true, Bool.not_eq_true'] at hs
    exact ⟨hs.1, hs.2, h⟩
  · contradiction

theorem step_reshedule {options : Options}
    (h : (taskMachine code).step s (.reshedule options) = some t) :
    s.ended = false ∧ t = s.reshedule code options := by
  simp only [taskMachine] at h
  split at h
  · contradiction
  · next hs => exact ⟨by simpa using hs, by simpa using h.symm⟩

theorem finish_ctx {env : Env} (h : s.finish code env = some t) : t.ctx = (code.svc env s.ctx).2 := by
  unfold TaskState.finish at h
  split at h
  · next hrun =>
    cases h
    rw [hrun]
  · next hrun =>
    cases h
    rw [hrun]
  · next hrun =>
    cases h
    rw [hrun]
  · cases h

/-- Only the end of a run of `svc` has effects outside. -/
theorem step_outside {l : TaskLabel} (h : (taskMachine code).step s l = some t) :
    t.ctx.outside = s.ctx.outside ∨ ∃ env, l = .finish env ∧ s.finish code env = some t := by
  cases l with
  | expire spawns =>
    obtain ⟨timer, rest, -, -, ⟨-, rfl⟩ | ⟨-, -, rfl⟩ | ⟨-, -, rfl⟩⟩ := step_expire h
    all_goals exact .inl rfl
  | finish env => exact .inr ⟨env, rfl, (step_finish h).2.2⟩
  | reshedule options =>
    obtain ⟨-, rfl⟩ := step_reshedule h
    exact .inl rfl

/-- A property of live states holds after a run of `svc` exactly if the run
establishes it on return, and does nothing but return. -/
theorem finish_iff_wp {env : Env} {P : TaskState τ → Prop} (hP : ∀ u, P u → u.ended = false)
    (h : s.finish code env = some t) :
    P t ↔ wp (code.svc env) (fun _ ctx => P { s with ctx, running := false }) (fun _ _ => False)
      s.ctx := by
  have hended {u : TaskState τ} (hu : u.ended = true) : ¬ P u := by
    intro h'
    rw [hP u h'] at hu
    cases hu
  unfold TaskState.finish at h
  unfold wp
  split at h
  · next hrun =>
    cases h
    rw [hrun]
  · next hrun =>
    cases h
    rw [hrun]
    exact iff_of_false (hended rfl) id
  · next hrun =>
    cases h
    rw [hrun]
    exact iff_of_false (hended rfl) id
  · cases h

end Step

end ItvpnAgent
