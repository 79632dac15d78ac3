import ItvpnAgent.Tasks.GetLicenseTask

/-! License polling over whole runs: any interleaving of timer expiries, ends of
`svc` and reloads of the configuration, from `open` on. The task is alive while
its process is, it runs or has a timer, and it never has two. A run leaves it
alive exactly if no expiry fails to spawn a thread that is not there yet and
every run of `svc` meets only what it handles. -/

namespace ItvpnAgent.GetLicenseTask

open Kit Prog LicenseChecker

/-- The task is not dead. -/
def Alive (s : TaskState GetLicenseTask) : Prop :=
  s.ended = false ∧ (s.running = true ∨ s.timers ≠ []) ∧ s.timers.length ≤ 1

/-- The step does not kill the task. -/
def Safe (s : TaskState GetLicenseTask) : TaskLabel → Prop
  | .expire spawns => s.running = true ∨ spawns = true
  | .finish env => Meeting (Harmless (s.timers.length = 1)) env s.ctx.outside.licFile
  | .reshedule _ => True

theorem alive_opened (options : Options) (licFile : Option Str) :
    Alive (opened (make options) licFile) := ⟨rfl, .inr nofun, Nat.le_refl 1⟩

theorem alive_finish_iff {s t : TaskState GetLicenseTask} {env : Env} (h : Alive s)
    (hstep : s.finish code env = some t) :
    Alive t ↔ Meeting (Harmless (s.timers.length = 1)) env s.ctx.outside.licFile := by
  have harmed (ctx : Ctx (Timed GetLicenseTask)) :
      Alive { s with ctx, running := false } ↔ ctx.task.timers.length = 1 := by
    simp only [Alive, TaskState.timers, h.1, Bool.false_eq_true, false_or, true_and]
    cases ctx.task.timers with
    | nil => simp
    | cons timer rest => simp
  rw [finish_iff_wp (P := Alive) (fun u hu => hu.1) hstep]
  simp only [harmed]
  refine wp_svc (fun _ _ => rfl) fun ctx hctx => ?_
  rw [hctx, TaskState.timers]

theorem alive_step_iff {s t : TaskState GetLicenseTask} {l : TaskLabel} (h : Alive s)
    (hstep : (taskMachine code).step s l = some t) : Alive t ↔ Safe s l := by
  cases l with
  | expire spawns =>
    obtain ⟨timer, hended, htimers, hcase⟩ := step_expire_single h.2.2 hstep
    obtain ⟨hrun, rfl⟩ | ⟨hrun, rfl, rfl⟩ | ⟨hrun, rfl, rfl⟩ := hcase
    · simp [Alive, Safe, TaskState.setTask, TaskState.timers, hended, hrun]
    · simp [Alive, Safe, TaskState.setTask, TaskState.timers, hended]
    · simp [Alive, Safe, TaskState.setTask, TaskState.timers, hrun]
  | finish env => exact alive_finish_iff h (step_finish hstep).2.2
  | reshedule options =>
    obtain ⟨hended, rfl⟩ := step_reshedule hstep
    simp [Alive, Safe, TaskState.reshedule, TaskState.setTask, TaskState.timers, hended]

/-- The task is alive in every state of a run exactly if every step of the run
is safe. -/
theorem always_alive_iff (options : Options) (licFile : Option Str) (labels : List TaskLabel) :
    (taskMachine code).Always Alive (opened (make options) licFile) labels ↔
      (taskMachine code).Along Safe (opened (make options) licFile) labels :=
  Machine.always_iff_along _ (J := fun _ => True) (fun _ _ _ _ _ => trivial)
    (fun _ _ _ _ h hstep => alive_step_iff h hstep) trivial (alive_opened options licFile)

/-- An update day on which the server cannot be reached: the request fails with
the code of a cancelled connection after the deadline of one second. -/
def unreachable (options : Options) : Env :=
  { Env.still options { day := options.dayLicenseUpdate, month := 1, year := 2020 } with
    exec := fun _ => .ok (List.replicate Constants.uidSize 'A')
    net := {
      start := 0
      attempts := [{
        outcome := .error (.httpException "Failed to connect to any resolved endpoint".toList 110)
        now := 2000000000 }] } }

/-- The clause of an HTTP exception with any other code than that of a wrong
content type re-arms nothing. -/
theorem dead_after_unreachable :
    ∃ s, (taskMachine code).run (opened (make (shippedOptions "/usr/sbin/openvpn".toList)) none)
        [.expire true, .finish (unreachable (shippedOptions "/usr/sbin/openvpn".toList))] = some s ∧
      s.running = false ∧ s.timers = [] ∧ s.ended = false ∧ ¬ Alive s := by
  refine ⟨_, rfl, rfl, rfl, rfl, ?_⟩
  rintro ⟨-, h | h, -⟩
  · cases h
  · exact h rfl

end ItvpnAgent.GetLicenseTask
