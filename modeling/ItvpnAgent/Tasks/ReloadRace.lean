import ItvpnAgent.Tasks.GetLicenseTask
import ItvpnAgent.Tasks.ProcessKillerTask

/-! A reload against a run in flight. The property is that the run ordered by a
reload stays ordered until a run starts. What a task's code does at its end is
summed up by two predicates on the input of `svc`: whether it returns, and
whether it has re-armed the timer by then. A run of the machine keeps the
property exactly if no `svc` that overlaps a reload re-arms, and the timer of the
reload has not expired under it. -/

namespace ItvpnAgent

open Kit Prog

section Code

variable {τ : Type}

/-- No `svc` is running and `reshedule_tasks` was called after the last start of
one: then the pending timer is the 5-second timer of the reload. -/
def ReloadPending (s : TaskState τ) : Prop :=
  s.ended = false → s.running = false → s.reloaded = true →
    ∃ hours, s.timers = [{ secs := 5, caller := .reload, hours }]

/-- `returns` and `rearms` tell of the input of a run of `svc` that ends whether
it returns, and then whether it re-arms. -/
structure EndsAs (code : TaskCode τ) (returns rearms : Env → Option Str → Prop) : Prop where
  returns_iff : ∀ env ctx, wp (code.svc env) (fun _ _ => True) (fun _ _ => False) ctx ↔
    returns env ctx.outside.licFile
  rearms_iff : ∀ env ctx, ¬ ctx.task.ArmedBySvc →
    (wp (code.svc env) (fun _ t => t.task.ArmedBySvc) (fun _ _ => False) ctx ↔
      rearms env ctx.outside.licFile)
  moves : ∀ env, Moves KeepsOrArms (code.svc env)

/-- The step leaves a reload in force. -/
def LeavesReload (returns rearms : Env → Option Str → Prop) (s : TaskState τ) : TaskLabel → Prop
  | .expire spawns => s.running = true ∨ spawns = true ∨ s.reloaded = false
  | .finish env => s.reloaded = false ∨ ¬ returns env s.ctx.outside.licFile ∨
      (¬ rearms env s.ctx.outside.licFile ∧ s.timers ≠ [])
  | .reshedule _ => True

/-- While a run of `svc` is in flight, a reload has left its timer or none. -/
def Overtaken (s : TaskState τ) : Prop :=
  s.running = true → s.reloaded = true →
    s.timers = [] ∨ ∃ hours, s.timers = [{ secs := 5, caller := .reload, hours }]

variable {code : TaskCode τ} {returns rearms : Env → Option Str → Prop}

theorem not_armedBySvc_of_overtaken {s : TaskState τ} (h : Overtaken s) (hrun : s.running = true)
    (hreload : s.reloaded = true) : ¬ s.ctx.task.ArmedBySvc := by
  rintro ⟨secs, hours, hsvc⟩
  obtain h | ⟨hours', h⟩ := h hrun hreload
  · rw [TaskState.timers, hsvc] at h
    cases h
  · rw [TaskState.timers, hsvc] at h
    cases h

theorem overtaken_step {s t : TaskState τ} {l : TaskLabel} (h : Overtaken s)
    (hstep : (taskMachine code).step s l = some t) : Overtaken t := by
  cases l with
  | expire spawns =>
    obtain ⟨timer, rest, -, htimers, hcase⟩ := step_expire hstep
    obtain ⟨hrun, rfl⟩ | ⟨-, -, rfl⟩ | ⟨hrun, -, rfl⟩ := hcase
    · intro _ hreload
      obtain hnil | ⟨hours, hone⟩ := h hrun hreload
      · rw [htimers] at hnil
        cases hnil
      · rw [htimers] at hone
        cases hone
        exact .inl rfl
    · exact fun _ hreload => absurd hreload nofun
    · exact fun hrun' => absurd (hrun.symm.trans hrun') nofun
  | finish env =>
    have hfinish := (step_finish hstep).2.2
    unfold TaskState.finish at hfinish
    split at hfinish <;> cases hfinish <;> exact nofun
  | reshedule options =>
    obtain ⟨-, rfl⟩ := step_reshedule hstep
    exact fun _ _ => .inr ⟨_, rfl⟩

/-- The end of a run that has returned: the reload is still pending exactly if
there was none, or the run did not re-arm over a timer that was still there. -/
theorem reloadPending_returned (hcode : EndsAs code returns rearms) {s : TaskState τ} {env : Env}
    {ctx : Ctx (Timed τ)} (h : Overtaken s) (hrun : s.running = true) (hended : s.ended = false)
    (hreturn : code.svc env s.ctx = (.ok (), ctx)) :
    ReloadPending { s with ctx, running := false } ↔
      s.reloaded = false ∨ (¬ rearms env s.ctx.outside.licFile ∧ s.timers ≠ []) := by
  cases hreload : s.reloaded with
  | false => simp [ReloadPending]
  | true =>
    have hsvc := not_armedBySvc_of_overtaken h hrun hreload
    have hrearms : ctx.task.ArmedBySvc ↔ rearms env s.ctx.outside.licFile := by
      rw [← hcode.rearms_iff env s.ctx hsvc, wp_of_ok hreturn]
    have hmoves := hcode.moves env s.ctx
    rw [hreturn] at hmoves
    simp only [ReloadPending, hended, TaskState.timers, true_imp_iff, ← hrearms,
      Bool.true_eq_false, false_or]
    by_cases harmed : ctx.task.ArmedBySvc
    · obtain ⟨secs, hours, htimers⟩ := harmed
      refine iff_of_false ?_ fun hno => hno.1 ⟨secs, hours, htimers⟩
      rintro ⟨hours', htimers'⟩
      rw [htimers] at htimers'
      cases htimers'
    · obtain hkept | harmed' := hmoves
      · rw [hkept]
        obtain hnil | hone := h hrun hreload
        · rw [TaskState.timers] at hnil
          simp [hnil]
        · rw [TaskState.timers] at hone
          refine iff_of_true hone ⟨harmed, ?_⟩
          obtain ⟨hours, hone⟩ := hone
          simp [hone]
      · exact absurd harmed' harmed

theorem reloadPending_finish (hcode : EndsAs code returns rearms) {s t : TaskState τ} {env : Env}
    (h : Overtaken s) (hrun : s.running = true) (hended : s.ended = false)
    (hstep : s.finish code env = some t) :
    ReloadPending t ↔ LeavesReload returns rearms s (.finish env) := by
  have hreturns := hcode.returns_iff env s.ctx
  unfold wp at hreturns
  unfold TaskState.finish at hstep
  split at hstep
  · next ctx hout =>
    cases hstep
    simp only [hout, true_iff] at hreturns
    rw [reloadPending_returned hcode h hrun hended hout]
    simp [LeavesReload, hreturns]
  · next e ctx hout =>
    cases hstep
    simp only [hout, false_iff] at hreturns
    exact iff_of_true nofun (.inr (.inl hreturns))
  · next ctx hout =>
    cases hstep
    simp only [hout, false_iff] at hreturns
    exact iff_of_true nofun (.inr (.inl hreturns))
  · cases hstep

theorem reloadPending_step_iff (hcode : EndsAs code returns rearms) {s t : TaskState τ}
    {l : TaskLabel} (h : Overtaken s) (hstep : (taskMachine code).step s l = some t) :
    ReloadPending t ↔ LeavesReload returns rearms s l := by
  cases l with
  | expire spawns =>
    obtain ⟨timer, rest, hended, htimers, hcase⟩ := step_expire hstep
    obtain ⟨hrun, rfl⟩ | ⟨-, hspawns, rfl⟩ | ⟨hrun, hspawns, rfl⟩ := hcase
    · simp [ReloadPending, LeavesReload, TaskState.setTask, hrun]
    · simp [ReloadPending, LeavesReload, TaskState.setTask, hspawns]
    · simp [ReloadPending, LeavesReload, TaskState.setTask, TaskState.timers, hrun, hspawns, hended]
  | finish env =>
    obtain ⟨hrun, hended, hfinish⟩ := step_finish hstep
    exact reloadPending_finish hcode h hrun hended hfinish
  | reshedule options =>
    obtain ⟨-, rfl⟩ := step_reshedule hstep
    exact iff_of_true (fun _ _ _ => ⟨_, rfl⟩) trivial

theorem always_reloadPending (hcode : EndsAs code returns rearms) (task : Timed τ)
    (licFile : Option Str) (labels : List TaskLabel) :
    (taskMachine code).Always ReloadPending (opened task licFile) labels ↔
      (taskMachine code).Along (LeavesReload returns rearms) (opened task licFile) labels :=
  Machine.always_iff_along _ (J := Overtaken) (fun _ _ _ => overtaken_step)
    (fun _ _ _ h _ hstep => reloadPending_step_iff hcode h hstep)
    (fun hrun => absurd hrun Bool.false_ne_true)
    (fun _ _ hreload => absurd hreload Bool.false_ne_true)

end Code

/-! ### The two tasks -/

theorem ProcessKillerTask.endsAs :
    EndsAs ProcessKillerTask.code (fun env _ => Formed env) (fun env _ => Formed env) where
  returns_iff _ _ := wp_svc fun _ => trivial
  rearms_iff _ _ _ := wp_svc fun _ => ⟨_, _, rfl⟩
  moves := moves_svc strokes_keepsOrArms

theorem GetLicenseTask.endsAs :
    EndsAs GetLicenseTask.code (Meeting (Harmless True)) (Meeting (Harmless False)) where
  returns_iff _ _ := wp_svc (fun _ _ => trivial) fun _ _ => Iff.rfl
  rearms_iff _ ctx hsvc := wp_svc (P := fun t => t.task.ArmedBySvc) (fun _ _ => ⟨_, _, rfl⟩)
    fun t ht => by simp only [ht, hsvc]
  moves env := moves_svc strokes_keepsOrArms env fun _ _ => trivial

/-- For both tasks: the run ordered by a reload stays ordered in every state of
a run exactly if every step of the run leaves it so. -/
theorem reload_survives_iff (options : Options) (licFile : Option Str) (labels : List TaskLabel) :
    ((taskMachine GetLicenseTask.code).Always ReloadPending
        (opened (GetLicenseTask.make options) licFile) labels ↔
      (taskMachine GetLicenseTask.code).Along
        (LeavesReload (GetLicenseTask.Meeting (GetLicenseTask.Harmless True))
          (GetLicenseTask.Meeting (GetLicenseTask.Harmless False)))
        (opened (GetLicenseTask.make options) licFile) labels) ∧
    ((taskMachine ProcessKillerTask.code).Always ReloadPending
        (opened (ProcessKillerTask.make options) licFile) labels ↔
      (taskMachine ProcessKillerTask.code).Along
        (LeavesReload (fun env _ => ProcessKillerTask.Formed env) (fun env _ => ProcessKillerTask.Formed env))
        (opened (ProcessKillerTask.make options) licFile) labels) :=
  ⟨always_reloadPending GetLicenseTask.endsAs _ licFile labels,
    always_reloadPending ProcessKillerTask.endsAs _ licFile labels⟩

/-- A reload during a run of the process killer: at its end the run cancels the
5-second timer and arms one of a day. -/
theorem reload_cancelled :
    ∃ s, (taskMachine ProcessKillerTask.code).run
        (opened (ProcessKillerTask.make (shippedOptions "/usr/sbin/openvpn".toList)) none)
        [.expire true, .reshedule (shippedOptions "/usr/sbin/openvpn".toList),
          .finish (Env.still (shippedOptions "/usr/sbin/openvpn".toList) ⟨11, 1, 2020⟩)] = some s ∧
      s.running = false ∧ s.reloaded = true ∧
      s.timers = [{ secs := 86400, caller := .svc, hours := 24 }] ∧ ¬ ReloadPending s := by
  refine ⟨_, rfl, rfl, rfl, rfl, fun h => ?_⟩
  obtain ⟨hours, h⟩ := h rfl rfl rfl
  cases h

end ItvpnAgent
