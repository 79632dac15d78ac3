import ItvpnAgent.Tasks.TimerTask
import ItvpnAgent.Tools.Processes

/-! `Process_Killer_Task`: on the check day it kills the configured process when
there is no license file or the verifier rejects it. Every error of the search
and of the verifier derives from `runtime_error`, so `svc` returns, and it re-arms
its timer on every way out; but a command of the verifier that is too long for its
array ends it, and the process with it. -/

namespace ItvpnAgent

open Kit Prog LicenseChecker

structure ProcessKillerTask where
  processStoppingName : Str
  deriving DecidableEq, Repr

namespace ProcessKillerTask

def killedMessage (name : Str) : Str :=
  "\x7b \"code\": \"1\", \"disc\": \"".toList ++ (name ++ " was killed".toList) ++ "\" \x7d".toList

def notFoundMessage (name : Str) : Str :=
  "\x7b \"code\": \"1\", \"disc\": \"".toList ++ ("Process ".toList ++ name ++ " not found".toList) ++
    "\" \x7d".toList

def stopProcess (env : Env) : Prog (Ctx (Timed ProcessKillerTask)) Exn Unit := do
  let name := (← read).task.own.processStoppingName
  if ← System.terminateProcess env name then Net.sendMessage (killedMessage name)
  else Net.sendMessage (notFoundMessage name)

def svcBody (env : Env) : Prog (Ctx (Timed ProcessKillerTask)) Exn Unit := do
  if isLicenseCheckDay env then
    if !(← exit (isLicensed env)) then stopProcess env
  schedule Timed.nextDayWaitingSecs

def svcCatch : Exn → Option (Prog (Ctx (Timed ProcessKillerTask)) Exn Unit)
  | .processError what => some do
    Net.sendMessage (criticalMessage (upTo ':' what))
    schedule Timed.nextDayWaitingSecs
  | e =>
    if e.isRuntimeError then some do
      Net.sendMessage (criticalMessage e.what)
      schedule Timed.nextDayWaitingSecs
    else none

def svc (env : Env) : Prog (Ctx (Timed ProcessKillerTask)) Exn Unit := catching (svcBody env) svcCatch

/-- The setters of `reshedule_tasks`. -/
def adopt (options : Options) (t : Timed ProcessKillerTask) : Timed ProcessKillerTask :=
  { t with
    own := { processStoppingName := options.killFileName }
    dayWaitingHours := options.nextDayWaitingHours }

def code : TaskCode ProcessKillerTask where
  svc := svc
  adopt := adopt

/-- The members as `Service::run` sets them, before `open`. -/
def make (options : Options) : Timed ProcessKillerTask where
  own := { processStoppingName := options.killFileName }
  dayWaitingHours := options.nextDayWaitingHours
  timers := []

/-! ### What one run of `svc` does -/

/-- The text of the notification sent for an error. -/
def errorText : Exn → Str
  | .processError what => upTo ':' what
  | e => e.what

/-- What a run of `svc` does to the outside. -/
def actions (env : Env) (name : Str) : List Action :=
  if isLicenseCheckDay env then
    match isLicensed env with
    | .ok false =>
      [.terminateProcess name,
        .sendMessage (if env.terminates then killedMessage name else notFoundMessage name)]
    | .throw e => [.sendMessage (criticalMessage (errorText e))]
    | .ok true | .undefined | .stuck => []
  else []

/-- If the run comes to call the verifier, the command fits its array. -/
def Formed (env : Env) : Prop :=
  isLicenseCheckDay env = true → isLicenseFile env = .ok true → CommandFits env

instance (env : Env) : Decidable (Formed env) := inferInstanceAs (Decidable (_ → _))

theorem formed_iff {env : Env} :
    Formed env ↔ (isLicenseCheckDay env = true → isLicensed env ≠ .undefined) := by
  simp only [Formed, ne_eq, isLicensed_undefined_iff, not_and, not_not]

theorem svcCatch_runtimeError {e : Exn} (h : e.isRuntimeError = true) :
    svcCatch e = some (do
      Net.sendMessage (criticalMessage (errorText e))
      schedule Timed.nextDayWaitingSecs) := by
  cases e with
  | processError | filesystemError | runtimeError => rfl
  | httpException | jsonException | uriException | other => cases h

/-- `svc` returns wherever the command fits, and re-arms the timer for the next day. -/
theorem svc_run {env : Env} (h : Formed env) (c : Ctx (Timed ProcessKillerTask)) :
    svc env c = (.ok (), {
      task := c.task.scheduleHandleTimeout .svc c.task.nextDayWaitingSecs
      outside := {
        log := c.outside.log ++ actions env c.task.own.processStoppingName
        licFile := c.outside.licFile } }) := by
  cases hday : isLicenseCheckDay env with
  | false => exact catching_ok (by simp [svcBody, actions, hday])
  | true =>
    cases hl : isLicensed env with
    | ok licensed =>
      apply catching_ok
      cases licensed with
      | true => simp [svcBody, actions, hday, hl, bind_run]
      | false =>
        cases hk : env.terminates <;>
          simp [svcBody, actions, hday, hl, hk, bind_run, stopProcess, System.terminateProcess,
            Net.sendMessage, Ctx.act]
    | throw e =>
      have hbody : svcBody env c = (.throw e, c) := by simp [svcBody, hday, hl, bind_run]
      rw [svc, catching_caught hbody (svcCatch_runtimeError (isLicensed_throw hl))]
      simp [actions, hday, hl, bind_run, Net.sendMessage, Ctx.act]
    | undefined => exact absurd hl (formed_iff.mp h hday)
    | stuck => exact absurd hl isLicensed_ne_stuck

/-- Elsewhere it has done nothing when it goes wrong. -/
theorem svc_undefined {env : Env} (h : ¬ Formed env) (c : Ctx (Timed ProcessKillerTask)) :
    svc env c = (.undefined, c) := by
  simp only [formed_iff, Classical.not_imp, not_not] at h
  obtain ⟨hday, hl⟩ := h
  have hbody : svcBody env c = (.undefined, c) := by simp [svcBody, hday, hl, bind_run]
  simp only [svc, catching, hbody]

/-- What a run establishes, where it returns at all. -/
theorem wp_svc {env : Env} {P : Unit → Ctx (Timed ProcessKillerTask) → Prop}
    {p : Exn → Ctx (Timed ProcessKillerTask) → Prop} {c : Ctx (Timed ProcessKillerTask)}
    (hP : ∀ outside, P () {
      task := c.task.scheduleHandleTimeout .svc c.task.nextDayWaitingSecs
      outside }) : wp (svc env) P p c ↔ Formed env := by
  by_cases h : Formed env
  · rw [wp_of_ok (svc_run h c)]
    exact iff_of_true (hP _) h
  · have hwp : wp (svc env) P p c ↔ False := by
      unfold wp
      rw [svc_undefined h]
    rw [hwp]
    exact iff_of_false id h

theorem svc_log (env : Env) (c : Ctx (Timed ProcessKillerTask)) :
    (svc env c).2.outside.log = c.outside.log ++ actions env c.task.own.processStoppingName := by
  by_cases h : Formed env
  · rw [svc_run h]
  · rw [svc_undefined h]
    simp only [formed_iff, Classical.not_imp, not_not] at h
    simp [actions, h]

theorem not_mem_actions (env : Env) (name : Str) (hl : HostLicense) :
    .writeLicense hl ∉ actions env name := by
  unfold actions
  split
  · split <;> simp
  · simp

theorem moves_svc {R : Ctx (Timed ProcessKillerTask) → Ctx (Timed ProcessKillerTask) → Prop}
    {licenses : HostLicense → Prop} (h : TaskStrokes R licenses) (env : Env) : Moves R (svc env) := by
  intro c
  by_cases hformed : Formed env
  · rw [svc_run hformed]
    exact h.seq _ _ _ (h.schedule c c.task.nextDayWaitingSecs) (h.acts _ (not_mem_actions env _) _)
  · rw [svc_undefined hformed]
    exact h.self c

/-! ### What is told of a kill -/

/-- The two notifications are of different lengths. -/
theorem killedMessage_ne_notFoundMessage (name : Str) : killedMessage name ≠ notFoundMessage name := by
  intro h
  have hmiddle : name ++ " was killed".toList = "Process ".toList ++ name ++ " not found".toList :=
    List.append_cancel_left (List.append_cancel_right h)
  have hkilled : " was killed".toList.length = 11 := rfl
  have hprocess : "Process ".toList.length = 8 := rfl
  have hnotFound : " not found".toList.length = 10 := rfl
  have hlength := congrArg List.length hmiddle
  rw [List.length_append, List.length_append, List.length_append, hkilled, hprocess, hnotFound] at hlength
  omega

/-- A kill is told of exactly if the first process that shows the name could be sent
a signal, be it one of the name or not. -/
theorem killed_mem_actions_iff {env : Env} {table : System.ProcessTable} (proc : System.ProcListing table)
    {name : Str} (hday : isLicenseCheckDay env = true) (hlicensed : isLicensed env = .ok false)
    (hterminates : env.terminates = (System.Linux.terminateProcess table proc name).result) :
    .sendMessage (killedMessage name) ∈ actions env name ↔
      ∃ p, table.firstShown name = some p ∧ p.reaction ≠ .denied := by
  rw [System.linux_terminateProcess_eq] at hterminates
  rw [actions, if_pos hday, hlicensed]
  cases hfirst : table.firstShown name with
  | none =>
    rw [hfirst] at hterminates
    simp [hterminates, killedMessage_ne_notFoundMessage]
  | some p =>
    rw [hfirst] at hterminates
    by_cases hdenied : p.reaction = .denied
    · simp [hterminates, hdenied, killedMessage_ne_notFoundMessage]
    · simp [hterminates, hdenied]

end ProcessKillerTask

end ItvpnAgent
