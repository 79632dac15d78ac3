import ItvpnAgent.Tasks.TimerTask

/-! `Get_License_Task`: on an update day it asks the server for a license and
stores a newer one. -/

namespace ItvpnAgent

open Kit Prog LicenseChecker

structure GetLicenseTask where
  dayCounter : ℤ
  tryGetLicenseMins : ℤ
  deriving DecidableEq, Repr

namespace GetLicenseTask

def wrongLicenseMessage : Str :=
  "1#Host License#Error restponse: retrived host license is wrong".toList

def nextTryGetLicenseSecs (t : Timed GetLicenseTask) : ℤ := t.own.tryGetLicenseMins * 60

/-- Read and check the date of the current license. -/
def storeNewer (env : Env) (hostLicense : HostLicense) : Prog (Ctx (Timed GetLicenseTask)) Exn Unit := do
  if ← isCheckLicensesMonths env hostLicense.month then
    let _ ← writeLicense env hostLicense

/-- The branch of an ACTIVE reply with a license text. -/
def handleLicense (env : Env) (hostLicense : HostLicense) :
    Prog (Ctx (Timed GetLicenseTask)) Exn Unit := do
  if ← lift (isLicenseFile env) then
    if hostLicense.month ≠ 0 then
      storeNewer env hostLicense
      schedule Timed.nextDayWaitingSecs
    else
      Net.sendMessage wrongLicenseMessage
      schedule nextTryGetLicenseSecs
  else
    let _ ← writeLicense env hostLicense
    schedule Timed.nextDayWaitingSecs

def handleResult (env : Env) (result : Result) : Prog (Ctx (Timed GetLicenseTask)) Exn Unit := do
  let hostStatus ← deref result.hostStatus
  Net.sendMessage (hostStatusMessage hostStatus)
  if hostStatus.id = LicHostStatus.active then
    match result.hostLicense with
    | some hostLicense =>
      if hostLicense.license = [] then schedule nextTryGetLicenseSecs
      else handleLicense env hostLicense
    | none => schedule nextTryGetLicenseSecs
  else if hostStatus.id = LicHostStatus.suspended then schedule Timed.nextDayWaitingSecs
  else schedule nextTryGetLicenseSecs

def countDay (c : Ctx (Timed GetLicenseTask)) : Ctx (Timed GetLicenseTask) :=
  { c with task := { c.task with own := { c.task.own with dayCounter := c.task.own.dayCounter + 1 } } }

def svcBody (env : Env) : Prog (Ctx (Timed GetLicenseTask)) Exn Unit :=
  if isLicenseUpdateDay env then do
    let result ← requestLicense env 1
    handleResult env result
  else do
    update countDay
    schedule Timed.nextDayWaitingSecs

def svcCatch : Exn → Option (Prog (Ctx (Timed GetLicenseTask)) Exn Unit)
  | .processError what => some do
    Net.sendMessage (criticalMessage (upTo ':' what))
    schedule nextTryGetLicenseSecs
  | .httpException what code => some do
    if code = ErrorCode.mimeTypes then
      Net.sendMessage (errorMessage what)
      schedule nextTryGetLicenseSecs
  | e =>
    if e.isRuntimeError then some do
      Net.sendMessage (criticalMessage e.what)
      schedule nextTryGetLicenseSecs
    else none

def svc (env : Env) : Prog (Ctx (Timed GetLicenseTask)) Exn Unit := catching (svcBody env) svcCatch

/-- The setters of `reshedule_tasks`. -/
def adopt (options : Options) (t : Timed GetLicenseTask) : Timed GetLicenseTask :=
  { t with
    own := { t.own with tryGetLicenseMins := options.nextTryGetLicenseMins }
    dayWaitingHours := options.nextDayWaitingHours }

def code : TaskCode GetLicenseTask where
  svc := svc
  adopt := adopt

/-- The constructor. -/
def make (options : Options) : Timed GetLicenseTask where
  own := { dayCounter := 0, tryGetLicenseMins := options.nextTryGetLicenseMins }
  dayWaitingHours := options.nextDayWaitingHours
  timers := []

/-! ### When a run of `svc` re-arms the timer -/

/-- The branch an ACTIVE reply with a license text takes reads no unset date. -/
def Storable (env : Env) (file : Option Str) (status : HostStatus) (license : Option HostLicense) :
    Prop :=
  status.id = LicHostStatus.active → ∀ hl, license = some hl → hl.license ≠ [] → hl.month ≠ 0 →
    isLicenseFile env = .ok true → DateReadable env file

/-- Whatever a run of `svc` meets on its way satisfies `p`. -/
def Meeting (p : Exn → Prop) (env : Env) (file : Option Str) : Prop :=
  isLicenseUpdateDay env = true → Requests p (Storable env file) env 1

/-- Caught by `svc` in a clause that re-arms the timer. -/
def rearms : Exn → Bool
  | .httpException _ code => code = ErrorCode.mimeTypes
  | e => e.isRuntimeError

/-- Caught by `svc`. The clause of an HTTP exception with another code does
nothing, which is enough if what it should bring about holds anyway. -/
def Harmless (already : Prop) (e : Exn) : Prop :=
  rearms e = true ∨ (already ∧ ∃ what code, e = .httpException what code)

theorem clauses_harmless (already : Prop) : Clauses (Harmless already) where
  runtimeError e h := by
    cases e with
    | processError | filesystemError | runtimeError => exact .inl rfl
    | httpException | jsonException | uriException | other => cases h
  mimeTypes what := .inl rfl
  jsonException what := by
    rintro (h | ⟨-, _, _, h⟩)
    · cases h
    · cases h

theorem wp_writeLicense {τ : Type} {env : Env} {hl : HostLicense} {P : ℤ → Ctx τ → Prop}
    {p : Exn → Ctx τ → Prop} {c : Ctx τ} (h : ∀ r t, P r t) : wp (writeLicense env hl) P p c := by
  simp only [writeLicense, saveLicenseToFile, wp_bind, wp_update]
  split
  · exact h 0 _
  · exact h (-1) _

section Wp

variable {env : Env} {c : Ctx (Timed GetLicenseTask)} {task : Timed GetLicenseTask} {p : Exn → Prop}
  {q : Exn → Ctx (Timed GetLicenseTask) → Prop} {P : Ctx (Timed GetLicenseTask) → Prop}

/-- `P` is what arming the timer brings about. -/
def BroughtBySchedule (P : Ctx (Timed GetLicenseTask) → Prop) : Prop :=
  ∀ (c : Ctx (Timed GetLicenseTask)) (secs : ℤ),
    P { c with task := c.task.scheduleHandleTimeout .svc secs }

theorem wp_schedule (hP : BroughtBySchedule P) {secs : Timed GetLicenseTask → ℤ} :
    wp (schedule secs) (fun _ => P) q c := hP c _

section Clauses

variable (hp : Clauses p) (hq : ∀ e t, t.task = task → (q e t ↔ p e)) (hc : c.task = task)
include hp hq hc

theorem wp_storeNewer {hl : HostLicense}
    {P : Unit → Ctx (Timed GetLicenseTask) → Prop} (hP : ∀ t, P () t) :
    wp (storeNewer env hl) P q c ↔ DateReadable env c.outside.licFile := by
  simp only [storeNewer, isCheckLicensesMonths, wp_bind, wp_read, wp_exit, wp_pure]
  have hreadable (hne : currentLicenseDate env c.outside.licFile ≠ .undefined) :
      DateReadable env c.outside.licFile :=
    not_not.mp fun hnot => hne (currentLicenseDate_undefined.mpr hnot)
  cases hdate : currentLicenseDate env c.outside.licFile with
  | ok date =>
    have hread := hreadable (by simp [hdate])
    simp only [hread, iff_true]
    split
    · exact (wp_bind _ _).mpr (wp_writeLicense fun _ => hP)
    · exact hP c
  | throw e =>
    have hread := hreadable (by simp [hdate])
    simp only [hread, hq e c hc, hp.runtimeError e (currentLicenseDate_throw hdate)]
  | undefined => simp only [currentLicenseDate_undefined.mp hdate]
  | stuck => exact absurd hdate currentLicenseDate_ne_stuck

theorem wp_handleLicense (hP : BroughtBySchedule P) {hl : HostLicense} :
    wp (handleLicense env hl) (fun _ => P) q c ↔
      (hl.month ≠ 0 → isLicenseFile env = .ok true → DateReadable env c.outside.licFile) := by
  cases hfile : isLicenseFile env with
  | error e =>
    have he := hp.runtimeError e (isLicenseFile_error hfile)
    simp [handleLicense, hfile, wp_lift, Meets, he, hq e c hc]
  | ok found =>
    cases found with
    | false =>
      simp only [handleLicense, hfile, wp_bind, wp_lift, Meets, Bool.false_eq_true, if_false,
        Except.ok.injEq, false_imp_iff, implies_true, iff_true]
      exact wp_writeLicense fun _ _ => wp_schedule hP
    | true =>
      by_cases hmonth : hl.month = 0
      · simpa [handleLicense, hfile, wp_lift, Meets, hmonth, Net.sendMessage] using wp_schedule hP
      · simp only [handleLicense, hfile, wp_bind, wp_lift, Meets, if_true, hmonth, ne_eq,
          not_false_eq_true, true_imp_iff]
        exact wp_storeNewer hp hq hc fun _ => wp_schedule hP

theorem wp_handleResult (hP : BroughtBySchedule P) {result : Result} :
    wp (handleResult env result) (fun _ => P) q c ↔
      ∃ status, result.hostStatus = some status ∧
        Storable env c.outside.licFile status result.hostLicense := by
  unfold handleResult
  cases hstatus : result.hostStatus with
  | none => simp [deref]
  | some status =>
    have hderef : (deref (some status) : Prog (Ctx (Timed GetLicenseTask)) Exn HostStatus) =
        pure status := rfl
    simp only [hderef, wp_bind, wp_pure, Net.sendMessage, wp_update, Option.some.injEq,
      exists_eq_left']
    by_cases hactive : status.id = LicHostStatus.active
    · simp only [hactive, if_true, Storable, true_imp_iff]
      cases result.hostLicense with
      | none => simpa using wp_schedule hP
      | some hl =>
        by_cases hempty : hl.license = []
        · simpa [hempty] using wp_schedule hP
        · simp only [hempty, if_false, Option.some.injEq, forall_eq', ne_eq, not_false_eq_true,
            true_imp_iff]
          exact wp_handleLicense (c := c.act (.sendMessage (hostStatusMessage status))) hp hq hc hP
    · simp only [hactive, if_false, Storable, false_imp_iff, iff_true]
      split <;> exact wp_schedule hP

/-- Every run of `svc` ends with one timer armed exactly if all it meets on its
way is harmless. -/
theorem wp_svcBody (hP : BroughtBySchedule P) :
    wp (svcBody env) (fun _ => P) q c ↔ Meeting p env c.outside.licFile := by
  unfold svcBody Meeting
  split
  · next hday =>
    have hsame : (c.act (.makeLicenseExtractor 1)).task = task := hc
    rw [wp_bind, wp_of_state (requestLicense_state env 1 c)]
    simp only [wp_handleResult hp hq hsame hP, hq _ _ hsame, Ctx.act_licFile, hday, true_imp_iff]
    exact wp_requestLicense hp env 1 c
  · next hday => simpa [hday] using wp_schedule hP

end Clauses

/-- A run of `svc` brings about what re-arming the timer does exactly if all it
meets on its way is harmless. -/
theorem wp_svc (hP : BroughtBySchedule P) {already : Prop}
    (halready : ∀ t : Ctx (Timed GetLicenseTask), t.task = c.task → (P t ↔ already)) :
    wp (svc env) (fun _ => P) (fun _ _ => False) c ↔
      Meeting (Harmless already) env c.outside.licFile := by
  rw [svc, wp_catching, wp_svcBody (clauses_harmless already) _ rfl hP]
  intro e t ht
  have hrearm (message : Str) (secs : Timed GetLicenseTask → ℤ) :
      wp (do Net.sendMessage message; schedule secs) (fun _ => P) (fun _ _ => False) t := by
    rw [wp_bind, Net.sendMessage, wp_update]
    exact wp_schedule hP
  cases e with
  | processError what => exact iff_of_true (hrearm _ _) (.inl rfl)
  | filesystemError what => exact iff_of_true (hrearm _ _) (.inl rfl)
  | runtimeError what => exact iff_of_true (hrearm _ _) (.inl rfl)
  | httpException what code =>
    by_cases hcode : code = ErrorCode.mimeTypes
    · simp only [svcCatch, hcode, if_true]
      exact iff_of_true (hrearm _ _) (.inl rfl)
    · simp [svcCatch, hcode, Harmless, rearms, halready t ht]
  | jsonException what | uriException what | other what =>
    simp [svcCatch, Harmless, rearms, Exn.isRuntimeError]

end Wp

/-! ### What `svc` does in one stroke after the other -/

/-- An ACTIVE reply with a license text, received on an update day. -/
def Received (env : Env) (hl : HostLicense) : Prop :=
  ∃ status, isLicenseUpdateDay env = true ∧ Receives env 1 status (some hl) ∧
    status.id = LicHostStatus.active ∧ hl.license ≠ []

section Moves

variable {R : Ctx (Timed GetLicenseTask) → Ctx (Timed GetLicenseTask) → Prop}
  {licenses : HostLicense → Prop} (h : TaskStrokes R licenses) (env : Env)
include h

theorem moves_storeNewer {hl : HostLicense} (hwrites : licenses hl) : Moves R (storeNewer env hl) := by
  refine .bind h.seq (moves_of_refl h.self fun c => ?_) fun newer => .ite ?_ (fun c => h.self c)
  · simp only [isCheckLicensesMonths, bind_run, read_run, exit_run]
    cases currentLicenseDate env c.outside.licFile <;> rfl
  · exact .bind h.seq (h.moves_writeLicense env hwrites) fun _ => h.self

theorem moves_handleLicense {hl : HostLicense} (hwrites : licenses hl) :
    Moves R (handleLicense env hl) := by
  refine .bind h.seq (moves_of_refl h.self fun c => ?_) fun found => .ite (.ite ?_ ?_) ?_
  · cases isLicenseFile env <;> rfl
  · exact (moves_storeNewer h env hwrites).bind h.seq fun _ => h.moves_schedule _
  · exact (h.moves_sendMessage _).bind h.seq fun _ => h.moves_schedule _
  · exact (h.moves_writeLicense env hwrites).bind h.seq fun _ => h.moves_schedule _

theorem moves_handleResult {result : Result}
    (hwrites : ∀ status hl, result.hostStatus = some status → result.hostLicense = some hl →
      status.id = LicHostStatus.active → hl.license ≠ [] → licenses hl) :
    Moves R (handleResult env result) := by
  refine h.moves_reported fun status hstatus => ?_
  by_cases hactive : status.id = LicHostStatus.active
  · rw [if_pos hactive]
    cases hlicense : result.hostLicense with
    | none => exact h.moves_schedule _
    | some hl =>
      by_cases hempty : hl.license = []
      · simpa only [hempty, if_true] using h.moves_schedule _
      · simpa only [hempty, if_false] using
          moves_handleLicense h env (hwrites status hl hstatus hlicense hactive hempty)
  · rw [if_neg hactive]
    exact .ite (h.moves_schedule _) (h.moves_schedule _)

theorem moves_svcBody (hwrites : ∀ hl, Received env hl → licenses hl) : Moves R (svcBody env) := by
  intro c
  unfold svcBody
  split
  · next hday =>
    refine bind_moves h.seq (h.requestLicense_state env 1 c) fun result t hrequest => ?_
    refine moves_handleResult h env (fun status hl hstatus hlicense hactive hne => ?_) t
    have hreceives : Receives env 1 status (some hl) :=
      requestLicense_ok_iff.mp ⟨result, t, hrequest, hstatus, hlicense⟩
    exact hwrites hl ⟨status, hday, hreceives, hactive, hne⟩
  · exact (Moves.bind h.seq (fun c => h.own c _) fun _ => h.moves_schedule _) c

omit env in
theorem moves_svcCatch (e : Exn) (handler : Prog (Ctx (Timed GetLicenseTask)) Exn Unit)
    (hhandler : svcCatch e = some handler) : Moves R handler := by
  cases e with
  | processError | filesystemError | runtimeError =>
    cases hhandler
    exact (h.moves_sendMessage _).bind h.seq fun _ => h.moves_schedule _
  | httpException =>
    cases hhandler
    exact .ite ((h.moves_sendMessage _).bind h.seq fun _ => h.moves_schedule _) h.self
  | jsonException | uriException | other => cases hhandler

theorem moves_svc (hwrites : ∀ hl, Received env hl → licenses hl) : Moves R (svc env) :=
  .catching h.seq (moves_svcBody h env hwrites) (moves_svcCatch h)

end Moves

end GetLicenseTask

end ItvpnAgent
