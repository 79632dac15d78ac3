import ItvpnAgent.License.LicenseChecker

/-! `EventSink_Task`: run when the VPN starts, it asks for a new license when
there is no license file or the verifier rejects it. It has no timer. What it
has saved it reports through an array of 50 characters. -/

namespace ItvpnAgent

open Kit Prog LicenseChecker

namespace EventSinkTask

def savedMessage (hostLicense : HostLicense) : Str :=
  "Save new license to file: month - ".toList ++ decimal hostLicense.month ++ ", year - ".toList ++
    decimal hostLicense.year

/-- `sprintf` prints the message and its NUL into `log_msg`. -/
def MessageFits (hostLicense : HostLicense) : Prop := (savedMessage hostLicense).length < 50

instance (hostLicense : HostLicense) : Decidable (MessageFits hostLicense) :=
  inferInstanceAs (Decidable (_ < _))

def writeLicense (env : Env) (hostLicense : HostLicense) : Prog (Ctx Unit) Exn ℤ := do
  update (Ctx.act (.writeLicense hostLicense))
  if ← saveLicenseToFile env hostLicense.license then
    if MessageFits hostLicense then return 0 else undef
  else return -1

def handleResult (env : Env) (result : Result) : Prog (Ctx Unit) Exn Unit := do
  let hostStatus ← deref result.hostStatus
  Net.sendMessage (hostStatusMessage hostStatus)
  if hostStatus.id = LicHostStatus.active then
    match result.hostLicense with
    | some hostLicense =>
      if hostLicense.license ≠ [] then
        let _ ← writeLicense env hostLicense
    | none => pure ()

def svcBody (env : Env) : Prog (Ctx Unit) Exn Unit := do
  if !(← exit (isLicensed env)) then
    let result ← requestLicense env 60
    handleResult env result

def svcCatch : Exn → Option (Prog (Ctx Unit) Exn Unit)
  | .processError what => some (Net.sendMessage (criticalMessage (upTo ':' what)))
  | .httpException what code =>
    some (if code = ErrorCode.mimeTypes then Net.sendMessage (criticalMessage what)
      else pure ())
  | e =>
    if e.isRuntimeError then some (Net.sendMessage (criticalMessage e.what)) else none

def svc (env : Env) : Prog (Ctx Unit) Exn Unit := catching (svcBody env) svcCatch

/-! ### What `svc` does in one stroke after the other -/

/-- An ACTIVE reply with a license text. -/
def Received (env : Env) (hl : HostLicense) : Prop :=
  ∃ status, Receives env 60 status (some hl) ∧ status.id = LicHostStatus.active ∧ hl.license ≠ []

section Moves

variable {R : Ctx Unit → Ctx Unit → Prop} {licenses : HostLicense → Prop} (h : Strokes R licenses)
  (env : Env)
include h

theorem moves_writeLicense {hl : HostLicense} (hwrites : licenses hl) :
    Moves R (writeLicense env hl) := by
  intro c
  have hact : R c (c.act (.writeLicense hl)) := h.act c _ fun hl' hsame => by
    cases hsame
    exact hwrites
  unfold writeLicense saveLicenseToFile
  cases env.save.opens with
  | true =>
    have hsaved := h.seq _ _ _ hact (h.setLicFile _ ((stripNul hl.license).take env.save.written))
    by_cases hfits : MessageFits hl <;> simpa [bind_run, hfits] using hsaved
  | false => exact hact

theorem moves_handleResult {result : Result}
    (hwrites : ∀ status hl, result.hostStatus = some status → result.hostLicense = some hl →
      status.id = LicHostStatus.active → hl.license ≠ [] → licenses hl) :
    Moves R (handleResult env result) := by
  refine h.moves_reported fun status hstatus => ?_
  by_cases hactive : status.id = LicHostStatus.active
  · rw [if_pos hactive]
    cases hlicense : result.hostLicense with
    | none => exact h.moves_pure ()
    | some hl =>
      by_cases hempty : hl.license = []
      · simpa only [hempty, ne_eq, not_true_eq_false, if_false] using h.moves_pure ()
      · simpa only [hempty, ne_eq, not_false_eq_true, if_true] using
          (moves_writeLicense h env (hwrites status hl hstatus hlicense hactive hempty)).bind h.seq
            fun _ => h.moves_pure ()
  · rw [if_neg hactive]
    exact h.moves_pure ()

theorem moves_request (hwrites : ∀ hl, Received env hl → licenses hl) :
    Moves R (requestLicense env 60 >>= handleResult env) := by
  intro c
  refine bind_moves h.seq (h.requestLicense_state env 60 c) fun result t hrequest => ?_
  refine moves_handleResult h env (fun status hl hstatus hlicense hactive hne => ?_) t
  have hreceives : Receives env 60 status (some hl) :=
    requestLicense_ok_iff.mp ⟨result, t, hrequest, hstatus, hlicense⟩
  exact hwrites hl ⟨status, hreceives, hactive, hne⟩

theorem moves_svcBody (hwrites : ∀ hl, Received env hl → licenses hl) : Moves R (svcBody env) := by
  refine .bind h.seq (moves_of_refl h.self fun c => ?_) fun licensed => .ite ?_ (h.moves_pure ())
  · cases isLicensed env <;> rfl
  · exact moves_request h env hwrites

omit env in
theorem moves_svcCatch (e : Exn) (handler : Prog (Ctx Unit) Exn Unit)
    (hhandler : svcCatch e = some handler) : Moves R handler := by
  cases e with
  | processError | filesystemError | runtimeError =>
    cases hhandler
    exact h.moves_sendMessage _
  | httpException =>
    cases hhandler
    exact .ite (h.moves_sendMessage _) (h.moves_pure ())
  | jsonException | uriException | other => cases hhandler

theorem moves_svc (hwrites : ∀ hl, Received env hl → licenses hl) : Moves R (svc env) :=
  .catching h.seq (moves_svcBody h env hwrites) (moves_svcCatch h)

end Moves

/-! ### When a license is asked for -/

/-- The log only grows. -/
def Logs (c t : Ctx Unit) : Prop := c.outside.log <+: t.outside.log

theorem strokes_logs : Strokes Logs fun _ => True where
  self _ := List.prefix_rfl
  seq _ _ _ h h' := h.trans h'
  act _ _ _ := List.prefix_append _ _
  setLicFile _ _ := List.prefix_rfl

theorem svcCatch_runtimeError {e : Exn} (h : e.isRuntimeError = true) :
    ∃ message, svcCatch e = some (Net.sendMessage (criticalMessage message)) := by
  cases e with
  | processError | filesystemError | runtimeError => exact ⟨_, rfl⟩
  | httpException | jsonException | uriException | other => cases h

/-- A license is asked for exactly if the search and the verifier say that there
is none. -/
theorem asks_iff (env : Env) (c : Ctx Unit) :
    .makeLicenseExtractor 60 ∈ newActions (svc env) c ↔ isLicensed env = .ok false := by
  cases hl : isLicensed env with
  | ok licensed =>
    cases licensed with
    | true =>
      have hrun : svc env c = (.ok (), c) := catching_ok (by simp [svcBody, hl, bind_run])
      rw [newActions_eq (by rw [hrun, List.append_nil])]
      simp
    | false =>
      refine iff_of_true ?_ rfl
      have hbody : svcBody env c = (requestLicense env 60 >>= handleResult env) c := by
        rw [svcBody, hl, bind_ok (exit_run _ _)]
        rfl
      have hlog : Logs (c.act (.makeLicenseExtractor 60)) (svc env c).2 := by
        refine catching_moves strokes_logs.seq ?_ (moves_svcCatch strokes_logs)
        rw [hbody]
        refine bind_moves strokes_logs.seq ?_ fun result t _ =>
          moves_handleResult strokes_logs env (fun _ _ _ _ _ _ => trivial) t
        rw [requestLicense_state]
        exact strokes_logs.self _
      obtain ⟨rest, hrest⟩ := hlog
      rw [Ctx.act_log, List.append_assoc] at hrest
      rw [newActions_eq hrest.symm]
      exact List.mem_cons_self
  | throw e =>
    obtain ⟨message, hcatch⟩ := svcCatch_runtimeError (isLicensed_throw hl)
    have hbody : svcBody env c = (.throw e, c) := by simp [svcBody, hl, bind_run]
    have hrun : svc env c = (.ok (), c.act (.sendMessage (criticalMessage message))) :=
      (catching_caught hbody hcatch).trans rfl
    rw [newActions_eq (by rw [hrun, Ctx.act_log])]
    simp
  | undefined =>
    have hbody : svcBody env c = (.undefined, c) := by simp [svcBody, hl, bind_run]
    have hrun : svc env c = (.undefined, c) := by simp only [svc, catching, hbody]
    rw [newActions_eq (by rw [hrun, List.append_nil])]
    simp
  | stuck => exact absurd hl isLicensed_ne_stuck

end EventSinkTask

end ItvpnAgent
