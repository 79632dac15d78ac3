import ItvpnAgent.NxService.Survival
import ItvpnAgent.Parser.Accepted
import ItvpnAgent.Tasks.LicenseFile

/-! Where the values come from that the agent acts on. The options in force, and the
settings that the two timer tasks have of their own, stood as a whole in one content of
the configuration file that passed all checks; and the tasks have those of the options
in force but for the moment between `init` and `reshedule_tasks`. -/

namespace ItvpnAgent

open Kit Prog LicenseChecker

/-! ### The settings of the tasks -/

namespace GetLicenseTask

end GetLicenseTask

namespace Agent

variable {readIni : Str → Except Exn PropTree} {optionsOf : Str → Option Options} {texts : List Str}
  {a t : Agent} {l : AgentLabel}

/-! ### What a step does to options and settings -/

theorem generateMachineUid_length {env : Env} {uid : Str} (h : generateMachineUid env = .ok uid) :
    uid.length = Constants.uidSize := by
  obtain ⟨line, -, hline⟩ := except_bind_ok.mp h
  dsimp only at hline
  by_cases hempty : line = []
  · rw [if_pos hempty] at hline
    cases hline
  · rw [if_neg hempty] at hline
    by_cases hsize :
        (if line.getLast? = some '\r' then line.dropLast else line).length = Constants.uidSize
    · rw [if_neg (not_not.mpr hsize)] at hline
      rwa [Except.ok.inj hline] at hsize
    · rw [if_pos hsize] at hline
      cases hline

/-- The options that have been in force one after the other have been checked, and these
are what the values come from. -/
def FromAccepted (env : Env) : Prop := ∃ seen, (∀ o ∈ seen, Options.Accepted o) ∧ env.ReadFrom seen

theorem fromAccepted_under {options : Options} (h : options.Accepted) (env : Env) :
    FromAccepted (env.under options) := by
  have hreads {β : Type} (value : Options → β) : Reads [options] value options :=
    ⟨options, List.mem_singleton_self options, rfl⟩
  refine ⟨[options], fun o ho => ?_, by simp only [Env.ReadFrom, Env.under, hreads, and_self]⟩
  rw [List.mem_singleton.mp ho]
  exact h

/-- What `init` and `generate_machine_uid` have checked is all that the request needs. -/
theorem request_isValid {env : Env} {uid : Str} (h : FromAccepted env)
    (huid : generateMachineUid env = .ok uid) : (requestOf env uid).isValid = true := by
  obtain ⟨seen, haccepted, hread⟩ := h
  obtain ⟨-, -, -, -, -, -, -, -, -, -, -, ⟨o, ho, hunp⟩, ⟨o', ho', hagent⟩, ⟨o'', ho'', hprod⟩⟩ := hread
  have htexts {o : Options} (ho : o ∈ seen) := (Options.accepted_iff.mp (haccepted o ho)).1.texts
  have hne : uid ≠ [] := by
    rintro rfl
    cases generateMachineUid_length huid
  simp only [RequestLicense.isValid, requestOf, hunp, hagent, hprod, Bool.and_eq_true]
  exact ⟨⟨⟨decide_eq_true hne, decide_eq_true (htexts ho .unp)⟩, decide_eq_true (htexts ho' .agentId)⟩,
    decide_eq_true (htexts ho'' .prod)⟩

/-- All that a task can see of the configuration has been checked, and so has all that the
runs of `svc` have read of it. -/
structure Checked (a : Agent) : Prop where
  options : a.options.Accepted
  seen : ∀ w, ∀ g ∈ a.seen w, g.options.Accepted
  rounds : ∀ w r, a.rounds w = some r → FromAccepted r.env

theorem checked_setRound {w : Worker} {r : Round} (h : Checked a) (hr : FromAccepted r.env) :
    Checked (a.setRound w r) where
  options := h.options
  seen := h.seen
  rounds w' r' hround := by
    by_cases hw : w' = w
    · subst hw
      simp only [setRound, Function.update_self, Option.some.injEq] at hround
      rw [← hround]
      exact hr
    · simp only [setRound, Function.update_of_ne hw] at hround
      exact h.rounds w' r' hround

theorem checked_settle {w : Worker} (h : Checked a) : Checked (a.settle w) where
  options := h.options
  seen w' g hg := by
    by_cases hw : w' = w
    · subst hw
      simp only [settle, Function.update_self, List.mem_singleton] at hg
      rw [hg]
      exact h.options
    · simp only [settle, Function.update_of_ne hw] at hg
      exact h.seen w' g hg
  rounds w' r hround := by
    by_cases hw : w' = w
    · subst hw
      simp only [settle, Function.update_self] at hround
      cases hround
    · simp only [settle, Function.update_of_ne hw] at hround
      exact h.rounds w' r hround

theorem checked_step (h : Checked a) (hstep : (machine readIni).step a l = some t) : Checked t := by
  have hoptions : t.options.Accepted := by
    rcases options_step hstep with hkept | ⟨-, haccepted⟩
    · rw [hkept]
      exact h.options
    · exact Parser.accepted_of_optionsOf haccepted
  cases l with
  | config l =>
    obtain ⟨config, -, rfl⟩ := step_config hstep
    refine ⟨hoptions, fun w g hg => ?_, h.rounds⟩
    simp only [setConfig, shown] at hg
    split at hg
    · rcases List.mem_append.mp hg with hold | hnew
      · exact h.seen w g hold
      · rw [List.mem_singleton.mp hnew]
        exact hoptions
    · rw [List.mem_singleton.mp hg]
      exact hoptions
  | launch e =>
    obtain ⟨s, -, rfl⟩ := step_launch hstep
    exact ⟨h.options, h.seen, h.rounds⟩
  | expire w spawns =>
    obtain ⟨-, s, -, rfl⟩ | ⟨-, s, -, rfl⟩ := step_expire_cases hstep
    all_goals exact ⟨h.options, h.seen, h.rounds⟩
  | meet w env found name =>
    obtain ⟨-, hread, -, rfl⟩ := step_meet hstep
    refine checked_setRound h ⟨_, fun o ho => ?_, hread⟩
    obtain ⟨g, hg, rfl⟩ := List.mem_map.mp ho
    exact h.seen w g hg
  | save w op =>
    obtain ⟨r, file, f, save, hround, -, rfl, -⟩ := step_save hstep
    have hset := checked_setRound (w := w) (r := { r with save }) h (h.rounds w r hround)
    exact ⟨hset.options, hset.seen, hset.rounds⟩
  | finish w =>
    obtain ⟨r, -, ⟨-, s, -, rfl⟩ | ⟨-, s, -, rfl⟩ | ⟨-, s, -, rfl⟩⟩ := step_finish hstep
    all_goals exact checked_settle ⟨h.options, h.seen, h.rounds⟩
  | leave =>
    obtain ⟨-, rfl⟩ := step_leave hstep
    exact ⟨h.options, h.seen, h.rounds⟩

theorem checked_of_run {bufsiz : ℕ} {parser : Parser} {content : Str} {disk : ℕ → Option Str}
    {labels : List AgentLabel} (h : start bufsiz readIni parser content disk = some a)
    (hrun : (machine readIni).run a labels = some t) : Checked t := by
  have hoptions := (start_spec h).1.options
  obtain ⟨accepted, -, -, -, rfl⟩ := start_eq_some_iff.mp h
  have hstarted : Checked (started bufsiz accepted content disk) := by
    refine ⟨hoptions, fun w g hg => ?_, fun w r hround => ?_⟩
    · rw [List.mem_singleton.mp hg]
      exact hoptions
    · cases hround
  exact (machine readIni).run_invariant (C := fun _ _ => True)
    (fun _ _ _ hchecked _ hstep => checked_step hchecked hstep) hstarted
    ((machine readIni).along_of_forall fun _ _ => trivial) hrun

/-- `send_request` does not turn the request of this run down before it is sent. -/
def RequestSent (env : Env) : Prop :=
  ∀ uid, generateMachineUid env = .ok uid → ∀ (attempt : ℤ) (net : ItvpnAgent.Net),
    LicenseExtractor.sendRequest (requestOf env uid) attempt net =
      LicenseExtractor.retry (net.start + attempt * 1000000000) net.attempts

theorem requestSent_of_accepted {env : Env} (h : FromAccepted env) : RequestSent env := by
  intro uid huid attempt net
  rw [LicenseExtractor.sendRequest, if_pos (request_isValid h huid)]

/-- In no run is a request turned down before it is sent, neither one with the options in
force nor that of a run of `svc` whose values have come from one reload after the other. -/
theorem request_sent_of_run {bufsiz : ℕ} {parser : Parser} {content : Str} {disk : ℕ → Option Str}
    {labels : List AgentLabel} (h : start bufsiz readIni parser content disk = some a)
    (hrun : (machine readIni).run a labels = some t) :
    (∀ env : Env, RequestSent (env.under t.options)) ∧
      ∀ w r, t.rounds w = some r → RequestSent r.env := by
  have hchecked := checked_of_run h hrun
  exact ⟨fun env => requestSent_of_accepted (fromAccepted_under hchecked.options env),
    fun w r hround => requestSent_of_accepted (hchecked.rounds w r hround)⟩

/-- The VPN starts on a machine without a license, and the server has one. -/
def askRun : List AgentLabel := [
  .launch (.openFile false (openEvent "openvpn".toList)), .launch (.read 1), .launch (.activate true),
  .meet .eventSinkTask (LicenseFile.unlicensed LicenseFile.newLicense) none "openvpn".toList]

theorem request_sent_of_run_askRun : ∃ t, (machine readShipped).run shipped askRun = some t ∧
    LicenseExtractor.sendRequest
        (requestOf (LicenseFile.unlicensed LicenseFile.newLicense) (List.replicate Constants.uidSize 'A')) 1
        { start := 0, attempts := [] } = LicenseExtractor.retry 1000000000 [] := by
  obtain ⟨t, r, hrun, hround, henv⟩ : ∃ t r, (machine readShipped).run shipped askRun = some t ∧
      t.rounds .eventSinkTask = some r ∧ r.env = LicenseFile.unlicensed LicenseFile.newLicense :=
    ⟨_, _, rfl, rfl, rfl⟩
  have hsent := (request_sent_of_run start_eq_shipped hrun).2 .eventSinkTask r hround
  rw [henv] at hsent
  exact ⟨t, hrun, hsent (List.replicate Constants.uidSize 'A') rfl 1 { start := 0, attempts := [] }⟩

end Agent

end ItvpnAgent
