import ItvpnAgent.NxService.Agent
import ItvpnAgent.Tasks.Enforcement
import ItvpnAgent.Tasks.LicensePolling

/-! How long the agent enforces licenses, and how long it works as a whole. In the agent
the process killer goes down with the others: by a refused configuration, by what a task
does not catch, and by what a task prints past one of its arrays; and it is left without
a timer where no thread can be spawned. A run keeps it in force exactly if none of this
befalls it. -/

namespace ItvpnAgent

open Kit Prog LicenseChecker
open GetLicenseTask (Harmless clauses_harmless Meeting)

/-! ### When a run of the event sink returns -/

namespace EventSinkTask

/-- If the license of this reply is saved, the message about it fits its array. -/
def Reportable (env : Env) (status : HostStatus) (license : Option HostLicense) : Prop :=
  status.id = LicHostStatus.active → ∀ hl, license = some hl → hl.license ≠ [] →
    env.save.opens = true → MessageFits hl

/-- What a run of `svc` prints fits, and whatever it meets on its way is caught. -/
structure Returns (env : Env) : Prop where
  fits : isLicenseFile env = .ok true → CommandFits env
  meets : isLicensed env = .ok false → Requests (Harmless True) (Reportable env) env 60

variable {env : Env} {c : Ctx Unit} {q : Exn → Ctx Unit → Prop}

theorem wp_writeLicense {hl : HostLicense} {P : ℤ → Ctx Unit → Prop} (hP : ∀ r t, P r t) :
    wp (writeLicense env hl) P q c ↔ (env.save.opens = true → MessageFits hl) := by
  simp only [writeLicense, saveLicenseToFile, wp_bind, wp_update]
  cases env.save.opens with
  | false => exact iff_of_true (hP _ _) fun hno => absurd hno Bool.false_ne_true
  | true =>
    by_cases hfits : MessageFits hl
    · simpa [hfits] using hP _ _
    · simp [hfits]

theorem wp_handleResult {result : Result} :
    wp (handleResult env result) (fun _ _ => True) q c ↔
      ∃ status, result.hostStatus = some status ∧ Reportable env status result.hostLicense := by
  unfold handleResult
  cases hstatus : result.hostStatus with
  | none => simp [deref]
  | some status =>
    have hderef : (deref (some status) : Prog (Ctx Unit) Exn HostStatus) = pure status := rfl
    simp only [hderef, wp_bind, wp_pure, Net.sendMessage, wp_update, Option.some.injEq, exists_eq_left']
    by_cases hactive : status.id = LicHostStatus.active
    · simp only [hactive, if_true, Reportable, true_imp_iff]
      cases result.hostLicense with
      | none => simp
      | some hl =>
        by_cases htext : hl.license = []
        · simp [htext]
        · simp only [ne_eq, htext, not_false_eq_true, if_true, Option.some.injEq, forall_eq', true_imp_iff,
            wp_bind, wp_pure]
          exact wp_writeLicense fun _ _ => trivial
    · simp [hactive, Reportable]

theorem wp_svcBody (hq : ∀ e t, q e t ↔ Harmless True e) :
    wp (svcBody env) (fun _ _ => True) q c ↔ Returns env := by
  obtain rfl : q = fun e _ => Harmless True e := by
    funext e t
    exact propext (hq e t)
  have hclauses := clauses_harmless True
  have hfits (hne : isLicensed env ≠ .undefined) : isLicenseFile env = .ok true → CommandFits env :=
    fun hfile => not_not.mp fun hno => hne (isLicensed_undefined_iff.mpr ⟨hfile, hno⟩)
  unfold svcBody
  cases hl : isLicensed env with
  | throw e =>
    have he := hclauses.runtimeError e (isLicensed_throw hl)
    rw [wp_bind, wp_exit]
    exact iff_of_true he ⟨hfits (by simp [hl]), fun hno => by cases hl.symm.trans hno⟩
  | ok licensed =>
    rw [wp_bind, wp_exit]
    cases licensed with
    | true => exact iff_of_true trivial ⟨hfits (by simp [hl]), fun hno => by cases hl.symm.trans hno⟩
    | false =>
      have hrequest := wp_requestLicense (P := Reportable env) hclauses env 60 c
      simp only [Bool.not_false, if_true, wp_bind, wp_handleResult]
      rw [hrequest]
      exact ⟨fun h => ⟨hfits (by simp [hl]), fun _ => h⟩, fun h => h.meets hl⟩
  | undefined =>
    obtain ⟨hfile, hno⟩ := isLicensed_undefined_iff.mp hl
    rw [wp_bind, wp_exit]
    exact iff_of_false id fun h => hno (h.fits hfile)
  | stuck => exact absurd hl isLicensed_ne_stuck

/-- A run of `svc` goes well exactly if all it prints fits and all it meets on its way is
caught. -/
theorem wp_svc : wp (svc env) (fun _ _ => True) (fun _ _ => False) c ↔ Returns env := by
  rw [svc, wp_catching]
  refine wp_svcBody fun e t => ?_
  cases e with
  | processError what | filesystemError what | runtimeError what =>
    exact iff_of_true trivial (.inl rfl)
  | httpException what code =>
    refine iff_of_true ?_ (.inr ⟨trivial, what, code, rfl⟩)
    by_cases hcode : code = ErrorCode.mimeTypes
    · simp [svcCatch, hcode, Net.sendMessage]
    · simp [svcCatch, hcode]
  | jsonException what | uriException what | other what =>
    simp [svcCatch, Harmless, GetLicenseTask.rearms, Exn.isRuntimeError]

end EventSinkTask

namespace Parser

theorem accepted_of_optionsOf {readIni : Str → Except Exn PropTree} {p : Parser} {content : Str}
    {options : Options} (h : p.optionsOf readIni content = some options) : options.Accepted := by
  simp only [optionsOf, Option.ite_none_right_eq_some, Option.some.injEq] at h
  exact ⟨readIni, configOnly content, p, h⟩

end Parser

/-- The end of this run of `svc` leaves the process alive. -/
def Round.Returns (r : Round) : Worker → Prop
  | .getLicenseTask => Meeting (Harmless True) r.world r.found
  | .processKillerTask => ProcessKillerTask.Formed r.world
  | .eventSinkTask => EventSinkTask.Returns r.world

namespace Agent

/-! ### Enforcement -/

/-- The main loop runs, no task has ended the process, and the killer is armed. -/
structure Enforced (a : Agent) : Prop where
  loop : a.loop = .running
  getter : a.getter.ended = false
  sink : a.launch.ended = false
  killer : ProcessKillerTask.Enforcing a.killer

/-- The step leaves licenses enforced. -/
def Keeps (readIni : Str → Except Exn PropTree) (a : Agent) : AgentLabel → Prop
  | .config .init => (a.config.service.parser.optionsOf readIni a.config.content).isSome = true
  | .expire .processKillerTask spawns => a.killer.running = true ∨ spawns = true
  | .finish w => ∀ r, a.rounds w = some r → r.Returns w
  | _ => True

/-- What `init` has checked is in force. -/
structure Ranged (a : Agent) : Prop where
  options : a.options.Accepted
  hours : ProcessKillerTask.HoursInRange a.killer

section Step

variable {readIni : Str → Except Exn PropTree} {a t : Agent}

/-- The options in force are kept, or `init` has replaced them. -/
theorem options_step {l : AgentLabel} (h : (machine readIni).step a l = some t) :
    t.options = a.options ∨
      (l = .config .init ∧ a.config.service.parser.optionsOf readIni a.config.content = some t.options) := by
  cases l with
  | config l =>
    obtain ⟨config, hstep, rfl⟩ := step_config h
    rcases config_step_service hstep with ⟨rfl, -, rfl⟩ | ⟨rfl, -, rfl⟩ | ⟨-, -, hsame, -⟩
    · obtain ⟨parser, hservice, -, -, ⟨-, hkept, -⟩ | ⟨haccepted, -⟩⟩ :=
        init_cases readIni a.config
      · left
        simp only [options, setConfig, hservice, hkept]
      · right
        simp only [options, setConfig, hservice, haccepted, and_self]
    · exact .inl rfl
    · left
      simp only [options, setConfig, hsame]
  | launch e =>
    obtain ⟨s, -, rfl⟩ := step_launch h
    exact .inl rfl
  | expire w spawns =>
    obtain ⟨-, s, -, rfl⟩ | ⟨-, s, -, rfl⟩ := step_expire_cases h
    all_goals exact .inl rfl
  | meet w env found name =>
    obtain ⟨-, -, -, rfl⟩ := step_meet h
    exact .inl rfl
  | save w op =>
    obtain ⟨r, file, f, save, -, -, rfl, -⟩ := step_save h
    exact .inl rfl
  | finish w =>
    obtain ⟨r, -, ⟨-, s, -, rfl⟩ | ⟨-, s, -, rfl⟩ | ⟨-, s, -, rfl⟩⟩ := step_finish h
    all_goals exact .inl rfl
  | leave =>
    obtain ⟨-, rfl⟩ := step_leave h
    exact .inl rfl

end Step

/-! ### The agent at work -/

/-- Licenses are enforced, and the license getter is alive too. -/
structure Working (a : Agent) : Prop extends Enforced a where
  alive : GetLicenseTask.Alive a.getter

/-- The step leaves the agent at work. -/
def Sustains (readIni : Str → Except Exn PropTree) (a : Agent) : AgentLabel → Prop
  | .expire .getLicenseTask spawns => a.getter.running = true ∨ spawns = true
  | .finish .getLicenseTask => ∀ r, a.rounds .getLicenseTask = some r →
    Meeting (Harmless (a.getter.timers.length = 1)) r.world r.found
  | l => Keeps readIni a l

section Step

variable {readIni : Str → Except Exn PropTree} {a t : Agent}

theorem start_spec {bufsiz : ℕ} {parser : Parser} {content : Str} {disk : ℕ → Option Str}
    (h : start bufsiz readIni parser content disk = some a) : Ranged a ∧ Working a := by
  obtain ⟨accepted, hmake, -, -, rfl⟩ := start_eq_some_iff.mp h
  have haccepted : accepted.options.Accepted := by
    have hok : (parser.withPaths.init readIni (configOnly content)).2 = 0 := congrArg Prod.snd hmake
    have hoptions : (parser.withPaths.init readIni (configOnly content)).1.options = accepted.options :=
      congrArg (fun result => result.1.options) hmake
    exact ⟨readIni, configOnly content, parser.withPaths, hok, hoptions⟩
  obtain ⟨hhours, henforcing⟩ := ProcessKillerTask.opened_spec haccepted none
  exact ⟨⟨haccepted, hhours⟩, ⟨rfl, rfl, rfl, henforcing⟩, GetLicenseTask.alive_opened accepted.options none⟩

end Step

/-! ### A reload under a run of the killer -/

/-- The agent on the shipped configuration. -/
def shipped : Agent :=
  started 8192 (shippedParser "/usr/sbin/openvpn".toList) (shippedIni "/usr/sbin/openvpn".toList) fun _ => none

theorem start_eq_shipped :
    start 8192 readShipped Parser.started (shippedIni "/usr/sbin/openvpn".toList) (fun _ => none) =
      some shipped :=
  start_shipped (by decide) (by decide) _

/-- The killer has started when the file is edited, and the handler is about to read it. -/
def editRun : List AgentLabel := [
  .expire .processKillerTask true, .config (.edit false (shippedIni "/opt/itvpn/openvpn".toList)),
  .config (.read 1)]

/-- The check day, with the options of before the edit. -/
def checkDay : Env := Env.still (shippedOptions "/usr/sbin/openvpn".toList) ⟨11, 1, 2020⟩

def newCheckDay : Env := Env.still (shippedOptions "/opt/itvpn/openvpn".toList) ⟨11, 1, 2020⟩

/-- The run that the killer has started ends after the reload; the license getter has not
its day. -/
def killRun : List AgentLabel := [
  .config .reshedule, .meet .processKillerTask checkDay none "openvpn".toList, .finish .processKillerTask,
  .expire .getLicenseTask true, .meet .getLicenseTask newCheckDay none "openvpn".toList, .finish .getLicenseTask]

def reloadDay : List AgentLabel := editRun ++ [.config .init] ++ killRun

def woken : Agent := ((machine readShipped).run shipped editRun).get rfl

def loaded : Agent := woken.setConfig .init { woken.config with
  service := { woken.config.service with parser := shippedParser "/opt/itvpn/openvpn".toList }
  phase := .loaded
  refused := none
  resheduled := false }

theorem run_editRun : (machine readShipped).run shipped (editRun ++ [.config .init]) = some loaded := by
  have hwoken : (machine readShipped).run shipped editRun = some woken := (Option.some_get _).symm
  have hinit : woken.config.init readShipped = _ :=
    @init_of_shippedParser woken.config "/usr/sbin/openvpn".toList "/opt/itvpn/openvpn".toList
      (by decide) rfl rfl
  have hstep : (machine readShipped).step woken (.config .init) = some loaded :=
    congrArg (fun config => some (woken.setConfig .init config)) hinit
  rw [Machine.run_append, hwoken, Option.bind_some, Machine.run_cons _ hstep]
  rfl

/-- The killer stops the process although its options are no longer in force. -/
theorem run_reloadDay : ∃ t, (machine readShipped).run shipped reloadDay = some t ∧
    t.config.phase = .idle ∧ t.options = shippedOptions "/opt/itvpn/openvpn".toList ∧
    (t.log .processKillerTask).filter isDeed = [.terminateProcess "openvpn".toList] := by
  rw [reloadDay, Machine.run_append, run_editRun, Option.bind_some]
  exact ⟨_, rfl, rfl, rfl, rfl⟩

section Runs

variable {bufsiz : ℕ} {readIni : Str → Except Exn PropTree} {parser : Parser} {content : Str}
  {disk : ℕ → Option Str} {a : Agent}

end Runs

end Agent

end ItvpnAgent
