import ItvpnAgent.NxService.Survival
import ItvpnAgent.Tasks.LicenseFile

/-! What the agent does over whole runs, whatever the interleaving: the deeds of each task
are those of its rounds, each as the task has found things out in it; it kills on a check
day without a license only; and what a license file holds is what it held, or put together
from licenses that the server has sent. -/

namespace ItvpnAgent

open Kit Prog LicenseChecker

/-! ### What a round finds out -/

namespace Round

variable {r : Round} {w : Worker} {hl : HostLicense}

def job (r : Round) : Worker → Job
  | .getLicenseTask => GetLicenseTask.job r.world r.found
  | .processKillerTask => ProcessKillerTask.job r.world r.name
  | .eventSinkTask => EventSinkTask.job r.world

/-- The round has asked for a license and got this one in an ACTIVE reply. -/
def Obtains (r : Round) : Worker → HostLicense → Prop
  | .getLicenseTask, hl => GetLicenseTask.Received r.env hl
  | .processKillerTask, _ => False
  | .eventSinkTask, hl => isLicensed r.env = .ok false ∧ EventSinkTask.Received r.env hl

/-- The round's own save comes behind the request. -/
theorem receives_world {attempt : ℤ} {status : HostStatus} {license : Option HostLicense}
    (h : Receives r.world attempt status license) : Receives r.env attempt status license :=
  ⟨h.uri, h.uid, h.client, h.delivers⟩

theorem obtains_of_deed (h : .writeLicense hl ∈ (r.job w).deeds) : r.Obtains w hl := by
  have hoffers := Job.offers_of_deed h
  cases w with
  | getLicenseTask =>
    obtain hno | ⟨wanted, hjob⟩ := hoffers
    · cases hno
    · simp only [job, GetLicenseTask.job, Job.renew.injEq] at hjob
      obtain ⟨status, hreceives, hoffer⟩ := offered_eq_some_iff.mp hjob.2.1
      exact ⟨status, hjob.1, receives_world hreceives, hoffer⟩
  | processKillerTask => obtain hno | ⟨wanted, hno⟩ := hoffers <;> cases hno
  | eventSinkTask =>
    obtain hjob | ⟨wanted, hno⟩ := hoffers
    · simp only [job, EventSinkTask.job, Job.ask.injEq] at hjob
      obtain ⟨status, hreceives, hoffer⟩ := offered_eq_some_iff.mp hjob.2
      exact ⟨unlicensed_iff.mp hjob.1, status, receives_world hreceives, hoffer⟩
    · cases hno

end Round

namespace Agent

variable {readIni : Str → Except Exn PropTree} {a t : Agent} {l : AgentLabel} {labels : List AgentLabel}
  {w : Worker} {r : Round}

/-- The code of a round sets about the deeds of its job. -/
theorem mem_actions_iff {act : Action} (hact : isDeed act = true) :
    act ∈ a.actions w r ↔ act ∈ (r.job w).deeds := by
  cases w with
  | getLicenseTask =>
    obtain ⟨new, hlog, -⟩ := GetLicenseTask.moves_svc (taskStrokes_writesOnly fun _ => True) r.world
      (fun _ _ => trivial) (a.getter.facing r.found).ctx
    exact mem_newActions_iff ⟨new, hlog.symm⟩ (GetLicenseTask.deeds_svc r.world _) hact
  | processKillerTask =>
    exact mem_newActions_iff ⟨_, (ProcessKillerTask.svc_log r.world _).symm⟩
      (ProcessKillerTask.deeds_svc r.world _) hact
  | eventSinkTask =>
    exact mem_newActions_iff (EventSinkTask.moves_svc EventSinkTask.strokes_logs r.world (fun _ _ => trivial) _)
      (EventSinkTask.deeds_svc r.world _) hact

/-! ### The rounds of the tasks -/

def record (a : Agent) : Record := fun w => (a.log w).filter isDeed

/-- The round that a step is the end of. -/
def jobs (a : Agent) : AgentLabel → List Job
  | .finish w => (a.rounds w).toList.map (·.job w)
  | _ => []

theorem log_config {l : ConfigLabel} {config : ConfigState}
    (h : (configMachine readIni).step a.config l = some config) : (a.setConfig l config).log = a.log := by
  funext w
  rcases config_step_service h with ⟨rfl, -, rfl⟩ | ⟨rfl, -, rfl⟩ | ⟨-, -, hsame, -⟩
  · obtain ⟨parser, hservice, -⟩ := init_cases readIni a.config
    cases w <;> simp only [log, getter, killer, setConfig, hservice]
  · cases w <;> rfl
  · cases w <;> simp only [log, getter, killer, setConfig, hsame]

/-- A step leaves the record as it is, or as its round does. -/
theorem record_step (h : (machine readIni).step a l = some t) :
    Record.machine.run a.record (a.jobs l) = some t.record := by
  have hsame (hlog : t.log = a.log) : Record.machine.run a.record [] = some t.record :=
    congrArg (fun (log : Worker → List Action) => some fun w => (log w).filter isDeed) hlog.symm
  cases l with
  | config l =>
    obtain ⟨config, hconfig, rfl⟩ := step_config h
    exact hsame (log_config hconfig)
  | launch e =>
    obtain ⟨s, hs, rfl⟩ := step_launch h
    refine hsame (funext fun w => ?_)
    cases w with
    | getLicenseTask | processKillerTask => rfl
    | eventSinkTask => rw [log, log, (launch_frame hs).2]
  | expire w spawns =>
    obtain ⟨-, s, hs, rfl⟩ | ⟨-, s, hs, rfl⟩ := step_expire_cases h
    all_goals
      obtain ⟨timer, rest, -, -, ⟨-, rfl⟩ | ⟨-, -, rfl⟩ | ⟨-, -, rfl⟩⟩ := step_expire hs
      all_goals exact hsame (funext fun w => by cases w <;> rfl)
  | meet w env found name =>
    obtain ⟨-, -, -, rfl⟩ := step_meet h
    exact hsame (funext fun w => by cases w <;> rfl)
  | save w op =>
    obtain ⟨r, file, f, save, -, -, rfl, -⟩ := step_save h
    exact hsame (funext fun w => by cases w <;> rfl)
  | finish w =>
    obtain ⟨r, hround, hcases⟩ := step_finish h
    have hjobs : a.jobs (.finish w) = [r.job w] := by rw [jobs, hround]; rfl
    rw [hjobs]
    refine congrArg some (funext fun w' => ?_)
    rcases hcases with ⟨rfl, s, hs, rfl⟩ | ⟨rfl, s, hs, rfl⟩ | ⟨rfl, s, hs, rfl⟩
    · cases w' with
      | getLicenseTask =>
        have hdeeds := GetLicenseTask.deeds_svc r.world (a.getter.facing r.found).ctx
        have hctx : s.ctx = (GetLicenseTask.svc r.world (a.getter.facing r.found).ctx).2 := finish_ctx hs
        rw [← hctx] at hdeeds
        exact hdeeds.symm
      | processKillerTask | eventSinkTask => rfl
    · cases w' with
      | processKillerTask =>
        have hdeeds := ProcessKillerTask.deeds_svc r.world (a.killer.named r.name).ctx
        have hctx : s.ctx = (ProcessKillerTask.svc r.world (a.killer.named r.name).ctx).2 := finish_ctx hs
        rw [← hctx] at hdeeds
        exact hdeeds.symm
      | getLicenseTask | eventSinkTask => rfl
    · cases w' with
      | eventSinkTask =>
        have hdeeds := EventSinkTask.deeds_svc r.world a.launch.sink
        rw [← LaunchState.finish_sink hs] at hdeeds
        exact hdeeds.symm
      | getLicenseTask | processKillerTask => rfl
  | leave =>
    obtain ⟨-, rfl⟩ := step_leave h
    exact hsame (funext fun w => by cases w <;> rfl)

/-- In every run the deeds of each task are those of its rounds that have ended, one round
after the other. -/
theorem rounds_of_run (hrun : (machine readIni).run a labels = some t) :
    Record.machine.run a.record ((machine readIni).collect jobs a labels) = some t.record :=
  (machine readIni).run_refines Record.machine (fun _ _ _ => record_step) hrun

theorem rounds_of_run_reloadDay : ∃ t, (machine readShipped).run shipped reloadDay = some t ∧
    t.record .processKillerTask = [.terminateProcess "openvpn".toList] ∧
    Record.machine.run shipped.record ((machine readShipped).collect jobs shipped reloadDay) =
      some t.record := by
  obtain ⟨t, hrun, -, -, hdeeds⟩ := run_reloadDay
  exact ⟨t, hrun, hdeeds, rounds_of_run hrun⟩

/-! ### Kills -/

section Started

variable {bufsiz : ℕ} {parser accepted : Parser} {content : Str} {disk : ℕ → Option Str}

/-- In every run a process is killed exactly by a run of the killer that has found out that
it is the day and that there is no license, under the name the killer had then. -/
theorem killed_iff (h : start bufsiz readIni parser content disk = some a)
    (hrun : (machine readIni).run a labels = some t) {name : Str} :
    (∃ w, .terminateProcess name ∈ t.log w) ↔
      ∃ before after u r, labels = before ++ .finish .processKillerTask :: after ∧
        (machine readIni).run a before = some u ∧ u.rounds .processKillerTask = some r ∧
        isLicenseCheckDay r.env = true ∧ isLicensed r.env = .ok false ∧ r.name = name := by
  obtain ⟨accepted, -, -, -, rfl⟩ := start_eq_some_iff.mp h
  have hlog : (∃ w, .terminateProcess name ∈ t.log w) ↔ ∃ w, .terminateProcess name ∈ t.record w := by
    simp [record, isDeed]
  have hnone : ¬ ∃ w, .terminateProcess name ∈ (started bufsiz accepted content disk).record w := by
    rintro ⟨w, hw⟩
    cases w <;> cases hw
  rw [hlog, killed_iff_of_rounds (rounds_of_run hrun), or_iff_right hnone,
    (machine readIni).mem_collect_iff hrun]
  constructor
  · rintro ⟨before, l, after, u, rfl, hu, hjob⟩
    cases l with
    | finish w =>
      obtain ⟨r, hround, hjob⟩ := List.mem_map.mp hjob
      cases w with
      | processKillerTask =>
        simp only [Round.job, ProcessKillerTask.job, Job.enforce.injEq] at hjob
        exact ⟨before, after, u, r, rfl, hu, Option.mem_toList.mp hround, hjob.1,
          unlicensed_iff.mp hjob.2.1, hjob.2.2⟩
      | getLicenseTask | eventSinkTask => cases hjob
    | config | launch | expire | meet | save | leave => cases hjob
  · rintro ⟨before, after, u, r, rfl, hu, hround, hday, hlicensed, rfl⟩
    refine ⟨before, _, after, u, rfl, hu, List.mem_map.mpr ⟨r, Option.mem_toList.mpr hround, ?_⟩⟩
    have hunlicensed : unlicensed r.world = true := unlicensed_iff.mpr hlicensed
    have hday : isLicenseCheckDay r.world = true := hday
    rw [Round.job, ProcessKillerTask.job, hday, hunlicensed]

/-- The killer of the run under which the configuration was reloaded. -/
theorem killed_iff_reloadDay : ∃ t, (machine readShipped).run shipped reloadDay = some t ∧
    ∃ before after u r, reloadDay = before ++ .finish .processKillerTask :: after ∧
      (machine readShipped).run shipped before = some u ∧ u.rounds .processKillerTask = some r ∧
      isLicenseCheckDay r.env = true ∧ isLicensed r.env = .ok false ∧ r.name = "openvpn".toList := by
  obtain ⟨t, hrun, -, -, hdeeds⟩ := run_reloadDay
  have hkilled : .terminateProcess "openvpn".toList ∈ t.log .processKillerTask :=
    (List.mem_filter.mp (hdeeds.symm ▸ List.mem_singleton_self _)).1
  exact ⟨t, hrun, (killed_iff start_eq_shipped hrun).mp ⟨_, hkilled⟩⟩

/-! ### Saves -/

/-- The text is one for which the file has been opened, and that of a license which the
saving task had asked for and got. -/
def SavedTo (readIni : Str → Except Exn PropTree) (a : Agent) (labels : List AgentLabel) (file : ℕ)
    (text : Str) : Prop :=
  ∃ before w hl after u r, labels = before ++ .save w (.openWrite file hl true) :: after ∧
    (machine readIni).run a before = some u ∧ u.rounds w = some r ∧ r.Obtains w hl ∧
    text = stripNul hl.license

theorem SavedTo.append {file : ℕ} {text : Str} (h : SavedTo readIni a labels file text)
    (labels' : List AgentLabel) : SavedTo readIni a (labels ++ labels') file text := by
  obtain ⟨before, w, hl, after, u, r, rfl, h⟩ := h
  exact ⟨before, w, hl, after ++ labels', u, r, List.append_assoc _ _ _, h⟩

/-- A step that is none of a save does not touch a file. -/
theorem disk_step (hne : ∀ w op, l ≠ .save w op) (h : (machine readIni).step a l = some t) :
    t.disk = a.disk := by
  cases l with
  | config l =>
    obtain ⟨config, -, rfl⟩ := step_config h
    rfl
  | launch e =>
    obtain ⟨s, -, rfl⟩ := step_launch h
    rfl
  | expire w spawns =>
    obtain ⟨-, s, -, rfl⟩ | ⟨-, s, -, rfl⟩ := step_expire_cases h
    all_goals rfl
  | meet w env found name =>
    obtain ⟨-, -, -, rfl⟩ := step_meet h
    rfl
  | save w op => exact absurd rfl (hne w op)
  | finish w =>
    obtain ⟨r, -, ⟨-, s, -, rfl⟩ | ⟨-, s, -, rfl⟩ | ⟨-, s, -, rfl⟩⟩ := step_finish h
    all_goals rfl
  | leave =>
    obtain ⟨-, rfl⟩ := step_leave h
    rfl

/-- A step of a save is one of a single file. -/
theorem disk_save {op : SaveOp} (h : (machine readIni).step a (.save w op) = some t) (file : ℕ) :
    t.disk file = a.disk file ∨
      ((SharedFile.machine '\x00').step (a.disk file) (op.fileOp w) = some (t.disk file) ∧
        ∃ r, a.rounds w = some r ∧ ∀ file' hl succeeds, op = .openWrite file' hl succeeds →
          file' = file ∧ r.Obtains w hl) := by
  obtain ⟨r, file₀, f, save, hround, hf, rfl, hopens⟩ := step_save h
  by_cases hfile : file = file₀
  · subst hfile
    refine .inr ⟨?_, r, hround, fun file' hl succeeds hop => ?_⟩
    · simp only [setSave, Function.update_self]
      exact hf
    · obtain ⟨hsame, hwrites⟩ := hopens file' hl succeeds hop
      exact ⟨hsame, Round.obtains_of_deed ((mem_actions_iff rfl).mp hwrites)⟩
  · left
    simp only [setSave, Function.update_of_ne hfile]

/-- What a file is made of so far. -/
theorem madeOf_of_run (hrun : (machine readIni).run (started bufsiz accepted content disk) labels = some t)
    (file : ℕ) : ∃ texts, (t.disk file).MadeOf '\x00' (disk file) texts ∧
      ∀ text ∈ texts, SavedTo readIni (started bufsiz accepted content disk) labels file text := by
  have hhistory := @Machine.run_history _ _ (machine readIni)
    (fun labels s => (machine readIni).run (started bufsiz accepted content disk) labels = some s ∧
      ∃ texts, (s.disk file).MadeOf '\x00' (disk file) texts ∧
        ∀ text ∈ texts, SavedTo readIni (started bufsiz accepted content disk) labels file text)
    (fun before s l u hbefore hstep => ?_) [] labels _ t ⟨rfl, [], SharedFile.madeOf_idle, nofun⟩ hrun
  · exact hhistory.2
  · obtain ⟨hs, texts, hmade, hsaved⟩ := hbefore
    have hu : (machine readIni).run (started bufsiz accepted content disk) (before ++ [l]) = some u := by
      rw [Machine.run_append, hs, Option.bind_some, Machine.run_cons _ hstep]
      rfl
    have hkept (hsame : u.disk file = s.disk file) : ∃ texts, (u.disk file).MadeOf '\x00' (disk file) texts ∧
        ∀ text ∈ texts, SavedTo readIni (started bufsiz accepted content disk) (before ++ [l]) file text := by
      rw [hsame]
      exact ⟨texts, hmade, fun text htext => (hsaved text htext).append [l]⟩
    refine ⟨hu, ?_⟩
    by_cases hsave : ∃ w op, l = .save w op
    · obtain ⟨w, op, rfl⟩ := hsave
      rcases disk_save hstep file with hsame | ⟨hfile, r, hround, hopens⟩
      · exact hkept hsame
      · refine ⟨_, SharedFile.madeOf_step hmade hfile, fun text htext => ?_⟩
        rcases List.mem_append.mp htext with hold | hnew
        · exact (hsaved text hold).append _
        · cases op with
          | openWrite file' hl succeeds =>
            cases succeeds with
            | true =>
              obtain ⟨rfl, hobtains⟩ := hopens file' hl true rfl
              exact ⟨before, w, hl, [], s, r, rfl, hs, hround, hobtains, List.mem_singleton.mp hnew⟩
            | false => cases hnew
          | write | close => cases hnew
    · exact hkept (congrFun (disk_step (fun w op hl => hsave ⟨w, op, hl⟩) hstep) file)

end Started

/-- The step is not one of another save. -/
def Undisturbed (w : Worker) : AgentLabel → Prop
  | .save w' op => w' = w ∧ ∀ file hl, op ≠ .openWrite file hl true
  | _ => True

theorem follows_step {file k : ℕ} {text : Str} (hundisturbed : Undisturbed w l)
    (h : (a.disk file).Follows w text k) (hstep : (machine readIni).step a l = some t) :
    ∃ k, (t.disk file).Follows w text k := by
  by_cases hsave : ∃ w op, l = .save w op
  · obtain ⟨w', op, rfl⟩ := hsave
    obtain ⟨rfl, hopens⟩ := hundisturbed
    rcases disk_save hstep file with hsame | ⟨hfile, -⟩
    · rw [hsame]
      exact ⟨k, h⟩
    · refine ⟨_, SharedFile.follows_step h ?_ hfile⟩
      cases op with
      | openWrite file' hl succeeds =>
        cases succeeds with
        | true => exact absurd rfl (hopens file' hl)
        | false => rfl
      | write n => rfl
      | close => trivial
  · rw [disk_step (fun w op hl => hsave ⟨w, op, hl⟩) hstep]
    exact ⟨k, h⟩

theorem follows_of_run {file : ℕ} {hl : HostLicense}
    (hundisturbed : ∀ l ∈ labels, Undisturbed w l)
    (hrun : (machine readIni).run a (.save w (.openWrite file hl true) :: labels) = some t) :
    ∃ k, (t.disk file).Follows w (stripNul hl.license) k := by
  obtain ⟨u, hstep, hrun⟩ := Option.bind_eq_some_iff.mp hrun
  obtain ⟨r, file', f, save, -, hf, rfl, hopens⟩ := step_save hstep
  obtain ⟨rfl, -⟩ := hopens file hl true rfl
  have hopened : ((a.setSave w r file f save).disk file).Follows w (stripNul hl.license) 0 := by
    rcases SharedFile.openWrite_some hf with ⟨hno, -⟩ | ⟨-, rfl⟩
    · cases hno
    · simp only [setSave, Function.update_self]
      exact SharedFile.follows_opened _ _ _
  exact (machine readIni).run_invariant (C := fun _ => Undisturbed w)
    (I := fun s => ∃ k, (s.disk file).Follows w (stripNul hl.license) k)
    (fun _ _ _ hfollows hl hstep => by
      obtain ⟨k, hfollows⟩ := hfollows
      exact follows_step hl hfollows hstep)
    ⟨0, hopened⟩ ((machine readIni).along_of_forall hundisturbed) hrun

/-- In every state of every run a license file is what it was at the start, or put together
from the texts of licenses that the tasks have asked for and got, each character at its
place; and since a save has opened it, the beginning of that license as long as no other
save has gone on. -/
theorem file_of_run {bufsiz : ℕ} {parser : Parser} {content : Str} {disk : ℕ → Option Str}
    (h : start bufsiz readIni parser content disk = some a)
    (hrun : (machine readIni).run a labels = some t) (file : ℕ) :
    ((t.disk file).content = disk file ∨
      ∃ content texts, (t.disk file).content = some content ∧ SharedFile.Mosaic '\x00' texts content ∧
        ∀ text ∈ texts, SavedTo readIni a labels file text) ∧
    ∀ before w hl after, labels = before ++ .save w (.openWrite file hl true) :: after →
      (∀ l ∈ after, Undisturbed w l) →
      ∃ k, (t.disk file).content = some ((stripNul hl.license).take k) := by
  obtain ⟨accepted, -, -, -, rfl⟩ := start_eq_some_iff.mp h
  constructor
  · obtain ⟨texts, hmade, hsaved⟩ := madeOf_of_run hrun file
    rcases hmade.content with ⟨-, hkept⟩ | ⟨content, hcontent, hmosaic⟩
    · exact .inl hkept
    · exact .inr ⟨content, texts, hcontent, hmosaic, hsaved⟩
  · rintro before w hl after rfl hundisturbed
    rw [Machine.run_append] at hrun
    obtain ⟨u, -, hrun⟩ := Option.bind_eq_some_iff.mp hrun
    obtain ⟨k, hfollows⟩ := follows_of_run hundisturbed hrun
    exact ⟨k, hfollows.content⟩

def otherLicense : HostLicense := { year := 2020, month := 3, license := "q.r.MjAyMC0wMy0zMQ==.t".toList }

/-- An update day on which the VPN starts, on a machine without a license; the two tasks
have different replies, and save them to one file. -/
def saveDay : List AgentLabel := [
  .launch (.openFile false (openEvent "openvpn".toList)), .launch (.read 1), .launch (.activate true),
  .expire .getLicenseTask true,
  .meet .eventSinkTask (LicenseFile.unlicensed LicenseFile.newLicense) none "openvpn".toList,
  .meet .getLicenseTask (LicenseFile.unlicensed otherLicense) none "openvpn".toList,
  .save .eventSinkTask (.openWrite 0 LicenseFile.newLicense true),
  .save .getLicenseTask (.openWrite 0 otherLicense true),
  .save .eventSinkTask (.write 19), .save .getLicenseTask (.write 4)]

/-- The file is the beginning of neither license. -/
theorem file_of_run_saveDay : ∃ t, (machine readShipped).run shipped saveDay = some t ∧
    (t.disk 0).content = some "q.r.MjAyMC0wMi0yOQ=".toList ∧
    ∃ content texts, (t.disk 0).content = some content ∧ SharedFile.Mosaic '\x00' texts content ∧
      ∀ text ∈ texts, SavedTo readShipped shipped saveDay 0 text := by
  obtain ⟨t, hrun, hcontent⟩ : ∃ t, (machine readShipped).run shipped saveDay = some t ∧
      (t.disk 0).content = some "q.r.MjAyMC0wMi0yOQ=".toList := ⟨_, rfl, rfl⟩
  refine ⟨t, hrun, hcontent, (file_of_run start_eq_shipped hrun 0).1.resolve_left ?_⟩
  rw [hcontent]
  exact fun h => by cases h

end Agent

end ItvpnAgent
