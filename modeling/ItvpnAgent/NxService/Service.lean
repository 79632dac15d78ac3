import ItvpnAgent.NxService.FileHandler
import ItvpnAgent.Tasks.GetLicenseTask
import ItvpnAgent.Tasks.ProcessKillerTask

/-! The Linux service: what `run` builds from the options, and what a reload of
the configuration changes of it. -/

namespace ItvpnAgent

open Kit

/-- The constructor of `Itvpn_Exec_Handler`. -/
def ItvpnExecHandler.make (options : Options) : FileHandler :=
  .make (Files.splitFileName options.openvpnFilePath) (Files.splitFilePath options.openvpnFilePath)

/-- The parser singleton and the members that depend on the options. -/
structure Service where
  parser : Parser
  getLicenseTask : TaskState GetLicenseTask
  processKillerTask : TaskState ProcessKillerTask
  itvpnExecHandler : FileHandler
  deriving DecidableEq

namespace Service

/-- `Service::run` behind the reading of the configuration. -/
def run (parser : Parser) (licFile : Option Str) : Service where
  parser := parser
  getLicenseTask := opened (GetLicenseTask.make parser.options) licFile
  processKillerTask := opened (ProcessKillerTask.make parser.options) licFile
  itvpnExecHandler := ItvpnExecHandler.make parser.options

def resheduleTasks (s : Service) : Service :=
  let options := s.parser.options
  { s with
    getLicenseTask := s.getLicenseTask.reshedule GetLicenseTask.code options
    processKillerTask := s.processKillerTask.reshedule ProcessKillerTask.code options }

/-- An accepted reload: `init` returns 0 and the tasks are rescheduled. -/
def reload (readIni : Str → Except Exn PropTree) (s : Service) (files : Str → Option Str) :
    Option Service :=
  if (s.parser.init readIni files).2 = 0 then
    some { s with parser := (s.parser.init readIni files).1 }.resheduleTasks
  else none

/-- The service under reloads; a label is what the files hold at that moment. -/
def machine (readIni : Str → Except Exn PropTree) : Machine Service (Str → Option Str) where
  step := reload readIni

theorem machine_step (readIni : Str → Except Exn PropTree) (s : Service) (files : Str → Option Str) :
    (machine readIni).step s files = s.reload readIni files := rfl

/-- The state that is derived from the options. -/
structure Derived where
  tryGetLicenseMins : ℤ
  getterWaitingHours : ℤ
  processStoppingName : Str
  killerWaitingHours : ℤ
  fileName : Str
  directory : Str
  watched : Str
  deriving DecidableEq

def derived (s : Service) : Derived where
  tryGetLicenseMins := s.getLicenseTask.ctx.task.own.tryGetLicenseMins
  getterWaitingHours := s.getLicenseTask.ctx.task.dayWaitingHours
  processStoppingName := s.processKillerTask.ctx.task.own.processStoppingName
  killerWaitingHours := s.processKillerTask.ctx.task.dayWaitingHours
  fileName := s.itvpnExecHandler.fileName
  directory := s.itvpnExecHandler.directory
  watched := s.itvpnExecHandler.watched

/-- The tasks have the values of the current options, and the handler those of
the options it was built from. -/
def UpToDate (start : Options) (s : Service) : Prop :=
  s.derived = { (run s.parser none).derived with
    fileName := (ItvpnExecHandler.make start).fileName
    directory := (ItvpnExecHandler.make start).directory
    watched := (ItvpnExecHandler.make start).watched }

theorem upToDate_run (parser : Parser) (licFile : Option Str) :
    UpToDate parser.options (run parser licFile) := rfl

theorem upToDate_reload {readIni : Str → Except Exn PropTree} {start : Options} {s t : Service}
    {files : Str → Option Str} (h : UpToDate start s) (hreload : s.reload readIni files = some t) :
    UpToDate start t := by
  have hname := congrArg Derived.fileName h
  have hdirectory := congrArg Derived.directory h
  have hwatched := congrArg Derived.watched h
  unfold reload at hreload
  split at hreload
  · cases hreload
    simp only [UpToDate, derived, Derived.mk.injEq]
    exact ⟨rfl, rfl, rfl, rfl, hname, hdirectory, hwatched⟩
  · cases hreload

theorem upToDate_of_run {readIni : Str → Except Exn PropTree} {parser : Parser} {licFile : Option Str}
    {reloads : List (Str → Option Str)} {s : Service}
    (hrun : (machine readIni).run (run parser licFile) reloads = some s) :
    UpToDate parser.options s :=
  (machine readIni).run_invariant (C := fun _ _ => True) (I := UpToDate parser.options)
    (fun _ _ _ h _ hstep => upToDate_reload h hstep) (upToDate_run parser licFile)
    ((machine readIni).along_of_forall fun _ _ => trivial) hrun

/-- After any accepted reloads, the derived state is that of a fresh start with
the current options exactly if the path of the VPN is the one of the start. -/
theorem derived_eq_iff {readIni : Str → Except Exn PropTree} {parser : Parser} {licFile : Option Str}
    {reloads : List (Str → Option Str)} {s : Service}
    (hrun : (machine readIni).run (run parser licFile) reloads = some s) :
    s.derived = (run s.parser licFile).derived ↔
      cStr s.parser.options.openvpnFilePath = cStr parser.options.openvpnFilePath := by
  rw [upToDate_of_run hrun, ← Files.split_eq_iff]
  simp only [derived, Derived.mk.injEq]
  constructor
  · rintro ⟨-, -, -, -, hname, hdirectory, -⟩
    exact ⟨hname.symm, hdirectory.symm⟩
  · rintro ⟨hname, hdirectory⟩
    refine ⟨rfl, rfl, rfl, rfl, hname.symm, hdirectory.symm, ?_⟩
    exact congrArg cStr hdirectory.symm

/-- The service after a start on the shipped configuration with this VPN. -/
def shipped (openvpn : Str) : Service :=
  run { Parser.started with options := shippedOptions openvpn } none

theorem reload_shipped (s : Service) {openvpn : Str} (hne : openvpn ≠ []) :
    s.reload readShipped (fun _ => some (shippedIni openvpn)) =
      some { s with parser := { s.parser with
        root := shippedTree openvpn
        options := { shippedOptions openvpn with
          servicePath := s.parser.servicePath
          logFilesPath := s.parser.logFilePath } } }.resheduleTasks := by
  have hinit : s.parser.init readShipped (fun _ => some (shippedIni openvpn)) = _ :=
    init_shipped hne rfl
  simp only [reload, hinit, if_true]

theorem run_shipped (s : Service) {openvpn : Str} (hne : openvpn ≠ []) :
    ∃ t, (machine readShipped).run s [fun _ => some (shippedIni openvpn)] = some t ∧
      t.itvpnExecHandler = s.itvpnExecHandler ∧ t.parser.options.openvpnFilePath = openvpn := by
  have hstep : (machine readShipped).step s (fun _ => some (shippedIni openvpn)) = some _ :=
    (machine_step _ _ _).trans (reload_shipped s hne)
  exact ⟨_, (machine readShipped).run_cons hstep, rfl, rfl⟩

theorem derived_eq_iff_same_path :
    ∃ s, (machine readShipped).run (shipped "/usr/sbin/openvpn".toList)
        [fun _ => some (shippedIni "/usr/sbin/openvpn".toList)] = some s ∧
      s.derived = (run s.parser none).derived := by
  have hne : "/usr/sbin/openvpn".toList ≠ [] := by decide
  obtain ⟨s, hrun, -, hpath⟩ := run_shipped (shipped "/usr/sbin/openvpn".toList) hne
  exact ⟨s, hrun, (derived_eq_iff hrun).mpr (congrArg cStr hpath)⟩

/-- A reload that moves the VPN: the handler still watches the old directory. -/
theorem old_directory_watched :
    ∃ s, (machine readShipped).run (shipped "/usr/sbin/openvpn".toList)
        [fun _ => some (shippedIni "/opt/itvpn/openvpn".toList)] = some s ∧
      s.parser.options.openvpnFilePath = "/opt/itvpn/openvpn".toList ∧
      s.itvpnExecHandler.watched = "/usr/sbin/".toList ∧
      s.derived ≠ (run s.parser none).derived := by
  have hne : "/opt/itvpn/openvpn".toList ≠ [] := by decide
  obtain ⟨s, hrun, hhandler, hpath⟩ := run_shipped (shipped "/usr/sbin/openvpn".toList) hne
  have hwatched : s.itvpnExecHandler.watched = "/usr/sbin/".toList := by
    rw [hhandler]
    decide
  refine ⟨s, hrun, hpath, hwatched, fun h => ?_⟩
  have hfresh : (run s.parser none).derived.watched = "/opt/itvpn/".toList := by
    simp only [derived, run, ItvpnExecHandler.make, hpath]
    decide
  have hsame : s.itvpnExecHandler.watched = "/opt/itvpn/".toList :=
    (congrArg Derived.watched h).trans hfresh
  rw [hwatched] at hsame
  exact absurd hsame (by decide)

end Service

end ItvpnAgent
