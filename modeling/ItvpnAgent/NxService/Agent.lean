import ItvpnAgent.Kit.SharedFile
import ItvpnAgent.NxService.ConfigHandler
import ItvpnAgent.NxService.ItvpnExecHandler
import ItvpnAgent.Tasks.Policy

/-! The Linux agent as a whole, in any interleaving: the two timer tasks on the main
reactor, and on the second one the handler of the configuration and that of the VPN
with the event sink behind it. One thread serves the two handlers, each task has a
thread of its own. A run of `svc` is several steps: it starts, it meets the world, it
saves a license to a file in which others may write too, and it ends; of the
configuration it sees what is in force at some moment since its start, each call for
itself. A refused configuration raises SIGINT, which ends the loop of the main reactor
and so the process. -/

namespace ItvpnAgent

open Kit LicenseChecker

/-! ### The parts under one roof -/

/-- The loop of the main reactor. SIGINT tells it to end; until it has, it may still
dispatch. -/
inductive EventLoop where
  | running
  | ending
  | ended
  deriving DecidableEq, Repr

/-- What a run of `svc` can see of the configuration at one moment. -/
structure Glimpse where
  options : Options
  processStoppingName : Str
  deriving DecidableEq, Repr

/-- How far the save of a run is; a file goes by its number. -/
inductive SaveState where
  | notYet
  | failed
  | writing (file written : ℕ)
  | closed (written : ℕ)
  deriving DecidableEq, Repr

def SaveState.outcome : SaveState → SaveOutcome
  | .notYet | .failed => { opens := false, written := 0 }
  | .writing _ written | .closed written => { opens := true, written }

/-- A run of `svc` that has met the world: `found` is what it has read from the license
file, `name` that of the process it is to stop. -/
structure Round where
  env : Env
  found : Option Str
  name : Str
  save : SaveState

/-- The world of a run, its own save included. -/
def Round.world (r : Round) : Env := { r.env with save := r.save.outcome }

/-- A task opens a file to save a license, writes the next characters of it, closes it. -/
inductive SaveOp where
  | openWrite (file : ℕ) (hl : HostLicense) (succeeds : Bool)
  | write (n : ℕ)
  | close

def SaveOp.fileOp (w : Worker) : SaveOp → FileOp Worker Char
  | .openWrite _ hl succeeds => .openWrite w (stripNul hl.license) succeeds
  | .write n => .write w n
  | .close => .close w

/-- What befalls the handler of the VPN. -/
inductive LaunchEvent where
  | openFile (merged : Bool) (event : InotifyEvent)
  | read (n : ℕ)
  | activate (spawns : Bool)

def LaunchEvent.label : LaunchEvent → LaunchLabel
  | .openFile merged event => .openFile merged event
  | .read n => .read n
  | .activate spawns => .activate spawns

/-- A handler takes a step; the timer of a task expires; a run of `svc` has met the
world, works on its save, ends; the main loop ends. -/
inductive AgentLabel where
  | config (l : ConfigLabel)
  | launch (e : LaunchEvent)
  | expire (w : Worker) (spawns : Bool)
  | meet (w : Worker) (env : Env) (found : Option Str) (name : Str)
  | save (w : Worker) (op : SaveOp)
  | finish (w : Worker)
  | leave

/-- The world as a task sees it while these options are in force. -/
def Env.under (options : Options) (env : Env) : Env := { env with options := fun _ => options }

/-- What was read is a value of one of the options that were in force. -/
def Reads {β : Type} (seen : List Options) (value : Options → β) (o : Options) : Prop :=
  ∃ o' ∈ seen, value o = value o'

/-- The options that the calls have found, if these were in force one after the other:
nothing keeps a reload from coming between two values. -/
def Env.ReadFrom (env : Env) (seen : List Options) : Prop :=
  Reads seen Options.dayLicenseUpdate (env.options .isLicenseUpdateDay) ∧
  Reads seen Options.dayLicenseCheck (env.options .isLicenseCheckDay) ∧
  Reads seen Options.licFile (env.options .isLicenseFile) ∧
  Reads seen Options.licFileName (env.options .isLicenseFile) ∧
  Reads seen Options.licApp (env.options .makeVerifyLicenseCmd) ∧
  Reads seen Options.uidFileName (env.options .makeVerifyLicenseCmd) ∧
  Reads seen Options.licFile (env.options .makeVerifyLicenseCmd) ∧
  Reads seen Options.prod (env.options .makeVerifyLicenseCmd) ∧
  Reads seen Options.licApp (env.options .makeMachineUidCmd) ∧
  Reads seen Options.makeUidCmd (env.options .makeMachineUidCmd) ∧
  Reads seen Options.prod (env.options .makeMachineUidCmd) ∧
  Reads seen Options.unp (env.options .makeLicenseExtractor) ∧
  Reads seen Options.agentId (env.options .makeLicenseExtractor) ∧
  Reads seen Options.prod (env.options .makeLicenseExtractor)

instance {β : Type} [DecidableEq β] (seen : List Options) (value : Options → β) (o : Options) :
    Decidable (Reads seen value o) := inferInstanceAs (Decidable (∃ o' ∈ seen, _))

instance (env : Env) (seen : List Options) : Decidable (env.ReadFrom seen) :=
  inferInstanceAs (Decidable (_ ∧ _ ∧ _ ∧ _ ∧ _ ∧ _ ∧ _ ∧ _ ∧ _ ∧ _ ∧ _ ∧ _ ∧ _ ∧ _))

/-- The task finds this in the license file. -/
def TaskState.facing {τ : Type} (found : Option Str) (s : TaskState τ) : TaskState τ :=
  { s with ctx := { s.ctx with outside := { s.ctx.outside with licFile := found } } }

/-- The killer with another name to stop. -/
def TaskState.named (name : Str) (s : TaskState ProcessKillerTask) : TaskState ProcessKillerTask :=
  s.setTask { s.ctx.task with own := { processStoppingName := name } }

/-- `launch` has the handler of the VPN as it is now; `config.service` has it as it
was built. `seen` is what each task has been able to see of the configuration since the
start of its run, oldest first. -/
structure Agent where
  config : ConfigState
  launch : LaunchState
  loop : EventLoop
  bufsiz : ℕ
  disk : ℕ → SharedFile Worker Char
  seen : Worker → List Glimpse
  rounds : Worker → Option Round

namespace Agent

def options (a : Agent) : Options := a.config.service.parser.options

def getter (a : Agent) : TaskState GetLicenseTask := a.config.service.getLicenseTask

def killer (a : Agent) : TaskState ProcessKillerTask := a.config.service.processKillerTask

def glimpse (a : Agent) : Glimpse where
  options := a.options
  processStoppingName := a.killer.ctx.task.own.processStoppingName

def running (a : Agent) : Worker → Bool
  | .getLicenseTask => a.getter.running
  | .processKillerTask => a.killer.running
  | .eventSinkTask => a.launch.running

/-- What a task has done, newest last. -/
def log (a : Agent) : Worker → List Action
  | .getLicenseTask => a.getter.ctx.outside.log
  | .processKillerTask => a.killer.ctx.outside.log
  | .eventSinkTask => a.launch.sink.outside.log

def setGetter (a : Agent) (s : TaskState GetLicenseTask) : Agent :=
  { a with config := { a.config with service := { a.config.service with getLicenseTask := s } } }

def setKiller (a : Agent) (s : TaskState ProcessKillerTask) : Agent :=
  { a with config := { a.config with service := { a.config.service with processKillerTask := s } } }

/-- One of the tasks has ended the process, or the main loop has. -/
def ended (a : Agent) : Bool :=
  a.getter.ended || a.killer.ended || a.launch.ended || a.loop = .ended

/-- A handler has to wait for the other one to return. -/
def waits (a : Agent) : AgentLabel → Bool
  | .config (.read _) => a.launch.opening
  | .launch (.read _) => a.config.phase ≠ .idle
  | _ => false

/-- The call of `init` that has led here was refused. -/
def raises (l : ConfigLabel) (config : ConfigState) : Bool :=
  match l with
  | .init => config.phase = .idle
  | _ => false

/-- The tasks that are at work can see this too, the others nothing else. -/
def shown (a : Agent) (g : Glimpse) : Worker → List Glimpse := fun w =>
  if a.running w then a.seen w ++ [g] else [g]

def setConfig (a : Agent) (l : ConfigLabel) (config : ConfigState) : Agent :=
  let t := { a with
    config
    loop := if raises l config then .ending else a.loop }
  { t with seen := a.shown t.glimpse }

def expire (a : Agent) (spawns : Bool) : Worker → Option Agent
  | .getLicenseTask =>
    ((taskMachine GetLicenseTask.code).step a.getter (.expire spawns)).map a.setGetter
  | .processKillerTask =>
    ((taskMachine ProcessKillerTask.code).step a.killer (.expire spawns)).map a.setKiller
  | .eventSinkTask => none

/-! ### A run of `svc` behind its start -/

def setRound (a : Agent) (w : Worker) (r : Round) : Agent :=
  { a with rounds := Function.update a.rounds w (some r) }

/-- By now the run has met all but its own save: whatever comes of it, what it has read
of the configuration was in force since its start. -/
def meet (a : Agent) (w : Worker) (env : Env) (found : Option Str) (name : Str) : Option Agent :=
  if a.running w = true ∧ (a.rounds w).isNone = true ∧ env.bufsiz = a.bufsiz ∧
      env.ReadFrom ((a.seen w).map Glimpse.options) ∧ name ∈ (a.seen w).map Glimpse.processStoppingName then
    some (a.setRound w { env, found, name, save := .notYet })
  else none

/-- What `svc` does in this round. -/
def actions (a : Agent) (w : Worker) (r : Round) : List Action :=
  match w with
  | .getLicenseTask => newActions (GetLicenseTask.svc r.world) (a.getter.facing r.found).ctx
  | .processKillerTask => newActions (ProcessKillerTask.svc r.world) (a.killer.named r.name).ctx
  | .eventSinkTask => newActions (EventSinkTask.svc r.world) a.launch.sink

def setSave (a : Agent) (w : Worker) (r : Round) (file : ℕ) (f : SharedFile Worker Char)
    (save : SaveState) : Agent :=
  { a.setRound w { r with save } with disk := Function.update a.disk file f }

/-- A step of `save_license_to_file`, for a license that `svc` writes. The path in force
leads to some file. -/
def save (a : Agent) (w : Worker) (r : Round) : SaveOp → Option Agent
  | .openWrite file hl succeeds =>
    if r.save = .notYet ∧ .writeLicense hl ∈ a.actions w r then
      ((a.disk file).openWrite w (stripNul hl.license) succeeds).map fun f =>
        a.setSave w r file f (if succeeds then .writing file 0 else .failed)
    else none
  | .write n =>
    match r.save with
    | .writing file written =>
      ((a.disk file).write '\x00' w n).map fun f => a.setSave w r file f (.writing file (written + n))
    | _ => none
  | .close =>
    match r.save with
    | .writing file written =>
      ((a.disk file).close w).map fun f => a.setSave w r file f (.closed written)
    | _ => none

/-- The run has no save to make, or has made it. -/
def saved (a : Agent) (w : Worker) (r : Round) : Bool :=
  match r.save with
  | .notYet => (a.actions w r).all fun act => match act with
    | .writeLicense _ => false
    | _ => true
  | .writing _ _ => false
  | .failed | .closed _ => true

/-- The task is idle again. -/
def settle (a : Agent) (w : Worker) : Agent :=
  { a with
    seen := Function.update a.seen w [a.glimpse]
    rounds := Function.update a.rounds w none }

/-- What remains of the run: its re-arming call and its exit. -/
def finish (a : Agent) (w : Worker) (r : Round) : Option Agent :=
  match w with
  | .getLicenseTask =>
    ((taskMachine GetLicenseTask.code).step (a.getter.facing r.found) (.finish r.world)).map fun s =>
      (a.setGetter s).settle w
  | .processKillerTask =>
    ((taskMachine ProcessKillerTask.code).step (a.killer.named r.name) (.finish r.world)).map fun s =>
      (a.setKiller (s.named a.killer.ctx.task.own.processStoppingName)).settle w
  | .eventSinkTask =>
    (launchMachine.step a.launch (.finish r.world)).map fun s => { a with launch := s }.settle w

def machine (readIni : Str → Except Exn PropTree) : Machine Agent AgentLabel where
  step a l :=
    if a.ended || a.waits l then none
    else
      match l with
      | .config l => ((configMachine readIni).step a.config l).map (a.setConfig l)
      | .launch e => (launchMachine.step a.launch e.label).map fun s => { a with launch := s }
      | .expire w spawns => a.expire spawns w
      | .meet w env found name => a.meet w env found name
      | .save w op => (a.rounds w).bind fun r => a.save w r op
      | .finish w => (a.rounds w).bind fun r => if a.saved w r then a.finish w r else none
      | .leave => if a.loop = .ending then some { a with loop := .ended } else none

/-! ### The start -/

/-- What the constructors of the two handlers print into an array of `BUFSIZ`
characters. -/
def startedMessage (path : Str) : Str :=
  "Started monitoring file '".toList ++ cStr path ++ "'".toList

/-- The agent after its start on an accepted configuration. -/
def started (bufsiz : ℕ) (accepted : Parser) (content : Str) (disk : ℕ → Option Str) : Agent where
  config := {
    service := .run accepted none
    handler := ConfigHandler.make accepted
    content := content
    unread := []
    phase := .idle
    refused := none
    resheduled := true }
  launch := .start accepted.options
  loop := .running
  bufsiz := bufsiz
  disk file := .idle (disk file)
  seen _ := [{ options := accepted.options, processStoppingName := accepted.options.killFileName }]
  rounds _ := none

/-- `Service::run`. SIGINT is raised for a refused configuration before there is a
handler for it, which ends the process; so does a path too long for the array. -/
def start (bufsiz : ℕ) (readIni : Str → Except Exn PropTree) (parser : Parser) (content : Str)
    (disk : ℕ → Option Str) : Option Agent :=
  let (accepted, result) := parser.makePaths readIni (configOnly content)
  if result = -1 then none
  else if (startedMessage accepted.servicePath).length < bufsiz ∧
      (startedMessage accepted.options.openvpnFilePath).length < bufsiz then
    some (started bufsiz accepted content disk)
  else none

theorem start_eq_some_iff {bufsiz : ℕ} {readIni : Str → Except Exn PropTree} {parser : Parser}
    {content : Str} {disk : ℕ → Option Str} {a : Agent} :
    start bufsiz readIni parser content disk = some a ↔
      ∃ accepted, parser.makePaths readIni (configOnly content) = (accepted, 0) ∧
        (startedMessage accepted.servicePath).length < bufsiz ∧
        (startedMessage accepted.options.openvpnFilePath).length < bufsiz ∧
        a = started bufsiz accepted content disk := by
  have hresult : (parser.makePaths readIni (configOnly content)).2 = 0 ∨
      (parser.makePaths readIni (configOnly content)).2 = -1 :=
    Parser.init_accepted_or_refused readIni (configOnly content) parser.withPaths
  cases hmake : parser.makePaths readIni (configOnly content) with
  | mk accepted result =>
    rw [hmake] at hresult
    obtain rfl | rfl := hresult
    · have hne : ¬ (0 : ℤ) = -1 := by decide
      simp only [start, hmake, hne, if_false, Option.ite_none_right_eq_some, Option.some.injEq,
        Prod.mk.injEq, and_true, exists_eq_left', and_assoc]
      simp only [eq_comm]
    · simp [start, hmake]

theorem start_shipped {openvpn : Str} (hne : openvpn ≠ [])
    (hfits : (startedMessage openvpn).length < 8192) (disk : ℕ → Option Str) :
    start 8192 readShipped Parser.started (shippedIni openvpn) disk =
      some (started 8192 (shippedParser openvpn) (shippedIni openvpn) disk) := by
  have hpaths : Parser.started.withPaths = Parser.started := by decide
  have hfile : configOnly (shippedIni openvpn) Parser.started.makeConfigFilePath =
      some (shippedIni openvpn) := rfl
  have hmake : Parser.started.makePaths readShipped (configOnly (shippedIni openvpn)) =
      (shippedParser openvpn, 0) := by
    rw [Parser.makePaths, hpaths, init_shipped hne hfile]
    rfl
  have hservice : (startedMessage Parser.started.servicePath).length < 8192 := by decide
  exact start_eq_some_iff.mpr ⟨_, hmake, hservice, hfits, rfl⟩

/-! ### What a step can do -/

section Step

variable {readIni : Str → Except Exn PropTree} {a t : Agent} {w : Worker} {r : Round}

theorem step_config {l : ConfigLabel} (h : (machine readIni).step a (.config l) = some t) :
    ∃ config, (configMachine readIni).step a.config l = some config ∧ t = a.setConfig l config := by
  simp only [machine, Option.ite_none_left_eq_some, Option.map_eq_some_iff] at h
  obtain ⟨-, config, hconfig, ht⟩ := h
  exact ⟨config, hconfig, ht.symm⟩

theorem step_launch {e : LaunchEvent} (h : (machine readIni).step a (.launch e) = some t) :
    ∃ s, launchMachine.step a.launch e.label = some s ∧ t = { a with launch := s } := by
  simp only [machine, Option.ite_none_left_eq_some, Option.map_eq_some_iff] at h
  obtain ⟨-, s, hs, ht⟩ := h
  exact ⟨s, hs, ht.symm⟩

/-- What happens to the handler of the VPN does nothing to the process, and is no deed of
the event sink. -/
theorem launch_frame {e : LaunchEvent} {s s' : LaunchState} (h : launchMachine.step s e.label = some s') :
    s'.ended = s.ended ∧ s'.sink = s.sink := by
  cases e with
  | openFile merged event =>
    simp only [LaunchEvent.label, launchMachine, Option.ite_none_left_eq_some] at h
    obtain ⟨unread, -, hs⟩ := Option.bind_eq_some_iff.mp h.2
    cases hs
    exact ⟨rfl, rfl⟩
  | read n =>
    simp only [LaunchEvent.label, launchMachine, Option.ite_none_left_eq_some] at h
    obtain ⟨⟨handler, works, unread⟩, -, hs⟩ := Option.bind_eq_some_iff.mp h.2
    cases hs
    exact ⟨rfl, rfl⟩
  | activate spawns =>
    simp only [LaunchEvent.label, launchMachine, Option.ite_none_right_eq_some, Option.some.injEq] at h
    obtain ⟨-, rfl⟩ := h
    unfold LaunchState.openTask
    split <;> exact ⟨rfl, rfl⟩

/-- The event sink has no timer. -/
theorem step_expire_cases {spawns : Bool} (h : (machine readIni).step a (.expire w spawns) = some t) :
    (w = .getLicenseTask ∧ ∃ s,
      (taskMachine GetLicenseTask.code).step a.getter (.expire spawns) = some s ∧ t = a.setGetter s) ∨
    (w = .processKillerTask ∧ ∃ s,
      (taskMachine ProcessKillerTask.code).step a.killer (.expire spawns) = some s ∧ t = a.setKiller s) := by
  simp only [machine, Option.ite_none_left_eq_some] at h
  obtain ⟨-, h⟩ := h
  cases w with
  | getLicenseTask =>
    obtain ⟨s, hs, ht⟩ := Option.map_eq_some_iff.mp h
    exact .inl ⟨rfl, s, hs, ht.symm⟩
  | processKillerTask =>
    obtain ⟨s, hs, ht⟩ := Option.map_eq_some_iff.mp h
    exact .inr ⟨rfl, s, hs, ht.symm⟩
  | eventSinkTask => cases h

theorem step_meet {env : Env} {found : Option Str} {name : Str}
    (h : (machine readIni).step a (.meet w env found name) = some t) :
    a.running w = true ∧ env.ReadFrom ((a.seen w).map Glimpse.options) ∧
      name ∈ (a.seen w).map Glimpse.processStoppingName ∧
      t = a.setRound w { env, found, name, save := .notYet } := by
  simp only [machine, meet, Option.ite_none_left_eq_some, Option.ite_none_right_eq_some,
    Option.some.injEq] at h
  obtain ⟨-, ⟨hrunning, -, -, hread, hname⟩, ht⟩ := h
  exact ⟨hrunning, hread, hname, ht.symm⟩

/-- A step of a save is one of its file, which is opened for a license that the run
writes. -/
theorem step_save {op : SaveOp} (h : (machine readIni).step a (.save w op) = some t) :
    ∃ r file f save, a.rounds w = some r ∧
      (SharedFile.machine '\x00').step (a.disk file) (op.fileOp w) = some f ∧
      t = a.setSave w r file f save ∧
      ∀ file' hl succeeds, op = .openWrite file' hl succeeds →
        file' = file ∧ .writeLicense hl ∈ a.actions w r := by
  simp only [machine, Option.ite_none_left_eq_some] at h
  obtain ⟨-, h⟩ := h
  obtain ⟨r, hround, h⟩ := Option.bind_eq_some_iff.mp h
  cases op with
  | openWrite file hl succeeds =>
    simp only [save, Option.ite_none_right_eq_some] at h
    obtain ⟨⟨-, hwrites⟩, h⟩ := h
    obtain ⟨f, hf, ht⟩ := Option.map_eq_some_iff.mp h
    refine ⟨r, file, f, _, hround, hf, ht.symm, fun file' hl' succeeds' hop => ?_⟩
    cases hop
    exact ⟨rfl, hwrites⟩
  | write n =>
    simp only [save] at h
    split at h
    · next file written hsave =>
      obtain ⟨f, hf, ht⟩ := Option.map_eq_some_iff.mp h
      exact ⟨r, file, f, _, hround, hf, ht.symm, nofun⟩
    · cases h
  | close =>
    simp only [save] at h
    split at h
    · next file written hsave =>
      obtain ⟨f, hf, ht⟩ := Option.map_eq_some_iff.mp h
      exact ⟨r, file, f, _, hround, hf, ht.symm, nofun⟩
    · cases h

theorem step_finish (h : (machine readIni).step a (.finish w) = some t) :
    ∃ r, a.rounds w = some r ∧
      ((w = .getLicenseTask ∧ ∃ s,
        (a.getter.facing r.found).finish GetLicenseTask.code r.world = some s ∧
        t = (a.setGetter s).settle w) ∨
      (w = .processKillerTask ∧ ∃ s,
        (a.killer.named r.name).finish ProcessKillerTask.code r.world = some s ∧
        t = (a.setKiller (s.named a.killer.ctx.task.own.processStoppingName)).settle w) ∨
      (w = .eventSinkTask ∧ ∃ s, a.launch.finish r.world = some s ∧ t = { a with launch := s }.settle w)) := by
  simp only [machine, Option.ite_none_left_eq_some] at h
  obtain ⟨-, h⟩ := h
  obtain ⟨r, hround, h⟩ := Option.bind_eq_some_iff.mp h
  obtain ⟨-, h⟩ := Option.ite_none_right_eq_some.mp h
  refine ⟨r, hround, ?_⟩
  cases w with
  | getLicenseTask =>
    obtain ⟨s, hs, ht⟩ := Option.map_eq_some_iff.mp h
    exact .inl ⟨rfl, s, (ItvpnAgent.step_finish hs).2.2, ht.symm⟩
  | processKillerTask =>
    obtain ⟨s, hs, ht⟩ := Option.map_eq_some_iff.mp h
    exact .inr (.inl ⟨rfl, s, (ItvpnAgent.step_finish hs).2.2, ht.symm⟩)
  | eventSinkTask =>
    obtain ⟨s, hs, ht⟩ := Option.map_eq_some_iff.mp h
    simp only [launchMachine, Option.ite_none_right_eq_some] at hs
    exact .inr (.inr ⟨rfl, s, hs.2, ht.symm⟩)

theorem step_leave (h : (machine readIni).step a .leave = some t) :
    a.loop = .ending ∧ t = { a with loop := .ended } := by
  simp only [machine, Option.ite_none_left_eq_some, Option.ite_none_right_eq_some,
    Option.some.injEq] at h
  exact ⟨h.2.1, h.2.2.symm⟩

/-- What a step of the handler is for the service: `init` changes the parser,
`reshedule_tasks` the tasks, and nothing else anything. -/
theorem config_step_service {c d : ConfigState} {l : ConfigLabel}
    (h : (configMachine readIni).step c l = some d) :
    (l = .init ∧ c.phase = .woken ∧ d = c.init readIni) ∨
      (l = .reshedule ∧ c.phase = .loaded ∧ d = c.reshedule) ∨
      (l ≠ .init ∧ raises l d = false ∧ d.service = c.service ∧ (d.phase = .loaded ↔ c.phase = .loaded)) := by
  cases l with
  | init =>
    simp only [configMachine, Option.ite_none_right_eq_some, Option.some.injEq] at h
    exact .inl ⟨rfl, h.1, h.2.symm⟩
  | reshedule =>
    simp only [configMachine, Option.ite_none_right_eq_some, Option.some.injEq] at h
    exact .inr (.inl ⟨rfl, h.1, h.2.symm⟩)
  | edit merged content =>
    obtain ⟨unread, -, hd⟩ := Option.bind_eq_some_iff.mp h
    cases hd
    exact .inr (.inr ⟨fun hl => (by cases hl), rfl, rfl, Iff.rfl⟩)
  | touch merged event =>
    obtain ⟨unread, -, hd⟩ := Option.bind_eq_some_iff.mp h
    cases hd
    exact .inr (.inr ⟨fun hl => (by cases hl), rfl, rfl, Iff.rfl⟩)
  | read n =>
    simp only [configMachine, Option.ite_none_right_eq_some] at h
    obtain ⟨hidle, h⟩ := h
    obtain ⟨⟨handler, works, unread⟩, -, hd⟩ := Option.bind_eq_some_iff.mp h
    cases hd
    refine .inr (.inr ⟨fun hl => (by cases hl), rfl, rfl, ?_⟩)
    cases works <;> simp [hidle]

/-- A refused file leaves the options alone, an accepted one replaces them; the tasks
do not change, nor what a file leads to. -/
theorem init_cases (readIni : Str → Except Exn PropTree) (c : ConfigState) :
    ∃ parser, (c.init readIni).service = { c.service with parser } ∧
      (c.init readIni).content = c.content ∧
      parser.optionsOf readIni = c.service.parser.optionsOf readIni ∧
      ((c.service.parser.optionsOf readIni c.content = none ∧ parser.options = c.service.parser.options ∧
          (c.init readIni).phase = .idle) ∨
        (c.service.parser.optionsOf readIni c.content = some parser.options ∧
          (c.init readIni).phase = .loaded)) := by
  refine ⟨(c.service.parser.init readIni (configOnly c.content)).1, ?_⟩
  have hreading := Parser.optionsOf_init readIni (configOnly c.content) c.service.parser
  unfold ConfigState.init
  rcases Parser.init_cases readIni (configOnly c.content) c.service.parser with ⟨hok, -⟩ | ⟨hno, hkept⟩
  · have hne : ¬ (0 : ℤ) = -1 := by decide
    simp only [hok, hne, if_false, true_and, and_true]
    exact ⟨hreading, .inr (Parser.optionsOf_of_accepted readIni hok)⟩
  · simp only [hno, if_true, true_and, and_true]
    exact ⟨hreading, .inl ⟨Parser.optionsOf_of_refused readIni hno, hkept⟩⟩

end Step

end Agent

end ItvpnAgent
