import ItvpnAgent.Kit.Inbox
import ItvpnAgent.Kit.Machine
import ItvpnAgent.NxService.Service
import ItvpnAgent.Parser.Values

/-! `Config_Handler`, the kernel's events and the edits of the configuration file,
in any interleaving. As long as the options in force are not those of the file,
an event of the file must be unread or the handler about to call `init`. A step
keeps that exactly if it drops no such event for good. -/

namespace ItvpnAgent

open Kit

/-! ### What `init` makes of a file -/

/-- The files as `init` sees them: the configuration file is the only one it opens. -/
def configOnly (content : Str) : Str → Option Str := fun _ => some content

namespace Parser

variable (readIni : Str → Except Exn PropTree)

/-- The options that `init` sets for this content of the file, if it accepts it. -/
def optionsOf (p : Parser) (content : Str) : Option Options :=
  let (p, result) := p.init readIni (configOnly content)
  if result = 0 then some p.options else none

/-- Of the members, `init` changes the tree and the options only. -/
theorem init_frame (files : Str → Option Str) (p : Parser) :
    ∃ root options, (p.init readIni files).1 = { p with root, options } := by
  unfold init
  cases createRoot readIni files p.makeConfigFilePath with
  | error e => exact ⟨p.root, p.options, rfl⟩
  | ok root =>
    cases hread : Parser.readOptions { p with root } with
    | error e => exact ⟨root, p.options, by simp only [hread]⟩
    | ok options => exact ⟨root, options, by simp only [hread]⟩

theorem init_accepted_or_refused (files : Str → Option Str) (p : Parser) :
    (p.init readIni files).2 = 0 ∨ (p.init readIni files).2 = -1 :=
  (init_cases readIni files p).imp And.left And.left

/-- The options of a file do not depend on the ones before. -/
theorem optionsOf_with (p : Parser) (root : PropTree) (options : Options) :
    Parser.optionsOf readIni { p with root, options } = p.optionsOf readIni := by
  funext content
  unfold optionsOf init
  have hpath : Parser.makeConfigFilePath { p with root, options } = p.makeConfigFilePath := rfl
  rw [hpath]
  cases createRoot readIni (configOnly content) p.makeConfigFilePath with
  | error e => rfl
  | ok root' =>
    have hread : Parser.readOptions { p with root := root', options } =
        Parser.readOptions { p with root := root' } := rfl
    simp only [hread]
    cases Parser.readOptions { p with root := root' } with
    | error e => rfl
    | ok options' => rfl

theorem optionsOf_init (files : Str → Option Str) (p : Parser) :
    (p.init readIni files).1.optionsOf readIni = p.optionsOf readIni := by
  obtain ⟨root, options, h⟩ := init_frame readIni files p
  rw [h, optionsOf_with]

theorem optionsOf_of_accepted {p : Parser} {content : Str}
    (h : (p.init readIni (configOnly content)).2 = 0) :
    p.optionsOf readIni content = some (p.init readIni (configOnly content)).1.options := by
  simp only [optionsOf, h, if_true]

theorem optionsOf_of_refused {p : Parser} {content : Str}
    (h : (p.init readIni (configOnly content)).2 = -1) : p.optionsOf readIni content = none := by
  simp [optionsOf, h]

end Parser

/-- The constructor of `Config_Handler`. -/
def ConfigHandler.make (parser : Parser) : FileHandler :=
  .make parser.fileName parser.servicePath

/-! ### The handler and its environment -/

/-- Where `handle_input` stands: it is not running; it sleeps before `init`; or
`init` has returned 0 and `reshedule_tasks` comes next. -/
inductive ConfigPhase where
  | idle
  | woken
  | loaded
  deriving DecidableEq

/-- `content` is what the configuration file holds. `refused`: the content for
which the last `init` returned -1 and SIGINT was raised. `resheduled`:
`reshedule_tasks` has run since the options were loaded. -/
structure ConfigState where
  service : Service
  handler : FileHandler
  content : Str
  unread : List InotifyEvent
  phase : ConfigPhase
  refused : Option Str
  resheduled : Bool

/-- The configuration file gets a new content; some file of the directory has an
event; `handle_input` reads `n` events; it calls `init`, and `reshedule_tasks`. -/
inductive ConfigLabel where
  | edit (merged : Bool) (content : Str)
  | touch (merged : Bool) (event : InotifyEvent)
  | read (n : ℕ)
  | init
  | reshedule

namespace ConfigState

def concerns (s : ConfigState) : InotifyEvent → Prop :=
  FileHandler.Concerns (·.modify) s.handler.fileName

/-- The kernel's event for an edit of the configuration file. -/
def editEvent (s : ConfigState) : InotifyEvent where
  len := (Files.splitFileName s.service.parser.makeConfigFilePath).length + 1
  name := Files.splitFileName s.service.parser.makeConfigFilePath
  isDir := false
  modify := true
  opened := false

def edit (s : ConfigState) (merged : Bool) (content : Str) : Option ConfigState := do
  let unread ← Inbox.post merged s.editEvent s.unread
  return { s with content, unread }

def touch (s : ConfigState) (merged : Bool) (event : InotifyEvent) : Option ConfigState := do
  let unread ← Inbox.post merged event s.unread
  return { s with unread }

/-- `Config_Handler::handle_input` up to the call of `sleep`. -/
def handleInput (s : ConfigState) (n : ℕ) : Option ConfigState := do
  let (handler, works, unread) ← s.handler.handleInput (·.modify) n s.unread
  return { s with handler, unread, phase := if works then .woken else .idle }

/-- The call of `init`, and `raise(SIGINT)` where it returns -1. -/
def init (readIni : Str → Except Exn PropTree) (s : ConfigState) : ConfigState :=
  let (parser, result) := s.service.parser.init readIni (configOnly s.content)
  if result = -1 then
    { s with service := { s.service with parser }, phase := .idle, refused := some s.content }
  else
    { s with
      service := { s.service with parser }
      phase := .loaded
      refused := none
      resheduled := false }

def reshedule (s : ConfigState) : ConfigState :=
  { s with service := s.service.resheduleTasks, phase := .idle, resheduled := true }

/-- The service after its start on a configuration file with this content. -/
def start (readIni : Str → Except Exn PropTree) (parser : Parser) (content : Str) : ConfigState :=
  let (parser, result) := parser.makePaths readIni (configOnly content)
  { service := .run parser none
    handler := ConfigHandler.make parser
    content := content
    unread := []
    phase := .idle
    refused := if result = -1 then some content else none
    resheduled := true }

end ConfigState

def configMachine (readIni : Str → Except Exn PropTree) : Machine ConfigState ConfigLabel where
  step s
    | .edit merged content => s.edit merged content
    | .touch merged event => s.touch merged event
    | .read n => if s.phase = .idle then s.handleInput n else none
    | .init => if s.phase = .woken then some (s.init readIni) else none
    | .reshedule => if s.phase = .loaded then some s.reshedule else none

namespace ConfigState

variable {readIni : Str → Except Exn PropTree}

/-- The options in force are those of the file, or SIGINT was raised for it. -/
def Applied (readIni : Str → Except Exn PropTree) (s : ConfigState) : Prop :=
  s.service.parser.optionsOf readIni s.content = some s.service.parser.options ∨
    s.refused = some s.content

/-- No event is left to be read, and `handle_input` has returned. -/
def Settled (s : ConfigState) : Prop := s.unread = [] ∧ s.phase = .idle

/-- The state that every edit is to end in. -/
def InForce (readIni : Str → Except Exn PropTree) (s : ConfigState) : Prop :=
  (s.service.parser.optionsOf readIni s.content = some s.service.parser.options ∧
      s.resheduled = true) ∨
    s.refused = some s.content

/-- An edit that is not applied is on its way to `init`. -/
def Tracked (readIni : Str → Except Exn PropTree) (s : ConfigState) : Prop :=
  s.phase ≠ .woken → Inbox.Owes s.concerns (¬ s.Applied readIni) s.unread

/-- The step drops no edit. -/
def Attends (readIni : Str → Except Exn PropTree) (s : ConfigState) : ConfigLabel → Prop
  | .edit _ content => '/' ∈ cStr s.service.parser.configFilePath ∨ s.phase = .woken ∨
      Inbox.Owes s.concerns (¬ Applied readIni { s with content }) s.unread
  | .read n => s.handler.WorksOn (·.modify) s.unread ∨
      Inbox.Spares s.concerns (¬ s.Applied readIni) n s.unread
  | _ => True

/-- What every step keeps: the paths that the start has set, with what `init`
makes of any content under them; and the truth of the two flags. -/
structure Sound (readIni : Str → Except Exn PropTree) (optionsOf : Str → Option Options)
    (s : ConfigState) : Prop where
  name : s.service.parser.fileName = Files.splitFileName s.service.parser.configFilePath
  path : s.service.parser.servicePath = Files.splitFilePath s.service.parser.configFilePath
  handlerName : s.handler.fileName = s.service.parser.fileName
  refused : ∀ content, s.refused = some content → optionsOf content = none
  reading : s.service.parser.optionsOf readIni = optionsOf
  resheduled : s.phase ≠ .loaded → s.resheduled = true

variable {optionsOf : Str → Option Options} {s t : ConfigState}

/-- Edits come with events of the file exactly if its path has a directory. -/
theorem concerns_editEvent_iff (h : s.Sound readIni optionsOf) :
    s.concerns s.editEvent ↔ '/' ∈ cStr s.service.parser.configFilePath := by
  have hclean (a : Str) : cStr (Files.splitFileName a) = Files.splitFileName a :=
    upTo_of_notMem (Files.nul_notMem_splitFileName a)
  rw [← Files.splitFileName_append_iff]
  simp [concerns, FileHandler.Concerns, editEvent, h.handlerName, h.name, Parser.makeConfigFilePath,
    h.path, hclean, eq_comm]

/-! ### The call of `init` -/

/-- Whether `init` accepts the file or not, the file is dealt with. -/
theorem applied_init (s : ConfigState) : (s.init readIni).Applied readIni := by
  unfold Applied init
  rcases Parser.init_accepted_or_refused readIni (configOnly s.content) s.service.parser with hok | hno
  · left
    have hne : ¬ (0 : ℤ) = -1 := by decide
    simp only [hok, hne, if_false, Parser.optionsOf_init]
    exact Parser.optionsOf_of_accepted readIni hok
  · right
    simp only [hno, if_true]

theorem sound_init (h : s.Sound readIni optionsOf) (hwoken : s.phase = .woken) :
    (s.init readIni).Sound readIni optionsOf := by
  have hreading : (s.service.parser.init readIni (configOnly s.content)).1.optionsOf readIni =
      optionsOf := by
    rw [Parser.optionsOf_init, h.reading]
  obtain ⟨root, options, hframe⟩ := Parser.init_frame readIni (configOnly s.content) s.service.parser
  unfold init
  rcases Parser.init_accepted_or_refused readIni (configOnly s.content) s.service.parser with hok | hno
  · have hne : ¬ (0 : ℤ) = -1 := by decide
    simp only [hok, hne, if_false]
    refine ⟨?_, ?_, ?_, nofun, hreading, fun hnot => absurd rfl hnot⟩
    · simp only [hframe, h.name]
    · simp only [hframe, h.path]
    · simp only [hframe, h.handlerName]
  · simp only [hno, if_true]
    refine ⟨?_, ?_, ?_, ?_, hreading, ?_⟩
    · simp only [hframe, h.name]
    · simp only [hframe, h.path]
    · simp only [hframe, h.handlerName]
    · intro content hcontent
      cases hcontent
      rw [← h.reading]
      exact Parser.optionsOf_of_refused readIni hno
    · intro _
      refine h.resheduled fun hloaded => ?_
      rw [hwoken] at hloaded
      cases hloaded

/-! ### One step -/

theorem sound_step {l : ConfigLabel} (h : s.Sound readIni optionsOf)
    (hstep : (configMachine readIni).step s l = some t) : t.Sound readIni optionsOf := by
  cases l with
  | edit merged content =>
    obtain ⟨unread, -, ht⟩ := Option.bind_eq_some_iff.mp hstep
    cases ht
    exact { h with }
  | touch merged event =>
    obtain ⟨unread, -, ht⟩ := Option.bind_eq_some_iff.mp hstep
    cases ht
    exact { h with }
  | read n =>
    simp only [configMachine] at hstep
    split at hstep
    · next hidle =>
      obtain ⟨⟨handler, works, unread⟩, hread, ht⟩ := Option.bind_eq_some_iff.mp hstep
      obtain ⟨hname, -, -⟩ := FileHandler.handleInput_some hread
      cases ht
      have hresheduled : s.resheduled = true := h.resheduled fun hloaded => by
        rw [hidle] at hloaded
        cases hloaded
      exact { h with
        handlerName := hname.trans h.handlerName
        resheduled := fun _ => hresheduled }
    · cases hstep
  | init =>
    simp only [configMachine] at hstep
    split at hstep
    · next hwoken =>
      cases hstep
      exact sound_init h hwoken
    · cases hstep
  | reshedule =>
    simp only [configMachine] at hstep
    split at hstep
    · cases hstep
      exact { h with resheduled := fun _ => rfl }
    · cases hstep

theorem tracked_edit_iff {merged : Bool} {content : Str} (hsound : s.Sound readIni optionsOf)
    (hstep : s.edit merged content = some t) :
    t.Tracked readIni ↔ s.Attends readIni (.edit merged content) := by
  obtain ⟨unread, hpost, ht⟩ := Option.bind_eq_some_iff.mp hstep
  cases ht
  by_cases hevent : s.concerns s.editEvent
  · refine iff_of_true (fun _ => Inbox.owes_of_post hevent hpost) (.inl ?_)
    exact (concerns_editEvent_iff hsound).mp hevent
  · have hpath : ¬ '/' ∈ cStr s.service.parser.configFilePath := fun hmem =>
      hevent ((concerns_editEvent_iff hsound).mpr hmem)
    have howes : Inbox.Owes s.concerns (¬ Applied readIni { s with content }) unread ↔ _ :=
      Inbox.owes_post_iff hevent hpost
    simp only [Attends, hpath, false_or, ← howes]
    exact Decidable.imp_iff_not_or.trans (or_congr_left Decidable.not_not)

theorem tracked_handleInput_iff {n : ℕ} (h : s.Tracked readIni) (hidle : s.phase = .idle)
    (hstep : s.handleInput n = some t) : t.Tracked readIni ↔ s.Attends readIni (.read n) := by
  obtain ⟨⟨handler, works, unread⟩, hread, ht⟩ := Option.bind_eq_some_iff.mp hstep
  obtain ⟨hname, rfl, hworks⟩ := FileHandler.handleInput_some hread
  cases ht
  have howes : Inbox.Owes s.concerns (¬ s.Applied readIni) s.unread := h (by
    rw [hidle]
    decide)
  cases works with
  | true => exact iff_of_true (fun hphase => absurd rfl hphase) (.inl (hworks.mp rfl))
  | false =>
    have hnot : ¬ s.handler.WorksOn (·.modify) s.unread := fun hw => nomatch hworks.mpr hw
    have hconcerns : ConfigState.concerns { s with
        handler, unread := s.unread.drop n, phase := if false then .woken else .idle } =
        s.concerns := by
      simp only [concerns, hname]
    have hphase : ((if false then ConfigPhase.woken else .idle) ≠ .woken) = True := by simp
    simp only [Tracked, hconcerns, hphase, true_imp_iff, Attends, hnot, false_or]
    exact Inbox.owes_drop_iff howes

theorem tracked_step_iff {l : ConfigLabel} (hsound : s.Sound readIni optionsOf)
    (h : s.Tracked readIni) (hstep : (configMachine readIni).step s l = some t) :
    t.Tracked readIni ↔ s.Attends readIni l := by
  cases l with
  | edit merged content => exact tracked_edit_iff hsound hstep
  | touch merged event =>
    obtain ⟨unread, hpost, ht⟩ := Option.bind_eq_some_iff.mp hstep
    cases ht
    exact iff_of_true (fun hphase => Inbox.owes_post (h hphase) hpost) trivial
  | read n =>
    simp only [configMachine] at hstep
    split at hstep
    · next hidle => exact tracked_handleInput_iff h hidle hstep
    · cases hstep
  | init =>
    simp only [configMachine] at hstep
    split at hstep
    · cases hstep
      exact iff_of_true (fun _ hnot => absurd (applied_init s) hnot) trivial
    · cases hstep
  | reshedule =>
    simp only [configMachine] at hstep
    split at hstep
    · next hloaded =>
      cases hstep
      have howes := h (by
        rw [hloaded]
        decide)
      exact iff_of_true (fun _ => howes) trivial
    · cases hstep

/-! ### The start -/

theorem start_of_accepted {parser accepted : Parser} {content : Str}
    (h : parser.makePaths readIni (configOnly content) = (accepted, 0)) :
    start readIni parser content =
      { service := .run accepted none
        handler := ConfigHandler.make accepted
        content := content
        unread := []
        phase := .idle
        refused := none
        resheduled := true } := by
  have hzero : ¬ (0 : ℤ) = -1 := by decide
  simp only [start, h, hzero, if_false]

theorem sound_start (parser : Parser) (content : Str) :
    (start readIni parser content).Sound readIni
      ((start readIni parser content).service.parser.optionsOf readIni) := by
  obtain ⟨root, options, hframe⟩ := Parser.init_frame readIni (configOnly content) parser.withPaths
  refine ⟨?_, ?_, rfl, ?_, rfl, fun _ => rfl⟩
  · simp only [start, Parser.makePaths, Service.run, hframe]
    rfl
  · simp only [start, Parser.makePaths, Service.run, hframe]
    rfl
  · intro content' hrefused
    simp only [start, Parser.makePaths] at hrefused
    obtain ⟨hno, hsame⟩ := Option.ite_none_right_eq_some.mp hrefused
    cases hsame
    have hnone := Parser.optionsOf_of_refused readIni hno
    simpa only [start, Parser.makePaths, Service.run, Parser.optionsOf_init] using hnone

theorem applied_start (parser : Parser) (content : Str) :
    (start readIni parser content).Applied readIni := by
  rcases Parser.init_accepted_or_refused readIni (configOnly content) parser.withPaths with hok | hno
  · left
    have hsome := Parser.optionsOf_of_accepted readIni hok
    simpa only [start, Parser.makePaths, Service.run, Parser.optionsOf_init] using hsome
  · right
    simp only [start, Parser.makePaths, hno, if_true]

theorem tracked_start (parser : Parser) (content : Str) :
    (start readIni parser content).Tracked readIni := fun _ hnot =>
  absurd (applied_start parser content) hnot

/-! ### Whole runs -/

theorem inForce_of_settled (hsound : s.Sound readIni optionsOf) (h : s.Tracked readIni)
    (hsettled : s.Settled) : s.InForce readIni := by
  obtain ⟨hunread, hidle⟩ := hsettled
  have howes := h (by
    rw [hidle]
    decide)
  rw [hunread, Inbox.owes_nil, not_not] at howes
  have hresheduled : s.resheduled = true := hsound.resheduled (by
    rw [hidle]
    decide)
  rcases howes with hoptions | hrefused
  · exact .inl ⟨hoptions, hresheduled⟩
  · exact .inr hrefused

theorem sound_tracked_of_run {parser : Parser} {content : Str} {labels : List ConfigLabel}
    (halong : (configMachine readIni).Along (Attends readIni) (start readIni parser content) labels)
    (hrun : (configMachine readIni).run (start readIni parser content) labels = some s) :
    s.Sound readIni ((start readIni parser content).service.parser.optionsOf readIni) ∧
      s.Tracked readIni :=
  (configMachine readIni).run_invariant (C := Attends readIni)
    (I := fun s => s.Sound readIni ((start readIni parser content).service.parser.optionsOf readIni) ∧
      s.Tracked readIni)
    (fun _ _ _ h hl hstep => ⟨sound_step h.1 hstep, (tracked_step_iff h.1 h.2 hstep).mpr hl⟩)
    ⟨sound_start parser content, tracked_start parser content⟩ halong hrun

/-- Settled states have the options of their content, whatever the way there. -/
theorem options_of_settled (hsound : s.Sound readIni optionsOf) (h : s.Tracked readIni)
    (hsettled : s.Settled) {options : Options} (hcontent : optionsOf s.content = some options) :
    s.service.parser.options = options := by
  rcases inForce_of_settled hsound h hsettled with ⟨hoptions, -⟩ | hrefused
  · rw [hsound.reading, hcontent] at hoptions
    cases hoptions
    rfl
  · have hnone := hsound.refused _ hrefused
    rw [hcontent] at hnone
    cases hnone

end ConfigState

open ConfigState

/-- A run tracks every edit in each of its states exactly if none of its steps
drops one. Then every settled state has the options of its content in force, with
the tasks rescheduled, or SIGINT was raised for that content; and two such runs
that settle on one accepted content have the same options, however the events
were grouped. -/
theorem edits_applied_iff (readIni : Str → Except Exn PropTree) (parser : Parser) (content : Str)
    (labels : List ConfigLabel) :
    ((configMachine readIni).Always (Tracked readIni) (start readIni parser content) labels ↔
      (configMachine readIni).Along (Attends readIni) (start readIni parser content) labels) ∧
    ((configMachine readIni).Along (Attends readIni) (start readIni parser content) labels →
      ∀ s, (configMachine readIni).run (start readIni parser content) labels = some s → s.Settled →
        s.InForce readIni ∧
        ∀ labels' s',
          (configMachine readIni).Along (Attends readIni) (start readIni parser content) labels' →
          (configMachine readIni).run (start readIni parser content) labels' = some s' →
          s'.Settled → s'.content = s.content →
          (s.service.parser.optionsOf readIni s.content).isSome →
          s'.service.parser.options = s.service.parser.options) := by
  constructor
  · exact (configMachine readIni).always_iff_along (fun _ _ _ h hstep => sound_step h hstep)
      (fun _ _ _ hsound h hstep => tracked_step_iff hsound h hstep) (sound_start parser content)
      (tracked_start parser content)
  · intro halong s hrun hsettled
    obtain ⟨hsound, htracked⟩ := sound_tracked_of_run halong hrun
    refine ⟨inForce_of_settled hsound htracked hsettled, ?_⟩
    intro labels' s' halong' hrun' hsettled' hsame hsome
    obtain ⟨hsound', htracked'⟩ := sound_tracked_of_run halong' hrun'
    obtain ⟨options, hoptions⟩ := Option.isSome_iff_exists.mp hsome
    rw [hsound.reading] at hoptions
    have hs := options_of_settled hsound htracked hsettled hoptions
    have hs' := options_of_settled hsound' htracked' hsettled' (by rw [hsame, hoptions])
    rw [hs, hs']

/-! ### Edits of the shipped configuration -/

def modifyEvent (name : Str) : InotifyEvent where
  len := 16
  name := name
  isDir := false
  modify := true
  opened := false

def shippedParser (openvpn : Str) : Parser :=
  { Parser.started with
    root := shippedTree openvpn
    options := shippedOptions openvpn }

theorem init_shippedParser (old : Str) {openvpn : Str} (hne : openvpn ≠ []) :
    (shippedParser old).init readShipped (configOnly (shippedIni openvpn)) =
      (shippedParser openvpn, 0) := by
  have hfile : configOnly (shippedIni openvpn) (shippedParser old).makeConfigFilePath =
      some (shippedIni openvpn) := rfl
  have hparser : { shippedParser old with
      root := shippedTree openvpn
      options := { shippedOptions openvpn with
        servicePath := (shippedParser old).servicePath
        logFilesPath := (shippedParser old).logFilePath } } = shippedParser openvpn := rfl
  rw [init_shipped hne hfile, hparser]

/-- The service, started on the shipped configuration. -/
def configured (openvpn : Str) : ConfigState where
  service := .run (shippedParser openvpn) none
  handler := ConfigHandler.make (shippedParser openvpn)
  content := shippedIni openvpn
  unread := []
  phase := .idle
  refused := none
  resheduled := true

theorem start_shipped {openvpn : Str} (hne : openvpn ≠ []) :
    start readShipped Parser.started (shippedIni openvpn) = configured openvpn := by
  have hpaths : Parser.started.withPaths = Parser.started := by decide
  have hfile : configOnly (shippedIni openvpn) Parser.started.makeConfigFilePath =
      some (shippedIni openvpn) := rfl
  have hparser : { Parser.started with
      root := shippedTree openvpn
      options := { shippedOptions openvpn with
        servicePath := Parser.started.servicePath
        logFilesPath := Parser.started.logFilePath } } = shippedParser openvpn := rfl
  have hmake : Parser.started.makePaths readShipped (configOnly (shippedIni openvpn)) =
      (shippedParser openvpn, 0) := by
    rw [Parser.makePaths, hpaths, init_shipped hne hfile, hparser]
  exact start_of_accepted hmake

theorem optionsOf_shippedParser (old : Str) {openvpn : Str} (hne : openvpn ≠ []) :
    (shippedParser old).optionsOf readShipped (shippedIni openvpn) = some (shippedOptions openvpn) := by
  have hinit := init_shippedParser old hne
  rw [Parser.optionsOf_of_accepted readShipped (congrArg Prod.snd hinit), hinit]
  rfl

theorem init_of_shippedParser (s : ConfigState) {old openvpn : Str} (hne : openvpn ≠ [])
    (hparser : s.service.parser = shippedParser old) (hcontent : s.content = shippedIni openvpn) :
    s.init readShipped =
      { s with
        service := { s.service with parser := shippedParser openvpn }
        phase := .loaded
        refused := none
        resheduled := false } := by
  have hzero : ¬ (0 : ℤ) = -1 := by decide
  simp only [init, hparser, hcontent, init_shippedParser old hne, hzero, if_false]

/-- An edit, and one pass of the handler over its event. -/
def editAlone (openvpn : Str) : List ConfigLabel :=
  [.edit false (shippedIni openvpn), .read 1] ++ [.init, .reshedule]

theorem along_editAlone : (configMachine readShipped).Along (Attends readShipped)
    (start readShipped Parser.started (shippedIni "/usr/sbin/openvpn".toList))
    (editAlone "/opt/itvpn/openvpn".toList) := by
  rw [start_shipped (by decide)]
  rintro t ht
  cases ht
  refine ⟨.inl (by decide), fun u hu => ⟨.inl ⟨_, _, rfl, by decide, by decide⟩, ?_⟩⟩
  exact fun v _ => ⟨trivial, fun w _ => ⟨trivial, trivial⟩⟩

theorem run_editAlone :
    ∃ s, (configMachine readShipped).run
        (start readShipped Parser.started (shippedIni "/usr/sbin/openvpn".toList))
        (editAlone "/opt/itvpn/openvpn".toList) = some s ∧
      s.Settled ∧ s.service.parser = shippedParser "/opt/itvpn/openvpn".toList := by
  have hnew : "/opt/itvpn/openvpn".toList ≠ [] := by decide
  obtain ⟨s, hread, hphase, hparser, hcontent, hunread⟩ :
      ∃ s, (configMachine readShipped).run
          (start readShipped Parser.started (shippedIni "/usr/sbin/openvpn".toList))
          [.edit false (shippedIni "/opt/itvpn/openvpn".toList), .read 1] = some s ∧
        s.phase = .woken ∧ s.service.parser = shippedParser "/usr/sbin/openvpn".toList ∧
        s.content = shippedIni "/opt/itvpn/openvpn".toList ∧ s.unread = [] := by
    rw [start_shipped (by decide)]
    exact ⟨_, rfl, rfl, rfl, rfl, rfl⟩
  have hstep : (configMachine readShipped).step s .init = some (s.init readShipped) := if_pos hphase
  have hinit := init_of_shippedParser s hnew hparser hcontent
  refine ⟨(s.init readShipped).reshedule, ?_, ⟨?_, rfl⟩, ?_⟩
  · rw [editAlone, Machine.run_append, hread, Option.bind_some, Machine.run_cons _ hstep, hinit]
    rfl
  · rw [hinit]
    exact hunread
  · rw [hinit]
    rfl

/-- An edit alone is applied. -/
theorem edits_applied_iff_alone :
    ∃ s, (configMachine readShipped).run
        (start readShipped Parser.started (shippedIni "/usr/sbin/openvpn".toList))
        (editAlone "/opt/itvpn/openvpn".toList) = some s ∧
      s.InForce readShipped ∧
      s.service.parser.options = shippedOptions "/opt/itvpn/openvpn".toList := by
  obtain ⟨s, hrun, hsettled, hparser⟩ := run_editAlone
  have happlied := (edits_applied_iff _ _ _ _).2 along_editAlone s hrun hsettled
  exact ⟨s, hrun, happlied.1, congrArg Parser.options hparser⟩

/-- An edit read in one batch behind the event of another file: the handler looks
at that one only. -/
theorem edit_behind_other_file :
    ∃ s, (configMachine readShipped).run
        (start readShipped Parser.started (shippedIni "/usr/sbin/openvpn".toList))
        [.touch false (modifyEvent "service.log".toList),
          .edit false (shippedIni "/opt/itvpn/openvpn".toList), .read 2] = some s ∧
      s.Settled ∧ s.content = shippedIni "/opt/itvpn/openvpn".toList ∧ ¬ s.InForce readShipped := by
  have hold : "/usr/sbin/openvpn".toList ≠ [] := by decide
  have hnew : "/opt/itvpn/openvpn".toList ≠ [] := by decide
  rw [start_shipped hold]
  refine ⟨_, rfl, ⟨rfl, rfl⟩, rfl, ?_⟩
  rintro (⟨hoptions, -⟩ | hrefused)
  · have hnewOptions := optionsOf_shippedParser "/usr/sbin/openvpn".toList hnew
    have hsame : shippedOptions "/opt/itvpn/openvpn".toList =
        shippedOptions "/usr/sbin/openvpn".toList :=
      Option.some.inj (hnewOptions.symm.trans hoptions)
    have hpath := congrArg Options.openvpnFilePath hsame
    exact absurd hpath (by decide)
  · cases hrefused

end ItvpnAgent
