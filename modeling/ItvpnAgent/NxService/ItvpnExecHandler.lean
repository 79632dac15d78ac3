import ItvpnAgent.Kit.Inbox
import ItvpnAgent.NxService.Service
import ItvpnAgent.Tasks.EventSinkTask

/-! `Itvpn_Exec_Handler`, the kernel's events and the runs of `EventSink_Task`, in
any interleaving. A launch of the VPN is checked by a run that starts after it.
The state counts the launches since the last start of a run; as long as there
are any, an event of one of them must be unread or the handler about to start a
run. A step keeps that exactly if it drops no such event for good. -/

namespace ItvpnAgent

open Kit

/-- `opening`: `handle_input` has let an event pass and is about to call `open`.
`waiting`: opens of the executable since the last start of `svc`. -/
structure LaunchState where
  handler : FileHandler
  unread : List InotifyEvent
  opening : Bool
  running : Bool
  ended : Bool
  sink : Ctx Unit
  waiting : ℕ

/-- A file of the directory is opened; `handle_input` reads `n` events; it calls
`open` of the task, and a thread can be spawned or not; `svc` ends. -/
inductive LaunchLabel where
  | openFile (merged : Bool) (event : InotifyEvent)
  | read (n : ℕ)
  | activate (spawns : Bool)
  | finish (env : Env)

namespace LaunchState

def concerns (s : LaunchState) : InotifyEvent → Prop :=
  FileHandler.Concerns (·.opened) s.handler.fileName

instance (s : LaunchState) (event : InotifyEvent) : Decidable (s.concerns event) :=
  inferInstanceAs (Decidable (FileHandler.Concerns _ _ _))

def openFile (s : LaunchState) (merged : Bool) (event : InotifyEvent) : Option LaunchState := do
  let unread ← Inbox.post merged event s.unread
  return { s with unread, waiting := if s.concerns event then s.waiting + 1 else s.waiting }

/-- `Itvpn_Exec_Handler::handle_input` up to the call of `open`. -/
def handleInput (s : LaunchState) (n : ℕ) : Option LaunchState := do
  let (handler, works, unread) ← s.handler.handleInput (·.opened) n s.unread
  return { s with handler, opening := works, unread }

/-- `EventSink_Task::open`; nobody looks at its result. -/
def openTask (s : LaunchState) (spawns : Bool) : LaunchState :=
  if activate s.running spawns = 0 then { s with opening := false, running := true, waiting := 0 }
  else { s with opening := false }

def finish (s : LaunchState) (env : Env) : Option LaunchState :=
  match EventSinkTask.svc env s.sink with
  | (.ok (), sink) => some { s with sink, running := false }
  | (.throw _, sink) | (.undefined, sink) => some { s with sink, running := false, ended := true }
  | (.stuck, _) => none

theorem finish_sink {s t : LaunchState} {env : Env} (h : s.finish env = some t) :
    t.sink = (EventSinkTask.svc env s.sink).2 := by
  unfold finish at h
  split at h
  · next hrun =>
    cases h
    rw [hrun]
  · next hrun =>
    cases h
    rw [hrun]
  · next hrun =>
    cases h
    rw [hrun]
  · cases h

/-- The service after its start on these options. -/
def start (options : Options) : LaunchState where
  handler := ItvpnExecHandler.make options
  unread := []
  opening := false
  running := false
  ended := false
  sink := { task := (), outside := { log := [], licFile := none } }
  waiting := 0

end LaunchState

def launchMachine : Machine LaunchState LaunchLabel where
  step s
    | .openFile merged event => if s.ended then none else s.openFile merged event
    | .read n => if s.ended || s.opening then none else s.handleInput n
    | .activate spawns => if !s.ended && s.opening then some (s.openTask spawns) else none
    | .finish env => if !s.ended && s.running then s.finish env else none

namespace LaunchState

/-- A launch that waits for its check is on its way to one. -/
def Tracked (s : LaunchState) : Prop :=
  s.opening = false → Inbox.Owes s.concerns (0 < s.waiting) s.unread

/-- The step drops no launch. -/
def Attends (s : LaunchState) : LaunchLabel → Prop
  | .read n => s.handler.WorksOn (·.opened) s.unread ∨
      Inbox.Spares s.concerns (0 < s.waiting) n s.unread
  | .activate spawns => (s.running = false ∧ spawns = true) ∨
      Inbox.Owes s.concerns (0 < s.waiting) s.unread
  | _ => True

theorem tracked_openFile {s t : LaunchState} {merged : Bool} {event : InotifyEvent} (h : s.Tracked)
    (hstep : s.openFile merged event = some t) : t.Tracked := by
  obtain ⟨unread, hpost, ht⟩ := Option.bind_eq_some_iff.mp hstep
  cases ht
  intro hopening
  by_cases hevent : s.concerns event
  · exact Inbox.owes_of_post hevent hpost
  · simp only [hevent, if_false]
    exact Inbox.owes_post (h hopening) hpost

theorem tracked_handleInput_iff {s t : LaunchState} {n : ℕ} (h : s.Tracked) (hidle : s.opening = false)
    (hstep : s.handleInput n = some t) : t.Tracked ↔ s.Attends (.read n) := by
  obtain ⟨⟨handler, works, unread⟩, hread, ht⟩ := Option.bind_eq_some_iff.mp hstep
  obtain ⟨hname, rfl, hworks⟩ := FileHandler.handleInput_some hread
  cases ht
  have hconcerns : LaunchState.concerns { s with handler, opening := works, unread := s.unread.drop n } =
      s.concerns := by
    simp only [concerns, hname]
  cases works with
  | true => exact iff_of_true nofun (.inl (hworks.mp rfl))
  | false =>
    have hnot : ¬ s.handler.WorksOn (·.opened) s.unread := fun hw => nomatch hworks.mpr hw
    simp only [Tracked, hconcerns, Attends, hnot, false_or, true_imp_iff]
    exact Inbox.owes_drop_iff (h hidle)

theorem tracked_openTask_iff {s : LaunchState} {spawns : Bool} :
    (s.openTask spawns).Tracked ↔ s.Attends (.activate spawns) := by
  cases hrun : s.running with
  | true => simp [openTask, activate, hrun, Tracked, Attends, concerns]
  | false =>
    cases spawns with
    | true => simp [openTask, activate, hrun, Tracked, Attends, Inbox.Owes]
    | false => simp [openTask, activate, hrun, Tracked, Attends, concerns]

theorem tracked_finish {s t : LaunchState} {env : Env} (h : s.Tracked) (hstep : s.finish env = some t) :
    t.Tracked := by
  unfold finish at hstep
  split at hstep <;> cases hstep <;> exact h

theorem tracked_step_iff {s t : LaunchState} {l : LaunchLabel} (h : s.Tracked)
    (hstep : launchMachine.step s l = some t) : t.Tracked ↔ s.Attends l := by
  cases l with
  | openFile merged event =>
    simp only [launchMachine] at hstep
    split at hstep
    · cases hstep
    · exact iff_of_true (tracked_openFile h hstep) trivial
  | read n =>
    simp only [launchMachine] at hstep
    split at hstep
    · cases hstep
    · next hguard =>
      simp only [Bool.or_eq_true, not_or, Bool.not_eq_true] at hguard
      exact tracked_handleInput_iff h hguard.2 hstep
  | activate spawns =>
    simp only [launchMachine] at hstep
    split at hstep
    · cases hstep
      exact tracked_openTask_iff
    · cases hstep
  | finish env =>
    simp only [launchMachine] at hstep
    split at hstep
    · exact iff_of_true (tracked_finish h hstep) trivial
    · cases hstep

theorem tracked_start (options : Options) : (start options).Tracked := fun _ hwaiting => nomatch hwaiting

end LaunchState

open LaunchState

/-- A run tracks every launch in each of its states exactly if none of its steps
drops one; and then, whenever no event is unread and the handler is idle, every
launch has been followed by the start of a run of `svc`. -/
theorem launches_checked_iff (options : Options) (labels : List LaunchLabel) :
    (launchMachine.Always Tracked (start options) labels ↔
      launchMachine.Along Attends (start options) labels) ∧
    (launchMachine.Along Attends (start options) labels →
      ∀ s, launchMachine.run (start options) labels = some s →
        s.unread = [] → s.opening = false → s.waiting = 0) := by
  constructor
  · exact launchMachine.always_iff_along (J := fun _ => True) (fun _ _ _ _ _ => trivial)
      (fun _ _ _ _ h hstep => tracked_step_iff h hstep) trivial (tracked_start options)
  · intro halong s hrun hunread hopening
    have htracked : s.Tracked :=
      launchMachine.run_invariant (fun _ _ _ h hl hstep => (tracked_step_iff h hstep).mpr hl)
        (tracked_start options) halong hrun
    have howes := htracked hopening
    rw [hunread, Inbox.owes_nil] at howes
    omega

def openEvent (name : Str) : InotifyEvent where
  len := 16
  name := name
  isDir := false
  modify := false
  opened := true

def watching : LaunchState := start (shippedOptions "/usr/sbin/openvpn".toList)

theorem along_single_launch : launchMachine.Along Attends watching
    [.openFile false (openEvent "openvpn".toList), .read 1, .activate true] := by
  rintro t ht
  cases ht
  refine ⟨trivial, fun u hu => ⟨.inl ⟨_, _, rfl, by decide, by decide⟩, ?_⟩⟩
  cases hu
  exact fun v _ => ⟨.inl ⟨rfl, rfl⟩, trivial⟩

/-- A launch alone is checked. -/
theorem launches_checked_iff_single :
    ∃ s, launchMachine.run watching
        [.openFile false (openEvent "openvpn".toList), .read 1, .activate true] = some s ∧
      s.running = true ∧ s.waiting = 0 :=
  ⟨_, rfl, rfl, (launches_checked_iff _ _).2 along_single_launch _ rfl rfl rfl⟩

/-- A launch read in one batch behind the opening of another file: the handler
looks at that one only. -/
theorem launch_behind_other_file :
    ∃ s, launchMachine.run watching
        [.openFile false (openEvent "openssl".toList), .openFile false (openEvent "openvpn".toList),
          .read 2] = some s ∧
      s.unread = [] ∧ s.opening = false ∧ s.running = false ∧ s.waiting = 1 :=
  ⟨_, rfl, rfl, rfl, rfl, rfl⟩

end ItvpnAgent
