import ItvpnAgent.NtService.ConfigChange
import ItvpnAgent.NxService.ConfigHandler

/-! `Config_Handler` of the Windows service as a whole: the thread that waits for
changes of the directory, the handler that reloads the configuration, and the edits,
in any interleaving. What `init` makes of a content is the parameter `optionsOf`.
Each round of the thread opens the directory anew and the system records changes
only for a read that has started, so an edit is noticed while the thread waits. -/

namespace ItvpnAgent.NtService

open Kit

/-! ### Batches -/

/-- The handler as `svc` calls `processing`. -/
def Watch.fresh : Watch where
  signals := 0
  bStop := false
  handleOpen := true

section Batches

variable {b : NotifyBuffer} {fileName : WStr} {passes passes' seek : ℕ} {w : Watch}

/-- More passes than the loop makes change nothing. -/
theorem processing_mono (h : (processing b fileName passes seek w).1 ≠ .stuck) (hle : passes ≤ passes') :
    processing b fileName passes' seek w = processing b fileName passes seek w := by
  induction passes generalizing passes' seek with
  | zero => exact absurd rfl h
  | succ passes ih =>
    cases passes' with
    | zero => omega
    | succ passes' =>
      rw [processing] at h ⊢
      rw [processing]
      split
      · next hseek =>
        rw [if_pos hseek] at h
        cases hpass : pass b fileName seek with
        | none => rfl
        | some p =>
          rw [hpass] at h
          cases p with
          | leave | found => rfl
          | onward t => exact ih h (Nat.le_of_succ_le_succ hle)
      · rfl

/-- The loop ends in one way only. -/
theorem processing_unique (h : (processing b fileName passes seek w).1 ≠ .stuck)
    (h' : (processing b fileName passes' seek w).1 ≠ .stuck) :
    processing b fileName passes' seek w = processing b fileName passes seek w := by
  rcases Nat.le_total passes passes' with hle | hle
  · exact processing_mono h hle
  · exact (processing_mono h' hle).symm

/-- What the loop does to the handler: nothing, or it reports the file. -/
theorem processing_watch (b : NotifyBuffer) (fileName : WStr) (w : Watch) (passes seek : ℕ) :
    (processing b fileName passes seek w).2 = w ∨ processing b fileName passes seek w = (.ok (), w.notify) := by
  induction passes generalizing seek with
  | zero => exact .inl rfl
  | succ passes ih =>
    rw [processing]
    split
    · cases pass b fileName seek with
      | none => exact .inl rfl
      | some p =>
        cases p with
        | leave => exact .inl rfl
        | found => exact .inr rfl
        | onward t => exact ih t
    · exact .inl rfl

end Batches

/-- `processing` returns from the batch. -/
def Returns (configFileName : WStr) (b : NotifyBuffer) : Prop :=
  ∃ passes, (processing b (getFileName configFileName) passes 0 .fresh).1 = .ok ()

/-- `processing` finds the configuration file in the batch. -/
def Reports (configFileName : WStr) (b : NotifyBuffer) : Prop :=
  ∃ passes, processing b (getFileName configFileName) passes 0 .fresh = (.ok (), Watch.fresh.notify)

/-- The system has put the records into the batch as it documents. -/
def Delivers (b : NotifyBuffer) (recorded : List Record) : Prop :=
  Holds b 0 recorded ∧ ∀ r ∈ recorded, r.WellFormed

theorem Reports.returns {configFileName : WStr} {b : NotifyBuffer} (h : Reports configFileName b) :
    Returns configFileName b := by
  obtain ⟨passes, h⟩ := h
  exact ⟨passes, congrArg Prod.fst h⟩

/-- A batch that was delivered is reported exactly if it has the name of the file. -/
theorem Delivers.reports_iff {configFileName : WStr} {b : NotifyBuffer} {recorded : List Record}
    (h : Delivers b recorded) :
    Reports configFileName b ↔ ∃ r ∈ recorded, r.name = getFileName configFileName := by
  have hwalk : processing b (getFileName configFileName) recorded.length 0 .fresh = _ :=
    processing_of_holds h.1 h.2 .fresh
  by_cases hname : ∃ r ∈ recorded, r.name = getFileName configFileName
  · rw [if_pos hname] at hwalk
    exact iff_of_true ⟨_, hwalk⟩ hname
  · rw [if_neg hname] at hwalk
    refine iff_of_false ?_ hname
    rintro ⟨passes, hreport⟩
    have hsame := processing_unique (by rw [hwalk]; exact fun h => by cases h)
      (by rw [hreport]; exact fun h => by cases h)
    rw [hreport, hwalk] at hsame
    cases hsame

/-- The buffer of `svc` with one record, for a file whose name is one character. -/
def oneRecord (c : UInt8) : NotifyBuffer where
  bytes := [0, 0, 0, 0, 3, 0, 0, 0, 2, 0, 0, 0, c, 0] ++ List.replicate 61426 0
  isDword := by
    simp only [List.length_append, List.length_replicate, List.length_cons, List.length_nil]
    decide

theorem length_oneRecord (c : UInt8) : (oneRecord c).nBufferLength = 60 * 1024 := by
  simp only [NotifyBuffer.nBufferLength, oneRecord, List.length_append, List.length_replicate, List.length_cons,
    List.length_nil]

theorem delivers_oneRecord {c : UInt8} (hc : c.toNat ≠ 0) : Delivers (oneRecord c) [⟨3, [c.toNat]⟩] := by
  have hrecord : RecordAt (oneRecord c) 0 ⟨3, [c.toNat]⟩ 0 := by
    refine ⟨?_, rfl, rfl, rfl, fun i hi => ?_⟩
    · simp [length_oneRecord]
    · obtain rfl : i = 0 := Nat.lt_one_iff.mp hi
      rfl
  refine ⟨.last hrecord, fun r hr => ?_⟩
  obtain rfl := List.mem_singleton.mp hr
  exact ⟨by simp, by simp [maxPath], fun hmem => hc (List.mem_singleton.mp hmem).symm⟩

/-! ### The handler and its environment -/

/-- Where `svc` stands: before `create_file`; before the read; in the wait; in a wait
that nothing can end, as the read has failed; behind the wait, with the bytes of the
buffer; out of range; or not running. -/
inductive SvcPhase where
  | opening
  | opened
  | waiting
  | deaf
  | woken (b : NotifyBuffer)
  | astray
  | gone

/-- `recorded`: what the system has recorded for the read. `handles`: the handles of
the directory that are open. `registered`: the reactor still calls `handle_signal`.
`refused`: the content for which `init` returned -1 and SIGINT was raised. -/
structure WatchState where
  content : Str
  options : Options
  resheduled : Bool
  refused : Option Str
  svc : SvcPhase
  recorded : List Record
  handles : ℕ
  event : Bool
  activeHandler : Bool
  registered : Bool
  phase : ConfigPhase

/-- The configuration file gets a new content, or something else in the directory
changes; the steps of `svc`, with what the system answers; the steps of
`handle_signal`. -/
inductive WatchLabel where
  | edit (content : Str)
  | touch (r : Record)
  | createFile (opens : Bool)
  | readChanges (starts : Bool)
  | complete (b : NotifyBuffer)
  | waitFails
  | process (passes : ℕ)
  | wait
  | init
  | reshedule (spawns : Bool)

namespace WatchState

/-- What the system records for an edit of the file: `FILE_ACTION_MODIFIED`. -/
def editRecord (configFileName : WStr) : Record where
  action := 3
  name := getFileName configFileName

def record (s : WatchState) (r : Record) : WatchState :=
  match s.svc with
  | .waiting => { s with recorded := s.recorded ++ [r] }
  | _ => s

def createFile (s : WatchState) (opens : Bool) : WatchState :=
  if opens then { s with svc := .opened, handles := s.handles + 1 }
  else { s with svc := .gone, activeHandler := true }

/-- `ReadDirectoryChangesW`, whose result nobody looks at. -/
def readChanges (s : WatchState) (starts : Bool) : WatchState :=
  if starts then { s with svc := .waiting, recorded := [] }
  else { s with svc := .deaf }

/-- `processing`, and the end of `svc` where it says so. -/
def process (configFileName : WStr) (s : WatchState) (b : NotifyBuffer) (passes : ℕ) : Option WatchState :=
  match processing b (getFileName configFileName) passes 0 .fresh with
  | (.ok (), w) => some
    { s with
      svc := if w.bStop then .gone else .opening
      handles := if w.handleOpen then s.handles else s.handles - 1
      event := s.event || decide (0 < w.signals)
      activeHandler := s.activeHandler || w.bStop }
  | (.undefined, _) => some { s with svc := .astray }
  | _ => none

/-- The call of `init`; where it returns -1 the reactor removes the handler. -/
def init (optionsOf : Str → Option Options) (s : WatchState) : WatchState :=
  match optionsOf s.content with
  | none => { s with phase := .idle, refused := some s.content, registered := false }
  | some options => { s with phase := .loaded, options, refused := none, resheduled := false }

/-- `reshedule_tasks`, and `activate`. -/
def reshedule (s : WatchState) (spawns : Bool) : WatchState :=
  { s with
    phase := .idle
    resheduled := true
    svc := if spawns then .opening else .gone }

/-- The handler behind `open`, if the service gets there: for a content that is
refused, `Service::svc` has raised SIGINT. -/
def start (optionsOf : Str → Option Options) (content : Str) (spawns : Bool) : Option WatchState := do
  let options ← optionsOf content
  return {
    content, options
    resheduled := true
    refused := none
    svc := if spawns then .opening else .gone
    recorded := []
    handles := 0
    event := false
    activeHandler := false
    registered := true
    phase := .idle }

end WatchState

/-- `handle_signal` waits for the event and then for the end of `svc`, in one step. -/
def watchMachine (optionsOf : Str → Option Options) (configFileName : WStr) : Machine WatchState WatchLabel where
  step s
    | .edit content => some ({ s with content }.record (WatchState.editRecord configFileName))
    | .touch r => some (s.record r)
    | .createFile opens =>
      match s.svc with
      | .opening => some (s.createFile opens)
      | _ => none
    | .readChanges starts =>
      match s.svc with
      | .opened => some (s.readChanges starts)
      | _ => none
    | .complete b =>
      match s.svc with
      | .waiting => if b.nBufferLength = 60 * 1024 then some { s with svc := .woken b } else none
      | _ => none
    | .waitFails =>
      match s.svc with
      | .waiting => some { s with svc := .gone, activeHandler := true }
      | _ => none
    | .process passes =>
      match s.svc with
      | .woken b => s.process configFileName b passes
      | _ => none
    | .wait =>
      if s.event ∧ s.registered ∧ s.activeHandler ∧ s.phase = .idle then
        some { s with event := false, activeHandler := false, phase := .woken }
      else none
    | .init => if s.phase = .woken then some (s.init optionsOf) else none
    | .reshedule spawns => if s.phase = .loaded then some (s.reshedule spawns) else none

namespace WatchState

variable {optionsOf : Str → Option Options} {configFileName : WStr} {s t : WatchState}

/-! ### What each step does -/

theorem step_createFile {opens : Bool}
    (h : (watchMachine optionsOf configFileName).step s (.createFile opens) = some t) :
    s.svc = .opening ∧ t = s.createFile opens := by
  simp only [watchMachine] at h
  split at h
  · next hsvc =>
    cases h
    exact ⟨hsvc, rfl⟩
  · cases h

theorem step_readChanges {starts : Bool}
    (h : (watchMachine optionsOf configFileName).step s (.readChanges starts) = some t) :
    s.svc = .opened ∧ t = s.readChanges starts := by
  simp only [watchMachine] at h
  split at h
  · next hsvc =>
    cases h
    exact ⟨hsvc, rfl⟩
  · cases h

theorem step_complete {b : NotifyBuffer}
    (h : (watchMachine optionsOf configFileName).step s (.complete b) = some t) :
    s.svc = .waiting ∧ b.nBufferLength = 60 * 1024 ∧ t = { s with svc := .woken b } := by
  simp only [watchMachine] at h
  split at h
  · next hsvc =>
    split at h
    · next hlength =>
      cases h
      exact ⟨hsvc, hlength, rfl⟩
    · cases h
  · cases h

theorem step_waitFails (h : (watchMachine optionsOf configFileName).step s .waitFails = some t) :
    s.svc = .waiting ∧ t = { s with svc := .gone, activeHandler := true } := by
  simp only [watchMachine] at h
  split at h
  · next hsvc =>
    cases h
    exact ⟨hsvc, rfl⟩
  · cases h

/-- How a batch is dealt with: it is reported and `svc` ends; it is not and the
directory is opened anew; or the loop goes out of range. -/
inductive Processed (configFileName : WStr) (s : WatchState) (b : NotifyBuffer) (t : WatchState) : Prop where
  | reported (h : Reports configFileName b)
    (ht : t = { s with svc := .gone, handles := s.handles - 1, event := true, activeHandler := true })
  | passedOver (hno : ¬ Reports configFileName b) (hreturns : Returns configFileName b)
    (ht : t = { s with svc := .opening })
  | astray (hno : ¬ Returns configFileName b) (ht : t = { s with svc := .astray })

theorem step_process {passes : ℕ}
    (h : (watchMachine optionsOf configFileName).step s (.process passes) = some t) :
    ∃ b, s.svc = .woken b ∧ Processed configFileName s b t := by
  simp only [watchMachine] at h
  split at h
  · next b hsvc =>
    refine ⟨b, hsvc, ?_⟩
    unfold process at h
    split at h
    · next w hwalk =>
      cases h
      have hwatch := processing_watch b (getFileName configFileName) .fresh passes 0
      rw [hwalk] at hwatch
      rcases hwatch with hw | hreport
      · have hw : w = .fresh := hw
        subst hw
        refine .passedOver ?_ ⟨passes, congrArg Prod.fst hwalk⟩ (by simp [Watch.fresh])
        rintro ⟨passes', hreport⟩
        have hsame := processing_unique (by rw [hwalk]; exact fun h => by cases h)
          (by rw [hreport]; exact fun h => by cases h)
        rw [hreport, hwalk] at hsame
        cases hsame
      · cases hreport
        exact .reported ⟨passes, hwalk⟩ (by simp [Watch.fresh, Watch.notify])
    · next w hwalk =>
      cases h
      refine .astray ?_ rfl
      rintro ⟨passes', hreturn⟩
      have hsame := processing_unique (by rw [hwalk]; exact fun h => by cases h)
        (by rw [hreturn]; exact fun h => by cases h)
      rw [hsame, hwalk] at hreturn
      cases hreturn
    · cases h
  · cases h

theorem step_process_content {passes : ℕ}
    (h : (watchMachine optionsOf configFileName).step s (.process passes) = some t) :
    t.content = s.content := by
  obtain ⟨b, -, hprocessed⟩ := step_process h
  cases hprocessed with
  | reported _ ht | passedOver _ _ ht | astray _ ht => rw [ht]

theorem step_wait (h : (watchMachine optionsOf configFileName).step s .wait = some t) :
    s.event = true ∧ t = { s with event := false, activeHandler := false, phase := .woken } := by
  simp only [watchMachine] at h
  split at h
  · next hready =>
    cases h
    exact ⟨hready.1, rfl⟩
  · cases h

theorem step_init (h : (watchMachine optionsOf configFileName).step s .init = some t) :
    s.phase = .woken ∧ t = s.init optionsOf := by
  simp only [watchMachine] at h
  split at h
  · next hwoken =>
    cases h
    exact ⟨hwoken, rfl⟩
  · cases h

theorem step_reshedule {spawns : Bool}
    (h : (watchMachine optionsOf configFileName).step s (.reshedule spawns) = some t) :
    s.phase = .loaded ∧ t = s.reshedule spawns := by
  simp only [watchMachine] at h
  split at h
  · next hloaded =>
    cases h
    exact ⟨hloaded, rfl⟩
  · cases h

/-- A change that is recorded changes nothing else. -/
theorem record_eq (s : WatchState) (r : Record) : ∃ recorded, s.record r = { s with recorded } ∧
    (s.recorded <+: recorded) ∧ (s.svc = .waiting → r ∈ recorded) := by
  unfold record
  split
  · exact ⟨s.recorded ++ [r], rfl, List.prefix_append _ _, fun _ => List.mem_concat_self⟩
  · next hnot => exact ⟨s.recorded, rfl, List.prefix_rfl, fun hsvc => absurd hsvc hnot⟩

/-! ### What every step keeps -/

/-- An event is signalled, or the handler at work, only while `svc` is not running; and
the truth of the flags. -/
structure Sound (optionsOf : Str → Option Options) (s : WatchState) : Prop where
  event : s.event = true → s.svc = .gone ∧ s.activeHandler = true ∧ s.phase = .idle ∧ s.registered = true
  working : s.phase ≠ .idle → s.svc = .gone ∧ s.registered = true
  registered : s.svc ≠ .gone → s.registered = true
  resheduled : s.phase ≠ .loaded → s.resheduled = true
  refused : ∀ content, s.refused = some content → optionsOf content = none

theorem Sound.quiet (h : s.Sound optionsOf) (hsvc : s.svc ≠ .gone) : s.event = false ∧ s.phase = .idle := by
  constructor
  · by_contra hevent
    exact hsvc (h.event (Bool.eq_true_of_not_eq_false hevent)).1
  · by_contra hphase
    exact hsvc (h.working hphase).1

theorem Sound.atWork (h : s.Sound optionsOf) (hbusy : s.phase ≠ .idle) :
    s.svc = .gone ∧ s.registered = true ∧ s.event ≠ true :=
  ⟨(h.working hbusy).1, (h.working hbusy).2, fun hevent => hbusy (h.event hevent).2.2.1⟩

theorem Sound.process {b : NotifyBuffer} (h : s.Sound optionsOf) (hsvc : s.svc = .woken b)
    (hstep : Processed configFileName s b t) : t.Sound optionsOf := by
  have hrunning : s.svc ≠ .gone := fun hgone => by rw [hsvc] at hgone; cases hgone
  obtain ⟨hevent, hidle⟩ := h.quiet hrunning
  have hregistered := h.registered hrunning
  cases hstep with
  | reported _ ht =>
    subst ht
    exact ⟨fun _ => ⟨rfl, rfl, hidle, hregistered⟩, fun hbusy => absurd hidle hbusy, fun _ => hregistered,
      h.resheduled, h.refused⟩
  | passedOver _ _ ht | astray _ ht =>
    subst ht
    exact ⟨fun hsignalled => absurd (hevent.symm.trans hsignalled) Bool.false_ne_true,
      fun hbusy => absurd hidle hbusy, fun _ => hregistered, h.resheduled, h.refused⟩

/-- A step of `svc` that is neither in a batch nor behind one. -/
theorem Sound.svcStep (h : s.Sound optionsOf) (hsvc : s.svc ≠ .gone) (svc : SvcPhase) (recorded : List Record)
    (handles : ℕ) (activeHandler : Bool) :
    Sound optionsOf { s with svc, recorded, handles, activeHandler } := by
  obtain ⟨hevent, hidle⟩ := h.quiet hsvc
  exact ⟨fun hsignalled => absurd (hevent.symm.trans hsignalled) Bool.false_ne_true,
    fun hbusy => absurd hidle hbusy, fun _ => h.registered hsvc, h.resheduled, h.refused⟩

theorem sound_step {l : WatchLabel} (h : s.Sound optionsOf)
    (hstep : (watchMachine optionsOf configFileName).step s l = some t) : t.Sound optionsOf := by
  cases l with
  | edit content =>
    cases hstep
    obtain ⟨recorded, heq, -, -⟩ := record_eq { s with content } (editRecord configFileName)
    rw [heq]
    exact { h with }
  | touch r =>
    cases hstep
    obtain ⟨recorded, heq, -, -⟩ := record_eq s r
    rw [heq]
    exact { h with }
  | createFile opens =>
    obtain ⟨hsvc, rfl⟩ := step_createFile hstep
    have hrunning : s.svc ≠ .gone := fun hgone => by rw [hsvc] at hgone; cases hgone
    cases opens with
    | true => exact h.svcStep hrunning .opened _ _ _
    | false => exact h.svcStep hrunning .gone _ _ _
  | readChanges starts =>
    obtain ⟨hsvc, rfl⟩ := step_readChanges hstep
    have hrunning : s.svc ≠ .gone := fun hgone => by rw [hsvc] at hgone; cases hgone
    cases starts with
    | true => exact h.svcStep hrunning .waiting _ _ _
    | false => exact h.svcStep hrunning .deaf _ _ _
  | complete b =>
    obtain ⟨hsvc, -, rfl⟩ := step_complete hstep
    exact h.svcStep (fun hgone => by rw [hsvc] at hgone; cases hgone) (.woken b) _ _ _
  | waitFails =>
    obtain ⟨hsvc, rfl⟩ := step_waitFails hstep
    exact h.svcStep (fun hgone => by rw [hsvc] at hgone; cases hgone) .gone _ _ _
  | process passes =>
    obtain ⟨b, hsvc, hprocessed⟩ := step_process hstep
    exact h.process hsvc hprocessed
  | wait =>
    obtain ⟨hevent, rfl⟩ := step_wait hstep
    obtain ⟨hgone, -, hidle, hregistered⟩ := h.event hevent
    refine ⟨fun h => (by cases h), fun _ => ⟨hgone, hregistered⟩, fun hsvc => absurd hgone hsvc, fun _ => ?_,
      h.refused⟩
    exact h.resheduled fun hloaded => by rw [hidle] at hloaded; cases hloaded
  | init =>
    obtain ⟨hwoken, rfl⟩ := step_init hstep
    obtain ⟨hgone, hregistered, hquiet⟩ := h.atWork fun hidle => by rw [hwoken] at hidle; cases hidle
    unfold WatchState.init
    split
    · next hnone =>
      refine ⟨fun hevent => absurd hevent hquiet, fun hphase => absurd rfl hphase,
        fun hsvc => absurd hgone hsvc, fun _ => ?_, fun content hcontent => ?_⟩
      · exact h.resheduled fun hloaded => by rw [hwoken] at hloaded; cases hloaded
      · cases hcontent
        exact hnone
    · exact ⟨fun hevent => absurd hevent hquiet, fun _ => ⟨hgone, hregistered⟩,
        fun hsvc => absurd hgone hsvc, fun hphase => absurd rfl hphase, fun _ h => by cases h⟩
  | reshedule spawns =>
    obtain ⟨hloaded, rfl⟩ := step_reshedule hstep
    obtain ⟨-, hregistered, hquiet⟩ := h.atWork fun hidle => by rw [hloaded] at hidle; cases hidle
    exact ⟨fun hevent => absurd hevent hquiet, fun hphase => absurd rfl hphase, fun _ => hregistered,
      fun _ => rfl, h.refused⟩

theorem sound_start {content : Str} {spawns : Bool} (h : start optionsOf content spawns = some s) :
    s.Sound optionsOf := by
  obtain ⟨options, -, hs⟩ := Option.bind_eq_some_iff.mp h
  cases hs
  exact ⟨fun h => (by cases h), fun h => absurd rfl h, fun _ => rfl, fun _ => rfl, fun _ h => by cases h⟩

/-! ### Edits -/

/-- The options in force are those of the file, or SIGINT was raised for it. -/
def Applied (optionsOf : Str → Option Options) (s : WatchState) : Prop :=
  optionsOf s.content = some s.options ∨ s.refused = some s.content

/-- `init` is going to be called. -/
def Pending (s : WatchState) : Prop := s.event = true ∨ s.phase = .woken

/-- The record of an edit is on its way to `processing`. -/
def Noticed (configFileName : WStr) (s : WatchState) : Prop :=
  match s.svc with
  | .waiting => ∃ r ∈ s.recorded, r.name = getFileName configFileName
  | .woken b => Reports configFileName b
  | _ => False

/-- An edit that is not applied is on its way to `init`. -/
def Tracked (optionsOf : Str → Option Options) (configFileName : WStr) (s : WatchState) : Prop :=
  s.Applied optionsOf ∨ s.Pending ∨ s.Noticed configFileName

/-- The step loses no edit. -/
def Attends (optionsOf : Str → Option Options) (configFileName : WStr) (s : WatchState) : WatchLabel → Prop
  | .edit content =>
    s.svc = .waiting ∨ s.Pending ∨ s.Noticed configFileName ∨ Applied optionsOf { s with content }
  | .complete b => Delivers b s.recorded ∨ Reports configFileName b ∨ s.Applied optionsOf
  | .waitFails => s.Applied optionsOf
  | _ => True

/-- `svc` waits, nothing is recorded and the handler is at rest. -/
def Settled (s : WatchState) : Prop := s.svc = .waiting ∧ s.recorded = [] ∧ s.phase = .idle

/-- The state that every edit is to end in. -/
def InForce (optionsOf : Str → Option Options) (s : WatchState) : Prop :=
  (optionsOf s.content = some s.options ∧ s.resheduled = true) ∨ s.refused = some s.content

/-- While `svc` runs, `init` is not going to be called. -/
theorem Sound.not_pending (h : s.Sound optionsOf) (hsvc : s.svc ≠ .gone) : ¬ s.Pending := by
  obtain ⟨hevent, hidle⟩ := h.quiet hsvc
  rintro (hsignalled | hwoken)
  · rw [hevent] at hsignalled
    cases hsignalled
  · rw [hidle] at hwoken
    cases hwoken

theorem applied_init (s : WatchState) : (s.init optionsOf).Applied optionsOf := by
  unfold init
  split
  · exact .inr rfl
  · next options hoptions => exact .inl hoptions

theorem tracked_record_iff {r : Record} :
    (s.record r).Tracked optionsOf configFileName ↔
      (s.svc = .waiting ∧ r.name = getFileName configFileName) ∨ s.Tracked optionsOf configFileName := by
  by_cases hsvc : s.svc = .waiting
  · have hrecord : s.record r = { s with recorded := s.recorded ++ [r] } := by rw [record, hsvc]
    have hnoticed : (s.record r).Noticed configFileName ↔
        r.name = getFileName configFileName ∨ s.Noticed configFileName := by
      simp only [Noticed, hrecord, hsvc, List.mem_append, List.mem_singleton, or_and_right, exists_or,
        exists_eq_left, or_comm]
    have happlied : (s.record r).Applied optionsOf ↔ s.Applied optionsOf := by rw [hrecord]; rfl
    have hpending : (s.record r).Pending ↔ s.Pending := by rw [hrecord]; rfl
    rw [Tracked, Tracked, hnoticed, happlied, hpending]
    simp only [hsvc, true_and]
    tauto
  · have hrecord : s.record r = s := by
      unfold record
      split
      · next hwaiting => exact absurd hwaiting hsvc
      · rfl
    simp only [hrecord, hsvc, false_and, false_or]

theorem tracked_edit_iff {content : Str} :
    (record { s with content } (editRecord configFileName)).Tracked optionsOf configFileName ↔
      s.Attends optionsOf configFileName (.edit content) := by
  rw [tracked_record_iff]
  have hname : (editRecord configFileName).name = getFileName configFileName := rfl
  have hpending : Pending { s with content } ↔ s.Pending := Iff.rfl
  have hnoticed : Noticed configFileName { s with content } ↔ s.Noticed configFileName := Iff.rfl
  simp only [Attends, hname, and_true, Tracked, hpending, hnoticed]
  tauto

/-- The end of a wait: what was recorded must be in the batch. -/
theorem tracked_complete_iff {b : NotifyBuffer} (hsound : s.Sound optionsOf)
    (h : s.Tracked optionsOf configFileName) (hsvc : s.svc = .waiting) :
    Tracked optionsOf configFileName { s with svc := .woken b } ↔
      s.Attends optionsOf configFileName (.complete b) := by
  have hquiet : ¬ s.Pending := hsound.not_pending fun hgone => by rw [hsvc] at hgone; cases hgone
  have happlied : Applied optionsOf { s with svc := .woken b } ↔ s.Applied optionsOf := Iff.rfl
  have hpending : Pending { s with svc := .woken b } ↔ s.Pending := Iff.rfl
  have hnoticed : Noticed configFileName { s with svc := .woken b } ↔ Reports configFileName b := Iff.rfl
  rw [Tracked, happlied, hpending, hnoticed, Attends]
  constructor
  · rintro (hdone | hwoken | hreports)
    · exact .inr (.inr hdone)
    · exact absurd hwoken hquiet
    · exact .inr (.inl hreports)
  · rintro (hdelivers | hreports | hdone)
    · rcases h with hdone | hwoken | hrecorded
      · exact .inl hdone
      · exact absurd hwoken hquiet
      · rw [Noticed, hsvc] at hrecorded
        exact .inr (.inr (hdelivers.reports_iff.mpr hrecorded))
    · exact .inr (.inr hreports)
    · exact .inl hdone

/-- A batch that was noticed is reported. -/
theorem tracked_processed {b : NotifyBuffer} (hsound : s.Sound optionsOf)
    (h : s.Tracked optionsOf configFileName) (hsvc : s.svc = .woken b)
    (hstep : Processed configFileName s b t) : t.Tracked optionsOf configFileName := by
  have hquiet : ¬ s.Pending := hsound.not_pending fun hgone => by rw [hsvc] at hgone; cases hgone
  have hdone (hno : ¬ Reports configFileName b) : s.Applied optionsOf := by
    rcases h with hdone | hwoken | hnoticed
    · exact hdone
    · exact absurd hwoken hquiet
    · rw [Noticed, hsvc] at hnoticed
      exact absurd hnoticed hno
  cases hstep with
  | reported _ ht =>
    subst ht
    exact .inr (.inl (.inl rfl))
  | passedOver hno _ ht =>
    subst ht
    exact .inl (hdone hno)
  | astray hno ht =>
    subst ht
    exact .inl (hdone fun hreports => hno hreports.returns)

theorem tracked_step_iff {l : WatchLabel} (hsound : s.Sound optionsOf)
    (h : s.Tracked optionsOf configFileName)
    (hstep : (watchMachine optionsOf configFileName).step s l = some t) :
    t.Tracked optionsOf configFileName ↔ s.Attends optionsOf configFileName l := by
  -- where `svc` neither waits nor has a batch, only `init` can be due
  have hdue (hsvc : ¬ s.Noticed configFileName) : s.Applied optionsOf ∨ s.Pending := by
    rcases h with hdone | hpending | hnoticed
    · exact .inl hdone
    · exact .inr hpending
    · exact absurd hnoticed hsvc
  cases l with
  | edit content =>
    cases hstep
    exact tracked_edit_iff
  | touch r =>
    cases hstep
    exact iff_of_true (tracked_record_iff.mpr (.inr h)) trivial
  | createFile opens =>
    obtain ⟨hsvc, rfl⟩ := step_createFile hstep
    have hkept := hdue (by simp only [Noticed, hsvc, not_false_eq_true])
    cases opens
    all_goals exact iff_of_true (hkept.imp_right .inl) trivial
  | readChanges starts =>
    obtain ⟨hsvc, rfl⟩ := step_readChanges hstep
    have hkept := hdue (by simp only [Noticed, hsvc, not_false_eq_true])
    cases starts
    all_goals exact iff_of_true (hkept.imp_right .inl) trivial
  | complete b =>
    obtain ⟨hsvc, -, rfl⟩ := step_complete hstep
    exact tracked_complete_iff hsound h hsvc
  | waitFails =>
    obtain ⟨hsvc, rfl⟩ := step_waitFails hstep
    have hquiet : ¬ s.Pending := hsound.not_pending fun hgone => by rw [hsvc] at hgone; cases hgone
    constructor
    · rintro (hdone | hpending | hnoticed)
      · exact hdone
      · exact absurd hpending hquiet
      · exact hnoticed.elim
    · exact .inl
  | process passes =>
    obtain ⟨b, hsvc, hprocessed⟩ := step_process hstep
    exact iff_of_true (tracked_processed hsound h hsvc hprocessed) trivial
  | wait =>
    obtain ⟨-, rfl⟩ := step_wait hstep
    exact iff_of_true (.inr (.inl (.inr rfl))) trivial
  | init =>
    obtain ⟨-, rfl⟩ := step_init hstep
    exact iff_of_true (.inl (applied_init s)) trivial
  | reshedule spawns =>
    obtain ⟨hloaded, rfl⟩ := step_reshedule hstep
    obtain ⟨hgone, -, hquiet⟩ := hsound.atWork fun hidle => by rw [hloaded] at hidle; cases hidle
    have hkept := hdue (by simp only [Noticed, hgone, not_false_eq_true])
    rcases hkept with hdone | hsignalled | hwoken
    · exact iff_of_true (.inl hdone) trivial
    · exact absurd hsignalled hquiet
    · rw [hloaded] at hwoken
      cases hwoken

theorem tracked_start {content : Str} {spawns : Bool} (h : start optionsOf content spawns = some s) :
    s.Tracked optionsOf configFileName := by
  obtain ⟨options, hoptions, hs⟩ := Option.bind_eq_some_iff.mp h
  cases hs
  exact .inl (.inl hoptions)

theorem inForce_of_settled (hsound : s.Sound optionsOf) (h : s.Tracked optionsOf configFileName)
    (hsettled : s.Settled) : s.InForce optionsOf := by
  obtain ⟨hsvc, hrecorded, hidle⟩ := hsettled
  have hquiet : ¬ s.Pending := hsound.not_pending fun hgone => by rw [hsvc] at hgone; cases hgone
  have hresheduled := hsound.resheduled fun hloaded => by rw [hidle] at hloaded; cases hloaded
  rcases h with (hdone | hrefused) | hpending | hnoticed
  · exact .inl ⟨hdone, hresheduled⟩
  · exact .inr hrefused
  · exact absurd hpending hquiet
  · rw [Noticed, hsvc, hrecorded] at hnoticed
    obtain ⟨r, hr, -⟩ := hnoticed
    cases hr

/-- What comes of a batch that was delivered. -/
theorem process_of_delivers {b : NotifyBuffer} {recorded : List Record} (h : Delivers b recorded)
    (s : WatchState) :
    s.process configFileName b recorded.length =
      if ∃ r ∈ recorded, r.name = getFileName configFileName then
        some { s with svc := .gone, handles := s.handles - 1, event := true, activeHandler := true }
      else some { s with svc := .opening } := by
  rw [process, processing_of_holds h.1 h.2]
  by_cases hname : ∃ r ∈ recorded, r.name = getFileName configFileName
  · simp [hname, Watch.fresh, Watch.notify]
  · simp [hname, Watch.fresh]

/-- What `init` makes of a content, for the service on the shipped configuration. -/
def shippedOptionsOf : Str → Option Options := (shippedParser "/usr/sbin/openvpn".toList).optionsOf readShipped

/-- The handler, opened on the shipped configuration. -/
def shipped : WatchState where
  content := shippedIni "/usr/sbin/openvpn".toList
  options := shippedOptions "/usr/sbin/openvpn".toList
  resheduled := true
  refused := none
  svc := .opening
  recorded := []
  handles := 0
  event := false
  activeHandler := false
  registered := true
  phase := .idle

theorem start_shipped : start shippedOptionsOf (shippedIni "/usr/sbin/openvpn".toList) true = some shipped := by
  have hcontent : shippedOptionsOf (shippedIni "/usr/sbin/openvpn".toList) = some _ :=
    optionsOf_shippedParser _ (by decide)
  rw [start, hcontent]
  rfl

/-- Once the thread waits. -/
def shippedWaiting : WatchState := { shipped with svc := .waiting, handles := 1 }

/-- The round of an edit that is made while the thread waits. -/
def reloadRun (content : Str) (b : NotifyBuffer) : List WatchLabel :=
  [.edit content, .complete b, .process 1, .wait, .init, .reshedule true, .createFile true, .readChanges true]

/-- From every settled state an edit can be brought into force. -/
theorem edit_reloaded {content : Str} {options : Options} {b : NotifyBuffer} (hsound : s.Sound optionsOf)
    (hsettled : s.Settled) (hcontent : optionsOf content = some options)
    (hb : Delivers b [editRecord configFileName]) (hlength : b.nBufferLength = 60 * 1024) :
    ∃ t, (watchMachine optionsOf configFileName).run s (reloadRun content b) = some t ∧
      t.Settled ∧ t.content = content ∧ t.options = options := by
  obtain ⟨hsvc, hrecorded, hidle⟩ := hsettled
  have hregistered := hsound.registered fun hgone => by rw [hsvc] at hgone; cases hgone
  have hprocess (u : WatchState) : u.process configFileName b 1 =
      some { u with svc := .gone, handles := u.handles - 1, event := true, activeHandler := true } := by
    have h : u.process configFileName b 1 = _ := process_of_delivers hb u
    rwa [if_pos ⟨_, List.mem_singleton_self _, rfl⟩] at h
  let t : WatchState :=
    { s with
      content, options
      resheduled := true
      refused := none
      svc := .waiting
      recorded := []
      handles := s.handles - 1 + 1
      event := false
      activeHandler := false
      registered := true
      phase := .idle }
  refine ⟨t, ?_, ⟨rfl, rfl, rfl⟩, rfl, rfl⟩
  simp only [reloadRun, Machine.run, watchMachine, Option.bind_some, hsvc, hlength, if_true, record, hprocess,
    hregistered, hidle, and_self, init, hcontent, reshedule, createFile, readChanges]
  rfl

theorem run_shippedWaiting :
    (watchMachine shippedOptionsOf [98]).run shipped [.createFile true, .readChanges true] =
      some shippedWaiting := rfl

theorem sound_shippedWaiting : shippedWaiting.Sound shippedOptionsOf :=
  (sound_start start_shipped).svcStep (fun h => by cases h) .waiting [] 1 false

theorem shippedOptionsOf_itvpn :
    shippedOptionsOf (shippedIni "/opt/itvpn/openvpn".toList) =
      some (shippedOptions "/opt/itvpn/openvpn".toList) :=
  optionsOf_shippedParser _ (by decide)

/-- Edits are tracked in every state of a run of the Windows handler exactly if each
is made while the thread waits or a report or `init` is still to come, and each batch
holds what was recorded; then a run that settles has the options of its file in force. -/
theorem edits_tracked_iff {content : Str} {spawns : Bool} (hstart : start optionsOf content spawns = some s)
    (labels : List WatchLabel) :
    ((watchMachine optionsOf configFileName).Always (Tracked optionsOf configFileName) s labels ↔
      (watchMachine optionsOf configFileName).Along (Attends optionsOf configFileName) s labels) ∧
    ((watchMachine optionsOf configFileName).Along (Attends optionsOf configFileName) s labels →
      ∀ t, (watchMachine optionsOf configFileName).run s labels = some t → t.Settled →
        t.InForce optionsOf) := by
  have hsound := sound_start hstart
  have htracked : s.Tracked optionsOf configFileName := tracked_start hstart
  constructor
  · exact (watchMachine optionsOf configFileName).always_iff_along (fun _ _ _ h hstep => sound_step h hstep)
      (fun _ _ _ hsound h hstep => tracked_step_iff hsound h hstep) hsound htracked
  · intro halong t hrun hsettled
    obtain ⟨hsound, htracked⟩ := (watchMachine optionsOf configFileName).run_invariant
      (C := Attends optionsOf configFileName)
      (I := fun s => s.Sound optionsOf ∧ s.Tracked optionsOf configFileName)
      (fun _ _ _ h hl hstep => ⟨sound_step h.1 hstep, (tracked_step_iff h.1 h.2 hstep).mpr hl⟩)
      ⟨hsound, htracked⟩ halong hrun
    exact inForce_of_settled hsound htracked hsettled

/-- A run from the shipped configuration in which an edit is noticed. -/
theorem edits_tracked_iff_noticed : ∃ t, (watchMachine shippedOptionsOf [98]).run shipped
    ([.createFile true, .readChanges true] ++ reloadRun (shippedIni "/opt/itvpn/openvpn".toList) (oneRecord 98)) =
      some t ∧ t.options = shippedOptions "/opt/itvpn/openvpn".toList ∧ t.InForce shippedOptionsOf := by
  have hdelivers : Delivers (oneRecord 98) [editRecord [98]] := delivers_oneRecord (by decide)
  obtain ⟨t, hrun, hsettled, -, hoptions⟩ := edit_reloaded sound_shippedWaiting ⟨rfl, rfl, rfl⟩
    shippedOptionsOf_itvpn hdelivers (length_oneRecord 98)
  have hrun : (watchMachine shippedOptionsOf [98]).run shipped ([.createFile true, .readChanges true] ++
      reloadRun (shippedIni "/opt/itvpn/openvpn".toList) (oneRecord 98)) = some t := by
    rw [Machine.run_append, run_shippedWaiting, Option.bind_some, hrun]
  refine ⟨t, hrun, hoptions, (edits_tracked_iff start_shipped _).2 ?_ t hrun hsettled⟩
  rintro u hu
  cases hu
  refine ⟨trivial, fun u hu => ⟨trivial, fun v hv => ?_⟩⟩
  cases hu
  cases hv
  refine ⟨.inl rfl, fun w hw => ?_⟩
  obtain ⟨-, -, rfl⟩ := step_complete hw
  exact ⟨.inl hdelivers, fun _ _ => ⟨trivial, fun _ _ => ⟨trivial, fun _ _ => ⟨trivial,
    fun _ _ => ⟨trivial, fun _ _ => ⟨trivial, fun _ _ => ⟨trivial, trivial⟩⟩⟩⟩⟩⟩⟩

/-- From every settled state an edit can be lost: it comes when the wait has ended for
another file, before the directory is read anew. -/
theorem edit_lost_between_reads {content : Str} {options : Options} {r : Record} {b : NotifyBuffer}
    (hsound : s.Sound optionsOf) (hsettled : s.Settled) (hcontent : optionsOf content = some options)
    (hnew : options ≠ s.options) (hother : r.name ≠ getFileName configFileName) (hb : Delivers b [r])
    (hlength : b.nBufferLength = 60 * 1024) :
    ∃ t, (watchMachine optionsOf configFileName).run s
        [.touch r, .complete b, .edit content, .process 1, .createFile true, .readChanges true] = some t ∧
      t.Settled ∧ t.content = content ∧ ¬ t.InForce optionsOf := by
  obtain ⟨hsvc, hrecorded, hidle⟩ := hsettled
  have hprocess (u : WatchState) : u.process configFileName b 1 = some { u with svc := .opening } := by
    have hno : ¬ ∃ r' ∈ [r], r'.name = getFileName configFileName := by
      simpa only [List.mem_singleton, exists_eq_left] using hother
    have h : u.process configFileName b 1 = _ := process_of_delivers hb u
    rwa [if_neg hno] at h
  refine ⟨{ s with content, recorded := [], svc := .waiting, handles := s.handles + 1 }, ?_,
    ⟨rfl, rfl, hidle⟩, rfl, ?_⟩
  · simp only [Machine.run, watchMachine, Option.bind_some, hsvc, hlength, if_true, record, hprocess,
      createFile, readChanges]
  · rintro (⟨hsame, -⟩ | hrefused)
    · exact hnew (Option.some.inj (hcontent.symm.trans hsame))
    · rw [hsound.refused content hrefused] at hcontent
      cases hcontent

/-- The edit comes behind a change of the file `a`. -/
theorem edit_lost_between_reads_itvpn : ∃ t, (watchMachine shippedOptionsOf [98]).run shippedWaiting
    [.touch ⟨3, [97]⟩, .complete (oneRecord 97), .edit (shippedIni "/opt/itvpn/openvpn".toList), .process 1,
      .createFile true, .readChanges true] = some t ∧
    t.Settled ∧ t.content = shippedIni "/opt/itvpn/openvpn".toList ∧ ¬ t.InForce shippedOptionsOf := by
  refine edit_lost_between_reads sound_shippedWaiting ⟨rfl, rfl, rfl⟩ shippedOptionsOf_itvpn ?_ (by decide)
    (delivers_oneRecord (by decide)) (length_oneRecord 97)
  exact fun hsame => absurd (congrArg Options.openvpnFilePath hsame) (by decide)

/-! ### Handles -/

/-- The thread has a handle of the directory in its hands. -/
def held (s : WatchState) : ℕ :=
  match s.svc with
  | .opened | .waiting | .deaf | .woken _ => 1
  | .opening | .astray | .gone => 0

/-- The step itself, if it leaves the handle of the directory open behind it. -/
def leaves (configFileName : WStr) (s : WatchState) : WatchLabel → List WatchLabel
  | .waitFails => [.waitFails]
  | .process passes =>
    match s.svc with
    | .woken b =>
      if (processing b (getFileName configFileName) passes 0 .fresh).2.bStop then [] else [.process passes]
    | _ => []
  | _ => []

/-- A batch that is not reported leaves the handle. -/
theorem leaves_process {b : NotifyBuffer} {passes : ℕ} (hsvc : s.svc = .woken b)
    (h : (watchMachine optionsOf configFileName).step s (.process passes) = some t) :
    (Reports configFileName b → leaves configFileName s (.process passes) = []) ∧
      (¬ Reports configFileName b → leaves configFileName s (.process passes) = [.process passes]) := by
  simp only [watchMachine, hsvc] at h
  simp only [leaves, hsvc]
  constructor
  · rintro ⟨passes', hreport⟩
    have hends : (processing b (getFileName configFileName) passes 0 .fresh).1 ≠ .stuck := by
      intro hstuck
      rw [process] at h
      split at h
      · next hwalk => rw [hwalk] at hstuck; cases hstuck
      · next hwalk => rw [hwalk] at hstuck; cases hstuck
      · cases h
    have hsame := processing_unique (by rw [hreport]; exact fun h => by cases h) hends
    rw [hsame, hreport]
    rfl
  · intro hno
    rcases processing_watch b (getFileName configFileName) .fresh passes 0 with hw | hw
    · rw [hw]
      rfl
    · exact absurd ⟨passes, hw⟩ hno

/-- A step leaves the handles that nobody holds behind it, and no others. -/
theorem handles_step {l : WatchLabel} (hsound : s.Sound optionsOf) (h : s.held ≤ s.handles)
    (hstep : (watchMachine optionsOf configFileName).step s l = some t) :
    t.held ≤ t.handles ∧ t.handles - t.held = s.handles - s.held + (leaves configFileName s l).length := by
  have hone (hsvc : s.held = 1) : s.handles = s.handles - s.held + 1 := by omega
  cases l with
  | edit content =>
    cases hstep
    obtain ⟨recorded, heq, -, -⟩ := record_eq { s with content } (editRecord configFileName)
    rw [heq]
    exact ⟨h, rfl⟩
  | touch r =>
    cases hstep
    obtain ⟨recorded, heq, -, -⟩ := record_eq s r
    rw [heq]
    exact ⟨h, rfl⟩
  | createFile opens =>
    obtain ⟨hsvc, rfl⟩ := step_createFile hstep
    have hheld : s.held = 0 := by rw [held, hsvc]
    cases opens with
    | true => exact ⟨Nat.le_add_left _ _, by rw [hheld]; rfl⟩
    | false => exact ⟨Nat.zero_le _, by rw [hheld]; rfl⟩
  | readChanges starts =>
    obtain ⟨hsvc, rfl⟩ := step_readChanges hstep
    have hheld : s.held = 1 := by rw [held, hsvc]
    rw [hheld] at h ⊢
    cases starts
    all_goals exact ⟨h, rfl⟩
  | complete b =>
    obtain ⟨hsvc, -, rfl⟩ := step_complete hstep
    have hheld : s.held = 1 := by rw [held, hsvc]
    rw [hheld] at h ⊢
    exact ⟨h, rfl⟩
  | waitFails =>
    obtain ⟨hsvc, rfl⟩ := step_waitFails hstep
    exact ⟨Nat.zero_le _, hone (by rw [held, hsvc])⟩
  | process passes =>
    obtain ⟨b, hsvc, hprocessed⟩ := step_process hstep
    obtain ⟨hreported, hpassed⟩ := leaves_process hsvc hstep
    have hheld : s.held = 1 := by rw [held, hsvc]
    cases hprocessed with
    | reported hreports ht =>
      subst ht
      rw [hreported hreports, hheld]
      exact ⟨Nat.zero_le _, rfl⟩
    | passedOver hno _ ht =>
      subst ht
      rw [hpassed hno]
      exact ⟨Nat.zero_le _, hone hheld⟩
    | astray hno ht =>
      subst ht
      rw [hpassed fun hreports => hno hreports.returns]
      exact ⟨Nat.zero_le _, hone hheld⟩
  | wait =>
    obtain ⟨-, rfl⟩ := step_wait hstep
    exact ⟨h, rfl⟩
  | init =>
    obtain ⟨-, rfl⟩ := step_init hstep
    unfold init
    split
    all_goals exact ⟨h, rfl⟩
  | reshedule spawns =>
    obtain ⟨hloaded, rfl⟩ := step_reshedule hstep
    obtain ⟨hgone, -, -⟩ := hsound.atWork fun hidle => by rw [hloaded] at hidle; cases hidle
    have hheld : s.held = 0 := by rw [held, hgone]
    cases spawns
    all_goals exact ⟨Nat.zero_le _, by rw [hheld]; rfl⟩

/-- The directory handles that are open in any state of a run: one for each batch that
was not reported and for a wait that failed, which nobody closes, and the one in use. -/
theorem handles_of_run {content : Str} {spawns : Bool} (hstart : start optionsOf content spawns = some s)
    {labels : List WatchLabel} (hrun : (watchMachine optionsOf configFileName).run s labels = some t) :
    t.handles =
      ((watchMachine optionsOf configFileName).collect (leaves configFileName) s labels).length + t.held := by
  have hempty : s.held ≤ s.handles ∧ s.handles - s.held = 0 := by
    obtain ⟨options, -, hs⟩ := Option.bind_eq_some_iff.mp hstart
    cases hs
    cases spawns
    all_goals exact ⟨Nat.zero_le _, rfl⟩
  obtain ⟨⟨-, hheld⟩, haccount⟩ := (watchMachine optionsOf configFileName).account_of_run
    (f := leaves configFileName) (I := fun s => s.Sound optionsOf ∧ s.held ≤ s.handles)
    (fun _ _ _ h hstep =>
      ⟨⟨sound_step h.1 hstep, (handles_step h.1 h.2 hstep).1⟩, (handles_step h.1 h.2 hstep).2⟩)
    ⟨sound_start hstart, hempty.1⟩ hrun
  omega

/-- A wait that fails leaves the handle open. -/
theorem handles_of_run_waitFails : ∃ t, (watchMachine shippedOptionsOf [98]).run shipped
    [.createFile true, .readChanges true, .waitFails] = some t ∧ t.held = 0 ∧
    t.handles = ((watchMachine shippedOptionsOf [98]).collect (leaves [98]) shipped
      [.createFile true, .readChanges true, .waitFails]).length + t.held :=
  ⟨_, rfl, rfl, handles_of_run start_shipped rfl⟩

/-! ### Survival -/

/-- Edits to come can still be noticed: the thread is on its way to the next wait, or
`handle_signal` to the next thread. -/
def Alive (configFileName : WStr) (s : WatchState) : Prop :=
  match s.svc with
  | .opening | .opened | .waiting => True
  | .woken b => Returns configFileName b
  | .deaf | .astray => False
  | .gone => s.event = true ∨ s.phase ≠ .idle

/-- The step keeps the watch alive. -/
def Sustains (optionsOf : Str → Option Options) (configFileName : WStr) (s : WatchState) : WatchLabel → Prop
  | .createFile opens => opens = true
  | .readChanges starts => starts = true
  | .complete b => Returns configFileName b
  | .waitFails => False
  | .init => (optionsOf s.content).isSome = true
  | .reshedule spawns => spawns = true
  | _ => True

theorem alive_step_iff {l : WatchLabel} (hsound : s.Sound optionsOf) (h : s.Alive configFileName)
    (hstep : (watchMachine optionsOf configFileName).step s l = some t) :
    t.Alive configFileName ↔ s.Sustains optionsOf configFileName l := by
  cases l with
  | edit content =>
    cases hstep
    obtain ⟨recorded, heq, -, -⟩ := record_eq { s with content } (editRecord configFileName)
    rw [heq]
    exact iff_of_true h trivial
  | touch r =>
    cases hstep
    obtain ⟨recorded, heq, -, -⟩ := record_eq s r
    rw [heq]
    exact iff_of_true h trivial
  | createFile opens =>
    obtain ⟨hsvc, rfl⟩ := step_createFile hstep
    obtain ⟨hevent, hidle⟩ := hsound.quiet fun hgone => by rw [hsvc] at hgone; cases hgone
    cases opens with
    | true => exact iff_of_true trivial rfl
    | false =>
      refine iff_of_false ?_ Bool.false_ne_true
      rintro (hsignalled | hbusy)
      · exact Bool.false_ne_true (hevent.symm.trans hsignalled)
      · exact hbusy hidle
  | readChanges starts =>
    obtain ⟨hsvc, rfl⟩ := step_readChanges hstep
    cases starts with
    | true => exact iff_of_true trivial rfl
    | false => exact iff_of_false id Bool.false_ne_true
  | complete b =>
    obtain ⟨hsvc, -, rfl⟩ := step_complete hstep
    exact Iff.rfl
  | waitFails =>
    obtain ⟨hsvc, rfl⟩ := step_waitFails hstep
    obtain ⟨hevent, hidle⟩ := hsound.quiet fun hgone => by rw [hsvc] at hgone; cases hgone
    refine iff_of_false ?_ id
    rintro (hsignalled | hbusy)
    · exact Bool.false_ne_true (hevent.symm.trans hsignalled)
    · exact hbusy hidle
  | process passes =>
    obtain ⟨b, hsvc, hprocessed⟩ := step_process hstep
    rw [Alive, hsvc] at h
    cases hprocessed with
    | reported _ ht =>
      subst ht
      exact iff_of_true (.inl rfl) trivial
    | passedOver _ _ ht =>
      subst ht
      exact iff_of_true trivial trivial
    | astray hno _ => exact absurd h hno
  | wait =>
    obtain ⟨hevent, rfl⟩ := step_wait hstep
    have hgone := (hsound.event hevent).1
    refine iff_of_true ?_ trivial
    rw [Alive, hgone]
    exact .inr fun hidle => by cases hidle
  | init =>
    obtain ⟨hwoken, rfl⟩ := step_init hstep
    obtain ⟨hgone, -, hquiet⟩ := hsound.atWork fun hidle => by rw [hwoken] at hidle; cases hidle
    rw [Sustains, init]
    cases hoptions : optionsOf s.content with
    | none =>
      refine iff_of_false ?_ Bool.false_ne_true
      rw [Alive, hgone]
      rintro (hsignalled | hbusy)
      · exact hquiet hsignalled
      · exact hbusy rfl
    | some options =>
      refine iff_of_true ?_ rfl
      rw [Alive, hgone]
      exact .inr fun hidle => by cases hidle
  | reshedule spawns =>
    obtain ⟨hloaded, rfl⟩ := step_reshedule hstep
    obtain ⟨-, -, hquiet⟩ := hsound.atWork fun hidle => by rw [hloaded] at hidle; cases hidle
    cases spawns with
    | true => exact iff_of_true trivial rfl
    | false =>
      refine iff_of_false ?_ Bool.false_ne_true
      rintro (hsignalled | hbusy)
      · exact hquiet hsignalled
      · exact hbusy rfl

/-- The watch survives a run exactly if the directory can always be opened and read,
no wait fails, the walk over each batch returns, no content is refused, and a thread can
be spawned after each reload. -/
theorem always_watching_iff {content : Str} (hstart : start optionsOf content true = some s)
    (labels : List WatchLabel) :
    (watchMachine optionsOf configFileName).Always (Alive configFileName) s labels ↔
      (watchMachine optionsOf configFileName).Along (Sustains optionsOf configFileName) s labels := by
  have halive : s.Alive configFileName := by
    obtain ⟨options, -, hs⟩ := Option.bind_eq_some_iff.mp hstart
    cases hs
    trivial
  exact (watchMachine optionsOf configFileName).always_iff_along (fun _ _ _ h hstep => sound_step h hstep)
    (fun _ _ _ hsound h hstep => alive_step_iff hsound h hstep) (sound_start hstart) halive

/-- The handler as it is opened, and the round of an edit that is noticed and reloaded. -/
theorem always_watching_iff_reloadRun : (watchMachine shippedOptionsOf [98]).Always (Alive [98]) shipped
    ([.createFile true, .readChanges true] ++
      reloadRun (shippedIni "/opt/itvpn/openvpn".toList) (oneRecord 98)) := by
  have hreports : Reports [98] (oneRecord 98) :=
    (delivers_oneRecord (by decide)).reports_iff.mpr ⟨_, List.mem_singleton_self _, rfl⟩
  refine (always_watching_iff start_shipped _).mpr fun u hu => ?_
  cases hu
  refine ⟨rfl, fun v hv => ?_⟩
  cases hv
  refine ⟨rfl, fun w hw => ?_⟩
  cases hw
  refine ⟨trivial, fun x hx => ⟨hreports.returns, fun y hy => ⟨trivial, fun z hz => ⟨trivial, fun _ _ =>
    ⟨?_, fun _ _ => ⟨rfl, fun _ _ => ⟨rfl, fun _ _ => ⟨rfl, trivial⟩⟩⟩⟩⟩⟩⟩⟩
  obtain ⟨-, -, rfl⟩ := step_complete hx
  obtain ⟨-, rfl⟩ := step_wait hz
  have hcontent : y.content = shippedIni "/opt/itvpn/openvpn".toList := step_process_content hy
  have haccepted : (shippedOptionsOf y.content).isSome = true := by
    rw [hcontent, shippedOptionsOf_itvpn]
    rfl
  exact haccepted

end WatchState

end ItvpnAgent.NtService
