import ItvpnAgent.Kit.SharedFile
import ItvpnAgent.Tasks.EventSinkTask
import ItvpnAgent.Tasks.GetLicenseTask

/-! The license file under its two writers and a reader. `Get_License_Task` and
`EventSink_Task` save to one path without knowing of each other, in place, while
`read_license_from_file` may look at it at any moment. What they save are texts of
ACTIVE replies; what the file holds is put together from such texts. -/

namespace ItvpnAgent

open Kit Prog LicenseChecker

/-! ### What is saved -/

/-- All a task's code does to the log: it appends, and writes such licenses only. -/
def WritesOnly {τ : Type} (licenses : HostLicense → Prop) (c t : Ctx τ) : Prop :=
  ∃ new, t.outside.log = c.outside.log ++ new ∧ ∀ hl, .writeLicense hl ∈ new → licenses hl

theorem strokes_writesOnly {τ : Type} (licenses : HostLicense → Prop) :
    Strokes (WritesOnly (τ := τ) licenses) licenses where
  self _ := ⟨[], (List.append_nil _).symm, nofun⟩
  seq c t u h h' := by
    obtain ⟨new, hlog, hnew⟩ := h
    obtain ⟨new', hlog', hnew'⟩ := h'
    refine ⟨new ++ new', by rw [hlog', hlog, List.append_assoc], fun hl hmem => ?_⟩
    rcases List.mem_append.mp hmem with hmem | hmem
    · exact hnew hl hmem
    · exact hnew' hl hmem
  act c a h := by
    refine ⟨[a], Ctx.act_log a c, fun hl hmem => ?_⟩
    exact h hl (List.mem_singleton.mp hmem).symm
  setLicFile _ _ := ⟨[], (List.append_nil _).symm, nofun⟩

theorem taskStrokes_writesOnly {τ : Type} (licenses : HostLicense → Prop) :
    TaskStrokes (WritesOnly (τ := Timed τ) licenses) licenses where
  toStrokes := strokes_writesOnly licenses
  own _ _ := ⟨[], (List.append_nil _).symm, nofun⟩
  schedule _ _ := ⟨[], (List.append_nil _).symm, nofun⟩

theorem WritesOnly.newActions {τ α : Type} {licenses : HostLicense → Prop} {x : Prog (Ctx τ) Exn α}
    {c : Ctx τ} (h : WritesOnly licenses c (x c).2) {hl : HostLicense}
    (hmem : .writeLicense hl ∈ newActions x c) : licenses hl := by
  obtain ⟨new, hlog, hnew⟩ := h
  rw [newActions_eq hlog] at hmem
  exact hnew hl hmem

theorem GetLicenseTask.received_of_written {env : Env} {c : Ctx (Timed GetLicenseTask)} {hl : HostLicense}
    (h : .writeLicense hl ∈ newActions (GetLicenseTask.svc env) c) : GetLicenseTask.Received env hl :=
  WritesOnly.newActions (moves_svc (taskStrokes_writesOnly _) env (fun _ h => h) c) h

theorem EventSinkTask.received_of_written {env : Env} {c : Ctx Unit} {hl : HostLicense}
    (h : .writeLicense hl ∈ newActions (EventSinkTask.svc env) c) : EventSinkTask.Received env hl :=
  WritesOnly.newActions (moves_svc (strokes_writesOnly _) env (fun _ h => h) c) h

/-- The two tasks that save licenses. -/
inductive Saver where
  | getLicenseTask
  | eventSinkTask
  deriving DecidableEq, Repr

/-- Some run of the task's `svc` writes this license. -/
def Saver.Writes : Saver → HostLicense → Prop
  | .getLicenseTask, hl => ∃ env c, .writeLicense hl ∈ newActions (GetLicenseTask.svc env) c
  | .eventSinkTask, hl => ∃ env c, .writeLicense hl ∈ newActions (EventSinkTask.svc env) c

/-- The license, with a text, of an ACTIVE reply to one of the two requests. -/
def FromActiveReply (hl : HostLicense) : Prop :=
  hl.license ≠ [] ∧ ∃ env attempt status,
    Receives env attempt status (some hl) ∧ status.id = LicHostStatus.active

theorem Saver.Writes.fromActiveReply {saver : Saver} {hl : HostLicense} (h : saver.Writes hl) :
    FromActiveReply hl := by
  cases saver with
  | getLicenseTask =>
    obtain ⟨env, c, hmem⟩ := h
    obtain ⟨status, -, hreceives, hactive, hne⟩ := GetLicenseTask.received_of_written hmem
    exact ⟨hne, env, 1, status, hreceives, hactive⟩
  | eventSinkTask =>
    obtain ⟨env, c, hmem⟩ := h
    obtain ⟨status, hreceives, hactive, hne⟩ := EventSinkTask.received_of_written hmem
    exact ⟨hne, env, 60, status, hreceives, hactive⟩

/-! ### The file operations -/

/-- A saver opens the file, writes some of its text, closes it; the reader opens
the file, reads its first word, closes it. -/
inductive LicenseFileLabel where
  | openSave (saver : Saver) (hl : HostLicense) (succeeds : Bool)
  | write (saver : Saver) (n : ℕ)
  | close (saver : Saver)
  | openRead (succeeds : Bool)
  | readWord (succeeds : Bool)
  | closeRead

/-- `license` is the local string of `read_license_from_file`. -/
structure LicenseFile where
  file : SharedFile Saver Char
  reading : Bool
  license : Str

namespace LicenseFile

def setFile (s : LicenseFile) (file : SharedFile Saver Char) : LicenseFile := { s with file }

def machine : Machine LicenseFile LicenseFileLabel where
  step s
    | .openSave saver hl succeeds =>
      (s.file.openWrite saver (stripNul hl.license) succeeds).map s.setFile
    | .write saver n => (s.file.write '\x00' saver n).map s.setFile
    | .close saver => (s.file.close saver).map s.setFile
    | .openRead succeeds =>
      if s.reading then none
      else some { s with reading := succeeds && s.file.content.isSome, license := [] }
    | .readWord succeeds =>
      if s.reading then
        some { s with license := if succeeds then readLicenseFromFile s.file.content else [] }
      else none
    | .closeRead => if s.reading then some { s with reading := false } else none

/-- The license file as the agent finds it. -/
def found (content : Option Str) : LicenseFile where
  file := .idle content
  reading := false
  license := []

/-- What a label is for the file; reading leaves the file alone. -/
def fileOp : LicenseFileLabel → Option (FileOp Saver Char)
  | .openSave saver hl succeeds => some (.openWrite saver (stripNul hl.license) succeeds)
  | .write saver n => some (.write saver n)
  | .close saver => some (.close saver)
  | .openRead _ | .readWord _ | .closeRead => none

def fileOps (labels : List LicenseFileLabel) : List (FileOp Saver Char) := labels.filterMap fileOp

/-- The texts for which a save has opened the file. -/
def savedTexts (labels : List LicenseFileLabel) : List Str := SharedFile.opened (fileOps labels)

/-- How many characters the saver has written. -/
def written (saver : Saver) (labels : List LicenseFileLabel) : ℕ :=
  SharedFile.written saver (fileOps labels)

/-- The label is not one of another save. -/
def Spares (saver : Saver) (l : LicenseFileLabel) : Prop := ∀ op, fileOp l = some op → op.Spares saver

variable {s t : LicenseFile} {l : LicenseFileLabel} {labels : List LicenseFileLabel}

/-! ### What a step can do -/

theorem step_file (h : machine.step s l = some t) :
    (fileOp l = none ∧ t.file = s.file) ∨
      ∃ op, fileOp l = some op ∧ (SharedFile.machine '\x00').step s.file op = some t.file := by
  cases l with
  | openSave | write | close =>
    obtain ⟨file, hfile, rfl⟩ := Option.map_eq_some_iff.mp h
    exact .inr ⟨_, rfl, hfile⟩
  | openRead | readWord | closeRead =>
    left
    simp only [machine, Option.ite_none_left_eq_some, Option.ite_none_right_eq_some,
      Option.some.injEq] at h
    obtain ⟨-, rfl⟩ := h
    exact ⟨rfl, rfl⟩

/-- The reader's string is empty, was so before, or has just been read. -/
theorem step_license (h : machine.step s l = some t) :
    t.license = s.license ∨ t.license = [] ∨
      (l = .readWord true ∧ t.license = readLicenseFromFile s.file.content) := by
  cases l with
  | openSave | write | close =>
    obtain ⟨file, -, rfl⟩ := Option.map_eq_some_iff.mp h
    exact .inl rfl
  | openRead succeeds =>
    simp only [machine, Option.ite_none_left_eq_some, Option.some.injEq] at h
    obtain ⟨-, rfl⟩ := h
    exact .inr (.inl rfl)
  | readWord succeeds =>
    simp only [machine, Option.ite_none_right_eq_some, Option.some.injEq] at h
    obtain ⟨-, rfl⟩ := h
    cases succeeds with
    | false => exact .inr (.inl rfl)
    | true => exact .inr (.inr ⟨rfl, rfl⟩)
  | closeRead =>
    simp only [machine, Option.ite_none_right_eq_some, Option.some.injEq] at h
    obtain ⟨-, rfl⟩ := h
    exact .inl rfl

/-- A run is, for the file, a run of the operations of the two savers. -/
theorem run_file (h : machine.run s labels = some t) :
    (SharedFile.machine '\x00').run s.file (fileOps labels) = some t.file := by
  induction labels generalizing s with
  | nil =>
    cases h
    rfl
  | cons l labels ih =>
    obtain ⟨u, hstep, hrun⟩ := Option.bind_eq_some_iff.mp h
    have hrest := ih hrun
    rcases step_file hstep with ⟨hnone, hsame⟩ | ⟨op, hop, hfile⟩
    · have hops : fileOps (l :: labels) = fileOps labels := List.filterMap_cons_none hnone
      rwa [hops, ← hsame]
    · have hops : fileOps (l :: labels) = op :: fileOps labels := List.filterMap_cons_some hop
      rw [hops, Machine.run_cons _ hfile]
      exact hrest

/-- What the reader holds was the first word of the file when it was read. -/
theorem run_license (hrun : machine.run s labels = some t) :
    t.license = s.license ∨ t.license = [] ∨ ∃ before after u,
      labels = before ++ .readWord true :: after ∧ machine.run s before = some u ∧
      t.license = readLicenseFromFile u.file.content := by
  induction labels generalizing s with
  | nil =>
    cases hrun
    exact .inl rfl
  | cons l labels ih =>
    obtain ⟨u, hstep, hrun⟩ := Option.bind_eq_some_iff.mp hrun
    rcases ih hrun with hkept | hempty | ⟨before, after, v, rfl, hbefore, hread⟩
    · rcases step_license hstep with hsame | hcleared | ⟨rfl, hread⟩
      · exact .inl (hkept.trans hsame)
      · exact .inr (.inl (hkept.trans hcleared))
      · exact .inr (.inr ⟨[], labels, s, rfl, rfl, hkept.trans hread⟩)
    · exact .inr (.inl hempty)
    · exact .inr (.inr ⟨l :: before, after, v, rfl, by rw [Machine.run_cons _ hstep, hbefore], hread⟩)

/-! ### A save by itself -/

/-- The operations of one save with nobody else about. -/
def saveAlone (saver : Saver) (hl : HostLicense) (outcome : SaveOutcome) : List LicenseFileLabel :=
  if outcome.opens then
    [.openSave saver hl true, .write saver (min outcome.written (stripNul hl.license).length), .close saver]
  else [.openSave saver hl false]

/-- Its operations one after the other are what `save_license_to_file` does. -/
theorem run_saveAlone {τ : Type} (saver : Saver) (hl : HostLicense) (env : Env) (c : Ctx τ) :
    machine.run (found c.outside.licFile) (saveAlone saver hl env.save) =
      some (found (saveLicenseToFile env hl.license c).2.outside.licFile) := by
  unfold saveAlone saveLicenseToFile
  cases hopens : env.save.opens with
  | false => rfl
  | true =>
    have hle : min env.save.written (stripNul hl.license).length ≤ (stripNul hl.license).length :=
      min_le_right _ _
    have htext : (stripNul hl.license).take env.save.written =
        (stripNul hl.license).take (min env.save.written (stripNul hl.license).length) := by
      rw [List.take_eq_take_iff, min_assoc, min_self]
    rw [if_pos rfl, if_pos rfl, htext]
    generalize min env.save.written (stripNul hl.license).length = n at hle
    have hwrite : overwrite '\x00' [] 0 ((stripNul hl.license).take n) = (stripNul hl.license).take n :=
      overwrite_length '\x00' [] _
    simp [Machine.run, machine, found, SharedFile.idle, SharedFile.openWrite, SharedFile.write,
      SharedFile.close, setFile, hle, hwrite, bind_run]

/-! ### What the file holds -/

/-- The file after a run from `initial`: untouched, or put together from the texts
of ACTIVE replies that were saved, each character at its place; the part written
so far of the last text as long as its save is undisturbed; and the reader holds
nothing or the first word of what the file was when it looked. -/
structure Composed (initial : Option Str) (labels : List LicenseFileLabel) (s : LicenseFile) : Prop where
  licenses : ∀ saver hl, .openSave saver hl true ∈ labels → FromActiveReply hl
  content : (savedTexts labels = [] ∧ s.file.content = initial) ∨
    ∃ content, s.file.content = some content ∧ SharedFile.Mosaic '\x00' (savedTexts labels) content
  alone : ∀ before after saver hl, labels = before ++ .openSave saver hl true :: after →
    (∀ l ∈ after, Spares saver l) →
    s.file.content = some ((stripNul hl.license).take (written saver after))
  read : s.license = [] ∨ ∃ before after u, labels = before ++ .readWord true :: after ∧
    machine.run (found initial) before = some u ∧ s.license = readLicenseFromFile u.file.content

/-- An undisturbed save has put its text there as far as it has come. -/
theorem content_undisturbed {saver : Saver} {hl : HostLicense}
    (hspares : ∀ l ∈ labels, Spares saver l)
    (hrun : machine.run s (.openSave saver hl true :: labels) = some t) :
    t.file.content = some ((stripNul hl.license).take (written saver labels)) := by
  have hops : ∀ op ∈ fileOps labels, op.Spares saver := by
    intro op hop
    obtain ⟨l, hl, hlop⟩ := List.mem_filterMap.mp hop
    exact hspares l hl op hlop
  have hfile := run_file hrun
  exact SharedFile.content_alone hops hfile

/-- In any interleaving of the two savers and the reader, whatever fails. -/
theorem composed_of_run {initial : Option Str}
    (hwrites : ∀ saver hl succeeds, .openSave saver hl succeeds ∈ labels → saver.Writes hl)
    (hrun : machine.run (found initial) labels = some s) : Composed initial labels s where
  licenses saver hl hmem := (hwrites saver hl true hmem).fromActiveReply
  content := by
    have hidle : (found initial).file.MadeOf '\x00' initial [] := SharedFile.madeOf_idle
    have hmade := SharedFile.madeOf_run hidle (run_file hrun)
    rw [List.nil_append] at hmade
    exact hmade.content
  alone before after saver hl hlabels hspares := by
    rw [hlabels, Machine.run_append] at hrun
    obtain ⟨u, -, hrun⟩ := Option.bind_eq_some_iff.mp hrun
    exact content_undisturbed hspares hrun
  read := by
    rcases run_license hrun with hkept | hempty | hread
    · exact .inl hkept
    · exact .inl hempty
    · exact .inr hread

/-- A world without a license file, whose server has this license. -/
def unlicensed (hl : HostLicense) : Env :=
  { Env.still (shippedOptions "/usr/sbin/openvpn".toList) { day := 16, month := 1, year := 2020 } with
    exec := fun _ => .ok (List.replicate Constants.uidSize 'A')
    net := .answering hl }

def newLicense : HostLicense := { year := 2020, month := 2, license := "h.p.MjAyMC0wMi0yOQ==.s".toList }

theorem writes_newLicense : Saver.eventSinkTask.Writes newLicense := by
  refine ⟨unlicensed newLicense, { task := (), outside := { log := [], licFile := none } }, ?_⟩
  decide

/-- A save that has opened the file when it is read, and writes half of the text. -/
def saveUnderRead : List LicenseFileLabel := [
  .openSave .eventSinkTask newLicense true,
  .openRead true, .readWord true, .closeRead,
  .write .eventSinkTask 11]

theorem composed_of_run_half : ∃ s, machine.run (found none) saveUnderRead = some s ∧
    Composed none saveUnderRead s := by
  refine ⟨_, rfl, composed_of_run (fun saver hl succeeds hmem => ?_) rfl⟩
  have hlabel : LicenseFileLabel.openSave saver hl succeeds = .openSave .eventSinkTask newLicense true := by
    simpa [saveUnderRead] using hmem
  cases hlabel
  exact writes_newLicense

/-- The opening alone has emptied the file, and that is what is read. -/
theorem truncated_under_read :
    newLicense.license ≠ [] ∧ Saver.eventSinkTask.Writes newLicense ∧
    ∃ s, machine.run (found (some "h.p.MjAyMC0wMS0zMQ==.s".toList))
        [.openSave .eventSinkTask newLicense true, .openRead true, .readWord true, .closeRead] = some s ∧
      s.license = [] ∧
      ¬ (s.file.content = some "h.p.MjAyMC0wMS0zMQ==.s".toList ∨
        ∃ hl, FromActiveReply hl ∧ stripNul hl.license ≠ [] ∧
          s.file.content = some (stripNul hl.license)) := by
  refine ⟨by decide, writes_newLicense, _, rfl, rfl, ?_⟩
  rintro (hold | ⟨hl, -, hne, hnew⟩)
  · cases hold
  · exact hne (Option.some.inj hnew).symm

end LicenseFile

end ItvpnAgent
