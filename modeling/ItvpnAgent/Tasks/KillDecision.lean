import ItvpnAgent.Tasks.EventSinkTask
import ItvpnAgent.Tasks.ProcessKillerTask

/-! The verdict of the verifier and what the two tasks make of it. The verdict is
the text before the first colon of the first line the verifier prints. The code
tests it with two operators of opposite sense, `==` and `compare`, so that it
takes `SUCCESS` for an invalid answer and every unknown answer for a success. -/

namespace ItvpnAgent

open Kit Prog LicenseChecker

/-- The listing of the license directory has a file of that name. -/
def HasFile (listing : Option (List DirEntry)) (fileName : Str) : Prop :=
  ∃ entries, listing = some entries ∧ ∃ e ∈ entries, e.isDirectory = false ∧ e.leaf = fileName

/-- The text before the first colon; the whole line if there is none. -/
def verdict (output : Str) : Str := upTo ':' (firstLine output)

def isCritical : Action → Bool
  | .sendMessage message => "0#Critical#".toList.isPrefixOf message
  | _ => false

/-- What should follow from the verdict `code` of the first line `line`: for the
killer, whose actions are `killed`, and for the event sink, whose actions are
`asked`. -/
structure FollowsVerdict (present : Prop) (line code name : Str) (killed asked : List Action) : Prop where
  kills : .terminateProcess name ∈ killed ↔ ¬ present ∨ code = "ERROR".toList
  success : present → code = "SUCCESS".toList →
    .terminateProcess name ∉ killed ∧ killed.countP isCritical = 0
  unknown : present → line = [] ∨ (code ≠ "ERROR".toList ∧ code ≠ "SUCCESS".toList) →
    .terminateProcess name ∉ killed ∧ killed.countP isCritical = 1
  asks : .makeLicenseExtractor 60 ∈ asked ↔ ¬ present ∨ code = "ERROR".toList

/-! ### The search and the verifier on these inputs -/

theorem findEntry_eq_true {fileName : Str} : ∀ {entries : List DirEntry} {result : Bool},
    findEntry fileName entries result = true ↔
      result = true ∨ ∃ e ∈ entries, e.isDirectory = false ∧ e.leaf = fileName
  | [], result => by simp [findEntry]
  | e :: rest, result => by
    simp only [findEntry, List.mem_cons, exists_eq_or_imp]
    split
    · next hdir =>
      rw [findEntry_eq_true]
      simp [hdir]
    · next hdir =>
      split
      · next hleaf =>
        rw [findEntry_eq_true]
        simp [hdir, hleaf]
      · next hleaf =>
        rw [findEntry_eq_true]
        simp [hleaf]

section Inputs

variable {env : Env} {listing : Option (List DirEntry)} {output : Str}

theorem isLicenseFile_eq
    (hlist : env.listDir (Files.splitFilePath (env.options .isLicenseFile).licFile) = .ok listing) :
    ∃ found, isLicenseFile env = .ok found ∧
      (found = true ↔ HasFile listing (env.options .isLicenseFile).licFileName) := by
  cases listing with
  | none => exact ⟨false, by simp [isLicenseFile, findFile, hlist], by simp [HasFile]⟩
  | some entries =>
    refine ⟨findEntry (env.options .isLicenseFile).licFileName entries false,
      by simp [isLicenseFile, findFile, hlist], ?_⟩
    rw [findEntry_eq_true]
    simp [HasFile]

/-- The command fits its array, and this is what the verifier has printed. -/
structure Printed (env : Env) (output : Str) : Prop where
  fits : CommandFits env
  exec : env.exec (verifyLicenseCmd env) = .ok output

theorem verifyLicense_eq (h : Printed env output) :
    verifyLicense env =
      if firstLine output = [] then
        .throw (.runtimeError (verifyLicenseCmd env ++ " of output is empty".toList))
      else if verdict output = "ERROR".toList then .ok false
      else if verdict output ≠ "SUCCESS".toList then .ok true
      else .throw (.runtimeError (verifyLicenseCmd env ++ " returned invalid responce".toList)) := by
  have hread : readVerdict env =
      if firstLine output = [] then
        .error (.runtimeError (verifyLicenseCmd env ++ " of output is empty".toList))
      else if verdict output = "ERROR".toList then .ok false
      else if verdict output ≠ "SUCCESS".toList then .ok true
      else .error (.runtimeError (verifyLicenseCmd env ++ " returned invalid responce".toList)) := by
    simp only [readVerdict, runProc, h.exec, except_ok_bind]
    rfl
  rw [verifyLicense_of_fits h.fits, hread]
  split_ifs <;> rfl

end Inputs

theorem isCritical_criticalMessage (message : Str) :
    isCritical (.sendMessage (criticalMessage message)) = true := by
  rw [isCritical, List.isPrefixOf_iff_prefix]
  exact List.prefix_append _ _

/-! ### The decision -/

theorem newActions_killer (env : Env) (c : Ctx (Timed ProcessKillerTask)) :
    newActions (ProcessKillerTask.svc env) c =
      ProcessKillerTask.actions env c.task.own.processStoppingName :=
  newActions_eq (ProcessKillerTask.svc_log env c)

section Decision

variable {env : Env} {present : Prop} {line code : Str} {c : Ctx (Timed ProcessKillerTask)}
  {c' : Ctx Unit}

/-- Without a license the process is killed and a license is asked for. -/
theorem followsVerdict_unlicensed (hday : isLicenseCheckDay env = true)
    (hl : isLicensed env = .ok false) (h : present → line ≠ [] ∧ code = "ERROR".toList) :
    FollowsVerdict present line code c.task.own.processStoppingName
      (newActions (ProcessKillerTask.svc env) c) (newActions (EventSinkTask.svc env) c') := by
  have hverdict : ¬ present ∨ code = "ERROR".toList := by
    by_cases hp : present
    · exact .inr (h hp).2
    · exact .inl hp
  rw [newActions_killer]
  constructor
  · exact iff_of_true (by simp [ProcessKillerTask.actions, hday, hl]) hverdict
  · intro hp hsuccess
    rw [(h hp).2] at hsuccess
    exact absurd hsuccess (by decide)
  · rintro hp (hline | ⟨herror, -⟩)
    · exact absurd hline (h hp).1
    · exact absurd (h hp).2 herror
  · exact iff_of_true ((EventSinkTask.asks_iff env c').mpr hl) hverdict

/-- An exception of the verifier is reported once; nobody is killed. -/
theorem killed_of_error {e : Exn} (hday : isLicenseCheckDay env = true)
    (hl : isLicensed env = .throw e) (name : Str) :
    .terminateProcess name ∉ ProcessKillerTask.actions env name ∧
      (ProcessKillerTask.actions env name).countP isCritical = 1 := by
  simp [ProcessKillerTask.actions, hday, hl, isCritical_criticalMessage]

theorem killed_of_licensed (hl : isLicensed env = .ok true) (name : Str) :
    ProcessKillerTask.actions env name = [] := by
  simp [ProcessKillerTask.actions, hl]

theorem not_asked (hl : isLicensed env ≠ .ok false) :
    .makeLicenseExtractor 60 ∉ newActions (EventSinkTask.svc env) c' :=
  mt (EventSinkTask.asks_iff env c').mp hl

end Decision

/-- On a check day, with a listing of the license directory and, where it has the
license file, an output of the verifier, the two tasks follow the verdict exactly if
the license file is absent, the first line is empty or the verdict is `ERROR`. -/
theorem followsVerdict_iff {env : Env} {listing : Option (List DirEntry)} {output : Str}
    (hday : isLicenseCheckDay env = true)
    (hlist : env.listDir (Files.splitFilePath (env.options .isLicenseFile).licFile) = .ok listing)
    (hprinted : HasFile listing (env.options .isLicenseFile).licFileName → Printed env output)
    (c : Ctx (Timed ProcessKillerTask)) (c' : Ctx Unit) :
    FollowsVerdict (HasFile listing (env.options .isLicenseFile).licFileName) (firstLine output) (verdict output)
        c.task.own.processStoppingName (newActions (ProcessKillerTask.svc env) c)
        (newActions (EventSinkTask.svc env) c') ↔
      ¬ HasFile listing (env.options .isLicenseFile).licFileName ∨ firstLine output = [] ∨
        verdict output = "ERROR".toList := by
  obtain ⟨found, hfile, hfound⟩ := isLicenseFile_eq hlist
  cases found with
  | false =>
    have habsent : ¬ HasFile listing (env.options .isLicenseFile).licFileName := fun h => nomatch hfound.mpr h
    have hl : isLicensed env = .ok false := by simp [isLicensed, hfile]
    exact iff_of_true (followsVerdict_unlicensed hday hl fun h => absurd h habsent) (.inl habsent)
  | true =>
    have hpresent : HasFile listing (env.options .isLicenseFile).licFileName := hfound.mp rfl
    have hl : isLicensed env = verifyLicense env := by simp [isLicensed, hfile]
    rw [verifyLicense_eq (hprinted hpresent)] at hl
    by_cases hline : firstLine output = []
    · rw [if_pos hline] at hl
      have hverdict : verdict output = [] := by rw [verdict, hline]; rfl
      refine iff_of_true ?_ (.inr (.inl hline))
      rw [newActions_killer]
      have hkilled := killed_of_error hday hl c.task.own.processStoppingName
      constructor
      · exact iff_of_false hkilled.1 (by simp [hpresent, hverdict])
      · intro _ hsuccess
        rw [hverdict] at hsuccess
        exact absurd hsuccess (by decide)
      · exact fun _ _ => hkilled
      · exact iff_of_false (not_asked (by rw [hl]; nofun)) (by simp [hpresent, hverdict])
    rw [if_neg hline] at hl
    by_cases herror : verdict output = "ERROR".toList
    · rw [if_pos herror] at hl
      exact iff_of_true (followsVerdict_unlicensed hday hl fun _ => ⟨hline, herror⟩)
        (.inr (.inr herror))
    rw [if_neg herror] at hl
    refine iff_of_false ?_ (by simp only [hpresent, hline, herror, not_true_eq_false, or_self,
      not_false_eq_true])
    rw [newActions_killer]
    intro h
    by_cases hsuccess : verdict output = "SUCCESS".toList
    · rw [if_neg (not_not.mpr hsuccess)] at hl
      -- the code of a valid license is reported as an invalid answer
      have hone := (killed_of_error hday hl c.task.own.processStoppingName).2
      rw [(h.success hpresent hsuccess).2] at hone
      cases hone
    · rw [if_pos hsuccess] at hl
      -- any other code passes for a valid license
      have hone := (h.unknown hpresent (.inr ⟨herror, hsuccess⟩)).2
      rw [killed_of_licensed hl] at hone
      cases hone

/-- The check day of the shipped configuration, with the license file in place. -/
def checkDay (output : Str) : Env :=
  { Env.still (shippedOptions "/usr/sbin/openvpn".toList) { day := 11, month := 1, year := 2020 } with
    exec := fun _ => .ok output
    listDir := fun _ => .ok (some [{ leaf := "license.lic".toList, isDirectory := false }]) }

theorem checkDay_printed (output : Str) : Printed (checkDay output) output where
  fits := by
    have hlength : (makeVerifyLicenseCmd (shippedOptions "/usr/sbin/openvpn".toList)).length < 8192 := by
      decide +kernel
    exact hlength
  exec := rfl

/-- A process killer without timers, and an event sink, that have done nothing yet. -/
def freshKiller : Ctx (Timed ProcessKillerTask) where
  task := ProcessKillerTask.make (shippedOptions "/usr/sbin/openvpn".toList)
  outside := { log := [], licFile := none }

def freshSink : Ctx Unit where
  task := ()
  outside := { log := [], licFile := none }

theorem followsVerdict_iff_error :
    FollowsVerdict (HasFile (some [{ leaf := "license.lic".toList, isDirectory := false }])
        "license.lic".toList) "ERROR: expired".toList "ERROR".toList "openvpn".toList
      (newActions (ProcessKillerTask.svc (checkDay "ERROR: expired".toList)) freshKiller)
      (newActions (EventSinkTask.svc (checkDay "ERROR: expired".toList)) freshSink) := by
  have hday : isLicenseCheckDay (checkDay "ERROR: expired".toList) = true := rfl
  exact (followsVerdict_iff hday rfl (fun _ => checkDay_printed _) freshKiller freshSink).mpr
    (.inr (.inr rfl))

/-- A valid license is answered with a Critical notification. -/
theorem not_followsVerdict_success :
    ¬ FollowsVerdict (HasFile (some [{ leaf := "license.lic".toList, isDirectory := false }])
        "license.lic".toList) "SUCCESS: valid".toList "SUCCESS".toList "openvpn".toList
      (newActions (ProcessKillerTask.svc (checkDay "SUCCESS: valid".toList)) freshKiller)
      (newActions (EventSinkTask.svc (checkDay "SUCCESS: valid".toList)) freshSink) := by
  intro h
  have hcount := (h.success ⟨_, rfl, _, .head _, rfl, rfl⟩ rfl).2
  have hl : isLicensed (checkDay "SUCCESS: valid".toList) =
      .throw (.runtimeError (verifyLicenseCmd (checkDay "SUCCESS: valid".toList) ++
        " returned invalid responce".toList)) :=
    verifyLicense_eq (checkDay_printed "SUCCESS: valid".toList)
  rw [newActions_killer, (killed_of_error rfl hl _).2] at hcount
  cases hcount

end ItvpnAgent
