import Mathlib.Data.Prod.Lex
import ItvpnAgent.Tasks.GetLicenseTask

/-! License renewal. The decision to store a received license looks at months
only. It agrees with calendar order on exactly the pairs of dates whose years
are equal, or whose months are ordered as their years are; along runs that meet
only such pairs the date on disk never decreases and is never older than that of
a license received before. -/

namespace ItvpnAgent.GetLicenseTask

open Kit Prog LicenseChecker

/-- The third field of the license in the file encodes the date. -/
def EncodesDate (decode : Str → Except Str Str) (file : Option Str) (date : DateTime) : Prop :=
  ∃ field str, (getlines '.' (readLicenseFromFile file))[2]? = some field ∧ field ≠ [] ∧
    decode field = .ok str ∧ scanDate (cStr str) = [date.year, date.month, date.day]

/-- Year and month in calendar order. -/
def yearMonth (year month : ℤ) : ℤ ×ₗ ℤ := toLex (year, month)

/-- `svc` gets an ACTIVE reply with this license and a license text in it. -/
structure Handles (env : Env) (status : HostStatus) (hl : HostLicense) : Prop where
  updateDay : isLicenseUpdateDay env = true
  receives : Receives env 1 status (some hl)
  license : hl.license ≠ []

/-- The months of the two dates are ordered as their years are. -/
def InStep (date : DateTime) (hl : HostLicense) : Prop :=
  hl.year = date.year ∨ (date.year < hl.year ∧ date.month < hl.month) ∨
    (hl.year < date.year ∧ hl.month ≤ date.month)

theorem inStep_iff (date : DateTime) (hl : HostLicense) :
    (date.month < hl.month ↔ yearMonth date.year date.month < yearMonth hl.year hl.month) ↔
      InStep date hl := by
  simp only [yearMonth, Prod.Lex.toLex_lt_toLex, InStep]
  omega

/-! ### One run of `svc` -/

theorem Handles.active {env : Env} {status : HostStatus} {hl : HostLicense} (h : Handles env status hl) :
    status.id = LicHostStatus.active := by
  obtain ⟨a, response, -, -, hcarries⟩ := h.receives.delivers
  obtain ⟨json, -, -, -, hlicense⟩ := hcarries.reply
  cases hlicense with
  | license hid _ => exact hid

theorem currentLicenseDate_of_encodes {env : Env} {file : Option Str} {date : DateTime}
    (h : EncodesDate env.fromBase64 file date) : currentLicenseDate env file = .ok date := by
  obtain ⟨field, str, hfield, hne, hdecode, hscan⟩ := h
  unfold currentLicenseDate extractLicenseDate
  rw [hfield]
  cases field with
  | nil => exact absurd rfl hne
  | cons c rest => simp only [hdecode, hscan]

theorem encodesDate_unique {decode : Str → Except Str Str} {file : Option Str} {d d' : DateTime}
    (h : EncodesDate decode file d) (h' : EncodesDate decode file d') : d = d' := by
  obtain ⟨field, str, hfield, -, hdecode, hscan⟩ := h
  obtain ⟨field', str', hfield', -, hdecode', hscan'⟩ := h'
  cases hfield.symm.trans hfield'
  cases hdecode.symm.trans hdecode'
  cases d
  cases d'
  simpa [hscan, eq_comm, and_comm, and_left_comm, and_assoc] using hscan'

/-- What `write_license` leaves outside. -/
def written (env : Env) (hl : HostLicense) (o : Outside) : Outside where
  log := o.log ++ [.writeLicense hl]
  licFile := if env.save.opens then some ((stripNul hl.license).take env.save.written) else o.licFile

theorem writeLicense_run {τ : Type} (env : Env) (hl : HostLicense) (c : Ctx τ) :
    ∃ r, writeLicense env hl c = (.ok r, { c with outside := written env hl c.outside }) := by
  unfold writeLicense saveLicenseToFile
  cases hopens : env.save.opens with
  | true => exact ⟨0, by simp [bind_run, written, hopens, Ctx.act, Ctx.setLicFile]⟩
  | false => exact ⟨-1, by simp [bind_run, written, hopens, Ctx.act]⟩

section Svc

variable {env : Env} {status : HostStatus} {hl : HostLicense} {c : Ctx (Timed GetLicenseTask)}

/-- With a license file in place, a received license is written if its month is
the larger one. -/
theorem handleLicense_present {date : DateTime} (hmonth : hl.month ≠ 0)
    (hfile : isLicenseFile env = .ok true) (hdate : currentLicenseDate env c.outside.licFile = .ok date) :
    ∃ task, handleLicense env hl c = (.ok (), {
      task
      outside := if date.month < hl.month then written env hl c.outside else c.outside }) := by
  have hcheck : isCheckLicensesMonths env hl.month c = (.ok (decide (hl.month > date.month)), c) := by
    simp [isCheckLicensesMonths, bind_run, hdate]
  rw [handleLicense, hfile, bind_ok (lift_ok _ _), if_pos rfl, if_pos hmonth]
  by_cases hlt : date.month < hl.month
  · obtain ⟨r, hwrite⟩ := writeLicense_run env hl c
    have hstore : storeNewer env hl c = (.ok (), { c with outside := written env hl c.outside }) := by
      rw [storeNewer, bind_ok hcheck, if_pos (by simpa using hlt), bind_ok hwrite]
      rfl
    rw [bind_ok hstore, if_pos hlt]
    exact ⟨_, rfl⟩
  · have hstore : storeNewer env hl c = (.ok (), c) := by
      rw [storeNewer, bind_ok hcheck, if_neg (by simpa using hlt)]
      rfl
    rw [bind_ok hstore, if_neg hlt]
    exact ⟨_, rfl⟩

theorem handleLicense_absent (hfile : isLicenseFile env = .ok false) :
    ∃ task, handleLicense env hl c = (.ok (), { task, outside := written env hl c.outside }) := by
  obtain ⟨r, hwrite⟩ := writeLicense_run env hl c
  rw [handleLicense, hfile, bind_ok (lift_ok _ _), if_neg Bool.false_ne_true, bind_ok hwrite]
  exact ⟨_, rfl⟩

/-- The context in which `svc` looks at a received license. -/
def received (status : HostStatus) (c : Ctx (Timed GetLicenseTask)) : Ctx (Timed GetLicenseTask) :=
  (c.act (.makeLicenseExtractor 1)).act (.sendMessage (hostStatusMessage status))

theorem svcBody_of_handles (h : Handles env status hl) :
    svcBody env c = handleLicense env hl (received status c) := by
  obtain ⟨res, u, hrequest, hst, hlic⟩ := (requestLicense_ok_iff (c := c)).mpr h.receives
  have hstate := requestLicense_state env 1 c
  rw [hrequest] at hstate
  cases hstate
  rw [svcBody, if_pos h.updateDay, bind_ok hrequest, handleResult, hst, bind_ok (deref_some _ _),
    Net.sendMessage, bind_ok (update_run _ _), if_pos h.active, hlic]
  simp only [h.license, if_false]
  rfl

theorem svc_of_handles (h : Handles env status hl) {t : Ctx (Timed GetLicenseTask)}
    (hrun : handleLicense env hl (received status c) = (.ok (), t)) : svc env c = (.ok (), t) :=
  catching_ok ((svcBody_of_handles h).trans hrun)

theorem mem_newActions_of_written {task : Timed GetLicenseTask}
    (h : svc env c = (.ok (), { task, outside := written env hl (received status c).outside })) :
    .writeLicense hl ∈ newActions (svc env) c := by
  have hlog : (svc env c).2.outside.log =
      c.outside.log ++ [.makeLicenseExtractor 1, .sendMessage (hostStatusMessage status), .writeLicense hl] := by
    simp only [h, written, received, Ctx.act_log, List.append_assoc]
    rfl
  rw [newActions_eq hlog]
  simp

/-- `svc` writes a received license exactly if its month is the larger one. -/
theorem writes_iff {date : DateTime} (h : Handles env status hl) (hmonth : hl.month ≠ 0)
    (hfile : isLicenseFile env = .ok true) (hdate : EncodesDate env.fromBase64 c.outside.licFile date) :
    .writeLicense hl ∈ newActions (svc env) c ↔ date.month < hl.month := by
  obtain ⟨task, hrun⟩ := handleLicense_present (c := received status c) hmonth hfile
    (currentLicenseDate_of_encodes hdate)
  have hsvc := svc_of_handles h hrun
  by_cases hlt : date.month < hl.month
  · rw [if_pos hlt] at hsvc
    exact iff_of_true (mem_newActions_of_written hsvc) hlt
  · rw [if_neg hlt] at hsvc
    have hlog : (svc env c).2.outside.log =
        c.outside.log ++ [.makeLicenseExtractor 1, .sendMessage (hostStatusMessage status)] := by
      simp only [hsvc, received, Ctx.act_log, List.append_assoc]
      rfl
    rw [newActions_eq hlog]
    simp [hlt]

end Svc

/-! ### The license file over one run of `svc` -/

/-- The license file stays as it is. -/
def KeepsFile (c t : Ctx (Timed GetLicenseTask)) : Prop := t.outside.licFile = c.outside.licFile

theorem keepsFile_seq (c t u : Ctx (Timed GetLicenseTask)) (h : KeepsFile c t) (h' : KeepsFile t u) :
    KeepsFile c u := h'.trans h

theorem keepsFile_notify (message : Str) (secs : Timed GetLicenseTask → ℤ) :
    Moves KeepsFile (do Net.sendMessage message; schedule secs) := fun _ => rfl

theorem keepsFile_svcCatch (e : Exn) (handler : Prog (Ctx (Timed GetLicenseTask)) Exn Unit)
    (h : svcCatch e = some handler) : Moves KeepsFile handler := by
  cases e with
  | processError | filesystemError | runtimeError =>
    cases h
    exact keepsFile_notify _ _
  | httpException =>
    cases h
    exact .ite (keepsFile_notify _ _) fun _ => rfl
  | jsonException | uriException | other => cases h

/-- Only a received license is stored. -/
theorem svc_keepsFile {env : Env} (h : ∀ status hl, ¬ Handles env status hl)
    (c : Ctx (Timed GetLicenseTask)) : KeepsFile c (svc env c).2 := by
  refine catching_moves keepsFile_seq ?_ keepsFile_svcCatch
  unfold svcBody
  split
  · next hday =>
    have hstate := requestLicense_state env 1 c
    rw [bind_run]
    split
    · next result t hrequest =>
      rw [hrequest] at hstate
      subst hstate
      unfold handleResult
      cases hst : result.hostStatus with
      | none => rfl
      | some status =>
        rw [bind_ok (deref_some _ _), Net.sendMessage, bind_ok (update_run _ _)]
        split
        · cases hlic : result.hostLicense with
          | none => rfl
          | some hl =>
            by_cases hempty : hl.license = []
            · simp only [hempty, if_true]
              rfl
            · exact absurd ⟨hday, requestLicense_ok_iff.mp ⟨_, _, hrequest, hst, hlic⟩, hempty⟩
                (h status hl)
        · split <;> rfl
    all_goals
      next hrequest =>
        rw [hrequest] at hstate
        subst hstate
        rfl
  · rfl

/-! ### Whole runs -/

/-- The world is regular: the decoder is the same throughout, the listing of the
license directory tells whether there is a license file, a received license has a
month of the year and its text carries its date, and it is written in full. -/
def Regular (decode : Str → Except Str Str) (s : TaskState GetLicenseTask) : TaskLabel → Prop
  | .finish env => env.fromBase64 = decode ∧
      isLicenseFile env = .ok s.ctx.outside.licFile.isSome ∧
      ∀ status hl, Handles env status hl → 1 ≤ hl.month ∧ hl.month ≤ 12 ∧ env.save.opens = true ∧
        (stripNul hl.license).length ≤ env.save.written ∧
        ∃ day, EncodesDate decode (some (stripNul hl.license)) ⟨day, hl.month, hl.year⟩
  | _ => True

/-- The months of the license on disk and of a received one are ordered as their
years are. -/
def InOrder (s : TaskState GetLicenseTask) : TaskLabel → Prop
  | .finish env => ∀ status hl, Handles env status hl →
      ∀ date, EncodesDate env.fromBase64 s.ctx.outside.licFile date → InStep date hl
  | _ => True

/-- The license on disk has a date, and it is not older than `bound`. -/
def NotOlder (decode : Str → Except Str Str) (bound : ℤ ×ₗ ℤ) (file : Option Str) : Prop :=
  ∃ date, EncodesDate decode file date ∧ bound ≤ yearMonth date.year date.month

/-- There is no license file, or its license has a date. -/
def Dated (decode : Str → Except Str Str) (file : Option Str) : Prop :=
  file = none ∨ ∃ date, EncodesDate decode file date

section Runs

variable {decode : Str → Except Str Str} {bound : ℤ ×ₗ ℤ} {s t : TaskState GetLicenseTask}

theorem encodesDate_isSome {file : Option Str} {date : DateTime} (h : EncodesDate decode file date) :
    file.isSome = true := by
  cases file with
  | some content => rfl
  | none =>
    obtain ⟨field, str, hfield, -⟩ := h
    cases hfield

/-- After a received license the one on disk is not older than it, nor than the
one before. -/
theorem handled_step {env : Env} {status : HostStatus} {hl : HostLicense} (h : Handles env status hl)
    (hregular : Regular decode s (.finish env)) (horder : InOrder s (.finish env))
    (hdated : Dated decode s.ctx.outside.licFile) (hstep : s.finish code env = some t) :
    ∃ date, EncodesDate decode t.ctx.outside.licFile date ∧
      yearMonth hl.year hl.month ≤ yearMonth date.year date.month ∧
      ∀ old, EncodesDate decode s.ctx.outside.licFile old →
        yearMonth old.year old.month ≤ yearMonth date.year date.month := by
  obtain ⟨rfl, hfile, hlicense⟩ := hregular
  obtain ⟨hmonth, -, hopens, hlength, day, hcarried⟩ := hlicense status hl h
  have hwritten (o : Outside) : (written env hl o).licFile = some (stripNul hl.license) := by
    rw [written, hopens, if_pos rfl, List.take_of_length_le hlength]
  rw [finish_ctx hstep]
  obtain hnone | ⟨date, hdate⟩ := hdated
  · rw [hnone] at hfile
    obtain ⟨task, hrun⟩ : ∃ task, handleLicense env hl (received status s.ctx) = _ :=
      handleLicense_absent hfile
    have hsvc : code.svc env s.ctx = _ := svc_of_handles h hrun
    rw [hsvc]
    refine ⟨⟨day, hl.month, hl.year⟩, by rw [hwritten]; exact hcarried, le_rfl, fun old hold => ?_⟩
    rw [hnone] at hold
    cases encodesDate_isSome hold
  · rw [encodesDate_isSome hdate] at hfile
    have hstep' := horder status hl h date hdate
    have hne : hl.month ≠ 0 := by omega
    obtain ⟨task, hrun⟩ := handleLicense_present (c := received status s.ctx) hne hfile
      (currentLicenseDate_of_encodes hdate)
    have hsvc : code.svc env s.ctx = _ := svc_of_handles h hrun
    have hagree := (inStep_iff date hl).mpr hstep'
    rw [hsvc]
    by_cases hlt : date.month < hl.month
    · simp only [hlt, if_true, hwritten]
      refine ⟨_, hcarried, le_rfl, fun old hold => ?_⟩
      cases encodesDate_unique hold hdate
      exact (hagree.mp hlt).le
    · simp only [hlt, if_false]
      refine ⟨date, hdate, not_lt.mp (mt hagree.mpr hlt), fun old hold => ?_⟩
      cases encodesDate_unique hold hdate
      exact le_rfl

/-- Either the step is the end of a run that has received a license, or the file
stays as it is. -/
theorem step_cases {l : TaskLabel} (hstep : (taskMachine code).step s l = some t) :
    t.ctx.outside.licFile = s.ctx.outside.licFile ∨
      ∃ env status hl, l = .finish env ∧ Handles env status hl ∧ s.finish code env = some t := by
  obtain hsame | ⟨env, rfl, hfinish⟩ := step_outside hstep
  · exact .inl (by rw [hsame])
  · by_cases h : ∃ status hl, Handles env status hl
    · obtain ⟨status, hl, h⟩ := h
      exact .inr ⟨env, status, hl, rfl, h, hfinish⟩
    · rw [finish_ctx hfinish]
      exact .inl (svc_keepsFile (fun status hl hh => h ⟨status, hl, hh⟩) s.ctx)

/-- The conditions on a step: a regular world, and dates in order. -/
def Renews (decode : Str → Except Str Str) (s : TaskState GetLicenseTask) (l : TaskLabel) : Prop :=
  Regular decode s l ∧ InOrder s l

theorem dated_step {l : TaskLabel} (h : Dated decode s.ctx.outside.licFile) (hl : Renews decode s l)
    (hstep : (taskMachine code).step s l = some t) : Dated decode t.ctx.outside.licFile := by
  obtain hsame | ⟨env, status, lic, rfl, hh, hfinish⟩ := step_cases hstep
  · rw [hsame]
    exact h
  · obtain ⟨date, hdate, -⟩ := handled_step hh hl.1 hl.2 h hfinish
    exact .inr ⟨date, hdate⟩

theorem notOlder_step {l : TaskLabel} (h : NotOlder decode bound s.ctx.outside.licFile)
    (hl : Renews decode s l) (hstep : (taskMachine code).step s l = some t) :
    NotOlder decode bound t.ctx.outside.licFile := by
  obtain ⟨old, hold, hbound⟩ := h
  obtain hsame | ⟨env, status, lic, rfl, hh, hfinish⟩ := step_cases hstep
  · rw [hsame]
    exact ⟨old, hold, hbound⟩
  · obtain ⟨date, hdate, -, hle⟩ := handled_step hh hl.1 hl.2 (.inr ⟨old, hold⟩) hfinish
    exact ⟨date, hdate, hbound.trans (hle old hold)⟩

theorem notOlder_run {labels : List TaskLabel} (h : NotOlder decode bound s.ctx.outside.licFile)
    (hl : (taskMachine code).Along (Renews decode) s labels)
    (hrun : (taskMachine code).run s labels = some t) : NotOlder decode bound t.ctx.outside.licFile :=
  (taskMachine code).run_invariant (I := fun u => NotOlder decode bound u.ctx.outside.licFile)
    (fun _ _ _ hu hC hstep => notOlder_step hu hC hstep) h hl hrun

end Runs

/-- Renewal against calendar order. One run of `svc` decides in calendar order
exactly on dates that are in step. And along a run whose steps meet only such
dates the license on disk gets no older, from any state on, and once a license
is received it is never older than that one. -/
theorem renewal_in_order (decode : Str → Except Str Str) :
    (∀ (env : Env) (status : HostStatus) (hl : HostLicense) (c : Ctx (Timed GetLicenseTask))
      (date : DateTime), Handles env status hl → 1 ≤ hl.month → hl.month ≤ 12 →
      isLicenseFile env = .ok true → EncodesDate env.fromBase64 c.outside.licFile date →
      ((.writeLicense hl ∈ newActions (svc env) c ↔
          yearMonth date.year date.month < yearMonth hl.year hl.month) ↔ InStep date hl)) ∧
    (∀ (options : Options) (licFile : Option Str) (labels₁ labels₂ : List TaskLabel)
      (s t : TaskState GetLicenseTask), Dated decode licFile →
      (taskMachine code).Along (Renews decode) (opened (make options) licFile) (labels₁ ++ labels₂) →
      (taskMachine code).run (opened (make options) licFile) labels₁ = some s →
      (taskMachine code).run s labels₂ = some t →
      (∀ date, EncodesDate decode s.ctx.outside.licFile date →
        NotOlder decode (yearMonth date.year date.month) t.ctx.outside.licFile) ∧
      (∀ labels env status hl, labels₁ = labels ++ [.finish env] → Handles env status hl →
        NotOlder decode (yearMonth hl.year hl.month) t.ctx.outside.licFile)) := by
  constructor
  · intro env status hl c date h hlow _ hfile hdate
    rw [writes_iff h (by omega) hfile hdate]
    exact inStep_iff date hl
  · intro options licFile labels₁ labels₂ s t hdated halong hrun₁ hrun₂
    obtain ⟨halong₁, halong₂⟩ := (taskMachine code).along_append halong hrun₁
    constructor
    · exact fun date hdate => notOlder_run ⟨date, hdate, le_rfl⟩ halong₂ hrun₂
    · rintro labels env status hl rfl h
      rw [Machine.run_append] at hrun₁
      obtain ⟨r, hr, hlast⟩ := Option.bind_eq_some_iff.mp hrun₁
      obtain ⟨hbefore, hfinish⟩ := (taskMachine code).along_append halong₁ hr
      obtain ⟨s', hs', hend⟩ := Option.bind_eq_some_iff.mp hlast
      cases hend
      have hdated' : Dated decode r.ctx.outside.licFile :=
        (taskMachine code).run_invariant (I := fun u => Dated decode u.ctx.outside.licFile)
          (fun _ _ _ hu hC hstep => dated_step hu hC hstep) hdated hbefore hr
      obtain ⟨date, hdate, hle, -⟩ := handled_step h (hfinish s hs').1.1 (hfinish s hs').1.2 hdated'
        (step_finish hs').2.2
      exact notOlder_run ⟨date, hdate, hle⟩ halong₂ hrun₂

/-- The decoder on the dates of the licenses below. -/
def decodeDate (field : Str) : Except Str Str :=
  if field = "MjAxOS0xMi0zMQ==".toList then .ok "2019-12-31".toList
  else if field = "MjAyMC0wMS0zMQ==".toList then .ok "2020-01-31".toList
  else if field = "MjAyMC0wMi0yOQ==".toList then .ok "2020-02-29".toList
  else .error "invalid character found in base64 input".toList

/-- An update day on which the server answers with this license. -/
def answering (hl : HostLicense) : Env :=
  { Env.still (shippedOptions "/usr/sbin/openvpn".toList) { day := 16, month := 1, year := 2020 } with
    exec := fun _ => .ok (List.replicate Constants.uidSize 'A')
    listDir := fun _ => .ok (some [{ leaf := "license.lic".toList, isDirectory := false }])
    fromBase64 := decodeDate
    save := { opens := true, written := hl.license.length }
    net := .answering hl }

theorem handles_answering {hl : HostLicense}
    (h : LicenseExtractor.readHostLicense (.object (licenseFields hl)) = .ok hl) (hne : hl.license ≠ []) :
    Handles (answering hl) ⟨1, "ACTIVE".toList⟩ hl where
  updateDay := rfl
  receives := {
    uri := rfl
    uid := ⟨_, rfl, rfl⟩
    client := rfl
    delivers := Net.delivers_answering h 1 }
  license := hne

def january : HostLicense := { year := 2020, month := 1, license := "h.p.MjAyMC0wMS0zMQ==.s".toList }

def february : HostLicense := { year := 2020, month := 2, license := "h.p.MjAyMC0wMi0yOQ==.s".toList }

/-- The task after `open` with a license of December 2019 or of January 2020 on disk. -/
def afterDecember : TaskState GetLicenseTask :=
  opened (make (shippedOptions "/usr/sbin/openvpn".toList)) (some "h.p.MjAxOS0xMi0zMQ==.s".toList)

def afterJanuary : TaskState GetLicenseTask :=
  opened (make (shippedOptions "/usr/sbin/openvpn".toList)) (some january.license)

theorem encodes_january : EncodesDate decodeDate (some january.license) ⟨31, 1, 2020⟩ :=
  ⟨_, _, rfl, nofun, rfl, rfl⟩

theorem along_february : (taskMachine code).Along (Renews decodeDate) afterJanuary
    [.expire true, .finish (answering february)] := by
  have hfebruary : Handles (answering february) ⟨1, "ACTIVE".toList⟩ february :=
    handles_answering rfl nofun
  have honly : ∀ status hl, Handles (answering february) status hl → hl = february := by
    intro status hl h
    exact Option.some.inj (receives_unique h.receives hfebruary.receives).2
  rintro t ht
  cases ht
  refine ⟨⟨trivial, trivial⟩, fun u _ => ⟨⟨⟨rfl, rfl, ?_⟩, ?_⟩, trivial⟩⟩
  · intro status hl h
    cases honly status hl h
    exact ⟨by decide, by decide, rfl, le_rfl, 29, _, _, rfl, nofun, rfl, rfl⟩
  · intro status hl h date hdate
    cases honly status hl h
    cases encodesDate_unique hdate encodes_january
    exact .inl rfl

/-- From January to February: the license is written, and the file is renewed. -/
theorem renewal_in_order_february :
    (.writeLicense february ∈ newActions (svc (answering february)) afterJanuary.ctx ↔
      yearMonth 2020 1 < yearMonth 2020 2) ∧
    ∃ t, (taskMachine code).run afterJanuary [.expire true, .finish (answering february)] = some t ∧
      NotOlder decodeDate (yearMonth 2020 2) t.ctx.outside.licFile := by
  have hfebruary : Handles (answering february) ⟨1, "ACTIVE".toList⟩ february :=
    handles_answering rfl nofun
  constructor
  · exact ((renewal_in_order decodeDate).1 _ _ february afterJanuary.ctx ⟨31, 1, 2020⟩ hfebruary
      (by decide) (by decide) rfl encodes_january).mpr (.inl rfl)
  · exact ⟨_, rfl, ((renewal_in_order decodeDate).2 _ _
      [.expire true, .finish (answering february)] [] _ _ (.inr ⟨_, encodes_january⟩)
      along_february rfl rfl).2 [.expire true] _ _ february rfl hfebruary⟩

/-- From December to January nothing is written: 1 is not larger than 12. -/
theorem december_outlives_january :
    Handles (answering january) ⟨1, "ACTIVE".toList⟩ january ∧
    EncodesDate decodeDate afterDecember.ctx.outside.licFile ⟨31, 12, 2019⟩ ∧
    yearMonth 2019 12 < yearMonth january.year january.month ∧
    .writeLicense january ∉ newActions (svc (answering january)) afterDecember.ctx := by
  have hjanuary : Handles (answering january) ⟨1, "ACTIVE".toList⟩ january :=
    handles_answering rfl nofun
  have hdate : EncodesDate decodeDate afterDecember.ctx.outside.licFile ⟨31, 12, 2019⟩ :=
    ⟨_, _, rfl, nofun, rfl, rfl⟩
  refine ⟨hjanuary, hdate, by decide, ?_⟩
  rw [writes_iff hjanuary (by decide) rfl hdate]
  decide

end ItvpnAgent.GetLicenseTask
