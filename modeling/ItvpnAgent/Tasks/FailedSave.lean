import Mathlib.Data.List.TakeDrop
import ItvpnAgent.Tasks.LicenseFile
import ItvpnAgent.Tasks.Renewal

/-! What becomes of a save that fails. The success that `save_license_to_file`
reports is that of opening the file, and `svc` looks at no result of
`write_license`: once it has decided to write it waits for the next day. -/

namespace ItvpnAgent

open Kit Prog LicenseChecker

/-- The file opens and the whole text, less a NUL at its end, reaches it. -/
def SaveOutcome.Stores (outcome : SaveOutcome) (license : Str) : Prop :=
  outcome.opens = true ∧ (stripNul license).length ≤ outcome.written

namespace LicenseChecker

variable {τ : Type} {env : Env} {license : Str} {c : Ctx τ}

/-- A save that opens the file reports success, and the file then holds as much as
has reached it. -/
theorem saveLicenseToFile_opens (h : env.save.opens = true) : saveLicenseToFile env license c =
    (.ok true, c.setLicFile ((stripNul license).take env.save.written)) := by
  rw [saveLicenseToFile, if_pos h]
  rfl

theorem saveLicenseToFile_fails (h : env.save.opens = false) :
    saveLicenseToFile env license c = (.ok false, c) := by
  rw [saveLicenseToFile, h]
  rfl

/-- Success is reported of exactly the saves after which the file holds the text. -/
def ReportsWhole (env : Env) (license : Str) (c : Ctx τ) : Prop :=
  (saveLicenseToFile env license c).1 = .ok true ↔
    (saveLicenseToFile env license c).2.outside.licFile = some (stripNul license)

theorem reportsWhole_iff : ReportsWhole env license c ↔
    env.save.Stores license ∨ (env.save.opens = false ∧ c.outside.licFile ≠ some (stripNul license)) := by
  unfold ReportsWhole SaveOutcome.Stores
  cases hopens : env.save.opens with
  | true =>
    rw [saveLicenseToFile_opens hopens, Ctx.setLicFile_licFile, Option.some.injEq, List.take_eq_self_iff]
    simp
  | false =>
    rw [saveLicenseToFile_fails hopens]
    simp

theorem writeLicense_zero_iff {hl : HostLicense} : (writeLicense env hl c).1 = .ok 0 ↔
    (saveLicenseToFile env hl.license (c.act (.writeLicense hl))).1 = .ok true := by
  rw [writeLicense, bind_ok (update_run _ _)]
  cases hopens : env.save.opens with
  | true => rw [bind_ok (saveLicenseToFile_opens hopens), saveLicenseToFile_opens hopens]; simp
  | false => rw [bind_ok (saveLicenseToFile_fails hopens), saveLicenseToFile_fails hopens]; simp

end LicenseChecker

namespace GetLicenseTask

/-! ### After a decision to write -/

/-- The code has written no license, and has left the delays alone. -/
def Quiet (c t : Ctx (Timed GetLicenseTask)) : Prop :=
  WritesOnly (fun _ => False) c t ∧ t.task.dayWaitingHours = c.task.dayWaitingHours

theorem strokes_quiet : TaskStrokes Quiet fun _ => False where
  self c := ⟨(taskStrokes_writesOnly _).self c, rfl⟩
  seq c t u h h' := ⟨(taskStrokes_writesOnly _).seq c t u h.1 h'.1, h'.2.trans h.2⟩
  act c a h := ⟨(taskStrokes_writesOnly _).act c a h, rfl⟩
  setLicFile c content := ⟨(taskStrokes_writesOnly _).setLicFile c content, rfl⟩
  own c own := ⟨(taskStrokes_writesOnly _).own c own, rfl⟩
  schedule c secs := ⟨(taskStrokes_writesOnly _).schedule c secs, rfl⟩

/-- The timer of the next day is pending, and no other. -/
def WaitsNextDay (c t : Ctx (Timed GetLicenseTask)) : Prop :=
  t.task.timers = [⟨c.task.nextDayWaitingSecs, .svc, c.task.dayWaitingHours⟩]

/-- Code that writes no license, or goes on to wait for the next day. -/
def WritesThenWaits (x : Prog (Ctx (Timed GetLicenseTask)) Exn Unit) : Prop :=
  ∀ c, Quiet c (x c).2 ∨ ((x c).1 = .ok () ∧ WaitsNextDay c (x c).2)

variable {env : Env}

theorem writesThenWaits_of_quiet {x : Prog (Ctx (Timed GetLicenseTask)) Exn Unit} (h : Moves Quiet x) :
    WritesThenWaits x := fun c => .inl (h c)

theorem WritesThenWaits.after {α : Type} {x : Prog (Ctx (Timed GetLicenseTask)) Exn α}
    {f : α → Prog (Ctx (Timed GetLicenseTask)) Exn Unit} (hx : Moves Quiet x)
    (hf : ∀ a, WritesThenWaits (f a)) : WritesThenWaits (x >>= f) := by
  intro c
  have hquiet := hx c
  rw [bind_run]
  split
  · next a t h =>
    rw [h] at hquiet
    rcases hf a t with hrest | ⟨hok, hwaits⟩
    · exact .inl (strokes_quiet.seq _ _ _ hquiet hrest)
    · refine .inr ⟨hok, ?_⟩
      rw [WaitsNextDay, Timed.nextDayWaitingSecs, hquiet.2] at hwaits
      exact hwaits
  all_goals
    next h =>
      rw [h] at hquiet
      exact .inl hquiet

/-- Writing, and then arming the timer of the next day. -/
theorem writesThenWaits_write (hl : HostLicense) :
    WritesThenWaits (writeLicense env hl >>= fun _ => schedule Timed.nextDayWaitingSecs) := by
  intro c
  right
  have hwrite : ∃ r t, writeLicense env hl c = (.ok r, t) ∧ t.task = c.task := by
    unfold writeLicense saveLicenseToFile
    cases env.save.opens <;> exact ⟨_, _, rfl, rfl⟩
  obtain ⟨r, t, hwrite, htask⟩ := hwrite
  rw [bind_ok hwrite, schedule_run]
  refine ⟨rfl, ?_⟩
  rw [WaitsNextDay, htask]
  exact Timed.scheduleHandleTimeout_timers _ _ _

theorem quiet_isCheckLicensesMonths (month : ℤ) :
    Moves Quiet (isCheckLicensesMonths env month : Prog (Ctx (Timed GetLicenseTask)) Exn Bool) :=
  moves_of_refl strokes_quiet.self fun c => by
    simp only [isCheckLicensesMonths, bind_run, read_run, exit_run]
    cases currentLicenseDate env c.outside.licFile <;> rfl

theorem writesThenWaits_storeNewer (hl : HostLicense) :
    WritesThenWaits (storeNewer env hl >>= fun _ => schedule Timed.nextDayWaitingSecs) := by
  rw [storeNewer, bind_assoc]
  refine .after (quiet_isCheckLicensesMonths hl.month) fun newer => ?_
  cases newer with
  | true =>
    rw [if_pos rfl, bind_assoc]
    exact writesThenWaits_write hl
  | false => exact writesThenWaits_of_quiet (strokes_quiet.moves_schedule _)

theorem writesThenWaits_handleLicense (hl : HostLicense) : WritesThenWaits (handleLicense env hl) := by
  have hfind : Moves Quiet (lift (isLicenseFile env) : Prog (Ctx (Timed GetLicenseTask)) Exn Bool) :=
    moves_of_refl strokes_quiet.self fun c => by cases isLicenseFile env <;> rfl
  refine .after hfind fun found => ?_
  cases found with
  | true =>
    rw [if_pos rfl]
    by_cases hmonth : hl.month = 0
    · rw [if_neg (not_not.mpr hmonth)]
      exact writesThenWaits_of_quiet (.bind strokes_quiet.seq (strokes_quiet.moves_sendMessage _)
        fun _ => strokes_quiet.moves_schedule _)
    · rw [if_pos hmonth]
      exact writesThenWaits_storeNewer hl
  | false => exact writesThenWaits_write hl

theorem writesThenWaits_handleResult (result : Result) : WritesThenWaits (handleResult env result) := by
  have hderef : Moves Quiet (deref result.hostStatus : Prog (Ctx (Timed GetLicenseTask)) Exn HostStatus) :=
    moves_of_refl strokes_quiet.self fun c => by cases result.hostStatus <;> rfl
  have hschedule (secs : Timed GetLicenseTask → ℤ) : WritesThenWaits (schedule secs) :=
    writesThenWaits_of_quiet (strokes_quiet.moves_schedule secs)
  refine .after hderef fun status => .after (strokes_quiet.moves_sendMessage _) fun _ => ?_
  by_cases hactive : status.id = LicHostStatus.active
  · rw [if_pos hactive]
    cases hlicense : result.hostLicense with
    | none => exact hschedule _
    | some hl =>
      by_cases hempty : hl.license = []
      · simpa only [hempty, if_true] using hschedule _
      · simpa only [hempty, if_false] using writesThenWaits_handleLicense hl
  · rw [if_neg hactive]
    split <;> exact hschedule _

theorem writesThenWaits_svcBody : WritesThenWaits (svcBody env) := by
  unfold svcBody
  split
  · exact .after (strokes_quiet.requestLicense_state env 1) fun result => writesThenWaits_handleResult result
  · exact writesThenWaits_of_quiet (.bind strokes_quiet.seq (fun c => strokes_quiet.own c _)
      fun _ => strokes_quiet.moves_schedule _)

/-- A run that has decided to write waits for the next day, whatever became of it. -/
theorem writesThenWaits_svc : WritesThenWaits (svc env) := by
  intro c
  have hbody : WritesThenWaits (svcBody env) := writesThenWaits_svcBody
  rcases hbody c with hquiet | ⟨hok, hwaits⟩
  · exact .inl (catching_moves strokes_quiet.seq hquiet (moves_svcCatch strokes_quiet))
  · have hrun : svc env c = (.ok (), (svcBody env c).2) := catching_ok (Prod.ext hok rfl)
    rw [hrun]
    exact .inr ⟨rfl, hwaits⟩

theorem waitsNextDay_of_written {c : Ctx (Timed GetLicenseTask)} {hl : HostLicense}
    (h : .writeLicense hl ∈ newActions (svc env) c) : WaitsNextDay c (svc env c).2 := by
  rcases writesThenWaits_svc c with hquiet | ⟨-, hwaits⟩
  · exact (hquiet.1.newActions h).elim
  · exact hwaits

/-! ### The decision to write -/

/-- `svc` gets an ACTIVE reply with this license, and there is no license file, or
one of an earlier month. -/
def ToBeWritten (env : Env) (file : Option Str) (hl : HostLicense) : Prop :=
  (∃ status, Handles env status hl) ∧ (isLicenseFile env = .ok false ∨
    (isLicenseFile env = .ok true ∧ hl.month ≠ 0 ∧
      ∃ date, currentLicenseDate env file = .ok date ∧ date.month < hl.month))

/-- Where nothing is to be written, `handleLicense` is quiet. -/
theorem quiet_handleLicense {hl : HostLicense} {c : Ctx (Timed GetLicenseTask)}
    (hfound : isLicenseFile env ≠ .ok false)
    (hold : isLicenseFile env = .ok true → hl.month ≠ 0 →
      ∀ date, currentLicenseDate env c.outside.licFile = .ok date → ¬ date.month < hl.month) :
    Quiet c (handleLicense env hl c).2 := by
  cases hfile : isLicenseFile env with
  | error e =>
    have hrun : handleLicense env hl c = (.throw e, c) := by
      rw [handleLicense, hfile]
      rfl
    rw [hrun]
    exact strokes_quiet.self c
  | ok found =>
    obtain rfl : found = true := by
      rw [hfile] at hfound
      cases found with
      | true => rfl
      | false => exact absurd rfl hfound
    rw [handleLicense, hfile, bind_ok (lift_ok _ _), if_pos rfl]
    by_cases hmonth : hl.month = 0
    · rw [if_neg (not_not.mpr hmonth)]
      exact ((strokes_quiet.moves_sendMessage _).bind strokes_quiet.seq
        fun _ => strokes_quiet.moves_schedule _) c
    · rw [if_pos hmonth]
      refine bind_moves strokes_quiet.seq ?_ fun _ t _ => strokes_quiet.moves_schedule _ t
      refine bind_moves strokes_quiet.seq (quiet_isCheckLicensesMonths hl.month c) fun newer t hcheck => ?_
      obtain ⟨state, u, hread, hcheck⟩ := bind_ok_iff.mp hcheck
      cases hread
      obtain ⟨date, v, hdate, hcheck⟩ := bind_ok_iff.mp hcheck
      cases hcheck
      rw [exit_run, Prod.mk.injEq] at hdate
      have hnot := hold hfile hmonth date hdate.1
      rw [if_neg (by simpa using hnot)]
      exact strokes_quiet.self t

/-- `svc` writes exactly what is to be written. -/
theorem writes_iff_toBeWritten {hl : HostLicense} {c : Ctx (Timed GetLicenseTask)} :
    .writeLicense hl ∈ newActions (svc env) c ↔ ToBeWritten env c.outside.licFile hl := by
  constructor
  · intro hwritten
    obtain ⟨status, hday, hreceives, hactive, hne⟩ := received_of_written hwritten
    have hhandles : Handles env status hl := ⟨hday, hreceives, hne⟩
    refine ⟨⟨status, hhandles⟩, ?_⟩
    by_contra hnot
    simp only [not_or, not_and, not_exists] at hnot
    have hreceived : Quiet c (received status c) :=
      strokes_quiet.seq _ _ _ (strokes_quiet.act c (.makeLicenseExtractor 1) nofun)
        (strokes_quiet.act _ (.sendMessage _) nofun)
    have hquiet : Quiet (received status c) (handleLicense env hl (received status c)).2 :=
      quiet_handleLicense hnot.1 hnot.2
    have hsvc : Quiet c (svc env c).2 := by
      refine catching_moves strokes_quiet.seq ?_ (moves_svcCatch strokes_quiet)
      rw [svcBody_of_handles hhandles]
      exact strokes_quiet.seq _ _ _ hreceived hquiet
    exact hsvc.1.newActions hwritten
  · rintro ⟨⟨status, hhandles⟩, habsent | ⟨hpresent, hmonth, date, hdate, hlt⟩⟩
    · have hwrite : ∃ task, handleLicense env hl (received status c) =
          (.ok (), { task, outside := written env hl (received status c).outside }) :=
        handleLicense_absent habsent
      obtain ⟨task, hrun⟩ := hwrite
      exact mem_newActions_of_written (svc_of_handles hhandles hrun)
    · obtain ⟨task, hrun⟩ := handleLicense_present (c := received status c) hmonth hpresent hdate
      rw [if_pos hlt] at hrun
      exact mem_newActions_of_written (svc_of_handles hhandles hrun)

/-! ### Failed saves -/

/-- The timer of the next try is pending, and no other. -/
def RetriesSoon (c t : Ctx (Timed GetLicenseTask)) : Prop :=
  t.task.timers = [⟨nextTryGetLicenseSecs c.task, .svc, c.task.dayWaitingHours⟩]

/-- A run that has decided to write and has not stored the license tries again soon. -/
def RetriesFailedSave (env : Env) (c : Ctx (Timed GetLicenseTask)) : Prop :=
  ∀ hl, .writeLicense hl ∈ newActions (svc env) c → ¬ env.save.Stores hl.license →
    RetriesSoon c (svc env c).2

theorem retriesFailedSave_iff {c : Ctx (Timed GetLicenseTask)} : RetriesFailedSave env c ↔
    ∀ hl, ToBeWritten env c.outside.licFile hl → env.save.Stores hl.license ∨
      nextTryGetLicenseSecs c.task = c.task.nextDayWaitingSecs := by
  simp only [← writes_iff_toBeWritten]
  constructor
  · intro h hl hwritten
    by_cases hstores : env.save.Stores hl.license
    · exact .inl hstores
    · have hsoon := h hl hwritten hstores
      rw [RetriesSoon, waitsNextDay_of_written hwritten] at hsoon
      simp only [List.cons.injEq, Timer.mk.injEq, and_true] at hsoon
      exact .inr hsoon.symm
  · intro h hl hwritten hfails
    have hsame := (h hl hwritten).resolve_left hfails
    rw [RetriesSoon, hsame]
    exact waitsNextDay_of_written hwritten

/-- What is reported of a save, what `write_license` makes of it, and when `svc`
tries again. -/
theorem failed_save_iff (env : Env) (license : Str) (hl : HostLicense) (c : Ctx (Timed GetLicenseTask)) :
    (ReportsWhole env license c ↔
      env.save.Stores license ∨ (env.save.opens = false ∧ c.outside.licFile ≠ some (stripNul license))) ∧
    ((writeLicense env hl c).1 = .ok 0 ↔
      (saveLicenseToFile env hl.license (c.act (.writeLicense hl))).1 = .ok true) ∧
    (RetriesFailedSave env c ↔ ∀ hl, ToBeWritten env c.outside.licFile hl →
      env.save.Stores hl.license ∨ nextTryGetLicenseSecs c.task = c.task.nextDayWaitingSecs) :=
  ⟨reportsWhole_iff, writeLicense_zero_iff, retriesFailedSave_iff⟩

/-- A file that does not open, and one that opens on a full disk. -/
theorem waits_day_after_failure :
    let task := make (shippedOptions "/usr/sbin/openvpn".toList)
    let c : Ctx (Timed GetLicenseTask) := { task, outside := { log := [], licFile := none } }
    let env := LicenseFile.unlicensed LicenseFile.newLicense
    let full := { env with save := { opens := true, written := 0 } }
    ¬ RetriesFailedSave env c ∧ ¬ ReportsWhole full LicenseFile.newLicense.license c := by
  intro task c env full
  constructor
  · intro h
    have hwritten : .writeLicense LicenseFile.newLicense ∈ newActions (svc env) c := by decide
    have hfails : ¬ env.save.Stores LicenseFile.newLicense.license := fun hstores => by cases hstores.1
    have hday : (svc env c).2.task.timers = [⟨86400, .svc, 24⟩] := rfl
    have hminute : (svc env c).2.task.timers = [⟨60, .svc, 24⟩] := h _ hwritten hfails
    cases hday.symm.trans hminute
  · intro h
    have hempty : (saveLicenseToFile full LicenseFile.newLicense.license c).2.outside.licFile = some [] := rfl
    cases hempty.symm.trans (h.mp rfl)

end GetLicenseTask

end ItvpnAgent
