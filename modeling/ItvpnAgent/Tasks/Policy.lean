import Mathlib.Logic.Function.Basic
import ItvpnAgent.Tasks.EventSinkTask
import ItvpnAgent.Tasks.ProcessKillerTask
import ItvpnAgent.Tasks.Renewal

/-! What the three tasks are for, with everything else left out: a task finds out
whether it is its day and whether the machine is licensed, and then kills, or asks for
a license and sets about saving what it is offered. The code of each task is held to its
part of this: whatever it meets on its way, the deeds it leaves behind are those of the
part. -/

namespace ItvpnAgent

open Kit Prog LicenseChecker

/-- The three tasks. -/
inductive Worker where
  | getLicenseTask
  | processKillerTask
  | eventSinkTask
  deriving DecidableEq, Repr

/-- One round of a task: what it finds out. `offer` is the license it would be
offered if it asked; `wanted` tells of a license whether it is to replace the one in
the file. -/
inductive Job where
  | enforce (checkDay unlicensed : Bool) (name : Str)
  | ask (unlicensed : Bool) (offer : Option HostLicense)
  | renew (updateDay : Bool) (offer : Option HostLicense) (wanted : HostLicense → Bool)

/-- A license on offer is saved. -/
def saves (offer : Option HostLicense) : List Action := offer.toList.map .writeLicense

@[simp] theorem saves_none : saves none = [] := rfl

@[simp] theorem saves_some (hl : HostLicense) : saves (some hl) = [.writeLicense hl] := rfl

@[simp] theorem terminateProcess_notMem_saves (name : Str) (offer : Option HostLicense) :
    .terminateProcess name ∉ saves offer := by
  cases offer <;> simp

@[simp] theorem mem_saves_iff {hl : HostLicense} {offer : Option HostLicense} :
    .writeLicense hl ∈ saves offer ↔ offer = some hl := by
  cases offer <;> simp [eq_comm]

namespace Job

def worker : Job → Worker
  | .enforce _ _ _ => .processKillerTask
  | .ask _ _ => .eventSinkTask
  | .renew _ _ _ => .getLicenseTask

/-- What a round is to do. -/
def deeds : Job → List Action
  | .enforce checkDay unlicensed name => if checkDay && unlicensed then [.terminateProcess name] else []
  | .ask unlicensed offer =>
    if unlicensed then .makeLicenseExtractor 60 :: saves offer else []
  | .renew updateDay offer wanted =>
    if updateDay then .makeLicenseExtractor 1 :: saves (offer.filter wanted) else []

end Job

/-- The deeds of each task, newest last, without what it says about them. -/
abbrev Record := Worker → List Action

def Record.perform (r : Record) (job : Job) : Record :=
  Function.update r job.worker (r job.worker ++ job.deeds)

/-- Rounds, in the order of their ends. -/
def Record.machine : Machine Record Job where
  step r job := some (r.perform job)

section Rounds

variable {r t : Record} {jobs : List Job}

theorem mem_perform_iff {r : Record} {job : Job} {w : Worker} {act : Action} :
    act ∈ r.perform job w ↔ act ∈ r w ∨ (w = job.worker ∧ act ∈ job.deeds) := by
  by_cases hw : w = job.worker
  · subst hw
    simp only [Record.perform, Function.update_self, List.mem_append, true_and]
  · simp only [Record.perform, Function.update_of_ne hw, hw, false_and, or_false]

/-- A process is killed exactly in a round that finds out that it is the day and that
there is no license. -/
theorem killed_iff_of_rounds {name : Str} (hrun : Record.machine.run r jobs = some t) :
    (∃ w, .terminateProcess name ∈ t w) ↔
      (∃ w, .terminateProcess name ∈ r w) ∨ .enforce true true name ∈ jobs := by
  induction jobs generalizing r with
  | nil =>
    cases hrun
    simp
  | cons job jobs ih =>
    have hrun : Record.machine.run (r.perform job) jobs = some t := hrun
    have hdeeds : .terminateProcess name ∈ job.deeds ↔ Job.enforce true true name = job := by
      cases job with
      | enforce checkDay unlicensed name' => cases checkDay <;> cases unlicensed <;> simp [Job.deeds]
      | ask unlicensed offer => cases unlicensed <;> simp [Job.deeds]
      | renew updateDay offer wanted => cases updateDay <;> simp [Job.deeds]
    simp only [ih hrun, mem_perform_iff, exists_or, exists_eq_left, hdeeds, List.mem_cons, or_assoc]

end Rounds

/-- The license is one that the round was offered when it asked. -/
def Job.Offers (job : Job) (hl : HostLicense) : Prop :=
  job = .ask true (some hl) ∨ ∃ wanted, job = .renew true (some hl) wanted

/-- A round saves nothing but what it was offered. -/
theorem Job.offers_of_deed {job : Job} {hl : HostLicense} (h : .writeLicense hl ∈ job.deeds) :
    job.Offers hl := by
  cases job with
  | enforce checkDay unlicensed name => cases checkDay <;> cases unlicensed <;> simp [deeds] at h
  | ask unlicensed offer =>
    cases unlicensed with
    | false => cases h
    | true =>
      have hoffer : offer = some hl := by simpa [deeds] using h
      exact .inl (by rw [hoffer])
  | renew updateDay offer wanted =>
    cases updateDay with
    | false => cases h
    | true =>
      have hoffer : offer.filter wanted = some hl := by simpa [deeds] using h
      exact .inr ⟨wanted, by rw [(Option.filter_eq_some_iff.mp hoffer).1]⟩

/-! ### The deeds in a log -/

def isDeed : Action → Bool
  | .sendMessage _ => false
  | _ => true

def Outside.deeds (o : Outside) : List Action := o.log.filter isDeed

section Deeds

variable {τ : Type}

theorem deeds_message (message : Str) (c : Ctx τ) :
    (c.act (.sendMessage message)).outside.deeds = c.outside.deeds := by
  simp [Outside.deeds, isDeed]

theorem deeds_act {a : Action} (ha : isDeed a = true) (c : Ctx τ) :
    (c.act a).outside.deeds = c.outside.deeds ++ [a] := by
  simp [Outside.deeds, ha]

theorem deeds_writeLicense (env : Env) (hl : HostLicense) (c : Ctx τ) :
    ∃ r t, writeLicense env hl c = (.ok r, t) ∧ t.outside.deeds = c.outside.deeds ++ [.writeLicense hl] := by
  obtain ⟨r, hrun⟩ := GetLicenseTask.writeLicense_run env hl c
  exact ⟨r, _, hrun, by simp [GetLicenseTask.written, Outside.deeds, isDeed]⟩

/-- All the code does outside is to send messages. -/
def Silent (c t : Ctx τ) : Prop := t.outside.deeds = c.outside.deeds

theorem silent_seq (c t u : Ctx τ) (h : Silent c t) (h' : Silent t u) : Silent c u := h'.trans h

theorem silent_sendMessage (message : Str) : Moves Silent (Net.sendMessage message : Prog (Ctx τ) Exn Unit) :=
  deeds_message message

theorem silent_schedule (secs : Timed τ → ℤ) : Moves Silent (schedule secs) := fun _ => rfl

/-- Silent handlers add nothing to the deeds of the code they stand behind. -/
theorem deeds_catching {x : Prog (Ctx τ) Exn Unit} {clauses : Exn → Option (Prog (Ctx τ) Exn Unit)}
    (hsilent : ∀ e handler, clauses e = some handler → Moves Silent handler) (c : Ctx τ) :
    (catching x clauses c).2.outside.deeds = (x c).2.outside.deeds :=
  catching_moves silent_seq (Eq.refl (x c).2.outside.deeds) hsilent

/-- Code behind which nothing but silent code comes. -/
theorem deeds_bind {α β : Type} {x : Prog (Ctx τ) Exn α} {f : α → Prog (Ctx τ) Exn β}
    (hsilent : ∀ a, Moves Silent (f a)) (c : Ctx τ) :
    ((x >>= f) c).2.outside.deeds = (x c).2.outside.deeds :=
  bind_moves silent_seq (Eq.refl (x c).2.outside.deeds) fun a t _ => hsilent a t

/-- The deeds that code adds are among its actions. -/
theorem mem_newActions_iff {α : Type} {x : Prog (Ctx τ) Exn α} {c : Ctx τ} {new : List Action}
    (hlog : c.outside.log <+: (x c).2.outside.log)
    (hdeeds : (x c).2.outside.deeds = c.outside.deeds ++ new) {act : Action} (hact : isDeed act = true) :
    act ∈ newActions x c ↔ act ∈ new := by
  obtain ⟨actions, hactions⟩ := hlog
  have hnew : actions.filter isDeed = new := by
    rw [Outside.deeds, ← hactions, List.filter_append] at hdeeds
    exact List.append_cancel_left hdeeds
  rw [newActions_eq hactions.symm, ← hnew, List.mem_filter, and_iff_left hact]

end Deeds

/-! ### What a task finds out -/

/-- The search and the verifier have an answer, and it is no. -/
def unlicensed (env : Env) : Bool :=
  match isLicensed env with
  | .ok licensed => !licensed
  | _ => false

theorem unlicensed_iff {env : Env} : unlicensed env = true ↔ isLicensed env = .ok false := by
  unfold unlicensed
  cases isLicensed env with
  | ok licensed => cases licensed <;> simp
  | throw | undefined | stuck => simp

/-- The license in the reply to a request: the host is ACTIVE, and there is a text. -/
def Result.offer (result : Result) : Option HostLicense := do
  let hostStatus ← result.hostStatus
  let hostLicense ← result.hostLicense
  if hostStatus.id = LicHostStatus.active ∧ hostLicense.license ≠ [] then some hostLicense else none

/-- The license a request would bring. -/
def offered (env : Env) (attempt : ℤ) : Option HostLicense :=
  match (requestLicense env attempt ({ task := (), outside := { log := [], licFile := none } } : Ctx Unit)).1 with
  | .ok result => result.offer
  | _ => none

/-- There is no license file, or the license in it has an older month. -/
def wanted (env : Env) (file : Option Str) (hl : HostLicense) : Bool :=
  match isLicenseFile env with
  | .error _ => false
  | .ok false => true
  | .ok true =>
    match currentLicenseDate env file with
    | .ok date => hl.month ≠ 0 && hl.month > date.month
    | _ => false

def ProcessKillerTask.job (env : Env) (name : Str) : Job :=
  .enforce (isLicenseCheckDay env) (unlicensed env) name

def EventSinkTask.job (env : Env) : Job := .ask (unlicensed env) (offered env 60)

def GetLicenseTask.job (env : Env) (file : Option Str) : Job :=
  .renew (isLicenseUpdateDay env) (offered env 1) (wanted env file)

/-- What a request brings does not depend on who makes it. -/
theorem requestLicense_outcome {τ τ' : Type} (env : Env) (attempt : ℤ) (c : Ctx τ) (c' : Ctx τ') :
    (requestLicense env attempt c).1 = (requestLicense env attempt c').1 := by
  unfold requestLicense makeLicenseExtractor
  cases huri : env.uri <;> cases huid : generateMachineUid env <;> cases hclient : env.client <;>
    simp [bind_run]

theorem offered_of_ok {τ : Type} {env : Env} {attempt : ℤ} {c t : Ctx τ} {result : Result}
    (h : requestLicense env attempt c = (.ok result, t)) : offered env attempt = result.offer := by
  have hsame : (requestLicense env attempt
      ({ task := (), outside := { log := [], licFile := none } } : Ctx Unit)).1 = .ok result := by
    rw [requestLicense_outcome env attempt _ c, h]
  rw [offered, hsame]

theorem offered_of_not_ok {τ : Type} {env : Env} {attempt : ℤ} {c : Ctx τ}
    (h : ∀ result, (requestLicense env attempt c).1 ≠ .ok result) : offered env attempt = none := by
  unfold offered
  split
  · next result hok => exact absurd ((requestLicense_outcome env attempt c _).trans hok) (h result)
  · rfl

theorem Result.offer_eq_some_iff {result : Result} {hl : HostLicense} :
    result.offer = some hl ↔ ∃ status, result.hostStatus = some status ∧
      result.hostLicense = some hl ∧ status.id = LicHostStatus.active ∧ hl.license ≠ [] := by
  unfold Result.offer
  cases result.hostStatus with
  | none => simp
  | some status =>
    cases result.hostLicense with
    | none => simp
    | some hl' =>
      simp only [Option.bind_eq_bind, Option.bind_some, Option.ite_none_right_eq_some,
        Option.some.injEq, exists_eq_left']
      constructor
      · rintro ⟨hoffer, rfl⟩
        exact ⟨rfl, hoffer⟩
      · rintro ⟨rfl, hoffer⟩
        exact ⟨hoffer, rfl⟩

theorem Result.offer_none {result : Result} (h : result.hostLicense = none) : result.offer = none := by
  unfold Result.offer
  rw [h]
  cases result.hostStatus <;> rfl

theorem Result.offer_some {result : Result} {status : HostStatus} {hl : HostLicense}
    (hstatus : result.hostStatus = some status) (hlicense : result.hostLicense = some hl) :
    result.offer =
      if status.id = LicHostStatus.active ∧ hl.license ≠ [] then some hl else none := by
  unfold Result.offer
  rw [hstatus, hlicense]
  rfl

/-- A license is offered exactly if a request is answered with it. -/
theorem offered_eq_some_iff {env : Env} {attempt : ℤ} {hl : HostLicense} :
    offered env attempt = some hl ↔
      ∃ status, Receives env attempt status (some hl) ∧ status.id = LicHostStatus.active ∧ hl.license ≠ [] := by
  constructor
  · intro h
    unfold offered at h
    split at h
    · next result hok =>
      obtain ⟨status, hstatus, hlicense, hoffer⟩ := Result.offer_eq_some_iff.mp h
      exact ⟨status, requestLicense_ok_iff.mp ⟨result, _, Prod.ext hok rfl, hstatus, hlicense⟩, hoffer⟩
    · cases h
  · rintro ⟨status, hreceives, hoffer⟩
    obtain ⟨result, t, hrequest, hstatus, hlicense⟩ :=
      (requestLicense_ok_iff (c := { task := (), outside := { log := [], licFile := none } })).mpr hreceives
    rw [offered_of_ok hrequest]
    exact Result.offer_eq_some_iff.mpr ⟨status, hstatus, hlicense, hoffer⟩

/-- A request and what is done about its result, where that depends on the offer only. -/
theorem deeds_request {τ : Type} {env : Env} {attempt : ℤ} {f : Result → Prog (Ctx τ) Exn Unit}
    {c : Ctx τ} {g : Option HostLicense → List Action} (hnone : g none = [])
    (hafter : ∀ result, (f result (c.act (.makeLicenseExtractor attempt))).2.outside.deeds =
      (c.act (.makeLicenseExtractor attempt)).outside.deeds ++ g result.offer) :
    ((requestLicense env attempt >>= f) c).2.outside.deeds =
      c.outside.deeds ++ .makeLicenseExtractor attempt :: g (offered env attempt) := by
  have hstate := requestLicense_state env attempt c
  cases hrequest : requestLicense env attempt c with
  | mk outcome t =>
    rw [hrequest] at hstate
    subst hstate
    rw [bind_run, hrequest]
    cases outcome with
    | ok result =>
      dsimp only
      rw [offered_of_ok hrequest, hafter, deeds_act rfl, List.append_assoc, List.singleton_append]
    | throw | undefined | stuck =>
      rw [offered_of_not_ok (c := c) fun result hok => by simp [hrequest] at hok, hnone]
      exact deeds_act rfl c

/-! ### The process killer -/

theorem actions_deeds (env : Env) (name : Str) :
    (ProcessKillerTask.actions env name).filter isDeed = (ProcessKillerTask.job env name).deeds := by
  unfold ProcessKillerTask.actions ProcessKillerTask.job unlicensed
  cases isLicenseCheckDay env with
  | false => rfl
  | true =>
    cases isLicensed env with
    | ok licensed => cases licensed <;> rfl
    | throw | undefined | stuck => rfl

/-- The process killer kills on a check day without a license. -/
theorem ProcessKillerTask.deeds_svc (env : Env) (c : Ctx (Timed ProcessKillerTask)) :
    (svc env c).2.outside.deeds =
      c.outside.deeds ++ (job env c.task.own.processStoppingName).deeds := by
  rw [Outside.deeds, svc_log, List.filter_append, actions_deeds]
  rfl

/-! ### The event sink -/

namespace EventSinkTask

theorem deeds_writeLicense (env : Env) (hl : HostLicense) (c : Ctx Unit) :
    (writeLicense env hl c).2.outside.deeds = c.outside.deeds ++ [.writeLicense hl] := by
  have hact : (c.act (.writeLicense hl)).outside.deeds = c.outside.deeds ++ [.writeLicense hl] :=
    deeds_act rfl c
  have hsaved (content : Str) :
      ((c.act (.writeLicense hl)).setLicFile content).outside.deeds = c.outside.deeds ++ [.writeLicense hl] :=
    hact
  unfold writeLicense saveLicenseToFile
  cases env.save.opens with
  | false => exact hact
  | true => by_cases hfits : MessageFits hl <;> simp [bind_run, hfits, hsaved]

theorem silent_svcCatch (e : Exn) (handler : Prog (Ctx Unit) Exn Unit) (h : svcCatch e = some handler) :
    Moves Silent handler := by
  cases e with
  | processError | filesystemError | runtimeError =>
    cases h
    exact silent_sendMessage _
  | httpException =>
    cases h
    exact .ite (silent_sendMessage _) fun _ => rfl
  | jsonException | uriException | other => cases h

theorem deeds_handleResult (env : Env) (result : Result) (c : Ctx Unit) :
    (handleResult env result c).2.outside.deeds = c.outside.deeds ++ saves result.offer := by
  unfold handleResult
  cases hstatus : result.hostStatus with
  | none =>
    have hoffer : result.offer = none := by rw [Result.offer, hstatus]; rfl
    rw [hoffer]
    exact (List.append_nil _).symm
  | some status =>
    rw [bind_ok (deref_some status c), Net.sendMessage, bind_ok (update_run _ c)]
    have hmessage := deeds_message (hostStatusMessage status) c
    cases hlicense : result.hostLicense with
    | none =>
      rw [Result.offer_none hlicense, saves_none, List.append_nil]
      split <;> exact hmessage
    | some hl =>
      rw [Result.offer_some hstatus hlicense]
      by_cases hactive : status.id = LicHostStatus.active
      · by_cases htext : hl.license = []
        · simpa only [hactive, htext, ne_eq, not_true_eq_false, and_false, if_true, if_false, pure_run,
            saves_none, List.append_nil] using hmessage
        · simp only [hactive, htext, ne_eq, not_false_eq_true, and_true, if_true, saves_some]
          have hsilent (r : ℤ) : Moves Silent (pure () : Prog (Ctx Unit) Exn Unit) := fun _ => rfl
          rw [deeds_bind hsilent, deeds_writeLicense, hmessage]
      · simpa only [hactive, false_and, if_false, pure_run, saves_none, List.append_nil] using hmessage

/-- The event sink asks if there is no license, and sets about saving what it is offered. -/
theorem deeds_svc (env : Env) (c : Ctx Unit) :
    (svc env c).2.outside.deeds = c.outside.deeds ++ (job env).deeds := by
  rw [svc, deeds_catching silent_svcCatch]
  unfold svcBody job unlicensed
  cases hl : isLicensed env with
  | throw | undefined | stuck => exact (List.append_nil _).symm
  | ok licensed =>
    rw [bind_ok (exit_run _ c)]
    cases licensed with
    | true => exact (List.append_nil _).symm
    | false => exact deeds_request saves_none fun result => deeds_handleResult env result _

end EventSinkTask

/-! ### The license getter -/

namespace GetLicenseTask

theorem silent_svcCatch (e : Exn) (handler : Prog (Ctx (Timed GetLicenseTask)) Exn Unit)
    (h : svcCatch e = some handler) : Moves Silent handler := by
  cases e with
  | processError | filesystemError | runtimeError =>
    cases h
    exact (silent_sendMessage _).bind silent_seq fun _ => silent_schedule _
  | httpException =>
    cases h
    exact .ite ((silent_sendMessage _).bind silent_seq fun _ => silent_schedule _) fun _ => rfl
  | jsonException | uriException | other => cases h

variable (env : Env) (hl : HostLicense) (c : Ctx (Timed GetLicenseTask))

theorem deeds_storeNewer :
    (storeNewer env hl c).2.outside.deeds =
      match currentLicenseDate env c.outside.licFile with
      | .ok date => if hl.month > date.month then c.outside.deeds ++ [.writeLicense hl] else c.outside.deeds
      | _ => c.outside.deeds := by
  unfold storeNewer isCheckLicensesMonths
  rw [bind_assoc, bind_ok (read_run c)]
  cases hdate : currentLicenseDate env c.outside.licFile with
  | ok date =>
    by_cases hnewer : hl.month > date.month
    · obtain ⟨r, t, hwrite, hdeeds⟩ := deeds_writeLicense env hl c
      simp only [bind_run, exit_run, pure_run, hnewer, decide_true, if_true, hwrite]
      exact hdeeds
    · simp only [bind_run, exit_run, pure_run, hnewer, decide_false, if_false, Bool.false_eq_true]
  | throw e | undefined | stuck => rfl

theorem deeds_handleLicense :
    (handleLicense env hl c).2.outside.deeds =
      if wanted env c.outside.licFile hl then c.outside.deeds ++ [.writeLicense hl] else c.outside.deeds := by
  unfold handleLicense wanted
  cases hfile : isLicenseFile env with
  | error e => rfl
  | ok found =>
    rw [bind_ok (lift_ok found c)]
    cases found with
    | false =>
      obtain ⟨r, t, hwrite, hdeeds⟩ := deeds_writeLicense env hl c
      simp only [Bool.false_eq_true, if_false, if_true]
      rw [deeds_bind (fun _ => silent_schedule _), hwrite]
      exact hdeeds
    | true =>
      by_cases hmonth : hl.month = 0
      · simp only [hmonth, ne_eq, not_true_eq_false, if_false, if_true, decide_false, Bool.false_and]
        rw [deeds_bind (fun _ => silent_schedule _), silent_sendMessage]
        cases currentLicenseDate env c.outside.licFile <;> rfl
      · simp only [hmonth, ne_eq, not_false_eq_true, if_true]
        rw [deeds_bind (fun _ => silent_schedule _), deeds_storeNewer]
        cases currentLicenseDate env c.outside.licFile with
        | ok date => simp
        | throw | undefined | stuck => rfl

theorem deeds_handleResult (result : Result) :
    (handleResult env result c).2.outside.deeds =
      c.outside.deeds ++ saves (result.offer.filter (wanted env c.outside.licFile)) := by
  unfold handleResult
  cases hstatus : result.hostStatus with
  | none =>
    have hoffer : result.offer = none := by rw [Result.offer, hstatus]; rfl
    rw [hoffer]
    exact (List.append_nil _).symm
  | some status =>
    rw [bind_ok (deref_some status c), Net.sendMessage, bind_ok (update_run _ c)]
    have hmessage := deeds_message (hostStatusMessage status) c
    have hsilent (secs : Timed GetLicenseTask → ℤ) :
        (schedule secs (c.act (.sendMessage (hostStatusMessage status)))).2.outside.deeds = c.outside.deeds :=
      hmessage
    by_cases hactive : status.id = LicHostStatus.active
    · rw [if_pos hactive]
      cases hlicense : result.hostLicense with
      | none =>
        rw [Result.offer_none hlicense, Option.filter_none, saves_none, List.append_nil]
        exact hsilent _
      | some hl =>
        rw [Result.offer_some hstatus hlicense]
        by_cases htext : hl.license = []
        · simp only [htext, if_true, ne_eq, not_true_eq_false, and_false, if_false, Option.filter_none,
            saves_none, List.append_nil]
          exact hsilent _
        · simp only [hactive, htext, if_false, ne_eq, not_false_eq_true, and_true, if_true]
          rw [deeds_handleLicense, hmessage, Ctx.act_licFile, Option.filter_some]
          split
          · rfl
          · exact (List.append_nil _).symm
    · have hnone : result.offer.filter (wanted env c.outside.licFile) = none := by
        cases hlicense : result.hostLicense with
        | none => rw [Result.offer_none hlicense, Option.filter_none]
        | some hl =>
          rw [Result.offer_some hstatus hlicense, if_neg fun hoffer => hactive hoffer.1, Option.filter_none]
      rw [if_neg hactive, hnone, saves_none, List.append_nil]
      split <;> exact hsilent _

/-- The license getter asks on an update day, and sets about saving the offer it wants. -/
theorem deeds_svc : (svc env c).2.outside.deeds = c.outside.deeds ++ (job env c.outside.licFile).deeds := by
  rw [svc, deeds_catching silent_svcCatch]
  unfold svcBody job
  cases isLicenseUpdateDay env with
  | false => exact (List.append_nil _).symm
  | true =>
    refine deeds_request (g := fun offer => saves (offer.filter (wanted env c.outside.licFile)))
      rfl fun result => ?_
    rw [deeds_handleResult, Ctx.act_licFile]

end GetLicenseTask

end ItvpnAgent
