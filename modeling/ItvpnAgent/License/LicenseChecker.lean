import ItvpnAgent.Client.Replies
import ItvpnAgent.License.Environment

/-! The class `LicenseChecker`: the two date tests, the search for the license
file, the verifier, the machine UID, saving and reading the license, and the
date inside it. -/

namespace ItvpnAgent.LicenseChecker

open Kit Prog

variable {τ : Type}

/-! ### Commands -/

/-- The first line a command prints. -/
def runProc (env : Env) (command : Str) : Except Exn Str :=
  match env.exec command with
  | .ok output => .ok (firstLine output)
  | .error what => .error (.processError what)

def makeVerifyLicenseCmd (options : Options) : Str :=
  cStr options.licApp ++ " -v --uid-file ".toList ++ cStr options.uidFileName ++
    " --lic-file ".toList ++ cStr options.licFile ++ " --prod ".toList ++ cStr options.prod

def makeMachineUidCmd (options : Options) : Str :=
  options.licApp ++ (" ".toList ++ options.makeUidCmd ++ " ".toList ++ options.prod)

/-! ### The license file and the verifier -/

/-- The loop of `find_file`: the last entry with that name decides nothing, any
one does. -/
def findEntry (fileName : Str) : List DirEntry → Bool → Bool
  | [], result => result
  | e :: rest, result =>
    if e.isDirectory then findEntry fileName rest result
    else if e.leaf = fileName then findEntry fileName rest true
    else findEntry fileName rest result

def findFile (env : Env) (dirPath fileName : Str) : Except Exn Bool :=
  match env.listDir dirPath with
  | .error what => .error (.filesystemError what)
  | .ok none => .ok false
  | .ok (some entries) => .ok (findEntry fileName entries false)

def isLicenseFile (env : Env) : Except Exn Bool :=
  findFile env (Files.splitFilePath (env.options .isLicenseFile).licFile)
    (env.options .isLicenseFile).licFileName

/-- The command of the verifier as this run forms it. -/
def verifyLicenseCmd (env : Env) : Str := makeVerifyLicenseCmd (env.options .makeVerifyLicenseCmd)

/-- `sprintf` prints the command and its NUL into an array of `BUFSIZ` characters. -/
def CommandFits (env : Env) : Prop := (verifyLicenseCmd env).length < env.bufsiz

instance (env : Env) : Decidable (CommandFits env) := inferInstanceAs (Decidable (_ < _))

/-- What `verify_license` makes of the output of the verifier. -/
def readVerdict (env : Env) : Except Exn Bool := do
  let line ← runProc env (verifyLicenseCmd env)
  if line = [] then
    throw (.runtimeError (verifyLicenseCmd env ++ " of output is empty".toList))
  else
    let code := upTo ':' line
    if code = "ERROR".toList then return false
    -- `compare` is 0 on equal strings, so this branch is the one of all other codes
    else if code ≠ "SUCCESS".toList then return true
    else throw (.runtimeError (verifyLicenseCmd env ++ " returned invalid responce".toList))

def verifyLicense (env : Env) : Outcome Exn Bool :=
  if CommandFits env then .ofExcept (readVerdict env) else .undefined

/-- The test of both consumers, `!is_license_file() || !verify_license()`,
negated: the verifier runs only if the file is there. -/
def isLicensed (env : Env) : Outcome Exn Bool :=
  match isLicenseFile env with
  | .ok true => verifyLicense env
  | .ok false => .ok false
  | .error e => .throw e

def generateMachineUid (env : Env) : Except Exn Str := do
  let line ← runProc env (makeMachineUidCmd (env.options .makeMachineUidCmd))
  if line = [] then
    throw (.runtimeError "does not make file by lic".toList)
  -- delete carriage return
  let line := if line.getLast? = some '\r' then line.dropLast else line
  if line.length ≠ Constants.uidSize then
    throw (.runtimeError ("size of UID isn't valid: ".toList ++ numeral line.length))
  return line

/-! ### Days -/

def isLicenseUpdateDay (env : Env) : Bool :=
  env.today.day ≥ (env.options .isLicenseUpdateDay).dayLicenseUpdate &&
    env.today.day ≤ (env.options .isLicenseUpdateDay).dayLicenseUpdate + Constants.checkDays

def isLicenseCheckDay (env : Env) : Bool :=
  env.today.day = (env.options .isLicenseCheckDay).dayLicenseCheck

/-! ### Saving and reading -/

/-- A trailing NUL is dropped from the text before it is saved. -/
def stripNul (license : Str) : Str :=
  if license.getLast? = some '\x00' then license.dropLast else license

/-- Opening truncates the file; its success alone is reported. -/
def saveLicenseToFile (env : Env) (license : Str) : Prog (Ctx τ) Exn Bool :=
  if env.save.opens then do
    update (Ctx.setLicFile ((stripNul license).take env.save.written))
    return true
  else return false

/-- A file that cannot be opened reads as the empty string. -/
def readLicenseFromFile (file : Option Str) : Str :=
  match file with
  | some content => firstWord content
  | none => []

/-- The numbers `sscanf` assigns for `"%d-%d-%d"`. -/
def scanDate (s : Str) : List ℤ :=
  match scanInt s with
  | none => []
  | some (year, '-' :: s) =>
    match scanInt s with
    | none => [year]
    | some (month, '-' :: s) =>
      match scanInt s with
      | none => [year, month]
      | some (day, _) => [year, month, day]
    | some (month, _) => [year, month]
  | some (year, _) => [year]

/-- Fewer than three fields, or fewer than three numbers in the decoded third
field, and the code reads what nothing has set. -/
def extractLicenseDate (env : Env) (lic : Str) : Outcome Exn DateTime :=
  match (getlines '.' lic)[2]? with
  | none => .undefined
  | some [] => .ok { day := 0, month := 0, year := 0 }
  | some field =>
    match env.fromBase64 field with
    | .error what => .throw (.runtimeError what)
    | .ok str =>
      match scanDate (cStr str) with
      | [year, month, day] => .ok { day, month, year }
      | _ => .undefined

/-- The date in the license file. -/
def currentLicenseDate (env : Env) (file : Option Str) : Outcome Exn DateTime :=
  extractLicenseDate env (readLicenseFromFile file)

def isCheckLicensesMonths (env : Env) (nextMonth : ℤ) : Prog (Ctx τ) Exn Bool := do
  let date ← exit (currentLicenseDate env (← read).outside.licFile)
  return nextMonth > date.month

/-- The stored license has a date, has none to look at, or fails to decode: the
code reads only what something has set. -/
def DateReadable (env : Env) (file : Option Str) : Prop :=
  ∃ field, (getlines '.' (readLicenseFromFile file))[2]? = some field ∧
    (field = [] ∨ ∀ str, env.fromBase64 field = .ok str → (scanDate (cStr str)).length = 3)

/-! ### The extractor -/

def requestOf (env : Env) (uid : Str) : RequestLicense where
  uid := uid
  unp := (env.options .makeLicenseExtractor).unp
  agent := (env.options .makeLicenseExtractor).agentId
  hostType := (env.options .makeLicenseExtractor).prod

/-- What `make_license_extractor` needs to have gone well before a request can
be sent: the address, the UID and the HTTP client. -/
def makeLicenseExtractor (env : Env) (attempt : ℤ) : Prog (Ctx τ) Exn RequestLicense := do
  update (Ctx.act (.makeLicenseExtractor attempt))
  lift env.uri
  let uid ← lift (generateMachineUid env)
  lift env.client
  return requestOf env uid

/-- The request both tasks make: the extractor is built and asked at once. -/
def requestLicense (env : Env) (attempt : ℤ) : Prog (Ctx τ) Exn Result := do
  let request ← makeLicenseExtractor env attempt
  within {} (LicenseExtractor.processingLicense request attempt env.net)

/-- `write_license` of `Get_License_Task`; the message it prints behind a save fits its
array of 100 characters whatever the two numbers are. -/
def writeLicense (env : Env) (hostLicense : HostLicense) : Prog (Ctx τ) Exn ℤ := do
  update (Ctx.act (.writeLicense hostLicense))
  if ← saveLicenseToFile env hostLicense.license then return 0 else return -1

/-! ### Errors of the search and of the verifier -/

theorem runProc_error {env : Env} {command : Str} {e : Exn} (h : runProc env command = .error e) :
    e.isRuntimeError = true := by
  unfold runProc at h
  split at h
  · cases h
  · cases h
    rfl

theorem isLicenseFile_error {env : Env} {e : Exn} (h : isLicenseFile env = .error e) :
    e.isRuntimeError = true := by
  unfold isLicenseFile findFile at h
  split at h
  · cases h
    rfl
  all_goals cases h

theorem readVerdict_error {env : Env} {e : Exn} (h : readVerdict env = .error e) :
    e.isRuntimeError = true := by
  rcases except_bind_eq_error.mp h with hrun | ⟨line, -, hline⟩
  · exact runProc_error hrun
  · dsimp only at hline
    split_ifs at hline <;> cases hline <;> rfl

theorem verifyLicense_of_fits {env : Env} (h : CommandFits env) :
    verifyLicense env = .ofExcept (readVerdict env) := if_pos h

theorem isLicensed_throw {env : Env} {e : Exn} (h : isLicensed env = .throw e) :
    e.isRuntimeError = true := by
  unfold isLicensed at h
  split at h
  · unfold verifyLicense at h
    split at h
    · cases hverdict : readVerdict env with
      | ok licensed =>
        rw [hverdict] at h
        cases h
      | error e' =>
        rw [hverdict] at h
        cases h
        exact readVerdict_error hverdict
    · cases h
  · cases h
  · next hfile =>
    cases h
    exact isLicenseFile_error hfile

theorem isLicensed_ne_stuck {env : Env} : isLicensed env ≠ .stuck := by
  unfold isLicensed verifyLicense
  split
  · split
    · cases readVerdict env <;> nofun
    · nofun
  · nofun
  · nofun

/-- The search and the verifier go wrong only where the license file is there and the
command is too long. -/
theorem isLicensed_undefined_iff {env : Env} :
    isLicensed env = .undefined ↔ isLicenseFile env = .ok true ∧ ¬ CommandFits env := by
  unfold isLicensed verifyLicense
  cases isLicenseFile env with
  | error e => simp
  | ok found =>
    cases found with
    | false => simp
    | true =>
      by_cases hfits : CommandFits env
      · cases readVerdict env <;> simp [hfits]
      · simp [hfits]

theorem currentLicenseDate_throw {env : Env} {file : Option Str} {e : Exn}
    (h : currentLicenseDate env file = .throw e) : e.isRuntimeError = true := by
  unfold currentLicenseDate extractLicenseDate at h
  split at h
  · cases h
  · cases h
  · split at h
    · cases h
      rfl
    · split at h <;> cases h

theorem currentLicenseDate_ne_stuck {env : Env} {file : Option Str} :
    currentLicenseDate env file ≠ .stuck := by
  unfold currentLicenseDate extractLicenseDate
  split
  · nofun
  · nofun
  · split
    · nofun
    · split <;> nofun

theorem generateMachineUid_error {env : Env} {e : Exn} (h : generateMachineUid env = .error e) :
    e.isRuntimeError = true := by
  rcases except_bind_eq_error.mp h with hrun | ⟨line, -, hline⟩
  · exact runProc_error hrun
  · dsimp only at hline
    split_ifs at hline <;> cases hline <;> rfl

theorem currentLicenseDate_undefined {env : Env} {file : Option Str} :
    currentLicenseDate env file = .undefined ↔ ¬ DateReadable env file := by
  unfold currentLicenseDate extractLicenseDate DateReadable
  split
  · next h => simp [h]
  · next h => simp [h]
  · next field hne h =>
    cases hb : env.fromBase64 field with
    | error what => simp [h, hb]
    | ok str =>
      have hne : field ≠ [] := hne
      rcases hs : scanDate (cStr str) with _ | ⟨_, _ | ⟨_, _ | ⟨_, _ | ⟨_, _⟩⟩⟩⟩ <;>
        simp [h, hb, hs, hne]

/-! ### The request -/

/-- The request and nothing else: what it meets decides its end. -/
def Requests (p : Exn → Prop) (P : HostStatus → Option HostLicense → Prop) (env : Env) (attempt : ℤ) :
    Prop :=
  Meets env.uri p fun _ => ∀ uid, generateMachineUid env = .ok uid →
    Meets env.client p fun _ => (requestOf env uid).isValid = true →
      ∀ a, env.net.attempts.find? (Attempt.ends (env.net.start + attempt * 1000000000)) = some a →
        Meets a.outcome p (Response.Yields p P)

theorem requestLicense_state (env : Env) (attempt : ℤ) (c : Ctx τ) :
    (requestLicense env attempt c).2 = c.act (.makeLicenseExtractor attempt) := by
  unfold requestLicense makeLicenseExtractor
  cases huri : env.uri <;> cases huid : generateMachineUid env <;> cases hclient : env.client <;>
    simp [bind_run]

theorem wp_requestLicense {p : Exn → Prop} {P : HostStatus → Option HostLicense → Prop}
    (hp : Clauses p) (env : Env) (attempt : ℤ) (c : Ctx τ) :
    wp (requestLicense env attempt)
        (fun res _ => ∃ status, res.hostStatus = some status ∧ P status res.hostLicense)
        (fun e _ => p e) c ↔ Requests p P env attempt := by
  have huid : ∀ (Q : Str → Prop),
      Meets (generateMachineUid env) p Q ↔ ∀ uid, generateMachineUid env = .ok uid → Q uid := by
    intro Q
    cases h : generateMachineUid env with
    | ok uid => simp [Meets]
    | error e => simp [Meets, hp.runtimeError e (generateMachineUid_error h)]
  simp only [requestLicense, makeLicenseExtractor, wp_bind, wp_update, wp_lift, wp_pure, wp_within,
    LicenseExtractor.wp_processingLicense hp, huid, Requests]

/-- A request is sent, and a reply of this content comes back. -/
structure Receives (env : Env) (attempt : ℤ) (status : HostStatus) (license : Option HostLicense) :
    Prop where
  uri : env.uri = .ok ()
  uid : ∃ uid, generateMachineUid env = .ok uid ∧ (requestOf env uid).isValid = true
  client : env.client = .ok ()
  delivers : env.net.Delivers attempt status license

theorem requestLicense_ok_iff {env : Env} {attempt : ℤ} {status : HostStatus}
    {license : Option HostLicense} {c : Ctx τ} :
    (∃ res t, requestLicense env attempt c = (.ok res, t) ∧ res.hostStatus = some status ∧
      res.hostLicense = license) ↔ Receives env attempt status license := by
  constructor
  · rintro ⟨res, t, h, hst, hlic⟩
    obtain ⟨request, _, hmake, h⟩ := bind_ok_iff.mp h
    simp only [makeLicenseExtractor, bind_ok_iff, lift_ok_iff] at hmake
    obtain ⟨_, _, -, _, _, ⟨huri, -⟩, uid, _, ⟨huid, -⟩, _, _, ⟨hclient, -⟩, hrequest⟩ := hmake
    cases hrequest
    cases hrun : LicenseExtractor.processingLicense (requestOf env uid) attempt env.net {} with
    | mk o r =>
      rw [within_run, hrun, Prod.mk.injEq] at h
      obtain ⟨rfl, -⟩ := h
      obtain ⟨hvalid, hdelivers⟩ :=
        LicenseExtractor.processingLicense_ok_iff.mp ⟨res, r, hrun, hst, hlic⟩
      exact ⟨huri, ⟨uid, huid, hvalid⟩, hclient, hdelivers⟩
  · rintro ⟨huri, ⟨uid, huid, hvalid⟩, hclient, hdelivers⟩
    obtain ⟨res, r, hrun, hst, hlic⟩ :=
      LicenseExtractor.processingLicense_ok_iff.mpr ⟨hvalid, hdelivers⟩
    refine ⟨res, c.act (.makeLicenseExtractor attempt), ?_, hst, hlic⟩
    have hmake : makeLicenseExtractor env attempt c =
        (.ok (requestOf env uid), c.act (.makeLicenseExtractor attempt)) := by
      simp [makeLicenseExtractor, bind_run, huri, huid, hclient]
    rw [requestLicense, bind_ok hmake, within_run, hrun]

theorem receives_unique {env : Env} {attempt : ℤ} {status status' : HostStatus}
    {license license' : Option HostLicense} (h : Receives env attempt status license)
    (h' : Receives env attempt status' license') : status = status' ∧ license = license' := by
  obtain ⟨res, t, hrun, hst, hlic⟩ :=
    (requestLicense_ok_iff (c := { task := (), outside := { log := [], licFile := none } })).mpr h
  obtain ⟨res', t', hrun', hst', hlic'⟩ := requestLicense_ok_iff.mpr h'
  cases hrun.symm.trans hrun'
  exact ⟨Option.some.inj (hst.symm.trans hst'), hlic.symm.trans hlic'⟩

/-! ### What code does to the outside -/

/-- A relation between the states before and after a piece of code that every
stroke of the code is in, if the code writes such licenses only. -/
structure Strokes (R : Ctx τ → Ctx τ → Prop) (licenses : HostLicense → Prop) : Prop where
  self : ∀ c, R c c
  seq : ∀ c t u, R c t → R t u → R c u
  act : ∀ c a, (∀ hl, a = .writeLicense hl → licenses hl) → R c (c.act a)
  setLicFile : ∀ c content, R c (c.setLicFile content)

namespace Strokes

variable {R : Ctx τ → Ctx τ → Prop} {licenses : HostLicense → Prop} (h : Strokes R licenses)
include h

theorem moves_pure {α : Type} (a : α) : Moves R (pure a : Prog (Ctx τ) Exn α) := fun c => h.self c

theorem moves_sendMessage (message : Str) : Moves R (Net.sendMessage message : Prog (Ctx τ) Exn Unit) :=
  fun c => h.act c _ nofun

theorem moves_writeLicense (env : Env) {hl : HostLicense} (hwrites : licenses hl) :
    Moves R (writeLicense env hl : Prog (Ctx τ) Exn ℤ) := by
  intro c
  have hact : R c (c.act (.writeLicense hl)) := h.act c _ fun hl' hsame => by
    cases hsame
    exact hwrites
  unfold writeLicense saveLicenseToFile
  cases env.save.opens with
  | true => exact h.seq _ _ _ hact (h.setLicFile _ _)
  | false => exact hact

/-- The status of a reply is reported before anything is done about it. -/
theorem moves_reported {result : Result} {next : HostStatus → Prog (Ctx τ) Exn Unit}
    (hnext : ∀ status, result.hostStatus = some status → Moves R (next status)) :
    Moves R (deref result.hostStatus >>= fun status =>
      Net.sendMessage (hostStatusMessage status) >>= fun _ => next status) := by
  intro c
  refine bind_moves h.seq ?_ fun status t hderef => ?_
  · cases result.hostStatus <;> exact h.self c
  · obtain ⟨hstatus, -⟩ := deref_ok_iff.mp hderef
    exact ((h.moves_sendMessage _).bind h.seq fun _ => hnext status hstatus) t

theorem requestLicense_state (env : Env) (attempt : ℤ) (c : Ctx τ) :
    R c (requestLicense env attempt c).2 := by
  rw [LicenseChecker.requestLicense_state]
  exact h.act c _ nofun

/-- Any actions but the writing of licenses. -/
theorem acts (actions : List Action) (hother : ∀ hl, .writeLicense hl ∉ actions) (c : Ctx τ) :
    R c { c with outside := { c.outside with log := c.outside.log ++ actions } } := by
  induction actions generalizing c with
  | nil =>
    rw [List.append_nil]
    exact h.self c
  | cons a actions ih =>
    have hact : R c (c.act a) := h.act c a fun hl hsame => absurd (hsame ▸ List.mem_cons_self) (hother hl)
    have hrest := ih (fun hl hmem => hother hl (List.mem_cons_of_mem _ hmem)) (c.act a)
    simp only [Ctx.act, List.append_assoc, List.singleton_append] at hrest
    exact h.seq _ _ _ hact hrest

end Strokes

end ItvpnAgent.LicenseChecker
