import ItvpnAgent.Client.LicenseExtractor
import ItvpnAgent.Parser

/-! What the tasks see of the world while one of them runs, and what they do to
it. Everything that is not code of the agent is data here: the options in force,
the date, the output of commands, directory listings, the base64 decoder, the
constructors of the HTTP library, the network, the outcome of writing the
license file and of killing a process. -/

namespace ItvpnAgent

open Kit

/-- The part of `ACE_Date_Time` the agent uses. -/
structure DateTime where
  day : ℤ
  month : ℤ
  year : ℤ
  deriving DecidableEq, Repr

/-- An entry of a directory. -/
structure DirEntry where
  leaf : Str
  isDirectory : Bool
  deriving DecidableEq, Repr

/-- How a save goes: whether the file opens, and how many characters have
reached it when it is closed. -/
structure SaveOutcome where
  opens : Bool
  written : ℕ
  deriving DecidableEq, Repr

/-- The functions that look at the options in force. A task calls each of them at
most once in a run of its `svc`. -/
inductive OptionsReader where
  | isLicenseUpdateDay
  | isLicenseCheckDay
  | isLicenseFile
  | makeVerifyLicenseCmd
  | makeMachineUidCmd
  | makeLicenseExtractor
  deriving DecidableEq, Repr

/-- `options` are those that each function finds: a reload may come between two of
them. `bufsiz` is `BUFSIZ`. `exec` gives what a command had printed when it ended, or
the `what()` of a `process_error`; `listDir` the entries of a directory, nothing if it
does not exist, or the `what()` of a `filesystem_error`; `fromBase64` the decoded bytes
or the `what()` of a `runtime_error`. `uri` and `client` are the constructors of
`web::uri` and of the HTTP client. -/
structure Env where
  options : OptionsReader → Options
  bufsiz : ℕ
  today : DateTime
  exec : Str → Except Str Str
  listDir : Str → Except Str (Option (List DirEntry))
  fromBase64 : Str → Except Str Str
  uri : Except Exn Unit
  client : Except Exn Unit
  net : Net
  save : SaveOutcome
  terminates : Bool

/-- A world in which commands print nothing, no directory exists, every text
decodes to nothing and no request ends. -/
def Env.still (options : Options) (today : DateTime) : Env where
  options _ := options
  bufsiz := 8192
  today := today
  exec _ := .ok []
  listDir _ := .ok none
  fromBase64 _ := .ok []
  uri := .ok ()
  client := .ok ()
  net := { start := 0, attempts := [] }
  save := { opens := false, written := 0 }
  terminates := false

/-- What a task does that others can see. -/
inductive Action where
  | sendMessage (message : Str)
  | makeLicenseExtractor (attempt : ℤ)
  | writeLicense (hostLicense : HostLicense)
  | terminateProcess (name : Str)
  deriving DecidableEq, Repr

/-- The outside of a task: what it has done, newest last, and the license file,
`none` while it cannot be opened. -/
structure Outside where
  log : List Action
  licFile : Option Str
  deriving DecidableEq, Repr

/-- The state of a task's code: its members and the outside. -/
structure Ctx (τ : Type) where
  task : τ
  outside : Outside
  deriving DecidableEq, Repr

namespace Ctx

variable {τ : Type}

def act (a : Action) (c : Ctx τ) : Ctx τ :=
  { c with outside := { c.outside with log := c.outside.log ++ [a] } }

def setLicFile (content : Str) (c : Ctx τ) : Ctx τ :=
  { c with outside := { c.outside with licFile := some content } }

@[simp] theorem act_task (a : Action) (c : Ctx τ) : (c.act a).task = c.task := rfl

@[simp] theorem act_log (a : Action) (c : Ctx τ) :
    (c.act a).outside.log = c.outside.log ++ [a] := rfl

@[simp] theorem act_licFile (a : Action) (c : Ctx τ) :
    (c.act a).outside.licFile = c.outside.licFile := rfl

@[simp] theorem setLicFile_task (content : Str) (c : Ctx τ) :
    (c.setLicFile content).task = c.task := rfl

@[simp] theorem setLicFile_log (content : Str) (c : Ctx τ) :
    (c.setLicFile content).outside.log = c.outside.log := rfl

@[simp] theorem setLicFile_licFile (content : Str) (c : Ctx τ) :
    (c.setLicFile content).outside.licFile = some content := rfl

end Ctx

/-- What a piece of code has done to the outside. -/
def newActions {τ α : Type} (x : Prog (Ctx τ) Exn α) (c : Ctx τ) : List Action :=
  (x c).2.outside.log.drop c.outside.log.length

theorem newActions_eq {τ α : Type} {x : Prog (Ctx τ) Exn α} {c : Ctx τ} {new : List Action}
    (h : (x c).2.outside.log = c.outside.log ++ new) : newActions x c = new := by
  rw [newActions, h, List.drop_left]

namespace Net

/-- `Net::send_message`; callers ignore its result. -/
def sendMessage {τ : Type} (message : Str) : Prog (Ctx τ) Exn Unit :=
  Prog.update (Ctx.act (.sendMessage message))

end Net

/-! ### The texts of the notifications -/

def criticalMessage (message : Str) : Str := "0#Critical#".toList ++ message

def errorMessage (message : Str) : Str := "1#Error#".toList ++ message

def hostStatusMessage (hostStatus : HostStatus) : Str := "2#Host Status#".toList ++ hostStatus.name

namespace System

def terminateProcess {τ : Type} (env : Env) (name : Str) : Prog (Ctx τ) Exn Bool := do
  Prog.update (Ctx.act (.terminateProcess name))
  return env.terminates

end System

end ItvpnAgent
