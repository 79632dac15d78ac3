import ItvpnAgent.Kit.Text

/-! The tables of `constants.dat` that the agent reads, and the classes of
exceptions its code and the libraries under it throw. -/

namespace ItvpnAgent

open Kit

namespace ConfigKeys

def filesLic : Str := "FILES.lic".toList
def filesLicFileName : Str := "FILES.lic_file_name".toList
def filesUidFileName : Str := "FILES.uid_file_name".toList
def filesKillFileName : Str := "FILES.kill_file_name".toList
def filesOpenvpnPath : Str := "FILES.openvpn".toList
def licenseMakeUidCmd : Str := "LICENSE.make_uid_cmd".toList
def licenseProd : Str := "LICENSE.prod".toList
def licenseAgentId : Str := "LICENSE.agentId".toList
def licenseUnp : Str := "LICENSE.unp".toList
def licenseSrvUri : Str := "LICENSE.license_manager_uri".toList
def configDayLicenseUpdate : Str := "CONFIG.day_license_update".toList
def configDayLicenseCheck : Str := "CONFIG.day_license_check".toList
def configNextTryGetLic : Str := "CONFIG.next_try_get_license_mins".toList
def configNextDayWaitGet : Str := "CONFIG.next_day_waiting_hours".toList

end ConfigKeys

namespace LicHostStatus

def active : ℤ := 1
def suspended : ℤ := 2

end LicHostStatus

namespace Constants

def uidSize : ℕ := 58
def checkDays : ℤ := 5

end Constants

namespace ErrorCode

def mimeTypes : ℤ := 12010

end ErrorCode

/-- Thrown objects by class, with their `what()`. `process_error` and
`filesystem_error` derive from `runtime_error`; `http_exception`,
`json_exception` and `uri_exception` derive from `std::exception` only, as
`other` does. -/
inductive Exn where
  | processError (what : Str)
  | filesystemError (what : Str)
  | runtimeError (what : Str)
  | httpException (what : Str) (code : ℤ)
  | jsonException (what : Str)
  | uriException (what : Str)
  | other (what : Str)
  deriving DecidableEq, Repr

namespace Exn

def what : Exn → Str
  | processError w | filesystemError w | runtimeError w | httpException w _ => w
  | jsonException w | uriException w | other w => w

/-- Matched by `catch (const std::runtime_error &)`. -/
def isRuntimeError : Exn → Bool
  | processError _ | filesystemError _ | runtimeError _ => true
  | _ => false

end Exn

/-! ### Sequences that may throw -/

section Except

variable {ε α β : Type}

theorem except_bind_ok {x : Except ε α} {f : α → Except ε β} {b : β} :
    (x >>= f) = .ok b ↔ ∃ a, x = .ok a ∧ f a = .ok b := by
  cases x with
  | error e => simp [bind, Except.bind]
  | ok a => simp [bind, Except.bind]

theorem except_bind_eq_error {x : Except ε α} {f : α → Except ε β} {e : ε} :
    (x >>= f) = .error e ↔ x = .error e ∨ ∃ a, x = .ok a ∧ f a = .error e := by
  cases x with
  | error e' => simp [bind, Except.bind]
  | ok a => simp [bind, Except.bind]

@[simp] theorem except_ok_bind (a : α) (f : α → Except ε β) : (Except.ok a >>= f) = f a := rfl

end Except

end ItvpnAgent
