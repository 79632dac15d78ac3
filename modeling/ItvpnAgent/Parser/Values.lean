import ItvpnAgent.Parser

/-! What `init` accepts. The fourteen mandatory values are ten texts and four
numbers. `readOptions` succeeds exactly if all of them are in the tree, none is
empty and the numbers lie in their ranges; so a call of `init` replaces the options
by such values or leaves them, and no run of calls gets behind the first success. -/

namespace ItvpnAgent.Parser

open Kit

/-! ### The mandatory values -/

inductive TextSetting where
  | unp
  | prod
  | agentId
  | licApp
  | licFile
  | makeUidCmd
  | uidFileName
  | licenseManagerUri
  | killFileName
  | openvpnFilePath

namespace TextSetting

def key : TextSetting → Str
  | unp => ConfigKeys.licenseUnp
  | prod => ConfigKeys.licenseProd
  | agentId => ConfigKeys.licenseAgentId
  | licApp => ConfigKeys.filesLic
  | licFile => ConfigKeys.filesLicFileName
  | makeUidCmd => ConfigKeys.licenseMakeUidCmd
  | uidFileName => ConfigKeys.filesUidFileName
  | licenseManagerUri => ConfigKeys.licenseSrvUri
  | killFileName => ConfigKeys.filesKillFileName
  | openvpnFilePath => ConfigKeys.filesOpenvpnPath

/-- The member of the options that holds the text. -/
def option : TextSetting → Options → Str
  | unp => Options.unp
  | prod => Options.prod
  | agentId => Options.agentId
  | licApp => Options.licApp
  | licFile => Options.licFile
  | makeUidCmd => Options.makeUidCmd
  | uidFileName => Options.uidFileName
  | licenseManagerUri => Options.licenseManagerUri
  | killFileName => Options.killFileName
  | openvpnFilePath => Options.openvpnFilePath

end TextSetting

inductive NumberSetting where
  | dayLicenseUpdate
  | dayLicenseCheck
  | nextTryGetLicenseMins
  | nextDayWaitingHours
  deriving DecidableEq

namespace NumberSetting

def key : NumberSetting → Str
  | dayLicenseUpdate => ConfigKeys.configDayLicenseUpdate
  | dayLicenseCheck => ConfigKeys.configDayLicenseCheck
  | nextTryGetLicenseMins => ConfigKeys.configNextTryGetLic
  | nextDayWaitingHours => ConfigKeys.configNextDayWaitGet

/-- The largest value that passes the check. -/
def bound : NumberSetting → ℤ
  | dayLicenseUpdate => 31
  | dayLicenseCheck => 31
  | nextTryGetLicenseMins => 60
  | nextDayWaitingHours => 24

/-- The library function that makes the text a number. -/
def read : NumberSetting → Str → ℤ
  | dayLicenseUpdate => atol
  | dayLicenseCheck => atol
  | nextTryGetLicenseMins => atoi
  | nextDayWaitingHours => atoi

/-- The member of the options that holds the number. -/
def option : NumberSetting → Options → ℤ
  | dayLicenseUpdate => Options.dayLicenseUpdate
  | dayLicenseCheck => Options.dayLicenseCheck
  | nextTryGetLicenseMins => Options.nextTryGetLicenseMins
  | nextDayWaitingHours => Options.nextDayWaitingHours

theorem read_nil (n : NumberSetting) : n.read [] = 0 := by cases n <;> rfl

end NumberSetting

theorem inRange_iff {o : Options} :
    InRange o ↔ ∀ n : NumberSetting, 1 ≤ n.option o ∧ n.option o ≤ n.bound := by
  constructor
  · intro h n
    cases n with
    | dayLicenseUpdate => exact h.update
    | dayLicenseCheck => exact h.check
    | nextTryGetLicenseMins => exact h.mins
    | nextDayWaitingHours => exact h.hours
  · intro h
    exact ⟨h .dayLicenseCheck, h .dayLicenseUpdate, h .nextTryGetLicenseMins, h .nextDayWaitingHours⟩

/-- The tree has this value at the key, and it is not empty. -/
def Given (root : PropTree) (key value : Str) : Prop := root.get key = some value ∧ value ≠ []

/-- The options are the values of the tree, with the paths of the parser. -/
structure ReadFrom (p : Parser) (root : PropTree) (o : Options) : Prop where
  texts (t : TextSetting) : Given root t.key (t.option o)
  numbers (n : NumberSetting) : ∃ value, Given root n.key value ∧ n.option o = n.read value
  servicePath : o.servicePath = p.servicePath
  licFileName : o.licFileName = Files.splitFileName o.licFile
  logFilesPath : o.logFilesPath = p.logFilePath

/-- No text of the options is empty and their numbers are in range. -/
structure Sound (o : Options) : Prop where
  texts (t : TextSetting) : t.option o ≠ []
  inRange : InRange o

theorem ReadFrom.sound {p : Parser} {root : PropTree} {o : Options} (h : ReadFrom p root o)
    (hrange : InRange o) : Sound o where
  texts t := (h.texts t).2
  inRange := hrange

/-! ### One lookup -/

theorem Given.ne_nil {root : PropTree} {key value : Str} (h : Given root key value) : root ≠ [] := by
  rintro rfl
  cases h.1

theorem getValue_of_given {p : Parser} {key value : Str} (h : Given p.root key value) :
    p.getValue key = .ok value := by
  obtain ⟨hget, hne⟩ := h
  cases value with
  | nil => exact absurd rfl hne
  | cons c rest => rw [getValue, if_neg (Given.ne_nil ⟨hget, hne⟩), hget]; rfl

theorem given_of_getValue {p : Parser} {key value : Str} (hroot : p.root ≠ [])
    (h : p.getValue key = .ok value) : Given p.root key value := by
  rw [getValue, if_neg hroot] at h
  cases hget : p.root.get key with
  | none =>
    rw [hget] at h
    cases h
  | some found =>
    cases found with
    | nil =>
      rw [hget] at h
      cases h
    | cons c rest =>
      rw [hget] at h
      cases h
      exact ⟨hget, List.cons_ne_nil c rest⟩

theorem getNumber_of_given {p : Parser} {read : Str → ℤ} {bound : ℤ} {message : Str → Str}
    {key value : Str} (h : Given p.root key value) (hrange : 1 ≤ read value ∧ read value ≤ bound) :
    p.getNumber read bound message key = .ok (read value) := by
  rw [getNumber, getValue_of_given h, except_ok_bind]
  dsimp only
  rw [if_neg (by omega)]
  rfl

/-- A number was read from a value of the tree: the empty text, which is all an
empty tree gives, reads as 0 and is out of range. -/
theorem given_of_getNumber {p : Parser} {read : Str → ℤ} {bound v : ℤ} {message : Str → Str}
    {key : Str} (hread : read [] = 0) (h : p.getNumber read bound message key = .ok v) :
    ∃ value, Given p.root key value ∧ v = read value := by
  have hbounds := getNumber_bounds h
  obtain ⟨value, hvalue, h⟩ := except_bind_ok.mp h
  have hv : v = read value := by
    dsimp only at h
    split at h
    · cases h
    · cases h
      rfl
  by_cases hroot : p.root = []
  · rw [getValue, if_pos hroot] at hvalue
    cases hvalue
    omega
  · exact ⟨value, given_of_getValue hroot hvalue, hv⟩

/-! ### All lookups -/

theorem readFrom_of_readOptions {p : Parser} {o : Options} (h : p.readOptions = .ok o) :
    ReadFrom p p.root o := by
  simp only [readOptions, except_bind_ok] at h
  obtain ⟨unp, hunp, prod, hprod, agentId, hagentId, licApp, hlicApp, licFile, hlicFile, makeUidCmd,
    hmakeUidCmd, uidFileName, huidFileName, uri, huri, update, hupdate, check, hcheck, mins, hmins,
    hours, hhours, killFileName, hkill, openvpn, hopenvpn, h⟩ := h
  cases h
  have hupdate := given_of_getNumber (NumberSetting.read_nil .dayLicenseUpdate) hupdate
  have hcheck := given_of_getNumber (NumberSetting.read_nil .dayLicenseCheck) hcheck
  have hmins := given_of_getNumber (NumberSetting.read_nil .nextTryGetLicenseMins) hmins
  have hhours := given_of_getNumber (NumberSetting.read_nil .nextDayWaitingHours) hhours
  have hroot : p.root ≠ [] := hupdate.elim fun _ hgiven => hgiven.1.ne_nil
  refine ⟨fun t => ?_, fun n => ?_, rfl, rfl, rfl⟩
  · cases t with
    | unp => exact given_of_getValue hroot hunp
    | prod => exact given_of_getValue hroot hprod
    | agentId => exact given_of_getValue hroot hagentId
    | licApp => exact given_of_getValue hroot hlicApp
    | licFile => exact given_of_getValue hroot hlicFile
    | makeUidCmd => exact given_of_getValue hroot hmakeUidCmd
    | uidFileName => exact given_of_getValue hroot huidFileName
    | licenseManagerUri => exact given_of_getValue hroot huri
    | killFileName => exact given_of_getValue hroot hkill
    | openvpnFilePath => exact given_of_getValue hroot hopenvpn
  · cases n with
    | dayLicenseUpdate => exact hupdate
    | dayLicenseCheck => exact hcheck
    | nextTryGetLicenseMins => exact hmins
    | nextDayWaitingHours => exact hhours

theorem ReadFrom.getNumber {p : Parser} {o : Options} (h : ReadFrom p p.root o) (hrange : InRange o)
    (message : Str → Str) (n : NumberSetting) :
    p.getNumber n.read n.bound message n.key = .ok (n.option o) := by
  obtain ⟨value, hgiven, hvalue⟩ := h.numbers n
  have hbounds := inRange_iff.mp hrange n
  rw [hvalue] at hbounds ⊢
  exact getNumber_of_given hgiven hbounds

theorem readOptions_of_readFrom {p : Parser} {o : Options} (h : ReadFrom p p.root o)
    (hrange : InRange o) : p.readOptions = .ok o := by
  have htext (t : TextSetting) := getValue_of_given (h.texts t)
  have hnumber := h.getNumber hrange
  simp only [readOptions, except_bind_ok]
  refine ⟨_, htext .unp, _, htext .prod, _, htext .agentId, _, htext .licApp, _, htext .licFile,
    _, htext .makeUidCmd, _, htext .uidFileName, _, htext .licenseManagerUri,
    _, hnumber _ .dayLicenseUpdate, _, hnumber _ .dayLicenseCheck, _, hnumber _ .nextTryGetLicenseMins,
    _, hnumber _ .nextDayWaitingHours, _, htext .killFileName, _, htext .openvpnFilePath, ?_⟩
  show Except.ok { o with
    servicePath := p.servicePath
    licFileName := Files.splitFileName o.licFile
    logFilesPath := p.logFilePath } = Except.ok o
  rw [← h.servicePath, ← h.licFileName, ← h.logFilesPath]

/-- All of the values are there and in range, or nothing is returned. -/
theorem readOptions_ok_iff {p : Parser} {o : Options} :
    p.readOptions = .ok o ↔ ReadFrom p p.root o ∧ InRange o :=
  ⟨fun h => ⟨readFrom_of_readOptions h, readOptions_inRange h⟩, fun h => readOptions_of_readFrom h.1 h.2⟩

/-! ### Calls of `init` -/

section Calls

variable (readIni : Str → Except Exn PropTree)

/-- One call: the options become the values of the file, or stay what they were. -/
theorem init_cases (files : Str → Option Str) (p : Parser) :
    ((p.init readIni files).2 = 0 ∧ ∃ root, createRoot readIni files p.makeConfigFilePath = .ok root ∧
        ReadFrom p root (p.init readIni files).1.options ∧ InRange (p.init readIni files).1.options) ∨
      ((p.init readIni files).2 = -1 ∧ (p.init readIni files).1.options = p.options) := by
  cases hroot : createRoot readIni files p.makeConfigFilePath with
  | error e =>
    refine .inr ?_
    simp only [init, hroot, and_self]
  | ok root =>
    cases hread : Parser.readOptions { p with root } with
    | error e =>
      refine .inr ?_
      simp only [init, hroot, hread, and_self]
    | ok o =>
      obtain ⟨hfrom, hrange⟩ := readOptions_ok_iff.mp hread
      have hinit : p.init readIni files = ({ p with root, options := o }, 0) := by
        simp only [init, hroot, hread]
      rw [hinit]
      exact .inl ⟨rfl, root, rfl, ⟨hfrom.texts, hfrom.numbers, hfrom.servicePath, hfrom.licFileName,
        hfrom.logFilesPath⟩, hrange⟩

theorem init_sound (files : Str → Option Str) {p : Parser} (h : Sound p.options) :
    Sound (p.init readIni files).1.options := by
  rcases init_cases readIni files p with ⟨-, root, -, hfrom, hrange⟩ | ⟨-, hkept⟩
  · exact hfrom.sound hrange
  · rwa [hkept]

/-- The parser after calls of `init`, each on the files as they are then. -/
def reloads (p : Parser) (calls : List (Str → Option Str)) : Parser :=
  calls.foldl (fun p files => (p.init readIni files).1) p

theorem reloads_append (p : Parser) (calls calls' : List (Str → Option Str)) :
    p.reloads readIni (calls ++ calls') = (p.reloads readIni calls).reloads readIni calls' :=
  List.foldl_append

theorem reloads_sound (calls : List (Str → Option Str)) {p : Parser} (h : Sound p.options) :
    Sound (p.reloads readIni calls).options := by
  induction calls generalizing p with
  | nil => exact h
  | cons files calls ih => exact ih (init_sound readIni files h)

/-- For every file and every state before: a call returns 0 and sets all of the
options to values of the file, in their ranges, or returns -1 and sets none. From
the first call that returns 0, the options are sound for good. -/
theorem init_allOrNothing (p : Parser) :
    (∀ files, ((p.init readIni files).2 = 0 ∧
        ∃ root, createRoot readIni files p.makeConfigFilePath = .ok root ∧
          ReadFrom p root (p.init readIni files).1.options ∧
          InRange (p.init readIni files).1.options) ∨
      ((p.init readIni files).2 = -1 ∧ (p.init readIni files).1.options = p.options)) ∧
    ∀ before files after, ((p.reloads readIni before).init readIni files).2 = 0 →
      Sound (p.reloads readIni (before ++ files :: after)).options := by
  refine ⟨fun files => init_cases readIni files p, fun before files after hok => ?_⟩
  have hsound : Sound ((p.reloads readIni before).init readIni files).1.options := by
    rcases init_cases readIni files (p.reloads readIni before) with ⟨-, root, -, hfrom, hrange⟩ | ⟨hfail, -⟩
    · exact hfrom.sound hrange
    · rw [hok] at hfail
      cases hfail
  rw [reloads_append]
  exact reloads_sound readIni after hsound

end Calls

end ItvpnAgent.Parser
