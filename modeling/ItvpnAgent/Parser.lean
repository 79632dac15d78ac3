import ItvpnAgent.Constants
import ItvpnAgent.Tools

/-! The configuration parser of `parser_ini.cpp`, Linux side. The INI reader of
the property tree library is the parameter `readIni`; it gets the text behind
the byte-order-mark loop of `create_root`. `init` replaces the options as a whole
or not at all, and whatever it accepts lies in the ranges it checks. -/

namespace ItvpnAgent

open Kit

structure Options where
  unp : Str
  prod : Str
  licApp : Str
  agentId : Str
  licFile : Str
  servicePath : Str
  makeUidCmd : Str
  uidFileName : Str
  licFileName : Str
  killFileName : Str
  logFilesPath : Str
  dayLicenseCheck : ℤ
  dayLicenseUpdate : ℤ
  openvpnFilePath : Str
  nextDayWaitingHours : ℤ
  licenseManagerUri : Str
  nextTryGetLicenseMins : ℤ
  deriving DecidableEq, Repr

/-- A section of an INI file with its keys. -/
structure IniSection where
  name : Str
  keys : List (Str × Str)
  deriving DecidableEq, Repr

/-- The property tree of an INI file. -/
abbrev PropTree := List IniSection

/-- Value at a `section.key` path. -/
def PropTree.get (root : PropTree) (path : Str) : Option Str := do
  let name := upTo '.' path
  let found ← root.find? fun s => s.name = name
  let entry ← found.keys.find? fun e => e.1 = path.drop (name.length + 1)
  return entry.2

structure Parser where
  root : PropTree
  options : Options
  fileName : Str
  servicePath : Str
  logFilePath : Str
  configFilePath : Str
  deriving DecidableEq, Repr

namespace Parser

/-! ### Reading the file -/

def makeConfigFilePath (p : Parser) : Str := p.servicePath ++ p.fileName

/-- The loop that skips a byte-order mark: it reads characters above 127 and one
more. The result is `tellg`, which fails once the stream has met its end. -/
def skipBom : Str → ℕ → Option ℕ
  | [], _ => none
  | c :: rest, pos => if c.toNat > 127 then skipBom rest (pos + 1) else some (pos + 1)

/-- The text `create_root` leaves in the stream for the INI reader. -/
def iniText (content : Str) : Str :=
  match skipBom content 0 with
  | some pos => content.drop (pos - 1)
  | none => []

def createRoot (readIni : Str → Except Exn PropTree) (files : Str → Option Str) (fileName : Str) :
    Except Exn PropTree :=
  match files fileName with
  | none => throw (.runtimeError ("can't open ini file - ".toList ++ fileName))
  | some content => readIni (iniText content)

/-- An empty tree has no values and no errors; otherwise a missing or empty
value throws. -/
def getValue (p : Parser) (key : Str) : Except Exn Str :=
  if p.root = [] then pure []
  else
    match p.root.get key with
    | none => throw (.runtimeError ("No such node (".toList ++ key ++ ")".toList))
    | some [] => throw (.runtimeError (key ++ " is empty. Look at the ".toList ++ p.fileName))
    | some value => pure value

/-! ### The options -/

/-- A number that must lie in `1 .. bound`. -/
def getNumber (p : Parser) (read : Str → ℤ) (bound : ℤ) (message : Str → Str) (key : Str) :
    Except Exn ℤ := do
  let value ← p.getValue key
  let number := read value
  if number ≤ 0 ∨ number > bound then
    throw (.runtimeError (key ++ message value ++ ". Look at the ".toList ++ p.fileName))
  return number

def getDayLicenseUpdate (p : Parser) : Except Exn ℤ :=
  p.getNumber atol 31 (fun value => " isn't correct: ".toList ++ value) ConfigKeys.configDayLicenseUpdate

def getDayLicenseCheck (p : Parser) : Except Exn ℤ :=
  p.getNumber atol 31 (fun _ => " isn't correct".toList) ConfigKeys.configDayLicenseCheck

def getNextTryGetLicenseMins (p : Parser) : Except Exn ℤ :=
  p.getNumber atoi 60 (fun _ => " more than 60 secs".toList) ConfigKeys.configNextTryGetLic

def getNextDayWaitingHours (p : Parser) : Except Exn ℤ :=
  p.getNumber atoi 24 (fun _ => " more than 60 secs".toList) ConfigKeys.configNextDayWaitGet

/-- The lookups and checks of `init`, in its order. -/
def readOptions (p : Parser) : Except Exn Options := do
  let unp ← p.getValue ConfigKeys.licenseUnp
  let prod ← p.getValue ConfigKeys.licenseProd
  let agentId ← p.getValue ConfigKeys.licenseAgentId
  let licApp ← p.getValue ConfigKeys.filesLic
  let licFile ← p.getValue ConfigKeys.filesLicFileName
  let makeUidCmd ← p.getValue ConfigKeys.licenseMakeUidCmd
  let uidFileName ← p.getValue ConfigKeys.filesUidFileName
  let licenseManagerUri ← p.getValue ConfigKeys.licenseSrvUri
  let dayLicenseUpdate ← p.getDayLicenseUpdate
  let dayLicenseCheck ← p.getDayLicenseCheck
  let nextTryGetLicenseMins ← p.getNextTryGetLicenseMins
  let nextDayWaitingHours ← p.getNextDayWaitingHours
  let killFileName ← p.getValue ConfigKeys.filesKillFileName
  let openvpnFilePath ← p.getValue ConfigKeys.filesOpenvpnPath
  return {
    unp, prod, licApp, agentId, licFile, makeUidCmd, uidFileName, killFileName, dayLicenseCheck,
    dayLicenseUpdate, openvpnFilePath, nextDayWaitingHours, licenseManagerUri, nextTryGetLicenseMins
    servicePath := p.servicePath
    licFileName := Files.splitFileName licFile
    logFilesPath := p.logFilePath }

/-- Every class of `Exn` derives from `std::exception`, so every failure ends in
-1. The tree is replaced before the values are read. -/
def init (readIni : Str → Except Exn PropTree) (files : Str → Option Str) (p : Parser) :
    Parser × ℤ :=
  match createRoot readIni files p.makeConfigFilePath with
  | .error _ => (p, -1)
  | .ok root =>
    let p := { p with root }
    match p.readOptions with
    | .error _ => (p, -1)
    | .ok options => ({ p with options }, 0)

/-- The paths that `make_paths` takes from that of the configuration file. -/
def withPaths (p : Parser) : Parser :=
  let servicePath := Files.splitFilePath p.configFilePath
  { p with
    servicePath
    fileName := Files.splitFileName p.configFilePath
    logFilePath := servicePath ++ "logs".toList }

def makePaths (readIni : Str → Except Exn PropTree) (files : Str → Option Str) (p : Parser) :
    Parser × ℤ :=
  init readIni files p.withPaths

end Parser

/-! ### Accepted options -/

/-- Options that some successful `init` has set. -/
def Options.Accepted (o : Options) : Prop :=
  ∃ (readIni : Str → Except Exn PropTree) (files : Str → Option Str) (p : Parser),
    (p.init readIni files).2 = 0 ∧ (p.init readIni files).1.options = o

namespace Parser

theorem getNumber_bounds {p : Parser} {read : Str → ℤ} {bound v : ℤ} {message : Str → Str}
    {key : Str} (h : p.getNumber read bound message key = .ok v) : 1 ≤ v ∧ v ≤ bound := by
  obtain ⟨value, -, h⟩ := except_bind_ok.mp h
  dsimp only at h
  split at h
  · cases h
  · cases h
    omega

/-- The numbers of the options lie in the ranges `init` checks. -/
structure InRange (o : Options) : Prop where
  check : 1 ≤ o.dayLicenseCheck ∧ o.dayLicenseCheck ≤ 31
  update : 1 ≤ o.dayLicenseUpdate ∧ o.dayLicenseUpdate ≤ 31
  mins : 1 ≤ o.nextTryGetLicenseMins ∧ o.nextTryGetLicenseMins ≤ 60
  hours : 1 ≤ o.nextDayWaitingHours ∧ o.nextDayWaitingHours ≤ 24

theorem readOptions_inRange {p : Parser} {o : Options} (h : p.readOptions = .ok o) : InRange o := by
  simp only [readOptions, except_bind_ok] at h
  obtain ⟨_, -, _, -, _, -, _, -, _, -, _, -, _, -, _, -, update, hupdate, check, hcheck, mins, hmins,
    hours, hhours, _, -, _, -, h⟩ := h
  cases h
  exact ⟨getNumber_bounds hcheck, getNumber_bounds hupdate, getNumber_bounds hmins,
    getNumber_bounds hhours⟩

/-- What a successful `init` has done: the file was read and its values make up
the options. -/
theorem init_ok {readIni : Str → Except Exn PropTree} {files : Str → Option Str} {p : Parser}
    (h : (p.init readIni files).2 = 0) :
    ∃ root, createRoot readIni files p.makeConfigFilePath = .ok root ∧
      Parser.readOptions { p with root } = .ok (p.init readIni files).1.options := by
  unfold init at h ⊢
  cases hroot : createRoot readIni files p.makeConfigFilePath with
  | error e => simp [hroot] at h
  | ok root =>
    cases ho : Parser.readOptions { p with root } with
    | error e => simp [hroot, ho] at h
    | ok o => exact ⟨root, rfl, by simp [ho]⟩

end Parser

theorem Options.Accepted.inRange {o : Options} (h : o.Accepted) : Parser.InRange o := by
  obtain ⟨readIni, files, p, hok, rfl⟩ := h
  obtain ⟨root, -, hread⟩ := Parser.init_ok hok
  exact Parser.readOptions_inRange hread

/-! ### The shipped configuration -/

/-- The file `lic_check_l.ini` of the repository with shorter paths, as far as the
agent reads it, without the path of the VPN at its end. -/
def shippedHead : Str :=
  '[' :: ("CONFIG]\nday_license_update=16\nday_license_check=11\nnext_day_waiting_hours=24\n" ++
    "next_try_get_license_mins=1\n" ++
    "[LICENSE]\nprod=2\nunp=123456789\nagentId=FFFFFF000000\nmake_uid_cmd=-g -s --prod\n" ++
    "license_manager_uri=http://192.168.105.63/\n" ++
    "[FILES]\nkill_file_name=openvpn\nlic=/opt/itvpn/itvpn_lic\nlic_file_name=/opt/itvpn/license.lic\n" ++
    "uid_file_name=/opt/itvpn/license.uid\nopenvpn=").toList

def shippedIni (openvpn : Str) : Str := shippedHead ++ openvpn

def shippedTree (openvpn : Str) : PropTree := [
  ⟨"CONFIG".toList, [
    ("day_license_update".toList, "16".toList),
    ("day_license_check".toList, "11".toList),
    ("next_day_waiting_hours".toList, "24".toList),
    ("next_try_get_license_mins".toList, "1".toList)]⟩,
  ⟨"LICENSE".toList, [
    ("prod".toList, "2".toList),
    ("unp".toList, "123456789".toList),
    ("agentId".toList, "FFFFFF000000".toList),
    ("make_uid_cmd".toList, "-g -s --prod".toList),
    ("license_manager_uri".toList,
      "http://192.168.105.63/".toList)]⟩,
  ⟨"FILES".toList, [
    ("kill_file_name".toList, "openvpn".toList),
    ("lic".toList, "/opt/itvpn/itvpn_lic".toList),
    ("lic_file_name".toList, "/opt/itvpn/license.lic".toList),
    ("uid_file_name".toList, "/opt/itvpn/license.uid".toList),
    ("openvpn".toList, openvpn)]⟩]

/-- An INI reader for that file. -/
def readShipped (text : Str) : Except Exn PropTree :=
  if shippedHead.isPrefixOf text then .ok (shippedTree (text.drop shippedHead.length))
  else .error (.other "'=' character not found in line".toList)

theorem readShipped_shippedIni (openvpn : Str) :
    readShipped (shippedIni openvpn) = .ok (shippedTree openvpn) := by
  have hprefix : shippedHead.isPrefixOf (shippedIni openvpn) = true :=
    List.isPrefixOf_iff_prefix.mpr (List.prefix_append _ _)
  rw [readShipped, if_pos hprefix, shippedIni, List.drop_left]

def shippedOptions (openvpn : Str) : Options where
  unp := "123456789".toList
  prod := "2".toList
  licApp := "/opt/itvpn/itvpn_lic".toList
  agentId := "FFFFFF000000".toList
  licFile := "/opt/itvpn/license.lic".toList
  servicePath := "./".toList
  makeUidCmd := "-g -s --prod".toList
  uidFileName := "/opt/itvpn/license.uid".toList
  licFileName := "license.lic".toList
  killFileName := "openvpn".toList
  logFilesPath := "./logs".toList
  dayLicenseCheck := 11
  dayLicenseUpdate := 16
  openvpnFilePath := openvpn
  nextDayWaitingHours := 24
  licenseManagerUri := "http://192.168.105.63/".toList
  nextTryGetLicenseMins := 1

/-- The parser before its first `init`, started on `./lic_check_l.ini`. -/
def Parser.started : Parser where
  root := []
  options := shippedOptions []
  fileName := "lic_check_l.ini".toList
  servicePath := "./".toList
  logFilePath := "./logs".toList
  configFilePath := "./lic_check_l.ini".toList

theorem iniText_shippedIni (openvpn : Str) :
    Parser.iniText (shippedIni openvpn) = shippedIni openvpn := by
  have hcons (rest : Str) : Parser.iniText ('[' :: rest) = '[' :: rest := rfl
  rw [shippedIni, shippedHead, List.cons_append, hcons]

/-- The shipped configuration is accepted wherever it lies. -/
theorem init_shipped {files : Str → Option Str} {p : Parser} {openvpn : Str} (hne : openvpn ≠ [])
    (h : files p.makeConfigFilePath = some (shippedIni openvpn)) :
    p.init readShipped files = ({ p with
      root := shippedTree openvpn
      options := { shippedOptions openvpn with
        servicePath := p.servicePath
        logFilesPath := p.logFilePath } }, 0) := by
  have hroot : Parser.createRoot readShipped files p.makeConfigFilePath = .ok (shippedTree openvpn) := by
    simp only [Parser.createRoot, h, iniText_shippedIni, readShipped_shippedIni]
  have hoptions : Parser.readOptions { p with root := shippedTree openvpn } =
      .ok { shippedOptions openvpn with
        servicePath := p.servicePath
        logFilesPath := p.logFilePath } := by
    cases openvpn with
    | nil => exact absurd rfl hne
    | cons c rest => rfl
  simp only [Parser.init, hroot, hoptions]

theorem shippedOptions_accepted {openvpn : Str} (hne : openvpn ≠ []) :
    (shippedOptions openvpn).Accepted := by
  have hinit : Parser.started.init readShipped (fun _ => some (shippedIni openvpn)) = _ :=
    init_shipped hne rfl
  exact ⟨readShipped, _, Parser.started, by rw [hinit], by rw [hinit]; rfl⟩

end ItvpnAgent
