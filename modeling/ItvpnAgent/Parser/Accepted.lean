import ItvpnAgent.Parser.Numbers

/-! The options some configuration file leads to: all texts are free but for not
being empty, all numbers within their ranges, and the name of the license file is
taken from its path. -/

namespace ItvpnAgent

open Kit

namespace Parser

/-- A configuration with these options. -/
def optionsTree (o : Options) : PropTree :=
  let number (n : NumberSetting) : Str := numeral (n.option o).toNat
  [⟨"CONFIG".toList, [
      ("day_license_update".toList, number .dayLicenseUpdate),
      ("day_license_check".toList, number .dayLicenseCheck),
      ("next_day_waiting_hours".toList, number .nextDayWaitingHours),
      ("next_try_get_license_mins".toList, number .nextTryGetLicenseMins)]⟩,
    ⟨"LICENSE".toList, [
      ("prod".toList, o.prod),
      ("unp".toList, o.unp),
      ("agentId".toList, o.agentId),
      ("make_uid_cmd".toList, o.makeUidCmd),
      ("license_manager_uri".toList, o.licenseManagerUri)]⟩,
    ⟨"FILES".toList, [
      ("kill_file_name".toList, o.killFileName),
      ("lic".toList, o.licApp),
      ("lic_file_name".toList, o.licFile),
      ("uid_file_name".toList, o.uidFileName),
      ("openvpn".toList, o.openvpnFilePath)]⟩]

theorem get_optionsTree_text (o : Options) (t : TextSetting) :
    (optionsTree o).get t.key = some (t.option o) := by cases t <;> rfl

theorem get_optionsTree_number (o : Options) (n : NumberSetting) :
    (optionsTree o).get n.key = some (numeral (n.option o).toNat) := by cases n <;> rfl

/-- A number in its range is read from its numeral. -/
theorem NumberSetting.read_numeral {n : NumberSetting} {v : ℤ} (hlow : 1 ≤ v) (hhigh : v ≤ n.bound) :
    n.read (numeral v.toNat) = v := by
  have hv : ((v.toNat : ℕ) : ℤ) = v := Int.toNat_of_nonneg (by omega)
  rw [read_of_scans (scans_numeral v.toNat), hv, stored_of_bounds hlow hhigh]

theorem readFrom_optionsTree {o : Options} (h : Sound o)
    (hname : o.licFileName = Files.splitFileName o.licFile) {p : Parser}
    (hservice : o.servicePath = p.servicePath) (hlog : o.logFilesPath = p.logFilePath) :
    ReadFrom p (optionsTree o) o where
  texts t := ⟨get_optionsTree_text o t, h.texts t⟩
  numbers n := by
    obtain ⟨hlow, hhigh⟩ := inRange_iff.mp h.inRange n
    refine ⟨numeral (n.option o).toNat, ⟨get_optionsTree_number o n, Nat.toDigits_ne_nil⟩, ?_⟩
    rw [NumberSetting.read_numeral hlow hhigh]
  servicePath := hservice
  licFileName := hname
  logFilesPath := hlog

end Parser

/-- Exactly these options can be set by a successful `init`. -/
theorem Options.accepted_iff {o : Options} :
    o.Accepted ↔ Parser.Sound o ∧ o.licFileName = Files.splitFileName o.licFile := by
  constructor
  · rintro ⟨readIni, files, p, hok, rfl⟩
    obtain ⟨root, -, hread⟩ := Parser.init_ok hok
    obtain ⟨hfrom, hrange⟩ := Parser.readOptions_ok_iff.mp hread
    exact ⟨hfrom.sound hrange, hfrom.licFileName⟩
  · rintro ⟨hsound, hname⟩
    let p : Parser := { Parser.started with
      servicePath := o.servicePath
      logFilePath := o.logFilesPath }
    have hread : Parser.readOptions { p with root := Parser.optionsTree o } = .ok o :=
      Parser.readOptions_ok_iff.mpr ⟨Parser.readFrom_optionsTree hsound hname rfl rfl, hsound.inRange⟩
    have hinit : p.init (fun _ => .ok (Parser.optionsTree o)) (fun _ => some []) =
        ({ p with root := Parser.optionsTree o, options := o }, 0) := by
      simp only [Parser.init, Parser.createRoot, hread]
    exact ⟨_, _, p, by rw [hinit], by rw [hinit]⟩

/-- Other texts with the numbers of accepted options. -/
theorem Options.Accepted.with_texts {o o' : Options} (h : o.Accepted)
    (hnumbers : ∀ n : Parser.NumberSetting, n.option o' = n.option o)
    (htexts : ∀ t : Parser.TextSetting, t.option o' ≠ [])
    (hname : o'.licFileName = Files.splitFileName o'.licFile) : o'.Accepted := by
  refine Options.accepted_iff.mpr ⟨⟨htexts, Parser.inRange_iff.mpr fun n => ?_⟩, hname⟩
  rw [hnumbers n]
  exact Parser.inRange_iff.mp h.inRange n

end ItvpnAgent
