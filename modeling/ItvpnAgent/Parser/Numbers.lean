import ItvpnAgent.Kit.Numerals
import ItvpnAgent.Parser.Values

/-! The numeric settings. `atol` and `atoi` look at the front of a text only and
store what they find there in a `long` or an `int`, so a text behind the numeral
and a value that wraps pass the checks of `init` unseen. -/

namespace ItvpnAgent.Parser

open Kit

namespace NumberSetting

/-- What is left of a value in the type that holds the setting. -/
def stored : NumberSetting → ℤ → ℤ
  | dayLicenseUpdate => clampLong
  | dayLicenseCheck => clampLong
  | nextTryGetLicenseMins => storedInt
  | nextDayWaitingHours => storedInt

/-- The text is a numeral whose value is allowed. -/
def Valid (n : NumberSetting) (s : Str) : Prop := ∃ v, IsNumeral s v ∧ 1 ≤ v ∧ v ≤ n.bound

/-- The text begins with a numeral and what is stored of it is allowed. -/
def Passes (n : NumberSetting) (s : Str) : Prop :=
  ∃ v rest, Scans s v rest ∧ 1 ≤ n.stored v ∧ n.stored v ≤ n.bound

/-- The text begins with a numeral and something is lost of it: there is more than
blanks behind it, or its value does not fit. -/
def Distorted (n : NumberSetting) (s : Str) : Prop :=
  ∃ v rest, Scans s v rest ∧ ((∃ c ∈ rest, isSpace c = false) ∨ n.stored v ≠ v)

variable {n : NumberSetting} {s : Str}

theorem read_of_scans {v : ℤ} {rest : Str} (h : Scans s v rest) : n.read s = n.stored v := by
  cases n with
  | dayLicenseUpdate => exact atol_of_scans h
  | dayLicenseCheck => exact atol_of_scans h
  | nextTryGetLicenseMins => exact atoi_of_scans h
  | nextDayWaitingHours => exact atoi_of_scans h

theorem read_of_not_scans (h : ∀ v rest, ¬ Scans s v rest) : n.read s = 0 := by
  cases n with
  | dayLicenseUpdate => exact atol_of_not_scans h
  | dayLicenseCheck => exact atol_of_not_scans h
  | nextTryGetLicenseMins => exact atoi_of_not_scans h
  | nextDayWaitingHours => exact atoi_of_not_scans h

theorem bound_le (n : NumberSetting) : n.bound ≤ 60 := by cases n <;> decide

theorem stored_of_fitsInt {v : ℤ} (h : FitsInt v) : n.stored v = v := by
  cases n with
  | dayLicenseUpdate => exact clampLong_of_fitsInt h
  | dayLicenseCheck => exact clampLong_of_fitsInt h
  | nextTryGetLicenseMins => exact storedInt_of_fitsInt h
  | nextDayWaitingHours => exact storedInt_of_fitsInt h

theorem stored_of_bounds {v : ℤ} (hlow : 1 ≤ v) (hhigh : v ≤ n.bound) : n.stored v = v := by
  have hbound := n.bound_le
  exact stored_of_fitsInt ⟨by omega, by omega⟩

/-- The check looks at what is read. -/
theorem passes_iff : n.Passes s ↔ 1 ≤ n.read s ∧ n.read s ≤ n.bound := by
  constructor
  · rintro ⟨v, rest, hscans, hbounds⟩
    rwa [read_of_scans hscans]
  · intro hbounds
    by_cases hscans : ∃ v rest, Scans s v rest
    · obtain ⟨v, rest, hscans⟩ := hscans
      rw [read_of_scans hscans] at hbounds
      exact ⟨v, rest, hscans, hbounds⟩
    · have hzero : n.read s = 0 := read_of_not_scans fun v rest h => hscans ⟨v, rest, h⟩
      omega

theorem ne_nil_of_passes (h : n.Passes s) : s ≠ [] := by
  rintro rfl
  rw [passes_iff, read_nil] at h
  omega

theorem Valid.passes (h : n.Valid s) : n.Passes s := by
  obtain ⟨v, ⟨rest, hscans, -⟩, hlow, hhigh⟩ := h
  refine ⟨v, rest, hscans, ?_⟩
  rw [stored_of_bounds hlow hhigh]
  exact ⟨hlow, hhigh⟩

theorem Valid.not_distorted (h : n.Valid s) : ¬ n.Distorted s := by
  obtain ⟨v, ⟨rest, hscans, hblank⟩, hlow, hhigh⟩ := h
  rintro ⟨v', rest', hscans', hlost⟩
  obtain ⟨rfl, rfl⟩ := hscans.unique hscans'
  rcases hlost with ⟨c, hc, hnot⟩ | hwraps
  · rw [hblank c hc] at hnot
    cases hnot
  · exact hwraps (stored_of_bounds hlow hhigh)

/-- What passes and loses nothing is valid. -/
theorem Passes.valid (h : n.Passes s) (hkept : ¬ n.Distorted s) : n.Valid s := by
  obtain ⟨v, rest, hscans, hbounds⟩ := h
  have hfits : n.stored v = v := by
    by_contra hwraps
    exact hkept ⟨v, rest, hscans, .inr hwraps⟩
  have hblank : ∀ c ∈ rest, isSpace c = true := by
    intro c hc
    by_contra hnot
    exact hkept ⟨v, rest, hscans, .inl ⟨c, hc, Bool.eq_false_iff.mpr hnot⟩⟩
  rw [hfits] at hbounds
  exact ⟨v, ⟨rest, hscans, hblank⟩, hbounds⟩

end NumberSetting

/-! ### Acceptance -/

section Accepts

variable {readIni : Str → Except Exn PropTree} {files : Str → Option Str} {p : Parser} {root : PropTree}
  {s : NumberSetting → Str}

/-- Options made of the texts and numbers of the tree. -/
theorem exists_readFrom (hothers : ∀ t : TextSetting, ∃ value, Given root t.key value)
    (hs : ∀ n : NumberSetting, Given root n.key (s n)) :
    ∃ o, ReadFrom p root o ∧ ∀ n : NumberSetting, n.option o = n.read (s n) := by
  choose text htext using hothers
  let o : Options := {
    unp := text .unp
    prod := text .prod
    licApp := text .licApp
    agentId := text .agentId
    licFile := text .licFile
    servicePath := p.servicePath
    makeUidCmd := text .makeUidCmd
    uidFileName := text .uidFileName
    licFileName := Files.splitFileName (text .licFile)
    killFileName := text .killFileName
    logFilesPath := p.logFilePath
    dayLicenseCheck := atol (s .dayLicenseCheck)
    dayLicenseUpdate := atol (s .dayLicenseUpdate)
    openvpnFilePath := text .openvpnFilePath
    nextDayWaitingHours := atoi (s .nextDayWaitingHours)
    licenseManagerUri := text .licenseManagerUri
    nextTryGetLicenseMins := atoi (s .nextTryGetLicenseMins) }
  have htexts (t : TextSetting) : t.option o = text t := by cases t <;> rfl
  have hnumbers (n : NumberSetting) : n.option o = n.read (s n) := by cases n <;> rfl
  exact ⟨o, ⟨fun t => htexts t ▸ htext t, fun n => ⟨s n, hs n, hnumbers n⟩, rfl, rfl, rfl⟩, hnumbers⟩

/-- The number that is stored. -/
theorem option_of_init_zero (hroot : createRoot readIni files p.makeConfigFilePath = .ok root)
    (hs : ∀ n : NumberSetting, root.get n.key = some (s n)) (hok : (p.init readIni files).2 = 0)
    (n : NumberSetting) : n.option (p.init readIni files).1.options = n.read (s n) := by
  obtain ⟨root', hroot', hread⟩ := init_ok hok
  obtain rfl : root = root' := Except.ok.inj (hroot.symm.trans hroot')
  obtain ⟨value, hgiven, hvalue⟩ := (readFrom_of_readOptions hread).numbers n
  obtain rfl : value = s n := Option.some.inj (hgiven.1.symm.trans (hs n))
  exact hvalue

/-- With everything else in order, all depends on the four checks. -/
theorem init_zero_iff (hroot : createRoot readIni files p.makeConfigFilePath = .ok root)
    (hothers : ∀ t : TextSetting, ∃ value, Given root t.key value)
    (hs : ∀ n : NumberSetting, root.get n.key = some (s n)) :
    (p.init readIni files).2 = 0 ↔ ∀ n : NumberSetting, n.Passes (s n) := by
  constructor
  · intro hok n
    obtain ⟨root', -, hread⟩ := init_ok hok
    rw [NumberSetting.passes_iff, ← option_of_init_zero hroot hs hok n]
    exact inRange_iff.mp (readOptions_inRange hread) n
  · intro hpass
    obtain ⟨o, hfrom, hnumbers⟩ := exists_readFrom (p := { p with root }) hothers fun n =>
      ⟨hs n, NumberSetting.ne_nil_of_passes (hpass n)⟩
    have hrange : InRange o := inRange_iff.mpr fun n => by
      rw [hnumbers]
      exact NumberSetting.passes_iff.mp (hpass n)
    have hread : Parser.readOptions { p with root } = .ok o := readOptions_ok_iff.mpr ⟨hfrom, hrange⟩
    simp only [init, hroot, hread]

/-- `init` accepts exactly the valid numerals, and stores their values. -/
def AcceptsExactly (readIni : Str → Except Exn PropTree) (files : Str → Option Str) (p : Parser)
    (s : NumberSetting → Str) : Prop :=
  ((p.init readIni files).2 = 0 ↔ ∀ n : NumberSetting, n.Valid (s n)) ∧
  ((p.init readIni files).2 = 0 → ∀ (n : NumberSetting) (v : ℤ), IsNumeral (s n) v →
    n.option (p.init readIni files).1.options = v)

/-- It does so exactly if one of the texts fails its check anyway, or none of them
begins with a numeral of which something is lost. -/
theorem acceptsExactly_iff (hroot : createRoot readIni files p.makeConfigFilePath = .ok root)
    (hothers : ∀ t : TextSetting, ∃ value, Given root t.key value)
    (hs : ∀ n : NumberSetting, root.get n.key = some (s n)) :
    AcceptsExactly readIni files p s ↔
      (∃ n : NumberSetting, ¬ n.Passes (s n)) ∨ ∀ n : NumberSetting, ¬ n.Distorted (s n) := by
  have hzero := init_zero_iff hroot hothers hs
  constructor
  · rintro ⟨haccepts, -⟩
    by_cases hpass : ∀ n : NumberSetting, n.Passes (s n)
    · exact .inr fun n => (haccepts.mp (hzero.mpr hpass) n).not_distorted
    · exact .inl (not_forall.mp hpass)
  · intro hcases
    have hvalid (hpass : ∀ n : NumberSetting, n.Passes (s n)) (n : NumberSetting) : n.Valid (s n) := by
      rcases hcases with ⟨m, hm⟩ | hkept
      · exact absurd (hpass m) hm
      · exact (hpass n).valid (hkept n)
    refine ⟨⟨fun hok => hvalid (hzero.mp hok), fun h => hzero.mpr fun n => (h n).passes⟩,
      fun hok n v hnum => ?_⟩
    obtain ⟨rest, hscans, -⟩ := hnum
    obtain ⟨v', ⟨rest', hscans', -⟩, hlow, hhigh⟩ := hvalid (hzero.mp hok) n
    obtain ⟨rfl, -⟩ := hscans.unique hscans'
    rw [option_of_init_zero hroot hs hok, NumberSetting.read_of_scans hscans,
      NumberSetting.stored_of_bounds hlow hhigh]

end Accepts

/-! ### Texts that pass -/

/-- The shipped configuration with other numbers. -/
def numbersTree (s : NumberSetting → Str) : PropTree :=
  ⟨"CONFIG".toList, [
    ("day_license_update".toList, s .dayLicenseUpdate),
    ("day_license_check".toList, s .dayLicenseCheck),
    ("next_day_waiting_hours".toList, s .nextDayWaitingHours),
    ("next_try_get_license_mins".toList, s .nextTryGetLicenseMins)]⟩ ::
  (shippedTree "/usr/sbin/openvpn".toList).tail

theorem get_numbersTree (s : NumberSetting → Str) (n : NumberSetting) :
    (numbersTree s).get n.key = some (s n) := by cases n <;> rfl

theorem given_numbersTree (s : NumberSetting → Str) (t : TextSetting) :
    ∃ value, Given (numbersTree s) t.key value := by
  cases t <;> exact ⟨_, rfl, List.cons_ne_nil _ _⟩

/-- The shipped numbers with another one for the minutes. -/
def shippedNumbers (mins : Str) : NumberSetting → Str
  | .dayLicenseUpdate => "16".toList
  | .dayLicenseCheck => "11".toList
  | .nextTryGetLicenseMins => mins
  | .nextDayWaitingHours => "24".toList

theorem passes_shippedNumbers {mins : Str} (h : NumberSetting.nextTryGetLicenseMins.Passes mins)
    (n : NumberSetting) : n.Passes (shippedNumbers mins n) := by
  have hshipped {n : NumberSetting} {s : Str} (hread : 1 ≤ n.read s ∧ n.read s ≤ n.bound) :
      n.Passes s := NumberSetting.passes_iff.mpr hread
  cases n with
  | nextTryGetLicenseMins => exact h
  | dayLicenseUpdate => exact hshipped (s := "16".toList) (by decide)
  | dayLicenseCheck => exact hshipped (s := "11".toList) (by decide)
  | nextDayWaitingHours => exact hshipped (s := "24".toList) (by decide)

/-- 2 ^ 32 + 1 minutes pass for one. -/
theorem not_acceptsExactly_wrapped : ¬ AcceptsExactly
    (fun _ => .ok (numbersTree (shippedNumbers "4294967297".toList))) (fun _ => some []) Parser.started
    (shippedNumbers "4294967297".toList) := by
  rintro ⟨haccepts, -⟩
  have hscans : Scans "4294967297".toList 4294967297 [] := scanNumeral_eq_some_iff.mp (by decide)
  have hpass : NumberSetting.nextTryGetLicenseMins.Passes "4294967297".toList :=
    ⟨4294967297, [], hscans, by decide, by decide⟩
  have hroot : createRoot (fun _ => .ok (numbersTree (shippedNumbers "4294967297".toList)))
      (fun _ => some []) Parser.started.makeConfigFilePath =
      .ok (numbersTree (shippedNumbers "4294967297".toList)) := rfl
  have hok := (init_zero_iff hroot (given_numbersTree _) (get_numbersTree _)).mpr
    (passes_shippedNumbers hpass)
  obtain ⟨v, ⟨rest, hscans', -⟩, -, hhigh⟩ := haccepts.mp hok .nextTryGetLicenseMins
  obtain ⟨rfl, -⟩ := hscans.unique hscans'
  exact absurd hhigh (by decide)

theorem acceptsExactly_shipped : AcceptsExactly
    (fun _ => .ok (numbersTree (shippedNumbers "1".toList))) (fun _ => some []) Parser.started
    (shippedNumbers "1".toList) := by
  have hroot : createRoot (fun _ => .ok (numbersTree (shippedNumbers "1".toList)))
      (fun _ => some []) Parser.started.makeConfigFilePath =
      .ok (numbersTree (shippedNumbers "1".toList)) := rfl
  have hvalid {n : NumberSetting} {s : Str} {v : ℤ} (hscan : scanNumeral s = some (v, []))
      (hbounds : 1 ≤ v ∧ v ≤ n.bound) : n.Valid s :=
    ⟨v, ⟨[], scanNumeral_eq_some_iff.mp hscan, fun _ hc => absurd hc List.not_mem_nil⟩, hbounds⟩
  refine (acceptsExactly_iff hroot (given_numbersTree _) (get_numbersTree _)).mpr (.inr fun n => ?_)
  refine NumberSetting.Valid.not_distorted ?_
  cases n with
  | dayLicenseUpdate => exact hvalid (s := "16".toList) rfl (by decide)
  | dayLicenseCheck => exact hvalid (s := "11".toList) rfl (by decide)
  | nextTryGetLicenseMins => exact hvalid (s := "1".toList) rfl (by decide)
  | nextDayWaitingHours => exact hvalid (s := "24".toList) rfl (by decide)

end ItvpnAgent.Parser
