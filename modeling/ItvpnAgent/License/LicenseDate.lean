import Mathlib.Data.Bool.AllAny
import Mathlib.Data.List.Basic
import ItvpnAgent.Kit.Base64
import ItvpnAgent.Kit.Numerals
import ItvpnAgent.License.LicenseChecker

/-! The date inside a license. A license text is fields between dots; the third one
is the base64 of a date. What `save_license_to_file` has stored of such a text,
`current_license_date` reads back; on other texts it may read what nothing has
set, and the exact texts on which it does are those whose third field is missing
or decodes to something that does not begin with a date. -/

namespace ItvpnAgent.LicenseChecker

open Kit Prog

/-! ### Dates at the front of a text -/

/-- Three numerals with dashes between them, as `"%d-%d-%d"` wants them. -/
def BeginsWithDate (s : Str) (year month day : ℤ) : Prop :=
  ∃ s' s'' rest, Scans s year ('-' :: s') ∧ Scans s' month ('-' :: s'') ∧ Scans s'' day rest

theorem scanInt_eq_some_iff {s rest : Str} {w : ℤ} :
    scanInt s = some (w, rest) ↔ ∃ v, Scans s v rest ∧ w = storedInt v := by
  rw [scanInt, Option.map_eq_some_iff]
  constructor
  · rintro ⟨⟨u, rest'⟩, hscan, hpair⟩
    cases hpair
    obtain ⟨v, hv, rfl⟩ := scanLong_eq_some_iff.mp hscan
    exact ⟨v, hv, rfl⟩
  · rintro ⟨v, hv, rfl⟩
    exact ⟨(clampLong v, rest), scanLong_eq_some_iff.mpr ⟨v, hv, rfl⟩, rfl⟩

theorem scanDate_of_beginsWithDate {s : Str} {year month day : ℤ} (h : BeginsWithDate s year month day) :
    scanDate s = [storedInt year, storedInt month, storedInt day] := by
  obtain ⟨s', s'', rest, hyear, hmonth, hday⟩ := h
  have hyear := scanInt_eq_some_iff.mpr ⟨year, hyear, rfl⟩
  have hmonth := scanInt_eq_some_iff.mpr ⟨month, hmonth, rfl⟩
  have hday := scanInt_eq_some_iff.mpr ⟨day, hday, rfl⟩
  simp only [scanDate, hyear, hmonth, hday]

/-- `sscanf` sets all three variables exactly if the text begins with a date. -/
theorem length_scanDate_iff {s : Str} :
    (scanDate s).length = 3 ↔ ∃ year month day, BeginsWithDate s year month day := by
  constructor
  · intro h
    unfold scanDate at h
    split at h
    · cases h
    · next year s' hyear =>
      split at h
      · cases h
      · next month s'' hmonth =>
        split at h
        · cases h
        · next day rest hday =>
          obtain ⟨year', hyear, -⟩ := scanInt_eq_some_iff.mp hyear
          obtain ⟨month', hmonth, -⟩ := scanInt_eq_some_iff.mp hmonth
          obtain ⟨day', hday, -⟩ := scanInt_eq_some_iff.mp hday
          exact ⟨year', month', day', s', s'', rest, hyear, hmonth, hday⟩
      · cases h
    · cases h
  · rintro ⟨year, month, day, h⟩
    rw [scanDate_of_beginsWithDate h]
    rfl

/-! ### What is read of a file -/

theorem currentLicenseDate_field {env : Env} {file : Option Str} {field : Str}
    (h : (getlines '.' (readLicenseFromFile file))[2]? = some field) (hne : field ≠ []) :
    currentLicenseDate env file = match env.fromBase64 field with
      | .error what => .throw (.runtimeError what)
      | .ok str =>
        match scanDate (cStr str) with
        | [year, month, day] => .ok { day, month, year }
        | _ => .undefined := by
  unfold currentLicenseDate extractLicenseDate
  rw [h]
  cases field with
  | nil => exact absurd rfl hne
  | cons c rest => rfl

theorem currentLicenseDate_empty {env : Env} {file : Option Str}
    (h : (getlines '.' (readLicenseFromFile file))[2]? = some []) :
    currentLicenseDate env file = .ok ⟨0, 0, 0⟩ := by
  unfold currentLicenseDate extractLicenseDate
  rw [h]

/-- The date is made of what was read from the decoded third field, or is zero. -/
def SafeDate (env : Env) (file : Option Str) : Outcome Exn DateTime → Prop
  | .ok date => date = ⟨0, 0, 0⟩ ∨ ∃ field str,
    (getlines '.' (readLicenseFromFile file))[2]? = some field ∧ env.fromBase64 field = .ok str ∧
      scanDate (cStr str) = [date.year, date.month, date.day]
  | .throw _ => True
  | .undefined | .stuck => False

theorem dateReadable_iff {env : Env} {file : Option Str} :
    DateReadable env file ↔ ∃ field, (getlines '.' (readLicenseFromFile file))[2]? = some field ∧
      (field = [] ∨ ∀ str, env.fromBase64 field = .ok str →
        ∃ year month day, BeginsWithDate (cStr str) year month day) := by
  simp only [DateReadable, length_scanDate_iff]

/-- Whatever the file is: looking at its date is safe exactly if there is a third
field, and it is empty, fails to decode, or decodes to a text that begins with a
date. -/
theorem safeDate_iff (env : Env) (file : Option Str) :
    SafeDate env file (currentLicenseDate env file) ↔
      ∃ field, (getlines '.' (readLicenseFromFile file))[2]? = some field ∧
        (field = [] ∨ ∀ str, env.fromBase64 field = .ok str →
          ∃ year month day, BeginsWithDate (cStr str) year month day) := by
  rw [← dateReadable_iff]
  constructor
  · intro hsafe
    by_contra hnot
    rw [currentLicenseDate_undefined.mpr hnot] at hsafe
    exact hsafe
  · rintro ⟨field, hfield, hfield'⟩
    by_cases hne : field = []
    · subst hne
      rw [currentLicenseDate_empty hfield]
      exact .inl rfl
    · have hscan := hfield'.resolve_left hne
      rw [currentLicenseDate_field hfield hne]
      cases hdecode : env.fromBase64 field with
      | error what => trivial
      | ok str =>
        obtain ⟨year, month, day, hthree⟩ := List.length_eq_three.mp (hscan str hdecode)
        simp only [hthree]
        exact .inr ⟨field, str, hfield, hdecode, hthree⟩

/-- A file that cannot be opened reads as a text without fields. -/
theorem undefined_without_file : ¬ SafeDate
    (Env.still (shippedOptions "/usr/sbin/openvpn".toList) { day := 16, month := 1, year := 2020 }) none
    (currentLicenseDate
      (Env.still (shippedOptions "/usr/sbin/openvpn".toList) { day := 16, month := 1, year := 2020 }) none) := by
  have hundefined : currentLicenseDate
      (Env.still (shippedOptions "/usr/sbin/openvpn".toList) { day := 16, month := 1, year := 2020 }) none =
      .undefined := rfl
  rw [hundefined]
  exact id

/-! ### What is read of a saved license -/

/-- The base64 of a text of bytes. -/
def encodeText (s : Str) : Str := Base64.encode (s.map Char.toNat)

/-- `from_base64` decodes at least what the standard decoder decodes. -/
def DecodesBase64 (env : Env) : Prop :=
  ∀ text bytes, Base64.decode text = some bytes → env.fromBase64 text = .ok (bytes.map Char.ofNat)

/-- A date in decimal and anything behind it that does not lengthen the day. -/
inductive DateText (year month day : ℤ) : Str → Prop
  | intro {y m d tail : Str} (hyear : Denotes y year) (hmonth : Denotes m month) (hday : Denotes d day)
    (htail : NoDigitFirst tail) (hbytes : ∀ c ∈ tail, c.toNat < 256) :
    DateText year month day (y ++ '-' :: (m ++ '-' :: (d ++ tail)))

/-- Fields in base64 between dots, the third one that of a date. -/
inductive DatedLicense (year month day : ℤ) : Str → Prop
  | intro {f₀ f₁ date : Str} {rest : List Str} (hdate : DateText year month day date)
    (hfields : ∀ f ∈ f₀ :: f₁ :: rest, ∀ c ∈ f, Base64.IsBase64 c) :
    DatedLicense year month day (['.'].intercalate (f₀ :: f₁ :: encodeText date :: rest))

section Dated

variable {year month day : ℤ} {date license : Str}

theorem DateText.toNat_lt (h : DateText year month day date) : ∀ c ∈ date, c.toNat < 256 := by
  obtain ⟨hyear, hmonth, hday, -, hbytes⟩ := h
  intro c hc
  simp only [List.mem_append, List.mem_cons] at hc
  rcases hc with hc | rfl | hc | rfl | hc | hc
  · exact (hyear.toNat_bounds c hc).2
  · decide
  · exact (hmonth.toNat_bounds c hc).2
  · decide
  · exact (hday.toNat_bounds c hc).2
  · exact hbytes c hc

theorem DateText.ne_nil (h : DateText year month day date) : date ≠ [] := by
  obtain ⟨hyear, -, -, -, -⟩ := h
  exact List.append_ne_nil_of_left_ne_nil hyear.ne_nil _

/-- The C string of the decoded text still begins with the date. -/
theorem DateText.beginsWithDate (h : DateText year month day date) :
    BeginsWithDate (cStr date) year month day := by
  obtain ⟨hyear, hmonth, hday, htail, -⟩ := h
  rename_i y m d tail
  have hdash (s : Str) : cStr ('-' :: s) = '-' :: cStr s := rfl
  rw [cStr_append hyear.nul_notMem, hdash, cStr_append hmonth.nul_notMem, hdash,
    cStr_append hday.nul_notMem]
  have hstop (s : Str) : NoDigitFirst ('-' :: s) := by
    rintro c hc
    cases hc
    rfl
  exact ⟨_, _, _, hyear.scans_append (hstop _), hmonth.scans_append (hstop _),
    hday.scans_append (noDigitFirst_cStr htail)⟩

theorem fromBase64_encodeText {env : Env} (hdecodes : DecodesBase64 env) {s : Str}
    (h : ∀ c ∈ s, c.toNat < 256) : env.fromBase64 (encodeText s) = .ok s := by
  have hbytes : ∀ b ∈ s.map Char.toNat, b < 256 := by
    intro b hb
    obtain ⟨c, hc, rfl⟩ := List.mem_map.mp hb
    exact h c hc
  have hback : (s.map Char.toNat).map Char.ofNat = s := by
    rw [List.map_map]
    exact (List.map_congr_left fun c _ => Char.ofNat_toNat c).trans (List.map_id s)
  rw [encodeText, hdecodes _ _ (Base64.decode_encode hbytes), hback]

theorem isBase64_encodeText {s : Str} (h : ∀ c ∈ s, c.toNat < 256) : ∀ c ∈ encodeText s, Base64.IsBase64 c := by
  intro c hc
  refine Base64.isBase64_of_mem_encode (fun b hb => ?_) hc
  obtain ⟨c, hc, rfl⟩ := List.mem_map.mp hb
  exact h c hc

/-- All the fields of a dated license, that of the date included. -/
theorem DatedLicense.fields (h : DatedLicense year month day license) : ∃ f₀ f₁ date rest,
    DateText year month day date ∧ license = ['.'].intercalate (f₀ :: f₁ :: encodeText date :: rest) ∧
    ∀ f ∈ f₀ :: f₁ :: encodeText date :: rest, ∀ c ∈ f, Base64.IsBase64 c := by
  obtain ⟨hdate, hfields⟩ := h
  refine ⟨_, _, _, _, hdate, rfl, fun f hf => ?_⟩
  simp only [List.mem_cons] at hf
  rcases hf with rfl | rfl | rfl | hf
  · exact hfields _ (by simp)
  · exact hfields _ (by simp)
  · exact isBase64_encodeText hdate.toNat_lt
  · exact hfields _ (by simp [hf])

theorem DatedLicense.chars (h : DatedLicense year month day license) :
    ∀ c ∈ license, isSpace c = false ∧ c ≠ '\x00' := by
  obtain ⟨f₀, f₁, date, rest, -, rfl, hfields⟩ := h.fields
  have hbase (c : Char) (hc : Base64.IsBase64 c) : isSpace c = false ∧ c ≠ '\x00' := by
    constructor
    · rw [Bool.eq_false_iff]
      intro hspace
      simp only [isSpace, Bool.or_eq_true, decide_eq_true_eq] at hspace
      rcases hspace with ((((rfl | rfl) | rfl) | rfl) | rfl) | rfl <;> revert hc <;> decide
    · rintro rfl
      revert hc
      decide
  intro c hc
  rcases mem_intercalate hc with rfl | ⟨piece, hpiece, hc⟩
  · decide
  · exact hbase c (hfields piece hpiece c hc)

/-- Only the NUL at its end is dropped from the text. -/
theorem DatedLicense.stripNul (h : DatedLicense year month day license) :
    LicenseChecker.stripNul license = license ∧ LicenseChecker.stripNul (license ++ ['\x00']) = license := by
  constructor
  · rw [LicenseChecker.stripNul, if_neg]
    intro hlast
    exact (h.chars _ (List.mem_of_getLast? hlast)).2 rfl
  · rw [LicenseChecker.stripNul, if_pos (List.getLast?_concat ..), List.dropLast_concat]

/-- A dated license is read as one word, and its third field holds the date. -/
theorem DatedLicense.third (h : DatedLicense year month day license) : ∃ date,
    DateText year month day date ∧
    (getlines '.' (readLicenseFromFile (some license)))[2]? = some (encodeText date) := by
  have hword : firstWord license = license := firstWord_of_forall fun c hc => (h.chars c hc).1
  obtain ⟨f₀, f₁, date, rest, hdate, rfl, hfields⟩ := h.fields
  refine ⟨date, hdate, ?_⟩
  have hdots : ∀ f ∈ f₀ :: f₁ :: encodeText date :: rest, '.' ∉ f := fun f hf hmem =>
    absurd (hfields f hf '.' hmem) (by decide)
  have hne : encodeText date ≠ [] := Base64.encode_ne_nil (by simpa using hdate.ne_nil)
  rw [readLicenseFromFile, hword, getlines_intercalate (List.cons_ne_nil _ _) hdots]
  cases rest with
  | nil =>
    rw [if_neg (by simpa using hne)]
    rfl
  | cons f rest =>
    split <;> rfl

theorem DatedLicense.currentLicenseDate {env : Env} (hdecodes : DecodesBase64 env)
    (h : DatedLicense year month day license) (hyear : FitsInt year) (hmonth : FitsInt month)
    (hday : FitsInt day) : LicenseChecker.currentLicenseDate env (some license) = .ok ⟨day, month, year⟩ := by
  obtain ⟨date, hdate, hfield⟩ := h.third
  have hne : encodeText date ≠ [] := Base64.encode_ne_nil (by simpa using hdate.ne_nil)
  have hscan := scanDate_of_beginsWithDate hdate.beginsWithDate
  rw [storedInt_of_fitsInt hyear, storedInt_of_fitsInt hmonth, storedInt_of_fitsInt hday] at hscan
  rw [currentLicenseDate_field hfield hne, fromBase64_encodeText hdecodes hdate.toNat_lt]
  simp only [hscan]

end Dated

/-- Saving a dated license, with or without a NUL at its end, and reading the date
back is a round trip if the file opens and takes the whole text. -/
theorem saved_date_read {env : Env} (hdecodes : DecodesBase64 env) {year month day : ℤ}
    (hyear : FitsInt year) (hmonth : FitsInt month) (hday : FitsInt day) {text license : Str}
    (hdated : DatedLicense year month day text) (hlicense : license = text ∨ license = text ++ ['\x00'])
    (hopens : env.save.opens = true) (hwritten : text.length ≤ env.save.written) {τ : Type} (c : Ctx τ) :
    ∃ t, saveLicenseToFile env license c = (.ok true, t) ∧
      currentLicenseDate env t.outside.licFile = .ok { day, month, year } := by
  have hstrip : stripNul license = text := by
    rcases hlicense with rfl | rfl
    · exact hdated.stripNul.1
    · exact hdated.stripNul.2
  have hsave : saveLicenseToFile env license c = (.ok true, c.setLicFile text) := by
    rw [saveLicenseToFile, if_pos hopens, hstrip, List.take_of_length_le hwritten]
    rfl
  exact ⟨_, hsave, hdated.currentLicenseDate hdecodes hyear hmonth hday⟩

/-- A world with the standard decoder, where a save goes well. -/
def decoding : Env :=
  { Env.still (shippedOptions "/usr/sbin/openvpn".toList) { day := 16, month := 1, year := 2020 } with
    fromBase64 := fun text =>
      match Base64.decode text with
      | some bytes => .ok (bytes.map Char.ofNat)
      | none => .error "invalid character found in base64 string".toList
    save := { opens := true, written := 100 } }

theorem decodesBase64_decoding : DecodesBase64 decoding := by
  intro text bytes h
  simp only [decoding, h]

/-- A license until the end of February, its month with a leading zero. -/
def februaryLicense : Str := "aG9zdA==.cHJvZA==.MjAyMC0wMi0yOVQwMA==.c2lnbg==".toList

theorem dated_februaryLicense : DatedLicense 2020 2 29 februaryLicense := by
  have hdigits {s : Str} (hall : s.all Char.isDigit = true) : ∀ c ∈ s, c.isDigit = true :=
    List.all_eq_true.mp hall
  have hyear : Denotes "2020".toList 2020 := Denotes.plain (by decide) (hdigits rfl)
  have hmonth : Denotes "02".toList 2 := Denotes.plain (by decide) (hdigits rfl)
  have hday : Denotes "29".toList 29 := Denotes.plain (by decide) (hdigits rfl)
  have htail : NoDigitFirst "T00".toList := by
    rintro c hc
    cases hc
    rfl
  have hbytes : ∀ c ∈ "T00".toList, c.toNat < 256 := List.all_iff_forall_prop.mp rfl
  have hfields : ∀ f ∈ ["aG9zdA==".toList, "cHJvZA==".toList, "c2lnbg==".toList],
      ∀ c ∈ f, Base64.IsBase64 c := by
    have hall : (["aG9zdA==".toList, "cHJvZA==".toList, "c2lnbg==".toList].all fun f =>
        f.all fun c => Base64.IsBase64 c) = true := rfl
    exact fun f hf => List.all_iff_forall_prop.mp (List.all_eq_true.mp hall f hf)
  exact DatedLicense.intro (DateText.intro hyear hmonth hday htail hbytes) hfields

theorem saved_date_read_february : ∃ t,
    saveLicenseToFile decoding (februaryLicense ++ ['\x00'])
      { task := (), outside := { log := [], licFile := none } } = (.ok true, t) ∧
    currentLicenseDate decoding t.outside.licFile = .ok { day := 29, month := 2, year := 2020 } :=
  saved_date_read decodesBase64_decoding (by decide) (by decide) (by decide) dated_februaryLicense
    (.inr rfl) rfl (by decide) _

end ItvpnAgent.LicenseChecker
