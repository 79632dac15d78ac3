import ItvpnAgent.Kit.CommandLine
import ItvpnAgent.License.LicenseChecker
import ItvpnAgent.Parser.Accepted

/-! The call of the verifier. `make_verify_license_cmd` prints four configured
values into one buffer without quoting them and `run_proc` lets the process library
split the line again, so the verifier gets the configured arguments only if the
line fits the buffer and each value is one argument of it. -/

namespace ItvpnAgent.LicenseChecker

open Kit

/-- The arguments the verifier is meant to get. -/
def verifierArguments (o : Options) : List Str :=
  [o.licApp, "-v".toList, "--uid-file".toList, o.uidFileName, "--lic-file".toList, o.licFile,
    "--prod".toList, o.prod]

/-- The options that decide on them. -/
def verifierValues (o : Options) : List Str := [o.licApp, o.uidFileName, o.licFile, o.prod]

/-- The command and its NUL fit the buffer, and splitting it gives the configured
arguments. `u` is what the process library makes of quotes. -/
structure CalledAsConfigured (u : Unquote) (bufsiz : ℕ) (o : Options) : Prop where
  fits : (makeVerifyLicenseCmd o).length < bufsiz
  arguments : u.arguments (makeVerifyLicenseCmd o) = verifierArguments o

/-- The values are short and without NUL, each is one argument, and no quote of
the first three is open at its end. -/
structure Separable (u : Unquote) (bufsiz : ℕ) (o : Options) : Prop where
  short : o.licApp.length + o.uidFileName.length + o.licFile.length + o.prod.length + 35 < bufsiz
  noNul : ∀ v ∈ verifierValues o, '\x00' ∉ v
  oneArgument : ∀ v ∈ verifierValues o, u.OneArgument v
  closed : ∀ v ∈ (verifierValues o).dropLast, quotedBehind '"' false v = false

/-! ### The command line -/

/-- The options as C functions see them. -/
def shownOptions (o : Options) : Options :=
  { o with
    licApp := cStr o.licApp
    uidFileName := cStr o.uidFileName
    licFile := cStr o.licFile
    prod := cStr o.prod }

theorem makeVerifyLicenseCmd_eq_intercalate (o : Options) :
    makeVerifyLicenseCmd o = [' '].intercalate (verifierArguments (shownOptions o)) := by
  have huid : " -v --uid-file ".toList = [' '] ++ "-v".toList ++ [' '] ++ "--uid-file".toList ++ [' '] := rfl
  have hlic : " --lic-file ".toList = [' '] ++ "--lic-file".toList ++ [' '] := rfl
  have hprod : " --prod ".toList = [' '] ++ "--prod".toList ++ [' '] := rfl
  rw [makeVerifyLicenseCmd, huid, hlic, hprod]
  simp only [verifierArguments, shownOptions, List.intercalate_cons_cons, List.intercalate_singleton,
    List.append_assoc]

theorem length_makeVerifyLicenseCmd (o : Options) : (makeVerifyLicenseCmd o).length =
    (cStr o.licApp).length + (cStr o.uidFileName).length + (cStr o.licFile).length +
      (cStr o.prod).length + 35 := by
  have huid : " -v --uid-file ".toList.length = 15 := rfl
  have hlic : " --lic-file ".toList.length = 12 := rfl
  have hprod : " --prod ".toList.length = 8 := rfl
  simp only [makeVerifyLicenseCmd, List.length_append, huid, hlic, hprod]
  omega

theorem weight_verifierArguments (o : Options) : Unquote.weight (verifierArguments o) =
    o.licApp.length + o.uidFileName.length + o.licFile.length + o.prod.length + 36 := by
  have hv : "-v".toList.length = 2 := rfl
  have huid : "--uid-file".toList.length = 10 := rfl
  have hlic : "--lic-file".toList.length = 10 := rfl
  have hprod : "--prod".toList.length = 6 := rfl
  simp only [verifierArguments, Unquote.weight, hv, huid, hlic, hprod]
  omega

/-- Texts without NUL are shown as they are. -/
theorem shownOptions_of_noNul {o : Options} (h : ∀ v ∈ verifierValues o, '\x00' ∉ v) : shownOptions o = o := by
  have hshown {v : Str} (hv : v ∈ verifierValues o) : cStr v = v := upTo_of_notMem (h v hv)
  rw [shownOptions, hshown (v := o.licApp), hshown (v := o.uidFileName), hshown (v := o.licFile),
    hshown (v := o.prod)]
  all_goals simp [verifierValues]

/-- The fixed words are arguments, so all depends on the values. -/
theorem forall_oneArgument_iff {u : Unquote} {o : Options} :
    ((∀ w ∈ verifierArguments o, u.OneArgument w) ∧
      ∀ w ∈ (verifierArguments o).dropLast, quotedBehind '"' false w = false) ↔
    (∀ v ∈ verifierValues o, u.OneArgument v) ∧
      ∀ v ∈ (verifierValues o).dropLast, quotedBehind '"' false v = false := by
  have hword {w : Str} (hblank : ' ' ∉ w) (hquote : '"' ∉ w) :
      u.OneArgument w ∧ quotedBehind '"' false w = false :=
    ⟨u.oneArgument_of_plain hblank hquote, quotedBehind_of_notMem hquote false⟩
  have hv := hword (w := "-v".toList) (by decide) (by decide)
  have huid := hword (w := "--uid-file".toList) (by decide) (by decide)
  have hlic := hword (w := "--lic-file".toList) (by decide) (by decide)
  have hprod := hword (w := "--prod".toList) (by decide) (by decide)
  simp only [verifierArguments, verifierValues, List.dropLast, List.forall_mem_cons, hv, huid, hlic, hprod,
    true_and]

/-! ### The arguments of the verifier -/

theorem calledAsConfigured_iff {u : Unquote} {bufsiz : ℕ} {o : Options} (ho : o.Accepted) :
    CalledAsConfigured u bufsiz o ↔ Separable u bufsiz o := by
  have hwords : ∀ w ∈ verifierArguments o, w ≠ [] := by
    have htexts := (Options.accepted_iff.mp ho).1.texts
    simp only [verifierArguments, List.forall_mem_cons]
    exact ⟨htexts .licApp, by decide, by decide, htexts .uidFileName, by decide, htexts .licFile, by decide,
      htexts .prod, fun _ h => absurd h List.not_mem_nil⟩
  have hcommand (h : ∀ v ∈ verifierValues o, '\x00' ∉ v) :
      makeVerifyLicenseCmd o = [' '].intercalate (verifierArguments o) := by
    rw [makeVerifyLicenseCmd_eq_intercalate, shownOptions_of_noNul h]
  have hlength := length_makeVerifyLicenseCmd o
  have hkept (v : Str) : (cStr v).length ≤ v.length := (List.takeWhile_prefix _).length_le
  have hle := hkept o.licApp
  have hle₁ := hkept o.uidFileName
  have hle₂ := hkept o.licFile
  have hle₃ := hkept o.prod
  constructor
  · rintro ⟨hfits, harguments⟩
    -- the arguments weigh no more than the line, so no value can have been cut at a NUL
    have hweight := u.weight_arguments_le (makeVerifyLicenseCmd o)
    rw [harguments, weight_verifierArguments] at hweight
    have hnoNul : ∀ v ∈ verifierValues o, '\x00' ∉ v := by
      have hwhole {v : Str} (hv : v.length ≤ (cStr v).length) : '\x00' ∉ v := by
        have hsame : cStr v = v := (List.takeWhile_prefix _).eq_of_length_le hv
        rw [← hsame]
        exact notMem_upTo _ _
      simp only [verifierValues, List.forall_mem_cons]
      exact ⟨hwhole (by omega), hwhole (by omega), hwhole (by omega), hwhole (by omega),
        fun _ h => absurd h List.not_mem_nil⟩
    rw [hcommand hnoNul] at harguments
    obtain ⟨hone, hclosed⟩ := forall_oneArgument_iff.mp
      ((u.arguments_intercalate_iff (List.cons_ne_nil _ _) hwords).mp harguments)
    exact ⟨by omega, hnoNul, hone, hclosed⟩
  · rintro ⟨hshort, hnoNul, hone, hclosed⟩
    refine ⟨by omega, ?_⟩
    rw [hcommand hnoNul]
    exact (u.arguments_intercalate_iff (List.cons_ne_nil _ _) hwords).mpr
      (forall_oneArgument_iff.mpr ⟨hone, hclosed⟩)

/-- Options with the same arguments have the same four values. -/
theorem verifierArguments_inj {o o' : Options} (h : verifierArguments o = verifierArguments o') :
    verifierValues o = verifierValues o' := by
  simp only [verifierArguments, List.cons.injEq, true_and] at h
  obtain ⟨hlicApp, huid, hlic, hprod, -⟩ := h
  rw [verifierValues, verifierValues, hlicApp, huid, hlic, hprod]

/-- The verifier gets what is configured, under either of two options, and their
calls differ if their values do. -/
def CallsConfigured (u : Unquote) (bufsiz : ℕ) (o o' : Options) : Prop :=
  CalledAsConfigured u bufsiz o ∧ CalledAsConfigured u bufsiz o' ∧
    (verifierValues o ≠ verifierValues o' →
      u.arguments (makeVerifyLicenseCmd o) ≠ u.arguments (makeVerifyLicenseCmd o'))

/-- A value that contains the next option moves the boundary: what follows it may
as well be part of the next value. -/
theorem makeVerifyLicenseCmd_moved (o : Options) {uid lic : Str} (huid : '\x00' ∉ uid) (hlic : '\x00' ∉ lic)
    (file : Str) :
    makeVerifyLicenseCmd { o with uidFileName := uid ++ " --lic-file ".toList ++ lic, licFile := file } =
      makeVerifyLicenseCmd { o with uidFileName := uid, licFile := lic ++ " --lic-file ".toList ++ file } := by
  have hword : '\x00' ∉ " --lic-file ".toList := by decide
  have hshown : cStr (uid ++ " --lic-file ".toList ++ lic) = uid ++ " --lic-file ".toList ++ lic := by
    refine upTo_of_notMem ?_
    simp only [List.mem_append, not_or]
    exact ⟨⟨huid, hword⟩, hlic⟩
  have hshown' : cStr uid = uid := upTo_of_notMem huid
  have hshown'' : cStr (lic ++ " --lic-file ".toList ++ file) = lic ++ " --lic-file ".toList ++ cStr file := by
    refine cStr_append ?_
    rw [List.mem_append, not_or]
    exact ⟨hlic, hword⟩
  simp only [makeVerifyLicenseCmd, hshown, hshown', hshown'']
  simp only [List.append_assoc]

theorem callsConfigured_iff {u : Unquote} {bufsiz : ℕ} {o o' : Options} (ho : o.Accepted) (ho' : o'.Accepted) :
    CallsConfigured u bufsiz o o' ↔ Separable u bufsiz o ∧ Separable u bufsiz o' := by
  rw [← calledAsConfigured_iff ho, ← calledAsConfigured_iff ho']
  constructor
  · rintro ⟨hcalled, hcalled', -⟩
    exact ⟨hcalled, hcalled'⟩
  · rintro ⟨hcalled, hcalled'⟩
    refine ⟨hcalled, hcalled', fun hvalues hsame => hvalues (verifierArguments_inj ?_)⟩
    rw [← hcalled.arguments, hsame, hcalled'.arguments]

/-- Paths without blanks, quotes and NUL are passed on. -/
theorem separable_of_plain {u : Unquote} {bufsiz : ℕ} {o : Options}
    (hshort : o.licApp.length + o.uidFileName.length + o.licFile.length + o.prod.length + 35 < bufsiz)
    (h : ∀ v ∈ verifierValues o, '\x00' ∉ v ∧ ' ' ∉ v ∧ '"' ∉ v) : Separable u bufsiz o where
  short := hshort
  noNul v hv := (h v hv).1
  oneArgument v hv := u.oneArgument_of_plain (h v hv).2.1 (h v hv).2.2
  closed v hv := quotedBehind_of_notMem (h v (List.dropLast_subset _ hv)).2.2 false

/-- The shipped options with another program and product. -/
def shippedVerifier (licApp prod : Str) : Options :=
  { shippedOptions "/usr/sbin/openvpn".toList with licApp, prod }

theorem shippedVerifier_accepted {licApp prod : Str} (hlicApp : licApp ≠ []) (hprod : prod ≠ []) :
    (shippedVerifier licApp prod).Accepted := by
  have hshipped : (shippedOptions "/usr/sbin/openvpn".toList).Accepted := shippedOptions_accepted (by decide)
  refine hshipped.with_texts (fun n => ?_) (fun t => ?_) (Options.accepted_iff.mp hshipped).2
  · cases n with
    | dayLicenseUpdate | dayLicenseCheck | nextTryGetLicenseMins | nextDayWaitingHours => rfl
  · cases t with
    | licApp => exact hlicApp
    | prod => exact hprod
    | unp | agentId | licFile | makeUidCmd | uidFileName | licenseManagerUri | killFileName
      | openvpnFilePath => exact List.cons_ne_nil _ _

/-- Two products of the shipped configuration. -/
theorem callsConfigured_iff_products : CallsConfigured Unquote.outer 8192
    (shippedVerifier "/opt/itvpn/itvpn_lic".toList "2".toList)
    (shippedVerifier "/opt/itvpn/itvpn_lic".toList "3".toList) :=
  (callsConfigured_iff (shippedVerifier_accepted (by decide) (by decide))
    (shippedVerifier_accepted (by decide) (by decide))).mpr
    ⟨separable_of_plain (by decide) (by decide), separable_of_plain (by decide) (by decide)⟩

/-- The verifier in a directory with a blank in its name: another program is run. -/
theorem blank_splits_program : (shippedVerifier "/opt/it vpn/itvpn_lic".toList "2".toList).Accepted ∧
    ¬ CalledAsConfigured Unquote.outer 8192 (shippedVerifier "/opt/it vpn/itvpn_lic".toList "2".toList) := by
  have haccepted : (shippedVerifier "/opt/it vpn/itvpn_lic".toList "2".toList).Accepted :=
    shippedVerifier_accepted (by decide) (by decide)
  refine ⟨haccepted, fun hcalled => ?_⟩
  have hone := ((calledAsConfigured_iff haccepted).mp hcalled).oneArgument _ List.mem_cons_self
  exact Bool.false_ne_true (hone.quoted "/opt/it".toList "vpn/itvpn_lic".toList rfl)

end ItvpnAgent.LicenseChecker
