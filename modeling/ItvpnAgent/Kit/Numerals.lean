import ItvpnAgent.Kit.Text

/-! Decimal numerals as a grammar. A numeral at the front of a text is found by
skipping blanks, reading a sign and taking all the digits; nothing else is at the
front of the text, so its value and what is behind it are determined. -/

namespace Kit

/-- Decimal text of an integer: an optional sign and digits, leading zeros included. -/
inductive Denotes : Str → ℤ → Prop
  | plain {digits : Str} (hne : digits ≠ []) (hdigits : ∀ c ∈ digits, c.isDigit = true) :
    Denotes digits (natOfDigits digits)
  | plus {digits : Str} (hne : digits ≠ []) (hdigits : ∀ c ∈ digits, c.isDigit = true) :
    Denotes ('+' :: digits) (natOfDigits digits)
  | minus {digits : Str} (hne : digits ≠ []) (hdigits : ∀ c ∈ digits, c.isDigit = true) :
    Denotes ('-' :: digits) (-(natOfDigits digits : ℤ))

/-- The text starts with no digit. -/
def NoDigitFirst (s : Str) : Prop := ∀ c ∈ s.head?, c.isDigit = false

/-- Blanks, a numeral and the text behind all its digits. -/
def Scans (s : Str) (v : ℤ) (rest : Str) : Prop :=
  ∃ blanks num, s = blanks ++ (num ++ rest) ∧ (∀ c ∈ blanks, isSpace c = true) ∧ Denotes num v ∧
    NoDigitFirst rest

theorem noDigitFirst_nil : NoDigitFirst [] := fun c hc => by cases hc

theorem Denotes.scans_append {num rest : Str} {v : ℤ} (h : Denotes num v) (hrest : NoDigitFirst rest) :
    Scans (num ++ rest) v rest := ⟨[], num, rfl, fun _ hc => absurd hc List.not_mem_nil, h, hrest⟩

/-- The numeral at the front, as it stands. -/
def scanNumeral (s : Str) : Option (ℤ × Str) :=
  let (negative, s) := readSign (s.dropWhile isSpace)
  let digits := s.takeWhile Char.isDigit
  if digits = [] then none
  else
    let v : ℤ := natOfDigits digits
    some (if negative then -v else v, s.dropWhile Char.isDigit)

theorem scanLong_eq (s : Str) : scanLong s = (scanNumeral s).map fun (v, rest) => (clampLong v, rest) := by
  unfold scanLong scanNumeral
  dsimp only
  split <;> rfl

/-! ### Spans -/

section Span

variable {α : Type} {p : α → Bool}

theorem span_append {xs ys : List α} (hxs : ∀ x ∈ xs, p x = true) (hys : ∀ y ∈ ys.head?, p y = false) :
    (xs ++ ys).takeWhile p = xs ∧ (xs ++ ys).dropWhile p = ys := by
  have hstop : ys.takeWhile p = [] ∧ ys.dropWhile p = ys := by
    cases ys with
    | nil => exact ⟨rfl, rfl⟩
    | cons y ys =>
      have hy : p y = false := hys y rfl
      simp [hy]
  rw [List.takeWhile_append_of_pos hxs, List.dropWhile_append_of_pos hxs, hstop.1, hstop.2]
  exact ⟨List.append_nil xs, rfl⟩

theorem head?_dropWhile_eq_false (xs : List α) : ∀ y ∈ (xs.dropWhile p).head?, p y = false := by
  intro y hy
  have hhead := List.head?_dropWhile_not p xs
  rw [Option.mem_def.mp hy] at hhead
  exact hhead

end Span

/-! ### The numeral at the front -/

theorem isSpace_of_isDigit {c : Char} (h : c.isDigit = true) : isSpace c = false := by
  rw [Bool.eq_false_iff]
  intro hspace
  simp only [isSpace, Bool.or_eq_true, decide_eq_true_eq] at hspace
  rcases hspace with ((((rfl | rfl) | rfl) | rfl) | rfl) | rfl <;> cases h

theorem toNat_of_isDigit {c : Char} (h : c.isDigit = true) : 48 ≤ c.toNat ∧ c.toNat ≤ 57 := by
  simp only [Char.isDigit, Bool.and_eq_true, decide_eq_true_eq, ge_iff_le, UInt32.le_iff_toNat_le] at h
  exact h

/-- The characters of a numeral are bytes, and none is a NUL. -/
theorem Denotes.toNat_bounds {num : Str} {v : ℤ} (h : Denotes num v) :
    ∀ c ∈ num, 0 < c.toNat ∧ c.toNat < 256 := by
  have hdigit {c : Char} (hc : c.isDigit = true) : 0 < c.toNat ∧ c.toNat < 256 := by
    obtain ⟨hlow, hhigh⟩ := toNat_of_isDigit hc
    omega
  intro c hc
  cases h with
  | plain _ hdigits => exact hdigit (hdigits c hc)
  | plus _ hdigits =>
    rcases List.mem_cons.mp hc with rfl | hc
    · decide
    · exact hdigit (hdigits c hc)
  | minus _ hdigits =>
    rcases List.mem_cons.mp hc with rfl | hc
    · decide
    · exact hdigit (hdigits c hc)

theorem Denotes.nul_notMem {num : Str} {v : ℤ} (h : Denotes num v) : '\x00' ∉ num := fun hmem =>
  absurd (h.toNat_bounds _ hmem).1 (by decide)

theorem Denotes.ne_nil {num : Str} {v : ℤ} (h : Denotes num v) : num ≠ [] := by
  cases h with
  | plain hne => exact hne
  | plus => exact List.cons_ne_nil _ _
  | minus => exact List.cons_ne_nil _ _

/-- A text that starts with a digit has no sign to read. -/
theorem readSign_digits {digits : Str} (hne : digits ≠ []) (hdigits : ∀ c ∈ digits, c.isDigit = true)
    (rest : Str) : readSign (digits ++ rest) = (false, digits ++ rest) := by
  cases digits with
  | nil => exact absurd rfl hne
  | cons c digits =>
    have hc := hdigits c List.mem_cons_self
    rw [List.cons_append, readSign]
    · rintro t ht
      cases ht
      cases hc
    · rintro t ht
      cases ht
      cases hc

/-- A numeral starts with a digit or a sign, and not with a blank. -/
theorem Denotes.head_not_space {num : Str} {v : ℤ} (h : Denotes num v) (rest : Str) :
    ∀ c ∈ (num ++ rest).head?, isSpace c = false := by
  intro c hc
  cases h with
  | plain hne hdigits =>
    cases num with
    | nil => exact absurd rfl hne
    | cons d digits =>
      cases hc
      exact isSpace_of_isDigit (hdigits _ List.mem_cons_self)
  | plus =>
    cases hc
    rfl
  | minus =>
    cases hc
    rfl

theorem scanNumeral_of_scans {s rest : Str} {v : ℤ} (h : Scans s v rest) :
    scanNumeral s = some (v, rest) := by
  obtain ⟨blanks, num, rfl, hblanks, hnum, hrest⟩ := h
  have hskip : (blanks ++ (num ++ rest)).dropWhile isSpace = num ++ rest :=
    (span_append hblanks (hnum.head_not_space rest)).2
  have hscan {digits : Str} (hdigits : ∀ c ∈ digits, c.isDigit = true) :
      (digits ++ rest).takeWhile Char.isDigit = digits ∧ (digits ++ rest).dropWhile Char.isDigit = rest :=
    span_append hdigits hrest
  unfold scanNumeral
  rw [hskip]
  cases hnum with
  | plain hne hdigits =>
    rw [readSign_digits hne hdigits]
    simp [hscan hdigits, hne]
  | plus hne hdigits => simp [readSign, hscan hdigits, hne]
  | minus hne hdigits => simp [readSign, hscan hdigits, hne]

theorem readSign_cases (s : Str) : (∃ t, s = '-' :: t ∧ readSign s = (true, t)) ∨
    (∃ t, s = '+' :: t ∧ readSign s = (false, t)) ∨ readSign s = (false, s) := by
  unfold readSign
  split
  · exact .inl ⟨_, rfl, rfl⟩
  · exact .inr (.inl ⟨_, rfl, rfl⟩)
  · exact .inr (.inr rfl)

/-- A sign and digits are a numeral. -/
theorem denotes_readSign {s : Str} (hne : (readSign s).2.takeWhile Char.isDigit ≠ []) :
    ∃ num, s = num ++ (readSign s).2.dropWhile Char.isDigit ∧
      Denotes num (if (readSign s).1 then -(natOfDigits ((readSign s).2.takeWhile Char.isDigit) : ℤ)
        else natOfDigits ((readSign s).2.takeWhile Char.isDigit)) := by
  have hdigits (t : Str) : ∀ c ∈ t.takeWhile Char.isDigit, c.isDigit = true := fun c hc =>
    List.mem_takeWhile_imp hc
  have hsplit (t : Str) : t = t.takeWhile Char.isDigit ++ t.dropWhile Char.isDigit :=
    List.takeWhile_append_dropWhile.symm
  rcases readSign_cases s with ⟨t, rfl, hsign⟩ | ⟨t, rfl, hsign⟩ | hsign
  · rw [hsign] at hne ⊢
    exact ⟨_, congrArg ('-' :: ·) (hsplit t), .minus hne (hdigits t)⟩
  · rw [hsign] at hne ⊢
    exact ⟨_, congrArg ('+' :: ·) (hsplit t), .plus hne (hdigits t)⟩
  · rw [hsign] at hne ⊢
    exact ⟨_, hsplit s, .plain hne (hdigits s)⟩

/-- The scanner finds exactly the numeral of the grammar. -/
theorem scanNumeral_eq_some_iff {s rest : Str} {v : ℤ} :
    scanNumeral s = some (v, rest) ↔ Scans s v rest := by
  refine ⟨fun h => ?_, scanNumeral_of_scans⟩
  unfold scanNumeral at h
  dsimp only at h
  split at h
  · cases h
  · next hne =>
    obtain ⟨num, hnum, hdenotes⟩ := denotes_readSign hne
    have hsplit := List.takeWhile_append_dropWhile (p := isSpace) (l := s)
    rw [Option.some.injEq, Prod.mk.injEq] at h
    obtain ⟨rfl, rfl⟩ := h
    refine ⟨s.takeWhile isSpace, num, ?_, fun c hc => List.mem_takeWhile_imp hc, hdenotes,
      head?_dropWhile_eq_false _⟩
    rw [← hnum, hsplit]

theorem scanLong_eq_some_iff {s rest : Str} {w : ℤ} :
    scanLong s = some (w, rest) ↔ ∃ v, Scans s v rest ∧ w = clampLong v := by
  rw [scanLong_eq, Option.map_eq_some_iff]
  constructor
  · rintro ⟨⟨v, rest'⟩, hscan, hpair⟩
    cases hpair
    exact ⟨v, scanNumeral_eq_some_iff.mp hscan, rfl⟩
  · rintro ⟨v, hscan, rfl⟩
    exact ⟨(v, rest), scanNumeral_eq_some_iff.mpr hscan, rfl⟩

theorem Scans.unique {s rest rest' : Str} {v v' : ℤ} (h : Scans s v rest) (h' : Scans s v' rest') :
    v = v' ∧ rest = rest' := by
  have hsame := (scanNumeral_of_scans h).symm.trans (scanNumeral_of_scans h')
  rw [Option.some.injEq, Prod.mk.injEq] at hsame
  exact hsame

/-! ### In C strings -/

theorem noDigitFirst_cStr {s : Str} (h : NoDigitFirst s) : NoDigitFirst (cStr s) := by
  cases s with
  | nil => exact h
  | cons c s =>
    by_cases hc : c = '\x00'
    · subst hc
      exact nofun
    · have hkept : cStr (c :: s) = c :: cStr s := upTo_cons hc s
      rw [hkept]
      exact h

/-- A C function finds the numeral that the whole string begins with. -/
theorem scans_cStr {s rest : Str} {v : ℤ} (h : Scans s v rest) : Scans (cStr s) v (cStr rest) := by
  obtain ⟨blanks, num, rfl, hblanks, hnum, hrest⟩ := h
  have hnul : '\x00' ∉ blanks := fun hmem => absurd (hblanks _ hmem) (by decide)
  rw [cStr_append hnul, cStr_append hnum.nul_notMem]
  exact ⟨blanks, num, rfl, hblanks, hnum, noDigitFirst_cStr hrest⟩

theorem scans_of_cStr {s rest : Str} {v : ℤ} (h : Scans (cStr s) v rest) : ∃ rest', Scans s v rest' := by
  obtain ⟨hidden, hs, hhidden⟩ := exists_eq_cStr_append s
  obtain ⟨blanks, num, hsplit, hblanks, hnum, hrest⟩ := h
  refine ⟨rest ++ hidden, blanks, num, ?_, hblanks, hnum, ?_⟩
  · rw [hs, hsplit, List.append_assoc, List.append_assoc]
  · cases rest with
    | nil =>
      intro c hc
      rw [hhidden c hc]
      decide
    | cons c rest => exact hrest

/-- A `long` cut to an `int`. -/
def storedInt (v : ℤ) : ℤ := toInt32 (clampLong v)

theorem clampLong_of_fitsInt {v : ℤ} (h : FitsInt v) : clampLong v = v := by
  obtain ⟨hlow, hhigh⟩ := h
  rw [clampLong]
  omega

theorem storedInt_of_fitsInt {v : ℤ} (h : FitsInt v) : storedInt v = v := by
  rw [storedInt, clampLong_of_fitsInt h, toInt32_of_fitsInt h]

theorem atol_of_scans {s rest : Str} {v : ℤ} (h : Scans s v rest) : atol s = clampLong v := by
  rw [atol, scanLong_eq_some_iff.mpr ⟨v, scans_cStr h, rfl⟩]
  rfl

/-- Text without a numeral at its front reads as 0. -/
theorem atol_of_not_scans {s : Str} (h : ∀ v rest, ¬ Scans s v rest) : atol s = 0 := by
  have hscan : scanLong (cStr s) = none := by
    refine Option.eq_none_iff_forall_ne_some.mpr fun ⟨w, rest⟩ hsome => ?_
    obtain ⟨v, hv, -⟩ := scanLong_eq_some_iff.mp hsome
    obtain ⟨rest', hscans⟩ := scans_of_cStr hv
    exact h v rest' hscans
  rw [atol, hscan]
  rfl

theorem atoi_of_scans {s rest : Str} {v : ℤ} (h : Scans s v rest) : atoi s = storedInt v := by
  rw [atoi, atol_of_scans h, storedInt]

theorem atoi_of_not_scans {s : Str} (h : ∀ v rest, ¬ Scans s v rest) : atoi s = 0 := by
  rw [atoi, atol_of_not_scans h]
  rfl

theorem denotes_numeral (n : ℕ) : Denotes (numeral n) n := by
  have hvalue : natOfDigits (numeral n) = n := Nat.ofDigitChars_ten_toDigits
  have hnum : Denotes (numeral n) (natOfDigits (numeral n)) :=
    .plain Nat.toDigits_ne_nil fun c hc => Nat.isDigit_of_mem_toDigits (by decide) (by decide) hc
  rwa [hvalue] at hnum

theorem scans_numeral (n : ℕ) : Scans (numeral n) n [] := by
  have hscans := (denotes_numeral n).scans_append noDigitFirst_nil
  rwa [List.append_nil] at hscans

/-- A number is read back from its numeral. -/
theorem atoi_numeral {n : ℕ} (h : FitsInt n) : atoi (numeral n) = n := by
  rw [atoi_of_scans (scans_numeral n), storedInt_of_fitsInt h]

/-- The whole text is a numeral, but for blanks around it. -/
def IsNumeral (s : Str) (v : ℤ) : Prop := ∃ rest, Scans s v rest ∧ ∀ c ∈ rest, isSpace c = true

end Kit
