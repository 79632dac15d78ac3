import Mathlib.Data.Int.Notation
import Mathlib.Data.List.TakeWhile
import Mathlib.Tactic.Common

/-! Character strings as lists: cutting at a separator, reading lines, words and
decimal numerals the way the C and C++ standard libraries do. One `Char` stands
for one character of the program's string type. -/

namespace Kit

abbrev Str := List Char

/-- White space of the "C" locale. -/
def isSpace (c : Char) : Bool :=
  c = ' ' || c = '\t' || c = '\n' || c = '\x0b' || c = '\x0c' || c = '\r'

/-! ### Cutting -/

/-- The text before the first `c`; all of it if there is none. -/
def upTo (c : Char) (s : Str) : Str := s.takeWhile (· ≠ c)

/-- What `c_str` shows of a string to a C function. -/
def cStr (s : Str) : Str := upTo '\x00' s

theorem notMem_upTo (c : Char) (s : Str) : c ∉ upTo c s := fun hmem => by
  simpa using List.mem_takeWhile_imp hmem

theorem upTo_of_notMem {c : Char} {s : Str} (h : c ∉ s) : upTo c s = s :=
  List.takeWhile_eq_self_iff.mpr fun a ha => by
    rw [decide_eq_true_eq]
    exact fun hac => h (hac ▸ ha)

theorem upTo_cons {c a : Char} (h : a ≠ c) (s : Str) : upTo c (a :: s) = a :: upTo c s :=
  List.takeWhile_cons_of_pos (decide_eq_true h)

theorem cStr_append {s t : Str} (hs : '\x00' ∉ s) : cStr (s ++ t) = s ++ cStr t := by
  refine List.takeWhile_append_of_pos fun c hc => decide_eq_true ?_
  rintro rfl
  exact hs hc

theorem cStr_append_nul (s t : Str) : cStr (s ++ '\x00' :: t) = cStr s := by
  induction s with
  | nil => rfl
  | cons c s ih =>
    by_cases hnul : c = '\x00'
    · subst hnul
      rfl
    · have hkept (s : Str) : cStr (c :: s) = c :: cStr s := upTo_cons hnul s
      rw [List.cons_append, hkept, hkept, ih]

/-- What `c_str` hides is nothing, or starts with a NUL. -/
theorem exists_eq_cStr_append (s : Str) : ∃ hidden, s = cStr s ++ hidden ∧ ∀ c ∈ hidden.head?, c = '\x00' := by
  refine ⟨s.dropWhile (· ≠ '\x00'), List.takeWhile_append_dropWhile.symm, fun c hc => ?_⟩
  have hhead := List.head?_dropWhile_not (· ≠ '\x00') s
  rw [Option.mem_def.mp hc] at hhead
  simpa using hhead

/-- The first line, without its newline. -/
def firstLine (s : Str) : Str := upTo '\n' s

/-- A newline behind a NUL is no matter for a C function. -/
theorem cStr_firstLine {s : Str} (h : '\n' ∉ cStr s) : cStr (firstLine s) = cStr s := by
  induction s with
  | nil => rfl
  | cons c s ih =>
    by_cases hnul : c = '\x00'
    · subst hnul
      rfl
    · have hkept (t : Str) : cStr (c :: t) = c :: cStr t := upTo_cons hnul t
      rw [hkept, List.mem_cons, not_or] at h
      have hline : firstLine (c :: s) = c :: firstLine s := upTo_cons (fun hc => h.1 hc.symm) s
      rw [hline, hkept, hkept, ih h.2]

/-- What `stream >> word` reads: blanks are skipped, then everything up to the
next blank is taken. -/
def firstWord (s : Str) : Str := (s.dropWhile isSpace).takeWhile (! isSpace ·)

/-- The pieces a `getline` loop reads: there is none after a final separator. -/
def getlines (c : Char) (s : Str) : List Str :=
  let pieces := s.splitOn c
  if pieces.getLast? = some [] then pieces.dropLast else pieces

theorem mem_intercalate {sep a : Char} {pieces : List Str} (h : a ∈ [sep].intercalate pieces) :
    a = sep ∨ ∃ piece ∈ pieces, a ∈ piece := by
  induction pieces with
  | nil => cases h
  | cons piece pieces ih =>
    cases pieces with
    | nil =>
      rw [List.intercalate_singleton] at h
      exact .inr ⟨piece, List.mem_cons_self, h⟩
    | cons piece' pieces =>
      rw [List.intercalate_cons_cons, List.mem_append, List.mem_append] at h
      rcases h with (h | h) | h
      · exact .inr ⟨piece, List.mem_cons_self, h⟩
      · exact .inl (List.mem_singleton.mp h)
      · rcases ih h with h | ⟨other, hother, h⟩
        · exact .inl h
        · exact .inr ⟨other, List.mem_cons_of_mem _ hother, h⟩

/-- Pieces without separators are read back, but for an empty one at the end. -/
theorem getlines_intercalate {c : Char} {pieces : List Str} (hne : pieces ≠ [])
    (hpieces : ∀ piece ∈ pieces, c ∉ piece) : getlines c ([c].intercalate pieces) =
      if pieces.getLast? = some [] then pieces.dropLast else pieces := by
  rw [getlines, List.splitOn_intercalate c hpieces hne]

/-- A text without blanks is one word. -/
theorem firstWord_of_forall {s : Str} (h : ∀ c ∈ s, isSpace c = false) : firstWord s = s := by
  have hkept : s.dropWhile isSpace = s := by
    cases s with
    | nil => rfl
    | cons c s => rw [List.dropWhile_cons_of_neg (by rw [h c List.mem_cons_self]; exact Bool.false_ne_true)]
  rw [firstWord, hkept, List.takeWhile_eq_self_iff]
  intro c hc
  rw [h c hc]
  rfl

/-- Position of the last `c`. -/
def findLastOf (c : Char) : Str → Option ℕ
  | [] => none
  | a :: s =>
    match findLastOf c s with
    | some p => some (p + 1)
    | none => if a = c then some 0 else none

theorem findLastOf_eq_none {c : Char} {s : Str} : findLastOf c s = none ↔ c ∉ s := by
  induction s with
  | nil => simp [findLastOf]
  | cons a s ih =>
    cases hs : findLastOf c s with
    | some p =>
      have hmem : c ∈ s := by
        by_contra hnot
        rw [ih.mpr hnot] at hs
        cases hs
      simp [findLastOf, hs, hmem]
    | none =>
      have hnot := ih.mp hs
      simp [findLastOf, hs, hnot, eq_comm]

/-- What is in front of the last `c` and behind it. -/
theorem findLastOf_eq_some {c : Char} {s : Str} {p : ℕ} (h : findLastOf c s = some p) :
    ∃ front back, s = front ++ c :: back ∧ c ∉ back ∧ p = front.length := by
  induction s generalizing p with
  | nil => cases h
  | cons a s ih =>
    rw [findLastOf] at h
    cases hs : findLastOf c s with
    | some q =>
      rw [hs] at h
      obtain ⟨front, back, rfl, hback, rfl⟩ := ih hs
      cases h
      exact ⟨a :: front, back, rfl, hback, rfl⟩
    | none =>
      rw [hs] at h
      dsimp only at h
      split at h
      · next ha =>
        cases h
        exact ⟨[], s, by rw [ha]; rfl, findLastOf_eq_none.mp hs, rfl⟩
      · cases h

/-! ### Occurrence in order -/

/-- The pieces occur in the text, one behind the other. -/
inductive Mentions : List Str → Str → Prop
  | done (text : Str) : Mentions [] text
  | piece (before piece : Str) {pieces : List Str} {text : Str} (h : Mentions pieces text) :
    Mentions (piece :: pieces) (before ++ piece ++ text)

theorem Mentions.subset {pieces : List Str} {text : Str} (h : Mentions pieces text) :
    ∀ piece ∈ pieces, ∀ c ∈ piece, c ∈ text := by
  induction h with
  | done => exact nofun
  | piece before piece h ih =>
    intro other hother c hc
    rcases List.mem_cons.mp hother with rfl | hother
    · exact List.mem_append_left _ (List.mem_append_right _ hc)
    · exact List.mem_append_right _ (ih other hother c hc)

/-! ### Numerals -/

/-- Value of a string of decimal digits. -/
def natOfDigits (digits : Str) : ℕ :=
  digits.foldl (fun n c => 10 * n + (c.toNat - '0'.toNat)) 0

/-- Truncation to a 32-bit `int`. -/
def toInt32 (v : ℤ) : ℤ := Int.bmod v 4294967296

/-- A value of the 32-bit `int`. -/
def FitsInt (v : ℤ) : Prop := -2147483648 ≤ v ∧ v ≤ 2147483647

instance (v : ℤ) : Decidable (FitsInt v) := inferInstanceAs (Decidable (_ ∧ _))

theorem toInt32_of_fitsInt {v : ℤ} (h : FitsInt v) : toInt32 v = v := by
  obtain ⟨hlow, hhigh⟩ := h
  rw [toInt32, Int.bmod_eq_of_le] <;> omega

/-- A value stored in a 64-bit `long`, out of range values at its ends. -/
def clampLong (v : ℤ) : ℤ := max (-9223372036854775808) (min 9223372036854775807 v)

/-- An optional sign: whether it is a minus, and the rest. -/
def readSign : Str → Bool × Str
  | '-' :: s => (true, s)
  | '+' :: s => (false, s)
  | s => (false, s)

/-- A base 10 numeral at the front, blanks and a sign allowed, as a `long`, and
the text behind it. -/
def scanLong (s : Str) : Option (ℤ × Str) :=
  let (negative, s) := readSign (s.dropWhile isSpace)
  let digits := s.takeWhile Char.isDigit
  if digits = [] then none
  else
    let v : ℤ := natOfDigits digits
    some (clampLong (if negative then -v else v), s.dropWhile Char.isDigit)

/-- `%d` of `sscanf`. -/
def scanInt (s : Str) : Option (ℤ × Str) := (scanLong s).map fun (v, rest) => (toInt32 v, rest)

/-- `atol`: text without a numeral at its front reads as 0. -/
def atol (s : Str) : ℤ := ((scanLong (cStr s)).map Prod.fst).getD 0

def atoi (s : Str) : ℤ := toInt32 (atol s)

/-- Decimal numeral of a natural number, as `std::to_string` writes it. -/
def numeral (n : ℕ) : Str := (Nat.toDigits 10 n)

/-- `%d` of an integer. -/
def decimal (v : ℤ) : Str := if v < 0 then '-' :: numeral v.natAbs else numeral v.natAbs

theorem nul_notMem_numeral (n : ℕ) : '\x00' ∉ numeral n := fun hmem => by
  have hdigit : ('\x00' : Char).isDigit = true := Nat.isDigit_of_mem_toDigits (by decide) (by decide) hmem
  exact absurd hdigit (by decide)

example : atoi " -17x".toList = -17 ∧ atol "".toList = 0 ∧ atoi "4294967297".toList = 1 := by decide

end Kit
