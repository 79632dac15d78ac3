import Mathlib.Tactic.Common
import Mathlib.Tactic.SplitIfs

/-! The Gregorian calendar, day by day. A date carries the proof that its month
has such a day; days are counted from the first of January 1970. From the first
day of a month on, the dates run through the month. -/

namespace Kit.Calendar

def isLeap (year : ℕ) : Bool := year % 4 = 0 && (year % 100 ≠ 0 || year % 400 = 0)

def daysIn (year month : ℕ) : ℕ :=
  if month = 2 then if isLeap year then 29 else 28
  else if month = 4 ∨ month = 6 ∨ month = 9 ∨ month = 11 then 30
  else 31

theorem daysIn_bounds (year month : ℕ) : 28 ≤ daysIn year month ∧ daysIn year month ≤ 31 := by
  unfold daysIn
  split_ifs <;> omega

structure Date where
  year : ℕ
  month : ℕ
  day : ℕ
  month_mem : 1 ≤ month ∧ month ≤ 12
  day_mem : 1 ≤ day ∧ day ≤ daysIn year month
  deriving DecidableEq

namespace Date

def daysInMonth (d : Date) : ℕ := daysIn d.year d.month

/-- The first day of a month. -/
def first (year month : ℕ) (h : 1 ≤ month ∧ month ≤ 12) : Date where
  year := year
  month := month
  day := 1
  month_mem := h
  day_mem := ⟨Nat.le_refl 1, Nat.le_trans (by decide) (daysIn_bounds year month).1⟩

def nextMonth (d : Date) : Date :=
  if hmonth : d.month < 12 then first d.year (d.month + 1) ⟨Nat.le_add_left 1 d.month, hmonth⟩
  else first (d.year + 1) 1 (by decide)

def next (d : Date) : Date :=
  if hday : d.day < d.daysInMonth then
    { d with
      day := d.day + 1
      day_mem := ⟨Nat.le_add_left 1 d.day, hday⟩ }
  else d.nextMonth

theorem next_of_lt {d : Date} (h : d.day < d.daysInMonth) :
    d.next.year = d.year ∧ d.next.month = d.month ∧ d.next.day = d.day + 1 := by
  simp only [next, h, dif_pos, and_self]

theorem next_of_last {d : Date} (h : d.day = d.daysInMonth) : d.next = d.nextMonth := by
  have hlast : ¬ d.day < d.daysInMonth := by omega
  simp only [next, hlast, dif_neg, not_false_eq_true]

theorem nextMonth_congr {d e : Date} (hyear : d.year = e.year) (hmonth : d.month = e.month) :
    d.nextMonth = e.nextMonth := by
  cases d
  cases e
  dsimp only at hyear hmonth
  subst hyear hmonth
  rfl

end Date

/-- The date of day `n`, the first of January 1970 being day 0. -/
def dateAt : ℕ → Date
  | 0 => .first 1970 1 (by decide)
  | n + 1 => (dateAt n).next

/-- The dates of a month, counted from its first day. -/
theorem dateAt_add {n : ℕ} (hfirst : (dateAt n).day = 1) :
    ∀ {i : ℕ}, i < (dateAt n).daysInMonth →
      (dateAt (n + i)).year = (dateAt n).year ∧ (dateAt (n + i)).month = (dateAt n).month ∧
        (dateAt (n + i)).day = i + 1 := by
  intro i hi
  induction i with
  | zero => exact ⟨rfl, rfl, hfirst⟩
  | succ i ih =>
    obtain ⟨hyear, hmonth, hday⟩ := ih (by omega)
    have hsame : (dateAt (n + i)).daysInMonth = (dateAt n).daysInMonth := by
      simp only [Date.daysInMonth, hyear, hmonth]
    have hlt : (dateAt (n + i)).day < (dateAt (n + i)).daysInMonth := by omega
    obtain ⟨hyear', hmonth', hday'⟩ := Date.next_of_lt hlt
    rw [← Nat.add_assoc, dateAt]
    exact ⟨hyear'.trans hyear, hmonth'.trans hmonth, by omega⟩

/-- Behind the last day of a month the next month begins. -/
theorem dateAt_daysInMonth {n : ℕ} (hfirst : (dateAt n).day = 1) :
    dateAt (n + (dateAt n).daysInMonth) = (dateAt n).nextMonth := by
  have hbounds := (daysIn_bounds (dateAt n).year (dateAt n).month).1
  obtain ⟨i, hi⟩ : ∃ i, (dateAt n).daysInMonth = i + 1 :=
    ⟨(dateAt n).daysInMonth - 1, by simp only [Date.daysInMonth]; omega⟩
  obtain ⟨hyear, hmonth, hday⟩ := dateAt_add hfirst (i := i) (by omega)
  have hlast : (dateAt (n + i)).day = (dateAt (n + i)).daysInMonth := by
    simp only [Date.daysInMonth, hyear, hmonth, hday] at hi ⊢
    omega
  rw [hi, ← Nat.add_assoc, dateAt, Date.next_of_last hlast, Date.nextMonth_congr hyear hmonth]

theorem dateAt_february : dateAt 31 = .first 1970 2 (by decide) := dateAt_daysInMonth (n := 0) rfl

end Kit.Calendar
