import Mathlib.Tactic.Common

/-! Events in a row: one is due at a time, and each one is followed by the next
after a gap. If no gap is longer than a window of time is wide, then no such
window passes without an event. -/

namespace Kit

/-- When the next event is due, and when there have been events. -/
structure Cadence where
  due : ℕ
  past : List ℕ
  deriving DecidableEq, Repr

namespace Cadence

variable {c : Cadence} {a w G : ℕ}

/-- The event that is due happens, and the next one follows after a gap. -/
def advance (c : Cadence) (gap : ℕ) : Cadence where
  due := c.due + gap
  past := c.past ++ [c.due]

def run (c : Cadence) (gaps : List ℕ) : Cadence := gaps.foldl advance c

@[simp] theorem run_nil (c : Cadence) : c.run [] = c := rfl

@[simp] theorem run_cons (c : Cadence) (gap : ℕ) (gaps : List ℕ) :
    c.run (gap :: gaps) = (c.advance gap).run gaps := rfl

theorem run_append (c : Cadence) (gaps gaps' : List ℕ) :
    c.run (gaps ++ gaps') = (c.run gaps).run gaps' := List.foldl_append

/-! ### Windows that no run steps over -/

/-- The window from `a` to `w` has had an event, or one before its end is due. -/
def Hits (a w : ℕ) (c : Cadence) : Prop := c.due < w ∨ ∃ t ∈ c.past, a ≤ t ∧ t < w

theorem hits_advance {gap : ℕ} (hgap : gap ≤ G) (hwide : a + G ≤ w) (h : c.Hits a w) :
    (c.advance gap).Hits a w := by
  rcases h with hdue | ⟨t, ht, hin⟩
  · by_cases hbefore : c.due < a
    · left
      simp only [advance]
      omega
    · right
      refine ⟨c.due, ?_, by omega⟩
      simp only [advance, List.mem_append, List.mem_singleton, or_true]
  · right
    exact ⟨t, List.mem_append_left _ ht, hin⟩

/-- A window that has passed has had an event. -/
theorem exists_of_hits (h : c.Hits a w) (hpassed : w ≤ c.due) : ∃ t ∈ c.past, a ≤ t ∧ t < w := by
  rcases h with hdue | hpast
  · omega
  · exact hpast

/-! ### Where the events of a run are -/

theorem due_replicate (c : Cadence) (n gap : ℕ) :
    (c.run (List.replicate n gap)).due = c.due + n * gap := by
  induction n generalizing c with
  | zero => simp
  | succ n ih =>
    rw [List.replicate_succ, run_cons, ih, advance, Nat.succ_mul]
    dsimp only
    omega

theorem past_subset (c : Cadence) (gaps : List ℕ) {t : ℕ} (ht : t ∈ c.past) : t ∈ (c.run gaps).past := by
  induction gaps generalizing c with
  | nil => exact ht
  | cons gap gaps ih => exact ih _ (List.mem_append_left _ ht)

theorem due_le (c : Cadence) (gaps : List ℕ) : c.due ≤ (c.run gaps).due := by
  induction gaps generalizing c with
  | nil => exact Nat.le_refl _
  | cons gap gaps ih => exact Nat.le_trans (Nat.le_add_right _ gap) (ih (c.advance gap))

/-- New events lie between what was due before the run and what is due after it. -/
theorem mem_past_run {gaps : List ℕ} (hpos : ∀ gap ∈ gaps, 0 < gap) {t : ℕ}
    (ht : t ∈ (c.run gaps).past) : t ∈ c.past ∨ (c.due ≤ t ∧ t < (c.run gaps).due) := by
  induction gaps generalizing c with
  | nil => exact .inl ht
  | cons gap gaps ih =>
    have hgap : 0 < gap := hpos gap List.mem_cons_self
    have hle := due_le (c.advance gap) gaps
    rcases ih (fun g hg => hpos g (List.mem_cons_of_mem _ hg)) ht with hold | ⟨hfrom, hto⟩
    · rcases List.mem_append.mp hold with hpast | hdue
      · exact .inl hpast
      · rw [List.mem_singleton] at hdue
        simp only [run_cons, advance] at hle ⊢
        omega
    · simp only [run_cons, advance] at hfrom hto ⊢
      omega

/-- Around one gap of a run, events lie up to its beginning and from its end on. -/
theorem mem_past_around {before after : List ℕ} {gap t : ℕ} (hbefore : ∀ g ∈ before, 0 < g)
    (hafter : ∀ g ∈ after, 0 < g) (ht : t ∈ (c.run (before ++ gap :: after)).past) :
    t ∈ c.past ∨ (c.due ≤ t ∧ t ≤ (c.run before).due) ∨
      ((c.run before).due + gap ≤ t ∧ t < (c.run (before ++ gap :: after)).due) := by
  have hle := due_le c before
  rw [run_append, run_cons] at ht ⊢
  rcases mem_past_run hafter ht with hold | hnew
  · rcases List.mem_append.mp hold with hpast | hlast
    · rcases mem_past_run hbefore hpast with hpast | hbetween
      · exact .inl hpast
      · exact .inr (.inl ⟨hbetween.1, Nat.le_of_lt hbetween.2⟩)
    · rw [List.mem_singleton] at hlast
      exact .inr (.inl (by omega))
  · exact .inr (.inr hnew)

/-- Equal gaps lead up to any moment, and no event before the last lies past it. -/
theorem exists_reaching {gap : ℕ} (hpos : 0 < gap) (c : Cadence) (w : ℕ) :
    ∃ n, w ≤ (c.run (List.replicate n gap)).due ∧
      ∀ t ∈ (c.run (List.replicate n gap)).past, t ∈ c.past ∨ (c.due ≤ t ∧ t < w) := by
  obtain ⟨k, hk⟩ : ∃ k, w ≤ c.due + k := ⟨w, Nat.le_add_left w c.due⟩
  induction k generalizing c with
  | zero => exact ⟨0, hk, fun t ht => .inl ht⟩
  | succ k ih =>
    by_cases hdone : w ≤ c.due
    · exact ⟨0, hdone, fun t ht => .inl ht⟩
    · have hnext : w ≤ (c.advance gap).due + k := by
        simp only [advance]
        omega
      obtain ⟨n, hdue, hpast⟩ := ih (c.advance gap) hnext
      refine ⟨n + 1, hdue, fun t ht => ?_⟩
      rcases hpast t ht with hold | ⟨hfrom, hto⟩
      · rcases List.mem_append.mp hold with hpast | hlast
        · exact .inl hpast
        · rw [List.mem_singleton] at hlast
          omega
      · simp only [advance] at hfrom
        omega

end Cadence

end Kit
