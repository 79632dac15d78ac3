import Mathlib.Data.Finset.Card
import Mathlib.Data.Finset.Image
import Mathlib.Logic.Relation
import Mathlib.Order.Interval.Finset.Nat
import Mathlib.Tactic.Common

/-! Walks that follow a partial function. If only finitely many states have a next
one, a walk ends exactly if no state it comes to leads back to itself. -/

namespace Kit

section Walk

variable {σ : Type} (next : σ → Option σ)

/-- One step. -/
def Steps (s t : σ) : Prop := next s = some t

/-- Where a walk is after a number of steps, if it goes that far. -/
def after (s : σ) : ℕ → Option σ
  | 0 => some s
  | k + 1 => (after s k).bind next

variable {next} {s t : σ} {j k : ℕ}

theorem after_add (h : after next s j = some t) (k : ℕ) : after next s (j + k) = after next t k := by
  induction k with
  | zero => exact h
  | succ k ih => rw [← Nat.add_assoc, after, ih, after]

/-- The first step apart. -/
theorem after_succ (s : σ) (k : ℕ) : after next s (k + 1) = (next s).bind fun t => after next t k := by
  induction k with
  | zero =>
    rw [after, after, Option.bind_some]
    cases next s with
    | none => rfl
    | some t => rfl
  | succ k ih =>
    rw [after, ih]
    cases next s with
    | none => rfl
    | some t => rw [Option.bind_some, Option.bind_some, after]

theorem after_eq_none_of_le (h : after next s j = none) (hle : j ≤ k) : after next s k = none := by
  induction k, hle using Nat.le_induction with
  | base => exact h
  | succ k _ ih => rw [after, ih, Option.bind_none]

/-- A walk that comes back to a state comes back to it for ever. -/
theorem after_mul (h : after next t k = some t) (m : ℕ) : after next t (m * k) = some t := by
  induction m with
  | zero => rw [Nat.zero_mul, after]
  | succ m ih => rw [Nat.succ_mul, after_add ih, h]

theorem after_ne_none_of_repeat (hlt : j < k) (hj : after next s j = some t) (hk : after next s k = some t)
    (m : ℕ) : after next s m ≠ none := by
  have hround : after next t (k - j) = some t := by
    rw [← after_add hj, Nat.add_sub_cancel' hlt.le, hk]
  intro hnone
  -- go round often enough to be past the end
  have hpast : m ≤ j + m * (k - j) := by
    calc m = m * 1 := (Nat.mul_one m).symm
      _ ≤ m * (k - j) := Nat.mul_le_mul_left m (Nat.sub_pos_of_lt hlt)
      _ ≤ j + m * (k - j) := Nat.le_add_left _ _
  have hend := after_eq_none_of_le hnone hpast
  rw [after_add hj, after_mul hround] at hend
  cases hend

/-! ### As a relation -/

theorem exists_after_iff : (∃ k, after next s k = some t) ↔ Relation.ReflTransGen (Steps next) s t := by
  constructor
  · rintro ⟨k, hk⟩
    induction k generalizing t with
    | zero =>
      cases hk
      exact .refl
    | succ k ih =>
      obtain ⟨u, hu, ht⟩ := Option.bind_eq_some_iff.mp hk
      exact (ih hu).tail ht
  · intro h
    induction h with
    | refl => exact ⟨0, rfl⟩
    | tail _ hstep ih =>
      obtain ⟨k, hk⟩ := ih
      exact ⟨k + 1, by rw [after, hk]; exact hstep⟩

theorem exists_after_succ_iff : (∃ k, after next s (k + 1) = some t) ↔ Relation.TransGen (Steps next) s t := by
  simp only [Relation.TransGen.head'_iff, ← exists_after_iff, after_succ, Option.bind_eq_some_iff]
  constructor
  · rintro ⟨k, u, hu, ht⟩
    exact ⟨u, hu, k, ht⟩
  · rintro ⟨u, hu, k, ht⟩
    exact ⟨k, u, hu, ht⟩

theorem after_ends_iff (S : Finset σ) (hS : ∀ t, next t ≠ none → t ∈ S) :
    (∃ k, after next s k = none) ↔
      ∀ t, Relation.ReflTransGen (Steps next) s t → ¬ Relation.TransGen (Steps next) t t := by
  constructor
  · rintro ⟨m, hm⟩ t hreach hround
    obtain ⟨j, hj⟩ := exists_after_iff.mpr hreach
    obtain ⟨k, hk⟩ := exists_after_succ_iff.mpr hround
    have hback : after next s (j + (k + 1)) = some t := by rw [after_add hj, hk]
    exact after_ne_none_of_repeat (Nat.lt_add_of_pos_right k.succ_pos) hj hback m hm
  · intro hnoround
    by_contra hendless
    rw [not_exists] at hendless
    have hsome (k : ℕ) : ∃ t, after next s k = some t := Option.ne_none_iff_exists'.mp (hendless k)
    choose state hstate using hsome
    have hdistinct {j k : ℕ} (hlt : j < k) : state j ≠ state k := by
      intro hsame
      obtain ⟨d, rfl⟩ := Nat.exists_eq_add_of_lt hlt
      have hround : after next (state j) (d + 1) = some (state j) := by
        rw [← after_add (hstate j), ← Nat.add_assoc, hstate, hsame]
      exact hnoround _ (exists_after_iff.mp ⟨j, hstate j⟩) (exists_after_succ_iff.mp ⟨d, hround⟩)
    -- one state more than there are
    have hmaps : ∀ k ∈ Finset.range (S.card + 1), state k ∈ S := by
      intro k _
      refine hS (state k) fun hnone => hendless (k + 1) ?_
      rw [after, hstate k, Option.bind_some, hnone]
    obtain ⟨j, -, k, -, hne, hsame⟩ := Finset.exists_ne_map_eq_of_card_lt_of_maps_to
      (by rw [Finset.card_range]; exact Nat.lt_succ_self _) hmaps
    rcases Nat.lt_or_gt_of_ne hne with hlt | hlt
    · exact hdistinct hlt hsame
    · exact hdistinct hlt hsame.symm

end Walk

end Kit
