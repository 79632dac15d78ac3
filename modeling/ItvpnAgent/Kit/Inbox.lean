import Mathlib.Tactic.Common

/-! A queue of notifications between a kernel and a reader. A notification equal
to the last unread one may be merged with it; a read takes any number of
notifications off the front, at least one. Work is owed to notifications: as
long as there is work to do, a notification that calls for it must be unread.
The rules say what posting and reading do to that. -/

namespace Kit.Inbox

variable {E : Type}

/-- A new notification, merged with the last unread one or not. -/
def post [DecidableEq E] (merged : Bool) (e : E) (unread : List E) : Option (List E) :=
  if merged then if unread.getLast? = some e then some unread else none
  else some (unread ++ [e])

theorem mem_post [DecidableEq E] {merged : Bool} {e : E} {unread unread' : List E}
    (h : post merged e unread = some unread') (x : E) : x ∈ unread' ↔ x ∈ unread ∨ x = e := by
  cases merged with
  | false =>
    cases h
    simp
  | true =>
    simp only [post, if_true] at h
    split at h
    · next hlast =>
      cases h
      have hmem := List.mem_of_getLast? hlast
      constructor
      · exact .inl
      · rintro (hx | rfl)
        · exact hx
        · exact hmem
    · cases h

section Owes

variable {wanted : E → Prop} {owed : Prop} {unread unread' : List E}

/-- Work that is owed has an unread notification that calls for it. -/
def Owes (wanted : E → Prop) (owed : Prop) (unread : List E) : Prop :=
  owed → ∃ e ∈ unread, wanted e

/-- Dropping the first `n` notifications unseen loses nothing: none of them calls
for work, or another one that does is left, or no work is owed. -/
def Spares (wanted : E → Prop) (owed : Prop) (n : ℕ) (unread : List E) : Prop :=
  (∀ e ∈ unread.take n, ¬ wanted e) ∨ (∃ e ∈ unread.drop n, wanted e) ∨ ¬ owed

theorem owes_post [DecidableEq E] {merged : Bool} {e : E} (h : Owes wanted owed unread)
    (hpost : post merged e unread = some unread') : Owes wanted owed unread' := by
  intro ho
  obtain ⟨x, hx, hw⟩ := h ho
  exact ⟨x, (mem_post hpost x).mpr (.inl hx), hw⟩

theorem owes_of_post [DecidableEq E] {merged : Bool} {e : E} (he : wanted e)
    (hpost : post merged e unread = some unread') : Owes wanted owed unread' := fun _ =>
  ⟨e, (mem_post hpost e).mpr (.inr rfl), he⟩

theorem owes_post_iff [DecidableEq E] {merged : Bool} {e : E} (he : ¬ wanted e)
    (hpost : post merged e unread = some unread') :
    Owes wanted owed unread' ↔ Owes wanted owed unread := by
  constructor
  · intro h ho
    obtain ⟨x, hx, hw⟩ := h ho
    rcases (mem_post hpost x).mp hx with hold | rfl
    · exact ⟨x, hold, hw⟩
    · exact absurd hw he
  · exact fun h => owes_post h hpost

theorem owes_drop_iff {n : ℕ} (h : Owes wanted owed unread) :
    Owes wanted owed (unread.drop n) ↔ Spares wanted owed n unread := by
  constructor
  · intro hdrop
    by_cases ho : owed
    · exact .inr (.inl (hdrop ho))
    · exact .inr (.inr ho)
  · rintro (hnone | hleft | hdone) ho
    · obtain ⟨e, he, hw⟩ := h ho
      rw [← List.take_append_drop n unread, List.mem_append] at he
      obtain he | he := he
      · exact absurd hw (hnone e he)
      · exact ⟨e, he, hw⟩
    · exact hleft
    · exact absurd ho hdone

theorem owes_nil : Owes wanted owed [] ↔ ¬ owed := by
  simp [Owes]

end Owes

end Kit.Inbox
