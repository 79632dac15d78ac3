import Mathlib.Data.Nat.Notation
import Mathlib.Init

/-! Labelled transition systems as partial functions. A run is a list of
labels; `Along` says that every step a run takes meets a condition on the state
before it and its label, `Always` that every state it passes satisfies a
predicate. The two rules carry an invariant over a run, and turn an exact
condition on one step into the exact condition on a whole run. -/

namespace Kit

structure Machine (σ α : Type) where
  step : σ → α → Option σ

namespace Machine

variable {σ α : Type} (M : Machine σ α)

def run : σ → List α → Option σ
  | s, [] => some s
  | s, a :: as => (M.step s a).bind fun t => run t as

/-- Every step of the run from `s` along the labels meets `C`. -/
def Along (C : σ → α → Prop) : σ → List α → Prop
  | _, [] => True
  | s, a :: as => ∀ t, M.step s a = some t → C s a ∧ Along C t as

/-- Every state of the run from `s` along the labels satisfies `P`. -/
def Always (P : σ → Prop) : σ → List α → Prop
  | s, [] => P s
  | s, a :: as => P s ∧ ∀ t, M.step s a = some t → Always P t as

theorem run_cons {s t : σ} {a : α} {as : List α} (h : M.step s a = some t) :
    M.run s (a :: as) = M.run t as := by
  simp only [run, h, Option.bind_some]

theorem run_append {as bs : List α} {s : σ} :
    M.run s (as ++ bs) = (M.run s as).bind fun t => M.run t bs := by
  induction as generalizing s with
  | nil => rfl
  | cons a as ih =>
    simp only [List.cons_append, run, ih, Option.bind_assoc]

theorem along_append {C : σ → α → Prop} {as bs : List α} {s t : σ} (h : M.Along C s (as ++ bs))
    (hrun : M.run s as = some t) : M.Along C s as ∧ M.Along C t bs := by
  induction as generalizing s with
  | nil =>
    cases hrun
    exact ⟨trivial, h⟩
  | cons a as ih =>
    obtain ⟨u, hu, hrun⟩ := Option.bind_eq_some_iff.mp hrun
    obtain ⟨hCa, h⟩ := h u hu
    obtain ⟨has, hbs⟩ := ih h hrun
    refine ⟨fun v hv => ?_, hbs⟩
    cases hu.symm.trans hv
    exact ⟨hCa, has⟩

theorem along_of_forall {C : α → Prop} : ∀ {as : List α} {s : σ}, (∀ a ∈ as, C a) →
    M.Along (fun _ => C) s as
  | [], _, _ => trivial
  | _ :: _, _, h => fun _ _ =>
    ⟨h _ List.mem_cons_self, along_of_forall fun b hb => h b (List.mem_cons_of_mem _ hb)⟩

/-- Invariant rule: what every conforming step keeps holds at the end of every
conforming run, hence in every state it passes. -/
theorem run_invariant {C : σ → α → Prop} {I : σ → Prop}
    (hstep : ∀ s a t, I s → C s a → M.step s a = some t → I t) :
    ∀ {as : List α} {s t : σ}, I s → M.Along C s as → M.run s as = some t → I t
  | [], s, t, hs, _, hrun => by
    cases hrun
    exact hs
  | a :: as, s, t, hs, hC, hrun => by
    obtain ⟨u, hu, hrun⟩ := Option.bind_eq_some_iff.mp hrun
    obtain ⟨hCa, hC⟩ := hC u hu
    exact run_invariant hstep (hstep s a u hs hCa hu) hC hrun

/-- Exactness rule: if, under the invariant `J`, a step out of a `P`-state stays
in `P` exactly when it meets `C`, then a run stays in `P` exactly when all its
steps meet `C`. `L` is what is known of the labels beforehand. -/
theorem always_iff_along_of_forall {L : α → Prop} {C : σ → α → Prop} {J P : σ → Prop}
    (hJ : ∀ s a t, L a → J s → M.step s a = some t → J t)
    (hexact : ∀ s a t, L a → J s → P s → M.step s a = some t → (P t ↔ C s a)) :
    ∀ {as : List α} {s : σ}, (∀ a ∈ as, L a) → J s → P s → (M.Always P s as ↔ M.Along C s as)
  | [], _, _, _, hP => by simp only [Always, Along, hP]
  | a :: as, s, hL, hs, hP => by
    have hLa : L a := hL a List.mem_cons_self
    have hLas : ∀ b ∈ as, L b := fun b hb => hL b (List.mem_cons_of_mem _ hb)
    constructor
    · rintro ⟨_, hall⟩ t ht
      have hPt : P t := by
        cases as with
        | nil => exact hall t ht
        | cons b bs => exact (hall t ht).1
      exact ⟨(hexact s a t hLa hs hP ht).mp hPt,
        (always_iff_along_of_forall hJ hexact hLas (hJ s a t hLa hs ht) hPt).mp (hall t ht)⟩
    · intro hC
      refine ⟨hP, fun t ht => ?_⟩
      obtain ⟨hCa, hC⟩ := hC t ht
      have hPt := (hexact s a t hLa hs hP ht).mpr hCa
      exact (always_iff_along_of_forall hJ hexact hLas (hJ s a t hLa hs ht) hPt).mpr hC

/-- The exactness rule for any labels. -/
theorem always_iff_along {C : σ → α → Prop} {J P : σ → Prop}
    (hJ : ∀ s a t, J s → M.step s a = some t → J t)
    (hexact : ∀ s a t, J s → P s → M.step s a = some t → (P t ↔ C s a)) {as : List α} {s : σ}
    (hs : J s) (hP : P s) : M.Always P s as ↔ M.Along C s as :=
  M.always_iff_along_of_forall (L := fun _ => True) (fun s a t _ => hJ s a t)
    (fun s a t _ => hexact s a t) (fun _ _ => trivial) hs hP

/-- History rule: what every step carries on, of the labels so far and the state they
lead to, holds of every run. -/
theorem run_history {P : List α → σ → Prop}
    (hstep : ∀ as s a t, P as s → M.step s a = some t → P (as ++ [a]) t) {as bs : List α} {s t : σ}
    (hP : P as s) (hrun : M.run s bs = some t) : P (as ++ bs) t := by
  induction bs generalizing as s with
  | nil =>
    cases hrun
    rwa [List.append_nil]
  | cons b bs ih =>
    obtain ⟨u, hu, hrun⟩ := Option.bind_eq_some_iff.mp hrun
    have hnext := ih (hstep as s b u hP hu) hrun
    rwa [List.append_assoc] at hnext

/-- What the steps of a run add up to, each adding what `f` says of it. -/
def collect {β : Type} (f : σ → α → List β) : σ → List α → List β
  | _, [] => []
  | s, a :: as =>
    match M.step s a with
    | some t => f s a ++ collect f t as
    | none => []

theorem collect_cons {β : Type} (f : σ → α → List β) {s t : σ} {a : α} {as : List α}
    (h : M.step s a = some t) : M.collect f s (a :: as) = f s a ++ M.collect f t as := by
  simp only [collect, h]

/-- Refinement rule: where each step is, for another machine, the steps that `f` says,
a run is the run of all of them. -/
theorem run_refines {τ β : Type} (N : Machine τ β) {abs : σ → τ} {f : σ → α → List β}
    (hstep : ∀ s a t, M.step s a = some t → N.run (abs s) (f s a) = some (abs t)) :
    ∀ {as : List α} {s t : σ}, M.run s as = some t → N.run (abs s) (M.collect f s as) = some (abs t)
  | [], s, t, hrun => by
    cases hrun
    rfl
  | a :: as, s, t, hrun => by
    obtain ⟨u, hu, hrun⟩ := Option.bind_eq_some_iff.mp hrun
    rw [collect_cons M f hu, run_append, hstep s a u hu, Option.bind_some, run_refines N hstep hrun]

/-- What a run adds up to comes from one of its steps. -/
theorem mem_collect_iff {β : Type} {f : σ → α → List β} {b : β} {as : List α} {s t : σ}
    (hrun : M.run s as = some t) :
    b ∈ M.collect f s as ↔
      ∃ before a after u, as = before ++ a :: after ∧ M.run s before = some u ∧ b ∈ f u a := by
  induction as generalizing s with
  | nil => simp [collect]
  | cons a as ih =>
    obtain ⟨u, hu, hrun⟩ := Option.bind_eq_some_iff.mp hrun
    rw [collect_cons M f hu, List.mem_append, ih hrun]
    constructor
    · rintro (hb | ⟨before, a', after, v, rfl, hv, hb⟩)
      · exact ⟨[], a, as, s, rfl, rfl, hb⟩
      · exact ⟨a :: before, a', after, v, rfl, by rw [run_cons M hu, hv], hb⟩
    · rintro ⟨before, a', after, v, has, hv, hb⟩
      cases before with
      | nil =>
        cases hv
        cases has
        exact .inl hb
      | cons c before =>
        cases has
        rw [run_cons M hu] at hv
        exact .inr ⟨before, a', after, v, rfl, hv, hb⟩

/-- Balance rule: an account that every step changes by as much as it adds, a run
changes by as much as the run adds up to. -/
theorem account_of_run {β : Type} {f : σ → α → List β} {I : σ → Prop} {account : σ → ℕ}
    (hstep : ∀ s a t, I s → M.step s a = some t → I t ∧ account t = account s + (f s a).length) :
    ∀ {as : List α} {s t : σ}, I s → M.run s as = some t →
      I t ∧ account t = account s + (M.collect f s as).length
  | [], s, t, hs, hrun => by
    cases hrun
    exact ⟨hs, rfl⟩
  | a :: as, s, t, hs, hrun => by
    obtain ⟨u, hu, hrun⟩ := Option.bind_eq_some_iff.mp hrun
    obtain ⟨hIu, hone⟩ := hstep s a u hs hu
    obtain ⟨hIt, hrest⟩ := account_of_run hstep hIu hrun
    refine ⟨hIt, ?_⟩
    rw [collect_cons M f hu, List.length_append, hrest, hone]
    omega

/-- Drain rule: a run whose steps all make the measure smaller has at most as many
steps as the measure says. -/
theorem length_add_le {I : σ → Prop} {measure : σ → ℕ} (hI : ∀ s a t, I s → M.step s a = some t → I t)
    (hless : ∀ s a t, I s → M.step s a = some t → measure t < measure s) :
    ∀ {as : List α} {s t : σ}, I s → M.run s as = some t → as.length + measure t ≤ measure s
  | [], s, t, _, hrun => by
    cases hrun
    simp
  | a :: as, s, t, hs, hrun => by
    obtain ⟨u, hu, hrun⟩ := Option.bind_eq_some_iff.mp hrun
    have hstep := hless s a u hs hu
    have hrest := length_add_le hI hless (hI s a u hs hu) hrun
    rw [List.length_cons]
    omega

end Machine

end Kit
