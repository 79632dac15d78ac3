import Mathlib.Init

/-! Sequential code that keeps a state, may leave through an exception, may run
into undefined behaviour and may never end. The state survives a throw, so a
handler starts from whatever the interrupted code has already done. The rules
below follow the constructors: a return, a sequence, a handler. `wp` is the
weakest precondition of code that may run on but must not go wrong; its rules
are equivalences, so they also say when code does go wrong. -/

namespace Kit

/-- How a piece of code ends. -/
inductive Outcome (ε α : Type) where
  | ok (value : α)
  | throw (error : ε)
  | undefined
  | stuck
  deriving DecidableEq, Repr

/-- The outcome of a call that returns or throws. -/
def Outcome.ofExcept {ε α : Type} : Except ε α → Outcome ε α
  | .ok a => .ok a
  | .error e => .throw e

@[simp] theorem Outcome.ofExcept_ok {ε α : Type} (a : α) :
    Outcome.ofExcept (.ok a : Except ε α) = .ok a := rfl

@[simp] theorem Outcome.ofExcept_error {ε α : Type} (e : ε) :
    Outcome.ofExcept (.error e : Except ε α) = .throw e := rfl

/-- Code over a state `σ` that throws values of `ε`. -/
def Prog (σ ε α : Type) := σ → Outcome ε α × σ

namespace Prog

variable {σ τ ε α β : Type}

def ret (a : α) : Prog σ ε α := fun s => (.ok a, s)

def andThen (x : Prog σ ε α) (f : α → Prog σ ε β) : Prog σ ε β := fun s =>
  match x s with
  | (.ok a, t) => f a t
  | (.throw e, t) => (.throw e, t)
  | (.undefined, t) => (.undefined, t)
  | (.stuck, t) => (.stuck, t)

instance : Monad (Prog σ ε) where
  pure := ret
  bind := andThen

def raise (e : ε) : Prog σ ε α := fun s => (.throw e, s)

/-- Behaviour the language does not define; no handler sees it. -/
def undef : Prog σ ε α := fun s => (.undefined, s)

/-- A loop that is still running when its inputs are used up. -/
def hang : Prog σ ε α := fun s => (.stuck, s)

def update (f : σ → σ) : Prog σ ε Unit := fun s => (.ok (), f s)

def read : Prog σ ε σ := fun s => (.ok s, s)

/-- A call that leaves the state alone. -/
def exit (o : Outcome ε α) : Prog σ ε α := fun s => (o, s)

/-- A call whose result is known beforehand: it returns or throws. -/
def lift : Except ε α → Prog σ ε α
  | .ok a => ret a
  | .error e => raise e

/-- Use of a pointer that may be null. -/
def deref : Option α → Prog σ ε α
  | some a => ret a
  | none => undef

/-- Code with a state of its own, started from `init`; that state dies with it. -/
def within (init : τ) (x : Prog τ ε α) : Prog σ ε α := fun s => ((x init).1, s)

/-- `try x` with catch clauses: `clauses e` is the first clause that matches `e`. -/
def catching (x : Prog σ ε Unit) (clauses : ε → Option (Prog σ ε Unit)) : Prog σ ε Unit := fun s =>
  match x s with
  | (.throw e, t) =>
    match clauses e with
    | some handler => handler t
    | none => (.throw e, t)
  | r => r

@[simp] theorem pure_run (a : α) (s : σ) : (pure a : Prog σ ε α) s = (.ok a, s) := rfl

@[simp] theorem ret_run (a : α) (s : σ) : (ret a : Prog σ ε α) s = (.ok a, s) := rfl

@[simp] theorem raise_run (e : ε) (s : σ) : (raise e : Prog σ ε α) s = (.throw e, s) := rfl

@[simp] theorem undef_run (s : σ) : (undef : Prog σ ε α) s = (.undefined, s) := rfl

@[simp] theorem hang_run (s : σ) : (hang : Prog σ ε α) s = (.stuck, s) := rfl

@[simp] theorem update_run (f : σ → σ) (s : σ) : (update f : Prog σ ε Unit) s = (.ok (), f s) := rfl

@[simp] theorem read_run (s : σ) : (read : Prog σ ε σ) s = (.ok s, s) := rfl

@[simp] theorem exit_run (o : Outcome ε α) (s : σ) : (exit o : Prog σ ε α) s = (o, s) := rfl

@[simp] theorem lift_ok (a : α) (s : σ) : (lift (.ok a) : Prog σ ε α) s = (.ok a, s) := rfl

@[simp] theorem lift_error (e : ε) (s : σ) : (lift (.error e) : Prog σ ε α) s = (.throw e, s) := rfl

@[simp] theorem deref_some (a : α) (s : σ) : (deref (some a) : Prog σ ε α) s = (.ok a, s) := rfl

@[simp] theorem deref_none (s : σ) : (deref none : Prog σ ε α) s = (.undefined, s) := rfl

@[simp] theorem within_run (init : τ) (x : Prog τ ε α) (s : σ) :
    (within init x : Prog σ ε α) s = ((x init).1, s) := rfl

theorem bind_run (x : Prog σ ε α) (f : α → Prog σ ε β) (s : σ) :
    (x >>= f) s = match x s with
      | (.ok a, t) => f a t
      | (.throw e, t) => (.throw e, t)
      | (.undefined, t) => (.undefined, t)
      | (.stuck, t) => (.stuck, t) := rfl

theorem bind_assoc {γ : Type} (x : Prog σ ε α) (f : α → Prog σ ε β) (g : β → Prog σ ε γ) :
    ((x >>= f) >>= g) = x >>= fun a => f a >>= g := by
  funext s
  simp only [bind_run]
  obtain ⟨o, t⟩ := x s
  cases o <;> rfl

theorem bind_ok {x : Prog σ ε α} {f : α → Prog σ ε β} {s t : σ} {a : α} (h : x s = (.ok a, t)) :
    (x >>= f) s = f a t := by
  rw [bind_run, h]

theorem bind_ok_iff {x : Prog σ ε α} {f : α → Prog σ ε β} {s t : σ} {b : β} :
    (x >>= f) s = (.ok b, t) ↔ ∃ a u, x s = (.ok a, u) ∧ f a u = (.ok b, t) := by
  rw [bind_run]
  constructor
  · split
    · next a u h => exact fun hf => ⟨a, u, h, hf⟩
    all_goals exact nofun
  · rintro ⟨a, u, h, hf⟩
    rw [h]
    exact hf

theorem lift_ok_iff {x : Except ε α} {s t : σ} {a : α} :
    lift x s = (.ok a, t) ↔ x = .ok a ∧ t = s := by
  cases x <;> simp [eq_comm]

theorem deref_ok_iff {o : Option α} {s t : σ} {a : α} :
    (deref o : Prog σ ε α) s = (.ok a, t) ↔ o = some a ∧ t = s := by
  cases o with
  | none => simp
  | some b => simp [eq_comm]

/-- A sequence runs into undefined behaviour in its first or in its second half. -/
theorem bind_undefined_iff {x : Prog σ ε α} {f : α → Prog σ ε β} {s : σ} :
    ((x >>= f) s).1 = .undefined ↔
      (x s).1 = .undefined ∨ ∃ a u, x s = (.ok a, u) ∧ (f a u).1 = .undefined := by
  rw [bind_run]
  generalize x s = r
  obtain ⟨o, u⟩ := r
  cases o with
  | ok a =>
    constructor
    · exact fun h => .inr ⟨a, u, rfl, h⟩
    · rintro (h | ⟨b, v, hb, h⟩)
      · cases h
      · cases hb
        exact h
  | throw | undefined | stuck => simp

theorem lift_ne_undefined (x : Except ε α) (s : σ) : (lift x s).1 ≠ .undefined := by
  cases x <;> nofun

/-! ### Code without undefined behaviour -/

/-- Wherever it starts, the code meets no undefined behaviour. -/
def Safe (x : Prog σ ε α) : Prop := ∀ s, (x s).1 ≠ .undefined

section Safe

theorem safe_pure (a : α) : Safe (pure a : Prog σ ε α) := fun _ => nofun

theorem safe_read : Safe (read : Prog σ ε σ) := fun _ => nofun

theorem safe_update (f : σ → σ) : Safe (update f : Prog σ ε Unit) := fun _ => nofun

theorem safe_lift (x : Except ε α) : Safe (lift x : Prog σ ε α) := lift_ne_undefined x

theorem Safe.bind {x : Prog σ ε α} {f : α → Prog σ ε β} (hx : Safe x) (hf : ∀ a, Safe (f a)) :
    Safe (x >>= f) := by
  intro s h
  rcases bind_undefined_iff.mp h with h | ⟨a, u, -, h⟩
  · exact hx s h
  · exact hf a u h

theorem Safe.ite {c : Prop} [Decidable c] {x y : Prog σ ε α} (hx : Safe x) (hy : Safe y) :
    Safe (if c then x else y) := by
  split
  · exact hx
  · exact hy

end Safe

/-! ### What code can throw -/

/-- Every outcome of the code, except a return and undefined behaviour, is a
throw that satisfies `p`. -/
def ThrowsOnly (p : ε → Prop) (x : Prog σ ε α) : Prop :=
  ∀ s, (x s).1 ≠ .stuck ∧ ∀ e, (x s).1 = .throw e → p e

section ThrowsOnly

variable {p : ε → Prop}

theorem throwsOnly_pure (a : α) : ThrowsOnly p (pure a : Prog σ ε α) := fun _ =>
  ⟨nofun, nofun⟩

theorem throwsOnly_undef : ThrowsOnly p (undef : Prog σ ε α) := fun _ => ⟨nofun, nofun⟩

theorem throwsOnly_update (f : σ → σ) : ThrowsOnly p (update f : Prog σ ε Unit) := fun _ =>
  ⟨nofun, nofun⟩

theorem throwsOnly_read : ThrowsOnly p (read : Prog σ ε σ) := fun _ => ⟨nofun, nofun⟩

theorem throwsOnly_lift {x : Except ε α} (h : ∀ e, x = .error e → p e) :
    ThrowsOnly p (lift x : Prog σ ε α) := by
  cases x with
  | ok a => exact fun _ => ⟨nofun, nofun⟩
  | error e =>
    refine fun _ => ⟨nofun, fun e' h' => ?_⟩
    cases h'
    exact h e rfl

theorem ThrowsOnly.bind {x : Prog σ ε α} {f : α → Prog σ ε β} (hx : ThrowsOnly p x)
    (hf : ∀ a, ThrowsOnly p (f a)) : ThrowsOnly p (x >>= f) := by
  intro s
  obtain ⟨hstuck, hthrow⟩ := hx s
  rw [bind_run]
  split
  · next a t h => exact hf a t
  · next e t h =>
    refine ⟨nofun, fun e' h' => ?_⟩
    cases h'
    exact hthrow e (by rw [h])
  · exact ⟨nofun, nofun⟩
  · next t h => exact absurd (by rw [h]) hstuck

theorem ThrowsOnly.ite {c : Prop} [Decidable c] {x y : Prog σ ε α} (hx : ThrowsOnly p x)
    (hy : ThrowsOnly p y) : ThrowsOnly p (if c then x else y) := by
  split
  · exact hx
  · exact hy

end ThrowsOnly

/-! ### What code does to the state -/

/-- However the code ends, it leaves a state related to the one it started in. -/
def Moves (R : σ → σ → Prop) (x : Prog σ ε α) : Prop := ∀ s, R s (x s).2

section Moves

variable {R : σ → σ → Prop}

theorem moves_of_refl (hrefl : ∀ s, R s s) {x : Prog σ ε α} (h : ∀ s, (x s).2 = s) : Moves R x := by
  intro s
  rw [h s]
  exact hrefl s

theorem bind_moves (htrans : ∀ s t u, R s t → R t u → R s u) {x : Prog σ ε α} {f : α → Prog σ ε β}
    {s u : σ} (hx : R u (x s).2) (hf : ∀ a t, x s = (.ok a, t) → R t (f a t).2) :
    R u ((x >>= f) s).2 := by
  rw [bind_run]
  split
  · next a t h =>
    rw [h] at hx
    exact htrans _ _ _ hx (hf a t h)
  all_goals
    next h =>
      rw [h] at hx
      exact hx

theorem Moves.bind (htrans : ∀ s t u, R s t → R t u → R s u) {x : Prog σ ε α} {f : α → Prog σ ε β}
    (hx : Moves R x) (hf : ∀ a, Moves R (f a)) : Moves R (x >>= f) := fun s =>
  bind_moves htrans (hx s) fun a t _ => hf a t

theorem Moves.ite {c : Prop} [Decidable c] {x y : Prog σ ε α} (hx : Moves R x) (hy : Moves R y) :
    Moves R (if c then x else y) := by
  split
  · exact hx
  · exact hy

theorem catching_moves (htrans : ∀ s t u, R s t → R t u → R s u) {x : Prog σ ε Unit}
    {clauses : ε → Option (Prog σ ε Unit)} {s u : σ} (hx : R u (x s).2)
    (hc : ∀ e handler, clauses e = some handler → Moves R handler) :
    R u (catching x clauses s).2 := by
  unfold catching
  split
  · next e t h =>
    rw [h] at hx
    split
    · next handler hh => exact htrans _ _ _ hx (hc e handler hh t)
    · exact hx
  · exact hx

theorem Moves.catching (htrans : ∀ s t u, R s t → R t u → R s u) {x : Prog σ ε Unit}
    {clauses : ε → Option (Prog σ ε Unit)} (hx : Moves R x)
    (hc : ∀ e handler, clauses e = some handler → Moves R handler) :
    Moves R (catching x clauses) := fun s => catching_moves htrans (hx s) hc

end Moves

/-! ### Weakest preconditions -/

/-- The result is right: what is returned satisfies `P`, what is thrown `p`. -/
def Meets (x : Except ε α) (p : ε → Prop) (P : α → Prop) : Prop :=
  match x with
  | .ok a => P a
  | .error e => p e

/-- Started in `s`, the code meets no undefined behaviour; if it returns then
with `P`, if it throws then with `p`. -/
def wp (x : Prog σ ε α) (P : α → σ → Prop) (p : ε → σ → Prop) (s : σ) : Prop :=
  match x s with
  | (.ok a, t) => P a t
  | (.throw e, t) => p e t
  | (.undefined, _) => False
  | (.stuck, _) => True

section Wp

variable {P : α → σ → Prop} {p : ε → σ → Prop} {s : σ}

@[simp] theorem wp_pure (a : α) : wp (pure a : Prog σ ε α) P p s ↔ P a s := Iff.rfl

@[simp] theorem wp_raise (e : ε) : wp (raise e : Prog σ ε α) P p s ↔ p e s := Iff.rfl

@[simp] theorem wp_undef : wp (undef : Prog σ ε α) P p s ↔ False := Iff.rfl

@[simp] theorem wp_hang : wp (hang : Prog σ ε α) P p s ↔ True := Iff.rfl

@[simp] theorem wp_update {P : Unit → σ → Prop} (f : σ → σ) :
    wp (update f : Prog σ ε Unit) P p s ↔ P () (f s) := Iff.rfl

@[simp] theorem wp_read {P : σ → σ → Prop} : wp (read : Prog σ ε σ) P p s ↔ P s s := Iff.rfl

theorem wp_lift (x : Except ε α) :
    wp (lift x : Prog σ ε α) P p s ↔ Meets x (fun e => p e s) (fun a => P a s) := by
  cases x <;> exact Iff.rfl

theorem wp_exit (o : Outcome ε α) :
    wp (exit o : Prog σ ε α) P p s ↔
      match o with
      | .ok a => P a s
      | .throw e => p e s
      | .undefined => False
      | .stuck => True := by
  cases o <;> exact Iff.rfl

theorem wp_within {init : τ} {x : Prog τ ε α} {P : α → σ → Prop} {p : ε → σ → Prop} {s : σ} :
    wp (within init x : Prog σ ε α) P p s ↔ wp x (fun a _ => P a s) (fun e _ => p e s) init := by
  unfold wp
  rw [within_run]
  generalize x init = r
  obtain ⟨_ | _ | _ | _, t⟩ := r <;> rfl

@[simp] theorem wp_bind (x : Prog σ ε α) (f : α → Prog σ ε β) {P : β → σ → Prop} :
    wp (x >>= f) P p s ↔ wp x (fun a t => wp (f a) P p t) p s := by
  unfold wp
  rw [bind_run]
  generalize x s = r
  obtain ⟨_ | _ | _ | _, t⟩ := r <;> rfl

/-- Where the final state is known beforehand, the conditions need not mention it. -/
theorem wp_of_state {x : Prog σ ε α} {t : σ} (h : (x s).2 = t) :
    wp x P p s ↔ wp x (fun a _ => P a t) (fun e _ => p e t) s := by
  unfold wp
  rw [← h]
  generalize x s = r
  obtain ⟨_ | _ | _ | _, t⟩ := r <;> rfl

theorem wp_of_ok {x : Prog σ ε α} {a : α} {t : σ} (h : x s = (.ok a, t)) : wp x P p s ↔ P a t := by
  unfold wp
  rw [h]

theorem wp_catching {x : Prog σ ε Unit} {clauses : ε → Option (Prog σ ε Unit)}
    {P : Unit → σ → Prop} :
    wp (catching x clauses) P p s ↔
      wp x P (fun e t => match clauses e with
        | some handler => wp handler P p t
        | none => p e t) s := by
  unfold wp catching
  generalize x s = r
  obtain ⟨_ | e | _ | _, t⟩ := r
  · rfl
  · dsimp only
    cases clauses e <;> rfl
  · rfl
  · rfl

end Wp

/-! ### Handlers -/

variable {x : Prog σ ε Unit} {clauses : ε → Option (Prog σ ε Unit)} {s t : σ}

theorem catching_ok (h : x s = (.ok (), t)) : catching x clauses s = (.ok (), t) := by
  unfold catching
  rw [h]

theorem catching_caught {e : ε} {handler : Prog σ ε Unit} (h : x s = (.throw e, t))
    (hc : clauses e = some handler) : catching x clauses s = handler t := by
  unfold catching
  rw [h]
  simp only [hc]

end Prog

end Kit
