import Mathlib.Data.List.Basic
import Mathlib.Tactic.Common

/-! Readers that are fed one character after the other until they decide. What a
reader accepts is put together from the places it passes: a place that takes one
character, and a place that takes characters up to a delimiter. -/

namespace Kit

variable {σ χ : Type}

/-- What a reader makes of one character. -/
inductive Reaction (σ : Type) where
  | more (s : σ)
  | accept (s : σ)
  | reject (s : σ)
  deriving DecidableEq, Repr

/-- Text is fed up to the character that decides; the text behind it is left. -/
def feed (react : σ → χ → Reaction σ) (s : σ) : List χ → Reaction σ × List χ
  | [] => (.more s, [])
  | c :: text =>
    match react s c with
    | .more s => feed react s text
    | reaction => (reaction, text)

/-- It accepts and leaves that text. -/
def Accepts (react : σ → χ → Reaction σ) (s : σ) (text : List χ) (s' : σ) (rest : List χ) : Prop :=
  feed react s text = (.accept s', rest)

variable {react : σ → χ → Reaction σ} {s s' : σ} {text rest : List χ}

/-! ### Text in pieces -/

theorem feed_append_of_more (h : feed react s text = (.more s', rest)) (more : List χ) :
    rest = [] ∧ feed react s (text ++ more) = feed react s' more := by
  induction text generalizing s with
  | nil =>
    cases h
    exact ⟨rfl, rfl⟩
  | cons c text ih =>
    rw [feed] at h
    rw [List.cons_append, feed]
    cases hreact : react s c with
    | more next =>
      rw [hreact] at h
      exact ih h
    | accept next | reject next =>
      rw [hreact] at h
      cases h

/-! ### Places -/

/-- At the place a character of the class is taken, and any other refused. -/
def Takes (react : σ → χ → Reaction σ) (s : σ) (p : χ → Prop) (next : χ → σ) : Prop :=
  ∀ c, (p c → react s c = .more (next c)) ∧ (¬ p c → react s c = .reject s)

/-- Characters of the class are taken one by one, up to the delimiter, and any
other is refused. -/
structure Loops (react : σ → χ → Reaction σ) (place : List χ → σ) (p : χ → Prop) (delimiter : χ)
    (next : List χ → σ) : Prop where
  apart : ¬ p delimiter
  ends (word : List χ) : react (place word) delimiter = .more (next word)
  takes (word : List χ) (c : χ) : p c → react (place word) c = .more (place (word ++ [c]))
  refuses (word : List χ) (c : χ) : c ≠ delimiter → ¬ p c → react (place word) c = .reject (place word)

theorem not_accepts_nil : ¬ Accepts react s [] s' rest := nofun

theorem Takes.accepts_iff {p : χ → Prop} {next : χ → σ} (h : Takes react s p next) :
    Accepts react s text s' rest ↔ ∃ c text', p c ∧ text = c :: text' ∧ Accepts react (next c) text' s' rest := by
  cases text with
  | nil => simp [not_accepts_nil]
  | cons c text =>
    by_cases hc : p c
    · simp [Accepts, feed, (h c).1 hc, hc]
    · simp [Accepts, feed, (h c).2 hc, hc]

/-- One fixed character. -/
theorem Takes.accepts_cons_iff {c : χ} {next : σ} (h : Takes react s (· = c) fun _ => next) :
    Accepts react s text s' rest ↔ ∃ text', text = c :: text' ∧ Accepts react next text' s' rest := by
  rw [h.accepts_iff]
  simp

theorem Loops.accepts_iff {place next : List χ → σ} {p : χ → Prop} {delimiter : χ}
    (h : Loops react place p delimiter next) (word : List χ) : Accepts react (place word) text s' rest ↔
      ∃ more text', (∀ c ∈ more, p c) ∧ text = more ++ delimiter :: text' ∧
        Accepts react (next (word ++ more)) text' s' rest := by
  induction text generalizing word with
  | nil => simp [not_accepts_nil]
  | cons c text ih =>
    by_cases hend : c = delimiter
    · subst hend
      have hstep : Accepts react (place word) (c :: text) s' rest ↔ Accepts react (next word) text s' rest := by
        simp only [Accepts, feed, h.ends]
      rw [hstep]
      constructor
      · intro haccepts
        exact ⟨[], text, nofun, rfl, by rwa [List.append_nil]⟩
      · rintro ⟨more, text', hmore, heq, haccepts⟩
        cases more with
        | nil =>
          cases heq
          rwa [List.append_nil] at haccepts
        | cons d more =>
          cases heq
          exact absurd (hmore _ List.mem_cons_self) h.apart
    by_cases hc : p c
    · have hstep : Accepts react (place word) (c :: text) s' rest ↔
          Accepts react (place (word ++ [c])) text s' rest := by
        simp only [Accepts, feed, h.takes word c hc]
      rw [hstep, ih]
      constructor
      · rintro ⟨more, text', hmore, rfl, haccepts⟩
        refine ⟨c :: more, text', List.forall_mem_cons.mpr ⟨hc, hmore⟩, rfl, ?_⟩
        rwa [List.append_assoc] at haccepts
      · rintro ⟨more, text', hmore, heq, haccepts⟩
        cases more with
        | nil =>
          cases heq
          exact absurd rfl hend
        | cons d more =>
          cases heq
          refine ⟨more, text', (List.forall_mem_cons.mp hmore).2, rfl, ?_⟩
          rwa [List.append_assoc]
    · have hstep : ¬ Accepts react (place word) (c :: text) s' rest := by
        simp [Accepts, feed, h.refuses word c hend hc]
      refine iff_of_false hstep ?_
      rintro ⟨more, text', hmore, heq, -⟩
      cases more with
      | nil =>
        cases heq
        exact hend rfl
      | cons d more =>
        cases heq
        exact hc (hmore _ List.mem_cons_self)

/-- A word of at least one character and the delimiter behind it. -/
theorem Loops.accepts_word_iff {place next : List χ → σ} {p : χ → Prop} {delimiter : χ}
    (h : Loops react place p delimiter next) (hfirst : Takes react s p fun c => place [c]) :
    Accepts react s text s' rest ↔
      ∃ word text', (word ≠ [] ∧ ∀ c ∈ word, p c) ∧ text = word ++ delimiter :: text' ∧
        Accepts react (next word) text' s' rest := by
  rw [hfirst.accepts_iff]
  simp only [h.accepts_iff]
  constructor
  · rintro ⟨c, text, hc, rfl, more, text', hmore, rfl, haccepts⟩
    exact ⟨c :: more, text', ⟨List.cons_ne_nil _ _, List.forall_mem_cons.mpr ⟨hc, hmore⟩⟩, rfl, haccepts⟩
  · rintro ⟨word, text', ⟨hne, hword⟩, rfl, haccepts⟩
    cases word with
    | nil => exact absurd rfl hne
    | cons c more =>
      obtain ⟨hc, hmore⟩ := List.forall_mem_cons.mp hword
      exact ⟨c, _, hc, rfl, more, text', hmore, rfl, haccepts⟩

end Kit
