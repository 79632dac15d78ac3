import ItvpnAgent.Kit.Text
import Mathlib.Data.List.Chain

/-! Paths as names between separators. Repeated and trailing separators stand for
no name, and the name `.` is no step; so a path has a last name and a parent
directory however it is written. -/

namespace Kit.Path

def names (s : Str) : List Str := (s.splitOn '/').filter (· ≠ [])

def IsAbsolute (s : Str) : Prop := s.head? = some '/'

/-- The names that lead somewhere else. -/
def steps (names : List Str) : List Str := names.filter (· ≠ ".".toList)

/-- The directory is the one in which the last name of the path is looked up. -/
def IsParent (directory path : Str) : Prop :=
  (IsAbsolute directory ↔ IsAbsolute path) ∧ steps (names directory) = steps (names path).dropLast

def IsLastName (name path : Str) : Prop := (names path).getLast? = some name

/-- The same path, but for a leading `./` of one of them. -/
def SamePath (a b : Str) : Prop := a = b ∨ a = "./".toList ++ b ∨ b = "./".toList ++ a

theorem names_append (front back : Str) : names (front ++ '/' :: back) = names front ++ names back := by
  simp only [names, List.splitOn_eq_splitOnP]
  rw [List.splitOnP_append_cons front back (by rfl), List.filter_append]

theorem names_of_notMem {s : Str} (hne : s ≠ []) (h : '/' ∉ s) : names s = [s] := by
  have hsplit : s.splitOnP (· == '/') = [s] := List.splitOnP_eq_singleton fun c hc => by
    rw [beq_eq_false_iff_ne]
    rintro rfl
    exact h hc
  rw [names, List.splitOn_eq_splitOnP, hsplit, List.filter_cons_of_pos (by simpa using hne), List.filter_nil]

theorem IsLastName.ne_nil {name path : Str} (h : IsLastName name path) : name ≠ [] := by
  have hmem := (List.mem_filter.mp (List.mem_of_getLast? h)).2
  simpa using hmem

/-- A path that ends in a name is cut before it. -/
theorem isParent_append (front : Str) {name : Str} (hne : name ≠ []) (h : '/' ∉ name) :
    IsParent (front ++ ['/']) (front ++ '/' :: name) ∧ IsLastName name (front ++ '/' :: name) := by
  have hnil : names [] = [] := rfl
  have hfront : names (front ++ ['/']) = names front := by
    rw [names_append, hnil, List.append_nil]
  have hpath : names (front ++ '/' :: name) = names front ++ [name] := by
    rw [names_append, names_of_notMem hne h]
  refine ⟨⟨?_, ?_⟩, ?_⟩
  · cases front with
    | nil => exact Iff.rfl
    | cons c front => exact Iff.rfl
  · rw [hfront, hpath, List.dropLast_concat]
  · rw [IsLastName, hpath, List.getLast?_concat]

/-- A dot in front of a path makes it another one. -/
theorem not_samePath_dot (s : Str) : ¬ SamePath ('.' :: s) s := by
  have hdot : "./".toList.length = 2 := rfl
  rintro (h | h | h)
  · have hlength := congrArg List.length h
    rw [List.length_cons] at hlength
    omega
  · have hlength := congrArg List.length h
    rw [List.length_cons, List.length_append, hdot] at hlength
    omega
  · have hlength := congrArg List.length h
    rw [List.length_append, List.length_cons, hdot] at hlength
    omega

/-! ### Below a directory -/

/-- The path goes on behind the directory, and no name of it leads up. -/
def Below (directory path : Str) : Prop :=
  ∃ behind, path = directory ++ '/' :: behind ∧ "..".toList ∉ names behind

theorem isInfix_of_mem_splitOn {a : Char} {s piece : Str} (h : piece ∈ s.splitOn a) : piece <:+: s := by
  have hinside {pieces : List Str} (hmem : piece ∈ pieces) : piece <:+: [a].intercalate pieces := by
    induction pieces with
    | nil => cases hmem
    | cons other pieces ih =>
      cases pieces with
      | nil =>
        have hsame : piece = [a].intercalate [other] :=
          (List.mem_singleton.mp hmem).trans List.intercalate_singleton.symm
        exact hsame ▸ List.infix_rfl
      | cons next pieces =>
        rw [List.intercalate_cons_cons, List.append_assoc]
        rcases List.mem_cons.mp hmem with rfl | hmem
        · exact (List.prefix_append _ _).isInfix
        · exact ((ih hmem).trans (List.suffix_append _ _).isInfix).trans (List.suffix_append _ _).isInfix
  have hmem := hinside h
  rwa [List.intercalate_splitOn] at hmem

theorem below_of_dotless (directory : Str) {behind : Str} (h : ¬ "..".toList <:+: behind) :
    Below directory (directory ++ '/' :: behind) :=
  ⟨behind, rfl, fun hmem => h (isInfix_of_mem_splitOn (List.mem_filter.mp hmem).1)⟩

/-- Two dots stand in a text if they do so somewhere next to each other. -/
theorem dotless_iff {s : Str} : ¬ "..".toList <:+: s ↔ s.IsChain fun a b => ¬ (a = '.' ∧ b = '.') := by
  constructor
  · intro h
    refine (List.isChain_isInfix s).imp ?_
    rintro a b hdots ⟨rfl, rfl⟩
    exact h hdots
  · intro h hdots
    have hpair := h.infix hdots
    simp at hpair

theorem dotless_append {front back : Str} (hfront : ¬ "..".toList <:+: front) (hback : ¬ "..".toList <:+: back)
    (hbetween : front.getLast? ≠ some '.') : ¬ "..".toList <:+: front ++ back := by
  rw [dotless_iff] at hfront hback ⊢
  refine List.isChain_append.mpr ⟨hfront, hback, ?_⟩
  rintro a ha b - ⟨rfl, -⟩
  exact hbetween ha

end Kit.Path
