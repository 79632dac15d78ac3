import ItvpnAgent.Kit.Text

/-! Splitting a text at the separators that stand outside quotes, and a command
line into its arguments. A list of words comes back from the text that joins them
exactly if their separators are quoted and their quotes closed. -/

namespace Kit

section Split

variable {α : Type} [DecidableEq α] (sep quote : α)

/-- Whether the text behind `a` is quoted. -/
def quoteStep (quoted : Bool) (a : α) : Bool := if a = quote then !quoted else quoted

/-- Whether the text behind `w` is quoted. -/
def quotedBehind (quoted : Bool) (w : List α) : Bool := w.foldl (quoteStep quote) quoted

/-- The pieces between the separators outside quotes. -/
def splitOutside : Bool → List α → List (List α)
  | _, [] => [[]]
  | quoted, a :: s =>
    if a = sep ∧ quoted = false then [] :: splitOutside quoted s
    else (splitOutside (quoteStep quote quoted a) s).modifyHead (a :: ·)

/-- Every separator in the word is quoted. -/
def SepsQuoted (quoted : Bool) (w : List α) : Prop :=
  ∀ front back, w = front ++ sep :: back → quotedBehind quote quoted front = true

variable {sep quote} {quoted : Bool}

theorem sepsQuoted_nil : SepsQuoted sep quote quoted [] := fun front back h => by
  cases front <;> cases h

theorem sepsQuoted_cons {a : α} {w : List α} : SepsQuoted sep quote quoted (a :: w) ↔
    ¬ (a = sep ∧ quoted = false) ∧ SepsQuoted sep quote (quoteStep quote quoted a) w := by
  constructor
  · intro h
    refine ⟨?_, fun front back hw => h (a :: front) back (by rw [hw]; rfl)⟩
    rintro ⟨rfl, rfl⟩
    exact Bool.false_ne_true (h [] w rfl)
  · rintro ⟨ha, hw⟩ front back h
    cases front with
    | nil =>
      obtain ⟨rfl, rfl⟩ := List.cons.inj h
      exact Bool.not_eq_false _ ▸ fun hq => ha ⟨rfl, hq⟩
    | cons b front =>
      obtain ⟨rfl, rfl⟩ := List.cons.inj h
      exact hw front back rfl

theorem quotedBehind_of_notMem {w : List α} (h : quote ∉ w)
    (quoted : Bool) : quotedBehind quote quoted w = quoted := by
  induction w with
  | nil => rfl
  | cons a w ih =>
    rw [List.mem_cons, not_or] at h
    have hstep : quoteStep quote quoted a = quoted := if_neg fun ha => h.1 ha.symm
    rw [quotedBehind, List.foldl_cons, hstep]
    exact ih h.2

theorem sepsQuoted_of_notMem {w : List α} (h : sep ∉ w) : SepsQuoted sep quote quoted w :=
  fun front _ hw => absurd (hw ▸ List.mem_append_right front List.mem_cons_self) h

theorem splitOutside_ne_nil (sep quote : α) (quoted : Bool) (s : List α) : splitOutside sep quote quoted s ≠ [] := by
  induction s generalizing quoted with
  | nil => exact List.cons_ne_nil _ _
  | cons a s ih =>
    rw [splitOutside]
    split
    · exact List.cons_ne_nil _ _
    · rw [Ne, List.modifyHead_eq_nil_iff]
      exact ih _

/-- The separators put back between the pieces give the text. -/
theorem intercalate_splitOutside (quoted : Bool) (s : List α) :
    [sep].intercalate (splitOutside sep quote quoted s) = s := by
  induction s generalizing quoted with
  | nil => rfl
  | cons a s ih =>
    rw [splitOutside]
    split
    · next hsep =>
      rw [List.intercalate_cons_of_ne_nil (splitOutside_ne_nil _ _ _ _), ih, hsep.1]
      rfl
    · obtain ⟨w, ws, hsplit⟩ := List.exists_cons_of_ne_nil
        (splitOutside_ne_nil sep quote (quoteStep quote quoted a) s)
      have hrest := ih (quoteStep quote quoted a)
      rw [hsplit] at hrest ⊢
      rw [List.modifyHead_cons, List.intercalate_cons_cons_left, hrest]

/-- A word with quoted separators stays in one piece. -/
theorem splitOutside_append {w : List α} (h : SepsQuoted sep quote quoted w) (s : List α) :
    splitOutside sep quote quoted (w ++ s) =
      (splitOutside sep quote (quotedBehind quote quoted w) s).modifyHead (w ++ ·) := by
  induction w generalizing quoted with
  | nil =>
    obtain ⟨v, vs, hsplit⟩ := List.exists_cons_of_ne_nil
      (splitOutside_ne_nil sep quote quoted s)
    rw [List.nil_append, quotedBehind, List.foldl_nil, hsplit]
    rfl
  | cons a w ih =>
    obtain ⟨ha, hw⟩ := sepsQuoted_cons.mp h
    rw [List.cons_append, splitOutside, if_neg ha, ih hw, List.modifyHead_modifyHead]
    rfl

/-- The first piece of a text, and what the rest of the pieces are made of. -/
theorem splitOutside_eq_cons {s w : List α} {ws : List (List α)}
    (h : splitOutside sep quote quoted s = w :: ws) : SepsQuoted sep quote quoted w ∧
      ((ws = [] ∧ s = w) ∨ ∃ rest, s = w ++ sep :: rest ∧ quotedBehind quote quoted w = false ∧
        splitOutside sep quote false rest = ws) := by
  induction s generalizing quoted w with
  | nil =>
    cases h
    exact ⟨sepsQuoted_nil, .inl ⟨rfl, rfl⟩⟩
  | cons a s ih =>
    rw [splitOutside] at h
    split at h
    · next hsep =>
      obtain ⟨rfl, rfl⟩ := hsep
      cases h
      exact ⟨sepsQuoted_nil, .inr ⟨s, rfl, rfl, rfl⟩⟩
    · next hkept =>
      obtain ⟨v, vs, hsplit⟩ := List.exists_cons_of_ne_nil
        (splitOutside_ne_nil sep quote (quoteStep quote quoted a) s)
      rw [hsplit, List.modifyHead_cons] at h
      cases h
      obtain ⟨hv, hrest⟩ := ih hsplit
      refine ⟨sepsQuoted_cons.mpr ⟨hkept, hv⟩, ?_⟩
      rcases hrest with ⟨rfl, rfl⟩ | ⟨rest, rfl, hclosed, hvs⟩
      · exact .inl ⟨rfl, rfl⟩
      · exact .inr ⟨rest, rfl, hclosed, hvs⟩

/-- Words are the pieces of the text that joins them if and only if their separators
are quoted and all but the last have their quotes closed. -/
theorem splitOutside_intercalate_iff {ws : List (List α)} (hne : ws ≠ []) :
    splitOutside sep quote false ([sep].intercalate ws) = ws ↔
      (∀ w ∈ ws, SepsQuoted sep quote false w) ∧
        ∀ w ∈ ws.dropLast, quotedBehind quote false w = false := by
  induction ws with
  | nil => exact absurd rfl hne
  | cons w ws ih =>
    cases ws with
    | nil =>
      rw [List.intercalate_singleton, List.forall_mem_singleton, List.dropLast_singleton]
      constructor
      · intro h
        exact ⟨(splitOutside_eq_cons h).1, fun _ hmem => absurd hmem List.not_mem_nil⟩
      · rintro ⟨hw, -⟩
        have hsplit := splitOutside_append hw []
        rw [List.append_nil] at hsplit
        rw [hsplit, splitOutside, List.modifyHead_cons, List.append_nil]
    | cons v ws =>
      rw [List.intercalate_cons_cons, List.dropLast_cons_cons, List.forall_mem_cons (l := v :: ws),
        List.forall_mem_cons (l := (v :: ws).dropLast)]
      have htail := ih (List.cons_ne_nil v ws)
      constructor
      · intro h
        obtain ⟨hw, ⟨hnil, -⟩ | ⟨rest, hjoined, hclosed, hrest⟩⟩ := splitOutside_eq_cons h
        · cases hnil
        · rw [List.append_assoc] at hjoined
          have heq := List.append_cancel_left hjoined
          cases heq
          obtain ⟨hquoted, hclosed'⟩ := htail.mp hrest
          exact ⟨⟨hw, hquoted⟩, hclosed, hclosed'⟩
      · rintro ⟨⟨hw, hquoted⟩, hclosed, hclosed'⟩
        rw [List.append_assoc, splitOutside_append hw, hclosed, List.singleton_append, splitOutside,
          if_pos ⟨rfl, rfl⟩, htail.mpr ⟨hquoted, hclosed'⟩, List.modifyHead_cons, List.append_nil]

end Split

/-! ### Arguments -/

/-- What becomes of a piece that has quotes in it: it may stay, or get shorter as
quotes and escapes are taken out. A piece without quotes stays. -/
structure Unquote where
  entry : Str → Str
  plain (piece : Str) (h : '"' ∉ piece) : entry piece = piece
  shorter (piece : Str) : entry piece = piece ∨ (entry piece).length < piece.length

namespace Unquote

variable (u : Unquote)

/-- The arguments of a command line: its pieces but for the empty ones. -/
def arguments (line : Str) : List Str :=
  ((splitOutside ' ' '"' false line).filter (· ≠ [])).map u.entry

/-- The characters of the words, each with a separator. -/
def weight : List Str → ℕ
  | [] => 0
  | w :: words => w.length + 1 + weight words

theorem weight_eq_length_intercalate {words : List Str} (hne : words ≠ []) :
    weight words = ([' '].intercalate words).length + 1 := by
  induction words with
  | nil => exact absurd rfl hne
  | cons w words ih =>
    cases words with
    | nil => rw [weight, weight, List.intercalate_singleton]
    | cons v words =>
      rw [weight, ih (List.cons_ne_nil v words), List.intercalate_cons_cons, List.length_append,
        List.length_append, List.length_singleton]
      omega

/-- Dropping and shortening pieces loses weight. -/
theorem weight_entries (pieces : List Str) :
    (pieces.filter (· ≠ [])).map u.entry = pieces ∨
      weight ((pieces.filter (· ≠ [])).map u.entry) < weight pieces := by
  induction pieces with
  | nil => exact .inl rfl
  | cons piece pieces ih =>
    have hrest : weight ((pieces.filter (· ≠ [])).map u.entry) ≤ weight pieces := by
      rcases ih with heq | hlt
      · rw [heq]
      · exact hlt.le
    by_cases hpiece : piece = []
    · subst hpiece
      refine .inr ?_
      rw [List.filter_cons_of_neg (by simp), weight]
      omega
    · rw [List.filter_cons_of_pos (by simp [hpiece]), List.map_cons, weight, weight]
      rcases u.shorter piece with hkept | hshort
      · rcases ih with heq | hlt
        · exact .inl (by rw [hkept, heq])
        · exact .inr (by rw [hkept]; omega)
      · exact .inr (by omega)

theorem weight_arguments_le (line : Str) : weight (u.arguments line) ≤ line.length + 1 := by
  have hpieces := weight_eq_length_intercalate (splitOutside_ne_nil ' ' '"' false line)
  rw [intercalate_splitOutside] at hpieces
  rcases u.weight_entries (splitOutside ' ' '"' false line) with heq | hlt
  · rw [arguments, heq, hpieces]
  · rw [arguments, ← hpieces]
    exact hlt.le

/-- A word that is one argument, itself. -/
structure OneArgument (w : Str) : Prop where
  quoted : SepsQuoted ' ' '"' false w
  entry : u.entry w = w

/-- Words are the arguments of the line that joins them if and only if each is one
argument and all but the last have their quotes closed. -/
theorem arguments_intercalate_iff {words : List Str} (hne : words ≠ []) (hwords : ∀ w ∈ words, w ≠ []) :
    u.arguments ([' '].intercalate words) = words ↔
      (∀ w ∈ words, u.OneArgument w) ∧ ∀ w ∈ words.dropLast, quotedBehind '"' false w = false := by
  have hfilter : words.filter (· ≠ []) = words :=
    List.filter_eq_self.mpr fun w hw => decide_eq_true (hwords w hw)
  constructor
  · intro h
    -- nothing can have been lost of the pieces, which weigh as much as the words
    have hpieces : splitOutside ' ' '"' false ([' '].intercalate words) = words := by
      have hsame := weight_eq_length_intercalate
        (splitOutside_ne_nil ' ' '"' false ([' '].intercalate words))
      rw [intercalate_splitOutside, ← weight_eq_length_intercalate hne] at hsame
      rcases u.weight_entries (splitOutside ' ' '"' false ([' '].intercalate words)) with heq | hlt
      · rw [← heq]
        exact h
      · rw [hsame] at hlt
        exact absurd (congrArg weight h) hlt.ne
    obtain ⟨hquoted, hclosed⟩ := (splitOutside_intercalate_iff hne).mp hpieces
    rw [arguments, hpieces, hfilter] at h
    have hentry : ∀ w ∈ words, u.entry w = id w := List.map_inj_left.mp (by rw [h, List.map_id])
    exact ⟨fun w hw => ⟨hquoted w hw, hentry w hw⟩, hclosed⟩
  · rintro ⟨hone, hclosed⟩
    have hpieces := (splitOutside_intercalate_iff hne).mpr ⟨fun w hw => (hone w hw).quoted, hclosed⟩
    rw [arguments, hpieces, hfilter]
    calc words.map u.entry = words.map id := List.map_inj_left.mpr fun w hw => (hone w hw).entry
      _ = words := List.map_id words

/-- A word with neither blanks nor quotes is one argument. -/
theorem oneArgument_of_plain {w : Str} (hblank : ' ' ∉ w) (hquote : '"' ∉ w) : u.OneArgument w where
  quoted := sepsQuoted_of_notMem hblank
  entry := u.plain w hquote

/-- Quotes around a piece taken off. -/
def stripOuter : Str → Str
  | '"' :: piece => if piece.getLast? = some '"' then piece.dropLast else '"' :: piece
  | piece => piece

def outer : Unquote where
  entry := stripOuter
  plain piece h := by
    unfold stripOuter
    split
    · exact absurd List.mem_cons_self h
    · rfl
  shorter piece := by
    unfold stripOuter
    split
    · split
      · refine .inr ?_
        rw [List.length_dropLast, List.length_cons]
        omega
      · exact .inl rfl
    · exact .inl rfl

example : outer.arguments "lic \"my file\" -v".toList = ["lic".toList, "my file".toList, "-v".toList] := by
  decide

end Unquote

end Kit
