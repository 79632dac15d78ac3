import ItvpnAgent.Kit.Text

/-! The encoding `application/x-www-form-urlencoded` of browsers. Names and values
are byte strings, one `Char` a byte; letters, digits and four signs stay, a blank
becomes a plus, every other byte an escape of three characters. -/

namespace Kit

/-! ### Splitting -/

section Split

variable {α : Type} [BEq α] [LawfulBEq α] {a : α}

theorem notMem_of_mem_splitOn {s piece : List α} (h : piece ∈ s.splitOn a) : a ∉ piece := by
  induction s generalizing piece with
  | nil =>
    rw [List.splitOn_nil, List.mem_singleton] at h
    rw [h]
    exact List.not_mem_nil
  | cons x s ih =>
    rw [List.splitOn_cons_eq_if_modifyHead] at h
    split at h
    · rcases List.mem_cons.mp h with rfl | h
      · exact List.not_mem_nil
      · exact ih h
    · next hx =>
      obtain ⟨head, tail, hsplit⟩ := List.exists_cons_of_ne_nil (List.splitOn_ne_nil a s)
      rw [hsplit, List.modifyHead_cons, List.mem_cons] at h
      rcases h with rfl | h
      · rw [List.mem_cons, not_or]
        exact ⟨fun hax => hx (by rw [hax]; exact BEq.refl x), ih (by rw [hsplit]; exact List.mem_cons_self)⟩
      · exact ih (by rw [hsplit]; exact List.mem_cons_of_mem _ h)

/-- Text without a separator comes in front of the first piece. -/
theorem splitOn_append_of_notMem {s : List α} (h : a ∉ s) (t : List α) :
    (s ++ t).splitOn a = (t.splitOn a).modifyHead (s ++ ·) := by
  induction s with
  | nil =>
    obtain ⟨head, tail, hsplit⟩ := List.exists_cons_of_ne_nil (List.splitOn_ne_nil a t)
    rw [List.nil_append, hsplit]
    rfl
  | cons x s ih =>
    rw [List.mem_cons, not_or] at h
    have hx : ¬ (x == a) = true := fun hxa => h.1 (eq_of_beq hxa).symm
    rw [List.cons_append, List.splitOn_cons_eq_if_modifyHead, if_neg hx, ih h.2, List.modifyHead_modifyHead]
    rfl

/-- Text behind a text only makes its last piece longer and adds others. -/
theorem splitOn_append {s last : List α} {pieces : List (List α)} (h : s.splitOn a = pieces ++ [last])
    (t : List α) : (s ++ t).splitOn a = pieces ++ (t.splitOn a).modifyHead (last ++ ·) := by
  have hjoin : [a].intercalate (pieces ++ [last]) = s := by rw [← h, List.intercalate_splitOn]
  have hpieces : ∀ piece ∈ pieces ++ [last], a ∉ piece := fun piece hpiece =>
    notMem_of_mem_splitOn (h ▸ hpiece)
  clear h
  induction pieces generalizing s with
  | nil =>
    rw [List.nil_append, List.intercalate_singleton] at hjoin
    subst hjoin
    exact splitOn_append_of_notMem (hpieces last List.mem_cons_self) t
  | cons piece pieces ih =>
    rw [List.cons_append, List.intercalate_cons_of_ne_nil (by simp)] at hjoin
    subst hjoin
    rw [List.append_assoc, List.append_assoc, List.singleton_append,
      List.splitOn_append_cons_self_of_not_mem (hpieces piece (by simp)),
      ih rfl fun other hother => hpieces other (List.mem_cons_of_mem _ hother)]
    rfl

theorem exists_prefix_of_mem_splitOn {s piece : List α} (h : piece ∈ s.splitOn a) (t : List α) :
    ∃ longer ∈ (s ++ t).splitOn a, piece <+: longer := by
  have hsplit := (List.dropLast_concat_getLast (List.splitOn_ne_nil a s)).symm
  rw [hsplit, List.mem_append, List.mem_singleton] at h
  rw [splitOn_append hsplit t]
  rcases h with h | rfl
  · exact ⟨piece, List.mem_append_left _ h, List.prefix_rfl⟩
  · -- the last piece goes on in the text behind
    obtain ⟨head, tail, ht⟩ := List.exists_cons_of_ne_nil (List.splitOn_ne_nil a t)
    rw [ht, List.modifyHead_cons]
    exact ⟨_ ++ head, List.mem_append_right _ List.mem_cons_self, List.prefix_append _ _⟩

end Split

/-! ### The encoding -/

/-- Bytes that stay. -/
def isUnreserved (c : Char) : Bool :=
  c.isAlphanum || c = '*' || c = '-' || c = '.' || c = '_'

/-- The last digit of a number in base 16. -/
def hexDigit (n : ℕ) : Char := (Nat.digitChar (n % 16)).toUpper

def encodeByte (c : Char) : Str :=
  if c = ' ' then ['+']
  else if isUnreserved c then [c]
  else ['%', hexDigit (c.toNat / 16), hexDigit c.toNat]

def encodeComponent (s : Str) : Str := s.flatMap encodeByte

/-- Pairs with `=` inside and `&` between them. -/
def joinPairs (pairs : List (Str × Str)) : Str :=
  ['&'].intercalate (pairs.map fun p => p.1 ++ '=' :: p.2)

def encodeForm (pairs : List (Str × Str)) : Str :=
  joinPairs (pairs.map fun p => (encodeComponent p.1, encodeComponent p.2))

/-- No separator stands in a name or a value. -/
def Separated (pairs : List (Str × Str)) : Prop :=
  ∀ p ∈ pairs, ('&' ∉ p.1 ∧ '=' ∉ p.1) ∧ '&' ∉ p.2 ∧ '=' ∉ p.2

/-- The encoding changes nothing. -/
def Unreserved (pairs : List (Str × Str)) : Prop :=
  ∀ p ∈ pairs, p.1.all isUnreserved = true ∧ p.2.all isUnreserved = true

example : encodeForm [("name1".toList, "\xd0\xa4 1".toList), ("a&b".toList, [])] =
    "name1=%D0%A4+1&a%26b=".toList := by decide

/-- An encoded text has no separators. -/
theorem notMem_encodeComponent {c : Char} (hc : c = '&' ∨ c = '=') (s : Str) : c ∉ encodeComponent s := by
  have hdigits : ∀ n : Fin 16, (Nat.digitChar n).toUpper ≠ '&' ∧ (Nat.digitChar n).toUpper ≠ '=' := by decide
  have hdigit (n : ℕ) : hexDigit n ≠ c := by
    obtain ⟨hamp, heq⟩ := hdigits ⟨n % 16, Nat.mod_lt n (by decide)⟩
    rcases hc with rfl | rfl
    · exact hamp
    · exact heq
  have hsign : c ≠ '+' ∧ c ≠ '%' ∧ isUnreserved c = false := by
    rcases hc with rfl | rfl
    all_goals decide
  intro hmem
  obtain ⟨b, -, hmem⟩ := List.mem_flatMap.mp hmem
  unfold encodeByte at hmem
  split at hmem
  · exact hsign.1 (List.mem_singleton.mp hmem)
  · split at hmem
    · next hb =>
      rw [← List.mem_singleton.mp hmem, hsign.2.2] at hb
      cases hb
    · simp only [List.mem_cons, List.not_mem_nil, or_false] at hmem
      rcases hmem with hmem | hmem | hmem
      · exact hsign.2.1 hmem
      · exact hdigit _ hmem.symm
      · exact hdigit _ hmem.symm

theorem separated_encode (pairs : List (Str × Str)) :
    Separated (pairs.map fun p => (encodeComponent p.1, encodeComponent p.2)) := by
  intro p hp
  obtain ⟨q, -, rfl⟩ := List.mem_map.mp hp
  have hamp (s : Str) : '&' ∉ encodeComponent s := notMem_encodeComponent (.inl rfl) s
  have heq (s : Str) : '=' ∉ encodeComponent s := notMem_encodeComponent (.inr rfl) s
  exact ⟨⟨hamp q.1, heq q.1⟩, hamp q.2, heq q.2⟩

theorem length_le_length_encodeComponent (s : Str) : s.length ≤ (encodeComponent s).length := by
  induction s with
  | nil => exact le_rfl
  | cons c s ih =>
    have hbyte : 1 ≤ (encodeByte c).length := by
      unfold encodeByte
      split
      · exact le_rfl
      · split
        · exact le_rfl
        · exact Nat.le_add_left 1 2
    rw [encodeComponent, List.flatMap_cons, List.length_append, List.length_cons, Nat.add_comm]
    exact Nat.add_le_add hbyte ih

/-- A text stays what it is exactly if each of its bytes does. -/
theorem encodeComponent_eq_self_iff {s : Str} : encodeComponent s = s ↔ s.all isUnreserved = true := by
  induction s with
  | nil => exact ⟨fun _ => rfl, fun _ => rfl⟩
  | cons c s ih =>
    have hcons : encodeComponent (c :: s) = encodeByte c ++ encodeComponent s := List.flatMap_cons
    rw [hcons, List.all_cons, Bool.and_eq_true, ← ih, encodeByte]
    split
    · next hblank =>
      subst hblank
      constructor
      · intro h
        cases h
      · rintro ⟨h, -⟩
        cases h
    · split
      · next hc =>
        rw [List.singleton_append, List.cons.injEq]
        exact ⟨fun h => ⟨hc, h.2⟩, fun h => ⟨rfl, h.2⟩⟩
      · next hc =>
        constructor
        · intro h
          -- an escape is too long
          have hlength := congrArg List.length h
          rw [List.length_append, List.length_cons, List.length_cons] at hlength
          have hle := length_le_length_encodeComponent s
          simp only [List.length_cons, List.length_nil] at hlength
          omega
        · rintro ⟨h, -⟩
          exact absurd h hc

end Kit
