import ItvpnAgent.Kit.Numerals

/-! Messages that say how long they are: a first line, fields, an empty line and a
body of as many characters as one of the fields counts. Such a message is read off
the front of a stream, and the stream goes on right behind it. -/

namespace Kit

def lineEnd : Str := "\r\n".toList

structure Frame where
  start : Str
  fields : List (Str × Str)
  body : Str
  deriving DecidableEq, Repr

namespace Frame

def writeField (field : Str × Str) : Str := field.1 ++ ": ".toList ++ field.2 ++ lineEnd

def write (frame : Frame) : Str :=
  frame.start ++ lineEnd ++ frame.fields.flatMap writeField ++ lineEnd ++ frame.body

/-! ### Reading -/

/-- The text in front of two characters and the text behind them. -/
def cutAt (a b : Char) : Str → Option (Str × Str)
  | [] => none
  | [_] => none
  | x :: y :: s =>
    if x = a ∧ y = b then some ([], s) else (cutAt a b (y :: s)).map fun (front, back) => (x :: front, back)

/-- Lines up to the empty one; at most so many. -/
def readFields : ℕ → Str → Option (List (Str × Str) × Str)
  | 0, _ => none
  | n + 1, s =>
    match cutAt '\r' '\n' s with
    | none => none
    | some ([], rest) => some ([], rest)
    | some (line, rest) =>
      match cutAt ':' ' ' line, readFields n rest with
      | some field, some (fields, rest) => some (field :: fields, rest)
      | _, _ => none

/-- What a reader takes that finds the length in the field of that name. -/
def read (lengthName : Str) (s : Str) : Option (Frame × Str) :=
  match cutAt '\r' '\n' s with
  | none => none
  | some (start, rest) =>
    match readFields rest.length rest with
    | none => none
    | some (fields, rest) =>
      match fields.find? (·.1 = lengthName) with
      | none => none
      | some field =>
        let length := natOfDigits field.2
        if field.2.all Char.isDigit ∧ length ≤ rest.length then
          some ({ start := start, fields := fields, body := rest.take length }, rest.drop length)
        else none

/-- No line end stands inside a line, and the first field of that name has the
length of the body. -/
structure Counted (lengthName : Str) (frame : Frame) : Prop where
  start : '\r' ∉ frame.start
  fields : ∀ field ∈ frame.fields, '\r' ∉ field.1 ∧ ':' ∉ field.1 ∧ '\r' ∉ field.2
  length : frame.fields.find? (·.1 = lengthName) = some (lengthName, numeral frame.body.length)

/-! ### What was written is read -/

theorem cutAt_append {a b : Char} {front : Str} (hfront : a ∉ front) (back : Str) :
    cutAt a b (front ++ a :: b :: back) = some (front, back) := by
  induction front with
  | nil => rw [List.nil_append, cutAt, if_pos ⟨rfl, rfl⟩]
  | cons x front ih =>
    rw [List.mem_cons, not_or] at hfront
    have hx : ∀ y, ¬ (x = a ∧ y = b) := fun y hy => hfront.1 hy.1.symm
    obtain ⟨y, s, hs⟩ : ∃ y s, front ++ a :: b :: back = y :: s := by
      cases front with
      | nil => exact ⟨_, _, rfl⟩
      | cons y front => exact ⟨_, _, rfl⟩
    rw [List.cons_append, hs, cutAt, if_neg (hx y), ← hs, ih hfront.2]
    rfl

theorem cutAt_lineEnd {line : Str} (hline : '\r' ∉ line) (rest : Str) :
    cutAt '\r' '\n' (line ++ lineEnd ++ rest) = some (line, rest) := by
  rw [List.append_assoc]
  exact cutAt_append hline rest

theorem readFields_write {fields : List (Str × Str)}
    (hfields : ∀ field ∈ fields, '\r' ∉ field.1 ∧ ':' ∉ field.1 ∧ '\r' ∉ field.2) (rest : Str) {n : ℕ}
    (hn : fields.length < n) :
    readFields n (fields.flatMap writeField ++ lineEnd ++ rest) = some (fields, rest) := by
  induction fields generalizing n with
  | nil =>
    cases n with
    | zero => cases hn
    | succ n => rfl
  | cons field fields ih =>
    cases n with
    | zero => cases hn
    | succ n =>
      rw [List.length_cons] at hn
      obtain ⟨⟨hname, hcolon, hvalue⟩, hrest⟩ := List.forall_mem_cons.mp hfields
      have hline : '\r' ∉ field.1 ++ ": ".toList ++ field.2 := by simp [hname, hvalue]
      have hne : field.1 ++ ": ".toList ++ field.2 ≠ [] := by simp
      have hfield : cutAt ':' ' ' (field.1 ++ ": ".toList ++ field.2) = some field := by
        rw [List.append_assoc]
        exact cutAt_append hcolon field.2
      have htext : (field :: fields).flatMap writeField ++ lineEnd ++ rest = field.1 ++ ": ".toList ++ field.2 ++
          lineEnd ++ (fields.flatMap writeField ++ lineEnd ++ rest) := by
        simp [writeField]
      rw [htext, readFields, cutAt_lineEnd hline]
      obtain ⟨c, line, hcons⟩ := List.exists_cons_of_ne_nil hne
      rw [hcons] at hfield ⊢
      simp only [hfield, ih hrest (Nat.lt_of_succ_lt_succ hn)]

theorem natOfDigits_numeral (n : ℕ) : natOfDigits (numeral n) = n := Nat.ofDigitChars_ten_toDigits

theorem length_lt_length_fields (fields : List (Str × Str)) (rest : Str) :
    fields.length < (fields.flatMap writeField ++ lineEnd ++ rest).length := by
  induction fields with
  | nil => simp [lineEnd]
  | cons field fields ih =>
    have hcolon : ": ".toList.length = 2 := rfl
    simp only [List.flatMap_cons, List.length_append, List.length_cons, writeField] at ih ⊢
    omega

/-- A counted message is read back, and the reader goes on right behind it. -/
theorem read_write {lengthName : Str} {frame : Frame} (h : frame.Counted lengthName) (rest : Str) :
    read lengthName (frame.write ++ rest) = some (frame, rest) := by
  have htext : frame.write ++ rest = frame.start ++ lineEnd ++
      (frame.fields.flatMap writeField ++ lineEnd ++ (frame.body ++ rest)) := by
    simp [write]
  have hdigits : (numeral frame.body.length).all Char.isDigit = true :=
    List.all_eq_true.mpr fun c hc => Nat.isDigit_of_mem_toDigits (by decide) (by decide) hc
  rw [htext, read, cutAt_lineEnd h.start]
  dsimp only
  rw [readFields_write h.fields _ (length_lt_length_fields _ _)]
  dsimp only
  rw [h.length]
  simp [hdigits, natOfDigits_numeral]

end Frame

end Kit
