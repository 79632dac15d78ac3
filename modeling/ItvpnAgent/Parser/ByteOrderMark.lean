import ItvpnAgent.Parser

/-! What the loop of `create_root` that skips a byte-order mark takes from the
configuration file: all bytes above 127 at its front, be they a mark or not. -/

namespace ItvpnAgent.Parser

open Kit

/-- A byte the loop passes over. -/
def isHigh (c : Char) : Bool := c.toNat > 127

/-- The byte-order mark of UTF-8. -/
def byteOrderMark : Str := ['\xef', '\xbb', '\xbf']

/-- The content without one leading byte-order mark. -/
def withoutMark (content : Str) : Str :=
  if byteOrderMark <+: content then content.drop byteOrderMark.length else content

/-! ### The loop -/

/-- The loop meets the end of a file that has no byte below 128. -/
theorem dropWhile_of_skipBom_none {s : Str} {pos : ℕ} (h : skipBom s pos = none) :
    s.dropWhile isHigh = [] := by
  induction s generalizing pos with
  | nil => rfl
  | cons c s ih =>
    rw [skipBom] at h
    split at h
    · next hc =>
      have hhigh : isHigh c = true := decide_eq_true hc
      rw [List.dropWhile_cons_of_pos hhigh]
      exact ih h
    · cases h

/-- Otherwise it stops behind the first byte below 128. -/
theorem drop_of_skipBom_some {s : Str} {pos stop : ℕ} (h : skipBom s pos = some stop) :
    ∃ skipped, stop = pos + skipped + 1 ∧ s.drop skipped = s.dropWhile isHigh := by
  induction s generalizing pos with
  | nil => cases h
  | cons c s ih =>
    rw [skipBom] at h
    split at h
    · next hc =>
      obtain ⟨skipped, rfl, hdrop⟩ := ih h
      have hhigh : isHigh c = true := decide_eq_true hc
      refine ⟨skipped + 1, by omega, ?_⟩
      rw [List.drop_succ_cons, hdrop, List.dropWhile_cons_of_pos hhigh]
    · next hc =>
      cases h
      refine ⟨0, rfl, ?_⟩
      rw [List.drop_zero, List.dropWhile_cons_of_neg]
      rw [isHigh, decide_eq_true_eq]
      exact hc

/-- The INI reader gets the file from its first byte below 128 on. -/
theorem iniText_eq_dropWhile (content : Str) : iniText content = content.dropWhile isHigh := by
  unfold iniText
  cases h : skipBom content 0 with
  | none => exact (dropWhile_of_skipBom_none h).symm
  | some stop =>
    obtain ⟨skipped, rfl, hdrop⟩ := drop_of_skipBom_some h
    rw [← hdrop]
    dsimp only
    congr 1
    omega

/-! ### The mark -/

theorem dropWhile_withoutMark (content : Str) :
    (withoutMark content).dropWhile isHigh = content.dropWhile isHigh := by
  unfold withoutMark
  split
  · next hmark =>
    obtain ⟨rest, rfl⟩ := hmark
    rw [List.drop_left]
    have hhigh : ∀ c ∈ byteOrderMark, isHigh c = true := List.all_eq_true.mp rfl
    exact (List.dropWhile_append_of_pos hhigh).symm
  · rfl

/-- A text keeps its front if and only if it does not begin with a high byte. -/
theorem dropWhile_isHigh_eq_self_iff {s : Str} :
    s.dropWhile isHigh = s ↔ ∀ c ∈ s.head?, c.toNat ≤ 127 := by
  rw [List.dropWhile_eq_self_iff]
  cases s with
  | nil => simp
  | cons c s => simp [isHigh]

/-- The reader gets the content without the mark, whatever the reader does, if
and only if no high byte comes first in it. -/
theorem createRoot_skips_mark_iff {files : Str → Option Str} {fileName content : Str}
    (h : files fileName = some content) :
    (∀ readIni, createRoot readIni files fileName = readIni (withoutMark content)) ↔
      ∀ c ∈ (withoutMark content).head?, c.toNat ≤ 127 := by
  have hroot (readIni : Str → Except Exn PropTree) :
      createRoot readIni files fileName = readIni ((withoutMark content).dropWhile isHigh) := by
    simp only [createRoot, h]
    rw [iniText_eq_dropWhile, dropWhile_withoutMark]
  rw [← dropWhile_isHigh_eq_self_iff]
  constructor
  · intro hall
    -- a reader that keeps the text it was handed
    have hkept := hall fun text => .ok [⟨text, []⟩]
    rw [hroot] at hkept
    injection hkept with hkept
    injection hkept with hkept
    injection hkept
  · intro hkept readIni
    rw [hroot, hkept]

/-- A marked file is read without its mark. -/
theorem createRoot_skips_mark_marked :
    createRoot (fun text => .ok [⟨text, []⟩]) (fun _ => some (byteOrderMark ++ "[CONFIG]".toList))
      "lic_check_l.ini".toList = .ok [⟨"[CONFIG]".toList, []⟩] := by
  refine (createRoot_skips_mark_iff rfl).mpr (fun c hc => ?_) fun text => .ok [⟨text, []⟩]
  obtain rfl : '[' = c := Option.some.inj hc
  decide

/-- The key `п` of an unmarked file loses both its bytes. -/
theorem createRoot_drops_letter : ¬ ∀ readIni : Str → Except Exn PropTree,
    createRoot readIni (fun _ => some "\xd0\xbf=1".toList) "lic_check_l.ini".toList =
      readIni (withoutMark "\xd0\xbf=1".toList) := by
  intro hall
  have hkept := hall fun text => .ok [⟨text, []⟩]
  cases hkept

end ItvpnAgent.Parser
