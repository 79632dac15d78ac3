import ItvpnAgent.Kit.Text

/-! The path splitters of `tools.cpp`, Linux side. They cut at the last `/`; the
directory keeps its separator, and is `.` for a bare file name. -/

namespace ItvpnAgent.Files

open Kit

def splitFileName (buffer : Str) : Str :=
  let filePath := cStr buffer
  match findLastOf '/' filePath with
  | some pos => filePath.drop (pos + 1)
  | none => filePath

def splitFilePath (buffer : Str) : Str :=
  let fullFilePath := cStr buffer
  match findLastOf '/' fullFilePath with
  | some pos => fullFilePath.take (pos + 1)
  | none => ".".toList

/-- The halves of a path with a separator, and of one without. -/
theorem split_cases (buffer : Str) :
    (∃ front back, cStr buffer = front ++ '/' :: back ∧ '/' ∉ back ∧
        splitFilePath buffer = front ++ ['/'] ∧ splitFileName buffer = back) ∨
      ('/' ∉ cStr buffer ∧ splitFilePath buffer = ".".toList ∧ splitFileName buffer = cStr buffer) := by
  cases hlast : findLastOf '/' (cStr buffer) with
  | none =>
    refine .inr ⟨findLastOf_eq_none.mp hlast, ?_, ?_⟩
    · simp only [splitFilePath, hlast]
    · simp only [splitFileName, hlast]
  | some pos =>
    obtain ⟨front, back, hpath, hback, rfl⟩ := findLastOf_eq_some hlast
    have hsplit : cStr buffer = (front ++ ['/']) ++ back := by rw [hpath, List.append_assoc]; rfl
    have hlength : front.length + 1 = (front ++ ['/']).length := by rw [List.length_append]; rfl
    refine .inl ⟨front, back, hpath, hback, ?_, ?_⟩
    · simp only [splitFilePath, hlast]
      rw [hlength, hsplit, List.take_left]
    · simp only [splitFileName, hlast]
      rw [hlength, hsplit, List.drop_left]

/-- A directory found by the splitter ends in a separator, so it is never the
`.` of a bare file name. -/
theorem directory_ne_dot (front : Str) : front ++ ['/'] ≠ ".".toList := by
  intro hdot
  have hlast := congrArg List.getLast? hdot
  rw [List.getLast?_concat] at hlast
  cases hlast

/-- The two halves determine the path. -/
theorem split_eq_iff (a b : Str) :
    (splitFileName a = splitFileName b ∧ splitFilePath a = splitFilePath b) ↔ cStr a = cStr b := by
  constructor
  · rintro ⟨hname, hpath⟩
    rcases split_cases a with ⟨front, back, ha, -, hdir, hfile⟩ | ⟨-, hdir, hfile⟩
    · rcases split_cases b with ⟨front', back', hb, -, hdir', hfile'⟩ | ⟨-, hdir', -⟩
      · rw [hdir, hdir', List.append_left_inj] at hpath
        rw [hfile, hfile'] at hname
        rw [ha, hb, hpath, hname]
      · exact absurd (hdir.symm.trans (hpath.trans hdir')) (directory_ne_dot front)
    · rcases split_cases b with ⟨front', -, -, -, hdir', -⟩ | ⟨-, -, hfile'⟩
      · exact absurd (hdir'.symm.trans (hpath.symm.trans hdir)) (directory_ne_dot front')
      · exact hfile.symm.trans (hname.trans hfile')
  · intro h
    simp only [splitFileName, splitFilePath, h, and_self]

theorem nul_notMem_splitFileName (a : Str) : '\x00' ∉ splitFileName a := by
  have hnot : '\x00' ∉ cStr a := notMem_upTo '\x00' a
  rcases split_cases a with ⟨front, back, ha, -, -, hfile⟩ | ⟨-, -, hfile⟩
  · rw [hfile]
    exact fun hmem => hnot (ha ▸ List.mem_append_right _ (List.mem_cons_of_mem _ hmem))
  · rwa [hfile]

/-- The halves put together have the file name of the path, unless it is a bare
file name: then the `.` of its directory comes in front of it. -/
theorem splitFileName_append_iff (a : Str) :
    splitFileName (splitFilePath a ++ splitFileName a) = splitFileName a ↔ '/' ∈ cStr a := by
  have hclean : cStr (cStr a) = cStr a := upTo_of_notMem (notMem_upTo _ _)
  rcases split_cases a with ⟨front, back, ha, -, hdir, hfile⟩ | ⟨hnot, hdir, hfile⟩
  · have hjoin : splitFilePath a ++ splitFileName a = cStr a := by
      rw [hdir, hfile, ha, List.append_assoc]
      rfl
    refine iff_of_true ?_ (ha ▸ List.mem_append_right _ List.mem_cons_self)
    rw [hjoin]
    simp only [splitFileName, hclean]
  · have hdotted : cStr ('.' :: cStr a) = '.' :: cStr a := congrArg ('.' :: ·) hclean
    refine iff_of_false (fun heq => ?_) hnot
    rw [hdir, hfile] at heq
    rcases split_cases ('.' :: cStr a) with ⟨front, back, hsplit, -, -, -⟩ | ⟨-, -, hname⟩
    · refine hnot (List.mem_of_ne_of_mem (y := '.') (by decide) ?_)
      rw [← hdotted, hsplit]
      exact List.mem_append_right _ List.mem_cons_self
    · have hlength := congrArg List.length (hname.symm.trans heq)
      rw [hdotted, List.length_cons] at hlength
      omega

end ItvpnAgent.Files
