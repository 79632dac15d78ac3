import Mathlib.Data.List.Basic
import ItvpnAgent.Kit.Paths
import ItvpnAgent.NxService.ConfigHandler

/-! The path of the configuration file, from the command line to `init` and to
`Config_Handler`. The splitters keep what a path with a directory and a file name
says; of a bare file name the parser makes another one. -/

namespace ItvpnAgent

open Kit

/-- An argument of the program that is not empty. -/
structure Argument where
  text : Str
  ne_nil : text ≠ []
  noNul : '\x00' ∉ text

/-- `parse_args`: what `config_file` holds as a C string after `strncpy`. Without
room for a NUL, what is behind the array belongs to the string. -/
def Service.parseArgs (maxPathLen : ℕ) (optArg : Str) : Option Str :=
  if optArg.length < maxPathLen then some optArg else none

/-- `init` opens the file with this path, and the handler watches its directory for
events of its last name. -/
structure Names (p : Parser) (path : Str) : Prop where
  opened : Path.SamePath p.makeConfigFilePath path
  directory : Path.IsParent (ConfigHandler.make p).directory path
  fileName : Path.IsLastName (ConfigHandler.make p).fileName path

/-- What `make_paths` has made of the argument is the file it names. -/
def OpensNamed (readIni : Str → Except Exn PropTree) (files : Str → Option Str) (p : Parser)
    (maxPathLen : ℕ) (arg : Argument) : Prop :=
  ∃ configFilePath, Service.parseArgs maxPathLen arg.text = some configFilePath ∧
    Names (Parser.makePaths readIni files { p with configFilePath }).1 arg.text

section Argument

variable (readIni : Str → Except Exn PropTree) (files : Str → Option Str) (p : Parser) (arg : Argument)

/-- `init` leaves the paths alone. -/
theorem names_makePaths_iff {path : Str} :
    Names (p.makePaths readIni files).1 path ↔ Names p.withPaths path := by
  obtain ⟨root, options, hframe⟩ := Parser.init_frame readIni files p.withPaths
  rw [Parser.makePaths, hframe]
  exact ⟨fun h => ⟨h.opened, h.directory, h.fileName⟩, fun h => ⟨h.opened, h.directory, h.fileName⟩⟩

theorem names_withPaths_iff :
    Names (Parser.withPaths { p with configFilePath := arg.text }) arg.text ↔
      '/' ∈ arg.text ∧ arg.text.getLast? ≠ some '/' := by
  have hclean : cStr arg.text = arg.text := upTo_of_notMem arg.noNul
  rcases Files.split_cases arg.text with ⟨front, back, hsplit, hback, hdir, hfile⟩ | ⟨hnot, hdir, hfile⟩
  · rw [hclean] at hsplit
    constructor
    · intro h
      refine ⟨hsplit ▸ List.mem_append_right _ List.mem_cons_self, fun hlast => ?_⟩
      -- The splitter leaves no file name behind a separator at the end.
      have hne : back ≠ [] := hfile ▸ h.fileName.ne_nil
      rw [hsplit, List.getLast?_append_cons, List.getLast?_cons_of_ne_nil hne] at hlast
      exact hback (List.mem_of_getLast? hlast)
    · rintro ⟨-, hlast⟩
      have hne : back ≠ [] := by
        rintro rfl
        rw [hsplit, List.getLast?_concat] at hlast
        exact hlast rfl
      obtain ⟨hparent, hname⟩ := Path.isParent_append front hne hback
      refine ⟨.inl ?_, ?_, ?_⟩
      · show Files.splitFilePath arg.text ++ Files.splitFileName arg.text = arg.text
        rw [hdir, hfile, List.append_assoc]
        exact hsplit.symm
      · show Path.IsParent (Files.splitFilePath arg.text) arg.text
        rwa [hdir, hsplit]
      · show Path.IsLastName (Files.splitFileName arg.text) arg.text
        rwa [hfile, hsplit]
  · rw [hclean] at hnot hfile
    refine iff_of_false (fun h => ?_) fun h => hnot h.1
    have hopened : Path.SamePath (Files.splitFilePath arg.text ++ Files.splitFileName arg.text) arg.text :=
      h.opened
    rw [hdir, hfile] at hopened
    exact Path.not_samePath_dot arg.text hopened

/-- The file named on the command line is the one in use exactly if its path fits
the array, has a directory and does not end in a separator. -/
theorem opensNamed_iff (maxPathLen : ℕ) : OpensNamed readIni files p maxPathLen arg ↔
    arg.text.length < maxPathLen ∧ '/' ∈ arg.text ∧ arg.text.getLast? ≠ some '/' := by
  unfold OpensNamed Service.parseArgs
  by_cases hfits : arg.text.length < maxPathLen
  · rw [if_pos hfits]
    constructor
    · rintro ⟨configFilePath, harg, hnames⟩
      cases harg
      exact ⟨hfits, (names_withPaths_iff p arg).mp ((names_makePaths_iff readIni files _).mp hnames)⟩
    · rintro ⟨-, hpath⟩
      exact ⟨arg.text, rfl,
        (names_makePaths_iff readIni files _).mpr ((names_withPaths_iff p arg).mpr hpath)⟩
  · rw [if_neg hfits]
    refine iff_of_false ?_ fun h => hfits h.1
    rintro ⟨configFilePath, harg, -⟩
    cases harg

end Argument

/-- Started in the directory of its configuration file with the bare name of it, the
agent opens `.lic_check_l.ini`. -/
theorem not_opensNamed_bare : ¬ OpensNamed readShipped (fun _ => none) Parser.started 4096
    ⟨"lic_check_l.ini".toList, by decide, by decide⟩ := by
  rintro ⟨configFilePath, harg, hnames⟩
  cases harg
  have hslash := ((names_withPaths_iff Parser.started ⟨"lic_check_l.ini".toList, by decide, by decide⟩).mp
    ((names_makePaths_iff readShipped (fun _ => none) _).mp hnames)).1
  revert hslash
  decide

end ItvpnAgent
