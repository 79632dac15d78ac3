import Mathlib.Data.List.Nodup
import ItvpnAgent.Kit.Numerals
import ItvpnAgent.Tools

/-! `terminate_process` over a table of processes, on both platforms. The Linux
version sends one signal, to the first process of `/proc` whose command line shows
the name; the Windows version goes through the whole snapshot. -/

namespace ItvpnAgent.System

open Kit

/-! ### Processes -/

/-- How a process meets the attempt to terminate it: it ends; the attempt is allowed
but the process goes on; the caller has no right to it. -/
inductive Reaction where
  | ends
  | survives
  | denied
  deriving DecidableEq, Repr

/-- A running process; the items of its command line end in NUL. Process ids are
positive values of `int`. -/
structure Process where
  pid : ℕ
  cmdline : Str
  reaction : Reaction
  pid_pos : 0 < pid
  pid_fits : FitsInt pid

/-- The first item of the command line without its directory. -/
def Process.programFileName (p : Process) : Option Str :=
  if p.cmdline = [] then none else some (Files.splitFileName p.cmdline)

/-- The running processes, in the order in which both systems list them. -/
structure ProcessTable where
  processes : List Process
  nodup : (processes.map Process.pid).Nodup

/-- What the system does with a request for the process with this id. -/
def ProcessTable.respond (table : ProcessTable) (pid : ℤ) : Reaction :=
  match table.processes.find? fun p => p.pid = pid with
  | some p => p.reaction
  | none => .denied

/-- The ids of the processes that `terminate_process` has tried to terminate, and
what it returns. -/
structure Termination where
  attempted : List ℤ
  result : Bool
  deriving DecidableEq, Repr

/-! ### Linux -/

/-- An entry of `/proc` and what its `cmdline` holds. -/
structure ProcEntry where
  dName : Str
  cmdline : Str
  deriving DecidableEq, Repr

def Process.entry (p : Process) : ProcEntry where
  dName := numeral p.pid
  cmdline := p.cmdline

/-- A listing of `/proc`: its entries with a positive number are the processes. -/
structure ProcListing (table : ProcessTable) where
  entries : List ProcEntry
  numbered : entries.filter (fun e => 0 < atoi e.dName) = table.processes.map Process.entry

/-- The name that is compared, if `getline` has read something. -/
def shownName (cmdline : Str) : Option Str :=
  let cmdLine := firstLine cmdline
  if cmdLine = [] then none
  else
    let cmdLine := upTo '\x00' cmdLine
    match findLastOf '/' cmdLine with
    | some pos => some (cmdLine.drop (pos + 1))
    | none => some cmdLine

/-- The loop over the entries ends once `pid` is set. -/
def getProcIdByName (procName : Str) : List ProcEntry → ℤ
  | [] => -1
  | dirp :: rest =>
    let id := atoi dirp.dName
    if id > 0 ∧ shownName dirp.cmdline = some procName then id else getProcIdByName procName rest

/-- `kill` with SIGTERM succeeds if the signal can be sent, whatever becomes of it. -/
def kill (table : ProcessTable) (pid : ℤ) : ℤ := if table.respond pid = .denied then -1 else 0

def Linux.terminateProcess (table : ProcessTable) (proc : ProcListing table) (procName : Str) :
    Termination :=
  let pid := getProcIdByName procName proc.entries
  if pid > 0 then { attempted := [pid], result := kill table pid = 0 }
  else { attempted := [], result := false }

/-! ### Windows -/

/-- `PROCESSENTRY32`. -/
structure ProcessEntry where
  szExeFile : Str
  th32ProcessID : ℤ
  deriving DecidableEq, Repr

/-- The snapshot lists the programs that run. -/
def snapshot (processes : List Process) : List ProcessEntry :=
  processes.filterMap fun p => p.programFileName.map fun szExeFile =>
    { szExeFile, th32ProcessID := p.pid }

/-- `OpenProcess` gives a handle; whether `TerminateProcess` succeeds is not looked at. -/
def openProcess (table : ProcessTable) (pid : ℤ) : Bool := table.respond pid ≠ .denied

/-- The loop over the snapshot. -/
def sweep (table : ProcessTable) (szPath : Str) : List ProcessEntry → Termination → Termination
  | [], t => t
  | pEntry :: rest, t =>
    if pEntry.szExeFile = szPath then
      sweep table szPath rest {
        attempted := t.attempted ++ [pEntry.th32ProcessID]
        result := if openProcess table pEntry.th32ProcessID then true else t.result }
    else sweep table szPath rest t

/-- A name that does not fit `szPath` makes `wcscpy_s` end the program. -/
def Windows.terminateProcess (table : ProcessTable) (procName : Str) : Option Termination :=
  let szPath := cStr procName
  if szPath.length < 20 then
    some (sweep table szPath (snapshot table.processes) { attempted := [], result := false })
  else none

/-! ### What is wanted -/

/-- The processes of that name are attempted and no others; the result says whether
one of them has ended. -/
structure TerminatesNamed (table : ProcessTable) (procName : Str) (t : Termination) : Prop where
  attempts : ∀ p ∈ table.processes, (p.pid : ℤ) ∈ t.attempted ↔ p.programFileName = some procName
  only : ∀ pid ∈ t.attempted, ∃ p ∈ table.processes, (p.pid : ℤ) = pid
  result : t.result = true ↔
    ∃ p ∈ table.processes, p.programFileName = some procName ∧ p.reaction = .ends

/-- The first process of the table that shows the name. -/
def ProcessTable.firstShown (table : ProcessTable) (procName : Str) : Option Process :=
  table.processes.find? fun p => shownName p.cmdline = some procName

variable {table : ProcessTable} {procName : Str}

theorem eq_of_pid_eq {p q : Process} (hp : p ∈ table.processes) (hq : q ∈ table.processes)
    (h : p.pid = q.pid) : p = q := List.inj_on_of_nodup_map table.nodup hp hq h

theorem respond_of_mem {p : Process} (hp : p ∈ table.processes) : table.respond p.pid = p.reaction := by
  unfold ProcessTable.respond
  cases hfind : table.processes.find? fun q => (q.pid : ℤ) = p.pid with
  | none =>
    have hnot := List.find?_eq_none.mp hfind p hp
    simp at hnot
  | some q =>
    have hpid : (q.pid : ℤ) = p.pid := by simpa using List.find?_some hfind
    rw [eq_of_pid_eq (List.mem_of_find?_eq_some hfind) hp (by exact_mod_cast hpid)]

/-! ### The search of the Linux version -/

theorem getProcIdByName_filter (entries : List ProcEntry) :
    getProcIdByName procName (entries.filter fun e => 0 < atoi e.dName) =
      getProcIdByName procName entries := by
  induction entries with
  | nil => rfl
  | cons e entries ih =>
    by_cases hid : 0 < atoi e.dName
    · rw [List.filter_cons_of_pos (by simpa using hid), getProcIdByName, getProcIdByName, ih]
    · rw [List.filter_cons_of_neg (by simpa using hid), getProcIdByName, ih, if_neg fun h => hid h.1]

theorem getProcIdByName_processes (processes : List Process) :
    getProcIdByName procName (processes.map Process.entry) =
      match processes.find? fun p => shownName p.cmdline = some procName with
      | some p => (p.pid : ℤ)
      | none => -1 := by
  induction processes with
  | nil => rfl
  | cons p processes ih =>
    have hid : atoi p.entry.dName = p.pid := atoi_numeral p.pid_fits
    have hpos := p.pid_pos
    rw [List.map_cons, getProcIdByName, hid]
    by_cases hshown : shownName p.cmdline = some procName
    · rw [if_pos ⟨by omega, hshown⟩, List.find?_cons_of_pos (by simpa using hshown)]
    · rw [if_neg fun h => hshown h.2, ih, List.find?_cons_of_neg (by simpa using hshown)]

/-- One signal at most, to the first process that shows the name. -/
theorem linux_terminateProcess_eq (proc : ProcListing table) :
    Linux.terminateProcess table proc procName =
      match table.firstShown procName with
      | some p => { attempted := [(p.pid : ℤ)], result := p.reaction ≠ .denied }
      | none => { attempted := [], result := false } := by
  have hpid : getProcIdByName procName proc.entries = match table.firstShown procName with
      | some p => (p.pid : ℤ)
      | none => -1 := by
    rw [← getProcIdByName_filter, proc.numbered, getProcIdByName_processes]
    rfl
  unfold Linux.terminateProcess
  rw [hpid]
  cases hfirst : table.firstShown procName with
  | none => rfl
  | some p =>
    have hmem : p ∈ table.processes := List.mem_of_find?_eq_some hfirst
    have hpos := p.pid_pos
    dsimp only
    rw [if_pos (by omega), kill, respond_of_mem hmem]
    by_cases hdenied : p.reaction = .denied
    · simp [hdenied]
    · simp [hdenied]

theorem mem_pids {p : Process} {l : List Process} (hp : p ∈ table.processes)
    (hl : ∀ q ∈ l, q ∈ table.processes) : (p.pid : ℤ) ∈ l.map (fun q => (q.pid : ℤ)) ↔ p ∈ l := by
  constructor
  · intro hmem
    obtain ⟨q, hq, hpid⟩ := List.mem_map.mp hmem
    rwa [← eq_of_pid_eq (hl q hq) hp (by exact_mod_cast hpid)]
  · exact fun hmem => List.mem_map.mpr ⟨p, hmem, rfl⟩

/-- Whether an attempt is allowed tells whether a process ends, unless one survives
and none ends. -/
theorem opens_iff_ends_iff : ((∃ p ∈ table.processes, p.programFileName = some procName ∧
      p.reaction ≠ .denied) ↔
      ∃ p ∈ table.processes, p.programFileName = some procName ∧ p.reaction = .ends) ↔
    ((∃ p ∈ table.processes, p.programFileName = some procName ∧ p.reaction = .survives) →
      ∃ p ∈ table.processes, p.programFileName = some procName ∧ p.reaction = .ends) := by
  constructor
  · rintro h ⟨p, hp, hname, hsurvives⟩
    exact h.mp ⟨p, hp, hname, by rw [hsurvives]; nofun⟩
  · intro h
    constructor
    · rintro ⟨p, hp, hname, hopens⟩
      cases hreaction : p.reaction with
      | ends => exact ⟨p, hp, hname, hreaction⟩
      | survives => exact h ⟨p, hp, hname, hreaction⟩
      | denied => exact absurd hreaction hopens
    · rintro ⟨p, hp, hname, hends⟩
      exact ⟨p, hp, hname, by rw [hends]; nofun⟩

/-- The Linux version does what is wanted exactly if the processes of that name are
no others than the first one that shows it, and that one does not survive. -/
theorem terminatesNamed_linux_iff (proc : ProcListing table) :
    TerminatesNamed table procName (Linux.terminateProcess table proc procName) ↔
      (∀ p ∈ table.processes,
        p.programFileName = some procName ↔ table.firstShown procName = some p) ∧
      ((∃ p ∈ table.processes, p.programFileName = some procName ∧ p.reaction = .survives) →
        ∃ p ∈ table.processes, p.programFileName = some procName ∧ p.reaction = .ends) := by
  rw [linux_terminateProcess_eq, ← opens_iff_ends_iff]
  cases hfirst : table.firstShown procName with
  | none =>
    constructor
    · intro h
      have hnone (p : Process) (hp : p ∈ table.processes) : p.programFileName ≠ some procName :=
        fun hname => List.not_mem_nil ((h.attempts p hp).mpr hname)
      exact ⟨fun p hp => iff_of_false (hnone p hp) nofun,
        iff_of_false (fun ⟨p, hp, hname, _⟩ => hnone p hp hname) fun ⟨p, hp, hname, _⟩ => hnone p hp hname⟩
    · rintro ⟨h, -⟩
      have hnone (p : Process) (hp : p ∈ table.processes) : p.programFileName ≠ some procName :=
        fun hname => nomatch (h p hp).mp hname
      exact ⟨fun p hp => iff_of_false List.not_mem_nil (hnone p hp), nofun,
        iff_of_false nofun fun ⟨p, hp, hname, _⟩ => hnone p hp hname⟩
  | some q =>
    have hq : q ∈ table.processes := List.mem_of_find?_eq_some hfirst
    have hpid (p : Process) (hp : p ∈ table.processes) : (p.pid : ℤ) ∈ [(q.pid : ℤ)] ↔ some q = some p := by
      rw [Option.some.injEq, eq_comm, ← List.mem_singleton]
      exact mem_pids (l := [q]) hp fun r hr => List.mem_singleton.mp hr ▸ hq
    -- The one attempt is allowed exactly if one on a process of the name is.
    have hopens (h : ∀ p ∈ table.processes, p.programFileName = some procName ↔ some q = some p) :
        decide (q.reaction ≠ .denied) = true ↔
          ∃ p ∈ table.processes, p.programFileName = some procName ∧ p.reaction ≠ .denied := by
      rw [decide_eq_true_eq]
      constructor
      · exact fun hopens => ⟨q, hq, (h q hq).mpr rfl, hopens⟩
      · rintro ⟨p, hp, hname, hopens⟩
        cases (h p hp).mp hname
        exact hopens
    constructor
    · intro h
      have hfirst' (p : Process) (hp : p ∈ table.processes) :
          p.programFileName = some procName ↔ some q = some p := by
        rw [← h.attempts p hp, hpid p hp]
      exact ⟨hfirst', (hopens hfirst').symm.trans h.result⟩
    · rintro ⟨h, hends⟩
      exact ⟨fun p hp => by rw [h p hp, hpid p hp],
        fun pid hmem => ⟨q, hq, (List.mem_singleton.mp hmem).symm⟩, (hopens h).trans hends⟩

/-- Without a line break in its first item, a process shows its program file name. -/
theorem shownName_eq {p : Process} (h : '\n' ∉ cStr p.cmdline) :
    shownName p.cmdline = p.programFileName := by
  have hempty : firstLine p.cmdline = [] ↔ p.cmdline = [] := by
    cases hline : p.cmdline with
    | nil => exact Iff.rfl
    | cons c rest =>
      refine iff_of_false (fun hnil => h ?_) (List.cons_ne_nil c rest)
      have hc : c = '\n' := by
        by_contra hne
        rw [firstLine, upTo_cons hne] at hnil
        cases hnil
      rw [hline, hc]
      exact List.mem_cons_self
  have hitem : upTo '\x00' (firstLine p.cmdline) = cStr p.cmdline := cStr_firstLine h
  unfold shownName Process.programFileName Files.splitFileName
  simp only [hempty, hitem]
  split
  · rfl
  · cases findLastOf '/' (cStr p.cmdline) with
    | none => rfl
    | some pos => rfl

/-- Without line breaks, all depends on there being one process of the name at most. -/
theorem firstShown_iff_of_noBreaks (h : ∀ p ∈ table.processes, '\n' ∉ cStr p.cmdline) :
    (∀ p ∈ table.processes, p.programFileName = some procName ↔ table.firstShown procName = some p) ↔
      ∀ p ∈ table.processes, ∀ q ∈ table.processes, p.programFileName = some procName →
        q.programFileName = some procName → p = q := by
  constructor
  · intro hfirst p hp q hq hname hname'
    exact Option.some.inj (((hfirst p hp).mp hname).symm.trans ((hfirst q hq).mp hname'))
  · intro hone p hp
    constructor
    · intro hname
      cases hfirst : table.firstShown procName with
      | none =>
        have hnot := List.find?_eq_none.mp hfirst p hp
        rw [shownName_eq (h p hp), hname] at hnot
        simp at hnot
      | some q =>
        have hq : q ∈ table.processes := List.mem_of_find?_eq_some hfirst
        have hshown : shownName q.cmdline = some procName := by simpa using List.find?_some hfirst
        rw [shownName_eq (h q hq)] at hshown
        rw [hone p hp q hq hname hshown]
    · intro hfirst
      have hshown : shownName p.cmdline = some procName := by simpa using List.find?_some hfirst
      rwa [shownName_eq (h p hp)] at hshown

/-! ### The sweep of the Windows version -/

theorem sweep_snapshot {szPath : Str} {processes : List Process}
    (hsub : ∀ p ∈ processes, p ∈ table.processes) (t : Termination) :
    sweep table szPath (snapshot processes) t = {
      attempted := t.attempted ++
        (processes.filter fun p => p.programFileName = some szPath).map fun p => (p.pid : ℤ)
      result := t.result ||
        (processes.filter fun p => p.programFileName = some szPath).any fun p => p.reaction ≠ .denied } := by
  induction processes generalizing t with
  | nil => simp [snapshot, sweep]
  | cons p processes ih =>
    have hrest : ∀ q ∈ processes, q ∈ table.processes := fun q hq => hsub q (List.mem_cons_of_mem _ hq)
    have hopen : openProcess table p.pid = decide (p.reaction ≠ .denied) := by
      rw [openProcess, respond_of_mem (hsub p List.mem_cons_self)]
    cases hname : p.programFileName with
    | none =>
      have hskip : snapshot (p :: processes) = snapshot processes := by
        rw [snapshot, List.filterMap_cons_none (by rw [hname]; rfl), snapshot]
      rw [hskip, ih hrest, List.filter_cons_of_neg (by simp [hname])]
    | some szExeFile =>
      have hentry : snapshot (p :: processes) =
          { szExeFile, th32ProcessID := p.pid } :: snapshot processes := by
        rw [snapshot, List.filterMap_cons_some (by rw [hname]; rfl), snapshot]
      rw [hentry, sweep]
      by_cases hequal : szExeFile = szPath
      · subst hequal
        rw [if_pos rfl, ih hrest, List.filter_cons_of_pos (by simp [hname]), hopen]
        by_cases hdenied : p.reaction = .denied
        · simp [hdenied]
        · simp [hdenied]
      · rw [if_neg hequal, ih hrest, List.filter_cons_of_neg (by simp [hname, hequal])]

theorem nul_notMem_programFileName {p : Process} {name : Str} (h : p.programFileName = some name) :
    '\x00' ∉ name := by
  unfold Process.programFileName at h
  split at h
  · cases h
  · cases h
    exact Files.nul_notMem_splitFileName p.cmdline

/-- Only a NUL in the name makes a difference to the C string of it. -/
theorem named_cStr_iff :
    (∀ p ∈ table.processes, p.programFileName = some (cStr procName) ↔ p.programFileName = some procName) ↔
      ('\x00' ∈ procName → ∀ p ∈ table.processes, p.programFileName ≠ some (cStr procName)) := by
  constructor
  · intro h hnul p hp hname
    exact nul_notMem_programFileName ((h p hp).mp hname) hnul
  · intro h p hp
    by_cases hnul : '\x00' ∈ procName
    · exact iff_of_false (h hnul p hp) fun hname => nul_notMem_programFileName hname hnul
    · rw [show cStr procName = procName from upTo_of_notMem hnul]

/-- The Windows version does so exactly if the name fits, no process is named by the
C string of it only, and none of the name survives unless another one ends. -/
theorem terminatesNamed_windows_iff :
    (∃ t, Windows.terminateProcess table procName = some t ∧ TerminatesNamed table procName t) ↔
      (cStr procName).length < 20 ∧
      ('\x00' ∈ procName → ∀ p ∈ table.processes, p.programFileName ≠ some (cStr procName)) ∧
      ((∃ p ∈ table.processes, p.programFileName = some procName ∧ p.reaction = .survives) →
        ∃ p ∈ table.processes, p.programFileName = some procName ∧ p.reaction = .ends) := by
  rw [← named_cStr_iff, ← opens_iff_ends_iff]
  unfold Windows.terminateProcess
  dsimp only
  by_cases hfits : (cStr procName).length < 20
  · rw [if_pos hfits, sweep_snapshot fun p hp => hp]
    have hattempted (p : Process) (hp : p ∈ table.processes) :
        (p.pid : ℤ) ∈ (table.processes.filter fun q => q.programFileName = some (cStr procName)).map
          (fun q => (q.pid : ℤ)) ↔ p.programFileName = some (cStr procName) := by
      rw [mem_pids hp fun q hq => (List.mem_filter.mp hq).1, List.mem_filter, decide_eq_true_eq]
      exact and_iff_right hp
    have hopens (hsame : ∀ p ∈ table.processes,
        p.programFileName = some (cStr procName) ↔ p.programFileName = some procName) :
        ((table.processes.filter fun q => q.programFileName = some (cStr procName)).any
          fun q => q.reaction ≠ .denied) = true ↔
        ∃ p ∈ table.processes, p.programFileName = some procName ∧ p.reaction ≠ .denied := by
      simp only [List.any_eq_true, List.mem_filter, decide_eq_true_eq, and_assoc]
      exact exists_congr fun p => and_congr_right fun hp => and_congr_left fun _ => hsame p hp
    constructor
    · rintro ⟨t, ht, h⟩
      cases ht
      have hsame (p : Process) (hp : p ∈ table.processes) :
          p.programFileName = some (cStr procName) ↔ p.programFileName = some procName := by
        rw [← h.attempts p hp, List.nil_append, hattempted p hp]
      have hresult := h.result
      rw [Bool.false_or, hopens hsame] at hresult
      exact ⟨hfits, hsame, hresult⟩
    · rintro ⟨-, hsame, hends⟩
      refine ⟨_, rfl, fun p hp => ?_, fun pid hmem => ?_, ?_⟩
      · rw [List.nil_append, hattempted p hp, hsame p hp]
      · rw [List.nil_append] at hmem
        obtain ⟨p, hp, hpid⟩ := List.mem_map.mp hmem
        exact ⟨p, (List.mem_filter.mp hp).1, hpid⟩
      · rw [Bool.false_or, hopens hsame]
        exact hends
  · rw [if_neg hfits]
    refine iff_of_false ?_ fun h => hfits h.1
    rintro ⟨t, ht, -⟩
    cases ht

/-! ### Both versions -/

/-- Both versions do what is wanted and attempt the same processes. -/
def BothTerminate (table : ProcessTable) (proc : ProcListing table) (procName : Str) : Prop :=
  TerminatesNamed table procName (Linux.terminateProcess table proc procName) ∧
  ∃ t, Windows.terminateProcess table procName = some t ∧ TerminatesNamed table procName t ∧
    ∀ pid, pid ∈ (Linux.terminateProcess table proc procName).attempted ↔ pid ∈ t.attempted

theorem TerminatesNamed.same {t t' : Termination} (h : TerminatesNamed table procName t)
    (h' : TerminatesNamed table procName t') {pid : ℤ} (hmem : pid ∈ t.attempted) : pid ∈ t'.attempted := by
  obtain ⟨p, hp, rfl⟩ := h.only pid hmem
  rwa [h'.attempts p hp, ← h.attempts p hp]

/-- Two versions that each do what is wanted attempt the same. -/
theorem bothTerminate_iff_each {proc : ProcListing table} : BothTerminate table proc procName ↔
    TerminatesNamed table procName (Linux.terminateProcess table proc procName) ∧
    ∃ t, Windows.terminateProcess table procName = some t ∧ TerminatesNamed table procName t := by
  constructor
  · rintro ⟨hlinux, t, ht, hwindows, -⟩
    exact ⟨hlinux, t, ht, hwindows⟩
  · rintro ⟨hlinux, t, ht, hwindows⟩
    exact ⟨hlinux, t, ht, hwindows, fun pid => ⟨hlinux.same hwindows, hwindows.same hlinux⟩⟩

/-- Exactly when both versions of `terminate_process` terminate all processes of the
name, no others, and tell whether one has ended. -/
theorem bothTerminate_iff (table : ProcessTable) (proc : ProcListing table) (procName : Str) :
    BothTerminate table proc procName ↔
      (∀ p ∈ table.processes,
        p.programFileName = some procName ↔ table.firstShown procName = some p) ∧
      (cStr procName).length < 20 ∧
      ('\x00' ∈ procName → ∀ p ∈ table.processes, p.programFileName ≠ some (cStr procName)) ∧
      ((∃ p ∈ table.processes, p.programFileName = some procName ∧ p.reaction = .survives) →
        ∃ p ∈ table.processes, p.programFileName = some procName ∧ p.reaction = .ends) := by
  rw [bothTerminate_iff_each, terminatesNamed_linux_iff, terminatesNamed_windows_iff]
  constructor
  · rintro ⟨⟨hfirst, -⟩, hwindows⟩
    exact ⟨hfirst, hwindows⟩
  · rintro ⟨hfirst, hwindows⟩
    exact ⟨⟨hfirst, hwindows.2.2⟩, hwindows⟩

/-- Without line breaks: at most one process has the name, the name fits, and none of
the name survives unless another one ends. -/
theorem bothTerminate_iff_of_noBreaks {proc : ProcListing table}
    (h : ∀ p ∈ table.processes, '\n' ∉ cStr p.cmdline) : BothTerminate table proc procName ↔
      (∀ p ∈ table.processes, ∀ q ∈ table.processes, p.programFileName = some procName →
        q.programFileName = some procName → p = q) ∧
      (cStr procName).length < 20 ∧
      ('\x00' ∈ procName → ∀ p ∈ table.processes, p.programFileName ≠ some (cStr procName)) ∧
      ((∃ p ∈ table.processes, p.programFileName = some procName ∧ p.reaction = .survives) →
        ∃ p ∈ table.processes, p.programFileName = some procName ∧ p.reaction = .ends) := by
  rw [bothTerminate_iff_each, terminatesNamed_linux_iff, terminatesNamed_windows_iff,
    firstShown_iff_of_noBreaks h]
  constructor
  · rintro ⟨⟨hone, -⟩, hwindows⟩
    exact ⟨hone, hwindows⟩
  · rintro ⟨hone, hwindows⟩
    exact ⟨⟨hone, hwindows.2.2⟩, hwindows⟩

/-- Two instances of the VPN client. -/
def twoClients : ProcessTable where
  processes := [
    { pid := 100, cmdline := "/usr/sbin/openvpn\x00--config\x00a.conf\x00".toList, reaction := .ends
      pid_pos := by decide, pid_fits := by decide },
    { pid := 200, cmdline := "openvpn\x00".toList, reaction := .ends
      pid_pos := by decide, pid_fits := by decide }]
  nodup := by decide

def twoClientsListing : ProcListing twoClients where
  entries := { dName := "self".toList, cmdline := [] } :: twoClients.processes.map Process.entry
  numbered := by decide

/-- The second one is left running on Linux. -/
theorem not_bothTerminate_twoClients : ¬ BothTerminate twoClients twoClientsListing "openvpn".toList := by
  rintro ⟨hlinux, -⟩
  have hsecond := (hlinux.attempts _ (List.mem_cons_of_mem _ List.mem_cons_self)).mpr (by decide)
  revert hsecond
  decide

end ItvpnAgent.System
