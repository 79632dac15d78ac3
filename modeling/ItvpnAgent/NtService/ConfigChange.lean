import ItvpnAgent.Constants
import ItvpnAgent.Kit.Outcome
import ItvpnAgent.Kit.Walk

/-! The Windows side of the configuration watch, `Config_Handler::processing`. The
loop follows the offsets that stand in a buffer of change records, from one record
to the next, until it meets the name of the configuration file or a last record.
Offsets, lengths and names are whatever the bytes say. -/

namespace ItvpnAgent.NtService

open Kit Prog

/-- A string of 16-bit characters, each as a number. -/
abbrev WStr := List ℕ

/-- What `c_str` shows of it. -/
def wcs (s : WStr) : WStr := s.takeWhile (· ≠ 0)

def maxPath : ℕ := 260

/-! ### The buffer -/

/-- A buffer whose length is a `DWORD`. -/
structure NotifyBuffer where
  bytes : List UInt8
  isDword : bytes.length < 4294967296

namespace NotifyBuffer

variable (b : NotifyBuffer)

def nBufferLength : ℕ := b.bytes.length

/-- There is no byte behind the end. -/
def byte (i : ℕ) : Option ℕ := b.bytes[i]?.map UInt8.toNat

/-- Two bytes, the lower one first. -/
def wchar (i : ℕ) : Option ℕ :=
  match b.byte i, b.byte (i + 1) with
  | some low, some high => some (low + 256 * high)
  | _, _ => none

def dword (i : ℕ) : Option ℕ :=
  match b.wchar i, b.wchar (i + 2) with
  | some low, some high => some (low + 65536 * high)
  | _, _ => none

/-! The members of the record at an offset. -/

def nextEntryOffset (seek : ℕ) : Option ℕ := b.dword seek

def action (seek : ℕ) : Option ℕ := b.dword (seek + 4)

def fileNameLength (seek : ℕ) : Option ℕ := b.dword (seek + 8)

/-- What `wcsncpy` copies: no character behind a NUL is read, the rest is filled
with NULs. -/
def wcsncpy (i : ℕ) : ℕ → Option WStr
  | 0 => some []
  | count + 1 =>
    match b.wchar i with
    | none => none
    | some 0 => some (List.replicate (count + 1) 0)
    | some c => (wcsncpy (i + 2) count).map (c :: ·)

end NotifyBuffer

/-! ### The loop -/

/-- What the loop can change of the handler. -/
structure Watch where
  signals : ℕ
  bStop : Bool
  handleOpen : Bool
  deriving DecidableEq, Repr

/-- The event is signalled, the loop of `svc` told to stop and the directory closed. -/
def Watch.notify (w : Watch) : Watch where
  signals := w.signals + 1
  bStop := true
  handleOpen := false

/-- How one pass of the loop ends. -/
inductive Pass where
  | leave
  | found
  | onward (seek : ℕ)
  deriving DecidableEq, Repr

/-- One pass at an offset inside the buffer. It goes wrong where it reads behind the
end, and where the name and its NUL do not fit `szwFileName`. -/
def pass (b : NotifyBuffer) (fileName : WStr) (seek : ℕ) : Option Pass := do
  let action ← b.action seek
  if action > 5 then
    return .leave
  let nextEntryOffset ← b.nextEntryOffset seek
  let fileNameLength ← b.fileNameLength seek
  let ulCount := fileNameLength / 2
  if ulCount ≥ maxPath then none
  else
    let szwFileName ← b.wcsncpy (seek + 12) ulCount
    if wcs szwFileName = wcs fileName then
      return .found
    else if nextEntryOffset = 0 then
      return .leave
    -- `seek` is a `DWORD`
    else return .onward ((seek + nextEntryOffset) % 4294967296)

/-- `processing`, for so many passes at most. -/
def processing (b : NotifyBuffer) (fileName : WStr) : ℕ → ℕ → Prog Watch Exn Unit
  | 0, _ => hang
  | passes + 1, seek =>
    if seek < b.nBufferLength then
      match pass b fileName seek with
      | none => undef
      | some .leave => ret ()
      | some .found => update Watch.notify
      | some (.onward seek) => processing b fileName passes seek
    else ret ()

/-! ### Reading in range -/

namespace NotifyBuffer

variable {b : NotifyBuffer} {i : ℕ}

theorem byte_eq_none_iff : b.byte i = none ↔ b.nBufferLength ≤ i := by
  rw [byte, Option.map_eq_none_iff, List.getElem?_eq_none_iff, nBufferLength]

theorem exists_byte (h : i < b.nBufferLength) : ∃ v, b.byte i = some v := by
  rw [← Option.ne_none_iff_exists', Ne, byte_eq_none_iff]
  omega

theorem exists_wchar_iff : (∃ v, b.wchar i = some v) ↔ i + 2 ≤ b.nBufferLength := by
  constructor
  · rintro ⟨v, h⟩
    by_contra hend
    have hnone : b.byte (i + 1) = none := byte_eq_none_iff.mpr (by omega)
    rw [wchar, hnone] at h
    cases hlow : b.byte i with
    | none => rw [hlow] at h; cases h
    | some low => rw [hlow] at h; cases h
  · intro h
    obtain ⟨low, hlow⟩ := exists_byte (b := b) (i := i) (by omega)
    obtain ⟨high, hhigh⟩ := exists_byte (b := b) (i := i + 1) (by omega)
    exact ⟨low + 256 * high, by rw [wchar, hlow, hhigh]⟩

theorem exists_dword_iff : (∃ v, b.dword i = some v) ↔ i + 4 ≤ b.nBufferLength := by
  constructor
  · rintro ⟨v, h⟩
    rw [dword] at h
    cases hhigh : b.wchar (i + 2) with
    | none =>
      rw [hhigh] at h
      cases hlow : b.wchar i with
      | none => rw [hlow] at h; cases h
      | some low => rw [hlow] at h; cases h
    | some high => exact exists_wchar_iff.mp ⟨high, hhigh⟩
  · intro h
    obtain ⟨low, hlow⟩ := exists_wchar_iff.mpr (show i + 2 ≤ b.nBufferLength by omega)
    obtain ⟨high, hhigh⟩ := exists_wchar_iff.mpr (show i + 2 + 2 ≤ b.nBufferLength by omega)
    exact ⟨low + 65536 * high, by rw [dword, hlow, hhigh]⟩

theorem exists_wcsncpy {count : ℕ} (h : i + 2 * count ≤ b.nBufferLength) : ∃ s, b.wcsncpy i count = some s := by
  induction count generalizing i with
  | zero => exact ⟨[], rfl⟩
  | succ count ih =>
    obtain ⟨c, hc⟩ := exists_wchar_iff.mpr (show i + 2 ≤ b.nBufferLength by omega)
    obtain ⟨s, hs⟩ := ih (i := i + 2) (by omega)
    cases c with
    | zero => exact ⟨List.replicate (count + 1) 0, by simp only [wcsncpy, hc]⟩
    | succ c => exact ⟨(c + 1) :: s, by rw [wcsncpy, hc, hs]; rfl⟩

end NotifyBuffer

section Range

variable {b : NotifyBuffer} {fileName : WStr} {seek : ℕ}

/-- The record at an offset stays in range: its `Action` can be read, and unless it
is none of a record, the whole of it lies in the buffer and its name is shorter than
`MAX_PATH`. -/
structure StaysInRange (b : NotifyBuffer) (seek : ℕ) : Prop where
  action : ∃ action, b.action seek = some action
  inside : ∀ action ≤ 5, b.action seek = some action →
    ∃ length, b.fileNameLength seek = some length ∧ seek + 12 + length ≤ b.nBufferLength
  short : ∀ action ≤ 5, b.action seek = some action →
    ∀ length, b.fileNameLength seek = some length → length / 2 < maxPath

/-- What the loop reads of a record it looks at. -/
structure Reads (b : NotifyBuffer) (seek offset : ℕ) (name : WStr) : Prop where
  action : ∃ action ≤ 5, b.action seek = some action
  nextEntryOffset : b.nextEntryOffset seek = some offset
  copied : ∃ length, b.fileNameLength seek = some length ∧ length / 2 < maxPath ∧
    b.wcsncpy (seek + 12) (length / 2) = some name

theorem Reads.pass {offset : ℕ} {name : WStr} (h : Reads b seek offset name) :
    pass b fileName seek =
      if wcs name = wcs fileName then some .found
      else if offset = 0 then some .leave
      else some (.onward ((seek + offset) % 4294967296)) := by
  obtain ⟨action, hle, haction⟩ := h.action
  obtain ⟨length, hlength, hshort, hname⟩ := h.copied
  rw [NtService.pass, haction, h.nextEntryOffset, hlength]
  simp only [Option.bind_eq_bind, Option.bind_some, if_neg (not_lt.mpr hle), if_neg (not_le.mpr hshort), hname]
  rfl

/-- A pass that goes well leaves at an action that is none, or has read a record. -/
theorem pass_cases {p : Pass} (h : pass b fileName seek = some p) :
    (∃ action > 5, b.action seek = some action ∧ p = .leave) ∨ ∃ offset name, Reads b seek offset name := by
  rw [pass, Option.bind_eq_bind, Option.bind_eq_some_iff] at h
  obtain ⟨action, haction, h⟩ := h
  split at h
  · next hlarge =>
    cases h
    exact .inl ⟨action, hlarge, haction, rfl⟩
  · next hle =>
    rw [Option.bind_eq_bind, Option.bind_eq_some_iff] at h
    obtain ⟨offset, hoffset, h⟩ := h
    rw [Option.bind_eq_some_iff] at h
    obtain ⟨length, hlength, h⟩ := h
    dsimp only at h
    split at h
    · cases h
    · next hshort =>
      obtain ⟨name, hname, -⟩ := Option.bind_eq_some_iff.mp h
      exact .inr ⟨offset, name, ⟨action, not_lt.mp hle, haction⟩, hoffset, length, hlength,
        not_le.mp hshort, hname⟩

theorem StaysInRange.reads {action : ℕ} (h : StaysInRange b seek) (hle : action ≤ 5)
    (haction : b.action seek = some action) : ∃ offset name, Reads b seek offset name := by
  obtain ⟨length, hlength, hinside⟩ := h.inside action hle haction
  have hshort := h.short action hle haction length hlength
  obtain ⟨offset, hoffset⟩ := NotifyBuffer.exists_dword_iff.mpr (show seek + 4 ≤ b.nBufferLength by omega)
  have hcopied : ∃ name, b.wcsncpy (seek + 12) (length / 2) = some name :=
    NotifyBuffer.exists_wcsncpy (by omega)
  obtain ⟨name, hname⟩ := hcopied
  exact ⟨offset, name, ⟨action, hle, haction⟩, hoffset, length, hlength, hshort, hname⟩

theorem StaysInRange.pass (h : StaysInRange b seek) : ∃ p, pass b fileName seek = some p := by
  obtain ⟨action, haction⟩ := h.action
  by_cases hle : action ≤ 5
  · obtain ⟨offset, name, hreads⟩ := h.reads hle haction
    rw [hreads.pass]
    split
    · exact ⟨_, rfl⟩
    · split
      · exact ⟨_, rfl⟩
      · exact ⟨_, rfl⟩
  · refine ⟨.leave, ?_⟩
    rw [NtService.pass, haction, Option.bind_eq_bind, Option.bind_some, if_pos (not_le.mp hle)]
    rfl

/-- What a pass that goes well has read, and that it kept to `szwFileName`. -/
theorem short_of_pass {p : Pass} (h : pass b fileName seek = some p) :
    (∃ action, b.action seek = some action) ∧ ∀ action ≤ 5, b.action seek = some action →
      ∃ length, b.fileNameLength seek = some length ∧ length / 2 < maxPath := by
  obtain ⟨large, hlarge, haction, -⟩ | ⟨_, _, ⟨small, -, haction⟩, -, length, hlength, hshort, -⟩ := pass_cases h
  · refine ⟨⟨large, haction⟩, fun action hle haction' => ?_⟩
    have hsame : large = action := Option.some.inj (haction.symm.trans haction')
    omega
  · exact ⟨⟨small, haction⟩, fun _ _ _ => ⟨length, hlength, hshort⟩⟩

/-! ### The walk -/

/-- The record at an offset of the buffer is not the one looked for and is not the
last: the next one is at `t`, a `DWORD`. -/
def LeadsTo (b : NotifyBuffer) (fileName : WStr) (seek t : ℕ) : Prop :=
  seek < b.nBufferLength ∧ ∃ offset name, Reads b seek offset name ∧
    wcs name ≠ wcs fileName ∧ offset ≠ 0 ∧ t = (seek + offset) % 4294967296

/-- The records lead from the first one to an offset inside the buffer. -/
def Visits (b : NotifyBuffer) (fileName : WStr) (seek : ℕ) : Prop :=
  seek < b.nBufferLength ∧ Relation.ReflTransGen (LeadsTo b fileName) 0 seek

/-- The offset of the next pass, if there is one. -/
def onward (b : NotifyBuffer) (fileName : WStr) (seek : ℕ) : Option ℕ :=
  if seek < b.nBufferLength then
    match pass b fileName seek with
    | some (.onward seek) => some seek
    | _ => none
  else none

theorem lt_of_onward {b : NotifyBuffer} {fileName : WStr} {seek : ℕ} (h : onward b fileName seek ≠ none) :
    seek < b.nBufferLength := by
  by_contra hout
  exact h (if_neg hout)

theorem onward_eq_some_iff {b : NotifyBuffer} {fileName : WStr} {seek t : ℕ} :
    onward b fileName seek = some t ↔ seek < b.nBufferLength ∧ pass b fileName seek = some (.onward t) := by
  unfold onward
  split
  · next hseek =>
    simp only [hseek, true_and]
    cases pass b fileName seek with
    | none => simp
    | some p => cases p with
      | leave | found => simp
      | onward t' => simp
  · next hout => simp [hout]

theorem pass_eq_onward_iff {b : NotifyBuffer} {fileName : WStr} {seek t : ℕ} :
    pass b fileName seek = some (.onward t) ↔ ∃ offset name, Reads b seek offset name ∧
      wcs name ≠ wcs fileName ∧ offset ≠ 0 ∧ t = (seek + offset) % 4294967296 := by
  constructor
  · intro h
    obtain ⟨action, -, -, hleave⟩ | ⟨offset, name, hreads⟩ := pass_cases h
    · cases hleave
    · refine ⟨offset, name, hreads, ?_⟩
      rw [hreads.pass] at h
      split at h
      · cases h
      · next hother =>
        split at h
        · cases h
        · next hmore =>
          cases h
          exact ⟨hother, hmore, rfl⟩
  · rintro ⟨offset, name, hreads, hother, hmore, rfl⟩
    rw [hreads.pass, if_neg hother, if_neg hmore]

/-- The loop follows the records. -/
theorem steps_onward (b : NotifyBuffer) (fileName : WStr) : Steps (onward b fileName) = LeadsTo b fileName := by
  funext seek t
  rw [Steps, onward_eq_some_iff, pass_eq_onward_iff, LeadsTo]

/-- Every pass the loop comes to from here on goes well. -/
def PassesWell (b : NotifyBuffer) (fileName : WStr) (seek : ℕ) : Prop :=
  ∀ t, Relation.ReflTransGen (LeadsTo b fileName) seek t → t < b.nBufferLength → ∃ p, pass b fileName t = some p

section Walk

variable {b : NotifyBuffer} {fileName : WStr} {seek t : ℕ}

theorem passesWell_of_last (hlast : onward b fileName seek = none)
    (hpass : seek < b.nBufferLength → ∃ p, pass b fileName seek = some p) : PassesWell b fileName seek := by
  intro t hreach hlt
  rcases hreach.cases_head with rfl | ⟨u, hstep, -⟩
  · exact hpass hlt
  · rw [← steps_onward, Steps, hlast] at hstep
    cases hstep

theorem passesWell_iff (hnext : onward b fileName seek = some t) :
    PassesWell b fileName seek ↔ PassesWell b fileName t := by
  have hstep : LeadsTo b fileName seek t := by rwa [← steps_onward]
  constructor
  · exact fun h u hreach => h u (.head hstep hreach)
  · intro h u hreach hlt
    rcases hreach.cases_head with rfl | ⟨v, hstep', hrest⟩
    · exact ⟨_, (onward_eq_some_iff.mp hnext).2⟩
    · rw [← steps_onward, Steps, hnext] at hstep'
      cases hstep'
      exact h u hrest hlt

/-- A loop that returns has come to its end, and its passes have gone well. -/
theorem of_processing_ok {w : Watch} {passes : ℕ} (h : (processing b fileName passes seek w).1 = .ok ()) :
    (∃ k, after (onward b fileName) seek k = none) ∧ PassesWell b fileName seek := by
  induction passes generalizing seek with
  | zero => cases h
  | succ passes ih =>
    have hends (hlast : onward b fileName seek = none) : ∃ k, after (onward b fileName) seek k = none :=
      ⟨1, by rw [after_succ, hlast, Option.bind_none]⟩
    by_cases hseek : seek < b.nBufferLength
    · rw [processing, if_pos hseek] at h
      cases hpass : pass b fileName seek with
      | none =>
        rw [hpass] at h
        cases h
      | some p =>
        cases p with
        | leave | found =>
          have hlast : onward b fileName seek = none := by rw [onward, if_pos hseek, hpass]
          exact ⟨hends hlast, passesWell_of_last hlast fun _ => ⟨_, hpass⟩⟩
        | onward t =>
          rw [hpass] at h
          have hnext : onward b fileName seek = some t := onward_eq_some_iff.mpr ⟨hseek, hpass⟩
          obtain ⟨⟨k, hend⟩, hpasses⟩ := ih h
          refine ⟨⟨k + 1, ?_⟩, (passesWell_iff hnext).mpr hpasses⟩
          rw [after_succ, hnext, Option.bind_some, hend]
    · have hlast : onward b fileName seek = none := if_neg hseek
      exact ⟨hends hlast, passesWell_of_last hlast fun hlt => absurd hlt hseek⟩

/-- A walk that ends and goes well is a loop that returns. -/
theorem processing_ok {k : ℕ} (hend : after (onward b fileName) seek k = none)
    (hpasses : PassesWell b fileName seek) (w : Watch) : (processing b fileName k seek w).1 = .ok () := by
  induction k generalizing seek with
  | zero => cases hend
  | succ k ih =>
    rw [processing]
    split
    · next hseek =>
      obtain ⟨p, hpass⟩ := hpasses seek .refl hseek
      rw [hpass]
      cases p with
      | leave | found => rfl
      | onward t =>
        have hnext : onward b fileName seek = some t := onward_eq_some_iff.mpr ⟨hseek, hpass⟩
        rw [after_succ, hnext] at hend
        exact ih hend ((passesWell_iff hnext).mp hpasses)
    · rfl

end Walk

/-! ### Exactness -/

/-- The loop returns without having read or written out of range, and each record
it has looked at lies in the buffer as a whole. -/
structure WalksInRange (b : NotifyBuffer) (fileName : WStr) : Prop where
  returns (w : Watch) : ∃ passes, (processing b fileName passes 0 w).1 = .ok ()
  inside (seek : ℕ) (h : Visits b fileName seek) : ∀ action ≤ 5, b.action seek = some action →
    ∃ length, b.fileNameLength seek = some length ∧ seek + 12 + length ≤ b.nBufferLength

/-- Exactly if no record met leads back to itself, and each record met stays in
range. -/
theorem walksInRange_iff {b : NotifyBuffer} {fileName : WStr} : WalksInRange b fileName ↔
    (∀ seek, Visits b fileName seek → ¬ Relation.TransGen (LeadsTo b fileName) seek seek) ∧
    ∀ seek, Visits b fileName seek → StaysInRange b seek := by
  have hends : (∃ k, after (onward b fileName) 0 k = none) ↔
      ∀ seek, Visits b fileName seek → ¬ Relation.TransGen (LeadsTo b fileName) seek seek := by
    rw [after_ends_iff (Finset.range b.nBufferLength) fun t ht => Finset.mem_range.mpr (lt_of_onward ht),
      steps_onward]
    constructor
    · exact fun h seek hvisits => h seek hvisits.2
    · intro h seek hreach hround
      obtain ⟨t, hstep, -⟩ := Relation.TransGen.head'_iff.mp hround
      exact h seek ⟨hstep.1, hreach⟩ hround
  constructor
  · rintro ⟨hreturns, hinside⟩
    obtain ⟨passes, hok⟩ := hreturns ⟨0, false, true⟩
    obtain ⟨hend, hpasses⟩ := of_processing_ok hok
    refine ⟨hends.mp hend, fun seek hvisits => ?_⟩
    obtain ⟨p, hp⟩ := hpasses seek hvisits.2 hvisits.1
    obtain ⟨haction, hshort⟩ := short_of_pass hp
    refine ⟨haction, hinside seek hvisits, fun action hle haction length hlength => ?_⟩
    obtain ⟨length', hlength', hshort⟩ := hshort action hle haction
    rwa [Option.some.inj (hlength.symm.trans hlength')]
  · rintro ⟨hnoround, hrange⟩
    obtain ⟨k, hend⟩ := hends.mpr hnoround
    have hpasses : PassesWell b fileName 0 := fun t hreach hlt => (hrange t ⟨hlt, hreach⟩).pass
    exact ⟨fun w => ⟨k, processing_ok hend hpasses w⟩, fun seek hvisits => (hrange seek hvisits).inside⟩

end Range

/-! ### Lists of records -/

/-- A change as the system reports it. -/
structure Record where
  action : ℕ
  name : WStr
  deriving DecidableEq, Repr

/-- An action the system knows, and a name that fits `szwFileName`. -/
structure Record.WellFormed (r : Record) : Prop where
  action : 1 ≤ r.action ∧ r.action ≤ 5
  short : r.name.length < maxPath
  noNul : 0 ∉ r.name

/-- The bytes at an offset are those of the record. -/
structure RecordAt (b : NotifyBuffer) (seek : ℕ) (r : Record) (next : ℕ) : Prop where
  inside : seek + 12 + 2 * r.name.length ≤ b.nBufferLength
  nextEntryOffset : b.nextEntryOffset seek = some next
  action : b.action seek = some r.action
  fileNameLength : b.fileNameLength seek = some (2 * r.name.length)
  name : ∀ i < r.name.length, b.wchar (seek + 12 + 2 * i) = r.name[i]?

/-- From an offset on, the buffer holds these records, each behind the one before it
and the last one without a next. -/
inductive Holds (b : NotifyBuffer) : ℕ → List Record → Prop
  | last {seek : ℕ} {r : Record} (h : RecordAt b seek r 0) : Holds b seek [r]
  | more {seek : ℕ} {r : Record} {next : ℕ} {rs : List Record} (h : RecordAt b seek r next)
    (hnext : 12 + 2 * r.name.length ≤ next) (hrest : Holds b (seek + next) rs) : Holds b seek (r :: rs)

/-- `get_file_name`: `open` sets it from the C string of the parser's name. -/
def getFileName (configFileName : WStr) : WStr := wcs configFileName

theorem wcs_of_notMem {s : WStr} (h : 0 ∉ s) : wcs s = s :=
  List.takeWhile_eq_self_iff.mpr fun _ hc => decide_eq_true fun hzero => h (hzero ▸ hc)

theorem wcs_getFileName (configFileName : WStr) : wcs (getFileName configFileName) = getFileName configFileName :=
  wcs_of_notMem fun hmem => by simpa using List.mem_takeWhile_imp hmem

section Lists

variable {b : NotifyBuffer} {configFileName : WStr} {seek next : ℕ} {r : Record}

theorem wcsncpy_of_name {name : WStr} (hnul : 0 ∉ name)
    (h : ∀ i < name.length, b.wchar (seek + 2 * i) = name[i]?) : b.wcsncpy seek name.length = some name := by
  induction name generalizing seek with
  | nil => rfl
  | cons c name ih =>
    rw [List.mem_cons, not_or] at hnul
    have hfirst : b.wchar seek = some c := h 0 (Nat.succ_pos _)
    have hrest : b.wcsncpy (seek + 2) name.length = some name := by
      refine ih hnul.2 fun i hi => ?_
      have hnext := h (i + 1) (Nat.succ_lt_succ hi)
      rwa [Nat.mul_succ, Nat.add_comm (2 * i), ← Nat.add_assoc, List.getElem?_cons_succ] at hnext
    cases c with
    | zero => exact absurd rfl hnul.1
    | succ c => rw [List.length_cons, NotifyBuffer.wcsncpy, hfirst, hrest]; rfl

theorem RecordAt.reads (hr : r.WellFormed) (h : RecordAt b seek r next) : Reads b seek next r.name := by
  have hhalf : 2 * r.name.length / 2 = r.name.length := Nat.mul_div_cancel_left _ (by decide)
  refine ⟨⟨r.action, hr.action.2, h.action⟩, h.nextEntryOffset, 2 * r.name.length, h.fileNameLength, ?_, ?_⟩
  · rw [hhalf]
    exact hr.short
  · rw [hhalf]
    exact wcsncpy_of_name hr.noNul h.name

/-- A pass over a well-formed record. -/
theorem pass_of_record (configFileName : WStr) (hr : r.WellFormed) (h : RecordAt b seek r next) :
    pass b (getFileName configFileName) seek =
      if r.name = getFileName configFileName then some .found
      else if next = 0 then some .leave
      else some (.onward ((seek + next) % 4294967296)) := by
  rw [(h.reads hr).pass, wcs_of_notMem hr.noNul, wcs_getFileName]

theorem Holds.lt {rs : List Record} (h : Holds b seek rs) : seek < b.nBufferLength := by
  cases h with
  | last h => have hinside := h.inside; omega
  | more h => have hinside := h.inside; omega

/-- A list of well-formed records is walked to its end or to the first record with
the name of the file, which is reported. -/
theorem processing_of_holds {rs : List Record} (h : Holds b seek rs) (hrs : ∀ r ∈ rs, r.WellFormed) (w : Watch) :
    processing b (getFileName configFileName) rs.length seek w =
      (.ok (), if ∃ r ∈ rs, r.name = getFileName configFileName then w.notify else w) := by
  induction h with
  | @last seek r h =>
    have hpass := pass_of_record configFileName (hrs r List.mem_cons_self) h
    rw [List.length_singleton, processing, if_pos (Holds.last h).lt, hpass, if_pos rfl]
    by_cases hname : r.name = getFileName configFileName
    · simp [hname]
    · simp [hname]
  | @more seek r next rs h hnext hrest ih =>
    have hpass := pass_of_record configFileName (hrs r List.mem_cons_self) h
    have hmore : next ≠ 0 := by omega
    rw [List.length_cons, processing, if_pos (Holds.more h hnext hrest).lt, hpass, if_neg hmore]
    by_cases hname : r.name = getFileName configFileName
    · simp [hname]
    · -- the offset leads into the buffer, so it cannot wrap
      have hin := hrest.lt
      have hdword := b.isDword
      have hwrap : (seek + next) % 4294967296 = seek + next := Nat.mod_eq_of_lt (by
        rw [NotifyBuffer.nBufferLength] at hin
        omega)
      have htail := ih fun r hr => hrs r (List.mem_cons_of_mem _ hr)
      rw [if_neg hname, hwrap]
      simp only [htail, List.mem_cons, exists_eq_or_imp, hname, false_or]

end Lists

/-- The walk stays in range exactly if no record met leads back to itself and each
record met stays in range; and a list of well-formed records is reported if and only
if it has the name of the file. -/
theorem change_walk_exact (configFileName : WStr) :
    (∀ b : NotifyBuffer, WalksInRange b (getFileName configFileName) ↔
      (∀ seek, Visits b (getFileName configFileName) seek →
        ¬ Relation.TransGen (LeadsTo b (getFileName configFileName)) seek seek) ∧
      ∀ seek, Visits b (getFileName configFileName) seek → StaysInRange b seek) ∧
    ∀ (b : NotifyBuffer) (rs : List Record) (w : Watch), Holds b 0 rs → (∀ r ∈ rs, r.WellFormed) →
      ∃ passes, processing b (getFileName configFileName) passes 0 w =
        (.ok (), if ∃ r ∈ rs, r.name = getFileName configFileName then w.notify else w) :=
  ⟨fun _ => walksInRange_iff, fun _ rs w h hrs => ⟨rs.length, processing_of_holds h hrs w⟩⟩

/-- Two records: `a` and, behind four bytes of padding, `b`. -/
def twoRecords : NotifyBuffer where
  bytes := [16, 0, 0, 0, 3, 0, 0, 0, 2, 0, 0, 0, 97, 0, 0, 0, 0, 0, 0, 0, 3, 0, 0, 0, 2, 0, 0, 0, 98, 0, 0, 0]
  isDword := by decide

/-- The file `b` is reported. -/
theorem change_walk_exact_two : ∃ passes, processing twoRecords (getFileName [98]) passes 0 ⟨0, false, true⟩ =
    (.ok (), ⟨1, true, false⟩) := by
  have hfirst : RecordAt twoRecords 0 ⟨3, [97]⟩ 16 :=
    ⟨by decide, by decide, by decide, by decide, by decide⟩
  have hsecond : RecordAt twoRecords 16 ⟨3, [98]⟩ 0 :=
    ⟨by decide, by decide, by decide, by decide, by decide⟩
  have hholds : Holds twoRecords 0 [⟨3, [97]⟩, ⟨3, [98]⟩] := .more hfirst (by decide) (.last hsecond)
  have hformed (name : WStr) (hname : name = [97] ∨ name = [98]) : Record.WellFormed ⟨3, name⟩ := by
    rcases hname with rfl | rfl
    all_goals exact ⟨by decide, by decide, by decide⟩
  refine (change_walk_exact [98]).2 twoRecords [⟨3, [97]⟩, ⟨3, [98]⟩] ⟨0, false, true⟩ hholds fun r hr => ?_
  simp only [List.mem_cons, List.not_mem_nil, or_false] at hr
  rcases hr with rfl | rfl
  · exact hformed _ (.inl rfl)
  · exact hformed _ (.inr rfl)

/-- The buffer of `svc`, in which the second record points back to the first:
16 + (2 ^ 32 - 16) is 0 in a `DWORD`. -/
def roundRecords : NotifyBuffer where
  bytes := [16, 0, 0, 0, 3, 0, 0, 0, 2, 0, 0, 0, 97, 0, 0, 0, 240, 255, 255, 255, 3, 0, 0, 0, 2, 0, 0, 0, 98, 0, 0, 0] ++
    List.replicate 61408 0
  isDword := by
    rw [List.length_append, List.length_replicate]
    decide

/-- The loop over it never ends. -/
theorem round_records_endless : roundRecords.nBufferLength = 60 * 1024 ∧
    ¬ WalksInRange roundRecords (getFileName [99]) := by
  have hlength : roundRecords.nBufferLength = 61440 := by
    rw [NotifyBuffer.nBufferLength, roundRecords, List.length_append, List.length_replicate]
    rfl
  refine ⟨hlength, fun hwalks => ?_⟩
  have hpasses : pass roundRecords (getFileName [99]) 0 = some (.onward 16) ∧
      pass roundRecords (getFileName [99]) 16 = some (.onward 0) := ⟨rfl, rfl⟩
  rw [pass_eq_onward_iff, pass_eq_onward_iff] at hpasses
  have hthere : LeadsTo roundRecords (getFileName [99]) 0 16 := ⟨by rw [hlength]; decide, hpasses.1⟩
  have hback : LeadsTo roundRecords (getFileName [99]) 16 0 := ⟨by rw [hlength]; decide, hpasses.2⟩
  exact (walksInRange_iff.mp hwalks).1 0 ⟨hthere.1, .refl⟩ (.head hthere (.single hback))

end ItvpnAgent.NtService
