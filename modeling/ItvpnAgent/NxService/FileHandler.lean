import ItvpnAgent.Tools

/-! The part that the two inotify handlers share: they watch a directory, look at
the first event of each read, and let two out of three events of their file pass. -/

namespace ItvpnAgent

open Kit

/-- `struct inotify_event`, with the bits of its mask that the handlers test. -/
structure InotifyEvent where
  len : ℕ
  name : Str
  isDir : Bool
  modify : Bool
  opened : Bool
  deriving DecidableEq, Repr

/-- The members of a handler; `watched` is the path given to `inotify_add_watch`. -/
structure FileHandler where
  fileName : Str
  directory : Str
  watched : Str
  iterations : ℕ
  deriving DecidableEq, Repr

namespace FileHandler

/-- Both constructors: the file name and the directory come from the options. -/
def make (fileName directory : Str) : FileHandler where
  fileName := fileName
  directory := directory
  watched := cStr directory
  iterations := 0

/-- The first event of a read, up to the point where a handler starts its work:
the new members, and whether it does. -/
def handleEvent (bit : InotifyEvent → Bool) (h : FileHandler) (event : InotifyEvent) :
    FileHandler × Bool :=
  if event.len ≠ 0 then
    if event.isDir then (h, false)
    else if bit event then
      if cStr h.fileName = cStr event.name then
        if h.iterations > 1 then ({ h with iterations := 0 }, false)
        else ({ h with iterations := h.iterations + 1 }, true)
      else (h, false)
    else (h, false)
  else (h, false)

/-- The event is one of the watched file. -/
def Concerns (bit : InotifyEvent → Bool) (fileName : Str) (event : InotifyEvent) : Prop :=
  event.len ≠ 0 ∧ event.isDir = false ∧ bit event = true ∧ cStr fileName = cStr event.name

instance (bit : InotifyEvent → Bool) (fileName : Str) (event : InotifyEvent) :
    Decidable (Concerns bit fileName event) :=
  inferInstanceAs (Decidable (_ ∧ _ ∧ _ ∧ _))

/-- A read of `n` events: the handler looks at the first one only. -/
def handleInput (bit : InotifyEvent → Bool) (h : FileHandler) (n : ℕ) (unread : List InotifyEvent) :
    Option (FileHandler × Bool × List InotifyEvent) :=
  match unread.take n with
  | [] => none
  | event :: _ =>
    if n ≤ unread.length then
      some ((h.handleEvent bit event).1, (h.handleEvent bit event).2, unread.drop n)
    else none

/-- The first of the unread events sets the handler to work. -/
def WorksOn (bit : InotifyEvent → Bool) (h : FileHandler) (unread : List InotifyEvent) : Prop :=
  ∃ event rest, unread = event :: rest ∧ Concerns bit h.fileName event ∧ h.iterations ≤ 1

/-- The handler works on an event exactly if it is one of its file and not the
third one in a row. -/
theorem handleEvent_works_iff {bit : InotifyEvent → Bool} {h : FileHandler} {event : InotifyEvent} :
    (h.handleEvent bit event).2 = true ↔ Concerns bit h.fileName event ∧ h.iterations ≤ 1 := by
  unfold handleEvent Concerns
  split_ifs <;> simp_all

@[simp] theorem handleEvent_fileName (bit : InotifyEvent → Bool) (h : FileHandler)
    (event : InotifyEvent) : (h.handleEvent bit event).1.fileName = h.fileName := by
  unfold handleEvent
  split_ifs <;> rfl

/-- What a read does: the events are gone, and the handler works or does not. -/
theorem handleInput_some {bit : InotifyEvent → Bool} {h h' : FileHandler} {n : ℕ} {works : Bool}
    {unread unread' : List InotifyEvent} (hread : h.handleInput bit n unread = some (h', works, unread')) :
    h'.fileName = h.fileName ∧ unread' = unread.drop n ∧ (works = true ↔ WorksOn bit h unread) := by
  unfold handleInput at hread
  cases n with
  | zero => cases hread
  | succ n =>
    cases unread with
    | nil => cases hread
    | cons event rest =>
      simp only [List.take_succ_cons] at hread
      split at hread
      · cases hread
        refine ⟨handleEvent_fileName bit h event, rfl, ?_⟩
        rw [handleEvent_works_iff]
        constructor
        · exact fun hworks => ⟨event, rest, rfl, hworks⟩
        · rintro ⟨_, _, hcons, hworks⟩
          cases hcons
          exact hworks
      · cases hread

end FileHandler

end ItvpnAgent
