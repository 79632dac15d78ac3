import Mathlib.Logic.Function.Basic
import Mathlib.Tactic.Common
import ItvpnAgent.Kit.Machine

/-! A file that several writers write in place. Opening it truncates it; each
writer then writes its text piece by piece at an offset of its own, over whatever
the others have put there, and what lies between the end of the file and an
offset behind it is filled. So the file is a mosaic of the texts, each piece at its
own place; and as long as one writer is alone it is what that one has written. -/

namespace Kit

variable {W A : Type}

/-- `xs` written over `content` from `pos` on. Writing nothing does nothing. -/
def overwrite (fill : A) (content : List A) (pos : ℕ) : List A → List A
  | [] => content
  | x :: xs => content.take pos ++ List.replicate (pos - content.length) fill ++ (x :: xs) ++
      content.drop (pos + (x :: xs).length)

/-- Where the elements of an overwritten file come from. -/
theorem getElem?_overwrite {fill : A} {content xs : List A} {pos i : ℕ} {a : A}
    (h : (overwrite fill content pos xs)[i]? = some a) :
    content[i]? = some a ∨ a = fill ∨ (pos ≤ i ∧ xs[i - pos]? = some a) := by
  cases xs with
  | nil => exact .inl h
  | cons x xs =>
    have hfront : (content.take pos ++ List.replicate (pos - content.length) fill).length = pos := by
      simp only [List.length_append, List.length_take, List.length_replicate]
      omega
    rw [overwrite, List.append_assoc, List.getElem?_append, hfront] at h
    split at h
    · next hbefore =>
      rw [List.getElem?_append] at h
      split at h
      · rw [List.getElem?_take_of_lt hbefore] at h
        exact .inl h
      · rw [List.getElem?_replicate] at h
        split at h
        · exact .inr (.inl (Option.some.inj h).symm)
        · cases h
    · next hbehind =>
      rw [List.getElem?_append] at h
      split at h
      · exact .inr (.inr ⟨Nat.le_of_not_lt hbehind, h⟩)
      · next hpast =>
        rw [List.getElem?_drop] at h
        have hsame : pos + (x :: xs).length + (i - pos - (x :: xs).length) = i := by omega
        rw [hsame] at h
        exact .inl h

/-- At the end of a file, writing appends. -/
theorem overwrite_length (fill : A) (content xs : List A) :
    overwrite fill content content.length xs = content ++ xs := by
  cases xs with
  | nil => exact (List.append_nil content).symm
  | cons x xs => simp [overwrite]

/-! ### Writers -/

/-- An open file description: the text to be written, and how far it has been. -/
structure Handle (A : Type) where
  text : List A
  pos : ℕ
  deriving DecidableEq, Repr

/-- The content of the file, if it is there, and who has it open. -/
structure SharedFile (W A : Type) where
  content : Option (List A)
  handles : W → Option (Handle A)

/-- A writer opens the file for a text, or fails to; writes the next `n` elements;
closes it. A write that fails is one of fewer elements. -/
inductive FileOp (W A : Type) where
  | openWrite (w : W) (text : List A) (succeeds : Bool)
  | write (w : W) (n : ℕ)
  | close (w : W)

/-- The operation does not touch what `w` has written. -/
def FileOp.Spares (w : W) : FileOp W A → Prop
  | .openWrite _ _ succeeds => succeeds = false
  | .write w' _ => w' = w
  | .close _ => True

namespace SharedFile

variable [DecidableEq W]

def openWrite (f : SharedFile W A) (w : W) (text : List A) (succeeds : Bool) :
    Option (SharedFile W A) :=
  match f.handles w with
  | some _ => none
  | none =>
    if succeeds then
      some { content := some [], handles := Function.update f.handles w (some ⟨text, 0⟩) }
    else some f

def write (fill : A) (f : SharedFile W A) (w : W) (n : ℕ) : Option (SharedFile W A) :=
  match f.handles w with
  | some h =>
    if n ≤ h.text.length - h.pos then
      some {
        content := f.content.map fun content => overwrite fill content h.pos ((h.text.drop h.pos).take n)
        handles := Function.update f.handles w (some { h with pos := h.pos + n }) }
    else none
  | none => none

def close (f : SharedFile W A) (w : W) : Option (SharedFile W A) :=
  match f.handles w with
  | some _ => some { f with handles := Function.update f.handles w none }
  | none => none

def machine (fill : A) : Machine (SharedFile W A) (FileOp W A) where
  step f
    | .openWrite w text succeeds => f.openWrite w text succeeds
    | .write w n => f.write fill w n
    | .close w => f.close w

/-- The file as it is found, nobody having it open. -/
def idle (content : Option (List A)) : SharedFile W A where
  content := content
  handles _ := none

/-- An open handle is the one just set or an old one. -/
theorem of_update {handles : W → Option (Handle A)} {w w' : W} {new : Option (Handle A)}
    {handle : Handle A} (h : Function.update handles w new w' = some handle) :
    (w' = w ∧ new = some handle) ∨ handles w' = some handle := by
  by_cases hw : w' = w
  · subst hw
    rw [Function.update_self] at h
    exact .inl ⟨rfl, h⟩
  · rw [Function.update_of_ne hw] at h
    exact .inr h

theorem openWrite_some {f g : SharedFile W A} {w : W} {text : List A} {succeeds : Bool}
    (h : f.openWrite w text succeeds = some g) :
    (succeeds = false ∧ g = f) ∨ (succeeds = true ∧
      g = { content := some [], handles := Function.update f.handles w (some ⟨text, 0⟩) }) := by
  unfold openWrite at h
  split at h
  · cases h
  · split at h
    · next hs =>
      cases h
      exact .inr ⟨hs, rfl⟩
    · next hs =>
      cases h
      exact .inl ⟨Bool.eq_false_iff.mpr hs, rfl⟩

theorem write_some {fill : A} {f g : SharedFile W A} {w : W} {n : ℕ} (h : f.write fill w n = some g) :
    ∃ handle, f.handles w = some handle ∧ n ≤ handle.text.length - handle.pos ∧
      g = { content := f.content.map fun content =>
              overwrite fill content handle.pos ((handle.text.drop handle.pos).take n)
            handles := Function.update f.handles w (some { handle with pos := handle.pos + n }) } := by
  unfold write at h
  split at h
  · next handle hhandle =>
    split at h
    · next hn =>
      cases h
      exact ⟨handle, hhandle, hn, rfl⟩
    · cases h
  · cases h

theorem close_some {f g : SharedFile W A} {w : W} (h : f.close w = some g) :
    g = { f with handles := Function.update f.handles w none } := by
  unfold close at h
  split at h
  · cases h
    rfl
  · cases h

/-! ### Mosaics -/

/-- Every element is a filler or one of the texts at its own place. -/
def Mosaic (fill : A) (texts : List (List A)) (content : List A) : Prop :=
  ∀ (i : ℕ) (a : A), content[i]? = some a → a = fill ∨ ∃ text ∈ texts, text[i]? = some a

/-- The texts for which the file has been opened, in order. -/
def opened : List (FileOp W A) → List (List A)
  | [] => []
  | .openWrite _ text true :: ops => text :: opened ops
  | _ :: ops => opened ops

/-- Untouched since it held `initial`, or made of the texts it has been opened for. -/
structure MadeOf (fill : A) (initial : Option (List A)) (texts : List (List A)) (f : SharedFile W A) :
    Prop where
  content : (texts = [] ∧ f.content = initial) ∨
    ∃ content, f.content = some content ∧ Mosaic fill texts content
  handles : ∀ w handle, f.handles w = some handle → handle.text ∈ texts

variable {fill : A} {initial : Option (List A)} {texts : List (List A)} {f g : SharedFile W A}

omit [DecidableEq W] in
theorem madeOf_idle : (idle initial : SharedFile W A).MadeOf fill initial [] where
  content := .inl ⟨rfl, rfl⟩
  handles := nofun

theorem Mosaic.overwrite {content text : List A} {pos n : ℕ} (h : Mosaic fill texts content)
    (htext : text ∈ texts) : Mosaic fill texts (overwrite fill content pos ((text.drop pos).take n)) := by
  intro i a ha
  rcases getElem?_overwrite ha with hold | hfill | ⟨hle, hnew⟩
  · exact h i a hold
  · exact .inl hfill
  · right
    refine ⟨text, htext, ?_⟩
    rw [List.getElem?_take] at hnew
    split at hnew
    · rw [List.getElem?_drop, Nat.add_sub_cancel' hle] at hnew
      exact hnew
    · cases hnew

theorem madeOf_step {op : FileOp W A} (h : f.MadeOf fill initial texts)
    (hstep : (machine fill).step f op = some g) : g.MadeOf fill initial (texts ++ opened [op]) := by
  cases op with
  | openWrite w text succeeds =>
    rcases openWrite_some hstep with ⟨rfl, rfl⟩ | ⟨rfl, rfl⟩
    · simpa only [opened, List.append_nil] using h
    · refine ⟨.inr ⟨[], rfl, fun _ _ ha => nomatch ha⟩, fun w' handle hhandle => ?_⟩
      rcases of_update hhandle with ⟨-, hnew⟩ | hold
      · cases hnew
        exact List.mem_append_right _ List.mem_cons_self
      · exact List.mem_append_left _ (h.handles w' handle hold)
  | write w n =>
    obtain ⟨handle, hhandle, hn, rfl⟩ := write_some hstep
    have htext := h.handles w handle hhandle
    simp only [opened, List.append_nil]
    refine ⟨?_, fun w' handle' hhandle' => ?_⟩
    · rcases h.content with ⟨rfl, -⟩ | ⟨content, hcontent, hmosaic⟩
      · cases htext
      · exact .inr ⟨_, by rw [hcontent]; rfl, hmosaic.overwrite htext⟩
    · rcases of_update hhandle' with ⟨-, hnew⟩ | hold
      · cases hnew
        exact htext
      · exact h.handles w' handle' hold
  | close w =>
    cases close_some hstep
    simp only [opened, List.append_nil]
    refine ⟨h.content, fun w' handle hhandle => ?_⟩
    rcases of_update hhandle with ⟨-, hnew⟩ | hold
    · cases hnew
    · exact h.handles w' handle hold

omit [DecidableEq W] in
theorem opened_cons (op : FileOp W A) (ops : List (FileOp W A)) :
    opened (op :: ops) = opened [op] ++ opened ops := by
  cases op with
  | openWrite w text succeeds => cases succeeds <;> rfl
  | write w n => rfl
  | close w => rfl

/-- Whatever the writers do, the file is what it was or made of their texts. -/
theorem madeOf_run {ops : List (FileOp W A)} (h : f.MadeOf fill initial texts)
    (hrun : (machine fill).run f ops = some g) : g.MadeOf fill initial (texts ++ opened ops) := by
  induction ops generalizing f texts with
  | nil =>
    cases hrun
    simpa only [opened, List.append_nil] using h
  | cons op ops ih =>
    obtain ⟨u, hstep, hrun⟩ := Option.bind_eq_some_iff.mp hrun
    have hlater := ih (madeOf_step h hstep) hrun
    rwa [List.append_assoc, ← opened_cons] at hlater

/-! ### One writer alone -/

/-- How much `w` writes. -/
def written (w : W) : List (FileOp W A) → ℕ
  | [] => 0
  | .write w' n :: ops => (if w' = w then n else 0) + written w ops
  | _ :: ops => written w ops

/-- The file is the first `k` elements of the text that `w` is writing. -/
structure Follows (w : W) (text : List A) (k : ℕ) (f : SharedFile W A) : Prop where
  content : f.content = some (text.take k)
  le : k ≤ text.length
  handle : ∀ handle, f.handles w = some handle → handle = ⟨text, k⟩

theorem follows_step {w : W} {text : List A} {k : ℕ} {op : FileOp W A} (h : f.Follows w text k)
    (hspares : op.Spares w) (hstep : (machine fill).step f op = some g) :
    g.Follows w text (k + written w [op]) := by
  cases op with
  | openWrite w' text' succeeds =>
    cases hspares
    rcases openWrite_some hstep with ⟨-, rfl⟩ | ⟨hs, -⟩
    · exact h
    · cases hs
  | write w' n =>
    cases hspares
    obtain ⟨handle, hhandle, hn, rfl⟩ := write_some hstep
    cases h.handle handle hhandle
    have hlength : (text.take k).length = k := List.length_take_of_le h.le
    have hcontent : overwrite fill (text.take k) k ((text.drop k).take n) = text.take (k + n) := by
      have happend := overwrite_length fill (text.take k) ((text.drop k).take n)
      rw [hlength] at happend
      rw [happend, List.take_add]
    have hle := h.le
    dsimp only at hn
    simp only [written, if_true, Nat.add_zero]
    refine ⟨?_, by omega, fun handle' hhandle' => ?_⟩
    · rw [h.content, Option.map_some, hcontent]
    · dsimp only at hhandle'
      rw [Function.update_self] at hhandle'
      cases hhandle'
      rfl
  | close w' =>
    cases close_some hstep
    refine ⟨h.content, h.le, fun handle hhandle => ?_⟩
    rcases of_update hhandle with ⟨-, hnew⟩ | hold
    · cases hnew
    · exact h.handle handle hold

theorem written_cons (w : W) (op : FileOp W A) (ops : List (FileOp W A)) :
    written w (op :: ops) = written w [op] + written w ops := by
  cases op with
  | openWrite w' text succeeds => exact (Nat.zero_add _).symm
  | write w' n => rfl
  | close w' => exact (Nat.zero_add _).symm

theorem follows_run {w : W} {text : List A} {k : ℕ} {ops : List (FileOp W A)} (h : f.Follows w text k)
    (hspares : ∀ op ∈ ops, op.Spares w) (hrun : (machine fill).run f ops = some g) :
    g.Follows w text (k + written w ops) := by
  induction ops generalizing f k with
  | nil =>
    cases hrun
    exact h
  | cons op ops ih =>
    obtain ⟨u, hstep, hrun⟩ := Option.bind_eq_some_iff.mp hrun
    have hnow := follows_step h (hspares op List.mem_cons_self) hstep
    have hlater := ih hnow (fun op' hop => hspares op' (List.mem_cons_of_mem _ hop)) hrun
    rwa [Nat.add_assoc, ← written_cons] at hlater

theorem follows_opened (w : W) (text : List A) (handles : W → Option (Handle A)) :
    Follows w text 0 { content := some [], handles := Function.update handles w (some ⟨text, 0⟩) } := by
  refine ⟨rfl, Nat.zero_le _, fun handle hhandle => ?_⟩
  dsimp only at hhandle
  rw [Function.update_self] at hhandle
  cases hhandle
  rfl

/-- After an opening that nobody has interfered with, the file is what its writer
has written. -/
theorem content_alone {w : W} {text : List A} {ops : List (FileOp W A)}
    (hspares : ∀ op ∈ ops, op.Spares w)
    (hrun : (machine fill).run f (.openWrite w text true :: ops) = some g) :
    g.content = some (text.take (written w ops)) := by
  obtain ⟨u, hstep, hrun⟩ := Option.bind_eq_some_iff.mp hrun
  rcases openWrite_some hstep with ⟨hs, -⟩ | ⟨-, rfl⟩
  · cases hs
  · have hfollows := follows_run (follows_opened w text f.handles) hspares hrun
    rw [Nat.zero_add] at hfollows
    exact hfollows.content

end SharedFile

end Kit
