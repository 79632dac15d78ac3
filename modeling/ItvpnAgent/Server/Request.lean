import ItvpnAgent.Constants
import ItvpnAgent.Kit.FormEncoding
import ItvpnAgent.Kit.Outcome
import Mathlib.Data.List.Basic

/-! The request of the HTTP server and what `parse_paremeters` makes of the text
behind its headers: as many characters of it as the header `Content-Length` says,
split at `&` and each piece at `=`. -/

namespace ItvpnAgent.Server

open Kit

structure Header where
  name : Str
  value : Str
  deriving DecidableEq, Repr

structure Request where
  method : Str
  uri : Str
  httpVersionMajor : ℤ
  httpVersionMinor : ℤ
  headers : List Header
  parameters : List Header
  deriving DecidableEq, Repr

/-- `values[0]` and `values[1]` of a pair. There is no `values[1]` without a `=`. -/
def splitPair (pair : Str) : Option (Str × Str) :=
  match pair.splitOn '=' with
  | name :: value :: _ => some (name, value)
  | _ => none

/-- The loop over the pairs. -/
def readPairs : List Str → Option (List (Str × Str))
  | [] => some []
  | pair :: pairs =>
    match splitPair pair, readPairs pairs with
    | some values, some rest => some (values :: rest)
    | _, _ => none

def contentLength (request : Request) : ℤ :=
  match request.headers.find? fun header => header.name = "Content-Length".toList with
  | some item => atoi item.value
  | none => 0

/-- The request with more parameters. -/
def Request.addParameters (request : Request) (pairs : List (Str × Str)) : Request :=
  { request with parameters := request.parameters ++ pairs.map fun p => { name := p.1, value := p.2 } }

/-- It goes wrong if the text is shorter than the header says, or if a pair has no
second value. -/
def parseParemeters (request : Request) (params : Str) : Outcome Exn Request :=
  if params = [] then .ok request
  else
    let length := contentLength request
    if length > 0 then
      if length ≤ params.length then
        match readPairs ((params.take length.toNat).splitOn '&') with
        | some pairs => .ok (request.addParameters pairs)
        | none => .undefined
      else .undefined
    else .ok request

/-! ### Pairs -/

/-- The second value goes up to the second `=`. -/
theorem splitPair_append {name : Str} (hname : '=' ∉ name) (rest : Str) :
    ∃ value others, rest.splitOn '=' = value :: others ∧
      splitPair (name ++ '=' :: rest) = some (name, value) := by
  obtain ⟨value, others, hrest⟩ := List.exists_cons_of_ne_nil (List.splitOn_ne_nil '=' rest)
  refine ⟨value, others, hrest, ?_⟩
  rw [splitPair, List.splitOn_append_cons_self_of_not_mem hname, hrest]

theorem splitPair_eq_none_iff {pair : Str} : splitPair pair = none ↔ '=' ∉ pair := by
  constructor
  · intro h hmem
    obtain ⟨name, rest, rfl, hname⟩ := List.eq_append_cons_of_mem hmem
    obtain ⟨value, others, -, hpair⟩ := splitPair_append hname rest
    rw [h] at hpair
    cases hpair
  · intro h
    rw [splitPair, List.splitOn_eq_singleton h]

theorem mem_of_splitPair {pair : Str} {values : Str × Str} (h : splitPair pair = some values) : '=' ∈ pair := by
  by_contra hnot
  rw [splitPair_eq_none_iff.mpr hnot] at h
  cases h

/-- A pair is read back if no `=` stands in its name or value. -/
theorem splitPair_of_notMem {name value : Str} (hname : '=' ∉ name) (hvalue : '=' ∉ value) :
    splitPair (name ++ '=' :: value) = some (name, value) := by
  obtain ⟨value', others, hrest, hpair⟩ := splitPair_append hname value
  rw [List.splitOn_eq_singleton hvalue] at hrest
  cases hrest
  exact hpair

/-- With one `=` only, a pair is what its values were taken from. -/
theorem eq_append_of_splitPair {pair name value : Str} (hone : pair.count '=' ≤ 1)
    (h : splitPair pair = some (name, value)) :
    pair = name ++ '=' :: value ∧ '=' ∉ name ∧ '=' ∉ value := by
  obtain ⟨name', rest, rfl, hname⟩ := List.eq_append_cons_of_mem (mem_of_splitPair h)
  have hrest : '=' ∉ rest := by
    rw [List.count_append, List.count_cons_self] at hone
    exact List.count_eq_zero.mp (by omega)
  rw [splitPair_of_notMem hname hrest] at h
  cases h
  exact ⟨rfl, hname, hrest⟩

theorem readPairs_eq_some_iff {pieces : List Str} {pairs : List (Str × Str)} :
    readPairs pieces = some pairs ↔ pieces.map splitPair = pairs.map some := by
  induction pieces generalizing pairs with
  | nil =>
    rw [readPairs, List.map_nil, Option.some.injEq, eq_comm, eq_comm (a := []), List.map_eq_nil_iff]
  | cons piece pieces ih =>
    cases pairs with
    | nil =>
      refine iff_of_false (fun h => ?_) (List.cons_ne_nil _ _)
      rw [readPairs] at h
      split at h
      · cases h
      · cases h
    | cons p pairs =>
      rw [List.map_cons, List.map_cons, List.cons.injEq, ← ih, readPairs]
      cases splitPair piece with
      | none => simp
      | some values =>
        cases readPairs pieces with
        | none => simp
        | some rest => simp

/-- All pairs can be read exactly if each has a `=`. -/
theorem exists_readPairs_iff {pieces : List Str} :
    (∃ pairs, readPairs pieces = some pairs) ↔ ∀ piece ∈ pieces, '=' ∈ piece := by
  induction pieces with
  | nil => exact ⟨fun _ => nofun, fun _ => ⟨[], rfl⟩⟩
  | cons piece pieces ih =>
    rw [List.forall_mem_cons, ← ih]
    cases hpair : splitPair piece with
    | none =>
      have hmem := splitPair_eq_none_iff.mp hpair
      simp [readPairs, hpair, hmem]
    | some values =>
      have hmem := mem_of_splitPair hpair
      cases hrest : readPairs pieces with
      | none => simp [readPairs, hpair, hrest]
      | some rest => simp [readPairs, hpair, hrest, hmem]

/-! ### The declared length -/

/-- The number `atoi` reads from the first header with exactly the name
`Content-Length`. -/
def Declares (request : Request) (n : ℤ) : Prop :=
  (request.headers.find? fun header => header.name = "Content-Length".toList).map (atoi ·.value) = some n

theorem declares_iff {request : Request} {n : ℤ} (hn : 0 < n) :
    Declares request n ↔ contentLength request = n := by
  unfold Declares contentLength
  cases request.headers.find? fun header => header.name = "Content-Length".toList with
  | none =>
    simp only [Option.map_none, reduceCtorEq, false_iff]
    omega
  | some item => simp

/-- What holds of every positive length declared. -/
theorem forall_declares_iff {request : Request} (hlength : 0 < contentLength request) {P : ℤ → Prop} :
    (∀ n > 0, Declares request n → P n) ↔ P (contentLength request) := by
  constructor
  · exact fun h => h _ hlength ((declares_iff hlength).mpr rfl)
  · intro h n hn hdeclares
    rw [declares_iff hn] at hdeclares
    exact hdeclares ▸ h

theorem exists_declares_iff {request : Request} (hlength : 0 < contentLength request) {P : ℤ → Prop} :
    (∃ n > 0, Declares request n ∧ P n) ↔ P (contentLength request) := by
  constructor
  · rintro ⟨n, hn, hdeclares, h⟩
    rw [declares_iff hn] at hdeclares
    exact hdeclares ▸ h
  · exact fun h => ⟨_, hlength, (declares_iff hlength).mpr rfl, h⟩

theorem not_declares {request : Request} (hlength : ¬ 0 < contentLength request) {n : ℤ} (hn : n > 0) :
    ¬ Declares request n := by
  rw [declares_iff hn]
  rintro rfl
  exact hlength hn

/-- Without text or without a positive length there are no parameters. -/
theorem parseParemeters_none {request : Request} {params : Str}
    (h : params = [] ∨ contentLength request ≤ 0) : parseParemeters request params = .ok request := by
  by_cases hempty : params = []
  · rw [parseParemeters, if_pos hempty]
  · have hlength := h.resolve_left hempty
    rw [parseParemeters, if_neg hempty]
    exact if_neg (by omega)

/-- Otherwise all depends on the characters the length takes. -/
theorem parseParemeters_eq_ok_iff {request request' : Request} {params : Str} (hempty : params ≠ [])
    (hlength : 0 < contentLength request) : parseParemeters request params = .ok request' ↔
      contentLength request ≤ params.length ∧
        ∃ pairs, readPairs ((params.take (contentLength request).toNat).splitOn '&') = some pairs ∧
          request.addParameters pairs = request' := by
  rw [parseParemeters, if_neg hempty]
  dsimp only
  rw [if_pos hlength]
  split
  · next hfits =>
    cases readPairs ((params.take (contentLength request).toNat).splitOn '&') with
    | none => simp
    | some pairs => simp [hfits]
  · next hshort => simp [hshort]

theorem addParameters_inj {request : Request} {pairs pairs' : List (Str × Str)}
    (h : request.addParameters pairs = request.addParameters pairs') : pairs = pairs' := by
  have hparameters := List.append_cancel_left (congrArg Request.parameters h)
  refine List.map_injective_iff.mpr ?_ hparameters
  rintro ⟨name, value⟩ ⟨name', value'⟩ hsame
  cases hsame
  rfl

theorem addParameters_ne {request : Request} {pairs : List (Str × Str)} (hne : pairs ≠ []) :
    request.addParameters pairs ≠ request := by
  intro h
  have hparameters := congrArg Request.parameters h
  rw [Request.addParameters, List.append_right_eq_self, List.map_eq_nil_iff] at hparameters
  exact hne hparameters

/-- Where the code stays in range: there is no text, or no positive length is
declared, or the text has so many characters and each piece of them has a `=`. -/
def TakesInRange (request : Request) (params : Str) : Prop :=
  params = [] ∨ ∀ n > 0, Declares request n → n ≤ params.length ∧
    ∀ piece ∈ (params.take n.toNat).splitOn '&', '=' ∈ piece

theorem parseParemeters_ok_iff {request : Request} {params : Str} :
    (∃ request', parseParemeters request params = .ok request') ↔ TakesInRange request params := by
  unfold TakesInRange
  by_cases hempty : params = []
  · exact iff_of_true ⟨request, parseParemeters_none (.inl hempty)⟩ (.inl hempty)
  by_cases hlength : 0 < contentLength request
  · simp only [parseParemeters_eq_ok_iff hempty hlength, forall_declares_iff hlength, hempty, false_or,
      ← exists_readPairs_iff]
    constructor
    · rintro ⟨request', hfits, pairs, hpairs, -⟩
      exact ⟨hfits, pairs, hpairs⟩
    · rintro ⟨hfits, pairs, hpairs⟩
      exact ⟨_, hfits, pairs, hpairs, rfl⟩
  · have hnone : parseParemeters request params = .ok request :=
      parseParemeters_none (.inr (Int.not_lt.mp hlength))
    refine iff_of_true ⟨request, hnone⟩ (.inr fun n hn hdeclares => ?_)
    exact absurd hdeclares (not_declares hlength hn)

end ItvpnAgent.Server
