import ItvpnAgent.Server.Request

/-! The request parser of the HTTP server: an automaton that is fed one character
after the other and keeps its state between calls of `parse`. -/

namespace ItvpnAgent.Server

open Kit

namespace RequestParser

inductive ResultType where
  | good
  | bad
  | indeterminate
  deriving DecidableEq, Repr

inductive State where
  | methodStart
  | method
  | uri
  | httpVersionH
  | httpVersionT1
  | httpVersionT2
  | httpVersionP
  | httpVersionSlash
  | httpVersionMajorStart
  | httpVersionMajor
  | httpVersionMinorStart
  | httpVersionMinor
  | expectingNewline1
  | headerLineStart
  | headerLws
  | headerName
  | spaceBeforeHeaderValue
  | headerValue
  | expectingNewline2
  | expectingNewline3
  deriving DecidableEq, Repr

/-! ### Characters -/

/-- A byte above 127 is a negative `char`, and above 127 as an `unsigned` one. -/
def isChar (c : Char) : Bool := c.toNat ≤ 127

def isCtl (c : Char) : Bool := c.toNat ≤ 31 || c.toNat = 127

def isTspecial (c : Char) : Bool :=
  "()<>@,;:\\\"/[]?=\x7b\x7d \t".toList.contains c

/-- A character of a method or of the name of a header. -/
def isToken (c : Char) : Bool := isChar c && !isCtl c && !isTspecial c

/-! ### The automaton -/

/-- `headers.push_back(header())` and the first character of its name. -/
def startHeader (req : Request) (c : Char) : Request :=
  { req with headers := req.headers ++ [{ name := [c], value := [] }] }

/-- A change of `headers.back()`. -/
def changeLast (change : Header → Header) : List Header → List Header
  | [] => []
  | [header] => [change header]
  | header :: headers => header :: changeLast change headers

def pushName (req : Request) (c : Char) : Request :=
  { req with headers := changeLast (fun header => { header with name := header.name ++ [c] }) req.headers }

def pushValue (req : Request) (c : Char) : Request :=
  { req with headers := changeLast (fun header => { header with value := header.value ++ [c] }) req.headers }

/-- A number with one more digit. -/
def pushDigit (number : ℤ) (c : Char) : ℤ := number * 10 + (c.toNat - '0'.toNat : ℤ)

/-- One fixed character, and the state behind it. -/
def expect (c input : Char) (state next : State) (req : Request) : ResultType × State × Request :=
  if input = c then (.indeterminate, next, req) else (.bad, state, req)

def consume (state : State) (req : Request) (input : Char) : ResultType × State × Request :=
  match state with
  | .methodStart =>
    if !isToken input then (.bad, state, req)
    else (.indeterminate, .method, { req with method := req.method ++ [input] })
  | .method =>
    if input = ' ' then (.indeterminate, .uri, req)
    else if !isToken input then (.bad, state, req)
    else (.indeterminate, state, { req with method := req.method ++ [input] })
  | .uri =>
    if input = ' ' then (.indeterminate, .httpVersionH, req)
    else if isCtl input then (.bad, state, req)
    else (.indeterminate, state, { req with uri := req.uri ++ [input] })
  | .httpVersionH => expect 'H' input state .httpVersionT1 req
  | .httpVersionT1 => expect 'T' input state .httpVersionT2 req
  | .httpVersionT2 => expect 'T' input state .httpVersionP req
  | .httpVersionP => expect 'P' input state .httpVersionSlash req
  | .httpVersionSlash =>
    if input = '/' then
      (.indeterminate, .httpVersionMajorStart, { req with httpVersionMajor := 0, httpVersionMinor := 0 })
    else (.bad, state, req)
  | .httpVersionMajorStart =>
    if input.isDigit then
      (.indeterminate, .httpVersionMajor, { req with httpVersionMajor := pushDigit req.httpVersionMajor input })
    else (.bad, state, req)
  | .httpVersionMajor =>
    if input = '.' then (.indeterminate, .httpVersionMinorStart, req)
    else if input.isDigit then
      (.indeterminate, state, { req with httpVersionMajor := pushDigit req.httpVersionMajor input })
    else (.bad, state, req)
  | .httpVersionMinorStart =>
    if input.isDigit then
      (.indeterminate, .httpVersionMinor, { req with httpVersionMinor := pushDigit req.httpVersionMinor input })
    else (.bad, state, req)
  | .httpVersionMinor =>
    if input = '\r' then (.indeterminate, .expectingNewline1, req)
    else if input.isDigit then
      (.indeterminate, state, { req with httpVersionMinor := pushDigit req.httpVersionMinor input })
    else (.bad, state, req)
  | .expectingNewline1 => expect '\n' input state .headerLineStart req
  | .headerLineStart =>
    if input = '\r' then (.indeterminate, .expectingNewline3, req)
    else if req.headers ≠ [] ∧ (input = ' ' ∨ input = '\t') then (.indeterminate, .headerLws, req)
    else if !isToken input then (.bad, state, req)
    else (.indeterminate, .headerName, startHeader req input)
  | .headerLws =>
    if input = '\r' then (.indeterminate, .expectingNewline2, req)
    else if input = ' ' ∨ input = '\t' then (.indeterminate, state, req)
    else if isCtl input then (.bad, state, req)
    else (.indeterminate, .headerValue, pushValue req input)
  | .headerName =>
    if input = ':' then (.indeterminate, .spaceBeforeHeaderValue, req)
    else if !isToken input then (.bad, state, req)
    else (.indeterminate, state, pushName req input)
  | .spaceBeforeHeaderValue => expect ' ' input state .headerValue req
  | .headerValue =>
    if input = '\r' then (.indeterminate, .expectingNewline2, req)
    else if isCtl input then (.bad, state, req)
    else (.indeterminate, state, pushValue req input)
  | .expectingNewline2 => expect '\n' input state .headerLineStart req
  | .expectingNewline3 => (if input = '\n' then .good else .bad, state, req)

/-- It stops behind the first character that decides, and gives back the text
behind it. -/
def parse (state : State) (req : Request) : Str → ResultType × State × Request × Str
  | [] => (.indeterminate, state, req, [])
  | c :: text =>
    match consume state req c with
    | (.indeterminate, state, req) => parse state req text
    | (result, state, req) => (result, state, req, text)

/-! ### Text in pieces -/

variable {state state' : State} {req req' : Request} {text rest : Str}

theorem parse_append_of_indeterminate (h : parse state req text = (.indeterminate, state', req', rest))
    (more : Str) : rest = [] ∧ parse state req (text ++ more) = parse state' req' more := by
  induction text generalizing state req with
  | nil =>
    cases h
    exact ⟨rfl, rfl⟩
  | cons c text ih =>
    rw [parse] at h
    rw [List.cons_append, parse]
    cases hconsume : consume state req c with
    | mk result after => cases result with
      | indeterminate =>
        rw [hconsume] at h
        exact ih h
      | good | bad =>
        rw [hconsume] at h
        cases h

theorem parse_append_of_ne {result : ResultType} (hresult : result ≠ .indeterminate)
    (h : parse state req text = (result, state', req', rest)) (more : Str) :
    parse state req (text ++ more) = (result, state', req', rest ++ more) := by
  induction text generalizing state req with
  | nil =>
    cases h
    exact absurd rfl hresult
  | cons c text ih =>
    rw [parse] at h
    rw [List.cons_append, parse]
    cases hconsume : consume state req c with
    | mk result after => cases result with
      | indeterminate =>
        rw [hconsume] at h
        exact ih h
      | good | bad =>
        rw [hconsume] at h
        cases h
        rfl

/-- A part of a text that is accepted at its last character leaves the parser
undecided, and it goes on where it was. -/
theorem parse_prefix (hmore : rest ≠ []) (h : parse state req (text ++ rest) = (.good, state', req', [])) :
    ∃ state₁ req₁, parse state req text = (.indeterminate, state₁, req₁, []) ∧
      parse state₁ req₁ rest = (.good, state', req', []) := by
  obtain ⟨result, state₁, req₁, left, hparse⟩ : ∃ result state₁ req₁ left,
      parse state req text = (result, state₁, req₁, left) := ⟨_, _, _, _, rfl⟩
  by_cases hresult : result = .indeterminate
  · subst hresult
    obtain ⟨rfl, happend⟩ := parse_append_of_indeterminate hparse rest
    exact ⟨state₁, req₁, hparse, happend ▸ h⟩
  · rw [parse_append_of_ne hresult hparse rest] at h
    have hleft : left ++ rest = [] := congrArg (fun r => r.2.2.2) h
    exact absurd (List.append_eq_nil_iff.mp hleft).2 hmore

end RequestParser

end ItvpnAgent.Server
