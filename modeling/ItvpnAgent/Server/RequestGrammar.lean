import ItvpnAgent.Kit.Feed
import ItvpnAgent.Server.Connection

/-! The requests that the automaton accepts, as a grammar: a request line, headers
whose values may go on in further lines, and an empty line. The automaton accepts
exactly the text of such a head, gives back what stands in it, and waits exactly
inside such a text. -/

namespace ItvpnAgent.Server

open Kit

namespace RequestParser

/-! ### The grammar -/

def crlf : Str := "\r\n".toList

def IsBlank (c : Char) : Prop := c = ' ' ∨ c = '\t'

/-- A word of a method, or the name of a header. -/
def IsWord (word : Str) : Prop := word ≠ [] ∧ ∀ c ∈ word, isToken c = true

def IsPlain (text : Str) : Prop := ∀ c ∈ text, isCtl c = false

/-- A line that goes on with the value of the header before it. -/
structure Fold where
  blanks : Str
  text : Str
  blank : blanks ≠ [] ∧ ∀ c ∈ blanks, IsBlank c
  plain : IsPlain text
  behind : text.head? ≠ some ' '

def Fold.line (fold : Fold) : Str := fold.blanks ++ fold.text ++ crlf

structure Field where
  name : Str
  value : Str
  folds : List Fold
  named : IsWord name
  plain : IsPlain value

def foldLines (folds : List Fold) : Str := folds.flatMap Fold.line

/-- What the further lines add to the value. -/
def foldText (folds : List Fold) : Str := folds.flatMap Fold.text

def Field.lines (field : Field) : Str :=
  field.name ++ ": ".toList ++ field.value ++ crlf ++ foldLines field.folds

def Field.header (field : Field) : Header where
  name := field.name
  value := field.value ++ foldText field.folds

def IsDigits (word : Str) : Prop := word ≠ [] ∧ ∀ c ∈ word, c.isDigit = true

/-- The last sum `number * 10 + input` of a number that was read stays in an `int`. -/
def NumberFits (number : ℤ) : Prop := number + 48 ≤ 2147483647

/-- The head of a request. -/
structure RequestHead where
  method : Str
  uri : Str
  major : Str
  minor : Str
  fields : List Field
  isMethod : IsWord method
  isUri : ∀ c ∈ uri, c ≠ ' ' ∧ isCtl c = false
  isMajor : IsDigits major ∧ NumberFits (natOfDigits major)
  isMinor : IsDigits minor ∧ NumberFits (natOfDigits minor)

namespace RequestHead

def fieldLines (fields : List Field) : Str := fields.flatMap Field.lines

def text (head : RequestHead) : Str :=
  head.method ++ ' ' :: head.uri ++ " HTTP/".toList ++ head.major ++ '.' :: head.minor ++ crlf ++
    fieldLines head.fields ++ crlf

def request (head : RequestHead) : Request where
  method := head.method
  uri := head.uri
  httpVersionMajor := natOfDigits head.major
  httpVersionMinor := natOfDigits head.minor
  headers := head.fields.map Field.header
  parameters := []

end RequestHead

/-- The version was read without overflow. -/
def VersionFits (req : Request) : Prop := NumberFits req.httpVersionMajor ∧ NumberFits req.httpVersionMinor

/-! ### The automaton as a reader -/

/-- One character, by `consume`. -/
def react (s : State × Request) (c : Char) : Reaction (State × Request) :=
  match consume s.1 s.2 c with
  | (.indeterminate, next) => .more next
  | (.good, next) => .accept next
  | (.bad, next) => .reject next

/-- The verdict as `parse` gives it. -/
def verdict : Reaction (State × Request) → ResultType × State × Request
  | .more s => (.indeterminate, s)
  | .accept s => (.good, s)
  | .reject s => (.bad, s)

theorem parse_eq_feed (state : State) (req : Request) (text : Str) : parse state req text =
    ((verdict (feed react (state, req) text).1).1, (verdict (feed react (state, req) text).1).2.1,
      (verdict (feed react (state, req) text).1).2.2, (feed react (state, req) text).2) := by
  induction text generalizing state req with
  | nil => rfl
  | cons c text ih =>
    rw [parse, feed, react]
    cases hconsume : consume state req c with
    | mk result after => cases result with
      | indeterminate => exact ih after.1 after.2
      | good => rfl
      | bad => rfl

theorem parse_good_iff_accepts {state state' : State} {req req' : Request} {text rest : Str} :
    parse state req text = (.good, state', req', rest) ↔
      Accepts react (state, req) text (state', req') rest := by
  rw [parse_eq_feed, Accepts]
  cases feed react (state, req) text with
  | mk reaction left => cases reaction with
    | more s => simp [verdict]
    | accept s =>
      obtain ⟨state₁, req₁⟩ := s
      simp [verdict, and_assoc]
    | reject s => simp [verdict]

theorem parse_indeterminate_iff {state state' : State} {req req' : Request} {text rest : Str} :
    parse state req text = (.indeterminate, state', req', rest) ↔
      feed react (state, req) text = (.more (state', req'), rest) := by
  rw [parse_eq_feed]
  cases feed react (state, req) text with
  | mk reaction left => cases reaction with
    | more s =>
      obtain ⟨state₁, req₁⟩ := s
      simp [verdict, and_assoc]
    | accept s => simp [verdict]
    | reject s => simp [verdict]

/-! ### The request line -/

section RequestLine

variable {text rest : Str} {s' : State × Request}

theorem takes_expect {req : Request} (state : State) {next : State} {c : Char}
    (h : ∀ req input, consume state req input = expect c input state next req) :
    Takes react (state, req) (· = c) fun _ => (next, req) := by
  intro input
  constructor
  · rintro rfl
    simp [react, h, expect]
  · intro hne
    simp [react, h, expect, hne]

theorem accepts_method (req : Request) :
    Accepts react (.methodStart, { req with method := [] }) text s' rest ↔
      ∃ method text', IsWord method ∧ text = method ++ ' ' :: text' ∧
        Accepts react (.uri, { req with method := method }) text' s' rest := by
  have hloop : Loops react (fun word => (.method, { req with method := word })) (fun c => isToken c = true) ' '
      (fun word => (.uri, { req with method := word })) :=
    { apart := by decide
      ends := fun word => by simp [react, consume]
      takes := fun word c hc => by
        have hne : c ≠ ' ' := by rintro rfl; exact absurd hc (by decide)
        simp [react, consume, hc, hne]
      refuses := fun word c hne hc => by simp [react, consume, hc, hne] }
  have hfirst : Takes react (.methodStart, { req with method := [] }) (fun c => isToken c = true)
      (fun c => (.method, { req with method := [c] })) := fun c =>
    ⟨fun hc => by simp [react, consume, hc], fun hc => by simp [react, consume, Bool.eq_false_iff.mpr hc]⟩
  exact hloop.accepts_word_iff hfirst

theorem accepts_uri (req : Request) :
    Accepts react (.uri, { req with uri := [] }) text s' rest ↔
      ∃ uri text', (∀ c ∈ uri, c ≠ ' ' ∧ isCtl c = false) ∧ text = uri ++ ' ' :: text' ∧
        Accepts react (.httpVersionH, { req with uri := uri }) text' s' rest := by
  have hloop : Loops react (fun word => (.uri, { req with uri := word })) (fun c => c ≠ ' ' ∧ isCtl c = false) ' '
      (fun word => (.httpVersionH, { req with uri := word })) :=
    { apart := by decide
      ends := fun word => by simp [react, consume]
      takes := fun word c hc => by simp [react, consume, hc.1, hc.2]
      refuses := fun word c hne hc => by
        have hctl : isCtl c = true := by simpa [hne] using hc
        simp [react, consume, hne, hctl] }
  exact hloop.accepts_iff []

theorem natOfDigits_concat (word : Str) (c : Char) :
    natOfDigits (word ++ [c]) = 10 * natOfDigits word + (c.toNat - '0'.toNat) := by
  rw [natOfDigits, List.foldl_append]
  rfl

theorem pushDigit_natOfDigits (word : Str) {c : Char} (hc : c.isDigit = true) :
    pushDigit (natOfDigits word) c = natOfDigits (word ++ [c]) := by
  have hbounds := toNat_of_isDigit hc
  have hzero : '0'.toNat = 48 := rfl
  rw [pushDigit, natOfDigits_concat]
  omega

/-- Both numbers of the version are read digit by digit, up to a delimiter. -/
theorem accepts_digits {start number next : State} {delimiter : Char} (put : ℤ → Request)
    (hdelimiter : delimiter.isDigit = false)
    (hstart : ∀ c, consume start (put 0) c =
      if c.isDigit then (.indeterminate, number, put (pushDigit 0 c)) else (.bad, start, put 0))
    (hnumber : ∀ n c, consume number (put n) c =
      if c = delimiter then (.indeterminate, next, put n)
      else if c.isDigit then (.indeterminate, number, put (pushDigit n c)) else (.bad, number, put n)) :
    Accepts react (start, put 0) text s' rest ↔
      ∃ digits text', IsDigits digits ∧ text = digits ++ delimiter :: text' ∧
        Accepts react (next, put (natOfDigits digits)) text' s' rest := by
  have hloop : Loops react (fun word => (number, put (natOfDigits word))) (fun c => c.isDigit = true) delimiter
      (fun word => (next, put (natOfDigits word))) :=
    { apart := by simp [hdelimiter]
      ends := fun word => by simp [react, hnumber]
      takes := fun word c hc => by
        have hne : c ≠ delimiter := by
          rintro rfl
          rw [hdelimiter] at hc
          cases hc
        simp [react, hnumber, hc, hne, pushDigit_natOfDigits word hc]
      refuses := fun word c hne hc => by simp [react, hnumber, hc, hne] }
  have hfirst : Takes react (start, put 0) (fun c => c.isDigit = true)
      (fun c => (number, put (natOfDigits [c]))) := by
    refine fun c => ⟨fun hc => ?_, fun hc => ?_⟩
    · have hpush : pushDigit 0 c = natOfDigits [c] := pushDigit_natOfDigits [] hc
      simp [react, hstart, hc, hpush]
    · simp [react, hstart, hc]
  exact hloop.accepts_word_iff hfirst

/-- The fixed text in front of the version resets it. -/
theorem accepts_version (req : Request) :
    Accepts react (.httpVersionH, req) text s' rest ↔
      ∃ text', text = "HTTP/".toList ++ text' ∧
        Accepts react (.httpVersionMajorStart, { req with httpVersionMajor := 0, httpVersionMinor := 0 }) text' s'
          rest := by
  have hslash : Takes react (.httpVersionSlash, req) (· = '/') fun _ =>
      (.httpVersionMajorStart, { req with httpVersionMajor := 0, httpVersionMinor := 0 }) := fun c =>
    ⟨fun hc => by simp [react, consume, hc], fun hc => by simp [react, consume, hc]⟩
  simp only [(takes_expect .httpVersionH fun _ _ => rfl).accepts_cons_iff,
    (takes_expect .httpVersionT1 fun _ _ => rfl).accepts_cons_iff,
    (takes_expect .httpVersionT2 fun _ _ => rfl).accepts_cons_iff,
    (takes_expect .httpVersionP fun _ _ => rfl).accepts_cons_iff, hslash.accepts_cons_iff]
  constructor
  · rintro ⟨_, rfl, _, rfl, _, rfl, _, rfl, text', rfl, haccepts⟩
    exact ⟨text', rfl, haccepts⟩
  · rintro ⟨text', rfl, haccepts⟩
    exact ⟨_, rfl, _, rfl, _, rfl, _, rfl, text', rfl, haccepts⟩

theorem accepts_major (req : Request) :
    Accepts react (.httpVersionMajorStart, { req with httpVersionMajor := 0 }) text s' rest ↔
      ∃ major text', IsDigits major ∧ text = major ++ '.' :: text' ∧
        Accepts react (.httpVersionMinorStart, { req with httpVersionMajor := natOfDigits major }) text' s' rest :=
  accepts_digits (fun n => { req with httpVersionMajor := n }) rfl (fun _ => rfl) fun _ _ => rfl

theorem accepts_minor (req : Request) :
    Accepts react (.httpVersionMinorStart, { req with httpVersionMinor := 0 }) text s' rest ↔
      ∃ minor text', IsDigits minor ∧ text = minor ++ crlf ++ text' ∧
        Accepts react (.headerLineStart, { req with httpVersionMinor := natOfDigits minor }) text' s' rest := by
  rw [accepts_digits (fun n => { req with httpVersionMinor := n }) rfl (fun _ => rfl) fun _ _ => rfl]
  simp only [(takes_expect .expectingNewline1 fun _ _ => rfl).accepts_cons_iff]
  constructor
  · rintro ⟨minor, _, hminor, rfl, text', rfl, haccepts⟩
    exact ⟨minor, text', hminor, by simp [crlf], haccepts⟩
  · rintro ⟨minor, text', hminor, rfl, haccepts⟩
    exact ⟨minor, _, hminor, by simp [crlf], text', rfl, haccepts⟩

/-- The request line, up to the first header. -/
theorem accepts_requestLine : Accepts react (.methodStart, freshRequest) text s' rest ↔
    ∃ method uri major minor text', IsWord method ∧ (∀ c ∈ uri, c ≠ ' ' ∧ isCtl c = false) ∧ IsDigits major ∧
      IsDigits minor ∧ text = method ++ ' ' :: uri ++ " HTTP/".toList ++ major ++ '.' :: minor ++ crlf ++ text' ∧
      Accepts react (.headerLineStart, { freshRequest with
        method := method, uri := uri, httpVersionMajor := natOfDigits major,
        httpVersionMinor := natOfDigits minor }) text' s' rest := by
  constructor
  · intro haccepts
    obtain ⟨method, _, hmethod, rfl, htarget⟩ := (accepts_method freshRequest).mp haccepts
    obtain ⟨uri, _, huri, rfl, hprotocol⟩ := (accepts_uri { freshRequest with method := method }).mp htarget
    obtain ⟨_, rfl, hversion⟩ := (accepts_version _).mp hprotocol
    obtain ⟨major, _, hmajor, rfl, hpoint⟩ :=
      (accepts_major { freshRequest with method := method, uri := uri }).mp hversion
    obtain ⟨minor, text', hminor, rfl, hheaders⟩ := (accepts_minor { freshRequest with
      method := method, uri := uri, httpVersionMajor := natOfDigits major }).mp hpoint
    exact ⟨method, uri, major, minor, text', hmethod, huri, hmajor, hminor, by simp, hheaders⟩
  · rintro ⟨method, uri, major, minor, text', hmethod, huri, hmajor, hminor, rfl, hheaders⟩
    have hpoint := (accepts_minor { freshRequest with
      method := method, uri := uri, httpVersionMajor := natOfDigits major }).mpr
        ⟨minor, text', hminor, rfl, hheaders⟩
    have hversion := (accepts_major { freshRequest with method := method, uri := uri }).mpr
      ⟨major, _, hmajor, rfl, hpoint⟩
    have hprotocol := (accepts_version { freshRequest with method := method, uri := uri }).mpr ⟨_, rfl, hversion⟩
    have htarget := (accepts_uri { freshRequest with method := method }).mpr ⟨uri, _, huri, rfl, hprotocol⟩
    exact (accepts_method freshRequest).mpr ⟨method, _, hmethod, by simp, htarget⟩

end RequestLine

/-! ### The headers -/

/-- The request with one more header behind the others. -/
def addHeader (req : Request) (name value : Str) : Request :=
  { req with headers := req.headers ++ [{ name := name, value := value }] }

def addFields (req : Request) (fields : List Field) : Request :=
  { req with headers := req.headers ++ fields.map Field.header }

theorem changeLast_concat (change : Header → Header) (headers : List Header) (header : Header) :
    changeLast change (headers ++ [header]) = headers ++ [change header] := by
  induction headers with
  | nil => rfl
  | cons first headers ih =>
    cases headers with
    | nil => rfl
    | cons second headers => exact congrArg (first :: ·) ih

@[simp]
theorem pushValue_addHeader (req : Request) (name value : Str) (c : Char) :
    pushValue (addHeader req name value) c = addHeader req name (value ++ [c]) := by
  rw [pushValue, addHeader, changeLast_concat]
  rfl

@[simp]
theorem pushName_addHeader (req : Request) (name value : Str) (c : Char) :
    pushName (addHeader req name value) c = addHeader req (name ++ [c]) value := by
  rw [pushName, addHeader, changeLast_concat]
  rfl

@[simp]
theorem addHeader_headers_ne_nil (req : Request) (name value : Str) : (addHeader req name value).headers ≠ [] := by
  simp [addHeader]

@[simp]
theorem addFields_nil (req : Request) : addFields req [] = req := by
  simp [addFields]

/-- The first of some fields, with all its lines. -/
theorem addFields_cons (req : Request) (field : Field) (fields : List Field) :
    addFields req (field :: fields) =
      addFields (addHeader req field.name (field.value ++ foldText field.folds)) fields := by
  simp [addFields, addHeader, Field.header]

section HeaderLines

variable {req : Request} {name value text rest : Str} {s' : State × Request}

/-- The rest of a line with a value. -/
theorem accepts_value : Accepts react (.headerValue, addHeader req name value) text s' rest ↔
    ∃ more text', IsPlain more ∧ text = more ++ crlf ++ text' ∧
      Accepts react (.headerLineStart, addHeader req name (value ++ more)) text' s' rest := by
  have hloop : Loops react (fun word => (.headerValue, addHeader req name (value ++ word)))
      (fun c => isCtl c = false) '\r' (fun word => (.expectingNewline2, addHeader req name (value ++ word))) :=
    { apart := by decide
      ends := fun word => by simp [react, consume]
      takes := fun word c hc => by
        have hne : c ≠ '\r' := by rintro rfl; exact absurd hc (by decide)
        simp [react, consume, hc, hne]
      refuses := fun word c hne hc => by simp [react, consume, hc, hne] }
  have hnewline {req : Request} {text : Str} : Accepts react (.expectingNewline2, req) text s' rest ↔
      ∃ text', text = '\n' :: text' ∧ Accepts react (.headerLineStart, req) text' s' rest :=
    (takes_expect .expectingNewline2 fun _ _ => rfl).accepts_cons_iff
  constructor
  · intro haccepts
    rw [← List.append_nil value] at haccepts
    obtain ⟨more, _, hmore, rfl, hline⟩ := (hloop.accepts_iff []).mp haccepts
    obtain ⟨text', rfl, hnext⟩ := hnewline.mp hline
    exact ⟨more, text', hmore, by simp [crlf], hnext⟩
  · rintro ⟨more, text', hmore, rfl, hnext⟩
    rw [← List.append_nil value]
    exact (hloop.accepts_iff []).mpr ⟨more, _, hmore, by simp [crlf], hnewline.mpr ⟨text', rfl, hnext⟩⟩

/-- A line that goes on with the value, behind its first blank. -/
theorem accepts_lws : Accepts react (.headerLws, addHeader req name value) text s' rest ↔
    ∃ blanks more text', (∀ c ∈ blanks, IsBlank c) ∧ IsPlain more ∧ more.head? ≠ some ' ' ∧
      text = blanks ++ more ++ crlf ++ text' ∧
      Accepts react (.headerLineStart, addHeader req name (value ++ more)) text' s' rest := by
  induction text with
  | nil => simp [not_accepts_nil, crlf]
  | cons c text ih =>
    by_cases hblank : IsBlank c
    · have hne : c ≠ '\r' := by rintro rfl; exact absurd hblank (by simp [IsBlank])
      have hstep : Accepts react (.headerLws, addHeader req name value) (c :: text) s' rest ↔
          Accepts react (.headerLws, addHeader req name value) text s' rest := by
        have hblank' : c = ' ' ∨ c = '\t' := hblank
        simp [Accepts, feed, react, consume, hne, hblank']
      rw [hstep, ih]
      constructor
      · rintro ⟨blanks, more, text', hblanks, hplain, hbehind, rfl, hnext⟩
        exact ⟨c :: blanks, more, text', List.forall_mem_cons.mpr ⟨hblank, hblanks⟩, hplain, hbehind, rfl, hnext⟩
      · rintro ⟨blanks, more, text', hblanks, hplain, hbehind, heq, hnext⟩
        cases blanks with
        | cons d blanks =>
          cases heq
          exact ⟨blanks, more, text', (List.forall_mem_cons.mp hblanks).2, hplain, hbehind, rfl, hnext⟩
        | nil =>
          -- a blank is neither the end of the line nor the first character behind the blanks
          cases more with
          | nil =>
            cases heq
            exact absurd rfl hne
          | cons d more =>
            cases heq
            rcases hblank with rfl | rfl
            · exact absurd rfl hbehind
            · exact absurd (hplain _ List.mem_cons_self) (by decide)
    · have hstep : Accepts react (.headerLws, addHeader req name value) (c :: text) s' rest ↔
          Accepts react (.headerValue, addHeader req name value) (c :: text) s' rest := by
        have hblank' : ¬ (c = ' ' ∨ c = '\t') := hblank
        by_cases hend : c = '\r'
        · simp [Accepts, feed, react, consume, hend]
        · by_cases hctl : isCtl c = true
          · simp [Accepts, feed, react, consume, hend, hblank', hctl]
          · simp [Accepts, feed, react, consume, hend, hblank', hctl]
      rw [hstep, accepts_value]
      constructor
      · rintro ⟨more, text', hplain, heq, hnext⟩
        refine ⟨[], more, text', List.forall_mem_nil _, hplain, fun hhead => hblank ?_, heq, hnext⟩
        cases more with
        | nil => cases hhead
        | cons d more =>
          cases heq
          exact .inl (Option.some.inj hhead)
      · rintro ⟨blanks, more, text', hblanks, hplain, hbehind, heq, hnext⟩
        cases blanks with
        | nil => exact ⟨more, text', hplain, heq, hnext⟩
        | cons d blanks =>
          cases heq
          exact absurd (hblanks _ List.mem_cons_self) hblank

/-- A line that starts a header. -/
theorem accepts_header {c : Char} (hc : isToken c = true) :
    Accepts react (.headerLineStart, req) (c :: text) s' rest ↔
      ∃ more value text', (∀ c ∈ more, isToken c = true) ∧ IsPlain value ∧
        text = more ++ ": ".toList ++ value ++ crlf ++ text' ∧
        Accepts react (.headerLineStart, addHeader req (c :: more) value) text' s' rest := by
  have hloop : Loops react (fun word => (.headerName, addHeader req word [])) (fun c => isToken c = true) ':'
      (fun word => (.spaceBeforeHeaderValue, addHeader req word [])) :=
    { apart := by decide
      ends := fun word => by simp [react, consume]
      takes := fun word c hc => by
        have hne : c ≠ ':' := by rintro rfl; exact absurd hc (by decide)
        simp [react, consume, hc, hne]
      refuses := fun word c hne hc => by simp [react, consume, hc, hne] }
  have hspace {req : Request} {text : Str} : Accepts react (.spaceBeforeHeaderValue, req) text s' rest ↔
      ∃ text', text = ' ' :: text' ∧ Accepts react (.headerValue, req) text' s' rest :=
    (takes_expect .spaceBeforeHeaderValue fun _ _ => rfl).accepts_cons_iff
  have hstep : Accepts react (.headerLineStart, req) (c :: text) s' rest ↔
      Accepts react (.headerName, addHeader req [c] []) text s' rest := by
    have hline : c ≠ '\r' := by rintro rfl; exact absurd hc (by decide)
    have hblank : c ≠ ' ' := by rintro rfl; exact absurd hc (by decide)
    have htab : c ≠ '\t' := by rintro rfl; exact absurd hc (by decide)
    simp [Accepts, feed, react, consume, hc, hline, hblank, htab, startHeader, addHeader]
  rw [hstep, hloop.accepts_iff]
  simp only [hspace, List.singleton_append]
  constructor
  · rintro ⟨more, _, hmore, rfl, _, rfl, hvalue⟩
    obtain ⟨value, text', hplain, rfl, hnext⟩ := accepts_value.mp hvalue
    exact ⟨more, value, text', hmore, hplain, by simp, hnext⟩
  · rintro ⟨more, value, text', hmore, hplain, rfl, hnext⟩
    exact ⟨more, _, hmore, by simp, _, rfl, accepts_value.mpr ⟨value, text', hplain, rfl, hnext⟩⟩

theorem accepts_fold {c : Char} (hc : IsBlank c) :
    Accepts react (.headerLineStart, addHeader req name value) (c :: text) s' rest ↔
      ∃ fold : Fold, ∃ text', c :: text = fold.line ++ text' ∧
        Accepts react (.headerLineStart, addHeader req name (value ++ fold.text)) text' s' rest := by
  have hstep : Accepts react (.headerLineStart, addHeader req name value) (c :: text) s' rest ↔
      Accepts react (.headerLws, addHeader req name value) text s' rest := by
    have hc' : c = ' ' ∨ c = '\t' := hc
    have hline : c ≠ '\r' := by rintro rfl; exact absurd hc (by simp [IsBlank])
    simp [Accepts, feed, react, consume, hline, hc']
  rw [hstep, accepts_lws]
  constructor
  · rintro ⟨blanks, more, text', hblanks, hplain, hbehind, rfl, hnext⟩
    exact ⟨⟨c :: blanks, more, ⟨List.cons_ne_nil _ _, List.forall_mem_cons.mpr ⟨hc, hblanks⟩⟩, hplain, hbehind⟩,
      text', rfl, hnext⟩
  · rintro ⟨⟨blanks, more, ⟨hne, hblanks⟩, hplain, hbehind⟩, text', heq, hnext⟩
    cases blanks with
    | nil => exact absurd rfl hne
    | cons d blanks =>
      cases heq
      exact ⟨blanks, more, text', (List.forall_mem_cons.mp hblanks).2, hplain, hbehind, rfl, hnext⟩

/-- The empty line behind the headers. -/
theorem accepts_end : Accepts react (.headerLineStart, req) ('\r' :: text) s' rest ↔
    text = '\n' :: rest ∧ s' = (.expectingNewline3, req) := by
  cases text with
  | nil => simp [Accepts, feed, react, consume]
  | cons c text =>
    by_cases hc : c = '\n'
    · simp [Accepts, feed, react, consume, hc, and_comm, eq_comm]
    · simp [Accepts, feed, react, consume, hc]

/-- A line starts a header only if its first character can be in a name. -/
theorem accepts_lineStart {c : Char} (hblank : req.headers = [] ∨ ¬ IsBlank c)
    (h : Accepts react (.headerLineStart, req) (c :: text) s' rest) : c = '\r' ∨ isToken c = true := by
  by_contra hnot
  have hc : isToken c = false := by simp_all
  have hblank' : ¬ (req.headers ≠ [] ∧ (c = ' ' ∨ c = '\t')) := fun hboth =>
    hblank.elim hboth.1 fun hother => hother hboth.2
  simp [Accepts, feed, react, consume, hc, hblank', not_or.mp hnot] at h

theorem accepts_foldLines {folds : List Fold}
    (h : Accepts react (.headerLineStart, addHeader req name (value ++ foldText folds)) text s' rest) :
    Accepts react (.headerLineStart, addHeader req name value) (foldLines folds ++ text) s' rest := by
  induction folds generalizing value with
  | nil => simpa [foldText, foldLines] using h
  | cons fold folds ih =>
    obtain ⟨c, blanks, hblanks⟩ := List.exists_cons_of_ne_nil fold.blank.1
    have hc : IsBlank c := fold.blank.2 c (hblanks ▸ List.mem_cons_self)
    have hline : ∃ line, fold.line = c :: line := ⟨_, by rw [Fold.line, hblanks]; rfl⟩
    obtain ⟨line, hline⟩ := hline
    have hnext : Accepts react (.headerLineStart, addHeader req name (value ++ fold.text)) (foldLines folds ++ text)
        s' rest := ih (by simpa [foldText] using h)
    rw [foldLines, List.flatMap_cons, hline, List.append_assoc, List.cons_append]
    exact (accepts_fold hc).mpr ⟨fold, _, by rw [hline]; rfl, hnext⟩

/-- The lines of all headers and the empty line. -/
theorem accepts_fieldLines (req : Request) (fields : List Field) (rest : Str) :
    Accepts react (.headerLineStart, req) (RequestHead.fieldLines fields ++ crlf ++ rest)
      (.expectingNewline3, addFields req fields) rest := by
  induction fields generalizing req with
  | nil => exact accepts_end.mpr ⟨rfl, by rw [addFields_nil]⟩
  | cons field fields ih =>
    obtain ⟨c, more, hname⟩ := List.exists_cons_of_ne_nil field.named.1
    have htoken := field.named.2
    rw [hname, List.forall_mem_cons] at htoken
    have hnext := ih (addHeader req field.name (field.value ++ foldText field.folds))
    have hlines : RequestHead.fieldLines (field :: fields) ++ crlf ++ rest = c :: (more ++ ": ".toList ++
        field.value ++ crlf ++ (foldLines field.folds ++ (RequestHead.fieldLines fields ++ crlf ++ rest))) := by
      simp [RequestHead.fieldLines, Field.lines, hname]
    rw [hlines, addFields_cons]
    refine (accepts_header htoken.1).mpr ⟨more, field.value, _, htoken.2, field.plain, rfl, ?_⟩
    rw [← hname]
    exact accepts_foldLines hnext

/-- Behind a header there are further lines of it, and then more headers. The
induction is on the length of the text. -/
theorem exists_lines {n : ℕ} (hn : text.length ≤ n)
    (h : Accepts react (.headerLineStart, addHeader req name value) text s' rest) :
    ∃ folds fields, text = foldLines folds ++ (RequestHead.fieldLines fields ++ crlf ++ rest) ∧
      s' = (.expectingNewline3, addFields (addHeader req name (value ++ foldText folds)) fields) := by
  induction n generalizing req name value text with
  | zero =>
    rw [List.eq_nil_of_length_eq_zero (Nat.le_zero.mp hn)] at h
    exact absurd h not_accepts_nil
  | succ n ih =>
    cases text with
    | nil => exact absurd h not_accepts_nil
    | cons c text =>
      rw [List.length_cons] at hn
      by_cases hblank : IsBlank c
      · obtain ⟨fold, text', heq, hnext⟩ := (accepts_fold hblank).mp h
        have hshorter : text'.length ≤ n := by
          have hlength := congrArg List.length heq
          simp [Fold.line, crlf] at hlength
          omega
        obtain ⟨folds, fields, rfl, rfl⟩ := ih hshorter hnext
        exact ⟨fold :: folds, fields, by simp [heq, foldLines], by simp [foldText]⟩
      · rcases accepts_lineStart (.inr hblank) h with rfl | hc
        · obtain ⟨rfl, rfl⟩ := accepts_end.mp h
          exact ⟨[], [], rfl, by simp [foldText]⟩
        · obtain ⟨more, value', text', hmore, hplain, rfl, hnext⟩ := (accepts_header hc).mp h
          have hshorter : text'.length ≤ n := by
            simp at hn
            omega
          obtain ⟨folds, fields, rfl, rfl⟩ := ih hshorter hnext
          refine ⟨[], ⟨c :: more, value', folds, ⟨List.cons_ne_nil _ _, List.forall_mem_cons.mpr ⟨hc, hmore⟩⟩,
            hplain⟩ :: fields, ?_, ?_⟩
          · simp [foldLines, RequestHead.fieldLines, Field.lines]
          · simp [foldText, addFields_cons]

/-- All headers of a request that has none yet. -/
theorem exists_fieldLines (hnone : req.headers = [])
    (h : Accepts react (.headerLineStart, req) text s' rest) :
    ∃ fields, text = RequestHead.fieldLines fields ++ crlf ++ rest ∧
      s' = (.expectingNewline3, addFields req fields) := by
  cases text with
  | nil => exact absurd h not_accepts_nil
  | cons c text =>
    rcases accepts_lineStart (.inl hnone) h with rfl | hc
    · obtain ⟨rfl, rfl⟩ := accepts_end.mp h
      exact ⟨[], rfl, by simp⟩
    · obtain ⟨more, value, text', hmore, hplain, rfl, hnext⟩ := (accepts_header hc).mp h
      obtain ⟨folds, fields, rfl, rfl⟩ := exists_lines le_rfl hnext
      refine ⟨⟨c :: more, value, folds, ⟨List.cons_ne_nil _ _, List.forall_mem_cons.mpr ⟨hc, hmore⟩⟩,
        hplain⟩ :: fields, ?_, ?_⟩
      · simp [foldLines, RequestHead.fieldLines, Field.lines]
      · simp [addFields_cons]

end HeaderLines

/-! ### Heads of requests -/

/-- The automaton accepts exactly the heads of the grammar, leaves the text behind
one, and makes the request that stands in it. -/
theorem parse_good_iff (text rest : Str) (request : Request) :
    ((∃ state, parse .methodStart freshRequest text = (.good, state, request, rest)) ∧ VersionFits request) ↔
      ∃ head : RequestHead, text = head.text ++ rest ∧ head.request = request := by
  simp only [parse_good_iff_accepts, accepts_requestLine]
  constructor
  · rintro ⟨⟨state, method, uri, major, minor, text', hmethod, huri, hmajor, hminor, rfl, haccepts⟩, hfits⟩
    obtain ⟨fields, rfl, hlast⟩ := exists_fieldLines rfl haccepts
    cases hlast
    refine ⟨⟨method, uri, major, minor, fields, hmethod, huri, ⟨hmajor, hfits.1⟩, ⟨hminor, hfits.2⟩⟩, ?_, rfl⟩
    simp [RequestHead.text]
  · rintro ⟨head, rfl, rfl⟩
    refine ⟨⟨.expectingNewline3, head.method, head.uri, head.major, head.minor, _, head.isMethod, head.isUri,
      head.isMajor.1, head.isMinor.1, ?_, accepts_fieldLines _ head.fields rest⟩, head.isMajor.2, head.isMinor.2⟩
    simp [RequestHead.text]

/-! ### Verdicts -/

/-- The shortest text that ends a head at that place. -/
def completion : State → Str
  | .methodStart => "A  HTTP/0.0\r\n\r\n".toList
  | .method => "  HTTP/0.0\r\n\r\n".toList
  | .uri => " HTTP/0.0\r\n\r\n".toList
  | .httpVersionH => "HTTP/0.0\r\n\r\n".toList
  | .httpVersionT1 => "TTP/0.0\r\n\r\n".toList
  | .httpVersionT2 => "TP/0.0\r\n\r\n".toList
  | .httpVersionP => "P/0.0\r\n\r\n".toList
  | .httpVersionSlash => "/0.0\r\n\r\n".toList
  | .httpVersionMajorStart => "0.0\r\n\r\n".toList
  | .httpVersionMajor => ".0\r\n\r\n".toList
  | .httpVersionMinorStart => "0\r\n\r\n".toList
  | .httpVersionMinor => "\r\n\r\n".toList
  | .expectingNewline1 => "\n\r\n".toList
  | .headerLineStart => "\r\n".toList
  | .headerLws => "\r\n\r\n".toList
  | .headerName => ": \r\n\r\n".toList
  | .spaceBeforeHeaderValue => " \r\n\r\n".toList
  | .headerValue => "\r\n\r\n".toList
  | .expectingNewline2 => "\n\r\n".toList
  | .expectingNewline3 => "\n".toList

/-- In front of a number of the version it is zero. -/
def Cleared (s : State × Request) : Prop :=
  (s.1 = .httpVersionMajorStart → s.2.httpVersionMajor = 0) ∧
    (s.1 = .httpVersionMajorStart ∨ s.1 = .httpVersionMajor ∨ s.1 = .httpVersionMinorStart →
      s.2.httpVersionMinor = 0)

theorem Cleared.step {s next : State × Request} {c : Char} (hs : Cleared s) (h : react s c = .more next) :
    Cleared next := by
  obtain ⟨state, req⟩ := s
  -- only the states of the version say something of the next one
  cases state <;> simp only [react, consume, expect] at h <;> split_ifs at h <;>
    simp_all [Cleared] <;> subst h <;> simp_all

theorem Cleared.feed {s next : State × Request} {text : Str} (hs : Cleared s)
    (h : feed react s text = (.more next, [])) : Cleared next := by
  induction text generalizing s with
  | nil =>
    cases h
    exact hs
  | cons c text ih =>
    rw [Kit.feed] at h
    cases hreact : react s c with
    | more after =>
      rw [hreact] at h
      exact ih (hs.step hreact) h
    | accept after | reject after =>
      rw [hreact] at h
      cases h

theorem exists_completion {state : State} {req : Request} (hcleared : Cleared (state, req))
    (hfits : VersionFits req) :
    ∃ req', Accepts react (state, req) (completion state) (.expectingNewline3, req') [] ∧ VersionFits req' := by
  have hzero : NumberFits 0 := by
    show (0 : ℤ) + 48 ≤ 2147483647
    omega
  have hdigit {n : ℤ} (hn : n = 0) : NumberFits (pushDigit n '0') := by
    subst hn
    exact hzero
  cases state with
  | httpVersionMajorStart => exact ⟨_, rfl, hdigit (hcleared.1 rfl), hdigit (hcleared.2 (.inl rfl))⟩
  | httpVersionMajor => exact ⟨_, rfl, hfits.1, hdigit (hcleared.2 (.inr (.inl rfl)))⟩
  | httpVersionMinorStart => exact ⟨_, rfl, hfits.1, hdigit (hcleared.2 (.inr (.inr rfl)))⟩
  | methodStart | method | uri | httpVersionH | httpVersionT1 | httpVersionT2 | httpVersionP | httpVersionSlash =>
    exact ⟨_, rfl, hzero, hzero⟩
  | httpVersionMinor | expectingNewline1 | headerLineStart | headerLws | headerName | spaceBeforeHeaderValue |
    headerValue | expectingNewline2 | expectingNewline3 => exact ⟨_, rfl, hfits⟩

theorem parse_head (head : RequestHead) (rest : Str) :
    ∃ state, parse .methodStart freshRequest (head.text ++ rest) = (.good, state, head.request, rest) :=
  ((parse_good_iff _ _ _).mpr ⟨head, rfl, rfl⟩).1

section Verdict

variable {text rest : Str} {result : ResultType} {state : State} {req : Request}

theorem good_iff (h : parse .methodStart freshRequest text = (result, state, req, rest)) (hfits : VersionFits req) :
    result = .good ↔ ∃ head : RequestHead, head.text <+: text := by
  constructor
  · rintro rfl
    obtain ⟨head, rfl, -⟩ := (parse_good_iff text rest req).mp ⟨⟨state, h⟩, hfits⟩
    exact ⟨head, rest, rfl⟩
  · rintro ⟨head, behind, rfl⟩
    obtain ⟨state', hgood⟩ := parse_head head behind
    rw [hgood] at h
    exact (congrArg Prod.fst h).symm

theorem indeterminate_iff (h : parse .methodStart freshRequest text = (result, state, req, rest))
    (hfits : VersionFits req) :
    result = .indeterminate ↔ ∃ head : RequestHead, text <+: head.text ∧ text ≠ head.text := by
  constructor
  · rintro rfl
    obtain ⟨rfl, -⟩ := parse_append_of_indeterminate h []
    have hfeed := parse_indeterminate_iff.mp h
    have hstart : Cleared (.methodStart, freshRequest) := by simp [Cleared]
    have hcleared : Cleared (state, req) := hstart.feed hfeed
    obtain ⟨req', hmore, hfits'⟩ := exists_completion hcleared hfits
    have haccepts : Accepts react (.methodStart, freshRequest) (text ++ completion state)
        (.expectingNewline3, req') [] := by
      rw [Accepts, (feed_append_of_more hfeed _).2]
      exact hmore
    obtain ⟨head, hhead, -⟩ :=
      (parse_good_iff _ [] req').mp ⟨⟨_, parse_good_iff_accepts.mpr haccepts⟩, hfits'⟩
    rw [List.append_nil] at hhead
    refine ⟨head, ⟨completion state, hhead⟩, fun heq => ?_⟩
    have hnil : completion state = [] := List.append_right_eq_self.mp (hhead.trans heq.symm)
    cases state <;> cases hnil
  · rintro ⟨head, ⟨more, hmore⟩, hne⟩
    obtain ⟨state', hgood⟩ := parse_head head []
    rw [List.append_nil, ← hmore] at hgood
    have hmore' : more ≠ [] := by
      rintro rfl
      exact hne (by rwa [List.append_nil] at hmore)
    obtain ⟨state₁, req₁, hfirst, -⟩ := parse_prefix hmore' hgood
    rw [hfirst] at h
    exact (congrArg Prod.fst h).symm

theorem bad_iff (h : parse .methodStart freshRequest text = (result, state, req, rest)) (hfits : VersionFits req) :
    result = .bad ↔ ∀ head : RequestHead, ¬ head.text <+: text ∧ ¬ text <+: head.text := by
  have hgood := good_iff h hfits
  have hwaits := indeterminate_iff h hfits
  constructor
  · rintro rfl head
    have hbehind : ¬ head.text <+: text := fun hfront => by cases hgood.mpr ⟨head, hfront⟩
    refine ⟨hbehind, fun hfront => ?_⟩
    have hne : text ≠ head.text := by
      rintro rfl
      exact hbehind List.prefix_rfl
    cases hwaits.mpr ⟨head, hfront, hne⟩
  · intro hnone
    cases result with
    | good =>
      obtain ⟨head, hfront⟩ := hgood.mp rfl
      exact absurd hfront (hnone head).1
    | indeterminate =>
      obtain ⟨head, hfront, -⟩ := hwaits.mp rfl
      exact absurd hfront (hnone head).2
    | bad => rfl

end Verdict

end RequestParser

/-! ### Verdicts of a connection -/

open RequestParser

/-- The same request, but for the parameters. -/
def SameHead (request request' : Request) : Prop :=
  request' = { request with parameters := request'.parameters }

theorem handleGood_handled {request : Request} {text : Str} {answer : Answer}
    (h : handleGood request text = .ok answer) : ∃ request', answer = .handled request' ∧ SameHead request request' := by
  unfold handleGood at h
  split at h
  · cases hparse : parseParemeters request text with
    | ok request' =>
      rw [hparse] at h
      cases h
      refine ⟨request', rfl, ?_⟩
      by_cases hnone : text = [] ∨ contentLength request ≤ 0
      · rw [parseParemeters_none hnone] at hparse
        cases hparse
        rfl
      · rw [not_or, Int.not_le] at hnone
        obtain ⟨-, pairs, -, rfl⟩ := (parseParemeters_eq_ok_iff hnone.1 hnone.2).mp hparse
        rfl
    | throw e | undefined | stuck =>
      rw [hparse] at h
      cases h
  · cases h
    exact ⟨request, rfl, rfl⟩

/-- What an answer says of the verdict on all that was read. -/
def Answer.Fits : Answer → ResultType × State × Request × Str → Prop
  | .waiting, (result, _) => result = .indeterminate
  | .badRequest, (result, _) => result = .bad
  | .handled request', (result, _, request, _) => result = .good ∧ SameHead request request'

/-- The reads may cut the text anywhere. -/
theorem doRead_fits {buffer : ReadBuffer} {state : State} {request : Request} {reads : List Str} {answer : Answer}
    (h : doRead buffer state request reads = .ok answer) : answer.Fits (parse state request reads.flatten) := by
  induction reads generalizing buffer state request with
  | nil =>
    cases h
    rfl
  | cons data reads ih =>
    obtain ⟨result, state', request', rest, hparse⟩ : ∃ result state' request' rest,
        parse state request data = (result, state', request', rest) := ⟨_, _, _, _, rfl⟩
    rw [doRead, hparse] at h
    dsimp only at h
    cases hstring : (buffer.receive data).cString (data.length - rest.length) with
    | none =>
      rw [hstring] at h
      cases h
    | some postParameters =>
      rw [hstring] at h
      rw [List.flatten_cons]
      cases result with
      | good =>
        obtain ⟨request'', rfl, hsame⟩ := handleGood_handled h
        rw [parse_append_of_ne (by decide) hparse]
        exact ⟨rfl, hsame⟩
      | bad =>
        cases h
        rw [parse_append_of_ne (by decide) hparse]
        rfl
      | indeterminate =>
        rw [(parse_append_of_indeterminate hparse _).2]
        exact ih h

/-- The answer to a text by the heads it can be compared with: the connection waits
while it can still become one, refuses it as soon as it cannot, and handles the
request of the head at its front. -/
structure Judged (text : Str) (answer : Answer) : Prop where
  waits : answer = .waiting ↔ ∃ head : RequestHead, text <+: head.text ∧ text ≠ head.text
  refuses : answer = .badRequest ↔ ∀ head : RequestHead, ¬ head.text <+: text ∧ ¬ text <+: head.text
  handles : (∃ request, answer = .handled request) ↔ ∃ head : RequestHead, head.text <+: text
  passes : ∀ request, answer = .handled request →
    ∃ head : RequestHead, head.text <+: text ∧ SameHead head.request request

/-- Wherever the reads cut the text, the answer goes by the whole of it. -/
theorem doRead_judged {buffer : ReadBuffer} {reads : List Str} {answer : Answer}
    (h : doRead buffer .methodStart freshRequest reads = .ok answer)
    (hfits : VersionFits (parse .methodStart freshRequest reads.flatten).2.2.1) : Judged reads.flatten answer := by
  obtain ⟨result, state, req, rest, hparse⟩ : ∃ result state req rest,
      parse .methodStart freshRequest reads.flatten = (result, state, req, rest) := ⟨_, _, _, _, rfl⟩
  have hanswer := doRead_fits h
  rw [hparse] at hanswer hfits
  have hwaits := indeterminate_iff hparse hfits
  have hrefuses := bad_iff hparse hfits
  have hhandles := good_iff hparse hfits
  cases answer with
  | waiting =>
    obtain rfl : result = .indeterminate := hanswer
    constructor
    · simp [← hwaits]
    · simp [← hrefuses]
    · simp [← hhandles]
    · simp
  | badRequest =>
    obtain rfl : result = .bad := hanswer
    constructor
    · simp [← hwaits]
    · simp [← hrefuses]
    · simp [← hhandles]
    · simp
  | handled request =>
    obtain ⟨rfl, hsame⟩ : result = .good ∧ SameHead req request := hanswer
    constructor
    · simp [← hwaits]
    · simp [← hrefuses]
    · simp [← hhandles]
    · rintro _ ⟨⟩
      obtain ⟨head, hhead, rfl⟩ := (parse_good_iff _ rest req).mp ⟨⟨state, hparse⟩, hfits⟩
      exact ⟨head, ⟨rest, hhead.symm⟩, hsame⟩

/-- The front of a request. -/
theorem doRead_judged_front : Judged "GET /".toList .waiting := by
  have hstring : ((ReadBuffer.filled '\x00').receive "GET /".toList).cString 5 = some [] :=
    cString_receive_filled (by decide) (by decide)
  have hparse : parse .methodStart freshRequest "GET /".toList =
      (.indeterminate, .uri, { freshRequest with method := "GET".toList, uri := "/".toList }, []) := rfl
  have hread : doRead (.filled '\x00') .methodStart freshRequest ["GET /".toList] = .ok .waiting := by
    rw [doRead, hparse]
    dsimp only
    rw [show "GET /".toList.length - [].length = 5 from rfl, hstring]
    rfl
  exact doRead_judged hread ⟨(by decide : (0 : ℤ) + 48 ≤ 2147483647), (by decide : (0 : ℤ) + 48 ≤ 2147483647)⟩

end ItvpnAgent.Server
