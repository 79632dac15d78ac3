import ItvpnAgent.Kit.Numerals
import ItvpnAgent.Server.RequestParser

/-! A connection of the HTTP server. Each read fills the front of one buffer that is
never cleared. The parser stops behind the headers, and the body is taken as the C
string that starts there: it ends at the first NUL, be that received or left from
before, and what arrives in later reads is not waited for. -/

namespace ItvpnAgent.Server

open Kit RequestParser

/-! ### Reading -/

/-- `buffer_`, an array of 8192 characters. -/
structure ReadBuffer where
  chars : Str
  size : chars.length = 8192

namespace ReadBuffer

/-- Characters received at the front. -/
def receive (buffer : ReadBuffer) (data : Str) : ReadBuffer where
  chars := (data ++ buffer.chars.drop data.length).take 8192
  size := by
    rw [List.length_take, List.length_append, List.length_drop, buffer.size]
    omega

/-- The C string at a position. Without a NUL behind it the array is left. -/
def cString (buffer : ReadBuffer) (pos : ℕ) : Option Str :=
  if '\x00' ∈ buffer.chars.drop pos then some (cStr (buffer.chars.drop pos)) else none

end ReadBuffer

/-- What a connection does with the request. -/
inductive Answer where
  | handled (request : Request)
  | badRequest
  | waiting
  deriving DecidableEq, Repr

/-- `parse_paremeters` for a POST, and the call of `handle_request`. -/
def handleGood (request : Request) (postParameters : Str) : Outcome Exn Answer :=
  if request.method = "POST".toList then
    match parseParemeters request postParameters with
    | .ok request => .ok (.handled request)
    | .throw e => .throw e
    | .undefined => .undefined
    | .stuck => .stuck
  else .ok (.handled request)

/-- `do_read`, once for each read until the request is complete or refused. The
string is made after every read, also where nothing looks at it. -/
def doRead (buffer : ReadBuffer) (state : State) (request : Request) : List Str → Outcome Exn Answer
  | [] => .ok .waiting
  | data :: reads =>
    let buffer := buffer.receive data
    match parse state request data with
    | (result, state, request, rest) =>
      match buffer.cString (data.length - rest.length) with
      | none => .undefined
      | some postParameters =>
        match result with
        | .good => handleGood request postParameters
        | .bad => .ok .badRequest
        | .indeterminate => doRead buffer state request reads

/-- `request_` before the first read. The version is set before it is looked at. -/
def freshRequest : Request where
  method := []
  uri := []
  httpVersionMajor := 0
  httpVersionMinor := 0
  headers := []
  parameters := []

/-! ### Requests and how they arrive -/

/-- The name of the header of the length, in any letter case. -/
def NamesLength (header : Header) : Prop :=
  header.name.map Char.toLower = "content-length".toList

/-- A byte stream that is one complete POST request: a head that the parser accepts
at its last character, and a body as long as a header says. -/
structure PostStream where
  head : Str
  body : Str
  request : Request
  state : State
  accepted : parse .methodStart freshRequest head = (.good, state, request, [])
  isPost : request.method = "POST".toList
  declared : ∃ header ∈ request.headers, NamesLength header ∧ IsNumeral header.value body.length

def PostStream.stream (p : PostStream) : Str := p.head ++ p.body

/-- The reads a stream comes in, and what is in the buffer before the first. -/
structure Arrival (stream : Str) where
  reads : List Str
  buffer : ReadBuffer
  whole : reads.flatten = stream
  sized : ∀ data ∈ reads, data ≠ [] ∧ data.length ≤ 8192

def Arrival.answer {stream : Str} (a : Arrival stream) : Outcome Exn Answer :=
  doRead a.buffer .methodStart freshRequest a.reads

/-- Both times the same request is passed to `handle_request`. -/
def SameRequest {stream : Str} (a a' : Arrival stream) : Prop :=
  ∃ request, a.answer = .ok (.handled request) ∧ a'.answer = .ok (.handled request)

/-- The text behind a head of that length: from the end of the head in the buffer
up to a NUL. It is there if this read and those before leave a NUL behind them. -/
def textBehind (headLength : ℕ) (buffer : ReadBuffer) : List Str → Option Str
  | [] => none
  | data :: reads =>
    let buffer := buffer.receive data
    if headLength ≤ data.length then buffer.cString headLength
    else
      match buffer.cString data.length with
      | none => none
      | some _ => textBehind (headLength - data.length) buffer reads

/-- The texts give the same parameters: no positive length is declared, or both are
empty, or both are long enough and have the same pairs in that length. -/
def SameParameters (request : Request) (text text' : Str) : Prop :=
  (∀ n > 0, ¬ Declares request n) ∨ (text = [] ∧ text' = []) ∨
    ∃ n > 0, Declares request n ∧ (text ≠ [] ∧ n ≤ text.length) ∧ (text' ≠ [] ∧ n ≤ text'.length) ∧
      ∃ pairs, readPairs ((text.take n.toNat).splitOn '&') = some pairs ∧
        readPairs ((text'.take n.toNat).splitOn '&') = some pairs

/-! ### What is read -/

section Reading

variable {state state' : State} {request request' : Request} {head body : Str}

/-- The head may come in any pieces: all depends on the text behind it. -/
theorem doRead_eq (hparse : parse state request head = (.good, state', request', [])) {reads : List Str}
    (hreads : reads.flatten = head ++ body) (buffer : ReadBuffer) :
    doRead buffer state request reads =
      match textBehind head.length buffer reads with
      | none => .undefined
      | some text => handleGood request' text := by
  induction reads generalizing state request head buffer with
  | nil =>
    obtain ⟨rfl, -⟩ := List.append_eq_nil_iff.mp hreads.symm
    cases hparse
  | cons data reads ih =>
    rw [List.flatten_cons] at hreads
    by_cases hlast : head.length ≤ data.length
    · -- the head ends in this read
      obtain ⟨behind, rfl⟩ : ∃ behind, data = head ++ behind := by
        have hprefix : head <+: data ++ reads.flatten := hreads ▸ List.prefix_append head body
        obtain ⟨behind, hbehind⟩ := List.prefix_of_prefix_length_le hprefix (List.prefix_append _ _) hlast
        exact ⟨behind, hbehind.symm⟩
      have hread := parse_append_of_ne (by decide) hparse behind
      rw [doRead, textBehind, if_pos hlast, hread]
      simp only [List.nil_append, List.length_append, Nat.add_sub_cancel]
    · obtain ⟨left, rfl⟩ : ∃ left, head = data ++ left := by
        have hprefix : data <+: head ++ body := hreads ▸ List.prefix_append data _
        obtain ⟨left, hleft⟩ := List.prefix_of_prefix_length_le hprefix (List.prefix_append _ _) (by omega)
        exact ⟨left, hleft.symm⟩
      have hleft : left ≠ [] := by
        rintro rfl
        rw [List.append_nil] at hlast
        exact hlast le_rfl
      obtain ⟨state₁, request₁, hdata, hrest⟩ := parse_prefix hleft hparse
      rw [List.append_assoc] at hreads
      have htail := ih hrest (List.append_cancel_left hreads) (buffer.receive data)
      rw [doRead, textBehind, if_neg hlast, hdata]
      simp only [List.length_nil, Nat.sub_zero, List.length_append, Nat.add_sub_cancel_left]
      cases (buffer.receive data).cString data.length with
      | none => rfl
      | some text => exact htail

end Reading

theorem handleGood_ok_iff {request request' : Request} (hpost : request.method = "POST".toList) {text : Str} :
    handleGood request text = .ok (.handled request') ↔ parseParemeters request text = .ok request' := by
  rw [handleGood, if_pos hpost]
  cases parseParemeters request text with
  | ok request'' => simp
  | throw e => simp
  | undefined => simp
  | stuck => simp

/-- One answer, by the text behind the head. -/
theorem answer_handled_iff {p : PostStream} (a : Arrival p.stream) (request : Request) :
    a.answer = .ok (.handled request) ↔
      ∃ text, textBehind p.head.length a.buffer a.reads = some text ∧
        parseParemeters p.request text = .ok request := by
  rw [Arrival.answer, doRead_eq p.accepted a.whole a.buffer]
  cases textBehind p.head.length a.buffer a.reads with
  | none => simp
  | some text => simp [handleGood_ok_iff p.isPost]

/-! ### Two texts for one head -/

theorem readPairs_ne_nil {text : Str} {pairs : List (Str × Str)}
    (h : readPairs (text.splitOn '&') = some pairs) : pairs ≠ [] := by
  rintro rfl
  rw [readPairs_eq_some_iff, List.map_nil, List.map_eq_nil_iff] at h
  exact List.splitOn_ne_nil _ _ h

/-- A text that is looked at adds parameters. -/
theorem parseParemeters_ne {request : Request} {text : Str} (hempty : text ≠ [])
    (hlength : 0 < contentLength request) : parseParemeters request text ≠ .ok request := by
  intro h
  obtain ⟨-, pairs, hpairs, hadds⟩ := (parseParemeters_eq_ok_iff hempty hlength).mp h
  exact addParameters_ne (readPairs_ne_nil hpairs) hadds

/-- Exactly texts with the same parameters lead to the same request. -/
theorem parseParemeters_same_iff {request : Request} {text text' : Str} :
    (∃ request', parseParemeters request text = .ok request' ∧ parseParemeters request text' = .ok request') ↔
      SameParameters request text text' := by
  unfold SameParameters
  by_cases hlength : 0 < contentLength request
  · have hpositive : ¬ ∀ n > 0, ¬ Declares request n := fun hnone =>
      hnone _ hlength ((declares_iff hlength).mpr rfl)
    rw [exists_declares_iff hlength]
    by_cases hempty : text = []
    · have hfirst : parseParemeters request text = .ok request := parseParemeters_none (.inl hempty)
      by_cases hempty' : text' = []
      · have hsecond : parseParemeters request text' = .ok request := parseParemeters_none (.inl hempty')
        exact iff_of_true ⟨request, hfirst, hsecond⟩ (.inr (.inl ⟨hempty, hempty'⟩))
      · -- the one text adds parameters, the other does not
        have hadds := parseParemeters_ne hempty' hlength
        rw [hfirst]
        simp [hpositive, hempty, hempty', hadds]
    · by_cases hempty' : text' = []
      · have hsecond : parseParemeters request text' = .ok request := parseParemeters_none (.inl hempty')
        have hadds := parseParemeters_ne hempty hlength
        rw [hsecond]
        simp [hpositive, hempty, hempty', hadds]
      · simp only [parseParemeters_eq_ok_iff hempty hlength, parseParemeters_eq_ok_iff hempty' hlength]
        constructor
        · rintro ⟨request', ⟨hfits, pairs, hpairs, hadds⟩, hfits', pairs', hpairs', hadds'⟩
          obtain rfl : pairs = pairs' := addParameters_inj (hadds.trans hadds'.symm)
          exact .inr (.inr ⟨⟨hempty, hfits⟩, ⟨hempty', hfits'⟩, pairs, hpairs, hpairs'⟩)
        · rintro (hnone | ⟨hnil, -⟩ | ⟨⟨-, hfits⟩, ⟨-, hfits'⟩, pairs, hpairs, hpairs'⟩)
          · exact absurd hnone hpositive
          · exact absurd hnil hempty
          · exact ⟨_, ⟨hfits, pairs, hpairs, rfl⟩, hfits', pairs, hpairs', rfl⟩
  · have hnone (text : Str) : parseParemeters request text = .ok request :=
      parseParemeters_none (.inr (Int.not_lt.mp hlength))
    exact iff_of_true ⟨request, hnone text, hnone text'⟩ (.inl fun n hn => not_declares hlength hn)

theorem sameRequest_iff {p : PostStream} (a a' : Arrival p.stream) : SameRequest a a' ↔
    ∃ text text', textBehind p.head.length a.buffer a.reads = some text ∧
      textBehind p.head.length a'.buffer a'.reads = some text' ∧ SameParameters p.request text text' := by
  simp only [SameRequest, answer_handled_iff, ← parseParemeters_same_iff]
  constructor
  · rintro ⟨request, ⟨text, htext, hfirst⟩, text', htext', hsecond⟩
    exact ⟨text, text', htext, htext', request, hfirst, hsecond⟩
  · rintro ⟨text, text', htext, htext', request, hfirst, hsecond⟩
    exact ⟨request, ⟨text, htext, hfirst⟩, text', htext', hsecond⟩

/-- Where the text behind the head begins with the body, and the length is declared
under the one spelling, the arrivals pass on what the body says. -/
theorem sameRequest_of_prefix {p : PostStream} {a a' : Arrival p.stream} {text text' : Str}
    (htext : textBehind p.head.length a.buffer a.reads = some text) (hbody : p.body <+: text)
    (htext' : textBehind p.head.length a'.buffer a'.reads = some text') (hbody' : p.body <+: text')
    (hne : p.body ≠ []) (hdeclares : Declares p.request p.body.length)
    (hpairs : ∀ piece ∈ p.body.splitOn '&', '=' ∈ piece) : SameRequest a a' := by
  have hpos : (0 : ℤ) < p.body.length := by
    have hlength := List.length_pos_iff.mpr hne
    omega
  obtain ⟨pairs, hread⟩ := exists_readPairs_iff.mpr hpairs
  have htake {text : Str} (h : p.body <+: text) : text.take (p.body.length : ℤ).toNat = p.body := by
    rw [Int.toNat_natCast]
    exact (List.prefix_iff_eq_take.mp h).symm
  have hlong {text : Str} (h : p.body <+: text) : text ≠ [] ∧ (p.body.length : ℤ) ≤ text.length := by
    have hlength := h.length_le
    refine ⟨fun hnil => hne ?_, by omega⟩
    rw [hnil] at h
    exact List.prefix_nil.mp h
  refine (sameRequest_iff a a').mpr ⟨text, text', htext, htext', .inr (.inr ?_)⟩
  refine ⟨p.body.length, hpos, hdeclares, hlong hbody, hlong hbody', pairs, ?_, ?_⟩
  · rwa [htake hbody]
  · rwa [htake hbody']

/-! ### Arrivals that do no harm -/

theorem receive_getElem? {buffer : ReadBuffer} {data : Str} {i : ℕ} (hdata : data.length ≤ i) :
    (buffer.receive data).chars[i]? = buffer.chars[i]? := by
  have hsize := buffer.size
  simp only [ReadBuffer.receive, List.getElem?_take]
  split
  · rw [List.getElem?_append_right hdata, List.getElem?_drop, Nat.add_sub_cancel' hdata]
  · next hi => rw [List.getElem?_eq_none (by omega)]

/-- A character that stands behind a position. -/
theorem mem_drop_of_getElem? {s : Str} {c : Char} {pos i : ℕ} (h : s[i]? = some c) (hpos : pos ≤ i) :
    c ∈ s.drop pos := by
  refine List.mem_of_getElem? (i := i - pos) ?_
  rw [List.getElem?_drop, Nat.add_sub_cancel' hpos, h]

/-- The read that ends the head brings the whole body too, and in the buffer there is a
NUL that no read comes to. -/
structure Together (body : Str) (buffer : ReadBuffer) (reads : List Str) : Prop where
  last : ∀ data, reads.getLast? = some data → body.length < data.length
  nul : ∃ i : ℕ, buffer.chars[i]? = some '\x00' ∧ ∀ data ∈ reads, data.length ≤ i

theorem Together.tail {body data next : Str} {buffer : ReadBuffer} {reads : List Str}
    (h : Together body buffer (data :: next :: reads)) :
    Together body (buffer.receive data) (next :: reads) := by
  obtain ⟨i, hnul, hbelow⟩ := h.nul
  have hdata : data.length ≤ i := hbelow data List.mem_cons_self
  refine ⟨fun last hlast => h.last last ?_, i, (receive_getElem? hdata).trans hnul,
    fun later hlater => hbelow later (List.mem_cons_of_mem _ hlater)⟩
  rw [List.getLast?_cons_cons, hlast]

/-- The read that ends the head is the last. -/
theorem Together.length_lt {body : Str} {buffer : ReadBuffer} {reads : List Str}
    (h : Together body buffer reads) (hreads : reads ≠ []) : body.length < reads.flatten.length := by
  have hlast := h.last _ (List.getLast?_eq_some_getLast hreads)
  have hmem : (reads.getLast hreads).length ≤ reads.flatten.length :=
    (List.sublist_flatten_of_mem (List.getLast_mem hreads)).length_le
  omega

theorem textBehind_of_together {head body : Str} {buffer : ReadBuffer} {reads : List Str}
    (h : Together body buffer reads) (hreads : reads.flatten = head ++ body) (hhead : head ≠ [])
    (hbody : '\x00' ∉ body) : ∃ text, textBehind head.length buffer reads = some text ∧ body <+: text := by
  induction reads generalizing head buffer with
  | nil => exact absurd (List.append_eq_nil_iff.mp hreads.symm).1 hhead
  | cons data reads ih =>
    obtain ⟨i, hnul, hbelow⟩ := h.nul
    have hdata : data.length ≤ i := hbelow data List.mem_cons_self
    have hreceived : (buffer.receive data).chars[i]? = some '\x00' := (receive_getElem? hdata).trans hnul
    rw [List.flatten_cons] at hreads
    cases reads with
    | nil =>
      -- the only read: the text is the body and what stands behind it
      rw [List.flatten_nil, List.append_nil] at hreads
      subst hreads
      have hhere : head.length ≤ (head ++ body).length := by simp
      have hchars : (buffer.receive (head ++ body)).chars.drop head.length =
          body ++ buffer.chars.drop (head ++ body).length := by
        obtain ⟨hi, -⟩ := List.getElem?_eq_some_iff.mp hnul
        have hsize := buffer.size
        simp only [ReadBuffer.receive]
        rw [List.take_of_length_le, List.append_assoc, List.drop_left]
        rw [List.length_append, List.length_drop]
        omega
      rw [textBehind, if_pos hhere, ReadBuffer.cString,
        if_pos (mem_drop_of_getElem? hreceived (hhere.trans hdata)), hchars, cStr_append hbody]
      exact ⟨_, rfl, List.prefix_append _ _⟩
    | cons next reads =>
      -- the head goes on in the next read
      have hrest := h.tail.length_lt (List.cons_ne_nil _ _)
      have hlength := congrArg List.length hreads
      rw [List.length_append, List.length_append] at hlength
      obtain ⟨left, rfl⟩ : ∃ left, head = data ++ left := by
        have hprefix : data <+: head ++ body := hreads ▸ List.prefix_append data _
        obtain ⟨left, hleft⟩ := List.prefix_of_prefix_length_le hprefix (List.prefix_append _ _) (by omega)
        exact ⟨left, hleft.symm⟩
      rw [List.length_append] at hlength
      have hleft : left ≠ [] := by
        rintro rfl
        rw [List.length_nil] at hlength
        omega
      have hshort : ¬ (data ++ left).length ≤ data.length := by
        rw [List.length_append]
        omega
      rw [List.append_assoc] at hreads
      rw [textBehind, if_neg hshort, ReadBuffer.cString, if_pos (mem_drop_of_getElem? hreceived hdata),
        List.length_append, Nat.add_sub_cancel_left]
      exact ih h.tail (List.append_cancel_left hreads) hleft

theorem PostStream.head_ne_nil (p : PostStream) : p.head ≠ [] := by
  intro hnil
  have haccepted := p.accepted
  rw [hnil] at haccepted
  cases haccepted

/-- Where each arrival brings the body with the end of the head, the same request is
passed on, whatever else stood in the buffers. -/
theorem sameRequest_of_together {p : PostStream} {a a' : Arrival p.stream}
    (h : Together p.body a.buffer a.reads) (h' : Together p.body a'.buffer a'.reads)
    (hnul : '\x00' ∉ p.body) (hne : p.body ≠ []) (hdeclares : Declares p.request p.body.length)
    (hpairs : ∀ piece ∈ p.body.splitOn '&', '=' ∈ piece) : SameRequest a a' := by
  obtain ⟨text, htext, hbody⟩ := textBehind_of_together h a.whole p.head_ne_nil hnul
  obtain ⟨text', htext', hbody'⟩ := textBehind_of_together h' a'.whole p.head_ne_nil hnul
  exact sameRequest_of_prefix htext hbody htext' hbody' hne hdeclares hpairs

/-! ### Stale characters -/

/-- A buffer full of one character. -/
def ReadBuffer.filled (c : Char) : ReadBuffer where
  chars := List.replicate 8192 c
  size := List.length_replicate

/-- A stream that comes one character at a time. -/
def PostStream.slowly (p : PostStream) (buffer : ReadBuffer) : Arrival p.stream where
  reads := p.stream.map fun c => [c]
  buffer := buffer
  whole := by
    induction p.stream with
    | nil => rfl
    | cons c s ih => rw [List.map_cons, List.flatten_cons, ih]; rfl
  sized data hdata := by
    obtain ⟨c, -, rfl⟩ := List.mem_map.mp hdata
    exact ⟨List.cons_ne_nil _ _, by rw [List.length_singleton]; omega⟩

/-- Behind the first character of a buffer without NUL there is no end. -/
theorem PostStream.textBehind_slowly (p : PostStream) :
    textBehind p.head.length (.filled 'x') (p.slowly (.filled 'x')).reads = none := by
  obtain ⟨c, head, hhead⟩ := List.exists_cons_of_ne_nil p.head_ne_nil
  have hreads : (p.slowly (.filled 'x')).reads = [c] :: (head ++ p.body).map fun c => [c] := by
    show p.stream.map (fun c => [c]) = _
    rw [stream, hhead]
    rfl
  have hstale : ((ReadBuffer.filled 'x').receive [c]).cString 1 = none := by
    refine if_neg fun hnul => ?_
    have hmem : '\x00' ∈ ([c] ++ (List.replicate 8192 'x').drop 1).drop 1 := by
      rw [ReadBuffer.receive, List.drop_take] at hnul
      exact List.mem_of_mem_take hnul
    rw [List.drop_left' (List.length_singleton), List.drop_replicate] at hmem
    exact absurd (List.eq_of_mem_replicate hmem) (by decide)
  rw [hreads, textBehind, List.length_singleton, hstale]
  split
  · next hone =>
    have hlength : p.head.length = 1 := by
      rw [hhead, List.length_cons] at hone ⊢
      omega
    rw [hlength, hstale]
  · rfl

/-- Two arrivals of a stream pass on the same request exactly if each leaves a NUL
behind every read it needs and the texts behind the head have the same parameters;
and no stream passes on the same request for all arrivals. -/
theorem post_understood_iff (p : PostStream) :
    (∀ a a' : Arrival p.stream, SameRequest a a' ↔
      ∃ text text', textBehind p.head.length a.buffer a.reads = some text ∧
        textBehind p.head.length a'.buffer a'.reads = some text' ∧ SameParameters p.request text text') ∧
    ¬ ∀ a a' : Arrival p.stream, SameRequest a a' := by
  refine ⟨sameRequest_iff, fun hall => ?_⟩
  obtain ⟨text, -, htext, -, -⟩ := (sameRequest_iff _ _).mp (hall (p.slowly (.filled 'x')) (p.slowly (.filled 'x')))
  have hnone := p.textBehind_slowly
  rw [show (p.slowly (.filled 'x')).buffer = .filled 'x' from rfl, hnone] at htext
  cases htext

/-- In a buffer of NULs the string ends with what was received. -/
theorem cString_receive_filled {data : Str} {pos : ℕ} (hdata : data.length < 8192) (hpos : pos ≤ data.length) :
    ((ReadBuffer.filled '\x00').receive data).cString pos = some (cStr (data.drop pos)) := by
  obtain ⟨k, hk⟩ : ∃ k, 8192 - data.length = k + 1 := ⟨8191 - data.length, by omega⟩
  have hchars : ((ReadBuffer.filled '\x00').receive data).chars.drop pos =
      data.drop pos ++ '\x00' :: List.replicate k '\x00' := by
    rw [ReadBuffer.receive, ReadBuffer.filled]
    dsimp only
    rw [List.drop_replicate, hk, List.take_of_length_le, List.drop_append_of_le_length hpos,
      List.replicate_succ]
    rw [List.length_append, List.length_replicate]
    omega
  rw [ReadBuffer.cString, hchars, if_pos (by simp), cStr_append_nul]

/-- A POST with the body `a=b`. -/
def shortPost : PostStream where
  head := "POST / HTTP/1.1\r\nContent-Length: 3\r\n\r\n".toList
  body := "a=b".toList
  request := {
    method := "POST".toList
    uri := "/".toList
    httpVersionMajor := 1
    httpVersionMinor := 1
    headers := [{ name := "Content-Length".toList, value := "3".toList }]
    parameters := [] }
  state := .expectingNewline3
  accepted := rfl
  isPost := rfl
  declared := ⟨_, List.mem_cons_self, rfl, [], scanNumeral_eq_some_iff.mp rfl, nofun⟩

/-- Head and body in one read, into a buffer of NULs. -/
def shortPostAtOnce : Arrival shortPost.stream where
  reads := [shortPost.head ++ shortPost.body]
  buffer := .filled '\x00'
  whole := rfl
  sized := by decide

/-- The body in a read of its own. -/
def shortPostApart : Arrival shortPost.stream where
  reads := [shortPost.head, shortPost.body]
  buffer := .filled '\x00'
  whole := rfl
  sized := by decide

/-- A body that comes by itself is lost. -/
theorem body_apart_lost : ¬ SameRequest shortPostAtOnce shortPostApart := by
  have honce : textBehind shortPost.head.length (.filled '\x00') [shortPost.head ++ shortPost.body] =
      some "a=b".toList := by
    rw [textBehind, if_pos (by decide), cString_receive_filled (by decide) (by decide), List.drop_left]
    rfl
  have hapart : textBehind shortPost.head.length (.filled '\x00') [shortPost.head, shortPost.body] = some [] := by
    rw [textBehind, if_pos le_rfl, cString_receive_filled (by decide) le_rfl, List.drop_length]
    rfl
  intro hsame
  obtain ⟨text, text', htext, htext', hparameters⟩ := (sameRequest_iff _ _).mp hsame
  cases honce.symm.trans htext
  cases hapart.symm.trans htext'
  rcases hparameters with hnone | ⟨hnil, -⟩ | ⟨n, -, -, -, ⟨hne, -⟩, -⟩
  · exact hnone 3 (by decide) rfl
  · cases hnil
  · exact hne rfl

end ItvpnAgent.Server
