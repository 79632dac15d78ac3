import ItvpnAgent.Kit.FormEncoding
import ItvpnAgent.Kit.Paths
import ItvpnAgent.Server.Reply
import ItvpnAgent.Server.RequestGrammar

/-! `handle_request` of the HTTP server. The target is decoded, refused if it may
leave the root directory, and answered with the file of that name. -/

namespace ItvpnAgent.Server

open Kit

/-! ### The target -/

def isHexDigit (c : Char) : Bool :=
  c.isDigit || ('a' ≤ c && c ≤ 'f') || ('A' ≤ c && c ≤ 'F')

def hexValue (c : Char) : ℕ :=
  if c.isDigit then c.toNat - '0'.toNat
  else if 'a' ≤ c then c.toNat - 'a'.toNat + 10
  else c.toNat - 'A'.toNat + 10

/-- The prefix that the base 16 allows. -/
def skipPrefix : Str → Str
  | '0' :: 'x' :: s => s
  | '0' :: 'X' :: s => s
  | s => s

/-- `stream >> std::hex >> value` for two characters: blanks, a sign and a prefix
are allowed, and what stands behind the digits is no matter. -/
def readHex (s : Str) : Option ℤ :=
  let (negative, s) := readSign (s.dropWhile isSpace)
  let digits := (skipPrefix s).takeWhile isHexDigit
  if digits = [] then none
  else
    let value : ℤ := digits.foldl (fun n c => 16 * n + hexValue c) 0
    some (if negative then -value else value)

/-- `static_cast<char>`. -/
def toChar (value : ℤ) : Char := Char.ofNat (value % 256).toNat

def urlDecode : Str → Option Str
  | [] => some []
  | c :: s =>
    if c = '%' then
      match s with
      | a :: b :: s =>
        match readHex [a, b] with
        | some value => (urlDecode s).map (toChar value :: ·)
        | none => none
      | _ => none
    else (urlDecode s).map ((if c = '+' then ' ' else c) :: ·)

/-! ### The file -/

def mimeTypes : List (Str × Str) :=
  [("gif".toList, "image/gif".toList), ("htm".toList, "text/html".toList), ("html".toList, "text/html".toList),
    ("jpg".toList, "image/jpeg".toList), ("png".toList, "image/png".toList), ("js".toList, "text/js".toList),
    ("css".toList, "text/css".toList), ("javascript".toList, "application/javascript".toList)]

def extensionToType (extension : Str) : Str :=
  match mimeTypes.find? fun mapping => mapping.1 = extension with
  | some mapping => mapping.2
  | none => "text/plain".toList

/-- The root directory and the files that can be opened. -/
structure Site where
  docRoot : Str
  files : Str → Option Str

/-- A path must be absolute and not contain `..`. -/
def Illegal (path : Str) : Prop := path = [] ∨ path.head? ≠ some '/' ∨ "..".toList <:+: path

instance (path : Str) : Decidable (Illegal path) := inferInstanceAs (Decidable (_ ∨ _ ∨ _))

/-- A directory stands for its index. -/
def addIndex (path : Str) : Str := if path.getLast? = some '/' then path ++ "index.html".toList else path

def extension (path : Str) : Str :=
  match findLastOf '.' path, findLastOf '/' path with
  | some dot, some slash => if dot > slash then path.drop (dot + 1) else []
  | _, _ => []

/-- The file is read behind what the reply holds already. -/
def sendFile (path content : Str) (rep : Reply) : Reply where
  status := .ok
  headers := Reply.contentHeaders (rep.content ++ content) (extensionToType (extension path))
  content := rep.content ++ content

def handleRequest (site : Site) (req : Request) (rep : Reply) : Reply :=
  match urlDecode req.uri with
  | none => .stockReply .badRequest
  | some path =>
    if Illegal path then .stockReply .badRequest
    else
      match site.files (cStr (site.docRoot ++ addIndex path)) with
      | none => .stockReply .notFound
      | some content => sendFile (addIndex path) content rep

/-! ### Decoding -/

/-- Ways to write a text in a target: a byte may stand for itself, a blank be a plus,
and any byte two digits of base 16 behind a percent sign. -/
inductive Escapes : Str → Str → Prop
  | nil : Escapes [] []
  | plain {c : Char} (hc : c ≠ '%' ∧ c ≠ '+') {e s : Str} (h : Escapes e s) : Escapes (c :: e) (c :: s)
  | plus {e s : Str} (h : Escapes e s) : Escapes ('+' :: e) (' ' :: s)
  | escape {a b c : Char} (ha : isHexDigit a = true) (hb : isHexDigit b = true)
    (hc : c.toNat = 16 * hexValue a + hexValue b) {e s : Str} (h : Escapes e s) :
    Escapes ('%' :: a :: b :: e) (c :: s)

/-- A digit is no blank, no sign, and no letter of a prefix. -/
theorem isHexDigit_plain {c : Char} (hc : isHexDigit c = true) :
    isSpace c = false ∧ (c ≠ '-' ∧ c ≠ '+') ∧ c ≠ 'x' ∧ c ≠ 'X' := by
  have hother {d : Char} (hd : isHexDigit d = false) : c ≠ d := by
    rintro rfl
    rw [hd] at hc
    cases hc
  have hspace : isSpace c = false := by
    rw [Bool.eq_false_iff]
    intro hspace
    simp only [isSpace, Bool.or_eq_true, decide_eq_true_eq] at hspace
    rcases hspace with ((((rfl | rfl) | rfl) | rfl) | rfl) | rfl <;> cases hc
  exact ⟨hspace, ⟨hother rfl, hother rfl⟩, hother rfl, hother rfl⟩

theorem hexValue_lt {c : Char} (hc : isHexDigit c = true) : hexValue c < 16 := by
  have hconsts : '0'.toNat = 48 ∧ 'a'.toNat = 97 ∧ 'f'.toNat = 102 ∧ 'A'.toNat = 65 ∧ 'F'.toNat = 70 := by decide
  have hle (a b : Char) : a ≤ b ↔ a.toNat ≤ b.toNat := by
    rw [Char.le_def, UInt32.le_iff_toNat_le]
    rfl
  simp only [isHexDigit, Bool.or_eq_true, Bool.and_eq_true, decide_eq_true_eq, hle] at hc
  have hdigit := toNat_of_isDigit (c := c)
  simp only [hexValue, hle]
  split_ifs with h1 h2
  · have := hdigit h1
    omega
  · simp only [h1, Bool.false_eq_true, false_or] at hc
    omega
  · simp only [h1, Bool.false_eq_true, false_or] at hc
    omega

theorem readHex_digits {a b : Char} (ha : isHexDigit a = true) (hb : isHexDigit b = true) :
    readHex [a, b] = some ((16 * hexValue a + hexValue b : ℕ) : ℤ) := by
  obtain ⟨hspace, ⟨hminus, hplus⟩, -⟩ := isHexDigit_plain ha
  obtain ⟨-, -, hx, hX⟩ := isHexDigit_plain hb
  have hblanks : [a, b].dropWhile isSpace = [a, b] := by simp [hspace]
  have hsign : readSign [a, b] = (false, [a, b]) := by
    unfold readSign
    split
    · next heq => cases heq; exact absurd rfl hminus
    · next heq => cases heq; exact absurd rfl hplus
    · rfl
  have hprefix : skipPrefix [a, b] = [a, b] := by
    unfold skipPrefix
    split
    · next heq => cases heq; exact absurd rfl hx
    · next heq => cases heq; exact absurd rfl hX
    · rfl
  simp [readHex, hblanks, hsign, hprefix, ha, hb]

theorem toChar_toNat {c : Char} {n : ℕ} (hn : n < 256) (hc : c.toNat = n) : toChar n = c := by
  have hmod : ((n : ℤ) % 256).toNat = n := by omega
  rw [toChar, hmod, ← hc, Char.ofNat_toNat]

theorem urlDecode_plain {c : Char} (hc : c ≠ '%') (s : Str) :
    urlDecode (c :: s) = (urlDecode s).map ((if c = '+' then ' ' else c) :: ·) := by
  rw [urlDecode.eq_def]
  exact if_neg hc

theorem urlDecode_escape {a b c : Char} (ha : isHexDigit a = true) (hb : isHexDigit b = true)
    (hc : c.toNat = 16 * hexValue a + hexValue b) (s : Str) :
    urlDecode ('%' :: a :: b :: s) = (urlDecode s).map (c :: ·) := by
  have hbyte : 16 * hexValue a + hexValue b < 256 := by
    have hhigh := hexValue_lt ha
    have hlow := hexValue_lt hb
    omega
  rw [urlDecode.eq_def]
  simp only [↓reduceIte, readHex_digits ha hb, toChar_toNat hbyte hc]

/-- Every way to escape a text is undone. -/
theorem urlDecode_of_escapes {e s : Str} (h : Escapes e s) : urlDecode e = some s := by
  induction h with
  | nil => rfl
  | plain hc h ih => rw [urlDecode_plain hc.1, if_neg hc.2, ih, Option.map_some]
  | plus h ih => rw [urlDecode_plain (by decide), if_pos rfl, ih, Option.map_some]
  | escape ha hb hc h ih => rw [urlDecode_escape ha hb hc, ih, Option.map_some]

theorem urlDecode_of_escapes_mixed : urlDecode "%D0+%a4a".toList = some "\xd0 \xa4a".toList :=
  urlDecode_of_escapes (.escape rfl rfl rfl (.plus (.escape rfl rfl rfl (.plain (by decide) .nil))))

theorem Escapes.append {e e' s s' : Str} (h : Escapes e s) (h' : Escapes e' s') : Escapes (e ++ e') (s ++ s') := by
  induction h with
  | nil => exact h'
  | plain hc h ih => exact .plain hc ih
  | plus h ih => exact .plus ih
  | escape ha hb hc h ih => exact .escape ha hb hc ih

theorem hexDigit_value (n : ℕ) : isHexDigit (hexDigit n) = true ∧ hexValue (hexDigit n) = n % 16 := by
  have hall : ∀ d : Fin 16, isHexDigit (Nat.digitChar d).toUpper = true ∧
      hexValue (Nat.digitChar d).toUpper = d := by decide
  exact hall ⟨n % 16, Nat.mod_lt n (by decide)⟩

theorem escapes_encodeByte {c : Char} (hc : c.toNat < 256) : Escapes (encodeByte c) [c] := by
  unfold encodeByte
  split
  · next hblank =>
    subst hblank
    exact .plus .nil
  · split
    · next hkept =>
      refine .plain ⟨?_, ?_⟩ .nil <;> rintro rfl <;> cases hkept
    · obtain ⟨hhigh, hhighValue⟩ := hexDigit_value (c.toNat / 16)
      obtain ⟨hlow, hlowValue⟩ := hexDigit_value c.toNat
      exact .escape hhigh hlow (by omega) .nil

/-- The encoding of forms is one of the ways. -/
theorem escapes_encodeComponent {s : Str} (hs : ∀ c ∈ s, c.toNat < 256) : Escapes (encodeComponent s) s := by
  induction s with
  | nil => exact .nil
  | cons c s ih =>
    obtain ⟨hc, hs⟩ := List.forall_mem_cons.mp hs
    exact (escapes_encodeByte hc).append (ih hs)

/-! ### The root directory -/

theorem addIndex_dotless {path : Str} (h : ¬ Illegal path) : ¬ "..".toList <:+: addIndex path := by
  have hpath : ¬ "..".toList <:+: path := fun hdots => h (.inr (.inr hdots))
  have hindex : ¬ "..".toList <:+: "index.html".toList := by
    rw [Path.dotless_iff]
    simp
  unfold addIndex
  split
  · next hlast => exact Path.dotless_append hpath hindex (by rw [hlast]; decide)
  · exact hpath

/-- A path that is not refused stays below the root directory. -/
theorem below_docRoot {path : Str} (h : ¬ Illegal path) {docRoot : Str} (hroot : '\x00' ∉ docRoot) :
    Path.Below docRoot (cStr (docRoot ++ addIndex path)) := by
  obtain ⟨behind, hbehind⟩ : ∃ behind, addIndex path = '/' :: behind := by
    simp only [Illegal, not_or, not_not] at h
    cases path with
    | nil => exact absurd rfl h.1
    | cons c path =>
      obtain rfl : c = '/' := by simpa using h.2.1
      unfold addIndex
      split
      · exact ⟨_, rfl⟩
      · exact ⟨_, rfl⟩
  have hup : ¬ "..".toList <:+: cStr behind := fun hdots => addIndex_dotless h <| by
    rw [hbehind]
    exact List.infix_cons (hdots.trans (List.takeWhile_prefix _).isInfix)
  rw [cStr_append hroot, hbehind, cStr, upTo_cons (by decide)]
  exact Path.below_of_dotless docRoot hup

/-- A reply depends on nothing but the files below the root directory. -/
theorem handleRequest_confined (site : Site) (hroot : '\x00' ∉ site.docRoot) (files : Str → Option Str)
    (hfiles : ∀ path, Path.Below site.docRoot path → files path = site.files path) (req : Request) (rep : Reply) :
    handleRequest { site with files := files } req rep = handleRequest site req rep := by
  unfold handleRequest
  cases urlDecode req.uri with
  | none => rfl
  | some path =>
    dsimp only
    split
    · rfl
    · next hlegal => rw [hfiles _ (below_docRoot hlegal hroot)]

/-- A site without files, and a file elsewhere. -/
theorem handleRequest_confined_index :
    handleRequest ⟨"/srv".toList, fun path => if path = "/etc/key".toList then some "1".toList else none⟩
        { freshRequest with uri := "/../etc/key".toList } (.stockReply .ok) =
      handleRequest ⟨"/srv".toList, fun _ => none⟩ { freshRequest with uri := "/../etc/key".toList }
        (.stockReply .ok) := by
  refine handleRequest_confined ⟨"/srv".toList, fun _ => none⟩ (by decide) _ ?_ _ _
  rintro path ⟨behind, rfl, -⟩
  exact if_neg fun heq => by cases heq

/-! ### What a client gets -/

theorem notMem_extensionToType (extension : Str) : '\r' ∉ extensionToType extension := by
  have hall : ∀ mapping ∈ mimeTypes, '\r' ∉ mapping.2 := by decide
  unfold extensionToType
  split
  · next hfind => exact hall _ (List.mem_of_find?_eq_some hfind)
  · decide

theorem sendFile_countsContent (path content : Str) (rep : Reply) : (sendFile path content rep).CountsContent :=
  ⟨_, notMem_extensionToType _, rfl⟩

theorem handleRequest_countsContent (site : Site) (req : Request) (rep : Reply) :
    (handleRequest site req rep).CountsContent := by
  unfold handleRequest
  split
  · exact Reply.stockReply_countsContent _
  · split
    · exact Reply.stockReply_countsContent _
    · split
      · exact Reply.stockReply_countsContent _
      · exact sendFile_countsContent _ _ _

/-- `reply_` before it is filled. The status is set before it is looked at. -/
def freshReply : Reply where
  status := .ok
  headers := []
  content := []

/-- The reply to what was read, once there is one. -/
def replyTo (site : Site) : Answer → Option Reply
  | .handled request => some (handleRequest site request freshReply)
  | .badRequest => some (.stockReply .badRequest)
  | .waiting => none

/-- What a connection replies to its reads. -/
def respond (site : Site) (buffer : ReadBuffer) (reads : List Str) : Outcome Exn (Option Reply) :=
  match doRead buffer .methodStart freshRequest reads with
  | .ok answer => .ok (replyTo site answer)
  | .throw e => .throw e
  | .undefined => .undefined
  | .stuck => .stuck

theorem replyTo_countsContent {site : Site} {answer : Answer} {reply : Reply} (h : replyTo site answer = some reply) :
    reply.CountsContent := by
  cases answer with
  | handled request =>
    cases h
    exact handleRequest_countsContent _ _ _
  | badRequest =>
    cases h
    exact Reply.stockReply_countsContent _
  | waiting => cases h

/-- Whatever a connection replies, a client that counts reads that reply and no more. -/
theorem respond_read {site : Site} {buffer : ReadBuffer} {reads : List Str} {reply : Reply}
    (h : respond site buffer reads = .ok (some reply)) (rest : Str) :
    Frame.read "Content-Length".toList (reply.text ++ rest) = some (reply.frame, rest) := by
  refine Reply.CountsContent.read_text ?_ rest
  unfold respond at h
  split at h
  · exact replyTo_countsContent (Outcome.ok.inj h)
  all_goals cases h

theorem respond_read_bad :
    Frame.read "Content-Length".toList ((Reply.stockReply .badRequest).text ++ "HTTP".toList) =
      some ((Reply.stockReply .badRequest).frame, "HTTP".toList) := by
  have hstring : ((ReadBuffer.filled '\x00').receive ['/']).cString 1 = some [] :=
    cString_receive_filled (by decide) le_rfl
  have hread : doRead (.filled '\x00') .methodStart freshRequest [['/']] = .ok .badRequest := by
    rw [doRead, show RequestParser.parse .methodStart freshRequest ['/'] =
      (.bad, .methodStart, freshRequest, []) from rfl]
    dsimp only
    rw [show ['/'].length - [].length = 1 from rfl, hstring]
  have hrespond : respond ⟨[], fun _ => none⟩ (.filled '\x00') [['/']] = .ok (some (.stockReply .badRequest)) := by
    rw [respond, hread]
    rfl
  exact respond_read hrespond _

/-- A file below the root directory is got under any way to write its path, and in
any pieces: the client reads the content of the file, as long as it is. -/
theorem get_answered {site : Site} {buffer : ReadBuffer} {reads : List Str} {head : RequestParser.RequestHead}
    {path behind text content : Str} (hget : head.method = "GET".toList) (hescapes : Escapes head.uri path)
    (hlegal : ¬ Illegal path) (hreads : reads.flatten = head.text ++ behind)
    (htext : textBehind head.text.length buffer reads = some text)
    (hfile : site.files (cStr (site.docRoot ++ addIndex path)) = some content) :
    ∃ reply, respond site buffer reads = .ok (some reply) ∧ ∀ rest,
      Frame.read "Content-Length".toList (reply.text ++ rest) = some ({
        start := "HTTP/1.0 200 OK".toList
        fields := [("Content-Length".toList, numeral content.length),
          ("Content-Type".toList, extensionToType (extension (addIndex path)))]
        body := content }, rest) := by
  obtain ⟨state, hparse⟩ := RequestParser.parse_head head []
  rw [List.append_nil] at hparse
  have hread := doRead_eq hparse hreads buffer
  rw [htext] at hread
  have hhandled : handleGood head.request text = .ok (.handled head.request) := by
    refine if_neg ?_
    show head.method ≠ _
    rw [hget]
    decide
  have hreply : handleRequest site head.request freshReply = sendFile (addIndex path) content freshReply := by
    have huri : urlDecode head.request.uri = some path := urlDecode_of_escapes hescapes
    rw [handleRequest, huri]
    dsimp only
    rw [if_neg hlegal, hfile]
  refine ⟨sendFile (addIndex path) content freshReply, ?_, fun rest => ?_⟩
  · rw [respond, hread]
    dsimp only
    rw [hhandled]
    dsimp only
    rw [replyTo, hreply]
  · exact (sendFile_countsContent (addIndex path) content freshReply).read_text rest

/-- A request for a file whose name has a blank. -/
def blankHead : RequestParser.RequestHead where
  method := "GET".toList
  uri := "/a%20b".toList
  major := "1".toList
  minor := "0".toList
  fields := []
  isMethod := ⟨nofun, List.all_eq_true.mp rfl⟩
  isUri c hc :=
    have hall : "/a%20b".toList.all (fun c => c ≠ ' ' ∧ RequestParser.isCtl c = false) = true := rfl
    of_decide_eq_true (List.all_eq_true.mp hall c hc)
  isMajor := ⟨⟨nofun, List.all_eq_true.mp rfl⟩, (by decide : (1 : ℤ) + 48 ≤ 2147483647)⟩
  isMinor := ⟨⟨nofun, List.all_eq_true.mp rfl⟩, (by decide : (0 : ℤ) + 48 ≤ 2147483647)⟩

/-- A site with that file only. -/
def blankSite : Site where
  docRoot := "/srv".toList
  files path := if path = "/srv/a b".toList then some "page".toList else none

theorem get_answered_blank :
    ∃ reply, respond blankSite (.filled '\x00') [blankHead.text] = .ok (some reply) ∧ ∀ rest,
      Frame.read "Content-Length".toList (reply.text ++ rest) = some ({
        start := "HTTP/1.0 200 OK".toList
        fields := [("Content-Length".toList, numeral 4),
          ("Content-Type".toList, extensionToType (extension (addIndex "/a b".toList)))]
        body := "page".toList }, rest) := by
  have hescapes : Escapes "/a%20b".toList "/a b".toList :=
    .plain (by decide) (.plain (by decide) (.escape rfl rfl rfl (.plain (by decide) .nil)))
  have htext : textBehind blankHead.text.length (.filled '\x00') [blankHead.text] = some [] := by
    rw [textBehind, if_pos le_rfl, cString_receive_filled (by decide) le_rfl, List.drop_length]
    rfl
  have hreads : [blankHead.text].flatten = blankHead.text ++ [] := by simp
  have hpath : cStr ("/srv".toList ++ addIndex "/a b".toList) = "/srv/a b".toList := rfl
  have hfile : blankSite.files (cStr (blankSite.docRoot ++ addIndex "/a b".toList)) = some "page".toList := by
    simp only [blankSite]
    exact if_pos hpath
  exact get_answered rfl hescapes (by decide) hreads htext hfile

end ItvpnAgent.Server
