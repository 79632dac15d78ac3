import ItvpnAgent.Server.Request

/-! `handle_request` of the second HTTP front end. A GET is answered with a file; a
POST is split into pairs by a copy of the loop of `parse_paremeters`, then answered
with a file too. A body with a piece that has no `=` keeps both from answering. -/

namespace ItvpnAgent.HttpServer

open Kit

inductive Verb where
  | get
  | post
  | other
  deriving DecidableEq, Repr

structure Request where
  method : Verb
  target : Str
  version : ℕ
  keepAlive : Bool
  body : Str

/-- A response with the fields that were set. -/
structure Response where
  status : ℕ
  version : ℕ
  server : Str
  contentType : Option Str
  keepAlive : Option Bool
  contentLength : Option ℕ
  body : Str
  deriving DecidableEq

inductive OpenError where
  | noSuchFile
  | other (message : Str)

/-- The server: its root directory, its name and the files it can open. -/
structure Site where
  docRoot : Str
  server : Str
  files : Str → Except OpenError Str

/-- Types of files by their extension. -/
def mimeTypes : List (Str × Str) :=
  [(".htm".toList, "text/html".toList), (".html".toList, "text/html".toList),
    (".php".toList, "text/html".toList), (".css".toList, "text/css".toList),
    (".txt".toList, "text/plain".toList), (".js".toList, "application/javascript".toList),
    (".json".toList, "application/json".toList), (".xml".toList, "application/xml".toList),
    (".swf".toList, "application/x-shockwave-flash".toList), (".flv".toList, "video/x-flv".toList),
    (".png".toList, "image/png".toList), (".jpe".toList, "image/jpeg".toList),
    (".jpeg".toList, "image/jpeg".toList), (".jpg".toList, "image/jpeg".toList),
    (".gif".toList, "image/gif".toList), (".bmp".toList, "image/bmp".toList),
    (".ico".toList, "image/vnd.microsoft.icon".toList), (".tiff".toList, "image/tiff".toList),
    (".tif".toList, "image/tiff".toList), (".svg".toList, "image/svg+xml".toList),
    (".svgz".toList, "image/svg+xml".toList)]

/-- Equal but for the case of letters. -/
def iequals (s t : Str) : Bool := s.map Char.toLower = t.map Char.toLower

def mimeType (path : Str) : Str :=
  let ext := match findLastOf '.' path with
    | some pos => path.drop pos
    | none => []
  match mimeTypes.find? fun entry => iequals ext entry.1 with
  | some entry => entry.2
  | none => "application/text".toList

def pathCat (base path : Str) : Str :=
  if base = [] then path
  else if base.getLast? = some '/' then base.dropLast ++ path
  else base ++ path

/-- A file that cannot be opened is an empty page. -/
def loadHtml (site : Site) (requestPath : Str) : Str :=
  match site.files (cStr requestPath) with
  | .ok content => content
  | .error _ => []

/-- The path must be absolute and not contain `..`. -/
def IllegalTarget (target : Str) : Prop :=
  target = [] ∨ target.head? ≠ some '/' ∨ "..".toList <:+: target

instance (target : Str) : Decidable (IllegalTarget target) := inferInstanceAs (Decidable (_ ∨ _ ∨ _))

/-- An answer with a text of the server itself. -/
def stockResponse (site : Site) (req : Request) (status : ℕ) (body : Str) : Response where
  status := status
  version := req.version
  server := site.server
  contentType := some "text/html".toList
  keepAlive := some req.keepAlive
  contentLength := some body.length
  body := body

def requestPath (site : Site) (req : Request) : Str :=
  let path := pathCat site.docRoot req.target
  if req.target.getLast? = some '/' then path ++ "index.html".toList else path

def respondGet (site : Site) (req : Request) : Response :=
  let path := requestPath site req
  match site.files (cStr path) with
  | .error .noSuchFile =>
    stockResponse site req 404 ("The resource '".toList ++ req.target ++ "' was not found.".toList)
  | .error (.other message) =>
    stockResponse site req 500 ("An error occurred: '".toList ++ message ++ "'".toList)
  | .ok content => {
      status := 200
      version := req.version
      server := site.server
      contentType := some (mimeType path)
      keepAlive := some req.keepAlive
      contentLength := some content.length
      body := content }

/-- The pairs of the body are read for the log only. -/
def respondPost (site : Site) (req : Request) : Outcome Exn Response :=
  match Server.readPairs (req.body.splitOn '&') with
  | none => .undefined
  | some _ => .ok {
      status := 200
      version := req.version
      server := site.server
      contentType := none
      keepAlive := none
      contentLength := none
      body := loadHtml site (requestPath site req) }

/-- The response that is sent. -/
def handleRequest (site : Site) (req : Request) : Outcome Exn Response :=
  if req.method = .other then
    .ok (stockResponse site req 400 "Unknown HTTP-method".toList)
  else if IllegalTarget req.target then
    .ok (stockResponse site req 400 "Illegal request-target".toList)
  else
    match req.method with
    | .get => .ok (respondGet site req)
    | _ => respondPost site req

/-- A POST is answered if its target is refused, or if each piece of its body has
a `=`; the empty body has one piece, and it has none. -/
theorem handleRequest_post_iff {site : Site} {req : Request} (hpost : req.method = .post) :
    (∃ res, handleRequest site req = .ok res) ↔
      IllegalTarget req.target ∨ ∀ piece ∈ req.body.splitOn '&', '=' ∈ piece := by
  rw [handleRequest, hpost, if_neg (by decide), ← Server.exists_readPairs_iff]
  by_cases htarget : IllegalTarget req.target
  · simp [htarget]
  · rw [if_neg htarget]
    cases hpairs : Server.readPairs (req.body.splitOn '&') with
    | none => simp [respondPost, hpairs, htarget]
    | some pairs => simp [respondPost, hpairs]

/-- Both front ends stay in range and answer exactly if no piece of the text they
split lacks its `=` and no length passes the end. -/
theorem posts_answered_iff (request : Server.Request) (params : Str) (site : Site) (req : Request) :
    ((∃ request', Server.parseParemeters request params = .ok request') ↔
        params = [] ∨ ∀ n > 0, Server.Declares request n → n ≤ params.length ∧
          ∀ piece ∈ (params.take n.toNat).splitOn '&', '=' ∈ piece) ∧
      ((∃ res, handleRequest site { req with method := .post } = .ok res) ↔
        IllegalTarget req.target ∨ ∀ piece ∈ req.body.splitOn '&', '=' ∈ piece) :=
  ⟨Server.parseParemeters_ok_iff, handleRequest_post_iff rfl⟩

/-- A POST with an empty body is split into one piece without `=`, and so is the
body `a` of one character. -/
theorem empty_body_undefined :
    handleRequest ⟨"/srv".toList, "Beast".toList, fun _ => .ok []⟩
        { method := .post, target := "/".toList, version := 11, keepAlive := true, body := [] } = .undefined ∧
      Server.parseParemeters
        { method := "POST".toList, uri := "/".toList, httpVersionMajor := 1, httpVersionMinor := 1,
          headers := [{ name := "Content-Length".toList, value := "1".toList }], parameters := [] }
        "a".toList = .undefined := ⟨rfl, rfl⟩

end ItvpnAgent.HttpServer
