import ItvpnAgent.HttpServer.HandleRequest
import ItvpnAgent.Kit.Machine
import ItvpnAgent.Server.RequestHandler

/-! A session of the second HTTP front end: requests are read and answered one after
the other until a response says that the connection ends with it. A POST that is
answered with a page carries no length, so it is the last of its session. -/

namespace ItvpnAgent.HttpServer

open Kit

/-! ### The root directory -/

theorem pathCat_eq (base path : Str) : pathCat base path = pathCat base [] ++ path := by
  unfold pathCat
  split_ifs <;> simp

theorem requestPath_eq (site : Site) (req : Request) :
    requestPath site req = pathCat site.docRoot [] ++ Server.addIndex req.target := by
  unfold requestPath Server.addIndex
  rw [pathCat_eq]
  dsimp only
  split_ifs <;> simp

/-- A response depends on nothing but the files below the root directory. -/
theorem response_confined (site : Site) (hroot : '\x00' ∉ site.docRoot) (files : Str → Except OpenError Str)
    (hfiles : ∀ path, Path.Below (pathCat site.docRoot []) path → files path = site.files path) (req : Request) :
    handleRequest { site with files := files } req = handleRequest site req := by
  have hbase : '\x00' ∉ pathCat site.docRoot [] := by
    unfold pathCat
    split_ifs
    · exact List.not_mem_nil
    · rw [List.append_nil]
      exact fun hmem => hroot ((List.dropLast_sublist _).subset hmem)
    · rwa [List.append_nil]
  unfold handleRequest
  split_ifs with hother hillegal
  · rfl
  · rfl
  · have hpath : files (cStr (requestPath site req)) = site.files (cStr (requestPath site req)) := by
      rw [requestPath_eq]
      exact hfiles _ (Server.below_docRoot hillegal hbase)
    have hpath' : requestPath { site with files := files } req = requestPath site req := rfl
    split
    · simp only [respondGet, hpath', hpath]
      rfl
    · simp only [respondPost, loadHtml, hpath', hpath]

/-- A site without files, and a file elsewhere. -/
theorem response_confined_index :
    handleRequest
        ⟨"/srv/".toList, [], fun path => if path = "/etc/key".toList then .ok "1".toList else .error .noSuchFile⟩
        { method := .get, target := "/../etc/key".toList, version := 11, keepAlive := true, body := [] } =
      handleRequest ⟨"/srv/".toList, [], fun _ => .error .noSuchFile⟩
        { method := .get, target := "/../etc/key".toList, version := 11, keepAlive := true, body := [] } := by
  refine response_confined ⟨"/srv/".toList, [], fun _ => .error .noSuchFile⟩ (by decide) _ ?_ _
  rintro path ⟨behind, rfl, -⟩
  exact if_neg fun heq => by cases heq

/-! ### The session -/

inductive ReadError where
  | endOfStream
  | other
  deriving DecidableEq, Repr

inductive Phase where
  | reading
  | writing (res : Response)
  | closed
  | failed
  | undefined

/-- What a session does, and what it has sent. -/
structure Session where
  phase : Phase
  sent : List Response

inductive Label where
  | onRead (result : Except ReadError Request)
  | onWrite (success : Bool)

/-- Without a set value a connection is kept alive from version 1.1 on. -/
def Response.keptAlive (res : Response) : Bool := res.keepAlive.getD (11 ≤ res.version)

/-- `need_eof`: only the end of the connection ends the body, or none is to follow. -/
def Response.needEof (res : Response) : Bool :=
  match res.contentLength with
  | some _ => !res.keptAlive
  | none => true

namespace Session

def run : Session where
  phase := .reading
  sent := []

def step (site : Site) (session : Session) : Label → Option Session
  | .onRead result =>
    match session.phase, result with
    | .reading, .ok req =>
      match handleRequest site req with
      | .ok res => some { session with phase := .writing res }
      | _ => some { session with phase := .undefined }
    | .reading, .error .endOfStream => some { session with phase := .closed }
    | .reading, .error .other => some { session with phase := .failed }
    | _, _ => none
  | .onWrite success =>
    match session.phase, success with
    | .writing res, true =>
      some { phase := if res.needEof then .closed else .reading, sent := session.sent ++ [res] }
    | .writing _, false => some { session with phase := .failed }
    | _, _ => none

def machine (site : Site) : Machine Session Label where
  step := step site

/-- The requests that were read. -/
def requests (labels : List Label) : List Request :=
  labels.filterMap fun
    | .onRead (.ok req) => some req
    | _ => none

/-- After the response to it another request is read. -/
def KeepsOpen (req : Request) : Prop :=
  req.keepAlive = true ∧ (req.method = .post → IllegalTarget req.target)

theorem needEof_iff {site : Site} {req : Request} {res : Response} (h : handleRequest site req = .ok res) :
    res.needEof = false ↔ KeepsOpen req := by
  have hstock (status : ℕ) (body : Str) :
      (stockResponse site req status body).needEof = false ↔ req.keepAlive = true := by
    simp [Response.needEof, stockResponse, Response.keptAlive]
  unfold handleRequest at h
  split_ifs at h with hother hillegal
  · cases h
    simp [hstock, KeepsOpen, hother]
  · cases h
    simp [hstock, KeepsOpen, hillegal]
  · split at h
    · next hget =>
      cases h
      unfold respondGet
      dsimp only
      split
      · simp [hstock, KeepsOpen, hget]
      · simp [hstock, KeepsOpen, hget]
      · simp [Response.needEof, Response.keptAlive, KeepsOpen, hget]
    · next hnotGet =>
      have hpost : req.method = .post := by
        cases hmethod : req.method with
        | get => exact absurd hmethod hnotGet
        | post => rfl
        | other => exact absurd hmethod hother
      unfold respondPost at h
      split at h
      · cases h
      · cases h
        simp [Response.needEof, KeepsOpen, hpost, hillegal]

/-- The responses that were sent are those to the requests that were read, in their
order; at most one request has none yet, and all but the last keep the session open. -/
structure Orderly (site : Site) (reqs : List Request) (session : Session) : Prop where
  answers : List.Forall₂ (fun req res => handleRequest site req = .ok res) (reqs.take session.sent.length)
    session.sent
  unanswered : session.sent.length ≤ reqs.length ∧ reqs.length ≤ session.sent.length + 1
  keeps : ∀ req ∈ reqs.dropLast, KeepsOpen req
  ready : session.phase = .reading → reqs.length = session.sent.length ∧ ∀ req ∈ reqs, KeepsOpen req
  busy : ∀ res, session.phase = .writing res → ∃ front req, reqs = front ++ [req] ∧
    front.length = session.sent.length ∧ handleRequest site req = .ok res

namespace Orderly

variable {site : Site} {reqs : List Request} {session session' : Session}

/-- A session that ends or fails without a request. -/
theorem ended (h : Orderly site reqs session) (hsent : session'.sent = session.sent)
    (hready : session'.phase ≠ .reading) (hbusy : ∀ res, session'.phase ≠ .writing res) :
    Orderly site reqs session' where
  answers := by
    rw [hsent]
    exact h.answers
  unanswered := by
    rw [hsent]
    exact h.unanswered
  keeps := h.keeps
  ready hphase := absurd hphase hready
  busy res hphase := absurd hphase (hbusy res)

theorem onRead (h : Orderly site reqs session) (hphase : session.phase = .reading) (req : Request)
    (hsent : session'.sent = session.sent) (hready : session'.phase ≠ .reading)
    (hbusy : ∀ res, session'.phase = .writing res → handleRequest site req = .ok res) :
    Orderly site (reqs ++ [req]) session' where
  answers := by
    have htake : (reqs ++ [req]).take session.sent.length = reqs.take session.sent.length :=
      List.take_append_of_le_length (h.ready hphase).1.ge
    rw [hsent, htake]
    exact h.answers
  unanswered := by
    have hlength := (h.ready hphase).1
    rw [hsent, List.length_append, List.length_singleton]
    omega
  keeps other hother := by
    rw [List.dropLast_concat] at hother
    exact (h.ready hphase).2 other hother
  ready hreading := absurd hreading hready
  busy res hwriting := ⟨reqs, req, rfl, by rw [hsent]; exact (h.ready hphase).1, hbusy res hwriting⟩

theorem onWrite (h : Orderly site reqs session) {res : Response} (hphase : session.phase = .writing res) :
    Orderly site reqs
      { phase := if res.needEof then .closed else .reading, sent := session.sent ++ [res] } := by
  obtain ⟨front, req, rfl, hlength, hres⟩ := h.busy res hphase
  have hanswers := h.answers
  have htake : (front ++ [req]).take session.sent.length = front := List.take_left' hlength
  rw [htake] at hanswers
  have hkeeps := h.keeps
  rw [List.dropLast_concat] at hkeeps
  refine ⟨?_, ?_, h.keeps, fun hreading => ⟨?_, ?_⟩, fun other hwriting => ?_⟩
  · rw [List.take_of_length_le (by simp [hlength])]
    exact List.rel_append hanswers (.cons hres .nil)
  · simp [hlength]
  · simp [hlength]
  · -- it reads on only behind a response that keeps the session open
    have hopen : res.needEof = false := by
      rw [Bool.eq_false_iff]
      intro hclose
      simp [hclose] at hreading
    intro other hother
    rcases List.mem_append.mp hother with hother | hother
    · exact hkeeps other hother
    · rw [List.mem_singleton.mp hother]
      exact (needEof_iff hres).mp hopen
  · dsimp only at hwriting
    split_ifs at hwriting

theorem step {labels : List Label} {a : Label} (h : Orderly site (requests labels) session)
    (hstep : (machine site).step session a = some session') : Orderly site (requests (labels ++ [a])) session' := by
  have hconcat : requests (labels ++ [a]) = requests labels ++ requests [a] := List.filterMap_append
  change Session.step site session a = some session' at hstep
  rw [hconcat]
  cases a with
  | onWrite success =>
    rw [show requests [Label.onWrite success] = [] from rfl, List.append_nil]
    unfold Session.step at hstep
    dsimp only at hstep
    split at hstep
    · next res hphase =>
      cases hstep
      exact h.onWrite hphase
    · cases hstep
      exact h.ended rfl nofun nofun
    · cases hstep
  | onRead result =>
    unfold Session.step at hstep
    dsimp only at hstep
    split at hstep
    · next req hphase =>
      rw [show requests [Label.onRead (.ok req)] = [req] from rfl]
      split at hstep
      · next res hres =>
        cases hstep
        refine h.onRead hphase req rfl nofun fun other hwriting => ?_
        cases hwriting
        exact hres
      · cases hstep
        exact h.onRead hphase req rfl nofun nofun
    · cases hstep
      rw [show requests [Label.onRead (.error .endOfStream)] = [] from rfl, List.append_nil]
      exact h.ended rfl nofun nofun
    · cases hstep
      rw [show requests [Label.onRead (.error .other)] = [] from rfl, List.append_nil]
      exact h.ended rfl nofun nofun
    · cases hstep

end Orderly

theorem orderly_run (site : Site) : Orderly site [] run where
  answers := .nil
  unanswered := ⟨le_rfl, Nat.zero_le _⟩
  keeps _ := nofun
  ready _ := ⟨rfl, nofun⟩
  busy _ := nofun

/-- In every run the responses answer the requests in their order, one each, and no
request is read behind one that closes, such as a POST that is answered with a page. -/
theorem orderly_of_run {site : Site} {labels : List Label} {session : Session}
    (h : (machine site).run run labels = some session) : Orderly site (requests labels) session :=
  (machine site).run_history (P := fun labels session => Orderly site (requests labels) session)
    (fun _ _ _ _ hs hstep => hs.step hstep) (show Orderly site (requests []) run from orderly_run site) h

def postedForm : Request where
  method := .post
  target := "/".toList
  version := 11
  keepAlive := true
  body := "a=b".toList

def postedPage : Response where
  status := 200
  version := 11
  server := "Beast".toList
  contentType := none
  keepAlive := none
  contentLength := none
  body := "page".toList

/-- A page that is posted to ends its session. -/
theorem orderly_of_run_post : Orderly ⟨"/srv".toList, "Beast".toList, fun _ => .ok "page".toList⟩ [postedForm]
    { phase := .closed, sent := [postedPage] } := by
  have hrun : (machine ⟨"/srv".toList, "Beast".toList, fun _ => .ok "page".toList⟩).run run
      [.onRead (.ok postedForm), .onWrite true] = some { phase := .closed, sent := [postedPage] } := rfl
  exact orderly_of_run hrun

end Session

end ItvpnAgent.HttpServer
