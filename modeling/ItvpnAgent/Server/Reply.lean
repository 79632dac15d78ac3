import ItvpnAgent.Kit.Framing
import ItvpnAgent.Server.Request

/-! The replies of the HTTP server: a status, headers and a content. The stock
replies count their content in their first header, as the replies with a file do. -/

namespace ItvpnAgent.Server

open Kit

namespace Reply

inductive StatusType where
  | ok
  | created
  | accepted
  | noContent
  | multipleChoices
  | movedPermanently
  | movedTemporarily
  | notModified
  | badRequest
  | unauthorized
  | forbidden
  | notFound
  | internalServerError
  | notImplemented
  | badGateway
  | serviceUnavailable
  deriving DecidableEq, Repr

namespace StatusType

/-- The first line of a reply. -/
def statusString : StatusType → Str
  | ok => "HTTP/1.0 200 OK\r\n".toList
  | created => "HTTP/1.0 201 Created\r\n".toList
  | accepted => "HTTP/1.0 202 Accepted\r\n".toList
  | noContent => "HTTP/1.0 204 No Content\r\n".toList
  | multipleChoices => "HTTP/1.0 300 Multiple Choices\r\n".toList
  | movedPermanently => "HTTP/1.0 301 Moved Permanently\r\n".toList
  | movedTemporarily => "HTTP/1.0 302 Moved Temporarily\r\n".toList
  | notModified => "HTTP/1.0 304 Not Modified\r\n".toList
  | badRequest => "HTTP/1.0 400 Bad Request\r\n".toList
  | unauthorized => "HTTP/1.0 401 Unauthorized\r\n".toList
  | forbidden => "HTTP/1.0 403 Forbidden\r\n".toList
  | notFound => "HTTP/1.0 404 Not Found\r\n".toList
  | internalServerError => "HTTP/1.0 500 Internal Server Error\r\n".toList
  | notImplemented => "HTTP/1.0 501 Not Implemented\r\n".toList
  | badGateway => "HTTP/1.0 502 Bad Gateway\r\n".toList
  | serviceUnavailable => "HTTP/1.0 503 Service Unavailable\r\n".toList

/-- A page with a title and a heading. -/
def page (title heading : String) : Str :=
  "<html><head><title>".toList ++ title.toList ++ "</title></head><body><h1>".toList ++ heading.toList ++
    "</h1></body></html>".toList

/-- The content of a stock reply. -/
def stockContent : StatusType → Str
  | ok => []
  | created => page "Created" "201 Created"
  | accepted => page "Accepted" "202 Accepted"
  | noContent => page "No Content" "204 Content"
  | multipleChoices => page "Multiple Choices" "300 Multiple Choices"
  | movedPermanently => page "Moved Permanently" "301 Moved Permanently"
  | movedTemporarily => page "Moved Temporarily" "302 Moved Temporarily"
  | notModified => page "Not Modified" "304 Not Modified"
  | badRequest => page "Bad Request" "400 Bad Request"
  | unauthorized => page "Unauthorized" "401 Unauthorized"
  | forbidden => page "Forbidden" "403 Forbidden"
  | notFound => page "Not Found" "404 Not Found"
  | internalServerError => page "Internal Server Error" "500 Internal Server Error"
  | notImplemented => page "Not Implemented" "501 Not Implemented"
  | badGateway => page "Bad Gateway" "502 Bad Gateway"
  | serviceUnavailable => page "Service Unavailable" "503 Service Unavailable"

theorem statusString_eq (status : StatusType) :
    '\r' ∉ upTo '\r' status.statusString ∧ status.statusString = upTo '\r' status.statusString ++ lineEnd := by
  refine ⟨notMem_upTo _ _, ?_⟩
  cases status <;> rfl

end StatusType

end Reply

structure Reply where
  status : Reply.StatusType
  headers : List Header
  content : Str
  deriving DecidableEq, Repr

namespace Reply

/-- What is sent, piece by piece. -/
def toBuffers (reply : Reply) : List Str :=
  [reply.status.statusString] ++
    reply.headers.flatMap (fun header => [header.name, ": ".toList, header.value, "\r\n".toList]) ++
    ["\r\n".toList, reply.content]

def text (reply : Reply) : Str := reply.toBuffers.flatten

/-- The headers of a content. -/
def contentHeaders (content type : Str) : List Header :=
  [{ name := "Content-Length".toList, value := numeral content.length },
    { name := "Content-Type".toList, value := type }]

def stockReply (status : StatusType) : Reply where
  status := status
  headers := contentHeaders status.stockContent "text/html".toList
  content := status.stockContent

/-- The reply as a message with a length. -/
def frame (reply : Reply) : Frame where
  start := upTo '\r' reply.status.statusString
  fields := reply.headers.map fun header => (header.name, header.value)
  body := reply.content

theorem text_eq_write (reply : Reply) : reply.text = reply.frame.write := by
  have hheaders : (reply.headers.flatMap fun header =>
      [header.name, ": ".toList, header.value, "\r\n".toList]).flatten =
      (reply.headers.map fun header => (header.name, header.value)).flatMap Frame.writeField := by
    induction reply.headers with
    | nil => rfl
    | cons header headers ih =>
      rw [List.flatMap_cons, List.flatten_append, ih, List.map_cons, List.flatMap_cons]
      simp [Frame.writeField, lineEnd]
  have htext : reply.text = reply.status.statusString ++
      (reply.headers.map fun header => (header.name, header.value)).flatMap Frame.writeField ++
      (lineEnd ++ reply.content) := by
    simp only [text, toBuffers, List.flatten_append, hheaders, List.flatten_cons, List.flatten_nil, List.append_nil]
    rfl
  rw [htext, (StatusType.statusString_eq reply.status).2]
  simp only [Frame.write, frame, List.append_assoc]

/-- A reply whose headers are those of its content. -/
def CountsContent (reply : Reply) : Prop :=
  ∃ type, '\r' ∉ type ∧ reply.headers = contentHeaders reply.content type

theorem stockReply_countsContent (status : StatusType) : (stockReply status).CountsContent :=
  ⟨"text/html".toList, by decide, rfl⟩

/-- Such a reply is read back by its length, whatever follows it. -/
theorem CountsContent.read_text {reply : Reply} (h : reply.CountsContent) (rest : Str) :
    Frame.read "Content-Length".toList (reply.text ++ rest) = some (reply.frame, rest) := by
  obtain ⟨type, htype, hheaders⟩ := h
  have hnumeral : '\r' ∉ numeral reply.content.length := fun hmem => by
    have hdigit : ('\r' : Char).isDigit = true := Nat.isDigit_of_mem_toDigits (by decide) (by decide) hmem
    exact absurd hdigit (by decide)
  rw [text_eq_write]
  refine Frame.read_write ⟨(StatusType.statusString_eq reply.status).1, ?_, ?_⟩ rest
  · simp only [frame, hheaders, contentHeaders, List.map_cons, List.map_nil, List.forall_mem_cons]
    exact ⟨⟨by decide, by decide, hnumeral⟩, ⟨by decide, by decide, htype⟩, nofun⟩
  · simp only [frame, hheaders, contentHeaders, List.map_cons, List.map_nil]
    exact List.find?_cons_of_pos (decide_eq_true rfl)

end Reply

end ItvpnAgent.Server
