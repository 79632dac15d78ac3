import ItvpnAgent.Client.Json
import ItvpnAgent.Kit.Outcome

/-! The license client of `client_license.cpp`: the retry loop around one HTTP
request, the decoder of a license reply and the decoder of an error reply. What
the HTTP library delivers is data here: the outcome of each attempt, the clock
after it, and of a response its status, its content type and what waiting for
and parsing its body gives. The member `result_` is the state of the code. -/

namespace ItvpnAgent

open Kit Prog

structure FieldError where
  message : Str
  fieldName : Str
  validationErrorName : Str
  deriving DecidableEq, Repr

/-- `code` is unset until somebody sets it. -/
structure Errors where
  code : Option ℤ := none
  errorType : Str := []
  userMessage : Str := []
  developerMessage : Str := []
  fieldErrors : List FieldError := []
  deriving DecidableEq, Repr

structure HostLicense where
  year : ℤ := 0
  month : ℤ := 0
  license : Str := []
  deriving DecidableEq, Repr

structure HostStatus where
  id : ℤ
  name : Str
  deriving DecidableEq, Repr

/-- The shared pointers of the source are options. -/
structure Result where
  errors : Option Errors := none
  statusCode : ℕ := 0
  message : Str := []
  hostLicense : Option HostLicense := none
  hostStatus : Option HostStatus := none
  deriving DecidableEq, Repr

structure RequestLicense where
  uid : Str
  unp : Str
  agent : Str
  hostType : Str
  deriving DecidableEq, Repr

def RequestLicense.isValid (r : RequestLicense) : Bool :=
  r.uid ≠ [] && r.unp ≠ [] && r.agent ≠ [] && r.hostType ≠ []

/-- A response: its status, what `content_ready().wait()` and
`extract_json().get()` do, and its content type. -/
structure Response where
  statusCode : ℕ
  contentReady : Except Exn Unit
  contentType : Str
  extractJson : Except Exn Json

/-- One pass through the retry loop: how the request ended, and the clock read
after it in nanoseconds. -/
structure Attempt where
  outcome : Except Exn Response
  now : ℤ

/-- The network as one call of `send_request` sees it. -/
structure Net where
  start : ℤ
  attempts : List Attempt

namespace StatusCodes

def ok : ℕ := 200
def unprocessableEntity : ℕ := 422
def badGateway : ℕ := 502

end StatusCodes

namespace MimeTypes

def applicationJson : Str := "application/json".toList
def textPlainUtf8 : Str := "text/plain; charset=utf-8".toList

end MimeTypes

namespace LicenseExtractor

def setErrors (errors : Errors) : Prog Result Exn Unit := update fun r => { r with errors := some errors }

/-! ### The retry loop -/

def retry (deadline : ℤ) : List Attempt → Prog Result Exn Response
  | [] => hang
  | a :: rest =>
    match a.outcome with
    | .ok response => pure response
    | .error (.httpException what code) =>
      if a.now > deadline then do
        setErrors { code := some code }
        raise (.httpException what code)
      else retry deadline rest
    | .error e => raise e

/-- `attempt` is in seconds. -/
def sendRequest (request : RequestLicense) (attempt : ℤ) (net : Net) : Prog Result Exn Response :=
  if request.isValid then retry (net.start + attempt * 1000000000) net.attempts
  else raise (.runtimeError "message for request is empty".toList)

/-! ### Error replies -/

/-- The loop over the field errors: it fills `errors` and lengthens the text of
the exception. -/
def readFieldErrors : List Json → Errors → Str → Except Exn (Errors × Str)
  | [], errors, error => .ok (errors, error)
  | field :: rest, errors, error => do
    let fieldError ← field.asObject
    let message ← (← Json.at_ fieldError "message".toList).asString
    let validationErrorName ← (← Json.at_ fieldError "validationErrorName".toList).asString
    let fieldName ← (← Json.at_ fieldError "fieldPath".toList).asString
    readFieldErrors rest
      { errors with
        fieldErrors := errors.fieldErrors ++ [{ message, validationErrorName, fieldName }] }
      (error ++ ", fieldPath: ".toList ++ fieldName ++ " ".toList ++ message)

/-- The JSON body of a 422 reply. -/
def readErrors (json : Json) (errors : Errors) (error : Str) : Except Exn (Errors × Str) := do
  let userMessage ← (← json.index "userMessage".toList).asString
  let errors := { errors with userMessage }
  let error := error ++ " ".toList ++ userMessage
  let fieldErrors ← json.index "fieldErrors".toList
  if fieldErrors.isNull then return (errors, error)
  else readFieldErrors (← fieldErrors.asArray) errors error

/-- The exception is made of a C string. -/
def processingHttpErrors (response : Response) : Prog Result Exn Result := do
  let error := "Fault connection: status code - ".toList ++ numeral response.statusCode
  let errors : Errors := { developerMessage := error }
  if response.statusCode = StatusCodes.unprocessableEntity then
    lift response.contentReady
    let json ← lift response.extractJson
    let (errors, error) ← lift (readErrors json errors error)
    setErrors errors
    raise (.runtimeError (cStr error))
  else if response.statusCode = StatusCodes.badGateway then
    setErrors errors
    raise (.runtimeError (cStr error))
  else
    raise (.runtimeError (cStr error))

/-! ### License replies -/

def readHostStatus (json : Json) : Except Exn HostStatus := do
  let fields ← json.asObject
  let id ← (← Json.at_ fields "id".toList).asInteger
  let name ← (← Json.at_ fields "name".toList).asString
  return { id, name }

/-- An optional member: `read` it unless it is null. -/
def readUnlessNull {α : Type} (read : Json → Except Exn α) (default : α) (json : Json) (key : Str) :
    Except Exn α := do
  let value ← json.index key
  if value.isNull then return default else read value

def readHostLicense (json : Json) : Except Exn HostLicense := do
  let license ← readUnlessNull Json.asString [] json "license".toList
  let month ← readUnlessNull Json.asInteger 0 json "month".toList
  let year ← readUnlessNull Json.asInteger 0 json "year".toList
  return { license, month, year }

/-- The license of a reply with an ACTIVE status. -/
def readLicense (json : Json) (hostStatus : HostStatus) : Prog Result Exn Unit :=
  if hostStatus.id = LicHostStatus.active then do
    let licenseJson ← lift (json.index "hostLicense".toList)
    if licenseJson.isNull then pure ()
    else do
      let hostLicense ← lift (readHostLicense licenseJson)
      update fun r => { r with hostLicense := some hostLicense }
  else pure ()

/-- The body of a 200 reply. Without a host status control runs off the end of a
function that must return a value. -/
def readReply (json : Json) : Prog Result Exn Result := do
  let message ← lift (do (← json.index "message".toList).asString)
  update fun r => { r with message }
  let statusJson ← lift (json.index "hostStatus".toList)
  if statusJson.isNull then undef
  else do
    let hostStatus ← lift (readHostStatus statusJson)
    update fun r => { r with hostStatus := some hostStatus }
    readLicense json hostStatus
    read

/-- `processing_license` behind `send_request`. -/
def processingResponse (response : Response) : Prog Result Exn Result := do
  update fun r => { r with statusCode := response.statusCode }
  if response.statusCode = StatusCodes.ok then
    lift response.contentReady
    if response.contentType ≠ MimeTypes.applicationJson then
      setErrors { errorType := MimeTypes.textPlainUtf8 }
      raise (.httpException ("ERROR: server returned ".toList ++ MimeTypes.textPlainUtf8)
        ErrorCode.mimeTypes)
    else
      let json ← lift response.extractJson
      readReply json
  else
    processingHttpErrors response

def processingLicense (request : RequestLicense) (attempt : ℤ) (net : Net) :
    Prog Result Exn Result := do
  let response ← sendRequest request attempt net
  processingResponse response

end LicenseExtractor

end ItvpnAgent
