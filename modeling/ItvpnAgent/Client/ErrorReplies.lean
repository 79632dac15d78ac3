import ItvpnAgent.Client.Replies

/-! Error replies as the server means them: a user message and a list of field
errors. `processing_http_errors` keeps the list and spells it out in the text of
one `runtime_error`; a body it cannot read, and a NUL in a text, are what it
loses. -/

namespace ItvpnAgent

open Kit Prog

/-! ### Encoding -/

def FieldError.Encodes (fieldError : FieldError) (json : Json) : Prop :=
  ∃ fields, json = .object fields ∧
    Json.at_ fields "message".toList = .ok (.string fieldError.message) ∧
    Json.at_ fields "validationErrorName".toList = .ok (.string fieldError.validationErrorName) ∧
    Json.at_ fields "fieldPath".toList = .ok (.string fieldError.fieldName)

/-- An error reply; without field errors their array may be missing. -/
@[ext]
structure ErrorRecord where
  userMessage : Str
  fieldErrors : List FieldError
  deriving DecidableEq, Repr

namespace ErrorRecord

def Encodes (record : ErrorRecord) (json : Json) : Prop :=
  ∃ fields, json = .object fields ∧
    Json.member fields "userMessage".toList = .string record.userMessage ∧
    ((record.fieldErrors = [] ∧ Json.member fields "fieldErrors".toList = .null) ∨
      ∃ items, Json.member fields "fieldErrors".toList = .array items ∧
        List.Forall₂ FieldError.Encodes record.fieldErrors items)

/-- The texts of the record that the exception is to show. -/
def texts (record : ErrorRecord) : List Str :=
  record.userMessage :: record.fieldErrors.flatMap fun e => [e.fieldName, e.message]

end ErrorRecord

theorem isFieldError_iff {json : Json} :
    IsFieldError json ↔ ∃ fieldError : FieldError, fieldError.Encodes json := by
  constructor
  · rintro ⟨hmessage, hname, hpath⟩
    exact ⟨⟨_, _, _⟩, _, rfl, hmessage, hname, hpath⟩
  · rintro ⟨fieldError, fields, rfl, hmessage, hname, hpath⟩
    exact .intro hmessage hname hpath

theorem forall_isFieldError_iff {items : List Json} :
    (∀ item ∈ items, IsFieldError item) ↔ ∃ fieldErrors, List.Forall₂ FieldError.Encodes fieldErrors items := by
  induction items with
  | nil => exact ⟨fun _ => ⟨[], .nil⟩, fun _ => nofun⟩
  | cons item items ih =>
    rw [List.forall_mem_cons, ih, isFieldError_iff]
    constructor
    · rintro ⟨⟨fieldError, hfirst⟩, fieldErrors, hrest⟩
      exact ⟨fieldError :: fieldErrors, .cons hfirst hrest⟩
    · rintro ⟨_, hall⟩
      cases hall with
      | cons hfirst hrest => exact ⟨⟨_, hfirst⟩, _, hrest⟩

/-- The grammar of error replies is that of the encodings. -/
theorem isErrorReply_iff {json : Json} :
    IsErrorReply json ↔ ∃ record : ErrorRecord, record.Encodes json := by
  constructor
  · rintro (⟨hmessage, hnull⟩ | ⟨hmessage, hitems, hall⟩)
    · exact ⟨⟨_, []⟩, _, rfl, hmessage, .inl ⟨rfl, hnull⟩⟩
    · obtain ⟨fieldErrors, hall⟩ := forall_isFieldError_iff.mp hall
      exact ⟨⟨_, fieldErrors⟩, _, rfl, hmessage, .inr ⟨_, hitems, hall⟩⟩
  · rintro ⟨record, fields, rfl, hmessage, ⟨-, hnull⟩ | ⟨items, hitems, hall⟩⟩
    · exact .plain hmessage hnull
    · exact .fields hmessage hitems (forall_isFieldError_iff.mpr ⟨_, hall⟩)

/-! ### Decoding -/

/-- What the loop appends for one field error. -/
def FieldError.text (fieldError : FieldError) : Str :=
  ", fieldPath: ".toList ++ fieldError.fieldName ++ " ".toList ++ fieldError.message

theorem FieldError.text_append (fieldError : FieldError) (error rest : Str) :
    error ++ ", fieldPath: ".toList ++ fieldError.fieldName ++ " ".toList ++ fieldError.message ++ rest =
      error ++ (fieldError.text ++ rest) := by
  have htext : fieldError.text =
      ", fieldPath: ".toList ++ fieldError.fieldName ++ " ".toList ++ fieldError.message := rfl
  rw [htext]
  generalize ", fieldPath: ".toList = path
  generalize " ".toList = blank
  simp only [List.append_assoc]

namespace LicenseExtractor

/-- The loop keeps the field errors in their order. -/
theorem readFieldErrors_of_encodes {fieldErrors : List FieldError} {items : List Json}
    (h : List.Forall₂ FieldError.Encodes fieldErrors items) (errors : Errors) (error : Str) :
    readFieldErrors items errors error =
      .ok ({ errors with fieldErrors := errors.fieldErrors ++ fieldErrors },
        error ++ fieldErrors.flatMap FieldError.text) := by
  induction h generalizing errors error with
  | nil => simp [readFieldErrors]
  | @cons fieldError item fieldErrors items hfirst hrest ih =>
    obtain ⟨fields, rfl, hmessage, hname, hpath⟩ := hfirst
    simp only [readFieldErrors, Json.asObject, Json.asString, except_ok_bind, hmessage, hname, hpath, ih]
    rw [FieldError.text_append, List.flatMap_cons, List.append_assoc, List.singleton_append]

theorem readErrors_of_encodes {record : ErrorRecord} {json : Json} (h : record.Encodes json)
    (errors : Errors) (error : Str) (hnone : errors.fieldErrors = []) :
    readErrors json errors error =
      .ok ({ errors with userMessage := record.userMessage, fieldErrors := record.fieldErrors },
        error ++ " ".toList ++ record.userMessage ++ record.fieldErrors.flatMap FieldError.text) := by
  obtain ⟨fields, rfl, hmessage, ⟨hempty, hnull⟩ | ⟨items, hitems, hall⟩⟩ := h
  · rw [readErrors, Json.index, except_ok_bind, hmessage, Json.asString, except_ok_bind, Json.index,
      except_ok_bind, hnull, hempty]
    simp only [Json.isNull, if_true, hnone, List.flatMap_nil, List.append_nil]
    rfl
  · rw [readErrors, Json.index, except_ok_bind, hmessage, Json.asString, except_ok_bind, Json.index,
      except_ok_bind, hitems, Json.asArray, except_ok_bind, readFieldErrors_of_encodes hall]
    simp [Json.isNull, hnone]

end LicenseExtractor

/-! ### The text of the exception -/

namespace ErrorRecord

/-- The text `processing_http_errors` puts together. -/
def text (record : ErrorRecord) (statusCode : ℕ) : Str :=
  "Fault connection: status code - ".toList ++ numeral statusCode ++ " ".toList ++ record.userMessage ++
    record.fieldErrors.flatMap FieldError.text

/-- The status code and then the texts of the record. -/
theorem mentions_text (record : ErrorRecord) (statusCode : ℕ) :
    Mentions (numeral statusCode :: record.texts) (record.text statusCode) := by
  have hfields : Mentions (record.fieldErrors.flatMap fun e => [e.fieldName, e.message])
      (record.fieldErrors.flatMap FieldError.text) := by
    induction record.fieldErrors with
    | nil => exact .done _
    | cons fieldError rest ih =>
      have hpieces := Mentions.piece ", fieldPath: ".toList fieldError.fieldName
        (.piece " ".toList fieldError.message ih)
      rwa [← List.append_assoc, ← List.append_assoc] at hpieces
  have htext := Mentions.piece "Fault connection: status code - ".toList (numeral statusCode)
    (.piece " ".toList record.userMessage hfields)
  rwa [← List.append_assoc, ← List.append_assoc] at htext

theorem nul_notMem_text (record : ErrorRecord) (statusCode : ℕ) (h : ∀ s ∈ record.texts, '\x00' ∉ s) :
    '\x00' ∉ record.text statusCode := by
  have hhead : '\x00' ∉ "Fault connection: status code - ".toList := by decide
  have hblank : '\x00' ∉ " ".toList := by decide
  have hpath : '\x00' ∉ ", fieldPath: ".toList := by decide
  have hnumeral : '\x00' ∉ numeral statusCode := nul_notMem_numeral statusCode
  have hmessage : '\x00' ∉ record.userMessage := h _ List.mem_cons_self
  have hfields : '\x00' ∉ record.fieldErrors.flatMap FieldError.text := by
    intro hmem
    obtain ⟨fieldError, hfieldError, hmem⟩ := List.mem_flatMap.mp hmem
    have hpair : ∀ s ∈ [fieldError.fieldName, fieldError.message], '\x00' ∉ s := fun s hs =>
      h s (List.mem_cons_of_mem _ (List.mem_flatMap.mpr ⟨fieldError, hfieldError, hs⟩))
    have hname : '\x00' ∉ fieldError.fieldName := hpair _ List.mem_cons_self
    have hfield : '\x00' ∉ fieldError.message := hpair _ (List.mem_cons_of_mem _ List.mem_cons_self)
    exact List.not_mem_append (List.not_mem_append (List.not_mem_append hpath hname) hblank) hfield hmem
  exact List.not_mem_append (List.not_mem_append (List.not_mem_append
    (List.not_mem_append hhead hnumeral) hblank) hmessage) hfields

/-- The exception shows all of it unless a NUL cuts it off. -/
theorem mentions_cStr_iff (record : ErrorRecord) (statusCode : ℕ) :
    Mentions (numeral statusCode :: record.texts) (cStr (record.text statusCode)) ↔
      ∀ s ∈ record.texts, '\x00' ∉ s := by
  constructor
  · intro h s hs hnul
    exact notMem_upTo '\x00' _ (h.subset s (List.mem_cons_of_mem _ hs) _ hnul)
  · intro h
    rw [cStr, upTo_of_notMem (record.nul_notMem_text statusCode h)]
    exact record.mentions_text statusCode

end ErrorRecord

/-! ### The whole response -/

/-- The run has ended in a `runtime_error`; and if the response was the record of a
422 reply, its field errors are those of the result and its texts are in the
exception, in order. -/
def Response.Surfaces (response : Response) (run : Outcome Exn Result × Result) : Prop :=
  ∃ e, run.1 = .throw e ∧ e.isRuntimeError = true ∧
    ∀ (record : ErrorRecord) (json : Json), response.statusCode = StatusCodes.unprocessableEntity →
      response.contentReady = .ok () → response.extractJson = .ok json → record.Encodes json →
        (∃ errors, run.2.errors = some errors ∧ errors.fieldErrors = record.fieldErrors) ∧
        Mentions (numeral response.statusCode :: record.texts) e.what

/-- The body of a 422 reply, unless getting it ends in a `runtime_error` already,
is the encoding of a record without NULs in its texts. -/
def Response.Readable (response : Response) : Prop :=
  response.statusCode = StatusCodes.unprocessableEntity →
    Meets response.contentReady (fun e => e.isRuntimeError = true) fun _ =>
      Meets response.extractJson (fun e => e.isRuntimeError = true) fun json =>
        ∃ record : ErrorRecord, record.Encodes json ∧ ∀ s ∈ record.texts, '\x00' ∉ s

namespace LicenseExtractor

variable {response : Response} {json : Json} {record : ErrorRecord} {r : Result}

theorem processingHttpErrors_of_encodes (h422 : response.statusCode = StatusCodes.unprocessableEntity)
    (hready : response.contentReady = .ok ()) (hjson : response.extractJson = .ok json)
    (hencodes : record.Encodes json) : processingHttpErrors response r =
      (.throw (.runtimeError (cStr (record.text response.statusCode))),
        { r with errors := some {
          developerMessage := "Fault connection: status code - ".toList ++ numeral response.statusCode
          userMessage := record.userMessage
          fieldErrors := record.fieldErrors } }) := by
  rw [processingHttpErrors, if_pos h422, hready, bind_ok (lift_ok _ _), hjson, bind_ok (lift_ok _ _),
    readErrors_of_encodes hencodes _ _ rfl, bind_ok (lift_ok _ _)]
  rfl

/-- A record is encoded by one JSON value only. -/
theorem encodes_unique {record' : ErrorRecord} (h : record.Encodes json) (h' : record'.Encodes json) :
    record = record' := by
  have hread := (readErrors_of_encodes h {} [] rfl).symm.trans (readErrors_of_encodes h' {} [] rfl)
  have herrors := congrArg Prod.fst (Except.ok.inj hread)
  exact ErrorRecord.ext (congrArg Errors.userMessage herrors) (congrArg Errors.fieldErrors herrors)

theorem surfaces_of_other (h422 : response.statusCode ≠ StatusCodes.unprocessableEntity) :
    response.Surfaces (processingHttpErrors response r) := by
  have hthrows : ∃ what t, processingHttpErrors response r = (.throw (.runtimeError what), t) := by
    rw [processingHttpErrors, if_neg h422]
    split <;> exact ⟨_, _, rfl⟩
  obtain ⟨what, t, hrun⟩ := hthrows
  rw [hrun]
  exact ⟨_, rfl, rfl, fun _ _ h => absurd h h422⟩

/-- Where the body cannot be had, its exception is what surfaces. -/
theorem surfaces_throw_iff {e : Exn} {t : Result}
    (hbody : ¬ (response.contentReady = .ok () ∧ ∃ json, response.extractJson = .ok json ∧ IsErrorReply json)) :
    response.Surfaces (.throw e, t) ↔ e.isRuntimeError = true := by
  constructor
  · rintro ⟨e', hthrow, hruntime, -⟩
    cases hthrow
    exact hruntime
  · refine fun hruntime => ⟨e, rfl, hruntime, fun record json _ hready hjson hencodes => ?_⟩
    exact absurd ⟨hready, json, hjson, isErrorReply_iff.mpr ⟨record, hencodes⟩⟩ hbody

/-- A body of another shape leaves through a `json_exception`. -/
theorem processingHttpErrors_unreadable (h422 : response.statusCode = StatusCodes.unprocessableEntity)
    (hready : response.contentReady = .ok ()) (hjson : response.extractJson = .ok json)
    (hreply : ¬ IsErrorReply json) :
    ∃ what t, processingHttpErrors response r = (.throw (.jsonException what), t) := by
  rw [processingHttpErrors, if_pos h422, hready, bind_ok (lift_ok _ _), hjson, bind_ok (lift_ok _ _)]
  cases hread : readErrors json _ _ with
  | ok read => exact absurd ((readErrors_ok_iff json _ _).mp ⟨read, hread⟩) hreply
  | error e =>
    obtain ⟨what, rfl⟩ := decodes_readErrors _ _ _ e hread
    exact ⟨what, _, rfl⟩

/-- With the body at hand, its shape and its texts decide. -/
theorem surfaces_body_iff (h422 : response.statusCode = StatusCodes.unprocessableEntity)
    (hready : response.contentReady = .ok ()) (hjson : response.extractJson = .ok json) :
    response.Surfaces (processingHttpErrors response r) ↔
      ∃ record : ErrorRecord, record.Encodes json ∧ ∀ s ∈ record.texts, '\x00' ∉ s := by
  by_cases hreply : IsErrorReply json
  · obtain ⟨record, hencodes⟩ := isErrorReply_iff.mp hreply
    rw [processingHttpErrors_of_encodes h422 hready hjson hencodes]
    constructor
    · rintro ⟨e, hthrow, -, hrecord⟩
      cases hthrow
      have hmentions := (hrecord record json h422 hready hjson hencodes).2
      exact ⟨record, hencodes, (record.mentions_cStr_iff _).mp hmentions⟩
    · rintro ⟨record', hencodes', hnul⟩
      cases encodes_unique hencodes hencodes'
      refine ⟨_, rfl, rfl, fun record' json' _ _ hjson' hencodes' => ?_⟩
      cases Except.ok.inj (hjson.symm.trans hjson')
      cases encodes_unique hencodes hencodes'
      exact ⟨⟨_, rfl, rfl⟩, (record.mentions_cStr_iff _).mpr hnul⟩
  · have hbody : ¬ (response.contentReady = .ok () ∧
        ∃ json, response.extractJson = .ok json ∧ IsErrorReply json) := by
      rintro ⟨-, json', hjson', hreply'⟩
      cases Except.ok.inj (hjson.symm.trans hjson')
      exact hreply hreply'
    obtain ⟨what, t, hrun⟩ := processingHttpErrors_unreadable (r := r) h422 hready hjson hreply
    rw [hrun, surfaces_throw_iff hbody]
    constructor
    · intro hruntime
      cases hruntime
    · rintro ⟨record, hencodes, -⟩
      exact absurd (isErrorReply_iff.mpr ⟨record, hencodes⟩) hreply

/-- An error reply surfaces whole exactly if its body can be read. -/
theorem surfaces_iff : response.Surfaces (processingHttpErrors response r) ↔ response.Readable := by
  unfold Response.Readable
  by_cases h422 : response.statusCode = StatusCodes.unprocessableEntity
  · simp only [h422, true_imp_iff]
    cases hready : response.contentReady with
    | error e =>
      have hrun : processingHttpErrors response r = (.throw e, r) := by
        rw [processingHttpErrors, if_pos h422, hready]
        rfl
      rw [hrun, surfaces_throw_iff (by simp [hready])]
      rfl
    | ok =>
      cases hjson : response.extractJson with
      | error e =>
        have hrun : processingHttpErrors response r = (.throw e, r) := by
          rw [processingHttpErrors, if_pos h422, hready, bind_ok (lift_ok _ _), hjson]
          rfl
        rw [hrun, surfaces_throw_iff (by simp [hjson])]
        rfl
      | ok json => exact surfaces_body_iff h422 hready hjson
  · exact iff_of_true (surfaces_of_other h422) fun h => absurd h h422

end LicenseExtractor

/-- For every response but a 200 one. -/
theorem error_reply_surfaces_iff {request : RequestLicense} {attempt : ℤ} {net : Net} {response : Response}
    (hvalid : request.isValid = true) (hanswers : net.Answers attempt response)
    (hcode : response.statusCode ≠ StatusCodes.ok) :
    response.Surfaces (LicenseExtractor.processingLicense request attempt net {}) ↔ response.Readable := by
  rw [LicenseExtractor.processingLicense_of_answers hvalid hanswers, LicenseExtractor.processingResponse,
    bind_ok (update_run _ _), if_neg hcode]
  exact LicenseExtractor.surfaces_iff

def FieldError.toJson (fieldError : FieldError) : Json := .object [
  ("fieldPath".toList, .string fieldError.fieldName),
  ("message".toList, .string fieldError.message),
  ("validationErrorName".toList, .string fieldError.validationErrorName)]

/-- The UNP is not one: two field errors. -/
def wrongUnp : ErrorRecord where
  userMessage := "Validation failed".toList
  fieldErrors := [
    { message := "must be 9 digits".toList, fieldName := "unp".toList, validationErrorName := "Size".toList },
    { message := "unknown".toList, fieldName := "agentId".toList, validationErrorName := "Exists".toList }]

def wrongUnpJson : Json := .object [
  ("userMessage".toList, .string wrongUnp.userMessage),
  ("fieldErrors".toList, .array (wrongUnp.fieldErrors.map FieldError.toJson))]

theorem error_reply_surfaces_iff_wrongUnp : ∃ e t,
    LicenseExtractor.processingLicense ⟨['u'], ['n'], ['a'], ['h']⟩ 1
      (.replying StatusCodes.unprocessableEntity wrongUnpJson) {} = (.throw e, t) ∧
    (∃ errors, t.errors = some errors ∧ errors.fieldErrors = wrongUnp.fieldErrors) ∧
    Mentions (numeral 422 :: wrongUnp.texts) e.what := by
  have hencodes : wrongUnp.Encodes wrongUnpJson := by
    refine ⟨_, rfl, rfl, .inr ⟨_, rfl, ?_⟩⟩
    exact .cons ⟨_, rfl, rfl, rfl, rfl⟩ (.cons ⟨_, rfl, rfl, rfl, rfl⟩ .nil)
  have hnul : ∀ s ∈ wrongUnp.texts, '\x00' ∉ s := by decide
  let response : Response := {
    statusCode := StatusCodes.unprocessableEntity
    contentReady := .ok ()
    contentType := MimeTypes.applicationJson
    extractJson := .ok wrongUnpJson }
  have hanswers : (Net.replying StatusCodes.unprocessableEntity wrongUnpJson).Answers 1 response :=
    ⟨_, rfl, rfl⟩
  have hreadable : response.Readable := fun _ => ⟨wrongUnp, hencodes, hnul⟩
  have hvalid : (⟨['u'], ['n'], ['a'], ['h']⟩ : RequestLicense).isValid = true := rfl
  have hcode : response.statusCode ≠ StatusCodes.ok := by decide
  obtain ⟨e, hthrow, -, hrecord⟩ := (error_reply_surfaces_iff hvalid hanswers hcode).mpr hreadable
  exact ⟨e, _, Prod.ext hthrow rfl, hrecord wrongUnp wrongUnpJson rfl rfl rfl hencodes⟩

/-- A 422 reply whose body is an object without members. -/
theorem empty_body_escapes :
    let run := LicenseExtractor.processingLicense ⟨['u'], ['n'], ['a'], ['h']⟩ 1
      (.replying StatusCodes.unprocessableEntity (.object [])) {}
    run.1 = .throw (.jsonException "not a string".toList) ∧
      (Exn.jsonException "not a string".toList).isRuntimeError = false :=
  ⟨rfl, rfl⟩

end ItvpnAgent
