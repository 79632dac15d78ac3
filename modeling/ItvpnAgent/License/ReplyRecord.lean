import ItvpnAgent.License.LicenseChecker

/-! License replies as the server means them. A record is written as a JSON object
whose absent members are left out or null; `processing_license` reads it back as
long as it has a host status, and runs off its end when it has none. -/

namespace ItvpnAgent

open Kit Prog

/-- A value of the C++ type `int`. -/
abbrev CInt := {v : ℤ // FitsInt v}

structure StatusRecord where
  id : CInt
  name : Str

structure LicenseRecord where
  license : Option Str
  month : Option CInt
  year : Option CInt

structure ReplyRecord where
  message : Str
  hostStatus : Option StatusRecord
  hostLicense : Option LicenseRecord

/-! ### Encoding -/

/-- The encoding of an optional member; one that is missing reads as null. -/
def EncodesOpt {α : Type} (encodes : α → Json → Prop) : Option α → Json → Prop
  | none, json => json = .null
  | some a, json => encodes a json

def EncodesText (s : Str) (json : Json) : Prop := json = .string s

def EncodesInt (v : CInt) (json : Json) : Prop := json = .number v.1

def StatusRecord.Encodes (status : StatusRecord) (json : Json) : Prop :=
  ∃ fields, json = .object fields ∧
    Json.at_ fields "id".toList = .ok (.number status.id.1) ∧
    Json.at_ fields "name".toList = .ok (.string status.name)

def LicenseRecord.Encodes (license : LicenseRecord) (json : Json) : Prop :=
  ∃ fields, json = .object fields ∧
    EncodesOpt EncodesText license.license (Json.member fields "license".toList) ∧
    EncodesOpt EncodesInt license.month (Json.member fields "month".toList) ∧
    EncodesOpt EncodesInt license.year (Json.member fields "year".toList)

def ReplyRecord.Encodes (record : ReplyRecord) (json : Json) : Prop :=
  ∃ fields, json = .object fields ∧
    EncodesText record.message (Json.member fields "message".toList) ∧
    EncodesOpt StatusRecord.Encodes record.hostStatus (Json.member fields "hostStatus".toList) ∧
    EncodesOpt LicenseRecord.Encodes record.hostLicense (Json.member fields "hostLicense".toList)

/-! ### Decoding -/

def StatusRecord.decoded (status : StatusRecord) : HostStatus := ⟨status.id.1, status.name⟩

/-- What is missing reads as the empty text or as 0. -/
def LicenseRecord.decoded (license : LicenseRecord) : HostLicense where
  license := license.license.getD []
  month := (license.month.map Subtype.val).getD 0
  year := (license.year.map Subtype.val).getD 0

/-- The license of the record if its status is ACTIVE. -/
def ReplyRecord.decodedLicense (record : ReplyRecord) : Option HostLicense :=
  match record.hostStatus with
  | some status =>
    if status.id.1 = LicHostStatus.active then record.hostLicense.map LicenseRecord.decoded else none
  | none => none

/-- The result equals the record. -/
structure ReplyRecord.DecodedAs (record : ReplyRecord) (result : Result) : Prop where
  message : result.message = record.message
  hostStatus : result.hostStatus = record.hostStatus.map StatusRecord.decoded
  hostLicense : result.hostLicense = record.decodedLicense

theorem EncodesOpt.optText {s : Option Str} {json : Json} (h : EncodesOpt EncodesText s json) :
    OptText json (s.getD []) := by
  cases s with
  | none =>
    cases h
    exact .absent
  | some s =>
    cases h
    exact .text s

theorem EncodesOpt.optInteger {v : Option CInt} {json : Json} (h : EncodesOpt EncodesInt v json) :
    OptInteger json ((v.map Subtype.val).getD 0) := by
  cases v with
  | none =>
    cases h
    exact .absent
  | some v =>
    cases h
    have hnumber := OptInteger.number v.1
    rwa [toInt32_of_fitsInt v.2] at hnumber

theorem StatusRecord.Encodes.isHostStatus {status : StatusRecord} {json : Json} (h : status.Encodes json) :
    IsHostStatus json status.decoded := by
  obtain ⟨fields, rfl, hid, hname⟩ := h
  have hstatus := IsHostStatus.intro hid hname
  rwa [toInt32_of_fitsInt status.id.2] at hstatus

theorem LicenseRecord.Encodes.isHostLicense {license : LicenseRecord} {json : Json}
    (h : license.Encodes json) : IsHostLicense json license.decoded := by
  obtain ⟨fields, rfl, hlicense, hmonth, hyear⟩ := h
  exact .intro hlicense.optText hmonth.optInteger hyear.optInteger

/-- A record with a status is a reply of the grammar. -/
theorem ReplyRecord.Encodes.isReply {record : ReplyRecord} {json : Json} {status : StatusRecord}
    (h : record.Encodes json) (hstatus : record.hostStatus = some status) :
    IsReply json status.decoded record.decodedLicense := by
  obtain ⟨fields, rfl, hmessage, hencodes, hlicense⟩ := h
  rw [hstatus] at hencodes
  refine .intro hmessage hencodes.isHostStatus ?_
  rw [decodedLicense, hstatus]
  dsimp only
  by_cases hactive : status.id.1 = LicHostStatus.active
  · rw [if_pos hactive]
    cases hrecord : record.hostLicense with
    | none =>
      rw [hrecord] at hlicense
      exact .absent hactive hlicense
    | some license =>
      rw [hrecord] at hlicense
      exact .license hactive hlicense.isHostLicense
  · rw [if_neg hactive]
    exact .inactive hactive

/-! ### Where control runs off the end -/

/-- A JSON reply with status 200. -/
structure Response.Brings (response : Response) (json : Json) : Prop where
  statusCode : response.statusCode = StatusCodes.ok
  contentReady : response.contentReady = .ok ()
  contentType : response.contentType = MimeTypes.applicationJson
  extractJson : response.extractJson = .ok json

/-- An object with a message and without a host status. -/
def Json.LacksHostStatus (json : Json) : Prop :=
  ∃ fields message, json = .object fields ∧ member fields "message".toList = .string message ∧
    member fields "hostStatus".toList = .null

theorem ReplyRecord.Encodes.lacksHostStatus {record : ReplyRecord} {json : Json} (h : record.Encodes json)
    (hstatus : record.hostStatus = none) : json.LacksHostStatus := by
  obtain ⟨fields, rfl, hmessage, hencodes, -⟩ := h
  rw [hstatus] at hencodes
  exact ⟨fields, record.message, rfl, hmessage, hencodes⟩

namespace LicenseExtractor

variable {json : Json} {response : Response} {r r' t : Result}

theorem readLicense_message (json : Json) (status : HostStatus) (r : Result) :
    (readLicense json status r).2.message = r.message := by
  have hmoves : Moves (fun c t : Result => t.message = c.message) (readLicense json status) := by
    have htrans : ∀ s t u : Result, t.message = s.message → u.message = t.message → u.message = s.message :=
      fun _ _ _ h h' => h'.trans h
    have hlift {α : Type} (x : Except Exn α) :
        Moves (fun c t : Result => t.message = c.message) (lift x : Prog Result Exn α) := by
      intro s
      cases x <;> rfl
    exact .ite (.bind htrans (hlift _) fun _ => .ite (fun _ => rfl)
      (.bind htrans (hlift _) fun _ => fun _ => rfl)) fun _ => rfl
  exact hmoves r

/-- A message that could be read is a member of an object. -/
theorem object_of_message {message : Str} {s u : Result}
    (h : (lift (json.index "message".toList >>= Json.asString) : Prog Result Exn Str) s = (.ok message, u)) :
    ∃ fields, json = .object fields ∧ Json.member fields "message".toList = .string message := by
  obtain ⟨_, hindex, hstring⟩ := except_bind_ok.mp (lift_ok_iff.mp h).1
  obtain ⟨-, hnull⟩ | ⟨fields, rfl, hmember⟩ := Json.index_ok_iff.mp hindex
  · rw [hnull] at hstring
    cases hstring
  · exact ⟨fields, rfl, hmember.symm.trans (Json.asString_ok_iff.mp hstring)⟩

theorem message_of_readReply (h : readReply json r = (.ok r', t)) :
    ∃ fields, json = .object fields ∧ Json.member fields "message".toList = .string r'.message := by
  obtain ⟨message, u, hmessage, h⟩ := bind_ok_iff.mp h
  obtain ⟨fields, rfl, hmember⟩ := object_of_message hmessage
  refine ⟨fields, rfl, ?_⟩
  obtain ⟨_, v, hset, h⟩ := bind_ok_iff.mp h
  obtain ⟨status, v', hstatus, h⟩ := bind_ok_iff.mp h
  split at h
  · cases h
  · obtain ⟨hostStatus, w, hread, h⟩ := bind_ok_iff.mp h
    obtain ⟨_, w', hset', h⟩ := bind_ok_iff.mp h
    obtain ⟨_, w'', hlicense, h⟩ := bind_ok_iff.mp h
    cases h
    have hkept := readLicense_message (.object fields) hostStatus w'
    rw [hlicense] at hkept
    cases hset
    cases hset'
    rw [(lift_ok_iff.mp hread).2, (lift_ok_iff.mp hstatus).2] at hkept
    rw [hkept, hmember]

theorem hostStatus_of_readReply (hr : r.hostLicense = none) (h : readReply json r = (.ok r', t)) :
    ∃ status, r'.hostStatus = some status := by
  obtain ⟨status, license, hreply⟩ := isReply_of_readReply h
  obtain ⟨r'', hrun, hstatus, -⟩ := readReply_of_isReply hreply hr
  rw [h] at hrun
  cases hrun
  exact ⟨status, hstatus⟩

/-- Only a body without a host status lets control run off the end. -/
theorem readReply_undefined_iff : (readReply json r).1 = .undefined ↔ json.LacksHostStatus := by
  have hsafe (status : HostStatus) : Safe (readLicense json status) :=
    .ite ((safe_lift _).bind fun _ => .ite (safe_pure _)
      ((safe_lift _).bind fun _ => safe_update _)) (safe_pure _)
  constructor
  · intro h
    rcases bind_undefined_iff.mp h with h | ⟨message, u, hmessage, h⟩
    · exact absurd h (lift_ne_undefined _ _)
    obtain ⟨fields, rfl, hmember⟩ := object_of_message hmessage
    rcases bind_undefined_iff.mp h with h | ⟨_, v, -, h⟩
    · cases h
    rcases bind_undefined_iff.mp h with h | ⟨status, v', hstatus, h⟩
    · exact absurd h (lift_ne_undefined _ _)
    refine ⟨fields, message, rfl, hmember, ?_⟩
    cases (lift_ok_iff.mp hstatus).1
    split at h
    · next hnull => exact Json.isNull_iff.mp hnull
    · have hrest : Safe (lift (readHostStatus (Json.member fields "hostStatus".toList)) >>= fun hostStatus =>
          (update fun r : Result => { r with hostStatus := some hostStatus }) >>= fun _ =>
            readLicense (.object fields) hostStatus >>= fun _ => read) :=
        (safe_lift _).bind fun status => (safe_update _).bind fun _ => (hsafe status).bind fun _ => safe_read
      exact absurd h (hrest v')
  · rintro ⟨fields, message, rfl, hmessage, hnull⟩
    have hisNull : (Json.member fields "hostStatus".toList).isNull = true := Json.isNull_iff.mpr hnull
    rw [readReply, Json.index, except_ok_bind, hmessage, Json.asString, bind_ok (lift_ok _ _),
      bind_ok (update_run _ _), Json.index, bind_ok (lift_ok _ _), if_pos hisNull]
    rfl

/-! ### The whole response -/

theorem processingResponse_brings (h : response.Brings json) :
    processingResponse response r = readReply json { r with statusCode := response.statusCode } := by
  rw [processingResponse, bind_ok (update_run _ _), if_pos h.statusCode, h.contentReady,
    bind_ok (lift_ok _ _), if_neg (not_not.mpr h.contentType), h.extractJson, bind_ok (lift_ok _ _)]

/-- Every other response is not decoded: it throws. -/
theorem processingResponse_throws (h : ¬ ∃ json, response.Brings json) :
    ∃ e, (processingResponse response r).1 = .throw e := by
  rw [processingResponse, bind_ok (update_run _ _)]
  by_cases h200 : response.statusCode = StatusCodes.ok
  · rw [if_pos h200]
    cases hready : response.contentReady with
    | error e => exact ⟨e, rfl⟩
    | ok =>
      rw [bind_ok (lift_ok _ _)]
      by_cases hmime : response.contentType = MimeTypes.applicationJson
      · rw [if_neg (not_not.mpr hmime)]
        cases hjson : response.extractJson with
        | error e => exact ⟨e, rfl⟩
        | ok json => exact absurd ⟨json, h200, hready, hmime, hjson⟩ h
      · rw [if_pos hmime]
        exact ⟨_, rfl⟩
  · rw [if_neg h200]
    exact processingHttpErrors_throws response _

/-- A JSON reply is decoded; every other response throws. -/
theorem processingResponse_cases (response : Response) (r : Result) :
    (∃ json, response.Brings json ∧
      processingResponse response r = readReply json { r with statusCode := response.statusCode }) ∨
    ((¬ ∃ json, response.Brings json) ∧ ∃ e, (processingResponse response r).1 = .throw e) := by
  by_cases h : ∃ json, response.Brings json
  · obtain ⟨json, hbrings⟩ := h
    exact .inl ⟨json, hbrings, processingResponse_brings hbrings⟩
  · exact .inr ⟨h, processingResponse_throws h⟩

theorem readReply_ne_stuck : (readReply json r).1 ≠ .stuck := (throwsOnly_readReply json r).1

theorem processingResponse_undefined_iff :
    (processingResponse response r).1 = .undefined ↔ ∃ json, response.Brings json ∧ json.LacksHostStatus := by
  constructor
  · intro h
    rcases processingResponse_cases response r with ⟨json, hbrings, hrun⟩ | ⟨-, e, hthrow⟩
    · rw [hrun, readReply_undefined_iff] at h
      exact ⟨json, hbrings, h⟩
    · rw [h] at hthrow
      cases hthrow
  · rintro ⟨json, hjson, hlacks⟩
    rw [processingResponse_brings hjson, readReply_undefined_iff]
    exact hlacks

theorem processingResponse_ne_stuck (response : Response) (r : Result) :
    (processingResponse response r).1 ≠ .stuck := by
  rcases processingResponse_cases response r with ⟨json, -, hrun⟩ | ⟨-, e, hthrow⟩
  · rw [hrun]
    exact readReply_ne_stuck
  · rw [hthrow]
    nofun

theorem hostStatus_of_processingResponse (hr : r.hostLicense = none)
    (h : processingResponse response r = (.ok r', t)) : ∃ status, r'.hostStatus = some status := by
  rcases processingResponse_cases response r with ⟨json, -, hrun⟩ | ⟨-, e, hthrow⟩
  · rw [hrun] at h
    have hkept : ({ r with statusCode := response.statusCode } : Result).hostLicense = none := hr
    exact hostStatus_of_readReply hkept h
  · rw [h] at hthrow
    cases hthrow

variable {request : RequestLicense} {attempt : ℤ} {net : Net}

theorem processingLicense_undefined_iff :
    (processingLicense request attempt net {}).1 = .undefined ↔ request.isValid = true ∧
      ∃ response json, net.Answers attempt response ∧ response.Brings json ∧ json.LacksHostStatus := by
  constructor
  · intro h
    rcases bind_undefined_iff.mp h with h | ⟨response, u, hsend, h⟩
    · exact absurd h sendRequest_ne_undefined
    · obtain ⟨hvalid, hanswers, -⟩ := answers_of_sendRequest hsend
      obtain ⟨json, hbrings, hlacks⟩ := processingResponse_undefined_iff.mp h
      exact ⟨hvalid, response, json, hanswers, hbrings, hlacks⟩
  · rintro ⟨hvalid, response, json, hanswers, hbrings, hlacks⟩
    rw [processingLicense_of_answers hvalid hanswers, processingResponse_undefined_iff]
    exact ⟨json, hbrings, hlacks⟩

theorem hostStatus_of_processingLicense (h : processingLicense request attempt net {} = (.ok r', t)) :
    ∃ status, r'.hostStatus = some status := by
  obtain ⟨response, u, hsend, h⟩ := bind_ok_iff.mp h
  obtain ⟨-, -, rfl⟩ := answers_of_sendRequest hsend
  exact hostStatus_of_processingResponse rfl h

/-- Throws, or returns a result whose host status can be looked at. -/
def EndsDefined : Outcome Exn Result → Prop
  | .ok result => ∃ status, result.hostStatus = some status
  | .throw _ => True
  | .undefined | .stuck => False

theorem processingResponse_endsDefined_iff : EndsDefined (processingResponse response {}).1 ↔
    ¬ ∃ json, response.Brings json ∧ json.LacksHostStatus := by
  rw [← processingResponse_undefined_iff (r := {})]
  cases hrun : processingResponse response {} with
  | mk o t =>
    cases o with
    | ok result => simpa [EndsDefined] using hostStatus_of_processingResponse rfl hrun
    | throw e => simp [EndsDefined]
    | undefined => simp [EndsDefined]
    | stuck => exact absurd (by rw [hrun]) (processingResponse_ne_stuck response {})

/-- A record is read back exactly if it has a host status. -/
theorem decoded_iff {record : ReplyRecord} (hbrings : response.Brings json) (hencodes : record.Encodes json) :
    (∃ result t, processingResponse response {} = (.ok result, t) ∧ record.DecodedAs result) ↔
      record.hostStatus.isSome = true := by
  cases hstatus : record.hostStatus with
  | none =>
    refine iff_of_false ?_ nofun
    rintro ⟨result, t, hrun, -⟩
    have hundefined : (processingResponse response {}).1 = .undefined :=
      processingResponse_undefined_iff.mpr ⟨json, hbrings, hencodes.lacksHostStatus hstatus⟩
    rw [hrun] at hundefined
    cases hundefined
  | some status =>
    refine iff_of_true ?_ rfl
    have hread := processingResponse_brings (r := {}) hbrings
    obtain ⟨result, hrun, hhost, hlicense⟩ := readReply_of_isReply
      (r := { statusCode := response.statusCode }) (hencodes.isReply hstatus) rfl
    refine ⟨result, result, hread.trans hrun, ?_, ?_, hlicense⟩
    · obtain ⟨fields, rfl, hmessage⟩ := message_of_readReply hrun
      obtain ⟨fields', hsame, hmessage', -⟩ := hencodes
      cases hsame
      rw [EncodesText, hmessage] at hmessage'
      exact Json.string.inj hmessage'
    · rw [hhost, hstatus]
      rfl

end LicenseExtractor

namespace LicenseChecker

variable {τ : Type}

/-- A request is sent, and the reply to it has no host status. -/
structure ReceivesNoStatus (env : Env) (attempt : ℤ) : Prop where
  uri : env.uri = .ok ()
  uid : ∃ uid, generateMachineUid env = .ok uid ∧ (requestOf env uid).isValid = true
  client : env.client = .ok ()
  reply : ∃ response json, env.net.Answers attempt response ∧ response.Brings json ∧ json.LacksHostStatus

theorem requestLicense_undefined_iff {env : Env} {attempt : ℤ} {c : Ctx τ} :
    (requestLicense env attempt c).1 = .undefined ↔ ReceivesNoStatus env attempt := by
  constructor
  · intro h
    rcases bind_undefined_iff.mp h with h | ⟨request, u, hmake, h⟩
    · have hsafe : Safe (makeLicenseExtractor (τ := τ) env attempt) :=
        (safe_update _).bind fun _ => (safe_lift _).bind fun _ => (safe_lift _).bind fun _ =>
          (safe_lift _).bind fun _ => safe_pure _
      exact absurd h (hsafe c)
    · simp only [makeLicenseExtractor, bind_ok_iff, lift_ok_iff] at hmake
      obtain ⟨_, _, -, _, _, ⟨huri, -⟩, uid, _, ⟨huid, -⟩, _, _, ⟨hclient, -⟩, hrequest⟩ := hmake
      cases hrequest
      rw [within_run, LicenseExtractor.processingLicense_undefined_iff] at h
      obtain ⟨hvalid, hreply⟩ := h
      exact ⟨huri, ⟨uid, huid, hvalid⟩, hclient, hreply⟩
  · rintro ⟨huri, ⟨uid, huid, hvalid⟩, hclient, hreply⟩
    have hmake : makeLicenseExtractor env attempt c =
        (.ok (requestOf env uid), c.act (.makeLicenseExtractor attempt)) := by
      simp [makeLicenseExtractor, bind_run, huri, huid, hclient]
    rw [requestLicense, bind_ok hmake, within_run, LicenseExtractor.processingLicense_undefined_iff]
    exact ⟨hvalid, hreply⟩

/-- The request of either task and its use of `host_status()`. -/
theorem hostStatus_undefined_iff {env : Env} {attempt : ℤ} {c : Ctx τ} :
    ((requestLicense env attempt >>= fun result => deref result.hostStatus) c).1 = .undefined ↔
      ReceivesNoStatus env attempt := by
  rw [bind_undefined_iff, requestLicense_undefined_iff, or_iff_left_iff_imp]
  rintro ⟨result, u, hrequest, h⟩
  obtain ⟨request, v, -, hprocessing⟩ := bind_ok_iff.mp hrequest
  obtain ⟨status, hstatus⟩ : ∃ status, result.hostStatus = some status := by
    rw [within_run, Prod.mk.injEq] at hprocessing
    exact LicenseExtractor.hostStatus_of_processingLicense (Prod.ext hprocessing.1 rfl)
  rw [hstatus] at h
  cases h

end LicenseChecker

/-- Decoding undoes encoding for the records that have a host status; a response
is processed to a throw or to a result with a status unless it is a JSON reply
without one; and such a reply alone makes the `host_status()` of a task undefined. -/
theorem reply_decoded_iff {request : RequestLicense} {attempt : ℤ} {net : Net} {response : Response}
    (hvalid : request.isValid = true) (hanswers : net.Answers attempt response) {τ : Type} (env : Env)
    (c : Ctx τ) :
    (∀ (record : ReplyRecord) (json : Json), response.Brings json → record.Encodes json →
      ((∃ result t, LicenseExtractor.processingLicense request attempt net {} = (.ok result, t) ∧
        record.DecodedAs result) ↔ record.hostStatus.isSome = true)) ∧
    (LicenseExtractor.EndsDefined (LicenseExtractor.processingLicense request attempt net {}).1 ↔
      ¬ ∃ json, response.Brings json ∧ json.LacksHostStatus) ∧
    (((LicenseChecker.requestLicense env attempt >>= fun result => deref result.hostStatus) c).1 ≠
      .undefined ↔ ¬ LicenseChecker.ReceivesNoStatus env attempt) := by
  rw [LicenseExtractor.processingLicense_of_answers hvalid hanswers]
  refine ⟨fun record json hbrings hencodes => ?_, ?_, ?_⟩
  · exact LicenseExtractor.decoded_iff hbrings hencodes
  · exact LicenseExtractor.processingResponse_endsDefined_iff
  · exact not_congr LicenseChecker.hostStatus_undefined_iff

/-- A license without month and year. -/
def undated : Json := .object [
  ("message".toList, .string "OK".toList),
  ("hostStatus".toList, .object [("id".toList, .number 1), ("name".toList, .string "ACTIVE".toList)]),
  ("hostLicense".toList, .object [("license".toList, .string "h.p.d.s".toList), ("year".toList, .null)])]

theorem reply_decoded_iff_undated : ∃ result t,
    LicenseExtractor.processingLicense ⟨['u'], ['n'], ['a'], ['h']⟩ 1 (.replying StatusCodes.ok undated) {} = (.ok result, t) ∧
      result.hostLicense = some { license := "h.p.d.s".toList, month := 0, year := 0 } := by
  have hid : FitsInt 1 := by decide
  let record : ReplyRecord := {
    message := "OK".toList
    hostStatus := some ⟨⟨1, hid⟩, "ACTIVE".toList⟩
    hostLicense := some ⟨some "h.p.d.s".toList, none, none⟩ }
  have hencodes : record.Encodes undated := by
    refine ⟨_, rfl, rfl, ?_, ?_⟩
    · exact ⟨_, rfl, rfl, rfl⟩
    · exact ⟨_, rfl, rfl, rfl, rfl⟩
  let response : Response := {
    statusCode := StatusCodes.ok
    contentReady := .ok ()
    contentType := MimeTypes.applicationJson
    extractJson := .ok undated }
  have hbrings : response.Brings undated := ⟨rfl, rfl, rfl, rfl⟩
  have hanswers : (Net.replying StatusCodes.ok undated).Answers 1 response := ⟨_, rfl, rfl⟩
  have hvalid : (⟨['u'], ['n'], ['a'], ['h']⟩ : RequestLicense).isValid = true := rfl
  obtain ⟨hdecodes, -, -⟩ := reply_decoded_iff hvalid hanswers
    (Env.still (shippedOptions "/usr/sbin/openvpn".toList) { day := 16, month := 1, year := 2020 })
    { task := (), outside := { log := [], licFile := none } }
  obtain ⟨result, t, hrun, hdecoded⟩ := (hdecodes record undated hbrings hencodes).mpr rfl
  exact ⟨result, t, hrun, hdecoded.hostLicense⟩

/-- A reply of nothing but a message. -/
def messageOnly : Json := .object [("message".toList, .string "OK".toList)]

theorem messageOnly_undefined :
    (⟨"OK".toList, none, none⟩ : ReplyRecord).Encodes messageOnly ∧
    (LicenseExtractor.processingLicense ⟨['u'], ['n'], ['a'], ['h']⟩ 1 (.replying StatusCodes.ok messageOnly) {}).1 =
      .undefined :=
  ⟨⟨_, rfl, rfl, rfl, rfl⟩, rfl⟩

end ItvpnAgent
