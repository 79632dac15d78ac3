import ItvpnAgent.Client.Retry

/-! What the client accepts. The format of a license reply and of an error reply
is a grammar on JSON values; the two decoders return on exactly the replies of
the grammar, with the values it assigns, and leave through a `json_exception` or
off the end of the function on all others. -/

namespace ItvpnAgent

open Kit Prog

/-! ### The format of the replies -/

/-- A text member that may be missing or null. -/
inductive OptText : Json → Str → Prop
  | absent : OptText .null []
  | text (s : Str) : OptText (.string s) s

/-- An integer member that may be missing or null. -/
inductive OptInteger : Json → ℤ → Prop
  | absent : OptInteger .null 0
  | number (n : ℤ) : OptInteger (.number n) (toInt32 n)

inductive IsHostStatus : Json → HostStatus → Prop
  | intro {fields : List (Str × Json)} {id : ℤ} {name : Str}
    (hid : Json.at_ fields "id".toList = .ok (.number id))
    (hname : Json.at_ fields "name".toList = .ok (.string name)) :
    IsHostStatus (.object fields) ⟨toInt32 id, name⟩

inductive IsHostLicense : Json → HostLicense → Prop
  | intro {fields : List (Str × Json)} {year month : ℤ} {license : Str}
    (hlicense : OptText (Json.member fields "license".toList) license)
    (hmonth : OptInteger (Json.member fields "month".toList) month)
    (hyear : OptInteger (Json.member fields "year".toList) year) :
    IsHostLicense (.object fields) ⟨year, month, license⟩

/-- The license of a reply; it is looked at only if the status is ACTIVE. -/
inductive CarriesLicense (fields : List (Str × Json)) (status : HostStatus) :
    Option HostLicense → Prop
  | inactive (h : status.id ≠ LicHostStatus.active) : CarriesLicense fields status none
  | absent (h : status.id = LicHostStatus.active)
    (hnull : Json.member fields "hostLicense".toList = .null) : CarriesLicense fields status none
  | license {hl : HostLicense} (h : status.id = LicHostStatus.active)
    (hlicense : IsHostLicense (Json.member fields "hostLicense".toList) hl) :
    CarriesLicense fields status (some hl)

inductive IsReply : Json → HostStatus → Option HostLicense → Prop
  | intro {fields : List (Str × Json)} {message : Str} {status : HostStatus}
    {license : Option HostLicense}
    (hmessage : Json.member fields "message".toList = .string message)
    (hstatus : IsHostStatus (Json.member fields "hostStatus".toList) status)
    (hlicense : CarriesLicense fields status license) : IsReply (.object fields) status license

inductive IsFieldError : Json → Prop
  | intro {fields : List (Str × Json)} {message name path : Str}
    (hmessage : Json.at_ fields "message".toList = .ok (.string message))
    (hname : Json.at_ fields "validationErrorName".toList = .ok (.string name))
    (hpath : Json.at_ fields "fieldPath".toList = .ok (.string path)) :
    IsFieldError (.object fields)

inductive IsErrorReply : Json → Prop
  | plain {fields : List (Str × Json)} {message : Str}
    (hmessage : Json.member fields "userMessage".toList = .string message)
    (hnull : Json.member fields "fieldErrors".toList = .null) : IsErrorReply (.object fields)
  | fields {fields : List (Str × Json)} {message : Str} {items : List Json}
    (hmessage : Json.member fields "userMessage".toList = .string message)
    (hitems : Json.member fields "fieldErrors".toList = .array items)
    (hall : ∀ item ∈ items, IsFieldError item) : IsErrorReply (.object fields)

/-! ### Decoders -/

/-- The code returns, or throws a `json_exception`. -/
def Decodes {α : Type} (x : Except Exn α) : Prop :=
  ∀ e, x = .error e → ∃ what, e = .jsonException what

namespace Decodes

variable {α β : Type}

theorem ok (a : α) : Decodes (.ok a : Except Exn α) := by
  intro e h
  cases h

theorem bind {x : Except Exn α} {f : α → Except Exn β} (hx : Decodes x)
    (hf : ∀ a, Decodes (f a)) : Decodes (x >>= f) := by
  cases x with
  | error e =>
    rintro _ ⟨⟩
    exact hx e rfl
  | ok a => exact hf a

theorem ite {p : Prop} [Decidable p] {x y : Except Exn α} (hx : Decodes x) (hy : Decodes y) :
    Decodes (if p then x else y) := by
  split
  · exact hx
  · exact hy

end Decodes

namespace Json

theorem decodes_index (json : Json) (key : Str) : Decodes (json.index key) := by
  cases json <;> rintro e ⟨⟩ <;> exact ⟨_, rfl⟩

theorem decodes_at (fields : List (Str × Json)) (key : Str) : Decodes (at_ fields key) := by
  unfold at_
  split <;> rintro e ⟨⟩
  exact ⟨_, rfl⟩

theorem decodes_asString (json : Json) : Decodes json.asString := by
  cases json <;> rintro e ⟨⟩ <;> exact ⟨_, rfl⟩

theorem decodes_asInteger (json : Json) : Decodes json.asInteger := by
  cases json <;> rintro e ⟨⟩ <;> exact ⟨_, rfl⟩

theorem decodes_asObject (json : Json) : Decodes json.asObject := by
  cases json <;> rintro e ⟨⟩ <;> exact ⟨_, rfl⟩

theorem decodes_asArray (json : Json) : Decodes json.asArray := by
  cases json <;> rintro e ⟨⟩ <;> exact ⟨_, rfl⟩

theorem index_ok_iff {json : Json} {key : Str} {v : Json} :
    json.index key = .ok v ↔
      (json = .null ∧ v = .null) ∨ ∃ fields, json = .object fields ∧ v = member fields key := by
  cases json <;> simp [index, eq_comm]

@[simp] theorem asString_ok_iff {json : Json} {s : Str} : json.asString = .ok s ↔ json = .string s := by
  cases json <;> simp [asString]

@[simp] theorem asInteger_ok_iff {json : Json} {v : ℤ} :
    json.asInteger = .ok v ↔ ∃ n, json = .number n ∧ toInt32 n = v := by
  cases json <;> simp [asInteger]

@[simp] theorem asObject_ok_iff {json : Json} {fields : List (Str × Json)} :
    json.asObject = .ok fields ↔ json = .object fields := by
  cases json <;> simp [asObject]

@[simp] theorem asArray_ok_iff {json : Json} {items : List Json} :
    json.asArray = .ok items ↔ json = .array items := by
  cases json <;> simp [asArray]

theorem isNull_iff {json : Json} : json.isNull = true ↔ json = .null := by
  cases json <;> simp [isNull]

end Json

namespace LicenseExtractor

open Json

theorem decodes_readHostStatus (json : Json) : Decodes (readHostStatus json) :=
  (decodes_asObject json).bind fun _ =>
    (decodes_at _ _).bind fun _ => (decodes_asInteger _).bind fun _ =>
      (decodes_at _ _).bind fun _ => (decodes_asString _).bind fun _ => .ok _

theorem readHostStatus_ok_iff {json : Json} {status : HostStatus} :
    readHostStatus json = .ok status ↔ IsHostStatus json status := by
  simp only [readHostStatus, except_bind_ok, asObject_ok_iff, asInteger_ok_iff, asString_ok_iff]
  constructor
  · rintro ⟨fields, rfl, _, hid, _, ⟨id, rfl, rfl⟩, _, hname, _, rfl, h⟩
    cases h
    exact .intro hid hname
  · rintro ⟨hid, hname⟩
    exact ⟨_, rfl, _, hid, _, ⟨_, rfl, rfl⟩, _, hname, _, rfl, rfl⟩

theorem decodes_readUnlessNull {α : Type} {read : Json → Except Exn α} (hread : ∀ v, Decodes (read v))
    (default : α) (json : Json) (key : Str) : Decodes (readUnlessNull read default json key) :=
  (decodes_index json key).bind fun _ => .ite (.ok _) (hread _)

theorem readUnlessNull_object {α : Type} (read : Json → Except Exn α) (default : α)
    (fields : List (Str × Json)) (key : Str) :
    readUnlessNull read default (.object fields) key =
      if (member fields key).isNull then .ok default else read (member fields key) := rfl

theorem readText_ok_iff {fields : List (Str × Json)} {key s : Str} :
    readUnlessNull asString [] (.object fields) key = .ok s ↔ OptText (member fields key) s := by
  rw [readUnlessNull_object]
  cases member fields key with
  | null =>
    refine ⟨fun h => ?_, fun h => ?_⟩
    · cases h
      exact .absent
    · cases h
      rfl
  | string =>
    refine ⟨fun h => ?_, fun h => ?_⟩
    · cases h
      exact .text _
    · cases h
      rfl
  | bool | number | array | object => exact ⟨nofun, nofun⟩

theorem readInteger_ok_iff {fields : List (Str × Json)} {key : Str} {v : ℤ} :
    readUnlessNull asInteger 0 (.object fields) key = .ok v ↔ OptInteger (member fields key) v := by
  rw [readUnlessNull_object]
  cases member fields key with
  | null =>
    refine ⟨fun h => ?_, fun h => ?_⟩
    · cases h
      exact .absent
    · cases h
      rfl
  | number =>
    refine ⟨fun h => ?_, fun h => ?_⟩
    · cases h
      exact .number _
    · cases h
      rfl
  | bool | string | array | object => exact ⟨nofun, nofun⟩

theorem decodes_readHostLicense (json : Json) : Decodes (readHostLicense json) :=
  (decodes_readUnlessNull decodes_asString _ _ _).bind fun _ =>
    (decodes_readUnlessNull decodes_asInteger _ _ _).bind fun _ =>
      (decodes_readUnlessNull decodes_asInteger _ _ _).bind fun _ => .ok _

theorem readHostLicense_ok_iff {json : Json} {hl : HostLicense} (hnull : json ≠ .null) :
    readHostLicense json = .ok hl ↔ IsHostLicense json hl := by
  cases json with
  | null => contradiction
  | object fields =>
    simp only [readHostLicense, except_bind_ok, readText_ok_iff, readInteger_ok_iff]
    constructor
    · rintro ⟨license, hlicense, month, hmonth, year, hyear, h⟩
      cases h
      exact .intro hlicense hmonth hyear
    · rintro ⟨hlicense, hmonth, hyear⟩
      exact ⟨_, hlicense, _, hmonth, _, hyear, rfl⟩
  | bool | number | string | array => exact ⟨nofun, nofun⟩

/-! ### License replies -/

theorem readLicense_of_carriesLicense {fields : List (Str × Json)} {status : HostStatus}
    {license : Option HostLicense} (h : CarriesLicense fields status license) (r : Result)
    (hr : r.hostLicense = none) :
    readLicense (.object fields) status r = (.ok (), { r with hostLicense := license }) := by
  cases h with
  | inactive hid =>
    rw [readLicense, if_neg hid, ← hr]
    rfl
  | absent hid hno =>
    rw [readLicense, if_pos hid, Json.index, bind_ok (lift_ok _ _), hno, ← hr]
    rfl
  | license hid hl =>
    have hno : member fields "hostLicense".toList ≠ .null := by
      intro hno
      rw [hno] at hl
      cases hl
    rw [readLicense, if_pos hid, Json.index, bind_ok (lift_ok _ _), if_neg (mt isNull_iff.mp hno),
      (readHostLicense_ok_iff hno).mpr hl]
    rfl

theorem carriesLicense_of_readLicense {fields : List (Str × Json)} {status : HostStatus} {r t : Result}
    (h : readLicense (.object fields) status r = (.ok (), t)) :
    ∃ license, CarriesLicense fields status license := by
  unfold readLicense at h
  split at h
  · next hid =>
    simp only [bind_ok_iff, lift_ok_iff, Json.index, Except.ok.injEq] at h
    obtain ⟨v, _, ⟨rfl, rfl⟩, h⟩ := h
    split at h
    · next hno => exact ⟨none, .absent hid (isNull_iff.mp hno)⟩
    · next hno =>
      obtain ⟨hl, _, hread, -⟩ := bind_ok_iff.mp h
      have hread := (lift_ok_iff.mp hread).1
      exact ⟨some hl, .license hid ((readHostLicense_ok_iff (mt isNull_iff.mpr hno)).mp hread)⟩
  · next hid => exact ⟨none, .inactive hid⟩

/-- A reply of the grammar is decoded to its status and its license. -/
theorem readReply_of_isReply {json : Json} {status : HostStatus} {license : Option HostLicense}
    {r : Result} (h : IsReply json status license) (hr : r.hostLicense = none) :
    ∃ r', readReply json r = (.ok r', r') ∧ r'.hostStatus = some status ∧ r'.hostLicense = license := by
  obtain ⟨hmessage, hstatus, hlicense⟩ := h
  rename_i fields message
  have hnull : ¬ (member fields "hostStatus".toList).isNull = true := by
    rw [isNull_iff]
    intro hnull
    rw [hnull] at hstatus
    cases hstatus
  rw [readReply, Json.index, except_ok_bind, hmessage, Json.asString, bind_ok (lift_ok _ _),
    bind_ok (update_run _ _), Json.index, bind_ok (lift_ok _ _), if_neg hnull,
    readHostStatus_ok_iff.mpr hstatus, bind_ok (lift_ok _ _), bind_ok (update_run _ _)]
  exact ⟨_, bind_ok (readLicense_of_carriesLicense hlicense _ hr), rfl, rfl⟩

/-- Only replies of the grammar are decoded. -/
theorem isReply_of_readReply {json : Json} {r r' t : Result}
    (h : readReply json r = (.ok r', t)) : ∃ status license, IsReply json status license := by
  simp only [readReply, bind_ok_iff, lift_ok_iff, except_bind_ok, asString_ok_iff] at h
  obtain ⟨message, _, ⟨⟨_, hindex, rfl⟩, rfl⟩, _, _, -, v, _, ⟨hv, rfl⟩, h⟩ := h
  obtain ⟨-, h'⟩ | ⟨fields, rfl, hmessage⟩ := index_ok_iff.mp hindex
  · cases h'
  cases hv
  split at h
  · cases h
  · simp only [bind_ok_iff, lift_ok_iff, readHostStatus_ok_iff] at h
    obtain ⟨status, _, ⟨hstatus, rfl⟩, _, _, -, _, _, hlicense, -⟩ := h
    obtain ⟨license, hlicense⟩ := carriesLicense_of_readLicense hlicense
    exact ⟨status, license, .intro hmessage.symm hstatus hlicense⟩

theorem throwsOnly_readReply (json : Json) :
    ThrowsOnly (fun e => ∃ what, e = Exn.jsonException what) (readReply json) := by
  have hmessage : Decodes (do (← json.index "message".toList).asString) :=
    (decodes_index _ _).bind fun _ => decodes_asString _
  have hlicense (status : HostStatus) :
      ThrowsOnly (fun e => ∃ what, e = Exn.jsonException what) (readLicense json status) :=
    .ite ((throwsOnly_lift (decodes_index _ _)).bind fun _ => .ite (throwsOnly_pure _)
      ((throwsOnly_lift (decodes_readHostLicense _)).bind fun _ => throwsOnly_update _))
      (throwsOnly_pure _)
  exact (throwsOnly_lift hmessage).bind fun _ => (throwsOnly_update _).bind fun _ =>
    (throwsOnly_lift (decodes_index _ _)).bind fun _ => .ite throwsOnly_undef
      ((throwsOnly_lift (decodes_readHostStatus _)).bind fun _ => (throwsOnly_update _).bind fun _ =>
        (hlicense _).bind fun _ => throwsOnly_read)

/-! ### Error replies -/

theorem decodes_readFieldErrors : ∀ (items : List Json) (errors : Errors) (error : Str),
    Decodes (readFieldErrors items errors error)
  | [], _, _ => .ok _
  | item :: rest, _, _ =>
    (decodes_asObject item).bind fun _ =>
      (decodes_at _ _).bind fun _ => (decodes_asString _).bind fun _ =>
        (decodes_at _ _).bind fun _ => (decodes_asString _).bind fun _ =>
          (decodes_at _ _).bind fun _ => (decodes_asString _).bind fun _ =>
            decodes_readFieldErrors rest _ _

theorem readFieldErrors_ok_iff {items : List Json} {errors : Errors} {error : Str} :
    (∃ r, readFieldErrors items errors error = .ok r) ↔ ∀ item ∈ items, IsFieldError item := by
  induction items generalizing errors error with
  | nil => simp [readFieldErrors]
  | cons item rest ih =>
    simp only [readFieldErrors, except_bind_ok, asObject_ok_iff, asString_ok_iff,
      List.forall_mem_cons]
    constructor
    · rintro ⟨r, fields, rfl, _, hm, _, rfl, _, hn, _, rfl, _, hp, _, rfl, h⟩
      exact ⟨.intro hm hn hp, ih.mp ⟨r, h⟩⟩
    · rintro ⟨⟨hm, hn, hp⟩, hrest⟩
      obtain ⟨r, hr⟩ := ih.mpr hrest
      exact ⟨r, _, rfl, _, hm, _, rfl, _, hn, _, rfl, _, hp, _, rfl, hr⟩

theorem decodes_readErrors (json : Json) (errors : Errors) (error : Str) :
    Decodes (readErrors json errors error) :=
  (decodes_index _ _).bind fun _ => (decodes_asString _).bind fun _ =>
    (decodes_index _ _).bind fun _ => .ite (.ok _) <|
      (decodes_asArray _).bind fun _ => decodes_readFieldErrors _ _ _

theorem readErrors_ok_iff (json : Json) (errors : Errors) (error : Str) :
    (∃ r, readErrors json errors error = .ok r) ↔ IsErrorReply json := by
  simp only [readErrors, except_bind_ok, asString_ok_iff]
  constructor
  · rintro ⟨r, _, hindex, message, rfl, v, hv, h⟩
    obtain ⟨-, h'⟩ | ⟨fields, rfl, hmessage⟩ := index_ok_iff.mp hindex
    · cases h'
    rw [Json.index, Except.ok.injEq] at hv
    subst hv
    split at h
    · next hnull => exact .plain hmessage.symm (isNull_iff.mp hnull)
    · obtain ⟨items, hitems, h⟩ := except_bind_ok.mp h
      exact .fields hmessage.symm (asArray_ok_iff.mp hitems) (readFieldErrors_ok_iff.mp ⟨r, h⟩)
  · rintro (⟨hmessage, hnull⟩ | ⟨hmessage, hitems, hall⟩)
    · exact ⟨_, _, by rw [Json.index, hmessage], _, rfl, _, rfl, by rw [hnull]; rfl⟩
    · obtain ⟨r, hr⟩ := readFieldErrors_ok_iff.mpr hall
      refine ⟨r, _, by rw [Json.index, hmessage], _, rfl, _, rfl, ?_⟩
      rw [hitems]
      exact hr

end LicenseExtractor

/-! ### The whole request -/

/-- The response is processed to a status and a license that satisfy `P`, or to
an exception that satisfies `p`. -/
def Response.Yields (p : Exn → Prop) (P : HostStatus → Option HostLicense → Prop) (r : Response) :
    Prop :=
  if r.statusCode = StatusCodes.ok then
    Meets r.contentReady p fun _ =>
      r.contentType = MimeTypes.applicationJson →
        Meets r.extractJson p fun json =>
          ∃ status license, IsReply json status license ∧ P status license
  else
    r.statusCode = StatusCodes.unprocessableEntity →
      Meets r.contentReady p fun _ => Meets r.extractJson p IsErrorReply

/-- What a handler of `svc` has to accept at least, and cannot accept. -/
structure Clauses (p : Exn → Prop) : Prop where
  runtimeError : ∀ e, e.isRuntimeError = true → p e
  mimeTypes : ∀ what, p (.httpException what ErrorCode.mimeTypes)
  jsonException : ∀ what, ¬ p (.jsonException what)

/-- The response is a reply of the grammar, sent as JSON with status 200. -/
structure Response.Carries (r : Response) (status : HostStatus) (license : Option HostLicense) : Prop where
  statusCode : r.statusCode = StatusCodes.ok
  contentReady : r.contentReady = .ok ()
  contentType : r.contentType = MimeTypes.applicationJson
  reply : ∃ json, r.extractJson = .ok json ∧ IsReply json status license

/-- The retry loop ends with a response of this content. -/
def Net.Delivers (net : Net) (attempt : ℤ) (status : HostStatus) (license : Option HostLicense) : Prop :=
  ∃ a response, net.attempts.find? (Attempt.ends (net.start + attempt * 1000000000)) = some a ∧
    a.outcome = .ok response ∧ response.Carries status license

namespace LicenseExtractor

open Json

section Ok

variable {status : HostStatus} {license : Option HostLicense} {r : Result}

/-- An error reply always ends in an exception. -/
theorem processingHttpErrors_throws (response : Response) (r : Result) :
    ∃ e, (processingHttpErrors response r).1 = .throw e := by
  unfold processingHttpErrors
  dsimp only
  split
  · cases response.contentReady with
    | error e => exact ⟨e, rfl⟩
    | ok =>
      rw [bind_ok (lift_ok _ _)]
      cases response.extractJson with
      | error e => exact ⟨e, rfl⟩
      | ok json =>
        rw [bind_ok (lift_ok _ _)]
        cases readErrors json _ _ with
        | error e => exact ⟨e, rfl⟩
        | ok read => exact ⟨_, rfl⟩
  · split <;> exact ⟨_, rfl⟩

theorem processingHttpErrors_ne_ok {response : Response} {res t : Result} :
    processingHttpErrors response r ≠ (.ok res, t) := by
  obtain ⟨e, he⟩ := processingHttpErrors_throws response r
  intro h
  rw [h] at he
  cases he

theorem processingResponse_ok_iff {response : Response} (hr : r.hostLicense = none) :
    (∃ res t, processingResponse response r = (.ok res, t) ∧ res.hostStatus = some status ∧
      res.hostLicense = license) ↔ response.Carries status license := by
  constructor
  · rintro ⟨res, t, h, hst, hlic⟩
    obtain ⟨_, u, hu, h⟩ := bind_ok_iff.mp h
    cases hu
    split at h
    · next h200 =>
      obtain ⟨_, _, h', h⟩ := bind_ok_iff.mp h
      obtain ⟨hready, rfl⟩ := lift_ok_iff.mp h'
      split at h
      · obtain ⟨_, _, -, h⟩ := bind_ok_iff.mp h
        cases h
      · next hmime =>
        obtain ⟨json, _, h', h⟩ := bind_ok_iff.mp h
        obtain ⟨hjson, rfl⟩ := lift_ok_iff.mp h'
        obtain ⟨status', license', hreply⟩ := isReply_of_readReply h
        obtain ⟨r', hrun, hst', hlic'⟩ :=
          readReply_of_isReply (r := { r with statusCode := response.statusCode }) hreply hr
        rw [hrun] at h
        cases h
        rw [hst, Option.some.injEq] at hst'
        subst hst' hlic hlic'
        exact ⟨h200, hready, not_not.mp hmime, json, hjson, hreply⟩
    · exact absurd h processingHttpErrors_ne_ok
  · rintro ⟨h200, hready, hmime, json, hjson, hreply⟩
    obtain ⟨r', hrun, hst, hlic⟩ :=
      readReply_of_isReply (r := { r with statusCode := response.statusCode }) hreply hr
    refine ⟨r', r', ?_, hst, hlic⟩
    rw [processingResponse, bind_ok (update_run _ _), if_pos h200, hready, bind_ok (lift_ok _ _),
      if_neg (not_not.mpr hmime), hjson, bind_ok (lift_ok _ _), hrun]

theorem processingLicense_ok_iff {request : RequestLicense} {attempt : ℤ} {net : Net} :
    (∃ res t, processingLicense request attempt net {} = (.ok res, t) ∧
      res.hostStatus = some status ∧ res.hostLicense = license) ↔
      request.isValid = true ∧ net.Delivers attempt status license := by
  unfold processingLicense sendRequest Net.Delivers
  split
  · next hvalid =>
    simp only [bind_ok_iff, retry_ok_iff, hvalid, true_and]
    constructor
    · rintro ⟨res, t, ⟨response, _, ⟨⟨a, ha, hok⟩, rfl⟩, h⟩, hst, hlic⟩
      exact ⟨a, response, ha, hok, (processingResponse_ok_iff rfl).mp ⟨res, t, h, hst, hlic⟩⟩
    · rintro ⟨a, response, ha, hok, h⟩
      obtain ⟨res, t, h, hst, hlic⟩ := (processingResponse_ok_iff (r := {}) rfl).mpr h
      exact ⟨res, t, ⟨response, _, ⟨⟨a, ha, hok⟩, rfl⟩, h⟩, hst, hlic⟩
  · next hvalid =>
    refine iff_of_false ?_ fun h => hvalid h.1
    rintro ⟨res, t, h, -⟩
    obtain ⟨_, _, h, -⟩ := bind_ok_iff.mp h
    cases h

end Ok

variable {p : Exn → Prop} {P : HostStatus → Option HostLicense → Prop}

theorem wp_readReply (hp : Clauses p) (json : Json) {r : Result} (hr : r.hostLicense = none) :
    wp (readReply json) (fun res _ => ∃ status, res.hostStatus = some status ∧ P status res.hostLicense)
        (fun e _ => p e) r ↔
      ∃ status license, IsReply json status license ∧ P status license := by
  constructor
  · intro h
    by_cases hreply : ∃ status license, IsReply json status license
    · obtain ⟨status, license, hreply⟩ := hreply
      obtain ⟨r', hrun, hst, rfl⟩ := readReply_of_isReply hreply hr
      rw [wp, hrun] at h
      obtain ⟨_, hst', hP⟩ := h
      rw [hst, Option.some.injEq] at hst'
      subst hst'
      exact ⟨status, _, hreply, hP⟩
    · obtain ⟨hstuck, hthrow⟩ := throwsOnly_readReply json r
      rw [wp] at h
      split at h
      · next hrun => exact absurd (isReply_of_readReply hrun) hreply
      · next hrun =>
        obtain ⟨what, rfl⟩ := hthrow _ (by rw [hrun])
        exact absurd h (hp.jsonException what)
      · exact h.elim
      · next hrun => exact absurd (by rw [hrun]) hstuck
  · rintro ⟨status, license, hreply, hP⟩
    obtain ⟨r', hrun, hst, rfl⟩ := readReply_of_isReply hreply hr
    rw [wp, hrun]
    exact ⟨status, hst, hP⟩

theorem meets_readErrors (hp : Clauses p) {json : Json} {errors : Errors} {error : Str} :
    Meets (readErrors json errors error) p (fun _ => True) ↔ IsErrorReply json := by
  rw [← readErrors_ok_iff json errors error]
  cases h : readErrors json errors error with
  | ok a => simp [Meets]
  | error e =>
    obtain ⟨what, rfl⟩ := decodes_readErrors _ _ _ e h
    simp [Meets, hp.jsonException what]

theorem wp_processingHttpErrors (hp : Clauses p) {response : Response}
    {P : Result → Result → Prop} {r : Result} :
    wp (processingHttpErrors response) P (fun e _ => p e) r ↔
      (response.statusCode = StatusCodes.unprocessableEntity →
        Meets response.contentReady p fun _ => Meets response.extractJson p IsErrorReply) := by
  have hrt (what : Str) : p (.runtimeError what) := hp.runtimeError _ rfl
  by_cases h422 : response.statusCode = StatusCodes.unprocessableEntity
  · simp only [processingHttpErrors, h422, if_true, wp_bind, wp_lift, setErrors, wp_update, wp_raise,
      hrt, meets_readErrors hp, true_imp_iff]
  · by_cases h502 : response.statusCode = StatusCodes.badGateway
    · simp [processingHttpErrors, h502, StatusCodes.badGateway, StatusCodes.unprocessableEntity,
        setErrors, hrt]
    · simp [processingHttpErrors, h422, h502, hrt]

theorem wp_processingResponse (hp : Clauses p) {response : Response} {r : Result}
    (hr : r.hostLicense = none) :
    wp (processingResponse response)
        (fun res _ => ∃ status, res.hostStatus = some status ∧ P status res.hostLicense)
        (fun e _ => p e) r ↔ response.Yields p P := by
  unfold processingResponse Response.Yields
  rw [wp_bind, wp_update]
  split
  · by_cases hmime : response.contentType = MimeTypes.applicationJson
    · simp only [hmime, ne_eq, not_true_eq_false, if_false, wp_bind, wp_lift, true_imp_iff]
      have hread (json : Json) := wp_readReply (P := P) hp json
        (r := { r with statusCode := response.statusCode }) hr
      simp only [hread]
    · simp [hmime, wp_lift, setErrors, hp.mimeTypes]
  · exact wp_processingHttpErrors hp

/-- What decides how a request ends: whether it is complete, and then the
attempt that ends the retry loop. -/
theorem wp_processingLicense (hp : Clauses p) (request : RequestLicense) (attempt : ℤ) (net : Net) :
    wp (processingLicense request attempt net)
        (fun res _ => ∃ status, res.hostStatus = some status ∧ P status res.hostLicense)
        (fun e _ => p e) {} ↔
      (request.isValid = true →
        ∀ a, net.attempts.find? (Attempt.ends (net.start + attempt * 1000000000)) = some a →
          Meets a.outcome p (Response.Yields p P)) := by
  unfold processingLicense sendRequest
  split
  · next hvalid =>
    simp only [wp_bind, wp_retry, hvalid, true_imp_iff]
    simp only [wp_processingResponse hp]
  · next hvalid =>
    have hrt := hp.runtimeError (.runtimeError "message for request is empty".toList) rfl
    simp only [wp_bind, wp_raise, hrt, hvalid, Bool.false_eq_true, false_imp_iff]

end LicenseExtractor

/-! ### A server that answers -/

/-- The first attempt gets this JSON with this status. -/
def Net.replying (statusCode : ℕ) (json : Json) : Net where
  start := 0
  attempts := [{
    outcome := .ok {
      statusCode := statusCode
      contentReady := .ok ()
      contentType := MimeTypes.applicationJson
      extractJson := .ok json }
    now := 0 }]

def licenseFields (hl : HostLicense) : List (Str × Json) := [
  ("license".toList, .string hl.license),
  ("month".toList, .number hl.month),
  ("year".toList, .number hl.year)]

/-- The first attempt gets an ACTIVE reply with this license. -/
def Net.answering (hl : HostLicense) : Net where
  start := 0
  attempts := [{
    outcome := .ok {
      statusCode := StatusCodes.ok
      contentReady := .ok ()
      contentType := MimeTypes.applicationJson
      extractJson := .ok (.object [
        ("message".toList, .string "OK".toList),
        ("hostStatus".toList, .object [("id".toList, .number 1), ("name".toList, .string "ACTIVE".toList)]),
        ("hostLicense".toList, .object (licenseFields hl))]) }
    now := 0 }]

theorem Net.delivers_answering {hl : HostLicense}
    (h : LicenseExtractor.readHostLicense (.object (licenseFields hl)) = .ok hl) (attempt : ℤ) :
    (Net.answering hl).Delivers attempt ⟨1, "ACTIVE".toList⟩ (some hl) :=
  ⟨_, _, rfl, rfl, {
    statusCode := rfl
    contentReady := rfl
    contentType := rfl
    reply := ⟨_, rfl, .intro rfl (LicenseExtractor.readHostStatus_ok_iff.mp rfl)
      (.license rfl ((LicenseExtractor.readHostLicense_ok_iff (by nofun)).mp h))⟩ }⟩

end ItvpnAgent
