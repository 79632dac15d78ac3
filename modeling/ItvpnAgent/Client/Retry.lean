import Mathlib.Data.Nat.Find
import ItvpnAgent.Client.LicenseExtractor

/-! The retry loop of `send_request`. It is left at the first attempt that is no
HTTP failure within the deadline, with the response or the exception of that
attempt; the attempts behind it are never made. -/

namespace ItvpnAgent

open Kit Prog

/-- The retry loop is left after this attempt: it got a response, it failed for
another reason than HTTP, or the deadline is over. -/
def Attempt.ends (deadline : ℤ) (a : Attempt) : Bool :=
  match a.outcome with
  | .error (.httpException _ _) => a.now > deadline
  | _ => true

/-- The response or the exception of the attempt. -/
def Attempt.result (a : Attempt) : Outcome Exn Response :=
  match a.outcome with
  | .ok response => .ok response
  | .error e => .throw e

/-- The errors an attempt that ends the loop leaves: the code of an HTTP failure. -/
def Attempt.errors (a : Attempt) : Option Errors :=
  match a.outcome with
  | .error (.httpException _ code) => some { code := some code }
  | _ => none

/-- The attempt failed in the HTTP library. -/
def Attempt.IsHttpException (a : Attempt) : Prop := ∃ what code, a.outcome = .error (.httpException what code)

theorem Attempt.ends_of_not_isHttpException {deadline : ℤ} {a : Attempt} (h : ¬ a.IsHttpException) :
    a.ends deadline = true := by
  unfold Attempt.ends
  split
  · next what code ha => exact absurd ⟨what, code, ha⟩ h
  · rfl

theorem Attempt.ends_of_late {deadline : ℤ} {a : Attempt} (h : a.now > deadline) :
    a.ends deadline = true := by
  unfold Attempt.ends
  split
  · exact decide_eq_true h
  · rfl

/-- The network ends the retry loop with this response. -/
def Net.Answers (net : Net) (attempt : ℤ) (response : Response) : Prop :=
  ∃ a, net.attempts.find? (Attempt.ends (net.start + attempt * 1000000000)) = some a ∧
    a.outcome = .ok response

namespace LicenseExtractor

/-- The loop as a whole: the first attempt that ends it decides. -/
theorem retry_eq (deadline : ℤ) (attempts : List Attempt) (r : Result) :
    retry deadline attempts r =
      match attempts.find? (Attempt.ends deadline) with
      | some a => (a.result, { r with errors := a.errors.or r.errors })
      | none => (.stuck, r) := by
  induction attempts with
  | nil => rfl
  | cons a rest ih =>
    rw [retry, List.find?_cons]
    cases ha : a.outcome with
    | ok response =>
      simp [Attempt.ends, Attempt.result, Attempt.errors, ha]
    | error e =>
      cases e with
      | httpException what code =>
        by_cases hnow : a.now > deadline
        · simp [Attempt.ends, Attempt.result, Attempt.errors, ha, hnow, setErrors, bind_run]
        · simp [Attempt.ends, ha, hnow, ih]
      | processError | filesystemError | runtimeError | jsonException | uriException | other =>
        simp [Attempt.ends, Attempt.result, Attempt.errors, ha]

theorem retry_ok_iff {deadline : ℤ} {attempts : List Attempt} {response : Response} {r t : Result} :
    retry deadline attempts r = (.ok response, t) ↔
      (∃ a, attempts.find? (Attempt.ends deadline) = some a ∧ a.outcome = .ok response) ∧ t = r := by
  rw [retry_eq]
  cases attempts.find? (Attempt.ends deadline) with
  | none => simp
  | some a =>
    cases ha : a.outcome with
    | ok response' =>
      simp only [Attempt.result, Attempt.errors, ha, Option.none_or, Prod.mk.injEq, Outcome.ok.injEq,
        Option.some.injEq, exists_eq_left', Except.ok.injEq]
      rw [eq_comm (a := t)]
    | error e => simp [Attempt.result, ha]

theorem wp_retry {p : Exn → Prop} (deadline : ℤ) (attempts : List Attempt)
    (P : Response → Result → Prop) (r : Result) :
    wp (retry deadline attempts) P (fun e _ => p e) r ↔
      ∀ a, attempts.find? (Attempt.ends deadline) = some a → Meets a.outcome p fun res => P res r := by
  rw [wp, retry_eq]
  cases attempts.find? (Attempt.ends deadline) with
  | none => simp
  | some a => cases ha : a.outcome <;> simp [Attempt.result, Attempt.errors, ha, Meets]

/-! ### The request behind the loop -/

theorem isValid_eq_false_iff {request : RequestLicense} :
    request.isValid = false ↔
      request.uid = [] ∨ request.unp = [] ∨ request.agent = [] ∨ request.hostType = [] := by
  simp [RequestLicense.isValid, Decidable.imp_iff_not_or, or_assoc]

theorem sendRequest_invalid {request : RequestLicense} (h : request.isValid = false) (attempt : ℤ)
    (net : Net) (r : Result) : sendRequest request attempt net r =
      (.throw (.runtimeError "message for request is empty".toList), r) := by
  rw [sendRequest, h]
  rfl

theorem sendRequest_valid {request : RequestLicense} (h : request.isValid = true) (attempt : ℤ)
    (net : Net) (r : Result) : sendRequest request attempt net r =
      retry (net.start + attempt * 1000000000) net.attempts r := by
  rw [sendRequest, h]
  rfl

section Answers

variable {request : RequestLicense} {attempt : ℤ} {net : Net} {response : Response} {r t : Result}

/-- Once the loop has ended with a response, the response is all there is to process. -/
theorem processingLicense_of_answers (hvalid : request.isValid = true) (h : net.Answers attempt response) :
    processingLicense request attempt net {} = processingResponse response {} := by
  obtain ⟨a, ha, hresponse⟩ := h
  have hsend : sendRequest request attempt net {} = (.ok response, {}) := by
    rw [sendRequest_valid hvalid, retry_ok_iff]
    exact ⟨⟨a, ha, hresponse⟩, rfl⟩
  rw [processingLicense, bind_ok hsend]

theorem sendRequest_ne_undefined : (sendRequest request attempt net r).1 ≠ .undefined := by
  cases hvalid : request.isValid with
  | false =>
    rw [sendRequest_invalid hvalid]
    nofun
  | true =>
    rw [sendRequest_valid hvalid, retry_eq]
    cases net.attempts.find? _ with
    | none => nofun
    | some a => cases ha : a.outcome <;> simp [Attempt.result, ha]

theorem answers_of_sendRequest (h : sendRequest request attempt net r = (.ok response, t)) :
    request.isValid = true ∧ net.Answers attempt response ∧ t = r := by
  cases hvalid : request.isValid with
  | false =>
    rw [sendRequest_invalid hvalid] at h
    cases h
  | true =>
    rw [sendRequest_valid hvalid] at h
    obtain ⟨hanswers, hsame⟩ := retry_ok_iff.mp h
    exact ⟨rfl, hanswers, hsame⟩

end Answers

/-! ### The attempts that are made -/

/-- A network whose attempts would go on for ever, cut after `n` of them. A call
that is not through with `n` attempts is still running on this network. -/
def attemptsUpTo (start : ℤ) (attempts : ℕ → Attempt) (n : ℕ) : Net where
  start := start
  attempts := (List.range n).map attempts

/-- The first attempt that ends the loop. -/
def IsFirstEnding (deadline : ℤ) (attempts : ℕ → Attempt) (i : ℕ) : Prop :=
  (attempts i).ends deadline = true ∧ ∀ j < i, (attempts j).ends deadline = false

section Attempts

variable {deadline start : ℤ} {attempts : ℕ → Attempt} {i n : ℕ}

theorem find_attemptsUpTo_none (h : IsFirstEnding deadline attempts i) (hn : n ≤ i) :
    (attemptsUpTo start attempts n).attempts.find? (Attempt.ends deadline) = none := by
  rw [List.find?_eq_none]
  intro a ha
  obtain ⟨j, hj, rfl⟩ := List.mem_map.mp ha
  have hlt : j < i := Nat.lt_of_lt_of_le (List.mem_range.mp hj) hn
  rw [h.2 j hlt]
  exact Bool.false_ne_true

theorem find_attemptsUpTo_some (h : IsFirstEnding deadline attempts i) (hn : i < n) :
    (attemptsUpTo start attempts n).attempts.find? (Attempt.ends deadline) = some (attempts i) := by
  have hfirst : (List.range n).find? (Attempt.ends deadline ∘ attempts) = some i := by
    rw [List.find?_range_eq_some]
    refine ⟨h.1, List.mem_range.mpr hn, fun j hj => ?_⟩
    rw [Function.comp_apply, h.2 j hj]
    rfl
  rw [attemptsUpTo, List.find?_map, hfirst]
  rfl

/-- One attempt that is no HTTP failure, or a clock that passes the deadline for
good, is enough to end the loop. -/
theorem exists_isFirstEnding
    (h : (∃ j, ¬ (attempts j).IsHttpException) ∨ ∃ j, ∀ k ≥ j, (attempts k).IsHttpException →
      (attempts k).now > deadline) : ∃ i, IsFirstEnding deadline attempts i := by
  have hsome : ∃ i, (attempts i).ends deadline = true := by
    rcases h with ⟨j, hj⟩ | ⟨j, hlate⟩
    · exact ⟨j, Attempt.ends_of_not_isHttpException hj⟩
    · by_cases hj : (attempts j).IsHttpException
      · exact ⟨j, Attempt.ends_of_late (hlate j le_rfl hj)⟩
      · exact ⟨j, Attempt.ends_of_not_isHttpException hj⟩
  refine ⟨Nat.find hsome, Nat.find_spec hsome, fun j hj => ?_⟩
  exact Bool.eq_false_iff.mpr (Nat.find_min hsome hj)

end Attempts

/-- A request with an empty field makes no attempt. Any other makes the attempts
up to the first that ends the loop: with fewer to draw on it is still running,
and whatever would come behind it changes nothing. -/
theorem sendRequest_makes (request : RequestLicense) (attempt start : ℤ) (attempts : ℕ → Attempt) :
    (request.uid = [] ∨ request.unp = [] ∨ request.agent = [] ∨ request.hostType = [] →
      ∀ n, sendRequest request attempt (attemptsUpTo start attempts n) {} =
        (.throw (.runtimeError "message for request is empty".toList), {})) ∧
    (request.uid ≠ [] ∧ request.unp ≠ [] ∧ request.agent ≠ [] ∧ request.hostType ≠ [] →
      (∀ i, IsFirstEnding (start + attempt * 1000000000) attempts i →
        (∀ n ≤ i, sendRequest request attempt (attemptsUpTo start attempts n) {} = (.stuck, {})) ∧
        ∀ n > i, sendRequest request attempt (attemptsUpTo start attempts n) {} =
          ((attempts i).result, { errors := (attempts i).errors })) ∧
      ((∃ j, ¬ (attempts j).IsHttpException) ∨
          (∃ j, ∀ k ≥ j, (attempts k).IsHttpException →
            (attempts k).now > start + attempt * 1000000000) →
        ∃ i, IsFirstEnding (start + attempt * 1000000000) attempts i)) := by
  refine ⟨fun hempty n => ?_, fun hfields => ?_⟩
  · exact sendRequest_invalid (isValid_eq_false_iff.mpr hempty) attempt _ _
  · have hvalid : request.isValid = true := by
      rw [← Bool.not_eq_false, isValid_eq_false_iff]
      tauto
    have hrun (n : ℕ) : sendRequest request attempt (attemptsUpTo start attempts n) {} =
        retry (start + attempt * 1000000000) (attemptsUpTo start attempts n).attempts {} :=
      sendRequest_valid hvalid attempt _ _
    refine ⟨fun i hi => ⟨fun n hn => ?_, fun n hn => ?_⟩, exists_isFirstEnding⟩
    · rw [hrun, retry_eq, find_attemptsUpTo_none hi hn]
    · rw [hrun, retry_eq, find_attemptsUpTo_some hi hn]
      simp only [Option.or_none]

/-- A request cancelled within the deadline, then a reply without content for ever. -/
def secondTime : ℕ → Attempt
  | 0 => { outcome := .error (.httpException "Request canceled by user.".toList 110), now := 1000000000 }
  | _ + 1 => {
    outcome := .ok {
      statusCode := 204
      contentReady := .ok ()
      contentType := []
      extractJson := .ok .null }
    now := 2000000000 }

theorem sendRequest_makes_two : IsFirstEnding 60000000000 secondTime 1 ∧
    ∀ n > 1, (sendRequest ⟨['u'], ['n'], ['a'], ['h']⟩ 60 (attemptsUpTo 0 secondTime n) {}) =
      ((secondTime 1).result, {}) := by
  have hfirst : IsFirstEnding 60000000000 secondTime 1 := by
    refine ⟨rfl, fun j hj => ?_⟩
    obtain rfl : j = 0 := by omega
    rfl
  have hvalid : ['u'] ≠ [] ∧ ['n'] ≠ [] ∧ ['a'] ≠ [] ∧ ['h'] ≠ [] := by decide
  exact ⟨hfirst, fun n hn =>
    (((sendRequest_makes ⟨['u'], ['n'], ['a'], ['h']⟩ 60 0 secondTime).2 hvalid).1 1 hfirst).2 n hn⟩

end LicenseExtractor

end ItvpnAgent
