import Zemo.Coordinator.Start
import Zemo.Worker.Serve

set_option autoImplicit false

/-! # The coordinator's side of an executor session

A session reserves a request (`prepare_operation`), and dispatches a reserved request once its
intent is durable (`dispatch_prepared`): it signs the request, sends it, waits for one frame and
verifies that frame as the answer. A session that cannot tell what became of a request is poisoned
and dispatches nothing any more. -/

namespace Zemo.ExecutorV2.Channel

open Checked

/-- The direction of a request as the wire has it. -/
def wireDirection : ExecutorRequestDirection → OperationDirection
  | .forward => .forward
  | .rollback => .rollback

/-- The direction as a request identity has it. -/
def recordedDirection : OperationDirection → ExecutorRequestDirection
  | .forward => .forward
  | .rollback => .rollback

@[simp] theorem wireDirection_recordedDirection (direction : OperationDirection) :
    wireDirection (recordedDirection direction) = direction := by
  cases direction <;> rfl

/-- What does not change in a session. `idText` writes an operation identifier. -/
structure Client where
  wire : Wire
  hashes : Hashes
  responseDigest : ExecutorRequestIdentity → ExecutorOutcome → String
  idText : OperationStepId → String
  openSession : OpenSession
  sessionKey : Bytes32
  identity : ExecutorSessionIdentity

/-- The variables of a `ProcessApprovedExecutorSession`. -/
structure Session where
  nextSequence : Nat
  responseVerifier : CoordinatorResponseVerifier
  attempted : List (OperationStepId × Bool)
  prepared : Option ExecutorRequestIdentity
  poisoned : Bool

/-- The session after `open_session`. -/
def Session.new : Session where
  nextSequence := 1
  responseVerifier := .new
  attempted := []
  prepared := none
  poisoned := false

structure DispatchResult where
  outcome : ExecutorOutcome
  responseDigestHex : String

/-- The text of an error that says the executor is unavailable. -/
def unavailableText (message : String) : String :=
  "the isolated approved-operation executor is unavailable: " ++ message

def Session.poison (s : Session) : Session := { s with poisoned := true }

section

variable (client : Client)

/-! ## Reserving a request -/

/-- `prepare_operation`; `nonce` is what `fresh_request_nonce` answers. -/
def prepareOperation (operationId : OperationStepId) (direction : OperationDirection)
    (nonce : Except ApprovedExecutorError Bytes32) (s : Session) :
    Except ApprovedExecutorError ExecutorRequestIdentity × Session :=
  if s.poisoned = true ∨ s.prepared.isSome = true then
    (.error (.ambiguous "the executor session cannot prepare another request"), s)
  else if (operationId, decide (direction = .rollback)) ∈ s.attempted then
    (.error (.ambiguous
      "an operation direction cannot be attempted twice in one child session"), s)
  else
    let s := { s with attempted := (operationId, decide (direction = .rollback)) :: s.attempted }
    let text := client.idText operationId
    if (client.openSession.envelope.operation text).isNone = true
        ∨ client.openSession.authorization.permits text direction = false then
      (.error (.ambiguous "operation is outside the immutable session authorization"), s)
    else
      match nonce with
      | .error error => (.error error, s)
      | .ok nonce =>
        match prepareExecutorRequestIdentity client.hashes client.identity operationId
            (recordedDirection direction) s.nextSequence nonce with
        | .error error => (.error error, s)
        | .ok request =>
          if s.nextSequence + 1 < 2 ^ 64 then
            (.ok request, { s with nextSequence := s.nextSequence + 1, prepared := some request })
          else (.error (.ambiguous "sequence overflow"), s)

/-! ## Dispatching it -/

/-- The operation a request is for, bound to the event of its intent. -/
def bindOperation (request : ExecutorRequestIdentity) (intent : CommittedJournalEventBinding) :
    OperationBinding where
  operationId := client.idText request.operationId
  direction := wireDirection request.direction
  journalIntent := intent

/-- The frame for a request; `now` is what the clock answers. -/
def signRequest (request : ExecutorRequestIdentity) (intent : CommittedJournalEventBinding)
    (now : Except String Int) : Except ApprovedExecutorError AuthenticatedOperationRequest := do
  (validateJournalIntent intent).mapError fun error => .ambiguous error.text
  let now ← now.mapError fun message => .ambiguous (unavailableText message)
  (AuthenticatedOperationRequest.signed client.wire client.openSession request.requestSequence
    request.requestNonce now
    (min (saturate (now + maxMessageLifetimeMs)) client.openSession.expiresAtUnixMs)
    (bindOperation client request intent) client.sessionKey).mapError
      fun error => .ambiguous error.text

/-- `dispatch_prepared` until it sends the frame. -/
def beginDispatch (request : ExecutorRequestIdentity) (intent : CommittedJournalEventBinding)
    (now : Except String Int) (s : Session) :
    Except ApprovedExecutorError AuthenticatedOperationRequest × Session :=
  if s.poisoned = true then
    (.error (.ambiguous "the committed request does not match the prepared session permit"), s)
  else if s.prepared ≠ some request then
    (.error (.ambiguous "the committed request does not match the prepared session permit"),
      { s with prepared := none, poisoned := true })
  else (signRequest client request intent now, { s with prepared := none })

/-- `dispatch_prepared` once the frame was sent. `answer` is what came back and `later` what the
    clock answers then. -/
def finishDispatch (request : ExecutorRequestIdentity) (operation : OperationBinding)
    (answer : Except String ExecutorFrame) (later : Except String Int) (s : Session) :
    Except ApprovedExecutorError DispatchResult × Session :=
  match answer with
  | .error message => (.error (.ambiguous (unavailableText message)), s.poison)
  | .ok (.operationResponse response) =>
    match later with
    -- the clock is read for the arguments of `verify_next`, and its error is returned at once
    | .error message => (.error (.ambiguous (unavailableText message)), s)
    | .ok now =>
      let (outcome, verifier) := s.responseVerifier.verifyNext client.wire response
        client.openSession operation client.sessionKey now
      match outcome with
      | .error error =>
        (.error (.ambiguous error.text), { s with responseVerifier := verifier, poisoned := true })
      | .ok outcome =>
        (.ok { outcome, responseDigestHex := client.responseDigest request outcome },
          { s with responseVerifier := verifier })
  | .ok _ =>
    (.error (.ambiguous "executor returned an unexpected frame after dispatch"), s.poison)

end

/-! ## What the parts do -/

section

variable {client : Client} {s : Session} {request : ExecutorRequestIdentity}

/-- What a request is reserved with. -/
structure Reserved (operationId : OperationStepId) (direction : OperationDirection) (s : Session)
    (request : ExecutorRequestIdentity) (s' : Session) : Prop where
  running : s.poisoned = false
  free : s.prepared = none
  fresh : (operationId, decide (direction = .rollback)) ∉ s.attempted
  names : request.operationId = operationId
  turned : request.direction = recordedDirection direction
  sequence : request.requestSequence = s.nextSequence
  valid : request.requestSequence ≠ 0 ∧ request.requestNonce.isZero = false
  after : s' = { s with
    nextSequence := s.nextSequence + 1
    attempted := (operationId, decide (direction = .rollback)) :: s.attempted
    prepared := some request }

/-- A reservation gives the request the next number, or changes at most the list of attempts. -/
theorem prepareOperation_cases (operationId : OperationStepId) (direction : OperationDirection)
    (nonce : Except ApprovedExecutorError Bytes32) :
    (∃ request, (prepareOperation client operationId direction nonce s).1 = .ok request ∧
      Reserved operationId direction s request
        (prepareOperation client operationId direction nonce s).2) ∨
    ((prepareOperation client operationId direction nonce s).1.toOption = none ∧
      ∃ attempted, s.attempted ⊆ attempted ∧
        (prepareOperation client operationId direction nonce s).2 = { s with attempted }) := by
  unfold prepareOperation
  split
  · exact .inr ⟨rfl, s.attempted, List.Subset.refl _, rfl⟩
  next hfree =>
  split
  · exact .inr ⟨rfl, s.attempted, List.Subset.refl _, rfl⟩
  next hfresh =>
  dsimp only
  split
  · exact .inr ⟨rfl, _, List.subset_cons_self _ _, rfl⟩
  split
  · exact .inr ⟨rfl, _, List.subset_cons_self _ _, rfl⟩
  split
  · exact .inr ⟨rfl, _, List.subset_cons_self _ _, rfl⟩
  next nonce _ request hrequest =>
  split
  · simp only [not_or, Bool.not_eq_true, Option.isSome_eq_false_iff, Option.isNone_iff_eq_none]
      at hfree
    unfold prepareExecutorRequestIdentity at hrequest
    split at hrequest
    · cases hrequest
    next hvalid =>
    rw [not_or, Bool.not_eq_true] at hvalid
    obtain rfl := Except.ok.inj hrequest
    exact .inl ⟨_, rfl, hfree.1, hfree.2, hfresh, rfl, rfl, rfl, hvalid, rfl⟩
  · exact .inr ⟨rfl, _, List.subset_cons_self _ _, rfl⟩

theorem signRequest_ok {intent : CommittedJournalEventBinding} {now : Except String Int}
    {frame : AuthenticatedOperationRequest}
    (h : signRequest client request intent now = .ok frame) :
    frame.sequence = request.requestSequence ∧ frame.operation = bindOperation client request intent
      ∧ frame.sessionId = client.openSession.sessionId := by
  simp only [signRequest, bind_eq_ok] at h
  obtain ⟨_, _, now, _, h⟩ := h
  cases hsigned : AuthenticatedOperationRequest.signed client.wire client.openSession
      request.requestSequence request.requestNonce now
      (min (saturate (now + maxMessageLifetimeMs)) client.openSession.expiresAtUnixMs)
      (bindOperation client request intent) client.sessionKey with
  | error error => rw [hsigned] at h; cases h
  | ok signed =>
    rw [hsigned] at h
    obtain rfl := Except.ok.inj h
    obtain ⟨hsequence, hoperation, -, hsession⟩ := AuthenticatedOperationRequest.signed_ok hsigned
    exact ⟨hsequence, hoperation, hsession⟩

theorem signRequest_ambiguous {intent : CommittedJournalEventBinding} {now : Except String Int}
    {error : ApprovedExecutorError} (h : signRequest client request intent now = .error error) :
    ∃ message, error = .ambiguous message := by
  unfold signRequest at h
  cases hintent : validateJournalIntent intent with
  | error e => rw [hintent] at h; exact ⟨_, (Except.error.inj h).symm⟩
  | ok _ =>
    cases now with
    | error message => rw [hintent] at h; exact ⟨_, (Except.error.inj h).symm⟩
    | ok now =>
      rw [hintent] at h
      dsimp only [Except.mapError, Bind.bind, Except.bind] at h
      split at h
      · exact ⟨_, (Except.error.inj h).symm⟩
      · cases h

/-- A request can be signed: its operation is valid, the clock can be read, and the session lasts
    long enough. -/
structure Signable (client : Client) (request : ExecutorRequestIdentity)
    (intent : CommittedJournalEventBinding) (now : Except String Int) : Prop where
  operation : (bindOperation client request intent).validate client.wire.parseUuid = .ok ()
  time : ∃ time, now = .ok time ∧
    validateMessageTime time
      (min (saturate (time + maxMessageLifetimeMs)) client.openSession.expiresAtUnixMs)
      client.openSession.expiresAtUnixMs time = .ok ()

theorem Signable.signRequest {intent : CommittedJournalEventBinding} {now : Except String Int}
    (h : Signable client request intent now) (hsequence : request.requestSequence ≠ 0)
    (hnonce : request.requestNonce.isZero = false) :
    ∃ frame, signRequest client request intent now = .ok frame := by
  obtain ⟨hoperation, time, rfl, htime⟩ := h
  have hintent : validateJournalIntent intent = .ok () := by
    simp only [OperationBinding.validate, bind_eq_ok] at hoperation
    obtain ⟨_, _, hintent⟩ := hoperation
    exact hintent
  simp only [Channel.signRequest, AuthenticatedOperationRequest.signed, hintent, hoperation, htime,
    validated, require_pos _ (And.intro hsequence hnonce), Except.mapError, Bind.bind, Except.bind]
  exact ⟨_, rfl⟩

/-- A dispatch signs its frame with the permit taken, or it returns an ambiguous error. It is not
    poisoned then only when the request had its permit and could not be signed. -/
theorem beginDispatch_cases (intent : CommittedJournalEventBinding) (now : Except String Int) :
    (∃ frame, beginDispatch client request intent now s = (.ok frame, { s with prepared := none }) ∧
      s.poisoned = false ∧ s.prepared = some request ∧
      signRequest client request intent now = .ok frame) ∨
    ∃ message s', beginDispatch client request intent now s = (.error (.ambiguous message), s') ∧
      (s' = s ∧ s.poisoned = true ∨ s' = { s with prepared := none, poisoned := true } ∨
        s' = { s with prepared := none } ∧ s.poisoned = false ∧ s.prepared = some request ∧
          ∃ error, signRequest client request intent now = .error error) := by
  unfold beginDispatch
  split
  · next hpoisoned => exact .inr ⟨_, _, rfl, .inl ⟨rfl, hpoisoned⟩⟩
  next hrunning =>
  split
  · exact .inr ⟨_, _, rfl, .inr (.inl rfl)⟩
  next hpermit =>
  rw [not_not] at hpermit
  rw [Bool.not_eq_true] at hrunning
  cases hsign : signRequest client request intent now with
  | ok frame => exact .inl ⟨frame, rfl, hrunning, hpermit, rfl⟩
  | error error =>
    obtain ⟨message, rfl⟩ := signRequest_ambiguous hsign
    exact .inr ⟨message, _, rfl, .inr (.inr ⟨rfl, hrunning, hpermit, _, rfl⟩)⟩

/-- A dispatch that waited returns the outcome of a verified response, or an ambiguous error. It is
    not poisoned then only when a response came back and the clock could not be read. -/
theorem finishDispatch_cases (operation : OperationBinding) (answer : Except String ExecutorFrame)
    (later : Except String Int) :
    (∃ response verifier digest, answer = .ok (.operationResponse response) ∧
      finishDispatch client request operation answer later s
        = (.ok ⟨response.outcome, digest⟩, { s with responseVerifier := verifier }) ∧
      ResponseVerified client.wire client.openSession s.responseVerifier.nextSequence operation
        client.sessionKey response ∧
      verifier.nextSequence = s.responseVerifier.nextSequence + 1) ∨
    ∃ message verifier poisoned, finishDispatch client request operation answer later s
        = (.error (.ambiguous message), { s with responseVerifier := verifier, poisoned }) ∧
      verifier.nextSequence = s.responseVerifier.nextSequence ∧
      (poisoned = true ∨ (∃ response, answer = .ok (.operationResponse response)) ∧
        ∃ message, later = .error message) := by
  rcases answer with message | frame
  · exact .inr ⟨_, s.responseVerifier, true, rfl, rfl, .inl rfl⟩
  rcases frame with _ | _ | _ | response
  · exact .inr ⟨_, s.responseVerifier, true, rfl, rfl, .inl rfl⟩
  · exact .inr ⟨_, s.responseVerifier, true, rfl, rfl, .inl rfl⟩
  · exact .inr ⟨_, s.responseVerifier, true, rfl, rfl, .inl rfl⟩
  rcases later with message | now
  · exact .inr ⟨_, s.responseVerifier, s.poisoned, rfl, rfl, .inr ⟨⟨_, rfl⟩, _, rfl⟩⟩
  have hcases := @CoordinatorResponseVerifier.verifyNext_cases client.wire client.openSession
    client.sessionKey now s.responseVerifier response operation
  simp only [finishDispatch]
  rcases hverify : s.responseVerifier.verifyNext client.wire response client.openSession operation
    client.sessionKey now with ⟨outcome, verifier⟩
  rw [hverify] at hcases
  rcases hcases with ⟨rfl, hverified, hnext⟩ | ⟨⟨error, rfl⟩, hnext⟩
  · exact .inl ⟨response, verifier, _, rfl, rfl, hverified, hnext⟩
  · exact .inr ⟨_, verifier, true, rfl, hnext, .inl rfl⟩

end

end Zemo.ExecutorV2.Channel
