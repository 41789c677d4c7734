import Zemo.Lib.Run
import Zemo.Worker.Serve

set_option autoImplicit false

/-! # What the worker handles

The law of the handler calls of a session: each is for an authenticated request that the session
permits, in the order of the requests, once, after what it depends on, and before anything that ends
the session. One round of the loop keeps the law because the variables of the loop remember the
calls (`Tracks`). -/

namespace Zemo.ExecutorV2.Worker

open Checked History

/-! ## The law -/

/-- The call was made for this operation in this direction and succeeded. -/
structure HandlerCall.Applied (call : HandlerCall) (direction : OperationDirection)
    (operationId : String) : Prop where
  direction : call.direction = direction
  operationId : call.operation.operationId = operationId
  succeeded : call.outcome.succeeded = true

/-- What the events before a call say of it. -/
structure Lawful (context : Context) (before : List ServeEvent) (call : HandlerCall) : Prop where
  /-- Nothing before it ended the session. -/
  running : ∀ event ∈ before, event.ends = false
  /-- The request carries the MAC of the session key and names the session. -/
  mac : call.request.expectedMac context.wire context.sessionKey = call.request.mac
  sessionId : call.request.sessionId = context.openSession.sessionId
  /-- It is for an operation of the envelope, the one the request names. -/
  envelope : call.envelope = context.openSession.envelope
  operation : call.operation ∈ context.openSession.envelope.operations
  operationId : call.operation.operationId = call.request.operation.operationId
  direction : call.direction = call.request.operation.direction
  permitted : context.openSession.authorization.permits call.operation.operationId call.direction
    = true
  /-- The requests that are handled are numbered one after the other. -/
  sequence : call.request.sequence = (before.filterMap (·.call?)).length + 1
  nonce : ∀ b ∈ before.filterMap (·.call?), b.request.messageNonce ≠ call.request.messageNonce
  once : ∀ b ∈ before.filterMap (·.call?),
    ¬(b.operation.operationId = call.operation.operationId ∧ b.direction = call.direction)
  dependencies : call.direction = .forward → ∀ d ∈ call.operation.dependencies,
    ∃ b ∈ before.filterMap (·.call?), b.Applied .forward d
  dependents : call.direction = .rollback →
    ∀ candidate ∈ context.openSession.envelope.operations,
      call.operation.operationId ∈ candidate.dependencies →
      candidate.operationId ∈ context.openSession.authorization.rollbackEligibleIds →
      ∃ b ∈ before.filterMap (·.call?), b.Applied .rollback candidate.operationId

/-- Every call of the events is lawful. -/
def CallsLawful (context : Context) (events : List ServeEvent) : Prop :=
  Each (fun before event => ∀ call, event = .handled call → Lawful context before call) events

/-! ## What the variables of the loop remember -/

/-- The variables of a loop that goes on. -/
structure Tracks (context : Context) (s : State) : Prop where
  running : ∀ event ∈ s.events, event.ends = false
  sequence : s.session.nextSequence = s.calls.length + 1
  nonces : ∀ b ∈ s.calls, b.request.messageNonce ∈ s.session.seenNonces
  attempted : ∀ b ∈ s.calls,
    (b.operation.operationId, decide (b.direction = .rollback)) ∈ s.session.attemptedBindings
  applied : ∀ id ∈ s.session.appliedForward, ∃ b ∈ s.calls, b.Applied .forward id
  remaining : ∀ id ∈ context.openSession.authorization.rollbackEligibleIds,
    id ∈ s.session.remainingRollback ∨ ∃ b ∈ s.calls, b.Applied .rollback id

variable {context : Context} {turn : Turn} {s : State}

theorem State.start_tracks (context : Context) (sent : List ExecutorFrame) :
    Tracks context (.start context.openSession sent) where
  running _ h := absurd h List.not_mem_nil
  sequence := rfl
  nonces _ h := absurd h List.not_mem_nil
  attempted _ h := absurd h List.not_mem_nil
  applied _ h := absurd h List.not_mem_nil
  remaining _ h := .inl h

/-- What the checks of the loop establish. -/
structure Admitted (context : Context) (session : Session) (request : AuthenticatedOperationRequest)
    (operation : ApprovedOperationManifest) : Prop where
  verified : RequestVerified context.wire context.openSession session.nextSequence
    context.sessionKey request
  nonce : request.messageNonce ∉ session.seenNonces
  permitted : context.openSession.authorization.permits request.operation.operationId
    request.operation.direction = true
  mem : operation ∈ context.openSession.envelope.operations
  named : operation.operationId = request.operation.operationId
  attempted : (request.operation.operationId, decide (request.operation.direction = .rollback))
    ∉ session.attemptedBindings
  dependencies : request.operation.direction = .forward →
    ∀ d ∈ operation.dependencies, d ∈ session.appliedForward
  dependents : request.operation.direction = .rollback →
    ∀ candidate ∈ context.openSession.envelope.operations,
      ¬(candidate.operationId ∈ session.remainingRollback
        ∧ operation.operationId ∈ candidate.dependencies)

theorem admission_ok {session : Session} {request : AuthenticatedOperationRequest} {now : Int}
    {operation : ApprovedOperationManifest}
    (h : admission context session request now = .ok operation) :
    Admitted context session request operation := by
  simp only [admission, bind_eq_ok, require_eq_ok, orError_eq_ok] at h
  obtain ⟨⟨⟩, hverify, _, hnonce, _, hpermits, op, hop, _, hattempted, _, hforward, _, hrollback,
    heq⟩ := h
  obtain rfl := Except.ok.inj heq
  have hverified : request.verify context.wire context.openSession session.nextSequence
      context.sessionKey now = .ok () := by
    cases hr : request.verify context.wire context.openSession session.nextSequence
        context.sessionKey now with
    | ok => rfl
    | error error => rw [hr] at hverify; cases hverify
  obtain ⟨hmem, hid⟩ := ImmutableExecutionEnvelope.operation_eq_some hop
  exact ⟨AuthenticatedOperationRequest.verify_ok hverified, hnonce, hpermits, hmem, hid, hattempted,
    hforward, hrollback⟩

/-! ## One round -/

/-- The call of an admitted request. -/
def callOf (context : Context) (turn : Turn) (request : AuthenticatedOperationRequest)
    (operation : ApprovedOperationManifest) : HandlerCall :=
  { request, envelope := context.openSession.envelope, operation,
    direction := request.operation.direction, outcome := turn.outcome }

/-- An admitted request is lawful to handle. -/
theorem Tracks.lawful (h : Tracks context s) {request : AuthenticatedOperationRequest}
    {operation : ApprovedOperationManifest}
    (hadmitted : Admitted context s.session request operation) :
    Lawful context s.events (callOf context turn request operation) where
  running := h.running
  mac := hadmitted.verified.mac
  sessionId := hadmitted.verified.sessionId
  envelope := rfl
  operation := hadmitted.mem
  operationId := hadmitted.named
  direction := rfl
  permitted := by
    show context.openSession.authorization.permits operation.operationId _ = true
    rw [hadmitted.named]
    exact hadmitted.permitted
  sequence := hadmitted.verified.sequence.trans h.sequence
  nonce := by
    intro b hb heq
    have hmem := h.nonces b hb
    rw [heq] at hmem
    exact hadmitted.nonce hmem
  once := by
    rintro b hb ⟨hid, hdirection⟩
    have hmem := h.attempted b hb
    rw [hid, hdirection, show (callOf context turn request operation).operation.operationId
      = request.operation.operationId from hadmitted.named] at hmem
    exact hadmitted.attempted hmem
  dependencies := fun hforward d hd => h.applied d (hadmitted.dependencies hforward d hd)
  dependents := by
    intro hrollback candidate hmem hdep heligible
    rcases h.remaining _ heligible with hremains | hrolledBack
    · exact absurd ⟨hremains, hdep⟩ (hadmitted.dependents hrollback candidate hmem)
    · exact hrolledBack

@[simp] theorem handle_events {request : AuthenticatedOperationRequest}
    {operation : ApprovedOperationManifest} {now : Int} :
    (handle context turn s request operation now).events
      = s.events ++ [.handled (callOf context turn request operation)] := by
  simp only [handle]
  split
  · rfl
  · split <;> rfl

@[simp] theorem handle_received {request : AuthenticatedOperationRequest}
    {operation : ApprovedOperationManifest} {now : Int} :
    (handle context turn s request operation now).received = s.received := by
  simp only [handle]
  split
  · rfl
  · split <;> rfl

/-- The variables of the loop when it goes on after a call. -/
theorem handle_goesOn {request : AuthenticatedOperationRequest}
    {operation : ApprovedOperationManifest} {now : Int}
    (h : (handle context turn s request operation now).result = none) :
    turn.outcome.needsRecovery = false ∧
    (handle context turn s request operation now).session =
      { ({ s.session with
            seenNonces := request.messageNonce :: s.session.seenNonces
            attemptedBindings :=
              (request.operation.operationId, decide (request.operation.direction = .rollback))
                :: s.session.attemptedBindings } : Session).advance request.operation
            turn.outcome.succeeded with
        nextSequence := s.session.nextSequence + 1 } := by
  have hnext : ∀ session : Session, (session.advance request.operation
      turn.outcome.succeeded).nextSequence = session.nextSequence := by
    intro session
    unfold Session.advance
    split <;> rfl
  simp only [handle] at h ⊢
  split at h
  · cases h
  · split at h
    · next hlt =>
        simp only [if_pos hlt]
        refine ⟨?_, by rw [hnext]⟩
        cases hrecovery : turn.outcome.needsRecovery with
        | false => rfl
        | true => rw [hrecovery] at h; cases h
    · cases h

theorem calls_concat_handled {events : List ServeEvent} {call : HandlerCall} :
    (events ++ [ServeEvent.handled call]).filterMap (·.call?)
      = events.filterMap (·.call?) ++ [call] := by
  rw [List.filterMap_append]
  rfl

/-- The variables remember the call when the loop goes on. -/
theorem Tracks.handle (h : Tracks context s) {request : AuthenticatedOperationRequest}
    {operation : ApprovedOperationManifest} {now : Int}
    (hadmitted : Admitted context s.session request operation)
    (hnone : (handle context turn s request operation now).result = none) :
    Tracks context (handle context turn s request operation now) := by
  obtain ⟨hrecovery, hsession⟩ := handle_goesOn hnone
  have hcalls : (Worker.handle context turn s request operation now).calls
      = s.calls ++ [callOf context turn request operation] := by
    rw [State.calls, handle_events, calls_concat_handled]
    rfl
  have hadv := hsession
  refine ⟨?_, ?_, ?_, ?_, ?_, ?_⟩
  · intro event hevent
    rw [handle_events] at hevent
    rcases List.mem_append.1 hevent with hold | hnew
    · exact h.running event hold
    · obtain rfl := List.mem_singleton.1 hnew
      exact hrecovery
  · rw [hsession, hcalls, List.length_append]
    exact congrArg (· + 1) h.sequence
  · intro b hb
    rw [hcalls] at hb
    have hseen : request.messageNonce :: s.session.seenNonces
        = (Worker.handle context turn s request operation now).session.seenNonces := by
      rw [hsession]
      unfold Session.advance
      split <;> rfl
    rw [← hseen]
    rcases List.mem_append.1 hb with hold | hnew
    · exact .tail _ (h.nonces b hold)
    · obtain rfl := List.mem_singleton.1 hnew
      exact .head _
  · intro b hb
    rw [hcalls] at hb
    have hattempted : (request.operation.operationId,
        decide (request.operation.direction = .rollback)) :: s.session.attemptedBindings
        = (Worker.handle context turn s request operation now).session.attemptedBindings := by
      rw [hsession]
      unfold Session.advance
      split <;> rfl
    rw [← hattempted]
    rcases List.mem_append.1 hb with hold | hnew
    · exact .tail _ (h.attempted b hold)
    · obtain rfl := List.mem_singleton.1 hnew
      rw [show (callOf context turn request operation).operation.operationId
        = request.operation.operationId from hadmitted.named]
      exact .head _
  · intro id hid
    rw [hcalls]
    rw [hsession] at hid
    unfold Session.advance at hid
    have hkeep : id ∈ s.session.appliedForward →
        ∃ b ∈ s.calls ++ [callOf context turn request operation], b.Applied .forward id := by
      intro hold
      obtain ⟨b, hb, happlied⟩ := h.applied id hold
      exact ⟨b, List.mem_append_left _ hb, happlied⟩
    split at hid
    · exact hkeep hid
    · next hsucceeded hforward =>
        rcases List.mem_cons.1 hid with rfl | hold
        · exact ⟨_, List.mem_append_right _ (List.mem_singleton_self _),
            hforward, hadmitted.named, hsucceeded⟩
        · exact hkeep hold
    · exact hkeep hid
  · intro id hid
    rw [hcalls, hsession]
    unfold Session.advance
    rcases h.remaining id hid with hremains | ⟨b, hb, happlied⟩
    · split
      · exact .inl hremains
      · exact .inl hremains
      · next hsucceeded hrollback =>
          by_cases heq : id = request.operation.operationId
          · exact .inr ⟨_, List.mem_append_right _ (List.mem_singleton_self _),
              hrollback, hadmitted.named.trans heq.symm, hsucceeded⟩
          · exact .inl (List.mem_filter.2 ⟨hremains, decide_eq_true heq⟩)
    · exact .inr ⟨b, List.mem_append_left _ hb, happlied⟩

/-- What every round keeps, also the last one. -/
structure Serves (context : Context) (s : State) : Prop where
  lawful : CallsLawful context s.events
  received : ∀ call ∈ s.calls, call.request ∈ s.received
  tracks : s.result = none → Tracks context s

theorem CallsLawful.concat_handled {events : List ServeEvent} {call : HandlerCall}
    (h : CallsLawful context events) (hcall : Lawful context events call) :
    CallsLawful context (events ++ [.handled call]) := by
  refine Each.concat h fun c heq => ?_
  obtain rfl := ServeEvent.handled.inj heq
  exact hcall

theorem CallsLawful.concat_end {events : List ServeEvent} {event : ServeEvent}
    (h : CallsLawful context events) (hevent : event.call? = none) :
    CallsLawful context (events ++ [event]) := by
  refine Each.concat h fun c heq => ?_
  subst heq
  cases hevent

theorem calls_concat_end {events : List ServeEvent} {event : ServeEvent}
    (hevent : event.call? = none) :
    (events ++ [event]).filterMap (·.call?) = events.filterMap (·.call?) := by
  rw [List.filterMap_append, List.filterMap_cons_none hevent, List.filterMap_nil, List.append_nil]

/-- An ended session did not call the handler in its last round. -/
theorem Serves.ended (h : Serves context s) {s' : State} {event : ServeEvent}
    (hevent : event.call? = none) (hevents : s'.events = s.events ++ [event])
    (hreceived : s.received ⊆ s'.received) (hresult : s'.result ≠ none) : Serves context s' where
  lawful := by
    rw [hevents]
    exact h.lawful.concat_end hevent
  received := by
    intro call hcall
    rw [State.calls, hevents, calls_concat_end hevent] at hcall
    exact hreceived (h.received call hcall)
  tracks hnone := absurd hnone hresult

/-- A session that ends without an event. -/
theorem Serves.stopped (h : Serves context s) {s' : State} (hevents : s'.events = s.events)
    (hreceived : s.received ⊆ s'.received) (hresult : s'.result ≠ none) : Serves context s' where
  lawful := by
    rw [hevents]
    exact h.lawful
  received := by
    intro call hcall
    rw [State.calls, hevents] at hcall
    exact hreceived (h.received call hcall)
  tracks hnone := absurd hnone hresult

/-- One round keeps the law. -/
theorem Serves.round (h : Serves context s) (hrunning : s.result = none)
    (read : Except FrameError (Option AuthenticatedOperationRequest)) :
    Serves context (serveTurn context turn read s) := by
  rcases read with error | _ | request
  · exact Serves.ended h (show (ServeEvent.malformed error).call? = none from rfl) rfl (List.Subset.refl _) nofun
  · exact h.stopped rfl (List.Subset.refl _) nofun
  have hreceived : s.received ⊆ s.received ++ [request] := List.subset_append_left _ _
  simp only [serveTurn, serveRequest]
  split
  · exact h.stopped rfl hreceived nofun
  · next now _ =>
    split
    · next refusal _ =>
      exact Serves.ended h (show (ServeEvent.refused request refusal).call? = none from rfl) rfl hreceived nofun
    · next operation hadmit =>
      have htracks : Tracks context { s with received := s.received ++ [request] } :=
        ⟨(h.tracks hrunning).running, (h.tracks hrunning).sequence, (h.tracks hrunning).nonces,
          (h.tracks hrunning).attempted, (h.tracks hrunning).applied,
          (h.tracks hrunning).remaining⟩
      refine ⟨?_, ?_, htracks.handle (admission_ok hadmit)⟩
      · rw [handle_events]
        exact h.lawful.concat_handled (htracks.lawful (admission_ok hadmit))
      · intro call hcall
        rw [State.calls, handle_events, calls_concat_handled] at hcall
        rw [handle_received]
        rcases List.mem_append.1 hcall with hold | hnew
        · exact hreceived (h.received call hold)
        · obtain rfl := List.mem_singleton.1 hnew
          exact List.mem_append_right _ (List.mem_singleton_self _)

/-- A whole session keeps the law, for every stream. -/
theorem Serves.session (decode : List UInt8 → Option AuthenticatedOperationRequest)
    (turns : List Turn) (stream : List ReadEvent) (h : Serves context s) :
    Serves context (serveSession context decode turns stream s) := by
  induction turns generalizing stream s with
  | nil => exact h
  | cons turn turns ih =>
    simp only [serveSession]
    split
    · exact h
    · next hrunning =>
        exact ih _ (h.round (by simpa using hrunning) _)

theorem State.start_serves (context : Context) (sent : List ExecutorFrame) :
    Serves context (.start context.openSession sent) where
  lawful := each_nil
  received _ h := absurd h List.not_mem_nil
  tracks _ := State.start_tracks context sent

/-! ## What a round sends -/

theorem sendResponse_some {sequence : Nat} {operation : OperationBinding}
    {outcome : ExecutorOutcome} {response : AuthenticatedOperationResponse}
    (h : (sendResponse context turn sequence operation outcome).1 = some response) :
    response.sequence = sequence ∧ response.operation = operation ∧ response.outcome = outcome := by
  simp only [sendResponse] at h
  split at h
  · cases h
  split at h
  · cases h
  split at h
  · cases h
  next signed hsigned =>
    obtain rfl := Option.some.inj h
    obtain ⟨hsequence, hoperation, houtcome, -⟩ :=
      AuthenticatedOperationResponse.signed_ok hsigned
    exact ⟨hsequence, hoperation, houtcome⟩

/-- A response among the frames of a round is an old one or the one of this round. -/
theorem mem_sent {sent : List ExecutorFrame} {reply : Option AuthenticatedOperationResponse}
    {response : AuthenticatedOperationResponse}
    (h : .operationResponse response ∈ sent ++ (reply.map .operationResponse).toList) :
    .operationResponse response ∈ sent ∨ reply = some response := by
  rcases List.mem_append.1 h with hold | hnew
  · exact .inl hold
  · obtain ⟨r, hr, heq⟩ := Option.map_eq_some_iff.1 (Option.mem_toList.1 hnew)
    obtain rfl := ExecutorFrame.operationResponse.inj heq
    exact .inr hr

/-- A round that ends the session without a call: it answers at most with a refusal that carries
    the number the loop expected. -/
structure Ends (s s' : State) : Prop where
  calls : s'.calls = s.calls
  result : s'.result ≠ none
  sent : ∀ response, .operationResponse response ∈ s'.sent →
    .operationResponse response ∈ s.sent ∨
    (response.sequence = s.session.nextSequence ∧
      ∃ refusal, response.outcome = .protocolRefusal refusal)

/-- A round that handles an admitted request and answers at most with the outcome of the call. -/
structure Handles (context : Context) (turn : Turn) (request : AuthenticatedOperationRequest)
    (operation : ApprovedOperationManifest) (s s' : State) : Prop where
  admitted : Admitted context s.session request operation
  calls : s'.calls = s.calls ++ [callOf context turn request operation]
  sent : ∀ response, .operationResponse response ∈ s'.sent →
    .operationResponse response ∈ s.sent ∨
    (response.sequence = s.session.nextSequence ∧ response.operation = request.operation ∧
      ∃ now, response.outcome = turn.outcome.sent now)

@[simp] theorem handle_sent {request : AuthenticatedOperationRequest}
    {operation : ApprovedOperationManifest} {now : Int} :
    (handle context turn s request operation now).sent = s.sent ++
      ((sendResponse context turn s.session.nextSequence request.operation
        (turn.outcome.sent now)).1.map .operationResponse).toList := by
  simp only [handle]
  split
  · rfl
  · split <;> rfl

/-- One round, case by case. -/
theorem serveTurn_cases (read : Except FrameError (Option AuthenticatedOperationRequest)) :
    s.sent ⊆ (serveTurn context turn read s).sent ∧
    (Ends s (serveTurn context turn read s) ∨
      ∃ request operation, read = .ok (some request) ∧
        Handles context turn request operation s (serveTurn context turn read s)) := by
  rcases read with error | _ | request
  · refine ⟨List.subset_append_left _ _, .inl ⟨calls_concat_end rfl, nofun, fun response h => ?_⟩⟩
    rcases List.mem_append.1 h with hold | hnew
    · exact .inl hold
    · obtain ⟨r, -, heq⟩ := Option.map_eq_some_iff.1 (Option.mem_toList.1 hnew)
      cases heq
  · exact ⟨List.Subset.refl _, .inl ⟨rfl, nofun, fun _ h => .inl h⟩⟩
  simp only [serveTurn, serveRequest]
  split
  · exact ⟨List.Subset.refl _, .inl ⟨rfl, nofun, fun _ h => .inl h⟩⟩
  next now _ =>
  split
  · next refusal _ =>
    refine ⟨List.subset_append_left _ _, .inl ⟨calls_concat_end rfl, nofun, fun response h => ?_⟩⟩
    refine (mem_sent h).imp id fun hreply => ?_
    obtain ⟨hsequence, -, houtcome⟩ := sendResponse_some hreply
    exact ⟨hsequence, refusal, houtcome⟩
  · next operation hadmit =>
    refine ⟨?_, .inr ⟨request, operation, rfl, admission_ok hadmit, ?_, fun response h => ?_⟩⟩
    · rw [handle_sent]
      exact List.subset_append_left _ _
    · rw [State.calls, handle_events, calls_concat_handled]
      rfl
    · rw [handle_sent] at h
      refine (mem_sent h).imp id fun hreply => ?_
      obtain ⟨hsequence, hoperation, houtcome⟩ := sendResponse_some hreply
      exact ⟨hsequence, hoperation, now, houtcome⟩

/-- The number of a handled request is at most the number of calls. -/
theorem CallsLawful.sequence_le {events : List ServeEvent} (h : CallsLawful context events)
    {call : HandlerCall} (hcall : call ∈ events.filterMap (·.call?)) :
    call.request.sequence ≤ (events.filterMap (·.call?)).length := by
  obtain ⟨event, hevent, hsome⟩ := List.mem_filterMap.1 hcall
  obtain ⟨before, rest, rfl, hlawful⟩ := h.of_mem hevent
  cases event with
  | handled c =>
    obtain rfl := Option.some.inj hsome
    rw [(hlawful _ rfl).sequence, List.filterMap_append, List.filterMap_cons_some hsome,
      List.length_append, List.length_cons]
    omega
  | refused => cases hsome
  | malformed => cases hsome

/-! ## The law of the worker -/

/-- What `serve` leaves: nothing was handled when no session was opened, and otherwise the frame
    that opened it verified and the session kept the law. -/
theorem serve_cases (wire : Wire) (decodeHandshake : List UInt8 → Option OpenSession)
    (decodeRequest : List UInt8 → Option AuthenticatedOperationRequest) (rootAuthorityKey : Bytes32)
    (workerPid : Nat) (opening : Opening) (turns : List Turn) (stream : List ReadEvent) :
    let served := serve wire decodeHandshake decodeRequest rootAuthorityKey workerPid opening turns
      stream
    (served.context = none ∧ served.state.events = []) ∨
    ∃ context, served.context = some context ∧ context.wire = wire ∧ Serves context served.state ∧
      (readFrame decodeHandshake stream).1 = .ok (some context.openSession) ∧
      ∃ now, context.openSession.verify wire context.hello rootAuthorityKey now = .ok () := by
  intro served
  simp only [served, serve]
  split
  · exact .inl ⟨rfl, rfl⟩
  split
  · exact .inl ⟨rfl, rfl⟩
  split
  · exact .inl ⟨rfl, rfl⟩
  · exact .inl ⟨rfl, rfl⟩
  next hello _ _ _ _ openSession rest hread =>
    simp only [serveOpen]
    split
    · exact .inl ⟨rfl, rfl⟩
    next now _ =>
    split
    · exact .inl ⟨rfl, rfl⟩
    next hverify =>
    split
    · exact .inl ⟨rfl, rfl⟩
    split
    · exact .inl ⟨rfl, rfl⟩
    · exact .inr ⟨_, rfl, rfl, (State.start_serves _ _).session decodeRequest turns rest,
        congrArg Prod.fst hread, now, hverify⟩

/-- The law of a worker: `opens` and `issued` are the sessions and requests the holders of the keys
    have signed. -/
structure Served.Lawful (opens : Set OpenSession) (issued : Set AuthenticatedOperationRequest)
    (served : Served) : Prop where
  idle : served.context = none → served.state.calls = []
  opened : ∀ context, served.context = some context → context.openSession ∈ opens
  issued : served.context.isSome = true → ∀ call ∈ served.state.calls, call.request ∈ issued
  ordered : ∀ context, served.context = some context → CallsLawful context served.state.events

/-- **The worker does only authenticated, ordered, once-only work**, for every stream it reads and
    whatever its clock, its nonces, its handler and its writer do, when nobody but the holders of the
    keys can put a valid MAC on a frame the worker reads. -/
theorem worker_calls_lawful (wire : Wire) (decodeHandshake : List UInt8 → Option OpenSession)
    (decodeRequest : List UInt8 → Option AuthenticatedOperationRequest) (rootAuthorityKey : Bytes32)
    (workerPid : Nat) (opening : Opening) (turns : List Turn) (stream : List ReadEvent)
    (opens : Set OpenSession) (issued : Set AuthenticatedOperationRequest)
    (hopens : ∀ o, (readFrame decodeHandshake stream).1 = .ok (some o) →
      keyedMac wire openSessionMacDomain rootAuthorityKey
        (.openSession o.toOpenSessionMacMaterial) = o.mac → o ∈ opens)
    (hissued : ∀ context,
      (serve wire decodeHandshake decodeRequest rootAuthorityKey workerPid opening turns
        stream).context = some context →
      ∀ request ∈ (serve wire decodeHandshake decodeRequest rootAuthorityKey workerPid opening turns
        stream).state.received,
      request.expectedMac wire context.sessionKey = request.mac → request ∈ issued) :
    (serve wire decodeHandshake decodeRequest rootAuthorityKey workerPid opening turns
      stream).Lawful opens issued := by
  rcases serve_cases wire decodeHandshake decodeRequest rootAuthorityKey workerPid opening turns
    stream with ⟨hnone, hevents⟩ | ⟨context, hsome, rfl, hserves, hread, now, hverify⟩
  · refine ⟨fun _ => ?_, fun context h => ?_, fun h => ?_, fun context h => ?_⟩
    · rw [State.calls, hevents, List.filterMap_nil]
    all_goals
      rw [hnone] at h
      cases h
  refine ⟨fun hnone => ?_, fun c hc => ?_, fun _ call hcall => ?_, fun c hc => ?_⟩
  · rw [hsome] at hnone
    cases hnone
  · obtain rfl := Option.some.inj (hsome.symm.trans hc)
    exact hopens _ hread (OpenSession.verify_mac hverify)
  · refine hissued context hsome call.request (hserves.received call hcall) ?_
    obtain ⟨event, hevent, hcall⟩ := List.mem_filterMap.1 hcall
    obtain ⟨before, rest, -, hlawful⟩ := hserves.lawful.of_mem hevent
    cases event with
    | handled c =>
      obtain rfl := Option.some.inj hcall
      exact (hlawful _ rfl).mac
    | refused => cases hcall
    | malformed => cases hcall
  · obtain rfl := Option.some.inj (hsome.symm.trans hc)
    exact hserves.lawful

/-! ## A small run -/

/-- Open the session, create the folder, move the file, and send the first request again. -/
def sampleStream : List ReadEvent :=
  [0, 0, 0, 1, 1, 0, 0, 0, 1, 2, 0, 0, 0, 1, 3, 0, 0, 0, 1, 2].map .byte

def sampleDecodeHandshake : List UInt8 → Option OpenSession
  | [1] => some sampleOpenSession
  | _ => none

def sampleDecodeRequest : List UInt8 → Option AuthenticatedOperationRequest
  | [2] => some (sampleRequest 1 11 true)
  | [3] => some (sampleRequest 2 12 false)
  | _ => none

/-- The handler succeeds. -/
def sampleTurn (nonce : UInt8) : Turn where
  now := some 2001
  outcome := .success (Bytes32.filled 5) { attemptCount := 1, errorClass := none }
  sentAt := some 2001
  nonce := some (Bytes32.filled nonce)
  written := .ok ()

def sampleOpening : Opening where
  helloNonce := some (Bytes32.filled 1)
  helloAt := some 2000
  helloWritten := .ok ()
  reply := sampleTurn 20

def sampleServed : Served :=
  serve sampleWire sampleDecodeHandshake sampleDecodeRequest sampleRootKey 41 sampleOpening
    [sampleTurn 21, sampleTurn 22, sampleTurn 23] sampleStream

theorem sampleServed_eq : serve sampleWire sampleDecodeHandshake sampleDecodeRequest sampleRootKey 41
    sampleOpening [sampleTurn 21, sampleTurn 22, sampleTurn 23] sampleStream = sampleServed := rfl

theorem sampleServed_received :
    sampleServed.state.received
      = [sampleRequest 1 11 true, sampleRequest 2 12 false, sampleRequest 1 11 true] := by
  decide +kernel

theorem worker_calls_lawful_sample :
    (sampleServed.context.isSome = true ∧ sampleServed.state.calls.length = 2
      ∧ sampleServed.state.result.map (·.toOption) = some (some .refused)) ∧
    sampleServed.Lawful {sampleOpenSession}
      {sampleRequest 1 11 true, sampleRequest 2 12 false} := by
  refine ⟨by decide +kernel, worker_calls_lawful sampleWire sampleDecodeHandshake
    sampleDecodeRequest sampleRootKey 41 sampleOpening [sampleTurn 21, sampleTurn 22, sampleTurn 23]
    sampleStream {sampleOpenSession} {sampleRequest 1 11 true, sampleRequest 2 12 false} ?_ ?_⟩
  · intro o hread _
    have hsample : (readFrame sampleDecodeHandshake sampleStream).1
        = .ok (some sampleOpenSession) := rfl
    rw [hsample] at hread
    exact (Option.some.inj (Except.ok.inj hread)).symm
  · intro context _ request hmem _
    rw [sampleServed_eq, sampleServed_received] at hmem
    simp only [List.mem_cons, List.not_mem_nil, or_false] at hmem
    rcases hmem with rfl | rfl | rfl
    · exact .inl rfl
    · exact .inr rfl
    · exact .inl rfl

end Zemo.ExecutorV2.Worker
