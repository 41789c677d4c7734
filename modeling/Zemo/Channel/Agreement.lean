import Zemo.Channel.Session
import Zemo.Worker.Ordered

set_option autoImplicit false

/-! # A coordinator session and a worker session on one channel

The two sides run on their own; between them is a channel that hands the worker and the coordinator
whatever it likes: frames that were sent, in any order and as often as it wants, parts of frames,
frames it made up. What it cannot do is put a valid MAC of the session key on a frame neither side
has signed (`Unforged`).

A call of `dispatch_prepared` is two steps, up to the sending of its frame and from the frame that
comes back, so that the worker may run in between. -/

namespace Zemo.ExecutorV2.Channel

open Checked

/-- A call of `dispatch_prepared` that returned: the frame it handed to the transport, if it got that
    far, the number the response verifier expected then, and its result. -/
structure Returned where
  request : ExecutorRequestIdentity
  intent : CommittedJournalEventBinding
  frame : Option AuthenticatedOperationRequest
  expected : Nat
  result : Except ApprovedExecutorError DispatchResult

/-- A call of `dispatch_prepared` that waits for its answer. -/
structure Pending where
  request : ExecutorRequestIdentity
  intent : CommittedJournalEventBinding
  frame : AuthenticatedOperationRequest

/-- `issued` are the frames the coordinator handed to the transport. -/
structure Link where
  coordinator : Session
  worker : Worker.State
  issued : List AuthenticatedOperationRequest
  waiting : Option Pending
  returned : List Returned

/-- What happens on the link, with what is answered to it. -/
inductive Call where
  | prepare (operationId : OperationStepId) (direction : OperationDirection)
      (nonce : Except ApprovedExecutorError Bytes32)
  | dispatch (request : ExecutorRequestIdentity) (intent : CommittedJournalEventBinding)
      (now : Except String Int) (written : Except String Unit)
  | answer (answer : Except String ExecutorFrame) (later : Except String Int)
  | worker (read : Except FrameError (Option AuthenticatedOperationRequest)) (turn : Worker.Turn)

/-- The two sides of a session: the client, and what else the worker has of the handshake. -/
structure Endpoints extends Client where
  hello : Hello
  rootAuthorityKey : Bytes32

/-- The session as the worker has it. -/
def Endpoints.context (ends : Endpoints) : Worker.Context where
  wire := ends.wire
  openSession := ends.openSession
  sessionKey := ends.sessionKey
  hello := ends.hello
  rootAuthorityKey := ends.rootAuthorityKey

section

variable (ends : Endpoints)

/-- Both sides after the handshake. -/
def Link.start : Link where
  coordinator := .new
  worker := .start ends.openSession []
  issued := []
  waiting := none
  returned := []

/-- The first part of a dispatch: it returns, or it waits for the answer to its frame. -/
def Link.dispatch (link : Link) (request : ExecutorRequestIdentity)
    (intent : CommittedJournalEventBinding) (now : Except String Int)
    (written : Except String Unit) : Link :=
  match beginDispatch ends.toClient request intent now link.coordinator with
  | (.error error, s) =>
    { link with
      coordinator := s
      returned := link.returned ++
        [{ request, intent, frame := none
           expected := link.coordinator.responseVerifier.nextSequence, result := .error error }] }
  | (.ok frame, s) =>
    match written with
    | .error message =>
      { link with
        coordinator := s.poison
        issued := link.issued ++ [frame]
        returned := link.returned ++
          [{ request, intent, frame := some frame
             expected := link.coordinator.responseVerifier.nextSequence
             result := .error (.ambiguous message) }] }
    | .ok () =>
      { link with
        coordinator := s
        issued := link.issued ++ [frame]
        waiting := some { request, intent, frame } }

/-- The second part of a dispatch. -/
def Link.finish (link : Link) (pending : Pending) (answer : Except String ExecutorFrame)
    (later : Except String Int) : Link :=
  let (result, s) := finishDispatch ends.toClient pending.request
    (bindOperation ends.toClient pending.request pending.intent) answer later link.coordinator
  { link with
    coordinator := s
    waiting := none
    returned := link.returned ++
      [{ request := pending.request, intent := pending.intent
         frame := some pending.frame
         expected := link.coordinator.responseVerifier.nextSequence, result }] }

/-- One step of the link. The coordinator is one thread: while a dispatch waits it does nothing
    else. A worker that ended does nothing any more. -/
def Link.step (link : Link) (call : Call) : Link :=
  match call with
  | .prepare operationId direction nonce =>
    if link.waiting.isSome then link
    else { link with
      coordinator := (prepareOperation ends.toClient operationId direction nonce
        link.coordinator).2 }
  | .dispatch request intent now written =>
    if link.waiting.isSome then link else link.dispatch ends request intent now written
  | .answer answer later =>
    match link.waiting with
    | none => link
    | some pending => link.finish ends pending answer later
  | .worker read turn =>
    if link.worker.result.isSome then link
    else { link with worker := Worker.serveTurn ends.context turn read link.worker }

/-- The operation a dispatch was for. -/
def Returned.operation (e : Returned) : OperationBinding :=
  bindOperation ends.toClient e.request e.intent

/-- The channel cannot forge: a frame that carries a valid MAC of the session key was signed by the
    side it claims to be from. Identifiers are UUIDs. -/
def Link.Unforged (link : Link) : Call → Prop
  | .prepare operationId _ _ => operationId < 2 ^ 128
  | .dispatch .. => True
  | .answer answer _ => ∀ response, answer = .ok (.operationResponse response) →
      response.expectedMac ends.wire ends.sessionKey = response.mac →
      .operationResponse response ∈ link.worker.sent
  | .worker read _ => ∀ request, read = .ok (some request) →
      request.expectedMac ends.wire ends.sessionKey = request.mac → request ∈ link.issued

end

end Zemo.ExecutorV2.Channel

/-! ## The two sides agree

An outcome that `dispatch_prepared` returns is one the worker produced for that request: the frames
the coordinator hands out are for different operations, the number its verifier expects is never
beyond the number of the request it waits for, and the worker answers each number once. -/

namespace Zemo.ExecutorV2.Channel

open Checked Run

variable {ends : Endpoints} {link : Link}

/-! ## What is kept on the link -/

/-- Two frames are for one operation in one direction. -/
def SameOperation (f g : OperationBinding) : Prop :=
  f.operationId = g.operationId ∧ f.direction = g.direction

/-- A response of the worker: the outcome of a call, or a refusal after all calls. -/
def Answers (worker : Worker.State) (response : AuthenticatedOperationResponse) : Prop :=
  (∃ call ∈ worker.calls, call.request.operation = response.operation
    ∧ call.request.sequence = response.sequence
    ∧ ∃ now, response.outcome = call.outcome.sent now) ∨
  (worker.result ≠ none ∧ (∃ refusal, response.outcome = .protocolRefusal refusal)
    ∧ ∀ call ∈ worker.calls, call.request.sequence < response.sequence)

/-- The operation is one the session has attempted. -/
structure Attempted (ends : Endpoints) (attempted : List (OperationStepId × Bool))
    (operation : OperationBinding) (id : OperationStepId) : Prop where
  bounded : id < 2 ^ 128
  names : operation.operationId = ends.idText id
  noted : (id, decide (operation.direction = .rollback)) ∈ attempted

/-- What the worker has done is known on the link. -/
structure WorkerSide (ends : Endpoints) (worker : Worker.State)
    (issued : List AuthenticatedOperationRequest) : Prop where
  serves : Worker.Serves ends.context worker
  authentic : ∀ call ∈ worker.calls, call.request ∈ issued
  answers : ∀ response, .operationResponse response ∈ worker.sent → Answers worker response

/-- The frames are for different operations, and so is the reserved request. -/
structure Frames (ends : Endpoints) (attempted : List (OperationStepId × Bool))
    (prepared : Option ExecutorRequestIdentity) (issued : List AuthenticatedOperationRequest) :
    Prop where
  attempts : ∀ f ∈ issued, ∃ id, Attempted ends attempted f.operation id
  distinct : issued.Pairwise fun f g => ¬SameOperation f.operation g.operation
  reserved : ∀ request, prepared = some request → ∀ intent,
    Attempted ends attempted (bindOperation ends.toClient request intent) request.operationId ∧
    ∀ f ∈ issued, ¬SameOperation f.operation (bindOperation ends.toClient request intent)

/-- The verifier expects no number beyond that of the request at hand. -/
structure Numbers (expected next : Nat) (prepared : Option ExecutorRequestIdentity)
    (waiting : Option Pending) : Prop where
  behind : expected ≤ next
  reserved : ∀ request, prepared = some request →
    expected ≤ request.requestSequence ∧ request.requestSequence < next
  waits : ∀ p, waiting = some p →
    expected ≤ p.request.requestSequence ∧ p.request.requestSequence < next

/-- A dispatch issued this frame for its operation. -/
structure Issued (issued : List AuthenticatedOperationRequest)
    (frame : AuthenticatedOperationRequest) (request : ExecutorRequestIdentity)
    (operation : OperationBinding) : Prop where
  mem : frame ∈ issued
  operation : frame.operation = operation
  sequence : frame.sequence = request.requestSequence

/-- A dispatch that returned an outcome had issued its frame and verified a response. -/
structure Concluded (ends : Endpoints) (link : Link) (e : Returned) (outcome : ExecutorOutcome) :
    Prop where
  frame : ∃ frame, e.frame = some frame ∧ Issued link.issued frame e.request (e.operation ends)
  response : ∃ response, .operationResponse response ∈ link.worker.sent
    ∧ response.sessionId = ends.openSession.sessionId ∧ response.operation = e.operation ends
    ∧ response.sequence = e.expected ∧ response.outcome = outcome
  expected : e.expected ≤ e.request.requestSequence

/-- The invariant of the link. -/
structure Linked (ends : Endpoints) (link : Link) : Prop where
  worker : WorkerSide ends link.worker link.issued
  frames : Frames ends link.coordinator.attempted link.coordinator.prepared link.issued
  numbers : Numbers link.coordinator.responseVerifier.nextSequence link.coordinator.nextSequence
    link.coordinator.prepared link.waiting
  pending : ∀ p, link.waiting = some p → link.coordinator.prepared = none
    ∧ Issued link.issued p.frame p.request (bindOperation ends.toClient p.request p.intent)
  concluded : ∀ e ∈ link.returned, ∀ result, e.result = .ok result →
    Concluded ends link e result.outcome
  ambiguous : ∀ e ∈ link.returned, ∀ error, e.result = .error error →
    ∃ message, error = .ambiguous message

/-! ## Frame rules -/

section

variable {attempted attempted' : List (OperationStepId × Bool)}
  {prepared : Option ExecutorRequestIdentity} {issued issued' : List AuthenticatedOperationRequest}
  {worker : Worker.State}

theorem Attempted.mono {operation : OperationBinding} {id : OperationStepId}
    (h : Attempted ends attempted operation id) (hsub : attempted ⊆ attempted') :
    Attempted ends attempted' operation id :=
  ⟨h.bounded, h.names, hsub h.noted⟩

theorem WorkerSide.mono (h : WorkerSide ends worker issued) (hsub : issued ⊆ issued') :
    WorkerSide ends worker issued' :=
  ⟨h.serves, fun call hcall => hsub (h.authentic call hcall), h.answers⟩

theorem Issued.mono {frame : AuthenticatedOperationRequest} {request : ExecutorRequestIdentity}
    {operation : OperationBinding} (h : Issued issued frame request operation)
    (hsub : issued ⊆ issued') : Issued issued' frame request operation :=
  ⟨hsub h.mem, h.operation, h.sequence⟩

theorem Concluded.mono {link' : Link} {e : Returned} {outcome : ExecutorOutcome}
    (h : Concluded ends link e outcome) (hissued : link.issued ⊆ link'.issued)
    (hsent : link.worker.sent ⊆ link'.worker.sent) : Concluded ends link' e outcome := by
  obtain ⟨⟨frame, hframe, hissue⟩, ⟨response, hmem, hresponse⟩, hexpected⟩ := h
  exact ⟨⟨frame, hframe, hissue.mono hissued⟩, ⟨response, hsent hmem, hresponse⟩, hexpected⟩

/-- More attempts do no harm. -/
theorem Frames.attempt (h : Frames ends attempted prepared issued)
    (hsub : attempted ⊆ attempted') : Frames ends attempted' prepared issued where
  attempts f hf := by
    obtain ⟨id, hid⟩ := h.attempts f hf
    exact ⟨id, hid.mono hsub⟩
  distinct := h.distinct
  reserved request hrequest intent :=
    ⟨((h.reserved request hrequest intent).1).mono hsub, (h.reserved request hrequest intent).2⟩

/-- The reserved request may be dropped. -/
theorem Frames.drop (h : Frames ends attempted prepared issued) :
    Frames ends attempted none issued :=
  ⟨h.attempts, h.distinct, nofun⟩

/-- A new attempt may be reserved. -/
theorem Frames.reserve (htext : Set.InjOn ends.idText {n | n < 2 ^ 128})
    (h : Frames ends attempted none issued) {request : ExecutorRequestIdentity}
    {direction : OperationDirection} (hid : request.operationId < 2 ^ 128)
    (hdirection : request.direction = recordedDirection direction)
    (hfresh : (request.operationId, decide (direction = .rollback)) ∉ attempted) :
    Frames ends ((request.operationId, decide (direction = .rollback)) :: attempted)
      (some request) issued where
  attempts f hf := by
    obtain ⟨id, hattempted⟩ := h.attempts f hf
    exact ⟨id, hattempted.mono (List.subset_cons_self _ _)⟩
  distinct := h.distinct
  reserved := by
    intro r hr intent
    obtain rfl := Option.some.inj hr
    have hwire : (bindOperation ends.toClient request intent).direction = direction := by
      show wireDirection request.direction = direction
      rw [hdirection, wireDirection_recordedDirection]
    refine ⟨⟨hid, rfl, by rw [hwire]; exact .head _⟩, fun f hf hsame => hfresh ?_⟩
    obtain ⟨id, hattempted⟩ := h.attempts f hf
    -- one text is one identifier, so the frame's attempt would be the new one
    have heq : id = request.operationId :=
      htext hattempted.bounded hid (hattempted.names.symm.trans hsame.1)
    have hnoted := hattempted.noted
    rw [heq, hsame.2, hwire] at hnoted
    exact hnoted

/-- The reserved request may be issued. -/
theorem Frames.issue {request : ExecutorRequestIdentity}
    (h : Frames ends attempted (some request) issued) {intent : CommittedJournalEventBinding}
    {frame : AuthenticatedOperationRequest}
    (hframe : frame.operation = bindOperation ends.toClient request intent) :
    Frames ends attempted none (issued ++ [frame]) where
  attempts f hf := by
    rcases List.mem_append.1 hf with hold | hnew
    · exact h.attempts f hold
    · obtain rfl := List.mem_singleton.1 hnew
      rw [hframe]
      exact ⟨_, (h.reserved request rfl intent).1⟩
  distinct := by
    refine List.pairwise_append.2 ⟨h.distinct, List.pairwise_singleton _ _, fun f hf g hg => ?_⟩
    obtain rfl := List.mem_singleton.1 hg
    rw [hframe]
    exact (h.reserved request rfl intent).2 f hf
  reserved := nofun

/-- Issued frames for one operation are one frame. -/
theorem Frames.unique (h : Frames ends attempted prepared issued)
    {f g : AuthenticatedOperationRequest} (hf : f ∈ issued) (hg : g ∈ issued)
    (hsame : SameOperation f.operation g.operation) : f = g := by
  by_contra hne
  have : Std.Symm fun f g : AuthenticatedOperationRequest =>
      ¬SameOperation f.operation g.operation :=
    ⟨fun x y hxy hyx => hxy ⟨hyx.1.symm, hyx.2.symm⟩⟩
  exact h.distinct.forall hf hg hne hsame

end

/-! ## The steps -/

/-- The worker's step: what it answers, it answers once. -/
theorem WorkerSide.step {worker : Worker.State} {issued : List AuthenticatedOperationRequest}
    (h : WorkerSide ends worker issued) (hrunning : worker.result = none)
    {read : Except FrameError (Option AuthenticatedOperationRequest)} {turn : Worker.Turn}
    (hunforged : ∀ request, read = .ok (some request) →
      request.expectedMac ends.wire ends.sessionKey = request.mac → request ∈ issued) :
    WorkerSide ends (Worker.serveTurn ends.context turn read worker) issued := by
  obtain ⟨-, hends | ⟨request, operation, hread, hhandles⟩⟩ :=
    @Worker.serveTurn_cases ends.context turn worker read
  · refine ⟨h.serves.round hrunning read, by rw [hends.calls]; exact h.authentic, ?_⟩
    intro response hresponse
    rcases hends.sent response hresponse with hold | ⟨hsequence, hrefusal⟩
    · rcases h.answers response hold with hcall | ⟨hended, -⟩
      · exact .inl (by rw [hends.calls]; exact hcall)
      · exact absurd hrunning hended
    · refine .inr ⟨hends.result, hrefusal, fun call hcall => ?_⟩
      rw [hends.calls] at hcall
      have hle := h.serves.lawful.sequence_le hcall
      have hnext := (h.serves.tracks hrunning).sequence
      rw [Worker.State.calls] at hnext
      omega
  · refine ⟨h.serves.round hrunning read, ?_, ?_⟩
    · intro call hcall
      rw [hhandles.calls] at hcall
      rcases List.mem_append.1 hcall with hold | hnew
      · exact h.authentic call hold
      · obtain rfl := List.mem_singleton.1 hnew
        exact hunforged request hread hhandles.admitted.verified.mac
    · intro response hresponse
      rcases hhandles.sent response hresponse with hold | ⟨hsequence, hoperation, hnow⟩
      · rcases h.answers response hold with ⟨call, hcall, hanswers⟩ | ⟨hended, -⟩
        · exact .inl ⟨call, by rw [hhandles.calls]; exact List.mem_append_left _ hcall, hanswers⟩
        · exact absurd hrunning hended
      · refine .inl ⟨Worker.callOf ends.context turn request operation, ?_, hoperation.symm,
          hhandles.admitted.verified.sequence.trans hsequence.symm, hnow⟩
        rw [hhandles.calls]
        exact List.mem_append_right _ (List.mem_singleton_self _)

/-- Numbers with at most the same request reserved, and the same one waiting. -/
theorem Numbers.drop {expected next : Nat} {prepared prepared' : Option ExecutorRequestIdentity}
    {waiting : Option Pending} (h : Numbers expected next prepared waiting)
    (hprepared : prepared' = none ∨ prepared' = prepared) :
    Numbers expected next prepared' waiting := by
  rcases hprepared with rfl | rfl
  · exact ⟨h.behind, nofun, h.waits⟩
  · exact h

/-- An entry without an outcome is added. -/
theorem Linked.fail (h : Linked ends link) {link' : Link} {e : Returned} {message : String}
    (hworker : link'.worker = link.worker) (hreturned : link'.returned = link.returned ++ [e])
    (hresult : e.result = .error (.ambiguous message))
    (hissued : link.issued ⊆ link'.issued)
    (hframes : Frames ends link'.coordinator.attempted link'.coordinator.prepared link'.issued)
    (hnumbers : Numbers link'.coordinator.responseVerifier.nextSequence
      link'.coordinator.nextSequence link'.coordinator.prepared link'.waiting)
    (hwaiting : link'.waiting = none) : Linked ends link' where
  worker := by
    rw [hworker]
    exact h.worker.mono hissued
  frames := hframes
  numbers := hnumbers
  pending p hp := by
    rw [hwaiting] at hp
    cases hp
  concluded := by
    intro e' he' result hok
    rw [hreturned] at he'
    rcases List.mem_append.1 he' with hold | hnew
    · exact (h.concluded e' hold result hok).mono hissued (by rw [hworker]; exact List.Subset.refl _)
    · obtain rfl := List.mem_singleton.1 hnew
      rw [hresult] at hok
      cases hok
  ambiguous := by
    intro e' he' error herror
    rw [hreturned] at he'
    rcases List.mem_append.1 he' with hold | hnew
    · exact h.ambiguous e' hold error herror
    · obtain rfl := List.mem_singleton.1 hnew
      rw [hresult] at herror
      exact ⟨message, (Except.error.inj herror).symm⟩

theorem Linked.prepare (htext : Set.InjOn ends.idText {n | n < 2 ^ 128}) (h : Linked ends link)
    (hidle : link.waiting = none) {operationId : OperationStepId} (hid : operationId < 2 ^ 128)
    (direction : OperationDirection) (nonce : Except ApprovedExecutorError Bytes32) :
    Linked ends { link with
      coordinator := (prepareOperation ends.toClient operationId direction nonce
        link.coordinator).2 } := by
  rcases @prepareOperation_cases ends.toClient link.coordinator operationId
    direction nonce with ⟨request, -, hreserved⟩ | ⟨-, attempted, hsub, hafter⟩
  · obtain ⟨-, hfree, hfresh, rfl, hdirection, hsequence, -, hafter⟩ := hreserved
    have hframes := h.frames
    have hnumbers := h.numbers
    rw [hfree] at hframes
    rw [hafter]
    refine ⟨h.worker, hframes.reserve htext hid hdirection hfresh, ⟨?_, ?_, ?_⟩, ?_,
      fun e he result hok => (h.concluded e he result hok).mono (List.Subset.refl _)
        (List.Subset.refl _), h.ambiguous⟩
    · exact Nat.le_succ_of_le hnumbers.behind
    · intro r hr
      obtain rfl := Option.some.inj hr
      rw [hsequence]
      exact ⟨hnumbers.behind, Nat.lt_succ_self _⟩
    · intro p hp
      rw [hidle] at hp
      cases hp
    · intro p hp
      rw [hidle] at hp
      cases hp
  · rw [hafter]
    exact ⟨h.worker, h.frames.attempt hsub, h.numbers, h.pending,
      fun e he result hok => (h.concluded e he result hok).mono (List.Subset.refl _)
        (List.Subset.refl _), h.ambiguous⟩

theorem Linked.dispatch (h : Linked ends link) (hidle : link.waiting = none)
    (request : ExecutorRequestIdentity) (intent : CommittedJournalEventBinding)
    (now : Except String Int) (written : Except String Unit) :
    Linked ends (link.dispatch ends request intent now written) := by
  rcases @beginDispatch_cases ends.toClient link.coordinator request intent
    now with ⟨frame, hbegin, -, hprepared, hsigned⟩ | ⟨message, s', hbegin, hs'⟩
  · obtain ⟨hsequence, hoperation, -⟩ := signRequest_ok hsigned
    have hframes := h.frames
    rw [hprepared] at hframes
    have hnumbers := h.numbers.reserved request hprepared
    cases written with
    | error message =>
      simp only [Link.dispatch, hbegin]
      exact h.fail rfl rfl rfl (List.subset_append_left _ _) (hframes.issue hoperation)
        (h.numbers.drop (.inl rfl)) hidle
    | ok _ =>
      simp only [Link.dispatch, hbegin]
      have hsub : link.issued ⊆ link.issued ++ [frame] := List.subset_append_left _ _
      refine ⟨h.worker.mono hsub, hframes.issue hoperation,
        ⟨h.numbers.behind, nofun, ?_⟩, ?_,
        fun e he result hok => (h.concluded e he result hok).mono hsub (List.Subset.refl _),
        h.ambiguous⟩
      · intro p hp
        obtain rfl := Option.some.inj hp
        exact hnumbers
      · intro p hp
        obtain rfl := Option.some.inj hp
        exact ⟨rfl, List.mem_append_right _ (List.mem_singleton_self _), hoperation, hsequence⟩
  · have hattempted : s'.attempted = link.coordinator.attempted
        ∧ s'.responseVerifier = link.coordinator.responseVerifier
        ∧ s'.nextSequence = link.coordinator.nextSequence
        ∧ (s'.prepared = none ∨ s'.prepared = link.coordinator.prepared) := by
      rcases hs' with ⟨rfl, -⟩ | rfl | ⟨rfl, -⟩
      · exact ⟨rfl, rfl, rfl, .inr rfl⟩
      · exact ⟨rfl, rfl, rfl, .inl rfl⟩
      · exact ⟨rfl, rfl, rfl, .inl rfl⟩
    obtain ⟨hattempted, hverifier, hnext, hprepared⟩ := hattempted
    simp only [Link.dispatch, hbegin]
    refine h.fail rfl rfl rfl (List.Subset.refl _) ?_ ?_ hidle
    · show Frames ends s'.attempted s'.prepared link.issued
      rw [hattempted]
      rcases hprepared with hnone | hsame
      · rw [hnone]
        exact h.frames.drop
      · rw [hsame]
        exact h.frames
    · show Numbers s'.responseVerifier.nextSequence s'.nextSequence s'.prepared link.waiting
      rw [hverifier, hnext]
      exact h.numbers.drop hprepared

theorem Linked.finish (h : Linked ends link) {pending : Pending}
    (hwaiting : link.waiting = some pending) (answer : Except String ExecutorFrame)
    (later : Except String Int)
    (hunforged : link.Unforged ends (.answer answer later)) :
    Linked ends (link.finish ends pending answer later) := by
  obtain ⟨hnone, hissued⟩ := h.pending pending hwaiting
  obtain ⟨hexpected, hbelow⟩ := h.numbers.waits pending hwaiting
  rcases @finishDispatch_cases ends.toClient link.coordinator pending.request
    (bindOperation ends.toClient pending.request pending.intent) answer later with
    ⟨response, verifier, digest, rfl, hfinish, hverified, hnext⟩ |
    ⟨message, verifier, poisoned, hfinish, hnext, -⟩
  · simp only [Link.finish, hfinish]
    have hsent := hunforged response rfl hverified.mac
    refine ⟨h.worker, h.frames, ⟨?_, ?_, nofun⟩, nofun, ?_, ?_⟩
    · show verifier.nextSequence ≤ link.coordinator.nextSequence
      omega
    · intro r hr
      rw [show link.coordinator.prepared = some r from hr] at hnone
      cases hnone
    · intro e he result hok
      rcases List.mem_append.1 he with hold | hnew
      · exact (h.concluded e hold result hok).mono (List.Subset.refl _) (List.Subset.refl _)
      · obtain rfl := List.mem_singleton.1 hnew
        obtain rfl := Except.ok.inj hok
        exact ⟨⟨_, rfl, hissued⟩, ⟨response, hsent, hverified.sessionId, hverified.operation,
          hverified.sequence, rfl⟩, hexpected⟩
    · intro e he error herror
      rcases List.mem_append.1 he with hold | hnew
      · exact h.ambiguous e hold error herror
      · obtain rfl := List.mem_singleton.1 hnew
        cases herror
  · simp only [Link.finish, hfinish]
    refine h.fail rfl rfl rfl (List.Subset.refl _) h.frames ⟨?_, ?_, nofun⟩ rfl
    · show verifier.nextSequence ≤ link.coordinator.nextSequence
      rw [hnext]
      exact h.numbers.behind
    · intro r hr
      rw [show link.coordinator.prepared = some r from hr] at hnone
      cases hnone

/-- Every step keeps the invariant. -/
theorem Linked.step (htext : Set.InjOn ends.idText {n | n < 2 ^ 128}) (h : Linked ends link)
    {call : Call} (hunforged : link.Unforged ends call) : Linked ends (link.step ends call) := by
  cases call with
  | prepare operationId direction nonce =>
    simp only [Link.step]
    split
    · exact h
    · next hidle =>
      exact h.prepare htext (by simpa using hidle) hunforged direction nonce
  | dispatch request intent now written =>
    simp only [Link.step]
    split
    · exact h
    · next hidle => exact h.dispatch (by simpa using hidle) request intent now written
  | answer answer later =>
    simp only [Link.step]
    split
    · exact h
    · next pending hwaiting => exact h.finish hwaiting answer later hunforged
  | worker read turn =>
    simp only [Link.step]
    split
    · exact h
    next hrunning =>
    have hsent := (@Worker.serveTurn_cases ends.context turn link.worker read).1
    exact ⟨h.worker.step (by simpa using hrunning) hunforged, h.frames, h.numbers, h.pending,
      fun e he result hok => (h.concluded e he result hok).mono (List.Subset.refl _) hsent,
      h.ambiguous⟩

theorem Link.start_linked : Linked ends (.start ends) where
  worker := ⟨Worker.State.start_serves ends.context [], fun _ h => absurd h List.not_mem_nil,
    fun _ h => absurd h List.not_mem_nil⟩
  frames := ⟨fun _ h => absurd h List.not_mem_nil, .nil, nofun⟩
  numbers := ⟨Nat.le_refl _, nofun, nofun⟩
  pending := nofun
  concluded _ h := absurd h List.not_mem_nil
  ambiguous _ h := absurd h List.not_mem_nil

end Zemo.ExecutorV2.Channel
