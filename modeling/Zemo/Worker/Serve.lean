import Zemo.ExecutorV2.Auth

set_option autoImplicit false

/-! # The executor worker

`serve` opens one session with the coordinator and then carries out its requests one after the
other, until the stream ends, something is refused, an operation needs recovery or the worker itself
fails. What a worker did is kept in its state: the requests it read, the calls of its handler with
their results, the refusals, and the frames it signed and tried to write.

The clock, the source of nonces, the handler and the writer answer as they like. A loop asks each of
them at most once for a frame, so their answers are one `Turn` for each frame. -/

namespace Zemo.ExecutorV2.Worker

open Checked

/-! ## The handler -/

inductive HandlerOutcome where
  | success (observedStateDigest : Bytes32) (audit : ExecutorAttemptAudit)
  | provenNotApplied (code detail : String) (audit : ExecutorAttemptAudit)
  | recoveryRequired (code detail : String) (audit : ExecutorAttemptAudit)
deriving DecidableEq

namespace HandlerOutcome

def succeeded : HandlerOutcome → Bool
  | success .. => true
  | _ => false

def needsRecovery : HandlerOutcome → Bool
  | recoveryRequired .. => true
  | _ => false

/-- The outcome that is sent for it. -/
def sent (now : Int) : HandlerOutcome → ExecutorOutcome
  | success observedStateDigest audit => .success now observedStateDigest audit
  | provenNotApplied code detail audit => .provenNotApplied code detail audit
  | recoveryRequired code detail audit => .recoveryRequired code detail audit

end HandlerOutcome

/-- A call of the handler and the request it was made for. -/
structure HandlerCall where
  request : AuthenticatedOperationRequest
  envelope : ImmutableExecutionEnvelope
  operation : ApprovedOperationManifest
  direction : OperationDirection
  outcome : HandlerOutcome

inductive ServeEvent where
  | handled (call : HandlerCall)
  | refused (request : AuthenticatedOperationRequest) (refusal : ProtocolRefusal)
  | malformed (error : FrameError)

namespace ServeEvent

def call? : ServeEvent → Option HandlerCall
  | handled call => some call
  | _ => none

/-- The event ends the session: a refusal, a malformed frame or a call that needs recovery. -/
def ends : ServeEvent → Bool
  | handled call => call.outcome.needsRecovery
  | refused .. => true
  | malformed _ => true

end ServeEvent

/-! ## A session -/

/-- What one round of a loop is answered: the clock after the frame was read, the handler, and the
    clock, the nonce and the writer when it replies. -/
structure Turn where
  now : Option Int
  outcome : HandlerOutcome
  sentAt : Option Int
  nonce : Option Bytes32
  written : Except FrameError Unit

inductive ServerExit where
  | coordinatorEof
  | refused
  | recoveryRequired
deriving DecidableEq, Repr

inductive ServerError where
  | rootAuthorityUnavailable
  | clock
  | randomness
  | frame (error : FrameError)
  | authentication (error : AuthenticationError)
deriving DecidableEq, Repr

/-- What does not change in a session. -/
structure Context where
  wire : Wire
  openSession : OpenSession
  sessionKey : Bytes32
  hello : Hello
  rootAuthorityKey : Bytes32

/-- The variables of the loop. -/
structure Session where
  nextSequence : Nat
  seenNonces : List Bytes32
  attemptedBindings : List (String × Bool)
  appliedForward : List String
  remainingRollback : List String

structure State where
  session : Session
  received : List AuthenticatedOperationRequest
  events : List ServeEvent
  sent : List ExecutorFrame
  result : Option (Except ServerError ServerExit)

/-- The calls of the handler, the oldest first. -/
def State.calls (s : State) : List HandlerCall := s.events.filterMap (·.call?)

/-- `serve_session` before its loop. -/
def State.start (openSession : OpenSession) (sent : List ExecutorFrame) : State where
  session :=
    { nextSequence := 1
      seenNonces := []
      attemptedBindings := []
      appliedForward := []
      remainingRollback := openSession.authorization.rollbackEligibleIds }
  received := []
  events := []
  sent := sent
  result := none

section

variable (context : Context) (turn : Turn)

/-- `send_response`: the response when one was signed, and whether it was written. -/
def sendResponse (sequence : Nat) (operation : OperationBinding) (outcome : ExecutorOutcome) :
    Option AuthenticatedOperationResponse × Except ServerError Unit :=
  match turn.sentAt with
  | none => (none, .error .clock)
  | some now =>
    match turn.nonce with
    | none => (none, .error .randomness)
    | some nonce =>
      let expiresAt :=
        min (saturate (now + maxMessageLifetimeMs)) context.openSession.expiresAtUnixMs
      match AuthenticatedOperationResponse.signed context.wire context.openSession sequence nonce now
          expiresAt operation outcome context.sessionKey with
      | .error error => (none, .error (.authentication error))
      | .ok response => (some response, turn.written.mapError .frame)

/-- `refuse_handshake`: the refusal when one was signed, and the end of the worker. -/
def refuseHandshake (wire : Wire) (hello : Hello) (rootAuthorityKey : Bytes32)
    (category : ProtocolRefusalCategory) (code detail : String) :
    Option HandshakeRefusal × Except ServerError ServerExit :=
  match turn.nonce with
  | none => (none, .error .randomness)
  | some nonce =>
    match turn.sentAt with
    | none => (none, .error .clock)
    | some now =>
      match HandshakeRefusal.signed wire hello nonce now { category, code, detail }
          rootAuthorityKey with
      | .error error => (none, .error (.authentication error))
      | .ok refusal => (some refusal, (turn.written.map fun _ => .refused).mapError .frame)

/-- The checks of a request, in the order of the loop, and the operation it names. -/
def admission (session : Session) (request : AuthenticatedOperationRequest) (now : Int) :
    Except ProtocolRefusal ApprovedOperationManifest := do
  let operationId := request.operation.operationId
  let direction := request.operation.direction
  (request.verify context.wire context.openSession session.nextSequence context.sessionKey
    now).mapError fun error =>
      { category := error.refusalCategory
        code := error.refusalCode
        detail := "The operation request failed authenticated session validation." }
  require (request.messageNonce ∉ session.seenNonces)
    { category := .replay
      code := "message_nonce_replay"
      detail := "The operation request reused a session message nonce." }
  require (context.openSession.authorization.permits operationId direction = true)
    { category := .protocol
      code := "operation_direction_not_authorized"
      detail := "The root-authenticated session does not authorize this operation direction." }
  let operation ← orError (context.openSession.envelope.operation operationId)
    { category := .protocol
      code := "operation_not_in_envelope"
      detail := "The requested operation is not in the immutable session envelope." }
  require ((operationId, decide (direction = .rollback)) ∉ session.attemptedBindings)
    { category := .replay
      code := "operation_replay"
      detail := "The operation direction was already attempted in this child process." }
  require (direction = .forward → ∀ d ∈ operation.dependencies, d ∈ session.appliedForward)
    { category := .protocol
      code := "dependency_not_applied"
      detail := "An approved dependency has not completed in this child session." }
  require (direction = .rollback → ∀ candidate ∈ context.openSession.envelope.operations,
      ¬(candidate.operationId ∈ session.remainingRollback
        ∧ operation.operationId ∈ candidate.dependencies))
    { category := .protocol
      code := "rollback_dependency_still_applied"
      detail := "A dependent operation must be rolled back before this operation." }
  .ok operation

/-- Reply to a request that is not admitted. What the checks before the failed one had inserted is
    never read again. -/
def refuse (s : State) (request : AuthenticatedOperationRequest) (refusal : ProtocolRefusal) :
    State :=
  let (response, written) := sendResponse context turn s.session.nextSequence request.operation
    (.protocolRefusal refusal)
  { s with
    events := s.events ++ [.refused request refusal]
    sent := s.sent ++ (response.map .operationResponse).toList
    result := some (written.map fun _ => .refused) }

/-- The variables after the operation of a request was handled and the reply was written. -/
def Session.advance (session : Session) (operation : OperationBinding) (succeeded : Bool) :
    Session :=
  match succeeded, operation.direction with
  | false, _ => session
  | true, .forward => { session with appliedForward := operation.operationId :: session.appliedForward }
  | true, .rollback =>
    { session with
      remainingRollback := session.remainingRollback.filter (· ≠ operation.operationId) }

/-- Handle the operation of an admitted request and reply. -/
def handle (s : State) (request : AuthenticatedOperationRequest)
    (operation : ApprovedOperationManifest) (now : Int) : State :=
  let session : Session :=
    { s.session with
      seenNonces := request.messageNonce :: s.session.seenNonces
      attemptedBindings :=
        (request.operation.operationId, decide (request.operation.direction = .rollback))
          :: s.session.attemptedBindings }
  let call : HandlerCall :=
    { request, envelope := context.openSession.envelope, operation,
      direction := request.operation.direction, outcome := turn.outcome }
  let (response, written) := sendResponse context turn s.session.nextSequence request.operation
    (turn.outcome.sent now)
  let s : State :=
    { s with
      session := session
      events := s.events ++ [.handled call]
      sent := s.sent ++ (response.map .operationResponse).toList }
  match written with
  | .error error => { s with result := some (.error error) }
  | .ok () =>
    let session := session.advance request.operation turn.outcome.succeeded
    if session.nextSequence + 1 < 2 ^ 64 then
      { s with
        session := { session with nextSequence := session.nextSequence + 1 }
        result := if turn.outcome.needsRecovery then some (.ok .recoveryRequired) else none }
    else { s with session := session, result := some (.error (.authentication .sequenceMismatch)) }

/-- A request was read. -/
def serveRequest (s : State) (request : AuthenticatedOperationRequest) : State :=
  let s := { s with received := s.received ++ [request] }
  match turn.now with
  | none => { s with result := some (.error .clock) }
  | some now =>
    match admission context s.session request now with
    | .error refusal => refuse context turn s request refusal
    | .ok operation => handle context turn s request operation now

/-- One round of the loop, given what was read. -/
def serveTurn (read : Except FrameError (Option AuthenticatedOperationRequest)) (s : State) :
    State :=
  match read with
  | .ok none => { s with result := some (.ok .coordinatorEof) }
  | .ok (some request) => serveRequest context turn s request
  | .error error =>
    let (refusal, result) := refuseHandshake turn context.wire context.hello
      context.rootAuthorityKey .protocol error.code "The authenticated session frame was malformed."
    { s with
      events := s.events ++ [.malformed error]
      sent := s.sent ++ (refusal.map .handshakeRefusal).toList
      result := some result }

end

/-- `serve_session`, for as many rounds as there are turns. -/
def serveSession (context : Context) (decode : List UInt8 → Option AuthenticatedOperationRequest) :
    List Turn → List ReadEvent → State → State
  | [], _, s => s
  | turn :: turns, stream, s =>
    if s.result.isSome then s
    else
      serveSession context decode turns (readFrame decode stream).2
        (serveTurn context turn (readFrame decode stream).1 s)

/-! ## The handshake -/

/-- What the handshake is answered: nonce, clock and writer for the hello, the clock after the
    coordinator's frame was read, and nonce, clock and writer for the reply. -/
structure Opening where
  helloNonce : Option Bytes32
  helloAt : Option Int
  helloWritten : Except FrameError Unit
  reply : Turn

structure Served where
  context : Option Context
  state : State

/-- A worker that ended before a session was opened. -/
def Served.closed (sent : List ExecutorFrame) (result : Except ServerError ServerExit) :
    Served where
  context := none
  state :=
    { session :=
        { nextSequence := 1
          seenNonces := []
          attemptedBindings := []
          appliedForward := []
          remainingRollback := [] }
      received := []
      events := []
      sent := sent
      result := some result }

/-- The hello of the worker. -/
def signHello (wire : Wire) (rootAuthorityKey : Bytes32) (workerPid : Nat) (opening : Opening) :
    Except ServerError Hello := do
  let nonce ← orError opening.helloNonce .randomness
  let now ← orError opening.helloAt .clock
  (Hello.signed wire workerPid nonce now rootAuthorityKey).mapError .authentication

/-- The acknowledgement of a session. -/
def signOpened (context : Context) (reply : Turn) : Except ServerError SessionOpened := do
  let nonce ← orError reply.nonce .randomness
  let now ← orError reply.sentAt .clock
  (SessionOpened.signed context.wire context.openSession nonce now
    context.sessionKey).mapError .authentication

/-- The worker ends with a refusal of the handshake. -/
def Served.refuse (wire : Wire) (hello : Hello) (rootAuthorityKey : Bytes32) (reply : Turn)
    (category : ProtocolRefusalCategory) (code detail : String) : Served :=
  let (refusal, result) := refuseHandshake reply wire hello rootAuthorityKey category code detail
  .closed (.hello hello :: (refusal.map .handshakeRefusal).toList) result

/-- `serve` once the frame that opens a session was read. -/
def serveOpen (wire : Wire) (decode : List UInt8 → Option AuthenticatedOperationRequest)
    (rootAuthorityKey : Bytes32) (hello : Hello) (reply : Turn) (turns : List Turn)
    (stream : List ReadEvent) (openSession : OpenSession) : Served :=
  match reply.now with
  | none => .closed [.hello hello] (.error .clock)
  | some now =>
    match openSession.verify wire hello rootAuthorityKey now with
    | .error error =>
      .refuse wire hello rootAuthorityKey reply error.refusalCategory error.refusalCode
        "The execution session could not be authenticated."
    | .ok () =>
      let context : Context :=
        { wire, openSession, hello, rootAuthorityKey
          sessionKey := deriveSessionKey wire rootAuthorityKey hello openSession }
      match signOpened context reply with
      | .error error => .closed [.hello hello] (.error error)
      | .ok opened =>
        let sent : List ExecutorFrame := [.hello hello, .sessionOpened opened]
        match reply.written with
        | .error error => .closed sent (.error (.frame error))
        | .ok () =>
          { context := some context
            state := serveSession context decode turns stream (.start openSession sent) }

/-- `serve`. -/
def serve (wire : Wire) (decodeHandshake : List UInt8 → Option OpenSession)
    (decodeRequest : List UInt8 → Option AuthenticatedOperationRequest)
    (rootAuthorityKey : Bytes32) (workerPid : Nat) (opening : Opening) (turns : List Turn)
    (stream : List ReadEvent) : Served :=
  match signHello wire rootAuthorityKey workerPid opening with
  | .error error => .closed [] (.error error)
  | .ok hello =>
    match opening.helloWritten with
    | .error error => .closed [.hello hello] (.error (.frame error))
    | .ok () =>
      match readFrame decodeHandshake stream with
      | (.ok none, _) => .closed [.hello hello] (.ok .coordinatorEof)
      | (.error error, _) =>
        .refuse wire hello rootAuthorityKey opening.reply .protocol error.code
          "The coordinator handshake frame was rejected."
      | (.ok (some openSession), rest) =>
        serveOpen wire decodeRequest rootAuthorityKey hello opening.reply turns rest openSession

end Zemo.ExecutorV2.Worker
