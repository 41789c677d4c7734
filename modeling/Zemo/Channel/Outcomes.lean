import Zemo.Channel.Agreement
import Zemo.Domain.Tamper

set_option autoImplicit false

/-! # What a returned outcome says

Whatever the channel does, an outcome is never about another operation and never claims more than
the worker did (`Outcomes`). That it carries the number of its request, and that nothing is
dispatched once it is open what became of a request, holds while no dispatch stops half way: one
that could not sign its frame leaves the two counters apart, and one that cannot read the clock when
its answer has come leaves the session usable. -/

namespace Zemo.ExecutorV2.Channel

open Checked Run History

variable {ends : Endpoints} {link : Link}

/-- The outcome says the operation was not carried out. -/
def deniesEffect : ExecutorOutcome → Bool
  | .provenNotApplied .. => true
  | .protocolRefusal _ => true
  | _ => false

/-- What the outcomes of a link say of the worker. -/
structure Outcomes (ends : Endpoints) (link : Link) : Prop where
  /-- The worker has sent that outcome for that operation in this session. -/
  sent : ∀ e ∈ link.returned, ∀ result, e.result = .ok result →
    ∃ response, .operationResponse response ∈ link.worker.sent
      ∧ response.sessionId = ends.openSession.sessionId
      ∧ response.operation = e.operation ends
      ∧ response.sequence = e.expected
      ∧ response.outcome = result.outcome
  /-- An outcome that is no refusal is that of a call of the handler for the very frame. -/
  handled : ∀ e ∈ link.returned, ∀ result, e.result = .ok result →
    (∀ refusal, result.outcome ≠ .protocolRefusal refusal) →
    ∃ call ∈ link.worker.calls, e.frame = some call.request
      ∧ call.request.sequence = e.request.requestSequence
      ∧ call.request.operation = e.operation ends
      ∧ ∃ now, result.outcome = call.outcome.sent now
  /-- What is said not to be applied was not handled with success. -/
  denied : ∀ e ∈ link.returned, ∀ result, e.result = .ok result →
    deniesEffect result.outcome = true →
    ∀ call ∈ link.worker.calls, SameOperation call.request.operation (e.operation ends) →
      call.outcome.succeeded = false
  /-- Every other dispatch is ambiguous. -/
  ambiguous : ∀ e ∈ link.returned, ∀ error, e.result = .error error →
    ∃ message, error = .ambiguous message

theorem succeeded_of_sent {outcome : Worker.HandlerOutcome} {now : Int}
    (h : deniesEffect (outcome.sent now) = true) : outcome.succeeded = false := by
  cases outcome with
  | success => cases h
  | provenNotApplied => rfl
  | recoveryRequired => rfl

/-- Two calls of a session for one operation are one call. -/
theorem calls_unique {context : Worker.Context} {worker : Worker.State}
    (h : Worker.Serves context worker) {c d : Worker.HandlerCall} (hc : c ∈ worker.calls)
    (hd : d ∈ worker.calls) (heq : c.request = d.request) : c = d := by
  by_contra hne
  have hpairs : worker.calls.Pairwise fun c d => c.request ≠ d.request := by
    have hevents : worker.events.Pairwise fun a b => ∀ c d, a = .handled c → b = .handled d →
        c.request ≠ d.request := by
      refine Each.pairwise (h.lawful.imp fun before event hlawful b hb c d hbc hed => ?_)
      have hmem : c ∈ before.filterMap (·.call?) :=
        List.mem_filterMap.2 ⟨b, hb, by rw [hbc]; rfl⟩
      intro hsame
      exact (hlawful d hed).nonce c hmem (by rw [hsame])
    refine List.pairwise_filterMap.2 (hevents.imp fun {a b} hab c hac d hbd => ?_)
    have hcall : ∀ (event : Worker.ServeEvent) call, event.call? = some call →
        event = .handled call := by
      intro event call hevent
      cases event with
      | handled => exact congrArg _ (Option.some.inj hevent)
      | refused => cases hevent
      | malformed => cases hevent
    exact hab c d (hcall a c hac) (hcall b d hbd)
  have : Std.Symm fun c d : Worker.HandlerCall => c.request ≠ d.request :=
    ⟨fun _ _ hxy => hxy.symm⟩
  exact hpairs.forall hc hd hne heq

/-- The invariant says what the outcomes mean. -/
theorem Linked.outcomes (h : Linked ends link) : Outcomes ends link where
  sent e he result hok := by
    obtain ⟨response, hmem, hsession, hoperation, hsequence, houtcome⟩ :=
      (h.concluded e he result hok).response
    exact ⟨response, hmem, hsession, hoperation, hsequence, houtcome⟩
  handled := by
    intro e he result hok hno
    obtain ⟨⟨frame, hframe, hissued⟩, ⟨response, hmem, -, hoperation, -, houtcome⟩, -⟩ :=
      h.concluded e he result hok
    rcases h.worker.answers response hmem with ⟨call, hcall, hnamed, -, now, hsent⟩ |
      ⟨-, ⟨refusal, hrefusal⟩, -⟩
    · have hsame : SameOperation call.request.operation frame.operation := by
        rw [hnamed, hoperation, hissued.operation]
        exact ⟨rfl, rfl⟩
      obtain rfl := h.frames.unique (h.worker.authentic call hcall) hissued.mem hsame
      exact ⟨call, hcall, hframe, hissued.sequence, hissued.operation, now,
        houtcome.symm.trans hsent⟩
    · exact absurd (houtcome.symm.trans hrefusal) (hno refusal)
  denied := by
    intro e he result hok hdenies call hcall hsame
    obtain ⟨⟨frame, hframe, hissued⟩, ⟨response, hmem, -, hoperation, hsequence, houtcome⟩,
      hexpected⟩ := h.concluded e he result hok
    rw [← hissued.operation] at hsame
    have hrequest := h.frames.unique (h.worker.authentic call hcall) hissued.mem hsame
    rcases h.worker.answers response hmem with ⟨c, hc, hnamed, -, now, hsent⟩ | ⟨-, -, hbelow⟩
    · have hsame' : SameOperation c.request.operation frame.operation := by
        rw [hnamed, hoperation, hissued.operation]
        exact ⟨rfl, rfl⟩
      have hc' := h.frames.unique (h.worker.authentic c hc) hissued.mem hsame'
      obtain rfl := calls_unique h.worker.serves hcall hc (hrequest.trans hc'.symm)
      rw [← houtcome, hsent] at hdenies
      exact succeeded_of_sent hdenies
    · -- a refusal has the number of no handled request, and this one is not beyond it
      have hlt := hbelow call hcall
      rw [hrequest, hissued.sequence, hsequence] at hlt
      omega
  ambiguous := h.ambiguous

/-! ## Dispatches that stop half way -/

/-- No dispatch stops half way in this step: a request that has its permit can be signed, and the
    clock can be read when its answer has come. -/
def Link.Steady (ends : Endpoints) (link : Link) : Call → Prop
  | .dispatch request intent now _ => link.coordinator.poisoned = false →
      link.coordinator.prepared = some request → Signable ends.toClient request intent now
  | .answer answer later => (∃ response, answer = .ok (.operationResponse response)) →
      ∃ time, later = .ok time
  | _ => True

/-- The dispatch sent its frame and has no outcome. -/
def Returned.Open (e : Returned) : Prop := e.frame.isSome = true ∧ e.result.toOption = none

/-- While nothing stops half way: verifier and session count alike, and a session with an open
    dispatch is poisoned. -/
structure InStep (link : Link) : Prop where
  valid : ∀ request, link.coordinator.prepared = some request →
    request.requestSequence ≠ 0 ∧ request.requestNonce.isZero = false
  idle : link.coordinator.poisoned = false → link.coordinator.prepared = none →
    link.waiting = none →
    link.coordinator.responseVerifier.nextSequence = link.coordinator.nextSequence
  reserved : ∀ request, link.coordinator.prepared = some request →
    link.coordinator.poisoned = false → link.waiting = none ∧
    link.coordinator.responseVerifier.nextSequence = request.requestSequence ∧
    link.coordinator.nextSequence = request.requestSequence + 1
  waits : ∀ p, link.waiting = some p → link.coordinator.poisoned = false ∧
    link.coordinator.responseVerifier.nextSequence = p.request.requestSequence ∧
    link.coordinator.nextSequence = p.request.requestSequence + 1
  expected : ∀ e ∈ link.returned, ∀ result, e.result = .ok result →
    e.expected = e.request.requestSequence
  closed : link.coordinator.poisoned = false → ∀ e ∈ link.returned, ¬e.Open
  last : Each (fun before e => e.frame.isSome = true → ∀ b ∈ before, ¬b.Open) link.returned

theorem Link.start_inStep : InStep (.start ends) where
  valid := nofun
  idle _ _ _ := rfl
  reserved := nofun
  waits := nofun
  expected _ h := absurd h List.not_mem_nil
  closed _ _ h := absurd h List.not_mem_nil
  last := each_nil

theorem InStep.prepare (h : InStep link) (hidle : link.waiting = none)
    (operationId : OperationStepId) (direction : OperationDirection)
    (nonce : Except ApprovedExecutorError Bytes32) :
    InStep { link with
      coordinator := (prepareOperation ends.toClient operationId direction nonce
        link.coordinator).2 } := by
  rcases @prepareOperation_cases ends.toClient link.coordinator operationId direction nonce with
    ⟨request, -, hreserved⟩ | ⟨-, attempted, -, hafter⟩
  · obtain ⟨hrunning, hfree, -, -, -, hsequence, hvalid, hafter⟩ := hreserved
    rw [hafter]
    refine ⟨?_, nofun, ?_, ?_, h.expected, h.closed, h.last⟩
    · intro r hr
      obtain rfl := Option.some.inj hr
      exact hvalid
    · intro r hr _
      obtain rfl := Option.some.inj hr
      rw [hsequence]
      exact ⟨hidle, h.idle hrunning hfree hidle, rfl⟩
    · intro p hp
      rw [hidle] at hp
      cases hp
  · rw [hafter]
    exact ⟨h.valid, h.idle, h.reserved, h.waits, h.expected, h.closed, h.last⟩

/-- A dispatch is added that leaves no doubt, or leaves the session poisoned. -/
theorem InStep.concat (h : InStep link) {e : Returned} {s : Session}
    (hvalid : ∀ request, s.prepared = some request →
      request.requestSequence ≠ 0 ∧ request.requestNonce.isZero = false)
    (hidle : s.poisoned = false → s.prepared = none ∧
      s.responseVerifier.nextSequence = s.nextSequence ∧ link.coordinator.poisoned = false)
    (hexpected : ∀ result, e.result = .ok result → e.expected = e.request.requestSequence)
    (hclosed : s.poisoned = false → ¬e.Open)
    (hlast : e.frame.isSome = true → link.coordinator.poisoned = false)
    (issued : List AuthenticatedOperationRequest) :
    InStep { link with
      coordinator := s, issued := issued, waiting := none, returned := link.returned ++ [e] } where
  valid := hvalid
  idle hrunning _ _ := (hidle hrunning).2.1
  reserved request hrequest hrunning := by
    rw [(hidle hrunning).1] at hrequest
    cases hrequest
  waits := nofun
  expected e' he' result hok := by
    rcases List.mem_append.1 he' with hold | hnew
    · exact h.expected e' hold result hok
    · obtain rfl := List.mem_singleton.1 hnew
      exact hexpected result hok
  closed hrunning e' he' := by
    rcases List.mem_append.1 he' with hold | hnew
    · exact h.closed (hidle hrunning).2.2 e' hold
    · obtain rfl := List.mem_singleton.1 hnew
      exact hclosed hrunning
  last := h.last.concat fun hframe => h.closed (hlast hframe)

theorem InStep.dispatch (h : InStep link) (hidle : link.waiting = none)
    {request : ExecutorRequestIdentity} {intent : CommittedJournalEventBinding}
    {now : Except String Int} {written : Except String Unit}
    (hsteady : link.Steady ends (.dispatch request intent now written)) :
    InStep (link.dispatch ends request intent now written) := by
  rcases @beginDispatch_cases ends.toClient link.coordinator request intent now with
    ⟨frame, hbegin, hrunning, hprepared, hsigned⟩ | ⟨message, s', hbegin, hs'⟩
  · obtain ⟨-, hnumber, hnext⟩ := h.reserved request hprepared hrunning
    cases written with
    | error message =>
      simp only [Link.dispatch, hbegin]
      have hadd := @InStep.concat link h ⟨request, intent, some frame,
        link.coordinator.responseVerifier.nextSequence, .error (.ambiguous message)⟩
        (Session.poison { link.coordinator with prepared := none })
        (fun _ hr => by cases hr) (fun hpoison => by cases hpoison) (fun _ hok => by cases hok)
        (fun hpoison => by cases hpoison) (fun _ => hrunning) (link.issued ++ [frame])
      rw [hidle]
      exact hadd
    | ok _ =>
      simp only [Link.dispatch, hbegin]
      refine ⟨(fun _ hr => by cases hr), (fun _ _ hw => by cases hw), (fun _ hr => by cases hr), ?_,
        h.expected, h.closed, h.last⟩
      intro p hp
      obtain rfl := Option.some.inj hp
      exact ⟨hrunning, hnumber, hnext⟩
  · have hpoisoned : s'.poisoned = true := by
      rcases hs' with ⟨rfl, hpoisoned⟩ | rfl | ⟨-, hrunning, hprepared, error, hsign⟩
      · exact hpoisoned
      · rfl
      · obtain ⟨hsequence, hnonce⟩ := h.valid request hprepared
        obtain ⟨frame, hframe⟩ := (hsteady hrunning hprepared).signRequest hsequence hnonce
        rw [hframe] at hsign
        cases hsign
    have hvalid : ∀ r, s'.prepared = some r →
        r.requestSequence ≠ 0 ∧ r.requestNonce.isZero = false := by
      intro r hr
      rcases hs' with ⟨rfl, -⟩ | rfl | ⟨rfl, -⟩
      · exact h.valid r hr
      · cases hr
      · cases hr
    simp only [Link.dispatch, hbegin]
    have hadd := @InStep.concat link h ⟨request, intent, none,
      link.coordinator.responseVerifier.nextSequence, .error (.ambiguous message)⟩ s' hvalid
      (fun hrunning => by rw [hpoisoned] at hrunning; cases hrunning) (fun _ hok => by cases hok)
      (fun hrunning => by rw [hpoisoned] at hrunning; cases hrunning)
      (fun hframe => by cases hframe) link.issued
    rw [hidle]
    exact hadd

theorem InStep.finish (h : InStep link) {pending : Pending}
    (hwaiting : link.waiting = some pending) (hfree : link.coordinator.prepared = none)
    {answer : Except String ExecutorFrame} {later : Except String Int}
    (hsteady : link.Steady ends (.answer answer later)) :
    InStep (link.finish ends pending answer later) := by
  obtain ⟨hrunning, hnumber, hnext⟩ := h.waits pending hwaiting
  rcases @finishDispatch_cases ends.toClient link.coordinator pending.request
    (bindOperation ends.toClient pending.request pending.intent) answer later with
    ⟨response, verifier, digest, -, hfinish, -, hverifier⟩ |
    ⟨message, verifier, poisoned, hfinish, -, hpoisoned⟩
  · simp only [Link.finish, hfinish]
    refine h.concat ?_ ?_ ?_ ?_ ?_ _
    · intro r hr
      rw [show link.coordinator.prepared = some r from hr] at hfree
      cases hfree
    · intro _
      refine ⟨hfree, ?_, hrunning⟩
      show verifier.nextSequence = link.coordinator.nextSequence
      omega
    · intro _ _
      exact hnumber
    · rintro - ⟨-, hopen⟩
      cases hopen
    · intro _
      exact hrunning
  · obtain rfl : poisoned = true := by
      rcases hpoisoned with hpoisoned | ⟨hresponse, message, rfl⟩
      · exact hpoisoned
      · obtain ⟨time, htime⟩ := hsteady hresponse
        cases htime
    simp only [Link.finish, hfinish]
    refine h.concat ?_ (fun hpoison => by cases hpoison) (fun _ hok => by cases hok)
      (fun hpoison => by cases hpoison) (fun _ => hrunning) _
    intro r hr
    rw [show link.coordinator.prepared = some r from hr] at hfree
    cases hfree

theorem InStep.step (h : InStep link) (hlinked : Linked ends link) {call : Call}
    (hsteady : link.Steady ends call) : InStep (link.step ends call) := by
  cases call with
  | prepare operationId direction nonce =>
    simp only [Link.step]
    split
    · exact h
    · next hidle => exact h.prepare (by simpa using hidle) operationId direction nonce
  | dispatch request intent now written =>
    simp only [Link.step]
    split
    · exact h
    · next hidle => exact h.dispatch (by simpa using hidle) hsteady
  | answer answer later =>
    simp only [Link.step]
    split
    · exact h
    · next pending hwaiting =>
      exact h.finish hwaiting (hlinked.pending pending hwaiting).1 hsteady
  | worker read turn =>
    simp only [Link.step]
    split
    · exact h
    · exact ⟨h.valid, h.idle, h.reserved, h.waits, h.expected, h.closed, h.last⟩

/-! ## Agreement -/

/-- The two sides agree: what a dispatch returns the worker has sent for that very request, number
    included, and nothing is sent after a dispatch that sent its request and has no outcome. -/
structure Agreement (ends : Endpoints) (link : Link) : Prop extends Outcomes ends link where
  numbered : ∀ e ∈ link.returned, ∀ result, e.result = .ok result →
    e.expected = e.request.requestSequence
  last : Each (fun before e => e.frame.isSome = true → ∀ b ∈ before, ¬b.Open) link.returned
  final : link.waiting.isSome = true → ∀ e ∈ link.returned, ¬e.Open

/-- **Coordinator and worker agree on outcomes** in every run in which no dispatch stops half way,
    over a channel that cannot forge. -/
theorem agreement_of_steady_run (ends : Endpoints)
    (htext : Set.InjOn ends.idText {n | n < 2 ^ 128}) (link : Link)
    (h : Reach (fun l c => Link.step ends l c) (fun l c => l.Unforged ends c ∧ l.Steady ends c)
      (.start ends) link) : Agreement ends link := by
  have hboth : Linked ends link ∧ InStep link :=
    h.invariant (I := fun l => Linked ends l ∧ InStep l) ⟨Link.start_linked, Link.start_inStep⟩ fun _ _ hl hc =>
      ⟨hl.1.step htext hc.1, hl.2.step hl.1 hc.2⟩
  refine ⟨hboth.1.outcomes, hboth.2.expected, hboth.2.last, fun hwaiting => ?_⟩
  obtain ⟨p, hp⟩ := Option.isSome_iff_exists.1 hwaiting
  exact hboth.2.closed (hboth.2.waits p hp).1

/-! ## A small run

The folder is requested, handled, and its answer comes back. -/

def sampleEnds : Endpoints where
  wire := sampleWire
  hashes :=
    { plan := { json := fun _ => [], hash := fun _ => "h" }
      requestId := fun _ _ _ => "r"
      requestDigest := fun _ _ _ _ _ _ => "d"
      nonceHash := fun _ => "n" }
  responseDigest := fun _ _ => "d"
  idText := uuidString
  openSession := sampleOpenSession
  sessionKey := sampleSessionKey
  identity :=
    { sessionId := "s", executionId := 3, planId := 5, planDigestHex := "p", purpose := .forward
      coordinatorPid := 40, childPid := some 41, workerNonceHashHex := "n"
      coordinatorNonceHashHex := "n", responseNonceHashHex := none, openedAtUnixMs := 2000 }
  hello := sampleHello
  rootAuthorityKey := sampleRootKey

/-- The identity a request for an operation is reserved with. -/
def sampleIdentity (sequence : Nat) (nonce : UInt8) (operationId : OperationStepId) :
    ExecutorRequestIdentity where
  requestId := "r"
  sessionId := "s"
  executionId := 3
  operationId := operationId
  direction := .forward
  requestSequence := sequence
  requestNonce := Bytes32.filled nonce
  requestDigestHex := "d"

/-- What the worker answers to the request for the folder. -/
def sampleResponse : AuthenticatedOperationResponse :=
  let material : OperationResponseMacMaterial :=
    { AuthenticatedOperationRequest.material sampleOpenSession 1 (Bytes32.filled 21) 2001 32001
        { operationId := sampleStepId true, direction := .forward, journalIntent := sampleIntent }
      with
      outcome := .success 2001 (Bytes32.filled 5) { attemptCount := 1, errorClass := none } }
  { material with
    mac := keyedMac sampleWire responseMacDomain sampleSessionKey (.response material) }

/-- The runs of the sample in which nothing is forged and no dispatch stops half way. -/
abbrev SampleReach : Link → Prop :=
  Reach (fun l c => Link.step sampleEnds l c)
    (fun l c => l.Unforged sampleEnds c ∧ l.Steady sampleEnds c) (.start sampleEnds)

/-- The runs in which nothing is forged. -/
abbrev SampleUnforged : Link → Prop :=
  Reach (fun l c => Link.step sampleEnds l c) (fun l c => l.Unforged sampleEnds c)
    (.start sampleEnds)

def sampleReserved : Link :=
  Link.step sampleEnds (.start sampleEnds) (.prepare 1 .forward (.ok (Bytes32.filled 11)))

def sampleSent : Link :=
  Link.step sampleEnds sampleReserved
    (.dispatch (sampleIdentity 1 11 1) sampleIntent (.ok 2000) (.ok ()))

def sampleHandled : Link :=
  Link.step sampleEnds sampleSent
    (.worker (.ok (some (sampleRequest 1 11 true))) (Worker.sampleTurn 21))

theorem sampleHandled_sent : .operationResponse sampleResponse ∈ sampleHandled.worker.sent := by
  decide +kernel

theorem sampleSent_issued : sampleRequest 1 11 true ∈ sampleSent.issued := by
  decide +kernel

theorem sampleHandled_reach : SampleReach sampleHandled := by
  have hreserved : SampleReach sampleReserved :=
    Reach.step .start ⟨(by decide : (1 : Nat) < 2 ^ 128), trivial⟩
  have hsent : SampleReach sampleSent :=
    Reach.step hreserved ⟨trivial, fun _ _ => ⟨rfl, 2000, rfl, rfl⟩⟩
  refine Reach.step hsent ⟨fun request hread _ => ?_, trivial⟩
  obtain rfl := Option.some.inj (Except.ok.inj hread)
  exact sampleSent_issued

theorem sampleHandled_answer (later : Except String Int) :
    sampleHandled.Unforged sampleEnds (.answer (.ok (.operationResponse sampleResponse)) later) := by
  intro response hresponse _
  obtain rfl := ExecutorFrame.operationResponse.inj (Except.ok.inj hresponse)
  exact sampleHandled_sent

/-- The answer is accepted. -/
def sampleAnswered : Link :=
  Link.step sampleEnds sampleHandled (.answer (.ok (.operationResponse sampleResponse)) (.ok 2002))

theorem agreement_of_steady_run_sample :
    (∃ e ∈ sampleAnswered.returned, e.result.toOption.isSome = true)
      ∧ Agreement sampleEnds sampleAnswered :=
  ⟨by decide +kernel, agreement_of_steady_run sampleEnds uuidString_injOn sampleAnswered
    (Reach.step sampleHandled_reach ⟨sampleHandled_answer _, fun _ => ⟨2002, rfl⟩⟩)⟩

/-! ## The clock fails when the answer has come -/

/-- The clock cannot be read when the answer has come. -/
def sampleOpen : Link :=
  Link.step sampleEnds sampleHandled
    (.answer (.ok (.operationResponse sampleResponse)) (.error "clock"))

def sampleReservedNext : Link :=
  Link.step sampleEnds sampleOpen (.prepare 2 .forward (.ok (Bytes32.filled 12)))

def sampleSentNext : Link :=
  Link.step sampleEnds sampleReservedNext
    (.dispatch (sampleIdentity 2 12 2) sampleIntent (.ok 2000) (.ok ()))

def sampleHandledNext : Link :=
  Link.step sampleEnds sampleSentNext
    (.worker (.ok (some (sampleRequest 2 12 false))) (Worker.sampleTurn 22))

theorem sampleSentNext_issued : sampleRequest 2 12 false ∈ sampleSentNext.issued := by
  decide +kernel

/-- The first dispatch sent its request and is open, and yet the second request was sent and
    handled. -/
theorem dispatched_after_open_outcome :
    SampleUnforged sampleHandledNext ∧ sampleHandledNext.worker.calls.length = 2
      ∧ ¬Agreement sampleEnds sampleHandledNext := by
  have hopen : SampleUnforged sampleOpen :=
    Reach.step (sampleHandled_reach.mono fun _ _ hc => hc.1) (sampleHandled_answer _)
  have hreserved : SampleUnforged sampleReservedNext :=
    Reach.step hopen (by decide : (2 : Nat) < 2 ^ 128)
  have hsent : SampleUnforged sampleSentNext := Reach.step hreserved trivial
  refine ⟨Reach.step hsent fun request hread _ => ?_, by decide +kernel, fun h => ?_⟩
  · obtain rfl := Option.some.inj (Except.ok.inj hread)
    exact sampleSentNext_issued
  · have hwaiting : sampleHandledNext.waiting.isSome = true := by decide +kernel
    have hopen : ∃ e ∈ sampleHandledNext.returned, e.frame.isSome = true
        ∧ e.result.toOption.isNone = true := by decide +kernel
    obtain ⟨e, he, hframe, hnone⟩ := hopen
    exact h.final hwaiting e he ⟨hframe, Option.isNone_iff_eq_none.1 hnone⟩

end Zemo.ExecutorV2.Channel
