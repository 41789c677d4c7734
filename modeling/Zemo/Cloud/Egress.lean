import Mathlib.Algebra.GroupWithZero.Nat
import Zemo.Cloud.Gateway
import Zemo.Lib.Run

set_option autoImplicit false

/-! # What leaves the machine

A ledger is used by any number of calls, in any order. What was granted, revoked and handed to a
transport is the history of the run, and `Lawful` says of a history that everything sent was
consented to. The counters of the ledger count what the envelopes declare, so the law holds as far
as the envelopes tell the truth and no grant takes the place of another (`egress_lawful`). -/

namespace Zemo.Cloud

open Checked

/-! ## Runs -/

/-- What was handed to a transport under a grant. -/
structure Transmission where
  workspaceId : WorkspaceId
  taskId : String
  providerId : String
  modelReleaseId : ModelReleaseId
  dataClass : DataClass
  content : String
  sentAtUnixMs : Int
deriving DecidableEq

inductive EgressEvent where
  | granted (grant : ConsentGrant)
  | revoked (grantId : ConsentGrantId)
  | sent (grantId : ConsentGrantId) (transmission : Transmission)
deriving DecidableEq

/-- A use of the ledger. -/
inductive LedgerCall where
  | grant (grant : ConsentGrant)
  | revoke (grantId : ConsentGrantId)
  | invoke (descriptor : ProviderDescriptor) (workspaceId : WorkspaceId)
      (request : InferenceRequest) (nowUnixMs : Int)

structure EgressRun where
  ledger : ConsentLedger := .empty
  history : List EgressEvent := []

/-- What a call sends. -/
def transmission (descriptor : ProviderDescriptor) (workspaceId : WorkspaceId)
    (request : InferenceRequest) (nowUnixMs : Int) (body : CloudBody) : Transmission where
  workspaceId := workspaceId
  taskId := request.jobId
  providerId := descriptor.providerId
  modelReleaseId := descriptor.modelReleaseId
  dataClass := request.input.dataClass
  content := body.content
  sentAtUnixMs := nowUnixMs

variable {ρ τ : Type}

/-- A call, and what is remembered of it. The transport may answer each call as it likes. -/
def EgressRun.step (transport : LedgerCall → Transport ρ τ) (run : EgressRun) (call : LedgerCall) :
    EgressRun :=
  match call with
  | .grant grant =>
      { ledger := run.ledger.grant grant, history := run.history ++ [.granted grant] }
  | .revoke grantId =>
      match run.ledger.revoke grantId with
      | .error _ => run
      | .ok ledger => { ledger := ledger, history := run.history ++ [.revoked grantId] }
  | .invoke descriptor workspaceId request now =>
      let outcome := invokeOnce run.ledger descriptor (transport call) workspaceId request now
      match outcome.handed with
      | none => { run with ledger := outcome.ledger }
      | some (grantId, body) =>
          { ledger := outcome.ledger
            history := run.history
              ++ [.sent grantId (transmission descriptor workspaceId request now body)] }

/-! ## The law -/

/-- What was sent under a grant. -/
def sentUnder (grantId : ConsentGrantId) (history : List EgressEvent) : List Transmission :=
  history.filterMap fun
    | .sent id transmission => if id = grantId then some transmission else none
    | _ => none

/-- The bytes that were sent. -/
def bytesOf (transmissions : List Transmission) : Nat :=
  (transmissions.map fun t => (utf8Bytes t.content).length).sum

/-- The grant allows the transmission. -/
structure Allows (blake3 : List UInt8 → Digest) (grant : ConsentGrant) (sent : Transmission) :
    Prop where
  artifact : blake3 (utf8Bytes sent.content) ∈ grant.artifactDigests
  dataClass : sent.dataClass ∈ grant.allowedDataClasses
  workspace : sent.workspaceId = grant.workspaceId
  task : sent.taskId = grant.taskId
  provider : sent.providerId = grant.providerId
  model : sent.modelReleaseId = grant.modelReleaseId
  time : sent.sentAtUnixMs ≤ grant.expiresAtUnixMs

/-- What was sent under an identifier keeps to the grant. -/
structure Within (blake3 : List UInt8 → Digest) (grant : ConsentGrant)
    (transmissions : List Transmission) : Prop where
  calls : transmissions.length ≤ grant.maxCalls.toNat
  bytes : bytesOf transmissions ≤ grant.maxBytes.toNat
  each : ∀ sent ∈ transmissions, Allows blake3 grant sent

/-- Everything sent was consented to, by a grant that was not revoked before. -/
structure Lawful (blake3 : List UInt8 → Digest) (history : List EgressEvent) : Prop where
  granted : ∀ id, sentUnder id history ≠ [] → ∃ grant, EgressEvent.granted grant ∈ history
    ∧ grant.id = id ∧ Within blake3 grant (sentUnder id history)
  live : History.Each (fun before event => ∀ id sent, event = .sent id sent →
    EgressEvent.revoked id ∉ before) history

/-! ## The condition -/

/-- The envelope tells the truth about its text. -/
structure Declares (blake3 : List UInt8 → Digest) (envelope : ContentEnvelope) : Prop where
  digest : envelope.digest = blake3 (utf8Bytes envelope.text)
  bytes : (utf8Bytes envelope.text).length ≤ envelope.byteLength.toNat

/-- A grant has an identifier the ledger does not hold; a request that the ledger allows has an
    envelope that tells the truth, and does not take the count of bytes beyond 64 bits. -/
def Honest (blake3 : List UInt8 → Digest) (run : EgressRun) : LedgerCall → Prop
  | .grant grant => run.ledger grant.id = none
  | .revoke _ => True
  | .invoke descriptor workspaceId request now => ∀ id state, request.policy = .cloudOnce id →
      run.ledger id = some state → state.revoked = false →
      state.grant.covers (egressRequest descriptor workspaceId request now) →
        Declares blake3 request.input
          ∧ state.bytesUsed.toNat + request.input.byteLength.toNat < UInt64.size

/-! ## The invariant -/

/-- What is known of an identifier, from its state and the history. -/
structure Counted (blake3 : List UInt8 → Digest) (id : ConsentGrantId) (state : GrantState)
    (history : List EgressEvent) : Prop where
  granted : EgressEvent.granted state.grant ∈ history
  names : state.grant.id = id
  calls : (sentUnder id history).length = state.callsUsed.toNat
  callBudget : state.callsUsed ≤ state.grant.maxCalls
  bytes : bytesOf (sentUnder id history) ≤ state.bytesUsed.toNat
  byteBudget : state.bytesUsed ≤ state.grant.maxBytes
  each : ∀ sent ∈ sentUnder id history, Allows blake3 state.grant sent
  live : state.revoked = false → EgressEvent.revoked id ∉ history

/-- The ledger knows of each identifier at least what was done under it. -/
structure Accounted (blake3 : List UInt8 → Digest) (run : EgressRun) : Prop where
  unknown : ∀ id, run.ledger id = none →
    sentUnder id run.history = [] ∧ EgressEvent.revoked id ∉ run.history
  known : ∀ id state, run.ledger id = some state → Counted blake3 id state run.history
  live : History.Each (fun before event => ∀ id sent, event = .sent id sent →
    EgressEvent.revoked id ∉ before) run.history

theorem Accounted.lawful {blake3 : List UInt8 → Digest} {run : EgressRun}
    (h : Accounted blake3 run) : Lawful blake3 run.history := by
  refine ⟨fun id hsent => ?_, h.live⟩
  cases hstate : run.ledger id with
  | none => exact absurd (h.unknown id hstate).1 hsent
  | some state =>
      have hcounted := h.known id state hstate
      refine ⟨state.grant, hcounted.granted, hcounted.names, ?_, ?_, hcounted.each⟩
      · rw [hcounted.calls]
        exact UInt32.le_iff_toNat_le.1 hcounted.callBudget
      · exact Nat.le_trans hcounted.bytes (UInt64.le_iff_toNat_le.1 hcounted.byteBudget)

/-! ## What a call adds to the history -/

theorem sentUnder_append (id : ConsentGrantId) (history more : List EgressEvent) :
    sentUnder id (history ++ more) = sentUnder id history ++ sentUnder id more :=
  List.filterMap_append

@[simp] theorem sentUnder_granted (id : ConsentGrantId) (grant : ConsentGrant) :
    sentUnder id [.granted grant] = [] := rfl

@[simp] theorem sentUnder_revoked (id other : ConsentGrantId) :
    sentUnder id [.revoked other] = [] := rfl

theorem sentUnder_sent_self (id : ConsentGrantId) (sent : Transmission) :
    sentUnder id [.sent id sent] = [sent] := by
  simp [sentUnder]

theorem sentUnder_sent_other {id other : ConsentGrantId} (h : id ≠ other) (sent : Transmission) :
    sentUnder id [.sent other sent] = [] := by
  simp [sentUnder, h.symm]

theorem bytesOf_append (sent more : List Transmission) :
    bytesOf (sent ++ more) = bytesOf sent + bytesOf more := by
  simp [bytesOf]

/-- An event that sends nothing. -/
theorem live_quiet {history : List EgressEvent} {event : EgressEvent}
    (h : History.Each (fun before event => ∀ id sent, event = .sent id sent →
      EgressEvent.revoked id ∉ before) history) (hquiet : ∀ id sent, event ≠ .sent id sent) :
    History.Each (fun before event => ∀ id sent, event = .sent id sent →
      EgressEvent.revoked id ∉ before) (history ++ [event]) :=
  h.concat fun id sent heq => absurd heq (hquiet id sent)

/-- An event that sends and revokes nothing of an identifier leaves its count. -/
theorem Counted.more {blake3 : List UInt8 → Digest} {id : ConsentGrantId} {state : GrantState}
    {history : List EgressEvent} {event : EgressEvent} (h : Counted blake3 id state history)
    (hsent : sentUnder id [event] = []) (hrevoked : event ≠ .revoked id) :
    Counted blake3 id state (history ++ [event]) := by
  have hsame : sentUnder id (history ++ [event]) = sentUnder id history := by
    rw [sentUnder_append, hsent, List.append_nil]
  refine ⟨List.mem_append_left _ h.granted, h.names, hsame ▸ h.calls, h.callBudget, hsame ▸ h.bytes,
    h.byteBudget, hsame ▸ h.each, fun hlive hmem => ?_⟩
  rcases List.mem_append.1 hmem with hmem | hmem
  · exact h.live hlive hmem
  · exact hrevoked (List.mem_singleton.1 hmem).symm

/-! ## The calls keep the count -/

variable {blake3 : List UInt8 → Digest} {run : EgressRun}

theorem Accounted.start (blake3 : List UInt8 → Digest) : Accounted blake3 {} where
  unknown _ _ := ⟨rfl, List.not_mem_nil⟩
  known _ _ h := nomatch h
  live := History.each_nil

/-- A grant under a new identifier. -/
theorem Accounted.grant (h : Accounted blake3 run) (grant : ConsentGrant)
    (hnew : run.ledger grant.id = none) :
    Accounted blake3
      { ledger := run.ledger.grant grant, history := run.history ++ [.granted grant] } := by
  refine ⟨fun id hid => ?_, fun id state hstate => ?_, live_quiet h.live nofun⟩
  · have hne : id ≠ grant.id := by
      rintro rfl
      simp [ConsentLedger.grant] at hid
    dsimp only [ConsentLedger.grant] at hid
    rw [Function.update_of_ne hne] at hid
    obtain ⟨hsent, hrevoked⟩ := h.unknown id hid
    exact ⟨by simp [sentUnder_append, hsent], by simpa using hrevoked⟩
  · by_cases hid : id = grant.id
    · subst hid
      dsimp only [ConsentLedger.grant] at hstate
      rw [Function.update_self] at hstate
      obtain rfl := Option.some.inj hstate
      obtain ⟨hsent, hrevoked⟩ := h.unknown grant.id hnew
      have hnone : sentUnder grant.id (run.history ++ [.granted grant]) = [] := by
        simp [sentUnder_append, hsent]
      exact
        { granted := by simp
          names := rfl
          calls := by rw [hnone]; rfl
          callBudget := UInt32.le_iff_toNat_le.2 (Nat.zero_le _)
          bytes := by rw [hnone]; exact Nat.zero_le _
          byteBudget := UInt64.le_iff_toNat_le.2 (Nat.zero_le _)
          each := by rw [hnone]; exact fun _ hmem => absurd hmem List.not_mem_nil
          live := fun _ => by simpa using hrevoked }
    · dsimp only [ConsentLedger.grant] at hstate
      rw [Function.update_of_ne hid] at hstate
      exact (h.known id state hstate).more (sentUnder_granted id grant) nofun

/-- A revocation. -/
theorem Accounted.revoke (h : Accounted blake3 run) (grantId : ConsentGrantId)
    {ledger : ConsentLedger} (hok : run.ledger.revoke grantId = .ok ledger) :
    Accounted blake3 { ledger := ledger, history := run.history ++ [.revoked grantId] } := by
  obtain ⟨old, hold, hok⟩ := bind_eq_ok.1 hok
  rw [orError_eq_ok] at hold
  obtain rfl := Except.ok.inj hok
  refine ⟨fun id hid => ?_, fun id state hstate => ?_, live_quiet h.live nofun⟩
  · have hne : id ≠ grantId := by
      rintro rfl
      simp at hid
    dsimp only at hid
    rw [Function.update_of_ne hne] at hid
    obtain ⟨hsent, hrevoked⟩ := h.unknown id hid
    exact ⟨by simp [sentUnder_append, hsent], by simpa [hne] using hrevoked⟩
  · by_cases hid : id = grantId
    · subst hid
      dsimp only at hstate
      rw [Function.update_self] at hstate
      obtain rfl := Option.some.inj hstate
      have hcounted := h.known id old hold
      have hsame : sentUnder id (run.history ++ [.revoked id]) = sentUnder id run.history := by
        simp [sentUnder_append]
      exact
        { granted := List.mem_append_left _ hcounted.granted
          names := hcounted.names
          calls := hsame ▸ hcounted.calls
          callBudget := hcounted.callBudget
          bytes := hsame ▸ hcounted.bytes
          byteBudget := hcounted.byteBudget
          each := hsame ▸ hcounted.each
          live := nofun }
    · dsimp only at hstate
      rw [Function.update_of_ne hid] at hstate
      refine (h.known id state hstate).more (sentUnder_revoked id grantId) fun heq => ?_
      exact hid (EgressEvent.revoked.inj heq).symm

/-- What a call has passed when the ledger allows it. -/
structure Allowed (ledger : ConsentLedger) (descriptor : ProviderDescriptor)
    (workspaceId : WorkspaceId) (request : InferenceRequest) (now : Int) (grantId : ConsentGrantId)
    (state : GrantState) : Prop where
  policy : request.policy = .cloudOnce grantId
  known : ledger grantId = some state
  live : state.revoked = false
  time : now ≤ state.grant.expiresAtUnixMs
  covers : state.grant.covers (egressRequest descriptor workspaceId request now)
  calls : state.callsUsed < state.grant.maxCalls
  bytes : saturatingAdd64 state.bytesUsed request.input.byteLength ≤ state.grant.maxBytes

theorem prepareCall_eq_ok {ledger after : ConsentLedger} {descriptor : ProviderDescriptor}
    {workspaceId : WorkspaceId} {request : InferenceRequest} {now : Int} {grantId : ConsentGrantId}
    {receipt : DisclosureReceipt}
    (h : prepareCall ledger descriptor workspaceId request now = .ok (grantId, receipt, after)) :
    ∃ state, Allowed ledger descriptor workspaceId request now grantId state
      ∧ after = Function.update ledger grantId
          (some (state.used (egressRequest descriptor workspaceId request now))) := by
  obtain ⟨id, hpolicy, h⟩ := bind_eq_ok.1 h
  obtain ⟨_, _, h⟩ := bind_eq_ok.1 h
  obtain ⟨_, _, h⟩ := bind_eq_ok.1 h
  obtain ⟨⟨_, _⟩, hallowed, h⟩ := bind_eq_ok.1 h
  obtain ⟨rfl, hrest⟩ := Prod.mk.inj (Except.ok.inj h)
  obtain ⟨rfl, rfl⟩ := Prod.mk.inj hrest
  have hname : request.policy = .cloudOnce id := by
    unfold cloudGrant at hpolicy
    split at hpolicy
    · next heq => rw [heq, Except.ok.inj hpolicy]
    · cases hpolicy
  cases hauthorized : ledger.authorizeOnce id
      (egressRequest descriptor workspaceId request now) with
  | error cause => rw [hauthorized] at hallowed; cases hallowed
  | ok pair =>
      rw [hauthorized] at hallowed
      obtain rfl := Except.ok.inj hallowed
      obtain ⟨state, hstate, hrest⟩ := bind_eq_ok.1 hauthorized
      obtain ⟨_, hlive, hrest⟩ := bind_eq_ok.1 hrest
      obtain ⟨_, htime, hrest⟩ := bind_eq_ok.1 hrest
      obtain ⟨_, hcovers, hrest⟩ := bind_eq_ok.1 hrest
      obtain ⟨_, hcalls, hrest⟩ := bind_eq_ok.1 hrest
      obtain ⟨_, hbytes, hrest⟩ := bind_eq_ok.1 hrest
      obtain ⟨-, rfl⟩ := Prod.mk.inj (Except.ok.inj hrest)
      exact ⟨state, ⟨hname, orError_eq_ok.1 hstate, require_eq_ok.1 hlive, require_eq_ok.1 htime,
        require_eq_ok.1 hcovers, require_eq_ok.1 hcalls, require_eq_ok.1 hbytes⟩, rfl⟩

/-- A transmission of a request that tells the truth is one its grant allows. -/
theorem Allowed.allows {descriptor : ProviderDescriptor} {workspaceId : WorkspaceId}
    {request : InferenceRequest} {now : Int} {grantId : ConsentGrantId} {state : GrantState}
    (h : Allowed run.ledger descriptor workspaceId request now grantId state)
    (hdeclares : Declares blake3 request.input) :
    Allows blake3 state.grant (transmission descriptor workspaceId request now (cloudBody request)) := by
  obtain ⟨hworkspace, htask, -, hprovider, hmodel, hartifact, hclass⟩ := h.covers
  refine ⟨?_, hclass, hworkspace.symm, htask.symm, hprovider.symm, hmodel.symm, h.time⟩
  show blake3 (utf8Bytes request.input.text) ∈ _
  rw [← hdeclares.digest]
  exact hartifact

/-- A call that is allowed, for a request that tells the truth. -/
theorem Accounted.sent (h : Accounted blake3 run) {descriptor : ProviderDescriptor}
    {workspaceId : WorkspaceId} {request : InferenceRequest} {now : Int} {grantId : ConsentGrantId}
    {state : GrantState} (hallowed : Allowed run.ledger descriptor workspaceId request now grantId state)
    (hdeclares : Declares blake3 request.input)
    (hfits : state.bytesUsed.toNat + request.input.byteLength.toNat < UInt64.size) :
    Accounted blake3
      { ledger := Function.update run.ledger grantId
          (some (state.used (egressRequest descriptor workspaceId request now)))
        history := run.history ++ [.sent grantId
          (transmission descriptor workspaceId request now (cloudBody request))] } := by
  have hcounted := h.known grantId state hallowed.known
  refine ⟨fun id hid => ?_, fun id other hother => ?_, h.live.concat ?_⟩
  · have hne : id ≠ grantId := by
      rintro rfl
      simp at hid
    dsimp only at hid
    rw [Function.update_of_ne hne] at hid
    obtain ⟨hsent, hrevoked⟩ := h.unknown id hid
    refine ⟨?_, by simpa using hrevoked⟩
    rw [sentUnder_append, hsent, sentUnder_sent_other hne]
    rfl
  · by_cases hid : id = grantId
    · subst hid
      dsimp only at hother
      rw [Function.update_self] at hother
      obtain rfl := Option.some.inj hother
      have hsent : ∀ t, sentUnder id (run.history ++ [.sent id t]) = sentUnder id run.history ++ [t] :=
        fun t => by rw [sentUnder_append, sentUnder_sent_self]
      have hadded : (saturatingAdd64 state.bytesUsed request.input.byteLength).toNat
          = state.bytesUsed.toNat + request.input.byteLength.toNat := saturatingAdd64_toNat hfits
      have hsucc := saturatingSucc32_toNat hallowed.calls
      refine ⟨List.mem_append_left _ hcounted.granted, hcounted.names, ?_, ?_, ?_, hallowed.bytes,
        ?_, fun _ => ?_⟩
      · show _ = (saturatingSucc32 state.callsUsed).toNat
        rw [hsent, List.length_append, hcounted.calls, hsucc]
        rfl
      · show saturatingSucc32 state.callsUsed ≤ state.grant.maxCalls
        rw [UInt32.le_iff_toNat_le, hsucc]
        exact UInt32.lt_iff_toNat_lt.1 hallowed.calls
      · show _ ≤ (saturatingAdd64 state.bytesUsed request.input.byteLength).toNat
        rw [hsent, bytesOf_append, hadded]
        have hthis : bytesOf [transmission descriptor workspaceId request now (cloudBody request)]
            ≤ request.input.byteLength.toNat := by
          simpa [bytesOf, transmission, cloudBody] using hdeclares.bytes
        exact Nat.add_le_add hcounted.bytes hthis
      · intro sent hmem
        rw [hsent] at hmem
        rcases List.mem_append.1 hmem with hmem | hmem
        · exact hcounted.each sent hmem
        · obtain rfl := List.mem_singleton.1 hmem
          exact hallowed.allows hdeclares
      · simpa using hcounted.live hallowed.live
    · dsimp only at hother
      rw [Function.update_of_ne hid] at hother
      exact (h.known id other hother).more (sentUnder_sent_other hid _) nofun
  · rintro id sent heq
    obtain ⟨rfl, -⟩ := EgressEvent.sent.inj heq
    exact hcounted.live hallowed.live

theorem step_accounted {transport : LedgerCall → Transport ρ τ} {call : LedgerCall}
    (h : Accounted blake3 run) (hhonest : Honest blake3 run call) :
    Accounted blake3 (run.step transport call) := by
  cases call with
  | grant grant => exact h.grant grant hhonest
  | revoke grantId =>
      unfold EgressRun.step
      dsimp only
      split
      · exact h
      · next ledger hok => exact h.revoke grantId hok
  | invoke descriptor workspaceId request now =>
      unfold EgressRun.step invokeOnce
      dsimp only
      cases hprepared : prepareCall run.ledger descriptor workspaceId request now with
      | error cause => exact h
      | ok prepared =>
          obtain ⟨grantId, receipt, after⟩ := prepared
          obtain ⟨state, hallowed, rfl⟩ := prepareCall_eq_ok hprepared
          obtain ⟨hdeclares, hfits⟩ :=
            hhonest grantId state hallowed.policy hallowed.known hallowed.live hallowed.covers
          exact h.sent hallowed hdeclares hfits

/-- **What leaves the machine was consented to**, in every run whose calls are honest: what is
    handed to the transports under an identifier keeps to a grant of it, in number, bytes, contents
    and scope, and nothing follows a revocation. A call that fails before it reaches its transport
    leaves the ledger as it was, in every run. -/
theorem egress_lawful (blake3 : List UInt8 → Digest) (transport : LedgerCall → Transport ρ τ)
    (run : EgressRun) (hrun : Run.Reach (EgressRun.step transport) (Honest blake3) {} run) :
    Lawful blake3 run.history ∧
      ∀ (ledger : ConsentLedger) (answers : Transport ρ τ) descriptor workspaceId request now,
        (invokeOnce ledger descriptor answers workspaceId request now).handed = none →
          (invokeOnce ledger descriptor answers workspaceId request now).ledger = ledger :=
  ⟨(hrun.invariant (.start blake3) fun _ _ h hhonest => step_accounted h hhonest).lawful,
    fun _ _ _ _ _ _ h => invokeOnce_refused h⟩

/-! ## What was not consented to -/

/-- The digest of `abc`. -/
def abcDigest : Digest :=
  [100, 55, 179, 172, 56, 70, 81, 51, 255, 182, 59, 117, 39, 58, 141, 181, 72, 197, 88, 70, 93, 121,
    219, 3, 253, 53, 156, 108, 213, 189, 157, 133]

/-- One call and two bytes, for the text `abc`. -/
def abcGrant (maxBytes : UInt64) : ConsentGrant where
  id := 7
  workspaceId := 1
  taskId := "task"
  requestDigest := abcDigest
  providerId := "provider"
  modelReleaseId := 1
  purpose := "classification"
  artifactDigests := [abcDigest]
  allowedDataClasses := [.text]
  maxBytes := maxBytes
  maxCalls := 1
  expiresAtUnixMs := 100

def cloudProvider : ProviderDescriptor where
  providerId := "provider"
  modelReleaseId := 1
  location := .cloud
  capabilities := [.structuredClassification]
  maxInputBytes := 1000

/-- A request to classify `abc`. -/
def abcRequest (byteLength : UInt64) : InferenceRequest where
  jobId := "task"
  capability := .structuredClassification
  input :=
    { artifactId := 1
      digest := abcDigest
      mediaType := "text/plain"
      byteLength := byteLength
      dataClass := .text
      text := "abc" }
  outputSchema := { id := "schema", version := "1", digest := [] }
  policy := .cloudOnce 7
  deadlineMs := 1000

def silentTransport : LedgerCall → Transport Unit Unit := fun _ =>
  { answer := fun _ => .error (.provider "no answer"), decode := fun _ => .ok () }

/-- The run of some calls. -/
def egressRun (calls : List LedgerCall) : EgressRun :=
  Run.after (fun call run => EgressRun.step silentTransport run call) {} calls

/-- The envelope says one byte, and three are sent. -/
def understatedCalls : List LedgerCall :=
  [.grant (abcGrant 2), .invoke cloudProvider 1 (abcRequest 1) 10]

/-- The same grant is given again after it was revoked. -/
def regrantedCalls : List LedgerCall :=
  [.grant (abcGrant 10), .invoke cloudProvider 1 (abcRequest 3) 10, .revoke 7,
    .grant (abcGrant 10), .invoke cloudProvider 1 (abcRequest 3) 20]

/-- What a call with `abc` sends. -/
def abcSent (byteLength : UInt64) (now : Int) : EgressEvent :=
  .sent 7 (transmission cloudProvider 1 (abcRequest byteLength) now (cloudBody (abcRequest byteLength)))

theorem understated_history :
    (egressRun understatedCalls).history = [.granted (abcGrant 2), abcSent 1 10] := by
  decide +kernel

theorem regranted_history :
    (egressRun regrantedCalls).history = [.granted (abcGrant 10), abcSent 3 10, .revoked 7,
      .granted (abcGrant 10), abcSent 3 20] := by
  decide +kernel

/-- An understated envelope takes more bytes out than were granted, and a grant given again takes
    another call out after a revocation. -/
theorem sent_beyond_consent :
    (∀ blake3, ¬Lawful blake3 (egressRun understatedCalls).history)
      ∧ ∀ blake3, ¬Lawful blake3 (egressRun regrantedCalls).history := by
  constructor
  · intro blake3 h
    rw [understated_history] at h
    obtain ⟨grant, hgranted, -, hwithin⟩ := h.granted 7 (by decide +kernel)
    obtain rfl : grant = abcGrant 2 := by simpa [abcSent] using hgranted
    exact absurd hwithin.bytes (by decide +kernel)
  · intro blake3 h
    rw [regranted_history] at h
    obtain ⟨grant, hgranted, -, hwithin⟩ := h.granted 7 (by decide +kernel)
    obtain rfl : grant = abcGrant 10 := by simpa [abcSent] using hgranted
    exact absurd hwithin.calls (by decide +kernel)

/-- BLAKE3 where the run below computes it. -/
def blake3OfAbc (bytes : List UInt8) : Digest := if bytes = [97, 98, 99] then abcDigest else []

theorem abcRequest_declares : Declares blake3OfAbc (abcRequest 3).input where
  digest := by decide +kernel
  bytes := by decide +kernel

/-- One honest call. -/
theorem abc_lawful :
    Lawful blake3OfAbc
      (egressRun [.grant (abcGrant 10), .invoke cloudProvider 1 (abcRequest 3) 10]).history := by
  have hgrant : Run.Reach (EgressRun.step silentTransport) (Honest blake3OfAbc) {}
      (EgressRun.step silentTransport {} (.grant (abcGrant 10))) := .step .start rfl
  have hcall : Honest blake3OfAbc (EgressRun.step silentTransport {} (.grant (abcGrant 10)))
      (.invoke cloudProvider 1 (abcRequest 3) 10) := by
    intro id state hpolicy hstate _ _
    obtain rfl : 7 = id := ExecutionPolicy.cloudOnce.inj hpolicy
    obtain rfl := Option.some.inj hstate
    exact ⟨abcRequest_declares, by decide +kernel⟩
  exact (egress_lawful blake3OfAbc silentTransport _ (.step hgrant hcall)).1

end Zemo.Cloud
