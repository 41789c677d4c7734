import Zemo.Domain.Journal
import Zemo.Worker.Serve

set_option autoImplicit false

/-! # The native rename

`NativeExecutorHandler::rename`: up to three attempts, each of which checks the destination and the
source before it asks the platform for one rename, and then the checks behind a rename that
succeeded. Only the two errors of a file in use are tried again. The platform and the caller's
cancellation answer as they like; what the handler asked and was told is kept in a list of calls. -/

namespace Zemo.ExecutorV2.Worker

open Checked

/-! ## Errors of the platform -/

/-- `PlatformError`; an I/O error is its text. -/
inductive PlatformError where
  | outsideRoot
  | reparsePoint
  | cloudPlaceholder
  | pathPolicyRefusal
  | unsupported (reason : String)
  | precondition (reason : String)
  | sharingViolation
  | lockViolation
  | permissionDenied
  | diskFull
  | destinationExists
  | sourceMissing
  | ambiguousMutationOutcome
  | cancelled
  | verificationLimitExceeded (limitBytes : Nat)
  | inputOutput (error : String)
  | secretStore (reason : String)
deriving DecidableEq, Repr

namespace PlatformError

/-- The text of the error. -/
def text : PlatformError → String
  | outsideRoot => "path is outside the registered root"
  | reparsePoint => "path contains a reparse point or symbolic link"
  | cloudPlaceholder => "cloud placeholder access would hydrate remote content"
  | pathPolicyRefusal => "path policy refused the filesystem entry"
  | unsupported reason => "filesystem operation is unsupported: " ++ reason
  | precondition reason => "filesystem precondition failed: " ++ reason
  | sharingViolation => "file is in use because its sharing mode blocks the operation"
  | lockViolation =>
    "file is in use because a byte-range or filesystem lock blocks the operation"
  | permissionDenied => "permission denied"
  | diskFull => "the destination volume has insufficient free space"
  | destinationExists => "destination already exists"
  | sourceMissing => "source no longer exists"
  | ambiguousMutationOutcome => "filesystem mutation outcome is ambiguous"
  | cancelled => "streaming verification was cancelled"
  | verificationLimitExceeded limitBytes =>
    "file exceeds the " ++ toString limitBytes ++ "-byte execution verification bound"
  | inputOutput error => "I/O failure: " ++ error
  | secretStore reason => "secret store failure: " ++ reason

/-- `executor_error_class` of the class of the error. -/
def executorErrorClass : PlatformError → ExecutorErrorClass
  | outsideRoot | reparsePoint | cloudPlaceholder | pathPolicyRefusal => .pathPolicyRefusal
  | unsupported _ => .unsupported
  | precondition _ => .precondition
  | sharingViolation => .sharingViolation
  | lockViolation => .lockViolation
  | permissionDenied => .permissionDenied
  | diskFull => .diskFull
  | destinationExists => .destinationCollision
  | sourceMissing => .sourceMissing
  | ambiguousMutationOutcome => .ambiguousMutationOutcome
  | cancelled => .cancelled
  | verificationLimitExceeded _ => .verificationLimit
  | inputOutput _ | secretStore _ => .inputOutput

/-- `retryable_before_mutation`. -/
def retryableBeforeMutation : PlatformError → Bool
  | sharingViolation | lockViolation => true
  | _ => false

/-- A rename that ends with the error may have moved the file. -/
def ambiguous : PlatformError → Bool
  | ambiguousMutationOutcome | inputOutput _ | secretStore _ => true
  | _ => false

end PlatformError

/-- The text an error is reported with before the mutation: a precondition by its reason alone. -/
def PlatformError.detail : PlatformError → String
  | .sharingViolation | .lockViolation => "This file is currently in use and was not moved."
  | .destinationExists => "The destination already exists."
  | .precondition reason => reason
  | .sourceMissing => "The source no longer exists."
  | .permissionDenied => "Permission policy refused the operation; no permissions were changed."
  | .diskFull => "The destination volume is full and the file was not moved."
  | .cancelled => "Streaming verification was cancelled before mutation."
  | .verificationLimitExceeded _ =>
    "The file exceeds the authenticated execution verification bound."
  | error => error.text

/-- The code an error is reported with. -/
def PlatformError.code : PlatformError → String
  | .sharingViolation | .lockViolation => "file_in_use"
  | .destinationExists => "destination_exists"
  | .precondition _ => "source_precondition_failed"
  | .sourceMissing => "source_missing"
  | .outsideRoot | .reparsePoint | .cloudPlaceholder | .pathPolicyRefusal | .unsupported _ =>
    "native_primitive_refused"
  | .permissionDenied => "permission_denied"
  | .diskFull => "disk_full"
  | .cancelled => "verification_cancelled"
  | .verificationLimitExceeded _ => "verification_limit_exceeded"
  | .ambiguousMutationOutcome | .inputOutput _ | .secretStore _ => "native_mutation_ambiguous"

/-- `mutation_error`. -/
def mutationError (error : PlatformError) (attemptCount : Nat) : HandlerOutcome :=
  let audit : ExecutorAttemptAudit := ⟨attemptCount, some error.executorErrorClass⟩
  if error.ambiguous then .recoveryRequired error.code error.detail audit
  else .provenNotApplied error.code error.detail audit

/-- `retry_transient_before_mutation`. -/
def retryTransientBeforeMutation (error : PlatformError) (attempt : Nat) : Bool :=
  error.retryableBeforeMutation && attempt < 3

/-! ## Paths and states -/

/-- The components of a path below the root. -/
abbrev RootedPath := List (List Char)

/-- `resolve_relative`, which looks at the same components as the protocol does. What it accepts has
normal components only, so that its last test always passes. -/
def resolveRelative (relative : String) : Except String RootedPath :=
  if relative.toList = [] ∨ relative.toList.head?.any isSeparator
      ∨ relative.toList.getLast?.any isSeparator ∨ ':' ∈ relative.toList then
    .error "relative path is malformed"
  else if (relative.toList.splitOnP isSeparator).all isPortableComponent then
    .ok (relative.toList.splitOnP isSeparator)
  else .error "relative path contains an unsafe component"

/-- `expected_matches`. -/
def expectedMatches (expected : ExpectedFileStateManifest) (observed : FileFingerprint)
    (requireOriginalLocation : Bool) : Bool :=
  observed.volume = expected.nativeIdentity.volume
    && observed.objectKey = expected.nativeIdentity.objectKey.val
    && (!requireOriginalLocation
      || (observed.parentKey = expected.nativeIdentity.parentKey.val
        && observed.leafName.encoding = expected.nativeIdentity.leafName.encoding
        && observed.leafName.bytes = expected.nativeIdentity.leafName.bytes.val))
    && expected.nativeIdentity.linkCount = 1 && observed.linkCount = 1
    && expected.nativeIdentity.reparseTag = none && observed.reparseTag = none
    && observed.byteSize = expected.byteSize && observed.modifiedAtNs = expected.modifiedAtNs
    && observed.attributes = expected.attributes
    && observed.contentDigest = some expected.contentDigest

/-- `RenameRequest`; the expected identity is that of the observed file. -/
structure RenameRequest where
  source : RootedPath
  destination : RootedPath
  observed : FileFingerprint
  expectedByteSize : Nat
  expectedModifiedAtNs : Option Int
  expectedAttributes : Nat
  expectedContentDigest : Bytes32
  maximumHashBytes : Nat

/-- `fingerprint_digest`. -/
def fingerprintDigest (blake3 : List UInt8 → Bytes32) (value : FileFingerprint) : Bytes32 :=
  blake3 ("com.workingname.operation-executor/v2/observed-file-state\x00".toUTF8.data.toList
    ++ value.volume.stableIdentifier.toUTF8.data.toList ++ value.objectKey
    ++ leBytes 8 value.byteSize ++ value.contentDigest.elim [] (·.val))

/-! ## The handler -/

/-- What an attempt is answered, when it asks. -/
structure AttemptAnswers where
  cancelled : Bool
  destinationAbsent : Except PlatformError Unit
  source : Except PlatformError FileFingerprint
  rename : Except PlatformError Unit

/-- What `rename` is answered: each attempt, and the checks behind a rename that succeeded. -/
structure RenameAnswers where
  attempt : Nat → AttemptAnswers
  sourceAbsent : Except PlatformError Unit
  destination : Except PlatformError FileFingerprint

/-- A call of the platform with its answer. -/
inductive PlatformCall where
  | validateDestinationAbsent (path : RootedPath) (answer : Except PlatformError Unit)
  | fingerprintStreaming (path : RootedPath) (answer : Except PlatformError FileFingerprint)
  | renameSameVolumeNoReplace (request : RenameRequest) (answer : Except PlatformError Unit)

/-- The arguments of `rename`, with the paths below the root. -/
structure RenameTask where
  source : RootedPath
  destination : RootedPath
  requireOriginalLocation : Bool
  expected : ExpectedFileStateManifest
  maximumHashBytes : Nat

/-- How an attempt ends. -/
inductive AttemptEnd where
  | again (errorClass : ExecutorErrorClass)
  | returned (outcome : HandlerOutcome)
  | renamed

section

variable (task : RenameTask) (answers : RenameAnswers)

/-- What an error of an attempt leads to. -/
def attemptError (error : PlatformError) (attempt : Nat) : AttemptEnd :=
  if retryTransientBeforeMutation error attempt then .again error.executorErrorClass
  else .returned (mutationError error attempt)

/-- One turn of the loop, with its calls. -/
def renameAttempt (attempt : Nat) : AttemptEnd × List PlatformCall :=
  let told := answers.attempt attempt
  if told.cancelled then
    (.returned (.provenNotApplied "verification_cancelled"
      "Streaming verification was cancelled before mutation." ⟨attempt, some .cancelled⟩), [])
  else
    let absent := PlatformCall.validateDestinationAbsent task.destination told.destinationAbsent
    match told.destinationAbsent with
    | .error error => (attemptError error attempt, [absent])
    | .ok () =>
      let looked := PlatformCall.fingerprintStreaming task.source told.source
      match told.source with
      | .error error => (attemptError error attempt, [absent, looked])
      | .ok observed =>
        if expectedMatches task.expected observed task.requireOriginalLocation then
          let request : RenameRequest :=
            { source := task.source
              destination := task.destination
              observed
              expectedByteSize := task.expected.byteSize
              expectedModifiedAtNs := task.expected.modifiedAtNs
              expectedAttributes := task.expected.attributes
              expectedContentDigest := task.expected.contentDigest
              maximumHashBytes := task.maximumHashBytes }
          let renamed := PlatformCall.renameSameVolumeNoReplace request told.rename
          match told.rename with
          | .error error => (attemptError error attempt, [absent, looked, renamed])
          | .ok () => (.renamed, [absent, looked, renamed])
        else
          (.returned (.provenNotApplied "source_precondition_failed"
            "Source identity, location, size, modified time, or content digest changed."
            ⟨attempt, some .precondition⟩), [absent, looked])

/-- How the loop ends: with an outcome, or with the attempt that renamed and the last error class,
or without either. -/
inductive LoopEnd where
  | returned (outcome : HandlerOutcome)
  | renamed (attempt : Nat) (lastErrorClass : Option ExecutorErrorClass)
  | exhausted

/-- The loop over the attempts. -/
def renameLoop : List Nat → Option ExecutorErrorClass → LoopEnd × List PlatformCall
  | [], _ => (.exhausted, [])
  | attempt :: rest, lastErrorClass =>
    match renameAttempt task answers attempt with
    | (.again errorClass, calls) =>
      ((renameLoop rest (some errorClass)).1, calls ++ (renameLoop rest (some errorClass)).2)
    | (.returned outcome, calls) => (.returned outcome, calls)
    | (.renamed, calls) => (.renamed attempt lastErrorClass, calls)

/-- What is returned when a check behind the rename fails. -/
def postconditionFailed (detail : String) (attempt : Nat) : HandlerOutcome :=
  .recoveryRequired "rename_postcondition_failed" detail ⟨attempt, some .ambiguousMutationOutcome⟩

/-- The checks behind the rename. -/
def renameChecked (blake3 : List UInt8 → Bytes32) (attempt : Nat)
    (lastErrorClass : Option ExecutorErrorClass) : HandlerOutcome × List PlatformCall :=
  let absent := PlatformCall.validateDestinationAbsent task.source answers.sourceAbsent
  match answers.sourceAbsent with
  | .error .destinationExists =>
    (postconditionFailed "source still exists after native rename returned success" attempt,
      [absent])
  | .error error => (postconditionFailed error.text attempt, [absent])
  | .ok () =>
    let looked := PlatformCall.fingerprintStreaming task.destination answers.destination
    match answers.destination with
    | .error error => (postconditionFailed error.text attempt, [absent, looked])
    | .ok moved =>
      if expectedMatches task.expected moved false then
        (.success (fingerprintDigest blake3 moved) ⟨attempt, lastErrorClass⟩, [absent, looked])
      else
        (postconditionFailed
          "destination identity, size, or content digest does not match the manifest" attempt,
          [absent, looked])

end

/-- `NativeExecutorHandler::rename`: its outcome and the calls it made. -/
def nativeRename (blake3 : List UInt8 → Bytes32) (answers : RenameAnswers)
    (sourceRelative destinationRelative originalSourceRelative : String)
    (expected : ExpectedFileStateManifest) (maximumHashBytes : Nat) :
    HandlerOutcome × List PlatformCall :=
  if maximumHashBytes = 0 ∨ maxExecutionVerificationBytes < maximumHashBytes
      ∨ maximumHashBytes < expected.byteSize then
    (.provenNotApplied "verification_limit_exceeded"
      "The source exceeds the authenticated execution verification bound."
      ⟨1, some .verificationLimit⟩, [])
  else
    match resolveRelative sourceRelative with
    | .error error => (.provenNotApplied "source_path_invalid" error ⟨1, none⟩, [])
    | .ok source =>
      match resolveRelative destinationRelative with
      | .error error => (.provenNotApplied "destination_path_invalid" error ⟨1, none⟩, [])
      | .ok destination =>
        let task : RenameTask :=
          { source
            destination
            requireOriginalLocation := sourceRelative = originalSourceRelative
            expected
            maximumHashBytes }
        match renameLoop task answers [1, 2, 3] none with
        | (.returned outcome, calls) => (outcome, calls)
        | (.exhausted, calls) =>
          (.recoveryRequired "native_mutation_ambiguous"
            "The bounded retry loop ended without a classified result."
            ⟨3, some .ambiguousMutationOutcome⟩, calls)
        | (.renamed attempt lastErrorClass, calls) =>
          ((renameChecked task answers blake3 attempt lastErrorClass).1,
            calls ++ (renameChecked task answers blake3 attempt lastErrorClass).2)

/-! ## The calls of an attempt -/

/-- The answers to the renames among the calls. -/
def renames (calls : List PlatformCall) : List (Except PlatformError Unit) :=
  calls.filterMap fun call =>
    match call with
    | .renameSameVolumeNoReplace _ answer => some answer
    | _ => none

/-- A rename that succeeded or ended ambiguously. -/
def mayHaveMoved : Except PlatformError Unit → Bool
  | .ok () => true
  | .error error => error.ambiguous

def HandlerOutcome.audit : HandlerOutcome → ExecutorAttemptAudit
  | .success _ audit => audit
  | .provenNotApplied _ _ audit => audit
  | .recoveryRequired _ _ audit => audit

/-- The code and the detail of an outcome that is not a success. -/
def HandlerOutcome.report? : HandlerOutcome → Option (String × String)
  | .success .. => none
  | .provenNotApplied code detail _ => some (code, detail)
  | .recoveryRequired code detail _ => some (code, detail)

/-- The error a call was answered with. -/
def PlatformCall.error? : PlatformCall → Option PlatformError
  | .validateDestinationAbsent _ (.error error) => some error
  | .fingerprintStreaming _ (.error error) => some error
  | .renameSameVolumeNoReplace _ (.error error) => some error
  | _ => none

/-! ## Texts -/

/-- A detail that the protocol takes. -/
def Worded (detail : String) : Prop :=
  detail ≠ "" ∧ detail.utf8ByteSize ≤ maxTextBytes ∧ '\x00' ∉ detail.toList

instance (detail : String) : Decidable (Worded detail) := by
  unfold Worded
  infer_instance

/-- Either text the error is reported with is one the protocol takes. -/
def PlatformError.WellWorded (error : PlatformError) : Prop :=
  Worded error.detail ∧ Worded error.text

/-- The codes of the handler. -/
def reportedCodes : List String :=
  ["verification_limit_exceeded", "source_path_invalid", "destination_path_invalid",
    "verification_cancelled", "source_precondition_failed", "native_mutation_ambiguous",
    "rename_postcondition_failed", "file_in_use", "destination_exists", "source_missing",
    "native_primitive_refused", "permission_denied", "disk_full"]

/-- The codes are those of the protocol, so that only the detail matters. -/
theorem validateCodeAndDetail_iff {code detail : String} (h : code ∈ reportedCodes) :
    validateCodeAndDetail code detail = .ok () ↔ Worded detail := by
  have hcode : ∀ code ∈ reportedCodes, validateString code 128 "response code" = .ok () ∧
      code.toList.all
        (fun c => ('a' ≤ c && c ≤ 'z') || ('0' ≤ c && c ≤ '9') || c = '_') = true := by
    simp only [validateString, require_eq_ok]
    decide +kernel
  obtain ⟨hstring, hletters⟩ := hcode code h
  rw [validateCodeAndDetail, bind_ok hstring, bind_ok (require_pos _ hletters), validateString,
    require_eq_ok]
  rfl

theorem PlatformError.code_mem (error : PlatformError) : error.code ∈ reportedCodes := by
  cases error <;> simp [code, reportedCodes]

/-- The outcome is reported under one of the codes, with a text of the handler or with that of an
error it was answered with. -/
def Reported (calls : List PlatformCall) (outcome : HandlerOutcome) : Prop :=
  ∀ code detail, outcome.report? = some (code, detail) → code ∈ reportedCodes ∧
    (Worded detail ∨ ∃ call ∈ calls, ∃ error, call.error? = some error ∧
      (detail = error.detail ∨ detail = error.text))

theorem Reported.mono {calls more : List PlatformCall} {outcome : HandlerOutcome}
    (h : Reported calls outcome) (hsub : calls ⊆ more) : Reported more outcome := by
  intro code detail hreport
  obtain ⟨hcode, hdetail⟩ := h code detail hreport
  refine ⟨hcode, hdetail.imp id ?_⟩
  rintro ⟨call, hmem, herror⟩
  exact ⟨call, hsub hmem, herror⟩

/-- A text of the handler. -/
theorem Reported.of_worded {calls : List PlatformCall} {outcome : HandlerOutcome}
    {code detail : String} (hreport : outcome.report? = some (code, detail))
    (hcode : code ∈ reportedCodes) (hdetail : Worded detail) : Reported calls outcome := by
  intro code' detail' h
  rw [hreport] at h
  cases h
  exact ⟨hcode, .inl hdetail⟩

/-- The text of the error of one of the calls. -/
theorem Reported.of_error {calls : List PlatformCall} {outcome : HandlerOutcome}
    {code detail : String} {call : PlatformCall} {error : PlatformError}
    (hreport : outcome.report? = some (code, detail)) (hcode : code ∈ reportedCodes)
    (hmem : call ∈ calls) (herror : call.error? = some error)
    (hdetail : detail = error.detail ∨ detail = error.text) : Reported calls outcome := by
  intro code' detail' h
  rw [hreport] at h
  cases h
  exact ⟨hcode, .inr ⟨call, hmem, error, herror, hdetail⟩⟩

/-- What the protocol asks of an outcome that is not a success. -/
theorem validate_report {code detail : String} {audit : ExecutorAttemptAudit}
    (hcode : code ∈ reportedCodes) (haudit : audit.validate = .ok ()) :
    (do validateCodeAndDetail code detail; audit.validate) = .ok () ↔
      ∀ code' detail', some (code, detail) = some (code', detail') → Worded detail' := by
  rw [test_bind_eq_ok, validateCodeAndDetail_iff hcode]
  constructor
  · intro hvalid code' detail' hreport
    cases hreport
    exact hvalid.1
  · exact fun hworded => ⟨hworded code detail rfl, haudit⟩

/-- An outcome that was reported so and counts one to three attempts is taken by the protocol
exactly when its detail is. -/
theorem Reported.validate_iff {calls : List PlatformCall} {outcome : HandlerOutcome}
    (h : Reported calls outcome) (hlow : 1 ≤ outcome.audit.attemptCount)
    (hhigh : outcome.audit.attemptCount ≤ 3) {now : Int} (hnow : 0 ≤ now) :
    (outcome.sent now).validate = .ok () ↔
      ∀ code detail, outcome.report? = some (code, detail) → Worded detail := by
  have haudit : outcome.audit.validate = .ok () := require_pos _ ⟨by omega, hhigh⟩
  cases outcome with
  | success digest audit =>
    refine ⟨fun _ => nofun, fun _ => ?_⟩
    exact (bind_ok (require_pos _ hnow)).trans haudit
  | provenNotApplied code detail audit => exact validate_report (h code detail rfl).1 haudit
  | recoveryRequired code detail audit => exact validate_report (h code detail rfl).1 haudit

/-! ## What an attempt does -/

@[simp] theorem renames_append (before after : List PlatformCall) :
    renames (before ++ after) = renames before ++ renames after := List.filterMap_append

theorem PlatformError.not_ambiguous_of_retryable {error : PlatformError}
    (h : error.retryableBeforeMutation = true) : error.ambiguous = false := by
  cases error <;> first | rfl | cases h

/-- What an outcome of the loop tells about the calls before it. -/
structure Refused (attempt : Nat) (outcome : HandlerOutcome) (calls : List PlatformCall) :
    Prop where
  count : outcome.audit.attemptCount = attempt
  notSucceeded : outcome.succeeded = false
  notApplied : outcome.needsRecovery = false →
    ∀ answer ∈ renames calls, mayHaveMoved answer = false
  reported : Reported calls outcome

/-- An attempt makes at most one rename. It is tried again only behind one that did not move the
file, and goes on to the checks only behind one that succeeded. -/
def AttemptEnd.Sound (attempt : Nat) (calls : List PlatformCall) : AttemptEnd → Prop
  | .again _ => attempt < 3 ∧ (renames calls).length ≤ 1 ∧
      ∀ answer ∈ renames calls, mayHaveMoved answer = false
  | .returned outcome => (renames calls).length ≤ 1 ∧ Refused attempt outcome calls
  | .renamed => ∃ before request, renames before = [] ∧
      calls = before ++ [.renameSameVolumeNoReplace request (.ok ())]

section

variable {task : RenameTask} {answers : RenameAnswers} {attempt : Nat}

/-- An error ends an attempt soundly when the only rename, if there is one, ended with it. -/
theorem attemptError_sound {error : PlatformError} {calls : List PlatformCall} {call : PlatformCall}
    (hone : (renames calls).length ≤ 1)
    (htold : ∀ answer ∈ renames calls, answer = .error error) (hmem : call ∈ calls)
    (herror : call.error? = some error) : (attemptError error attempt).Sound attempt calls := by
  unfold attemptError
  by_cases hretry : retryTransientBeforeMutation error attempt = true
  · rw [if_pos hretry]
    simp only [retryTransientBeforeMutation, Bool.and_eq_true, decide_eq_true_eq] at hretry
    refine ⟨hretry.2, hone, fun answer hanswer => ?_⟩
    rw [htold answer hanswer]
    exact PlatformError.not_ambiguous_of_retryable hretry.1
  · rw [if_neg hretry]
    refine ⟨hone, ?_⟩
    unfold mutationError
    by_cases hambiguous : error.ambiguous = true
    · rw [if_pos hambiguous]
      exact ⟨rfl, rfl, nofun, .of_error rfl error.code_mem hmem herror (.inl rfl)⟩
    · rw [if_neg hambiguous]
      refine ⟨rfl, rfl, fun _ answer hanswer => ?_,
        .of_error rfl error.code_mem hmem herror (.inl rfl)⟩
      rw [htold answer hanswer]
      exact Bool.eq_false_iff.2 hambiguous

theorem renameAttempt_sound :
    (renameAttempt task answers attempt).1.Sound attempt
      (renameAttempt task answers attempt).2 := by
  unfold renameAttempt
  by_cases hcancelled : (answers.attempt attempt).cancelled = true
  · rw [if_pos hcancelled]
    exact ⟨Nat.zero_le _, rfl, rfl, fun _ _ hmem => (nomatch hmem),
      .of_worded rfl (by decide) (by decide +kernel)⟩
  rw [if_neg hcancelled]
  cases (answers.attempt attempt).destinationAbsent with
  | error error =>
    exact attemptError_sound (Nat.zero_le _) nofun (List.mem_singleton_self _) rfl
  | ok absent =>
    cases (answers.attempt attempt).source with
    | error error =>
      exact attemptError_sound (Nat.zero_le _) nofun (List.mem_cons_of_mem _ List.mem_cons_self)
        rfl
    | ok observed =>
      simp only
      by_cases hmatches :
          expectedMatches task.expected observed task.requireOriginalLocation = true
      · rw [if_pos hmatches]
        cases (answers.attempt attempt).rename with
        | error error =>
          refine attemptError_sound (Nat.le_refl _) (fun answer hmem => ?_)
            (List.mem_cons_of_mem _ (List.mem_cons_of_mem _ List.mem_cons_self)) rfl
          exact List.mem_singleton.1 hmem
        | ok renamed => exact ⟨[_, _], _, rfl, rfl⟩
      · rw [if_neg hmatches]
        exact ⟨Nat.zero_le _, rfl, rfl, fun _ _ hmem => (nomatch hmem),
          .of_worded rfl (by decide) (by decide +kernel)⟩

end

/-! ## The calls of the loop -/

/-- No rename comes behind one that may have moved the file. -/
def NoneAfter (answers : List (Except PlatformError Unit)) : Prop :=
  ∀ before answer after, answers = before ++ answer :: after → mayHaveMoved answer = true →
    after = []

theorem NoneAfter.of_length {answers : List (Except PlatformError Unit)}
    (h : answers.length ≤ 1) : NoneAfter answers := by
  intro before answer after heq _
  rw [heq, List.length_append, List.length_cons] at h
  exact List.length_eq_zero_iff.1 (by omega)

/-- Renames that did not move the file may come first. -/
theorem NoneAfter.append {first rest : List (Except PlatformError Unit)}
    (hfirst : ∀ answer ∈ first, mayHaveMoved answer = false) (hrest : NoneAfter rest) :
    NoneAfter (first ++ rest) := by
  intro before answer after heq hmoved
  rcases List.append_eq_append_iff.1 heq with ⟨more, hbefore, hmore⟩ | ⟨more, hfirst', hmore⟩
  · exact hrest more answer after hmore hmoved
  · cases more with
    | nil => exact hrest [] answer after (by simpa using hmore.symm) hmoved
    | cons head more =>
      rw [List.cons_append] at hmore
      obtain ⟨rfl, -⟩ := List.cons.inj hmore
      have := hfirst answer (by rw [hfirst']; simp)
      rw [hmoved] at this
      cases this

/-- What the end of the loop tells about its calls. -/
def LoopEnd.Sound (attempts : List Nat) (calls : List PlatformCall) : LoopEnd → Prop
  | .returned outcome => NoneAfter (renames calls) ∧
      ∃ attempt ∈ attempts, Refused attempt outcome calls
  | .renamed attempt _ => attempt ∈ attempts ∧ ∃ before request,
      calls = before ++ [.renameSameVolumeNoReplace request (.ok ())] ∧
      ∀ answer ∈ renames before, mayHaveMoved answer = false
  | .exhausted => (∀ attempt ∈ attempts, attempt < 3) ∧
      ∀ answer ∈ renames calls, mayHaveMoved answer = false

section

variable {task : RenameTask} {answers : RenameAnswers}

/-- By induction on the attempts that are left: an attempt that is made again has not moved the
file. -/
theorem renameLoop_sound (attempts : List Nat) (lastErrorClass : Option ExecutorErrorClass) :
    (renames (renameLoop task answers attempts lastErrorClass).2).length ≤ attempts.length ∧
      (renameLoop task answers attempts lastErrorClass).1.Sound attempts
        (renameLoop task answers attempts lastErrorClass).2 := by
  induction attempts generalizing lastErrorClass with
  | nil => exact ⟨Nat.le_refl _, nofun, nofun⟩
  | cons attempt rest ih =>
    have hattempt := @renameAttempt_sound task answers attempt
    rw [renameLoop]
    split
    · next errorClass calls heq =>
      rw [heq] at hattempt
      obtain ⟨hlast, hone, hharmless⟩ := hattempt
      obtain ⟨hlength, hsound⟩ := ih (some errorClass)
      refine ⟨?_, ?_⟩
      · simp only at hone
        rw [renames_append, List.length_append, List.length_cons]
        omega
      · simp only
        generalize renameLoop task answers rest (some errorClass) = next at hsound
        obtain ⟨ending, more⟩ := next
        cases ending with
        | returned outcome =>
          obtain ⟨hnone, number, hmem, hrefused⟩ := hsound
          refine ⟨?_, number, List.mem_cons_of_mem _ hmem, hrefused.count, hrefused.notSucceeded,
            fun hrecovery answer hanswer => ?_,
            hrefused.reported.mono (List.subset_append_right _ _)⟩
          · rw [renames_append]
            exact hnone.append hharmless
          · rw [renames_append, List.mem_append] at hanswer
            exact hanswer.elim (hharmless answer) (hrefused.notApplied hrecovery answer)
        | renamed number last =>
          obtain ⟨hmem, before, request, hcalls, hbefore⟩ := hsound
          refine ⟨List.mem_cons_of_mem _ hmem, calls ++ before, request, ?_, ?_⟩
          · simp only at hcalls
            rw [hcalls, List.append_assoc]
          · intro answer hanswer
            rw [renames_append, List.mem_append] at hanswer
            exact hanswer.elim (hharmless answer) (hbefore answer)
        | exhausted =>
          obtain ⟨hlasts, hmore⟩ := hsound
          refine ⟨?_, ?_⟩
          · intro number hmem
            rcases List.mem_cons.1 hmem with rfl | hmem
            · exact hlast
            · exact hlasts number hmem
          · intro answer hanswer
            rw [renames_append, List.mem_append] at hanswer
            exact hanswer.elim (hharmless answer) (hmore answer)
    · next outcome calls heq =>
      rw [heq] at hattempt
      obtain ⟨hone, hrefused⟩ := hattempt
      refine ⟨Nat.le_trans hone (by simp), .of_length hone, attempt, List.mem_cons_self, hrefused⟩
    · next calls heq =>
      rw [heq] at hattempt
      obtain ⟨before, request, hbefore, hcalls⟩ := hattempt
      simp only at hcalls
      refine ⟨?_, List.mem_cons_self, before, request, hcalls, ?_⟩
      · rw [hcalls, renames_append, hbefore, List.length_append, List.length_cons]
        simp [renames]
      · rw [hbefore]
        nofun

/-- The checks behind the rename make no rename, and their outcome is no "not applied". -/
structure PostChecked (task : RenameTask) (attempt : Nat) (outcome : HandlerOutcome)
    (calls : List PlatformCall) : Prop where
  noRename : renames calls = []
  count : outcome.audit.attemptCount = attempt
  applied : outcome.needsRecovery = true ∨ outcome.succeeded = true
  success : outcome.succeeded = true → ∃ moved,
    calls = [.validateDestinationAbsent task.source (.ok ()),
      .fingerprintStreaming task.destination (.ok moved)] ∧
    expectedMatches task.expected moved false = true
  reported : Reported calls outcome

theorem renameChecked_spec {blake3 : List UInt8 → Bytes32} {attempt : Nat}
    {lastErrorClass : Option ExecutorErrorClass} :
    PostChecked task attempt (renameChecked task answers blake3 attempt lastErrorClass).1
      (renameChecked task answers blake3 attempt lastErrorClass).2 := by
  have hcode : "rename_postcondition_failed" ∈ reportedCodes := by decide
  unfold renameChecked
  cases hsource : answers.sourceAbsent with
  | error error =>
    have hpassed : PostChecked task attempt (postconditionFailed error.text attempt)
        [.validateDestinationAbsent task.source (.error error)] :=
      ⟨rfl, rfl, .inl rfl, nofun,
        .of_error rfl hcode (List.mem_singleton_self _) rfl (.inr rfl)⟩
    cases error with
    | destinationExists =>
      exact ⟨rfl, rfl, .inl rfl, nofun, .of_worded rfl hcode (by decide +kernel)⟩
    | _ => exact hpassed
  | ok absent =>
    cases hdestination : answers.destination with
    | error error =>
      exact ⟨rfl, rfl, .inl rfl, nofun, .of_error rfl hcode
        (List.mem_cons_of_mem _ List.mem_cons_self) rfl (.inr rfl)⟩
    | ok moved =>
      simp only
      by_cases hmatches : expectedMatches task.expected moved false = true
      · rw [if_pos hmatches]
        exact ⟨rfl, rfl, .inr rfl, fun _ => ⟨moved, rfl, hmatches⟩, nofun⟩
      · rw [if_neg hmatches]
        exact ⟨rfl, rfl, .inl rfl, nofun, .of_worded rfl hcode (by decide +kernel)⟩

end

/-! ## The handler never lies -/

/-- What an outcome of `rename` may say about the calls that were made. -/
structure Truthful (sourceRelative destinationRelative : String)
    (expected : ExpectedFileStateManifest) (outcome : HandlerOutcome)
    (calls : List PlatformCall) : Prop where
  /-- "Not applied" is said only if no rename succeeded or ended ambiguously. -/
  notApplied : ∀ code detail audit, outcome = .provenNotApplied code detail audit →
    ∀ answer ∈ renames calls, mayHaveMoved answer = false
  /-- A success is one rename that succeeded, with the source observed absent and the destination
  observed as expected behind it. -/
  success : ∀ digest audit, outcome = .success digest audit →
    ∃ source destination before request moved, resolveRelative sourceRelative = .ok source ∧
      resolveRelative destinationRelative = .ok destination ∧
      calls = before ++ [.renameSameVolumeNoReplace request (.ok ()),
        .validateDestinationAbsent source (.ok ()),
        .fingerprintStreaming destination (.ok moved)] ∧
      (∀ answer ∈ renames before, mayHaveMoved answer = false) ∧
      expectedMatches expected moved false = true
  atMostThree : (renames calls).length ≤ 3
  noneAfter : NoneAfter (renames calls)
  attempts : 1 ≤ outcome.audit.attemptCount ∧ outcome.audit.attemptCount ≤ 3
  reported : Reported calls outcome

/-- An outcome before the loop. -/
theorem Truthful.of_refused {sourceRelative destinationRelative : String}
    {expected : ExpectedFileStateManifest} {code detail : String}
    {errorClass : Option ExecutorErrorClass} (hcode : code ∈ reportedCodes)
    (hdetail : Worded detail) :
    Truthful sourceRelative destinationRelative expected
      (.provenNotApplied code detail ⟨1, errorClass⟩) [] where
  notApplied _ _ _ _ := nofun
  success := nofun
  atMostThree := Nat.zero_le _
  noneAfter := .of_length (Nat.zero_le _)
  attempts := ⟨Nat.le_refl 1, show 1 ≤ 3 by decide⟩
  reported := .of_worded rfl hcode hdetail

/-- The texts of a refused path. -/
theorem resolveRelative_error {relative error : String}
    (h : resolveRelative relative = .error error) : Worded error := by
  unfold resolveRelative at h
  split at h
  · cases h
    decide +kernel
  · split at h
    · cases h
    · cases h
      decide +kernel

theorem nativeRename_truthful (blake3 : List UInt8 → Bytes32) (answers : RenameAnswers)
    (sourceRelative destinationRelative originalSourceRelative : String)
    (expected : ExpectedFileStateManifest) (maximumHashBytes : Nat) :
    Truthful sourceRelative destinationRelative expected
      (nativeRename blake3 answers sourceRelative destinationRelative originalSourceRelative
        expected maximumHashBytes).1
      (nativeRename blake3 answers sourceRelative destinationRelative originalSourceRelative
        expected maximumHashBytes).2 := by
  unfold nativeRename
  split
  · exact .of_refused (by decide) (by decide +kernel)
  cases hsource : resolveRelative sourceRelative with
  | error error => exact .of_refused (by decide) (resolveRelative_error hsource)
  | ok source =>
    cases hdestination : resolveRelative destinationRelative with
    | error error => exact .of_refused (by decide) (resolveRelative_error hdestination)
    | ok destination =>
      simp only
      generalize htask : (⟨source, destination, decide (sourceRelative = originalSourceRelative),
        expected, maximumHashBytes⟩ : RenameTask) = task
      obtain ⟨hthree, hsound⟩ := @renameLoop_sound task answers [1, 2, 3] none
      split
      · next outcome calls heq =>
        rw [heq] at hthree hsound
        obtain ⟨hnone, attempt, hattempt, hrefused⟩ := hsound
        have hcount := hrefused.count
        refine ⟨?_, ?_, hthree, hnone, ?_, hrefused.reported⟩
        · rintro code detail audit rfl
          exact hrefused.notApplied rfl
        · rintro digest audit rfl
          exact nomatch hrefused.notSucceeded
        · simp only [List.mem_cons, List.not_mem_nil, or_false] at hattempt
          simp only [hcount]
          omega
      · next calls heq =>
        -- the last attempt is never made again
        rw [heq] at hsound
        exact absurd (hsound.1 3 (by simp)) (Nat.lt_irrefl 3)
      · next attempt lastErrorClass calls heq =>
        rw [heq] at hthree hsound
        obtain ⟨hattempt, before, request, hcalls, hbefore⟩ := hsound
        simp only at hcalls hthree
        have hchecked := @renameChecked_spec task answers blake3 attempt lastErrorClass
        generalize renameChecked task answers blake3 attempt lastErrorClass = checked at hchecked
        obtain ⟨outcome, more⟩ := checked
        have hrenames : renames (calls ++ more) = renames calls := by
          rw [renames_append, hchecked.noRename, List.append_nil]
        have hcount := hchecked.count
        simp only [List.mem_cons, List.not_mem_nil, or_false] at hattempt hcount
        refine ⟨?_, ?_, ?_, ?_, ?_, hchecked.reported.mono (List.subset_append_right _ _)⟩
        · rintro code detail audit heq'
          simp only at heq'
          subst heq'
          exact absurd hchecked.applied (by simp [HandlerOutcome.needsRecovery,
            HandlerOutcome.succeeded])
        · rintro digest audit heq'
          simp only at heq'
          subst heq'
          obtain ⟨moved, hmore, hmatches⟩ := hchecked.success rfl
          refine ⟨source, destination, before, request, moved, hsource, hdestination, ?_, hbefore,
            ?_⟩
          · simp only at hmore
            rw [hcalls, hmore, ← htask, List.append_assoc]
            rfl
          · rw [← htask] at hmatches
            exact hmatches
        · rw [hrenames]
          exact hthree
        · rw [hrenames, hcalls, renames_append]
          exact .append hbefore (.of_length (Nat.le_refl _))
        · simp only
          omega

/-- **The native rename never lies.** Whatever the platform and the cancellation answer, what the
outcome says of the renames holds, it counts one to three attempts, and the protocol takes it
exactly when it takes its detail, which is so when the texts of the platform's errors are words the
protocol takes. -/
theorem nativeRename_neverLies (blake3 : List UInt8 → Bytes32) (answers : RenameAnswers)
    (sourceRelative destinationRelative originalSourceRelative : String)
    (expected : ExpectedFileStateManifest) (maximumHashBytes : Nat) :
    let ended := nativeRename blake3 answers sourceRelative destinationRelative
      originalSourceRelative expected maximumHashBytes
    Truthful sourceRelative destinationRelative expected ended.1 ended.2 ∧
      (∀ now, 0 ≤ now → ((ended.1.sent now).validate = .ok () ↔
        ∀ code detail, ended.1.report? = some (code, detail) → Worded detail)) ∧
      ((∀ call ∈ ended.2, ∀ error, call.error? = some error → error.WellWorded) →
        ∀ now, 0 ≤ now → (ended.1.sent now).validate = .ok ()) := by
  have htruthful := nativeRename_truthful blake3 answers sourceRelative destinationRelative
    originalSourceRelative expected maximumHashBytes
  generalize nativeRename blake3 answers sourceRelative destinationRelative
    originalSourceRelative expected maximumHashBytes = ended at htruthful ⊢
  obtain ⟨outcome, calls⟩ := ended
  intro ended
  have hvalidate : ∀ now, 0 ≤ now → ((outcome.sent now).validate = .ok () ↔
      ∀ code detail, outcome.report? = some (code, detail) → Worded detail) := fun now hnow =>
    htruthful.reported.validate_iff htruthful.attempts.1 htruthful.attempts.2 hnow
  refine ⟨htruthful, hvalidate, fun hworded now hnow => (hvalidate now hnow).2 ?_⟩
  intro code detail hreport
  rcases (htruthful.reported code detail hreport).2 with hdetail | ⟨call, hmem, error, herror, heq⟩
  · exact hdetail
  · rcases heq with rfl | rfl
    · exact (hworded call hmem error herror).1
    · exact (hworded call hmem error herror).2

/-- The state of a file of two bytes. -/
def sampleExpected : ExpectedFileStateManifest where
  nativeIdentity :=
    { volume := ⟨.windows, "volume", some "NTFS", false, false, true⟩
      objectKey := sampleObjectKey
      parentKey := sampleParentKey
      leafName := ⟨.windowsUtf16Le, ⟨[0x61, 0], by decide⟩⟩
      linkCount := 1
      reparseTag := none }
  byteSize := 2
  modifiedAtNs := some 5
  attributes := 32
  contentDigest := Bytes32.filled 3

/-- The platform refuses every attempt with a precondition that has no text. -/
def emptyReason : RenameAnswers where
  attempt _ :=
    { cancelled := false
      destinationAbsent := .error (.precondition "")
      source := .error .sourceMissing
      rename := .error .sourceMissing }
  sourceAbsent := .ok ()
  destination := .error .sourceMissing

/-- The reason is passed on as it is, and the protocol does not take an empty detail. -/
theorem emptyReason_refused :
    (nativeRename (fun _ => Bytes32.filled 0) emptyReason "a.txt" "b.txt" "a.txt"
        sampleExpected 100).1 =
      .provenNotApplied "source_precondition_failed" "" ⟨1, some .precondition⟩ ∧
    ((nativeRename (fun _ => Bytes32.filled 0) emptyReason "a.txt" "b.txt" "a.txt"
        sampleExpected 100).1.sent 0).validate ≠ .ok () := by
  decide +kernel

end Zemo.ExecutorV2.Worker
