import Mathlib.Algebra.Group.Int.Defs
import Mathlib.Algebra.Group.Nat.Defs
import Mathlib.Data.List.Sort
import Zemo.Domain.Execution
import Zemo.Lib.Checked

set_option autoImplicit false

/-! # The monitoring queue

What the watchers of a root report is stored as events, and every event is linked to the job that
will look at its path. A job is claimed by a worker, which holds it under a token until it is done,
gives it back or loses its lease. The rows are those of the tables; what only a clock writes is left
out, and so are the limits on the length of columns.

Each operation is one transaction: it returns the rows it leaves, or an error and no rows. -/

namespace Zemo.Monitoring

open Checked

/-! ## Rows -/

inductive WatchEventKind where
  | created
  | modified
  | moved
  | removed
  | metadata
  | overflow
  | rescanRequired
deriving DecidableEq, Repr

inductive WatchEventScope where
  | file
  | directory
  | unknown
deriving DecidableEq, Repr

inductive MonitoringJobStatus where
  | pending
  | waiting
  | processing
  | completed
  | toReview
  | failed
  | cancelled
  | excluded
deriving DecidableEq, Repr

/-- The job waits to be claimed. -/
def MonitoringJobStatus.isQueued : MonitoringJobStatus → Bool
  | .pending | .waiting => true
  | _ => false

/-- The job is not over. -/
def MonitoringJobStatus.isActive : MonitoringJobStatus → Bool
  | .pending | .waiting | .processing => true
  | _ => false

inductive MonitoringJobStage where
  | queued
  | stability
  | catalog
  | content
  | semantic
  | relationships
  | proposal
  | search
  | finalizing
deriving DecidableEq, Repr

inductive QueueError where
  | invalidMonitoringInput
  | notFound
  | numericOverflow
  /-- A unique index on the jobs that wait to be claimed. -/
  | uniqueQueuedJob
  | sqlite
deriving DecidableEq, Repr

structure MonitoringJob where
  id : String
  workspaceId : WorkspaceId
  rootId : RootId
  watchRegistrationId : Option String
  eventKind : WatchEventKind
  eventScope : WatchEventScope
  pathBefore : Option RelPath
  pathAfter : Option RelPath
  coalescingPath : Option RelPath
  status : MonitoringJobStatus
  attemptCount : Nat
  maximumAttempts : Nat
  sampleByteSize : Option Nat
  sampleModifiedAtNs : Option String
  stableSampleCount : Nat
  debounceReadyAtUnixMs : Int
  retryAfterUnixMs : Option Int
  lastSampledAtUnixMs : Option Int
  eventCount : Nat
  coalescedEventCount : Nat
  reconciliationScanId : Option ScanId
  lastErrorCode : Option String
  lastErrorMessage : Option String
  claimToken : Option String
  leaseExpiresAtUnixMs : Option Int
  processingStage : MonitoringJobStage
  createdAt : String
deriving DecidableEq

/-- The numeric `CHECK` constraints of `monitoring_jobs`. -/
def MonitoringJob.check (job : MonitoringJob) : Bool :=
  decide (job.attemptCount ≤ 20 ∧ 1 ≤ job.maximumAttempts ∧ job.maximumAttempts ≤ 20
    ∧ job.stableSampleCount ≤ 100 ∧ 1 ≤ job.eventCount)

/-- Where a job looks: its root, and a path of it or all of it. -/
def MonitoringJob.place (job : MonitoringJob) : RootId × Option RelPath :=
  (job.rootId, job.coalescingPath)

structure WatchEvent where
  id : String
  registrationId : String
  resultingScanId : Option ScanId
  sequenceNumber : Nat
  kind : WatchEventKind
  scope : WatchEventScope
  pathBefore : Option RelPath
  pathAfter : Option RelPath
deriving DecidableEq

/-- A row of `monitoring_job_events`. -/
structure JobEventLink where
  watchEventId : String
  monitoringJobId : String
deriving DecidableEq

structure MonitoringQueue where
  jobs : List MonitoringJob := []
  events : List WatchEvent := []
  links : List JobEventLink := []
deriving DecidableEq

/-- An operation on the queue: its answer and the rows it leaves, or an error. -/
abbrev Tx (α : Type) := MonitoringQueue → Except QueueError (α × MonitoringQueue)

/-! ## Statements -/

/-- `uq_monitoring_active_native_path_job` and `uq_monitoring_active_root_job`. -/
def UniqueQueued (jobs : List MonitoringJob) : Prop :=
  jobs.Pairwise fun a b =>
    a.status.isQueued = true → b.status.isQueued = true → a.place ≠ b.place

instance (jobs : List MonitoringJob) : Decidable (UniqueQueued jobs) := by
  unfold UniqueQueued; exact inferInstance

/-- The jobs after a statement, when they satisfy the constraints of the table. -/
def MonitoringQueue.withJobs (queue : MonitoringQueue) (jobs : List MonitoringJob) :
    Except QueueError MonitoringQueue := do
  require (jobs.all (·.check) = true) .sqlite
  require (UniqueQueued jobs) .uniqueQueuedJob
  return { queue with jobs }

/-- `UPDATE monitoring_jobs SET .. WHERE ..`: the number of the rows it changed. -/
def MonitoringQueue.update (queue : MonitoringQueue) (selected : MonitoringJob → Bool)
    (set : MonitoringJob → MonitoringJob) : Except QueueError (Nat × MonitoringQueue) := do
  let after ← queue.withJobs (queue.jobs.map fun job => if selected job then set job else job)
  return (queue.jobs.countP selected, after)

/-- `monitoring_job_from_connection`. -/
def MonitoringQueue.job (queue : MonitoringQueue) (jobId : String) : Except QueueError MonitoringJob :=
  orError (queue.jobs.find? (·.id = jobId)) .notFound

/-! ## Inputs -/

/-- `validate_required_text`. -/
def validateRequiredText (value : String) (maximum : Nat) : Except QueueError Unit :=
  require (value.toList.length ≠ 0 ∧ value.toList.length ≤ maximum) .invalidMonitoringInput

/-- `validate_optional_text`. -/
def validateOptionalText (value : Option String) (maximum : Nat) : Except QueueError Unit :=
  require (value.all (·.toList.length ≤ maximum) = true) .invalidMonitoringInput

/-- `validate_local_identifier`. -/
def validateLocalIdentifier (value : String) (maximum : Nat) : Except QueueError Unit := do
  validateRequiredText value maximum
  require ('\x00' ∉ value.toList) .invalidMonitoringInput

def maxErrorCodeCharacters : Nat := 256
def maxErrorMessageCharacters : Nat := 2048
def maxBatchLimit : Nat := 500
def maxNativePathBytes : Nat := 16385
def monitoringJobLeaseMs : Int := 60000

/-- `validate_error`. -/
def validateError (errorCode errorMessage : Option String) : Except QueueError Unit := do
  match errorCode with
  | some code => validateRequiredText code maxErrorCodeCharacters
  | none => .ok ()
  validateOptionalText errorMessage maxErrorMessageCharacters

/-- The lease a worker gets at a time, with `saturating_add` on 64 bits. -/
def leaseFrom (nowUnixMs : Int) : Int := min (nowUnixMs + monitoringJobLeaseMs) (2 ^ 63 - 1)

inductive PathComponent where
  | normal (name : String)
  | curDir
  | parentDir
  | rootDir
deriving DecidableEq, Repr

/-- What of the platform the queue depends on: the case mapping, and the length of a stored path. -/
structure PathPlatform where
  lower : String → String
  encodedLength : RelPath → Nat

/-- `encode_native_path`, as far as it may fail. -/
def PathPlatform.encodable (platform : PathPlatform) (path : RelPath) : Except QueueError Unit :=
  require ((∀ name ∈ path, '\x00' ∉ name.toList)
    ∧ platform.encodedLength path ≤ maxNativePathBytes) .invalidMonitoringInput

/-- `normalize_relative_native_path`. The path `.` is the root itself. -/
def normalizeRelativeNativePath (platform : PathPlatform) (value : List PathComponent) :
    Except QueueError RelPath :=
  if value = [.curDir] then .ok ["."]
  else do
    require (.parentDir ∉ value ∧ .rootDir ∉ value) .invalidMonitoringInput
    let normalized := value.filterMap fun component =>
      match component with
      | .normal name => some name
      | _ => none
    require (normalized ≠ []) .invalidMonitoringInput
    platform.encodable normalized
    return normalized

/-- `monitoring_path_key`. -/
def monitoringPathKey (platform : PathPlatform) (path : RelPath) (caseSensitive : Bool) : RelPath :=
  if caseSensitive then path else path.map platform.lower

/-! ## Appending events -/

structure WatchEventInput where
  registrationId : String
  kind : WatchEventKind
  scope : WatchEventScope
  pathBefore : Option (List PathComponent)
  pathAfter : Option (List PathComponent)
  debounceReadyAtUnixMs : Int
  maximumAttempts : Nat

/-- `validate_watch_event_input`, but for the payload, which nothing reads. -/
def validateWatchEventInput (input : WatchEventInput) : Except QueueError Unit := do
  validateLocalIdentifier input.registrationId 128
  require (input.maximumAttempts ≠ 0 ∧ input.maximumAttempts ≤ 20) .invalidMonitoringInput

/-- What `registration_root_workspace_case` finds for a registration that is not stopped. -/
structure RegistrationRoot where
  rootId : RootId
  workspaceId : WorkspaceId
  caseSensitive : Bool
deriving DecidableEq

/-- The identifiers drawn for an event, and the time of its insertion. -/
structure EventIds where
  eventId : String
  jobId : String
  createdAt : String
deriving DecidableEq

/-- The other tables and the platform, as an append sees them. -/
structure AppendContext where
  platform : PathPlatform
  registrations : String → Option RegistrationRoot

/-- The paths of an event, and the path its job is found by. -/
structure EventPaths where
  pathBefore : Option RelPath
  pathAfter : Option RelPath
  coalescingPath : Option RelPath
deriving DecidableEq

/-- Apply `f` to the path, if there is one. -/
def optionally {α β : Type} (f : α → Except QueueError β) : Option α → Except QueueError (Option β)
  | none => .ok none
  | some a => (f a).map some

/-- The first part of `append_watch_event_in_transaction`: the paths. -/
def eventPaths (platform : PathPlatform) (caseSensitive : Bool) (input : WatchEventInput) :
    Except QueueError EventPaths := do
  let pathBefore ← optionally (normalizeRelativeNativePath platform) input.pathBefore
  let pathAfter ← optionally (normalizeRelativeNativePath platform) input.pathAfter
  -- a rescan of no path is one of the root
  let pathAfter := if input.kind = .rescanRequired ∧ pathBefore = none ∧ pathAfter = none then
    some ["."] else pathAfter
  require (input.kind = .overflow ∨ pathBefore ≠ none ∨ pathAfter ≠ none) .invalidMonitoringInput
  if input.kind = .overflow then
    return { pathBefore := none, pathAfter := none, coalescingPath := none }
  else do
    let coalescingPath := (pathAfter.or pathBefore).map fun path =>
      monitoringPathKey platform path caseSensitive
    let _ ← optionally platform.encodable coalescingPath
    return { pathBefore, pathAfter, coalescingPath }

/-- `COALESCE(MAX(sequence_number), -1) + 1` of the events of a registration. -/
def MonitoringQueue.nextSequence (queue : MonitoringQueue) (registrationId : String) : Nat :=
  ((queue.events.filter (·.registrationId = registrationId)).map (·.sequenceNumber + 1)).foldl max 0

/-- The job an event of a place belongs to: one that waits, or one that is being processed. -/
def MonitoringQueue.jobAt (queue : MonitoringQueue) (place : RootId × Option RelPath) :
    Option MonitoringJob :=
  let found := fun status : MonitoringJobStatus =>
    queue.jobs.find? fun job => job.place = place && job.status = status
  (found .pending).or ((found .waiting).or (found .processing))

/-- The scope of a job after another event. -/
def WatchEventScope.join : WatchEventScope → WatchEventScope → WatchEventScope
  | .directory, _ | _, .directory => .directory
  | .unknown, _ | _, .unknown => .unknown
  | .file, .file => .file

/-- A job with one more event. -/
def MonitoringJob.coalesce (job : MonitoringJob) (input : WatchEventInput) (paths : EventPaths) :
    MonitoringJob :=
  { job with
    eventKind := input.kind
    eventScope := job.eventScope.join input.scope
    pathBefore := job.pathBefore.or paths.pathBefore
    pathAfter := paths.pathAfter.or job.pathAfter
    debounceReadyAtUnixMs := max job.debounceReadyAtUnixMs input.debounceReadyAtUnixMs
    retryAfterUnixMs := none
    maximumAttempts := max job.maximumAttempts input.maximumAttempts
    sampleByteSize := none
    sampleModifiedAtNs := none
    stableSampleCount := 0
    lastSampledAtUnixMs := none
    eventCount := job.eventCount + 1
    coalescedEventCount := job.coalescedEventCount + 1
    status := .pending
    processingStage := .queued }

/-- The job of the first event of a place. -/
def newJob (root : RegistrationRoot) (input : WatchEventInput) (paths : EventPaths)
    (ids : EventIds) : MonitoringJob where
  id := ids.jobId
  workspaceId := root.workspaceId
  rootId := root.rootId
  watchRegistrationId := some input.registrationId
  eventKind := input.kind
  eventScope := input.scope
  pathBefore := paths.pathBefore
  pathAfter := paths.pathAfter
  coalescingPath := paths.coalescingPath
  status := .pending
  attemptCount := 0
  maximumAttempts := input.maximumAttempts
  sampleByteSize := none
  sampleModifiedAtNs := none
  stableSampleCount := 0
  debounceReadyAtUnixMs := input.debounceReadyAtUnixMs
  retryAfterUnixMs := none
  lastSampledAtUnixMs := none
  eventCount := 1
  coalescedEventCount := 0
  reconciliationScanId := none
  lastErrorCode := none
  lastErrorMessage := none
  claimToken := none
  leaseExpiresAtUnixMs := none
  processingStage := .queued
  createdAt := ids.createdAt

/-- The job of an event: an active one of its place, or a new one. -/
def MonitoringQueue.takeEvent (queue : MonitoringQueue) (root : RegistrationRoot)
    (input : WatchEventInput) (paths : EventPaths) (ids : EventIds) :
    Except QueueError (String × MonitoringQueue) :=
  match queue.jobAt (root.rootId, paths.coalescingPath) with
  | some job => do
      let (_, queue) ← queue.update (·.id = job.id) (·.coalesce input paths)
      return (job.id, queue)
  | none => do
      require (ids.jobId ∉ queue.jobs.map (·.id)) .sqlite
      let queue ← queue.withJobs (queue.jobs ++ [newJob root input paths ids])
      return (ids.jobId, queue)

/-- `append_watch_event_in_transaction`: the link it stores. -/
def appendWatchEvent (context : AppendContext) (input : WatchEventInput) (ids : EventIds) :
    Tx JobEventLink := fun queue => do
  let root ← orError (context.registrations input.registrationId) .notFound
  let paths ← eventPaths context.platform root.caseSensitive input
  require (ids.eventId ∉ queue.events.map (·.id)) .sqlite
  let event : WatchEvent :=
    { id := ids.eventId
      registrationId := input.registrationId
      resultingScanId := none
      sequenceNumber := queue.nextSequence input.registrationId
      kind := input.kind
      scope := input.scope
      pathBefore := paths.pathBefore
      pathAfter := paths.pathAfter }
  let (jobId, queue) ←
    { queue with events := queue.events ++ [event] }.takeEvent root input paths ids
  let link : JobEventLink := { watchEventId := ids.eventId, monitoringJobId := jobId }
  require (ids.eventId ∉ queue.links.map (·.watchEventId)) .sqlite
  return (link, { queue with links := queue.links ++ [link] })

/-- The appends of a batch, in one transaction. -/
def appendAll (context : AppendContext) :
    List (WatchEventInput × EventIds) → Tx (List JobEventLink)
  | [], queue => .ok ([], queue)
  | (input, ids) :: rest, queue => do
      let (link, queue) ← appendWatchEvent context input ids queue
      let (links, queue) ← appendAll context rest queue
      return (link :: links, queue)

/-- `append_watch_events_and_coalesce`, with the identifiers drawn for each event. -/
def appendWatchEventsAndCoalesce (context : AppendContext)
    (inputs : List (WatchEventInput × EventIds)) : Tx (List JobEventLink) := fun queue => do
  require (inputs.length ≤ maxBatchLimit) .invalidMonitoringInput
  forM inputs fun input => validateWatchEventInput input.1
  appendAll context inputs queue

/-! ## Claims -/

/-- The job waits, or its lease is over. -/
def MonitoringJob.claimable (job : MonitoringJob) (nowUnixMs : Int) : Bool :=
  job.status.isQueued
    || (job.status = .processing && job.leaseExpiresAtUnixMs.any (decide <| · ≤ nowUnixMs))

/-- The order `due_monitoring_job_ids` takes jobs in. -/
def dueBefore (a b : MonitoringJob) : Bool :=
  decide (a.debounceReadyAtUnixMs < b.debounceReadyAtUnixMs
    ∨ (a.debounceReadyAtUnixMs = b.debounceReadyAtUnixMs
      ∧ (a.createdAt < b.createdAt ∨ (a.createdAt = b.createdAt ∧ a.id ≤ b.id))))

/-- `due_monitoring_job_ids`. -/
def MonitoringQueue.dueMonitoringJobIds (queue : MonitoringQueue) (nowUnixMs : Int) (limit : Nat) :
    List String :=
  let due := queue.jobs.filter fun job => job.claimable nowUnixMs
    && decide (job.debounceReadyAtUnixMs ≤ nowUnixMs)
    && job.retryAfterUnixMs.all (decide <| · ≤ nowUnixMs)
  ((due.insertionSort (dueBefore · ·)).take (min (max limit 1) maxBatchLimit)).map (·.id)

/-- A job in the hands of a worker. -/
def MonitoringJob.claimedBy (job : MonitoringJob) (token : String) (nowUnixMs : Int) :
    MonitoringJob :=
  { job with
    status := .processing
    claimToken := some token
    leaseExpiresAtUnixMs := some (leaseFrom nowUnixMs)
    processingStage := .stability }

/-- `claim_monitoring_job_ids`, with the token drawn for each. -/
def claimMonitoringJobIds (nowUnixMs : Int) : List (String × String) → Tx (List MonitoringJob)
  | [], queue => .ok ([], queue)
  | (id, token) :: rest, queue => do
      let (changed, queue) ← queue.update
        (fun job => job.id = id && job.claimable nowUnixMs) (·.claimedBy token nowUnixMs)
      if changed = 1 then do
        let job ← queue.job id
        let (claimed, queue) ← claimMonitoringJobIds nowUnixMs rest queue
        return (job :: claimed, queue)
      else claimMonitoringJobIds nowUnixMs rest queue

/-- Each of the ids with the token drawn for it. -/
def withTokens (ids : List String) (tokens : Nat → String) : List (String × String) :=
  ids.mapIdx fun index id => (id, tokens index)

/-- `claim_due_monitoring_jobs`. -/
def claimDueMonitoringJobs (nowUnixMs : Int) (limit : Nat) (tokens : Nat → String) :
    Tx (List MonitoringJob) := fun queue =>
  claimMonitoringJobIds nowUnixMs (withTokens (queue.dueMonitoringJobIds nowUnixMs limit) tokens)
    queue

/-- `claim_monitoring_jobs`. -/
def claimMonitoringJobs (jobIds : List String) (nowUnixMs : Int) (tokens : Nat → String) :
    Tx (List MonitoringJob) := fun queue => do
  require (jobIds.length ≤ maxBatchLimit) .invalidMonitoringInput
  forM jobIds fun id => validateLocalIdentifier id 128
  claimMonitoringJobIds nowUnixMs (withTokens jobIds tokens) queue

/-! ## Work under a claim -/

/-- The job is the one of a claim that still holds. -/
def MonitoringJob.heldBy (job : MonitoringJob) (jobId token : String) : Bool :=
  job.id = jobId && job.status = .processing && job.claimToken = some token

/-- The identifiers a worker names its claim by. -/
def validateClaim (jobId token : String) : Except QueueError Unit := do
  validateLocalIdentifier jobId 128
  validateLocalIdentifier token 128

/-- Change the job of a claim. -/
def underClaim (jobId token : String) (set : MonitoringJob → MonitoringJob) : Tx Bool :=
  fun queue => do
    let (changed, queue) ← queue.update (·.heldBy jobId token) set
    return (changed = 1, queue)

/-- The job after a change under a claim that must hold. -/
def underValidClaim (jobId token : String) (set : MonitoringJob → MonitoringJob) :
    Tx MonitoringJob := fun queue => do
  let (changed, queue) ← underClaim jobId token set queue
  require (changed = true) .notFound
  let job ← queue.job jobId
  return (job, queue)

/-- A job nobody holds. -/
def MonitoringJob.released (job : MonitoringJob) (status : MonitoringJobStatus)
    (stage : MonitoringJobStage) : MonitoringJob :=
  { job with
    status := status
    claimToken := none
    leaseExpiresAtUnixMs := none
    processingStage := stage }

structure MonitoringStabilitySample where
  byteSize : Nat
  modifiedAtNs : Option String
  stableSampleCount : Nat
  sampledAtUnixMs : Int
  nextCheckAtUnixMs : Int
deriving DecidableEq

/-- `update_monitoring_job_stability_sample`. -/
def updateMonitoringJobStabilitySample (jobId token : String)
    (sample : MonitoringStabilitySample) : Tx MonitoringJob := fun queue => do
  validateClaim jobId token
  require (sample.stableSampleCount ≤ 100) .invalidMonitoringInput
  validateOptionalText sample.modifiedAtNs 64
  require (sample.byteSize < 2 ^ 63) .numericOverflow
  underValidClaim jobId token
    (fun job => { job.released .waiting .queued with
      sampleByteSize := some sample.byteSize
      sampleModifiedAtNs := sample.modifiedAtNs
      stableSampleCount := sample.stableSampleCount
      lastSampledAtUnixMs := some sample.sampledAtUnixMs
      debounceReadyAtUnixMs := sample.nextCheckAtUnixMs }) queue

/-- A job after another failed attempt: it fails with the last one, and is given back before. -/
def MonitoringJob.attempted (job : MonitoringJob) (retry : MonitoringJobStatus) : MonitoringJob :=
  { job.released (if job.maximumAttempts ≤ job.attemptCount + 1 then .failed else retry) .queued with
    attemptCount := min (job.attemptCount + 1) job.maximumAttempts }

/-- `reschedule_monitoring_job`. -/
def rescheduleMonitoringJob (jobId token : String) (retryAfterUnixMs : Int)
    (errorCode errorMessage : Option String) : Tx MonitoringJob := fun queue => do
  validateClaim jobId token
  validateError errorCode errorMessage
  underValidClaim jobId token
    (fun job => { job.attempted .waiting with
      retryAfterUnixMs := some retryAfterUnixMs
      lastErrorCode := errorCode
      lastErrorMessage := errorMessage }) queue

/-- `requeue_monitoring_job_after_cancellation`. -/
def requeueMonitoringJobAfterCancellation (jobId token : String) (retryAfterUnixMs : Int) :
    Tx Bool := fun queue => do
  validateClaim jobId token
  underClaim jobId token
    (fun job => { job.released .waiting .queued with
      retryAfterUnixMs := some retryAfterUnixMs
      sampleByteSize := none
      sampleModifiedAtNs := none
      stableSampleCount := 0
      lastSampledAtUnixMs := none
      lastErrorCode := some "cancelled_retryable"
      lastErrorMessage := none }) queue

/-- `update_monitoring_job_stage`. -/
def updateMonitoringJobStage (jobId token : String) (stage : MonitoringJobStage)
    (nowUnixMs : Int) : Tx Bool := fun queue => do
  validateClaim jobId token
  underClaim jobId token
    (fun job => { job with
      processingStage := stage
      leaseExpiresAtUnixMs := some (leaseFrom nowUnixMs) }) queue

/-- How a worker ends a job. -/
inductive JobEnd where
  | completed
  | toReview (reasonCode : String)
  | failed (errorCode : String) (errorMessage : Option String)
  | excluded
deriving DecidableEq

def JobEnd.status : JobEnd → MonitoringJobStatus
  | .completed => .completed
  | .toReview _ => .toReview
  | .failed _ _ => .failed
  | .excluded => .excluded

def JobEnd.errorCode : JobEnd → Option String
  | .toReview reasonCode => some reasonCode
  | .failed errorCode _ => some errorCode
  | _ => none

def JobEnd.errorMessage : JobEnd → Option String
  | .failed _ errorMessage => errorMessage
  | _ => none

/-- `finish_monitoring_job`, as its four callers call it. -/
def finishMonitoringJob (jobId token : String) (jobEnd : JobEnd) : Tx Bool := fun queue => do
  validateClaim jobId token
  validateError jobEnd.errorCode jobEnd.errorMessage
  underClaim jobId token
    (fun job => { job.released jobEnd.status .finalizing with
      lastErrorCode := jobEnd.errorCode
      lastErrorMessage := jobEnd.errorMessage }) queue

/-- `link_monitoring_job_to_reconciliation_scan`; `scanRoot` is the root of the scan when it is a
    reconciliation. -/
def linkMonitoringJobToReconciliationScan (jobId token : String) (scanId : ScanId)
    (scanRoot : Option RootId) : Tx Bool := fun queue => do
  validateClaim jobId token
  let (changed, queue) ← queue.update
    (fun job => job.heldBy jobId token && scanRoot = some job.rootId)
    (fun job => { job with reconciliationScanId := some scanId })
  if changed = 1 then
    let linked := (queue.links.filter (·.monitoringJobId = jobId)).map (·.watchEventId)
    return (true, { queue with events := queue.events.map fun event =>
      if event.id ∈ linked then { event with resultingScanId := some scanId } else event })
  else return (false, queue)

/-! ## Recovery -/

/-- The message of a job that failed with its last attempt. -/
def exhaustedMessage (job : MonitoringJob) (message : String) : Option String :=
  if job.maximumAttempts ≤ job.attemptCount + 1 then some message else none

/-- `recover_processing_jobs_for_workspace`. -/
def recoverProcessingJobsForWorkspace (workspaceId : WorkspaceId) (retryAfterUnixMs : Int)
    (errorCode : String) : Tx Nat := fun queue => do
  validateRequiredText errorCode maxErrorCodeCharacters
  queue.update (fun job => job.workspaceId = workspaceId && job.status = .processing)
    (fun job => { job.attempted .waiting with
      retryAfterUnixMs := some retryAfterUnixMs
      lastErrorCode := some errorCode
      lastErrorMessage := exhaustedMessage job
        "Monitoring failed repeatedly before reaching a durable terminal state." })

/-- Another job waits at the place of the job. -/
def MonitoringQueue.hasQueuedTwin (queue : MonitoringQueue) (job : MonitoringJob) : Bool :=
  queue.jobs.any fun active =>
    active.place = job.place && active.id ≠ job.id && active.status.isQueued

/-- `normalize_interrupted_monitoring_jobs`. -/
def normalizeInterruptedMonitoringJobs (workspaceId : WorkspaceId) : Tx Nat := fun queue => do
  let (_, queue) ← queue.update
    (fun job => job.workspaceId = workspaceId && job.status = .processing
      && queue.hasQueuedTwin job)
    (fun job => { job.released .failed .queued with
      attemptCount := min (job.attemptCount + 1) job.maximumAttempts
      retryAfterUnixMs := none
      lastErrorCode := some "interrupted_duplicate"
      lastErrorMessage := some "Interrupted work collided with an already queued job." })
  queue.update (fun job => job.workspaceId = workspaceId && job.status = .processing)
    (fun job => { job.attempted .pending with
      retryAfterUnixMs := none
      lastErrorCode := some "interrupted"
      lastErrorMessage := exhaustedMessage job
        "Monitoring stopped before a durable terminal state." })

end Zemo.Monitoring
