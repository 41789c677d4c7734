import Zemo.Lib.Run
import Zemo.Monitoring.Queue

set_option autoImplicit false

/-! # Histories of the queue

The operations of the queue as data, and what a run of them did: which events were linked to which
jobs, which jobs were claimed under which tokens, and which were ended. `QueueInvariant` relates the
rows to that history; `Change` says what an operation may do to one job for it to go on. -/

namespace Zemo.Monitoring

open Checked

/-! ## Runs -/

inductive QueueCall where
  | append (context : AppendContext) (inputs : List (WatchEventInput × EventIds))
  | claim (jobIds : List String) (nowUnixMs : Int) (tokens : Nat → String)
  | claimDue (nowUnixMs : Int) (limit : Nat) (tokens : Nat → String)
  | sample (jobId token : String) (sample : MonitoringStabilitySample)
  | reschedule (jobId token : String) (retryAfterUnixMs : Int)
      (errorCode errorMessage : Option String)
  | requeue (jobId token : String) (retryAfterUnixMs : Int)
  | stage (jobId token : String) (stage : MonitoringJobStage) (nowUnixMs : Int)
  | finish (jobId token : String) (jobEnd : JobEnd)
  | linkScan (jobId token : String) (scanId : ScanId) (scanRoot : Option RootId)
  | recover (workspaceId : WorkspaceId) (retryAfterUnixMs : Int) (errorCode : String)
  | normalize (workspaceId : WorkspaceId)

/-- What an operation did. -/
inductive QueueEvent where
  | linked (eventId jobId : String)
  | claimed (jobId token : String)
  | finished (jobId token : String) (status : MonitoringJobStatus)
deriving DecidableEq, Repr

/-- The claim of a job that was returned to a worker. -/
def claimOf (job : MonitoringJob) : QueueEvent := .claimed job.id (job.claimToken.getD "")

/-- The event of a link that was stored. -/
def linkOf (link : JobEventLink) : QueueEvent := .linked link.watchEventId link.monitoringJobId

/-- An operation of which nothing is remembered. -/
def unlogged {α : Type} (result : Except QueueError (α × MonitoringQueue)) :
    Except QueueError (List QueueEvent × MonitoringQueue) :=
  result.map fun r => ([], r.2)

/-- Run a call: what it did, and the rows it leaves. -/
def QueueCall.run (call : QueueCall) (queue : MonitoringQueue) :
    Except QueueError (List QueueEvent × MonitoringQueue) :=
  match call with
  | .append context inputs => do
      let (links, queue) ← appendWatchEventsAndCoalesce context inputs queue
      return (links.map linkOf, queue)
  | .claim jobIds now tokens => do
      let (jobs, queue) ← claimMonitoringJobs jobIds now tokens queue
      return (jobs.map claimOf, queue)
  | .claimDue now limit tokens => do
      let (jobs, queue) ← claimDueMonitoringJobs now limit tokens queue
      return (jobs.map claimOf, queue)
  | .sample jobId token observed =>
      unlogged (updateMonitoringJobStabilitySample jobId token observed queue)
  | .reschedule jobId token retryAfter code message =>
      unlogged (rescheduleMonitoringJob jobId token retryAfter code message queue)
  | .requeue jobId token retryAfter =>
      unlogged (requeueMonitoringJobAfterCancellation jobId token retryAfter queue)
  | .stage jobId token next now => unlogged (updateMonitoringJobStage jobId token next now queue)
  | .finish jobId token jobEnd => do
      let (done, queue) ← finishMonitoringJob jobId token jobEnd queue
      return (if done then [.finished jobId token jobEnd.status] else [], queue)
  | .linkScan jobId token scanId scanRoot =>
      unlogged (linkMonitoringJobToReconciliationScan jobId token scanId scanRoot queue)
  | .recover workspaceId retryAfter code =>
      unlogged (recoverProcessingJobsForWorkspace workspaceId retryAfter code queue)
  | .normalize workspaceId => unlogged (normalizeInterruptedMonitoringJobs workspaceId queue)

/-- The claim a call names. -/
def QueueCall.presents : QueueCall → Option (String × String)
  | .sample jobId token _ | .reschedule jobId token _ _ _ | .requeue jobId token _
  | .stage jobId token _ _ | .finish jobId token _ | .linkScan jobId token _ _ => some (jobId, token)
  | _ => none

/-- The rows, and what happened to them. -/
structure QueueRun where
  queue : MonitoringQueue := {}
  history : List QueueEvent := []

/-- A call that fails leaves the rows as they are. -/
def QueueCall.step (call : QueueCall) (run : QueueRun) : QueueRun :=
  match call.run run.queue with
  | .ok (log, queue) => { queue := queue, history := run.history ++ log }
  | .error _ => run

/-! ## What a history says -/

/-- The link an entry stored. -/
def QueueEvent.link? : QueueEvent → Option JobEventLink
  | .linked eventId jobId => some { watchEventId := eventId, monitoringJobId := jobId }
  | _ => none

/-- The entry links an event to the job, or claims it. -/
def QueueEvent.concerns (jobId : String) : QueueEvent → Bool
  | .linked _ id | .claimed id _ => id = jobId
  | .finished _ _ _ => false

/-- The job was claimed under the token, and since then no event was linked to it and it was not
    claimed again. -/
def ClaimedSince (history : List QueueEvent) (jobId token : String) : Prop :=
  ∃ before after, history = before ++ .claimed jobId token :: after ∧
    ∀ entry ∈ after, entry.concerns jobId = false

/-- An end of a job is under a claim no event was linked to the job after. -/
def EndsClaimed (before : List QueueEvent) : QueueEvent → Prop
  | .finished jobId token _ => ClaimedSince before jobId token
  | _ => True

/-- The token of the last claim of a job. -/
def latestClaim (history : List QueueEvent) (jobId : String) : Option String :=
  (history.filterMap fun entry =>
    match entry with
    | .claimed id token => if id = jobId then some token else none
    | _ => none).getLast?

/-- The statuses a worker ends a job in when it did its work. -/
def MonitoringJobStatus.isDone : MonitoringJobStatus → Bool
  | .completed | .toReview | .excluded => true
  | _ => false

variable {history log : List QueueEvent} {jobId token : String}

theorem ClaimedSince.append (h : ClaimedSince history jobId token)
    (hlog : ∀ entry ∈ log, entry.concerns jobId = false) :
    ClaimedSince (history ++ log) jobId token := by
  obtain ⟨before, after, rfl, hafter⟩ := h
  refine ⟨before, after ++ log, by simp, fun entry hentry => ?_⟩
  rcases List.mem_append.1 hentry with hentry | hentry
  · exact hafter entry hentry
  · exact hlog entry hentry

theorem ClaimedSince.now (history : List QueueEvent) (jobId token : String) :
    ClaimedSince (history ++ [.claimed jobId token]) jobId token :=
  ⟨history, [], rfl, nofun⟩

/-- The claim a job was last taken under is the latest. -/
theorem ClaimedSince.latest (h : ClaimedSince history jobId token) :
    latestClaim history jobId = some token := by
  obtain ⟨before, after, rfl, hafter⟩ := h
  have hnone : after.filterMap (fun entry =>
      match entry with
      | .claimed id token => if id = jobId then some token else none
      | _ => none) = [] := by
    refine List.filterMap_eq_nil_iff.2 fun entry hentry => ?_
    have hc := hafter entry hentry
    cases entry with
    | claimed id t =>
        have hid : id ≠ jobId := by simpa [QueueEvent.concerns] using hc
        simp [hid]
    | linked _ _ => rfl
    | finished _ _ _ => rfl
  rw [latestClaim, List.filterMap_append, List.filterMap_cons_some (b := token) (by simp), hnone]
  simp

/-! ## The invariant -/

/-- What holds of the rows and the history of every run. -/
structure QueueInvariant (queue : MonitoringQueue) (history : List QueueEvent) : Prop where
  ids : (queue.jobs.map (·.id)).Nodup
  places : queue.jobs.Pairwise fun a b =>
    a.status.isActive = true → b.status.isActive = true → a.place ≠ b.place
  held : ∀ job ∈ queue.jobs, job.status = .processing →
    ∃ token, job.claimToken = some token ∧ ClaimedSince history job.id token
  attempts : ∀ job ∈ queue.jobs, job.attemptCount ≤ job.maximumAttempts
  counts : ∀ job ∈ queue.jobs,
    job.eventCount = queue.links.countP (·.monitoringJobId = job.id)
  links : queue.links = history.filterMap (·.link?)
  known : ∀ link ∈ queue.links, link.monitoringJobId ∈ queue.jobs.map (·.id)
  done : ∀ job ∈ queue.jobs, job.status.isDone = true →
    ∃ token, .finished job.id token job.status ∈ history
  ends : History.Each EndsClaimed history

theorem QueueInvariant.start : QueueInvariant {} [] where
  ids := List.nodup_nil
  places := .nil
  held _ h := nomatch h
  attempts _ h := nomatch h
  counts _ h := nomatch h
  links := rfl
  known _ h := nomatch h
  done _ h := nomatch h
  ends := History.each_nil

/-- What an operation with this log may do to one job. -/
structure Change (log : List QueueEvent) (job job' : MonitoringJob) : Prop where
  id : job'.id = job.id
  place : job'.place = job.place
  active : job'.status.isActive = true → job.status.isActive = true
  attempts : job.attemptCount ≤ job.maximumAttempts → job'.attemptCount ≤ job'.maximumAttempts
  count : job'.eventCount =
    job.eventCount + (log.filterMap (·.link?)).countP (·.monitoringJobId = job.id)
  held : job'.status = .processing →
    (job.status = .processing ∧ job'.claimToken = job.claimToken
      ∧ ∀ entry ∈ log, entry.concerns job.id = false)
    ∨ ∃ token, job'.claimToken = some token ∧ log = [.claimed job.id token]
  done : job'.status.isDone = true →
    job.status = job'.status ∨ ∃ token, .finished job.id token job'.status ∈ log

/-- A job the log says nothing of stays as it is. -/
theorem Change.refl {job : MonitoringJob} (h : ∀ entry ∈ log, entry.concerns job.id = false) :
    Change log job job where
  id := rfl
  place := rfl
  active h := h
  attempts h := h
  count := by
    have hnone : (log.filterMap (·.link?)).countP (·.monitoringJobId = job.id) = 0 := by
      refine List.countP_eq_zero.2 fun link hlink => ?_
      obtain ⟨entry, hentry, heq⟩ := List.mem_filterMap.1 hlink
      have hc := h entry hentry
      cases entry with
      | linked eventId id =>
          obtain rfl := Option.some.inj heq
          simpa [QueueEvent.concerns] using hc
      | claimed _ _ => cases heq
      | finished _ _ _ => cases heq
    rw [hnone, Nat.add_zero]
  held hp := .inl ⟨hp, rfl, h⟩
  done _ := .inl rfl

variable {queue : MonitoringQueue} {f : MonitoringJob → MonitoringJob}

theorem map_ids {jobs : List MonitoringJob} (h : ∀ job ∈ jobs, (f job).id = job.id) :
    (jobs.map f).map (·.id) = jobs.map (·.id) := by
  rw [List.map_map]
  exact List.map_congr_left h

theorem map_places {jobs : List MonitoringJob}
    (hplaces : jobs.Pairwise fun a b =>
      a.status.isActive = true → b.status.isActive = true → a.place ≠ b.place)
    (h : ∀ job ∈ jobs, (f job).place = job.place ∧
      ((f job).status.isActive = true → job.status.isActive = true)) :
    (jobs.map f).Pairwise fun a b =>
      a.status.isActive = true → b.status.isActive = true → a.place ≠ b.place := by
  rw [List.pairwise_map]
  refine hplaces.imp_of_mem fun {a b} ha hb hab hfa hfb => ?_
  rw [(h a ha).1, (h b hb).1]
  exact hab ((h a ha).2 hfa) ((h b hb).2 hfb)

/-- An operation that makes of every job what its log allows keeps the invariant. -/
theorem QueueInvariant.changed (h : QueueInvariant queue history)
    (hf : ∀ job ∈ queue.jobs, Change log job (f job))
    (hlinked : ∀ link ∈ log.filterMap (·.link?), link.monitoringJobId ∈ queue.jobs.map (·.id))
    (hends : History.Each EndsClaimed (history ++ log)) (events : List WatchEvent) :
    QueueInvariant
      { jobs := queue.jobs.map f, events := events
        links := queue.links ++ log.filterMap (·.link?) } (history ++ log) := by
  have hids := map_ids fun job hjob => (hf job hjob).id
  refine
    { ids := hids ▸ h.ids
      places := map_places h.places fun job hjob => ⟨(hf job hjob).place, (hf job hjob).active⟩
      held := ?_
      attempts := ?_
      counts := ?_
      links := by simp only [List.filterMap_append, h.links]
      known := ?_
      done := ?_
      ends := hends }
  · intro job' hjob' hp
    obtain ⟨job, hjob, rfl⟩ := List.mem_map.1 hjob'
    rw [(hf job hjob).id]
    rcases (hf job hjob).held hp with ⟨hbefore, htoken, hlog⟩ | ⟨token, htoken, rfl⟩
    · obtain ⟨token, hheld, hsince⟩ := h.held job hjob hbefore
      exact ⟨token, htoken.trans hheld, hsince.append hlog⟩
    · exact ⟨token, htoken, .now history job.id token⟩
  · intro job' hjob'
    obtain ⟨job, hjob, rfl⟩ := List.mem_map.1 hjob'
    exact (hf job hjob).attempts (h.attempts job hjob)
  · intro job' hjob'
    obtain ⟨job, hjob, rfl⟩ := List.mem_map.1 hjob'
    rw [(hf job hjob).count, (hf job hjob).id, h.counts job hjob, List.countP_append]
  · intro link hlink
    simp only [hids]
    rcases List.mem_append.1 hlink with hlink | hlink
    · exact h.known link hlink
    · exact hlinked link hlink
  · intro job' hjob' hdone
    obtain ⟨job, hjob, rfl⟩ := List.mem_map.1 hjob'
    rw [(hf job hjob).id]
    rcases (hf job hjob).done hdone with hstatus | ⟨token, hmem⟩
    · obtain ⟨token, hmem⟩ := h.done job hjob (by rw [hstatus]; exact hdone)
      exact ⟨token, List.mem_append_left _ (by rw [← hstatus]; exact hmem)⟩
    · exact ⟨token, List.mem_append_right _ hmem⟩

end Zemo.Monitoring
