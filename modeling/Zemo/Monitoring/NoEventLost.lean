import Zemo.Monitoring.History

set_option autoImplicit false

/-! # The queue loses no event

Every operation of the queue keeps `QueueInvariant` with the history it adds to, and none fails
because two jobs would wait at one place. What a run promises follows (`queue_laws`): a worker ends
a job only under a claim that saw all its events, and only under its latest claim. -/

namespace Zemo.Monitoring

open Checked

variable {queue : MonitoringQueue} {history log : List QueueEvent} {jobId token : String}
  {selected : MonitoringJob → Bool} {set : MonitoringJob → MonitoringJob}

/-! ## Statements -/

theorem MonitoringJobStatus.isActive_of_isQueued {status : MonitoringJobStatus}
    (h : status.isQueued = true) : status.isActive = true := by
  cases status <;> first | rfl | cases h

/-- Jobs whose active ones are at different places never run into the unique indexes. -/
theorem withJobs_avoids {jobs : List MonitoringJob}
    (h : jobs.Pairwise fun a b =>
      a.status.isActive = true → b.status.isActive = true → a.place ≠ b.place) :
    Avoids .uniqueQueuedJob (· = { queue with jobs }) (queue.withJobs jobs) := by
  have hunique : UniqueQueued jobs := h.imp fun hab ha hb =>
    hab (MonitoringJobStatus.isActive_of_isQueued ha) (MonitoringJobStatus.isActive_of_isQueued hb)
  refine .bind (.require (by decide)) fun _ _ => ?_
  rw [bind_ok (require_pos _ hunique)]
  exact .pure rfl

/-- The rows an update leaves. -/
def MonitoringQueue.updated (queue : MonitoringQueue) (selected : MonitoringJob → Bool)
    (set : MonitoringJob → MonitoringJob) : MonitoringQueue :=
  { queue with jobs := queue.jobs.map fun job => if selected job then set job else job }

/-- An update that keeps each job at its place and revives none. -/
theorem update_avoids (h : QueueInvariant queue history)
    (hset : ∀ job ∈ queue.jobs, selected job = true →
      (set job).place = job.place
        ∧ ((set job).status.isActive = true → job.status.isActive = true)) :
    Avoids .uniqueQueuedJob
      (· = (queue.jobs.countP selected, queue.updated selected set)) (queue.update selected set) := by
  refine .bind (withJobs_avoids (map_places h.places fun job hjob => ?_)) ?_
  · by_cases hs : selected job = true
    · rw [if_pos hs]
      exact hset job hjob hs
    · rw [if_neg hs]
      exact ⟨rfl, id⟩
  · rintro _ rfl
    exact .pure rfl

/-- An update of the jobs its log allows keeps the invariant. -/
theorem QueueInvariant.updated (h : QueueInvariant queue history)
    (hset : ∀ job ∈ queue.jobs, selected job = true → Change log job (set job))
    (hrest : ∀ job ∈ queue.jobs, selected job = false →
      ∀ entry ∈ log, entry.concerns job.id = false)
    (hlinked : ∀ link ∈ log.filterMap (·.link?), link.monitoringJobId ∈ queue.jobs.map (·.id))
    (hends : History.Each EndsClaimed (history ++ log)) (events : List WatchEvent) :
    QueueInvariant
      { queue.updated selected set with
        events := events, links := queue.links ++ log.filterMap (·.link?) } (history ++ log) := by
  refine h.changed (fun job hjob => ?_) hlinked hends events
  by_cases hs : selected job = true
  · rw [if_pos hs]
    exact hset job hjob hs
  · rw [if_neg hs]
    exact .refl (hrest job hjob (Bool.eq_false_iff.2 hs))

/-- An update nothing is remembered of. -/
theorem update_quiet (h : QueueInvariant queue history)
    (hset : ∀ job ∈ queue.jobs, selected job = true → Change [] job (set job)) :
    Avoids .uniqueQueuedJob (fun r => QueueInvariant r.2 history) (queue.update selected set) := by
  refine (update_avoids h fun job hjob hs =>
    ⟨(hset job hjob hs).place, (hset job hjob hs).active⟩).mono ?_
  rintro _ rfl
  have hkept := h.updated hset (fun _ _ _ _ he => nomatch he) (fun _ hl => nomatch hl)
    (show History.Each EndsClaimed (history ++ []) by simpa using h.ends) queue.events
  simpa [MonitoringQueue.updated] using hkept

/-! ## Appending events -/

theorem jobAt_mem {place : RootId × Option RelPath} {job : MonitoringJob}
    (h : queue.jobAt place = some job) :
    job ∈ queue.jobs ∧ job.place = place ∧ job.status.isActive = true := by
  have hfound : ∀ status : MonitoringJobStatus, status.isActive = true →
      (queue.jobs.find? fun job => job.place = place && job.status = status) = some job →
      job ∈ queue.jobs ∧ job.place = place ∧ job.status.isActive = true := by
    intro status hactive hfind
    have hp : job.place = place ∧ job.status = status := by simpa using List.find?_some hfind
    exact ⟨List.mem_of_find?_eq_some hfind, hp.1, hp.2 ▸ hactive⟩
  rcases Option.or_eq_some_iff.1 h with h | ⟨-, h⟩
  · exact hfound .pending rfl h
  · rcases Option.or_eq_some_iff.1 h with h | ⟨-, h⟩
    · exact hfound .waiting rfl h
    · exact hfound .processing rfl h

/-- Where no job is found, none is active. -/
theorem jobAt_none {place : RootId × Option RelPath} (h : queue.jobAt place = none)
    {job : MonitoringJob} (hjob : job ∈ queue.jobs) (hactive : job.status.isActive = true) :
    job.place ≠ place := by
  intro hplace
  obtain ⟨hpending, hrest⟩ := Option.or_eq_none_iff.1 h
  obtain ⟨hwaiting, hprocessing⟩ := Option.or_eq_none_iff.1 hrest
  have hnot : ∀ status : MonitoringJobStatus,
      (queue.jobs.find? fun job => job.place = place && job.status = status) = none →
      job.status ≠ status := by
    intro status hfind hs
    have hp := List.find?_eq_none.1 hfind job hjob
    simp [hplace, hs] at hp
  cases hs : job.status with
  | pending => exact hnot .pending hpending hs
  | waiting => exact hnot .waiting hwaiting hs
  | processing => exact hnot .processing hprocessing hs
  | _ => rw [hs] at hactive; cases hactive

/-- One more event for a job: it has to be claimed again. -/
theorem Change.coalesce {job : MonitoringJob} (hactive : job.status.isActive = true)
    (input : WatchEventInput) (paths : EventPaths) (eventId : String) :
    Change [.linked eventId job.id] job (job.coalesce input paths) where
  id := rfl
  place := rfl
  active _ := hactive
  attempts h := Nat.le_trans h (Nat.le_max_left ..)
  count := by simp [MonitoringJob.coalesce, QueueEvent.link?]
  held h := nomatch h
  done h := nomatch h

/-- The first event of a place brings its job. -/
theorem QueueInvariant.inserted (h : QueueInvariant queue history) (root : RegistrationRoot)
    (input : WatchEventInput) (paths : EventPaths) (ids : EventIds) (eventId : String)
    (hfresh : ids.jobId ∉ queue.jobs.map (·.id))
    (hplace : ∀ job ∈ queue.jobs, job.status.isActive = true →
      job.place ≠ (root.rootId, paths.coalescingPath)) (events : List WatchEvent) :
    QueueInvariant
      { jobs := queue.jobs ++ [newJob root input paths ids], events := events
        links := queue.links ++ [⟨eventId, ids.jobId⟩] }
      (history ++ [.linked eventId ids.jobId]) := by
  have hother : ∀ job ∈ queue.jobs, job.id ≠ ids.jobId := fun job hjob heq =>
    hfresh (heq ▸ List.mem_map_of_mem hjob)
  refine
    { ids := ?_
      places := ?_
      held := ?_
      attempts := ?_
      counts := ?_
      links := by simp [h.links, QueueEvent.link?]
      known := ?_
      done := ?_
      ends := h.ends.concat trivial }
  · rw [List.map_append, List.nodup_append]
    refine ⟨h.ids, by simp, ?_⟩
    rintro _ hold _ hnew rfl
    obtain rfl := List.mem_singleton.1 hnew
    exact hfresh hold
  · refine List.pairwise_append.2 ⟨h.places, List.pairwise_singleton .., ?_⟩
    intro job hjob new hnew hactive _
    obtain rfl := List.mem_singleton.1 hnew
    exact hplace job hjob hactive
  · intro job hjob hp
    rcases List.mem_append.1 hjob with hjob | hjob
    · obtain ⟨token, htoken, hsince⟩ := h.held job hjob hp
      refine ⟨token, htoken, hsince.append fun entry hentry => ?_⟩
      obtain rfl := List.mem_singleton.1 hentry
      simpa [QueueEvent.concerns] using Ne.symm (hother job hjob)
    · obtain rfl := List.mem_singleton.1 hjob
      cases hp
  · intro job hjob
    rcases List.mem_append.1 hjob with hjob | hjob
    · exact h.attempts job hjob
    · obtain rfl := List.mem_singleton.1 hjob
      exact Nat.zero_le _
  · intro job hjob
    rcases List.mem_append.1 hjob with hjob | hjob
    · have hne : ids.jobId ≠ job.id := Ne.symm (hother job hjob)
      simp [h.counts job hjob, hne]
    · obtain rfl := List.mem_singleton.1 hjob
      -- the links there were name other jobs
      have hnone : queue.links.countP (·.monitoringJobId = ids.jobId) = 0 := by
        refine List.countP_eq_zero.2 fun link hlink => ?_
        have hknown := h.known link hlink
        simpa using fun heq : link.monitoringJobId = ids.jobId => hfresh (heq ▸ hknown)
      show 1 = (queue.links ++ [_]).countP fun link : JobEventLink => decide (link.monitoringJobId = ids.jobId)
      rw [List.countP_append, hnone]
      simp
  · intro link hlink
    rw [List.map_append]
    rcases List.mem_append.1 hlink with hlink | hlink
    · exact List.mem_append_left _ (h.known link hlink)
    · obtain rfl := List.mem_singleton.1 hlink
      exact List.mem_append_right _ (List.mem_singleton_self _)
  · intro job hjob hdone
    rcases List.mem_append.1 hjob with hjob | hjob
    · obtain ⟨token, hmem⟩ := h.done job hjob hdone
      exact ⟨token, List.mem_append_left _ hmem⟩
    · obtain rfl := List.mem_singleton.1 hjob
      cases hdone

theorem encodable_avoids (platform : PathPlatform) (path : RelPath) :
    Avoids .uniqueQueuedJob (fun _ => True) (platform.encodable path) :=
  (Avoids.require (by decide)).mono fun _ _ => trivial

theorem optionally_avoids {α β : Type} {f : α → Except QueueError β}
    (hf : ∀ a, Avoids .uniqueQueuedJob (fun _ => True) (f a)) (o : Option α) :
    Avoids .uniqueQueuedJob (fun _ => True) (optionally f o) := by
  cases o with
  | none => exact .pure trivial
  | some a =>
      show Avoids _ _ ((f a).map some)
      cases hfa : f a with
      | ok b => exact .pure trivial
      | error e => exact .error fun he => (hf a).1 (by rw [hfa, he])

theorem normalizeRelativeNativePath_avoids (platform : PathPlatform) (value : List PathComponent) :
    Avoids .uniqueQueuedJob (fun _ => True) (normalizeRelativeNativePath platform value) := by
  unfold normalizeRelativeNativePath
  split
  · exact .pure trivial
  · refine .bind (.require (by decide)) fun _ _ => ?_
    refine .bind (.require (by decide)) fun _ _ => ?_
    exact .bind (encodable_avoids ..) fun _ _ => .pure trivial

theorem eventPaths_avoids (platform : PathPlatform) (caseSensitive : Bool)
    (input : WatchEventInput) :
    Avoids .uniqueQueuedJob (fun _ => True) (eventPaths platform caseSensitive input) := by
  have hpath := normalizeRelativeNativePath_avoids platform
  refine .bind (optionally_avoids hpath input.pathBefore) fun _ _ => ?_
  refine .bind (optionally_avoids hpath input.pathAfter) fun _ _ => ?_
  refine .bind (.require (by decide)) fun _ _ => ?_
  split
  · exact .pure trivial
  · exact .bind (optionally_avoids (encodable_avoids platform) _) fun _ _ => .pure trivial

theorem takeEvent_avoids (h : QueueInvariant queue history) (root : RegistrationRoot)
    (input : WatchEventInput) (paths : EventPaths) (ids : EventIds) (eventId : String) :
    Avoids .uniqueQueuedJob
      (fun r => QueueInvariant { r.2 with links := r.2.links ++ [⟨eventId, r.1⟩] }
        (history ++ [.linked eventId r.1]))
      (queue.takeEvent root input paths ids) := by
  unfold MonitoringQueue.takeEvent
  cases hat : queue.jobAt (root.rootId, paths.coalescingPath) with
  | some job =>
      obtain ⟨hjob, -, hactive⟩ := jobAt_mem hat
      -- identifiers are distinct, so only the job found gets the event
      have honly : ∀ other ∈ queue.jobs, other.id = job.id → other = job := fun other hother heq =>
        List.inj_on_of_nodup_map h.ids hother hjob heq
      refine .bind (update_avoids h ?_) ?_
      · intro other hother hs
        obtain rfl := honly other hother (by simpa using hs)
        exact ⟨rfl, fun _ => hactive⟩
      · rintro _ rfl
        have hends : History.Each EndsClaimed (history ++ [.linked eventId job.id]) :=
          h.ends.concat trivial
        refine .pure (h.updated ?_ ?_ ?_ hends queue.events)
        · intro other hother hs
          obtain rfl := honly other hother (by simpa using hs)
          exact .coalesce hactive input paths eventId
        · intro other _ hs entry hentry
          obtain rfl := List.mem_singleton.1 hentry
          simpa [QueueEvent.concerns, eq_comm] using hs
        · intro link hlink
          obtain rfl : link = ⟨eventId, job.id⟩ := by simpa [QueueEvent.link?] using hlink
          exact List.mem_map_of_mem hjob
  | none =>
      refine .bind (.require (by decide)) fun _ hfresh => ?_
      have hplace := fun (job : MonitoringJob) hjob hactive => jobAt_none hat (show job ∈ _ from hjob) hactive
      have hinserted := h.inserted root input paths ids eventId hfresh hplace queue.events
      refine .bind (withJobs_avoids hinserted.places) ?_
      rintro _ rfl
      exact .pure hinserted

theorem appendWatchEvent_avoids (h : QueueInvariant queue history) (context : AppendContext)
    (input : WatchEventInput) (ids : EventIds) :
    Avoids .uniqueQueuedJob (fun r => QueueInvariant r.2 (history ++ [linkOf r.1]))
      (appendWatchEvent context input ids queue) := by
  refine .bind (.orError (by decide)) fun root _ => ?_
  refine .bind (eventPaths_avoids ..) fun paths _ => ?_
  refine .bind (.require (by decide)) fun _ _ => ?_
  -- the new event row matters to no job
  have hevent := fun events => { h with : QueueInvariant { queue with events := events } history }
  refine .bind (takeEvent_avoids (hevent _) root input paths ids ids.eventId) ?_
  rintro ⟨jobId, after⟩ htaken
  refine .bind (.require (by decide)) fun _ _ => ?_
  exact .pure htaken

theorem appendAll_avoids (context : AppendContext) (inputs : List (WatchEventInput × EventIds))
    (h : QueueInvariant queue history) :
    Avoids .uniqueQueuedJob (fun r => QueueInvariant r.2 (history ++ r.1.map linkOf))
      (appendAll context inputs queue) := by
  induction inputs generalizing queue history with
  | nil => exact .pure (by simpa using h)
  | cons input rest ih =>
      refine .bind (appendWatchEvent_avoids h context input.1 input.2) ?_
      rintro ⟨link, after⟩ hlink
      refine .bind (ih hlink) ?_
      rintro ⟨links, last⟩ hlinks
      exact .pure (by simpa using hlinks)

theorem validateLocalIdentifier_avoids (value : String) (maximum : Nat) :
    Avoids .uniqueQueuedJob (fun _ => True) (validateLocalIdentifier value maximum) :=
  .bind (.require (by decide)) fun _ _ => (Avoids.require (by decide)).mono fun _ _ => trivial

theorem appendWatchEventsAndCoalesce_avoids (context : AppendContext)
    (inputs : List (WatchEventInput × EventIds)) (h : QueueInvariant queue history) :
    Avoids .uniqueQueuedJob (fun r => QueueInvariant r.2 (history ++ r.1.map linkOf))
      (appendWatchEventsAndCoalesce context inputs queue) := by
  refine .bind (.require (by decide)) fun _ _ => ?_
  refine .bind (.forM fun input _ => ?_) fun _ _ => appendAll_avoids context inputs h
  refine .bind (validateLocalIdentifier_avoids ..) fun _ _ => ?_
  exact (Avoids.require (by decide)).mono fun _ _ => trivial

/-! ## Claims -/

/-- Identifiers are distinct: a statement about one job changes one row or none. -/
theorem countP_eq_one_or_none (h : QueueInvariant queue history)
    (hid : ∀ job, selected job = true → job.id = jobId) :
    (∃ job ∈ queue.jobs, selected job = true)
      ∧ queue.jobs.countP selected = 1 ∨ queue.jobs.countP selected = 0 := by
  rw [List.countP_eq_length_filter]
  cases hfilter : queue.jobs.filter selected with
  | nil => exact .inr rfl
  | cons job rest =>
      have hmem : ∀ other ∈ job :: rest, other ∈ queue.jobs ∧ selected other = true := by
        intro other hother
        exact List.mem_filter.1 (hfilter ▸ hother)
      have hnodup : ((job :: rest).map (·.id)).Nodup := by
        rw [← hfilter]
        exact h.ids.sublist (List.filter_sublist.map _)
      have hrest : rest = [] := by
        refine List.eq_nil_iff_forall_not_mem.2 fun other hother => ?_
        have hsame : other.id = job.id :=
          (hid other (hmem other (List.mem_cons_of_mem _ hother)).2).trans
            (hid job (hmem job (List.mem_cons_self ..)).2).symm
        rw [List.map_cons, List.nodup_cons] at hnodup
        exact hnodup.1 (List.mem_map.2 ⟨other, hother, hsame⟩)
      subst hrest
      exact .inl ⟨⟨job, hmem job (List.mem_cons_self ..)⟩, rfl⟩

/-- An update that selects nothing leaves the rows. -/
theorem updated_none (h : queue.jobs.countP selected = 0) : queue.updated selected set = queue := by
  have hmap : (queue.jobs.map fun job => if selected job then set job else job) = queue.jobs := by
    refine (List.map_congr_left fun job hjob => ?_).trans (List.map_id _)
    exact if_neg (List.countP_eq_zero.1 h job hjob)
  rw [MonitoringQueue.updated, hmap]

/-- A row that was updated is found by its identifier. -/
theorem updated_job (h : QueueInvariant queue history) {job : MonitoringJob}
    (hjob : job ∈ queue.jobs) (hs : selected job = true)
    (hset : ∀ other ∈ queue.jobs, selected other = true → (set other).id = other.id) :
    Avoids .uniqueQueuedJob (· = set job) ((queue.updated selected set).job job.id) := by
  refine (Avoids.orError (by decide)).mono fun found hfound => ?_
  obtain ⟨other, hother, rfl⟩ := List.mem_map.1 (List.mem_of_find?_eq_some hfound)
  have hid : (if selected other then set other else other).id = job.id := by
    simpa using List.find?_some hfound
  have hsame : other.id = job.id := by
    by_cases hso : selected other = true
    · rw [if_pos hso, hset other hother hso] at hid
      exact hid
    · rwa [if_neg hso] at hid
  obtain rfl := List.inj_on_of_nodup_map h.ids hother hjob hsame
  rw [if_pos hs]

/-- A claim, with the job it takes. -/
theorem Change.claimedBy {job : MonitoringJob} {now : Int} (h : job.claimable now = true)
    (token : String) : Change [.claimed job.id token] job (job.claimedBy token now) where
  id := rfl
  place := rfl
  active _ := by
    rcases Bool.or_eq_true_iff.1 h with h | h
    · exact MonitoringJobStatus.isActive_of_isQueued h
    · have hp : job.status = .processing := by
        simpa using (Bool.and_eq_true_iff.1 h).1
      rw [hp]
      rfl
  attempts h := h
  count := rfl
  held _ := .inr ⟨token, rfl, rfl⟩
  done h := nomatch h

theorem claimMonitoringJobIds_avoids (now : Int) (rows : List (String × String))
    (h : QueueInvariant queue history) :
    Avoids .uniqueQueuedJob (fun r => QueueInvariant r.2 (history ++ r.1.map claimOf))
      (claimMonitoringJobIds now rows queue) := by
  induction rows generalizing queue history with
  | nil => exact .pure (by simpa using h)
  | cons row rest ih =>
      obtain ⟨id, token⟩ := row
      set selected : MonitoringJob → Bool := fun job => job.id = id && job.claimable now with hsel
      have hselected : ∀ job, selected job = true → job.id = id ∧ job.claimable now = true := by
        intro job hs
        simpa [hsel] using hs
      have hclaim : ∀ job ∈ queue.jobs, selected job = true →
          Change [.claimed id token] job (job.claimedBy token now) := by
        intro job _ hs
        obtain ⟨rfl, hclaimable⟩ := hselected job hs
        exact .claimedBy hclaimable token
      refine .bind (update_avoids h fun job hjob hs =>
        ⟨(hclaim job hjob hs).place, (hclaim job hjob hs).active⟩) ?_
      rintro _ rfl
      rcases countP_eq_one_or_none h fun job hs => (hselected job hs).1 with
        ⟨⟨job, hjob, hs⟩, hone⟩ | hnone
      · obtain ⟨rfl, -⟩ := hselected job hs
        have hinvariant : QueueInvariant (queue.updated selected (·.claimedBy token now))
            (history ++ [.claimed job.id token]) := by
          have hupdated := h.updated hclaim (fun other hother hso entry hentry => ?_)
            (fun _ hl => nomatch hl) (h.ends.concat trivial) queue.events
          · simpa [MonitoringQueue.updated, QueueEvent.link?] using hupdated
          · obtain rfl := List.mem_singleton.1 hentry
            -- a job of this identifier that is not taken would be the one that is
            have hne : other.id ≠ job.id := by
              intro heq
              obtain rfl := List.inj_on_of_nodup_map h.ids hother hjob heq
              rw [hs] at hso
              cases hso
            simpa [QueueEvent.concerns] using Ne.symm hne
        show Avoids _ _ (if queue.jobs.countP selected = 1 then _ else _)
        rw [if_pos hone]
        refine .bind (updated_job h hjob hs fun _ _ _ => rfl) ?_
        rintro _ rfl
        refine .bind (ih hinvariant) ?_
        rintro ⟨claimed, last⟩ hlast
        exact .pure (by simpa [claimOf, MonitoringJob.claimedBy] using hlast)
      · show Avoids _ _ (if queue.jobs.countP selected = 1 then _ else _)
        rw [if_neg (by omega), updated_none hnone]
        exact ih h

/-! ## Work under a claim -/

/-- The rows after work under a claim: only the job of the claim may be another. -/
def TouchesHeld (queue : MonitoringQueue) (jobId token : String) (after : MonitoringQueue) : Prop :=
  ∃ set : MonitoringJob → MonitoringJob,
    after.jobs = queue.jobs.map fun job => if job.heldBy jobId token then set job else job

theorem heldBy_eq_true {job : MonitoringJob} :
    job.heldBy jobId token = true ↔
      job.id = jobId ∧ job.status = .processing ∧ job.claimToken = some token := by
  simp [MonitoringJob.heldBy, and_assoc]

/-- A claim that holds is the latest of its job. -/
theorem QueueInvariant.claimedSince (h : QueueInvariant queue history) {job : MonitoringJob}
    (hjob : job ∈ queue.jobs) (hheld : job.heldBy jobId token = true) :
    ClaimedSince history jobId token := by
  obtain ⟨rfl, hstatus, htoken⟩ := heldBy_eq_true.1 hheld
  obtain ⟨held, hclaim, hsince⟩ := h.held job hjob hstatus
  obtain rfl := Option.some.inj (hclaim.symm.trans htoken)
  exact hsince

/-- What a worker does to the job it holds, other than to end it. -/
def Quiet (set : MonitoringJob → MonitoringJob) : Prop :=
  ∀ job : MonitoringJob, job.status = .processing → Change [] job (set job)

theorem underClaim_avoids (h : QueueInvariant queue history) (hset : Quiet set) :
    Avoids .uniqueQueuedJob
      (fun r => QueueInvariant r.2 history ∧ TouchesHeld queue jobId token r.2)
      (underClaim jobId token set queue) := by
  have hchange : ∀ job ∈ queue.jobs, job.heldBy jobId token = true → Change [] job (set job) :=
    fun job _ hs => hset job (heldBy_eq_true.1 hs).2.1
  have hupdate := (update_avoids h fun job hjob hs =>
    ⟨(hchange job hjob hs).place, (hchange job hjob hs).active⟩).and (update_quiet h hchange)
  refine .bind hupdate ?_
  rintro _ ⟨rfl, hkept⟩
  exact .pure ⟨hkept, set, rfl⟩

theorem underValidClaim_avoids (h : QueueInvariant queue history) (hset : Quiet set) :
    Avoids .uniqueQueuedJob
      (fun r => QueueInvariant r.2 history ∧ TouchesHeld queue jobId token r.2)
      (underValidClaim jobId token set queue) := by
  refine .bind (underClaim_avoids h hset) ?_
  rintro ⟨changed, after⟩ hafter
  refine .bind (.require (by decide)) fun _ _ => ?_
  exact .bind (.orError (by decide)) fun _ _ => .pure hafter

/-- A job that is given back, with the same attempts or another failed one. -/
theorem Change.released {job : MonitoringJob} (hp : job.status = .processing)
    {job' : MonitoringJob} (hid : job'.id = job.id) (hplace : job'.place = job.place)
    (hstatus : job'.status = .waiting ∨ job'.status = .pending ∨ job'.status = .failed)
    (hattempts : job'.attemptCount = job.attemptCount
      ∨ job'.attemptCount = min (job.attemptCount + 1) job.maximumAttempts)
    (hmaximum : job'.maximumAttempts = job.maximumAttempts)
    (hcount : job'.eventCount = job.eventCount) : Change [] job job' where
  id := hid
  place := hplace
  active _ := by rw [hp]; rfl
  attempts h := by
    rw [hmaximum]
    rcases hattempts with ha | ha <;> omega
  count := hcount
  held h := by rcases hstatus with hs | hs | hs <;> rw [hs] at h <;> cases h
  done h := by rcases hstatus with hs | hs | hs <;> rw [hs] at h <;> cases h

/-- The status of a job after a failed attempt. -/
theorem attempted_status (job : MonitoringJob) {retry : MonitoringJobStatus}
    (hretry : retry = .waiting ∨ retry = .pending) :
    (job.attempted retry).status = .waiting ∨ (job.attempted retry).status = .pending
      ∨ (job.attempted retry).status = .failed := by
  by_cases hlast : job.maximumAttempts ≤ job.attemptCount + 1
  · exact .inr (.inr (if_pos hlast))
  · rw [show (job.attempted retry).status = retry from if_neg hlast]
    rcases hretry with h | h
    · exact .inl h
    · exact .inr (.inl h)

theorem validateClaim_avoids (jobId token : String) :
    Avoids .uniqueQueuedJob (fun _ => True) (validateClaim jobId token) :=
  .bind (validateLocalIdentifier_avoids ..) fun _ _ => validateLocalIdentifier_avoids ..

theorem validateOptionalText_avoids (value : Option String) (maximum : Nat) :
    Avoids .uniqueQueuedJob (fun _ => True) (validateOptionalText value maximum) :=
  (Avoids.require (by decide)).mono fun _ _ => trivial

theorem validateError_avoids (errorCode errorMessage : Option String) :
    Avoids .uniqueQueuedJob (fun _ => True) (validateError errorCode errorMessage) := by
  unfold validateError
  cases errorCode with
  | none => exact .bind (P := fun _ => True) (.pure trivial) fun _ _ =>
      validateOptionalText_avoids ..
  | some code => exact .bind (.require (by decide)) fun _ _ => validateOptionalText_avoids ..

/-- The spec of work under a claim. -/
abbrev WorksUnder (history : List QueueEvent) (queue : MonitoringQueue) (jobId token : String)
    {α : Type} (x : Except QueueError (α × MonitoringQueue)) : Prop :=
  Avoids .uniqueQueuedJob
    (fun r => QueueInvariant r.2 history ∧ TouchesHeld queue jobId token r.2) x

theorem updateMonitoringJobStabilitySample_works (h : QueueInvariant queue history)
    (observed : MonitoringStabilitySample) :
    WorksUnder history queue jobId token
      (updateMonitoringJobStabilitySample jobId token observed queue) := by
  refine .bind (validateClaim_avoids ..) fun _ _ => ?_
  refine .bind (.require (by decide)) fun _ _ => ?_
  refine .bind (validateOptionalText_avoids ..) fun _ _ => ?_
  refine .bind (.require (by decide)) fun _ _ => ?_
  exact underValidClaim_avoids h
    (fun job hp => .released hp rfl rfl (.inl rfl) (.inl rfl) rfl rfl)

theorem rescheduleMonitoringJob_works (h : QueueInvariant queue history) (retryAfter : Int)
    (code message : Option String) :
    WorksUnder history queue jobId token
      (rescheduleMonitoringJob jobId token retryAfter code message queue) := by
  refine .bind (validateClaim_avoids ..) fun _ _ => ?_
  refine .bind (validateError_avoids ..) fun _ _ => ?_
  exact underValidClaim_avoids h
    (fun job hp => .released hp rfl rfl (attempted_status job (.inl rfl)) (.inr rfl) rfl rfl)

theorem requeueMonitoringJobAfterCancellation_works (h : QueueInvariant queue history)
    (retryAfter : Int) :
    WorksUnder history queue jobId token
      (requeueMonitoringJobAfterCancellation jobId token retryAfter queue) := by
  refine .bind (validateClaim_avoids ..) fun _ _ => ?_
  exact underClaim_avoids h
    (fun job hp => .released hp rfl rfl (.inl rfl) (.inl rfl) rfl rfl)

theorem updateMonitoringJobStage_works (h : QueueInvariant queue history)
    (next : MonitoringJobStage) (now : Int) :
    WorksUnder history queue jobId token
      (updateMonitoringJobStage jobId token next now queue) := by
  refine .bind (validateClaim_avoids ..) fun _ _ => ?_
  refine underClaim_avoids h fun job _ => ?_
  exact
    { id := rfl
      place := rfl
      active := id
      attempts := id
      count := rfl
      held := fun hp => .inl ⟨hp, rfl, fun _ he => nomatch he⟩
      done := fun _ => .inl rfl }

theorem linkMonitoringJobToReconciliationScan_works (h : QueueInvariant queue history)
    (scanId : ScanId) (scanRoot : Option RootId) :
    WorksUnder history queue jobId token
      (linkMonitoringJobToReconciliationScan jobId token scanId scanRoot queue) := by
  refine .bind (validateClaim_avoids ..) fun _ _ => ?_
  set selected : MonitoringJob → Bool :=
    fun job => job.heldBy jobId token && scanRoot = some job.rootId with hsel
  have hchange : ∀ job ∈ queue.jobs, selected job = true →
      Change [] job { job with reconciliationScanId := some scanId } := fun job _ _ =>
    { id := rfl
      place := rfl
      active := id
      attempts := id
      count := rfl
      held := fun hp => .inl ⟨hp, rfl, fun _ he => nomatch he⟩
      done := fun _ => .inl rfl }
  refine .bind ((update_avoids h fun job hjob hs =>
    ⟨(hchange job hjob hs).place, (hchange job hjob hs).active⟩).and (update_quiet h hchange)) ?_
  rintro _ ⟨rfl, hkept⟩
  -- the root of the scan is one more test on the job of the claim
  have htouches : TouchesHeld queue jobId token (queue.updated selected
      fun job => { job with reconciliationScanId := some scanId }) := by
    refine ⟨fun job => if scanRoot = some job.rootId then
      { job with reconciliationScanId := some scanId } else job, ?_⟩
    refine List.map_congr_left fun job _ => ?_
    by_cases hheld : job.heldBy jobId token = true
    · simp [hsel, hheld]
    · simp [hsel, hheld]
  show Avoids _ _ (if queue.jobs.countP selected = 1 then _ else _)
  split
  · exact .pure ⟨{ hkept with }, htouches⟩
  · exact .pure ⟨hkept, htouches⟩

/-- The end of a job under a claim that holds. -/
theorem Change.finished {job : MonitoringJob} (hp : job.status = .processing) (jobEnd : JobEnd)
    (token : String) :
    Change [.finished job.id token jobEnd.status] job
      { job.released jobEnd.status .finalizing with
        lastErrorCode := jobEnd.errorCode
        lastErrorMessage := jobEnd.errorMessage } where
  id := rfl
  place := rfl
  active _ := by rw [hp]; rfl
  attempts h := h
  count := rfl
  held h := by cases jobEnd <;> cases h
  done _ := .inr ⟨token, List.mem_singleton_self _⟩

theorem finishMonitoringJob_avoids (h : QueueInvariant queue history) (jobEnd : JobEnd) :
    Avoids .uniqueQueuedJob
      (fun r => QueueInvariant r.2
          (history ++ if r.1 then [.finished jobId token jobEnd.status] else [])
        ∧ TouchesHeld queue jobId token r.2)
      (finishMonitoringJob jobId token jobEnd queue) := by
  refine .bind (validateClaim_avoids ..) fun _ _ => ?_
  refine .bind (validateError_avoids ..) fun _ _ => ?_
  set ended : MonitoringJob → MonitoringJob := fun job =>
    { job.released jobEnd.status .finalizing with
      lastErrorCode := jobEnd.errorCode
      lastErrorMessage := jobEnd.errorMessage } with hended
  have hchange : ∀ job ∈ queue.jobs, job.heldBy jobId token = true →
      Change [.finished jobId token jobEnd.status] job (ended job) := by
    intro job _ hs
    obtain ⟨rfl, hp, -⟩ := heldBy_eq_true.1 hs
    exact .finished hp jobEnd token
  refine .bind (update_avoids h fun job hjob hs =>
    ⟨(hchange job hjob hs).place, (hchange job hjob hs).active⟩) ?_
  rintro _ rfl
  refine .pure ⟨?_, ended, rfl⟩
  rcases countP_eq_one_or_none h fun job hs => (heldBy_eq_true.1 hs).1 with
    ⟨⟨job, hjob, hs⟩, hone⟩ | hnone
  · have hsince := h.claimedSince hjob hs
    have hupdated := h.updated hchange (fun _ _ _ entry hentry => ?_)
      (fun _ hl => nomatch hl) (h.ends.concat hsince) queue.events
    · simpa [MonitoringQueue.updated, QueueEvent.link?, hone] using hupdated
    · obtain rfl := List.mem_singleton.1 hentry
      rfl
  · simpa [hnone, updated_none hnone] using h

/-! ## Recovery -/

theorem recoverProcessingJobsForWorkspace_avoids (h : QueueInvariant queue history)
    (workspaceId : WorkspaceId) (retryAfter : Int) (code : String) :
    Avoids .uniqueQueuedJob (fun r => QueueInvariant r.2 history)
      (recoverProcessingJobsForWorkspace workspaceId retryAfter code queue) := by
  refine .bind (.require (by decide)) fun _ _ => update_quiet h fun job _ hs => ?_
  have hp : job.status = .processing := by
    simpa using (Bool.and_eq_true_iff.1 hs).2
  exact .released hp rfl rfl (attempted_status job (.inl rfl)) (.inr rfl) rfl rfl

theorem normalizeInterruptedMonitoringJobs_avoids (h : QueueInvariant queue history)
    (workspaceId : WorkspaceId) :
    Avoids .uniqueQueuedJob (fun r => QueueInvariant r.2 history)
      (normalizeInterruptedMonitoringJobs workspaceId queue) := by
  refine .bind (update_quiet h fun job _ hs => ?_) ?_
  · have hp : job.status = .processing := by
      simpa using (Bool.and_eq_true_iff.1 (Bool.and_eq_true_iff.1 hs).1).2
    exact .released hp rfl rfl (.inr (.inr rfl)) (.inr rfl) rfl rfl
  · rintro ⟨_, after⟩ hafter
    refine update_quiet hafter fun job _ hs => ?_
    have hp : job.status = .processing := by
      simpa using (Bool.and_eq_true_iff.1 hs).2
    exact .released hp rfl rfl (attempted_status job (.inr rfl)) (.inr rfl) rfl rfl

/-! ## Runs -/

theorem unlogged_avoids {α : Type} {e : QueueError} {P : MonitoringQueue → Prop}
    {x : Except QueueError (α × MonitoringQueue)} (hx : Avoids e (fun r => P r.2) x) :
    Avoids e (fun r => r.1 = [] ∧ P r.2) (unlogged x) := by
  cases x with
  | error e' => exact .error fun he => hx.1 (congrArg _ he)
  | ok r => exact .pure ⟨rfl, hx.2 r rfl⟩

/-- The spec of a call: the invariant with what it logs, and no other job than that of its claim. -/
def CallSpec (call : QueueCall) (queue : MonitoringQueue) (history : List QueueEvent)
    (r : List QueueEvent × MonitoringQueue) : Prop :=
  QueueInvariant r.2 (history ++ r.1)
    ∧ ∀ jobId token, call.presents = some (jobId, token) → TouchesHeld queue jobId token r.2

theorem CallSpec.works {call : QueueCall} (hcall : call.presents = some (jobId, token))
    {α : Type} {x : Except QueueError (α × MonitoringQueue)}
    (hx : WorksUnder history queue jobId token x) :
    Avoids .uniqueQueuedJob (CallSpec call queue history) (unlogged x) := by
  refine (unlogged_avoids (P := fun after =>
    QueueInvariant after history ∧ TouchesHeld queue jobId token after) hx).mono ?_
  rintro ⟨_, after⟩ ⟨rfl, hkept, htouches⟩
  refine ⟨by simpa using hkept, fun id t hpresents => ?_⟩
  obtain ⟨rfl, rfl⟩ := Prod.mk.inj (Option.some.inj (hcall.symm.trans hpresents))
  exact htouches

theorem CallSpec.quiet {call : QueueCall} (hcall : call.presents = none)
    {α : Type} {x : Except QueueError (α × MonitoringQueue)}
    (hx : Avoids .uniqueQueuedJob (fun r => QueueInvariant r.2 history) x) :
    Avoids .uniqueQueuedJob (CallSpec call queue history) (unlogged x) := by
  refine (unlogged_avoids (P := fun after => QueueInvariant after history) hx).mono ?_
  rintro ⟨_, after⟩ ⟨rfl, hkept⟩
  exact ⟨by simpa using hkept, fun _ _ hpresents => nomatch hcall.symm.trans hpresents⟩

/-- Every operation meets its spec. -/
theorem QueueCall.run_avoids (call : QueueCall) (h : QueueInvariant queue history) :
    Avoids .uniqueQueuedJob (CallSpec call queue history) (call.run queue) := by
  cases call with
  | append context inputs =>
      refine .bind (appendWatchEventsAndCoalesce_avoids context inputs h) ?_
      rintro ⟨links, after⟩ hafter
      exact .pure ⟨hafter, fun _ _ hpresents => nomatch hpresents⟩
  | claim jobIds now tokens =>
      have hclaim : Avoids .uniqueQueuedJob
          (fun r => QueueInvariant r.2 (history ++ r.1.map claimOf))
          (claimMonitoringJobs jobIds now tokens queue) := by
        refine .bind (.require (by decide)) fun _ _ => ?_
        refine .bind (.forM fun id _ => validateLocalIdentifier_avoids ..) fun _ _ => ?_
        exact claimMonitoringJobIds_avoids now _ h
      refine .bind hclaim ?_
      rintro ⟨jobs, after⟩ hafter
      exact .pure ⟨hafter, fun _ _ hpresents => nomatch hpresents⟩
  | claimDue now limit tokens =>
      refine .bind (claimMonitoringJobIds_avoids now _ h) ?_
      rintro ⟨jobs, after⟩ hafter
      exact .pure ⟨hafter, fun _ _ hpresents => nomatch hpresents⟩
  | sample jobId token observed =>
      exact CallSpec.works rfl (updateMonitoringJobStabilitySample_works h observed)
  | reschedule jobId token retryAfter code message =>
      exact CallSpec.works rfl (rescheduleMonitoringJob_works h retryAfter code message)
  | requeue jobId token retryAfter =>
      exact CallSpec.works rfl (requeueMonitoringJobAfterCancellation_works h retryAfter)
  | stage jobId token next now =>
      exact CallSpec.works rfl (updateMonitoringJobStage_works h next now)
  | finish jobId token jobEnd =>
      refine .bind (finishMonitoringJob_avoids h jobEnd) ?_
      rintro ⟨done, after⟩ ⟨hkept, htouches⟩
      refine .pure ⟨hkept, fun id t hpresents => ?_⟩
      obtain ⟨rfl, rfl⟩ := Prod.mk.inj (Option.some.inj hpresents)
      exact htouches
  | linkScan jobId token scanId scanRoot =>
      exact CallSpec.works rfl (linkMonitoringJobToReconciliationScan_works h scanId scanRoot)
  | recover workspaceId retryAfter code =>
      exact CallSpec.quiet rfl (recoverProcessingJobsForWorkspace_avoids h workspaceId retryAfter code)
  | normalize workspaceId =>
      exact CallSpec.quiet rfl (normalizeInterruptedMonitoringJobs_avoids h workspaceId)

theorem QueueCall.step_invariant (call : QueueCall) (run : QueueRun)
    (h : QueueInvariant run.queue run.history) :
    QueueInvariant (call.step run).queue (call.step run).history := by
  unfold QueueCall.step
  cases hrun : call.run run.queue with
  | ok r => exact ((call.run_avoids h).2 r hrun).1
  | error e => exact h

/-- Every run of the queue keeps the invariant. -/
theorem queueInvariant_after (calls : List QueueCall) :
    QueueInvariant (Run.after QueueCall.step {} calls).queue
      (Run.after QueueCall.step {} calls).history :=
  Run.invariant (I := fun run => QueueInvariant run.queue run.history)
    (fun call run h => call.step_invariant run h) calls .start

/-- What the queue promises of a run. -/
structure QueueLaws (run : QueueRun) : Prop where
  /-- A job is ended under a claim that was taken after all its events, and is the latest. -/
  ends : History.Each EndsClaimed run.history
  /-- A job that is done was ended by a worker. -/
  done : ∀ job ∈ run.queue.jobs, job.status.isDone = true →
    ∃ token, .finished job.id token job.status ∈ run.history
  /-- The stored links are the ones of the history. -/
  links : run.queue.links = run.history.filterMap (·.link?)
  /-- At each place at most one job waits. -/
  unique : UniqueQueued run.queue.jobs
  /-- No operation fails because of that. -/
  accepted : ∀ call : QueueCall, call.run run.queue ≠ .error .uniqueQueuedJob
  /-- Work under a claim changes no row but that of its job, and only under the latest claim. -/
  latest : ∀ (call : QueueCall) (jobId token : String), call.presents = some (jobId, token) →
    ∀ log after, call.run run.queue = .ok (log, after) →
    ∀ job ∈ run.queue.jobs, job ∉ after.jobs →
      job.id = jobId ∧ job.status = .processing ∧ latestClaim run.history jobId = some token
  attempts : ∀ job ∈ run.queue.jobs, job.attemptCount ≤ job.maximumAttempts
  counts : ∀ job ∈ run.queue.jobs,
    job.eventCount = run.queue.links.countP (·.monitoringJobId = job.id)

/-- **No event is lost.** Whatever the order of appends, claims, work, ends and recoveries. -/
theorem queue_laws (calls : List QueueCall) : QueueLaws (Run.after QueueCall.step {} calls) := by
  have h := queueInvariant_after calls
  refine
    { ends := h.ends
      done := h.done
      links := h.links
      unique := h.places.imp fun hab ha hb => hab (MonitoringJobStatus.isActive_of_isQueued ha)
        (MonitoringJobStatus.isActive_of_isQueued hb)
      accepted := fun call => (call.run_avoids h).1
      latest := ?_
      attempts := h.attempts
      counts := h.counts }
  intro call jobId token hpresents log after hrun job hjob hchanged
  obtain ⟨set, hjobs⟩ := ((call.run_avoids h).2 _ hrun).2 jobId token hpresents
  have hheld : job.heldBy jobId token = true := by
    by_contra hnot
    refine hchanged ?_
    rw [hjobs]
    exact List.mem_map.2 ⟨job, hjob, if_neg hnot⟩
  obtain ⟨hid, hstatus, -⟩ := heldBy_eq_true.1 hheld
  exact ⟨hid, hstatus, (h.claimedSince hjob hheld).latest⟩

end Zemo.Monitoring
