import ResearchAgent.Service.Custody

namespace ResearchAgent.Service

open Library JobQueue

namespace Slots

open Finished (read_of stored_by finishes current since_read closed closed_other closed_read
  closed_own)

variable {ι : Type} [DecidableEq ι] {cfg : Config} (activity : ι → Activity)

-- One step of a careful run, with all that its threads' programs say about it.
structure Lawful (settings : Settings) (world : ServiceWorld ι (job_queue cfg))
    (event : ServiceEvent ι) (state : Platform (job_queue cfg)) : Prop where
  step : service_step settings event.thread world.state event.op event.reply state
  permits : Finished.Permits activity event.thread world.trace event.op
  admits : Admits activity event.thread world.trace event.op
  prudent : Prudent activity world.trace event
  inv : Finished.Inv activity world

-- The job the event has put into the queue, with its tenant.
def enqueued : ServiceEvent ι → Option (String × String)
  | ⟨_, .queue (.enqueue job_id _ _ tenant_id), .ok (.bool true)⟩ => some (job_id, tenant_id)
  | _ => none

-- The event is a submission handing its slot to the job.
def Accepts (job_id tenant_id : String) (event : ServiceEvent ι) : Prop :=
  enqueued event = some (job_id, tenant_id)

instance (job_id tenant_id : String) (event : ServiceEvent ι) :
    Decidable (Accepts job_id tenant_id event) :=
  inferInstanceAs (Decidable (_ = _))

def Accepted (trace : List (ServiceEvent ι)) (job_id tenant_id : String) : Prop :=
  ∃ event ∈ trace, Accepts job_id tenant_id event

instance (trace : List (ServiceEvent ι)) (job_id tenant_id : String) :
    Decidable (Accepted trace job_id tenant_id) :=
  inferInstanceAs (Decidable (∃ _ ∈ _, _))

variable {activity} {settings : Settings} {world : ServiceWorld ι (job_queue cfg)}
  {event : ServiceEvent ι} {state : Platform (job_queue cfg)} {trace : List (ServiceEvent ι)}
  {job_id tenant_id : String}

section Acceptance

omit [DecidableEq ι]

theorem accepts_iff : Accepts job_id tenant_id event ↔ ∃ thread request principal_id,
    event =
      ⟨thread, .queue (.enqueue job_id request principal_id tenant_id), .ok (.bool true)⟩ := by
  constructor
  · intro h
    obtain ⟨thread, op, reply⟩ := event
    unfold Accepts enqueued at h
    split at h
    · next heq =>
        cases h
        exact ⟨_, _, _, heq⟩
    · cases h
  · rintro ⟨thread, request, principal_id, rfl⟩
    rfl

theorem refuses_iff : Refuses event ↔ ∃ thread job_id request principal_id tenant_id,
    event =
      ⟨thread, .queue (.enqueue job_id request principal_id tenant_id), .ok (.bool false)⟩ := by
  constructor
  · intro h
    obtain ⟨thread, op, reply⟩ := event
    unfold Refuses at h
    split at h
    · next heq => exact ⟨_, _, _, _, _, heq⟩
    · exact h.elim
  · rintro ⟨thread, id, request, principal_id, tenant, rfl⟩
    trivial

theorem accepted_cons : Accepted (event :: trace) job_id tenant_id ↔
    Accepts job_id tenant_id event ∨ Accepted trace job_id tenant_id := by
  simp [Accepted]

theorem handed_cons {envelope : JobEnvelope} : Handed (event :: trace) envelope ↔
    envelope ∈ handed event ∨ Handed trace envelope := by
  simp [Handed]

theorem next_created {phase : Phase} (h : phase.next event = .created job_id) :
    (∃ thread job, event = ⟨thread, .jobs_set_if_absent job_id job, .ok true⟩) ∨
      phase = .created job_id := by
  unfold Phase.next at h
  split at h
  · cases h
  · cases h
    exact .inl ⟨_, _, rfl⟩
  · cases h
  · cases h
  · exact .inr h

theorem created_step {thread : ι} {job : JobStatus}
    (hstep :
      service_step settings thread world.state (.jobs_set_if_absent job_id job) (.ok true) state) :
    world.state.jobs.get? job_id = none ∧ state.jobs.get? job_id ≠ none := by
  rcases service_step_cases hstep with ⟨error, he, -⟩ | ⟨outcome, ho⟩
  · cases he
  · simp only [Platform.effect, Platform.set_if_absent] at ho
    split at ho
    · cases ho
    · next habsent =>
        cases ho
        exact ⟨by simpa [Dict.contains] using habsent, by simp⟩

end Acceptance

section Supply

-- Every job the queue has ever handed out was accepted, and has a record.
structure Supplied (world : ServiceWorld ι (job_queue cfg)) : Prop where
  queue : Backend.Traced (Accepted world.trace) world.state.queue
  genuine : ∀ envelope, Handed world.trace envelope →
    Accepted world.trace envelope.job_id envelope.tenant_id
  refused : ∀ event ∈ world.trace, ¬Refuses event
  recorded : ∀ job_id tenant_id, Accepted world.trace job_id tenant_id →
    world.state.jobs.get? job_id ≠ none
  created : ∀ thread job_id, phase thread world.trace = .created job_id →
    world.state.jobs.get? job_id ≠ none ∧ ∀ tenant_id, ¬Accepted world.trace job_id tenant_id
  creator : ∀ thread other job_id, phase thread world.trace = .created job_id →
    phase other world.trace = .created job_id → thread = other

-- No record is taken back.
theorem Supplied.record_stays (h : Supplied world) (hl : Lawful activity settings world event state)
    (hget : world.state.jobs.get? job_id ≠ none) : state.jobs.get? job_id ≠ none := by
  obtain ⟨thread, op, reply⟩ := event
  have hj := jobs_step hl.step
  have hadmits := hl.admits
  generalize state.jobs = jobs at hj ⊢
  cases hj with
  | keep => exact hget
  | set | create =>
      simp only [Dict.get?_set]
      split
      · exact Option.some_ne_none _
      · exact hget
  | delete =>
      obtain ⟨refused, hmem, hrefuses⟩ := hadmits
      exact absurd hrefuses (h.refused refused hmem)

-- A job is enqueued by the submission that has created its record.
theorem Supplied.fresh {thread : ι} {call : QueueCall} (h : Supplied world)
    (hadmits : Admits activity thread world.trace (.queue call)) (moment : Moment) :
    world.state.queue.Fresh moment call := by
  cases call with
  | enqueue job_id request principal_id tenant_id =>
      exact Backend.Traced.fresh h.queue (h.created thread job_id hadmits.2).2
  | _ => trivial

theorem Supplied.called {thread : ι} {call : QueueCall} {moment : Moment}
    {reply : ServiceOp.Reply (.queue call)} (h : Supplied world)
    (hadmits : Admits activity thread world.trace (.queue call))
    (hreply : reply = (Backend.call cfg moment world.state.queue call).1.mapError .QueueError) :
    Backend.Traced (Accepted (⟨thread, .queue call, reply⟩ :: world.trace))
        (Backend.call cfg moment world.state.queue call).2 ∧
      ∀ envelope ∈ handed (⟨thread, .queue call, reply⟩ : ServiceEvent ι),
        Accepted (⟨thread, .queue call, reply⟩ :: world.trace)
          envelope.job_id envelope.tenant_id := by
  obtain ⟨htraced, hhanded⟩ := @Backend.Traced.called cfg _
    (Accepted (⟨thread, .queue call, reply⟩ :: world.trace)) _ moment call h.queue
    (fun _ _ haccepted => accepted_cons.mpr (.inr haccepted)) (h.fresh hadmits moment)
    (fun job_id request principal_id tenant_id hcall hresult => by
      subst hcall
      rw [hresult] at hreply
      exact accepted_cons.mpr
        (.inl (accepts_iff.mpr ⟨thread, request, principal_id, by rw [hreply]; rfl⟩)))
    (fun envelope error hcall => by
      subst hcall
      exact accepted_cons.mpr (.inr (h.genuine envelope hadmits)))
  refine ⟨htraced, fun envelope hmem => ?_⟩
  cases hresult : (Backend.call cfg moment world.state.queue call).1 with
  | error error =>
      rw [hresult] at hreply
      rw [show reply = .error (.QueueError error) from hreply] at hmem
      cases hmem
  | ok value =>
      rw [hresult] at hreply
      refine hhanded value hresult envelope ?_
      rwa [show reply = .ok value from hreply] at hmem

theorem Supplied.queue_step (h : Supplied world) (hl : Lawful activity settings world event state) :
    Backend.Traced (Accepted (event :: world.trace)) state.queue ∧
      ∀ envelope ∈ handed event,
        Accepted (event :: world.trace) envelope.job_id envelope.tenant_id := by
  have hkeep : Backend.Traced (Accepted (event :: world.trace)) world.state.queue :=
    Backend.Traced.mono h.queue fun _ _ haccepted => accepted_cons.mpr (.inr haccepted)
  obtain ⟨thread, op, reply⟩ := event
  by_cases hop : ∃ call, op = .queue call
  · obtain ⟨call, rfl⟩ := hop
    rcases Service.queue_step hl.step with ⟨error, hreply, hstate⟩ | ⟨moment, hreply, hstate⟩
    · rw [hstate]
      refine ⟨hkeep, fun envelope hmem => ?_⟩
      rw [show reply = .error error from hreply] at hmem
      cases hmem
    · rw [hstate]
      exact h.called hl.admits hreply
  · rw [queue_kept hl.step fun call hcall => hop ⟨call, hcall⟩]
    refine ⟨hkeep, fun envelope hmem => ?_⟩
    cases op with
    | queue call => exact absurd ⟨call, rfl⟩ hop
    | _ => cases hmem

-- An enqueue by the submission that has created the record is not refused.
theorem Supplied.not_refused (h : Supplied world)
    (hl : Lawful activity settings world event state) : ¬Refuses event := by
  intro hrefuses
  obtain ⟨thread, job_id, request, principal_id, tenant_id, rfl⟩ := refuses_iff.mp hrefuses
  rcases Service.queue_step hl.step with ⟨error, hreply, -⟩ | ⟨moment, hreply, -⟩
  · cases hreply
  · refine Backend.Traced.not_refused h.queue (h.created thread job_id hl.admits.2).2
      (?_ : (Backend.call cfg moment world.state.queue
        (.enqueue job_id request principal_id tenant_id)).1 = .ok (.bool false))
    change _ = Except.mapError _ (Backend.call cfg moment world.state.queue _).1 at hreply
    cases hresult : (Backend.call cfg moment world.state.queue
        (.enqueue job_id request principal_id tenant_id)).1 with
    | error error => rw [hresult] at hreply; cases hreply
    | ok value => rw [hresult] at hreply; cases hreply; rfl

-- A submission has just created the record, or had done so before and is not the
-- one that is enqueuing now.
theorem created_cases {thread : ι} (h : phase thread (event :: trace) = .created job_id) :
    (∃ job, event = ⟨thread, .jobs_set_if_absent job_id job, .ok true⟩) ∨
      phase thread trace = .created job_id ∧
        (event.thread = thread → ∀ tenant_id, ¬Accepts job_id tenant_id event) := by
  by_cases ht : event.thread = thread
  · rw [phase_own ht] at h
    rcases next_created h with ⟨other, job, rfl⟩ | hphase
    · obtain rfl : other = thread := ht
      exact .inl ⟨job, rfl⟩
    · refine .inr ⟨hphase, fun _ tenant_id haccepts => ?_⟩
      obtain ⟨_, _, _, rfl⟩ := accepts_iff.mp haccepts
      cases h
  · rw [phase_other ht] at h
    exact .inr ⟨h, fun ho => absurd ho ht⟩

theorem Supplied.step (h : Supplied world) (hl : Lawful activity settings world event state) :
    Supplied (world.after event state) := by
  obtain ⟨hqueue, hhanded⟩ := h.queue_step hl
  refine ⟨hqueue, fun envelope he => ?_, fun other hmem => ?_, fun job_id tenant_id ha => ?_,
    fun thread job_id hcreated => ?_, fun thread other job_id hcreated hother => ?_⟩
  · rcases handed_cons.mp he with he | he
    · exact hhanded envelope he
    · exact accepted_cons.mpr (.inr (h.genuine envelope he))
  · rcases List.mem_cons.mp hmem with rfl | hmem
    · exact h.not_refused hl
    · exact h.refused other hmem
  · rcases accepted_cons.mp ha with haccepts | ha
    · obtain ⟨thread, request, principal_id, rfl⟩ := accepts_iff.mp haccepts
      exact h.record_stays hl (h.created thread job_id hl.admits.2).1
    · exact h.record_stays hl (h.recorded job_id tenant_id ha)
  · rcases created_cases hcreated with ⟨job, rfl⟩ | ⟨hbefore, hnot⟩
    · obtain ⟨habsent, hpresent⟩ := created_step hl.step
      refine ⟨hpresent, fun tenant_id ha => ?_⟩
      rcases accepted_cons.mp ha with haccepts | ha
      · cases haccepts
      · exact h.recorded job_id tenant_id ha habsent
    · refine ⟨h.record_stays hl (h.created thread job_id hbefore).1, fun tenant_id ha => ?_⟩
      rcases accepted_cons.mp ha with haccepts | ha
      · obtain ⟨other, request, principal_id, rfl⟩ := accepts_iff.mp haccepts
        exact hnot (h.creator other thread job_id hl.admits.2 hbefore) tenant_id haccepts
      · exact (h.created thread job_id hbefore).2 tenant_id ha
  · rcases created_cases hcreated with ⟨job, rfl⟩ | ⟨hbefore, -⟩ <;>
      rcases created_cases hother with ⟨job', heq⟩ | ⟨hbefore', -⟩
    · cases heq
      rfl
    · exact absurd (created_step hl.step).1 (h.created other job_id hbefore').1
    · subst heq
      exact absurd (created_step hl.step).1 (h.created thread job_id hbefore).1
    · exact h.creator thread other job_id hbefore hbefore'

theorem supplied_start {start : Backend}
    (hstart : start = .memory .empty ∨ ∃ now, start = .redis (.empty now)) :
    Supplied (⟨.empty start, []⟩ : ServiceWorld ι (job_queue cfg)) := by
  refine ⟨⟨.empty, ?_, Origins.traced_empty⟩, fun _ he => ?_, fun _ h => (by cases h),
    fun _ _ ha => ?_, fun _ _ h => (by cases h), fun _ _ _ h => by cases h⟩
  · rcases hstart with rfl | ⟨now, rfl⟩
    · exact MemoryQueue.refines_empty
    · exact Redis.refines_empty now
  · obtain ⟨_, hmem, -⟩ := he
    cases hmem
  · obtain ⟨_, hmem, -⟩ := ha
    cases hmem

end Supply

section Releases

-- How often workers have given back the job's slot.
def releases (activity : ι → Activity) (job_id : String) (trace : List (ServiceEvent ι)) : ℕ :=
  trace.countP fun event => (activity event.thread).works && gives_back job_id event

def Final (world : ServiceWorld ι (job_queue cfg)) (job_id : String) : Prop :=
  ∃ job, world.state.jobs.get? job_id = some job ∧ job.status.final = true

section Events

omit [DecidableEq ι]

theorem final_stored {job : JobStatus} {thread : ι}
    (hstep : service_step settings thread world.state (.jobs_set job_id job) (.ok ()) state)
    (hfinal : job.status.final = true) :
    Final (world.after (⟨thread, .jobs_set job_id job, .ok ()⟩ : ServiceEvent ι) state) job_id := by
  rcases service_step_cases hstep with ⟨error, he, -⟩ | ⟨outcome, ho⟩
  · cases he
  · cases ho
    exact ⟨job, by simp, hfinal⟩

theorem event_of_finishes (h : finishes job_id event = true) : ∃ job,
    event = ⟨event.thread, .jobs_set job_id job, .ok ()⟩ ∧ job.status.final = true := by
  obtain ⟨job, hstored, hfinal⟩ := (Option.any_eq_true _ _).mp h
  exact ⟨job, Finished.event_of_stored hstored, hfinal⟩

theorem event_of_gives_back (h : gives_back job_id event = true) : ∃ tenant_id,
    event = ⟨event.thread, .release_job_slot tenant_id job_id, .ok ()⟩ := by
  obtain ⟨thread, op, reply⟩ := event
  cases op with
  | release_job_slot tenant_id id =>
      cases reply with
      | error => cases h
      | ok =>
          obtain rfl : id = job_id := by simpa [gives_back] using h
          exact ⟨tenant_id, rfl⟩
  | _ => cases h

theorem releases_cons : releases activity job_id (event :: trace) =
    releases activity job_id trace +
      if (activity event.thread).works && gives_back job_id event then 1 else 0 :=
  List.countP_cons

end Events

variable (activity) in
structure Single (world : ServiceWorld ι (job_queue cfg)) : Prop where
  closed_final : ∀ thread job_id, (activity thread).works = true →
    closed thread job_id world.trace = true → Final world job_id
  one_closed : ∀ thread other job_id, (activity thread).works = true →
    (activity other).works = true → closed thread job_id world.trace = true →
    closed other job_id world.trace = true → thread = other
  given_back : ∀ job_id, releases activity job_id world.trace ≠ 0 → Final world job_id
  unreturned : ∀ thread job_id, (activity thread).works = true →
    closed thread job_id world.trace = true → spent thread job_id world.trace = false →
    releases activity job_id world.trace = 0
  once : ∀ job_id, releases activity job_id world.trace ≤ 1

-- A worker stores a record only while it is not final.
theorem Lawful.not_final {thread : ι} {job : JobStatus}
    (hl : Lawful activity settings world ⟨thread, .jobs_set job_id job, .ok ()⟩ state)
    (hworks : (activity thread).works = true) : ¬Final world job_id := by
  rintro ⟨old, hget, hfinal⟩
  have hclosed := hl.inv.current thread job_id old (hl.prudent hworks) hget hfinal hworks
  rcases hl.permits.2 with ⟨hreviews, -⟩ | ⟨-, hopen⟩
  · rw [Activity.reviews_of_works hworks] at hreviews
    cases hreviews
  · rw [hopen] at hclosed
    cases hclosed

theorem Lawful.final_stays (hl : Lawful activity settings world event state)
    (hs : Supplied world) (h : Final world job_id) : Final (world.after event state) job_id := by
  obtain ⟨job, hget, hfinal⟩ := h
  have hpresent : world.state.jobs.get? job_id ≠ none := by
    rw [hget]
    exact Option.some_ne_none _
  obtain ⟨job', hget'⟩ := Option.ne_none_iff_exists'.mp (hs.record_stays hl hpresent)
  refine ⟨job', hget', ?_⟩
  rcases Finished.record_step hl.step hget' with hstored | ⟨-, habsent⟩ | ⟨-, hold⟩
  · have hevent : event = _ := Finished.event_of_stored hstored
    rw [hevent] at hl
    rcases hl.permits.2 with ⟨-, hnew⟩ | ⟨hworks, -⟩
    · exact hnew
    · exact absurd ⟨job, hget, hfinal⟩ (hl.not_final hworks)
  · exact absurd habsent hpresent
  · rw [hget] at hold
    cases hold
    exact hfinal

-- A thread that has stored a final record has just done so, or had done before.
theorem closed_cases {thread : ι} (h : closed thread job_id (event :: trace) = true) :
    (∃ job, event = ⟨thread, .jobs_set job_id job, .ok ()⟩ ∧ job.status.final = true) ∨
      closed thread job_id trace = true := by
  by_cases ht : event.thread = thread
  · cases hread : read_of job_id event with
    | some job =>
        rw [closed_read ht hread] at h
        cases h
    | none =>
        rw [closed_own ht hread, Bool.or_eq_true] at h
        rcases h with h | h
        · obtain ⟨job, hevent, hfinal⟩ := event_of_finishes h
          exact .inl ⟨job, ht ▸ hevent, hfinal⟩
        · exact .inr h
  · rw [closed_other ht] at h
    exact .inr h

-- Likewise for one that has not given back the slot.
theorem unspent_cases {thread : ι} (h : spent thread job_id (event :: trace) = false) :
    (event.thread = thread ∧ ∃ job, read_of job_id event = some job) ∨
      spent thread job_id trace = false ∧
        (event.thread = thread → gives_back job_id event = false) := by
  by_cases ht : event.thread = thread
  · cases hread : read_of job_id event with
    | some job => exact .inl ⟨ht, job, rfl⟩
    | none =>
        rw [spent_own ht hread, Bool.or_eq_false_iff] at h
        exact .inr ⟨h.2, fun _ => h.1⟩
  · rw [spent_other ht] at h
    exact .inr ⟨h, fun heq => absurd heq ht⟩

-- A worker that gives back a slot has stored the final record, and no worker has given back the
-- slot before.
theorem Single.first_release {thread : ι} (h : Single activity world)
    (hl : Lawful activity settings world ⟨thread, .release_job_slot tenant_id job_id, .ok ()⟩ state)
    (hworks : (activity thread).works = true) :
    closed thread job_id world.trace = true ∧ releases activity job_id world.trace = 0 := by
  have hclosed : closed thread job_id world.trace = true := hl.prudent hworks
  have hunspent : spent thread job_id world.trace = false := by
    rcases hl.admits with ⟨hsubmitter, -⟩ | ⟨-, hunspent, -⟩
    · rw [Activity.works_of_submitter hsubmitter] at hworks
      cases hworks
    · exact hunspent
  exact ⟨hclosed, h.unreturned thread job_id hworks hclosed hunspent⟩

-- A step gives back the slot for the first time, or leaves the count.
theorem Single.releases_step (h : Single activity world)
    (hl : Lawful activity settings world event state) (job_id : String) :
    releases activity job_id (event :: world.trace) = releases activity job_id world.trace ∧
        ((activity event.thread).works = true → gives_back job_id event = false) ∨
      ∃ thread tenant_id, event = ⟨thread, .release_job_slot tenant_id job_id, .ok ()⟩ ∧
        (activity thread).works = true ∧ releases activity job_id world.trace = 0 ∧
        releases activity job_id (event :: world.trace) = 1 := by
  rw [releases_cons]
  by_cases hback : ((activity event.thread).works && gives_back job_id event) = true
  · obtain ⟨hworks, hgives⟩ := Bool.and_eq_true_iff.mp hback
    obtain ⟨tenant_id, hevent⟩ := event_of_gives_back hgives
    rw [hevent] at hl
    have hfirst := (h.first_release hl hworks).2
    exact .inr ⟨_, tenant_id, hevent, hworks, hfirst, by rw [hback, hfirst]; rfl⟩
  · refine .inl ⟨by simp [hback], fun hworks => ?_⟩
    simpa [hworks] using hback

theorem Single.step (h : Single activity world) (hs : Supplied world)
    (hl : Lawful activity settings world event state) :
    Single activity (world.after event state) := by
  refine ⟨fun thread job_id hworks hclosed => ?_,
    fun thread other job_id hworks hother hclosed hc => ?_,
    fun job_id hreleases => ?_, fun thread job_id hworks hclosed hunspent => ?_, fun job_id => ?_⟩
  · rcases closed_cases hclosed with ⟨job, rfl, hfinal⟩ | hclosed
    · exact final_stored hl.step hfinal
    · exact hl.final_stays hs (h.closed_final thread job_id hworks hclosed)
  · rcases closed_cases hclosed with ⟨job, rfl, -⟩ | hbefore <;>
      rcases closed_cases hc with ⟨job', heq, -⟩ | hbefore'
    · cases heq
      rfl
    · exact absurd (h.closed_final other job_id hother hbefore') (hl.not_final hworks)
    · subst heq
      exact absurd (h.closed_final thread job_id hworks hbefore) (hl.not_final hother)
    · exact h.one_closed thread other job_id hworks hother hbefore hbefore'
  · rcases h.releases_step hl job_id with ⟨hsame, -⟩ | ⟨thread, tenant_id, rfl, hworks, -, -⟩
    · exact hl.final_stays hs (h.given_back job_id (hsame ▸ hreleases))
    · exact hl.final_stays hs
        (h.closed_final thread job_id hworks (h.first_release hl hworks).1)
  · rcases h.releases_step hl job_id with ⟨hsame, -⟩ | ⟨other, tenant_id, rfl, hother, -, -⟩
    · rw [World.after_trace, hsame]
      rcases unspent_cases hunspent with ⟨ht, job, hread⟩ | ⟨hbefore, -⟩
      · rw [World.after_trace, closed_read ht hread] at hclosed
        cases hclosed
      · rcases closed_cases hclosed with ⟨job, rfl, hfinal⟩ | hclosed
        · exact not_not.mp (mt (h.given_back job_id) (hl.not_final hworks))
        · exact h.unreturned thread job_id hworks hclosed hbefore
    · rcases unspent_cases hunspent with ⟨-, job, hread⟩ | ⟨-, hnot⟩
      · cases hread
      · rcases closed_cases hclosed with ⟨job, heq, -⟩ | hclosed
        · cases heq
        · exfalso
          have hne : other ≠ thread := fun heq => by
            have := hnot heq
            simp [gives_back] at this
          exact hne (h.one_closed other thread job_id hother hworks
            (h.first_release hl hother).1 hclosed)
  · rcases h.releases_step hl job_id with ⟨hsame, -⟩ | ⟨_, _, -, -, -, hone⟩
    · exact hsame.trans_le (h.once job_id)
    · exact hone.le

end Releases

section Ledger

variable (activity) in
-- The threads are submissions with a slot of the tenant, and the jobs have theirs.
structure Holders (trace : List (ServiceEvent ι)) (tenant_id : String) (threads : List ι)
    (jobs : List String) : Prop where
  threads_nodup : threads.Nodup
  jobs_nodup : jobs.Nodup
  threads : ∀ thread ∈ threads, (activity thread).submitter = some tenant_id ∧
    (phase thread trace).holds = true
  jobs : ∀ job_id ∈ jobs, Accepted trace job_id tenant_id ∧ releases activity job_id trace = 0

variable {threads : List ι} {jobs : List String} {thread : ι}

theorem Holders.cons_thread (h : Holders activity trace tenant_id threads jobs)
    (hnot : thread ∉ threads) (hsubmitter : (activity thread).submitter = some tenant_id)
    (hholds : (phase thread trace).holds = true) :
    Holders activity trace tenant_id (thread :: threads) jobs :=
  ⟨h.threads_nodup.cons hnot, h.jobs_nodup,
    List.forall_mem_cons.mpr ⟨⟨hsubmitter, hholds⟩, h.threads⟩, h.jobs⟩

theorem Holders.cons_job (h : Holders activity trace tenant_id threads jobs)
    (hnot : job_id ∉ jobs) (haccepted : Accepted trace job_id tenant_id)
    (hreleases : releases activity job_id trace = 0) :
    Holders activity trace tenant_id threads (job_id :: jobs) :=
  ⟨h.threads_nodup, h.jobs_nodup.cons hnot, h.threads,
    List.forall_mem_cons.mpr ⟨⟨haccepted, hreleases⟩, h.jobs⟩⟩

theorem Holders.erase_thread (h : Holders activity trace tenant_id threads jobs) (thread : ι) :
    Holders activity trace tenant_id (threads.erase thread) jobs :=
  ⟨h.threads_nodup.erase thread, h.jobs_nodup,
    fun other hmem => h.threads other (List.mem_of_mem_erase hmem), h.jobs⟩

theorem Holders.erase_job (h : Holders activity trace tenant_id threads jobs) (job_id : String) :
    Holders activity trace tenant_id threads (jobs.erase job_id) :=
  ⟨h.threads_nodup, h.jobs_nodup.erase job_id, h.threads,
    fun other hmem => h.jobs other (List.mem_of_mem_erase hmem)⟩

-- A submission with a slot has just acquired it, or had it before.
theorem Lawful.holds_cases (hl : Lawful activity settings world event state)
    (h : (phase thread (event :: world.trace)).holds = true) :
    (∃ tenant_id, event = ⟨thread, .acquire_job_slot tenant_id, .ok true⟩) ∨
      (phase thread world.trace).holds = true := by
  by_cases ht : event.thread = thread
  · subst ht
    have hadmits := hl.admits
    rw [phase_own rfl] at h
    unfold Phase.next at h
    split at h
    · exact .inl ⟨_, rfl⟩
    · exact .inr (congrArg Phase.holds hadmits)
    · cases h
    · cases h
    · exact .inr h
  · rw [phase_other ht] at h
    exact .inr h

theorem Holders.before (h : Holders activity (event :: world.trace) tenant_id threads jobs)
    (hl : Lawful activity settings world event state)
    (hacquired : ∀ thread ∈ threads, ∀ tenant_id,
      event ≠ ⟨thread, .acquire_job_slot tenant_id, .ok true⟩)
    (haccepted : ∀ job_id ∈ jobs, ¬Accepts job_id tenant_id event) :
    Holders activity world.trace tenant_id threads jobs := by
  refine ⟨h.threads_nodup, h.jobs_nodup, fun thread hmem => ?_, fun job_id hmem => ?_⟩
  · obtain ⟨hsubmitter, hholds⟩ := h.threads thread hmem
    rcases hl.holds_cases hholds with ⟨tenant, hevent⟩ | hholds
    · exact absurd hevent (hacquired thread hmem tenant)
    · exact ⟨hsubmitter, hholds⟩
  · obtain ⟨ha, hreleases⟩ := h.jobs job_id hmem
    rw [releases_cons] at hreleases
    exact ⟨(accepted_cons.mp ha).resolve_left (haccepted job_id hmem), by omega⟩

variable (activity settings) in
-- The slots in use cover all that is under way, within the limit.
structure Balanced (world : ServiceWorld ι (job_queue cfg)) : Prop where
  covered : ∀ tenant_id threads jobs, Holders activity world.trace tenant_id threads jobs →
    threads.length + jobs.length ≤ world.state.slots tenant_id
  limited : ∀ tenant_id, world.state.slots tenant_id ≤ settings.max_concurrent_jobs_per_tenant

-- What an event does to the slots in use.
inductive SlotsStep (settings : Settings) (slots : String → ℕ) :
    ServiceEvent ι → (String → ℕ) → Prop
  | acquire {thread : ι} {tenant_id : String}
      (hfree : slots tenant_id < settings.max_concurrent_jobs_per_tenant) :
      SlotsStep settings slots ⟨thread, .acquire_job_slot tenant_id, .ok true⟩
        (Function.update slots tenant_id (slots tenant_id + 1))
  | give_back {thread : ι} {tenant_id job_id : String} :
      SlotsStep settings slots ⟨thread, .release_job_slot tenant_id job_id, .ok ()⟩
        (Function.update slots tenant_id (slots tenant_id - 1))
  | keep {event : ServiceEvent ι} (hacquire : ∀ thread tenant_id,
      event ≠ ⟨thread, .acquire_job_slot tenant_id, .ok true⟩) :
      SlotsStep settings slots event slots

omit [DecidableEq ι] in
theorem slots_step
    (hstep : service_step settings event.thread world.state event.op event.reply state) :
    SlotsStep settings world.state.slots event state.slots := by
  obtain ⟨thread, op, reply⟩ := event
  rcases service_step_cases hstep with ⟨error, hreply, hstate⟩ | ⟨outcome, ho⟩
  · rw [hstate]
    refine .keep fun other tenant_id heq => ?_
    cases heq
    cases hreply
  · cases op with
    | acquire_job_slot tenant_id =>
        simp only [Platform.effect, Platform.acquire_job_slot] at ho
        split at ho
        · cases ho
          exact .keep fun _ _ heq => by cases heq
        · next hfree =>
            cases ho
            exact .acquire (not_le.mp hfree)
    | release_job_slot tenant_id job_id =>
        cases ho
        simp only [Platform.release_job_slot, Platform.set_slots, Nat.zero_max]
        exact .give_back
    | jobs_set_if_absent job_id job =>
        simp only [Platform.effect, Platform.set_if_absent] at ho
        split at ho <;> (cases ho; exact .keep fun _ _ heq => by cases heq)
    | _ => cases ho; exact .keep fun _ _ heq => by cases heq

-- The submission that acquires a slot had none before.
theorem Balanced.acquire (h : Balanced activity settings world)
    (hl : Lawful activity settings world ⟨thread, .acquire_job_slot tenant_id, .ok true⟩ state)
    {other : String} (hold : Holders activity
      (⟨thread, .acquire_job_slot tenant_id, .ok true⟩ :: world.trace) other threads jobs) :
    threads.length + jobs.length ≤
      Function.update world.state.slots tenant_id (world.state.slots tenant_id + 1) other := by
  by_cases ho : other = tenant_id
  · subst ho
    have hbefore := (hold.erase_thread thread).before hl (fun one hmem _ heq => by
      cases heq
      exact (hold.threads_nodup.mem_erase_iff.mp hmem).1 rfl) fun _ _ haccepts => by cases haccepts
    have hcovered := h.covered other _ _ hbefore
    have hlength : threads.length - 1 ≤ (threads.erase thread).length := List.le_length_erase
    rw [Function.update_self]
    omega
  · rw [Function.update_of_ne ho]
    refine h.covered other threads jobs (hold.before hl (fun one hmem _ heq => ?_)
      fun _ _ haccepts => by cases haccepts)
    cases heq
    have hsubmitter := (hold.threads thread hmem).1
    rw [hl.admits.1] at hsubmitter
    exact ho (Option.some.inj hsubmitter).symm

-- The slot given back was that of the submission, or of a job that has not given it
-- back yet.
theorem Balanced.give_back (h : Balanced activity settings world) (hs : Supplied world)
    (hone : Single activity world)
    (hl : Lawful activity settings world ⟨thread, .release_job_slot tenant_id job_id, .ok ()⟩ state)
    {other : String} (hold : Holders activity
      (⟨thread, .release_job_slot tenant_id job_id, .ok ()⟩ :: world.trace) other threads jobs) :
    threads.length + jobs.length ≤
      Function.update world.state.slots tenant_id (world.state.slots tenant_id - 1) other := by
  have hbefore := hold.before hl (fun _ _ _ heq => by cases heq)
    fun _ _ haccepts => by cases haccepts
  by_cases ho : other = tenant_id
  · subst ho
    rw [Function.update_self]
    rcases hl.admits with ⟨hsubmitter, hholds⟩ | ⟨hworks, -, envelope, hhanded, rfl, rfl⟩
    · have hnot : thread ∉ threads := fun hmem => by
        have hreturned := (hold.threads thread hmem).2
        rw [phase_after rfl] at hreturned
        cases hreturned
      have hcovered := h.covered _ _ _ (hbefore.cons_thread hnot hsubmitter hholds)
      rw [List.length_cons] at hcovered
      omega
    · have hnot : envelope.job_id ∉ jobs := fun hmem => by
        have hreleases := (hold.jobs _ hmem).2
        rw [releases_cons] at hreleases
        simp [hworks, gives_back] at hreleases
      have hcovered := h.covered _ _ _ (hbefore.cons_job hnot (hs.genuine envelope hhanded)
        (hone.first_release hl hworks).2)
      rw [List.length_cons] at hcovered
      omega
  · rw [Function.update_of_ne ho]
    exact h.covered other threads jobs hbefore

-- The slot of the submission becomes that of the job it enqueues.
theorem Balanced.accept {request : JSONObject} {principal_id : String}
    (h : Balanced activity settings world)
    (hl : Lawful activity settings world
      ⟨thread, .queue (.enqueue job_id request principal_id tenant_id), .ok (.bool true)⟩ state)
    {other : String} (hold : Holders activity
      (⟨thread, .queue (.enqueue job_id request principal_id tenant_id), .ok (.bool true)⟩ ::
        world.trace) other threads jobs) :
    threads.length + jobs.length ≤ world.state.slots other := by
  by_cases ho : other = tenant_id
  · subst ho
    obtain ⟨hsubmitter, hphase⟩ := hl.admits
    have hnot : thread ∉ threads := fun hmem => by
      have hpassed := (hold.threads thread hmem).2
      rw [phase_after rfl] at hpassed
      cases hpassed
    have hbefore := (hold.erase_job job_id).before hl (fun _ _ _ heq => by cases heq)
      fun one hmem haccepts => by
        cases haccepts
        exact (hold.jobs_nodup.mem_erase_iff.mp hmem).1 rfl
    have hcovered := h.covered _ _ _ (hbefore.cons_thread hnot hsubmitter (by rw [hphase]; rfl))
    have hlength : jobs.length - 1 ≤ (jobs.erase job_id).length := List.le_length_erase
    rw [List.length_cons] at hcovered
    omega
  · exact h.covered other threads jobs (hold.before hl (fun _ _ _ heq => by cases heq)
      fun _ _ haccepts => by cases haccepts; exact ho rfl)

theorem Balanced.step (h : Balanced activity settings world) (hs : Supplied world)
    (hone : Single activity world) (hl : Lawful activity settings world event state) :
    Balanced activity settings (world.after event state) := by
  refine ⟨fun tenant_id threads jobs hold => ?_, fun tenant_id => ?_⟩
  · have hslots := slots_step hl.step
    rw [World.after_trace] at hold
    rw [World.after_state]
    generalize hafter : state.slots = slots at hslots
    cases hslots with
    | acquire => exact h.acquire hl hold
    | give_back => exact h.give_back hs hone hl hold
    | keep hacquire =>
        by_cases haccepts : ∃ job_id tenant_id, Accepts job_id tenant_id event
        · obtain ⟨job_id, tenant, haccepts⟩ := haccepts
          obtain ⟨thread, request, principal_id, rfl⟩ := accepts_iff.mp haccepts
          exact h.accept hl hold
        · exact h.covered tenant_id threads jobs (hold.before hl (fun _ _ _ => hacquire _ _)
            fun job_id _ ha => haccepts ⟨job_id, tenant_id, ha⟩)
  · have hslots := slots_step hl.step
    have hlimit := h.limited tenant_id
    rw [World.after_state]
    generalize state.slots = slots at hslots
    cases hslots with
    | acquire hfree =>
        simp only [Function.update_apply]
        split
        · next heq => exact heq ▸ hfree
        · exact hlimit
    | give_back =>
        simp only [Function.update_apply]
        split
        · next heq => subst heq; omega
        · exact hlimit
    | keep => exact hlimit

end Ledger

variable (activity settings) in
structure Accounted (world : ServiceWorld ι (job_queue cfg)) : Prop where
  supplied : Supplied world
  single : Single activity world
  balanced : Balanced activity settings world

theorem Accounted.step (h : Accounted activity settings world)
    (hl : Lawful activity settings world event state) :
    Accounted activity settings (world.after event state) :=
  ⟨h.supplied.step hl, h.single.step h.supplied hl, h.balanced.step h.supplied h.single hl⟩

section Runs

variable {start : Backend} {pool : ServicePool ι (job_queue cfg)}

theorem single_start : Single activity (⟨.empty start, []⟩ : ServiceWorld ι (job_queue cfg)) :=
  ⟨fun _ _ _ h => (by cases h), fun _ _ _ _ _ h => (by cases h), fun _ h => absurd rfl h,
    fun _ _ _ _ _ => rfl, fun _ => Nat.zero_le 1⟩

theorem balanced_start :
    Balanced activity settings (⟨.empty start, []⟩ : ServiceWorld ι (job_queue cfg)) := by
  refine ⟨fun tenant_id threads jobs hold => ?_, fun _ => Nat.zero_le _⟩
  have hthreads : threads = [] := List.eq_nil_iff_forall_not_mem.mpr fun thread hmem => by
    cases (hold.threads thread hmem).2
  have hjobs : jobs = [] := List.eq_nil_iff_forall_not_mem.mpr fun job_id hmem => by
    obtain ⟨event, hevent, -⟩ := (hold.jobs job_id hmem).1
    cases hevent
  rw [hthreads, hjobs]
  exact Nat.zero_le _

-- Every step of a careful run is lawful.
theorem accounted_of_run (hstart : start = .memory .empty ∨ ∃ now, start = .redis (.empty now))
    (hqueued : Queued activity)
    (hrun : Run (service_step settings) Still (Careful activity)
      (ServicePool.start settings (.empty start) activity) pool) :
    Accounted activity settings pool.world := by
  have hstored : ∀ job_id job, (.empty start : Platform (job_queue cfg)).jobs.get? job_id =
      some job → job.job_id = job_id := fun _ _ h => by cases h
  induction hrun with
  | start => exact ⟨supplied_start hstart, single_start, balanced_start⟩
  | @step a event b hrun hs hcareful ih =>
      have hinv := finished_of_run hstored (hrun.step hs hcareful)
      have hordered := ordered_of_run hqueued hstored (hrun.step hs hcareful)
      cases hs with
      | environment he => exact he.elim
      | call hthread hexec =>
          exact ih.step ⟨hexec, hinv.orderly.1, hordered.1, hcareful _ rfl,
            finished_of_run hstored hrun⟩

theorem Single.unfinished (h : Single activity world) (hjob : ¬Final world job_id) :
    releases activity job_id world.trace = 0 :=
  not_not.mp (mt (h.given_back job_id) hjob)

end Runs

end Slots

open Slots in
-- In a careful run every accepted job gives back its slot at most once, so the slots
-- a tenant has in use cover its unfinished jobs and keep within the limit.
theorem slots_conserved {ι : Type} [DecidableEq ι] {cfg : Config} {settings : Settings}
    {activity : ι → Activity} {start : Backend} {pool : ServicePool ι (job_queue cfg)}
    (hstart : start = .memory .empty ∨ ∃ now, start = .redis (.empty now))
    (hqueued : Queued activity)
    (hrun : Run (service_step settings) Still (Careful activity)
      (ServicePool.start settings (.empty start) activity) pool) :
    (∀ job_id, releases activity job_id pool.world.trace ≤ 1) ∧
    (∀ tenant_id (jobs : List String), jobs.Nodup →
      (∀ job_id ∈ jobs, Accepted pool.world.trace job_id tenant_id ∧
        ¬Final pool.world job_id) →
      jobs.length ≤ pool.world.state.slots tenant_id) ∧
    ∀ tenant_id, pool.world.state.slots tenant_id ≤ settings.max_concurrent_jobs_per_tenant := by
  obtain ⟨-, hone, hbalanced⟩ := accounted_of_run hstart hqueued hrun
  refine ⟨hone.once, fun tenant_id jobs hnodup hjobs => ?_, hbalanced.limited⟩
  have hcovered := hbalanced.covered tenant_id [] jobs ⟨List.nodup_nil, hnodup,
    fun _ h => (by cases h), fun job_id hmem =>
      ⟨(hjobs job_id hmem).1, hone.unfinished (hjobs job_id hmem).2⟩⟩
  simpa using hcovered

namespace Slots

-- Two submissions and two workers.
def overdrawn_activity : Fin 4 → Activity
  | 0 | 3 => small_submission
  | 1 | 2 => .run_once .inserted

-- The outcome of an operation of the other submission.
def Outcome.other : Outcome (job_queue .default) := { Outcome.at 1400 with uuid := "other" }

-- The submission of the second job.
def other_turns : List (Fin 4 × Outcome (job_queue .default)) :=
  List.replicate 9 (.clamp 3 3, Outcome.other)

-- The first worker stops before it acknowledges the job, the other has it again once
-- the lease is over, and meanwhile there is a second job.
def overdrawn_run : ServicePool (Fin 4) (job_queue .default) :=
  small_run overdrawn_activity (turns 0 1000 9 ++ turns 1 1000 11 ++ turns 2 1400 4 ++
    other_turns ++ turns 2 1400 6)

-- As above, but for the first worker, which acknowledges the job.
def balanced_moves : List (Fin 4 × Outcome (job_queue .default)) :=
  turns 0 1000 9 ++ turns 1 1000 13 ++ other_turns

def balanced_run : ServicePool (Fin 4) (job_queue .default) :=
  small_run overdrawn_activity balanced_moves

theorem overdrawn_queued : Queued overdrawn_activity := by
  intro thread envelope h
  match thread with
  | 0 | 1 | 2 | 3 => cases h

theorem not_final_of_pending {world : ServiceWorld (Fin 4) (job_queue .default)} {job_id : String}
    (h : (world.state.jobs.get? job_id).map JobStatus.status = some .pending) :
    ¬Final world job_id := by
  rintro ⟨job, hget, hfinal⟩
  rw [hget, Option.map_some, Option.some.injEq] at h
  rw [h] at hfinal
  cases hfinal

end Slots

open Slots in
theorem slots_conserved_acknowledged :
    releases overdrawn_activity "job" balanced_run.world.trace ≤ 1 ∧
      1 ≤ balanced_run.world.state.slots "tenant" ∧
        balanced_run.world.state.slots "tenant" ≤ 2 := by
  have hcareful : (ServicePool.start .small (.empty (Backend.memory .empty))
      overdrawn_activity).respects (service_perform .small) (Careful overdrawn_activity)
      balanced_moves := by decide +kernel
  obtain ⟨honce, hcovered, hlimited⟩ := slots_conserved (.inl rfl) overdrawn_queued
    (Run.start.schedule (fun outcome _ _ _ => ⟨outcome, rfl⟩) balanced_moves hcareful)
  refine ⟨honce "job", hcovered "tenant" ["other"] (by decide) ?_, hlimited "tenant"⟩
  rintro job_id hmem
  obtain rfl := List.mem_singleton.mp hmem
  exact ⟨by decide +kernel, not_final_of_pending (by decide +kernel)⟩

open Slots in
-- Both workers give back the slot of the one job, so that nothing is left for the
-- second job, which has not even been claimed.
theorem slot_given_back_twice :
    ∃ pool : ServicePool (Fin 4) (job_queue .default),
      Run (service_step .small) Still Unrestricted (ServicePool.start .small
        (.empty (Backend.memory .empty)) overdrawn_activity) pool ∧ Queued overdrawn_activity ∧
      releases overdrawn_activity "job" pool.world.trace = 2 ∧
      Accepted pool.world.trace "other" "tenant" ∧
      ¬Final pool.world "other" ∧ pool.world.state.slots "tenant" = 0 :=
  ⟨overdrawn_run, run_small_run _ _ _, overdrawn_queued, by decide +kernel, by decide +kernel,
    not_final_of_pending (by decide +kernel), by decide +kernel⟩

end ResearchAgent.Service
