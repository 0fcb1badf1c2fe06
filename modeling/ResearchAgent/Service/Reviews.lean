import ResearchAgent.Service.Finished

namespace ResearchAgent.Service

open Library JobQueue Client Server

variable {ι : Type} {queue : Queue}

-- Who decides on which job, and how the decision is recorded.
structure Verdict where
  principal : Principal
  job_id : String
  status : JobState
  event_type : String

def Activity.verdict : Activity → Option Verdict
  | request principal (.approve job_id) => some ⟨principal, job_id, .approved, "report_approved"⟩
  | request principal (.reject job_id _) => some ⟨principal, job_id, .rejected, "report_rejected"⟩
  | _ => none

theorem Activity.verdict_of_reviews {activity : Activity} (h : activity.reviews = true) :
    ∃ verdict, activity.verdict = some verdict := by
  cases activity with
  | request principal asked => cases asked <;> first | exact ⟨_, rfl⟩ | cases h
  | _ => cases h

theorem Activity.verdict_cases {activity : Activity} {verdict : Verdict}
    (h : activity.verdict = some verdict) :
    verdict.status = .approved ∧ verdict.event_type = "report_approved" ∨
      verdict.status = .rejected ∧ verdict.event_type = "report_rejected" := by
  cases activity with
  | request principal asked =>
      cases asked with
      | approve => cases h; exact .inl ⟨rfl, rfl⟩
      | reject => cases h; exact .inr ⟨rfl, rfl⟩
      | _ => cases h
  | _ => cases h

namespace Reviews

open Finished (read_of stored_by written stored_by_error event_of_stored read_of_of_stored
  record_step read_step)

-- The event is an audit event of the decision.
def announces (verdict : Verdict) : ServiceEvent ι → Bool
  | ⟨_, .append_audit event_type principal job_id _, .ok _⟩ =>
      event_type = verdict.event_type ∧ principal = verdict.principal ∧
        job_id = some verdict.job_id
  | _ => false

-- The event is an audit event that could not be written.
def unaudited : ServiceEvent ι → Bool
  | ⟨_, .append_audit _ _ _ _, .error _⟩ => true
  | _ => false

-- What the reviewer stores, made from the record as it has read it.
structure Decision (verdict : Verdict) (read job : JobStatus) : Prop where
  awaiting : read.status = .awaiting_approval
  job_id : job.job_id = verdict.job_id
  status : job.status = verdict.status
  approved_by : job.approved_by = some verdict.principal.principal_id
  report : verdict.status = .rejected → job.report = read.report

section Past

variable {verdict : Verdict} {past : List (ServiceEvent ι)} {event : ServiceEvent ι}
  {job : JobStatus}

-- The review has stored nothing so far.
structure Fresh (verdict : Verdict) (past : List (ServiceEvent ι)) : Prop where
  audited : past.any unaudited = false
  unstored : past.findSome? (stored_by verdict.job_id) = none

-- The record as the review has it.
structure Reading (verdict : Verdict) (job : JobStatus) (past : List (ServiceEvent ι)) : Prop
    extends Fresh verdict past where
  read : past.findSome? (read_of verdict.job_id) = some job
  keyed : job.job_id = verdict.job_id

-- The record, or the error, that the review goes on with once it has looked.
def Found (verdict : Verdict) (past : List (ServiceEvent ι)) : Except ServiceError JobStatus → Prop
  | .ok job => Reading verdict job past
  | .error _ => Fresh verdict past

-- What a review that returns has done; one that raises after it has stored its
-- decision could not write the audit event.
def Ended (verdict : Verdict) (past : List (ServiceEvent ι)) : Except ServiceError JobStatus → Prop
  | .ok job => past.findSome? (stored_by verdict.job_id) = some job ∧
      (∃ read, Decision verdict read job) ∧ past.any (announces verdict) = true ∧
      past.any unaudited = false
  | .error _ => past.any unaudited = (past.findSome? (stored_by verdict.job_id)).isSome

theorem Fresh.cons (h : Fresh verdict past)
    (haudited : unaudited event = false) (hstored : stored_by verdict.job_id event = none) :
    Fresh verdict (event :: past) :=
  ⟨by rw [List.any_cons, haudited, h.audited]; rfl,
    by rw [List.findSome?_cons, hstored]; exact h.unstored⟩

theorem Fresh.ended (h : Fresh verdict past) (error : ServiceError) :
    Ended verdict past (.error error) := by
  simp only [Ended, h.audited, h.unstored, Option.isSome_none]

theorem Reading.cons (h : Reading verdict job past) (event : ServiceEvent ι)
    (haudited : unaudited event = false) (hstored : stored_by verdict.job_id event = none)
    (hread : read_of verdict.job_id event = none) : Reading verdict job (event :: past) :=
  ⟨h.toFresh.cons haudited hstored, by rw [List.findSome?_cons, hread]; exact h.read, h.keyed⟩

end Past

section Trace

variable [DecidableEq ι]

-- Nothing has been stored under the id since the thread last read the record.
def undisturbed (thread : ι) (job_id : String) : List (ServiceEvent ι) → Bool
  | [] => false
  | event :: rest =>
      decide (event.thread = thread) && (read_of job_id event).isSome ||
        (stored_by job_id event).isNone && undisturbed thread job_id rest

end Trace

section Records

variable {settings : Settings} {thread : ι} {p p' : Platform queue} {op : ServiceOp}
  {reply : op.Reply}

-- No operation takes an audit event away, and an announcement leaves one.
theorem audit_step (hstep : service_step settings thread p op reply p') :
    p.audit ⊆ p'.audit ∧
      ∀ verdict, announces verdict (⟨thread, op, reply⟩ : ServiceEvent ι) = true →
        ∃ audit ∈ p'.audit, audit.event_type = verdict.event_type ∧
          audit.principal_id = verdict.principal.principal_id ∧
          audit.job_id = some verdict.job_id := by
  rcases service_step_cases hstep with ⟨error, rfl, rfl⟩ | ⟨outcome, ho⟩
  · refine ⟨List.Subset.refl _, fun verdict h => ?_⟩
    cases op <;> cases h
  · cases op with
    | append_audit event_type principal job_id details =>
        cases ho
        refine ⟨List.subset_append_left _ _, fun verdict h => ?_⟩
        obtain ⟨htype, hprincipal, hjob⟩ := of_decide_eq_true h
        refine ⟨_, List.mem_append_right _ (List.mem_singleton_self _), htype, ?_, hjob⟩
        exact congrArg Principal.principal_id hprincipal
    | acquire_job_slot tenant_id =>
        refine ⟨?_, fun _ h => by cases h⟩
        simp only [Platform.effect, Platform.acquire_job_slot] at ho
        split at ho <;> (cases ho; exact List.Subset.refl _)
    | jobs_set_if_absent job_id job =>
        refine ⟨?_, fun _ h => by cases h⟩
        simp only [Platform.effect, Platform.set_if_absent] at ho
        split at ho <;> (cases ho; exact List.Subset.refl _)
    | _ => cases ho; exact ⟨List.Subset.refl _, fun _ h => by cases h⟩

end Records

section Discipline

variable (activity : ι → Activity)

-- A review stores one decision on the record it has read and announces what it has
-- stored. After an audit event that could not be written it does nothing.
def Permits (thread : ι) (past : List (ServiceEvent ι)) (op : ServiceOp) : Prop :=
  past.any unaudited = false ∧
    match op with
    | .jobs_set job_id job => ∃ verdict read, (activity thread).verdict = some verdict ∧
        job_id = verdict.job_id ∧ past.findSome? (read_of job_id) = some read ∧
        Decision verdict read job ∧ past.findSome? (stored_by job_id) = none
    | .append_audit event_type principal job_id _ => ∃ verdict job,
        (activity thread).verdict = some verdict ∧ event_type = verdict.event_type ∧
        principal = verdict.principal ∧ job_id = some verdict.job_id ∧
        past.findSome? (stored_by verdict.job_id) = some job
    | op => Lookup op

variable [DecidableEq ι]

def Orderly : List (ServiceEvent ι) → Prop
  | [] => True
  | event :: rest =>
      Permits activity event.thread (events_of event.thread rest) event.op ∧ Orderly rest

structure Inv (world : ServiceWorld ι queue) : Prop where
  orderly : Orderly activity world.trace
  keyed : ∀ job_id job, world.state.jobs.get? job_id = some job → job.job_id = job_id
  audited : ∀ verdict, ∀ event ∈ world.trace, announces verdict event = true →
    ∃ audit ∈ world.state.audit, audit.event_type = verdict.event_type ∧
      audit.principal_id = verdict.principal.principal_id ∧ audit.job_id = some verdict.job_id

abbrev discipline (settings : Settings) :
    Library.Discipline ι ServiceOp ServiceOp.Reply (Platform queue) :=
  .by_events (service_step settings) (fun _ _ => True) (Inv activity)

variable {activity} {settings : Settings} {thread : ι} {world : ServiceWorld ι queue}
  {op : ServiceOp} {reply : op.Reply} {state : Platform queue}

theorem Inv.step (hinv : Inv activity world)
    (hpermits : Permits activity thread (events_of thread world.trace) op)
    (hstep : service_step settings thread world.state op reply state) :
    Inv activity (world.after ⟨thread, op, reply⟩ state) := by
  obtain ⟨hkept, hnew⟩ := audit_step hstep
  refine ⟨⟨hpermits, hinv.orderly⟩, fun job_id job hget => ?_, fun verdict event hmem h => ?_⟩
  · rcases record_step hstep hget with hstored | ⟨rfl, -⟩ | ⟨-, hget⟩
    · cases event_of_stored hstored
      obtain ⟨-, verdict, read, -, rfl, -, hdecision, -⟩ := hpermits
      exact hdecision.job_id
    · exact hpermits.2.elim
    · exact hinv.keyed job_id job hget
  · rcases List.mem_cons.mp hmem with rfl | hmem
    · exact hnew verdict h
    · obtain ⟨audit, haudit, hmatch⟩ := hinv.audited verdict event hmem h
      exact ⟨audit, hkept haudit, hmatch⟩

theorem Inv.elapse {state : Platform queue} (hinv : Inv activity world)
    (he : Elapse world.state state) : Inv activity ⟨state, world.trace⟩ := by
  cases he with
  | job_expires job_id =>
      refine ⟨hinv.orderly, fun other job hget => ?_, hinv.audited⟩
      simp only [Dict.get?_erase] at hget
      split at hget
      · cases hget
      · exact hinv.keyed other job hget
  | result_expires | slots_expire | queue => exact ⟨hinv.orderly, hinv.keyed, hinv.audited⟩

section Programs

variable {α β : Type} {verdict : Verdict} {past : List (ServiceEvent ι)} {job : JobStatus}

theorem wp_op {post : Except ServiceError β → ServiceWorld ι queue → Prop} {op : ServiceOp}
    {f : op.Value → ServiceProgram β} (hpast : events_of thread world.trace = past)
    (hpermits : Permits activity thread past op)
    (hnext : ∀ (w : ServiceWorld ι queue) reply state, Inv activity w →
      service_step settings thread w.state op reply state →
      events_of thread (w.after ⟨thread, op, reply⟩ state).trace = ⟨thread, op, reply⟩ :: past →
      (discipline activity settings).wp thread post (lift reply >>= f)
        (w.after ⟨thread, op, reply⟩ state)) :
    (discipline activity settings).wp thread post (perform op >>= f) world :=
  Discipline.wp_call hpast fun w reply state _ hown hinv hstep _ =>
    ⟨hinv.step (hown ▸ hpermits) hstep, hnext w reply state hinv hstep⟩

-- Before it has read the record a review has done nothing; where it finds the
-- record, that is how the record is stored under the id.
theorem tenant_job_wp {principal : Principal} (hpast : events_of thread world.trace = []) :
    (discipline activity settings).wp thread
      (fun result w => Found verdict (events_of thread w.trace) result)
      (tenant_job verdict.job_id principal) world := by
  have hnone : Fresh verdict ([] : List (ServiceEvent ι)) := ⟨rfl, rfl⟩
  refine wp_op hpast ⟨rfl, trivial⟩ fun w reply state hinv hstep hown => ?_
  have hfresh : Fresh verdict [(⟨thread, .jobs_get verdict.job_id, reply⟩ : ServiceEvent ι)] :=
    hnone.cons rfl rfl
  cases reply with
  | error error => exact Discipline.wp_raise hown hfresh
  | ok value =>
      cases value with
      | none => exact Discipline.wp_raise hown hfresh
      | some job =>
          have hkeyed := hinv.keyed verdict.job_id job (jobs_get_step hstep).symm
          simp only [lift_ok, Program.ret_bind, check_tenant]
          split
          · exact Discipline.wp_raise hown hfresh
          · exact Discipline.wp_ret hown ⟨hfresh, by simp [read_of], hkeyed⟩

-- What both reviews end with.
theorem save_review_wp {details : JSONObject} {read : JobStatus}
    (hverdict : (activity thread).verdict = some verdict)
    (hpast : events_of thread world.trace = past) (hread : Reading verdict read past)
    (hdecision : Decision verdict read job) :
    (discipline activity settings).wp thread
      (fun result w => Ended verdict (events_of thread w.trace) result)
      (do
        save_job job
        append_audit verdict.event_type verdict.principal verdict.job_id details
        .ret job : ServiceProgram JobStatus) world := by
  refine wp_op hpast ⟨hread.audited, verdict, read, hverdict, hdecision.job_id, ?_, hdecision, ?_⟩
    fun w reply state _ _ hown => ?_
  · rw [hdecision.job_id]; exact hread.read
  · rw [hdecision.job_id]; exact hread.unstored
  cases reply with
  | error error =>
      exact Discipline.wp_raise hown ((hread.toFresh.cons rfl rfl).ended error)
  | ok value =>
      have hstored : (⟨thread, .jobs_set job.job_id job, .ok value⟩ :: past).findSome?
          (stored_by verdict.job_id) = some job := by
        simp [stored_by, hdecision.job_id]
      have haudited : (⟨thread, .jobs_set job.job_id job, .ok value⟩ :: past).any unaudited =
          false := hread.audited
      refine wp_op hown ⟨haudited, verdict, job, hverdict, rfl, rfl, rfl, hstored⟩
        fun w reply state _ _ hown => ?_
      cases reply with
      | error error =>
          refine Discipline.wp_raise hown ?_
          simp only [Ended, List.any_cons, unaudited, Bool.true_or]
          exact (congrArg Option.isSome hstored).symm
      | ok value =>
          exact Discipline.wp_ret hown ⟨hstored, ⟨read, hdecision⟩, by simp [announces], haudited⟩

-- A review goes on once it has the role and the record.
theorem wp_found {roles : List Role} {principal : Principal}
    {f : JobStatus → ServiceProgram JobStatus}
    (hpast : events_of thread world.trace = [])
    (h : ∀ (w : ServiceWorld ι queue) read, Reading verdict read (events_of thread w.trace) →
      (discipline activity settings).wp thread
        (fun result w => Ended verdict (events_of thread w.trace) result) (f read) w) :
    (discipline activity settings).wp thread
      (fun result w => Ended verdict (events_of thread w.trace) result)
      (do
        require_role principal roles
        let read ← tenant_job verdict.job_id principal
        f read) world := by
  have hnone : Fresh verdict ([] : List (ServiceEvent ι)) := ⟨rfl, rfl⟩
  unfold require_role
  split
  · rw [Program.ret_bind]
    refine Discipline.wp_bind (Discipline.wp_mono (fun result w hfound => ?_) (tenant_job_wp hpast))
    cases result with
    | ok read => exact h w read hfound
    | error error => exact Fresh.ended hfound error
  · exact Discipline.wp_raise hpast (hnone.ended _)

theorem approve_research_wp {principal : Principal} {job_id : String}
    (hverdict : (activity thread).verdict =
      some ⟨principal, job_id, .approved, "report_approved"⟩)
    (hpast : events_of thread world.trace = []) :
    (discipline activity settings).wp thread
      (fun result w => Ended ⟨principal, job_id, .approved, "report_approved"⟩
        (events_of thread w.trace) result)
      (approve_research job_id principal) world := by
  refine wp_found hpast fun w read hread => ?_
  split
  · exact Discipline.wp_raise rfl (hread.toFresh.ended _)
  · next hstatus =>
      refine wp_op rfl ⟨hread.audited, trivial⟩ fun w reply state _ _ hown => ?_
      have hread' := hread.cons ⟨thread, .results_get job_id, reply⟩ rfl rfl rfl
      cases reply with
      | error error => exact Discipline.wp_raise hown (hread'.toFresh.ended error)
      | ok result =>
          simp only [lift_ok, Program.ret_bind]
          split
          · exact Discipline.wp_raise hown (hread'.toFresh.ended _)
          · refine wp_op hown ⟨hread'.audited, trivial⟩ fun w reply state _ _ hown => ?_
            have hread'' := hread'.cons ⟨thread, .now, reply⟩ rfl rfl rfl
            cases reply with
            | error error => exact Discipline.wp_raise hown (hread''.toFresh.ended error)
            | ok approved_at =>
                exact save_review_wp hverdict hown hread''
                  ⟨not_not.mp hstatus, hread.keyed, rfl, rfl, fun h => by cases h⟩

theorem reject_research_wp {principal : Principal} {job_id reason : String}
    (hverdict : (activity thread).verdict =
      some ⟨principal, job_id, .rejected, "report_rejected"⟩)
    (hpast : events_of thread world.trace = []) :
    (discipline activity settings).wp thread
      (fun result w => Ended ⟨principal, job_id, .rejected, "report_rejected"⟩
        (events_of thread w.trace) result)
      (reject_research job_id reason principal) world := by
  refine wp_found hpast fun w read hread => ?_
  split
  · exact Discipline.wp_raise rfl (hread.toFresh.ended _)
  · next hstatus =>
      refine wp_op rfl ⟨hread.audited, trivial⟩ fun w reply state _ _ hown => ?_
      have hread' := hread.cons ⟨thread, .now, reply⟩ rfl rfl rfl
      cases reply with
      | error error => exact Discipline.wp_raise hown (hread'.toFresh.ended error)
      | ok approved_at =>
          exact save_review_wp hverdict hown hread'
            ⟨not_not.mp hstatus, hread.keyed, rfl, rfl, fun _ => rfl⟩

-- What a review answers with.
def Answered (verdict : Verdict) (past : List (ServiceEvent ι)) : Except ServiceError Answer → Prop
  | .ok answer => ∃ job, answer = .body (.job job) ∧ Ended verdict past (.ok job)
  | .error error => Ended verdict past (.error error)

theorem answered_wp {program : ServiceProgram JobStatus}
    (h : (discipline activity settings).wp thread
      (fun result w => Ended verdict (events_of thread w.trace) result) program world) :
    (discipline activity settings).wp thread
      (fun result w => Answered verdict (events_of thread w.trace) result)
      ((program >>= fun job => .ret (Body.job job)) >>= fun body => .ret (Answer.body body))
      world := by
  rw [Program.bind_assoc]
  refine Discipline.wp_bind (Discipline.wp_mono (fun result w hw => ?_) h)
  cases result with
  | ok job => exact Discipline.wp_ret rfl ⟨job, rfl, hw⟩
  | error error => exact hw

theorem activity_wp (hverdict : (activity thread).verdict = some verdict)
    (hpast : events_of thread world.trace = []) :
    (discipline activity settings).wp thread
      (fun result w => Answered verdict (events_of thread w.trace) result)
      ((activity thread).program settings) world := by
  cases hactivity : activity thread with
  | request principal asked =>
      cases asked with
      | approve job_id =>
          have h := hverdict
          rw [hactivity] at h
          cases h
          exact answered_wp (approve_research_wp hverdict hpast)
      | reject job_id reason =>
          have h := hverdict
          rw [hactivity] at h
          cases h
          exact answered_wp (reject_research_wp hverdict hpast)
      | _ => rw [hactivity] at hverdict; cases hverdict
  | _ => rw [hactivity] at hverdict; cases hverdict

end Programs

end Discipline

section Law

variable (pool : ServicePool ι queue)

-- Nothing is stored by a request that ends in an error.
def Restores : Prop :=
  ∀ thread error, pool.threads thread = .raise error →
    ∀ event ∈ pool.world.trace, event.thread = thread → ∀ job_id, stored_by job_id event = none

-- The audit event is of the type that goes with the record.
def Matches (audit : AuditEvent) (job_id : String) (job : JobStatus) : Prop :=
  audit.job_id = some job_id ∧ job.approved_by = some audit.principal_id ∧
    (job.status = .approved ∧ audit.event_type = "report_approved" ∨
      job.status = .rejected ∧ audit.event_type = "report_rejected")

-- Every decision of a request that has ended is in the audit log.
def Audited : Prop :=
  ∀ thread, (∀ op next, pool.threads thread ≠ .call op next) →
    ∀ event ∈ pool.world.trace, event.thread = thread →
      ∀ job_id job, stored_by job_id event = some job →
        ∃ audit ∈ pool.world.state.audit, Matches audit job_id job

end Law

section Runs

variable [DecidableEq ι] {settings : Settings} {activity : ι → Activity} {platform : Platform queue}
  {allowed : ServicePool ι queue → Option (ServiceEvent ι) → Prop} {pool : ServicePool ι queue}
  {thread : ι} {verdict : Verdict}

theorem reviews_of_run (hreviews : ∀ thread, (activity thread).reviews = true)
    (hkeyed : ∀ job_id job, platform.jobs.get? job_id = some job → job.job_id = job_id)
    (hrun : Run (service_step settings) Elapse allowed
      (ServicePool.start settings platform activity) pool) :
    Inv activity pool.world ∧ ∀ thread verdict, (activity thread).verdict = some verdict →
      (discipline activity settings).wp thread
        (fun result w => Answered verdict (events_of thread w.trace) result)
        (pool.threads thread) pool.world := by
  have hinv : Inv activity (ServicePool.start settings platform activity).world :=
    ⟨trivial, hkeyed, fun _ _ h => by cases h⟩
  obtain ⟨hinv, hthreads⟩ := (discipline activity settings).sound
    (fun thread result w => ∀ verdict, (activity thread).verdict = some verdict →
      Answered verdict (events_of thread w.trace) result) hinv
    (fun thread => by
      obtain ⟨verdict, hverdict⟩ := Activity.verdict_of_reviews (hreviews thread)
      refine Discipline.wp_mono (fun result w h verdict' hverdict' => ?_)
        (activity_wp hverdict rfl)
      rw [hverdict] at hverdict'
      cases hverdict'
      exact h)
    (fun hinv he => ⟨hinv.elapse he, fun _ => ⟨List.suffix_rfl, rfl⟩⟩) (fun _ => trivial) hrun
  exact ⟨hinv, fun thread verdict hverdict =>
    Discipline.wp_mono (fun result w h => h verdict hverdict) (hthreads thread)⟩

-- Whatever a review has stored is its decision.
theorem Orderly.stored {trace : List (ServiceEvent ι)} {event : ServiceEvent ι} {job_id : String}
    {job : JobStatus} (h : Orderly activity trace) (hmem : event ∈ trace)
    (hstored : stored_by job_id event = some job) :
    ∃ verdict read, (activity event.thread).verdict = some verdict ∧ job_id = verdict.job_id ∧
      Decision verdict read job := by
  induction trace with
  | nil => cases hmem
  | cons first rest ih =>
      rcases List.mem_cons.mp hmem with rfl | hrest
      · have hpermits := h.1
        rw [event_of_stored hstored] at hpermits
        obtain ⟨-, verdict, read, hverdict, hid, -, hdecision, -⟩ := hpermits
        exact ⟨verdict, read, hverdict, hid, hdecision⟩
      · exact ih h.2 hrest

section Stopped

variable (hreviews : ∀ thread, (activity thread).reviews = true)
  (hkeyed : ∀ job_id job, platform.jobs.get? job_id = some job → job.job_id = job_id)
  (hrun : Run (service_step settings) Elapse allowed
    (ServicePool.start settings platform activity) pool)
  (hverdict : (activity thread).verdict = some verdict)

include hreviews hkeyed hrun hverdict

theorem ended_of_ret {answer : Answer} (h : pool.threads thread = .ret answer) :
    Answered verdict (events_of thread pool.world.trace) (.ok answer) := by
  obtain ⟨hinv, hthreads⟩ := reviews_of_run hreviews hkeyed hrun
  have hwp := hthreads thread verdict hverdict
  rw [h] at hwp
  exact hwp pool.world (Discipline.rely_refl _ thread _) hinv

theorem ended_of_raise {error : ServiceError} (h : pool.threads thread = .raise error) :
    Answered verdict (events_of thread pool.world.trace) (.error error) := by
  obtain ⟨hinv, hthreads⟩ := reviews_of_run hreviews hkeyed hrun
  have hwp := hthreads thread verdict hverdict
  rw [h] at hwp
  exact hwp pool.world (Discipline.rely_refl _ thread _) hinv

-- A review whose audit event could not be written has raised, since any operation
-- still to come would be one that it does not permit itself.
theorem raised_of_unaudited [Nonempty (Outcome queue)]
    (h : (events_of thread pool.world.trace).any unaudited = true) :
    ∃ error, pool.threads thread = .raise error := by
  obtain ⟨hinv, hthreads⟩ := reviews_of_run hreviews hkeyed hrun
  have hwp := hthreads thread verdict hverdict
  cases hthread : pool.threads thread with
  | ret answer =>
      obtain ⟨job, -, hended⟩ := ended_of_ret hreviews hkeyed hrun hverdict hthread
      rw [hended.2.2.2] at h
      cases h
  | raise error => exact ⟨error, rfl⟩
  | call op next =>
      rw [hthread] at hwp
      obtain ⟨outcome⟩ := ‹Nonempty (Outcome queue)›
      have hstep : service_step settings thread pool.world.state op
          (pool.world.state.exec settings outcome op).1
          (pool.world.state.exec settings outcome op).2 := ⟨outcome, rfl⟩
      obtain ⟨hafter, -⟩ :=
        hwp pool.world (Discipline.rely_refl _ thread _) hinv _ _ ⟨hstep, trivial⟩
      rw [hafter.orderly.1.1] at h
      cases h

end Stopped

section Stores

variable (hreviews : ∀ thread, (activity thread).reviews = true)
  (hkeyed : ∀ job_id job, platform.jobs.get? job_id = some job → job.job_id = job_id)
  (hrun : Run (service_step settings) Elapse allowed
    (ServicePool.start settings platform activity) pool)

include hreviews hkeyed hrun

theorem audited_of_restores [Nonempty (Outcome queue)] (hrestores : Restores pool) :
    ∀ event ∈ pool.world.trace, unaudited event = false := by
  intro event hmem
  by_contra hfailed
  obtain ⟨verdict, hverdict⟩ := Activity.verdict_of_reviews (hreviews event.thread)
  have hown : (events_of event.thread pool.world.trace).any unaudited = true :=
    List.any_eq_true.mpr ⟨event, mem_events_of.mpr ⟨hmem, rfl⟩, by simpa using hfailed⟩
  obtain ⟨error, hraise⟩ := raised_of_unaudited hreviews hkeyed hrun hverdict hown
  have hended : _ = _ := ended_of_raise hreviews hkeyed hrun hverdict hraise
  rw [hown] at hended
  obtain ⟨job, hjob⟩ := Option.isSome_iff_exists.mp hended.symm
  obtain ⟨stored, hstored, heq⟩ := List.exists_of_findSome?_eq_some hjob
  obtain ⟨hmem', hthread⟩ := mem_events_of.mp hstored
  rw [hrestores event.thread error hraise stored hmem' hthread] at heq
  cases heq

theorem restores_of_audited (haudited : ∀ event ∈ pool.world.trace, unaudited event = false) :
    Restores pool := by
  intro thread error hraise event hmem hthread job_id
  obtain ⟨hinv, -⟩ := reviews_of_run hreviews hkeyed hrun
  obtain ⟨verdict, hverdict⟩ := Activity.verdict_of_reviews (hreviews thread)
  have hown : (events_of thread pool.world.trace).any unaudited = false := by
    rw [List.any_eq_false]
    exact fun event hmem => by simp [haudited event (mem_events_of.mp hmem).1]
  have hended : _ = _ := ended_of_raise hreviews hkeyed hrun hverdict hraise
  rw [hown, eq_comm, Option.isSome_eq_false_iff, Option.isNone_iff_eq_none,
    List.findSome?_eq_none_iff] at hended
  cases hstored : stored_by job_id event with
  | none => rfl
  | some job =>
      obtain ⟨verdict', read, hverdict', rfl, -⟩ := hinv.orderly.stored hmem hstored
      rw [hthread, hverdict] at hverdict'
      cases hverdict'
      exact hstored.symm.trans (hended event (mem_events_of.mpr ⟨hmem, hthread⟩))

theorem audited_of_run (hrestores : Restores pool) : Audited pool := by
  intro thread hstopped event hmem hthread job_id job hstored
  obtain ⟨hinv, -⟩ := reviews_of_run hreviews hkeyed hrun
  obtain ⟨verdict, read, hverdict, rfl, hdecision⟩ := hinv.orderly.stored hmem hstored
  rw [hthread] at hverdict
  cases hprogram : pool.threads thread with
  | call op next => exact absurd hprogram (hstopped op next)
  | raise error =>
      rw [hrestores thread error hprogram event hmem hthread] at hstored
      cases hstored
  | ret answer =>
      obtain ⟨job', -, hended⟩ := ended_of_ret hreviews hkeyed hrun hverdict hprogram
      obtain ⟨announced, hannounced, hannounces⟩ := List.any_eq_true.mp hended.2.2.1
      obtain ⟨audit, haudit, htype, hprincipal, hjob⟩ :=
        hinv.audited verdict announced (mem_events_of.mp hannounced).1 hannounces
      refine ⟨audit, haudit, hjob, by rw [hdecision.approved_by, hprincipal], ?_⟩
      rw [hdecision.status, htype]
      exact Activity.verdict_cases hverdict

end Stores

end Runs

section Race

variable [DecidableEq ι]

-- The condition on a step: nothing has been stored under the id since the thread
-- that stores there has read the record.
def Unraced (pool : ServicePool ι queue) (event : Option (ServiceEvent ι)) : Prop :=
  ∀ happened ∈ event, ∀ job_id ∈ written happened,
    undisturbed happened.thread job_id pool.world.trace = true

instance (pool : ServicePool ι queue) (event : Option (ServiceEvent ι)) :
    Decidable (Unraced pool event) :=
  inferInstanceAs (Decidable (∀ _ ∈ _, ∀ _ ∈ _, _))

-- Every record has been decided on at most once, and by the reviewer it names.
structure Settled (activity : ι → Activity) (platform : Platform queue)
    (world : ServiceWorld ι queue) : Prop where
  once : ∀ job_id, ∀ event ∈ world.trace, ∀ other ∈ world.trace,
    (stored_by job_id event).isSome → (stored_by job_id other).isSome → event = other
  record : ∀ job_id, world.state.jobs.get? job_id =
    (world.trace.findSome? (stored_by job_id)).or (platform.jobs.get? job_id)
  decided : ∀ job_id job, ∀ event ∈ world.trace, stored_by job_id event = some job →
    ∃ verdict read, (activity event.thread).verdict = some verdict ∧
      platform.jobs.get? job_id = some read ∧ Decision verdict read job
  current : ∀ thread job_id, undisturbed thread job_id world.trace = true →
    ∃ read, (events_of thread world.trace).findSome? (read_of job_id) = some read ∧
      world.state.jobs.get? job_id = some read

variable {settings : Settings} {activity : ι → Activity} {platform : Platform queue}
  {world : ServiceWorld ι queue} {thread : ι} {op : ServiceOp} {reply : op.Reply}
  {state : Platform queue}

-- An undisturbed reviewer finds the record as it was in the beginning.
theorem Settled.first (h : Settled activity platform world) {job_id : String} {read : JobStatus}
    (hget : world.state.jobs.get? job_id = some read)
    (hawaiting : read.status = .awaiting_approval) :
    world.trace.findSome? (stored_by job_id) = none ∧ platform.jobs.get? job_id = some read := by
  have hrecord := h.record job_id
  cases hstored : world.trace.findSome? (stored_by job_id) with
  | none =>
      rw [hstored, hget] at hrecord
      exact ⟨rfl, hrecord.symm⟩
  | some job =>
      obtain ⟨event, hmem, heq⟩ := List.exists_of_findSome?_eq_some hstored
      obtain ⟨verdict, _, hverdict, -, hdecision⟩ := h.decided job_id job event hmem heq
      rw [hstored, hget] at hrecord
      cases hrecord
      rw [hdecision.status] at hawaiting
      rcases Activity.verdict_cases hverdict with ⟨hstatus, -⟩ | ⟨hstatus, -⟩ <;>
        (rw [hstatus] at hawaiting; cases hawaiting)

-- A review creates and deletes nothing.
theorem Permits.record_after (hpermits : Permits activity thread (events_of thread world.trace) op)
    (hstep : service_step settings thread world.state op reply state) (job_id : String) :
    state.jobs.get? job_id = (stored_by job_id (⟨thread, op, reply⟩ : ServiceEvent ι)).or
      (world.state.jobs.get? job_id) :=
  Finished.record_after hstep (fun _ _ h => by subst h; exact hpermits.2.elim)
    (fun _ h => by subst h; exact hpermits.2.elim) job_id

theorem Settled.store (h : Settled activity platform world)
    (hpermits : Permits activity thread (events_of thread world.trace) op)
    (hunraced : ∀ job_id ∈ written (⟨thread, op, reply⟩ : ServiceEvent ι),
      undisturbed thread job_id world.trace = true) {job_id : String} {job : JobStatus}
    (hstored : stored_by job_id (⟨thread, op, reply⟩ : ServiceEvent ι) = some job) :
    world.trace.findSome? (stored_by job_id) = none ∧
      ∃ verdict read, (activity thread).verdict = some verdict ∧
        platform.jobs.get? job_id = some read ∧ Decision verdict read job := by
  cases event_of_stored hstored
  obtain ⟨-, verdict, read, hverdict, -, hread, hdecision, -⟩ := hpermits
  obtain ⟨read', hread', hget⟩ := h.current thread job_id (hunraced job_id rfl)
  rw [hread] at hread'
  cases hread'
  obtain ⟨hfirst, hplatform⟩ := h.first hget hdecision.awaiting
  exact ⟨hfirst, verdict, read, hverdict, hplatform, hdecision⟩

theorem Settled.current_after (h : Settled activity platform world)
    (hpermits : Permits activity thread (events_of thread world.trace) op)
    (hstep : service_step settings thread world.state op reply state) {other : ι} {job_id : String}
    (hundisturbed : undisturbed other job_id (⟨thread, op, reply⟩ :: world.trace) = true) :
    ∃ read, (events_of other (⟨thread, op, reply⟩ :: world.trace)).findSome? (read_of job_id) =
      some read ∧ state.jobs.get? job_id = some read := by
  by_cases hreads : thread = other ∧
      (read_of job_id (⟨thread, op, reply⟩ : ServiceEvent ι)).isSome = true
  · obtain ⟨rfl, hisSome⟩ := hreads
    obtain ⟨read, hread⟩ := Option.isSome_iff_exists.mp hisSome
    obtain ⟨hget, hjobs⟩ := read_step hstep hread
    refine ⟨read, ?_, by rw [hjobs, hget]⟩
    rw [events_of_self, List.findSome?_cons, hread]
  · have hrest : (stored_by job_id (⟨thread, op, reply⟩ : ServiceEvent ι)).isNone = true ∧
        undisturbed other job_id world.trace = true := by
      simpa [undisturbed, hreads] using hundisturbed
    obtain ⟨read, hread, hget⟩ := h.current other job_id hrest.2
    refine ⟨read, ?_, ?_⟩
    · by_cases hother : thread = other
      · have hnone : read_of job_id (⟨thread, op, reply⟩ : ServiceEvent ι) = none := by
          simpa [hother] using hreads
        subst hother
        rw [events_of_self, List.findSome?_cons, hnone]
        exact hread
      · rw [events_of_other hother]
        exact hread
    · rw [hpermits.record_after hstep job_id, Option.isNone_iff_eq_none.mp hrest.1, Option.none_or]
      exact hget

theorem Settled.step (h : Settled activity platform world)
    (hpermits : Permits activity thread (events_of thread world.trace) op)
    (hstep : service_step settings thread world.state op reply state)
    (hunraced : ∀ job_id ∈ written (⟨thread, op, reply⟩ : ServiceEvent ι),
      undisturbed thread job_id world.trace = true) :
    Settled activity platform (world.after ⟨thread, op, reply⟩ state) := by
  refine ⟨fun job_id event hevent other hother hs hs' => ?_, fun job_id => ?_,
    fun job_id job event hevent hstored => ?_, fun other job_id hundisturbed => ?_⟩
  · have hnew : ∀ old ∈ world.trace, (stored_by job_id old).isSome →
        stored_by job_id (⟨thread, op, reply⟩ : ServiceEvent ι) = none := by
      intro old hold hisSome
      cases hstored : stored_by job_id (⟨thread, op, reply⟩ : ServiceEvent ι) with
      | none => rfl
      | some job =>
          have hnone := (h.store hpermits hunraced hstored).1
          rw [List.findSome?_eq_none_iff.mp hnone old hold] at hisSome
          cases hisSome
    rcases List.mem_cons.mp hevent with rfl | hevent <;>
      rcases List.mem_cons.mp hother with rfl | hother
    · rfl
    · rw [hnew other hother hs'] at hs; cases hs
    · rw [hnew event hevent hs] at hs'; cases hs'
    · exact h.once job_id event hevent other hother hs hs'
  · rw [World.after_trace, List.findSome?_cons, World.after_state]
    rw [hpermits.record_after hstep job_id, h.record job_id]
    cases stored_by job_id (⟨thread, op, reply⟩ : ServiceEvent ι) <;> rfl
  · rcases List.mem_cons.mp hevent with rfl | hevent
    · exact (h.store hpermits hunraced hstored).2
    · exact h.decided job_id job event hevent hstored
  · exact h.current_after hpermits hstep hundisturbed

theorem settled_of_run {pool : ServicePool ι queue}
    (hreviews : ∀ thread, (activity thread).reviews = true)
    (hkeyed : ∀ job_id job, platform.jobs.get? job_id = some job → job.job_id = job_id)
    (hrun : Run (service_step settings) (fun _ _ => False) Unraced
      (ServicePool.start settings platform activity) pool) :
    Settled activity platform pool.world := by
  induction hrun with
  | start =>
      exact ⟨fun _ _ h => (by cases h), fun _ => rfl, fun _ _ _ h => (by cases h),
        fun _ _ h => (by cases h)⟩
  | @step a event b hrun hs hunraced ih =>
      have hafter : Run (service_step settings) Elapse Unraced
          (ServicePool.start settings platform activity) b :=
        (hrun.step hs hunraced).mono (fun _ _ h => h) fun _ _ h => h.elim
      obtain ⟨hinv, -⟩ := reviews_of_run hreviews hkeyed hafter
      cases hs with
      | environment he => exact he.elim
      | call hthread hexec => exact ih.step hinv.orderly.1 hexec (hunraced _ rfl)

theorem Settled.record_of_stored (h : Settled activity platform world) {job_id : String}
    {job : JobStatus} {event : ServiceEvent ι} (hmem : event ∈ world.trace)
    (hstored : stored_by job_id event = some job) : world.state.jobs.get? job_id = some job := by
  rw [h.record job_id]
  cases hfound : world.trace.findSome? (stored_by job_id) with
  | none =>
      rw [List.findSome?_eq_none_iff.mp hfound event hmem] at hstored
      cases hstored
  | some job' =>
      obtain ⟨other, hother, heq⟩ := List.exists_of_findSome?_eq_some hfound
      have hsame := h.once job_id event hmem other hother (by rw [hstored]; rfl) (by rw [heq]; rfl)
      rw [← hsame, hstored] at heq
      cases heq
      rfl

end Race

end Reviews

open Reviews in
-- As long as no review stores its decision on an outdated reading, at most one of
-- the reviews of a job succeeds, and the record is and stays as that one returns it.
theorem one_decision [DecidableEq ι] {settings : Settings} {activity : ι → Activity}
    {platform : Platform queue} {pool : ServicePool ι queue}
    (hreviews : ∀ thread, (activity thread).reviews = true)
    (hkeyed : ∀ job_id job, platform.jobs.get? job_id = some job → job.job_id = job_id)
    (hrun : Run (service_step settings) (fun _ _ => False) Unraced
      (ServicePool.start settings platform activity) pool) :
    (∀ thread other job job', pool.threads thread = .ret (.body (.job job)) →
      pool.threads other = .ret (.body (.job job')) → job.job_id = job'.job_id →
      thread = other) ∧
    ∀ thread job, pool.threads thread = .ret (.body (.job job)) →
      pool.world.state.jobs.get? job.job_id = some job ∧
        ∃ verdict read, (activity thread).verdict = some verdict ∧
          platform.jobs.get? job.job_id = some read ∧ Decision verdict read job := by
  have hsettled := settled_of_run hreviews hkeyed hrun
  have hstored : ∀ thread job, pool.threads thread = .ret (.body (.job job)) →
      ∃ event ∈ pool.world.trace, event.thread = thread ∧
        Finished.stored_by job.job_id event = some job := by
    intro thread job hret
    obtain ⟨verdict, hverdict⟩ := Activity.verdict_of_reviews (hreviews thread)
    obtain ⟨job', hanswer, hfound, ⟨read, hdecision⟩, -⟩ :=
      ended_of_ret hreviews hkeyed (hrun.mono (fun _ _ h => h) fun _ _ h => h.elim) hverdict hret
    cases hanswer
    obtain ⟨event, hmem, heq⟩ := List.exists_of_findSome?_eq_some hfound
    obtain ⟨hmem, hthread⟩ := mem_events_of.mp hmem
    exact ⟨event, hmem, hthread, hdecision.job_id ▸ heq⟩
  refine ⟨fun thread other job job' hret hret' hid => ?_, fun thread job hret => ?_⟩
  · obtain ⟨event, hmem, rfl, hevent⟩ := hstored thread job hret
    obtain ⟨event', hmem', rfl, hevent'⟩ := hstored other job' hret'
    rw [← hid] at hevent'
    rw [hsettled.once job.job_id event hmem event' hmem' (by rw [hevent]; rfl)
      (by rw [hevent']; rfl)]
  · obtain ⟨event, hmem, rfl, hevent⟩ := hstored thread job hret
    exact ⟨hsettled.record_of_stored hmem hevent, hsettled.decided job.job_id job event hmem hevent⟩

open Reviews in
-- Every human decision is audited, and every request that fails stores nothing,
-- exactly when no audit event of the requests fails to be written.
theorem decisions_audited [DecidableEq ι] {cfg : Config} {settings : Settings}
    {activity : ι → Activity} {platform : Platform (job_queue cfg)}
    {pool : ServicePool ι (job_queue cfg)}
    (hreviews : ∀ thread, (activity thread).reviews = true)
    (hkeyed : ∀ job_id job, platform.jobs.get? job_id = some job → job.job_id = job_id)
    (hrun : Run (service_step settings) Elapse Unrestricted
      (ServicePool.start settings platform activity) pool) :
    (Audited pool ∧ Restores pool) ↔ ∀ event ∈ pool.world.trace, unaudited event = false := by
  have : Nonempty (Outcome (job_queue cfg)) := ⟨{ queue := ⟨0, []⟩ }⟩
  refine ⟨fun h => audited_of_restores hreviews hkeyed hrun h.2, fun haudited => ?_⟩
  have hrestores := restores_of_audited hreviews hkeyed hrun haudited
  exact ⟨audited_of_run hreviews hkeyed hrun hrestores, hrestores⟩

namespace Reviews

-- A record that waits for a decision, with its report.
def awaiting_job : JobStatus where
  job_id := "job"
  status := .awaiting_approval
  tenant_id := "tenant"
  principal_id := "principal"
  created_at := "2026-01-01"

def under_review : Platform (job_queue .default) :=
  { Platform.empty (Backend.memory .empty) with
    jobs := Dict.empty.set "job" awaiting_job
    results := Dict.empty.set "job" { report := some [] } }

-- One reviewer approves and another one rejects.
def disagreeing : Fin 2 → Activity
  | 0 => .request .small (.approve "job")
  | 1 => .request .small (.reject "job" "no sources")

def reviewed (moves : List (Fin 2 × Outcome (job_queue .default))) :
    ServicePool (Fin 2) (job_queue .default) :=
  (ServicePool.start .small under_review disagreeing).schedule (service_perform .small) moves

theorem disagreeing_reviews (thread : Fin 2) : (disagreeing thread).reviews = true := by
  match thread with
  | 0 | 1 => rfl

theorem under_review_keyed (job_id : String) (job : JobStatus)
    (h : under_review.jobs.get? job_id = some job) : job.job_id = job_id := by
  simp only [under_review, Dict.get?_set, Dict.get?_empty] at h
  split at h
  · next heq => cases h; exact heq.symm
  · cases h

def audit_down : Outcome (job_queue .default) :=
  { Outcome.at 1000 with fault := some (.JobStoreError "Audit store unavailable") }

-- The approval whose audit event cannot be written.
def unannounced : List (Fin 2 × Outcome (job_queue .default)) :=
  turns 0 1000 4 ++ [(.clamp 0 1, audit_down)]

theorem run_reviewed (moves : List (Fin 2 × Outcome (job_queue .default)))
    (environment : Platform (job_queue .default) → Platform (job_queue .default) → Prop) :
    Run (service_step .small) environment Unrestricted
      (ServicePool.start .small under_review disagreeing) (reviewed moves) :=
  Run.start.schedule (fun outcome _ _ _ => ⟨outcome, rfl⟩) moves (respects_unrestricted _ _)

end Reviews

open Reviews in
theorem decisions_audited_approved :
    Audited (reviewed (turns 0 1000 5)) ∧ Restores (reviewed (turns 0 1000 5)) :=
  (decisions_audited disagreeing_reviews under_review_keyed
    (run_reviewed (turns 0 1000 5) Elapse)).mpr (by decide +kernel)

open Reviews in
-- The request fails, and the record is approved without an audit event.
theorem approval_without_audit :
    ∃ pool : ServicePool (Fin 2) (job_queue .default),
      Run (service_step .small) Elapse Unrestricted
        (ServicePool.start .small under_review disagreeing) pool ∧
      (∃ error, pool.threads 0 = .raise error) ∧
      (pool.world.state.jobs.get? "job").map JobStatus.status = some .approved ∧
      pool.world.state.audit = [] ∧ ¬Audited pool ∧ ¬Restores pool := by
  have hraise : (reviewed unannounced).threads 0 =
      .raise (.JobStoreError "Audit store unavailable") := by rfl
  have haudit : (reviewed unannounced).world.state.audit = [] := by rfl
  obtain ⟨event, hmem, hthread, hstored⟩ : ∃ event ∈ (reviewed unannounced).world.trace,
      event.thread = 0 ∧ (Finished.stored_by "job" event).isSome = true := by decide +kernel
  obtain ⟨job, hjob⟩ := Option.isSome_iff_exists.mp hstored
  refine ⟨reviewed unannounced, run_reviewed _ _, ⟨_, hraise⟩, by decide +kernel, haudit,
    fun haudited => ?_, fun hrestores => ?_⟩
  · obtain ⟨audit, hmem, -⟩ := haudited 0 (fun op next h => by rw [hraise] at h; cases h) event hmem
      hthread "job" job hjob
    rw [haudit] at hmem
    cases hmem
  · rw [hrestores 0 _ hraise event hmem hthread "job"] at hjob
    cases hjob

namespace Reviews

-- The rejection comes after the approval.
def in_turn : List (Fin 2 × Outcome (job_queue .default)) := turns 0 1000 5 ++ turns 1 1000 4

-- The approval has read the record before the rejection begins.
def racing : List (Fin 2 × Outcome (job_queue .default)) :=
  turns 0 1000 1 ++ turns 1 1000 4 ++ turns 0 1000 4

end Reviews

open Reviews in
theorem one_decision_in_turn :
    ∃ job, (reviewed in_turn).threads 0 = .ret (.body (.job job)) ∧
      (∃ error, (reviewed in_turn).threads 1 = .raise error) ∧
      (reviewed in_turn).world.state.jobs.get? job.job_id = some job := by
  have hunraced : (ServicePool.start .small under_review disagreeing).respects
      (service_perform .small) Unraced in_turn := by decide +kernel
  have hrun : Run (service_step .small) (fun _ _ => False) Unraced
      (ServicePool.start .small under_review disagreeing) (reviewed in_turn) :=
    Run.start.schedule (fun outcome _ _ _ => ⟨outcome, rfl⟩) in_turn hunraced
  have hreturned : ∃ job, (reviewed in_turn).threads 0 = .ret (.body (.job job)) := ⟨_, rfl⟩
  obtain ⟨job, hjob⟩ := hreturned
  exact ⟨job, hjob, ⟨not_awaiting, rfl⟩,
    ((one_decision disagreeing_reviews under_review_keyed hrun).2 0 job hjob).1⟩

open Reviews in
-- Both requests succeed, and the report is out although it has been rejected.
theorem rejected_report_exposed :
    ∃ (pool : ServicePool (Fin 2) (job_queue .default)) (approved rejected : JobStatus),
      Run (service_step .small) (fun _ _ => False) Unrestricted
        (ServicePool.start .small under_review disagreeing) pool ∧
      pool.threads 0 = .ret (.body (.job approved)) ∧
      pool.threads 1 = .ret (.body (.job rejected)) ∧
      approved.job_id = "job" ∧ rejected.job_id = "job" ∧ rejected.status = .rejected ∧
      pool.world.state.jobs.get? "job" = some approved ∧ approved.status = .approved ∧
      approved.report.isSome = true :=
  ⟨reviewed racing, _, _, run_reviewed _ _, rfl, rfl, rfl, rfl, rfl, rfl, rfl, rfl⟩

end ResearchAgent.Service
