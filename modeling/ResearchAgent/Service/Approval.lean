import ResearchAgent.Service.Runs

namespace ResearchAgent.Service

open Library JobQueue

variable {ι : Type} {queue : Queue}

def Body.jobs : Body → List JobStatus
  | job status => [status]
  | listing jobs _ => jobs
  | detail _ => []

namespace Approval

variable (activity : ι → Activity) (trace : List (ServiceEvent ι))

-- An approve call on the job, by a principal of the job's tenant who may approve,
-- took this report from the result store.
def Released (job : JobStatus) (report : JSONObject) : Prop :=
  ∃ thread principal stored, activity thread = .request principal (.approve job.job_id) ∧
    has_role principal [.approver] ∧ principal.tenant_id = job.tenant_id ∧
    ⟨thread, .results_get job.job_id, .ok (some stored)⟩ ∈ trace ∧ stored.report = some report

structure Cleared (job : JobStatus) : Prop where
  released : ∀ report, job.report = some report → Released activity trace job report
  withheld : job.status = .awaiting_approval ∨ job.status = .rejected → job.report = none

-- The operation saves cleared records only.
def Saves : ServiceOp → Prop
  | .jobs_set job_id job | .jobs_set_if_absent job_id job =>
      job.job_id = job_id ∧ Cleared activity trace job
  | _ => True

variable {activity} {trace} {trace' : List (ServiceEvent ι)} {job job' : JobStatus}

theorem Cleared.mono (h : Cleared activity trace job) (hs : trace ⊆ trace') :
    Cleared activity trace' job := by
  refine ⟨fun report hr => ?_, h.withheld⟩
  obtain ⟨thread, principal, stored, ha, hrole, ht, hm, hs'⟩ := h.released report hr
  exact ⟨thread, principal, stored, ha, hrole, ht, hs hm, hs'⟩

theorem Cleared.of_report_none (h : job.report = none) : Cleared activity trace job :=
  ⟨fun report hr => by simp [h] at hr, fun _ => h⟩

-- A record made from a cleared one is cleared if it keeps the report and is not
-- up for review.
theorem Cleared.carry (h : Cleared activity trace job) (hid : job'.job_id = job.job_id)
    (ht : job'.tenant_id = job.tenant_id) (hr : job'.report = job.report)
    (ha : job'.status ≠ .awaiting_approval) (hj : job'.status ≠ .rejected) :
    Cleared activity trace job' := by
  refine ⟨fun report hreport => ?_, fun hs => ?_⟩
  · obtain ⟨thread, principal, stored, hact, hrole, htenant, hm, hstored⟩ :=
      h.released report (hr ▸ hreport)
    exact ⟨thread, principal, stored, hid ▸ hact, hrole, ht ▸ htenant, hid ▸ hm, hstored⟩
  · rcases hs with hs | hs
    · exact absurd hs ha
    · exact absurd hs hj

theorem Saves.mono {op : ServiceOp} (h : Saves activity trace op) (hs : trace ⊆ trace') :
    Saves activity trace' op := by
  cases op with
  | jobs_set | jobs_set_if_absent => exact ⟨h.1, h.2.mono hs⟩
  | _ => trivial

variable (settings : Settings) (activity)

def AllCleared (world : ServiceWorld ι queue) : Prop :=
  ∀ job_id job, world.state.jobs.get? job_id = some job →
    job.job_id = job_id ∧ Cleared activity world.trace job

-- The others may do anything that keeps the records cleared; what has happened
-- stays on the record.
def discipline : Discipline ι ServiceOp ServiceOp.Reply (Platform queue) where
  exec := service_step settings
  assumes _ _ := True
  inv := AllCleared activity
  rely _ w w' := w.trace ⊆ w'.trace
  rely_refl _ _ := List.Subset.refl _
  rely_trans _ := List.Subset.trans

variable {settings} {activity}

theorem AllCleared.step {w : ServiceWorld ι queue} {thread : ι} {op : ServiceOp} {reply : op.Reply}
    {state : Platform queue} (hinv : AllCleared activity w) (hsaves : Saves activity w.trace op)
    (hstep : service_step settings thread w.state op reply state) :
    AllCleared activity (w.after ⟨thread, op, reply⟩ state) := by
  intro job_id job hget
  have hs : w.trace ⊆ (w.after ⟨thread, op, reply⟩ state).trace := List.subset_cons_self _ _
  have hold : w.state.jobs.get? job_id = some job →
      job.job_id = job_id ∧ Cleared activity (w.after ⟨thread, op, reply⟩ state).trace job :=
    fun hget => ⟨(hinv job_id job hget).1, (hinv job_id job hget).2.mono hs⟩
  have hj := jobs_step hstep
  rw [World.after_state] at hget
  generalize state.jobs = jobs at hget hj
  cases hj with
  | keep => exact hold hget
  | delete =>
      simp only [Dict.get?_erase] at hget
      split at hget
      · cases hget
      · exact hold hget
  | set | create =>
      simp only [Dict.get?_set] at hget
      split at hget
      · next heq =>
          cases hget
          exact ⟨hsaves.1.trans heq.symm, hsaves.2.mono hs⟩
      · exact hold hget

theorem AllCleared.elapse {w : ServiceWorld ι queue} {state : Platform queue}
    (hinv : AllCleared activity w) (he : Elapse w.state state) :
    AllCleared activity ⟨state, w.trace⟩ := by
  cases he with
  | job_expires job_id =>
      intro other job hget
      simp only [Dict.get?_erase] at hget
      split at hget
      · cases hget
      · exact hinv other job hget
  | result_expires | slots_expire | queue => exact hinv

section Programs

variable {α β : Type} {thread : ι} {world : ServiceWorld ι queue}

theorem wp_uses {program : ServiceProgram α} (h : program.uses (Saves activity world.trace)) :
    (discipline activity settings).wp thread (fun _ w => world.trace ⊆ w.trace) program world :=
  Discipline.wp_of_uses (fun hrely hkeep => List.Subset.trans hkeep hrely)
    (fun hsaves hinv hkeep hstep =>
      ⟨hinv.step (hsaves.mono hkeep) hstep.1, fun _ _ => List.subset_cons_self _ _,
        List.subset_cons_of_subset _ hkeep⟩)
    h (List.Subset.refl _)

-- The part before a saves cleared records; what follows starts from a later trace.
theorem wp_uses_bind {post : Except ServiceError β → ServiceWorld ι queue → Prop}
    {program : ServiceProgram α} {f : α → ServiceProgram β}
    (h : program.uses (Saves activity world.trace))
    (hnext : ∀ w value, world.trace ⊆ w.trace →
      (discipline activity settings).wp thread post (f value) w)
    (herror : ∀ w error, world.trace ⊆ w.trace → post (.error error) w) :
    (discipline activity settings).wp thread post (program >>= f) world := by
  refine Discipline.wp_bind (Discipline.wp_mono (fun result w hw => ?_) (wp_uses h))
  cases result with
  | ok value => exact hnext w value hw
  | error error => exact herror w error hw

-- One operation whose reply matters to what follows.
theorem wp_read {post : Except ServiceError β → ServiceWorld ι queue → Prop} {op : ServiceOp}
    {f : op.Value → ServiceProgram β} (hsaves : Saves activity world.trace op)
    (hnext : ∀ w value state, world.trace ⊆ w.trace → AllCleared activity w →
      service_step settings thread w.state op (.ok value) state →
      (discipline activity settings).wp thread post (f value)
        (w.after ⟨thread, op, .ok value⟩ state))
    (herror : ∀ w error, world.trace ⊆ w.trace → post (.error error) w) :
    (discipline activity settings).wp thread post (perform op >>= f) world := by
  refine wp_perform fun w hw hinv reply state hstep =>
    ⟨AllCleared.step hinv (hsaves.mono hw) hstep.1, fun _ _ => List.subset_cons_self _ _, ?_⟩
  cases reply with
  | ok value => exact hnext w value state hw hinv hstep.1
  | error error =>
      exact fun v hv _ => herror v error
        (List.Subset.trans hw (List.Subset.trans (List.subset_cons_self _ _) hv))

-- What a worker does outside the processor and the reconciliation writes no record.
theorem plumbing_saves {op : ServiceOp} (h : Plumbing op) : Saves activity trace op := by
  cases op <;> first | exact h.elim | trivial

theorem wp_plumbing {program : ServiceProgram α} (h : program.uses Plumbing) :
    (discipline activity settings).wp thread (fun _ _ => True) program world :=
  Discipline.wp_mono (fun _ _ _ => trivial)
    (wp_uses (Program.uses_mono (fun _ => plumbing_saves) h))

theorem research_uses (envelope : JobEnvelope) :
    (ResearchProcessor.research settings envelope).uses (Saves activity trace) := by
  refine Program.uses_bind (lift_uses _) fun request =>
    Program.uses_bind (perform_uses trivial) fun state => ?_
  split <;> trivial

-- Every record the processor writes is made from the one it has read.
theorem run_uses (happroval : settings.require_report_approval = true) (envelope : JobEnvelope)
    (actor : Principal) (hjob : Cleared activity trace job) :
    (ResearchProcessor.run settings envelope actor job).uses (Saves activity trace) := by
  refine Program.uses_bind (perform_uses ⟨rfl, hjob.carry rfl rfl rfl nofun nofun⟩) fun _ =>
    Program.uses_bind (perform_uses trivial) fun _ =>
    Program.uses_bind (Program.uses_attempt (research_uses envelope) fun error => ?_)
      fun state => ?_
  · refine Program.uses_bind ?_ fun _ => trivial
    unfold ResearchProcessor.record_failure
    split
    · exact Program.uses_bind (perform_uses trivial) fun _ =>
        Program.uses_bind (perform_uses trivial) fun _ =>
        Program.uses_bind (perform_uses ⟨rfl, hjob.carry rfl rfl rfl nofun nofun⟩) fun _ =>
        perform_uses trivial
    · exact Program.uses_bind (perform_uses ⟨rfl, hjob.carry rfl rfl rfl nofun nofun⟩) fun _ =>
        perform_uses trivial
  · refine Program.uses_bind (lift_uses _) fun report =>
      Program.uses_bind (perform_uses trivial) fun _ =>
      Program.uses_bind (perform_uses trivial) fun completed_at =>
      Program.uses_bind (perform_uses ⟨rfl, .of_report_none ?_⟩) fun _ =>
      Program.uses_bind (perform_uses trivial) fun _ => perform_uses trivial
    simp only [happroval, ite_true]

theorem fail_dead_letter_uses (envelope : JobEnvelope) (hjob : Cleared activity trace job) :
    (ResearchProcessor.fail_dead_letter envelope job).uses (Saves activity trace) :=
  Program.uses_bind (perform_uses trivial) fun _ =>
    Program.uses_bind (perform_uses ⟨rfl, hjob.carry rfl rfl rfl nofun nofun⟩) fun _ =>
    Program.uses_bind (perform_uses trivial) fun _ =>
    Program.uses_bind (lift_uses _) fun _ =>
    Program.uses_bind (perform_uses trivial) fun _ =>
    Program.uses_bind (queue_uses trivial) fun _ => trivial

-- Whatever a worker does, it keeps the records cleared.
theorem call_keeps (happroval : settings.require_report_approval = true) (envelope : JobEnvelope) :
    (discipline activity settings).wp thread (fun _ _ => True)
      (ResearchProcessor.call settings envelope) world := by
  refine wp_read trivial (fun w value state hw hinv hstep => ?_) fun _ _ _ => trivial
  have hvalue := jobs_get_step hstep
  cases value with
  | none => exact fun _ _ _ => trivial
  | some job =>
      have hjob := (hinv _ job hvalue.symm).2.mono (List.subset_cons_self
        (⟨thread, .jobs_get envelope.job_id, .ok (some job)⟩ : ServiceEvent ι) w.trace)
      exact Discipline.wp_mono (fun _ _ _ => trivial) (wp_uses
        (Program.uses_bind (lift_uses _) fun actor => run_uses happroval envelope actor hjob))

theorem reconcile_keeps (envelope : JobEnvelope) :
    (discipline activity settings).wp thread (fun _ _ => True)
      (ResearchProcessor.reconcile envelope) world := by
  refine wp_read trivial (fun w value state hw hinv hstep => ?_) fun _ _ _ => trivial
  have hvalue := jobs_get_step hstep
  cases value with
  | none => exact fun _ _ _ => trivial
  | some job =>
      have hjob := (hinv _ job hvalue.symm).2.mono (List.subset_cons_self
        (⟨thread, .jobs_get envelope.job_id, .ok (some job)⟩ : ServiceEvent ι) w.trace)
      refine Discipline.wp_mono (fun _ _ _ => trivial) (wp_uses ?_)
      simp only
      split
      · exact Program.uses_bind (queue_uses trivial) fun _ => trivial
      · exact fail_dead_letter_uses envelope hjob

section Requests

open Server

variable {principal : Principal}

-- The postcondition of a request that returns a job.
def Shows (activity : ι → Activity) (result : Except ServiceError JobStatus)
    (w : ServiceWorld ι queue) : Prop :=
  ∀ job, result = .ok job → Cleared activity w.trace job

theorem shows_error (w : ServiceWorld ι queue) (error : ServiceError)
    (_ : world.trace ⊆ w.trace) : Shows activity (.error error) w :=
  fun _ hshown => by cases hshown

theorem wp_ret_shows (hjob : Cleared activity world.trace job) :
    (discipline activity settings).wp thread (Shows activity) (.ret job) world := by
  rintro w hw - shown hshown
  cases hshown
  exact hjob.mono hw

theorem wp_raise_shows (error : ServiceError) :
    (discipline activity settings).wp thread (Shows activity) (.raise error) world :=
  fun _ _ _ _ hshown => by cases hshown

theorem require_role_bind {post : Except ServiceError β → ServiceWorld ι queue → Prop}
    {roles : List Role} {f : Unit → ServiceProgram β}
    (hnext : has_role principal roles = true →
      (discipline activity settings).wp thread post (f ()) world)
    (herror : ∀ w error, world.trace ⊆ w.trace → post (.error error) w) :
    (discipline activity settings).wp thread post (require_role principal roles >>= f) world := by
  unfold require_role
  split
  · next hrole => exact hnext hrole
  · exact fun w hw _ => herror w _ hw

-- What a tenant-scoped read hands on.
theorem tenant_job_bind {post : Except ServiceError β → ServiceWorld ι queue → Prop}
    {job_id : String} {f : JobStatus → ServiceProgram β}
    (hnext : ∀ w job, world.trace ⊆ w.trace → job.job_id = job_id →
      job.tenant_id = principal.tenant_id → Cleared activity w.trace job →
      (discipline activity settings).wp thread post (f job) w)
    (herror : ∀ w error, world.trace ⊆ w.trace → post (.error error) w) :
    (discipline activity settings).wp thread post (tenant_job job_id principal >>= f) world := by
  unfold tenant_job
  rw [Program.bind_assoc]
  refine wp_read trivial (fun w value state hw hinv hstep => ?_) herror
  have hvalue := jobs_get_step hstep
  have hs : w.trace ⊆
      (w.after (⟨thread, .jobs_get job_id, .ok value⟩ : ServiceEvent ι) state).trace :=
    List.subset_cons_self _ _
  cases value with
  | none => exact fun v hv _ => herror v _ (List.Subset.trans hw (List.Subset.trans hs hv))
  | some job =>
      simp only [check_tenant]
      split
      · exact fun v hv _ => herror v _ (List.Subset.trans hw (List.Subset.trans hs hv))
      · next htenant =>
          obtain ⟨hid, hcleared⟩ := hinv _ job hvalue.symm
          exact hnext _ job (List.Subset.trans hw hs) hid (not_not.mp htenant) (hcleared.mono hs)

theorem get_research_result_shows (job_id : String) :
    (discipline activity settings).wp thread (Shows activity)
      (get_research_result job_id principal) world := by
  refine require_role_bind (fun _ => ?_) shows_error
  rw [← Program.bind_ret (tenant_job job_id principal)]
  exact tenant_job_bind (fun _ _ _ _ _ hcleared => wp_ret_shows hcleared)
    shows_error

theorem save_shows {event_type : String} {job_id : String} {details : JSONObject}
    (hjob : Cleared activity world.trace job) :
    (discipline activity settings).wp thread (Shows activity) (do
      save_job job
      Client.append_audit event_type principal job_id details
      .ret job) world := by
  refine wp_uses_bind (perform_uses ⟨rfl, hjob⟩) (fun w _ hw => ?_) shows_error
  exact wp_uses_bind (perform_uses trivial)
    (fun v _ hv => wp_ret_shows (hjob.mono (List.Subset.trans hw hv)))
    shows_error

-- The report an approval publishes is the one this very call has read.
theorem approve_research_shows (job_id : String)
    (hactivity : activity thread = .request principal (.approve job_id)) :
    (discipline activity settings).wp thread (Shows activity)
      (approve_research job_id principal) world := by
  refine require_role_bind (fun hrole => ?_) shows_error
  refine tenant_job_bind (fun w job hw hid htenant hcleared => ?_)
    shows_error
  split
  · exact wp_raise_shows _
  · subst hid
    refine wp_read trivial (fun v result state hv _ hstep => ?_) shows_error
    split
    · exact wp_raise_shows _
    · next report hreport =>
        obtain ⟨stored, rfl, hstored⟩ := Option.bind_eq_some_iff.mp hreport
        refine wp_uses_bind (perform_uses trivial) (fun u approved_at hu => save_shows ?_)
          shows_error
        refine ⟨fun shown hshown => ?_, fun hs => by simp at hs⟩
        cases hshown
        exact ⟨thread, principal, stored, hactivity, hrole, htenant.symm,
          hu (List.mem_cons_self ..), hstored⟩

theorem reject_research_shows (job_id reason : String) :
    (discipline activity settings).wp thread (Shows activity)
      (reject_research job_id reason principal) world := by
  refine require_role_bind (fun _ => ?_) shows_error
  refine tenant_job_bind (fun w job hw hid htenant hcleared => ?_) shows_error
  split
  · exact wp_raise_shows _
  · next hstatus =>
      have hnone := hcleared.withheld (.inl (not_not.mp hstatus))
      exact wp_uses_bind (perform_uses trivial)
        (fun u approved_at hu => save_shows (.of_report_none hnone))
        shows_error

theorem enqueue_job_shows (request : ResearchRequest) (hjob : Cleared activity world.trace job) :
    (discipline activity settings).wp thread (Shows activity)
      (enqueue_job principal request job) world := by
  refine wp_uses_bind (queue_uses trivial) (fun w enqueued hw => ?_) shows_error
  cases enqueued with
  | false => exact wp_uses_bind (perform_uses trivial) (fun _ _ _ => wp_raise_shows _) shows_error
  | true =>
      exact wp_uses_bind (perform_uses trivial)
        (fun v _ hv => wp_ret_shows (hjob.mono (List.Subset.trans hw hv))) shows_error

theorem raced_job_shows (job_id : String) :
    (discipline activity settings).wp thread (Shows activity)
      (raced_job principal job_id) world := by
  refine wp_uses_bind (perform_uses trivial) (fun w _ _ => ?_) shows_error
  refine wp_read trivial (fun v value state _ hinv hstep => ?_) shows_error
  have hvalue := jobs_get_step hstep
  cases value with
  | none => exact wp_raise_shows _
  | some raced => exact wp_ret_shows ((hinv _ raced hvalue.symm).2.mono (List.subset_cons_self _ _))

theorem create_job_shows (request : ResearchRequest) (hjob : job.report = none) :
    (discipline activity settings).wp thread (Shows activity)
      (create_job principal request job) world := by
  refine wp_uses_bind (perform_uses ⟨rfl, .of_report_none hjob⟩) (fun w created _ => ?_) shows_error
  cases created with
  | true => exact enqueue_job_shows request (.of_report_none hjob)
  | false => exact raced_job_shows job.job_id

theorem accept_job_shows (request : ResearchRequest) (job_id : String) :
    (discipline activity settings).wp thread (Shows activity)
      (accept_job principal request job_id) world := by
  refine wp_uses_bind (perform_uses trivial) (fun w created_at _ => ?_) shows_error
  refine Discipline.wp_attempt (Discipline.wp_mono (fun result v hresult => ?_)
    (create_job_shows request rfl))
  cases result with
  | ok value => exact hresult
  | error error =>
      exact wp_uses_bind (perform_uses trivial) (fun _ _ _ => wp_raise_shows _) shows_error

theorem limit_rate_uses : (limit_rate principal).uses (Saves activity trace) := by
  refine Program.uses_attempt (perform_uses trivial) fun error => ?_
  cases error <;> trivial

theorem new_job_id_uses (idempotency_key : Option String) :
    (new_job_id settings principal idempotency_key).uses (Saves activity trace) := by
  cases idempotency_key with
  | none => exact perform_uses trivial
  | some key =>
      simp only [new_job_id]
      split <;> trivial

theorem reserve_job_shows (request : ResearchRequest) (job_id : String) :
    (discipline activity settings).wp thread (Shows activity)
      (reserve_job principal request job_id) world := by
  refine wp_uses_bind (perform_uses trivial) (fun _ acquired _ => ?_) shows_error
  cases acquired with
  | true => exact accept_job_shows request job_id
  | false => exact wp_raise_shows _

theorem submit_research_shows (request : ResearchRequest) (idempotency_key : Option String) :
    (discipline activity settings).wp thread (Shows activity)
      (submit_research settings principal request idempotency_key) world := by
  simp only [submit_research, find_job, Program.bind_assoc]
  refine require_role_bind (fun _ => ?_) shows_error
  refine wp_uses_bind limit_rate_uses (fun u _ _ => ?_) shows_error
  refine wp_uses_bind (new_job_id_uses idempotency_key) (fun w job_id _ => ?_) shows_error
  refine wp_read trivial (fun v existing state _ hinv hstep => ?_) shows_error
  have hvalue := jobs_get_step hstep
  cases existing with
  | some existing =>
      exact wp_ret_shows ((hinv _ existing hvalue.symm).2.mono (List.subset_cons_self _ _))
  | none => exact reserve_job_shows request job_id

theorem list_jobs_shows (limit : ℕ) :
    (discipline activity settings).wp thread
      (fun result w => ∀ listing, result = .ok listing →
        ∀ job ∈ listing.jobs, Cleared activity w.trace job)
      (list_jobs limit principal) world := by
  refine require_role_bind (fun _ => ?_) fun _ _ _ _ hshown => by cases hshown
  refine wp_read trivial (fun w values state _ hinv hstep => ?_) fun _ _ _ _ hshown => by
    cases hshown
  rintro v hv - listing hlisting job hmem
  cases hlisting
  have hjob := (List.mem_mergeSort.mp (List.mem_of_mem_take hmem))
  obtain ⟨entry, hentry, rfl⟩ := List.mem_map.mp
    (jobs_values_step hstep ▸ (List.mem_filter.mp hjob).1)
  have hget := (w.state.jobs.get?_eq_some_iff entry.1 entry.2).mpr hentry
  exact (hinv _ _ hget).2.mono (List.Subset.trans (List.subset_cons_self _ _) hv)

-- The postcondition of a request: every job in its response is cleared.
def Responds (activity : ι → Activity) (result : Except ServiceError Body)
    (w : ServiceWorld ι queue) : Prop :=
  ∀ body, result = .ok body → ∀ job ∈ body.jobs, Cleared activity w.trace job

theorem job_responds {program : ServiceProgram JobStatus}
    (h : (discipline activity settings).wp thread (Shows activity) program world) :
    (discipline activity settings).wp thread (Responds activity)
      (program >>= fun job => .ret (.job job)) world := by
  refine Discipline.wp_bind (Discipline.wp_mono (fun result w hw => ?_) h)
  cases result with
  | error => exact fun _ hbody => by cases hbody
  | ok value =>
      rintro v hv - body hbody job hmem
      cases hbody
      cases List.mem_singleton.mp hmem
      exact (hw value rfl).mono hv

theorem serve_responds (request : Request)
    (hactivity : activity thread = .request principal request) :
    (discipline activity settings).wp thread (Responds activity)
      (request.serve settings principal) world := by
  cases request with
  | submit request idempotency_key =>
      exact job_responds (submit_research_shows request idempotency_key)
  | get job_id => exact job_responds (get_research_result_shows job_id)
  | approve job_id => exact job_responds (approve_research_shows job_id hactivity)
  | reject job_id reason => exact job_responds (reject_research_shows job_id reason)
  | list limit =>
      refine Discipline.wp_bind (Discipline.wp_mono (fun result w hw => ?_)
        (list_jobs_shows limit))
      cases result with
      | error => exact fun _ hbody => by cases hbody
      | ok listing =>
          rintro v hv - body hbody job hmem
          cases hbody
          exact (hw listing rfl job hmem).mono hv

end Requests

-- The postcondition of a thread: if it answers a request, it responds.
def Ends (activity : ι → Activity) (result : Except ServiceError Answer)
    (w : ServiceWorld ι queue) : Prop :=
  ∀ body, result = .ok (.body body) → ∀ job ∈ body.jobs, Cleared activity w.trace job

theorem quiet_ends (f : α → Answer) (hf : ∀ value body, f value ≠ .body body)
    {program : ServiceProgram α}
    (h : (discipline activity settings).wp thread (fun _ _ => True) program world) :
    (discipline activity settings).wp thread (Ends activity)
      (program >>= fun value => .ret (f value)) world := by
  refine Discipline.wp_bind (Discipline.wp_mono (fun result w _ => ?_) h)
  cases result with
  | error => exact fun _ hbody => by cases hbody
  | ok value => exact fun _ _ _ body hbody => absurd (Except.ok.inj hbody) (hf value body)

theorem activity_ends (happroval : settings.require_report_approval = true) :
    (discipline activity settings).wp thread (Ends activity)
      ((activity thread).program settings) world := by
  cases hactivity : activity thread with
  | request principal asked =>
      refine Discipline.wp_bind (Discipline.wp_mono (fun result w hw => ?_)
        (serve_responds asked hactivity))
      cases result with
      | error => exact fun _ hbody => by cases hbody
      | ok value =>
          rintro v hv - body hbody job hmem
          cases hbody
          exact (hw value rfl job hmem).mono hv
  | deliver envelope =>
      exact quiet_ends (fun _ => .done) (fun _ _ h => by cases h) (call_keeps happroval envelope)
  | reconcile =>
      exact quiet_ends (fun _ => .done) (fun _ _ h => by cases h)
        (wp_reconcile_dead_letters (fun _ => wp_plumbing)
          fun envelope _ => reconcile_keeps envelope)
  | run_once set_order =>
      exact quiet_ends .worked (fun _ _ h => by cases h)
        (wp_run_once (fun _ => wp_plumbing) (fun envelope _ => reconcile_keeps envelope)
          (fun envelope _ => call_keeps happroval envelope) set_order)
  | heartbeat envelope beats =>
      exact quiet_ends (fun _ => .done) (fun _ _ h => by cases h)
        (wp_plumbing (renew_lease_uses trivial beats))

end Programs

end Approval

open Approval in
-- Whatever the queue delivers and whichever operations fail, a report is in a
-- record or in a response only after an approval has taken it from the results.
theorem reports_released [DecidableEq ι] {settings : Settings}
    (happroval : settings.require_report_approval = true) (activity : ι → Activity)
    (start : queue.State) {pool : ServicePool ι queue}
    (hrun : Run (service_step settings) Elapse Unrestricted
      (ServicePool.start settings (.empty start) activity) pool) :
    (∀ job_id job, pool.world.state.jobs.get? job_id = some job →
      job.job_id = job_id ∧ Cleared activity pool.world.trace job) ∧
    ∀ thread body, pool.threads thread = .ret (.body body) →
      ∀ job ∈ body.jobs, Cleared activity pool.world.trace job := by
  obtain ⟨hinv, hthreads⟩ := (discipline activity settings).sound
    (fun _ => Ends activity) (fun _ _ hget => by cases hget)
    (fun _ => activity_ends happroval)
    (fun hinv he => ⟨hinv.elapse he, fun _ => List.Subset.refl _⟩) (fun _ => trivial) hrun
  refine ⟨hinv, fun thread body hbody => ?_⟩
  have hwp := hthreads thread
  rw [hbody] at hwp
  exact hwp pool.world (List.Subset.refl _) hinv body rfl

namespace Approval

-- A submission, a delivery of the job and an approval of its report.
def approved_activity : Fin 3 → Activity
  | 0 => small_submission
  | 1 => .deliver (small_envelope 1)
  | 2 => .request .small (.approve "job")

def approved_run : ServicePool (Fin 3) (job_queue .default) :=
  small_run approved_activity (turns 0 1000 9 ++ turns 1 1001 12 ++ turns 2 1002 6)

end Approval

open Approval in
theorem reports_released_approved :
    ∃ job, approved_run.world.state.jobs.get? "job" = some job ∧ job.status = .approved ∧
      job.report.isSome = true ∧ Cleared approved_activity approved_run.world.trace job := by
  have h : (approved_run.world.state.jobs.get? "job").map
      (fun job => (job.status, job.report.isSome)) = some (.approved, true) := by decide +kernel
  obtain ⟨job, hget, hjob⟩ := Option.map_eq_some_iff.mp h
  exact ⟨job, hget, congrArg Prod.fst hjob, congrArg Prod.snd hjob,
    ((reports_released rfl approved_activity (Backend.memory .empty)
      (run_small_run _ _ _)).1 _ job hget).2⟩

end ResearchAgent.Service
