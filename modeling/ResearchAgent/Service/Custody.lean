import ResearchAgent.JobQueue.Origins
import ResearchAgent.Service.Finished

namespace ResearchAgent.Service

open Library JobQueue

variable {ι : Type} {queue : Queue}

-- The tenant a submission takes a slot for.
def Activity.submitter : Activity → Option String
  | request principal (.submit _ _) => some principal.tenant_id
  | _ => none

theorem Activity.works_of_submitter {activity : Activity} {tenant_id : String}
    (h : activity.submitter = some tenant_id) : activity.works = false := by
  cases activity with
  | request => rfl
  | _ => cases h

theorem Activity.submits_of_submitter {activity : Activity} {tenant_id : String}
    (h : activity.submitter = some tenant_id) : activity.submits = true := by
  cases activity with
  | request principal asked => cases asked <;> first | rfl | cases h
  | _ => cases h

namespace Slots

open Finished (read_of stored_by finishes current since_read since_read_other since_read_read
  since_read_own closed closed_other closed_read closed_own)

-- The event has given back the job's slot.
def gives_back (job_id : String) : ServiceEvent ι → Bool
  | ⟨_, .release_job_slot _ id, .ok _⟩ => id = job_id
  | _ => false

-- The envelopes the event has had from the queue.
def handed : ServiceEvent ι → List JobEnvelope
  | ⟨_, .queue _, .ok reply⟩ => reply.handed
  | _ => []

def Handed (trace : List (ServiceEvent ι)) (envelope : JobEnvelope) : Prop :=
  ∃ event ∈ trace, envelope ∈ handed event

theorem Handed.mono {trace trace' : List (ServiceEvent ι)} {envelope : JobEnvelope}
    (h : Handed trace envelope) (hs : trace ⊆ trace') : Handed trace' envelope := by
  obtain ⟨event, hevent, hmem⟩ := h
  exact ⟨event, hs hevent, hmem⟩

def Refuses : ServiceEvent ι → Prop
  | ⟨_, .queue (.enqueue _ _ _ _), .ok (.bool false)⟩ => True
  | _ => False

-- Where a submission stands with the slot it takes: it has none yet, it has one, it
-- has created the record besides, the slot is the job's, or it is given back.
inductive Phase where
  | idle
  | acquired
  | created (job_id : String)
  | passed
  | returned
  deriving DecidableEq

namespace Phase

def holds : Phase → Bool
  | acquired | created _ => true
  | idle | passed | returned => false

def next (phase : Phase) : ServiceEvent ι → Phase
  | ⟨_, .acquire_job_slot _, .ok true⟩ => acquired
  | ⟨_, .jobs_set_if_absent job_id _, .ok true⟩ => created job_id
  | ⟨_, .queue (.enqueue _ _ _ _), .ok (.bool true)⟩ => passed
  | ⟨_, .release_job_slot _ _, .ok _⟩ => returned
  | _ => phase

end Phase

section Trace

variable [DecidableEq ι] (thread : ι) (job_id : String)

def phase : List (ServiceEvent ι) → Phase
  | [] => .idle
  | event :: rest => if event.thread = thread then (phase rest).next event else phase rest

-- The thread has given back the job's slot since it last read the record.
def spent : List (ServiceEvent ι) → Bool := since_read thread job_id (gives_back job_id)

variable {thread} {job_id} {event : ServiceEvent ι} {trace : List (ServiceEvent ι)}

theorem phase_other (h : event.thread ≠ thread) :
    phase thread (event :: trace) = phase thread trace := by
  simp [phase, h]

theorem phase_own (h : event.thread = thread) :
    phase thread (event :: trace) = (phase thread trace).next event := by
  simp [phase, h]

theorem phase_after {op : ServiceOp} {reply : op.Reply} {after : Phase}
    (h : (phase thread trace).next (⟨thread, op, reply⟩ : ServiceEvent ι) = after) :
    phase thread (⟨thread, op, reply⟩ :: trace) = after :=
  (phase_own rfl).trans h

theorem holds_after {op : ServiceOp} {reply : op.Reply} {after : Phase}
    (h : (phase thread trace).next (⟨thread, op, reply⟩ : ServiceEvent ι) = after)
    (hholds : after.holds = true) : (phase thread (⟨thread, op, reply⟩ :: trace)).holds = true := by
  rwa [phase_after h]

theorem spent_other (h : event.thread ≠ thread) :
    spent thread job_id (event :: trace) = spent thread job_id trace :=
  since_read_other h

theorem spent_read {job : JobStatus} (h : event.thread = thread)
    (hread : read_of job_id event = some job) : spent thread job_id (event :: trace) = false :=
  since_read_read h hread

theorem spent_own (h : event.thread = thread) (hread : read_of job_id event = none) :
    spent thread job_id (event :: trace) =
      (gives_back job_id event || spent thread job_id trace) :=
  since_read_own h hread

end Trace

section Discipline

variable [DecidableEq ι] (activity : ι → Activity)

-- The condition on a step: a worker that stores a record is current, and one that gives back a
-- slot has stored the final record since it read it; a submission fails neither on its audit
-- event, nor on the record it reads once its slot is given back.
def Prudent (trace : List (ServiceEvent ι)) : ServiceEvent ι → Prop
  | ⟨thread, .jobs_set job_id _, .ok _⟩ => (activity thread).works = true →
      current thread job_id trace = true
  | ⟨thread, .release_job_slot _ job_id, .ok _⟩ => (activity thread).works = true →
      closed thread job_id trace = true
  | ⟨thread, .append_audit _ _ _ _, .error _⟩ => (activity thread).submits = false
  | ⟨thread, .jobs_get _, .error _⟩ | ⟨thread, .jobs_get _, .ok none⟩ =>
      (activity thread).submits = true → phase thread trace ≠ .returned
  | _ => True

instance (trace : List (ServiceEvent ι)) :
    (event : ServiceEvent ι) → Decidable (Prudent activity trace event)
  | ⟨_, .jobs_set _ _, .ok _⟩ | ⟨_, .release_job_slot _ _, .ok _⟩ =>
      inferInstanceAs (Decidable (_ → _))
  | ⟨_, .append_audit _ _ _ _, .error _⟩ => inferInstanceAs (Decidable (_ = _))
  | ⟨_, .jobs_get _, .error _⟩ | ⟨_, .jobs_get _, .ok none⟩ => inferInstanceAs (Decidable (_ → _))
  | ⟨_, .jobs_set _ _, .error _⟩ | ⟨_, .release_job_slot _ _, .error _⟩
  | ⟨_, .append_audit _ _ _ _, .ok _⟩ | ⟨_, .jobs_get _, .ok (some _)⟩
  | ⟨_, .jobs_set_if_absent _ _, _⟩ | ⟨_, .jobs_delete _, _⟩ | ⟨_, .jobs_values, _⟩
  | ⟨_, .results_get _, _⟩ | ⟨_, .results_set _ _, _⟩ | ⟨_, .enforce_rate_limit _, _⟩
  | ⟨_, .acquire_job_slot _, _⟩ | ⟨_, .queue _, _⟩ | ⟨_, .run_research _, _⟩ | ⟨_, .heartbeat, _⟩
  | ⟨_, .now, _⟩ | ⟨_, .uuid4, _⟩ => .isTrue trivial

-- A submission acquires one slot, creates one record, enqueues that job for the
-- tenant of the slot and gives back no slot it does not have. A worker gives back
-- one slot for every reading, that of the envelope it has from the queue.
def Admits (thread : ι) (trace : List (ServiceEvent ι)) : ServiceOp → Prop
  | .acquire_job_slot tenant_id =>
      (activity thread).submitter = some tenant_id ∧ phase thread trace = .idle
  | .jobs_set_if_absent _ _ => phase thread trace = .acquired
  | .queue (.enqueue job_id _ _ tenant_id) =>
      (activity thread).submitter = some tenant_id ∧ phase thread trace = .created job_id
  | .queue (.retry envelope _) => Handed trace envelope
  | .jobs_delete _ => ∃ event ∈ trace, Refuses event
  | .release_job_slot tenant_id job_id =>
      (activity thread).submitter = some tenant_id ∧ (phase thread trace).holds = true ∨
        (activity thread).works = true ∧ spent thread job_id trace = false ∧
          ∃ envelope, Handed trace envelope ∧ envelope.job_id = job_id ∧
            envelope.tenant_id = tenant_id
  | _ => True

def Ordered : List (ServiceEvent ι) → Prop
  | [] => True
  | event :: rest => Admits activity event.thread rest event.op ∧ Ordered rest

-- What a thread knows of its own past stays true.
structure Later (thread : ι) (trace trace' : List (ServiceEvent ι)) : Prop where
  subset : trace ⊆ trace'
  phase : phase thread trace' = phase thread trace
  spent : ∀ job_id, spent thread job_id trace' = spent thread job_id trace

variable {activity} {thread : ι} {trace trace' trace'' : List (ServiceEvent ι)}

theorem Later.refl (thread : ι) (trace : List (ServiceEvent ι)) : Later thread trace trace :=
  ⟨List.Subset.refl _, rfl, fun _ => rfl⟩

theorem Later.trans (h : Later thread trace trace') (h' : Later thread trace' trace'') :
    Later thread trace trace'' :=
  ⟨List.Subset.trans h.subset h'.subset, h'.phase.trans h.phase,
    fun job_id => (h'.spent job_id).trans (h.spent job_id)⟩

theorem Later.other {event : ServiceEvent ι} (h : event.thread ≠ thread) :
    Later thread trace (event :: trace) :=
  ⟨List.subset_cons_self _ _, phase_other h, fun _ => spent_other h⟩

variable (activity) in
def discipline (settings : Settings) :
    Library.Discipline ι ServiceOp ServiceOp.Reply (Platform queue) where
  exec := service_step settings
  assumes w event := Prudent activity w.trace event ∧ Finished.Inv activity w
  inv w := Ordered activity w.trace
  rely thread w w' := Later thread w.trace w'.trace
  rely_refl thread w := .refl thread w.trace
  rely_trans _ := Later.trans

section Rules

variable {settings : Settings} {world : ServiceWorld ι queue} {α β : Type}

theorem wp_op {post : Except ServiceError β → ServiceWorld ι queue → Prop} {op : ServiceOp}
    {f : op.Value → ServiceProgram β}
    (hadmits : ∀ w : ServiceWorld ι queue, Later thread world.trace w.trace →
      Admits activity thread w.trace op)
    (hnext : ∀ (w : ServiceWorld ι queue) reply state, Later thread world.trace w.trace →
      Prudent activity w.trace ⟨thread, op, reply⟩ → Finished.Inv activity w →
      service_step settings thread w.state op reply state →
      (discipline activity settings).wp thread post (lift reply >>= f)
        (w.after ⟨thread, op, reply⟩ state)) :
    (discipline activity settings).wp thread post (perform op >>= f) world :=
  wp_perform fun w hw hinv reply state hstep => ⟨⟨hadmits w hw, hinv⟩,
    fun _ ho => Later.other (Ne.symm ho), hnext w reply state hw hstep.2.1 hstep.2.2 hstep.1⟩

-- The operations that matter neither to a slot nor to a reading.
def Quiet : ServiceOp → Prop
  | .acquire_job_slot _ | .jobs_set_if_absent _ _ | .jobs_delete _ | .release_job_slot _ _
  | .jobs_get _ | .queue (.enqueue _ _ _ _) | .queue (.retry _ _) => False
  | _ => True

theorem Quiet.admits {op : ServiceOp} (h : Quiet op) : Admits activity thread trace op := by
  cases op with
  | queue call => cases call <;> first | exact h.elim | trivial
  | _ => first | exact h.elim | trivial

omit [DecidableEq ι] in
theorem Quiet.next {op : ServiceOp} {reply : op.Reply} (h : Quiet op) (phase : Phase) :
    phase.next (⟨thread, op, reply⟩ : ServiceEvent ι) = phase := by
  cases op with
  | queue call => cases call <;> first | exact h.elim | rfl
  | _ => first | exact h.elim | rfl

theorem Quiet.later {op : ServiceOp} {reply : op.Reply} (h : Quiet op) :
    Later thread trace (⟨thread, op, reply⟩ :: trace) := by
  have hread : ∀ job_id, read_of job_id (⟨thread, op, reply⟩ : ServiceEvent ι) = none := by
    intro job_id
    cases op <;> first | exact h.elim | rfl
  have hback : ∀ job_id, gives_back job_id (⟨thread, op, reply⟩ : ServiceEvent ι) = false := by
    intro job_id
    cases op <;> first | exact h.elim | rfl
  refine ⟨List.subset_cons_self _ _, ?_, fun job_id => ?_⟩
  · exact (phase_own rfl).trans (h.next _)
  · rw [spent_own rfl (hread job_id), hback, Bool.false_or]

theorem wp_quiet {program : ServiceProgram α} (h : program.uses Quiet) :
    (discipline activity settings).wp thread (fun _ w => Later thread world.trace w.trace)
      program world :=
  Discipline.wp_of_uses (fun hrely hlater => Later.trans hlater hrely)
    (fun hop hinv hlater _ => ⟨⟨hop.admits, hinv⟩, fun _ ho => Later.other (Ne.symm ho),
      hlater.trans hop.later⟩) h (.refl _ _)

theorem wp_quiet_bind {post : Except ServiceError β → ServiceWorld ι queue → Prop}
    {program : ServiceProgram α} {f : α → ServiceProgram β} (h : program.uses Quiet)
    (hnext : ∀ (w : ServiceWorld ι queue) value, Later thread world.trace w.trace →
      (discipline activity settings).wp thread post (f value) w)
    (herror : ∀ (w : ServiceWorld ι queue) error, Later thread world.trace w.trace →
      post (.error error) w) :
    (discipline activity settings).wp thread post (program >>= f) world := by
  refine Discipline.wp_bind (Discipline.wp_mono (fun result w hw => ?_) (wp_quiet h))
  cases result with
  | ok value => exact hnext w value hw
  | error error => exact herror w error hw

-- The trace only grows.
theorem wp_handed {post : Except ServiceError α → ServiceWorld ι queue → Prop}
    {program : ServiceProgram α} {envelopes : List JobEnvelope}
    (hhanded : ∀ envelope ∈ envelopes, Handed world.trace envelope)
    (h : (discipline activity settings).wp thread post program world) :
    (discipline activity settings).wp thread
      (fun result w => post result w ∧ ∀ envelope ∈ envelopes, Handed w.trace envelope)
      program world :=
  Discipline.wp_frame (fun hrely hkeep envelope hmem => (hkeep envelope hmem).mono hrely.subset)
    (fun hkeep envelope hmem => (hkeep envelope hmem).mono (List.subset_cons_self _ _)) hhanded h

-- A call of the queue that puts nothing in.
theorem wp_queue {post : Except ServiceError β → ServiceWorld ι queue → Prop} {call : QueueCall}
    {read : QueueReply → Option α} {f : α → ServiceProgram β} (hquiet : Quiet (.queue call))
    (hnext : ∀ (w : ServiceWorld ι queue) value reply, Later thread world.trace w.trace →
      read reply = some value → (∀ envelope ∈ reply.handed, Handed w.trace envelope) →
      (discipline activity settings).wp thread post (f value) w)
    (herror : ∀ (w : ServiceWorld ι queue) error, post (.error error) w) :
    (discipline activity settings).wp thread post (Client.queue call read >>= f) world := by
  unfold Client.queue
  rw [Program.bind_assoc]
  refine wp_op (fun _ _ => hquiet.admits) fun w reply state hw _ _ _ => ?_
  cases reply with
  | error error => exact fun v _ _ => herror v error
  | ok reply =>
      simp only [lift_ok, Program.ret_bind]
      cases hread : read reply with
      | none => exact fun v _ _ => herror v _
      | some value =>
          exact hnext _ value reply (hw.trans hquiet.later) hread
            fun envelope hmem => ⟨_, List.mem_cons_self .., hmem⟩

end Rules

section Workers

variable {settings : Settings} {world : ServiceWorld ι queue} {envelope : JobEnvelope}
  {job_id : String} {job : JobStatus}

-- The envelope is from the queue, and the slot of its job not given back yet.
structure Underway (thread : ι) (envelope : JobEnvelope) (trace : List (ServiceEvent ι)) :
    Prop where
  handed : Handed trace envelope
  unspent : spent thread envelope.job_id trace = false

theorem Underway.later (h : Underway thread envelope trace) (hlater : Later thread trace trace') :
    Underway thread envelope trace' :=
  ⟨h.handed.mono hlater.subset, (hlater.spent _).trans h.unspent⟩

theorem Underway.admits (h : Underway thread envelope trace)
    (hworks : (activity thread).works = true) :
    Admits activity thread trace (.release_job_slot envelope.tenant_id envelope.job_id) :=
  .inr ⟨hworks, h.unspent, envelope, h.handed, rfl, rfl⟩

-- After giving back the slot the worker does nothing more about it.
theorem wp_release {f : Unit → ServiceProgram Unit} (hworks : (activity thread).works = true)
    (h : Underway thread envelope world.trace) (hrest : (f ()).uses Quiet) :
    (discipline activity settings).wp thread (fun _ _ => True)
      (Client.release_job_slot envelope.tenant_id envelope.job_id >>= f) world := by
  refine wp_op (fun w hw => (h.later hw).admits hworks) fun w reply state _ _ _ _ => ?_
  cases reply with
  | error => exact fun _ _ _ => trivial
  | ok value => exact Discipline.wp_mono (fun _ _ _ => trivial) (wp_quiet hrest)

theorem research_quiet (envelope : JobEnvelope) :
    (ResearchProcessor.research settings envelope).uses Quiet := by
  refine Program.uses_bind (lift_uses _) fun request =>
    Program.uses_bind (perform_uses trivial) fun state => ?_
  split <;> trivial

theorem fail_wp (hworks : (activity thread).works = true) (actor : Principal)
    (hid : job.job_id = envelope.job_id) (h : Underway thread envelope world.trace) :
    (discipline activity settings).wp thread (fun _ _ => True)
      (ResearchProcessor.fail envelope actor job) world := by
  unfold ResearchProcessor.fail
  refine wp_quiet_bind (perform_uses trivial) (fun w completed_at hw => ?_) fun _ _ _ => trivial
  simp only [hid]
  exact wp_release hworks (h.later hw)
    (Program.uses_bind (perform_uses trivial) fun _ => perform_uses trivial)

theorem finish_wp (hworks : (activity thread).works = true) (actor : Principal)
    (state : ResearchState Report) (hid : job.job_id = envelope.job_id)
    (h : Underway thread envelope world.trace) :
    (discipline activity settings).wp thread (fun _ _ => True)
      (ResearchProcessor.finish settings envelope actor job state) world := by
  unfold ResearchProcessor.finish
  simp only [hid]
  refine wp_quiet_bind (lift_uses _) (fun w report hw => ?_) fun _ _ _ => trivial
  refine wp_quiet_bind (perform_uses trivial) (fun v _ hv => ?_) fun _ _ _ => trivial
  refine wp_quiet_bind (perform_uses trivial) (fun u completed_at hu => ?_) fun _ _ _ => trivial
  refine wp_quiet_bind (perform_uses trivial) (fun t _ ht => ?_) fun _ _ _ => trivial
  exact wp_release hworks (h.later (((hw.trans hv).trans hu).trans ht)) (perform_uses trivial)

theorem run_wp (hworks : (activity thread).works = true) (actor : Principal)
    (hid : job.job_id = envelope.job_id) (h : Underway thread envelope world.trace) :
    (discipline activity settings).wp thread (fun _ _ => True)
      (ResearchProcessor.run settings envelope actor job) world := by
  unfold ResearchProcessor.run
  refine wp_quiet_bind (perform_uses trivial) (fun w _ hw => ?_) fun _ _ _ => trivial
  refine wp_quiet_bind (perform_uses trivial) (fun v _ hv => ?_) fun _ _ _ => trivial
  have hv := h.later (hw.trans hv)
  refine Discipline.wp_bind (Discipline.wp_attempt (Discipline.wp_mono (fun result u hu => ?_)
    (wp_quiet (research_quiet envelope))))
  cases result with
  | ok state => exact finish_wp hworks actor state hid (hv.later hu)
  | error error =>
      refine Discipline.wp_bind (Discipline.wp_mono (fun result _ _ => ?_)
        (?_ : (discipline activity settings).wp thread (fun _ _ => True)
          (ResearchProcessor.record_failure settings envelope actor _) u))
      · cases result with
        | ok => exact fun _ _ _ => trivial
        | error => trivial
      · unfold ResearchProcessor.record_failure
        split
        · exact fail_wp hworks actor hid (hv.later hu)
        · exact Discipline.wp_mono (fun _ _ _ => trivial) (wp_quiet
            (Program.uses_bind (perform_uses trivial) fun _ => perform_uses trivial))

-- A reading starts the worker's turn on the job.
theorem wp_read {β : Type} {post : Except ServiceError β → ServiceWorld ι queue → Prop}
    {f : Option JobStatus → ServiceProgram β} (hhanded : Handed world.trace envelope)
    (hmissing : ∀ w : ServiceWorld ι queue,
      (discipline activity settings).wp thread post (f none) w)
    (hfound : ∀ (w : ServiceWorld ι queue) job, job.job_id = envelope.job_id →
      Underway thread envelope w.trace →
      (discipline activity settings).wp thread post (f (some job)) w)
    (herror : ∀ (w : ServiceWorld ι queue) error, post (.error error) w) :
    (discipline activity settings).wp thread post
      (Client.jobs_get envelope.job_id >>= f) world := by
  refine wp_op (fun _ _ => trivial) fun w reply state hw _ hinv hstep => ?_
  cases reply with
  | error error => exact fun v _ _ => herror v error
  | ok value =>
      cases value with
      | none => exact hmissing _
      | some job =>
          have hread : read_of envelope.job_id
              (⟨thread, .jobs_get envelope.job_id, .ok (some job)⟩ : ServiceEvent ι) =
                some job := by simp [read_of]
          exact hfound _ job (hinv.stored _ job (jobs_get_step hstep).symm)
            ⟨hhanded.mono (List.subset_cons_of_subset _ hw.subset), spent_read rfl hread⟩

theorem call_wp (hworks : (activity thread).works = true)
    (hhanded : Handed world.trace envelope) :
    (discipline activity settings).wp thread (fun _ _ => True)
      (ResearchProcessor.call settings envelope) world :=
  wp_read hhanded (fun _ _ _ _ => trivial)
    (fun _ _ hid hunderway => wp_quiet_bind (lift_uses _)
      (fun _ actor hw => run_wp hworks actor hid (hunderway.later hw)) fun _ _ _ => trivial)
    fun _ _ => trivial

theorem fail_dead_letter_wp (hworks : (activity thread).works = true)
    (hid : job.job_id = envelope.job_id) (h : Underway thread envelope world.trace) :
    (discipline activity settings).wp thread (fun _ _ => True)
      (ResearchProcessor.fail_dead_letter envelope job) world := by
  unfold ResearchProcessor.fail_dead_letter
  refine wp_quiet_bind (perform_uses trivial) (fun w completed_at hw => ?_) fun _ _ _ => trivial
  simp only [hid]
  refine wp_quiet_bind (perform_uses trivial) (fun v _ hv => ?_) fun _ _ _ => trivial
  exact wp_release hworks (h.later (hw.trans hv)) (Program.uses_bind (lift_uses _) fun _ =>
    Program.uses_bind (perform_uses trivial) fun _ =>
    Program.uses_bind (queue_uses trivial) fun _ => trivial)

theorem reconcile_wp (hworks : (activity thread).works = true)
    (hhanded : Handed world.trace envelope) :
    (discipline activity settings).wp thread (fun _ _ => True)
      (ResearchProcessor.reconcile envelope) world := by
  refine wp_read hhanded (fun _ _ _ _ => trivial) (fun w job hid hunderway => ?_) fun _ _ => trivial
  simp only
  split
  · exact Discipline.wp_mono (fun _ _ _ => trivial)
      (wp_quiet (Program.uses_bind (queue_uses trivial) fun _ => trivial))
  · exact fail_dead_letter_wp hworks hid hunderway

theorem reconcile_each_wp (hworks : (activity thread).works = true) {envelopes : List JobEnvelope}
    (hhanded : ∀ envelope ∈ envelopes, Handed world.trace envelope) :
    (discipline activity settings).wp thread (fun _ _ => True)
      (ResearchProcessor.reconcile_each envelopes) world := by
  induction envelopes generalizing world with
  | nil => exact fun _ _ _ => trivial
  | cons envelope rest ih =>
      refine Discipline.wp_bind (Discipline.wp_mono (fun result w hw => ?_)
        (wp_handed (fun other hmem => hhanded other (List.mem_cons_of_mem _ hmem))
          (reconcile_wp hworks (hhanded envelope (List.mem_cons_self ..)))))
      cases result with
      | ok value => exact ih hw.2
      | error error => trivial

theorem reconcile_dead_letters_wp (hworks : (activity thread).works = true) :
    (discipline activity settings).wp thread (fun _ _ => True)
      ResearchProcessor.reconcile_dead_letters world := by
  refine wp_queue trivial (fun w envelopes reply hw hread hhanded => ?_) fun _ _ => trivial
  refine reconcile_each_wp hworks fun envelope hmem => hhanded envelope ?_
  cases reply with
  | envelopes value =>
      cases hread
      exact hmem
  | _ => cases hread

theorem process_wp (hworks : (activity thread).works = true)
    (hhanded : Handed world.trace envelope) :
    (discipline activity settings).wp thread (fun _ _ => True)
      (Worker.process settings envelope) world := by
  refine Discipline.wp_bind (Discipline.wp_attempt (Discipline.wp_mono (fun result w hw => ?_)
    (wp_handed (List.forall_mem_singleton.mpr hhanded) (call_wp hworks hhanded))))
  cases result with
  | ok value =>
      refine Discipline.wp_mono (fun _ _ _ => trivial) (wp_quiet (Program.uses_bind
        (perform_uses trivial) fun _ => Program.uses_bind (queue_uses trivial)
          fun acknowledged => ?_))
      cases acknowledged <;> trivial
  | error error =>
      refine wp_quiet_bind (perform_uses trivial) (fun v _ hv => ?_) fun _ _ _ => trivial
      have hhanded := (List.forall_mem_singleton.mp hw.2).mono hv.subset
      unfold Client.retry Client.queue
      rw [Program.bind_assoc]
      refine wp_op (fun u hu => hhanded.mono hu.subset)
        fun u reply state _ _ _ _ => ?_
      cases reply with
      | error => exact fun _ _ _ => trivial
      | ok reply =>
          simp only [lift_ok, Program.ret_bind]
          cases Client.read_outcome reply <;> exact fun _ _ _ => trivial

theorem run_once_wp (hworks : (activity thread).works = true) (set_order : SetOrder) :
    (discipline activity settings).wp thread (fun _ _ => True)
      (Worker.run_once settings set_order) world := by
  refine Discipline.wp_bind (Discipline.wp_mono (fun result _ _ => ?_)
    (reconcile_dead_letters_wp hworks))
  cases result with
  | error => trivial
  | ok value =>
      refine wp_queue trivial (fun v claimed reply hv hread hhanded => ?_) fun _ _ => trivial
      cases claimed with
      | none => exact fun _ _ _ => trivial
      | some envelope =>
          refine process_wp hworks (hhanded envelope ?_)
          cases reply with
          | claimed value =>
              cases hread
              exact Option.mem_toList.mpr rfl
          | _ => cases hread

end Workers

section Requests

open Server

variable {settings : Settings} {world : ServiceWorld ι queue} {principal : Principal}
  {tenant_id job_id : String} {job : JobStatus} {α β : Type}

-- The operations that matter not even to a submission's slot.
def Asking : ServiceOp → Prop
  | .jobs_get _ => True
  | op => Quiet op

theorem Asking.admits {op : ServiceOp} (h : Asking op) : Admits activity thread trace op := by
  cases op with
  | jobs_get => trivial
  | _ => exact Quiet.admits h

theorem Asking.later {op : ServiceOp} {reply : op.Reply} (h : Asking op) :
    phase thread (⟨thread, op, reply⟩ :: trace) = phase thread trace := by
  cases op with
  | jobs_get => exact phase_own rfl
  | _ => exact Later.phase (Quiet.later h)

theorem wp_asking {program : ServiceProgram α} (h : program.uses Asking) :
    (discipline activity settings).wp thread
      (fun _ w => phase thread w.trace = phase thread world.trace) program world :=
  Discipline.wp_of_uses (fun hrely hkeep => hrely.phase.trans hkeep)
    (fun hop hinv hkeep _ => ⟨⟨hop.admits, hinv⟩, fun _ ho => Later.other (Ne.symm ho),
      hop.later.trans hkeep⟩) h rfl

theorem wp_asking_bind {post : Except ServiceError β → ServiceWorld ι queue → Prop}
    {program : ServiceProgram α} {f : α → ServiceProgram β}
    (h : program.uses Asking)
    (hnext : ∀ (w : ServiceWorld ι queue) value, phase thread w.trace = phase thread world.trace →
      (discipline activity settings).wp thread post (f value) w)
    (herror : ∀ (w : ServiceWorld ι queue) error, phase thread w.trace = phase thread world.trace →
      post (.error error) w) :
    (discipline activity settings).wp thread post (program >>= f) world := by
  refine Discipline.wp_bind (Discipline.wp_mono (fun result w hw => ?_) (wp_asking h))
  cases result with
  | ok value => exact hnext w value hw
  | error error => exact herror w error hw

theorem Lookup.asking {op : ServiceOp} (h : Lookup op) : Asking op := by
  cases op <;> first | exact h.elim | trivial

theorem Review.asking {op : ServiceOp} (h : Review op) : Asking op := by
  cases op <;> first | exact h.elim | trivial

-- The postcondition of the part that may fail: if it has, the slot is still there.
def Keeps (thread : ι) (result : Except ServiceError JobStatus) (w : ServiceWorld ι queue) : Prop :=
  (∃ error, result = .error error) → (phase thread w.trace).holds = true

theorem keeps_ok (w : ServiceWorld ι queue) (value : JobStatus) : Keeps thread (.ok value) w :=
  fun ⟨_, h⟩ => by cases h

theorem wp_raise_keeps (error : ServiceError) (hholds : (phase thread world.trace).holds = true) :
    (discipline activity settings).wp thread (Keeps thread) (.raise error) world := by
  intro w hw _ _
  rwa [hw.phase]

section Submissions

variable (hsubmitter : (activity thread).submitter = some principal.tenant_id)

include hsubmitter

theorem job_submitted_wp (details : JSONObject) :
    (discipline activity settings).wp thread (Keeps thread) (do
      Client.append_audit "job_submitted" principal job.job_id details
      .ret job) world := by
  refine wp_op (fun _ _ => trivial) fun w reply state _ hprudent _ _ => ?_
  cases reply with
  | error error =>
      have hsubmits := Activity.submits_of_submitter hsubmitter
      rw [show (activity thread).submits = false from hprudent] at hsubmits
      cases hsubmits
  | ok value => exact fun v _ _ => keeps_ok v job

theorem enqueue_job_wp (request : ResearchRequest)
    (hphase : phase thread world.trace = .created job.job_id) :
    (discipline activity settings).wp thread (Keeps thread)
      (enqueue_job principal request job) world := by
  unfold enqueue_job Client.enqueue Client.queue
  rw [Program.bind_assoc]
  refine wp_op (fun w hw => ⟨hsubmitter, hw.phase.trans hphase⟩) fun w reply state hw _ _ _ => ?_
  have hphase := hw.phase.trans hphase
  cases reply with
  | error error => exact wp_raise_keeps error (holds_after hphase rfl)
  | ok reply =>
      simp only [lift_ok, Program.ret_bind]
      cases reply with
      | bool enqueued =>
          cases enqueued with
          | true => exact job_submitted_wp hsubmitter _
          | false =>
              refine wp_op (fun v hv => ⟨_, hv.subset (List.mem_cons_self ..), trivial⟩)
                fun v reply state hv _ _ _ => ?_
              have hphase := hv.phase.trans (phase_after hphase)
              cases reply <;>
                exact wp_raise_keeps _ (holds_after hphase rfl)
      | _ => exact wp_raise_keeps _ (holds_after hphase rfl)

theorem raced_job_wp (hholds : (phase thread world.trace).holds = true) :
    (discipline activity settings).wp thread (Keeps thread) (raced_job principal job_id) world := by
  refine wp_op (fun w hw => .inl ⟨hsubmitter, by rwa [hw.phase]⟩) fun w reply state hw _ _ _ => ?_
  cases reply with
  | error error =>
      exact wp_raise_keeps error (holds_after hw.phase hholds)
  | ok value =>
      simp only [lift_ok, Program.ret_bind]
      have hsubmits := Activity.submits_of_submitter hsubmitter
      refine wp_op (fun _ _ => trivial) fun v reply state hv hprudent _ _ => ?_
      have hreturned : phase thread v.trace = .returned := hv.phase.trans (phase_after rfl)
      cases reply with
      | error => exact absurd hreturned (hprudent hsubmits)
      | ok value =>
          cases value with
          | none => exact absurd hreturned (hprudent hsubmits)
          | some raced => exact fun u _ _ => keeps_ok u raced

theorem create_job_wp (request : ResearchRequest)
    (hphase : phase thread world.trace = .acquired) :
    (discipline activity settings).wp thread (Keeps thread)
      (create_job principal request job) world := by
  refine wp_op (fun w hw => hw.phase.trans hphase) fun w reply state hw _ _ _ => ?_
  have hphase := hw.phase.trans hphase
  cases reply with
  | error error => exact wp_raise_keeps error (holds_after hphase rfl)
  | ok created =>
      simp only [lift_ok, Program.ret_bind]
      cases created with
      | true => exact enqueue_job_wp hsubmitter request (phase_after rfl)
      | false => exact raced_job_wp hsubmitter (holds_after hphase rfl)

theorem reserve_job_wp (request : ResearchRequest) (hphase : phase thread world.trace = .idle) :
    (discipline activity settings).wp thread (fun _ _ => True)
      (reserve_job principal request job_id) world := by
  refine wp_op (fun w hw => ⟨hsubmitter, hw.phase.trans hphase⟩) fun w reply state _ _ _ _ => ?_
  cases reply with
  | error => exact fun _ _ _ => trivial
  | ok acquired =>
      cases acquired with
      | false => exact fun _ _ _ => trivial
      | true =>
          simp only [lift_ok, Program.ret_bind]
          refine wp_asking_bind (perform_uses trivial)
            (fun v created_at hv => ?_) fun _ _ _ => trivial
          refine Discipline.wp_attempt (Discipline.wp_mono (fun result u hu => ?_)
            (create_job_wp hsubmitter request (hv.trans (phase_after rfl))))
          cases result with
          | ok => trivial
          | error error =>
              refine wp_op (fun t ht => .inl ⟨hsubmitter, by rw [ht.phase]; exact hu ⟨error, rfl⟩⟩)
                fun t reply state _ _ _ _ => ?_
              cases reply <;> exact fun _ _ _ => trivial

theorem submit_research_wp (request : ResearchRequest) (idempotency_key : Option String)
    (hphase : phase thread world.trace = .idle) :
    (discipline activity settings).wp thread (fun _ _ => True)
      (submit_research settings principal request idempotency_key) world := by
  refine wp_asking_bind
    (Program.uses_mono (fun _ => Lookup.asking) (find_job_uses idempotency_key))
    (fun w found hw => ?_) fun _ _ _ => trivial
  rcases found with ⟨job_id, _ | existing⟩
  · exact reserve_job_wp hsubmitter request (hw.trans hphase)
  · exact fun _ _ _ => trivial

end Submissions

theorem serve_wp (asked : Request) (hactivity : activity thread = .request principal asked)
    (hphase : phase thread world.trace = .idle) :
    (discipline activity settings).wp thread (fun _ _ => True)
      (asked.serve settings principal) world := by
  cases asked with
  | submit request idempotency_key =>
      exact wp_seq (submit_research_wp (by rw [hactivity]; rfl) request idempotency_key hphase)
        fun _ _ _ _ _ => trivial
  | get job_id =>
      exact Discipline.wp_mono (fun _ _ _ => trivial) (wp_asking (Program.uses_bind
        (Program.uses_mono (fun _ => Lookup.asking) (get_research_result_uses job_id))
        fun _ => trivial))
  | list limit =>
      exact Discipline.wp_mono (fun _ _ _ => trivial) (wp_asking (Program.uses_bind
        (Program.uses_mono (fun _ => Lookup.asking) (list_jobs_uses limit)) fun _ => trivial))
  | approve job_id =>
      exact Discipline.wp_mono (fun _ _ _ => trivial) (wp_asking (Program.uses_bind
        (Program.uses_mono (fun _ => Review.asking) (approve_research_uses job_id))
        fun _ => trivial))
  | reject job_id reason =>
      exact Discipline.wp_mono (fun _ _ _ => trivial) (wp_asking (Program.uses_bind
        (Program.uses_mono (fun _ => Review.asking) (reject_research_uses job_id reason))
        fun _ => trivial))

end Requests

section Runs

variable {settings : Settings} {platform : Platform queue} {pool : ServicePool ι queue}

-- Every worker has its deliveries from the queue.
def Queued (activity : ι → Activity) : Prop :=
  ∀ thread envelope, activity thread ≠ .deliver envelope

theorem activity_wp (hqueued : Queued activity) (platform : Platform queue) :
    (discipline activity settings).wp thread (fun _ _ => True)
      ((activity thread).program settings) (⟨platform, []⟩ : ServiceWorld ι queue) := by
  cases hactivity : activity thread with
  | request principal asked =>
      exact wp_seq (serve_wp asked hactivity rfl) fun _ _ _ _ _ => trivial
  | deliver envelope => exact absurd hactivity (hqueued thread envelope)
  | reconcile =>
      have hworks : (activity thread).works = true := by rw [hactivity]; rfl
      exact wp_seq (reconcile_dead_letters_wp hworks) fun _ _ _ _ _ => trivial
  | run_once set_order =>
      have hworks : (activity thread).works = true := by rw [hactivity]; rfl
      exact wp_seq (run_once_wp hworks set_order) fun _ _ _ _ _ => trivial
  | heartbeat envelope beats =>
      exact wp_seq (Discipline.wp_mono (fun _ _ _ => trivial)
        (wp_quiet (renew_lease_uses trivial beats))) fun _ _ _ _ _ => trivial

-- Runs all of whose steps are prudent.
def Careful (activity : ι → Activity) (pool : ServicePool ι queue)
    (event : Option (ServiceEvent ι)) : Prop :=
  ∀ happened ∈ event, Prudent activity pool.world.trace happened

instance (activity : ι → Activity) (pool : ServicePool ι queue)
    (event : Option (ServiceEvent ι)) : Decidable (Careful activity pool event) :=
  inferInstanceAs (Decidable (∀ _ ∈ _, _))

theorem Prudent.heeds {event : ServiceEvent ι} (h : Prudent activity trace event) :
    Finished.Heeds activity trace event := by
  obtain ⟨thread, op, reply⟩ := event
  intro job_id hwritten hworks
  cases op with
  | jobs_set id job =>
      cases reply with
      | error => cases hwritten
      | ok =>
          cases hwritten
          exact h hworks
  | _ => cases hwritten

-- Nothing happens but what the threads do: no key's time to live runs out.
def Still : Platform queue → Platform queue → Prop := fun _ _ => False

theorem finished_of_run
    (hstored : ∀ job_id job, platform.jobs.get? job_id = some job → job.job_id = job_id)
    (hrun : Run (service_step settings) Still (Careful activity)
      (ServicePool.start settings platform activity) pool) : Finished.Inv activity pool.world :=
  Finished.inv_of_run hstored (hrun.mono
    (fun _ _ hcareful happened hmem => (hcareful happened hmem).heeds) fun _ _ h => h.elim)

theorem ordered_of_run (hqueued : Queued activity)
    (hstored : ∀ job_id job, platform.jobs.get? job_id = some job → job.job_id = job_id)
    (hrun : Run (service_step settings) Still (Careful activity)
      (ServicePool.start settings platform activity) pool) :
    Ordered activity pool.world.trace := by
  have hstart : (discipline activity settings).inv
      (ServicePool.start settings platform activity).world := trivial
  exact ((discipline activity settings).sound (fun _ _ _ => True) hstart
    (fun _ => activity_wp hqueued platform) (fun _ he => he.elim) (fun h => ⟨h.1 _ rfl, h.2⟩)
    (hrun.with_invariant fun _ ha => finished_of_run hstored ha)).1

end Runs

end Discipline

end Slots

end ResearchAgent.Service
