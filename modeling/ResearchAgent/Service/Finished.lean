import ResearchAgent.Service.Runs

namespace ResearchAgent.Service

open Library JobQueue

variable {ι : Type} {queue : Queue}

-- The activities that deliver a job or reconcile dead letters.
def Activity.works : Activity → Bool
  | deliver _ | reconcile | run_once _ => true
  | request _ _ | heartbeat _ _ => false

def Activity.reviews : Activity → Bool
  | request _ (.approve _) | request _ (.reject _ _) => true
  | _ => false

theorem Activity.reviews_of_works {activity : Activity} (h : activity.works = true) :
    activity.reviews = false := by
  cases activity with
  | request => cases h
  | _ => rfl

def Activity.submits : Activity → Bool
  | request _ (.submit _ _) => true
  | _ => false

namespace Finished

-- The record the event has read, or stored, under the id.
def read_of (job_id : String) : ServiceEvent ι → Option JobStatus
  | ⟨_, .jobs_get id, .ok (some job)⟩ => if id = job_id then some job else none
  | _ => none

def stored_by (job_id : String) : ServiceEvent ι → Option JobStatus
  | ⟨_, .jobs_set id job, .ok _⟩ => if id = job_id then some job else none
  | _ => none

-- The record the event has stored anything under.
def written : ServiceEvent ι → Option String
  | ⟨_, .jobs_set job_id _, .ok _⟩ => some job_id
  | _ => none

def finishes (job_id : String) (event : ServiceEvent ι) : Bool :=
  (stored_by job_id event).any fun job => job.status.final

section Records

variable {settings : Settings} {thread : ι} {p p' : Platform queue} {op : ServiceOp}
  {reply : op.Reply} {job_id : String} {job : JobStatus}

theorem stored_by_error (thread : ι) (op : ServiceOp) (error : ServiceError) :
    stored_by job_id (⟨thread, op, .error error⟩ : ServiceEvent ι) = none := by
  cases op <;> rfl

theorem read_of_of_stored {event : ServiceEvent ι} (h : stored_by job_id event = some job) :
    read_of job_id event = none := by
  obtain ⟨thread, op, reply⟩ := event
  cases op with
  | jobs_set => rfl
  | _ => cases h

theorem event_of_stored {event : ServiceEvent ι} (h : stored_by job_id event = some job) :
    event = ⟨event.thread, .jobs_set job_id job, .ok ()⟩ := by
  obtain ⟨thread, op, reply⟩ := event
  cases op with
  | jobs_set id new =>
      cases reply with
      | error => cases h
      | ok =>
          simp only [stored_by] at h
          split at h
          · next hid => cases h; rw [hid]
          · cases h
  | _ => cases h

-- A record that is there after a step was stored by it, created by it or left.
theorem record_step (hstep : service_step settings thread p op reply p')
    (hget : p'.jobs.get? job_id = some job) :
    stored_by job_id ⟨thread, op, reply⟩ = some job ∨
      op = .jobs_set_if_absent job_id job ∧ p.jobs.get? job_id = none ∨
      stored_by job_id ⟨thread, op, reply⟩ = none ∧ p.jobs.get? job_id = some job := by
  rcases service_step_cases hstep with ⟨error, rfl, rfl⟩ | ⟨outcome, ho⟩
  · exact .inr (.inr ⟨stored_by_error thread op error, hget⟩)
  · cases op with
    | jobs_set id new =>
        cases ho
        simp only [Dict.get?_set] at hget
        by_cases hid : job_id = id
        · subst hid
          simp only [ite_true, Option.some.injEq] at hget
          exact .inl (by simp [stored_by, hget])
        · simp only [hid, ite_false] at hget
          exact .inr (.inr ⟨by simp [stored_by, Ne.symm hid], hget⟩)
    | jobs_set_if_absent id new =>
        simp only [Platform.effect, Platform.set_if_absent] at ho
        split at ho
        · cases ho
          exact .inr (.inr ⟨rfl, hget⟩)
        · next habsent =>
            cases ho
            have hget : (p.jobs.set id new).get? job_id = some job := hget
            simp only [Dict.get?_set] at hget
            by_cases hid : job_id = id
            · subst hid
              simp only [ite_true, Option.some.injEq] at hget
              exact .inr (.inl ⟨by rw [hget], by simpa [Dict.contains] using habsent⟩)
            · simp only [hid, ite_false] at hget
              exact .inr (.inr ⟨rfl, hget⟩)
    | jobs_delete id =>
        cases ho
        simp only [Dict.get?_erase] at hget
        split at hget
        · cases hget
        · exact .inr (.inr ⟨rfl, hget⟩)
    | acquire_job_slot tenant_id =>
        simp only [Platform.effect, Platform.acquire_job_slot] at ho
        split at ho <;> (cases ho; exact .inr (.inr ⟨rfl, hget⟩))
    | _ => cases ho; exact .inr (.inr ⟨rfl, hget⟩)

-- Where nothing is created or deleted, a record changes by being stored.
theorem record_after (hstep : service_step settings thread p op reply p')
    (hcreate : ∀ id job, op ≠ .jobs_set_if_absent id job) (hdelete : ∀ id, op ≠ .jobs_delete id)
    (job_id : String) : p'.jobs.get? job_id =
      (stored_by job_id (⟨thread, op, reply⟩ : ServiceEvent ι)).or (p.jobs.get? job_id) := by
  rcases service_step_cases hstep with ⟨error, rfl, rfl⟩ | ⟨outcome, ho⟩
  · rw [stored_by_error, Option.none_or]
  · cases op with
    | jobs_set id job =>
        cases ho
        simp only [Dict.get?_set, stored_by, eq_comm (b := id)]
        split <;> rfl
    | jobs_set_if_absent id job => exact absurd rfl (hcreate id job)
    | jobs_delete id => exact absurd rfl (hdelete id)
    | acquire_job_slot tenant_id =>
        simp only [Platform.effect, Platform.acquire_job_slot] at ho
        split at ho <;> (cases ho; rfl)
    | _ => cases ho; rfl

theorem read_step (hstep : service_step settings thread p op reply p')
    (hread : read_of job_id (⟨thread, op, reply⟩ : ServiceEvent ι) = some job) :
    p.jobs.get? job_id = some job ∧ p'.jobs = p.jobs := by
  cases op with
  | jobs_get id =>
      rcases service_step_cases hstep with ⟨error, rfl, rfl⟩ | ⟨outcome, ho⟩
      · cases hread
      · cases ho
        cases hget : p.jobs.get? id with
        | none => simp [read_of, hget] at hread
        | some found =>
            simp only [read_of, hget] at hread
            split at hread
            · next hid => cases hread; exact ⟨hid ▸ hget, rfl⟩
            · cases hread
  | _ => cases hread

end Records

section Trace

variable [DecidableEq ι] (thread : ι) (job_id : String)

-- When the thread last read the record it was not final, and no other thread has
-- stored a final one since.
def current : List (ServiceEvent ι) → Bool
  | [] => false
  | event :: rest =>
      if event.thread = thread then
        match read_of job_id event with
        | some job => !job.status.final
        | none => current rest
      else !finishes job_id event && current rest

-- Since it last read the record, the thread has done something of this kind.
def since_read (kind : ServiceEvent ι → Bool) : List (ServiceEvent ι) → Bool
  | [] => false
  | event :: rest =>
      if event.thread = thread then
        match read_of job_id event with
        | some _ => false
        | none => kind event || since_read kind rest
      else since_read kind rest

-- The thread itself has stored a final record since it last read it.
def closed : List (ServiceEvent ι) → Bool := since_read thread job_id (finishes job_id)

variable {thread} {job_id} {event : ServiceEvent ι} {trace : List (ServiceEvent ι)}

theorem current_other (h : event.thread ≠ thread) : current thread job_id (event :: trace) =
    (!finishes job_id event && current thread job_id trace) := by
  simp [current, h]

theorem current_read {job : JobStatus} (h : event.thread = thread)
    (hread : read_of job_id event = some job) :
    current thread job_id (event :: trace) = !job.status.final := by
  simp [current, h, hread]

theorem current_own (h : event.thread = thread) (hread : read_of job_id event = none) :
    current thread job_id (event :: trace) = current thread job_id trace := by
  simp [current, h, hread]

theorem since_read_other {kind : ServiceEvent ι → Bool} (h : event.thread ≠ thread) :
    since_read thread job_id kind (event :: trace) = since_read thread job_id kind trace := by
  simp [since_read, h]

theorem since_read_read {kind : ServiceEvent ι → Bool} {job : JobStatus} (h : event.thread = thread)
    (hread : read_of job_id event = some job) :
    since_read thread job_id kind (event :: trace) = false := by
  simp [since_read, h, hread]

theorem since_read_own {kind : ServiceEvent ι → Bool} (h : event.thread = thread)
    (hread : read_of job_id event = none) : since_read thread job_id kind (event :: trace) =
      (kind event || since_read thread job_id kind trace) := by
  simp [since_read, h, hread]

theorem closed_other (h : event.thread ≠ thread) :
    closed thread job_id (event :: trace) = closed thread job_id trace :=
  since_read_other h

theorem closed_read {job : JobStatus} (h : event.thread = thread)
    (hread : read_of job_id event = some job) : closed thread job_id (event :: trace) = false :=
  since_read_read h hread

theorem closed_own (h : event.thread = thread) (hread : read_of job_id event = none) :
    closed thread job_id (event :: trace) =
      (finishes job_id event || closed thread job_id trace) :=
  since_read_own h hread

end Trace

section Discipline

variable [DecidableEq ι] (activity : ι → Activity)

-- Only reviews and workers write a record that exists. What a review writes is
-- final, and a worker does not write again once it has stored a final record. Only
-- submissions create and delete.
def Permits (thread : ι) (trace : List (ServiceEvent ι)) : ServiceOp → Prop
  | .jobs_set job_id job => job.job_id = job_id ∧
      ((activity thread).reviews = true ∧ job.status.final = true ∨
        (activity thread).works = true ∧ closed thread job_id trace = false)
  | .jobs_set_if_absent job_id job => job.job_id = job_id ∧ job.status.final = false ∧
      (activity thread).submits = true
  | .jobs_delete _ => (activity thread).submits = true
  | _ => True

def Orderly : List (ServiceEvent ι) → Prop
  | [] => True
  | event :: rest => Permits activity event.thread rest event.op ∧ Orderly rest

structure Inv (world : ServiceWorld ι queue) : Prop where
  orderly : Orderly activity world.trace
  stored : ∀ job_id job, world.state.jobs.get? job_id = some job → job.job_id = job_id
  current : ∀ thread job_id job, current thread job_id world.trace = true →
    world.state.jobs.get? job_id = some job → job.status.final = true →
    (activity thread).works = true → closed thread job_id world.trace = true

-- The condition on a step: a worker that stores a record is current.
def Heeds (trace : List (ServiceEvent ι)) (event : ServiceEvent ι) : Prop :=
  ∀ job_id ∈ written event, (activity event.thread).works = true →
    current event.thread job_id trace = true

instance (trace : List (ServiceEvent ι)) (event : ServiceEvent ι) :
    Decidable (Heeds activity trace event) :=
  inferInstanceAs (Decidable (∀ _ ∈ _, _))

def discipline (settings : Settings) :
    Library.Discipline ι ServiceOp ServiceOp.Reply (Platform queue) where
  exec := service_step settings
  assumes w event := Heeds activity w.trace event
  inv := Inv activity
  rely thread w w' := ∀ job_id, closed thread job_id w'.trace = closed thread job_id w.trace
  rely_refl _ _ _ := rfl
  rely_trans _ _ _ _ h h' job_id := (h' job_id).trans (h job_id)

variable {activity} {settings : Settings} {thread : ι} {world : ServiceWorld ι queue}

theorem Inv.step {op : ServiceOp} {reply : op.Reply} {state : Platform queue}
    (hinv : Inv activity world) (hpermits : Permits activity thread world.trace op)
    (hstep : service_step settings thread world.state op reply state) :
    Inv activity (world.after ⟨thread, op, reply⟩ state) := by
  refine ⟨⟨hpermits, hinv.orderly⟩, ?_, ?_⟩
  · intro job_id job hget
    rcases record_step hstep hget with hstored | ⟨rfl, -⟩ | ⟨-, hget⟩
    · cases event_of_stored hstored
      exact hpermits.1
    · exact hpermits.1
    · exact hinv.stored job_id job hget
  · intro other job_id job hcurrent hget hfinal hworks
    rcases record_step hstep hget with hstored | ⟨rfl, -⟩ | ⟨hnone, hget⟩
    · have hfinishes : finishes job_id (⟨thread, op, reply⟩ : ServiceEvent ι) = true := by
        simp [finishes, hstored, hfinal]
      by_cases ht : thread = other
      · rw [World.after_trace, closed_own ht (read_of_of_stored hstored), hfinishes, Bool.true_or]
      · rw [World.after_trace, current_other ht, hfinishes] at hcurrent
        cases hcurrent
    · rw [hpermits.2.1] at hfinal
      cases hfinal
    · by_cases ht : thread = other
      · cases hread : read_of job_id (⟨thread, op, reply⟩ : ServiceEvent ι) with
        | some read =>
            rw [World.after_trace, current_read ht hread] at hcurrent
            rw [(read_step hstep hread).1] at hget
            cases hget
            simp [hfinal] at hcurrent
        | none =>
            rw [World.after_trace, current_own ht hread] at hcurrent
            rw [World.after_trace, closed_own ht hread,
              hinv.current other job_id job hcurrent hget hfinal hworks, Bool.or_true]
      · rw [World.after_trace, current_other ht, Bool.and_eq_true] at hcurrent
        rw [World.after_trace, closed_other ht]
        exact hinv.current other job_id job hcurrent.2 hget hfinal hworks

theorem Inv.elapse {state : Platform queue} (hinv : Inv activity world)
    (he : Elapse world.state state) : Inv activity ⟨state, world.trace⟩ := by
  cases he with
  | job_expires job_id =>
      have hold : ∀ {other job}, (world.state.jobs.erase job_id).get? other = some job →
          world.state.jobs.get? other = some job := by
        intro other job hget
        simp only [Dict.get?_erase] at hget
        split at hget
        · cases hget
        · exact hget
      exact ⟨hinv.orderly, fun other job hget => hinv.stored other job (hold hget),
        fun thread other job hcurrent hget => hinv.current thread other job hcurrent (hold hget)⟩
  | result_expires | slots_expire | queue => exact ⟨hinv.orderly, hinv.stored, hinv.current⟩

section Rules

variable {α β : Type} {job_id : String} {job : JobStatus}

theorem wp_op {post : Except ServiceError β → ServiceWorld ι queue → Prop} {op : ServiceOp}
    {f : op.Value → ServiceProgram β}
    (hpermits : ∀ w : ServiceWorld ι queue,
      (∀ job_id, closed thread job_id w.trace = closed thread job_id world.trace) →
      Permits activity thread w.trace op)
    (hnext : ∀ (w : ServiceWorld ι queue) reply state, (∀ job_id, closed thread job_id w.trace =
        closed thread job_id world.trace) → Inv activity w →
      service_step settings thread w.state op reply state →
      (discipline activity settings).wp thread post (lift reply >>= f)
        (w.after ⟨thread, op, reply⟩ state)) :
    (discipline activity settings).wp thread post (perform op >>= f) world :=
  wp_perform fun w hw hinv reply state hstep =>
    ⟨Inv.step hinv (hpermits w hw) hstep.1, fun _ ho _ => closed_other (Ne.symm ho),
      hnext w reply state hw hinv hstep.1⟩

-- Programs whose operations are in order whatever came before.
theorem wp_always {program : ServiceProgram α}
    (h : program.uses fun op => ∀ trace, Permits activity thread trace op) :
    (discipline activity settings).wp thread (fun _ _ => True) program world :=
  Discipline.wp_of_uses (fun _ _ => trivial)
    (fun hop hinv _ hstep => ⟨hinv.step (hop _) hstep.1, fun _ ho _ => closed_other (Ne.symm ho),
      trivial⟩) h trivial

-- The operations of a worker that leave the job open for it.
def Open (job_id : String) : ServiceOp → Prop
  | .jobs_set id job => id = job_id ∧ job.job_id = id ∧ job.status.final = false
  | .jobs_set_if_absent _ _ | .jobs_delete _ => False
  | _ => True

-- The operations that leave the records alone.
def Silent : ServiceOp → Prop
  | .jobs_set _ _ | .jobs_set_if_absent _ _ | .jobs_delete _ => False
  | _ => True

theorem Silent.permits {op : ServiceOp} (h : Silent op) (trace : List (ServiceEvent ι)) :
    Permits activity thread trace op := by
  cases op <;> first | exact h.elim | trivial

theorem Open.permits {op : ServiceOp} {trace : List (ServiceEvent ι)} (h : Open job_id op)
    (hworks : (activity thread).works = true) (hopen : closed thread job_id trace = false) :
    Permits activity thread trace op := by
  cases op with
  | jobs_set id job => exact ⟨h.2.1, .inr ⟨hworks, h.1 ▸ hopen⟩⟩
  | jobs_set_if_absent | jobs_delete => exact h.elim
  | _ => trivial

theorem Open.keeps {op : ServiceOp} {reply : op.Reply} {trace : List (ServiceEvent ι)}
    (h : Open job_id op) (hopen : closed thread job_id trace = false) :
    closed thread job_id (⟨thread, op, reply⟩ :: trace) = false := by
  cases hread : read_of job_id (⟨thread, op, reply⟩ : ServiceEvent ι) with
  | some read => exact closed_read rfl hread
  | none =>
      rw [closed_own rfl hread, hopen, Bool.or_false]
      cases hstored : stored_by job_id (⟨thread, op, reply⟩ : ServiceEvent ι) with
      | none => simp [finishes, hstored]
      | some new =>
          cases event_of_stored hstored
          simp [finishes, hstored, h.2.2]

theorem wp_silent {program : ServiceProgram α} (h : program.uses Silent) :
    (discipline activity settings).wp thread (fun _ _ => True) program world :=
  wp_always (Program.uses_mono (fun _ hop _ => hop.permits _) h)

theorem wp_open {program : ServiceProgram α} (hworks : (activity thread).works = true)
    (h : program.uses (Open job_id)) (hopen : closed thread job_id world.trace = false) :
    (discipline activity settings).wp thread
      (fun _ w => closed thread job_id w.trace = false) program world :=
  Discipline.wp_of_uses (fun hrely hkeep => (hrely job_id).trans hkeep)
    (fun hop hinv hkeep hstep => ⟨hinv.step (hop.permits hworks hkeep) hstep.1,
      fun _ ho _ => closed_other (Ne.symm ho), hop.keeps hkeep⟩) h hopen

theorem wp_open_bind {program : ServiceProgram α} {f : α → ServiceProgram β}
    (hworks : (activity thread).works = true) (h : program.uses (Open job_id))
    (hopen : closed thread job_id world.trace = false)
    (hnext : ∀ (w : ServiceWorld ι queue) value, closed thread job_id w.trace = false →
      (discipline activity settings).wp thread (fun _ _ => True) (f value) w) :
    (discipline activity settings).wp thread (fun _ _ => True) (program >>= f) world := by
  refine Discipline.wp_bind (Discipline.wp_mono (fun result w hw => ?_) (wp_open hworks h hopen))
  cases result with
  | ok value => exact hnext w value hw
  | error => trivial

-- The last write to the record, with nothing but silence after it.
theorem wp_close {f : Unit → ServiceProgram β} (hworks : (activity thread).works = true)
    (hid : job.job_id = job_id)
    (hopen : closed thread job_id world.trace = false) (h : (f ()).uses Silent) :
    (discipline activity settings).wp thread (fun _ _ => True)
      (perform (.jobs_set job_id job) >>= f) world := by
  refine wp_op (fun w hw => ⟨hid, .inr ⟨hworks, (hw job_id).trans hopen⟩⟩)
    fun w reply state _ _ _ => ?_
  cases reply with
  | ok value => exact wp_silent h
  | error => exact fun _ _ _ => trivial

end Rules

section Programs

variable {job_id : String} {job : JobStatus}

theorem Plumbing.silent {op : ServiceOp} (h : Plumbing op) : Silent op := by
  cases op <;> first | exact h.elim | trivial

theorem wp_plumbing {α : Type} {program : ServiceProgram α} (h : program.uses Plumbing) :
    (discipline activity settings).wp thread (fun _ _ => True) program world :=
  wp_silent (Program.uses_mono (fun _ => Plumbing.silent) h)

theorem research_open (envelope : JobEnvelope) :
    (ResearchProcessor.research settings envelope).uses (Open job_id) := by
  refine Program.uses_bind (lift_uses _) fun request =>
    Program.uses_bind (perform_uses trivial) fun state => ?_
  split <;> trivial

-- After a read the job is open for the thread again.
theorem wp_read {β : Type} {f : Option JobStatus → ServiceProgram β}
    (hmissing : ∀ w : ServiceWorld ι queue,
      (discipline activity settings).wp thread (fun _ _ => True) (f none) w)
    (hfound : ∀ (w : ServiceWorld ι queue) job, closed thread job.job_id w.trace = false →
      (discipline activity settings).wp thread (fun _ _ => True) (f (some job)) w) :
    (discipline activity settings).wp thread (fun _ _ => True)
      (Client.jobs_get job_id >>= f) world := by
  refine wp_op (fun _ _ => trivial) fun w reply state hw hinv hstep => ?_
  cases reply with
  | error => exact fun _ _ _ => trivial
  | ok value =>
      cases value with
      | none => exact hmissing _
      | some job =>
          obtain rfl := hinv.stored job_id job (jobs_get_step hstep).symm
          have hread : read_of job.job_id (⟨thread, .jobs_get job.job_id, .ok (some job)⟩ :
              ServiceEvent ι) = some job := by simp [read_of]
          exact hfound _ job (closed_read rfl hread)

section Workers

variable (hworks : (activity thread).works = true)

include hworks

theorem schedule_retry_wp (envelope : JobEnvelope) (actor : Principal)
    (hopen : closed thread job.job_id world.trace = false) :
    (discipline activity settings).wp thread (fun _ _ => True)
      (ResearchProcessor.schedule_retry envelope actor job) world :=
  wp_close hworks rfl hopen (perform_uses trivial)

theorem fail_wp (envelope : JobEnvelope) (actor : Principal)
    (hopen : closed thread job.job_id world.trace = false) :
    (discipline activity settings).wp thread (fun _ _ => True)
      (ResearchProcessor.fail envelope actor job) world :=
  wp_open_bind hworks (perform_uses trivial) hopen fun _ _ hopen =>
    wp_open_bind hworks (perform_uses trivial) hopen fun _ _ hopen =>
    wp_close hworks rfl hopen (perform_uses trivial)

theorem record_failure_wp (envelope : JobEnvelope) (actor : Principal)
    (hopen : closed thread job.job_id world.trace = false) :
    (discipline activity settings).wp thread (fun _ _ => True)
      (ResearchProcessor.record_failure settings envelope actor job) world := by
  unfold ResearchProcessor.record_failure
  split
  · exact fail_wp hworks envelope actor hopen
  · exact schedule_retry_wp hworks envelope actor hopen

theorem finish_wp (envelope : JobEnvelope) (actor : Principal) (state : ResearchState Report)
    (hopen : closed thread job.job_id world.trace = false) :
    (discipline activity settings).wp thread (fun _ _ => True)
      (ResearchProcessor.finish settings envelope actor job state) world :=
  wp_open_bind hworks (lift_uses _) hopen fun _ _ hopen =>
    wp_open_bind hworks (perform_uses trivial) hopen fun _ _ hopen =>
    wp_open_bind hworks (perform_uses trivial) hopen fun _ _ hopen =>
    wp_close hworks rfl hopen
      (Program.uses_bind (perform_uses trivial) fun _ => perform_uses trivial)

theorem run_wp (envelope : JobEnvelope) (actor : Principal)
    (hopen : closed thread job.job_id world.trace = false) :
    (discipline activity settings).wp thread (fun _ _ => True)
      (ResearchProcessor.run settings envelope actor job) world := by
  refine wp_open_bind hworks (perform_uses ⟨rfl, rfl, rfl⟩) hopen fun _ _ hopen =>
    wp_open_bind hworks (perform_uses trivial) hopen fun w _ hopen => ?_
  refine Discipline.wp_bind (Discipline.wp_attempt (Discipline.wp_mono (fun result v hopen => ?_)
    (wp_open hworks (research_open envelope) hopen)))
  cases result with
  | ok state => exact finish_wp hworks envelope actor state hopen
  | error error =>
      refine Discipline.wp_bind (Discipline.wp_mono (fun result u _ => ?_)
        (record_failure_wp hworks envelope actor hopen))
      cases result with
      | ok => exact fun _ _ _ => trivial
      | error => trivial

theorem fail_dead_letter_wp (envelope : JobEnvelope)
    (hopen : closed thread job.job_id world.trace = false) :
    (discipline activity settings).wp thread (fun _ _ => True)
      (ResearchProcessor.fail_dead_letter envelope job) world :=
  wp_open_bind hworks (perform_uses trivial) hopen fun _ _ hopen =>
    wp_close hworks rfl hopen (Program.uses_bind (perform_uses trivial) fun _ =>
      Program.uses_bind (lift_uses _) fun _ => Program.uses_bind (perform_uses trivial) fun _ =>
      Program.uses_bind (queue_uses trivial) fun _ => trivial)

theorem call_wp (envelope : JobEnvelope) :
    (discipline activity settings).wp thread (fun _ _ => True)
      (ResearchProcessor.call settings envelope) world :=
  wp_read (fun _ _ _ _ => trivial) fun _ _ hopen =>
    wp_open_bind hworks (lift_uses _) hopen fun _ actor hopen => run_wp hworks envelope actor hopen

theorem reconcile_wp (envelope : JobEnvelope) :
    (discipline activity settings).wp thread (fun _ _ => True)
      (ResearchProcessor.reconcile envelope) world := by
  refine wp_read (fun _ _ _ _ => trivial) fun w job hopen => ?_
  simp only
  split
  · exact wp_silent (Program.uses_bind (queue_uses trivial) fun _ => trivial)
  · exact fail_dead_letter_wp hworks envelope hopen

end Workers

section Requests

open Server

theorem Lookup.silent {op : ServiceOp} (h : Lookup op) : Silent op := by
  cases op <;> first | exact h.elim | trivial

-- The operations of a submission.
def Submitted : ServiceOp → Prop
  | .jobs_set _ _ => False
  | .jobs_set_if_absent job_id job => job.job_id = job_id ∧ job.status.final = false
  | _ => True

theorem Submitted.permits {op : ServiceOp} (h : Submitted op)
    (hsubmits : (activity thread).submits = true) (trace : List (ServiceEvent ι)) :
    Permits activity thread trace op := by
  cases op with
  | jobs_set => exact h.elim
  | jobs_set_if_absent => exact ⟨h.1, h.2, hsubmits⟩
  | jobs_delete => exact hsubmits
  | _ => trivial

theorem Silent.submitted {op : ServiceOp} (h : Silent op) : Submitted op := by
  cases op <;> first | exact h.elim | trivial

theorem create_job_submitted (principal : Principal) (request : ResearchRequest)
    (hjob : job.status.final = false) :
    (create_job principal request job).uses Submitted := by
  refine Program.uses_bind (perform_uses ⟨rfl, hjob⟩) fun created => ?_
  cases created with
  | true =>
      refine Program.uses_bind (queue_uses trivial)
        fun enqueued => ?_
      cases enqueued with
      | true => exact Program.uses_bind (perform_uses trivial) fun _ => trivial
      | false => exact Program.uses_bind (perform_uses trivial) fun _ => trivial
  | false =>
      refine Program.uses_bind (perform_uses trivial) fun _ =>
        Program.uses_bind (perform_uses trivial) fun raced => ?_
      cases raced <;> trivial

theorem submit_research_submitted (principal : Principal) (request : ResearchRequest)
    (idempotency_key : Option String) :
    (submit_research settings principal request idempotency_key).uses Submitted := by
  refine Program.uses_bind (Program.uses_mono (fun _ h => (Lookup.silent h).submitted)
    (find_job_uses idempotency_key)) fun found => ?_
  rcases found with ⟨job_id, _ | existing⟩
  · refine Program.uses_bind (perform_uses trivial) fun acquired => ?_
    cases acquired with
    | true =>
        exact Program.uses_bind (perform_uses trivial) fun _ =>
          Program.uses_attempt (create_job_submitted principal request rfl) fun _ =>
          Program.uses_bind (perform_uses trivial) fun _ => trivial
    | false => trivial
  · trivial

theorem Review.permits {op : ServiceOp} (h : Review op)
    (hreviews : (activity thread).reviews = true) (trace : List (ServiceEvent ι)) :
    Permits activity thread trace op := by
  cases op with
  | jobs_set => exact ⟨h.1, .inl ⟨hreviews, h.2⟩⟩
  | jobs_set_if_absent | jobs_delete => exact h.elim
  | _ => trivial

theorem serve_wp (principal : Principal) (asked : Request)
    (hactivity : activity thread = .request principal asked) :
    (discipline activity settings).wp thread (fun _ _ => True)
      (asked.serve settings principal) world := by
  cases asked with
  | submit request idempotency_key =>
      have hsubmits : (activity thread).submits = true := by rw [hactivity]; rfl
      exact wp_always (Program.uses_mono (fun _ h trace => h.permits hsubmits trace)
        (Program.uses_bind (submit_research_submitted principal request idempotency_key)
          fun _ => trivial))
  | approve job_id =>
      have hreviews : (activity thread).reviews = true := by rw [hactivity]; rfl
      exact wp_always (Program.uses_mono (fun _ h trace => Review.permits h hreviews trace)
        (Program.uses_bind (approve_research_uses job_id) fun _ => trivial))
  | reject job_id reason =>
      have hreviews : (activity thread).reviews = true := by rw [hactivity]; rfl
      exact wp_always (Program.uses_mono (fun _ h trace => Review.permits h hreviews trace)
        (Program.uses_bind (reject_research_uses job_id reason) fun _ => trivial))
  | get job_id =>
      exact wp_silent (Program.uses_bind (Program.uses_mono (fun _ => Lookup.silent)
        (get_research_result_uses job_id)) fun _ => trivial)
  | list limit =>
      exact wp_silent (Program.uses_bind (Program.uses_mono (fun _ => Lookup.silent)
        (list_jobs_uses limit)) fun _ => trivial)

end Requests

theorem activity_wp : (discipline activity settings).wp thread (fun _ _ => True)
    ((activity thread).program settings) world := by
  cases hactivity : activity thread with
  | request principal asked =>
      exact wp_seq (serve_wp principal asked hactivity) fun _ _ _ _ _ => trivial
  | deliver envelope =>
      exact wp_seq (call_wp (by rw [hactivity]; rfl) envelope) fun _ _ _ _ _ => trivial
  | reconcile =>
      have hworks : (activity thread).works = true := by rw [hactivity]; rfl
      exact wp_seq (wp_reconcile_dead_letters (fun _ => wp_plumbing)
        fun envelope _ => reconcile_wp hworks envelope) fun _ _ _ _ _ => trivial
  | run_once set_order =>
      have hworks : (activity thread).works = true := by rw [hactivity]; rfl
      exact wp_seq (wp_run_once (fun _ => wp_plumbing)
        (fun envelope _ => reconcile_wp hworks envelope)
        (fun envelope _ => call_wp hworks envelope) set_order) fun _ _ _ _ _ => trivial
  | heartbeat envelope beats =>
      exact wp_seq (wp_silent (renew_lease_uses trivial beats)) fun _ _ _ _ _ => trivial

end Programs

end Discipline

-- Runs in which no worker stores a record on an outdated reading.
def Heeded [DecidableEq ι] (activity : ι → Activity) (pool : ServicePool ι queue)
    (event : Option (ServiceEvent ι)) : Prop :=
  ∀ happened ∈ event, Heeds activity pool.world.trace happened

instance [DecidableEq ι] (activity : ι → Activity) (pool : ServicePool ι queue)
    (event : Option (ServiceEvent ι)) : Decidable (Heeded activity pool event) :=
  inferInstanceAs (Decidable (∀ _ ∈ _, _))

section Runs

variable [DecidableEq ι] {settings : Settings} {activity : ι → Activity} {platform : Platform queue}
  {pool pool' : ServicePool ι queue}

theorem inv_start
    (hstored : ∀ job_id job, platform.jobs.get? job_id = some job → job.job_id = job_id) :
    Inv activity (ServicePool.start settings platform activity).world :=
  ⟨trivial, hstored, fun _ _ _ hcurrent => by cases hcurrent⟩

theorem inv_of_run
    (hstored : ∀ job_id job, platform.jobs.get? job_id = some job → job.job_id = job_id)
    (hrun : Run (service_step settings) Elapse (Heeded activity)
      (ServicePool.start settings platform activity) pool) : Inv activity pool.world :=
  ((discipline activity settings).sound (fun _ _ _ => True) (inv_start hstored)
    (fun _ => activity_wp) (fun hinv he => ⟨hinv.elapse he, fun _ _ => rfl⟩)
    (fun h => h _ rfl) hrun).1

-- A step of a worker changes no final record, one of a reader no record at all.
theorem keeps_final {event : ServiceEvent ι} {job_id : String} {job : JobStatus}
    (hinv : Inv activity pool.world) (hheeds : Heeds activity pool.world.trace event)
    (hpermits : Permits activity event.thread pool.world.trace event.op)
    (hstep : Step (service_step settings) Elapse pool (some event) pool')
    (hget : pool.world.state.jobs.get? job_id = some job) (hfinal : job.status.final = true)
    (hreviews : (activity event.thread).reviews = false) :
    pool'.world.state.jobs.get? job_id = some job ∨
      (activity event.thread).submits = true ∧ event.op = .jobs_delete job_id := by
  cases hstep with
  | @call thread op next reply state hthread hexec =>
      rcases service_step_cases hexec with ⟨error, -, rfl⟩ | ⟨outcome, ho⟩
      · exact .inl hget
      cases op with
      | jobs_set id new =>
          cases ho
          refine .inl ?_
          simp only [World.after_state, Dict.get?_set]
          split
          · next hid =>
              subst hid
              obtain ⟨hworks, hopen⟩ := hpermits.2.resolve_left fun h => by simp [hreviews] at h
              have hclosed := hinv.current thread job_id job (hheeds job_id rfl hworks) hget hfinal
                hworks
              rw [hopen] at hclosed
              cases hclosed
          · exact hget
      | jobs_set_if_absent id new =>
          simp only [Platform.effect, Platform.set_if_absent] at ho
          split at ho
          · cases ho
            exact .inl hget
          · next habsent =>
              cases ho
              refine .inl ?_
              simp only [World.after_state, id_eq, Dict.get?_set]
              split
              · next hid => simp [Dict.contains, ← hid, hget] at habsent
              · exact hget
      | jobs_delete id =>
          cases ho
          by_cases hid : job_id = id
          · exact .inr ⟨hpermits, by rw [hid]⟩
          · exact .inl (by simpa [Dict.get?_erase, hid] using hget)
      | acquire_job_slot tenant_id =>
          simp only [Platform.effect, Platform.acquire_job_slot] at ho
          split at ho <;> (cases ho; exact .inl hget)
      | _ => cases ho; exact .inl hget

end Runs

end Finished

open Finished in
-- As long as every record a worker stores is made from a current reading, a job
-- that is finished stays as it is: no delivery, reconciliation, listing or reading
-- changes it in any way, and a submission can only take a record back.
theorem finished_jobs_stay [DecidableEq ι] {settings : Settings} {activity : ι → Activity}
    {platform : Platform queue} {pool pool' : ServicePool ι queue} {event : ServiceEvent ι}
    {job_id : String} {job : JobStatus}
    (hstored : ∀ job_id job, platform.jobs.get? job_id = some job → job.job_id = job_id)
    (hrun : Run (service_step settings) Elapse (Heeded activity)
      (ServicePool.start settings platform activity) pool)
    (hstep : Step (service_step settings) Elapse pool (some event) pool')
    (hheeded : Heeded activity pool (some event))
    (hget : pool.world.state.jobs.get? job_id = some job) (hfinal : job.status.final = true)
    (hreviews : (activity event.thread).reviews = false) :
    pool'.world.state.jobs.get? job_id = some job ∨
      (activity event.thread).submits = true ∧ event.op = .jobs_delete job_id := by
  have horderly := (inv_of_run hstored (hrun.step hstep hheeded)).orderly
  have htrace : pool'.world.trace = event :: pool.world.trace := by
    cases hstep
    rfl
  rw [htrace] at horderly
  exact keeps_final (inv_of_run hstored hrun) (hheeded event rfl) horderly.1 hstep hget hfinal
    hreviews

namespace Finished

-- A submission, a worker, an approval and a second worker.
def redelivered_activity : Fin 4 → Activity
  | 0 => small_submission
  | 1 => .run_once .inserted
  | 2 => .request .small (.approve "job")
  | 3 => .run_once .inserted

-- The first worker stops between its last audit event and the acknowledgement.
-- Its lease runs out, and the other claims the job that is approved by then.
def redelivered_moves : List (Fin 4 × Outcome (job_queue .default)) :=
  turns 0 1000 9 ++ turns 1 1000 11 ++ turns 2 1010 5 ++ turns 3 1400 3

def redelivered_run : ServicePool (Fin 4) (job_queue .default) :=
  small_run redelivered_activity redelivered_moves

-- As above, but for the first worker, which acknowledges the job.
def acknowledged_moves : List (Fin 4 × Outcome (job_queue .default)) :=
  turns 0 1000 9 ++ turns 1 1000 13 ++ turns 2 1010 5

end Finished

open Finished in
theorem finished_jobs_stay_acknowledged :
    let pool := small_run redelivered_activity acknowledged_moves
    ∃ job, pool.world.state.jobs.get? "job" = some job ∧ job.status = .approved ∧
      (pool.advance (service_perform .small) (3, .at 1400)).world.state.jobs.get? "job" =
        some job := by
  intro pool
  have hrespects : (ServicePool.start .small (.empty (Backend.memory .empty))
      redelivered_activity).respects (service_perform .small) (Heeded redelivered_activity)
      acknowledged_moves := by decide +kernel
  have happroved : (pool.world.state.jobs.get? "job").map JobStatus.status = some .approved := by
    decide +kernel
  have hnext : (pool.event (service_perform .small) (3, .at 1400)).isSome = true := by
    decide +kernel
  have hheeded : Heeded redelivered_activity pool
      (pool.event (service_perform .small) (3, .at 1400)) := by decide +kernel
  obtain ⟨job, hget, hstatus⟩ := Option.map_eq_some_iff.mp happroved
  obtain ⟨event, hevent⟩ := Option.isSome_iff_exists.mp hnext
  have hthread := Pool.thread_of_event hevent
  refine ⟨job, hget, hstatus, (finished_jobs_stay (fun _ _ h => by cases h)
    (Run.start.schedule (fun outcome _ _ _ => ⟨outcome, rfl⟩) acknowledged_moves hrespects)
    (.advance (fun outcome _ _ _ => ⟨outcome, rfl⟩) hevent) (hevent ▸ hheeded) hget
    (by rw [hstatus]; rfl) (by rw [hthread]; rfl)).resolve_right ?_⟩
  rintro ⟨hsubmits, -⟩
  rw [hthread] at hsubmits
  cases hsubmits

open Finished in
-- The second worker runs the approved job again.
theorem redelivery_reopens :
    ∃ (pool pool' : ServicePool (Fin 4) (job_queue .default)) (event : ServiceEvent (Fin 4)),
      Run (service_step .small) Elapse Unrestricted (ServicePool.start .small
        (.empty (Backend.memory .empty)) redelivered_activity) pool ∧
      Step (service_step .small) Elapse pool (some event) pool' ∧
      redelivered_activity event.thread = .run_once .inserted ∧
      (pool.world.state.jobs.get? "job").map JobStatus.status = some .approved ∧
      (pool'.world.state.jobs.get? "job").map JobStatus.status = some .running := by
  have hnext : (redelivered_run.event (service_perform .small) (3, .at 1400)).isSome = true := by
    decide +kernel
  obtain ⟨event, hevent⟩ := Option.isSome_iff_exists.mp hnext
  exact ⟨redelivered_run, _, event, run_small_run _ _ _,
    .advance (fun outcome _ _ _ => ⟨outcome, rfl⟩) hevent,
    by rw [Pool.thread_of_event hevent]; rfl, by decide +kernel, by decide +kernel⟩

end ResearchAgent.Service
