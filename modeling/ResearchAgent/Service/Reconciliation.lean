import ResearchAgent.JobQueue.Caps
import ResearchAgent.JobQueue.Moves
import ResearchAgent.JobQueue.Origins
import ResearchAgent.Library.Interruption
import ResearchAgent.Service.Runs

namespace ResearchAgent.Service

open Library JobQueue Program

namespace Reconciliation

variable {cfg : Config} {settings : Settings} {job_id : String}

abbrev PassExchange := Exchange ServiceOp ServiceOp.Reply

-- One operation of a pass: it raises without effect, or it takes effect.
abbrev pass_step (settings : Settings) (platform : Platform (job_queue cfg)) (op : ServiceOp)
    (reply : op.Reply) (platform' : Platform (job_queue cfg)) : Prop :=
  service_step settings () platform op reply platform'

def took_effect (exchange : PassExchange) : Bool := exchange.reply.isOk

-- The tenant whose slot is given back for the job.
def released (job_id : String) : PassExchange → Option String
  | ⟨.release_job_slot tenant_id id, .ok _⟩ => if id = job_id then some tenant_id else none
  | _ => none

def dead_lettered (job_id : String) : PassExchange → Bool
  | ⟨.append_audit event_type _ id _, .ok _⟩ =>
      event_type = "job_dead_lettered" && id = some job_id
  | _ => false

-- The two effects on the job that leave work to be done: the record is stored, or the slot
-- given back.
def leaves_open (job_id : String) : PassExchange → Bool
  | ⟨.jobs_set id _, .ok _⟩ => id = job_id
  | ⟨.release_job_slot _ id, .ok _⟩ => id = job_id
  | _ => false

-- The pass stops after the final status of the job is stored and before its audit event is
-- written: its last effect is one of these two.
def StopsInside (job_id : String) (trace : List PassExchange) : Prop :=
  ∃ exchange ∈ (trace.filter took_effect).getLast?, leaves_open job_id exchange = true

instance (job_id : String) (trace : List PassExchange) :
    Decidable (StopsInside job_id trace) :=
  decidable_of_iff (((trace.filter took_effect).getLast?).any (leaves_open job_id) = true)
    (Option.any_eq_true ..)

-- What is to hold after the passes, whose operations are `trace`.
structure Healed (job_id tenant_id : String) (trace : List PassExchange)
    (platform : Platform (job_queue cfg)) : Prop where
  failed : ∃ job, platform.jobs.get? job_id = some job ∧ job.status = .failed
  removed : (Backend.entry platform.queue job_id).dead = 0
  released : trace.filterMap (released job_id) = [tenant_id]
  audited : trace.any (dead_lettered job_id) = true

section Frame

-- What a pass can see of one job: its record and its place in the queue.
structure View (job_id : String) (record : Option JobStatus) (state : JobQueue.JobState)
    (platform : Platform (job_queue cfg)) : Prop where
  keyed : ∀ other job, platform.jobs.get? other = some job → job.job_id = other
  record : platform.jobs.get? job_id = record
  queue : ∃ table, Backend.Refines platform.queue table ∧ table.jobs job_id = state

-- The operation of a pass that is about another job.
def Elsewhere (job_id : String) : ServiceOp → Prop
  | .jobs_set id job => id ≠ job_id ∧ job.job_id = id
  | .release_job_slot _ id => id ≠ job_id
  | .append_audit _ _ id _ => id ≠ some job_id
  | .queue (.remove_dead_letter envelope) => envelope.job_id ≠ job_id
  | .jobs_get _ | .now | .queue .dead_letters => True
  | _ => False

-- What a pass does that leaves no trace of the job.
def Silent (job_id : String) (trace : List PassExchange) : Prop :=
  ∀ exchange ∈ trace, released job_id exchange = none ∧ dead_lettered job_id exchange = false ∧
    leaves_open job_id exchange = false

variable {record : Option JobStatus} {state : JobQueue.JobState}
  {platform platform' : Platform (job_queue cfg)} {op : ServiceOp} {reply : op.Reply}

theorem silent_of_elsewhere {exchange : PassExchange} (h : Elsewhere job_id exchange.op) :
    released job_id exchange = none ∧ dead_lettered job_id exchange = false ∧
      leaves_open job_id exchange = false := by
  obtain ⟨op, reply⟩ := exchange
  cases op with
  | jobs_set id job =>
      refine ⟨rfl, rfl, ?_⟩
      cases reply with
      | error => rfl
      | ok => exact decide_eq_false h.1
  | release_job_slot tenant_id id =>
      cases reply with
      | error => exact ⟨rfl, rfl, rfl⟩
      | ok => exact ⟨if_neg h, rfl, decide_eq_false h⟩
  | append_audit event_type principal id details =>
      refine ⟨rfl, ?_, rfl⟩
      cases reply with
      | error => rfl
      | ok =>
          have hid : decide (id = some job_id) = false := decide_eq_false h
          simp only [dead_lettered, hid, Bool.and_false]
  | jobs_get | now | queue => exact ⟨rfl, rfl, rfl⟩
  | jobs_set_if_absent | jobs_delete | jobs_values | results_get | results_set
  | enforce_rate_limit | acquire_job_slot | run_research | heartbeat | uuid4 => exact h.elim

-- What the call does to the queue, seen at one job.
theorem View.dead_letters (h : View job_id record state platform) (moment : Moment) :
    View job_id record state ({ platform with
      queue := (Backend.call cfg moment platform.queue .dead_letters).2 } :
        Platform (job_queue cfg)) := by
  obtain ⟨table, hrefines, hstate⟩ := h.queue
  obtain ⟨reply, table', hanswer, -, hrefines'⟩ :=
    hrefines.answers_marked cfg (show Backend.Marked _ moment .dead_letters from trivial)
  cases hanswer
  exact ⟨h.keyed, h.record, table, hrefines', hstate⟩

theorem View.remove_other (h : View job_id record state platform) (moment : Moment)
    {envelope : JobEnvelope} (hother : envelope.job_id ≠ job_id) :
    View job_id record state ({ platform with
      queue := (Backend.call cfg moment platform.queue (.remove_dead_letter envelope)).2 } :
        Platform (job_queue cfg)) := by
  obtain ⟨table, hrefines, hstate⟩ := h.queue
  obtain ⟨reply, table', hanswer, -, hrefines'⟩ := hrefines.answers_marked cfg
    (show Backend.Marked _ moment (.remove_dead_letter envelope) from trivial)
  cases hanswer
  refine ⟨h.keyed, h.record, _, hrefines', ?_⟩
  rw [← hstate]
  unfold JobTable.remove_dead_letter
  split
  · exact (JobTable.put_jobs ..).trans (if_neg (Ne.symm hother))
  · rfl

theorem View.elsewhere (h : View job_id record state platform) (hop : Elsewhere job_id op)
    (hstep : pass_step settings platform op reply platform') :
    View job_id record state platform' := by
  rcases service_step_cases hstep with ⟨error, -, rfl⟩ | ⟨outcome, ho⟩
  · exact h
  cases op with
  | jobs_get | now =>
      cases ho
      exact h
  | jobs_set id job =>
      cases ho
      obtain ⟨hne, hkeyed⟩ := hop
      refine ⟨fun other stored hget => ?_, ?_, h.queue⟩
      · rw [Dict.get?_set] at hget
        split at hget
        · next ho =>
          cases hget
          exact hkeyed.trans ho.symm
        · exact h.keyed other stored hget
      · rw [Dict.get?_set, if_neg (Ne.symm hne)]
        exact h.record
  | release_job_slot | append_audit =>
      cases ho
      exact ⟨h.keyed, h.record, h.queue⟩
  | queue call =>
      cases call with
      | dead_letters =>
          cases ho
          exact h.dead_letters outcome.queue
      | remove_dead_letter envelope =>
          cases ho
          exact h.remove_other outcome.queue hop
      | enqueue | claim | ack | renew | retry | recover_stale | dead_letter_count =>
          exact hop.elim
  | jobs_set_if_absent | jobs_delete | jobs_values | results_get | results_set
  | enforce_rate_limit | acquire_job_slot | run_research | heartbeat | uuid4 => exact hop.elim

-- The operations that neither store the record nor touch the queue.
theorem View.keep (h : View job_id record state platform)
    (hop : match op with
      | .jobs_get _ | .now | .release_job_slot _ _ | .append_audit _ _ _ _ => True
      | _ => False)
    (hstep : pass_step settings platform op reply platform') :
    View job_id record state platform' := by
  rcases service_step_cases hstep with ⟨error, -, rfl⟩ | ⟨outcome, ho⟩
  · exact h
  cases op with
  | jobs_get | now | release_job_slot | append_audit =>
      cases ho
      exact ⟨h.keyed, h.record, h.queue⟩
  | _ => exact hop.elim

theorem View.store (h : View job_id record state platform) {job : JobStatus}
    (hid : job.job_id = job_id) {value : ServiceOp.Value (.jobs_set job_id job)}
    (hstep : pass_step settings platform (.jobs_set job_id job) (.ok value) platform') :
    View job_id (some job) state platform' := by
  rcases service_step_cases hstep with ⟨error, he, -⟩ | ⟨outcome, ho⟩
  · cases he
  cases ho
  refine ⟨fun other stored hget => ?_, Dict.get?_set_self .., h.queue⟩
  rw [Dict.get?_set] at hget
  split at hget
  · next ho =>
    cases hget
    exact hid.trans ho.symm
  · exact h.keyed other stored hget

theorem View.store_failed (h : View job_id record state platform) {id : String} {job : JobStatus}
    {error : ServiceError}
    (hstep : pass_step settings platform (.jobs_set id job) (.error error) platform') :
    View job_id record state platform' := by
  rcases service_step_cases hstep with ⟨_, -, rfl⟩ | ⟨outcome, ho⟩
  · exact h
  · cases ho

theorem View.remove {letter : JobEnvelope} (h : View job_id record (.dead letter) platform)
    {envelope : JobEnvelope} (hid : envelope.job_id = job_id)
    {reply : ServiceOp.Reply (.queue (.remove_dead_letter envelope))}
    (hstep : pass_step settings platform (.queue (.remove_dead_letter envelope)) reply platform') :
    (∃ error, reply = .error error ∧ View job_id record (.dead letter) platform') ∨
      reply = .ok (.bool true) ∧ View job_id record .absent platform' := by
  rcases queue_step hstep with ⟨error, he, rfl⟩ | ⟨moment, hreply, rfl⟩
  · exact .inl ⟨error, he, h⟩
  obtain ⟨table, hrefines, hstate⟩ := h.queue
  obtain ⟨answer, table', hanswer, hsame, hrefines'⟩ := hrefines.answers_marked cfg
    (show Backend.Marked _ moment (.remove_dead_letter envelope) from trivial)
  cases hanswer
  subst hid
  have hremoved : table.remove_dead_letter envelope.delivered.job_id =
      (true, table.put envelope.job_id .absent) := by
    unfold JobTable.remove_dead_letter
    rw [JobEnvelope.delivered_job_id, hstate]
  rw [hremoved] at hsame hrefines'
  refine .inr ⟨?_, h.keyed, h.record, _, hrefines', ?_⟩
  · rw [hreply]
    exact congrArg (Except.mapError ServiceError.QueueError) hsame.eq_bool
  · exact (JobTable.put_jobs ..).trans (if_pos rfl)

end Frame

section Programs

variable {platform platform' : Platform (job_queue cfg)} {op : ServiceOp} {α : Type}
  {f : op.Value → ServiceProgram α} {trace : List PassExchange}

-- A program that begins with an operation stops before it, at its error, or later.
theorem stops_perform (h : Stops (pass_step settings) (perform op >>= f) platform trace platform') :
    (trace = [] ∧ platform' = platform) ∨
      (∃ error, pass_step settings platform op (.error error) platform' ∧
        trace = [⟨op, .error error⟩]) ∨
      ∃ value between rest, pass_step settings platform op (.ok value) between ∧
        Stops (pass_step settings) (f value) between rest platform' ∧
        trace = ⟨op, .ok value⟩ :: rest := by
  cases h with
  | here => exact .inl ⟨rfl, rfl⟩
  | @call _ _ _ reply between rest _ hstep hrest =>
      cases reply with
      | error error =>
          obtain ⟨rfl, rfl⟩ := Stops.of_raise hrest
          exact .inr (.inl ⟨error, hstep, rfl⟩)
      | ok value => exact .inr (.inr ⟨value, between, rest, hstep, hrest, rfl⟩)

theorem finishes_perform {result : α}
    (h : Finishes (pass_step settings) (perform op >>= f) platform trace (.ok result) platform') :
    ∃ value between rest, pass_step settings platform op (.ok value) between ∧
      Finishes (pass_step settings) (f value) between rest (.ok result) platform' ∧
      trace = ⟨op, .ok value⟩ :: rest := by
  cases h with
  | @call _ _ _ reply between rest _ _ hstep hrest =>
      cases reply with
      | error error => cases hrest
      | ok value => exact ⟨value, between, rest, hstep, hrest, rfl⟩

end Programs

section Stages

variable {trace first second : List PassExchange} {exchange : PassExchange}

theorem stopsInside_snoc : StopsInside job_id (trace ++ [exchange]) ↔
    if took_effect exchange then leaves_open job_id exchange = true
      else StopsInside job_id trace := by
  unfold StopsInside
  rw [List.filter_append]
  split
  · next heffect => simp [heffect]
  · next hnone => simp [hnone]

-- Operations that leave no trace of the job make no difference before others.
theorem stopsInside_append (h : Silent job_id first) :
    StopsInside job_id (first ++ second) ↔ StopsInside job_id second := by
  unfold StopsInside
  rw [List.filter_append]
  cases hsecond : second.filter took_effect with
  | nil =>
      refine iff_of_false ?_ (by simp)
      rw [List.append_nil]
      rintro ⟨exchange, hlast, hopen⟩
      have hmem := List.mem_of_mem_filter (List.mem_of_getLast? hlast)
      rw [(h exchange hmem).2.2] at hopen
      cases hopen
  | cons head rest => rw [List.getLast?_append_of_ne_nil _ (by simp)]

-- How far the pass has come with the job.
inductive Stage where
  | untouched
  | stored
  | slot_released
  | audited
  | removed
deriving DecidableEq

structure Reached (job_id : String) (letter : JobEnvelope) (stage : Stage)
    (trace : List PassExchange) (platform : Platform (job_queue cfg)) : Prop where
  view : ∃ job, View job_id (some job) (if stage = .removed then .absent else .dead letter)
    platform ∧ if stage = .untouched then job.status.final = false else job.status = .failed
  released : trace.filterMap (released job_id) =
    if stage = .untouched ∨ stage = .stored then [] else [letter.tenant_id]
  audited : trace.any (dead_lettered job_id) = decide (stage = .audited ∨ stage = .removed)
  inside : StopsInside job_id trace ↔ stage = .stored ∨ stage = .slot_released

variable {letter : JobEnvelope} {stage stage' : Stage}
  {platform platform' : Platform (job_queue cfg)}

theorem Reached.snoc (h : Reached job_id letter stage trace platform)
    (hview : ∃ job, View job_id (some job) (if stage' = .removed then .absent else .dead letter)
      platform' ∧ if stage' = .untouched then job.status.final = false else job.status = .failed)
    (hreleased : (if stage = .untouched ∨ stage = .stored then [] else [letter.tenant_id]) ++
      (Reconciliation.released job_id exchange).toList =
        if stage' = .untouched ∨ stage' = .stored then [] else [letter.tenant_id])
    (haudited : (decide (stage = .audited ∨ stage = .removed) || dead_lettered job_id exchange) =
      decide (stage' = .audited ∨ stage' = .removed))
    (hinside : (if took_effect exchange then leaves_open job_id exchange = true
      else stage = .stored ∨ stage = .slot_released) ↔ stage' = .stored ∨ stage' = .slot_released) :
    Reached job_id letter stage' (trace ++ [exchange]) platform' where
  view := hview
  released := by
    rw [List.filterMap_append, h.released, ← hreleased]
    congr 1
  audited := by
    rw [List.any_append, h.audited, ← haudited, List.any_cons, List.any_nil, Bool.or_false]
  inside := by
    rw [stopsInside_snoc, h.inside]
    exact hinside

-- What an operation that raises leaves of the job.
theorem failed_silent (job_id : String) (op : ServiceOp) (error : ServiceError) :
    released job_id ⟨op, .error error⟩ = none ∧ dead_lettered job_id ⟨op, .error error⟩ = false ∧
      took_effect ⟨op, .error error⟩ = false := by
  cases op <;> exact ⟨rfl, rfl, rfl⟩

theorem Reached.failed (h : Reached job_id letter stage trace platform) {op : ServiceOp}
    {error : ServiceError}
    (hview : ∃ job, View job_id (some job) (if stage = .removed then .absent else .dead letter)
      platform' ∧ if stage = .untouched then job.status.final = false else job.status = .failed) :
    Reached job_id letter stage (trace ++ [⟨op, .error error⟩]) platform' := by
  obtain ⟨hreleased, haudited, heffect⟩ := failed_silent job_id op error
  refine h.snoc hview ?_ ?_ ?_
  · rw [hreleased]
    exact List.append_nil _
  · rw [haudited, Bool.or_false]
  · rw [heffect]
    exact Iff.rfl

theorem Reached.store (h : Reached job_id letter .untouched trace platform) {job : JobStatus}
    {value : Unit}
    (hstep : pass_step settings platform (.jobs_set job_id job) (.ok value) platform')
    (hid : job.job_id = job_id) (hfailed : job.status = .failed) :
    Reached job_id letter .stored (trace ++ [⟨.jobs_set job_id job, .ok value⟩]) platform' := by
  obtain ⟨old, hview, -⟩ := h.view
  refine h.snoc ⟨job, hview.store hid hstep, hfailed⟩ rfl rfl ?_
  simp [took_effect, leaves_open, Except.isOk, Except.toBool]

theorem Reached.release (h : Reached job_id letter .stored trace platform) {value : Unit}
    (hstep : pass_step settings platform (.release_job_slot letter.tenant_id job_id) (.ok value)
      platform') :
    Reached job_id letter .slot_released
      (trace ++ [⟨.release_job_slot letter.tenant_id job_id, .ok value⟩]) platform' := by
  obtain ⟨job, hview, hfailed⟩ := h.view
  refine h.snoc ⟨job, hview.keep trivial hstep, hfailed⟩ ?_ rfl ?_
  · simp [Reconciliation.released]
  · simp [took_effect, leaves_open, Except.isOk, Except.toBool]

theorem Reached.audit (h : Reached job_id letter .slot_released trace platform)
    {actor : Principal} {details : JSONObject} {value : Unit}
    (hstep : pass_step settings platform
      (.append_audit "job_dead_lettered" actor (some job_id) details) (.ok value) platform') :
    Reached job_id letter .audited
      (trace ++ [⟨.append_audit "job_dead_lettered" actor (some job_id) details, .ok value⟩])
      platform' := by
  obtain ⟨job, hview, hfailed⟩ := h.view
  refine h.snoc ⟨job, hview.keep trivial hstep, hfailed⟩ rfl ?_ ?_
  · simp [dead_lettered]
  · simp [took_effect, leaves_open, Except.isOk, Except.toBool]

theorem Reached.remove (h : Reached job_id letter .audited trace platform)
    {envelope : JobEnvelope} (hid : envelope.job_id = job_id)
    {reply : ServiceOp.Reply (.queue (.remove_dead_letter envelope))}
    (hstep : pass_step settings platform (.queue (.remove_dead_letter envelope)) reply
      platform') :
    (∃ error, reply = .error error ∧ Reached job_id letter .audited
      (trace ++ [⟨.queue (.remove_dead_letter envelope), reply⟩]) platform') ∨
      reply = .ok (.bool true) ∧ Reached job_id letter .removed
        (trace ++ [⟨.queue (.remove_dead_letter envelope), reply⟩]) platform' := by
  obtain ⟨job, hview, hfailed⟩ := h.view
  rcases hview.remove hid hstep with ⟨error, rfl, hview'⟩ | ⟨rfl, hview'⟩
  · exact .inl ⟨error, rfl, h.failed ⟨job, hview', hfailed⟩⟩
  · refine .inr ⟨rfl, h.snoc ⟨job, hview', hfailed⟩ rfl rfl ?_⟩
    simp [took_effect, leaves_open, Except.isOk, Except.toBool]

-- The rest of the pass over the job, from each effect on.
theorem Reached.stops_remove (h : Reached job_id letter .audited trace platform)
    {envelope : JobEnvelope} (hid : envelope.job_id = job_id)
    (hstops : Stops (pass_step settings)
      (Client.remove_dead_letter envelope >>= fun _ => Program.ret ()) platform second platform') :
    ∃ stage, Reached job_id letter stage (trace ++ second) platform' := by
  unfold Client.remove_dead_letter Client.queue at hstops
  rw [Program.bind_assoc] at hstops
  rcases stops_perform hstops with ⟨rfl, rfl⟩ | ⟨error, hstep, rfl⟩ |
    ⟨value, between, rest, hstep, hrest, rfl⟩
  · exact ⟨.audited, by rwa [List.append_nil]⟩
  · rcases h.remove hid hstep with ⟨_, -, hreached⟩ | ⟨he, -⟩
    · exact ⟨_, hreached⟩
    · cases he
  · rcases h.remove hid hstep with ⟨_, he, -⟩ | ⟨hvalue, hreached⟩
    · cases he
    · cases hvalue
      obtain ⟨rfl, rfl⟩ := Stops.of_ret hrest
      exact ⟨_, hreached⟩

theorem Reached.stops_audit (h : Reached job_id letter .slot_released trace platform)
    {envelope : JobEnvelope} (hid : envelope.job_id = job_id) {details : JSONObject}
    (hstops : Stops (pass_step settings) (worker_actor envelope >>= fun actor =>
      Client.append_audit "job_dead_lettered" actor (some job_id) details >>= fun _ =>
        Client.remove_dead_letter envelope >>= fun _ => Program.ret ()) platform second platform') :
    ∃ stage, Reached job_id letter stage (trace ++ second) platform' := by
  unfold worker_actor at hstops
  cases hactor : Principal.model_validate envelope.principal_id envelope.tenant_id [.reader] with
  | error error =>
      rw [hactor] at hstops
      obtain ⟨rfl, rfl⟩ := Stops.of_raise hstops
      exact ⟨.slot_released, by rwa [List.append_nil]⟩
  | ok actor =>
      rw [hactor] at hstops
      obtain ⟨job, hview, hfailed⟩ := h.view
      rcases stops_perform hstops with ⟨rfl, rfl⟩ | ⟨error, hstep, rfl⟩ |
        ⟨value, between, rest, hstep, hrest, rfl⟩
      · exact ⟨.slot_released, by rwa [List.append_nil]⟩
      · exact ⟨_, h.failed ⟨job, hview.keep trivial hstep, hfailed⟩⟩
      · obtain ⟨stage, hreached⟩ := (h.audit hstep).stops_remove hid hrest
        exact ⟨stage, by rwa [List.append_assoc] at hreached⟩

theorem Reached.stops_release (h : Reached job_id letter .stored trace platform)
    {envelope : JobEnvelope} (hid : envelope.job_id = job_id)
    (htenant : envelope.tenant_id = letter.tenant_id) {details : JSONObject}
    (hstops : Stops (pass_step settings)
      (Client.release_job_slot envelope.tenant_id job_id >>= fun _ =>
        worker_actor envelope >>= fun actor =>
        Client.append_audit "job_dead_lettered" actor (some job_id) details >>= fun _ =>
          Client.remove_dead_letter envelope >>= fun _ => Program.ret ()) platform second
      platform') :
    ∃ stage, Reached job_id letter stage (trace ++ second) platform' := by
  rw [htenant] at hstops
  obtain ⟨job, hview, hfailed⟩ := h.view
  rcases stops_perform hstops with ⟨rfl, rfl⟩ | ⟨error, hstep, rfl⟩ |
    ⟨value, between, rest, hstep, hrest, rfl⟩
  · exact ⟨.stored, by rwa [List.append_nil]⟩
  · exact ⟨_, h.failed ⟨job, hview.keep trivial hstep, hfailed⟩⟩
  · obtain ⟨stage, hreached⟩ := (h.release hstep).stops_audit hid hrest
    exact ⟨stage, by rwa [List.append_assoc] at hreached⟩

-- The pass before it comes to the job.
theorem reached_start {job : JobStatus} (hview : View job_id (some job) (.dead letter) platform)
    (hactive : job.status.final = false) :
    Reached job_id letter .untouched [] platform where
  view := ⟨job, hview, hactive⟩
  released := rfl
  audited := rfl
  inside := iff_of_false (by simp [StopsInside]) (by decide)

-- Reading the record and the clock leaves the job untouched.
theorem Reached.read (h : Reached job_id letter .untouched trace platform) {op : ServiceOp}
    {value : op.Value} (hop : op = .jobs_get job_id ∨ op = .now)
    (hstep : pass_step settings platform op (.ok value) platform') :
    Reached job_id letter .untouched (trace ++ [⟨op, .ok value⟩]) platform' := by
  obtain ⟨job, hview, hactive⟩ := h.view
  rcases hop with rfl | rfl
  · refine h.snoc ⟨job, hview.keep trivial hstep, hactive⟩ rfl rfl ?_
    simp [took_effect, leaves_open, Except.isOk, Except.toBool]
  · refine h.snoc ⟨job, hview.keep trivial hstep, hactive⟩ rfl rfl ?_
    simp [took_effect, leaves_open, Except.isOk, Except.toBool]

theorem Reached.stops_fail (h : Reached job_id letter .untouched trace platform)
    {job : JobStatus} (hkey : job.job_id = job_id) {envelope : JobEnvelope}
    (hid : envelope.job_id = job_id) (htenant : envelope.tenant_id = letter.tenant_id)
    (hstops : Stops (pass_step settings) (ResearchProcessor.fail_dead_letter envelope job)
      platform second platform') :
    ∃ stage, Reached job_id letter stage (trace ++ second) platform' := by
  obtain ⟨old, hview, hactive⟩ := h.view
  subst hkey
  rcases stops_perform hstops with ⟨rfl, rfl⟩ | ⟨error, hstep, rfl⟩ |
    ⟨time, between, rest, hstep, hrest, rfl⟩
  · exact ⟨_, by rwa [List.append_nil]⟩
  · exact ⟨_, h.failed ⟨old, hview.keep trivial hstep, hactive⟩⟩
  have hread := h.read (.inr rfl) hstep
  obtain ⟨old, hview, hactive⟩ := hread.view
  rw [List.append_cons]
  rcases stops_perform hrest with ⟨rfl, rfl⟩ | ⟨error, hstep', rfl⟩ |
    ⟨value, between', rest', hstep', hrest', rfl⟩
  · exact ⟨_, by rwa [List.append_nil]⟩
  · exact ⟨_, hread.failed ⟨old, hview.store_failed hstep', hactive⟩⟩
  · obtain ⟨stage, hreached⟩ := (hread.store hstep' rfl rfl).stops_release hid htenant hrest'
    exact ⟨stage, by rwa [List.append_assoc] at hreached⟩

-- The turn of the job, wherever the pass stops in it.
theorem reconcile_stops {job : JobStatus}
    (hview : View job_id (some job) (.dead letter) platform) (hactive : job.status.final = false)
    {envelope : JobEnvelope} (hid : envelope.job_id = job_id)
    (htenant : envelope.tenant_id = letter.tenant_id)
    (hstops : Stops (pass_step settings) (ResearchProcessor.reconcile envelope) platform trace
      platform') :
    ∃ stage, Reached job_id letter stage trace platform' := by
  have hstart := reached_start hview hactive
  subst hid
  rcases stops_perform hstops with ⟨rfl, rfl⟩ | ⟨error, hstep, rfl⟩ |
    ⟨value, between, rest, hstep, hrest, rfl⟩
  · exact ⟨_, hstart⟩
  · exact ⟨_, hstart.failed ⟨job, hview.keep trivial hstep, hactive⟩⟩
  have hvalue := jobs_get_step hstep
  rw [hview.record] at hvalue
  subst hvalue
  have hfail : Stops (pass_step settings) (ResearchProcessor.fail_dead_letter envelope job)
      between rest platform' := by
    simpa only [hactive, Bool.false_eq_true, if_false] using hrest
  exact (hstart.read (.inl rfl) hstep).stops_fail (hview.keyed _ _ hview.record) rfl htenant hfail

-- The turn of the job in a pass that comes to its end.
theorem reconcile_finishes {job : JobStatus}
    (hview : View job_id (some job) (.dead letter) platform) (hactive : job.status.final = false)
    {envelope : JobEnvelope} (hid : envelope.job_id = job_id)
    (htenant : envelope.tenant_id = letter.tenant_id)
    (hfinishes : Finishes (pass_step settings) (ResearchProcessor.reconcile envelope) platform
      trace (.ok ()) platform') :
    Reached job_id letter .removed trace platform' := by
  have hstart := reached_start hview hactive
  have hkey := hview.keyed _ _ hview.record
  subst hid
  obtain ⟨value, between, rest, hget, hrest, rfl⟩ := finishes_perform hfinishes
  have hvalue := jobs_get_step hget
  rw [hview.record] at hvalue
  subst hvalue
  have hfail : Finishes (pass_step settings) (ResearchProcessor.fail_dead_letter envelope job)
      between rest (.ok ()) platform' := by
    simpa only [hactive, Bool.false_eq_true, if_false] using hrest
  obtain ⟨time, between₁, rest₁, hnow, hrest₁, rfl⟩ := finishes_perform hfail
  obtain ⟨_, between₂, rest₂, hset, hrest₂, rfl⟩ := finishes_perform hrest₁
  obtain ⟨_, between₃, rest₃, hrelease, hrest₃, rfl⟩ := finishes_perform hrest₂
  unfold worker_actor at hrest₃
  cases hactor : Principal.model_validate envelope.principal_id envelope.tenant_id [.reader] with
  | error error =>
      rw [hactor] at hrest₃
      cases hrest₃
  | ok actor =>
      rw [hactor] at hrest₃
      obtain ⟨_, between₄, rest₄, haudit, hrest₄, rfl⟩ := finishes_perform hrest₃
      unfold Client.remove_dead_letter Client.queue at hrest₄
      rw [Program.bind_assoc] at hrest₄
      obtain ⟨removed, between₅, rest₅, hremove, hrest₅, rfl⟩ := finishes_perform hrest₄
      rw [hkey] at hset hrelease haudit ⊢
      rw [htenant] at hrelease ⊢
      have hread := (hstart.read (.inl rfl) hget).read (.inr rfl) hnow
      have haudited := ((hread.store hset rfl rfl).release hrelease).audit haudit
      rcases haudited.remove rfl hremove with ⟨error, he, -⟩ | ⟨hremoved, hreached⟩
      · cases he
      · cases hremoved
        obtain ⟨rfl, -, rfl⟩ := Finishes.of_ret hrest₅
        simpa using hreached

-- A record that is final stays, and the letter goes without any further effect.
theorem reconcile_final {job : JobStatus}
    (hview : View job_id (some job) (.dead letter) platform) (hfinal : job.status.final = true)
    {envelope : JobEnvelope} (hid : envelope.job_id = job_id)
    (hfinishes : Finishes (pass_step settings) (ResearchProcessor.reconcile envelope) platform
      trace (.ok ()) platform') :
    View job_id (some job) .absent platform' ∧ Silent job_id trace := by
  subst hid
  obtain ⟨value, between, rest, hget, hrest, rfl⟩ := finishes_perform hfinishes
  have hvalue := jobs_get_step hget
  rw [hview.record] at hvalue
  subst hvalue
  have hremove : Finishes (pass_step settings)
      (Client.remove_dead_letter envelope >>= fun _ => Program.ret ()) between rest (.ok ())
      platform' := by
    simpa only [hfinal, if_true, pure_eq] using hrest
  unfold Client.remove_dead_letter Client.queue at hremove
  rw [Program.bind_assoc] at hremove
  obtain ⟨removed, between', rest', hstep, hrest', rfl⟩ := finishes_perform hremove
  rcases (hview.keep trivial hget).remove rfl hstep with ⟨error, he, -⟩ | ⟨hremoved, hview'⟩
  · cases he
  · cases hremoved
    obtain ⟨rfl, -, rfl⟩ := Finishes.of_ret hrest'
    refine ⟨hview', ?_⟩
    rintro _ (_ | ⟨_, _ | ⟨_, ⟨⟩⟩⟩) <;> exact ⟨rfl, rfl, rfl⟩

end Stages

section Loop

variable {record : Option JobStatus} {state : JobQueue.JobState}
  {platform platform' : Platform (job_queue cfg)} {trace : List PassExchange}
  {letters : List JobEnvelope}

theorem uses_elsewhere {program : ServiceProgram Unit} (hview : View job_id record state platform)
    (hstops : Stops (pass_step settings) program platform trace platform')
    (huses : program.uses (Elsewhere job_id)) :
    View job_id record state platform' ∧ Silent job_id trace := by
  obtain ⟨hview', hall⟩ := Stops.keeps hstops huses hview fun _ _ _ _ hstep hop hinv =>
    hinv.elsewhere hop hstep
  exact ⟨hview', fun exchange hmem => silent_of_elsewhere (hall exchange hmem)⟩

theorem fail_elsewhere {envelope : JobEnvelope} {job : JobStatus}
    (hother : envelope.job_id ≠ job_id) (hkey : job.job_id = envelope.job_id) :
    (ResearchProcessor.fail_dead_letter envelope job).uses (Elsewhere job_id) := by
  have hjob : job.job_id ≠ job_id := by rwa [hkey]
  refine Program.uses_bind (perform_uses trivial) fun time => ?_
  refine Program.uses_bind (perform_uses ⟨hjob, rfl⟩) fun _ => ?_
  refine Program.uses_bind (perform_uses hjob) fun _ => ?_
  refine Program.uses_bind (lift_uses _) fun actor => ?_
  refine Program.uses_bind (perform_uses fun heq => hjob (Option.some.inj heq)) fun _ => ?_
  exact Program.uses_bind (queue_uses hother) fun _ => trivial

-- The turn of another job.
theorem reconcile_elsewhere (hview : View job_id record state platform) {envelope : JobEnvelope}
    (hother : envelope.job_id ≠ job_id)
    (hstops : Stops (pass_step settings) (ResearchProcessor.reconcile envelope) platform trace
      platform') :
    View job_id record state platform' ∧ Silent job_id trace := by
  rcases stops_perform hstops with ⟨rfl, rfl⟩ | ⟨error, hstep, rfl⟩ |
    ⟨value, between, rest, hstep, hrest, rfl⟩
  · exact ⟨hview, fun _ hmem => absurd hmem List.not_mem_nil⟩
  · refine ⟨hview.keep trivial hstep, ?_⟩
    rintro _ (_ | ⟨_, ⟨⟩⟩)
    exact ⟨rfl, rfl, rfl⟩
  have hview' := hview.keep trivial hstep
  have hrest' : View job_id record state platform' ∧ Silent job_id rest := by
    cases value with
    | none => exact uses_elsewhere hview' hrest trivial
    | some job =>
        have hkey := hview.keyed _ job (jobs_get_step hstep).symm
        dsimp only at hrest
        split at hrest
        · exact uses_elsewhere hview' hrest
            (Program.uses_bind (queue_uses hother) fun _ => trivial)
        · exact uses_elsewhere hview' hrest (fail_elsewhere hother hkey)
  refine ⟨hrest'.1, fun exchange hmem => ?_⟩
  rcases List.mem_cons.mp hmem with rfl | hmem
  · exact ⟨rfl, rfl, rfl⟩
  · exact hrest'.2 exchange hmem

theorem reconcile_each_elsewhere (hview : View job_id record state platform)
    (hothers : ∀ envelope ∈ letters, envelope.job_id ≠ job_id)
    (hstops : Stops (pass_step settings) (ResearchProcessor.reconcile_each letters) platform trace
      platform') :
    View job_id record state platform' ∧ Silent job_id trace := by
  induction letters generalizing platform trace with
  | nil =>
      obtain ⟨rfl, rfl⟩ := Stops.of_ret hstops
      exact ⟨hview, fun _ hmem => absurd hmem List.not_mem_nil⟩
  | cons envelope rest ih =>
      have hother := hothers envelope List.mem_cons_self
      rcases Stops.of_bind hstops with hfirst | ⟨_, first, between, second, hfirst, hsecond, rfl⟩
      · exact reconcile_elsewhere hview hother hfirst
      · obtain ⟨hview', hsilent⟩ := reconcile_elsewhere hview hother hfirst.stops
        obtain ⟨hview'', hsilent'⟩ := ih hview'
          (fun other hmem => hothers other (List.mem_cons_of_mem _ hmem)) hsecond
        refine ⟨hview'', fun exchange hmem => ?_⟩
        rcases List.mem_append.mp hmem with hmem | hmem
        · exact hsilent exchange hmem
        · exact hsilent' exchange hmem

theorem reconcile_each_append (first second : List JobEnvelope) :
    ResearchProcessor.reconcile_each (first ++ second) =
      ResearchProcessor.reconcile_each first >>= fun _ =>
        ResearchProcessor.reconcile_each second := by
  induction first with
  | nil => rfl
  | cons envelope rest ih =>
      simp only [List.cons_append, ResearchProcessor.reconcile_each, ih, bind_assoc]

theorem Silent.append {first second : List PassExchange} (h : Silent job_id first)
    (h' : Silent job_id second) : Silent job_id (first ++ second) := by
  intro exchange hmem
  rcases List.mem_append.mp hmem with hmem | hmem
  · exact h exchange hmem
  · exact h' exchange hmem

theorem Silent.released (h : Silent job_id trace) :
    trace.filterMap (Reconciliation.released job_id) = [] :=
  List.filterMap_eq_nil_iff.mpr fun exchange hmem => (h exchange hmem).1

theorem Silent.dead_lettered (h : Silent job_id trace) :
    trace.any (Reconciliation.dead_lettered job_id) = false :=
  List.any_eq_false.mpr fun exchange hmem => by simp [(h exchange hmem).2.1]

-- What a pass does before it comes to the job, and after it is done with it.
theorem Reached.prepend {letter : JobEnvelope} {stage : Stage} {first : List PassExchange}
    (h : Reached job_id letter stage trace platform) (hsilent : Silent job_id first) :
    Reached job_id letter stage (first ++ trace) platform where
  view := h.view
  released := by rw [List.filterMap_append, hsilent.released, h.released, List.nil_append]
  audited := by rw [List.any_append, hsilent.dead_lettered, h.audited, Bool.false_or]
  inside := (stopsInside_append hsilent).trans h.inside

theorem Reached.done {letter : JobEnvelope} {later : List PassExchange}
    (h : Reached job_id letter .removed trace platform) (hsilent : Silent job_id later)
    (hkept : ∀ record, View job_id record .absent platform → View job_id record .absent platform') :
    Reached job_id letter .removed (trace ++ later) platform' where
  view := by
    obtain ⟨job, hview, hfailed⟩ := h.view
    exact ⟨job, hkept _ hview, hfailed⟩
  released := by rw [List.filterMap_append, hsilent.released, h.released, List.append_nil]
  audited := by rw [List.any_append, hsilent.dead_lettered, h.audited, Bool.or_false]
  inside := by
    refine iff_of_false ?_ (by decide)
    rintro ⟨exchange, hlast, hopen⟩
    rw [List.filter_append] at hlast
    cases hlater : later.filter took_effect with
    | nil =>
        rw [hlater, List.append_nil] at hlast
        exact absurd (h.inside.mp ⟨exchange, hlast, hopen⟩) (by decide)
    | cons head rest =>
        rw [List.getLast?_append_of_ne_nil _ (by simp [hlater])] at hlast
        have hmem := List.mem_of_mem_filter (List.mem_of_getLast? hlast)
        rw [(hsilent exchange hmem).2.2] at hopen
        cases hopen

-- The letters that a pass works through: each job once, and this one if it is dead.
structure Listed (job_id : String) (state : JobQueue.JobState) (letters : List JobEnvelope) :
    Prop where
  nodup : (letters.map JobEnvelope.job_id).Nodup
  dead : ∀ letter, state = .dead letter →
    ∃ envelope ∈ letters, envelope.job_id = job_id ∧ envelope.tenant_id = letter.tenant_id
  absent : state = .absent → ∀ envelope ∈ letters, envelope.job_id ≠ job_id

theorem dead_letters_ids {table : JobTable} (hkeyed : table.Keyed) :
    table.dead_letters.map JobEnvelope.job_id = table.dead := by
  have hids : ∀ ids : List String, (∀ id ∈ ids, (table.jobs id).is_dead = true) →
      (ids.filterMap fun id => (table.jobs id).envelope).map JobEnvelope.job_id = ids := by
    intro ids hdead
    induction ids with
    | nil => rfl
    | cons id rest ih =>
        obtain ⟨letter, hj⟩ := JobTable.dead_of_is_dead (hdead id List.mem_cons_self)
        have hone : (table.jobs id).envelope = some letter := by rw [hj]; rfl
        have hid := hkeyed id letter hone
        rw [List.filterMap_cons_some (f := fun id => (table.jobs id).envelope) hone,
          List.map_cons, hid,
          ih fun other hmem => hdead other (List.mem_cons_of_mem _ hmem)]
  exact hids table.dead fun id hmem => (table.mem_dead id).mp hmem

theorem View.listed (h : View job_id record state platform) {reply : QueueReply}
    (hstep : pass_step settings platform (.queue .dead_letters) (.ok reply) platform') :
    ∃ letters, reply = .envelopes letters ∧ Listed job_id state letters := by
  rcases queue_step hstep with ⟨error, he, -⟩ | ⟨moment, hreply, -⟩
  · cases he
  obtain ⟨table, hrefines, rfl⟩ := h.queue
  obtain ⟨answer, table', hanswer, hsame, -⟩ :=
    hrefines.answers_marked cfg (show Backend.Marked _ moment .dead_letters from trivial)
  have hkeyed := hrefines.keyed
  cases hanswer
  obtain ⟨letters, hcall, hperm⟩ := hsame.eq_envelopes
  have hvalue : Except.ok reply = Except.mapError ServiceError.QueueError
      (Except.ok (.envelopes letters)) := hreply.trans (congrArg _ hcall)
  cases hvalue
  have hids : (letters.map JobEnvelope.job_id).Perm table.dead := by
    have hmapped := hperm.map JobEnvelope.job_id
    simp only [List.map_map, Function.comp_def, JobEnvelope.delivered_job_id] at hmapped
    rwa [dead_letters_ids hkeyed] at hmapped
  refine ⟨letters, rfl, hids.nodup_iff.mpr table.dead_nodup, fun letter hj => ?_, fun hj => ?_⟩
  · have hdead : (table.jobs job_id).is_dead = true := by rw [hj]; rfl
    have hmem : letter ∈ table.dead_letters :=
      List.mem_filterMap.mpr ⟨job_id, (table.mem_dead job_id).mpr hdead, by rw [hj]; rfl⟩
    obtain ⟨envelope, henvelope, hdelivered⟩ :=
      List.mem_map.mp (hperm.mem_iff.mpr (List.mem_map_of_mem hmem))
    have hid := congrArg JobEnvelope.job_id hdelivered
    have htenant := congrArg JobEnvelope.tenant_id hdelivered
    exact ⟨envelope, henvelope, hid.trans (hkeyed job_id letter (by rw [hj]; rfl)), htenant⟩
  · rintro envelope henvelope rfl
    have hdead := (table.mem_dead _).mp (hids.mem_iff.mp (List.mem_map_of_mem henvelope))
    rw [hj] at hdead
    cases hdead

-- The letter of the job with those before and after it.
theorem Listed.split {letter : JobEnvelope} (h : Listed job_id (.dead letter) letters) :
    ∃ before envelope after, letters = before ++ envelope :: after ∧ envelope.job_id = job_id ∧
      envelope.tenant_id = letter.tenant_id ∧
      (∀ other ∈ before, other.job_id ≠ job_id) ∧ ∀ other ∈ after, other.job_id ≠ job_id := by
  obtain ⟨envelope, hmem, rfl, htenant⟩ := h.dead letter rfl
  obtain ⟨before, after, rfl⟩ := List.append_of_mem hmem
  have hnodup := h.nodup
  rw [List.map_append, List.map_cons, List.nodup_middle] at hnodup
  have hne := (List.nodup_cons.mp hnodup).1
  rw [List.mem_append, not_or] at hne
  refine ⟨before, envelope, after, rfl, rfl, htenant, fun other hother heq => ?_,
    fun other hother heq => ?_⟩
  · exact hne.1 (heq ▸ List.mem_map_of_mem hother)
  · exact hne.2 (heq ▸ List.mem_map_of_mem hother)

theorem each_stops {job : JobStatus} {letter : JobEnvelope}
    (hview : View job_id (some job) (.dead letter) platform) (hactive : job.status.final = false)
    (hlisted : Listed job_id (.dead letter) letters)
    (hstops : Stops (pass_step settings) (ResearchProcessor.reconcile_each letters) platform trace
      platform') :
    ∃ stage, Reached job_id letter stage trace platform' := by
  obtain ⟨before, envelope, after, rfl, hid, htenant, hbefore, hafter⟩ := hlisted.split
  rw [reconcile_each_append] at hstops
  rcases Stops.of_bind hstops with hfirst | ⟨_, first, between, second, hfirst, hsecond, rfl⟩
  · obtain ⟨hview', hsilent⟩ := reconcile_each_elsewhere hview hbefore hfirst
    have hreached := (reached_start hview' hactive).prepend hsilent
    exact ⟨_, by rwa [List.append_nil] at hreached⟩
  obtain ⟨hview', hsilent⟩ := reconcile_each_elsewhere hview hbefore hfirst.stops
  rcases Stops.of_bind hsecond with hturn | ⟨_, turn, between', later, hturn, hlater, rfl⟩
  · obtain ⟨stage, hreached⟩ := reconcile_stops hview' hactive hid htenant hturn
    exact ⟨stage, hreached.prepend hsilent⟩
  · have hreached := reconcile_finishes hview' hactive hid htenant hturn
    obtain ⟨_, hview'', -⟩ := hreached.view
    have hdone := hreached.done (reconcile_each_elsewhere hview'' hafter hlater).2
      fun _ hkept => (reconcile_each_elsewhere hkept hafter hlater).1
    exact ⟨_, hdone.prepend hsilent⟩

theorem each_finishes {job : JobStatus} {letter : JobEnvelope}
    (hview : View job_id (some job) (.dead letter) platform) (hactive : job.status.final = false)
    (hlisted : Listed job_id (.dead letter) letters)
    (hfinishes : Finishes (pass_step settings) (ResearchProcessor.reconcile_each letters) platform
      trace (.ok ()) platform') :
    Reached job_id letter .removed trace platform' := by
  obtain ⟨before, envelope, after, rfl, hid, htenant, hbefore, hafter⟩ := hlisted.split
  rw [reconcile_each_append] at hfinishes
  obtain ⟨_, first, between, second, hfirst, hsecond, rfl⟩ := Finishes.of_bind_ok hfinishes
  obtain ⟨_, turn, between', later, hturn, hlater, rfl⟩ := Finishes.of_bind_ok hsecond
  obtain ⟨hview', hsilent⟩ := reconcile_each_elsewhere hview hbefore hfirst.stops
  have hreached := reconcile_finishes hview' hactive hid htenant hturn
  obtain ⟨_, hview'', -⟩ := hreached.view
  have hdone := hreached.done (reconcile_each_elsewhere hview'' hafter hlater.stops).2
    fun _ hkept => (reconcile_each_elsewhere hkept hafter hlater.stops).1
  exact hdone.prepend hsilent

theorem each_final {job : JobStatus} {letter : JobEnvelope}
    (hview : View job_id (some job) (.dead letter) platform) (hfinal : job.status.final = true)
    (hlisted : Listed job_id (.dead letter) letters)
    (hfinishes : Finishes (pass_step settings) (ResearchProcessor.reconcile_each letters) platform
      trace (.ok ()) platform') :
    View job_id (some job) .absent platform' ∧ Silent job_id trace := by
  obtain ⟨before, envelope, after, rfl, hid, -, hbefore, hafter⟩ := hlisted.split
  rw [reconcile_each_append] at hfinishes
  obtain ⟨_, first, between, second, hfirst, hsecond, rfl⟩ := Finishes.of_bind_ok hfinishes
  obtain ⟨_, turn, between', later, hturn, hlater, rfl⟩ := Finishes.of_bind_ok hsecond
  obtain ⟨hview₁, hsilent₁⟩ := reconcile_each_elsewhere hview hbefore hfirst.stops
  obtain ⟨hview₂, hsilent₂⟩ := reconcile_final hview₁ hfinal hid hturn
  obtain ⟨hview₃, hsilent₃⟩ := reconcile_each_elsewhere hview₂ hafter hlater.stops
  exact ⟨hview₃, hsilent₁.append (hsilent₂.append hsilent₃)⟩

end Loop

section Passes

variable {record : Option JobStatus} {state : JobQueue.JobState}
  {platform platform' : Platform (job_queue cfg)} {trace : List PassExchange}
  {job : JobStatus} {letter : JobEnvelope}

theorem View.after_listing (h : View job_id record state platform)
    {reply : ServiceOp.Reply (.queue .dead_letters)}
    (hstep : pass_step settings platform (.queue .dead_letters) reply platform') :
    View job_id record state platform' :=
  h.elsewhere (show Elsewhere job_id (.queue .dead_letters) from trivial) hstep

theorem silent_listing {reply : ServiceOp.Reply (.queue .dead_letters)} :
    Silent job_id [⟨.queue .dead_letters, reply⟩] := by
  rintro _ (_ | ⟨_, ⟨⟩⟩)
  exact ⟨rfl, rfl, rfl⟩

-- A pass over the dead letters, up to where it stops.
theorem pass_stops (hview : View job_id (some job) (.dead letter) platform)
    (hactive : job.status.final = false)
    (hstops : Stops (pass_step settings) ResearchProcessor.reconcile_dead_letters platform trace
      platform') :
    ∃ stage, Reached job_id letter stage trace platform' := by
  unfold ResearchProcessor.reconcile_dead_letters Client.dead_letters Client.queue at hstops
  rw [Program.bind_assoc] at hstops
  rcases stops_perform hstops with ⟨rfl, rfl⟩ | ⟨error, hstep, rfl⟩ |
    ⟨reply, between, rest, hstep, hrest, rfl⟩
  · exact ⟨_, reached_start hview hactive⟩
  · have hreached := reached_start (hview.after_listing hstep) hactive
    exact ⟨_, hreached.prepend silent_listing⟩
  · obtain ⟨letters, rfl, hlisted⟩ := hview.listed hstep
    obtain ⟨stage, hreached⟩ := each_stops (hview.after_listing hstep) hactive hlisted hrest
    exact ⟨stage, hreached.prepend silent_listing⟩

-- The letters of a pass that comes to its end.
theorem pass_finishes (hview : View job_id record state platform)
    (hfinishes : Finishes (pass_step settings) ResearchProcessor.reconcile_dead_letters platform
      trace (.ok ()) platform') :
    ∃ letters between first rest, View job_id record state between ∧
      Listed job_id state letters ∧ Silent job_id first ∧
      Finishes (pass_step settings) (ResearchProcessor.reconcile_each letters) between rest
        (.ok ()) platform' ∧ trace = first ++ rest := by
  unfold ResearchProcessor.reconcile_dead_letters Client.dead_letters Client.queue at hfinishes
  rw [Program.bind_assoc] at hfinishes
  obtain ⟨reply, between, rest, hstep, hrest, rfl⟩ := finishes_perform hfinishes
  obtain ⟨letters, rfl, hlisted⟩ := hview.listed hstep
  exact ⟨letters, between, _, rest, hview.after_listing hstep, hlisted, silent_listing, hrest,
    rfl⟩

-- What a complete pass makes of each stage at which an earlier one has stopped.
theorem Reached.completes {stage : Stage} {first : List PassExchange}
    (h : Reached job_id letter stage first platform)
    (hfinishes : Finishes (pass_step settings) ResearchProcessor.reconcile_dead_letters platform
      trace (.ok ()) platform') :
    (∃ job, View job_id (some job) .absent platform' ∧ job.status = .failed) ∧
      (first ++ trace).filterMap (Reconciliation.released job_id) =
        (if stage = .stored then [] else [letter.tenant_id]) ∧
      (first ++ trace).any (dead_lettered job_id) =
        !decide (stage = .stored ∨ stage = .slot_released) := by
  obtain ⟨job, hview, hstatus⟩ := h.view
  obtain ⟨letters, between, listing, rest, hview', hlisted, hsilent, hrest, rfl⟩ :=
    pass_finishes hview hfinishes
  rw [List.filterMap_append, List.any_append, h.released, h.audited]
  cases stage with
  | untouched =>
      have hreached := (each_finishes hview' hstatus hlisted hrest).prepend hsilent
      rw [hreached.released, hreached.audited]
      exact ⟨hreached.view, rfl, rfl⟩
  | stored | slot_released | audited =>
      have hfinal : job.status.final = true := by rw [show job.status = .failed from hstatus]; rfl
      obtain ⟨hview'', hsilent'⟩ := each_final hview' hfinal hlisted hrest
      rw [(hsilent.append hsilent').released, (hsilent.append hsilent').dead_lettered]
      exact ⟨⟨job, hview'', hstatus⟩, rfl, rfl⟩
  | removed =>
      obtain ⟨hview'', hsilent'⟩ :=
        reconcile_each_elsewhere hview' (hlisted.absent rfl) hrest.stops
      rw [(hsilent.append hsilent').released, (hsilent.append hsilent').dead_lettered]
      exact ⟨⟨job, hview'', hstatus⟩, rfl, rfl⟩

end Passes

end Reconciliation

open Reconciliation

-- A pass that stops is made good by a later complete one, except where it stops after the
-- final status is stored and before the audit event is written.
theorem reconciliation_heals {ι : Type} {cfg : Config} {settings : Settings}
    {platform between final : Platform (job_queue cfg)} {calls : List (Performed ι)}
    (hqueue : Calls cfg (fun _ backend performed =>
      backend.Marked performed.moment performed.call) calls platform.queue)
    (hkeyed : ∀ job_id job, platform.jobs.get? job_id = some job → job.job_id = job_id)
    {job_id : String} {job : JobStatus} (hget : platform.jobs.get? job_id = some job)
    (hactive : job.status = .pending ∨ job.status = .running ∨ job.status = .retrying)
    (hdead : 0 < (Backend.entry platform.queue job_id).dead) {letter : JobEnvelope}
    (hletter : (Backend.entry platform.queue job_id).envelope = some letter.to_json)
    {first second : List PassExchange}
    (hfirst : Stops (pass_step settings) ResearchProcessor.reconcile_dead_letters platform first
      between)
    (hsecond : Finishes (pass_step settings) ResearchProcessor.reconcile_dead_letters between
      second (.ok ()) final) :
    Healed job_id letter.tenant_id (first ++ second) final ↔ ¬StopsInside job_id first := by
  obtain ⟨table, hrefines⟩ := refines_of_marked_run hqueue
  have hholds := hrefines.holds job_id
  have hstate : (table.jobs job_id).is_dead = true := by
    rw [hholds.dead] at hdead
    by_contra halive
    rw [Bool.not_eq_true] at halive
    rw [halive] at hdead
    exact absurd hdead (by decide)
  obtain ⟨dead, hj⟩ := JobTable.dead_of_is_dead hstate
  have htenant : dead.tenant_id = letter.tenant_id := by
    obtain ⟨stored, hstored, hdelivered⟩ := hholds.envelope dead (by rw [hj]; rfl)
    rw [hletter] at hstored
    rw [JobEnvelope.to_json_injective (Option.some.inj hstored)]
    exact (congrArg JobEnvelope.tenant_id hdelivered).symm
  have hview : View job_id (some job) (.dead dead) platform :=
    ⟨hkeyed, hget, table, hrefines, hj⟩
  have hunfinished : job.status.final = false := by
    rcases hactive with h | h | h <;> rw [h] <;> rfl
  obtain ⟨stage, hreached⟩ := pass_stops hview hunfinished hfirst
  obtain ⟨⟨failed, hview', hfailed⟩, hreleased, haudited⟩ := hreached.completes hsecond
  rw [htenant] at hreleased
  constructor
  · intro hhealed hinside
    rw [hhealed.audited, decide_eq_true (hreached.inside.mp hinside)] at haudited
    cases haudited
  · intro houtside
    have hstage := mt hreached.inside.mpr houtside
    obtain ⟨table', hrefines', habsent⟩ := hview'.queue
    refine ⟨⟨failed, hview'.record, hfailed⟩, ?_, ?_, ?_⟩
    · rw [(hrefines'.holds job_id).dead, habsent]
      rfl
    · rw [hreleased, if_neg fun h => hstage (.inl h)]
    · rw [haudited, decide_eq_false hstage]
      rfl

namespace Reconciliation

-- The lease of each of the three attempts runs out.
def worn_out : List (Fin 2 × Moment × QueueCall) :=
  [at_time 0 1000 (.enqueue "job" ResearchRequest.small.model_dump "principal" "tenant"),
    at_time 1 1000 (.claim .inserted 1), at_time 1 1400 (.claim .inserted 1),
    at_time 1 1800 (.claim .inserted 1), at_time 1 2200 (.recover_stale .inserted)]

def worn_out_job : JobStatus :=
  { Server.new_job .small "job" "2026-01-01" with status := .running, attempt := 3 }

def abandoned : Platform (job_queue .default) :=
  { Platform.empty (JobQueue.perform .default [] (.memory .empty) worn_out).2 with
    jobs := Dict.empty.set "job" worn_out_job
    slots := fun _ => 1 }

def exec_late (platform : Platform (job_queue .default)) (op : ServiceOp) :
    op.Reply × Platform (job_queue .default) :=
  platform.exec .small (.at 2300) op

-- The first pass, stopped after so many operations, and the complete one after it.
def stopped_after (steps : ℕ) : List PassExchange × Platform (job_queue .default) :=
  recordFor exec_late steps ResearchProcessor.reconcile_dead_letters abandoned

def completed_after (steps : ℕ) : List PassExchange :=
  ResearchProcessor.reconcile_dead_letters.record exec_late (stopped_after steps).2 |>.1

theorem stops_after (steps : ℕ) :
    Stops (pass_step .small) ResearchProcessor.reconcile_dead_letters abandoned
      (stopped_after steps).1 (stopped_after steps).2 :=
  stops_recordFor (fun _ _ => ⟨.at 2300, rfl⟩) steps _ _

theorem finishes_after {steps : ℕ}
    (h : (ResearchProcessor.reconcile_dead_letters.run exec_late (stopped_after steps).2).1 =
      .ok ()) :
    Finishes (pass_step .small) ResearchProcessor.reconcile_dead_letters (stopped_after steps).2
      (completed_after steps) (.ok ())
      (ResearchProcessor.reconcile_dead_letters.run exec_late (stopped_after steps).2).2 := by
  rw [← h]
  exact finishes_run (fun _ _ => ⟨.at 2300, rfl⟩) _ _

theorem worn_out_run : Calls .default (fun _ backend (performed : Performed (Fin 2)) =>
      backend.Marked performed.moment performed.call)
    (JobQueue.perform .default [] (.memory .empty) worn_out).1 abandoned.queue := by
  refine .perform .memory worn_out ⟨fun _ hlive => ?_, trivial, trivial, trivial, trivial, trivial⟩
  exact absurd hlive (by decide)

theorem abandoned_keyed (job_id : String) (job : JobStatus)
    (h : abandoned.jobs.get? job_id = some job) : job.job_id = job_id := by
  simp only [abandoned, Dict.get?_set, Dict.get?_empty] at h
  split at h
  · next heq =>
    cases h
    exact heq.symm
  · cases h

def worn_out_letter : JobEnvelope :=
  { small_envelope 3 with last_error := some "lease expired" }

end Reconciliation

-- The process ends after the audit event is written and before the letter is removed.
theorem reconciliation_heals_after_audit :
    Healed "job" "tenant" ((stopped_after 6).1 ++ completed_after 6)
      (ResearchProcessor.reconcile_dead_letters.run exec_late (stopped_after 6).2).2 := by
  have hletter : (Backend.entry abandoned.queue "job").envelope = some worn_out_letter.to_json := by
    with_unfolding_all rfl
  have hget : abandoned.jobs.get? "job" = some worn_out_job := rfl
  exact (reconciliation_heals worn_out_run abandoned_keyed hget (.inr (.inl rfl))
    (by decide +kernel) hletter (stops_after 6)
    (finishes_after (by with_unfolding_all rfl))).mpr (by decide +kernel)

-- The process ends once the failed status is stored: the complete pass takes the letter away,
-- and the slot is never given back nor the event written.
theorem stored_status_keeps_slot :
    ∃ (first second : List PassExchange) (between final : Platform (job_queue .default)),
      (abandoned.jobs.get? "job").map JobStatus.status = some .running ∧
      (Backend.entry abandoned.queue "job").dead = 1 ∧
      Stops (pass_step .small) ResearchProcessor.reconcile_dead_letters abandoned first between ∧
      Finishes (pass_step .small) ResearchProcessor.reconcile_dead_letters between second (.ok ())
        final ∧
      ¬Healed "job" "tenant" (first ++ second) final := by
  refine ⟨_, _, _, _, rfl, by decide +kernel, stops_after 4,
    finishes_after (by with_unfolding_all rfl), fun hhealed => ?_⟩
  exact absurd hhealed.released (by decide +kernel)

end ResearchAgent.Service
