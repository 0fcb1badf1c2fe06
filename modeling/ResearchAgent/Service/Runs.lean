import ResearchAgent.Library.Interleaving
import ResearchAgent.JobQueue.Backend
import ResearchAgent.Service.Server
import ResearchAgent.Service.Worker

namespace ResearchAgent.Service

open Library JobQueue

-- What one thread of the system does. A delivery runs the processor on an
-- envelope whoever handed it out; `run_once` also takes it from the queue.
inductive Activity where
  | request (principal : Principal) (request : Request)
  | deliver (envelope : JobEnvelope)
  | reconcile
  | run_once (set_order : SetOrder)
  | heartbeat (envelope : JobEnvelope) (beats : ℕ)

inductive Answer where
  | body (body : Body)
  | worked (value : Bool)
  | done

def Activity.program (settings : Settings) : Activity → ServiceProgram Answer
  | request principal asked => do .ret (.body (← asked.serve settings principal))
  | deliver envelope => do
      ResearchProcessor.call settings envelope
      .ret .done
  | reconcile => do
      ResearchProcessor.reconcile_dead_letters
      .ret .done
  | run_once set_order => do .ret (.worked (← Worker.run_once settings set_order))
  | heartbeat envelope beats => do
      Worker.renew_lease envelope beats
      .ret .done

variable {ι : Type} {queue : Queue}

abbrev ServiceEvent (ι : Type) := Event ι ServiceOp ServiceOp.Reply

abbrev ServiceWorld (ι : Type) (queue : Queue) :=
  World ι ServiceOp ServiceOp.Reply (Platform queue)

abbrev ServicePool (ι : Type) (queue : Queue) :=
  Pool ι ServiceOp ServiceOp.Reply (Platform queue) ServiceError Answer

def service_perform (settings : Settings) (outcome : Outcome queue) (_ : ι)
    (platform : Platform queue) (op : ServiceOp) : op.Reply × Platform queue :=
  platform.exec settings outcome op

def service_step (settings : Settings) (thread : ι) (platform : Platform queue) (op : ServiceOp)
    (reply : op.Reply) (platform' : Platform queue) : Prop :=
  ∃ outcome, service_perform settings outcome thread platform op = (reply, platform')

-- What no thread does: the time to live of a key runs out, or the queue changes
-- by itself.
inductive Elapse : Platform queue → Platform queue → Prop
  | job_expires {platform} (job_id : String) :
      Elapse platform { platform with jobs := platform.jobs.erase job_id }
  | result_expires {platform} (job_id : String) :
      Elapse platform { platform with results := platform.results.erase job_id }
  | slots_expire {platform} (tenant_id : String) :
      Elapse platform (platform.set_slots tenant_id 0)
  | queue {platform} (state : queue.State) : Elapse platform { platform with queue := state }

def ServicePool.start (settings : Settings) (platform : Platform queue) (activity : ι → Activity) :
    ServicePool ι queue :=
  ⟨⟨platform, []⟩, fun thread => (activity thread).program settings⟩

-- The platform with the outcomes of the operations still to come.
abbrev Served (queue : Queue) := Platform queue × (ℕ → Outcome queue)

def served_exec (settings : Settings) (served : Served queue) (op : ServiceOp) :
    op.Reply × Served queue :=
  ((served.1.exec settings (served.2 0) op).1, (served.1.exec settings (served.2 0) op).2,
    fun n => served.2 (n + 1))

section Steps

variable {settings : Settings} {thread : ι} {platform platform' : Platform queue}

theorem exec_effect {outcome : Outcome queue} (h : outcome.fault = none) (op : ServiceOp) :
    platform.exec settings outcome op = platform.effect settings outcome op := by
  cases op <;> simp only [Platform.exec, h]

theorem exec_fault {outcome : Outcome queue} {error : ServiceError} (h : outcome.fault = some error)
    (op : ServiceOp) (hop : op.fallible = true) :
    platform.exec settings outcome op = (.error error, platform) := by
  cases op with
  | now | uuid4 => cases hop
  | _ => simp only [Platform.exec, h]

theorem service_step_cases {op : ServiceOp} {reply : op.Reply}
    (h : service_step settings thread platform op reply platform') :
    (∃ error, reply = .error error ∧ platform' = platform) ∨
      ∃ outcome, platform.effect settings outcome op = (reply, platform') := by
  obtain ⟨outcome, h⟩ := h
  cases op with
  | now | uuid4 => exact .inr ⟨outcome, h⟩
  | _ =>
      simp only [service_perform, Platform.exec] at h
      split at h
      · next error _ => exact .inl ⟨error, (Prod.ext_iff.mp h).1.symm, (Prod.ext_iff.mp h).2.symm⟩
      · exact .inr ⟨outcome, h⟩

theorem jobs_get_step {job_id : String} {value : Option JobStatus}
    (h : service_step settings thread platform (.jobs_get job_id) (.ok value) platform') :
    value = platform.jobs.get? job_id := by
  rcases service_step_cases h with ⟨error, he, -⟩ | ⟨outcome, ho⟩
  · cases he
  · cases ho
    rfl

theorem jobs_values_step {values : List JobStatus}
    (h : service_step settings thread platform .jobs_values (.ok values) platform') :
    values = platform.jobs.values := by
  rcases service_step_cases h with ⟨error, he, -⟩ | ⟨outcome, ho⟩
  · cases he
  · cases ho
    rfl

theorem queue_step {call : QueueCall} {reply : ServiceOp.Reply (.queue call)}
    (h : service_step settings thread platform (.queue call) reply platform') :
    (∃ error, reply = .error error ∧ platform' = platform) ∨ ∃ outcome,
      reply = (queue.call outcome platform.queue call).1.mapError .QueueError ∧
        platform' = { platform with queue := (queue.call outcome platform.queue call).2 } := by
  rcases service_step_cases h with ⟨error, he, hp⟩ | ⟨outcome, ho⟩
  · exact .inl ⟨error, he, hp⟩
  · cases ho
    exact .inr ⟨outcome.queue, rfl, rfl⟩

theorem queue_kept {op : ServiceOp} {reply : op.Reply}
    (h : service_step settings thread platform op reply platform')
    (hop : ∀ call, op ≠ .queue call) : platform'.queue = platform.queue := by
  rcases service_step_cases h with ⟨error, -, rfl⟩ | ⟨outcome, ho⟩
  · rfl
  · cases op with
    | queue call => exact absurd rfl (hop call)
    | acquire_job_slot tenant_id =>
        simp only [Platform.effect, Platform.acquire_job_slot] at ho
        split at ho <;> (cases ho; rfl)
    | jobs_set_if_absent job_id job =>
        simp only [Platform.effect, Platform.set_if_absent] at ho
        split at ho <;> (cases ho; rfl)
    | _ => cases ho; rfl

-- What an operation may do to the status records.
inductive JobsStep (jobs : Dict String JobStatus) : ServiceOp → Dict String JobStatus → Prop
  | keep {op} : JobsStep jobs op jobs
  | set {job_id job} : JobsStep jobs (.jobs_set job_id job) (jobs.set job_id job)
  | create {job_id job} (habsent : jobs.get? job_id = none) :
      JobsStep jobs (.jobs_set_if_absent job_id job) (jobs.set job_id job)
  | delete {job_id} : JobsStep jobs (.jobs_delete job_id) (jobs.erase job_id)

theorem jobs_step {op : ServiceOp} {reply : op.Reply}
    (h : service_step settings thread platform op reply platform') :
    JobsStep platform.jobs op platform'.jobs := by
  rcases service_step_cases h with ⟨error, -, rfl⟩ | ⟨outcome, ho⟩
  · exact .keep
  · cases op with
    | jobs_set => cases ho; exact .set
    | jobs_delete => cases ho; exact .delete
    | jobs_set_if_absent job_id job =>
        simp only [Platform.effect, Platform.set_if_absent] at ho
        split at ho
        · cases ho; exact .keep
        · next habsent =>
            cases ho
            exact .create (by simpa [Dict.contains] using habsent)
    | acquire_job_slot tenant_id =>
        simp only [Platform.effect, Platform.acquire_job_slot] at ho
        split at ho <;> (cases ho; exact .keep)
    | _ => cases ho; exact .keep

end Steps

section Rules

variable {α β : Type} {d : Discipline ι ServiceOp ServiceOp.Reply (Platform queue)} {thread : ι}
  {world : ServiceWorld ι queue}

@[simp] theorem lift_ok (value : α) : lift (.ok value) = .ret value := rfl

theorem lift_uses {allowed : ServiceOp → Prop} (result : Except ServiceError α) :
    (lift result).uses allowed := by
  cases result <;> trivial

theorem perform_uses {allowed : ServiceOp → Prop} {op : ServiceOp} (h : allowed op) :
    (perform op).uses allowed :=
  ⟨h, lift_uses⟩

@[simp] theorem run_lift {σ : Type} (exec : σ → (op : ServiceOp) → op.Reply × σ)
    (result : Except ServiceError α) (state : σ) :
    (lift result).run exec state = (result, state) := by
  cases result <;> rfl

@[simp] theorem run_perform {σ : Type} (exec : σ → (op : ServiceOp) → op.Reply × σ) (op : ServiceOp)
    (state : σ) : (perform op).run exec state = exec state op :=
  run_lift exec _ _

theorem run_served_ok {settings : Settings} {platform platform' : Platform queue}
    {outcomes : ℕ → Outcome queue} {op : ServiceOp} {value : op.Value}
    {f : op.Value → ServiceProgram β}
    (h : platform.exec settings (outcomes 0) op = (.ok value, platform')) :
    (perform op >>= f).run (served_exec settings) (platform, outcomes) =
      (f value).run (served_exec settings) (platform', fun n => outcomes (n + 1)) := by
  rw [Program.run_bind, run_perform]
  simp only [served_exec, h]

theorem run_served_error {settings : Settings} {platform platform' : Platform queue}
    {outcomes : ℕ → Outcome queue} {op : ServiceOp} {error : ServiceError}
    {f : op.Value → ServiceProgram β}
    (h : platform.exec settings (outcomes 0) op = (.error error, platform')) :
    (perform op >>= f).run (served_exec settings) (platform, outcomes) =
      (.error error, (platform', fun n => outcomes (n + 1))) := by
  rw [Program.run_bind, run_perform]
  simp only [served_exec, h]

theorem wp_perform {post : Except ServiceError β → ServiceWorld ι queue → Prop} {op : ServiceOp}
    {f : op.Value → ServiceProgram β}
    (h : ∀ w, d.rely thread world w → d.inv w → ∀ reply state,
      d.Happens w ⟨thread, op, reply⟩ state →
        d.inv (w.after ⟨thread, op, reply⟩ state) ∧
        (∀ other, other ≠ thread → d.rely other w (w.after ⟨thread, op, reply⟩ state)) ∧
        d.wp thread post (lift reply >>= f) (w.after ⟨thread, op, reply⟩ state)) :
    d.wp thread post (perform op >>= f) world :=
  h

theorem wp_seq {program : ServiceProgram α} {f : α → ServiceProgram β}
    (h : d.wp thread (fun _ _ => True) program world)
    (hnext : ∀ value w, d.wp thread (fun _ _ => True) (f value) w) :
    d.wp thread (fun _ _ => True) (program >>= f) world := by
  refine Discipline.wp_bind (Discipline.wp_mono (fun result w _ => ?_) h)
  cases result with
  | ok value => exact hnext value w
  | error => trivial

-- The operations of a worker outside the processor and the reconciliation.
def Plumbing : ServiceOp → Prop
  | .queue _ | .heartbeat => True
  | _ => False

theorem queue_uses {allowed : ServiceOp → Prop} {call : QueueCall}
    {read : QueueReply → Option α} (h : allowed (.queue call)) :
    (Client.queue call read).uses allowed := by
  refine Program.uses_bind (perform_uses h) fun reply => ?_
  split <;> trivial

theorem renew_lease_uses {allowed : ServiceOp → Prop} {envelope : JobEnvelope}
    (h : allowed (.queue (.renew envelope))) (beats : ℕ) :
    (Worker.renew_lease envelope beats).uses allowed := by
  induction beats with
  | zero => trivial
  | succ beats ih =>
      refine Program.uses_bind (queue_uses h) fun renewed => ?_
      cases renewed
      · trivial
      · exact ih

-- A discipline that one turn of the reconciliation meets, the whole pass meets; and
-- one that the pass and the processor meet, the worker meets.
theorem wp_reconcile_dead_letters
    (hplumbing : ∀ {α : Type} {program : ServiceProgram α} w, program.uses Plumbing →
      d.wp thread (fun _ _ => True) program w)
    (hreconcile : ∀ envelope w, d.wp thread (fun _ _ => True)
      (ResearchProcessor.reconcile envelope) w) :
    d.wp thread (fun _ _ => True) ResearchProcessor.reconcile_dead_letters world := by
  refine wp_seq (hplumbing world (queue_uses trivial)) fun envelopes w => ?_
  induction envelopes generalizing w with
  | nil => exact hplumbing w trivial
  | cons envelope rest ih => exact wp_seq (hreconcile envelope w) fun _ => ih

theorem wp_run_once {settings : Settings}
    (hplumbing : ∀ {α : Type} {program : ServiceProgram α} w, program.uses Plumbing →
      d.wp thread (fun _ _ => True) program w)
    (hreconcile : ∀ envelope w, d.wp thread (fun _ _ => True)
      (ResearchProcessor.reconcile envelope) w)
    (hcall : ∀ envelope w, d.wp thread (fun _ _ => True)
      (ResearchProcessor.call settings envelope) w) (set_order : SetOrder) :
    d.wp thread (fun _ _ => True) (Worker.run_once settings set_order) world := by
  refine wp_seq (wp_reconcile_dead_letters hplumbing hreconcile) fun _ w => ?_
  refine wp_seq (hplumbing w (queue_uses trivial)) fun claimed v => ?_
  cases claimed with
  | none => exact hplumbing v trivial
  | some envelope =>
      refine wp_seq (Discipline.wp_attempt (Discipline.wp_mono (fun result u _ => ?_)
        (hcall envelope v))) fun _ u => ?_
      · cases result with
        | ok => trivial
        | error =>
            exact hplumbing u (Program.uses_bind (perform_uses trivial) fun _ =>
              Program.uses_bind (queue_uses trivial) fun _ => trivial)
      · exact hplumbing u (Program.uses_bind (perform_uses trivial) fun _ =>
          Program.uses_bind (queue_uses trivial) fun acknowledged => by
            cases acknowledged <;> trivial)

end Rules

section Requests

open Server

variable {settings : Settings} {principal : Principal}

-- What a request does before it touches a record, a slot or the queue.
def Lookup : ServiceOp → Prop
  | .jobs_get _ | .jobs_values | .results_get _ | .enforce_rate_limit _ | .now | .uuid4 => True
  | _ => False

-- What a review does: besides, it stores a final record under its own id.
def Review : ServiceOp → Prop
  | .jobs_set job_id job => job.job_id = job_id ∧ job.status.final = true
  | .append_audit _ _ _ _ => True
  | op => Lookup op

theorem Lookup.review {op : ServiceOp} (h : Lookup op) : Review op := by
  cases op <;> first | exact h.elim | trivial

theorem require_role_uses {allowed : ServiceOp → Prop} (roles : List Role) :
    (require_role principal roles).uses allowed := by
  unfold require_role
  split <;> trivial

theorem tenant_job_uses (job_id : String) : (tenant_job job_id principal).uses Lookup := by
  refine Program.uses_bind (perform_uses trivial) fun value => ?_
  cases value with
  | none => trivial
  | some job =>
      simp only [check_tenant]
      split <;> trivial

theorem limit_rate_uses (principal : Principal) : (limit_rate principal).uses Lookup :=
  Program.uses_attempt (perform_uses trivial) fun error => by cases error <;> trivial

theorem find_job_uses (idempotency_key : Option String) :
    (find_job settings principal idempotency_key).uses Lookup := by
  refine Program.uses_bind (require_role_uses _) fun _ =>
    Program.uses_bind (limit_rate_uses principal) fun _ =>
    Program.uses_bind ?_ fun _ => Program.uses_bind (perform_uses trivial) fun _ => trivial
  cases idempotency_key with
  | none => exact perform_uses trivial
  | some key =>
      simp only [new_job_id]
      split <;> trivial

theorem get_research_result_uses (job_id : String) :
    (get_research_result job_id principal).uses Lookup :=
  Program.uses_bind (require_role_uses _) fun _ => tenant_job_uses job_id

theorem list_jobs_uses (limit : ℕ) : (list_jobs limit principal).uses Lookup :=
  Program.uses_bind (require_role_uses _) fun _ => Program.uses_bind (perform_uses trivial)
    fun _ => trivial

-- What both reviews end with.
theorem save_review_uses {job : JobStatus} (hfinal : job.status.final = true) (event_type : String)
    (job_id : String) (details : JSONObject) : (do
      save_job job
      Client.append_audit event_type principal job_id details
      .ret job : ServiceProgram JobStatus).uses Review :=
  Program.uses_bind (perform_uses ⟨rfl, hfinal⟩) fun _ =>
    Program.uses_bind (perform_uses trivial) fun _ => trivial

theorem approve_research_uses (job_id : String) :
    (approve_research job_id principal).uses Review := by
  refine Program.uses_bind (require_role_uses _) fun _ => Program.uses_bind
    (Program.uses_mono (fun _ => Lookup.review) (tenant_job_uses job_id)) fun job => ?_
  split
  · trivial
  · refine Program.uses_bind (perform_uses trivial) fun result => ?_
    split
    · trivial
    · exact Program.uses_bind (perform_uses trivial) fun _ => save_review_uses rfl _ _ _

theorem reject_research_uses (job_id reason : String) :
    (reject_research job_id reason principal).uses Review := by
  refine Program.uses_bind (require_role_uses _) fun _ => Program.uses_bind
    (Program.uses_mono (fun _ => Lookup.review) (tenant_job_uses job_id)) fun job => ?_
  split
  · trivial
  · exact Program.uses_bind (perform_uses trivial) fun _ => save_review_uses rfl _ _ _

end Requests

-- The queue the service is deployed with, one call at a time.
def job_queue (cfg : Config) : Queue :=
  ⟨Backend, Moment, fun moment backend => backend.call cfg moment⟩

section SmallSystem

-- A configuration for runs that can be computed. None of them digests a key.
def Settings.small : Settings where
  require_report_approval := true
  job_max_attempts := 3
  max_concurrent_jobs_per_tenant := 2
  poll_timeout := 5
  sha256 := id
  upper := String.toUpper

def Principal.small : Principal :=
  ⟨"principal", "tenant", [.researcher, .approver], by decide, by decide⟩

def ResearchRequest.small : ResearchRequest := ⟨"Is it worth it?", ["NVDA"], .quick⟩

def small_submission : Activity := .request .small (.submit .small none)

-- The envelope of the submitted job on its n-th delivery.
def small_envelope (attempt : ℤ) : JobEnvelope :=
  { new_envelope (1000 : ℕ) "job" ResearchRequest.small.model_dump "principal" "tenant" with
    attempt }

def Outcome.at (now : ℕ) : Outcome (job_queue .default) where
  uuid := "job"
  research := { report := .dict [("recommended_action", .str "HOLD")] }
  queue := ⟨now, []⟩

-- So many operations of one thread, all at one time.
def turns {n : ℕ} (thread now count : ℕ) : List (Fin (n + 1) × Outcome (job_queue .default)) :=
  List.replicate count (.clamp thread n, .at now)

def small_run {ι : Type} [DecidableEq ι] (activity : ι → Activity)
    (moves : List (ι × Outcome (job_queue .default))) : ServicePool ι (job_queue .default) :=
  (ServicePool.start .small (.empty (Backend.memory .empty)) activity).schedule
    (service_perform .small) moves

theorem run_small_run {ι : Type} [DecidableEq ι] (activity : ι → Activity)
    (moves : List (ι × Outcome (job_queue .default)))
    (environment : Platform (job_queue .default) → Platform (job_queue .default) → Prop) :
    Run (service_step .small) environment Unrestricted
      (ServicePool.start .small (.empty (Backend.memory .empty)) activity)
      (small_run activity moves) :=
  Run.start.schedule (fun outcome _ _ _ => ⟨outcome, rfl⟩) moves (respects_unrestricted _ _)

end SmallSystem

end ResearchAgent.Service
