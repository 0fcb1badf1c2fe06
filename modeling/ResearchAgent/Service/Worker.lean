import ResearchAgent.Service.Operations

namespace ResearchAgent.Service

open Library JobQueue Client

-- The principal that audit events of the worker name.
def worker_actor (envelope : JobEnvelope) : ServiceProgram Principal :=
  lift (Principal.model_validate envelope.principal_id envelope.tenant_id [.reader])

namespace ResearchProcessor

-- The `try` block of `__call__`.
def research (settings : Settings) (envelope : JobEnvelope) :
    ServiceProgram (ResearchState Report) := do
  let request ← lift (ResearchRequest.model_validate settings.upper envelope.request)
  let state ← run_research request
  match state.error with
  | none | some "" => .ret state
  | some error => .raise (.RuntimeError error)

def attempt_details (envelope : JobEnvelope) : JSONObject := [("attempt", .int envelope.attempt)]

def exhausted_text : String := "Research execution failed after all retry attempts."

-- The failure of a delivery when another attempt is left.
def schedule_retry (envelope : JobEnvelope) (actor : Principal) (job : JobStatus) :
    ServiceProgram Unit := do
  let job := { job with
    status := .retrying, error := some "Research execution failed and will be retried." }
  jobs_set job.job_id job
  append_audit "job_retry_scheduled" actor job.job_id (attempt_details envelope)

-- The failure of the last attempt.
def fail (envelope : JobEnvelope) (actor : Principal) (job : JobStatus) : ServiceProgram Unit := do
  let completed_at ← now
  let job := { job with
    status := .failed, error := some exhausted_text, completed_at := some completed_at }
  release_job_slot envelope.tenant_id job.job_id
  jobs_set job.job_id job
  append_audit "job_failed" actor job.job_id (attempt_details envelope)

-- The `except` block of `__call__`, before it raises again.
def record_failure (settings : Settings) (envelope : JobEnvelope) (actor : Principal)
    (job : JobStatus) : ServiceProgram Unit :=
  if envelope.attempt ≥ settings.job_max_attempts then fail envelope actor job
  else schedule_retry envelope actor job

-- The part of `__call__` after the `try` statement.
def finish (settings : Settings) (envelope : JobEnvelope) (actor : Principal) (job : JobStatus)
    (state : ResearchState Report) : ServiceProgram Unit := do
  let report ← lift (report_dict state.report)
  results_set job.job_id { state with report }
  let completed_at ← now
  let job := { job with
    status := if settings.require_report_approval then .awaiting_approval else .completed
    report := if settings.require_report_approval then none else report
    error := none
    completed_at := some completed_at
    tool_calls_count := state.tool_calls_log.length
    llm_calls_count := state.model_calls.getD 0
    input_tokens := state.input_tokens.getD 0
    output_tokens := state.output_tokens.getD 0 }
  jobs_set job.job_id job
  release_job_slot envelope.tenant_id job.job_id
  append_audit
    (if settings.require_report_approval then "report_awaiting_approval" else "job_completed")
    actor job.job_id
    [("tool_calls", .int job.tool_calls_count), ("model_calls", .int job.llm_calls_count)]

def run (settings : Settings) (envelope : JobEnvelope) (actor : Principal) (job : JobStatus) :
    ServiceProgram Unit := do
  let job := { job with status := .running, attempt := envelope.attempt }
  jobs_set job.job_id job
  append_audit "job_claimed" actor job.job_id (attempt_details envelope)
  let state ← (research settings envelope).attempt fun error => do
    record_failure settings envelope actor job
    .raise error
  finish settings envelope actor job state

def call (settings : Settings) (envelope : JobEnvelope) : ServiceProgram Unit := do
  match ← jobs_get envelope.job_id with
  | none => .raise (.RuntimeError s!"Job {envelope.job_id} is missing from the status store")
  | some job => do
      let actor ← worker_actor envelope
      run settings envelope actor job

def last_error (envelope : JobEnvelope) : JSONValue :=
  match envelope.last_error with
  | none => .null
  | some error => .str error

def fail_dead_letter (envelope : JobEnvelope) (job : JobStatus) : ServiceProgram Unit := do
  let completed_at ← now
  let job := { job with
    status := .failed, error := some exhausted_text, completed_at := some completed_at,
    attempt := envelope.attempt }
  jobs_set job.job_id job
  release_job_slot envelope.tenant_id job.job_id
  let actor ← worker_actor envelope
  append_audit "job_dead_lettered" actor job.job_id
    [("attempt", .int envelope.attempt), ("reason", last_error envelope)]
  let _ ← remove_dead_letter envelope

-- One turn of the loop in `reconcile_dead_letters`.
def reconcile (envelope : JobEnvelope) : ServiceProgram Unit := do
  match ← jobs_get envelope.job_id with
  | none => .ret ()
  | some job =>
      if job.status.final then do let _ ← remove_dead_letter envelope
      else fail_dead_letter envelope job

def reconcile_each : List JobEnvelope → ServiceProgram Unit
  | [] => .ret ()
  | envelope :: rest => do
      reconcile envelope
      reconcile_each rest

def reconcile_dead_letters : ServiceProgram Unit := do
  let envelopes ← dead_letters
  reconcile_each envelopes

end ResearchProcessor

namespace Worker

-- The renewals of a heartbeat task before it is told to stop.
def renew_lease (envelope : JobEnvelope) : ℕ → ServiceProgram Unit
  | 0 => .ret ()
  | beats + 1 => do
      if ← renew envelope then renew_lease envelope beats else .ret ()

-- The heartbeat task runs beside this one; `heartbeat` is where it is waited for,
-- and raises if the task did.
def process (settings : Settings) (envelope : JobEnvelope) : ServiceProgram Bool := do
  (ResearchProcessor.call settings envelope).attempt fun error => do
    heartbeat
    let _ ← retry envelope error.text
    .raise error
  heartbeat
  if ← ack envelope then .ret true
  else .raise (.RuntimeError s!"Lease for job {envelope.job_id} was lost before ack")

def run_once (settings : Settings) (set_order : SetOrder) : ServiceProgram Bool := do
  ResearchProcessor.reconcile_dead_letters
  match ← claim set_order settings.poll_timeout with
  | none => .ret false
  | some envelope => process settings envelope

end Worker

end ResearchAgent.Service
