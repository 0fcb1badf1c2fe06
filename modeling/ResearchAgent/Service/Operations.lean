import ResearchAgent.Library.Dict
import ResearchAgent.Library.Program
import ResearchAgent.Service.Contracts

namespace ResearchAgent.Service

open Library JobQueue

-- One operation on a store, on the governance controls, on the queue or on the
-- outside world. Each is atomic and may raise, in which case it has no effect.
-- The job of `release_job_slot` is no argument of the source: it says for which
-- job the call is made and the counter does not see it.
inductive ServiceOp where
  | jobs_get (job_id : String)
  | jobs_set (job_id : String) (job : JobStatus)
  | jobs_set_if_absent (job_id : String) (job : JobStatus)
  | jobs_delete (job_id : String)
  | jobs_values
  | results_get (job_id : String)
  | results_set (job_id : String) (state : ResearchState (Option JSONObject))
  | enforce_rate_limit (principal : Principal)
  | acquire_job_slot (tenant_id : String)
  | release_job_slot (tenant_id job_id : String)
  | append_audit (event_type : String) (principal : Principal) (job_id : Option String)
      (details : JSONObject)
  | queue (call : QueueCall)
  | run_research (request : ResearchRequest)
  | heartbeat
  | now
  | uuid4

namespace ServiceOp

abbrev Value : ServiceOp → Type
  | jobs_get _ => Option JobStatus
  | jobs_set_if_absent _ _ | acquire_job_slot _ => Bool
  | jobs_values => List JobStatus
  | results_get _ => Option (ResearchState (Option JSONObject))
  | jobs_set _ _ | jobs_delete _ | results_set _ _ | enforce_rate_limit _
  | release_job_slot _ _ | append_audit _ _ _ _ | heartbeat => Unit
  | queue _ => QueueReply
  | run_research _ => ResearchState Report
  | now | uuid4 => String

-- The clock and the random source do not raise.
def fallible : ServiceOp → Bool
  | now | uuid4 => false
  | _ => true

abbrev Reply (op : ServiceOp) : Type := Except ServiceError op.Value

end ServiceOp

abbrev ServiceProgram (α : Type) := Program ServiceOp ServiceOp.Reply ServiceError α

def lift {α : Type} : Except ServiceError α → ServiceProgram α
  | .ok value => .ret value
  | .error error => .raise error

def perform (op : ServiceOp) : ServiceProgram op.Value := .call op lift

namespace Client

abbrev jobs_get (job_id : String) : ServiceProgram (Option JobStatus) :=
  perform (.jobs_get job_id)

abbrev jobs_set (job_id : String) (job : JobStatus) : ServiceProgram Unit :=
  perform (.jobs_set job_id job)

abbrev jobs_set_if_absent (job_id : String) (job : JobStatus) : ServiceProgram Bool :=
  perform (.jobs_set_if_absent job_id job)

abbrev jobs_delete (job_id : String) : ServiceProgram Unit := perform (.jobs_delete job_id)

abbrev jobs_values : ServiceProgram (List JobStatus) := perform .jobs_values

abbrev results_get (job_id : String) :
    ServiceProgram (Option (ResearchState (Option JSONObject))) :=
  perform (.results_get job_id)

abbrev results_set (job_id : String) (state : ResearchState (Option JSONObject)) :
    ServiceProgram Unit :=
  perform (.results_set job_id state)

abbrev enforce_rate_limit (principal : Principal) : ServiceProgram Unit :=
  perform (.enforce_rate_limit principal)

abbrev acquire_job_slot (tenant_id : String) : ServiceProgram Bool :=
  perform (.acquire_job_slot tenant_id)

abbrev release_job_slot (tenant_id job_id : String) : ServiceProgram Unit :=
  perform (.release_job_slot tenant_id job_id)

abbrev append_audit (event_type : String) (principal : Principal) (job_id : Option String)
    (details : JSONObject) : ServiceProgram Unit :=
  perform (.append_audit event_type principal job_id details)

abbrev run_research (request : ResearchRequest) : ServiceProgram (ResearchState Report) :=
  perform (.run_research request)

abbrev heartbeat : ServiceProgram Unit := perform .heartbeat

abbrev now : ServiceProgram String := perform .now

abbrev uuid4 : ServiceProgram String := perform .uuid4

-- The queue answers every call in kind.
def queue {α : Type} (call : QueueCall) (read : QueueReply → Option α) : ServiceProgram α := do
  match read (← perform (.queue call)) with
  | some value => .ret value
  | none => .raise (.TypeError "unexpected reply of the queue")

def read_bool : QueueReply → Option Bool
  | .bool value => some value
  | _ => none

def read_claimed : QueueReply → Option (Option JobEnvelope)
  | .claimed envelope => some envelope
  | _ => none

def read_outcome : QueueReply → Option RetryOutcome
  | .outcome value => some value
  | _ => none

def read_envelopes : QueueReply → Option (List JobEnvelope)
  | .envelopes value => some value
  | _ => none

def enqueue (job_id : String) (request : JSONObject) (principal_id tenant_id : String) :
    ServiceProgram Bool :=
  queue (.enqueue job_id request principal_id tenant_id) read_bool

def claim (set_order : SetOrder) (timeout : ℚ) : ServiceProgram (Option JobEnvelope) :=
  queue (.claim set_order timeout) read_claimed

def ack (envelope : JobEnvelope) : ServiceProgram Bool := queue (.ack envelope) read_bool

def renew (envelope : JobEnvelope) : ServiceProgram Bool := queue (.renew envelope) read_bool

def retry (envelope : JobEnvelope) (error : String) : ServiceProgram RetryOutcome :=
  queue (.retry envelope error) read_outcome

def dead_letters : ServiceProgram (List JobEnvelope) := queue .dead_letters read_envelopes

def remove_dead_letter (envelope : JobEnvelope) : ServiceProgram Bool :=
  queue (.remove_dead_letter envelope) read_bool

end Client

-- A queue as its clients see it. `Outcome` says how a call went where the queue
-- alone does not determine it.
structure Queue where
  State : Type
  Outcome : Type
  call : Outcome → State → QueueCall → Except QueueError QueueReply × State

structure AuditEvent where
  event_type : String
  principal_id : String
  tenant_id : String
  job_id : Option String
  details : JSONObject
  timestamp : String

-- What the replicas share. The order of `jobs` is the order in which `values`
-- lists them.
structure Platform (queue : Queue) where
  jobs : Dict String JobStatus
  results : Dict String (ResearchState (Option JSONObject))
  slots : String → ℕ
  audit : List AuditEvent
  queue : queue.State

-- How one operation turns out: it raises, or it takes effect with these answers
-- of the clock, of the random source, of the research graph and of the queue.
structure Outcome (queue : Queue) where
  fault : Option ServiceError := none
  time : String := ""
  uuid : String := ""
  research : ResearchState Report := { report := .none }
  queue : queue.Outcome

namespace Platform

variable {queue : Queue} (settings : Settings) (outcome : Outcome queue) (platform : Platform queue)

def empty (start : queue.State) : Platform queue := ⟨.empty, .empty, fun _ => 0, [], start⟩

def set_slots (tenant_id : String) (count : ℕ) : Platform queue :=
  { platform with slots := Function.update platform.slots tenant_id count }

def acquire_job_slot (tenant_id : String) : Bool × Platform queue :=
  if platform.slots tenant_id ≥ settings.max_concurrent_jobs_per_tenant then (false, platform)
  else (true, platform.set_slots tenant_id (platform.slots tenant_id + 1))

def release_job_slot (tenant_id : String) : Platform queue :=
  platform.set_slots tenant_id (max 0 (platform.slots tenant_id - 1))

def set_if_absent (job_id : String) (job : JobStatus) : Bool × Platform queue :=
  if platform.jobs.contains job_id then (false, platform)
  else (true, { platform with jobs := platform.jobs.set job_id job })

def append_audit (event_type : String) (principal : Principal) (job_id : Option String)
    (details : JSONObject) : Platform queue :=
  { platform with audit := platform.audit ++ [{
      event_type, principal_id := principal.principal_id, tenant_id := principal.tenant_id,
      job_id, details, timestamp := outcome.time }] }

-- The operation when it does not raise. The count behind the rate limit is left
-- open: its outcome is a matter of whether the operation raises.
def effect : (op : ServiceOp) → op.Reply × Platform queue
  | .jobs_get job_id => (.ok (platform.jobs.get? job_id), platform)
  | .jobs_set job_id job => (.ok (), { platform with jobs := platform.jobs.set job_id job })
  | .jobs_set_if_absent job_id job => (platform.set_if_absent job_id job).map .ok id
  | .jobs_delete job_id => (.ok (), { platform with jobs := platform.jobs.erase job_id })
  | .jobs_values => (.ok platform.jobs.values, platform)
  | .results_get job_id => (.ok (platform.results.get? job_id), platform)
  | .results_set job_id state =>
      (.ok (), { platform with results := platform.results.set job_id state })
  | .enforce_rate_limit _ | .heartbeat => (.ok (), platform)
  | .acquire_job_slot tenant_id => (platform.acquire_job_slot settings tenant_id).map .ok id
  | .release_job_slot tenant_id _ => (.ok (), platform.release_job_slot tenant_id)
  | .append_audit event_type principal job_id details =>
      (.ok (), platform.append_audit outcome event_type principal job_id details)
  | .queue call =>
      (queue.call outcome.queue platform.queue call).map (·.mapError .QueueError)
        fun state => { platform with queue := state }
  | .run_research _ => (.ok outcome.research, platform)
  | .now => (.ok outcome.time, platform)
  | .uuid4 => (.ok outcome.uuid, platform)

def exec : (op : ServiceOp) → op.Reply × Platform queue
  | .now => effect settings outcome platform .now
  | .uuid4 => effect settings outcome platform .uuid4
  | op =>
      match outcome.fault with
      | some error => (.error error, platform)
      | none => effect settings outcome platform op

end Platform

end ResearchAgent.Service
