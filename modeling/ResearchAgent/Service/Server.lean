import ResearchAgent.Service.Operations

namespace ResearchAgent.Service

open Library JobQueue Client

-- `[A-Za-z0-9_.:-]{8,128}`
def is_idempotency_key (text : String) : Bool :=
  8 ≤ text.length && text.length ≤ 128 &&
    text.toList.all fun char => alphanumeric char || char ∈ ['_', '.', ':', '-']

namespace Server

def require_role (principal : Principal) (roles : List Role) : ServiceProgram Unit :=
  if has_role principal roles then .ret () else .raise (.HTTPException 403 "Insufficient role")

def not_found (job_id : String) : ServiceError := .HTTPException 404 s!"Job {job_id} not found"

def check_tenant (job_id : String) (principal : Principal) :
    Option JobStatus → ServiceProgram JobStatus
  | none => .raise (not_found job_id)
  | some job => if job.tenant_id ≠ principal.tenant_id then .raise (not_found job_id) else .ret job

def tenant_job (job_id : String) (principal : Principal) : ServiceProgram JobStatus := do
  let job ← jobs_get job_id
  check_tenant job_id principal job

def save_job (job : JobStatus) : ServiceProgram Unit := jobs_set job.job_id job

def limit_rate (principal : Principal) : ServiceProgram Unit :=
  (enforce_rate_limit principal).attempt fun
    | .PermissionError text => .raise (.HTTPException 429 text)
    | error => .raise error

def idempotent_id (settings : Settings) (principal : Principal) (key : String) : String :=
  "idem-" ++ (settings.sha256 s!"{principal.tenant_id}:{principal.principal_id}:{key}").take 32

def new_job_id (settings : Settings) (principal : Principal) :
    Option String → ServiceProgram String
  | some key =>
      if is_idempotency_key key then .ret (idempotent_id settings principal key)
      else .raise (.HTTPException 400 "Invalid Idempotency-Key")
  | none => uuid4

def new_job (principal : Principal) (job_id created_at : String) : JobStatus :=
  { job_id, status := .pending, tenant_id := principal.tenant_id,
    principal_id := principal.principal_id, created_at }

-- The job another submission has created in the meantime.
def raced_job (principal : Principal) (job_id : String) : ServiceProgram JobStatus := do
  release_job_slot principal.tenant_id job_id
  match ← jobs_get job_id with
  | none => .raise (.JobStoreError s!"Concurrent job {job_id} became unavailable")
  | some raced => .ret raced

-- What a submission makes of the answer of `enqueue`.
def record_enqueued (principal : Principal) (request : ResearchRequest) (job : JobStatus)
    (enqueued : Bool) : ServiceProgram JobStatus :=
  if !enqueued then do
    jobs_delete job.job_id
    .raise (.QueueError (.JobQueueError s!"Queue rejected new job {job.job_id}"))
  else do
    append_audit "job_submitted" principal job.job_id
      [("tickers", .list (request.tickers.map .str)),
       ("depth", .str request.research_depth.literal)]
    .ret job

def enqueue_job (principal : Principal) (request : ResearchRequest) (job : JobStatus) :
    ServiceProgram JobStatus := do
  let enqueued ← enqueue job.job_id request.model_dump principal.principal_id principal.tenant_id
  record_enqueued principal request job enqueued

-- The `try` block of `submit_research`.
def create_job (principal : Principal) (request : ResearchRequest) (job : JobStatus) :
    ServiceProgram JobStatus := do
  if ← jobs_set_if_absent job.job_id job then enqueue_job principal request job
  else raced_job principal job.job_id

-- The `except` block of `submit_research`.
def give_back (principal : Principal) (job_id : String) (error : ServiceError) :
    ServiceProgram JobStatus := do
  release_job_slot principal.tenant_id job_id
  .raise error

-- What follows once the slot is acquired.
def accept_job (principal : Principal) (request : ResearchRequest) (job_id : String) :
    ServiceProgram JobStatus := do
  let created_at ← now
  (create_job principal request (new_job principal job_id created_at)).attempt
    (give_back principal job_id)

-- What follows once no job is found under the id.
def reserve_job (principal : Principal) (request : ResearchRequest) (job_id : String) :
    ServiceProgram JobStatus := do
  if ← acquire_job_slot principal.tenant_id then accept_job principal request job_id
  else .raise (.HTTPException 429 "Tenant concurrent-job limit exceeded")

-- The id a submission goes by, with the job that is there already.
def find_job (settings : Settings) (principal : Principal) (idempotency_key : Option String) :
    ServiceProgram (String × Option JobStatus) := do
  require_role principal [.researcher]
  limit_rate principal
  let job_id ← new_job_id settings principal idempotency_key
  let existing ← jobs_get job_id
  .ret (job_id, existing)

def submit_research (settings : Settings) (principal : Principal) (request : ResearchRequest)
    (idempotency_key : Option String) : ServiceProgram JobStatus := do
  match ← find_job settings principal idempotency_key with
  | (_, some existing) => .ret existing
  | (job_id, none) => reserve_job principal request job_id

def get_research_result (job_id : String) (principal : Principal) : ServiceProgram JobStatus := do
  require_role principal [.reader, .researcher, .approver]
  tenant_job job_id principal

def not_awaiting : ServiceError := .HTTPException 409 "Job is not awaiting approval"

def approve_research (job_id : String) (principal : Principal) : ServiceProgram JobStatus := do
  require_role principal [.approver]
  let job ← tenant_job job_id principal
  if job.status ≠ .awaiting_approval then .raise not_awaiting else do
  let result ← results_get job_id
  match result.bind ResearchState.report with
  | none => .raise (.HTTPException 409 "Job report is unavailable")
  | some report => do
      let approved_at ← now
      let job := { job with
        status := .approved, report := some report, approved_at := some approved_at,
        approved_by := some principal.principal_id }
      save_job job
      append_audit "report_approved" principal job_id []
      .ret job

def reject_research (job_id : String) (reason : String) (principal : Principal) :
    ServiceProgram JobStatus := do
  require_role principal [.approver]
  let job ← tenant_job job_id principal
  if job.status ≠ .awaiting_approval then .raise not_awaiting else do
  let approved_at ← now
  let job := { job with
    status := .rejected, error := some "Report rejected during human review.",
    approved_at := some approved_at, approved_by := some principal.principal_id }
  save_job job
  append_audit "report_rejected" principal job_id [("reason", .str reason)]
  .ret job

-- Newest first; jobs created at the same time keep their order.
def newest_first (jobs : List JobStatus) : List JobStatus :=
  jobs.mergeSort fun job other => other.created_at ≤ job.created_at

structure Listing where
  jobs : List JobStatus
  total : ℕ

def list_jobs (limit : ℕ) (principal : Principal) : ServiceProgram Listing := do
  require_role principal [.reader, .researcher, .approver]
  let values ← jobs_values
  let jobs := newest_first (values.filter fun job => job.tenant_id = principal.tenant_id)
  .ret { jobs := jobs.take limit, total := jobs.length }

end Server

-- A request that has passed authentication and body validation.
inductive Request where
  | submit (request : ResearchRequest) (idempotency_key : Option String)
  | get (job_id : String)
  | list (limit : ℕ)
  | approve (job_id : String)
  | reject (job_id reason : String)

inductive Body where
  | job (status : JobStatus)
  | listing (jobs : List JobStatus) (total : ℕ)
  | detail (text : String)

structure Response where
  status_code : ℕ
  body : Body

def Request.serve (settings : Settings) (principal : Principal) : Request → ServiceProgram Body
  | submit request idempotency_key => do
      .ret (.job (← Server.submit_research settings principal request idempotency_key))
  | get job_id => do .ret (.job (← Server.get_research_result job_id principal))
  | list limit => do
      let listing ← Server.list_jobs limit principal
      .ret (.listing listing.jobs listing.total)
  | approve job_id => do .ret (.job (← Server.approve_research job_id principal))
  | reject job_id reason => do .ret (.job (← Server.reject_research job_id reason principal))

def Request.success_code : Request → ℕ
  | submit _ _ => 202
  | get _ | list _ | approve _ | reject _ _ => 200

-- What the exception handlers of the application make of an error.
def ServiceError.response : ServiceError → Response
  | HTTPException status_code detail => ⟨status_code, .detail detail⟩
  | JobStoreError _ => ⟨503, .detail "Job store unavailable"⟩
  | QueueError (.JobQueueError _) => ⟨503, .detail "Job queue unavailable"⟩
  | _ => ⟨500, .detail "Internal Server Error"⟩

def Request.respond (request : Request) : Except ServiceError Body → Response
  | .ok body => ⟨request.success_code, body⟩
  | .error error => error.response

end ResearchAgent.Service
