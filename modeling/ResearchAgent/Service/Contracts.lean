import ResearchAgent.JobQueue.Envelope

namespace ResearchAgent.Service

open JobQueue

inductive ServiceError where
  | JobStoreError (message : String)
  | QueueError (error : QueueError)
  | PermissionError (message : String)
  | HTTPException (status_code : ℕ) (detail : String)
  | RuntimeError (message : String)
  | TypeError (message : String)
  | ValidationError (field message : String)
  | Exception (message : String)
deriving DecidableEq, Repr

namespace ServiceError

-- `str(exc)`. The layout that pydantic gives its own errors is not kept.
def text : ServiceError → String
  | JobStoreError message | PermissionError message | RuntimeError message | TypeError message
  | Exception message => message
  | QueueError (.JobQueueError message) | QueueError (.ValueError message) => message
  | QueueError (.KeyError key) => s!"'{key}'"
  | HTTPException status_code detail => s!"{status_code}: {detail}"
  | ValidationError field message => s!"{field}: {message}"

end ServiceError

inductive Role where
  | reader
  | researcher
  | approver
  | admin
deriving DecidableEq, Repr

def between (low high : Char) (char : Char) : Bool := low ≤ char && char ≤ high

def alphanumeric (char : Char) : Bool :=
  between 'a' 'z' char || between 'A' 'Z' char || between '0' '9' char

-- `^[a-zA-Z0-9_.-]{1,64}$`
def is_identifier (text : String) : Bool :=
  1 ≤ text.length && text.length ≤ 64 &&
    text.toList.all fun char => alphanumeric char || char ∈ ['_', '.', '-']

structure Principal where
  principal_id : String
  tenant_id : String
  roles : List Role
  principal_id_valid : is_identifier principal_id
  tenant_id_valid : is_identifier tenant_id
deriving DecidableEq

def Principal.model_validate (principal_id tenant_id : String) (roles : List Role) :
    Except ServiceError Principal :=
  if hp : is_identifier principal_id then
    if ht : is_identifier tenant_id then
      .ok ⟨principal_id, tenant_id, roles, hp, ht⟩
    else
      .error (.ValidationError "tenant_id" "String should match pattern")
  else
    .error (.ValidationError "principal_id" "String should match pattern")

def has_role (principal : Principal) (roles : List Role) : Bool :=
  Role.admin ∈ principal.roles || roles.any fun role => role ∈ principal.roles

inductive ResearchDepth where
  | quick
  | standard
  | deep
deriving DecidableEq, Repr

def ResearchDepth.literal : ResearchDepth → String
  | quick => "quick"
  | standard => "standard"
  | deep => "deep"

structure ResearchRequest where
  query : String
  tickers : List String
  research_depth : ResearchDepth
deriving DecidableEq, Repr

-- What `str.strip` takes for white space.
def whitespace : List Char :=
  ['\t', '\n', '\x0b', '\x0c', '\r', '\x1c', '\x1d', '\x1e', '\x1f', ' ', '\u0085', '\u00a0',
   '\u1680', '\u2000', '\u2001', '\u2002', '\u2003', '\u2004', '\u2005', '\u2006', '\u2007',
   '\u2008', '\u2009', '\u200a', '\u2028', '\u2029', '\u202f', '\u205f', '\u3000']

def strip (text : String) : String :=
  let left := text.toList.dropWhile (· ∈ whitespace)
  String.ofList (left.reverse.dropWhile (· ∈ whitespace)).reverse

-- `[A-Z][A-Z0-9.-]{0,9}`
def is_ticker (text : String) : Bool :=
  match text.toList with
  | [] => false
  | first :: rest =>
      between 'A' 'Z' first && rest.length ≤ 9 &&
        rest.all fun char => between 'A' 'Z' char || between '0' '9' char || char ∈ ['.', '-']

namespace ResearchRequest

-- `upper` is `str.upper`.
def normalise_tickers (upper : String → String) (value : List String) :
    Except ServiceError (List String) :=
  let kept := value.filter fun ticker => strip ticker ≠ ""
  let tickers := (kept.map fun ticker => strip (upper ticker)).eraseDups
  if tickers.isEmpty then
    .error (.ValidationError "tickers" "at least one non-blank ticker is required")
  else
    let invalid := ", ".intercalate (tickers.filter fun ticker => !is_ticker ticker)
    if tickers.all is_ticker then .ok tickers
    else .error (.ValidationError "tickers" s!"invalid ticker symbol(s): {invalid}")

def read_query (raw : JSONObject) : Except ServiceError String :=
  match raw.lookup "query" with
  | some (.str query) =>
      if query.length < 5 then
        .error (.ValidationError "query" "String should have at least 5 characters")
      else if query.length > 500 then
        .error (.ValidationError "query" "String should have at most 500 characters")
      else .ok query
  | some _ => .error (.ValidationError "query" "Input should be a valid string")
  | none => .error (.ValidationError "query" "Field required")

def read_strings : List JSONValue → Except ServiceError (List String)
  | [] => .ok []
  | .str text :: rest => (text :: ·) <$> read_strings rest
  | _ :: _ => .error (.ValidationError "tickers" "Input should be a valid string")

def read_tickers (upper : String → String) (raw : JSONObject) :
    Except ServiceError (List String) :=
  match raw.lookup "tickers" with
  | some (.list items) => do
      let value ← read_strings items
      if value.length < 1 then
        .error (.ValidationError "tickers" "List should have at least 1 item after validation")
      else if value.length > 5 then
        .error (.ValidationError "tickers" "List should have at most 5 items after validation")
      else normalise_tickers upper value
  | some _ => .error (.ValidationError "tickers" "Input should be a valid list")
  | none => .error (.ValidationError "tickers" "Field required")

def read_depth (raw : JSONObject) : Except ServiceError ResearchDepth :=
  match raw.lookup "research_depth" with
  | none => .ok .standard
  | some (.str "quick") => .ok .quick
  | some (.str "standard") => .ok .standard
  | some (.str "deep") => .ok .deep
  | some _ => .error (.ValidationError "research_depth"
      "Input should be 'quick', 'standard' or 'deep'")

def model_validate (upper : String → String) (raw : JSONObject) :
    Except ServiceError ResearchRequest := do
  let query ← read_query raw
  let tickers ← read_tickers upper raw
  let research_depth ← read_depth raw
  return { query, tickers, research_depth }

def model_dump (request : ResearchRequest) : JSONObject :=
  [("query", .str request.query), ("tickers", .list (request.tickers.map .str)),
   ("research_depth", .str request.research_depth.literal)]

end ResearchRequest

inductive JobState where
  | pending
  | running
  | retrying
  | awaiting_approval
  | approved
  | rejected
  | completed
  | failed
deriving DecidableEq, Repr

-- The states in which reconciliation leaves a job alone.
def JobState.final : JobState → Bool
  | failed | completed | awaiting_approval | approved | rejected => true
  | pending | running | retrying => false

structure JobStatus where
  job_id : String
  status : JobState
  tenant_id : String
  principal_id : String
  created_at : String
  completed_at : Option String := none
  approved_at : Option String := none
  approved_by : Option String := none
  report : Option JSONObject := none
  error : Option String := none
  attempt : ℤ := 0
  tool_calls_count : ℤ := 0
  llm_calls_count : ℤ := 0
  input_tokens : ℤ := 0
  output_tokens : ℤ := 0

-- The `report` entry of what the research graph returns.
inductive Report where
  | none
  | dict (entries : JSONObject)
  | model (dump : JSONValue)
  | other

def report_dict : Report → Except ServiceError (Option JSONObject)
  | .none => .ok Option.none
  | .dict entries | .model (.dict entries) => .ok (some entries)
  | .model _ | .other => .error (.TypeError "Research report is not serializable")

structure SourceRecord where
  source_id : String
  provider : String
  source_type : String
  locator : String
  retrieved_at : String
  ticker : Option String
  label : String
  content_sha256 : String
deriving DecidableEq, Repr

-- The entries of the research state that the service reads, and the sources it
-- stores with them; `ρ` is what stands under `report`, before and after `report_dict`.
structure ResearchState (ρ : Type) where
  report : ρ
  error : Option String := none
  sources : List SourceRecord := []
  tool_calls_log : List JSONValue := []
  model_calls : Option ℤ := none
  input_tokens : Option ℤ := none
  output_tokens : Option ℤ := none

-- What the service is configured with. `sha256` is the hex digest of a text and
-- `upper` is `str.upper`.
structure Settings where
  require_report_approval : Bool
  job_max_attempts : ℤ
  max_concurrent_jobs_per_tenant : ℕ
  poll_timeout : ℚ
  sha256 : String → String
  upper : String → String

end ResearchAgent.Service
