import Mathlib.Data.Rat.Defs
import Mathlib.Data.NNRat.Defs
import Mathlib.Algebra.Order.Ring.Rat
import Mathlib.Tactic.NormNum
import Mathlib.Data.List.Perm.Basic

namespace ResearchAgent.JobQueue

-- The floats that are no numbers.
inductive NonFinite where
  | nan
  | infinity
  | neg_infinity
deriving DecidableEq, Repr

-- What `json` writes and reads for them.
def NonFinite.literal : NonFinite → String
  | nan => "NaN"
  | infinity => "Infinity"
  | neg_infinity => "-Infinity"

-- What `json.loads` returns. Numbers keep the int/float distinction of Python
-- and finite floats are exact.
inductive JSONValue where
  | null
  | bool (value : Bool)
  | int (value : ℤ)
  | float (value : ℚ)
  | nonfinite (value : NonFinite)
  | str (value : String)
  | list (items : List JSONValue)
  | dict (entries : List (String × JSONValue))

abbrev JSONObject := List (String × JSONValue)

inductive QueueError where
  | JobQueueError (message : String)
  | ValueError (message : String)
  | KeyError (key : String)
deriving DecidableEq, Repr

structure JobEnvelope where
  job_id : String
  request : JSONObject
  principal_id : String
  tenant_id : String
  attempt : ℤ
  enqueued_at : ℚ
  retry_at : Option ℚ := none
  last_error : Option String := none

namespace JobEnvelope

-- Dictionaries are equal whatever the order of their keys, so `sort_keys` only
-- fixes the order in which the fields are written here.
def to_json (envelope : JobEnvelope) : JSONValue :=
  .dict [
    ("attempt", .int envelope.attempt),
    ("enqueued_at", .float envelope.enqueued_at),
    ("job_id", .str envelope.job_id),
    ("last_error", match envelope.last_error with
      | none => .null
      | some error => .str error),
    ("principal_id", .str envelope.principal_id),
    ("request", .dict envelope.request),
    ("retry_at", match envelope.retry_at with
      | none => .null
      | some time => .float time),
    ("tenant_id", .str envelope.tenant_id)]

-- Field readers. The conversions `str`, `int` and `float` are the identity on
-- what `to_json` writes, and nothing else writes envelopes.
def read_str (raw : JSONObject) (key : String) : Except QueueError String :=
  match raw.lookup key with
  | some (.str value) => .ok value
  | some _ => .error (.ValueError key)
  | none => .error (.KeyError key)

def read_int (raw : JSONObject) (key : String) : Except QueueError ℤ :=
  match raw.lookup key with
  | some (.int value) => .ok value
  | some _ => .error (.ValueError key)
  | none => .error (.KeyError key)

def read_float (raw : JSONObject) (key : String) : Except QueueError ℚ :=
  match raw.lookup key with
  | some (.float value) => .ok value
  | some (.int value) => .ok value
  | some _ => .error (.ValueError key)
  | none => .error (.KeyError key)

def read_optional {α : Type} (read : JSONObject → String → Except QueueError α)
    (raw : JSONObject) (key : String) : Except QueueError (Option α) :=
  match raw.lookup key with
  | none | some .null => .ok none
  | some _ => some <$> read raw key

def from_json : JSONValue → Except QueueError JobEnvelope
  | .dict raw =>
      match raw.lookup "request" with
      | some (.dict request) => do
          let job_id ← read_str raw "job_id"
          let principal_id ← read_str raw "principal_id"
          let tenant_id ← read_str raw "tenant_id"
          let attempt ← read_int raw "attempt"
          let enqueued_at ← read_float raw "enqueued_at"
          let retry_at ← read_optional read_float raw "retry_at"
          let last_error ← read_optional read_str raw "last_error"
          return { job_id, request, principal_id, tenant_id, attempt, enqueued_at, retry_at,
                   last_error }
      | _ => .error (.ValueError "job envelope request must be a JSON object")
  | _ => .error (.ValueError "job envelope must be a JSON object")

@[simp] theorem from_json_to_json (envelope : JobEnvelope) :
    from_json envelope.to_json = .ok envelope := by
  rcases envelope with ⟨job_id, request, principal_id, tenant_id, attempt, enqueued_at,
    retry_at, last_error⟩
  cases retry_at <;> cases last_error <;> rfl

theorem to_json_injective {e e' : JobEnvelope} (h : e.to_json = e'.to_json) : e = e' := by
  have hd := congrArg from_json h
  simpa using hd

end JobEnvelope

-- The parameters a queue is built with, as the constructor accepts them.
structure Config where
  max_attempts : ℤ
  lease_seconds : ℚ
  retry_backoff : ℚ
  idempotency_ttl : ℤ
  max_attempts_pos : 1 ≤ max_attempts
  lease_seconds_pos : 0 < lease_seconds
  retry_backoff_nonneg : 0 ≤ retry_backoff
  idempotency_ttl_pos : 1 ≤ idempotency_ttl

namespace Config

-- The queue built without settings.
def default : Config where
  max_attempts := 3
  lease_seconds := 300
  retry_backoff := 1
  idempotency_ttl := 2592000
  max_attempts_pos := by decide
  lease_seconds_pos := by norm_num
  retry_backoff_nonneg := by norm_num
  idempotency_ttl_pos := by decide

variable (cfg : Config)

def lease_until (now : ℚ≥0) : ℚ := now + cfg.lease_seconds

def known_until (now : ℚ≥0) : ℚ := now + cfg.idempotency_ttl

def retry_at (now : ℚ≥0) (envelope : JobEnvelope) : ℚ :=
  now + cfg.retry_backoff * 2 ^ (max (envelope.attempt - 1) 0).toNat

end Config

-- What `retry` returns.
inductive RetryOutcome where
  | scheduled
  | dead_letter
deriving DecidableEq, Repr

-- The envelope `enqueue` stores.
def new_envelope (now : ℚ≥0) (job_id : String) (request : JSONObject)
    (principal_id tenant_id : String) : JobEnvelope :=
  { job_id, request, principal_id, tenant_id, attempt := 0, enqueued_at := now }

def missing_ids (job_id principal_id tenant_id : String) : Bool :=
  job_id = "" || principal_id = "" || tenant_id = ""

def not_inflight (job_id : String) : QueueError :=
  .JobQueueError s!"Job {job_id} is not inflight"

-- The order in which Python walks a set of ids, which the language leaves open.
structure SetOrder where
  order : List String → List String
  perm : ∀ ids, (order ids).Perm ids

def SetOrder.inserted : SetOrder := ⟨id, fun _ => .refl _⟩

-- One call of a client of the queue, with its arguments.
inductive QueueCall where
  | enqueue (job_id : String) (request : JSONObject) (principal_id tenant_id : String)
  | claim (set_order : SetOrder) (timeout : ℚ)
  | ack (envelope : JobEnvelope)
  | renew (envelope : JobEnvelope)
  | retry (envelope : JobEnvelope) (error : String)
  | recover_stale (set_order : SetOrder)
  | dead_letters
  | remove_dead_letter (envelope : JobEnvelope)
  | dead_letter_count

def QueueCall.enqueues : QueueCall → Bool
  | .enqueue _ _ _ _ => true
  | _ => false

inductive QueueReply where
  | bool (value : Bool)
  | claimed (envelope : Option JobEnvelope)
  | outcome (value : RetryOutcome)
  | count (value : ℕ)
  | envelopes (value : List JobEnvelope)

-- The clock readings of one call: the first, then one for each later command
-- that reads the clock or each wake-up of a waiting claim.
structure Moment where
  now : ℚ≥0
  later : List ℚ≥0

def Moment.shows (moment : Moment) (time : ℚ≥0) : Prop := time ∈ moment.now :: moment.later

theorem Moment.shows_later (moment : Moment) :
    moment.shows (moment.later.headD moment.now) := by
  cases h : moment.later <;> simp [shows, h]

end ResearchAgent.JobQueue
