import Mathlib.Data.List.Sort
import ResearchAgent.Library.Dict
import ResearchAgent.Library.Program
import ResearchAgent.JobQueue.Envelope

namespace ResearchAgent.JobQueue

open Library

inductive ListKey where
  | ready
  | inflight
  | dead
deriving DecidableEq, Repr

inductive ZSetKey where
  | leases
  | scheduled
deriving DecidableEq, Repr

-- The keys of one queue namespace. `known` holds the expiry time of each
-- idempotency marker and `now` is the clock that expires them.
structure Redis where
  now : ℚ≥0
  known : Dict String ℚ
  envelopes : Dict String JSONValue
  lists : ListKey → List String
  zsets : ZSetKey → Dict String ℚ

namespace Redis

def empty (now : ℚ≥0) : Redis := ⟨now, .empty, .empty, fun _ => [], fun _ => .empty⟩

-- A key whose time has come is gone, as a marker in memory is. The server itself may keep it
-- for that instant.
def exists_known (redis : Redis) (job_id : String) : Bool :=
  match redis.known.get? job_id with
  | none => false
  | some expires => (redis.now : ℚ) < expires

def set_known (redis : Redis) (job_id : String) (ttl : ℤ) : Redis :=
  { redis with known := redis.known.set job_id (redis.now + ttl) }

def hset (redis : Redis) (job_id : String) (encoded : JSONValue) : Redis :=
  { redis with envelopes := redis.envelopes.set job_id encoded }

def hdel (redis : Redis) (job_id : String) : Redis :=
  { redis with envelopes := redis.envelopes.erase job_id }

def lpush (redis : Redis) (key : ListKey) (job_id : String) : Redis :=
  { redis with lists := Function.update redis.lists key (job_id :: redis.lists key) }

def rpop (redis : Redis) (key : ListKey) : Redis :=
  { redis with lists := Function.update redis.lists key (redis.lists key).dropLast }

-- `LREM key 1 id` removes the first occurrence.
def lrem (redis : Redis) (key : ListKey) (job_id : String) : Redis :=
  { redis with lists := Function.update redis.lists key ((redis.lists key).erase job_id) }

def zadd (redis : Redis) (key : ZSetKey) (job_id : String) (score : ℚ) : Redis :=
  { redis with zsets := Function.update redis.zsets key ((redis.zsets key).set job_id score) }

def zrem (redis : Redis) (key : ZSetKey) (job_id : String) : Redis :=
  { redis with zsets := Function.update redis.zsets key ((redis.zsets key).erase job_id) }

section Fields

variable (redis : Redis) (key other : ListKey) (zkey zother : ZSetKey) (job_id : String)

@[simp] theorem set_known_now (ttl : ℤ) : (redis.set_known job_id ttl).now = redis.now := rfl
@[simp] theorem set_known_envelopes (ttl : ℤ) :
    (redis.set_known job_id ttl).envelopes = redis.envelopes := rfl
@[simp] theorem set_known_lists (ttl : ℤ) : (redis.set_known job_id ttl).lists = redis.lists := rfl
@[simp] theorem set_known_zsets (ttl : ℤ) : (redis.set_known job_id ttl).zsets = redis.zsets := rfl

@[simp] theorem hset_now (encoded : JSONValue) : (redis.hset job_id encoded).now = redis.now := rfl
@[simp] theorem hset_known (encoded : JSONValue) :
    (redis.hset job_id encoded).known = redis.known := rfl
@[simp] theorem hset_envelopes (encoded : JSONValue) :
    (redis.hset job_id encoded).envelopes = redis.envelopes.set job_id encoded := rfl
@[simp] theorem hset_lists (encoded : JSONValue) :
    (redis.hset job_id encoded).lists = redis.lists := rfl
@[simp] theorem hset_zsets (encoded : JSONValue) :
    (redis.hset job_id encoded).zsets = redis.zsets := rfl

@[simp] theorem hdel_now : (redis.hdel job_id).now = redis.now := rfl
@[simp] theorem hdel_known : (redis.hdel job_id).known = redis.known := rfl
@[simp] theorem hdel_envelopes :
    (redis.hdel job_id).envelopes = redis.envelopes.erase job_id := rfl
@[simp] theorem hdel_lists : (redis.hdel job_id).lists = redis.lists := rfl
@[simp] theorem hdel_zsets : (redis.hdel job_id).zsets = redis.zsets := rfl

@[simp] theorem lpush_now : (redis.lpush key job_id).now = redis.now := rfl
@[simp] theorem lpush_known : (redis.lpush key job_id).known = redis.known := rfl
@[simp] theorem lpush_envelopes : (redis.lpush key job_id).envelopes = redis.envelopes := rfl
@[simp] theorem lpush_zsets : (redis.lpush key job_id).zsets = redis.zsets := rfl
@[simp] theorem lpush_lists : (redis.lpush key job_id).lists other =
    if other = key then job_id :: redis.lists key else redis.lists other := by
  simp [lpush, Function.update_apply]

@[simp] theorem rpop_now : (redis.rpop key).now = redis.now := rfl
@[simp] theorem rpop_known : (redis.rpop key).known = redis.known := rfl
@[simp] theorem rpop_envelopes : (redis.rpop key).envelopes = redis.envelopes := rfl
@[simp] theorem rpop_zsets : (redis.rpop key).zsets = redis.zsets := rfl
@[simp] theorem rpop_lists : (redis.rpop key).lists other =
    if other = key then (redis.lists key).dropLast else redis.lists other := by
  simp [rpop, Function.update_apply]

@[simp] theorem lrem_now : (redis.lrem key job_id).now = redis.now := rfl
@[simp] theorem lrem_known : (redis.lrem key job_id).known = redis.known := rfl
@[simp] theorem lrem_envelopes : (redis.lrem key job_id).envelopes = redis.envelopes := rfl
@[simp] theorem lrem_zsets : (redis.lrem key job_id).zsets = redis.zsets := rfl
@[simp] theorem lrem_lists : (redis.lrem key job_id).lists other =
    if other = key then (redis.lists key).erase job_id else redis.lists other := by
  simp [lrem, Function.update_apply]

@[simp] theorem zadd_now (score : ℚ) : (redis.zadd zkey job_id score).now = redis.now := rfl
@[simp] theorem zadd_known (score : ℚ) : (redis.zadd zkey job_id score).known = redis.known := rfl
@[simp] theorem zadd_envelopes (score : ℚ) :
    (redis.zadd zkey job_id score).envelopes = redis.envelopes := rfl
@[simp] theorem zadd_lists (score : ℚ) : (redis.zadd zkey job_id score).lists = redis.lists := rfl
@[simp] theorem zadd_zsets (score : ℚ) : (redis.zadd zkey job_id score).zsets zother =
    if zother = zkey then (redis.zsets zkey).set job_id score else redis.zsets zother := by
  simp [zadd, Function.update_apply]

@[simp] theorem zrem_now : (redis.zrem zkey job_id).now = redis.now := rfl
@[simp] theorem zrem_known : (redis.zrem zkey job_id).known = redis.known := rfl
@[simp] theorem zrem_envelopes : (redis.zrem zkey job_id).envelopes = redis.envelopes := rfl
@[simp] theorem zrem_lists : (redis.zrem zkey job_id).lists = redis.lists := rfl
@[simp] theorem zrem_zsets : (redis.zrem zkey job_id).zsets zother =
    if zother = zkey then (redis.zsets zkey).erase job_id else redis.zsets zother := by
  simp [zrem, Function.update_apply]

end Fields

-- Members in order of score, and in lexical order where scores are equal.
def by_score (first second : String × ℚ) : Prop :=
  first.2 < second.2 ∨ first.2 = second.2 ∧ first.1 ≤ second.1

instance : DecidableRel by_score := fun _ _ => by unfold by_score; infer_instance

def zrangebyscore (redis : Redis) (key : ZSetKey) (maximum : ℚ≥0) : List String :=
  ((((redis.zsets key).entries).filter
    (fun entry : String × ℚ => entry.2 ≤ (maximum : ℚ))).insertionSort by_score).map Prod.fst

end Redis

-- The Lua scripts with their KEYS and ARGV. The envelopes hash is the only
-- hash, so its key is not an argument.
inductive Script where
  | enqueue (ready_key : ListKey) (job_id : String) (encoded : JSONValue) (ttl : ℤ)
  | ack (inflight_key : ListKey) (leases_key : ZSetKey) (job_id : String)
  | retry (inflight_key : ListKey) (leases_key scheduled_key : ZSetKey) (job_id : String)
      (encoded : JSONValue) (retry_at : ℚ)
  | dead (inflight_key : ListKey) (leases_key : ZSetKey) (dead_key : ListKey) (job_id : String)
      (encoded : JSONValue)
  | recover (inflight_key : ListKey) (leases_key : ZSetKey) (destination : ListKey)
      (job_id : String) (encoded : JSONValue)
  | promote (scheduled_key : ZSetKey) (ready_key : ListKey) (job_id : String)
  | renew (leases_key : ZSetKey) (job_id : String) (lease_until : ℚ)
  | remove_dead (dead_key : ListKey) (job_id : String)

def Script.run (redis : Redis) : Script → Bool × Redis
  | .enqueue ready_key job_id encoded ttl =>
      if redis.exists_known job_id then (false, redis)
      else (true, ((redis.set_known job_id ttl).hset job_id encoded).lpush ready_key job_id)
  | .ack inflight_key leases_key job_id =>
      if job_id ∈ redis.lists inflight_key then
        (true, ((redis.lrem inflight_key job_id).zrem leases_key job_id).hdel job_id)
      else (false, redis)
  | .retry inflight_key leases_key scheduled_key job_id encoded retry_at =>
      if job_id ∈ redis.lists inflight_key then
        (true, (((redis.lrem inflight_key job_id).zrem leases_key job_id).hset job_id
          encoded).zadd scheduled_key job_id retry_at)
      else (false, redis)
  | .dead inflight_key leases_key dead_key job_id encoded =>
      if job_id ∈ redis.lists inflight_key then
        (true, (((redis.lrem inflight_key job_id).zrem leases_key job_id).hset job_id
          encoded).lpush dead_key job_id)
      else (false, redis)
  | .recover inflight_key leases_key destination job_id encoded =>
      if job_id ∈ redis.lists inflight_key then
        (true, (((redis.lrem inflight_key job_id).zrem leases_key job_id).hset job_id
          encoded).lpush destination job_id)
      else (false, redis)
  | .promote scheduled_key ready_key job_id =>
      if (redis.zsets scheduled_key).contains job_id then
        (true, (redis.zrem scheduled_key job_id).lpush ready_key job_id)
      else (false, redis)
  | .renew leases_key job_id lease_until =>
      if (redis.zsets leases_key).contains job_id then
        (true, redis.zadd leases_key job_id lease_until)
      else (false, redis)
  | .remove_dead dead_key job_id =>
      if job_id ∈ redis.lists dead_key then (true, (redis.lrem dead_key job_id).hdel job_id)
      else (false, redis)

-- What one client step is: a Redis command, or a reading of the clock.
inductive Command where
  | clock
  | eval (script : Script)
  | brpoplpush (source destination : ListKey)
  | hget (job_id : String)
  | hset (job_id : String) (encoded : JSONValue)
  | lrem (key : ListKey) (job_id : String)
  | lrange (key : ListKey)
  | llen (key : ListKey)
  | zadd (key : ZSetKey) (job_id : String) (score : ℚ)
  | zscore (key : ZSetKey) (job_id : String)
  | zrangebyscore (key : ZSetKey) (maximum : ℚ≥0)

abbrev Command.Reply : Command → Type
  | .clock => ℚ≥0
  | .eval _ => Bool
  | .brpoplpush _ _ => Option String
  | .hget _ => Option JSONValue
  | .hset _ _ => Unit
  | .lrem _ _ => Unit
  | .lrange _ => List String
  | .llen _ => ℕ
  | .zadd _ _ _ => Unit
  | .zscore _ _ => Option ℚ
  | .zrangebyscore _ _ => List String

def Redis.exec (redis : Redis) : (command : Command) → command.Reply × Redis
  | .clock => (redis.now, redis)
  | .eval script => script.run redis
  | .brpoplpush source destination =>
      match (redis.lists source).getLast? with
      | none => (none, redis)
      | some job_id =>
          (some job_id, (redis.rpop source).lpush destination job_id)
  | .hget job_id => (redis.envelopes.get? job_id, redis)
  | .hset job_id encoded => ((), redis.hset job_id encoded)
  | .lrem key job_id => ((), redis.lrem key job_id)
  | .lrange key => (redis.lists key, redis)
  | .llen key => ((redis.lists key).length, redis)
  | .zadd key job_id score => ((), redis.zadd key job_id score)
  | .zscore key job_id => ((redis.zsets key).get? job_id, redis)
  | .zrangebyscore key maximum => (redis.zrangebyscore key maximum, redis)

abbrev QueueProgram := Program Command Command.Reply QueueError

namespace RedisClient

abbrev clock : QueueProgram ℚ≥0 := .call .clock .ret

abbrev eval (script : Script) : QueueProgram Bool := .call (.eval script) .ret

abbrev brpoplpush (source destination : ListKey) : QueueProgram (Option String) :=
  .call (.brpoplpush source destination) .ret

abbrev hget (job_id : String) : QueueProgram (Option JSONValue) := .call (.hget job_id) .ret

abbrev hset (job_id : String) (encoded : JSONValue) : QueueProgram Unit :=
  .call (.hset job_id encoded) .ret

abbrev lrem (key : ListKey) (job_id : String) : QueueProgram Unit := .call (.lrem key job_id) .ret

abbrev lrange (key : ListKey) : QueueProgram (List String) := .call (.lrange key) .ret

abbrev llen (key : ListKey) : QueueProgram ℕ := .call (.llen key) .ret

abbrev zadd (key : ZSetKey) (job_id : String) (score : ℚ) : QueueProgram Unit :=
  .call (.zadd key job_id score) .ret

abbrev zscore (key : ZSetKey) (job_id : String) : QueueProgram (Option ℚ) :=
  .call (.zscore key job_id) .ret

abbrev zrangebyscore (key : ZSetKey) (maximum : ℚ≥0) : QueueProgram (List String) :=
  .call (.zrangebyscore key maximum) .ret

end RedisClient

namespace RedisQueue

open RedisClient

def decode (failure : String) (raw : JSONValue) : QueueProgram JobEnvelope :=
  match JobEnvelope.from_json raw with
  | .ok envelope => .ret envelope
  | .error _ => .raise (.JobQueueError failure)

@[simp] theorem decode_to_json (failure : String) (envelope : JobEnvelope) :
    decode failure envelope.to_json = .ret envelope := by simp [decode]

def enqueue (cfg : Config) (job_id : String) (request : JSONObject)
    (principal_id tenant_id : String) : QueueProgram Bool :=
  if missing_ids job_id principal_id tenant_id then
    .raise (.ValueError "job_id, principal_id, and tenant_id are required")
  else do
    let now ← clock
    let envelope := new_envelope now job_id request principal_id tenant_id
    eval (.enqueue .ready job_id envelope.to_json cfg.idempotency_ttl)

def recover_one_redis (cfg : Config) (envelope : JobEnvelope) : QueueProgram Bool :=
  let updated := { envelope with last_error := some "lease expired" }
  let destination := if envelope.attempt ≥ cfg.max_attempts then .dead else .ready
  eval (.recover .inflight .leases destination envelope.job_id updated.to_json)

-- Adds to `expired` the ids in flight that have no lease.
def missing_leases : List String → List String → QueueProgram (List String)
  | [], expired => .ret expired
  | job_id :: rest, expired => do
      let score ← zscore .leases job_id
      missing_leases rest (if score.isNone then expired.insert job_id else expired)

def recover_expired (cfg : Config) : List String → ℕ → QueueProgram ℕ
  | [], recovered => .ret recovered
  | job_id :: rest, recovered => do
      let raw ← hget job_id
      match raw with
      | none => recover_expired cfg rest recovered
      | some raw => do
          let envelope ← decode "Unable to recover stale leases" raw
          let moved ← recover_one_redis cfg envelope
          recover_expired cfg rest (if moved then recovered + 1 else recovered)

def recover_stale (cfg : Config) (set_order : SetOrder) : QueueProgram ℕ := do
  let now ← clock
  let expired ← zrangebyscore .leases now
  let inflight ← lrange .inflight
  let expired ← missing_leases inflight expired
  recover_expired cfg (set_order.order expired) 0

def promote_each : List String → QueueProgram Unit
  | [] => .ret ()
  | job_id :: rest => do
      let _ ← eval (.promote .scheduled .ready job_id)
      promote_each rest

def promote_due : QueueProgram Unit := do
  let now ← clock
  let due ← zrangebyscore .scheduled now
  promote_each due

-- The part of `claim` after the envelope is read.
def set_lease (cfg : Config) (job_id : String) (envelope : JobEnvelope) :
    QueueProgram (Option JobEnvelope) := do
  let envelope := { envelope with attempt := envelope.attempt + 1, retry_at := none }
  hset job_id envelope.to_json
  let now ← clock
  zadd .leases job_id (cfg.lease_until now)
  .ret (some envelope)

-- The part of `claim` after the move into flight.
def lease_claimed (cfg : Config) (job_id : String) : QueueProgram (Option JobEnvelope) := do
  let raw ← hget job_id
  match raw with
  | none => do
      lrem .inflight job_id
      .raise (.JobQueueError s!"Queue contains missing envelope for {job_id}")
  | some raw => do
      let envelope ← decode "Unable to claim a job" raw
      set_lease cfg job_id envelope

-- The part of `claim` after promotion.
def pop_ready (cfg : Config) : QueueProgram (Option JobEnvelope) := do
  let raw_id ← brpoplpush .ready .inflight
  match raw_id with
  | none => .ret none
  | some job_id => lease_claimed cfg job_id

def claim (cfg : Config) (set_order : SetOrder) (timeout : ℚ) :
    QueueProgram (Option JobEnvelope) :=
  if timeout ≤ 0 then
    .raise (.ValueError "timeout must be positive and bounded")
  else do
    let _ ← recover_stale cfg set_order
    promote_due
    pop_ready cfg

def ack (envelope : JobEnvelope) : QueueProgram Bool :=
  eval (.ack .inflight .leases envelope.job_id)

def renew (cfg : Config) (envelope : JobEnvelope) : QueueProgram Bool := do
  let now ← clock
  eval (.renew .leases envelope.job_id (cfg.lease_until now))

def dead_letter (envelope : JobEnvelope) (error : String) : QueueProgram Unit := do
  let updated := { envelope with retry_at := none, last_error := some error }
  let moved ← eval (.dead .inflight .leases .dead envelope.job_id updated.to_json)
  if moved then .ret () else .raise (not_inflight envelope.job_id)

def retry (cfg : Config) (envelope : JobEnvelope) (error : String) :
    QueueProgram RetryOutcome :=
  if envelope.attempt ≥ cfg.max_attempts then do
    dead_letter envelope error
    .ret .dead_letter
  else do
    let now ← clock
    let updated := { envelope with
      retry_at := some (cfg.retry_at now envelope), last_error := some error }
    let moved ← eval (.retry .inflight .leases .scheduled envelope.job_id
      updated.to_json (cfg.retry_at now envelope))
    if moved then .ret .scheduled else .raise (not_inflight envelope.job_id)

def read_envelopes : List String → List JobEnvelope → QueueProgram (List JobEnvelope)
  | [], result => .ret result
  | job_id :: rest, result => do
      let raw ← hget job_id
      match raw with
      | none => read_envelopes rest result
      | some raw => do
          let envelope ← decode "Unable to read dead letters" raw
          read_envelopes rest (result ++ [envelope])

def dead_letters : QueueProgram (List JobEnvelope) := do
  let ids ← lrange .dead
  read_envelopes ids []

def remove_dead_letter (envelope : JobEnvelope) : QueueProgram Bool :=
  eval (.remove_dead .dead envelope.job_id)

def dead_letter_count : QueueProgram ℕ := llen .dead

end RedisQueue

def QueueCall.on_redis (cfg : Config) : QueueCall → QueueProgram QueueReply
  | .enqueue job_id request principal_id tenant_id => do
      .ret (.bool (← RedisQueue.enqueue cfg job_id request principal_id tenant_id))
  | .claim set_order timeout => do
      .ret (.claimed (← RedisQueue.claim cfg set_order timeout))
  | .ack envelope => do .ret (.bool (← RedisQueue.ack envelope))
  | .renew envelope => do .ret (.bool (← RedisQueue.renew cfg envelope))
  | .retry envelope error => do .ret (.outcome (← RedisQueue.retry cfg envelope error))
  | .recover_stale set_order => do .ret (.count (← RedisQueue.recover_stale cfg set_order))
  | .dead_letters => do .ret (.envelopes (← RedisQueue.dead_letters))
  | .remove_dead_letter envelope => do .ret (.bool (← RedisQueue.remove_dead_letter envelope))
  | .dead_letter_count => do .ret (.count (← RedisQueue.dead_letter_count))

namespace Redis

-- The server with the clock readings that are still to come.
abbrev Timed := Redis × List ℚ≥0

-- After a reading the clock moves on to the next one.
def tick : Timed → Timed
  | (redis, []) => (redis, [])
  | (redis, now :: later) => ({ redis with now }, later)

def timed_exec (timed : Timed) : (command : Command) → command.Reply × Timed
  | .clock => (timed.1.now, tick timed)
  | command => ((timed.1.exec command).1, (timed.1.exec command).2, timed.2)

-- A call with nothing else going on while it is served.
def call (cfg : Config) (moment : Moment) (redis : Redis) (call : QueueCall) :
    Except QueueError QueueReply × Redis :=
  ((call.on_redis cfg).run timed_exec ({ redis with now := moment.now }, moment.later)).map id
    Prod.fst

end Redis

end ResearchAgent.JobQueue
