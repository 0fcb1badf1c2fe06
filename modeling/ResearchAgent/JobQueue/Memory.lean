import ResearchAgent.Library.Dict
import ResearchAgent.JobQueue.Envelope

namespace ResearchAgent.JobQueue

open Library

-- The in-memory backend. Every method body runs under the condition's lock.
structure MemoryQueue where
  envelopes : Dict String JobEnvelope
  known : Dict String ℚ
  ready : List String
  inflight : Dict String ℚ
  scheduled : Dict String ℚ
  dead : List String

namespace MemoryQueue

def empty : MemoryQueue := ⟨.empty, .empty, [], .empty, .empty, []⟩

def enqueue (cfg : Config) (now : ℚ≥0) (job_id : String) (request : JSONObject)
    (principal_id tenant_id : String) (queue : MemoryQueue) :
    Except QueueError Bool × MemoryQueue :=
  if missing_ids job_id principal_id tenant_id then
    (.error (.ValueError "job_id, principal_id, and tenant_id are required"), queue)
  else if (queue.known.get? job_id).getD 0 > now then
    (.ok false, queue)
  else
    (.ok true, { queue with
      known := queue.known.set job_id (cfg.known_until now)
      envelopes := queue.envelopes.set job_id
        (new_envelope now job_id request principal_id tenant_id)
      ready := queue.ready ++ [job_id] })

def recover_one_memory (cfg : Config) (job_id : String) (queue : MemoryQueue) :
    Except QueueError Unit × MemoryQueue :=
  match queue.envelopes.get? job_id with
  | none => (.error (.KeyError job_id), queue)
  | some envelope =>
      let queue := { queue with
        inflight := queue.inflight.erase job_id
        envelopes := queue.envelopes.set job_id { envelope with last_error := "lease expired" } }
      if envelope.attempt ≥ cfg.max_attempts then
        (.ok (), { queue with dead := queue.dead ++ [job_id] })
      else
        (.ok (), { queue with ready := queue.ready ++ [job_id] })

-- The ids whose lease is over at `now`.
def stale (now : ℚ≥0) (queue : MemoryQueue) : List String :=
  queue.inflight.keysWhere fun lease_until => lease_until ≤ (now : ℚ)

def recover_all (cfg : Config) : List String → MemoryQueue → Except QueueError Unit × MemoryQueue
  | [], queue => (.ok (), queue)
  | job_id :: rest, queue =>
      match recover_one_memory cfg job_id queue with
      | (.ok (), queue) => recover_all cfg rest queue
      | (.error error, queue) => (.error error, queue)

def recover_stale (cfg : Config) (now : ℚ≥0) (queue : MemoryQueue) :
    Except QueueError ℕ × MemoryQueue :=
  match recover_all cfg (queue.stale now) queue with
  | (.ok (), after) => (.ok (queue.stale now).length, after)
  | (.error error, after) => (.error error, after)

-- The ids whose retry time has come at `now`.
def due (now : ℚ≥0) (queue : MemoryQueue) : List String :=
  queue.scheduled.keysWhere fun retry_at => retry_at ≤ (now : ℚ)

def promote_all : List String → MemoryQueue → MemoryQueue
  | [], queue => queue
  | job_id :: rest, queue =>
      promote_all rest { queue with
        scheduled := queue.scheduled.erase job_id
        ready := queue.ready ++ [job_id] }

def promote_due_memory (now : ℚ≥0) (queue : MemoryQueue) : MemoryQueue :=
  promote_all (queue.due now) queue

-- The waiting loop of `claim`. `wakeups` are the clock readings of the wake-ups
-- that come before the deadline; the result is the time at which a job is ready.
def wait_ready (now : ℚ≥0) : List ℚ≥0 → MemoryQueue → Option ℚ≥0 × MemoryQueue
  | [], queue => (if queue.ready.isEmpty then none else some now, queue)
  | wakeup :: rest, queue =>
      if queue.ready.isEmpty then wait_ready wakeup rest (promote_due_memory wakeup queue)
      else (some now, queue)

def pop_ready (cfg : Config) (now : ℚ≥0) (queue : MemoryQueue) :
    Except QueueError (Option JobEnvelope) × MemoryQueue :=
  match queue.ready with
  | [] => (.ok none, queue)
  | job_id :: rest =>
      match queue.envelopes.get? job_id with
      | none => (.error (.KeyError job_id), { queue with ready := rest })
      | some previous =>
          let envelope := { previous with attempt := previous.attempt + 1 }
          (.ok (some envelope), { queue with
            ready := rest
            envelopes := queue.envelopes.set job_id envelope
            inflight := queue.inflight.set job_id (cfg.lease_until now) })

def claim (cfg : Config) (now : ℚ≥0) (timeout : ℚ) (wakeups : List ℚ≥0) (queue : MemoryQueue) :
    Except QueueError (Option JobEnvelope) × MemoryQueue :=
  if timeout ≤ 0 then
    (.error (.ValueError "timeout must be positive and bounded"), queue)
  else
    match recover_stale cfg now queue with
    | (.error error, queue) => (.error error, queue)
    | (.ok _, queue) =>
        match wait_ready now wakeups (promote_due_memory now queue) with
        | (none, queue) => (.ok none, queue)
        | (some ready_at, queue) => pop_ready cfg ready_at queue

def ack (envelope : JobEnvelope) (queue : MemoryQueue) : Except QueueError Bool × MemoryQueue :=
  if queue.inflight.contains envelope.job_id then
    (.ok true, { queue with
      inflight := queue.inflight.erase envelope.job_id
      envelopes := queue.envelopes.erase envelope.job_id })
  else
    (.ok false, queue)

def renew (cfg : Config) (now : ℚ≥0) (envelope : JobEnvelope) (queue : MemoryQueue) :
    Except QueueError Bool × MemoryQueue :=
  if queue.inflight.contains envelope.job_id then
    (.ok true, { queue with
      inflight := queue.inflight.set envelope.job_id (cfg.lease_until now) })
  else
    (.ok false, queue)

def dead_letter (envelope : JobEnvelope) (error : String) (queue : MemoryQueue) :
    Except QueueError Unit × MemoryQueue :=
  if queue.inflight.contains envelope.job_id then
    (.ok (), { queue with
      inflight := queue.inflight.erase envelope.job_id
      envelopes := queue.envelopes.set envelope.job_id
        { envelope with retry_at := none, last_error := error }
      dead := queue.dead ++ [envelope.job_id] })
  else
    (.error (not_inflight envelope.job_id), queue)

def retry (cfg : Config) (now : ℚ≥0) (envelope : JobEnvelope) (error : String)
    (queue : MemoryQueue) : Except QueueError RetryOutcome × MemoryQueue :=
  if envelope.attempt ≥ cfg.max_attempts then
    match dead_letter envelope error queue with
    | (.ok (), queue) => (.ok .dead_letter, queue)
    | (.error raised, queue) => (.error raised, queue)
  else if queue.inflight.contains envelope.job_id then
    (.ok .scheduled, { queue with
      inflight := queue.inflight.erase envelope.job_id
      envelopes := queue.envelopes.set envelope.job_id
        { envelope with retry_at := cfg.retry_at now envelope, last_error := error }
      scheduled := queue.scheduled.set envelope.job_id (cfg.retry_at now envelope) })
  else
    (.error (not_inflight envelope.job_id), queue)

def envelopes_of (queue : MemoryQueue) : List String → Except QueueError (List JobEnvelope)
  | [] => .ok []
  | job_id :: rest =>
      match queue.envelopes.get? job_id with
      | none => .error (.KeyError job_id)
      | some envelope => (envelope :: ·) <$> envelopes_of queue rest

def dead_letters (queue : MemoryQueue) : Except QueueError (List JobEnvelope) :=
  queue.envelopes_of queue.dead

def remove_dead_letter (envelope : JobEnvelope) (queue : MemoryQueue) :
    Except QueueError Bool × MemoryQueue :=
  if envelope.job_id ∈ queue.dead then
    (.ok true, { queue with
      dead := queue.dead.erase envelope.job_id
      envelopes := queue.envelopes.erase envelope.job_id })
  else
    (.ok false, queue)

def dead_letter_count (queue : MemoryQueue) : ℕ := queue.dead.length

def call (cfg : Config) (moment : Moment) (queue : MemoryQueue) :
    QueueCall → Except QueueError QueueReply × MemoryQueue
  | .enqueue job_id request principal_id tenant_id =>
      (queue.enqueue cfg moment.now job_id request principal_id tenant_id).map (·.map .bool) id
  | .claim _ timeout => (queue.claim cfg moment.now timeout moment.later).map (·.map .claimed) id
  | .ack envelope => (queue.ack envelope).map (·.map .bool) id
  | .renew envelope => (queue.renew cfg moment.now envelope).map (·.map .bool) id
  | .retry envelope error => (queue.retry cfg moment.now envelope error).map (·.map .outcome) id
  | .recover_stale _ => (queue.recover_stale cfg moment.now).map (·.map .count) id
  | .dead_letters => (queue.dead_letters.map .envelopes, queue)
  | .remove_dead_letter envelope => (queue.remove_dead_letter envelope).map (·.map .bool) id
  | .dead_letter_count => (.ok (.count queue.dead_letter_count), queue)

end MemoryQueue

end ResearchAgent.JobQueue
