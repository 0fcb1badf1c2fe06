import ResearchAgent.JobQueue.Backend

namespace ResearchAgent.JobQueue

open Library

namespace Fencing

variable {ι : Type}

-- The job that a call handed out.
def claimed_id : Except QueueError QueueReply → Option String
  | .ok (.claimed (some envelope)) => some envelope.job_id
  | _ => none

-- The worker was handed the envelope, and another worker the same job later.
def Superseded (worker : ι) (envelope : JobEnvelope) : List (Performed ι) → Prop
  | [] => False
  | performed :: earlier =>
      Superseded worker envelope earlier ∨
      performed.worker ≠ worker ∧ claimed_id performed.result = some envelope.job_id ∧
        ∃ first ∈ earlier, first.worker = worker ∧
          first.result = .ok (.claimed (some envelope))

-- The call acts on a claim that another one has superseded.
def Stale (trace : List (Performed ι)) (performed : Performed ι) : Prop :=
  match performed.call with
  | .ack envelope => Superseded performed.worker envelope trace
  | .renew envelope => Superseded performed.worker envelope trace
  | .retry envelope _ => Superseded performed.worker envelope trace
  | _ => False

def reports_failure : Except QueueError QueueReply → Bool
  | .ok (.bool false) => true
  | .error (.JobQueueError _) => true
  | _ => false

-- Everything but the clock of the server is as it was.
def Unchanged : Backend → Backend → Prop
  | .memory queue, .memory queue' => queue' = queue
  | .redis redis, .redis redis' => redis' = { redis with now := redis'.now }
  | _, _ => False

-- The job the call is about has left the collection that the call looks at.
def Ended (backend : Backend) : QueueCall → Prop
  | .ack envelope => ¬backend.InFlight envelope.job_id
  | .renew envelope => ¬backend.Leased envelope.job_id
  | .retry envelope _ => ¬backend.InFlight envelope.job_id
  | _ => True

-- What is asked of one call.
def FailsUnchanged (cfg : Config) (backend : Backend) (performed : Performed ι) : Prop :=
  reports_failure performed.result ∧
    Unchanged backend (backend.call cfg performed.moment performed.call).2

section Memory

variable {cfg : Config} {queue : MemoryQueue} {moment : Moment} {envelope : JobEnvelope}

theorem memory_ack : reports_failure (queue.call cfg moment (.ack envelope)).1 ∧
    (queue.call cfg moment (.ack envelope)).2 = queue ↔
      ¬queue.inflight.contains envelope.job_id := by
  by_cases h : queue.inflight.contains envelope.job_id
  · simp [MemoryQueue.call, MemoryQueue.ack, h, reports_failure, Except.map]
  · simp [MemoryQueue.call, MemoryQueue.ack, h, reports_failure, Except.map]

theorem memory_renew : reports_failure (queue.call cfg moment (.renew envelope)).1 ∧
    (queue.call cfg moment (.renew envelope)).2 = queue ↔
      ¬queue.inflight.contains envelope.job_id := by
  by_cases h : queue.inflight.contains envelope.job_id
  · simp [MemoryQueue.call, MemoryQueue.renew, h, reports_failure, Except.map]
  · simp [MemoryQueue.call, MemoryQueue.renew, h, reports_failure, Except.map]

theorem memory_retry {error : String} :
    reports_failure (queue.call cfg moment (.retry envelope error)).1 ∧
      (queue.call cfg moment (.retry envelope error)).2 = queue ↔
        ¬queue.inflight.contains envelope.job_id := by
  by_cases h : queue.inflight.contains envelope.job_id <;>
    by_cases hcap : envelope.attempt ≥ cfg.max_attempts <;>
      simp [MemoryQueue.call, MemoryQueue.retry, MemoryQueue.dead_letter, not_inflight, h, hcap,
        reports_failure, Except.map]

end Memory

section Redis

variable {cfg : Config} {redis : Redis} {moment : Moment} {envelope : JobEnvelope}

theorem tick_unchanged (timed : Redis.Timed) :
    (Redis.tick timed).1 = { timed.1 with now := (Redis.tick timed).1.now } := by
  rcases timed with ⟨redis, _ | _⟩ <;> rfl

theorem redis_ack : reports_failure (redis.call cfg moment (.ack envelope)).1 ∧
    Unchanged (.redis redis) (.redis (redis.call cfg moment (.ack envelope)).2) ↔
      envelope.job_id ∉ redis.lists .inflight := by
  by_cases h : envelope.job_id ∈ redis.lists .inflight
  · simp [Redis.call, QueueCall.on_redis, RedisQueue.ack, Redis.timed_exec, Redis.exec,
      Script.run, h, reports_failure]
  · simp [Redis.call, QueueCall.on_redis, RedisQueue.ack, Redis.timed_exec, Redis.exec,
      Script.run, h, reports_failure, Unchanged]

theorem redis_renew : reports_failure (redis.call cfg moment (.renew envelope)).1 ∧
    Unchanged (.redis redis) (.redis (redis.call cfg moment (.renew envelope)).2) ↔
      ¬(redis.zsets .leases).contains envelope.job_id := by
  by_cases h : (redis.zsets .leases).contains envelope.job_id
  · simp [Redis.call, QueueCall.on_redis, RedisQueue.renew, Redis.timed_exec, Redis.exec,
      Script.run, h, reports_failure]
  · simp only [Redis.call, QueueCall.on_redis, RedisQueue.renew, Program.call_bind,
      Program.ret_bind, Program.run_call, Program.run_ret, Redis.timed_exec, Redis.exec,
      Script.run, Redis.tick_zsets, if_neg h, Prod.map]
    exact ⟨fun _ => h, fun _ => ⟨rfl, tick_unchanged _⟩⟩

theorem redis_retry {error : String} :
    reports_failure (redis.call cfg moment (.retry envelope error)).1 ∧
      Unchanged (.redis redis) (.redis (redis.call cfg moment (.retry envelope error)).2) ↔
        envelope.job_id ∉ redis.lists .inflight := by
  unfold Redis.call QueueCall.on_redis RedisQueue.retry
  by_cases hcap : envelope.attempt ≥ cfg.max_attempts
  · by_cases h : envelope.job_id ∈ redis.lists .inflight
    · simp [hcap, RedisQueue.dead_letter, Redis.timed_exec, Redis.exec, Script.run, h,
        reports_failure]
    · simp [hcap, RedisQueue.dead_letter, Redis.timed_exec, Redis.exec, Script.run, h,
        reports_failure, Unchanged, not_inflight]
  · by_cases h : envelope.job_id ∈ redis.lists .inflight
    · simp [hcap, Redis.timed_exec, Redis.exec, Script.run, h, reports_failure]
    · simp only [if_neg hcap, Program.call_bind, Program.ret_bind, Program.run_call,
        Redis.timed_exec, Redis.exec, Script.run, Redis.tick_lists, if_neg h,
        Prod.map]
      exact ⟨fun _ => h, fun _ => ⟨rfl, tick_unchanged _⟩⟩

end Redis

section Runs

variable {cfg : Config} {trace : List (Performed ι)} {backend : Backend}

-- On a call that acts on a claim: it fails and changes nothing exactly if the
-- job is no longer where the call looks for it.
theorem failsUnchanged_iff (trace : List (Performed ι)) (backend : Backend) (worker : ι)
    (moment : Moment) (call : QueueCall) :
    let performed : Performed ι := ⟨worker, moment, call, (backend.call cfg moment call).1⟩
    (Stale trace performed → FailsUnchanged cfg backend performed) ↔
      (Stale trace performed → Ended backend call) := by
  refine imp_congr_right fun hstale => ?_
  cases call with
  | ack envelope =>
      cases backend with
      | memory queue => exact @memory_ack cfg queue moment envelope
      | redis redis => exact @redis_ack cfg redis moment envelope
  | renew envelope =>
      cases backend with
      | memory queue => exact memory_renew
      | redis redis => exact redis_renew
  | retry envelope error =>
      cases backend with
      | memory queue => exact memory_retry
      | redis redis => exact redis_retry
  | enqueue | claim | recover_stale | dead_letters | remove_dead_letter | dead_letter_count =>
      exact False.elim hstale

end Runs

end Fencing

open Fencing

-- A run in which no superseded claim does anything is one in which the job was
-- out of flight, or without a lease to renew, whenever such a claim was used.
theorem superseded_claims_fenced {ι : Type} {cfg : Config} {trace : List (Performed ι)}
    {backend : Backend} :
    Calls cfg (fun trace backend performed =>
        Stale trace performed → FailsUnchanged cfg backend performed) trace backend ↔
      Calls cfg (fun trace backend performed =>
        Stale trace performed → Ended backend performed.call) trace backend :=
  ⟨fun h => h.mono fun trace backend worker moment call =>
      (failsUnchanged_iff trace backend worker moment call).mp,
    fun h => h.mono fun trace backend worker moment call =>
      (failsUnchanged_iff trace backend worker moment call).mpr⟩


-- Worker 1's lease expires, worker 2 takes the job over and worker 1
-- acknowledges it.
def late_ack : List (Fin 3 × Moment × QueueCall) :=
  [at_time 0 1000 (.enqueue "job" [] "principal" "tenant"),
    at_time 1 1000 (.claim .inserted 1),
    at_time 2 1400 (.claim .inserted 1)]

theorem late_ack_takes_job :
    let run := perform .default [] (.redis (.empty 1000)) late_ack
    let answer := run.2.call .default ⟨1401, []⟩ (.ack first_claim)
    let performed : Performed (Fin 3) := ⟨1, ⟨1401, []⟩, .ack first_claim, answer.1⟩
    Calls .default (fun _ _ _ => True) run.1 run.2 ∧ Stale run.1 performed ∧
      ¬FailsUnchanged .default run.2 performed ∧ run.2.InFlight "job" ∧
      ¬answer.2.InFlight "job" := by
  refine ⟨.perform (.redis 1000) _ (by simp [late_ack, AllAllowed]), ?_, ?_, by decide +kernel,
    by decide +kernel⟩
  · exact .inr ⟨by decide, by decide +kernel, _, List.mem_cons_self .., rfl, rfl⟩
  · exact fun h => absurd h.1 (by decide +kernel)

end ResearchAgent.JobQueue
