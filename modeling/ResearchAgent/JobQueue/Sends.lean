import ResearchAgent.JobQueue.Redis

namespace ResearchAgent.JobQueue

open Library

-- The hash stores an envelope under its own job id.
def WellEncoded (job_id : String) (encoded : JSONValue) : Prop :=
  ∃ envelope : JobEnvelope, encoded = envelope.to_json ∧ envelope.job_id = job_id

-- Commands that do not speak for a claim of the sender.
inductive Bystander : Command → Prop
  | clock : Bystander .clock
  | enqueue {job_id encoded ttl} (he : WellEncoded job_id encoded) (ht : 1 ≤ ttl) :
      Bystander (.eval (.enqueue .ready job_id encoded ttl))
  | recover {destination job_id encoded} (he : WellEncoded job_id encoded)
      (hd : destination ≠ .inflight) :
      Bystander (.eval (.recover .inflight .leases destination job_id encoded))
  | promote {job_id} : Bystander (.eval (.promote .scheduled .ready job_id))
  | remove_dead {job_id} : Bystander (.eval (.remove_dead .dead job_id))
  | hget {job_id} : Bystander (.hget job_id)
  | lrange {key} : Bystander (.lrange key)
  | llen {key} : Bystander (.llen key)
  | zscore {job_id} : Bystander (.zscore .leases job_id)
  | zrangebyscore {key maximum} : Bystander (.zrangebyscore key maximum)

-- All commands the queue sends but one: the LREM by which a claim gives up.
inductive Routine : Command → Prop
  | bystander {command} (h : Bystander command) : Routine command
  | ack {job_id} : Routine (.eval (.ack .inflight .leases job_id))
  | retry {job_id encoded retry_at} (he : WellEncoded job_id encoded) :
      Routine (.eval (.retry .inflight .leases .scheduled job_id encoded retry_at))
  | dead {job_id encoded} (he : WellEncoded job_id encoded) :
      Routine (.eval (.dead .inflight .leases .dead job_id encoded))
  | renew {job_id lease_until} : Routine (.eval (.renew .leases job_id lease_until))
  | brpoplpush : Routine (.brpoplpush .ready .inflight)
  | hset {job_id encoded} (he : WellEncoded job_id encoded) : Routine (.hset job_id encoded)
  | zadd {job_id score} : Routine (.zadd .leases job_id score)

namespace RedisQueue

theorem decode_uses {allowed : Command → Prop} (failure : String) (raw : JSONValue) :
    (decode failure raw).uses allowed := by
  unfold decode
  split <;> trivial

theorem enqueue_uses (cfg : Config) (job_id : String) (request : JSONObject)
    (principal_id tenant_id : String) :
    (enqueue cfg job_id request principal_id tenant_id).uses Bystander := by
  unfold enqueue
  split
  · trivial
  · exact ⟨.clock, fun _ => ⟨.enqueue ⟨_, rfl, rfl⟩ cfg.idempotency_ttl_pos, fun _ => trivial⟩⟩

theorem missing_leases_uses (ids expired : List String) :
    (missing_leases ids expired).uses Bystander := by
  induction ids generalizing expired with
  | nil => trivial
  | cons job_id rest ih => exact ⟨.zscore, fun _ => ih _⟩

theorem recover_one_redis_uses (cfg : Config) (envelope : JobEnvelope) :
    (recover_one_redis cfg envelope).uses Bystander := by
  refine ⟨.recover ⟨_, rfl, rfl⟩ ?_, fun _ => trivial⟩
  split <;> decide

theorem recover_expired_uses (cfg : Config) (ids : List String) (recovered : ℕ) :
    (recover_expired cfg ids recovered).uses Bystander := by
  induction ids generalizing recovered with
  | nil => trivial
  | cons job_id rest ih =>
      simp only [recover_expired, Program.call_bind, Program.ret_bind]
      refine ⟨.hget, fun raw => ?_⟩
      cases raw with
      | none => exact ih recovered
      | some raw =>
          exact Program.uses_bind (decode_uses _ raw) fun envelope =>
            Program.uses_bind (recover_one_redis_uses cfg envelope) fun _ => ih _

theorem recover_stale_uses (cfg : Config) (set_order : SetOrder) :
    (recover_stale cfg set_order).uses Bystander := by
  simp only [recover_stale, Program.call_bind, Program.ret_bind]
  exact ⟨.clock, fun _ => ⟨.zrangebyscore, fun _ => ⟨.lrange, fun _ =>
    Program.uses_bind (missing_leases_uses _ _) fun _ => recover_expired_uses cfg _ 0⟩⟩⟩

theorem promote_each_uses (ids : List String) : (promote_each ids).uses Bystander := by
  induction ids with
  | nil => trivial
  | cons job_id rest ih => exact ⟨.promote, fun _ => ih⟩

theorem promote_due_uses : promote_due.uses Bystander :=
  ⟨.clock, fun _ => ⟨.zrangebyscore, fun _ => promote_each_uses _⟩⟩

theorem set_lease_uses (cfg : Config) {job_id : String} {envelope : JobEnvelope}
    (hid : envelope.job_id = job_id) : (set_lease cfg job_id envelope).uses Routine :=
  ⟨.hset ⟨_, rfl, hid⟩, fun _ => ⟨.bystander .clock, fun _ => ⟨.zadd, fun _ => trivial⟩⟩⟩

theorem ack_uses (envelope : JobEnvelope) : (ack envelope).uses Routine :=
  ⟨.ack, fun _ => trivial⟩

theorem renew_uses (cfg : Config) (envelope : JobEnvelope) : (renew cfg envelope).uses Routine :=
  ⟨.bystander .clock, fun _ => ⟨.renew, fun _ => trivial⟩⟩

theorem dead_letter_uses (envelope : JobEnvelope) (error : String) :
    (dead_letter envelope error).uses Routine := by
  refine ⟨.dead ⟨_, rfl, rfl⟩, fun moved => ?_⟩
  cases moved <;> trivial

theorem retry_uses (cfg : Config) (envelope : JobEnvelope) (error : String) :
    (retry cfg envelope error).uses Routine := by
  unfold retry
  split
  · exact Program.uses_bind (dead_letter_uses envelope error) fun _ => trivial
  · refine ⟨.bystander .clock, fun _ => ⟨.retry ⟨_, rfl, rfl⟩, fun moved => ?_⟩⟩
    cases moved <;> trivial

theorem read_envelopes_uses (ids : List String) (result : List JobEnvelope) :
    (read_envelopes ids result).uses Bystander := by
  induction ids generalizing result with
  | nil => trivial
  | cons job_id rest ih =>
      simp only [read_envelopes, Program.call_bind, Program.ret_bind]
      refine ⟨.hget, fun raw => ?_⟩
      cases raw with
      | none => exact ih result
      | some raw => exact Program.uses_bind (decode_uses _ raw) fun _ => ih _

theorem dead_letters_uses : dead_letters.uses Bystander :=
  ⟨.lrange, fun _ => read_envelopes_uses _ _⟩

theorem remove_dead_letter_uses (envelope : JobEnvelope) :
    (remove_dead_letter envelope).uses Bystander :=
  ⟨.remove_dead, fun _ => trivial⟩

theorem dead_letter_count_uses : dead_letter_count.uses Bystander := ⟨.llen, fun _ => trivial⟩

end RedisQueue

end ResearchAgent.JobQueue
