import ResearchAgent.JobQueue.Copies
import ResearchAgent.JobQueue.Sends

namespace ResearchAgent.JobQueue

open Library

namespace MemoryQueue

variable {cfg : Config} {queue : MemoryQueue}

theorem recover_one_known (job_id : String) :
    (recover_one_memory cfg job_id queue).2.known = queue.known := by
  unfold recover_one_memory
  split
  · rfl
  · dsimp only
    split <;> rfl

theorem recover_all_known (ids : List String) :
    (recover_all cfg ids queue).2.known = queue.known := by
  induction ids generalizing queue with
  | nil => rfl
  | cons job_id rest ih =>
      have hone := @recover_one_known cfg queue job_id
      unfold recover_all
      split
      · next heq =>
          rw [heq] at hone
          exact ih.trans hone
      · next heq =>
          rw [heq] at hone
          exact hone

theorem recover_stale_known (now : ℚ≥0) :
    (queue.recover_stale cfg now).2.known = queue.known := by
  have hall := @recover_all_known cfg queue (queue.stale now)
  unfold recover_stale
  split <;> next heq =>
    rw [heq] at hall
    exact hall

theorem promote_all_known (ids : List String) : (promote_all ids queue).known = queue.known := by
  induction ids generalizing queue with
  | nil => rfl
  | cons job_id rest ih => exact ih

theorem wait_ready_known (now : ℚ≥0) (wakeups : List ℚ≥0) :
    (wait_ready now wakeups queue).2.known = queue.known := by
  induction wakeups generalizing now queue with
  | nil => rfl
  | cons wakeup rest ih =>
      unfold wait_ready
      split
      · exact (ih wakeup).trans (promote_all_known _)
      · rfl

theorem pop_ready_known (now : ℚ≥0) : (queue.pop_ready cfg now).2.known = queue.known := by
  unfold pop_ready
  split
  · rfl
  · split <;> rfl

theorem claim_known (now : ℚ≥0) (timeout : ℚ) (wakeups : List ℚ≥0) :
    (queue.claim cfg now timeout wakeups).2.known = queue.known := by
  have hrecovered := @recover_stale_known cfg queue now
  unfold claim
  split
  · rfl
  · split
    · next heq =>
        rw [heq] at hrecovered
        exact hrecovered
    · next recovered heq =>
        rw [heq] at hrecovered
        have hwaited := (wait_ready_known now wakeups).trans
          ((promote_all_known (recovered.due now)).trans hrecovered)
        split
        · next hwait =>
            rw [show promote_due_memory now recovered = promote_all (recovered.due now) recovered
              from rfl] at hwait
            rw [hwait] at hwaited
            exact hwaited
        · next hwait =>
            rw [show promote_due_memory now recovered = promote_all (recovered.due now) recovered
              from rfl] at hwait
            rw [hwait] at hwaited
            exact (pop_ready_known _).trans hwaited

-- Only an enqueue sets a marker.
theorem call_known {moment : Moment} {call : QueueCall} (h : call.enqueues = false) :
    (queue.call cfg moment call).2.known = queue.known := by
  cases call with
  | enqueue => cases h
  | claim set_order timeout => exact claim_known _ _ _
  | ack envelope =>
      simp only [MemoryQueue.call, ack]
      split <;> rfl
  | renew envelope =>
      simp only [MemoryQueue.call, renew]
      split <;> rfl
  | retry envelope error =>
      simp only [MemoryQueue.call, retry, dead_letter]
      split
      · split
        all_goals
          next heq =>
            split at heq <;> cases heq
            rfl
      · split <;> rfl
  | recover_stale set_order => exact recover_stale_known _
  | dead_letters => rfl
  | remove_dead_letter envelope =>
      simp only [MemoryQueue.call, remove_dead_letter]
      split <;> rfl
  | dead_letter_count => rfl

end MemoryQueue

namespace Redis

variable {cfg : Config} {α : Type}

-- What leaves the markers as they are.
def Unmarking : Command → Prop
  | .eval (.enqueue _ _ _ _) => False
  | _ => True

theorem exec_known {timed : Timed} {command : Command} (h : Unmarking command) :
    (timed_exec timed command).2.1.known = timed.1.known := by
  cases command with
  | clock => exact tick_known timed
  | eval script =>
      cases script with
      | enqueue => exact h.elim
      | _ =>
          simp only [timed_exec, exec, Script.run]
          split <;> rfl
  | brpoplpush source destination =>
      simp only [timed_exec, exec]
      split <;> rfl
  | _ => rfl

theorem run_known {program : QueueProgram α} (h : program.uses Unmarking) (timed : Timed) :
    (program.run timed_exec timed).2.1.known = timed.1.known := by
  induction program generalizing timed with
  | ret | raise => rfl
  | call command next ih => exact (ih _ (h.2 _) _).trans (exec_known h.1)

theorem unmarking_recover_expired (ids : List String) (recovered : ℕ) :
    (RedisQueue.recover_expired cfg ids recovered).uses Unmarking := by
  induction ids generalizing recovered with
  | nil => trivial
  | cons job_id rest ih =>
      simp only [RedisQueue.recover_expired, Program.call_bind, Program.ret_bind]
      refine ⟨trivial, fun raw => ?_⟩
      cases raw with
      | none => exact ih recovered
      | some raw =>
          exact Program.uses_bind (RedisQueue.decode_uses _ raw) fun envelope =>
            ⟨trivial, fun moved => ih _⟩

theorem unmarking_missing_leases (ids expired : List String) :
    (RedisQueue.missing_leases ids expired).uses Unmarking := by
  induction ids generalizing expired with
  | nil => trivial
  | cons job_id rest ih => exact ⟨trivial, fun _ => ih _⟩

theorem unmarking_recover_stale (set_order : SetOrder) :
    (RedisQueue.recover_stale cfg set_order).uses Unmarking := by
  simp only [RedisQueue.recover_stale, Program.call_bind, Program.ret_bind]
  exact ⟨trivial, fun _ => ⟨trivial, fun _ => ⟨trivial, fun _ =>
    Program.uses_bind (unmarking_missing_leases _ _) fun _ => unmarking_recover_expired _ 0⟩⟩⟩

theorem unmarking_promote_each (ids : List String) :
    (RedisQueue.promote_each ids).uses Unmarking := by
  induction ids with
  | nil => trivial
  | cons job_id rest ih => exact ⟨trivial, fun _ => ih⟩

theorem unmarking_claim (set_order : SetOrder) (timeout : ℚ) :
    (RedisQueue.claim cfg set_order timeout).uses Unmarking := by
  unfold RedisQueue.claim
  split
  · trivial
  · refine Program.uses_bind (unmarking_recover_stale set_order) fun _ => ?_
    refine Program.uses_bind ⟨trivial, fun _ => ⟨trivial, fun _ => unmarking_promote_each _⟩⟩
      fun _ => ⟨trivial, fun raw_id => ?_⟩
    cases raw_id with
    | none => trivial
    | some job_id =>
        simp only [RedisQueue.lease_claimed, Program.call_bind, Program.ret_bind]
        refine ⟨trivial, fun raw => ?_⟩
        cases raw with
        | none => exact ⟨trivial, fun _ => trivial⟩
        | some raw =>
            exact Program.uses_bind (RedisQueue.decode_uses _ raw) fun envelope =>
              ⟨trivial, fun _ => ⟨trivial, fun _ => ⟨trivial, fun _ => trivial⟩⟩⟩

theorem unmarking_retry (envelope : JobEnvelope) (error : String) :
    (RedisQueue.retry cfg envelope error).uses Unmarking := by
  have hanswer {β : Type} (value : β) (error : QueueError) (moved : Bool) :
      (if moved then .ret value else .raise error : QueueProgram β).uses Unmarking := by
    cases moved <;> trivial
  unfold RedisQueue.retry
  split
  · have hdead : (RedisQueue.dead_letter envelope error).uses Unmarking :=
      ⟨trivial, fun moved => hanswer () _ moved⟩
    exact Program.uses_bind hdead fun _ => trivial
  · exact ⟨trivial, fun _ => ⟨trivial, fun moved => hanswer _ _ moved⟩⟩

theorem unmarking_read_envelopes (ids : List String) (result : List JobEnvelope) :
    (RedisQueue.read_envelopes ids result).uses Unmarking := by
  induction ids generalizing result with
  | nil => trivial
  | cons job_id rest ih =>
      simp only [RedisQueue.read_envelopes, Program.call_bind, Program.ret_bind]
      refine ⟨trivial, fun raw => ?_⟩
      cases raw with
      | none => exact ih result
      | some raw => exact Program.uses_bind (RedisQueue.decode_uses _ raw) fun envelope => ih _

theorem unmarking_call {call : QueueCall} (h : call.enqueues = false) :
    (call.on_redis cfg).uses Unmarking := by
  cases call with
  | enqueue => cases h
  | claim set_order timeout =>
      exact Program.uses_bind (unmarking_claim set_order timeout) fun _ => trivial
  | ack | remove_dead_letter | dead_letter_count => exact ⟨trivial, fun _ => trivial⟩
  | renew envelope => exact ⟨trivial, fun _ => ⟨trivial, fun _ => trivial⟩⟩
  | retry envelope error =>
      exact Program.uses_bind (unmarking_retry envelope error) fun _ => trivial
  | recover_stale set_order =>
      exact Program.uses_bind (unmarking_recover_stale set_order) fun _ => trivial
  | dead_letters =>
      exact ⟨trivial, fun _ => Program.uses_bind (unmarking_read_envelopes _ []) fun _ => trivial⟩

end Redis

namespace Backend

variable {ι : Type} {cfg : Config} {allowed : List (Performed ι) → Backend → Performed ι → Prop}
  {trace : List (Performed ι)} {backend : Backend} {moment : Moment} {call : QueueCall}

theorem known_of_other (h : call.enqueues = false) (job_id : String) :
    (backend.call cfg moment call).2.known job_id = backend.known job_id := by
  cases backend with
  | memory queue =>
      exact congrArg (fun known => known.get? job_id) (MemoryQueue.call_known h)
  | redis server =>
      have huses : (call.on_redis cfg).uses Redis.Unmarking := Redis.unmarking_call h
      have hrun := Redis.run_known huses
        ({ server with now := moment.now }, moment.later)
      exact congrArg (fun known => known.get? job_id) hrun

-- An enqueue that answers True sets the marker of its job, and no other one does.
theorem known_of_admitted {job_id principal_id tenant_id : String} {request : JSONObject}
    (h : (backend.call cfg moment (.enqueue job_id request principal_id tenant_id)).1 =
      .ok (.bool true)) (other : String) :
    (backend.call cfg moment (.enqueue job_id request principal_id tenant_id)).2.known other =
      if other = job_id then some ((backend.looks_at moment : ℚ) + cfg.idempotency_ttl)
      else backend.known other := by
  cases backend with
  | memory queue =>
      simp only [Backend.call, MemoryQueue.call, MemoryQueue.enqueue] at h ⊢
      split at h
      · cases h
      · split at h
        · cases h
        · next hids hknown =>
            simp only [hids, hknown, if_false, Bool.false_eq_true]
            exact Dict.get?_set ..
  | redis server =>
      simp only [Backend.call, Redis.call, QueueCall.on_redis, RedisQueue.enqueue] at h ⊢
      split at h
      · cases h
      · next hids =>
          simp only [hids, Bool.false_eq_true, ite_false, Program.call_bind, Program.ret_bind,
            Program.run_call, Redis.timed_exec, Redis.exec, Script.run] at h ⊢
          split at h
          · cases h
          · next hknown =>
              have hnow := @Redis.tick_now server moment.now moment.later
              have hkept := Redis.tick_known ({ server with now := moment.now }, moment.later)
              simp only [hknown, Bool.false_eq_true, if_false, Program.run_ret, Prod.map, known,
                Redis.lpush_known, Redis.hset_known, Redis.set_known, hnow, hkept, looks_at,
                Dict.get?_set]

theorem known_of_refused {job_id principal_id tenant_id : String} {request : JSONObject}
    (h : (backend.call cfg moment (.enqueue job_id request principal_id tenant_id)).1 ≠
      .ok (.bool true)) (other : String) :
    (backend.call cfg moment (.enqueue job_id request principal_id tenant_id)).2.known other =
      backend.known other := by
  cases backend with
  | memory queue =>
      simp only [Backend.call, MemoryQueue.call, MemoryQueue.enqueue] at h ⊢
      split at h
      · next hids => simp only [hids, if_true, Prod.map, known, id]
      · next hids =>
          split at h
          · next hknown => simp only [hids, hknown, if_true, if_false, Bool.false_eq_true, Prod.map,
              known, id]
          · exact absurd rfl h
  | redis server =>
      simp only [Backend.call, Redis.call, QueueCall.on_redis, RedisQueue.enqueue] at h ⊢
      split at h
      · next hids => simp [hids, known]
      · next hids =>
          simp only [hids, Bool.false_eq_true, ite_false, Program.call_bind, Program.ret_bind,
            Program.run_call, Redis.timed_exec, Redis.exec, Script.run] at h ⊢
          split at h
          · next hknown =>
              have hkept := Redis.tick_known ({ server with now := moment.now }, moment.later)
              simp only [hknown, if_true, Program.run_ret, Prod.map, known, hkept]
          · exact absurd rfl h

theorem enqueue_answers {job_id principal_id tenant_id : String} {request : JSONObject}
    (hids : ¬missing_ids job_id principal_id tenant_id) :
    ∃ answer, (backend.call cfg moment (.enqueue job_id request principal_id tenant_id)).1 =
      .ok (.bool answer) := by
  cases backend with
  | memory queue =>
      simp only [Backend.call, MemoryQueue.call, MemoryQueue.enqueue, if_neg hids]
      split <;> exact ⟨_, rfl⟩
  | redis server =>
      simp only [Backend.call, Redis.call, QueueCall.on_redis, RedisQueue.enqueue, if_neg hids]
      exact ⟨_, rfl⟩

theorem looks_at_call (other : Moment) :
    (backend.call cfg moment call).2.looks_at other = backend.looks_at other := by
  cases backend <;> rfl

-- When the newest enqueue of the job that was answered True looked at the clock.
def last_admitted (backend : Backend) (job_id : String) : List (Performed ι) → Option ℚ≥0
  | [] => none
  | performed :: rest =>
      match performed.call, performed.result with
      | .enqueue other _ _ _, .ok (.bool true) =>
          if job_id = other then some (backend.looks_at performed.moment)
          else last_admitted backend job_id rest
      | _, _ => last_admitted backend job_id rest

theorem last_admitted_call (job_id : String) (trace : List (Performed ι)) :
    last_admitted (backend.call cfg moment call).2 job_id trace =
      last_admitted backend job_id trace := by
  induction trace with
  | nil => rfl
  | cons performed rest ih => simp only [last_admitted, looks_at_call, ih]

-- The markers are those of the newest enqueues that were answered True.
theorem known_eq_last (h : Calls cfg allowed trace backend) (job_id : String) :
    backend.known job_id = (last_admitted backend job_id trace).map fun time =>
      (time : ℚ) + cfg.idempotency_ttl := by
  induction h with
  | memory | redis => rfl
  | @call trace backend _ worker moment call _ ih =>
      cases henqueues : call.enqueues with
      | false =>
          rw [known_of_other henqueues, ih, last_admitted, last_admitted_call]
          cases call <;> first | rfl | cases henqueues
      | true =>
          obtain ⟨other, request, principal_id, tenant_id, rfl⟩ : ∃ other request principal_id
              tenant_id, call = .enqueue other request principal_id tenant_id := by
            cases call <;> first | exact ⟨_, _, _, _, rfl⟩ | cases henqueues
          by_cases hadmitted : (backend.call cfg moment
              (.enqueue other request principal_id tenant_id)).1 = .ok (.bool true)
          · rw [known_of_admitted hadmitted, ih]
            simp only [last_admitted, hadmitted, looks_at_call, last_admitted_call]
            split_ifs <;> rfl
          · rw [known_of_refused hadmitted, ih, last_admitted, last_admitted_call]
            split
            · next heq => exact absurd heq hadmitted
            · rfl

-- The call is no enqueue at the very instant at which the marker of its job expires, where the
-- server may still have it.
def OffExpiry (backend : Backend) (performed : Performed ι) : Prop :=
  ∀ job_id request principal_id tenant_id,
    performed.call = .enqueue job_id request principal_id tenant_id →
      ∀ expires ∈ backend.known job_id, expires ≠ backend.looks_at performed.moment

-- Apart from the instants at which markers expire, a job is admitted when its last admission
-- was longer ago than the markers last, and refused when it was not as long ago.
theorem enqueue_exact
    (h : Calls cfg (fun _ backend performed => OffExpiry backend performed) trace backend)
    {job_id principal_id tenant_id : String} {request : JSONObject} (worker : ι)
    (hids : ¬missing_ids job_id principal_id tenant_id)
    (hoff : backend.OffExpiry ⟨worker, moment, .enqueue job_id request principal_id tenant_id,
      (backend.call cfg moment (.enqueue job_id request principal_id tenant_id)).1⟩) :
    ((backend.call cfg moment (.enqueue job_id request principal_id tenant_id)).1 =
        .ok (.bool true) ↔
      ∀ time ∈ last_admitted backend job_id trace,
        (time : ℚ) + cfg.idempotency_ttl < backend.looks_at moment) ∧
    ((backend.call cfg moment (.enqueue job_id request principal_id tenant_id)).1 =
        .ok (.bool false) ↔
      ∃ time ∈ last_admitted backend job_id trace,
        (backend.looks_at moment : ℚ) < time + cfg.idempotency_ttl) := by
  have hknown := known_eq_last h job_id
  have hunexpired : backend.Unexpired job_id (backend.looks_at moment) ↔
      ∃ time ∈ last_admitted backend job_id trace,
        (backend.looks_at moment : ℚ) < time + cfg.idempotency_ttl := by
    unfold Unexpired
    rw [hknown]
    cases last_admitted backend job_id trace <;> simp
  have hexpired : ¬backend.Unexpired job_id (backend.looks_at moment) ↔
      ∀ time ∈ last_admitted backend job_id trace,
        (time : ℚ) + cfg.idempotency_ttl < backend.looks_at moment := by
    rw [hunexpired, not_exists]
    refine forall_congr' fun time => ?_
    rw [not_and, not_lt]
    refine imp_congr_right fun hmem => ?_
    have hne : (time : ℚ) + cfg.idempotency_ttl ≠ backend.looks_at moment := by
      refine hoff _ _ _ _ rfl _ ?_
      rw [hknown, hmem]
      rfl
    exact (lt_iff_le_and_ne.trans (and_iff_left hne)).symm
  have hadmitted := @admitted_iff cfg backend moment job_id principal_id tenant_id request
  constructor
  · rw [hadmitted, hexpired]
    exact and_iff_right hids
  · obtain ⟨answer, hanswer⟩ := @enqueue_answers cfg backend moment job_id principal_id tenant_id
      request hids
    rw [hunexpired] at hadmitted
    rw [hanswer] at hadmitted ⊢
    cases answer with
    | true => simpa [hids] using hadmitted
    | false => simpa [hids] using hadmitted

theorem enqueue_exact_again :
    (((Backend.memory .empty).call .default ⟨1000, []⟩
      (.enqueue "job" [] "principal" "tenant")).2.call .default ⟨2000, []⟩
        (.enqueue "job" [] "principal" "tenant")).1 = .ok (.bool false) := by
  have hfirst := (@Calls.memory Unit .default fun _ backend performed =>
    OffExpiry backend performed).call () ⟨1000, []⟩ (.enqueue "job" [] "principal" "tenant")
    (fun _ _ _ _ _ _ hmem => by cases hmem)
  refine (enqueue_exact hfirst () (by decide) ?_).2.mpr ⟨1000, rfl, ?_⟩
  · rintro _ _ _ _ ⟨⟩ expires hmem
    have hexpires : expires = 1000 + 2592000 := (Option.some.inj hmem).symm
    rw [hexpires]
    norm_num [Backend.call, looks_at]
  · norm_num [Backend.call, looks_at, Config.default]

end Backend

end ResearchAgent.JobQueue
