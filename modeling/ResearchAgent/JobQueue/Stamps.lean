import ResearchAgent.JobQueue.Backend

namespace ResearchAgent.JobQueue

open Library JobTable

-- The part of an envelope that only `enqueue` and `retry` write anew.
def JobEnvelope.stamp (envelope : JobEnvelope) : String × Option ℚ :=
  (envelope.job_id, envelope.retry_at)

namespace MemoryQueue

def stamp (queue : MemoryQueue) (job_id : String) : Option (String × Option ℚ) :=
  (queue.envelopes.get? job_id).map JobEnvelope.stamp

-- The job that a claim finds first in the line, once it has recovered and promoted.
def next (cfg : Config) (moment : Moment) (queue : MemoryQueue) : Option String :=
  (wait_ready moment.now moment.later
    (promote_due_memory moment.now (recover_stale cfg moment.now queue).2)).2.ready.head?

variable {cfg : Config} {queue queue' : MemoryQueue} {now : ℚ≥0}

theorem stamp_congr (h : queue'.envelopes = queue.envelopes) (job_id : String) :
    queue'.stamp job_id = queue.stamp job_id := by
  rw [stamp, h, stamp]

theorem stamp_of_set {job_id : String} {envelope : JobEnvelope}
    (h : queue'.envelopes = queue.envelopes.set job_id envelope) (other : String) :
    queue'.stamp other = if other = job_id then some envelope.stamp else queue.stamp other := by
  unfold stamp
  rw [h, Dict.get?_set]
  split <;> rfl

-- An envelope that is stored again with its stamp as it was.
theorem same_stamp_of_set {job_id : String} {stored envelope : JobEnvelope}
    (h : queue'.envelopes = queue.envelopes.set job_id envelope)
    (hstored : queue.envelopes.get? job_id = some stored) (hstamp : envelope.stamp = stored.stamp)
    (other : String) : queue'.stamp other = queue.stamp other := by
  rw [stamp_of_set h]
  split
  · next heq => rw [heq, stamp, hstored, hstamp, Option.map_some]
  · rfl

theorem recover_one_stamp (cfg : Config) (job_id : String) (queue : MemoryQueue)
    (other : String) :
    (recover_one_memory cfg job_id queue).2.stamp other = queue.stamp other := by
  unfold recover_one_memory
  split
  · rfl
  · next envelope hstored =>
    dsimp only
    split
    · exact same_stamp_of_set rfl hstored (by rfl) other
    · exact same_stamp_of_set rfl hstored (by rfl) other

theorem recover_all_stamp (cfg : Config) (ids : List String) (queue : MemoryQueue)
    (other : String) : (recover_all cfg ids queue).2.stamp other = queue.stamp other := by
  induction ids generalizing queue with
  | nil => rfl
  | cons job_id rest ih =>
      have hone := recover_one_stamp cfg job_id queue other
      unfold recover_all
      split
      · next after hrecovered =>
        rw [hrecovered] at hone
        exact (ih after).trans hone
      · next error after hrecovered =>
        rw [hrecovered] at hone
        exact hone

theorem recover_stale_stamp (cfg : Config) (now : ℚ≥0) (queue : MemoryQueue) (other : String) :
    (recover_stale cfg now queue).2.stamp other = queue.stamp other := by
  have hall := recover_all_stamp cfg (queue.stale now) queue other
  unfold recover_stale
  split
  · next after hrecovered =>
    rw [hrecovered] at hall
    exact hall
  · next error after hrecovered =>
    rw [hrecovered] at hall
    exact hall

theorem promote_all_envelopes (ids : List String) (queue : MemoryQueue) :
    (promote_all ids queue).envelopes = queue.envelopes := by
  induction ids generalizing queue with
  | nil => rfl
  | cons job_id rest ih => exact ih _

theorem wait_ready_envelopes (now : ℚ≥0) (wakeups : List ℚ≥0) (queue : MemoryQueue) :
    (wait_ready now wakeups queue).2.envelopes = queue.envelopes := by
  induction wakeups generalizing now queue with
  | nil => rfl
  | cons wakeup rest ih =>
      unfold wait_ready
      split
      · exact (ih wakeup _).trans (promote_all_envelopes _ queue)
      · rfl

theorem wait_ready_some {ready_at : ℚ≥0} {wakeups : List ℚ≥0}
    (h : (wait_ready now wakeups queue).1 = some ready_at) :
    (wait_ready now wakeups queue).2.ready ≠ [] := by
  induction wakeups generalizing now queue with
  | nil =>
      unfold wait_ready at h ⊢
      intro hnil
      rw [hnil] at h
      cases h
  | cons wakeup rest ih =>
      unfold wait_ready at h ⊢
      split
      · next hempty =>
        rw [if_pos hempty] at h
        exact ih h
      · next hready => exact fun hnil => hready (List.isEmpty_iff.mpr hnil)

theorem wait_ready_none {wakeups : List ℚ≥0} (h : (wait_ready now wakeups queue).1 = none) :
    (wait_ready now wakeups queue).2.ready = [] := by
  induction wakeups generalizing now queue with
  | nil =>
      unfold wait_ready at h ⊢
      split at h
      · next hempty => exact List.isEmpty_iff.mp hempty
      · cases h
  | cons wakeup rest ih =>
      unfold wait_ready at h ⊢
      split
      · next hempty =>
        rw [if_pos hempty] at h
        exact ih h
      · next hready =>
        rw [if_neg hready] at h
        cases h

theorem pop_ready_stamp (cfg : Config) (now : ℚ≥0) (queue : MemoryQueue) (other : String) :
    (pop_ready cfg now queue).2.stamp other = queue.stamp other := by
  unfold pop_ready
  split
  · rfl
  · split
    · rfl
    · next stored hstored => exact same_stamp_of_set rfl hstored (by rfl) other

-- A claim hands out the first of the line, with the stamp as it was stored.
theorem pop_ready_hands {envelope : JobEnvelope}
    (h : (pop_ready cfg now queue).1 = .ok (some envelope)) :
    ∃ job_id, queue.ready.head? = some job_id ∧ queue.stamp job_id = some envelope.stamp := by
  unfold pop_ready at h
  split at h
  · cases h
  · next job_id rest hready =>
    split at h
    · cases h
    · next stored hstored =>
      cases h
      exact ⟨job_id, by rw [hready]; rfl, by rw [stamp, hstored]; rfl⟩

theorem claim_stamp (cfg : Config) (now : ℚ≥0) (timeout : ℚ) (wakeups : List ℚ≥0)
    (queue : MemoryQueue) (other : String) :
    (claim cfg now timeout wakeups queue).2.stamp other = queue.stamp other := by
  have hrecovered := recover_stale_stamp cfg now queue other
  unfold claim
  split
  · rfl
  · split
    · next error after hstale =>
      rw [hstale] at hrecovered
      exact hrecovered
    · next after hstale =>
      rw [hstale] at hrecovered
      have hwaited := stamp_congr ((wait_ready_envelopes now wakeups _).trans
        (promote_all_envelopes (after.due now) after)) other
      split
      · next waited hwait =>
        rw [promote_due_memory] at hwait
        rw [hwait] at hwaited
        exact hwaited.trans hrecovered
      · next ready_at waited hwait =>
        rw [promote_due_memory] at hwait
        rw [hwait] at hwaited
        exact (pop_ready_stamp cfg ready_at waited other).trans (hwaited.trans hrecovered)

variable {moment : Moment} {timeout : ℚ}

-- What a claim returns is a matter of which job is next.
theorem claim_next {claimed : Option JobEnvelope} (htimeout : 0 < timeout)
    (h : (claim cfg moment.now timeout moment.later queue).1 = .ok claimed) :
    match claimed with
    | none => queue.next cfg moment = none
    | some envelope => ∃ job_id, queue.next cfg moment = some job_id ∧
        queue.stamp job_id = some envelope.stamp := by
  unfold claim at h
  rw [if_neg (not_le.mpr htimeout)] at h
  unfold next
  have hrecovered := recover_stale_stamp cfg moment.now queue
  split at h
  · cases h
  · next after hstale =>
    rw [hstale] at hrecovered ⊢
    dsimp only at hrecovered ⊢
    have hwaited (job_id : String) :
        (wait_ready moment.now moment.later (promote_due_memory moment.now after)).2.stamp job_id =
          after.stamp job_id :=
      stamp_congr ((wait_ready_envelopes _ _ _).trans (promote_all_envelopes _ _)) job_id
    split at h
    · next waited hwait =>
      cases h
      have hempty := wait_ready_none (congrArg Prod.fst hwait)
      rw [hempty]
      rfl
    · next ready_at waited hwait =>
      have hready := wait_ready_some (congrArg Prod.fst hwait)
      rw [hwait] at hready hwaited ⊢
      dsimp only at hready hwaited ⊢
      cases claimed with
      | none =>
          unfold pop_ready at h
          split at h
          · next hnil => exact absurd hnil hready
          · split at h <;> cases h
      | some envelope =>
          obtain ⟨job_id, hfirst, hstamp⟩ := pop_ready_hands h
          exact ⟨job_id, hfirst, by rw [← hrecovered, ← hwaited, hstamp]⟩

end MemoryQueue

namespace Redis

def stored (redis : Redis) (job_id : String) : Option JobEnvelope :=
  (redis.envelopes.get? job_id).bind fun raw => (JobEnvelope.from_json raw).toOption

def stamp (redis : Redis) (job_id : String) : Option (String × Option ℚ) :=
  (redis.stored job_id).map JobEnvelope.stamp

-- Whatever is in the hash is an envelope under its own id.
def Written (redis : Redis) : Prop :=
  ∀ job_id raw, redis.envelopes.get? job_id = some raw →
    ∃ envelope : JobEnvelope, raw = envelope.to_json ∧ envelope.job_id = job_id

variable {cfg : Config} {redis redis' : Redis} {table : JobTable}

theorem Refines.written (h : redis.Refines table) : redis.Written := by
  intro job_id raw hraw
  have hstored := h.envelope job_id
  rw [hraw] at hstored
  cases hj : (table.jobs job_id).envelope with
  | none =>
      rw [hj] at hstored
      cases hstored
  | some envelope =>
      rw [hj] at hstored
      obtain ⟨stored, heq, -, hid⟩ := hstored
      exact ⟨stored, Option.some.inj heq, hid⟩

theorem stored_of_get {job_id : String} {envelope : JobEnvelope}
    (h : redis.envelopes.get? job_id = some envelope.to_json) :
    redis.stored job_id = some envelope := by
  rw [stored, h, Option.bind_some, JobEnvelope.from_json_to_json]
  rfl

-- The hash still holds envelopes, with their stamps as they were.
structure SameStamps (redis redis' : Redis) : Prop where
  written : redis'.Written
  stamp : ∀ job_id, redis'.stamp job_id = redis.stamp job_id

theorem SameStamps.refl (h : redis.Written) : SameStamps redis redis := ⟨h, fun _ => rfl⟩

theorem SameStamps.trans {last : Redis} (h : SameStamps redis redis')
    (h' : SameStamps redis' last) : SameStamps redis last :=
  ⟨h'.written, fun job_id => (h'.stamp job_id).trans (h.stamp job_id)⟩

theorem SameStamps.of_envelopes (hwritten : redis.Written)
    (h : redis'.envelopes = redis.envelopes) : SameStamps redis redis' := by
  refine ⟨fun job_id raw hraw => hwritten job_id raw (by rwa [h] at hraw), fun job_id => ?_⟩
  rw [Redis.stamp, Redis.stored, h]
  rfl

-- What is stored for one job, and for no other.
theorem stamp_of_hset {job_id : String} {envelope : JobEnvelope}
    (h : redis'.envelopes = redis.envelopes.set job_id envelope.to_json) (other : String) :
    redis'.stamp other = if other = job_id then some envelope.stamp else redis.stamp other := by
  split
  · next heq =>
    rw [Redis.stamp, stored_of_get (by rw [h, heq, Dict.get?_set_self])]
    rfl
  · next hne =>
    rw [Redis.stamp, Redis.stored, h, Dict.get?_set, if_neg hne]
    rfl

theorem written_of_hset {envelope : JobEnvelope} (hwritten : redis.Written)
    (h : redis'.envelopes = redis.envelopes.set envelope.job_id envelope.to_json) :
    redis'.Written := by
  intro job_id raw hraw
  rw [h, Dict.get?_set] at hraw
  split at hraw
  · next heq =>
    cases hraw
    exact ⟨envelope, rfl, heq.symm⟩
  · exact hwritten job_id raw hraw

theorem SameStamps.of_hset {stored envelope : JobEnvelope} (hwritten : redis.Written)
    (h : redis'.envelopes = redis.envelopes.set envelope.job_id envelope.to_json)
    (hstored : redis.envelopes.get? envelope.job_id = some stored.to_json)
    (hstamp : envelope.stamp = stored.stamp) : SameStamps redis redis' := by
  refine ⟨written_of_hset hwritten h, fun job_id => ?_⟩
  rw [stamp_of_hset h]
  split
  · next heq =>
    rw [heq, Redis.stamp, stored_of_get hstored, hstamp]
    rfl
  · rfl

theorem SameStamps.tick {timed : Timed} (hwritten : timed.1.Written) :
    SameStamps timed.1 (tick timed).1 :=
  .of_envelopes hwritten (tick_envelopes timed)

theorem missing_leases_run (timed : Timed) (ids expired : List String) :
    ((RedisQueue.missing_leases ids expired).run timed_exec timed).2 = timed := by
  induction ids generalizing expired with
  | nil => rfl
  | cons job_id rest ih => exact ih _

theorem recover_expired_stamps (cfg : Config) (later : List ℚ≥0) {ids : List String}
    (recovered : ℕ) (hwritten : redis.Written) : SameStamps redis
      ((RedisQueue.recover_expired cfg ids recovered).run timed_exec (redis, later)).2.1 := by
  induction ids generalizing redis recovered with
  | nil => exact .refl hwritten
  | cons job_id rest ih =>
      simp only [RedisQueue.recover_expired, Program.call_bind, Program.ret_bind,
        Program.run_call, timed_exec, exec]
      cases hraw : redis.envelopes.get? job_id with
      | none => exact ih recovered hwritten
      | some raw =>
          obtain ⟨envelope, rfl, rfl⟩ := hwritten job_id raw hraw
          simp only [RedisQueue.decode_to_json, RedisQueue.recover_one_redis, Program.ret_bind,
            Program.call_bind, Program.run_call, timed_exec, exec, Script.run]
          split
          · let updated := { envelope with last_error := some "lease expired" }
            have hone : SameStamps redis ((((redis.lrem .inflight envelope.job_id).zrem .leases
                envelope.job_id).hset envelope.job_id updated.to_json).lpush
                  (if envelope.attempt ≥ cfg.max_attempts then .dead else .ready)
                  envelope.job_id) :=
              @SameStamps.of_hset redis _ envelope updated hwritten rfl hraw rfl
            exact hone.trans (ih _ hone.written)
          · exact ih _ hwritten

theorem recover_stale_stamps (cfg : Config) (set_order : SetOrder) {timed : Timed}
    (hwritten : timed.1.Written) : SameStamps timed.1
      ((RedisQueue.recover_stale cfg set_order).run timed_exec timed).2.1 := by
  have htick := SameStamps.tick hwritten
  simp only [RedisQueue.recover_stale, Program.call_bind, Program.ret_bind, Program.run_call,
    timed_exec, exec]
  have hmissing := missing_leases_run (tick timed) ((tick timed).1.lists .inflight)
    ((tick timed).1.zrangebyscore .leases timed.1.now)
  rw [Program.run_bind]
  split
  · next expired after hrun =>
    rw [hrun] at hmissing
    obtain rfl : after = tick timed := hmissing
    exact htick.trans (recover_expired_stamps cfg (tick timed).2 0 htick.written)
  · next error after hrun =>
    rw [hrun] at hmissing
    obtain rfl : after = tick timed := hmissing
    exact htick

theorem promote_each_envelopes (ids : List String) (timed : Timed) :
    ((RedisQueue.promote_each ids).run timed_exec timed).2.1.envelopes = timed.1.envelopes := by
  induction ids generalizing timed with
  | nil => rfl
  | cons job_id rest ih =>
      simp only [RedisQueue.promote_each, Program.call_bind, Program.ret_bind, Program.run_call,
        timed_exec, exec, Script.run]
      split <;> exact ih _

theorem promote_due_stamps {timed : Timed} (hwritten : timed.1.Written) :
    SameStamps timed.1 (RedisQueue.promote_due.run timed_exec timed).2.1 := by
  refine .of_envelopes hwritten ?_
  simp only [RedisQueue.promote_due, Program.call_bind, Program.ret_bind, Program.run_call,
    timed_exec, exec]
  exact (promote_each_envelopes _ _).trans (tick_envelopes timed)

-- A claim clears the time of the retry in what it stores and returns.
def Cleared (redis : Redis) : Except QueueError (Option JobEnvelope) × Timed → Prop
  | (.ok (some envelope), after) => envelope.retry_at = none ∧ ∀ other, after.1.stamp other =
      if other = envelope.job_id then some (envelope.job_id, none) else redis.stamp other
  | (.ok none, after) | (.error _, after) => ∀ other, after.1.stamp other = redis.stamp other

theorem Cleared.of_same {outcome : Except QueueError (Option JobEnvelope) × Timed}
    (hsame : SameStamps redis redis') (h : redis'.Cleared outcome) : redis.Cleared outcome := by
  have hstamp (other : String) := hsame.stamp other
  obtain ⟨_ | _ | envelope, after⟩ := outcome
  · exact fun other => (h other).trans (hstamp other)
  · exact fun other => (h other).trans (hstamp other)
  · refine ⟨h.1, fun other => (h.2 other).trans ?_⟩
    rw [hstamp]

theorem pop_ready_cleared (cfg : Config) {timed : Timed} (hwritten : timed.1.Written) :
    timed.1.Cleared ((RedisQueue.pop_ready cfg).run timed_exec timed) := by
  simp only [RedisQueue.pop_ready, Program.call_bind, Program.ret_bind, Program.run_call,
    timed_exec, exec]
  cases hlast : (timed.1.lists .ready).getLast? with
  | none => exact fun _ => rfl
  | some job_id =>
      simp only [RedisQueue.lease_claimed, Program.call_bind, Program.ret_bind, Program.run_call,
        timed_exec, exec]
      rw [lpush_envelopes, rpop_envelopes]
      cases hraw : timed.1.envelopes.get? job_id with
      | none =>
          exact (SameStamps.of_envelopes hwritten rfl).stamp
      | some raw =>
          obtain ⟨envelope, rfl, rfl⟩ := hwritten job_id raw hraw
          simp only [RedisQueue.decode_to_json, RedisQueue.set_lease, Program.ret_bind,
            Program.call_bind, Program.run_call, Program.run_ret, timed_exec, exec]
          refine ⟨rfl, fun other => ?_⟩
          let claimed : JobEnvelope :=
            { envelope with attempt := envelope.attempt + 1, retry_at := none }
          exact @stamp_of_hset timed.1 _ envelope.job_id claimed (by simp [claimed]) other

theorem claim_cleared (cfg : Config) (set_order : SetOrder) (timeout : ℚ) {timed : Timed}
    (hwritten : timed.1.Written) :
    timed.1.Cleared ((RedisQueue.claim cfg set_order timeout).run timed_exec timed) := by
  unfold RedisQueue.claim
  split
  · exact fun _ => rfl
  · have hrecovered := recover_stale_stamps cfg set_order hwritten
    rw [Program.run_bind]
    split
    · next count recovered hrun =>
      rw [hrun] at hrecovered
      have hpromoted := promote_due_stamps hrecovered.written
      rw [Program.run_bind]
      split
      · next promoted hrun =>
        rw [hrun] at hpromoted
        exact (pop_ready_cleared cfg hpromoted.written).of_same (hrecovered.trans hpromoted)
      · next error promoted hrun =>
        rw [hrun] at hpromoted
        exact (hrecovered.trans hpromoted).stamp
    · next error recovered hrun =>
      rw [hrun] at hrecovered
      exact hrecovered.stamp

end Redis

-- What a call that is no claim writes anew for the job: nothing, a stamp, or that there is
-- no envelope any more.
def restamp (cfg : Config) (moment : Moment) (job_id : String) (call : QueueCall)
    (result : Except QueueError QueueReply) : Option (Option (String × Option ℚ)) :=
  match call, result with
  | .enqueue other _ _ _, .ok (.bool true) =>
      if job_id = other then some (some (job_id, none)) else none
  | .ack envelope, .ok (.bool true) | .remove_dead_letter envelope, .ok (.bool true) =>
      if job_id = envelope.job_id then some none else none
  | .retry envelope _, .ok (.outcome .scheduled) =>
      if job_id = envelope.job_id then some (some (job_id, some (cfg.retry_at moment.now envelope)))
      else none
  | .retry envelope _, .ok (.outcome .dead_letter) =>
      if job_id = envelope.job_id then some (some (job_id, none)) else none
  | _, _ => none

-- The calls that write the stamp of the job anew, with the answers under which they do.
inductive Restamps (cfg : Config) (moment : Moment) (job_id : String) :
    QueueCall → Except QueueError QueueReply → Option (String × Option ℚ) → Prop
  | enqueued {request : JSONObject} {principal_id tenant_id : String} :
      Restamps cfg moment job_id (.enqueue job_id request principal_id tenant_id)
        (.ok (.bool true)) (some (job_id, none))
  | acked {envelope : JobEnvelope} (hid : envelope.job_id = job_id) :
      Restamps cfg moment job_id (.ack envelope) (.ok (.bool true)) none
  | removed {envelope : JobEnvelope} (hid : envelope.job_id = job_id) :
      Restamps cfg moment job_id (.remove_dead_letter envelope) (.ok (.bool true)) none
  | delayed {envelope : JobEnvelope} {error : String} (hid : envelope.job_id = job_id) :
      Restamps cfg moment job_id (.retry envelope error) (.ok (.outcome .scheduled))
        (some (job_id, some (cfg.retry_at moment.now envelope)))
  | buried {envelope : JobEnvelope} {error : String} (hid : envelope.job_id = job_id) :
      Restamps cfg moment job_id (.retry envelope error) (.ok (.outcome .dead_letter))
        (some (job_id, none))

theorem restamps_of_some {cfg : Config} {moment : Moment} {job_id : String} {call : QueueCall}
    {result : Except QueueError QueueReply} {written : Option (String × Option ℚ)}
    (h : restamp cfg moment job_id call result = some written) :
    Restamps cfg moment job_id call result written := by
  unfold restamp at h
  split at h
  · split at h
    · next heq =>
      cases h
      subst heq
      exact .enqueued
    · cases h
  · split at h
    · next heq =>
      cases h
      subst heq
      exact .acked rfl
    · cases h
  · split at h
    · next heq =>
      cases h
      subst heq
      exact .removed rfl
    · cases h
  · split at h
    · next heq =>
      cases h
      subst heq
      exact .delayed rfl
    · cases h
  · split at h
    · next heq =>
      cases h
      subst heq
      exact .buried rfl
    · cases h
  · cases h

theorem JobEnvelope.restamped (envelope : JobEnvelope) {other : String}
    (hid : envelope.job_id = other) (job_id : String) (stamp : Option (String × Option ℚ)) :
    (if job_id = other then some envelope.stamp else stamp) =
      (if job_id = other then some (some (job_id, envelope.retry_at)) else none).getD stamp := by
  split
  · next heq => rw [JobEnvelope.stamp, hid, heq, Option.getD_some]
  · rfl

namespace MemoryQueue

variable {cfg : Config} {queue queue' : MemoryQueue} {moment : Moment} {job_id : String}

theorem stamp_set {other : String} {envelope : JobEnvelope}
    (h : queue'.envelopes = queue.envelopes.set other envelope) (hid : envelope.job_id = other)
    (job_id : String) : queue'.stamp job_id =
      (if job_id = other then some (some (job_id, envelope.retry_at)) else none).getD
        (queue.stamp job_id) := by
  rw [stamp_of_set h, envelope.restamped hid]

theorem stamp_erase {other : String} (h : queue'.envelopes = queue.envelopes.erase other)
    (job_id : String) : queue'.stamp job_id =
      (if job_id = other then some none else none).getD (queue.stamp job_id) := by
  unfold stamp
  rw [h, Dict.get?_erase]
  split <;> rfl

theorem stamp_of_call {call : QueueCall}
    (hcall : ∀ set_order timeout, call ≠ .claim set_order timeout) (cfg : Config)
    (moment : Moment) (queue : MemoryQueue) (job_id : String) :
    (queue.call cfg moment call).2.stamp job_id =
      (restamp cfg moment job_id call (queue.call cfg moment call).1).getD
        (queue.stamp job_id) := by
  cases call with
  | enqueue other request principal_id tenant_id =>
      simp only [MemoryQueue.call, enqueue]
      split
      · rfl
      · split
        · rfl
        · let envelope := new_envelope moment.now other request principal_id tenant_id
          exact @stamp_set queue _ other envelope rfl rfl job_id
  | claim set_order timeout => exact absurd rfl (hcall set_order timeout)
  | ack envelope =>
      simp only [MemoryQueue.call, ack]
      split
      · exact stamp_erase rfl job_id
      · rfl
  | renew envelope =>
      simp only [MemoryQueue.call, renew]
      split <;> rfl
  | retry envelope error =>
      by_cases hcap : envelope.attempt ≥ cfg.max_attempts
      · by_cases hinflight : queue.inflight.contains envelope.job_id
        · simp only [MemoryQueue.call, retry, dead_letter, if_pos hcap, if_pos hinflight]
          let updated := { envelope with retry_at := none, last_error := some error }
          exact @stamp_set queue _ envelope.job_id updated rfl rfl job_id
        · simp only [MemoryQueue.call, retry, dead_letter, if_pos hcap, if_neg hinflight]
          rfl
      · by_cases hinflight : queue.inflight.contains envelope.job_id
        · simp only [MemoryQueue.call, retry, if_neg hcap, if_pos hinflight]
          let updated := { envelope with
            retry_at := some (cfg.retry_at moment.now envelope), last_error := some error }
          exact @stamp_set queue _ envelope.job_id updated rfl rfl job_id
        · simp only [MemoryQueue.call, retry, if_neg hcap, if_neg hinflight]
          rfl
  | recover_stale set_order => exact recover_stale_stamp cfg moment.now queue job_id
  | dead_letters | dead_letter_count => rfl
  | remove_dead_letter envelope =>
      simp only [MemoryQueue.call, remove_dead_letter]
      split
      · exact stamp_erase rfl job_id
      · rfl

end MemoryQueue

namespace Redis

variable {cfg : Config} {redis redis' : Redis} {moment : Moment} {job_id : String}

theorem stamp_hset {other : String} {envelope : JobEnvelope}
    (h : redis'.envelopes = redis.envelopes.set other envelope.to_json)
    (hid : envelope.job_id = other) (job_id : String) : redis'.stamp job_id =
      (if job_id = other then some (some (job_id, envelope.retry_at)) else none).getD
        (redis.stamp job_id) := by
  rw [stamp_of_hset h, envelope.restamped hid]

theorem stamp_hdel {other : String} (h : redis'.envelopes = redis.envelopes.erase other)
    (job_id : String) : redis'.stamp job_id =
      (if job_id = other then some none else none).getD (redis.stamp job_id) := by
  unfold stamp stored
  rw [h, Dict.get?_erase]
  split <;> rfl

theorem stamp_congr (h : redis'.envelopes = redis.envelopes) (job_id : String) :
    redis'.stamp job_id = redis.stamp job_id := by
  rw [stamp, stored, h]
  rfl

theorem read_envelopes_run (ids : List String) (read : List JobEnvelope) (timed : Timed) :
    ((RedisQueue.read_envelopes ids read).run timed_exec timed).2 = timed := by
  induction ids generalizing read with
  | nil => rfl
  | cons job_id rest ih =>
      simp only [RedisQueue.read_envelopes, Program.call_bind, Program.ret_bind, Program.run_call,
        timed_exec, exec]
      split
      · exact ih read
      · unfold RedisQueue.decode
        split
        · exact ih _
        · rfl

theorem stamp_of_call {call : QueueCall}
    (hcall : ∀ set_order timeout, call ≠ .claim set_order timeout) (cfg : Config)
    (moment : Moment) (hwritten : redis.Written) (job_id : String) :
    (redis.call cfg moment call).2.stamp job_id =
      (restamp cfg moment job_id call (redis.call cfg moment call).1).getD
        (redis.stamp job_id) := by
  cases call with
  | enqueue other request principal_id tenant_id =>
      simp only [Redis.call, QueueCall.on_redis, Program.run_bind_ret, RedisQueue.enqueue]
      split
      · rfl
      · simp only [Program.call_bind, Program.ret_bind, Program.run_call, timed_exec, exec,
          Script.run]
        split
        · exact stamp_congr (tick_envelopes _) job_id
        · let envelope := new_envelope moment.now other request principal_id tenant_id
          exact @stamp_hset redis _ other envelope (by simp [envelope]) rfl job_id
  | claim set_order timeout => exact absurd rfl (hcall set_order timeout)
  | ack envelope =>
      simp only [Redis.call, QueueCall.on_redis, Program.run_bind_ret, RedisQueue.ack,
        Program.run_call, Program.run_ret, timed_exec, exec, Script.run]
      split
      · exact stamp_hdel rfl job_id
      · rfl
  | renew envelope =>
      simp only [Redis.call, QueueCall.on_redis, RedisQueue.renew, Program.call_bind,
        Program.ret_bind, Program.run_call, Program.run_ret, timed_exec, exec, Script.run]
      split <;> exact stamp_congr (tick_envelopes _) job_id
  | retry envelope error =>
      by_cases hcap : envelope.attempt ≥ cfg.max_attempts
      · simp only [Redis.call, QueueCall.on_redis, RedisQueue.retry, if_pos hcap,
          RedisQueue.dead_letter, Program.call_bind, Program.ret_bind, Program.run_call, timed_exec,
          exec, Script.run]
        split
        · let updated := { envelope with retry_at := none, last_error := some error }
          exact @stamp_hset redis _ envelope.job_id updated rfl rfl job_id
        · rfl
      · simp only [Redis.call, QueueCall.on_redis, RedisQueue.retry, if_neg hcap,
          Program.call_bind, Program.ret_bind, Program.run_call, timed_exec, exec, Script.run]
        split
        · let updated := { envelope with
            retry_at := some (cfg.retry_at moment.now envelope), last_error := some error }
          exact @stamp_hset redis _ envelope.job_id updated (by simp [updated]) rfl job_id
        · exact stamp_congr (tick_envelopes _) job_id
  | recover_stale set_order =>
      simp only [Redis.call, QueueCall.on_redis, Program.run_bind_ret]
      exact (recover_stale_stamps cfg set_order hwritten).stamp job_id
  | dead_letters =>
      simp only [Redis.call, QueueCall.on_redis, Program.run_bind_ret, RedisQueue.dead_letters,
        Program.call_bind, Program.ret_bind, Program.run_call, timed_exec, exec, read_envelopes_run]
      rfl
  | dead_letter_count => rfl
  | remove_dead_letter envelope =>
      simp only [Redis.call, QueueCall.on_redis, Program.run_bind_ret,
        RedisQueue.remove_dead_letter, Program.run_call, Program.run_ret, timed_exec, exec,
        Script.run]
      split
      · exact stamp_hdel rfl job_id
      · rfl

end Redis

-- What is listed is stored under one of the ids.
theorem MemoryQueue.mem_envelopes_of {queue : MemoryQueue} {ids : List String}
    {listed : List JobEnvelope} (h : queue.envelopes_of ids = .ok listed) :
    ∀ envelope ∈ listed, ∃ job_id ∈ ids, queue.envelopes.get? job_id = some envelope := by
  induction ids generalizing listed with
  | nil =>
      cases h
      exact fun envelope hmem => absurd hmem List.not_mem_nil
  | cons job_id rest ih =>
      unfold MemoryQueue.envelopes_of at h
      split at h
      · cases h
      · next stored hstored =>
        cases hrest : queue.envelopes_of rest with
        | error error =>
            rw [hrest] at h
            cases h
        | ok others =>
            rw [hrest] at h
            cases h
            intro envelope hmem
            rcases List.mem_cons.mp hmem with rfl | hmem
            · exact ⟨job_id, List.mem_cons_self, hstored⟩
            · obtain ⟨other, hother, hget⟩ := ih hrest envelope hmem
              exact ⟨other, List.mem_cons_of_mem _ hother, hget⟩

theorem Redis.mem_read_envelopes {redis : Redis} {later : List ℚ≥0} {ids : List String}
    {read listed : List JobEnvelope}
    (h : ((RedisQueue.read_envelopes ids read).run timed_exec (redis, later)).1 = .ok listed) :
    ∀ envelope ∈ listed, envelope ∈ read ∨ ∃ job_id ∈ ids, redis.stored job_id = some envelope := by
  induction ids generalizing read with
  | nil =>
      cases h
      exact fun envelope hmem => .inl hmem
  | cons job_id rest ih =>
      have hlater {read' : List JobEnvelope}
          (h : ((RedisQueue.read_envelopes rest read').run timed_exec (redis, later)).1 =
            .ok listed) (envelope : JobEnvelope) (hmem : envelope ∈ listed) :
          envelope ∈ read' ∨ ∃ other ∈ job_id :: rest, redis.stored other = some envelope := by
        rcases ih h envelope hmem with hread | ⟨other, hother, hstored⟩
        · exact .inl hread
        · exact .inr ⟨other, List.mem_cons_of_mem _ hother, hstored⟩
      simp only [RedisQueue.read_envelopes, Program.call_bind, Program.ret_bind, Program.run_call,
        timed_exec, exec] at h
      split at h
      · exact hlater h
      · next raw hraw =>
        unfold RedisQueue.decode at h
        split at h
        · next stored hdecoded =>
          intro envelope hmem
          rcases hlater h envelope hmem with hread | hrest
          · rcases List.mem_append.mp hread with hread | hread
            · exact .inl hread
            · rw [List.mem_singleton.mp hread]
              refine .inr ⟨job_id, List.mem_cons_self, ?_⟩
              rw [Redis.stored, hraw, Option.bind_some, hdecoded]
              rfl
          · exact .inr hrest
        · cases h

namespace Backend

-- The envelope that the queue holds for a job.
def stored : Backend → String → Option JobEnvelope
  | memory queue, job_id => queue.envelopes.get? job_id
  | redis server, job_id => server.stored job_id

def stamp (backend : Backend) (job_id : String) : Option (String × Option ℚ) :=
  (backend.stored job_id).map JobEnvelope.stamp

variable {cfg : Config} {backend : Backend} {table : JobTable} {moment : Moment}
  {call : QueueCall} {job_id : String}

theorem Refines.stamp_of_call (h : backend.Refines table)
    (hcall : ∀ set_order timeout, call ≠ .claim set_order timeout) (cfg : Config)
    (moment : Moment) (job_id : String) : (backend.call cfg moment call).2.stamp job_id =
      (restamp cfg moment job_id call (backend.call cfg moment call).1).getD
        (backend.stamp job_id) := by
  cases backend with
  | memory queue => exact MemoryQueue.stamp_of_call hcall cfg moment queue job_id
  | redis server =>
      exact Redis.stamp_of_call hcall cfg moment (Redis.Refines.written h) job_id

-- Every dead letter is stored, under the id of a job that is dead.
theorem Refines.listed (h : backend.Refines table) {listed : List JobEnvelope}
    (hlisted : (backend.call cfg moment .dead_letters).1 = .ok (.envelopes listed)) :
    ∀ envelope ∈ listed, ∃ job_id, (table.jobs job_id).is_dead = true ∧
      backend.stored job_id = some envelope := by
  intro envelope hmem
  cases backend with
  | memory queue =>
      simp only [Backend.call, MemoryQueue.call, MemoryQueue.dead_letters, Prod.map] at hlisted
      cases hread : queue.envelopes_of queue.dead with
      | error error =>
          rw [hread] at hlisted
          cases hlisted
      | ok read =>
          rw [hread] at hlisted
          cases hlisted
          obtain ⟨job_id, hdead, hstored⟩ :=
            MemoryQueue.mem_envelopes_of hread envelope hmem
          rw [MemoryQueue.Refines.dead h] at hdead
          exact ⟨job_id, (table.mem_dead job_id).mp hdead, hstored⟩
  | redis server =>
      simp only [Backend.call, Redis.call, QueueCall.on_redis, Program.run_bind_ret,
        RedisQueue.dead_letters, Program.call_bind, Program.ret_bind, Program.run_call,
        Redis.timed_exec, Redis.exec, Prod.map] at hlisted
      cases hread : ((RedisQueue.read_envelopes (server.lists .dead) []).run Redis.timed_exec
          ({ server with now := moment.now }, moment.later)).1 with
      | error error =>
          rw [hread] at hlisted
          cases hlisted
      | ok read =>
          rw [hread] at hlisted
          cases hlisted
          rcases Redis.mem_read_envelopes hread envelope hmem with hnil | ⟨job_id, hdead, hstored⟩
          · exact absurd hnil List.not_mem_nil
          · rw [Redis.Refines.dead h, List.mem_reverse] at hdead
            exact ⟨job_id, (table.mem_dead job_id).mp hdead, hstored⟩

end Backend

end ResearchAgent.JobQueue
