import ResearchAgent.JobQueue.Lifecycle
import ResearchAgent.JobQueue.Redis

namespace ResearchAgent.JobQueue

open Library JobTable

namespace Redis

-- What the hash holds for a job.
def Stored (job_id : String) (raw : Option JSONValue) : Option JobEnvelope → Prop
  | none => raw = none
  | some envelope => ∃ stored : JobEnvelope,
      raw = some stored.to_json ∧ stored.delivered = envelope ∧ stored.job_id = job_id

structure Refines (redis : Redis) (table : JobTable) : Prop where
  ready : redis.lists .ready = table.ready.reverse
  dead : redis.lists .dead = table.dead.reverse
  inflight : ∀ job_id,
    (redis.lists .inflight).count job_id = (table.jobs job_id).lease.isSome.toNat
  lease : ∀ job_id, (redis.zsets .leases).get? job_id = (table.jobs job_id).lease
  due : ∀ job_id, (redis.zsets .scheduled).get? job_id = (table.jobs job_id).due
  envelope : ∀ job_id,
    Stored job_id (redis.envelopes.get? job_id) (table.jobs job_id).envelope
  known : ∀ job_id, redis.known.get? job_id = table.known job_id

variable {cfg : Config} {redis redis' : Redis} {table : JobTable} {job_id : String}

theorem refines_empty (now : ℚ≥0) : (empty now).Refines JobTable.empty where
  ready := rfl
  dead := rfl
  inflight _ := rfl
  lease _ := rfl
  due _ := rfl
  envelope _ := rfl
  known _ := rfl

theorem reverse_rejoin {ids : List String} (h : job_id ∉ ids) (joins : Bool) :
    (rejoin job_id joins ids).reverse = if joins then job_id :: ids.reverse else ids.reverse := by
  rw [rejoin_of_not_mem h]
  cases joins <;> simp

section Clock

variable {clock : ℚ≥0 → Prop}

-- All readings of the clock from here on are among those of `clock`.
def Reads (clock : ℚ≥0 → Prop) (timed : Timed) : Prop :=
  clock timed.1.now ∧ ∀ time ∈ timed.2, clock time

theorem exec_now (redis : Redis) (command : Command) :
    (redis.exec command).2.now = redis.now := by
  cases command with
  | eval script => cases script <;> simp only [exec, Script.run] <;> split <;> rfl
  | brpoplpush source destination =>
      simp only [exec]
      split <;> rfl
  | _ => rfl

theorem Reads.tick {timed : Timed} (h : Reads clock timed) : Reads clock (tick timed) := by
  rcases timed with ⟨redis, _ | ⟨now, later⟩⟩
  · exact h
  · exact ⟨h.2 now (by simp), fun time ht => h.2 time (List.mem_cons_of_mem _ ht)⟩

theorem Reads.exec {timed : Timed} (h : Reads clock timed) (command : Command) :
    Reads clock (timed_exec timed command).2 := by
  have hother : Reads clock ((timed.1.exec command).2, timed.2) := by
    refine ⟨?_, h.2⟩
    rw [exec_now]
    exact h.1
  cases command with
  | clock => exact h.tick
  | _ => exact hother

theorem Reads.run {α : Type} {timed : Timed} (h : Reads clock timed) (program : QueueProgram α) :
    Reads clock (program.run timed_exec timed).2 := by
  induction program generalizing timed with
  | ret | raise => exact h
  | call command next ih => exact ih _ (h.exec command)

theorem tick_now (now : ℚ≥0) (later : List ℚ≥0) :
    (tick ({ redis with now }, later)).1.now = later.headD now := by
  cases later <;> rfl

@[simp] theorem tick_lists (timed : Timed) : (tick timed).1.lists = timed.1.lists := by
  rcases timed with ⟨redis, _ | _⟩ <;> rfl

@[simp] theorem tick_zsets (timed : Timed) : (tick timed).1.zsets = timed.1.zsets := by
  rcases timed with ⟨redis, _ | _⟩ <;> rfl

@[simp] theorem tick_envelopes (timed : Timed) :
    (tick timed).1.envelopes = timed.1.envelopes := by
  rcases timed with ⟨redis, _ | _⟩ <;> rfl

@[simp] theorem tick_known (timed : Timed) : (tick timed).1.known = timed.1.known := by
  rcases timed with ⟨redis, _ | _⟩ <;> rfl

end Clock

namespace Refines

-- Nothing but the clock is different.
theorem congr (h : redis.Refines table) (hlists : redis'.lists = redis.lists)
    (hzsets : redis'.zsets = redis.zsets) (henvelopes : redis'.envelopes = redis.envelopes)
    (hknown : redis'.known = redis.known) : redis'.Refines table where
  ready := by rw [hlists, h.ready]
  dead := by rw [hlists, h.dead]
  inflight other := by rw [hlists, h.inflight]
  lease other := by rw [hzsets, h.lease]
  due other := by rw [hzsets, h.due]
  envelope other := by
    rw [henvelopes]
    exact h.envelope other
  known other := by rw [hknown, h.known]

theorem tick {timed : Timed} (h : timed.1.Refines table) : (tick timed).1.Refines table :=
  h.congr (tick_lists timed) (tick_zsets timed) (tick_envelopes timed) (tick_known timed)

theorem mem_inflight (h : redis.Refines table) (job_id : String) :
    job_id ∈ redis.lists .inflight ↔ (table.jobs job_id).lease.isSome := by
  rw [← List.count_pos_iff, h.inflight]
  cases (table.jobs job_id).lease <;> simp

theorem stored (h : redis.Refines table) (job_id : String) {envelope : JobEnvelope}
    (hj : (table.jobs job_id).envelope = some envelope) :
    ∃ stored : JobEnvelope, redis.envelopes.get? job_id = some stored.to_json ∧
      stored.delivered = envelope ∧ stored.job_id = job_id := by
  have hs := h.envelope job_id
  rwa [hj] at hs

-- The server changes for one job as the table does.
theorem put (h : redis.Refines table) {state : JobState}
    (hready : redis'.lists .ready = (rejoin job_id state.is_ready table.ready).reverse)
    (hdead : redis'.lists .dead = (rejoin job_id state.is_dead table.dead).reverse)
    (hinflight : ∀ other, (redis'.lists .inflight).count other =
      if other = job_id then state.lease.isSome.toNat else (redis.lists .inflight).count other)
    (hlease : ∀ other, (redis'.zsets .leases).get? other =
      if other = job_id then state.lease else (redis.zsets .leases).get? other)
    (hdue : ∀ other, (redis'.zsets .scheduled).get? other =
      if other = job_id then state.due else (redis.zsets .scheduled).get? other)
    (raw : Option JSONValue) (henvelope : ∀ other, redis'.envelopes.get? other =
      if other = job_id then raw else redis.envelopes.get? other)
    (hstored : Stored job_id raw state.envelope) (hknown : redis'.known = redis.known) :
    redis'.Refines (table.put job_id state) where
  ready := hready
  dead := hdead
  inflight other := by
    rw [hinflight, put_jobs, h.inflight]
    split <;> rfl
  lease other := by
    rw [hlease, put_jobs, h.lease]
    split <;> rfl
  due other := by
    rw [hdue, put_jobs, h.due]
    split <;> rfl
  envelope other := by
    rw [henvelope, put_jobs]
    split
    · next ho => rwa [ho]
    · exact h.envelope other
  known other := by rw [hknown, h.known, put_known]

-- A job in flight is there once.
theorem count_erase (h : redis.Refines table) {envelope : JobEnvelope} {lease_until : ℚ}
    (hj : table.jobs job_id = .inflight envelope lease_until) (other : String) :
    ((redis.lists .inflight).erase job_id).count other =
      if other = job_id then 0 else (redis.lists .inflight).count other := by
  split
  · next ho =>
      subst ho
      rw [List.count_erase_self, h.inflight, hj]
      rfl
  · next ho => exact List.count_erase_of_ne ho

theorem recover_one (h : redis.Refines table) (cfg : Config) {stored : JobEnvelope}
    {lease_until : ℚ}
    (hid : stored.job_id = job_id)
    (hj : table.jobs job_id = .inflight stored.delivered lease_until) (later : List ℚ≥0) :
    ∃ redis', (RedisQueue.recover_one_redis cfg stored).run timed_exec (redis, later) =
        (.ok true, (redis', later)) ∧ redis'.Refines (table.recover cfg job_id) := by
  subst hid
  have hready := not_mem_ready table stored.job_id (by rw [hj]; rfl)
  have hdead := not_mem_dead table stored.job_id (by rw [hj]; rfl)
  have hmem : stored.job_id ∈ redis.lists .inflight := by rw [h.mem_inflight, hj]; rfl
  have hdue : (redis.zsets .scheduled).get? stored.job_id = none := by rw [h.due, hj]; rfl
  simp only [RedisQueue.recover_one_redis, JobTable.recover, hj, Program.run_call,
    Program.run_ret, timed_exec, exec, Script.run, if_pos hmem]
  by_cases hcap : stored.attempt ≥ cfg.max_attempts
  · rw [if_pos hcap, JobState.recovered_capped (show stored.delivered.attempt ≥ _ from hcap)]
    refine ⟨_, rfl, h.put ?_ ?_ ?_ ?_ ?_ _ ?_
      ⟨{ stored with last_error := some "lease expired" }, rfl, rfl, rfl⟩ rfl⟩
    · simp [reverse_rejoin hready, h.ready]
    · simp [reverse_rejoin hdead, h.dead]
    · simpa using h.count_erase hj
    · simp
    · simpa using Dict.get?_eq_ite hdue
    · simp
  · rw [if_neg hcap, JobState.recovered_uncapped (show ¬stored.delivered.attempt ≥ _ from hcap)]
    refine ⟨_, rfl, h.put ?_ ?_ ?_ ?_ ?_ _ ?_
      ⟨{ stored with last_error := some "lease expired" }, rfl, rfl, rfl⟩ rfl⟩
    · simp [reverse_rejoin hready, h.ready]
    · simp [reverse_rejoin hdead, h.dead]
    · simpa using h.count_erase hj
    · simp
    · simpa using Dict.get?_eq_ite hdue
    · simp

theorem nodup_zrangebyscore (redis : Redis) (key : ZSetKey) (maximum : ℚ≥0) :
    (redis.zrangebyscore key maximum).Nodup := by
  unfold Redis.zrangebyscore
  refine ((List.perm_insertionSort _ _).map Prod.fst).nodup_iff.mpr ?_
  exact Dict.nodup_keysWhere (redis.zsets key) fun score => score ≤ (maximum : ℚ)

theorem mem_zrangebyscore (redis : Redis) (key : ZSetKey) (maximum : ℚ≥0) (job_id : String) :
    job_id ∈ redis.zrangebyscore key maximum ↔
      ∃ score ∈ (redis.zsets key).get? job_id, score ≤ (maximum : ℚ) := by
  unfold Redis.zrangebyscore
  rw [((List.perm_insertionSort _ _).map Prod.fst).mem_iff]
  refine (Dict.mem_keysWhere (redis.zsets key) (fun score => score ≤ (maximum : ℚ)) job_id).trans ?_
  simp

theorem expired (h : redis.Refines table) (now : ℚ≥0) :
    Expired now table (redis.zrangebyscore .leases now) where
  nodup := nodup_zrangebyscore redis .leases now
  mem job_id := by rw [mem_zrangebyscore, h.lease]

theorem due_now (h : redis.Refines table) (now : ℚ≥0) :
    Due now table (redis.zrangebyscore .scheduled now) where
  nodup := nodup_zrangebyscore redis .scheduled now
  mem job_id := by rw [mem_zrangebyscore, h.due]

-- Between two calls every job in flight has its lease.
theorem missing_leases (h : redis.Refines table) (later : List ℚ≥0) {ids : List String}
    (hids : ∀ job_id ∈ ids, job_id ∈ redis.lists .inflight) (expired : List String) :
    (RedisQueue.missing_leases ids expired).run timed_exec (redis, later) =
      (.ok expired, (redis, later)) := by
  induction ids with
  | nil => rfl
  | cons job_id rest ih =>
      have hmem := (h.mem_inflight job_id).mp (hids job_id (by simp))
      rw [← h.lease] at hmem
      obtain ⟨score, hscore⟩ := Option.isSome_iff_exists.mp hmem
      simp only [RedisQueue.missing_leases, Program.call_bind, Program.ret_bind, Program.run_call,
        timed_exec, exec, hscore]
      exact ih fun other ho => hids other (by simp [ho])

theorem recover_expired (h : redis.Refines table) (cfg : Config) (later : List ℚ≥0)
    {ids : List String}
    (hnodup : ids.Nodup) (hids : ∀ job_id ∈ ids, (table.jobs job_id).lease.isSome)
    (recovered : ℕ) :
    ∃ redis', (RedisQueue.recover_expired cfg ids recovered).run timed_exec (redis, later) =
        (.ok (recovered + ids.length), (redis', later)) ∧
      redis'.Refines (table.recover_all cfg ids) := by
  induction ids generalizing redis table recovered with
  | nil => exact ⟨redis, rfl, h⟩
  | cons job_id rest ih =>
      obtain ⟨hnot, hrest⟩ := List.nodup_cons.mp hnodup
      obtain ⟨lease_until, hlease⟩ := Option.isSome_iff_exists.mp (hids job_id (by simp))
      obtain ⟨envelope, hj⟩ := inflight_of_lease hlease
      obtain ⟨stored, hs, rfl, hid⟩ := h.stored job_id (by rw [hj]; rfl)
      obtain ⟨next, hone, hnext⟩ := h.recover_one cfg hid hj later
      obtain ⟨redis', hall, hr⟩ := ih hnext hrest (fun other ho => by
        rw [recover_jobs_ne cfg table (ne_of_mem_of_not_mem ho hnot)]
        exact hids other (by simp [ho])) (recovered + 1)
      refine ⟨redis', ?_, hr⟩
      simp only [RedisQueue.recover_expired, Program.call_bind, Program.ret_bind,
        Program.run_call, timed_exec, exec, hs, RedisQueue.decode_to_json]
      rw [Program.run_bind_ok timed_exec hone]
      simp only [ite_true, hall, List.length_cons]
      rw [Nat.add_assoc, Nat.add_comm 1]

theorem recover_stale {timed : Timed} (h : timed.1.Refines table) (cfg : Config)
    (set_order : SetOrder) :
    ∃ ids timed', (RedisQueue.recover_stale cfg set_order).run timed_exec timed =
        (.ok ids.length, timed') ∧
      Expired timed.1.now table ids ∧ timed'.1.Refines (table.recover_all cfg ids) := by
  have he := h.expired timed.1.now
  have hperm := set_order.perm (timed.1.zrangebyscore .leases timed.1.now)
  have horder : Expired timed.1.now table
      (set_order.order (timed.1.zrangebyscore .leases timed.1.now)) :=
    ⟨hperm.nodup_iff.mpr he.nodup, fun job_id => hperm.mem_iff.trans (he.mem job_id)⟩
  obtain ⟨redis', hall, hr⟩ := h.tick.recover_expired cfg (Redis.tick timed).2 horder.nodup
    (fun job_id hm => by
      obtain ⟨lease_until, hlease, -⟩ := (horder.mem job_id).mp hm
      exact Option.isSome_iff_exists.mpr ⟨lease_until, hlease⟩) 0
  refine ⟨_, (redis', (Redis.tick timed).2), ?_, horder, hr⟩
  have hsame : (Redis.tick timed).1.zrangebyscore .leases timed.1.now =
      timed.1.zrangebyscore .leases timed.1.now := by
    unfold Redis.zrangebyscore
    rw [tick_zsets]
  simp only [RedisQueue.recover_stale, Program.call_bind, Program.ret_bind, Program.run_call,
    timed_exec, exec, hsame]
  rw [Program.run_bind_ok timed_exec (h.tick.missing_leases _ (fun _ hm => hm) _), hall,
    Nat.zero_add]

theorem promote_one (h : redis.Refines table) {envelope : JobEnvelope} {due_at : ℚ}
    (hj : table.jobs job_id = .scheduled envelope due_at) :
    ((redis.zrem .scheduled job_id).lpush .ready job_id).Refines (table.promote job_id) := by
  obtain ⟨stored, hs, hd, hid⟩ := h.stored job_id (by rw [hj]; rfl)
  have hready := not_mem_ready table job_id (by rw [hj]; rfl)
  have hdead := not_mem_dead table job_id (by rw [hj]; rfl)
  have hlease : (redis.zsets .leases).get? job_id = none := by rw [h.lease, hj]; rfl
  have hinflight : (redis.lists .inflight).count job_id = 0 := by rw [h.inflight, hj]; rfl
  simp only [JobTable.promote, hj]
  refine h.put ?_ ?_ ?_ ?_ ?_ _ (Dict.get?_eq_ite hs) ⟨stored, rfl, hd, hid⟩ rfl
  · simp [reverse_rejoin hready, h.ready]
  · simp [reverse_rejoin hdead, h.dead]
  · intro other
    split
    · next ho => simpa [ho] using hinflight
    · simp
  · simpa using Dict.get?_eq_ite hlease
  · simp

theorem promote_each (h : redis.Refines table) (later : List ℚ≥0) {ids : List String}
    (hnodup : ids.Nodup) (hids : ∀ job_id ∈ ids, (table.jobs job_id).due.isSome) :
    ∃ redis', (RedisQueue.promote_each ids).run timed_exec (redis, later) =
        (.ok (), (redis', later)) ∧ redis'.Refines (table.promote_all ids) := by
  induction ids generalizing redis table with
  | nil => exact ⟨redis, rfl, h⟩
  | cons job_id rest ih =>
      obtain ⟨hnot, hrest⟩ := List.nodup_cons.mp hnodup
      have hdue := hids job_id (by simp)
      obtain ⟨due_at, hd⟩ := Option.isSome_iff_exists.mp hdue
      obtain ⟨envelope, hj⟩ := scheduled_of_due hd
      obtain ⟨redis', hall, hr⟩ := ih (h.promote_one hj) hrest (fun other ho => by
        rw [promote_jobs_ne table (ne_of_mem_of_not_mem ho hnot)]
        exact hids other (by simp [ho]))
      have hcontains : (redis.zsets .scheduled).contains job_id := by
        rwa [Dict.contains, h.due]
      refine ⟨redis', ?_, hr⟩
      simp only [RedisQueue.promote_each, Program.call_bind, Program.ret_bind, Program.run_call,
        timed_exec, exec, Script.run, if_pos hcontains]
      exact hall

theorem promote_due {timed : Timed} (h : timed.1.Refines table) :
    ∃ ids timed', RedisQueue.promote_due.run timed_exec timed = (.ok (), timed') ∧
      Due timed.1.now table ids ∧ timed'.1.Refines (table.promote_all ids) := by
  have hd := h.tick.due_now timed.1.now
  obtain ⟨redis', hall, hr⟩ := h.tick.promote_each (Redis.tick timed).2 hd.nodup
    (fun job_id hm => by
      obtain ⟨due_at, hdue, -⟩ := (hd.mem job_id).mp hm
      exact Option.isSome_iff_exists.mpr ⟨due_at, hdue⟩)
  exact ⟨_, _, hall, hd, hr⟩

-- The five commands of a claim after promotion, one after another.
theorem pop_ready {timed : Timed} (h : timed.1.Refines table) (cfg : Config) {clock : ℚ≥0 → Prop}
    (hreads : Reads clock timed) :
    ∃ reply timed' now, clock now ∧
      (RedisQueue.pop_ready cfg).run timed_exec timed = (.ok reply, timed') ∧
      reply.map JobEnvelope.delivered = (table.pop cfg now).1 ∧
      timed'.1.Refines (table.pop cfg now).2 := by
  rcases timed with ⟨redis, later⟩
  change redis.Refines table at h
  cases hready : table.ready with
  | nil =>
      have hlast : (redis.lists .ready).getLast? = none := by rw [h.ready, hready]; rfl
      refine ⟨none, (redis, later), redis.now, hreads.1, ?_, ?_⟩
      · simp only [RedisQueue.pop_ready, Program.call_bind, Program.ret_bind, Program.run_call,
          timed_exec, exec, hlast]
        rfl
      · rw [pop_of_empty cfg redis.now hready]
        exact ⟨rfl, h⟩
  | cons job_id rest =>
      obtain ⟨envelope, hj⟩ := ready_of_is_ready ((table.mem_ready job_id).mp (by simp [hready]))
      obtain ⟨stored, hs, rfl, rfl⟩ := h.stored job_id (by rw [hj]; rfl)
      have hdead := not_mem_dead table stored.job_id (by rw [hj]; rfl)
      have hdue : (redis.zsets .scheduled).get? stored.job_id = none := by rw [h.due, hj]; rfl
      have hinflight : (redis.lists .inflight).count stored.job_id = 0 := by
        rw [h.inflight, hj]; rfl
      have hlast : (redis.lists .ready).getLast? = some stored.job_id := by
        rw [h.ready, hready]
        simp
      have hhead := rejoin_head (hready ▸ table.ready_nodup)
      have hpop : ∀ now, table.pop cfg now =
          (some { stored.delivered with attempt := stored.attempt + 1 },
            table.put stored.job_id (.inflight
              { stored.delivered with attempt := stored.attempt + 1 } (cfg.lease_until now))) := by
        intro now
        exact pop_of_ready cfg now hready hj
      let claimed : JobEnvelope := { stored with attempt := stored.attempt + 1, retry_at := none }
      let popped : Redis :=
        ((redis.rpop .ready).lpush .inflight stored.job_id).hset stored.job_id claimed.to_json
      refine ⟨some claimed, ((Redis.tick (popped, later)).1.zadd .leases stored.job_id
        (cfg.lease_until redis.now), (Redis.tick (popped, later)).2), redis.now, hreads.1, ?_, ?_⟩
      · simp only [RedisQueue.pop_ready, Program.call_bind, Program.ret_bind, Program.run_call,
          timed_exec, exec, hlast, RedisQueue.lease_claimed, lpush_envelopes, rpop_envelopes, hs,
          RedisQueue.decode_to_json, RedisQueue.set_lease]
        rfl
      · rw [hpop]
        refine ⟨rfl, h.put ?_ ?_ ?_ ?_ ?_ (some claimed.to_json) ?_ ⟨claimed, rfl, rfl, rfl⟩ ?_⟩
        · simp [popped, h.ready, hready, hhead]
        · simp [popped, reverse_rejoin hdead, h.dead]
        · intro other
          by_cases ho : other = stored.job_id
          · simp [popped, ho, hinflight]
          · simp [popped, ho, List.count_cons_of_ne (Ne.symm ho)]
        · simp [popped]
        · simpa [popped] using Dict.get?_eq_ite hdue
        · simp [popped]
        · simp [popped]

theorem claim {timed : Timed} (h : timed.1.Refines table) {clock : ℚ≥0 → Prop}
    (hreads : Reads clock timed) (set_order : SetOrder) (timeout : ℚ) :
    ∃ reply table', Answers cfg clock table (.claim set_order timeout) reply table' ∧
      SameAnswer (((RedisQueue.claim cfg set_order timeout).run timed_exec timed).1.map .claimed)
        reply ∧
      ((RedisQueue.claim cfg set_order timeout).run timed_exec timed).2.1.Refines table' := by
  unfold RedisQueue.claim
  by_cases htimeout : timeout ≤ 0
  · simp only [htimeout, ite_true]
    exact ⟨_, table, .claim_timeout htimeout, .of_eq rfl, h⟩
  obtain ⟨ids, recovered, hstale, hexpired, hrecovered⟩ :=
    h.recover_stale cfg set_order
  have hreads' := hreads.run (RedisQueue.recover_stale cfg set_order)
  rw [hstale] at hreads'
  obtain ⟨due, promoted, hpromote, hdue, hpromoted⟩ := hrecovered.promote_due
  have hreads'' := hreads'.run RedisQueue.promote_due
  rw [hpromote] at hreads''
  obtain ⟨reply, timed', now, hnow, hpop, hsame, hr⟩ := hpromoted.pop_ready cfg hreads''
  refine ⟨_, _, .claim (lt_of_not_ge htimeout) hreads.1 hexpired (.last hreads'.1 hdue) hnow,
    ?_⟩
  rw [if_neg htimeout, Program.run_bind_ok timed_exec hstale,
    Program.run_bind_ok timed_exec hpromote, hpop]
  refine ⟨?_, hr⟩
  simp only [Except.map, SameAnswer, QueueReply.Same, ← hsame, Option.map_map]
  cases reply <;> rfl

theorem ack {timed : Timed} (h : timed.1.Refines table) (envelope : JobEnvelope) :
    ((RedisQueue.ack envelope).run timed_exec timed).1 = .ok (table.ack envelope.job_id).1 ∧
      ((RedisQueue.ack envelope).run timed_exec timed).2.1.Refines
        (table.ack envelope.job_id).2 := by
  have hmem := h.mem_inflight envelope.job_id
  simp only [RedisQueue.ack, Program.run_call, Program.run_ret, timed_exec, exec, Script.run,
    JobTable.ack]
  cases hj : table.jobs envelope.job_id with
  | absent | ready | scheduled | dead =>
      rw [if_neg (by simp [hmem, hj])]
      exact ⟨rfl, h⟩
  | inflight current lease_until =>
      rw [if_pos (by simp [hmem, hj])]
      have hready := not_mem_ready table envelope.job_id (by rw [hj]; rfl)
      have hdead := not_mem_dead table envelope.job_id (by rw [hj]; rfl)
      have hdue : (timed.1.zsets .scheduled).get? envelope.job_id = none := by rw [h.due, hj]; rfl
      refine ⟨rfl, h.put ?_ ?_ ?_ ?_ ?_ none ?_ rfl rfl⟩
      · simp [reverse_rejoin hready, h.ready]
      · simp [reverse_rejoin hdead, h.dead]
      · simpa using h.count_erase hj
      · simp
      · simpa using Dict.get?_eq_ite hdue
      · simp

theorem renew {timed : Timed} (h : timed.1.Refines table) (cfg : Config) (envelope : JobEnvelope) :
    ((RedisQueue.renew cfg envelope).run timed_exec timed).1 =
        .ok (table.renew cfg timed.1.now envelope.job_id).1 ∧
      ((RedisQueue.renew cfg envelope).run timed_exec timed).2.1.Refines
        (table.renew cfg timed.1.now envelope.job_id).2 := by
  have hlease := h.lease envelope.job_id
  simp only [RedisQueue.renew, Program.call_bind, Program.ret_bind, Program.run_call,
    Program.run_ret, timed_exec, exec, Script.run, tick_zsets, Dict.contains, hlease,
    JobTable.renew]
  cases hj : table.jobs envelope.job_id with
  | absent | ready | scheduled | dead => exact ⟨rfl, h.tick⟩
  | inflight current lease_until =>
      obtain ⟨stored, hs, hd, hid⟩ := h.stored envelope.job_id (by rw [hj]; rfl)
      have hready := not_mem_ready table envelope.job_id (by rw [hj]; rfl)
      have hdead := not_mem_dead table envelope.job_id (by rw [hj]; rfl)
      have hdue : (timed.1.zsets .scheduled).get? envelope.job_id = none := by rw [h.due, hj]; rfl
      have hinflight : (timed.1.lists .inflight).count envelope.job_id = 1 := by
        rw [h.inflight, hj]; rfl
      refine ⟨rfl, h.put ?_ ?_ ?_ ?_ ?_ _ ?_ ⟨stored, rfl, hd, hid⟩ ?_⟩
      · simp [reverse_rejoin hready, h.ready]
      · simp [reverse_rejoin hdead, h.dead]
      · intro other
        by_cases ho : other = envelope.job_id
        · simpa [ho] using hinflight
        · simp [ho]
      · simp
      · simpa using Dict.get?_eq_ite hdue
      · simpa using Dict.get?_eq_ite hs
      · simp

theorem retry_lost {timed : Timed} (h : timed.1.Refines table) (envelope : JobEnvelope)
    (error : String) (hm : envelope.job_id ∉ timed.1.lists .inflight) :
    ((RedisQueue.retry cfg envelope error).run timed_exec timed).1 =
        .error (not_inflight envelope.job_id) ∧
      ((RedisQueue.retry cfg envelope error).run timed_exec timed).2.1.Refines table := by
  unfold RedisQueue.retry
  by_cases hcap : envelope.attempt ≥ cfg.max_attempts
  · simp only [if_pos hcap, RedisQueue.dead_letter, Program.call_bind, Program.ret_bind,
      Program.run_call, timed_exec, exec, Script.run, if_neg hm]
    exact ⟨rfl, h⟩
  · simp only [if_neg hcap, Program.call_bind, Program.ret_bind, Program.run_call, timed_exec,
      exec, Script.run, tick_lists, if_neg hm]
    exact ⟨rfl, h.tick⟩

theorem retry {timed : Timed} (h : timed.1.Refines table) (cfg : Config) (envelope : JobEnvelope)
    (error : String) :
    ((RedisQueue.retry cfg envelope error).run timed_exec timed).1 =
        (table.retry cfg timed.1.now envelope.delivered error).1 ∧
      ((RedisQueue.retry cfg envelope error).run timed_exec timed).2.1.Refines
        (table.retry cfg timed.1.now envelope.delivered error).2 := by
  have hmem := h.mem_inflight envelope.job_id
  simp only [JobTable.retry, JobEnvelope.delivered_job_id]
  cases hj : table.jobs envelope.job_id with
  | absent | ready | scheduled | dead => exact h.retry_lost envelope error (by simp [hmem, hj])
  | inflight current lease_until =>
      have hm : envelope.job_id ∈ timed.1.lists .inflight := by simp [hmem, hj]
      have hready := not_mem_ready table envelope.job_id (by rw [hj]; rfl)
      have hdead := not_mem_dead table envelope.job_id (by rw [hj]; rfl)
      have hdue : (timed.1.zsets .scheduled).get? envelope.job_id = none := by rw [h.due, hj]; rfl
      unfold RedisQueue.retry
      by_cases hcap : envelope.attempt ≥ cfg.max_attempts
      · have hcap' : envelope.delivered.attempt ≥ cfg.max_attempts := hcap
        simp only [if_pos hcap, if_pos hcap', RedisQueue.dead_letter, Program.call_bind,
          Program.ret_bind, Program.run_call, timed_exec, exec, Script.run, if_pos hm, if_true]
        refine ⟨rfl, h.put ?_ ?_ ?_ ?_ ?_ _ ?_
          ⟨{ envelope with retry_at := none, last_error := some error }, rfl, rfl, rfl⟩ rfl⟩
        · simp [reverse_rejoin hready, h.ready]
        · simp [reverse_rejoin hdead, h.dead]
        · simpa using h.count_erase hj
        · simp
        · simpa using Dict.get?_eq_ite hdue
        · simp
      · have hcap' : ¬envelope.delivered.attempt ≥ cfg.max_attempts := hcap
        simp only [if_neg hcap, if_neg hcap', Program.call_bind, Program.ret_bind,
          Program.run_call, timed_exec, exec, Script.run, tick_lists, if_pos hm, if_true]
        refine ⟨rfl, h.put ?_ ?_ ?_ ?_ ?_ _ ?_ ⟨{ envelope with
          retry_at := some (cfg.retry_at timed.1.now envelope), last_error := some error },
          rfl, rfl, rfl⟩ ?_⟩
        · simp [reverse_rejoin hready, h.ready]
        · simp [reverse_rejoin hdead, h.dead]
        · simpa using h.count_erase hj
        · simp
        · simp
        · simp
        · simp

theorem remove_dead_letter {timed : Timed} (h : timed.1.Refines table) (envelope : JobEnvelope) :
    ((RedisQueue.remove_dead_letter envelope).run timed_exec timed).1 =
        .ok (table.remove_dead_letter envelope.job_id).1 ∧
      ((RedisQueue.remove_dead_letter envelope).run timed_exec timed).2.1.Refines
        (table.remove_dead_letter envelope.job_id).2 := by
  have hmem : envelope.job_id ∈ timed.1.lists .dead ↔ (table.jobs envelope.job_id).is_dead := by
    rw [h.dead, List.mem_reverse, table.mem_dead]
  simp only [RedisQueue.remove_dead_letter, Program.run_call, Program.run_ret, timed_exec, exec,
    Script.run, JobTable.remove_dead_letter]
  cases hj : table.jobs envelope.job_id with
  | absent | ready | scheduled | inflight =>
      rw [if_neg (by simp [hmem, hj])]
      exact ⟨rfl, h⟩
  | dead current =>
      rw [if_pos (by simp [hmem, hj])]
      have hready := not_mem_ready table envelope.job_id (by rw [hj]; rfl)
      have hlease : (timed.1.zsets .leases).get? envelope.job_id = none := by
        rw [h.lease, hj]; rfl
      have hdue : (timed.1.zsets .scheduled).get? envelope.job_id = none := by rw [h.due, hj]; rfl
      have hinflight : (timed.1.lists .inflight).count envelope.job_id = 0 := by
        rw [h.inflight, hj]; rfl
      have hnodup := List.nodup_reverse.mpr table.dead_nodup
      refine ⟨rfl, h.put ?_ ?_ ?_ ?_ ?_ none ?_ rfl rfl⟩
      · simp [reverse_rejoin hready, h.ready]
      · simp [h.dead, rejoin, hnodup.erase_eq_filter, bne, beq_eq_decide, List.filter_reverse]
      · intro other
        split
        · next ho => simpa [ho] using hinflight
        · simp
      · simpa using Dict.get?_eq_ite hlease
      · simpa using Dict.get?_eq_ite hdue
      · simp

theorem read_envelopes (h : redis.Refines table) (later : List ℚ≥0) {ids : List String}
    (hids : ∀ job_id ∈ ids, (table.jobs job_id).is_dead) (result : List JobEnvelope) :
    ∃ envelopes, (RedisQueue.read_envelopes ids result).run timed_exec (redis, later) =
        (.ok (result ++ envelopes), (redis, later)) ∧
      envelopes.map JobEnvelope.delivered =
        ids.filterMap fun job_id => (table.jobs job_id).envelope := by
  induction ids generalizing result with
  | nil => exact ⟨[], by simp [RedisQueue.read_envelopes], rfl⟩
  | cons job_id rest ih =>
      obtain ⟨envelope, hj⟩ := dead_of_is_dead (hids job_id (by simp))
      obtain ⟨stored, hs, rfl, -⟩ := h.stored job_id (by rw [hj]; rfl)
      obtain ⟨envelopes, hrest, hmap⟩ := ih (fun other ho => hids other (by simp [ho]))
        (result ++ [stored])
      refine ⟨stored :: envelopes, ?_, by simp [hj, hmap]⟩
      simp only [RedisQueue.read_envelopes, Program.call_bind, Program.ret_bind, Program.run_call,
        timed_exec, exec, hs, RedisQueue.decode_to_json, hrest]
      simp

theorem dead_letters {timed : Timed} (h : timed.1.Refines table) :
    ∃ envelopes, RedisQueue.dead_letters.run timed_exec timed = (.ok envelopes, timed) ∧
      envelopes.map JobEnvelope.delivered = table.dead_letters.reverse := by
  have hids : ∀ job_id ∈ timed.1.lists .dead, (table.jobs job_id).is_dead := by
    intro job_id hm
    rwa [h.dead, List.mem_reverse, table.mem_dead] at hm
  obtain ⟨envelopes, hread, hmap⟩ := h.read_envelopes timed.2 hids []
  refine ⟨envelopes, hread, ?_⟩
  rw [hmap, h.dead, JobTable.dead_letters, List.filterMap_reverse]

theorem seen (h : redis.Refines table) (job_id : String) :
    redis.exists_known job_id ↔ table.Seen job_id redis.now := by
  unfold Redis.exists_known Seen
  rw [h.known]
  cases table.known job_id with
  | none => simp
  | some expires => simp

theorem enqueue {timed : Timed} (h : timed.1.Refines table) (cfg : Config) {clock : ℚ≥0 → Prop}
    (hreads : Reads clock timed) {job_id : String} (principal_id tenant_id : String)
    (request : JSONObject)
    (hfresh : ¬missing_ids job_id principal_id tenant_id →
      ¬table.Seen job_id (Redis.tick timed).1.now → table.jobs job_id = .absent) :
    ∃ reply table', Answers cfg clock table (.enqueue job_id request principal_id tenant_id) reply
        table' ∧
      ((RedisQueue.enqueue cfg job_id request principal_id tenant_id).run timed_exec
        timed).1.map .bool = reply ∧
      ((RedisQueue.enqueue cfg job_id request principal_id tenant_id).run timed_exec
        timed).2.1.Refines table' := by
  unfold RedisQueue.enqueue
  by_cases hmissing : missing_ids job_id principal_id tenant_id
  · rw [if_pos hmissing]
    exact ⟨_, table, .enqueue_missing hmissing, rfl, h⟩
  rw [if_neg hmissing]
  simp only [Program.call_bind, Program.ret_bind, Program.run_call, timed_exec, exec, Script.run]
  have hknown := h.tick.seen job_id
  have hreads' := hreads.tick
  by_cases hseen : table.Seen job_id (Redis.tick timed).1.now
  · simp only [if_pos (hknown.mpr hseen)]
    exact ⟨_, table, .enqueue_seen hmissing hreads'.1 hseen, rfl, h.tick⟩
  simp only [if_neg (mt hknown.mp hseen)]
  have hj := hfresh hmissing hseen
  refine ⟨_, _, .enqueue_new hmissing hreads.1 hreads'.1 hseen hj, rfl, ?_⟩
  have hready := not_mem_ready table job_id (by rw [hj]; rfl)
  have hdead := not_mem_dead table job_id (by rw [hj]; rfl)
  have hlease : ((Redis.tick timed).1.zsets .leases).get? job_id = none := by
    rw [h.tick.lease, hj]; rfl
  have hdue : ((Redis.tick timed).1.zsets .scheduled).get? job_id = none := by
    rw [h.tick.due, hj]; rfl
  have hinflight : ((Redis.tick timed).1.lists .inflight).count job_id = 0 := by
    rw [h.tick.inflight, hj]; rfl
  let envelope := new_envelope timed.1.now job_id request principal_id tenant_id
  have hput : (((Redis.tick timed).1.hset job_id envelope.to_json).lpush .ready job_id).Refines
      (table.put job_id (.ready envelope)) := by
    refine h.tick.put ?_ ?_ ?_ ?_ ?_ (some envelope.to_json) ?_ ⟨envelope, rfl, rfl, rfl⟩ rfl
    · simp [reverse_rejoin hready, h.ready]
    · simp [reverse_rejoin hdead, h.dead]
    · intro other
      by_cases ho : other = job_id
      · simpa [ho] using hinflight
      · simp [ho]
    · simpa using Dict.get?_eq_ite hlease
    · simpa using Dict.get?_eq_ite hdue
    · simp
  exact { hput with
    known := fun other => by
      have hset : (((Redis.tick timed).1.set_known job_id cfg.idempotency_ttl).known).get? other =
          if other = job_id then some (cfg.known_until (Redis.tick timed).1.now)
          else (Redis.tick timed).1.known.get? other := Dict.get?_set _ _ _ _
      simpa [JobTable.enqueue, Function.update_apply, h.known, new_envelope] using hset }

-- The Redis backend answers every call as the table does.
theorem answers (h : redis.Refines table) (cfg : Config) (moment : Moment) (call : QueueCall)
    (hfresh : ∀ job_id request principal_id tenant_id,
      call = .enqueue job_id request principal_id tenant_id →
      ¬missing_ids job_id principal_id tenant_id →
      ¬table.Seen job_id (moment.later.headD moment.now) → table.jobs job_id = .absent) :
    ∃ reply table', Answers cfg moment.shows table call.delivered reply table' ∧
      SameAnswer (redis.call cfg moment call).1 reply ∧
      (redis.call cfg moment call).2.Refines table' := by
  have hstart : (({ redis with now := moment.now }, moment.later) : Timed).1.Refines table :=
    h.congr rfl rfl rfl rfl
  have hreads : Reads moment.shows ({ redis with now := moment.now }, moment.later) :=
    ⟨by simp [Moment.shows], fun time ht => by simp [Moment.shows, ht]⟩
  have hclock : moment.shows moment.now := hreads.1
  unfold Redis.call
  cases call with
  | enqueue job_id request principal_id tenant_id =>
      simp only [QueueCall.on_redis, Program.run_bind_ret, Prod.map]
      obtain ⟨reply, table', hanswer, hreply, hr⟩ := hstart.enqueue cfg
        hreads principal_id tenant_id request
        fun hids hseen => hfresh job_id request principal_id tenant_id rfl hids (by
          rwa [tick_now] at hseen)
      exact ⟨_, table', hanswer, .of_eq hreply, hr⟩
  | claim set_order timeout =>
      simp only [QueueCall.on_redis, Program.run_bind_ret, Prod.map]
      exact hstart.claim hreads set_order timeout
  | ack envelope =>
      simp only [QueueCall.on_redis, Program.run_bind_ret, Prod.map]
      obtain ⟨hreply, hr⟩ := hstart.ack envelope
      exact ⟨_, _, .ack, .of_eq (congrArg (Except.map QueueReply.bool) hreply), hr⟩
  | renew envelope =>
      simp only [QueueCall.on_redis, Program.run_bind_ret, Prod.map]
      obtain ⟨hreply, hr⟩ := hstart.renew cfg envelope
      exact ⟨_, _, .renew hclock, .of_eq (congrArg (Except.map QueueReply.bool) hreply), hr⟩
  | retry envelope error =>
      simp only [QueueCall.on_redis, Program.run_bind_ret, Prod.map]
      obtain ⟨hreply, hr⟩ := hstart.retry cfg envelope error
      exact ⟨_, _, .retry hclock, .of_eq (congrArg (Except.map QueueReply.outcome) hreply), hr⟩
  | recover_stale set_order =>
      simp only [QueueCall.on_redis, Program.run_bind_ret, Prod.map]
      obtain ⟨ids, timed', hrun, hexpired, hr⟩ := hstart.recover_stale cfg set_order
      rw [hrun]
      exact ⟨_, _, .recover_stale hclock hexpired, .of_eq rfl, hr⟩
  | dead_letters =>
      simp only [QueueCall.on_redis, Program.run_bind_ret, Prod.map]
      obtain ⟨envelopes, hrun, hmap⟩ := hstart.dead_letters
      rw [hrun]
      refine ⟨_, _, .dead_letters, .envelopes ?_, hstart⟩
      have hdelivered : table.dead_letters.map JobEnvelope.delivered = table.dead_letters := by
        rw [← List.reverse_reverse table.dead_letters, ← hmap, ← List.map_reverse, List.map_map]
        rfl
      rw [hmap, hdelivered]
      exact List.reverse_perm _
  | remove_dead_letter envelope =>
      simp only [QueueCall.on_redis, Program.run_bind_ret, Prod.map]
      obtain ⟨hreply, hr⟩ := hstart.remove_dead_letter envelope
      exact ⟨_, _, .remove_dead_letter, .of_eq (congrArg (Except.map QueueReply.bool) hreply), hr⟩
  | dead_letter_count =>
      simp only [QueueCall.on_redis, Program.run_bind_ret, Prod.map]
      refine ⟨_, _, .dead_letter_count, ?_, hstart⟩
      have hlength : (redis.lists .dead).length = table.dead.length := by
        rw [h.dead, List.length_reverse]
      exact hlength

end Refines

end Redis

end ResearchAgent.JobQueue
