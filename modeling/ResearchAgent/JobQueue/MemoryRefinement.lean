import ResearchAgent.JobQueue.Lifecycle
import ResearchAgent.JobQueue.Memory

namespace ResearchAgent.JobQueue

open Library JobTable

namespace MemoryQueue

structure Refines (queue : MemoryQueue) (table : JobTable) : Prop where
  ready : queue.ready = table.ready
  dead : queue.dead = table.dead
  lease : ∀ job_id, queue.inflight.get? job_id = (table.jobs job_id).lease
  due : ∀ job_id, queue.scheduled.get? job_id = (table.jobs job_id).due
  envelope : ∀ job_id,
    (queue.envelopes.get? job_id).map JobEnvelope.delivered = (table.jobs job_id).envelope
  keyed : ∀ job_id envelope, queue.envelopes.get? job_id = some envelope →
    envelope.job_id = job_id
  known : ∀ job_id, queue.known.get? job_id = table.known job_id

variable {cfg : Config} {queue queue' : MemoryQueue} {table : JobTable} {job_id : String}

theorem refines_empty : empty.Refines JobTable.empty where
  ready := rfl
  dead := rfl
  lease _ := rfl
  due _ := rfl
  envelope _ := rfl
  keyed _ _ h := by cases h
  known _ := rfl

namespace Refines

theorem not_ready (h : queue.Refines table) (job_id : String)
    (hj : (table.jobs job_id).is_ready = false) : job_id ∉ queue.ready := by
  rw [h.ready]
  exact not_mem_ready _ _ hj

theorem not_dead (h : queue.Refines table) (job_id : String)
    (hj : (table.jobs job_id).is_dead = false) : job_id ∉ queue.dead := by
  rw [h.dead]
  exact not_mem_dead _ _ hj

-- The stored envelope of a job that is somewhere.
theorem stored (h : queue.Refines table) (job_id : String) {envelope : JobEnvelope}
    (hj : (table.jobs job_id).envelope = some envelope) :
    ∃ stored, queue.envelopes.get? job_id = some stored ∧ stored.delivered = envelope ∧
      stored.job_id = job_id := by
  have he := h.envelope job_id
  rw [hj, Option.map_eq_some_iff] at he
  obtain ⟨stored, hs, hd⟩ := he
  exact ⟨stored, hs, hd, h.keyed job_id stored hs⟩

-- The queue changes for one job as the table does.
theorem put (h : queue.Refines table) {state : JobState} (stored : Option JobEnvelope)
    (hready : queue'.ready = rejoin job_id state.is_ready queue.ready)
    (hdead : queue'.dead = rejoin job_id state.is_dead queue.dead)
    (hlease : ∀ other, queue'.inflight.get? other =
      if other = job_id then state.lease else queue.inflight.get? other)
    (hdue : ∀ other, queue'.scheduled.get? other =
      if other = job_id then state.due else queue.scheduled.get? other)
    (henvelope : ∀ other, queue'.envelopes.get? other =
      if other = job_id then stored else queue.envelopes.get? other)
    (hstored : stored.map JobEnvelope.delivered = state.envelope)
    (hkeyed : ∀ envelope ∈ stored, envelope.job_id = job_id)
    (hknown : queue'.known = queue.known) : queue'.Refines (table.put job_id state) where
  ready := by rw [hready, h.ready]; rfl
  dead := by rw [hdead, h.dead]; rfl
  lease other := by
    rw [hlease, put_jobs, h.lease]
    split <;> rfl
  due other := by
    rw [hdue, put_jobs, h.due]
    split <;> rfl
  envelope other := by
    rw [henvelope, put_jobs]
    split
    · exact hstored
    · exact h.envelope other
  keyed other envelope he := by
    rw [henvelope] at he
    split at he
    · next ho => exact (hkeyed envelope he).trans ho.symm
    · exact h.keyed other envelope he
  known other := by rw [hknown, h.known, put_known]

theorem recover_one (h : queue.Refines table) (cfg : Config) {envelope : JobEnvelope}
    {lease_until : ℚ}
    (hj : table.jobs job_id = .inflight envelope lease_until) :
    ∃ queue', recover_one_memory cfg job_id queue = (.ok (), queue') ∧
      queue'.Refines (table.recover cfg job_id) := by
  obtain ⟨stored, hs, rfl, hid⟩ := h.stored job_id (by rw [hj]; rfl)
  have hready := h.not_ready job_id (by rw [hj]; rfl)
  have hdead := h.not_dead job_id (by rw [hj]; rfl)
  have hdue : queue.scheduled.get? job_id = none := by rw [h.due, hj]; rfl
  unfold recover_one_memory
  rw [hs]
  simp only [JobTable.recover, hj]
  by_cases hcap : stored.attempt ≥ cfg.max_attempts
  · rw [if_pos hcap, JobState.recovered_capped (show stored.delivered.attempt ≥ _ from hcap)]
    refine ⟨_, rfl, h.put (some { stored with last_error := some "lease expired" }) ?_ ?_ ?_
      (Dict.get?_eq_ite hdue) ?_ rfl ?_ rfl⟩
    · simp [rejoin_of_not_mem hready]
    · simp [rejoin_of_not_mem hdead]
    · simp
    · simp
    · simpa using hid
  · rw [if_neg hcap, JobState.recovered_uncapped (show ¬stored.delivered.attempt ≥ _ from hcap)]
    refine ⟨_, rfl, h.put (some { stored with last_error := some "lease expired" }) ?_ ?_ ?_
      (Dict.get?_eq_ite hdue) ?_ rfl ?_ rfl⟩
    · simp [rejoin_of_not_mem hready]
    · simp [rejoin_of_not_mem hdead]
    · simp
    · simp
    · simpa using hid

theorem recover_all (h : queue.Refines table) (cfg : Config) {ids : List String}
    (hnodup : ids.Nodup)
    (hids : ∀ job_id ∈ ids, (table.jobs job_id).lease.isSome) :
    ∃ queue', MemoryQueue.recover_all cfg ids queue = (.ok (), queue') ∧
      queue'.Refines (table.recover_all cfg ids) := by
  induction ids generalizing queue table with
  | nil => exact ⟨queue, rfl, h⟩
  | cons job_id rest ih =>
      obtain ⟨hnot, hrest⟩ := List.nodup_cons.mp hnodup
      obtain ⟨lease_until, hlease⟩ := Option.isSome_iff_exists.mp (hids job_id (by simp))
      obtain ⟨envelope, hj⟩ := inflight_of_lease hlease
      obtain ⟨next, hone, hnext⟩ := h.recover_one cfg hj
      obtain ⟨queue', hall, hq⟩ := ih hnext hrest (fun other ho => by
        rw [recover_jobs_ne cfg table (ne_of_mem_of_not_mem ho hnot)]
        exact hids other (by simp [ho]))
      refine ⟨queue', ?_, hq⟩
      rw [MemoryQueue.recover_all, hone]
      exact hall

theorem expired (h : queue.Refines table) (now : ℚ≥0) : Expired now table (queue.stale now) where
  nodup := Dict.nodup_keysWhere _ _
  mem job_id := by simp [stale, Dict.mem_keysWhere, h.lease]

theorem due_now (h : queue.Refines table) (now : ℚ≥0) : Due now table (queue.due now) where
  nodup := Dict.nodup_keysWhere _ _
  mem job_id := by simp [MemoryQueue.due, Dict.mem_keysWhere, h.due]

theorem recover_stale (h : queue.Refines table) (cfg : Config) (now : ℚ≥0) :
    ∃ queue', MemoryQueue.recover_stale cfg now queue = (.ok (queue.stale now).length, queue') ∧
      queue'.Refines (table.recover_all cfg (queue.stale now)) := by
  have he := h.expired now
  obtain ⟨queue', hall, hq⟩ := h.recover_all cfg he.nodup fun job_id hm => by
    obtain ⟨lease_until, hlease, -⟩ := (he.mem job_id).mp hm
    exact Option.isSome_iff_exists.mpr ⟨lease_until, hlease⟩
  refine ⟨queue', ?_, hq⟩
  rw [MemoryQueue.recover_stale, hall]

theorem promote_one (h : queue.Refines table) {envelope : JobEnvelope} {due_at : ℚ}
    (hj : table.jobs job_id = .scheduled envelope due_at) :
    { queue with
      scheduled := queue.scheduled.erase job_id
      ready := queue.ready ++ [job_id] : MemoryQueue }.Refines (table.promote job_id) := by
  obtain ⟨stored, hs, hd, hid⟩ := h.stored job_id (by rw [hj]; rfl)
  have hready := h.not_ready job_id (by rw [hj]; rfl)
  have hdead := h.not_dead job_id (by rw [hj]; rfl)
  have hlease : queue.inflight.get? job_id = none := by rw [h.lease, hj]; rfl
  simp only [JobTable.promote, hj]
  refine h.put (some stored) ?_ ?_ (Dict.get?_eq_ite hlease) ?_ (Dict.get?_eq_ite hs) ?_ ?_ rfl
  · simp [rejoin_of_not_mem hready]
  · simp [rejoin_of_not_mem hdead]
  · simp
  · simpa using hd
  · simpa using hid

theorem promote_all (h : queue.Refines table) {ids : List String} (hnodup : ids.Nodup)
    (hids : ∀ job_id ∈ ids, (table.jobs job_id).due.isSome) :
    (MemoryQueue.promote_all ids queue).Refines (table.promote_all ids) := by
  induction ids generalizing queue table with
  | nil => exact h
  | cons job_id rest ih =>
      obtain ⟨hnot, hrest⟩ := List.nodup_cons.mp hnodup
      obtain ⟨due_at, hdue⟩ := Option.isSome_iff_exists.mp (hids job_id (by simp))
      obtain ⟨envelope, hj⟩ := scheduled_of_due hdue
      refine ih (h.promote_one hj) hrest fun other ho => ?_
      rw [promote_jobs_ne table (ne_of_mem_of_not_mem ho hnot)]
      exact hids other (by simp [ho])

theorem promote_due (h : queue.Refines table) (now : ℚ≥0) :
    (promote_due_memory now queue).Refines (table.promote_all (queue.due now)) := by
  have hd := h.due_now now
  refine h.promote_all hd.nodup fun job_id hm => ?_
  obtain ⟨due_at, hdue, -⟩ := (hd.mem job_id).mp hm
  exact Option.isSome_iff_exists.mpr ⟨due_at, hdue⟩

variable {clock : ℚ≥0 → Prop}

theorem wait_ready {start : JobTable} (h : queue.Refines table)
    (hpromotes : Promotes clock start table) {now : ℚ≥0} (hnow : clock now)
    {wakeups : List ℚ≥0} (hwakeups : ∀ time ∈ wakeups, clock time) :
    ∃ table', Promotes clock start table' ∧
      (MemoryQueue.wait_ready now wakeups queue).2.Refines table' ∧
      match (MemoryQueue.wait_ready now wakeups queue).1 with
      | none => table'.ready = []
      | some ready_at => clock ready_at := by
  induction wakeups generalizing queue table now with
  | nil =>
      refine ⟨table, hpromotes, h, ?_⟩
      unfold MemoryQueue.wait_ready
      by_cases hempty : queue.ready.isEmpty
      · have hnil := List.isEmpty_iff.mp hempty
        simp [hnil, ← h.ready]
      · simpa [hempty] using hnow
  | cons wakeup rest ih =>
      have hwakeup := hwakeups wakeup (by simp)
      unfold MemoryQueue.wait_ready
      by_cases hempty : queue.ready.isEmpty
      · simp only [hempty, ite_true]
        exact ih (h.promote_due wakeup) (hpromotes.snoc hwakeup (h.due_now wakeup)) hwakeup
          fun time ht => hwakeups time (by simp [ht])
      · simp only [hempty]
        exact ⟨table, hpromotes, h, hnow⟩

theorem pop_ready (h : queue.Refines table) (cfg : Config) (now : ℚ≥0) :
    ∃ reply, (MemoryQueue.pop_ready cfg now queue).1 = .ok reply ∧
      reply.map JobEnvelope.delivered = (table.pop cfg now).1 ∧
      (MemoryQueue.pop_ready cfg now queue).2.Refines (table.pop cfg now).2 := by
  unfold MemoryQueue.pop_ready JobTable.pop
  rw [h.ready]
  cases hready : table.ready with
  | nil => exact ⟨none, rfl, rfl, h⟩
  | cons job_id rest =>
      obtain ⟨envelope, hj⟩ := ready_of_is_ready ((table.mem_ready job_id).mp (by simp [hready]))
      obtain ⟨stored, hs, rfl, hid⟩ := h.stored job_id (by rw [hj]; rfl)
      have hdead := h.not_dead job_id (by rw [hj]; rfl)
      have hdue : queue.scheduled.get? job_id = none := by rw [h.due, hj]; rfl
      have hhead := rejoin_head (hready ▸ table.ready_nodup)
      simp only [hs, hj]
      refine ⟨_, rfl, rfl, h.put (some { stored with attempt := stored.attempt + 1 }) ?_ ?_ ?_
        (Dict.get?_eq_ite hdue) ?_ rfl ?_ rfl⟩
      · rw [h.ready, hready]
        exact hhead.symm
      · simp [rejoin_of_not_mem hdead]
      · simp
      · simp
      · simpa using hid

theorem claim (h : queue.Refines table) {moment : Moment} (set_order : SetOrder) (timeout : ℚ) :
    ∃ reply table',
      Answers cfg moment.shows table (.claim set_order timeout) reply table' ∧
      SameAnswer ((MemoryQueue.claim cfg moment.now timeout moment.later queue).1.map .claimed)
        reply ∧
      (MemoryQueue.claim cfg moment.now timeout moment.later queue).2.Refines table' := by
  unfold MemoryQueue.claim
  by_cases htimeout : timeout ≤ 0
  · simp only [htimeout, ite_true]
    exact ⟨_, table, .claim_timeout htimeout, rfl, h⟩
  have hnow : moment.shows moment.now := by simp [Moment.shows]
  obtain ⟨recovered, hstale, hrecovered⟩ := h.recover_stale cfg moment.now
  obtain ⟨table', hpromotes, hq, hmatch⟩ := (hrecovered.promote_due moment.now).wait_ready
    (.last hnow (hrecovered.due_now moment.now)) hnow
    (fun time (ht : time ∈ moment.later) => by simp [Moment.shows, ht])
  have hanswer : ∀ {now'}, moment.shows now' →
      Answers cfg moment.shows table (.claim set_order timeout)
        (.ok (.claimed (table'.pop cfg now').1)) (table'.pop cfg now').2 :=
    .claim (lt_of_not_ge htimeout) hnow (h.expired moment.now) hpromotes
  simp only [htimeout, ite_false, hstale]
  revert hq hmatch
  rcases MemoryQueue.wait_ready moment.now moment.later
    (promote_due_memory moment.now recovered) with ⟨_ | ready_at, after⟩
  · intro hq hempty
    have hpop := pop_of_empty cfg moment.now hempty
    have hanswer := hanswer hnow
    rw [hpop] at hanswer
    exact ⟨_, table', hanswer, rfl, hq⟩
  · intro hq hclock
    obtain ⟨reply, hreply, hsame, hpop⟩ := hq.pop_ready cfg ready_at
    refine ⟨_, _, hanswer hclock, ?_, hpop⟩
    simp only [hreply, Except.map, SameAnswer, QueueReply.Same, ← hsame, Option.map_map]
    cases reply <;> rfl

theorem ack (h : queue.Refines table) (envelope : JobEnvelope) :
    (MemoryQueue.ack envelope queue).1 = .ok (table.ack envelope.job_id).1 ∧
      (MemoryQueue.ack envelope queue).2.Refines (table.ack envelope.job_id).2 := by
  unfold MemoryQueue.ack JobTable.ack Dict.contains
  rw [h.lease]
  cases hj : table.jobs envelope.job_id with
  | absent | ready | scheduled | dead => exact ⟨rfl, h⟩
  | inflight _ lease_until =>
      have hready := h.not_ready envelope.job_id (by rw [hj]; rfl)
      have hdead := h.not_dead envelope.job_id (by rw [hj]; rfl)
      have hdue : queue.scheduled.get? envelope.job_id = none := by rw [h.due, hj]; rfl
      refine ⟨rfl, h.put none ?_ ?_ ?_ (Dict.get?_eq_ite hdue) ?_ rfl ?_ rfl⟩
      · simp [rejoin_of_not_mem hready]
      · simp [rejoin_of_not_mem hdead]
      · simp
      · simp
      · simp

theorem renew (h : queue.Refines table) (cfg : Config) (now : ℚ≥0) (envelope : JobEnvelope) :
    (MemoryQueue.renew cfg now envelope queue).1 = .ok (table.renew cfg now envelope.job_id).1 ∧
      (MemoryQueue.renew cfg now envelope queue).2.Refines
        (table.renew cfg now envelope.job_id).2 := by
  unfold MemoryQueue.renew JobTable.renew Dict.contains
  rw [h.lease]
  cases hj : table.jobs envelope.job_id with
  | absent | ready | scheduled | dead => exact ⟨rfl, h⟩
  | inflight current lease_until =>
      obtain ⟨stored, hs, hd, hid⟩ := h.stored envelope.job_id (by rw [hj]; rfl)
      have hready := h.not_ready envelope.job_id (by rw [hj]; rfl)
      have hdead := h.not_dead envelope.job_id (by rw [hj]; rfl)
      have hdue : queue.scheduled.get? envelope.job_id = none := by rw [h.due, hj]; rfl
      refine ⟨rfl, h.put (some stored) ?_ ?_ ?_ (Dict.get?_eq_ite hdue) (Dict.get?_eq_ite hs) ?_ ?_
        rfl⟩
      · simp [rejoin_of_not_mem hready]
      · simp [rejoin_of_not_mem hdead]
      · simp
      · simpa using hd
      · simpa using hid

theorem retry (h : queue.Refines table) (cfg : Config) (now : ℚ≥0) (envelope : JobEnvelope)
    (error : String) :
    (MemoryQueue.retry cfg now envelope error queue).1 =
        (table.retry cfg now envelope.delivered error).1 ∧
      (MemoryQueue.retry cfg now envelope error queue).2.Refines
        (table.retry cfg now envelope.delivered error).2 := by
  unfold MemoryQueue.retry MemoryQueue.dead_letter JobTable.retry Dict.contains
  rw [h.lease, JobEnvelope.delivered_job_id]
  cases hj : table.jobs envelope.job_id with
  | absent | ready | scheduled | dead =>
      by_cases hcap : envelope.attempt ≥ cfg.max_attempts <;> simpa [hcap] using h
  | inflight current lease_until =>
      have hready := h.not_ready envelope.job_id (by rw [hj]; rfl)
      have hdead := h.not_dead envelope.job_id (by rw [hj]; rfl)
      have hdue : queue.scheduled.get? envelope.job_id = none := by rw [h.due, hj]; rfl
      by_cases hcap : envelope.attempt ≥ cfg.max_attempts
      · simp only [hcap, JobState.lease, Option.isSome_some, ite_true,
          JobEnvelope.delivered_attempt, true_and]
        refine h.put (some { envelope with retry_at := none, last_error := some error }) ?_ ?_ ?_
          (Dict.get?_eq_ite hdue) ?_ rfl ?_ rfl
        · simp [rejoin_of_not_mem hready]
        · simp [rejoin_of_not_mem hdead]
        · simp
        · simp
        · simp
      · simp only [hcap, JobState.lease, Option.isSome_some, ite_true, ite_false,
          JobEnvelope.delivered_attempt, true_and]
        refine h.put (some { envelope with
          retry_at := cfg.retry_at now envelope, last_error := some error }) ?_ ?_ ?_ ?_ ?_ rfl ?_
          rfl
        · simp [rejoin_of_not_mem hready]
        · simp [rejoin_of_not_mem hdead]
        · simp
        · simp
        · simp
        · simp

theorem remove_dead_letter (h : queue.Refines table) (envelope : JobEnvelope) :
    (MemoryQueue.remove_dead_letter envelope queue).1 =
        .ok (table.remove_dead_letter envelope.job_id).1 ∧
      (MemoryQueue.remove_dead_letter envelope queue).2.Refines
        (table.remove_dead_letter envelope.job_id).2 := by
  unfold MemoryQueue.remove_dead_letter JobTable.remove_dead_letter
  have hmem : envelope.job_id ∈ queue.dead ↔ (table.jobs envelope.job_id).is_dead := by
    rw [h.dead, table.mem_dead]
  cases hj : table.jobs envelope.job_id with
  | absent | ready | scheduled | inflight =>
      rw [if_neg (by simp [hmem, hj])]
      exact ⟨rfl, h⟩
  | dead current =>
      rw [if_pos (by simp [hmem, hj])]
      have hready := h.not_ready envelope.job_id (by rw [hj]; rfl)
      have hlease : queue.inflight.get? envelope.job_id = none := by rw [h.lease, hj]; rfl
      have hdue : queue.scheduled.get? envelope.job_id = none := by rw [h.due, hj]; rfl
      refine ⟨rfl, h.put none ?_ ?_ (Dict.get?_eq_ite hlease) (Dict.get?_eq_ite hdue) ?_ rfl ?_
        rfl⟩
      · simp [rejoin_of_not_mem hready]
      · rw [h.dead]
        simp [rejoin, table.dead_nodup.erase_eq_filter, bne, beq_eq_decide]
      · simp
      · simp

theorem dead_letters (h : queue.Refines table) :
    ∃ envelopes, queue.dead_letters = .ok envelopes ∧
      envelopes.map JobEnvelope.delivered = table.dead_letters := by
  unfold MemoryQueue.dead_letters JobTable.dead_letters
  rw [h.dead]
  have hdead : ∀ job_id ∈ table.dead, (table.jobs job_id).is_dead := fun job_id =>
    (table.mem_dead job_id).mp
  revert hdead
  generalize table.dead = ids
  intro hdead
  induction ids with
  | nil => exact ⟨[], rfl, rfl⟩
  | cons job_id rest ih =>
      obtain ⟨envelope, hj⟩ := dead_of_is_dead (hdead job_id (by simp))
      obtain ⟨stored, hs, rfl, -⟩ := h.stored job_id (by rw [hj]; rfl)
      obtain ⟨envelopes, hrest, hmap⟩ := ih fun other ho => hdead other (by simp [ho])
      refine ⟨stored :: envelopes, ?_, ?_⟩
      · simp only [envelopes_of, hs, hrest]
        rfl
      · simp [hj, hmap]

theorem seen (h : queue.Refines table) (now : ℚ≥0) (job_id : String) :
    (queue.known.get? job_id).getD 0 > (now : ℚ) ↔ table.Seen job_id now := by
  unfold Seen
  rw [h.known]
  cases table.known job_id with
  | none => simp
  | some expires => simp

theorem enqueue (h : queue.Refines table) (cfg : Config) (now : ℚ≥0)
    {job_id principal_id tenant_id : String} {request : JSONObject} {clock : ℚ≥0 → Prop}
    (hnow : clock now)
    (hfresh : ¬missing_ids job_id principal_id tenant_id → ¬table.Seen job_id now →
      table.jobs job_id = .absent) :
    ∃ reply table', Answers cfg clock table (.enqueue job_id request principal_id tenant_id) reply
        table' ∧
      (MemoryQueue.enqueue cfg now job_id request principal_id tenant_id queue).1.map .bool =
        reply ∧
      (MemoryQueue.enqueue cfg now job_id request principal_id tenant_id queue).2.Refines
        table' := by
  unfold MemoryQueue.enqueue
  by_cases hmissing : missing_ids job_id principal_id tenant_id
  · rw [if_pos hmissing]
    exact ⟨_, table, .enqueue_missing hmissing, rfl, h⟩
  rw [if_neg hmissing]
  by_cases hseen : table.Seen job_id now
  · rw [if_pos ((h.seen now job_id).mpr hseen)]
    exact ⟨_, table, .enqueue_seen hmissing hnow hseen, rfl, h⟩
  rw [if_neg (mt (h.seen now job_id).mp hseen)]
  have hj := hfresh hmissing hseen
  refine ⟨_, _, .enqueue_new hmissing hnow hnow hseen hj, rfl, ?_⟩
  have hready := h.not_ready job_id (by rw [hj]; rfl)
  have hdead := h.not_dead job_id (by rw [hj]; rfl)
  have hlease : queue.inflight.get? job_id = none := by rw [h.lease, hj]; rfl
  have hdue : queue.scheduled.get? job_id = none := by rw [h.due, hj]; rfl
  have hput : { queue with
      envelopes := queue.envelopes.set job_id
        (new_envelope now job_id request principal_id tenant_id)
      ready := queue.ready ++ [job_id] : MemoryQueue }.Refines
      (table.put job_id (.ready (new_envelope now job_id request principal_id tenant_id))) := by
    refine h.put (some (new_envelope now job_id request principal_id tenant_id)) ?_ ?_
      (Dict.get?_eq_ite hlease) (Dict.get?_eq_ite hdue) ?_ rfl ?_ rfl
    · simp [rejoin_of_not_mem hready]
    · simp [rejoin_of_not_mem hdead]
    · simp
    · rintro _ ⟨⟩
      rfl
  exact { hput with
    known := fun other => by
      simp only [Dict.get?_set, JobTable.enqueue, Function.update_apply, h.known, new_envelope] }

-- The memory backend answers every call as the table does.
theorem answers (h : queue.Refines table) (cfg : Config) (moment : Moment) (call : QueueCall)
    (hfresh : ∀ job_id request principal_id tenant_id,
      call = .enqueue job_id request principal_id tenant_id →
      ¬missing_ids job_id principal_id tenant_id → ¬table.Seen job_id moment.now →
      table.jobs job_id = .absent) :
    ∃ reply table', Answers cfg moment.shows table call.delivered reply table' ∧
      SameAnswer (queue.call cfg moment call).1 reply ∧
      (queue.call cfg moment call).2.Refines table' := by
  have hnow : moment.shows moment.now := by simp [Moment.shows]
  cases call with
  | enqueue job_id request principal_id tenant_id =>
      obtain ⟨reply, table', hanswer, rfl, hq⟩ := h.enqueue cfg moment.now hnow
        (hfresh job_id request principal_id tenant_id rfl)
      exact ⟨_, table', hanswer, .of_eq rfl, hq⟩
  | claim set_order timeout => exact h.claim set_order timeout
  | ack envelope =>
      obtain ⟨hreply, hq⟩ := h.ack envelope
      exact ⟨_, _, .ack, .of_eq (congrArg (Except.map QueueReply.bool) hreply), hq⟩
  | renew envelope =>
      obtain ⟨hreply, hq⟩ := h.renew cfg moment.now envelope
      exact ⟨_, _, .renew hnow, .of_eq (congrArg (Except.map QueueReply.bool) hreply), hq⟩
  | retry envelope error =>
      obtain ⟨hreply, hq⟩ := h.retry cfg moment.now envelope error
      refine ⟨_, _, .retry hnow, ?_, hq⟩
      exact .of_eq (congrArg (Except.map QueueReply.outcome) hreply)
  | recover_stale set_order =>
      obtain ⟨queue', hstale, hq⟩ := h.recover_stale cfg moment.now
      refine ⟨_, _, .recover_stale hnow (h.expired moment.now), ?_, ?_⟩
      · simp [MemoryQueue.call, hstale, Except.map, SameAnswer, QueueReply.Same]
      · simpa [MemoryQueue.call, hstale] using hq
  | dead_letters =>
      obtain ⟨envelopes, hreply, hmap⟩ := h.dead_letters
      refine ⟨_, _, .dead_letters, ?_, h⟩
      simp only [MemoryQueue.call, hreply]
      exact .envelopes (by rw [← hmap, List.map_map]; rfl)
  | remove_dead_letter envelope =>
      obtain ⟨hreply, hq⟩ := h.remove_dead_letter envelope
      exact ⟨_, _, .remove_dead_letter, .of_eq (congrArg (Except.map QueueReply.bool) hreply), hq⟩
  | dead_letter_count =>
      exact ⟨_, _, .dead_letter_count, congrArg List.length h.dead, h⟩

end Refines

end MemoryQueue

end ResearchAgent.JobQueue
