import ResearchAgent.JobQueue.Backend

namespace ResearchAgent.JobQueue

open Library JobTable

theorem count_eq_toNat {ids : List String} {job_id : String} {present : Bool}
    (hnodup : ids.Nodup) (hmem : job_id ∈ ids ↔ present = true) :
    ids.count job_id = present.toNat := by
  cases present with
  | false => exact List.count_eq_zero.mpr fun h => Bool.false_ne_true (hmem.mp h)
  | true => exact List.count_eq_one_of_mem hnodup (hmem.mpr rfl)

namespace Backend

-- How often the job is in one of the four places.
def places (backend : Backend) (job_id : String) : ℕ :=
  (backend.entry job_id).ready + (backend.entry job_id).inflight +
    (backend.entry job_id).scheduled.isSome.toNat + (backend.entry job_id).dead

-- No job that is in the queue is admitted once more.
def NoSecondCopy {ι : Type} (backend : Backend) (performed : Performed ι) : Prop :=
  ∀ job_id request principal_id tenant_id,
    performed.call = .enqueue job_id request principal_id tenant_id →
    performed.result = .ok (.bool true) → ¬backend.Live job_id

-- Every job is in the queue once at most, with its envelope there, and no claim and
-- no listing of dead letters fails.
structure Sound (cfg : Config) (backend : Backend) : Prop where
  once : ∀ job_id, backend.places job_id ≤ 1
  envelope : ∀ job_id, backend.Live job_id → (backend.entry job_id).envelope.isSome
  claim : ∀ moment set_order timeout, 0 < timeout →
    ∃ reply, (backend.call cfg moment (.claim set_order timeout)).1 = .ok reply
  dead_letters : ∀ moment, ∃ reply, (backend.call cfg moment .dead_letters).1 = .ok reply

variable {cfg : Config} {backend : Backend} {table : JobTable} {moment : Moment}
  {call : QueueCall}

-- Whether a job is admitted is a matter of its marker alone.
theorem admitted_iff {job_id principal_id tenant_id : String} {request : JSONObject} :
    (backend.call cfg moment (.enqueue job_id request principal_id tenant_id)).1 =
        .ok (.bool true) ↔
      ¬missing_ids job_id principal_id tenant_id ∧
        ¬backend.Unexpired job_id (backend.looks_at moment) := by
  by_cases hids : missing_ids job_id principal_id tenant_id
  · cases backend with
    | memory queue => simp [Backend.call, MemoryQueue.call, MemoryQueue.enqueue, hids, Except.map]
    | redis server =>
        simp [Backend.call, Redis.call, QueueCall.on_redis, RedisQueue.enqueue, hids]
  · cases backend with
    | memory queue =>
        have hmarker : (queue.known.get? job_id).getD 0 > (moment.now : ℚ) ↔
            (memory queue).Unexpired job_id moment.now := by
          unfold Unexpired known
          cases hknown : queue.known.get? job_id <;> simp [hknown]
        simp only [Backend.call, MemoryQueue.call, MemoryQueue.enqueue, if_neg hids, looks_at,
          ← hmarker, Prod.map]
        by_cases hseen : (queue.known.get? job_id).getD 0 > (moment.now : ℚ)
        · simp [hseen, Except.map]
        · simp [hseen, hids, Except.map]
    | redis server =>
        have hmarker : (Redis.tick ({ server with now := moment.now }, moment.later)).1.exists_known
            job_id = true ↔ (redis server).Unexpired job_id (moment.later.headD moment.now) := by
          unfold Unexpired known Redis.exists_known
          rw [Redis.tick_now, Redis.tick_known]
          cases hknown : server.known.get? job_id <;> simp [hknown]
        simp only [Backend.call, Redis.call, QueueCall.on_redis, RedisQueue.enqueue, if_neg hids,
          Program.call_bind, Program.ret_bind, Program.run_call, Redis.timed_exec, Redis.exec,
          Script.run, looks_at, ← hmarker, Prod.map]
        by_cases hseen :
            (Redis.tick ({ server with now := moment.now }, moment.later)).1.exists_known
              job_id = true
        · simp [hseen]
        · simp [hseen, hids]

theorem noSecondCopy_iff {ι : Type} (worker : ι) :
    backend.NoSecondCopy ⟨worker, moment, call, (backend.call cfg moment call).1⟩ ↔
      backend.Marked moment call := by
  cases call with
  | enqueue job_id request principal_id tenant_id =>
      constructor
      · intro h hids hlive
        by_contra hexpired
        exact h _ _ _ _ rfl (admitted_iff.mpr ⟨hids, hexpired⟩) hlive
      · rintro h _ _ _ _ ⟨⟩ hadmitted hlive
        obtain ⟨hids, hexpired⟩ := admitted_iff.mp hadmitted
        exact hexpired (h hids hlive)
  | _ => exact ⟨fun _ => trivial, fun _ _ _ _ _ hcall => by cases hcall⟩

theorem ok_of_same {result : Except QueueError QueueReply} {reply : QueueReply}
    (h : SameAnswer result (.ok reply)) : ∃ value, result = .ok value := by
  cases result with
  | ok value => exact ⟨value, rfl⟩
  | error error => exact False.elim h

theorem Refines.places_eq (h : backend.Refines table) (job_id : String) :
    backend.places job_id =
      (table.jobs job_id).is_ready.toNat + (table.jobs job_id).lease.isSome.toNat +
        (table.jobs job_id).due.isSome.toNat + (table.jobs job_id).is_dead.toNat := by
  have hready := count_eq_toNat table.ready_nodup (table.mem_ready job_id)
  have hdead := count_eq_toNat table.dead_nodup (table.mem_dead job_id)
  cases backend with
  | memory queue =>
      simp only [places, entry, MemoryQueue.Refines.ready h, MemoryQueue.Refines.dead h, hready,
        hdead, Dict.contains, MemoryQueue.Refines.lease h, MemoryQueue.Refines.due h]
  | redis server =>
      simp only [places, entry, Redis.Refines.ready h, Redis.Refines.dead h, List.count_reverse,
        hready, hdead, Redis.Refines.inflight h, Redis.Refines.due h]

theorem Refines.sound (h : backend.Refines table) (cfg : Config) : backend.Sound cfg where
  once job_id := by
    rw [h.places_eq]
    cases table.jobs job_id <;> simp
  envelope job_id hlive := by
    have hpresent := h.not_absent_of_live hlive
    have henvelope : ∃ envelope, (table.jobs job_id).envelope = some envelope := by
      cases hj : table.jobs job_id with
      | absent => exact absurd hj hpresent
      | ready | inflight | scheduled | dead => exact ⟨_, rfl⟩
    obtain ⟨envelope, henvelope⟩ := henvelope
    cases backend with
    | memory queue =>
        obtain ⟨stored, hs, -⟩ := MemoryQueue.Refines.stored h job_id henvelope
        simp [entry, hs]
    | redis server =>
        obtain ⟨stored, hs, -⟩ := Redis.Refines.stored h job_id henvelope
        simp [entry, hs]
  claim moment set_order timeout htimeout := by
    obtain ⟨reply, table', hanswer, hsame, -⟩ :=
      h.answers_marked cfg (show backend.Marked moment (.claim set_order timeout) from trivial)
    cases hanswer with
    | claim_timeout hle => exact absurd htimeout (not_lt.mpr hle)
    | claim => exact ok_of_same hsame
  dead_letters moment := by
    obtain ⟨reply, table', hanswer, hsame, -⟩ :=
      h.answers_marked cfg (show backend.Marked moment .dead_letters from trivial)
    cases hanswer with
    | dead_letters => exact ok_of_same hsame

end Backend

open Backend

section Runs

variable {ι : Type} {cfg : Config} {trace : List (Performed ι)} {backend : Backend}

theorem refines_of_marked_run
    (h : Calls cfg (fun _ backend performed => backend.Marked performed.moment performed.call) trace
      backend) : ∃ table, backend.Refines table := by
  induction h with
  | memory => exact ⟨.empty, MemoryQueue.refines_empty⟩
  | redis now => exact ⟨.empty, Redis.refines_empty now⟩
  | call _ worker moment call hmarked ih =>
      obtain ⟨table, hrefines⟩ := ih
      obtain ⟨reply, table', -, -, hrefines'⟩ := hrefines.answers_marked cfg hmarked
      exact ⟨table', hrefines'⟩

end Runs

-- The runs in which no job is admitted while it is in the queue are those in which
-- the marker of such a job has not expired when it is enqueued.
theorem live_jobs_not_admitted {ι : Type} {cfg : Config} {trace : List (Performed ι)}
    {backend : Backend} :
    Calls cfg (fun _ backend performed => backend.NoSecondCopy performed ∧ backend.Sound cfg) trace
        backend ∧ backend.Sound cfg ↔
      Calls cfg (fun _ backend performed => backend.Marked performed.moment performed.call) trace
        backend := by
  constructor
  · rintro ⟨h, -⟩
    exact h.mono fun _ _ worker _ _ hallowed => (noSecondCopy_iff worker).mp hallowed.1
  · intro h
    constructor
    · refine h.earlier fun _ _ worker _ _ hearlier _ hmarked => ?_
      obtain ⟨table, hrefines⟩ := refines_of_marked_run hearlier
      exact ⟨(noSecondCopy_iff worker).mpr hmarked, hrefines.sound cfg⟩
    · obtain ⟨table, hrefines⟩ := refines_of_marked_run h
      exact hrefines.sound cfg

-- The marker expires while the job still waits for a worker.
def waiting : List (Fin 1 × Moment × QueueCall) :=
  [at_time 0 1000 (.enqueue "job" [] "principal" "tenant")]

theorem expired_marker_admits_copy :
    let run := perform .default [] (.memory .empty) waiting
    let call := QueueCall.enqueue "job" [] "principal" "tenant"
    let answer := run.2.call .default ⟨2593001, []⟩ call
    let performed : Performed (Fin 1) := ⟨0, ⟨2593001, []⟩, call, answer.1⟩
    Calls .default (fun _ _ _ => True) run.1 run.2 ∧ ¬run.2.NoSecondCopy performed ∧
      ¬answer.2.Sound .default := by
  refine ⟨.perform .memory _ ⟨trivial, trivial⟩, fun h => ?_, fun h => ?_⟩
  · have hexpired : ¬(perform .default [] (.memory .empty) waiting).2.Unexpired "job" 2593001 := by
      unfold Unexpired
      decide +kernel
    have hids : ¬missing_ids "job" "principal" "tenant" := by decide
    exact h "job" [] "principal" "tenant" rfl (admitted_iff.mpr ⟨hids, hexpired⟩)
      (by decide +kernel)
  · exact absurd (h.once "job") (by decide +kernel)

end ResearchAgent.JobQueue
