import ResearchAgent.JobQueue.MemoryRefinement
import ResearchAgent.JobQueue.RedisRefinement

namespace ResearchAgent.JobQueue

open Library JobTable

inductive Backend where
  | memory (queue : MemoryQueue)
  | redis (redis : Redis)

namespace Backend

def call (cfg : Config) (moment : Moment) (backend : Backend) (call : QueueCall) :
    Except QueueError QueueReply × Backend :=
  match backend with
  | memory queue => (queue.call cfg moment call).map id memory
  | redis server => (server.call cfg moment call).map id redis

-- The job is in the collection of jobs in flight.
def InFlight : Backend → String → Prop
  | memory queue, job_id => queue.inflight.contains job_id
  | redis server, job_id => job_id ∈ server.lists .inflight

-- The job has a lease, expired or not.
def Leased : Backend → String → Prop
  | memory queue, job_id => queue.inflight.contains job_id
  | redis server, job_id => (server.zsets .leases).contains job_id

def Live : Backend → String → Prop
  | memory queue, job_id =>
      job_id ∈ queue.ready ∨ queue.inflight.contains job_id ∨ queue.scheduled.contains job_id ∨
        job_id ∈ queue.dead
  | redis server, job_id =>
      job_id ∈ server.lists .ready ∨ job_id ∈ server.lists .inflight ∨
        (server.zsets .scheduled).contains job_id ∨ job_id ∈ server.lists .dead

def known : Backend → String → Option ℚ
  | memory queue, job_id => queue.known.get? job_id
  | redis server, job_id => server.known.get? job_id

-- All that the queue has under one id.
structure Entry where
  envelope : Option JSONValue
  known : Option ℚ
  ready : ℕ
  inflight : ℕ
  lease : Option ℚ
  scheduled : Option ℚ
  dead : ℕ

def entry : Backend → String → Entry
  | memory queue, job_id =>
      { envelope := (queue.envelopes.get? job_id).map JobEnvelope.to_json
        known := queue.known.get? job_id
        ready := queue.ready.count job_id
        inflight := (queue.inflight.contains job_id).toNat
        lease := queue.inflight.get? job_id
        scheduled := queue.scheduled.get? job_id
        dead := queue.dead.count job_id }
  | redis server, job_id =>
      { envelope := server.envelopes.get? job_id
        known := server.known.get? job_id
        ready := (server.lists .ready).count job_id
        inflight := (server.lists .inflight).count job_id
        lease := (server.zsets .leases).get? job_id
        scheduled := (server.zsets .scheduled).get? job_id
        dead := (server.lists .dead).count job_id }

-- A job is not enqueued again while it is live, unless its marker still runs, in
-- which case `enqueue` refuses.
def Fresh (backend : Backend) (moment : Moment) : QueueCall → Prop
  | .enqueue job_id _ _ _ => backend.Live job_id → ∀ now ∈ moment.now :: moment.later,
      ∃ expires ∈ backend.known job_id, (now : ℚ) < expires
  | _ => True

-- When `enqueue` looks at the marker of the job.
def looks_at (moment : Moment) : Backend → ℚ≥0
  | memory _ => moment.now
  | redis _ => moment.later.headD moment.now

def Unexpired (backend : Backend) (job_id : String) (now : ℚ≥0) : Prop :=
  ∃ expires ∈ backend.known job_id, (now : ℚ) < expires

-- As above, but at the one reading of the clock that counts, and only where the call
-- gets as far as that.
def Marked (backend : Backend) (moment : Moment) : QueueCall → Prop
  | .enqueue job_id _ principal_id tenant_id =>
      ¬missing_ids job_id principal_id tenant_id → backend.Live job_id →
        backend.Unexpired job_id (backend.looks_at moment)
  | _ => True

instance (backend : Backend) (job_id : String) : Decidable (backend.InFlight job_id) :=
  match backend with
  | memory queue => inferInstanceAs (Decidable (queue.inflight.contains job_id = true))
  | redis server => inferInstanceAs (Decidable (job_id ∈ server.lists .inflight))

instance (backend : Backend) (job_id : String) : Decidable (backend.Live job_id) :=
  match backend with
  | memory _ => inferInstanceAs (Decidable (_ ∨ _ ∨ _ ∨ _))
  | redis _ => inferInstanceAs (Decidable (_ ∨ _ ∨ _ ∨ _))

instance (backend : Backend) (moment : Moment) :
    (call : QueueCall) → Decidable (backend.Fresh moment call)
  | .enqueue job_id _ _ _ => inferInstanceAs (Decidable (backend.Live job_id →
      ∀ now ∈ moment.now :: moment.later, ∃ expires ∈ backend.known job_id, (now : ℚ) < expires))
  | .claim _ _ | .ack _ | .renew _ | .retry _ _ | .recover_stale _ | .dead_letters
  | .remove_dead_letter _ | .dead_letter_count => .isTrue trivial

-- An enqueue that is refused leaves the queue as it is.
theorem entry_of_refused {cfg : Config} {moment : Moment} {backend : Backend}
    {job_id principal_id tenant_id : String} {request : JSONObject}
    (h : (backend.call cfg moment (.enqueue job_id request principal_id tenant_id)).1 =
      .ok (.bool false)) (other : String) :
    (backend.call cfg moment (.enqueue job_id request principal_id tenant_id)).2.entry other =
      backend.entry other := by
  cases backend with
  | memory queue =>
      simp only [call, MemoryQueue.call, MemoryQueue.enqueue] at h ⊢
      split at h
      · cases h
      · split at h
        · next hids hknown => simp only [hids, hknown, ite_true, Bool.false_eq_true, ite_false]; rfl
        · cases h
  | redis server =>
      simp only [call, Redis.call, QueueCall.on_redis, RedisQueue.enqueue] at h ⊢
      split at h
      · cases h
      · next hids =>
          simp only [hids, Bool.false_eq_true, ite_false, Program.call_bind, Program.ret_bind,
            Program.run_call, Redis.timed_exec, Redis.exec, Script.run] at h ⊢
          split at h
          · next hknown =>
              simp only [hknown, ite_true]
              rcases moment with ⟨now, _ | ⟨next, later⟩⟩ <;> rfl
          · cases h

def Refines : Backend → JobTable → Prop
  | memory queue, table => queue.Refines table
  | redis server, table => server.Refines table

variable {cfg : Config} {backend : Backend} {table : JobTable} {moment : Moment}
  {call : QueueCall}

theorem Refines.inFlight_iff (h : backend.Refines table) (job_id : String) :
    backend.InFlight job_id ↔ (table.jobs job_id).lease.isSome := by
  cases backend with
  | memory queue => simp only [InFlight, Dict.contains, MemoryQueue.Refines.lease h]
  | redis server => exact Redis.Refines.mem_inflight h job_id

theorem Refines.absent_of_not_live (h : backend.Refines table) {job_id : String}
    (hn : ¬backend.Live job_id) : table.jobs job_id = .absent := by
  cases backend with
  | memory queue =>
      simp only [Live, Dict.contains, MemoryQueue.Refines.lease h, MemoryQueue.Refines.due h,
        MemoryQueue.Refines.ready h, MemoryQueue.Refines.dead h, table.mem_ready,
        table.mem_dead] at hn
      cases hj : table.jobs job_id <;> simp [hj] at hn ⊢
  | redis server =>
      simp only [Live, Dict.contains, Redis.Refines.mem_inflight h, Redis.Refines.due h,
        Redis.Refines.ready h, Redis.Refines.dead h, List.mem_reverse, table.mem_ready,
        table.mem_dead] at hn
      cases hj : table.jobs job_id <;> simp [hj] at hn ⊢

theorem Refines.not_absent_of_live (h : backend.Refines table) {job_id : String}
    (hlive : backend.Live job_id) : table.jobs job_id ≠ .absent := by
  intro habsent
  cases backend with
  | memory queue =>
      simp [Live, Dict.contains, MemoryQueue.Refines.lease h, MemoryQueue.Refines.due h,
        MemoryQueue.Refines.ready h, MemoryQueue.Refines.dead h, table.mem_ready,
        table.mem_dead, habsent] at hlive
  | redis server =>
      simp [Live, Dict.contains, Redis.Refines.mem_inflight h, Redis.Refines.due h,
        Redis.Refines.ready h, Redis.Refines.dead h, table.mem_ready,
        table.mem_dead, habsent] at hlive

theorem Refines.known_eq (h : backend.Refines table) (job_id : String) :
    backend.known job_id = table.known job_id := by
  cases backend with
  | memory queue => exact MemoryQueue.Refines.known h job_id
  | redis server => exact Redis.Refines.known h job_id

theorem Fresh.marked (h : backend.Fresh moment call) : backend.Marked moment call := by
  cases call with
  | enqueue job_id request principal_id tenant_id =>
      intro _ hlive
      apply h hlive
      cases backend with
      | memory queue => exact List.mem_cons_self ..
      | redis server => exact moment.shows_later
  | _ => trivial

theorem Refines.fresh (h : backend.Refines table) (hmarked : backend.Marked moment call)
    {job_id principal_id tenant_id : String} {request : JSONObject}
    (hcall : call = .enqueue job_id request principal_id tenant_id)
    (hids : ¬missing_ids job_id principal_id tenant_id)
    (hseen : ¬table.Seen job_id (backend.looks_at moment)) : table.jobs job_id = .absent := by
  subst hcall
  refine h.absent_of_not_live fun hlive => hseen ?_
  have hmarker := hmarked hids hlive
  rwa [Unexpired, h.known_eq] at hmarker

-- Either backend answers every call as the table does.
theorem Refines.answers_marked (h : backend.Refines table) (cfg : Config)
    (hmarked : backend.Marked moment call) :
    ∃ reply table', Answers cfg moment.shows table call.delivered reply table' ∧
      SameAnswer (backend.call cfg moment call).1 reply ∧
      (backend.call cfg moment call).2.Refines table' := by
  cases backend with
  | memory queue =>
      exact MemoryQueue.Refines.answers h cfg moment call fun _ _ _ _ hcall =>
        h.fresh hmarked hcall
  | redis server =>
      exact Redis.Refines.answers h cfg moment call fun _ _ _ _ hcall =>
        h.fresh hmarked hcall

theorem Refines.answers (h : backend.Refines table) (cfg : Config)
    (hfresh : backend.Fresh moment call) :
    ∃ reply table', Answers cfg moment.shows table call.delivered reply table' ∧
      SameAnswer (backend.call cfg moment call).1 reply ∧
      (backend.call cfg moment call).2.Refines table' :=
  h.answers_marked cfg hfresh.marked

end Backend

-- One call as it happened: who made it, when, and what came back.
structure Performed (ι : Type) where
  worker : ι
  moment : Moment
  call : QueueCall
  result : Except QueueError QueueReply

-- A run of calls, one at a time, on a queue that starts out empty. The trace has
-- the newest call first, and every call meets `allowed`.
inductive Calls {ι : Type} (cfg : Config)
    (allowed : List (Performed ι) → Backend → Performed ι → Prop) :
    List (Performed ι) → Backend → Prop
  | memory : Calls cfg allowed [] (.memory .empty)
  | redis (now : ℚ≥0) : Calls cfg allowed [] (.redis (.empty now))
  | call {trace backend} (h : Calls cfg allowed trace backend) (worker : ι) (moment : Moment)
      (call : QueueCall)
      (hallowed : allowed trace backend ⟨worker, moment, call, (backend.call cfg moment call).1⟩) :
      Calls cfg allowed (⟨worker, moment, call, (backend.call cfg moment call).1⟩ :: trace)
        (backend.call cfg moment call).2

section Runs

variable {ι : Type} {cfg : Config}
  {allowed allowed' : List (Performed ι) → Backend → Performed ι → Prop}
  {trace : List (Performed ι)} {backend : Backend}

-- Every call may be judged by what is known of both runs up to it.
theorem Calls.earlier (h : Calls cfg allowed trace backend)
    (himp : ∀ trace backend worker moment call, Calls cfg allowed trace backend →
      Calls cfg allowed' trace backend →
      allowed trace backend ⟨worker, moment, call, (backend.call cfg moment call).1⟩ →
      allowed' trace backend ⟨worker, moment, call, (backend.call cfg moment call).1⟩) :
    Calls cfg allowed' trace backend := by
  induction h with
  | memory => exact .memory
  | redis now => exact .redis now
  | call hearlier worker moment call hallowed ih =>
      exact ih.call worker moment call (himp _ _ _ _ _ hearlier ih hallowed)

theorem Calls.mono (h : Calls cfg allowed trace backend)
    (himp : ∀ trace backend worker moment call,
      allowed trace backend ⟨worker, moment, call, (backend.call cfg moment call).1⟩ →
      allowed' trace backend ⟨worker, moment, call, (backend.call cfg moment call).1⟩) :
    Calls cfg allowed' trace backend :=
  h.earlier fun trace backend worker moment call _ _ hallowed =>
    himp trace backend worker moment call hallowed

-- What a run has done up to any of its calls is a run.
theorem Calls.older {newer older : List (Performed ι)}
    (h : Calls cfg allowed (newer ++ older) backend) :
    ∃ backend, Calls cfg allowed older backend := by
  induction newer generalizing backend with
  | nil => exact ⟨backend, h⟩
  | cons _ _ ih =>
      cases h with
      | call h => exact ih h

-- Runs that can be computed.
def perform (cfg : Config) (trace : List (Performed ι)) (backend : Backend) :
    List (ι × Moment × QueueCall) → List (Performed ι) × Backend
  | [] => (trace, backend)
  | (worker, moment, call) :: rest =>
      perform cfg (⟨worker, moment, call, (backend.call cfg moment call).1⟩ :: trace)
        (backend.call cfg moment call).2 rest

def AllAllowed (cfg : Config) (allowed : List (Performed ι) → Backend → Performed ι → Prop)
    (trace : List (Performed ι)) (backend : Backend) : List (ι × Moment × QueueCall) → Prop
  | [] => True
  | (worker, moment, call) :: rest =>
      allowed trace backend ⟨worker, moment, call, (backend.call cfg moment call).1⟩ ∧
        AllAllowed cfg allowed (⟨worker, moment, call, (backend.call cfg moment call).1⟩ :: trace)
          (backend.call cfg moment call).2 rest

theorem Calls.perform (h : Calls cfg allowed trace backend)
    (calls : List (ι × Moment × QueueCall))
    (hallowed : AllAllowed cfg allowed trace backend calls) :
    Calls cfg allowed (perform cfg trace backend calls).1 (perform cfg trace backend calls).2 := by
  induction calls generalizing trace backend with
  | nil => exact h
  | cons call rest ih =>
      obtain ⟨worker, moment, call⟩ := call
      exact ih (h.call worker moment call hallowed.1) hallowed.2

end Runs

-- What the first claim returns of a job enqueued at 1000 without a request.
def first_claim : JobEnvelope where
  job_id := "job"
  request := []
  principal_id := "principal"
  tenant_id := "tenant"
  attempt := 1
  enqueued_at := 1000

-- One call of a run that can be computed, at a clock that stands still meanwhile.
def at_time {n : ℕ} (worker now : ℕ) (call : QueueCall) : Fin (n + 1) × Moment × QueueCall :=
  (.clamp worker n, ⟨now, []⟩, call)

end ResearchAgent.JobQueue
