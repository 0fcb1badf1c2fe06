import ResearchAgent.JobQueue.Copies
import ResearchAgent.JobQueue.Moves
import ResearchAgent.JobQueue.Origins

namespace ResearchAgent.JobQueue

open Library JobTable

-- The job has been admitted by one of the calls.
def Admitted {ι : Type} (job_id : String) (trace : List (Performed ι)) : Prop :=
  ∃ performed ∈ trace, performed.result = .ok (.bool true) ∧
    ∃ request principal_id tenant_id,
      performed.call = .enqueue job_id request principal_id tenant_id

theorem Admitted.cons {ι : Type} {job_id : String} {trace : List (Performed ι)}
    (h : Admitted job_id trace) (performed : Performed ι) :
    Admitted job_id (performed :: trace) := by
  obtain ⟨earlier, hmem, hearlier⟩ := h
  exact ⟨earlier, List.mem_cons_of_mem _ hmem, hearlier⟩

-- Nothing is admitted twice, and the clock does not go back, neither from one call to the
-- next nor within a call.
structure Orderly {ι : Type} (trace : List (Performed ι)) (backend : Backend)
    (performed : Performed ι) : Prop where
  once : ∀ job_id request principal_id tenant_id,
    performed.call = .enqueue job_id request principal_id tenant_id →
    performed.result = .ok (.bool true) → ¬Admitted job_id trace
  in_order : performed.moment.InOrder
  later : ∀ earlier ∈ trace, ∀ time, earlier.moment.shows time → time ≤ performed.moment.now

namespace Backoff

variable {ι : Type} {cfg : Config} {trace : List (Performed ι)} {performed : Performed ι}
  {backend : Backend} {table : JobTable} {job_id : String} {due : ℚ}

-- The clock has been seen at `due` or after it.
def Reached (due : ℚ) (trace : List (Performed ι)) : Prop :=
  ∃ performed ∈ trace, ∃ time, performed.moment.shows time ∧ due ≤ (time : ℚ)

-- The job is in none of the four places but among the scheduled, until it is due.
def Waits (due : ℚ) (trace : List (Performed ι)) (state : JobState) : Prop :=
  (∃ envelope, state = .scheduled envelope due) ∨ Reached due trace

-- What is known after a run: the table that the queue refines, that every job there was
-- admitted, and that every job put off waits.
structure Orders (cfg : Config) (trace : List (Performed ι)) (table : JobTable) : Prop where
  admitted : ∀ job_id, table.jobs job_id ≠ .absent → Admitted job_id trace
  waits : ∀ retried ∈ trace, ∀ envelope error, retried.call = .retry envelope error →
    retried.result = .ok (.outcome .scheduled) →
    Waits (cfg.retry_at retried.moment.now envelope) trace (table.jobs envelope.job_id)

theorem Reached.cons (h : Reached due trace) (performed : Performed ι) :
    Reached due (performed :: trace) := by
  obtain ⟨earlier, hmem, hearlier⟩ := h
  exact ⟨earlier, List.mem_cons_of_mem _ hmem, hearlier⟩

-- A job that is live was admitted before, so it is not admitted now; and that only its
-- marker prevents.
theorem marked_of_once {moment : Moment} {call : QueueCall}
    (hrefines : backend.Refines table)
    (hadmitted : ∀ job_id, table.jobs job_id ≠ .absent → Admitted job_id trace)
    (honce : ∀ job_id request principal_id tenant_id,
      call = .enqueue job_id request principal_id tenant_id →
      (backend.call cfg moment call).1 = .ok (.bool true) → ¬Admitted job_id trace) :
    backend.Marked moment call := by
  cases call with
  | enqueue job_id request principal_id tenant_id =>
      intro hids hlive
      by_contra hexpired
      exact honce job_id request principal_id tenant_id rfl
        (Backend.admitted_iff.mpr ⟨hids, hexpired⟩)
        (hadmitted job_id (hrefines.not_absent_of_live hlive))
  | _ => trivial

-- Where a job comes from that is there after a call.
theorem present_before {clock : ℚ≥0 → Prop} {call : QueueCall}
    {reply : Except QueueError QueueReply} {state state' : JobState}
    (h : Move cfg clock job_id call reply state state') (hpresent : state' ≠ .absent) :
    state ≠ .absent ∨ reply = .ok (.bool true) ∧
      ∃ request principal_id tenant_id, call = .enqueue job_id request principal_id tenant_id := by
  cases h with
  | left => exact .inl hpresent
  | admitted => exact .inr ⟨rfl, _, _, _, rfl⟩
  | claimed hpromoted hpopped =>
      refine .inl ?_
      rintro rfl
      cases hpromoted
      cases hpopped
      exact hpresent rfl
  | recovered =>
      refine .inl ?_
      rintro rfl
      exact hpresent rfl
  | acked | renewed | buried | delayed | removed => exact .inl nofun

-- A job that is there after a call was admitted by it or before it.
theorem admitted_after {clock : ℚ≥0 → Prop} {reply : Except QueueError QueueReply}
    {state state' : JobState} (h : state ≠ .absent → Admitted job_id trace)
    (hmove : Move cfg clock job_id performed.call.delivered reply state state')
    (hsame : SameAnswer performed.result reply) (hpresent : state' ≠ .absent) :
    Admitted job_id (performed :: trace) := by
  rcases present_before hmove hpresent with hbefore | ⟨rfl, hcall⟩
  · exact (h hbefore).cons performed
  · obtain ⟨request, principal_id, tenant_id, hcall⟩ := hcall
    exact ⟨performed, List.mem_cons_self, hsame.eq_bool, request, principal_id,
      tenant_id, Origins.enqueue_of_delivered hcall⟩

-- A scheduled job leaves its place only at a reading of the clock that is not before it is
-- due.
theorem waits_of_move {moment : Moment} {call : QueueCall}
    {reply : Except QueueError QueueReply} {state' : JobState} {envelope : JobEnvelope}
    (h : Move cfg moment.shows job_id call reply (.scheduled envelope due) state') :
    state' = .scheduled envelope due ∨ ∃ time, moment.shows time ∧ due ≤ (time : ℚ) := by
  cases h with
  | left => exact .inl rfl
  | claimed hpromoted hpopped =>
      cases hpromoted with
      | left =>
          cases hpopped
          exact .inl rfl
      | due hnow hdue => exact .inr ⟨_, hnow, hdue⟩
  | recovered => exact .inl rfl

-- Where a retry with this answer puts the job.
def RetryOutcome.leaves (due_at : ℚ) (stored : JobEnvelope) : RetryOutcome → JobState
  | .scheduled => .scheduled stored due_at
  | .dead_letter => .dead stored

theorem retry_leaves {now : ℚ≥0} {envelope : JobEnvelope} {error : String}
    {outcome : RetryOutcome}
    (h : (table.retry cfg now envelope.delivered error).1 = .ok outcome) :
    ∃ stored, (table.retry cfg now envelope.delivered error).2.jobs envelope.job_id =
      RetryOutcome.leaves (cfg.retry_at now envelope) stored outcome := by
  unfold JobTable.retry at h ⊢
  rw [JobEnvelope.delivered_job_id] at h ⊢
  cases hj : table.jobs envelope.job_id with
  | absent | ready | scheduled | dead =>
      rw [hj] at h
      cases h
  | inflight current lease_until =>
      rw [hj] at h
      dsimp only at h ⊢
      split at h
      · next hcap =>
        cases h
        rw [if_pos hcap]
        exact ⟨_, by rw [put_jobs, if_pos rfl]; rfl⟩
      · next hcap =>
        cases h
        rw [if_neg hcap]
        exact ⟨_, by rw [put_jobs, if_pos rfl]; rfl⟩

-- What each call adds to the orders.
theorem Orders.cons {reply : Except QueueError QueueReply} {table' : JobTable}
    (h : Orders cfg trace table) (hkeyed : table.Keyed)
    (hanswer : Answers cfg performed.moment.shows table performed.call.delivered reply table')
    (hsame : SameAnswer performed.result reply)
    (hretry : ∀ envelope error, performed.call = .retry envelope error →
      reply = (table.retry cfg performed.moment.now envelope.delivered error).1.map .outcome ∧
        table' = (table.retry cfg performed.moment.now envelope.delivered error).2) :
    Orders cfg (performed :: trace) table' := by
  refine ⟨fun job_id => admitted_after (h.admitted job_id) (hanswer.moves hkeyed job_id) hsame,
    fun retried hmem envelope error hcall hresult => ?_⟩
  rcases List.mem_cons.mp hmem with rfl | hmem
  · obtain ⟨rfl, rfl⟩ := hretry envelope error hcall
    rw [hresult] at hsame
    exact .inl (retry_leaves hsame.eq_outcome)
  · rcases h.waits retried hmem envelope error hcall hresult with ⟨stored, hj⟩ | hreached
    · have hmove := hanswer.moves hkeyed envelope.job_id
      rw [hj] at hmove
      rcases waits_of_move hmove with hkept | ⟨time, hshows, hdue⟩
      · exact .inl ⟨stored, hkept⟩
      · exact .inr ⟨performed, List.mem_cons_self, time, hshows, hdue⟩
    · exact .inr (hreached.cons performed)

end Backoff

namespace Backend

open Backoff

-- The answer to a retry is the one at the first reading of the clock.
theorem Refines.answers_now {cfg : Config} {backend : Backend} {table : JobTable}
    {moment : Moment} {call : QueueCall} (h : backend.Refines table)
    (hmarked : backend.Marked moment call) :
    ∃ reply table', Answers cfg moment.shows table call.delivered reply table' ∧
      SameAnswer (backend.call cfg moment call).1 reply ∧
      (backend.call cfg moment call).2.Refines table' ∧
      ∀ envelope error, call = .retry envelope error →
        reply = (table.retry cfg moment.now envelope.delivered error).1.map .outcome ∧
          table' = (table.retry cfg moment.now envelope.delivered error).2 := by
  cases call with
  | retry envelope error =>
      obtain ⟨hreply, hrefines⟩ := h.retries cfg moment envelope error
      refine ⟨_, _, .retry (by simp [Moment.shows]), .of_eq hreply, hrefines, ?_⟩
      rintro _ _ ⟨⟩
      exact ⟨rfl, rfl⟩
  | enqueue | claim | ack | renew | recover_stale | dead_letters | remove_dead_letter
  | dead_letter_count =>
      obtain ⟨reply, table', hanswer, hsame, hrefines⟩ := h.answers_marked cfg hmarked
      refine ⟨reply, table', hanswer, hsame, hrefines, ?_⟩
      rintro _ _ ⟨⟩

end Backend

namespace Backoff

variable {ι : Type} {cfg : Config} {trace : List (Performed ι)} {backend : Backend}

theorem orders_empty : Orders cfg ([] : List (Performed ι)) .empty where
  admitted _ hpresent := absurd rfl hpresent
  waits _ hmem := absurd hmem List.not_mem_nil

theorem orders_of_run (hrun : Calls cfg Orderly trace backend) :
    ∃ table, backend.Refines table ∧ Orders cfg trace table := by
  induction hrun with
  | memory => exact ⟨.empty, MemoryQueue.refines_empty, orders_empty⟩
  | redis now => exact ⟨.empty, Redis.refines_empty now, orders_empty⟩
  | call _ worker moment call horderly ih =>
      obtain ⟨table, hrefines, horders⟩ := ih
      have hmarked := marked_of_once hrefines horders.admitted horderly.once
      obtain ⟨reply, table', hanswer, hsame, hrefines', hretry⟩ := hrefines.answers_now hmarked
      exact ⟨table', hrefines', horders.cons hrefines.keyed hanswer hsame hretry⟩

theorem timeout_of_claimed {moment : Moment} {set_order : SetOrder} {timeout : ℚ}
    {claimed : Option JobEnvelope}
    (h : (backend.call cfg moment (.claim set_order timeout)).1 = .ok (.claimed claimed)) :
    0 < timeout := by
  by_contra htimeout
  cases backend with
  | memory queue =>
      simp [Backend.call, MemoryQueue.call, MemoryQueue.claim, not_lt.mp htimeout,
        Except.map] at h
  | redis server =>
      simp [Backend.call, Redis.call, QueueCall.on_redis, RedisQueue.claim,
        not_lt.mp htimeout] at h

-- A claim that hands a job out hands it out of the line.
theorem handed_out {moment : Moment} {table table' : JobTable} {now : ℚ≥0}
    {claimed : JobEnvelope} (h : Claims cfg moment table now (some claimed) table')
    (hkeyed : table.Keyed) :
    (table'.jobs claimed.job_id).lease = some (cfg.lease_until now) ∧
      ∃ envelope, JobState.Promoted
        (fun time => moment.shows time ∧ (moment.InOrder → time ≤ now))
        ((table.jobs claimed.job_id).expire cfg moment.now) (.ready envelope) := by
  obtain ⟨ids, waiting, -, hexpired, hpromotes, hpop⟩ := h
  have hpromoted := hpromotes.jobs claimed.job_id
  have hpopped := @pop_jobs cfg _ ((hkeyed.expired hexpired).promotes hpromotes) now
    claimed.job_id
  rw [hexpired.jobs] at hpromoted
  rw [hpop] at hpopped
  dsimp only at hpopped
  generalize waiting.jobs claimed.job_id = before at hpromoted hpopped
  generalize table'.jobs claimed.job_id = after at hpopped
  cases hpopped with
  | left _ hother => exact absurd rfl (hother claimed rfl)
  | handed => exact ⟨rfl, _, hpromoted⟩

end Backoff

open Backoff

-- In a run whose clock does not go back and that admits no job twice, a claim hands out a
-- job that a retry has put off only at a reading of the clock that is not before the end
-- of the backoff; the lease it sets is counted from that reading.
theorem backoff_honoured {ι : Type} {cfg : Config} {trace : List (Performed ι)}
    {backend : Backend} (hrun : Calls cfg Orderly trace backend) {retried : Performed ι}
    (hretried : retried ∈ trace) {envelope : JobEnvelope} {error : String}
    (hcall : retried.call = .retry envelope error)
    (hresult : retried.result = .ok (.outcome .scheduled)) (worker : ι) {moment : Moment}
    {set_order : SetOrder} {timeout : ℚ} {claimed : JobEnvelope}
    (horderly : Orderly trace backend ⟨worker, moment, .claim set_order timeout,
      (backend.call cfg moment (.claim set_order timeout)).1⟩)
    (hclaimed : (backend.call cfg moment (.claim set_order timeout)).1 =
      .ok (.claimed (some claimed)))
    (hid : claimed.job_id = envelope.job_id) :
    ∃ now, moment.shows now ∧
      ((backend.call cfg moment (.claim set_order timeout)).2.entry claimed.job_id).lease =
        some (cfg.lease_until now) ∧
      (retried.moment.now : ℚ) + cfg.retry_backoff * 2 ^ (max (envelope.attempt - 1) 0).toNat ≤
        now := by
  obtain ⟨table, hrefines, horders⟩ := orders_of_run hrun
  have hlater : ∀ time, moment.shows time → moment.now ≤ time := fun time htime => by
    rcases List.mem_cons.mp htime with rfl | htime
    · exact le_rfl
    · exact (List.pairwise_cons.mp horderly.in_order).1 time htime
  obtain ⟨now, handed, table', hclaims, hsame, hrefines'⟩ :=
    hrefines.claims cfg moment set_order (timeout_of_claimed hclaimed)
  rw [hclaimed] at hsame
  obtain ⟨other, rfl, hdelivered⟩ :=
    Backend.same_claimed_some hsame
  have hother := congrArg JobEnvelope.job_id hdelivered
  simp only [JobEnvelope.delivered_job_id] at hother
  obtain ⟨hlease, stored, hpromoted⟩ := handed_out hclaims hrefines.keyed
  rw [hother] at hlease hpromoted
  refine ⟨now, hclaims.choose_spec.choose_spec.1, (hrefines'.lease_eq _).trans hlease, ?_⟩
  rw [hid] at hpromoted
  rcases horders.waits retried hretried envelope error hcall hresult with hwaits | hreached
  -- It still waits when the claim begins, and the claim promotes it.
  · obtain ⟨waiting, hj⟩ := hwaits
    rw [hj] at hpromoted
    cases hpromoted with
    | due hnow hdue => exact hdue.trans (by exact_mod_cast hnow.2 horderly.in_order)
  -- It was due at a reading of an earlier call.
  · obtain ⟨earlier, hearlier, time, htime, hdue⟩ := hreached
    have hbefore := (horderly.later earlier hearlier time htime).trans (hlater now
      hclaims.choose_spec.choose_spec.1)
    exact hdue.trans (by exact_mod_cast hbefore)

-- The job waits from 1001 to 1002, and a claim that begins meanwhile gets it then.
def put_off : List (Fin 2 × Moment × QueueCall) :=
  [at_time 0 1000 (.enqueue "job" [] "principal" "tenant"),
    at_time 1 1000 (.claim .inserted 1),
    at_time 1 1001 (.retry first_claim "failed")]

theorem backoff_honoured_put_off :
    let run := perform .default [] (.memory .empty) put_off
    let claim := run.2.call .default ⟨1001, [1002]⟩ (.claim .inserted 5)
    ∃ now, (⟨1001, [1002]⟩ : Moment).shows now ∧
      (claim.2.entry "job").lease = some (Config.default.lease_until now) ∧
      (1001 : ℚ) + Config.default.retry_backoff * 2 ^ 0 ≤ now := by
  have hallowed : AllAllowed .default Orderly [] (.memory .empty) put_off := by
    refine ⟨⟨fun _ _ _ _ _ _ hadmitted => ?_, ?_, ?_⟩, ⟨fun _ _ _ _ hcall => ?_, ?_, ?_⟩,
      ⟨fun _ _ _ _ hcall => ?_, ?_, ?_⟩, trivial⟩
    · obtain ⟨_, hmem, -⟩ := hadmitted
      cases hmem
    · exact List.pairwise_singleton _ _
    · exact fun _ hmem => absurd hmem List.not_mem_nil
    · cases hcall
    · exact List.pairwise_singleton _ _
    · rintro _ (_ | ⟨_, ⟨⟩⟩) time htime
      simp only [Moment.shows, List.mem_singleton] at htime ⊢
      rw [htime]
    · cases hcall
    · exact List.pairwise_singleton _ _
    · have hle : (1000 : ℚ≥0) ≤ 1001 := by decide +kernel
      rintro _ (_ | ⟨_, _ | ⟨_, ⟨⟩⟩⟩) time htime <;>
        simp only [Moment.shows, List.mem_singleton] at htime ⊢ <;>
        rw [htime] <;> exact hle
  have hrun := Calls.perform .memory put_off hallowed
  have hclaimed : ((perform .default [] (.memory .empty) put_off).2.call .default ⟨1001, [1002]⟩
      (.claim .inserted 5)).1 = .ok (.claimed (some { first_claim with
        attempt := 2, last_error := some "failed", retry_at := some 1002 })) := by
    with_unfolding_all rfl
  have horderly : Orderly (perform .default [] (.memory .empty) put_off).1
      (perform .default [] (.memory .empty) put_off).2 ⟨0, ⟨1001, [1002]⟩, .claim .inserted 5,
        ((perform .default [] (.memory .empty) put_off).2.call .default ⟨1001, [1002]⟩
          (.claim .inserted 5)).1⟩ := by
    refine ⟨fun _ _ _ _ hcall => (by cases hcall), ?_, ?_⟩
    · have hle : (1001 : ℚ≥0) ≤ 1002 := by decide +kernel
      exact List.pairwise_pair.mpr hle
    · have hle : (1000 : ℚ≥0) ≤ 1001 := by decide +kernel
      rintro _ (_ | ⟨_, _ | ⟨_, _ | ⟨_, ⟨⟩⟩⟩⟩) time htime <;>
        simp only [Moment.shows, List.mem_singleton] at htime ⊢ <;>
        rw [htime]
      · rfl
      all_goals exact hle
  exact backoff_honoured hrun (List.mem_cons_self ..) rfl rfl 0 horderly hclaimed rfl

end ResearchAgent.JobQueue
