import Mathlib.Algebra.Order.BigOperators.Group.Finset
import ResearchAgent.JobQueue.Caps

namespace ResearchAgent.JobQueue

open Library JobTable Attempts

-- The job still waits for a worker, or a worker has it.
def JobState.is_unsettled : JobState → Bool
  | .ready _ | .inflight _ _ | .scheduled _ _ => true
  | .absent | .dead _ => false

namespace Backend

def Unsettled : Backend → String → Prop
  | memory queue, job_id =>
      job_id ∈ queue.ready ∨ queue.inflight.contains job_id ∨ queue.scheduled.contains job_id
  | redis server, job_id =>
      job_id ∈ server.lists .ready ∨ job_id ∈ server.lists .inflight ∨
        (server.zsets .scheduled).contains job_id

-- When the leases run out and the retries are due.
def deadlines : Backend → List (String × ℚ)
  | memory queue => queue.inflight.entries ++ queue.scheduled.entries
  | redis server => (server.zsets .leases).entries ++ (server.zsets .scheduled).entries

-- All of them have passed.
def Overdue (backend : Backend) (moment : Moment) : Prop :=
  ∀ deadline ∈ backend.deadlines, ∀ now ∈ moment.now :: moment.later, deadline.2 ≤ (now : ℚ)

instance (backend : Backend) (moment : Moment) : Decidable (backend.Overdue moment) :=
  inferInstanceAs (Decidable (∀ _ ∈ _, ∀ _ ∈ _, _))

end Backend

-- What any workers do from some point of a run on while nothing is enqueued. Of the calls,
-- so many are claims made when all deadlines have passed.
inductive Drains {ι : Type} (cfg : Config) (start : List (Performed ι)) (first : Backend) :
    ℕ → List (Performed ι) → Backend → Prop
  | start : Drains cfg start first 0 start first
  | call {polls trace backend} (h : Drains cfg start first polls trace backend) (worker : ι)
      (moment : Moment) (call : QueueCall) (hlatest : OfLatest trace call)
      (henqueue : ¬call.enqueues) :
      Drains cfg start first polls
        (⟨worker, moment, call, (backend.call cfg moment call).1⟩ :: trace)
        (backend.call cfg moment call).2
  | poll {polls trace backend} (h : Drains cfg start first polls trace backend) (worker : ι)
      (moment : Moment) (set_order : SetOrder) (timeout : ℚ) (htimeout : 0 < timeout)
      (hoverdue : backend.Overdue moment) :
      Drains cfg start first (polls + 1)
        (⟨worker, moment, .claim set_order timeout,
          (backend.call cfg moment (.claim set_order timeout)).1⟩ :: trace)
        (backend.call cfg moment (.claim set_order timeout)).2

-- The claims that handed a job out.
def handed_out {ι : Type} (trace : List (Performed ι)) : ℕ :=
  trace.countP fun performed =>
    match performed.call, performed.result with
    | .claim _ _, .ok (.claimed (some _)) => true
    | _, _ => false

-- How often the job may still be handed out.
def remaining {ι : Type} (cfg : Config) (trace : List (Performed ι)) (job_id : String) : ℕ :=
  (cfg.max_attempts - (attempts job_id trace).length).toNat

namespace Draining

variable {cfg : Config} {clock : ℚ≥0 → Prop} {table table' : JobTable} {job_id : String}
  {state state' : JobState} {call : QueueCall} {reply : Except QueueError QueueReply}

theorem unsettled_iff {backend : Backend} (h : backend.Refines table) (job_id : String) :
    backend.Unsettled job_id ↔ (table.jobs job_id).is_unsettled = true := by
  cases backend with
  | memory queue =>
      simp only [Backend.Unsettled, Dict.contains, MemoryQueue.Refines.lease h,
        MemoryQueue.Refines.due h, MemoryQueue.Refines.ready h, table.mem_ready]
      cases table.jobs job_id <;> simp [JobState.is_unsettled]
  | redis server =>
      simp only [Backend.Unsettled, Dict.contains, Redis.Refines.mem_inflight h,
        Redis.Refines.due h, Redis.Refines.ready h, List.mem_reverse, table.mem_ready]
      cases table.jobs job_id <;> simp [JobState.is_unsettled]

theorem passed_of_overdue {backend : Backend} {moment : Moment} (h : backend.Refines table)
    (hoverdue : backend.Overdue moment) {deadline : ℚ}
    (hdeadline : (table.jobs job_id).lease = some deadline ∨
      (table.jobs job_id).due = some deadline) {now : ℚ≥0} (hnow : moment.shows now) :
    deadline ≤ (now : ℚ) := by
  have hmem : (job_id, deadline) ∈ backend.deadlines := by
    cases backend with
    | memory queue =>
        rw [← MemoryQueue.Refines.lease h, ← MemoryQueue.Refines.due h] at hdeadline
        exact List.mem_append.mpr (hdeadline.imp (Dict.get?_eq_some_iff _ _ _).mp
          (Dict.get?_eq_some_iff _ _ _).mp)
    | redis server =>
        rw [← Redis.Refines.lease h, ← Redis.Refines.due h] at hdeadline
        exact List.mem_append.mpr (hdeadline.imp (Dict.get?_eq_some_iff _ _ _).mp
          (Dict.get?_eq_some_iff _ _ _).mp)
  exact hoverdue _ hmem now hnow

-- Without an enqueue a settled job stays settled.
theorem unsettled_of_move (h : Move cfg clock job_id call reply state state')
    (henqueue : ¬call.enqueues) (hunsettled : state'.is_unsettled = true) :
    state.is_unsettled = true := by
  cases h with
  | left => exact hunsettled
  | admitted => exact absurd rfl henqueue
  | claimed hpromoted hpopped =>
      cases state with
      | ready | inflight | scheduled => rfl
      | absent | dead =>
          cases hpromoted
          cases hpopped
          exact hunsettled
  | acked | buried | removed => cases hunsettled
  | renewed | delayed => rfl
  | recovered =>
      cases state with
      | ready | inflight | scheduled => rfl
      | absent | dead => exact hunsettled

-- What a claim hands out was not settled, and is in flight after it.
theorem unsettled_of_handed {set_order : SetOrder} {timeout : ℚ} {envelope : JobEnvelope}
    (h : Move cfg clock envelope.job_id (.claim set_order timeout) (.ok (.claimed (some envelope)))
      state state') : state.is_unsettled = true ∧ state'.lease.isSome := by
  cases h with
  | left _ hquiet => exact absurd rfl hquiet
  | claimed hpromoted hpopped =>
      refine ⟨?_, ?_⟩
      · cases state with
        | ready | inflight | scheduled => rfl
        | absent | dead =>
            cases hpromoted
            cases hpopped with
            | left _ hother => exact absurd rfl (hother envelope rfl)
      · cases hpopped with
        | left _ hother => exact absurd rfl (hother envelope rfl)
        | handed => rfl

-- Whatever is due at all times is promoted.
theorem due_of_promotes (h : Promotes clock table table')
    (hdue : ∀ due ∈ (table.jobs job_id).due, ∀ now, clock now → due ≤ (now : ℚ)) :
    (table'.jobs job_id).due = none := by
  have hround : ∀ {table : JobTable} {now : ℚ≥0} {ids : List String}, clock now →
      Due now table ids →
      (∀ due ∈ (table.jobs job_id).due, ∀ now, clock now → due ≤ (now : ℚ)) →
      ((table.promote_all ids).jobs job_id).due = none := by
    intro table now ids hnow hids hpassed
    by_cases hmem : job_id ∈ ids
    · obtain ⟨due, hsome, -⟩ := (hids.mem job_id).mp hmem
      obtain ⟨envelope, hj⟩ := scheduled_of_due hsome
      rw [promote_all_jobs hmem hids.nodup hj]
      rfl
    · rw [promote_all_jobs_ne hmem]
      cases hnone : (table.jobs job_id).due with
      | none => rfl
      | some due =>
          exact absurd ((hids.mem job_id).mpr ⟨due, hnone, hpassed due hnone now hnow⟩) hmem
  induction h with
  | last hnow hids => exact hround hnow hids hdue
  | again hnow hids _ ih =>
      apply ih
      intro due hsome
      rw [hround hnow hids hdue] at hsome
      cases hsome

theorem ready_of_pop_none {now : ℚ≥0} (h : (table.pop cfg now).1 = none) :
    table.ready = [] := by
  cases hready : table.ready with
  | nil => rfl
  | cons head rest =>
      obtain ⟨envelope, hj⟩ := ready_of_is_ready ((table.mem_ready head).mp (by simp [hready]))
      rw [pop_of_ready cfg now hready hj] at h
      cases h

-- Expiry leaves no lease that has run out, and what is due.
theorem expire_lease {now : ℚ≥0} (h : ∀ lease ∈ state.lease, lease ≤ (now : ℚ)) :
    (state.expire cfg now).lease = none := by
  cases state with
  | inflight envelope lease_until =>
      simp only [JobState.expire, if_pos (h lease_until rfl), JobState.recovered]
      split <;> rfl
  | absent | ready | scheduled | dead => rfl

theorem expire_due (now : ℚ≥0) : (state.expire cfg now).due = state.due := by
  cases state with
  | inflight envelope lease_until =>
      simp only [JobState.expire, JobState.recovered]
      split
      · split <;> rfl
      · rfl
  | absent | ready | scheduled | dead => rfl

theorem settled_of_parts (hready : state.is_ready = false) (hlease : state.lease = none)
    (hdue : state.due = none) : state.is_unsettled = false := by
  cases state with
  | absent | dead => rfl
  | ready => cases hready
  | inflight => cases hlease
  | scheduled => cases hdue

-- A claim that finds nothing when all deadlines have passed finds all jobs settled.
theorem settled_of_poll {set_order : SetOrder} {timeout : ℚ}
    (h : Answers cfg clock table (.claim set_order timeout) (.ok (.claimed none)) table')
    (hpassed : ∀ job_id deadline, (table.jobs job_id).lease = some deadline ∨
      (table.jobs job_id).due = some deadline → ∀ now, clock now → deadline ≤ (now : ℚ))
    (job_id : String) : (table'.jobs job_id).is_unsettled = false := by
  generalize hreply : (Except.ok (QueueReply.claimed none) : Except QueueError QueueReply) = reply
    at h
  cases h with
  | claim_timeout => cases hreply
  | @claim _ _ now ids waiting now' _ hnow hexpired hpromotes =>
      have hnone : (waiting.pop cfg now').1 = none := by
        simpa using hreply.symm
      have hempty := ready_of_pop_none hnone
      rw [pop_of_empty cfg now' hempty]
      apply settled_of_parts
      · have hmem := waiting.mem_ready job_id
        simpa [hempty] using hmem
      · have hpromoted := hpromotes.jobs job_id
        rw [hexpired.jobs] at hpromoted
        have hlease : ((table.jobs job_id).expire cfg now).lease = none :=
          expire_lease fun lease hsome => hpassed job_id lease (.inl hsome) now hnow
        generalize (table.jobs job_id).expire cfg now = state at hpromoted hlease
        generalize waiting.jobs job_id = state' at hpromoted
        cases hpromoted with
        | left => exact hlease
        | due => rfl
      · apply due_of_promotes hpromotes
        rw [hexpired.jobs, expire_due]
        exact fun due hsome => hpassed job_id due (.inr hsome)

section Counts

variable {ι : Type} {trace : List (Performed ι)} {performed : Performed ι}

-- A call that does not enqueue never gives a job more claims.
theorem remaining_le (henqueue : ¬performed.call.enqueues) (job_id : String) :
    remaining cfg (performed :: trace) job_id ≤ remaining cfg trace job_id := by
  have hlength :
      (attempts job_id trace).length ≤ (attempts job_id (performed :: trace)).length := by
    obtain ⟨worker, moment, call, result⟩ := performed
    cases call with
    | enqueue => exact absurd rfl henqueue
    | claim =>
        rcases result with error | (value | (_ | envelope) | value | value | value)
        all_goals try exact le_rfl
        simp only [attempts, count_claim]
        split
        · exact Nat.le_succ _
        · exact le_rfl
    | ack | renew | retry | recover_stale | dead_letters | remove_dead_letter
    | dead_letter_count => exact le_rfl
  unfold remaining
  omega

theorem total_le (henqueue : ¬performed.call.enqueues) (ids : Finset String) :
    ∑ job_id ∈ ids, remaining cfg (performed :: trace) job_id ≤
      ∑ job_id ∈ ids, remaining cfg trace job_id :=
  Finset.sum_le_sum fun job_id _ => remaining_le henqueue job_id

-- Handing a job out takes one of its claims.
theorem total_lt {worker : ι} {moment : Moment} {set_order : SetOrder} {timeout : ℚ}
    {envelope : JobEnvelope} {ids : Finset String} (hmem : envelope.job_id ∈ ids)
    (hexact : Caps.AllExact cfg (⟨worker, moment, .claim set_order timeout,
      .ok (.claimed (some envelope))⟩ :: trace) table')
    (hlease : (table'.jobs envelope.job_id).lease.isSome) :
    ∑ job_id ∈ ids, remaining cfg (⟨worker, moment, .claim set_order timeout,
      .ok (.claimed (some envelope))⟩ :: trace) job_id <
      ∑ job_id ∈ ids, remaining cfg trace job_id := by
  have henqueue : ¬(QueueCall.claim set_order timeout).enqueues := Bool.false_ne_true
  refine Finset.sum_lt_sum (fun job_id _ => remaining_le henqueue job_id)
    ⟨envelope.job_id, hmem, ?_⟩
  have hcap := hexact.length envelope.job_id
  obtain ⟨lease_until, hsome⟩ := Option.isSome_iff_exists.mp hlease
  obtain ⟨current, hj⟩ := inflight_of_lease hsome
  rw [hj] at hcap
  have hle := hcap.2.2
  have hattempts : attempts envelope.job_id (⟨worker, moment, .claim set_order timeout,
      .ok (.claimed (some envelope))⟩ :: trace) =
      envelope.attempt :: attempts envelope.job_id trace := if_pos rfl
  rw [hattempts, List.length_cons] at hle
  unfold remaining
  rw [hattempts, List.length_cons]
  push_cast at hle ⊢
  omega

end Counts

-- What is known of the queue while it drains.
structure Accounted {ι : Type} (cfg : Config) (ids : Finset String) (start : List (Performed ι))
    (polls : ℕ) (trace : List (Performed ι)) (table : JobTable) : Prop where
  exact : Caps.AllExact cfg trace table
  unsettled : ∀ job_id, (table.jobs job_id).is_unsettled = true → job_id ∈ ids
  handed : handed_out trace + ∑ job_id ∈ ids, remaining cfg trace job_id ≤
    handed_out start + ∑ job_id ∈ ids, remaining cfg start job_id
  polls : (∀ job_id, (table.jobs job_id).is_unsettled = false) ∨
    polls + ∑ job_id ∈ ids, remaining cfg trace job_id ≤ ∑ job_id ∈ ids, remaining cfg start job_id

section Steps

variable {ι : Type} {ids : Finset String} {start trace : List (Performed ι)} {polls : ℕ}
  {worker : ι} {moment : Moment} {result : Except QueueError QueueReply}

theorem delivered_enqueues (call : QueueCall) : call.delivered.enqueues = call.enqueues := by
  cases call <;> rfl

theorem unsettled_before (hkeyed : table.Keyed)
    (hanswer : Answers cfg clock table call.delivered reply table') (henqueue : ¬call.enqueues)
    (h : (table'.jobs job_id).is_unsettled = true) : (table.jobs job_id).is_unsettled = true :=
  unsettled_of_move (hanswer.moves hkeyed job_id) (by rwa [delivered_enqueues]) h

theorem settled_after (hkeyed : table.Keyed)
    (hanswer : Answers cfg clock table call.delivered reply table') (henqueue : ¬call.enqueues)
    (h : ∀ job_id, (table.jobs job_id).is_unsettled = false) (job_id : String) :
    (table'.jobs job_id).is_unsettled = false := by
  by_contra hjob
  rw [Bool.not_eq_false] at hjob
  exact absurd (unsettled_before hkeyed hanswer henqueue hjob) (by simp [h job_id])

-- Either a claim has handed out a job that was not settled, and has used one of its claims, or
-- the count stays.
theorem handed_or_not (hkeyed : table.Keyed) (hexact : Caps.AllExact cfg
      (⟨worker, moment, call, result⟩ :: trace) table')
    (hunsettled : ∀ job_id, (table.jobs job_id).is_unsettled = true → job_id ∈ ids)
    (hanswer : Answers cfg clock table call.delivered reply table')
    (hsame : SameAnswer result reply) :
    (∃ set_order timeout envelope, call = .claim set_order timeout ∧
      result = .ok (.claimed (some envelope)) ∧
      handed_out (⟨worker, moment, call, result⟩ :: trace) = handed_out trace + 1 ∧
      ∑ job_id ∈ ids, remaining cfg (⟨worker, moment, call, result⟩ :: trace) job_id <
        ∑ job_id ∈ ids, remaining cfg trace job_id) ∨
    (∀ set_order timeout envelope, call = .claim set_order timeout →
      result ≠ .ok (.claimed (some envelope))) ∧
    handed_out (⟨worker, moment, call, result⟩ :: trace) = handed_out trace := by
  cases call with
  | claim set_order timeout =>
      rcases result with error | (value | (_ | envelope) | value | value | value)
      case ok.claimed.some =>
        obtain ⟨handed, rfl, hdelivered⟩ := hsame.symm.eq_claimed
        cases handed with
        | none => cases hdelivered
        | some handed =>
            have hid : handed.job_id = envelope.job_id := by
              simpa using congrArg JobEnvelope.job_id (Option.some.inj hdelivered)
            obtain ⟨hbefore, hafter⟩ := unsettled_of_handed (hanswer.moves hkeyed handed.job_id)
            rw [hid] at hbefore hafter
            exact .inl ⟨set_order, timeout, envelope, rfl, rfl, List.countP_cons_of_pos rfl,
              total_lt (hunsettled _ hbefore) hexact hafter⟩
      all_goals exact .inr ⟨by simp, List.countP_cons_of_neg (by simp)⟩
  | enqueue | ack | renew | retry | recover_stale | dead_letters | remove_dead_letter
  | dead_letter_count => exact .inr ⟨by simp, List.countP_cons_of_neg (by simp)⟩

theorem Accounted.step (h : Accounted cfg ids start polls trace table) (hkeyed : table.Keyed)
    (hanswer : Answers cfg clock table call.delivered reply table')
    (hsame : SameAnswer result reply) (hlatest : OfLatest trace call) (henqueue : ¬call.enqueues) :
    Accounted cfg ids start polls (⟨worker, moment, call, result⟩ :: trace) table' := by
  have hexact : Caps.AllExact cfg (⟨worker, moment, call, result⟩ :: trace) table' :=
    h.exact.cons hkeyed hanswer hsame hlatest
  have htotal := @total_le cfg ι trace ⟨worker, moment, call, result⟩ henqueue ids
  refine ⟨hexact, fun job_id hjob => h.unsettled job_id ?_, ?_, ?_⟩
  · exact unsettled_before hkeyed hanswer henqueue hjob
  · have hhanded := h.handed
    rcases handed_or_not hkeyed hexact h.unsettled hanswer hsame with
      ⟨-, -, -, -, -, hcount, hless⟩ | ⟨-, hcount⟩
    · omega
    · omega
  · rcases h.polls with hsettled | hpolls
    · exact .inl (settled_after hkeyed hanswer henqueue hsettled)
    · right
      omega

theorem Accounted.poll {set_order : SetOrder} {timeout : ℚ} (htimeout : 0 < timeout)
    (h : Accounted cfg ids start polls trace table) (hkeyed : table.Keyed)
    (hanswer : Answers cfg clock table (.claim set_order timeout) reply table')
    (hsame : SameAnswer result reply)
    (hpassed : ∀ job_id deadline, (table.jobs job_id).lease = some deadline ∨
      (table.jobs job_id).due = some deadline → ∀ now, clock now → deadline ≤ (now : ℚ)) :
    Accounted cfg ids start (polls + 1)
      (⟨worker, moment, .claim set_order timeout, result⟩ :: trace) table' := by
  have hcall := @Accounted.step cfg clock table table' (.claim set_order timeout) reply ι ids start
    trace polls worker moment result h hkeyed hanswer hsame trivial Bool.false_ne_true
  refine ⟨hcall.exact, hcall.unsettled, hcall.handed, ?_⟩
  rcases h.polls with hsettled | hpolls
  · exact .inl (@settled_after cfg clock table table' (.claim set_order timeout) reply hkeyed
      hanswer Bool.false_ne_true hsettled)
  · rcases handed_or_not hkeyed hcall.exact h.unsettled hanswer hsame with
      ⟨-, -, -, -, -, -, hless⟩ | ⟨hnone, -⟩
    · right
      omega
    · left
      obtain ⟨claimed, rfl⟩ : ∃ claimed, reply = .ok (.claimed claimed) := by
        cases hanswer with
        | claim_timeout hexpired => exact absurd htimeout (not_lt.mpr hexpired)
        | claim => exact ⟨_, rfl⟩
      obtain ⟨handed, hresult, hdelivered⟩ := hsame.eq_claimed
      cases handed with
      | some envelope => exact absurd hresult (hnone _ _ envelope rfl)
      | none =>
          obtain rfl : claimed = none := Option.map_eq_none_iff.mp hdelivered.symm
          exact settled_of_poll hanswer hpassed

end Steps

theorem accounted {ι : Type} {start trace : List (Performed ι)} {first backend : Backend}
    {polls : ℕ} {ids : Finset String}
    (hstart : Calls cfg (fun trace backend performed =>
      backend.Marked performed.moment performed.call ∧ OfLatest trace performed.call) start first)
    (hids : ∀ job_id, first.Unsettled job_id → job_id ∈ ids)
    (hdrains : Drains cfg start first polls trace backend) :
    ∃ table, backend.Refines table ∧ Accounted cfg ids start polls trace table := by
  induction hdrains with
  | start =>
      obtain ⟨table, hrefines, hexact⟩ := Caps.exact_of_run hstart
      refine ⟨table, hrefines, hexact, fun job_id hjob => hids job_id ?_, le_rfl, .inr (by simp)⟩
      exact (unsettled_iff hrefines job_id).mpr hjob
  | @call polls trace backend _ worker moment call hlatest henqueue ih =>
      obtain ⟨table, hrefines, haccounted⟩ := ih
      have hmarked : backend.Marked moment call := by
        cases call with
        | enqueue => exact absurd rfl henqueue
        | _ => trivial
      obtain ⟨reply, table', hanswer, hsame, hrefines'⟩ := hrefines.answers_marked cfg hmarked
      exact ⟨table', hrefines', haccounted.step hrefines.keyed hanswer hsame hlatest henqueue⟩
  | @poll polls trace backend _ worker moment set_order timeout htimeout hoverdue ih =>
      obtain ⟨table, hrefines, haccounted⟩ := ih
      obtain ⟨reply, table', hanswer, hsame, hrefines'⟩ :=
        @Backend.Refines.answers_marked backend table moment (.claim set_order timeout) hrefines cfg
          trivial
      refine ⟨table', hrefines', haccounted.poll htimeout hrefines.keyed hanswer hsame ?_⟩
      exact fun job_id deadline hdeadline now hnow =>
        passed_of_overdue hrefines hoverdue hdeadline hnow

theorem drained {ι : Type} {start trace : List (Performed ι)} {first backend : Backend}
    {polls : ℕ} (hstart : Calls cfg (fun trace backend performed =>
      backend.Marked performed.moment performed.call ∧ OfLatest trace performed.call) start first)
    (hdrains : Drains cfg start first polls trace backend) (ids : Finset String)
    (hids : ∀ job_id, first.Unsettled job_id → job_id ∈ ids) :
    ∃ table, backend.Refines table ∧
      handed_out trace ≤ handed_out start + ∑ job_id ∈ ids, remaining cfg start job_id ∧
      (∑ job_id ∈ ids, remaining cfg start job_id < polls →
        ∀ job_id, (table.jobs job_id).is_unsettled = false) := by
  obtain ⟨table, hrefines, haccounted⟩ := accounted hstart hids hdrains
  refine ⟨table, hrefines, ?_, fun hpolls => ?_⟩
  · have hhanded := haccounted.handed
    omega
  · rcases haccounted.polls with hsettled | hless
    · exact hsettled
    · omega

end Draining

-- Nothing that is in the queue stays unsettled: without an enqueue its jobs are handed out no
-- more often than they may still be, and once more than so many claims have come when all leases
-- had run out and all retries were due, every job has been acknowledged or is a dead letter.
theorem queue_drains {ι : Type} {cfg : Config} {start trace : List (Performed ι)}
    {first backend : Backend} {polls : ℕ}
    (hstart : Calls cfg (fun trace backend performed =>
      backend.Marked performed.moment performed.call ∧ OfLatest trace performed.call) start first)
    (hdrains : Drains cfg start first polls trace backend) (ids : Finset String)
    (hids : ∀ job_id, first.Unsettled job_id → job_id ∈ ids) :
    handed_out trace ≤ handed_out start + ∑ job_id ∈ ids, remaining cfg start job_id ∧
      (∑ job_id ∈ ids, remaining cfg start job_id < polls →
        ∀ job_id, ¬backend.Unsettled job_id) := by
  obtain ⟨table, hrefines, hhanded, hsettled⟩ := Draining.drained hstart hdrains ids hids
  refine ⟨hhanded, fun hpolls job_id hunsettled => ?_⟩
  rw [Draining.unsettled_iff hrefines, hsettled hpolls job_id] at hunsettled
  cases hunsettled

-- The first attempt at the job fails and the other two are left by their workers.
theorem queue_drains_waiting_job :
    let run := perform .default [] (.redis (.empty 1000)) waiting
    ∃ (trace : List (Performed (Fin 1))) (backend : Backend),
      Drains .default run.1 run.2 4 trace backend ∧ ∀ job_id, ¬backend.Unsettled job_id := by
  intro run
  have hstart : Calls .default (fun trace backend performed =>
      backend.Marked performed.moment performed.call ∧ OfLatest trace performed.call)
      run.1 run.2 := by
    refine .perform (.redis 1000) _ ⟨⟨fun _ hlive => ?_, trivial⟩, trivial⟩
    exact absurd hlive (by decide)
  have hids : ∀ job_id, run.2.Unsettled job_id → job_id ∈ ({"job"} : Finset String) := by
    rintro job_id (hready | hinflight | hscheduled)
    · exact Finset.mem_singleton.mpr (List.mem_singleton.mp hready)
    · cases (hinflight : job_id ∈ ([] : List String))
    · cases (hscheduled : false = true)
  have hclaimed := (Drains.start : Drains .default run.1 run.2 _ _ _).poll 0
    ⟨1000, []⟩ .inserted 1 (by decide) (by decide +kernel)
  have hfailed := hclaimed.call 0 ⟨1001, []⟩ (.retry first_claim "failed")
    (by with_unfolding_all rfl) (by decide)
  have hagain := hfailed.poll 0 ⟨1400, []⟩ .inserted 1 (by decide) (by decide +kernel)
  have hlapsed := hagain.poll 0 ⟨1800, []⟩ .inserted 1 (by decide) (by decide +kernel)
  have hdrains := hlapsed.poll 0 ⟨2200, []⟩ .inserted 1 (by decide) (by decide +kernel)
  exact ⟨_, _, hdrains, (queue_drains hstart hdrains {"job"} hids).2 (by decide +kernel)⟩

end ResearchAgent.JobQueue
