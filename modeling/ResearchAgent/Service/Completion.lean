import ResearchAgent.JobQueue.Draining
import ResearchAgent.Service.Orphans
import ResearchAgent.Service.Reconciliation

namespace ResearchAgent.Service

open Library JobQueue

variable {ι : Type} {cfg : Config}

namespace Completion

open Orphans (Sober)

-- What the job was handed out with last.
def latest_handed (job_id : String) : List (ServiceEvent ι) → Option JobEnvelope
  | [] => none
  | ⟨_, .queue (.claim _ _), .ok (.claimed (some envelope))⟩ :: rest =>
      if envelope.job_id = job_id then some envelope else latest_handed job_id rest
  | _ :: rest => latest_handed job_id rest

def hands_out : ServiceEvent ι → Bool
  | ⟨_, .queue (.claim _ _), .ok (.claimed (some _))⟩ => true
  | _ => false

def deliveries (trace : List (ServiceEvent ι)) : ℕ := trace.countP hands_out

-- The claim that the operation ends.
def ended_claim : ServiceOp → Option JobEnvelope
  | .queue (.ack envelope) | .queue (.retry envelope _) => some envelope
  | _ => none

-- The condition on a step: nobody ends a claim after the job was handed out again, and no
-- delivery stores an active record over a final one.
def Prompt (pool : ServicePool ι (job_queue cfg)) (event : Option (ServiceEvent ι)) : Prop :=
  Sober pool event ∧ ∀ happened ∈ event, ∀ envelope ∈ ended_claim happened.op,
    latest_handed envelope.job_id pool.world.trace = some envelope

def is_overdue (backend : Backend) (moment : Moment) : Bool := backend.Overdue moment

-- The move is a claim that takes effect when all leases have run out and all retries are due.
def polls_overdue (pool : ServicePool ι (job_queue cfg)) (move : ι × Outcome (job_queue cfg)) :
    Bool :=
  match pool.threads move.1 with
  | .call (.queue (.claim _ timeout)) _ =>
      move.2.fault.isNone && 0 < timeout && is_overdue pool.world.state.queue move.2.queue
  | _ => false

def overdue_polls [DecidableEq ι] (settings : Settings) :
    ServicePool ι (job_queue cfg) → List (ι × Outcome (job_queue cfg)) → ℕ
  | _, [] => 0
  | pool, move :: rest =>
      (polls_overdue pool move).toNat +
        overdue_polls settings (pool.advance (service_perform settings) move) rest

section Programs

variable {settings : Settings}

-- Nothing is enqueued.
def Admitless : ServiceOp → Prop
  | .queue (.enqueue _ _ _ _) => False
  | _ => True

theorem Lookup.admitless {op : ServiceOp} (h : Lookup op) : Admitless op := by
  cases op <;> first | exact h.elim | trivial

theorem Review.admitless {op : ServiceOp} (h : Review op) : Admitless op := by
  cases op with
  | queue => exact h.elim
  | _ => trivial

theorem record_failure_uses (envelope : JobEnvelope) (actor : Principal) (job : JobStatus) :
    (ResearchProcessor.record_failure settings envelope actor job).uses Admitless := by
  unfold ResearchProcessor.record_failure
  split
  · exact Program.uses_bind (perform_uses trivial) fun _ =>
      Program.uses_bind (perform_uses trivial) fun _ =>
      Program.uses_bind (perform_uses trivial) fun _ => perform_uses trivial
  · exact Program.uses_bind (perform_uses trivial) fun _ => perform_uses trivial

theorem research_uses (envelope : JobEnvelope) :
    (ResearchProcessor.research settings envelope).uses Admitless := by
  refine Program.uses_bind (lift_uses _) fun request =>
    Program.uses_bind (perform_uses trivial) fun state => ?_
  split <;> trivial

theorem call_uses (envelope : JobEnvelope) :
    (ResearchProcessor.call settings envelope).uses Admitless := by
  refine Program.uses_bind (perform_uses trivial) fun found => ?_
  cases found with
  | none => trivial
  | some job =>
      refine Program.uses_bind (lift_uses _) fun actor =>
        Program.uses_bind (perform_uses trivial) fun _ =>
        Program.uses_bind (perform_uses trivial) fun _ =>
        Program.uses_bind (Program.uses_attempt (research_uses envelope) fun error =>
          Program.uses_bind (record_failure_uses envelope actor _) fun _ => trivial) fun state => ?_
      exact Program.uses_bind (lift_uses _) fun report =>
        Program.uses_bind (perform_uses trivial) fun _ =>
        Program.uses_bind (perform_uses trivial) fun completed_at =>
        Program.uses_bind (perform_uses trivial) fun _ =>
        Program.uses_bind (perform_uses trivial) fun _ => perform_uses trivial

theorem reconcile_uses (envelope : JobEnvelope) :
    (ResearchProcessor.reconcile envelope).uses Admitless := by
  refine Program.uses_bind (perform_uses trivial) fun found => ?_
  cases found with
  | none => trivial
  | some job =>
      simp only
      split
      · exact Program.uses_bind (queue_uses trivial) fun _ => trivial
      · exact Program.uses_bind (perform_uses trivial) fun _ =>
          Program.uses_bind (perform_uses trivial) fun _ =>
          Program.uses_bind (perform_uses trivial) fun _ =>
          Program.uses_bind (lift_uses _) fun _ =>
          Program.uses_bind (perform_uses trivial) fun _ =>
          Program.uses_bind (queue_uses trivial) fun _ => trivial

theorem reconcile_dead_letters_uses :
    ResearchProcessor.reconcile_dead_letters.uses Admitless := by
  refine Program.uses_bind (queue_uses trivial) fun envelopes => ?_
  induction envelopes with
  | nil => trivial
  | cons envelope rest ih => exact Program.uses_bind (reconcile_uses envelope) fun _ => ih

theorem process_uses (envelope : JobEnvelope) :
    (Worker.process settings envelope).uses Admitless := by
  refine Program.uses_bind (Program.uses_attempt (call_uses envelope) fun error =>
    Program.uses_bind (perform_uses trivial) fun _ =>
    Program.uses_bind (queue_uses trivial) fun _ => trivial) fun _ =>
    Program.uses_bind (perform_uses trivial) fun _ =>
    Program.uses_bind (queue_uses trivial) fun acknowledged => ?_
  cases acknowledged <;> trivial

theorem run_once_uses (set_order : SetOrder) :
    (Worker.run_once settings set_order).uses Admitless := by
  refine Program.uses_bind reconcile_dead_letters_uses fun _ =>
    Program.uses_bind (queue_uses trivial) fun claimed => ?_
  cases claimed with
  | none => trivial
  | some envelope => exact process_uses envelope

theorem activity_uses {activity : Activity} (h : activity.submits = false) :
    (activity.program settings).uses Admitless := by
  cases activity with
  | request principal asked =>
      refine Program.uses_bind ?_ fun _ => trivial
      cases asked with
      | submit => cases h
      | get job_id =>
          exact Program.uses_bind (Program.uses_mono (fun _ => Lookup.admitless)
            (get_research_result_uses job_id)) fun _ => trivial
      | list limit =>
          exact Program.uses_bind (Program.uses_mono (fun _ => Lookup.admitless)
            (list_jobs_uses limit)) fun _ => trivial
      | approve job_id =>
          exact Program.uses_bind (Program.uses_mono (fun _ => Review.admitless)
            (approve_research_uses job_id)) fun _ => trivial
      | reject job_id reason =>
          exact Program.uses_bind (Program.uses_mono (fun _ => Review.admitless)
            (reject_research_uses job_id reason)) fun _ => trivial
  | deliver envelope => exact Program.uses_bind (call_uses envelope) fun _ => trivial
  | reconcile => exact Program.uses_bind reconcile_dead_letters_uses fun _ => trivial
  | run_once set_order => exact Program.uses_bind (run_once_uses set_order) fun _ => trivial
  | heartbeat envelope beats =>
      exact Program.uses_bind (renew_lease_uses trivial beats) fun _ => trivial

end Programs

section Mirrors

-- The calls on the queue in a run of the service, after those of `start`.
structure Mirrors (start : List (Performed ι)) (events : List (ServiceEvent ι))
    (calls : List (Performed ι)) : Prop where
  latest : ∀ job_id, latest job_id calls = (latest_handed job_id events).or (latest job_id start)
  handed_out : handed_out calls = deliveries events + handed_out start

variable {start calls : List (Performed ι)} {events : List (ServiceEvent ι)} {thread : ι}

theorem mirrors_start : Mirrors start [] start where
  latest _ := rfl
  handed_out := (Nat.zero_add _).symm

-- What is not a call that takes effect.
theorem Mirrors.other (h : Mirrors start events calls) {op : ServiceOp} {reply : op.Reply}
    (hop : (∀ call, op ≠ .queue call) ∨ ∃ error, reply = .error error) :
    Mirrors start (⟨thread, op, reply⟩ :: events) calls := by
  have hquiet : (∀ job_id, latest_handed job_id (⟨thread, op, reply⟩ :: events) =
      latest_handed job_id events) ∧ hands_out (⟨thread, op, reply⟩ : ServiceEvent ι) = false := by
    rcases hop with hop | ⟨error, rfl⟩
    · cases op with
      | queue call => exact absurd rfl (hop call)
      | _ => exact ⟨fun _ => rfl, rfl⟩
    · cases op with
      | queue call => cases call <;> exact ⟨fun _ => rfl, rfl⟩
      | _ => exact ⟨fun _ => rfl, rfl⟩
  refine ⟨fun job_id => ?_, ?_⟩
  · rw [hquiet.1, h.latest]
  · rw [h.handed_out, deliveries, deliveries, List.countP_cons_of_neg (by simp [hquiet.2])]

theorem Mirrors.call (h : Mirrors start events calls) (worker : ι) (moment : Moment)
    (call : QueueCall) (result : Except QueueError QueueReply) :
    Mirrors start (⟨thread, .queue call, result.mapError .QueueError⟩ :: events)
      (⟨worker, moment, call, result⟩ :: calls) := by
  cases call with
  | claim set_order timeout =>
      rcases result with error | (value | (_ | envelope) | value | value | value)
      · exact ⟨h.latest, h.handed_out⟩
      · exact ⟨h.latest, h.handed_out⟩
      · exact ⟨h.latest, h.handed_out⟩
      · refine ⟨fun job_id => ?_, ?_⟩
        · simp only [JobQueue.latest, Except.mapError, latest_handed]
          by_cases hid : envelope.job_id = job_id
          · rw [if_pos hid, if_pos hid]
            rfl
          · rw [if_neg hid, if_neg hid]
            exact h.latest job_id
        · have hhanded := h.handed_out
          simp only [JobQueue.handed_out, deliveries, Except.mapError, List.countP_cons, hands_out,
            if_true] at hhanded ⊢
          omega
      · exact ⟨h.latest, h.handed_out⟩
      · exact ⟨h.latest, h.handed_out⟩
      · exact ⟨h.latest, h.handed_out⟩
  | _ => exact ⟨h.latest, h.handed_out⟩

end Mirrors

section Runs

variable [DecidableEq ι] {settings : Settings} {start : List (Performed ι)} {first : Backend}
  {polls : ℕ} {pool : ServicePool ι (job_queue cfg)}

-- What is known of the service while its queue drains.
structure Drained (start : List (Performed ι)) (first : Backend) (polls : ℕ)
    (pool : ServicePool ι (job_queue cfg)) : Prop where
  queue : ∃ calls, Drains cfg start first polls calls pool.world.state.queue ∧
    Mirrors start pool.world.trace calls
  admitless : ∀ thread, (pool.threads thread).uses Admitless

omit [DecidableEq ι] in
theorem polls_overdue_eq_false {move : ι × Outcome (job_queue cfg)} {op : ServiceOp}
    {next : op.Reply → ServiceProgram Answer} (hthread : pool.threads move.1 = .call op next)
    (hop : (∀ call, op ≠ .queue call) ∨ move.2.fault.isNone = false) :
    polls_overdue pool move = false := by
  unfold polls_overdue
  rw [hthread]
  rcases hop with hop | hfault
  · cases op with
    | queue call => exact absurd rfl (hop call)
    | _ => rfl
  · cases op with
    | queue call =>
        cases call with
        | claim => simp [hfault]
        | _ => rfl
    | _ => rfl

omit [DecidableEq ι] in
-- A call on the queue that takes effect.
theorem drains_call {calls : List (Performed ι)} {events : List (ServiceEvent ι)}
    {backend : Backend} (h : Drains cfg start first polls calls backend)
    (hmirrors : Mirrors start events calls) (thread : ι) (moment : Moment) {call : QueueCall}
    (henqueue : ¬call.enqueues)
    (hlatest : ∀ envelope ∈ ended_claim (.queue call),
      latest_handed envelope.job_id events = some envelope) (overdue : Bool)
    (hoverdue : overdue = true → ∃ set_order timeout, call = .claim set_order timeout ∧
      0 < timeout ∧ backend.Overdue moment) :
    ∃ calls',
      Drains cfg start first (polls + overdue.toNat) calls' (backend.call cfg moment call).2 ∧
      Mirrors start (⟨thread, .queue call,
        (backend.call cfg moment call).1.mapError .QueueError⟩ :: events) calls' := by
  refine ⟨_, ?_, hmirrors.call thread moment call _⟩
  cases overdue with
  | true =>
      obtain ⟨set_order, timeout, rfl, htimeout, hpassed⟩ := hoverdue rfl
      exact h.poll thread moment set_order timeout htimeout hpassed
  | false =>
      refine h.call thread moment call ?_ henqueue
      cases call with
      | ack envelope | retry envelope error =>
          have hhanded := hlatest envelope rfl
          exact (hmirrors.latest _).trans (by rw [hhanded, Option.some_or])
      | _ => trivial

theorem Drained.advance (h : Drained start first polls pool) (move : ι × Outcome (job_queue cfg))
    (hprompt : ∀ event ∈ pool.event (service_perform settings) move, Prompt pool (some event)) :
    Drained start first (polls + (polls_overdue pool move).toNat)
      (pool.advance (service_perform settings) move) := by
  obtain ⟨thread, outcome⟩ := move
  obtain ⟨⟨calls, hdrains, hmirrors⟩, huses⟩ := h
  cases hthread : pool.threads thread with
  | ret value =>
      have hnone : polls_overdue pool (thread, outcome) = false := by simp [polls_overdue, hthread]
      rw [hnone, Pool.advance_of_event_none (by simp [Pool.event, hthread])]
      exact ⟨⟨calls, hdrains, hmirrors⟩, huses⟩
  | raise error =>
      have hnone : polls_overdue pool (thread, outcome) = false := by simp [polls_overdue, hthread]
      rw [hnone, Pool.advance_of_event_none (by simp [Pool.event, hthread])]
      exact ⟨⟨calls, hdrains, hmirrors⟩, huses⟩
  | call op next =>
      have hused := huses thread
      rw [hthread] at hused
      have hadvance : pool.advance (service_perform settings) (thread, outcome) =
          ⟨pool.world.after
              ⟨thread, op, (pool.world.state.exec settings outcome op).1⟩
              (pool.world.state.exec settings outcome op).2,
            Function.update pool.threads thread
              (next (pool.world.state.exec settings outcome op).1)⟩ := by
        simp only [Pool.advance, hthread]
        rfl
      rw [hadvance]
      refine ⟨?_, fun other => ?_⟩
      · have hstep : service_step settings thread pool.world.state op
            (pool.world.state.exec settings outcome op).1
            (pool.world.state.exec settings outcome op).2 := ⟨outcome, rfl⟩
        by_cases hqueue : ∃ call, op = .queue call
        · obtain ⟨call, rfl⟩ := hqueue
          cases hfault : outcome.fault with
          | some error =>
              rw [polls_overdue_eq_false hthread (.inr (by simp [hfault])), exec_fault hfault _ rfl]
              exact ⟨calls, hdrains, hmirrors.other (.inr ⟨error, rfl⟩)⟩
          | none =>
              rw [exec_effect hfault]
              refine drains_call hdrains hmirrors thread outcome.queue (fun hcall => ?_)
                (fun envelope hended => ?_) _ fun hoverdue => ?_
              · cases call with
                | enqueue => exact hused.1.elim
                | _ => cases hcall
              · exact (hprompt ⟨thread, .queue call, _⟩
                  (by simp only [Pool.event, hthread]; rfl)).2 _ rfl envelope hended
              · cases call with
                | claim set_order timeout =>
                    simp only [polls_overdue, hthread, Bool.and_eq_true, decide_eq_true_eq,
                      is_overdue] at hoverdue
                    exact ⟨set_order, timeout, rfl, hoverdue.1.2, hoverdue.2⟩
                | _ => simp [polls_overdue, hthread] at hoverdue
        · rw [not_exists] at hqueue
          rw [polls_overdue_eq_false hthread (.inl hqueue)]
          refine ⟨calls, ?_, hmirrors.other (.inl hqueue)⟩
          rw [World.after_state, queue_kept hstep hqueue]
          exact hdrains
      · by_cases hother : other = thread
        · subst hother
          simpa only [Function.update_self] using hused.2 _
        · simpa only [Function.update_of_ne hother] using huses other

theorem Drained.schedule (h : Drained start first polls pool)
    (moves : List (ι × Outcome (job_queue cfg)))
    (hprompt : pool.respects (service_perform settings) Prompt moves) :
    Drained start first (polls + overdue_polls settings pool moves)
      (pool.schedule (service_perform settings) moves) := by
  induction moves generalizing pool polls with
  | nil => exact h
  | cons move rest ih =>
      rw [overdue_polls, ← Nat.add_assoc]
      exact ih (h.advance move hprompt.1) hprompt.2

end Runs

section Pass

open Reconciliation (View Listed pass_step PassExchange finishes_perform reconcile_each_append
  reconcile_elsewhere reconcile_each_elsewhere pass_finishes each_finishes each_final)

variable {settings : Settings} {platform last : Platform (job_queue cfg)} {job_id : String}
  {state : JobQueue.JobState} {trace : List PassExchange} {letters : List JobEnvelope}

-- A pass stores nothing under an id that has no record.
theorem each_missing (hview : View job_id none state platform)
    (hfinishes : Program.Finishes (pass_step settings) (ResearchProcessor.reconcile_each letters)
      platform trace (.ok ()) last) : View job_id none state last := by
  induction letters generalizing platform trace with
  | nil =>
      obtain ⟨-, -, rfl⟩ := hfinishes.of_ret
      exact hview
  | cons envelope rest ih =>
      obtain ⟨_, first, between, second, hfirst, hsecond, rfl⟩ :=
        Program.Finishes.of_bind_ok hfinishes
      refine ih ?_ hsecond
      by_cases hid : envelope.job_id = job_id
      · subst hid
        obtain ⟨value, after, later, hget, hturn, rfl⟩ := finishes_perform hfirst
        obtain rfl : value = none := (jobs_get_step hget).trans hview.record
        obtain ⟨-, -, rfl⟩ := Program.Finishes.of_ret hturn
        exact hview.keep trivial hget
      · exact (reconcile_elsewhere hview hid hfirst.stops).1

-- What a complete pass makes of a job that is settled in the queue.
theorem settled_finishes {record : Option JobStatus} (hview : View job_id record state platform)
    (hsettled : state.is_unsettled = false)
    (hactive : ∀ job ∈ record, job.status.final = false → state ≠ .absent)
    (hfinishes : Program.Finishes (pass_step settings) ResearchProcessor.reconcile_dead_letters
      platform trace (.ok ()) last) {job : JobStatus} (hget : last.jobs.get? job_id = some job) :
    job.status.final = true ∧ View job_id (some job) .absent last := by
  obtain ⟨letters, between, first, rest, hview', hlisted, -, hrest, -⟩ :=
    pass_finishes hview hfinishes
  cases record with
  | none =>
      rw [(each_missing hview' hrest).record] at hget
      cases hget
  | some old =>
      cases state with
      | ready | inflight | scheduled => cases hsettled
      | absent =>
          obtain ⟨hview'', -⟩ :=
            reconcile_each_elsewhere hview' (hlisted.absent rfl) hrest.stops
          obtain rfl : old = job := Option.some.inj (hview''.record.symm.trans hget)
          refine ⟨?_, hview''⟩
          by_contra hopen
          exact hactive old rfl (Bool.not_eq_true _ ▸ hopen) rfl
      | dead letter =>
          cases hfinal : old.status.final with
          | true =>
              obtain ⟨hview'', -⟩ := each_final hview' hfinal hlisted hrest
              obtain rfl : old = job := Option.some.inj (hview''.record.symm.trans hget)
              exact ⟨hfinal, hview''⟩
          | false =>
              obtain ⟨failed, hview'', hfailed⟩ :=
                (each_finishes hview' hfinal hlisted hrest).view
              obtain rfl : failed = job := Option.some.inj (hview''.record.symm.trans hget)
              rw [if_neg (by decide)] at hfailed
              exact ⟨by rw [hfailed]; rfl, hview''⟩

end Pass

end Completion

open Completion in
-- Whatever was accepted comes to its end: while nothing is submitted, deliveries are no more than
-- the jobs in the queue may still have, and once more than so many claims have come when all
-- leases had run out and all retries were due, one complete pass over the dead letters leaves
-- every record final, and no job that has one in the queue.
theorem accepted_jobs_finish [DecidableEq ι] {settings : Settings} {activity : ι → Activity}
    {platform : Platform (job_queue cfg)} {calls : List (Performed ι)}
    (hqueue : Calls cfg (fun trace backend performed =>
      backend.Marked performed.moment performed.call ∧ OfLatest trace performed.call) calls
      platform.queue)
    (hkeyed : ∀ job_id job, platform.jobs.get? job_id = some job → job.job_id = job_id)
    (hsubmitted : ∀ job_id job, platform.jobs.get? job_id = some job →
      job.status.final = false → Backend.Live platform.queue job_id)
    (hactivity : ∀ thread, (activity thread).submits = false)
    (moves : List (ι × Outcome (job_queue cfg)))
    (hprompt : (ServicePool.start settings platform activity).respects (service_perform settings)
      Prompt moves)
    (ids : Finset String) (hids : ∀ job_id, Backend.Unsettled platform.queue job_id → job_id ∈ ids)
    {pool : ServicePool ι (job_queue cfg)}
    (hpool : pool = (ServicePool.start settings platform activity).schedule
      (service_perform settings) moves) :
    deliveries pool.world.trace ≤ ∑ job_id ∈ ids, remaining cfg calls job_id ∧
      (∑ job_id ∈ ids, remaining cfg calls job_id <
          overdue_polls settings (ServicePool.start settings platform activity) moves →
        ∀ trace last, Program.Finishes (Reconciliation.pass_step settings)
          ResearchProcessor.reconcile_dead_letters pool.world.state trace (.ok ()) last →
        ∀ job_id job, last.jobs.get? job_id = some job →
          job.status.final = true ∧ ¬Backend.Live last.queue job_id) := by
  have hstart : Drained calls platform.queue 0 (ServicePool.start settings platform activity) :=
    ⟨⟨calls, .start, mirrors_start⟩, fun thread => activity_uses (hactivity thread)⟩
  obtain ⟨calls', hdrains, hmirrors⟩ := (hstart.schedule moves hprompt).queue
  rw [← hpool] at hdrains hmirrors
  obtain ⟨table, hrefines, hhanded, hsettled⟩ := Draining.drained hqueue hdrains ids hids
  refine ⟨?_, fun hpolls trace last hfinishes job_id job hget => ?_⟩
  · rw [hmirrors.handed_out] at hhanded
    omega
  · obtain ⟨table', hrefines'⟩ :=
      refines_of_marked_run (hqueue.mono fun _ _ _ _ _ hallowed => hallowed.1)
    have hrun : Run (service_step settings) (fun _ _ => False) Prompt
        (ServicePool.start settings platform activity) pool := by
      rw [hpool]
      exact Run.start.schedule (fun outcome _ _ _ => ⟨outcome, rfl⟩) moves hprompt
    have hinv := ((Orphans.discipline settings).sound (fun _ _ _ => True)
      (Orphans.inv_start hrefines' hkeyed hsubmitted)
      (fun thread => Orphans.activity_wp (hactivity thread)) (fun _ he => False.elim he)
      (fun {_ _} (hstep : Prompt _ _) => hstep.1 _ rfl) hrun).1
    have hview : Reconciliation.View job_id (pool.world.state.jobs.get? job_id) (table.jobs job_id)
        pool.world.state := ⟨hinv.keyed, rfl, table, hrefines, rfl⟩
    obtain ⟨hfinal, hview'⟩ := settled_finishes hview (hsettled (by omega) job_id)
      (fun old hold hactive =>
        hrefines.not_absent_of_live (hinv.live job_id old hold hactive)) hfinishes hget
    obtain ⟨_, hlast, habsent⟩ := hview'.queue
    exact ⟨hfinal, fun hlive => hlast.not_absent_of_live hlive habsent⟩

namespace Completion

def workers : Fin 4 → Activity := fun _ => .run_once .inserted

-- Three workers claim the job and stop, each when the lease of the one before is over. The
-- fourth finds nothing left to claim.
def deserted : List (Fin 4 × Outcome (job_queue .default)) :=
  turns 0 1000 2 ++ turns 1 1400 2 ++ turns 2 1800 2 ++ turns 3 2200 2

def deserted_pool : ServicePool (Fin 4) (job_queue .default) :=
  (ServicePool.start .small Orphans.submitted workers).schedule (service_perform .small) deserted

-- No claim is ended.
def Unended (pool : ServicePool ι (job_queue cfg)) (event : Option (ServiceEvent ι)) : Prop :=
  Orphans.Sober pool event ∧ ∀ happened ∈ event, (ended_claim happened.op).isNone = true

instance (pool : ServicePool ι (job_queue cfg)) (event : Option (ServiceEvent ι)) :
    Decidable (Unended pool event) :=
  inferInstanceAs (Decidable (_ ∧ ∀ _ ∈ _, _))

theorem Unended.prompt {pool : ServicePool ι (job_queue cfg)} {event : Option (ServiceEvent ι)}
    (h : Unended pool event) : Prompt pool event := by
  refine ⟨h.1, fun happened hmem envelope hended => ?_⟩
  have hnone := h.2 happened hmem
  rw [Option.mem_def.mp hended] at hnone
  cases hnone

end Completion

open Completion in
theorem accepted_jobs_finish_deserted :
    let last := (ResearchProcessor.reconcile_dead_letters.run Reconciliation.exec_late
      deserted_pool.world.state).2
    deliveries deserted_pool.world.trace ≤ 3 ∧
      ∃ job, last.jobs.get? "job" = some job ∧ job.status.final = true ∧
        ¬Backend.Live last.queue "job" := by
  intro last
  have hcalls : Calls .default (fun trace backend (performed : Performed (Fin 4)) =>
      backend.Marked performed.moment performed.call ∧ OfLatest trace performed.call) _
      Orphans.submitted.queue :=
    Calls.memory.call 0 ⟨(1000 : ℕ), []⟩ Orphans.enqueue_small
      ⟨fun _ hlive => absurd hlive (by decide), trivial⟩
  have hlive : Backend.Live
      ((Backend.memory .empty).call .default ⟨(1000 : ℕ), []⟩ Orphans.enqueue_small).2 "job" := by
    decide
  have hids : ∀ job_id, Backend.Unsettled Orphans.submitted.queue job_id →
      job_id ∈ ({"job"} : Finset String) := by
    rintro job_id (hready | hinflight | hscheduled)
    · exact Finset.mem_singleton.mpr (List.mem_singleton.mp hready)
    · cases (hinflight : false = true)
    · cases (hscheduled : false = true)
  have hunended : (ServicePool.start .small Orphans.submitted workers).respects
      (service_perform .small) Unended deserted := by decide +kernel
  have hresult : (ResearchProcessor.reconcile_dead_letters.run Reconciliation.exec_late
      deserted_pool.world.state).1 = .ok () := by with_unfolding_all rfl
  have hstatus : (last.jobs.get? "job").map JobStatus.status = some .failed := by decide +kernel
  obtain ⟨job, hget, -⟩ := Option.map_eq_some_iff.mp hstatus
  have hkeyed : ∀ job_id job, Orphans.submitted.jobs.get? job_id = some job →
      job.job_id = job_id := by
    intro job_id job h
    obtain ⟨rfl, rfl⟩ := Orphans.submitted_record h
    rfl
  have hsubmitted : ∀ job_id job, Orphans.submitted.jobs.get? job_id = some job →
      job.status.final = false → Backend.Live Orphans.submitted.queue job_id := by
    intro job_id job h _
    obtain ⟨rfl, rfl⟩ := Orphans.submitted_record h
    exact hlive
  obtain ⟨hdelivered, hfinish⟩ := @accepted_jobs_finish (Fin 4) .default _ .small workers
    Orphans.submitted _ hcalls hkeyed hsubmitted (fun _ => rfl) deserted
    (Pool.respects_mono (fun _ _ => Unended.prompt) hunended) {"job"} hids deserted_pool rfl
  refine ⟨hdelivered.trans (by decide +kernel), job, hget, ?_⟩
  have hexec : ∀ state op, Reconciliation.pass_step .small state op
      (Reconciliation.exec_late state op).1 (Reconciliation.exec_late state op).2 :=
    fun _ _ => ⟨.at 2300, rfl⟩
  have hfinishes := Program.finishes_run hexec ResearchProcessor.reconcile_dead_letters
    deserted_pool.world.state
  rw [hresult] at hfinishes
  exact hfinish (by decide +kernel) _ last hfinishes "job" job hget

end ResearchAgent.Service
