import ResearchAgent.Service.Runs

namespace ResearchAgent.Service

open Library JobQueue Server

namespace Submission

variable (cfg : Config) (principal : Principal) (request : ResearchRequest) (job_id : String)
  (p : Platform (job_queue cfg)) (outcomes : ℕ → Outcome (job_queue cfg))

-- The part of a submission that begins with the slot acquisition, from a state in
-- which a job may have appeared under the id since it was looked for.
def reserved (settings : Settings) :
    Except ServiceError JobStatus × Served (job_queue cfg) :=
  (reserve_job principal request job_id).run (served_exec settings) (p, outcomes)

-- A submission that finds no job goes on so.
theorem submit_research_run {settings : Settings} {idempotency_key : Option String}
    {served found : Served (job_queue cfg)}
    (h : (find_job settings principal idempotency_key).run (served_exec settings) served =
      (.ok (job_id, none), found)) :
    (submit_research settings principal request idempotency_key).run (served_exec settings) served =
      (reserve_job principal request job_id).run (served_exec settings) found :=
  Program.run_bind_ok _ h

-- The queue answers the enqueue of the submission with False.
def Refused (outcome : Outcome (job_queue cfg)) : Prop :=
  outcome.fault = none ∧ (Backend.call cfg outcome.queue p.queue
    (.enqueue job_id request.model_dump principal.principal_id principal.tenant_id)).1 =
      .ok (.bool false)

-- The n-th operation fails: it raises, or it is the enqueue and is refused.
def Fails (n : ℕ) : Prop :=
  (outcomes n).fault ≠ none ∨
    n = 3 ∧ p.jobs.get? job_id = none ∧ Refused cfg principal request job_id p (outcomes 3)

-- Slot count, record and queue contents of the job are what they were in `p`.
structure Unchanged (p' : Platform (job_queue cfg)) : Prop where
  slots : p'.slots principal.tenant_id = p.slots principal.tenant_id
  record : p'.jobs.get? job_id = p.jobs.get? job_id
  queue : Backend.entry p'.queue job_id = Backend.entry p.queue job_id

-- The failing operation is `set_if_absent`; or it is an enqueue that is refused; or
-- the job was there already and either the failing operation is the release or the
-- tenant had no slot in use.
def Harmless : Prop :=
  Fails cfg principal request job_id p outcomes 2 ∨
  (p.jobs.get? job_id = none ∧ Refused cfg principal request job_id p (outcomes 3)) ∨
  (p.jobs.get? job_id ≠ none ∧
    (Fails cfg principal request job_id p outcomes 3 ∨ p.slots principal.tenant_id = 0))

section Runs

variable {cfg} {principal} {request} {job_id} {settings : Settings} {p q : Platform (job_queue cfg)}
  {outcomes : ℕ → Outcome (job_queue cfg)} {α : Type}

-- The `except` block touches the slot count only.
theorem give_back_run (error : ServiceError) :
    let given := (give_back principal job_id error).run (served_exec settings) (p, outcomes)
    given.2.1.jobs = p.jobs ∧ given.2.1.queue = p.queue ∧
      ((outcomes 0).fault = none →
        given.2.1.slots principal.tenant_id = p.slots principal.tenant_id - 1) := by
  rw [give_back]
  cases h : (outcomes 0).fault with
  | some raised =>
      rw [run_served_error (exec_fault h (.release_job_slot _ _) rfl)]
      exact ⟨rfl, rfl, nofun⟩
  | none =>
      rw [run_served_ok ((exec_effect h (.release_job_slot _ _)).trans rfl)]
      exact ⟨rfl, rfl, fun _ => by simp [Platform.release_job_slot, Platform.set_slots]⟩

theorem record_enqueued_run (job : JobStatus) (enqueued : Bool) :
    let run := (record_enqueued principal request job enqueued).run (served_exec settings)
      (p, outcomes)
    (enqueued = false ∧ (outcomes 0).fault = none →
      (∀ shown, run.1 ≠ .ok shown) ∧
        run.2 = ({ p with jobs := p.jobs.erase job.job_id }, fun n => outcomes (n + 1))) ∧
    (¬(enqueued = false ∧ (outcomes 0).fault = none) → run.2.1.jobs = p.jobs) := by
  simp only [record_enqueued]
  cases enqueued with
  | false =>
      simp only [Bool.not_false, ite_true]
      cases h0 : (outcomes 0).fault with
      | some error =>
          rw [run_served_error (exec_fault h0 (.jobs_delete _) rfl)]
          exact ⟨fun h => by simp at h, fun _ => rfl⟩
      | none =>
          rw [run_served_ok ((exec_effect h0 (.jobs_delete _)).trans rfl)]
          exact ⟨fun _ => ⟨by simp, rfl⟩, fun h => by simp at h⟩
  | true =>
      refine ⟨fun h => by simp at h, fun _ => ?_⟩
      simp only [Bool.not_true, Bool.false_eq_true, ite_false]
      cases h0 : (outcomes 0).fault with
      | some error => rw [run_served_error (exec_fault h0 (.append_audit ..) rfl)]
      | none =>
          rw [run_served_ok ((exec_effect h0 (.append_audit ..)).trans rfl)]
          rfl

-- The queue answers the enqueue, if it does not raise.
theorem enqueue_job_run (job : JobStatus) :
    let call := QueueCall.enqueue job.job_id request.model_dump principal.principal_id
      principal.tenant_id
    let answer := Backend.call cfg (outcomes 0).queue p.queue call
    let run := (enqueue_job principal request job).run (served_exec settings) (p, outcomes)
    (∃ enqueued q, (outcomes 0).fault = none ∧ answer.1 = .ok (.bool enqueued) ∧
      q = { p with queue := answer.2 } ∧
      run = (record_enqueued principal request job enqueued).run (served_exec settings)
        (q, fun n => outcomes (n + 1))) ∨
    ¬((outcomes 0).fault = none ∧ answer.1 = .ok (.bool false)) ∧ run.2.1.jobs = p.jobs := by
  simp only [enqueue_job, Client.enqueue, Client.queue, Program.bind_assoc]
  cases h0 : (outcomes 0).fault with
  | some error =>
      rw [run_served_error (exec_fault h0 (.queue _) rfl)]
      exact .inr ⟨by simp, rfl⟩
  | none =>
      generalize hcall : Backend.call cfg (outcomes 0).queue p.queue (.enqueue job.job_id
        request.model_dump principal.principal_id principal.tenant_id) = answer
      obtain ⟨result, queue⟩ := answer
      have heffect : p.exec settings (outcomes 0) (.queue (.enqueue job.job_id request.model_dump
          principal.principal_id principal.tenant_id)) =
            (result.mapError .QueueError, { p with queue }) := by
        rw [exec_effect h0]
        simp only [Platform.effect, job_queue, hcall, Prod.map]
      cases result with
      | error error =>
          rw [run_served_error heffect]
          exact .inr ⟨by simp, rfl⟩
      | ok reply =>
          rw [run_served_ok heffect]
          cases reply with
          | bool enqueued => exact .inl ⟨enqueued, _, rfl, rfl, rfl, rfl⟩
          | _ => exact .inr ⟨by simp, rfl⟩

-- The job was there already. The slot is given back before the read.
theorem raced_job_run (hget : p.jobs.get? job_id ≠ none)
    (herror : ∀ job, ((raced_job principal job_id).run (served_exec settings) (p, outcomes)).1 ≠
      .ok job) :
    let run := (raced_job principal job_id).run (served_exec settings) (p, outcomes)
    (outcomes 0).fault ≠ none ∧ run.2 = (p, fun n => outcomes (n + 1)) ∨
      (outcomes 0).fault = none ∧ (outcomes 1).fault ≠ none ∧
        run.2 = (p.release_job_slot principal.tenant_id, fun n => outcomes (n + 2)) := by
  simp only [raced_job] at herror ⊢
  cases h0 : (outcomes 0).fault with
  | some error =>
      rw [run_served_error (exec_fault h0 (.release_job_slot _ _) rfl)]
      exact .inl ⟨nofun, rfl⟩
  | none =>
      rw [run_served_ok ((exec_effect h0 (.release_job_slot _ _)).trans rfl)] at herror ⊢
      cases h1 : (outcomes 1).fault with
      | some error =>
          rw [run_served_error (exec_fault h1 (.jobs_get _) rfl)]
          exact .inr ⟨rfl, nofun, rfl⟩
      | none =>
          rw [run_served_ok ((exec_effect h1 (.jobs_get _)).trans rfl)] at herror
          obtain ⟨job, hjob⟩ := Option.ne_none_iff_exists'.mp hget
          have hraced : (p.release_job_slot principal.tenant_id).jobs.get? job_id = some job := hjob
          rw [hraced] at herror
          exact absurd rfl (herror job)

-- The state in which the `try` block starts.
def acquired (principal : Principal) (p : Platform (job_queue cfg)) : Platform (job_queue cfg) :=
  p.set_slots principal.tenant_id (p.slots principal.tenant_id + 1)

theorem acquired_slots :
    (acquired principal p).slots principal.tenant_id = p.slots principal.tenant_id + 1 := by
  simp [acquired, Platform.set_slots]

-- The state once the record is there.
def created (principal : Principal) (job_id created_at : String) (p : Platform (job_queue cfg)) :
    Platform (job_queue cfg) :=
  { acquired principal p with
    jobs := p.jobs.set job_id (new_job principal job_id created_at) }

-- How the `try` block ends.
def tried (cfg : Config) (principal : Principal) (request : ResearchRequest) (job_id : String)
    (p : Platform (job_queue cfg)) (outcomes : ℕ → Outcome (job_queue cfg)) (settings : Settings) :
    Except ServiceError JobStatus × Served (job_queue cfg) :=
  (create_job principal request (new_job principal job_id (outcomes 1).time)).run
    (served_exec settings) (acquired principal p, fun n => outcomes (n + 2))

theorem tried_raised {error : ServiceError} (h2 : (outcomes 2).fault = some error) :
    tried cfg principal request job_id p outcomes settings =
      (.error error, (acquired principal p, fun n => outcomes (n + 3))) :=
  run_served_error (exec_fault h2 (.jobs_set_if_absent _ _) rfl)

theorem tried_created (h2 : (outcomes 2).fault = none) (hget : p.jobs.get? job_id = none) :
    tried cfg principal request job_id p outcomes settings =
      (enqueue_job principal request (new_job principal job_id (outcomes 1).time)).run
        (served_exec settings)
        (created principal job_id (outcomes 1).time p, fun n => outcomes (n + 3)) := by
  have hcreate : (acquired principal p).exec settings (outcomes 2)
      (.jobs_set_if_absent job_id (new_job principal job_id (outcomes 1).time)) =
        (.ok true, created principal job_id (outcomes 1).time p) := by
    rw [exec_effect h2]
    simp [Platform.effect, Platform.set_if_absent, acquired, Platform.set_slots, Dict.contains,
      hget, created]
  rw [tried, create_job]
  exact (run_served_ok hcreate).trans rfl

-- A refused enqueue takes the record back.
theorem refused_run (h4 : (outcomes 4).fault = none)
    (hrefused : Refused cfg principal request job_id p (outcomes 3)) :
    let run := (enqueue_job principal request (new_job principal job_id (outcomes 1).time)).run
      (served_exec settings)
      (created principal job_id (outcomes 1).time p, fun n => outcomes (n + 3))
    run.2.2 = (fun n => outcomes (n + 5)) ∧ run.2.1.jobs.get? job_id = none ∧
      run.2.1.slots principal.tenant_id = p.slots principal.tenant_id + 1 ∧
      Backend.entry run.2.1.queue job_id = Backend.entry p.queue job_id := by
  intro run
  rcases @enqueue_job_run cfg principal request settings
    (created principal job_id (outcomes 1).time p) (fun n => outcomes (n + 3))
    (new_job principal job_id (outcomes 1).time) with
    ⟨enqueued, q, -, hanswer, hq, hrun⟩ | ⟨hkept, -⟩
  · have henqueued : enqueued = false := by
      have heq := hanswer.symm.trans hrefused.2
      simpa using heq
    subst henqueued
    have hentry := Backend.entry_of_refused hrefused.2 job_id
    obtain ⟨-, hstate⟩ := (@record_enqueued_run cfg principal request settings q
      (fun n => outcomes (n + 4)) (new_job principal job_id (outcomes 1).time) false).1 ⟨rfl, h4⟩
    have hrun' : run.2 = _ := (congrArg Prod.snd hrun).trans hstate
    rw [hrun', hq]
    refine ⟨rfl, ?_, acquired_slots, hentry⟩
    simp [new_job]
  · exact absurd hrefused hkept

-- Any other failure of the enqueue or of the audit leaves it.
theorem kept_run (h : ¬Refused cfg principal request job_id p (outcomes 3)) :
    ((enqueue_job principal request (new_job principal job_id (outcomes 1).time)).run
      (served_exec settings) (created principal job_id (outcomes 1).time p,
        fun n => outcomes (n + 3))).2.1.jobs.get? job_id =
      some (new_job principal job_id (outcomes 1).time) := by
  have hcreated : (created principal job_id (outcomes 1).time p).jobs.get? job_id =
      some (new_job principal job_id (outcomes 1).time) := Dict.get?_set_self ..
  rcases @enqueue_job_run cfg principal request settings
    (created principal job_id (outcomes 1).time p) (fun n => outcomes (n + 3))
    (new_job principal job_id (outcomes 1).time) with
    ⟨enqueued, q, h3, hanswer, hq, hrun⟩ | ⟨-, hjobs⟩
  · have henqueued : enqueued ≠ false := by
      rintro rfl
      exact h ⟨h3, hanswer⟩
    rw [hrun, (record_enqueued_run _ enqueued).2 fun hboth => henqueued hboth.1, hq]
    exact hcreated
  · rw [hjobs]
    exact hcreated

theorem tried_raced (h2 : (outcomes 2).fault = none) (hget : p.jobs.get? job_id ≠ none) :
    tried cfg principal request job_id p outcomes settings =
      (raced_job principal job_id).run (served_exec settings)
        (acquired principal p, fun n => outcomes (n + 3)) := by
  obtain ⟨old, hold⟩ := Option.ne_none_iff_exists'.mp hget
  have hraced : (acquired principal p).exec settings (outcomes 2)
      (.jobs_set_if_absent job_id (new_job principal job_id (outcomes 1).time)) =
        (.ok false, acquired principal p) := by
    rw [exec_effect h2]
    simp [Platform.effect, Platform.set_if_absent, acquired, Platform.set_slots, Dict.contains,
      hold]
  rw [tried, create_job]
  exact (run_served_ok hraced).trans rfl

theorem reserved_run (h0 : (outcomes 0).fault = none)
    (hslots : p.slots principal.tenant_id < settings.max_concurrent_jobs_per_tenant) :
    reserved cfg principal request job_id p outcomes settings =
      match tried cfg principal request job_id p outcomes settings with
      | (.ok job, next) => (.ok job, next)
      | (.error error, next) =>
          (give_back principal job_id error).run (served_exec settings) next := by
  have hacquire : p.exec settings (outcomes 0) (.acquire_job_slot principal.tenant_id) =
      (.ok true, acquired principal p) := by
    rw [exec_effect h0]
    simp [Platform.effect, Platform.acquire_job_slot, Nat.not_le.mpr hslots, acquired]
  rw [reserved, reserve_job, run_served_ok hacquire]
  simp only [ite_true, accept_job]
  rw [run_served_ok (show Platform.exec settings (outcomes 1) (acquired principal p) .now =
    (.ok (outcomes 1).time, acquired principal p) from rfl), Program.run_attempt]
  have htried : (create_job principal request (new_job principal job_id (outcomes 1).time)).run
      (served_exec settings) (acquired principal p, fun n => outcomes (n + 1 + 1)) =
        tried cfg principal request job_id p outcomes settings := rfl
  rw [htried]
  rcases tried cfg principal request job_id p outcomes settings with ⟨_ | _, _⟩ <;> rfl

-- The failed call differs from where the `try` block stopped in the slot count only.
theorem reserved_state (h0 : (outcomes 0).fault = none)
    (hslots : p.slots principal.tenant_id < settings.max_concurrent_jobs_per_tenant)
    (herror : ∀ job, (reserved cfg principal request job_id p outcomes settings).1 ≠ .ok job) :
    let final := (reserved cfg principal request job_id p outcomes settings).2.1
    let stopped := tried cfg principal request job_id p outcomes settings
    (∀ job, stopped.1 ≠ .ok job) ∧ final.jobs = stopped.2.1.jobs ∧
      final.queue = stopped.2.1.queue ∧ ((stopped.2.2 0).fault = none →
        final.slots principal.tenant_id = stopped.2.1.slots principal.tenant_id - 1) := by
  rw [reserved_run h0 hslots] at herror ⊢
  generalize tried cfg principal request job_id p outcomes settings = stopped at herror ⊢
  obtain ⟨error | job, next⟩ := stopped
  · exact ⟨by simp, give_back_run error⟩
  · exact absurd rfl (herror job)

end Runs

end Submission

open Submission in
-- A failed submission leaves nothing behind exactly when the failure is harmless. What fails
-- is the rest of any submission that has found no job.
theorem failed_submission_clean (settings : Settings) (cfg : Config) (principal : Principal)
    (request : ResearchRequest) (job_id : String) (p : Platform (job_queue cfg))
    (outcomes : ℕ → Outcome (job_queue cfg))
    (hslots : p.slots principal.tenant_id < settings.max_concurrent_jobs_per_tenant)
    (hacquired : ¬Fails cfg principal request job_id p outcomes 0)
    (honce : ∀ m n, Fails cfg principal request job_id p outcomes m →
      Fails cfg principal request job_id p outcomes n → m = n)
    (herror : ∀ job, (reserved cfg principal request job_id p outcomes settings).1 ≠ .ok job) :
    (Unchanged cfg principal job_id p
        (reserved cfg principal request job_id p outcomes settings).2.1 ↔
      Harmless cfg principal request job_id p outcomes) ∧
    ∀ idempotency_key served, (find_job settings principal idempotency_key).run
        (served_exec settings) served = (.ok (job_id, none), (p, outcomes)) →
      (submit_research settings principal request idempotency_key).run (served_exec settings)
        served = reserved cfg principal request job_id p outcomes settings := by
  refine ⟨?_, fun _ _ hfound => submit_research_run cfg principal request job_id hfound⟩
  have h0 : (outcomes 0).fault = none := by
    simpa [Fails] using hacquired
  obtain ⟨hstopped, hjobs, hqueue, hcount⟩ := reserved_state h0 hslots herror
  have hclean : ∀ {n m : ℕ}, Fails cfg principal request job_id p outcomes n → m ≠ n →
      (outcomes m).fault = none := fun hn hm => by
    by_contra hfault
    exact hm (honce _ _ (.inl hfault) hn)
  generalize (reserved cfg principal request job_id p outcomes settings).2.1 = final at *
  cases h2 : (outcomes 2).fault with
  | some error =>
      have hfails : Fails cfg principal request job_id p outcomes 2 := .inl (by simp [h2])
      rw [tried_raised h2] at hjobs hqueue hcount
      refine ⟨fun _ => .inl hfails, fun _ => ⟨?_, congrArg (Dict.get? · job_id) hjobs,
        congrArg (Backend.entry · job_id) hqueue⟩⟩
      rw [hcount (hclean hfails (by decide)), acquired_slots, Nat.add_sub_cancel]
  | none =>
      have h2' : ¬Fails cfg principal request job_id p outcomes 2 := by simp [Fails, h2]
      by_cases hget : p.jobs.get? job_id = none
      · -- the record is created, and is left there unless the enqueue is refused
        rw [tried_created h2 hget] at hstopped hjobs hqueue hcount
        by_cases hrefused : Refused cfg principal request job_id p (outcomes 3)
        · have hfails : Fails cfg principal request job_id p outcomes 3 :=
            .inr ⟨rfl, hget, hrefused⟩
          obtain ⟨hrest, hrecord, hslots', hentry⟩ :=
            @refused_run cfg principal request job_id settings p outcomes
              (hclean hfails (by decide)) hrefused
          refine ⟨fun _ => .inr (.inl ⟨hget, hrefused⟩), fun _ => ⟨?_, ?_, ?_⟩⟩
          · rw [hcount (hrest ▸ hclean hfails (by decide)), hslots', Nat.add_sub_cancel]
          · rw [hjobs, hrecord, hget]
          · rw [hqueue, hentry]
        · have hrecord := congrArg (Dict.get? · job_id) hjobs
          simp only [kept_run hrefused] at hrecord
          constructor
          · intro hunchanged
            rw [hunchanged.record, hget] at hrecord
            cases hrecord
          · rintro (h | ⟨-, h⟩ | ⟨h, -⟩)
            · exact absurd h h2'
            · exact absurd h hrefused
            · exact absurd hget h
      · -- the slot is given back before the read, so a failing read gives back another one
        rw [tried_raced h2 hget] at hstopped hjobs hqueue hcount
        have hget' : (acquired principal p).jobs.get? job_id ≠ none := hget
        rcases raced_job_run hget' hstopped with ⟨h3, hstate⟩ | ⟨h3, h4, hstate⟩
        · have hfails : Fails cfg principal request job_id p outcomes 3 := .inl h3
          rw [hstate] at hjobs hqueue hcount
          refine ⟨fun _ => .inr (.inr ⟨hget, .inl hfails⟩), fun _ => ⟨?_,
            congrArg (Dict.get? · job_id) hjobs, congrArg (Backend.entry · job_id) hqueue⟩⟩
          rw [hcount (hclean hfails (by decide)), acquired_slots, Nat.add_sub_cancel]
        · have hfails : Fails cfg principal request job_id p outcomes 4 := .inl h4
          have h3' : ¬Fails cfg principal request job_id p outcomes 3 := by
            simpa [Fails, hget] using h3
          rw [hstate] at hjobs hqueue hcount
          have hslots' := hcount (hclean hfails (by decide))
          simp only [Platform.release_job_slot, Platform.set_slots, Function.update_self,
            acquired_slots] at hslots'
          constructor
          · intro hunchanged
            have := hunchanged.slots
            exact .inr (.inr ⟨hget, .inr (by omega)⟩)
          · rintro (h | ⟨h, -⟩ | ⟨-, h | h⟩)
            · exact absurd h h2'
            · exact absurd h hget
            · exact absurd h h3'
            · exact ⟨by omega, congrArg (Dict.get? · job_id) hjobs,
                congrArg (Backend.entry · job_id) hqueue⟩

namespace Submission

-- Every operation takes effect but the n-th, which raises.
def failing (n : ℕ) (error : ServiceError) : ℕ → Outcome (job_queue .default) :=
  fun m => if m = n then { Outcome.at 1000 with fault := some error } else .at 1000

def nothing_stored : Platform (job_queue .default) := .empty (Backend.memory .empty)

def queue_down : ServiceError := .QueueError (.JobQueueError "Unable to enqueue a job")

def store_down : ServiceError := .JobStoreError "Unable to create job job"

end Submission

open Submission in
theorem failed_submission_clean_set_if_absent :
    Unchanged .default .small "job" nothing_stored
      (reserved .default .small .small "job" nothing_stored (failing 2 store_down) .small).2.1 := by
  have hanswer : (Backend.call .default (failing 2 store_down 3).queue nothing_stored.queue
      (.enqueue "job" ResearchRequest.small.model_dump "principal" "tenant")).1.toOption.bind
        Client.read_bool = some true := by decide +kernel
  have hraises : (reserved .default .small .small "job" nothing_stored (failing 2 store_down)
      .small).1.toBool = false := by decide +kernel
  have honly : ∀ n, Fails .default .small .small "job" nothing_stored (failing 2 store_down) n →
      n = 2 := by
    rintro n (hfault | ⟨-, -, -, hrefused⟩)
    · by_contra hn
      exact hfault (by simp [failing, hn, Outcome.at])
    · exact absurd (congrArg (fun answer => answer.toOption.bind Client.read_bool) hrefused)
        (fun h => by cases hanswer.symm.trans h)
  refine (failed_submission_clean .small .default .small .small "job" nothing_stored
    (failing 2 store_down) (by decide) (fun h => by cases honly 0 h) (fun m n hm hn => ?_)
    (fun job hjob => ?_)).1.mpr (.inl (.inl (by simp [failing])))
  · rw [honly m hm, honly n hn]
  · rw [hjob] at hraises
    cases hraises

open Submission in
-- When the enqueue raises, the submission fails and the new record stays.
theorem failed_enqueue_leaves_record :
    let submitted := (submit_research .small .small .small none).run (served_exec .small)
      (nothing_stored, failing 6 queue_down)
    submitted.1.toBool = false ∧ nothing_stored.jobs.contains "job" = false ∧
      submitted.2.1.jobs.contains "job" = true := by
  decide +kernel

end ResearchAgent.Service
