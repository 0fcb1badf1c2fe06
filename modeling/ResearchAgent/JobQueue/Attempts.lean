import ResearchAgent.JobQueue.Moves

namespace ResearchAgent.JobQueue

open Library JobTable

namespace Attempts

variable {ι : Type}

-- What one call adds to the attempt numbers the job was handed out with.
def count_claim (job_id : String) (call : QueueCall)
    (result : Except QueueError QueueReply) (attempts : List ℤ) : List ℤ :=
  match call, result with
  | .enqueue other _ _ _, .ok (.bool true) => if other = job_id then [] else attempts
  | .claim _ _, .ok (.claimed (some envelope)) =>
      if envelope.job_id = job_id then envelope.attempt :: attempts else attempts
  | _, _ => attempts

-- The attempt numbers the job was handed out with since it was last enqueued
-- successfully, newest first.
def attempts (job_id : String) : List (Performed ι) → List ℤ
  | [] => []
  | performed :: rest =>
      count_claim job_id performed.call performed.result (attempts job_id rest)

-- Below the cap, a retry of a job in flight speaks for the job's latest claim.
def CurrentRetry (cfg : Config) (trace : List (Performed ι)) (backend : Backend) :
    QueueCall → Prop
  | .retry envelope _ => envelope.attempt < cfg.max_attempts → backend.InFlight envelope.job_id →
      (attempts envelope.job_id trace).head? = some envelope.attempt
  | _ => True

-- The acknowledged or retried envelope is one that a claim returned.
def FromClaim (trace : List (Performed ι)) : QueueCall → Prop
  | .ack envelope => ∃ performed ∈ trace, performed.result = .ok (.claimed (some envelope))
  | .retry envelope _ => ∃ performed ∈ trace, performed.result = .ok (.claimed (some envelope))
  | _ => True

def Undisturbed (cfg : Config) (trace : List (Performed ι)) (backend : Backend)
    (performed : Performed ι) : Prop :=
  backend.Marked performed.moment performed.call ∧
    CurrentRetry cfg trace backend performed.call

-- The numbers from `claims` down to 1.
def countdown : ℕ → List ℤ
  | 0 => []
  | claims + 1 => (claims + 1 : ℤ) :: countdown claims

theorem length_countdown (claims : ℕ) : (countdown claims).length = claims := by
  induction claims with
  | zero => rfl
  | succ claims ih => simp [countdown, ih]

theorem le_of_mem_countdown {claims : ℕ} {attempt : ℤ} (h : attempt ∈ countdown claims) :
    attempt ≤ claims := by
  induction claims with
  | zero => simp [countdown] at h
  | succ claims ih =>
      rcases List.mem_cons.mp h with rfl | h
      · simp
      · have := ih h
        push_cast
        omega

theorem pairwise_countdown (claims : ℕ) : (countdown claims).Pairwise (· > ·) := by
  induction claims with
  | zero => exact List.Pairwise.nil
  | succ claims ih =>
      refine List.Pairwise.cons (fun attempt h => ?_) ih
      have := le_of_mem_countdown h
      omega

theorem head_countdown {claims : ℕ} {attempt : ℤ}
    (h : (countdown claims).head? = some attempt) : attempt = claims := by
  cases claims with
  | zero => cases h
  | succ claims => simpa [countdown] using h.symm

-- Where a job can be after it was handed out so many times: it waits only below
-- the cap, and its envelope carries the number of the latest claim.
def Counted (cfg : Config) (claims : ℕ) (job_id : String) (state : JobState) : Prop :=
  (claims : ℤ) ≤ cfg.max_attempts ∧
  (∀ envelope ∈ state.envelope, envelope.job_id = job_id) ∧
  match state with
  | .ready envelope => envelope.attempt = claims ∧ (claims : ℤ) < cfg.max_attempts
  | .scheduled envelope _ => envelope.attempt = claims ∧ (claims : ℤ) < cfg.max_attempts
  | .inflight envelope _ => envelope.attempt = claims
  | .absent | .dead _ => True

section Steps

variable {cfg : Config} {clock : ℚ≥0 → Prop} {claims : ℕ} {job_id : String}
  {state state' : JobState} {call : QueueCall} {reply : Except QueueError QueueReply}
  {counted : List ℤ}

theorem count_of_quiet (hquiet : Quiet job_id call reply) :
    count_claim job_id call reply counted = counted := by
  cases call with
  | enqueue other request principal_id tenant_id =>
      rcases reply with error | ((_ | _) | value | value | value | value)
      all_goals try rfl
      exact if_neg hquiet
  | claim set_order timeout =>
      rcases reply with error | (value | (_ | envelope) | value | value | value)
      all_goals try rfl
      exact if_neg hquiet
  | ack | renew | retry | recover_stale | dead_letters | remove_dead_letter
  | dead_letter_count => rfl

theorem Counted.recovered {envelope : JobEnvelope} {lease_until : ℚ}
    (h : Counted cfg claims job_id (.inflight envelope lease_until)) :
    Counted cfg claims job_id (.recovered cfg envelope) := by
  obtain ⟨hle, hkey, hattempt⟩ := h
  have hid := hkey envelope rfl
  by_cases hcap : envelope.attempt ≥ cfg.max_attempts
  · rw [JobState.recovered_capped hcap]
    exact ⟨hle, by simpa using hid, trivial⟩
  · rw [JobState.recovered_uncapped hcap]
    exact ⟨hle, by simpa using hid, hattempt, by simp only at hattempt; omega⟩

theorem Counted.expire (h : Counted cfg claims job_id state) (now : ℚ≥0) :
    Counted cfg claims job_id (state.expire cfg now) := by
  cases state with
  | inflight envelope lease_until =>
      dsimp only [JobState.expire]
      split
      · exact h.recovered
      · exact h
  | absent | ready | scheduled | dead => exact h

theorem Counted.promoted (h : Counted cfg claims job_id state)
    (hpromoted : JobState.Promoted clock state state') : Counted cfg claims job_id state' := by
  cases hpromoted with
  | left => exact h
  | due => exact h

theorem Counted.absent (h : Counted cfg claims job_id state) :
    Counted cfg claims job_id .absent := ⟨h.1, by simp, trivial⟩

-- The step lemma: one call, as one job sees it.
theorem Counted.move (h : Counted cfg claims job_id state) (hcounted : counted = countdown claims)
    (hmove : Move cfg clock job_id call reply state state')
    (hretry : ∀ envelope error, call = .retry envelope error → envelope.job_id = job_id →
      envelope.attempt < cfg.max_attempts → state.lease.isSome →
      counted.head? = some envelope.attempt) :
    ∃ claims', count_claim job_id call reply counted = countdown claims' ∧
      Counted cfg claims' job_id state' := by
  cases hmove with
  | left _ hquiet => exact ⟨claims, (count_of_quiet hquiet).trans hcounted, h⟩
  | admitted =>
      have hpos := cfg.max_attempts_pos
      refine ⟨0, if_pos rfl, by push_cast; omega, ?_, rfl, by push_cast; omega⟩
      rintro _ ⟨⟩
      rfl
  | claimed hpromoted hpopped =>
      have hwaiting := (h.expire _).promoted hpromoted
      cases hpopped with
      | left _ hother =>
          refine ⟨claims, ?_, hwaiting⟩
          rw [← hcounted]
          exact count_of_quiet (quiet_of_other hother)
      | @handed envelope hid =>
          obtain ⟨-, -, hattempt, hlt⟩ := hwaiting
          refine ⟨claims + 1, ?_, by push_cast; omega, ?_, by push_cast; omega⟩
          · rw [hcounted]
            simp only [count_claim, if_pos hid, hattempt]
            rfl
          · rintro _ ⟨⟩
            exact hid
  | acked => exact ⟨claims, hcounted, h.absent⟩
  | renewed => exact ⟨claims, hcounted, h⟩
  | buried hid =>
      refine ⟨claims, hcounted, h.1, ?_, trivial⟩
      rintro _ ⟨⟩
      exact hid
  | delayed hid hcap =>
      have hhead := hretry _ _ rfl hid (lt_of_not_ge hcap) rfl
      rw [hcounted] at hhead
      have hattempt := head_countdown hhead
      refine ⟨claims, hcounted, h.1, ?_, hattempt, by omega⟩
      rintro _ ⟨⟩
      exact hid
  | recovered => exact ⟨claims, hcounted, h.expire _⟩
  | removed => exact ⟨claims, hcounted, h.absent⟩

end Steps

-- The count of every job, read off the trace.
def AllCounted (cfg : Config) (trace : List (Performed ι)) (table : JobTable) : Prop :=
  ∀ job_id, ∃ claims, attempts job_id trace = countdown claims ∧
    Counted cfg claims job_id (table.jobs job_id)

section Runs

variable {cfg : Config} {clock : ℚ≥0 → Prop} {trace : List (Performed ι)} {table table' : JobTable}
  {call : QueueCall} {reply : Except QueueError QueueReply}

theorem AllCounted.keyed (h : AllCounted cfg trace table) : table.Keyed := by
  intro job_id
  obtain ⟨_, -, -, hkey, -⟩ := h job_id
  exact hkey

-- The step lemma: one call and its answer.
theorem AllCounted.answers (h : AllCounted cfg trace table)
    (hanswer : Answers cfg clock table call reply table')
    (hretry : ∀ envelope error, call = .retry envelope error →
      envelope.attempt < cfg.max_attempts → (table.jobs envelope.job_id).lease.isSome →
      (attempts envelope.job_id trace).head? = some envelope.attempt) (job_id : String) :
    ∃ claims, count_claim job_id call reply (attempts job_id trace) = countdown claims ∧
      Counted cfg claims job_id (table'.jobs job_id) := by
  obtain ⟨claims, hattempts, hcounted⟩ := h job_id
  refine hcounted.move hattempts (hanswer.moves h.keyed job_id) ?_
  intro envelope error hcall hid
  rw [← hid]
  exact hretry envelope error hcall

theorem claimed_congr {envelope envelope' : Option JobEnvelope} {set_order : SetOrder}
    {timeout : ℚ} (h : envelope.map JobEnvelope.delivered = envelope'.map JobEnvelope.delivered)
    (job_id : String) (counted : List ℤ) :
    count_claim job_id (.claim set_order timeout) (.ok (.claimed envelope)) counted =
      count_claim job_id (.claim set_order timeout) (.ok (.claimed envelope')) counted := by
  cases envelope with
  | none =>
      cases envelope' with
      | none => rfl
      | some envelope' => cases h
  | some envelope =>
      cases envelope' with
      | none => cases h
      | some envelope' =>
          have heq := Option.some.inj h
          have hid := congrArg JobEnvelope.job_id heq
          have hattempt := congrArg JobEnvelope.attempt heq
          simp only [JobEnvelope.delivered_job_id, JobEnvelope.delivered_attempt] at hid hattempt
          simp only [count_claim, hid, hattempt]

-- The count is the same whichever of two equal answers is read.
theorem count_claim_congr {result : Except QueueError QueueReply} (h : SameAnswer result reply)
    (job_id : String) (counted : List ℤ) :
    count_claim job_id call result counted =
      count_claim job_id call.delivered reply counted := by
  rcases result with error | value <;> rcases reply with error' | value'
  · cases call <;> rfl
  · exact False.elim h
  · exact False.elim h
  have hreply : value.Same value' := h
  cases call with
  | enqueue =>
      cases value <;> cases value' <;> first
        | exact False.elim hreply
        | rfl
        | exact congrArg (fun accepted => count_claim job_id _ (.ok (.bool accepted)) counted)
            hreply
  | claim =>
      cases value <;> cases value' <;> first
        | exact False.elim hreply
        | rfl
        | exact claimed_congr hreply job_id counted
  | ack | renew | retry | recover_stale | dead_letters | remove_dead_letter | dead_letter_count =>
      rfl

theorem counted_of_run {backend : Backend}
    (hrun : Calls cfg (Undisturbed cfg) trace backend) :
    ∃ table, backend.Refines table ∧ AllCounted cfg trace table := by
  induction hrun with
  | memory =>
      refine ⟨.empty, MemoryQueue.refines_empty, fun job_id => ⟨0, rfl, ?_⟩⟩
      exact ⟨by have := cfg.max_attempts_pos; push_cast; omega, by simp [JobTable.empty], trivial⟩
  | redis now =>
      refine ⟨.empty, Redis.refines_empty now, fun job_id => ⟨0, rfl, ?_⟩⟩
      exact ⟨by have := cfg.max_attempts_pos; push_cast; omega, by simp [JobTable.empty], trivial⟩
  | call _ worker moment call hallowed ih =>
      obtain ⟨table, hrefines, hcounted⟩ := ih
      obtain ⟨hmarked, hretry⟩ := hallowed
      obtain ⟨reply, table', hanswer, hsame, hrefines'⟩ := hrefines.answers_marked cfg hmarked
      refine ⟨table', hrefines', fun job_id => ?_⟩
      obtain ⟨claims, hcount, hstate⟩ := hcounted.answers hanswer (fun envelope error hcall => by
        cases call <;> cases hcall
        rw [← hrefines.inFlight_iff]
        exact hretry) job_id
      refine ⟨claims, ?_, hstate⟩
      rw [← hcount]
      exact count_claim_congr hsame job_id _

end Runs

end Attempts

open Attempts

-- A job is handed out at most `max_attempts` times and under strictly increasing
-- attempt numbers, as long as no superseded claim is retried below the cap.
theorem attempts_capped {ι : Type} {cfg : Config} {trace : List (Performed ι)} {backend : Backend}
    (hrun : Calls cfg (Undisturbed cfg) trace backend) (job_id : String) :
    ((attempts job_id trace).length : ℤ) ≤ cfg.max_attempts ∧
      (attempts job_id trace).reverse.Pairwise (· < ·) := by
  obtain ⟨table, -, hcounted⟩ := counted_of_run hrun
  obtain ⟨claims, hattempts, hle, -⟩ := hcounted job_id
  rw [hattempts, length_countdown, List.pairwise_reverse]
  exact ⟨hle, pairwise_countdown claims⟩

-- Worker 1 retries its own current claim and worker 2 takes the job over.
def retried : List (Fin 4 × Moment × QueueCall) :=
  [at_time 0 1000 (.enqueue "job" [] "principal" "tenant"),
    at_time 1 1000 (.claim .inserted 1),
    at_time 1 1001 (.retry first_claim "failed"),
    at_time 2 1010 (.claim .inserted 1)]

theorem attempts_capped_retried :
    let run := perform .default [] (.redis (.empty 1000)) retried
    attempts "job" run.1 = [2, 1] ∧ ((attempts "job" run.1).length : ℤ) ≤ 3 ∧
      (attempts "job" run.1).reverse.Pairwise (· < ·) := by
  have hallowed : AllAllowed .default (Undisturbed .default) [] (.redis (.empty 1000)) retried := by
    refine ⟨⟨Backend.Fresh.marked (by decide +kernel), trivial⟩, ⟨trivial, trivial⟩,
      ⟨trivial, ?_⟩, ⟨trivial, trivial⟩, trivial⟩
    exact fun _ _ => by decide +kernel
  exact ⟨by decide +kernel, attempts_capped (.perform (.redis 1000) _ hallowed) "job"⟩

-- Worker 1 comes back after its lease expired and worker 2 took the job over. Its
-- retry puts the first attempt's envelope back.
def late_retry : List (Fin 5 × Moment × QueueCall) :=
  [at_time 0 1000 (.enqueue "job" [] "principal" "tenant"),
    at_time 1 1000 (.claim .inserted 1),
    at_time 2 1400 (.claim .inserted 1),
    at_time 1 1401 (.retry first_claim "failed"),
    at_time 3 1500 (.claim .inserted 1),
    at_time 4 1900 (.claim .inserted 1)]

theorem late_retry_exceeds_cap :
    ∃ (trace : List (Performed (Fin 5))) (backend : Backend),
      Calls .default (fun trace backend performed =>
        backend.Fresh performed.moment performed.call ∧ FromClaim trace performed.call)
        trace backend ∧
      ¬((attempts "job" trace).length : ℤ) ≤ Config.default.max_attempts ∧
      ¬(attempts "job" trace).reverse.Pairwise (· < ·) := by
  refine ⟨_, _, Calls.perform .memory late_retry ?_, by decide +kernel,
    by decide +kernel⟩
  refine ⟨⟨by decide +kernel, trivial⟩, ⟨trivial, trivial⟩, ⟨trivial, trivial⟩, ⟨trivial, ?_⟩,
    ⟨trivial, trivial⟩, ⟨trivial, trivial⟩, trivial⟩
  exact ⟨_, List.mem_cons_of_mem _ (List.mem_cons_self ..), rfl⟩

end ResearchAgent.JobQueue
