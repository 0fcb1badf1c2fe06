import ResearchAgent.JobQueue.MemoryRefinement
import ResearchAgent.JobQueue.RedisRefinement

namespace ResearchAgent.JobQueue

open Library JobTable

namespace JobTable

variable {cfg : Config} {table : JobTable} {now : ℚ≥0} {clock : ℚ≥0 → Prop}

theorem recover_due (cfg : Config) (table : JobTable) (job_id other : String) :
    ((table.recover cfg job_id).jobs other).due = (table.jobs other).due := by
  by_cases ho : other = job_id
  · subst ho
    cases hj : table.jobs other with
    | inflight envelope lease_until =>
        simp only [recover, hj, put_jobs, ite_true, JobState.recovered]
        split <;> rfl
    | absent | ready | scheduled | dead => simp [recover, hj]
  · rw [recover_jobs_ne cfg table ho]

theorem recover_all_due (cfg : Config) (ids : List String) (table : JobTable) (other : String) :
    ((table.recover_all cfg ids).jobs other).due = (table.jobs other).due := by
  induction ids generalizing table with
  | nil => rfl
  | cons job_id rest ih => exact (ih _).trans (recover_due cfg table job_id other)

theorem promote_due (table : JobTable) (job_id other : String) :
    ((table.promote job_id).jobs other).due =
      if other = job_id then none else (table.jobs other).due := by
  by_cases ho : other = job_id
  · subst ho
    cases hj : table.jobs other <;> simp [promote, hj]
  · rw [promote_jobs_ne table ho, if_neg ho]

theorem promote_all_due (ids : List String) (table : JobTable) (other : String) :
    ((table.promote_all ids).jobs other).due =
      if other ∈ ids then none else (table.jobs other).due := by
  induction ids generalizing table with
  | nil => simp [promote_all]
  | cons job_id rest ih =>
      refine (ih (table.promote job_id)).trans ?_
      by_cases hr : other ∈ rest
      · simp [hr]
      · rw [if_neg hr, promote_due]
        by_cases ho : other = job_id
        · rw [if_pos ho, if_pos (by simp [ho])]
        · rw [if_neg ho, if_neg (by simp [ho, hr])]

theorem perm_of_nodup {ids ids' : List String} (h : ids.Nodup) (h' : ids'.Nodup)
    (hmem : ∀ job_id, job_id ∈ ids ↔ job_id ∈ ids') : ids.Perm ids' :=
  (List.perm_ext_iff_of_nodup h h').mpr hmem

theorem eq_of_perm_of_length {ids ids' : List String} (h : ids.Perm ids')
    (hlength : ids.length ≤ 1) : ids = ids' := by
  match ids, hlength with
  | [], _ => exact (List.nil_perm.mp h).symm
  | [job_id], _ => exact (List.singleton_perm.mp h).symm ▸ rfl

theorem Expired.perm {ids ids' : List String} (h : Expired now table ids)
    (h' : Expired now table ids') : ids.Perm ids' :=
  perm_of_nodup h.nodup h'.nodup fun job_id => (h.mem job_id).trans (h'.mem job_id).symm

theorem Due.perm {ids ids' : List String} (h : Due now table ids) (h' : Due now table ids') :
    ids.Perm ids' :=
  perm_of_nodup h.nodup h'.nodup fun job_id => (h.mem job_id).trans (h'.mem job_id).symm

-- Once the due jobs are promoted none is due at that time.
theorem Due.promoted {ids ids' : List String} (h : Due now table ids)
    (h' : Due now (table.promote_all ids) ids') : ids' = [] := by
  refine List.eq_nil_iff_forall_not_mem.mpr fun job_id hm => ?_
  obtain ⟨due_at, hdue, hle⟩ := (h'.mem job_id).mp hm
  rw [promote_all_due] at hdue
  by_cases hi : job_id ∈ ids
  · simp [hi] at hdue
  · rw [if_neg hi] at hdue
    exact hi ((h.mem job_id).mpr ⟨due_at, hdue, hle⟩)

-- With the clock standing still further rounds of promotion change nothing.
theorem Promotes.once {table' : JobTable} (hclock : ∀ time, clock time → time = now)
    (h : Promotes clock table table') :
    ∃ ids, Due now table ids ∧ table' = table.promote_all ids := by
  induction h with
  | last hnow hdue => exact ⟨_, hclock _ hnow ▸ hdue, rfl⟩
  | again hnow hdue hrest ih =>
      obtain ⟨ids, hids, rfl⟩ := ih
      have hdue' := hclock _ hnow ▸ hdue
      rw [hdue'.promoted hids]
      exact ⟨_, hdue', rfl⟩

-- The call meets at most one expired lease and at most one due retry.
def AtMostOne (now : ℚ≥0) (table : JobTable) : QueueCall → Prop
  | .claim _ _ => (∀ ids, Expired now table ids → ids.length ≤ 1) ∧
      ∀ ids, Due now table ids → ids.length ≤ 1
  | .recover_stale _ => ∀ ids, Expired now table ids → ids.length ≤ 1
  | _ => True

-- With the clock standing still the table has one answer to such a call.
theorem Answers.unique {call : QueueCall} {reply reply' : Except QueueError QueueReply}
    {table₁ table₂ : JobTable} (hclock : ∀ time, clock time → time = now)
    (hone : AtMostOne now table call) (h : Answers cfg clock table call reply table₁)
    (h' : Answers cfg clock table call reply' table₂) : reply = reply' ∧ table₁ = table₂ := by
  cases h with
  | enqueue_missing hm =>
      cases h' with
      | enqueue_missing => exact ⟨rfl, rfl⟩
      | enqueue_seen hn | enqueue_new hn => exact absurd hm hn
  | enqueue_seen hm hnow hseen =>
      cases h' with
      | enqueue_missing hn => exact absurd hn hm
      | enqueue_seen => exact ⟨rfl, rfl⟩
      | enqueue_new _ _ hnow' hnot =>
          rw [hclock _ hnow] at hseen
          rw [hclock _ hnow'] at hnot
          exact absurd hseen hnot
  | enqueue_new hm hnow hnow' hnot =>
      cases h' with
      | enqueue_missing hn => exact absurd hn hm
      | enqueue_seen _ hnow'' hseen =>
          rw [hclock _ hnow''] at hseen
          rw [hclock _ hnow'] at hnot
          exact absurd hseen hnot
      | enqueue_new _ hnow₂ hnow₂' =>
          rw [hclock _ hnow, hclock _ hnow', hclock _ hnow₂, hclock _ hnow₂']
          exact ⟨rfl, rfl⟩
  | claim_timeout hle =>
      cases h' with
      | claim_timeout => exact ⟨rfl, rfl⟩
      | claim hlt => exact absurd hlt (not_lt.mpr hle)
  | claim hlt hnow hexpired hpromotes hnow' =>
      cases h' with
      | claim_timeout hle => exact absurd hlt (not_lt.mpr hle)
      | claim _ hnow₂ hexpired₂ hpromotes₂ hnow₂' =>
          rw [hclock _ hnow] at hexpired
          rw [hclock _ hnow₂] at hexpired₂
          obtain rfl := eq_of_perm_of_length (hexpired.perm hexpired₂) (hone.1 _ hexpired)
          obtain ⟨due, hdue, rfl⟩ := hpromotes.once hclock
          obtain ⟨due₂, hdue₂, rfl⟩ := hpromotes₂.once hclock
          have hbefore : Due now table due :=
            ⟨hdue.nodup, fun job_id => by rw [hdue.mem, recover_all_due]⟩
          obtain rfl := eq_of_perm_of_length (hdue.perm hdue₂) (hone.2 _ hbefore)
          rw [hclock _ hnow', hclock _ hnow₂']
          exact ⟨rfl, rfl⟩
  | renew hnow =>
      cases h' with
      | renew hnow' =>
          rw [hclock _ hnow, hclock _ hnow']
          exact ⟨rfl, rfl⟩
  | retry hnow =>
      cases h' with
      | retry hnow' =>
          rw [hclock _ hnow, hclock _ hnow']
          exact ⟨rfl, rfl⟩
  | recover_stale hnow hexpired =>
      cases h' with
      | recover_stale hnow' hexpired' =>
          rw [hclock _ hnow] at hexpired
          rw [hclock _ hnow'] at hexpired'
          obtain rfl := eq_of_perm_of_length (hexpired.perm hexpired') (hone _ hexpired)
          exact ⟨rfl, rfl⟩
  | ack | dead_letters | remove_dead_letter | dead_letter_count =>
      cases h'
      exact ⟨rfl, rfl⟩

end JobTable

namespace MemoryQueue

def Live (queue : MemoryQueue) (job_id : String) : Prop :=
  job_id ∈ queue.ready ∨ (queue.inflight.get? job_id).isSome ∨
    (queue.scheduled.get? job_id).isSome ∨ job_id ∈ queue.dead

-- The calls of a side-by-side run: the clock stands still during the call, a
-- live job is not enqueued again once its marker has expired, and the call meets
-- at most one expired lease and at most one due retry.
def Admits (queue : MemoryQueue) (moment : Moment) (call : QueueCall) : Prop :=
  (∀ time ∈ moment.later, time = moment.now) ∧
  match call with
  | .enqueue job_id _ _ _ =>
      queue.Live job_id → ∃ expires ∈ queue.known.get? job_id, (moment.now : ℚ) < expires
  | .claim _ _ => (queue.stale moment.now).length ≤ 1 ∧ (queue.due moment.now).length ≤ 1
  | .recover_stale _ => (queue.stale moment.now).length ≤ 1
  | _ => True

instance (queue : MemoryQueue) (job_id : String) : Decidable (queue.Live job_id) :=
  inferInstanceAs (Decidable (_ ∨ _))

instance (queue : MemoryQueue) (moment : Moment) :
    (call : QueueCall) → Decidable (queue.Admits moment call)
  | .enqueue job_id _ _ _ =>
      inferInstanceAs (Decidable ((∀ time ∈ moment.later, _) ∧ (queue.Live job_id →
        ∃ expires ∈ queue.known.get? job_id, (moment.now : ℚ) < expires)))
  | .claim _ _ => inferInstanceAs (Decidable ((∀ time ∈ moment.later, _) ∧
      (queue.stale moment.now).length ≤ 1 ∧ (queue.due moment.now).length ≤ 1))
  | .recover_stale _ => inferInstanceAs (Decidable ((∀ time ∈ moment.later, _) ∧
      (queue.stale moment.now).length ≤ 1))
  | .ack _ | .renew _ | .retry _ _ | .dead_letters | .remove_dead_letter _ | .dead_letter_count =>
      inferInstanceAs (Decidable ((∀ time ∈ moment.later, _) ∧ True))

variable {queue : MemoryQueue} {table : JobTable} {moment : Moment} {call : QueueCall}

theorem Refines.absent_of_not_live (h : queue.Refines table) {job_id : String}
    (hn : ¬queue.Live job_id) : table.jobs job_id = .absent := by
  unfold Live at hn
  rw [h.ready, h.dead, h.lease, h.due, table.mem_ready, table.mem_dead] at hn
  cases hj : table.jobs job_id <;> simp [hj] at hn ⊢

theorem Refines.atMostOne (h : queue.Refines table) (hadmits : queue.Admits moment call) :
    AtMostOne moment.now table call.delivered := by
  have hexpired := h.expired moment.now
  have hdue := h.due_now moment.now
  obtain ⟨-, hcall⟩ := hadmits
  cases call with
  | claim set_order timeout =>
      exact ⟨fun ids hids => (hids.perm hexpired).length_eq ▸ hcall.1,
        fun ids hids => (hids.perm hdue).length_eq ▸ hcall.2⟩
  | recover_stale set_order => exact fun ids hids => (hids.perm hexpired).length_eq ▸ hcall
  | _ => trivial

theorem Refines.fresh (h : queue.Refines table) (hadmits : queue.Admits moment call)
    {job_id principal_id tenant_id : String} {request : JSONObject}
    (hcall : call = .enqueue job_id request principal_id tenant_id)
    (hseen : ¬table.Seen job_id moment.now) : table.jobs job_id = .absent := by
  subst hcall
  refine h.absent_of_not_live fun hlive => hseen ?_
  have hmarker := hadmits.2 hlive
  rwa [h.known] at hmarker

end MemoryQueue

-- The two backends side by side on the same calls. An envelope passed in may
-- show another time of the last retry on either side.
inductive SideBySide (cfg : Config) : MemoryQueue → Redis → Prop
  | start (now : ℚ≥0) : SideBySide cfg .empty (.empty now)
  | call {queue redis moment call call'} (h : SideBySide cfg queue redis)
      (hadmits : queue.Admits moment call) (hcall : call.delivered = call'.delivered) :
      SideBySide cfg (queue.call cfg moment call).2 (redis.call cfg moment call').2

section Agreement

variable {cfg : Config} {queue : MemoryQueue} {redis : Redis} {table : JobTable}
  {moment : Moment} {call call' : QueueCall}

-- One call: the same answer on both sides, and one table for both afterwards.
theorem answers_agree (hqueue : queue.Refines table) (hredis : redis.Refines table)
    (hadmits : queue.Admits moment call) (hcall : call.delivered = call'.delivered) :
    SameAnswer (queue.call cfg moment call).1 (redis.call cfg moment call').1 ∧
    ∃ table', (queue.call cfg moment call).2.Refines table' ∧
      (redis.call cfg moment call').2.Refines table' := by
  have hclock : ∀ time, moment.shows time → time = moment.now := by
    intro time ht
    rcases List.mem_cons.mp ht with h | h
    · exact h
    · exact hadmits.1 time h
  obtain ⟨reply, table₁, hanswer, hsame, hq⟩ := hqueue.answers cfg moment call
    fun job_id request principal_id tenant_id h _ => hqueue.fresh hadmits h
  obtain ⟨reply', table₂, hanswer', hsame', hr⟩ := hredis.answers cfg moment call'
    fun job_id request principal_id tenant_id h _ hseen => by
      subst h
      have henqueue : call = .enqueue job_id request principal_id tenant_id := by
        cases call <;> cases hcall
        rfl
      rw [hclock _ moment.shows_later] at hseen
      exact hqueue.fresh hadmits henqueue hseen
  rw [← hcall] at hanswer'
  obtain ⟨rfl, rfl⟩ := hanswer.unique hclock (hqueue.atMostOne hadmits) hanswer'
  exact ⟨hsame.trans hsame'.symm, table₁, hq, hr⟩

theorem SideBySide.refines (h : SideBySide cfg queue redis) :
    ∃ table, queue.Refines table ∧ redis.Refines table := by
  induction h with
  | start now => exact ⟨.empty, MemoryQueue.refines_empty, Redis.refines_empty now⟩
  | call _ hadmits hcall ih =>
      obtain ⟨table, hqueue, hredis⟩ := ih
      exact (answers_agree hqueue hredis hadmits hcall).2

-- Both backends serve the same list of calls.
def serve (cfg : Config) (queue : MemoryQueue) (redis : Redis) :
    List (Moment × QueueCall) → MemoryQueue × Redis
  | [] => (queue, redis)
  | (moment, call) :: rest =>
      serve cfg (queue.call cfg moment call).2 (redis.call cfg moment call).2 rest

def AdmitsAll (cfg : Config) (queue : MemoryQueue) : List (Moment × QueueCall) → Prop
  | [] => True
  | (moment, call) :: rest =>
      queue.Admits moment call ∧ AdmitsAll cfg (queue.call cfg moment call).2 rest

instance decidableAdmitsAll (cfg : Config) (queue : MemoryQueue) :
    (calls : List (Moment × QueueCall)) → Decidable (AdmitsAll cfg queue calls)
  | [] => .isTrue trivial
  | (moment, call) :: rest =>
      have := decidableAdmitsAll cfg (queue.call cfg moment call).2 rest
      inferInstanceAs (Decidable (_ ∧ _))

theorem SideBySide.serve (h : SideBySide cfg queue redis) {calls : List (Moment × QueueCall)}
    (hadmits : AdmitsAll cfg queue calls) :
    SideBySide cfg (serve cfg queue redis calls).1 (serve cfg queue redis calls).2 := by
  induction calls generalizing queue redis with
  | nil => exact h
  | cons call rest ih => exact ih (h.call hadmits.1 rfl) hadmits.2

end Agreement

-- The backends agree on every call of every side-by-side run.
theorem backends_agree {cfg : Config} {queue : MemoryQueue} {redis : Redis}
    (hrun : SideBySide cfg queue redis) {moment : Moment} {call call' : QueueCall}
    (hadmits : queue.Admits moment call) (hcall : call.delivered = call'.delivered) :
    SameAnswer (queue.call cfg moment call).1 (redis.call cfg moment call').1 := by
  obtain ⟨table, hqueue, hredis⟩ := hrun.refines
  exact (answers_agree hqueue hredis hadmits hcall).1

-- A job that is claimed, left to expire, recovered and claimed again.
def expiring : List (Moment × QueueCall) :=
  [(⟨1000, []⟩, .enqueue "job" [] "principal" "tenant"),
    (⟨1001, []⟩, .claim .inserted 1),
    (⟨1500, []⟩, .recover_stale .inserted)]

def expired : MemoryQueue × Redis := serve .default .empty (.empty 1000) expiring

theorem backends_agree_expiring :
    SameAnswer (expired.1.call .default ⟨1501, []⟩ (.claim .inserted 1)).1
      (expired.2.call .default ⟨1501, []⟩ (.claim .inserted 1)).1 := by
  have hrun : SideBySide .default expired.1 expired.2 :=
    SideBySide.serve (.start 1000) (by decide +kernel)
  exact backends_agree hrun (by decide +kernel) rfl

end ResearchAgent.JobQueue
