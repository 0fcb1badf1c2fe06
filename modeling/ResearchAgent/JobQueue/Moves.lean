import ResearchAgent.JobQueue.Backend

namespace ResearchAgent.JobQueue

open Library JobTable

namespace JobState

-- A job in flight is recovered once its lease is over.
def expire (cfg : Config) (now : ℚ≥0) : JobState → JobState
  | .inflight envelope lease_until =>
      if lease_until ≤ (now : ℚ) then .recovered cfg envelope else .inflight envelope lease_until
  | state => state

-- What promotion may do to one job.
inductive Promoted (clock : ℚ≥0 → Prop) : JobState → JobState → Prop
  | left (state : JobState) : Promoted clock state state
  | due {envelope : JobEnvelope} {due_at : ℚ} {now : ℚ≥0} (hnow : clock now)
      (hdue : due_at ≤ (now : ℚ)) : Promoted clock (.scheduled envelope due_at) (.ready envelope)

theorem Promoted.trans {clock : ℚ≥0 → Prop} {state waiting state' : JobState}
    (h : Promoted clock state waiting) (h' : Promoted clock waiting state') :
    Promoted clock state state' := by
  cases h with
  | left => exact h'
  | due hnow hdue =>
      cases h' with
      | left => exact .due hnow hdue

-- What becomes of one job when the first of the line is handed out.
inductive Popped (cfg : Config) (now : ℚ≥0) (job_id : String) :
    Option JobEnvelope → JobState → JobState → Prop
  | left {claimed : Option JobEnvelope} (state : JobState)
      (hother : ∀ envelope ∈ claimed, envelope.job_id ≠ job_id) :
      Popped cfg now job_id claimed state state
  | handed {envelope : JobEnvelope} (hid : envelope.job_id = job_id) :
      Popped cfg now job_id (some { envelope with attempt := envelope.attempt + 1 })
        (.ready envelope)
        (.inflight { envelope with attempt := envelope.attempt + 1 } (cfg.lease_until now))

end JobState

-- The call and its answer neither admit the job nor hand it out.
def Quiet (job_id : String) (call : QueueCall) (reply : Except QueueError QueueReply) : Prop :=
  match call, reply with
  | .enqueue other _ _ _, .ok (.bool true) => other ≠ job_id
  | .claim _ _, .ok (.claimed (some envelope)) => envelope.job_id ≠ job_id
  | _, _ => True

theorem quiet_of_other {job_id : String} {set_order : SetOrder} {timeout : ℚ}
    {claimed : Option JobEnvelope} (h : ∀ envelope ∈ claimed, envelope.job_id ≠ job_id) :
    Quiet job_id (.claim set_order timeout) (.ok (.claimed claimed)) := by
  cases claimed with
  | none => trivial
  | some envelope => exact h envelope rfl

-- Everything that a call can do to one job.
inductive Move (cfg : Config) (clock : ℚ≥0 → Prop) (job_id : String) :
    QueueCall → Except QueueError QueueReply → JobState → JobState → Prop
  | left {call reply} (state : JobState) (hquiet : Quiet job_id call reply) :
      Move cfg clock job_id call reply state state
  | admitted {request principal_id tenant_id now} :
      Move cfg clock job_id (.enqueue job_id request principal_id tenant_id) (.ok (.bool true))
        .absent (.ready (new_envelope now job_id request principal_id tenant_id))
  | claimed {set_order timeout now now' claimed state waiting state'}
      (hpromoted : JobState.Promoted clock (state.expire cfg now) waiting)
      (hpopped : JobState.Popped cfg now' job_id claimed waiting state') :
      Move cfg clock job_id (.claim set_order timeout) (.ok (.claimed claimed)) state state'
  | acked {envelope current lease_until} (hid : envelope.job_id = job_id) :
      Move cfg clock job_id (.ack envelope) (.ok (.bool true)) (.inflight current lease_until)
        .absent
  | renewed {envelope current lease_until now} (hid : envelope.job_id = job_id) :
      Move cfg clock job_id (.renew envelope) (.ok (.bool true)) (.inflight current lease_until)
        (.inflight current (cfg.lease_until now))
  | buried {envelope error current lease_until} (hid : envelope.job_id = job_id)
      (hcap : envelope.attempt ≥ cfg.max_attempts) :
      Move cfg clock job_id (.retry envelope error) (.ok (.outcome .dead_letter))
        (.inflight current lease_until) (.dead { envelope with last_error := some error })
  | delayed {envelope error current lease_until now} (hid : envelope.job_id = job_id)
      (hcap : ¬envelope.attempt ≥ cfg.max_attempts) :
      Move cfg clock job_id (.retry envelope error) (.ok (.outcome .scheduled))
        (.inflight current lease_until)
        (.scheduled { envelope with last_error := some error } (cfg.retry_at now envelope))
  | recovered {set_order count now state} :
      Move cfg clock job_id (.recover_stale set_order) (.ok (.count count)) state
        (state.expire cfg now)
  | removed {envelope current} (hid : envelope.job_id = job_id) :
      Move cfg clock job_id (.remove_dead_letter envelope) (.ok (.bool true)) (.dead current)
        .absent

namespace JobTable

variable {cfg : Config} {clock : ℚ≥0 → Prop} {table table' : JobTable} {now : ℚ≥0}
  {ids : List String} {call : QueueCall} {reply : Except QueueError QueueReply}

-- Every envelope stands under its own id.
def Keyed (table : JobTable) : Prop :=
  ∀ job_id, ∀ envelope ∈ (table.jobs job_id).envelope, envelope.job_id = job_id

theorem recover_self {job_id : String} {envelope : JobEnvelope} {lease_until : ℚ}
    (hj : table.jobs job_id = .inflight envelope lease_until) :
    (table.recover cfg job_id).jobs job_id = .recovered cfg envelope := by
  simp [recover, hj]

theorem recover_all_jobs_ne {job_id : String} (h : job_id ∉ ids) :
    (table.recover_all cfg ids).jobs job_id = table.jobs job_id := by
  induction ids generalizing table with
  | nil => rfl
  | cons first rest ih =>
      rw [List.mem_cons, not_or] at h
      exact (ih h.2).trans (recover_jobs_ne cfg table h.1)

theorem recover_all_jobs {job_id : String} {envelope : JobEnvelope} {lease_until : ℚ}
    (h : job_id ∈ ids) (hnodup : ids.Nodup)
    (hj : table.jobs job_id = .inflight envelope lease_until) :
    (table.recover_all cfg ids).jobs job_id = .recovered cfg envelope := by
  induction ids generalizing table with
  | nil => cases h
  | cons first rest ih =>
      obtain ⟨hfirst, hrest⟩ := List.nodup_cons.mp hnodup
      rcases List.mem_cons.mp h with rfl | hmem
      · exact (recover_all_jobs_ne hfirst).trans (recover_self hj)
      · refine ih hmem hrest ?_
        rw [recover_jobs_ne cfg table (ne_of_mem_of_not_mem hmem hfirst), hj]

-- Recovery expires each job at the one time.
theorem Expired.jobs (h : Expired now table ids) (job_id : String) :
    (table.recover_all cfg ids).jobs job_id = (table.jobs job_id).expire cfg now := by
  have hmem := h.mem job_id
  cases hj : table.jobs job_id with
  | inflight envelope lease_until =>
      rw [hj] at hmem
      simp only [JobState.lease, Option.mem_some_iff, exists_eq_left'] at hmem
      dsimp only [JobState.expire]
      split
      · next hle => exact recover_all_jobs (hmem.mpr hle) h.nodup hj
      · next hle => rw [recover_all_jobs_ne (mt hmem.mp hle), hj]
  | absent | ready | scheduled | dead =>
      rw [hj] at hmem
      rw [recover_all_jobs_ne (by simp [hmem]), hj]
      rfl

theorem promote_self {job_id : String} {envelope : JobEnvelope} {due_at : ℚ}
    (hj : table.jobs job_id = .scheduled envelope due_at) :
    (table.promote job_id).jobs job_id = .ready envelope := by
  simp [promote, hj]

theorem promote_all_jobs_ne {job_id : String} (h : job_id ∉ ids) :
    (table.promote_all ids).jobs job_id = table.jobs job_id := by
  induction ids generalizing table with
  | nil => rfl
  | cons first rest ih =>
      rw [List.mem_cons, not_or] at h
      exact (ih h.2).trans (promote_jobs_ne table h.1)

theorem promote_all_jobs {job_id : String} {envelope : JobEnvelope} {due_at : ℚ}
    (h : job_id ∈ ids) (hnodup : ids.Nodup)
    (hj : table.jobs job_id = .scheduled envelope due_at) :
    (table.promote_all ids).jobs job_id = .ready envelope := by
  induction ids generalizing table with
  | nil => cases h
  | cons first rest ih =>
      obtain ⟨hfirst, hrest⟩ := List.nodup_cons.mp hnodup
      rcases List.mem_cons.mp h with rfl | hmem
      · exact (promote_all_jobs_ne hfirst).trans (promote_self hj)
      · refine ih hmem hrest ?_
        rw [promote_jobs_ne table (ne_of_mem_of_not_mem hmem hfirst), hj]

theorem Due.jobs (h : Due now table ids) (hnow : clock now) (job_id : String) :
    JobState.Promoted clock (table.jobs job_id) ((table.promote_all ids).jobs job_id) := by
  by_cases hmem : job_id ∈ ids
  · obtain ⟨due_at, hdue, hle⟩ := (h.mem job_id).mp hmem
    obtain ⟨envelope, hj⟩ := scheduled_of_due hdue
    rw [promote_all_jobs hmem h.nodup hj, hj]
    exact .due hnow hle
  · rw [promote_all_jobs_ne hmem]
    exact .left _

theorem Promotes.jobs (h : Promotes clock table table') (job_id : String) :
    JobState.Promoted clock (table.jobs job_id) (table'.jobs job_id) := by
  induction h with
  | last hnow hdue => exact hdue.jobs hnow job_id
  | again hnow hdue _ ih => exact (hdue.jobs hnow job_id).trans ih

theorem Keyed.expired (h : table.Keyed) (hexpired : Expired now table ids) :
    (table.recover_all cfg ids).Keyed := by
  intro job_id envelope henvelope
  have hkeyed := h job_id
  rw [hexpired.jobs] at henvelope
  generalize table.jobs job_id = state at hkeyed henvelope
  cases state with
  | inflight current lease_until =>
      dsimp only [JobState.expire] at henvelope
      split at henvelope
      · unfold JobState.recovered at henvelope
        split at henvelope
        · cases henvelope
          exact hkeyed current rfl
        · cases henvelope
          exact hkeyed current rfl
      · exact hkeyed envelope henvelope
  | absent | ready | scheduled | dead => exact hkeyed envelope henvelope

theorem Keyed.promotes (h : table.Keyed) (hpromotes : Promotes clock table table') :
    table'.Keyed := by
  intro job_id envelope henvelope
  have hjob := hpromotes.jobs job_id
  have hkeyed := h job_id
  revert henvelope
  generalize table.jobs job_id = state at hjob hkeyed
  generalize table'.jobs job_id = state' at hjob
  cases hjob with
  | left => exact hkeyed envelope
  | due => exact hkeyed envelope

theorem pop_jobs (h : table.Keyed) (now : ℚ≥0) (job_id : String) :
    JobState.Popped cfg now job_id (table.pop cfg now).1 (table.jobs job_id)
      ((table.pop cfg now).2.jobs job_id) := by
  cases hready : table.ready with
  | nil =>
      rw [pop_of_empty cfg now hready]
      exact .left _ nofun
  | cons head rest =>
      obtain ⟨envelope, hj⟩ := ready_of_is_ready ((table.mem_ready head).mp (by simp [hready]))
      have hid := h head envelope (by simp [hj])
      have hpop := pop_of_ready cfg now hready hj
      rw [hpop, put_jobs]
      by_cases ho : job_id = head
      · subst ho
        rw [if_pos rfl, hj]
        exact .handed hid
      · rw [if_neg ho]
        refine .left _ ?_
        rintro _ ⟨⟩ heq
        exact ho (heq.symm.trans hid)

theorem put_moves {job_id other : String} {state : JobState} (hquiet : Quiet job_id call reply)
    (hput : other = job_id → Move cfg clock job_id call reply (table.jobs job_id) state) :
    Move cfg clock job_id call reply (table.jobs job_id) ((table.put other state).jobs job_id) := by
  rw [put_jobs]
  split
  · next heq => exact hput heq.symm
  · exact .left _ hquiet

-- The inversion of a call: what it has done to each job.
theorem Answers.moves (h : Answers cfg clock table call reply table') (hkeyed : table.Keyed)
    (job_id : String) :
    Move cfg clock job_id call reply (table.jobs job_id) (table'.jobs job_id) := by
  cases h with
  | enqueue_missing | enqueue_seen | claim_timeout | dead_letters | dead_letter_count =>
      exact .left _ trivial
  | @enqueue_new other request principal_id tenant_id now now' _ _ _ _ habsent =>
      simp only [enqueue, put_jobs, new_envelope]
      split
      · next heq =>
        subst heq
        rw [habsent]
        exact .admitted
      · next hne => exact .left _ (Ne.symm hne)
  | @claim set_order timeout now ids waiting now' htimeout hnow hexpired hpromotes hnow' =>
      have hpromoted := hpromotes.jobs job_id
      rw [hexpired.jobs] at hpromoted
      exact .claimed hpromoted (pop_jobs ((hkeyed.expired hexpired).promotes hpromotes) now' job_id)
  | @ack envelope =>
      unfold JobTable.ack
      cases hj : table.jobs envelope.job_id with
      | absent | ready | scheduled | dead => exact .left _ trivial
      | inflight current lease_until =>
          refine put_moves trivial fun heq => ?_
          subst heq
          rw [hj]
          exact .acked rfl
  | @renew envelope now =>
      unfold JobTable.renew
      cases hj : table.jobs envelope.job_id with
      | absent | ready | scheduled | dead => exact .left _ trivial
      | inflight current lease_until =>
          refine put_moves trivial fun heq => ?_
          subst heq
          rw [hj]
          exact .renewed rfl
  | @retry envelope error now =>
      unfold JobTable.retry
      cases hj : table.jobs envelope.job_id with
      | absent | ready | scheduled | dead => exact .left _ trivial
      | inflight current lease_until =>
          dsimp only
          split
          · next hcap =>
            refine put_moves trivial fun heq => ?_
            subst heq
            rw [hj]
            exact .buried rfl hcap
          · next hcap =>
            refine put_moves trivial fun heq => ?_
            subst heq
            rw [hj]
            exact .delayed rfl hcap
  | recover_stale hnow hexpired =>
      rw [hexpired.jobs]
      exact .recovered
  | @remove_dead_letter envelope =>
      unfold JobTable.remove_dead_letter
      cases hj : table.jobs envelope.job_id with
      | absent | ready | scheduled | inflight => exact .left _ trivial
      | dead current =>
          refine put_moves trivial fun heq => ?_
          subst heq
          rw [hj]
          exact .removed rfl

end JobTable

namespace MemoryQueue

-- The readings of the clock up to the one at which a job is found ready are all that a
-- wait depends on.
theorem wait_ready_taken {now ready_at : ℚ≥0} {wakeups : List ℚ≥0} {queue : MemoryQueue}
    (h : (wait_ready now wakeups queue).1 = some ready_at) :
    ∃ taken, taken <+: wakeups ∧ wait_ready now taken queue = wait_ready now wakeups queue ∧
      ((now :: wakeups).Pairwise (· ≤ ·) → ∀ time ∈ now :: taken, time ≤ ready_at) := by
  induction wakeups generalizing now queue with
  | nil =>
      refine ⟨[], List.prefix_refl _, rfl, ?_⟩
      unfold wait_ready at h
      split at h
      · cases h
      · cases h
        simp
  | cons wakeup rest ih =>
      unfold wait_ready at h
      split at h
      · next hempty =>
        obtain ⟨taken, hprefix, hsame, hle⟩ := ih h
        refine ⟨wakeup :: taken, (List.cons_prefix_cons).mpr ⟨rfl, hprefix⟩, ?_, ?_⟩
        · simp only [wait_ready, hempty, if_true, hsame]
        · intro hsorted time htime
          obtain ⟨hnow, hrest⟩ := List.pairwise_cons.mp hsorted
          rcases List.mem_cons.mp htime with rfl | htime
          · exact (hnow wakeup List.mem_cons_self).trans (hle hrest wakeup List.mem_cons_self)
          · exact hle hrest time htime
      · next hready =>
        cases h
        refine ⟨[], List.nil_prefix, ?_, by simp⟩
        simp only [wait_ready, hready]
        rfl

end MemoryQueue

namespace Redis

open Refines

-- The clock does not go back.
def Advances (timed : Timed) : Prop := (timed.1.now :: timed.2).Pairwise (· ≤ ·)

variable {timed : Timed}

theorem Advances.exec (h : Advances timed) (command : Command) :
    Advances (timed_exec timed command).2 := by
  have hother : Advances ((timed.1.exec command).2, timed.2) := by
    rw [Advances, exec_now]
    exact h
  cases command with
  | clock =>
      rcases timed with ⟨redis, _ | ⟨now, later⟩⟩
      · exact h
      · exact (List.pairwise_cons.mp h).2
  | _ => exact hother

theorem Advances.run {α : Type} (h : Advances timed) (program : QueueProgram α) :
    Advances (program.run timed_exec timed).2 := by
  induction program generalizing timed with
  | ret | raise => exact h
  | call command next ih => exact ih _ (h.exec command)

theorem Advances.reads (h : Advances timed) : Reads (timed.1.now ≤ ·) timed :=
  ⟨le_rfl, (List.pairwise_cons.mp h).1⟩

end Redis

-- The readings of one call do not go back.
def Moment.InOrder (moment : Moment) : Prop := (moment.now :: moment.later).Pairwise (· ≤ ·)

theorem Moment.exists_last (moment : Moment) :
    ∃ last, moment.shows last ∧
      (moment.InOrder → ∀ time, moment.shows time → time ≤ last) := by
  rcases moment with ⟨now, later⟩
  simp only [InOrder, shows]
  induction later generalizing now with
  | nil => exact ⟨now, by simp⟩
  | cons next rest ih =>
      obtain ⟨last, hlast, hle⟩ := ih next
      refine ⟨last, List.mem_cons_of_mem _ hlast, fun h time htime => ?_⟩
      obtain ⟨hnow, hrest⟩ := List.pairwise_cons.mp h
      rcases List.mem_cons.mp htime with rfl | htime
      · exact (hnow next List.mem_cons_self).trans (hle hrest next List.mem_cons_self)
      · exact hle hrest time htime

-- What is known of the claim's own readings: it expires leases at its first one, and hands
-- a job out at one that is not before any of those at which it promotes, unless the clock
-- goes back meanwhile.
def Claims (cfg : Config) (moment : Moment) (table : JobTable) (now : ℚ≥0)
    (claimed : Option JobEnvelope) (table' : JobTable) : Prop :=
  ∃ ids waiting, moment.shows now ∧ Expired moment.now table ids ∧
    Promotes (fun time => moment.shows time ∧ (moment.InOrder → time ≤ now))
      (table.recover_all cfg ids) waiting ∧
    waiting.pop cfg now = (claimed, table')

namespace Backend

variable {cfg : Config} {backend : Backend} {table : JobTable} {moment : Moment}

theorem Refines.keyed (h : backend.Refines table) : table.Keyed := by
  intro job_id envelope henvelope
  cases backend with
  | memory queue =>
      obtain ⟨stored, -, rfl, hid⟩ := MemoryQueue.Refines.stored h job_id henvelope
      exact hid
  | redis server =>
      obtain ⟨stored, -, rfl, hid⟩ := Redis.Refines.stored h job_id henvelope
      exact hid

theorem Refines.lease_eq (h : backend.Refines table) (job_id : String) :
    (backend.entry job_id).lease = (table.jobs job_id).lease := by
  cases backend with
  | memory queue => exact MemoryQueue.Refines.lease h job_id
  | redis server => exact Redis.Refines.lease h job_id

theorem Refines.started {server : Redis} (h : server.Refines table) (moment : Moment) :
    (({ server with now := moment.now }, moment.later) : Redis.Timed).1.Refines table :=
  h.congr rfl rfl rfl rfl

theorem Refines.recovers (h : backend.Refines table) (cfg : Config) (moment : Moment)
    (set_order : SetOrder) :
    ∃ ids, Expired moment.now table ids ∧
      (backend.call cfg moment (.recover_stale set_order)).1 = .ok (.count ids.length) ∧
      (backend.call cfg moment (.recover_stale set_order)).2.Refines
        (table.recover_all cfg ids) := by
  cases backend with
  | memory queue =>
      obtain ⟨queue', hrun, hrefines⟩ := MemoryQueue.Refines.recover_stale h cfg moment.now
      refine ⟨_, MemoryQueue.Refines.expired h moment.now, ?_, ?_⟩
      · simp only [call, MemoryQueue.call, hrun]
        rfl
      · simp only [call, MemoryQueue.call, hrun]
        exact hrefines
  | redis server =>
      have hstart := Refines.started h moment
      obtain ⟨ids, timed', hrun, hexpired, hrefines⟩ := hstart.recover_stale cfg set_order
      refine ⟨ids, hexpired, ?_, ?_⟩
      · simp only [call, Redis.call, QueueCall.on_redis, Program.run_bind_ret, hrun]
        rfl
      · simp only [call, Redis.call, QueueCall.on_redis, Program.run_bind_ret, hrun]
        exact hrefines

theorem Refines.retries (h : backend.Refines table) (cfg : Config) (moment : Moment)
    (envelope : JobEnvelope) (error : String) :
    (backend.call cfg moment (.retry envelope error)).1 =
        (table.retry cfg moment.now envelope.delivered error).1.map .outcome ∧
      (backend.call cfg moment (.retry envelope error)).2.Refines
        (table.retry cfg moment.now envelope.delivered error).2 := by
  cases backend with
  | memory queue =>
      obtain ⟨hreply, hrefines⟩ := MemoryQueue.Refines.retry h cfg moment.now envelope error
      refine ⟨?_, hrefines⟩
      rw [← hreply]
      rfl
  | redis server =>
      obtain ⟨hreply, hrefines⟩ := (Refines.started h moment).retry cfg envelope error
      simp only [call, Redis.call, QueueCall.on_redis, Program.run_bind_ret]
      refine ⟨?_, hrefines⟩
      rw [← hreply]
      rfl

theorem same_claimed {reply : Option JobEnvelope} {claimed : Option JobEnvelope}
    (h : reply.map JobEnvelope.delivered = claimed) :
    SameAnswer (.ok (.claimed reply)) (.ok (.claimed claimed)) := by
  subst h
  cases reply <;> rfl

-- Two claims that say the same hand out the same job.
theorem same_claimed_some {claimed : JobEnvelope} {handed : Option JobEnvelope}
    (h : SameAnswer (.ok (.claimed (some claimed))) (.ok (.claimed handed))) :
    ∃ other, handed = some other ∧ other.delivered = claimed.delivered :=
  Option.map_eq_some_iff.mp (Eq.symm h)

theorem Refines.claims_memory {queue : MemoryQueue} (h : queue.Refines table) (cfg : Config)
    (moment : Moment) {timeout : ℚ} (htimeout : 0 < timeout) :
    ∃ now claimed table', Claims cfg moment table now claimed table' ∧
      SameAnswer ((queue.claim cfg moment.now timeout moment.later).1.map .claimed)
        (.ok (.claimed claimed)) ∧
      (queue.claim cfg moment.now timeout moment.later).2.Refines table' := by
  obtain ⟨recovered, hstale, hrecovered⟩ := h.recover_stale cfg moment.now
  have hpromoted := hrecovered.promote_due moment.now
  unfold MemoryQueue.claim
  simp only [not_le.mpr htimeout, if_false, hstale]
  rcases hwait : MemoryQueue.wait_ready moment.now moment.later
    (MemoryQueue.promote_due_memory moment.now recovered) with ⟨_ | ready_at, after⟩
  -- Nothing is ready until the last reading.
  · obtain ⟨last, hlast, hle⟩ := moment.exists_last
    have hshown : ∀ time, moment.shows time →
        moment.shows time ∧ (moment.InOrder → time ≤ last) :=
      fun time htime => ⟨htime, fun horder => hle horder time htime⟩
    have hnow := hshown moment.now (by simp [Moment.shows])
    obtain ⟨waiting, hpromotes, hrefines, hempty⟩ := hpromoted.wait_ready
      (.last hnow (hrecovered.due_now moment.now)) hnow
      (fun time (htime : time ∈ moment.later) => hshown time (by simp [Moment.shows, htime]))
    rw [hwait] at hrefines hempty
    exact ⟨last, none, waiting, ⟨_, waiting, hlast, h.expired moment.now, hpromotes,
      pop_of_empty cfg last hempty⟩, rfl, hrefines⟩
  · have hready : (MemoryQueue.wait_ready moment.now moment.later
        (MemoryQueue.promote_due_memory moment.now recovered)).1 = some ready_at := by rw [hwait]
    obtain ⟨taken, hprefix, hsame, hle⟩ := MemoryQueue.wait_ready_taken hready
    have hnow : moment.shows moment.now ∧ (moment.InOrder → moment.now ≤ ready_at) :=
      ⟨by simp [Moment.shows], fun horder => hle horder _ List.mem_cons_self⟩
    have htaken : ∀ time ∈ taken,
        moment.shows time ∧ (moment.InOrder → time ≤ ready_at) := fun time htime =>
      ⟨by simp [Moment.shows, hprefix.subset htime],
        fun horder => hle horder _ (List.mem_cons_of_mem _ htime)⟩
    obtain ⟨waiting, hpromotes, hrefines, hclock⟩ := hpromoted.wait_ready
      (.last hnow (hrecovered.due_now moment.now)) hnow htaken
    rw [hsame, hwait] at hrefines hclock
    obtain ⟨reply, hreply, hdelivered, hpop⟩ := hrefines.pop_ready cfg ready_at
    refine ⟨ready_at, _, _, ⟨_, waiting, hclock.1, h.expired moment.now, hpromotes, rfl⟩, ?_, hpop⟩
    rw [hreply]
    exact same_claimed hdelivered

theorem Refines.claims (h : backend.Refines table) (cfg : Config) (moment : Moment)
    (set_order : SetOrder) {timeout : ℚ} (htimeout : 0 < timeout) :
    ∃ now claimed table', Claims cfg moment table now claimed table' ∧
      SameAnswer (backend.call cfg moment (.claim set_order timeout)).1 (.ok (.claimed claimed)) ∧
      (backend.call cfg moment (.claim set_order timeout)).2.Refines table' := by
  cases backend with
  | memory queue => exact claims_memory h cfg moment htimeout
  | redis server =>
      have hstart := Refines.started h moment
      have hreads : Redis.Reads moment.shows ({ server with now := moment.now }, moment.later) :=
        ⟨by simp [Moment.shows], fun time htime => by simp [Moment.shows, htime]⟩
      obtain ⟨ids, recovered, hstale, hexpired, hrecovered⟩ := hstart.recover_stale cfg set_order
      have hreads' := hreads.run (RedisQueue.recover_stale cfg set_order)
      rw [hstale] at hreads'
      have hadvances : moment.InOrder → Redis.Advances recovered := fun horder => by
        have hfirst : Redis.Advances ({ server with now := moment.now }, moment.later) := horder
        have hrun := hfirst.run (RedisQueue.recover_stale cfg set_order)
        rwa [hstale] at hrun
      obtain ⟨due, promoted, hpromote, hdue, hpromoted⟩ := hrecovered.promote_due
      -- What is read after the promotion is not before it.
      have hlater : Redis.Reads
          (fun time => moment.shows time ∧ (moment.InOrder → recovered.1.now ≤ time))
          recovered :=
        ⟨⟨hreads'.1, fun _ => le_rfl⟩, fun time htime =>
          ⟨hreads'.2 time htime, fun horder => (hadvances horder).reads.2 time htime⟩⟩
      have hlater' := hlater.run RedisQueue.promote_due
      rw [hpromote] at hlater'
      obtain ⟨reply, timed', now, hnow, hpop, hdelivered, hrefines⟩ :=
        hpromoted.pop_ready cfg hlater'
      refine ⟨now, _, _, ⟨ids, _, hnow.1, hexpired, .last ⟨hreads'.1, hnow.2⟩ hdue, rfl⟩, ?_⟩
      simp only [call, Redis.call, QueueCall.on_redis, Program.run_bind_ret, Prod.map]
      unfold RedisQueue.claim
      rw [if_neg (not_le.mpr htimeout), Program.run_bind_ok Redis.timed_exec hstale,
        Program.run_bind_ok Redis.timed_exec hpromote, hpop]
      exact ⟨same_claimed hdelivered, hrefines⟩

end Backend

end ResearchAgent.JobQueue
