import ResearchAgent.JobQueue.Ordering
import ResearchAgent.JobQueue.Stamps

namespace ResearchAgent.JobQueue

open Library JobTable

section History

variable {ι : Type} {trace : List (Performed ι)} {job_id : String}

-- The call has put the job off.
def Performed.Delays (performed : Performed ι) (job_id : String) : Prop :=
  performed.result = .ok (.outcome .scheduled) ∧ ∃ envelope error,
    performed.call = .retry envelope error ∧ envelope.job_id = job_id

-- A retry has put the job off since it was last admitted.
def PutOff (job_id : String) : List (Performed ι) → Prop
  | [] => False
  | performed :: trace =>
      performed.Delays job_id ∨ ¬performed.Admits job_id ∧ PutOff job_id trace

-- No envelope that the call returns has a time of retry.
def Performed.Current (performed : Performed ι) : Prop :=
  ∀ value, performed.result = .ok value → ∀ envelope ∈ value.handed, envelope.retry_at = none

-- The job that is next in the line was not put off. Only the memory backend keeps the time
-- of the retry when it hands a job out.
def Undelayed (cfg : Config) (trace : List (Performed ι)) (backend : Backend)
    (performed : Performed ι) : Prop :=
  match backend, performed.call with
  | .memory queue, .claim _ timeout =>
      0 < timeout → ∀ job_id ∈ queue.next cfg performed.moment, ¬PutOff job_id trace
  | _, _ => True

end History

-- Every scheduled job is stored with the time at which it is scheduled.
def Backend.Timely (backend : Backend) : Prop :=
  ∀ job_id due_at, (backend.entry job_id).scheduled = some due_at →
    ∃ envelope, backend.stored job_id = some envelope ∧ envelope.retry_at = some due_at

-- Whether a claim keeps the time of the retry.
def Backend.Keeps : Backend → Prop
  | memory _ => True
  | redis _ => False

namespace Metadata

-- What is stored for a job, by the place where it stands.
structure Dated (keeps delayed : Prop) (job_id : String) (state : JobState)
    (stamp : Option (String × Option ℚ)) : Prop where
  scheduled : ∀ due_at, state.due = some due_at → stamp = some (job_id, some due_at)
  cleared : state.lease.isSome = true ∨ state.is_dead = true → stamp = some (job_id, none)
  kept : keeps → state ≠ .absent → state.is_dead = false →
    ∃ retry_at, stamp = some (job_id, retry_at) ∧ (retry_at = none ↔ ¬delayed)

variable {keeps delayed : Prop} {job_id : String} {state state' : JobState}
  {stamp : Option (String × Option ℚ)} {cfg : Config} {clock : ℚ≥0 → Prop}

theorem dated_absent : Dated keeps delayed job_id .absent stamp where
  scheduled _ h := by cases h
  cleared h := by simp at h
  kept _ h := absurd rfl h

theorem dated_ready {envelope : JobEnvelope}
    (h : keeps → ∃ retry_at, stamp = some (job_id, retry_at) ∧ (retry_at = none ↔ ¬delayed)) :
    Dated keeps delayed job_id (.ready envelope) stamp where
  scheduled _ hdue := by cases hdue
  cleared hplace := by simp at hplace
  kept hkeeps _ _ := h hkeeps

theorem dated_inflight {envelope : JobEnvelope} {lease_until : ℚ}
    (hcleared : stamp = some (job_id, none)) (hkept : keeps → ¬delayed) :
    Dated keeps delayed job_id (.inflight envelope lease_until) stamp where
  scheduled _ hdue := by cases hdue
  cleared _ := hcleared
  kept hkeeps _ _ := ⟨none, hcleared, iff_of_true rfl (hkept hkeeps)⟩

theorem dated_dead {envelope : JobEnvelope} (h : stamp = some (job_id, none)) :
    Dated keeps delayed job_id (.dead envelope) stamp where
  scheduled _ hdue := by cases hdue
  cleared _ := h
  kept _ _ hdead := by cases hdead

-- What is in flight or dead carries no time, so what a lease leaves behind does not either.
theorem Dated.expire (h : Dated keeps delayed job_id state stamp) (cfg : Config) (now : ℚ≥0) :
    Dated keeps delayed job_id (state.expire cfg now) stamp := by
  cases state with
  | absent | ready | scheduled | dead => exact h
  | inflight envelope lease_until =>
      unfold JobState.expire
      dsimp only
      split
      · unfold JobState.recovered
        split
        · exact dated_dead (h.cleared (.inl rfl))
        · exact dated_ready fun hkeeps => h.kept hkeeps JobState.noConfusion rfl
      · exact h

theorem Dated.promoted (h : Dated keeps delayed job_id state stamp)
    (hpromoted : JobState.Promoted clock state state') :
    Dated keeps delayed job_id state' stamp := by
  cases hpromoted with
  | left => exact h
  | due => exact dated_ready fun hkeeps => h.kept hkeeps JobState.noConfusion rfl

-- Answers that say the same write the same anew.
theorem restamp_same {moment : Moment} {call : QueueCall}
    {result reply : Except QueueError QueueReply} (h : SameAnswer result reply) (job_id : String) :
    restamp cfg moment job_id call result = restamp cfg moment job_id call.delivered reply := by
  rcases result with error | value <;> rcases reply with error' | value'
  · cases call <;> rfl
  · exact False.elim h
  · exact False.elim h
  have hreply : value.Same value' := h
  cases value with
  | bool said =>
      cases value' with
      | bool said' =>
          obtain rfl : said = said' := hreply
          cases said <;> cases call <;> rfl
      | claimed | outcome | count | envelopes => exact False.elim hreply
  | outcome said =>
      cases value' with
      | outcome said' =>
          obtain rfl : said = said' := hreply
          cases said <;> cases call <;> rfl
      | bool | claimed | count | envelopes => exact False.elim hreply
  | claimed | count | envelopes =>
      cases value' <;> first
        | exact False.elim hreply
        | cases call <;> rfl

section Calls

variable {ι : Type} {trace : List (Performed ι)} {performed : Performed ι} {table table' : JobTable}
  {reply : Except QueueError QueueReply}

-- A call that writes nothing of the job leaves its past as it was.
theorem putOff_of_untouched (cfg : Config)
    (h : restamp cfg performed.moment job_id performed.call performed.result = none) :
    PutOff job_id (performed :: trace) ↔ PutOff job_id trace := by
  have hdelays : ¬performed.Delays job_id := by
    rintro ⟨hresult, envelope, error, hcall, rfl⟩
    rw [hcall, hresult] at h
    simp [restamp] at h
  have hadmits : ¬performed.Admits job_id := by
    rintro ⟨hresult, request, principal_id, tenant_id, hcall⟩
    rw [hcall, hresult] at h
    simp [restamp] at h
  show performed.Delays job_id ∨ ¬performed.Admits job_id ∧ PutOff job_id trace ↔ _
  simp [hdelays, hadmits]

-- What an acknowledged or removed job leaves.
theorem absent_of_ack (h : (table.ack job_id).1 = true) :
    (table.ack job_id).2.jobs job_id = .absent := by
  unfold JobTable.ack at h ⊢
  split
  · simp
  · next hother =>
    split at h
    · next hj => exact absurd hj (hother _ _)
    · cases h

theorem absent_of_remove (h : (table.remove_dead_letter job_id).1 = true) :
    (table.remove_dead_letter job_id).2.jobs job_id = .absent := by
  unfold JobTable.remove_dead_letter at h ⊢
  split
  · simp
  · next hother =>
    split at h
    · next hj => exact absurd hj (hother _)
    · cases h

-- A call that writes the stamp of the job anew leaves the job where that stamp belongs.
theorem dated_of_restamp {written : Option (String × Option ℚ)}
    (hanswer : Answers cfg performed.moment.shows table performed.call.delivered reply table')
    (hsame : SameAnswer performed.result reply)
    (hretry : ∀ envelope error, performed.call = .retry envelope error →
      reply = (table.retry cfg performed.moment.now envelope.delivered error).1.map .outcome ∧
        table' = (table.retry cfg performed.moment.now envelope.delivered error).2)
    (h : restamp cfg performed.moment job_id performed.call performed.result = some written) :
    Dated keeps (PutOff job_id (performed :: trace)) job_id (table'.jobs job_id) written := by
  obtain ⟨worker, moment, call, result⟩ := performed
  dsimp only at hanswer hsame hretry h
  cases restamps_of_some h with
  | @enqueued request principal_id tenant_id =>
      have hjob : (table'.jobs job_id).is_ready = true := by
        cases hanswer with
        | enqueue_missing => exact False.elim hsame
        | enqueue_seen => cases hsame
        | enqueue_new => simp [enqueue, new_envelope]
      obtain ⟨envelope, hj⟩ := ready_of_is_ready hjob
      rw [hj]
      refine dated_ready fun _ => ⟨none, rfl, iff_of_true rfl ?_⟩
      rintro (⟨hresult, -⟩ | ⟨hadmits, -⟩)
      · cases hresult
      · exact hadmits ⟨rfl, request, principal_id, tenant_id, rfl⟩
  | @acked envelope hid =>
      subst hid
      cases hanswer with
      | ack =>
          have hacked : (table.ack envelope.job_id).1 = true := Eq.symm hsame
          rw [JobEnvelope.delivered_job_id, absent_of_ack hacked]
          exact dated_absent
  | @removed envelope hid =>
      subst hid
      cases hanswer with
      | remove_dead_letter =>
          have hremoved : (table.remove_dead_letter envelope.job_id).1 = true := Eq.symm hsame
          rw [JobEnvelope.delivered_job_id, absent_of_remove hremoved]
          exact dated_absent
  | @delayed envelope error hid =>
      subst hid
      obtain ⟨rfl, rfl⟩ := hretry envelope error rfl
      obtain ⟨stored, hj⟩ := Backoff.retry_leaves hsame.eq_outcome
      rw [hj]
      refine ⟨fun due_at hdue => ?_, fun hplace => ?_, fun _ _ _ => ?_⟩
      · rw [← Option.some.inj hdue]
      · rcases hplace with hleased | hdead
        · cases hleased
        · cases hdead
      · refine ⟨_, rfl, iff_of_false (Option.some_ne_none _) (not_not_intro (.inl ?_))⟩
        exact ⟨rfl, envelope, error, rfl, rfl⟩
  | @buried envelope error hid =>
      subst hid
      obtain ⟨rfl, rfl⟩ := hretry envelope error rfl
      obtain ⟨stored, hj⟩ := Backoff.retry_leaves hsame.eq_outcome
      rw [hj]
      exact dated_dead rfl

-- A call that is no claim and writes nothing of the job leaves it as dated as it was.
theorem Dated.untouched {clock : ℚ≥0 → Prop} (h : Dated keeps delayed job_id state stamp)
    {call : QueueCall} (hcall : ∀ set_order timeout, call ≠ .claim set_order timeout)
    {moment : Moment} (hmove : Move cfg clock job_id call reply state state')
    (hnone : restamp cfg moment job_id call reply = none) :
    Dated keeps delayed job_id state' stamp := by
  cases hmove with
  | left => exact h
  | admitted => simp [restamp] at hnone
  | @claimed set_order timeout => exact absurd rfl (hcall set_order timeout)
  | acked hid | removed hid | buried hid | delayed hid => simp [restamp, hid] at hnone
  | renewed =>
      exact ⟨fun _ hdue => (by cases hdue), fun _ => h.cleared (.inl rfl),
        fun hkeeps _ _ => h.kept hkeeps JobState.noConfusion rfl⟩
  | recovered => exact h.expire cfg _

-- A claim stores the stamp that it hands out. Where it keeps the time of the retry, that
-- is the stamp of the job before.
theorem Dated.claimed {clock : ℚ≥0 → Prop} (h : Dated keeps delayed job_id state stamp)
    {set_order : SetOrder} {timeout : ℚ} {claimed handed : Option JobEnvelope}
    (hmove : Move cfg clock job_id (.claim set_order timeout) (.ok (.claimed claimed)) state state')
    (hsame : handed.map JobEnvelope.delivered = claimed.map JobEnvelope.delivered)
    (hclear : ∀ envelope ∈ handed, envelope.retry_at = none)
    (hstored : keeps → ∀ envelope ∈ handed, envelope.job_id = job_id →
      stamp = some envelope.stamp) :
    Dated keeps delayed job_id state'
      (if ∃ envelope ∈ handed, envelope.job_id = job_id then some (job_id, none) else stamp) := by
  have hother (hquiet : ∀ envelope ∈ claimed, envelope.job_id ≠ job_id) :
      ¬∃ envelope ∈ handed, envelope.job_id = job_id := by
    rintro ⟨envelope, rfl, hid⟩
    obtain ⟨other, rfl, hdelivered⟩ := Option.map_eq_some_iff.mp hsame.symm
    refine hquiet other rfl ((congrArg JobEnvelope.job_id hdelivered).trans hid)
  cases hmove with
  | left _ hquiet =>
      rw [if_neg (hother ?_)]
      · exact h
      · rintro envelope rfl
        exact hquiet
  | claimed hpromoted hpopped =>
      have hwaiting := (h.expire cfg _).promoted hpromoted
      cases hpopped with
      | left _ hquiet =>
          rw [if_neg (hother hquiet)]
          exact hwaiting
      | @handed waiting hid =>
          obtain ⟨envelope, rfl, hdelivered⟩ := Option.map_eq_some_iff.mp hsame
          have hjob : envelope.job_id = job_id :=
            (congrArg JobEnvelope.job_id hdelivered).trans hid
          rw [if_pos ⟨envelope, rfl, hjob⟩]
          refine dated_inflight rfl fun hkeeps => ?_
          obtain ⟨retry_at, hstamp, hdelayed⟩ := hwaiting.kept hkeeps JobState.noConfusion rfl
          rw [hstored hkeeps envelope rfl hjob] at hstamp
          obtain ⟨-, rfl⟩ := Prod.mk.inj (Option.some.inj hstamp)
          exact hdelayed.mp (hclear envelope rfl)

end Calls

end Metadata

open Metadata

-- A claim on the memory backend hands out what is next in the line, as it is stored.
theorem MemoryQueue.Refines.hands {cfg : Config} {queue : MemoryQueue} {table : JobTable}
    (h : queue.Refines table) (moment : Moment) (set_order : SetOrder) {timeout : ℚ}
    (htimeout : 0 < timeout) :
    ∃ handed, (queue.call cfg moment (.claim set_order timeout)).1 = .ok (.claimed handed) ∧
      queue.next cfg moment = handed.map JobEnvelope.job_id ∧
      ∀ envelope ∈ handed, queue.stamp envelope.job_id = some envelope.stamp := by
  obtain ⟨now, claimed, table', -, hsame, -⟩ := Backend.Refines.claims_memory h cfg moment htimeout
  simp only [MemoryQueue.call, Prod.map]
  cases hresult : (queue.claim cfg moment.now timeout moment.later).1 with
  | error error =>
      rw [hresult] at hsame
      exact False.elim hsame
  | ok handed =>
      have hnext := MemoryQueue.claim_next htimeout hresult
      refine ⟨handed, rfl, ?_⟩
      cases handed with
      | none => exact ⟨hnext, by simp⟩
      | some envelope =>
          obtain ⟨job_id, hfirst, hstamp⟩ := hnext
          obtain ⟨stored, hget, hsame⟩ := Option.map_eq_some_iff.mp hstamp
          obtain ⟨hid, -⟩ := Prod.mk.inj hsame
          obtain rfl : envelope.job_id = job_id := hid.symm.trans (h.keyed job_id stored hget)
          refine ⟨hfirst, ?_⟩
          rintro _ ⟨⟩
          exact hstamp

-- A claim on the other one clears the time in what it hands out.
theorem Redis.Refines.clears {cfg : Config} {server : Redis} {table : JobTable}
    (h : server.Refines table) (moment : Moment) (set_order : SetOrder) (timeout : ℚ) :
    match (server.call cfg moment (.claim set_order timeout)).1 with
    | .ok (.claimed (some envelope)) => envelope.retry_at = none ∧ ∀ job_id,
        (server.call cfg moment (.claim set_order timeout)).2.stamp job_id =
          if job_id = envelope.job_id then some (envelope.job_id, none) else server.stamp job_id
    | _ => ∀ job_id,
        (server.call cfg moment (.claim set_order timeout)).2.stamp job_id =
          server.stamp job_id := by
  have hcleared := Redis.claim_cleared cfg set_order timeout
    (Redis.Refines.written (Backend.Refines.started h moment))
  simp only [Redis.call, QueueCall.on_redis, Program.run_bind_ret, Prod.map]
  generalize (RedisQueue.claim cfg set_order timeout).run Redis.timed_exec
    ({ server with now := moment.now }, moment.later) = outcome at hcleared ⊢
  obtain ⟨_ | _ | envelope, after⟩ := outcome
  · exact hcleared
  · exact hcleared
  · exact hcleared

namespace Backend

variable {cfg : Config} {backend : Backend} {table : JobTable} {moment : Moment}
  {set_order : SetOrder} {timeout : ℚ}

theorem keeps_call (cfg : Config) (moment : Moment) (backend : Backend) (call : QueueCall) :
    (backend.call cfg moment call).2.Keeps = backend.Keeps := by
  cases backend <;> rfl

theorem Refines.due_eq (h : backend.Refines table) (job_id : String) :
    (backend.entry job_id).scheduled = (table.jobs job_id).due := by
  cases backend with
  | memory queue => exact MemoryQueue.Refines.due h job_id
  | redis server => exact Redis.Refines.due h job_id

-- A claim that fails writes no envelope.
theorem Refines.claim_failed (h : backend.Refines table) {error : QueueError}
    (hresult : (backend.call cfg moment (.claim set_order timeout)).1 = .error error)
    (job_id : String) :
    (backend.call cfg moment (.claim set_order timeout)).2.stamp job_id = backend.stamp job_id := by
  cases backend with
  | memory queue => exact MemoryQueue.claim_stamp cfg moment.now timeout moment.later queue job_id
  | redis server =>
      have hclears := @Redis.Refines.clears cfg server table h moment set_order timeout
      have hserver : (server.call cfg moment (.claim set_order timeout)).1 = .error error := hresult
      rw [hserver] at hclears
      exact hclears job_id

-- What a claim has stored once it hands out no time of a retry.
theorem Refines.claim_stamp (h : backend.Refines table) {handed : Option JobEnvelope}
    (hresult : (backend.call cfg moment (.claim set_order timeout)).1 = .ok (.claimed handed))
    (hclear : ∀ envelope ∈ handed, envelope.retry_at = none) (job_id : String) :
    (backend.call cfg moment (.claim set_order timeout)).2.stamp job_id =
      if ∃ envelope ∈ handed, envelope.job_id = job_id then some (job_id, none)
      else backend.stamp job_id := by
  have htimeout := Backoff.timeout_of_claimed hresult
  cases backend with
  | memory queue =>
      refine (MemoryQueue.claim_stamp cfg moment.now timeout moment.later queue job_id).trans ?_
      obtain ⟨other, hclaimed, -, hstored⟩ :=
        @MemoryQueue.Refines.hands cfg queue table h moment set_order timeout htimeout
      cases hclaimed.symm.trans hresult
      split
      · next hhanded =>
        obtain ⟨envelope, hmem, rfl⟩ := hhanded
        rw [hstored envelope hmem, JobEnvelope.stamp, hclear envelope hmem]
      · rfl
  | redis server =>
      have hclears := @Redis.Refines.clears cfg server table h moment set_order timeout
      have hserver : (server.call cfg moment (.claim set_order timeout)).1 =
          .ok (.claimed handed) := hresult
      rw [hserver] at hclears
      cases handed with
      | none =>
          rw [if_neg (by simp)]
          exact hclears job_id
      | some envelope =>
          refine (hclears.2 job_id).trans ?_
          by_cases hid : job_id = envelope.job_id
          · rw [if_pos hid, if_pos ⟨envelope, rfl, hid.symm⟩, hid]
          · rw [if_neg hid, if_neg (by simpa using Ne.symm hid)]
            rfl

-- Where the time of the retry is kept, what is handed out bears the stamp of the job.
theorem Refines.kept_stamp (h : backend.Refines table) (hkeeps : backend.Keeps)
    {handed : Option JobEnvelope}
    (hresult : (backend.call cfg moment (.claim set_order timeout)).1 = .ok (.claimed handed)) :
    ∀ envelope ∈ handed, backend.stamp envelope.job_id = some envelope.stamp := by
  cases backend with
  | memory queue =>
      obtain ⟨other, hclaimed, -, hstored⟩ := @MemoryQueue.Refines.hands cfg queue table h moment
        set_order timeout (Backoff.timeout_of_claimed hresult)
      cases hclaimed.symm.trans hresult
      exact hstored
  | redis server => exact False.elim hkeeps

end Backend

namespace Metadata

variable {ι : Type} {cfg : Config} {trace : List (Performed ι)} {backend : Backend}
  {moment : Moment} {call : QueueCall} {job_id : String}

-- What is known after a run: the table that the queue refines, and that every job there is
-- dated.
def AllDated (trace : List (Performed ι)) (backend : Backend) : Prop :=
  ∃ table, backend.Refines table ∧ ∀ job_id,
    Dated backend.Keeps (PutOff job_id trace) job_id (table.jobs job_id) (backend.stamp job_id)

theorem allDated_memory : AllDated ([] : List (Performed ι)) (.memory .empty) :=
  ⟨.empty, MemoryQueue.refines_empty, fun _ => dated_absent⟩

theorem allDated_redis (now : ℚ≥0) : AllDated ([] : List (Performed ι)) (.redis (.empty now)) :=
  ⟨.empty, Redis.refines_empty now, fun _ => dated_absent⟩

theorem AllDated.timely (h : AllDated trace backend) : backend.Timely := by
  obtain ⟨table, hrefines, hdated⟩ := h
  intro job_id due_at hscheduled
  rw [hrefines.due_eq] at hscheduled
  have hstamp := (hdated job_id).scheduled due_at hscheduled
  obtain ⟨envelope, hstored, hsame⟩ := Option.map_eq_some_iff.mp hstamp
  exact ⟨envelope, hstored, (Prod.mk.inj hsame).2⟩

-- A job that is handed out was live before, in a place where its stamp tells its past.
theorem Dated.handed {keeps delayed : Prop} {state state' : JobState}
    {stamp : Option (String × Option ℚ)} {clock : ℚ≥0 → Prop}
    (h : Dated keeps delayed job_id state stamp) (hkeeps : keeps) {set_order : SetOrder}
    {timeout : ℚ} {claimed : JobEnvelope}
    (hmove : Move cfg clock job_id (.claim set_order timeout) (.ok (.claimed (some claimed)))
      state state') (hid : claimed.job_id = job_id) :
    ∃ retry_at, stamp = some (job_id, retry_at) ∧ (retry_at = none ↔ ¬delayed) := by
  cases hmove with
  | left _ hquiet => exact absurd hid hquiet
  | claimed hpromoted hpopped =>
      have hwaiting := (h.expire cfg _).promoted hpromoted
      cases hpopped with
      | left _ hquiet => exact absurd hid (hquiet claimed rfl)
      | handed => exact hwaiting.kept hkeeps JobState.noConfusion rfl

-- A claim on the memory backend hands out the time of a retry exactly when the job was put
-- off.
theorem AllDated.claims_current {queue : MemoryQueue} (h : AllDated trace (.memory queue))
    (set_order : SetOrder) {timeout : ℚ} (htimeout : 0 < timeout) {handed : Option JobEnvelope}
    (hresult : (queue.call cfg moment (.claim set_order timeout)).1 = .ok (.claimed handed)) :
    ∀ envelope ∈ handed, envelope.retry_at = none ↔ ¬PutOff envelope.job_id trace := by
  obtain ⟨table, hrefines, hdated⟩ := h
  rintro envelope rfl
  obtain ⟨reply, table', hanswer, hsame, -⟩ :=
    @Backend.Refines.answers_marked (.memory queue) table moment (.claim set_order timeout)
      hrefines cfg trivial
  rw [show (Backend.call cfg moment (.memory queue) (.claim set_order timeout)).1 =
    .ok (.claimed (some envelope)) from hresult] at hsame
  have hmove := hanswer.moves (@Backend.Refines.keyed (.memory queue) table hrefines)
    envelope.job_id
  cases hanswer with
  | claim_timeout => exact False.elim hsame
  | claim =>
      obtain ⟨other, hclaimed, hdelivered⟩ := Backend.same_claimed_some hsame
      rw [hclaimed] at hmove
      have hid := congrArg JobEnvelope.job_id hdelivered
      simp only [JobEnvelope.delivered_job_id] at hid
      obtain ⟨retry_at, hstamp, hdelayed⟩ := (hdated envelope.job_id).handed trivial hmove hid
      obtain ⟨_, hclaim, -, hstored⟩ := MemoryQueue.Refines.hands hrefines moment set_order htimeout
      cases hclaim.symm.trans hresult
      have hsame := (hstored envelope rfl).symm.trans hstamp
      rw [(Prod.mk.inj (Option.some.inj hsame)).2]
      exact hdelayed

-- What is listed is stored for a dead job, and that carries no time.
theorem AllDated.listed_current (h : AllDated trace backend) {listed : List JobEnvelope}
    (hresult : (backend.call cfg moment .dead_letters).1 = .ok (.envelopes listed)) :
    ∀ envelope ∈ listed, envelope.retry_at = none := by
  obtain ⟨table, hrefines, hdated⟩ := h
  intro envelope hmem
  obtain ⟨job_id, hdead, hstored⟩ := hrefines.listed hresult envelope hmem
  have hstamp := (hdated job_id).cleared (.inr hdead)
  rw [Backend.stamp, hstored] at hstamp
  exact (Prod.mk.inj (Option.some.inj hstamp)).2

-- Only claims and the listing of dead letters return envelopes.
theorem handed_nil {call : QueueCall} {value : QueueReply} {reply : Except QueueError QueueReply}
    {table table' : JobTable} {clock : ℚ≥0 → Prop}
    (hanswer : Answers cfg clock table call.delivered reply table')
    (hsame : SameAnswer (.ok value) reply)
    (hclaim : ∀ set_order timeout, call ≠ .claim set_order timeout)
    (hlist : call ≠ .dead_letters) : value.handed = [] := by
  cases call with
  | claim set_order timeout => exact absurd rfl (hclaim set_order timeout)
  | dead_letters => exact absurd rfl hlist
  | enqueue | ack | renew | recover_stale | remove_dead_letter | dead_letter_count =>
      cases hanswer <;> cases value <;> first
        | rfl
        | exact False.elim hsame
  | retry envelope error =>
      cases hanswer with
      | @retry _ _ now =>
          cases hretry : (table.retry cfg now envelope.delivered error).1 <;>
            rw [hretry] at hsame <;> cases value <;> first
              | rfl
              | exact False.elim hsame

-- So it returns a current envelope exactly when the job next in the line was not put off.
theorem AllDated.claim_current_iff {queue : MemoryQueue} (h : AllDated trace (.memory queue))
    (worker : ι) (set_order : SetOrder) {timeout : ℚ} (htimeout : 0 < timeout) :
    Performed.Current ⟨worker, moment, .claim set_order timeout,
        (Backend.call cfg moment (.memory queue) (.claim set_order timeout)).1⟩ ↔
      ∀ job_id ∈ queue.next cfg moment, ¬PutOff job_id trace := by
  obtain ⟨table, hrefines, -⟩ := id h
  obtain ⟨handed, hresult, hnext, -⟩ := MemoryQueue.Refines.hands hrefines moment set_order htimeout
  have hcurrent := h.claims_current set_order htimeout hresult
  have hreply : (Backend.call cfg moment (.memory queue) (.claim set_order timeout)).1 =
      .ok (.claimed handed) := hresult
  unfold Performed.Current
  rw [hreply, hnext]
  cases handed with
  | none => simp [QueueReply.handed]
  | some envelope => simpa [QueueReply.handed] using hcurrent envelope rfl

theorem redis_claim_current {server : Redis} {table : JobTable} (h : server.Refines table)
    {set_order : SetOrder} {timeout : ℚ} {handed : Option JobEnvelope}
    (hresult : (server.call cfg moment (.claim set_order timeout)).1 = .ok (.claimed handed)) :
    ∀ envelope ∈ handed, envelope.retry_at = none := by
  have hclears := @Redis.Refines.clears cfg server table h moment set_order timeout
  rintro envelope rfl
  rw [hresult] at hclears
  exact hclears.1

-- Every call that is no claim returns current envelopes only.
theorem AllDated.current (h : AllDated trace backend) (cfg : Config) (worker : ι)
    (hmarked : backend.Marked moment call)
    (hclaim : ∀ set_order timeout, call ≠ .claim set_order timeout) :
    Performed.Current ⟨worker, moment, call, (backend.call cfg moment call).1⟩ := by
  obtain ⟨table, hrefines, -⟩ := id h
  obtain ⟨reply, table', hanswer, hsame, -⟩ := hrefines.answers_marked cfg hmarked
  intro value hresult envelope hmem
  by_cases hlist : call = .dead_letters
  · subst hlist
    cases hanswer with
    | dead_letters =>
        obtain ⟨listed, hlisted, -⟩ := hsame.eq_envelopes
        cases hlisted.symm.trans hresult
        exact h.listed_current hlisted envelope hmem
  · dsimp only at hresult
    rw [hresult] at hsame
    rw [handed_nil hanswer hsame hclaim hlist] at hmem
    cases hmem

-- No call but a claim on the memory backend returns an envelope with the time of a retry.
theorem AllDated.current_iff (h : AllDated trace backend) (cfg : Config) (worker : ι)
    (hmarked : backend.Marked moment call) :
    Performed.Current ⟨worker, moment, call, (backend.call cfg moment call).1⟩ ↔
      Undelayed cfg trace backend ⟨worker, moment, call, (backend.call cfg moment call).1⟩ := by
  cases call with
  | claim set_order timeout =>
      obtain ⟨table, hrefines, -⟩ := id h
      obtain ⟨reply, table', hanswer, hsame, -⟩ := hrefines.answers_marked cfg hmarked
      cases hanswer with
      | claim_timeout htimeout =>
          rw [hsame.eq_error]
          refine iff_of_true (fun _ hresult => by cases hresult) ?_
          cases backend with
          | memory queue => exact fun hlt => absurd hlt (not_lt.mpr htimeout)
          | redis server => trivial
      | claim htimeout =>
          cases backend with
          | memory queue =>
              rw [h.claim_current_iff worker set_order htimeout]
              exact ⟨fun hnext _ => hnext, fun hnext => hnext htimeout⟩
          | redis server =>
              obtain ⟨handed, hresult, -⟩ := hsame.eq_claimed
              rw [hresult]
              refine iff_of_true ?_ trivial
              rintro _ ⟨⟩ envelope hmem
              exact redis_claim_current hrefines hresult envelope (Option.mem_toList.mp hmem)
  | enqueue | ack | renew | retry | recover_stale | dead_letters | remove_dead_letter
  | dead_letter_count =>
      refine iff_of_true (h.current cfg worker hmarked ?_) ?_
      · rintro _ _ ⟨⟩
      · cases backend <;> trivial

theorem AllDated.step (h : AllDated trace backend) (worker : ι)
    (hmarked : backend.Marked moment call)
    (hcurrent : Performed.Current ⟨worker, moment, call, (backend.call cfg moment call).1⟩) :
    AllDated (⟨worker, moment, call, (backend.call cfg moment call).1⟩ :: trace)
      (backend.call cfg moment call).2 := by
  obtain ⟨table, hrefines, hdated⟩ := h
  obtain ⟨reply, table', hanswer, hsame, hrefines', hretry⟩ := hrefines.answers_now hmarked
  refine ⟨table', hrefines', fun job_id => ?_⟩
  rw [Backend.keeps_call]
  have hmove := hanswer.moves hrefines.keyed job_id
  by_cases hclaim : ∃ set_order timeout, call = .claim set_order timeout
  · obtain ⟨set_order, timeout, rfl⟩ := hclaim
    rw [putOff_of_untouched cfg (by rfl)]
    cases hanswer with
    | claim_timeout =>
        rw [hrefines.claim_failed hsame.eq_error]
        exact hdated job_id
    | claim =>
        obtain ⟨handed, hresult, hdelivered⟩ := hsame.eq_claimed
        have hclear (envelope : JobEnvelope) (hmem : envelope ∈ handed) :
            envelope.retry_at = none :=
          hcurrent _ hresult envelope (Option.mem_toList.mpr hmem)
        rw [hrefines.claim_stamp hresult hclear]
        refine (hdated job_id).claimed hmove hdelivered hclear fun hkeeps envelope hmem hid => ?_
        rw [← hid]
        exact hrefines.kept_stamp hkeeps hresult envelope hmem
  · have hcall (set_order : SetOrder) (timeout : ℚ) : call ≠ .claim set_order timeout :=
      fun heq => hclaim ⟨set_order, timeout, heq⟩
    rw [hrefines.stamp_of_call hcall]
    cases hwritten : restamp cfg moment job_id call (backend.call cfg moment call).1 with
    | some written => exact dated_of_restamp hanswer hsame hretry hwritten
    | none =>
        rw [putOff_of_untouched cfg hwritten]
        rw [restamp_same hsame] at hwritten
        refine (hdated job_id).untouched (fun set_order timeout heq => ?_) hmove hwritten
        cases call <;> cases heq
        exact hcall set_order timeout rfl

theorem allDated_of_run (hrun : Calls cfg (fun _ backend performed =>
      backend.Marked performed.moment performed.call ∧ performed.Current) trace backend) :
    AllDated trace backend := by
  induction hrun with
  | memory => exact allDated_memory
  | redis now => exact allDated_redis now
  | call _ worker moment call hallowed ih => exact ih.step worker hallowed.1 hallowed.2

-- Among the runs without second copies, those whose claims come upon no job put off are
-- those that return current envelopes.
theorem undelayed_iff : Calls cfg (fun trace backend performed =>
      backend.Marked performed.moment performed.call ∧ Undelayed cfg trace backend performed)
      trace backend ↔
    Calls cfg (fun _ backend performed =>
      backend.Marked performed.moment performed.call ∧ performed.Current) trace backend := by
  constructor
  · intro hrun
    refine hrun.earlier fun _ _ worker _ _ _ hcurrent hallowed => ⟨hallowed.1, ?_⟩
    exact ((allDated_of_run hcurrent).current_iff cfg worker hallowed.1).mpr hallowed.2
  · intro hrun
    refine hrun.earlier fun _ _ worker _ _ hcurrent _ hallowed => ⟨hallowed.1, ?_⟩
    exact ((allDated_of_run hcurrent).current_iff cfg worker hallowed.1).mp hallowed.2

end Metadata

-- Among the runs that admit no job while it is in the queue, those whose claims on the
-- memory backend come upon no job put off are those in which every envelope returned is
-- current, and the time of every scheduled job is stored in every state.
theorem metadata_current_iff {ι : Type} {cfg : Config} {trace : List (Performed ι)}
    {backend : Backend} :
    Calls cfg (fun trace backend performed =>
        backend.Marked performed.moment performed.call ∧ Undelayed cfg trace backend performed)
        trace backend ↔
      Calls cfg (fun _ backend performed => backend.Marked performed.moment performed.call ∧
        performed.Current ∧ backend.Timely) trace backend ∧ backend.Timely := by
  rw [Metadata.undelayed_iff]
  constructor
  · intro hrun
    refine ⟨?_, (Metadata.allDated_of_run hrun).timely⟩
    exact hrun.earlier fun _ _ _ _ _ hbefore _ hallowed =>
      ⟨hallowed.1, hallowed.2, (Metadata.allDated_of_run hbefore).timely⟩
  · rintro ⟨hrun, -⟩
    exact hrun.mono fun _ _ _ _ _ hallowed => ⟨hallowed.1, hallowed.2.1⟩

-- The memory backend hands the job out again with the time of its retry.
theorem metadata_current_put_off :
    let run := perform .default [] (.memory .empty) put_off
    let claim := run.2.call .default ⟨1002, []⟩ (.claim .inserted 1)
    Calls .default (fun _ _ _ => True) run.1 run.2 ∧
      ¬(⟨1, ⟨1002, []⟩, .claim .inserted 1, claim.1⟩ : Performed (Fin 2)).Current := by
  refine ⟨Calls.perform .memory put_off ⟨trivial, trivial, trivial, trivial⟩, fun hcurrent => ?_⟩
  have hclaimed : ((perform .default [] (.memory .empty) put_off).2.call .default ⟨1002, []⟩
      (.claim .inserted 1)).1 = .ok (.claimed (some { first_claim with
        attempt := 2, last_error := some "failed", retry_at := some 1002 })) := by
    with_unfolding_all rfl
  have hnone := hcurrent _ hclaimed _ (List.mem_singleton_self _)
  cases hnone

end ResearchAgent.JobQueue
