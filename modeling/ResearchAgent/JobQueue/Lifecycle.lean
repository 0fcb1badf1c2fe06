import Mathlib.Data.List.Nodup
import Mathlib.Logic.Function.Basic
import ResearchAgent.JobQueue.Envelope

namespace ResearchAgent.JobQueue

-- What a delivery carries. The time of the last retry is left out: the backends
-- differ in when they clear it, and nothing reads it back.
def JobEnvelope.delivered (envelope : JobEnvelope) : JobEnvelope :=
  { envelope with retry_at := none }

@[simp] theorem JobEnvelope.delivered_job_id (envelope : JobEnvelope) :
    envelope.delivered.job_id = envelope.job_id := rfl

@[simp] theorem JobEnvelope.delivered_attempt (envelope : JobEnvelope) :
    envelope.delivered.attempt = envelope.attempt := rfl

@[simp] theorem JobEnvelope.delivered_tenant_id (envelope : JobEnvelope) :
    envelope.delivered.tenant_id = envelope.tenant_id := rfl

@[simp] theorem JobEnvelope.delivered_delivered (envelope : JobEnvelope) :
    envelope.delivered.delivered = envelope.delivered := rfl

@[simp] theorem Config.retry_at_delivered (cfg : Config) (now : ℚ≥0) (envelope : JobEnvelope) :
    cfg.retry_at now envelope.delivered = cfg.retry_at now envelope := rfl

-- Where a job stands between two calls.
inductive JobState where
  | absent
  | ready (envelope : JobEnvelope)
  | inflight (envelope : JobEnvelope) (lease_until : ℚ)
  | scheduled (envelope : JobEnvelope) (due_at : ℚ)
  | dead (envelope : JobEnvelope)

namespace JobState

@[simp] def envelope : JobState → Option JobEnvelope
  | absent => none
  | ready envelope => some envelope
  | inflight envelope _ => some envelope
  | scheduled envelope _ => some envelope
  | dead envelope => some envelope

@[simp] def lease : JobState → Option ℚ
  | inflight _ lease_until => some lease_until
  | _ => none

@[simp] def due : JobState → Option ℚ
  | scheduled _ due_at => some due_at
  | _ => none

@[simp] def is_ready : JobState → Bool
  | ready _ => true
  | _ => false

@[simp] def is_dead : JobState → Bool
  | dead _ => true
  | _ => false

-- Where a job goes whose lease has expired.
def recovered (cfg : Config) (envelope : JobEnvelope) : JobState :=
  if envelope.attempt ≥ cfg.max_attempts then
    .dead { envelope with last_error := some "lease expired" }
  else
    .ready { envelope with last_error := some "lease expired" }

theorem recovered_capped {cfg : Config} {envelope : JobEnvelope}
    (h : envelope.attempt ≥ cfg.max_attempts) :
    recovered cfg envelope = .dead { envelope with last_error := some "lease expired" } :=
  if_pos h

theorem recovered_uncapped {cfg : Config} {envelope : JobEnvelope}
    (h : ¬envelope.attempt ≥ cfg.max_attempts) :
    recovered cfg envelope = .ready { envelope with last_error := some "lease expired" } :=
  if_neg h

end JobState

-- What the queue is for: every job is in one state, ready jobs wait in the order
-- in which they became ready, and so do dead ones.
structure JobTable where
  jobs : String → JobState
  ready : List String
  dead : List String
  known : String → Option ℚ
  ready_nodup : ready.Nodup
  dead_nodup : dead.Nodup
  mem_ready : ∀ job_id, job_id ∈ ready ↔ (jobs job_id).is_ready
  mem_dead : ∀ job_id, job_id ∈ dead ↔ (jobs job_id).is_dead

namespace JobTable

def empty : JobTable where
  jobs _ := .absent
  ready := []
  dead := []
  known _ := none
  ready_nodup := List.nodup_nil
  dead_nodup := List.nodup_nil
  mem_ready := by simp
  mem_dead := by simp

-- The job leaves the line it stands in and joins the end of its new one.
def rejoin (job_id : String) (joins : Bool) (ids : List String) : List String :=
  ids.filter (· ≠ job_id) ++ if joins then [job_id] else []

theorem mem_rejoin (job_id other : String) (joins : Bool) (ids : List String) :
    other ∈ rejoin job_id joins ids ↔
      other = job_id ∧ joins = true ∨ other ≠ job_id ∧ other ∈ ids := by
  by_cases h : other = job_id <;> cases joins <;> simp [rejoin, h]

theorem nodup_rejoin (job_id : String) (joins : Bool) {ids : List String} (h : ids.Nodup) :
    (rejoin job_id joins ids).Nodup := by
  unfold rejoin
  refine List.Nodup.append (h.filter _) ?_ ?_
  · cases joins <;> simp
  · cases joins <;> simp [List.disjoint_left]

theorem rejoin_of_not_mem {job_id : String} {ids : List String} (h : job_id ∉ ids)
    (joins : Bool) : rejoin job_id joins ids = ids ++ if joins then [job_id] else [] := by
  unfold rejoin
  rw [List.filter_eq_self.mpr]
  intro other hm
  simpa using ne_of_mem_of_not_mem hm h

theorem rejoin_head {job_id : String} {rest : List String} (h : (job_id :: rest).Nodup) :
    rejoin job_id false (job_id :: rest) = rest := by
  have hnot := (List.nodup_cons.mp h).1
  unfold rejoin
  rw [List.filter_cons_of_neg (by simp), List.filter_eq_self.mpr]
  · simp
  · intro other hm
    simpa using ne_of_mem_of_not_mem hm hnot

-- Every change of the table but a new marker is a change of one job's state.
def put (table : JobTable) (job_id : String) (state : JobState) : JobTable where
  jobs := Function.update table.jobs job_id state
  ready := rejoin job_id state.is_ready table.ready
  dead := rejoin job_id state.is_dead table.dead
  known := table.known
  ready_nodup := nodup_rejoin _ _ table.ready_nodup
  dead_nodup := nodup_rejoin _ _ table.dead_nodup
  mem_ready other := by
    rw [mem_rejoin, table.mem_ready, Function.update_apply]
    by_cases h : other = job_id <;> simp [h]
  mem_dead other := by
    rw [mem_rejoin, table.mem_dead, Function.update_apply]
    by_cases h : other = job_id <;> simp [h]

@[simp] theorem put_jobs (table : JobTable) (job_id other : String) (state : JobState) :
    (table.put job_id state).jobs other = if other = job_id then state else table.jobs other :=
  Function.update_apply _ _ _ _

@[simp] theorem put_known (table : JobTable) (job_id : String) (state : JobState) :
    (table.put job_id state).known = table.known := rfl

def enqueue (table : JobTable) (envelope : JobEnvelope) (expires : ℚ) : JobTable :=
  { table.put envelope.job_id (.ready envelope) with
    known := Function.update table.known envelope.job_id (some expires) }

def recover (cfg : Config) (table : JobTable) (job_id : String) : JobTable :=
  match table.jobs job_id with
  | .inflight envelope _ => table.put job_id (.recovered cfg envelope)
  | _ => table

def promote (table : JobTable) (job_id : String) : JobTable :=
  match table.jobs job_id with
  | .scheduled envelope _ => table.put job_id (.ready envelope)
  | _ => table

theorem recover_jobs_ne (cfg : Config) (table : JobTable) {job_id other : String}
    (h : other ≠ job_id) : (table.recover cfg job_id).jobs other = table.jobs other := by
  unfold recover
  split <;> simp [h]

theorem promote_jobs_ne (table : JobTable) {job_id other : String} (h : other ≠ job_id) :
    (table.promote job_id).jobs other = table.jobs other := by
  unfold promote
  split <;> simp [h]

def recover_all (cfg : Config) (ids : List String) (table : JobTable) : JobTable :=
  ids.foldl (recover cfg) table

def promote_all (ids : List String) (table : JobTable) : JobTable := ids.foldl promote table

-- The job that has been ready longest is handed out.
def pop (cfg : Config) (now : ℚ≥0) (table : JobTable) : Option JobEnvelope × JobTable :=
  match table.ready with
  | [] => (none, table)
  | job_id :: _ =>
      match table.jobs job_id with
      | .ready envelope =>
          let envelope := { envelope with attempt := envelope.attempt + 1 }
          (some envelope, table.put job_id (.inflight envelope (cfg.lease_until now)))
      | _ => (none, table)

theorem pop_of_empty (cfg : Config) (now : ℚ≥0) {table : JobTable} (h : table.ready = []) :
    table.pop cfg now = (none, table) := by
  unfold pop
  rw [h]

theorem pop_of_ready (cfg : Config) (now : ℚ≥0) {table : JobTable} {job_id : String}
    {rest : List String} {envelope : JobEnvelope} (hready : table.ready = job_id :: rest)
    (hj : table.jobs job_id = .ready envelope) :
    table.pop cfg now = (some { envelope with attempt := envelope.attempt + 1 },
      table.put job_id (.inflight { envelope with attempt := envelope.attempt + 1 }
        (cfg.lease_until now))) := by
  unfold pop
  rw [hready]
  simp only [hj]

def ack (job_id : String) (table : JobTable) : Bool × JobTable :=
  match table.jobs job_id with
  | .inflight _ _ => (true, table.put job_id .absent)
  | _ => (false, table)

def renew (cfg : Config) (now : ℚ≥0) (job_id : String) (table : JobTable) : Bool × JobTable :=
  match table.jobs job_id with
  | .inflight envelope _ => (true, table.put job_id (.inflight envelope (cfg.lease_until now)))
  | _ => (false, table)

-- The job goes on with the envelope the caller brings.
def retry (cfg : Config) (now : ℚ≥0) (envelope : JobEnvelope) (error : String)
    (table : JobTable) : Except QueueError RetryOutcome × JobTable :=
  let updated := { envelope with last_error := some error }
  match table.jobs envelope.job_id with
  | .inflight _ _ =>
      if envelope.attempt ≥ cfg.max_attempts then
        (.ok .dead_letter, table.put envelope.job_id (.dead updated))
      else
        (.ok .scheduled,
          table.put envelope.job_id (.scheduled updated (cfg.retry_at now envelope)))
  | _ => (.error (not_inflight envelope.job_id), table)

def remove_dead_letter (job_id : String) (table : JobTable) : Bool × JobTable :=
  match table.jobs job_id with
  | .dead _ => (true, table.put job_id .absent)
  | _ => (false, table)

def dead_letters (table : JobTable) : List JobEnvelope :=
  table.dead.filterMap fun job_id => (table.jobs job_id).envelope

theorem not_mem_ready (table : JobTable) (job_id : String)
    (h : (table.jobs job_id).is_ready = false) : job_id ∉ table.ready := by
  rw [table.mem_ready, h]
  decide

theorem not_mem_dead (table : JobTable) (job_id : String)
    (h : (table.jobs job_id).is_dead = false) : job_id ∉ table.dead := by
  rw [table.mem_dead, h]
  decide

theorem inflight_of_lease {table : JobTable} {job_id : String} {lease_until : ℚ}
    (h : (table.jobs job_id).lease = some lease_until) :
    ∃ envelope, table.jobs job_id = .inflight envelope lease_until := by
  cases hj : table.jobs job_id <;> simp_all

theorem scheduled_of_due {table : JobTable} {job_id : String} {due_at : ℚ}
    (h : (table.jobs job_id).due = some due_at) :
    ∃ envelope, table.jobs job_id = .scheduled envelope due_at := by
  cases hj : table.jobs job_id <;> simp_all

theorem ready_of_is_ready {table : JobTable} {job_id : String}
    (h : (table.jobs job_id).is_ready = true) :
    ∃ envelope, table.jobs job_id = .ready envelope := by
  cases hj : table.jobs job_id <;> simp_all

theorem dead_of_is_dead {table : JobTable} {job_id : String}
    (h : (table.jobs job_id).is_dead = true) :
    ∃ envelope, table.jobs job_id = .dead envelope := by
  cases hj : table.jobs job_id <;> simp_all

-- The jobs whose lease is over, in whatever order.
structure Expired (now : ℚ≥0) (table : JobTable) (ids : List String) : Prop where
  nodup : ids.Nodup
  mem : ∀ job_id, job_id ∈ ids ↔ ∃ lease_until ∈ (table.jobs job_id).lease, lease_until ≤ (now : ℚ)

structure Due (now : ℚ≥0) (table : JobTable) (ids : List String) : Prop where
  nodup : ids.Nodup
  mem : ∀ job_id, job_id ∈ ids ↔ ∃ due_at ∈ (table.jobs job_id).due, due_at ≤ (now : ℚ)

-- One or more rounds of promotion, each at a time that `clock` shows.
inductive Promotes (clock : ℚ≥0 → Prop) : JobTable → JobTable → Prop
  | last {now ids table} (hnow : clock now) (hdue : Due now table ids) :
      Promotes clock table (promote_all ids table)
  | again {now ids table table'} (hnow : clock now) (hdue : Due now table ids)
      (hrest : Promotes clock (promote_all ids table) table') : Promotes clock table table'

theorem Promotes.snoc {clock : ℚ≥0 → Prop} {start table : JobTable} {now : ℚ≥0}
    {ids : List String} (h : Promotes clock start table) (hnow : clock now)
    (hdue : Due now table ids) : Promotes clock start (promote_all ids table) := by
  induction h with
  | last hnow' hdue' => exact .again hnow' hdue' (.last hnow hdue)
  | again hnow' hdue' _ ih => exact .again hnow' hdue' (ih hdue)

def Seen (table : JobTable) (job_id : String) (now : ℚ≥0) : Prop :=
  ∃ expires ∈ table.known job_id, (now : ℚ) < expires

-- The answer to one call and the table after it, the clock showing `clock`
-- while it is served.
inductive Answers (cfg : Config) (clock : ℚ≥0 → Prop) (table : JobTable) :
    QueueCall → Except QueueError QueueReply → JobTable → Prop
  | enqueue_missing {job_id request principal_id tenant_id}
      (h : missing_ids job_id principal_id tenant_id) :
      Answers cfg clock table (.enqueue job_id request principal_id tenant_id)
        (.error (.ValueError "job_id, principal_id, and tenant_id are required")) table
  | enqueue_seen {job_id request principal_id tenant_id now}
      (h : ¬missing_ids job_id principal_id tenant_id) (hnow : clock now)
      (hseen : table.Seen job_id now) :
      Answers cfg clock table (.enqueue job_id request principal_id tenant_id)
        (.ok (.bool false)) table
  | enqueue_new {job_id request principal_id tenant_id now now'}
      (h : ¬missing_ids job_id principal_id tenant_id) (hnow : clock now) (hnow' : clock now')
      (hseen : ¬table.Seen job_id now') (hfresh : table.jobs job_id = .absent) :
      Answers cfg clock table (.enqueue job_id request principal_id tenant_id) (.ok (.bool true))
        (table.enqueue (new_envelope now job_id request principal_id tenant_id)
          (cfg.known_until now'))
  | claim_timeout {set_order timeout} (h : timeout ≤ 0) :
      Answers cfg clock table (.claim set_order timeout)
        (.error (.ValueError "timeout must be positive and bounded")) table
  | claim {set_order timeout now ids table' now'} (h : 0 < timeout) (hnow : clock now)
      (hexpired : Expired now table ids)
      (hpromotes : Promotes clock (table.recover_all cfg ids) table') (hnow' : clock now') :
      Answers cfg clock table (.claim set_order timeout)
        (.ok (.claimed (table'.pop cfg now').1)) (table'.pop cfg now').2
  | ack {envelope} :
      Answers cfg clock table (.ack envelope) (.ok (.bool (table.ack envelope.job_id).1))
        (table.ack envelope.job_id).2
  | renew {envelope now} (hnow : clock now) :
      Answers cfg clock table (.renew envelope)
        (.ok (.bool (table.renew cfg now envelope.job_id).1))
        (table.renew cfg now envelope.job_id).2
  | retry {envelope error now} (hnow : clock now) :
      Answers cfg clock table (.retry envelope error)
        ((table.retry cfg now envelope error).1.map .outcome)
        (table.retry cfg now envelope error).2
  | recover_stale {set_order now ids} (hnow : clock now) (hexpired : Expired now table ids) :
      Answers cfg clock table (.recover_stale set_order) (.ok (.count ids.length))
        (table.recover_all cfg ids)
  | dead_letters : Answers cfg clock table .dead_letters (.ok (.envelopes table.dead_letters)) table
  | remove_dead_letter {envelope} :
      Answers cfg clock table (.remove_dead_letter envelope)
        (.ok (.bool (table.remove_dead_letter envelope.job_id).1))
        (table.remove_dead_letter envelope.job_id).2
  | dead_letter_count :
      Answers cfg clock table .dead_letter_count (.ok (.count table.dead.length)) table

end JobTable

-- The call with its envelope as delivered.
def QueueCall.delivered : QueueCall → QueueCall
  | .ack envelope => .ack envelope.delivered
  | .renew envelope => .renew envelope.delivered
  | .retry envelope error => .retry envelope.delivered error
  | .remove_dead_letter envelope => .remove_dead_letter envelope.delivered
  | call => call

-- Two answers that say the same: dead letters may come in any order.
def QueueReply.Same : QueueReply → QueueReply → Prop
  | .bool value, .bool value' => value = value'
  | .claimed envelope, .claimed envelope' =>
      envelope.map JobEnvelope.delivered = envelope'.map JobEnvelope.delivered
  | .outcome value, .outcome value' => value = value'
  | .count value, .count value' => value = value'
  | .envelopes value, .envelopes value' =>
      (value.map JobEnvelope.delivered).Perm (value'.map JobEnvelope.delivered)
  | _, _ => False

def SameAnswer : Except QueueError QueueReply → Except QueueError QueueReply → Prop
  | .ok reply, .ok reply' => reply.Same reply'
  | .error error, .error error' => error = error'
  | _, _ => False

theorem QueueReply.Same.refl (reply : QueueReply) : reply.Same reply := by
  cases reply <;> first
    | exact List.Perm.refl _
    | exact Eq.refl _

theorem SameAnswer.of_eq {a b : Except QueueError QueueReply} (h : a = b) : SameAnswer a b := by
  subst h
  cases a
  · exact Eq.refl _
  · exact QueueReply.Same.refl _

theorem SameAnswer.envelopes {value value' : List JobEnvelope}
    (h : (value.map JobEnvelope.delivered).Perm (value'.map JobEnvelope.delivered)) :
    SameAnswer (.ok (.envelopes value)) (.ok (.envelopes value')) := h

theorem QueueReply.Same.symm {reply reply' : QueueReply} (h : reply.Same reply') :
    reply'.Same reply := by
  cases reply <;> cases reply' <;> first
    | exact Eq.symm h
    | exact List.Perm.symm h
    | exact h

theorem QueueReply.Same.trans {a b c : QueueReply} (h : a.Same b) (h' : b.Same c) :
    a.Same c := by
  cases a <;> cases b <;> first
    | exact False.elim h
    | cases c <;> first
      | exact Eq.trans h h'
      | exact List.Perm.trans h h'
      | exact False.elim h'

theorem SameAnswer.symm {a b : Except QueueError QueueReply} (h : SameAnswer a b) :
    SameAnswer b a := by
  cases a <;> cases b
  · exact Eq.symm h
  · exact h
  · exact h
  · exact QueueReply.Same.symm h

theorem SameAnswer.trans {a b c : Except QueueError QueueReply} (h : SameAnswer a b)
    (h' : SameAnswer b c) : SameAnswer a c := by
  cases a <;> cases b <;> cases c <;> first
    | exact False.elim h
    | exact False.elim h'
    | exact Eq.trans h h'
    | exact QueueReply.Same.trans h h'

-- What an answer is that says the same as a given one.
theorem SameAnswer.eq_error {result : Except QueueError QueueReply} {error : QueueError}
    (h : SameAnswer result (.error error)) : result = .error error := by
  cases result with
  | error => exact congrArg Except.error h
  | ok => exact False.elim h

theorem SameAnswer.eq_bool {result : Except QueueError QueueReply} {said : Bool}
    (h : SameAnswer result (.ok (.bool said))) : result = .ok (.bool said) := by
  rcases result with error | (value | value | value | value | value)
  · exact False.elim h
  · rw [show value = said from h]
  all_goals exact False.elim h

theorem SameAnswer.eq_claimed {result : Except QueueError QueueReply}
    {claimed : Option JobEnvelope} (h : SameAnswer result (.ok (.claimed claimed))) :
    ∃ handed, result = .ok (.claimed handed) ∧
      handed.map JobEnvelope.delivered = claimed.map JobEnvelope.delivered := by
  rcases result with error | (value | value | value | value | value)
  · exact False.elim h
  · exact False.elim h
  · exact ⟨value, rfl, h⟩
  all_goals exact False.elim h

theorem SameAnswer.eq_envelopes {result : Except QueueError QueueReply} {dead : List JobEnvelope}
    (h : SameAnswer result (.ok (.envelopes dead))) :
    ∃ letters, result = .ok (.envelopes letters) ∧
      (letters.map JobEnvelope.delivered).Perm (dead.map JobEnvelope.delivered) := by
  rcases result with error | (value | value | value | value | letters)
  · exact False.elim h
  · exact False.elim h
  · exact False.elim h
  · exact False.elim h
  · exact False.elim h
  · exact ⟨letters, rfl, h⟩

theorem SameAnswer.eq_outcome {said : RetryOutcome} {outcome : Except QueueError RetryOutcome}
    (h : SameAnswer (.ok (.outcome said)) (outcome.map .outcome)) : outcome = .ok said := by
  cases outcome with
  | error => exact False.elim h
  | ok value => exact congrArg Except.ok (Eq.symm h)

end ResearchAgent.JobQueue
