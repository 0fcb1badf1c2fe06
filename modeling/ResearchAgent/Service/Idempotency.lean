import ResearchAgent.JobQueue.Copies
import ResearchAgent.Service.Custody

namespace ResearchAgent.Service

open Library JobQueue Client Server

variable {ι : Type} {cfg : Config}

namespace Idempotency

open Slots (Phase phase phase_own phase_other phase_after)

-- The job the event has put in the queue.
def enqueued : ServiceEvent ι → Option String
  | ⟨_, .queue (.enqueue job_id _ _ _), .ok (.bool true)⟩ => some job_id
  | _ => none

def enqueues : ServiceEvent ι → Bool
  | ⟨_, .queue (.enqueue _ _ _ _), _⟩ => true
  | _ => false

def obtains : ServiceEvent ι → Bool
  | ⟨_, .acquire_job_slot _, .ok true⟩ => true
  | _ => false

def creates : ServiceEvent ι → Bool
  | ⟨_, .jobs_set_if_absent _ _, .ok true⟩ => true
  | _ => false

-- The record was there when the event was to create it.
def comes_late : ServiceEvent ι → Bool
  | ⟨_, .jobs_set_if_absent _ _, .ok false⟩ => true
  | _ => false

def limits_rate : ServiceOp → Bool
  | .enforce_rate_limit _ => true
  | _ => false

-- No operation fails; the limit on the rate of requests is no failure.
def Succeeds (event : ServiceEvent ι) : Prop :=
  (event.reply.toBool || limits_rate event.op) = true

instance (event : ServiceEvent ι) : Decidable (Succeeds event) :=
  inferInstanceAs (Decidable (_ = true))

section Holders

variable [DecidableEq ι]

-- The threads that have a slot, or have passed it on to the job.
def holders : List (ServiceEvent ι) → List ι
  | [] => []
  | event :: rest =>
      match event with
      | ⟨thread, .acquire_job_slot _, .ok true⟩ => thread :: holders rest
      | ⟨thread, .release_job_slot _ _, .ok _⟩ => (holders rest).erase thread
      | _ => holders rest

variable (principal : Principal) (job_id : String)

-- A submission acquires one slot, creates one record and enqueues the job it has
-- created, and gives a slot back only while it has one.
def Permits (thread : ι) (past : List (ServiceEvent ι)) : ServiceOp → Prop
  | .acquire_job_slot tenant_id => tenant_id = principal.tenant_id ∧ phase thread past = .idle
  | .jobs_set_if_absent id job => id = job_id ∧ job.job_id = job_id ∧ phase thread past = .acquired
  | .queue call => phase thread past = .created job_id ∧
      ∃ request, call = .enqueue job_id request principal.principal_id principal.tenant_id
  | .release_job_slot tenant_id _ =>
      tenant_id = principal.tenant_id ∧ phase thread past = .acquired
  | .append_audit _ _ _ _ => True
  | op => Lookup op

theorem phase_events_of (thread : ι) (trace : List (ServiceEvent ι)) :
    phase thread (events_of thread trace) = phase thread trace := by
  induction trace with
  | nil => rfl
  | cons event rest ih =>
      by_cases ht : event.thread = thread
      · have hcons : events_of thread (event :: rest) = event :: events_of thread rest := by
          subst ht
          exact events_of_self
        rw [hcons, phase_own ht, phase_own ht, ih]
      · rw [events_of_other ht, phase_other ht, ih]

end Holders

section Roles

variable [DecidableEq ι] (job_id : String)

-- The thread has created the record.
def Created (trace : List (ServiceEvent ι)) (thread : ι) : Prop :=
  phase thread trace = .created job_id ∨ phase thread trace = .passed

-- One thread creates the record, and that thread alone enqueues the job.
structure Roles (trace : List (ServiceEvent ι)) : Prop where
  created : trace.any creates = true ↔ ∃ thread, Created job_id trace thread
  unique : ∀ thread other, Created job_id trace thread → Created job_id trace other → thread = other
  passed : trace.any enqueues = true ↔ ∃ thread, phase thread trace = .passed
  jobs : trace.filterMap enqueued = if trace.any enqueues then [job_id] else []
  obtained : trace.any obtains = true → ∃ thread, phase thread trace ≠ .idle
  raced : trace.any comes_late = true → trace.any creates = true

variable {job_id} {trace : List (ServiceEvent ι)} {event : ServiceEvent ι}

omit [DecidableEq ι] in
theorem enqueued_of_not (h : enqueues event = false) : enqueued event = none := by
  obtain ⟨thread, op, reply⟩ := event
  cases op with
  | queue call => cases call <;> first | rfl | cases h
  | _ => rfl

-- An event that neither creates nor enqueues leaves it at that.
theorem Roles.move (h : Roles job_id trace)
    (hmade : Created job_id (event :: trace) event.thread ↔ Created job_id trace event.thread)
    (hpassed : phase event.thread (event :: trace) = .passed ↔ phase event.thread trace = .passed)
    (hidle : phase event.thread (event :: trace) = .idle →
      obtains event = false ∧ phase event.thread trace = .idle)
    (hcreates : creates event = false) (henqueues : enqueues event = false)
    (hlate : comes_late event = true → trace.any creates = true) :
    Roles job_id (event :: trace) := by
  have hcreated : ∀ thread, Created job_id (event :: trace) thread ↔
      Created job_id trace thread := by
    intro thread
    by_cases ht : event.thread = thread
    · exact ht ▸ hmade
    · simp only [Created, phase_other ht]
  have hphases : ∀ thread, phase thread (event :: trace) = .passed ↔
      phase thread trace = .passed := by
    intro thread
    by_cases ht : event.thread = thread
    · exact ht ▸ hpassed
    · rw [phase_other ht]
  have henqueued := enqueued_of_not henqueues
  refine ⟨?_, ?_, ?_, ?_, fun hobtains => ?_, ?_⟩
  · simpa only [List.any_cons, hcreates, Bool.false_or, hcreated] using h.created
  · simpa only [hcreated] using h.unique
  · simpa only [List.any_cons, henqueues, Bool.false_or, hphases] using h.passed
  · simpa only [List.any_cons, henqueues, Bool.false_or, List.filterMap_cons, henqueued] using
      h.jobs
  · rw [List.any_cons, Bool.or_eq_true] at hobtains
    rcases hobtains with hobtains | hobtains
    · refine ⟨event.thread, fun hphase => ?_⟩
      rw [(hidle hphase).1] at hobtains
      cases hobtains
    · obtain ⟨thread, hthread⟩ := h.obtained hobtains
      refine ⟨thread, fun hphase => hthread ?_⟩
      by_cases ht : event.thread = thread
      · subst ht
        exact (hidle hphase).2
      · rwa [phase_other ht] at hphase
  · rw [List.any_cons, List.any_cons, hcreates, Bool.false_or, Bool.or_eq_true]
    exact fun hor => hor.elim hlate h.raced

theorem Roles.create (h : Roles job_id trace) (hcreates : creates event = true)
    (hafter : phase event.thread (event :: trace) = .created job_id)
    (hfirst : trace.any creates = false) (henqueues : enqueues event = false) :
    Roles job_id (event :: trace) := by
  have hnone : ∀ thread, ¬Created job_id trace thread := by
    intro thread hcreated
    rw [h.created.mpr ⟨thread, hcreated⟩] at hfirst
    cases hfirst
  have honly : ∀ thread, Created job_id (event :: trace) thread → event.thread = thread := by
    intro thread hcreated
    by_contra ht
    rw [Created, phase_other ht] at hcreated
    exact hnone thread hcreated
  have hpassed : ∀ thread, phase thread (event :: trace) ≠ .passed := by
    intro thread hphase
    rw [← honly thread (.inr hphase), hafter] at hphase
    cases hphase
  have hnotyet : trace.any enqueues = false := by
    by_contra hany
    obtain ⟨thread, hphase⟩ := h.passed.mp (Bool.not_eq_false _ ▸ hany)
    exact hnone thread (.inr hphase)
  have hany : (event :: trace).any creates = true := by rw [List.any_cons, hcreates, Bool.true_or]
  have hquiet : (event :: trace).any enqueues = false := by
    rw [List.any_cons, henqueues, hnotyet, Bool.false_or]
  refine ⟨⟨fun _ => ⟨_, .inl hafter⟩, fun _ => hany⟩, fun thread other ht ho => ?_, ?_, ?_,
    fun _ => ⟨event.thread, by rw [hafter]; exact fun hphase => by cases hphase⟩, fun _ => hany⟩
  · rw [← honly thread ht, ← honly other ho]
  · rw [hquiet]
    exact ⟨fun heq => (by cases heq), fun ⟨thread, hphase⟩ => absurd hphase (hpassed thread)⟩
  · have hjobs := h.jobs
    rw [hnotyet] at hjobs
    rw [hquiet, List.filterMap_cons, enqueued_of_not henqueues]
    exact hjobs

theorem Roles.enqueue (h : Roles job_id trace) (henqueued : enqueued event = some job_id)
    (hbefore : phase event.thread trace = .created job_id)
    (hafter : phase event.thread (event :: trace) = .passed) : Roles job_id (event :: trace) := by
  have hcreated : ∀ thread, Created job_id (event :: trace) thread →
      Created job_id trace thread := by
    intro thread hthread
    by_cases ht : event.thread = thread
    · exact ht ▸ .inl hbefore
    · rwa [Created, phase_other ht] at hthread
  have henqueues : enqueues event = true := by
    cases hevent : enqueues event with
    | true => rfl
    | false =>
        rw [enqueued_of_not hevent] at henqueued
        cases henqueued
  have hnotyet : trace.any enqueues = false := by
    by_contra hany
    obtain ⟨thread, hphase⟩ := h.passed.mp (Bool.not_eq_false _ ▸ hany)
    rw [← h.unique event.thread thread (.inl hbefore) (.inr hphase), hbefore] at hphase
    cases hphase
  have hany : (event :: trace).any creates = true := by
    rw [List.any_cons, h.created.mpr ⟨_, .inl hbefore⟩, Bool.or_true]
  have hpassed : (event :: trace).any enqueues = true := by
    rw [List.any_cons, henqueues, Bool.true_or]
  refine ⟨⟨fun _ => ⟨_, .inr hafter⟩, fun _ => hany⟩,
    fun thread other ht ho => h.unique thread other (hcreated thread ht) (hcreated other ho),
    ⟨fun _ => ⟨_, hafter⟩, fun _ => hpassed⟩, ?_,
    fun _ => ⟨event.thread, by rw [hafter]; exact fun hphase => by cases hphase⟩, fun _ => hany⟩
  have hjobs := h.jobs
  rw [hnotyet] at hjobs
  rw [hpassed, List.filterMap_cons, henqueued, hjobs]
  rfl

end Roles

section Ledger

variable [DecidableEq ι]

def owns : Phase → Bool
  | .acquired | .created _ | .passed => true
  | .idle | .returned => false

-- Besides what was there at the start, each owner has one slot.
structure Ledger (start count : ℕ) (trace : List (ServiceEvent ι)) : Prop where
  owners : ∀ thread, thread ∈ holders trace ↔ owns (phase thread trace) = true
  nodup : (holders trace).Nodup
  count : count = start + (holders trace).length

variable {start count : ℕ} {trace : List (ServiceEvent ι)} {thread : ι} {tenant_id job_id : String}

theorem Ledger.keep {event : ServiceEvent ι} (h : Ledger start count trace)
    (hholders : holders (event :: trace) = holders trace)
    (howns : owns (phase event.thread (event :: trace)) = owns (phase event.thread trace)) :
    Ledger start count (event :: trace) := by
  refine ⟨fun thread => ?_, by rw [hholders]; exact h.nodup, by rw [hholders]; exact h.count⟩
  rw [hholders, h.owners]
  by_cases ht : event.thread = thread
  · rw [← ht, howns]
  · rw [phase_other ht]

theorem Ledger.acquire (h : Ledger start count trace) (hidle : phase thread trace = .idle) :
    Ledger start (count + 1) (⟨thread, .acquire_job_slot tenant_id, .ok true⟩ :: trace) := by
  have hnew : thread ∉ holders trace := by
    intro hmem
    rw [h.owners, hidle] at hmem
    cases hmem
  refine ⟨fun other => ?_, List.nodup_cons.mpr ⟨hnew, h.nodup⟩, ?_⟩
  · rw [holders, List.mem_cons, h.owners]
    by_cases ho : other = thread
    · subst ho
      have hphase : phase other
          (⟨other, .acquire_job_slot tenant_id, .ok true⟩ :: trace) = .acquired := phase_after rfl
      rw [hphase]
      exact ⟨fun _ => rfl, fun _ => .inl rfl⟩
    · rw [phase_other (Ne.symm ho)]
      exact ⟨fun hor => hor.resolve_left ho, .inr⟩
  · have hcount := h.count
    rw [holders, List.length_cons]
    omega

theorem Ledger.release (h : Ledger start count trace) (howner : owns (phase thread trace) = true) :
    Ledger start (count - 1) (⟨thread, .release_job_slot tenant_id job_id, .ok ()⟩ :: trace) := by
  have hmem : thread ∈ holders trace := (h.owners thread).mpr howner
  refine ⟨fun other => ?_, h.nodup.erase thread, ?_⟩
  · rw [holders, h.nodup.mem_erase_iff, h.owners]
    by_cases ho : other = thread
    · subst ho
      have hphase : phase other
          (⟨other, .release_job_slot tenant_id job_id, .ok ()⟩ :: trace) = .returned :=
        phase_after rfl
      rw [hphase]
      exact ⟨fun hand => absurd rfl hand.1, fun howns => (by cases howns)⟩
    · rw [phase_other (Ne.symm ho)]
      exact ⟨And.right, fun howns => ⟨ho, howns⟩⟩
  · have hcount := h.count
    have hpos : 0 < (holders trace).length := List.length_pos_of_mem hmem
    rw [holders, List.length_erase_of_mem hmem]
    omega

end Ledger

section Invariant

variable [DecidableEq ι] (principal : Principal) (job_id : String)
  (start : Platform (job_queue cfg))

structure Inv (world : ServiceWorld ι (job_queue cfg)) : Prop where
  roles : Roles job_id world.trace
  ledger : Ledger (start.slots principal.tenant_id) (world.state.slots principal.tenant_id)
    world.trace
  keyed : ∀ job, world.state.jobs.get? job_id = some job → job.job_id = job_id
  record : (world.state.jobs.get? job_id).isSome = world.trace.any creates
  marker : world.trace.any enqueues = false → Backend.known world.state.queue job_id = none

variable {principal} {job_id} {start} {settings : Settings}
  {world : ServiceWorld ι (job_queue cfg)} {thread : ι} {op : ServiceOp} {reply : op.Reply}
  {state : Platform (job_queue cfg)}

-- The event has no part in creating, enqueueing or accounting.
structure Idle (event : ServiceEvent ι) : Prop where
  phase : ∀ before : Phase, before.next event = before
  creates : creates event = false
  enqueues : enqueues event = false
  obtains : obtains event = false
  holders : ∀ trace, holders (event :: trace) = holders trace

theorem Inv.keep (hinv : Inv principal job_id start world) {event : ServiceEvent ι}
    (hidle : Idle event) (hlate : comes_late event = true → world.trace.any creates = true)
    (hslots : state.slots = world.state.slots) (hjobs : state.jobs = world.state.jobs)
    (hqueue : state.queue = world.state.queue) :
    Inv principal job_id start (world.after event state) := by
  have hphase : phase event.thread (event :: world.trace) = phase event.thread world.trace :=
    (phase_own rfl).trans (hidle.phase _)
  refine ⟨hinv.roles.move (by rw [Created, hphase]; rfl) (by rw [hphase])
    (fun h => ⟨hidle.obtains, hphase ▸ h⟩) hidle.creates hidle.enqueues hlate, ?_, ?_, ?_, ?_⟩
  · rw [World.after_state, hslots]
    exact hinv.ledger.keep (hidle.holders _) (by rw [hphase])
  · rw [World.after_state, hjobs]
    exact hinv.keyed
  · rw [World.after_state, hjobs, World.after_trace, List.any_cons, hidle.creates, Bool.false_or]
    exact hinv.record
  · rw [World.after_state, hqueue, World.after_trace, List.any_cons, hidle.enqueues, Bool.false_or]
    exact hinv.marker

-- An operation that is of no account and changes nothing.
theorem Inv.unmoved (hinv : Inv principal job_id start world) {event : ServiceEvent ι}
    (hidle : Idle event) (hlate : comes_late event = false) :
    Inv principal job_id start (world.after event world.state) := by
  refine hinv.keep hidle (fun h => ?_) rfl rfl rfl
  rw [hlate] at h
  cases h

theorem Inv.acquire (hinv : Inv principal job_id start world)
    {reply : ServiceOp.Reply (.acquire_job_slot principal.tenant_id)}
    (hidle : phase thread world.trace = .idle)
    (hstep : service_step settings thread world.state (.acquire_job_slot principal.tenant_id) reply
      state) :
    Inv principal job_id start
      (world.after ⟨thread, .acquire_job_slot principal.tenant_id, reply⟩ state) := by
  rcases service_step_cases hstep with ⟨error, rfl, rfl⟩ | ⟨outcome, ho⟩
  · exact hinv.unmoved ⟨fun _ => rfl, rfl, rfl, rfl, fun _ => rfl⟩ rfl
  · simp only [Platform.effect, Platform.acquire_job_slot] at ho
    split at ho
    · cases ho
      exact hinv.unmoved ⟨fun _ => rfl, rfl, rfl, rfl, fun _ => rfl⟩ rfl
    · cases ho
      have hphase : phase thread (⟨thread, .acquire_job_slot principal.tenant_id, .ok true⟩ ::
          world.trace) = .acquired := phase_after rfl
      refine ⟨hinv.roles.move ?_ ?_ ?_ rfl rfl (fun h => by cases h), ?_, hinv.keyed, hinv.record,
        hinv.marker⟩
      · simp [Created, hphase, hidle]
      · simp [hphase, hidle]
      · simp [hphase]
      · have hledger : Ledger (start.slots principal.tenant_id)
            (world.state.slots principal.tenant_id + 1)
            (⟨thread, .acquire_job_slot principal.tenant_id, .ok true⟩ :: world.trace) :=
          hinv.ledger.acquire hidle
        simpa [Platform.set_slots] using hledger

theorem Inv.release (hinv : Inv principal job_id start world) {id : String}
    {reply : ServiceOp.Reply (.release_job_slot principal.tenant_id id)}
    (hacquired : phase thread world.trace = .acquired)
    (hstep : service_step settings thread world.state (.release_job_slot principal.tenant_id id)
      reply state) :
    Inv principal job_id start
      (world.after ⟨thread, .release_job_slot principal.tenant_id id, reply⟩ state) := by
  rcases service_step_cases hstep with ⟨error, rfl, rfl⟩ | ⟨outcome, ho⟩
  · exact hinv.unmoved ⟨fun _ => rfl, rfl, rfl, rfl, fun _ => rfl⟩ rfl
  · cases ho
    have hphase : phase thread (⟨thread, .release_job_slot principal.tenant_id id, .ok ()⟩ ::
        world.trace) = .returned := phase_after rfl
    refine ⟨hinv.roles.move ?_ ?_ ?_ rfl rfl (fun h => by cases h), ?_, hinv.keyed, hinv.record,
      hinv.marker⟩
    · simp [Created, hphase, hacquired]
    · simp [hphase, hacquired]
    · simp [hphase]
    · have hledger : Ledger (start.slots principal.tenant_id)
          (world.state.slots principal.tenant_id - 1)
          (⟨thread, .release_job_slot principal.tenant_id id, .ok ()⟩ :: world.trace) :=
        hinv.ledger.release (by rw [hacquired]; rfl)
      simpa [Platform.release_job_slot, Platform.set_slots] using hledger

-- The first to create the record does so, and every other comes late.
theorem Inv.create (hinv : Inv principal job_id start world) {job : JobStatus}
    {reply : ServiceOp.Reply (.jobs_set_if_absent job_id job)} (hjob : job.job_id = job_id)
    (hacquired : phase thread world.trace = .acquired)
    (hstep :
      service_step settings thread world.state (.jobs_set_if_absent job_id job) reply state) :
    Inv principal job_id start
      (world.after ⟨thread, .jobs_set_if_absent job_id job, reply⟩ state) := by
  rcases service_step_cases hstep with ⟨error, rfl, rfl⟩ | ⟨outcome, ho⟩
  · exact hinv.unmoved ⟨fun _ => rfl, rfl, rfl, rfl, fun _ => rfl⟩ rfl
  · simp only [Platform.effect, Platform.set_if_absent] at ho
    split at ho
    · next hthere =>
        cases ho
        refine hinv.keep ⟨fun _ => rfl, rfl, rfl, rfl, fun _ => rfl⟩ (fun _ => ?_) rfl rfl rfl
        rw [← hinv.record]
        exact hthere
    · next habsent =>
        cases ho
        have hfirst : world.trace.any creates = false := by
          rw [← hinv.record]
          exact Bool.not_eq_true _ ▸ habsent
        have hphase : phase thread (⟨thread, .jobs_set_if_absent job_id job, .ok true⟩ ::
            world.trace) = .created job_id := phase_after rfl
        refine ⟨hinv.roles.create rfl hphase hfirst rfl, hinv.ledger.keep rfl ?_, ?_, ?_,
          hinv.marker⟩
        · rw [hphase, hacquired]
          rfl
        · intro found hget
          simp only [World.after_state, id_eq, Dict.get?_set_self, Option.some.injEq] at hget
          rw [← hget, hjob]
        · simp [creates]

-- The queue has not seen the job before, so it takes it.
theorem Inv.enqueue (hinv : Inv principal job_id start world) {request : JSONObject}
    {reply : ServiceOp.Reply
      (.queue (.enqueue job_id request principal.principal_id principal.tenant_id))}
    (hcreated : phase thread world.trace = .created job_id)
    (hids : missing_ids job_id principal.principal_id principal.tenant_id = false)
    (hstep : service_step settings thread world.state
      (.queue (.enqueue job_id request principal.principal_id principal.tenant_id)) reply state)
    (hok : reply.toBool = true) :
    reply = .ok (.bool true) ∧ Inv principal job_id start (world.after
      ⟨thread, .queue (.enqueue job_id request principal.principal_id principal.tenant_id), reply⟩
      state) := by
  have hnotyet : world.trace.any enqueues = false := by
    by_contra hany
    obtain ⟨other, hother⟩ := hinv.roles.passed.mp (Bool.not_eq_false _ ▸ hany)
    rw [← hinv.roles.unique thread other (.inl hcreated) (.inr hother), hcreated] at hother
    cases hother
  rcases queue_step hstep with ⟨error, rfl, -⟩ | ⟨moment, rfl, rfl⟩
  · cases hok
  · have hmarker := hinv.marker hnotyet
    have hadmitted : (Backend.call cfg moment world.state.queue
        (.enqueue job_id request principal.principal_id principal.tenant_id)).1 =
          .ok (.bool true) := by
      refine Backend.admitted_iff.mpr ⟨by simp [hids], ?_⟩
      rintro ⟨expires, hexpires, -⟩
      rw [hmarker] at hexpires
      cases hexpires
    have hreply : ((job_queue cfg).call moment world.state.queue
        (.enqueue job_id request principal.principal_id principal.tenant_id)).1.mapError
          ServiceError.QueueError = .ok (.bool true) := congrArg _ hadmitted
    refine ⟨hreply, ?_⟩
    rw [hreply]
    have hphase : phase thread (⟨thread, .queue (.enqueue job_id request principal.principal_id
        principal.tenant_id), .ok (.bool true)⟩ :: world.trace) = .passed := phase_after rfl
    refine ⟨hinv.roles.enqueue rfl hcreated hphase, hinv.ledger.keep rfl ?_, hinv.keyed, ?_, ?_⟩
    · rw [hphase, hcreated]
      rfl
    · rw [World.after_trace, List.any_cons]
      exact hinv.record
    · rw [World.after_trace, List.any_cons]
      exact fun h => by cases h

-- A look at the stores changes nothing.
theorem lookup_idle (hlookup : Lookup op) : Idle (⟨thread, op, reply⟩ : ServiceEvent ι) := by
  cases op with
  | jobs_get | jobs_values | results_get | enforce_rate_limit | now | uuid4 =>
      exact ⟨fun _ => rfl, rfl, rfl, rfl, fun _ => rfl⟩
  | _ => exact hlookup.elim

omit [DecidableEq ι] in
theorem lookup_kept (hlookup : Lookup op)
    (hstep : service_step settings thread world.state op reply state) : state = world.state := by
  rcases service_step_cases hstep with ⟨error, -, rfl⟩ | ⟨outcome, ho⟩
  · rfl
  · cases op with
    | jobs_get | jobs_values | results_get | enforce_rate_limit | now | uuid4 => cases ho; rfl
    | _ => exact hlookup.elim

theorem Inv.step (hinv : Inv principal job_id start world)
    (hids : missing_ids job_id principal.principal_id principal.tenant_id = false)
    (hpermits : Permits principal job_id thread (events_of thread world.trace) op)
    (hsucceeds : Succeeds (⟨thread, op, reply⟩ : ServiceEvent ι))
    (hstep : service_step settings thread world.state op reply state) :
    Inv principal job_id start (world.after ⟨thread, op, reply⟩ state) := by
  have hlookup : Lookup op → Inv principal job_id start
      (world.after ⟨thread, op, reply⟩ state) := by
    intro hlookup
    have hidle : Idle (⟨thread, op, reply⟩ : ServiceEvent ι) := lookup_idle hlookup
    rw [lookup_kept hlookup hstep]
    refine hinv.keep hidle (fun hlate => ?_) rfl rfl rfl
    cases op <;> first | exact hlookup.elim | cases hlate
  cases op with
  | acquire_job_slot tenant_id =>
      obtain ⟨rfl, hphase⟩ := hpermits
      exact hinv.acquire (phase_events_of thread world.trace ▸ hphase) hstep
  | release_job_slot tenant_id id =>
      obtain ⟨rfl, hphase⟩ := hpermits
      exact hinv.release (phase_events_of thread world.trace ▸ hphase) hstep
  | jobs_set_if_absent id job =>
      obtain ⟨rfl, hjob, hphase⟩ := hpermits
      exact hinv.create hjob (phase_events_of thread world.trace ▸ hphase) hstep
  | queue call =>
      obtain ⟨hphase, request, rfl⟩ := hpermits
      have hok : reply.toBool = true := (Bool.or_false _).symm.trans hsucceeds
      exact (hinv.enqueue (phase_events_of thread world.trace ▸ hphase) hids hstep hok).2
  | append_audit event_type principal job_id details =>
      rcases service_step_cases hstep with ⟨error, rfl, rfl⟩ | ⟨outcome, ho⟩
      · exact hinv.unmoved ⟨fun _ => rfl, rfl, rfl, rfl, fun _ => rfl⟩ rfl
      · cases ho
        exact hinv.keep ⟨fun _ => rfl, rfl, rfl, rfl, fun _ => rfl⟩ (fun h => by cases h)
          rfl rfl rfl
  | _ => exact hlookup hpermits

end Invariant

section Programs

variable [DecidableEq ι] {principal : Principal} {job_id : String}
  {start : Platform (job_queue cfg)} {settings : Settings}

abbrev discipline (principal : Principal) (job_id : String) (start : Platform (job_queue cfg))
    (settings : Settings) :
    Library.Discipline ι ServiceOp ServiceOp.Reply (Platform (job_queue cfg)) :=
  .by_events (service_step settings) (fun _ event => Succeeds event) (Inv principal job_id start)

variable {α β : Type} {world : ServiceWorld ι (job_queue cfg)} {thread : ι}
  {past : List (ServiceEvent ι)} {before : Phase}

theorem phase_then {op : ServiceOp} {reply : op.Reply} (h : phase thread past = before) :
    phase thread (⟨thread, op, reply⟩ :: past) =
      before.next (⟨thread, op, reply⟩ : ServiceEvent ι) :=
  (phase_own rfl).trans (by rw [h])

omit [DecidableEq ι] in
theorem not_succeeds {op : ServiceOp} {error : ServiceError} (hop : limits_rate op = false) :
    ¬Succeeds (⟨thread, op, .error error⟩ : ServiceEvent ι) := by
  intro h
  rw [Succeeds, hop, Bool.or_false] at h
  cases h

variable (hids : missing_ids job_id principal.principal_id principal.tenant_id = false)

include hids

theorem wp_op {post : Except ServiceError β → ServiceWorld ι (job_queue cfg) → Prop}
    {op : ServiceOp} {f : op.Value → ServiceProgram β}
    (hpast : events_of thread world.trace = past)
    (hpermits : Permits principal job_id thread past op)
    (hnext : ∀ (w : ServiceWorld ι (job_queue cfg)) reply state, Inv principal job_id start w →
      events_of thread w.trace = past → service_step settings thread w.state op reply state →
      Succeeds (⟨thread, op, reply⟩ : ServiceEvent ι) →
      events_of thread (w.after ⟨thread, op, reply⟩ state).trace = ⟨thread, op, reply⟩ :: past →
      (discipline principal job_id start settings).wp thread post (lift reply >>= f)
        (w.after ⟨thread, op, reply⟩ state)) :
    (discipline principal job_id start settings).wp thread post (perform op >>= f) world :=
  Discipline.wp_call hpast fun w reply state _ hown hinv hstep hsucceeds =>
    ⟨hinv.step hids (hown ▸ hpermits) hsucceeds hstep,
      hnext w reply state hinv hown hstep hsucceeds⟩

theorem wp_lookup {program : ServiceProgram α} (h : program.uses Lookup)
    (hphase : phase thread (events_of thread world.trace) = before) :
    (discipline principal job_id start settings).wp thread
      (fun _ w => phase thread (events_of thread w.trace) = before) program world := by
  refine Discipline.wp_of_uses (fun hrely hkeep => by rwa [hrely.2])
    (fun {w op reply state} hop hinv hkeep hstep => ⟨hinv.step hids ?_ hstep.2 hstep.1,
      fun other ho => ⟨List.suffix_cons _ _, events_of_other (Ne.symm ho)⟩, ?_⟩) h hphase
  · cases op <;> first | exact hop.elim | trivial
  · have hidle : Idle (⟨thread, op, reply⟩ : ServiceEvent ι) := lookup_idle hop
    have hkeep' : phase thread (⟨thread, op, reply⟩ :: events_of thread w.trace) = before :=
      (phase_then hkeep).trans (hidle.phase _)
    rwa [World.after_trace, events_of_self]

-- What a submission that returns has done with its slot: it has not had one, has
-- passed it to the job, or has given it back because the record was there.
def Ended (job_id : String) (thread : ι) (past : List (ServiceEvent ι)) :
    Except ServiceError JobStatus → Prop
  | .ok job => job.job_id = job_id ∧ (phase thread past = .idle ∨ phase thread past = .passed ∨
      phase thread past = .returned ∧ past.any comes_late = true)
  | .error _ => phase thread past = .idle

-- And one that is inside its `try` block with a slot.
def Accepted (job_id : String) (thread : ι) (past : List (ServiceEvent ι)) :
    Except ServiceError JobStatus → Prop
  | .ok job => Ended job_id thread past (.ok job)
  | .error _ => False

-- What the look for an existing job gives.
def Looked (job_id : String) (thread : ι) (past : List (ServiceEvent ι)) :
    Except ServiceError (String × Option JobStatus) → Prop
  | .ok (id, existing) => id = job_id ∧ (∀ job ∈ existing, job.job_id = job_id) ∧
      phase thread past = .idle
  | .error _ => phase thread past = .idle

omit hids in
theorem accepted_of_wp {program : ServiceProgram JobStatus}
    (h : (discipline principal job_id start settings).wp thread
      (fun result w => Accepted job_id thread (events_of thread w.trace) result) program world)
    {handler : ServiceError → ServiceProgram JobStatus} :
    (discipline principal job_id start settings).wp thread
      (fun result w => Ended job_id thread (events_of thread w.trace) result)
      (program.attempt handler) world := by
  refine Discipline.wp_attempt (Discipline.wp_mono (fun result w hw => ?_) h)
  cases result with
  | ok job => exact hw
  | error error => exact hw.elim

theorem find_job_wp {key : String} (hjob : idempotent_id settings principal key = job_id)
    (hphase : phase thread (events_of thread world.trace) = .idle) :
    (discipline principal job_id start settings).wp thread
      (fun result w => Looked job_id thread (events_of thread w.trace) result)
      (find_job settings principal (some key)) world := by
  refine Discipline.wp_bind (Discipline.wp_mono (fun result w hw => ?_)
    (wp_lookup hids (require_role_uses _) hphase))
  cases result with
  | error error => exact hw
  | ok _ =>
      refine Discipline.wp_bind (Discipline.wp_mono (fun result v hv => ?_)
        (wp_lookup hids (limit_rate_uses principal) hw))
      cases result with
      | error error => exact hv
      | ok _ =>
          simp only [new_job_id]
          split
          · rw [Program.ret_bind, hjob]
            refine wp_op hids rfl trivial fun u reply state hinv _ hstep _ hown => ?_
            have hidle : phase thread (⟨thread, .jobs_get job_id, reply⟩ ::
                events_of thread v.trace) = .idle := phase_then hv
            cases reply with
            | error error => exact Discipline.wp_raise hown hidle
            | ok existing =>
                refine Discipline.wp_ret hown ⟨rfl, fun job hmem => hinv.keyed job ?_, hidle⟩
                rw [← jobs_get_step hstep]
                exact hmem
          · exact Discipline.wp_raise rfl hv

-- The record is there, since it was there when it was to be created.
theorem raced_job_wp (hpast : events_of thread world.trace = past)
    (hphase : phase thread past = .acquired) (hlate : past.any comes_late = true) :
    (discipline principal job_id start settings).wp thread
      (fun result w => Accepted job_id thread (events_of thread w.trace) result)
      (raced_job principal job_id) world := by
  refine wp_op hids hpast ⟨rfl, hphase⟩ fun w reply state _ _ _ hsucceeds hown => ?_
  cases reply with
  | error error => exact absurd hsucceeds (not_succeeds rfl)
  | ok value =>
      have hreturned : phase thread (⟨thread, .release_job_slot principal.tenant_id job_id,
          .ok value⟩ :: past) = .returned := phase_then hphase
      refine wp_op hids hown trivial fun v reply state hinv hpast hstep hsucceeds hown => ?_
      cases reply with
      | error error => exact absurd hsucceeds (not_succeeds rfl)
      | ok found =>
          have hthere : (v.state.jobs.get? job_id).isSome = true := by
            rw [hinv.record]
            refine hinv.roles.raced ?_
            obtain ⟨event, hmem, hevent⟩ := List.any_eq_true.mp hlate
            have hmem' : event ∈ events_of thread v.trace := hpast ▸ List.mem_cons_of_mem _ hmem
            exact List.any_eq_true.mpr ⟨event, (mem_events_of.mp hmem').1, hevent⟩
          rw [← jobs_get_step hstep] at hthere
          obtain ⟨job, rfl⟩ := Option.isSome_iff_exists.mp hthere
          refine Discipline.wp_ret hown
            ⟨hinv.keyed job (jobs_get_step hstep).symm, .inr (.inr ⟨?_, ?_⟩)⟩
          · exact phase_then hreturned
          · simpa [comes_late] using hlate

theorem enqueue_job_wp {request : ResearchRequest} {job : JobStatus} (hjob : job.job_id = job_id)
    (hpast : events_of thread world.trace = past) (hphase : phase thread past = .created job_id) :
    (discipline principal job_id start settings).wp thread
      (fun result w => Accepted job_id thread (events_of thread w.trace) result)
      (enqueue_job principal request job) world := by
  subst hjob
  unfold enqueue_job Client.enqueue Client.queue
  rw [Program.bind_assoc]
  refine wp_op hids hpast ⟨hphase, _, rfl⟩ fun w reply state hinv hpast hstep hsucceeds hown => ?_
  have hok : reply.toBool = true := (Bool.or_false _).symm.trans hsucceeds
  have hcreated : phase thread w.trace = .created job.job_id := by
    rw [← phase_events_of, hpast, hphase]
  obtain ⟨rfl, -⟩ := hinv.enqueue hcreated hids hstep hok
  have hpassed : phase thread (⟨thread, .queue (.enqueue job.job_id request.model_dump
      principal.principal_id principal.tenant_id), .ok (.bool true)⟩ :: past) = .passed :=
    phase_then hphase
  refine wp_op hids hown trivial fun v reply state _ _ _ hsucceeds hown => ?_
  cases reply with
  | error error => exact absurd hsucceeds (not_succeeds rfl)
  | ok value => exact Discipline.wp_ret hown ⟨rfl, .inr (.inl (phase_then hpassed))⟩

theorem create_job_wp {request : ResearchRequest} {job : JobStatus} (hjob : job.job_id = job_id)
    (hpast : events_of thread world.trace = past) (hphase : phase thread past = .acquired) :
    (discipline principal job_id start settings).wp thread
      (fun result w => Accepted job_id thread (events_of thread w.trace) result)
      (create_job principal request job) world := by
  subst hjob
  refine wp_op hids hpast ⟨rfl, rfl, hphase⟩ fun w reply state _ _ _ hsucceeds hown => ?_
  cases reply with
  | error error => exact absurd hsucceeds (not_succeeds rfl)
  | ok created =>
      cases created with
      | true => exact enqueue_job_wp hids rfl hown (phase_then hphase)
      | false => exact raced_job_wp hids hown (phase_then hphase) rfl

theorem reserve_job_wp {request : ResearchRequest} (hpast : events_of thread world.trace = past)
    (hphase : phase thread past = .idle) :
    (discipline principal job_id start settings).wp thread
      (fun result w => Ended job_id thread (events_of thread w.trace) result)
      (reserve_job principal request job_id) world := by
  refine wp_op hids hpast ⟨rfl, hphase⟩ fun w reply state _ _ _ hsucceeds hown => ?_
  cases reply with
  | error error => exact absurd hsucceeds (not_succeeds rfl)
  | ok acquired =>
      cases acquired with
      | false => exact Discipline.wp_raise hown (phase_then hphase)
      | true =>
          have hacquired : phase thread (⟨thread, .acquire_job_slot principal.tenant_id,
              .ok true⟩ :: past) = .acquired := phase_then hphase
          refine wp_op hids hown trivial fun v reply state _ _ _ hsucceeds hown => ?_
          cases reply with
          | error error => exact absurd hsucceeds (not_succeeds rfl)
          | ok created_at =>
              exact accepted_of_wp (create_job_wp hids rfl hown (phase_then hacquired))

theorem submit_research_wp {request : ResearchRequest} {key : String}
    (hjob : idempotent_id settings principal key = job_id)
    (hphase : phase thread (events_of thread world.trace) = .idle) :
    (discipline principal job_id start settings).wp thread
      (fun result w => Ended job_id thread (events_of thread w.trace) result)
      (submit_research settings principal request (some key)) world := by
  refine Discipline.wp_bind (Discipline.wp_mono (fun result w hw => ?_)
    (find_job_wp hids hjob hphase))
  cases result with
  | error error => exact hw
  | ok found =>
      obtain ⟨id, existing⟩ := found
      obtain ⟨rfl, hkeyed, hidle⟩ := hw
      cases existing with
      | some job => exact Discipline.wp_ret rfl ⟨hkeyed job rfl, .inl hidle⟩
      | none => exact reserve_job_wp hids rfl hidle

end Programs

section Ids

-- The text that is hashed for the id of a job.
def hashed (principal : Principal) (key : String) : String :=
  s!"{principal.tenant_id}:{principal.principal_id}:{key}"

theorem ne_empty_of_identifier {text : String} (h : is_identifier text = true) : text ≠ "" := by
  rintro rfl
  revert h
  decide

theorem colon_not_mem {text : String} (h : is_identifier text = true) : ':' ∉ text.toList := by
  intro hmem
  have hall : text.toList.all (fun char => alphanumeric char || char ∈ ['_', '.', '-']) = true := by
    simp only [is_identifier, Bool.and_eq_true] at h
    exact h.2
  have hcolon := List.all_eq_true.mp hall ':' hmem
  revert hcolon
  decide

theorem ids_present (settings : Settings) (principal : Principal) (key : String) :
    missing_ids (idempotent_id settings principal key) principal.principal_id
      principal.tenant_id = false := by
  have hprincipal := ne_empty_of_identifier principal.principal_id_valid
  have htenant := ne_empty_of_identifier principal.tenant_id_valid
  simp [missing_ids, hprincipal, htenant, idempotent_id]

-- A text is cut in one way only at the first separator.
theorem cut_at {separator : Char} {left left' right right' : List Char} (hleft : separator ∉ left)
    (hleft' : separator ∉ left') (h : left ++ separator :: right = left' ++ separator :: right') :
    left = left' ∧ right = right' := by
  induction left generalizing left' with
  | nil =>
      cases left' with
      | nil => exact ⟨rfl, (List.cons.inj h).2⟩
      | cons char rest => exact absurd ((List.cons.inj h).1 ▸ List.mem_cons_self ..) hleft'
  | cons char rest ih =>
      cases left' with
      | nil => exact absurd ((List.cons.inj h).1 ▸ List.mem_cons_self ..) hleft
      | cons char' rest' =>
          obtain ⟨rfl, hrest⟩ := List.cons.inj h
          obtain ⟨rfl, hright⟩ := ih (fun hmem => hleft (List.mem_cons_of_mem _ hmem))
            (fun hmem => hleft' (List.mem_cons_of_mem _ hmem)) hrest
          exact ⟨rfl, hright⟩

-- Only the key may contain the separator.
theorem hashed_injective {principal other : Principal} {key key' : String}
    (h : hashed principal key = hashed other key') :
    principal.tenant_id = other.tenant_id ∧ principal.principal_id = other.principal_id ∧
      key = key' := by
  have hlists : principal.tenant_id.toList ++ ':' :: (principal.principal_id.toList ++
      ':' :: key.toList) = other.tenant_id.toList ++ ':' :: (other.principal_id.toList ++
        ':' :: key'.toList) := by
    have htexts : principal.tenant_id ++ ":" ++ principal.principal_id ++ ":" ++ key =
        other.tenant_id ++ ":" ++ other.principal_id ++ ":" ++ key' := h
    simpa [String.toList_append] using congrArg String.toList htexts
  obtain ⟨htenant, hrest⟩ := cut_at (colon_not_mem principal.tenant_id_valid)
    (colon_not_mem other.tenant_id_valid) hlists
  obtain ⟨hprincipal, hkey⟩ := cut_at (colon_not_mem principal.principal_id_valid)
    (colon_not_mem other.principal_id_valid) hrest
  exact ⟨String.toList_injective htenant, String.toList_injective hprincipal,
    String.toList_injective hkey⟩

theorem triple_of_id {settings : Settings} {principal other : Principal} {key key' : String}
    {texts : Set String}
    (hinjective : texts.InjOn fun text => ((settings.sha256 text).take 32).copy)
    (hmem : hashed principal key ∈ texts) (hmem' : hashed other key' ∈ texts)
    (h : idempotent_id settings principal key = idempotent_id settings other key') :
    principal.tenant_id = other.tenant_id ∧ principal.principal_id = other.principal_id ∧
      key = key' := by
  have hdigest : ((settings.sha256 (hashed principal key)).take 32).copy =
      ((settings.sha256 (hashed other key')).take 32).copy :=
    (String.append_right_inj "idem-").mp h
  exact hashed_injective (hinjective hmem hmem' hdigest)

end Ids

section Runs

variable [DecidableEq ι] {principal : Principal} {key job_id : String}
  {start platform : Platform (job_queue cfg)} {settings : Settings} {activity : ι → Activity}
  {pool : ServicePool ι (job_queue cfg)} {thread : ι} {world : ServiceWorld ι (job_queue cfg)}

def Answered (job_id : String) (thread : ι) (past : List (ServiceEvent ι)) :
    Except ServiceError Answer → Prop
  | .ok answer => ∃ job, answer = .body (.job job) ∧ Ended job_id thread past (.ok job)
  | .error error => Ended job_id thread past (.error error)

theorem activity_wp (hids : missing_ids job_id principal.principal_id principal.tenant_id = false)
    (hjob : idempotent_id settings principal key = job_id)
    (hcall : ∃ request, activity thread = .request principal (.submit request (some key)))
    (hphase : phase thread (events_of thread world.trace) = .idle) :
    (discipline principal job_id start settings).wp thread
      (fun result w => Answered job_id thread (events_of thread w.trace) result)
      ((activity thread).program settings) world := by
  obtain ⟨request, hactivity⟩ := hcall
  rw [hactivity]
  have hprogram : (Activity.request principal (.submit request (some key))).program settings =
      submit_research settings principal request (some key) >>= fun job =>
        .ret (.body (.job job)) := by
    simp only [Activity.program, Request.serve, Program.bind_assoc, Program.ret_bind]
  rw [hprogram]
  refine Discipline.wp_bind (Discipline.wp_mono (fun result w hw => ?_)
    (submit_research_wp hids hjob hphase))
  cases result with
  | ok job => exact Discipline.wp_ret rfl ⟨job, rfl, hw⟩
  | error error => exact hw

-- All calls are through: nobody has a slot but the thread that has passed it on.
structure Done (world : ServiceWorld ι (job_queue cfg)) : Prop where
  stopped : ∀ thread, phase thread world.trace = .idle ∨ phase thread world.trace = .passed ∨
    phase thread world.trace = .returned ∧ world.trace.any comes_late = true

theorem Inv.balanced (hinv : Inv principal job_id start world) (hdone : Done world) :
    (world.trace.any obtains = true → world.trace.filterMap enqueued = [job_id]) ∧
    world.state.slots principal.tenant_id =
      start.slots principal.tenant_id + (world.trace.filterMap enqueued).length := by
  have hpassed : ∀ thread, Created job_id world.trace thread →
      phase thread world.trace = .passed := by
    rintro thread (hcreated | hpassed)
    · rcases hdone.stopped thread with hphase | hphase | ⟨hphase, -⟩ <;>
        (rw [hcreated] at hphase; cases hphase)
    · exact hpassed
  have howner : ∀ thread ∈ holders world.trace, phase thread world.trace = .passed := by
    intro thread hmem
    have howns := (hinv.ledger.owners thread).mp hmem
    rcases hdone.stopped thread with hphase | hphase | ⟨hphase, -⟩
    · rw [hphase] at howns; cases howns
    · exact hphase
    · rw [hphase] at howns; cases howns
  have hjobs := hinv.roles.jobs
  rw [hinv.ledger.count]
  cases hany : world.trace.any enqueues with
  | true =>
      obtain ⟨thread, hthread⟩ := hinv.roles.passed.mp hany
      have hmem : thread ∈ holders world.trace := by
        rw [hinv.ledger.owners, hthread]
        rfl
      have hsubset : holders world.trace ⊆ [thread] := fun other hother => List.mem_singleton.mpr
        (hinv.roles.unique other thread (.inr (howner other hother)) (.inr hthread))
      have hone : (holders world.trace).length ≤ 1 :=
        (hinv.ledger.nodup.subperm hsubset).length_le
      have hpos : 0 < (holders world.trace).length := List.length_pos_of_mem hmem
      rw [hany, if_pos rfl] at hjobs
      rw [hjobs, List.length_singleton]
      exact ⟨fun _ => rfl, by omega⟩
  | false =>
      have hnobody : ∀ thread, phase thread world.trace ≠ .passed := by
        intro thread hthread
        rw [hinv.roles.passed.mpr ⟨thread, hthread⟩] at hany
        cases hany
      have hempty : holders world.trace = [] := List.eq_nil_iff_forall_not_mem.mpr
        fun thread hmem => hnobody thread (howner thread hmem)
      rw [hany, if_neg Bool.false_ne_true] at hjobs
      rw [hjobs, hempty]
      refine ⟨fun hobtains => ?_, rfl⟩
      obtain ⟨thread, hthread⟩ := hinv.roles.obtained hobtains
      rcases hdone.stopped thread with hphase | hphase | ⟨-, hlate⟩
      · exact absurd hphase hthread
      · exact absurd hphase (hnobody thread)
      · obtain ⟨creator, hcreator⟩ := hinv.roles.created.mp (hinv.roles.raced hlate)
        exact absurd (hpassed creator hcreator) (hnobody creator)

-- The condition on a step.
def Smooth (_ : ServicePool ι (job_queue cfg)) (event : Option (ServiceEvent ι)) : Prop :=
  ∀ happened ∈ event, Succeeds happened

instance (pool : ServicePool ι (job_queue cfg)) (event : Option (ServiceEvent ι)) :
    Decidable (Smooth pool event) :=
  inferInstanceAs (Decidable (∀ _ ∈ _, _))

section Calls

variable (hcalls : ∀ thread, ∃ request,
    activity thread = .request principal (.submit request (some key)))
  (hrecord : platform.jobs.get? (idempotent_id settings principal key) = none)
  (hmarker : Backend.known platform.queue (idempotent_id settings principal key) = none)
  (hrun : Run (service_step settings) (fun _ _ => False) Smooth
    (ServicePool.start settings platform activity) pool)

include hcalls hrecord hmarker hrun

theorem calls_of_run :
    Inv principal (idempotent_id settings principal key) platform pool.world ∧
      ∀ thread, (discipline principal (idempotent_id settings principal key) platform settings).wp
        thread (fun result w => Answered (idempotent_id settings principal key) thread
          (events_of thread w.trace) result) (pool.threads thread) pool.world := by
  have hinv : Inv principal (idempotent_id settings principal key) platform
      (ServicePool.start settings platform activity).world := by
    refine ⟨⟨?_, ?_, ?_, rfl, fun h => (by cases h), fun h => (by cases h)⟩,
      ⟨?_, List.nodup_nil, rfl⟩, ?_, ?_, fun _ => hmarker⟩
    · exact ⟨fun h => (by cases h), fun ⟨_, h⟩ => (by rcases h with h | h <;> cases h)⟩
    · rintro _ _ (h | h) <;> cases h
    · exact ⟨fun h => (by cases h), fun ⟨_, h⟩ => (by cases h)⟩
    · exact fun _ => ⟨fun h => (by cases h), fun h => (by cases h)⟩
    · intro job hget
      cases hrecord.symm.trans hget
    · exact congrArg Option.isSome hrecord
  exact (discipline principal (idempotent_id settings principal key) platform settings).sound
    (fun thread result w => Answered (idempotent_id settings principal key) thread
      (events_of thread w.trace) result) hinv
    (fun thread => activity_wp (ids_present settings principal key) rfl (hcalls thread) rfl)
    (fun _ he => False.elim he) (fun {_ _} (hsmooth : Smooth _ _) => hsmooth _ rfl) hrun

theorem ended_of_ret {answer : Answer} (h : pool.threads thread = .ret answer) :
    Answered (idempotent_id settings principal key) thread
      (events_of thread pool.world.trace) (.ok answer) := by
  obtain ⟨hinv, hthreads⟩ := calls_of_run hcalls hrecord hmarker hrun
  have hwp := hthreads thread
  rw [h] at hwp
  exact hwp pool.world (Discipline.rely_refl _ thread _) hinv

theorem done_of_stopped (hstopped : ∀ thread op next, pool.threads thread ≠ .call op next) :
    Done pool.world := by
  obtain ⟨hinv, hthreads⟩ := calls_of_run hcalls hrecord hmarker hrun
  refine ⟨fun thread => ?_⟩
  cases hthread : pool.threads thread with
  | call op next => exact absurd hthread (hstopped thread op next)
  | raise error =>
      have hwp := hthreads thread
      rw [hthread] at hwp
      have hidle : phase thread (events_of thread pool.world.trace) = .idle :=
        hwp pool.world (Discipline.rely_refl _ thread _) hinv
      exact .inl (phase_events_of thread pool.world.trace ▸ hidle)
  | ret answer =>
      obtain ⟨job, -, -, hphase⟩ := ended_of_ret hcalls hrecord hmarker hrun hthread
      rw [phase_events_of] at hphase
      refine hphase.imp_right (Or.imp_right fun ⟨hreturned, hlate⟩ => ⟨hreturned, ?_⟩)
      obtain ⟨event, hmem, hevent⟩ := List.any_eq_true.mp hlate
      exact List.any_eq_true.mpr ⟨event, (mem_events_of.mp hmem).1, hevent⟩

end Calls

end Runs

end Idempotency

open Idempotency in
-- Submissions under one key make one job, whichever way they interleave: at most one
-- of them enqueues it, those that succeed answer with its id, and once they are all
-- through the tenant has one more slot in use for it. Another principal or another
-- key makes another id.
theorem idempotent_submission [DecidableEq ι] {settings : Settings} {principal : Principal}
    {key : String} {activity : ι → Activity} {platform : Platform (job_queue cfg)}
    {pool : ServicePool ι (job_queue cfg)}
    (hcalls : ∀ thread, ∃ request,
      activity thread = .request principal (.submit request (some key)))
    (hrecord : platform.jobs.get? (idempotent_id settings principal key) = none)
    (hmarker : Backend.known platform.queue (idempotent_id settings principal key) = none)
    (hrun : Run (service_step settings) (fun _ _ => False) Smooth
      (ServicePool.start settings platform activity) pool) :
    (pool.world.trace.filterMap enqueued = [] ∨
      pool.world.trace.filterMap enqueued = [idempotent_id settings principal key]) ∧
    (∀ thread answer, pool.threads thread = .ret answer →
      ∃ job, answer = .body (.job job) ∧ job.job_id = idempotent_id settings principal key) ∧
    ((∀ thread op next, pool.threads thread ≠ .call op next) →
      (pool.world.trace.any obtains = true →
        pool.world.trace.filterMap enqueued = [idempotent_id settings principal key]) ∧
      pool.world.state.slots principal.tenant_id =
        platform.slots principal.tenant_id + (pool.world.trace.filterMap enqueued).length) ∧
    ∀ (texts : Set String) (other : Principal) (key' : String),
      (texts.InjOn fun text => ((settings.sha256 text).take 32).copy) →
      hashed principal key ∈ texts → hashed other key' ∈ texts →
      idempotent_id settings principal key = idempotent_id settings other key' →
      principal.tenant_id = other.tenant_id ∧ principal.principal_id = other.principal_id ∧
        key = key' := by
  obtain ⟨hinv, -⟩ := calls_of_run hcalls hrecord hmarker hrun
  refine ⟨?_, fun thread answer hthread => ?_, fun hstopped => ?_,
    fun texts other key' hinjective => triple_of_id hinjective⟩
  · rw [hinv.roles.jobs]
    split
    · exact .inr rfl
    · exact .inl rfl
  · obtain ⟨job, hanswer, hid, -⟩ := ended_of_ret hcalls hrecord hmarker hrun hthread
    exact ⟨job, hanswer, hid⟩
  · exact hinv.balanced (done_of_stopped hcalls hrecord hmarker hrun hstopped)

namespace Idempotency

def small_key : String := "key-0001"

def keyed_submissions : Fin 2 → Activity := fun _ => .request .small (.submit .small small_key)

-- Both look for the job before either has created it.
def raced_moves : List (Fin 2 × Outcome (job_queue .default)) :=
  turns 0 1000 2 ++ turns 1 1000 7 ++ turns 0 1000 5

def raced_run : ServicePool (Fin 2) (job_queue .default) := small_run keyed_submissions raced_moves

end Idempotency

open Idempotency in
theorem idempotent_submission_raced :
    raced_run.world.trace.filterMap enqueued = [idempotent_id .small .small small_key] ∧
      raced_run.world.state.slots "tenant" = 1 := by
  have hrespects : (ServicePool.start .small (.empty (Backend.memory .empty))
      keyed_submissions).respects (service_perform .small) Smooth raced_moves := by decide +kernel
  have hrun : Run (service_step .small) (fun _ _ => False) Smooth (ServicePool.start .small
      (.empty (Backend.memory .empty)) keyed_submissions) raced_run :=
    Run.start.schedule (fun outcome _ _ _ => ⟨outcome, rfl⟩) raced_moves hrespects
  have hcalls : ∀ thread, ∃ request,
      keyed_submissions thread = .request .small (.submit request (some small_key)) :=
    fun _ => ⟨_, rfl⟩
  obtain ⟨-, -, hdone, -⟩ := idempotent_submission hcalls rfl rfl hrun
  obtain ⟨honce, hslots⟩ := hdone fun thread op next hcall => by
    match thread with
    | 0 => cases hcall
    | 1 => cases hcall
  have hjobs := honce (by decide +kernel)
  refine ⟨hjobs, ?_⟩
  rw [hjobs] at hslots
  exact hslots

end ResearchAgent.Service
