import ResearchAgent.JobQueue.Conservation

namespace ResearchAgent.JobQueue

open Library Conservation

namespace Leases

-- The renewals of one job's heartbeat; it ends when the lease is lost.
def heartbeat (cfg : Config) (envelope : JobEnvelope) : ℕ → QueueProgram Unit
  | 0 => .ret ()
  | beats + 1 => do
      let renewed ← RedisQueue.renew cfg envelope
      if renewed then heartbeat cfg envelope beats else .ret ()

-- One `Worker.run_once` as the queue sees it, with what its processing comes to.
structure Round where
  set_order : SetOrder
  timeout : ℚ
  beats : ℕ
  failure : Option String

-- Claim, heartbeat while the job is processed, then retry if processing failed
-- and ack otherwise.
def run_once (cfg : Config) (round : Round) : QueueProgram Unit := do
  let claimed ← RedisQueue.claim cfg round.set_order round.timeout
  match claimed with
  | none => .ret ()
  | some envelope => do
      heartbeat cfg envelope round.beats
      match round.failure with
      | none => do
          let _ ← RedisQueue.ack envelope
          .ret ()
      | some error => do
          let _ ← RedisQueue.retry cfg envelope error
          .ret ()

-- `Worker.run`: whatever an iteration raises is logged, and the next one begins.
def run (cfg : Config) : List Round → QueueProgram Unit
  | [] => .ret ()
  | round :: rest => do
      (run_once cfg round).attempt fun _ => .ret ()
      run cfg rest

inductive Client where
  | producer (job_id : String) (request : JSONObject) (principal_id tenant_id : String)
  | worker (rounds : List Round)

def Client.program (cfg : Config) : Client → QueueProgram QueueReply
  | .producer job_id request principal_id tenant_id => do
      .ret (.bool (← RedisQueue.enqueue cfg job_id request principal_id tenant_id))
  | .worker rounds => do
      run cfg rounds
      .ret (.bool true)

def start (cfg : Config) {ι : Type} (clients : ι → Client) (now : ℚ≥0) : RedisPool ι :=
  ⟨⟨.empty now, []⟩, fun client => (clients client).program cfg⟩

-- Time passes and no idempotency marker expires, so no job is enqueued twice.
def time_step (redis redis' : Redis) : Prop := clock_step redis redis' ∧ redis.now ≤ redis'.now

variable {ι : Type}

-- What the client's own step makes of the claim it holds: the job, and the end
-- of the lease once the claim has set one.
def held_after (event : RedisEvent ι) (held : Option (String × Option ℚ)) :
    Option (String × Option ℚ) :=
  match event with
  | ⟨_, .brpoplpush _ _, some job_id⟩ => some (job_id, none)
  | ⟨_, .zadd _ job_id lease_until, _⟩ => some (job_id, some lease_until)
  | ⟨_, .eval (.renew _ job_id lease_until), true⟩ => some (job_id, some lease_until)
  | ⟨_, .eval (.ack _ _ _), _⟩ => none
  | ⟨_, .eval (.retry _ _ _ _ _ _), _⟩ => none
  | ⟨_, .eval (.dead _ _ _ _ _), _⟩ => none
  | ⟨_, .lrem _ _, _⟩ => none
  | _ => held

-- The job a recover script moved out of flight.
def recovered_id : RedisEvent ι → Option String
  | ⟨_, .eval (.recover .inflight .leases _ job_id _), true⟩ => some job_id
  | _ => none

-- The job a worker's script for its own claim took effect on.
def acted_id : RedisEvent ι → Option String
  | ⟨_, .eval (.ack _ _ job_id), true⟩ => some job_id
  | ⟨_, .eval (.renew _ job_id _), true⟩ => some job_id
  | ⟨_, .eval (.retry _ _ _ job_id _ _), true⟩ => some job_id
  | ⟨_, .eval (.dead _ _ _ job_id _), true⟩ => some job_id
  | _ => none

-- The job a script took out of flight.
def ended_id : RedisEvent ι → Option String
  | ⟨_, .eval (.recover _ _ _ job_id _), true⟩ => some job_id
  | ⟨_, .eval (.ack _ _ job_id), true⟩ => some job_id
  | ⟨_, .eval (.retry _ _ _ job_id _ _), true⟩ => some job_id
  | ⟨_, .eval (.dead _ _ _ job_id _), true⟩ => some job_id
  | _ => none

def popped_id : RedisEvent ι → Option String
  | ⟨_, .brpoplpush _ _, some job_id⟩ => some job_id
  | _ => none

-- The worker that popped the job, until a script takes the job out of flight.
def claimant (job_id : String) : List (RedisEvent ι) → Option ι
  | [] => none
  | event :: rest =>
      if popped_id event = some job_id then some event.thread
      else if ended_id event = some job_id then none
      else claimant job_id rest

variable {world : RedisWorld ι} {event : RedisEvent ι} {redis : Redis} {job_id : String}

theorem claimant_cons_of_none (hp : popped_id event = none) (he : ended_id event = none)
    (trace : List (RedisEvent ι)) (other : String) :
    claimant other (event :: trace) = claimant other trace := by
  simp [claimant, hp, he]

theorem claimant_cons_of_ended (hp : popped_id event = none) (he : ended_id event = some job_id)
    (trace : List (RedisEvent ι)) (other : String) :
    claimant other (event :: trace) = if other = job_id then none else claimant other trace := by
  simp [claimant, hp, he, eq_comm]

theorem claimant_cons_of_popped (hp : popped_id event = some job_id)
    (he : ended_id event = none) (trace : List (RedisEvent ι)) (other : String) :
    claimant other (event :: trace) =
      if other = job_id then some event.thread else claimant other trace := by
  simp [claimant, hp, he, eq_comm]

-- A job in flight is there once, so erasing it takes it out of flight.
theorem mem_erase_inflight (hc : Conserved world) (hm : job_id ∈ world.state.lists .inflight)
    (other : String) :
    other ∈ (world.state.lists .inflight).erase job_id ↔
      other ≠ job_id ∧ other ∈ world.state.lists .inflight := by
  by_cases ho : other = job_id
  · subst ho
    have hpos := inflight_places hm
    have honce := hc.once other (hc.live_of_places _ (by unfold places; omega))
    have hcount : ((world.state.lists .inflight).erase other).count other = 0 := by
      unfold places at honce
      rw [List.count_erase_self]
      omega
    simpa using List.count_eq_zero.mp hcount
  · simp [ho, List.mem_erase_of_ne ho]

section Held

variable [DecidableEq ι]

-- The claim a client holds by its own account, recovered or not.
def held (client : ι) : List (RedisEvent ι) → Option (String × Option ℚ)
  | [] => none
  | event :: rest =>
      if event.thread = client then held_after event (held client rest) else held client rest

theorem held_own (event : RedisEvent ι) (trace : List (RedisEvent ι)) :
    held event.thread (event :: trace) = held_after event (held event.thread trace) := by
  simp [held]

-- What the client holds once its own operation is done.
theorem held_call {client : ι} {command : Command} {reply : command.Reply}
    {trace : List (RedisEvent ι)} {holds : Option (String × Option ℚ)}
    (h : held client trace = holds) :
    held client (⟨client, command, reply⟩ :: trace) =
      held_after ⟨client, command, reply⟩ holds := by
  rw [← h]
  exact held_own ⟨client, command, reply⟩ trace

theorem held_other {client : ι} {event : RedisEvent ι} (h : client ≠ event.thread)
    (trace : List (RedisEvent ι)) : held client (event :: trace) = held client trace := by
  simp [held, Ne.symm h]

-- A claim is over once its lease is; before the lease is set it is not.
def Expired (now : ℚ≥0) (lease : Option ℚ) : Prop := ∃ lease_until ∈ lease, lease_until ≤ now

instance (now : ℚ≥0) (lease : Option ℚ) : Decidable (Expired now lease) :=
  inferInstanceAs (Decidable (∃ lease_until ∈ lease, _))

-- When a recover script takes a job away, the leases set still has it expired.
def RecoversExpired (world : RedisWorld ι) (event : RedisEvent ι) : Prop :=
  ∀ job_id ∈ recovered_id event,
    Expired world.state.now ((world.state.zsets .leases).get? job_id)

-- A worker acts on a job only while its own claim of the job is current.
def ActsOnOwnClaim (world : RedisWorld ι) (event : RedisEvent ι) : Prop :=
  ∀ job_id ∈ acted_id event, claimant job_id world.trace = some event.thread

instance (world : RedisWorld ι) (event : RedisEvent ι) :
    Decidable (RecoversExpired world event) :=
  inferInstanceAs (Decidable (∀ job_id ∈ recovered_id event, Expired _ _))

instance (world : RedisWorld ι) (event : RedisEvent ι) :
    Decidable (ActsOnOwnClaim world event) :=
  inferInstanceAs (Decidable (∀ job_id ∈ acted_id event, _ = _))

def ExpiredClaim (client : ι) (job_id : String) (world : RedisWorld ι) : Prop :=
  ∃ claim ∈ held client world.trace, claim.1 = job_id ∧ Expired world.state.now claim.2

def UnexpiredClaim (client : ι) (job_id : String) (world : RedisWorld ι) : Prop :=
  ∃ claim ∈ held client world.trace, claim.1 = job_id ∧ ¬Expired world.state.now claim.2

-- When a recover script takes a job away, the claim of the worker that popped
-- it has expired.
def TakesDeadClaim (world : RedisWorld ι) (event : RedisEvent ι) : Prop :=
  ∀ job_id ∈ recovered_id event, ∃ owner ∈ claimant job_id world.trace,
    ExpiredClaim owner job_id world

instance (client : ι) (job_id : String) (world : RedisWorld ι) :
    Decidable (ExpiredClaim client job_id world) :=
  inferInstanceAs (Decidable (∃ claim ∈ held client world.trace, _ = _ ∧ Expired _ _))

instance (client : ι) (job_id : String) (world : RedisWorld ι) :
    Decidable (UnexpiredClaim client job_id world) :=
  inferInstanceAs (Decidable (∃ claim ∈ held client world.trace, _ = _ ∧ ¬Expired _ _))

instance (world : RedisWorld ι) (event : RedisEvent ι) :
    Decidable (TakesDeadClaim world event) :=
  inferInstanceAs (Decidable (∀ job_id ∈ recovered_id event, ∃ owner ∈ claimant _ _,
    ExpiredClaim _ _ _))

structure Leased (world : RedisWorld ι) : Prop where
  conserved : Conserved world
  inflight : ∀ job_id,
    job_id ∈ world.state.lists .inflight ↔ (claimant job_id world.trace).isSome
  lease : ∀ job_id client, claimant job_id world.trace = some client →
    held client world.trace = some (job_id, (world.state.zsets .leases).get? job_id)
  no_lease : ∀ job_id, claimant job_id world.trace = none →
    (world.state.zsets .leases).get? job_id = none
  superseded : ∀ job_id client lease, held client world.trace = some (job_id, lease) →
    claimant job_id world.trace ≠ some client → Expired world.state.now lease

-- Nobody's claim changes and no lease does.
theorem Leased.quiet (hl : Leased world) (hc : Conserved (world.after event redis))
    (hp : popped_id event = none) (he : ended_id event = none)
    (hheld : ∀ held, held_after event held = held) (hnow : redis.now = world.state.now)
    (hinflight : redis.lists .inflight = world.state.lists .inflight)
    (hleases : redis.zsets .leases = world.state.zsets .leases) :
    Leased (world.after event redis) := by
  have hclaimant := claimant_cons_of_none hp he world.trace
  have hh : ∀ client, held client (event :: world.trace) = held client world.trace := by
    intro client
    by_cases h : client = event.thread
    · subst h
      rw [held_own, hheld]
    · exact held_other h _
  refine ⟨hc, ?_, ?_, ?_, ?_⟩ <;>
    simp only [World.after_trace, World.after_state, hclaimant, hh, hinflight, hleases, hnow]
  · exact hl.inflight
  · exact hl.lease
  · exact hl.no_lease
  · exact hl.superseded

-- A client gives up a claim that is no longer current.
theorem Leased.dropped (hl : Leased world) (hc : Conserved (world.after event redis))
    (hp : popped_id event = none) (he : ended_id event = none)
    (hheld : ∀ held, held_after event held = none) (hnow : redis.now = world.state.now)
    (hinflight : redis.lists .inflight = world.state.lists .inflight)
    (hleases : redis.zsets .leases = world.state.zsets .leases)
    (hnot : ∀ other, claimant other world.trace ≠ some event.thread) :
    Leased (world.after event redis) := by
  have hclaimant := claimant_cons_of_none hp he world.trace
  refine ⟨hc, ?_, ?_, ?_, ?_⟩ <;>
    simp only [World.after_trace, World.after_state, hclaimant, hinflight, hleases, hnow]
  · exact hl.inflight
  · intro other client h
    have hne : client ≠ event.thread := fun heq => hnot other (heq ▸ h)
    rw [held_other hne]
    exact hl.lease other client h
  · exact hl.no_lease
  · intro other client lease h
    by_cases hne : client = event.thread
    · subst hne
      rw [held_own, hheld] at h
      cases h
    · rw [held_other hne] at h
      exact hl.superseded other client lease h

-- The current claimant sets or moves the end of its lease.
theorem Leased.extended (hl : Leased world) (hc : Conserved (world.after event redis))
    {lease_until : ℚ} (hp : popped_id event = none) (he : ended_id event = none)
    (hheld : ∀ held, held_after event held = some (job_id, some lease_until))
    (hnow : redis.now = world.state.now)
    (hinflight : redis.lists .inflight = world.state.lists .inflight)
    (hleases : redis.zsets .leases = (world.state.zsets .leases).set job_id lease_until)
    (hcur : claimant job_id world.trace = some event.thread) :
    Leased (world.after event redis) := by
  have hclaimant := claimant_cons_of_none hp he world.trace
  refine ⟨hc, ?_, ?_, ?_, ?_⟩ <;>
    simp only [World.after_trace, World.after_state, hclaimant, hinflight, hleases, hnow,
      Dict.get?_set]
  · exact hl.inflight
  · intro other client h
    have hother := hl.lease other client h
    by_cases hne : client = event.thread
    · subst hne
      rw [hl.lease job_id _ hcur] at hother
      obtain rfl : job_id = other := congrArg Prod.fst (Option.some.inj hother)
      rw [held_own, hheld, if_pos rfl]
    · have ho : other ≠ job_id := by
        rintro rfl
        rw [hcur] at h
        exact hne (Option.some.inj h).symm
      rw [held_other hne, hother, if_neg ho]
  · intro other h
    have ho : other ≠ job_id := by
      rintro rfl
      rw [hcur] at h
      cases h
    rw [if_neg ho]
    exact hl.no_lease other h
  · intro other client lease h hother
    by_cases hne : client = event.thread
    · subst hne
      rw [held_own, hheld] at h
      obtain rfl : job_id = other := congrArg Prod.fst (Option.some.inj h)
      exact absurd hcur hother
    · rw [held_other hne] at h
      exact hl.superseded other client lease h hother

-- A script takes the job out of flight: its claim is over, by expiry or by the
-- claimant's own doing.
theorem Leased.ended (hl : Leased world) (hc : Conserved (world.after event redis))
    (hp : popped_id event = none) (he : ended_id event = some job_id)
    (hm : job_id ∈ world.state.lists .inflight)
    (hheld : (∀ held, held_after event held = held) ∧
        Expired world.state.now ((world.state.zsets .leases).get? job_id) ∨
      (∀ held, held_after event held = none) ∧ claimant job_id world.trace = some event.thread)
    (hnow : redis.now = world.state.now)
    (hinflight : redis.lists .inflight = (world.state.lists .inflight).erase job_id)
    (hleases : redis.zsets .leases = (world.state.zsets .leases).erase job_id) :
    Leased (world.after event redis) := by
  have hclaimant := claimant_cons_of_ended hp he world.trace
  refine ⟨hc, ?_, ?_, ?_, ?_⟩ <;>
    simp only [World.after_trace, World.after_state, hclaimant, hinflight, hleases, hnow,
      Dict.get?_erase, mem_erase_inflight hl.conserved hm]
  · intro other
    by_cases ho : other = job_id
    · simp [ho]
    · simpa [ho] using hl.inflight other
  · intro other client h
    by_cases ho : other = job_id
    · simp [ho] at h
    · simp only [ho, ite_false] at h ⊢
      have hother := hl.lease other client h
      by_cases hne : client = event.thread
      · subst hne
        rcases hheld with ⟨hheld, -⟩ | ⟨-, hcur⟩
        · rw [held_own, hheld, hother]
        · rw [hl.lease job_id _ hcur] at hother
          exact absurd (congrArg Prod.fst (Option.some.inj hother)).symm ho
      · rw [held_other hne, hother]
  · intro other h
    by_cases ho : other = job_id
    · simp [ho]
    · simp only [ho, ite_false] at h ⊢
      exact hl.no_lease other h
  · intro other client lease h hother
    have hwas : held client world.trace = some (other, lease) := by
      by_cases hne : client = event.thread
      · subst hne
        rcases hheld with ⟨hheld, -⟩ | ⟨hheld, -⟩
        · rwa [held_own, hheld] at h
        · rw [held_own, hheld] at h
          cases h
      · rwa [held_other hne] at h
    by_cases hcur : claimant other world.trace = some client
    · have ho : other = job_id := by
        by_contra ho
        simp only [ho, ite_false] at hother
        exact hother hcur
      subst ho
      rcases hheld with ⟨-, hexpired⟩ | ⟨hheld, hcur'⟩
      · rw [hl.lease other client hcur] at hwas
        obtain rfl : _ = lease := congrArg Prod.snd (Option.some.inj hwas)
        exact hexpired
      · rw [hcur'] at hcur
        obtain rfl := Option.some.inj hcur
        rw [held_own, hheld] at h
        cases h
    · exact hl.superseded other client lease hwas hcur

-- A worker without a claim pops a job that nobody holds a running claim on.
theorem Leased.popped (hl : Leased world) (hc : Conserved (world.after event redis))
    (hp : popped_id event = some job_id) (he : ended_id event = none)
    (hheld : ∀ held, held_after event held = some (job_id, none))
    (hnone : held event.thread world.trace = none)
    (hm : job_id ∈ world.state.lists .ready)
    (hnow : redis.now = world.state.now)
    (hinflight : redis.lists .inflight = job_id :: world.state.lists .inflight)
    (hleases : redis.zsets .leases = world.state.zsets .leases) :
    Leased (world.after event redis) := by
  have hclaimant := claimant_cons_of_popped hp he world.trace
  have hfree : claimant job_id world.trace = none := by
    have hpos := List.count_pos_iff.mpr hm
    have honce := hl.conserved.once job_id
      (hl.conserved.live_of_places job_id (by unfold places; omega))
    have hnot : job_id ∉ world.state.lists .inflight := by
      intro hi
      have := inflight_places hi
      unfold places at honce
      omega
    rwa [hl.inflight, Option.not_isSome_iff_eq_none] at hnot
  have hidle : ∀ other, claimant other world.trace ≠ some event.thread := by
    intro other h
    rw [hl.lease other _ h] at hnone
    cases hnone
  refine ⟨hc, ?_, ?_, ?_, ?_⟩ <;>
    simp only [World.after_trace, World.after_state, hclaimant, hinflight, hleases, hnow,
      List.mem_cons]
  · intro other
    by_cases ho : other = job_id
    · simp [ho]
    · simpa [ho] using hl.inflight other
  · intro other client h
    by_cases ho : other = job_id
    · subst ho
      rw [if_pos rfl] at h
      obtain rfl := Option.some.inj h
      rw [held_own, hheld, hl.no_lease other hfree]
    · rw [if_neg ho] at h
      rw [held_other (fun heq => hidle other (heq ▸ h)), hl.lease other client h]
  · intro other h
    by_cases ho : other = job_id
    · rw [if_pos ho] at h
      cases h
    · rw [if_neg ho] at h
      exact hl.no_lease other h
  · intro other client lease h hother
    by_cases hne : client = event.thread
    · subst hne
      rw [held_own, hheld] at h
      obtain rfl : job_id = other := congrArg Prod.fst (Option.some.inj h)
      exact absurd (if_pos rfl) hother
    · rw [held_other hne] at h
      refine hl.superseded other client lease h fun hcur => ?_
      by_cases ho : other = job_id
      · subst ho
        rw [hfree] at hcur
        cases hcur
      · rw [if_neg ho] at hother
        exact hother hcur

-- What a client may send, given the claim it holds by its own account.
inductive Permitted (client : ι) (trace : List (RedisEvent ι)) : Command → Prop
  | bystander {command : Command} (h : Bystander command) : Permitted client trace command
  | brpoplpush (h : held client trace = none) :
      Permitted client trace (.brpoplpush .ready .inflight)
  | hset {job_id : String} {encoded : JSONValue} (he : WellEncoded job_id encoded) :
      Permitted client trace (.hset job_id encoded)
  | zadd {job_id : String} {score : ℚ} (h : held client trace = some (job_id, none)) :
      Permitted client trace (.zadd .leases job_id score)
  | renew {job_id : String} {lease : Option ℚ} {lease_until : ℚ}
      (h : held client trace = some (job_id, lease)) :
      Permitted client trace (.eval (.renew .leases job_id lease_until))
  | ack {job_id : String} {lease : Option ℚ} (h : held client trace = some (job_id, lease)) :
      Permitted client trace (.eval (.ack .inflight .leases job_id))
  | retry {job_id : String} {lease : Option ℚ} {encoded : JSONValue} {retry_at : ℚ}
      (h : held client trace = some (job_id, lease)) (he : WellEncoded job_id encoded) :
      Permitted client trace (.eval (.retry .inflight .leases .scheduled job_id encoded retry_at))
  | dead {job_id : String} {lease : Option ℚ} {encoded : JSONValue}
      (h : held client trace = some (job_id, lease)) (he : WellEncoded job_id encoded) :
      Permitted client trace (.eval (.dead .inflight .leases .dead job_id encoded))
  | lrem {job_id : String} (hr : Removed trace job_id)
      (h : held client trace = some (job_id, none)) :
      Permitted client trace (.lrem .inflight job_id)

theorem Permitted.conservation {client : ι} {trace : List (RedisEvent ι)} {command : Command}
    (h : Permitted client trace command) : Conservation.Permitted trace command := by
  cases h with
  | bystander h => exact .routine (.bystander h)
  | brpoplpush => exact .routine .brpoplpush
  | hset he => exact .routine (.hset he)
  | zadd => exact .routine .zadd
  | renew => exact .routine .renew
  | ack => exact .routine .ack
  | retry _ he => exact .routine (.retry he)
  | dead _ he => exact .routine (.dead he)
  | lrem hr => exact .lrem hr

-- The condition on one step: it recovers no job but on an expired lease, and
-- acts for no claim but the sender's own.
def Fenced (world : RedisWorld ι) (event : RedisEvent ι) : Prop :=
  RecoversExpired world event ∧ ActsOnOwnClaim world event

instance (world : RedisWorld ι) (event : RedisEvent ι) : Decidable (Fenced world event) :=
  inferInstanceAs (Decidable (_ ∧ _))

variable {thread : ι}

theorem claimant_ne_of_held (hl : Leased world) {lease : Option ℚ}
    (hheld : held thread world.trace = some (job_id, lease))
    (hm : job_id ∉ world.state.lists .inflight) (other : String) :
    claimant other world.trace ≠ some thread := by
  intro h
  have hother := hl.lease other thread h
  rw [hheld] at hother
  obtain rfl : job_id = other := congrArg Prod.fst (Option.some.inj hother)
  exact hm ((hl.inflight job_id).mpr (by simp [h]))

theorem Leased.bystander (hl : Leased world) {command : Command} {reply : command.Reply}
    (hp : Bystander command) (hs : redis_step thread world.state command reply redis)
    (hf : Fenced world ⟨thread, command, reply⟩) :
    Leased (world.after ⟨thread, command, reply⟩ redis) := by
  have hc := hl.conserved.bystander hp hs
  unfold redis_step at hs
  cases hp with
  | clock | hget | lrange | llen | zscore | zrangebyscore =>
      cases hs
      exact hl.quiet hc rfl rfl (fun _ => rfl) rfl rfl rfl
  | enqueue =>
      simp only [Redis.exec, Script.run] at hs
      split at hs <;> cases hs <;> exact hl.quiet hc rfl rfl (fun _ => rfl) rfl rfl rfl
  | @recover destination job_id encoded he hd =>
      simp only [Redis.exec, Script.run] at hs
      by_cases hm : job_id ∈ world.state.lists .inflight
      · rw [if_pos hm] at hs
        cases hs
        exact hl.ended hc rfl rfl hm (.inl ⟨fun _ => rfl, hf.1 _ rfl⟩) rfl (by simp [hd.symm])
          (by simp)
      · rw [if_neg hm] at hs
        cases hs
        exact hl.quiet hc rfl rfl (fun _ => rfl) rfl rfl rfl
  | promote =>
      simp only [Redis.exec, Script.run] at hs
      split at hs <;> cases hs <;>
        exact hl.quiet hc rfl rfl (fun _ => rfl) rfl (by simp) (by simp)
  | remove_dead =>
      simp only [Redis.exec, Script.run] at hs
      split at hs <;> cases hs <;>
        exact hl.quiet hc rfl rfl (fun _ => rfl) rfl (by simp) (by simp)

-- The step lemma.
theorem Leased.step (hl : Leased world) {command : Command} {reply : command.Reply}
    (hp : Permitted thread world.trace command)
    (hs : redis_step thread world.state command reply redis)
    (hf : Fenced world ⟨thread, command, reply⟩) :
    Leased (world.after ⟨thread, command, reply⟩ redis) := by
  have hc := hl.conserved.step hp.conservation hs
  unfold redis_step at hs
  cases hp with
  | bystander h => exact hl.bystander h hs hf
  | brpoplpush hnone =>
      simp only [Redis.exec] at hs
      split at hs
      · cases hs
        exact hl.quiet hc rfl rfl (fun _ => rfl) rfl rfl rfl
      · next job_id hlast =>
          cases hs
          exact hl.popped hc rfl rfl (fun _ => rfl) hnone (List.mem_of_getLast? hlast) rfl
            (by simp) rfl
  | hset =>
      cases hs
      exact hl.quiet hc rfl rfl (fun _ => rfl) rfl rfl rfl
  | @zadd job_id score hheld =>
      cases hs
      -- A claim without a lease cannot be superseded, so it is still current.
      have hcur : claimant job_id world.trace = some thread := by
        by_contra hcur
        obtain ⟨_, hnone, _⟩ := hl.superseded job_id thread none hheld hcur
        cases hnone
      exact hl.extended hc rfl rfl (fun _ => rfl) rfl rfl (by simp) hcur
  | @renew job_id lease lease_until hheld =>
      simp only [Redis.exec, Script.run] at hs
      split at hs
      · cases hs
        exact hl.extended hc rfl rfl (fun _ => rfl) rfl rfl (by simp) (hf.2 _ rfl)
      · cases hs
        exact hl.quiet hc rfl rfl (fun _ => rfl) rfl rfl rfl
  | @ack job_id lease hheld =>
      simp only [Redis.exec, Script.run] at hs
      by_cases hm : job_id ∈ world.state.lists .inflight
      · rw [if_pos hm] at hs
        cases hs
        exact hl.ended hc rfl rfl hm (.inr ⟨fun _ => rfl, hf.2 _ rfl⟩) rfl (by simp) (by simp)
      · rw [if_neg hm] at hs
        cases hs
        exact hl.dropped hc rfl rfl (fun _ => rfl) rfl rfl rfl (claimant_ne_of_held hl hheld hm)
  | @retry job_id lease encoded retry_at hheld he =>
      simp only [Redis.exec, Script.run] at hs
      by_cases hm : job_id ∈ world.state.lists .inflight
      · rw [if_pos hm] at hs
        cases hs
        exact hl.ended hc rfl rfl hm (.inr ⟨fun _ => rfl, hf.2 _ rfl⟩) rfl (by simp) (by simp)
      · rw [if_neg hm] at hs
        cases hs
        exact hl.dropped hc rfl rfl (fun _ => rfl) rfl rfl rfl (claimant_ne_of_held hl hheld hm)
  | @dead job_id lease encoded hheld he =>
      simp only [Redis.exec, Script.run] at hs
      by_cases hm : job_id ∈ world.state.lists .inflight
      · rw [if_pos hm] at hs
        cases hs
        exact hl.ended hc rfl rfl hm (.inr ⟨fun _ => rfl, hf.2 _ rfl⟩) rfl (by simp) (by simp)
      · rw [if_neg hm] at hs
        cases hs
        exact hl.dropped hc rfl rfl (fun _ => rfl) rfl rfl rfl (claimant_ne_of_held hl hheld hm)
  | @lrem job_id hr hheld =>
      cases hs
      have hzero := hl.conserved.nowhere job_id (fun hlive => hlive.2 hr)
      have hm : job_id ∉ world.state.lists .inflight := by
        intro hm
        have hpos := inflight_places hm
        unfold places at hzero
        omega
      exact hl.dropped hc rfl rfl (fun _ => rfl) rfl (by simp [List.erase_of_not_mem hm]) rfl
        (claimant_ne_of_held hl hheld hm)

section Programs

-- Nobody but the client changes what it holds, and events are never taken back.
def discipline (ι : Type) [DecidableEq ι] : Discipline ι Command Command.Reply Redis where
  exec := redis_step
  assumes := Fenced
  inv := Leased
  rely client world world' :=
    world.trace ⊆ world'.trace ∧ held client world'.trace = held client world.trace
  rely_refl _ _ := ⟨List.Subset.refl _, rfl⟩
  rely_trans _ _ _ _ h h' := ⟨List.Subset.trans h.1 h'.1, h'.2.trans h.2⟩

variable {α β : Type} {post : Except QueueError α → RedisWorld ι → Prop}

theorem wp_call {command : Command} {next : command.Reply → QueueProgram α}
    (h : ∀ (w : RedisWorld ι) reply redis, world.trace ⊆ w.trace →
      held thread w.trace = held thread world.trace → Leased w →
      redis_step thread w.state command reply redis →
      Permitted thread w.trace command ∧
        (discipline ι).wp thread post (next reply) (w.after ⟨thread, command, reply⟩ redis)) :
    (discipline ι).wp thread post (.call command next) world := by
  rintro w ⟨hw, hheld⟩ hl reply redis ⟨hs, hf⟩
  obtain ⟨hp, hnext⟩ := h w reply redis hw hheld hl hs
  refine ⟨hl.step hp hs hf, fun other ho => ⟨List.subset_cons_self _ _, ?_⟩, hnext⟩
  exact held_other ho _

omit [DecidableEq ι] in
theorem held_after_bystander {event : RedisEvent ι} (h : Bystander event.op)
    (holds : Option (String × Option ℚ)) : held_after event holds = holds := by
  rcases event with ⟨client, command, reply⟩
  cases h <;> rfl

-- Commands for no particular claim leave the client with the claim it has.
theorem wp_bystander {program : QueueProgram α} (huses : program.uses Bystander)
    {holds : Option (String × Option ℚ)} (hheld : held thread world.trace = holds) :
    (discipline ι).wp thread (fun _ w => held thread w.trace = holds) program world := by
  refine Discipline.wp_of_uses (fun hrely h => hrely.2.trans h) ?_ huses hheld
  rintro w command reply redis hp hl hheld ⟨hs, hf⟩
  refine ⟨hl.step (.bystander hp) hs hf, fun other ho => ?_, ?_⟩
  · exact ⟨List.subset_cons_self _ _, held_other ho _⟩
  · exact (held_call hheld).trans (held_after_bystander hp _)

theorem wp_ret {value : α} (h : ∀ w : RedisWorld ι,
    held thread w.trace = held thread world.trace → post (.ok value) w) :
    (discipline ι).wp thread post (.ret value) world :=
  fun w hrely _ => h w hrely.2

theorem wp_raise {error : QueueError} (h : ∀ w : RedisWorld ι,
    held thread w.trace = held thread world.trace → post (.error error) w) :
    (discipline ι).wp thread post (.raise error) world :=
  fun w hrely _ => h w hrely.2

-- The client holds the claim the envelope was handed out with.
def Holds (client : ι) (envelope : JobEnvelope) (world : RedisWorld ι) : Prop :=
  ∃ lease, held client world.trace = some (envelope.job_id, lease)

def Idle (client : ι) (world : RedisWorld ι) : Prop := held client world.trace = none

-- After `claim`: the claim of the envelope that was returned, else none.
def Claimed (client : ι) : Except QueueError (Option JobEnvelope) → RedisWorld ι → Prop
  | .ok (some envelope), world => Holds client envelope world
  | .ok none, world => Idle client world
  | .error _, world => Idle client world

variable (cfg : Config)

theorem set_lease_wp {envelope : JobEnvelope}
    (hheld : held thread world.trace = some (envelope.job_id, none)) :
    (discipline ι).wp thread (Claimed thread)
      (RedisQueue.set_lease cfg envelope.job_id envelope) world := by
  refine wp_call fun a _ _ _ ha _ _ => ⟨.hset ⟨_, rfl, rfl⟩, ?_⟩
  refine wp_call fun b now _ _ hb _ _ => ⟨.bystander .clock, ?_⟩
  have hheld' := hb.trans (held_call (ha.trans hheld))
  refine wp_call fun c _ _ _ hc _ _ => ⟨.zadd (hc.trans (held_call hheld')), ?_⟩
  exact wp_ret fun w hw => ⟨_, hw.trans (held_call rfl)⟩

theorem lease_claimed_wp {job_id : String} (he : Enqueued world.trace job_id)
    (hheld : held thread world.trace = some (job_id, none)) :
    (discipline ι).wp thread (Claimed thread) (RedisQueue.lease_claimed cfg job_id) world := by
  refine wp_call fun a raw redis hsub ha hl hs => ⟨.bystander .hget, ?_⟩
  have hown : held thread (a.after ⟨thread, .hget job_id, raw⟩ redis).trace =
      some (job_id, none) := held_call (ha.trans hheld)
  cases hs
  revert hown
  cases hraw : a.state.envelopes.get? job_id with
  | none =>
      intro hown
      have hr : Removed a.trace job_id := by
        by_contra hn
        simpa [hraw] using hl.conserved.present job_id ⟨he.mono hsub, hn⟩
      refine wp_call fun b _ _ hsub' hb _ _ =>
        ⟨.lrem (hr.mono fun e hm => hsub' (List.mem_cons_of_mem _ hm)) (hb.trans hown), ?_⟩
      exact wp_raise fun w hw => hw.trans (held_call rfl)
  | some raw =>
      intro hown
      obtain ⟨envelope, rfl, rfl⟩ := hl.conserved.encoded job_id raw hraw
      change (discipline ι).wp thread _
        (RedisQueue.decode _ envelope.to_json >>= RedisQueue.set_lease cfg envelope.job_id) _
      rw [RedisQueue.decode_to_json, Program.ret_bind]
      exact set_lease_wp cfg hown

theorem claim_wp (set_order : SetOrder) (timeout : ℚ) (hidle : Idle thread world) :
    (discipline ι).wp thread (Claimed thread) (RedisQueue.claim cfg set_order timeout) world := by
  unfold RedisQueue.claim
  split
  · exact wp_raise fun w hw => hw.trans hidle
  refine Discipline.wp_bind (Discipline.wp_mono ?_
    (wp_bystander (RedisQueue.recover_stale_uses cfg set_order) hidle))
  rintro (error | _) a ha
  · exact ha
  refine Discipline.wp_bind (Discipline.wp_mono ?_
    (wp_bystander RedisQueue.promote_due_uses ha))
  rintro (error | _) b hb
  · exact hb
  refine wp_call fun c raw_id redis _ hc hl hs => ⟨.brpoplpush (hc.trans hb), ?_⟩
  cases raw_id with
  | none => exact wp_ret fun w hw => hw.trans (held_call (hc.trans hb))
  | some job_id =>
      refine lease_claimed_wp cfg ?_ (held_call rfl)
      simp only [redis_step, Redis.exec] at hs
      split at hs
      · cases hs
      · next last hlast =>
          cases hs
          have hpos := List.count_pos_iff.mpr (List.mem_of_getLast? hlast)
          have hlive : Live c.trace job_id := hl.conserved.live_of_places job_id
            (by unfold places; omega)
          exact hlive.1.mono (List.subset_cons_self _ _)

theorem Holds.rely {envelope : JobEnvelope} {w w' : RedisWorld ι}
    (h : held thread w'.trace = held thread w.trace) (hh : Holds thread envelope w) :
    Holds thread envelope w' := by
  obtain ⟨lease, hlease⟩ := hh
  exact ⟨lease, h.trans hlease⟩

-- The heartbeat leaves the claim with the client and raises nothing.
def StillHolds (client : ι) (envelope : JobEnvelope) :
    Except QueueError Unit → RedisWorld ι → Prop
  | .ok (), world => Holds client envelope world
  | .error _, _ => False

theorem heartbeat_wp {envelope : JobEnvelope} (beats : ℕ) (hh : Holds thread envelope world) :
    (discipline ι).wp thread (StillHolds thread envelope) (heartbeat cfg envelope beats)
      world := by
  induction beats generalizing world with
  | zero => exact wp_ret fun w hw => hh.rely hw
  | succ beats ih =>
      refine wp_call fun a _ _ _ ha _ _ => ⟨.bystander .clock, ?_⟩
      refine wp_call fun b renewed _ _ hb _ _ => ?_
      obtain ⟨lease, hlease⟩ := hh
      have hown := hb.trans (held_call (ha.trans hlease))
      refine ⟨.renew hown, ?_⟩
      cases renewed with
      | true => exact ih ⟨_, held_call rfl⟩
      | false => exact wp_ret fun w hw => ⟨lease, hw.trans (held_call hown)⟩

theorem ack_wp {envelope : JobEnvelope} (hh : Holds thread envelope world) :
    (discipline ι).wp thread (fun _ => Idle thread) (RedisQueue.ack envelope) world := by
  obtain ⟨lease, hlease⟩ := hh
  refine wp_call fun a acknowledged _ _ ha _ _ => ⟨.ack (ha.trans hlease), ?_⟩
  exact wp_ret fun w hw => hw.trans (held_call rfl)

theorem retry_wp {envelope : JobEnvelope} (error : String) (hh : Holds thread envelope world) :
    (discipline ι).wp thread (fun _ => Idle thread) (RedisQueue.retry cfg envelope error)
      world := by
  obtain ⟨lease, hlease⟩ := hh
  unfold RedisQueue.retry
  split
  · refine wp_call fun a moved _ _ ha _ _ => ⟨.dead (ha.trans hlease) ⟨_, rfl, rfl⟩, ?_⟩
    cases moved with
    | true => exact wp_ret fun w hw => hw.trans (held_call rfl)
    | false => exact wp_raise fun w hw => hw.trans (held_call rfl)
  · refine wp_call fun a _ _ _ ha _ _ => ⟨.bystander .clock, ?_⟩
    refine wp_call fun b moved _ _ hb _ _ =>
      ⟨.retry (hb.trans (held_call (ha.trans hlease))) ⟨_, rfl, rfl⟩, ?_⟩
    cases moved with
    | true => exact wp_ret fun w hw => hw.trans (held_call rfl)
    | false => exact wp_raise fun w hw => hw.trans (held_call rfl)

theorem run_once_wp (round : Round) (hidle : Idle thread world) :
    (discipline ι).wp thread (fun _ => Idle thread) (run_once cfg round) world := by
  refine Discipline.wp_bind (Discipline.wp_mono ?_
    (claim_wp cfg round.set_order round.timeout hidle))
  rintro (error | _ | envelope) a ha
  · exact ha
  · exact wp_ret fun w hw => hw.trans ha
  refine Discipline.wp_bind (Discipline.wp_mono ?_ (heartbeat_wp cfg round.beats ha))
  rintro (error | _) b hb
  · cases hb
  cases round.failure with
  | none =>
      refine Discipline.wp_bind (Discipline.wp_mono ?_ (ack_wp hb))
      rintro (error | _) c hc
      · exact hc
      · exact wp_ret fun w hw => hw.trans hc
  | some error =>
      refine Discipline.wp_bind (Discipline.wp_mono ?_ (retry_wp cfg error hb))
      rintro (error | _) c hc
      · exact hc
      · exact wp_ret fun w hw => hw.trans hc

theorem run_wp (rounds : List Round) (hidle : Idle thread world) :
    (discipline ι).wp thread (fun _ => Idle thread) (run cfg rounds) world := by
  induction rounds generalizing world with
  | nil => exact wp_ret fun w hw => hw.trans hidle
  | cons round rest ih =>
      refine Discipline.wp_bind (Discipline.wp_attempt (Discipline.wp_mono ?_
        (run_once_wp cfg round hidle)))
      rintro (error | _) a ha
      · exact wp_ret fun w hw => ih (hw.trans ha)
      · exact ih ha

theorem client_wp (client : Client) (hidle : Idle thread world) :
    (discipline ι).wp thread (fun _ => Idle thread) (client.program cfg) world := by
  cases client with
  | producer job_id request principal_id tenant_id =>
      refine Discipline.wp_bind (Discipline.wp_mono ?_
        (wp_bystander (RedisQueue.enqueue_uses cfg job_id request _ _) hidle))
      rintro (error | _) a ha
      · exact ha
      · exact wp_ret fun w hw => hw.trans ha
  | worker rounds =>
      refine Discipline.wp_bind (Discipline.wp_mono ?_ (run_wp cfg rounds hidle))
      rintro (error | _) a ha
      · exact ha
      · exact wp_ret fun w hw => hw.trans ha

end Programs

section Runs

theorem leased_start (now : ℚ≥0) : Leased (⟨.empty now, []⟩ : RedisWorld ι) where
  conserved := conserved_start now
  inflight := by simp [Redis.empty, claimant]
  lease := by simp [claimant]
  no_lease := by simp [Redis.empty]
  superseded := by simp [held]

theorem Leased.time_step (hl : Leased world) (h : time_step world.state redis) :
    Leased ⟨redis, world.trace⟩ := by
  obtain ⟨hclock, hle⟩ := h
  have hc := hl.conserved.clock_step hclock
  obtain ⟨now, rfl, -⟩ := hclock
  refine ⟨hc, hl.inflight, hl.lease, hl.no_lease, ?_⟩
  intro job_id client lease hheld hcur
  obtain ⟨lease_until, hmem, hexpired⟩ := hl.superseded job_id client lease hheld hcur
  exact ⟨lease_until, hmem, hexpired.trans (by exact_mod_cast hle)⟩

-- Runs every step of which meets the condition.
def EveryStep (condition : RedisWorld ι → RedisEvent ι → Prop) (pool : RedisPool ι) :
    Option (RedisEvent ι) → Prop
  | none => True
  | some event => condition pool.world event

instance (condition : RedisWorld ι → RedisEvent ι → Prop)
    [∀ world event, Decidable (condition world event)] (pool : RedisPool ι) :
    (event : Option (RedisEvent ι)) → Decidable (EveryStep condition pool event)
  | none => .isTrue trivial
  | some event => inferInstanceAs (Decidable (condition pool.world event))

theorem leased_of_run {cfg : Config} {clients : ι → Client} {now : ℚ≥0} {pool : RedisPool ι}
    (hrun : Run redis_step Leases.time_step (EveryStep Fenced) (start cfg clients now) pool) :
    Leased pool.world := by
  refine ((discipline ι).sound (fun thread _ => Idle thread) ?_ ?_ ?_ (fun h => h) hrun).1
  · exact leased_start now
  · exact fun client => client_wp cfg (clients client) rfl
  · exact fun hl h => ⟨hl.time_step h, fun _ => ⟨List.Subset.refl _, rfl⟩⟩

theorem inflight_of_recovered {pool pool' : RedisPool ι}
    (hstep : Step redis_step Leases.time_step pool (some event) pool')
    (hid : recovered_id event = some job_id) : job_id ∈ pool.world.state.lists .inflight := by
  cases hstep with
  | call hthread hexec =>
      unfold recovered_id at hid
      split at hid
      · next heq =>
          cases heq
          cases hid
          by_contra hm
          simp [redis_step, Redis.exec, Script.run, hm] at hexec
      · cases hid

end Runs

end Held

end Leases

open Leases

-- As long as no recover script runs on a lease that is not over, each takes a
-- dead claim, and no two workers have running claims on one job. The first
-- script that does run on such a lease takes a live claim.
theorem recovery_takes_dead_claims {ι : Type} [DecidableEq ι] (cfg : Config)
    (clients : ι → Client) (now : ℚ≥0) {pool : RedisPool ι}
    (hrun : Run redis_step Leases.time_step (EveryStep Fenced) (start cfg clients now) pool) :
    (∀ event pool', Step redis_step Leases.time_step pool (some event) pool' →
      (TakesDeadClaim pool.world event ↔ RecoversExpired pool.world event)) ∧
    ∀ job_id client client', UnexpiredClaim client job_id pool.world →
      UnexpiredClaim client' job_id pool.world → client = client' := by
  have hl := leased_of_run hrun
  constructor
  · intro event pool' hstep
    constructor
    · rintro h job_id hid
      obtain ⟨owner, howner, claim, hheld, -, hexpired⟩ := h job_id hid
      have hclaim := Option.some.inj ((hl.lease _ owner howner).symm.trans hheld)
      rwa [← hclaim] at hexpired
    · rintro h job_id hid
      have hm := inflight_of_recovered hstep hid
      obtain ⟨owner, howner⟩ := Option.isSome_iff_exists.mp ((hl.inflight job_id).mp hm)
      exact ⟨owner, howner, _, hl.lease job_id owner howner, rfl, h job_id hid⟩
  · -- Both are the claimant of the job, for a superseded claim has expired.
    have hcurrent : ∀ job_id client, UnexpiredClaim client job_id pool.world →
        claimant job_id pool.world.trace = some client := by
      rintro job_id client ⟨⟨_, lease⟩, hheld, rfl, hrunning⟩
      by_contra hcur
      exact hrunning (hl.superseded _ client lease hheld hcur)
    intro job_id client client' hc hc'
    exact Option.some.inj ((hcurrent job_id client hc).symm.trans (hcurrent job_id client' hc'))

def two_workers : Fin 3 → Client
  | 0 => .producer "job" [] "principal" "tenant"
  | _ => .worker [⟨.inserted, 1, 0, none⟩]

-- The threads that go next, by their numbers.
def redis_turns {n : ℕ} (threads : List ℕ) : List (Fin (n + 1) × Unit) :=
  threads.map fun thread => (.clamp thread n, ())

-- The first worker's claim is complete. Its lease runs out at 1300, and by 2000
-- the second worker has come as far as its recover script.
def claimed : RedisPool (Fin 3) :=
  (start .default two_workers (1000 : ℕ)).schedule redis_perform
    (redis_turns [0, 0, 1, 1, 1, 1, 1, 1, 1, 1, 1, 1])

def lapsed : RedisPool (Fin 3) :=
  ⟨⟨{ claimed.world.state with now := 2000 }, claimed.world.trace⟩, claimed.threads⟩

theorem lapsed_time_step : Leases.time_step claimed.world.state lapsed.world.state := by
  refine ⟨⟨2000, rfl, fun job_id expires h => ?_⟩, by decide +kernel⟩
  have hall : ∀ marker ∈ claimed.world.state.known.entries, ((2000 : ℚ≥0) : ℚ) < marker.2 := by
    decide +kernel
  exact hall _ ((Dict.get?_eq_some_iff _ _ _).mp h)

def recovering : RedisPool (Fin 3) := lapsed.schedule redis_perform (redis_turns [2, 2, 2, 2, 2])

theorem recovering_run : Run redis_step Leases.time_step (EveryStep Fenced)
    (start .default two_workers 1000) recovering := by
  have hclaimed : Run redis_step Leases.time_step (EveryStep Fenced)
      (start .default two_workers 1000) claimed :=
    .schedule (fun _ _ _ _ => rfl) .start _ (by decide +kernel)
  exact .schedule (fun _ _ _ _ => rfl) (hclaimed.step (.environment lapsed_time_step) trivial) _
    (by decide +kernel)

theorem recovery_takes_dead_claims_lapsed :
    ∃ event ∈ recovering.event redis_perform (2, ()), recovered_id event = some "job" ∧
      TakesDeadClaim recovering.world event := by
  obtain ⟨event, hevent⟩ := Option.isSome_iff_exists.mp
    (show (recovering.event redis_perform (2, ())).isSome by decide +kernel)
  have hids : ∀ event ∈ recovering.event redis_perform (2, ()),
      recovered_id event = some "job" ∧ RecoversExpired recovering.world event := by
    decide +kernel
  obtain ⟨hid, hcondition⟩ := hids event hevent
  exact ⟨event, hevent, hid, ((recovery_takes_dead_claims .default two_workers 1000
    recovering_run).1 event _ (.advance (fun _ _ _ _ => rfl) hevent)).mpr hcondition⟩

-- The second worker looks for leases while the first is between its BRPOPLPUSH
-- and its ZADD, and has come as far as its recover script.
def overtaking : RedisPool (Fin 3) :=
  (start .default two_workers (1000 : ℕ)).schedule redis_perform
    (redis_turns [0, 0, 1, 1, 1, 1, 1, 1, 2, 2, 2, 2, 2])

-- Both then complete their claims of the one job.
def overtaken : RedisPool (Fin 3) :=
  overtaking.schedule redis_perform
    (redis_turns [2, 1, 1, 1, 1, 2, 2, 2, 2, 2, 2, 2])

theorem recovery_takes_live_claim :
    (∃ (pool pool' : RedisPool (Fin 3)) (event : RedisEvent (Fin 3)),
      Run redis_step Leases.time_step (EveryStep ActsOnOwnClaim)
        (start .default two_workers 1000) pool ∧
      Step redis_step Leases.time_step pool (some event) pool' ∧
      ¬TakesDeadClaim pool.world event) ∧
    ∃ pool : RedisPool (Fin 3),
      Run redis_step Leases.time_step (EveryStep ActsOnOwnClaim)
        (start .default two_workers 1000) pool ∧
      UnexpiredClaim 1 "job" pool.world ∧ UnexpiredClaim 2 "job" pool.world := by
  have hovertaking : Run redis_step Leases.time_step (EveryStep ActsOnOwnClaim)
      (start .default two_workers 1000) overtaking :=
    .schedule (fun _ _ _ _ => rfl) .start _ (by decide +kernel)
  constructor
  · obtain ⟨event, hevent⟩ := Option.isSome_iff_exists.mp
      (show (overtaking.event redis_perform (2, ())).isSome by decide +kernel)
    have hlive : ∀ event ∈ overtaking.event redis_perform (2, ()),
        ¬TakesDeadClaim overtaking.world event := by
      decide +kernel
    exact ⟨overtaking, _, event, hovertaking, .advance (fun _ _ _ _ => rfl) hevent,
      hlive event hevent⟩
  · exact ⟨overtaken, .schedule (fun _ _ _ _ => rfl) hovertaking _ (by decide +kernel),
      by decide +kernel, by decide +kernel⟩

end ResearchAgent.JobQueue
