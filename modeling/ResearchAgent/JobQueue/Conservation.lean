import ResearchAgent.Library.Interleaving
import ResearchAgent.JobQueue.Sends

namespace ResearchAgent.JobQueue

open Library

variable {ι : Type}

abbrev RedisEvent (ι : Type) := Event ι Command Command.Reply

abbrev RedisWorld (ι : Type) := World ι Command Command.Reply Redis

abbrev RedisPool (ι : Type) := Pool ι Command Command.Reply Redis QueueError QueueReply

-- Every command and every script is one atomic step of the server.
def redis_step (_ : ι) (redis : Redis) (command : Command) (reply : command.Reply)
    (redis' : Redis) : Prop :=
  redis.exec command = (reply, redis')

-- The clock may be set to anything that expires no idempotency marker.
def clock_step (redis redis' : Redis) : Prop :=
  ∃ now, redis' = { redis with now } ∧
    ∀ job_id expires, redis.known.get? job_id = some expires → (now : ℚ) < expires

def redis_perform (_ : Unit) (_ : ι) (redis : Redis) (command : Command) :
    command.Reply × Redis :=
  redis.exec command

def RedisPool.start (cfg : Config) (calls : ι → QueueCall) (now : ℚ≥0) : RedisPool ι :=
  ⟨⟨.empty now, []⟩, fun client => (calls client).on_redis cfg⟩

namespace Conservation

def enqueued_id : RedisEvent ι → Option String
  | ⟨_, .eval (.enqueue _ job_id _ _), true⟩ => some job_id
  | _ => none

def removed_id : RedisEvent ι → Option String
  | ⟨_, .eval (.ack _ _ job_id), true⟩ => some job_id
  | ⟨_, .eval (.remove_dead _ job_id), true⟩ => some job_id
  | _ => none

-- `enqueue` returned True for the job.
def Enqueued (trace : List (RedisEvent ι)) (job_id : String) : Prop :=
  some job_id ∈ trace.map enqueued_id

-- An ack script or a remove-dead script succeeded for the job.
def Removed (trace : List (RedisEvent ι)) (job_id : String) : Prop :=
  some job_id ∈ trace.map removed_id

instance (trace : List (RedisEvent ι)) (job_id : String) : Decidable (Enqueued trace job_id) :=
  inferInstanceAs (Decidable (_ ∈ _))

instance (trace : List (RedisEvent ι)) (job_id : String) : Decidable (Removed trace job_id) :=
  inferInstanceAs (Decidable (_ ∈ _))

def Live (trace : List (RedisEvent ι)) (job_id : String) : Prop :=
  Enqueued trace job_id ∧ ¬Removed trace job_id

theorem Enqueued.mono {trace trace' : List (RedisEvent ι)} {job_id : String}
    (h : Enqueued trace job_id) (hs : trace ⊆ trace') : Enqueued trace' job_id :=
  List.map_subset _ hs h

theorem Removed.mono {trace trace' : List (RedisEvent ι)} {job_id : String}
    (h : Removed trace job_id) (hs : trace ⊆ trace') : Removed trace' job_id :=
  List.map_subset _ hs h

theorem enqueued_cons (event : RedisEvent ι) (trace : List (RedisEvent ι)) (job_id : String) :
    Enqueued (event :: trace) job_id ↔ enqueued_id event = some job_id ∨ Enqueued trace job_id := by
  simp only [Enqueued, List.map_cons, List.mem_cons, eq_comm]

theorem removed_cons (event : RedisEvent ι) (trace : List (RedisEvent ι)) (job_id : String) :
    Removed (event :: trace) job_id ↔ removed_id event = some job_id ∨ Removed trace job_id := by
  simp only [Removed, List.map_cons, List.mem_cons, eq_comm]

def scheduled_count (redis : Redis) (job_id : String) : ℕ :=
  ((redis.zsets .scheduled).contains job_id).toNat

-- How often the job occurs in ready, inflight, dead and scheduled together.
def places (redis : Redis) (job_id : String) : ℕ :=
  (redis.lists .ready).count job_id + (redis.lists .inflight).count job_id +
    (redis.lists .dead).count job_id + scheduled_count redis job_id

structure Conserved (world : RedisWorld ι) : Prop where
  markers : ∀ job_id expires, world.state.known.get? job_id = some expires →
    (world.state.now : ℚ) < expires
  known : ∀ job_id, Enqueued world.trace job_id → (world.state.known.get? job_id).isSome
  removed : ∀ job_id, Removed world.trace job_id → Enqueued world.trace job_id
  encoded : ∀ job_id raw, world.state.envelopes.get? job_id = some raw → WellEncoded job_id raw
  present : ∀ job_id, Live world.trace job_id → (world.state.envelopes.get? job_id).isSome
  once : ∀ job_id, Live world.trace job_id → places world.state job_id = 1
  nowhere : ∀ job_id, ¬Live world.trace job_id → places world.state job_id = 0

-- What a client may send, given what has happened so far. The LREM of a claim
-- whose envelope is gone is the one command that could lose a job.
inductive Permitted (trace : List (RedisEvent ι)) : Command → Prop
  | routine {command} (h : Routine command) : Permitted trace command
  | lrem {job_id} (hr : Removed trace job_id) : Permitted trace (.lrem .inflight job_id)

section Places

variable (redis : Redis)

theorem count_erase_of_mem {job_id : String} {ids : List String} (hm : job_id ∈ ids)
    (other : String) :
    (ids.erase job_id).count other + (if other = job_id then 1 else 0) = ids.count other := by
  have hpos := List.count_pos_iff.mpr hm
  by_cases h : other = job_id
  · subst h
    simp only [List.count_erase_self, ite_true]
    omega
  · simp [h, List.count_erase_of_ne h]

theorem count_push (job_id other : String) (ids : List String) :
    (job_id :: ids).count other = ids.count other + (if other = job_id then 1 else 0) := by
  by_cases h : other = job_id
  · simp [h]
  · simp [h, List.count_cons_of_ne (Ne.symm h)]

-- Each script that takes a job out of flight puts it in exactly one other place.
theorem places_move (destination : ListKey) (hd : destination ≠ .inflight) {job_id : String}
    (hm : job_id ∈ redis.lists .inflight) (encoded : JSONValue) (other : String) :
    places ((((redis.lrem .inflight job_id).zrem .leases job_id).hset job_id encoded).lpush
      destination job_id) other = places redis other := by
  have he := count_erase_of_mem hm other
  cases destination with
  | inflight => exact absurd rfl hd
  | ready =>
      simp only [places, scheduled_count, Redis.lpush_lists, Redis.lpush_zsets, Redis.hset_lists,
        Redis.hset_zsets, Redis.zrem_lists, Redis.zrem_zsets, Redis.lrem_lists, Redis.lrem_zsets,
        reduceCtorEq, ite_true, ite_false, count_push]
      omega
  | dead =>
      simp only [places, scheduled_count, Redis.lpush_lists, Redis.lpush_zsets, Redis.hset_lists,
        Redis.hset_zsets, Redis.zrem_lists, Redis.zrem_zsets, Redis.lrem_lists, Redis.lrem_zsets,
        reduceCtorEq, ite_true, ite_false, count_push]
      omega

theorem places_retry {job_id : String} (hm : job_id ∈ redis.lists .inflight)
    (hs : (redis.zsets .scheduled).contains job_id = false) (encoded : JSONValue) (retry_at : ℚ)
    (other : String) :
    places ((((redis.lrem .inflight job_id).zrem .leases job_id).hset job_id encoded).zadd
      .scheduled job_id retry_at) other = places redis other := by
  have he := count_erase_of_mem hm other
  simp only [Dict.contains] at hs
  simp only [places, scheduled_count, Dict.contains, Redis.zadd_lists, Redis.zadd_zsets,
    Redis.hset_lists, Redis.hset_zsets, Redis.zrem_lists, Redis.zrem_zsets, Redis.lrem_lists,
    Redis.lrem_zsets, reduceCtorEq, ite_true, ite_false, Dict.get?_set]
  by_cases h : other = job_id
  · subst h
    simp only [ite_true, Option.isSome_some, hs, Bool.toNat_true, Bool.toNat_false] at he ⊢
    omega
  · simp only [h, ite_false] at he ⊢
    omega

theorem places_promote {job_id : String} (hs : (redis.zsets .scheduled).contains job_id = true)
    (other : String) :
    places ((redis.zrem .scheduled job_id).lpush .ready job_id) other = places redis other := by
  simp only [Dict.contains] at hs
  simp only [places, scheduled_count, Dict.contains, Redis.lpush_lists, Redis.lpush_zsets,
    Redis.zrem_lists, Redis.zrem_zsets, reduceCtorEq, ite_true, ite_false, Dict.get?_erase,
    count_push]
  by_cases h : other = job_id
  · subst h
    simp only [ite_true, Option.isSome_none, hs, Bool.toNat_true, Bool.toNat_false]
    omega
  · simp only [h, ite_false]
    omega

theorem places_brpoplpush {job_id : String} (hl : (redis.lists .ready).getLast? = some job_id)
    (other : String) :
    places ((redis.rpop .ready).lpush .inflight job_id) other = places redis other := by
  obtain ⟨ids, hids⟩ := List.getLast?_eq_some_iff.mp hl
  simp only [places, scheduled_count, Redis.lpush_lists, Redis.lpush_zsets, Redis.rpop_lists,
    Redis.rpop_zsets, reduceCtorEq, ite_true, ite_false, hids, List.dropLast_concat, count_push,
    List.count_append, List.count_nil]
  omega

end Places

section Steps

variable {world : RedisWorld ι}

theorem live_quiet {event : RedisEvent ι} (he : enqueued_id event = none)
    (hr : removed_id event = none) (trace : List (RedisEvent ι)) (job_id : String) :
    Live (event :: trace) job_id ↔ Live trace job_id := by
  simp [Live, enqueued_cons, removed_cons, he, hr]

-- A step that neither enqueues nor removes a job may move jobs about and
-- rewrite envelopes, as long as none is lost or doubled.
theorem Conserved.quiet (hc : Conserved world) {event : RedisEvent ι} {redis : Redis}
    (he : enqueued_id event = none) (hr : removed_id event = none)
    (hnow : redis.now = world.state.now) (hknown : redis.known = world.state.known)
    (hplaces : ∀ job_id, places redis job_id = places world.state job_id)
    (hencoded : ∀ job_id raw, redis.envelopes.get? job_id = some raw → WellEncoded job_id raw)
    (hpresent : ∀ job_id, (world.state.envelopes.get? job_id).isSome →
      (redis.envelopes.get? job_id).isSome) :
    Conserved (world.after event redis) where
  markers := by simpa only [World.after_state, hnow, hknown] using hc.markers
  known job_id h := by
    simp only [World.after_trace, enqueued_cons, he, reduceCtorEq, false_or] at h
    simpa only [World.after_state, hknown] using hc.known job_id h
  removed job_id h := by
    simp only [World.after_trace, removed_cons, hr, reduceCtorEq, false_or] at h
    exact (enqueued_cons _ _ _).mpr (.inr (hc.removed job_id h))
  encoded := hencoded
  present job_id h := hpresent job_id (hc.present job_id ((live_quiet he hr _ _).mp h))
  once job_id h := (hplaces job_id).trans (hc.once job_id ((live_quiet he hr _ _).mp h))
  nowhere job_id h :=
    (hplaces job_id).trans (hc.nowhere job_id (fun hl => h ((live_quiet he hr _ _).mpr hl)))

theorem Conserved.unchanged (hc : Conserved world) {event : RedisEvent ι}
    (he : enqueued_id event = none) (hr : removed_id event = none) :
    Conserved (world.after event world.state) :=
  hc.quiet he hr rfl rfl (fun _ => rfl) hc.encoded (fun _ h => h)

theorem Conserved.encoded_set (hc : Conserved world) {job_id : String} {encoded : JSONValue}
    (he : WellEncoded job_id encoded) (other : String) (raw : JSONValue)
    (h : (world.state.envelopes.set job_id encoded).get? other = some raw) :
    WellEncoded other raw := by
  rw [Dict.get?_set] at h
  split at h
  · next ho =>
      subst ho
      rwa [← Option.some.inj h]
  · exact hc.encoded other raw h

theorem isSome_set {d : Dict String JSONValue} {job_id other : String} {raw : JSONValue}
    (h : (d.get? other).isSome) : ((d.set job_id raw).get? other).isSome := by
  rw [Dict.get?_set]
  split
  · rfl
  · exact h

theorem Conserved.live_of_places (hc : Conserved world) (job_id : String)
    (h : places world.state job_id ≠ 0) : Live world.trace job_id := by
  by_contra hn
  exact h (hc.nowhere job_id hn)

theorem inflight_places {redis : Redis} {job_id : String} (hm : job_id ∈ redis.lists .inflight) :
    0 < (redis.lists .inflight).count job_id := List.count_pos_iff.mpr hm

-- A job in flight is in no other place, in particular not scheduled.
theorem Conserved.not_scheduled (hc : Conserved world) {job_id : String}
    (hm : job_id ∈ world.state.lists .inflight) :
    (world.state.zsets .scheduled).contains job_id = false := by
  have hpos := inflight_places hm
  have hl := hc.live_of_places job_id (by unfold places; omega)
  have honce := hc.once job_id hl
  by_contra hs
  rw [Bool.not_eq_false] at hs
  simp only [places, scheduled_count, hs, Bool.toNat_true] at honce
  omega

theorem Conserved.enqueue (hc : Conserved world) {thread : ι} {job_id : String}
    {encoded : JSONValue} {ttl : ℤ} (he : WellEncoded job_id encoded) (ht : 1 ≤ ttl)
    (hk : world.state.exists_known job_id = false) :
    Conserved (world.after ⟨thread, .eval (.enqueue .ready job_id encoded ttl), true⟩
      (((world.state.set_known job_id ttl).hset job_id encoded).lpush .ready job_id)) := by
  -- No marker has expired, so a job without one was never enqueued.
  have hfresh : ¬Enqueued world.trace job_id := by
    intro h
    obtain ⟨expires, hx⟩ := Option.isSome_iff_exists.mp (hc.known job_id h)
    have hlt := hc.markers job_id expires hx
    simp [Redis.exists_known, hx, hlt] at hk
  have hlive : ∀ other, Live (⟨thread, .eval (.enqueue .ready job_id encoded ttl), true⟩ ::
      world.trace : List (RedisEvent ι)) other ↔ other = job_id ∨ Live world.trace other := by
    intro other
    simp only [Live, enqueued_cons, removed_cons, enqueued_id, removed_id, Option.some.injEq,
      reduceCtorEq, false_or]
    constructor
    · rintro ⟨rfl | he, hr⟩
      · exact .inl rfl
      · exact .inr ⟨he, hr⟩
    · rintro (rfl | ⟨he, hr⟩)
      · exact ⟨.inl rfl, fun hr => hfresh (hc.removed _ hr)⟩
      · exact ⟨.inr he, hr⟩
  have hplaces : ∀ other, places
      (((world.state.set_known job_id ttl).hset job_id encoded).lpush .ready job_id) other =
        places world.state other + (if other = job_id then 1 else 0) := by
    intro other
    simp only [places, scheduled_count, Redis.lpush_lists, Redis.lpush_zsets, Redis.hset_lists,
      Redis.hset_zsets, Redis.set_known_lists, Redis.set_known_zsets, reduceCtorEq, ite_true,
      ite_false, count_push]
    omega
  have hzero : places world.state job_id = 0 := hc.nowhere job_id (fun hl => hfresh hl.1)
  refine ⟨?_, ?_, ?_, hc.encoded_set he, ?_, ?_, ?_⟩
  · intro other expires h
    change (world.state.known.set job_id (world.state.now + ttl)).get? other = some expires at h
    change (world.state.now : ℚ) < expires
    rw [Dict.get?_set] at h
    split at h
    · have hpos : (0 : ℚ) < ttl := by exact_mod_cast ht
      rw [← Option.some.inj h]
      exact lt_add_of_pos_right _ hpos
    · exact hc.markers other expires h
  · intro other h
    change ((world.state.known.set job_id (world.state.now + ttl)).get? other).isSome
    rw [Dict.get?_set]
    split
    · rfl
    · next ho =>
        rcases (enqueued_cons _ _ _).mp h with h | h
        · exact absurd (Option.some.inj h).symm ho
        · exact hc.known other h
  · intro other h
    rcases (removed_cons _ _ _).mp h with h | h
    · simp [removed_id] at h
    · exact (enqueued_cons _ _ _).mpr (.inr (hc.removed other h))
  · intro other h
    change ((world.state.envelopes.set job_id encoded).get? other).isSome
    rcases (hlive other).mp h with rfl | hl
    · simp
    · exact isSome_set (hc.present other hl)
  · intro other h
    rw [World.after_state, hplaces]
    rcases (hlive other).mp h with rfl | hl
    · simp [hzero]
    · have hne : other ≠ job_id := fun he => hfresh (he ▸ hl.1)
      simp [hne, hc.once other hl]
  · intro other h
    have hn : ¬(other = job_id ∨ Live world.trace other) := fun hl => h ((hlive other).mpr hl)
    rw [World.after_state, hplaces, hc.nowhere other (fun hl => hn (.inr hl))]
    simp [show other ≠ job_id from fun he => hn (.inl he)]

-- An ack or a remove-dead script takes the job out of its only place.
theorem Conserved.remove (hc : Conserved world) {event : RedisEvent ι} {redis : Redis}
    {job_id : String} (he : enqueued_id event = none) (hr : removed_id event = some job_id)
    (hnow : redis.now = world.state.now) (hknown : redis.known = world.state.known)
    (henvelopes : redis.envelopes = world.state.envelopes.erase job_id)
    (hplaces : ∀ other,
      places redis other + (if other = job_id then 1 else 0) = places world.state other) :
    Conserved (world.after event redis) := by
  have hlive : ∀ other, Live (event :: world.trace) other ↔
      other ≠ job_id ∧ Live world.trace other := by
    intro other
    simp only [Live, enqueued_cons, removed_cons, he, hr, Option.some.injEq, reduceCtorEq,
      false_or, not_or]
    constructor
    · rintro ⟨hq, hne, hr⟩
      exact ⟨Ne.symm hne, hq, hr⟩
    · rintro ⟨hne, hq, hr⟩
      exact ⟨hq, Ne.symm hne, hr⟩
  have hwas : Live world.trace job_id := by
    have hp := hplaces job_id
    rw [if_pos rfl] at hp
    exact hc.live_of_places _ (by omega)
  refine ⟨?_, ?_, ?_, ?_, ?_, ?_, ?_⟩
  · simpa only [World.after_state, hnow, hknown] using hc.markers
  · intro other h
    simp only [World.after_trace, enqueued_cons, he, reduceCtorEq, false_or] at h
    simpa only [World.after_state, hknown] using hc.known other h
  · intro other h
    rcases (removed_cons _ _ _).mp h with h | h
    · rw [hr] at h
      rw [← Option.some.inj h]
      exact (enqueued_cons _ _ _).mpr (.inr hwas.1)
    · exact (enqueued_cons _ _ _).mpr (.inr (hc.removed other h))
  · intro other raw h
    simp only [World.after_state, henvelopes, Dict.get?_erase] at h
    split at h
    · cases h
    · exact hc.encoded other raw h
  · intro other h
    obtain ⟨hne, hl⟩ := (hlive other).mp h
    simpa only [World.after_state, henvelopes, Dict.get?_erase, hne, ite_false] using
      hc.present other hl
  · intro other h
    obtain ⟨hne, hl⟩ := (hlive other).mp h
    have hp := hplaces other
    simp only [hne, ite_false, hc.once other hl] at hp
    simpa using hp
  · intro other h
    have hp := hplaces other
    rw [World.after_state]
    by_cases hne : other = job_id
    · subst hne
      rw [if_pos rfl, hc.once other hwas] at hp
      omega
    · have hn := hc.nowhere other (fun hl => h ((hlive other).mpr ⟨hne, hl⟩))
      omega

theorem Conserved.bystander (hc : Conserved world) {thread : ι} {command : Command}
    {reply : command.Reply} {redis : Redis} (hp : Bystander command)
    (hs : redis_step thread world.state command reply redis) :
    Conserved (world.after ⟨thread, command, reply⟩ redis) := by
  unfold redis_step at hs
  cases hp with
  | clock | hget | lrange | llen | zscore | zrangebyscore =>
      cases hs
      exact hc.unchanged rfl rfl
  | @enqueue job_id encoded ttl he ht =>
      simp only [Redis.exec, Script.run] at hs
      cases hk : world.state.exists_known job_id with
      | true =>
          rw [hk] at hs
          cases hs
          exact hc.unchanged rfl rfl
      | false =>
          rw [hk] at hs
          cases hs
          exact hc.enqueue he ht hk
  | @recover destination job_id encoded he hd =>
      simp only [Redis.exec, Script.run] at hs
      by_cases hm : job_id ∈ world.state.lists .inflight
      · rw [if_pos hm] at hs
        cases hs
        exact hc.quiet rfl rfl rfl rfl (places_move world.state destination hd hm encoded)
          (hc.encoded_set he) (fun _ => isSome_set)
      · rw [if_neg hm] at hs
        cases hs
        exact hc.unchanged rfl rfl
  | @promote job_id =>
      simp only [Redis.exec, Script.run] at hs
      by_cases hm : (world.state.zsets .scheduled).contains job_id
      · rw [if_pos hm] at hs
        cases hs
        exact hc.quiet rfl rfl rfl rfl (places_promote world.state hm) hc.encoded (fun _ h => h)
      · rw [if_neg hm] at hs
        cases hs
        exact hc.unchanged rfl rfl
  | @remove_dead job_id =>
      simp only [Redis.exec, Script.run] at hs
      by_cases hm : job_id ∈ world.state.lists .dead
      · rw [if_pos hm] at hs
        cases hs
        refine hc.remove rfl rfl rfl rfl rfl fun other => ?_
        have he := count_erase_of_mem hm other
        simp only [places, scheduled_count, Redis.hdel_lists, Redis.hdel_zsets, Redis.lrem_lists,
          Redis.lrem_zsets, reduceCtorEq, ite_true, ite_false]
        omega
      · rw [if_neg hm] at hs
        cases hs
        exact hc.unchanged rfl rfl

theorem Conserved.routine (hc : Conserved world) {thread : ι} {command : Command}
    {reply : command.Reply} {redis : Redis} (hp : Routine command)
    (hs : redis_step thread world.state command reply redis) :
    Conserved (world.after ⟨thread, command, reply⟩ redis) := by
  unfold redis_step at hs
  cases hp with
  | bystander h => exact hc.bystander h hs
  | @ack job_id =>
      simp only [Redis.exec, Script.run] at hs
      by_cases hm : job_id ∈ world.state.lists .inflight
      · rw [if_pos hm] at hs
        cases hs
        refine hc.remove rfl rfl rfl rfl rfl fun other => ?_
        have he := count_erase_of_mem hm other
        simp only [places, scheduled_count, Redis.hdel_lists, Redis.hdel_zsets, Redis.zrem_lists,
          Redis.zrem_zsets, Redis.lrem_lists, Redis.lrem_zsets, reduceCtorEq, ite_true, ite_false]
        omega
      · rw [if_neg hm] at hs
        cases hs
        exact hc.unchanged rfl rfl
  | @retry job_id encoded retry_at he =>
      simp only [Redis.exec, Script.run] at hs
      by_cases hm : job_id ∈ world.state.lists .inflight
      · rw [if_pos hm] at hs
        cases hs
        exact hc.quiet rfl rfl rfl rfl
          (places_retry world.state hm (hc.not_scheduled hm) encoded retry_at)
          (hc.encoded_set he) (fun _ => isSome_set)
      · rw [if_neg hm] at hs
        cases hs
        exact hc.unchanged rfl rfl
  | @dead job_id encoded he =>
      simp only [Redis.exec, Script.run] at hs
      by_cases hm : job_id ∈ world.state.lists .inflight
      · rw [if_pos hm] at hs
        cases hs
        exact hc.quiet rfl rfl rfl rfl
          (places_move world.state .dead (by decide) hm encoded)
          (hc.encoded_set he) (fun _ => isSome_set)
      · rw [if_neg hm] at hs
        cases hs
        exact hc.unchanged rfl rfl
  | @renew job_id lease_until =>
      simp only [Redis.exec, Script.run] at hs
      by_cases hm : (world.state.zsets .leases).contains job_id
      · rw [if_pos hm] at hs
        cases hs
        exact hc.quiet rfl rfl rfl rfl (fun other => by simp [places, scheduled_count])
          hc.encoded (fun _ h => h)
      · rw [if_neg hm] at hs
        cases hs
        exact hc.unchanged rfl rfl
  | brpoplpush =>
      simp only [Redis.exec] at hs
      split at hs
      · cases hs
        exact hc.unchanged rfl rfl
      · next job_id hl =>
          cases hs
          exact hc.quiet rfl rfl rfl rfl (places_brpoplpush world.state hl) hc.encoded
            (fun _ h => h)
  | @hset job_id encoded he =>
      cases hs
      exact hc.quiet rfl rfl rfl rfl (fun _ => rfl) (hc.encoded_set he) (fun _ => isSome_set)
  | @zadd job_id score =>
      cases hs
      exact hc.quiet rfl rfl rfl rfl (fun other => by simp [places, scheduled_count])
        hc.encoded (fun _ h => h)

-- The step lemma: whatever the programs may send keeps every job where it
-- can be found.
theorem Conserved.step (hc : Conserved world) {thread : ι} {command : Command}
    {reply : command.Reply} {redis : Redis} (hp : Permitted world.trace command)
    (hs : redis_step thread world.state command reply redis) :
    Conserved (world.after ⟨thread, command, reply⟩ redis) := by
  unfold redis_step at hs
  cases hp with
  | routine h => exact hc.routine h hs
  | @lrem job_id hr =>
      cases hs
      have hzero := hc.nowhere job_id (fun hl => hl.2 hr)
      have hnot : job_id ∉ world.state.lists .inflight := by
        intro hm
        have hpos := inflight_places hm
        unfold places at hzero
        omega
      refine hc.quiet rfl rfl rfl rfl (fun other => ?_) hc.encoded (fun _ h => h)
      simp [places, scheduled_count, List.erase_of_not_mem hnot]

end Steps

section Programs

-- What a client has seen happen stays true: events are never taken back.
def discipline (ι : Type) : Discipline ι Command Command.Reply Redis where
  exec := redis_step
  assumes _ _ := True
  inv := Conserved
  rely _ world world' := world.trace ⊆ world'.trace
  rely_refl _ _ := List.Subset.refl _
  rely_trans _ _ _ _ := List.Subset.trans

variable {α β : Type} {thread : ι} {world : RedisWorld ι}

-- From any world on, the program keeps every job where it can be found.
def Keeps (ι : Type) (program : QueueProgram α) : Prop :=
  ∀ (thread : ι) world, (discipline ι).wp thread (fun _ _ => True) program world

theorem wp_call {command : Command} {next : command.Reply → QueueProgram α}
    (h : ∀ (w : RedisWorld ι) reply redis, world.trace ⊆ w.trace → Conserved w →
      redis_step thread w.state command reply redis →
      Permitted w.trace command ∧ (discipline ι).wp thread (fun _ _ => True) (next reply)
        (w.after ⟨thread, command, reply⟩ redis)) :
    (discipline ι).wp thread (fun _ _ => True) (.call command next) world := by
  rintro w hw hc reply redis ⟨hs, -⟩
  obtain ⟨hp, hnext⟩ := h w reply redis hw hc hs
  exact ⟨hc.step hp hs, fun _ _ => List.subset_cons_self _ _, hnext⟩

theorem Keeps.of_uses {program : QueueProgram α} (h : program.uses Routine) : Keeps ι program :=
  fun _ _ => Discipline.wp_of_uses (fun _ _ => trivial)
    (fun ho hc _ hs => ⟨hc.routine ho hs.1, fun _ _ => List.subset_cons_self _ _, trivial⟩)
    h trivial

theorem Keeps.of_bystander {program : QueueProgram α} (h : program.uses Bystander) :
    Keeps ι program :=
  .of_uses (Program.uses_mono (fun _ => .bystander) h)

theorem Keeps.bind {program : QueueProgram α} {f : α → QueueProgram β}
    (hprogram : Keeps ι program) (hf : ∀ value, Keeps ι (f value)) : Keeps ι (program >>= f) := by
  intro thread world
  refine Discipline.wp_bind (Discipline.wp_mono ?_ (hprogram thread world))
  rintro (error | value) w -
  · trivial
  · exact hf value thread w

theorem Keeps.ret (value : α) : Keeps ι (.ret value) := .of_uses trivial

theorem Keeps.raise (error : QueueError) : Keeps ι (.raise error : QueueProgram α) :=
  .of_uses trivial

-- A claim finds its envelope missing only when the job was removed meanwhile,
-- so the LREM that gives up the claim takes nothing from anyone.
theorem lease_claimed_wp (cfg : Config) (job_id : String) (he : Enqueued world.trace job_id) :
    (discipline ι).wp thread (fun _ _ => True) (RedisQueue.lease_claimed cfg job_id) world := by
  refine wp_call fun w raw redis hw hc hs => ⟨.routine (.bystander .hget), ?_⟩
  cases hs
  cases hraw : w.state.envelopes.get? job_id with
  | none =>
      have hr : Removed w.trace job_id := by
        by_contra hn
        simpa [hraw] using hc.present job_id ⟨he.mono hw, hn⟩
      refine wp_call fun w' _ _ hw' _ _ => ⟨.lrem (hr.mono fun e hm => ?_), ?_⟩
      · exact hw' (List.mem_cons_of_mem _ hm)
      · exact Keeps.raise _ _ _
  | some raw =>
      obtain ⟨envelope, rfl, hid⟩ := hc.encoded job_id raw hraw
      change (discipline ι).wp thread _
        (RedisQueue.decode _ envelope.to_json >>= RedisQueue.set_lease cfg job_id) _
      rw [RedisQueue.decode_to_json, Program.ret_bind]
      exact Keeps.of_uses (RedisQueue.set_lease_uses cfg hid) _ _

theorem keeps_claim (cfg : Config) (set_order : SetOrder) (timeout : ℚ) :
    Keeps ι (RedisQueue.claim cfg set_order timeout) := by
  unfold RedisQueue.claim
  split
  · exact .raise _
  · refine (Keeps.of_bystander (RedisQueue.recover_stale_uses cfg set_order)).bind fun _ =>
      (Keeps.of_bystander RedisQueue.promote_due_uses).bind fun _ => ?_
    intro thread world
    refine wp_call fun w raw_id redis hw hc hs => ⟨.routine .brpoplpush, ?_⟩
    cases raw_id with
    | none => exact Keeps.ret _ _ _
    | some job_id =>
        refine lease_claimed_wp cfg job_id ?_
        simp only [redis_step, Redis.exec] at hs
        split at hs
        · cases hs
        · next last hl =>
            cases hs
            have hm : job_id ∈ w.state.lists .ready := List.mem_of_getLast? hl
            have hpos := List.count_pos_iff.mpr hm
            have hlive := hc.live_of_places job_id (by unfold places; omega)
            exact hlive.1.mono (List.subset_cons_self _ _)

theorem keeps_call (cfg : Config) (call : QueueCall) : Keeps ι (call.on_redis cfg) := by
  cases call with
  | enqueue job_id request principal_id tenant_id =>
      exact (Keeps.of_bystander (RedisQueue.enqueue_uses cfg job_id request _ _)).bind fun _ =>
        .ret _
  | claim set_order timeout => exact (keeps_claim cfg set_order timeout).bind fun _ => .ret _
  | ack envelope => exact (Keeps.of_uses (RedisQueue.ack_uses envelope)).bind fun _ => .ret _
  | renew envelope =>
      exact (Keeps.of_uses (RedisQueue.renew_uses cfg envelope)).bind fun _ => .ret _
  | retry envelope error =>
      exact (Keeps.of_uses (RedisQueue.retry_uses cfg envelope error)).bind fun _ => .ret _
  | recover_stale set_order =>
      exact (Keeps.of_bystander (RedisQueue.recover_stale_uses cfg set_order)).bind fun _ => .ret _
  | dead_letters =>
      exact (Keeps.of_bystander RedisQueue.dead_letters_uses).bind fun _ => .ret _
  | remove_dead_letter envelope =>
      exact (Keeps.of_bystander (RedisQueue.remove_dead_letter_uses envelope)).bind fun _ => .ret _
  | dead_letter_count =>
      exact (Keeps.of_bystander RedisQueue.dead_letter_count_uses).bind fun _ => .ret _

end Programs

section Runs

variable [DecidableEq ι] {cfg : Config} {calls : ι → QueueCall} {now : ℚ≥0} {pool : RedisPool ι}

omit [DecidableEq ι] in
theorem conserved_start (now : ℚ≥0) : Conserved (⟨.empty now, []⟩ : RedisWorld ι) where
  markers := by simp [Redis.empty]
  known := by simp [Enqueued]
  removed := by simp [Removed]
  encoded := by simp [Redis.empty]
  present := by simp [Live, Enqueued]
  once := by simp [Live, Enqueued]
  nowhere := by simp [places, scheduled_count, Redis.empty, Dict.contains]

omit [DecidableEq ι] in
theorem Conserved.clock_step {world : RedisWorld ι} (hc : Conserved world) {redis : Redis}
    (h : clock_step world.state redis) : Conserved ⟨redis, world.trace⟩ := by
  obtain ⟨now, rfl, hmarkers⟩ := h
  exact ⟨hmarkers, hc.known, hc.removed, hc.encoded, hc.present, hc.once, hc.nowhere⟩

theorem conserved_of_run
    (hrun : Run redis_step clock_step Unrestricted (RedisPool.start cfg calls now) pool) :
    Conserved pool.world := by
  refine ((discipline ι).sound (fun _ _ _ => True) ?_ ?_ ?_ (fun _ => trivial) hrun).1
  · exact conserved_start now
  · exact fun client => keeps_call cfg (calls client) client _
  · exact fun hc h => ⟨hc.clock_step h, fun _ => List.Subset.refl _⟩

-- The four places and how often the job is in each.
def InExactlyOnePlace (redis : Redis) (job_id : String) : Prop :=
  let ready := (redis.lists .ready).count job_id
  let inflight := (redis.lists .inflight).count job_id
  let scheduled := scheduled_count redis job_id
  let dead := (redis.lists .dead).count job_id
  (ready, inflight, scheduled, dead) ∈
    [(1, 0, 0, 0), (0, 1, 0, 0), (0, 0, 1, 0), (0, 0, 0, 1)]

theorem in_exactly_one_place {redis : Redis} {job_id : String} (h : places redis job_id = 1) :
    InExactlyOnePlace redis job_id := by
  simp only [InExactlyOnePlace, List.mem_cons, Prod.mk.injEq, List.not_mem_nil, or_false]
  unfold places at h
  omega

end Runs

end Conservation

open Conservation

-- No job is lost and none is doubled, wherever the clients stand in their calls.
theorem redis_jobs_conserved [DecidableEq ι] (cfg : Config) (calls : ι → QueueCall) (now : ℚ≥0)
    {pool : RedisPool ι}
    (hrun : Run redis_step clock_step Unrestricted (RedisPool.start cfg calls now) pool)
    (job_id : String) :
    (Enqueued pool.world.trace job_id ∧ ¬Removed pool.world.trace job_id →
      InExactlyOnePlace pool.world.state job_id ∧
      ∃ envelope : JobEnvelope, envelope.job_id = job_id ∧
        pool.world.state.envelopes.get? job_id = some envelope.to_json) ∧
    (¬(Enqueued pool.world.trace job_id ∧ ¬Removed pool.world.trace job_id) →
      (∀ key, job_id ∉ pool.world.state.lists key) ∧
      (pool.world.state.zsets .scheduled).contains job_id = false) := by
  have hc := conserved_of_run hrun
  constructor
  · intro hlive
    refine ⟨in_exactly_one_place (hc.once job_id hlive), ?_⟩
    obtain ⟨raw, hraw⟩ := Option.isSome_iff_exists.mp (hc.present job_id hlive)
    obtain ⟨envelope, rfl, hid⟩ := hc.encoded job_id raw hraw
    exact ⟨envelope, hid, hraw⟩
  · intro hdead
    have hzero := hc.nowhere job_id hdead
    simp only [places, scheduled_count, Nat.add_eq_zero_iff, List.count_eq_zero,
      Bool.toNat_eq_zero] at hzero
    obtain ⟨⟨⟨hr, hi⟩, hd⟩, hs⟩ := hzero
    refine ⟨fun key => ?_, hs⟩
    cases key
    · exact hr
    · exact hi
    · exact hd

def interrupted_claim : Bool → QueueCall
  | false => .enqueue "job" [] "principal" "tenant"
  | true => .claim .inserted 1

-- The claim stops between its BRPOPLPUSH and its ZADD, and the job is in flight.
theorem redis_jobs_conserved_interrupted_claim :
    InExactlyOnePlace ((RedisPool.start .default interrupted_claim 1000).schedule redis_perform
      ([false, false, true, true, true, true, true, true].map (·, ()))).world.state "job" :=
  ((redis_jobs_conserved .default interrupted_claim 1000
    (.schedule (fun _ _ _ _ => rfl) .start
      ([false, false, true, true, true, true, true, true].map (·, ()))
      (respects_unrestricted _ _)) "job").1
    (by decide +kernel)).1

end ResearchAgent.JobQueue
