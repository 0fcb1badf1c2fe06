import Mathlib.Tactic.Linarith
import ResearchAgent.Library.Dict
import ResearchAgent.Service.Contracts

namespace ResearchAgent.Service

open Library

-- The settings that `GovernanceStore` passes on to the slot counters.
structure SlotLimits where
  max_concurrent : ℕ
  ttl : ℕ
  max_concurrent_pos : 1 ≤ max_concurrent
  ttl_pos : 1 ≤ ttl

-- A counter at the server: its value, and when it expires if it does.
structure SlotKey where
  value : ℤ
  expires_at : Option ℚ

-- The slot counters of either backend.
inductive SlotStore where
  | memory (slots : Dict String ℤ)
  | redis (keys : Dict String SlotKey)

def slots_key (tenant_id : String) : String := "governance:slots:" ++ tenant_id

namespace RedisSlots

variable (keys : Dict String SlotKey) (now : ℚ) (key : String)

-- A key that has expired is not there. The server drops it once the time is past the expiry.
def live : Option SlotKey :=
  (keys.get? key).filter fun stored =>
    match stored.expires_at with
    | none => true
    | some expires_at => now ≤ expires_at

def get : Option ℤ := (live keys now key).map SlotKey.value

-- INCR and DECR leave the expiry as it is; a missing key starts from zero without one.
def add (amount : ℤ) : Dict String SlotKey :=
  match live keys now key with
  | some stored => keys.set key { stored with value := stored.value + amount }
  | none => keys.set key ⟨amount, none⟩

def expire (seconds : ℕ) : Dict String SlotKey :=
  match live keys now key with
  | some stored => keys.set key { stored with expires_at := some (now + seconds) }
  | none => keys

-- `_ACQUIRE_SLOT_LUA`
def acquire_slot (max_concurrent ttl : ℕ) : Bool × Dict String SlotKey :=
  let current := (get keys now key).getD 0
  if current ≥ max_concurrent then (false, keys)
  else
    let keys := add keys now key 1
    (true, expire keys now key ttl)

-- `_RELEASE_SLOT_LUA`
def release_slot : Dict String SlotKey :=
  let current := (get keys now key).getD 0
  if current ≤ 1 then keys.erase key else add keys now key (-1)

end RedisSlots

namespace SlotStore

-- The memory backend keeps its counters by tenant in a `defaultdict(int)`.
def acquire_job_slot (limits : SlotLimits) (now : ℚ) (tenant_id : String) :
    SlotStore → Bool × SlotStore
  | redis keys =>
      (RedisSlots.acquire_slot keys now (slots_key tenant_id) limits.max_concurrent
        limits.ttl).map id redis
  | memory slots =>
      let current := (slots.get? tenant_id).getD 0
      if current ≥ limits.max_concurrent then (false, memory (slots.set tenant_id current))
      else (true, memory (slots.set tenant_id (current + 1)))

def release_job_slot (now : ℚ) (tenant_id : String) : SlotStore → SlotStore
  | redis keys => redis (RedisSlots.release_slot keys now (slots_key tenant_id))
  | memory slots =>
      let current := (slots.get? tenant_id).getD 0
      memory (slots.set tenant_id (max 0 (current - 1)))

-- The number that an acquire compares with the limit.
def current (now : ℚ) (tenant_id : String) : SlotStore → ℤ
  | redis keys => (RedisSlots.get keys now (slots_key tenant_id)).getD 0
  | memory slots => (slots.get? tenant_id).getD 0

end SlotStore

-- One call as it happened; a release has no answer.
inductive SlotEvent where
  | acquire (time : ℚ) (tenant_id : String) (answer : Bool)
  | release (time : ℚ) (tenant_id : String)

def SlotEvent.time : SlotEvent → ℚ
  | acquire time _ _ => time
  | release time _ => time

-- The slots that the tenant has acquired and not released, newest call first.
def held (tenant_id : String) : List SlotEvent → ℕ
  | [] => 0
  | .acquire _ other true :: rest =>
      if other = tenant_id then held tenant_id rest + 1 else held tenant_id rest
  | .acquire _ _ false :: rest => held tenant_id rest
  | .release _ other :: rest =>
      if other = tenant_id then held tenant_id rest - 1 else held tenant_id rest

def last_acquired (tenant_id : String) : List SlotEvent → Option ℚ
  | [] => none
  | .acquire time other true :: rest =>
      if other = tenant_id then some time else last_acquired tenant_id rest
  | _ :: rest => last_acquired tenant_id rest

-- A run of calls of any tenants whose clock does not go back.
inductive SlotRun (limits : SlotLimits) (allowed : List SlotEvent → SlotStore → SlotEvent → Prop) :
    List SlotEvent → SlotStore → Prop
  | memory : SlotRun limits allowed [] (.memory .empty)
  | redis : SlotRun limits allowed [] (.redis .empty)
  | acquire {trace store} (h : SlotRun limits allowed trace store) (time : ℚ) (tenant_id : String)
      (hlater : ∀ event ∈ trace, event.time ≤ time)
      (hallowed : allowed trace store
        (.acquire time tenant_id (store.acquire_job_slot limits time tenant_id).1)) :
      SlotRun limits allowed
        (.acquire time tenant_id (store.acquire_job_slot limits time tenant_id).1 :: trace)
        (store.acquire_job_slot limits time tenant_id).2
  | release {trace store} (h : SlotRun limits allowed trace store) (time : ℚ) (tenant_id : String)
      (hlater : ∀ event ∈ trace, event.time ≤ time)
      (hallowed : allowed trace store (.release time tenant_id)) :
      SlotRun limits allowed (.release time tenant_id :: trace)
        (store.release_job_slot time tenant_id)

-- Every release gives back a slot that is held.
def Matched (trace : List SlotEvent) : SlotEvent → Prop
  | .acquire _ _ _ => True
  | .release _ tenant_id => 1 ≤ held tenant_id trace

-- A tenant that holds slots acquires before the counter at the server has expired.
def Timely (limits : SlotLimits) (trace : List SlotEvent) : SlotStore → SlotEvent → Prop
  | .redis _, .acquire time tenant_id _ => 1 ≤ held tenant_id trace →
      ∃ last ∈ last_acquired tenant_id trace, time ≤ last + limits.ttl
  | _, _ => True

theorem slots_key_inj {tenant_id other : String} :
    slots_key other = slots_key tenant_id ↔ other = tenant_id := by
  unfold slots_key
  exact String.append_right_inj _

namespace RedisSlots

variable {keys : Dict String SlotKey} {now : ℚ} {key : String} {max_concurrent : ℕ}

theorem live_eq_some_iff {stored : SlotKey} :
    live keys now key = some stored ↔
      keys.get? key = some stored ∧ ∀ expires_at ∈ stored.expires_at, now ≤ expires_at := by
  unfold live
  rw [Option.filter_eq_some_iff]
  refine and_congr_right fun _ => ?_
  cases stored.expires_at <;> simp

theorem live_of_unexpired {stored : SlotKey} {expires_at : ℚ} (h : keys.get? key = some stored)
    (hexpires : stored.expires_at = some expires_at) (hunexpired : now ≤ expires_at) :
    live keys now key = some stored := by
  refine live_eq_some_iff.mpr ⟨h, ?_⟩
  rw [hexpires]
  rintro _ ⟨⟩
  exact hunexpired

theorem live_of_expired {stored : SlotKey} {expires_at : ℚ} (h : keys.get? key = some stored)
    (hexpires : stored.expires_at = some expires_at) (hexpired : expires_at < now) :
    live keys now key = none := by
  rw [Option.eq_none_iff_forall_ne_some]
  intro other hother
  obtain ⟨hother, hunexpired⟩ := live_eq_some_iff.mp hother
  cases h.symm.trans hother
  exact absurd (hunexpired _ hexpires) (not_le.mpr hexpired)

theorem live_set (stored : SlotKey) (h : ∀ expires_at ∈ stored.expires_at, now ≤ expires_at) :
    live (keys.set key stored) now key = some stored :=
  live_eq_some_iff.mpr ⟨Dict.get?_set_self .., h⟩

theorem acquire_slot_refused (ttl : ℕ) (h : (get keys now key).getD 0 ≥ max_concurrent) :
    acquire_slot keys now key max_concurrent ttl = (false, keys) := by
  unfold acquire_slot
  rw [if_pos h]

theorem live_add (keys : Dict String SlotKey) (now : ℚ) (key : String) (amount : ℤ) :
    ∃ stored, live (add keys now key amount) now key = some stored ∧
      stored.value = (get keys now key).getD 0 + amount ∧
      ∀ other, (add keys now key amount).get? other =
        if other = key then some stored else keys.get? other := by
  unfold add get
  cases hlive : live keys now key with
  | none =>
      refine ⟨⟨amount, none⟩, live_set _ nofun, ?_, fun other => ?_⟩
      · simp
      · simp [eq_comm]
  | some stored =>
      have halive := (live_eq_some_iff.mp hlive).2
      refine ⟨{ stored with value := stored.value + amount }, live_set _ halive, ?_,
        fun other => ?_⟩
      · simp
      · simp [eq_comm]

theorem acquire_slot_granted (ttl : ℕ) (h : ¬(get keys now key).getD 0 ≥ max_concurrent) :
    ∃ keys', acquire_slot keys now key max_concurrent ttl = (true, keys') ∧
      ∀ other, keys'.get? other = if other = key then
        some ⟨(get keys now key).getD 0 + 1, some (now + ttl)⟩ else keys.get? other := by
  obtain ⟨stored, hlive, hvalue, hadd⟩ := live_add keys now key 1
  refine ⟨_, by unfold acquire_slot; rw [if_neg h], fun other => ?_⟩
  unfold expire
  rw [hlive]
  rw [Dict.get?_set, hvalue, hadd]
  split <;> rfl

theorem release_slot_last (h : (get keys now key).getD 0 ≤ 1) (other : String) :
    (release_slot keys now key).get? other = if other = key then none else keys.get? other := by
  unfold release_slot
  rw [if_pos h, Dict.get?_erase]

theorem release_slot_counted (h : ¬(get keys now key).getD 0 ≤ 1) :
    ∃ stored, live keys now key = some stored ∧ ∀ other,
      (release_slot keys now key).get? other = if other = key then
        some { stored with value := stored.value - 1 } else keys.get? other := by
  unfold release_slot
  rw [if_neg h]
  unfold get at h
  cases hlive : live keys now key with
  | none =>
      rw [hlive] at h
      exact absurd (by decide) h
  | some stored =>
      refine ⟨stored, rfl, fun other => ?_⟩
      unfold add
      rw [hlive]
      exact Dict.get?_set ..

end RedisSlots

-- What a counter at the server says of the tenant: the slots held, and that it expires when
-- the last acquire says; without one, none is held or it has expired.
def Tracks (limits : SlotLimits) (trace : List SlotEvent) (tenant_id : String) :
    Option SlotKey → Prop
  | some stored => stored.value = held tenant_id trace ∧ 1 ≤ held tenant_id trace ∧
      ∃ last ∈ last_acquired tenant_id trace, stored.expires_at = some (last + limits.ttl)
  | none => held tenant_id trace = 0 ∨ ∃ last ∈ last_acquired tenant_id trace,
      ∃ event ∈ trace, last + limits.ttl < event.time

def Tracked (limits : SlotLimits) (trace : List SlotEvent) : SlotStore → Prop
  | .redis keys => ∀ tenant_id, Tracks limits trace tenant_id (keys.get? (slots_key tenant_id))
  | .memory slots => ∀ tenant_id, (slots.get? tenant_id).getD 0 = (held tenant_id trace : ℤ)

section Steps

variable {limits : SlotLimits} {trace : List SlotEvent} {time : ℚ} {tenant_id : String}
  {answer : Bool}

-- A call that neither takes nor gives back a slot of the tenant leaves what is known.
theorem Tracks.cons {stored : Option SlotKey} (h : Tracks limits trace tenant_id stored)
    {event : SlotEvent} (hheld : held tenant_id (event :: trace) = held tenant_id trace)
    (hlast : last_acquired tenant_id (event :: trace) = last_acquired tenant_id trace) :
    Tracks limits (event :: trace) tenant_id stored := by
  cases stored with
  | none =>
      unfold Tracks
      rw [hheld, hlast]
      refine Or.imp_right ?_ h
      rintro ⟨last, hmem, other, hother, hlt⟩
      exact ⟨last, hmem, other, List.mem_cons_of_mem _ hother, hlt⟩
  | some stored =>
      unfold Tracks
      rwa [hheld, hlast]

-- The counter that an acquire reads is the number of held slots, unless it has expired with
-- slots held.
theorem Tracked.current_iff {store : SlotStore} (h : Tracked limits trace store)
    (hlater : ∀ event ∈ trace, event.time ≤ time) :
    store.current time tenant_id = held tenant_id trace ↔
      Timely limits trace store (.acquire time tenant_id answer) := by
  cases store with
  | memory slots => exact iff_of_true (h tenant_id) trivial
  | redis keys =>
      have htracks := h tenant_id
      simp only [SlotStore.current, RedisSlots.get, Timely]
      cases hkey : keys.get? (slots_key tenant_id) with
      | none =>
          have hlive : RedisSlots.live keys time (slots_key tenant_id) = none := by
            simp [RedisSlots.live, hkey]
          rw [hkey] at htracks
          rw [hlive]
          constructor
          · intro hzero hpos
            simp only [Option.map_none, Option.getD_none] at hzero
            omega
          · intro htimely
            simp only [Option.map_none, Option.getD_none]
            rcases htracks with hnone | ⟨last, hlast, event, hevent, hlt⟩
            · omega
            · by_contra hne
              obtain ⟨other, hother, hle⟩ := htimely (by omega)
              cases hlast.symm.trans hother
              exact absurd hle (not_le.mpr (hlt.trans_le (hlater event hevent)))
      | some stored =>
          rw [hkey] at htracks
          obtain ⟨hvalue, hpos, last, hlast, hexpires⟩ := htracks
          by_cases halive : time ≤ last + limits.ttl
          · rw [RedisSlots.live_of_unexpired hkey hexpires halive]
            exact iff_of_true hvalue fun _ => ⟨last, hlast, halive⟩
          · rw [RedisSlots.live_of_expired hkey hexpires (not_le.mp halive)]
            refine iff_of_false ?_ fun htimely => ?_
            · simp only [Option.map_none, Option.getD_none]
              omega
            · obtain ⟨other, hother, hle⟩ := htimely hpos
              cases hlast.symm.trans hother
              exact halive hle

theorem held_acquire_ne {other : String} (h : other ≠ tenant_id) :
    held tenant_id (.acquire time other answer :: trace) = held tenant_id trace ∧
      last_acquired tenant_id (.acquire time other answer :: trace) =
        last_acquired tenant_id trace := by
  cases answer with
  | false => exact ⟨rfl, rfl⟩
  | true => exact ⟨if_neg h, if_neg h⟩

theorem held_release_ne {other : String} (h : other ≠ tenant_id) :
    held tenant_id (.release time other :: trace) = held tenant_id trace :=
  if_neg h

theorem held_acquired (trace : List SlotEvent) (time : ℚ) (tenant_id : String) :
    held tenant_id (.acquire time tenant_id true :: trace) = held tenant_id trace + 1 ∧
      last_acquired tenant_id (.acquire time tenant_id true :: trace) = some time :=
  ⟨if_pos rfl, if_pos rfl⟩

theorem held_released :
    held tenant_id (.release time tenant_id :: trace) = held tenant_id trace - 1 :=
  if_pos rfl

-- The step lemma of an acquire at which the counter says how many slots are held.
theorem Tracked.acquire {store : SlotStore} (h : Tracked limits trace store)
    (hcurrent : store.current time tenant_id = held tenant_id trace) :
    Tracked limits
        (.acquire time tenant_id (store.acquire_job_slot limits time tenant_id).1 :: trace)
        (store.acquire_job_slot limits time tenant_id).2 ∧
      ((store.acquire_job_slot limits time tenant_id).1 = false ↔
        held tenant_id trace ≥ limits.max_concurrent) := by
  cases store with
  | memory slots =>
      simp only [SlotStore.current] at hcurrent
      simp only [SlotStore.acquire_job_slot, hcurrent]
      by_cases hfull : (held tenant_id trace : ℤ) ≥ limits.max_concurrent
      · rw [if_pos hfull]
        refine ⟨fun other => ?_, iff_of_true rfl (by omega)⟩
        rw [Dict.get?_set]
        split
        · next ho =>
          subst ho
          rfl
        · exact h other
      · rw [if_neg hfull]
        refine ⟨fun other => ?_, iff_of_false Bool.noConfusion (by omega)⟩
        rw [Dict.get?_set]
        split
        · next ho =>
          subst ho
          rw [(held_acquired ..).1]
          push_cast
          rfl
        · next ho =>
          rw [(held_acquire_ne (Ne.symm ho)).1]
          exact h other
  | redis keys =>
      simp only [SlotStore.current] at hcurrent
      simp only [SlotStore.acquire_job_slot, Prod.map]
      by_cases hfull :
          (RedisSlots.get keys time (slots_key tenant_id)).getD 0 ≥ limits.max_concurrent
      · rw [RedisSlots.acquire_slot_refused limits.ttl hfull]
        exact ⟨fun other => (h other).cons rfl rfl, iff_of_true rfl (by omega)⟩
      · obtain ⟨keys', hgranted, hkeys⟩ := RedisSlots.acquire_slot_granted limits.ttl hfull
        rw [hgranted]
        refine ⟨fun other => ?_, iff_of_false Bool.noConfusion (by omega)⟩
        simp only [id, hkeys, slots_key_inj]
        split
        · next ho =>
          subst ho
          obtain ⟨hheld, hlast⟩ := held_acquired trace time other
          refine ⟨?_, by omega, time, hlast, rfl⟩
          rw [hheld, hcurrent]
          push_cast
          rfl
        · next ho =>
          obtain ⟨hheld, hlast⟩ := held_acquire_ne (Ne.symm ho)
          exact (h other).cons hheld hlast

-- A counter that says at most one, or has expired, goes with the release.
theorem Tracks.last_released {keys : Dict String SlotKey}
    (h : Tracks limits trace tenant_id (keys.get? (slots_key tenant_id)))
    (hpos : 1 ≤ held tenant_id trace)
    (hone : (RedisSlots.get keys time (slots_key tenant_id)).getD 0 ≤ 1) :
    Tracks limits (.release time tenant_id :: trace) tenant_id none := by
  unfold Tracks
  rw [held_released]
  cases hkey : keys.get? (slots_key tenant_id) with
  | none =>
      rw [hkey] at h
      rcases h with hnone | ⟨last, hlast, event, hevent, hlt⟩
      · omega
      · exact .inr ⟨last, hlast, event, List.mem_cons_of_mem _ hevent, hlt⟩
  | some stored =>
      rw [hkey] at h
      obtain ⟨hvalue, -, last, hlast, hexpires⟩ := h
      by_cases halive : time ≤ last + limits.ttl
      · have hlive := RedisSlots.live_of_unexpired hkey hexpires halive
        rw [RedisSlots.get, hlive, Option.map_some, Option.getD_some] at hone
        exact .inl (by omega)
      · exact .inr ⟨last, hlast, _, List.mem_cons_self, not_le.mp halive⟩

-- The step lemma of a release of a held slot. A counter that has expired stays away.
theorem Tracked.release {store : SlotStore} (h : Tracked limits trace store)
    (hpos : 1 ≤ held tenant_id trace) :
    Tracked limits (.release time tenant_id :: trace)
      (store.release_job_slot time tenant_id) := by
  cases store with
  | memory slots =>
      intro other
      simp only [h tenant_id, Dict.get?_set]
      split
      · next ho =>
        subst ho
        rw [held_released, Option.getD_some]
        omega
      · next ho =>
        rw [held_release_ne (Ne.symm ho)]
        exact h other
  | redis keys =>
      intro other
      by_cases hone : (RedisSlots.get keys time (slots_key tenant_id)).getD 0 ≤ 1
      · simp only [RedisSlots.release_slot_last hone, slots_key_inj]
        split
        · next ho =>
          subst ho
          exact (h other).last_released hpos hone
        · next ho => exact (h other).cons (held_release_ne (Ne.symm ho)) rfl
      · obtain ⟨stored, hlive, hkeys⟩ := RedisSlots.release_slot_counted hone
        simp only [hkeys, slots_key_inj]
        split
        · next ho =>
          subst ho
          have htracks := h other
          rw [(RedisSlots.live_eq_some_iff.mp hlive).1] at htracks
          obtain ⟨hvalue, -, last, hlast, hexpires⟩ := htracks
          simp only [RedisSlots.get, hlive, Option.map_some, Option.getD_some] at hone
          unfold Tracks
          rw [held_released]
          refine ⟨?_, by omega, last, hlast, hexpires⟩
          simp only [hvalue]
          omega
        · next ho => exact (h other).cons (held_release_ne (Ne.symm ho)) rfl

-- The number that an acquire is refused at.
theorem refused_iff {store : SlotStore} :
    (store.acquire_job_slot limits time tenant_id).1 = false ↔
      store.current time tenant_id ≥ limits.max_concurrent := by
  cases store with
  | memory slots =>
      simp only [SlotStore.acquire_job_slot, SlotStore.current]
      split
      · next hfull => exact iff_of_true rfl hfull
      · next hfull => exact iff_of_false Bool.noConfusion hfull
  | redis keys =>
      simp only [SlotStore.acquire_job_slot, SlotStore.current, RedisSlots.acquire_slot]
      split
      · next hfull => exact iff_of_true rfl hfull
      · next hfull => exact iff_of_false Bool.noConfusion hfull

-- A counter never says too much.
theorem Tracked.current_le {store : SlotStore} (h : Tracked limits trace store) (time : ℚ)
    (tenant_id : String) : store.current time tenant_id ≤ held tenant_id trace := by
  cases store with
  | memory slots => exact (h tenant_id).le
  | redis keys =>
      have htracks := h tenant_id
      simp only [SlotStore.current, RedisSlots.get]
      cases hlive : RedisSlots.live keys time (slots_key tenant_id) with
      | none => simp
      | some stored =>
          rw [(RedisSlots.live_eq_some_iff.mp hlive).1] at htracks
          exact htracks.1.le

theorem tracked_of_run {store : SlotStore} (hrun : SlotRun limits (fun trace store event =>
      Matched trace event ∧ Timely limits trace store event) trace store) :
    Tracked limits trace store ∧ ∀ tenant_id, held tenant_id trace ≤ limits.max_concurrent := by
  induction hrun with
  | memory => exact ⟨fun _ => rfl, fun _ => Nat.zero_le _⟩
  | redis => exact ⟨fun _ => .inl rfl, fun _ => Nat.zero_le _⟩
  | @acquire trace store _ time tenant_id hlater hallowed ih =>
      obtain ⟨htracked, hle⟩ := ih
      have hcurrent := (htracked.current_iff hlater).mpr hallowed.2
      obtain ⟨htracked', hanswer⟩ := htracked.acquire hcurrent
      refine ⟨htracked', fun other => ?_⟩
      by_cases ho : tenant_id = other
      · subst ho
        cases hgranted : (store.acquire_job_slot limits time tenant_id).1 with
        | false => exact hle tenant_id
        | true =>
            rw [hgranted] at hanswer
            rw [(held_acquired ..).1]
            have hfree := mt hanswer.mpr nofun
            omega
      · rw [(held_acquire_ne ho).1]
        exact hle other
  | @release trace store _ time tenant_id hlater hallowed ih =>
      obtain ⟨htracked, hle⟩ := ih
      refine ⟨htracked.release hallowed.1, fun other => ?_⟩
      by_cases ho : tenant_id = other
      · subst ho
        rw [held_released]
        exact (Nat.sub_le ..).trans (hle tenant_id)
      · rw [held_release_ne ho]
        exact hle other

end Steps

-- In every run in which releases are matched and tenants with slots acquire before their
-- counter has expired, no tenant holds more slots than the limit, an acquire is refused
-- only at the limit, and the number that it reads is the true one as long as it is timely.
theorem slots_bounded {limits : SlotLimits} {trace : List SlotEvent} {store : SlotStore}
    (hrun : SlotRun limits (fun trace store event =>
      Matched trace event ∧ Timely limits trace store event) trace store) :
    (∀ tenant_id, held tenant_id trace ≤ limits.max_concurrent) ∧
      ∀ time tenant_id, (∀ event ∈ trace, event.time ≤ time) →
        ((store.acquire_job_slot limits time tenant_id).1 = false →
          held tenant_id trace = limits.max_concurrent) ∧
        (store.current time tenant_id = held tenant_id trace ↔
          Timely limits trace store (.acquire time tenant_id true)) := by
  obtain ⟨htracked, hle⟩ := tracked_of_run hrun
  refine ⟨hle, fun time tenant_id hlater => ⟨fun hrefused => ?_, htracked.current_iff hlater⟩⟩
  have hread := refused_iff.mp hrefused
  have hcounted := htracked.current_le time tenant_id
  have hbound := hle tenant_id
  omega

def two_slots : SlotLimits := ⟨2, 60, by decide, by decide⟩

-- Within a minute the tenant takes both slots and gives one back.
theorem slots_bounded_within_ttl :
    ∃ trace store, SlotRun two_slots (fun trace store event =>
        Matched trace event ∧ Timely two_slots trace store event) trace store ∧
      held "tenant" trace = 1 ∧ ∀ tenant_id, held tenant_id trace ≤ two_slots.max_concurrent := by
  have hstart : SlotRun two_slots (fun trace store event =>
      Matched trace event ∧ Timely two_slots trace store event) [] (.redis .empty) := .redis
  have hfirst := hstart.acquire 0 "tenant" nofun
    ⟨trivial, fun hpos => absurd hpos (by decide)⟩
  have hsecond := hfirst.acquire 10 "tenant" (by rintro _ (_ | ⟨_, ⟨⟩⟩); decide +kernel)
    ⟨trivial, fun _ => ⟨0, by decide +kernel, by decide +kernel⟩⟩
  have hrun := hsecond.release 30 "tenant"
    (by rintro _ (_ | ⟨_, _ | ⟨_, ⟨⟩⟩⟩) <;> decide +kernel)
    ⟨(by unfold Matched; decide +kernel), trivial⟩
  exact ⟨_, _, hrun, by decide +kernel, (slots_bounded hrun).1⟩

def one_slot : SlotLimits := ⟨1, 60, by decide, by decide⟩

-- The counter expires a minute after the acquire, while the only slot is held, and another one
-- is acquired.
theorem expired_counter_exceeds_limit :
    ∃ trace store, SlotRun one_slot (fun trace _ event => Matched trace event) trace store ∧
      ¬held "tenant" trace ≤ one_slot.max_concurrent := by
  refine ⟨_, _, .acquire (.acquire .redis 0 "tenant" nofun trivial) 61 "tenant" ?_ trivial,
    by decide +kernel⟩
  rintro _ (_ | ⟨_, ⟨⟩⟩)
  decide +kernel

end ResearchAgent.Service
