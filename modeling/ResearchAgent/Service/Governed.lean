import ResearchAgent.Library.Refinement
import ResearchAgent.Service.AuditStream
import ResearchAgent.Service.Runs

namespace ResearchAgent.Service

open Library JobQueue

-- What `GovernanceStore` is built with, and what it uses of its surroundings.
structure GovernanceSettings (settings : Settings) where
  limits : SlotLimits
  max_concurrent_eq : limits.max_concurrent = settings.max_concurrent_jobs_per_tenant
  rate_limit : ℕ
  sha256 : String → String
  float_repr : ℚ → String
  server : AuditServer

-- The state behind a `GovernanceStore`: the keys at the server, or the fields of the store. The
-- counters say which backend it is.
structure GovernanceState where
  counters : SlotStore
  windows : RateLimits
  log : GovernanceStore
  audit : AuditKeys

def SlotStore.shared : SlotStore → Bool
  | redis _ => true
  | memory _ => false

def RateError.raised : RateError → ServiceError
  | .PermissionError message => .PermissionError message
  | .KeyError (key, window) => .Exception s!"('{key}', {window})"

namespace GovernanceState

variable {settings : Settings} (governance : GovernanceSettings settings) (now : ℚ)
  (state : GovernanceState)

def enforce_rate_limit (principal : Principal) : Except ServiceError Unit × GovernanceState :=
  match state.counters with
  | .redis keys =>
      (RedisRate.enforce_rate_limit governance.rate_limit keys ⟨⟨principal, now⟩, .answered⟩).map id
        fun keys => { state with counters := .redis keys }
  | .memory _ =>
      (state.windows.enforce_rate_limit ⟨principal, now⟩).map (·.mapError RateError.raised)
        fun windows => { state with windows }

def acquire_job_slot (tenant_id : String) : Bool × GovernanceState :=
  (state.counters.acquire_job_slot governance.limits now tenant_id).map id
    fun counters => { state with counters }

def release_job_slot (tenant_id : String) : GovernanceState :=
  { state with counters := state.counters.release_job_slot now tenant_id }

def append_audit (call : AuditCall) (evicted : ℕ) : GovernanceState :=
  match state.counters with
  | .redis _ =>
      { state with audit := (AuditStream.append_audit governance.server governance.float_repr
          state.audit ⟨call, .answered, evicted⟩).2 }
  | .memory _ =>
      { state with log := (GovernanceStore.append_audit governance.sha256 governance.float_repr
          state.log call).2 }

-- What has been logged on the backend.
def Logs (events : List AuditEvent) : Prop :=
  match state.counters.shared with
  | false => ∃ calls,
      state.log =
        GovernanceStore.append_all governance.sha256 governance.float_repr .empty calls ∧
      calls.map AuditCall.event = events
  | true => ∃ requests : List AuditRequest,
      state.audit = AuditStream.after governance.server governance.float_repr requests ∧
      (∀ request ∈ requests, request.delivery = .answered) ∧
      requests.reverse.map (·.call.event) = events

end GovernanceState

-- The platform with its rate limits, slots and audit log as `GovernanceStore` has them.
-- Everything else is in `others`, where the slots and the audit log mean nothing.
structure GovernedPlatform (queue : Queue) where
  governance : GovernanceState
  now : ℚ
  others : Platform queue

-- The server evicts about as many of the oldest audit events as it may.
structure GovernedOutcome (queue : Queue) extends Outcome queue where
  evicted : ℕ := 0

namespace GovernedPlatform

variable {queue : Queue} {settings : Settings} (governance : GovernanceSettings settings)
  (outcome : GovernedOutcome queue) (platform : GovernedPlatform queue)

def effect : (op : ServiceOp) → op.Reply × GovernedPlatform queue
  | .enforce_rate_limit principal =>
      (platform.governance.enforce_rate_limit governance platform.now principal).map id
        fun state => { platform with governance := state }
  | .acquire_job_slot tenant_id =>
      (platform.governance.acquire_job_slot governance platform.now tenant_id).map .ok
        fun state => { platform with governance := state }
  | .release_job_slot tenant_id _ =>
      (.ok (), { platform with
        governance := platform.governance.release_job_slot platform.now tenant_id })
  | .append_audit event_type principal job_id details =>
      let call := ⟨event_type, principal, job_id, some details, outcome.time⟩
      (.ok (), { platform with
        governance := platform.governance.append_audit governance call outcome.evicted })
  | op => (platform.others.effect settings outcome.toOutcome op).map id
      fun others => { platform with others }

def exec : (op : ServiceOp) → op.Reply × GovernedPlatform queue
  | .now => platform.effect governance outcome .now
  | .uuid4 => platform.effect governance outcome .uuid4
  | op =>
      match outcome.fault with
      | some error => (.error error, platform)
      | none => platform.effect governance outcome op

end GovernedPlatform

section Counters

variable {limits : SlotLimits} {now : ℚ} {keys keys' : Dict String SlotKey} {tenant_id : String}

namespace RedisSlots

theorem get_congr {key : String} (h : keys'.get? key = keys.get? key) :
    get keys' now key = get keys now key := by
  unfold get live
  rw [h]

theorem get_of_missing {key : String} (h : keys.get? key = none) : get keys now key = none := by
  unfold get live
  rw [h]
  rfl

-- With time a counter can only go.
theorem get_later {later : ℚ} (hlater : now ≤ later) (key : String) :
    get keys later key = get keys now key ∨ get keys later key = none := by
  unfold get
  cases hlive : live keys later key with
  | none => exact .inr rfl
  | some stored =>
      obtain ⟨hstored, hunexpired⟩ := live_eq_some_iff.mp hlive
      left
      rw [live_eq_some_iff.mpr ⟨hstored, fun expires_at hmem =>
        hlater.trans (hunexpired expires_at hmem)⟩]

end RedisSlots

namespace SlotStore

theorem current_acquired (store : SlotStore) (tenant_id other : String) :
    (store.acquire_job_slot limits now tenant_id).2.current now other =
      if other = tenant_id ∧ store.current now tenant_id < limits.max_concurrent then
        store.current now tenant_id + 1
      else store.current now other := by
  cases store with
  | memory slots =>
      by_cases hfull : (slots.get? tenant_id).getD 0 ≥ (limits.max_concurrent : ℤ)
      · have hrefused : acquire_job_slot limits now tenant_id (memory slots) =
            (false, memory (slots.set tenant_id ((slots.get? tenant_id).getD 0))) := if_pos hfull
        rw [hrefused, if_neg fun h => absurd h.2 (not_lt.mpr hfull)]
        simp only [current, Dict.get?_set]
        split
        · next heq => rw [heq, Option.getD_some]
        · rfl
      · have hgranted : acquire_job_slot limits now tenant_id (memory slots) =
            (true, memory (slots.set tenant_id ((slots.get? tenant_id).getD 0 + 1))) := if_neg hfull
        rw [hgranted]
        by_cases heq : other = tenant_id
        · rw [if_pos ⟨heq, not_le.mp hfull⟩]
          simp [current, heq]
        · rw [if_neg fun h => heq h.1]
          simp [current, heq]
  | redis keys =>
      by_cases hfull :
          (RedisSlots.get keys now (slots_key tenant_id)).getD 0 ≥ (limits.max_concurrent : ℤ)
      · have hrefused : acquire_job_slot limits now tenant_id (redis keys) = (false, redis keys) :=
          congrArg (Prod.map id redis) (RedisSlots.acquire_slot_refused limits.ttl hfull)
        rw [hrefused, if_neg fun h => absurd h.2 (not_lt.mpr hfull)]
      · obtain ⟨keys', hacquired, hkeys⟩ := RedisSlots.acquire_slot_granted limits.ttl hfull
        have hgranted : acquire_job_slot limits now tenant_id (redis keys) = (true, redis keys') :=
          congrArg (Prod.map id redis) hacquired
        rw [hgranted]
        by_cases heq : other = tenant_id
        · subst heq
          have hlive : RedisSlots.live keys' now (slots_key other) =
              some ⟨(RedisSlots.get keys now (slots_key other)).getD 0 + 1,
                some (now + limits.ttl)⟩ := by
            refine RedisSlots.live_of_unexpired ((hkeys _).trans (if_pos rfl)) rfl ?_
            exact le_add_of_nonneg_right (Nat.cast_nonneg _)
          rw [if_pos ⟨rfl, not_le.mp hfull⟩, current, RedisSlots.get, hlive]
          rfl
        · rw [if_neg fun h => heq h.1, current, RedisSlots.get_congr]
          · rfl
          · rw [hkeys, if_neg (mt slots_key_inj.mp heq)]

theorem current_released (store : SlotStore) (tenant_id other : String) :
    (store.release_job_slot now tenant_id).current now other =
      if other = tenant_id then max 0 (store.current now tenant_id - 1)
      else store.current now other := by
  cases store with
  | memory slots =>
      simp only [release_job_slot, current, Dict.get?_set]
      split <;> rfl
  | redis keys =>
      simp only [release_job_slot, current]
      by_cases hlast : (RedisSlots.get keys now (slots_key tenant_id)).getD 0 ≤ 1
      · have hkeys := RedisSlots.release_slot_last hlast (slots_key other)
        split
        · next heq =>
          subst heq
          rw [max_eq_left (by omega), RedisSlots.get, RedisSlots.live, hkeys, if_pos rfl]
          rfl
        · next heq =>
          rw [RedisSlots.get_congr (hkeys.trans (if_neg (mt slots_key_inj.mp heq)))]
      · obtain ⟨stored, hlive, hkeys⟩ := RedisSlots.release_slot_counted hlast
        split
        · next heq =>
          subst heq
          have hvalue : RedisSlots.get keys now (slots_key other) = some stored.value := by
            rw [RedisSlots.get, hlive]
            rfl
          have hlive' : RedisSlots.live (RedisSlots.release_slot keys now (slots_key other)) now
              (slots_key other) = some { stored with value := stored.value - 1 } :=
            RedisSlots.live_eq_some_iff.mpr
              ⟨(hkeys _).trans (if_pos rfl), (RedisSlots.live_eq_some_iff.mp hlive).2⟩
          rw [hvalue, Option.getD_some] at hlast ⊢
          rw [max_eq_right (by omega), RedisSlots.get, hlive']
          rfl
        · next heq =>
          rw [RedisSlots.get_congr ((hkeys _).trans (if_neg (mt slots_key_inj.mp heq)))]

theorem current_later {later : ℚ} (hlater : now ≤ later) (store : SlotStore) (tenant_id : String) :
    store.current later tenant_id = store.current now tenant_id ∨
      store.current later tenant_id = 0 := by
  cases store with
  | memory slots => exact .inl rfl
  | redis keys =>
      simp only [current]
      rcases RedisSlots.get_later hlater (slots_key tenant_id) with hsame | hnone
      · exact .inl (by rw [hsame])
      · exact .inr (by rw [hnone]; rfl)

theorem shared_acquired (store : SlotStore) (tenant_id : String) :
    (store.acquire_job_slot limits now tenant_id).2.shared = store.shared := by
  cases store with
  | memory slots =>
      simp only [acquire_job_slot]
      split <;> rfl
  | redis keys => rfl

theorem shared_released (store : SlotStore) (tenant_id : String) :
    (store.release_job_slot now tenant_id).shared = store.shared := by
  cases store <;> rfl

-- The tenants that have a counter which may expire.
def tenants : SlotStore → List String
  | memory _ => []
  | redis keys => keys.entries.map fun entry =>
      String.ofList (entry.1.toList.drop "governance:slots:".length)

theorem drop_slots_key (tenant_id : String) :
    String.ofList ((slots_key tenant_id).toList.drop "governance:slots:".length) = tenant_id := by
  unfold slots_key
  rw [String.toList_append, List.drop_left' String.length_toList, String.ofList_toList]

theorem current_of_not_mem_tenants {store : SlotStore} (h : tenant_id ∉ store.tenants)
    (later : ℚ) : store.current later tenant_id = store.current now tenant_id := by
  cases store with
  | memory slots => rfl
  | redis keys =>
      have hmissing : keys.get? (slots_key tenant_id) = none := by
        rw [Option.eq_none_iff_forall_ne_some]
        intro stored hstored
        exact h (List.mem_map.mpr ⟨_, (Dict.get?_eq_some_iff _ _ _).mp hstored,
          drop_slots_key tenant_id⟩)
      exact congrArg (fun value : Option ℤ => value.getD 0)
        ((RedisSlots.get_of_missing hmissing).trans (RedisSlots.get_of_missing hmissing).symm)

end SlotStore

-- The counters of the rate limits have keys of their own.
theorem slots_key_ne (tenant_id : String) (call : RateCall) : slots_key tenant_id ≠ call.key := by
  intro heq
  have hslots : (slots_key tenant_id).toList[11]? = some 's' := by
    unfold slots_key
    rw [String.toList_append]
    exact (List.getElem?_append_left (by decide : 11 < "governance:slots:".toList.length)).trans
      (by decide)
  have hrate : call.key.toList[11]? = some 'r' := by
    unfold RateCall.key
    rw [String.append_assoc, String.append_assoc, String.toList_append]
    exact (List.getElem?_append_left (by decide : 11 < "governance:rate:".toList.length)).trans
      (by decide)
  rw [heq, hrate] at hslots
  exact absurd hslots (by decide)

theorem get?_rate_limited (limit : ℕ) (keys : Dict String SlotKey) (request : RateRequest)
    (tenant_id : String) :
    (RedisRate.enforce_rate_limit limit keys request).2.get? (slots_key tenant_id) =
      keys.get? (slots_key tenant_id) := by
  have hne := slots_key_ne tenant_id request.toRateCall
  have hlimited : ∀ now, (RedisRate.rate_limit keys now request.key 60).2.get?
      (slots_key tenant_id) = keys.get? (slots_key tenant_id) := by
    intro now
    obtain ⟨stored, hlive, -, hkeys⟩ := RedisSlots.live_add keys now request.key 1
    have hadded := (hkeys (slots_key tenant_id)).trans (if_neg hne)
    simp only [RedisRate.rate_limit]
    split
    · unfold RedisSlots.expire
      rw [hlive, Dict.get?_set, if_neg hne, hadded]
    · exact hadded
  unfold RedisRate.enforce_rate_limit
  cases request.delivery with
  | undelivered => rfl
  | unanswered | answered => exact hlimited request.time

end Counters

section Governs

variable {queue : Queue} {settings : Settings} {governance : GovernanceSettings settings}
  {outcome : GovernedOutcome queue} {platform : Platform queue} {stored : GovernedPlatform queue}
  {state state' : GovernanceState} {events : List AuditEvent}

theorem GovernanceState.Logs.append (h : state.Logs governance events) (call : AuditCall)
    (evicted : ℕ) :
    (state.append_audit governance call evicted).Logs governance (events ++ [call.event]) := by
  obtain ⟨counters, windows, log, audit⟩ := state
  cases counters with
  | memory slots =>
      obtain ⟨calls, rfl, rfl⟩ := h
      refine ⟨calls ++ [call], ?_, by simp⟩
      simp only [append_audit, GovernanceStore.append_all, List.foldl_append, List.foldl_cons,
        List.foldl_nil]
  | redis keys =>
      obtain ⟨requests, rfl, hanswered, rfl⟩ := h
      refine ⟨⟨call, .answered, evicted⟩ :: requests, rfl, ?_, by simp⟩
      rintro request (_ | ⟨_, hmem⟩)
      · rfl
      · exact hanswered request hmem

theorem GovernanceState.Logs.congr (h : state.Logs governance events)
    (hshared : state'.counters.shared = state.counters.shared) (hlog : state'.log = state.log)
    (haudit : state'.audit = state.audit) : state'.Logs governance events := by
  unfold GovernanceState.Logs
  rw [hshared, hlog, haudit]
  exact h

-- The counters say how many slots each tenant has, the log has the events, and everything
-- else is the same.
structure Governs (governance : GovernanceSettings settings) (platform : Platform queue)
    (stored : GovernedPlatform queue) : Prop where
  slots : ∀ tenant_id, stored.governance.counters.current stored.now tenant_id =
    platform.slots tenant_id
  log : stored.governance.Logs governance platform.audit
  jobs : stored.others.jobs = platform.jobs
  results : stored.others.results = platform.results
  queue : stored.others.queue = platform.queue

-- A rate limit is a matter of whether the operation raises.
theorem Governs.rate_limit (h : Governs governance platform stored) (principal : Principal) :
    Governs governance platform
      (stored.effect governance outcome (.enforce_rate_limit principal)).2 := by
  obtain ⟨⟨counters, windows, log, audit⟩, now, others⟩ := stored
  obtain ⟨hslots, hlog, hjobs, hresults, hqueue⟩ := h
  cases counters with
  | memory slots => exact ⟨hslots, hlog, hjobs, hresults, hqueue⟩
  | redis keys =>
      refine ⟨fun tenant_id => ?_, hlog, hjobs, hresults, hqueue⟩
      rw [← hslots tenant_id]
      have hkept := get?_rate_limited governance.rate_limit keys ⟨⟨principal, now⟩, .answered⟩
        tenant_id
      exact congrArg (fun value : Option ℤ => value.getD 0) (RedisSlots.get_congr hkept)

theorem Governs.acquire (h : Governs governance platform stored) (tenant_id : String) :
    (platform.effect settings outcome.toOutcome (.acquire_job_slot tenant_id)).1 =
        (stored.effect governance outcome (.acquire_job_slot tenant_id)).1 ∧
      Governs governance
        (platform.effect settings outcome.toOutcome (.acquire_job_slot tenant_id)).2
        (stored.effect governance outcome (.acquire_job_slot tenant_id)).2 := by
  have hcurrent := h.slots tenant_id
  have hacquired := @SlotStore.current_acquired governance.limits stored.now
    stored.governance.counters tenant_id
  have hlog : (stored.governance.acquire_job_slot governance stored.now tenant_id).2.Logs governance
      platform.audit := h.log.congr (SlotStore.shared_acquired _ _) rfl rfl
  have hrefused := @refused_iff governance.limits stored.now tenant_id stored.governance.counters
  rw [hcurrent, governance.max_concurrent_eq] at hrefused
  simp only [hcurrent, governance.max_concurrent_eq] at hacquired
  by_cases hfull : platform.slots tenant_id ≥ settings.max_concurrent_jobs_per_tenant
  · have hplain : platform.acquire_job_slot settings tenant_id = (false, platform) := if_pos hfull
    have hanswer := hrefused.mpr (by exact_mod_cast hfull)
    simp only [Platform.effect, GovernedPlatform.effect, GovernanceState.acquire_job_slot, hplain,
      Prod.map_fst, Prod.map_snd, hanswer, id]
    refine ⟨trivial, fun other => ?_, hlog, h.jobs, h.results, h.queue⟩
    rw [hacquired, if_neg fun hother => absurd hother.2 (by exact_mod_cast not_lt.mpr hfull)]
    exact h.slots other
  · have hplain : platform.acquire_job_slot settings tenant_id =
        (true, platform.set_slots tenant_id (platform.slots tenant_id + 1)) := if_neg hfull
    have hanswer : (stored.governance.counters.acquire_job_slot governance.limits stored.now
        tenant_id).1 = true := by
      rw [← Bool.not_eq_false, hrefused]
      exact_mod_cast hfull
    simp only [Platform.effect, GovernedPlatform.effect, GovernanceState.acquire_job_slot, hplain,
      Prod.map_fst, Prod.map_snd, hanswer, id]
    refine ⟨trivial, fun other => ?_, hlog, h.jobs, h.results, h.queue⟩
    rw [hacquired]
    by_cases hother : other = tenant_id
    · rw [if_pos ⟨hother, by exact_mod_cast not_le.mp hfull⟩, hother]
      simp [Platform.set_slots]
    · rw [if_neg fun hboth => hother hboth.1, h.slots]
      simp [Platform.set_slots, hother]

theorem Governs.release (h : Governs governance platform stored) (tenant_id : String) :
    Governs governance (platform.release_job_slot tenant_id)
      { stored with governance := stored.governance.release_job_slot stored.now tenant_id } := by
  refine ⟨fun other => ?_, h.log.congr (SlotStore.shared_released _ _) rfl rfl, h.jobs, h.results,
    h.queue⟩
  have hreleased := @SlotStore.current_released stored.now stored.governance.counters tenant_id
    other
  rw [h.slots, h.slots] at hreleased
  refine hreleased.trans ?_
  by_cases hother : other = tenant_id
  · rw [if_pos hother, hother]
    simp only [Platform.release_job_slot, Platform.set_slots, Function.update_self]
    omega
  · rw [if_neg hother]
    simp [Platform.release_job_slot, Platform.set_slots, hother]

theorem Governs.audit (h : Governs governance platform stored) {event_type : String}
    {principal : Principal} {job_id : Option String} {details : JSONObject} :
    Governs governance
      (platform.effect settings outcome.toOutcome
        (.append_audit event_type principal job_id details)).2
      (stored.effect governance outcome (.append_audit event_type principal job_id details)).2 := by
  let call : AuditCall := ⟨event_type, principal, job_id, some details, outcome.time⟩
  refine ⟨fun tenant_id => ?_, h.log.append call outcome.evicted, h.jobs, h.results, h.queue⟩
  have hcounters : (stored.governance.append_audit governance call outcome.evicted).counters =
      stored.governance.counters := by
    unfold GovernanceState.append_audit
    split <;> rfl
  exact (congrArg (SlotStore.current stored.now tenant_id) hcounters).trans (h.slots tenant_id)

theorem Governs.effect (h : Governs governance platform stored) {op : ServiceOp}
    (hop : ∀ principal, op ≠ .enforce_rate_limit principal) :
    (platform.effect settings outcome.toOutcome op).1 = (stored.effect governance outcome op).1 ∧
      Governs governance (platform.effect settings outcome.toOutcome op).2
        (stored.effect governance outcome op).2 := by
  cases op with
  | enforce_rate_limit principal => exact absurd rfl (hop principal)
  | acquire_job_slot tenant_id => exact h.acquire tenant_id
  | release_job_slot tenant_id => exact ⟨rfl, h.release tenant_id⟩
  | append_audit => exact ⟨rfl, h.audit⟩
  | jobs_set_if_absent job_id job =>
      obtain ⟨state, now, ⟨jobs, results, slots, audit, waiting⟩⟩ := stored
      obtain ⟨hslots, hlog, rfl, rfl, rfl⟩ := h
      simp only [Platform.effect, GovernedPlatform.effect, Platform.set_if_absent]
      split
      · exact ⟨rfl, hslots, hlog, rfl, rfl, rfl⟩
      · exact ⟨rfl, hslots, hlog, rfl, rfl, rfl⟩
  | _ =>
      obtain ⟨state, now, ⟨jobs, results, slots, audit, waiting⟩⟩ := stored
      obtain ⟨hslots, hlog, rfl, rfl, rfl⟩ := h
      exact ⟨rfl, hslots, hlog, rfl, rfl, rfl⟩

-- Whatever an operation comes to, it may come to on the platform.
theorem Governs.exec (h : Governs governance platform stored) (outcome : GovernedOutcome queue)
    (op : ServiceOp) :
    ∃ plain : Outcome queue,
      (platform.exec settings plain op).1 = (stored.exec governance outcome op).1 ∧
        Governs governance (platform.exec settings plain op).2
          (stored.exec governance outcome op).2 := by
  cases op with
  | now | uuid4 => exact ⟨outcome.toOutcome, h.effect fun principal hop => by cases hop⟩
  | enforce_rate_limit principal =>
      have hkept := @Governs.rate_limit queue settings governance outcome platform stored h
        principal
      simp only [GovernedPlatform.exec]
      cases hfault : outcome.fault with
      | some error =>
          refine ⟨outcome.toOutcome, ?_⟩
          simp only [Platform.exec, hfault]
          exact ⟨trivial, h⟩
      | none =>
          cases hresult : (stored.effect governance outcome (.enforce_rate_limit principal)).1 with
          | ok value =>
              refine ⟨outcome.toOutcome, ?_⟩
              simp only [Platform.exec, hfault]
              exact ⟨rfl, hkept⟩
          | error error => exact ⟨{ outcome.toOutcome with fault := some error }, rfl, hkept⟩
  | _ =>
      simp only [GovernedPlatform.exec]
      cases hfault : outcome.fault with
      | some error =>
          refine ⟨outcome.toOutcome, ?_⟩
          simp only [Platform.exec, hfault]
          exact ⟨trivial, h⟩
      | none =>
          refine ⟨outcome.toOutcome, ?_⟩
          simp only [Platform.exec, hfault]
          exact h.effect fun principal hop => by cases hop

theorem expire_slots (platform : Platform queue) (ids : List String) :
    Relation.ReflTransGen Elapse platform { platform with
      slots := fun tenant_id => if tenant_id ∈ ids then 0 else platform.slots tenant_id } := by
  induction ids generalizing platform with
  | nil => exact .refl
  | cons first rest ih =>
      refine .head (.slots_expire first) ?_
      have hrest := ih (platform.set_slots first 0)
      have hslots : (fun tenant_id => if tenant_id ∈ rest then 0
          else (platform.set_slots first 0).slots tenant_id) =
          fun tenant_id => if tenant_id ∈ first :: rest then 0 else platform.slots tenant_id := by
        funext tenant_id
        simp only [Platform.set_slots, Function.update_apply, List.mem_cons]
        split_ifs <;> tauto
      rwa [hslots] at hrest

-- The slots whose counters are gone expire one after another.
theorem Governs.clock (h : Governs governance platform stored) {now : ℚ}
    (hlater : stored.now ≤ now) :
    ∃ platform', Relation.ReflTransGen Elapse platform platform' ∧
      Governs governance platform' { stored with now } := by
  let gone := stored.governance.counters.tenants.filter fun tenant_id =>
    stored.governance.counters.current now tenant_id = 0
  refine ⟨_, expire_slots platform gone, fun tenant_id => ?_, h.log, h.jobs, h.results, h.queue⟩
  have hslots := h.slots tenant_id
  simp only [gone, List.mem_filter, decide_eq_true_eq]
  split
  · next hgone => exact hgone.2
  · next hkept =>
    rw [← hslots]
    rcases SlotStore.current_later hlater stored.governance.counters tenant_id with hsame | hzero
    · exact hsame
    · exact SlotStore.current_of_not_mem_tenants (fun hmem => hkept ⟨hmem, hzero⟩) now

-- What happens without any thread: the clock goes on, and others use other keys of the server.
-- The rest of the platform goes on by itself as before.
inductive GovernedElapse : GovernedPlatform queue → GovernedPlatform queue → Prop
  | clock {stored : GovernedPlatform queue} {now : ℚ} (hlater : stored.now ≤ now) :
      GovernedElapse stored { stored with now }
  | foreign {stored : GovernedPlatform queue} {keys keys' : Dict String SlotKey}
      (hkeys : stored.governance.counters = .redis keys)
      (h : ∀ key, "governance:".toList <+: key.toList → keys'.get? key = keys.get? key) :
      GovernedElapse stored
        { stored with governance := { stored.governance with counters := .redis keys' } }
  | others {stored : GovernedPlatform queue} {others : Platform queue}
      (h : Elapse stored.others others) : GovernedElapse stored { stored with others }

theorem Governs.foreign (h : Governs governance platform stored) {keys keys' : Dict String SlotKey}
    (hkeys : stored.governance.counters = .redis keys)
    (hforeign : ∀ key, "governance:".toList <+: key.toList → keys'.get? key = keys.get? key) :
    Governs governance platform
      { stored with governance := { stored.governance with counters := .redis keys' } } := by
  refine ⟨fun tenant_id => ?_, h.log.congr (by rw [hkeys]; rfl) rfl rfl, h.jobs, h.results,
    h.queue⟩
  have hkept := hforeign (slots_key tenant_id) ?_
  · rw [← h.slots tenant_id, hkeys]
    exact congrArg (fun value : Option ℤ => value.getD 0) (RedisSlots.get_congr hkept)
  · refine ⟨"slots:".toList ++ tenant_id.toList, ?_⟩
    unfold slots_key
    rw [String.toList_append, ← List.append_assoc]
    exact congrArg (· ++ tenant_id.toList) (by decide)

theorem Governs.elapse (h : Governs governance platform stored) {others : Platform queue}
    (helapse : Elapse stored.others others) :
    ∃ platform', Relation.ReflTransGen Elapse platform platform' ∧
      Governs governance platform' { stored with others } := by
  obtain ⟨state, now, ⟨jobs, results, slots, audit, waiting⟩⟩ := stored
  obtain ⟨hslots, hlog, rfl, rfl, rfl⟩ := h
  cases helapse with
  | job_expires job_id => exact ⟨_, .single (.job_expires job_id), hslots, hlog, rfl, rfl, rfl⟩
  | result_expires job_id =>
      exact ⟨_, .single (.result_expires job_id), hslots, hlog, rfl, rfl, rfl⟩
  | slots_expire tenant_id => exact ⟨platform, .refl, hslots, hlog, rfl, rfl, rfl⟩
  | queue state => exact ⟨_, .single (.queue state), hslots, hlog, rfl, rfl, rfl⟩

end Governs

section Pools

variable {ι : Type} [DecidableEq ι] {queue : Queue} {settings : Settings}
  {governance : GovernanceSettings settings}

abbrev GovernedPool (ι : Type) (queue : Queue) :=
  Pool ι ServiceOp ServiceOp.Reply (GovernedPlatform queue) ServiceError Answer

def governed_perform (governance : GovernanceSettings settings) (outcome : GovernedOutcome queue)
    (_ : ι) (stored : GovernedPlatform queue) (op : ServiceOp) :
    op.Reply × GovernedPlatform queue :=
  stored.exec governance outcome op

def governed_step (governance : GovernanceSettings settings) (thread : ι)
    (stored : GovernedPlatform queue) (op : ServiceOp) (reply : op.Reply)
    (stored' : GovernedPlatform queue) : Prop :=
  ∃ outcome, governed_perform governance outcome thread stored op = (reply, stored')

-- What any threads do under the rate limits, slot counters and audit log of `GovernanceStore`,
-- on either backend and with counters that expire, they do on the platform: the same
-- operations with the same answers, with as many slots and the same events.
theorem governance_refines {start : ServicePool ι queue} {start' pool' : GovernedPool ι queue}
    (hrun : Run (governed_step governance) GovernedElapse Unrestricted start' pool')
    (hstart : Alike (Governs governance) start start') :
    ∃ pool, Run (service_step settings) Elapse Unrestricted start pool ∧
      Alike (Governs governance) pool pool' := by
  refine Run.refines ?_ ?_ hrun hstart
  · rintro thread platform stored op reply stored' hgoverns ⟨outcome, hexec⟩ -
    obtain ⟨plain, hreply, hnext⟩ := hgoverns.exec outcome op
    rw [show stored.exec governance outcome op = (reply, stored') from hexec] at hreply hnext
    exact ⟨_, ⟨plain, Prod.ext hreply rfl⟩, hnext⟩
  · intro platform stored stored' hgoverns helapse
    cases helapse with
    | clock hlater => exact hgoverns.clock hlater
    | foreign hkeys hforeign => exact ⟨platform, .refl, hgoverns.foreign hkeys hforeign⟩
    | others hothers => exact hgoverns.elapse hothers

def GovernanceSettings.small : GovernanceSettings .small where
  limits := two_slots
  max_concurrent_eq := rfl
  rate_limit := 10
  sha256 := id
  float_repr := toString
  server := .sample

def unused_platform : Platform (job_queue .default) := .empty (Backend.memory .empty)

def three_submissions : Fin 3 → Activity := fun _ => small_submission

def submissions_pool : GovernedPool (Fin 3) (job_queue .default) :=
  ⟨⟨⟨⟨.redis .empty, { rate_limit := 10 }, .empty, {}⟩, 1000, unused_platform⟩, []⟩,
    fun thread => (three_submissions thread).program .small⟩

-- One submission from its beginning to its end.
def submitting (thread : Fin 3) (uuid : String) :
    List (Fin 3 × GovernedOutcome (job_queue .default)) :=
  List.replicate 8 (thread, { Outcome.at 1000 with uuid })

def both_submitted : GovernedPool (Fin 3) (job_queue .default) :=
  submissions_pool.schedule (governed_perform .small)
    (submitting 0 "first" ++ submitting 1 "second")

def minute_later : GovernedPool (Fin 3) (job_queue .default) :=
  ⟨⟨{ both_submitted.world.state with now := both_submitted.world.state.now + 61 },
    both_submitted.world.trace⟩, both_submitted.threads⟩

def all_submitted : GovernedPool (Fin 3) (job_queue .default) :=
  minute_later.schedule (governed_perform .small) (submitting 2 "third")

-- The tenant may have two jobs at a time. When the counter has expired it has a third, and the
-- counter says one.
theorem governance_refines_expired : ∃ pool : ServicePool (Fin 3) (job_queue .default),
    Run (service_step .small) Elapse Unrestricted
        (ServicePool.start .small unused_platform three_submissions) pool ∧
      pool.world.state.jobs.entries.length = 3 ∧ pool.world.state.slots "tenant" = 1 := by
  have hstart : Alike (Governs .small)
      (ServicePool.start .small unused_platform three_submissions) submissions_pool :=
    ⟨rfl, rfl, fun _ => rfl, ⟨[], rfl, List.forall_mem_nil _, rfl⟩, rfl, rfl, rfl⟩
  have hboth : Run (governed_step .small) GovernedElapse Unrestricted submissions_pool
      both_submitted :=
    .schedule (fun outcome _ _ _ => ⟨outcome, rfl⟩) .start _ (respects_unrestricted _ _)
  have hlater : Run (governed_step .small) GovernedElapse Unrestricted submissions_pool
      minute_later :=
    .step hboth (.environment (.clock (le_add_of_nonneg_right (by norm_num)))) trivial
  have hall : Run (governed_step .small) GovernedElapse Unrestricted submissions_pool
      all_submitted :=
    .schedule (fun outcome _ _ _ => ⟨outcome, rfl⟩) hlater _ (respects_unrestricted _ _)
  obtain ⟨pool, hrun, halike⟩ := governance_refines hall hstart
  refine ⟨pool, hrun, ?_, ?_⟩
  · rw [← halike.state.jobs]
    decide +kernel
  · have hslots := halike.state.slots "tenant"
    have hcurrent : all_submitted.world.state.governance.counters.current
        all_submitted.world.state.now "tenant" = 1 := by decide +kernel
    rw [hcurrent] at hslots
    exact_mod_cast hslots.symm

end Pools

end ResearchAgent.Service
