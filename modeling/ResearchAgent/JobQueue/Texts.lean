import ResearchAgent.JobQueue.RedisRefinement
import ResearchAgent.Library.Simulation
import ResearchAgent.Research.RoundTrips

namespace ResearchAgent.JobQueue

open Library Service Research

section Texts

variable (interpreter : Interpreter) (float_repr : ℚ → String)

-- `json.dumps` with sorted keys, as Redis stores it.
def encode (value : JSONValue) : JSONValue := .str (dumps .compact float_repr value)

-- `json.loads` of what Redis has stored. What cannot be read is no object.
def read_raw : JSONValue → JSONValue
  | .str text =>
      match interpreter.loads text with
      | .value value => value
      | _ => .null
  | _ => .null

def Script.encoded : Script → Script
  | .enqueue ready_key job_id value ttl => .enqueue ready_key job_id (encode float_repr value) ttl
  | .retry inflight_key leases_key scheduled_key job_id value retry_at =>
      .retry inflight_key leases_key scheduled_key job_id (encode float_repr value) retry_at
  | .dead inflight_key leases_key dead_key job_id value =>
      .dead inflight_key leases_key dead_key job_id (encode float_repr value)
  | .recover inflight_key leases_key destination job_id value =>
      .recover inflight_key leases_key destination job_id (encode float_repr value)
  | script => script

-- The server as it is, with texts in the hash of the envelopes.
def Redis.exec_texts (redis : Redis) : (command : Command) → command.Reply × Redis
  | .eval script => (script.encoded float_repr).run redis
  | .hget job_id => ((redis.envelopes.get? job_id).map (read_raw interpreter), redis)
  | .hset job_id value => ((), redis.hset job_id (encode float_repr value))
  | command => redis.exec command

def Redis.timed_exec_texts (timed : Redis.Timed) :
    (command : Command) → command.Reply × Redis.Timed
  | .clock => (timed.1.now, Redis.tick timed)
  | command => ((timed.1.exec_texts interpreter float_repr command).1,
      (timed.1.exec_texts interpreter float_repr command).2, timed.2)

def Redis.call_texts (cfg : Config) (moment : Moment) (redis : Redis) (call : QueueCall) :
    Except QueueError QueueReply × Redis :=
  ((call.on_redis cfg).run (Redis.timed_exec_texts interpreter float_repr)
    ({ redis with now := moment.now }, moment.later)).map id Prod.fst

end Texts

section Restorable

variable {interpreter : Interpreter} {float_repr : ℚ → String} {bound bound' : ℕ}
  {envelope : JobEnvelope} {time : ℚ}

-- An envelope of times that are read back and of a request in the order of its keys, which
-- was claimed `bound` times at most.
structure Restorable (interpreter : Interpreter) (float_repr : ℚ → String) (bound : ℕ)
    (envelope : JobEnvelope) : Prop where
  request : Legible interpreter float_repr (interpreter.depth - 1) (.dict envelope.request)
  arranged : arranged .compact (.dict envelope.request) = .dict envelope.request
  attempt : envelope.attempt.natAbs ≤ bound
  enqueued_at : ReadsBack interpreter float_repr envelope.enqueued_at
  retry_at : ∀ time ∈ envelope.retry_at, ReadsBack interpreter float_repr time

theorem Restorable.mono (h : Restorable interpreter float_repr bound envelope)
    (hle : bound ≤ bound') : Restorable interpreter float_repr bound' envelope :=
  { h with attempt := h.attempt.trans hle }

-- The fields are written in the order of their names.
theorem arranged_to_json (envelope : JobEnvelope) :
    ∃ request, arranged .compact (.dict envelope.request) = .dict request ∧
      arranged .compact envelope.to_json = { envelope with request }.to_json := by
  refine ⟨_, rfl, ?_⟩
  unfold JobEnvelope.to_json
  rw [arranged, arranged_entries_eq, arrange_of_sorted (by simp)]
  rcases envelope with ⟨job_id, request, principal_id, tenant_id, attempt, enqueued_at,
    retry_at, last_error⟩
  cases retry_at <;> cases last_error <;> rfl

theorem legible_to_json (h : Restorable interpreter float_repr bound envelope)
    (hbound : bound < 10 ^ MAX_STR_DIGITS) :
    Legible interpreter float_repr interpreter.depth envelope.to_json := by
  have hrequest := h.request
  have hdepth : 0 < interpreter.depth - 1 := by
    generalize interpreter.depth - 1 = depth at hrequest
    cases hrequest
    exact Nat.succ_pos _
  have hattempt : (Nat.toDigits 10 envelope.attempt.natAbs).length ≤ MAX_STR_DIGITS :=
    (Nat.length_toDigits_le_iff (by decide) (by decide)).mpr (h.attempt.trans_lt hbound)
  have hlegible : Legible interpreter float_repr (interpreter.depth - 1 + 1) envelope.to_json := by
    refine .dict (by simp) ?_
    simp only [List.forall_mem_cons, List.not_mem_nil, false_imp_iff, implies_true, and_true]
    refine ⟨.int hattempt, .float h.enqueued_at, .str _, ?_, .str _, hrequest, ?_, .str _⟩
    · cases envelope.last_error with
      | none => exact .null
      | some error => exact .str error
    · cases hretry : envelope.retry_at with
      | none => exact .null
      | some time => exact .float (h.retry_at time hretry)
  rwa [Nat.sub_add_cancel (by omega)] at hlegible

-- What is read of an envelope is the envelope.
theorem read_raw_encode (h : Restorable interpreter float_repr bound envelope)
    (hbound : bound < 10 ^ MAX_STR_DIGITS) :
    read_raw interpreter (encode float_repr envelope.to_json) = envelope.to_json := by
  obtain ⟨request, hrequest, harranged⟩ := arranged_to_json envelope
  rw [h.arranged] at hrequest
  cases hrequest
  simp only [read_raw, encode, loads_dumps compact_spaced (legible_to_json h hbound)]
  exact harranged

end Restorable

section Encoded

variable {interpreter : Interpreter} {float_repr : ℚ → String} {bound bound' : ℕ}
  {redis texts : Redis} {ok : ℚ≥0 → Prop}

def RestorableValue (interpreter : Interpreter) (float_repr : ℚ → String) (bound : ℕ)
    (value : JSONValue) : Prop :=
  ∃ envelope, value = JobEnvelope.to_json envelope ∧
    Restorable interpreter float_repr bound envelope

-- `texts` is `redis` with every envelope as a text.
structure Encoded (interpreter : Interpreter) (float_repr : ℚ → String) (bound : ℕ)
    (redis texts : Redis) : Prop where
  now : texts.now = redis.now
  known : texts.known = redis.known
  lists : texts.lists = redis.lists
  zsets : texts.zsets = redis.zsets
  envelopes : ∀ job_id, texts.envelopes.get? job_id =
    (redis.envelopes.get? job_id).map (encode float_repr)
  kept : ∀ job_id, ∀ value ∈ redis.envelopes.get? job_id,
    RestorableValue interpreter float_repr bound value

theorem RestorableValue.mono {value : JSONValue}
    (h : RestorableValue interpreter float_repr bound value) (hle : bound ≤ bound') :
    RestorableValue interpreter float_repr bound' value := by
  obtain ⟨envelope, rfl, hrestorable⟩ := h
  exact ⟨envelope, rfl, hrestorable.mono hle⟩

namespace Encoded

theorem mono (h : Encoded interpreter float_repr bound redis texts) (hle : bound ≤ bound') :
    Encoded interpreter float_repr bound' redis texts :=
  { h with kept := fun job_id value hvalue => (h.kept job_id value hvalue).mono hle }

theorem empty (now : ℚ≥0) :
    Encoded interpreter float_repr bound (Redis.empty now) (Redis.empty now) := by
  refine ⟨rfl, rfl, rfl, rfl, fun _ => rfl, ?_⟩
  rintro _ _ ⟨⟩

theorem at_time (h : Encoded interpreter float_repr bound redis texts) (now : ℚ≥0) :
    Encoded interpreter float_repr bound { redis with now } { texts with now } :=
  { h with now := rfl }

theorem set_known (h : Encoded interpreter float_repr bound redis texts) (job_id : String)
    (ttl : ℤ) :
    Encoded interpreter float_repr bound (redis.set_known job_id ttl)
      (texts.set_known job_id ttl) :=
  { h with known := by simp [Redis.set_known, h.known, h.now] }

theorem lpush (h : Encoded interpreter float_repr bound redis texts) (key : ListKey)
    (job_id : String) :
    Encoded interpreter float_repr bound (redis.lpush key job_id) (texts.lpush key job_id) :=
  { h with lists := by simp [Redis.lpush, h.lists] }

theorem rpop (h : Encoded interpreter float_repr bound redis texts) (key : ListKey) :
    Encoded interpreter float_repr bound (redis.rpop key) (texts.rpop key) :=
  { h with lists := by simp [Redis.rpop, h.lists] }

theorem lrem (h : Encoded interpreter float_repr bound redis texts) (key : ListKey)
    (job_id : String) :
    Encoded interpreter float_repr bound (redis.lrem key job_id) (texts.lrem key job_id) :=
  { h with lists := by simp [Redis.lrem, h.lists] }

theorem zadd (h : Encoded interpreter float_repr bound redis texts) (key : ZSetKey)
    (job_id : String) (score : ℚ) :
    Encoded interpreter float_repr bound (redis.zadd key job_id score)
      (texts.zadd key job_id score) :=
  { h with zsets := by simp [Redis.zadd, h.zsets] }

theorem zrem (h : Encoded interpreter float_repr bound redis texts) (key : ZSetKey)
    (job_id : String) :
    Encoded interpreter float_repr bound (redis.zrem key job_id) (texts.zrem key job_id) :=
  { h with zsets := by simp [Redis.zrem, h.zsets] }

theorem hset (h : Encoded interpreter float_repr bound redis texts) (job_id : String)
    {value : JSONValue} (hvalue : RestorableValue interpreter float_repr bound value) :
    Encoded interpreter float_repr bound (redis.hset job_id value)
      (texts.hset job_id (encode float_repr value)) := by
  refine { h with envelopes := fun other => ?_, kept := fun other => ?_ }
  · simp only [Redis.hset_envelopes, Dict.get?_set, h.envelopes]
    split_ifs <;> rfl
  · simp only [Redis.hset_envelopes, Dict.get?_set]
    split_ifs
    · rintro _ ⟨⟩
      exact hvalue
    · exact h.kept other

theorem hdel (h : Encoded interpreter float_repr bound redis texts) (job_id : String) :
    Encoded interpreter float_repr bound (redis.hdel job_id) (texts.hdel job_id) := by
  refine { h with envelopes := fun other => ?_, kept := fun other => ?_ }
  · simp only [Redis.hdel_envelopes, Dict.get?_erase, h.envelopes]
    split_ifs <;> rfl
  · simp only [Redis.hdel_envelopes, Dict.get?_erase]
    split_ifs
    · rintro _ ⟨⟩
    · exact h.kept other

-- What a script stores in the hash of the envelopes.
def stores : Script → Option JSONValue
  | .enqueue _ _ value _ | .retry _ _ _ _ value _ | .dead _ _ _ _ value
  | .recover _ _ _ _ value => some value
  | _ => none

-- A script changes both servers or neither.
theorem guarded (h : Encoded interpreter float_repr bound redis texts) {redis' texts' : Redis}
    (h' : Encoded interpreter float_repr bound redis' texts') (guard : Prop) [Decidable guard] :
    (if guard then (true, texts') else (false, texts)).1 =
        (if guard then (true, redis') else (false, redis)).1 ∧
      Encoded interpreter float_repr bound (if guard then (true, redis') else (false, redis)).2
        (if guard then (true, texts') else (false, texts)).2 := by
  split_ifs
  · exact ⟨rfl, h'⟩
  · exact ⟨rfl, h⟩

theorem script (h : Encoded interpreter float_repr bound redis texts) {script : Script}
    (hvalue : ∀ value ∈ stores script, RestorableValue interpreter float_repr bound value) :
    ((script.encoded float_repr).run texts).1 = (script.run redis).1 ∧
      Encoded interpreter float_repr bound (script.run redis).2
        ((script.encoded float_repr).run texts).2 := by
  cases script with
  | enqueue ready_key job_id value ttl =>
      have hknown : texts.exists_known job_id = redis.exists_known job_id := by
        simp only [Redis.exists_known, h.known, h.now]
      have hstored :=
        ((h.set_known job_id ttl).hset job_id (hvalue value rfl)).lpush ready_key job_id
      simp only [Script.encoded, Script.run, hknown]
      cases redis.exists_known job_id with
      | true => exact ⟨rfl, h⟩
      | false => exact ⟨rfl, hstored⟩
  | ack inflight_key leases_key job_id =>
      simp only [Script.encoded, Script.run, h.lists]
      exact h.guarded (((h.lrem inflight_key job_id).zrem leases_key job_id).hdel job_id) _
  | retry inflight_key leases_key scheduled_key job_id value retry_at =>
      have hmoved := ((h.lrem inflight_key job_id).zrem leases_key job_id).hset job_id
        (hvalue value rfl)
      simp only [Script.encoded, Script.run, h.lists]
      exact h.guarded (hmoved.zadd scheduled_key job_id retry_at) _
  | dead inflight_key leases_key dead_key job_id value =>
      have hmoved := ((h.lrem inflight_key job_id).zrem leases_key job_id).hset job_id
        (hvalue value rfl)
      simp only [Script.encoded, Script.run, h.lists]
      exact h.guarded (hmoved.lpush dead_key job_id) _
  | recover inflight_key leases_key destination job_id value =>
      have hmoved := ((h.lrem inflight_key job_id).zrem leases_key job_id).hset job_id
        (hvalue value rfl)
      simp only [Script.encoded, Script.run, h.lists]
      exact h.guarded (hmoved.lpush destination job_id) _
  | promote scheduled_key ready_key job_id =>
      simp only [Script.encoded, Script.run, h.zsets]
      exact h.guarded ((h.zrem scheduled_key job_id).lpush ready_key job_id) _
  | renew leases_key job_id lease_until =>
      simp only [Script.encoded, Script.run, h.zsets]
      exact h.guarded (h.zadd leases_key job_id lease_until) _
  | remove_dead dead_key job_id =>
      simp only [Script.encoded, Script.run, h.lists]
      exact h.guarded ((h.lrem dead_key job_id).hdel job_id) _

end Encoded

-- The two servers with the same readings of the clock to come.
structure EncodedAt (interpreter : Interpreter) (float_repr : ℚ → String) (ok : ℚ≥0 → Prop)
    (bound : ℕ) (timed texts : Redis.Timed) : Prop where
  encoded : Encoded interpreter float_repr bound timed.1 texts.1
  later : texts.2 = timed.2
  readings : Redis.Reads ok timed

-- What a client may store, and what it may be told.
def Stores (interpreter : Interpreter) (float_repr : ℚ → String) (bound : ℕ) :
    Command → Prop
  | .eval script =>
      ∀ value ∈ Encoded.stores script, RestorableValue interpreter float_repr bound value
  | .hset _ value => RestorableValue interpreter float_repr bound value
  | _ => True

def Told (interpreter : Interpreter) (float_repr : ℚ → String) (ok : ℚ≥0 → Prop) (bound : ℕ) :
    (command : Command) → command.Reply → Prop
  | .clock, now => ok now
  | .hget _, raw => ∀ value ∈ raw, RestorableValue interpreter float_repr bound value
  | _, _ => True

theorem timed_step {timed texts : Redis.Timed} (hbound : bound < 10 ^ MAX_STR_DIGITS)
    (h : EncodedAt interpreter float_repr ok bound timed texts) {command : Command}
    (hstores : Stores interpreter float_repr bound command) :
    (Redis.timed_exec_texts interpreter float_repr texts command).1 =
        (Redis.timed_exec timed command).1 ∧
      EncodedAt interpreter float_repr ok bound (Redis.timed_exec timed command).2
        (Redis.timed_exec_texts interpreter float_repr texts command).2 ∧
      Told interpreter float_repr ok bound command (Redis.timed_exec timed command).1 := by
  have hreadings := h.readings.exec command
  obtain ⟨redis, later⟩ := timed
  obtain ⟨texts, later'⟩ := texts
  obtain ⟨hencoded, hlater, hclock⟩ := h
  cases hlater
  have hencoded : Encoded interpreter float_repr bound redis texts := hencoded
  cases command with
  | clock =>
      refine ⟨hencoded.now, ?_, hclock.1⟩
      cases later with
      | nil => exact ⟨hencoded, rfl, hreadings⟩
      | cons now later => exact ⟨hencoded.at_time now, rfl, hreadings⟩
  | eval script =>
      obtain ⟨hreply, hnext⟩ := hencoded.script hstores
      exact ⟨hreply, ⟨hnext, rfl, hreadings⟩, trivial⟩
  | hget job_id =>
      refine ⟨?_, ⟨hencoded, rfl, hreadings⟩, hencoded.kept job_id⟩
      refine (congrArg (Option.map (read_raw interpreter)) (hencoded.envelopes job_id)).trans ?_
      cases hvalue : redis.envelopes.get? job_id with
      | none => exact hvalue.symm
      | some value =>
          obtain ⟨envelope, rfl, hrestorable⟩ := hencoded.kept job_id value hvalue
          refine Eq.trans ?_ hvalue.symm
          exact congrArg some (read_raw_encode hrestorable hbound)
  | hset job_id value => exact ⟨rfl, ⟨hencoded.hset job_id hstores, rfl, hreadings⟩, trivial⟩
  | lrem key job_id => exact ⟨rfl, ⟨hencoded.lrem key job_id, rfl, hreadings⟩, trivial⟩
  | zadd key job_id score =>
      exact ⟨rfl, ⟨hencoded.zadd key job_id score, rfl, hreadings⟩, trivial⟩
  | lrange key =>
      exact ⟨congrFun hencoded.lists key, ⟨hencoded, rfl, hreadings⟩, trivial⟩
  | llen key =>
      exact ⟨congrArg List.length (congrFun hencoded.lists key), ⟨hencoded, rfl, hreadings⟩,
        trivial⟩
  | zscore key job_id =>
      refine ⟨?_, ⟨hencoded, rfl, hreadings⟩, trivial⟩
      exact congrArg (fun zsets => Dict.get? (zsets key) job_id) hencoded.zsets
  | zrangebyscore key maximum =>
      refine ⟨?_, ⟨hencoded, rfl, hreadings⟩, trivial⟩
      simp only [Redis.timed_exec_texts, Redis.timed_exec, Redis.exec_texts, Redis.exec,
        Redis.zrangebyscore, hencoded.zsets]
  | brpoplpush source destination =>
      simp only [Redis.timed_exec_texts, Redis.timed_exec, Redis.exec_texts, Redis.exec,
        hencoded.lists] at hreadings ⊢
      cases hlast : (redis.lists source).getLast? with
      | none =>
          rw [hlast] at hreadings
          exact ⟨rfl, ⟨hencoded, rfl, hreadings⟩, trivial⟩
      | some job_id =>
          rw [hlast] at hreadings
          exact ⟨rfl, ⟨(hencoded.rpop source).lpush destination job_id, rfl, hreadings⟩, trivial⟩

end Encoded

section OnTexts

variable {interpreter : Interpreter} {float_repr : ℚ → String} {ok : ℚ≥0 → Prop}
  {bound bound' : ℕ} {α β : Type} {cfg : Config} {envelope : JobEnvelope}

-- The program does the same with the texts as with the values.
def OnTexts (interpreter : Interpreter) (float_repr : ℚ → String) (ok : ℚ≥0 → Prop)
    (bound bound' : ℕ) (post : α → Prop) (program : QueueProgram α) : Prop :=
  program.Simulates Redis.timed_exec (Redis.timed_exec_texts interpreter float_repr)
    (EncodedAt interpreter float_repr ok bound) (EncodedAt interpreter float_repr ok bound') post

theorem EncodedAt.mono (hle : bound ≤ bound') (timed texts : Redis.Timed)
    (h : EncodedAt interpreter float_repr ok bound timed texts) :
    EncodedAt interpreter float_repr ok bound' timed texts :=
  { h with encoded := h.encoded.mono hle }

theorem OnTexts.ret {value : α} {post : α → Prop} (h : post value) :
    OnTexts interpreter float_repr ok bound bound post (.ret value) :=
  Program.Simulates.ret h fun _ _ => id

theorem OnTexts.raise {error : QueueError} {post : α → Prop} (hle : bound ≤ bound') :
    OnTexts interpreter float_repr ok bound bound' post (.raise error) :=
  Program.Simulates.raise (EncodedAt.mono hle)

theorem OnTexts.call {command : Command} {next : command.Reply → QueueProgram α} {post : α → Prop}
    (hbound : bound < 10 ^ MAX_STR_DIGITS) (hstores : Stores interpreter float_repr bound command)
    (hnext : ∀ reply, Told interpreter float_repr ok bound command reply →
      OnTexts interpreter float_repr ok bound bound' post (next reply)) :
    OnTexts interpreter float_repr ok bound bound' post (.call command next) :=
  Program.Simulates.call (fun _ _ h => timed_step hbound h hstores) hnext

theorem OnTexts.bind {between : β → Prop} {post : α → Prop} {first : QueueProgram β}
    {rest : β → QueueProgram α} (h : OnTexts interpreter float_repr ok bound bound between first)
    (hle : bound ≤ bound') (hrest : ∀ value, between value →
      OnTexts interpreter float_repr ok bound bound' post (rest value)) :
    OnTexts interpreter float_repr ok bound bound' post (first >>= rest) :=
  Program.Simulates.bind h (EncodedAt.mono hle) hrest

-- Whatever was stored is decoded as the envelope that it is.
theorem OnTexts.decode {value : JSONValue} {failure : String}
    (h : RestorableValue interpreter float_repr bound value) :
    OnTexts interpreter float_repr ok bound bound (Restorable interpreter float_repr bound)
      (RedisQueue.decode failure value) := by
  obtain ⟨envelope, rfl, hrestorable⟩ := h
  rw [RedisQueue.decode_to_json]
  exact .ret hrestorable

section Calls

variable (hbound : bound < 10 ^ MAX_STR_DIGITS)

include hbound

theorem on_texts_recover_expired (ids : List String) (recovered : ℕ) :
    OnTexts interpreter float_repr ok bound bound (fun _ => True)
      (RedisQueue.recover_expired cfg ids recovered) := by
  induction ids generalizing recovered with
  | nil => exact .ret trivial
  | cons job_id rest ih =>
      refine .call hbound trivial fun raw hraw => ?_
      cases raw with
      | none => exact ih recovered
      | some raw =>
          refine (OnTexts.decode (hraw raw rfl)).bind le_rfl fun envelope hrestorable => ?_
          refine .call hbound ?_ fun moved _ => ih _
          rintro _ ⟨⟩
          exact ⟨_, rfl, { hrestorable with }⟩

theorem on_texts_missing_leases (ids expired : List String) :
    OnTexts interpreter float_repr ok bound bound (fun _ => True)
      (RedisQueue.missing_leases ids expired) := by
  induction ids generalizing expired with
  | nil => exact .ret trivial
  | cons job_id rest ih => exact .call hbound trivial fun score _ => ih _

theorem on_texts_recover_stale (set_order : SetOrder) :
    OnTexts interpreter float_repr ok bound bound (fun _ => True)
      (RedisQueue.recover_stale cfg set_order) := by
  refine .call hbound trivial fun now _ => .call hbound trivial fun expired _ =>
    .call hbound trivial fun inflight _ => ?_
  exact (on_texts_missing_leases hbound inflight expired).bind le_rfl fun expired _ =>
    on_texts_recover_expired hbound _ 0

theorem on_texts_promote_due :
    OnTexts interpreter float_repr ok bound bound (fun _ => True) RedisQueue.promote_due := by
  refine .call hbound trivial fun now _ => .call hbound trivial fun due _ => ?_
  induction due with
  | nil => exact .ret trivial
  | cons job_id rest ih => exact .call hbound (by rintro _ ⟨⟩) fun _ _ => ih trivial

theorem on_texts_ack (envelope : JobEnvelope) :
    OnTexts interpreter float_repr ok bound bound (fun _ => True) (RedisQueue.ack envelope) :=
  .call hbound (by rintro _ ⟨⟩) fun _ _ => .ret trivial

theorem on_texts_renew (envelope : JobEnvelope) :
    OnTexts interpreter float_repr ok bound bound (fun _ => True)
      (RedisQueue.renew cfg envelope) :=
  .call hbound trivial fun _ _ => .call hbound (by rintro _ ⟨⟩) fun _ _ => .ret trivial

theorem on_texts_remove_dead_letter (envelope : JobEnvelope) :
    OnTexts interpreter float_repr ok bound bound (fun _ => True)
      (RedisQueue.remove_dead_letter envelope) :=
  .call hbound (by rintro _ ⟨⟩) fun _ _ => .ret trivial

theorem on_texts_dead_letters :
    OnTexts interpreter float_repr ok bound bound (fun _ => True) RedisQueue.dead_letters := by
  refine .call hbound trivial fun ids _ => ?_
  suffices hread : ∀ result, OnTexts interpreter float_repr ok bound bound (fun _ => True)
      (RedisQueue.read_envelopes ids result) from hread []
  intro result
  induction ids generalizing result with
  | nil => exact .ret trivial
  | cons job_id rest ih =>
      refine .call hbound trivial fun raw hraw => ?_
      cases raw with
      | none => exact ih trivial result
      | some raw =>
          exact (OnTexts.decode (hraw raw rfl)).bind le_rfl fun envelope _ => ih trivial _

theorem on_texts_enqueue {job_id principal_id tenant_id : String} {request : JSONObject}
    (hrequest : Legible interpreter float_repr (interpreter.depth - 1) (.dict request))
    (harranged : arranged .compact (.dict request) = .dict request)
    (hok : ∀ now, ok now → ReadsBack interpreter float_repr now) :
    OnTexts interpreter float_repr ok bound bound (fun _ => True)
      (RedisQueue.enqueue cfg job_id request principal_id tenant_id) := by
  unfold RedisQueue.enqueue
  split
  · exact .raise le_rfl
  · refine .call hbound trivial fun now hnow => .call hbound ?_ fun _ _ => .ret trivial
    rintro _ ⟨⟩
    refine ⟨_, rfl, hrequest, harranged, Nat.zero_le _, hok now hnow, ?_⟩
    rintro _ ⟨⟩

theorem on_texts_dead_letter
    (hrestorable : Restorable interpreter float_repr bound { envelope with retry_at := none })
    (error : String) :
    OnTexts interpreter float_repr ok bound bound (fun _ => True)
      (RedisQueue.dead_letter envelope error) := by
  refine .call hbound ?_ fun moved _ => ?_
  · rintro _ ⟨⟩
    exact ⟨_, rfl, { hrestorable with }⟩
  · cases moved with
    | true => exact .ret trivial
    | false => exact .raise le_rfl

theorem on_texts_retry
    (hrestorable : Restorable interpreter float_repr bound { envelope with retry_at := none })
    (hok : ∀ now, ok now → ReadsBack interpreter float_repr (cfg.retry_at now envelope))
    (error : String) :
    OnTexts interpreter float_repr ok bound bound (fun _ => True)
      (RedisQueue.retry cfg envelope error) := by
  unfold RedisQueue.retry
  split
  · exact (on_texts_dead_letter hbound hrestorable error).bind le_rfl fun _ _ => .ret trivial
  · refine .call hbound trivial fun now hnow => .call hbound ?_ fun moved _ => ?_
    · rintro _ ⟨⟩
      refine ⟨_, rfl, { hrestorable with retry_at := ?_ }⟩
      rintro _ ⟨⟩
      exact hok now hnow
    · cases moved with
      | true => exact .ret trivial
      | false => exact .raise le_rfl

end Calls

-- A claim counts one attempt more.
theorem on_texts_claim (hbound : bound + 1 < 10 ^ MAX_STR_DIGITS) {set_order : SetOrder}
    {timeout : ℚ} :
    OnTexts interpreter float_repr ok bound (bound + 1) (fun _ => True)
      (RedisQueue.claim cfg set_order timeout) := by
  have hlast : bound < 10 ^ MAX_STR_DIGITS := Nat.lt_of_succ_lt hbound
  unfold RedisQueue.claim
  split
  · exact .raise (Nat.le_succ _)
  · refine (on_texts_recover_stale hlast set_order).bind (Nat.le_succ _) fun _ _ => ?_
    refine (on_texts_promote_due hlast).bind (Nat.le_succ _) fun _ _ => ?_
    refine .call hlast trivial fun raw_id _ => ?_
    cases raw_id with
    | none => exact (OnTexts.ret trivial).mono (EncodedAt.mono (Nat.le_succ _)) fun _ => id
    | some job_id =>
        refine .call hlast trivial fun raw hraw => ?_
        cases raw with
        | none => exact .call hlast trivial fun _ _ => .raise (Nat.le_succ _)
        | some raw =>
            refine (OnTexts.decode (hraw raw rfl)).bind (Nat.le_succ _)
              fun envelope hrestorable => ?_
            have hattempt : (envelope.attempt + 1).natAbs ≤ bound + 1 := by
              have := hrestorable.attempt
              omega
            have hclaimed : Restorable interpreter float_repr (bound + 1)
                { envelope with attempt := envelope.attempt + 1, retry_at := none } :=
              { hrestorable with attempt := hattempt, retry_at := by rintro _ ⟨⟩ }
            intro timed texts hencoded
            refine (?_ : OnTexts interpreter float_repr ok (bound + 1) (bound + 1) (fun _ => True)
              (RedisQueue.set_lease cfg job_id envelope)) timed texts
              (hencoded.mono (Nat.le_succ _))
            exact .call hbound ⟨_, rfl, hclaimed⟩ fun _ _ => .call hbound trivial fun _ _ =>
              .call hbound trivial fun _ _ => .ret trivial

end OnTexts

section Runs

variable {interpreter : Interpreter} {float_repr : ℚ → String} {cfg : Config} {bound : ℕ}
  {moment : Moment} {redis texts : Redis}

-- The request in the order in which it is written.
def sorted_request (request : JSONObject) : JSONObject :=
  arrange .compact (arranged_entries .compact request)

def QueueCall.sorted : QueueCall → QueueCall
  | .enqueue job_id request principal_id tenant_id =>
      .enqueue job_id (sorted_request request) principal_id tenant_id
  | .retry envelope error =>
      .retry { envelope with request := sorted_request envelope.request } error
  | call => call

-- What comes with a call can be written and read back.
def Fits (interpreter : Interpreter) (float_repr : ℚ → String) (cfg : Config) (bound : ℕ)
    (moment : Moment) : QueueCall → Prop
  | .enqueue _ request _ _ =>
      Legible interpreter float_repr (interpreter.depth - 1) (.dict request) ∧
        ∀ now, moment.shows now → ReadsBack interpreter float_repr now
  | .retry envelope _ =>
      Legible interpreter float_repr (interpreter.depth - 1) (.dict envelope.request) ∧
        envelope.attempt.natAbs ≤ bound ∧
        ReadsBack interpreter float_repr envelope.enqueued_at ∧
        ∀ now, moment.shows now → ReadsBack interpreter float_repr (cfg.retry_at now envelope)
  | _ => True

theorem encode_sorted (envelope : JobEnvelope) :
    encode float_repr { envelope with request := sorted_request envelope.request }.to_json =
      encode float_repr envelope.to_json := by
  obtain ⟨request, hrequest, harranged⟩ := arranged_to_json envelope
  cases hrequest
  unfold encode
  rw [← dumps_arranged envelope.to_json, harranged]
  rfl

-- The order of the keys of a request is lost in the text.
theorem call_texts_sorted (call : QueueCall) :
    redis.call_texts interpreter float_repr cfg moment call.sorted =
      redis.call_texts interpreter float_repr cfg moment call := by
  cases call with
  | enqueue job_id request principal_id tenant_id =>
      have hencode := @encode_sorted float_repr
        (new_envelope moment.now job_id request principal_id tenant_id)
      simp only [QueueCall.sorted, Redis.call_texts, QueueCall.on_redis, RedisQueue.enqueue]
      split
      · rfl
      · simp only [new_envelope] at hencode
        simp only [Program.call_bind, Program.ret_bind, Program.run_call, Program.run_ret,
          Redis.timed_exec_texts, Redis.exec_texts, Script.encoded, new_envelope, hencode]
  | retry envelope error =>
      simp only [QueueCall.sorted, Redis.call_texts, QueueCall.on_redis, RedisQueue.retry]
      split
      · have hencode := @encode_sorted float_repr
          { envelope with retry_at := none, last_error := some error }
        simp only [RedisQueue.dead_letter, Program.call_bind, Program.ret_bind, Program.run_call,
          Redis.timed_exec_texts, Redis.exec_texts, Script.encoded, hencode]
        rfl
      · have hencode (now : ℚ≥0) := @encode_sorted float_repr { envelope with
          retry_at := some (cfg.retry_at now envelope), last_error := some error }
        simp only [Config.retry_at] at hencode
        simp only [Program.call_bind, Program.ret_bind, Program.run_call, Config.retry_at,
          Redis.timed_exec_texts, Redis.exec_texts, Script.encoded, hencode]
        rfl
  | _ => rfl

theorem legible_sorted {depth : ℕ} {request : JSONObject}
    (h : Legible interpreter float_repr depth (.dict request)) :
    Legible interpreter float_repr depth (.dict (sorted_request request)) :=
  legible_arranged h

theorem arranged_sorted (request : JSONObject) :
    arranged .compact (.dict (sorted_request request)) = .dict (sorted_request request) :=
  arranged_arranged (.dict request)

theorem on_texts_sorted (hbound : bound + 1 < 10 ^ MAX_STR_DIGITS) {call : QueueCall}
    (hfits : Fits interpreter float_repr cfg bound moment call) :
    OnTexts interpreter float_repr moment.shows bound (bound + 1) (fun _ => True)
      (call.sorted.on_redis cfg) := by
  have hlast : bound < 10 ^ MAX_STR_DIGITS := Nat.lt_of_succ_lt hbound
  have hle : bound ≤ bound + 1 := Nat.le_succ bound
  have answered {α : Type} {program : QueueProgram α} {reply : α → QueueReply}
      (h : OnTexts interpreter float_repr moment.shows bound bound (fun _ => True) program) :
      OnTexts interpreter float_repr moment.shows bound (bound + 1) (fun _ => True)
        (program >>= fun value => .ret (reply value)) :=
    h.bind hle fun _ _ => (OnTexts.ret trivial).mono (EncodedAt.mono hle) fun _ => id
  cases call with
  | enqueue job_id request principal_id tenant_id =>
      obtain ⟨hrequest, htimes⟩ := hfits
      exact answered (on_texts_enqueue hlast (legible_sorted hrequest) (arranged_sorted _) htimes)
  | claim set_order timeout =>
      exact Program.Simulates.bind (on_texts_claim hbound) (fun _ _ => id) fun _ _ =>
        OnTexts.ret trivial
  | ack envelope => exact answered (on_texts_ack hlast envelope)
  | renew envelope => exact answered (on_texts_renew hlast envelope)
  | retry envelope error =>
      obtain ⟨hrequest, hattempt, henqueued, htimes⟩ := hfits
      refine answered (on_texts_retry hlast ?_ ?_ error)
      · exact ⟨legible_sorted hrequest, arranged_sorted _, hattempt, henqueued, by rintro _ ⟨⟩⟩
      · exact htimes
  | recover_stale set_order => exact answered (on_texts_recover_stale hlast set_order)
  | dead_letters => exact answered (on_texts_dead_letters hlast)
  | remove_dead_letter envelope => exact answered (on_texts_remove_dead_letter hlast envelope)
  | dead_letter_count => exact answered (.call hlast trivial fun _ _ => .ret trivial)

-- One call on the texts answers as it does on the values.
theorem call_texts_eq (hbound : bound + 1 < 10 ^ MAX_STR_DIGITS)
    (h : Encoded interpreter float_repr bound redis texts) {call : QueueCall}
    (hfits : Fits interpreter float_repr cfg bound moment call) :
    (texts.call_texts interpreter float_repr cfg moment call).1 =
        (redis.call cfg moment call.sorted).1 ∧
      Encoded interpreter float_repr (bound + 1) (redis.call cfg moment call.sorted).2
        (texts.call_texts interpreter float_repr cfg moment call).2 := by
  rw [← call_texts_sorted]
  have hencoded : EncodedAt interpreter float_repr moment.shows bound
      ({ redis with now := moment.now }, moment.later)
      ({ texts with now := moment.now }, moment.later) := by
    refine ⟨h.at_time moment.now, rfl, List.mem_cons_self, ?_⟩
    exact fun time hmem => List.mem_cons_of_mem _ hmem
  obtain ⟨hreply, hnext, -⟩ := on_texts_sorted hbound hfits _ _ hencoded
  exact ⟨hreply, hnext.encoded⟩

-- The answers to the calls, one after the other, and what is left on the server.
def answer_all (serve : Moment → Redis → QueueCall → Except QueueError QueueReply × Redis) :
    List (Moment × QueueCall) → Redis → List (Except QueueError QueueReply) × Redis
  | [], redis => ([], redis)
  | (moment, call) :: rest, redis =>
      let (reply, next) := serve moment redis call
      (reply :: (answer_all serve rest next).1, (answer_all serve rest next).2)

theorem Fits.mono {call : QueueCall} {bound' : ℕ}
    (h : Fits interpreter float_repr cfg bound moment call) (hle : bound ≤ bound') :
    Fits interpreter float_repr cfg bound' moment call := by
  cases call with
  | retry envelope error => exact ⟨h.1, h.2.1.trans hle, h.2.2⟩
  | _ => exact h

-- The queue that keeps texts answers every call as the queue that keeps the envelopes
-- themselves, with the keys of their requests in order, and keeps the texts of the same.
theorem answer_all_texts {calls : List (Moment × QueueCall)}
    (hbound : bound + calls.length < 10 ^ MAX_STR_DIGITS)
    (h : Encoded interpreter float_repr bound redis texts)
    (hfits : ∀ served ∈ calls, Fits interpreter float_repr cfg bound served.1 served.2) :
    (answer_all (fun moment texts => texts.call_texts interpreter float_repr cfg moment) calls
        texts).1 =
      (answer_all (fun moment redis => redis.call cfg moment)
        (calls.map fun served => (served.1, served.2.sorted)) redis).1 ∧
    Encoded interpreter float_repr (bound + calls.length)
      (answer_all (fun moment redis => redis.call cfg moment)
        (calls.map fun served => (served.1, served.2.sorted)) redis).2
      (answer_all (fun moment texts => texts.call_texts interpreter float_repr cfg moment) calls
        texts).2 := by
  induction calls generalizing bound redis texts with
  | nil => exact ⟨rfl, h⟩
  | cons served rest ih =>
      rw [List.length_cons] at hbound
      obtain ⟨hreply, hnext⟩ := call_texts_eq (by omega) h (hfits served List.mem_cons_self)
      obtain ⟨hreplies, hlast⟩ := ih (by omega) hnext fun other hmem =>
        (hfits other (List.mem_cons_of_mem _ hmem)).mono (Nat.le_succ bound)
      rw [show bound + 1 + rest.length = bound + (rest.length + 1) by omega] at hlast
      simp only [answer_all, List.map_cons, List.length_cons]
      exact ⟨by rw [hreply, hreplies], hlast⟩

theorem texts_answer_alike (now : ℚ≥0) {calls : List (Moment × QueueCall)}
    (hbound : bound + calls.length < 10 ^ MAX_STR_DIGITS)
    (hfits : ∀ served ∈ calls, Fits interpreter float_repr cfg bound served.1 served.2) :
    (answer_all (fun moment texts => texts.call_texts interpreter float_repr cfg moment) calls
        (Redis.empty now)).1 =
      (answer_all (fun moment redis => redis.call cfg moment)
        (calls.map fun served => (served.1, served.2.sorted)) (Redis.empty now)).1 ∧
    Encoded interpreter float_repr (bound + calls.length)
      (answer_all (fun moment redis => redis.call cfg moment)
        (calls.map fun served => (served.1, served.2.sorted)) (Redis.empty now)).2
      (answer_all (fun moment texts => texts.call_texts interpreter float_repr cfg moment) calls
        (Redis.empty now)).2 :=
  answer_all_texts hbound (Encoded.empty now) hfits

-- One job, which is claimed.
def claimed_calls : List (Moment × QueueCall) :=
  [(⟨5 / 2, []⟩, .enqueue "job" [("tickers", .list []), ("query", .str "☃")] "alice" "acme"),
   (⟨5 / 2, []⟩, .claim .inserted 1)]

theorem claimed_texts_alike :
    (answer_all (fun moment texts => texts.call_texts .tenths tenths .default moment) claimed_calls
        (Redis.empty 0)).1 =
      (answer_all (fun moment redis => redis.call .default moment)
        (claimed_calls.map fun served => (served.1, served.2.sorted)) (Redis.empty 0)).1 := by
  have hbound : 0 + claimed_calls.length < 10 ^ MAX_STR_DIGITS :=
    lt_of_lt_of_le (by decide : 0 + claimed_calls.length < 10 ^ 1)
      (Nat.pow_le_pow_right (by decide) (by decide))
  refine (@texts_answer_alike .tenths tenths .default 0 0 claimed_calls hbound ?_).1
  have hlegible : Legible .tenths tenths (Interpreter.tenths.depth - 1)
      (.dict [("tickers", .list []), ("query", .str "☃")]) :=
    .dict (by decide) (by simpa using ⟨.list (List.forall_mem_nil _), .str _⟩)
  refine List.forall_mem_cons.mpr ⟨⟨hlegible, fun now hshows => ?_⟩,
    List.forall_mem_cons.mpr ⟨trivial, List.forall_mem_nil _⟩⟩
  obtain rfl := List.mem_singleton.mp hshows
  exact reads_back_tenths

end Runs

end ResearchAgent.JobQueue
