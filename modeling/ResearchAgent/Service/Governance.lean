import ResearchAgent.Library.HashChain
import ResearchAgent.Service.Dumps
import ResearchAgent.Service.Operations

namespace ResearchAgent.Service

open Library JobQueue

-- The memory backend of the audit log. `sha256` is the hex digest of a text.
structure AuditRecord where
  event : AuditEvent
  sequence : ℕ
  previous_hash : String
  event_hash : String

structure GovernanceStore where
  memory_events : List AuditRecord
  last_hash : String

-- The arguments of `append_audit`, with the time it reads.
structure AuditCall where
  event_type : String
  principal : Principal
  job_id : Option String := none
  details : Option JSONObject := none
  timestamp : String

def AuditCall.event (call : AuditCall) : AuditEvent where
  event_type := call.event_type
  principal_id := call.principal.principal_id
  tenant_id := call.principal.tenant_id
  job_id := call.job_id
  details := call.details.getD []
  timestamp := call.timestamp

def AuditEvent.entries (event : AuditEvent) : JSONObject :=
  [("event_type", .str event.event_type),
   ("principal_id", .str event.principal_id),
   ("tenant_id", .str event.tenant_id),
   ("job_id", match event.job_id with
    | none => .null
    | some job_id => .str job_id),
   ("details", .dict event.details),
   ("timestamp", .str event.timestamp)]

namespace GovernanceStore

-- `"0" * 64`
def genesis : String := String.ofList (List.replicate 64 '0')

def empty : GovernanceStore := ⟨[], genesis⟩

variable (sha256 : String → String) (float_repr : ℚ → String)

def body (event : AuditEvent) : String := dumps .compact float_repr (.dict event.entries)

def hashed (last_hash body : String) (sequence : ℕ) : String :=
  last_hash ++ body ++ toString sequence

def append_audit (store : GovernanceStore) (call : AuditCall) : AuditRecord × GovernanceStore :=
  let sequence := store.memory_events.length + 1
  let digest := sha256 (hashed store.last_hash (body float_repr call.event) sequence)
  let record := ⟨call.event, sequence, store.last_hash, digest⟩
  (record, ⟨store.memory_events ++ [record], digest⟩)

def append_all (store : GovernanceStore) (calls : List AuditCall) : GovernanceStore :=
  calls.foldl (fun store call => (append_audit sha256 float_repr store call).2) store

end GovernanceStore

namespace AuditRecord

variable (float_repr : ℚ → String) (record : AuditRecord)

-- The record as an entry of the chain: the event counts by its serialized body.
def entry : Sealed String String :=
  ⟨GovernanceStore.body float_repr record.event, record.sequence, record.previous_hash,
    record.event_hash⟩

def hashed : String :=
  GovernanceStore.hashed record.previous_hash (GovernanceStore.body float_repr record.event)
    record.sequence

end AuditRecord

namespace GovernanceStore

variable {sha256 : String → String} {float_repr : ℚ → String}

theorem brace_not_mem_digits (n : ℕ) : '\x7d' ∉ (toString n).toList := by
  rw [Nat.toString_eq_ofList_toDigits, String.toList_ofList]
  intro h
  have hdigit := Nat.isDigit_of_mem_toDigits (by decide) (by decide) h
  exact absurd hdigit (by decide)

theorem toString_injective {n m : ℕ} (h : toString n = toString m) : n = m := by
  rw [Nat.toString_eq_ofList_toDigits, Nat.toString_eq_ofList_toDigits] at h
  have hdigits := congrArg String.toList h
  rw [String.toList_ofList, String.toList_ofList] at hdigits
  rw [← Nat.ofDigitChars_ten_toDigits (n := n), hdigits, Nat.ofDigitChars_ten_toDigits]

-- Two texts that go on, after their last separator, without another one.
theorem split_at_last {separator : Char} {front front' rest rest' : List Char}
    (h : front ++ separator :: rest = front' ++ separator :: rest') (hrest : separator ∉ rest)
    (hrest' : separator ∉ rest') : front = front' ∧ rest = rest' := by
  rcases List.append_eq_append_iff.mp h with ⟨between, hfront, hrests⟩ | ⟨between, hfront, hrests⟩
  · rcases between with _ | ⟨first, between⟩
    · simp only [List.append_nil, List.nil_append, List.cons.injEq, true_and] at hfront hrests
      exact ⟨hfront.symm, hrests⟩
    · obtain ⟨-, hrests⟩ := List.cons.inj hrests
      exact absurd (hrests ▸ List.mem_append_right _ (List.mem_cons_self ..)) hrest
  · rcases between with _ | ⟨first, between⟩
    · simp only [List.append_nil, List.nil_append, List.cons.injEq, true_and] at hfront hrests
      exact ⟨hfront, hrests.symm⟩
    · obtain ⟨-, hrests⟩ := List.cons.inj hrests
      exact absurd (hrests ▸ List.mem_append_right _ (List.mem_cons_self ..)) hrest'

-- The hashed text is a plain concatenation, yet it can be read in one way only: the
-- digest has a fixed length, the body ends with a brace and the sequence has none.
theorem hashed_injective {last last' : String} {event event' : AuditEvent} {n n' : ℕ}
    (hlast : last.length = 64) (hlast' : last'.length = 64)
    (h : hashed last (body float_repr event) n = hashed last' (body float_repr event') n') :
    last = last' ∧ body float_repr event = body float_repr event' ∧ n = n' := by
  obtain ⟨front, hfront⟩ := dumps_dict_closed .compact float_repr (AuditEvent.entries event)
  obtain ⟨front', hfront'⟩ := dumps_dict_closed .compact float_repr (AuditEvent.entries event')
  have hbody : (body float_repr event).toList = front ++ ['\x7d'] := hfront
  have hbody' : (body float_repr event').toList = front' ++ ['\x7d'] := hfront'
  have htexts := congrArg String.toList h
  simp only [hashed, String.toList_append, hbody, hbody', List.append_assoc] at htexts
  have hlengths : last.toList.length = last'.toList.length := by
    rw [String.length_toList, String.length_toList, hlast, hlast']
  obtain ⟨hlasts, hrests⟩ := List.append_inj htexts hlengths
  obtain ⟨hfronts, hdigits⟩ := split_at_last hrests (brace_not_mem_digits n)
    (brace_not_mem_digits n')
  refine ⟨String.toList_inj.mp hlasts, ?_, toString_injective (String.toList_inj.mp hdigits)⟩
  apply String.toList_inj.mp
  rw [hbody, hbody', hfronts]

variable (sha256 float_repr) in
def mark (last : String) (body : String) (sequence : ℕ) : String :=
  sha256 (hashed last body sequence)

-- The log is a chain of digests that ends with the last hash.
variable (sha256 float_repr) in
def Chained (store : GovernanceStore) : Prop :=
  Sealed.Chain (mark sha256) genesis (store.memory_events.map (AuditRecord.entry float_repr))
    store.last_hash

theorem Chained.append {store : GovernanceStore} (h : Chained sha256 float_repr store)
    (call : AuditCall) :
    Chained sha256 float_repr (append_audit sha256 float_repr store call).2 := by
  have hnext := Sealed.Chain.append h (body float_repr call.event)
  rw [List.length_map] at hnext
  rw [Chained, append_audit, List.map_append]
  exact hnext

theorem chained_append_all (calls : List AuditCall) :
    Chained sha256 float_repr (append_all sha256 float_repr empty calls) := by
  suffices h : ∀ store, Chained sha256 float_repr store →
      Chained sha256 float_repr (append_all sha256 float_repr store calls) from h empty .empty
  induction calls with
  | nil => exact fun _ h => h
  | cons call rest ih => exact fun store h => ih _ (h.append call)

-- No two of the texts have the same digest.
def CollisionFree (sha256 : String → String) (texts : List String) : Prop :=
  ∀ text ∈ texts, ∀ text' ∈ texts, sha256 text = sha256 text' → text = text'

instance (sha256 : String → String) (texts : List String) :
    Decidable (CollisionFree sha256 texts) :=
  inferInstanceAs (Decidable (∀ text ∈ texts, ∀ text' ∈ texts, _ → _))

-- The texts that are hashed on the way to the store.
variable (float_repr) in
def hashed_texts (store : GovernanceStore) : List String :=
  store.memory_events.map (AuditRecord.hashed float_repr)

theorem length_genesis : genesis.length = 64 := by decide

theorem Chained.unique {store store' : GovernanceStore} (h : Chained sha256 float_repr store)
    (h' : Chained sha256 float_repr store') (hlength : ∀ text, (sha256 text).length = 64)
    (hgenesis : ∀ text, sha256 text ≠ genesis)
    (hfree : CollisionFree sha256 (hashed_texts float_repr store ++ hashed_texts float_repr store'))
    (hlast : store.last_hash = store'.last_hash) :
    store.memory_events.map (AuditRecord.entry float_repr) =
      store'.memory_events.map (AuditRecord.entry float_repr) := by
  have hprevious := (h.previous_of (p := fun last => last.length = 64) length_genesis
    fun last body sequence => hlength _).2
  have hprevious' := (h'.previous_of (p := fun last => last.length = 64) length_genesis
    fun last body sequence => hlength _).2
  refine Sealed.Chain.unique h h' ?_ ?_ hlast
  · intro entry he entry' he' hdigest
    have hmark := h.digest_of_mem he
    have hmark' := h'.digest_of_mem he'
    have hlengths := hprevious entry he
    have hlengths' := hprevious' entry' he'
    obtain ⟨record, hr, rfl⟩ := List.mem_map.mp he
    obtain ⟨record', hr', rfl⟩ := List.mem_map.mp he'
    have htexts : record.hashed float_repr = record'.hashed float_repr := by
      apply hfree
      · exact List.mem_append_left _ (List.mem_map_of_mem hr)
      · exact List.mem_append_right _ (List.mem_map_of_mem hr')
      · exact hmark.symm.trans (hdigest.trans hmark')
    obtain ⟨hlasts, hbodies, -⟩ := hashed_injective hlengths hlengths' htexts
    exact ⟨hbodies, hlasts⟩
  · intro entry he
    have hmark : entry.digest = mark sha256 entry.previous entry.body entry.sequence := by
      rcases List.mem_append.mp he with he | he
      · exact h.digest_of_mem he
      · exact h'.digest_of_mem he
    rw [hmark]
    exact hgenesis _

end GovernanceStore

open GovernanceStore

-- Of two logs with the same last hash neither has an event edited, inserted, left out
-- or moved with respect to the other.
theorem audit_log_tamper_evident (sha256 : String → String) (float_repr : ℚ → String)
    (hlength : ∀ text, (sha256 text).length = 64) (hgenesis : ∀ text, sha256 text ≠ genesis) :
    (∀ calls calls' : List AuditCall,
      let store := append_all sha256 float_repr empty calls
      let store' := append_all sha256 float_repr empty calls'
      CollisionFree sha256 (hashed_texts float_repr store ++ hashed_texts float_repr store') →
      store.last_hash = store'.last_hash →
      store.memory_events.map (AuditRecord.entry float_repr) =
        store'.memory_events.map (AuditRecord.entry float_repr)) ∧
    ∀ calls : List AuditCall,
      let store := append_all sha256 float_repr empty calls
      store.memory_events.map AuditRecord.sequence = List.range' 1 store.memory_events.length ∧
      store.memory_events.map AuditRecord.previous_hash ++ [store.last_hash] =
        genesis :: store.memory_events.map AuditRecord.event_hash := by
  constructor
  · intro calls calls' store store' hfree hlast
    exact (chained_append_all calls).unique (chained_append_all calls') hlength hgenesis hfree hlast
  · intro calls store
    have hchain : Chained sha256 float_repr store := chained_append_all calls
    have hsequences := hchain.sequences
    have hlinked := hchain.linked
    rw [List.map_map, List.length_map] at hsequences
    rw [List.map_map, List.map_map] at hlinked
    exact ⟨hsequences, hlinked⟩

def sample_call (event_type : String) : AuditCall where
  event_type := event_type
  principal := ⟨"p", "t", [.approver], by decide, by decide⟩
  job_id := some "job"
  timestamp := "1"

def sample_text (event_type : String) : String :=
  hashed genesis ("\x7b\"details\":\x7b\x7d,\"event_type\":\"" ++ event_type ++
    "\",\"job_id\":\"job\",\"principal_id\":\"p\",\"tenant_id\":\"t\",\"timestamp\":\"1\"\x7d") 1

-- SHA-256 on the texts that the two calls below hash.
def sample_sha256 (text : String) : String :=
  if text = sample_text "report_rejected" then
    "d41540771e702a60dfa3aeaed4bfa2e16ecc8bfc2dc0f42b34cdd31adaef1a9c"
  else if text = sample_text "report_approved" then
    "df6971b9088fb066b93648d6a813ee4e5ab5fc3b74452cf516ceb8cda06d63fd"
  else String.ofList (List.replicate 64 'f')

theorem audit_log_tamper_evident_edited :
    (append_all sample_sha256 toString empty [sample_call "report_rejected"]).last_hash ≠
      (append_all sample_sha256 toString empty [sample_call "report_approved"]).last_hash := by
  intro h
  have hlength : ∀ text, (sample_sha256 text).length = 64 := by
    intro text
    unfold sample_sha256
    split
    · decide
    · split <;> decide
  have hgenesis : ∀ text, sample_sha256 text ≠ genesis := by
    intro text
    unfold sample_sha256
    split
    · decide
    · split <;> decide
  have htexts : ∀ event_type ∈ ["report_rejected", "report_approved"],
      hashed_texts toString (append_all sample_sha256 toString empty [sample_call event_type]) =
        [sample_text event_type] := by decide +kernel
  have hfree : CollisionFree sample_sha256
      ([sample_text "report_rejected"] ++ [sample_text "report_approved"]) := by decide +kernel
  rw [← htexts _ (by simp), ← htexts _ (by simp)] at hfree
  have hlogs := (audit_log_tamper_evident sample_sha256 toString hlength hgenesis).1 _ _ hfree h
  exact absurd hlogs (by decide +kernel)

end ResearchAgent.Service
