import ResearchAgent.Library.Interference
import ResearchAgent.Library.Interleaving
import ResearchAgent.Research.RoundTrips

namespace ResearchAgent.Service

open Library JobQueue Research

section Server

-- A text at the server, and when it is gone.
structure StoredText where
  text : String
  expires_at : ℚ

structure TextServer where
  now : ℚ
  keys : Dict String StoredText

-- A pattern of characters that stand for themselves and of stars.
def glob : List Char → List Char → Bool
  | [], text => text.isEmpty
  | '*' :: pattern, text => text.tails.any (glob pattern)
  | _ :: _, [] => false
  | char :: pattern, other :: text => char = other && glob pattern text

-- SET with EX, and with NX where `absent` is true.
inductive StoreOp where
  | get (key : String)
  | set (key text : String) (ttl_seconds : ℕ) (absent : Bool)
  | delete (keys : List String)
  | mget (keys : List String)
  | scan (pattern : String)

abbrev StoreOp.Reply : StoreOp → Type
  | .get _ => Option String
  | .set _ _ _ _ => Bool
  | .delete _ => Unit
  | .mget _ => List (Option String)
  | .scan _ => List String

-- SCAN gives every key once or more, in any order.
structure ScanOrder where
  order : List String → List String
  mem : ∀ keys key, key ∈ order keys ↔ key ∈ keys

-- No scan gives a key twice.
def ScanOrder.Once (scan_order : ScanOrder) : Prop :=
  ∀ keys : List String, keys.Nodup → (scan_order.order keys).Nodup

namespace TextServer

variable (server : TextServer)

def get (key : String) : Option String :=
  ((server.keys.get? key).filter fun stored => server.now ≤ stored.expires_at).map StoredText.text

def exec (scan_order : ScanOrder) : (op : StoreOp) → op.Reply × TextServer
  | .get key => (server.get key, server)
  | .set key text ttl_seconds absent =>
      if absent && (server.get key).isSome then (false, server)
      else (true, { server with
        keys := server.keys.set key ⟨text, server.now + ttl_seconds⟩ })
  | .delete keys => ((), { server with keys := server.keys.restrict fun key => key ∉ keys })
  | .mget keys => (keys.map server.get, server)
  | .scan pattern =>
      (scan_order.order ((server.keys.entries.map Prod.fst).filter fun key =>
        (server.get key).isSome && glob pattern.toList key.toList), server)

end TextServer

end Server

-- `[a-z][a-z0-9_-]{0,31}`
def is_namespace (text : String) : Bool :=
  match text.toList with
  | [] => false
  | first :: rest =>
      between 'a' 'z' first && rest.length ≤ 31 &&
        rest.all fun char => between 'a' 'z' char || between '0' '9' char || char ∈ ['_', '-']

-- A store that keeps its records at a server.
structure JobStore where
  name : String
  ttl_seconds : ℕ
  name_valid : is_namespace name
  ttl_pos : 1 ≤ ttl_seconds

abbrev StoreProgram := Program StoreOp StoreOp.Reply ServiceError

inductive StoreCall where
  | get (job_id : String)
  | set (job_id : String) (value : JSONObject)
  | set_if_absent (job_id : String) (value : JSONObject)
  | delete (job_id : String)
  | values
  | clear
  | len

inductive StoreReply where
  | found (value : Option JSONValue)
  | created (value : Bool)
  | done
  | values (values : List JSONValue)
  | count (value : ℕ)

namespace JobStore

variable (interpreter : Interpreter) (float_repr : ℚ → String) (store : JobStore)

def key (job_id : String) : String := "research_job:" ++ store.name ++ ":" ++ job_id

def pattern : String := "research_job:" ++ store.name ++ ":*"

def dump (value : JSONObject) : String := dumps {} float_repr (.dict value)

def load (failure text : String) : StoreProgram JSONValue :=
  match interpreter.loads text with
  | .value value => .ret value
  | _ => .raise (.JobStoreError failure)

def load_all : List (Option String) → StoreProgram (List JSONValue)
  | [] => .ret []
  | none :: rest => load_all rest
  | some text :: rest => do
      let value ← load interpreter "Unable to list jobs" text
      let values ← load_all rest
      .ret (value :: values)

def keys : StoreProgram (List String) := .call (.scan store.pattern) .ret

def call : StoreCall → StoreProgram StoreReply
  | .get job_id => do
      let raw ← .call (.get (store.key job_id)) .ret
      match raw with
      | none => .ret (.found none)
      | some text => do
          let value ← load interpreter ("Unable to read job " ++ job_id) text
          .ret (.found (some value))
  | .set job_id value => do
      let _ ← .call (.set (store.key job_id) (dump float_repr value) store.ttl_seconds false) .ret
      .ret .done
  | .set_if_absent job_id value => do
      let created ← .call (.set (store.key job_id) (dump float_repr value) store.ttl_seconds true)
        .ret
      .ret (.created created)
  | .delete job_id => do
      let _ ← .call (.delete [store.key job_id]) .ret
      .ret .done
  | .values => do
      let keys ← store.keys
      if keys.isEmpty then .ret (.values [])
      else do
        let raw_values ← .call (.mget keys) .ret
        let values ← load_all interpreter raw_values
        .ret (.values values)
  | .clear => do
      let keys ← store.keys
      if keys.isEmpty then .ret .done
      else do
        let _ ← .call (.delete keys) .ret
        .ret .done
  | .len => do
      let keys ← store.keys
      .ret (.count keys.length)

end JobStore

-- The store without a server.
abbrev MemoryStore := Dict String JSONObject

def MemoryStore.call (memory : MemoryStore) : StoreCall → StoreReply × MemoryStore
  | .get job_id => (.found ((memory.get? job_id).map .dict), memory)
  | .set job_id value => (.done, memory.set job_id value)
  | .set_if_absent job_id value =>
      if memory.contains job_id then (.created false, memory)
      else (.created true, memory.set job_id value)
  | .delete job_id => (.done, memory.erase job_id)
  | .values => (.values (memory.values.map .dict), memory)
  | .clear => (.done, .empty)
  | .len => (.count memory.entries.length, memory)

section Keys

variable {store store' : JobStore} {job_id job_id' : String}

theorem glob_star {front : List Char} (h : '*' ∉ front) (text : List Char) :
    glob (front ++ ['*']) text = front.isPrefixOf text := by
  induction front generalizing text with
  | nil =>
      simp [glob]
  | cons char front ih =>
      rw [List.mem_cons, not_or] at h
      obtain ⟨hchar, hfront⟩ := h
      cases text with
      | nil =>
          rw [List.cons_append, glob]
          · rfl
          · exact fun heq => hchar heq.symm
      | cons other text =>
          rw [List.cons_append, glob, ih hfront]
          · rfl
          · exact fun heq => hchar heq.symm

-- No name of a store has a character that means something in a pattern or a key.
theorem plain_of_namespace {text : String} (h : is_namespace text = true) :
    '*' ∉ text.toList ∧ ':' ∉ text.toList := by
  unfold is_namespace at h
  split at h
  · cases h
  · next first rest htext =>
    simp only [Bool.and_eq_true, List.all_eq_true] at h
    obtain ⟨⟨hfirst, -⟩, hrest⟩ := h
    rw [htext]
    constructor <;> intro hmem <;> rcases List.mem_cons.mp hmem with rfl | hmem
    · revert hfirst
      decide
    · exact absurd (hrest _ hmem) (by decide)
    · revert hfirst
      decide
    · exact absurd (hrest _ hmem) (by decide)

namespace JobStore

theorem toList_key (store : JobStore) (job_id : String) : (store.key job_id).toList =
    "research_job:".toList ++ (store.name.toList ++ ':' :: job_id.toList) := by
  simp [key]

theorem before_colon {name rest : List Char} (h : ':' ∉ name) :
    (name ++ ':' :: rest).takeWhile (· ≠ ':') = name := by
  rw [List.takeWhile_append_of_pos]
  · simp
  · intro char hmem
    simpa using ne_of_mem_of_not_mem hmem h

theorem key_inj (h : store.key job_id = store'.key job_id') :
    store.name = store'.name ∧ job_id = job_id' := by
  have hlist := congrArg String.toList h
  rw [toList_key, toList_key, List.append_cancel_left_eq] at hlist
  have hname := congrArg (List.takeWhile (· ≠ ':')) hlist
  rw [before_colon (plain_of_namespace store.name_valid).2,
    before_colon (plain_of_namespace store'.name_valid).2] at hname
  rw [hname, List.append_cancel_left_eq] at hlist
  exact ⟨String.toList_inj.mp hname, String.toList_inj.mp (List.cons.inj hlist).2⟩

-- The keys that the pattern of a store stands for.
theorem glob_pattern {key : String} :
    glob store.pattern.toList key.toList = true ↔ ∃ job_id, key = store.key job_id := by
  have hpattern : store.pattern.toList =
      ("research_job:".toList ++ (store.name.toList ++ [':'])) ++ ['*'] := by
    simp [pattern]
  have hplain : '*' ∉ "research_job:".toList ++ (store.name.toList ++ [':']) := by
    have hname := (plain_of_namespace store.name_valid).1
    simp [hname]
  rw [hpattern, glob_star hplain, List.isPrefixOf_iff_prefix]
  constructor
  · rintro ⟨rest, hrest⟩
    refine ⟨String.ofList rest, String.toList_inj.mp ?_⟩
    rw [toList_key, String.toList_ofList, ← hrest]
    simp
  · rintro ⟨job_id, rfl⟩
    rw [toList_key]
    exact ⟨job_id.toList, by simp⟩

end JobStore

end Keys

section Backs

variable {interpreter : Interpreter} {float_repr : ℚ → String} {store : JobStore} {start : ℚ}
  {memory : MemoryStore} {server : TextServer} {scan_order : ScanOrder} {job_id : String}
  {value : JSONObject}

def Legal (interpreter : Interpreter) (float_repr : ℚ → String) (value : JSONObject) : Prop :=
  Legible interpreter float_repr interpreter.depth (.dict value)

-- The server has the records of the store, from `start` on and until one may be gone.
structure Backs (interpreter : Interpreter) (float_repr : ℚ → String) (store : JobStore)
    (start : ℚ) (memory : MemoryStore) (server : TextServer) : Prop where
  from_start : start ≤ server.now
  in_time : server.now ≤ start + store.ttl_seconds
  texts : ∀ job_id, (server.keys.get? (store.key job_id)).map StoredText.text =
    (memory.get? job_id).map (JobStore.dump float_repr)
  lasting : ∀ job_id, ∀ stored ∈ server.keys.get? (store.key job_id),
    start + store.ttl_seconds ≤ stored.expires_at
  legal : ∀ job_id, ∀ value ∈ memory.get? job_id, Legal interpreter float_repr value

-- The keys that an operation may change.
def StoreOp.touches : StoreOp → List String
  | .set key _ _ _ => [key]
  | .delete keys => keys
  | _ => []

-- What goes on besides: the clock, and operations on other keys.
inductive Outside (scan_order : ScanOrder) (store : JobStore) (start : ℚ) :
    TextServer → TextServer → Prop
  | op {server : TextServer} {op : StoreOp}
      (h : ∀ key ∈ op.touches, ∀ job_id, key ≠ store.key job_id) :
      Outside scan_order store start server (server.exec scan_order op).2
  | clock {server : TextServer} {now : ℚ} (hlater : server.now ≤ now)
      (hend : now ≤ start + store.ttl_seconds) :
      Outside scan_order store start server { server with now }

-- An operation changes the keys that it touches only.
theorem exec_untouched {op : StoreOp} {key : String} (h : key ∉ op.touches) :
    (server.exec scan_order op).2.keys.get? key = server.keys.get? key ∧
      (server.exec scan_order op).2.now = server.now := by
  cases op with
  | set other text ttl_seconds absent =>
      have hne : key ≠ other := by simpa [StoreOp.touches] using h
      simp only [TextServer.exec]
      split_ifs
      · exact ⟨rfl, rfl⟩
      · exact ⟨by simp [hne], rfl⟩
  | delete keys =>
      have hkey : key ∉ keys := h
      exact ⟨by simp [TextServer.exec, hkey], rfl⟩
  | get | mget | scan => exact ⟨rfl, rfl⟩

namespace Backs

theorem stable : Program.Stable (Outside scan_order store start)
    (Backs interpreter float_repr store start memory) := by
  intro server server' helse hbacks
  cases helse with
  | op h =>
      have hsame (job_id : String) := @exec_untouched server scan_order _ (store.key job_id)
        fun hmem => h _ hmem job_id rfl
      have hnow := (hsame "").2
      exact { hbacks with
        from_start := hnow ▸ hbacks.from_start
        in_time := hnow ▸ hbacks.in_time
        texts := fun job_id => by rw [(hsame job_id).1, hbacks.texts]
        lasting := fun job_id => by
          rw [(hsame job_id).1]
          exact hbacks.lasting job_id }
  | clock hlater hend =>
      exact { hbacks with from_start := hbacks.from_start.trans hlater, in_time := hend }

-- No record is gone.
theorem get_key (h : Backs interpreter float_repr store start memory server) (job_id : String) :
    server.get (store.key job_id) = (memory.get? job_id).map (JobStore.dump float_repr) := by
  rw [← h.texts, TextServer.get]
  cases hstored : server.keys.get? (store.key job_id) with
  | none => rfl
  | some stored =>
      have hlive : server.now ≤ stored.expires_at :=
        h.in_time.trans (h.lasting job_id stored hstored)
      simp [hlive]

theorem set (h : Backs interpreter float_repr store start memory server)
    (hvalue : Legal interpreter float_repr value) :
    Backs interpreter float_repr store start (memory.set job_id value)
      ⟨server.now, server.keys.set (store.key job_id)
        ⟨JobStore.dump float_repr value, server.now + store.ttl_seconds⟩⟩ := by
  have hkey (other : String) : store.key other = store.key job_id ↔ other = job_id :=
    ⟨fun heq => (JobStore.key_inj heq).2, congrArg store.key⟩
  refine { h with texts := fun other => ?_, lasting := fun other => ?_, legal := fun other => ?_ }
  · simp only [Dict.get?_set, hkey]
    split_ifs
    · rfl
    · exact h.texts other
  · simp only [Dict.get?_set, hkey]
    split_ifs
    · rintro _ ⟨⟩
      have := h.from_start
      simpa using this
    · exact h.lasting other
  · simp only [Dict.get?_set]
    split_ifs
    · rintro _ ⟨⟩
      exact hvalue
    · exact h.legal other

theorem delete (h : Backs interpreter float_repr store start memory server) {keys : List String}
    {left : MemoryStore} (hleft : ∀ job_id, left.get? job_id =
      if store.key job_id ∈ keys then none else memory.get? job_id) :
    Backs interpreter float_repr store start left
      { server with keys := server.keys.restrict fun key => key ∉ keys } := by
  refine { h with texts := fun other => ?_, lasting := fun other => ?_, legal := fun other => ?_ }
  · simp only [Dict.get?_restrict, hleft]
    by_cases hmem : store.key other ∈ keys
    · simp [hmem]
    · simpa [hmem] using h.texts other
  · simp only [Dict.get?_restrict]
    by_cases hmem : store.key other ∈ keys
    · simp [hmem]
    · simpa [hmem] using h.lasting other
  · rw [hleft]
    split_ifs
    · rintro _ ⟨⟩
    · exact h.legal other

end Backs

-- The same answer, where the order of the records is left open. A record counts more than once
-- only when a scan gives its key more than once.
def AnswersAlike (scan_order : ScanOrder) : StoreReply → StoreReply → Prop
  | .values values, .values found => values.Subperm found ∧ (∀ value ∈ found, value ∈ values) ∧
      (scan_order.Once → found.Perm values)
  | .count count, .count found => count ≤ found ∧ (scan_order.Once → found = count)
  | reply, found => reply = found

theorem Backs.congr (h : Backs interpreter float_repr store start memory server)
    {left : MemoryStore} (hleft : ∀ job_id, left.get? job_id = memory.get? job_id) :
    Backs interpreter float_repr store start left server :=
  { h with
    texts := fun job_id => by rw [hleft, h.texts]
    legal := fun job_id => by
      rw [hleft]
      exact h.legal job_id }

theorem load_dump (h : Legal interpreter float_repr value) (failure : String) :
    JobStore.load interpreter failure (JobStore.dump float_repr value) = .ret (.dict value) := by
  unfold JobStore.load JobStore.dump
  rw [loads_dumps default_spaced h, arranged_unsorted rfl]

theorem load_all_texts (h : Backs interpreter float_repr store start memory server)
    (ids : List String) :
    JobStore.load_all interpreter ((ids.map store.key).map server.get) =
      .ret (ids.filterMap fun job_id => (memory.get? job_id).map .dict) := by
  induction ids with
  | nil => rfl
  | cons job_id rest ih =>
      rw [List.map_cons, List.map_cons, h.get_key]
      cases hrecord : memory.get? job_id with
      | none =>
          rw [List.filterMap_cons_none (by rw [hrecord]; rfl)]
          exact ih
      | some record =>
          rw [List.filterMap_cons_some (by rw [hrecord]; rfl), Option.map_some,
            JobStore.load_all, load_dump (h.legal job_id record hrecord), ih]
          rfl

-- What a scan for the keys of the store gives.
def Scanned (scan_order : ScanOrder) (store : JobStore) (memory : MemoryStore)
    (keys : List String) : Prop :=
  ∃ ids : List String, keys = ids.map store.key ∧
    (∀ job_id, job_id ∈ ids ↔ memory.contains job_id = true) ∧ (scan_order.Once → ids.Nodup)

theorem mem_scan (h : Backs interpreter float_repr store start memory server) {key : String} :
    key ∈ (server.exec scan_order (.scan store.pattern)).1 ↔
      ∃ job_id, key = store.key job_id ∧ memory.contains job_id = true := by
  have hlive (job_id : String) :
      (server.get (store.key job_id)).isSome = memory.contains job_id := by
    rw [h.get_key, Option.isSome_map]
    rfl
  simp only [TextServer.exec]
  rw [scan_order.mem, List.mem_filter, Bool.and_eq_true, JobStore.glob_pattern]
  constructor
  · rintro ⟨-, hfound, job_id, rfl⟩
    exact ⟨job_id, rfl, (hlive job_id).symm.trans hfound⟩
  · rintro ⟨job_id, rfl, hstored⟩
    have hfound := (hlive job_id).trans hstored
    refine ⟨?_, hfound, job_id, rfl⟩
    cases hkey : server.keys.get? (store.key job_id) with
    | none =>
        rw [TextServer.get, hkey] at hfound
        cases hfound
    | some stored => exact List.mem_map_of_mem ((server.keys.get?_eq_some_iff _ _).mp hkey)

theorem scanned_scan (h : Backs interpreter float_repr store start memory server) :
    Scanned scan_order store memory (server.exec scan_order (.scan store.pattern)).1 := by
  have hrange : (server.exec scan_order (.scan store.pattern)).1 ∈
      Set.range (List.map store.key) := by
    rw [Set.range_list_map]
    intro key hmem
    obtain ⟨job_id, rfl, -⟩ := (mem_scan h).mp hmem
    exact ⟨job_id, rfl⟩
  obtain ⟨ids, hids⟩ := hrange
  refine ⟨ids, hids.symm, fun job_id => ?_, fun honce => ?_⟩
  · have hinj : Function.Injective store.key := fun _ _ heq => (JobStore.key_inj heq).2
    rw [← List.mem_map_of_injective hinj, hids, mem_scan h]
    constructor
    · rintro ⟨other, heq, hstored⟩
      exact hinj heq ▸ hstored
    · exact fun hstored => ⟨job_id, rfl, hstored⟩
  · refine List.Nodup.of_map store.key (hids ▸ ?_)
    exact honce _ (server.keys.nodup.filter _)

section Scanned

variable {ids : List String}

theorem mem_ids_iff (h : ∀ job_id, job_id ∈ ids ↔ memory.contains job_id = true)
    (job_id : String) : job_id ∈ ids ↔ job_id ∈ memory.entries.map Prod.fst := by
  rw [h, memory.mem_keys_iff, ← Option.isSome_iff_exists]
  rfl

theorem subperm_ids (h : ∀ job_id, job_id ∈ ids ↔ memory.contains job_id = true) :
    (memory.entries.map Prod.fst).Subperm ids :=
  List.subperm_of_subset memory.nodup fun job_id hmem => (mem_ids_iff h job_id).mpr hmem

theorem perm_ids (h : ∀ job_id, job_id ∈ ids ↔ memory.contains job_id = true)
    (hnodup : ids.Nodup) : ids.Perm (memory.entries.map Prod.fst) :=
  (List.perm_ext_iff_of_nodup hnodup memory.nodup).mpr (mem_ids_iff h)

theorem values_eq (memory : MemoryStore) : memory.values.map JSONValue.dict =
    (memory.entries.map Prod.fst).filterMap fun job_id => (memory.get? job_id).map .dict := by
  rw [memory.values_eq_filterMap, List.map_filterMap]

-- The records of the keys that a scan gives.
theorem values_alike (h : ∀ job_id, job_id ∈ ids ↔ memory.contains job_id = true)
    (honce : scan_order.Once → ids.Nodup) :
    AnswersAlike scan_order (.values (memory.values.map .dict))
      (.values (ids.filterMap fun job_id => (memory.get? job_id).map .dict)) := by
  rw [values_eq]
  refine ⟨?_, fun value hmem => ?_, fun hscan => ?_⟩
  · obtain ⟨part, hperm, hpart⟩ := subperm_ids h
    exact ⟨_, hperm.filterMap _, hpart.filterMap _⟩
  · obtain ⟨job_id, hid, hvalue⟩ := List.mem_filterMap.mp hmem
    exact List.mem_filterMap.mpr ⟨job_id, (mem_ids_iff h job_id).mp hid, hvalue⟩
  · exact (perm_ids h (honce hscan)).filterMap _

end Scanned

-- What comes with a call can be written and read back.
def StoreCall.legal (interpreter : Interpreter) (float_repr : ℚ → String) : StoreCall → Prop
  | .set _ value | .set_if_absent _ value => Legal interpreter float_repr value
  | _ => True

-- The answer of the memory store, and the server has what the memory store has then.
def AnsweredAs (interpreter : Interpreter) (float_repr : ℚ → String) (scan_order : ScanOrder)
    (store : JobStore) (start : ℚ) (expected : StoreReply × MemoryStore)
    (result : Except ServiceError StoreReply) (server : TextServer) : Prop :=
  ∃ reply, result = .ok reply ∧ AnswersAlike scan_order expected.1 reply ∧
    Backs interpreter float_repr store start expected.2 server

-- The step of a call: what it is told, and what the memory store has then.
theorem meets_step {α : Type} {op : StoreOp} {next : op.Reply → StoreProgram α}
    {after : Except ServiceError α → TextServer → Prop} (fact : op.Reply → Prop)
    (left : MemoryStore)
    (hop : ∀ server, Backs interpreter float_repr store start memory server →
      fact (server.exec scan_order op).1 ∧
        Backs interpreter float_repr store start left (server.exec scan_order op).2)
    (hnext : ∀ reply, fact reply → Program.Meets (TextServer.exec · scan_order)
      (Outside scan_order store start) (Backs interpreter float_repr store start left)
      (next reply) after) :
    Program.Meets (TextServer.exec · scan_order) (Outside scan_order store start)
      (Backs interpreter float_repr store start memory) (.call op next) after :=
  .call (fun reply server => fact reply ∧ Backs interpreter float_repr store start left server)
    Backs.stable hop fun reply => .given (hnext reply)

theorem meets_ret {expected reply : StoreReply} (h : AnswersAlike scan_order expected reply) :
    Program.Meets (TextServer.exec · scan_order) (Outside scan_order store start)
      (Backs interpreter float_repr store start memory) (.ret reply)
      (AnsweredAs interpreter float_repr scan_order store start (expected, memory)) :=
  .ret Backs.stable fun _ hbacks => ⟨reply, rfl, h, hbacks⟩

theorem meets_set {job_id : String} {value : JSONObject} {absent : Bool}
    (hvalue : Legal interpreter float_repr value)
    {next : Bool → StoreProgram StoreReply} {expected : StoreReply × MemoryStore}
    (hnext : ∀ created, created = !(absent && memory.contains job_id) →
      Program.Meets (TextServer.exec · scan_order) (Outside scan_order store start)
        (Backs interpreter float_repr store start
          (if created then memory.set job_id value else memory)) (next created)
        (AnsweredAs interpreter float_repr scan_order store start expected)) :
    Program.Meets (TextServer.exec · scan_order) (Outside scan_order store start)
      (Backs interpreter float_repr store start memory)
      (.call (.set (store.key job_id) (JobStore.dump float_repr value) store.ttl_seconds absent)
        next) (AnsweredAs interpreter float_repr scan_order store start expected) := by
  refine meets_step (fun created : Bool => created = !(absent && memory.contains job_id))
    (if !(absent && memory.contains job_id) then memory.set job_id value else memory)
    (fun server hbacks => ?_) fun created hcreated => ?_
  · have hlive : (server.get (store.key job_id)).isSome = memory.contains job_id := by
      rw [hbacks.get_key, Option.isSome_map]
      rfl
    simp only [TextServer.exec, hlive]
    cases absent && memory.contains job_id with
    | true => exact ⟨rfl, hbacks⟩
    | false => exact ⟨rfl, hbacks.set hvalue⟩
  · have := hnext created hcreated
    rwa [hcreated] at this ⊢

-- Every call is answered as without a server, whatever goes on outside of the store.
theorem call_meets {call : StoreCall} (hlegal : call.legal interpreter float_repr) :
    Program.Meets (TextServer.exec · scan_order) (Outside scan_order store start)
      (Backs interpreter float_repr store start memory) (store.call interpreter float_repr call)
      (AnsweredAs interpreter float_repr scan_order store start (memory.call call)) := by
  cases call with
  | get job_id =>
      refine meets_step (fun raw : Option String =>
        ∃ server, Backs interpreter float_repr store start memory server ∧
          raw = server.get (store.key job_id)) memory
        (fun server hbacks => ⟨⟨server, hbacks, rfl⟩, hbacks⟩) ?_
      rintro _ ⟨server, hbacks, rfl⟩
      rw [hbacks.get_key, MemoryStore.call]
      cases hvalue : memory.get? job_id with
      | none => exact meets_ret rfl
      | some value =>
          have hload := load_dump (hbacks.legal job_id value hvalue)
            ("Unable to read job " ++ job_id)
          change Program.Meets _ _ _ (JobStore.load interpreter ("Unable to read job " ++ job_id)
            (JobStore.dump float_repr value) >>=
              fun value => .ret (StoreReply.found (some value))) _
          rw [hload]
          exact meets_ret rfl
  | set job_id value =>
      refine meets_set hlegal fun created hcreated => ?_
      subst hcreated
      exact meets_ret rfl
  | set_if_absent job_id value =>
      refine meets_set hlegal fun created hcreated => ?_
      simp only [MemoryStore.call]
      cases hstored : memory.contains job_id with
      | true =>
          rw [hstored] at hcreated
          subst hcreated
          exact meets_ret rfl
      | false =>
          rw [hstored] at hcreated
          subst hcreated
          exact meets_ret rfl
  | delete job_id =>
      refine meets_step (fun _ => True) (memory.erase job_id) (fun server hbacks => ?_)
        fun _ _ => meets_ret rfl
      refine ⟨trivial, hbacks.delete fun other => ?_⟩
      have hkey : store.key other = store.key job_id ↔ other = job_id :=
        ⟨fun heq => (JobStore.key_inj heq).2, congrArg store.key⟩
      simp [hkey]
  | values =>
      refine meets_step (Scanned scan_order store memory) memory
        (fun server hbacks => ⟨scanned_scan hbacks, hbacks⟩) ?_
      rintro _ ⟨ids, rfl, hids, honce⟩
      cases ids with
      | nil => exact meets_ret (values_alike hids honce)
      | cons job_id rest =>
          refine meets_step (fun raw_values : List (Option String) =>
            ∃ server, Backs interpreter float_repr store start memory server ∧
              raw_values = ((job_id :: rest).map store.key).map server.get) memory
            (fun server hbacks => ⟨⟨server, hbacks, rfl⟩, hbacks⟩) ?_
          rintro _ ⟨server, hbacks, rfl⟩
          change Program.Meets _ _ _ (JobStore.load_all interpreter
            (((job_id :: rest).map store.key).map server.get) >>=
              fun values => .ret (StoreReply.values values)) _
          rw [load_all_texts hbacks]
          exact meets_ret (values_alike hids honce)
  | clear =>
      refine meets_step (Scanned scan_order store memory) memory
        (fun server hbacks => ⟨scanned_scan hbacks, hbacks⟩) ?_
      rintro _ ⟨ids, rfl, hids, -⟩
      have hmissing {job_id : String} (hmem : job_id ∉ ids) : memory.get? job_id = none :=
        Option.not_isSome_iff_eq_none.mp (mt (hids job_id).mpr hmem)
      cases ids with
      | nil =>
          refine .ret Backs.stable fun server hbacks => ⟨_, rfl, rfl, hbacks.congr fun other => ?_⟩
          exact (hmissing List.not_mem_nil).symm
      | cons job_id rest =>
          refine meets_step (fun _ => True) .empty (fun server hbacks => ⟨trivial, ?_⟩)
            fun _ _ => meets_ret rfl
          refine hbacks.delete fun other => ?_
          split_ifs with hmem
          · rfl
          · exact (hmissing fun hid => hmem (List.mem_map_of_mem hid)).symm
  | len =>
      refine meets_step (Scanned scan_order store memory) memory
        (fun server hbacks => ⟨scanned_scan hbacks, hbacks⟩) ?_
      rintro _ ⟨ids, rfl, hids, honce⟩
      refine meets_ret ⟨?_, fun hscan => ?_⟩
      · simpa using (subperm_ids hids).length_le
      · simpa using (perm_ids hids (honce hscan)).length_eq

end Backs

section Runs

-- Calls of the store, one after the other, and the answers to them.
inductive Serves (interpreter : Interpreter) (float_repr : ℚ → String) (scan_order : ScanOrder)
    (store : JobStore) (start : ℚ) : List StoreCall → TextServer →
      List (Except ServiceError StoreReply) → TextServer → Prop
  | nil {server} : Serves interpreter float_repr scan_order store start [] server [] server
  | cons {call rest server result mid results last}
      (hcall : Program.Amid (TextServer.exec · scan_order) (Outside scan_order store start)
        (store.call interpreter float_repr call) server result mid)
      (hrest : Serves interpreter float_repr scan_order store start rest mid results last) :
      Serves interpreter float_repr scan_order store start (call :: rest) server
        (result :: results) last

-- The answers of the store without a server.
def MemoryStore.answers : List StoreCall → MemoryStore → List StoreReply
  | [], _ => []
  | call :: rest, memory => (memory.call call).1 :: answers rest (memory.call call).2

variable {interpreter : Interpreter} {float_repr : ℚ → String} {store : JobStore} {start : ℚ}
  {memory : MemoryStore} {server : TextServer} {scan_order : ScanOrder}

theorem serves_alike {calls : List StoreCall} {results : List (Except ServiceError StoreReply)}
    {last : TextServer} (h : Serves interpreter float_repr scan_order store start calls server
      results last) (hlegal : ∀ call ∈ calls, call.legal interpreter float_repr)
    (hbacks : Backs interpreter float_repr store start memory server) :
    List.Forall₂ (fun expected result => ∃ reply, result = .ok reply ∧
      AnswersAlike scan_order expected reply)
      (memory.answers calls) results := by
  induction h generalizing memory with
  | nil => exact .nil
  | cons hcall hrest ih =>
      obtain ⟨reply, hok, halike, hnext⟩ :=
        call_meets (hlegal _ List.mem_cons_self) _ _ _ hbacks hcall
      exact .cons ⟨reply, hok, halike⟩
        (ih (fun call hmem => hlegal call (List.mem_cons_of_mem _ hmem)) hnext)

-- A store with nothing in it.
def JobStore.small : JobStore := ⟨"status", 10, by decide, by decide⟩

def ScanOrder.stored : ScanOrder := ⟨id, fun _ _ => Iff.rfl⟩

theorem backs_empty : Backs .tenths tenths .small 0 .empty ⟨0, .empty⟩ where
  from_start := le_rfl
  in_time := by norm_num [JobStore.small]
  texts _ := rfl
  lasting := by rintro _ _ ⟨⟩
  legal := by rintro _ _ ⟨⟩

-- The server with one record of the store.
def TextServer.small : TextServer :=
  ⟨0, .set .empty (JobStore.small.key "a")
    ⟨JobStore.dump tenths [], 0 + JobStore.small.ttl_seconds⟩⟩

theorem serves_alike_small : List.Forall₂
    (fun (expected : StoreReply) (result : Except ServiceError StoreReply) =>
      ∃ reply, result = .ok reply ∧ AnswersAlike .stored expected reply)
    (MemoryStore.answers [.len, .set "a" [], .delete "a"] (.set .empty "a" []))
    [.ok (.count 1), .ok .done, .ok .done] := by
  have hlegal : Legal .tenths tenths [] := .dict List.nodup_nil (List.forall_mem_nil _)
  have hbacks : Backs .tenths tenths .small 0 (.set .empty "a" []) .small := backs_empty.set hlegal
  have hserves : Serves .tenths tenths .stored .small 0
      [.len, .set "a" [], .delete "a"] .small
      [.ok (.count (TextServer.small.exec .stored (.scan JobStore.small.pattern)).1.length),
        .ok .done, .ok .done] _ :=
    .cons (.call .ret) (.cons (.call .ret) (.cons (.call .ret) .nil))
  have hscan : (TextServer.small.exec .stored (.scan JobStore.small.pattern)).1.length = 1 := by
    decide +kernel
  rw [hscan] at hserves
  exact serves_alike hserves (by simpa [StoreCall.legal] using hlegal) hbacks

end Runs

section Isolated

variable {interpreter : Interpreter} {float_repr : ℚ → String} {store store' : JobStore}
  {start : ℚ} {memory : MemoryStore} {server : TextServer} {scan_order : ScanOrder} {α β : Type}

-- What an operation may answer, whatever the server holds.
def Plausible : (op : StoreOp) → op.Reply → Prop
  | .scan pattern, keys => ∀ key ∈ keys, glob pattern.toList key.toList = true
  | _, _ => True

-- Whatever comes back, the program changes keys of the store only.
def Confined (store : JobStore) : StoreProgram α → Prop
  | .ret _ | .raise _ => True
  | .call op next => (∀ key ∈ op.touches, ∃ job_id, key = store.key job_id) ∧
      ∀ reply, Plausible op reply → Confined store (next reply)

theorem plausible_exec (op : StoreOp) : Plausible op (server.exec scan_order op).1 := by
  cases op with
  | scan pattern =>
      intro key hmem
      have hkey := (scan_order.mem _ _).mp hmem
      exact (Bool.and_eq_true_iff.mp (List.mem_filter.mp hkey).2).2
  | _ => trivial

theorem confined_load (failure text : String) :
    Confined store (JobStore.load interpreter failure text) := by
  unfold JobStore.load
  split <;> trivial

theorem Confined.bind {program : StoreProgram α} {next : α → StoreProgram β}
    (h : Confined store program) (hnext : ∀ value, Confined store (next value)) :
    Confined store (program >>= next) := by
  induction program with
  | ret value => exact hnext value
  | raise error => trivial
  | call op rest ih => exact ⟨h.1, fun reply hreply => ih reply (h.2 reply hreply)⟩

theorem confined_load_all (raw_values : List (Option String)) :
    Confined store (JobStore.load_all interpreter raw_values) := by
  induction raw_values with
  | nil => trivial
  | cons raw rest ih =>
      cases raw with
      | none => exact ih
      | some text =>
          exact (confined_load _ text).bind fun value => ih.bind fun values => trivial

theorem confined_call (call : StoreCall) :
    Confined store (store.call interpreter float_repr call) := by
  cases call with
  | get job_id =>
      refine ⟨by simp [StoreOp.touches], fun raw _ => ?_⟩
      cases raw with
      | none => trivial
      | some text => exact (confined_load _ text).bind fun value => trivial
  | set job_id value | set_if_absent job_id value | delete job_id =>
      exact ⟨by simp [StoreOp.touches], fun _ _ => trivial⟩
  | values =>
      refine ⟨by simp [StoreOp.touches], fun keys _ => ?_⟩
      cases keys with
      | nil => trivial
      | cons key rest =>
          exact ⟨by simp [StoreOp.touches], fun raw_values _ =>
            (confined_load_all raw_values).bind fun values => trivial⟩
  | clear =>
      refine ⟨by simp [StoreOp.touches], fun keys hkeys => ?_⟩
      cases keys with
      | nil => trivial
      | cons key rest =>
          exact ⟨fun key hmem => JobStore.glob_pattern.mp (hkeys key hmem), fun _ _ => trivial⟩
  | len => exact ⟨by simp [StoreOp.touches], fun keys _ => trivial⟩

variable {ι : Type} [DecidableEq ι]

-- Clients of stores with other names, one operation at a time and in any order, with the
-- clock going on.
abbrev StorePool (ι : Type) := Pool ι StoreOp StoreOp.Reply TextServer ServiceError StoreReply

def store_step (scan_order : ScanOrder) :
    ι → TextServer → (op : StoreOp) → op.Reply → TextServer → Prop :=
  fun _ server op reply server' => server.exec scan_order op = (reply, server')

def store_clock (last : ℚ) (server server' : TextServer) : Prop :=
  ∃ now, server.now ≤ now ∧ now ≤ last ∧ server' = { server with now }

theorem others_keep {start_pool pool : StorePool ι}
    (hrun : Run (store_step scan_order) (store_clock (start + store.ttl_seconds)) Unrestricted
      start_pool pool)
    (hbacks : Backs interpreter float_repr store start memory start_pool.world.state)
    (hothers : ∀ client, ∃ other : JobStore, other.name ≠ store.name ∧
      ∃ call, start_pool.threads client = other.call interpreter float_repr call) :
    Backs interpreter float_repr store start memory pool.world.state := by
  have hinv := hrun.invariant (fun pool =>
    Backs interpreter float_repr store start memory pool.world.state ∧
      ∀ client, ∃ other : JobStore, other.name ≠ store.name ∧ Confined other (pool.threads client))
    ⟨hbacks, fun client => ?_⟩ ?_
  · exact hinv.1
  · obtain ⟨other, hne, call, hcall⟩ := hothers client
    exact ⟨other, hne, hcall ▸ confined_call call⟩
  · rintro pool event pool' ⟨hpool, hconfined⟩ hstep -
    cases hstep with
    | environment henv =>
        obtain ⟨now, hlater, hend, rfl⟩ := henv
        exact ⟨@Backs.stable _ _ _ _ _ scan_order _ _ (.clock hlater hend) hpool, hconfined⟩
    | @call client op next reply state hthread hexec =>
        obtain ⟨other, hne, hprogram⟩ := hconfined client
        rw [hthread] at hprogram
        obtain ⟨htouches, hnext⟩ := hprogram
        have hreply : Plausible op reply := by
          have := @plausible_exec pool.world.state scan_order op
          rwa [hexec] at this
        refine ⟨?_, fun thread => ?_⟩
        · have hforeign : ∀ key ∈ op.touches, ∀ job_id, key ≠ store.key job_id := by
            intro key hmem job_id heq
            obtain ⟨other_id, rfl⟩ := htouches key hmem
            exact hne (JobStore.key_inj heq).1
          have hkept := Backs.stable _ _ (@Outside.op scan_order store start _ op hforeign) hpool
          rwa [hexec] at hkept
        · rcases eq_or_ne thread client with rfl | hother
          · exact ⟨other, hne, by simpa using hnext reply hreply⟩
          · simpa [hother] using hconfined thread

def JobStore.other : JobStore := ⟨"result", 10, by decide, by decide⟩

-- Another store is cleared at the server.
def clear_pool : StorePool (Fin 1) where
  world := ⟨((TextServer.mk 0 (.set .empty (JobStore.small.key "a")
    ⟨JobStore.dump tenths [], 0 + JobStore.small.ttl_seconds⟩)).exec .stored
      (.set (JobStore.other.key "b") "\x7b\x7d" 10 false)).2, []⟩
  threads _ := JobStore.other.call .tenths tenths .clear

theorem others_keep_small : Backs .tenths tenths .small 0 (.set .empty "a" [])
    (clear_pool.schedule (fun _ _ server op => server.exec .stored op)
      [((0 : Fin 1), ()), (0, ())]).world.state := by
  have hstored : Backs .tenths tenths .small 0 (.set .empty "a" []) clear_pool.world.state := by
    refine Backs.stable _ _ (@Outside.op .stored .small 0 _ _ ?_)
      (backs_empty.set (.dict List.nodup_nil (List.forall_mem_nil _)))
    refine List.forall_mem_singleton.mpr fun job_id heq => ?_
    exact absurd (JobStore.key_inj heq).1 (by decide)
  exact others_keep (.schedule (fun _ _ _ _ => rfl) .start _ (respects_unrestricted _ _)) hstored
    fun _ => ⟨.other, by decide, .clear, rfl⟩

end Isolated

end ResearchAgent.Service
