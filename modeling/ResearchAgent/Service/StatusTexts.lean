import ResearchAgent.Library.Refinement
import ResearchAgent.Service.JobStore
import ResearchAgent.Service.Runs

namespace ResearchAgent.Service

open Library JobQueue Research

namespace JobState

def literal : JobState → String
  | pending => "pending"
  | running => "running"
  | retrying => "retrying"
  | awaiting_approval => "awaiting_approval"
  | approved => "approved"
  | rejected => "rejected"
  | completed => "completed"
  | failed => "failed"

def all : List JobState :=
  [pending, running, retrying, awaiting_approval, approved, rejected, completed, failed]

def of_literal (text : String) : Option JobState := all.find? fun state => state.literal = text

@[simp] theorem of_literal_literal (state : JobState) : of_literal state.literal = some state := by
  cases state <;> decide

end JobState

def json_text : Option String → JSONValue
  | none => .null
  | some text => .str text

namespace JobStatus

-- `model_dump(mode="json")`
def model_dump (job : JobStatus) : JSONObject :=
  [("job_id", .str job.job_id), ("status", .str job.status.literal),
   ("tenant_id", .str job.tenant_id), ("principal_id", .str job.principal_id),
   ("created_at", .str job.created_at), ("completed_at", json_text job.completed_at),
   ("approved_at", json_text job.approved_at), ("approved_by", json_text job.approved_by),
   ("report", match job.report with
    | none => .null
    | some report => .dict report),
   ("error", json_text job.error), ("attempt", .int job.attempt),
   ("tool_calls_count", .int job.tool_calls_count), ("llm_calls_count", .int job.llm_calls_count),
   ("input_tokens", .int job.input_tokens), ("output_tokens", .int job.output_tokens)]

def read_str (raw : JSONObject) (field : String) : Except ServiceError String :=
  match raw.lookup field with
  | some (.str text) => .ok text
  | some _ => .error (.ValidationError field "Input should be a valid string")
  | none => .error (.ValidationError field "Field required")

def read_optional_str (raw : JSONObject) (field : String) : Except ServiceError (Option String) :=
  match raw.lookup field with
  | some (.str text) => .ok (some text)
  | some .null | none => .ok none
  | some _ => .error (.ValidationError field "Input should be a valid string")

def read_status (raw : JSONObject) : Except ServiceError JobState :=
  let invalid := .error (.ValidationError "status" ("Input should be 'pending', 'running', " ++
    "'retrying', 'awaiting_approval', 'approved', 'rejected', 'completed' or 'failed'"))
  match raw.lookup "status" with
  | some (.str text) =>
      match JobState.of_literal text with
      | some state => .ok state
      | none => invalid
  | some _ => invalid
  | none => .error (.ValidationError "status" "Field required")

def read_report (raw : JSONObject) : Except ServiceError (Option JSONObject) :=
  match raw.lookup "report" with
  | some (.dict report) => .ok (some report)
  | some .null | none => .ok none
  | some _ => .error (.ValidationError "report" "Input should be a valid dictionary")

variable (int_text : String → Option ℤ)

-- `int_text` is what pydantic makes of a text where an integer is due.
def read_int (raw : JSONObject) (field : String) : Except ServiceError ℤ :=
  match raw.lookup field with
  | none => .ok 0
  | some (.int value) => .ok value
  | some (.bool value) => .ok (if value then 1 else 0)
  | some (.float value) =>
      if value.den ≠ 1 then .error (.ValidationError field
        "Input should be a valid integer, got a number with a fractional part")
      else if value.num.natAbs < 2 ^ 63 then .ok value.num
      else .error (.ValidationError field
        "Unable to parse input string as an integer, exceeded maximum size")
  | some (.nonfinite _) => .error (.ValidationError field "Input should be a finite number")
  | some (.str text) =>
      match int_text text with
      | some value => .ok value
      | none => .error (.ValidationError field
          "Input should be a valid integer, unable to parse string as an integer")
  | some _ => .error (.ValidationError field "Input should be a valid integer")

def model_validate (raw : JSONObject) : Except ServiceError JobStatus := do
  let job_id ← read_str raw "job_id"
  let status ← read_status raw
  let tenant_id ← read_str raw "tenant_id"
  let principal_id ← read_str raw "principal_id"
  let created_at ← read_str raw "created_at"
  let completed_at ← read_optional_str raw "completed_at"
  let approved_at ← read_optional_str raw "approved_at"
  let approved_by ← read_optional_str raw "approved_by"
  let report ← read_report raw
  let error ← read_optional_str raw "error"
  let attempt ← read_int int_text raw "attempt"
  let tool_calls_count ← read_int int_text raw "tool_calls_count"
  let llm_calls_count ← read_int int_text raw "llm_calls_count"
  let input_tokens ← read_int int_text raw "input_tokens"
  let output_tokens ← read_int int_text raw "output_tokens"
  return { job_id, status, tenant_id, principal_id, created_at, completed_at, approved_at,
           approved_by, report, error, attempt, tool_calls_count, llm_calls_count, input_tokens,
           output_tokens }

theorem read_optional_str_dump {raw : JSONObject} {field : String} {text : Option String}
    (h : raw.lookup field = some (json_text text)) : read_optional_str raw field = .ok text := by
  unfold read_optional_str
  rw [h]
  cases text <;> rfl

theorem model_validate_dump (job : JobStatus) :
    model_validate int_text job.model_dump = .ok job := by
  have hstatus : read_status job.model_dump = .ok job.status := by
    simp [read_status, model_dump, List.lookup_cons]
  have hreport : read_report job.model_dump = .ok job.report := by
    unfold read_report
    rw [show job.model_dump.lookup "report" = some (match job.report with
      | none => .null
      | some report => .dict report) from rfl]
    cases job.report <;> rfl
  have hcompleted : read_optional_str job.model_dump "completed_at" = .ok job.completed_at :=
    read_optional_str_dump rfl
  have happroved : read_optional_str job.model_dump "approved_at" = .ok job.approved_at :=
    read_optional_str_dump rfl
  have hby : read_optional_str job.model_dump "approved_by" = .ok job.approved_by :=
    read_optional_str_dump rfl
  have herror : read_optional_str job.model_dump "error" = .ok job.error :=
    read_optional_str_dump rfl
  unfold model_validate
  rw [hstatus, hreport, hcompleted, happroved, hby, herror]
  rfl

end JobStatus

-- How the texts at the server are written and read.
structure TextSettings where
  interpreter : Interpreter
  float_repr : ℚ → String
  int_text : String → Option ℤ
  store : JobStore
  scan_order : ScanOrder

namespace TextSettings

variable (texts : TextSettings)

def call (call : StoreCall) : StoreProgram StoreReply :=
  texts.store.call texts.interpreter texts.float_repr call

def validate : JSONValue → StoreProgram JobStatus
  | .dict raw =>
      match JobStatus.model_validate texts.int_text raw with
      | .ok job => .ret job
      | .error error => .raise error
  | _ => .raise (.ValidationError "JobStatus"
      "Input should be a valid dictionary or instance of JobStatus")

def validate_all : List JSONValue → StoreProgram (List JobStatus)
  | [] => .ret []
  | value :: rest => do
      let job ← texts.validate value
      let jobs ← validate_all rest
      .ret (job :: jobs)

-- `_get_job`
def get_job (job_id : String) : StoreProgram (Option JobStatus) := do
  match ← texts.call (.get job_id) with
  | .found (some raw) => do
      let job ← texts.validate raw
      .ret (some job)
  | _ => .ret none

-- `_save_job`
def save_job (job_id : String) (job : JobStatus) : StoreProgram Unit := do
  let _ ← texts.call (.set job_id job.model_dump)
  .ret ()

def create_job (job_id : String) (job : JobStatus) : StoreProgram Bool := do
  match ← texts.call (.set_if_absent job_id job.model_dump) with
  | .created created => .ret created
  | _ => .ret false

def delete_job (job_id : String) : StoreProgram Unit := do
  let _ ← texts.call (.delete job_id)
  .ret ()

def list_jobs : StoreProgram (List JobStatus) := do
  match ← texts.call .values with
  | .values values => texts.validate_all values
  | _ => .ret []

-- The text of a record.
def text (job : JobStatus) : String := JobStore.dump texts.float_repr job.model_dump

end TextSettings

-- The platform with its status records as texts at a server. Everything else is in `others`.
structure TextPlatform (queue : Queue) where
  server : TextServer
  others : Platform queue

namespace TextPlatform

variable {queue : Queue} {α : Type} (texts : TextSettings) (settings : Settings)
  (outcome : Outcome queue) (platform : TextPlatform queue)

def run (program : StoreProgram α) : Except ServiceError α × TextPlatform queue :=
  (program.run (TextServer.exec · texts.scan_order) platform.server).map id
    fun server => { platform with server }

def effect : (op : ServiceOp) → op.Reply × TextPlatform queue
  | .jobs_get job_id => platform.run texts (texts.get_job job_id)
  | .jobs_set job_id job => platform.run texts (texts.save_job job_id job)
  | .jobs_set_if_absent job_id job => platform.run texts (texts.create_job job_id job)
  | .jobs_delete job_id => platform.run texts (texts.delete_job job_id)
  | .jobs_values => platform.run texts texts.list_jobs
  | op => (platform.others.effect settings outcome op).map id
      fun others => { platform with others }

def exec : (op : ServiceOp) → op.Reply × TextPlatform queue
  | .now => platform.effect texts settings outcome .now
  | .uuid4 => platform.effect texts settings outcome .uuid4
  | op =>
      match outcome.fault with
      | some error => (.error error, platform)
      | none => platform.effect texts settings outcome op

end TextPlatform

section Records

variable {queue : Queue} {texts : TextSettings} {settings : Settings} {outcome : Outcome queue}
  {platform : Platform queue} {stored : TextPlatform queue} {job_id : String} {job : JobStatus}

-- The record can be written and read back.
def Storable (texts : TextSettings) (job : JobStatus) : Prop :=
  Legal texts.interpreter texts.float_repr job.model_dump

-- The server has the text of every record, and no other text of the store.
structure Records (texts : TextSettings) (platform : Platform queue)
    (stored : TextPlatform queue) : Prop where
  held : ∀ job_id, stored.server.get (texts.store.key job_id) =
    (platform.jobs.get? job_id).map texts.text
  storable : ∀ job_id, ∀ job ∈ platform.jobs.get? job_id, Storable texts job
  others : stored.others = { platform with jobs := .empty }

theorem get_job_run (h : Records texts platform stored) (job_id : String) :
    stored.run texts (texts.get_job job_id) = (.ok (platform.jobs.get? job_id), stored) := by
  have htext := h.held job_id
  cases hjob : platform.jobs.get? job_id with
  | none =>
      rw [hjob] at htext
      simp [TextPlatform.run, TextSettings.get_job, TextSettings.call, JobStore.call,
        TextServer.exec, htext]
  | some job =>
      rw [hjob] at htext
      have hload := load_dump (h.storable job_id job hjob) ("Unable to read job " ++ job_id)
      simp [TextPlatform.run, TextSettings.get_job, TextSettings.call, JobStore.call,
        TextServer.exec, htext, TextSettings.text, hload, TextSettings.validate,
        JobStatus.model_validate_dump]

-- After a SET the server has the text that was written.
theorem get_set (server : TextServer) (key other text : String) :
    TextServer.get ⟨server.now, server.keys.set key
      ⟨text, server.now + texts.store.ttl_seconds⟩⟩ other =
      if other = key then some text else server.get other := by
  unfold TextServer.get
  rw [Dict.get?_set]
  by_cases hkey : other = key
  · simp [hkey]
  · simp [hkey]

theorem get_delete (server : TextServer) (key other : String) :
    TextServer.get { server with keys := server.keys.restrict fun stored => stored ∉ [key] } other =
      if other = key then none else server.get other := by
  unfold TextServer.get
  rw [Dict.get?_restrict]
  by_cases hkey : other = key
  · simp [hkey]
  · simp [hkey]

theorem key_eq_iff {other : String} : texts.store.key other = texts.store.key job_id ↔
    other = job_id :=
  ⟨fun heq => (JobStore.key_inj heq).2, congrArg texts.store.key⟩

theorem Records.set (h : Records texts platform stored) (hjob : Storable texts job) :
    Records texts { platform with jobs := platform.jobs.set job_id job }
      { stored with server := ⟨stored.server.now, stored.server.keys.set (texts.store.key job_id)
        ⟨texts.text job, stored.server.now + texts.store.ttl_seconds⟩⟩ } := by
  refine ⟨fun other => ?_, fun other => ?_, h.others⟩
  · simp only [get_set, key_eq_iff, Dict.get?_set]
    split
    · rfl
    · exact h.held other
  · simp only [Dict.get?_set]
    split
    · rintro _ ⟨⟩
      exact hjob
    · exact h.storable other

theorem Records.erase (h : Records texts platform stored) (job_id : String) :
    Records texts { platform with jobs := platform.jobs.erase job_id }
      { stored with server := { stored.server with
        keys := stored.server.keys.restrict fun key => key ∉ [texts.store.key job_id] } } := by
  refine ⟨fun other => ?_, fun other => ?_, h.others⟩
  · simp only [get_delete, key_eq_iff, Dict.get?_erase]
    split
    · rfl
    · exact h.held other
  · simp only [Dict.get?_erase]
    split
    · rintro _ ⟨⟩
    · exact h.storable other

-- What an operation brings can be stored; the records are not listed, which the server does
-- in an order of its own.
def Orderly (texts : TextSettings) : ServiceOp → Prop
  | .jobs_set _ job | .jobs_set_if_absent _ job => Storable texts job
  | .jobs_values => False
  | _ => True

theorem create_alike (h : Records texts platform stored) (hjob : Storable texts job) :
    (platform.effect settings outcome (.jobs_set_if_absent job_id job)).1 =
        (stored.effect texts settings outcome (.jobs_set_if_absent job_id job)).1 ∧
      Records texts (platform.effect settings outcome (.jobs_set_if_absent job_id job)).2
        (stored.effect texts settings outcome (.jobs_set_if_absent job_id job)).2 := by
  have hlive : (stored.server.get (texts.store.key job_id)).isSome =
      platform.jobs.contains job_id := by
    rw [h.held, Option.isSome_map]
    rfl
  simp only [Platform.effect, Platform.set_if_absent, TextPlatform.effect, TextPlatform.run,
    TextSettings.create_job, TextSettings.call, JobStore.call, Program.call_bind, Program.ret_bind,
    Program.run_call, TextServer.exec, Bool.true_and, hlive]
  cases platform.jobs.contains job_id with
  | true => exact ⟨rfl, h⟩
  | false => exact ⟨rfl, h.set hjob⟩

theorem effect_alike (h : Records texts platform stored) {op : ServiceOp}
    (horderly : Orderly texts op) :
    (platform.effect settings outcome op).1 = (stored.effect texts settings outcome op).1 ∧
      Records texts (platform.effect settings outcome op).2
        (stored.effect texts settings outcome op).2 := by
  cases op with
  | jobs_get job_id =>
      simp only [Platform.effect, TextPlatform.effect, get_job_run h]
      exact ⟨trivial, h⟩
  | jobs_set job_id job => exact ⟨rfl, h.set horderly⟩
  | jobs_set_if_absent job_id job => exact create_alike h horderly
  | jobs_delete job_id => exact ⟨rfl, h.erase job_id⟩
  | jobs_values => exact horderly.elim
  | acquire_job_slot tenant_id =>
      obtain ⟨server, others⟩ := stored
      obtain ⟨hheld, hstorable, rfl⟩ := h
      simp only [Platform.effect, TextPlatform.effect, Platform.acquire_job_slot]
      split
      · exact ⟨rfl, hheld, hstorable, rfl⟩
      · exact ⟨rfl, hheld, hstorable, rfl⟩
  | _ =>
      obtain ⟨server, others⟩ := stored
      obtain ⟨hheld, hstorable, rfl⟩ := h
      exact ⟨rfl, hheld, hstorable, rfl⟩

theorem exec_alike (h : Records texts platform stored) {op : ServiceOp}
    (horderly : Orderly texts op) :
    (platform.exec settings outcome op).1 = (stored.exec texts settings outcome op).1 ∧
      Records texts (platform.exec settings outcome op).2
        (stored.exec texts settings outcome op).2 := by
  have heffect := @effect_alike queue texts settings outcome platform stored h op horderly
  cases op with
  | now | uuid4 => exact heffect
  | _ =>
      simp only [Platform.exec, TextPlatform.exec]
      cases outcome.fault with
      | some error => exact ⟨rfl, h⟩
      | none => exact heffect

theorem expire_all (platform : Platform queue) (ids : List String) :
    Relation.ReflTransGen Elapse platform
      { platform with jobs := ids.foldl Dict.erase platform.jobs } := by
  induction ids generalizing platform with
  | nil => exact .refl
  | cons job_id rest ih =>
      exact .head (.job_expires job_id) (ih { platform with jobs := platform.jobs.erase job_id })

theorem get?_erase_all (jobs : Dict String JobStatus) (ids : List String) (other : String) :
    (ids.foldl Dict.erase jobs).get? other = if other ∈ ids then none else jobs.get? other := by
  induction ids generalizing jobs with
  | nil => simp
  | cons job_id rest ih =>
      rw [List.foldl_cons, ih, Dict.get?_erase]
      by_cases hrest : other ∈ rest
      · simp [hrest]
      · simp [hrest]

-- With time a text can only go.
theorem get_later {server : TextServer} {now : ℚ} (hlater : server.now ≤ now) (key : String) :
    TextServer.get { server with now } key = server.get key ∨
      TextServer.get { server with now } key = none := by
  unfold TextServer.get
  cases server.keys.get? key with
  | none => exact .inl rfl
  | some stored =>
      simp only [Option.filter_some, decide_eq_true_eq]
      by_cases hlive : now ≤ stored.expires_at
      · rw [if_pos hlive, if_pos (hlater.trans hlive)]
        exact .inl rfl
      · rw [if_neg hlive]
        exact .inr rfl

theorem Records.clock (h : Records texts platform stored) {now : ℚ}
    (hlater : stored.server.now ≤ now) :
    ∃ platform', Relation.ReflTransGen Elapse platform platform' ∧
      Records texts platform' { stored with server := { stored.server with now } } := by
  -- The records whose texts are gone expire one after another.
  let gone := (platform.jobs.entries.map Prod.fst).filter fun job_id =>
    (TextServer.get { stored.server with now } (texts.store.key job_id)).isNone
  have hgone : ∀ job_id job, platform.jobs.get? job_id = some job → (job_id ∈ gone ↔
      TextServer.get { stored.server with now } (texts.store.key job_id) = none) := by
    intro job_id job hjob
    have hmem : job_id ∈ platform.jobs.entries.map Prod.fst :=
      List.mem_map_of_mem ((platform.jobs.get?_eq_some_iff _ _).mp hjob)
    simp [gone, List.mem_filter, hmem, Option.isNone_iff_eq_none]
  refine ⟨_, expire_all platform gone, fun job_id => ?_, fun job_id => ?_, h.others⟩
  · rw [get?_erase_all]
    have hheld := h.held job_id
    cases hjob : platform.jobs.get? job_id with
    | none =>
        rw [hjob] at hheld
        rcases get_later hlater (texts.store.key job_id) with hsame | hnone
        · rw [hsame, hheld]
          split <;> rfl
        · rw [hnone]
          split <;> rfl
    | some job =>
        rw [hjob] at hheld
        have hiff := hgone job_id job hjob
        rcases get_later hlater (texts.store.key job_id) with hsame | hnone
        · have hnot : job_id ∉ gone := by
            rw [hiff, hsame, hheld]
            simp
          rw [hsame, hheld, if_neg hnot]
        · rw [hnone, if_pos (hiff.mpr hnone)]
          rfl
  · rw [get?_erase_all]
    split
    · rintro _ ⟨⟩
    · exact h.storable job_id

-- What happens at the server without any thread: the clock goes on, and there are operations
-- on keys of other kinds. The rest of the platform goes on by itself as before.
inductive TextElapse (texts : TextSettings) : TextPlatform queue → TextPlatform queue → Prop
  | clock {stored : TextPlatform queue} {now : ℚ} (hlater : stored.server.now ≤ now) :
      TextElapse texts stored { stored with server := { stored.server with now } }
  | foreign {stored : TextPlatform queue} {op : StoreOp}
      (h : ∀ key ∈ op.touches, ∀ job_id, key ≠ texts.store.key job_id) :
      TextElapse texts stored
        { stored with server := (stored.server.exec texts.scan_order op).2 }
  | others {stored : TextPlatform queue} {others : Platform queue}
      (h : Elapse stored.others others) : TextElapse texts stored { stored with others }

theorem Records.foreign (h : Records texts platform stored) {op : StoreOp}
    (hforeign : ∀ key ∈ op.touches, ∀ job_id, key ≠ texts.store.key job_id) :
    Records texts platform
      { stored with server := (stored.server.exec texts.scan_order op).2 } := by
  refine ⟨fun job_id => ?_, h.storable, h.others⟩
  have huntouched := @exec_untouched stored.server texts.scan_order op (texts.store.key job_id)
    fun hmem => hforeign _ hmem job_id rfl
  rw [← h.held job_id]
  unfold TextServer.get
  rw [huntouched.1, huntouched.2]

theorem Records.elapse (h : Records texts platform stored) {others : Platform queue}
    (helapse : Elapse stored.others others) :
    ∃ platform', Relation.ReflTransGen Elapse platform platform' ∧
      Records texts platform' { stored with others } := by
  obtain ⟨hheld, hstorable, hothers⟩ := h
  rw [hothers] at helapse
  cases helapse with
  | job_expires job_id => exact ⟨platform, .refl, hheld, hstorable, rfl⟩
  | result_expires job_id => exact ⟨_, .single (.result_expires job_id), hheld, hstorable, rfl⟩
  | slots_expire tenant_id => exact ⟨_, .single (.slots_expire tenant_id), hheld, hstorable, rfl⟩
  | queue state => exact ⟨_, .single (.queue state), hheld, hstorable, rfl⟩

end Records

section Pools

variable {ι : Type} [DecidableEq ι] {queue : Queue} {texts : TextSettings} {settings : Settings}

abbrev TextPool (ι : Type) (queue : Queue) :=
  Pool ι ServiceOp ServiceOp.Reply (TextPlatform queue) ServiceError Answer

def text_perform (texts : TextSettings) (settings : Settings) (outcome : Outcome queue) (_ : ι)
    (stored : TextPlatform queue) (op : ServiceOp) : op.Reply × TextPlatform queue :=
  stored.exec texts settings outcome op

def text_step (texts : TextSettings) (settings : Settings) (thread : ι)
    (stored : TextPlatform queue) (op : ServiceOp) (reply : op.Reply)
    (stored' : TextPlatform queue) : Prop :=
  ∃ outcome, text_perform texts settings outcome thread stored op = (reply, stored')

-- What any threads do with the records as texts at the server, with their time to live, they
-- do with the records themselves: the same operations with the same answers.
theorem status_texts_refine {start : ServicePool ι queue} {start' pool' : TextPool ι queue}
    (hrun : Run (text_step texts settings) (TextElapse texts)
      (fun _ event => ∀ performed ∈ event, Orderly texts performed.op) start' pool')
    (hstart : Alike (Records texts) start start') :
    ∃ pool, Run (service_step settings) Elapse Unrestricted start pool ∧
      Alike (Records texts) pool pool' := by
  refine Run.refines ?_ ?_ hrun hstart
  · rintro thread platform stored op reply stored' hrecords ⟨outcome, hexec⟩ ⟨-, horderly⟩
    have halike := @exec_alike queue texts settings outcome platform stored hrecords op
      (horderly _ rfl)
    rw [show stored.exec texts settings outcome op = (reply, stored') from hexec] at halike
    exact ⟨_, ⟨outcome, Prod.ext halike.1 rfl⟩, halike.2⟩
  · intro platform stored stored' hrecords helapse
    cases helapse with
    | clock hlater => exact hrecords.clock hlater
    | foreign hforeign => exact ⟨platform, .refl, hrecords.foreign hforeign⟩
    | others hothers => exact hrecords.elapse hothers

def TextSettings.small : TextSettings where
  interpreter := .tenths
  float_repr := tenths
  int_text _ := none
  store := .small
  scan_order := .stored

def JobStatus.small : JobStatus where
  job_id := "a"
  status := .pending
  tenant_id := "tenant"
  principal_id := "principal"
  created_at := "1000"

theorem storable_small : Storable .small .small := by
  refine .dict (by decide) ?_
  have hzero : (Nat.toDigits 10 (0 : ℤ).natAbs).length ≤ MAX_STR_DIGITS := by decide
  simpa [JobStatus.model_dump, JobStatus.small, json_text] using
    ⟨Legible.str _, .str _, .str _, .str _, .str _, .null, .int hzero⟩

def create_and_get : ServiceProgram Answer := do
  let _ ← Client.jobs_set_if_absent "a" .small
  let _ ← Client.jobs_get "a"
  .ret .done

def idle : Platform (job_queue .default) := .empty (Backend.memory .empty)

def status_pool : ServicePool (Fin 1) (job_queue .default) := ⟨⟨idle, []⟩, fun _ => create_and_get⟩

def text_pool : TextPool (Fin 1) (job_queue .default) :=
  ⟨⟨⟨⟨0, .empty⟩, idle⟩, []⟩, fun _ => create_and_get⟩

def created_pool : TextPool (Fin 1) (job_queue .default) :=
  text_pool.schedule (text_perform .small .small) [(0, { queue := ⟨0, []⟩ })]

def later_pool : TextPool (Fin 1) (job_queue .default) :=
  ⟨⟨{ created_pool.world.state with server := { created_pool.world.state.server with now := 11 } },
    created_pool.world.trace⟩, created_pool.threads⟩

-- The record is gone ten seconds after it was written.
theorem status_texts_refine_expired : ∃ pool : ServicePool (Fin 1) (job_queue .default),
    Run (service_step .small) Elapse Unrestricted status_pool pool ∧
      pool.world.trace = [⟨0, .jobs_get "a", .ok none⟩,
        ⟨0, .jobs_set_if_absent "a" .small, .ok true⟩] := by
  have hrecords : Records .small status_pool.world.state text_pool.world.state := by
    refine ⟨fun _ => rfl, ?_, rfl⟩
    rintro _ _ ⟨⟩
  have hcreated : Run (text_step .small .small) (TextElapse .small)
      (fun _ event => ∀ performed ∈ event, Orderly .small performed.op) text_pool created_pool := by
    refine .schedule (fun outcome _ _ _ => ⟨outcome, rfl⟩) .start _ ⟨?_, trivial⟩
    rintro _ ⟨⟩ _ ⟨⟩
    exact storable_small
  have hlater : Run (text_step .small .small) (TextElapse .small)
      (fun _ event => ∀ performed ∈ event, Orderly .small performed.op) text_pool later_pool := by
    refine .step hcreated (.environment (.clock ?_)) ?_
    · exact (by decide : (0 : ℚ) ≤ 11)
    · rintro _ ⟨⟩
  have hread : Run (text_step .small .small) (TextElapse .small)
      (fun _ event => ∀ performed ∈ event, Orderly .small performed.op) text_pool
      (later_pool.schedule (text_perform .small .small) [(0, { queue := ⟨0, []⟩ })]) := by
    refine .schedule (fun outcome _ _ _ => ⟨outcome, rfl⟩) hlater _ ⟨?_, trivial⟩
    rintro _ ⟨⟩ _ ⟨⟩
    trivial
  obtain ⟨pool, htyped, halike⟩ := status_texts_refine hread ⟨rfl, rfl, hrecords⟩
  have htrace : (later_pool.schedule (text_perform .small .small)
      [((0 : Fin 1), ({ queue := ⟨0, []⟩ } : Outcome (job_queue .default)))]).world.trace =
      [⟨0, .jobs_get "a", .ok none⟩, ⟨0, .jobs_set_if_absent "a" .small, .ok true⟩] := by
    with_unfolding_all rfl
  exact ⟨pool, htyped, halike.trace.symm.trans htrace⟩

end Pools

end ResearchAgent.Service
