import ResearchAgent.Research.Conclusions
import ResearchAgent.Research.Fences
import ResearchAgent.Service.Runs

namespace ResearchAgent.Service

open Library JobQueue

abbrev ServiceExchange := Exchange ServiceOp ServiceOp.Reply

-- The final state of the graph as the worker gets it.
def research_result (state : Research.AgentState) : ResearchState Report where
  report := match state.report with
    | none => .none
    | some entries => .dict entries
  error := state.error
  sources := state.sources
  tool_calls_log := state.tool_calls_log
  model_calls := some state.model_calls
  input_tokens := some state.input_tokens
  output_tokens := some state.output_tokens

-- The source ids that a stored report cites.
def cited_ids (report : JSONObject) : List String :=
  match report.lookup "citations" with
  | some (.list citations) => citations.filterMap fun citation => match citation with
      | .dict entries => match entries.lookup "source_id" with
          | some (.str source_id) => some source_id
          | _ => none
      | _ => none
  | _ => []

-- The states in which a job has a result for its tenant.
def JobState.released : JobState → Bool
  | awaiting_approval | completed => true
  | _ => false

variable (py : Research.Python) (settings : Research.Settings)

-- The reply is what an execution of the graph on this request has returned.
def Researched (request : ResearchRequest) (trace : Research.AgentTrace)
    (state : ResearchState Report) : Prop :=
  ∃ final, (Research.run_research py settings request.query request.tickers
      request.research_depth.literal).Executes trace (.ok final) ∧ state = research_result final

-- The report has citations, all of them of the stored sources, and those are from the
-- tool calls of this execution of the graph.
structure Grounded (trace : Research.AgentTrace) (state : ResearchState (Option JSONObject)) :
    Prop where
  report : ∃ report, state.report = some report ∧ cited_ids report ≠ [] ∧
    ∀ source_id ∈ cited_ids report, source_id ∈ state.sources.map (·.source_id)
  sources : ∀ source ∈ state.sources, Research.Stems py settings trace source

-- Where the exchange releases a job, the research before it has been stored, grounded.
def Backed (past : List ServiceExchange) (exchange : ServiceExchange) : Prop :=
  ∀ job_id job reply, exchange = ⟨.jobs_set job_id job, reply⟩ → job.status.released = true →
    ∃ request state trace stored, (⟨.run_research request, .ok state⟩ : ServiceExchange) ∈ past ∧
      Researched py settings request trace state ∧
      (⟨.results_set job_id stored, .ok ()⟩ : ServiceExchange) ∈ past ∧
      Grounded py settings trace stored

-- The graph answers as it is modelled.
def Faithful (trace : List ServiceExchange) : Prop :=
  ∀ request state, (⟨.run_research request, .ok state⟩ : ServiceExchange) ∈ trace →
    ∃ agent_trace, Researched py settings request agent_trace state

variable {py settings}

theorem cited_ids_model_dump (payload : Research.ResearchReportPayload) :
    cited_ids payload.model_dump = payload.citations.val.map (·.source_id) := by
  show (payload.citations.val.map Research.Citation.model_dump).filterMap _ = _
  rw [List.filterMap_map]
  exact List.filterMap_eq_map ▸ rfl

theorem grounded_of_researched {request : ResearchRequest} {trace : Research.AgentTrace}
    {state : ResearchState Report} (h : Researched py settings request trace state)
    (herror : state.error = none ∨ state.error = some "") {report : Option JSONObject}
    (hreport : report_dict state.report = .ok report) :
    Grounded py settings trace { state with report } := by
  obtain ⟨final, hexec, rfl⟩ := h
  obtain ⟨hverdict, hsources⟩ := Research.run_research_ensures _ _ _ trace _ hexec final rfl
  refine ⟨?_, hsources⟩
  have hfinal : final.error = none ∨ final.error = some "" := herror
  simp only [research_result] at hreport ⊢
  generalize final.report = found at hverdict hreport
  generalize final.error = error at hverdict hfinal
  cases hverdict with
  | @report payload hcited =>
      cases hreport
      refine ⟨_, rfl, ?_, ?_⟩
      · rw [cited_ids_model_dump]
        have hlength := payload.citations.property.1
        intro hnil
        rw [List.map_eq_nil_iff] at hnil
        simp [hnil] at hlength
      · intro source_id hmem
        rw [cited_ids_model_dump] at hmem
        obtain ⟨citation, hcitation, rfl⟩ := List.mem_map.mp hmem
        exact hcited citation hcitation
  | @error message hmessage =>
      rcases hfinal with h | h
      · cases h
      · exact absurd (Option.some.inj h) hmessage

section Processor

variable {α : Type} {service : Settings} {envelope : JobEnvelope}

-- Operations that release no job.
def Unreleasing : ServiceOp → Prop
  | .jobs_set _ job => job.status.released = false
  | _ => True

theorem backed_of_unreleasing (py : Research.Python) (settings : Research.Settings)
    {program : ServiceProgram α} (h : program.uses Unreleasing) :
    program.Ensures fun trace _ => ∀ past, Along (Backed py settings) past trace := by
  intro trace result hexec past
  refine along_of_forall fun exchange hmem past job_id job reply hexchange hreleased => ?_
  subst hexchange
  have hnot : job.status.released = false := hexec.uses h _ hmem
  rw [hnot] at hreleased
  cases hreleased

theorem research_ensures :
    (ResearchProcessor.research service envelope).Ensures fun trace result =>
      ∀ state, result = .ok state → (state.error = none ∨ state.error = some "") ∧
        ∃ request, (⟨.run_research request, .ok state⟩ : ServiceExchange) ∈ trace := by
  unfold ResearchProcessor.research
  cases ResearchRequest.model_validate service.upper envelope.request with
  | error error => exact Program.ensures_raise fun state h => by cases h
  | ok request =>
      refine Program.ensures_call fun reply => ?_
      cases reply with
      | error error => exact Program.ensures_raise fun state h => by cases h
      | ok found =>
          refine Program.ensures_bind (Program.ensures_ret ?_)
          dsimp only
          split
          · next hnone =>
            refine Program.ensures_ret fun state h => ?_
            cases h
            exact ⟨.inl hnone, request, List.mem_singleton.mpr rfl⟩
          · next hempty =>
            refine Program.ensures_ret fun state h => ?_
            cases h
            exact ⟨.inr hempty, request, List.mem_singleton.mpr rfl⟩
          · exact Program.ensures_raise fun state h => by cases h

theorem research_uses : (ResearchProcessor.research service envelope).uses Unreleasing := by
  unfold ResearchProcessor.research
  refine Program.uses_bind (lift_uses _) fun request =>
    Program.uses_bind (perform_uses trivial) fun state => ?_
  split <;> trivial

theorem record_failure_uses (actor : Principal) (job : JobStatus) :
    (ResearchProcessor.record_failure service envelope actor job).uses Unreleasing := by
  unfold ResearchProcessor.record_failure
  split
  · exact Program.uses_bind (perform_uses trivial) fun _ =>
      Program.uses_bind (perform_uses trivial) fun _ =>
      Program.uses_bind (perform_uses rfl) fun _ => perform_uses trivial
  · exact Program.uses_bind (perform_uses rfl) fun _ => perform_uses trivial

-- The part of the processor that releases the job stores the state first.
theorem finish_ensures {actor : Principal} {job : JobStatus} {state : ResearchState Report}
    {request : ResearchRequest} {agent_trace : Research.AgentTrace} {past : List ServiceExchange}
    (hpast : (⟨.run_research request, .ok state⟩ : ServiceExchange) ∈ past)
    (hresearched : Researched py settings request agent_trace state)
    (herror : state.error = none ∨ state.error = some "") :
    (ResearchProcessor.finish service envelope actor job state).Ensures fun trace _ =>
      Along (Backed py settings) past trace := by
  unfold ResearchProcessor.finish
  cases hreport : report_dict state.report with
  | error error => exact Program.ensures_raise trivial
  | ok report =>
      have hgrounded := grounded_of_researched hresearched herror hreport
      refine Program.ensures_call fun stored => ?_
      have hfirst (later : List ServiceExchange) : Backed py settings later
          ⟨.results_set job.job_id { state with report }, stored⟩ :=
        fun _ _ _ h => by cases h
      cases stored with
      | error error => exact Program.ensures_raise ⟨hfirst _, trivial⟩
      | ok _ =>
          refine Program.ensures_call fun time => ?_
          cases time with
          | error error =>
              exact Program.ensures_raise ⟨hfirst _, fun _ _ _ h => (by cases h), trivial⟩
          | ok completed_at =>
              refine Program.ensures_call fun written => ?_
              refine (backed_of_unreleasing py settings ?_).mono
                fun trace result hrest => ⟨hfirst _, fun _ _ _ h => (by cases h), ?_, hrest _⟩
              · exact Program.uses_bind (lift_uses written) fun _ =>
                  Program.uses_bind (perform_uses trivial) fun _ => perform_uses trivial
              · intro job_id job' reply h hreleased
                cases h
                refine ⟨request, state, agent_trace, { state with report }, ?_, hresearched, ?_,
                  hgrounded⟩
                · simp [hpast]
                · simp

-- The `try` statement of the processor: it goes on only with what the graph returned.
theorem attempt_ensures (py : Research.Python) (settings : Research.Settings) (actor : Principal)
    (job : JobStatus) :
    ((ResearchProcessor.research service envelope).attempt fun error => do
      ResearchProcessor.record_failure service envelope actor job
      .raise error).Ensures fun trace result =>
        (∀ past, Along (Backed py settings) past trace) ∧
        ∀ state, result = .ok state → (state.error = none ∨ state.error = some "") ∧
          ∃ request, (⟨.run_research request, .ok state⟩ : ServiceExchange) ∈ trace := by
  refine Program.Ensures.and (backed_of_unreleasing py settings ?_) ?_
  · exact Program.uses_attempt research_uses fun error =>
      Program.uses_bind (record_failure_uses actor job) fun _ => trivial
  · refine Program.ensures_attempt (research_ensures.mono fun trace result h => ?_)
    cases result with
    | ok state => exact h
    | error error =>
        refine Program.ensures_bind fun later outcome _ => ?_
        cases outcome with
        | ok _ => exact Program.ensures_raise fun state h => by cases h
        | error _ => exact fun state h => by cases h

theorem backed_bind {β : Type} {program : ServiceProgram α} {f : α → ServiceProgram β}
    (h : program.uses Unreleasing)
    (hf : ∀ value, (f value).Ensures fun trace _ => ∀ past, Faithful py settings trace →
      Along (Backed py settings) past trace) :
    (program >>= f).Ensures fun trace _ => ∀ past, Faithful py settings trace →
      Along (Backed py settings) past trace := by
  refine Program.ensures_bind ((backed_of_unreleasing py settings h).mono ?_)
  intro first result hfirst
  cases result with
  | error error => exact fun past _ => hfirst past
  | ok value =>
      refine (hf value).mono fun later result hlater past hfaithful => ?_
      refine (along_append first later past).mpr ⟨hfirst past, hlater _ ?_⟩
      intro request state hmem
      exact hfaithful request state (List.mem_append_right first hmem)

theorem call_ensures (py : Research.Python) (settings : Research.Settings) (service : Settings)
    (envelope : JobEnvelope) :
    (ResearchProcessor.call service envelope).Ensures fun trace _ =>
      ∀ past, Faithful py settings trace → Along (Backed py settings) past trace := by
  refine backed_bind (perform_uses trivial) fun found => ?_
  cases found with
  | none => exact Program.ensures_raise fun _ _ => trivial
  | some job =>
      refine backed_bind (lift_uses _) fun actor => ?_
      refine backed_bind (perform_uses rfl) fun _ => backed_bind (perform_uses trivial) fun _ => ?_
      refine Program.ensures_bind ((attempt_ensures py settings actor _).mono ?_)
      rintro first result ⟨halong, hresult⟩
      cases result with
      | error error => exact fun past _ => halong past
      | ok state =>
          obtain ⟨herror, request, hmem⟩ := hresult state rfl
          intro later outcome hexec past hfaithful
          obtain ⟨agent_trace, hresearched⟩ :=
            hfaithful request state (List.mem_append_left later hmem)
          refine (along_append first later past).mpr ⟨halong past, ?_⟩
          exact finish_ensures (List.mem_append_right past hmem) hresearched herror
            later outcome hexec

end Processor

-- Of the report and the error of a finished run exactly one is set.
def ExactlyOne (state : Research.AgentState) : Prop :=
  (state.report.isSome = true ∧ state.error = none) ∨
    (state.report = none ∧ ∃ message, state.error = some message ∧ message ≠ "")

-- Every run ends in a report or in an error, and no job is released without a grounded
-- report in the result store.
theorem released_reports_grounded (py : Research.Python) (settings : Research.Settings)
    (service : Settings) (envelope : JobEnvelope) :
    (∀ query tickers research_depth,
      (Research.run_research py settings query tickers research_depth).Ensures fun _ result =>
        ∀ state, result = .ok state → ExactlyOne state) ∧
      (ResearchProcessor.call service envelope).Ensures fun trace _ =>
        Faithful py settings trace → ∀ before exchange after, trace = before ++ exchange :: after →
          Backed py settings before exchange := by
  constructor
  · intro query tickers research_depth
    refine (Research.run_research_ensures query tickers research_depth).mono ?_
    intro trace result hconcluded state hstate
    have hverdict := (hconcluded state hstate).verdict
    generalize hreport : state.report = report at hverdict
    generalize herror : state.error = error at hverdict
    cases hverdict with
    | report => exact .inl ⟨by rw [hreport]; rfl, herror⟩
    | @error message hmessage => exact .inr ⟨hreport, message, herror, hmessage⟩
  · refine (call_ensures py settings service envelope).mono fun trace result halong hfaithful => ?_
    exact (along_iff trace []).mp (halong [] hfaithful)

section SmallRun

-- What the model of the small run writes, citing the one source there is.
def small_report : String := "\x7b\"executive_summary\":\"s\",\"investment_thesis\":\"t\",
\"bull_case\":\"u\",\"bear_case\":\"d\",\"risk_rating\":\"LOW\",\"recommended_action\":\"HOLD\",
\"confidence_score\":1,\"data_sources_used\":[],
\"citations\":[\x7b\"source_id\":\"src_abcdefabcdef\",\"claim\":\"c\"\x7d]\x7d"

def small_python : Research.Python := { Research.Python.small with
  sha256 := fun _ => "abcdefabcdef"
  loads := Research.Interpreter.small.loads
  validate_float := fun value => match value with
    | .int number => some number
    | _ => none }

def small_settings : Research.Settings := { Research.Settings.small with newsapi_api_key := "key" }

-- One call of the news tool, which finds one article, and then the report.
def small_research : List Research.AgentExchange × Except Research.AgentError Research.AgentState :=
  (Research.run_research small_python small_settings ResearchRequest.small.query
    ResearchRequest.small.tickers ResearchRequest.small.research_depth.literal).record
    (Research.scripted { Research.Fetched.nothing with fetch_newsapi := fun _ => .ok [[]] })
    [{ content := .text "", tool_calls :=
        [⟨"get_financial_news", [("ticker", .str "NVDA")], some "a"⟩] },
      { content := .text "" }, { content := .text small_report }]

-- Everything succeeds, and the graph answers the small request with the small run.
def small_service (_ : Unit) : (op : ServiceOp) → op.Reply × Unit
  | .jobs_get job_id => (.ok (some
      { job_id, status := .pending, tenant_id := "tenant", principal_id := "principal",
        created_at := "" }), ())
  | .run_research request =>
      (if request = .small then match small_research.2 with
        | .ok final => .ok (research_result final)
        | .error _ => .error (.Exception "")
      else .error (.Exception ""), ())
  | .jobs_set_if_absent _ _ | .acquire_job_slot _ => (.ok true, ())
  | .jobs_values => (.ok [], ())
  | .results_get _ => (.ok none, ())
  | .jobs_set _ _ | .jobs_delete _ | .results_set _ _ | .enforce_rate_limit _
  | .release_job_slot _ _ | .append_audit _ _ _ _ | .heartbeat => (.ok (), ())
  | .queue _ => (.ok (.bool true), ())
  | .now | .uuid4 => (.ok "", ())

theorem small_service_faithful {request : ResearchRequest} {state : ResearchState Report}
    (h : (small_service () (.run_research request)).1 = .ok state) :
    Researched small_python small_settings request small_research.1 state := by
  simp only [small_service] at h
  split at h
  · next hrequest =>
    subst hrequest
    split at h
    · next final hfinal =>
      cases h
      exact ⟨final, hfinal ▸ Program.executes_record _ _ _, rfl⟩
    · cases h
  · cases h

def ServiceExchange.releases : ServiceExchange → Bool
  | ⟨.jobs_set _ job, _⟩ => job.status.released
  | _ => false

def small_delivery : List ServiceExchange × Except ServiceError Unit :=
  (ResearchProcessor.call .small (small_envelope 1)).record small_service ()

theorem small_delivery_releases : small_delivery.1.any ServiceExchange.releases = true := by
  decide +kernel

theorem small_delivery_faithful : Faithful small_python small_settings small_delivery.1 := by
  intro request state hmem
  obtain ⟨_, hreply⟩ := Program.reply_of_mem_record small_service hmem
  exact ⟨small_research.1, small_service_faithful hreply.symm⟩

-- A delivery that releases a report.
theorem small_report_released :
    (ResearchProcessor.call .small (small_envelope 1)).Executes small_delivery.1
        small_delivery.2 ∧
      Faithful small_python small_settings small_delivery.1 ∧ ∃ before exchange after,
        small_delivery.1 = before ++ exchange :: after ∧ exchange.releases = true ∧
          Backed small_python small_settings before exchange := by
  have hexec : (ResearchProcessor.call .small (small_envelope 1)).Executes small_delivery.1
      small_delivery.2 := Program.executes_record _ _ _
  obtain ⟨exchange, hmem, hreleases⟩ := List.any_eq_true.mp small_delivery_releases
  obtain ⟨before, after, hsplit⟩ := List.append_of_mem hmem
  exact ⟨hexec, small_delivery_faithful, before, exchange, after, hsplit, hreleases,
    (released_reports_grounded small_python small_settings .small (small_envelope 1)).2
      small_delivery.1 small_delivery.2 hexec small_delivery_faithful before exchange after hsplit⟩

end SmallRun

end ResearchAgent.Service
