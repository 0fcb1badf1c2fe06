import ResearchAgent.Research.Executions

namespace ResearchAgent.Research

open Library JobQueue Service

variable {py : Python} {settings : Settings}

section Writing

-- Every source that the report cites is in the registry.
def Cited (sources : List SourceRecord) (payload : ResearchReportPayload) : Prop :=
  ∀ citation ∈ payload.citations.val, citation.source_id ∈ sources.map (·.source_id)

theorem cited_of_check {sources : List SourceRecord} {payload : ResearchReportPayload}
    (h : check_citations sources payload = .ok ()) : Cited sources payload := by
  dsimp only [check_citations] at h
  split at h
  · next hall =>
    intro citation hmem
    simpa using List.all_eq_true.mp hall citation hmem
  · cases h

-- The texts of the analyst's errors are not empty.
theorem analyst_error_ne_empty {error : AgentError}
    (h : ∀ message, error = .ValueError message → message ≠ "") : analyst_error error ≠ "" := by
  cases error with
  | ValueError message => exact h message rfl
  | _ => simp [analyst_error]

theorem no_answer_ne (settings : Settings) (model_calls : ℕ) (message : String)
    (h : no_answer settings model_calls = .ValueError message) : message ≠ "" := by
  unfold no_answer at h
  split at h <;> cases h

theorem load_report_error {text : String} {error : AgentError}
    (h : load_report py text = .error error) : analyst_error error ≠ "" := by
  refine analyst_error_ne_empty fun message hmessage => ?_
  subst hmessage
  unfold load_report at h
  split at h <;> cases h
  simp [String.append_eq_empty_iff, ToString.toString]

theorem check_citations_error {sources : List SourceRecord} {payload : ResearchReportPayload}
    {error : AgentError} (h : check_citations sources payload = .error error) :
    analyst_error error ≠ "" := by
  dsimp only [check_citations] at h
  split at h <;> cases h
  simp [analyst_error]

theorem model_validate_error {raw : JSONObject} {error : AgentError}
    (h : ResearchReportPayload.model_validate py raw = .error error) :
    analyst_error error ≠ "" := by
  obtain ⟨field, rfl⟩ := rejects_model_validate py raw error h
  simp [analyst_error]

-- The answer of a model becomes a report that cites the registry, or an error.
theorem write_report_ensures (sources : List SourceRecord) (content : Content) :
    (write_report py sources content).Ensures fun trace result =>
      Silent trace ∧ executed trace = [] ∧ match result with
        | .ok payload => Cited sources payload
        | .error error => analyst_error error ≠ "" := by
  cases content with
  | blocks items => exact Program.ensures_raise ⟨.nil, rfl, by simp [analyst_error]⟩
  | text text =>
      refine Program.ensures_bind (ensures_lift ?_)
      cases hload : load_report py (strip_fences text) with
      | error error => exact ⟨.nil, rfl, load_report_error hload⟩
      | ok report_data =>
          refine ensures_perform fun generated_at => Program.ensures_bind (ensures_lift ?_)
          cases hvalid : ResearchReportPayload.model_validate py
              (assign "generated_at" (.str generated_at) report_data) with
          | error error => exact ⟨⟨rfl⟩, rfl, model_validate_error hvalid⟩
          | ok payload =>
              refine Program.ensures_bind (ensures_lift ?_)
              cases hcheck : check_citations sources payload with
              | error error => exact ⟨⟨rfl⟩, rfl, check_citations_error hcheck⟩
              | ok _ => exact Program.ensures_ret ⟨⟨rfl⟩, rfl, cited_of_check hcheck⟩

end Writing

-- What the analyst asks and runs, whatever comes of it.
structure Spent (settings : Settings) (model_calls : ℕ) (trace : AgentTrace) : Prop where
  calls : model_calls + (invocations trace).length ≤
    max model_calls settings.max_model_calls_per_job
  executed : executed trace = []
  requested : requested trace = []
  rounds : rounds trace = 0

-- A report that is grounded in the sources, or an error.
inductive Verdict (sources : List SourceRecord) : Option JSONObject → Option String → Prop
  | report {payload : ResearchReportPayload} (hcited : Cited sources payload) :
      Verdict sources (some payload.model_dump) none
  | error {message : String} (hmessage : message ≠ "") : Verdict sources none (some message)

-- The analyst's update after this execution.
def Reported (state : AgentState) (trace : AgentTrace) (update : AgentUpdate) : Prop :=
  ∃ report error model_calls input_tokens output_tokens,
    update = analyst_update report error model_calls input_tokens output_tokens ∧
    model_calls = state.model_calls + (invocations trace).length ∧
    input_tokens = state.input_tokens + Research.input_tokens trace ∧
    output_tokens = state.output_tokens + Research.output_tokens trace ∧
    Verdict state.sources report error

theorem Silent.spent {trace : AgentTrace} {model_calls : ℕ} (h : Silent trace)
    (hexecuted : executed trace = []) : Spent settings model_calls trace :=
  ⟨by simp [h.invocations], hexecuted, h.requested, h.rounds⟩

section Answered

variable {state : AgentState} {messages : List Message} {response : Option AIMessage}
variable {model_calls model_calls' : ℕ} {first second third : AgentTrace}

-- Whatever precedes the question and follows it asks nobody else.
theorem Asked.spent
    (hasked : Asked settings false messages 0 model_calls second response model_calls')
    (hfirst : Silent first) (hbefore : Research.executed first = [])
    (hthird : Silent third) (hafter : Research.executed third = []) :
    Spent settings model_calls (first ++ (second ++ third)) := by
  have hcounted := hasked.counted
  have hwithin := hasked.within
  have hinvocations : invocations (first ++ (second ++ third)) = invocations second := by
    rw [invocations_append, invocations_append, hfirst.invocations, hthird.invocations,
      List.append_nil]
    rfl
  constructor
  · rw [hinvocations]
    omega
  · simp [hbefore, hasked.executed, hafter]
  · simp [hfirst.requested, hasked.requested_unbound, hthird.requested]
  · simp [hfirst.rounds, hasked.rounds_unbound, hthird.rounds]

-- The usage of an answer, if there is one, is what the execution has used.
theorem Asked.reported {report : Option JSONObject} {error : Option String}
    (hasked : Asked settings false messages 0 state.model_calls second response model_calls')
    (hfirst : Silent first) (hthird : Silent third)
    (hverdict : Verdict state.sources report error) :
    Reported state (first ++ (second ++ third)) (analyst_update report error model_calls'
      (state.input_tokens + ((response.map (·.input_tokens)).getD 0))
      (state.output_tokens + ((response.map (·.output_tokens)).getD 0))) := by
  have hresponses : Research.responses (first ++ (second ++ third)) = response.toList := by
    simp [hfirst.responses, hasked.responses, hthird.responses]
  refine ⟨report, error, _, _, _, rfl, ?_, ?_, ?_, hverdict⟩
  · rw [invocations_append, invocations_append, hfirst.invocations, hthird.invocations,
      List.append_nil]
    exact hasked.counted
  · rw [Research.input_tokens, hresponses]
    cases response <;> simp
  · rw [Research.output_tokens, hresponses]
    cases response <;> simp

end Answered

theorem analyst_node_ensures (state : AgentState) :
    (analyst_node py settings state).Ensures fun trace result =>
      Spent settings state.model_calls trace ∧
        ∀ update, result = .ok update → Reported state trace update := by
  refine Program.ensures_bind ((build_llm_candidates_ensures py settings).mono ?_)
  rintro first result ⟨hfirst, hexecuted⟩
  cases result with
  | error error => exact ⟨hfirst.spent hexecuted, fun update h => by cases h⟩
  | ok llms =>
      refine Program.ensures_bind (ensures_lift ?_)
      cases build_analyst_prompt py state with
      | error error =>
          rw [List.append_nil]
          exact ⟨hfirst.spent hexecuted, fun update h => by cases h⟩
      | ok prompt =>
          refine Program.ensures_bind ((ask_candidates_ensures false _ llms 0
            state.model_calls).mono ?_)
          rintro second result ⟨response, model_calls, rfl, hasked⟩
          cases response with
          | none =>
              refine Program.ensures_ret ⟨hasked.spent hfirst hexecuted .nil rfl, ?_⟩
              intro update h
              cases h
              have hverdict : Verdict state.sources none (some (analyst_error
                  (no_answer settings model_calls))) :=
                .error (analyst_error_ne_empty (no_answer_ne settings model_calls))
              simpa using hasked.reported hfirst .nil hverdict
          | some response =>
              refine Program.ensures_attempt (Program.ensures_bind
                ((write_report_ensures state.sources response.content).mono ?_))
              rintro third result ⟨hthird, hnone, hresult⟩
              have hspent := hasked.spent hfirst hexecuted hthird hnone
              cases result with
              | ok payload =>
                  refine Program.ensures_ret ?_
                  rw [List.append_nil]
                  refine ⟨hspent, fun update h => ?_⟩
                  cases h
                  exact hasked.reported hfirst hthird (.report hresult)
              | error error =>
                  refine Program.ensures_ret ?_
                  rw [List.append_nil]
                  refine ⟨hspent, fun update h => ?_⟩
                  cases h
                  exact hasked.reported hfirst hthird (.error hresult)

end ResearchAgent.Research
