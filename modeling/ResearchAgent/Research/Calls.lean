import ResearchAgent.Research.Executions

namespace ResearchAgent.Research

open Library JobQueue Service

variable (py : Python) (settings : Settings)

-- The result is what the tool has made of its requests in this execution, in time and
-- as the screening has left it.
def Produced (trace : AgentTrace) (tool : Tool) (args : JSONObject) (result : JSONValue) : Prop :=
  ∃ (run : ToolRun) (raw : JSONValue), (⟨.submit tool args, run⟩ : AgentExchange) ∈ trace ∧
    run.duration ≤ TOOL_CALL_TIMEOUT_SECONDS ∧
    tool.invoke py settings args run.fetched = .ok raw ∧
    sanitize_tool_result py settings.max_external_content_chars settings.prompt_injection_policy
      raw = .ok result

-- The result is one that a tool call may come to: an error, or produced by the tool.
def Sound (trace : AgentTrace) (tc : ToolCall) (result : JSONValue) : Prop :=
  is_error result = false →
    ∃ tool, find_tool tc.name = some tool ∧ Produced py settings trace tool tc.args result

-- The source is a record of a result that a tool has produced in this execution.
def Stems (trace : AgentTrace) (source : SourceRecord) : Prop :=
  ∃ tool args result record retrieved_at, Produced py settings trace tool args result ∧
    is_error result = false ∧ record ∈ records result ∧
    source = source_record py tool args record retrieved_at

variable {py settings} {trace later : AgentTrace}

theorem Produced.mono {tool : Tool} {args : JSONObject} {result : JSONValue}
    (h : Produced py settings trace tool args result) (hsub : trace ⊆ later) :
    Produced py settings later tool args result := by
  obtain ⟨run, raw, hmem, hrest⟩ := h
  exact ⟨run, raw, hsub hmem, hrest⟩

theorem Sound.mono {tc : ToolCall} {result : JSONValue} (h : Sound py settings trace tc result)
    (hsub : trace ⊆ later) : Sound py settings later tc result := by
  intro herror
  obtain ⟨tool, htool, hproduced⟩ := h herror
  exact ⟨tool, htool, hproduced.mono hsub⟩

theorem Stems.mono {source : SourceRecord} (h : Stems py settings trace source)
    (hsub : trace ⊆ later) : Stems py settings later source := by
  obtain ⟨tool, args, result, record, retrieved_at, hproduced, hrest⟩ := h
  exact ⟨tool, args, result, record, retrieved_at, hproduced.mono hsub, hrest⟩

-- Two parts of a run each append sources that stem from them, so the whole does.
theorem stems_append {first second third : List SourceRecord}
    (h : ∃ sources, second = first ++ sources ∧ ∀ source ∈ sources, Stems py settings trace source)
    (h' : ∃ sources, third = second ++ sources ∧
      ∀ source ∈ sources, Stems py settings later source) :
    ∃ sources, third = first ++ sources ∧
      ∀ source ∈ sources, Stems py settings (trace ++ later) source := by
  obtain ⟨sources, hsources, hstems⟩ := h
  obtain ⟨sources', hsources', hstems'⟩ := h'
  refine ⟨sources ++ sources', by rw [hsources', hsources, List.append_assoc], ?_⟩
  intro source hmem
  rcases List.mem_append.mp hmem with hmem | hmem
  · exact (hstems source hmem).mono (List.subset_append_left _ _)
  · exact (hstems' source hmem).mono (List.subset_append_right _ _)

section Results

variable {α : Type} {tool : Tool} {args : JSONObject} {tc : ToolCall}

-- The breaker either refuses the operation or runs it once, and lets its result or
-- its exception through.
theorem circuit_call_ensures {operation : AgentProgram α}
    {post : AgentTrace → Except AgentError α → Prop} (h : operation.Ensures post) :
    (circuit_call tool operation).Ensures fun trace result =>
      ∃ inner, inner ⊆ trace ∧ invocations trace = invocations inner ∧
        executed trace = executed inner ∧
        (post inner result ∨
          inner = [] ∧ result = .error (.CircuitOpenError "Provider circuit is open")) := by
  refine ensures_perform fun admitted => ?_
  cases admitted with
  | false =>
      exact Program.ensures_raise ⟨[], List.nil_subset _, rfl, rfl, .inr ⟨rfl, rfl⟩⟩
  | true =>
      refine Program.ensures_bind (Program.ensures_attempt (h.mono fun inner result hpost => ?_))
      cases result with
      | ok value =>
          refine ensures_perform fun _ => Program.ensures_ret ⟨inner, ?_, ?_, ?_, .inl hpost⟩
          · exact fun exchange hmem => by simp [hmem]
          · exact (invocations_append inner [_]).trans (List.append_nil _)
          · exact (executed_append inner [_]).trans (List.append_nil _)
      | error error =>
          refine ensures_perform fun _ => Program.ensures_raise ⟨inner, ?_, ?_, ?_, .inl hpost⟩
          · exact fun exchange hmem => by simp [hmem]
          · exact (invocations_append inner [_]).trans (List.append_nil _)
          · exact (executed_append inner [_]).trans (List.append_nil _)

theorem invoke_tool_with_timeout_ensures :
    (invoke_tool_with_timeout py settings tool args).Ensures fun trace result =>
      Silent trace ∧ executed trace = [(tool.name, args)] ∧ ∀ raw, result = .ok raw →
        ∃ run : ToolRun, (⟨.submit tool args, run⟩ : AgentExchange) ∈ trace ∧
          run.duration ≤ TOOL_CALL_TIMEOUT_SECONDS ∧
          tool.invoke py settings args run.fetched = .ok raw := by
  refine ensures_perform fun run => ?_
  split
  · exact Program.ensures_raise ⟨⟨rfl⟩, rfl, fun raw hraw => by cases hraw⟩
  · next htime =>
    refine ensures_lift ⟨⟨rfl⟩, rfl, fun raw hraw => ?_⟩
    exact ⟨run, List.mem_singleton.mpr rfl, not_lt.mp htime, hraw⟩

-- Every tool call comes to a result, and runs no other tool than its own.
theorem tool_result_ensures :
    (tool_result py settings tc).Ensures fun trace result =>
      Silent trace ∧ (executed trace).Sublist [tc.key] ∧
        ∃ value, result = .ok value ∧ Sound py settings trace tc value := by
  unfold tool_result
  split
  · exact Program.ensures_ret
      ⟨.nil, List.nil_sublist _, _, rfl, fun hvalue => by cases hvalue⟩
  · next tool htool =>
    have hkey : tc.key = (tool.name, tc.args) := by rw [ToolCall.key, name_of_find_tool htool]
    refine Program.ensures_attempt (Program.ensures_bind
      ((circuit_call_ensures invoke_tool_with_timeout_ensures).mono ?_))
    rintro trace result ⟨inner, hsub, hinvocations, hexecuted, hinner⟩
    have hsilent : Silent trace ∧ (executed trace).Sublist [tc.key] := by
      rcases hinner with ⟨hinner, hrun, -⟩ | ⟨rfl, -⟩
      · exact ⟨⟨hinvocations.trans hinner.invocations⟩, by rw [hexecuted, hrun, hkey]⟩
      · exact ⟨⟨hinvocations⟩, by rw [hexecuted]; exact List.nil_sublist _⟩
    cases result with
    | error error =>
        refine Program.ensures_ret ?_
        rw [List.append_nil]
        exact ⟨hsilent.1, hsilent.2, _, rfl, fun hvalue => by cases hvalue⟩
    | ok raw =>
        refine ensures_lift ?_
        cases hsanitized : sanitize_tool_result py settings.max_external_content_chars
            settings.prompt_injection_policy raw with
        | error error =>
            refine Program.ensures_ret ?_
            rw [List.append_nil, List.append_nil]
            exact ⟨hsilent.1, hsilent.2, _, rfl, fun hvalue => by cases hvalue⟩
        | ok value =>
            show Silent (trace ++ []) ∧ (executed (trace ++ [])).Sublist [tc.key] ∧ _
            rw [List.append_nil]
            refine ⟨hsilent.1, hsilent.2, value, rfl, fun _ => ⟨tool, htool, ?_⟩⟩
            rcases hinner with ⟨-, -, hraw⟩ | ⟨-, hraw⟩
            · obtain ⟨run, hmem, htime, hinvoke⟩ := hraw raw rfl
              exact ⟨run, raw, hsub hmem, htime, hinvoke, hsanitized⟩
            · cases hraw

end Results

section Handling

variable {tc : ToolCall} {gathered : Gathered}

theorem source_records_ensures (tool : Tool) (args : JSONObject) (items : List JSONValue) :
    (source_records py tool args items).Ensures fun trace result =>
      Silent trace ∧ executed trace = [] ∧ ∃ sources, result = .ok sources ∧
        List.Forall₂ (fun record source => ∃ retrieved_at,
          source = source_record py tool args record retrieved_at) items sources := by
  induction items with
  | nil => exact Program.ensures_ret ⟨.nil, rfl, [], rfl, .nil⟩
  | cons item rest ih =>
      refine ensures_perform fun retrieved_at => Program.ensures_bind (ih.mono ?_)
      rintro trace result ⟨hsilent, hexecuted, sources, rfl, hsources⟩
      refine Program.ensures_ret ?_
      rw [List.append_nil]
      exact ⟨⟨hsilent.invocations⟩, hexecuted, _, rfl, .cons ⟨retrieved_at, rfl⟩ hsources⟩

-- The sources that are kept of a result: one for each of its records, and none where the
-- result is empty or says that the tool has failed.
inductive Sourced (py : Python) (tc : ToolCall) (result : JSONValue) : List SourceRecord → Prop
  | kept {tool : Tool} {sources : List SourceRecord} (known : find_tool tc.name = some tool)
      (succeeded : is_error result = false) (nonempty : truthy result = true)
      (each : List.Forall₂ (fun record source => ∃ retrieved_at,
        source = source_record py tool tc.args record retrieved_at) (records result) sources) :
      Sourced py tc result sources
  | nothing (h : ∀ tool, find_tool tc.name = some tool → is_error result = false →
      truthy result = false) : Sourced py tc result []

theorem result_sources_ensures (result : JSONValue) :
    (result_sources py tc result).Ensures fun later sources =>
      Silent later ∧ executed later = [] ∧ ∃ value, sources = .ok value ∧
        Sourced py tc result value := by
  unfold result_sources
  split
  · next tool htool =>
    split
    · next hcond =>
      simp only [Bool.and_eq_true, Bool.not_eq_true'] at hcond
      refine (source_records_ensures tool tc.args (records result)).mono ?_
      rintro later value ⟨hsilent, hexecuted, sources, rfl, hsources⟩
      exact ⟨hsilent, hexecuted, sources, rfl, .kept htool hcond.1 hcond.2 hsources⟩
    · next hcond =>
      refine Program.ensures_ret ⟨.nil, rfl, [], rfl, .nothing fun other _ herror => ?_⟩
      simpa [herror] using hcond
  · next hnone =>
    refine Program.ensures_ret ⟨.nil, rfl, [], rfl, .nothing fun tool htool => ?_⟩
    rw [hnone] at htool
    cases htool

-- Every source that is kept is one of a record that the tool has produced.
theorem Sourced.stems {result : JSONValue} {sources : List SourceRecord}
    (h : Sourced py tc result sources) (hsound : Sound py settings trace tc result) :
    ∀ source ∈ sources, ∃ tool record retrieved_at, find_tool tc.name = some tool ∧
      Produced py settings trace tool tc.args result ∧ is_error result = false ∧
      record ∈ records result ∧ source = source_record py tool tc.args record retrieved_at := by
  intro source hmem
  cases h with
  | nothing => cases hmem
  | @kept tool _ known succeeded nonempty each =>
      obtain ⟨other, hother, hproduced⟩ := hsound succeeded
      obtain rfl : other = tool := Option.some.inj (hother.symm.trans known)
      obtain ⟨i, hi, rfl⟩ := List.getElem_of_mem hmem
      obtain ⟨hlength, hget⟩ := List.forall₂_iff_get.mp each
      obtain ⟨retrieved_at, hsource⟩ := hget i (by omega) hi
      exact ⟨_, _, retrieved_at, known, hproduced, succeeded, List.get_mem _ _, hsource⟩

-- The part of the loop's variables that says what has been read and spent.
structure SameCounters (gathered gathered' : Gathered) : Prop where
  iterations : gathered'.iterations = gathered.iterations
  model_calls : gathered'.model_calls = gathered.model_calls
  input_tokens : gathered'.input_tokens = gathered.input_tokens
  output_tokens : gathered'.output_tokens = gathered.output_tokens

-- Which tool call an entry of the log is about.
def logged_call : JSONValue → Option (String × JSONObject)
  | .dict entries =>
      match entries.lookup "tool", entries.lookup "args" with
      | some (.str name), some (.dict args) => some (name, args)
      | _, _ => none
  | _ => none

def logged (log : List JSONValue) : List (String × JSONObject) := log.filterMap logged_call

-- What the handling of these tool calls of a response, one after the other, comes to.
structure Handled (py : Python) (settings : Settings) (calls : List ToolCall) (gathered : Gathered)
    (trace : AgentTrace) (gathered' : Gathered) : Prop where
  silent : Silent trace
  executed : (executed trace).Sublist (calls.map ToolCall.key)
  log_length : gathered'.tool_calls_log.length = gathered.tool_calls_log.length + calls.length
  log : logged gathered'.tool_calls_log = logged gathered.tool_calls_log ++ calls.map ToolCall.key
  messages : ∃ contents, contents.length = calls.length ∧ gathered'.messages = gathered.messages ++
    calls.zipWith (fun tc content => Message.tool tc.id content) contents
  counters : SameCounters gathered gathered'
  sources : ∃ sources, gathered'.sources = gathered.sources ++ sources ∧
    ∀ source ∈ sources, Stems py settings trace source

theorem classify_counters (tool_name : String) (result : JSONValue) :
    SameCounters gathered (gathered.classify tool_name result) ∧
      (gathered.classify tool_name result).tool_calls_log = gathered.tool_calls_log ∧
      (gathered.classify tool_name result).messages = gathered.messages ∧
      (gathered.classify tool_name result).sources = gathered.sources := by
  have hsame : SameCounters gathered gathered := ⟨rfl, rfl, rfl, rfl⟩
  unfold Gathered.classify
  split
  · split
    · exact ⟨hsame, rfl, rfl, rfl⟩
    · exact ⟨⟨rfl, rfl, rfl, rfl⟩, rfl, rfl, rfl⟩
  · exact ⟨⟨rfl, rfl, rfl, rfl⟩, rfl, rfl, rfl⟩
  · exact ⟨⟨rfl, rfl, rfl, rfl⟩, rfl, rfl, rfl⟩
  · exact ⟨hsame, rfl, rfl, rfl⟩

theorem logged_log_entry (result : JSONValue) (timestamp : String) :
    logged_call (gathered.log_entry tc result timestamp) = some tc.key := rfl

theorem Handled.nil : Handled py settings [] gathered [] gathered where
  silent := .nil
  executed := List.Sublist.refl _
  log_length := rfl
  log := (List.append_nil _).symm
  messages := ⟨[], rfl, (List.append_nil _).symm⟩
  counters := ⟨rfl, rfl, rfl, rfl⟩
  sources := ⟨[], (List.append_nil _).symm, by simp⟩

theorem Handled.append {calls calls' : List ToolCall} {gathered' gathered'' : Gathered}
    (h : Handled py settings calls gathered trace gathered')
    (h' : Handled py settings calls' gathered' later gathered'') :
    Handled py settings (calls ++ calls') gathered (trace ++ later) gathered'' where
  silent := h.silent.append h'.silent
  executed := by
    rw [executed_append, List.map_append]
    exact h.executed.append h'.executed
  log_length := by
    rw [h'.log_length, h.log_length, List.length_append, Nat.add_assoc]
  log := by rw [h'.log, h.log, List.map_append, List.append_assoc]
  messages := by
    obtain ⟨contents, hlength, hmessages⟩ := h.messages
    obtain ⟨contents', hlength', hmessages'⟩ := h'.messages
    refine ⟨contents ++ contents', by simp [hlength, hlength'], ?_⟩
    rw [hmessages', hmessages, List.zipWith_append hlength.symm, List.append_assoc]
  counters :=
    ⟨h'.counters.iterations.trans h.counters.iterations,
      h'.counters.model_calls.trans h.counters.model_calls,
      h'.counters.input_tokens.trans h.counters.input_tokens,
      h'.counters.output_tokens.trans h.counters.output_tokens⟩
  sources := stems_append h.sources h'.sources

-- One turn of the loop over the tool calls: what the call has come to goes among the data,
-- the sources, the log and the messages.
def Recorded (py : Python) (settings : Settings) (tc : ToolCall) (gathered : Gathered)
    (trace : AgentTrace) (gathered' : Gathered) : Prop :=
  ∃ result sources timestamp, Sound py settings trace tc result ∧ Sourced py tc result sources ∧
    gathered' = { gathered.classify tc.name result with
      sources := gathered.sources ++ sources
      tool_calls_log := gathered.tool_calls_log ++ [gathered.log_entry tc result timestamp]
      messages := gathered.messages ++ [.tool tc.id (py.dumps result)] }

theorem handle_tool_call_recorded :
    (handle_tool_call py settings tc gathered).Ensures fun trace result =>
      Silent trace ∧ (executed trace).Sublist [tc.key] ∧
        ∃ gathered', result = .ok gathered' ∧ Recorded py settings tc gathered trace gathered' := by
  refine Program.ensures_bind (tool_result_ensures.mono ?_)
  rintro first result ⟨hsilent, hexecuted, value, rfl, hsound⟩
  refine Program.ensures_bind ((result_sources_ensures value).mono ?_)
  rintro second result ⟨hsilent', hexecuted', sources, rfl, hsourced⟩
  obtain ⟨hcounters, hlog, hmessages, hsources⟩ :
      SameCounters gathered (gathered.classify tc.name value) ∧ _ :=
    classify_counters tc.name value
  refine ensures_perform fun timestamp => Program.ensures_ret ⟨?_, ?_, _, rfl, value, sources,
    timestamp, hsound.mono (List.subset_append_left _ _), hsourced, ?_⟩
  · have htail : Silent [(⟨.now, timestamp⟩ : AgentExchange)] := ⟨rfl⟩
    exact hsilent.append (hsilent'.append htail)
  · rw [executed_append, executed_append, hexecuted']
    show (executed first ++ []).Sublist [tc.key]
    rwa [List.append_nil]
  · simp only [hlog, hmessages, hsources, Gathered.log_entry, hcounters.iterations]

theorem handle_tool_call_ensures :
    (handle_tool_call py settings tc gathered).Ensures fun trace result =>
      ∃ gathered', result = .ok gathered' ∧
        Handled py settings [tc] gathered trace gathered' := by
  refine handle_tool_call_recorded.mono ?_
  rintro trace _ ⟨hsilent, hexecuted, gathered', rfl, value, sources, timestamp, hsound, hsourced,
    rfl⟩
  refine ⟨_, rfl, ?_⟩
  obtain ⟨hcounters, -⟩ : SameCounters gathered (gathered.classify tc.name value) ∧ _ :=
    classify_counters tc.name value
  exact {
    silent := hsilent
    executed := hexecuted
    log_length := by simp
    log := by simp [logged, logged_log_entry]
    messages := ⟨[py.dumps value], rfl, rfl⟩
    counters := ⟨hcounters.iterations, hcounters.model_calls, hcounters.input_tokens,
      hcounters.output_tokens⟩
    sources := ⟨sources, rfl, fun source hmem => by
      obtain ⟨tool, record, retrieved_at, -, hstem⟩ := hsourced.stems hsound source hmem
      exact ⟨tool, tc.args, value, record, retrieved_at, hstem⟩⟩ }

-- The calls of a response are handled in their order as far as the budget goes.
theorem handle_tool_calls_ensures (calls : List ToolCall) : ∀ gathered,
    (handle_tool_calls py settings calls gathered).Ensures fun trace result =>
      ∃ gathered', result = .ok gathered' ∧ Handled py settings
        (calls.take (settings.max_tool_calls_per_job - gathered.tool_calls_log.length))
        gathered trace gathered' := by
  induction calls with
  | nil =>
      intro gathered
      refine Program.ensures_ret ⟨gathered, rfl, ?_⟩
      rw [List.take_nil]
      exact .nil
  | cons tc rest ih =>
      intro gathered
      unfold handle_tool_calls
      split
      · next hspent =>
        refine Program.ensures_ret ⟨gathered, rfl, ?_⟩
        rw [Nat.sub_eq_zero_of_le hspent, List.take_zero]
        exact .nil
      · next hleft =>
        refine Program.ensures_bind (handle_tool_call_ensures.mono ?_)
        rintro first result ⟨middle, rfl, hfirst⟩
        refine (ih middle).mono ?_
        rintro second result ⟨gathered', rfl, hrest⟩
        refine ⟨gathered', rfl, ?_⟩
        have hlength := hfirst.log_length
        have hbudget : settings.max_tool_calls_per_job - gathered.tool_calls_log.length =
            settings.max_tool_calls_per_job - middle.tool_calls_log.length + 1 := by
          simp only [List.length_singleton] at hlength
          omega
        rw [hbudget, List.take_succ_cons]
        exact hfirst.append hrest

end Handling

end ResearchAgent.Research
