import ResearchAgent.Research.Calls
import ResearchAgent.Research.Reporting

namespace ResearchAgent.Research

open Library JobQueue Service

variable {py : Python} {settings : Settings} {trace later : AgentTrace}

theorem take_key_append (calls calls' : List ToolCall) (budget : ℕ) :
    ((calls ++ calls').take budget).map ToolCall.key =
      (calls.take budget).map ToolCall.key ++
        (calls'.take (budget - calls.length)).map ToolCall.key := by
  rw [List.take_append, List.map_append]

section Loop

-- The limits within which a part of the research loop stays, from these variables on.
structure Bounded (settings : Settings) (left : ℕ) (gathered : Gathered) (trace : AgentTrace) :
    Prop where
  calls : gathered.model_calls + (invocations trace).length ≤
    max gathered.model_calls settings.max_model_calls_per_job
  rounds : rounds trace ≤ left
  executed : (executed trace).Sublist (((requested trace).take
    (settings.max_tool_calls_per_job - gathered.tool_calls_log.length)).map ToolCall.key)

-- What the variables say afterwards of what has been done since.
structure Accounted (py : Python) (settings : Settings) (gathered : Gathered) (trace : AgentTrace)
    (gathered' : Gathered) : Prop where
  model_calls : gathered'.model_calls = gathered.model_calls + (invocations trace).length
  input_tokens : gathered'.input_tokens = gathered.input_tokens + input_tokens trace
  output_tokens : gathered'.output_tokens = gathered.output_tokens + output_tokens trace
  log_length : gathered'.tool_calls_log.length = gathered.tool_calls_log.length +
    ((requested trace).take
      (settings.max_tool_calls_per_job - gathered.tool_calls_log.length)).length
  log : logged gathered'.tool_calls_log = logged gathered.tool_calls_log ++
    ((requested trace).take
      (settings.max_tool_calls_per_job - gathered.tool_calls_log.length)).map ToolCall.key
  sources : ∃ sources, gathered'.sources = gathered.sources ++ sources ∧
    ∀ source ∈ sources, Stems py settings trace source

theorem Bounded.nil (left : ℕ) (gathered : Gathered) : Bounded settings left gathered [] :=
  ⟨by simp [invocations], Nat.zero_le _, List.nil_sublist _⟩

theorem Accounted.nil (gathered : Gathered) : Accounted py settings gathered [] gathered :=
  ⟨rfl, (add_zero _).symm, (add_zero _).symm, by simp [requested, invocations],
    by simp [requested, invocations], [], (List.append_nil _).symm, by simp⟩

variable {left : ℕ} {gathered middle gathered' : Gathered}

-- A part of the loop and the rest of it.
theorem Bounded.append (h : Bounded settings 1 gathered trace)
    (haccounted : Accounted py settings gathered trace middle)
    (h' : Bounded settings left middle later) :
    Bounded settings (left + 1) gathered (trace ++ later) where
  calls := by
    have hfirst := h.calls
    have hrest := h'.calls
    have hcount := haccounted.model_calls
    rw [invocations_append, List.length_append]
    omega
  rounds := by
    have hfirst := h.rounds
    have hrest := h'.rounds
    rw [rounds_append]
    omega
  executed := by
    have hlength := haccounted.log_length
    rw [List.length_take] at hlength
    have hbudget : settings.max_tool_calls_per_job - gathered.tool_calls_log.length -
        (requested trace).length =
        settings.max_tool_calls_per_job - middle.tool_calls_log.length := by omega
    rw [executed_append, requested_append, take_key_append, hbudget]
    exact h.executed.append h'.executed

theorem Accounted.append (h : Accounted py settings gathered trace middle)
    (h' : Accounted py settings middle later gathered') :
    Accounted py settings gathered (trace ++ later) gathered' := by
  have hlength := h.log_length
  rw [List.length_take] at hlength
  have hbudget : settings.max_tool_calls_per_job - gathered.tool_calls_log.length -
      (requested trace).length =
      settings.max_tool_calls_per_job - middle.tool_calls_log.length := by omega
  constructor
  · rw [h'.model_calls, h.model_calls, invocations_append, List.length_append, Nat.add_assoc]
  · rw [h'.input_tokens, h.input_tokens, input_tokens_append, add_assoc]
  · rw [h'.output_tokens, h.output_tokens, output_tokens_append, add_assoc]
  · rw [requested_append, List.take_append, List.length_append, hbudget, h'.log_length,
      h.log_length, Nat.add_assoc]
  · rw [requested_append, take_key_append, hbudget, h'.log, h.log, List.append_assoc]
  · exact stems_append h.sources h'.sources

-- One round: an answer, and the handling of the tool calls in it.
theorem round_bounded {response : AIMessage} {model_calls : ℕ} {first second : AgentTrace}
    (hasked : Asked settings true gathered.messages 0 gathered.model_calls first (some response)
      model_calls)
    (hhandled : Handled py settings (response.tool_calls.take
      (settings.max_tool_calls_per_job - gathered.tool_calls_log.length))
      (gathered.answered response model_calls) second middle) :
    Bounded settings 1 gathered (first ++ second) ∧
      Accounted py settings gathered (first ++ second) middle := by
  have hsilent := hhandled.silent
  have hinvocations : invocations (first ++ second) = invocations first := by
    rw [invocations_append, hsilent.invocations, List.append_nil]
  have hrequested : requested (first ++ second) = response.tool_calls := by
    rw [requested_append, hsilent.requested, hasked.requested]
    exact List.append_nil _
  have hresponses : responses (first ++ second) = [response] := by
    rw [responses_append, hsilent.responses, hasked.responses]
    rfl
  constructor
  · constructor
    · have hcounted := hasked.counted
      have hwithin := hasked.within
      rw [hinvocations]
      omega
    · rw [rounds_append, hsilent.rounds]
      exact hasked.rounds_le
    · rw [executed_append, hasked.executed, hrequested]
      exact hhandled.executed
  · constructor
    · rw [hinvocations, hhandled.counters.model_calls]
      exact hasked.counted
    · rw [hhandled.counters.input_tokens, input_tokens, hresponses]
      simp [Gathered.answered]
    · rw [hhandled.counters.output_tokens, output_tokens, hresponses]
      simp [Gathered.answered]
    · rw [hrequested]
      exact hhandled.log_length
    · rw [hrequested]
      exact hhandled.log
    · obtain ⟨sources, hsources, hstems⟩ := hhandled.sources
      exact ⟨sources, hsources, fun source hmem =>
        (hstems source hmem).mono (List.subset_append_right _ _)⟩

-- One round is within any number of rounds that are left.
theorem Bounded.of_round (h : Bounded settings 1 gathered trace) :
    Bounded settings (left + 1) gathered trace where
  calls := h.calls
  rounds := le_trans h.rounds (Nat.succ_le_succ (Nat.zero_le left))
  executed := h.executed

-- A round without an answer runs no tool.
theorem unanswered_bounded {model_calls : ℕ}
    (hasked : Asked settings true gathered.messages 0 gathered.model_calls trace none
      model_calls) : Bounded settings 1 gathered trace := by
  have hcounted := hasked.counted
  have hwithin := hasked.within
  constructor
  · omega
  · exact hasked.rounds_le
  · rw [hasked.executed]
    exact List.nil_sublist _

theorem react_ensures (llms : List Provider) : ∀ left gathered,
    (react py settings llms left gathered).Ensures fun trace result =>
      Bounded settings left gathered trace ∧
        ∀ gathered', result = .ok gathered' → Accounted py settings gathered trace gathered' := by
  intro left
  induction left with
  | zero =>
      intro gathered
      refine Program.ensures_ret ⟨.nil 0 gathered, fun gathered' h => ?_⟩
      cases h
      exact .nil gathered
  | succ left ih =>
      intro gathered
      unfold react
      split
      · refine Program.ensures_bind ((ask_candidates_ensures true gathered.messages llms 0
          gathered.model_calls).mono ?_)
        rintro first result ⟨response, model_calls, rfl, hasked⟩
        cases response with
        | none =>
            refine Program.ensures_raise ⟨?_, fun gathered' h => by cases h⟩
            rw [List.append_nil]
            exact (unanswered_bounded hasked).of_round
        | some response =>
            show Program.Ensures (if _ then _ else _) _
            split
            · next hempty =>
              have hcalls : response.tool_calls = [] := List.isEmpty_iff.mp hempty
              have hnone : Handled py settings (response.tool_calls.take
                  (settings.max_tool_calls_per_job - gathered.tool_calls_log.length))
                  (gathered.answered response model_calls) []
                  (gathered.answered response model_calls) := by
                rw [hcalls, List.take_nil]
                exact .nil
              obtain ⟨hbounded, haccounted⟩ := round_bounded hasked hnone
              refine Program.ensures_ret ⟨hbounded.of_round, fun gathered' h => ?_⟩
              cases h
              exact haccounted
            · refine Program.ensures_bind
                ((handle_tool_calls_ensures response.tool_calls _).mono ?_)
              rintro second result ⟨middle, rfl, hhandled⟩
              obtain ⟨hbounded, haccounted⟩ := round_bounded hasked hhandled
              refine (ih middle).mono ?_
              rintro third result ⟨hrest, haccounts⟩
              rw [← List.append_assoc]
              exact ⟨hbounded.append haccounted hrest, fun gathered' h =>
                haccounted.append (haccounts gathered' h)⟩
      · refine Program.ensures_ret ⟨.nil _ gathered, fun gathered' h => ?_⟩
        cases h
        exact .nil gathered

end Loop

section Nodes

variable {left : ℕ} {gathered gathered' : Gathered} {first : AgentTrace}

-- Preparations before the loop spend nothing.
theorem Bounded.after_silent (hfirst : Silent first) (hexecuted : Research.executed first = [])
    (h : Bounded settings left gathered trace) :
    Bounded settings left gathered (first ++ trace) := by
  constructor
  · rw [invocations_append, hfirst.invocations]
    exact h.calls
  · rw [rounds_append, hfirst.rounds, Nat.zero_add]
    exact h.rounds
  · rw [executed_append, hexecuted, requested_append, hfirst.requested]
    exact h.executed

theorem Accounted.after_silent (hfirst : Silent first)
    (h : Accounted py settings gathered trace gathered') :
    Accounted py settings gathered (first ++ trace) gathered' := by
  constructor
  · rw [invocations_append, hfirst.invocations]
    exact h.model_calls
  · rw [input_tokens_append, hfirst.input_tokens, zero_add]
    exact h.input_tokens
  · rw [output_tokens_append, hfirst.output_tokens, zero_add]
    exact h.output_tokens
  · rw [requested_append, hfirst.requested]
    exact h.log_length
  · rw [requested_append, hfirst.requested]
    exact h.log
  · obtain ⟨sources, hsources, hstems⟩ := h.sources
    exact ⟨sources, hsources, fun source hmem =>
      (hstems source hmem).mono (List.subset_append_right _ _)⟩

theorem research_node_ensures (state : AgentState) :
    (research_node py settings state).Ensures fun trace result => ∃ depth_instruction,
      Bounded settings settings.react_max_iterations (.start state depth_instruction) trace ∧
        ∀ update, result = .ok update → ∃ gathered, update = gathered.update ∧
          Accounted py settings (.start state depth_instruction) trace gathered := by
  refine Program.ensures_bind ((build_llm_candidates_ensures py settings).mono ?_)
  rintro first result ⟨hfirst, hexecuted⟩
  have hnothing : Bounded settings settings.react_max_iterations (.start state "") first := by
    simpa using (Bounded.nil settings.react_max_iterations (.start state "")).after_silent
      hfirst hexecuted
  cases result with
  | error error => exact ⟨"", hnothing, fun update h => by cases h⟩
  | ok llms =>
      dsimp only
      cases DEPTH_INSTRUCTION.lookup state.research_depth with
      | none =>
          refine Program.ensures_raise ⟨"", ?_, fun update h => by cases h⟩
          rwa [List.append_nil]
      | some depth_instruction =>
          refine Program.ensures_bind ((react_ensures llms _ _).mono ?_)
          rintro second result ⟨hbounded, haccounted⟩
          cases result with
          | error error =>
              exact ⟨depth_instruction, hbounded.after_silent hfirst hexecuted,
                fun update h => by cases h⟩
          | ok gathered =>
              refine Program.ensures_ret ⟨depth_instruction, ?_, fun update h => ?_⟩
              · rw [List.append_nil]
                exact hbounded.after_silent hfirst hexecuted
              · cases h
                rw [List.append_nil]
                exact ⟨gathered, rfl, (haccounted gathered rfl).after_silent hfirst⟩

-- The tools that run are among those requested within the budget.
theorem executed_within (h : (executed trace).Sublist
    (((requested trace).take settings.max_tool_calls_per_job).map ToolCall.key)) :
    (executed trace).length ≤ settings.max_tool_calls_per_job := by
  have hle := h.length_le
  rw [List.length_map, List.length_take] at hle
  omega

-- What the report adds to the state that the research returns.
theorem final_accounts {state : AgentState} {depth_instruction : String} {update : AgentUpdate}
    {second : AgentTrace}
    (haccounted : Accounted py settings (.start state depth_instruction) first gathered)
    (hexecuted : (executed first).Sublist
      (((requested first).take settings.max_tool_calls_per_job).map ToolCall.key))
    (hspent : Spent settings (state.merge gathered.update).model_calls second)
    (hreported : Reported (state.merge gathered.update) second update) :
    let final := (state.merge gathered.update).merge update
    final.model_calls = state.model_calls + (invocations (first ++ second)).length ∧
      final.input_tokens = state.input_tokens + input_tokens (first ++ second) ∧
      final.output_tokens = state.output_tokens + output_tokens (first ++ second) ∧
      ∃ log, final.tool_calls_log = state.tool_calls_log ++ log ∧
        log.length = (logged log).length ∧
        logged log = ((requested (first ++ second)).take
          settings.max_tool_calls_per_job).map ToolCall.key ∧
        (executed (first ++ second)).Sublist (logged log) := by
  have hmodel := haccounted.model_calls
  have hlog := haccounted.log
  have hlog_length := haccounted.log_length
  simp only [Gathered.start, List.length_nil, Nat.sub_zero, Nat.zero_add]
    at hmodel hlog hlog_length
  obtain ⟨report, error, _, _, _, rfl, rfl, rfl, rfl, -⟩ := hreported
  refine ⟨?_, ?_, ?_, gathered.tool_calls_log, ?_, ?_, ?_, ?_⟩
  · rw [invocations_append, List.length_append, ← Nat.add_assoc, ← hmodel]
    rfl
  · rw [input_tokens_append, ← add_assoc]
    exact congrArg (· + input_tokens second) haccounted.input_tokens
  · rw [output_tokens_append, ← add_assoc]
    exact congrArg (· + output_tokens second) haccounted.output_tokens
  · exact List.append_nil _
  · rw [hlog_length, hlog, List.length_append, List.length_map]
    exact (Nat.zero_add _).symm
  · rw [requested_append, hspent.requested, List.append_nil, hlog]
    rfl
  · rw [executed_append, hspent.executed, List.append_nil, hlog]
    exact hexecuted

-- What a job may spend, and that its final state accounts for it: the research and then
-- the report, on the state that the research returns.
theorem job_within_budget (py : Python) (settings : Settings) (state : AgentState) :
    (research_node py settings state >>= fun update =>
      analyse py settings (state.merge update)).Ensures fun trace result =>
        (invocations trace).length ≤ settings.max_model_calls_per_job ∧
        (executed trace).length ≤ settings.max_tool_calls_per_job ∧
        rounds trace ≤ settings.react_max_iterations ∧
        ∀ final, result = .ok final →
          final.model_calls = state.model_calls + (invocations trace).length ∧
          final.input_tokens = state.input_tokens + input_tokens trace ∧
          final.output_tokens = state.output_tokens + output_tokens trace ∧
          ∃ log, final.tool_calls_log = state.tool_calls_log ++ log ∧
            log.length = (logged log).length ∧
            logged log = ((requested trace).take settings.max_tool_calls_per_job).map ToolCall.key ∧
            (executed trace).Sublist (logged log) := by
  refine Program.ensures_bind ((research_node_ensures state).mono ?_)
  rintro first result ⟨depth_instruction, hbounded, hupdate⟩
  have hcalls := hbounded.calls
  have hrounds := hbounded.rounds
  have hexecuted := hbounded.executed
  simp only [Gathered.start, List.length_nil, Nat.sub_zero] at hcalls hexecuted
  cases result with
  | error error =>
      exact ⟨by omega, executed_within hexecuted, hrounds, fun final h => by cases h⟩
  | ok update =>
      obtain ⟨gathered, rfl, haccounted⟩ := hupdate update rfl
      have hmodel : gathered.model_calls = state.model_calls + (invocations first).length :=
        haccounted.model_calls
      refine Program.ensures_bind ((analyst_node_ensures _).mono ?_)
      rintro second result ⟨hspent, hreported⟩
      have hcalls' := hspent.calls
      have hall : (invocations (first ++ second)).length ≤ settings.max_model_calls_per_job := by
        rw [invocations_append, List.length_append]
        simp only [AgentState.merge, Gathered.update, Option.getD_some] at hcalls'
        omega
      have hexecuted' : (executed (first ++ second)).Sublist (((requested (first ++ second)).take
          settings.max_tool_calls_per_job).map ToolCall.key) := by
        rw [executed_append, hspent.executed, requested_append, hspent.requested,
          List.append_nil, List.append_nil]
        exact hexecuted
      have hrounds' : rounds (first ++ second) ≤ settings.react_max_iterations := by
        rw [rounds_append, hspent.rounds]
        exact hrounds
      cases result with
      | error error =>
          exact ⟨hall, executed_within hexecuted', hrounds', fun final h => by cases h⟩
      | ok update =>
          refine Program.ensures_ret ?_
          rw [List.append_nil]
          refine ⟨hall, executed_within hexecuted', hrounds', fun final h => ?_⟩
          cases h
          exact final_accounts haccounted hexecuted hspent (hreported update rfl)

end Nodes

end ResearchAgent.Research
