import ResearchAgent.Library.Traces
import ResearchAgent.Research.Workflow

namespace ResearchAgent.Research

open Library JobQueue Service

abbrev AgentExchange := Exchange AgentOp AgentOp.Reply

abbrev AgentTrace := List AgentExchange

-- A call of `llm.invoke`, with the tools bound or without.
structure Invocation where
  bind_tools : Bool
  index : ℕ
  messages : List Message
  reply : Except AgentError AIMessage

def Invocation.response (invocation : Invocation) : Option AIMessage := invocation.reply.toOption

-- The tool calls that the answer asks for; without tools bound nobody reads them.
def Invocation.tool_calls (invocation : Invocation) : List ToolCall :=
  if invocation.bind_tools then (invocation.response.map (·.tool_calls)).getD [] else []

def ToolCall.key (tc : ToolCall) : String × JSONObject := (tc.name, tc.args)

section Projections

def invocation : AgentExchange → Option Invocation
  | ⟨.invoke bind_tools index messages, reply⟩ => some ⟨bind_tools, index, messages, reply⟩
  | _ => none

def execution : AgentExchange → Option (String × JSONObject)
  | ⟨.submit tool args, _⟩ => some (tool.name, args)
  | _ => none

def invocations (trace : AgentTrace) : List Invocation := trace.filterMap invocation

-- The tools that were run, each with its arguments.
def executed (trace : AgentTrace) : List (String × JSONObject) := trace.filterMap execution

def responses (trace : AgentTrace) : List AIMessage :=
  (invocations trace).filterMap Invocation.response

def requested (trace : AgentTrace) : List ToolCall := (invocations trace).flatMap (·.tool_calls)

-- A round of the research loop begins with its first candidate.
def rounds (trace : AgentTrace) : ℕ :=
  (invocations trace).countP fun invocation => invocation.bind_tools && invocation.index = 0

def input_tokens (trace : AgentTrace) : ℤ := ((responses trace).map (·.input_tokens)).sum

def output_tokens (trace : AgentTrace) : ℤ := ((responses trace).map (·.output_tokens)).sum

variable (trace later : AgentTrace)

@[simp] theorem invocations_append :
    invocations (trace ++ later) = invocations trace ++ invocations later :=
  List.filterMap_append

@[simp] theorem executed_append : executed (trace ++ later) = executed trace ++ executed later :=
  List.filterMap_append

@[simp] theorem responses_append :
    responses (trace ++ later) = responses trace ++ responses later := by
  simp [responses]

@[simp] theorem requested_append :
    requested (trace ++ later) = requested trace ++ requested later := by
  simp [requested]

@[simp] theorem rounds_append : rounds (trace ++ later) = rounds trace + rounds later := by
  simp [rounds]

@[simp] theorem input_tokens_append :
    input_tokens (trace ++ later) = input_tokens trace + input_tokens later := by
  simp [input_tokens]

@[simp] theorem output_tokens_append :
    output_tokens (trace ++ later) = output_tokens trace + output_tokens later := by
  simp [output_tokens]

end Projections

-- An execution, or a part of one, in which no model is asked.
structure Silent (trace : AgentTrace) : Prop where
  invocations : invocations trace = []

namespace Silent

variable {trace later : AgentTrace}

theorem nil : Silent [] := ⟨rfl⟩

theorem append (h : Silent trace) (h' : Silent later) : Silent (trace ++ later) :=
  ⟨by rw [invocations_append, h.invocations, h'.invocations]; rfl⟩

theorem responses (h : Silent trace) : Research.responses trace = [] := by
  simp [Research.responses, h.invocations]

theorem requested (h : Silent trace) : Research.requested trace = [] := by
  simp [Research.requested, h.invocations]

theorem rounds (h : Silent trace) : Research.rounds trace = 0 := by
  simp [Research.rounds, h.invocations]

theorem input_tokens (h : Silent trace) : Research.input_tokens trace = 0 := by
  simp [Research.input_tokens, h.responses]

theorem output_tokens (h : Silent trace) : Research.output_tokens trace = 0 := by
  simp [Research.output_tokens, h.responses]

end Silent

section Rules

variable {α β : Type} {post : AgentTrace → Except AgentError α → Prop}

@[simp] theorem lift_ok (value : α) : lift (.ok value) = .ret value := rfl

@[simp] theorem lift_error (error : AgentError) :
    (lift (.error error) : AgentProgram α) = .raise error := rfl

theorem ensures_perform {op : AgentOp} {f : op.Reply → AgentProgram α}
    (h : ∀ reply, (f reply).Ensures fun trace result => post (⟨op, reply⟩ :: trace) result) :
    (perform op >>= f).Ensures post :=
  Program.ensures_call h

theorem ensures_lift {value : Except AgentError α} (h : post [] value) :
    (lift value).Ensures post := by
  cases value with
  | ok value => exact Program.ensures_ret h
  | error error => exact Program.ensures_raise h

end Rules

section Candidates

variable (py : Python) (settings : Settings)

-- Building the clients asks nobody anything and runs no tool.
def Preparing : AgentOp → Prop
  | .build_provider_llm _ => True
  | _ => False

theorem build_llm_candidates_uses : (build_llm_candidates py settings).uses Preparing := by
  have hlift {α : Type} (value : Except AgentError α) : (lift value).uses Preparing := by
    cases value <;> trivial
  have heach (providers : List Provider) : (build_each providers).uses Preparing := by
    induction providers with
    | nil => trivial
    | cons provider rest ih =>
        refine ⟨trivial, fun built => ?_⟩
        show (lift built >>= fun _ => build_each rest).uses Preparing
        exact Program.uses_bind (hlift built) fun _ => ih
  exact Program.uses_bind (hlift _) fun _ => Program.uses_bind (heach _) fun _ => trivial

theorem build_llm_candidates_ensures :
    (build_llm_candidates py settings).Ensures fun trace _ =>
      Silent trace ∧ executed trace = [] := by
  intro trace result hexec
  have huses := hexec.uses (build_llm_candidates_uses py settings)
  constructor
  · refine ⟨List.filterMap_eq_nil_iff.mpr fun exchange hmem => ?_⟩
    rcases exchange with ⟨op, reply⟩
    cases op <;> first | rfl | exact (huses _ hmem).elim
  · refine List.filterMap_eq_nil_iff.mpr fun exchange hmem => ?_
    rcases exchange with ⟨op, reply⟩
    cases op <;> first | rfl | exact (huses _ hmem).elim

variable {settings}

-- What a chain of candidates does: it asks no more of them than the budget allows, on
-- one list of messages, and ends at the first answer.
structure Asked (settings : Settings) (bind_tools : Bool) (messages : List Message) (index : ℕ)
    (model_calls : ℕ) (trace : AgentTrace) (response : Option AIMessage) (model_calls' : ℕ) :
    Prop where
  executed : executed trace = []
  counted : model_calls' = model_calls + (invocations trace).length
  within : model_calls' ≤ max model_calls settings.max_model_calls_per_job
  bound : ∀ invocation ∈ invocations trace,
    invocation.bind_tools = bind_tools ∧ invocation.messages = messages
  rounds : (invocations trace).countP (fun invocation => invocation.index = 0) ≤
    if index = 0 then 1 else 0
  responses : responses trace = response.toList
  failures : ∀ invocation ∈ (invocations trace).dropLast, invocation.response = none

section Steps

variable {bind_tools : Bool} {messages : List Message} {index model_calls model_calls' : ℕ}
variable {trace : AgentTrace} {response : Option AIMessage}

theorem Asked.nobody :
    Asked settings bind_tools messages index model_calls [] none model_calls where
  executed := rfl
  counted := rfl
  within := le_max_left _ _
  bound := by simp [invocations]
  rounds := by simp [invocations]
  responses := rfl
  failures := by simp [invocations]

theorem Asked.answered {message : AIMessage}
    (hbudget : model_calls < settings.max_model_calls_per_job) :
    Asked settings bind_tools messages index model_calls
      [⟨.invoke bind_tools index messages, .ok message⟩] (some message) (model_calls + 1) where
  executed := rfl
  counted := rfl
  within := by omega
  bound := by simp [invocations, invocation]
  rounds := by
    simp only [invocations, invocation, List.filterMap_cons, List.filterMap_nil,
      List.countP_cons, List.countP_nil]
    simp
  responses := rfl
  failures := by simp [invocations, invocation]

-- After a failure the next candidate is asked.
theorem Asked.after_failure {error : AgentError}
    (hbudget : model_calls < settings.max_model_calls_per_job)
    (h : Asked settings bind_tools messages (index + 1) (model_calls + 1) trace response
      model_calls') :
    Asked settings bind_tools messages index model_calls
      (⟨.invoke bind_tools index messages, .error error⟩ :: trace) response model_calls' where
  executed := h.executed
  counted := by
    have hcounted := h.counted
    simp only [invocations, invocation, List.filterMap_cons, List.length_cons] at hcounted ⊢
    omega
  within := by
    have hwithin := h.within
    omega
  bound := by
    intro invocation hmem
    rcases List.mem_cons.mp hmem with rfl | hmem
    · exact ⟨rfl, rfl⟩
    · exact h.bound invocation hmem
  rounds := by
    have hrounds := h.rounds
    simp only [Nat.add_eq_zero_iff, one_ne_zero, and_false, if_false] at hrounds
    simp only [invocations, invocation, List.filterMap_cons, List.countP_cons] at hrounds ⊢
    simp only [decide_eq_true_eq]
    omega
  responses := h.responses
  failures := by
    have hfailures := h.failures
    show ∀ invocation ∈ (_ :: invocations trace).dropLast, invocation.response = none
    cases hrest : invocations trace with
    | nil => simp
    | cons other rest =>
        rw [hrest] at hfailures
        rw [List.dropLast_cons_cons]
        intro invocation hmem
        rcases List.mem_cons.mp hmem with rfl | hmem
        · rfl
        · exact hfailures invocation hmem

end Steps

theorem ask_candidates_ensures (bind_tools : Bool) (messages : List Message)
    (llms : List Provider) :
    ∀ index model_calls,
      (ask_candidates settings bind_tools messages index llms model_calls).Ensures
        fun trace result => ∃ response model_calls', result = .ok (response, model_calls') ∧
          Asked settings bind_tools messages index model_calls trace response model_calls' := by
  induction llms with
  | nil =>
      intro index model_calls
      exact Program.ensures_ret ⟨none, model_calls, rfl, .nobody⟩
  | cons llm llms ih =>
      intro index model_calls
      unfold ask_candidates
      split
      · exact Program.ensures_ret ⟨none, model_calls, rfl, .nobody⟩
      · next hreached =>
        have hbudget : model_calls < settings.max_model_calls_per_job := by omega
        refine ensures_perform fun reply => ?_
        cases reply with
        | ok response =>
            exact Program.ensures_ret ⟨some response, model_calls + 1, rfl, .answered hbudget⟩
        | error error =>
            refine (ih (index + 1) (model_calls + 1)).mono ?_
            rintro trace result ⟨response, model_calls', hresult, hasked⟩
            exact ⟨response, model_calls', hresult, hasked.after_failure hbudget⟩

end Candidates

section Asking

variable {settings : Settings} {trace : AgentTrace}
variable {messages : List Message} {index model_calls model_calls' : ℕ}
variable {response : Option AIMessage}

theorem requested_of_bound (h : ∀ invocation ∈ invocations trace, invocation.bind_tools = true) :
    requested trace = (responses trace).flatMap (·.tool_calls) := by
  unfold requested responses
  generalize invocations trace = asked at h
  induction asked with
  | nil => rfl
  | cons first rest ih =>
      have hrest := ih fun invocation hmem => h invocation (List.mem_cons_of_mem _ hmem)
      have hfirst := h first List.mem_cons_self
      rw [List.flatMap_cons, hrest]
      cases hresponse : first.response with
      | none =>
          rw [List.filterMap_cons_none hresponse]
          simp [Invocation.tool_calls, hresponse]
      | some answer =>
          rw [List.filterMap_cons_some hresponse]
          simp [Invocation.tool_calls, hresponse, hfirst]

theorem Asked.requested
    (h : Asked settings true messages index model_calls trace response model_calls') :
    Research.requested trace = (response.map (·.tool_calls)).getD [] := by
  rw [requested_of_bound fun invocation hmem => (h.bound invocation hmem).1, h.responses]
  cases response <;> simp

-- Without tools bound, nothing is requested and no round is begun.
theorem Asked.requested_unbound
    (h : Asked settings false messages index model_calls trace response model_calls') :
    Research.requested trace = [] := by
  refine List.flatMap_eq_nil_iff.mpr fun invocation hmem => ?_
  simp [Invocation.tool_calls, (h.bound invocation hmem).1]

theorem Asked.rounds_unbound
    (h : Asked settings false messages index model_calls trace response model_calls') :
    Research.rounds trace = 0 := by
  refine List.countP_eq_zero.mpr fun invocation hmem => ?_
  simp [(h.bound invocation hmem).1]

theorem Asked.rounds_le {bind_tools : Bool}
    (h : Asked settings bind_tools messages 0 model_calls trace response model_calls') :
    Research.rounds trace ≤ 1 := by
  refine le_trans (List.countP_mono_left ?_) h.rounds
  intro invocation _ hround
  simp only [Bool.and_eq_true] at hround
  exact hround.2

end Asking

section SmallRuns

-- What the signatures of the tools ask for.
def take_ticker (tool : Tool) (args : JSONObject) : Except String Arguments :=
  match tool, get args "ticker" with
  | .get_macro_indicators, _ => .ok {}
  | _, .str ticker => .ok { ticker }
  | _, _ => .error "ticker: Field required"

-- Primitives for runs that can be computed. No text matches a pattern, and every answer
-- of a model is malformed JSON.
def Python.small : Python where
  upper := id
  lower := id
  word := Char.isAlphanum
  repr _ := ""
  float_repr _ := ""
  parse_float _ := none
  round _ := id
  format_fixed _ _ := ""
  sha256 := id
  search _ _ := false
  loads _ := .JSONDecodeError
  validate_float _ := none
  read_arguments := take_ticker

-- The settings as they are without a configuration.
def Settings.small : Settings := {}

def AgentState.small : AgentState :=
  { query := "Is it worth it?", tickers := ["NVDA"], research_depth := "quick" }

-- Every fetch function raises.
def Fetched.nothing : Fetched where
  fetch_from_alpha_vantage _ := .error ""
  fetch_newsapi _ := .error ""
  fetch_indicator _ := .error ""
  edgar_cik_lookup _ := .error ""
  fetch_recent_filing_meta _ := .error ""

-- A model that gives these answers, one after the other, and then fails. The requests of
-- the tools come back with `fetched`, at once.
def scripted (fetched : Fetched) (answers : List AIMessage) :
    (op : AgentOp) → op.Reply × List AIMessage
  | .build_provider_llm _ => (.ok (), answers)
  | .invoke _ _ _ =>
      match answers with
      | [] => (.error (.Exception "no answer"), [])
      | response :: rest => (.ok response, rest)
  | .circuit_enter _ => (true, answers)
  | .circuit_failed _ | .circuit_succeeded _ => ((), answers)
  | .submit _ _ => (⟨0, fetched⟩, answers)
  | .now => ("", answers)

end SmallRuns

end ResearchAgent.Research
