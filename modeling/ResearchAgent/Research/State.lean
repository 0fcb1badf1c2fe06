import ResearchAgent.Library.Program
import ResearchAgent.Research.Tools

namespace ResearchAgent.Research

open Library JobQueue Service

structure ToolCall where
  name : String
  args : JSONObject
  id : Option String

inductive Content where
  | text (text : String)
  | blocks (items : List JSONValue)

-- `content or ""`
def Content.or_empty : Content → Content
  | .blocks [] => .text ""
  | content => content

structure UsageMetadata where
  input_tokens : Option ℤ := none
  output_tokens : Option ℤ := none

structure AIMessage where
  content : Content
  tool_calls : List ToolCall := []
  usage_metadata : Option UsageMetadata := none

namespace AIMessage

def input_tokens (response : AIMessage) : ℤ :=
  (response.usage_metadata.bind (·.input_tokens)).getD 0

def output_tokens (response : AIMessage) : ℤ :=
  (response.usage_metadata.bind (·.output_tokens)).getD 0

end AIMessage

inductive Message where
  | system (content : String)
  | user (content : String)
  | assistant (content : Content) (tool_calls : List ToolCall)
  | tool (tool_call_id : Option String) (content : String)

structure AgentState where
  query : String
  tickers : List String
  research_depth : String
  ticker_analyses : List JSONObject := []
  news_items : List JSONValue := []
  macro_indicators : List JSONValue := []
  sources : List SourceRecord := []
  tool_calls_log : List JSONValue := []
  messages : List Message := []
  model_calls : ℕ := 0
  input_tokens : ℤ := 0
  output_tokens : ℤ := 0
  report : Option JSONObject := none
  error : Option String := none

-- What a node returns. The lists are appended to those of the state; the other
-- entries replace those of the state where the node names them.
structure AgentUpdate where
  query : Option String := none
  tickers : Option (List String) := none
  research_depth : Option String := none
  ticker_analyses : List JSONObject := []
  news_items : List JSONValue := []
  macro_indicators : List JSONValue := []
  sources : List SourceRecord := []
  tool_calls_log : List JSONValue := []
  messages : List Message := []
  model_calls : Option ℕ := none
  input_tokens : Option ℤ := none
  output_tokens : Option ℤ := none
  report : Option (Option JSONObject) := none
  error : Option (Option String) := none

def AgentState.merge (state : AgentState) (update : AgentUpdate) : AgentState where
  query := update.query.getD state.query
  tickers := update.tickers.getD state.tickers
  research_depth := update.research_depth.getD state.research_depth
  ticker_analyses := state.ticker_analyses ++ update.ticker_analyses
  news_items := state.news_items ++ update.news_items
  macro_indicators := state.macro_indicators ++ update.macro_indicators
  sources := state.sources ++ update.sources
  tool_calls_log := state.tool_calls_log ++ update.tool_calls_log
  messages := state.messages ++ update.messages
  model_calls := update.model_calls.getD state.model_calls
  input_tokens := update.input_tokens.getD state.input_tokens
  output_tokens := update.output_tokens.getD state.output_tokens
  report := update.report.getD state.report
  error := update.error.getD state.error

-- What became of a tool handed to the executor: how long it took, in seconds, and
-- what its requests came back with.
structure ToolRun where
  duration : ℚ
  fetched : Fetched

-- What the agents do to the world outside. The circuits are shared by all runs, and
-- their three operations are the sections of `CircuitBreaker.call` under its lock.
inductive AgentOp where
  | build_provider_llm (provider : Provider)
  | invoke (bind_tools : Bool) (index : ℕ) (messages : List Message)
  | circuit_enter (tool : Tool)
  | circuit_failed (tool : Tool)
  | circuit_succeeded (tool : Tool)
  | submit (tool : Tool) (args : JSONObject)
  | now

namespace AgentOp

abbrev Reply : AgentOp → Type
  | build_provider_llm _ => Except AgentError Unit
  | invoke _ _ _ => Except AgentError AIMessage
  | circuit_enter _ => Bool
  | circuit_failed _ | circuit_succeeded _ => Unit
  | submit _ _ => ToolRun
  | now => String

end AgentOp

abbrev AgentProgram (α : Type) := Program AgentOp AgentOp.Reply AgentError α

def perform (op : AgentOp) : AgentProgram op.Reply := .call op .ret

def lift {α : Type} : Except AgentError α → AgentProgram α
  | .ok value => .ret value
  | .error error => .raise error

section Models

variable (py : Python) (settings : Settings)

def build_each : List Provider → AgentProgram Unit
  | [] => .ret ()
  | provider :: rest => do
      let built ← perform (.build_provider_llm provider)
      lift built
      build_each rest

def build_llm_candidates : AgentProgram (List Provider) := do
  let fallback_providers ← lift (settings.fallback_providers py)
  let providers := settings.llm_provider :: fallback_providers
  build_each providers
  .ret providers

-- The loop over the candidates, which is the same in both agents: the answer of the
-- first one that gives any, and the count of the calls.
def ask_candidates (bind_tools : Bool) (messages : List Message) :
    ℕ → List Provider → ℕ → AgentProgram (Option AIMessage × ℕ)
  | _, [], model_calls => .ret (none, model_calls)
  | index, _ :: llms, model_calls =>
      if model_calls ≥ settings.max_model_calls_per_job then .ret (none, model_calls)
      else do
        match ← perform (.invoke bind_tools index messages) with
        | .ok response => .ret (some response, model_calls + 1)
        | .error _ => ask_candidates bind_tools messages (index + 1) llms (model_calls + 1)

end Models

end ResearchAgent.Research
