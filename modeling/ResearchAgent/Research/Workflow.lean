import ResearchAgent.Research.Analyst
import ResearchAgent.Research.Gathering

namespace ResearchAgent.Research

open Library JobQueue Service

variable (py : Python) (settings : Settings)

def VALID_RESEARCH_DEPTHS : List String := ["quick", "standard", "deep"]

def is_symbol (word : String) : Bool :=
  1 ≤ word.length && word.length ≤ 5 && word.toList.all (between 'A' 'Z')

-- The longest runs of word characters. `\b([A-Z]{1,5})\b` matches those of them that
-- are one to five capitals, and nothing else.
def words (text : String) : List String :=
  (text.toList.splitOnP fun char => !py.word char).map String.ofList

def find_symbols (query : String) : List String := (words py query).filter is_symbol

def given_tickers (tickers : List String) : List String :=
  (tickers.filter fun ticker => strip ticker ≠ "").map fun ticker => strip (py.upper ticker)

-- The tickers that the run is about: those given, else the first in the query.
def resolve_tickers (query : String) (tickers : List String) : List String :=
  let tickers := given_tickers py tickers
  if tickers.isEmpty && query ≠ "" then (find_symbols py query).take 3 else tickers

def validate_input (state : AgentState) : AgentUpdate :=
  let query := strip state.query
  let tickers := resolve_tickers py query state.tickers
  let depth := if state.research_depth ∈ VALID_RESEARCH_DEPTHS then state.research_depth
    else "standard"
  let checked : AgentUpdate := {
    tickers := some tickers
    query := some query
    research_depth := some depth
    error := some none
    model_calls := some 0
    input_tokens := some 0
    output_tokens := some 0 }
  if tickers.isEmpty then
    { checked with
      error := some (some "No tickers provided or extractable from query.")
      report := some none }
  else checked

inductive Route where
  | research_node
  | analyst_node
  | stop
deriving DecidableEq

-- Whether `state.get("error")` counts as true.
def has_error (state : AgentState) : Bool :=
  match state.error with
  | none | some "" => false
  | some _ => true

def route_after_validation (state : AgentState) : Route :=
  if has_error state then .stop else .research_node

def route_after_research (state : AgentState) : Route :=
  if has_error state then .stop
  else if state.ticker_analyses.isEmpty && state.news_items.isEmpty then .stop
  else .analyst_node

-- The compiled graph: a node's update is merged into the state, and the state says
-- which node comes next.
def analyse (state : AgentState) : AgentProgram AgentState := do
  let update ← analyst_node py settings state
  .ret (state.merge update)

def research (state : AgentState) : AgentProgram AgentState := do
  let update ← research_node py settings state
  let state := state.merge update
  match route_after_research state with
  | .analyst_node => analyse py settings state
  | _ => .ret state

def ainvoke (state : AgentState) : AgentProgram AgentState :=
  let state := state.merge (validate_input py state)
  match route_after_validation state with
  | .research_node => research py settings state
  | _ => .ret state

def initial_state (query : String) (tickers : List String) (research_depth : String) :
    AgentState where
  query := query
  tickers := tickers
  research_depth := research_depth

def run_research (query : String) (tickers : List String) (research_depth : String) :
    AgentProgram AgentState :=
  if research_depth ∉ VALID_RESEARCH_DEPTHS then
    .raise (.ValueError (s!"Invalid research_depth={py.repr (.str research_depth)}; " ++
      "must be one of ('quick', 'standard', 'deep')"))
  else ainvoke py settings (initial_state query tickers research_depth)

end ResearchAgent.Research
