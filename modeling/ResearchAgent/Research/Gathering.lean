import ResearchAgent.Research.Content
import ResearchAgent.Research.State

namespace ResearchAgent.Research

open Library JobQueue Service

def TOOL_CALL_TIMEOUT_SECONDS : ℕ := 30

def Tool.source_locator : Tool → String
  | get_market_data => "https://www.alphavantage.co/"
  | get_financial_news => "https://newsapi.org/"
  | get_macro_indicators => "https://www.alphavantage.co/"
  | get_sec_filing_summary => "https://www.sec.gov/edgar/search/"

def Tool.source_type : Tool → String
  | get_market_data => "market_data"
  | get_financial_news => "news"
  | get_macro_indicators => "macro"
  | get_sec_filing_summary => "sec_filing"

section Calls

variable (py : Python) (settings : Settings)

-- `CircuitBreaker.call` on the circuit of the tool.
def circuit_call {α : Type} (tool : Tool) (operation : AgentProgram α) : AgentProgram α := do
  if ← perform (.circuit_enter tool) then
    let result ← operation.attempt fun error => do
      perform (.circuit_failed tool)
      .raise error
    perform (.circuit_succeeded tool)
    .ret result
  else .raise (.CircuitOpenError "Provider circuit is open")

-- The tool runs on in the executor when the time is up, but nobody waits for it.
def invoke_tool_with_timeout (tool : Tool) (args : JSONObject)
    (timeout : ℕ := TOOL_CALL_TIMEOUT_SECONDS) : AgentProgram JSONValue := do
  let run ← perform (.submit tool args)
  if timeout < run.duration then .raise (.TimeoutError s!"Tool call timed out after {timeout}s")
  else lift (tool.invoke py settings args run.fetched)

-- What a tool call comes to. The four handlers differ in what they log.
def tool_result (tc : ToolCall) : AgentProgram JSONValue :=
  match find_tool tc.name with
  | none => .ret (error_result s!"Unknown tool: {tc.name}")
  | some tool =>
      Program.attempt (do
        let result ← circuit_call tool (invoke_tool_with_timeout py settings tool tc.args)
        lift (sanitize_tool_result py settings.max_external_content_chars
          settings.prompt_injection_policy result))
      fun error => .ret (error_result error.text)

end Calls

section Sources

variable (py : Python)

-- What a result counts as: its items, or itself.
def records : JSONValue → List JSONValue
  | .list items => items
  | value => [value]

def content_digest (record : JSONValue) : String := py.sha256 (py.sorted_dumps record)

def source_id (tool : Tool) (args : JSONObject) (digest : String) : String :=
  let source_seed := py.sorted_dumps (.dict [
    ("tool", .str tool.name), ("args", .dict args), ("content_sha256", .str digest)])
  "src_" ++ take_chars 12 (py.sha256 source_seed)

def locator (tool : Tool) (record : JSONValue) : String :=
  match record with
  | .dict entries =>
      py.str (either (get entries "url")
        (either (get entries "filing_url") (.str tool.source_locator)))
  | _ => tool.source_locator

def label (tool : Tool) (record : JSONValue) : String :=
  match record with
  | .dict entries =>
      take_chars 200 (py.str (either (get entries "headline") (either (get entries "name")
        (either (get entries "company_name") (either (get entries "form_type")
          (.str tool.name))))))
  | _ => tool.name

def source_record (tool : Tool) (args : JSONObject) (record : JSONValue) (retrieved_at : String) :
    SourceRecord where
  source_id := source_id py tool args (content_digest py record)
  provider := tool.name
  source_type := tool.source_type
  locator := locator py tool record
  retrieved_at := retrieved_at
  ticker := if truthy (get args "ticker") then some (py.str (get args "ticker")) else none
  label := label py tool record
  content_sha256 := content_digest py record

def source_records (tool : Tool) (args : JSONObject) :
    List JSONValue → AgentProgram (List SourceRecord)
  | [] => .ret []
  | record :: rest => do
      let retrieved_at ← perform .now
      let sources ← source_records tool args rest
      .ret (source_record py tool args record retrieved_at :: sources)

end Sources

-- Whether the result says that the tool has failed.
def is_error : JSONValue → Bool
  | .dict entries => has_key entries "error"
  | _ => false

-- The local variables of `research_node` in its loop.
structure Gathered where
  messages : List Message
  ticker_analyses : List JSONObject := []
  news_items : List JSONValue := []
  macro_indicators : List JSONValue := []
  sources : List SourceRecord := []
  tool_calls_log : List JSONValue := []
  iterations : ℕ := 0
  model_calls : ℕ
  input_tokens : ℤ
  output_tokens : ℤ

namespace Gathered

-- The state bucket into which a result goes.
def classify (gathered : Gathered) (tool_name : String) (result : JSONValue) : Gathered :=
  match find_tool tool_name, result with
  | some .get_market_data, .dict entries =>
      if has_key entries "error" then gathered
      else { gathered with ticker_analyses := gathered.ticker_analyses ++ [entries] }
  | some .get_financial_news, .list items =>
      { gathered with news_items := gathered.news_items ++ items }
  | some .get_macro_indicators, .list items =>
      { gathered with macro_indicators := gathered.macro_indicators ++ items }
  | _, _ => gathered

def log_entry (gathered : Gathered) (tc : ToolCall) (result : JSONValue) (timestamp : String) :
    JSONValue :=
  .dict [("tool", .str tc.name), ("args", .dict tc.args),
    ("result_type", .str (type_name result)), ("timestamp", .str timestamp),
    ("iteration", .int gathered.iterations)]

-- The round's answer, with its tokens and its place in the dialogue.
def answered (gathered : Gathered) (response : AIMessage) (model_calls : ℕ) : Gathered :=
  { gathered with
    iterations := gathered.iterations + 1
    model_calls := model_calls
    input_tokens := gathered.input_tokens + response.input_tokens
    output_tokens := gathered.output_tokens + response.output_tokens
    messages := gathered.messages ++
      [.assistant response.content.or_empty response.tool_calls] }

end Gathered

section Node

variable (py : Python) (settings : Settings)

def result_sources (tc : ToolCall) (result : JSONValue) : AgentProgram (List SourceRecord) :=
  match find_tool tc.name with
  | some tool =>
      if !is_error result && truthy result then source_records py tool tc.args (records result)
      else .ret []
  | none => .ret []

-- One turn of the loop over the tool calls of a response.
def handle_tool_call (tc : ToolCall) (gathered : Gathered) : AgentProgram Gathered := do
  let result ← tool_result py settings tc
  let gathered := gathered.classify tc.name result
  let sources ← result_sources py tc result
  let timestamp ← perform .now
  .ret { gathered with
    sources := gathered.sources ++ sources
    tool_calls_log := gathered.tool_calls_log ++ [gathered.log_entry tc result timestamp]
    messages := gathered.messages ++ [.tool tc.id (py.dumps result)] }

def handle_tool_calls : List ToolCall → Gathered → AgentProgram Gathered
  | [], gathered => .ret gathered
  | tc :: rest, gathered =>
      if gathered.tool_calls_log.length ≥ settings.max_tool_calls_per_job then .ret gathered
      else do
        let gathered ← handle_tool_call py settings tc gathered
        handle_tool_calls rest gathered

-- The `while` loop, where `left` is `max_iterations - iterations`.
def react (llms : List Provider) : (left : ℕ) → Gathered → AgentProgram Gathered
  | 0, gathered => .ret gathered
  | left + 1, gathered =>
      if gathered.model_calls < settings.max_model_calls_per_job then do
        let (response, model_calls) ←
          ask_candidates settings true gathered.messages 0 llms gathered.model_calls
        match response with
        | none => .raise (.RuntimeError "All configured LLM providers failed")
        | some response =>
            let gathered := gathered.answered response model_calls
            if response.tool_calls.isEmpty then .ret gathered
            else do
              let gathered ← handle_tool_calls py settings response.tool_calls gathered
              react llms left gathered
      else .ret gathered

def SYSTEM_PROMPT : String := "You are a senior financial research analyst with 20+ years of experience covering global equities.
Your job is to gather comprehensive data about the requested tickers and macroeconomic environment.

You have access to these tools:
- get_market_data: fundamental data (P/E, revenue growth, FCF, analyst consensus)
- get_financial_news: recent news with sentiment labels
- get_macro_indicators: macro-economic indicators (CPI, rates, GDP)
- get_sec_filing_summary: latest 10-K/10-Q from SEC EDGAR

Rules:
1. Always call get_market_data AND get_financial_news for each ticker.
2. Always call get_macro_indicators once — macro context applies to all tickers.
3. For deep research, also call get_sec_filing_summary.
4. Do not fabricate numbers. If data is unavailable, state that clearly.
5. Use tools in parallel where possible (but respect rate limits — max 2 concurrent).
6. Stop calling tools once you have gathered all required data.
"

def DEPTH_INSTRUCTION : List (String × String) := [
  ("quick", "Call get_market_data only for each ticker."),
  ("standard", "Call get_market_data, get_financial_news, and get_macro_indicators."),
  ("deep", "Call all available tools including get_sec_filing_summary.")]

def user_message (state : AgentState) (depth_instruction : String) : String :=
  let tickers := ", ".intercalate state.tickers
  s!"Research the following tickers: {tickers}.\n" ++
  s!"Research depth: {state.research_depth}. {depth_instruction}\n" ++
  s!"Original query: {state.query}"

def Gathered.start (state : AgentState) (depth_instruction : String) : Gathered where
  messages := [.system SYSTEM_PROMPT, .user (user_message state depth_instruction)]
  model_calls := state.model_calls
  input_tokens := state.input_tokens
  output_tokens := state.output_tokens

def Gathered.error (gathered : Gathered) : Option String :=
  if gathered.ticker_analyses.isEmpty && gathered.news_items.isEmpty then
    some "No research data was available from the configured providers."
  else if gathered.sources.isEmpty then
    some "Research data lacked verifiable source provenance."
  else none

def Gathered.summary (gathered : Gathered) : Message :=
  .system (s!"Research gathered {gathered.ticker_analyses.length} " ++
    s!"ticker analyses, {gathered.news_items.length} news items, " ++
    s!"{gathered.macro_indicators.length} macro indicators.")

def Gathered.update (gathered : Gathered) : AgentUpdate where
  ticker_analyses := gathered.ticker_analyses
  news_items := gathered.news_items
  macro_indicators := gathered.macro_indicators
  sources := gathered.sources
  tool_calls_log := gathered.tool_calls_log
  messages := [gathered.summary]
  error := some gathered.error
  model_calls := some gathered.model_calls
  input_tokens := some gathered.input_tokens
  output_tokens := some gathered.output_tokens

def research_node (state : AgentState) : AgentProgram AgentUpdate := do
  let llms ← build_llm_candidates py settings
  match DEPTH_INSTRUCTION.lookup state.research_depth with
  | none => .raise (.KeyError state.research_depth)
  | some depth_instruction => do
      let gathered ← react py settings llms settings.react_max_iterations
        (.start state depth_instruction)
      .ret gathered.update

end Node

end ResearchAgent.Research
