import ResearchAgent.Research.Reports
import ResearchAgent.Research.State

namespace ResearchAgent.Research

open Library JobQueue Service

def ANALYST_SYSTEM_PROMPT : String := "You are a senior equity research analyst at a top-tier investment bank.
You have been given raw data gathered by a research assistant.

Your task is to synthesise this data into a structured investment research report.

Guidelines:
- Be specific — cite actual numbers from the data, not generalities.
- Risk rating must reflect earnings quality, balance sheet strength, sector volatility.
- Recommended action must be defensible from the data provided.
- Bull and bear cases should be distinct and grounded in specific data points.
- Confidence score reflects data completeness: 0.9+ = full dataset, 0.6 = partial, <0.5 = thin.
- Do NOT fabricate data. If something is unknown, say so.

Output ONLY valid JSON matching this schema (no markdown fences):
\x7b
  \"executive_summary\": \"...\",
  \"investment_thesis\": \"...\",
  \"bull_case\": \"...\",
  \"bear_case\": \"...\",
  \"risk_rating\": \"LOW|MEDIUM|HIGH|VERY_HIGH\",
  \"recommended_action\": \"STRONG_BUY|BUY|HOLD|SELL|STRONG_SELL\",
  \"price_target_12m\": <float or null>,
  \"confidence_score\": <0.0–1.0>,
  \"data_sources_used\": [\"market_data\", \"news\", \"macro\", \"sec_filings\"],
  \"citations\": [\x7b\"source_id\": \"src_...\", \"claim\": \"specific claim supported by this source\"\x7d]
\x7d

Every material claim must have at least one citation. Use only source IDs from
the supplied Source Registry. Never cite a source that was not supplied.
"

section Prompt

-- `entries[key]`
def item (entries : JSONObject) (key : String) : Except AgentError JSONValue :=
  match entries.lookup key with
  | some value => .ok value
  | none => .error (.KeyError key)

def subscript (value : JSONValue) (key : String) : Except AgentError JSONValue :=
  match value with
  | .dict entries => item entries key
  | value => .error (.TypeError s!"'{type_name value}' indices must not be 'str'")

variable (py : Python)

def nonfinite_text : NonFinite → String
  | .nan => "nan"
  | .infinity => "inf"
  | .neg_infinity => "-inf"

-- The format `.nf`.
def fixed (digits : ℕ) : JSONValue → Except AgentError String
  | .int value =>
      if value.natAbs < FLOAT_LIMIT then .ok (py.format_fixed digits value)
      else .error (.OverflowError "int too large to convert to float")
  | .float value => .ok (py.format_fixed digits value)
  | .nonfinite value => .ok (nonfinite_text value)
  | .bool value => .ok (py.format_fixed digits (if value then 1 else 0))
  | .str _ => .error (.ValueError "Unknown format code 'f' for object of type 'str'")
  | value => .error (.TypeError
      s!"unsupported format string passed to {type_name value}.__format__")

-- `(value or 0) * 100` in the format `.1f`.
def percent (value : JSONValue) : Except AgentError String :=
  match either value (.int 0) with
  | .int value => fixed py 1 (.int (value * 100))
  | .float value => fixed py 1 (.float (value * 100))
  | .nonfinite value => fixed py 1 (.nonfinite value)
  | .bool _ => fixed py 1 (.int 100)
  | .dict _ => .error (.TypeError "unsupported operand type(s) for *: 'dict' and 'int'")
  | value => fixed py 1 value

def join_texts : List JSONValue → Except AgentError (List String)
  | [] => .ok []
  | .str text :: rest => return text :: (← join_texts rest)
  | value :: _ => .error (.TypeError s!"expected str instance, {type_name value} found")

-- `', '.join(value or ['None identified'])`
def join_risks (value : JSONValue) : Except AgentError String := do
  let texts ← match either value (.list [.str "None identified"]) with
    | .list items => join_texts items
    | .str text => .ok (text.toList.map (·.toString))
    | .dict entries => .ok (entries.map (·.1))
    | _ => .error (.TypeError "can only join an iterable")
  return ", ".intercalate texts

-- `value[:count]` of a text or a list, as it is formatted.
def slice_text (count : ℕ) : JSONValue → Except AgentError String
  | .str text => .ok (take_chars count text)
  | .list items => .ok (py.repr (.list (items.take count)))
  | value => .error (.TypeError s!"'{type_name value}' object is not subscriptable")

def upper_text : JSONValue → Except AgentError String
  | .str text => .ok (py.upper text)
  | value => .error (.Exception s!"'{type_name value}' object has no attribute 'upper'")

def analysis_section (ta : JSONObject) : Except AgentError String := do
  let ticker ← py.str <$> item ta "ticker"
  let company_name ← py.str <$> item ta "company_name"
  let sector ← py.str <$> item ta "sector"
  let price ← item ta "price" >>= fixed py 2
  let market_cap ← item ta "market_cap_billions" >>= fixed py 1
  let pe_ratio := py.str (either (get ta "pe_ratio") (.str "N/A"))
  let growth ← percent py (get ta "revenue_growth_yoy")
  let margin ← percent py (get ta "free_cash_flow_margin")
  let consensus ← py.str <$> item ta "analyst_consensus"
  let target_price := py.str (either (get ta "target_price") (.str "N/A"))
  let risks ← join_risks (get ta "key_risks" (.list []))
  let catalysts ← join_risks (get ta "key_catalysts" (.list []))
  return s!"### {ticker} — {company_name} ({sector})\n" ++
    s!"- Price: ${price}  |  Market Cap: ${market_cap}B\n" ++
    s!"- P/E: {pe_ratio}  |  Revenue Growth YoY: {growth}%  |  FCF Margin: {margin}%\n" ++
    s!"- Analyst Consensus: {consensus}  |  Target Price: ${target_price}\n" ++
    s!"- Key Risks: {risks}\n" ++
    s!"- Key Catalysts: {catalysts}"

def news_section (news : JSONValue) : Except AgentError String := do
  let sentiment ← subscript news "sentiment" >>= upper_text py
  let headline ← py.str <$> subscript news "headline"
  let source ← py.str <$> subscript news "source"
  let published_at ← subscript news "published_at" >>= slice_text py 10
  let summary ← subscript news "summary" >>= slice_text py 200
  return s!"- [{sentiment}] {headline} ({source}, {published_at})\n  {summary}"

def is_text (text : String) : JSONValue → Bool
  | .str value => value = text
  | _ => false

-- The key of the ranking. All scores are finite numbers, as the news tool gives them.
def relevance (news : JSONValue) : Except AgentError (ℚ × JSONValue) := do
  match ← subscript news "relevance_score" with
  | .int score => return (score, news)
  | .float score => return (score, news)
  | .bool score => return (if score then 1 else 0, news)
  | value => .error (.TypeError s!"'<' not supported between instances of '{type_name value}'")

def news_sections (news_items : List JSONValue) : Except AgentError (List String) := do
  let sentiments ← news_items.mapM fun news => subscript news "sentiment"
  let pos := sentiments.countP (is_text "positive")
  let neg := sentiments.countP (is_text "negative")
  let neu := news_items.length - pos - neg
  let count := news_items.length
  let scored ← news_items.mapM relevance
  let top := ((scored.insertionSort fun item other => item.1 ≥ other.1).map (·.2)).take 5
  let lines ← top.mapM (news_section py)
  let heading := s!"\n## Recent News ({count} articles: " ++
    s!"{pos} positive / {neu} neutral / {neg} negative)"
  return heading :: lines

def macro_section (indicator : JSONValue) : Except AgentError String := do
  let name ← py.str <$> subscript indicator "name"
  let value ← py.str <$> subscript indicator "value"
  let unit ← py.str <$> subscript indicator "unit"
  let trend ← py.str <$> subscript indicator "trend"
  let impact ← py.str <$> subscript indicator "impact_on_equities"
  return s!"- **{name}: {value}{unit} ({trend})** — {impact}"

def source_section (source : SourceRecord) : String :=
  s!"- {source.source_id}: {source.label} via {source.provider} ({source.locator}); " ++
    s!"content_sha256={source.content_sha256}"

def build_analyst_prompt (state : AgentState) : Except AgentError String := do
  let tickers := ", ".intercalate state.tickers
  let opening := [s!"# Research Brief: {tickers}", s!"**Query**: {state.query}",
    s!"**Research depth**: {state.research_depth}", ""]
  let analyses ← state.ticker_analyses.mapM (analysis_section py)
  let news ← if state.news_items.isEmpty then .ok [] else news_sections py state.news_items
  let indicators ← state.macro_indicators.mapM (macro_section py)
  let sections := opening ++
    (if state.ticker_analyses.isEmpty then [] else "## Fundamental Data" :: analyses) ++
    news ++
    (if state.macro_indicators.isEmpty then [] else "\n## Macroeconomic Context" :: indicators) ++
    "\n## Source Registry" :: state.sources.map source_section ++
    ["\nBased on all data above, produce the investment research report JSON."]
  return "\n".intercalate sections

end Prompt

section Cleaning

-- What ends a line besides CR LF.
def line_breaks : List Char :=
  ['\n', '\r', '\x0b', '\x0c', '\x1c', '\x1d', '\x1e', '\u0085', '\u2028', '\u2029']

def split_lines (line : List Char) : List Char → List (List Char)
  | [] => if line.isEmpty then [] else [line]
  | '\r' :: '\n' :: rest => line :: split_lines [] rest
  | char :: rest =>
      if char ∈ line_breaks then line :: split_lines [] rest else split_lines (line ++ [char]) rest

def splitlines (text : String) : List String := (split_lines [] text.toList).map String.ofList

def FENCE : List Char := ['\x60', '\x60', '\x60']

def is_fenced (text : String) : Bool := text.toList.take 3 = FENCE

-- The answer without the fence lines of Markdown, if it starts with one.
def strip_fences (content : String) : String :=
  let raw_json := strip content
  if is_fenced raw_json then
    strip ("\n".intercalate ((splitlines raw_json).filter fun line => !is_fenced (strip line)))
  else raw_json

end Cleaning

section Node

variable (py : Python) (settings : Settings)

def load_report (text : String) : Except AgentError JSONObject :=
  match py.loads text with
  | .value (.dict report_data) => .ok report_data
  | .value value => .error (.TypeError s!"'{type_name value}' object is not a mapping")
  | .JSONDecodeError => .error .JSONDecodeError
  | .int_limit digits => .error (.ValueError (
      s!"Exceeds the limit (4300 digits) for integer string conversion: value has {digits} digits; " ++
      "use sys.set_int_max_str_digits() to increase the limit"))
  | .RecursionError => .error (.Exception "maximum recursion depth exceeded")

def check_citations (sources : List SourceRecord) (payload : ResearchReportPayload) :
    Except AgentError Unit :=
  let allowed_source_ids := sources.map (·.source_id)
  if payload.citations.val.all fun citation => citation.source_id ∈ allowed_source_ids then .ok ()
  else .error (.ValueError "Report cited a source outside the supplied registry")

-- The `try` block after a model has answered.
def write_report (sources : List SourceRecord) (content : Content) :
    AgentProgram ResearchReportPayload := do
  match content with
  | .blocks _ => .raise (.ValueError "Analyst response must be plain JSON text")
  | .text content => do
      let report_data ← lift (load_report py (strip_fences content))
      let generated_at ← perform .now
      let validated ← lift (ResearchReportPayload.model_validate py
        (assign "generated_at" (.str generated_at) report_data))
      lift (check_citations sources validated)
      .ret validated

-- What the handlers make of an error.
def analyst_error : AgentError → String
  | .JSONDecodeError => "Model returned invalid report JSON."
  | .ModelBudgetExceededError => "Per-job model-call budget exhausted"
  | .ValidationError _ => "Model report failed schema validation."
  | .ValueError message => message
  | _ => "Report generation failed."

def analyst_update (report : Option JSONObject) (error : Option String) (model_calls : ℕ)
    (input_tokens output_tokens : ℤ) : AgentUpdate where
  report := some report
  error := some error
  model_calls := some model_calls
  input_tokens := some input_tokens
  output_tokens := some output_tokens

-- The error of a chain of candidates without an answer.
def no_answer (model_calls : ℕ) : AgentError :=
  if model_calls ≥ settings.max_model_calls_per_job then .ModelBudgetExceededError
  else .RuntimeError "All configured LLM providers failed"

def analyst_node (state : AgentState) : AgentProgram AgentUpdate := do
  let llms ← build_llm_candidates py settings
  let prompt ← lift (build_analyst_prompt py state)
  let messages := [.system ANALYST_SYSTEM_PROMPT, .user prompt]
  let (response, model_calls) ←
    ask_candidates settings false messages 0 llms state.model_calls
  match response with
  | none =>
      .ret (analyst_update none (analyst_error (no_answer settings model_calls)) model_calls
        state.input_tokens state.output_tokens)
  | some response =>
      let input_tokens := state.input_tokens + response.input_tokens
      let output_tokens := state.output_tokens + response.output_tokens
      (do
        let payload ← write_report py state.sources response.content
        .ret (analyst_update payload.model_dump none model_calls input_tokens output_tokens)
          : AgentProgram AgentUpdate).attempt fun error =>
        .ret (analyst_update none (analyst_error error) model_calls input_tokens output_tokens)

end Node

end ResearchAgent.Research
