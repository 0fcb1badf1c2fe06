import ResearchAgent.Research.Values

namespace ResearchAgent.Research

open JobQueue Service

structure FilingMeta where
  form_type : String
  filed_at : JSONValue

-- What the fetch functions of the tools come back with after their own retries,
-- during one call of a tool: their value, or the text of what they raise.
structure Fetched where
  fetch_from_alpha_vantage : String → Except String JSONObject
  fetch_newsapi : String → Except String (List JSONObject)
  fetch_indicator : String → Except String (Option PyFloat)
  edgar_cik_lookup : String → Except String (Option String)
  fetch_recent_filing_meta : String → Except String (Option FilingMeta)

section Market

structure TickerAnalysis where
  ticker : String
  company_name : JSONValue
  sector : JSONValue
  price : PyFloat
  market_cap_billions : PyFloat
  pe_ratio : Option PyFloat
  revenue_growth_yoy : Option PyFloat
  free_cash_flow_margin : Option PyFloat
  analyst_consensus : String
  target_price : Option PyFloat
  key_risks : List String
  key_catalysts : List String

def optional_figure : Option PyFloat → JSONValue
  | none => .null
  | some figure => figure.json

def TickerAnalysis.entries (analysis : TickerAnalysis) : JSONObject :=
  [("ticker", .str analysis.ticker), ("company_name", analysis.company_name),
   ("sector", analysis.sector), ("price", analysis.price.json),
   ("market_cap_billions", analysis.market_cap_billions.json),
   ("pe_ratio", optional_figure analysis.pe_ratio),
   ("revenue_growth_yoy", optional_figure analysis.revenue_growth_yoy),
   ("free_cash_flow_margin", optional_figure analysis.free_cash_flow_margin),
   ("analyst_consensus", .str analysis.analyst_consensus),
   ("target_price", optional_figure analysis.target_price),
   ("key_risks", .list (analysis.key_risks.map .str)),
   ("key_catalysts", .list (analysis.key_catalysts.map .str))]

def MOCK_DATA : List (String × TickerAnalysis) := [
  ("NVDA", {
    ticker := "NVDA"
    company_name := .str "NVIDIA Corporation"
    sector := .str "Semiconductors"
    price := .finite 875.40
    market_cap_billions := .finite 2150
    pe_ratio := some (.finite 68.2)
    revenue_growth_yoy := some (.finite 0.94)
    free_cash_flow_margin := some (.finite 0.42)
    analyst_consensus := "BUY"
    target_price := some (.finite 1050)
    key_risks := ["AI capex slowdown", "Export controls", "Competition from AMD/Intel"]
    key_catalysts := ["Blackwell ramp", "Data centre demand", "Sovereign AI budgets"] }),
  ("AAPL", {
    ticker := "AAPL"
    company_name := .str "Apple Inc."
    sector := .str "Technology"
    price := .finite 189.30
    market_cap_billions := .finite 2940
    pe_ratio := some (.finite 29.4)
    revenue_growth_yoy := some (.finite 0.02)
    free_cash_flow_margin := some (.finite 0.28)
    analyst_consensus := "HOLD"
    target_price := some (.finite 200)
    key_risks := ["China revenue exposure", "iPhone cycle maturity", "Regulatory pressure"]
    key_catalysts := ["AI features in iOS 18", "Services growth", "India expansion"] })]

def build_placeholder (ticker : String) : TickerAnalysis where
  ticker := ticker
  company_name := .str ticker
  sector := .str "Unknown"
  price := .finite 0
  market_cap_billions := .finite 0
  pe_ratio := none
  revenue_growth_yoy := none
  free_cash_flow_margin := none
  analyst_consensus := "N/A"
  target_price := none
  key_risks := ["Data unavailable"]
  key_catalysts := []

def mock_analysis (ticker : String) : JSONValue :=
  .dict ((MOCK_DATA.lookup ticker).getD (build_placeholder ticker)).entries

variable (py : Python) (settings : Settings) (fetched : Fetched)

-- An `OverflowError` is not caught here.
def safe_float (value : JSONValue) : Except AgentError (Option PyFloat) :=
  match value with
  | .str _ | .int _ | .float _ | .nonfinite _ | .bool _ =>
      match py.float value with
      | .ok number => .ok (if number = .finite 0 then none else some number)
      | .error (.OverflowError message) => .error (.OverflowError message)
      | .error _ => .ok none
  | _ => .ok none

-- The analysis of an OVERVIEW answer.
def read_overview (ticker : String) (raw : JSONObject) : Except AgentError TickerAnalysis := do
  let price ← py.float (get raw "50DayMovingAverage" (.int 0))
  let market_cap ← py.float (get raw "MarketCapitalization" (.int 0))
  let pe_ratio ← safe_float py (get raw "PERatio")
  let revenue_growth_yoy ← safe_float py (get raw "QuarterlyRevenueGrowthYOY")
  let target_price ← safe_float py (get raw "AnalystTargetPrice")
  return {
    ticker := ticker
    company_name := get raw "Name" (.str ticker)
    sector := get raw "Sector" (.str "Unknown")
    price := price
    market_cap_billions := market_cap.map fun number => py.round 2 (number / 1000000000)
    pe_ratio := pe_ratio
    revenue_growth_yoy := revenue_growth_yoy
    free_cash_flow_margin := none
    analyst_consensus := "N/A"
    target_price := target_price
    key_risks := []
    key_catalysts := [] }

-- The `try` block of `get_market_data`.
def request_market_data (ticker : String) : Except AgentError JSONValue := do
  let raw ← (fetched.fetch_from_alpha_vantage ticker).mapError AgentError.Exception
  if has_key raw "Note" then
    if settings.allow_mock_data then return mock_analysis ticker
    return error_result "Alpha Vantage rate limit reached"
  let analysis ← read_overview py ticker raw
  return .dict analysis.entries

def get_market_data (ticker : String) : JSONValue :=
  let ticker := strip (py.upper ticker)
  if settings.alpha_vantage_api_key = "" then
    if settings.allow_mock_data then mock_analysis ticker
    else error_result "Alpha Vantage is not configured"
  else
    match request_market_data py settings fetched ticker with
    | .ok result => result
    | .error _ =>
        if settings.allow_mock_data then mock_analysis ticker
        else error_result "Market data provider request failed"

end Market

section News

structure NewsItem where
  headline : JSONValue
  source : JSONValue
  published_at : JSONValue
  sentiment : String
  relevance_score : ℚ
  summary : JSONValue
  url : Option JSONValue := none

def NewsItem.entries (item : NewsItem) : JSONObject :=
  [("headline", item.headline), ("source", item.source), ("published_at", item.published_at),
   ("sentiment", .str item.sentiment), ("relevance_score", .float item.relevance_score),
   ("summary", item.summary)] ++ (item.url.map fun url => ("url", url)).toList

def MOCK_NEWS : List NewsItem := [
  { headline := .str "NVIDIA beats Q3 earnings; data centre revenue up 206% YoY"
    source := .str "Reuters"
    published_at := .str "2024-11-21T20:35:00Z"
    sentiment := "positive"
    relevance_score := 0.97
    summary := .str
      "NVIDIA posted record quarterly revenue driven by Hopper GPU demand from hyperscalers." },
  { headline := .str "US export controls tightened on AI chips shipped to China"
    source := .str "FT"
    published_at := .str "2024-11-18T14:12:00Z"
    sentiment := "negative"
    relevance_score := 0.89
    summary := .str
      "Commerce Department expanded restrictions, potentially impacting NVIDIA's China business." },
  { headline := .str "Blackwell GPU production ramp on track for Q1 2025"
    source := .str "Bloomberg"
    published_at := .str "2024-11-15T09:00:00Z"
    sentiment := "positive"
    relevance_score := 0.92
    summary := .str
      "Supply chain checks confirm Blackwell shipments beginning Q1, easing demand concerns." }]

def mock_news (max_articles : ℤ) : JSONValue :=
  .list ((slice_to max_articles MOCK_NEWS).map fun item => .dict item.entries)

def POSITIVE_SIGNALS : List String :=
  ["beat", "record", "surge", "growth", "raised", "upgrade", "rally"]

def NEGATIVE_SIGNALS : List String :=
  ["miss", "fall", "restrict", "cut", "downgrade", "loss", "risk", "ban"]

variable (py : Python) (settings : Settings) (fetched : Fetched)

def classify_sentiment (headline : JSONValue) : Except String String :=
  match headline with
  | .str headline =>
      let text := py.lower headline
      let pos := POSITIVE_SIGNALS.countP fun word => contains_text word text
      let neg := NEGATIVE_SIGNALS.countP fun word => contains_text word text
      .ok (if pos > neg then "positive" else if neg > pos then "negative" else "neutral")
  | value => .error s!"'{type_name value}' object has no attribute 'lower'"

def estimate_relevance (ticker : String) (position total : ℕ) (headline summary : JSONValue) : ℚ :=
  let rank_score : ℚ := if total ≤ 1 then 1 else 1 - position / (total - 1) * (1 / 2)
  let text := py.lower s!"{py.str headline} {py.str summary}"
  let keyword_score : ℚ := if contains_text (py.lower ticker) text then 15 / 100 else 0
  py.round 2 (min 1 (rank_score + keyword_score))

def source_name (article : JSONObject) : Except String JSONValue :=
  match get article "source" (.dict []) with
  | .dict source => .ok (get source "name" (.str "Unknown"))
  | value => .error s!"'{type_name value}' object has no attribute 'get'"

def read_article (ticker : String) (total position : ℕ) (article : JSONObject) :
    Except String NewsItem := do
  let headline := get article "title" (.str "")
  let summary := either (either (get article "description") (get article "content")) (.str "")
  let source ← source_name article
  let sentiment ← classify_sentiment py headline
  return {
    headline := headline
    source := source
    published_at := get article "publishedAt" (.str "")
    sentiment := sentiment
    relevance_score := estimate_relevance py ticker position total headline summary
    summary := summary
    url := some (get article "url" (.str "")) }

-- The loop over the selected articles, of which there are `total`.
def read_articles (ticker : String) (total : ℕ) :
    ℕ → List JSONObject → Except String (List NewsItem)
  | _, [] => .ok []
  | position, article :: rest => do
      let item ← read_article py ticker total position article
      return item :: (← read_articles ticker total (position + 1) rest)

def request_financial_news (ticker : String) (max_articles : ℤ) : Except String JSONValue := do
  let articles ← fetched.fetch_newsapi ticker
  let selected := slice_to max_articles articles
  let results ← read_articles py ticker selected.length 0 selected
  return .list (results.map fun item => .dict item.entries)

def get_financial_news (ticker : String) (max_articles : ℤ := 8) : JSONValue :=
  let ticker := strip (py.upper ticker)
  if settings.newsapi_api_key = "" then
    if settings.allow_mock_data && ticker = "NVDA" then mock_news max_articles else .list []
  else
    match request_financial_news py fetched ticker max_articles with
    | .ok result => result
    | .error _ =>
        if settings.allow_mock_data && ticker = "NVDA" then mock_news max_articles else .list []

end News

section Macro

structure MacroIndicator where
  name : String
  value : PyFloat
  unit : String
  trend : String
  impact_on_equities : String

def MacroIndicator.entries (indicator : MacroIndicator) : JSONObject :=
  [("name", .str indicator.name), ("value", indicator.value.json),
   ("unit", .str indicator.unit), ("trend", .str indicator.trend),
   ("impact_on_equities", .str indicator.impact_on_equities)]

def MOCK_MACRO : List MacroIndicator := [
  { name := "US CPI YoY", value := .finite 3.2, unit := "%", trend := "falling"
    impact_on_equities := "Disinflation supports rate cuts → positive for growth stocks" },
  { name := "Fed Funds Rate", value := .finite 5.25, unit := "%", trend := "flat"
    impact_on_equities := "Elevated rates compress valuation multiples for high-PE names" },
  { name := "US GDP Growth QoQ", value := .finite 2.8, unit := "%", trend := "rising"
    impact_on_equities := "Strong growth supports corporate earnings — broadly positive" },
  { name := "10Y Treasury Yield", value := .finite 4.45, unit := "%", trend := "rising"
    impact_on_equities :=
      "Rising yields increase discount rate → headwind for long-duration equities" },
  { name := "USD Index (DXY)", value := .finite 104.2, unit := "index", trend := "flat"
    impact_on_equities := "Strong USD headwind for multinationals with overseas revenue" }]

variable (settings : Settings) (fetched : Fetched)

def cpi_indicator (cpi : PyFloat) : MacroIndicator where
  name := "US CPI YoY"
  value := cpi
  unit := "%"
  trend := if cpi.below (35 / 10) then "falling" else "rising"
  impact_on_equities :=
    if cpi.below (35 / 10) then "Disinflation supports rate cuts → positive for growth stocks"
    else "Persistent inflation delays cuts → valuation headwind"

def federal_funds_indicator (federal_funds : PyFloat) : MacroIndicator where
  name := "Fed Funds Rate"
  value := federal_funds
  unit := "%"
  trend := "flat"
  impact_on_equities := "Elevated rates compress valuation multiples for high-PE names"

def real_gdp_indicator (real_gdp : PyFloat) : MacroIndicator where
  name := "US Real GDP Growth"
  value := real_gdp
  unit := "%"
  trend := if real_gdp.above 2 then "rising" else "falling"
  impact_on_equities :=
    if real_gdp.above 2 then "Strong growth supports corporate earnings — broadly positive"
    else "Slowdown may indicate earnings risk ahead"

def macro_list (indicators : List MacroIndicator) : JSONValue :=
  .list (indicators.map fun indicator => .dict indicator.entries)

def request_macro_indicators : Except String JSONValue := do
  let cpi ← fetched.fetch_indicator "CPI"
  let federal_funds ← fetched.fetch_indicator "FEDERAL_FUNDS_RATE"
  let real_gdp ← fetched.fetch_indicator "REAL_GDP"
  let indicators := (cpi.map cpi_indicator).toList ++
    (federal_funds.map federal_funds_indicator).toList ++ (real_gdp.map real_gdp_indicator).toList
  if settings.allow_mock_data then
    return macro_list (indicators ++
      MOCK_MACRO.filter fun item => item.name ∉ indicators.map (·.name))
  return macro_list indicators

def get_macro_indicators : JSONValue :=
  if settings.alpha_vantage_api_key = "" then
    if settings.allow_mock_data then macro_list MOCK_MACRO else .list []
  else
    match request_macro_indicators settings fetched with
    | .ok result => result
    | .error _ => if settings.allow_mock_data then macro_list MOCK_MACRO else .list []

end Macro

section Filings

def MOCK_FILINGS : List (String × JSONObject) := [
  ("NVDA", [
    ("form_type", .str "10-K"),
    ("filed_at", .str "2024-02-23"),
    ("period", .str "FY2024"),
    ("mda_excerpt", .str (
      "Data Center revenue grew 217% year-over-year to $47.5 billion, driven by accelerating " ++
      "demand for Hopper GPU computing. Gaming revenue recovered 15% as channel inventory " ++
      "normalised. Management guides for continued strong Data Center growth in FY2025, " ++
      "underpinned by AI training and inference workloads at hyperscale customers. Key risk: " ++
      "US export restrictions on A100/H100 to China may reduce addressable market by up to " ++
      "$5 billion annually."))])]

variable (py : Python) (settings : Settings) (fetched : Fetched)

def filing_summary (cik : String) (filing : FilingMeta) : JSONObject :=
  let filing_url := "https://www.sec.gov/cgi-bin/browse-edgar" ++
    s!"?action=getcompany&CIK={cik}&type={filing.form_type}"
  [("form_type", .str filing.form_type), ("filed_at", filing.filed_at),
   ("period", .str "See EDGAR for full filing"),
   ("mda_excerpt", .str s!"MDA full text available at {filing_url}"),
   ("filing_url", .str filing_url)]

def request_filing_summary (ticker : String) : Except String JSONValue := do
  match ← fetched.edgar_cik_lookup ticker with
  | none | some "" => return error_result s!"CIK not found for ticker {ticker}"
  | some cik =>
      match ← fetched.fetch_recent_filing_meta cik with
      | none => return error_result s!"No 10-K/10-Q found for {ticker}"
      | some filing => return .dict (filing_summary cik filing)

def get_sec_filing_summary (ticker : String) : JSONValue :=
  let ticker := strip (py.upper ticker)
  match request_filing_summary fetched ticker with
  | .ok result => result
  | .error _ =>
      match settings.allow_mock_data, MOCK_FILINGS.lookup ticker with
      | true, some filing => .dict filing
      | _, _ => error_result "SEC filing provider request failed"

end Filings

-- `tool_fn.invoke(tool_args)`: the arguments are checked before the tool runs.
def Tool.invoke (py : Python) (settings : Settings) (tool : Tool) (args : JSONObject)
    (fetched : Fetched) : Except AgentError JSONValue :=
  match py.read_arguments tool args with
  | .error message => .error (.Exception message)
  | .ok arguments =>
      .ok <| match tool with
        | get_market_data => Research.get_market_data py settings fetched arguments.ticker
        | get_financial_news =>
            Research.get_financial_news py settings fetched arguments.ticker
              (arguments.max_articles.getD 8)
        | get_macro_indicators => Research.get_macro_indicators settings fetched
        | get_sec_filing_summary =>
            Research.get_sec_filing_summary py settings fetched arguments.ticker

end ResearchAgent.Research
