import ResearchAgent.Library.Lowering
import ResearchAgent.Research.Executions

namespace ResearchAgent.Research

open Library JobQueue Service

structure HttpRequest where
  url : String
  params : JSONObject := []
  headers : List (String × String) := []

-- What the two methods of a response come to.
structure HttpResponse where
  raise_for_status : Except String Unit
  json : Except String JSONValue

-- What a run does to the world when the requests of its tools are part of it: `since` is the
-- date a week ago, and `duration` how long a tool has taken.
inductive LiveOp where
  | get (request : HttpRequest)
  | since
  | duration
  | agent (op : AgentOp)

namespace LiveOp

abbrev Reply : LiveOp → Type
  | get _ => Except String HttpResponse
  | since => String
  | duration => ℚ
  | agent op => op.Reply

end LiveOp

abbrev LiveTrace := List (Exchange LiveOp LiveOp.Reply)

abbrev FetchProgram (α : Type) := Program LiveOp LiveOp.Reply String α

abbrev LiveProgram (α : Type) := Program LiveOp LiveOp.Reply AgentError α

section Retry

-- Attempts at an operation, one after another until one returns or all have been made.
inductive Attempts {α : Type} (operation : FetchProgram α) :
    ℕ → LiveTrace → Except String α → Prop
  | returned {count : ℕ} {trace : LiveTrace} {value : α}
      (h : operation.Executes trace (.ok value)) :
      Attempts operation (count + 1) trace (.ok value)
  | reraised {trace : LiveTrace} {error : String} (h : operation.Executes trace (.error error)) :
      Attempts operation 1 trace (.error error)
  | again {count : ℕ} {first later : LiveTrace} {error : String} {result : Except String α}
      (h : operation.Executes first (.error error))
      (hrest : Attempts operation (count + 1) later result) :
      Attempts operation (count + 2) (first ++ later) result

-- `retry(stop=stop_after_attempt(n), reraise=True)`. The waits between the attempts are part
-- of the time that a tool takes.
structure Tenacity where
  retry {α : Type} (stop_after_attempt : ℕ) (operation : FetchProgram α) : FetchProgram α
  attempts {α : Type} (count : ℕ) (operation : FetchProgram α) :
    (retry (count + 1) operation).Ensures (Attempts operation (count + 1))

def Tenacity.retry_plainly {α : Type} (operation : FetchProgram α) : ℕ → FetchProgram α
  | 0 | 1 => operation
  | count + 2 => operation.attempt fun _ => retry_plainly operation (count + 1)

def Tenacity.plain : Tenacity where
  retry count operation := retry_plainly operation count
  attempts {_} count operation := by
    induction count with
    | zero =>
        intro trace result hexec
        cases result with
        | ok value => exact .returned hexec
        | error error => exact .reraised hexec
    | succ count ih =>
        refine Program.ensures_attempt fun first result hfirst => ?_
        cases result with
        | ok value => exact .returned hfirst
        | error error => exact fun later result hlater => .again hfirst (ih later result hlater)

end Retry

section Values

-- `value.get(key, default)`
def get_of (value : JSONValue) (key : String) (default : JSONValue) : Except String JSONValue :=
  match value with
  | .dict entries => .ok (get entries key default)
  | value => .error s!"'{type_name value}' object has no attribute 'get'"

-- What `for item in value` goes through.
def items_of : JSONValue → Except String (List JSONValue)
  | .list items => .ok items
  | .dict entries => .ok (entries.map fun entry => .str entry.1)
  | .str text => .ok (text.toList.map fun char => .str (String.ofList [char]))
  | value => .error s!"'{type_name value}' object is not iterable"

-- `value[position]`
def item_at (value : JSONValue) (position : ℕ) : Except String JSONValue :=
  match value with
  | .list items =>
      match items[position]? with
      | some item => .ok item
      | none => .error "list index out of range"
  | .str text =>
      match text.toList[position]? with
      | some char => .ok (.str (String.ofList [char]))
      | none => .error "string index out of range"
  | .dict _ => .error (toString position)
  | value => .error s!"'{type_name value}' object is not subscriptable"

-- `value[key]`
def entry_of (value : JSONValue) (key : String) : Except String JSONValue :=
  match value with
  | .dict entries =>
      match entries.lookup key with
      | some entry => .ok entry
      | none => .error s!"'{key}'"
  | .list _ => .error "list indices must be integers or slices, not str"
  | .str _ => .error "string indices must be integers, not 'str'"
  | value => .error s!"'{type_name value}' object is not subscriptable"

-- The keys that are no texts are left out: nobody asks for one.
def put_pair (entries : JSONObject) (pair : JSONValue) : Except String JSONObject := do
  match ← items_of pair with
  | [.str key, value] => return assign key value entries
  | [.list _, _] => .error "unhashable type: 'list'"
  | [.dict _, _] => .error "unhashable type: 'dict'"
  | [_, _] => return entries
  | items => .error s!"dictionary update sequence element has length {items.length}; 2 is required"

-- `dict(value)`
def to_dict : JSONValue → Except String JSONObject
  | .dict entries => .ok entries
  | value => do (← items_of value).foldlM put_pair []

-- `text.zfill(width)`
def zfill (width : ℕ) (text : String) : String :=
  let (sign, digits) := match text.toList with
    | '+' :: digits => (['+'], digits)
    | '-' :: digits => (['-'], digits)
    | digits => ([], digits)
  String.ofList (sign ++ List.replicate (width - text.length) '0' ++ digits)

end Values

section Fetches

namespace FetchProgram

def lift {α : Type} : Except String α → FetchProgram α
  | .ok value => .ret value
  | .error error => .raise error

-- One request in a client of its own. The two functions for EDGAR do not look at the status.
def fetch {α : Type} (request : HttpRequest) (checks_status : Bool)
    (read : JSONValue → Except String α) : FetchProgram α :=
  .call (.get request) fun reply => lift do
    let resp ← reply
    if checks_status then resp.raise_for_status
    let data ← resp.json
    read data

end FetchProgram

variable (py : Python) (settings : Settings) (tenacity : Tenacity)

def overview_request (ticker : String) : HttpRequest where
  url := "https://www.alphavantage.co/query"
  params := [("function", .str "OVERVIEW"), ("symbol", .str ticker),
    ("apikey", .str settings.alpha_vantage_api_key)]

def fetch_from_alpha_vantage (ticker : String) : FetchProgram JSONObject :=
  tenacity.retry 3 (FetchProgram.fetch (overview_request settings ticker) true to_dict)

def newsapi_request (ticker since : String) : HttpRequest where
  url := "https://newsapi.org/v2/everything"
  params := [("q", .str ticker), ("from", .str since), ("sortBy", .str "relevancy"),
    ("language", .str "en"), ("pageSize", .int 10), ("apiKey", .str settings.newsapi_api_key)]

def read_newsapi (data : JSONValue) : Except String (List JSONObject) := do
  let articles ← get_of data "articles" (.list [])
  (← items_of articles).mapM to_dict

def fetch_newsapi (ticker : String) : FetchProgram (List JSONObject) :=
  tenacity.retry 3 (.call .since fun since =>
    FetchProgram.fetch (newsapi_request settings ticker since) true read_newsapi)

def indicator_request (function : String) : HttpRequest where
  url := "https://www.alphavantage.co/query"
  params := [("function", .str function), ("apikey", .str settings.alpha_vantage_api_key)]

def read_indicator (data : JSONValue) : Except String (Option PyFloat) := do
  let entries ← get_of data "data" (.list [])
  if truthy entries then
    let value ← entry_of (← item_at entries 0) "value"
    return some (← (py.float value).mapError AgentError.text)
  return none

def fetch_indicator (function : String) : FetchProgram (Option PyFloat) :=
  tenacity.retry 3 (FetchProgram.fetch (indicator_request settings function) true
    (read_indicator py))

def EDGAR_HEADERS : List (String × String) :=
  [("User-Agent", "FinancialResearchAgent research@agentforge.io")]

def tickers_request : HttpRequest where
  url := "https://www.sec.gov/files/company_tickers.json"
  headers := EDGAR_HEADERS

-- The loop over `data.values()`.
def find_cik (ticker : String) : List JSONValue → Except String (Option String)
  | [] => .ok none
  | entry :: rest => do
      match ← get_of entry "ticker" (.str "") with
      | .str symbol =>
          if py.upper symbol = py.upper ticker then
            let cik_str ← entry_of entry "cik_str"
            return some (zfill 10 (py.str cik_str))
          find_cik ticker rest
      | value => .error s!"'{type_name value}' object has no attribute 'upper'"

def read_cik (ticker : String) : JSONValue → Except String (Option String)
  | .dict entries => find_cik py ticker (entries.map Prod.snd)
  | value => .error s!"'{type_name value}' object has no attribute 'values'"

def edgar_cik_lookup (ticker : String) : FetchProgram (Option String) :=
  tenacity.retry 2 (FetchProgram.fetch tickers_request false (read_cik py ticker))

def submissions_request (cik : String) : HttpRequest where
  url := s!"https://data.sec.gov/submissions/CIK{cik}.json"
  headers := EDGAR_HEADERS

-- The loop over `enumerate(forms)`.
def find_filing (dates : JSONValue) : ℕ → List JSONValue → Except String (Option FilingMeta)
  | _, [] => .ok none
  | position, form :: rest =>
      match form with
      | .str form =>
          if form ∈ ["10-K", "10-Q"] then do
            let filed_at ← item_at dates position
            return some ⟨form, filed_at⟩
          else find_filing dates (position + 1) rest
      | _ => find_filing dates (position + 1) rest

def read_submissions (data : JSONValue) : Except String (Option FilingMeta) := do
  let filings ← get_of data "filings" (.dict [])
  let recent ← get_of filings "recent" (.dict [])
  let forms ← get_of recent "form" (.list [])
  let dates ← get_of recent "filingDate" (.list [])
  find_filing dates 0 (← items_of forms)

def fetch_recent_filing_meta (cik : String) : FetchProgram (Option FilingMeta) :=
  tenacity.retry 2 (FetchProgram.fetch (submissions_request cik) false read_submissions)

end Fetches

section Tools

variable (py : Python) (settings : Settings) (tenacity : Tenacity)

def INDICATORS : List (String × (PyFloat → MacroIndicator)) :=
  [("CPI", cpi_indicator), ("FEDERAL_FUNDS_RATE", federal_funds_indicator),
   ("REAL_GDP", real_gdp_indicator)]

-- The calls of `_fetch_indicator`, of which the first that raises is the last.
def fetch_indicators : List String → Fetched → LiveProgram Fetched
  | [], fetched => .ret fetched
  | function :: rest, fetched => do
      let reply ← (fetch_indicator py settings tenacity function).outcome
      let fetched := { fetched with
        fetch_indicator := Function.update fetched.fetch_indicator function reply }
      match reply with
      | .ok _ => fetch_indicators rest fetched
      | .error _ => .ret fetched

-- The requests of a tool in their order, and what they come back with. A tool makes them
-- before it does anything with what it is answered.
def Tool.fetch (tool : Tool) (args : JSONObject) : LiveProgram Fetched :=
  match py.read_arguments tool args with
  | .error _ => .ret .nothing
  | .ok arguments =>
      let ticker := strip (py.upper arguments.ticker)
      match tool with
      | get_market_data =>
          if settings.alpha_vantage_api_key = "" then .ret .nothing
          else do
            let reply ← (fetch_from_alpha_vantage settings tenacity ticker).outcome
            .ret { Fetched.nothing with
              fetch_from_alpha_vantage :=
                Function.update Fetched.nothing.fetch_from_alpha_vantage ticker reply }
      | get_financial_news =>
          if settings.newsapi_api_key = "" then .ret .nothing
          else do
            let reply ← (fetch_newsapi settings tenacity ticker).outcome
            .ret { Fetched.nothing with
              fetch_newsapi := Function.update Fetched.nothing.fetch_newsapi ticker reply }
      | get_macro_indicators =>
          if settings.alpha_vantage_api_key = "" then .ret .nothing
          else fetch_indicators py settings tenacity (INDICATORS.map Prod.fst) .nothing
      | get_sec_filing_summary => do
          let cik ← (edgar_cik_lookup py tenacity ticker).outcome
          let fetched := { Fetched.nothing with
            edgar_cik_lookup := Function.update Fetched.nothing.edgar_cik_lookup ticker cik }
          match cik with
          | .error _ | .ok none | .ok (some "") => .ret fetched
          | .ok (some cik) => do
              let reply ← (fetch_recent_filing_meta tenacity cik).outcome
              .ret { fetched with
                fetch_recent_filing_meta :=
                  Function.update fetched.fetch_recent_filing_meta cik reply }

-- A tool in the executor makes its requests, also when it takes longer than anybody waits.
def AgentOp.live : (op : AgentOp) → LiveProgram op.Reply
  | .submit tool args => do
      let fetched ← tool.fetch py settings tenacity args
      .call .duration fun duration => .ret ⟨duration, fetched⟩
  | op => .call (.agent op) .ret

def live_research_node (state : AgentState) : LiveProgram AgentUpdate :=
  (research_node py settings state).lowered (AgentOp.live py settings tenacity)

end Tools

end ResearchAgent.Research
