import Mathlib.Data.List.Infix
import ResearchAgent.Library.Dict
import ResearchAgent.Service.Dumps

namespace ResearchAgent.Research

open JobQueue Service

-- The exceptions of the agents, with the text that `str` gives. Where no text is
-- kept, nothing reads it.
inductive AgentError where
  | CircuitOpenError (message : String)
  | UnsafeContentError (message : String)
  | TimeoutError (message : String)
  | RuntimeError (message : String)
  | ValueError (message : String)
  | TypeError (message : String)
  | OverflowError (message : String)
  | KeyError (key : String)
  | JSONDecodeError
  | ModelBudgetExceededError
  | ValidationError (field : String)
  | Exception (message : String)
deriving DecidableEq, Repr

def AgentError.text : AgentError → String
  | CircuitOpenError message | UnsafeContentError message | TimeoutError message
  | RuntimeError message | ValueError message | TypeError message | OverflowError message
  | Exception message => message
  | KeyError key => s!"'{key}'"
  | JSONDecodeError | ModelBudgetExceededError => ""
  | ValidationError field => field

inductive Tool where
  | get_market_data
  | get_financial_news
  | get_macro_indicators
  | get_sec_filing_summary
deriving DecidableEq, Repr

def Tool.name : Tool → String
  | get_market_data => "get_market_data"
  | get_financial_news => "get_financial_news"
  | get_macro_indicators => "get_macro_indicators"
  | get_sec_filing_summary => "get_sec_filing_summary"

def RESEARCH_TOOLS : List Tool :=
  [.get_market_data, .get_financial_news, .get_macro_indicators, .get_sec_filing_summary]

-- `TOOL_MAP.get`
def find_tool (tool_name : String) : Option Tool :=
  RESEARCH_TOOLS.find? fun tool => tool.name = tool_name

theorem name_of_find_tool {tool_name : String} {tool : Tool} (h : find_tool tool_name = some tool) :
    tool.name = tool_name := by
  simpa using List.find?_some h

-- What a tool takes from the arguments of a call.
structure Arguments where
  ticker : String := ""
  max_articles : Option ℤ := none

-- What `json.loads` comes to. The two failures besides a malformed text are its
-- limit on digits and the depth of the interpreter's stack.
inductive Loaded where
  | value (value : JSONValue)
  | JSONDecodeError
  | int_limit (digits : ℕ)
  | RecursionError

-- A float of the language; the finite ones are exact.
inductive PyFloat where
  | finite (value : ℚ)
  | nonfinite (value : NonFinite)
deriving DecidableEq, Repr

namespace PyFloat

def json : PyFloat → JSONValue
  | finite value => .float value
  | nonfinite value => .nonfinite value

-- A computation that leaves NaN and the infinities as they are.
def map (f : ℚ → ℚ) : PyFloat → PyFloat
  | finite value => finite (f value)
  | nonfinite value => nonfinite value

-- `number < bound`
def below (bound : ℚ) : PyFloat → Bool
  | finite value => value < bound
  | nonfinite value => value = .neg_infinity

-- `number > bound`
def above (bound : ℚ) : PyFloat → Bool
  | finite value => bound < value
  | nonfinite value => value = .infinity

end PyFloat

-- From here on an `int` is too large for a float.
def FLOAT_LIMIT : ℕ := 2 ^ 1024 - 2 ^ 970

-- What the language and its libraries compute: `search` is `re.search` without
-- regard to case, `parse_float` is `float` on a text, `word` is `\w`, `repr` is
-- what `str` is too on all but texts, and `format_fixed n` is the format `.nf`.
-- `read_arguments` checks the arguments of a tool call against the signature of the tool, and
-- `validate_float` is how a model reads a field of type `float`.
structure Python where
  upper : String → String
  lower : String → String
  word : Char → Bool
  repr : JSONValue → String
  float_repr : ℚ → String
  parse_float : String → Option PyFloat
  round : ℕ → ℚ → ℚ
  format_fixed : ℕ → ℚ → String
  sha256 : String → String
  search : String → String → Bool
  loads : String → Loaded
  validate_float : JSONValue → Option ℚ
  read_arguments : Tool → JSONObject → Except String Arguments

inductive Provider where
  | azure_openai
  | github_models
  | openai
deriving DecidableEq, Repr

def Provider.literal : Provider → String
  | azure_openai => "azure_openai"
  | github_models => "github_models"
  | openai => "openai"

def Provider.all : List Provider := [.azure_openai, .github_models, .openai]

inductive InjectionPolicy where
  | block
  | redact
deriving DecidableEq, Repr

structure Settings where
  llm_provider : Provider := .azure_openai
  llm_fallback_providers : String := ""
  alpha_vantage_api_key : String := ""
  newsapi_api_key : String := ""
  react_max_iterations : ℕ := 15
  max_model_calls_per_job : ℕ := 20
  max_tool_calls_per_job : ℕ := 30
  max_external_content_chars : ℕ := 12000
  prompt_injection_policy : InjectionPolicy := .block
  allow_mock_data : Bool := true
  circuit_breaker_failure_threshold : ℕ := 3
  circuit_breaker_recovery_seconds : ℕ := 60
  react_max_iterations_valid : 1 ≤ react_max_iterations ∧ react_max_iterations ≤ 50 := by decide
  max_model_calls_valid : 1 ≤ max_model_calls_per_job ∧ max_model_calls_per_job ≤ 100 := by decide
  max_tool_calls_valid : 1 ≤ max_tool_calls_per_job ∧ max_tool_calls_per_job ≤ 200 := by decide
  max_external_content_chars_valid :
    1000 ≤ max_external_content_chars ∧ max_external_content_chars ≤ 100000 := by decide
  failure_threshold_valid :
    1 ≤ circuit_breaker_failure_threshold ∧ circuit_breaker_failure_threshold ≤ 20 := by decide
  recovery_seconds_valid :
    5 ≤ circuit_breaker_recovery_seconds ∧ circuit_breaker_recovery_seconds ≤ 3600 := by decide

def split (separator : Char) (text : String) : List String :=
  (text.toList.splitOn separator).map String.ofList

def Settings.fallback_providers (py : Python) (settings : Settings) :
    Except AgentError (List Provider) :=
  let providers := ((split ',' settings.llm_fallback_providers).map strip).filter (· ≠ "")
  let invalid := providers.filter fun provider => provider ∉ Provider.all.map Provider.literal
  if invalid = [] then
    let parsed := providers.filterMap fun text => Provider.all.find? (·.literal = text)
    .ok (parsed.filter (· ≠ settings.llm_provider))
  else
    let listed := (invalid.eraseDups.insertionSort (· ≤ ·)).map JSONValue.str
    .error (.ValueError s!"Unsupported LLM fallback provider(s): {py.repr (.list listed)}")

-- `bool(value)`
def truthy : JSONValue → Bool
  | .null => false
  | .bool value => value
  | .int value => value ≠ 0
  | .float value => value ≠ 0
  | .nonfinite _ => true
  | .str value => value ≠ ""
  | .list items => !items.isEmpty
  | .dict entries => !entries.isEmpty

-- `str(value)`
def Python.str (py : Python) : JSONValue → String
  | .str value => value
  | value => py.repr value

-- `type(value).__name__`
def type_name : JSONValue → String
  | .null => "NoneType"
  | .bool _ => "bool"
  | .int _ => "int"
  | .float _ | .nonfinite _ => "float"
  | .str _ => "str"
  | .list _ => "list"
  | .dict _ => "dict"

-- `entries.get(key, default)`
def get (entries : JSONObject) (key : String) (default : JSONValue := .null) : JSONValue :=
  (entries.lookup key).getD default

def has_key (entries : JSONObject) (key : String) : Bool := (entries.lookup key).isSome

-- `a or b`
def either (value other : JSONValue) : JSONValue := if truthy value then value else other

def optional_float : Option ℚ → JSONValue
  | none => .null
  | some value => .float value

-- `float(value)`
def Python.float (py : Python) : JSONValue → Except AgentError PyFloat
  | .bool value => .ok (.finite (if value then 1 else 0))
  | .int value =>
      if value.natAbs < FLOAT_LIMIT then .ok (.finite value)
      else .error (.OverflowError "int too large to convert to float")
  | .float value => .ok (.finite value)
  | .nonfinite value => .ok (.nonfinite value)
  | .str text =>
      match py.parse_float text with
      | some value => .ok value
      | none => .error (.ValueError
          s!"could not convert string to float: {py.repr (.str text)}")
  | value => .error (.TypeError
      s!"float() argument must be a string or a real number, not '{type_name value}'")

theorem Python.float_int (py : Python) {value : ℤ} (h : value.natAbs < FLOAT_LIMIT) :
    py.float (.int value) = .ok (.finite value) := by
  rw [Python.float, if_pos h]

theorem Python.float_int_large (py : Python) {value : ℤ} (h : FLOAT_LIMIT ≤ value.natAbs) :
    py.float (.int value) = .error (.OverflowError "int too large to convert to float") := by
  rw [Python.float, if_neg (not_lt.mpr h)]

theorem Python.float_zero (py : Python) : py.float (.int 0) = .ok (.finite 0) :=
  py.float_int (by decide +kernel)

-- `text[:count]`
def take_chars (count : ℕ) (text : String) : String := String.ofList (text.toList.take count)

-- `items[:stop]`, where a negative bound counts from the end.
def slice_to {α : Type} (stop : ℤ) (items : List α) : List α :=
  items.take (if stop < 0 then items.length + stop else stop).toNat

-- Whether `part in text` holds of two texts.
def contains_text (part text : String) : Bool := part.toList <:+: text.toList

def Python.dumps (py : Python) (value : JSONValue) : String :=
  Service.dumps {} py.float_repr value

def Python.sorted_dumps (py : Python) (value : JSONValue) : String :=
  Service.dumps { sort_keys := true } py.float_repr value

def error_result (message : String) : JSONValue := .dict [("error", .str message)]

end ResearchAgent.Research
