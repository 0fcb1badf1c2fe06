import ResearchAgent.Research.Values

namespace ResearchAgent.Research

open Library JobQueue

def INJECTION_PATTERNS : List String := [
  "\\b(ignore|disregard|override)\\b.\x7b0,40\x7d\\b(instruction|prompt|system)\\b",
  "\\b(system|developer)\\s+(message|prompt)\\b",
  "\\b(reveal|print|return)\\b.\x7b0,40\x7d\\b(secret|api key|credential|token)\\b",
  "<\\s*/?\\s*(system|assistant|developer)\\s*>",
  "\\bdo not follow\\b.\x7b0,40\x7d\\b(previous|above)\\b"]

section Sanitizing

variable (py : Python) (max_chars : ℕ) (policy : InjectionPolicy)

def contains_prompt_injection (text : String) : Bool :=
  INJECTION_PATTERNS.any fun pattern => py.search pattern text

def REDACTED : String := "[CONTENT REDACTED: possible prompt injection]"

def sanitize_untrusted_text (text : String) : Except AgentError String :=
  let normalized := String.ofList
    (text.toList.filter fun char => char ∈ ['\n', '\t'] || char.toNat ≥ 32)
  let normalized := take_chars max_chars normalized
  if contains_prompt_injection py normalized then
    match policy with
    | .block => .error
        (.UnsafeContentError "Untrusted content matched the prompt-injection policy")
    | .redact => .ok REDACTED
  else .ok normalized

-- The ceiling on what a list or a dictionary may take in JSON.
def bound_serialized (sanitized : JSONValue) : Except AgentError JSONValue :=
  if (py.dumps sanitized).length > max_chars then
    .error (.UnsafeContentError
      "Untrusted tool output exceeded the configured content limit")
  else .ok sanitized

-- A dictionary display: of two equal keys the later value stays, in the earlier place.
def collect (entries : JSONObject) : JSONObject :=
  entries.foldl (fun collected entry => assign entry.1 entry.2 collected) []

mutual

-- Left out are a stack that runs out in values too deep, `json.dumps` refusing an int for its
-- digits, and lone surrogates.
def sanitize_tool_result : JSONValue → Except AgentError JSONValue
  | .str text => .str <$> sanitize_untrusted_text py max_chars policy text
  | .list items => do
      let sanitized ← sanitize_items 100 items
      bound_serialized py max_chars (.list sanitized)
  | .dict entries => do
      let sanitized ← sanitize_entries 100 entries
      bound_serialized py max_chars (.dict (collect sanitized))
  | value => .ok value

def sanitize_items : ℕ → List JSONValue → Except AgentError (List JSONValue)
  | 0, _ | _, [] => .ok []
  | count + 1, item :: rest => do
      let sanitized ← sanitize_tool_result item
      return sanitized :: (← sanitize_items count rest)

def sanitize_entries : ℕ → List (String × JSONValue) → Except AgentError JSONObject
  | 0, _ | _, [] => .ok []
  | count + 1, (key, item) :: rest => do
      let sanitized ← sanitize_tool_result item
      return (take_chars 100 key, sanitized) :: (← sanitize_entries count rest)

end

end Sanitizing

end ResearchAgent.Research
