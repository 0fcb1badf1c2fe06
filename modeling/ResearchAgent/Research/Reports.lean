import ResearchAgent.Research.Values

namespace ResearchAgent.Research

open JobQueue Service

-- A text whose length the schema bounds.
abbrev Text (min_length max_length : ℕ) :=
  { text : String // min_length ≤ text.length ∧ text.length ≤ max_length }

-- `^src_[a-f0-9]{12}$`
def is_source_id (text : String) : Bool :=
  text.toList.take 4 = ['s', 'r', 'c', '_'] && text.length = 16 &&
    (text.toList.drop 4).all fun char => between 'a' 'f' char || between '0' '9' char

structure Citation where
  source_id : String
  claim : Text 1 500
  source_id_valid : is_source_id source_id

inductive RiskRating where
  | LOW
  | MEDIUM
  | HIGH
  | VERY_HIGH
deriving DecidableEq, Repr

def RiskRating.literal : RiskRating → String
  | LOW => "LOW"
  | MEDIUM => "MEDIUM"
  | HIGH => "HIGH"
  | VERY_HIGH => "VERY_HIGH"

inductive RecommendedAction where
  | STRONG_BUY
  | BUY
  | HOLD
  | SELL
  | STRONG_SELL
deriving DecidableEq, Repr

def RecommendedAction.literal : RecommendedAction → String
  | STRONG_BUY => "STRONG_BUY"
  | BUY => "BUY"
  | HOLD => "HOLD"
  | SELL => "SELL"
  | STRONG_SELL => "STRONG_SELL"

structure ResearchReportPayload where
  executive_summary : Text 1 4000
  investment_thesis : Text 1 4000
  bull_case : Text 1 4000
  bear_case : Text 1 4000
  risk_rating : RiskRating
  recommended_action : RecommendedAction
  price_target_12m : Option ℚ
  confidence_score : { score : ℚ // 0 ≤ score ∧ score ≤ 1 }
  data_sources_used : { names : List String // names.length ≤ 20 }
  citations : { citations : List Citation // 1 ≤ citations.length ∧ citations.length ≤ 50 }
  generated_at : String

section Readers

-- Every reader names the field that it rejects.
def read_text (raw : JSONObject) (field : String) (min_length max_length : ℕ) :
    Except AgentError (Text min_length max_length) :=
  match raw.lookup field with
  | some (.str text) =>
      if h : min_length ≤ text.length ∧ text.length ≤ max_length then .ok ⟨text, h⟩
      else .error (.ValidationError field)
  | _ => .error (.ValidationError field)

def read_literal {α : Type} (raw : JSONObject) (field : String) (literals : List (String × α)) :
    Except AgentError α :=
  match raw.lookup field with
  | some (.str text) =>
      match literals.lookup text with
      | some value => .ok value
      | none => .error (.ValidationError field)
  | _ => .error (.ValidationError field)

def read_price_target (py : Python) (raw : JSONObject) : Except AgentError (Option ℚ) :=
  match raw.lookup "price_target_12m" with
  | none | some .null => .ok none
  | some value =>
      match py.validate_float value with
      | some number => .ok (some number)
      | none => .error (.ValidationError "price_target_12m")

def read_confidence (py : Python) (raw : JSONObject) :
    Except AgentError { score : ℚ // 0 ≤ score ∧ score ≤ 1 } :=
  match (raw.lookup "confidence_score").bind py.validate_float with
  | some score =>
      if h : 0 ≤ score ∧ score ≤ 1 then .ok ⟨score, h⟩
      else .error (.ValidationError "confidence_score")
  | none => .error (.ValidationError "confidence_score")

def read_names : List JSONValue → Except AgentError (List String)
  | [] => .ok []
  | .str name :: rest => return name :: (← read_names rest)
  | _ :: _ => .error (.ValidationError "data_sources_used")

def read_data_sources (raw : JSONObject) :
    Except AgentError { names : List String // names.length ≤ 20 } :=
  match raw.lookup "data_sources_used" with
  | some (.list items) => do
      let names ← read_names items
      if h : names.length ≤ 20 then .ok ⟨names, h⟩
      else .error (.ValidationError "data_sources_used")
  | _ => .error (.ValidationError "data_sources_used")

def forbid_extra (fields : List String) (raw : JSONObject) : Except AgentError Unit :=
  match raw.find? fun entry => entry.1 ∉ fields with
  | some entry => .error (.ValidationError entry.1)
  | none => .ok ()

def read_source_id (raw : JSONObject) :
    Except AgentError { text : String // is_source_id text } :=
  match raw.lookup "source_id" with
  | some (.str text) =>
      if h : is_source_id text then .ok ⟨text, h⟩ else .error (.ValidationError "source_id")
  | _ => .error (.ValidationError "source_id")

def Citation.model_validate : JSONValue → Except AgentError Citation
  | .dict raw => do
      let source_id ← read_source_id raw
      let claim ← read_text raw "claim" 1 500
      forbid_extra ["source_id", "claim"] raw
      return ⟨source_id, claim, source_id.property⟩
  | _ => .error (.ValidationError "citations")

def read_each_citation : List JSONValue → Except AgentError (List Citation)
  | [] => .ok []
  | item :: rest => do
      let citation ← Citation.model_validate item
      return citation :: (← read_each_citation rest)

def read_citations (raw : JSONObject) : Except AgentError
    { citations : List Citation // 1 ≤ citations.length ∧ citations.length ≤ 50 } :=
  match raw.lookup "citations" with
  | some (.list items) => do
      let citations ← read_each_citation items
      if h : 1 ≤ citations.length ∧ citations.length ≤ 50 then .ok ⟨citations, h⟩
      else .error (.ValidationError "citations")
  | _ => .error (.ValidationError "citations")

def read_generated_at (raw : JSONObject) : Except AgentError String :=
  match raw.lookup "generated_at" with
  | some (.str text) => .ok text
  | _ => .error (.ValidationError "generated_at")

end Readers

namespace ResearchReportPayload

def FIELDS : List String := [
  "executive_summary", "investment_thesis", "bull_case", "bear_case", "risk_rating",
  "recommended_action", "price_target_12m", "confidence_score", "data_sources_used", "citations",
  "generated_at"]

def risk_ratings : List (String × RiskRating) :=
  [RiskRating.LOW, .MEDIUM, .HIGH, .VERY_HIGH].map fun rating => (rating.literal, rating)

def recommended_actions : List (String × RecommendedAction) :=
  [RecommendedAction.STRONG_BUY, .BUY, .HOLD, .SELL, .STRONG_SELL].map
    fun action => (action.literal, action)

def model_validate (py : Python) (raw : JSONObject) : Except AgentError ResearchReportPayload := do
  let executive_summary ← read_text raw "executive_summary" 1 4000
  let investment_thesis ← read_text raw "investment_thesis" 1 4000
  let bull_case ← read_text raw "bull_case" 1 4000
  let bear_case ← read_text raw "bear_case" 1 4000
  let risk_rating ← read_literal raw "risk_rating" risk_ratings
  let recommended_action ← read_literal raw "recommended_action" recommended_actions
  let price_target_12m ← read_price_target py raw
  let confidence_score ← read_confidence py raw
  let data_sources_used ← read_data_sources raw
  let citations ← read_citations raw
  let generated_at ← read_generated_at raw
  forbid_extra FIELDS raw
  return {
    executive_summary, investment_thesis, bull_case, bear_case, risk_rating, recommended_action,
    price_target_12m, confidence_score, data_sources_used, citations, generated_at }

end ResearchReportPayload

def Citation.model_dump (citation : Citation) : JSONValue :=
  .dict [("source_id", .str citation.source_id), ("claim", .str citation.claim)]

def ResearchReportPayload.model_dump (payload : ResearchReportPayload) : JSONObject :=
  [("executive_summary", .str payload.executive_summary),
   ("investment_thesis", .str payload.investment_thesis),
   ("bull_case", .str payload.bull_case),
   ("bear_case", .str payload.bear_case),
   ("risk_rating", .str payload.risk_rating.literal),
   ("recommended_action", .str payload.recommended_action.literal),
   ("price_target_12m", optional_float payload.price_target_12m),
   ("confidence_score", .float payload.confidence_score),
   ("data_sources_used", .list (payload.data_sources_used.val.map .str)),
   ("citations", .list (payload.citations.val.map Citation.model_dump)),
   ("generated_at", .str payload.generated_at)]

section Rejection

-- Reading can fail in one way only: a field does not fit the schema.
def Rejects {α : Type} (result : Except AgentError α) : Prop :=
  ∀ error, result = .error error → ∃ field, error = .ValidationError field

variable {α β : Type}

theorem Rejects.ok (value : α) : Rejects (.ok value : Except AgentError α) :=
  fun _ h => by cases h

theorem Rejects.error (field : String) :
    Rejects (.error (.ValidationError field) : Except AgentError α) :=
  fun _ h => ⟨field, (Except.error.inj h).symm⟩

theorem Rejects.bind {result : Except AgentError α} {f : α → Except AgentError β}
    (h : Rejects result) (hf : ∀ value, Rejects (f value)) : Rejects (result >>= f) := by
  cases result with
  | ok value => exact hf value
  | error error =>
      obtain ⟨field, rfl⟩ := h error rfl
      exact .error field

variable (py : Python) (raw : JSONObject) (field : String)

theorem rejects_read_text (min_length max_length : ℕ) :
    Rejects (read_text raw field min_length max_length) := by
  unfold read_text
  split
  · split
    · exact .ok _
    · exact .error _
  · exact .error _

theorem rejects_read_literal (literals : List (String × α)) :
    Rejects (read_literal raw field literals) := by
  unfold read_literal
  split
  · split
    · exact .ok _
    · exact .error _
  · exact .error _

theorem rejects_read_price_target : Rejects (read_price_target py raw) := by
  unfold read_price_target
  split
  · exact .ok _
  · exact .ok _
  · split
    · exact .ok _
    · exact .error _

theorem rejects_read_confidence : Rejects (read_confidence py raw) := by
  unfold read_confidence
  split
  · split
    · exact .ok _
    · exact .error _
  · exact .error _

theorem rejects_read_names (items : List JSONValue) : Rejects (read_names items) := by
  induction items with
  | nil => exact .ok _
  | cons item rest ih =>
      cases item with
      | str name => exact ih.bind fun _ => .ok _
      | null | bool | int | float | nonfinite | list | dict => exact .error _

theorem rejects_read_data_sources : Rejects (read_data_sources raw) := by
  unfold read_data_sources
  split
  · refine (rejects_read_names _).bind fun names => ?_
    split
    · exact .ok _
    · exact .error _
  · exact .error _

theorem rejects_forbid_extra (fields : List String) : Rejects (forbid_extra fields raw) := by
  unfold forbid_extra
  split
  · exact .error _
  · exact .ok _

theorem rejects_citation (value : JSONValue) : Rejects (Citation.model_validate value) := by
  cases value with
  | dict raw =>
      refine Rejects.bind ?_ fun _ => (rejects_read_text raw _ _ _).bind fun _ =>
        (rejects_forbid_extra raw _).bind fun _ => .ok _
      unfold read_source_id
      split
      · split
        · exact .ok _
        · exact .error _
      · exact .error _
  | null | bool | int | float | nonfinite | str | list => exact .error _

theorem rejects_read_citations : Rejects (read_citations raw) := by
  have heach (items : List JSONValue) : Rejects (read_each_citation items) := by
    induction items with
    | nil => exact .ok _
    | cons item rest ih => exact (rejects_citation item).bind fun _ => ih.bind fun _ => .ok _
  unfold read_citations
  split
  · refine (heach _).bind fun citations => ?_
    split
    · exact .ok _
    · exact .error _
  · exact .error _

theorem rejects_read_generated_at : Rejects (read_generated_at raw) := by
  unfold read_generated_at
  split
  · exact .ok _
  · exact .error _

theorem rejects_model_validate : Rejects (ResearchReportPayload.model_validate py raw) :=
  (rejects_read_text raw _ _ _).bind fun _ => (rejects_read_text raw _ _ _).bind fun _ =>
    (rejects_read_text raw _ _ _).bind fun _ => (rejects_read_text raw _ _ _).bind fun _ =>
    (rejects_read_literal raw _ _).bind fun _ => (rejects_read_literal raw _ _).bind fun _ =>
    (rejects_read_price_target py raw).bind fun _ => (rejects_read_confidence py raw).bind fun _ =>
    (rejects_read_data_sources raw).bind fun _ => (rejects_read_citations raw).bind fun _ =>
    (rejects_read_generated_at raw).bind fun _ => (rejects_forbid_extra raw _).bind fun _ => .ok _

end Rejection

end ResearchAgent.Research
