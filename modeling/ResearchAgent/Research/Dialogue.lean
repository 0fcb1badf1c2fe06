import Mathlib.Data.List.TakeWhile
import ResearchAgent.Research.Budgets

namespace ResearchAgent.Research

open Library JobQueue Service

def Message.is_assistant : Message → Bool
  | assistant _ _ => true
  | _ => false

def Message.tool_calls : Message → List ToolCall
  | assistant _ tool_calls => tool_calls
  | _ => []

-- Which calls the tool messages of a list answer.
def answered_ids (messages : List Message) : List (Option String) :=
  messages.filterMap fun message => match message with
    | .tool tool_call_id _ => some tool_call_id
    | _ => none

-- What follows an assistant message, up to the next one.
def segment (messages : List Message) : List Message :=
  messages.takeWhile fun message => !message.is_assistant

-- Every assistant message with tool calls is followed, before the next assistant message
-- and before the end, by one tool message for each of them, in their order.
def WellFormed : List Message → Prop
  | [] => True
  | .assistant _ tool_calls :: rest =>
      (tool_calls ≠ [] → answered_ids (segment rest) = tool_calls.map (·.id)) ∧ WellFormed rest
  | _ :: rest => WellFormed rest

instance decidableWellFormed : (messages : List Message) → Decidable (WellFormed messages)
  | [] => .isTrue trivial
  | .assistant _ tool_calls :: rest =>
      have := decidableWellFormed rest
      have : Decidable (tool_calls = []) := decidable_of_iff _ List.isEmpty_iff
      inferInstanceAs (Decidable (_ ∧ _))
  | .system _ :: rest => decidableWellFormed rest
  | .user _ :: rest => decidableWellFormed rest
  | .tool _ _ :: rest => decidableWellFormed rest

def calls_of (messages : List Message) : List ToolCall := messages.flatMap (·.tool_calls)

section Lists

variable {messages answers : List Message} {content : Content} {tool_calls : List ToolCall}

theorem segment_append_assistant (messages answers : List Message) :
    segment (messages ++ .assistant content tool_calls :: answers) = segment messages := by
  induction messages with
  | nil => rfl
  | cons message rest ih =>
      unfold segment at ih ⊢
      rw [List.cons_append, List.takeWhile_cons, List.takeWhile_cons, ih]

theorem segment_of_no_assistant (h : ∀ message ∈ answers, message.is_assistant = false) :
    segment answers = answers :=
  List.takeWhile_eq_self_iff.mpr fun message hmem => by simp [h message hmem]

theorem wellFormed_of_no_assistant (h : ∀ message ∈ answers, message.is_assistant = false) :
    WellFormed answers := by
  induction answers with
  | nil => trivial
  | cons message rest ih =>
      have hrest := ih fun other hmem => h other (List.mem_cons_of_mem _ hmem)
      cases message with
      | assistant => cases h _ List.mem_cons_self
      | system | user | tool => exact hrest

-- A further round keeps the list well formed just when all its calls are answered.
theorem wellFormed_append_round (h : ∀ message ∈ answers, message.is_assistant = false) :
    WellFormed (messages ++ .assistant content tool_calls :: answers) ↔
      WellFormed messages ∧ (tool_calls ≠ [] → answered_ids answers = tool_calls.map (·.id)) := by
  induction messages with
  | nil =>
      simp only [List.nil_append, WellFormed, segment_of_no_assistant h,
        wellFormed_of_no_assistant h, and_true, true_and]
  | cons message rest ih =>
      cases message with
      | assistant =>
          simp only [List.cons_append, WellFormed, segment_append_assistant, ih, and_assoc]
      | system | user | tool => exact ih

-- The answers to these calls, in their order.
def tool_messages (calls : List ToolCall) (contents : List String) : List Message :=
  calls.zipWith (fun tc content => Message.tool tc.id content) contents

theorem tool_messages_no_assistant (calls : List ToolCall) (contents : List String) :
    ∀ message ∈ tool_messages calls contents, message.is_assistant = false := by
  intro message hmem
  obtain ⟨i, hi, rfl⟩ := List.getElem_of_mem hmem
  simp [tool_messages, Message.is_assistant]

theorem answered_ids_tool_messages (calls : List ToolCall) (contents : List String)
    (h : contents.length = calls.length) :
    answered_ids (tool_messages calls contents) = calls.map (·.id) := by
  induction calls generalizing contents with
  | nil => rfl
  | cons tc rest ih =>
      cases contents with
      | nil => cases h
      | cons content contents =>
          exact congrArg (tc.id :: ·) (ih contents (Nat.succ.inj h))

theorem calls_of_tool_messages (calls : List ToolCall) (contents : List String) :
    calls_of (tool_messages calls contents) = [] := by
  refine List.flatMap_eq_nil_iff.mpr fun message hmem => ?_
  obtain ⟨i, hi, rfl⟩ := List.getElem_of_mem hmem
  simp [tool_messages, Message.tool_calls]

end Lists

section Candidates

variable {allowed : List Invocation → Invocation → Prop}

-- Before the answer the candidates are all asked the same, and none asks for a tool.
theorem along_of_failures {asked : List Invocation} {messages : List Message} : ∀ {past},
    (∀ invocation ∈ asked, invocation.messages = messages) →
    (∀ invocation ∈ asked.dropLast, invocation.response = none) →
    (∀ invocation later, invocation.messages = messages → later.flatMap (·.tool_calls) = [] →
      allowed (past ++ later) invocation) → Along allowed past asked := by
  induction asked with
  | nil => exact fun _ _ _ => trivial
  | cons first rest ih =>
      intro past hmessages hfailures h
      refine ⟨?_, ?_⟩
      · have hfirst := h first [] (hmessages first List.mem_cons_self) rfl
        rwa [List.append_nil] at hfirst
      · cases rest with
        | nil => trivial
        | cons second rest =>
            rw [List.dropLast_cons_cons] at hfailures
            have hnone : first.tool_calls = [] := by
              simp [Invocation.tool_calls, hfailures first List.mem_cons_self]
            refine ih (fun invocation hmem => hmessages invocation (List.mem_cons_of_mem _ hmem))
              (fun invocation hmem => hfailures invocation (List.mem_cons_of_mem _ hmem))
              fun invocation later hinvocation hlater => ?_
            rw [List.append_assoc]
            refine h invocation _ hinvocation ?_
            rw [List.flatMap_append, hlater]
            simp [hnone]

end Candidates

section Loop

variable {py : Python} {settings : Settings} {gathered middle : Gathered}

-- The messages are well formed just when so many requested calls are within the budget.
def Balanced (settings : Settings) (count : ℕ) (messages : List Message) : Prop :=
  WellFormed messages ↔ count ≤ settings.max_tool_calls_per_job

-- A call of a model on messages balanced with the tool calls requested before it.
def BalancedCall (settings : Settings) (past : List Invocation) (invocation : Invocation) : Prop :=
  Balanced settings (past.flatMap (·.tool_calls)).length invocation.messages

-- Where the loop stands: as many calls have been handled as the budget had room for.
structure Kept (settings : Settings) (gathered : Gathered) : Prop where
  handled : gathered.tool_calls_log.length =
    min (calls_of gathered.messages).length settings.max_tool_calls_per_job
  balanced : Balanced settings (calls_of gathered.messages).length gathered.messages

theorem Kept.start (state : AgentState) (depth_instruction : String) :
    Kept settings (.start state depth_instruction) :=
  ⟨(Nat.zero_min _).symm, iff_of_true trivial (Nat.zero_le _)⟩

theorem map_take_eq_map_iff {calls : List ToolCall} {count : ℕ} :
    (calls.take count).map (·.id) = calls.map (·.id) ↔ calls.length ≤ count := by
  constructor
  · intro h
    have hlength := congrArg List.length h
    simp only [List.length_map, List.length_take] at hlength
    omega
  · intro h
    rw [List.take_of_length_le h]

-- A round adds its calls to those requested, and answers those within the budget.
theorem Kept.round {response : AIMessage} {model_calls : ℕ} {trace : AgentTrace}
    (h : Kept settings gathered)
    (hhandled : Handled py settings (response.tool_calls.take
      (settings.max_tool_calls_per_job - gathered.tool_calls_log.length))
      (gathered.answered response model_calls) trace middle) :
    Kept settings middle ∧ (calls_of middle.messages).length =
      (calls_of gathered.messages).length + response.tool_calls.length := by
  obtain ⟨contents, hlength, hmessages⟩ := hhandled.messages
  have hanswers := tool_messages_no_assistant (response.tool_calls.take
    (settings.max_tool_calls_per_job - gathered.tool_calls_log.length)) contents
  have hids := answered_ids_tool_messages _ _ hlength
  have hnone := calls_of_tool_messages (response.tool_calls.take
    (settings.max_tool_calls_per_job - gathered.tool_calls_log.length)) contents
  have hround : middle.messages = gathered.messages ++
      .assistant response.content.or_empty response.tool_calls :: tool_messages
        (response.tool_calls.take
          (settings.max_tool_calls_per_job - gathered.tool_calls_log.length)) contents := by
    rw [hmessages, Gathered.answered, List.append_assoc]
    rfl
  generalize tool_messages (response.tool_calls.take
    (settings.max_tool_calls_per_job - gathered.tool_calls_log.length)) contents = answers
    at hanswers hids hnone hround
  have hcalls : (calls_of middle.messages).length =
      (calls_of gathered.messages).length + response.tool_calls.length := by
    rw [hround, calls_of, List.flatMap_append, List.flatMap_cons, List.length_append,
      List.length_append]
    rw [calls_of] at hnone
    rw [hnone]
    rfl
  have hlog : gathered.tool_calls_log.length =
    min (calls_of gathered.messages).length settings.max_tool_calls_per_job := h.handled
  refine ⟨⟨?_, ?_⟩, hcalls⟩
  · have hlogged := hhandled.log_length
    rw [List.length_take] at hlogged
    simp only [Gathered.answered] at hlogged
    omega
  · have hbalanced : WellFormed gathered.messages ↔
        (calls_of gathered.messages).length ≤ settings.max_tool_calls_per_job := h.balanced
    rw [Balanced, hcalls, hround, wellFormed_append_round hanswers, hids, map_take_eq_map_iff,
      hbalanced]
    have hempty : response.tool_calls = [] ↔ response.tool_calls.length = 0 :=
      List.length_eq_zero_iff.symm
    rw [Ne, hempty]
    omega

theorem react_along (llms : List Provider) : ∀ left gathered past, Kept settings gathered →
    (past.flatMap (·.tool_calls)).length = (calls_of gathered.messages).length →
    (react py settings llms left gathered).Ensures fun trace _ =>
      Along (BalancedCall settings) past (invocations trace) := by
  intro left
  induction left with
  | zero => exact fun gathered past _ _ => Program.ensures_ret trivial
  | succ left ih =>
      intro gathered past hkept hpast
      unfold react
      split
      · refine Program.ensures_bind ((ask_candidates_ensures true gathered.messages llms 0
          gathered.model_calls).mono ?_)
        rintro first result ⟨response, model_calls, rfl, hasked⟩
        have hfirst : Along (BalancedCall settings) past (invocations first) := by
          refine along_of_failures (fun invocation hmem => (hasked.bound invocation hmem).2)
            hasked.failures fun invocation later hmessages hlater => ?_
          rw [BalancedCall, List.flatMap_append, hlater, List.append_nil, hpast, hmessages]
          exact hkept.balanced
        have hrequested : (invocations first).flatMap (·.tool_calls) =
            (response.map (·.tool_calls)).getD [] := hasked.requested
        cases response with
        | none =>
            refine Program.ensures_raise ?_
            rwa [List.append_nil]
        | some response =>
            show Program.Ensures (if _ then _ else _) _
            split
            · refine Program.ensures_ret ?_
              rwa [List.append_nil]
            · refine Program.ensures_bind
                ((handle_tool_calls_ensures response.tool_calls _).mono ?_)
              rintro second result ⟨middle, rfl, hhandled⟩
              obtain ⟨hmiddle, hcalls⟩ := hkept.round hhandled
              have hnow : ((past ++ invocations first).flatMap (·.tool_calls)).length =
                  (calls_of middle.messages).length := by
                rw [List.flatMap_append, List.length_append, hrequested, hpast, hcalls]
                rfl
              refine (ih middle _ hmiddle hnow).mono fun third result hthird => ?_
              rw [invocations_append, invocations_append, hhandled.silent.invocations,
                List.nil_append, along_append]
              exact ⟨hfirst, hthird⟩
      · exact Program.ensures_ret trivial

end Loop

-- The dialogue is well formed at every call of a model just when no model is called again
-- after the tool calls requested have gone beyond the budget.
theorem dialogue_well_formed (py : Python) (settings : Settings) (state : AgentState) :
    (research_node py settings state).Ensures fun trace _ =>
      (∀ invocation ∈ invocations trace, WellFormed invocation.messages) ↔
        ∀ before invocation after, invocations trace = before ++ invocation :: after →
          (before.flatMap (·.tool_calls)).length ≤ settings.max_tool_calls_per_job := by
  have hnode : (research_node py settings state).Ensures fun trace _ =>
      Along (BalancedCall settings) [] (invocations trace) := by
    refine Program.ensures_bind ((build_llm_candidates_ensures py settings).mono ?_)
    rintro first result ⟨hfirst, -⟩
    cases result with
    | error error =>
        show Along _ [] (invocations first)
        rw [hfirst.invocations]
        trivial
    | ok llms =>
        dsimp only
        cases DEPTH_INSTRUCTION.lookup state.research_depth with
        | none =>
            refine Program.ensures_raise ?_
            rw [List.append_nil, hfirst.invocations]
            trivial
        | some depth_instruction =>
            refine Program.ensures_bind ((react_along llms _ _ [] (.start state _) rfl).mono ?_)
            intro second result hsecond
            have hall : Along (BalancedCall settings) [] (invocations (first ++ second)) := by
              rw [invocations_append, hfirst.invocations]
              exact hsecond
            cases result with
            | error error => exact hall
            | ok gathered =>
                refine Program.ensures_ret ?_
                rwa [List.append_nil]
  refine hnode.mono fun trace result halong => ?_
  have heach := (along_iff _ _).mp halong
  constructor
  · intro hwell before invocation after hsplit
    have hmem : invocation ∈ invocations trace := by simp [hsplit]
    exact (heach before invocation after hsplit).mp (hwell invocation hmem)
  · intro hbudget invocation hmem
    obtain ⟨before, after, hsplit⟩ := List.append_of_mem hmem
    exact (heach before invocation after hsplit).mpr (hbudget before invocation after hsplit)

-- One call is within the budget and two are requested: the second answer is asked for
-- with the second call still open.
theorem open_call_in_dialogue :
    let settings : Settings := { max_tool_calls_per_job := 1 }
    let answers : List AIMessage := [
      { content := .text "", tool_calls := [⟨"lookup", [], some "a"⟩, ⟨"lookup", [], some "b"⟩] },
      { content := .text "done" }]
    let run := (research_node .small settings .small).record (scripted .nothing) answers
    (research_node .small settings .small).Executes run.1 run.2 ∧
      ¬∀ invocation ∈ invocations run.1, WellFormed invocation.messages :=
  ⟨Program.executes_record _ _ _, by decide +kernel⟩

end ResearchAgent.Research
