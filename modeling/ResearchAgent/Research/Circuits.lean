import ResearchAgent.Research.Breaker
import ResearchAgent.Research.Executions

namespace ResearchAgent.Research

open Library JobQueue Service

-- A tool call with what surrounds it: the clock when its circuit is asked, what becomes
-- of the tool, and the clock when that is recorded.
structure Attempt where
  tc : ToolCall
  entered : ℚ
  run : ToolRun
  settled : ℚ

-- The circuits of the process, and the tools that have been run in their order.
structure ToolWorld where
  circuits : Tool → Option CircuitBreaker := fun _ => none
  contacted : List Tool := []

namespace ToolWorld

variable (settings : Settings) (world : ToolWorld) (tool : Tool)

-- `_CIRCUITS.setdefault`
def circuit : CircuitBreaker :=
  (world.circuits tool).getD
    { failure_threshold := settings.circuit_breaker_failure_threshold
      recovery_seconds := settings.circuit_breaker_recovery_seconds }

def store (breaker : CircuitBreaker) : ToolWorld :=
  { world with circuits := Function.update world.circuits tool (some breaker) }

-- The operations of one tool call. The others are not among them.
def exec (attempt : Attempt) (world : ToolWorld) : (op : AgentOp) → op.Reply × ToolWorld
  | .circuit_enter tool =>
      let (admitted, breaker) := (world.circuit settings tool).enter attempt.entered
      (admitted, world.store tool breaker)
  | .circuit_failed tool =>
      ((), world.store tool ((world.circuit settings tool).failed attempt.settled))
  | .circuit_succeeded tool => ((), world.store tool (world.circuit settings tool).succeeded)
  | .submit tool _ => (attempt.run, { world with contacted := world.contacted ++ [tool] })
  | .build_provider_llm _ => (.ok (), world)
  | .invoke _ _ _ => (.error (.Exception ""), world)
  | .now => ("", world)

end ToolWorld

section Sequences

variable (py : Python) (settings : Settings)

def call_tool (world : ToolWorld) (attempt : Attempt) : Except AgentError JSONValue × ToolWorld :=
  (tool_result py settings attempt.tc).run (ToolWorld.exec settings attempt) world

def after_calls (world : ToolWorld) (attempts : List Attempt) : ToolWorld :=
  attempts.foldl (fun world attempt => (call_tool py settings world attempt).2) world

-- The call ends without the tool being run, with the error of an open circuit.
def Refused (world : ToolWorld) (attempt : Attempt) : Prop :=
  (call_tool py settings world attempt).1 = .ok (error_result "Provider circuit is open") ∧
    (call_tool py settings world attempt).2.contacted = world.contacted

def is_of (tool : Tool) (attempt : Attempt) : Bool := find_tool attempt.tc.name = some tool

def fails {α : Type} : Except String α → Bool
  | .ok _ => false
  | .error _ => true

-- Whether the requests of the tool fail: one of its fetch functions raises.
def Tool.request_fails (tool : Tool) (args : JSONObject) (fetched : Fetched) : Bool :=
  match py.read_arguments tool args with
  | .error _ => false
  | .ok arguments =>
      let ticker := strip (py.upper arguments.ticker)
      match tool with
      | get_market_data =>
          settings.alpha_vantage_api_key ≠ "" && fails (fetched.fetch_from_alpha_vantage ticker)
      | get_financial_news =>
          settings.newsapi_api_key ≠ "" && fails (fetched.fetch_newsapi ticker)
      | get_macro_indicators =>
          settings.alpha_vantage_api_key ≠ "" && (fails (fetched.fetch_indicator "CPI") ||
            fails (fetched.fetch_indicator "FEDERAL_FUNDS_RATE") ||
            fails (fetched.fetch_indicator "REAL_GDP"))
      | get_sec_filing_summary =>
          match fetched.edgar_cik_lookup ticker with
          | .error _ => true
          | .ok none | .ok (some "") => false
          | .ok (some cik) => fails (fetched.fetch_recent_filing_meta cik)

-- In every call of the tool among these, the tool is run and its request fails.
def AllFail (tool : Tool) : ToolWorld → List Attempt → Prop
  | _, [] => True
  | world, attempt :: rest =>
      (is_of tool attempt = true →
        (call_tool py settings world attempt).2.contacted = world.contacted ++ [tool] ∧
        tool.request_fails py settings attempt.tc.args attempt.run.fetched = true) ∧
      AllFail tool (call_tool py settings world attempt).2 rest

instance decidableAllFail (tool : Tool) (world : ToolWorld) :
    (attempts : List Attempt) → Decidable (AllFail py settings tool world attempts)
  | [] => .isTrue trivial
  | attempt :: rest =>
      have := decidableAllFail tool (call_tool py settings world attempt).2 rest
      inferInstanceAs (Decidable (_ ∧ _))

end Sequences

section OneCall

variable {py : Python} {settings : Settings} {world : ToolWorld} {attempt : Attempt}
  {tool other : Tool}

-- What the circuit sees of the call: whether an exception leaves the tool.
def Attempt.call (py : Python) (tool : Tool) (attempt : Attempt) : CircuitBreaker.Call where
  entered := attempt.entered
  raised := TOOL_CALL_TIMEOUT_SECONDS < attempt.run.duration ||
    fails (py.read_arguments tool attempt.tc.args)
  settled := attempt.settled

@[simp] theorem store_circuit (breaker : CircuitBreaker) :
    (world.store tool breaker).circuit settings tool = breaker := by
  simp [ToolWorld.store, ToolWorld.circuit]

theorem store_circuit_of_ne (breaker : CircuitBreaker) (h : other ≠ tool) :
    (world.store tool breaker).circuit settings other = world.circuit settings other := by
  simp [ToolWorld.store, ToolWorld.circuit, Function.update_of_ne h]

-- The tool is run, and an exception leaves it exactly where the circuit is to count one.
theorem run_invoke_tool :
    ∃ result, (invoke_tool_with_timeout py settings tool attempt.tc.args).run
        (ToolWorld.exec settings attempt) world =
          (result, { world with contacted := world.contacted ++ [tool] }) ∧
      ((attempt.call py tool).raised = true ↔ ∃ error, result = .error error) := by
  have hrun : (invoke_tool_with_timeout py settings tool attempt.tc.args).run
      (ToolWorld.exec settings attempt) world =
      Program.run (ToolWorld.exec settings attempt)
        (if (TOOL_CALL_TIMEOUT_SECONDS : ℚ) < attempt.run.duration then
          .raise (.TimeoutError s!"Tool call timed out after {TOOL_CALL_TIMEOUT_SECONDS}s")
        else lift (tool.invoke py settings attempt.tc.args attempt.run.fetched))
        { world with contacted := world.contacted ++ [tool] } := rfl
  rw [hrun]
  by_cases htime : (TOOL_CALL_TIMEOUT_SECONDS : ℚ) < attempt.run.duration
  · rw [if_pos htime]
    exact ⟨_, rfl, by simp [Attempt.call, htime]⟩
  · rw [if_neg htime]
    cases hargs : py.read_arguments tool attempt.tc.args with
    | error message =>
        refine ⟨.error (.Exception message), ?_, by simp [Attempt.call, hargs, fails]⟩
        simp [Tool.invoke, hargs]
    | ok arguments =>
        refine ⟨tool.invoke py settings attempt.tc.args attempt.run.fetched, ?_, ?_⟩
        · simp [Tool.invoke, hargs]
        · simp [Attempt.call, Tool.invoke, hargs, htime, fails]

-- The circuit does with the tool what it does with any operation.
theorem run_circuit_call :
    ∃ result, (circuit_call tool (invoke_tool_with_timeout py settings tool attempt.tc.args)).run
        (ToolWorld.exec settings attempt) world =
          (result, { world.store tool
              ((world.circuit settings tool).attempt (attempt.call py tool)).2 with
            contacted := if ((world.circuit settings tool).attempt (attempt.call py tool)).1
              then world.contacted ++ [tool] else world.contacted }) ∧
      (((world.circuit settings tool).attempt (attempt.call py tool)).1 = false →
        result = .error (.CircuitOpenError "Provider circuit is open")) := by
  have hstart : (circuit_call tool (invoke_tool_with_timeout py settings tool attempt.tc.args)).run
      (ToolWorld.exec settings attempt) world =
      Program.run (ToolWorld.exec settings attempt)
        (if ((world.circuit settings tool).enter attempt.entered).1 then do
          let result ← (invoke_tool_with_timeout py settings tool attempt.tc.args).attempt
            fun error => do
              perform (.circuit_failed tool)
              .raise error
          perform (.circuit_succeeded tool)
          .ret result
        else .raise (.CircuitOpenError "Provider circuit is open"))
        (world.store tool ((world.circuit settings tool).enter attempt.entered).2) := rfl
  rw [hstart]
  rcases henter : (world.circuit settings tool).enter attempt.entered with ⟨admitted, entered⟩
  have hattempt : (world.circuit settings tool).attempt (attempt.call py tool) = _ :=
    CircuitBreaker.attempt_of_enter _ henter
  rw [hattempt]
  cases admitted with
  | false => exact ⟨_, rfl, fun _ => rfl⟩
  | true =>
      obtain ⟨result, hrun, hraised⟩ :=
        @run_invoke_tool py settings (world.store tool entered) attempt tool
      refine ⟨result, ?_, fun h => by cases h⟩
      rw [if_pos rfl, Program.run_bind, Program.run_attempt, hrun]
      cases result with
      | ok value =>
          have hcall : (attempt.call py tool).raised = false := by
            by_contra hcall
            obtain ⟨error, h⟩ := hraised.mp (by simpa using hcall)
            cases h
          have hsettle := CircuitBreaker.settle_of_returned entered hcall
          refine Prod.ext rfl ?_
          show ToolWorld.store _ tool (ToolWorld.circuit settings _ tool).succeeded = _
          simp [ToolWorld.store, ToolWorld.circuit, hsettle]
      | error error =>
          have hcall : (attempt.call py tool).raised = true := hraised.mpr ⟨error, rfl⟩
          have hsettle : entered.settle (attempt.call py tool) = entered.failed attempt.settled :=
            CircuitBreaker.settle_of_raised entered hcall
          refine Prod.ext rfl ?_
          show ToolWorld.store _ tool ((ToolWorld.circuit settings _ tool).failed _) = _
          simp [ToolWorld.store, ToolWorld.circuit, hsettle]

theorem is_of_iff : is_of tool attempt = true ↔ find_tool attempt.tc.name = some tool := by
  simp [is_of]

-- What a call of the tool does to the world, by what its circuit does.
theorem call_tool_cases (h : is_of tool attempt = true) :
    (call_tool py settings world attempt).2 =
        { world.store tool ((world.circuit settings tool).attempt (attempt.call py tool)).2 with
          contacted := if ((world.circuit settings tool).attempt (attempt.call py tool)).1
            then world.contacted ++ [tool] else world.contacted } ∧
      (((world.circuit settings tool).attempt (attempt.call py tool)).1 = false →
        (call_tool py settings world attempt).1 =
          .ok (error_result "Provider circuit is open")) := by
  obtain ⟨result, hrun, hrefused⟩ := @run_circuit_call py settings world attempt tool
  unfold call_tool tool_result
  rw [is_of_iff.mp h]
  show (Program.run _ (Program.attempt _ _) world).2 = _ ∧ (_ → (Program.run _ _ world).1 = _)
  rw [Program.run_attempt, Program.run_bind, hrun]
  cases result with
  | error error =>
      refine ⟨rfl, fun hfalse => ?_⟩
      cases hrefused hfalse
      rfl
  | ok raw =>
      refine ⟨?_, fun hfalse => by cases hrefused hfalse⟩
      dsimp only
      cases sanitize_tool_result py settings.max_external_content_chars
          settings.prompt_injection_policy raw <;> rfl

theorem refused_iff (h : is_of tool attempt = true) : Refused py settings world attempt ↔
    ((world.circuit settings tool).attempt (attempt.call py tool)).1 = false := by
  obtain ⟨hworld, hresult⟩ := @call_tool_cases py settings world attempt tool h
  constructor
  · rintro ⟨-, hcontacted⟩
    rw [hworld] at hcontacted
    cases hadmitted : ((world.circuit settings tool).attempt (attempt.call py tool)).1 with
    | false => rfl
    | true => simp [hadmitted] at hcontacted
  · intro hfalse
    refine ⟨hresult hfalse, ?_⟩
    rw [hworld]
    simp [hfalse]

theorem contacted_iff (h : is_of tool attempt = true) :
    (call_tool py settings world attempt).2.contacted = world.contacted ++ [tool] ↔
      ((world.circuit settings tool).attempt (attempt.call py tool)).1 = true := by
  rw [(@call_tool_cases py settings world attempt tool h).1]
  cases ((world.circuit settings tool).attempt (attempt.call py tool)).1 <;> simp

theorem call_tool_circuit (h : is_of tool attempt = true) :
    (call_tool py settings world attempt).2.circuit settings tool =
      ((world.circuit settings tool).attempt (attempt.call py tool)).2 := by
  rw [(@call_tool_cases py settings world attempt tool h).1]
  exact store_circuit _

-- A tool has a circuit of its own.
theorem call_tool_circuit_of_ne (h : is_of tool attempt = false) :
    (call_tool py settings world attempt).2.circuit settings tool =
      world.circuit settings tool := by
  cases hother : find_tool attempt.tc.name with
  | none =>
      unfold call_tool tool_result
      rw [hother]
      rfl
  | some other =>
      have hne : tool ≠ other := by
        rintro rfl
        simp [is_of, hother] at h
      rw [(@call_tool_cases py settings world attempt other (is_of_iff.mpr hother)).1]
      exact store_circuit_of_ne _ hne

end OneCall

section Window

variable (py : Python) (settings : Settings) (tool : Tool)

def circuit_calls (attempts : List Attempt) : List CircuitBreaker.Call :=
  (attempts.filter (is_of tool)).map (Attempt.call py tool)

theorem after_calls_circuit (attempts : List Attempt) : ∀ world,
    (after_calls py settings world attempts).circuit settings tool =
      (world.circuit settings tool).after (circuit_calls py tool attempts) := by
  induction attempts with
  | nil => exact fun world => rfl
  | cons attempt rest ih =>
      intro world
      have hrest := ih (call_tool py settings world attempt).2
      cases hof : is_of tool attempt with
      | true =>
          rw [call_tool_circuit hof] at hrest
          rw [circuit_calls, List.filter_cons_of_pos hof]
          exact hrest
      | false =>
          rw [call_tool_circuit_of_ne hof] at hrest
          rw [circuit_calls, List.filter_cons_of_neg (by simp [hof])]
          exact hrest

variable {py settings tool}

theorem AllFail.admitted {attempts : List Attempt} : ∀ {world},
    AllFail py settings tool world attempts →
      (world.circuit settings tool).Admitted (circuit_calls py tool attempts) := by
  induction attempts with
  | nil => exact fun _ => trivial
  | cons attempt rest ih =>
      intro world h
      obtain ⟨hfirst, hrest⟩ := h
      have hlater := ih hrest
      cases hof : is_of tool attempt with
      | true =>
          rw [call_tool_circuit hof] at hlater
          rw [circuit_calls, List.filter_cons_of_pos hof]
          exact ⟨(contacted_iff hof).mp (hfirst hof).1, hlater⟩
      | false =>
          rw [call_tool_circuit_of_ne hof] at hlater
          rw [circuit_calls, List.filter_cons_of_neg (by simp [hof])]
          exact hlater

theorem AllFail.request_fails {attempts : List Attempt} : ∀ {world},
    AllFail py settings tool world attempts → ∀ attempt ∈ attempts.filter (is_of tool),
      tool.request_fails py settings attempt.tc.args attempt.run.fetched = true := by
  induction attempts with
  | nil => exact fun _ attempt hmem => by cases hmem
  | cons first rest ih =>
      intro world h attempt hmem
      obtain ⟨hmem, hof⟩ := List.mem_filter.mp hmem
      rcases List.mem_cons.mp hmem with rfl | hmem
      · exact (h.1 hof).2
      · exact ih h.2 attempt (List.mem_filter.mpr ⟨hmem, hof⟩)

-- A request that fails has been made, so the arguments were in order.
theorem raised_iff {attempt : Attempt}
    (h : tool.request_fails py settings attempt.tc.args attempt.run.fetched = true) :
    (attempt.call py tool).raised = true ↔
      (TOOL_CALL_TIMEOUT_SECONDS : ℚ) < attempt.run.duration := by
  cases hargs : py.read_arguments tool attempt.tc.args with
  | error message => simp [Tool.request_fails, hargs] at h
  | ok arguments => simp [Attempt.call, hargs, fails]

-- When the requests of as many calls as the threshold have failed, the next call is refused
-- just when each of them has run out of time and no failure was pending before the first:
-- a failure that the tool itself reports does not count.
theorem failures_trip_circuit (py : Python) (settings : Settings) (tool : Tool)
    (earlier window : List Attempt) (last next : Attempt)
    (hcount : (window.filter (is_of tool)).length = settings.circuit_breaker_failure_threshold)
    (hfail : AllFail py settings tool (after_calls py settings {} earlier) window)
    (hlast : (window.filter (is_of tool)).getLast? = some last) (hnext : is_of tool next = true)
    (hsoon : next.entered - last.settled < settings.circuit_breaker_recovery_seconds) :
    Refused py settings (after_calls py settings {} (earlier ++ window)) next ↔
      (∀ attempt ∈ window.filter (is_of tool),
        (TOOL_CALL_TIMEOUT_SECONDS : ℚ) < attempt.run.duration) ∧
      ((after_calls py settings {} earlier).circuit settings tool).pending = 0 := by
  have hfresh : (({} : ToolWorld).circuit settings tool).Sound :=
    ⟨settings.failure_threshold_valid.1, fun _ => settings.failure_threshold_valid.1⟩
  obtain ⟨hsound, hthreshold, -⟩ := hfresh.after (circuit_calls py tool earlier)
  rw [← after_calls_circuit py settings tool] at hsound hthreshold
  obtain ⟨-, -, hrecovery⟩ := hfresh.after
    (circuit_calls py tool earlier ++ circuit_calls py tool window)
  have hsplit : (after_calls py settings {} (earlier ++ window)).circuit settings tool =
      ((after_calls py settings {} earlier).circuit settings tool).after
        (circuit_calls py tool window) := by
    rw [after_calls, List.foldl_append]
    exact after_calls_circuit py settings tool window _
  have hlast_call : last.call py tool ∈ (circuit_calls py tool window).getLast? := by
    rw [circuit_calls, List.getLast?_map, hlast]
    rfl
  have hopened := CircuitBreaker.opened_iff hsound hfail.admitted
    (by rw [circuit_calls, List.length_map, hcount, hthreshold]; rfl) hlast_call
  have hraised : (∀ call ∈ circuit_calls py tool window, call.raised = true) ↔
      ∀ attempt ∈ window.filter (is_of tool),
        (TOOL_CALL_TIMEOUT_SECONDS : ℚ) < attempt.run.duration := by
    rw [circuit_calls, List.forall_mem_map]
    exact forall₂_congr fun attempt hmem => raised_iff (hfail.request_fails attempt hmem)
  rw [refused_iff hnext, hsplit, CircuitBreaker.refuses_iff, hopened, ← hraised]
  constructor
  · rintro ⟨opened_at, hsome, -⟩
    by_contra hnot
    rw [if_neg hnot] at hsome
    cases hsome
  · intro hall
    rw [if_pos hall]
    refine ⟨last.settled, rfl, ?_⟩
    rw [after_calls_circuit, ← CircuitBreaker.after_append, hrecovery]
    exact hsoon

-- A call of the market data tool whose provider has failed for good after so many seconds.
def failing_attempt (entered duration : ℕ) : Attempt where
  tc := ⟨"get_market_data", [("ticker", .str "NVDA")], none⟩
  entered := entered
  run := ⟨duration, .nothing⟩
  settled := entered + duration

def Settings.live : Settings :=
  { Settings.small with allow_mock_data := false, alpha_vantage_api_key := "key" }

theorem timeouts_trip_circuit :
    Refused .small .live (after_calls .small .live {}
      [failing_attempt 0 31, failing_attempt 40 31, failing_attempt 80 31])
      (failing_attempt 120 1) :=
  (failures_trip_circuit .small .live .get_market_data [] [failing_attempt 0 31,
    failing_attempt 40 31, failing_attempt 80 31] (failing_attempt 80 31) (failing_attempt 120 1)
    (by decide +kernel) (by decide +kernel) rfl (by decide +kernel) (by decide +kernel)).mpr
    ⟨by decide +kernel, by decide +kernel⟩

-- Three requests fail with all their retries and the tool says so in its result: the next
-- call goes through to the provider.
theorem reported_failures_leave_circuit_closed :
    let window := [failing_attempt 0 5, failing_attempt 6 5, failing_attempt 12 5]
    AllFail .small .live .get_market_data {} window ∧
      window.length = Settings.live.circuit_breaker_failure_threshold ∧
      (failing_attempt 19 5).entered - (failing_attempt 12 5).settled <
        Settings.live.circuit_breaker_recovery_seconds ∧
      ¬Refused .small .live (after_calls .small .live {} window) (failing_attempt 19 5) :=
  ⟨by decide +kernel, rfl, by decide +kernel, fun h => absurd h.2 (by decide +kernel)⟩

end Window

end ResearchAgent.Research
