import ResearchAgent.Research.Budgets
import ResearchAgent.Research.Fetching
import ResearchAgent.Research.Figures

namespace ResearchAgent.Research

open Library JobQueue Service

section Reading

variable {α : Type} {trace later : LiveTrace} {asked : HttpRequest → Prop} {checks_status : Bool}
  {read : JSONValue → Except String α}

def is_get (exchange : Exchange LiveOp LiveOp.Reply) : Bool :=
  match exchange.op with
  | .get _ => true
  | _ => false

-- The value was read from the answer to one of these requests.
def ReadFrom (trace : LiveTrace) (asked : HttpRequest → Prop) (checks_status : Bool)
    (read : JSONValue → Except String α) (value : α) : Prop :=
  ∃ request response data, asked request ∧
    (⟨.get request, .ok response⟩ : Exchange LiveOp LiveOp.Reply) ∈ trace ∧
    (checks_status = true → response.raise_for_status = .ok ()) ∧
    response.json = .ok data ∧ read data = .ok value

theorem ReadFrom.mono {value : α} (h : ReadFrom trace asked checks_status read value)
    (hsub : trace ⊆ later) : ReadFrom later asked checks_status read value := by
  obtain ⟨request, response, data, hasked, hmem, hanswer⟩ := h
  exact ⟨request, response, data, hasked, hsub hmem, hanswer⟩

-- At most so many requests, all of them these; what is returned was read from an answer.
structure Fetches (count : ℕ) (asked : HttpRequest → Prop) (checks_status : Bool)
    (read : JSONValue → Except String α) (trace : LiveTrace) (result : Except String α) : Prop where
  counted : trace.countP is_get ≤ count
  wanted : ∀ request reply, ⟨.get request, reply⟩ ∈ trace → asked request
  sent : ∀ value, result = .ok value → ReadFrom trace asked checks_status read value

theorem lift_ensures {value : Except String α} {post : LiveTrace → Except String α → Prop}
    (h : post [] value) : (FetchProgram.lift value).Ensures post := by
  cases value with
  | ok value => exact Program.ensures_ret h
  | error error => exact Program.ensures_raise h

theorem fetch_ensures {request : HttpRequest} (hasked : asked request) :
    (FetchProgram.fetch request checks_status read).Ensures
      (Fetches 1 asked checks_status read) := by
  refine Program.ensures_call fun reply => lift_ensures ⟨?_, ?_, ?_⟩
  · simp [is_get]
  · intro other reply' hmem
    cases List.mem_singleton.mp hmem
    exact hasked
  · intro value hvalue
    obtain ⟨response, hresponse, hanswer⟩ := bind_eq_ok.mp hvalue
    cases hresponse
    cases checks_status with
    | false =>
        simp only [Bool.false_eq_true, if_false] at hanswer
        obtain ⟨data, hdata, hread⟩ := bind_eq_ok.mp hanswer
        exact ⟨request, response, data, hasked, List.mem_singleton_self _, (fun h => by cases h),
          hdata, hread⟩
    | true =>
        simp only [if_true] at hanswer
        obtain ⟨⟨⟩, hstatus, hanswer⟩ := bind_eq_ok.mp hanswer
        obtain ⟨data, hdata, hread⟩ := bind_eq_ok.mp hanswer
        exact ⟨request, response, data, hasked, List.mem_singleton_self _, fun _ => hstatus, hdata,
          hread⟩

theorem Attempts.fetches {operation : FetchProgram α} {count : ℕ} {result : Except String α}
    (h : Attempts operation count trace result)
    (hoperation : operation.Ensures (Fetches 1 asked checks_status read)) :
    Fetches count asked checks_status read trace result := by
  induction h with
  | returned hexec =>
      have honce := hoperation _ _ hexec
      exact ⟨honce.counted.trans (Nat.le_add_left 1 _), honce.wanted, honce.sent⟩
  | reraised hexec => exact hoperation _ _ hexec
  | @again count first later error result hexec _ ih =>
      have honce := hoperation _ _ hexec
      refine ⟨?_, fun request reply hmem => ?_, fun value hvalue => ?_⟩
      · have hfirst := honce.counted
        have hlater := ih.counted
        rw [List.countP_append]
        omega
      · rcases List.mem_append.mp hmem with hmem | hmem
        · exact honce.wanted request reply hmem
        · exact ih.wanted request reply hmem
      · exact (ih.sent value hvalue).mono (List.subset_append_right _ _)

theorem retry_ensures (tenacity : Tenacity) {operation : FetchProgram α} (count : ℕ)
    (h : operation.Ensures (Fetches 1 asked checks_status read)) :
    (tenacity.retry (count + 1) operation).Ensures
      (Fetches (count + 1) asked checks_status read) :=
  (tenacity.attempts count operation).mono fun _ _ hattempts => hattempts.fetches h

end Reading

section Providers

variable (py : Python) (settings : Settings) (tenacity : Tenacity)

def AsksForNews (ticker : String) (request : HttpRequest) : Prop :=
  ∃ since, request = newsapi_request settings ticker since

theorem fetch_from_alpha_vantage_ensures (ticker : String) :
    (fetch_from_alpha_vantage settings tenacity ticker).Ensures
      (Fetches 3 (· = overview_request settings ticker) true to_dict) :=
  retry_ensures tenacity 2 (fetch_ensures rfl)

theorem fetch_newsapi_ensures (ticker : String) :
    (fetch_newsapi settings tenacity ticker).Ensures
      (Fetches 3 (AsksForNews settings ticker) true read_newsapi) := by
  refine retry_ensures tenacity 2 (Program.ensures_call fun since => ?_)
  have hfetch := @fetch_ensures _ (AsksForNews settings ticker) true read_newsapi
    (newsapi_request settings ticker since) ⟨since, rfl⟩
  refine hfetch.mono fun trace result h => ⟨?_, fun request reply hmem => ?_, fun value hvalue =>
    (h.sent value hvalue).mono (List.subset_cons_self _ _)⟩
  · have hcount := h.counted
    rwa [List.countP_cons_of_neg (by simp [is_get])]
  · rcases List.mem_cons.mp hmem with heq | hmem
    · cases heq
    · exact h.wanted request reply hmem

theorem fetch_indicator_ensures (function : String) :
    (fetch_indicator py settings tenacity function).Ensures
      (Fetches 3 (· = indicator_request settings function) true (read_indicator py)) :=
  retry_ensures tenacity 2 (fetch_ensures rfl)

theorem edgar_cik_lookup_ensures (ticker : String) :
    (edgar_cik_lookup py tenacity ticker).Ensures
      (Fetches 2 (· = tickers_request) false (read_cik py ticker)) :=
  retry_ensures tenacity 1 (fetch_ensures rfl)

theorem fetch_recent_filing_meta_ensures (cik : String) :
    (fetch_recent_filing_meta tenacity cik).Ensures
      (Fetches 2 (· = submissions_request cik) false read_submissions) :=
  retry_ensures tenacity 1 (fetch_ensures rfl)

end Providers

section Requests

variable (py : Python) (settings : Settings)

-- What the fetch functions came to was read from answers.
structure FromAnswers (trace : LiveTrace) (fetched : Fetched) : Prop where
  overview : ∀ ticker raw, fetched.fetch_from_alpha_vantage ticker = .ok raw →
    ReadFrom trace (· = overview_request settings ticker) true to_dict raw
  news : ∀ ticker articles, fetched.fetch_newsapi ticker = .ok articles →
    ReadFrom trace (AsksForNews settings ticker) true read_newsapi articles
  indicator : ∀ function value, fetched.fetch_indicator function = .ok value →
    ReadFrom trace (· = indicator_request settings function) true (read_indicator py) value
  cik : ∀ ticker cik, fetched.edgar_cik_lookup ticker = .ok cik →
    ReadFrom trace (· = tickers_request) false (read_cik py ticker) cik
  filing : ∀ cik filing, fetched.fetch_recent_filing_meta cik = .ok filing →
    ReadFrom trace (· = submissions_request cik) false read_submissions filing

-- The requests that the tools may make: to a provider for which there is a key, or to EDGAR,
-- and there for the filings of a company that EDGAR has named.
inductive Expected (trace : LiveTrace) : HttpRequest → Prop
  | overview (hkey : settings.alpha_vantage_api_key ≠ "") (ticker : String) :
      Expected trace (overview_request settings ticker)
  | news (hkey : settings.newsapi_api_key ≠ "") (ticker since : String) :
      Expected trace (newsapi_request settings ticker since)
  | indicator (hkey : settings.alpha_vantage_api_key ≠ "") {function : String}
      (hmem : function ∈ INDICATORS.map Prod.fst) :
      Expected trace (indicator_request settings function)
  | tickers : Expected trace tickers_request
  | submissions {ticker cik : String}
      (hcik : ReadFrom trace (· = tickers_request) false (read_cik py ticker) (some cik)) :
      Expected trace (submissions_request cik)

structure ToolFetched (trace : LiveTrace) (fetched : Fetched) : Prop where
  counted : trace.countP is_get ≤ 9
  expected : ∀ request reply, ⟨.get request, reply⟩ ∈ trace → Expected py settings trace request
  answers : FromAnswers py settings trace fetched

variable {py settings} {trace later : LiveTrace} {fetched : Fetched}

theorem FromAnswers.mono (h : FromAnswers py settings trace fetched) (hsub : trace ⊆ later) :
    FromAnswers py settings later fetched where
  overview ticker raw hraw := (h.overview ticker raw hraw).mono hsub
  news ticker articles harticles := (h.news ticker articles harticles).mono hsub
  indicator function value hvalue := (h.indicator function value hvalue).mono hsub
  cik ticker cik hcik := (h.cik ticker cik hcik).mono hsub
  filing cik filing hfiling := (h.filing cik filing hfiling).mono hsub

theorem FromAnswers.nothing (trace : LiveTrace) : FromAnswers py settings trace .nothing where
  overview _ _ h := by cases h
  news _ _ h := by cases h
  indicator _ _ h := by cases h
  cik _ _ h := by cases h
  filing _ _ h := by cases h

theorem Expected.mono {request : HttpRequest} (h : Expected py settings trace request)
    (hsub : trace ⊆ later) : Expected py settings later request := by
  cases h with
  | overview hkey ticker => exact .overview hkey ticker
  | news hkey ticker since => exact .news hkey ticker since
  | indicator hkey hmem => exact .indicator hkey hmem
  | tickers => exact .tickers
  | submissions hcik => exact .submissions (hcik.mono hsub)

-- One more of the functions has come to something.
theorem read_update {α : Type} {fetch : String → Except String α}
    {backs : String → α → Prop} (h : ∀ key value, fetch key = .ok value → backs key value)
    {asked : String} {reply : Except String α}
    (hreply : ∀ value, reply = .ok value → backs asked value) (key : String) (value : α)
    (hvalue : Function.update fetch asked reply key = .ok value) :
    backs key value := by
  by_cases heq : key = asked
  · rw [heq, Function.update_self] at hvalue
    rw [heq]
    exact hreply value hvalue
  · rw [Function.update_of_ne heq] at hvalue
    exact h key value hvalue

theorem FromAnswers.set_overview (h : FromAnswers py settings trace fetched) {ticker : String}
    {reply : Except String JSONObject} (hreply : ∀ raw, reply = .ok raw →
      ReadFrom trace (· = overview_request settings ticker) true to_dict raw) :
    FromAnswers py settings trace { fetched with
      fetch_from_alpha_vantage :=
        Function.update fetched.fetch_from_alpha_vantage ticker reply } :=
  { h with overview := read_update h.overview hreply }

theorem FromAnswers.set_news (h : FromAnswers py settings trace fetched) {ticker : String}
    {reply : Except String (List JSONObject)} (hreply : ∀ articles, reply = .ok articles →
      ReadFrom trace (AsksForNews settings ticker) true read_newsapi articles) :
    FromAnswers py settings trace { fetched with
      fetch_newsapi := Function.update fetched.fetch_newsapi ticker reply } :=
  { h with news := read_update h.news hreply }

theorem FromAnswers.set_indicator (h : FromAnswers py settings trace fetched) {function : String}
    {reply : Except String (Option PyFloat)} (hreply : ∀ value, reply = .ok value →
      ReadFrom trace (· = indicator_request settings function) true (read_indicator py) value) :
    FromAnswers py settings trace { fetched with
      fetch_indicator := Function.update fetched.fetch_indicator function reply } :=
  { h with indicator := read_update h.indicator hreply }

theorem FromAnswers.set_cik (h : FromAnswers py settings trace fetched) {ticker : String}
    {reply : Except String (Option String)} (hreply : ∀ cik, reply = .ok cik →
      ReadFrom trace (· = tickers_request) false (read_cik py ticker) cik) :
    FromAnswers py settings trace { fetched with
      edgar_cik_lookup := Function.update fetched.edgar_cik_lookup ticker reply } :=
  { h with cik := read_update h.cik hreply }

theorem FromAnswers.set_filing (h : FromAnswers py settings trace fetched) {cik : String}
    {reply : Except String (Option FilingMeta)} (hreply : ∀ filing, reply = .ok filing →
      ReadFrom trace (· = submissions_request cik) false read_submissions filing) :
    FromAnswers py settings trace { fetched with
      fetch_recent_filing_meta :=
        Function.update fetched.fetch_recent_filing_meta cik reply } :=
  { h with filing := read_update h.filing hreply }

theorem ensures_fetched {α : Type} {program : FetchProgram α}
    {next : Except String α → LiveProgram Fetched}
    {post : LiveTrace → Except AgentError Fetched → Prop}
    (h : program.Ensures fun trace reply =>
      (next reply).Ensures fun later result => post (trace ++ later) result) :
    (program.outcome >>= next).Ensures post :=
  Program.ensures_bind (Program.ensures_outcome h)

variable (py settings) (tenacity : Tenacity)

theorem fetch_indicators_ensures (functions : List String) :
    ∀ (past : LiveTrace) (fetched : Fetched), FromAnswers py settings past fetched →
      (fetch_indicators py settings tenacity functions fetched).Ensures fun trace result =>
        ∃ fetched', result = .ok fetched' ∧ trace.countP is_get ≤ 3 * functions.length ∧
          (∀ request reply, ⟨.get request, reply⟩ ∈ trace →
            ∃ function ∈ functions, request = indicator_request settings function) ∧
          FromAnswers py settings (past ++ trace) fetched' := by
  induction functions with
  | nil =>
      intro past fetched h
      refine Program.ensures_ret ⟨fetched, rfl, Nat.zero_le _, fun request reply hmem => ?_, ?_⟩
      · cases hmem
      · rwa [List.append_nil]
  | cons function rest ih =>
      intro past fetched h
      refine ensures_fetched ((fetch_indicator_ensures py settings tenacity function).mono ?_)
      intro trace reply hfetches
      have hanswers := (h.mono (List.subset_append_left past trace)).set_indicator
        fun value hvalue => (hfetches.sent value hvalue).mono (List.subset_append_right past trace)
      have hcounted := hfetches.counted
      cases reply with
      | error error =>
          refine Program.ensures_ret ⟨_, rfl, ?_, fun request reply hmem => ?_, ?_⟩
          · rw [List.append_nil, List.length_cons]
            omega
          · rw [List.append_nil] at hmem
            exact ⟨function, List.mem_cons_self, hfetches.wanted request reply hmem⟩
          · rwa [List.append_nil]
      | ok value =>
          refine (ih _ _ hanswers).mono ?_
          rintro others result ⟨fetched', rfl, hothers, hwanted, hanswers'⟩
          refine ⟨fetched', rfl, ?_, fun request reply hmem => ?_, ?_⟩
          · rw [List.countP_append, List.length_cons]
            omega
          · rcases List.mem_append.mp hmem with hmem | hmem
            · exact ⟨function, List.mem_cons_self, hfetches.wanted request reply hmem⟩
            · obtain ⟨other, hother, heq⟩ := hwanted request reply hmem
              exact ⟨other, List.mem_cons_of_mem _ hother, heq⟩
          · rwa [← List.append_assoc]

theorem ToolFetched.nothing : ToolFetched py settings [] .nothing :=
  ⟨Nat.zero_le 9, (fun _ _ hmem => by cases hmem), .nothing []⟩

theorem tool_fetch_ensures (tool : Tool) (args : JSONObject) :
    (tool.fetch py settings tenacity args).Ensures fun trace result =>
      ∃ fetched, result = .ok fetched ∧ ToolFetched py settings trace fetched := by
  have hunused (trace : LiveTrace) : FromAnswers py settings trace .nothing := .nothing trace
  have hnothing : (Program.ret .nothing : LiveProgram Fetched).Ensures fun trace result =>
      ∃ fetched, result = .ok fetched ∧ ToolFetched py settings trace fetched :=
    Program.ensures_ret ⟨_, rfl, .nothing py settings⟩
  unfold Tool.fetch
  split
  · exact hnothing
  · next arguments _ =>
    cases tool with
    | get_market_data =>
        dsimp only
        split
        · exact hnothing
        · next hkey =>
          refine ensures_fetched ((fetch_from_alpha_vantage_ensures settings tenacity _).mono ?_)
          intro trace reply hfetches
          refine Program.ensures_ret ⟨_, rfl, ?_⟩
          rw [List.append_nil]
          refine ⟨hfetches.counted.trans (by decide), fun request reply hmem => ?_, ?_⟩
          · rw [hfetches.wanted request reply hmem]
            exact .overview hkey _
          · exact (hunused trace).set_overview hfetches.sent
    | get_financial_news =>
        dsimp only
        split
        · exact hnothing
        · next hkey =>
          refine ensures_fetched ((fetch_newsapi_ensures settings tenacity _).mono ?_)
          intro trace reply hfetches
          refine Program.ensures_ret ⟨_, rfl, ?_⟩
          rw [List.append_nil]
          refine ⟨hfetches.counted.trans (by decide), fun request reply hmem => ?_, ?_⟩
          · obtain ⟨since, rfl⟩ := hfetches.wanted request reply hmem
            exact .news hkey _ since
          · exact (hunused trace).set_news hfetches.sent
    | get_macro_indicators =>
        dsimp only
        split
        · exact hnothing
        · next hkey =>
          refine (fetch_indicators_ensures py settings tenacity _ [] .nothing
            (.nothing [])).mono ?_
          rintro trace result ⟨fetched, rfl, hcounted, hwanted, hanswers⟩
          refine ⟨fetched, rfl, hcounted, fun request reply hmem => ?_, hanswers⟩
          obtain ⟨function, hfunction, rfl⟩ := hwanted request reply hmem
          exact .indicator hkey hfunction
    | get_sec_filing_summary =>
        refine ensures_fetched ((edgar_cik_lookup_ensures py tenacity _).mono ?_)
        intro trace reply hfetches
        have hanswers : FromAnswers py settings trace { Fetched.nothing with
            edgar_cik_lookup := Function.update Fetched.nothing.edgar_cik_lookup
              (strip (py.upper arguments.ticker)) reply } :=
          (hunused trace).set_cik hfetches.sent
        have hlookup : ToolFetched py settings trace { Fetched.nothing with
            edgar_cik_lookup := Function.update Fetched.nothing.edgar_cik_lookup
              (strip (py.upper arguments.ticker)) reply } := by
          refine ⟨hfetches.counted.trans (by decide), fun request reply hmem => ?_, hanswers⟩
          rw [hfetches.wanted request reply hmem]
          exact .tickers
        have hended := @Program.ensures_ret _ _ AgentError _
          (fun later result => ∃ fetched, result = .ok fetched ∧
            ToolFetched py settings (trace ++ later) fetched) _
          ⟨_, rfl, by rwa [List.append_nil]⟩
        dsimp only
        split
        · exact hended
        · exact hended
        · exact hended
        · next cik _ =>
          refine ensures_fetched ((fetch_recent_filing_meta_ensures tenacity cik).mono ?_)
          intro second reply hsecond
          refine Program.ensures_ret ⟨_, rfl, ?_⟩
          rw [List.append_nil]
          have hboth := (hanswers.mono (List.subset_append_left trace second)).set_filing
            fun filing hfiling =>
              (hsecond.sent filing hfiling).mono (List.subset_append_right trace second)
          refine ⟨?_, fun request reply hmem => ?_, hboth⟩
          · have hcounted := hfetches.counted
            have hcounted' := hsecond.counted
            rw [List.countP_append]
            omega
          · rcases List.mem_append.mp hmem with hmem | hmem
            · rw [hfetches.wanted request reply hmem]
              exact .tickers
            · rw [hsecond.wanted request reply hmem]
              exact .submissions ((hfetches.sent _ rfl).mono (List.subset_append_left _ _))

end Requests

section Results

variable {py : Python} {settings : Settings} {fetched : Fetched} {ticker : String}

theorem mem_read_articles {total : ℕ} {articles : List JSONObject} :
    ∀ {position : ℕ} {items : List NewsItem},
      read_articles py ticker total position articles = .ok items → ∀ item ∈ items,
        ∃ index article, articles[index]? = some article ∧
          read_article py ticker total (position + index) article = .ok item := by
  induction articles with
  | nil =>
      intro position items h item hmem
      cases h
      cases hmem
  | cons article rest ih =>
      intro position items h item hmem
      obtain ⟨first, hfirst, h⟩ := bind_eq_ok.mp h
      obtain ⟨others, hothers, h⟩ := bind_eq_ok.mp h
      cases h
      rcases List.mem_cons.mp hmem with rfl | hmem
      · exact ⟨0, article, rfl, hfirst⟩
      · obtain ⟨index, other, hother, hitem⟩ := ih hothers item hmem
        refine ⟨index + 1, other, hother, ?_⟩
        rwa [Nat.add_assoc, Nat.add_comm 1 index] at hitem

theorem get_financial_news_cases (hmock : settings.allow_mock_data = false) (max_articles : ℤ) :
    get_financial_news py settings fetched ticker max_articles = .list [] ∨
      ∃ articles items, fetched.fetch_newsapi (strip (py.upper ticker)) = .ok articles ∧
        read_articles py (strip (py.upper ticker)) (slice_to max_articles articles).length 0
          (slice_to max_articles articles) = .ok items ∧
        get_financial_news py settings fetched ticker max_articles =
          .list (items.map fun item => .dict item.entries) := by
  unfold get_financial_news
  simp only [hmock, Bool.false_and, Bool.false_eq_true, if_false]
  split
  · exact .inl rfl
  · split
    · next result hresult =>
      obtain ⟨articles, harticles, hresult⟩ := bind_eq_ok.mp hresult
      obtain ⟨items, hitems, hresult⟩ := bind_eq_ok.mp hresult
      cases hresult
      exact .inr ⟨articles, items, harticles, hitems, rfl⟩
    · exact .inl rfl

theorem get_macro_indicators_cases (hmock : settings.allow_mock_data = false) :
    get_macro_indicators settings fetched = .list [] ∨
      ∃ indicators, get_macro_indicators settings fetched = macro_list indicators ∧
        ∀ indicator ∈ indicators, ∃ function indicate number, (function, indicate) ∈ INDICATORS ∧
          fetched.fetch_indicator function = .ok (some number) ∧ indicator = indicate number := by
  unfold get_macro_indicators
  simp only [hmock, Bool.false_eq_true, if_false]
  split
  · exact .inl rfl
  · split
    · next result hresult =>
      obtain ⟨cpi, hcpi, hresult⟩ := bind_eq_ok.mp hresult
      obtain ⟨federal_funds, hfederal_funds, hresult⟩ := bind_eq_ok.mp hresult
      obtain ⟨real_gdp, hreal_gdp, hresult⟩ := bind_eq_ok.mp hresult
      rw [if_neg (by simp [hmock])] at hresult
      cases hresult
      refine .inr ⟨_, rfl, fun indicator hmem => ?_⟩
      simp only [List.mem_append, Option.mem_toList, Option.map_eq_some_iff] at hmem
      obtain (⟨number, rfl, rfl⟩ | ⟨number, rfl, rfl⟩) | ⟨number, rfl, rfl⟩ := hmem
      · exact ⟨_, _, number, List.mem_cons_self, hcpi, rfl⟩
      · exact ⟨_, _, number, List.mem_cons_of_mem _ List.mem_cons_self, hfederal_funds, rfl⟩
      · exact ⟨_, _, number, by simp [INDICATORS], hreal_gdp, rfl⟩
    · exact .inl rfl

theorem get_sec_filing_summary_cases (hmock : settings.allow_mock_data = false) :
    (∃ message, get_sec_filing_summary py settings fetched ticker = error_result message) ∨
      ∃ cik filing, fetched.edgar_cik_lookup (strip (py.upper ticker)) = .ok (some cik) ∧
        fetched.fetch_recent_filing_meta cik = .ok (some filing) ∧
        get_sec_filing_summary py settings fetched ticker = .dict (filing_summary cik filing) := by
  unfold get_sec_filing_summary
  simp only [hmock]
  split
  · next result hresult =>
    obtain ⟨cik, hcik, hresult⟩ := bind_eq_ok.mp hresult
    split at hresult
    · cases hresult
      exact .inl ⟨_, rfl⟩
    · cases hresult
      exact .inl ⟨_, rfl⟩
    · obtain ⟨filing, hfiling, hresult⟩ := bind_eq_ok.mp hresult
      split at hresult
      · cases hresult
        exact .inl ⟨_, rfl⟩
      · cases hresult
        exact .inr ⟨_, _, hcik, hfiling, rfl⟩
  · exact .inl ⟨_, rfl⟩

-- What the screening leaves of a value.
def Passes (py : Python) (settings : Settings) (value record : JSONValue) : Prop :=
  sanitize_tool_result py settings.max_external_content_chars settings.prompt_injection_policy
    value = .ok record

theorem Passes.eq_dict {entries : JSONObject} {result : JSONValue}
    (h : Passes py settings (.dict entries) result) : ∃ sanitized, result = .dict sanitized := by
  rw [Passes, sanitize_tool_result] at h
  obtain ⟨kept, -, h⟩ := bind_eq_ok.mp h
  obtain ⟨-, rfl⟩ := bound_serialized_eq_ok.mp h
  exact ⟨_, rfl⟩

theorem Passes.dict {entries : JSONObject} {result record : JSONValue}
    (h : Passes py settings (.dict entries) result) (hrecord : record ∈ records result) :
    record = result := by
  obtain ⟨sanitized, rfl⟩ := h.eq_dict
  exact List.mem_singleton.mp hrecord

theorem Passes.list {items : List JSONValue} {result record : JSONValue}
    (h : Passes py settings (.list items) result) (hrecord : record ∈ records result) :
    ∃ item ∈ items, Passes py settings item record := by
  rw [Passes, sanitize_tool_result] at h
  obtain ⟨kept, hkept, h⟩ := bind_eq_ok.mp h
  obtain ⟨-, rfl⟩ := bound_serialized_eq_ok.mp h
  obtain ⟨item, hmem, hitem⟩ :=
    partner_of_mem (sanitized_items (fun _ _ _ hresult => hresult) hkept) hrecord
  exact ⟨item, List.mem_of_mem_take hmem, hitem⟩

theorem Passes.error {message : String} {result : JSONValue}
    (h : Passes py settings (error_result message) result) : is_error result = true := by
  obtain ⟨sanitized, rfl⟩ := h.eq_dict
  exact error_sanitized h

end Results

section Drawn

variable (py : Python) (settings : Settings)

-- The record of a tool is what the screening leaves of what the tool reads from the answers
-- to its requests, those for the ticker that it was called with.
inductive Drawn (trace : LiveTrace) (args : JSONObject) : Tool → JSONValue → Prop
  | market {arguments : Arguments} {raw : JSONObject} {analysis : TickerAnalysis}
      {record : JSONValue} (harguments : py.read_arguments .get_market_data args = .ok arguments)
      (hraw : ReadFrom trace (· = overview_request settings (strip (py.upper arguments.ticker)))
        true to_dict raw)
      (hanalysis : read_overview py (strip (py.upper arguments.ticker)) raw = .ok analysis)
      (hrecord : Passes py settings (.dict analysis.entries) record) :
      Drawn trace args .get_market_data record
  | news {arguments : Arguments} {articles : List JSONObject} {position : ℕ}
      {article : JSONObject} {item : NewsItem} {record : JSONValue}
      (harguments : py.read_arguments .get_financial_news args = .ok arguments)
      (harticles : ReadFrom trace (AsksForNews settings (strip (py.upper arguments.ticker)))
        true read_newsapi articles)
      (harticle : (slice_to (arguments.max_articles.getD 8) articles)[position]? = some article)
      (hitem : read_article py (strip (py.upper arguments.ticker))
        (slice_to (arguments.max_articles.getD 8) articles).length position article = .ok item)
      (hrecord : Passes py settings (.dict item.entries) record) :
      Drawn trace args .get_financial_news record
  | indicator {function : String} {indicate : PyFloat → MacroIndicator} {number : PyFloat}
      {record : JSONValue} (hindicator : (function, indicate) ∈ INDICATORS)
      (hnumber : ReadFrom trace (· = indicator_request settings function) true
        (read_indicator py) (some number))
      (hrecord : Passes py settings (.dict (indicate number).entries) record) :
      Drawn trace args .get_macro_indicators record
  | filing {arguments : Arguments} {cik : String} {filing : FilingMeta} {record : JSONValue}
      (harguments : py.read_arguments .get_sec_filing_summary args = .ok arguments)
      (hcik : ReadFrom trace (· = tickers_request) false
        (read_cik py (strip (py.upper arguments.ticker))) (some cik))
      (hfiling : ReadFrom trace (· = submissions_request cik) false read_submissions
        (some filing))
      (hrecord : Passes py settings (.dict (filing_summary cik filing)) record) :
      Drawn trace args .get_sec_filing_summary record

-- The tool has given the record in this execution.
def Yields (trace : AgentTrace) (args : JSONObject) (tool : Tool) (record : JSONValue) : Prop :=
  ∃ result, Produced py settings trace tool args result ∧ is_error result = false ∧
    record ∈ records result

variable {py settings} {trace : LiveTrace} {args : JSONObject} {fetched : Fetched}

theorem drawn_of_invoke (hmock : settings.allow_mock_data = false) {tool : Tool}
    {raw result record : JSONValue} (hinvoke : tool.invoke py settings args fetched = .ok raw)
    (hanswers : FromAnswers py settings trace fetched) (hscreened : Passes py settings raw result)
    (herror : is_error result = false) (hrecord : record ∈ records result) :
    Drawn py settings trace args tool record := by
  unfold Tool.invoke at hinvoke
  split at hinvoke
  · cases hinvoke
  · next arguments harguments =>
    cases tool with
    | get_market_data =>
        cases hinvoke
        rcases get_market_data_cases py fetched arguments.ticker hmock with
          ⟨message, hmessage⟩ | ⟨sent, analysis, -, hsent, -, hanalysis, hdict⟩
        · rw [hmessage] at hscreened
          rw [hscreened.error] at herror
          cases herror
        · rw [hdict] at hscreened
          obtain rfl := hscreened.dict hrecord
          exact .market harguments (hanswers.overview _ _ hsent) hanalysis hscreened
    | get_financial_news =>
        cases hinvoke
        rcases @get_financial_news_cases py settings fetched arguments.ticker hmock
          (arguments.max_articles.getD 8) with hnone | ⟨articles, items, harticles, hitems, hlist⟩
        · rw [hnone] at hscreened
          obtain ⟨item, hmem, -⟩ := hscreened.list hrecord
          cases hmem
        · rw [hlist] at hscreened
          obtain ⟨value, hvalue, hscreened⟩ := hscreened.list hrecord
          obtain ⟨item, hmem, rfl⟩ := List.mem_map.mp hvalue
          obtain ⟨position, article, harticle, hitem⟩ := mem_read_articles hitems item hmem
          rw [Nat.zero_add] at hitem
          exact .news harguments (hanswers.news _ _ harticles) harticle hitem hscreened
    | get_macro_indicators =>
        cases hinvoke
        rcases @get_macro_indicators_cases settings fetched hmock with
          hnone | ⟨indicators, hlist, hindicators⟩
        · rw [hnone] at hscreened
          obtain ⟨item, hmem, -⟩ := hscreened.list hrecord
          cases hmem
        · rw [hlist] at hscreened
          obtain ⟨value, hvalue, hscreened⟩ := hscreened.list hrecord
          obtain ⟨indicator, hmem, rfl⟩ := List.mem_map.mp hvalue
          obtain ⟨function, indicate, number, hfunction, hnumber, rfl⟩ :=
            hindicators indicator hmem
          exact .indicator hfunction (hanswers.indicator _ _ hnumber) hscreened
    | get_sec_filing_summary =>
        cases hinvoke
        rcases @get_sec_filing_summary_cases py settings fetched arguments.ticker hmock with
          ⟨message, hmessage⟩ | ⟨cik, filing, hcik, hfiling, hdict⟩
        · rw [hmessage] at hscreened
          rw [hscreened.error] at herror
          cases herror
        · rw [hdict] at hscreened
          obtain rfl := hscreened.dict hrecord
          exact .filing harguments (hanswers.cik _ _ hcik) (hanswers.filing _ _ hfiling) hscreened

end Drawn

section Runs

variable {py : Python} {settings : Settings} {tenacity : Tenacity} {above : AgentTrace}
  {below : LiveTrace}

-- What has been gathered are records of the tools.
def Yielded (py : Python) (settings : Settings) (trace : AgentTrace) (gathered : Gathered) :
    Prop :=
  ∀ entry ∈ gathered.data, ∃ args, Yields py settings trace args entry.1 entry.2

theorem Yields.mono {trace later : AgentTrace} {args : JSONObject} {tool : Tool}
    {record : JSONValue} (h : Yields py settings trace args tool record) (hsub : trace ⊆ later) :
    Yields py settings later args tool record := by
  obtain ⟨result, hproduced, hresult⟩ := h
  exact ⟨result, hproduced.mono hsub, hresult⟩

theorem yielded_invariant : LoopInvariant py settings (Yielded py settings) where
  answered asked response model_calls h entry hentry := by
    obtain ⟨args, hyields⟩ := h entry hentry
    exact ⟨args, hyields.mono (List.subset_append_left _ _)⟩
  recorded {past trace tc gathered gathered'} h hturn entry hentry := by
    obtain ⟨result, sources, timestamp, hsound, -, rfl⟩ := hturn
    have hplace : entry ∈ gathered.data ∨ find_tool tc.name = some entry.1 ∧
        is_error result = false ∧ entry.2 ∈ records result := mem_data_classify hentry
    rcases hplace with hold | ⟨htool, herror, hrecord⟩
    · obtain ⟨args, hyields⟩ := h entry hold
      exact ⟨args, hyields.mono (List.subset_append_left _ _)⟩
    · obtain ⟨tool, htool', hproduced⟩ := hsound herror
      obtain rfl : tool = entry.1 := Option.some.inj (htool'.symm.trans htool)
      exact ⟨tc.args, result, hproduced.mono (List.subset_append_right _ _), herror, hrecord⟩

-- How an operation of the agents is carried out.
def CarriedOut (py : Python) (settings : Settings) (exchange : AgentExchange)
    (part : LiveTrace) : Prop :=
  match exchange with
  | ⟨.submit _ _, run⟩ => ToolFetched py settings part run.fetched
  | ⟨op, reply⟩ => part = [⟨.agent op, reply⟩]

theorem live_ensures (op : AgentOp) :
    (op.live py settings tenacity).Ensures fun part result =>
      ∃ reply, result = .ok reply ∧ CarriedOut py settings ⟨op, reply⟩ part := by
  cases op with
  | submit tool args =>
      refine Program.ensures_bind ((tool_fetch_ensures py settings tenacity tool args).mono ?_)
      rintro part result ⟨fetched, rfl, hfetched⟩
      refine Program.ensures_call fun duration => Program.ensures_ret ⟨_, rfl, ?_, ?_, ?_⟩
      · have hcounted := hfetched.counted
        rw [List.countP_append]
        simpa [is_get] using hcounted
      · intro request reply hmem
        rcases List.mem_append.mp hmem with hmem | hmem
        · exact (hfetched.expected request reply hmem).mono (List.subset_append_left _ _)
        · cases List.mem_singleton.mp hmem
      · exact hfetched.answers.mono (List.subset_append_left _ _)
  | _ => exact Program.ensures_call fun reply => Program.ensures_ret ⟨reply, rfl, rfl⟩

def request_cost (exchange : AgentExchange) : ℕ :=
  match exchange.op with
  | .submit _ _ => 9
  | _ => 0

theorem CarriedOut.counted {exchange : AgentExchange} {part : LiveTrace}
    (h : CarriedOut py settings exchange part) : part.countP is_get ≤ request_cost exchange := by
  obtain ⟨op, reply⟩ := exchange
  cases op with
  | submit tool args => exact ToolFetched.counted h
  | _ =>
      cases h
      simp [is_get, request_cost]

theorem request_cost_sum (trace : AgentTrace) :
    (trace.map request_cost).sum = 9 * (executed trace).length := by
  induction trace with
  | nil => rfl
  | cons exchange rest ih =>
      obtain ⟨op, reply⟩ := exchange
      rw [List.map_cons, List.sum_cons, ih]
      cases op with
      | submit tool args =>
          simp only [request_cost, executed, execution, List.filterMap_cons, List.length_cons]
          omega
      | _ => exact Nat.zero_add _

-- Every request is one that a tool makes.
theorem expected_of_carried (h : Carried (CarriedOut py settings) above below) :
    ∀ request reply, ⟨.get request, reply⟩ ∈ below → Expected py settings below request := by
  intro request reply hmem
  obtain ⟨⟨op, answer⟩, habove, part, hpart, hsub, hcarried⟩ := h.origin _ hmem
  cases op with
  | submit tool args => exact (hcarried.expected request reply hpart).mono hsub
  | _ =>
      cases hcarried
      cases List.mem_singleton.mp hpart

theorem drawn_of_yields (hmock : settings.allow_mock_data = false)
    (h : Carried (CarriedOut py settings) above below) {args : JSONObject} {tool : Tool}
    {record : JSONValue} (hyields : Yields py settings above args tool record) :
    Drawn py settings below args tool record := by
  obtain ⟨result, ⟨run, raw, hmem, -, hinvoke, hscreened⟩, herror, hrecord⟩ := hyields
  obtain ⟨part, hsub, hfetched⟩ := h.part _ hmem
  exact drawn_of_invoke hmock hinvoke (hfetched.answers.mono hsub) hscreened herror hrecord

end Runs

-- What the research asks of the providers and what it makes of their answers: at most nine
-- requests for each of the tool calls that it may make, and none but those that the tools are
-- for; and without mock data everything that it returns, and every source that it names, is
-- drawn from answers that came in this run.
theorem research_from_answers (tenacity : Tenacity) (py : Python) (settings : Settings)
    (state : AgentState) :
    (live_research_node py settings tenacity state).Ensures fun trace result =>
      trace.countP is_get ≤ 9 * settings.max_tool_calls_per_job ∧
      (∀ request reply, ⟨.get request, reply⟩ ∈ trace → Expected py settings trace request) ∧
      (settings.allow_mock_data = false → ∀ update, result = .ok update →
        (∀ analysis ∈ update.ticker_analyses, ∃ args,
          Drawn py settings trace args .get_market_data (.dict analysis)) ∧
        (∀ item ∈ update.news_items, ∃ args,
          Drawn py settings trace args .get_financial_news item) ∧
        (∀ indicator ∈ update.macro_indicators, ∃ args,
          Drawn py settings trace args .get_macro_indicators indicator) ∧
        ∀ source ∈ update.sources, ∃ tool args record retrieved_at,
          Drawn py settings trace args tool record ∧
          source = source_record py tool args record retrieved_at) := by
  have hyielded : ∀ past depth_instruction,
      Yielded py settings past (.start state depth_instruction) :=
    fun past depth_instruction entry hentry => by cases hentry
  have hprovenance : ∀ past depth_instruction,
      Provenance py settings past (.start state depth_instruction) :=
    fun past depth_instruction =>
      ⟨(fun entry hentry => by cases hentry), fun source hsource => by cases hsource⟩
  refine (Program.ensures_lowered live_ensures ((research_node_ensures state).and
    ((yielded_invariant.research_node hyielded).and
      (provenance_invariant.research_node hprovenance)))).mono ?_
  rintro below result ⟨above, ⟨⟨depth_instruction, hbounded, -⟩, hdata, hsources⟩, hcarried⟩
  refine ⟨?_, expected_of_carried hcarried, fun hmock update hupdate => ?_⟩
  · have hexecuted := hbounded.executed
    simp only [Gathered.start, List.length_nil, Nat.sub_zero] at hexecuted
    have hwithin := executed_within hexecuted
    have hcounted := hcarried.countP_le fun exchange part => CarriedOut.counted
    rw [request_cost_sum] at hcounted
    omega
  · obtain ⟨gathered, rfl, hyields⟩ := hdata update hupdate
    refine ⟨fun analysis hmem => ?_, fun item hmem => ?_, fun indicator hmem => ?_, ?_⟩
    · obtain ⟨args, hargs⟩ := hyields _ (mem_data.mpr (.inl ⟨analysis, hmem, rfl⟩))
      exact ⟨args, drawn_of_yields hmock hcarried hargs⟩
    · obtain ⟨args, hargs⟩ := hyields _ (mem_data.mpr (.inr (.inl ⟨item, hmem, rfl⟩)))
      exact ⟨args, drawn_of_yields hmock hcarried hargs⟩
    · obtain ⟨args, hargs⟩ := hyields _ (mem_data.mpr (.inr (.inr ⟨indicator, hmem, rfl⟩)))
      exact ⟨args, drawn_of_yields hmock hcarried hargs⟩
    · intro source hmem
      obtain ⟨gathered', hsame, hcited⟩ := hsources _ hupdate
      have hmem' : source ∈ gathered'.sources := by
        rw [show gathered'.sources = gathered'.update.sources from rfl, ← hsame]
        exact hmem
      obtain ⟨tool, args, record, result, retrieved_at, hproduced, herror, hrecord, -, hsource⟩ :=
        hcited.cited source hmem'
      exact ⟨tool, args, record, retrieved_at,
        drawn_of_yields hmock hcarried ⟨result, hproduced, herror, hrecord⟩, hsource⟩

def macro_answer : JSONValue := .dict [("data", .list [.dict [("value", .float 3)]])]

-- The first request times out, the second is answered, and for the others there are no data.
def live_script (answers : List AIMessage × ℕ) :
    (op : LiveOp) → op.Reply × (List AIMessage × ℕ)
  | .get _ =>
      match answers.2 with
      | 0 => (.error "timed out", answers.1, 1)
      | 1 => (.ok ⟨.ok (), .ok macro_answer⟩, answers.1, 2)
      | _ => (.ok ⟨.ok (), .ok (.dict [])⟩, answers)
  | .since => ("", answers)
  | .duration => (1, answers)
  | .agent op =>
      ((scripted .nothing answers.1 op).1, (scripted .nothing answers.1 op).2, answers.2)

def macro_call : AIMessage :=
  { content := .text "", tool_calls := [⟨"get_macro_indicators", [], none⟩] }

def macro_run : LiveTrace × Except AgentError AgentUpdate :=
  (live_research_node .small .live .plain .small).record live_script
    ([macro_call, { content := .text "" }], 0)

theorem macro_run_counts : macro_run.1.countP is_get = 4 ∧
    macro_run.2.toOption.map (·.macro_indicators.length) = some 1 := by
  decide +kernel

theorem research_from_answers_retried : ∃ update, macro_run.2 = .ok update ∧
    macro_run.1.countP is_get = 4 ∧ update.macro_indicators.length = 1 ∧
    ∀ indicator ∈ update.macro_indicators, ∃ args,
      Drawn .small .live macro_run.1 args .get_macro_indicators indicator := by
  have hexec : (live_research_node .small .live .plain .small).Executes macro_run.1 macro_run.2 :=
    Program.executes_record live_script _ _
  have hdrawn := research_from_answers .plain .small .live .small macro_run.1 macro_run.2 hexec
  obtain ⟨hcounted, hlength⟩ := macro_run_counts
  cases hresult : macro_run.2 with
  | error error =>
      rw [hresult] at hlength
      cases hlength
  | ok update =>
      rw [hresult] at hlength
      exact ⟨update, rfl, hcounted, Option.some.inj hlength, (hdrawn.2.2 rfl update hresult).2.2.1⟩

end ResearchAgent.Research
