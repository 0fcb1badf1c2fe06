import ResearchAgent.Research.Calls
import ResearchAgent.Research.Screening

namespace ResearchAgent.Research

open Library JobQueue Service

section Loop

-- A property of the loop's variables and of the execution so far, which every answer of a
-- model and every turn of the loop over the tool calls keep.
structure LoopInvariant (py : Python) (settings : Settings)
    (inv : AgentTrace → Gathered → Prop) : Prop where
  answered {past : AgentTrace} {gathered : Gathered} (asked : AgentTrace) (response : AIMessage)
    (model_calls : ℕ) (h : inv past gathered) :
    inv (past ++ asked) (gathered.answered response model_calls)
  recorded {past trace : AgentTrace} {tc : ToolCall} {gathered gathered' : Gathered}
    (h : inv past gathered) (hturn : Recorded py settings tc gathered trace gathered') :
    inv (past ++ trace) gathered'

namespace LoopInvariant

variable {py : Python} {settings : Settings} {inv : AgentTrace → Gathered → Prop}

theorem handle_tool_calls (hinv : LoopInvariant py settings inv) (calls : List ToolCall) :
    ∀ past gathered, inv past gathered →
      (handle_tool_calls py settings calls gathered).Ensures fun trace result =>
        ∃ gathered', result = .ok gathered' ∧ inv (past ++ trace) gathered' := by
  induction calls with
  | nil =>
      intro past gathered h
      refine Program.ensures_ret ⟨gathered, rfl, ?_⟩
      rwa [List.append_nil]
  | cons tc rest ih =>
      intro past gathered h
      unfold Research.handle_tool_calls
      split
      · refine Program.ensures_ret ⟨gathered, rfl, ?_⟩
        rwa [List.append_nil]
      · refine Program.ensures_bind (handle_tool_call_recorded.mono ?_)
        rintro first result ⟨-, -, middle, rfl, hturn⟩
        refine (ih (past ++ first) middle (hinv.recorded h hturn)).mono ?_
        rintro second result ⟨gathered', rfl, hrest⟩
        refine ⟨gathered', rfl, ?_⟩
        rwa [← List.append_assoc]

theorem react (hinv : LoopInvariant py settings inv) (llms : List Provider) (left : ℕ) :
    ∀ past gathered, inv past gathered →
      (react py settings llms left gathered).Ensures fun trace result =>
        ∀ gathered', result = .ok gathered' → inv (past ++ trace) gathered' := by
  induction left with
  | zero =>
      intro past gathered h
      refine Program.ensures_ret fun gathered' hresult => ?_
      cases hresult
      rwa [List.append_nil]
  | succ left ih =>
      intro past gathered h
      unfold Research.react
      split
      · refine Program.ensures_bind ((ask_candidates_ensures true gathered.messages llms 0
          gathered.model_calls).mono ?_)
        rintro first result ⟨response, model_calls, rfl, -⟩
        cases response with
        | none => exact Program.ensures_raise fun gathered' hresult => by cases hresult
        | some response =>
            have hfirst := hinv.answered first response model_calls h
            show Program.Ensures (if _ then _ else _) _
            split
            · refine Program.ensures_ret fun gathered' hresult => ?_
              cases hresult
              rwa [List.append_nil]
            · refine Program.ensures_bind
                ((hinv.handle_tool_calls response.tool_calls _ _ hfirst).mono ?_)
              rintro second result ⟨middle, rfl, hsecond⟩
              refine (ih _ middle hsecond).mono fun third result hthird gathered' hresult => ?_
              rw [← List.append_assoc, ← List.append_assoc]
              exact hthird gathered' hresult
      · refine Program.ensures_ret fun gathered' hresult => ?_
        cases hresult
        rwa [List.append_nil]

theorem research_node (hinv : LoopInvariant py settings inv) {state : AgentState}
    (hstart : ∀ past depth_instruction, inv past (.start state depth_instruction)) :
    (research_node py settings state).Ensures fun trace result => ∀ update, result = .ok update →
      ∃ gathered, update = gathered.update ∧ inv trace gathered := by
  refine Program.ensures_bind ((build_llm_candidates_ensures py settings).mono ?_)
  rintro first result -
  cases result with
  | error error => exact fun update hresult => by cases hresult
  | ok llms =>
      dsimp only
      cases DEPTH_INSTRUCTION.lookup state.research_depth with
      | none => exact Program.ensures_raise fun update hresult => by cases hresult
      | some depth_instruction =>
          refine Program.ensures_bind
            ((hinv.react llms _ first _ (hstart first depth_instruction)).mono ?_)
          intro second result hsecond
          cases result with
          | error error => exact fun update hresult => by cases hresult
          | ok gathered =>
              refine Program.ensures_ret fun update hresult => ?_
              cases hresult
              rw [List.append_nil]
              exact ⟨gathered, rfl, hsecond gathered rfl⟩

end LoopInvariant

end Loop

section Shapes

-- What a tool gives: a list, which may be empty, or a dictionary with something in it.
inductive Shaped : JSONValue → Prop
  | list (items : List JSONValue) : Shaped (.list items)
  | dict (entry : String × JSONValue) (rest : JSONObject) : Shaped (.dict (entry :: rest))

variable {py : Python} {settings : Settings} {fetched : Fetched} {ticker : String}

theorem shaped_entries (analysis : TickerAnalysis) : Shaped (.dict analysis.entries) := .dict _ _

theorem shaped_error_result (message : String) : Shaped (error_result message) := .dict _ _

theorem shaped_request_market_data {result : JSONValue}
    (h : request_market_data py settings fetched ticker = .ok result) : Shaped result := by
  obtain ⟨raw, -, h⟩ := bind_eq_ok.mp h
  split at h
  · split at h <;> cases h
    · exact shaped_entries _
    · exact shaped_error_result _
  · obtain ⟨analysis, -, h⟩ := bind_eq_ok.mp h
    cases h
    exact shaped_entries analysis

theorem shaped_get_market_data : Shaped (get_market_data py settings fetched ticker) := by
  unfold get_market_data
  dsimp only
  split
  · split
    · exact shaped_entries _
    · exact shaped_error_result _
  · split
    · next hresult => exact shaped_request_market_data hresult
    · split
      · exact shaped_entries _
      · exact shaped_error_result _

theorem shaped_get_financial_news (max_articles : ℤ) :
    Shaped (get_financial_news py settings fetched ticker max_articles) := by
  have hmock (condition : Bool) :
      Shaped (if condition then mock_news max_articles else .list []) := by
    cases condition <;> exact .list _
  unfold get_financial_news
  dsimp only
  split
  · exact hmock _
  · split
    · next result hresult =>
      obtain ⟨articles, -, hresult⟩ := bind_eq_ok.mp hresult
      obtain ⟨items, -, hresult⟩ := bind_eq_ok.mp hresult
      cases hresult
      exact .list _
    · exact hmock _

theorem shaped_get_macro_indicators : Shaped (get_macro_indicators settings fetched) := by
  have hmock : Shaped (if settings.allow_mock_data then macro_list MOCK_MACRO else .list []) := by
    split <;> exact .list _
  unfold get_macro_indicators
  split
  · exact hmock
  · split
    · next result hresult =>
      obtain ⟨cpi, -, hresult⟩ := bind_eq_ok.mp hresult
      obtain ⟨federal_funds, -, hresult⟩ := bind_eq_ok.mp hresult
      obtain ⟨real_gdp, -, hresult⟩ := bind_eq_ok.mp hresult
      split at hresult <;> cases hresult <;> exact .list _
    · exact hmock

theorem mock_filing_ne_nil {filing : JSONObject} (h : MOCK_FILINGS.lookup ticker = some filing) :
    filing ≠ [] := by
  obtain ⟨front, back, hsplit, -⟩ := List.lookup_eq_some_iff.mp h
  have hmem : (ticker, filing) ∈ MOCK_FILINGS := by simp [hsplit]
  obtain ⟨-, rfl⟩ := Prod.mk.inj (List.mem_singleton.mp hmem)
  exact List.cons_ne_nil _ _

theorem shaped_get_sec_filing_summary :
    Shaped (get_sec_filing_summary py settings fetched ticker) := by
  unfold get_sec_filing_summary
  dsimp only
  split
  · next result hresult =>
    obtain ⟨cik, -, hresult⟩ := bind_eq_ok.mp hresult
    split at hresult
    · cases hresult
      exact shaped_error_result _
    · cases hresult
      exact shaped_error_result _
    · obtain ⟨filing, -, hresult⟩ := bind_eq_ok.mp hresult
      split at hresult <;> cases hresult
      · exact shaped_error_result _
      · exact .dict _ _
  · split
    · next filing _ hfiling =>
      obtain ⟨entry, rest, rfl⟩ := List.exists_cons_of_ne_nil (mock_filing_ne_nil hfiling)
      exact .dict entry rest
    · exact shaped_error_result _

-- Whatever its requests come back with, a tool gives nothing else.
theorem shaped_invoke {tool : Tool} {args : JSONObject} {raw : JSONValue}
    (h : tool.invoke py settings args fetched = .ok raw) : Shaped raw := by
  unfold Tool.invoke at h
  split at h
  · cases h
  · cases tool <;> cases h
    · exact shaped_get_market_data
    · exact shaped_get_financial_news _
    · exact shaped_get_macro_indicators
    · exact shaped_get_sec_filing_summary

theorem collect_ne_nil {entries : JSONObject} (h : entries ≠ []) : collect entries ≠ [] := by
  obtain ⟨front, last, rfl⟩ := List.eq_nil_or_concat entries |>.resolve_left h
  rw [List.concat_eq_append, collect_concat]
  intro hnil
  have hmem : last.1 ∈ (assign last.1 last.2 (collect front)).map Prod.fst :=
    (mem_keys_assign ..).mpr (.inl rfl)
  rw [hnil] at hmem
  cases hmem

-- The screening keeps the shape: what it cuts off a dictionary is never all of it.
theorem shaped_sanitized {max_chars : ℕ} {policy : InjectionPolicy} {raw result : JSONValue}
    (h : sanitize_tool_result py max_chars policy raw = .ok result) (hraw : Shaped raw) :
    Shaped result := by
  refine sanitize_rule (fun value result => Shaped value → Shaped result) ?_ ?_ ?_ ?_ h hraw
  · exact fun value _ _ _ hvalue => hvalue
  · exact fun text result _ hvalue => by cases hvalue
  · exact fun items sanitized _ _ _ => .list sanitized
  · intro entries sanitized hentries _ hvalue
    have hsanitized : sanitized ≠ [] := by
      cases hvalue with
      | dict entry rest =>
          cases hentries
          exact List.cons_ne_nil _ _
    obtain ⟨entry, rest, hcollected⟩ := List.exists_cons_of_ne_nil (collect_ne_nil hsanitized)
    rw [hcollected]
    exact .dict entry rest

theorem shaped_produced {trace : AgentTrace} {tool : Tool} {args : JSONObject}
    {result : JSONValue} (h : Produced py settings trace tool args result) : Shaped result := by
  obtain ⟨run, raw, -, -, hinvoke, hsanitized⟩ := h
  exact shaped_sanitized hsanitized (shaped_invoke hinvoke)

-- A result that has a record counts as something.
theorem truthy_of_shaped {result record : JSONValue} (h : Shaped result)
    (hrecord : record ∈ records result) : truthy result = true := by
  cases h with
  | list items => cases items with
    | nil => cases hrecord
    | cons item rest => rfl
  | dict entry rest => rfl

end Shapes

section Sources

-- What has been gathered, each record with the tool that it comes from.
def Gathered.data (gathered : Gathered) : List (Tool × JSONValue) :=
  gathered.ticker_analyses.map (fun analysis => (.get_market_data, .dict analysis)) ++
    gathered.news_items.map (fun item => (.get_financial_news, item)) ++
    gathered.macro_indicators.map (fun indicator => (.get_macro_indicators, indicator))

variable (py : Python) (settings : Settings)

-- One of the sources is of the tool's type and has the digest of this very record.
def Covered (sources : List SourceRecord) (tool : Tool) (record : JSONValue) : Prop :=
  ∃ source ∈ sources, source.source_type = tool.source_type ∧
    source.content_sha256 = content_digest py record

-- The source is that of a record, in a result that is no error, which the tool has produced
-- in this execution, at a call that is in the log.
def Cites (trace : AgentTrace) (log : List JSONValue) (tool : Tool) (args : JSONObject)
    (record : JSONValue) (source : SourceRecord) : Prop :=
  ∃ result retrieved_at, Produced py settings trace tool args result ∧ is_error result = false ∧
    record ∈ records result ∧ (tool.name, args) ∈ logged log ∧
    source = source_record py tool args record retrieved_at

-- All data have a source, and all sources are of records of the run.
structure Provenance (trace : AgentTrace) (gathered : Gathered) : Prop where
  covered : ∀ entry ∈ gathered.data, Covered py gathered.sources entry.1 entry.2
  cited : ∀ source ∈ gathered.sources, ∃ tool args record,
    Cites py settings trace gathered.tool_calls_log tool args record source

variable {py settings} {trace later : AgentTrace} {tc : ToolCall} {gathered gathered' : Gathered}

theorem Covered.mono {sources more : List SourceRecord} {tool : Tool} {record : JSONValue}
    (h : Covered py sources tool record) (hsub : sources ⊆ more) :
    Covered py more tool record := by
  obtain ⟨source, hmem, hsource⟩ := h
  exact ⟨source, hsub hmem, hsource⟩

theorem Cites.mono {log more : List JSONValue} {tool : Tool} {args : JSONObject}
    {record : JSONValue} {source : SourceRecord}
    (h : Cites py settings trace log tool args record source) (htrace : trace ⊆ later)
    (hlog : log ⊆ more) : Cites py settings later more tool args record source := by
  obtain ⟨result, retrieved_at, hproduced, herror, hrecord, hlogged, hsource⟩ := h
  exact ⟨result, retrieved_at, hproduced.mono htrace, herror, hrecord,
    List.filterMap_subset _ hlog hlogged, hsource⟩

theorem mem_data {entry : Tool × JSONValue} : entry ∈ gathered.data ↔
    (∃ analysis ∈ gathered.ticker_analyses, (.get_market_data, .dict analysis) = entry) ∨
      (∃ item ∈ gathered.news_items, (.get_financial_news, item) = entry) ∨
      ∃ indicator ∈ gathered.macro_indicators, (.get_macro_indicators, indicator) = entry := by
  simp only [Gathered.data, List.mem_append, List.mem_map, or_assoc]

-- What goes among the data is a record of a result of the tool called, which is no error.
theorem mem_data_classify {tool_name : String} {result : JSONValue} {entry : Tool × JSONValue}
    (h : entry ∈ (gathered.classify tool_name result).data) : entry ∈ gathered.data ∨
      find_tool tool_name = some entry.1 ∧ is_error result = false ∧ entry.2 ∈ records result := by
  unfold Gathered.classify at h
  split at h
  · next htool =>
    split at h
    · exact .inl h
    · next entries herror =>
      obtain ⟨analysis, hmem, rfl⟩ | hother := mem_data.mp h
      · rcases List.mem_append.mp hmem with hmem | hmem
        · exact .inl (mem_data.mpr (.inl ⟨analysis, hmem, rfl⟩))
        · obtain rfl := List.mem_singleton.mp hmem
          exact .inr ⟨htool, Bool.eq_false_iff.mpr herror, List.mem_singleton.mpr rfl⟩
      · exact .inl (mem_data.mpr (.inr hother))
  · next htool =>
    obtain hmarket | ⟨item, hmem, rfl⟩ | hmacro := mem_data.mp h
    · exact .inl (mem_data.mpr (.inl hmarket))
    · rcases List.mem_append.mp hmem with hmem | hmem
      · exact .inl (mem_data.mpr (.inr (.inl ⟨item, hmem, rfl⟩)))
      · exact .inr ⟨htool, rfl, hmem⟩
    · exact .inl (mem_data.mpr (.inr (.inr hmacro)))
  · next htool =>
    obtain hmarket | hnews | ⟨indicator, hmem, rfl⟩ := mem_data.mp h
    · exact .inl (mem_data.mpr (.inl hmarket))
    · exact .inl (mem_data.mpr (.inr (.inl hnews)))
    · rcases List.mem_append.mp hmem with hmem | hmem
      · exact .inl (mem_data.mpr (.inr (.inr ⟨indicator, hmem, rfl⟩)))
      · exact .inr ⟨htool, rfl, hmem⟩
  · exact .inl h

-- Each record of a result that is kept gets its source.
theorem Sourced.covered {result : JSONValue} {sources : List SourceRecord} {tool : Tool}
    {record : JSONValue} (h : Sourced py tc result sources)
    (htool : find_tool tc.name = some tool) (herror : is_error result = false)
    (hrecord : record ∈ records result) (hresult : truthy result = true) :
    Covered py sources tool record := by
  cases h with
  | nothing hnothing =>
      have hempty := hnothing tool htool herror
      rw [hresult] at hempty
      cases hempty
  | @kept other _ known succeeded nonempty each =>
      obtain rfl : tool = other := Option.some.inj (htool.symm.trans known)
      obtain ⟨i, hi, rfl⟩ := List.getElem_of_mem hrecord
      obtain ⟨hlength, hget⟩ := List.forall₂_iff_get.mp each
      obtain ⟨retrieved_at, hsource⟩ := hget i hi (by omega)
      exact ⟨_, List.get_mem _ _, by rw [hsource]; rfl, by rw [hsource]; rfl⟩

theorem provenance_invariant : LoopInvariant py settings (Provenance py settings) where
  answered asked response model_calls h := {
    covered := h.covered
    cited := fun source hmem => by
      obtain ⟨tool, args, record, hcites⟩ := h.cited source hmem
      exact ⟨tool, args, record, hcites.mono (List.subset_append_left _ _) (List.Subset.refl _)⟩ }
  recorded {past trace tc gathered gathered'} h hturn := by
    obtain ⟨result, sources, timestamp, hsound, hsourced, rfl⟩ := hturn
    constructor
    · intro entry hentry
      have hplace : entry ∈ gathered.data ∨ find_tool tc.name = some entry.1 ∧
          is_error result = false ∧ entry.2 ∈ records result := mem_data_classify hentry
      rcases hplace with hold | ⟨htool, herror, hrecord⟩
      · exact (h.covered entry hold).mono (List.subset_append_left _ _)
      · obtain ⟨tool, htool', hproduced⟩ := hsound herror
        have hresult := truthy_of_shaped (shaped_produced hproduced) hrecord
        exact (hsourced.covered htool herror hrecord hresult).mono
          (List.subset_append_right _ _)
    · intro source hmem
      rcases List.mem_append.mp hmem with hmem | hmem
      · obtain ⟨tool, args, record, hcites⟩ := h.cited source hmem
        exact ⟨tool, args, record,
          hcites.mono (List.subset_append_left _ _) (List.subset_append_left _ _)⟩
      · obtain ⟨tool, record, retrieved_at, htool, hproduced, herror, hrecord, hsource⟩ :=
          hsourced.stems hsound source hmem
        refine ⟨tool, tc.args, record, result, retrieved_at,
          hproduced.mono (List.subset_append_right _ _), herror, hrecord, ?_, hsource⟩
        rw [name_of_find_tool htool]
        simp [logged, logged_log_entry, ToolCall.key]

-- The id of a source says no more than the tool, the arguments and the content.
theorem source_id_congr (tool : Tool) {args args' : JSONObject} {record record' : JSONValue}
    (hargs : py.sorted_dumps (.dict args) = py.sorted_dumps (.dict args'))
    (hcontent : py.sorted_dumps record = py.sorted_dumps record') :
    source_id py tool args (content_digest py record) =
      source_id py tool args' (content_digest py record') := by
  have hdigest : content_digest py record = content_digest py record' :=
    congrArg py.sha256 hcontent
  have hseed (digest : String) :
      py.sorted_dumps (.dict [("tool", .str tool.name), ("args", .dict args),
          ("content_sha256", .str digest)]) =
        py.sorted_dumps (.dict [("tool", .str tool.name), ("args", .dict args'),
          ("content_sha256", .str digest)]) := by
    unfold Python.sorted_dumps at hargs ⊢
    rw [dumps, dumps]
    simp only [dump_entries, hargs]
  unfold source_id
  dsimp only
  rw [hdigest, hseed]

-- Whatever the models and the tools answer, each of the data that the research returns can be
-- cited, and no source is of anything else than what a logged call has given.
theorem data_have_sources (py : Python) (settings : Settings) (state : AgentState) :
    (research_node py settings state).Ensures fun trace result => ∀ update, result = .ok update →
      (∀ analysis ∈ update.ticker_analyses,
        Covered py update.sources .get_market_data (.dict analysis)) ∧
      (∀ item ∈ update.news_items, Covered py update.sources .get_financial_news item) ∧
      (∀ indicator ∈ update.macro_indicators,
        Covered py update.sources .get_macro_indicators indicator) ∧
      (∀ source ∈ update.sources, ∃ tool args record,
        Cites py settings trace update.tool_calls_log tool args record source) ∧
      ∀ tool args args' record record' source source',
        Cites py settings trace update.tool_calls_log tool args record source →
        Cites py settings trace update.tool_calls_log tool args' record' source' →
        py.sorted_dumps (.dict args) = py.sorted_dumps (.dict args') →
        py.sorted_dumps record = py.sorted_dumps record' →
        source.source_id = source'.source_id := by
  have hstart (past : AgentTrace) (depth_instruction : String) :
      Provenance py settings past (.start state depth_instruction) :=
    ⟨by simp [Gathered.data, Gathered.start], by simp [Gathered.start]⟩
  refine (provenance_invariant.research_node hstart).mono fun trace result h update hresult => ?_
  obtain ⟨gathered, rfl, hprovenance⟩ := h update hresult
  refine ⟨?_, ?_, ?_, hprovenance.cited, ?_⟩
  · intro analysis hmem
    exact hprovenance.covered _ (mem_data.mpr (.inl ⟨analysis, hmem, rfl⟩))
  · intro item hmem
    exact hprovenance.covered _ (mem_data.mpr (.inr (.inl ⟨item, hmem, rfl⟩)))
  · intro indicator hmem
    exact hprovenance.covered _ (mem_data.mpr (.inr (.inr ⟨indicator, hmem, rfl⟩)))
  · rintro tool args args' record record' _ _ ⟨_, _, -, -, -, -, rfl⟩ ⟨_, _, -, -, -, -, rfl⟩
      hargs hcontent
    exact source_id_congr tool hargs hcontent

end Sources

end ResearchAgent.Research
