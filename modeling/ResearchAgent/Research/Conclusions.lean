import ResearchAgent.Research.Budgets

namespace ResearchAgent.Research

open Library JobQueue Service

variable {py : Python} {settings : Settings} {trace : AgentTrace} {state : AgentState}

-- What a finished run comes to: a report grounded in the sources or an error, and no
-- source but from the tools of the run.
structure Concluded (py : Python) (settings : Settings) (trace : AgentTrace) (state : AgentState) :
    Prop where
  verdict : Verdict state.sources state.report state.error
  sources : ∀ source ∈ state.sources, Stems py settings trace source

-- A state in which nothing has been found out yet.
structure Blank (state : AgentState) : Prop where
  ticker_analyses : state.ticker_analyses = []
  news_items : state.news_items = []
  sources : state.sources = []
  report : state.report = none

section Routing

-- An error that a node sets is not empty, so it counts as one.
theorem has_error_of_error {message : String} (h : state.error = some message)
    (hmessage : message ≠ "") : has_error state = true := by
  unfold has_error
  rw [h]
  split
  · next hnone => cases hnone
  · next hempty => exact absurd (Option.some.inj hempty) hmessage
  · rfl

theorem gathered_error_ne_empty {gathered : Gathered} {message : String}
    (h : gathered.error = some message) : message ≠ "" := by
  unfold Gathered.error at h
  split at h
  · cases h
    decide
  · split at h <;> cases h
    decide

-- Without an error there are data to analyse.
theorem data_of_error_none {gathered : Gathered} (h : gathered.error = none) :
    (gathered.ticker_analyses.isEmpty && gathered.news_items.isEmpty) = false := by
  unfold Gathered.error at h
  split at h
  · cases h
  · next hdata => simpa using hdata

theorem route_of_gathered {gathered : Gathered} (h : Blank state) :
    (route_after_research (state.merge gathered.update) = .analyst_node ↔
      gathered.error = none) := by
  cases herror : gathered.error with
  | none =>
      have hdata := data_of_error_none herror
      have hmerged : (state.merge gathered.update).error = none := by
        simpa [AgentState.merge, Gathered.update] using herror
      refine iff_of_true ?_ rfl
      unfold route_after_research
      rw [if_neg (by simp [has_error, hmerged]), if_neg]
      simpa [AgentState.merge, Gathered.update, h.ticker_analyses, h.news_items] using hdata
  | some message =>
      have hmerged : (state.merge gathered.update).error = some message := by
        simpa [AgentState.merge, Gathered.update] using herror
      refine iff_of_false ?_ (by simp)
      unfold route_after_research
      rw [if_pos (has_error_of_error hmerged (gathered_error_ne_empty herror))]
      simp

end Routing

theorem analyse_ensures (state : AgentState) :
    (analyse py settings state).Ensures fun _ result => ∀ final, result = .ok final →
      final.sources = state.sources ∧ Verdict state.sources final.report final.error := by
  refine Program.ensures_bind ((analyst_node_ensures state).mono ?_)
  rintro trace result ⟨-, hreported⟩
  cases result with
  | error error => exact fun final h => by cases h
  | ok update =>
      refine Program.ensures_ret fun final h => ?_
      cases h
      obtain ⟨report, error, _, _, _, rfl, -, -, -, hverdict⟩ := hreported update rfl
      exact ⟨List.append_nil _, hverdict⟩

theorem research_ensures (h : Blank state) :
    (research py settings state).Ensures fun trace result => ∀ final, result = .ok final →
      Concluded py settings trace final := by
  refine Program.ensures_bind ((research_node_ensures state).mono ?_)
  rintro first result ⟨depth_instruction, -, hupdate⟩
  cases result with
  | error error => exact fun final hfinal => by cases hfinal
  | ok update =>
      obtain ⟨gathered, rfl, haccounted⟩ := hupdate update rfl
      obtain ⟨sources, hsources, hstems⟩ := haccounted.sources
      have hmerged : (state.merge gathered.update).sources = sources := by
        show state.sources ++ gathered.sources = sources
        rw [h.sources, hsources]
        rfl
      dsimp only
      split
      · refine (analyse_ensures _).mono fun second result hanalysed final hfinal => ?_
        obtain ⟨hsame, hverdict⟩ := hanalysed final hfinal
        refine ⟨by rw [hsame]; exact hverdict, fun source hmem => ?_⟩
        rw [hsame, hmerged] at hmem
        exact (hstems source hmem).mono (List.subset_append_left _ _)
      · next hroute =>
        refine Program.ensures_ret fun final hfinal => ?_
        cases hfinal
        rw [List.append_nil]
        refine ⟨?_, fun source hmem => hstems source (hmerged ▸ hmem)⟩
        cases herror : gathered.error with
        | none => exact absurd ((route_of_gathered h).mpr herror) (by simpa using hroute)
        | some message =>
            have hreport : (state.merge gathered.update).report = none := h.report
            have hmessage : (state.merge gathered.update).error = some message := by
              simpa [AgentState.merge, Gathered.update] using herror
            rw [hreport, hmessage]
            exact .error (gathered_error_ne_empty herror)

theorem run_research_ensures (query : String) (tickers : List String) (research_depth : String) :
    (run_research py settings query tickers research_depth).Ensures fun trace result =>
      ∀ final, result = .ok final → Concluded py settings trace final := by
  unfold run_research
  split
  · exact Program.ensures_raise fun final h => by cases h
  · unfold ainvoke
    dsimp only
    generalize hstate : (initial_state query tickers research_depth).merge
      (validate_input py (initial_state query tickers research_depth)) = state
    have hblank : Blank state ∧ (has_error state = true → ∃ message, message ≠ "" ∧
        state.error = some message) := by
      subst hstate
      unfold validate_input
      dsimp only
      split
      · exact ⟨⟨rfl, rfl, rfl, rfl⟩, fun _ => ⟨_, by decide, rfl⟩⟩
      · exact ⟨⟨rfl, rfl, rfl, rfl⟩, fun h => by cases h⟩
    obtain ⟨hblank, herror⟩ := hblank
    cases hinvalid : has_error state with
    | true =>
        obtain ⟨message, hmessage, hset⟩ := herror hinvalid
        rw [show route_after_validation state = .stop by simp [route_after_validation, hinvalid]]
        refine Program.ensures_ret fun final h => ?_
        cases h
        refine ⟨?_, by simp [hblank.sources]⟩
        rw [hblank.report, hset]
        exact .error hmessage
    | false =>
        rw [show route_after_validation state = .research_node by
          simp [route_after_validation, hinvalid]]
        exact research_ensures hblank

end ResearchAgent.Research
