import ResearchAgent.Research.Circuits
import ResearchAgent.Research.Provenance
import ResearchAgent.Research.Stability

namespace ResearchAgent.Research

open Library JobQueue Service

-- The response has this number under the key, as a number or as a text that reads as one.
def Sent (py : Python) (raw : JSONObject) (key : String) (number : ℚ) : Prop :=
  ∃ value, raw.lookup key = some value ∧ (∀ truth, value ≠ .bool truth) ∧
    py.float value = .ok (.finite number)

-- The figures of an analysis that may be missing, with their keys in the response.
def OPTIONAL_FIGURES : List (String × String) :=
  [("pe_ratio", "PERatio"), ("revenue_growth_yoy", "QuarterlyRevenueGrowthYOY"),
   ("target_price", "AnalystTargetPrice")]

def REQUIRED_KEYS : List String := ["50DayMovingAverage", "MarketCapitalization"]

-- Every figure of the analysis is a number of the response, the market capitalisation in
-- billions, or is left open.
structure FiguresSent (py : Python) (raw analysis : JSONObject) : Prop where
  price : ∃ number, analysis.lookup "price" = some (.float number) ∧
    Sent py raw "50DayMovingAverage" number
  market_cap : ∃ number, analysis.lookup "market_cap_billions" =
    some (.float (py.round 2 (number / 1000000000))) ∧ Sent py raw "MarketCapitalization" number
  free_cash_flow_margin : analysis.lookup "free_cash_flow_margin" = some .null
  optional : ∀ figure ∈ OPTIONAL_FIGURES, analysis.lookup figure.1 = some .null ∨
    ∃ number, analysis.lookup figure.1 = some (.float number) ∧ Sent py raw figure.2 number

-- One of the figures that every analysis needs is there and no float can be made of it, or one
-- of the others is an integer too large for a float: the response ends in an error.
def Unreadable (py : Python) (raw : JSONObject) : Prop :=
  (∃ key ∈ REQUIRED_KEYS, ∃ value, raw.lookup key = some value ∧
    ∀ number, py.float value ≠ .ok number) ∨
  ∃ figure ∈ OPTIONAL_FIGURES, ∃ value, raw.lookup figure.2 = some (.int value) ∧
    FLOAT_LIMIT ≤ value.natAbs

-- Both figures that every analysis needs are there, no truth value is taken for a figure, and
-- no figure is NaN or an infinity.
structure Complete (py : Python) (raw : JSONObject) : Prop where
  required : ∀ key ∈ REQUIRED_KEYS, ∃ value, raw.lookup key = some value ∧
    ∀ truth, value ≠ .bool truth
  optional : ∀ figure ∈ OPTIONAL_FIGURES, raw.lookup figure.2 ≠ some (.bool true)
  finite : ∀ key ∈ REQUIRED_KEYS ++ OPTIONAL_FIGURES.map Prod.snd, ∀ value,
    raw.lookup key = some value → ∀ special, py.float value ≠ .ok (.nonfinite special)

-- The response to a request for the ticker, if there is one that is made use of, comes to an
-- error or has all that an analysis takes from it.
def Usable (py : Python) (settings : Settings) (fetched : Fetched) (ticker : String) : Prop :=
  settings.alpha_vantage_api_key ≠ "" → ∀ raw,
    fetched.fetch_from_alpha_vantage (strip (py.upper ticker)) = .ok raw →
      has_key raw "Note" = false → Unreadable py raw ∨ Complete py raw

section Overview

variable {py : Python} {settings : Settings} {fetched : Fetched} {ticker : String}
  {raw : JSONObject} {analysis : TickerAnalysis} {value : JSONValue} {number : PyFloat}

theorem read_overview_ok : read_overview py ticker raw = .ok analysis ↔
    ∃ price market_cap pe_ratio revenue_growth_yoy target_price,
      py.float (get raw "50DayMovingAverage" (.int 0)) = .ok price ∧
      py.float (get raw "MarketCapitalization" (.int 0)) = .ok market_cap ∧
      safe_float py (get raw "PERatio") = .ok pe_ratio ∧
      safe_float py (get raw "QuarterlyRevenueGrowthYOY") = .ok revenue_growth_yoy ∧
      safe_float py (get raw "AnalystTargetPrice") = .ok target_price ∧ analysis = {
        ticker := ticker
        company_name := get raw "Name" (.str ticker)
        sector := get raw "Sector" (.str "Unknown")
        price := price
        market_cap_billions := market_cap.map fun number => py.round 2 (number / 1000000000)
        pe_ratio := pe_ratio
        revenue_growth_yoy := revenue_growth_yoy
        free_cash_flow_margin := none
        analyst_consensus := "N/A"
        target_price := target_price
        key_risks := []
        key_catalysts := [] } := by
  unfold read_overview
  constructor
  · intro h
    obtain ⟨price, hprice, h⟩ := bind_eq_ok.mp h
    obtain ⟨market_cap, hmarket_cap, h⟩ := bind_eq_ok.mp h
    obtain ⟨pe_ratio, hpe_ratio, h⟩ := bind_eq_ok.mp h
    obtain ⟨growth, hgrowth, h⟩ := bind_eq_ok.mp h
    obtain ⟨target_price, htarget_price, h⟩ := bind_eq_ok.mp h
    cases h
    exact ⟨_, _, _, _, _, hprice, hmarket_cap, hpe_ratio, hgrowth, htarget_price, rfl⟩
  · rintro ⟨_, _, _, _, _, hprice, hmarket_cap, hpe_ratio, hgrowth, htarget_price, rfl⟩
    rw [hprice, hmarket_cap, hpe_ratio, hgrowth, htarget_price]
    rfl

-- What reads as a float is taken as it is read, but for a nought.
theorem safe_float_of_float (h : py.float value = .ok number) :
    safe_float py value = .ok (if number = .finite 0 then none else some number) := by
  cases value with
  | null | list | dict => cases h
  | bool | int | float | nonfinite | str =>
      unfold safe_float
      rw [h]

-- What does not is left open.
theorem safe_float_of_error {error : AgentError} (h : py.float value = .error error)
    (hsmall : ∀ digits, value = .int digits → digits.natAbs < FLOAT_LIMIT) :
    safe_float py value = .ok none := by
  cases value with
  | null | list | dict => rfl
  | bool | float | nonfinite => cases h
  | int digits =>
      rw [py.float_int (hsmall digits rfl)] at h
      cases h
  | str text =>
      rw [Python.float] at h
      unfold safe_float
      rw [Python.float]
      cases hparsed : py.parse_float text with
      | some number =>
          rw [hparsed] at h
          cases h
      | none => rfl

-- Only an integer that is too large stands in the way of an analysis.
theorem safe_float_ok : (∃ figure, safe_float py value = .ok figure) ↔
    ∀ digits, value = .int digits → digits.natAbs < FLOAT_LIMIT := by
  constructor
  · rintro ⟨figure, hfigure⟩ digits rfl
    by_contra hlarge
    unfold safe_float at hfigure
    rw [py.float_int_large (not_lt.mp hlarge)] at hfigure
    cases hfigure
  · intro hsmall
    cases hread : py.float value with
    | ok number => exact ⟨_, safe_float_of_float hread⟩
    | error error => exact ⟨_, safe_float_of_error hread hsmall⟩

-- Without mock data the tool gives an error or the analysis of a response.
theorem get_market_data_cases (py : Python) (fetched : Fetched) (ticker : String)
    (hmock : settings.allow_mock_data = false) :
    (∃ message, get_market_data py settings fetched ticker = error_result message) ∨
      ∃ raw analysis, settings.alpha_vantage_api_key ≠ "" ∧
        fetched.fetch_from_alpha_vantage (strip (py.upper ticker)) = .ok raw ∧
        has_key raw "Note" = false ∧
        read_overview py (strip (py.upper ticker)) raw = .ok analysis ∧
        get_market_data py settings fetched ticker = .dict analysis.entries := by
  unfold get_market_data
  dsimp only
  split
  · rw [hmock]
    exact .inl ⟨_, rfl⟩
  · next hkey =>
    split
    · next result hresult =>
      obtain ⟨raw, hraw, hresult⟩ := bind_eq_ok.mp hresult
      have hraw := mapError_eq_ok.mp hraw
      split at hresult
      · rw [hmock] at hresult
        cases hresult
        exact .inl ⟨_, rfl⟩
      · next hnote =>
        obtain ⟨analysis, hanalysis, hresult⟩ := bind_eq_ok.mp hresult
        cases hresult
        exact .inr ⟨raw, analysis, hkey, hraw, Bool.eq_false_iff.mpr hnote, hanalysis, rfl⟩
    · rw [hmock]
      exact .inl ⟨_, rfl⟩

theorem get_market_data_of_overview (hkey : settings.alpha_vantage_api_key ≠ "")
    (hraw : fetched.fetch_from_alpha_vantage (strip (py.upper ticker)) = .ok raw)
    (hnote : has_key raw "Note" = false)
    (hanalysis : read_overview py (strip (py.upper ticker)) raw = .ok analysis) :
    get_market_data py settings fetched ticker = .dict analysis.entries := by
  have hrequest : request_market_data py settings fetched (strip (py.upper ticker)) =
      .ok (.dict analysis.entries) := by
    refine bind_eq_ok.mpr ⟨raw, mapError_eq_ok.mpr hraw, ?_⟩
    rw [if_neg (by simp [hnote])]
    exact bind_eq_ok.mpr ⟨analysis, hanalysis, rfl⟩
  unfold get_market_data
  dsimp only
  rw [if_neg hkey, hrequest]

-- Where the optional figures of an analysis come from.
theorem lookup_optional (hanalysis : read_overview py ticker raw = .ok analysis) :
    ∀ figure ∈ OPTIONAL_FIGURES, ∃ read, safe_float py (get raw figure.2) = .ok read ∧
      analysis.entries.lookup figure.1 = some (optional_figure read) := by
  obtain ⟨price, market_cap, _, _, _, -, -, hpe_ratio, hgrowth, htarget_price, rfl⟩ :=
    read_overview_ok.mp hanalysis
  intro figure hmem
  rcases List.mem_cons.mp hmem with rfl | hmem
  · exact ⟨_, hpe_ratio, rfl⟩
  · rcases List.mem_pair.mp hmem with rfl | rfl
    · exact ⟨_, hgrowth, rfl⟩
    · exact ⟨_, htarget_price, rfl⟩

theorem get_of_lookup {key : String} {default : JSONValue} (h : raw.lookup key = some value) :
    get raw key default = value := by
  rw [get, h]
  rfl

-- A figure that shows was sent, unless it was a truth value or is no number.
theorem safe_float_sent {key : String} {read : Option PyFloat}
    (hread : safe_float py (get raw key) = .ok read) (hbool : raw.lookup key ≠ some (.bool true))
    (hfinite : ∀ value, raw.lookup key = some value → ∀ special,
      py.float value ≠ .ok (.nonfinite special)) :
    read = none ∨ ∃ number, read = some (.finite number) ∧ Sent py raw key number := by
  cases hlookup : raw.lookup key with
  | none =>
      rw [get, hlookup] at hread
      cases hread
      exact .inl rfl
  | some value =>
      rw [get_of_lookup hlookup] at hread
      cases hnumber : py.float value with
      | error error =>
          have hnone := safe_float_of_error hnumber (safe_float_ok.mp ⟨read, hread⟩)
          exact .inl (Except.ok.inj (hread.symm.trans hnone))
      | ok number =>
          have hshown := Except.ok.inj (hread.symm.trans (safe_float_of_float hnumber))
          cases number with
          | nonfinite special => exact absurd hnumber (hfinite value hlookup special)
          | finite number =>
              by_cases hzero : number = 0
              · exact .inl (by rw [hshown, hzero, if_pos rfl])
              · refine .inr ⟨number, by rw [hshown, if_neg (by simpa using hzero)], value, hlookup,
                  ?_, hnumber⟩
                rintro truth rfl
                cases truth with
                | true => exact hbool hlookup
                | false =>
                    cases hnumber
                    exact hzero rfl

theorem Sent.not_bool {key : String} {number : ℚ} (h : Sent py raw key number) (truth : Bool) :
    raw.lookup key ≠ some (.bool truth) := by
  obtain ⟨value, hlookup, hbool, -⟩ := h
  rw [hlookup]
  exact fun heq => hbool truth (Option.some.inj heq)

-- What an analysis takes from a response that has everything was sent.
theorem Complete.figures (h : Complete py raw)
    (hanalysis : read_overview py ticker raw = .ok analysis) :
    FiguresSent py raw analysis.entries := by
  have hoptional := lookup_optional hanalysis
  obtain ⟨price, market_cap, _, _, _, hprice, hmarket_cap, -, -, -, rfl⟩ :=
    read_overview_ok.mp hanalysis
  obtain ⟨value, hlookup, hbool⟩ := h.required "50DayMovingAverage" (by simp [REQUIRED_KEYS])
  obtain ⟨value', hlookup', hbool'⟩ := h.required "MarketCapitalization" (by simp [REQUIRED_KEYS])
  rw [get_of_lookup hlookup] at hprice
  rw [get_of_lookup hlookup'] at hmarket_cap
  refine ⟨?_, ?_, rfl, fun figure hmem => ?_⟩
  · cases price with
    | finite price => exact ⟨price, rfl, value, hlookup, hbool, hprice⟩
    | nonfinite special =>
        exact absurd hprice (h.finite _ (by simp [REQUIRED_KEYS]) value hlookup special)
  · cases market_cap with
    | finite market_cap => exact ⟨market_cap, rfl, value', hlookup', hbool', hmarket_cap⟩
    | nonfinite special =>
        exact absurd hmarket_cap (h.finite _ (by simp [REQUIRED_KEYS]) value' hlookup' special)
  · obtain ⟨read, hread, hshown⟩ := hoptional figure hmem
    rw [hshown]
    rcases safe_float_sent hread (h.optional figure hmem)
      (h.finite _ (List.mem_append_right _ (List.mem_map_of_mem hmem))) with
      rfl | ⟨number, rfl, hsent⟩
    · exact .inl rfl
    · exact .inr ⟨number, rfl, hsent⟩

-- And nothing else was: a figure that was not sent shows in the analysis.
theorem FiguresSent.complete (h : FiguresSent py raw analysis.entries)
    (hanalysis : read_overview py ticker raw = .ok analysis) : Complete py raw := by
  have hoptional := lookup_optional hanalysis
  refine ⟨fun key hmem => ?_, fun figure hmem htrue => ?_,
    fun key hmem value hlookup special hspecial => ?_⟩
  · rcases List.mem_pair.mp hmem with rfl | rfl
    · obtain ⟨number, -, value, hlookup, hbool, -⟩ := h.price
      exact ⟨value, hlookup, hbool⟩
    · obtain ⟨number, -, value, hlookup, hbool, -⟩ := h.market_cap
      exact ⟨value, hlookup, hbool⟩
  · obtain ⟨read, hread, hshown⟩ := hoptional figure hmem
    rw [get_of_lookup htrue] at hread
    cases hread
    rcases h.optional figure hmem with hnone | ⟨number, -, hsent⟩
    · cases hshown.symm.trans hnone
    · exact hsent.not_bool true htrue
  · rcases List.mem_append.mp hmem with hmem | hmem
    · rcases List.mem_pair.mp hmem with rfl | rfl
      · obtain ⟨number, -, value', hlookup', -, hnumber⟩ := h.price
        cases hlookup.symm.trans hlookup'
        cases hspecial.symm.trans hnumber
      · obtain ⟨number, -, value', hlookup', -, hnumber⟩ := h.market_cap
        cases hlookup.symm.trans hlookup'
        cases hspecial.symm.trans hnumber
    · obtain ⟨figure, hfigure, rfl⟩ := List.mem_map.mp hmem
      obtain ⟨read, hread, hshown⟩ := hoptional figure hfigure
      rw [get_of_lookup hlookup, safe_float_of_float hspecial] at hread
      cases hread
      rcases h.optional figure hfigure with hnone | ⟨number, hnumber, -⟩
      · cases hshown.symm.trans hnone
      · cases hshown.symm.trans hnumber

theorem not_unreadable (hanalysis : read_overview py ticker raw = .ok analysis) :
    ¬Unreadable py raw := by
  have hoptional := lookup_optional hanalysis
  obtain ⟨price, market_cap, _, _, _, hprice, hmarket_cap, -⟩ := read_overview_ok.mp hanalysis
  rintro (⟨key, hmem, value, hlookup, hreadable⟩ | ⟨figure, hmem, digits, hlookup, hlarge⟩)
  · rcases List.mem_pair.mp hmem with rfl | rfl
    · rw [get_of_lookup hlookup] at hprice
      exact hreadable price hprice
    · rw [get_of_lookup hlookup] at hmarket_cap
      exact hreadable market_cap hmarket_cap
  · obtain ⟨read, hread, -⟩ := hoptional figure hmem
    rw [get_of_lookup hlookup] at hread
    exact absurd (safe_float_ok.mp ⟨read, hread⟩ digits rfl) (not_lt.mpr hlarge)

-- Where no figure that is there stands in the way, there is an analysis, whatever is missing.
theorem overview_of_readable (h : ¬Unreadable py raw) (ticker : String) :
    ∃ analysis, read_overview py ticker raw = .ok analysis := by
  rw [Unreadable, not_or] at h
  obtain ⟨hrequired, hoptional⟩ := h
  have hread (key : String) (hmem : key ∈ REQUIRED_KEYS) :
      ∃ number, py.float (get raw key (.int 0)) = .ok number := by
    cases hlookup : raw.lookup key with
    | none =>
        refine ⟨.finite 0, ?_⟩
        rw [get, hlookup]
        exact py.float_zero
    | some value =>
        rw [get_of_lookup hlookup]
        by_contra hnumber
        exact hrequired ⟨key, hmem, value, hlookup, fun number hok => hnumber ⟨number, hok⟩⟩
  have hsafe (figure : String × String) (hmem : figure ∈ OPTIONAL_FIGURES) :
      ∃ read, safe_float py (get raw figure.2) = .ok read := by
    refine safe_float_ok.mpr fun digits hdigits => ?_
    cases hlookup : raw.lookup figure.2 with
    | none =>
        rw [get, hlookup] at hdigits
        cases hdigits
    | some value =>
        rw [get_of_lookup hlookup] at hdigits
        by_contra hlarge
        exact hoptional ⟨figure, hmem, digits, hdigits ▸ hlookup, not_lt.mp hlarge⟩
  obtain ⟨price, hprice⟩ := hread "50DayMovingAverage" (by simp [REQUIRED_KEYS])
  obtain ⟨market_cap, hmarket_cap⟩ := hread "MarketCapitalization" (by simp [REQUIRED_KEYS])
  obtain ⟨_, hpe_ratio⟩ := hsafe ("pe_ratio", "PERatio") (by simp [OPTIONAL_FIGURES])
  obtain ⟨_, hgrowth⟩ := hsafe ("revenue_growth_yoy", "QuarterlyRevenueGrowthYOY")
    (by simp [OPTIONAL_FIGURES])
  obtain ⟨_, htarget_price⟩ := hsafe ("target_price", "AnalystTargetPrice")
    (by simp [OPTIONAL_FIGURES])
  exact ⟨_, read_overview_ok.mpr
    ⟨_, _, _, _, _, hprice, hmarket_cap, hpe_ratio, hgrowth, htarget_price, rfl⟩⟩

theorem has_error_error_result {message : String} {entries : JSONObject}
    (h : error_result message = .dict entries) : has_key entries "error" = true := by
  cases h
  rfl

-- An analysis shows figures that were sent, and no other.
def ShowsSent (py : Python) (settings : Settings) (fetched : Fetched) (ticker : String) : Prop :=
  ∀ analysis, get_market_data py settings fetched ticker = .dict analysis →
    has_key analysis "error" = false →
    ∃ raw, fetched.fetch_from_alpha_vantage (strip (py.upper ticker)) = .ok raw ∧
      FiguresSent py raw analysis

theorem shows_sent_iff (hmock : settings.allow_mock_data = false) :
    ShowsSent py settings fetched ticker ↔ Usable py settings fetched ticker := by
  constructor
  · intro h hkey raw hraw hnote
    by_contra hneither
    rw [not_or] at hneither
    obtain ⟨analysis, hanalysis⟩ := overview_of_readable hneither.1 (strip (py.upper ticker))
    obtain ⟨raw', hraw', hfigures⟩ :=
      h analysis.entries (get_market_data_of_overview hkey hraw hnote hanalysis) rfl
    cases hraw.symm.trans hraw'
    exact hneither.2 (hfigures.complete hanalysis)
  · intro h analysis hresult herror
    rcases get_market_data_cases py fetched ticker hmock with
      ⟨message, hmessage⟩ | ⟨raw, read, hkey, hraw, hnote, hanalysis, hdict⟩
    · rw [has_error_error_result (hmessage.symm.trans hresult)] at herror
      cases herror
    · cases hdict.symm.trans hresult
      refine ⟨raw, hraw, ?_⟩
      rcases h hkey raw hraw hnote with hunreadable | hcomplete
      · exact absurd hunreadable (not_unreadable hanalysis)
      · exact hcomplete.figures hanalysis

end Overview

section Sanitized

variable {py : Python} {max_chars : ℕ} {policy : InjectionPolicy} {entries sanitized : JSONObject}

-- The screening keeps the entries of a small dictionary under their keys.
theorem lookup_sanitized {names : List String} (hnames : entries.map Prod.fst = names)
    (hlength : names.length ≤ 100) (hshort : ∀ name ∈ names, name.length ≤ 100)
    (hnodup : names.Nodup)
    (h : sanitize_tool_result py max_chars policy (.dict entries) = .ok (.dict sanitized))
    {key : String} {value : JSONValue} (hlookup : entries.lookup key = some value) :
    ∃ result, sanitized.lookup key = some result ∧
      sanitize_tool_result py max_chars policy value = .ok result := by
  rw [sanitize_tool_result] at h
  obtain ⟨kept, hkept, h⟩ := bind_eq_ok.mp h
  obtain ⟨-, hcollected⟩ := bound_serialized_eq_ok.mp h
  cases hcollected
  have hcut := @sanitized_entries py max_chars policy
    (fun value result => sanitize_tool_result py max_chars policy value = .ok result) entries kept
    100 (fun _ _ _ hresult => hresult) hkept
  rw [List.take_of_length_le (by rwa [← hnames, List.length_map] at hlength)] at hcut
  have hentries : List.Forall₂ (fun entry result => entry.1 = result.1 ∧
      sanitize_tool_result py max_chars policy entry.2 = .ok result.2) entries kept := by
    have hkeys (entry : String × JSONValue) (hmem : entry ∈ entries) : entry.1.length ≤ 100 :=
      hshort entry.1 (hnames ▸ List.mem_map_of_mem hmem)
    refine ((List.forall₂_and_left _ _).mpr ⟨hkeys, hcut⟩).imp ?_
    rintro entry result ⟨hkey, hname, hresult⟩
    exact ⟨(take_chars_of_short hkey).symm.trans hname, hresult⟩
  have hsame : List.Forall₂ Eq (entries.map Prod.fst) (kept.map Prod.fst) :=
    List.forall₂_map_left_iff.mpr
      (List.forall₂_map_right_iff.mpr (hentries.imp fun _ _ hentry => hentry.1))
  rw [List.forall₂_eq_eq_eq, hnames] at hsame
  rw [collect_of_nodup (hsame ▸ hnodup)]
  exact lookup_forall₂ (fun value result => sanitize_tool_result py max_chars policy value =
    .ok result) hentries hlookup

-- An error stays one.
theorem error_sanitized {message : String}
    (h : sanitize_tool_result py max_chars policy (error_result message) = .ok (.dict sanitized)) :
    has_key sanitized "error" = true := by
  have hlookup : [("error", JSONValue.str message)].lookup "error" = some (.str message) := rfl
  obtain ⟨result, hresult, -⟩ := @lookup_sanitized py max_chars policy _ sanitized ["error"] rfl
    (by decide) (by decide) (by decide) h _ _ hlookup
  rw [has_key, hresult]
  rfl

def ANALYSIS_KEYS : List String :=
  ["ticker", "company_name", "sector", "price", "market_cap_billions", "pe_ratio",
   "revenue_growth_yoy", "free_cash_flow_margin", "analyst_consensus", "target_price",
   "key_risks", "key_catalysts"]

-- The figures of an analysis are left as they are.
theorem FiguresSent.screened {raw : JSONObject} {analysis : TickerAnalysis}
    (h : FiguresSent py raw analysis.entries)
    (hsanitized : sanitize_tool_result py max_chars policy (.dict analysis.entries) =
      .ok (.dict sanitized)) : FiguresSent py raw sanitized := by
  have hlookup {key : String} {value : JSONValue} (hkey : analysis.entries.lookup key = some value)
      (hfigure : value = .null ∨ ∃ number, value = .float number) :
      sanitized.lookup key = some value := by
    have hnames : analysis.entries.map Prod.fst = ANALYSIS_KEYS := rfl
    obtain ⟨result, hresult, hsame⟩ := lookup_sanitized hnames (by decide) (by decide) (by decide)
      hsanitized hkey
    rcases hfigure with rfl | ⟨number, rfl⟩ <;> cases hsame <;> exact hresult
  obtain ⟨price, hprice, hsent⟩ := h.price
  obtain ⟨market_cap, hmarket_cap, hsent'⟩ := h.market_cap
  refine ⟨⟨price, hlookup hprice (.inr ⟨_, rfl⟩), hsent⟩,
    ⟨market_cap, hlookup hmarket_cap (.inr ⟨_, rfl⟩), hsent'⟩,
    hlookup h.free_cash_flow_margin (.inl rfl), fun figure hmem => ?_⟩
  rcases h.optional figure hmem with hnone | ⟨number, hsome, hsent⟩
  · exact .inl (hlookup hnone (.inl rfl))
  · exact .inr ⟨number, hlookup hsome (.inr ⟨_, rfl⟩), hsent⟩

end Sanitized

section Runs

variable {py : Python} {settings : Settings} {trace : AgentTrace} {gathered : Gathered}

-- Every analysis that has been gathered is what the tool has produced in this execution.
def Analysed (py : Python) (settings : Settings) (trace : AgentTrace) (gathered : Gathered) :
    Prop :=
  ∀ analysis ∈ gathered.ticker_analyses, has_key analysis "error" = false ∧
    ∃ args, Produced py settings trace .get_market_data args (.dict analysis)

theorem mem_analyses_classify {tool_name : String} {result : JSONValue} {analysis : JSONObject}
    (h : analysis ∈ (gathered.classify tool_name result).ticker_analyses) :
    analysis ∈ gathered.ticker_analyses ∨ find_tool tool_name = some .get_market_data ∧
      result = .dict analysis ∧ has_key analysis "error" = false := by
  unfold Gathered.classify at h
  split at h
  · next htool =>
    split at h
    · exact .inl h
    · next herror =>
      rcases List.mem_append.mp h with hmem | hmem
      · exact .inl hmem
      · obtain rfl := List.mem_singleton.mp hmem
        exact .inr ⟨htool, rfl, Bool.eq_false_iff.mpr herror⟩
  · exact .inl h
  · exact .inl h
  · exact .inl h

theorem analysed_invariant : LoopInvariant py settings (Analysed py settings) where
  answered asked response model_calls h analysis hmem := by
    obtain ⟨herror, args, hproduced⟩ := h analysis hmem
    exact ⟨herror, args, hproduced.mono (List.subset_append_left _ _)⟩
  recorded {past trace tc gathered gathered'} h hturn analysis hmem := by
    obtain ⟨result, sources, timestamp, hsound, -, rfl⟩ := hturn
    have hplace : analysis ∈ gathered.ticker_analyses ∨
        find_tool tc.name = some .get_market_data ∧ result = .dict analysis ∧
          has_key analysis "error" = false := mem_analyses_classify hmem
    rcases hplace with hold | ⟨htool, rfl, herror⟩
    · obtain ⟨herror, args, hproduced⟩ := h analysis hold
      exact ⟨herror, args, hproduced.mono (List.subset_append_left _ _)⟩
    · obtain ⟨tool, htool', hproduced⟩ := hsound herror
      obtain rfl : tool = .get_market_data := Option.some.inj (htool'.symm.trans htool)
      exact ⟨herror, tc.args, hproduced.mono (List.subset_append_right _ _)⟩

-- The requests of the run for market data, with what they were answered.
def Requested (py : Python) (trace : AgentTrace) (ticker : String) (fetched : Fetched) : Prop :=
  ∃ (args : JSONObject) (run : ToolRun) (arguments : Arguments),
    (⟨.submit .get_market_data args, run⟩ : AgentExchange) ∈ trace ∧
    py.read_arguments .get_market_data args = .ok arguments ∧ arguments.ticker = ticker ∧
    run.fetched = fetched

-- What the tool has produced, other than an error, are the figures of a response.
theorem figures_of_produced (hmock : settings.allow_mock_data = false) {args : JSONObject}
    {analysis : JSONObject} (herror : has_key analysis "error" = false)
    (h : Produced py settings trace .get_market_data args (.dict analysis))
    (husable : ∀ ticker fetched, Requested py trace ticker fetched →
      Usable py settings fetched ticker) :
    ∃ ticker fetched raw, Requested py trace ticker fetched ∧
      fetched.fetch_from_alpha_vantage (strip (py.upper ticker)) = .ok raw ∧
      FiguresSent py raw analysis := by
  obtain ⟨run, value, hmem, -, hinvoke, hsanitized⟩ := h
  unfold Tool.invoke at hinvoke
  split at hinvoke
  · cases hinvoke
  · next arguments harguments =>
    cases hinvoke
    have hrequested : Requested py trace arguments.ticker run.fetched :=
      ⟨args, run, arguments, hmem, harguments, rfl, rfl⟩
    rcases get_market_data_cases py run.fetched arguments.ticker hmock with
      ⟨message, hmessage⟩ | ⟨raw, read, -, hraw, -, -, hdict⟩
    · rw [hmessage] at hsanitized
      rw [error_sanitized hsanitized] at herror
      cases herror
    · obtain ⟨raw', hraw', hfigures⟩ :=
        (shows_sent_iff hmock).mpr (husable _ _ hrequested) read.entries hdict rfl
      rw [hdict] at hsanitized
      exact ⟨arguments.ticker, run.fetched, raw', hrequested, hraw', hfigures.screened hsanitized⟩

end Runs

-- Without mock data, what the tool returns shows figures that were sent, and no other, if and
-- only if the response either ends in an error or has all that an analysis takes from it. In
-- a run of which this holds at every request, so do the analyses that the research returns.
theorem figures_sent_iff (py : Python) (settings : Settings)
    (hmock : settings.allow_mock_data = false) :
    (∀ fetched ticker, ShowsSent py settings fetched ticker ↔
      Usable py settings fetched ticker) ∧
    ∀ state, (research_node py settings state).Ensures fun trace result =>
      (∀ ticker fetched, Requested py trace ticker fetched →
        Usable py settings fetched ticker) →
      ∀ update, result = .ok update → ∀ analysis ∈ update.ticker_analyses,
        ∃ ticker fetched raw, Requested py trace ticker fetched ∧
          fetched.fetch_from_alpha_vantage (strip (py.upper ticker)) = .ok raw ∧
          FiguresSent py raw analysis := by
  refine ⟨fun fetched ticker => shows_sent_iff hmock, fun state => ?_⟩
  have hstart (past : AgentTrace) (depth_instruction : String) :
      Analysed py settings past (.start state depth_instruction) :=
    fun analysis hmem => by cases hmem
  refine (analysed_invariant.research_node hstart).mono ?_
  intro trace result h husable update hresult analysis hmem
  obtain ⟨gathered, rfl, hanalysed⟩ := h update hresult
  obtain ⟨herror, args, hproduced⟩ := hanalysed analysis hmem
  exact figures_of_produced hmock herror hproduced husable

-- The provider answers every request for market data with this.
def Fetched.answering (raw : JSONObject) : Fetched :=
  { Fetched.nothing with fetch_from_alpha_vantage := fun _ => .ok raw }

theorem figures_sent_complete :
    ShowsSent .small .live (.answering [("Name", .str "NVIDIA Corporation"),
      ("50DayMovingAverage", .float 875.4), ("MarketCapitalization", .int 2150000000000),
      ("PERatio", .str "None")]) "NVDA" := by
  refine ((figures_sent_iff .small .live rfl).1 _ _).mpr fun _ raw hraw _ => .inr ?_
  cases hraw
  refine ⟨fun key hmem => ?_, fun figure hmem htrue => ?_, fun key hmem value hlookup => ?_⟩
  · rcases List.mem_pair.mp hmem with rfl | rfl
    · exact ⟨_, rfl, fun _ => JSONValue.noConfusion⟩
    · exact ⟨_, rfl, fun _ => JSONValue.noConfusion⟩
  · rcases List.mem_cons.mp hmem with rfl | hmem
    · cases htrue
    · rcases List.mem_pair.mp hmem with rfl | rfl <;> cases htrue
  · have hvalue : value ∈ [JSONValue.float 875.4, .int 2150000000000, .str "None"] := by
      simp only [REQUIRED_KEYS, OPTIONAL_FIGURES, List.map_cons, List.map_nil, List.cons_append,
        List.nil_append, List.mem_cons, List.not_mem_nil, or_false] at hmem ⊢
      rcases hmem with rfl | rfl | rfl | rfl | rfl <;> cases hlookup <;> simp
    simp only [List.mem_cons, List.not_mem_nil, or_false] at hvalue
    rcases hvalue with rfl | rfl | rfl
    · exact fun _ h => by cases h
    · intro special h
      rw [Python.small.float_int (by decide +kernel)] at h
      cases h
    · exact fun _ h => by cases h

-- A refusal with no figures in it becomes an analysis with a price of nought.
def quota_response : JSONObject :=
  [("Information", .str "Our standard API rate limit is 25 requests per day.")]

theorem figures_sent_quota :
    Settings.live.allow_mock_data = false ∧
    (∃ analysis, get_market_data .small .live (.answering quota_response) "NVDA" =
        .dict analysis ∧ has_key analysis "error" = false ∧
      analysis.lookup "price" = some (.float 0) ∧
      analysis.lookup "market_cap_billions" = some (.float 0)) ∧
    ¬ShowsSent .small .live (.answering quota_response) "NVDA" := by
  have hanalysis : ∃ analysis, read_overview .small "NVDA" quota_response = .ok analysis ∧
      analysis.price = .finite 0 ∧ analysis.market_cap_billions = .finite 0 := by
    have hzero := Python.small.float_zero
    refine ⟨_, read_overview_ok.mpr ⟨_, _, _, _, _, hzero, hzero, rfl, rfl, rfl, rfl⟩, rfl, ?_⟩
    exact congrArg PyFloat.finite (zero_div _)
  obtain ⟨analysis, hanalysis, hprice, hmarket_cap⟩ := hanalysis
  have hresult : get_market_data .small .live (.answering quota_response) "NVDA" =
      .dict analysis.entries :=
    get_market_data_of_overview (by decide) rfl rfl hanalysis
  refine ⟨rfl, ⟨analysis.entries, hresult, rfl, ?_, ?_⟩, fun h => ?_⟩
  · exact congrArg (fun figure : PyFloat => some figure.json) hprice
  · exact congrArg (fun figure : PyFloat => some figure.json) hmarket_cap
  · obtain ⟨raw, hraw, hfigures⟩ := h analysis.entries hresult rfl
    cases hraw
    obtain ⟨number, -, value, hlookup, -⟩ := hfigures.price
    cases hlookup

end ResearchAgent.Research
