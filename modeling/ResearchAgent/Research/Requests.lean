import ResearchAgent.Research.Screening

namespace ResearchAgent.Research

open Library JobQueue Service

-- `str.upper`: every character is replaced by a row of a table, and the row may be longer
-- than one character. In ASCII it is the capital letter, or the character itself.
structure UpperTable where
  row : Char → List Char
  ascii : ∀ char, char.toNat < 128 → row char = [char.toUpper]

def UpperTable.upper (table : UpperTable) (text : String) : String :=
  String.ofList (text.toList.flatMap table.row)

section Distinct

variable {α : Type} [BEq α] [LawfulBEq α]

theorem eraseDups_of_nodup {items : List α} (h : items.Nodup) : items.eraseDups = items := by
  induction items with
  | nil => rfl
  | cons item rest ih =>
      obtain ⟨hitem, hrest⟩ := List.nodup_cons.mp h
      rw [List.eraseDups_cons, List.filter_eq_self.mpr, ih hrest]
      intro other hmem
      simpa using ne_of_mem_of_not_mem hmem hitem

theorem distinct_eraseDups (items : List α) :
    items.eraseDups.Nodup ∧ items.eraseDups.Sublist items := by
  induction hlength : items.length using Nat.strong_induction_on generalizing items with
  | _ length ih =>
      cases items with
      | nil => exact ⟨List.nodup_nil, List.Sublist.refl _⟩
      | cons item rest =>
          rw [List.eraseDups_cons]
          have hshort : (rest.filter fun other => !other == item).length < length := by
            rw [← hlength, List.length_cons]
            exact Nat.lt_succ_of_le (List.length_filter_le _ rest)
          obtain ⟨hnodup, hsublist⟩ := ih _ hshort _ rfl
          refine ⟨List.nodup_cons.mpr ⟨by simp, hnodup⟩, ?_⟩
          exact (hsublist.trans List.filter_sublist).cons_cons item

end Distinct

-- The characters of a ticker.
def ticker_char (char : Char) : Bool :=
  between 'A' 'Z' char || between '0' '9' char || char ∈ ['.', '-']

theorem chars_of_ticker {ticker : String} (h : is_ticker ticker = true) :
    ticker ≠ "" ∧ ∀ char ∈ ticker.toList, ticker_char char = true := by
  unfold is_ticker at h
  split at h
  · cases h
  · next first rest htext =>
    simp only [Bool.and_eq_true, List.all_eq_true] at h
    obtain ⟨⟨hfirst, -⟩, hrest⟩ := h
    refine ⟨fun hempty => ?_, fun char hmem => ?_⟩
    · rw [hempty] at htext
      cases htext
    · rw [htext] at hmem
      rcases List.mem_cons.mp hmem with rfl | hmem
      · simp [ticker_char, hfirst]
      · exact hrest char hmem

-- The characters of a ticker are in ASCII, and none of them is white space or a small letter.
theorem bare_of_ticker_char {char : Char} (h : ticker_char char = true) : char ∉ whitespace := by
  have hbare : ∀ char ∈ whitespace, ticker_char char = false := by
    have hall : (whitespace.all fun char => !ticker_char char) = true := rfl
    simpa using hall
  intro hmem
  rw [hbare char hmem] at h
  cases h

theorem between_iff {low high char : Char} :
    between low high char = true ↔ low.toNat ≤ char.toNat ∧ char.toNat ≤ high.toNat := by
  unfold between
  rw [Bool.and_eq_true, decide_eq_true_iff, decide_eq_true_iff]
  rfl

theorem upper_of_ticker_char {char : Char} (h : ticker_char char = true) :
    char.toNat < 128 ∧ char.toUpper = char := by
  have hrange : char.toNat ≤ 90 := by
    simp only [ticker_char, Bool.or_eq_true, between_iff, decide_eq_true_eq] at h
    rcases h with (⟨-, hle⟩ | ⟨-, hle⟩) | hmem
    · exact hle
    · exact hle.trans (by decide)
    · rcases List.mem_pair.mp hmem with rfl | rfl <;> decide
  refine ⟨by omega, dif_neg ?_⟩
  rintro ⟨hlow, -⟩
  have hsmall : 97 ≤ char.toNat := hlow
  omega

theorem dropWhile_of_none {α : Type} {drops : α → Bool} {items : List α}
    (h : ∀ item ∈ items, drops item = false) : items.dropWhile drops = items := by
  cases items with
  | nil => rfl
  | cons item rest => rw [List.dropWhile_cons_of_neg (by simp [h item List.mem_cons_self])]

theorem strip_of_bare {text : String} (h : ∀ char ∈ text.toList, char ∉ whitespace) :
    strip text = text := by
  have hleft : text.toList.dropWhile (· ∈ whitespace) = text.toList :=
    dropWhile_of_none fun char hmem => by simpa using h char hmem
  have hright : text.toList.reverse.dropWhile (· ∈ whitespace) = text.toList.reverse :=
    dropWhile_of_none fun char hmem => by simpa using h char (List.mem_reverse.mp hmem)
  simp only [strip, hleft, hright, List.reverse_reverse, String.ofList_toList]

section Tickers

variable (table : UpperTable) {ticker : String} {tickers value : List String}

theorem strip_ticker (h : is_ticker ticker = true) : strip ticker = ticker :=
  strip_of_bare fun char hmem => bare_of_ticker_char ((chars_of_ticker h).2 char hmem)

theorem upper_ticker (h : is_ticker ticker = true) : table.upper ticker = ticker := by
  have hrows : ∀ char ∈ ticker.toList, table.row char = [char] := by
    intro char hmem
    obtain ⟨hascii, hupper⟩ := upper_of_ticker_char ((chars_of_ticker h).2 char hmem)
    rw [table.ascii char hascii, hupper]
  rw [UpperTable.upper, List.flatMap_congr hrows, List.flatMap_singleton', String.ofList_toList]

-- Tickers in their final form are kept, and left as they are, by both ways of normalising
-- them.
theorem given_of_tickers (h : ∀ ticker ∈ tickers, is_ticker ticker = true) :
    (tickers.filter fun ticker => strip ticker ≠ "").map
      (fun ticker => strip (table.upper ticker)) = tickers := by
  rw [List.filter_eq_self.mpr]
  · rw [List.map_congr_left (g := id)]
    · exact List.map_id tickers
    · intro ticker hmem
      rw [upper_ticker table (h ticker hmem), strip_ticker (h ticker hmem), id]
  · intro ticker hmem
    rw [strip_ticker (h ticker hmem)]
    simpa using (chars_of_ticker (h ticker hmem)).1

-- What the validator lets through.
theorem normalised {upper : String → String}
    (h : ResearchRequest.normalise_tickers upper value = .ok tickers) :
    tickers ≠ [] ∧ tickers.Nodup ∧ (∀ ticker ∈ tickers, is_ticker ticker = true) ∧
      tickers.length ≤ value.length := by
  unfold ResearchRequest.normalise_tickers at h
  dsimp only at h
  split at h
  · cases h
  · next hsome =>
    split at h
    · next hvalid =>
      cases h
      obtain ⟨hnodup, hsublist⟩ := distinct_eraseDups
        ((value.filter fun ticker => strip ticker ≠ "").map fun ticker => strip (upper ticker))
      refine ⟨by simpa using hsome, hnodup, List.all_eq_true.mp hvalid, ?_⟩
      refine hsublist.length_le.trans ?_
      rw [List.length_map]
      exact List.length_filter_le _ value
    · cases h

theorem normalise_again (hsome : tickers ≠ []) (hnodup : tickers.Nodup)
    (hvalid : ∀ ticker ∈ tickers, is_ticker ticker = true) :
    ResearchRequest.normalise_tickers table.upper tickers = .ok tickers := by
  unfold ResearchRequest.normalise_tickers
  dsimp only
  rw [given_of_tickers table hvalid, eraseDups_of_nodup hnodup,
    if_neg (by simpa using hsome), if_pos (List.all_eq_true.mpr hvalid)]

end Tickers

-- What the fields of an accepted request have passed.
structure Accepted (request : ResearchRequest) : Prop where
  long : 5 ≤ request.query.length
  short : request.query.length ≤ 500
  given : request.tickers ≠ []
  few : request.tickers.length ≤ 5
  distinct : request.tickers.Nodup
  valid : ∀ ticker ∈ request.tickers, is_ticker ticker = true

section Requests

variable {raw : JSONObject} {query : String} {tickers : List String} {request : ResearchRequest}

theorem query_read (h : ResearchRequest.read_query raw = .ok query) :
    5 ≤ query.length ∧ query.length ≤ 500 := by
  unfold ResearchRequest.read_query at h
  split at h
  · split at h
    · cases h
    · next hlong =>
      split at h
      · cases h
      · next hshort =>
        cases h
        exact ⟨not_lt.mp hlong, not_lt.mp hshort⟩
  · cases h
  · cases h

theorem tickers_read {upper : String → String}
    (h : ResearchRequest.read_tickers upper raw = .ok tickers) :
    tickers ≠ [] ∧ tickers.Nodup ∧ (∀ ticker ∈ tickers, is_ticker ticker = true) ∧
      tickers.length ≤ 5 := by
  unfold ResearchRequest.read_tickers at h
  split at h
  · next items _ =>
    obtain ⟨value, -, hvalue⟩ := bind_eq_ok.mp h
    split at hvalue
    · cases hvalue
    · split at hvalue
      · cases hvalue
      · next hfew =>
        obtain ⟨hsome, hnodup, hvalid, hlength⟩ := normalised hvalue
        exact ⟨hsome, hnodup, hvalid, hlength.trans (not_lt.mp hfew)⟩
  · cases h
  · cases h

theorem accepted {upper : String → String}
    (h : ResearchRequest.model_validate upper raw = .ok request) : Accepted request := by
  obtain ⟨query, hquery, hrest⟩ := bind_eq_ok.mp h
  obtain ⟨tickers, htickers, hrest⟩ := bind_eq_ok.mp hrest
  obtain ⟨research_depth, -, hrequest⟩ := bind_eq_ok.mp hrest
  cases hrequest
  obtain ⟨hlong, hshort⟩ := query_read hquery
  obtain ⟨hgiven, hdistinct, hvalid, hfew⟩ := tickers_read htickers
  exact ⟨hlong, hshort, hgiven, hfew, hdistinct, hvalid⟩

-- The fields of the dump are read back as they were.
theorem read_strings_map (texts : List String) :
    ResearchRequest.read_strings (texts.map .str) = .ok texts := by
  induction texts with
  | nil => rfl
  | cons text rest ih =>
      rw [List.map_cons, ResearchRequest.read_strings, ih]
      rfl

theorem Accepted.read_query (h : Accepted request) :
    ResearchRequest.read_query request.model_dump = .ok request.query := by
  show (if request.query.length < 5 then _ else if request.query.length > 500 then _ else _) = _
  rw [if_neg (not_lt.mpr h.long), if_neg (not_lt.mpr h.short)]

theorem Accepted.read_tickers (h : Accepted request) (table : UpperTable) :
    ResearchRequest.read_tickers table.upper request.model_dump = .ok request.tickers := by
  have hsome : ¬request.tickers.length < 1 := by simpa [Nat.lt_one_iff] using h.given
  show (ResearchRequest.read_strings (request.tickers.map .str) >>= fun value =>
      if value.length < 1 then _ else if value.length > 5 then _ else _) = _
  rw [read_strings_map]
  show (if request.tickers.length < 1 then _ else if request.tickers.length > 5 then _ else _) = _
  rw [if_neg hsome, if_neg (not_lt.mpr h.few)]
  exact normalise_again table h.given h.distinct h.valid

theorem read_depth_dump (request : ResearchRequest) :
    ResearchRequest.read_depth request.model_dump = .ok request.research_depth := by
  obtain ⟨query, tickers, depth⟩ := request
  cases depth <;> rfl

theorem Accepted.model_validate (h : Accepted request) (table : UpperTable) :
    ResearchRequest.model_validate table.upper request.model_dump = .ok request := by
  unfold ResearchRequest.model_validate
  rw [h.read_query, h.read_tickers table, read_depth_dump]
  rfl

end Requests

section Graph

variable (py : Python) (table : UpperTable) {request : ResearchRequest}

theorem literal_valid (depth : ResearchDepth) : depth.literal ∈ VALID_RESEARCH_DEPTHS := by
  cases depth <;> decide

theorem Accepted.resolve_tickers (h : Accepted request) (query : String) :
    resolve_tickers { py with upper := table.upper } query request.tickers = request.tickers := by
  have hgiven : given_tickers { py with upper := table.upper } request.tickers = request.tickers :=
    given_of_tickers table h.valid
  unfold Research.resolve_tickers
  rw [hgiven]
  exact if_neg (by simp [h.given])

-- What the graph is checked to start from.
theorem Accepted.validate_input (h : Accepted request) :
    validate_input { py with upper := table.upper }
        (initial_state request.query request.tickers request.research_depth.literal) =
      { tickers := some request.tickers
        query := some (strip request.query)
        research_depth := some request.research_depth.literal
        error := some none
        model_calls := some 0
        input_tokens := some 0
        output_tokens := some 0 } := by
  unfold Research.validate_input initial_state
  dsimp only
  rw [h.resolve_tickers py table, if_pos (literal_valid request.research_depth),
    if_neg (by simp [h.given])]

-- The run goes on to the research of what was accepted.
theorem Accepted.run_research (h : Accepted request) (settings : Settings) :
    run_research { py with upper := table.upper } settings request.query request.tickers
        request.research_depth.literal =
      research { py with upper := table.upper } settings
        (initial_state (strip request.query) request.tickers request.research_depth.literal) := by
  unfold Research.run_research ainvoke
  rw [if_neg (not_not_intro (literal_valid request.research_depth)), h.validate_input py table]
  rfl

end Graph

-- A request that was accepted is the same after the queue, its tickers are well formed and
-- distinct, and the graph researches just these, to the depth that was asked for.
theorem accepted_unchanged (py : Python) (settings : Settings) (table : UpperTable)
    {raw : JSONObject} {request : ResearchRequest}
    (haccepted : ResearchRequest.model_validate table.upper raw = .ok request) :
    let python := { py with upper := table.upper }
    let depth := request.research_depth.literal
    let checked := validate_input python (initial_state request.query request.tickers depth)
    ResearchRequest.model_validate table.upper request.model_dump = .ok request ∧
    (∀ envelope : JobEnvelope, envelope.request = request.model_dump →
      ∃ claimed, JobEnvelope.from_json envelope.to_json = .ok claimed ∧
        ResearchRequest.model_validate table.upper claimed.request = .ok request) ∧
    request.tickers ≠ [] ∧ request.tickers.Nodup ∧
    (∀ ticker ∈ request.tickers, is_ticker ticker = true) ∧
    checked.tickers = some request.tickers ∧ checked.research_depth = some depth ∧
    checked.error = some none ∧
    run_research python settings request.query request.tickers depth =
      research python settings (initial_state (strip request.query) request.tickers depth) := by
  have h := accepted haccepted
  have hchecked := h.validate_input py table
  refine ⟨h.model_validate table, fun envelope henvelope => ?_, h.given, h.distinct, h.valid,
    congrArg AgentUpdate.tickers hchecked, congrArg AgentUpdate.research_depth hchecked,
    congrArg AgentUpdate.error hchecked, h.run_research py table settings⟩
  refine ⟨envelope, JobEnvelope.from_json_to_json envelope, ?_⟩
  rw [henvelope, h.model_validate table]

-- One letter outside ASCII has two capitals.
def UpperTable.sharp_s : UpperTable where
  row char := if char = 'ß' then ['S', 'S'] else [char.toUpper]
  ascii char hascii := if_neg (by rintro rfl; revert hascii; decide)

theorem accepted_unchanged_sharp_s :
    let request : ResearchRequest := ⟨"Is it overvalued?", ["NVDA", "SS"], .standard⟩
    ResearchRequest.model_validate UpperTable.sharp_s.upper request.model_dump = .ok request := by
  have haccepted : ResearchRequest.model_validate UpperTable.sharp_s.upper
      [("query", .str "Is it overvalued?"),
        ("tickers", .list [.str " nvda", .str "\u2003", .str "ß\n", .str "NVDA"])] =
      .ok ⟨"Is it overvalued?", ["NVDA", "SS"], .standard⟩ := by decide +kernel
  exact (accepted_unchanged .small .small .sharp_s haccepted).1

end ResearchAgent.Research
