import ResearchAgent.Research.Screening

namespace ResearchAgent.Research

open Library JobQueue Service

section Lengths

variable {text : String} {texts : List String} {item : JSONValue} {items : List JSONValue}
  {entries : JSONObject}

theorem length_le_intercalate (separator : String) (h : text ∈ texts) :
    text.length ≤ (separator.intercalate texts).length := by
  induction texts with
  | nil => cases h
  | cons first rest ih =>
      cases rest with
      | nil =>
          cases List.mem_singleton.mp h
          rw [String.intercalate_singleton]
      | cons second rest =>
          rw [String.intercalate_cons_cons, String.length_append, String.length_append]
          rcases List.mem_cons.mp h with rfl | h
          · omega
          · have hrest := ih h
            omega

theorem dump_items_eq (style : DumpStyle) (float_repr : ℚ → String) (items : List JSONValue) :
    dump_items style float_repr items = items.map (dumps style float_repr) := by
  induction items with
  | nil => rfl
  | cons item rest ih => rw [dump_items, ih, List.map_cons]

theorem dump_entries_eq (style : DumpStyle) (float_repr : ℚ → String) (entries : JSONObject) :
    dump_entries style float_repr entries =
      entries.map fun entry => (entry.1, dumps style float_repr entry.2) := by
  induction entries with
  | nil => rfl
  | cons entry rest ih => rw [dump_entries, ih, List.map_cons]

-- What stands in a list or a dictionary is not longer than the whole.
theorem length_dumps_item (py : Python) (h : item ∈ items) :
    (py.dumps item).length ≤ (py.dumps (.list items)).length := by
  have hmem : dumps {} py.float_repr item ∈ items.map (dumps {} py.float_repr) :=
    List.mem_map_of_mem h
  have hle := length_le_intercalate ({} : DumpStyle).item_separator hmem
  rw [Python.dumps, Python.dumps, dumps, dump_items_eq, String.length_append, String.length_append]
  omega

theorem length_dumps_entry (py : Python) {entry : String × JSONValue} (h : entry ∈ entries) :
    (py.dumps entry.2).length ≤ (py.dumps (.dict entries)).length := by
  have hmem : dump_str entry.1 ++ ({} : DumpStyle).key_separator ++
      dumps {} py.float_repr entry.2 ∈
      (entries.map fun entry => (entry.1, dumps {} py.float_repr entry.2)).map fun dumped =>
        dump_str dumped.1 ++ ({} : DumpStyle).key_separator ++ dumped.2 := by
    rw [List.map_map]
    exact List.mem_map.mpr ⟨entry, h, rfl⟩
  have hle := length_le_intercalate ({} : DumpStyle).item_separator hmem
  rw [String.length_append] at hle
  rw [Python.dumps, Python.dumps, dumps, dump_entries_eq, String.length_append,
    String.length_append]
  have hjoin : ({} : DumpStyle).join
      (entries.map fun entry => (entry.1, dumps {} py.float_repr entry.2)) =
      ({} : DumpStyle).item_separator.intercalate
        ((entries.map fun entry => (entry.1, dumps {} py.float_repr entry.2)).map fun dumped =>
          dump_str dumped.1 ++ ({} : DumpStyle).key_separator ++ dumped.2) := rfl
  rw [hjoin]
  omega

end Lengths

-- A value within the limits of the sanitizing, whose lists and dictionaries are bounded.
inductive Tame (py : Python) (max_chars : ℕ) (bounded : JSONValue → Prop) : JSONValue → Prop
  | null : Tame py max_chars bounded .null
  | bool (value : Bool) : Tame py max_chars bounded (.bool value)
  | int (value : ℤ) : Tame py max_chars bounded (.int value)
  | float (value : ℚ) : Tame py max_chars bounded (.float value)
  | nonfinite (value : NonFinite) : Tame py max_chars bounded (.nonfinite value)
  | str {text : String} (hclean : Clean py max_chars text) : Tame py max_chars bounded (.str text)
  | list {items : List JSONValue} (hlength : items.length ≤ 100)
      (hitems : ∀ item ∈ items, Tame py max_chars bounded item) (hbounded : bounded (.list items)) :
      Tame py max_chars bounded (.list items)
  | dict {entries : JSONObject} (hlength : entries.length ≤ 100)
      (hkeys : ∀ entry ∈ entries, entry.1.length ≤ 100)
      (hnodup : (entries.map Prod.fst).Nodup)
      (hentries : ∀ entry ∈ entries, Tame py max_chars bounded entry.2)
      (hbounded : bounded (.dict entries)) : Tame py max_chars bounded (.dict entries)

namespace Tame

variable {py : Python} {max_chars : ℕ} {policy : InjectionPolicy} {bounded : JSONValue → Prop}
  {value result : JSONValue}

-- The bound on the whole bounds what stands in it.
theorem of_whole (h : Tame py max_chars bounded value) {limit : ℕ}
    (hwhole : (py.dumps value).length ≤ limit) :
    Tame py max_chars (fun value => (py.dumps value).length ≤ limit) value := by
  induction h with
  | null => exact .null
  | bool value => exact .bool value
  | int value => exact .int value
  | float value => exact .float value
  | nonfinite value => exact .nonfinite value
  | str hclean => exact .str hclean
  | list hlength hitems _ ih =>
      refine .list hlength (fun item hmem => ?_) hwhole
      exact ih item hmem ((length_dumps_item py hmem).trans hwhole)
  | dict hlength hkeys hnodup hentries _ ih =>
      refine .dict hlength hkeys hnodup (fun entry hmem => ?_) hwhole
      exact ih entry hmem ((length_dumps_entry py hmem).trans hwhole)

end Tame

section Sanitizing

variable {py : Python} {max_chars : ℕ} {policy : InjectionPolicy} {value result : JSONValue}
  {items : List JSONValue} {entries : JSONObject}

theorem take_chars_of_short {count : ℕ} {text : String} (h : text.length ≤ count) :
    take_chars count text = text := by
  rw [take_chars, List.take_of_length_le, String.ofList_toList]
  exact String.length_toList.trans_le h

theorem sanitize_clean {text : String} (h : Clean py max_chars text) :
    sanitize_untrusted_text py max_chars policy text = .ok text := by
  have hkept : text.toList.filter (fun char => char ∈ ['\n', '\t'] || char.toNat ≥ 32) =
      text.toList := by
    rw [List.filter_eq_self]
    intro char hchar
    simpa using h.printable char hchar
  unfold sanitize_untrusted_text
  dsimp only
  rw [hkept, String.ofList_toList, take_chars_of_short h.short, h.uninjected]
  rfl

theorem sanitize_items_fixed {count : ℕ} (hlength : items.length ≤ count)
    (h : ∀ item ∈ items, sanitize_tool_result py max_chars policy item = .ok item) :
    sanitize_items py max_chars policy count items = .ok items := by
  induction items generalizing count with
  | nil => cases count <;> rfl
  | cons item rest ih =>
      cases count with
      | zero => simp at hlength
      | succ count =>
          have hrest := ih (Nat.le_of_succ_le_succ hlength) fun other hmem =>
            h other (List.mem_cons_of_mem _ hmem)
          rw [sanitize_items, h item List.mem_cons_self, hrest]
          rfl

theorem sanitize_entries_fixed {count : ℕ} (hlength : entries.length ≤ count)
    (hkeys : ∀ entry ∈ entries, entry.1.length ≤ 100)
    (h : ∀ entry ∈ entries, sanitize_tool_result py max_chars policy entry.2 = .ok entry.2) :
    sanitize_entries py max_chars policy count entries = .ok entries := by
  induction entries generalizing count with
  | nil => cases count <;> rfl
  | cons entry rest ih =>
      cases count with
      | zero => simp at hlength
      | succ count =>
          have hrest := ih (Nat.le_of_succ_le_succ hlength)
            (fun other hmem => hkeys other (List.mem_cons_of_mem _ hmem))
            (fun other hmem => h other (List.mem_cons_of_mem _ hmem))
          rw [sanitize_entries, h entry List.mem_cons_self, hrest,
            take_chars_of_short (hkeys entry List.mem_cons_self)]
          rfl

-- A value within all the limits is left as it is.
theorem sanitize_tame (h : Tame py max_chars (fun value => (py.dumps value).length ≤ max_chars)
    value) : sanitize_tool_result py max_chars policy value = .ok value := by
  induction h with
  | null | bool | int | float | nonfinite => rfl
  | str hclean =>
      rw [sanitize_tool_result, sanitize_clean hclean]
      rfl
  | list hlength _ hbounded ih =>
      rw [sanitize_tool_result, sanitize_items_fixed hlength ih]
      exact bound_serialized_eq_ok.mpr ⟨hbounded, rfl⟩
  | dict hlength hkeys hnodup _ hbounded ih =>
      rw [sanitize_tool_result, sanitize_entries_fixed hlength hkeys ih]
      refine bound_serialized_eq_ok.mpr ?_
      rw [collect_of_nodup hnodup]
      exact ⟨hbounded, rfl⟩

-- What is sanitized is within all the limits.
theorem tame_sanitized (hmark : contains_prompt_injection py REDACTED = false)
    (hmax : 1000 ≤ max_chars) (h : sanitize_tool_result py max_chars policy value = .ok result) :
    Tame py max_chars (fun value => (py.dumps value).length ≤ max_chars) result := by
  refine sanitize_rule (fun _ result =>
    Tame py max_chars (fun value => (py.dumps value).length ≤ max_chars) result)
    ?scalar ?str ?list ?dict h
  case scalar =>
    intro value hstr hlist hdict
    cases value with
    | null => exact .null
    | bool value => exact .bool value
    | int value => exact .int value
    | float value => exact .float value
    | nonfinite value => exact .nonfinite value
    | str text => exact absurd rfl (hstr text)
    | list items => exact absurd rfl (hlist items)
    | dict entries => exact absurd rfl (hdict entries)
  case str => exact fun text sanitized htext => .str (clean_sanitized hmark hmax htext)
  case list =>
    intro items sanitized hitems hbounded
    refine .list ?_ (fun item hmem => ?_) hbounded
    · rw [← hitems.length_eq]
      exact List.length_take_le ..
    · obtain ⟨_, -, htame⟩ := partner_of_mem hitems hmem
      exact htame
  case dict =>
    intro entries sanitized hentries hbounded
    refine .dict ?_ (fun entry hmem => ?_) (nodup_collect _) (fun entry hmem => ?_) hbounded
    · refine (length_collect_le sanitized).trans ?_
      rw [← hentries.length_eq]
      exact List.length_take_le ..
    · obtain ⟨_, -, hkey, -⟩ := partner_of_mem hentries (of_mem_collect hmem)
      rw [← hkey]
      exact length_take_chars_le ..
    · obtain ⟨_, -, -, htame⟩ := partner_of_mem hentries (of_mem_collect hmem)
      exact htame

end Sanitizing

-- Good data comes back as it is, and so does what has been sanitized before.
theorem sanitizing_stable (py : Python) (max_chars : ℕ) (policy : InjectionPolicy)
    (hmark : contains_prompt_injection py REDACTED = false) (hmax : 1000 ≤ max_chars) :
    (∀ value, Tame py max_chars (fun _ => True) value →
      ((∃ items, value = .list items) ∨ (∃ entries, value = .dict entries) →
        (py.dumps value).length ≤ max_chars) →
      sanitize_tool_result py max_chars policy value = .ok value) ∧
    ∀ value result, sanitize_tool_result py max_chars policy value = .ok result →
      sanitize_tool_result py max_chars policy result = .ok result := by
  constructor
  · intro value htame hwhole
    apply sanitize_tame
    cases htame with
    | null => exact .null
    | bool value => exact .bool value
    | int value => exact .int value
    | float value => exact .float value
    | nonfinite value => exact .nonfinite value
    | str hclean => exact .str hclean
    | list hlength hitems hbounded =>
        exact Tame.of_whole (.list hlength hitems hbounded) (hwhole (.inl ⟨_, rfl⟩))
    | dict hlength hkeys hnodup hentries hbounded =>
        exact Tame.of_whole (.dict hlength hkeys hnodup hentries hbounded)
          (hwhole (.inr ⟨_, rfl⟩))
  · exact fun value result h => sanitize_tame (tame_sanitized hmark hmax h)

-- A text that is redacted the first time, and good data.
theorem sanitizing_stable_redacted :
    sanitize_tool_result .matching 1000 .redact (.dict [("price", .int 1)]) =
        .ok (.dict [("price", .int 1)]) ∧
      sanitize_tool_result .matching 1000 .redact (.list [.str REDACTED]) =
        .ok (.list [.str REDACTED]) := by
  have hstable := sanitizing_stable .matching 1000 .redact (by decide) le_rfl
  have hredacted : sanitize_tool_result .matching 1000 .redact
      (.list [.str "ignore this instruction"]) = .ok (.list [.str REDACTED]) := rfl
  have htame : Tame .matching 1000 (fun _ => True) (.dict [("price", .int 1)]) := by
    refine .dict (by decide) (by decide) (by decide) (fun entry hmem => ?_) trivial
    cases List.mem_singleton.mp hmem
    exact .int 1
  exact ⟨hstable.1 _ htame fun _ => by decide, hstable.2 _ _ hredacted⟩

end ResearchAgent.Research
