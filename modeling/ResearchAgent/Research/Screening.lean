import Mathlib.Data.Bool.AllAny
import ResearchAgent.Research.Executions

namespace ResearchAgent.Research

open Library JobQueue

section Nested

-- What holds of a list or a dictionary as soon as it holds of everything in it holds of
-- every value.
@[elab_as_elim]
theorem nested_induction {motive : JSONValue → Prop} (null : motive .null)
    (bool : ∀ value, motive (.bool value)) (int : ∀ value, motive (.int value))
    (float : ∀ value, motive (.float value))
    (nonfinite : ∀ value, motive (.nonfinite value)) (str : ∀ text, motive (.str text))
    (list : ∀ items, (∀ item ∈ items, motive item) → motive (.list items))
    (dict : ∀ entries : JSONObject, (∀ entry ∈ entries, motive entry.2) → motive (.dict entries))
    (value : JSONValue) : motive value := by
  refine @JSONValue.rec motive (fun items => ∀ item ∈ items, motive item)
    (fun entries => ∀ entry ∈ entries, motive entry.2) (fun entry => motive entry.2)
    null bool int float nonfinite str list dict (by simp) ?cons (by simp) ?entries (fun _ _ h => h)
    value
  case cons =>
    intro item rest hitem hrest other hmem
    rcases List.mem_cons.mp hmem with rfl | hmem
    · exact hitem
    · exact hrest other hmem
  case entries =>
    intro entry rest hentry hrest other hmem
    rcases List.mem_cons.mp hmem with rfl | hmem
    · exact hentry
    · exact hrest other hmem

inductive Place where
  | key
  | value
deriving DecidableEq

-- The strings at any depth, with whether they stand as a key or as a value.
mutual

def strings : JSONValue → List (Place × String)
  | .str text => [(.value, text)]
  | .list items => strings_of_items items
  | .dict entries => strings_of_entries entries
  | .null | .bool _ | .int _ | .float _ | .nonfinite _ => []

def strings_of_items : List JSONValue → List (Place × String)
  | [] => []
  | item :: rest => strings item ++ strings_of_items rest

def strings_of_entries : List (String × JSONValue) → List (Place × String)
  | [] => []
  | (key, item) :: rest => (.key, key) :: (strings item ++ strings_of_entries rest)

end

theorem mem_strings_list {occurrence : Place × String} {items : List JSONValue} :
    occurrence ∈ strings (.list items) ↔ ∃ item ∈ items, occurrence ∈ strings item := by
  rw [strings]
  induction items with
  | nil => simp [strings_of_items]
  | cons item rest ih => simp [strings_of_items, ih]

theorem mem_strings_dict {occurrence : Place × String} {entries : JSONObject} :
    occurrence ∈ strings (.dict entries) ↔
      ∃ entry ∈ entries, occurrence = (.key, entry.1) ∨ occurrence ∈ strings entry.2 := by
  rw [strings]
  induction entries with
  | nil => simp [strings_of_entries]
  | cons entry rest ih =>
      obtain ⟨key, item⟩ := entry
      simp [strings_of_entries, ih, or_assoc]

-- What is kept of a value: the first items and entries, and the start of each key.
mutual

def cut : JSONValue → JSONValue
  | .list items => .list (cut_items 100 items)
  | .dict entries => .dict (collect (cut_entries 100 entries))
  | value => value

def cut_items : ℕ → List JSONValue → List JSONValue
  | 0, _ | _, [] => []
  | count + 1, item :: rest => cut item :: cut_items count rest

def cut_entries : ℕ → List (String × JSONValue) → JSONObject
  | 0, _ | _, [] => []
  | count + 1, (key, item) :: rest => (take_chars 100 key, cut item) :: cut_entries count rest

end

theorem cut_items_eq (count : ℕ) (items : List JSONValue) :
    cut_items count items = (items.take count).map cut := by
  induction items generalizing count with
  | nil => cases count <;> rfl
  | cons item rest ih =>
      cases count with
      | zero => rfl
      | succ count => simp [cut_items, ih]

theorem cut_entries_eq (count : ℕ) (entries : JSONObject) : cut_entries count entries =
    (entries.take count).map fun entry => (take_chars 100 entry.1, cut entry.2) := by
  induction entries generalizing count with
  | nil => cases count <;> rfl
  | cons entry rest ih =>
      cases count with
      | zero => rfl
      | succ count => simp [cut_entries, ih]

end Nested

section Collect

variable {entries others : JSONObject}

theorem collect_concat (entry : String × JSONValue) :
    collect (entries ++ [entry]) = assign entry.1 entry.2 (collect entries) := by
  simp [collect]

theorem of_mem_collect {entry : String × JSONValue} (h : entry ∈ collect entries) :
    entry ∈ entries := by
  induction entries using List.reverseRecOn with
  | nil => cases h
  | append_singleton rest last ih =>
      rw [collect_concat] at h
      rw [List.mem_append, List.mem_singleton]
      exact (of_mem_assign h).symm.imp_left ih

theorem nodup_collect (entries : JSONObject) : ((collect entries).map Prod.fst).Nodup := by
  induction entries using List.reverseRecOn with
  | nil => exact List.nodup_nil
  | append_singleton rest last ih =>
      rw [collect_concat]
      exact nodup_keys_assign _ _ _ ih

theorem length_collect_le (entries : JSONObject) : (collect entries).length ≤ entries.length := by
  induction entries using List.reverseRecOn with
  | nil => exact le_rfl
  | append_singleton rest last ih =>
      rw [collect_concat, List.length_append, List.length_singleton]
      exact (length_assign_le ..).trans (by omega)

-- A dictionary has each key once, and is left as it is.
theorem collect_of_nodup (h : (entries.map Prod.fst).Nodup) : collect entries = entries := by
  induction entries using List.reverseRecOn with
  | nil => rfl
  | append_singleton rest last ih =>
      rw [List.map_append, List.map_singleton, List.nodup_append] at h
      obtain ⟨hrest, -, hdisjoint⟩ := h
      rw [collect_concat, ih hrest, assign_of_not_mem]
      exact fun hmem => hdisjoint _ hmem _ (List.mem_singleton_self _) rfl

theorem forall₂_collect (related : JSONValue → JSONValue → Prop)
    (h : List.Forall₂ (fun entry entry' => entry.1 = entry'.1 ∧ related entry.2 entry'.2)
      entries others) :
    List.Forall₂ (fun entry entry' => entry.1 = entry'.1 ∧ related entry.2 entry'.2)
      (collect entries) (collect others) := by
  suffices hfrom : ∀ {start start' : JSONObject},
      List.Forall₂ (fun entry entry' => entry.1 = entry'.1 ∧ related entry.2 entry'.2)
        start start' →
      List.Forall₂ (fun entry entry' => entry.1 = entry'.1 ∧ related entry.2 entry'.2)
        (entries.foldl (fun collected entry => assign entry.1 entry.2 collected) start)
        (others.foldl (fun collected entry => assign entry.1 entry.2 collected) start') from
    hfrom .nil
  induction h with
  | nil => exact fun hstart => hstart
  | cons hentry _ ih =>
      intro start start' hstart
      rw [List.foldl_cons, List.foldl_cons, hentry.1]
      exact ih (forall₂_assign hentry.2 hstart)

end Collect

section Pairs

variable {α β : Type} {related : α → β → Prop} {firsts : List α} {seconds : List β}

theorem partner_of_mem (h : List.Forall₂ related firsts seconds) {second : β}
    (hmem : second ∈ seconds) : ∃ first ∈ firsts, related first second := by
  induction h with
  | nil => cases hmem
  | cons hhead _ ih =>
      rcases List.mem_cons.mp hmem with rfl | hmem
      · exact ⟨_, List.mem_cons_self, hhead⟩
      · obtain ⟨first, hfirst, hrelated⟩ := ih hmem
        exact ⟨first, List.mem_cons_of_mem _ hfirst, hrelated⟩

theorem exists_mem_iff (h : List.Forall₂ related firsts seconds) {p : α → Prop} {q : β → Prop}
    (hiff : ∀ first second, related first second → (p first ↔ q second)) :
    (∃ first ∈ firsts, p first) ↔ ∃ second ∈ seconds, q second := by
  induction h with
  | nil => simp
  | cons hhead _ ih => simp only [List.mem_cons, exists_eq_or_imp, hiff _ _ hhead, ih]

end Pairs

section Rule

variable {py : Python} {max_chars : ℕ} {policy : InjectionPolicy}

theorem bind_eq_ok {ε α β : Type} {first : Except ε α} {next : α → Except ε β} {result : β} :
    (first >>= next) = .ok result ↔ ∃ value, first = .ok value ∧ next value = .ok result := by
  cases first with
  | error error => simp [bind, Except.bind]
  | ok value => simp [bind, Except.bind]

theorem mapError_eq_ok {ε ε' α : Type} {f : ε → ε'} {first : Except ε α} {value : α} :
    first.mapError f = .ok value ↔ first = .ok value := by
  cases first with
  | error error => simp [Except.mapError]
  | ok value => simp [Except.mapError]

theorem sanitized_items {related : JSONValue → JSONValue → Prop} {items sanitized : List JSONValue}
    {count : ℕ} (hitems : ∀ item ∈ items, ∀ result,
      sanitize_tool_result py max_chars policy item = .ok result → related item result)
    (h : sanitize_items py max_chars policy count items = .ok sanitized) :
    List.Forall₂ related (items.take count) sanitized := by
  induction items generalizing count sanitized with
  | nil =>
      rw [show sanitize_items py max_chars policy count [] = .ok [] by cases count <;> rfl] at h
      cases h
      simp
  | cons item rest ih =>
      cases count with
      | zero =>
          cases h
          exact .nil
      | succ count =>
          obtain ⟨first, hfirst, h⟩ := bind_eq_ok.mp h
          obtain ⟨others, hothers, h⟩ := bind_eq_ok.mp h
          cases h
          exact .cons (hitems item List.mem_cons_self first hfirst)
            (ih (fun other hmem => hitems other (List.mem_cons_of_mem _ hmem)) hothers)

theorem sanitized_entries {related : JSONValue → JSONValue → Prop}
    {entries sanitized : JSONObject} {count : ℕ}
    (hentries : ∀ entry ∈ entries, ∀ result,
      sanitize_tool_result py max_chars policy entry.2 = .ok result → related entry.2 result)
    (h : sanitize_entries py max_chars policy count entries = .ok sanitized) :
    List.Forall₂ (fun entry result => take_chars 100 entry.1 = result.1 ∧ related entry.2 result.2)
      (entries.take count) sanitized := by
  induction entries generalizing count sanitized with
  | nil =>
      rw [show sanitize_entries py max_chars policy count [] = .ok [] by cases count <;> rfl] at h
      cases h
      simp
  | cons entry rest ih =>
      cases count with
      | zero =>
          cases h
          exact .nil
      | succ count =>
          obtain ⟨first, hfirst, h⟩ := bind_eq_ok.mp h
          obtain ⟨others, hothers, h⟩ := bind_eq_ok.mp h
          cases h
          exact .cons ⟨rfl, hentries entry List.mem_cons_self first hfirst⟩
            (ih (fun other hmem => hentries other (List.mem_cons_of_mem _ hmem)) hothers)

theorem bound_serialized_eq_ok {value result : JSONValue} :
    bound_serialized py max_chars value = .ok result ↔
      (py.dumps value).length ≤ max_chars ∧ value = result := by
  unfold bound_serialized
  split
  · next hlong => simp [hlong.not_ge]
  · next hshort => simp [not_lt.mp hshort]

-- What relates a value to its sanitized form: strings are sanitized one by one, lists and
-- dictionaries are cut, sanitized inside and bounded.
theorem sanitize_rule (related : JSONValue → JSONValue → Prop)
    (scalar : ∀ value, (∀ text, value ≠ .str text) → (∀ items, value ≠ .list items) →
      (∀ entries, value ≠ .dict entries) → related value value)
    (str : ∀ text result, sanitize_untrusted_text py max_chars policy text = .ok result →
      related (.str text) (.str result))
    (list : ∀ items sanitized, List.Forall₂ related (items.take 100) sanitized →
      (py.dumps (.list sanitized)).length ≤ max_chars →
      related (.list items) (.list sanitized))
    (dict : ∀ (entries sanitized : JSONObject),
      List.Forall₂ (fun entry result => take_chars 100 entry.1 = result.1 ∧
        related entry.2 result.2) (entries.take 100) sanitized →
      (py.dumps (.dict (collect sanitized))).length ≤ max_chars →
      related (.dict entries) (.dict (collect sanitized)))
    {value result : JSONValue} (h : sanitize_tool_result py max_chars policy value = .ok result) :
    related value result := by
  induction value using nested_induction generalizing result with
  | null | bool | int | float | nonfinite =>
      cases h
      exact scalar _ nofun nofun nofun
  | str text =>
      rw [sanitize_tool_result] at h
      cases htext : sanitize_untrusted_text py max_chars policy text with
      | error error =>
          rw [htext] at h
          cases h
      | ok sanitized =>
          rw [htext] at h
          cases h
          exact str text sanitized htext
  | list items ih =>
      rw [sanitize_tool_result] at h
      obtain ⟨sanitized, hitems, h⟩ := bind_eq_ok.mp h
      obtain ⟨hshort, rfl⟩ := bound_serialized_eq_ok.mp h
      exact list items sanitized (sanitized_items (fun item hmem _ => ih item hmem) hitems) hshort
  | dict entries ih =>
      rw [sanitize_tool_result] at h
      obtain ⟨sanitized, hentries, h⟩ := bind_eq_ok.mp h
      obtain ⟨hshort, rfl⟩ := bound_serialized_eq_ok.mp h
      exact dict entries sanitized
        (sanitized_entries (fun entry hmem _ => ih entry hmem) hentries) hshort

end Rule

section Screened

variable {py : Python} {max_chars : ℕ} {policy : InjectionPolicy} {value result : JSONValue}
  {text : String}

-- A text that screening leaves alone.
structure Clean (py : Python) (max_chars : ℕ) (text : String) : Prop where
  uninjected : contains_prompt_injection py text = false
  printable : ∀ char ∈ text.toList, char ∈ ['\n', '\t'] ∨ 32 ≤ char.toNat
  short : text.length ≤ max_chars

-- Every string is clean, the keys of dictionaries among them.
def Screened (py : Python) (max_chars : ℕ) (value : JSONValue) : Prop :=
  ∀ place text, (place, text) ∈ strings value → Clean py max_chars text

theorem toList_take_chars (count : ℕ) (text : String) :
    (take_chars count text).toList = text.toList.take count :=
  String.toList_ofList

theorem length_take_chars_le (count : ℕ) (text : String) :
    (take_chars count text).length ≤ count := by
  rw [← String.length_toList, toList_take_chars]
  exact List.length_take_le ..

theorem clean_redacted (hmark : contains_prompt_injection py REDACTED = false)
    (hmax : 1000 ≤ max_chars) : Clean py max_chars REDACTED where
  uninjected := hmark
  printable := List.all_iff_forall_prop.mp rfl
  short := le_trans (by decide) hmax

theorem clean_sanitized (hmark : contains_prompt_injection py REDACTED = false)
    (hmax : 1000 ≤ max_chars) {sanitized : String}
    (h : sanitize_untrusted_text py max_chars policy text = .ok sanitized) :
    Clean py max_chars sanitized := by
  unfold sanitize_untrusted_text at h
  dsimp only at h
  split at h
  · split at h
    · cases h
    · cases h
      exact clean_redacted hmark hmax
  · next hclean =>
    cases h
    refine ⟨by simpa using hclean, fun char hchar => ?_, length_take_chars_le ..⟩
    rw [toList_take_chars, String.toList_ofList] at hchar
    have hkept := List.of_mem_filter (List.mem_of_mem_take hchar)
    simpa using hkept

-- The values are screened wherever they stand.
theorem clean_values (hmark : contains_prompt_injection py REDACTED = false)
    (hmax : 1000 ≤ max_chars) (h : sanitize_tool_result py max_chars policy value = .ok result) :
    ∀ text, (.value, text) ∈ strings result → Clean py max_chars text := by
  refine sanitize_rule (fun _ result => ∀ text, (.value, text) ∈ strings result →
    Clean py max_chars text) ?scalar ?str ?list ?dict h
  case scalar =>
    intro value hstr hlist hdict text htext
    cases value with
    | null | bool | int | float | nonfinite => cases htext
    | str text => exact absurd rfl (hstr text)
    | list items => exact absurd rfl (hlist items)
    | dict entries => exact absurd rfl (hdict entries)
  case str =>
    intro text sanitized hsanitized other hother
    cases List.mem_singleton.mp hother
    exact clean_sanitized hmark hmax hsanitized
  case list =>
    intro items sanitized hitems _ text htext
    obtain ⟨item, hitem, htext⟩ := mem_strings_list.mp htext
    obtain ⟨_, -, hclean⟩ := partner_of_mem hitems hitem
    exact hclean text htext
  case dict =>
    intro entries sanitized hentries _ text htext
    obtain ⟨entry, hentry, heq | htext⟩ := mem_strings_dict.mp htext
    · cases heq
    · obtain ⟨_, -, -, hclean⟩ := partner_of_mem hentries (of_mem_collect hentry)
      exact hclean text htext

-- The keys are those that are kept, as they are.
theorem key_mem_iff (h : sanitize_tool_result py max_chars policy value = .ok result) :
    ∀ key, (.key, key) ∈ strings (cut value) ↔ (.key, key) ∈ strings result := by
  refine sanitize_rule (fun value result =>
    ∀ key, (.key, key) ∈ strings (cut value) ↔ (.key, key) ∈ strings result)
    ?scalar ?str ?list ?dict h
  case scalar =>
    intro value hstr hlist hdict key
    cases value with
    | null | bool | int | float | nonfinite => exact Iff.rfl
    | str text => exact absurd rfl (hstr text)
    | list items => exact absurd rfl (hlist items)
    | dict entries => exact absurd rfl (hdict entries)
  case str =>
    intro text sanitized _ key
    simp [cut, strings]
  case list =>
    intro items sanitized hitems _ key
    rw [cut, cut_items_eq, mem_strings_list, mem_strings_list]
    simp only [List.mem_map, exists_exists_and_eq_and]
    exact exists_mem_iff hitems fun item other hsame => hsame key
  case dict =>
    intro entries sanitized hentries _ key
    rw [cut, cut_entries_eq, mem_strings_dict, mem_strings_dict]
    have hkept : List.Forall₂ (fun entry entry' => entry.1 = entry'.1 ∧
        ∀ key, (.key, key) ∈ strings entry.2 ↔ (.key, key) ∈ strings entry'.2)
        ((entries.take 100).map fun entry => (take_chars 100 entry.1, cut entry.2)) sanitized :=
      List.forall₂_map_left_iff.mpr hentries
    have hcollected := forall₂_collect
      (fun kept result => ∀ key, (.key, key) ∈ strings kept ↔ (.key, key) ∈ strings result) hkept
    refine exists_mem_iff hcollected fun entry other hsame => ?_
    rw [hsame.1, hsame.2 key]

end Screened

-- A result is screened exactly where the keys that are kept are clean; they are cut, but
-- the screening passes them by.
theorem sanitized_screened_iff (py : Python) (max_chars : ℕ) (policy : InjectionPolicy)
    (hmark : contains_prompt_injection py REDACTED = false) (hmax : 1000 ≤ max_chars)
    (value result : JSONValue)
    (h : sanitize_tool_result py max_chars policy value = .ok result) :
    Screened py max_chars result ↔
      ∀ key, (.key, key) ∈ strings (cut value) → Clean py max_chars key := by
  have hkeys := key_mem_iff h
  constructor
  · exact fun hscreened key hkey => hscreened .key key ((hkeys key).mp hkey)
  · rintro hclean (_ | _) text htext
    · exact hclean text ((hkeys text).mpr htext)
    · exact clean_values hmark hmax h text htext

-- The patterns on the texts below: the first one finds its words in a key.
def Python.matching : Python :=
  { Python.small with search := fun pattern text =>
      INJECTION_PATTERNS.head? = some pattern && text = "ignore this instruction" }

def injected_key : JSONValue := .dict [("ignore this instruction", .int 1)]

theorem sanitize_injected_key :
    sanitize_tool_result .matching 1000 .block injected_key = .ok injected_key := by
  rfl

-- The key comes back as it is, and reaches the context of the model.
theorem sanitized_key_unscreened :
    contains_prompt_injection .matching REDACTED = false ∧
      sanitize_tool_result .matching 1000 .block injected_key = .ok injected_key ∧
      ¬Screened .matching 1000 injected_key := by
  refine ⟨by decide, sanitize_injected_key, fun hscreened => ?_⟩
  have hclean := hscreened .key "ignore this instruction"
    (mem_strings_dict.mpr ⟨_, List.mem_singleton_self _, .inl rfl⟩)
  exact absurd hclean.uninjected (by decide)

-- A text with the same words is blocked, and a harmless key is screened.
theorem sanitized_screened_harmless :
    Screened .matching 1000 (.dict [("price", .int 1)]) := by
  have hok : sanitize_tool_result .matching 1000 .block (.dict [("price", .int 1)]) =
      .ok (.dict [("price", .int 1)]) := rfl
  refine (sanitized_screened_iff .matching 1000 .block (by decide) le_rfl _ _ hok).mpr ?_
  intro key hkey
  have hprice : (Place.key, key) ∈ [(.key, "price")] := hkey
  cases List.mem_singleton.mp hprice
  exact ⟨by decide, List.all_iff_forall_prop.mp rfl, by decide⟩

end ResearchAgent.Research
