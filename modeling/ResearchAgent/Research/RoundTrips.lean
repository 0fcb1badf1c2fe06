import Mathlib.Data.String.Basic
import ResearchAgent.Library.JsonText
import ResearchAgent.Research.Fences
import ResearchAgent.Research.Stability

namespace ResearchAgent.Research

open Library Library.Json JobQueue Service

section Arranged

-- The order in which the entries of a dictionary are written.
def arrange (style : DumpStyle) (entries : JSONObject) : JSONObject :=
  if style.sort_keys then entries.insertionSort fun entry other => entry.1 ≤ other.1 else entries

mutual

-- The value with the entries of every dictionary in the order in which they are written.
def arranged (style : DumpStyle) : JSONValue → JSONValue
  | .list items => .list (arranged_items style items)
  | .dict entries => .dict (arrange style (arranged_entries style entries))
  | value => value

def arranged_items (style : DumpStyle) : List JSONValue → List JSONValue
  | [] => []
  | item :: rest => arranged style item :: arranged_items style rest

def arranged_entries (style : DumpStyle) : List (String × JSONValue) → JSONObject
  | [] => []
  | (key, value) :: rest => (key, arranged style value) :: arranged_entries style rest

end

theorem arranged_items_eq (style : DumpStyle) (items : List JSONValue) :
    arranged_items style items = items.map (arranged style) := by
  induction items with
  | nil => rfl
  | cons item rest ih => rw [arranged_items, ih, List.map_cons]

theorem arranged_entries_eq (style : DumpStyle) (entries : JSONObject) :
    arranged_entries style entries =
      entries.map fun entry => (entry.1, arranged style entry.2) := by
  induction entries with
  | nil => rfl
  | cons entry rest ih =>
      obtain ⟨key, value⟩ := entry
      rw [arranged_entries, ih, List.map_cons]

theorem arrange_perm (style : DumpStyle) (entries : JSONObject) :
    (arrange style entries).Perm entries := by
  unfold arrange
  split
  · exact List.perm_insertionSort _ _
  · rfl

-- The order depends on the keys only.
theorem order_map (style : DumpStyle) (write : JSONValue → String) (entries : JSONObject) :
    style.order (entries.map fun entry => (entry.1, write entry.2)) =
      (arrange style entries).map fun entry => (entry.1, write entry.2) := by
  unfold DumpStyle.order arrange
  split
  · exact (List.map_insertionSort (fun entry other : String × JSONValue => entry.1 ≤ other.1)
      (fun entry other : String × String => entry.1 ≤ other.1) _ _ fun _ _ _ _ => Iff.rfl).symm
  · rfl

theorem arrange_map (style : DumpStyle) (change : JSONValue → JSONValue) (entries : JSONObject) :
    arrange style (entries.map fun entry => (entry.1, change entry.2)) =
      (arrange style entries).map fun entry => (entry.1, change entry.2) := by
  unfold arrange
  split
  · exact (List.map_insertionSort (fun entry other : String × JSONValue => entry.1 ≤ other.1)
      (fun entry other : String × JSONValue => entry.1 ≤ other.1)
      (fun entry => (entry.1, change entry.2)) _ fun _ _ _ _ => Iff.rfl).symm
  · rfl

end Arranged

section Texts

variable {text : String} {char : Char}

-- The UTF-16 units of a character.
def units (char : Char) : List ℕ :=
  if char.toNat < 65536 then [char.toNat]
  else [55296 + (char.toNat - 65536) / 1024, 56320 + (char.toNat - 65536) % 1024]

theorem toNat_valid (char : Char) :
    char.toNat < 0xd800 ∨ 0xdfff < char.toNat ∧ char.toNat < 0x110000 := char.valid

theorem hex_digit_digitChar {digit : ℕ} (h : digit < 16) :
    hex_digit digit.digitChar = some digit := by
  have hdigits : ∀ digit < 16, hex_digit digit.digitChar = some digit := by decide
  exact hdigits digit h

theorem writes_unicode_escape {unit : ℕ} (h : unit < 65536) :
    Writes (unicode_escape unit).toList [unit] := by
  intro before
  have hlead : unit / 4096 < 16 := by omega
  have hunit : 16 * (16 * (16 * (unit / 4096) + unit / 256 % 16) + unit / 16 % 16) + unit % 16 =
      unit := by omega
  simp [unicode_escape, Mode.scan, Mode.step, hex_digit_digitChar hlead,
    hex_digit_digitChar (Nat.mod_lt _ (by decide : 16 > 0)), hunit]

theorem writes_escape_char (char : Char) : Writes (escape_char char).toList (units char) := by
  unfold escape_char units
  split
  case h_8 hquote hslash _ _ _ _ _ =>
    split_ifs with hplain hunit hunit
    · intro before
      simp only [between, Bool.and_eq_true, decide_eq_true_eq, Char.le_def] at hplain
      have hcontrol : ¬char.toNat < 0x20 := by
        have := UInt32.le_iff_toNat_le.mp hplain.1
        simpa using this
      have hquote' : char ≠ '"' := hquote
      have hslash' : char ≠ '\\' := hslash
      simp [Mode.scan, Mode.step, hquote', hslash', hcontrol]
    · simp only [between, Bool.and_eq_true, decide_eq_true_eq, Char.le_def] at hplain
      have := UInt32.le_iff_toNat_le.mp hplain.2
      simp at this
      omega
    · exact writes_unicode_escape hunit
    · rw [String.toList_append]
      have hvalid := toNat_valid char
      exact (writes_unicode_escape (by omega)).append (writes_unicode_escape (by omega))
  all_goals exact fun before => rfl

theorem writes_escaped (text : List Char) :
    Writes (text.flatMap fun char => (escape_char char).toList) (text.flatMap units) := by
  induction text with
  | nil => exact writes_nil
  | cons char rest ih => exact (writes_escape_char char).append ih

def codes (text : String) : List ℕ := text.toList.flatMap units

theorem spelled_dump_str (text : String) : Spelled (dump_str text).toList [.text (codes text)] := by
  have htoList : (dump_str text).toList =
      '"' :: text.toList.flatMap (fun char => (escape_char char).toList) ++ ['"'] := by
    simp [dump_str, String.toList_join, List.flatMap_map]
  rw [htoList]
  exact spelled_text (writes_escaped text.toList)

namespace Interpreter

theorem join_plain {code : ℕ} (h : is_high code = false) (rest : List ℕ) :
    join_surrogates (code :: rest) = code :: join_surrogates rest := by
  cases rest with
  | nil => rfl
  | cons low rest => simp [join_surrogates, h]

theorem join_units (char : Char) (rest : List ℕ) :
    join_surrogates (units char ++ rest) = char.toNat :: join_surrogates rest := by
  have hvalid := toNat_valid char
  unfold units
  split_ifs with hunit
  · exact join_plain (by simp [is_high]; omega) rest
  · have hpair : is_high (55296 + (char.toNat - 65536) / 1024) = true ∧
        is_low (56320 + (char.toNat - 65536) % 1024) = true := by
      simp only [is_high, is_low, decide_eq_true_eq]
      omega
    have hpoint : 0x10000 + 0x400 * (55296 + (char.toNat - 65536) / 1024 - 0xd800) +
        (56320 + (char.toNat - 65536) % 1024 - 0xdc00) = char.toNat := by omega
    rw [List.cons_append, List.cons_append, List.nil_append, join_surrogates, hpair.1, hpair.2,
      hpoint]
    rfl

theorem join_codes (text : List Char) :
    join_surrogates (text.flatMap units) = text.map Char.toNat := by
  induction text with
  | nil => rfl
  | cons char rest ih => rw [List.flatMap_cons, join_units, ih, List.map_cons]

theorem read_text_codes (interpreter : Interpreter) (text : String) :
    interpreter.read_text (codes text) = text := by
  have hpoints : ((text.toList.map Char.toNat).any fun point =>
      is_high point || is_low point) = false := by
    rw [List.any_eq_false]
    intro point hmem
    obtain ⟨char, -, rfl⟩ := List.mem_map.mp hmem
    have hvalid := toNat_valid char
    simp only [is_high, is_low, Bool.or_eq_true, decide_eq_true_eq]
    omega
  unfold read_text codes
  rw [join_codes]
  simp [hpoints, List.map_map, Function.comp_def]

end Interpreter

end Texts

section Numbers

variable {interpreter : Interpreter} {float_repr : ℚ → String}

theorem read_digits_toDigits (number : ℕ) : read_digits (Nat.toDigits 10 number) = number :=
  Nat.ofDigitChars_ten_toDigits

theorem isDigit_digits (number : ℕ) : ∀ digit ∈ Nat.toDigits 10 number, digit.isDigit = true :=
  fun _ hmem => Nat.isDigit_of_mem_toDigits (by decide) (by decide) hmem

-- A number is written without a leading zero.
theorem toDigits_head {number : ℕ} (h : 0 < number) :
    ∃ digit rest, Nat.toDigits 10 number = digit :: rest ∧ digit ≠ '0' := by
  induction number using Nat.strong_induction_on with
  | _ number ih =>
      by_cases hlast : number < 10
      · refine ⟨_, _, Nat.toDigits_of_lt_base hlast, ?_⟩
        have hdigits : ∀ number < 10, 0 < number → number.digitChar ≠ '0' := by decide
        exact hdigits number hlast h
      · obtain ⟨digit, rest, hrest, hne⟩ := ih (number / 10) (by omega) (by omega)
        refine ⟨digit, rest ++ [(number % 10).digitChar], ?_, hne⟩
        rw [Nat.toDigits_of_base_le (by decide) (by omega), hrest, List.cons_append]

theorem take_whole_digits (number : ℕ) :
    take_whole (Nat.toDigits 10 number) = some (Nat.toDigits 10 number, []) := by
  rcases Nat.eq_zero_or_pos number with rfl | hpos
  · rfl
  · obtain ⟨digit, rest, hdigits, hne⟩ := toDigits_head hpos
    have hspan : (digit :: rest).span Char.isDigit = (digit :: rest, []) := by
      rw [List.span_eq_takeWhile_dropWhile, ← hdigits,
        List.takeWhile_eq_self_iff.mpr (isDigit_digits number),
        List.dropWhile_eq_nil_iff.mpr (isDigit_digits number)]
    rw [hdigits]
    unfold take_whole
    split
    · rename_i heq
      exact absurd (List.cons.inj heq).1 hne
    · simp only [hspan]
      rfl

-- What a number starts with is not the start of a name.
theorem read_scalar_number {lexeme : List Char} {digits rest : List Char}
    (h : take_whole (if lexeme.head? = some '-' then lexeme.tail else lexeme) =
      some (digits, rest)) :
    interpreter.read_scalar lexeme = interpreter.read_number lexeme := by
  unfold Interpreter.read_scalar
  split
  case h_7 => rfl
  all_goals
    rename_i hname
    have hlexeme := congrArg String.toList hname
    rw [String.toList_ofList] at hlexeme
    subst hlexeme
    cases h

theorem read_scalar_int (value : ℤ) (h : (Nat.toDigits 10 value.natAbs).length ≤ MAX_STR_DIGITS) :
    interpreter.read_scalar (toString value).toList = .ok (.int value) := by
  cases value with
  | ofNat number =>
      have htake := take_whole_digits number
      have hlexeme : (toString (Int.ofNat number)).toList = Nat.toDigits 10 number := by
        simp [toString, Int.repr, Nat.repr]
      have hplain : (Nat.toDigits 10 number).head? ≠ some '-' := by
        intro hhead
        exact absurd (isDigit_digits number '-' (List.mem_of_mem_head? hhead)) (by decide)
      rw [hlexeme, read_scalar_number (by rw [if_neg hplain]; exact htake)]
      have hlimit : (Nat.toDigits 10 number).length ≤ MAX_STR_DIGITS := h
      simp [Interpreter.read_number, hplain, htake, skip_fraction, skip_exponent,
        read_digits_toDigits, hlimit]
  | negSucc number =>
      have htake := take_whole_digits (number + 1)
      have hlexeme : (toString (Int.negSucc number)).toList =
          '-' :: Nat.toDigits 10 (number + 1) := by
        simp [toString, Int.repr, Nat.repr]
      have hlimit : (Nat.toDigits 10 (number + 1)).length ≤ MAX_STR_DIGITS := h
      rw [hlexeme, @read_scalar_number _ ('-' :: Nat.toDigits 10 (number + 1)) _ _ htake]
      simp [Interpreter.read_number, htake, skip_fraction, skip_exponent, read_digits_toDigits,
        hlimit, Int.negSucc_eq]

theorem letter_of_digit {digit : Char} (h : digit.isDigit = true) : is_letter digit = true := by
  simp [is_letter, Char.isAlphanum, h]

theorem spells_int (value : ℤ) :
    Spells (toString value).toList [.scalar (toString value).toList] := by
  have hdigits (number : ℕ) : ∀ char ∈ Nat.toDigits 10 number, is_letter char = true :=
    fun char hmem => letter_of_digit (isDigit_digits number char hmem)
  cases value with
  | ofNat number =>
      have hlexeme : (toString (Int.ofNat number)).toList = Nat.toDigits 10 number := by
        simp [toString, Int.repr, Nat.repr]
      rw [hlexeme]
      exact spells_scalar Nat.toDigits_ne_nil (hdigits number)
  | negSucc number =>
      have hlexeme : (toString (Int.negSucc number)).toList =
          '-' :: Nat.toDigits 10 (number + 1) := by
        simp [toString, Int.repr, Nat.repr]
      rw [hlexeme]
      exact spells_scalar (List.cons_ne_nil _ _)
        (List.forall_mem_cons.mpr ⟨by decide, hdigits (number + 1)⟩)

-- `float.__repr__` writes a number with a fraction or an exponent, which `float` takes
-- back to the same number.
structure ReadsBack (interpreter : Interpreter) (float_repr : ℚ → String) (number : ℚ) :
    Prop where
  letters : ∀ char ∈ (float_repr number).toList, is_letter char = true
  written : ∃ digits rest, take_whole (if (float_repr number).toList.head? = some '-' then
      (float_repr number).toList.tail else (float_repr number).toList) = some (digits, rest) ∧
    rest ≠ [] ∧ skip_exponent (skip_fraction rest) = []
  read : interpreter.float (float_repr number) = .float number

theorem ReadsBack.ne_nil {number : ℚ} (h : ReadsBack interpreter float_repr number) :
    (float_repr number).toList ≠ [] := by
  intro hnil
  obtain ⟨digits, rest, htake, -⟩ := h.written
  rw [hnil] at htake
  cases htake

theorem read_scalar_float {number : ℚ} (h : ReadsBack interpreter float_repr number) :
    interpreter.read_scalar (float_repr number).toList = .ok (.float number) := by
  obtain ⟨digits, rest, htake, hne, hskip⟩ := h.written
  rw [read_scalar_number htake]
  have hlonger : 0 < rest.length := List.length_pos_of_ne_nil hne
  simp [Interpreter.read_number, htake, hskip, hlonger, h.read]

theorem read_scalar_nonfinite {value : NonFinite}
    (h : interpreter.float value.literal = .nonfinite value) :
    interpreter.read_scalar value.literal.toList = .ok (.nonfinite value) := by
  cases value <;> exact congrArg Except.ok h

theorem spells_nonfinite (value : NonFinite) :
    Spells value.literal.toList [.scalar value.literal.toList] := by
  cases value <;> exact spells_scalar (by decide) (List.all_eq_true.mp rfl)

end Numbers

section Values

variable {interpreter : Interpreter} {float_repr : ℚ → String} {style : DumpStyle}

-- The values that fit into `depth` containers around each other, of the numbers that are
-- read back.
inductive Legible (interpreter : Interpreter) (float_repr : ℚ → String) : ℕ → JSONValue → Prop
  | null {depth} : Legible interpreter float_repr depth .null
  | bool {depth} (value : Bool) : Legible interpreter float_repr depth (.bool value)
  | int {depth} {value : ℤ} (h : (Nat.toDigits 10 value.natAbs).length ≤ MAX_STR_DIGITS) :
      Legible interpreter float_repr depth (.int value)
  | float {depth} {value : ℚ} (h : ReadsBack interpreter float_repr value) :
      Legible interpreter float_repr depth (.float value)
  | nonfinite {depth} {value : NonFinite}
      (h : interpreter.float value.literal = .nonfinite value) :
      Legible interpreter float_repr depth (.nonfinite value)
  | str {depth} (text : String) : Legible interpreter float_repr depth (.str text)
  | list {depth} {items : List JSONValue}
      (h : ∀ item ∈ items, Legible interpreter float_repr depth item) :
      Legible interpreter float_repr (depth + 1) (.list items)
  | dict {depth} {entries : JSONObject} (hkeys : (entries.map Prod.fst).Nodup)
      (h : ∀ entry ∈ entries, Legible interpreter float_repr depth entry.2) :
      Legible interpreter float_repr (depth + 1) (.dict entries)

theorem legible_arranged {depth : ℕ} {value : JSONValue}
    (h : Legible interpreter float_repr depth value) :
    Legible interpreter float_repr depth (arranged style value) := by
  induction h with
  | null => exact .null
  | bool value => exact .bool value
  | int h => exact .int h
  | float h => exact .float h
  | nonfinite h => exact .nonfinite h
  | str text => exact .str text
  | list h ih =>
      rw [arranged, arranged_items_eq]
      exact .list (List.forall_mem_map.mpr ih)
  | @dict depth entries hkeys h ih =>
      rw [arranged, arranged_entries_eq]
      have hperm := arrange_perm style (entries.map fun entry => (entry.1, arranged style entry.2))
      refine .dict ?_ ?_
      · apply (hperm.map Prod.fst).nodup_iff.mpr
        simpa [List.map_map, Function.comp_def] using hkeys
      · intro entry hmem
        obtain ⟨before, hbefore, rfl⟩ := List.mem_map.mp (hperm.mem_iff.mp hmem)
        exact ih before hbefore

-- The structure of the text of a value.
mutual

def tree (float_repr : ℚ → String) : JSONValue → Document
  | .null => .scalar "null".toList
  | .bool true => .scalar "true".toList
  | .bool false => .scalar "false".toList
  | .int value => .scalar (toString value).toList
  | .float value => .scalar (float_repr value).toList
  | .nonfinite value => .scalar value.literal.toList
  | .str text => .text (codes text)
  | .list items => .list (tree_items float_repr items)
  | .dict entries => .dict (tree_entries float_repr entries)

def tree_items (float_repr : ℚ → String) : List JSONValue → List Document
  | [] => []
  | item :: rest => tree float_repr item :: tree_items float_repr rest

def tree_entries (float_repr : ℚ → String) : List (String × JSONValue) → List (List ℕ × Document)
  | [] => []
  | (key, value) :: rest => (codes key, tree float_repr value) :: tree_entries float_repr rest

end

-- The separators that `json.dumps` writes: a mark, and spaces behind it.
structure Spaced (style : DumpStyle) : Prop where
  items : ∃ spaces, style.item_separator.toList = ',' :: spaces ∧ ∀ char ∈ spaces, char ∈ SPACES
  keys : ∃ spaces, style.key_separator.toList = ':' :: spaces ∧ ∀ char ∈ spaces, char ∈ SPACES

theorem compact_spaced : Spaced .compact :=
  ⟨⟨[], rfl, by simp⟩, [], rfl, by simp⟩

theorem height_tree {depth : ℕ} {value : JSONValue}
    (h : Legible interpreter float_repr depth value) : (tree float_repr value).height ≤ depth := by
  induction h with
  | null | int | float | nonfinite | str => exact Nat.zero_le _
  | bool value => cases value <;> exact Nat.zero_le _
  | @list depth items h ih =>
      simp only [tree, Document.height, Nat.add_le_add_iff_right]
      clear h
      induction items with
      | nil => exact Nat.zero_le _
      | cons item rest ihrest =>
          exact max_le (ih item List.mem_cons_self)
            (ihrest (List.forall_mem_of_forall_mem_cons ih))
  | @dict depth entries hkeys h ih =>
      simp only [tree, Document.height, Nat.add_le_add_iff_right]
      clear h hkeys
      induction entries with
      | nil => exact Nat.zero_le _
      | cons entry rest ihrest =>
          exact max_le (ih entry List.mem_cons_self)
            (ihrest (List.forall_mem_of_forall_mem_cons ih))

-- Reading the parts gives the value back.
theorem read_tree {depth : ℕ} {value : JSONValue}
    (h : Legible interpreter float_repr depth value) :
    (tree float_repr value).read interpreter.reading = .ok value := by
  induction h with
  | null => rfl
  | bool value => cases value <;> rfl
  | int h => exact read_scalar_int _ h
  | float h => exact read_scalar_float h
  | nonfinite h => exact read_scalar_nonfinite h
  | str text =>
      rw [tree, Document.read]
      exact congrArg (fun read => Except.ok (JSONValue.str read))
        (Interpreter.read_text_codes interpreter text)
  | @list depth items h ih =>
      have hitems : Document.read_each interpreter.reading (tree_items float_repr items) =
          .ok items := by
        clear h
        induction items with
        | nil => rfl
        | cons item rest ihrest =>
            rw [tree_items, Document.read_each, ih item List.mem_cons_self,
              ihrest (List.forall_mem_of_forall_mem_cons ih)]
            rfl
      rw [tree, Document.read, hitems]
      rfl
  | @dict depth entries hkeys h ih =>
      have hentries : Document.read_fields interpreter.reading (tree_entries float_repr entries) =
          .ok (entries.map fun entry => (codes entry.1, entry.2)) := by
        clear h hkeys
        induction entries with
        | nil => rfl
        | cons entry rest ihrest =>
            rw [tree_entries, Document.read_fields, ih entry List.mem_cons_self,
              ihrest (List.forall_mem_of_forall_mem_cons ih)]
            rfl
      have hcollect : ((entries.map fun entry => (codes entry.1, entry.2)).foldl
          (fun object entry => assign (interpreter.read_text entry.1) entry.2 object) []) =
          entries := by
        rw [List.foldl_map]
        simp only [Interpreter.read_text_codes]
        exact collect_of_nodup hkeys
      rw [tree, Document.read, hentries]
      exact congrArg (fun object => Except.ok (JSONValue.dict object)) hcollect

theorem tree_items_eq (items : List JSONValue) :
    tree_items float_repr items = items.map (tree float_repr) := by
  induction items with
  | nil => rfl
  | cons item rest ih => rw [tree_items, ih, List.map_cons]

theorem tree_entries_eq (entries : JSONObject) : tree_entries float_repr entries =
    entries.map fun entry => (codes entry.1, tree float_repr entry.2) := by
  induction entries with
  | nil => rfl
  | cons entry rest ih =>
      obtain ⟨key, value⟩ := entry
      rw [tree_entries, ih, List.map_cons]

theorem tokens_each_eq (items : List Document) :
    Document.tokens_each items = items.map Document.tokens := by
  induction items with
  | nil => rfl
  | cons item rest ih => rw [Document.tokens_each, ih, List.map_cons]

theorem tokens_fields_eq (entries : List (List ℕ × Document)) : Document.tokens_fields entries =
    entries.map fun entry => .text entry.1 :: .mark ':' :: entry.2.tokens := by
  induction entries with
  | nil => rfl
  | cons entry rest ih =>
      obtain ⟨key, value⟩ := entry
      rw [Document.tokens_fields, ih, List.map_cons]

theorem spelled_separator {separator : String} {mark : Char} (hmark : mark ∈ MARKS)
    (h : ∃ spaces, separator.toList = mark :: spaces ∧ ∀ char ∈ spaces, char ∈ SPACES) :
    Spelled separator.toList [.mark mark] ∧ ∀ rest, Separated (separator.toList ++ rest) := by
  obtain ⟨spaces, hseparator, hspaces⟩ := h
  rw [hseparator]
  exact ⟨(spelled_mark hmark).append (spelled_spaces hspaces), fun rest => separated_mark hmark⟩

-- The text of a value is scanned as its structure says.
theorem spells_dumps (hstyle : Spaced style) {depth : ℕ} {value : JSONValue}
    (h : Legible interpreter float_repr depth value) :
    Spells (dumps style float_repr value).toList
      (tree float_repr (arranged style value)).tokens := by
  obtain ⟨hcomma, hapart⟩ := spelled_separator (by decide) hstyle.items
  obtain ⟨hcolon, -⟩ := spelled_separator (by decide) hstyle.keys
  induction h with
  | null => exact @spells_scalar "null".toList (by decide) (List.all_eq_true.mp rfl)
  | bool value =>
      cases value with
      | true => exact @spells_scalar "true".toList (by decide) (List.all_eq_true.mp rfl)
      | false => exact @spells_scalar "false".toList (by decide) (List.all_eq_true.mp rfl)
  | int h => exact spells_int _
  | float h => exact spells_scalar h.ne_nil h.letters
  | nonfinite => exact spells_nonfinite _
  | str text => exact (spelled_dump_str text).spells
  | @list depth items h ih =>
      have hitems := @spells_between _ style.item_separator.toList '[' ']'
        (fun item => (dumps style float_repr item).toList)
        (fun item => (tree float_repr (arranged style item)).tokens) items
        (by decide) (by decide) hcomma hapart ih
      simpa [dumps, dump_items_eq, arranged, arranged_items_eq, tree, tree_items_eq,
        Document.tokens, tokens_each_eq, Function.comp_def] using hitems
  | @dict depth entries hkeys h ih =>
      have hentries := @spells_between _ style.item_separator.toList '\x7b' '\x7d'
        (fun entry : String × JSONValue => (dump_str entry.1).toList ++
          (style.key_separator.toList ++ (dumps style float_repr entry.2).toList))
        (fun entry => .text (codes entry.1) :: .mark ':' ::
          (tree float_repr (arranged style entry.2)).tokens)
        (arrange style entries) (by decide) (by decide) hcomma hapart (by
          intro entry hmem
          have hvalue := ih entry ((arrange_perm style entries).mem_iff.mp hmem)
          exact (spelled_dump_str entry.1).append_spells (hcolon.append_spells hvalue))
      simpa [dumps, DumpStyle.join, dump_entries_eq, order_map, arranged, arranged_entries_eq,
        arrange_map, tree, tree_entries_eq, Document.tokens, tokens_fields_eq, Function.comp_def]
        using hentries

-- What was written is read back, with the entries of its dictionaries as they were written.
theorem loads_dumps (hstyle : Spaced style) {value : JSONValue}
    (h : Legible interpreter float_repr interpreter.depth value) :
    interpreter.loads (dumps style float_repr value) = .value (arranged style value) := by
  have hlegible := @legible_arranged _ _ style _ _ h
  have hdecode := @Document.decode_of_lex _ _ interpreter.reading _ _
    (spells_dumps hstyle h).tokens (height_tree hlegible)
  rw [read_tree hlegible] at hdecode
  rw [Interpreter.loads, hdecode]

theorem default_spaced : Spaced {} := ⟨⟨[' '], rfl, by simp [SPACES]⟩, [' '], rfl, by simp [SPACES]⟩

-- Without `sort_keys` everything stays where it is.
theorem arranged_unsorted (hsort : style.sort_keys = false) (value : JSONValue) :
    arranged style value = value := by
  induction value using nested_induction with
  | null | bool | int | float | nonfinite | str => rfl
  | list items ih =>
      rw [arranged, arranged_items_eq]
      exact congrArg JSONValue.list ((List.map_congr_left ih).trans (List.map_id items))
  | dict entries ih =>
      have hsame : entries.map (fun entry => (entry.1, arranged style entry.2)) = entries :=
        (List.map_congr_left fun entry hmem => congrArg (Prod.mk entry.1) (ih entry hmem)).trans
          (List.map_id entries)
      rw [arranged, arranged_entries_eq, hsame, arrange, hsort]
      rfl

-- Entries in order are left in their order.
theorem arrange_of_sorted {entries : JSONObject}
    (h : (entries.map Prod.fst).Pairwise (· ≤ ·)) : arrange style entries = entries := by
  unfold arrange
  split
  · exact (List.pairwise_map.mp h).insertionSort_eq
  · rfl

theorem sorted_arrange {entries : JSONObject} (hsort : style.sort_keys = true) :
    ((arrange style entries).map Prod.fst).Pairwise (· ≤ ·) := by
  have : Std.Total fun entry other : String × JSONValue => entry.1 ≤ other.1 :=
    ⟨fun entry other => le_total entry.1 other.1⟩
  have : IsTrans (String × JSONValue) fun entry other => entry.1 ≤ other.1 :=
    ⟨fun _ _ _ => le_trans⟩
  rw [arrange, if_pos hsort, List.pairwise_map]
  exact List.pairwise_insertionSort _ entries

theorem arrange_arrange (entries : JSONObject) :
    arrange style (arrange style entries) = arrange style entries := by
  cases hsort : style.sort_keys with
  | false => simp [arrange, hsort]
  | true => exact arrange_of_sorted (sorted_arrange hsort)

theorem arranged_arranged (value : JSONValue) :
    arranged style (arranged style value) = arranged style value := by
  induction value using nested_induction with
  | null | bool | int | float | nonfinite | str => rfl
  | list items ih =>
      simp only [arranged, arranged_items_eq, List.map_map]
      exact congrArg JSONValue.list (List.map_congr_left ih)
  | dict entries ih =>
      simp only [arranged, arranged_entries_eq, arrange_map, arrange_arrange]
      rw [List.map_map]
      refine congrArg JSONValue.dict (List.map_congr_left fun entry hmem => ?_)
      exact congrArg (Prod.mk entry.1) (ih entry ((arrange_perm style entries).mem_iff.mp hmem))

-- The text does not change when the value is read back and written again.
theorem dumps_arranged (value : JSONValue) :
    dumps style float_repr (arranged style value) = dumps style float_repr value := by
  induction value using nested_induction with
  | null | bool | int | float | nonfinite | str => rfl
  | list items ih =>
      simp only [arranged, dumps, dump_items_eq, arranged_items_eq, List.map_map]
      exact congrArg (fun texts => "[" ++ style.item_separator.intercalate texts ++ "]")
        (List.map_congr_left ih)
  | dict entries ih =>
      simp only [arranged, dumps, dump_entries_eq, arranged_entries_eq, DumpStyle.join, order_map,
        arrange_map, arrange_arrange]
      simp only [List.map_map]
      refine congrArg (fun texts => "\x7b" ++ style.item_separator.intercalate texts ++ "\x7d")
        (List.map_congr_left fun entry hmem => ?_)
      have hvalue := ih entry ((arrange_perm style entries).mem_iff.mp hmem)
      simp only [Function.comp_apply, hvalue]

end Values

section SameValue

variable {interpreter : Interpreter} {float_repr : ℚ → String} {style : DumpStyle}

-- One value up to the order of the entries of its dictionaries.
mutual

def SameValue : JSONValue → JSONValue → Prop
  | .list items, .list others => SameItems items others
  | .dict entries, .dict others =>
      entries.length = others.length ∧ SameEntries entries others
  | value, other => value = other

def SameItems : List JSONValue → List JSONValue → Prop
  | [], [] => True
  | item :: rest, other :: others => SameValue item other ∧ SameItems rest others
  | _, _ => False

def SameEntries : List (String × JSONValue) → JSONObject → Prop
  | [], _ => True
  | (key, value) :: rest, others =>
      (∃ other, (key, other) ∈ others ∧ SameValue value other) ∧ SameEntries rest others

end

theorem sameItems_iff {items others : List JSONValue} :
    SameItems items others ↔ List.Forall₂ SameValue items others := by
  induction items generalizing others with
  | nil => cases others <;> simp [SameItems]
  | cons item rest ih => cases others <;> simp [SameItems, ih]

theorem sameEntries_iff {entries others : JSONObject} : SameEntries entries others ↔
    ∀ entry ∈ entries, ∃ other, (entry.1, other) ∈ others ∧ SameValue entry.2 other := by
  induction entries with
  | nil => simp [SameEntries]
  | cons entry rest ih =>
      obtain ⟨key, value⟩ := entry
      simp [SameEntries, ih]

theorem forall₂_arranged {items others : List JSONValue}
    (h : ∀ item ∈ items, ∀ other ∈ others,
      arranged style item = arranged style other ↔ SameValue item other) :
    items.map (arranged style) = others.map (arranged style) ↔
      List.Forall₂ SameValue items others := by
  induction items generalizing others with
  | nil => cases others <;> simp
  | cons item rest ih =>
      cases others with
      | nil => simp
      | cons other others =>
          have hrest := ih fun item hitem other hother =>
            h item (List.mem_cons_of_mem _ hitem) other (List.mem_cons_of_mem _ hother)
          rw [List.map_cons, List.map_cons, List.cons_eq_cons, List.forall₂_cons, hrest,
            h item List.mem_cons_self other List.mem_cons_self]

-- Sorted by distinct keys, the same entries are one list.
theorem arrange_eq_of_perm (hsort : style.sort_keys = true) {entries others : JSONObject}
    (hkeys : (entries.map Prod.fst).Nodup) (h : entries.Perm others) :
    arrange style entries = arrange style others := by
  have hperm : (arrange style entries).Perm (arrange style others) :=
    (arrange_perm style entries).trans (h.trans (arrange_perm style others).symm)
  refine hperm.eq_of_pairwise ?_ (List.pairwise_map.mp (sorted_arrange hsort))
    (List.pairwise_map.mp (sorted_arrange hsort))
  intro entry other hentry hother hle hge
  have hmem : entry ∈ entries := (arrange_perm style entries).mem_iff.mp hentry
  have hmem' : other ∈ entries :=
    h.mem_iff.mpr ((arrange_perm style others).mem_iff.mp hother)
  exact List.inj_on_of_nodup_map hkeys hmem hmem' (le_antisymm hle hge)

-- Arranged values are equal when the values are alike.
theorem arranged_eq_iff (hsort : style.sort_keys = true) {depth depth' : ℕ}
    {value other : JSONValue} (h : Legible interpreter float_repr depth value)
    (h' : Legible interpreter float_repr depth' other) :
    arranged style value = arranged style other ↔ SameValue value other := by
  induction h generalizing other depth' with
  | null | bool | int | float | nonfinite | str => cases h' <;> simp [arranged, SameValue]
  | @list depth items h ih =>
      cases h' with
      | @list _ others h' =>
          simp only [arranged, arranged_items_eq, SameValue, JSONValue.list.injEq, sameItems_iff]
          exact forall₂_arranged fun item hitem other hother => ih item hitem (h' other hother)
      | _ => simp [arranged, SameValue]
  | @dict depth entries hkeys h ih =>
      cases h' with
      | @dict _ others hothers h' =>
          simp only [arranged, arranged_entries_eq, SameValue, JSONValue.dict.injEq,
            sameEntries_iff]
          constructor
          · intro heq
            have hperm : (entries.map fun entry => (entry.1, arranged style entry.2)).Perm
                (others.map fun entry => (entry.1, arranged style entry.2)) :=
              (arrange_perm style _).symm.trans (heq ▸ arrange_perm style _)
            refine ⟨by simpa using hperm.length_eq, fun entry hmem => ?_⟩
            obtain ⟨other, hother, hsame⟩ := List.mem_map.mp
              (hperm.mem_iff.mp (List.mem_map_of_mem hmem))
            obtain ⟨hkey, hvalue⟩ := Prod.mk.inj hsame
            exact ⟨other.2, hkey ▸ hother, (ih entry hmem (h' other hother)).mp hvalue.symm⟩
          · rintro ⟨hlength, hsame⟩
            have hnodup : ((entries.map fun entry => (entry.1, arranged style entry.2)).map
                Prod.fst).Nodup := by
              simpa [List.map_map, Function.comp_def] using hkeys
            apply arrange_eq_of_perm hsort hnodup
            refine (List.subperm_of_subset hnodup.of_map ?_).perm_of_length_le (by simp [hlength])
            intro entry hmem
            obtain ⟨before, hbefore, rfl⟩ := List.mem_map.mp hmem
            obtain ⟨other, hother, hvalue⟩ := hsame before hbefore
            refine List.mem_map.mpr ⟨(before.1, other), hother, ?_⟩
            rw [(ih before hbefore (h' _ hother)).mpr hvalue]
      | _ => simp [arranged, SameValue]

theorem sameValue_arranged {depth : ℕ} {value : JSONValue}
    (h : Legible interpreter float_repr depth value) : SameValue value (arranged style value) := by
  have hself : SameValue value value :=
    (arranged_eq_iff (rfl : DumpStyle.compact.sort_keys = true) h h).mp rfl
  cases hsort : style.sort_keys with
  | false => rwa [arranged_unsorted hsort]
  | true =>
      exact (arranged_eq_iff hsort h (legible_arranged h)).mp (arranged_arranged value).symm

theorem dumps_eq_iff (hstyle : Spaced style) {value other : JSONValue}
    (h : Legible interpreter float_repr interpreter.depth value)
    (h' : Legible interpreter float_repr interpreter.depth other) :
    dumps style float_repr value = dumps style float_repr other ↔
      arranged style value = arranged style other := by
  constructor
  · intro heq
    have hread := loads_dumps hstyle h
    rw [heq, loads_dumps hstyle h'] at hread
    exact (Loaded.value.inj hread).symm
  · intro heq
    rw [← dumps_arranged value, heq, dumps_arranged]

-- A text is read back as the value up to the order of the entries, and does not change by being
-- read and written again. With sorted keys it is the text of the values that are the same up to
-- that order. Otherwise it is read back as it was and is the text of no other value.
theorem text_identifies (hstyle : Spaced style) {value other : JSONValue}
    (h : Legible interpreter float_repr interpreter.depth value)
    (h' : Legible interpreter float_repr interpreter.depth other) :
    (∃ read, interpreter.loads (dumps style float_repr value) = .value read ∧
      SameValue value read ∧ dumps style float_repr read = dumps style float_repr value) ∧
    (style.sort_keys = true →
      (dumps style float_repr value = dumps style float_repr other ↔ SameValue value other)) ∧
    (style.sort_keys = false →
      interpreter.loads (dumps style float_repr value) = .value value ∧
      (dumps style float_repr value = dumps style float_repr other ↔ value = other)) := by
  have hread := loads_dumps hstyle h
  refine ⟨⟨_, hread, sameValue_arranged h, dumps_arranged value⟩, fun hsort => ?_, fun hsort => ?_⟩
  · rw [dumps_eq_iff hstyle h h', arranged_eq_iff hsort h h']
  · rw [arranged_unsorted hsort] at hread
    refine ⟨hread, ?_⟩
    rw [dumps_eq_iff hstyle h h', arranged_unsorted hsort, arranged_unsorted hsort]

-- Numbers of one decimal, without a sign.
def tenths (number : ℚ) : String :=
  toString ((10 * number).floor / 10) ++ "." ++ toString ((10 * number).floor % 10)

def Interpreter.tenths : Interpreter where
  float text := .float (read_digits (text.toList.filter Char.isDigit) / 10)
  surrogates _ := ""
  depth := 9

theorem reads_back_tenths : ReadsBack .tenths tenths (5 / 2) := by
  have hwritten : tenths (5 / 2) = "2.5" := by decide +kernel
  refine ⟨?_, ⟨['2'], ['.', '5'], ?_⟩, ?_⟩
  · rw [hwritten]
    exact List.all_eq_true.mp rfl
  · rw [hwritten]
    decide
  · rw [hwritten]
    have hdigits : read_digits ("2.5".toList.filter Char.isDigit) = 25 := by decide
    simp only [Interpreter.tenths, hdigits]
    norm_num

-- The queue and the audit log write the same text of both, the stores do not.
theorem text_identifies_prices :
    dumps .compact tenths (.dict [("price", .float (5 / 2)), ("note", .str "☃\n")]) =
      dumps .compact tenths (.dict [("note", .str "☃\n"), ("price", .float (5 / 2))]) ∧
    dumps {} tenths (.dict [("price", .float (5 / 2)), ("note", .str "☃\n")]) ≠
      dumps {} tenths (.dict [("note", .str "☃\n"), ("price", .float (5 / 2))]) := by
  have hprices : Legible .tenths tenths Interpreter.tenths.depth
      (.dict [("price", .float (5 / 2)), ("note", .str "☃\n")]) :=
    .dict (by decide) (by simpa using ⟨.float reads_back_tenths, .str _⟩)
  have hsorted : Legible .tenths tenths Interpreter.tenths.depth
      (.dict [("note", .str "☃\n"), ("price", .float (5 / 2))]) :=
    .dict (by decide) (by simpa using ⟨.str _, .float reads_back_tenths⟩)
  constructor
  · exact ((text_identifies compact_spaced hprices hsorted).2.1 rfl).mpr
      (by simp [SameValue, SameEntries])
  · exact mt ((text_identifies default_spaced hprices hsorted).2.2 rfl).2.mp (by simp)

end SameValue

end ResearchAgent.Research
