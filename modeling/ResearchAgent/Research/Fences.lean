import Mathlib.Data.List.TakeWhile
import ResearchAgent.Library.Json
import ResearchAgent.Research.Executions

namespace ResearchAgent.Research

open Library Library.Json JobQueue Service

section Loads

inductive LoadError where
  | JSONDecodeError
  | int_limit (digits : ℕ)
  | RecursionError
deriving DecidableEq, Repr

def LoadError.loaded : LoadError → Loaded
  | JSONDecodeError => .JSONDecodeError
  | int_limit digits => .int_limit digits
  | RecursionError => .RecursionError

-- What `json.loads` leaves to the interpreter: `float` of the text of a number, NaN and
-- the infinities included, the texts that hold half a surrogate pair, and how many
-- containers there may be around a container.
structure Interpreter where
  float : String → JSONValue
  surrogates : List ℕ → String
  depth : ℕ

-- What `int` takes at most.
def MAX_STR_DIGITS : ℕ := 4300

-- The digits before the fraction, and what follows them.
def take_whole : List Char → Option (List Char × List Char)
  | '0' :: rest => some (['0'], rest)
  | text =>
      let (digits, rest) := text.span Char.isDigit
      if digits.isEmpty then none else some (digits, rest)

def skip_fraction : List Char → List Char
  | '.' :: text =>
      let (digits, rest) := text.span Char.isDigit
      if digits.isEmpty then '.' :: text else rest
  | text => text

def skip_sign : List Char → List Char
  | '+' :: text => text
  | '-' :: text => text
  | text => text

def skip_exponent : List Char → List Char
  | [] => []
  | char :: text =>
      let (digits, rest) := (skip_sign text).span Char.isDigit
      if (char = 'e' ∨ char = 'E') ∧ !digits.isEmpty then rest else char :: text

def read_digits (digits : List Char) : ℕ :=
  digits.foldl (fun number digit => 10 * number + (digit.toNat - '0'.toNat)) 0

namespace Interpreter

variable (interpreter : Interpreter)

-- The number is read before what follows it is looked at.
def read_number (lexeme : List Char) : Except LoadError JSONValue :=
  let negative := lexeme.head? = some '-'
  match take_whole (if negative then lexeme.tail else lexeme) with
  | none => .error .JSONDecodeError
  | some (digits, rest) =>
      let remainder := skip_exponent (skip_fraction rest)
      if remainder.length < rest.length then
        if remainder.isEmpty then .ok (interpreter.float (String.ofList lexeme))
        else .error .JSONDecodeError
      else if digits.length > MAX_STR_DIGITS then .error (.int_limit digits.length)
      else if remainder.isEmpty then
        .ok (.int (if negative then -read_digits digits else read_digits digits))
      else .error .JSONDecodeError

def read_scalar (lexeme : List Char) : Except LoadError JSONValue :=
  match String.ofList lexeme with
  | "null" => .ok .null
  | "true" => .ok (.bool true)
  | "false" => .ok (.bool false)
  | "NaN" => .ok (interpreter.float "NaN")
  | "Infinity" => .ok (interpreter.float "Infinity")
  | "-Infinity" => .ok (interpreter.float "-Infinity")
  | _ => interpreter.read_number lexeme

def is_high (code : ℕ) : Bool := 0xd800 ≤ code ∧ code < 0xdc00

def is_low (code : ℕ) : Bool := 0xdc00 ≤ code ∧ code < 0xe000

def join_surrogates : List ℕ → List ℕ
  | high :: low :: rest =>
      if is_high high ∧ is_low low then
        (0x10000 + 0x400 * (high - 0xd800) + (low - 0xdc00)) :: join_surrogates rest
      else high :: join_surrogates (low :: rest)
  | codes => codes

def read_text (codes : List ℕ) : String :=
  let points := join_surrogates codes
  if points.any fun point => is_high point || is_low point then interpreter.surrogates points
  else String.ofList (points.map Char.ofNat)

def reading : Reading JSONValue LoadError where
  scalar := interpreter.read_scalar
  text codes := .str (interpreter.read_text codes)
  list := .list
  dict entries := .dict
    (entries.foldl (fun object entry => assign (interpreter.read_text entry.1) entry.2 object) [])
  malformed := .JSONDecodeError
  too_deep := .RecursionError
  depth := interpreter.depth

def loads (text : String) : Loaded :=
  match interpreter.reading.decode text.toList with
  | .ok value => .value value
  | .error error => error.loaded

theorem lex_of_loads {text : String} {value : JSONValue}
    (h : interpreter.loads text = .value value) : Token.bad ∉ lex text.toList := by
  intro hbad
  unfold loads at h
  cases hdecode : interpreter.reading.decode text.toList with
  | ok other => exact interpreter.reading.decode_bad hbad other hdecode
  | error error =>
    rw [hdecode] at h
    cases error <;> cases h

theorem loads_eq {text other : String} (h : lex text.toList = lex other.toList) :
    interpreter.loads text = interpreter.loads other := by
  unfold loads
  rw [interpreter.reading.decode_eq h]

end Interpreter

def Python.on (py : Python) (interpreter : Interpreter) : Python :=
  { py with loads := interpreter.loads }

end Loads

section Lines

-- The line ends that a text of JSON may hold as they are.
def LINE_SEPARATORS : List Char := ['\u0085', '\u2028', '\u2029']

theorem inert_of_whitespace {char : Char} (h : char ∈ whitespace) : is_inert char = true := by
  have hinert : ∀ char ∈ whitespace, is_inert char = true :=
    List.all_iff_forall_prop.mp rfl
  exact hinert char h

theorem inert_of_line_break {char : Char} (h : char ∈ line_breaks) : is_inert char = true := by
  have hinert : ∀ char ∈ line_breaks, is_inert char = true :=
    List.all_iff_forall_prop.mp rfl
  exact hinert char h

theorem inert_of_dropped {text rest : List Char}
    (h : text.takeWhile (· ∈ whitespace) = rest) : ∀ char ∈ rest, is_inert char := by
  rintro char hmem
  rw [← h] at hmem
  exact inert_of_whitespace (by simpa using List.mem_takeWhile_imp hmem)

theorem strip_padded (text : String) :
    ∃ left right, (∀ char ∈ left, is_inert char) ∧ (∀ char ∈ right, is_inert char) ∧
      left ++ (strip text).toList ++ right = text.toList := by
  let inner := text.toList.dropWhile (· ∈ whitespace)
  let padding := inner.reverse.takeWhile (· ∈ whitespace)
  refine ⟨text.toList.takeWhile (· ∈ whitespace), padding.reverse, inert_of_dropped rfl, ?_, ?_⟩
  · intro char hmem
    exact inert_of_dropped rfl char (List.mem_reverse.mp hmem)
  · have hinner : (strip text).toList ++ padding.reverse = inner := by
      simp only [strip, String.toList_ofList]
      rw [← List.reverse_append, List.takeWhile_append_dropWhile, List.reverse_reverse]
    rw [List.append_assoc, hinner, List.takeWhile_append_dropWhile]

-- The text with a line feed for every line end.
def newlines : List Char → List Char
  | [] => []
  | '\r' :: '\n' :: rest => '\n' :: newlines rest
  | char :: rest => (if char ∈ line_breaks then '\n' else char) :: newlines rest

theorem split_break {char : Char} {rest : List Char} (hchar : char ∈ line_breaks)
    (h : char = '\r' → ∀ tail, rest ≠ '\n' :: tail) (line : List Char) :
    split_lines line (char :: rest) = line :: split_lines [] rest := by
  rw [split_lines, if_pos hchar]
  exact fun tail hreturn => h hreturn tail

theorem split_plain {char : Char} (rest : List Char) (hchar : char ∉ line_breaks)
    (line : List Char) :
    split_lines line (char :: rest) = split_lines (line ++ [char]) rest := by
  rw [split_lines, if_neg hchar]
  rintro tail rfl
  exact absurd (by decide) hchar

theorem split_word {word : List Char} (rest : List Char) (hword : ∀ char ∈ word, char ∉ line_breaks)
    (line : List Char) : split_lines line (word ++ rest) = split_lines (line ++ word) rest := by
  induction word generalizing line with
  | nil => simp
  | cons char word ih =>
    rw [List.cons_append, split_plain _ (hword char List.mem_cons_self),
      ih (List.forall_mem_of_forall_mem_cons hword), List.append_assoc]
    rfl

-- What ends a line is a line feed, or a carriage return, or may only stand in a text, or
-- may not stand anywhere.
theorem line_break_cases {char : Char} (h : char ∈ line_breaks) (hplain : char ∉ LINE_SEPARATORS) :
    char = '\n' ∨ char = '\r' ∨ char ∉ SPACES ∧ char.toNat < 0x20 := by
  have hcases : ∀ char ∈ line_breaks, char ∈ LINE_SEPARATORS ∨ char = '\n' ∨ char = '\r' ∨
      char ∉ SPACES ∧ char.toNat < 0x20 := List.all_iff_forall_prop.mp rfl
  exact (hcases char h).resolve_left hplain

theorem step_line_break {mode : Mode} {char : Char} (h : char ∈ line_breaks)
    (hplain : char ∉ LINE_SEPARATORS) (hstep : (mode.step char).2 ≠ .bad) :
    (char = '\n' ∨ char = '\r') ∧ mode.step char = mode.step '\n' ∧
      (mode.step char).2 = .between := by
  rcases line_break_cases h hplain with rfl | rfl | ⟨hspace, hcontrol⟩
  · exact ⟨.inl rfl, rfl, (Mode.step_line_feed mode).resolve_right hstep⟩
  · rw [Mode.step_return] at hstep ⊢
    exact ⟨.inr rfl, rfl, (Mode.step_line_feed mode).resolve_right hstep⟩
  · cases Mode.step_inert_other (inert_of_line_break h) hspace with
    | inl hbad => exact absurd hbad hstep
    | inr htext => omega

-- A document that can be read on is read the same after its lines were put together
-- again.
theorem scan_newlines {mode : Mode} {document : List Char}
    (h : (Mode.scan mode document).2 ≠ .bad)
    (hplain : ∀ char ∈ document, char ∉ LINE_SEPARATORS) :
    Mode.scan mode (newlines document) = Mode.scan mode document := by
  fun_induction newlines document generalizing mode with
  | case1 => rfl
  | case2 rest ih =>
    have hrest : ∀ char ∈ rest, char ∉ LINE_SEPARATORS :=
      List.forall_mem_of_forall_mem_cons (List.forall_mem_of_forall_mem_cons hplain)
    have htwice := Mode.step_line_feed_twice mode
    have hscan : Mode.scan mode ('\r' :: '\n' :: rest) = Mode.scan mode ('\n' :: rest) := by
      simp only [Mode.scan, Mode.step_return, htwice, List.nil_append]
    rw [hscan] at h ⊢
    simp only [Mode.scan]
    rw [ih (Mode.scan_cons_ne_bad h).2 hrest]
  | case3 char rest hreturn ih =>
    obtain ⟨hstep, hnext⟩ := Mode.scan_cons_ne_bad h
    have htail := ih hnext (List.forall_mem_of_forall_mem_cons hplain)
    by_cases hbreak : char ∈ line_breaks
    · obtain ⟨-, hsame, -⟩ := step_line_break hbreak (hplain char List.mem_cons_self) hstep
      rw [if_pos hbreak]
      simp only [Mode.scan]
      rw [← hsame, htail]
    · rw [if_neg hbreak]
      simp only [Mode.scan]
      rw [htail]

theorem newlines_append {text rest : List Char} (h : ∀ tail, rest ≠ '\n' :: tail) :
    newlines (text ++ rest) = newlines text ++ newlines rest := by
  fun_induction newlines text with
  | case1 => rfl
  | case2 text ih => simp only [List.cons_append, newlines, ih]
  | case3 char text hreturn ih =>
    rw [List.cons_append, List.cons_append, ← ih, newlines]
    rintro tail rfl htail
    cases text with
    | nil => exact h tail htail
    | cons other text => exact hreturn text rfl (by rw [(List.cons.inj htail).1])

end Lines

section Kept

-- A line that starts with a fence stops the reading of a document.
theorem scan_fenced_line {line : List Char} (h : is_fenced (strip (String.ofList line)) = true) :
    (Mode.scan .between line).2 = .bad := by
  obtain ⟨left, right, hleft, -, hpadded⟩ := strip_padded (String.ofList line)
  rw [String.toList_ofList] at hpadded
  cases hstrip : (strip (String.ofList line)).toList with
  | nil =>
    rw [is_fenced, hstrip] at h
    exact absurd h (by decide)
  | cons char rest =>
    have hchar : char = '\x60' := by
      rw [is_fenced, hstrip, decide_eq_true_eq] at h
      exact (List.cons.inj h).1
    subst hchar
    rw [← hpadded, hstrip, List.append_assoc, Mode.scan_append]
    cases Mode.scan_between_inert hleft with
    | inl hbetween =>
      rw [hbetween]
      exact Mode.scan_append_bad (show (Mode.scan .between ['\x60']).2 = .bad from rfl) _
    | inr hbad => rw [hbad, Mode.scan_bad]

-- What is left of the lines, each with a line feed behind it.
def kept (lines : List (List Char)) : List Char :=
  (lines.filter fun line => !is_fenced (strip (String.ofList line))).flatMap (· ++ ['\n'])

theorem kept_fenced {line : List Char} (h : is_fenced (strip (String.ofList line)) = true)
    (lines : List (List Char)) : kept (line :: lines) = kept lines := by
  simp [kept, h]

theorem kept_plain {line : List Char} (h : (Mode.scan .between line).2 ≠ .bad)
    (lines : List (List Char)) : kept (line :: lines) = line ++ '\n' :: kept lines := by
  have hfenced : is_fenced (strip (String.ofList line)) = false := by
    rw [Bool.eq_false_iff]
    exact fun hfenced => h (scan_fenced_line hfenced)
  simp [kept, hfenced]

theorem scan_line_end {mode : Mode} {line document : List Char} {char : Char}
    (hchar : char ∈ line_breaks) (hplain : char ∉ LINE_SEPARATORS)
    (h : (Mode.scan mode (line ++ char :: document)).2 ≠ .bad) :
    (Mode.scan mode line).2 ≠ .bad ∧ (char = '\n' ∨ char = '\r') ∧
      (Mode.scan .between document).2 ≠ .bad := by
  have hline : (Mode.scan mode line).2 ≠ .bad := fun hbad => h (Mode.scan_append_bad hbad _)
  rw [Mode.scan_append] at h
  obtain ⟨hstep, hnext⟩ := Mode.scan_cons_ne_bad h
  obtain ⟨hends, -, hbetween⟩ := step_line_break hchar hplain hstep
  rw [hbetween] at hnext
  exact ⟨hline, hends, hnext⟩

theorem append_ne_line_feed {document : List Char} {char : Char}
    (hchar : document = [] → char ≠ '\n') (rest : List Char)
    (h : ∀ tail, document ≠ '\n' :: tail) : ∀ tail, document ++ char :: rest ≠ '\n' :: tail := by
  intro tail heq
  cases document with
  | nil => exact hchar rfl (List.cons.inj heq).1
  | cons next document => exact h document (by rw [(List.cons.inj heq).1])

-- The lines of a document that can be read on are kept, up to a line end `char` behind
-- them.
theorem kept_split {document rest line : List Char} {char : Char} (hchar : char ∈ line_breaks)
    (hrest : char = '\r' → ∀ tail, rest ≠ '\n' :: tail)
    (h : (Mode.scan .between (line ++ document)).2 ≠ .bad)
    (hplain : ∀ char ∈ document, char ∉ LINE_SEPARATORS) :
    kept (split_lines line (document ++ char :: rest)) =
      line ++ newlines (document ++ [char]) ++ kept (split_lines [] rest) := by
  fun_induction newlines document generalizing line with
  | case1 =>
    rw [List.append_nil] at h
    rw [List.nil_append, split_break hchar hrest, kept_plain h]
    simp [newlines, hchar]
  | case2 document ih =>
    have htail := List.forall_mem_of_forall_mem_cons hplain
    obtain ⟨hline, -, hnext⟩ := scan_line_end (by decide) (by decide) h
    have hlater := (scan_line_end (show '\n' ∈ line_breaks by decide) (by decide)
      (show (Mode.scan .between ([] ++ '\n' :: document)).2 ≠ .bad from hnext)).2.2
    have hkept := @ih [] hlater (List.forall_mem_of_forall_mem_cons htail)
    simp only [List.cons_append, split_lines, newlines]
    rw [kept_plain hline, hkept]
    simp
  | case3 other document hreturn ih =>
    have hlater := List.forall_mem_of_forall_mem_cons hplain
    by_cases hbreak : other ∈ line_breaks
    · obtain ⟨hline, hother, hnext⟩ :=
        scan_line_end hbreak (hplain other List.mem_cons_self) h
      by_cases hpair : other = '\r' ∧ document = [] ∧ char = '\n'
      · -- the line end behind the document completes its last one
        obtain ⟨rfl, rfl, rfl⟩ := hpair
        simp only [List.cons_append, List.nil_append, split_lines, newlines]
        rw [kept_plain hline]
        simp
      · have hfollow (rest : List Char) : other = '\r' → ∀ tail, document ++ char :: rest ≠
            '\n' :: tail := by
          intro heq
          refine append_ne_line_feed (fun hnil hchar => hpair ⟨heq, hnil, hchar⟩) rest ?_
          exact fun tail => hreturn tail heq
        have hnewlines : newlines (other :: (document ++ [char])) =
            '\n' :: newlines (document ++ [char]) := by
          rw [newlines, if_pos hbreak]
          exact fun tail heq => hfollow [] heq tail
        rw [List.cons_append, List.cons_append, split_break hbreak (hfollow rest), kept_plain hline,
          hnewlines, @ih [] hnext hlater]
        simp
    · have hsingle : newlines (other :: (document ++ [char])) =
          other :: newlines (document ++ [char]) := by
        rw [newlines, if_neg hbreak]
        rintro tail rfl
        exact absurd (by decide) hbreak
      rw [List.append_cons] at h
      rw [List.cons_append, List.cons_append, split_plain _ hbreak, ih h hlater, hsingle]
      simp

theorem flatMap_line_feed (lines : List (List Char)) :
    ∃ tail, (∀ char ∈ tail, is_inert char) ∧
      ['\n'].intercalate lines ++ tail = lines.flatMap (· ++ ['\n']) := by
  induction lines with
  | nil => exact ⟨[], by simp, rfl⟩
  | cons line lines ih =>
    cases lines with
    | nil => exact ⟨['\n'], List.forall_mem_singleton.mpr rfl, by simp⟩
    | cons next lines =>
      obtain ⟨tail, hinert, htail⟩ := ih
      refine ⟨tail, hinert, ?_⟩
      rw [List.intercalate_cons_cons, List.flatMap_cons, ← htail]
      simp

theorem strip_fences_lines {content : String} (h : is_fenced (strip content) = true) :
    strip_fences content = strip ("\n".intercalate
      (((split_lines [] (strip content).toList).filter
        fun line => !is_fenced (strip (String.ofList line))).map String.ofList)) := by
  unfold strip_fences
  rw [if_pos h, splitlines, List.filter_map, Function.comp_def]

theorem strip_fences_padded {content : String} (h : is_fenced (strip content) = true) :
    ∃ left right, (∀ char ∈ left, is_inert char) ∧ (∀ char ∈ right, is_inert char) ∧
      left ++ (strip_fences content).toList ++ right =
        kept (split_lines [] (strip content).toList) := by
  rw [strip_fences_lines h, kept]
  generalize (split_lines [] (strip content).toList).filter
    (fun line => !is_fenced (strip (String.ofList line))) = lines
  have hjoined : ("\n".intercalate (lines.map String.ofList)).toList =
      ['\n'].intercalate lines := by
    have hlines : lines.map (String.toList ∘ String.ofList) = lines := by simp
    rw [String.toList_intercalate, List.map_map, hlines]
    rfl
  obtain ⟨left, right, hleft, hright, hpadded⟩ :=
    strip_padded ("\n".intercalate (lines.map String.ofList))
  obtain ⟨tail, htail, hkept⟩ := flatMap_line_feed lines
  refine ⟨left, right ++ tail, hleft, ?_, ?_⟩
  · intro char hmem
    exact (List.mem_append.mp hmem).elim (hright char) (htail char)
  · rw [← List.append_assoc, hpadded, hjoined, hkept]

end Kept

section Fences

-- The opening line of a fence, the text, and the closing line.
def fenced (opening text closing : String) : String :=
  String.ofList (FENCE ++ ['j', 's', 'o', 'n']) ++ opening ++ text ++ closing ++ String.ofList FENCE

def LINE_ENDS : List String := ["\n", "\r\n", "\r"]

theorem strip_between {first last : Char} {inner : List Char} (hfirst : first ∉ whitespace)
    (hlast : last ∉ whitespace) :
    strip (String.ofList (first :: (inner ++ [last]))) =
      String.ofList (first :: (inner ++ [last])) := by
  simp only [strip, String.toList_ofList]
  rw [List.dropWhile_cons_of_neg (by simpa using hfirst)]
  rw [← List.cons_append, List.reverse_append, List.reverse_singleton, List.singleton_append,
    List.dropWhile_cons_of_neg (by simpa using hlast)]
  simp

theorem strip_fenced (opening text closing : String) :
    strip (fenced opening text closing) = fenced opening text closing := by
  let inner := ['\x60', '\x60', 'j', 's', 'o', 'n'] ++ opening.toList ++ text.toList ++
    closing.toList ++ ['\x60', '\x60']
  have hfenced : fenced opening text closing = String.ofList ('\x60' :: (inner ++ ['\x60'])) := by
    apply String.toList_injective
    simp only [fenced, String.toList_append, String.toList_ofList]
    simp [FENCE, inner]
  rw [hfenced, strip_between (by decide) (by decide)]

theorem is_fenced_fenced (opening text closing : String) :
    is_fenced (fenced opening text closing) = true := by
  have htake : (fenced opening text closing).toList.take 3 = FENCE := by
    simp only [fenced, String.toList_append, String.toList_ofList]
    rfl
  simp only [is_fenced, htake, decide_true]

-- The opening line is dropped, with the line feed that its end may take from the text.
theorem kept_opening {opening : String} (h : opening ∈ LINE_ENDS) (rest : List Char) :
    ∃ left, (∀ char ∈ left, is_inert char) ∧
      left ++ kept (split_lines [] (FENCE ++ ['j', 's', 'o', 'n'] ++ opening.toList ++ rest)) =
        kept (split_lines [] rest) := by
  have hline : is_fenced (strip (String.ofList (FENCE ++ ['j', 's', 'o', 'n']))) = true := by
    decide
  have hword : ∀ char ∈ FENCE ++ ['j', 's', 'o', 'n'], char ∉ line_breaks :=
    List.all_iff_forall_prop.mp rfl
  rw [List.append_assoc, split_word _ hword, List.nil_append]
  simp only [LINE_ENDS, List.mem_cons, List.not_mem_nil, or_false] at h
  rcases h with rfl | rfl | rfl
  · refine ⟨[], by simp, ?_⟩
    rw [show "\n".toList ++ rest = '\n' :: rest from rfl,
      split_break (by decide) (by simp), kept_fenced hline]
    rfl
  · refine ⟨[], by simp, ?_⟩
    rw [show "\r\n".toList ++ rest = '\r' :: '\n' :: rest from rfl, split_lines,
      kept_fenced hline]
    rfl
  · rw [show "\r".toList ++ rest = '\r' :: rest from rfl]
    by_cases hrest : ∃ tail, rest = '\n' :: tail
    · obtain ⟨tail, rfl⟩ := hrest
      refine ⟨['\n'], List.forall_mem_singleton.mpr rfl, ?_⟩
      rw [split_lines, kept_fenced hline, split_break (by decide) (by simp),
        kept_plain (by decide)]
      rfl
    · refine ⟨[], by simp, ?_⟩
      rw [split_break (by decide) (fun _ tail htail => hrest ⟨tail, htail⟩), kept_fenced hline]
      rfl

theorem fenced_padded {opening : String} (h : opening ∈ LINE_ENDS) (text closing : String) :
    ∃ left right, (∀ char ∈ left, is_inert char) ∧ (∀ char ∈ right, is_inert char) ∧
      left ++ (strip_fences (fenced opening text closing)).toList ++ right =
        kept (split_lines [] (text.toList ++ closing.toList ++ FENCE)) := by
  have hfenced := is_fenced_fenced opening text closing
  rw [← strip_fenced opening text closing] at hfenced
  obtain ⟨left, right, hleft, hright, hpadded⟩ := strip_fences_padded hfenced
  obtain ⟨head, hhead, hopening⟩ := kept_opening h (text.toList ++ closing.toList ++ FENCE)
  refine ⟨head ++ left, right, ?_, hright, ?_⟩
  · intro char hmem
    exact (List.mem_append.mp hmem).elim (hhead char) (hleft char)
  · rw [← hopening, List.append_assoc, List.append_assoc, ← List.append_assoc left, hpadded,
      strip_fenced]
    simp only [fenced, String.toList_append, String.toList_ofList, List.append_assoc]

theorem space_of_line_end {closing : String} (h : closing ∈ LINE_ENDS) :
    ∀ char ∈ closing.toList, char ∈ SPACES ∧ char ∉ LINE_SEPARATORS := by
  simp only [LINE_ENDS, List.mem_cons, List.not_mem_nil, or_false] at h
  rcases h with rfl | rfl | rfl
  · exact List.all_iff_forall_prop.mp rfl
  · exact List.all_iff_forall_prop.mp rfl
  · exact List.all_iff_forall_prop.mp rfl

theorem last_of_line_end {closing : String} (h : closing ∈ LINE_ENDS) :
    ∃ before last, closing.toList = before ++ [last] ∧ last ∈ line_breaks := by
  simp only [LINE_ENDS, List.mem_cons, List.not_mem_nil, or_false] at h
  rcases h with rfl | rfl | rfl
  · exact ⟨[], '\n', rfl, by decide⟩
  · exact ⟨['\r'], '\n', rfl, by decide⟩
  · exact ⟨[], '\r', rfl, by decide⟩

-- The closing line is dropped, and nothing before it.
theorem kept_closing {document : List Char} {closing : String} (h : closing ∈ LINE_ENDS)
    (hscan : (Mode.scan .between (document ++ closing.toList)).2 ≠ .bad)
    (hplain : ∀ char ∈ document ++ closing.toList, char ∉ LINE_SEPARATORS) :
    kept (split_lines [] (document ++ closing.toList ++ FENCE)) =
      newlines (document ++ closing.toList) := by
  obtain ⟨before, last, hlast, hbreak⟩ := last_of_line_end h
  rw [hlast, ← List.append_assoc] at hscan hplain ⊢
  have hfirst : (Mode.scan .between ([] ++ (document ++ before))).2 ≠ .bad :=
    fun hbad => hscan (Mode.scan_append_bad hbad [last])
  have hsplit := @kept_split (document ++ before) FENCE [] last hbreak
    (fun _ tail => by simp [FENCE]) hfirst
    (fun char hmem => hplain char (List.mem_append_left [last] hmem))
  have hfence : kept (split_lines [] FENCE) = [] := by decide
  rw [hfence, List.append_nil, List.nil_append] at hsplit
  rw [← hsplit, List.append_assoc (document ++ before)]
  rfl

theorem lex_newlines {document : List Char} (h : Token.bad ∉ lex document)
    (hplain : ∀ char ∈ document, char ∉ LINE_SEPARATORS) :
    lex (newlines document) = lex document := by
  unfold lex
  rw [scan_newlines (scan_ne_bad h) hplain]

variable {opening closing : String}

-- Without separators the fence is all that the cleaning takes away.
theorem lex_fenced (hopening : opening ∈ LINE_ENDS) (hclosing : closing ∈ LINE_ENDS)
    {text : String} (h : Token.bad ∉ lex text.toList)
    (hplain : ∀ char ∈ text.toList, char ∉ LINE_SEPARATORS) :
    lex (strip_fences (fenced opening text closing)).toList = lex text.toList := by
  obtain ⟨left, right, hleft, hright, hpadded⟩ := fenced_padded hopening text closing
  have hspaces : ∀ char ∈ closing.toList, char ∈ SPACES :=
    fun char hmem => (space_of_line_end hclosing char hmem).1
  have hclosed : lex (text.toList ++ closing.toList) = lex text.toList :=
    lex_append_spaces hspaces h
  have hnone : Token.bad ∉ lex (text.toList ++ closing.toList) := hclosed ▸ h
  have hall : ∀ char ∈ text.toList ++ closing.toList, char ∉ LINE_SEPARATORS := by
    intro char hmem
    exact (List.mem_append.mp hmem).elim (hplain char)
      fun hend => (space_of_line_end hclosing char hend).2
  have hkept : lex (left ++ (strip_fences (fenced opening text closing)).toList ++ right) =
      lex text.toList := by
    rw [hpadded, kept_closing hclosing (scan_ne_bad hnone) hall, lex_newlines hnone hall, hclosed]
  rw [lex_padded hleft hright (hkept ▸ h), hkept]

-- At the first separator the cleaning breaks the text that it stands in.
theorem bad_mem_lex_fenced (hopening : opening ∈ LINE_ENDS) {text : String}
    (h : Token.bad ∉ lex text.toList) {separator : Char} (hmem : separator ∈ text.toList)
    (hseparator : separator ∈ LINE_SEPARATORS) :
    Token.bad ∈ lex (strip_fences (fenced opening text closing)).toList := by
  obtain ⟨left, right, hleft, hright, hpadded⟩ := fenced_padded hopening text closing
  cases hfind : text.toList.find? (· ∈ LINE_SEPARATORS) with
  | none =>
    have hnone := List.find?_eq_none.mp hfind separator hmem
    exact absurd (by simpa using hseparator) hnone
  | some first =>
    obtain ⟨hfirst, before, rest, hsplit, hbefore⟩ := List.find?_eq_some_iff_append.mp hfind
    have hfirst : first ∈ LINE_SEPARATORS := by simpa using hfirst
    have hplain : ∀ char ∈ before, char ∉ LINE_SEPARATORS :=
      fun char hchar => by simpa using hbefore char hchar
    have hscan := scan_ne_bad h
    rw [hsplit] at hscan
    have hstart : (Mode.scan .between before).2 ≠ .bad :=
      fun hbad => hscan (Mode.scan_append_bad hbad _)
    rw [Mode.scan_append] at hscan
    have hbreaks : ∀ char ∈ LINE_SEPARATORS, char ∈ line_breaks ∧ char ∉ SPACES ∧
        char ≠ '\r' ∧ char ≠ '\n' := List.all_iff_forall_prop.mp rfl
    obtain ⟨hbreak, hspace, hreturn, hfeed⟩ := hbreaks first hfirst
    -- only a text goes on with a separator
    obtain ⟨-, codes, htext⟩ := (Mode.step_inert_other (inert_of_line_break hbreak)
      hspace).resolve_left (Mode.scan_cons_ne_bad hscan).1
    have hkept := @kept_split before (rest ++ closing.toList ++ FENCE) [] first hbreak
      (fun heq => absurd heq hreturn) hstart hplain
    have hnewlines : newlines (before ++ [first]) = newlines before ++ ['\n'] := by
      rw [newlines_append (by simpa using fun heq => absurd heq hfeed)]
      simp [newlines, hbreak]
    have htorn : left ++ (strip_fences (fenced opening text closing)).toList ++ right =
        newlines before ++
          '\n' :: kept (split_lines [] (rest ++ closing.toList ++ FENCE)) := by
      rw [hpadded, hsplit]
      simpa [hnewlines] using hkept
    have hsame : (Mode.scan .between (newlines before)).2 = .text codes := by
      rw [scan_newlines hstart hplain, htext]
    exact bad_mem_lex_of_torn hleft hright htorn hsame

end Fences

section Preserved

-- Outside its texts a document holds no fence, so none of the lines that CR and LF
-- separate in it starts with one.
theorem line_unfenced {before line after : List Char}
    (h : Token.bad ∉ lex (before ++ line ++ after))
    (hstart : before = [] ∨ ∃ front last, before = front ++ [last] ∧ last ∈ ['\n', '\r']) :
    is_fenced (strip (String.ofList line)) = false := by
  have hscan := scan_ne_bad h
  rw [List.append_assoc, Mode.scan_append] at hscan
  have hbetween : (Mode.scan .between before).2 = .between := by
    rcases hstart with rfl | ⟨front, last, rfl, hlast⟩
    · rfl
    · have hbreaks : ∀ char ∈ ['\n', '\r'], char ∈ line_breaks ∧ char ∉ LINE_SEPARATORS :=
        List.all_iff_forall_prop.mp rfl
      obtain ⟨hbreak, hplain⟩ := hbreaks last hlast
      rw [Mode.scan_append] at hscan ⊢
      refine (step_line_break hbreak hplain ?_).2.2
      intro hbad
      rw [show (Mode.scan (Mode.scan .between front).2 [last]).2 = .bad from hbad,
        Mode.scan_bad] at hscan
      exact hscan rfl
  rw [hbetween] at hscan
  rw [Bool.eq_false_iff]
  exact fun hfenced => hscan (Mode.scan_append_bad (scan_fenced_line hfenced) after)

theorem lex_strip_fences {text : String} (h : Token.bad ∉ lex text.toList) :
    lex (strip_fences text).toList = lex text.toList := by
  have hplain : is_fenced (strip text) = false := by
    have hfenced := @line_unfenced [] text.toList [] (by simpa using h) (.inl rfl)
    rwa [String.ofList_toList] at hfenced
  obtain ⟨left, right, hleft, hright, hpadded⟩ := strip_padded text
  have hstrip : strip_fences text = strip text := by simp [strip_fences, hplain]
  rw [hstrip, lex_padded hleft hright (hpadded.symm ▸ h), hpadded]

variable (py : Python) (interpreter : Interpreter) {opening closing : String}

theorem write_report_eq {text other : String}
    (h : load_report py (strip_fences text) = load_report py (strip_fences other))
    (sources : List SourceRecord) :
    write_report py sources (.text text) = write_report py sources (.text other) := by
  simp only [write_report, h]

theorem load_report_on {text other : String}
    (h : interpreter.loads text = interpreter.loads other) :
    load_report (py.on interpreter) text = load_report (py.on interpreter) other := by
  unfold load_report
  rw [show (py.on interpreter).loads text = (py.on interpreter).loads other from h]

-- A fence changes nothing about an answer that is an object of JSON, unless a text of the
-- answer holds one of the separators at which the cleaning breaks lines.
theorem fenced_answer_same_iff (hopening : opening ∈ LINE_ENDS) (hclosing : closing ∈ LINE_ENDS)
    {text : String} {report_data : JSONObject}
    (h : interpreter.loads text = .value (.dict report_data)) :
    (interpreter.loads (strip_fences (fenced opening text closing)) = interpreter.loads text ∧
      ∀ sources, write_report (py.on interpreter) sources (.text (fenced opening text closing)) =
        write_report (py.on interpreter) sources (.text text)) ↔
      ∀ char ∈ text.toList, char ∉ LINE_SEPARATORS := by
  have hnone : Token.bad ∉ lex text.toList := interpreter.lex_of_loads h
  constructor
  · rintro ⟨hsame, -⟩ char hmem hseparator
    rw [h] at hsame
    exact interpreter.lex_of_loads hsame
      (bad_mem_lex_fenced hopening hnone hmem hseparator)
  · intro hplain
    have hfenced := lex_fenced hopening hclosing hnone hplain
    refine ⟨interpreter.loads_eq hfenced, fun sources => write_report_eq _ ?_ sources⟩
    apply load_report_on
    rw [interpreter.loads_eq hfenced, interpreter.loads_eq (lex_strip_fences hnone)]

-- Room for a few containers, and no numbers with a fraction.
def Interpreter.small : Interpreter where
  float _ := .null
  surrogates _ := ""
  depth := 9

theorem fenced_answer_same_small :
    Interpreter.small.loads (strip_fences (fenced "\n" "\x7b\"risk_rating\": \"LOW\"\x7d" "\n")) =
      .value (.dict [("risk_rating", .str "LOW")]) := by
  have hloads : Interpreter.small.loads "\x7b\"risk_rating\": \"LOW\"\x7d" =
      .value (.dict [("risk_rating", .str "LOW")]) := rfl
  rw [← hloads]
  exact ((fenced_answer_same_iff .small .small (by decide) (by decide) hloads).mpr
    (List.all_iff_forall_prop.mp rfl)).1

-- A LINE SEPARATOR in a text of the answer. The fenced copy is not JSON after the cleaning.
theorem separated_answer_rejected :
    let text := "\x7b\"executive_summary\": \"Up\u2028Down\"\x7d"
    Interpreter.small.loads text = .value (.dict [("executive_summary", .str "Up\u2028Down")]) ∧
      '\x60' ∉ text.toList ∧
      Interpreter.small.loads (strip_fences (fenced "\n" text "\n")) = .JSONDecodeError ∧
      Interpreter.small.loads (strip_fences (fenced "\n" text "\n")) ≠
        Interpreter.small.loads text := by
  refine ⟨rfl, by decide, rfl, ?_⟩
  exact fun h => Loaded.noConfusion h

end Preserved

end ResearchAgent.Research
