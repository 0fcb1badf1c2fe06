import Mathlib.Data.Bool.AllAny
import Mathlib.Data.List.Basic
import Mathlib.Data.Nat.Notation

namespace Library.Json

section Scanner

inductive Token where
  | mark (char : Char)
  | scalar (lexeme : List Char)
  | text (codes : List ℕ)
  | bad
deriving DecidableEq, Repr

def SPACES : List Char := [' ', '\t', '\n', '\r']

def MARKS : List Char := ['\x7b', '\x7d', '[', ']', ',', ':']

-- What numbers and names are written with.
def is_letter (char : Char) : Bool := char.isAlphanum || char = '+' || char = '-' || char = '.'

-- What a backslash makes of the letter behind it.
def ESCAPES : List (Char × ℕ) :=
  [('"', 0x22), ('\\', 0x5c), ('/', 0x2f), ('b', 0x8), ('f', 0xc), ('n', 0xa), ('r', 0xd),
   ('t', 0x9)]

def hex_digit (char : Char) : Option ℕ :=
  if '0' ≤ char ∧ char ≤ '9' then some (char.toNat - '0'.toNat)
  else if 'a' ≤ char ∧ char ≤ 'f' then some (char.toNat - 'a'.toNat + 10)
  else if 'A' ≤ char ∧ char ≤ 'F' then some (char.toNat - 'A'.toNat + 10)
  else none

-- What the scanner is in the middle of. `hex` has `digits` more digits to come after
-- the next, and `bad` is never left.
inductive Mode where
  | between
  | scalar (lexeme : List Char)
  | text (codes : List ℕ)
  | escape (codes : List ℕ)
  | hex (codes : List ℕ) (digits code : ℕ)
  | bad
deriving DecidableEq, Repr

namespace Mode

def start (char : Char) : List Token × Mode :=
  if char ∈ SPACES then ([], between)
  else if char = '"' then ([], text [])
  else if char ∈ MARKS then ([.mark char], between)
  else if is_letter char then ([], scalar [char])
  else ([], bad)

def step : Mode → Char → List Token × Mode
  | between, char => start char
  | scalar lexeme, char =>
      if is_letter char then ([], scalar (lexeme ++ [char]))
      else (.scalar lexeme :: (start char).1, (start char).2)
  | text codes, char =>
      if char = '"' then ([.text codes], between)
      else if char = '\\' then ([], escape codes)
      -- control characters have to be escaped
      else if char.toNat < 0x20 then ([], bad)
      else ([], text (codes ++ [char.toNat]))
  | escape codes, char =>
      if char = 'u' then ([], hex codes 3 0)
      else match ESCAPES.lookup char with
        | some code => ([], text (codes ++ [code]))
        | none => ([], bad)
  | hex codes digits code, char =>
      match hex_digit char, digits with
      | none, _ => ([], bad)
      | some digit, 0 => ([], text (codes ++ [16 * code + digit]))
      | some digit, digits + 1 => ([], hex codes digits (16 * code + digit))
  | bad, _ => ([], bad)

-- What the end of the document makes of it.
def finish : Mode → List Token
  | between => []
  | scalar lexeme => [.scalar lexeme]
  | _ => [.bad]

def scan (mode : Mode) : List Char → List Token × Mode
  | [] => ([], mode)
  | char :: rest =>
      let (tokens, next) := mode.step char
      (tokens ++ (scan next rest).1, (scan next rest).2)

end Mode

def lex (document : List Char) : List Token :=
  (Mode.scan .between document).1 ++ (Mode.scan .between document).2.finish

namespace Mode

theorem scan_append (mode : Mode) (first rest : List Char) :
    scan mode (first ++ rest) = ((scan mode first).1 ++ (scan (scan mode first).2 rest).1,
      (scan (scan mode first).2 rest).2) := by
  induction first generalizing mode with
  | nil => rfl
  | cons char first ih =>
    simp only [List.cons_append, scan]
    rw [ih, List.append_assoc]

@[simp] theorem scan_bad (document : List Char) : scan bad document = ([], bad) := by
  induction document with
  | nil => rfl
  | cons char rest ih => simp only [scan, step, ih, List.nil_append]

theorem scan_append_bad {mode : Mode} {first : List Char} (h : (scan mode first).2 = bad)
    (rest : List Char) : (scan mode (first ++ rest)).2 = bad := by
  rw [scan_append, h, scan_bad]

theorem scan_cons_ne_bad {mode : Mode} {char : Char} {rest : List Char}
    (h : (scan mode (char :: rest)).2 ≠ .bad) :
    (mode.step char).2 ≠ bad ∧ (scan (mode.step char).2 rest).2 ≠ .bad := by
  refine ⟨?_, h⟩
  intro hbad
  exact h (scan_append_bad (show (scan mode [char]).2 = .bad from hbad) rest)

-- Whether a document may end here.
def closed : Mode → Bool
  | between | scalar _ => true
  | _ => false

theorem bad_mem_finish {mode : Mode} : Token.bad ∈ mode.finish ↔ mode.closed = false := by
  cases mode <;> simp [finish, closed]

theorem bad_not_mem_start (char : Char) : Token.bad ∉ (start char).1 := by
  unfold start
  split_ifs <;> simp

theorem bad_not_mem_step (mode : Mode) (char : Char) : Token.bad ∉ (mode.step char).1 := by
  cases mode with
  | between => exact bad_not_mem_start char
  | scalar lexeme =>
    simp only [step]
    split_ifs
    · exact List.not_mem_nil
    · simpa using bad_not_mem_start char
  | text codes =>
    simp only [step]
    split_ifs <;> simp
  | escape codes =>
    simp only [step]
    split_ifs
    · exact List.not_mem_nil
    · cases ESCAPES.lookup char <;> exact List.not_mem_nil
  | hex codes digits code =>
    simp only [step]
    cases hex_digit char <;> cases digits <;> exact List.not_mem_nil
  | bad => exact List.not_mem_nil

theorem bad_not_mem_scan (mode : Mode) (document : List Char) :
    Token.bad ∉ (scan mode document).1 := by
  induction document generalizing mode with
  | nil => exact List.not_mem_nil
  | cons char rest ih =>
    simp only [scan, List.mem_append, not_or]
    exact ⟨bad_not_mem_step mode char, ih _⟩

end Mode

theorem bad_mem_lex {document : List Char} :
    Token.bad ∈ lex document ↔ (Mode.scan .between document).2.closed = false := by
  unfold lex
  rw [List.mem_append, Mode.bad_mem_finish]
  have := Mode.bad_not_mem_scan .between document
  tauto

theorem scan_ne_bad {document : List Char} (h : Token.bad ∉ lex document) :
    (Mode.scan .between document).2 ≠ .bad := by
  rw [bad_mem_lex, Bool.not_eq_false] at h
  intro hbad
  rw [hbad] at h
  exact Bool.noConfusion h

-- The characters that only a text may hold, and that no text is ended or escaped by.
def is_inert (char : Char) : Bool :=
  char ≠ '"' ∧ char ≠ '\\' ∧ char ≠ '/' ∧ char ∉ MARKS ∧ !is_letter char

theorem ne_of_inert {char other : Char} (h : is_inert char) (hother : is_inert other = false) :
    char ≠ other := by
  rintro rfl
  rw [h] at hother
  exact Bool.noConfusion hother

theorem hex_digit_of_inert {char : Char} (h : is_inert char) : hex_digit char = none := by
  have halpha : char.isAlphanum = false := by simp_all [is_inert, is_letter]
  delta Char.isAlphanum Char.isAlpha Char.isDigit Char.isUpper Char.isLower at halpha
  unfold hex_digit
  simp only [Char.le_def]
  split_ifs with hdigit hlower hupper
  · grind
  · grind
  · grind
  · rfl

theorem escape_of_inert {char : Char} (h : is_inert char) : ESCAPES.lookup char = none := by
  apply List.lookup_eq_none_iff.mpr
  intro escape hmem
  have hescape : ∀ escape ∈ ESCAPES, is_inert escape.1 = false := by decide
  simpa using ne_of_inert h (hescape escape hmem)

namespace Mode

theorem start_inert {char : Char} (h : is_inert char) :
    start char = ([], if char ∈ SPACES then between else bad) := by
  unfold start
  simp only [is_inert, decide_eq_true_eq, Bool.not_eq_true'] at h
  split_ifs <;> simp_all

theorem step_scalar_inert {char : Char} (h : is_inert char) (lexeme : List Char) :
    (scalar lexeme).step char = ([.scalar lexeme], if char ∈ SPACES then between else bad) := by
  have hletter : is_letter char = false := by simp_all [is_inert]
  simp only [step, hletter, start_inert h]
  rfl

theorem step_text_inert {char : Char} (h : is_inert char) (codes : List ℕ) :
    (text codes).step char =
      ([], if char.toNat < 0x20 then bad else text (codes ++ [char.toNat])) := by
  simp only [step, ne_of_inert h (by decide : is_inert '"' = false),
    ne_of_inert h (by decide : is_inert '\\' = false), if_false]
  split_ifs <;> rfl

theorem step_escape_inert {char : Char} (h : is_inert char) (codes : List ℕ) :
    (escape codes).step char = ([], bad) := by
  simp only [step, ne_of_inert h (by decide : is_inert 'u' = false), escape_of_inert h, if_false]

theorem step_hex_inert {char : Char} (h : is_inert char) (codes : List ℕ) (digits code : ℕ) :
    (hex codes digits code).step char = ([], bad) := by
  simp only [step, hex_digit_of_inert h]

-- An inert character leads into a text from a text only.
theorem text_of_step_inert {mode : Mode} {char : Char} {codes : List ℕ} (h : is_inert char)
    (hstep : (mode.step char).2 = text codes) : ∃ before, mode = text before := by
  cases mode with
  | between =>
    have hstart : (start char).2 = text codes := hstep
    rw [start_inert h] at hstart
    split_ifs at hstart
  | scalar lexeme =>
    rw [step_scalar_inert h] at hstep
    split_ifs at hstep
  | text before => exact ⟨before, rfl⟩
  | escape before =>
    rw [step_escape_inert h] at hstep
    exact Mode.noConfusion hstep
  | hex before digits code =>
    rw [step_hex_inert h] at hstep
    exact Mode.noConfusion hstep
  | bad => exact Mode.noConfusion hstep

theorem text_of_scan_inert {mode : Mode} {document : List Char} {codes : List ℕ}
    (h : ∀ char ∈ document, is_inert char) (hscan : (scan mode document).2 = text codes) :
    ∃ before, mode = text before := by
  induction document generalizing mode with
  | nil => exact ⟨codes, hscan⟩
  | cons char rest ih =>
    have hrest : (scan (mode.step char).2 rest).2 = text codes := hscan
    obtain ⟨before, hbefore⟩ := ih (List.forall_mem_of_forall_mem_cons h) hrest
    exact text_of_step_inert (h char List.mem_cons_self) hbefore

-- Outside the texts an inert character only ends what stands before it, as the end of
-- the document would.
theorem step_inert {mode : Mode} {char : Char} (h : is_inert char)
    (hclosed : (mode.step char).2.closed = true) :
    mode.closed = true ∧ (mode.step char).1 ++ (mode.step char).2.finish = mode.finish := by
  cases mode with
  | between =>
    simp only [step, start_inert h] at hclosed ⊢
    split_ifs at hclosed ⊢
    · exact ⟨rfl, rfl⟩
    · exact Bool.noConfusion hclosed
  | scalar lexeme =>
    rw [step_scalar_inert h] at hclosed ⊢
    split_ifs at hclosed ⊢
    · exact ⟨rfl, rfl⟩
    · exact Bool.noConfusion hclosed
  | text codes =>
    rw [step_text_inert h] at hclosed
    split_ifs at hclosed <;> exact Bool.noConfusion hclosed
  | escape codes =>
    rw [step_escape_inert h] at hclosed
    exact Bool.noConfusion hclosed
  | hex codes digits code =>
    rw [step_hex_inert h] at hclosed
    exact Bool.noConfusion hclosed
  | bad => exact Bool.noConfusion hclosed

theorem scan_inert {mode : Mode} {document : List Char} (h : ∀ char ∈ document, is_inert char)
    (hclosed : (scan mode document).2.closed = true) :
    mode.closed = true ∧ (scan mode document).1 ++ (scan mode document).2.finish = mode.finish := by
  induction document generalizing mode with
  | nil => exact ⟨hclosed, rfl⟩
  | cons char rest ih =>
    have hrest : (scan (mode.step char).2 rest).2.closed = true := hclosed
    obtain ⟨hnext, htokens⟩ := ih (List.forall_mem_of_forall_mem_cons h) hrest
    obtain ⟨hmode, hstep⟩ := step_inert (h char List.mem_cons_self) hnext
    refine ⟨hmode, ?_⟩
    simp only [scan]
    rw [List.append_assoc, htokens, hstep]

theorem scan_between_inert {document : List Char} (h : ∀ char ∈ document, is_inert char) :
    scan between document = ([], between) ∨ scan between document = ([], bad) := by
  induction document with
  | nil => exact .inl rfl
  | cons char rest ih =>
    simp only [scan, step, start_inert (h char List.mem_cons_self)]
    split_ifs
    · exact ih (List.forall_mem_of_forall_mem_cons h)
    · exact .inr (scan_bad rest)

-- Where a text may not go on with an inert character, nothing can.
theorem step_inert_other {mode : Mode} {char : Char} (h : is_inert char)
    (hspace : char ∉ SPACES) :
    (mode.step char).2 = bad ∨ 0x20 ≤ char.toNat ∧ ∃ codes, mode = text codes := by
  cases mode with
  | between =>
    left
    simp only [step, start_inert h, hspace, if_false]
  | scalar lexeme =>
    left
    rw [step_scalar_inert h, if_neg hspace]
  | text codes =>
    rw [step_text_inert h]
    by_cases hcontrol : char.toNat < 0x20
    · exact .inl (if_pos hcontrol)
    · exact .inr ⟨by omega, codes, rfl⟩
  | escape codes => exact .inl (by rw [step_escape_inert h])
  | hex codes digits code => exact .inl (by rw [step_hex_inert h])
  | bad => exact .inl rfl

theorem step_return (mode : Mode) : mode.step '\r' = mode.step '\n' := by
  have hreturn : is_inert '\r' = true := by decide
  have hfeed : is_inert '\n' = true := by decide
  cases mode with
  | between => rfl
  | scalar lexeme =>
    rw [step_scalar_inert hreturn, step_scalar_inert hfeed]
    rfl
  | text codes =>
    rw [step_text_inert hreturn, step_text_inert hfeed]
    rfl
  | escape codes => rw [step_escape_inert hreturn, step_escape_inert hfeed]
  | hex codes digits code => rw [step_hex_inert hreturn, step_hex_inert hfeed]
  | bad => rfl

theorem step_line_feed (mode : Mode) :
    (mode.step '\n').2 = between ∨ (mode.step '\n').2 = bad := by
  have hfeed : is_inert '\n' = true := by decide
  cases mode with
  | between => exact .inl rfl
  | scalar lexeme =>
    rw [step_scalar_inert hfeed]
    exact .inl rfl
  | text codes =>
    rw [step_text_inert hfeed]
    exact .inr rfl
  | escape codes => exact .inr (by rw [step_escape_inert hfeed])
  | hex codes digits code => exact .inr (by rw [step_hex_inert hfeed])
  | bad => exact .inr rfl

theorem step_line_feed_twice (mode : Mode) :
    (mode.step '\n').2.step '\n' = ([], (mode.step '\n').2) := by
  cases step_line_feed mode with
  | inl h =>
    rw [h]
    rfl
  | inr h =>
    rw [h]
    rfl

theorem inert_of_space {char : Char} (h : char ∈ SPACES) : is_inert char = true := by
  have hspaces : ∀ char ∈ SPACES, is_inert char = true :=
    List.all_iff_forall_prop.mp rfl
  exact hspaces char h

theorem step_space {mode : Mode} {char : Char} (hmode : mode.closed = true) (h : char ∈ SPACES) :
    mode.step char = (mode.finish, between) := by
  cases mode with
  | between => simp only [step, start_inert (inert_of_space h), h, if_true, finish]
  | scalar lexeme => rw [step_scalar_inert (inert_of_space h), if_pos h, finish]
  | _ => exact Bool.noConfusion hmode

theorem scan_spaces {mode : Mode} {document : List Char} (hmode : mode.closed = true)
    (h : ∀ char ∈ document, char ∈ SPACES) :
    (scan mode document).2.closed = true ∧
      (scan mode document).1 ++ (scan mode document).2.finish = mode.finish := by
  induction document generalizing mode with
  | nil => exact ⟨hmode, rfl⟩
  | cons char rest ih =>
    obtain ⟨hclosed, htokens⟩ := ih (show between.closed = true from rfl)
      (List.forall_mem_of_forall_mem_cons h)
    simp only [scan, step_space hmode (h char List.mem_cons_self)]
    refine ⟨hclosed, ?_⟩
    rw [List.append_assoc, htokens]
    exact List.append_nil _

end Mode

theorem lex_append_spaces {document spaces : List Char} (hspaces : ∀ char ∈ spaces, char ∈ SPACES)
    (h : Token.bad ∉ lex document) : lex (document ++ spaces) = lex document := by
  rw [bad_mem_lex, Bool.not_eq_false] at h
  unfold lex
  simp only [Mode.scan_append]
  rw [List.append_assoc, (Mode.scan_spaces h hspaces).2]

-- Inert characters around a document that can be read change nothing.
theorem lex_padded {left document right : List Char} (hleft : ∀ char ∈ left, is_inert char)
    (hright : ∀ char ∈ right, is_inert char)
    (h : Token.bad ∉ lex (left ++ document ++ right)) :
    lex document = lex (left ++ document ++ right) := by
  rw [bad_mem_lex, Bool.not_eq_false] at h
  unfold lex
  rw [List.append_assoc] at h ⊢
  simp only [Mode.scan_append] at h ⊢
  cases Mode.scan_between_inert hleft with
  | inl hbetween =>
    simp only [hbetween] at h ⊢
    rw [List.nil_append, List.append_assoc, (Mode.scan_inert hright h).2]
  | inr hbad =>
    simp only [hbad, Mode.scan_bad] at h
    exact Bool.noConfusion h

-- A text cannot be broken by a line feed, nor ended by what only pads a document.
theorem bad_mem_lex_of_torn {left document right first rest : List Char} {codes : List ℕ}
    (hleft : ∀ char ∈ left, is_inert char) (hright : ∀ char ∈ right, is_inert char)
    (h : left ++ document ++ right = first ++ '\n' :: rest)
    (htext : (Mode.scan .between first).2 = .text codes) : Token.bad ∈ lex document := by
  rw [bad_mem_lex]
  rw [List.append_assoc] at h
  cases List.append_eq_append_iff.mp h with
  | inr hinside =>
    -- the text would start in the padding
    obtain ⟨tail, rfl, -⟩ := hinside
    obtain ⟨before, hbefore⟩ := Mode.text_of_scan_inert
      (fun char hmem => hleft char (List.mem_append_left tail hmem)) htext
    exact Mode.noConfusion hbefore
  | inl houtside =>
    obtain ⟨inner, rfl, hinner⟩ := houtside
    rw [Mode.scan_append] at htext
    have hstart : (Mode.scan .between left).2 = .between := by
      cases Mode.scan_between_inert hleft with
      | inl hbetween => rw [hbetween]
      | inr hbad =>
        rw [hbad, Mode.scan_bad] at htext
        exact Mode.noConfusion htext
    rw [hstart] at htext
    cases List.append_eq_append_iff.mp hinner with
    | inl hlong =>
      -- the document ends in the text
      obtain ⟨tail, rfl, htail⟩ := hlong
      rw [Mode.scan_append] at htext
      obtain ⟨before, hbefore⟩ := Mode.text_of_scan_inert
        (fun char hmem => hright char (htail ▸ List.mem_append_left _ hmem)) htext
      rw [hbefore]
      rfl
    | inr hshort =>
      obtain ⟨tail, rfl, htail⟩ := hshort
      rw [Mode.scan_append, htext]
      cases tail with
      | nil => rfl
      | cons char tail =>
        obtain ⟨rfl, -⟩ := List.cons.inj htail
        simp only [Mode.scan, Mode.step_text_inert (by decide : is_inert '\n')]
        exact congrArg (fun result => Mode.closed (Prod.snd result)) (Mode.scan_bad tail)

end Scanner

section Parser

variable {Value Failure : Type}

-- What the parts of a document are read as. `scalar` may fail in its own ways, and
-- `depth` bounds the containers around a container.
structure Reading (Value Failure : Type) where
  scalar : List Char → Except Failure Value
  text : List ℕ → Value
  list : List Value → Value
  dict : List (List ℕ × Value) → Value
  malformed : Failure
  too_deep : Failure
  depth : ℕ

-- A container around the place of reading, its parts so far in reverse.
inductive Frame (Value : Type) where
  | list (items : List Value)
  | dict (entries : List (List ℕ × Value)) (key : List ℕ)

-- What may come next: a value, an item or the end of a list, a field or the end of a
-- dictionary, a field, a colon, or what follows a complete value.
inductive Stage (Value : Type) where
  | value
  | items
  | fields
  | field (entries : List (List ℕ × Value))
  | colon (entries : List (List ℕ × Value)) (key : List ℕ)
  | after (value : Value)

namespace Reading

variable (reading : Reading Value Failure)

def read_value (frames : List (Frame Value)) :
    Token → Except Failure (List (Frame Value) × Stage Value)
  | .mark '[' =>
      if frames.length < reading.depth then .ok (.list [] :: frames, .items)
      else .error reading.too_deep
  | .mark '\x7b' =>
      if frames.length < reading.depth then .ok (frames, .fields) else .error reading.too_deep
  | .text codes => .ok (frames, .after (reading.text codes))
  | .scalar lexeme => do
      let value ← reading.scalar lexeme
      return (frames, .after value)
  | _ => .error reading.malformed

def read_after (value : Value) : List (Frame Value) → Token →
    Except Failure (List (Frame Value) × Stage Value)
  | .list items :: frames, .mark ',' => .ok (.list (value :: items) :: frames, .value)
  | .list items :: frames, .mark ']' =>
      .ok (frames, .after (reading.list (value :: items).reverse))
  | .dict entries key :: frames, .mark ',' => .ok (frames, .field ((key, value) :: entries))
  | .dict entries key :: frames, .mark '\x7d' =>
      .ok (frames, .after (reading.dict ((key, value) :: entries).reverse))
  | _, _ => .error reading.malformed

def read_token (frames : List (Frame Value)) : Stage Value → Token →
    Except Failure (List (Frame Value) × Stage Value)
  | .value, token => reading.read_value frames token
  | .items, .mark ']' => .ok (frames.tail, .after (reading.list []))
  | .items, token => reading.read_value frames token
  | .fields, .mark '\x7d' => .ok (frames, .after (reading.dict []))
  | .fields, .text key => .ok (frames, .colon [] key)
  | .field entries, .text key => .ok (frames, .colon entries key)
  | .colon entries key, .mark ':' => .ok (.dict entries key :: frames, .value)
  | .after value, token => reading.read_after value frames token
  | _, _ => .error reading.malformed

def parse (frames : List (Frame Value)) (stage : Stage Value) : List Token → Except Failure Value
  | [] =>
      match frames, stage with
      | [], .after value => .ok value
      | _, _ => .error reading.malformed
  | token :: rest => do
      let (frames, stage) ← reading.read_token frames stage token
      parse frames stage rest

def decode (document : List Char) : Except Failure Value :=
  reading.parse [] .value (lex document)

theorem read_bad (frames : List (Frame Value)) (stage : Stage Value) :
    reading.read_token frames stage .bad = .error reading.malformed := by
  cases stage with
  | after value =>
    cases frames with
    | nil => rfl
    | cons frame frames => cases frame <;> rfl
  | _ => rfl

theorem bad_not_mem_of_parse {frames : List (Frame Value)} {stage : Stage Value}
    {tokens : List Token} {value : Value} (h : reading.parse frames stage tokens = .ok value) :
    Token.bad ∉ tokens := by
  induction tokens generalizing frames stage with
  | nil => exact List.not_mem_nil
  | cons token rest ih =>
    rw [parse] at h
    cases hread : reading.read_token frames stage token with
    | error failure =>
      rw [hread] at h
      cases h
    | ok next =>
      rw [hread] at h
      rw [List.mem_cons, not_or]
      refine ⟨?_, ih h⟩
      rintro rfl
      rw [read_bad] at hread
      cases hread

theorem decode_bad {document : List Char} (h : Token.bad ∈ lex document) (value : Value) :
    reading.decode document ≠ .ok value :=
  fun hdecode => reading.bad_not_mem_of_parse hdecode h

theorem decode_eq {document other : List Char} (h : lex document = lex other) :
    reading.decode document = reading.decode other := by
  rw [decode, decode, h]

end Reading

end Parser

end Library.Json
