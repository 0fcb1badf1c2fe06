import Mathlib.Tactic.Linarith
import ResearchAgent.Library.Json

namespace Library.Json

-- What a document says, by its parts.
inductive Document where
  | scalar (lexeme : List Char)
  | text (codes : List ℕ)
  | list (items : List Document)
  | dict (entries : List (List ℕ × Document))

namespace Document

-- What holds of a list or a dictionary as soon as it holds of everything in it holds of
-- every tree.
@[elab_as_elim]
theorem nested_induction {motive : Document → Prop} (scalar : ∀ lexeme, motive (.scalar lexeme))
    (text : ∀ codes, motive (.text codes))
    (list : ∀ items, (∀ item ∈ items, motive item) → motive (.list items))
    (dict : ∀ entries : List (List ℕ × Document), (∀ entry ∈ entries, motive entry.2) →
      motive (.dict entries))
    (tree : Document) : motive tree := by
  refine @Document.rec motive (fun items => ∀ item ∈ items, motive item)
    (fun entries => ∀ entry ∈ entries, motive entry.2) (fun entry => motive entry.2)
    scalar text list dict (by simp) ?cons (by simp) ?entries (fun _ _ h => h) tree
  case cons =>
    intro item rest hitem hrest other hmem
    rcases List.mem_cons.mp hmem with rfl | hmem
    · exact hitem
    · exact hrest other hmem
  case entries =>
    intro entry rest hentry hrest other hmem
    rcases List.mem_cons.mp hmem with rfl | hmem
    · exact hentry
    · exact hrest other hmem

mutual

def tokens : Document → List Token
  | scalar lexeme => [.scalar lexeme]
  | text codes => [.text codes]
  | list items => .mark '[' :: [.mark ','].intercalate (tokens_each items) ++ [.mark ']']
  | dict entries =>
      .mark '\x7b' :: [.mark ','].intercalate (tokens_fields entries) ++ [.mark '\x7d']

def tokens_each : List Document → List (List Token)
  | [] => []
  | item :: rest => item.tokens :: tokens_each rest

def tokens_fields : List (List ℕ × Document) → List (List Token)
  | [] => []
  | (key, value) :: rest => (.text key :: .mark ':' :: value.tokens) :: tokens_fields rest

end

mutual

-- How many containers there are around the innermost parts.
def height : Document → ℕ
  | scalar _ | text _ => 0
  | list items => height_each items + 1
  | dict entries => height_fields entries + 1

def height_each : List Document → ℕ
  | [] => 0
  | item :: rest => max item.height (height_each rest)

def height_fields : List (List ℕ × Document) → ℕ
  | [] => 0
  | (_, value) :: rest => max value.height (height_fields rest)

end

section Read

variable {Value Failure : Type} (reading : Reading Value Failure)

mutual

def read : Document → Except Failure Value
  | scalar lexeme => reading.scalar lexeme
  | text codes => .ok (reading.text codes)
  | list items => do return reading.list (← read_each items)
  | dict entries => do return reading.dict (← read_fields entries)

def read_each : List Document → Except Failure (List Value)
  | [] => .ok []
  | item :: rest => do
      let value ← read item
      return value :: (← read_each rest)

def read_fields : List (List ℕ × Document) → Except Failure (List (List ℕ × Value))
  | [] => .ok []
  | (key, tree) :: rest => do
      let value ← read tree
      return (key, value) :: (← read_fields rest)

end

end Read

-- No tree starts with the end of a list.
theorem tokens_each_open (item : Document) (items : List Document) : ∃ token rest,
    [Token.mark ','].intercalate (tokens_each (item :: items)) = token :: rest ∧
      token ≠ .mark ']' := by
  obtain ⟨token, later, htokens, hne⟩ : ∃ token later, item.tokens = token :: later ∧
      token ≠ .mark ']' := by
    cases item with
    | scalar lexeme => exact ⟨_, _, rfl, Token.noConfusion⟩
    | text codes => exact ⟨_, _, rfl, Token.noConfusion⟩
    | list items => exact ⟨.mark '[', _, rfl, by decide⟩
    | dict entries => exact ⟨.mark '\x7b', _, rfl, by decide⟩
  cases items with
  | nil => exact ⟨token, later, by simp [tokens_each, htokens], hne⟩
  | cons next items => exact ⟨token, _, by simp [tokens_each, htokens]; rfl, hne⟩

theorem tokens_fields_open (entry : List ℕ × Document) (entries : List (List ℕ × Document)) :
    ∃ rest, [Token.mark ','].intercalate (tokens_fields (entry :: entries)) =
      .text entry.1 :: rest := by
  cases entries with
  | nil => exact ⟨_, by simp [tokens_fields]; rfl⟩
  | cons next entries => exact ⟨_, by simp [tokens_fields]; rfl⟩

section Parse

variable {Value Failure : Type} {reading : Reading Value Failure} {frames : List (Frame Value)}

-- The tokens of the tree are read as the tree is, wherever a value is due.
def Parses (reading : Reading Value Failure) (tree : Document) : Prop :=
  ∀ frames rest, frames.length + tree.height ≤ reading.depth →
    reading.parse frames .value (tree.tokens ++ rest) =
      tree.read reading >>= fun value => reading.parse frames (.after value) rest

theorem parse_items {token : Token} (h : token ≠ .mark ']') (rest : List Token) :
    reading.parse frames .items (token :: rest) = reading.parse frames .value (token :: rest) := by
  simp only [Reading.parse]
  rw [Reading.read_token.eq_def]
  split <;> simp_all [Reading.read_token]

theorem parse_each {item : Document} {items : List Document}
    (h : ∀ other ∈ item :: items, Parses reading other)
    (hdepth : frames.length + 1 + height_each (item :: items) ≤ reading.depth)
    (past : List Value) (rest : List Token) :
    reading.parse (.list past :: frames) .value
        ([.mark ','].intercalate (tokens_each (item :: items)) ++ .mark ']' :: rest) =
      read_each reading (item :: items) >>= fun values =>
        reading.parse frames (.after (reading.list (past.reverse ++ values))) rest := by
  induction items generalizing item past with
  | nil =>
      have hitem := h item List.mem_cons_self (.list past :: frames) (.mark ']' :: rest)
        (le_trans (by simp [height_each]) hdepth)
      rw [show [Token.mark ','].intercalate (tokens_each [item]) = item.tokens by
        simp [tokens_each], hitem]
      simp only [read_each, bind_assoc, pure_bind, Reading.parse, Reading.read_token,
        Reading.read_after, List.reverse_cons]
      rfl
  | cons next items ih =>
      have hitem := h item List.mem_cons_self (.list past :: frames)
        (.mark ',' :: ([.mark ','].intercalate (tokens_each (next :: items)) ++
          .mark ']' :: rest)) (le_trans (by simp [height_each]) hdepth)
      have hnext (value : Value) := ih (fun other hmem => h other (List.mem_cons_of_mem _ hmem))
        (le_trans (by simp [height_each]) hdepth) (value :: past)
      rw [show [Token.mark ','].intercalate (tokens_each (item :: next :: items)) =
          item.tokens ++ .mark ',' :: [.mark ','].intercalate (tokens_each (next :: items)) by
        simp [tokens_each], List.append_assoc, List.cons_append, hitem]
      rw [read_each, bind_assoc]
      refine bind_congr fun value => ?_
      simp only [bind_assoc, pure_bind, Reading.parse, Reading.read_token, Reading.read_after]
      refine (hnext value).trans (bind_congr fun values => ?_)
      rw [List.reverse_cons, List.append_assoc]
      rfl

theorem parse_fields {entry : List ℕ × Document} {entries : List (List ℕ × Document)}
    (h : ∀ other ∈ entry :: entries, Parses reading other.2)
    (hdepth : frames.length + 1 + height_fields (entry :: entries) ≤ reading.depth)
    (past : List (List ℕ × Value)) (rest : List Token) :
    reading.parse frames (.field past)
        ([.mark ','].intercalate (tokens_fields (entry :: entries)) ++ .mark '\x7d' :: rest) =
      read_fields reading (entry :: entries) >>= fun values =>
        reading.parse frames (.after (reading.dict (past.reverse ++ values))) rest := by
  induction entries generalizing entry past with
  | nil =>
      obtain ⟨key, tree⟩ := entry
      have htree := h (key, tree) List.mem_cons_self (.dict past key :: frames)
        (.mark '\x7d' :: rest) (le_trans (by simp [height_fields]) hdepth)
      simp only [tokens_fields, List.intercalate_singleton, List.cons_append, Reading.parse,
        Reading.read_token, pure_bind, bind_assoc, read_fields]
      refine htree.trans (bind_congr fun value => ?_)
      simp only [Reading.parse, Reading.read_token, Reading.read_after, List.reverse_cons]
      rfl
  | cons next entries ih =>
      obtain ⟨key, tree⟩ := entry
      have htree := h (key, tree) List.mem_cons_self (.dict past key :: frames)
        (.mark ',' :: ([.mark ','].intercalate (tokens_fields (next :: entries)) ++
          .mark '\x7d' :: rest)) (le_trans (by simp [height_fields]) hdepth)
      have hnext (value : Value) := ih (fun other hmem => h other (List.mem_cons_of_mem _ hmem))
        (le_trans (by simp [height_fields]) hdepth) ((key, value) :: past)
      rw [show [Token.mark ','].intercalate (tokens_fields ((key, tree) :: next :: entries)) =
          .text key :: .mark ':' :: (tree.tokens ++
            .mark ',' :: [.mark ','].intercalate (tokens_fields (next :: entries))) by
        simp [tokens_fields]]
      simp only [List.cons_append, List.append_assoc, Reading.parse, Reading.read_token]
      rw [read_fields, bind_assoc]
      refine htree.trans (bind_congr fun value => ?_)
      simp only [Reading.parse, Reading.read_token, Reading.read_after, bind_assoc, pure_bind]
      refine (hnext value).trans (bind_congr fun values => ?_)
      rw [List.reverse_cons, List.append_assoc]
      rfl

-- Every tree is read from its tokens, where the containers around it leave room for its own.
theorem parses (reading : Reading Value Failure) (tree : Document) : Parses reading tree := by
  induction tree using nested_induction with
  | scalar lexeme =>
      intro frames rest _
      simp only [tokens, List.cons_append, List.nil_append, Reading.parse, Reading.read_token,
        Reading.read_value, read, bind_assoc, pure_bind]
  | text codes =>
      intro frames rest _
      simp only [tokens, List.cons_append, List.nil_append, Reading.parse, Reading.read_token,
        Reading.read_value, read]
      rfl
  | list items ih =>
      intro frames rest hdepth
      have hroom : frames.length < reading.depth := by
        unfold height at hdepth
        omega
      simp only [tokens, List.cons_append, List.append_assoc, Reading.parse, Reading.read_token,
        Reading.read_value, if_pos hroom, read, bind_assoc, pure_bind]
      cases items with
      | nil =>
          simp only [tokens_each, List.intercalate_nil, List.nil_append, Reading.parse,
            Reading.read_token, read_each]
          rfl
      | cons item items =>
          obtain ⟨token, later, htokens, hne⟩ := tokens_each_open item items
          have heach := @parse_each _ _ reading frames item items ih (by
            unfold height at hdepth
            omega) [] rest
          rw [htokens] at heach ⊢
          exact (parse_items hne _).trans heach
  | dict entries ih =>
      intro frames rest hdepth
      have hroom : frames.length < reading.depth := by
        unfold height at hdepth
        omega
      simp only [tokens, List.cons_append, List.append_assoc, Reading.parse, Reading.read_token,
        Reading.read_value, if_pos hroom, read, bind_assoc, pure_bind]
      cases entries with
      | nil =>
          simp only [tokens_fields, List.intercalate_nil, List.nil_append, Reading.parse,
            Reading.read_token, read_fields]
          rfl
      | cons entry entries =>
          have hfields := @parse_fields _ _ reading frames entry entries ih (by
            unfold height at hdepth
            omega) [] rest
          obtain ⟨later, htokens⟩ := tokens_fields_open entry entries
          rw [htokens] at hfields ⊢
          exact hfields

end Parse

theorem decode_of_lex {reading : Reading Value Failure} {document : List Char} {tree : Document}
    (h : lex document = tree.tokens) (hdepth : tree.height ≤ reading.depth) :
    reading.decode document = tree.read reading := by
  have hparses := parses reading tree [] [] (by simpa using hdepth)
  rw [List.append_nil] at hparses
  rw [Reading.decode, h, hparses]
  cases tree.read reading <;> rfl

end Document

section Writer

-- The document is scanned as these tokens, and may end, or go on with anything but a
-- letter.
structure Spells (document : List Char) (tokens : List Token) : Prop where
  closed : (Mode.scan .between document).2.closed = true
  tokens : lex document = tokens

-- The document is scanned as these tokens, and nothing of it is left to be continued.
def Spelled (document : List Char) (tokens : List Token) : Prop :=
  Mode.scan .between document = (tokens, .between)

-- What ends the token before it.
def Separated (document : List Char) : Prop :=
  ∀ char rest, document = char :: rest → is_letter char = false

theorem separated_cons {char : Char} {rest : List Char} (h : is_letter char = false) :
    Separated (char :: rest) := by
  rintro _ _ ⟨⟩
  exact h

theorem letter_not_mark {char : Char} (h : is_letter char = true) :
    char ∉ SPACES ∧ char ≠ '"' ∧ char ∉ MARKS := by
  have hspaces : SPACES.any is_letter = false := by decide
  have hmarks : MARKS.any is_letter = false := by decide
  refine ⟨fun hmem => ?_, ?_, fun hmem => ?_⟩
  · exact absurd h (List.any_eq_false.mp hspaces char hmem)
  · rintro rfl
    revert h
    decide
  · exact absurd h (List.any_eq_false.mp hmarks char hmem)

theorem separated_mark {char : Char} {rest : List Char} (h : char ∈ MARKS) :
    Separated (char :: rest) := by
  apply separated_cons
  rw [Bool.eq_false_iff]
  exact fun hletter => (letter_not_mark hletter).2.2 h

variable {document later : List Char} {tokens tokens' : List Token}

-- A document that may end goes on as after its end.
theorem Mode.scan_closed {mode : Mode} (hmode : mode.closed = true) (h : Separated later) :
    (scan mode later).1 ++ (scan mode later).2.finish = mode.finish ++ lex later ∧
      (scan mode later).2.closed = (scan between later).2.closed := by
  cases mode with
  | between => exact ⟨rfl, rfl⟩
  | scalar lexeme =>
      cases later with
      | nil => exact ⟨rfl, rfl⟩
      | cons char rest =>
          have hstep : (scalar lexeme).step char =
              (.scalar lexeme :: (start char).1, (start char).2) := by
            simp only [step, h char rest rfl, Bool.false_eq_true, if_false]
          simp only [scan, hstep, lex, finish]
          exact ⟨rfl, rfl⟩
  | text | escape | hex | bad => cases hmode

theorem Spells.append (h : Spells document tokens) (h' : Spells later tokens')
    (hseparated : Separated later) : Spells (document ++ later) (tokens ++ tokens') := by
  obtain ⟨htokens, hclosed⟩ := Mode.scan_closed h.closed hseparated
  constructor
  · rw [Mode.scan_append]
    exact hclosed.trans h'.closed
  · rw [← h.tokens, ← h'.tokens, lex, Mode.scan_append]
    simp only [List.append_assoc]
    rw [htokens, lex, lex, List.append_assoc]

theorem Spelled.spells (h : Spelled document tokens) : Spells document tokens := by
  unfold Spelled at h
  constructor
  · rw [h]
    rfl
  · rw [lex, h]
    exact List.append_nil tokens

theorem Spelled.append (h : Spelled document tokens) (h' : Spelled later tokens') :
    Spelled (document ++ later) (tokens ++ tokens') := by
  unfold Spelled at h h' ⊢
  rw [Mode.scan_append, h, h']

theorem Spelled.append_spells (h : Spelled document tokens) (h' : Spells later tokens') :
    Spells (document ++ later) (tokens ++ tokens') := by
  unfold Spelled at h
  constructor
  · rw [Mode.scan_append, h]
    exact h'.closed
  · rw [← h'.tokens, lex, Mode.scan_append, h, List.append_assoc]
    rfl

theorem spelled_mark {char : Char} (h : char ∈ MARKS) : Spelled [char] [.mark char] := by
  have hmarks : MARKS.all (fun char => char ∉ SPACES ∧ char ≠ '"') = true := by decide
  obtain ⟨hspace, hquote⟩ := of_decide_eq_true (List.all_eq_true.mp hmarks char h)
  simp [Spelled, Mode.scan, Mode.step, Mode.start, hspace, hquote, h]

theorem spelled_spaces {spaces : List Char} (h : ∀ char ∈ spaces, char ∈ SPACES) :
    Spelled spaces [] := by
  unfold Spelled
  induction spaces with
  | nil => rfl
  | cons char rest ih =>
      have hstep : Mode.step .between char = ([], .between) :=
        Mode.step_space rfl (h char List.mem_cons_self)
      simp [Mode.scan, hstep, ih (List.forall_mem_of_forall_mem_cons h)]

-- A list or a dictionary, written with `separator` between its parts.
theorem spells_between {Item : Type} {separator : List Char} {open_mark close_mark : Char}
    {written : Item → List Char} {spelled : Item → List Token} (items : List Item)
    (hopen : open_mark ∈ MARKS) (hclose : close_mark ∈ MARKS)
    (hseparator : Spelled separator [.mark ','])
    (hseparated : ∀ rest, Separated (separator ++ rest))
    (h : ∀ item ∈ items, Spells (written item) (spelled item)) :
    Spells (open_mark :: separator.intercalate (items.map written) ++ [close_mark])
      (.mark open_mark :: [.mark ','].intercalate (items.map spelled) ++ [.mark close_mark]) := by
  have hitems : Spells (separator.intercalate (items.map written))
      ([.mark ','].intercalate (items.map spelled)) := by
    induction items with
    | nil => exact ⟨rfl, rfl⟩
    | cons item rest ih =>
        have hitem := h item List.mem_cons_self
        cases rest with
        | nil => simpa using hitem
        | cons next rest =>
            have hrest := hseparator.append_spells (ih (List.forall_mem_of_forall_mem_cons h))
            simpa using hitem.append hrest (hseparated _)
  have hclosed := hitems.append (spelled_mark hclose).spells (separated_mark hclose)
  simpa using (spelled_mark hopen).append_spells hclosed

theorem scan_letters {lexeme : List Char} (h : ∀ char ∈ lexeme, is_letter char = true)
    (before : List Char) :
    Mode.scan (.scalar before) lexeme = ([], .scalar (before ++ lexeme)) := by
  induction lexeme generalizing before with
  | nil => simp [Mode.scan]
  | cons char rest ih =>
      have hrest := ih (fun other hmem => h other (List.mem_cons_of_mem _ hmem)) (before ++ [char])
      simp [Mode.scan, Mode.step, h char List.mem_cons_self, hrest]

theorem spells_scalar {lexeme : List Char} (hne : lexeme ≠ [])
    (h : ∀ char ∈ lexeme, is_letter char = true) : Spells lexeme [.scalar lexeme] := by
  cases lexeme with
  | nil => exact absurd rfl hne
  | cons char rest =>
      have hletter := h char List.mem_cons_self
      obtain ⟨hspace, hquote, hmark⟩ := letter_not_mark hletter
      have hrest := scan_letters (fun other hmem => h other (List.mem_cons_of_mem _ hmem)) [char]
      constructor <;>
        simp [lex, Mode.scan, Mode.step, Mode.start, hspace, hquote, hmark, hletter, hrest,
          Mode.closed, Mode.finish]

-- Inside a text the characters stand for these codes.
def Writes (body : List Char) (codes : List ℕ) : Prop :=
  ∀ before, Mode.scan (.text before) body = ([], .text (before ++ codes))

theorem writes_nil : Writes [] [] := fun before => by simp [Mode.scan]

theorem Writes.append {body body' : List Char} {codes codes' : List ℕ} (h : Writes body codes)
    (h' : Writes body' codes') : Writes (body ++ body') (codes ++ codes') := by
  intro before
  rw [Mode.scan_append, h, h', List.append_assoc]
  rfl

theorem spelled_text {body : List Char} {codes : List ℕ} (h : Writes body codes) :
    Spelled ('"' :: body ++ ['"']) [.text codes] := by
  have hbody : Mode.scan .between ('"' :: body) = ([], .text codes) := h []
  unfold Spelled
  rw [Mode.scan_append, hbody]
  rfl

end Writer

end Library.Json
