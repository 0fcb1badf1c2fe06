import Mathlib.Data.List.DropRight
import Mathlib.Data.Nat.Digits.Lemmas
import ResearchAgent.Library.Filters
import ResearchAgent.JobQueue.Envelope

namespace ResearchAgent.Service.ASGI

open Library JobQueue

-- A message that the server hands to the application.
structure Message where
  type : String
  body : Option (List UInt8) := none
  more_body : Option Bool := none
deriving DecidableEq, Repr

inductive Error where
  | RequestBodyTooLargeError
  | Exception (message : String)
deriving DecidableEq, Repr

-- What an application does on its connection. `send` has the message as the application has
-- made it, and `json_response` is `JSONResponse(status_code, content)` sent as a whole.
inductive Op where
  | receive
  | send (type : String) (content : JSONObject)
  | json_response (status_code : ℕ) (content : JSONObject)

abbrev Op.Reply : Op → Type
  | receive => Except Error Message
  | send _ _ | json_response _ _ => Except Error Unit

abbrev ASGIProgram := Program Op Op.Reply Error Unit

structure Scope where
  type : String
  headers : Option (List (List UInt8 × List UInt8)) := none

abbrev ASGIApp := Scope → ASGIProgram

-- `Py_ISSPACE`
def is_space (byte : UInt8) : Bool := byte = 32 || 9 ≤ byte && byte ≤ 13

def is_digit (byte : UInt8) : Bool := 48 ≤ byte && byte ≤ 57

-- The digits of a literal; one underscore may stand between two of them.
def literal_digits : List UInt8 → Option (List ℕ)
  | [] => none
  | [digit] => if is_digit digit then some [digit.toNat - 48] else none
  | digit :: 95 :: rest =>
      if is_digit digit then ((digit.toNat - 48) :: ·) <$> literal_digits rest else none
  | digit :: rest =>
      if is_digit digit then ((digit.toNat - 48) :: ·) <$> literal_digits rest else none

def MAX_STR_DIGITS : ℕ := 4300

def split_sign : List UInt8 → ℤ × List UInt8
  | 43 :: rest => (1, rest)
  | 45 :: rest => (-1, rest)
  | rest => (1, rest)

-- `int` of bytes; `none` is its `ValueError`.
def int (text : List UInt8) : Option ℤ :=
  let (sign, unsigned) := split_sign ((text.dropWhile is_space).rdropWhile is_space)
  match literal_digits unsigned with
  | some digits =>
      if digits.length > MAX_STR_DIGITS then none
      else some (sign * (Nat.ofDigits 10 digits.reverse : ℕ))
  | none => none

-- `dict(headers).get(name)`
def Scope.header (scope : Scope) (name : List UInt8) : Option (List UInt8) :=
  ((scope.headers.getD []).reverse).lookup name

def CONTENT_LENGTH : List UInt8 := "content-length".toUTF8.data.toList

namespace RequestBodyLimitMiddleware

def respond (status_code : ℕ) (detail : String) : ASGIProgram :=
  .call (.json_response status_code [("detail", .str detail)]) fun
    | .ok _ => .ret ()
    | .error error => .raise error

def too_large : ASGIProgram := respond 413 "Request body exceeds the configured limit"

def invalid_length : ASGIProgram := respond 400 "Invalid Content-Length header"

-- `limited_receive`, with `received` as its state.
def limited_receive (max_bytes : ℕ) : Filter Op Op.Reply ℕ
  | received, .receive, .ok message =>
      if message.type = "http.request" then
        let received := received + (message.body.getD []).length
        if received > max_bytes then (.error .RequestBodyTooLargeError, received)
        else (.ok message, received)
      else (.ok message, received)
  | received, _, reply => (reply, received)

def run (max_bytes : ℕ) (app : ASGIProgram) : ASGIProgram :=
  (app.filtered (limited_receive max_bytes) 0).attempt fun
    | .RequestBodyTooLargeError => too_large
    | error => .raise error

def call (max_bytes : ℕ) (app : ASGIApp) (scope : Scope) : ASGIProgram :=
  if scope.type ≠ "http" then app scope
  else
    match scope.header CONTENT_LENGTH with
    | none => run max_bytes (app scope)
    | some content_length =>
        match int content_length with
        | none => invalid_length
        | some declared_length =>
            if declared_length > max_bytes then too_large else run max_bytes (app scope)

end RequestBodyLimitMiddleware

section Lengths

-- A length as clients write it.
def decimal (length : ℕ) : List UInt8 :=
  if length = 0 then [48] else (Nat.digits 10 length).reverse.map fun digit => .ofNat (48 + digit)

theorem digit_byte {digit : ℕ} (h : digit < 10) :
    is_digit (.ofNat (48 + digit)) = true ∧ is_space (.ofNat (48 + digit)) = false ∧
      (UInt8.ofNat (48 + digit)).toNat - 48 = digit := by
  interval_cases digit <;> decide

theorem literal_digits_map {digits : List ℕ} (hne : digits ≠ [])
    (h : ∀ digit ∈ digits, digit < 10) :
    literal_digits (digits.map fun digit => .ofNat (48 + digit)) = some digits := by
  induction digits with
  | nil => exact absurd rfl hne
  | cons digit rest ih =>
      obtain ⟨hdigit, hrest⟩ := List.forall_mem_cons.mp h
      obtain ⟨his, -, hvalue⟩ := digit_byte hdigit
      cases rest with
      | nil => rw [List.map_cons, List.map_nil, literal_digits, if_pos his, hvalue]
      | cons next rest =>
          have hih : literal_digits
              (.ofNat (48 + next) :: rest.map fun digit => UInt8.ofNat (48 + digit)) =
                some (next :: rest) := ih (List.cons_ne_nil _ _) hrest
          have hnext : UInt8.ofNat (48 + next) ≠ 95 := by
            have := hrest next List.mem_cons_self
            interval_cases next <;> decide
          rw [List.map_cons, List.map_cons, literal_digits, if_pos his, hvalue, hih]
          · rfl
          · exact List.cons_ne_nil _ _
          · exact fun _ heq => hnext (List.cons.inj heq).1

theorem int_digits {digits : List ℕ} (hne : digits ≠ []) (h : ∀ digit ∈ digits, digit < 10)
    (hlength : digits.length ≤ MAX_STR_DIGITS) :
    int (digits.map fun digit => .ofNat (48 + digit)) =
      some ((Nat.ofDigits 10 digits.reverse : ℕ) : ℤ) := by
  have hspaces : ∀ byte ∈ digits.map fun digit => UInt8.ofNat (48 + digit),
      is_space byte = false := by
    intro byte hmem
    obtain ⟨digit, hdigit, rfl⟩ := List.mem_map.mp hmem
    exact (digit_byte (h digit hdigit)).2.1
  have hleft : (digits.map fun digit => UInt8.ofNat (48 + digit)).dropWhile is_space =
      digits.map fun digit => UInt8.ofNat (48 + digit) := by
    rw [List.dropWhile_eq_self_iff]
    intro hpos
    rw [hspaces _ (List.getElem_mem hpos)]
    exact Bool.false_ne_true
  have hright : (digits.map fun digit => UInt8.ofNat (48 + digit)).rdropWhile is_space =
      digits.map fun digit => UInt8.ofNat (48 + digit) := by
    rw [List.rdropWhile_eq_self_iff]
    intro hne
    rw [hspaces _ (List.getLast_mem hne)]
    exact Bool.false_ne_true
  have hsign : split_sign (digits.map fun digit => UInt8.ofNat (48 + digit)) =
      (1, digits.map fun digit => UInt8.ofNat (48 + digit)) := by
    cases digits with
    | nil => rfl
    | cons digit rest =>
        have := h digit List.mem_cons_self
        interval_cases digit <;> rfl
  simp only [int, hleft, hright, hsign, literal_digits_map hne h, gt_iff_lt, one_mul,
    if_neg (Nat.not_lt.mpr hlength)]

theorem int_decimal {length : ℕ} (h : (Nat.digits 10 length).length ≤ MAX_STR_DIGITS) :
    int (decimal length) = some (length : ℤ) := by
  unfold decimal
  by_cases hzero : length = 0
  · rw [if_pos hzero, hzero]
    decide
  · have hne : (Nat.digits 10 length).reverse ≠ [] := by
      simpa using Nat.digits_ne_nil_iff_ne_zero.mpr hzero
    rw [if_neg hzero, int_digits hne, List.reverse_reverse, Nat.ofDigits_digits]
    · intro digit hmem
      exact Nat.digits_lt_base (by decide) (List.mem_reverse.mp hmem)
    · rwa [List.length_reverse]

end Lengths

namespace RequestBodyLimitMiddleware

-- The piece of a request body that an exchange brings.
def piece : Exchange Op Op.Reply → Option (List UInt8)
  | ⟨.receive, .ok message⟩ =>
      if message.type = "http.request" then some (message.body.getD []) else none
  | _ => none

def pieces (trace : List (Exchange Op Op.Reply)) : List (List UInt8) := trace.filterMap piece

def size (pieces : List (List UInt8)) : ℕ := (pieces.map List.length).sum

def Unreadable (scope : Scope) : Prop :=
  ∃ content_length, scope.header CONTENT_LENGTH = some content_length ∧ int content_length = none

-- The header promises more than the limit.
def Excessive (max_bytes : ℕ) (scope : Scope) : Prop :=
  ∃ content_length declared_length, scope.header CONTENT_LENGTH = some content_length ∧
    int content_length = some declared_length ∧ max_bytes < declared_length

-- What the header promises, or that there is none, lets the request pass.
def Admitted (max_bytes : ℕ) (scope : Scope) : Prop :=
  ∀ content_length, scope.header CONTENT_LENGTH = some content_length →
    ∃ declared_length, int content_length = some declared_length ∧ declared_length ≤ max_bytes

-- What is shown of what comes: everything as it is, but for each piece that takes the body past
-- the limit the error that says so.
structure Passed (limit : ℕ) (seen shown : List (Exchange Op Op.Reply)) : Prop where
  ops : shown.map Exchange.op = seen.map Exchange.op
  kept : ∀ before exchange, before ++ [exchange] <+: seen →
    piece exchange = none ∨ size (pieces (before ++ [exchange])) ≤ limit →
      shown[before.length]? = some exchange
  replaced : ∀ before exchange, before ++ [exchange] <+: seen → piece exchange ≠ none →
    limit < size (pieces (before ++ [exchange])) →
      shown[before.length]? = some ⟨.receive, .error .RequestBodyTooLargeError⟩

variable {max_bytes : ℕ} {exchange : Exchange Op Op.Reply}

-- What the filter does to one exchange.
theorem limited_cases (received : ℕ) (exchange : Exchange Op Op.Reply) :
    (piece exchange = none ∧ limited_receive max_bytes received exchange.op exchange.reply =
      (exchange.reply, received)) ∨
    ∃ body, piece exchange = some body ∧
      ((received + body.length ≤ max_bytes ∧
          limited_receive max_bytes received exchange.op exchange.reply =
            (exchange.reply, received + body.length)) ∨
        (max_bytes < received + body.length ∧
          (⟨exchange.op, (limited_receive max_bytes received exchange.op exchange.reply).1⟩ :
            Exchange Op Op.Reply) = ⟨.receive, .error .RequestBodyTooLargeError⟩ ∧
          (limited_receive max_bytes received exchange.op exchange.reply).2 =
            received + body.length)) := by
  rcases exchange with ⟨op, reply⟩
  cases op with
  | send | json_response => exact .inl ⟨rfl, rfl⟩
  | receive =>
      cases reply with
      | error error => exact .inl ⟨rfl, rfl⟩
      | ok message =>
          by_cases htype : message.type = "http.request"
          · right
            refine ⟨message.body.getD [], if_pos htype, ?_⟩
            by_cases hmore : received + (message.body.getD []).length > max_bytes
            · right
              simp only [limited_receive, if_pos htype, if_pos hmore]
              exact ⟨hmore, trivial, trivial⟩
            · left
              simp only [limited_receive, if_pos htype, if_neg hmore]
              exact ⟨Nat.not_lt.mp hmore, trivial⟩
          · left
            simp only [piece, limited_receive, if_neg htype]
            exact ⟨trivial, trivial⟩

-- `given` is the longest beginning of what came that fits the limit, after `received` bytes.
structure Longest (limit received : ℕ) (came given : List (List UInt8)) : Prop where
  fits : received + size given ≤ limit
  beginning : given <+: came
  longest : ∀ body, given ++ [body] <+: came → limit < received + size given + body.length

theorem pieces_cons_none (h : piece exchange = none) (rest : List (Exchange Op Op.Reply)) :
    pieces (exchange :: rest) = pieces rest := List.filterMap_cons_none h

theorem pieces_cons_some {body : List UInt8} (h : piece exchange = some body)
    (rest : List (Exchange Op Op.Reply)) : pieces (exchange :: rest) = body :: pieces rest :=
  List.filterMap_cons_some h

theorem size_cons (body : List UInt8) (rest : List (List UInt8)) :
    size (body :: rest) = body.length + size rest := by
  rw [size, size, List.map_cons, List.sum_cons]

theorem size_append (before later : List (Exchange Op Op.Reply)) :
    size (pieces (before ++ later)) = size (pieces before) + size (pieces later) := by
  rw [pieces, List.filterMap_append, size, List.map_append, List.sum_append]
  rfl

theorem size_concat {body : List UInt8} (h : piece exchange = some body)
    (before : List (Exchange Op Op.Reply)) :
    size (pieces (before ++ [exchange])) = size (pieces before) + body.length := by
  rw [size_append, pieces_cons_some h, size_cons]
  rfl

theorem after_limited (before : List (Exchange Op Op.Reply)) : ∀ received,
    (limited_receive max_bytes).after received before = received + size (pieces before) := by
  induction before with
  | nil => exact fun _ => rfl
  | cons exchange rest ih =>
      intro received
      rw [Filter.after, ih]
      rcases @limited_cases max_bytes received exchange with
        ⟨hpiece, hlimited⟩ | ⟨body, hpiece, ⟨-, hlimited⟩ | ⟨-, -, hstate⟩⟩
      · rw [hlimited, pieces_cons_none hpiece]
      · rw [hlimited, pieces_cons_some hpiece, size_cons, Nat.add_assoc]
      · rw [hstate, pieces_cons_some hpiece, size_cons, Nat.add_assoc]

theorem passed_view (seen : List (Exchange Op Op.Reply)) :
    Passed max_bytes seen ((limited_receive max_bytes).view 0 seen) := by
  refine ⟨Filter.view_ops seen 0, fun before exchange hprefix hkept => ?_,
    fun before exchange hprefix hpiece hover => ?_⟩
  · rw [Filter.view_getElem? hprefix, after_limited, Nat.zero_add]
    rcases @limited_cases max_bytes (size (pieces before)) exchange with
      ⟨-, hlimited⟩ | ⟨body, hpiece, ⟨-, hlimited⟩ | ⟨hover, -⟩⟩
    · rw [hlimited]
    · rw [hlimited]
    · rw [hpiece, size_concat hpiece] at hkept
      rcases hkept with hnone | hfits
      · cases hnone
      · omega
  · rw [Filter.view_getElem? hprefix, after_limited, Nat.zero_add]
    rcases @limited_cases max_bytes (size (pieces before)) exchange with
      ⟨hnone, -⟩ | ⟨body, hpiece, ⟨hfits, -⟩ | ⟨-, hreplaced, -⟩⟩
    · exact absurd hnone hpiece
    · rw [size_concat hpiece] at hover
      omega
    · rw [hreplaced]

-- What is shown is determined by what comes.
theorem Passed.unique {seen shown shown' : List (Exchange Op Op.Reply)}
    (h : Passed max_bytes seen shown) (h' : Passed max_bytes seen shown') : shown = shown' := by
  have hlength : shown.length = seen.length := by simpa using congrArg List.length h.ops
  have hlength' : shown'.length = seen.length := by simpa using congrArg List.length h'.ops
  refine List.ext_getElem? fun index => ?_
  by_cases hindex : index < seen.length
  · have hprefix : seen.take index ++ [seen[index]] <+: seen := by
      rw [List.take_append_getElem hindex]
      exact List.take_prefix _ _
    have hbefore : (seen.take index).length = index := List.length_take_of_le hindex.le
    by_cases hkept : piece seen[index] = none ∨
        size (pieces (seen.take index ++ [seen[index]])) ≤ max_bytes
    · have heq := (h.kept _ _ hprefix hkept).trans (h'.kept _ _ hprefix hkept).symm
      rwa [hbefore] at heq
    · obtain ⟨hpiece, hover⟩ := not_or.mp hkept
      have heq := (h.replaced _ _ hprefix hpiece (Nat.not_le.mp hover)).trans
        (h'.replaced _ _ hprefix hpiece (Nat.not_le.mp hover)).symm
      rwa [hbefore] at heq
  · rw [List.getElem?_eq_none (by omega), List.getElem?_eq_none (by omega)]

-- Once the limit is passed nothing more of the body is shown.
theorem pieces_overflown (seen : List (Exchange Op Op.Reply)) : ∀ {received : ℕ},
    max_bytes < received → pieces ((limited_receive max_bytes).view received seen) = [] := by
  induction seen with
  | nil => exact fun _ => rfl
  | cons exchange rest ih =>
      intro received hmore
      rw [Filter.view]
      rcases @limited_cases max_bytes received exchange with
        ⟨hpiece, hlimited⟩ | ⟨body, hpiece, ⟨hfits, hlimited⟩ | ⟨hover, hreplaced, hstate⟩⟩
      · rw [hlimited, pieces_cons_none hpiece]
        exact ih hmore
      · omega
      · have hnone : piece ⟨.receive, .error .RequestBodyTooLargeError⟩ = none := rfl
        rw [hreplaced, pieces_cons_none hnone, hstate]
        exact ih hover

theorem longest_view (seen : List (Exchange Op Op.Reply)) : ∀ {received : ℕ},
    received ≤ max_bytes → Longest max_bytes received (pieces seen)
      (pieces ((limited_receive max_bytes).view received seen)) := by
  induction seen with
  | nil =>
      intro received hfits
      exact ⟨hfits, List.prefix_rfl,
        fun _ h => absurd (List.prefix_nil.mp h) (List.concat_ne_nil _ _)⟩
  | cons exchange rest ih =>
      intro received hreceived
      rw [Filter.view]
      rcases @limited_cases max_bytes received exchange with
        ⟨hpiece, hlimited⟩ | ⟨body, hpiece, ⟨hfits, hlimited⟩ | ⟨hover, hreplaced, hstate⟩⟩
      · rw [hlimited, pieces_cons_none hpiece, pieces_cons_none hpiece]
        exact ih hreceived
      · rw [hlimited, pieces_cons_some hpiece, pieces_cons_some hpiece]
        have h := ih hfits
        refine ⟨?_, List.cons_prefix_cons.mpr ⟨rfl, h.beginning⟩, fun next hprefix => ?_⟩
        · rw [size_cons, ← Nat.add_assoc]
          exact h.fits
        · rw [size_cons, ← Nat.add_assoc]
          exact h.longest next (List.cons_prefix_cons.mp hprefix).2
      · have hnone : piece ⟨.receive, .error .RequestBodyTooLargeError⟩ = none := rfl
        rw [hreplaced, pieces_cons_none hnone, pieces_cons_some hpiece, hstate,
          pieces_overflown rest hover]
        refine ⟨hreceived, List.nil_prefix, fun next hprefix => ?_⟩
        obtain ⟨rfl, -⟩ := List.cons_prefix_cons.mp hprefix
        exact hover

-- Within the limit everything is shown as it comes.
theorem passed_of_fits {seen : List (Exchange Op Op.Reply)}
    (hfits : size (pieces seen) ≤ max_bytes) : Passed max_bytes seen seen := by
  refine ⟨rfl, fun before exchange hprefix _ => ?_, fun before exchange hprefix _ hover => ?_⟩
  · obtain ⟨later, rfl⟩ := hprefix
    rw [List.append_assoc, List.getElem?_append_right le_rfl, Nat.sub_self]
    rfl
  · obtain ⟨later, rfl⟩ := hprefix
    rw [size_append] at hfits
    omega

theorem executes_run {program : ASGIProgram} {trace : List (Exchange Op Op.Reply)}
    {result : Except Error Unit} :
    (run max_bytes program).Executes trace result ↔ ∃ seen shown later outcome,
      trace = seen ++ later ∧ Passed max_bytes seen shown ∧ program.Executes shown outcome ∧
        ((outcome = .error .RequestBodyTooLargeError ∧ too_large.Executes later result) ∨
          (outcome ≠ .error .RequestBodyTooLargeError ∧ later = [] ∧ result = outcome)) := by
  constructor
  · revert trace result
    apply Program.ensures_attempt
    intro trace result hexec
    have hshown := Program.executes_filtered.mp hexec
    cases result with
    | ok value =>
        refine ⟨trace, _, [], _, (List.append_nil trace).symm, passed_view trace, hshown,
          .inr ⟨?_, rfl, rfl⟩⟩
        rintro ⟨⟩
    | error error =>
        cases error with
        | RequestBodyTooLargeError =>
            intro later result hlater
            exact ⟨trace, _, later, _, rfl, passed_view trace, hshown, .inl ⟨rfl, hlater⟩⟩
        | Exception message =>
            refine Program.ensures_raise ⟨trace, _, [], _, rfl, passed_view trace, hshown,
              .inr ⟨?_, rfl, rfl⟩⟩
            rintro ⟨⟩
  · rintro ⟨seen, shown, later, outcome, rfl, hpassed, hshown, hend⟩
    have hfiltered : (program.filtered (limited_receive max_bytes) 0).Executes seen outcome := by
      rw [Program.executes_filtered, (passed_view seen).unique hpassed]
      exact hshown
    rcases hend with ⟨rfl, hlater⟩ | ⟨hother, rfl, rfl⟩
    · exact hfiltered.attempt later result hlater
    · rw [List.append_nil]
      cases result with
      | ok value => exact hfiltered.attempt
      | error error =>
          cases error with
          | RequestBodyTooLargeError => exact absurd rfl hother
          | Exception message =>
              have hraised : (run max_bytes program).Executes (seen ++ []) _ :=
                hfiltered.attempt [] _ (.raise (Error.Exception message))
              rwa [List.append_nil] at hraised

section Scopes

variable {app : ASGIApp} {scope : Scope}

theorem call_of_admitted (hhttp : scope.type = "http") (hadmitted : Admitted max_bytes scope) :
    call max_bytes app scope = run max_bytes (app scope) := by
  rw [call, if_neg (not_not.mpr hhttp)]
  cases hheader : scope.header CONTENT_LENGTH with
  | none => rfl
  | some content_length =>
      obtain ⟨declared_length, hint, hle⟩ := hadmitted content_length hheader
      simp only [hint]
      exact if_neg (not_lt.mpr hle)

theorem call_of_unreadable (hhttp : scope.type = "http") (h : Unreadable scope) :
    call max_bytes app scope = invalid_length := by
  obtain ⟨content_length, hheader, hint⟩ := h
  rw [call, if_neg (not_not.mpr hhttp)]
  simp only [hheader, hint]

theorem call_of_excessive (hhttp : scope.type = "http") (h : Excessive max_bytes scope) :
    call max_bytes app scope = too_large := by
  obtain ⟨content_length, declared_length, hheader, hint, hmore⟩ := h
  rw [call, if_neg (not_not.mpr hhttp)]
  simp only [hheader, hint]
  exact if_pos hmore

theorem admitted_or (max_bytes : ℕ) (scope : Scope) :
    Unreadable scope ∨ Excessive max_bytes scope ∨ Admitted max_bytes scope := by
  cases hheader : scope.header CONTENT_LENGTH with
  | none =>
      refine .inr (.inr fun content_length hsome => ?_)
      rw [hheader] at hsome
      cases hsome
  | some content_length =>
      cases hint : int content_length with
      | none => exact .inl ⟨content_length, hheader, hint⟩
      | some declared_length =>
          by_cases hmore : max_bytes < declared_length
          · exact .inr (.inl ⟨content_length, declared_length, hheader, hint, hmore⟩)
          · refine .inr (.inr fun other hsome => ?_)
            rw [hheader] at hsome
            cases hsome
            exact ⟨declared_length, hint, not_lt.mp hmore⟩

end Scopes

end RequestBodyLimitMiddleware

open RequestBodyLimitMiddleware

-- A header that cannot be read is answered 400 and one that promises too much 413, without the
-- application. Otherwise the application is shown the longest beginning of the body that fits
-- the limit and everything else as it comes, and is answered for when it gives up over that.
theorem request_body_bounded (max_bytes : ℕ) (app : ASGIApp) {scope : Scope}
    (hhttp : scope.type = "http") :
    (Unreadable scope ∨ Excessive max_bytes scope ∨ Admitted max_bytes scope) ∧
    (Unreadable scope → ∀ trace result, (call max_bytes app scope).Executes trace result ↔
      invalid_length.Executes trace result) ∧
    (Excessive max_bytes scope → ∀ trace result, (call max_bytes app scope).Executes trace result ↔
      too_large.Executes trace result) ∧
    (Admitted max_bytes scope → ∀ trace result, (call max_bytes app scope).Executes trace result ↔
      ∃ seen shown later outcome, trace = seen ++ later ∧ Passed max_bytes seen shown ∧
        (app scope).Executes shown outcome ∧
        ((outcome = .error .RequestBodyTooLargeError ∧ too_large.Executes later result) ∨
          (outcome ≠ .error .RequestBodyTooLargeError ∧ later = [] ∧ result = outcome))) ∧
    (∀ seen shown, Passed max_bytes seen shown →
      Longest max_bytes 0 (pieces seen) (pieces shown) ∧
        (size (pieces seen) ≤ max_bytes → shown = seen)) ∧
    ∀ length, (Nat.digits 10 length).length ≤ MAX_STR_DIGITS →
      scope.header CONTENT_LENGTH = some (decimal length) →
        (Admitted max_bytes scope ↔ length ≤ max_bytes) ∧
        (Excessive max_bytes scope ↔ max_bytes < length) := by
  refine ⟨admitted_or max_bytes scope, fun hunreadable trace result => ?_,
    fun hexcessive trace result => ?_, fun hadmitted trace result => ?_,
    fun seen shown hpassed => ?_, fun length hlength hheader => ⟨?_, ?_⟩⟩
  · rw [call_of_unreadable hhttp hunreadable]
  · rw [call_of_excessive hhttp hexcessive]
  · rw [call_of_admitted hhttp hadmitted]
    exact executes_run
  · refine ⟨?_, fun hfits => hpassed.unique (passed_of_fits hfits)⟩
    rw [hpassed.unique (passed_view seen)]
    exact longest_view seen (Nat.zero_le _)
  · constructor
    · intro hadmitted
      obtain ⟨declared_length, hint, hle⟩ := hadmitted _ hheader
      rw [int_decimal hlength] at hint
      cases hint
      exact Int.ofNat_le.mp hle
    · intro hle content_length hsome
      rw [hheader] at hsome
      cases hsome
      exact ⟨length, int_decimal hlength, Int.ofNat_le.mpr hle⟩
  · constructor
    · rintro ⟨content_length, declared_length, hsome, hint, hmore⟩
      rw [hheader] at hsome
      cases hsome
      rw [int_decimal hlength] at hint
      cases hint
      exact Int.ofNat_lt.mp hmore
    · exact fun hmore => ⟨_, length, hheader, int_decimal hlength, Int.ofNat_lt.mpr hmore⟩

-- It waits for two messages and is content.
def two_messages : ASGIApp := fun _ =>
  .call .receive fun
    | .error error => .raise error
    | .ok _ => .call .receive fun
      | .error error => .raise error
      | .ok _ => .ret ()

def cut_off : List (Exchange Op Op.Reply) :=
  [⟨.receive, .ok ⟨"http.request", some [1, 2, 3], some true⟩⟩,
    ⟨.receive, .ok ⟨"http.request", some [4, 5], none⟩⟩,
    ⟨.json_response 413 [("detail", .str "Request body exceeds the configured limit")], .ok ()⟩]

theorem request_body_bounded_cut_off :
    (call 4 two_messages ⟨"http", none⟩).Executes cut_off (.ok ()) ∧
      (∃ seen shown outcome, Passed 4 seen shown ∧
        (two_messages ⟨"http", none⟩).Executes shown outcome ∧ size (pieces shown) ≤ 4) ∧
      Excessive 4 ⟨"http", some [(CONTENT_LENGTH, decimal 10)]⟩ := by
  have hexec : (call 4 two_messages ⟨"http", none⟩).Executes cut_off (.ok ()) :=
    .call (.call (.call (.ret ())))
  refine ⟨hexec, ?_, ?_⟩
  · obtain ⟨-, -, -, hiff, hlongest, -⟩ :=
      @request_body_bounded 4 two_messages ⟨"http", none⟩ rfl
    obtain ⟨seen, shown, later, outcome, -, hpassed, hshown, -⟩ :=
      (hiff (fun _ hsome => by cases hsome) _ _).mp hexec
    refine ⟨seen, shown, outcome, hpassed, hshown, ?_⟩
    have hfits := (hlongest seen shown hpassed).1.fits
    rwa [Nat.zero_add] at hfits
  · have hiff := (@request_body_bounded 4 two_messages
      ⟨"http", some [(CONTENT_LENGTH, decimal 10)]⟩ rfl).2.2.2.2.2 10 (by simp [MAX_STR_DIGITS])
      (by simp [Scope.header])
    exact hiff.2.mpr (by decide)

end ResearchAgent.Service.ASGI
