import ResearchAgent.Library.Traces

namespace Library

-- What stands between a program and those who answer it: an answer may be changed on its way,
-- and a state says what has passed.
abbrev Filter (Op : Type) (Reply : Op → Type) (σ : Type) : Type :=
  σ → (op : Op) → Reply op → Reply op × σ

variable {Op : Type} {Reply : Op → Type} {ε α σ : Type} {filter : Filter Op Reply σ}

namespace Filter

variable (filter)

-- The exchanges as the program sees them.
def view : σ → List (Exchange Op Reply) → List (Exchange Op Reply)
  | _, [] => []
  | state, exchange :: rest =>
      ⟨exchange.op, (filter state exchange.op exchange.reply).1⟩ ::
        view (filter state exchange.op exchange.reply).2 rest

-- The state in which the exchanges leave it.
def after : σ → List (Exchange Op Reply) → σ
  | state, [] => state
  | state, exchange :: rest => after (filter state exchange.op exchange.reply).2 rest

variable {filter}

-- Every answer that the program asks for comes, changed or not, and nothing else does.
theorem view_ops (trace : List (Exchange Op Reply)) :
    ∀ state, (filter.view state trace).map Exchange.op = trace.map Exchange.op := by
  induction trace with
  | nil => exact fun _ => rfl
  | cons exchange rest ih =>
      intro state
      simp only [view, List.map_cons, ih]

theorem length_view (trace : List (Exchange Op Reply)) (state : σ) :
    (filter.view state trace).length = trace.length := by
  simpa using congrArg List.length (view_ops trace state)

theorem view_append (before later : List (Exchange Op Reply)) :
    ∀ state, filter.view state (before ++ later) =
      filter.view state before ++ filter.view (filter.after state before) later := by
  induction before with
  | nil => exact fun _ => rfl
  | cons exchange rest ih =>
      intro state
      simp only [List.cons_append, view, after, ih]

-- What the program sees of an exchange depends on those before it through the state alone.
theorem view_getElem? {before trace : List (Exchange Op Reply)} {exchange : Exchange Op Reply}
    (h : before ++ [exchange] <+: trace) (state : σ) :
    (filter.view state trace)[before.length]? =
      some ⟨exchange.op, (filter (filter.after state before) exchange.op exchange.reply).1⟩ := by
  obtain ⟨later, rfl⟩ := h
  have hlength := @length_view Op Reply σ filter before state
  rw [List.append_assoc, view_append, List.getElem?_append_right (Nat.le_of_eq hlength), hlength,
    Nat.sub_self]
  rfl

end Filter

namespace Program

variable (filter)

-- The program with every answer passed through the filter.
def filtered : σ → Program Op Reply ε α → Program Op Reply ε α
  | _, .ret value => .ret value
  | _, .raise error => .raise error
  | state, .call op next =>
      .call op fun reply => (next (filter state op reply).1).filtered (filter state op reply).2

variable {filter}

-- The executions through the filter are the program's own with the answers that it sees.
theorem executes_filtered {program : Program Op Reply ε α} {result : Except ε α} :
    ∀ {state : σ} {trace : List (Exchange Op Reply)},
      (program.filtered filter state).Executes trace result ↔
        program.Executes (filter.view state trace) result := by
  induction program with
  | ret value =>
      intro state trace
      constructor
      · rintro ⟨⟩
        exact .ret value
      · intro h
        cases trace with
        | nil => exact h
        | cons => cases h
  | raise error =>
      intro state trace
      constructor
      · rintro ⟨⟩
        exact .raise error
      · intro h
        cases trace with
        | nil => exact h
        | cons => cases h
  | call op next ih =>
      intro state trace
      constructor
      · intro h
        cases h with
        | call hnext => exact .call ((ih _).mp hnext)
      · intro h
        cases trace with
        | nil => cases h
        | cons exchange rest =>
            obtain ⟨asked, reply⟩ := exchange
            cases h with
            | call hnext => exact .call ((ih _).mpr hnext)

-- An execution goes on in the handler where it has raised.
theorem Executes.attempt {program : Program Op Reply ε α} {handler : ε → Program Op Reply ε α}
    {trace : List (Exchange Op Reply)} {result : Except ε α} (h : program.Executes trace result) :
    match result with
    | .ok value => (program.attempt handler).Executes trace (.ok value)
    | .error error => ∀ later last, (handler error).Executes later last →
        (program.attempt handler).Executes (trace ++ later) last := by
  induction h with
  | ret value => exact .ret value
  | raise error => exact fun later last hlater => hlater
  | @call op next reply trace result _ ih =>
      cases result with
      | ok value => exact .call ih
      | error error => exact fun later last hlater => .call (ih later last hlater)

end Program

end Library
