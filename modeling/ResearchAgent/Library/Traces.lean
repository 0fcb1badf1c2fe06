import ResearchAgent.Library.Program

namespace Library

-- One operation with its answer.
structure Exchange (Op : Type) (Reply : Op → Type) where
  op : Op
  reply : Reply op

section History

variable {α : Type} {allowed : List α → α → Prop}

-- Every entry is one that the entries before it allow.
def Along (allowed : List α → α → Prop) : List α → List α → Prop
  | _, [] => True
  | past, entry :: rest => allowed past entry ∧ Along allowed (past ++ [entry]) rest

theorem along_append (first later : List α) : ∀ past,
    Along allowed past (first ++ later) ↔
      Along allowed past first ∧ Along allowed (past ++ first) later := by
  induction first with
  | nil => simp [Along]
  | cons entry rest ih =>
      intro past
      simp only [List.cons_append, Along, ih, and_assoc, List.append_assoc, List.nil_append]

theorem along_iff (trace : List α) : ∀ past, Along allowed past trace ↔
    ∀ before entry after, trace = before ++ entry :: after → allowed (past ++ before) entry := by
  induction trace with
  | nil => exact fun past => iff_of_true trivial (by simp)
  | cons first rest ih =>
      intro past
      rw [Along, ih]
      constructor
      · rintro ⟨hfirst, hrest⟩ before entry after hsplit
        cases before with
        | nil =>
            cases hsplit
            rwa [List.append_nil]
        | cons other before =>
            obtain ⟨rfl, htail⟩ := List.cons.inj hsplit
            have hentry := hrest before entry after htail
            rwa [List.append_assoc] at hentry
      · intro h
        refine ⟨?_, fun before entry after hsplit => ?_⟩
        · have hfirst := h [] first rest rfl
          rwa [List.append_nil] at hfirst
        · have hentry := h (first :: before) entry after (by rw [hsplit]; rfl)
          rwa [List.append_assoc]

theorem along_of_forall {trace : List α} : ∀ {past},
    (∀ entry ∈ trace, ∀ past, allowed past entry) → Along allowed past trace := by
  induction trace with
  | nil => exact fun _ => trivial
  | cons entry rest ih =>
      intro past h
      exact ⟨h entry List.mem_cons_self past,
        ih fun other hmem => h other (List.mem_cons_of_mem _ hmem)⟩

end History

namespace Program

variable {Op : Type} {Reply : Op → Type} {ε α β : Type}

-- A complete execution: the exchanges of the program in their order, and how it
-- ends. Nothing is said about where the answers come from.
inductive Executes : Program Op Reply ε α → List (Exchange Op Reply) → Except ε α → Prop
  | ret (value : α) : Executes (.ret value) [] (.ok value)
  | raise (error : ε) : Executes (.raise error) [] (.error error)
  | call {op : Op} {next : Reply op → Program Op Reply ε α} {reply : Reply op}
      {trace : List (Exchange Op Reply)} {result : Except ε α}
      (h : Executes (next reply) trace result) :
      Executes (.call op next) (⟨op, reply⟩ :: trace) result

-- Every execution of the program meets `post`.
def Ensures (program : Program Op Reply ε α)
    (post : List (Exchange Op Reply) → Except ε α → Prop) : Prop :=
  ∀ trace result, program.Executes trace result → post trace result

variable {program : Program Op Reply ε α} {f : α → Program Op Reply ε β}
  {handler : ε → Program Op Reply ε α} {trace : List (Exchange Op Reply)}
  {post post' : List (Exchange Op Reply) → Except ε α → Prop}

theorem Ensures.mono (h : program.Ensures post)
    (himp : ∀ trace result, post trace result → post' trace result) : program.Ensures post' :=
  fun trace result hexec => himp trace result (h trace result hexec)

theorem Ensures.and (h : program.Ensures post) (h' : program.Ensures post') :
    program.Ensures fun trace result => post trace result ∧ post' trace result :=
  fun trace result hexec => ⟨h trace result hexec, h' trace result hexec⟩

theorem ensures_ret {value : α} (h : post [] (.ok value)) :
    (Program.ret value : Program Op Reply ε α).Ensures post := by
  rintro trace result ⟨⟩
  exact h

theorem ensures_raise {error : ε} (h : post [] (.error error)) :
    (Program.raise error : Program Op Reply ε α).Ensures post := by
  rintro trace result ⟨⟩
  exact h

theorem ensures_call {op : Op} {next : Reply op → Program Op Reply ε α}
    (h : ∀ reply, (next reply).Ensures fun trace result => post (⟨op, reply⟩ :: trace) result) :
    (Program.call op next).Ensures post := by
  intro trace result hexec
  cases hexec with
  | call hnext => exact h _ _ _ hnext

-- The second part goes on from where the first has returned.
theorem ensures_bind {post : List (Exchange Op Reply) → Except ε β → Prop}
    (h : program.Ensures fun trace result => match result with
      | .ok value => (f value).Ensures fun later result => post (trace ++ later) result
      | .error error => post trace (.error error)) :
    (program >>= f).Ensures post := by
  induction program generalizing post with
  | ret value => exact h [] (.ok value) (.ret value)
  | raise error => exact ensures_raise (h [] (.error error) (.raise error))
  | call op next ih =>
      refine ensures_call fun reply => ih reply fun trace result hexec => ?_
      exact h (⟨op, reply⟩ :: trace) result (.call hexec)

theorem ensures_attempt
    (h : program.Ensures fun trace result => match result with
      | .ok value => post trace (.ok value)
      | .error error => (handler error).Ensures fun later result => post (trace ++ later) result) :
    (program.attempt handler).Ensures post := by
  induction program generalizing post with
  | ret value => exact ensures_ret (h [] (.ok value) (.ret value))
  | raise error => exact h [] (.error error) (.raise error)
  | call op next ih =>
      refine ensures_call fun reply => ih reply fun trace result hexec => ?_
      exact h (⟨op, reply⟩ :: trace) result (.call hexec)

-- Whatever a program does, its operations are among those it uses.
theorem Executes.uses {allowed : Op → Prop} {result : Except ε α}
    (hexec : program.Executes trace result) (h : program.uses allowed) :
    ∀ exchange ∈ trace, allowed exchange.op := by
  induction hexec with
  | ret | raise => intro exchange hmem; cases hmem
  | call _ ih =>
      intro exchange hmem
      rcases List.mem_cons.mp hmem with rfl | hmem
      · exact h.1
      · exact ih (h.2 _) exchange hmem

section Record

variable {σ : Type} (exec : σ → (op : Op) → Reply op × σ)

-- The execution in which `exec` gives the answers.
def record : Program Op Reply ε α → σ → List (Exchange Op Reply) × Except ε α
  | .ret value, _ => ([], .ok value)
  | .raise error, _ => ([], .error error)
  | .call op next, state =>
      let (trace, result) := (next (exec state op).1).record (exec state op).2
      (⟨op, (exec state op).1⟩ :: trace, result)

theorem executes_record (program : Program Op Reply ε α) (state : σ) :
    program.Executes (program.record exec state).1 (program.record exec state).2 := by
  induction program generalizing state with
  | ret value => exact .ret value
  | raise error => exact .raise error
  | call op next ih => exact .call (ih _ _)

theorem reply_of_mem_record {exchange : Exchange Op Reply} {program : Program Op Reply ε α} :
    ∀ {state : σ}, exchange ∈ (program.record exec state).1 →
      ∃ state, exchange.reply = (exec state exchange.op).1 := by
  induction program with
  | ret | raise => intro state hmem; cases hmem
  | call op next ih =>
      intro state hmem
      rcases List.mem_cons.mp hmem with rfl | hmem
      · exact ⟨state, rfl⟩
      · exact ih _ hmem

end Record

end Program

end Library
