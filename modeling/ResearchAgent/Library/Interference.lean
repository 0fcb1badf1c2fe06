import ResearchAgent.Library.Program

namespace Library.Program

variable {Op : Type} {Reply : Op → Type} {ε α β σ : Type}

-- The program runs, and between its operations others act as they may.
inductive Amid (exec : σ → (op : Op) → Reply op × σ) (others : σ → σ → Prop) :
    Program Op Reply ε α → σ → Except ε α → σ → Prop
  | ret {value state} : Amid exec others (.ret value) state (.ok value) state
  | raise {error state} : Amid exec others (.raise error) state (.error error) state
  | call {op next state result last}
      (h : Amid exec others (next (exec state op).1) (exec state op).2 result last) :
      Amid exec others (.call op next) state result last
  | others {program state mid result last} (hothers : others state mid)
      (h : Amid exec others program mid result last) : Amid exec others program state result last

-- What the others leave true.
def Stable (others : σ → σ → Prop) (holds : σ → Prop) : Prop :=
  ∀ state state', others state state' → holds state → holds state'

-- From a state with `before`, the program can only end with `after`.
def Meets (exec : σ → (op : Op) → Reply op × σ) (others : σ → σ → Prop) (before : σ → Prop)
    (program : Program Op Reply ε α) (after : Except ε α → σ → Prop) : Prop :=
  ∀ state result last, before state → Amid exec others program state result last →
    after result last

variable {exec : σ → (op : Op) → Reply op × σ} {others : σ → σ → Prop} {before : σ → Prop}
  {after : Except ε α → σ → Prop}

theorem Meets.ret {value : α} (hstable : Stable others before)
    (h : ∀ state, before state → after (.ok value) state) :
    Meets exec others before (.ret value) after := by
  intro state result last hbefore hrun
  generalize hprogram : (Program.ret value : Program Op Reply ε α) = program at hrun
  induction hrun with
  | ret =>
      cases hprogram
      exact h _ hbefore
  | raise | call => cases hprogram
  | others hothers _ ih => exact ih (hstable _ _ hothers hbefore) hprogram

theorem Meets.raise {error : ε} (hstable : Stable others before)
    (h : ∀ state, before state → after (.error error) state) :
    Meets exec others before (.raise error : Program Op Reply ε α) after := by
  intro state result last hbefore hrun
  generalize hprogram : (Program.raise error : Program Op Reply ε α) = program at hrun
  induction hrun with
  | raise =>
      cases hprogram
      exact h _ hbefore
  | ret | call => cases hprogram
  | others hothers _ ih => exact ih (hstable _ _ hothers hbefore) hprogram

theorem Meets.call {op : Op} {next : Reply op → Program Op Reply ε α}
    (mid : Reply op → σ → Prop) (hstable : Stable others before)
    (hop : ∀ state, before state → mid (exec state op).1 (exec state op).2)
    (hnext : ∀ reply, Meets exec others (mid reply) (next reply) after) :
    Meets exec others before (.call op next) after := by
  intro state result last hbefore hrun
  generalize hprogram : Program.call op next = program at hrun
  induction hrun with
  | call hrest =>
      cases hprogram
      exact hnext _ _ _ _ (hop _ hbefore) hrest
  | ret | raise => cases hprogram
  | others hothers _ ih => exact ih (hstable _ _ hothers hbefore) hprogram

theorem Meets.given {fact : Prop} {program : Program Op Reply ε α}
    (h : fact → Meets exec others before program after) :
    Meets exec others (fun state => fact ∧ before state) program after :=
  fun state result last hbefore hrun => h hbefore.1 state result last hbefore.2 hrun

end Library.Program
