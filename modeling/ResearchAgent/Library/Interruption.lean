import Mathlib.Data.Nat.Notation
import ResearchAgent.Library.Traces

namespace Library

namespace Program

variable {Op : Type} {Reply : Op → Type} {ε α β σ : Type}
  {step : σ → (op : Op) → Reply op → σ → Prop}

-- The program goes on for a while and stops, be it that it ends or that its process does.
inductive Stops (step : σ → (op : Op) → Reply op → σ → Prop) :
    Program Op Reply ε α → σ → List (Exchange Op Reply) → σ → Prop
  | here (program : Program Op Reply ε α) (state : σ) : Stops step program state [] state
  | call {op : Op} {next : Reply op → Program Op Reply ε α} {state : σ} {reply : Reply op}
      {state' : σ} {trace : List (Exchange Op Reply)} {state'' : σ}
      (hstep : step state op reply state') (h : Stops step (next reply) state' trace state'') :
      Stops step (.call op next) state (⟨op, reply⟩ :: trace) state''

-- The program runs to its end.
inductive Finishes (step : σ → (op : Op) → Reply op → σ → Prop) :
    Program Op Reply ε α → σ → List (Exchange Op Reply) → Except ε α → σ → Prop
  | ret (value : α) (state : σ) : Finishes step (.ret value) state [] (.ok value) state
  | raise (error : ε) (state : σ) : Finishes step (.raise error) state [] (.error error) state
  | call {op : Op} {next : Reply op → Program Op Reply ε α} {state : σ} {reply : Reply op}
      {state' : σ} {trace : List (Exchange Op Reply)} {result : Except ε α} {state'' : σ}
      (hstep : step state op reply state')
      (h : Finishes step (next reply) state' trace result state'') :
      Finishes step (.call op next) state (⟨op, reply⟩ :: trace) result state''

variable {program : Program Op Reply ε α} {f : α → Program Op Reply ε β} {state state' : σ}
  {trace : List (Exchange Op Reply)} {result : Except ε α}

theorem Finishes.stops (h : Finishes step program state trace result state') :
    Stops step program state trace state' := by
  induction h with
  | ret | raise => exact .here _ _
  | call hstep _ ih => exact .call hstep ih

theorem Finishes.of_ret {value : α}
    (h : Finishes step (.ret value : Program Op Reply ε α) state trace result state') :
    trace = [] ∧ result = .ok value ∧ state' = state := by
  cases h
  exact ⟨rfl, rfl, rfl⟩

theorem Stops.of_ret {value : α}
    (h : Stops step (.ret value : Program Op Reply ε α) state trace state') :
    trace = [] ∧ state' = state := by
  cases h
  exact ⟨rfl, rfl⟩

theorem Stops.of_raise {error : ε}
    (h : Stops step (.raise error : Program Op Reply ε α) state trace state') :
    trace = [] ∧ state' = state := by
  cases h
  exact ⟨rfl, rfl⟩

-- Two parts stop in the first, or in the second once the first has returned.
theorem Stops.of_bind (h : Stops step (program >>= f) state trace state') :
    Stops step program state trace state' ∨ ∃ value first between second,
      Finishes step program state first (.ok value) between ∧
        Stops step (f value) between second state' ∧ trace = first ++ second := by
  induction program generalizing state trace with
  | ret value => exact .inr ⟨value, [], state, trace, .ret value state, h, rfl⟩
  | raise error =>
      obtain ⟨rfl, rfl⟩ := h.of_raise
      exact .inl (.here _ _)
  | call op next ih =>
      cases h with
      | here => exact .inl (.here _ _)
      | call hstep hrest =>
          rcases ih _ hrest with hfirst | ⟨value, first, between, second, hfirst, hsecond, rfl⟩
          · exact .inl (.call hstep hfirst)
          · exact .inr ⟨value, _, between, second, .call hstep hfirst, hsecond, rfl⟩

theorem Finishes.of_bind_ok {value : β}
    (h : Finishes step (program >>= f) state trace (.ok value) state') :
    ∃ middle first between second, Finishes step program state first (.ok middle) between ∧
      Finishes step (f middle) between second (.ok value) state' ∧ trace = first ++ second := by
  induction program generalizing state trace with
  | ret middle => exact ⟨middle, [], state, trace, .ret middle state, h, rfl⟩
  | raise error => cases h
  | call op next ih =>
      cases h with
      | call hstep hrest =>
          obtain ⟨middle, first, between, second, hfirst, hsecond, rfl⟩ := ih _ hrest
          exact ⟨middle, _, between, second, .call hstep hfirst, hsecond, rfl⟩

-- What holds of every operation that the program may come to holds of those it has come to,
-- and what each of them keeps is kept.
theorem Stops.keeps {allowed : Op → Prop} {inv : σ → Prop}
    (h : Stops step program state trace state') (huses : program.uses allowed) (hinv : inv state)
    (hstep : ∀ state op reply state', step state op reply state' → allowed op → inv state →
      inv state') :
    inv state' ∧ ∀ exchange ∈ trace, allowed exchange.op := by
  induction h with
  | here => exact ⟨hinv, fun _ hmem => absurd hmem List.not_mem_nil⟩
  | call hfirst _ ih =>
      obtain ⟨hinv', hall⟩ := ih (huses.2 _) (hstep _ _ _ _ hfirst huses.1 hinv)
      refine ⟨hinv', fun exchange hmem => ?_⟩
      rcases List.mem_cons.mp hmem with rfl | hmem
      · exact huses.1
      · exact hall exchange hmem

section Record

variable (exec : σ → (op : Op) → Reply op × σ)

-- As many operations of the program as its process has time for.
def recordFor : ℕ → Program Op Reply ε α → σ → List (Exchange Op Reply) × σ
  | steps + 1, .call op next, state =>
      let (trace, state') := recordFor steps (next (exec state op).1) (exec state op).2
      (⟨op, (exec state op).1⟩ :: trace, state')
  | _, _, state => ([], state)

variable {exec} (hexec : ∀ state op, step state op (exec state op).1 (exec state op).2)
include hexec

theorem stops_recordFor (steps : ℕ) (program : Program Op Reply ε α) (state : σ) :
    Stops step program state (recordFor exec steps program state).1
      (recordFor exec steps program state).2 := by
  induction steps generalizing program state with
  | zero =>
      cases program with
      | ret | raise | call => exact .here _ _
  | succ steps ih =>
      cases program with
      | ret | raise => exact .here _ _
      | call op next => exact .call (hexec state op) (ih _ _)

theorem finishes_run (program : Program Op Reply ε α) (state : σ) :
    Finishes step program state (program.record exec state).1 (program.run exec state).1
      (program.run exec state).2 := by
  induction program generalizing state with
  | ret value => exact .ret value state
  | raise error => exact .raise error state
  | call op next ih => exact .call (hexec state op) (ih _ _)

end Record

end Program

end Library
