import Mathlib.Algebra.GroupWithZero.Nat
import ResearchAgent.Library.Traces

namespace Library

variable {Op Op' : Type} {Reply : Op → Type} {Reply' : Op' → Type} {ε ε' α : Type}

namespace Program

-- The program that raises nothing: what it would raise is its value.
def outcome : Program Op Reply ε α → Program Op Reply ε' (Except ε α)
  | .ret value => .ret (.ok value)
  | .raise error => .ret (.error error)
  | .call op next => .call op fun reply => (next reply).outcome

theorem ensures_outcome {program : Program Op Reply ε α}
    {post : List (Exchange Op Reply) → Except ε' (Except ε α) → Prop}
    (h : program.Ensures fun trace result => post trace (.ok result)) :
    program.outcome.Ensures post := by
  induction program generalizing post with
  | ret value => exact ensures_ret (h [] (.ok value) (.ret value))
  | raise error => exact ensures_ret (h [] (.error error) (.raise error))
  | call op next ih =>
      refine ensures_call fun reply => ih reply fun trace result hexec => ?_
      exact h (⟨op, reply⟩ :: trace) result (.call hexec)

-- The program with each of its operations carried out by a program over other operations.
def lowered (carry : (op : Op) → Program Op' Reply' ε (Reply op)) :
    Program Op Reply ε α → Program Op' Reply' ε α
  | .ret value => .ret value
  | .raise error => .raise error
  | .call op next => carry op >>= fun reply => (next reply).lowered carry

end Program

-- The exchanges below are those of the exchanges above, one after another, each with what
-- `carries` says of it.
inductive Carried (carries : Exchange Op Reply → List (Exchange Op' Reply') → Prop) :
    List (Exchange Op Reply) → List (Exchange Op' Reply') → Prop
  | nil : Carried carries [] []
  | cons {exchange : Exchange Op Reply} {above : List (Exchange Op Reply)}
      {first later : List (Exchange Op' Reply')} (h : carries exchange first)
      (hrest : Carried carries above later) : Carried carries (exchange :: above) (first ++ later)

namespace Carried

variable {carries : Exchange Op Reply → List (Exchange Op' Reply') → Prop}
  {above : List (Exchange Op Reply)} {below : List (Exchange Op' Reply')}

theorem part (h : Carried carries above below) :
    ∀ exchange ∈ above, ∃ first ⊆ below, carries exchange first := by
  induction h with
  | nil => intro exchange hmem; cases hmem
  | cons h _ ih =>
      intro exchange hmem
      rcases List.mem_cons.mp hmem with rfl | hmem
      · exact ⟨_, List.subset_append_left _ _, h⟩
      · obtain ⟨first, hsub, hcarries⟩ := ih exchange hmem
        exact ⟨first, List.Subset.trans hsub (List.subset_append_right _ _), hcarries⟩

-- Whatever is below comes from something above.
theorem origin (h : Carried carries above below) :
    ∀ exchange' ∈ below, ∃ exchange ∈ above, ∃ first, exchange' ∈ first ∧ first ⊆ below ∧
      carries exchange first := by
  induction h with
  | nil => intro exchange' hmem; cases hmem
  | cons h _ ih =>
      intro exchange' hmem
      rcases List.mem_append.mp hmem with hmem | hmem
      · exact ⟨_, List.mem_cons_self, _, hmem, List.subset_append_left _ _, h⟩
      · obtain ⟨exchange, habove, first, hfirst, hsub, hcarries⟩ := ih exchange' hmem
        exact ⟨exchange, List.mem_cons_of_mem _ habove, first, hfirst,
          List.Subset.trans hsub (List.subset_append_right _ _), hcarries⟩

-- What the exchanges below cost is at most what those above are allowed.
theorem countP_le (h : Carried carries above below) {counted : Exchange Op' Reply' → Bool}
    {cost : Exchange Op Reply → ℕ}
    (hcost : ∀ exchange first, carries exchange first → first.countP counted ≤ cost exchange) :
    below.countP counted ≤ (above.map cost).sum := by
  induction h with
  | nil => exact Nat.zero_le _
  | cons h _ ih =>
      rw [List.countP_append, List.map_cons, List.sum_cons]
      exact Nat.add_le_add (hcost _ _ h) ih

end Carried

-- Every execution of the lowered program is one of the program, its exchanges carried out
-- below.
theorem Program.ensures_lowered {carry : (op : Op) → Program Op' Reply' ε (Reply op)}
    {carries : Exchange Op Reply → List (Exchange Op' Reply') → Prop}
    (hcarry : ∀ op, (carry op).Ensures fun trace result =>
      ∃ reply, result = .ok reply ∧ carries ⟨op, reply⟩ trace)
    {program : Program Op Reply ε α} {post : List (Exchange Op Reply) → Except ε α → Prop}
    (h : program.Ensures post) :
    (program.lowered carry).Ensures fun below result =>
      ∃ above, post above result ∧ Carried carries above below := by
  induction program generalizing post with
  | ret value => exact ensures_ret ⟨[], h [] (.ok value) (.ret value), .nil⟩
  | raise error => exact ensures_raise ⟨[], h [] (.error error) (.raise error), .nil⟩
  | call op next ih =>
      refine ensures_bind ((hcarry op).mono ?_)
      rintro first result ⟨reply, rfl, hfirst⟩
      refine (ih reply fun trace result hexec => h _ result (.call hexec)).mono ?_
      rintro later result ⟨above, hpost, hlater⟩
      exact ⟨⟨op, reply⟩ :: above, hpost, .cons hfirst hlater⟩

end Library
