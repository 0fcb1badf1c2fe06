import ResearchAgent.Library.Program

namespace Library.Program

variable {Op : Type} {Reply : Op → Type} {ε α β σ τ : Type}

-- Run alone on related states, one program has the same result on both, and a value that
-- it returns satisfies `post`.
def Simulates (exec : σ → (op : Op) → Reply op × σ) (exec' : τ → (op : Op) → Reply op × τ)
    (before after : σ → τ → Prop) (post : α → Prop) (program : Program Op Reply ε α) : Prop :=
  ∀ s t, before s t → (program.run exec' t).1 = (program.run exec s).1 ∧
    after (program.run exec s).2 (program.run exec' t).2 ∧
    ∀ value, (program.run exec s).1 = .ok value → post value

namespace Simulates

variable {exec : σ → (op : Op) → Reply op × σ} {exec' : τ → (op : Op) → Reply op × τ}
  {before mid after : σ → τ → Prop} {post : α → Prop} {program : Program Op Reply ε α}

theorem ret {value : α} (h : post value) (hafter : ∀ s t, before s t → after s t) :
    Simulates exec exec' before after post (.ret value : Program Op Reply ε α) := by
  intro s t hb
  refine ⟨rfl, hafter s t hb, ?_⟩
  rintro _ ⟨⟩
  exact h

theorem raise {error : ε} (hafter : ∀ s t, before s t → after s t) :
    Simulates exec exec' before after post (.raise error : Program Op Reply ε α) := by
  intro s t hb
  refine ⟨rfl, hafter s t hb, ?_⟩
  rintro _ ⟨⟩

theorem call {op : Op} {next : Reply op → Program Op Reply ε α} {given : Reply op → Prop}
    (hop : ∀ s t, before s t → (exec' t op).1 = (exec s op).1 ∧ mid (exec s op).2 (exec' t op).2 ∧
      given (exec s op).1)
    (hnext : ∀ reply, given reply → Simulates exec exec' mid after post (next reply)) :
    Simulates exec exec' before after post (.call op next) := by
  intro s t hb
  obtain ⟨hreply, hmid, hgiven⟩ := hop s t hb
  rw [run_call, run_call, hreply]
  exact hnext _ hgiven _ _ hmid

theorem bind {between : β → Prop} {first : Program Op Reply ε β}
    {rest : β → Program Op Reply ε α} (h : Simulates exec exec' before mid between first)
    (hmid : ∀ s t, mid s t → after s t)
    (hrest : ∀ value, between value → Simulates exec exec' mid after post (rest value)) :
    Simulates exec exec' before after post (first >>= rest) := by
  intro s t hb
  obtain ⟨hresult, hstate, hbetween⟩ := h s t hb
  rw [run_bind, run_bind]
  generalize first.run exec s = one at hresult hstate hbetween
  generalize first.run exec' t = two at hresult hstate
  obtain ⟨result, s'⟩ := one
  obtain ⟨result', t'⟩ := two
  cases hresult
  cases result with
  | ok value => exact hrest value (hbetween value rfl) s' t' hstate
  | error error =>
      refine ⟨rfl, hmid s' t' hstate, ?_⟩
      rintro _ ⟨⟩

theorem mono {post' : α → Prop} (h : Simulates exec exec' before mid post program)
    (hafter : ∀ s t, mid s t → after s t) (hpost : ∀ value, post value → post' value) :
    Simulates exec exec' before after post' program := by
  intro s t hb
  obtain ⟨hresult, hstate, hvalue⟩ := h s t hb
  exact ⟨hresult, hafter _ _ hstate, fun value hok => hpost value (hvalue value hok)⟩

end Simulates

end Library.Program
