import Mathlib.Logic.Relation
import ResearchAgent.Library.Interleaving

namespace Library

variable {ι Op σ τ ε α : Type} {Reply : Op → Type}

-- Two pools over different states: the same threads, at the same point, and related states.
structure Alike (rel : σ → τ → Prop) (pool : Pool ι Op Reply σ ε α)
    (pool' : Pool ι Op Reply τ ε α) : Prop where
  threads : pool'.threads = pool.threads
  trace : pool'.world.trace = pool.world.trace
  state : rel pool.world.state pool'.world.state

variable [DecidableEq ι] {rel : σ → τ → Prop}
  {exec : ι → σ → (op : Op) → Reply op → σ → Prop} {environment : σ → σ → Prop}
  {exec' : ι → τ → (op : Op) → Reply op → τ → Prop} {environment' : τ → τ → Prop}
  {allowed : Pool ι Op Reply τ ε α → Option (Event ι Op Reply) → Prop}
  {start pool : Pool ι Op Reply σ ε α} {start' pool' : Pool ι Op Reply τ ε α}

-- Many steps without any thread.
theorem Run.elapse (hrun : Run exec environment Unrestricted start pool) {state : σ}
    (henv : Relation.ReflTransGen environment pool.world.state state) :
    Run exec environment Unrestricted start ⟨⟨state, pool.world.trace⟩, pool.threads⟩ := by
  induction henv with
  | refl => exact hrun
  | tail _ hstep ih => exact .step ih (.environment hstep) trivial

-- Every run over the one kind of state is a run over the other: a thread is told the same, and
-- what happens without any thread may take many steps there.
theorem Run.refines
    (hexec : ∀ thread s t op reply t', rel s t → exec' thread t op reply t' →
      (∃ pool, allowed pool (some ⟨thread, op, reply⟩)) →
      ∃ s', exec thread s op reply s' ∧ rel s' t')
    (henv : ∀ s t t', rel s t → environment' t t' →
      ∃ s', Relation.ReflTransGen environment s s' ∧ rel s' t')
    (hrun : Run exec' environment' allowed start' pool') (hstart : Alike rel start start') :
    ∃ pool, Run exec environment Unrestricted start pool ∧ Alike rel pool pool' := by
  induction hrun with
  | start => exact ⟨start, .start, hstart⟩
  | @step pool' event next' _ hstep hallowed ih =>
      obtain ⟨pool, hpool, halike⟩ := ih
      cases hstep with
      | @call thread op next reply state' hthread hcall =>
          obtain ⟨state, hstate, hrel⟩ := hexec _ _ _ _ _ _ halike.state hcall ⟨pool', hallowed⟩
          rw [halike.threads] at hthread
          refine ⟨_, .step hpool (.call hthread hstate) trivial, ?_, ?_, hrel⟩
          · simp only [halike.threads]
          · simp only [World.after_trace, halike.trace]
      | environment helapse =>
          obtain ⟨state, hstate, hrel⟩ := henv _ _ _ halike.state helapse
          exact ⟨_, hpool.elapse hstate, halike.threads, halike.trace, hrel⟩

end Library
