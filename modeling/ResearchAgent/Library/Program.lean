import Mathlib.Logic.Function.Basic

namespace Library

-- A program over atomic operations of a shared state. Between two calls any
-- other party may act; a program stops by returning or by raising.
inductive Program (Op : Type) (Reply : Op → Type) (ε α : Type) : Type
  | ret (value : α)
  | raise (error : ε)
  | call (op : Op) (next : Reply op → Program Op Reply ε α)

namespace Program

variable {Op : Type} {Reply : Op → Type} {ε α β γ : Type}

def bind : Program Op Reply ε α → (α → Program Op Reply ε β) → Program Op Reply ε β
  | .ret value, f => f value
  | .raise error, _ => .raise error
  | .call op next, f => .call op fun reply => (next reply).bind f

-- `attempt p handler` is `try p except handler`.
def attempt : Program Op Reply ε α → (ε → Program Op Reply ε α) → Program Op Reply ε α
  | .ret value, _ => .ret value
  | .raise error, handler => handler error
  | .call op next, handler => .call op fun reply => (next reply).attempt handler

instance : Monad (Program Op Reply ε) where
  pure := .ret
  bind := bind

instance : MonadExceptOf ε (Program Op Reply ε) where
  throw := .raise
  tryCatch := attempt

@[simp] theorem pure_eq (value : α) : (pure value : Program Op Reply ε α) = .ret value := rfl

@[simp] theorem throw_eq (error : ε) :
    (throw error : Program Op Reply ε α) = .raise error := rfl

@[simp] theorem ret_bind (value : α) (f : α → Program Op Reply ε β) :
    (Program.ret value : Program Op Reply ε α) >>= f = f value := rfl

@[simp] theorem raise_bind (error : ε) (f : α → Program Op Reply ε β) :
    (Program.raise error : Program Op Reply ε α) >>= f = .raise error := rfl

@[simp] theorem call_bind (op : Op) (next : Reply op → Program Op Reply ε α)
    (f : α → Program Op Reply ε β) :
    Program.call op next >>= f = .call op fun reply => next reply >>= f := rfl

@[simp] theorem ret_attempt (value : α) (handler : ε → Program Op Reply ε α) :
    (Program.ret value).attempt handler = .ret value := rfl

@[simp] theorem raise_attempt (error : ε) (handler : ε → Program Op Reply ε α) :
    (Program.raise error).attempt handler = handler error := rfl

@[simp] theorem call_attempt (op : Op) (next : Reply op → Program Op Reply ε α)
    (handler : ε → Program Op Reply ε α) :
    (Program.call op next).attempt handler = .call op fun reply => (next reply).attempt handler :=
  rfl

@[simp] theorem tryCatch_eq (program : Program Op Reply ε α)
    (handler : ε → Program Op Reply ε α) :
    tryCatch program handler = program.attempt handler := rfl

@[simp] theorem bind_ret (program : Program Op Reply ε α) : program >>= .ret = program := by
  induction program with
  | ret | raise => rfl
  | call op next ih => simp only [call_bind, ih]

@[simp] theorem bind_assoc (program : Program Op Reply ε α) (f : α → Program Op Reply ε β)
    (g : β → Program Op Reply ε γ) :
    (program >>= f) >>= g = program >>= fun value => f value >>= g := by
  induction program with
  | ret | raise => rfl
  | call op next ih => simp only [call_bind, ih]

-- Whether the program has returned or raised, where it has stopped.
def succeeded : Program Op Reply ε α → Option Bool
  | .ret _ => some true
  | .raise _ => some false
  | .call _ _ => none

theorem ret_of_succeeded {program : Program Op Reply ε α} (h : program.succeeded = some true) :
    ∃ value, program = .ret value := by
  cases program with
  | ret value => exact ⟨value, rfl⟩
  | raise | call => cases h

theorem raise_of_failed {program : Program Op Reply ε α} (h : program.succeeded = some false) :
    ∃ error, program = .raise error := by
  cases program with
  | raise error => exact ⟨error, rfl⟩
  | ret | call => cases h

section Run

variable {σ : Type} (exec : σ → (op : Op) → Reply op × σ)

-- The program run alone: its operations follow one another with nothing between.
def run : Program Op Reply ε α → σ → Except ε α × σ
  | .ret value, state => (.ok value, state)
  | .raise error, state => (.error error, state)
  | .call op next, state => (next (exec state op).1).run (exec state op).2

@[simp] theorem run_ret (value : α) (state : σ) :
    (Program.ret value : Program Op Reply ε α).run exec state = (.ok value, state) := rfl

@[simp] theorem run_raise (error : ε) (state : σ) :
    (Program.raise error : Program Op Reply ε α).run exec state = (.error error, state) := rfl

@[simp] theorem run_call (op : Op) (next : Reply op → Program Op Reply ε α) (state : σ) :
    (Program.call op next).run exec state = (next (exec state op).1).run exec (exec state op).2 :=
  rfl

theorem run_bind (program : Program Op Reply ε α) (f : α → Program Op Reply ε β) (state : σ) :
    (program >>= f).run exec state =
      match program.run exec state with
      | (.ok value, next) => (f value).run exec next
      | (.error error, next) => (.error error, next) := by
  induction program generalizing state with
  | ret | raise => rfl
  | call op next ih => exact ih (exec state op).1 (exec state op).2

theorem run_bind_ok {program : Program Op Reply ε α} {f : α → Program Op Reply ε β}
    {state next : σ} {value : α} (h : program.run exec state = (.ok value, next)) :
    (program >>= f).run exec state = (f value).run exec next := by
  rw [run_bind, h]

theorem run_bind_ret (program : Program Op Reply ε α) (f : α → β) (state : σ) :
    (program >>= fun value => .ret (f value)).run exec state =
      ((program.run exec state).1.map f, (program.run exec state).2) := by
  rw [run_bind]
  rcases program.run exec state with ⟨error | value, next⟩ <;> rfl

theorem run_attempt (program : Program Op Reply ε α) (handler : ε → Program Op Reply ε α)
    (state : σ) :
    (program.attempt handler).run exec state =
      match program.run exec state with
      | (.ok value, next) => (.ok value, next)
      | (.error error, next) => (handler error).run exec next := by
  induction program generalizing state with
  | ret | raise => rfl
  | call op next ih => exact ih (exec state op).1 (exec state op).2

end Run

section Pairs

variable {σ : Type} (exec : σ → (op : Op) → Reply op × σ)

-- Values in the relation, or one and the same error.
inductive SameResult (same : α → β → Prop) : Except ε α → Except ε β → Prop
  | ok {a b} (h : same a b) : SameResult same (.ok a) (.ok b)
  | error (e : ε) : SameResult same (.error e) (.error e)

-- Run alone from related states, the two programs give results alike and end in
-- related states.
def Pair (before after : σ → σ → Prop) (same : α → β → Prop) (p : Program Op Reply ε α)
    (q : Program Op Reply ε β) : Prop :=
  ∀ s t, before s t → SameResult same (p.run exec s).1 (q.run exec t).1 ∧
    after (p.run exec s).2 (q.run exec t).2

variable {exec} {before mid after : σ → σ → Prop} {same : α → β → Prop}

theorem Pair.ret {a : α} {b : β} (h : same a b) :
    Pair exec before before same (.ret a : Program Op Reply ε α) (.ret b) :=
  fun _ _ hb => ⟨.ok h, hb⟩

theorem Pair.raise (e : ε) :
    Pair exec before before same (.raise e : Program Op Reply ε α) (.raise e) :=
  fun _ _ hb => ⟨.error e, hb⟩

theorem Pair.bind {γ δ : Type} {same' : γ → δ → Prop} {p : Program Op Reply ε α}
    {q : Program Op Reply ε β} {f : α → Program Op Reply ε γ} {g : β → Program Op Reply ε δ}
    (h : Pair exec before mid same p q) (hmid : ∀ s t, mid s t → after s t)
    (hnext : ∀ a b, same a b → Pair exec mid after same' (f a) (g b)) :
    Pair exec before after same' (p >>= f) (q >>= g) := by
  intro s t hb
  obtain ⟨hresult, hstate⟩ := h s t hb
  rw [run_bind, run_bind]
  generalize p.run exec s = left at hresult hstate
  generalize q.run exec t = right at hresult hstate
  obtain ⟨result, s'⟩ := left
  obtain ⟨result', t'⟩ := right
  cases hresult with
  | ok hsame => exact hnext _ _ hsame s' t' hstate
  | error e => exact ⟨.error e, hmid _ _ hstate⟩

end Pairs

-- Every operation the program may come to satisfies `allowed`.
def uses (allowed : Op → Prop) : Program Op Reply ε α → Prop
  | .ret _ => True
  | .raise _ => True
  | .call op next => allowed op ∧ ∀ reply, (next reply).uses allowed

theorem uses_bind {allowed : Op → Prop} {program : Program Op Reply ε α}
    {f : α → Program Op Reply ε β} (h : program.uses allowed)
    (hf : ∀ value, (f value).uses allowed) : (program >>= f).uses allowed := by
  induction program with
  | ret value => exact hf value
  | raise error => trivial
  | call op next ih => exact ⟨h.1, fun reply => ih reply (h.2 reply)⟩

theorem uses_attempt {allowed : Op → Prop} {program : Program Op Reply ε α}
    {handler : ε → Program Op Reply ε α} (h : program.uses allowed)
    (hhandler : ∀ error, (handler error).uses allowed) :
    (program.attempt handler).uses allowed := by
  induction program with
  | ret value => trivial
  | raise error => exact hhandler error
  | call op next ih => exact ⟨h.1, fun reply => ih reply (h.2 reply)⟩

theorem uses_mono {allowed allowed' : Op → Prop} (himp : ∀ op, allowed op → allowed' op)
    {program : Program Op Reply ε α} (h : program.uses allowed) : program.uses allowed' := by
  induction program with
  | ret | raise => trivial
  | call op next ih => exact ⟨himp op h.1, fun reply => ih reply (h.2 reply)⟩

end Program

end Library
