import ResearchAgent.Library.Program

namespace Library

variable {ι Op σ ε α β : Type} {Reply : Op → Type}

-- One operation as it happened: who performed it and what came back.
structure Event (ι Op : Type) (Reply : Op → Type) where
  thread : ι
  op : Op
  reply : Reply op

-- The shared state with everything that has happened to it, newest first.
structure World (ι Op : Type) (Reply : Op → Type) (σ : Type) where
  state : σ
  trace : List (Event ι Op Reply)

namespace World

def after (world : World ι Op Reply σ) (event : Event ι Op Reply) (state : σ) :
    World ι Op Reply σ :=
  ⟨state, event :: world.trace⟩

@[simp] theorem after_state (world : World ι Op Reply σ) (event : Event ι Op Reply) (state : σ) :
    (world.after event state).state = state := rfl

@[simp] theorem after_trace (world : World ι Op Reply σ) (event : Event ι Op Reply) (state : σ) :
    (world.after event state).trace = event :: world.trace := rfl

end World

-- Every thread runs its program one operation at a time. A thread that is not
-- scheduled again has stopped for good, so no separate step is needed for that.
structure Pool (ι Op : Type) (Reply : Op → Type) (σ ε α : Type) where
  world : World ι Op Reply σ
  threads : ι → Program Op Reply ε α

section Steps

variable [DecidableEq ι]

-- `exec` says what an operation may do and `environment` what happens without
-- any thread, such as the passing of time.
inductive Step (exec : ι → σ → (op : Op) → Reply op → σ → Prop) (environment : σ → σ → Prop)
    (pool : Pool ι Op Reply σ ε α) :
    Option (Event ι Op Reply) → Pool ι Op Reply σ ε α → Prop
  | call {thread : ι} {op : Op} {next : Reply op → Program Op Reply ε α} {reply : Reply op}
      {state : σ} (hthread : pool.threads thread = .call op next)
      (hexec : exec thread pool.world.state op reply state) :
      Step exec environment pool (some ⟨thread, op, reply⟩)
        ⟨pool.world.after ⟨thread, op, reply⟩ state,
          Function.update pool.threads thread (next reply)⟩
  | environment {state : σ} (henv : environment pool.world.state state) :
      Step exec environment pool none ⟨⟨state, pool.world.trace⟩, pool.threads⟩

-- A run all of whose steps meet `allowed`.
inductive Run (exec : ι → σ → (op : Op) → Reply op → σ → Prop) (environment : σ → σ → Prop)
    (allowed : Pool ι Op Reply σ ε α → Option (Event ι Op Reply) → Prop)
    (start : Pool ι Op Reply σ ε α) : Pool ι Op Reply σ ε α → Prop
  | start : Run exec environment allowed start start
  | step {pool event pool'} (hrun : Run exec environment allowed start pool)
      (hstep : Step exec environment pool event pool') (hallowed : allowed pool event) :
      Run exec environment allowed start pool'

def Unrestricted : Pool ι Op Reply σ ε α → Option (Event ι Op Reply) → Prop := fun _ _ => True

variable {exec : ι → σ → (op : Op) → Reply op → σ → Prop} {environment : σ → σ → Prop}
  {allowed : Pool ι Op Reply σ ε α → Option (Event ι Op Reply) → Prop}
  {start pool pool' : Pool ι Op Reply σ ε α} {event : Option (Event ι Op Reply)}

theorem Run.invariant (inv : Pool ι Op Reply σ ε α → Prop)
    (hrun : Run exec environment allowed start pool) (hstart : inv start)
    (hstep : ∀ {a event b}, inv a → Step exec environment a event b → allowed a event → inv b) :
    inv pool := by
  induction hrun with
  | start => exact hstart
  | step _ hs ha ih => exact hstep ih hs ha

-- What holds in every reachable state may be assumed of every step.
theorem Run.with_invariant {inv : Pool ι Op Reply σ ε α → Prop}
    (hrun : Run exec environment allowed start pool)
    (hinv : ∀ a, Run exec environment allowed start a → inv a) :
    Run exec environment (fun a event => allowed a event ∧ inv a) start pool := by
  induction hrun with
  | start => exact .start
  | step hr hs ha ih => exact .step ih hs ⟨ha, hinv _ hr⟩

theorem Run.mono {allowed' : Pool ι Op Reply σ ε α → Option (Event ι Op Reply) → Prop}
    {environment' : σ → σ → Prop} (hrun : Run exec environment allowed start pool)
    (hallowed : ∀ a event, allowed a event → allowed' a event)
    (henv : ∀ state state', environment state state' → environment' state state') :
    Run exec environment' allowed' start pool := by
  induction hrun with
  | start => exact .start
  | step _ hs ha ih =>
      refine .step ih ?_ (hallowed _ _ ha)
      cases hs with
      | call hthread hexec => exact .call hthread hexec
      | environment he => exact .environment (henv _ _ he)

end Steps

-- Runs that can be computed. A move names the thread that goes next and the
-- outcome its operation has.
section Schedule

variable [DecidableEq ι] {φ : Type} (perform : φ → ι → σ → (op : Op) → Reply op × σ)

def Pool.advance (pool : Pool ι Op Reply σ ε α) (move : ι × φ) : Pool ι Op Reply σ ε α :=
  match pool.threads move.1 with
  | .call op next =>
      let (reply, state) := perform move.2 move.1 pool.world.state op
      ⟨pool.world.after ⟨move.1, op, reply⟩ state,
        Function.update pool.threads move.1 (next reply)⟩
  | .ret _ | .raise _ => pool

def Pool.schedule (pool : Pool ι Op Reply σ ε α) (moves : List (ι × φ)) : Pool ι Op Reply σ ε α :=
  moves.foldl (Pool.advance perform) pool

-- The operation the move comes to, unless its thread has stopped.
def Pool.event (pool : Pool ι Op Reply σ ε α) (move : ι × φ) : Option (Event ι Op Reply) :=
  match pool.threads move.1 with
  | .call op _ => some ⟨move.1, op, (perform move.2 move.1 pool.world.state op).1⟩
  | .ret _ | .raise _ => none

-- Every operation the moves come to is one that `allowed` admits.
def Pool.respects (allowed : Pool ι Op Reply σ ε α → Option (Event ι Op Reply) → Prop)
    (pool : Pool ι Op Reply σ ε α) : List (ι × φ) → Prop
  | [] => True
  | move :: rest =>
      (∀ event ∈ pool.event perform move, allowed pool (some event)) ∧
        Pool.respects allowed (pool.advance perform move) rest

variable {perform} {exec : ι → σ → (op : Op) → Reply op → σ → Prop} {environment : σ → σ → Prop}
  {allowed : Pool ι Op Reply σ ε α → Option (Event ι Op Reply) → Prop}
  {start pool : Pool ι Op Reply σ ε α}

instance decidableRespects [∀ pool event, Decidable (allowed pool event)]
    (pool : Pool ι Op Reply σ ε α) :
    (moves : List (ι × φ)) → Decidable (pool.respects perform allowed moves)
  | [] => .isTrue trivial
  | move :: rest =>
      have := decidableRespects (pool.advance perform move) rest
      inferInstanceAs (Decidable (_ ∧ _))

theorem respects_unrestricted (pool : Pool ι Op Reply σ ε α) (moves : List (ι × φ)) :
    pool.respects perform Unrestricted moves := by
  induction moves generalizing pool with
  | nil => trivial
  | cons move rest ih => exact ⟨fun _ _ => trivial, ih _⟩

theorem Pool.respects_mono {allowed' : Pool ι Op Reply σ ε α → Option (Event ι Op Reply) → Prop}
    (himp : ∀ pool event, allowed pool event → allowed' pool event) {moves : List (ι × φ)}
    (h : pool.respects perform allowed moves) : pool.respects perform allowed' moves := by
  induction moves generalizing pool with
  | nil => trivial
  | cons move rest ih => exact ⟨fun event hevent => himp _ _ (h.1 event hevent), ih h.2⟩

theorem Step.advance
    (hexec : ∀ outcome thread state op, exec thread state op
      (perform outcome thread state op).1 (perform outcome thread state op).2)
    {move : ι × φ} {event : Event ι Op Reply} (h : pool.event perform move = some event) :
    Step exec environment pool (some event) (pool.advance perform move) := by
  unfold Pool.event at h
  unfold Pool.advance
  split at h
  · next op next hthread =>
      cases h
      exact .call hthread (hexec move.2 move.1 pool.world.state op)
  · cases h
  · cases h

omit [DecidableEq ι] in
theorem Pool.thread_of_event {move : ι × φ} {event : Event ι Op Reply}
    (h : pool.event perform move = some event) : event.thread = move.1 := by
  unfold Pool.event at h
  split at h <;> cases h
  rfl

theorem Pool.advance_of_event_none {move : ι × φ} (h : pool.event perform move = none) :
    pool.advance perform move = pool := by
  unfold Pool.event at h
  unfold Pool.advance
  split at h
  · cases h
  · rfl
  · rfl

theorem Run.schedule
    (hexec : ∀ outcome thread state op, exec thread state op
      (perform outcome thread state op).1 (perform outcome thread state op).2)
    (hrun : Run exec environment allowed start pool) (moves : List (ι × φ))
    (hrespects : pool.respects perform allowed moves) :
    Run exec environment allowed start (pool.schedule perform moves) := by
  induction moves generalizing pool with
  | nil => exact hrun
  | cons move rest ih =>
      obtain ⟨hmove, hrest⟩ := hrespects
      refine ih ?_ hrest
      cases hevent : pool.event perform move with
      | none => rwa [Pool.advance_of_event_none hevent]
      | some event => exact .step hrun (.advance hexec hevent) (hmove event hevent)

end Schedule

section RelyGuarantee

-- `inv` holds of the shared world between any two operations. `rely thread`
-- bounds what the others and the environment may do behind the thread's back.
-- `assumes` is the condition under which runs are considered at all.
structure Discipline (ι Op : Type) (Reply : Op → Type) (σ : Type) where
  exec : ι → σ → (op : Op) → Reply op → σ → Prop
  assumes : World ι Op Reply σ → Event ι Op Reply → Prop
  inv : World ι Op Reply σ → Prop
  rely : ι → World ι Op Reply σ → World ι Op Reply σ → Prop
  rely_refl : ∀ thread world, rely thread world world
  rely_trans : ∀ thread {a b c}, rely thread a b → rely thread b c → rely thread a c

namespace Discipline

variable (d : Discipline ι Op Reply σ)

-- The event is a step the discipline considers.
def Happens (world : World ι Op Reply σ) (event : Event ι Op Reply) (state : σ) : Prop :=
  d.exec event.thread world.state event.op event.reply state ∧ d.assumes world event

-- From `world` on, whatever the others do within the rely, the thread keeps the
-- invariant, stays within everyone else's rely, and ends in `post`.
def wp (thread : ι) (post : Except ε α → World ι Op Reply σ → Prop) :
    Program Op Reply ε α → World ι Op Reply σ → Prop
  | .ret value, world => ∀ w, d.rely thread world w → d.inv w → post (.ok value) w
  | .raise error, world => ∀ w, d.rely thread world w → d.inv w → post (.error error) w
  | .call op next, world => ∀ w, d.rely thread world w → d.inv w →
      ∀ reply state, d.Happens w ⟨thread, op, reply⟩ state →
        d.inv (w.after ⟨thread, op, reply⟩ state) ∧
        (∀ other, other ≠ thread → d.rely other w (w.after ⟨thread, op, reply⟩ state)) ∧
        wp thread post (next reply) (w.after ⟨thread, op, reply⟩ state)

variable {d} {thread : ι} {post post' : Except ε α → World ι Op Reply σ → Prop}
  {program : Program Op Reply ε α} {world world' : World ι Op Reply σ}

theorem wp_stable (hrely : d.rely thread world world') (h : d.wp thread post program world) :
    d.wp thread post program world' := by
  cases program with
  | ret value => exact fun w hw hi => h w (d.rely_trans thread hrely hw) hi
  | raise error => exact fun w hw hi => h w (d.rely_trans thread hrely hw) hi
  | call op next => exact fun w hw hi => h w (d.rely_trans thread hrely hw) hi

theorem wp_mono (himp : ∀ result w, post result w → post' result w)
    (h : d.wp thread post program world) : d.wp thread post' program world := by
  induction program generalizing world with
  | ret value => exact fun w hw hi => himp _ _ (h w hw hi)
  | raise error => exact fun w hw hi => himp _ _ (h w hw hi)
  | call op next ih =>
      intro w hw hi reply state hexec
      obtain ⟨hinv, hothers, hnext⟩ := h w hw hi reply state hexec
      exact ⟨hinv, hothers, ih reply hnext⟩

theorem wp_of_later
    (h : ∀ w, d.rely thread world w → d.inv w → d.wp thread post program w) :
    d.wp thread post program world := by
  cases program with
  | ret value => exact fun w hw hi => h w hw hi w (d.rely_refl thread w) hi
  | raise error => exact fun w hw hi => h w hw hi w (d.rely_refl thread w) hi
  | call op next => exact fun w hw hi => h w hw hi w (d.rely_refl thread w) hi

-- The postcondition of the first part is the precondition of the second.
theorem wp_bind {post : Except ε β → World ι Op Reply σ → Prop} {f : α → Program Op Reply ε β}
    (h : d.wp thread (fun result w => match result with
      | .ok value => d.wp thread post (f value) w
      | .error error => post (.error error) w) program world) :
    d.wp thread post (program >>= f) world := by
  induction program generalizing world with
  | ret value => exact wp_of_later h
  | raise error => exact h
  | call op next ih =>
      intro w hw hi reply state hexec
      obtain ⟨hinv, hothers, hnext⟩ := h w hw hi reply state hexec
      exact ⟨hinv, hothers, ih reply hnext⟩

theorem wp_attempt {handler : ε → Program Op Reply ε α}
    (h : d.wp thread (fun result w => match result with
      | .ok value => post (.ok value) w
      | .error error => d.wp thread post (handler error) w) program world) :
    d.wp thread post (program.attempt handler) world := by
  induction program generalizing world with
  | ret value => exact h
  | raise error => exact wp_of_later h
  | call op next ih =>
      intro w hw hi reply state hexec
      obtain ⟨hinv, hothers, hnext⟩ := h w hw hi reply state hexec
      exact ⟨hinv, hothers, ih reply hnext⟩

-- A program all of whose operations keep `keep` ends with it, whatever they reply.
theorem wp_of_uses {allowed : Op → Prop} {keep : World ι Op Reply σ → Prop}
    (hrely : ∀ {w w'}, d.rely thread w w' → keep w → keep w')
    (hstep : ∀ {w op reply state}, allowed op → d.inv w → keep w →
      d.Happens w ⟨thread, op, reply⟩ state →
        d.inv (w.after ⟨thread, op, reply⟩ state) ∧
        (∀ other, other ≠ thread → d.rely other w (w.after ⟨thread, op, reply⟩ state)) ∧
        keep (w.after ⟨thread, op, reply⟩ state))
    (huses : program.uses allowed) (hkeep : keep world) :
    d.wp thread (fun _ => keep) program world := by
  induction program generalizing world with
  | ret value => exact fun w hw _ => hrely hw hkeep
  | raise error => exact fun w hw _ => hrely hw hkeep
  | call op next ih =>
      intro w hw hi reply state hexec
      obtain ⟨hinv, hothers, hnext⟩ := hstep huses.1 hi (hrely hw hkeep) hexec
      exact ⟨hinv, hothers, ih reply (huses.2 reply) hnext⟩

-- What neither the others nor any operation takes away stays.
theorem wp_frame {keep : World ι Op Reply σ → Prop}
    (hrely : ∀ {w w'}, d.rely thread w w' → keep w → keep w')
    (hstep : ∀ {w event state}, keep w → keep (w.after event state)) (hkeep : keep world)
    (h : d.wp thread post program world) :
    d.wp thread (fun result w => post result w ∧ keep w) program world := by
  induction program generalizing world with
  | ret value => exact fun w hw hi => ⟨h w hw hi, hrely hw hkeep⟩
  | raise error => exact fun w hw hi => ⟨h w hw hi, hrely hw hkeep⟩
  | call op next ih =>
      intro w hw hi reply state hexec
      obtain ⟨hinv, hothers, hnext⟩ := h w hw hi reply state hexec
      exact ⟨hinv, hothers, ih reply (hstep (hrely hw hkeep)) hnext⟩

variable [DecidableEq ι]

-- The invariant holds throughout every run, and every thread still meets its
-- specification from where it stands.
theorem sound (d : Discipline ι Op Reply σ) {environment : σ → σ → Prop}
    {allowed : Pool ι Op Reply σ ε α → Option (Event ι Op Reply) → Prop}
    {start pool : Pool ι Op Reply σ ε α}
    (post : ι → Except ε α → World ι Op Reply σ → Prop)
    (hinv : d.inv start.world)
    (hthreads : ∀ thread, d.wp thread (post thread) (start.threads thread) start.world)
    (henv : ∀ {w : World ι Op Reply σ} {state}, d.inv w → environment w.state state →
      d.inv ⟨state, w.trace⟩ ∧ ∀ thread, d.rely thread w ⟨state, w.trace⟩)
    (hassumes : ∀ {a event}, allowed a (some event) → d.assumes a.world event)
    (hrun : Run d.exec environment allowed start pool) :
    d.inv pool.world ∧ ∀ thread, d.wp thread (post thread) (pool.threads thread) pool.world := by
  refine Run.invariant (fun a => d.inv a.world ∧
    ∀ thread, d.wp thread (post thread) (a.threads thread) a.world) hrun ⟨hinv, hthreads⟩ ?_
  rintro a event b ⟨hi, ht⟩ hstep hallowed
  cases hstep with
  | @call thread op next reply state hthread hexec =>
      have hwp := ht thread
      rw [hthread] at hwp
      obtain ⟨hinv', hothers, hnext⟩ := hwp a.world (d.rely_refl thread a.world) hi reply state
        ⟨hexec, hassumes hallowed⟩
      refine ⟨hinv', fun other => ?_⟩
      by_cases ho : other = thread
      · subst ho
        simpa only [Function.update_self] using hnext
      · simpa only [Function.update_of_ne ho] using wp_stable (hothers other ho) (ht other)
  | @environment state he =>
      obtain ⟨hinv', hrely⟩ := henv hi he
      exact ⟨hinv', fun other => wp_stable (hrely other) (ht other)⟩

end Discipline

end RelyGuarantee

section OwnEvents

variable [DecidableEq ι]

-- What the thread itself has done.
def events_of (thread : ι) (trace : List (Event ι Op Reply)) : List (Event ι Op Reply) :=
  trace.filter fun event => event.thread = thread

variable {thread : ι} {trace : List (Event ι Op Reply)} {event : Event ι Op Reply}

theorem events_of_self {op : Op} {reply : Reply op} :
    events_of thread (⟨thread, op, reply⟩ :: trace) =
      ⟨thread, op, reply⟩ :: events_of thread trace :=
  List.filter_cons_of_pos (by simp)

theorem events_of_other (h : event.thread ≠ thread) :
    events_of thread (event :: trace) = events_of thread trace :=
  List.filter_cons_of_neg (by simpa using h)

theorem mem_events_of : event ∈ events_of thread trace ↔ event ∈ trace ∧ event.thread = thread := by
  simp [events_of, List.mem_filter]

namespace Discipline

-- The others may do what they like: a thread relies on what has happened and on its
-- own events being its own, and on the invariant for everything else.
def by_events (exec : ι → σ → (op : Op) → Reply op → σ → Prop)
    (assumes : World ι Op Reply σ → Event ι Op Reply → Prop) (inv : World ι Op Reply σ → Prop) :
    Discipline ι Op Reply σ where
  exec := exec
  assumes := assumes
  inv := inv
  rely thread w w' := w.trace <:+ w'.trace ∧ events_of thread w'.trace = events_of thread w.trace
  rely_refl _ _ := ⟨List.suffix_rfl, rfl⟩
  rely_trans _ _ _ _ h h' := ⟨h.1.trans h'.1, h'.2.trans h.2⟩

variable {exec : ι → σ → (op : Op) → Reply op → σ → Prop}
  {assumes : World ι Op Reply σ → Event ι Op Reply → Prop} {inv : World ι Op Reply σ → Prop}
  {world : World ι Op Reply σ} {past : List (Event ι Op Reply)}

theorem wp_call {post : Except ε α → World ι Op Reply σ → Prop} {op : Op}
    {next : Reply op → Program Op Reply ε α} (hpast : events_of thread world.trace = past)
    (h : ∀ (w : World ι Op Reply σ) reply state, world.trace <:+ w.trace →
      events_of thread w.trace = past → inv w → exec thread w.state op reply state →
      assumes w ⟨thread, op, reply⟩ →
        inv (w.after ⟨thread, op, reply⟩ state) ∧
        (events_of thread (w.after ⟨thread, op, reply⟩ state).trace =
            ⟨thread, op, reply⟩ :: past →
          (by_events exec assumes inv).wp thread post (next reply)
            (w.after ⟨thread, op, reply⟩ state))) :
    (by_events exec assumes inv).wp thread post (.call op next) world := by
  intro w hw hinv reply state hstep
  have hown : events_of thread w.trace = past := hw.2.trans hpast
  obtain ⟨hinv', hnext⟩ := h w reply state hw.1 hown hinv hstep.1 hstep.2
  refine ⟨hinv', fun other ho => ⟨List.suffix_cons _ _, events_of_other (Ne.symm ho)⟩, hnext ?_⟩
  exact events_of_self.trans (congrArg _ hown)

theorem wp_ret {post : List (Event ι Op Reply) → Except ε α → Prop} {value : α}
    (hpast : events_of thread world.trace = past) (h : post past (.ok value)) :
    (by_events exec assumes inv).wp thread
      (fun result w => post (events_of thread w.trace) result) (.ret value) world := by
  intro w hw _
  rwa [hw.2, hpast]

theorem wp_raise {post : List (Event ι Op Reply) → Except ε α → Prop} {error : ε}
    (hpast : events_of thread world.trace = past) (h : post past (.error error)) :
    (by_events exec assumes inv).wp thread
      (fun result w => post (events_of thread w.trace) result) (.raise error) world := by
  intro w hw _
  rwa [hw.2, hpast]

end Discipline

end OwnEvents

end Library
