import Mathlib.Data.List.Induction
import Mathlib.Tactic.Linarith
import ResearchAgent.Research.Breaker

namespace ResearchAgent.Research

-- What an operation ends with. `except Exception` does not catch what leaves it by `exits`.
inductive OperationResult (ε α : Type) where
  | returned (result : α)
  | raised (error : ε)
  | exits (exit : ε)

inductive CallError (ε : Type) where
  | CircuitOpenError (message : String)
  | passed (error : ε)

-- One invocation of `call`, with what the clock reads where it asks and where the end of
-- the operation is recorded.
structure BreakerCall (ω ε α : Type) where
  entered : ℚ
  operation : ω → OperationResult ε α × ω
  settled : ℚ

-- How an operation that was executed has ended, and when.
inductive Ending where
  | success
  | failure
  | exit
deriving DecidableEq

structure Execution where
  ending : Ending
  settled : ℚ

section Calls

variable {ω ε α : Type}

def OperationResult.ending : OperationResult ε α → Ending
  | .returned _ => .success
  | .raised _ => .failure
  | .exits _ => .exit

-- The result or the exception as the caller gets it.
def OperationResult.passed : OperationResult ε α → Except (CallError ε) α
  | .returned result => .ok result
  | .raised error | .exits error => .error (.passed error)

namespace CircuitBreaker

def call (breaker : CircuitBreaker) (invocation : BreakerCall ω ε α) (world : ω) :
    Except (CallError ε) α × CircuitBreaker × ω :=
  match breaker.enter invocation.entered with
  | (false, breaker) => (.error (.CircuitOpenError "Provider circuit is open"), breaker, world)
  | (true, breaker) =>
      match invocation.operation world with
      | (.raised error, world) =>
          (.error (.passed error), breaker.failed invocation.settled, world)
      | (.exits error, world) => (.error (.passed error), breaker, world)
      | (.returned result, world) => (.ok result, breaker.succeeded, world)

end CircuitBreaker

-- The invocation with an operation that writes down each of its executions.
def BreakerCall.logged (invocation : BreakerCall ω ε α) :
    BreakerCall (ω × List Execution) ε α where
  entered := invocation.entered
  operation := fun (world, executed) =>
    let (outcome, world) := invocation.operation world
    (outcome, world, ⟨outcome.ending, invocation.settled⟩ :: executed)
  settled := invocation.settled

-- The invocations one after another: the breaker, the world, and the executions with the
-- newest first.
def call_all (breaker : CircuitBreaker) (world : ω) (invocations : List (BreakerCall ω ε α)) :
    CircuitBreaker × ω × List Execution :=
  invocations.foldl
    (fun (breaker, state) invocation => (breaker.call invocation.logged state).2)
    (breaker, world, [])

-- The clock does not go back within an invocation or from one to the next. One that is
-- refused does not read its second time.
def BreakerCall.InOrder : List (BreakerCall ω ε α) → Prop
  | [] => True
  | invocation :: later => invocation.entered ≤ invocation.settled ∧
      (∀ other ∈ later, invocation.settled ≤ other.entered) ∧ InOrder later

theorem BreakerCall.InOrder.append {earlier later : List (BreakerCall ω ε α)}
    (h : InOrder (earlier ++ later)) : InOrder earlier ∧ InOrder later ∧
      ∀ invocation ∈ earlier, ∀ other ∈ later, invocation.settled ≤ other.entered := by
  induction earlier with
  | nil => exact ⟨trivial, h, by simp⟩
  | cons invocation rest ih =>
      obtain ⟨hinvocation, hothers, hrest⟩ := h
      obtain ⟨hearlier, hlater, hbetween⟩ := ih hrest
      refine ⟨⟨hinvocation, ?_, hearlier⟩, hlater, ?_⟩
      · exact fun other hmem => hothers other (List.mem_append_left _ hmem)
      · intro first hfirst other hmem
        rcases List.mem_cons.mp hfirst with rfl | hfirst
        · exact hothers other (List.mem_append_right _ hmem)
        · exact hbetween first hfirst other hmem

end Calls

-- The specification, over all that has been executed.
namespace Execution

-- The threshold-th failure among those since the last success or tripping failure.
def trips (threshold : ℕ) (execution : Execution) (since : List Execution) : Bool :=
  execution.ending = .failure &&
    (since.filter fun other => other.ending = .failure).length + 1 = threshold

-- What has been executed since the last success or tripping failure.
def since (threshold : ℕ) : List Execution → List Execution
  | [] => []
  | execution :: earlier =>
      if execution.ending = .success || execution.trips threshold (since threshold earlier) then []
      else execution :: since threshold earlier

-- Some tripping failure ended less than the recovery time ago.
def Recovering (threshold recovery : ℕ) (executed : List Execution) (clock : ℚ) : Prop :=
  ∃ execution earlier, execution :: earlier <:+ executed ∧
    execution.trips threshold (since threshold earlier) = true ∧
    clock - execution.settled < recovery

variable {threshold recovery : ℕ} {execution : Execution} {earlier executed : List Execution}
  {clock later : ℚ}

-- The failures that count towards the next trip.
def pending (threshold : ℕ) (executed : List Execution) : ℕ :=
  ((since threshold executed).filter fun other => other.ending = .failure).length

theorem trips_iff : execution.trips threshold (since threshold earlier) = true ↔
    execution.ending = .failure ∧ pending threshold earlier + 1 = threshold := by
  simp [trips, pending]

theorem pending_cons : pending threshold (execution :: earlier) =
    match execution.ending with
    | .success => 0
    | .failure =>
        if pending threshold earlier + 1 = threshold then 0 else pending threshold earlier + 1
    | .exit => pending threshold earlier := by
  have htrips := @trips_iff threshold execution earlier
  rw [pending, since]
  cases hending : execution.ending with
  | success => simp
  | failure =>
      rw [hending] at htrips
      by_cases hreaches : pending threshold earlier + 1 = threshold
      · simp [hreaches, htrips.mpr ⟨rfl, hreaches⟩]
      · have hnot : execution.trips threshold (since threshold earlier) = false := by
          simpa [hreaches] using htrips
        dsimp only
        rw [if_neg hreaches]
        simp [hnot, hending, pending]
  | exit =>
      have hnot : execution.trips threshold (since threshold earlier) = false := by
        simpa [hending] using htrips
      simp [hnot, hending, pending]

theorem Recovering.of_later (h : Recovering threshold recovery executed later)
    (hle : clock ≤ later) : Recovering threshold recovery executed clock := by
  obtain ⟨execution, before, hsuffix, htrips, hwithin⟩ := h
  exact ⟨execution, before, hsuffix, htrips, by linarith⟩

theorem recovering_cons : Recovering threshold recovery (execution :: earlier) clock ↔
    (execution.ending = .failure ∧ pending threshold earlier + 1 = threshold ∧
      clock - execution.settled < recovery) ∨ Recovering threshold recovery earlier clock := by
  constructor
  · rintro ⟨trip, before, hsuffix, htrips, hwithin⟩
    rcases List.suffix_cons_iff.mp hsuffix with heq | hsuffix
    · cases heq
      obtain ⟨hending, hpending⟩ := trips_iff.mp htrips
      exact .inl ⟨hending, hpending, hwithin⟩
    · exact .inr ⟨trip, before, hsuffix, htrips, hwithin⟩
  · rintro (⟨hending, hpending, hwithin⟩ | ⟨trip, before, hsuffix, htrips, hwithin⟩)
    · exact ⟨execution, earlier, List.suffix_refl _, trips_iff.mpr ⟨hending, hpending⟩, hwithin⟩
    · exact ⟨trip, before, hsuffix.trans (List.suffix_cons ..), htrips, hwithin⟩

end Execution

namespace CircuitBreaker

open Execution

variable {threshold recovery : ℕ} {breaker : CircuitBreaker} {executed : List Execution}
  {clock now : ℚ}

-- The two fields agree with all that has been executed, for every later time.
structure Agrees (threshold recovery : ℕ) (executed : List Execution) (now : ℚ)
    (breaker : CircuitBreaker) : Prop where
  failure_threshold : breaker.failure_threshold = threshold
  recovery_seconds : breaker.recovery_seconds = recovery
  below : breaker.pending < threshold
  pending : breaker.pending = Execution.pending threshold executed
  recovering : ∀ clock, now ≤ clock → (Recovering threshold recovery executed clock ↔
    ∃ opened_at, breaker.state.opened_at = some opened_at ∧ clock - opened_at < recovery)

-- The circuit refuses while it recovers; otherwise it is closed, with what is pending.
theorem enter_cases (breaker : CircuitBreaker) (clock : ℚ) :
    ((∃ opened_at, breaker.state.opened_at = some opened_at ∧
        clock - opened_at < breaker.recovery_seconds) ∧
      breaker.enter clock = (false, breaker)) ∨
    ((¬∃ opened_at, breaker.state.opened_at = some opened_at ∧
        clock - opened_at < breaker.recovery_seconds) ∧
      breaker.enter clock = (true, { breaker with state := ⟨breaker.pending, none⟩ })) := by
  rcases breaker with ⟨threshold, recovery, failures, _ | opened_at⟩
  · exact .inr ⟨by simp, rfl⟩
  · by_cases hlt : clock - opened_at < recovery
    · exact .inl ⟨⟨opened_at, rfl, hlt⟩, if_pos hlt⟩
    · refine .inr ⟨?_, if_neg hlt⟩
      rintro ⟨other, hopened, hwithin⟩
      cases hopened
      exact hlt hwithin

theorem Agrees.start (hthreshold : 1 ≤ threshold) (now : ℚ) :
    Agrees threshold recovery [] now ⟨threshold, recovery, {}⟩ where
  failure_threshold := rfl
  recovery_seconds := rfl
  below := hthreshold
  pending := rfl
  recovering := by
    intro clock _
    refine iff_of_false ?_ (by simp)
    rintro ⟨execution, before, hsuffix, -⟩
    cases List.suffix_nil.mp hsuffix

theorem Agrees.later (h : Agrees threshold recovery executed now breaker) (hle : now ≤ clock) :
    Agrees threshold recovery executed clock breaker :=
  { h with recovering := fun other hother => h.recovering other (hle.trans hother) }

section Admitted

-- What is known where a call has been admitted.
variable (h : Agrees threshold recovery executed now breaker)
  (hnot : ¬Recovering threshold recovery executed now)
  {execution : Execution} (hsettled : now ≤ execution.settled)

include h hnot hsettled

theorem Agrees.failed (hending : execution.ending = .failure) :
    Agrees threshold recovery (execution :: executed) execution.settled
      (CircuitBreaker.failed { breaker with state := ⟨breaker.pending, none⟩ }
        execution.settled) := by
  have hbelow := h.below
  have hpending := h.pending
  have hold : ∀ clock, execution.settled ≤ clock →
      ¬Recovering threshold recovery executed clock :=
    fun clock hle hlater => hnot (hlater.of_later (hsettled.trans hle))
  by_cases hreaches : breaker.pending + 1 = threshold
  -- The circuit opens at the time of the tripping failure.
  · have hfailed : CircuitBreaker.failed { breaker with state := ⟨breaker.pending, none⟩ }
        execution.settled =
        { breaker with state := ⟨breaker.pending + 1, some execution.settled⟩ } := by
      simp only [CircuitBreaker.failed, h.failure_threshold]
      rw [if_pos (by omega)]
    rw [hfailed]
    refine ⟨h.failure_threshold, h.recovery_seconds, ?_, ?_, fun clock hle => ?_⟩
    · simp only [CircuitBreaker.pending]
      omega
    · rw [pending_cons, hending]
      exact (if_pos (by omega)).symm
    · rw [recovering_cons, or_iff_left (hold clock hle)]
      constructor
      · rintro ⟨-, -, hwithin⟩
        exact ⟨execution.settled, rfl, hwithin⟩
      · rintro ⟨opened_at, hopened, hwithin⟩
        cases hopened
        exact ⟨hending, by omega, hwithin⟩
  · have hfailed : CircuitBreaker.failed { breaker with state := ⟨breaker.pending, none⟩ }
        execution.settled = { breaker with state := ⟨breaker.pending + 1, none⟩ } := by
      simp only [CircuitBreaker.failed, h.failure_threshold]
      rw [if_neg (by omega)]
    rw [hfailed]
    refine ⟨h.failure_threshold, h.recovery_seconds, ?_, ?_, fun clock hle => ?_⟩
    · simp only [CircuitBreaker.pending] at hbelow hreaches ⊢
      omega
    · rw [pending_cons, hending]
      dsimp only
      rw [if_neg (by omega), ← hpending]
      rfl
    · rw [recovering_cons, or_iff_left (hold clock hle)]
      refine iff_of_false ?_ (by simp)
      rintro ⟨-, hsum, -⟩
      omega

theorem Agrees.succeeded (hthreshold : 1 ≤ threshold) (hending : execution.ending = .success) :
    Agrees threshold recovery (execution :: executed) execution.settled
      (CircuitBreaker.succeeded { breaker with state := ⟨breaker.pending, none⟩ }) := by
  refine ⟨h.failure_threshold, h.recovery_seconds, hthreshold, ?_, fun clock hle => ?_⟩
  · rw [pending_cons, hending]
    rfl
  · rw [recovering_cons, hending]
    refine iff_of_false ?_ (by simp [CircuitBreaker.succeeded])
    rintro (⟨hfailure, -⟩ | hold)
    · cases hfailure
    · exact hnot (hold.of_later (hsettled.trans hle))

theorem Agrees.exited (hending : execution.ending = .exit) :
    Agrees threshold recovery (execution :: executed) execution.settled
      { breaker with state := ⟨breaker.pending, none⟩ } := by
  refine ⟨h.failure_threshold, h.recovery_seconds, h.below, ?_, fun clock hle => ?_⟩
  · rw [pending_cons, hending]
    exact h.pending
  · rw [recovering_cons, hending]
    refine iff_of_false ?_ (by simp)
    rintro (⟨hfailure, -⟩ | hold)
    · cases hfailure
    · exact hnot (hold.of_later (hsettled.trans hle))

end Admitted

section Runs

variable {ω ε α : Type} {invocation : BreakerCall ω ε α}

-- One invocation, refused or executed.
theorem Agrees.call (h : Agrees threshold recovery executed now breaker)
    (hthreshold : 1 ≤ threshold) (hentered : now ≤ invocation.entered)
    (hsettled : invocation.entered ≤ invocation.settled) (world : ω) :
    (Recovering threshold recovery executed invocation.entered ∧
      breaker.call invocation.logged (world, executed) =
        (.error (.CircuitOpenError "Provider circuit is open"), breaker, world, executed)) ∨
    (¬Recovering threshold recovery executed invocation.entered ∧
      ∃ after, breaker.call invocation.logged (world, executed) =
          ((invocation.operation world).1.passed, after, (invocation.operation world).2,
            ⟨(invocation.operation world).1.ending, invocation.settled⟩ :: executed) ∧
        Agrees threshold recovery
          (⟨(invocation.operation world).1.ending, invocation.settled⟩ :: executed)
          invocation.settled after) := by
  have hrecovering := h.recovering invocation.entered hentered
  have hnow := h.later hentered
  rcases enter_cases breaker invocation.entered with ⟨hopen, henter⟩ | ⟨hclosed, henter⟩
  · rw [h.recovery_seconds] at hopen
    refine .inl ⟨hrecovering.mpr hopen, ?_⟩
    simp only [CircuitBreaker.call, BreakerCall.logged, henter]
  · rw [h.recovery_seconds, ← hrecovering] at hclosed
    refine .inr ⟨hclosed, ?_⟩
    cases houtcome : (invocation.operation world).1 with
    | returned result =>
        refine ⟨_, ?_, hnow.succeeded hclosed hsettled hthreshold rfl⟩
        simp only [CircuitBreaker.call, BreakerCall.logged, henter, houtcome]
        rfl
    | raised error =>
        refine ⟨_, ?_, hnow.failed hclosed hsettled rfl⟩
        simp only [CircuitBreaker.call, BreakerCall.logged, henter, houtcome]
        rfl
    | exits error =>
        refine ⟨_, ?_, hnow.exited hclosed hsettled rfl⟩
        simp only [CircuitBreaker.call, BreakerCall.logged, henter, houtcome]
        rfl

theorem call_all_concat (earlier : List (BreakerCall ω ε α)) :
    call_all breaker world (earlier ++ [invocation]) =
      ((call_all breaker world earlier).1.call invocation.logged
        (call_all breaker world earlier).2).2 := by
  simp [call_all]

-- The run agrees with what it has executed, at any time from its last reading on.
theorem Agrees.call_all (hthreshold : 1 ≤ threshold) (world : ω)
    {earlier : List (BreakerCall ω ε α)} (horder : BreakerCall.InOrder earlier)
    (hlast : ∀ invocation ∈ earlier, invocation.settled ≤ now) :
    Agrees threshold recovery (call_all ⟨threshold, recovery, {}⟩ world earlier).2.2 now
      (call_all ⟨threshold, recovery, {}⟩ world earlier).1 := by
  induction earlier using List.reverseRecOn generalizing now with
  | nil => exact .start hthreshold now
  | append_singleton earlier invocation ih =>
      obtain ⟨hearlier, ⟨hinvocation, -⟩, hbefore⟩ := horder.append
      have hagrees := ih hearlier fun other hmem => hbefore other hmem invocation (by simp)
      have hsettled := hlast invocation (by simp)
      rw [call_all_concat]
      rcases hagrees.call hthreshold le_rfl hinvocation
          (Research.call_all ⟨threshold, recovery, {}⟩ world earlier).2.1 with
        ⟨-, hcall⟩ | ⟨-, after, hcall, hnext⟩
      · rw [hcall]
        exact hagrees.later (hinvocation.trans hsettled)
      · rw [hcall]
        exact hnext.later hsettled

end Runs

end CircuitBreaker

open CircuitBreaker Execution

-- An invocation is refused exactly while it recovers from a tripping failure, without
-- its operation; otherwise the operation is executed once and its end passed on.
theorem sequential_calls_specified {ω ε α : Type} (threshold recovery : ℕ)
    (hthreshold : 1 ≤ threshold) (world : ω) (earlier later : List (BreakerCall ω ε α))
    (invocation : BreakerCall ω ε α)
    (h : BreakerCall.InOrder (earlier ++ invocation :: later)) :
    let before := call_all ⟨threshold, recovery, {}⟩ world earlier
    let after := before.1.call invocation.logged before.2
    (Recovering threshold recovery before.2.2 invocation.entered →
      after.1 = .error (.CircuitOpenError "Provider circuit is open") ∧
        after.2.2 = before.2) ∧
    (¬Recovering threshold recovery before.2.2 invocation.entered →
      after.1 = (invocation.operation before.2.1).1.passed ∧
        after.2.2 = ((invocation.operation before.2.1).2,
          ⟨(invocation.operation before.2.1).1.ending, invocation.settled⟩ :: before.2.2)) := by
  intro before after
  obtain ⟨hearlier, ⟨hinvocation, -⟩, hbefore⟩ := h.append
  have hagrees : Agrees threshold recovery before.2.2 invocation.entered before.1 :=
    .call_all hthreshold world hearlier fun other hmem => hbefore other hmem invocation (by simp)
  rcases hagrees.call hthreshold le_rfl hinvocation before.2.1 with
    ⟨hrecovering, hcall⟩ | ⟨hnot, _, hcall, -⟩
  · refine ⟨fun _ => ?_, fun hnot => absurd hrecovering hnot⟩
    have hafter : after = _ := hcall
    rw [hafter]
    exact ⟨rfl, rfl⟩
  · refine ⟨fun hrecovering => absurd hrecovering hnot, fun _ => ?_⟩
    have hafter : after = _ := hcall
    rw [hafter]
    exact ⟨rfl, rfl⟩

-- An operation that counts its executions and fails.
def failing (entered settled : ℚ) : BreakerCall ℕ Unit Unit :=
  ⟨entered, fun executed => (.raised (), executed + 1), settled⟩

theorem sequential_calls_specified_failing :
    let before := call_all ⟨1, 60, {}⟩ 0 [failing 0 1]
    let after := before.1.call (failing 3 4).logged before.2
    after.1 = .error (.CircuitOpenError "Provider circuit is open") ∧ after.2.2 = before.2 := by
  have horder : BreakerCall.InOrder ([failing 0 1] ++ failing 3 4 :: []) := by
    simp only [failing, BreakerCall.InOrder, List.cons_append, List.nil_append, List.mem_singleton]
    norm_num
  apply (sequential_calls_specified 1 60 le_rfl 0 [failing 0 1] [] (failing 3 4) horder).1
  refine ⟨⟨.failure, 1⟩, [], List.suffix_refl _, by decide, ?_⟩
  norm_num [failing]

end ResearchAgent.Research
