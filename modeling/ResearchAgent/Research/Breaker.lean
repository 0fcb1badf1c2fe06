import Mathlib.Algebra.Order.Ring.Rat

namespace ResearchAgent.Research

structure CircuitState where
  failures : ℕ := 0
  opened_at : Option ℚ := none
deriving DecidableEq

-- The three sections of `call` that hold the lock. `clock` is what the monotonic
-- clock reads in the section.
structure CircuitBreaker where
  failure_threshold : ℕ
  recovery_seconds : ℕ
  state : CircuitState := {}

namespace CircuitBreaker

variable (breaker : CircuitBreaker) (clock : ℚ)

-- Whether the operation may run.
def enter : Bool × CircuitBreaker :=
  match breaker.state.opened_at with
  | none => (true, breaker)
  | some opened_at =>
      if clock - opened_at < breaker.recovery_seconds then (false, breaker)
      else (true, { breaker with state := {} })

def failed : CircuitBreaker :=
  let failures := breaker.state.failures + 1
  { breaker with state :=
      if failures ≥ breaker.failure_threshold then ⟨failures, some clock⟩
      else ⟨failures, breaker.state.opened_at⟩ }

def succeeded : CircuitBreaker := { breaker with state := {} }

-- One invocation of `call` made after the other: when it asks, whether its operation
-- raises, and when that is recorded.
structure Call where
  entered : ℚ
  raised : Bool
  settled : ℚ

def settle (call : Call) : CircuitBreaker :=
  if call.raised then breaker.failed call.settled else breaker.succeeded

theorem settle_of_raised {call : Call} (h : call.raised = true) :
    breaker.settle call = breaker.failed call.settled :=
  if_pos h

theorem settle_of_returned {call : Call} (h : call.raised = false) :
    breaker.settle call = breaker.succeeded :=
  if_neg (by simp [h])

-- Whether the operation runs, and the breaker afterwards.
def attempt (call : Call) : Bool × CircuitBreaker :=
  match breaker.enter call.entered with
  | (true, entered) => (true, entered.settle call)
  | (false, entered) => (false, entered)

theorem attempt_of_enter {call : Call} {admitted : Bool} {entered : CircuitBreaker}
    (h : breaker.enter call.entered = (admitted, entered)) :
    breaker.attempt call = (admitted, if admitted then entered.settle call else entered) := by
  unfold attempt
  rw [h]
  cases admitted <;> rfl

def after (calls : List Call) : CircuitBreaker :=
  calls.foldl (fun breaker call => (breaker.attempt call).2) breaker

theorem after_append (calls later : List Call) :
    breaker.after (calls ++ later) = (breaker.after calls).after later :=
  List.foldl_append

-- All of the calls run their operation.
def Admitted : CircuitBreaker → List Call → Prop
  | _, [] => True
  | breaker, call :: rest =>
      (breaker.attempt call).1 = true ∧ Admitted (breaker.attempt call).2 rest

-- The failures that the next operation adds to; an open circuit starts again.
def pending : ℕ :=
  match breaker.state.opened_at with
  | none => breaker.state.failures
  | some _ => 0

-- A closed circuit has counted fewer failures than open it.
structure Sound : Prop where
  threshold_pos : 1 ≤ breaker.failure_threshold
  below : breaker.state.opened_at = none → breaker.state.failures < breaker.failure_threshold

section Calls

variable {breaker : CircuitBreaker} {call : Call} {calls : List Call}

theorem Sound.pending_lt (h : breaker.Sound) : breaker.pending < breaker.failure_threshold := by
  unfold pending
  split
  · next hclosed => exact h.below hclosed
  · exact h.threshold_pos

-- The state that an operation leaves behind.
def left_by (breaker : CircuitBreaker) (call : Call) : CircuitState :=
  if call.raised then
    if breaker.pending + 1 ≥ breaker.failure_threshold then
      ⟨breaker.pending + 1, some call.settled⟩
    else ⟨breaker.pending + 1, none⟩
  else {}

-- An open circuit refuses until the recovery time is over; otherwise the operation runs.
theorem attempt_cases (breaker : CircuitBreaker) (call : Call) :
    (∃ opened_at, breaker.state.opened_at = some opened_at ∧
        call.entered - opened_at < breaker.recovery_seconds ∧
        breaker.attempt call = (false, breaker)) ∨
      ((∀ opened_at, breaker.state.opened_at = some opened_at →
          ¬call.entered - opened_at < breaker.recovery_seconds) ∧
        breaker.attempt call = (true, { breaker with state := breaker.left_by call })) := by
  cases hopened : breaker.state.opened_at with
  | none =>
      refine .inr ⟨fun opened_at h => (by cases h), ?_⟩
      simp only [attempt, enter, hopened, settle, failed, succeeded, left_by, pending]
      split <;> rfl
  | some opened_at =>
      by_cases hrecovering : call.entered - opened_at < breaker.recovery_seconds
      · refine .inl ⟨opened_at, rfl, hrecovering, ?_⟩
        simp only [attempt, enter, hopened, hrecovering, if_true]
      · refine .inr ⟨fun other h => (by cases h; exact hrecovering), ?_⟩
        simp only [attempt, enter, hopened, hrecovering, if_false, settle, failed, succeeded,
          left_by, pending]
        split <;> rfl

theorem attempt_of_admitted (h : (breaker.attempt call).1 = true) :
    breaker.attempt call = (true, { breaker with state := breaker.left_by call }) := by
  rcases attempt_cases breaker call with ⟨opened_at, -, -, hrefused⟩ | ⟨-, hadmitted⟩
  · rw [hrefused] at h
    cases h
  · exact hadmitted

-- A circuit refuses exactly while it is open and recovering.
theorem refuses_iff : (breaker.attempt call).1 = false ↔
    ∃ opened_at, breaker.state.opened_at = some opened_at ∧
      call.entered - opened_at < breaker.recovery_seconds := by
  rcases attempt_cases breaker call with ⟨opened_at, hopened, hlt, hrefused⟩ | ⟨hnot, hadmitted⟩
  · rw [hrefused]
    exact iff_of_true rfl ⟨opened_at, hopened, hlt⟩
  · rw [hadmitted]
    exact iff_of_false (by simp) fun ⟨opened_at, hopened, hlt⟩ => hnot opened_at hopened hlt

theorem Sound.left_by (h : breaker.Sound) (call : Call) :
    ({ breaker with state := breaker.left_by call } : CircuitBreaker).Sound := by
  refine ⟨h.threshold_pos, fun hclosed => ?_⟩
  have hpending := h.threshold_pos
  simp only [CircuitBreaker.left_by] at hclosed ⊢
  split at hclosed
  · split at hclosed
    · cases hclosed
    · next hraised hbelow =>
      simp only [hraised, hbelow, if_true, if_false]
      omega
  · next hraised =>
    simp only [hraised, Bool.false_eq_true, if_false]
    omega

theorem Sound.attempt (h : breaker.Sound) (call : Call) : (breaker.attempt call).2.Sound := by
  rcases attempt_cases breaker call with ⟨_, -, -, hresult⟩ | ⟨-, hresult⟩
  · rw [hresult]
    exact h
  · rw [hresult]
    exact h.left_by call

theorem attempt_parameters (breaker : CircuitBreaker) (call : Call) :
    (breaker.attempt call).2.failure_threshold = breaker.failure_threshold ∧
      (breaker.attempt call).2.recovery_seconds = breaker.recovery_seconds := by
  rcases attempt_cases breaker call with ⟨_, -, -, hresult⟩ | ⟨-, hresult⟩
  · rw [hresult]
    exact ⟨rfl, rfl⟩
  · rw [hresult]
    exact ⟨rfl, rfl⟩

theorem Sound.after (h : breaker.Sound) (calls : List Call) : (breaker.after calls).Sound ∧
    (breaker.after calls).failure_threshold = breaker.failure_threshold ∧
    (breaker.after calls).recovery_seconds = breaker.recovery_seconds := by
  induction calls generalizing breaker with
  | nil => exact ⟨h, rfl, rfl⟩
  | cons call rest ih =>
      obtain ⟨hsound, hthreshold, hrecovery⟩ := ih (h.attempt call)
      obtain ⟨hthreshold', hrecovery'⟩ := attempt_parameters breaker call
      exact ⟨hsound, hthreshold.trans hthreshold', hrecovery.trans hrecovery'⟩

-- One more failure counts up to the threshold, at which the circuit opens.
theorem attempt_raised (h : breaker.Sound) (hadmitted : (breaker.attempt call).1 = true)
    (hraised : call.raised = true) :
    (breaker.attempt call).2.pending = (breaker.pending + 1) % breaker.failure_threshold ∧
      (breaker.attempt call).2.state.opened_at =
        if (breaker.pending + 1) % breaker.failure_threshold = 0 then some call.settled
        else none := by
  have hlt := h.pending_lt
  rw [attempt_of_admitted hadmitted]
  by_cases htrips : breaker.pending + 1 = breaker.failure_threshold
  · have hstate : breaker.left_by call = ⟨breaker.pending + 1, some call.settled⟩ := by
      simp [left_by, hraised, htrips]
    rw [hstate, htrips, Nat.mod_self]
    exact ⟨rfl, rfl⟩
  · have hstate : breaker.left_by call = ⟨breaker.pending + 1, none⟩ := by
      simp only [left_by, hraised, if_true]
      exact if_neg (by omega)
    rw [hstate, Nat.mod_eq_of_lt (by omega)]
    exact ⟨rfl, (if_neg (by omega)).symm⟩

theorem attempt_returned (hadmitted : (breaker.attempt call).1 = true)
    (hraised : call.raised = false) : (breaker.attempt call).2.state = {} := by
  rw [attempt_of_admitted hadmitted]
  simp [left_by, hraised]

-- After failures alone, the circuit is open just when they complete a multiple of the
-- threshold.
theorem after_failures : ∀ {breaker : CircuitBreaker}, breaker.Sound → Admitted breaker calls →
    (∀ call ∈ calls, call.raised = true) →
      (breaker.after calls).pending = (breaker.pending + calls.length) % breaker.failure_threshold ∧
        ∀ last ∈ calls.getLast?, (breaker.after calls).state.opened_at =
          if (breaker.pending + calls.length) % breaker.failure_threshold = 0
          then some last.settled else none := by
  induction calls with
  | nil =>
      intro breaker h _ _
      exact ⟨(Nat.mod_eq_of_lt h.pending_lt).symm, by simp⟩
  | cons call rest ih =>
      intro breaker h hadmitted hraised
      obtain ⟨hfirst, hrest⟩ := hadmitted
      obtain ⟨hpending, hopened⟩ := attempt_raised h hfirst (hraised call List.mem_cons_self)
      have hthreshold := (attempt_parameters breaker call).1
      have hlater := ih (h.attempt call) hrest fun other hmem =>
        hraised other (List.mem_cons_of_mem _ hmem)
      have hsum : ((breaker.pending + 1) % breaker.failure_threshold + rest.length) %
          breaker.failure_threshold =
          (breaker.pending + (call :: rest).length) % breaker.failure_threshold := by
        rw [Nat.mod_add_mod, List.length_cons]
        congr 1
        omega
      rw [hpending, hthreshold, hsum] at hlater
      refine ⟨hlater.1, fun last hlast => ?_⟩
      cases rest with
      | nil =>
          cases hlast
          exact hopened
      | cons other rest =>
          rw [List.getLast?_cons_cons] at hlast
          exact hlater.2 last hlast

-- A call that returns clears the count: no more calls than the threshold, one of which has
-- returned, leave the circuit closed.
theorem after_success : ∀ {breaker : CircuitBreaker}, breaker.Sound → Admitted breaker calls →
    calls.length ≤ breaker.failure_threshold → (∃ call ∈ calls, call.raised = false) →
      (breaker.after calls).state.opened_at = none := by
  induction calls with
  | nil =>
      rintro breaker - - - ⟨call, hmem, -⟩
      cases hmem
  | cons call rest ih =>
      rintro breaker h hadmitted hlength hreturned
      obtain ⟨hfirst, hrest⟩ := hadmitted
      have hthreshold := (attempt_parameters breaker call).1
      rw [List.length_cons] at hlength
      have hstep : (breaker.after (call :: rest)) = (breaker.attempt call).2.after rest := rfl
      rw [hstep]
      by_cases hlater : ∃ other ∈ rest, other.raised = false
      · exact ih (h.attempt call) hrest (by omega) hlater
      · have hcall : call.raised = false := by
          obtain ⟨other, hmem, hother⟩ := hreturned
          rcases List.mem_cons.mp hmem with rfl | hmem
          · exact hother
          · exact absurd ⟨other, hmem, hother⟩ hlater
        have hclear := attempt_returned hfirst hcall
        have hpending : (breaker.attempt call).2.pending = 0 := by simp [pending, hclear]
        have hraised : ∀ other ∈ rest, other.raised = true := by
          intro other hmem
          by_contra hother
          exact hlater ⟨other, hmem, by simpa using hother⟩
        rcases List.eq_nil_or_concat rest with rfl | ⟨front, last, rfl⟩
        · rw [after, List.foldl_nil, hclear]
        · have hopened := (after_failures (h.attempt call) hrest hraised).2 last (by simp)
          rw [hpending, hthreshold, Nat.zero_add, Nat.mod_eq_of_lt (by omega)] at hopened
          rw [hopened]
          exact if_neg (by simp)

-- As many calls as the threshold leave the circuit open at the end of the last one just
-- when all of them raise and no failure was pending before the first.
theorem opened_iff (h : breaker.Sound) (hadmitted : Admitted breaker calls)
    (hlength : calls.length = breaker.failure_threshold) {last : Call}
    (hlast : last ∈ calls.getLast?) :
    (breaker.after calls).state.opened_at =
      if (∀ call ∈ calls, call.raised = true) ∧ breaker.pending = 0 then some last.settled
      else none := by
  have hlt := h.pending_lt
  by_cases hraised : ∀ call ∈ calls, call.raised = true
  · have hopened := (after_failures h hadmitted hraised).2 last hlast
    rw [hlength, Nat.add_mod_right, Nat.mod_eq_of_lt hlt] at hopened
    rw [hopened]
    exact (if_congr (and_iff_right hraised) rfl rfl).symm
  · have hreturned : ∃ call ∈ calls, call.raised = false := by
      by_contra hnone
      refine hraised fun call hmem => ?_
      by_contra hcall
      exact hnone ⟨call, hmem, by simpa using hcall⟩
    rw [after_success h hadmitted (le_of_eq hlength) hreturned, if_neg]
    exact fun hall => hraised hall.1

end Calls

end CircuitBreaker

end ResearchAgent.Research
