import Mathlib.Tactic.Linarith
import ResearchAgent.Research.Breaker

namespace ResearchAgent.Research

-- What one of the overlapping calls does under the lock: it asks to be admitted, or it
-- records what has become of its operation.
inductive TurnKind where
  | asks
  | raised
  | returned
deriving DecidableEq

structure Turn (ι : Type) where
  call : ι
  does : TurnKind
  clock : ℚ

namespace CircuitBreaker

variable {ι : Type} {start : CircuitBreaker} {turn : Turn ι} {earlier turns : List (Turn ι)}

-- Whether the call goes on to its operation, and the breaker it leaves.
def perform (breaker : CircuitBreaker) (turn : Turn ι) : Bool × CircuitBreaker :=
  match turn.does with
  | .asks => breaker.enter turn.clock
  | .raised => (false, breaker.failed turn.clock)
  | .returned => (false, breaker.succeeded)

-- The turns of a run come with the newest first.
def left_after (start : CircuitBreaker) : List (Turn ι) → CircuitBreaker
  | [] => start
  | turn :: earlier => ((left_after start earlier).perform turn).2

-- The operation of a call is started with its admission.
def Starts (start : CircuitBreaker) (earlier : List (Turn ι)) (turn : Turn ι) : Prop :=
  ((start.left_after earlier).perform turn).1 = true

-- The call has been admitted and nothing has been recorded of it yet.
def Running [DecidableEq ι] (start : CircuitBreaker) (call : ι) : List (Turn ι) → Prop
  | [] => False
  | turn :: earlier =>
      if turn.call = call then Starts start earlier turn else Running start call earlier

-- Any interleaving of calls, each of which asks once and records at most once, after it
-- has been admitted.
def Interleaved [DecidableEq ι] (start : CircuitBreaker) : List (Turn ι) → Prop
  | [] => True
  | turn :: earlier =>
      (∀ other ∈ earlier, other.clock ≤ turn.clock) ∧
      (match turn.does with
        | .asks => ∀ other ∈ earlier, other.call ≠ turn.call
        | .raised | .returned => Running start turn.call earlier) ∧
      Interleaved start earlier

-- The failures recorded without a success between them.
def streak : List (Turn ι) → ℕ
  | [] => 0
  | turn :: earlier =>
      match turn.does with
      | .asks => streak earlier
      | .raised => streak earlier + 1
      | .returned => 0

-- The last of the turns records the failure with which the streak reaches the threshold.
def Trips (threshold : ℕ) : List (Turn ι) → Prop
  | [] => False
  | turn :: earlier => turn.does = .raised ∧ streak (turn :: earlier) = threshold

-- The threshold has been reached less than the recovery time ago.
def Tripped (breaker : CircuitBreaker) (turns : List (Turn ι)) (clock : ℚ) : Prop :=
  ∃ trip before, trip :: before <:+ turns ∧ Trips breaker.failure_threshold (trip :: before) ∧
    clock < trip.clock + breaker.recovery_seconds

-- No operation is started within the recovery time.
def Protected (start : CircuitBreaker) (turns : List (Turn ι)) : Prop :=
  ∀ turn earlier, turn :: earlier <:+ turns → Tripped start earlier turn.clock →
    ¬Starts start earlier turn

-- Where a call asks within the recovery time, the failures since the last success are at
-- the threshold still, or again.
def Standing (start : CircuitBreaker) (turns : List (Turn ι)) : Prop :=
  ∀ turn earlier, turn :: earlier <:+ turns → Tripped start earlier turn.clock →
    turn.does = .asks → start.failure_threshold ≤ streak earlier

-- A streak below the threshold is what the closed circuit has counted. From the failure
-- that reaches it, the circuit is open until the recovery time is over.
structure Follows (start : CircuitBreaker) (turns : List (Turn ι))
    (breaker : CircuitBreaker) : Prop where
  threshold : breaker.failure_threshold = start.failure_threshold
  recovery : breaker.recovery_seconds = start.recovery_seconds
  below : streak turns < start.failure_threshold → breaker.state = ⟨streak turns, none⟩
  above : start.failure_threshold ≤ streak turns → ∃ last ∈ turns,
    (∀ trip before, trip :: before <:+ turns →
      Trips start.failure_threshold (trip :: before) → trip.clock ≤ last.clock) ∧
    ((∃ opened_at, breaker.state.opened_at = some opened_at ∧ last.clock ≤ opened_at) ∨
      ∃ later ∈ turns, last.clock + start.recovery_seconds ≤ later.clock)

section Steps

variable {breaker : CircuitBreaker} {clock : ℚ}

theorem trip_of_suffix {threshold : ℕ} {trip : Turn ι} {before : List (Turn ι)}
    (hsuffix : trip :: before <:+ turn :: earlier) (htrips : Trips threshold (trip :: before)) :
    (trip = turn ∧ Trips threshold (turn :: earlier)) ∨ trip :: before <:+ earlier := by
  rcases List.suffix_cons_iff.mp hsuffix with heq | hsuffix
  · cases heq
    exact .inl ⟨rfl, htrips⟩
  · exact .inr hsuffix

theorem trip_mem {trip : Turn ι} {before : List (Turn ι)}
    (hsuffix : trip :: before <:+ turns) : trip ∈ turns :=
  hsuffix.subset List.mem_cons_self

theorem Follows.asked (h : Follows start earlier breaker) (hdoes : turn.does = .asks) :
    Follows start (turn :: earlier) (breaker.perform turn).2 := by
  have hstreak : streak (turn :: earlier) = streak earlier := by simp [streak, hdoes]
  have hperform : breaker.perform turn = breaker.enter turn.clock := by
    simp [perform, hdoes]
  rw [hperform]
  refine ⟨?_, ?_, ?_, ?_⟩
  · rw [← h.threshold]
    unfold enter
    split
    · rfl
    · split <;> rfl
  · rw [← h.recovery]
    unfold enter
    split
    · rfl
    · split <;> rfl
  · intro hbelow
    rw [hstreak] at hbelow ⊢
    have hclosed := h.below hbelow
    have henter : breaker.enter turn.clock = (true, breaker) := by simp [enter, hclosed]
    rw [henter, hclosed]
  · intro habove
    rw [hstreak] at habove
    obtain ⟨last, hlast, hlatest, hopen⟩ := h.above habove
    refine ⟨last, List.mem_cons_of_mem _ hlast, ?_, ?_⟩
    · intro trip before hsuffix htrips
      rcases trip_of_suffix hsuffix htrips with ⟨-, hraised, -⟩ | hsuffix
      · rw [hdoes] at hraised
        cases hraised
      · exact hlatest trip before hsuffix htrips
    · rcases hopen with ⟨opened_at, hopened, hle⟩ | ⟨later, hlater, hover⟩
      · by_cases hlt : turn.clock - opened_at < breaker.recovery_seconds
        · have henter : breaker.enter turn.clock = (false, breaker) := by
            simp [enter, hopened, hlt]
          exact .inl ⟨opened_at, (by rw [henter, hopened]), hle⟩
        -- The circuit is closed again, after the recovery time.
        · rw [h.recovery] at hlt
          exact .inr ⟨turn, List.mem_cons_self, by linarith⟩
      · exact .inr ⟨later, List.mem_cons_of_mem _ hlater, hover⟩

theorem Follows.failed (h : Follows start earlier breaker) (hdoes : turn.does = .raised)
    (hclock : ∀ other ∈ earlier, other.clock ≤ turn.clock) :
    Follows start (turn :: earlier) (breaker.perform turn).2 := by
  have hstreak : streak (turn :: earlier) = streak earlier + 1 := by simp [streak, hdoes]
  have hperform : breaker.perform turn = (false, breaker.failed turn.clock) := by
    simp [perform, hdoes]
  rw [hperform]
  refine ⟨h.threshold, h.recovery, ?_, ?_⟩
  · intro hbelow
    rw [hstreak] at hbelow ⊢
    have hclosed := h.below (by omega)
    simp only [CircuitBreaker.failed, hclosed, h.threshold]
    exact if_neg (by omega)
  · intro habove
    rw [hstreak] at habove
    by_cases hreaches : streak earlier + 1 = start.failure_threshold
    -- This failure reaches the threshold.
    · have hclosed := h.below (by omega)
      refine ⟨turn, List.mem_cons_self, ?_, .inl ⟨turn.clock, ?_, le_rfl⟩⟩
      · intro trip before hsuffix htrips
        rcases trip_of_suffix hsuffix htrips with ⟨rfl, -⟩ | hsuffix
        · exact le_rfl
        · exact hclock trip (trip_mem hsuffix)
      · simp only [CircuitBreaker.failed, hclosed, h.threshold]
        rw [if_pos (by omega)]
    -- It comes after the one that did.
    · obtain ⟨last, hlast, hlatest, hopen⟩ := h.above (by omega)
      refine ⟨last, List.mem_cons_of_mem _ hlast, ?_, ?_⟩
      · intro trip before hsuffix htrips
        rcases trip_of_suffix hsuffix htrips with ⟨-, -, hcount⟩ | hsuffix
        · rw [hstreak] at hcount
          exact absurd hcount hreaches
        · exact hlatest trip before hsuffix htrips
      · rcases hopen with ⟨opened_at, hopened, hle⟩ | ⟨later, hlater, hover⟩
        · refine .inl ?_
          simp only [CircuitBreaker.failed]
          split
          · exact ⟨turn.clock, rfl, hclock last hlast⟩
          · exact ⟨opened_at, hopened, hle⟩
        · exact .inr ⟨later, List.mem_cons_of_mem _ hlater, hover⟩

theorem Follows.succeeded (h : Follows start earlier breaker) (hdoes : turn.does = .returned)
    (hthreshold : 1 ≤ start.failure_threshold) :
    Follows start (turn :: earlier) (breaker.perform turn).2 := by
  have hstreak : streak (turn :: earlier) = 0 := by simp [streak, hdoes]
  have hperform : breaker.perform turn = (false, breaker.succeeded) := by
    simp [perform, hdoes]
  rw [hperform]
  refine ⟨h.threshold, h.recovery, fun _ => ?_, fun habove => ?_⟩
  · rw [hstreak]
    rfl
  · rw [hstreak] at habove
    omega

-- Within the recovery time a call is refused exactly where the streak is at the threshold.
theorem Follows.starts_iff (h : Follows start earlier breaker) (hdoes : turn.does = .asks)
    (hclock : ∀ other ∈ earlier, other.clock ≤ turn.clock)
    (htripped : Tripped start earlier turn.clock) :
    (breaker.perform turn).1 = true ↔ streak earlier < start.failure_threshold := by
  have hperform : breaker.perform turn = breaker.enter turn.clock := by
    simp [perform, hdoes]
  rw [hperform]
  by_cases hbelow : streak earlier < start.failure_threshold
  · have hclosed := h.below hbelow
    exact iff_of_true (by simp [enter, hclosed]) hbelow
  · refine iff_of_false ?_ hbelow
    obtain ⟨trip, before, hsuffix, htrips, hwithin⟩ := htripped
    obtain ⟨last, -, hlatest, hopen⟩ := h.above (not_lt.mp hbelow)
    have hle := hlatest trip before hsuffix htrips
    rcases hopen with ⟨opened_at, hopened, hsince⟩ | ⟨later, hlater, hover⟩
    · have hlt : turn.clock - opened_at < breaker.recovery_seconds := by
        rw [h.recovery]
        linarith
      simp [enter, hopened, hlt]
    · have hlast := hclock later hlater
      exact absurd hover (by linarith)

end Steps

section Runs

variable [DecidableEq ι] {threshold recovery : ℕ}

theorem follows_run (hthreshold : 1 ≤ threshold)
    (h : Interleaved ⟨threshold, recovery, {}⟩ turns) :
    Follows ⟨threshold, recovery, {}⟩ turns (left_after ⟨threshold, recovery, {}⟩ turns) := by
  induction turns with
  | nil =>
      refine ⟨rfl, rfl, fun _ => rfl, fun habove => ?_⟩
      simp only [streak] at habove
      omega
  | cons turn earlier ih =>
      obtain ⟨hclock, -, hearlier⟩ := h
      cases hdoes : turn.does with
      | asks => exact (ih hearlier).asked hdoes
      | raised => exact (ih hearlier).failed hdoes hclock
      | returned => exact (ih hearlier).succeeded hdoes hthreshold

theorem Interleaved.of_suffix (h : Interleaved start turns) (hsuffix : earlier <:+ turns) :
    Interleaved start earlier := by
  induction turns with
  | nil => rwa [List.suffix_nil.mp hsuffix]
  | cons turn rest ih =>
      rcases List.suffix_cons_iff.mp hsuffix with rfl | hsuffix
      · exact h
      · exact ih h.2.2 hsuffix

end Runs

end CircuitBreaker

open CircuitBreaker

-- No operation is started within the recovery time exactly in the runs in which no call
-- asks then while a success has taken the streak below the threshold.
theorem overlapping_calls_protected_iff {ι : Type} [DecidableEq ι] (threshold recovery : ℕ)
    (hthreshold : 1 ≤ threshold) (turns : List (Turn ι))
    (h : Interleaved ⟨threshold, recovery, {}⟩ turns) :
    Protected ⟨threshold, recovery, {}⟩ turns ↔ Standing ⟨threshold, recovery, {}⟩ turns := by
  refine forall₂_congr fun turn earlier => forall₂_congr fun hsuffix htripped => ?_
  have hrun := h.of_suffix hsuffix
  have hfollows := follows_run hthreshold hrun.2.2
  cases hdoes : turn.does with
  | asks =>
      have hstarts := hfollows.starts_iff hdoes hrun.1 htripped
      rw [Starts, hstarts, not_lt]
      exact ⟨fun hle _ => hle, fun hle => hle rfl⟩
  | raised | returned =>
      refine iff_of_true ?_ nofun
      simp [Starts, perform, hdoes]

-- Two calls are admitted together; the first fails and opens the circuit, the second
-- succeeds and closes it at once.
def late_success : List (Turn ℕ) :=
  [⟨2, .asks, 3⟩, ⟨1, .returned, 2⟩, ⟨0, .raised, 1⟩, ⟨1, .asks, 0⟩, ⟨0, .asks, 0⟩]

theorem interleaved_late_success : Interleaved ⟨1, 60, {}⟩ late_success := by
  simp only [late_success, Interleaved, Running, Starts, left_after, perform, enter]
  norm_num

-- The threshold of one failure is reached at 1, and a call starts its operation at 3.
theorem late_success_starts :
    Interleaved ⟨1, 60, {}⟩ late_success ∧ ¬Protected ⟨1, 60, {}⟩ late_success := by
  refine ⟨interleaved_late_success, fun hprotected => ?_⟩
  have htripped : Tripped ⟨1, 60, {}⟩ late_success.tail 3 := by
    refine ⟨⟨0, .raised, 1⟩, _, ⟨[⟨1, .returned, 2⟩], rfl⟩, ⟨rfl, rfl⟩, ?_⟩
    norm_num
  exact hprotected ⟨2, .asks, 3⟩ late_success.tail (List.suffix_refl _) htripped rfl

-- The second of them fails too, and the call that asks at 3 is refused.
def late_failure : List (Turn ℕ) :=
  [⟨2, .asks, 3⟩, ⟨1, .raised, 2⟩, ⟨0, .raised, 1⟩, ⟨1, .asks, 0⟩, ⟨0, .asks, 0⟩]

theorem overlapping_calls_protected_refused : Protected ⟨1, 60, {}⟩ late_failure := by
  have hrun : Interleaved ⟨1, 60, {}⟩ late_failure := by
    simp only [late_failure, Interleaved, Running, Starts, left_after, perform, enter]
    norm_num
  refine (overlapping_calls_protected_iff 1 60 le_rfl _ hrun).mpr ?_
  intro turn earlier hsuffix htripped hdoes
  simp only [late_failure, List.suffix_cons_iff, List.suffix_nil, List.cons.injEq] at hsuffix
  rcases hsuffix with
    ⟨rfl, rfl⟩ | ⟨rfl, rfl⟩ | ⟨rfl, rfl⟩ | ⟨rfl, rfl⟩ | ⟨rfl, rfl⟩ | hnil
  · decide
  · cases hdoes
  · cases hdoes
  · obtain ⟨trip, before, hsuffix, ⟨hraised, -⟩, -⟩ := htripped
    cases List.mem_singleton.mp (trip_mem hsuffix)
    cases hraised
  · obtain ⟨trip, before, hnone, -⟩ := htripped
    cases List.suffix_nil.mp hnone
  · cases hnil

end ResearchAgent.Research
