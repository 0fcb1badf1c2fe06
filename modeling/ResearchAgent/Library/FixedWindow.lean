import Mathlib.Algebra.Order.Group.Defs
import Mathlib.Tactic.Linarith

namespace Library

-- A counter of requests that starts over when its window has passed, of which the last instant
-- is still a part.
structure FixedWindow (τ : Type) where
  opened : τ
  count : ℕ
deriving DecidableEq

namespace FixedWindow

variable {τ : Type} [AddCommGroup τ] [LinearOrder τ] (span : τ)

-- The window of a request that comes when another may be open.
def next (now : τ) : Option (FixedWindow τ) → FixedWindow τ
  | some window =>
      if now ≤ window.opened + span then ⟨window.opened, window.count + 1⟩ else ⟨now, 1⟩
  | none => ⟨now, 1⟩

-- The window after requests at these times, newest first.
def current : List τ → Option (FixedWindow τ)
  | [] => none
  | now :: earlier => some (next span now (current earlier))

-- The times of the requests that a limit lets through.
def admitted (limit : ℕ) : List τ → List τ
  | [] => []
  | now :: earlier =>
      if (next span now (current span earlier)).count ≤ limit then now :: admitted limit earlier
      else admitted limit earlier

variable {span} {limit : ℕ} {times : List τ} {now : τ} {window : FixedWindow τ}

theorem next_cases (now : τ) (times : List τ) :
    (∃ window, current span times = some window ∧ now ≤ window.opened + span ∧
      next span now (current span times) = ⟨window.opened, window.count + 1⟩) ∨
    ((∀ window, current span times = some window → window.opened + span < now) ∧
      next span now (current span times) = ⟨now, 1⟩) := by
  cases hcurrent : current span times with
  | none => exact .inr ⟨nofun, rfl⟩
  | some window =>
      by_cases h : now ≤ window.opened + span
      · exact .inl ⟨window, rfl, h, if_pos h⟩
      · refine .inr ⟨?_, if_neg h⟩
        rintro _ ⟨⟩
        exact not_le.mp h

theorem admitted_subset : ∀ time ∈ admitted span limit times, time ∈ times := by
  induction times with
  | nil => exact fun _ h => h
  | cons now earlier ih =>
      intro time h
      unfold admitted at h
      split at h
      · rcases List.mem_cons.mp h with rfl | h
        · exact List.mem_cons_self ..
        · exact List.mem_cons_of_mem _ (ih time h)
      · exact List.mem_cons_of_mem _ (ih time h)

-- A request that is not among those counted leaves their number.
theorem countP_admitted_skip {p : τ → Bool} (h : p now = false) :
    (admitted span limit (now :: times)).countP p = (admitted span limit times).countP p := by
  simp only [admitted]
  split
  · exact List.countP_cons_of_neg (by simp [h])
  · rfl

theorem one_le_count (h : current span times = some window) : 1 ≤ window.count := by
  cases times with
  | nil => cases h
  | cons now earlier =>
      cases h
      rcases next_cases now earlier with ⟨window, -, -, hnext⟩ | ⟨-, hnext⟩
      · rw [hnext]
        exact Nat.le_add_left ..
      · rw [hnext]

-- What the open window says of the requests so far.
structure Accounts (span : τ) (limit : ℕ) (times : List τ) (window : FixedWindow τ) : Prop where
  opened_mem : window.opened ∈ times
  unexpired : ∀ time ∈ times, time ≤ window.opened + span
  started : 1 ≤ window.count
  within : (admitted span limit times).countP (fun time => window.opened ≤ time) =
    min window.count limit
  after : (admitted span limit times).countP (fun time => window.opened < time) ≤
    min window.count limit - 1
  before : ∀ start, window.opened ≤ start + span → (admitted span limit times).countP
    (fun time => start ≤ time ∧ time < window.opened) ≤ limit - 1

theorem Accounts.continued (h : Accounts span limit times window)
    (hlater : ∀ time ∈ times, time ≤ now) (hopen : now ≤ window.opened + span)
    (hnext : next span now (current span times) = ⟨window.opened, window.count + 1⟩) :
    Accounts span limit (now :: times) ⟨window.opened, window.count + 1⟩ := by
  have hopened := hlater _ h.opened_mem
  have hstarted := h.started
  refine ⟨List.mem_cons_of_mem _ h.opened_mem, ?_, Nat.le_add_left .., ?_, ?_, ?_⟩
  · intro time htime
    rcases List.mem_cons.mp htime with rfl | htime
    · exact hopen
    · exact h.unexpired time htime
  · have hwithin := h.within
    simp only [admitted, hnext]
    split
    · rw [List.countP_cons, hwithin]
      simp only [hopened, decide_true, if_true]
      omega
    · omega
  · have hafter := h.after
    simp only [admitted, hnext]
    split
    · rw [List.countP_cons]
      split <;> omega
    · omega
  · intro start hstart
    rw [countP_admitted_skip (by simp [hopened])]
    exact h.before start hstart

-- An interval that the open window reaches into is covered by that window and the requests
-- before it.
theorem Accounts.reaching (h : Accounts span limit times window) {start : τ}
    (hstart : window.opened ≤ start + span) :
    (admitted span limit times).countP (fun time => start ≤ time ∧ time ≤ start + span) ≤
      2 * limit - 1 := by
  have hbefore := h.before start hstart
  have hwithin := h.within
  rw [List.countP_eq_countP_filter_add _ _ (fun time => decide (window.opened ≤ time)),
    List.countP_filter, List.countP_filter]
  have hinside : (admitted span limit times).countP (fun time =>
      decide (start ≤ time ∧ time ≤ start + span) && decide (window.opened ≤ time)) ≤
      (admitted span limit times).countP (fun time => window.opened ≤ time) :=
    List.countP_mono_left fun time _ hin => (Bool.and_eq_true_iff.mp hin).2
  have houtside : (admitted span limit times).countP (fun time =>
      decide (start ≤ time ∧ time ≤ start + span) && !decide (window.opened ≤ time)) ≤
      (admitted span limit times).countP
        (fun time => start ≤ time ∧ time < window.opened) := by
    apply List.countP_mono_left
    intro time _ hin
    simp only [Bool.and_eq_true, decide_eq_true_eq, Bool.not_eq_true', decide_eq_false_iff_not,
      not_le] at hin ⊢
    exact ⟨hin.1.1, hin.2⟩
  omega

section Order

variable [IsOrderedAddMonoid τ]

theorem Accounts.opened (hspan : 0 ≤ span)
    (h : ∀ window, current span times = some window → Accounts span limit times window)
    (hpassed : ∀ window, current span times = some window → window.opened + span < now)
    (hnext : next span now (current span times) = ⟨now, 1⟩) :
    Accounts span limit (now :: times) ⟨now, 1⟩ := by
  -- All earlier requests are of windows that have passed.
  have hearlier : ∀ time ∈ times, time < now := by
    cases hcurrent : current span times with
    | none =>
        cases times with
        | nil => exact fun _ htime => absurd htime List.not_mem_nil
        | cons => cases hcurrent
    | some window =>
        exact fun time htime =>
          ((h window hcurrent).unexpired time htime).trans_lt (hpassed window hcurrent)
  have hnone : (admitted span limit times).countP (fun time => now ≤ time) = 0 := by
    rw [List.countP_eq_zero]
    intro time htime
    simpa using hearlier time (admitted_subset time htime)
  refine ⟨List.mem_cons_self .., ?_, le_rfl, ?_, ?_, ?_⟩
  · intro time htime
    rcases List.mem_cons.mp htime with rfl | htime
    · exact le_add_of_nonneg_right hspan
    · exact (hearlier time htime).le.trans (le_add_of_nonneg_right hspan)
  · simp only [admitted, hnext]
    split
    · rw [List.countP_cons, hnone]
      simp
      omega
    · rw [hnone]
      omega
  · rw [countP_admitted_skip (by simp)]
    have hless : (admitted span limit times).countP (fun time => now < time) ≤
        (admitted span limit times).countP (fun time => now ≤ time) :=
      List.countP_mono_left fun time _ hin => by
        simp only [decide_eq_true_eq] at hin ⊢
        exact hin.le
    exact (hless.trans hnone.le).trans (Nat.zero_le _)
  · intro start hstart
    rw [countP_admitted_skip (by simp)]
    cases hcurrent : current span times with
    | none =>
        cases times with
        | nil => exact Nat.zero_le _
        | cons => cases hcurrent
    | some window =>
        have hafter := (h window hcurrent).after
        have hmono : (admitted span limit times).countP (fun time => start ≤ time ∧ time < now) ≤
            (admitted span limit times).countP (fun time => window.opened < time) := by
          apply List.countP_mono_left
          intro time _ hin
          have hopened := hpassed window hcurrent
          simp only [decide_eq_true_eq] at hin ⊢
          have hstarted : window.opened < start :=
            lt_of_add_lt_add_right (hopened.trans_le hstart)
          exact hstarted.trans_le hin.1
        exact hmono.trans (by omega)

theorem accounts (hspan : 0 ≤ span) (horder : times.Pairwise (· ≥ ·)) :
    ∀ window, current span times = some window → Accounts span limit times window := by
  induction times with
  | nil => intro window h; cases h
  | cons now earlier ih =>
      obtain ⟨hlater, hearlier⟩ := List.pairwise_cons.mp horder
      rintro _ ⟨⟩
      rcases next_cases now earlier with ⟨window, hcurrent, hopen, hnext⟩ | ⟨hpassed, hnext⟩
      · rw [hnext]
        exact (ih hearlier window hcurrent).continued hlater hopen hnext
      · rw [hnext]
        exact Accounts.opened hspan (ih hearlier) hpassed hnext

-- However the requests come, no interval of the length of a window lets twice the limit
-- through: the request that opened the earlier window is not in it.
theorem admitted_within (hspan : 0 ≤ span) (horder : times.Pairwise (· ≥ ·)) (start : τ) :
    (admitted span limit times).countP (fun time => start ≤ time ∧ time ≤ start + span) ≤
      2 * limit - 1 := by
  induction times with
  | nil => exact Nat.zero_le _
  | cons now earlier ih =>
      obtain ⟨hlater, hearlier⟩ := List.pairwise_cons.mp horder
      by_cases hnow : start ≤ now ∧ now ≤ start + span
      · have h := @accounts τ _ _ span limit _ _ hspan horder _ rfl
        have hopened : (next span now (current span earlier)).opened ≤ now := by
          rcases List.mem_cons.mp h.opened_mem with heq | hmem
          · exact heq.le
          · exact hlater _ hmem
        exact h.reaching (hopened.trans hnow.2)
      · rw [countP_admitted_skip (by simpa using hnow)]
        exact ih hearlier

-- A request that is not let through comes when the limit has been let through already, within
-- the length of a window before it.
theorem admitted_before_refused (hspan : 0 ≤ span) (horder : times.Pairwise (· ≥ ·))
    (hlater : ∀ time ∈ times, time ≤ now)
    (hrefused : ¬(next span now (current span times)).count ≤ limit) :
    limit ≤ (admitted span limit times).countP
      (fun time => now - span ≤ time ∧ time ≤ now) := by
  rcases next_cases now times with ⟨window, hcurrent, hopen, hnext⟩ | ⟨hpassed, hnext⟩
  · have h := @accounts τ _ _ span limit _ _ hspan horder window hcurrent
    have hwithin := h.within
    rw [hnext] at hrefused
    have hmono : (admitted span limit times).countP (fun time => window.opened ≤ time) ≤
        (admitted span limit times).countP (fun time => now - span ≤ time ∧ time ≤ now) := by
      apply List.countP_mono_left
      intro time hmem hin
      simp only [decide_eq_true_eq] at hin ⊢
      refine ⟨?_, hlater time (admitted_subset time hmem)⟩
      exact (sub_le_iff_le_add.mpr hopen).trans hin
    refine le_trans ?_ hmono
    rw [hwithin]
    simp only [not_le] at hrefused
    omega
  · rw [hnext] at hrefused
    simp only [not_le, Nat.lt_one_iff] at hrefused
    omega

end Order

end FixedWindow

end Library
