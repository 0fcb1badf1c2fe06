import ResearchAgent.Library.FixedWindow
import ResearchAgent.Service.RateLimits
import ResearchAgent.Service.SlotCounters

namespace ResearchAgent.Service

open Library

-- How a script's request to the server ends: the reply arrives, or it is lost, or the script
-- has not been run.
inductive Delivery where
  | answered
  | unanswered
  | undelivered
deriving DecidableEq

-- One call of `enforce_rate_limit` with the time at the server.
structure RateRequest extends RateCall where
  delivery : Delivery
deriving DecidableEq

-- Whose request it is.
def RateRequest.owner (request : RateRequest) : String × String :=
  (request.principal.tenant_id, request.principal.principal_id)

namespace RedisRate

-- `_RATE_LIMIT_LUA`
def rate_limit (keys : Dict String SlotKey) (now : ℚ) (key : String) (window : ℕ) :
    ℤ × Dict String SlotKey :=
  let keys := RedisSlots.add keys now key 1
  let current := (RedisSlots.get keys now key).getD 0
  (current, if current = 1 then RedisSlots.expire keys now key window else keys)

def exceeded : ServiceError := .PermissionError "Rate limit exceeded"

def unavailable : ServiceError := .JobStoreError "Rate-limit store unavailable"

-- The branch of `enforce_rate_limit` for the shared counters.
def enforce_rate_limit (limit : ℕ) (keys : Dict String SlotKey) (request : RateRequest) :
    Except ServiceError Unit × Dict String SlotKey :=
  match request.delivery with
  | .undelivered => (.error unavailable, keys)
  | .unanswered => (.error unavailable, (rate_limit keys request.time request.key 60).2)
  | .answered =>
      let (count, keys) := rate_limit keys request.time request.key 60
      (if count > limit then .error exceeded else .ok (), keys)

-- The counters after requests, the newest first.
def after (limit : ℕ) : List RateRequest → Dict String SlotKey
  | [] => .empty
  | request :: earlier => (enforce_rate_limit limit (after limit earlier) request).2

def outcome (limit : ℕ) (earlier : List RateRequest) (request : RateRequest) :
    Except ServiceError Unit :=
  (enforce_rate_limit limit (after limit earlier) request).1

-- The requests of a run with what each ended with.
def log (limit : ℕ) : List RateRequest → List (RateRequest × Except ServiceError Unit)
  | [] => []
  | request :: earlier => (request, outcome limit earlier request) :: log limit earlier

-- The times of the owner's requests with such an outcome.
def times (owner : String × String) (such : Except ServiceError Unit → Bool) (limit : ℕ)
    (requests : List RateRequest) : List ℚ :=
  ((log limit requests).filter fun entry => entry.1.owner = owner ∧ such entry.2).map
    fun entry => entry.1.time

def accepted (owner : String × String) : ℕ → List RateRequest → List ℚ :=
  times owner fun outcome => outcome = .ok ()

-- What was not refused may have been let through by the script.
def unrefused (owner : String × String) : ℕ → List RateRequest → List ℚ :=
  times owner fun outcome => outcome ≠ .error exceeded

-- Requests reach the server one after another.
def InOrder (requests : List RateRequest) : Prop :=
  requests.Pairwise fun later earlier => earlier.time ≤ later.time

instance (requests : List RateRequest) : Decidable (InOrder requests) :=
  inferInstanceAs (Decidable (requests.Pairwise _))

-- The times at which the owner's requests were counted.
def counted (owner : String × String) (requests : List RateRequest) : List ℚ :=
  (requests.filter fun request => request.owner = owner ∧ request.delivery ≠ .undelivered).map
    fun request => request.time

variable {keys : Dict String SlotKey} {now : ℚ} {key : String} {limit : ℕ}
  {requests earlier : List RateRequest} {request : RateRequest} {owner : String × String}

theorem key_eq_iff {other : RateRequest} :
    request.key = other.key ↔ request.owner = other.owner := by
  rw [RateCall.key_eq_iff, RateRequest.owner, RateRequest.owner, Prod.mk.injEq]

-- A stored counter is the open window, as the server keeps it.
def stored (window : FixedWindow ℚ) : SlotKey := ⟨window.count, some (window.opened + 60)⟩

theorem rate_limit_missing (h : RedisSlots.live keys now key = none) :
    (rate_limit keys now key 60).1 = 1 ∧ ∀ other, (rate_limit keys now key 60).2.get? other =
      if other = key then some (stored ⟨now, 1⟩) else keys.get? other := by
  have hadd : RedisSlots.add keys now key 1 = keys.set key ⟨1, none⟩ := by
    unfold RedisSlots.add
    rw [h]
  have hlive : RedisSlots.live (keys.set key ⟨1, none⟩) now key = some ⟨1, none⟩ :=
    RedisSlots.live_set _ (fun _ hexpires => absurd hexpires (by simp))
  have hget : RedisSlots.get (keys.set key ⟨1, none⟩) now key = some 1 := by
    unfold RedisSlots.get
    rw [hlive]
    rfl
  simp only [rate_limit, hadd, hget, Option.getD_some, if_true, RedisSlots.expire, hlive]
  refine ⟨trivial, fun other => ?_⟩
  rw [Dict.get?_set, Dict.get?_set]
  split <;> simp_all [stored]

theorem rate_limit_live {window : FixedWindow ℚ} (hcount : 1 ≤ window.count)
    (h : RedisSlots.live keys now key = some (stored window))
    (hopen : now ≤ window.opened + 60) :
    (rate_limit keys now key 60).1 = (window.count + 1 : ℕ) ∧
      ∀ other, (rate_limit keys now key 60).2.get? other =
        if other = key then some (stored ⟨window.opened, window.count + 1⟩)
        else keys.get? other := by
  have hadd : RedisSlots.add keys now key 1 =
      keys.set key (stored ⟨window.opened, window.count + 1⟩) := by
    unfold RedisSlots.add
    rw [h]
    simp [stored]
  have hlive : RedisSlots.live (keys.set key (stored ⟨window.opened, window.count + 1⟩)) now key =
      some (stored ⟨window.opened, window.count + 1⟩) := by
    refine RedisSlots.live_set _ ?_
    rintro _ ⟨⟩
    exact hopen
  have hget : RedisSlots.get (keys.set key (stored ⟨window.opened, window.count + 1⟩)) now key =
      some ((window.count + 1 : ℕ) : ℤ) := by
    unfold RedisSlots.get
    rw [hlive]
    rfl
  have hmore : ((window.count + 1 : ℕ) : ℤ) ≠ 1 := by omega
  simp only [rate_limit, hadd, hget, Option.getD_some, if_neg hmore]
  refine ⟨trivial, fun other => ?_⟩
  rw [Dict.get?_set]

-- The counter at the server is the one of the open window.
theorem rate_limit_next {window : Option (FixedWindow ℚ)} (h : keys.get? key = window.map stored)
    (hcount : ∀ last, window = some last → 1 ≤ last.count) :
    (rate_limit keys now key 60).1 = (FixedWindow.next 60 now window).count ∧
      ∀ other, (rate_limit keys now key 60).2.get? other =
        if other = key then some (stored (FixedWindow.next 60 now window))
        else keys.get? other := by
  cases window with
  | none =>
      apply rate_limit_missing
      simp [RedisSlots.live, h]
  | some window =>
      by_cases hopen : now ≤ window.opened + 60
      · have hlive := RedisSlots.live_of_unexpired h rfl hopen
        have hnext : FixedWindow.next 60 now (some window) = ⟨window.opened, window.count + 1⟩ :=
          if_pos hopen
        rw [hnext]
        exact rate_limit_live (hcount window rfl) hlive hopen
      · have hlive := RedisSlots.live_of_expired h rfl (not_le.mp hopen)
        have hnext : FixedWindow.next 60 now (some window) = ⟨now, 1⟩ := if_neg hopen
        rw [hnext]
        exact rate_limit_missing hlive

theorem counted_cons (owner : String × String) (request : RateRequest)
    (earlier : List RateRequest) :
    counted owner (request :: earlier) =
      if request.owner = owner ∧ request.delivery ≠ .undelivered then
        request.time :: counted owner earlier
      else counted owner earlier := by
  unfold counted
  rw [List.filter_cons]
  simp only [decide_eq_true_eq]
  split <;> rfl

theorem in_order_counted (h : InOrder requests) (owner : String × String) :
    (counted owner requests).Pairwise (· ≥ ·) :=
  List.pairwise_map.mpr (h.filter _)

theorem counted_of_mem {time : ℚ} (h : time ∈ counted owner requests) :
    ∃ request ∈ requests, request.time = time := by
  obtain ⟨request, hmem, htime⟩ := List.mem_map.mp h
  exact ⟨request, List.mem_of_mem_filter hmem, htime⟩

-- The window of a request among those of its principal.
def window (earlier : List RateRequest) (request : RateRequest) : FixedWindow ℚ :=
  FixedWindow.next 60 request.time (FixedWindow.current 60 (counted request.owner earlier))

-- Every counter at the server is the open window of its principal's requests.
theorem get_after (limit : ℕ) (requests : List RateRequest) (request : RateRequest) :
    (after limit requests).get? request.key =
      (FixedWindow.current 60 (counted request.owner requests)).map stored := by
  induction requests generalizing request with
  | nil => rfl
  | cons last earlier ih =>
      have hscript : ∀ other : RateRequest,
          (rate_limit (after limit earlier) last.time last.key 60).2.get? other.key =
            (if last.owner = other.owner then some (window earlier last)
              else FixedWindow.current 60 (counted other.owner earlier)).map stored := by
        intro other
        rw [(rate_limit_next (ih last) fun _ => FixedWindow.one_le_count).2, ih other]
        by_cases howner : last.owner = other.owner
        · rw [if_pos howner, if_pos (key_eq_iff.mpr howner.symm)]
          rfl
        · rw [if_neg howner, if_neg fun h => howner (key_eq_iff.mp h).symm]
      rw [after, counted_cons, enforce_rate_limit]
      cases hdelivery : last.delivery with
      | undelivered =>
          rw [if_neg (fun h => h.2 rfl)]
          exact ih request
      | unanswered | answered =>
          refine (hscript request).trans ?_
          by_cases howner : last.owner = request.owner
          · rw [if_pos howner, if_pos ⟨howner, by decide⟩, window, howner]
            rfl
          · rw [if_neg howner, if_neg fun h => howner h.1]

-- A request is refused when its window has the limit already.
theorem outcome_eq (limit : ℕ) (earlier : List RateRequest) (request : RateRequest) :
    outcome limit earlier request =
      if request.delivery = .answered then
        if (window earlier request).count ≤ limit then .ok () else .error exceeded
      else .error unavailable := by
  have hcount := (@rate_limit_next _ request.time _ _ (get_after limit earlier request)
    fun _ => FixedWindow.one_le_count).1
  unfold outcome enforce_rate_limit
  cases hdelivery : request.delivery with
  | undelivered | unanswered => rfl
  | answered =>
      simp only [hcount, if_true, gt_iff_lt, Nat.cast_lt]
      by_cases hlimit : (window earlier request).count ≤ limit
      · rw [if_pos hlimit]
        exact if_neg (not_lt.mpr hlimit)
      · rw [if_neg hlimit]
        exact if_pos (not_le.mp hlimit)

theorem times_cons (owner : String × String) (such : Except ServiceError Unit → Bool) (limit : ℕ)
    (request : RateRequest) (earlier : List RateRequest) :
    times owner such limit (request :: earlier) =
      if request.owner = owner ∧ such (outcome limit earlier request) then
        request.time :: times owner such limit earlier
      else times owner such limit earlier := by
  unfold times
  rw [log, List.filter_cons]
  simp only [decide_eq_true_eq]
  split <;> rfl

-- The script lets through what is accepted, and refuses what is refused.
theorem admitted_between (limit : ℕ) (requests : List RateRequest) (owner : String × String) :
    (accepted owner limit requests).Sublist
      (FixedWindow.admitted 60 limit (counted owner requests)) ∧
    (FixedWindow.admitted 60 limit (counted owner requests)).Sublist
      (unrefused owner limit requests) := by
  unfold accepted unrefused
  have hdiffer : unavailable ≠ exceeded := by decide
  induction requests with
  | nil => exact ⟨.slnil, .slnil⟩
  | cons request earlier ih =>
      obtain ⟨haccepted, hunrefused⟩ := ih
      rw [times_cons, times_cons, counted_cons, outcome_eq]
      by_cases howner : request.owner = owner
      · subst howner
        cases hdelivery : request.delivery with
        | undelivered =>
            simp only [ne_eq, reduceCtorEq, not_true, and_false, if_false, decide_false,
              Except.error.injEq, hdiffer, not_false_eq_true, decide_true, and_self, if_true]
            exact ⟨haccepted, hunrefused.cons _⟩
        | unanswered =>
            simp only [ne_eq, reduceCtorEq, not_false_eq_true, and_true, if_true, if_false,
              decide_false, and_false, Except.error.injEq, hdiffer, decide_true]
            rw [FixedWindow.admitted]
            split
            · exact ⟨haccepted.cons _, hunrefused.cons_cons _⟩
            · exact ⟨haccepted, hunrefused.cons _⟩
        | answered =>
            simp only [ne_eq, reduceCtorEq, not_false_eq_true, and_true, true_and, if_true]
            rw [FixedWindow.admitted]
            unfold window
            split
            · simp only [decide_true, if_true, reduceCtorEq, not_false_eq_true]
              exact ⟨haccepted.cons_cons _, hunrefused.cons_cons _⟩
            · simp only [reduceCtorEq, decide_false, Bool.false_eq_true, if_false, not_true]
              exact ⟨haccepted, hunrefused⟩
      · simp only [howner, false_and, if_false]
        exact ⟨haccepted, hunrefused⟩

theorem counted_filter (owner : String × String) (requests : List RateRequest) :
    counted owner (requests.filter fun request => request.owner = owner) =
      counted owner requests := by
  unfold counted
  rw [List.filter_filter]
  congr 2
  funext request
  by_cases howner : request.owner = owner <;> simp [howner]

end RedisRate

open RedisRate

-- Over any run of requests by any principals: no minute, both ends included, lets twice the
-- limit of a principal's requests through, a request is refused only when the limit has been
-- used up within the minute before it, and the other principals make no difference.
theorem shared_rate_limit (limit : ℕ) (requests : List RateRequest) (h : InOrder requests) :
    (∀ owner start, (accepted owner limit requests).countP
      (fun time => start ≤ time ∧ time ≤ start + 60) ≤ 2 * limit - 1) ∧
    ∀ request earlier, request :: earlier <:+ requests →
      (outcome limit earlier request = .error exceeded →
        limit ≤ (unrefused request.owner limit earlier).countP
          (fun time => request.time - 60 ≤ time ∧ time ≤ request.time)) ∧
      outcome limit earlier request =
        outcome limit (earlier.filter fun other => other.owner = request.owner) request := by
  refine ⟨fun owner start => ?_, fun request earlier hsuffix => ⟨fun hrefused => ?_, ?_⟩⟩
  · refine ((admitted_between limit requests owner).1.countP_le).trans ?_
    exact FixedWindow.admitted_within (by norm_num) (in_order_counted h owner) start
  · have horder : InOrder (request :: earlier) := h.sublist hsuffix.sublist
    obtain ⟨hlater, hearlier⟩ := List.pairwise_cons.mp horder
    refine le_trans ?_ (admitted_between limit earlier request.owner).2.countP_le
    apply FixedWindow.admitted_before_refused (by norm_num) (in_order_counted hearlier _)
    · intro time htime
      obtain ⟨other, hmem, rfl⟩ := counted_of_mem htime
      exact hlater other hmem
    · rw [outcome_eq] at hrefused
      split at hrefused
      · split at hrefused
        · cases hrefused
        · next hmore => exact hmore
      · exact absurd hrefused (by decide)
  · rw [outcome_eq, outcome_eq]
    unfold window
    rw [counted_filter]

def RateRequest.sample (time : ℚ) : RateRequest where
  principal := service
  time := time
  delivery := .answered

-- Three of two a minute get through within one.
def around_the_minute : List RateRequest := [62, 61, 61, 59, 0].map .sample

theorem shared_rate_limit_around_the_minute :
    outcome 2 (around_the_minute.drop 1) (.sample 62) = .error exceeded ∧
    (accepted ("bank", "service") 2 around_the_minute).countP
      (fun time => 59 ≤ time ∧ time ≤ 59 + 60) = 3 ∧
    (accepted ("bank", "service") 2 around_the_minute).countP
      (fun time => 59 ≤ time ∧ time ≤ 59 + 60) ≤ 2 * 2 - 1 :=
  ⟨by decide +kernel, by decide +kernel,
    (shared_rate_limit 2 around_the_minute (by decide +kernel)).1 ("bank", "service") 59⟩

end ResearchAgent.Service
