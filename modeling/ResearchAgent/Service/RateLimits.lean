import Mathlib.Data.Finset.Image
import Mathlib.Data.Rat.Floor
import ResearchAgent.Service.Governance

namespace ResearchAgent.Service

open Library

inductive RateError where
  | PermissionError (message : String)
  | KeyError (key : String × ℤ)
deriving DecidableEq

-- The fields of `GovernanceStore` behind the local rate limit. The table starts as a
-- `defaultdict(int)`.
structure RateLimits where
  rate_limit : ℕ
  memory_windows : Dict (String × ℤ) ℕ := .empty
  is_defaultdict : Bool := true

-- One call of `enforce_rate_limit` with the time it reads.
structure RateCall where
  principal : Principal
  time : ℚ
deriving DecidableEq

namespace RateCall

def key (call : RateCall) : String :=
  "governance:rate:" ++ call.principal.tenant_id ++ ":" ++ call.principal.principal_id

-- `int(time.time() // 60)`
def window (call : RateCall) : ℤ := ⌊call.time / 60⌋

def item (call : RateCall) : String × ℤ := (call.key, call.window)

-- Whose call it is, and the minute it falls in.
def slot (call : RateCall) : (String × String) × ℤ :=
  ((call.principal.tenant_id, call.principal.principal_id), call.window)

end RateCall

namespace RateLimits

-- Reading a missing item stores a zero in a `defaultdict` and raises in a plain dict.
def getitem (limits : RateLimits) (item : String × ℤ) : Except RateError (ℕ × RateLimits) :=
  match limits.memory_windows.get? item with
  | some value => .ok (value, limits)
  | none =>
      if limits.is_defaultdict then
        .ok (0, { limits with memory_windows := limits.memory_windows.set item 0 })
      else .error (.KeyError item)

-- The table that replaces a large one is built by a comprehension: it has no default.
def prune (limits : RateLimits) (window : ℤ) : RateLimits :=
  if limits.memory_windows.entries.length > 10000 then
    { limits with
      memory_windows := limits.memory_windows.restrict fun item => window - 1 ≤ item.2
      is_defaultdict := false }
  else limits

def enforce_rate_limit (limits : RateLimits) (call : RateCall) :
    Except RateError Unit × RateLimits :=
  match limits.getitem call.item with
  | .error error => (.error error, limits)
  | .ok (value, limits) =>
      let count := value + 1
      let limits := { limits with memory_windows := limits.memory_windows.set call.item count }
      (if count > limits.rate_limit then .error (.PermissionError "Rate limit exceeded")
        else .ok (), limits.prune call.window)

def after (limits : RateLimits) (calls : List RateCall) : RateLimits :=
  calls.foldl (fun limits call => (limits.enforce_rate_limit call).2) limits

-- What the call is to end with after those before it.
def specified (limit : ℕ) (earlier : List RateCall) (call : RateCall) : Except RateError Unit :=
  if (earlier.filter fun other => other.slot = call.slot).length < limit then .ok ()
  else .error (.PermissionError "Rate limit exceeded")

-- Every call of the run ends as it is to.
def Exact (limit : ℕ) (calls : List RateCall) : Prop :=
  ∀ earlier call later, calls = earlier ++ call :: later →
    ((after { rate_limit := limit } earlier).enforce_rate_limit call).1 =
      specified limit earlier call

def InOrder (calls : List RateCall) : Prop :=
  calls.Pairwise fun earlier later => earlier.time ≤ later.time

end RateLimits

namespace RateCall

theorem colon_not_mem {text : String} (h : is_identifier text = true) : ':' ∉ text.toList := by
  intro hmem
  simp only [is_identifier, Bool.and_eq_true, List.all_eq_true] at h
  exact absurd (h.2 ':' hmem) (by decide)

theorem joined_injective {front left left' middle right right' : String} {separator : Char}
    (hmiddle : middle.toList = [separator]) (hright : separator ∉ right.toList)
    (hright' : separator ∉ right'.toList)
    (h : front ++ left ++ middle ++ right = front ++ left' ++ middle ++ right') :
    left = left' ∧ right = right' := by
  have htexts := congrArg String.toList h
  simp only [String.toList_append, hmiddle, List.append_assoc, List.singleton_append,
    List.append_cancel_left_eq] at htexts
  obtain ⟨hleft, hrights⟩ := GovernanceStore.split_at_last htexts hright hright'
  exact ⟨String.toList_inj.mp hleft, String.toList_inj.mp hrights⟩

-- No identifier has a colon, so the key names one principal.
theorem key_eq_iff {call other : RateCall} : call.key = other.key ↔
    call.principal.tenant_id = other.principal.tenant_id ∧
      call.principal.principal_id = other.principal.principal_id := by
  constructor
  · intro h
    unfold key at h
    exact joined_injective (by decide) (colon_not_mem call.principal.principal_id_valid)
      (colon_not_mem other.principal.principal_id_valid) h
  · rintro ⟨htenant, hprincipal⟩
    unfold key
    rw [htenant, hprincipal]

theorem item_eq_iff {call other : RateCall} : call.item = other.item ↔ call.slot = other.slot := by
  simp only [item, slot, Prod.mk.injEq, key_eq_iff]

end RateCall

namespace RateLimits

open RateCall

-- The different items among the calls.
def items (calls : List RateCall) : Finset (String × ℤ) := (calls.map item).toFinset

-- The different principals and minutes among the calls.
def slots (calls : List RateCall) : Finset ((String × String) × ℤ) := (calls.map slot).toFinset

-- The table holds the counts of the calls, those of the last two minutes once it is no
-- longer a `defaultdict`.
structure Tallies (limit : ℕ) (calls : List RateCall) (limits : RateLimits) : Prop where
  rate_limit : limits.rate_limit = limit
  counts : ∀ item, (limits.is_defaultdict = true ∨ ∀ call ∈ calls, call.window - 1 ≤ item.2) →
    limits.memory_windows.get? item =
      if item ∈ items calls then some ((calls.map RateCall.item).count item) else none

-- The first table that grows too large is replaced.
structure Follows (limit : ℕ) (calls : List RateCall) (limits : RateLimits) : Prop
    extends Tallies limit calls limits where
  small : limits.is_defaultdict = true → (items calls).card ≤ 10000
  large : limits.is_defaultdict = false → (items calls).card = 10001

section Runs

variable {limit : ℕ} {calls earlier later : List RateCall} {call : RateCall} {limits : RateLimits}

theorem items_concat : items (calls ++ [call]) = insert call.item (items calls) := by
  ext item
  simp [items]

theorem card_items_concat : (items (calls ++ [call])).card =
    if call.item ∈ items calls then (items calls).card else (items calls).card + 1 := by
  rw [items_concat, Finset.card_insert_eq_ite]

theorem items_subset : items earlier ⊆ items (earlier ++ later) := by
  intro item hitem
  simp only [items, List.mem_toFinset, List.map_append, List.mem_append] at hitem ⊢
  exact .inl hitem

-- Items and slots correspond to one another.
theorem card_items (calls : List RateCall) : (items calls).card = (slots calls).card := by
  induction calls using List.reverseRecOn with
  | nil => rfl
  | append_singleton calls call ih =>
      have hslots : slots (calls ++ [call]) = insert call.slot (slots calls) := by
        ext slot
        simp [slots]
      have hmem : call.item ∈ items calls ↔ call.slot ∈ slots calls := by
        simp only [items, slots, List.mem_toFinset, List.mem_map, item_eq_iff]
      rw [card_items_concat, hslots, Finset.card_insert_eq_ite, ih]
      exact if_congr hmem rfl rfl

-- The calls that count against this one.
theorem length_counted : (calls.filter fun other => other.slot = call.slot).length =
    (calls.map RateCall.item).count call.item := by
  rw [List.count_eq_countP, List.countP_map, List.countP_eq_length_filter]
  congr 2
  funext other
  rw [Function.comp_apply, Bool.beq_eq_decide_eq, decide_eq_decide]
  exact item_eq_iff.symm

theorem window_mono {other : RateCall} (h : call.time ≤ other.time) :
    call.window ≤ other.window :=
  Int.floor_le_floor (div_le_div_of_nonneg_right h (by norm_num))

theorem follows_start (limit : ℕ) : Follows limit [] { rate_limit := limit } where
  rate_limit := rfl
  counts := by simp [items]
  small := by simp [items]
  large := by simp

theorem Tallies.length (h : Tallies limit calls limits) (hdefault : limits.is_defaultdict = true) :
    limits.memory_windows.entries.length = (items calls).card := by
  refine limits.memory_windows.length_eq_card fun item => ?_
  rw [h.counts item (.inl hdefault)]
  split
  · next hmem => simp [hmem]
  · next hmem => simp [hmem]

theorem Tallies.get_item (h : Tallies limit calls limits)
    (hwindow : ∀ other ∈ calls, other.window ≤ call.window) :
    limits.memory_windows.get? call.item =
      if call.item ∈ items calls then some ((calls.map RateCall.item).count call.item)
      else none := by
  refine h.counts call.item (.inr fun other hother => ?_)
  have hle := hwindow other hother
  simp only [item]
  omega

theorem count_of_not_mem (h : call.item ∉ items calls) :
    (calls.map RateCall.item).count call.item = 0 :=
  List.count_eq_zero.mpr fun hmem => h (List.mem_toFinset.mpr hmem)

-- What is read is the count of the calls so far. A missing item is an error exactly
-- where the table has been replaced.
theorem getitem_cases (h : Tallies limit calls limits)
    (hwindow : ∀ other ∈ calls, other.window ≤ call.window) :
    (limits.is_defaultdict = false ∧ call.item ∉ items calls ∧
      limits.getitem call.item = .error (.KeyError call.item)) ∨
    ((limits.is_defaultdict = true ∨ call.item ∈ items calls) ∧
      ∃ windows, limits.getitem call.item =
          .ok ((calls.map RateCall.item).count call.item,
            { limits with memory_windows := windows }) ∧
        ∀ other, other ≠ call.item →
          windows.get? other = limits.memory_windows.get? other) := by
  have hitem := h.get_item hwindow
  by_cases hmem : call.item ∈ items calls
  · rw [if_pos hmem] at hitem
    refine .inr ⟨.inr hmem, limits.memory_windows, ?_, fun _ _ => rfl⟩
    rw [getitem, hitem]
  · rw [if_neg hmem] at hitem
    by_cases hdefault : limits.is_defaultdict = true
    · refine .inr ⟨.inl hdefault, limits.memory_windows.set call.item 0, ?_, ?_⟩
      · rw [getitem, hitem, count_of_not_mem hmem]
        exact if_pos hdefault
      · intro other hne
        rw [Dict.get?_set, if_neg hne]
    · refine .inl ⟨by simpa using hdefault, hmem, ?_⟩
      rw [getitem, hitem]
      exact if_neg hdefault

-- One more call of the item.
theorem Tallies.count (h : Tallies limit calls limits) {windows : Dict (String × ℤ) ℕ}
    (hother : ∀ other, other ≠ call.item →
      windows.get? other = limits.memory_windows.get? other) :
    Tallies limit (calls ++ [call]) { limits with
      memory_windows :=
        windows.set call.item ((calls.map RateCall.item).count call.item + 1) } where
  rate_limit := h.rate_limit
  counts := by
    intro item hitem
    rw [Dict.get?_set]
    by_cases heq : item = call.item
    · subst heq
      rw [if_pos rfl, if_pos (by simp [items_concat])]
      simp [List.count_append]
    · have hknown : limits.is_defaultdict = true ∨ ∀ call ∈ calls, call.window - 1 ≤ item.2 :=
        hitem.imp_right fun hall other hmem => hall other (List.mem_append_left _ hmem)
      rw [if_neg heq, hother item heq, h.counts item hknown]
      refine if_congr (by simp [items_concat, heq]) ?_ rfl
      simp [List.count_append, Ne.symm heq]

-- The items that are dropped are older than the minute before this one.
theorem Tallies.prune (h : Tallies limit (calls ++ [call]) limits) :
    Tallies limit (calls ++ [call]) (limits.prune call.window) := by
  unfold RateLimits.prune
  split
  · refine ⟨h.rate_limit, fun item hitem => ?_⟩
    have hall := hitem.resolve_left (by simp)
    have hkept : call.window - 1 ≤ item.2 := hall call (by simp)
    rw [Dict.get?_restrict, if_pos (by simpa using hkept)]
    exact h.counts item (.inr hall)
  · exact h

-- The table is replaced when its first item too many has been counted.
theorem Tallies.follows (h : Tallies limit (calls ++ [call]) limits)
    (hsmall : limits.is_defaultdict = true → (items (calls ++ [call])).card ≤ 10001)
    (hlarge : limits.is_defaultdict = false → (items (calls ++ [call])).card = 10001) :
    Follows limit (calls ++ [call]) (limits.prune call.window) := by
  refine ⟨h.prune, ?_, ?_⟩
  · unfold RateLimits.prune
    split
    · simp
    · next hlength =>
      intro hdefault
      rwa [h.length hdefault, not_lt] at hlength
  · intro hreplaced
    by_cases hdefault : limits.is_defaultdict = true
    · have hcard := hsmall hdefault
      unfold RateLimits.prune at hreplaced
      split at hreplaced
      · next hlength =>
        rw [h.length hdefault] at hlength
        omega
      · rw [hdefault] at hreplaced
        cases hreplaced
    · exact hlarge (by simpa using hdefault)

theorem specified_eq : specified limit calls call =
    if (calls.map RateCall.item).count call.item + 1 > limit then
      .error (.PermissionError "Rate limit exceeded")
    else .ok () := by
  rw [specified, length_counted]
  split
  · exact (if_neg (by omega)).symm
  · exact (if_pos (by omega)).symm

-- One call: it ends as it is to, unless it is the first of an item that the replaced
-- table does not know.
theorem enforce_rate_limit_cases (h : Follows limit calls limits)
    (hwindow : ∀ other ∈ calls, other.window ≤ call.window) :
    ((items (calls ++ [call])).card ≤ 10001 ∧
      (limits.enforce_rate_limit call).1 = specified limit calls call ∧
      Follows limit (calls ++ [call]) (limits.enforce_rate_limit call).2) ∨
    (10001 < (items (calls ++ [call])).card ∧
      (limits.enforce_rate_limit call).1 = .error (.KeyError call.item)) := by
  have hcard : (items (calls ++ [call])).card =
      if call.item ∈ items calls then (items calls).card else (items calls).card + 1 :=
    card_items_concat
  rcases getitem_cases h.toTallies hwindow with
    ⟨hreplaced, hmem, hget⟩ | ⟨hknown, windows, hget, hother⟩
  · rw [if_neg hmem, h.large hreplaced] at hcard
    refine .inr ⟨by omega, ?_⟩
    rw [enforce_rate_limit, hget]
  · have hsmall : limits.is_defaultdict = true → (items (calls ++ [call])).card ≤ 10001 := by
      intro hdefault
      have hbound := h.small hdefault
      split at hcard <;> omega
    have hlarge : limits.is_defaultdict = false → (items (calls ++ [call])).card = 10001 := by
      intro hreplaced
      rw [if_pos (hknown.resolve_left (by simp [hreplaced])), h.large hreplaced] at hcard
      exact hcard
    refine .inl ⟨?_, ?_, ?_⟩
    · cases hdefault : limits.is_defaultdict with
      | true => exact hsmall hdefault
      | false => exact le_of_eq (hlarge hdefault)
    · rw [enforce_rate_limit, hget, specified_eq]
      dsimp only
      rw [h.rate_limit]
    · rw [enforce_rate_limit, hget]
      exact (h.toTallies.count hother).follows hsmall hlarge

theorem after_concat : after limits (calls ++ [call]) =
    ((after limits calls).enforce_rate_limit call).2 := by
  simp [after]

theorem exact_concat : Exact limit (calls ++ [call]) ↔ Exact limit calls ∧
    ((after { rate_limit := limit } calls).enforce_rate_limit call).1 =
      specified limit calls call := by
  constructor
  · intro h
    refine ⟨?_, h calls call [] rfl⟩
    rintro earlier other later rfl
    exact h earlier other (later ++ [call]) (by simp)
  · rintro ⟨hcalls, hcall⟩ earlier other later heq
    rcases List.eq_nil_or_concat later with rfl | ⟨later, last, rfl⟩
    · obtain ⟨rfl, hlast⟩ := List.append_inj' heq rfl
      cases hlast
      exact hcall
    · rw [List.concat_eq_append, ← List.cons_append, ← List.append_assoc] at heq
      obtain ⟨rfl, -⟩ := List.append_inj' heq rfl
      exact hcalls earlier other later rfl

theorem InOrder.concat (h : InOrder (calls ++ [call])) : InOrder calls ∧
    ∀ other ∈ calls, other.window ≤ call.window := by
  obtain ⟨hcalls, -, hlast⟩ := List.pairwise_append.mp h
  exact ⟨hcalls, fun other hmem => window_mono (hlast other hmem call (by simp))⟩

-- The run is followed as long as no item too many comes up, and is exact just as long.
theorem follows_run (limit : ℕ) (h : InOrder calls) :
    (Exact limit calls ↔ (items calls).card ≤ 10001) ∧
      ((items calls).card ≤ 10001 →
        Follows limit calls (after { rate_limit := limit } calls)) := by
  induction calls using List.reverseRecOn with
  | nil =>
      refine ⟨iff_of_true ?_ (by simp [items]), fun _ => follows_start limit⟩
      intro earlier call later heq
      simp at heq
  | append_singleton calls call ih =>
      obtain ⟨hcalls, hwindow⟩ := h.concat
      obtain ⟨hexact, hfollows⟩ := ih hcalls
      have hle : (items calls).card ≤ (items (calls ++ [call])).card :=
        Finset.card_le_card items_subset
      rw [exact_concat, hexact, after_concat]
      by_cases hsmall : (items calls).card ≤ 10001
      · rcases enforce_rate_limit_cases (hfollows hsmall) hwindow with
          ⟨hcard, hended, hnext⟩ | ⟨hcard, herror⟩
        · exact ⟨iff_of_true ⟨hsmall, hended⟩ hcard, fun _ => hnext⟩
        · refine ⟨iff_of_false ?_ (by omega), fun hbound => by omega⟩
          rintro ⟨-, hended⟩
          rw [herror, specified] at hended
          split at hended <;> cases hended
      · exact ⟨iff_of_false (fun hall => hsmall hall.1) (by omega), fun hbound => by omega⟩

end Runs

end RateLimits

open RateLimits

-- Every call ends as it is to exactly in the runs in which no more than 10001 pairs of a
-- principal and a minute come up.
theorem local_rate_limit_exact_iff (limit : ℕ) (calls : List RateCall) (h : InOrder calls) :
    Exact limit calls ↔ (slots calls).card ≤ 10001 := by
  rw [(follows_run limit h).1, card_items]

def service : Principal := ⟨"service", "bank", [.researcher], by decide, by decide⟩

-- One call at the start of each of the first minutes.
def one_a_minute (minutes : ℕ) : List RateCall :=
  (List.range minutes).map fun minute : ℕ => ⟨service, 60 * (minute : ℚ)⟩

theorem in_order_one_a_minute (minutes : ℕ) : InOrder (one_a_minute minutes) := by
  rw [InOrder, one_a_minute, List.pairwise_map]
  refine List.pairwise_lt_range.imp fun {a b} hlt => ?_
  dsimp only
  have hcast : (a : ℚ) ≤ b := by exact_mod_cast hlt.le
  linarith

theorem card_one_a_minute (minutes : ℕ) : (items (one_a_minute minutes)).card = minutes := by
  have hwindow : ∀ minute : ℕ, (⟨service, 60 * minute⟩ : RateCall).window = minute := by
    intro minute
    rw [RateCall.window, mul_div_cancel_left₀ _ (by norm_num)]
    exact Int.floor_natCast minute
  rw [items, List.toFinset_card_of_nodup, List.length_map, one_a_minute, List.length_map,
    List.length_range]
  rw [one_a_minute, List.map_map]
  refine List.nodup_range.map fun a b heq => ?_
  have hwindows := congrArg Prod.snd heq
  simp only [Function.comp_apply, RateCall.item, hwindow] at hwindows
  exact_mod_cast hwindows

theorem local_rate_limit_exact_one_a_minute : Exact 60 (one_a_minute 2) := by
  apply (local_rate_limit_exact_iff 60 (one_a_minute 2) (in_order_one_a_minute 2)).mpr
  rw [← card_items, card_one_a_minute]
  omega

theorem one_a_minute_succ (minutes : ℕ) : one_a_minute (minutes + 1) =
    one_a_minute minutes ++ [⟨service, 60 * (minutes : ℚ)⟩] := by
  rw [one_a_minute, List.range_succ, List.map_append]
  rfl

-- Ten thousand and one minutes fill the table until it is replaced, and the call of the
-- next one ends with a `KeyError`.
theorem local_rate_limit_key_error :
    InOrder (one_a_minute 10002) ∧ ¬Exact 60 (one_a_minute 10002) ∧
      ((after { rate_limit := 60 } (one_a_minute 10001)).enforce_rate_limit
          ⟨service, 60 * (10001 : ℕ)⟩).1 =
        .error (.KeyError (RateCall.item ⟨service, 60 * (10001 : ℕ)⟩)) := by
  have horder := in_order_one_a_minute 10002
  have hcard := card_one_a_minute 10002
  refine ⟨horder, fun hexact => ?_, ?_⟩
  · have hbound := (follows_run 60 horder).1.mp hexact
    omega
  · have hsplit : one_a_minute 10002 = one_a_minute 10001 ++ [⟨service, 60 * (10001 : ℕ)⟩] :=
      one_a_minute_succ 10001
    rw [hsplit] at horder hcard
    have hfollows := (follows_run 60 horder.concat.1).2 (le_of_eq (card_one_a_minute 10001))
    rcases enforce_rate_limit_cases hfollows horder.concat.2 with ⟨hle, -⟩ | ⟨-, herror⟩
    · omega
    · exact herror

end ResearchAgent.Service
