import ResearchAgent.JobQueue.Attempts
import ResearchAgent.JobQueue.Copies
import ResearchAgent.JobQueue.Moves
import ResearchAgent.JobQueue.Origins

namespace ResearchAgent.JobQueue

open Library JobTable Attempts

section Latest

variable {ι : Type}

-- What the latest claim of the job has returned.
def latest (job_id : String) : List (Performed ι) → Option JobEnvelope
  | [] => none
  | performed :: rest =>
      match performed.call, performed.result with
      | .claim _ _, .ok (.claimed (some envelope)) =>
          if envelope.job_id = job_id then some envelope else latest job_id rest
      | _, _ => latest job_id rest

-- A claim is ended by its own envelope, and by no older one.
def OfLatest (trace : List (Performed ι)) : QueueCall → Prop
  | .ack envelope => latest envelope.job_id trace = some envelope
  | .retry envelope _ => latest envelope.job_id trace = some envelope
  | _ => True

theorem latest_of_head {job_id : String} {trace : List (Performed ι)} {attempt : ℤ}
    (h : (attempts job_id trace).head? = some attempt) :
    ∃ envelope, latest job_id trace = some envelope ∧ envelope.attempt = attempt := by
  induction trace with
  | nil => cases h
  | cons performed rest ih =>
      obtain ⟨worker, moment, call, result⟩ := performed
      cases call with
      | claim set_order timeout =>
          rcases result with error | (value | (_ | envelope) | value | value | value)
          · exact ih h
          · exact ih h
          · exact ih h
          · simp only [attempts, count_claim] at h
            simp only [latest]
            split
            · next hid =>
              rw [if_pos hid] at h
              exact ⟨envelope, rfl, Option.some.inj h⟩
            · next hid =>
              rw [if_neg hid] at h
              exact ih h
          · exact ih h
          · exact ih h
          · exact ih h
      | enqueue other request principal_id tenant_id =>
          rcases result with error | ((_ | _) | value | value | value | value)
          · exact ih h
          · exact ih h
          · simp only [attempts, count_claim] at h
            split at h
            · cases h
            · exact ih h
          · exact ih h
          · exact ih h
          · exact ih h
          · exact ih h
      | ack | renew | retry | recover_stale | dead_letters | remove_dead_letter
      | dead_letter_count => exact ih h

end Latest

namespace Caps

-- Where a claim leaves the job when it is ended: among the dead letters if it was the last
-- one allowed, and else back where `back` says.
def ended (cfg : Config) (claims : ℕ) (envelope : JobEnvelope) (error : String)
    (back : JobEnvelope → JobState) : JobState :=
  if (claims : ℤ) = cfg.max_attempts then .dead { envelope with last_error := some error }
  else back { envelope with last_error := some error }

-- Where a job is that was handed out so many times since it was admitted.
def Exact (cfg : Config) (claims : ℕ) (job_id : String) (state : JobState) : Prop :=
  (∀ envelope ∈ state.envelope, envelope.job_id = job_id ∧ envelope.attempt = claims) ∧
  match state with
  | .ready _ | .scheduled _ _ => (claims : ℤ) < cfg.max_attempts
  | .inflight _ _ => 1 ≤ claims ∧ (claims : ℤ) ≤ cfg.max_attempts
  | .dead _ => (claims : ℤ) = cfg.max_attempts
  | .absent => True

variable {cfg : Config} {claims : ℕ} {job_id : String} {state state' : JobState}
  {clock : ℚ≥0 → Prop} {call : QueueCall} {reply : Except QueueError QueueReply}
  {attempts : List ℤ}

theorem Exact.expired {envelope : JobEnvelope} {lease_until : ℚ}
    (h : Exact cfg claims job_id (.inflight envelope lease_until)) :
    JobState.recovered cfg envelope = ended cfg claims envelope "lease expired" .ready := by
  obtain ⟨hkey, hpos, hle⟩ := h
  obtain ⟨-, hattempt⟩ := hkey envelope rfl
  unfold JobState.recovered ended
  by_cases hcap : (claims : ℤ) = cfg.max_attempts
  · rw [if_pos (by omega), if_pos hcap]
  · rw [if_neg (by omega), if_neg hcap]

theorem Exact.ended {envelope : JobEnvelope} {error : String} {back : JobEnvelope → JobState}
    (hle : (claims : ℤ) ≤ cfg.max_attempts) (hid : envelope.job_id = job_id)
    (hattempt : envelope.attempt = claims)
    (hback : (claims : ℤ) < cfg.max_attempts → ∀ other : JobEnvelope, other.job_id = job_id →
      other.attempt = claims → Exact cfg claims job_id (back other)) :
    Exact cfg claims job_id (ended cfg claims envelope error back) := by
  unfold Caps.ended
  split
  · next hcap => exact ⟨by rintro _ ⟨⟩; exact ⟨hid, hattempt⟩, hcap⟩
  · next hcap => exact hback (lt_of_le_of_ne hle hcap) _ hid hattempt

theorem Exact.expire (h : Exact cfg claims job_id state) (now : ℚ≥0) :
    Exact cfg claims job_id (state.expire cfg now) := by
  cases state with
  | inflight envelope lease_until =>
      dsimp only [JobState.expire]
      split
      · rw [h.expired]
        obtain ⟨hkey, -, hle⟩ := h
        obtain ⟨hid, hattempt⟩ := hkey envelope rfl
        refine Exact.ended hle hid hattempt fun hlt other hid hattempt => ⟨?_, hlt⟩
        rintro _ ⟨⟩
        exact ⟨hid, hattempt⟩
      · exact h
  | absent | ready | scheduled | dead => exact h

theorem Exact.promoted (h : Exact cfg claims job_id state)
    (hpromoted : JobState.Promoted clock state state') : Exact cfg claims job_id state' := by
  cases hpromoted with
  | left => exact h
  | due => exact h

-- The step lemma: one call, as one job sees it.
theorem Exact.move (h : Exact cfg claims job_id state) (hattempts : attempts = countdown claims)
    (hmove : Move cfg clock job_id call reply state state')
    (hlatest : ∀ envelope error, call = .retry envelope error → envelope.job_id = job_id →
      1 ≤ claims → envelope.attempt = claims) :
    ∃ claims', count_claim job_id call reply attempts = countdown claims' ∧
      Exact cfg claims' job_id state' := by
  cases hmove with
  | left _ hquiet => exact ⟨claims, (count_of_quiet hquiet).trans hattempts, h⟩
  | admitted =>
      have hpos := cfg.max_attempts_pos
      refine ⟨0, if_pos rfl, ?_, by push_cast; omega⟩
      rintro _ ⟨⟩
      exact ⟨rfl, rfl⟩
  | claimed hpromoted hpopped =>
      have hwaiting := (h.expire _).promoted hpromoted
      cases hpopped with
      | left _ hother =>
          refine ⟨claims, ?_, hwaiting⟩
          rw [← hattempts]
          exact count_of_quiet (quiet_of_other hother)
      | @handed envelope hid =>
          obtain ⟨hkey, hlt⟩ := hwaiting
          obtain ⟨-, hattempt⟩ := hkey envelope rfl
          refine ⟨claims + 1, ?_, ?_, by omega, by push_cast; omega⟩
          · rw [hattempts]
            simp only [count_claim, if_pos hid, hattempt]
            rfl
          · rintro _ ⟨⟩
            exact ⟨hid, by simp only [hattempt]; push_cast; rfl⟩
  | acked =>
      refine ⟨claims, hattempts, ?_, trivial⟩
      rintro _ ⟨⟩
  | renewed => exact ⟨claims, hattempts, h.1, h.2⟩
  | buried hid hcap =>
      have hattempt := hlatest _ _ rfl hid h.2.1
      refine ⟨claims, hattempts, ?_, by have := h.2.2; omega⟩
      rintro _ ⟨⟩
      exact ⟨hid, hattempt⟩
  | delayed hid hcap =>
      have hattempt := hlatest _ _ rfl hid h.2.1
      refine ⟨claims, hattempts, ?_, by omega⟩
      rintro _ ⟨⟩
      exact ⟨hid, hattempt⟩
  | recovered => exact ⟨claims, hattempts, h.expire _⟩
  | removed =>
      refine ⟨claims, hattempts, ?_, trivial⟩
      rintro _ ⟨⟩

-- Every job, with its count read off the trace.
def AllExact {ι : Type} (cfg : Config) (trace : List (Performed ι)) (table : JobTable) : Prop :=
  ∀ job_id, ∃ claims, Attempts.attempts job_id trace = countdown claims ∧
    Exact cfg claims job_id (table.jobs job_id)

theorem exact_empty {ι : Type} : AllExact cfg ([] : List (Performed ι)) .empty :=
  fun _ => ⟨0, rfl, nofun, trivial⟩

theorem AllExact.length {ι : Type} {trace : List (Performed ι)} {table : JobTable}
    (h : AllExact cfg trace table) (job_id : String) :
    Exact cfg (Attempts.attempts job_id trace).length job_id (table.jobs job_id) := by
  obtain ⟨claims, hattempts, hexact⟩ := h job_id
  rwa [hattempts, length_countdown]

-- The envelope of the latest claim of a job in flight carries its number.
theorem AllExact.attempt_of_latest {ι : Type} {trace : List (Performed ι)} {table : JobTable}
    (h : AllExact cfg trace table) {envelope : JobEnvelope}
    (hlatest : latest envelope.job_id trace = some envelope)
    (hpos : 1 ≤ (Attempts.attempts envelope.job_id trace).length) :
    envelope.attempt = (Attempts.attempts envelope.job_id trace).length := by
  obtain ⟨claims, hattempts, -⟩ := h envelope.job_id
  rw [hattempts, length_countdown] at hpos ⊢
  obtain ⟨claims, rfl⟩ := Nat.exists_eq_add_of_le' hpos
  have hhead : (Attempts.attempts envelope.job_id trace).head? = some ((claims + 1 : ℕ) : ℤ) :=
    congrArg List.head? hattempts
  obtain ⟨other, hother, hattempt⟩ := latest_of_head hhead
  rw [hlatest] at hother
  cases hother
  exact hattempt

theorem AllExact.cons {ι : Type} {trace : List (Performed ι)} {table table' : JobTable}
    {performed : Performed ι} (h : AllExact cfg trace table) (hkeyed : table.Keyed)
    (hanswer : Answers cfg clock table performed.call.delivered reply table')
    (hsame : SameAnswer performed.result reply) (hlatest : OfLatest trace performed.call) :
    AllExact cfg (performed :: trace) table' := by
  intro job_id
  obtain ⟨claims, hattempts, hexact⟩ := h job_id
  obtain ⟨claims', hcount, hexact'⟩ := hexact.move hattempts (hanswer.moves hkeyed job_id)
    (fun envelope error hcall hid hpos => by
      obtain ⟨other, hother, rfl⟩ := Origins.retry_of_delivered hcall
      subst hid
      rw [hother] at hlatest
      rw [JobEnvelope.delivered_job_id] at hattempts
      have hattempt := h.attempt_of_latest hlatest (by rwa [hattempts, length_countdown])
      rwa [hattempts, length_countdown] at hattempt)
  refine ⟨claims', ?_, hexact'⟩
  rw [← hcount]
  exact count_claim_congr hsame job_id _

theorem exact_of_run {ι : Type} {trace : List (Performed ι)} {backend : Backend}
    (hrun : Calls cfg (fun trace backend performed =>
      backend.Marked performed.moment performed.call ∧ OfLatest trace performed.call) trace
      backend) :
    ∃ table, backend.Refines table ∧ AllExact cfg trace table := by
  induction hrun with
  | memory => exact ⟨.empty, MemoryQueue.refines_empty, exact_empty⟩
  | redis now => exact ⟨.empty, Redis.refines_empty now, exact_empty⟩
  | call _ worker moment call hallowed ih =>
      obtain ⟨table, hrefines, hexact⟩ := ih
      obtain ⟨reply, table', hanswer, hsame, hrefines'⟩ :=
        hrefines.answers_marked cfg hallowed.1
      exact ⟨table', hrefines', hexact.cons hrefines.keyed hanswer hsame hallowed.2⟩

end Caps

-- All that the queue has under an id is what the state says.
structure Backend.Entry.Holds (entry : Backend.Entry) (state : JobState) : Prop where
  ready : entry.ready = state.is_ready.toNat
  inflight : entry.inflight = state.lease.isSome.toNat
  lease : entry.lease = state.lease
  scheduled : entry.scheduled = state.due
  dead : entry.dead = state.is_dead.toNat
  envelope : ∀ envelope ∈ state.envelope, ∃ stored : JobEnvelope,
    entry.envelope = some stored.to_json ∧ stored.delivered = envelope.delivered
  absent : state.envelope = none → entry.envelope = none

-- States that differ in no more than what a delivered envelope lacks are held alike.
theorem Backend.Entry.Holds.of_delivered {entry : Backend.Entry} {state state' : JobState}
    (h : entry.Holds state) (hready : state'.is_ready = state.is_ready)
    (hlease : state'.lease = state.lease) (hdue : state'.due = state.due)
    (hdead : state'.is_dead = state.is_dead)
    (henvelope : state'.envelope.map JobEnvelope.delivered =
      state.envelope.map JobEnvelope.delivered) : entry.Holds state' := by
  refine ⟨hready ▸ h.ready, hlease ▸ h.inflight, hlease ▸ h.lease, hdue ▸ h.scheduled,
    hdead ▸ h.dead, ?_, ?_⟩
  · intro envelope hmem
    have hsome : state.envelope.map JobEnvelope.delivered = some envelope.delivered := by
      rw [← henvelope, hmem]
      rfl
    obtain ⟨other, hother, hdelivered⟩ := Option.map_eq_some_iff.mp hsome
    obtain ⟨stored, hstored, hsame⟩ := h.envelope other hother
    exact ⟨stored, hstored, hsame.trans hdelivered⟩
  · intro hnone
    rw [hnone] at henvelope
    exact h.absent (Option.map_eq_none_iff.mp henvelope.symm)

theorem Backend.Refines.holds {backend : Backend} {table : JobTable} (h : backend.Refines table)
    (job_id : String) : (backend.entry job_id).Holds (table.jobs job_id) := by
  have hready := count_eq_toNat table.ready_nodup (table.mem_ready job_id)
  have hdead := count_eq_toNat table.dead_nodup (table.mem_dead job_id)
  cases backend with
  | memory queue =>
      have hlease := MemoryQueue.Refines.lease h job_id
      have henvelope := MemoryQueue.Refines.envelope h job_id
      refine ⟨?_, ?_, hlease, MemoryQueue.Refines.due h job_id, ?_, ?_, ?_⟩
      · simpa only [entry, MemoryQueue.Refines.ready h] using hready
      · simp only [entry, Dict.contains, hlease]
      · simpa only [entry, MemoryQueue.Refines.dead h] using hdead
      · intro envelope hmem
        obtain ⟨stored, hs, rfl, -⟩ := MemoryQueue.Refines.stored h job_id hmem
        exact ⟨stored, by simp [entry, hs], rfl⟩
      · intro hnone
        rw [hnone, Option.map_eq_none_iff] at henvelope
        simp [entry, henvelope]
  | redis server =>
      refine ⟨?_, Redis.Refines.inflight h job_id, Redis.Refines.lease h job_id,
        Redis.Refines.due h job_id, ?_, ?_, ?_⟩
      · simpa only [entry, Redis.Refines.ready h, List.count_reverse] using hready
      · simpa only [entry, Redis.Refines.dead h, List.count_reverse] using hdead
      · intro envelope hmem
        obtain ⟨stored, hs, rfl, -⟩ := Redis.Refines.stored h job_id hmem
        exact ⟨stored, hs, rfl⟩
      · intro hnone
        have henvelope := Redis.Refines.envelope h job_id
        rw [hnone] at henvelope
        exact henvelope

namespace Caps

-- Nothing has happened to the job.
def Kept (before after : Backend.Entry) : Prop := ∃ state, before.Holds state ∧ after.Holds state

-- The lease was over, and the claim has been ended.
def Expires (cfg : Config) (claims : ℕ) (before after : Backend.Entry) : Prop :=
  ∃ current lease_until, before.Holds (.inflight current lease_until) ∧
    current.attempt = claims ∧ after.Holds (ended cfg claims current "lease expired" .ready)

-- The lease was over, and the job, which has claims left, is handed out once more.
def HandedOn (cfg : Config) (claims : ℕ) (moment : Moment) (before after : Backend.Entry)
    (result : Except QueueError QueueReply) : Prop :=
  (claims : ℤ) < cfg.max_attempts ∧ ∃ current lease_until now claimed,
    before.Holds (.inflight current lease_until) ∧ current.attempt = claims ∧
    result = .ok (.claimed (some claimed)) ∧ claimed.job_id = current.job_id ∧
    claimed.attempt = claims + 1 ∧ claimed.last_error = some "lease expired" ∧
    moment.shows now ∧ after.Holds (.inflight claimed (cfg.lease_until now))

section Queue

variable {ι : Type} {cfg : Config} {trace : List (Performed ι)} {backend : Backend}
  {table : JobTable}

theorem AllExact.attempt (h : AllExact cfg trace table) (hrefines : backend.Refines table)
    {job_id : String} (hlive : backend.Live job_id) :
    ∃ stored : JobEnvelope, (backend.entry job_id).envelope = some stored.to_json ∧
      stored.job_id = job_id ∧ stored.attempt = (attempts job_id trace).length := by
  have hpresent := hrefines.not_absent_of_live hlive
  have hexact := h.length job_id
  have hholds := hrefines.holds job_id
  obtain ⟨envelope, henvelope⟩ : ∃ envelope, (table.jobs job_id).envelope = some envelope := by
    cases hj : table.jobs job_id with
    | absent => exact absurd hj hpresent
    | ready | inflight | scheduled | dead => exact ⟨_, rfl⟩
  obtain ⟨hid, hattempt⟩ := hexact.1 envelope henvelope
  obtain ⟨stored, hstored, hdelivered⟩ := hholds.envelope envelope henvelope
  have hid' := congrArg JobEnvelope.job_id hdelivered
  have hattempt' := congrArg JobEnvelope.attempt hdelivered
  exact ⟨stored, hstored, hid'.trans hid, hattempt'.trans hattempt⟩

-- The state of a job is read up to the time of its last retry.
theorem holds_of_delivered {entry : Backend.Entry} {claims : ℕ} {envelope : JobEnvelope}
    {error : String} {due : ℚ}
    (h : entry.Holds (ended cfg claims envelope.delivered error (.scheduled · due))) :
    entry.Holds (ended cfg claims envelope error (.scheduled · due)) := by
  unfold ended at h ⊢
  split
  · next hcap =>
    rw [if_pos hcap] at h
    exact h.of_delivered rfl rfl rfl rfl rfl
  · next hcap =>
    rw [if_neg hcap] at h
    exact h.of_delivered rfl rfl rfl rfl rfl

theorem AllExact.retry (h : AllExact cfg trace table) (hrefines : backend.Refines table)
    (moment : Moment) {envelope : JobEnvelope} (error : String)
    (hlatest : latest envelope.job_id trace = some envelope)
    (hflight : backend.InFlight envelope.job_id) :
    ∃ outcome, (backend.call cfg moment (.retry envelope error)).1 = .ok (.outcome outcome) ∧
      (outcome = .dead_letter ↔
        ((attempts envelope.job_id trace).length : ℤ) = cfg.max_attempts) ∧
      ((backend.call cfg moment (.retry envelope error)).2.entry envelope.job_id).Holds
        (ended cfg (attempts envelope.job_id trace).length envelope error
          (.scheduled · (cfg.retry_at moment.now envelope))) := by
  obtain ⟨hreply, hrefines'⟩ := hrefines.retries cfg moment envelope error
  have hexact := h.length envelope.job_id
  obtain ⟨lease_until, hlease⟩ := Option.isSome_iff_exists.mp ((hrefines.inFlight_iff _).mp hflight)
  obtain ⟨current, hj⟩ := inflight_of_lease hlease
  rw [hj] at hexact
  obtain ⟨-, hpos, hle⟩ := hexact
  have hattempt := h.attempt_of_latest hlatest hpos
  have hholds := hrefines'.holds envelope.job_id
  rw [hreply]
  unfold JobTable.retry at hholds ⊢
  rw [JobEnvelope.delivered_job_id, hj] at hholds ⊢
  dsimp only at hholds ⊢
  by_cases hcap : ((attempts envelope.job_id trace).length : ℤ) = cfg.max_attempts
  · have hge : envelope.delivered.attempt ≥ cfg.max_attempts := (hattempt.trans hcap).ge
    rw [if_pos hge] at hholds ⊢
    rw [put_jobs, if_pos rfl] at hholds
    refine ⟨.dead_letter, rfl, iff_of_true rfl hcap, holds_of_delivered ?_⟩
    rwa [ended, if_pos hcap]
  · have hlt : ¬envelope.delivered.attempt ≥ cfg.max_attempts := by
      rw [JobEnvelope.delivered_attempt]
      omega
    rw [if_neg hlt] at hholds ⊢
    rw [put_jobs, if_pos rfl] at hholds
    refine ⟨.scheduled, rfl, iff_of_false nofun hcap, holds_of_delivered ?_⟩
    rwa [ended, if_neg hcap]

-- A job in flight whose lease is over is expired.
theorem AllExact.expires (h : AllExact cfg trace table) (hrefines : backend.Refines table)
    {job_id : String} {now : ℚ≥0} {current : JobEnvelope} {lease_until : ℚ}
    (hj : table.jobs job_id = .inflight current lease_until) (hle : lease_until ≤ (now : ℚ)) :
    (table.jobs job_id).expire cfg now =
        ended cfg (attempts job_id trace).length current "lease expired" .ready ∧
      (backend.entry job_id).Holds (.inflight current lease_until) ∧
      current.job_id = job_id ∧ current.attempt = (attempts job_id trace).length := by
  have hexact := h.length job_id
  have hholds := hrefines.holds job_id
  rw [hj] at hexact hholds ⊢
  obtain ⟨hid, hattempt⟩ := hexact.1 current rfl
  refine ⟨?_, hholds, hid, hattempt⟩
  dsimp only [JobState.expire]
  rw [if_pos hle, hexact.expired]

theorem AllExact.recover_stale (h : AllExact cfg trace table) (hrefines : backend.Refines table)
    (moment : Moment) (set_order : SetOrder) :
    ∃ ids : List String, ids.Nodup ∧
      (∀ job_id, job_id ∈ ids ↔
        ∃ lease_until ∈ (backend.entry job_id).lease, lease_until ≤ (moment.now : ℚ)) ∧
      (backend.call cfg moment (.recover_stale set_order)).1 = .ok (.count ids.length) ∧
      ∀ job_id, if job_id ∈ ids then
          Expires cfg (attempts job_id trace).length (backend.entry job_id)
            ((backend.call cfg moment (.recover_stale set_order)).2.entry job_id)
        else Kept (backend.entry job_id)
          ((backend.call cfg moment (.recover_stale set_order)).2.entry job_id) := by
  obtain ⟨ids, hexpired, hreply, hrefines'⟩ := hrefines.recovers cfg moment set_order
  refine ⟨ids, hexpired.nodup, fun job_id => ?_, hreply, fun job_id => ?_⟩
  · rw [hrefines.lease_eq]
    exact hexpired.mem job_id
  have hafter := hrefines'.holds job_id
  rw [hexpired.jobs] at hafter
  split
  · next hmem =>
    obtain ⟨lease_until, hlease, hle⟩ := (hexpired.mem job_id).mp hmem
    obtain ⟨current, hj⟩ := inflight_of_lease hlease
    obtain ⟨hexpire, hbefore, -, hattempt⟩ := h.expires hrefines hj hle
    rw [hexpire] at hafter
    exact ⟨current, lease_until, hbefore, hattempt, hafter⟩
  · next hmem =>
    rw [← hexpired.jobs, recover_all_jobs_ne hmem] at hafter
    exact ⟨_, hrefines.holds job_id, hafter⟩

theorem AllExact.claim (h : AllExact cfg trace table) (hrefines : backend.Refines table)
    (moment : Moment) (set_order : SetOrder) {timeout : ℚ} (htimeout : 0 < timeout)
    {job_id : String} {lease_until : ℚ}
    (hlease : lease_until ∈ (backend.entry job_id).lease) :
    if lease_until ≤ (moment.now : ℚ) then
      Expires cfg (attempts job_id trace).length (backend.entry job_id)
          ((backend.call cfg moment (.claim set_order timeout)).2.entry job_id) ∨
        HandedOn cfg (attempts job_id trace).length moment (backend.entry job_id)
          ((backend.call cfg moment (.claim set_order timeout)).2.entry job_id)
          (backend.call cfg moment (.claim set_order timeout)).1
    else Kept (backend.entry job_id)
      ((backend.call cfg moment (.claim set_order timeout)).2.entry job_id) := by
  obtain ⟨now, claimed, table', ⟨ids, waiting, hshows, hexpired, hpromotes, hpop⟩, hsame,
    hrefines'⟩ := hrefines.claims cfg moment set_order htimeout
  rw [hrefines.lease_eq] at hlease
  obtain ⟨current, hj⟩ := inflight_of_lease hlease
  have hpromoted := hpromotes.jobs job_id
  have hpopped := @pop_jobs cfg _ ((hrefines.keyed.expired hexpired).promotes hpromotes) now
    job_id
  have hafter := hrefines'.holds job_id
  rw [hexpired.jobs] at hpromoted
  rw [hpop] at hpopped
  dsimp only at hpopped
  generalize waiting.jobs job_id = before at hpromoted hpopped
  generalize table'.jobs job_id = after at hpopped hafter
  split
  · next hle =>
    obtain ⟨hexpire, hbefore, hid, hattempt⟩ := h.expires hrefines hj hle
    rw [hexpire] at hpromoted
    by_cases hcap : ((attempts job_id trace).length : ℤ) = cfg.max_attempts
    · rw [ended, if_pos hcap] at hpromoted
      cases hpromoted
      cases hpopped
      refine .inl ⟨current, lease_until, hbefore, hattempt, ?_⟩
      rwa [ended, if_pos hcap]
    · rw [ended, if_neg hcap] at hpromoted
      cases hpromoted
      cases hpopped with
      | left =>
          refine .inl ⟨current, lease_until, hbefore, hattempt, ?_⟩
          rwa [ended, if_neg hcap]
      -- The job that has just expired may be the first of the line.
      | handed =>
          obtain ⟨-, -, hmax⟩ := hj ▸ h.length job_id
          obtain ⟨_, hresult, hclaimed⟩ := hsame.eq_claimed
          obtain ⟨handed, rfl, hdelivered⟩ := Option.map_eq_some_iff.mp hclaimed
          have hid' := congrArg JobEnvelope.job_id hdelivered
          have hattempt' := congrArg JobEnvelope.attempt hdelivered
          have herror := congrArg JobEnvelope.last_error hdelivered
          refine .inr ⟨lt_of_le_of_ne hmax hcap, current, lease_until, now, handed, hbefore,
            hattempt, hresult, hid', ?_, herror, hshows, ?_⟩
          · exact hattempt'.trans (congrArg (· + 1) hattempt)
          · exact hafter.of_delivered rfl rfl rfl rfl (congrArg some hdelivered)
  · next hle =>
    refine ⟨.inflight current lease_until, hj ▸ hrefines.holds job_id, ?_⟩
    rw [hj] at hpromoted
    dsimp only [JobState.expire] at hpromoted
    rw [if_neg hle] at hpromoted
    cases hpromoted
    cases hpopped
    exact hafter

end Queue

end Caps

open Caps

end ResearchAgent.JobQueue
