import ResearchAgent.JobQueue.Backoff
import ResearchAgent.Library.Lines

namespace ResearchAgent.JobQueue

open Library JobTable

-- What a call with its answer means to the line of the ready jobs.
def line_event (call : QueueCall) (result : Except QueueError QueueReply) : LineEvent String :=
  match call, result with
  | .enqueue job_id _ _ _, .ok (.bool true) => .comes job_id
  | .claim _ _, .ok (.claimed (some envelope)) => .served envelope.job_id
  | _, _ => .joined

namespace JobTable

variable {cfg : Config} {clock : ℚ≥0 → Prop} {table table' : JobTable} {call : QueueCall}
  {reply : Except QueueError QueueReply}

-- A job that is not ready leaves the line alone, whatever becomes of it, unless it joins.
theorem put_ready {job_id : String} (h : (table.jobs job_id).is_ready = false)
    (state : JobState) :
    (table.put job_id state).ready = table.ready ++ if state.is_ready then [job_id] else [] :=
  rejoin_of_not_mem (table.not_mem_ready job_id h) state.is_ready

theorem recover_ready (cfg : Config) (table : JobTable) (job_id : String) :
    table.ready <+: (table.recover cfg job_id).ready := by
  unfold recover
  split
  · next hj =>
    rw [put_ready (by simp [hj])]
    exact List.prefix_append _ _
  · exact List.prefix_refl _

theorem recover_all_ready (cfg : Config) (ids : List String) (table : JobTable) :
    table.ready <+: (table.recover_all cfg ids).ready := by
  induction ids generalizing table with
  | nil => exact List.prefix_refl _
  | cons job_id rest ih => exact (recover_ready cfg table job_id).trans (ih _)

theorem promote_ready (table : JobTable) (job_id : String) :
    table.ready <+: (table.promote job_id).ready := by
  unfold promote
  split
  · next hj =>
    rw [put_ready (by simp [hj])]
    exact List.prefix_append _ _
  · exact List.prefix_refl _

theorem promote_all_ready (ids : List String) (table : JobTable) :
    table.ready <+: (table.promote_all ids).ready := by
  induction ids generalizing table with
  | nil => exact List.prefix_refl _
  | cons job_id rest ih => exact (promote_ready table job_id).trans (ih _)

theorem Promotes.ready (h : Promotes clock table table') : table.ready <+: table'.ready := by
  induction h with
  | last => exact promote_all_ready _ _
  | again _ _ _ ih => exact (promote_all_ready _ _).trans ih

theorem joined_of_prefix {line line' : List String} (h : line <+: line') :
    LineStep .joined line line' := by
  obtain ⟨added, rfl⟩ := h
  exact .joined line added

-- A change of a job that is not ready is no more than a job that joins.
theorem joined_of_put {job_id : String} (h : (table.jobs job_id).is_ready = false)
    (state : JobState) : LineStep .joined table.ready (table.put job_id state).ready := by
  rw [put_ready h]
  exact .joined _ _

theorem joined_of_same (table : JobTable) : LineStep .joined table.ready table.ready :=
  joined_of_prefix (List.prefix_refl _)

-- The first of the line is handed out, after those who have joined meanwhile.
theorem pop_line (hkeyed : table.Keyed) (now : ℚ≥0) {line : List String} {set_order : SetOrder}
    {timeout : ℚ} (h : line <+: table.ready) :
    LineStep (line_event (.claim set_order timeout) (.ok (.claimed (table.pop cfg now).1)))
      line (table.pop cfg now).2.ready := by
  cases hready : table.ready with
  | nil =>
      rw [pop_of_empty cfg now hready, hready]
      exact joined_of_prefix (hready ▸ h)
  | cons job_id rest =>
      obtain ⟨envelope, hj⟩ :=
        ready_of_is_ready ((table.mem_ready job_id).mp (by simp [hready]))
      have hnodup : (job_id :: rest).Nodup := hready ▸ table.ready_nodup
      have hid := hkeyed job_id envelope (by simp [hj])
      have hpop := pop_of_ready cfg now hready hj
      have hrest : (table.pop cfg now).2.ready = rest := by
        rw [hpop]
        show rejoin job_id false table.ready = rest
        rw [hready]
        exact rejoin_head hnodup
      rw [hrest, hpop]
      obtain ⟨added, hadded⟩ := h
      rw [hready] at hadded
      show LineStep (.served envelope.job_id) line rest
      rw [hid]
      exact .served hadded hnodup

-- What every call does to the line.
theorem Answers.line (h : Answers cfg clock table call reply table') (hkeyed : table.Keyed) :
    LineStep (line_event call reply) table.ready table'.ready := by
  cases h with
  | enqueue_missing | enqueue_seen | claim_timeout | dead_letters | dead_letter_count =>
      exact joined_of_same table
  | @enqueue_new job_id request principal_id tenant_id now now' _ _ _ _ habsent =>
      show LineStep (.comes job_id) table.ready (rejoin job_id true table.ready)
      rw [rejoin_of_not_mem (table.not_mem_ready job_id (by simp [habsent]))]
      exact .comes job_id table.ready
  | @claim set_order timeout now ids waiting now' _ _ hexpired hpromotes _ =>
      exact pop_line ((hkeyed.expired hexpired).promotes hpromotes) now'
        ((recover_all_ready cfg ids table).trans hpromotes.ready)
  | @ack envelope =>
      unfold JobTable.ack
      split
      · next hj => exact joined_of_put (by simp [hj]) _
      · exact joined_of_same table
  | @renew envelope now =>
      unfold JobTable.renew
      split
      · next hj => exact joined_of_put (by simp [hj]) _
      · exact joined_of_same table
  | @retry envelope error now =>
      unfold JobTable.retry
      cases hj : table.jobs envelope.job_id with
      | absent | ready | scheduled | dead => exact joined_of_same table
      | inflight current lease_until =>
          dsimp only
          split
          · exact joined_of_put (by simp [hj]) _
          · exact joined_of_put (by simp [hj]) _
  | @recover_stale _ _ ids => exact joined_of_prefix (recover_all_ready cfg ids table)
  | @remove_dead_letter envelope =>
      unfold JobTable.remove_dead_letter
      split
      · next hj => exact joined_of_put (by simp [hj]) _
      · exact joined_of_same table

end JobTable

section Runs

variable {ι : Type} {cfg : Config} {trace : List (Performed ι)} {backend : Backend}
  {table : JobTable}

def Performed.line_event (performed : Performed ι) : LineEvent String :=
  JobQueue.line_event performed.call performed.result

-- The call has admitted the job.
def Performed.Admits (performed : Performed ι) (job_id : String) : Prop :=
  performed.result = .ok (.bool true) ∧ ∃ request principal_id tenant_id,
    performed.call = .enqueue job_id request principal_id tenant_id

-- The call has handed the job out.
def Performed.Claims (performed : Performed ι) (job_id : String) : Prop :=
  (∃ set_order timeout, performed.call = .claim set_order timeout) ∧
    ∃ envelope, performed.result = .ok (.claimed (some envelope)) ∧ envelope.job_id = job_id

-- No job is admitted twice.
def EnqueuedOnce (trace : List (Performed ι)) (_ : Backend) (performed : Performed ι) : Prop :=
  ∀ job_id, performed.Admits job_id → ¬Admitted job_id trace

theorem line_event_comes {performed : Performed ι} {job_id : String} :
    performed.line_event = .comes job_id ↔ performed.Admits job_id := by
  obtain ⟨worker, moment, call, result⟩ := performed
  constructor
  · intro h
    unfold Performed.line_event JobQueue.line_event at h
    split at h
    · cases h
      exact ⟨‹_›, _, _, _, ‹_›⟩
    · cases h
    · cases h
  · rintro ⟨rfl, request, principal_id, tenant_id, rfl⟩
    rfl

theorem line_event_served {performed : Performed ι} {job_id : String} :
    performed.line_event = .served job_id ↔ performed.Claims job_id := by
  obtain ⟨worker, moment, call, result⟩ := performed
  constructor
  · intro h
    unfold Performed.line_event JobQueue.line_event at h
    split at h
    · cases h
    · cases h
      exact ⟨⟨_, _, ‹_›⟩, _, ‹_›, rfl⟩
    · cases h
  · rintro ⟨⟨set_order, timeout, rfl⟩, envelope, rfl, rfl⟩
    rfl

theorem mem_came {job_id : String} :
    job_id ∈ Line.came (trace.map Performed.line_event) ↔ Admitted job_id trace := by
  unfold Line.came Admitted
  rw [List.filterMap_map, List.mem_filterMap]
  refine exists_congr fun performed => and_congr_right fun _ => ?_
  rw [Function.comp_apply]
  refine Iff.trans ?_ line_event_comes
  cases performed.line_event <;> simp [LineEvent.newcomer]

theorem mem_served {job_id : String} :
    job_id ∈ Line.served (trace.map Performed.line_event) ↔
      ∃ performed ∈ trace, performed.Claims job_id := by
  unfold Line.served
  rw [List.filterMap_map, List.mem_filterMap]
  refine exists_congr fun performed => and_congr_right fun _ => ?_
  rw [Function.comp_apply]
  refine Iff.trans ?_ line_event_served
  cases performed.line_event <;> simp [LineEvent.customer]

theorem served_congr {envelope envelope' : Option JobEnvelope} {set_order : SetOrder}
    {timeout : ℚ} (h : envelope.map JobEnvelope.delivered = envelope'.map JobEnvelope.delivered) :
    line_event (.claim set_order timeout) (.ok (.claimed envelope)) =
      line_event (.claim set_order timeout) (.ok (.claimed envelope')) := by
  cases envelope with
  | none =>
      cases envelope' with
      | none => rfl
      | some envelope' => cases h
  | some envelope =>
      cases envelope' with
      | none => cases h
      | some envelope' =>
          have hid := congrArg JobEnvelope.job_id (Option.some.inj h)
          simp only [JobEnvelope.delivered_job_id] at hid
          simp only [line_event, hid]

-- Answers that say the same mean the same to the line.
theorem line_event_same {call : QueueCall} {result reply : Except QueueError QueueReply}
    (h : SameAnswer result reply) : line_event call result = line_event call.delivered reply := by
  rcases result with error | value <;> rcases reply with error' | value'
  · cases call <;> rfl
  · exact False.elim h
  · exact False.elim h
  have hreply : value.Same value' := h
  cases call with
  | enqueue job_id request principal_id tenant_id =>
      cases value <;> cases value' <;> first
        | exact False.elim hreply
        | rfl
        | exact congrArg (fun accepted => line_event _ (.ok (.bool accepted))) hreply
  | claim set_order timeout =>
      cases value <;> cases value' <;> first
        | exact False.elim hreply
        | rfl
        | exact served_congr hreply
  | ack | renew | retry | recover_stale | dead_letters | remove_dead_letter
  | dead_letter_count => rfl

-- What is known after a run: that every job in the table was admitted, and that those
-- never handed out stand in the line as they were admitted.
structure Lined (trace : List (Performed ι)) (table : JobTable) : Prop where
  admitted : ∀ job_id, table.jobs job_id ≠ .absent → Admitted job_id trace
  in_order : Line.InOrder (trace.map Performed.line_event) table.ready

theorem lined_empty : Lined ([] : List (Performed ι)) .empty where
  admitted _ hpresent := absurd rfl hpresent
  in_order := Line.inOrder_empty []

-- A job that is handed out is in flight afterwards.
theorem present_of_served {clock : ℚ≥0 → Prop} {call : QueueCall}
    {reply : Except QueueError QueueReply} {table' : JobTable} {job_id : String}
    (hanswer : Answers cfg clock table call reply table') (hkeyed : table.Keyed)
    (h : line_event call reply = .served job_id) : table'.jobs job_id ≠ .absent := by
  have hmove := hanswer.moves hkeyed job_id
  have hhanded : ¬Quiet job_id call reply := by
    unfold line_event at h
    split at h
    · cases h
    · cases h
      exact fun hquiet => hquiet rfl
    · cases h
  generalize table.jobs job_id = state at hmove
  generalize table'.jobs job_id = state' at hmove ⊢
  cases hmove with
  | left _ hquiet => exact absurd hquiet hhanded
  | claimed hpromoted hpopped =>
      cases hpopped with
      | left _ hother => exact absurd (quiet_of_other hother) hhanded
      | handed => exact JobState.noConfusion
  | acked | removed => exact absurd trivial hhanded
  | admitted | renewed | buried | delayed => exact JobState.noConfusion
  | recovered => exact absurd trivial hhanded

theorem Lined.cons {performed : Performed ι} {reply : Except QueueError QueueReply}
    {table' : JobTable} (h : Lined trace table) (hkeyed : table.Keyed)
    (hanswer : Answers cfg performed.moment.shows table performed.call.delivered reply table')
    (hsame : SameAnswer performed.result reply)
    (honce : ∀ job_id, performed.Admits job_id → ¬Admitted job_id trace) :
    Lined (performed :: trace) table' := by
  have hevent : performed.line_event = line_event performed.call.delivered reply :=
    line_event_same hsame
  have hadmitted (job_id : String) (hpresent : table'.jobs job_id ≠ .absent) :
      Admitted job_id (performed :: trace) :=
    Backoff.admitted_after (h.admitted job_id) (hanswer.moves hkeyed job_id) hsame hpresent
  have hline := hanswer.line hkeyed
  rw [← hevent] at hline
  refine ⟨hadmitted, h.in_order.step hline (fun job_id hcomes => ?_) fun job_id hserved => ?_⟩
  · rw [mem_came]
    exact honce job_id (line_event_comes.mp hcomes)
  · rw [mem_came]
    obtain ⟨earlier, hmem, hadmits⟩ :=
      hadmitted job_id (present_of_served hanswer hkeyed (hevent ▸ hserved))
    rcases List.mem_cons.mp hmem with rfl | hmem
    · have hcomes := line_event_comes.mpr hadmits
      rw [hserved] at hcomes
      cases hcomes
    · exact ⟨earlier, hmem, hadmits⟩

theorem lined_of_run (hrun : Calls cfg EnqueuedOnce trace backend) :
    ∃ table, backend.Refines table ∧ Lined trace table := by
  induction hrun with
  | memory => exact ⟨.empty, MemoryQueue.refines_empty, lined_empty⟩
  | redis now => exact ⟨.empty, Redis.refines_empty now, lined_empty⟩
  | call _ worker moment call honce ih =>
      obtain ⟨table, hrefines, hlined⟩ := ih
      have hmarked : Backend.Marked _ moment call :=
        Backoff.marked_of_once hrefines hlined.admitted
          fun job_id request principal_id tenant_id hcall hresult =>
            honce job_id ⟨hresult, request, principal_id, tenant_id, hcall⟩
      obtain ⟨reply, table', hanswer, hsame, hrefines'⟩ := hrefines.answers_marked cfg hmarked
      exact ⟨table', hrefines', hlined.cons hrefines.keyed hanswer hsame honce⟩

theorem came_append (newer older : List (Performed ι)) :
    Line.came ((newer ++ older).map Performed.line_event) =
      Line.came (newer.map Performed.line_event) ++ Line.came (older.map Performed.line_event) := by
  simp [Line.came]

theorem came_of_admits {performed : Performed ι} {job_id : String}
    (h : performed.Admits job_id) : Line.came ((performed :: trace).map Performed.line_event) =
      job_id :: Line.came (trace.map Performed.line_event) := by
  rw [List.map_cons, line_event_comes.mpr h]
  rfl

theorem nodup_came (hrun : Calls cfg EnqueuedOnce trace backend) :
    (Line.came (trace.map Performed.line_event)).Nodup := by
  induction hrun with
  | memory | redis => exact List.nodup_nil
  | @call trace backend _ worker moment call honce ih =>
      generalize (⟨worker, moment, call, (backend.call cfg moment call).1⟩ : Performed ι) =
        performed at honce
      cases hevent : performed.line_event with
      | comes job_id =>
          have hadmits := line_event_comes.mp hevent
          rw [came_of_admits hadmits]
          exact List.nodup_cons.mpr ⟨mt mem_came.mp (honce job_id hadmits), ih⟩
      | served | joined =>
          rw [List.map_cons, hevent]
          exact ih

end Runs

-- In a run that admits no job twice, no job is handed out before another that was admitted
-- before it has been handed out.
theorem first_in_first_out {ι : Type} {cfg : Config} {trace : List (Performed ι)}
    {backend : Backend} (hrun : Calls cfg EnqueuedOnce trace backend) {a b : String}
    {after between before : List (Performed ι)} {first second : Performed ι}
    (horder : trace = after ++ second :: (between ++ first :: before)) (hfirst : first.Admits a)
    (hsecond : second.Admits b) {newer older : List (Performed ι)} {claim : Performed ι}
    (hclaim : trace = newer ++ claim :: older) (hclaims : claim.Claims b) :
    ∃ earlier ∈ older, earlier.Claims a := by
  have hnodup := nodup_came hrun
  have hpair : [b, a].Sublist (Line.came (trace.map Performed.line_event)) := by
    rw [horder, came_append, came_of_admits hsecond, came_append, came_of_admits hfirst]
    have ha : [a].Sublist (Line.came (between.map Performed.line_event) ++
        a :: Line.came (before.map Performed.line_event)) :=
      List.singleton_sublist.mpr (by simp)
    exact (ha.cons_cons b).trans (List.sublist_append_right _ _)
  obtain ⟨_, hnow⟩ : ∃ backend, Calls cfg EnqueuedOnce (claim :: older) backend :=
    (hclaim ▸ hrun).older
  obtain ⟨table, -, hlined⟩ := lined_of_run hnow
  have hserved : b ∈ Line.served ((claim :: older).map Performed.line_event) :=
    mem_served.mpr ⟨claim, List.mem_cons_self, hclaims⟩
  -- Both were admitted before the claim, for the one that it hands out was.
  have hcame := hlined.in_order.customers b hserved
  rw [hclaim, came_append] at hpair hnodup
  have hbefore := pair_sublist_append hpair fun hlater =>
    List.disjoint_of_nodup_append hnodup hlater hcame
  obtain ⟨earlier, hmem, hearlier⟩ :=
    mem_served.mp (hlined.in_order.fair a b hbefore hserved)
  rcases List.mem_cons.mp hmem with rfl | hmem
  · have hsame := (line_event_served.mpr hearlier).symm.trans (line_event_served.mpr hclaims)
    obtain rfl : a = b := LineEvent.served.inj hsame
    have htwice := hbefore.nodup (List.nodup_append.mp hnodup).2.1
    simp at htwice
  · exact ⟨earlier, hmem, hearlier⟩

-- The second job is handed out while the first one waits for its retry.
def passed_over : List (Fin 2 × Moment × QueueCall) :=
  [at_time 0 1000 (.enqueue "job" [] "principal" "tenant"),
    at_time 0 1000 (.enqueue "next" [] "principal" "tenant"),
    at_time 1 1000 (.claim .inserted 1),
    at_time 1 1000 (.retry first_claim "failed"),
    at_time 1 1000 (.claim .inserted 1)]

theorem first_in_first_out_retried :
    let run := perform .default [] (.memory .empty) passed_over
    ∃ earlier ∈ run.1.tail, earlier.Claims "job" := by
  have hallowed : AllAllowed .default EnqueuedOnce [] (.memory .empty) passed_over := by
    refine ⟨?_, ?_, ?_, ?_, ?_, trivial⟩
    · rintro job_id - ⟨_, hmem, -⟩
      cases hmem
    · rintro job_id ⟨-, _, _, _, hcall⟩ ⟨_, hmem, -, _, _, _, hearlier⟩
      cases hcall
      obtain rfl := List.mem_singleton.mp hmem
      simp at hearlier
    · rintro job_id ⟨-, _, _, _, hcall⟩
      cases hcall
    · rintro job_id ⟨-, _, _, _, hcall⟩
      cases hcall
    · rintro job_id ⟨-, _, _, _, hcall⟩
      cases hcall
  have hrun := Calls.perform .memory passed_over hallowed
  have horder : (perform .default [] (.memory .empty) passed_over).1 =
      [⟨1, ⟨1000, []⟩, .claim .inserted 1,
          .ok (.claimed (some { first_claim with job_id := "next" }))⟩,
        ⟨1, ⟨1000, []⟩, .retry first_claim "failed", .ok (.outcome .scheduled)⟩,
        ⟨1, ⟨1000, []⟩, .claim .inserted 1, .ok (.claimed (some first_claim))⟩] ++
      ⟨0, ⟨1000, []⟩, .enqueue "next" [] "principal" "tenant", .ok (.bool true)⟩ ::
        ([] ++ [⟨0, ⟨1000, []⟩, .enqueue "job" [] "principal" "tenant", .ok (.bool true)⟩]) := by
    with_unfolding_all rfl
  have hclaim : (perform .default [] (.memory .empty) passed_over).1 = [] ++
      ⟨1, ⟨1000, []⟩, .claim .inserted 1,
          .ok (.claimed (some { first_claim with job_id := "next" }))⟩ ::
        (perform .default [] (.memory .empty) passed_over).1.tail := by
    rw [horder]
    rfl
  exact first_in_first_out hrun horder ⟨rfl, _, _, _, rfl⟩ ⟨rfl, _, _, _, rfl⟩ hclaim
    ⟨⟨_, _, rfl⟩, _, rfl, rfl⟩

end ResearchAgent.JobQueue
