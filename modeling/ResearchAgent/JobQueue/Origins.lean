import ResearchAgent.JobQueue.Backend

namespace ResearchAgent.JobQueue

open Library JobTable

-- The envelopes an answer hands out.
def QueueReply.handed : QueueReply → List JobEnvelope
  | .claimed envelope => envelope.toList
  | .envelopes value => value
  | _ => []

namespace Origins

variable {cfg : Config} {accepted : String → String → Prop} {table table' : JobTable}
  {job_id : String}

-- The envelope of a job carries its id and a tenant it was accepted for.
def Genuine (accepted : String → String → Prop) (job_id : String) (state : JobState) : Prop :=
  ∀ envelope ∈ state.envelope, envelope.job_id = job_id ∧ accepted job_id envelope.tenant_id

-- Only accepted jobs are in the table, or were when their marker was set.
structure Traced (accepted : String → String → Prop) (table : JobTable) : Prop where
  jobs : ∀ job_id, Genuine accepted job_id (table.jobs job_id)
  known : ∀ job_id expires, table.known job_id = some expires →
    ∃ tenant_id, accepted job_id tenant_id

theorem traced_empty : Traced accepted .empty :=
  ⟨fun _ _ h => (by cases h), fun _ _ h => by cases h⟩

theorem Traced.mono {accepted' : String → String → Prop} (h : Traced accepted table)
    (himp : ∀ job_id tenant_id, accepted job_id tenant_id → accepted' job_id tenant_id) :
    Traced accepted' table := by
  refine ⟨fun job_id envelope he => ?_, fun job_id expires hk => ?_⟩
  · obtain ⟨hid, ha⟩ := h.jobs job_id envelope he
    exact ⟨hid, himp _ _ ha⟩
  · obtain ⟨tenant_id, ha⟩ := h.known job_id expires hk
    exact ⟨tenant_id, himp _ _ ha⟩

theorem Traced.put {state : JobState} (h : Traced accepted table)
    (hstate : Genuine accepted job_id state) : Traced accepted (table.put job_id state) := by
  refine ⟨fun other => ?_, h.known⟩
  rw [put_jobs]
  split
  · next ho => rwa [ho]
  · exact h.jobs other

theorem Traced.recover (h : Traced accepted table) (job_id : String) :
    Traced accepted (table.recover cfg job_id) := by
  unfold JobTable.recover
  split
  · next envelope lease_until hj =>
      have hg := h.jobs job_id
      rw [hj] at hg
      refine h.put fun recovered hr => ?_
      unfold JobState.recovered at hr
      split at hr <;> (cases hr; exact hg envelope rfl)
  · exact h

theorem Traced.recover_all (h : Traced accepted table) (ids : List String) :
    Traced accepted (table.recover_all cfg ids) := by
  induction ids generalizing table with
  | nil => exact h
  | cons job_id rest ih => exact ih (h.recover job_id)

theorem Traced.promote (h : Traced accepted table) (job_id : String) :
    Traced accepted (table.promote job_id) := by
  unfold JobTable.promote
  split
  · next envelope due_at hj =>
      have hg := h.jobs job_id
      rw [hj] at hg
      exact h.put hg
  · exact h

theorem Traced.promote_all (h : Traced accepted table) (ids : List String) :
    Traced accepted (table.promote_all ids) := by
  induction ids generalizing table with
  | nil => exact h
  | cons job_id rest ih => exact ih (h.promote job_id)

theorem Traced.promotes {clock : ℚ≥0 → Prop} (h : Traced accepted table)
    (hp : Promotes clock table table') : Traced accepted table' := by
  induction hp with
  | last => exact h.promote_all _
  | again _ _ _ ih => exact ih (h.promote_all _)

theorem Traced.pop (h : Traced accepted table) (now : ℚ≥0) :
    Traced accepted (table.pop cfg now).2 ∧
      ∀ envelope ∈ (table.pop cfg now).1, accepted envelope.job_id envelope.tenant_id := by
  unfold JobTable.pop
  split
  · exact ⟨h, fun _ he => by cases he⟩
  · next job_id _ _ =>
      split
      · next envelope hj =>
          have hg := h.jobs job_id
          rw [hj] at hg
          obtain ⟨hid, ha⟩ := hg envelope rfl
          refine ⟨h.put ?_, ?_⟩
          · rintro _ ⟨⟩
            exact ⟨hid, ha⟩
          · rintro _ ⟨⟩
            exact hid ▸ ha
      · exact ⟨h, fun _ he => by cases he⟩

-- The step lemma: what a call puts into the table is accepted, so all it hands
-- out is.
theorem Traced.answers {clock : ℚ≥0 → Prop} {call : QueueCall}
    {reply : Except QueueError QueueReply} (h : Traced accepted table)
    (hanswer : Answers cfg clock table call reply table')
    (henqueue : ∀ job_id request principal_id tenant_id,
      call = .enqueue job_id request principal_id tenant_id → reply = .ok (.bool true) →
      accepted job_id tenant_id)
    (hretry : ∀ envelope error, call = .retry envelope error →
      accepted envelope.job_id envelope.tenant_id) :
    Traced accepted table' ∧ ∀ value ∈ reply.toOption, ∀ envelope ∈ value.handed,
      accepted envelope.job_id envelope.tenant_id := by
  cases hanswer with
  | enqueue_missing | enqueue_seen | claim_timeout | dead_letter_count =>
      exact ⟨h, by simp [Except.toOption, QueueReply.handed]⟩
  | @enqueue_new job_id request principal_id tenant_id now now' =>
      have ha := henqueue _ _ _ _ rfl rfl
      have hput : Traced accepted (table.put job_id
          (.ready (new_envelope now job_id request principal_id tenant_id))) :=
        h.put (by rintro _ ⟨⟩; exact ⟨rfl, ha⟩)
      refine ⟨⟨hput.jobs, fun other expires hk => ?_⟩, by simp [Except.toOption, QueueReply.handed]⟩
      simp only [enqueue, Function.update_apply] at hk
      split at hk
      · next ho => exact ⟨tenant_id, ho ▸ ha⟩
      · exact h.known other expires hk
  | @claim set_order timeout now ids after now' _ _ hexpired hpromotes =>
      obtain ⟨htraced, hpopped⟩ := ((h.recover_all ids).promotes hpromotes).pop now'
      exact ⟨htraced, by simpa [Except.toOption, QueueReply.handed] using hpopped⟩
  | @ack envelope =>
      refine ⟨?_, by simp [Except.toOption, QueueReply.handed]⟩
      unfold JobTable.ack
      split
      · exact h.put fun _ he => by cases he
      · exact h
  | @renew envelope now =>
      refine ⟨?_, by simp [Except.toOption, QueueReply.handed]⟩
      unfold JobTable.renew
      split
      · next current lease_until hj =>
          have hg := h.jobs envelope.job_id
          rw [hj] at hg
          exact h.put hg
      · exact h
  | @retry envelope error now =>
      have hput : Genuine accepted envelope.job_id
          (.ready { envelope with last_error := some error }) := by
        rintro _ ⟨⟩
        exact ⟨rfl, hretry envelope error rfl⟩
      unfold JobTable.retry
      split
      · split
        · exact ⟨h.put hput, by simp [Except.toOption, Except.map, QueueReply.handed]⟩
        · exact ⟨h.put hput, by simp [Except.toOption, Except.map, QueueReply.handed]⟩
      · exact ⟨h, by simp [Except.toOption, Except.map]⟩
  | @recover_stale set_order now ids =>
      exact ⟨h.recover_all ids, by simp [Except.toOption, QueueReply.handed]⟩
  | dead_letters =>
      refine ⟨h, ?_⟩
      simp only [Except.toOption, Option.mem_some_iff, forall_eq', QueueReply.handed,
        JobTable.dead_letters, List.mem_filterMap]
      rintro envelope ⟨job_id, -, he⟩
      obtain ⟨hid, ha⟩ := h.jobs job_id envelope he
      exact hid ▸ ha
  | @remove_dead_letter envelope =>
      refine ⟨?_, by simp [Except.toOption, QueueReply.handed]⟩
      unfold JobTable.remove_dead_letter
      split
      · exact h.put fun _ he => by cases he
      · exact h

-- Answers that say the same hand out the same jobs.
theorem handed_of_same {value value' : QueueReply} {envelope : JobEnvelope}
    (h : value.Same value') (hmem : envelope ∈ value.handed) :
    ∃ other ∈ value'.handed, other.delivered = envelope.delivered := by
  cases value with
  | claimed claimed =>
      cases value' with
      | claimed claimed' =>
          simp only [QueueReply.handed, Option.mem_toList] at hmem ⊢
          rw [hmem] at h
          obtain ⟨other, ho, hd⟩ := Option.map_eq_some_iff.mp (Eq.symm h)
          exact ⟨other, ho, hd⟩
      | _ => exact False.elim h
  | envelopes listed =>
      cases value' with
      | envelopes listed' =>
          have hperm : (listed.map JobEnvelope.delivered).Perm
            (listed'.map JobEnvelope.delivered) := h
          exact List.mem_map.mp (hperm.mem_iff.mp (List.mem_map_of_mem hmem))
      | _ => exact False.elim h
  | bool | outcome | count => cases hmem

theorem enqueue_of_delivered {call : QueueCall} {job_id principal_id tenant_id : String}
    {request : JSONObject}
    (h : call.delivered = .enqueue job_id request principal_id tenant_id) :
    call = .enqueue job_id request principal_id tenant_id := by
  cases call <;> first | exact h | cases h

theorem retry_of_delivered {call : QueueCall} {envelope : JobEnvelope} {error : String}
    (h : call.delivered = .retry envelope error) :
    ∃ other, call = .retry other error ∧ other.delivered = envelope := by
  cases call with
  | retry other text =>
      cases h
      exact ⟨other, rfl, rfl⟩
  | _ => cases h

end Origins

namespace Backend

open Origins

-- Every job the queue has under any id has been accepted.
def Traced (accepted : String → String → Prop) (backend : Backend) : Prop :=
  ∃ table, backend.Refines table ∧ Origins.Traced accepted table

variable {cfg : Config} {accepted accepted' : String → String → Prop} {backend : Backend}
  {moment : Moment} {call : QueueCall}

theorem Traced.mono (h : backend.Traced accepted)
    (himp : ∀ job_id tenant_id, accepted job_id tenant_id → accepted' job_id tenant_id) :
    backend.Traced accepted' := by
  obtain ⟨table, hrefines, htraced⟩ := h
  exact ⟨table, hrefines, htraced.mono himp⟩

-- A queue that only knows accepted jobs is free for every other.
theorem Traced.fresh (h : backend.Traced accepted) {job_id request principal_id tenant_id}
    (hnew : ∀ tenant_id, ¬accepted job_id tenant_id) :
    backend.Fresh moment (.enqueue job_id request principal_id tenant_id) := by
  obtain ⟨table, hrefines, htraced⟩ := h
  intro hlive
  have hpresent := hrefines.not_absent_of_live hlive
  cases hj : table.jobs job_id with
  | absent => exact absurd hj hpresent
  | ready | inflight | scheduled | dead =>
      exact absurd (htraced.jobs job_id _ (by rw [hj]; rfl)).2 (hnew _)

-- A job that has not been accepted is never refused.
theorem Traced.not_refused (h : backend.Traced accepted) {job_id request principal_id tenant_id}
    (hnew : ∀ tenant_id, ¬accepted job_id tenant_id) :
    (backend.call cfg moment (.enqueue job_id request principal_id tenant_id)).1 ≠
      .ok (.bool false) := by
  have hfresh : backend.Fresh moment (.enqueue job_id request principal_id tenant_id) :=
    h.fresh hnew
  obtain ⟨table, hrefines, htraced⟩ := h
  obtain ⟨reply, table', hanswer, hsame, -⟩ := hrefines.answers cfg hfresh
  intro hrefused
  rw [hrefused] at hsame
  cases hanswer with
  | enqueue_seen _ _ hseen =>
      obtain ⟨expires, hknown, -⟩ := hseen
      obtain ⟨tenant_id, haccepted⟩ := htraced.known job_id expires hknown
      exact hnew tenant_id haccepted
  | enqueue_missing => exact hsame.elim
  | enqueue_new => cases show false = true from hsame

-- Whatever is handed out has been accepted.
theorem Traced.called (h : backend.Traced accepted)
    (himp : ∀ job_id tenant_id, accepted job_id tenant_id → accepted' job_id tenant_id)
    (hfresh : backend.Fresh moment call)
    (henqueue : ∀ job_id request principal_id tenant_id,
      call = .enqueue job_id request principal_id tenant_id →
      (backend.call cfg moment call).1 = .ok (.bool true) → accepted' job_id tenant_id)
    (hretry : ∀ envelope error, call = .retry envelope error →
      accepted' envelope.job_id envelope.tenant_id) :
    (backend.call cfg moment call).2.Traced accepted' ∧
      ∀ value, (backend.call cfg moment call).1 = .ok value → ∀ envelope ∈ value.handed,
        accepted' envelope.job_id envelope.tenant_id := by
  obtain ⟨table, hrefines, htraced⟩ := h
  obtain ⟨reply, table', hanswer, hsame, hrefines'⟩ := hrefines.answers cfg hfresh
  obtain ⟨htraced', hhanded⟩ := (htraced.mono himp).answers hanswer
    (fun job_id request principal_id tenant_id hcall hreply =>
      henqueue job_id request principal_id tenant_id (enqueue_of_delivered hcall)
        (SameAnswer.eq_bool (hreply ▸ hsame)))
    (fun envelope error hcall => by
      obtain ⟨other, hother, rfl⟩ := retry_of_delivered hcall
      exact hretry other error hother)
  refine ⟨⟨table', hrefines', htraced'⟩, fun value hvalue envelope hmem => ?_⟩
  rw [hvalue] at hsame
  cases reply with
  | error => exact hsame.elim
  | ok value' =>
      obtain ⟨other, hother, hd⟩ := handed_of_same hsame hmem
      have haccepted := hhanded value' rfl other hother
      have hid := congrArg JobEnvelope.job_id hd
      have htenant := congrArg JobEnvelope.tenant_id hd
      simp only [JobEnvelope.delivered_job_id, JobEnvelope.delivered_tenant_id] at hid htenant
      rwa [hid, htenant] at haccepted

end Backend

end ResearchAgent.JobQueue
