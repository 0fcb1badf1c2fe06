import ResearchAgent.JobQueue.Copies
import ResearchAgent.JobQueue.Presence
import ResearchAgent.Service.Finished

namespace ResearchAgent.Service

open Library JobQueue

variable {ι : Type} {cfg : Config}

namespace Orphans

open Finished (read_of stored_by finishes event_of_stored record_step record_after read_step)

-- The event shows the record to be there, or to be final.
def shows (job_id : String) (event : ServiceEvent ι) : Bool :=
  (read_of job_id event).isSome || (stored_by job_id event).isSome

def settles (job_id : String) (event : ServiceEvent ι) : Bool :=
  ((read_of job_id event).or (stored_by job_id event)).any fun job => job.status.final

def Shown (job_id : String) (trace : List (ServiceEvent ι)) : Prop :=
  ∃ event ∈ trace, shows job_id event = true

def Settled (job_id : String) (trace : List (ServiceEvent ι)) : Prop :=
  ∃ event ∈ trace, settles job_id event = true

-- The event puts an active record in the place of a final one.
def reopens (platform : Platform (job_queue cfg)) : ServiceEvent ι → Bool
  | ⟨_, .jobs_set job_id job, .ok _⟩ =>
      !job.status.final && (platform.jobs.get? job_id).any fun old => old.status.final
  | _ => false

section Discipline

-- A worker takes a job out of the queue once its record is final, and stores an
-- active record only where it has found one.
def Permits (trace : List (ServiceEvent ι)) : ServiceOp → Prop
  | .jobs_set job_id job => job.job_id = job_id ∧ (job.status.final = true ∨ Shown job_id trace)
  | .jobs_set_if_absent _ _ | .jobs_delete _ | .queue (.enqueue _ _ _ _) => False
  | .queue (.ack envelope) | .queue (.remove_dead_letter envelope) =>
      Settled envelope.job_id trace
  | _ => True

structure Inv (world : ServiceWorld ι (job_queue cfg)) : Prop where
  keyed : ∀ job_id job, world.state.jobs.get? job_id = some job → job.job_id = job_id
  shown : ∀ job_id, Shown job_id world.trace → (world.state.jobs.get? job_id).isSome = true
  settled : ∀ job_id, Settled job_id world.trace →
    ∃ job, world.state.jobs.get? job_id = some job ∧ job.status.final = true
  queue : ∃ table, Backend.Refines world.state.queue table
  live : ∀ job_id job, world.state.jobs.get? job_id = some job → job.status.final = false →
    Backend.Live world.state.queue job_id

variable {settings : Settings} {world : ServiceWorld ι (job_queue cfg)} {thread : ι}
  {op : ServiceOp} {reply : op.Reply} {state : Platform (job_queue cfg)} {job_id : String}
  {job : JobStatus} {trace trace' : List (ServiceEvent ι)}

theorem Shown.mono (h : Shown job_id trace) (hsuffix : trace <:+ trace') : Shown job_id trace' := by
  obtain ⟨event, hmem, hevent⟩ := h
  exact ⟨event, hsuffix.subset hmem, hevent⟩

theorem Settled.mono (h : Settled job_id trace) (hsuffix : trace <:+ trace') :
    Settled job_id trace' := by
  obtain ⟨event, hmem, hevent⟩ := h
  exact ⟨event, hsuffix.subset hmem, hevent⟩

theorem Permits.record_after (hpermits : Permits world.trace op)
    (hstep : service_step settings thread world.state op reply state) (job_id : String) :
    state.jobs.get? job_id = (stored_by job_id (⟨thread, op, reply⟩ : ServiceEvent ι)).or
      (world.state.jobs.get? job_id) :=
  Finished.record_after hstep (fun _ _ h => by subst h; exact hpermits.elim)
    (fun _ h => by subst h; exact hpermits.elim) job_id

-- A final record gives way to final ones only.
theorem final_after (hpermits : Permits world.trace op)
    (hstep : service_step settings thread world.state op reply state)
    (hsober : reopens world.state (⟨thread, op, reply⟩ : ServiceEvent ι) = false)
    (hget : world.state.jobs.get? job_id = some job) (hfinal : job.status.final = true) :
    ∃ job', state.jobs.get? job_id = some job' ∧ job'.status.final = true := by
  rw [hpermits.record_after hstep job_id]
  cases hstored : stored_by job_id (⟨thread, op, reply⟩ : ServiceEvent ι) with
  | none => exact ⟨job, hget, hfinal⟩
  | some job' =>
      refine ⟨job', rfl, ?_⟩
      cases event_of_stored hstored
      simpa [reopens, hget, hfinal] using hsober

theorem active_before {old : JobStatus} (hpermits : Permits world.trace op)
    (hstep : service_step settings thread world.state op reply state)
    (hsober : reopens world.state (⟨thread, op, reply⟩ : ServiceEvent ι) = false)
    (hget : state.jobs.get? job_id = some job) (hactive : job.status.final = false)
    (hold : world.state.jobs.get? job_id = some old) : old.status.final = false := by
  by_contra hfinal
  obtain ⟨job', hget', hfinal'⟩ := final_after hpermits hstep hsober hold
    (Bool.not_eq_false _ ▸ hfinal)
  rw [hget] at hget'
  cases hget'
  rw [hactive] at hfinal'
  cases hfinal'

theorem shown_after (hpermits : Permits world.trace op)
    (hstep : service_step settings thread world.state op reply state)
    (hthere : (world.state.jobs.get? job_id).isSome = true) :
    (state.jobs.get? job_id).isSome = true := by
  rw [hpermits.record_after hstep job_id]
  cases stored_by job_id (⟨thread, op, reply⟩ : ServiceEvent ι) with
  | none => exact hthere
  | some job => rfl

-- A record that has just been read, or stored, is what the event says.
theorem record_of_event (hpermits : Permits world.trace op)
    (hstep : service_step settings thread world.state op reply state)
    (hjob : (read_of job_id (⟨thread, op, reply⟩ : ServiceEvent ι)).or
      (stored_by job_id (⟨thread, op, reply⟩ : ServiceEvent ι)) = some job) :
    state.jobs.get? job_id = some job := by
  cases hread : read_of job_id (⟨thread, op, reply⟩ : ServiceEvent ι) with
  | some read =>
      obtain ⟨hget, hjobs⟩ := read_step hstep hread
      rw [hread] at hjob
      rw [hjobs, hget]
      exact hjob
  | none =>
      rw [hread, Option.none_or] at hjob
      rw [hpermits.record_after hstep job_id, hjob]
      rfl

theorem queue_after (hinv : Inv world) (hpermits : Permits world.trace op)
    (hstep : service_step settings thread world.state op reply state) :
    (∃ table, Backend.Refines state.queue table) ∧ ∀ job_id,
      Backend.Live world.state.queue job_id → ¬Settled job_id world.trace →
      Backend.Live state.queue job_id := by
  obtain ⟨table, hrefines⟩ := hinv.queue
  cases op with
  | queue call =>
      rcases queue_step hstep with ⟨error, -, rfl⟩ | ⟨moment, -, rfl⟩
      · exact ⟨⟨table, hrefines⟩, fun _ hlive _ => hlive⟩
      · have hmarked : Backend.Marked world.state.queue moment call := by
          cases call with
          | enqueue => exact hpermits.elim
          | _ => trivial
        obtain ⟨_, table', -, -, hrefines'⟩ := hrefines.answers_marked cfg hmarked
        refine ⟨⟨table', hrefines'⟩, fun job_id hlive hopen => ?_⟩
        refine hrefines.live_kept hmarked hlive fun hremoves => hopen ?_
        cases call with
        | ack envelope | remove_dead_letter envelope => cases hremoves; exact hpermits
        | _ => cases hremoves
  | _ =>
      rw [queue_kept hstep fun _ h => by cases h]
      exact ⟨⟨table, hrefines⟩, fun _ hlive _ => hlive⟩

theorem Inv.step (hinv : Inv world) (hpermits : Permits world.trace op)
    (hsober : reopens world.state (⟨thread, op, reply⟩ : ServiceEvent ι) = false)
    (hstep : service_step settings thread world.state op reply state) :
    Inv (world.after ⟨thread, op, reply⟩ state) := by
  obtain ⟨hqueue, hlive⟩ := queue_after hinv hpermits hstep
  refine ⟨fun job_id job hget => ?_, fun job_id hshown => ?_, fun job_id hsettled => ?_, hqueue,
    fun job_id job hget hactive => ?_⟩
  · rcases record_step hstep hget with hstored | ⟨rfl, -⟩ | ⟨-, hget⟩
    · cases event_of_stored hstored
      exact hpermits.1
    · exact hpermits.elim
    · exact hinv.keyed job_id job hget
  · obtain ⟨event, hmem, hevent⟩ := hshown
    rcases List.mem_cons.mp hmem with rfl | hmem
    · rw [shows, ← Option.isSome_or] at hevent
      obtain ⟨job, hjob⟩ := Option.isSome_iff_exists.mp hevent
      exact Option.isSome_iff_exists.mpr ⟨job, record_of_event hpermits hstep hjob⟩
    · exact shown_after hpermits hstep (hinv.shown job_id ⟨event, hmem, hevent⟩)
  · obtain ⟨event, hmem, hevent⟩ := hsettled
    rcases List.mem_cons.mp hmem with rfl | hmem
    · obtain ⟨job, hjob, hfinal⟩ := (Option.any_eq_true _ _).mp hevent
      exact ⟨job, record_of_event hpermits hstep hjob, hfinal⟩
    · obtain ⟨job, hget, hfinal⟩ := hinv.settled job_id ⟨event, hmem, hevent⟩
      exact final_after hpermits hstep hsober hget hfinal
  · have hopen : ¬Settled job_id world.trace := by
      intro hsettled
      obtain ⟨old, hold, hfinal⟩ := hinv.settled job_id hsettled
      rw [active_before hpermits hstep hsober hget hactive hold] at hfinal
      cases hfinal
    refine hlive job_id ?_ hopen
    rcases record_step hstep hget with hstored | ⟨rfl, -⟩ | ⟨-, hbefore⟩
    · cases event_of_stored hstored
      have hshown := hpermits.2.resolve_left (by rw [hactive]; exact Bool.false_ne_true)
      obtain ⟨old, hold⟩ := Option.isSome_iff_exists.mp (hinv.shown job_id hshown)
      exact hinv.live job_id old hold (active_before hpermits hstep hsober hget hactive hold)
    · exact hpermits.elim
    · exact hinv.live job_id job hbefore hactive

end Discipline

section Programs

variable [DecidableEq ι] {settings : Settings} {world : ServiceWorld ι (job_queue cfg)}
  {thread : ι} {job_id : String} {job : JobStatus} {envelope : JobEnvelope} {α β : Type}

abbrev discipline (settings : Settings) :
    Library.Discipline ι ServiceOp ServiceOp.Reply (Platform (job_queue cfg)) :=
  .by_events (service_step settings) (fun w event => reopens w.state event = false) Inv

-- Once true it stays true.
def Lasting (keep : List (ServiceEvent ι) → Prop) : Prop :=
  ∀ ⦃trace trace'⦄, trace <:+ trace' → keep trace → keep trace'

omit [DecidableEq ι] in
theorem lasting_shown : Lasting (fun trace : List (ServiceEvent ι) => Shown job_id trace) :=
  fun _ _ hsuffix h => h.mono hsuffix

omit [DecidableEq ι] in
theorem lasting_settled : Lasting (fun trace : List (ServiceEvent ι) => Settled job_id trace) :=
  fun _ _ hsuffix h => h.mono hsuffix

theorem wp_op {post : Except ServiceError β → ServiceWorld ι (job_queue cfg) → Prop}
    {op : ServiceOp} {f : op.Value → ServiceProgram β}
    (hpermits : ∀ trace, world.trace <:+ trace → Permits trace op)
    (hnext : ∀ (w : ServiceWorld ι (job_queue cfg)) reply state, world.trace <:+ w.trace → Inv w →
      service_step settings thread w.state op reply state →
      (discipline settings).wp thread post (lift reply >>= f)
        (w.after ⟨thread, op, reply⟩ state)) :
    (discipline settings).wp thread post (perform op >>= f) world :=
  Discipline.wp_call rfl fun w reply state hsuffix _ hinv hstep hsober =>
    ⟨hinv.step (hpermits w.trace hsuffix) hsober hstep,
      fun _ => hnext w reply state hsuffix hinv hstep⟩

-- Operations that are in order as long as `keep` holds.
theorem wp_keep {keep : List (ServiceEvent ι) → Prop} {allowed : ServiceOp → Prop}
    {program : ServiceProgram α} (hlasting : Lasting keep)
    (hpermits : ∀ {op trace}, allowed op → keep trace → Permits trace op)
    (h : program.uses allowed) (hkeep : keep world.trace) :
    (discipline settings).wp thread (fun _ w => keep w.trace) program world :=
  Discipline.wp_of_uses (fun hrely hkeep => hlasting hrely.1 hkeep)
    (fun hop hinv hkeep hstep => ⟨hinv.step (hpermits hop hkeep) hstep.2 hstep.1,
      fun _ ho => ⟨List.suffix_cons _ _, events_of_other (Ne.symm ho)⟩,
      hlasting (List.suffix_cons _ _) hkeep⟩) h hkeep

theorem wp_keep_bind {post : Except ServiceError β → ServiceWorld ι (job_queue cfg) → Prop}
    {keep : List (ServiceEvent ι) → Prop} {allowed : ServiceOp → Prop}
    {program : ServiceProgram α} {f : α → ServiceProgram β} (hlasting : Lasting keep)
    (hpermits : ∀ {op trace}, allowed op → keep trace → Permits trace op)
    (h : program.uses allowed) (hkeep : keep world.trace)
    (hnext : ∀ (w : ServiceWorld ι (job_queue cfg)) value, keep w.trace →
      (discipline settings).wp thread post (f value) w)
    (herror : ∀ (w : ServiceWorld ι (job_queue cfg)) error, post (.error error) w) :
    (discipline settings).wp thread post (program >>= f) world := by
  refine Discipline.wp_bind (Discipline.wp_mono (fun result w hw => ?_)
    (wp_keep hlasting hpermits h hkeep))
  cases result with
  | ok value => exact hnext w value hw
  | error error => exact herror w error

-- What a worker does with a record it has found.
def OnRecord (job_id : String) : ServiceOp → Prop
  | .jobs_set id job => id = job_id ∧ job.job_id = id
  | .jobs_set_if_absent _ _ | .jobs_delete _ | .queue _ => False
  | _ => True

-- The operations that touch no record and take nothing out of the queue.
def Harmless : ServiceOp → Prop
  | .jobs_set _ _ | .jobs_set_if_absent _ _ | .jobs_delete _ => False
  | .queue (.enqueue _ _ _ _) | .queue (.ack _) | .queue (.remove_dead_letter _) => False
  | _ => True

omit [DecidableEq ι] in
theorem OnRecord.permits {op : ServiceOp} {trace : List (ServiceEvent ι)} (h : OnRecord job_id op)
    (hshown : Shown job_id trace) : Permits trace op := by
  cases op with
  | jobs_set => exact ⟨h.2, .inr (h.1 ▸ hshown)⟩
  | jobs_set_if_absent | jobs_delete | queue => exact h.elim
  | _ => trivial

omit [DecidableEq ι] in
theorem Harmless.permits {op : ServiceOp} {trace : List (ServiceEvent ι)} (h : Harmless op) :
    Permits trace op := by
  cases op with
  | queue call => cases call <;> first | exact h.elim | trivial
  | _ => first | exact h.elim | trivial

theorem Lookup.harmless {op : ServiceOp} (h : Lookup op) : Harmless op := by
  cases op <;> first | exact h.elim | trivial

omit [DecidableEq ι] in
theorem Review.permits {op : ServiceOp} {trace : List (ServiceEvent ι)} (h : Review op) :
    Permits trace op := by
  cases op with
  | jobs_set => exact ⟨h.1, .inl h.2⟩
  | _ => first | exact h.elim | trivial

-- Operations that are in order whatever came before.
theorem wp_always {allowed : ServiceOp → Prop} {program : ServiceProgram α}
    (hpermits : ∀ {op} {trace : List (ServiceEvent ι)}, allowed op → Permits trace op)
    (h : program.uses allowed) :
    (discipline settings).wp thread (fun _ _ => True) program world :=
  Discipline.wp_of_uses (fun _ _ => trivial)
    (fun hop hinv _ hstep => ⟨hinv.step (hpermits hop) hstep.2 hstep.1,
      fun _ ho => ⟨List.suffix_cons _ _, events_of_other (Ne.symm ho)⟩, trivial⟩) h trivial

theorem wp_harmless {program : ServiceProgram α} (h : program.uses Harmless) :
    (discipline settings).wp thread (fun _ _ => True) program world :=
  wp_always Harmless.permits h

theorem wp_harmless_bind {post : Except ServiceError β → ServiceWorld ι (job_queue cfg) → Prop}
    {program : ServiceProgram α} {f : α → ServiceProgram β} (h : program.uses Harmless)
    (hnext : ∀ (w : ServiceWorld ι (job_queue cfg)) value,
      (discipline settings).wp thread post (f value) w)
    (herror : ∀ (w : ServiceWorld ι (job_queue cfg)) error, post (.error error) w) :
    (discipline settings).wp thread post (program >>= f) world := by
  refine Discipline.wp_bind (Discipline.wp_mono (fun result w _ => ?_) (wp_harmless h))
  cases result with
  | ok value => exact hnext w value
  | error error => exact herror w error

-- The record is final from here on.
theorem wp_store {post : Except ServiceError β → ServiceWorld ι (job_queue cfg) → Prop}
    {f : Unit → ServiceProgram β} (hfinal : job.status.final = true)
    (hnext : ∀ w : ServiceWorld ι (job_queue cfg), Settled job.job_id w.trace →
      (discipline settings).wp thread post (f ()) w)
    (herror : ∀ (w : ServiceWorld ι (job_queue cfg)) error, post (.error error) w) :
    (discipline settings).wp thread post (perform (.jobs_set job.job_id job) >>= f) world := by
  refine wp_op (fun _ _ => ⟨rfl, .inl hfinal⟩) fun w reply state _ _ _ => ?_
  cases reply with
  | error error => exact fun v _ _ => herror v error
  | ok value =>
      refine hnext _ ⟨_, List.mem_cons_self .., ?_⟩
      simp [settles, read_of, stored_by, hfinal]

-- A worker that is through has left the record final.
def Closes (job_id : String) : Except ServiceError Unit → ServiceWorld ι (job_queue cfg) → Prop
  | .ok _, w => Settled job_id w.trace
  | .error _, _ => True

omit [DecidableEq ι] in
theorem closes_error (w : ServiceWorld ι (job_queue cfg)) (error : ServiceError) :
    Closes job_id (.error error) w := trivial

theorem wp_closing {program : ServiceProgram Unit} (h : program.uses Harmless)
    (hsettled : Settled job_id world.trace) :
    (discipline settings).wp thread (Closes job_id) program world := by
  refine Discipline.wp_mono (fun result w hw => ?_)
    (wp_keep lasting_settled (fun hop _ => hop.permits) h hsettled)
  cases result with
  | ok => exact hw
  | error => trivial

theorem finish_wp (actor : Principal) (state : ResearchState Report) (hid : job.job_id = job_id) :
    (discipline settings).wp thread (Closes job_id)
      (ResearchProcessor.finish settings envelope actor job state) world := by
  refine wp_harmless_bind (lift_uses _) (fun w report => ?_) closes_error
  refine wp_harmless_bind (perform_uses trivial) (fun w _ => ?_) closes_error
  refine wp_harmless_bind (perform_uses trivial) (fun w completed_at => ?_) closes_error
  refine wp_store ?_ (fun w hsettled => ?_) closes_error
  · simp only
    split <;> rfl
  · exact wp_closing (Program.uses_bind (perform_uses trivial) fun _ => perform_uses trivial)
      (hid ▸ hsettled)

omit [DecidableEq ι] in
theorem record_failure_uses (actor : Principal) (hid : job.job_id = job_id) :
    (ResearchProcessor.record_failure settings envelope actor job).uses (OnRecord job_id) := by
  unfold ResearchProcessor.record_failure
  split
  · exact Program.uses_bind (perform_uses trivial) fun _ =>
      Program.uses_bind (perform_uses trivial) fun _ =>
      Program.uses_bind (perform_uses ⟨hid, rfl⟩) fun _ => perform_uses trivial
  · exact Program.uses_bind (perform_uses ⟨hid, rfl⟩) fun _ => perform_uses trivial

omit [DecidableEq ι] in
theorem research_uses : (ResearchProcessor.research settings envelope).uses (OnRecord job_id) := by
  refine Program.uses_bind (lift_uses _) fun request =>
    Program.uses_bind (perform_uses trivial) fun state => ?_
  split <;> trivial

theorem run_wp (actor : Principal) (hshown : Shown job.job_id world.trace) :
    (discipline settings).wp thread (Closes job.job_id)
      (ResearchProcessor.run settings envelope actor job) world := by
  have hpermits : ∀ {op} {trace : List (ServiceEvent ι)}, OnRecord job.job_id op →
      Shown job.job_id trace → Permits trace op := OnRecord.permits
  refine wp_keep_bind lasting_shown hpermits (perform_uses ⟨rfl, rfl⟩) hshown
    (fun w _ hshown => ?_) closes_error
  refine wp_keep_bind lasting_shown hpermits (perform_uses trivial) hshown
    (fun w _ hshown => ?_) closes_error
  have hresearch : (discipline settings).wp thread (fun _ v => Shown job.job_id v.trace)
      (ResearchProcessor.research settings envelope) w :=
    wp_keep lasting_shown hpermits research_uses hshown
  refine Discipline.wp_bind (Discipline.wp_attempt
    (Discipline.wp_mono (fun result v hshown => ?_) hresearch))
  cases result with
  | ok state => exact finish_wp actor state rfl
  | error error =>
      refine Discipline.wp_bind (Discipline.wp_mono (fun result u _ => ?_)
        (wp_keep lasting_shown hpermits (record_failure_uses actor rfl) hshown))
      cases result with
      | ok => exact fun _ _ _ => trivial
      | error => trivial

theorem call_wp (envelope : JobEnvelope) :
    (discipline settings).wp thread (Closes envelope.job_id)
      (ResearchProcessor.call settings envelope) world := by
  refine wp_op (fun _ _ => trivial) fun w reply state _ hinv hstep => ?_
  cases reply with
  | error error => exact fun _ _ _ => trivial
  | ok found =>
      cases found with
      | none => exact fun _ _ _ => trivial
      | some job =>
          have hid := hinv.keyed _ job (jobs_get_step hstep).symm
          rw [lift_ok, Program.ret_bind, ← hid]
          refine wp_keep_bind lasting_shown OnRecord.permits (lift_uses _) ?_
            (fun v actor hshown => run_wp actor hshown) closes_error
          exact ⟨_, List.mem_cons_self .., by simp [shows, read_of, hid]⟩

-- Taking a settled job out of the queue.
theorem wp_removal {call : QueueCall} {read : QueueReply → Option α} {f : α → ServiceProgram β}
    (hcall : call = .ack envelope ∨ call = .remove_dead_letter envelope)
    (hsettled : Settled envelope.job_id world.trace) (h : ∀ value, (f value).uses Harmless) :
    (discipline settings).wp thread (fun _ _ => True) (Client.queue call read >>= f) world := by
  unfold Client.queue
  rw [Program.bind_assoc]
  refine wp_op (fun trace hsuffix => ?_) fun w reply state _ _ _ => wp_harmless ?_
  · rcases hcall with rfl | rfl <;> exact hsettled.mono hsuffix
  · refine Program.uses_bind (lift_uses _) fun value => Program.uses_bind ?_ h
    split <;> trivial

theorem process_wp (envelope : JobEnvelope) :
    (discipline settings).wp thread (fun _ _ => True)
      (Worker.process settings envelope) world := by
  refine Discipline.wp_bind (Discipline.wp_attempt (Discipline.wp_mono (fun result w hw => ?_)
    (call_wp envelope)))
  cases result with
  | error error =>
      refine wp_harmless_bind (perform_uses trivial) (fun v _ => ?_) fun _ _ => trivial
      exact wp_harmless_bind (queue_uses trivial) (fun _ _ _ _ _ => trivial) fun _ _ => trivial
  | ok value =>
      refine wp_keep_bind lasting_settled (fun hop _ => Harmless.permits hop)
        (perform_uses trivial) hw (fun v _ hsettled => ?_) fun _ _ => trivial
      refine wp_removal (.inl rfl) hsettled fun acknowledged => ?_
      cases acknowledged <;> trivial

theorem fail_dead_letter_wp (hid : job.job_id = envelope.job_id) :
    (discipline settings).wp thread (fun _ _ => True)
      (ResearchProcessor.fail_dead_letter envelope job) world := by
  refine wp_harmless_bind (perform_uses trivial) (fun w _ => ?_) fun _ _ => trivial
  refine wp_store rfl (fun w hsettled => ?_) fun _ _ => trivial
  have hquiet : ∀ {op} {trace : List (ServiceEvent ι)}, Harmless op →
      Settled envelope.job_id trace → Permits trace op := fun hop _ => hop.permits
  refine wp_keep_bind lasting_settled hquiet (perform_uses trivial) (hid ▸ hsettled)
    (fun w _ hsettled => ?_) fun _ _ => trivial
  refine wp_keep_bind lasting_settled hquiet (lift_uses _) hsettled
    (fun w _ hsettled => ?_) fun _ _ => trivial
  refine wp_keep_bind lasting_settled hquiet (perform_uses trivial) hsettled
    (fun w _ hsettled => ?_) fun _ _ => trivial
  exact wp_removal (.inr rfl) hsettled fun _ => trivial

theorem reconcile_wp (envelope : JobEnvelope) :
    (discipline settings).wp thread (fun _ _ => True)
      (ResearchProcessor.reconcile envelope) world := by
  refine wp_op (fun _ _ => trivial) fun w reply state _ hinv hstep => ?_
  cases reply with
  | error error => exact fun _ _ _ => trivial
  | ok found =>
      cases found with
      | none => exact fun _ _ _ => trivial
      | some job =>
          have hid := hinv.keyed _ job (jobs_get_step hstep).symm
          simp only [lift_ok, Program.ret_bind]
          split
          · next hfinal =>
              refine wp_removal (.inr rfl) ⟨_, List.mem_cons_self .., ?_⟩ fun _ => trivial
              simp [settles, read_of, stored_by, hfinal]
          · exact fail_dead_letter_wp hid

theorem reconcile_dead_letters_wp :
    (discipline settings).wp thread (fun _ _ => True)
      (ResearchProcessor.reconcile_dead_letters) world := by
  refine wp_seq (wp_harmless (queue_uses trivial)) fun envelopes w => ?_
  induction envelopes generalizing w with
  | nil => exact wp_harmless trivial
  | cons envelope rest ih => exact wp_seq (reconcile_wp envelope) fun _ => ih

theorem run_once_wp (set_order : SetOrder) :
    (discipline settings).wp thread (fun _ _ => True)
      (Worker.run_once settings set_order) world := by
  refine wp_seq reconcile_dead_letters_wp fun _ w => ?_
  refine wp_seq (wp_harmless (queue_uses trivial)) fun claimed v => ?_
  cases claimed with
  | none => exact wp_harmless trivial
  | some envelope => exact process_wp envelope

theorem serve_wp {principal : Principal} {asked : Request}
    (hsubmits : (Activity.request principal asked).submits = false) :
    (discipline settings).wp thread (fun _ _ => True) (asked.serve settings principal) world := by
  cases asked with
  | submit => cases hsubmits
  | get job_id =>
      exact wp_harmless (Program.uses_bind (Program.uses_mono (fun _ => Lookup.harmless)
        (get_research_result_uses job_id)) fun _ => trivial)
  | list limit =>
      exact wp_harmless (Program.uses_bind (Program.uses_mono (fun _ => Lookup.harmless)
        (list_jobs_uses limit)) fun _ => trivial)
  | approve job_id =>
      exact wp_always Review.permits
        (Program.uses_bind (approve_research_uses job_id) fun _ => trivial)
  | reject job_id reason =>
      exact wp_always Review.permits
        (Program.uses_bind (reject_research_uses job_id reason) fun _ => trivial)

theorem activity_wp {activity : Activity} (hsubmits : activity.submits = false) :
    (discipline settings).wp thread (fun _ _ => True) (activity.program settings) world := by
  cases activity with
  | request principal asked => exact wp_seq (serve_wp hsubmits) fun _ _ _ _ _ => trivial
  | deliver envelope =>
      exact wp_seq (Discipline.wp_mono (fun _ _ _ => trivial) (call_wp envelope))
        fun _ _ _ _ _ => trivial
  | reconcile => exact wp_seq reconcile_dead_letters_wp fun _ _ _ _ _ => trivial
  | run_once set_order => exact wp_seq (run_once_wp set_order) fun _ _ _ _ _ => trivial
  | heartbeat envelope beats =>
      exact wp_seq (wp_harmless (renew_lease_uses trivial beats)) fun _ _ _ _ _ => trivial

end Programs

section Runs

-- The condition on a step: no delivery stores an active record over a final one.
def Sober (pool : ServicePool ι (job_queue cfg)) (event : Option (ServiceEvent ι)) : Prop :=
  ∀ happened ∈ event, reopens pool.world.state happened = false

instance (pool : ServicePool ι (job_queue cfg)) (event : Option (ServiceEvent ι)) :
    Decidable (Sober pool event) :=
  inferInstanceAs (Decidable (∀ _ ∈ _, _))

theorem inv_start {settings : Settings} {activity : ι → Activity}
    {platform : Platform (job_queue cfg)} {table : JobTable}
    (hqueue : Backend.Refines platform.queue table)
    (hkeyed : ∀ job_id job, platform.jobs.get? job_id = some job → job.job_id = job_id)
    (hsubmitted : ∀ job_id job, platform.jobs.get? job_id = some job →
      job.status.final = false → Backend.Live platform.queue job_id) :
    Inv (ServicePool.start settings platform activity).world where
  keyed := hkeyed
  shown := fun _ ⟨_, hmem, _⟩ => by cases hmem
  settled := fun _ ⟨_, hmem, _⟩ => by cases hmem
  queue := ⟨table, hqueue⟩
  live := hsubmitted

end Runs

end Orphans

open Orphans in
-- From a platform on which every active job is in the queue, and as long as no
-- delivery stores an active record over a final one, every active job stays there,
-- however the workers interleave and whatever fails.
theorem no_orphaned_job {ι κ : Type} [DecidableEq ι] {cfg : Config} {settings : Settings}
    {activity : ι → Activity} {platform : Platform (job_queue cfg)}
    {pool : ServicePool ι (job_queue cfg)} {calls : List (Performed κ)}
    (hqueue : Calls cfg (fun _ backend performed =>
      backend.Marked performed.moment performed.call) calls platform.queue)
    (hkeyed : ∀ job_id job, platform.jobs.get? job_id = some job → job.job_id = job_id)
    (hsubmitted : ∀ job_id job, platform.jobs.get? job_id = some job →
      job.status.final = false → Backend.Live platform.queue job_id)
    (hactivity : ∀ thread, (activity thread).submits = false)
    (hrun : Run (service_step settings) (fun _ _ => False) Sober
      (ServicePool.start settings platform activity) pool)
    (job_id : String) (job : JobStatus) (hget : pool.world.state.jobs.get? job_id = some job)
    (hactive : job.status.final = false) : Backend.Live pool.world.state.queue job_id := by
  obtain ⟨table, hrefines⟩ := refines_of_marked_run hqueue
  have hinv := ((discipline settings).sound (fun _ _ _ => True)
    (inv_start hrefines hkeyed hsubmitted) (fun thread => activity_wp (hactivity thread))
    (fun _ he => False.elim he) (fun {_ _} (hsober : Sober _ _) => hsober _ rfl) hrun).1
  exact hinv.live job_id job hget hactive

namespace Orphans

def enqueue_small : QueueCall :=
  .enqueue "job" ResearchRequest.small.model_dump "principal" "tenant"

-- One job has been submitted.
def submitted : Platform (job_queue .default) :=
  { Platform.empty ((Backend.memory .empty).call .default ⟨(1000 : ℕ), []⟩ enqueue_small).2 with
    jobs := Dict.empty.set "job" (Server.new_job .small "job" "2026-01-01")
    slots := fun _ => 1 }

def two_workers : Fin 2 → Activity := fun _ => .run_once .inserted

-- Research that comes to nothing.
def fruitless : Outcome (job_queue .default) :=
  { Outcome.at 1400 with research := { report := .none, error := some "No provider answers" } }

def worked (moves : List (Fin 2 × Outcome (job_queue .default))) :
    ServicePool (Fin 2) (job_queue .default) :=
  (ServicePool.start .small submitted two_workers).schedule (service_perform .small) moves

-- The second worker has the job once the lease of the first is over. The first
-- finishes it all the same, and then the second fails.
def late_failure : List (Fin 2 × Outcome (job_queue .default)) :=
  turns 0 1000 6 ++ turns 1 1400 5 ++ turns 0 1400 7 ++ List.replicate 5 (.clamp 1 1, fruitless)

-- As above, before the first worker finishes.
def redelivered : List (Fin 2 × Outcome (job_queue .default)) := turns 0 1000 6 ++ turns 1 1400 5

def queue_after_late_failure : Backend := (worked late_failure).world.state.queue

theorem submitted_record {job_id : String} {job : JobStatus}
    (h : submitted.jobs.get? job_id = some job) :
    job_id = "job" ∧ job = Server.new_job .small "job" "2026-01-01" := by
  simp only [submitted, Dict.get?_set, Dict.get?_empty] at h
  split at h
  · next heq => cases h; exact ⟨heq, rfl⟩
  · cases h

end Orphans

open Orphans in
theorem no_orphaned_job_redelivered :
    Backend.Live (worked redelivered).world.state.queue "job" := by
  have hsober : (ServicePool.start .small submitted two_workers).respects
      (service_perform .small) Sober redelivered := by decide +kernel
  have hcalls : Calls .default (fun _ backend (performed : Performed Unit) =>
      backend.Marked performed.moment performed.call) _ submitted.queue :=
    Calls.memory.call () ⟨(1000 : ℕ), []⟩ enqueue_small fun _ hlive => absurd hlive (by decide)
  have hlive : Backend.Live
      ((Backend.memory .empty).call .default ⟨(1000 : ℕ), []⟩ enqueue_small).2 "job" := by decide
  have hstatus : ((worked redelivered).world.state.jobs.get? "job").map JobStatus.status =
      some .running := by decide +kernel
  obtain ⟨job, hget, hrunning⟩ := Option.map_eq_some_iff.mp hstatus
  refine no_orphaned_job hcalls (fun job_id job h => ?_) (fun job_id job h _ => ?_) (fun _ => rfl)
    (Run.start.schedule (fun outcome _ _ _ => ⟨outcome, rfl⟩) redelivered hsober) "job" job hget
    (by rw [hrunning]; rfl)
  · obtain ⟨rfl, rfl⟩ := submitted_record h
    rfl
  · obtain ⟨rfl, rfl⟩ := submitted_record h
    exact hlive

open Orphans in
-- Both workers are through, and the record waits for a retry that no queue holds.
theorem late_failure_orphans_job :
    ∃ pool : ServicePool (Fin 2) (job_queue .default),
      Run (service_step .small) (fun _ _ => False) Unrestricted
        (ServicePool.start .small submitted two_workers) pool ∧
      (∃ answer, pool.threads 0 = .ret answer) ∧ (∃ error, pool.threads 1 = .raise error) ∧
      (pool.world.state.jobs.get? "job").map JobStatus.status = some .retrying ∧
      ¬Backend.Live pool.world.state.queue "job" := by
  have hgone : ¬Backend.Live queue_after_late_failure "job" := by decide +kernel
  exact ⟨worked late_failure, Run.start.schedule (fun outcome _ _ _ => ⟨outcome, rfl⟩) late_failure
    (respects_unrestricted _ _), Program.ret_of_succeeded (by decide +kernel),
    Program.raise_of_failed (by decide +kernel), by decide +kernel, hgone⟩

end ResearchAgent.Service
