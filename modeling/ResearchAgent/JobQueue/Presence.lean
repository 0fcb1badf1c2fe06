import ResearchAgent.JobQueue.Moves

namespace ResearchAgent.JobQueue

open Library JobTable

-- The job that the call takes out of the queue, if it is there to be taken.
def QueueCall.removes : QueueCall → Option String
  | .ack envelope | .remove_dead_letter envelope => some envelope.job_id
  | _ => none

namespace Presence

variable {cfg : Config} {clock : ℚ≥0 → Prop} {job_id : String} {state state' : JobState}
  {table table' : JobTable} {call : QueueCall} {reply : Except QueueError QueueReply}

def Present (table : JobTable) (job_id : String) : Prop := table.jobs job_id ≠ .absent

theorem expire_present (h : state ≠ .absent) (now : ℚ≥0) : state.expire cfg now ≠ .absent := by
  cases state with
  | inflight envelope lease_until =>
      dsimp only [JobState.expire, JobState.recovered]
      split_ifs <;> exact JobState.noConfusion
  | absent | ready | scheduled | dead => exact h

-- No call but one that removes the job takes it out.
theorem move_present (hmove : Move cfg clock job_id call reply state state')
    (h : state ≠ .absent) (hcall : call.removes ≠ some job_id) : state' ≠ .absent := by
  cases hmove with
  | left => exact h
  | @claimed _ _ now _ _ _ waiting _ hpromoted hpopped =>
      have hexpired : state.expire cfg now ≠ .absent := expire_present h now
      have hwaiting : waiting ≠ .absent := by
        generalize state.expire cfg now = expired at hpromoted hexpired
        cases hpromoted with
        | left => exact hexpired
        | due => exact JobState.noConfusion
      cases hpopped with
      | left => exact hwaiting
      | handed => exact JobState.noConfusion
  | acked hid => exact absurd (congrArg some hid) hcall
  | removed hid => exact absurd (congrArg some hid) hcall
  | recovered => exact expire_present h _
  | admitted | renewed | buried | delayed => exact JobState.noConfusion

theorem Present.answers (h : Present table job_id) (hkeyed : table.Keyed)
    (hanswer : Answers cfg clock table call reply table') (hcall : call.removes ≠ some job_id) :
    Present table' job_id :=
  move_present (hanswer.moves hkeyed job_id) h hcall

end Presence

namespace Backend

variable {cfg : Config} {backend : Backend} {table : JobTable} {moment : Moment}
  {call : QueueCall} {job_id : String}

theorem removes_delivered : call.delivered.removes = call.removes := by
  cases call <;> rfl

-- Whatever is called, a job that is not removed stays in one of the four places.
theorem Refines.live_kept (h : backend.Refines table) (hmarked : backend.Marked moment call)
    (hlive : backend.Live job_id) (hcall : call.removes ≠ some job_id) :
    (backend.call cfg moment call).2.Live job_id := by
  obtain ⟨reply, table', hanswer, -, hrefines⟩ := h.answers_marked cfg hmarked
  have hpresent : Presence.Present table job_id := h.not_absent_of_live hlive
  by_contra hgone
  exact hpresent.answers h.keyed hanswer (by rwa [removes_delivered])
    (hrefines.absent_of_not_live hgone)

end Backend

end ResearchAgent.JobQueue
