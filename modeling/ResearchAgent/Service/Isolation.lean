import ResearchAgent.Service.Runs

namespace ResearchAgent.Service

open Library JobQueue

variable {queue : Queue}

-- A record without the time of its review, the one clock reading that a request
-- on an existing job leaves in it.
def JobStatus.timeless (job : JobStatus) : JobStatus := { job with approved_at := none }

@[simp] theorem JobStatus.timeless_job_id (job : JobStatus) : job.timeless.job_id = job.job_id :=
  rfl

def Body.timeless : Body → Body
  | job status => job status.timeless
  | listing jobs total => listing (jobs.map JobStatus.timeless) total
  | detail text => detail text

def Response.timeless (response : Response) : Response :=
  ⟨response.status_code, response.body.timeless⟩

-- The requests of one principal, one after another.
def serve_all (settings : Settings) (principal : Principal) :
    List Request → Served queue → List Response × Served queue
  | [], served => ([], served)
  | request :: rest, served =>
      let (result, served) := (request.serve settings principal).run (served_exec settings) served
      let (responses, served) := serve_all settings principal rest served
      (request.respond result :: responses, served)

-- The requests on jobs that exist already.
def Request.OnJobs : Request → Prop
  | get _ | list _ | approve _ | reject _ _ => True
  | submit _ _ => False

namespace Isolation

def WellStored (platform : Platform queue) : Prop :=
  ∀ job_id job, platform.jobs.get? job_id = some job → job.job_id = job_id

-- The records of a tenant, in the order in which they are listed.
def own (tenant_id : String) (platform : Platform queue) : List JobStatus :=
  (platform.jobs.values.filter fun job => job.tenant_id = tenant_id).map JobStatus.timeless

structure Agree (tenant_id : String) (p q : Platform queue) : Prop where
  stored : WellStored p
  stored' : WellStored q
  jobs : own tenant_id p = own tenant_id q
  results : ∀ job ∈ own tenant_id p, p.results.get? job.job_id = q.results.get? job.job_id

def others (tenant_id : String) (platform : Platform queue) : List (String × JobStatus) :=
  platform.jobs.entries.filter fun entry => entry.2.tenant_id ≠ tenant_id

-- Nothing outside the tenant's own records and the audit log has changed.
structure Untouched (tenant_id : String) (start platform : Platform queue) : Prop where
  others : others tenant_id platform = others tenant_id start
  results : platform.results = start.results
  slots : platform.slots = start.slots
  queue : platform.queue = start.queue

variable {tenant_id job_id : String} {p q : Platform queue} {job : JobStatus}

theorem mem_own : job ∈ own tenant_id p ↔
    ∃ job_id stored, p.jobs.get? job_id = some stored ∧ stored.tenant_id = tenant_id ∧
      stored.timeless = job := by
  simp only [own, Dict.values, List.mem_map, List.mem_filter, decide_eq_true_eq, Prod.exists,
    exists_eq_right, Dict.get?_eq_some_iff, and_assoc]
  constructor
  · rintro ⟨stored, ⟨key, hmem⟩, ht, hj⟩
    exact ⟨key, stored, hmem, ht, hj⟩
  · rintro ⟨key, stored, hmem, ht, hj⟩
    exact ⟨stored, ⟨key, hmem⟩, ht, hj⟩

theorem Agree.symm (h : Agree tenant_id p q) : Agree tenant_id q p :=
  ⟨h.stored', h.stored, h.jobs.symm, fun job hm => (h.results job (h.jobs ▸ hm)).symm⟩

-- A record of the tenant's own is there in both stores.
theorem Agree.get? (h : Agree tenant_id p q) (hget : p.jobs.get? job_id = some job)
    (ht : job.tenant_id = tenant_id) :
    ∃ job', q.jobs.get? job_id = some job' ∧ job'.tenant_id = tenant_id ∧
      job'.timeless = job.timeless := by
  have hmem : job.timeless ∈ own tenant_id q := h.jobs ▸ mem_own.mpr ⟨job_id, job, hget, ht, rfl⟩
  obtain ⟨key, job', hget', ht', heq⟩ := mem_own.mp hmem
  have hid : job'.job_id = job.job_id := by simpa using congrArg JobStatus.job_id heq
  have hkey : key = job_id := by rw [← h.stored' key job' hget', hid, h.stored job_id job hget]
  exact ⟨job', hkey ▸ hget', ht', heq⟩

theorem Agree.results_get? (h : Agree tenant_id p q) (hget : p.jobs.get? job_id = some job)
    (ht : job.tenant_id = tenant_id) : p.results.get? job_id = q.results.get? job_id := by
  have hmem := h.results job.timeless (mem_own.mpr ⟨job_id, job, hget, ht, rfl⟩)
  have hid : job.timeless.job_id = job_id := h.stored job_id job hget
  rwa [hid] at hmem

theorem Untouched.trans {a b c : Platform queue} (h : Untouched tenant_id a b)
    (h' : Untouched tenant_id b c) : Untouched tenant_id a c :=
  ⟨h'.others.trans h.others, h'.results.trans h.results, h'.slots.trans h.slots,
    h'.queue.trans h.queue⟩

-- A record of another tenant may as well be missing.
theorem Agree.erase (h : WellStored p) (hget : p.jobs.get? job_id = some job)
    (ht : job.tenant_id ≠ tenant_id) :
    Agree tenant_id p { p with jobs := p.jobs.erase job_id } := by
  refine ⟨h, fun id other hget => ?_, ?_, fun _ _ => rfl⟩
  · simp only [Dict.get?_erase] at hget
    split at hget
    · cases hget
    · exact h id other hget
  · have hall : ∀ entry ∈ p.jobs.entries, entry.2.tenant_id = tenant_id → entry.1 ≠ job_id := by
      intro entry hmem htenant hkey
      have hentry := (p.jobs.get?_eq_some_iff entry.1 entry.2).mpr hmem
      rw [hkey, hget] at hentry
      cases hentry
      exact ht htenant
    simp only [own, Dict.values, Dict.erase, List.filter_map, List.filter_filter]
    congr 2
    refine List.filter_congr fun entry hmem => ?_
    by_cases htenant : entry.2.tenant_id = tenant_id
    · simp [htenant, hall entry hmem htenant]
    · simp [htenant]

section Save

variable {job' : JobStatus}

def saved (platform : Platform queue) (job : JobStatus) : Platform queue :=
  { platform with jobs := platform.jobs.set job.job_id job }

theorem own_saved (hstored : WellStored p) (hget : p.jobs.get? job_id = some job)
    (ht : job.tenant_id = tenant_id) (hid' : job'.job_id = job_id)
    (ht' : job'.tenant_id = tenant_id) :
    own tenant_id (saved p job') = (own tenant_id p).map fun other =>
      if other.job_id = job_id then job'.timeless else other := by
  have hall : ∀ entry ∈ p.jobs.entries,
      entry.2.job_id = entry.1 ∧ (entry.1 = job_id → entry.2.tenant_id = tenant_id) := by
    intro entry hmem
    have hentry := (p.jobs.get?_eq_some_iff entry.1 entry.2).mpr hmem
    refine ⟨hstored _ _ hentry, fun hkey => ?_⟩
    rw [hkey, hget] at hentry
    cases hentry
    exact ht
  subst hid'
  simp only [own, saved, Dict.values, Dict.entries_set_of_get? hget job']
  generalize p.jobs.entries = entries at hall
  induction entries with
  | nil => rfl
  | cons entry rest ih =>
      obtain ⟨⟨hid, htenant⟩, hrest⟩ := List.forall_mem_cons.mp hall
      by_cases hkey : entry.1 = job'.job_id
      · simp [-List.map_map, hkey, htenant hkey, ht', hid.trans hkey, ih hrest]
      · by_cases htenant : entry.2.tenant_id = tenant_id
        · simp [-List.map_map, hkey, htenant, ih hrest, hid]
        · simp [-List.map_map, hkey, htenant, ih hrest]

theorem others_saved (hget : p.jobs.get? job_id = some job) (ht : job.tenant_id = tenant_id)
    (hid' : job'.job_id = job_id) (ht' : job'.tenant_id = tenant_id) :
    others tenant_id (saved p job') = others tenant_id p := by
  have hall : ∀ entry ∈ p.jobs.entries, entry.1 = job_id → entry.2.tenant_id = tenant_id := by
    intro entry hmem hkey
    have hentry := (p.jobs.get?_eq_some_iff entry.1 entry.2).mpr hmem
    rw [hkey, hget] at hentry
    cases hentry
    exact ht
  subst hid'
  simp only [others, saved, Dict.entries_set_of_get? hget job']
  generalize p.jobs.entries = entries at hall
  induction entries with
  | nil => rfl
  | cons entry rest ih =>
      obtain ⟨htenant, hrest⟩ := List.forall_mem_cons.mp hall
      by_cases hkey : entry.1 = job'.job_id
      · simpa [hkey, htenant hkey, ht'] using ih hrest
      · by_cases htenant : entry.2.tenant_id = tenant_id
        · simpa [hkey, htenant] using ih hrest
        · simpa [hkey, htenant] using ih hrest

end Save

-- Two runs side by side, after steps that `p` and `q` were the starts of.
structure Alike (tenant_id : String) (p q : Platform queue) (s t : Served queue) : Prop where
  agree : Agree tenant_id s.1 t.1
  faults : ∀ n, (s.2 n).fault = (t.2 n).fault
  left : Untouched tenant_id p s.1
  right : Untouched tenant_id q t.1

-- Both have a record of the tenant under the id.
structure Holding (tenant_id job_id : String) (p q : Platform queue) (s t : Served queue) : Prop
    extends Alike tenant_id p q s t where
  held : ∃ job, s.1.jobs.get? job_id = some job ∧ job.tenant_id = tenant_id
  held' : ∃ job, t.1.jobs.get? job_id = some job ∧ job.tenant_id = tenant_id

section Operations

variable {settings : Settings} {outcome outcome' : Outcome queue} {op : ServiceOp}
variable {s t : Served queue}

-- The operation leaves all but the audit log alone.
def Quiet : ServiceOp → Prop
  | .jobs_get _ | .jobs_values | .results_get _ | .append_audit _ _ _ _ | .now => True
  | _ => False

theorem exec_quiet (hquiet : Quiet op) :
    ∃ audit, (p.exec settings outcome op).2 = { p with audit } := by
  cases op with
  | now => exact ⟨p.audit, rfl⟩
  | jobs_get | jobs_values | results_get | append_audit =>
      simp only [Platform.exec]
      split <;> exact ⟨_, rfl⟩
  | _ => exact hquiet.elim

-- Related states stay related when only their audit logs change.
structure Steady (R : Served queue → Served queue → Prop) : Prop where
  faults : ∀ s t, R s t → (s.2 0).fault = (t.2 0).fault
  step : ∀ s t audit audit', R s t → R ({ s.1 with audit }, fun n => s.2 (n + 1))
    ({ t.1 with audit := audit' }, fun n => t.2 (n + 1))

theorem steady_alike : Steady (Alike tenant_id p q) where
  faults _ _ h := h.faults 0
  step _ _ _ _ h :=
    ⟨⟨h.agree.stored, h.agree.stored', h.agree.jobs, h.agree.results⟩, fun n => h.faults (n + 1),
      ⟨h.left.others, h.left.results, h.left.slots, h.left.queue⟩,
      ⟨h.right.others, h.right.results, h.right.slots, h.right.queue⟩⟩

theorem steady_holding : Steady (Holding tenant_id job_id p q) where
  faults _ _ h := h.faults 0
  step _ _ audit audit' h := ⟨steady_alike.step _ _ audit audit' h.toAlike, h.held, h.held'⟩

theorem exec_same {same : op.Value → op.Value → Prop} (hfault : outcome.fault = outcome'.fault)
    (h : Program.SameResult same (p.effect settings outcome op).1
      (q.effect settings outcome' op).1) :
    Program.SameResult same (p.exec settings outcome op).1 (q.exec settings outcome' op).1 := by
  cases op with
  | now | uuid4 => exact h
  | _ =>
      simp only [Platform.exec, hfault]
      split
      · exact .error _
      · exact h

theorem pair_quiet (op : ServiceOp) (hquiet : Quiet op) {R : Served queue → Served queue → Prop}
    (hsteady : Steady R) {same : op.Value → op.Value → Prop}
    (h : ∀ s t, R s t → Program.SameResult same (s.1.effect settings (s.2 0) op).1
      (t.1.effect settings (t.2 0) op).1) :
    Program.Pair (served_exec settings) R R same (perform op) (perform op) := by
  intro s t hR
  obtain ⟨audit, hs⟩ := @exec_quiet queue s.1 settings (s.2 0) op hquiet
  obtain ⟨audit', ht⟩ := @exec_quiet queue t.1 settings (t.2 0) op hquiet
  rw [run_perform, run_perform]
  refine ⟨exec_same (hsteady.faults s t hR) (h s t hR), ?_⟩
  simp only [served_exec, hs, ht]
  exact hsteady.step s t audit audit' hR

theorem pair_now : Program.Pair (served_exec settings) (Holding tenant_id job_id p q)
    (Holding tenant_id job_id p q) (fun _ _ => True) Client.now Client.now :=
  pair_quiet .now trivial steady_holding fun _ _ _ => .ok trivial

theorem pair_append_audit (event_type : String) (principal : Principal) (id : Option String)
    (details : JSONObject) :
    Program.Pair (served_exec settings) (Holding tenant_id job_id p q)
      (Holding tenant_id job_id p q) (fun _ _ => True)
      (Client.append_audit event_type principal id details)
      (Client.append_audit event_type principal id details) :=
  pair_quiet (.append_audit event_type principal id details) trivial steady_holding
    fun _ _ _ => .ok trivial

theorem pair_results_get : Program.Pair (served_exec settings) (Holding tenant_id job_id p q)
    (Holding tenant_id job_id p q) Eq (Client.results_get job_id) (Client.results_get job_id) := by
  refine pair_quiet (.results_get job_id) trivial steady_holding fun s t h => .ok ?_
  obtain ⟨job, hget, ht⟩ := h.held
  exact h.agree.results_get? hget ht

theorem pair_jobs_values : Program.Pair (served_exec settings) (Alike tenant_id p q)
    (Alike tenant_id p q)
    (fun values values' => (values.filter fun job => job.tenant_id = tenant_id).map
      JobStatus.timeless = (values'.filter fun job => job.tenant_id = tenant_id).map
      JobStatus.timeless)
    Client.jobs_values Client.jobs_values :=
  pair_quiet .jobs_values trivial steady_alike fun _ _ h => .ok h.agree.jobs

variable {job' : JobStatus}

theorem WellStored.saved (h : WellStored p) : WellStored (saved p job) := by
  intro id other hget
  simp only [Isolation.saved, Dict.get?_set] at hget
  split at hget
  · next heq => cases hget; exact heq.symm
  · exact h id other hget

theorem Agree.saved (h : Agree tenant_id p q) {old old' : JobStatus}
    (hget : p.jobs.get? job_id = some old) (hold : old.tenant_id = tenant_id)
    (hget' : q.jobs.get? job_id = some old') (hold' : old'.tenant_id = tenant_id)
    (hid : job.job_id = job_id) (ht : job.tenant_id = tenant_id)
    (hsame : job.timeless = job'.timeless) :
    Agree tenant_id (saved p job) (saved q job') := by
  have hid' : job'.job_id = job_id := by
    rw [← hid]; simpa using (congrArg JobStatus.job_id hsame).symm
  have ht' : job'.tenant_id = tenant_id := ht ▸ (congrArg JobStatus.tenant_id hsame).symm
  have hown := own_saved h.stored hget hold hid ht
  refine ⟨h.stored.saved, h.stored'.saved, ?_, ?_⟩
  · rw [hown, own_saved h.stored' hget' hold' hid' ht', h.jobs, hsame]
  · intro other hmem
    rw [hown] at hmem
    obtain ⟨before, hbefore, rfl⟩ := List.mem_map.mp hmem
    have hkey : (if before.job_id = job_id then job.timeless else before).job_id =
        before.job_id := by
      split
      · next heq => rw [JobStatus.timeless_job_id, hid, heq]
      · rfl
    rw [hkey]
    exact h.results before hbefore

theorem pair_save (hid : job.job_id = job_id) (ht : job.tenant_id = tenant_id)
    (hsame : job.timeless = job'.timeless) :
    Program.Pair (served_exec settings) (Holding tenant_id job_id p q)
      (Holding tenant_id job_id p q) (fun _ _ => True) (Server.save_job job)
      (Server.save_job job') := by
  intro s t h
  have hid' : job'.job_id = job_id := by
    rw [← hid]; simpa using (congrArg JobStatus.job_id hsame).symm
  have ht' : job'.tenant_id = tenant_id := ht ▸ (congrArg JobStatus.tenant_id hsame).symm
  obtain ⟨old, hget, hold⟩ := h.held
  obtain ⟨old', hget', hold'⟩ := h.held'
  rw [Server.save_job, Server.save_job, run_perform, run_perform]
  simp only [served_exec, Platform.exec, h.faults 0]
  split
  · next error _ => exact ⟨.error error, steady_holding.step s t s.1.audit t.1.audit h⟩
  · refine ⟨.ok trivial, ⟨h.agree.saved hget hold hget' hold' hid ht hsame,
      fun n => h.faults (n + 1), ?_, ?_⟩, ⟨job, ?_, ht⟩, ⟨job', ?_, ht'⟩⟩
    · exact h.left.trans ⟨others_saved hget hold hid ht, rfl, rfl, rfl⟩
    · exact h.right.trans ⟨others_saved hget' hold' hid' ht', rfl, rfl, rfl⟩
    · subst hid; exact Dict.get?_set_self ..
    · subst hid'; exact Dict.get?_set_self ..

end Operations

section Requests

open Server

variable {settings : Settings} {principal : Principal} {β : Type} {same : β → β → Prop}

theorem pair_require_role {R : Served queue → Served queue → Prop} {roles : List Role}
    {f g : Unit → ServiceProgram β}
    (h : Program.Pair (served_exec settings) R R same (f ()) (g ())) :
    Program.Pair (served_exec settings) R R same (require_role principal roles >>= f)
      (require_role principal roles >>= g) := by
  unfold require_role
  split
  · exact h
  · exact .raise _

theorem check_tenant_foreign {value : Option JobStatus}
    (h : ∀ job, value = some job → job.tenant_id ≠ principal.tenant_id) :
    check_tenant job_id principal value = .raise (not_found job_id) := by
  cases value with
  | none => rfl
  | some job => simp [check_tenant, h job rfl]

theorem check_tenant_own {job : JobStatus} (h : job.tenant_id = principal.tenant_id) :
    check_tenant job_id principal (some job) = .ret job := by
  simp [check_tenant, h]

-- A record of the tenant is found in both stores; any other id is answered as if
-- there were no such job, whatever either store has under it.
theorem pair_tenant_job {f g : JobStatus → ServiceProgram β}
    (h : ∀ job job', job.timeless = job'.timeless → job.job_id = job_id →
      job.tenant_id = principal.tenant_id →
      Program.Pair (served_exec settings) (Holding principal.tenant_id job_id p q)
        (Holding principal.tenant_id job_id p q) same (f job) (g job')) :
    Program.Pair (served_exec settings) (Alike principal.tenant_id p q)
      (Alike principal.tenant_id p q) same (tenant_job job_id principal >>= f)
      (tenant_job job_id principal >>= g) := by
  intro s t hst
  obtain ⟨audit, hs⟩ := @exec_quiet queue s.1 settings (s.2 0) (.jobs_get job_id) trivial
  obtain ⟨audit', ht⟩ := @exec_quiet queue t.1 settings (t.2 0) (.jobs_get job_id) trivial
  have hnext := steady_alike.step s t audit audit' hst
  simp only [tenant_job, Program.bind_assoc]
  rw [Program.run_bind, Program.run_bind, run_perform, run_perform]
  simp only [served_exec, hs, ht]
  simp only [Platform.exec, hst.faults 0]
  cases (t.2 0).fault with
  | some error => exact ⟨.error error, hnext⟩
  | none =>
      simp only [Platform.effect]
      by_cases hown : ∃ job, s.1.jobs.get? job_id = some job ∧ job.tenant_id = principal.tenant_id
      · obtain ⟨job, hget, htenant⟩ := hown
        obtain ⟨job', hget', htenant', hsame⟩ := hst.agree.get? hget htenant
        rw [hget, hget', check_tenant_own htenant, check_tenant_own htenant']
        obtain ⟨hresult, hafter⟩ := h job job' hsame.symm (hst.agree.stored _ _ hget) htenant _ _
          ⟨hnext, ⟨job, hget, htenant⟩, ⟨job', hget', htenant'⟩⟩
        exact ⟨hresult, hafter.toAlike⟩
      · have hleft : ∀ job, s.1.jobs.get? job_id = some job →
            job.tenant_id ≠ principal.tenant_id := fun job hget ht => hown ⟨job, hget, ht⟩
        have hright : ∀ job, t.1.jobs.get? job_id = some job →
            job.tenant_id ≠ principal.tenant_id := by
          intro job hget ht
          obtain ⟨job', hget', ht', -⟩ := hst.agree.symm.get? hget ht
          exact hown ⟨job', hget', ht'⟩
        rw [check_tenant_foreign hleft, check_tenant_foreign hright]
        exact ⟨.error _, hnext⟩

theorem pair_get_research_result : Program.Pair (served_exec settings)
    (Alike principal.tenant_id p q) (Alike principal.tenant_id p q)
    (fun job job' => job.timeless = job'.timeless)
    (get_research_result job_id principal) (get_research_result job_id principal) := by
  refine pair_require_role ?_
  rw [← Program.bind_ret (tenant_job job_id principal)]
  exact pair_tenant_job fun _ _ hsame _ _ => .ret hsame

theorem timeless_status {job job' : JobStatus} (h : job.timeless = job'.timeless) :
    job.status = job'.status := by
  simpa [JobStatus.timeless] using congrArg JobStatus.status h

-- Saving two records that differ in their review time only.
theorem pair_review {job job' : JobStatus} (event_type : String) (details : JSONObject)
    (hid : job.job_id = job_id) (ht : job.tenant_id = tenant_id)
    (hsame : job.timeless = job'.timeless) :
    Program.Pair (served_exec settings) (Holding tenant_id job_id p q)
      (Holding tenant_id job_id p q) (fun shown shown' => shown.timeless = shown'.timeless)
      (do
        save_job job
        Client.append_audit event_type principal job_id details
        .ret job)
      (do
        save_job job'
        Client.append_audit event_type principal job_id details
        .ret job') :=
  (pair_save hid ht hsame).bind (fun _ _ h => h) fun _ _ _ =>
    (pair_append_audit event_type principal job_id details).bind (fun _ _ h => h)
      fun _ _ _ => .ret hsame

theorem pair_approve_research : Program.Pair (served_exec settings)
    (Alike principal.tenant_id p q) (Alike principal.tenant_id p q)
    (fun job job' => job.timeless = job'.timeless)
    (approve_research job_id principal) (approve_research job_id principal) := by
  refine pair_require_role (pair_tenant_job fun job job' hsame hid ht => ?_)
  rw [timeless_status hsame]
  split
  · exact .raise _
  · refine pair_results_get.bind (fun _ _ h => h) fun result _ hresult => ?_
    subst hresult
    cases result.bind ResearchState.report with
    | none => exact .raise _
    | some report =>
        refine pair_now.bind (fun _ _ h => h) fun approved_at approved_at' _ => ?_
        exact pair_review _ _ hid ht (congrArg (fun other : JobStatus => { other with
          status := .approved, report := some report,
          approved_by := some principal.principal_id }) hsame)

theorem pair_reject_research (reason : String) : Program.Pair (served_exec settings)
    (Alike principal.tenant_id p q) (Alike principal.tenant_id p q)
    (fun job job' => job.timeless = job'.timeless)
    (reject_research job_id reason principal) (reject_research job_id reason principal) := by
  refine pair_require_role (pair_tenant_job fun job job' hsame hid ht => ?_)
  rw [timeless_status hsame]
  split
  · exact .raise _
  · refine pair_now.bind (fun _ _ h => h) fun approved_at approved_at' _ => ?_
    exact pair_review _ _ hid ht (congrArg (fun other : JobStatus => { other with
      status := .rejected, error := some "Report rejected during human review.",
      approved_by := some principal.principal_id }) hsame)

theorem pair_list_jobs (limit : ℕ) : Program.Pair (served_exec settings)
    (Alike principal.tenant_id p q) (Alike principal.tenant_id p q)
    (fun listing listing' => listing.jobs.map JobStatus.timeless =
      listing'.jobs.map JobStatus.timeless ∧ listing.total = listing'.total)
    (list_jobs limit principal) (list_jobs limit principal) := by
  have hsort : ∀ jobs : List JobStatus, (newest_first jobs).map JobStatus.timeless =
      newest_first (jobs.map JobStatus.timeless) := fun jobs =>
    List.map_mergeSort fun _ _ _ _ => rfl
  have hlength : ∀ jobs : List JobStatus, (newest_first jobs).length =
      (jobs.map JobStatus.timeless).length := fun jobs => by
    simp [newest_first, List.length_mergeSort]
  refine pair_require_role (pair_jobs_values.bind (fun _ _ h => h) fun values values' hsame =>
    .ret ⟨?_, ?_⟩)
  · simp only [List.map_take, hsort, hsame]
  · simp only [hlength, hsame]

theorem pair_serve {request : Request} (hrequest : request.OnJobs) :
    Program.Pair (served_exec settings) (Alike principal.tenant_id p q)
      (Alike principal.tenant_id p q) (fun body body' => body.timeless = body'.timeless)
      (request.serve settings principal) (request.serve settings principal) := by
  have hjob : ∀ {program : ServiceProgram JobStatus},
      Program.Pair (served_exec settings) (Alike principal.tenant_id p q)
        (Alike principal.tenant_id p q) (fun job job' => job.timeless = job'.timeless)
        program program →
      Program.Pair (served_exec settings) (Alike principal.tenant_id p q)
        (Alike principal.tenant_id p q)
        (fun body body' : Body => body.timeless = body'.timeless)
        (program >>= fun job => (.ret (.job job) : ServiceProgram Body))
        (program >>= fun job => .ret (.job job)) :=
    fun h => h.bind (fun _ _ h => h) fun _ _ hsame => .ret (congrArg Body.job hsame)
  cases request with
  | submit => exact hrequest.elim
  | get job_id => exact hjob pair_get_research_result
  | approve job_id => exact hjob pair_approve_research
  | reject job_id reason => exact hjob (pair_reject_research reason)
  | list limit =>
      refine (pair_list_jobs limit).bind (fun _ _ h => h) fun listing listing' hsame => .ret ?_
      simp only [Body.timeless, hsame.1, hsame.2]

theorem respond_timeless {request : Request} {result result' : Except ServiceError Body}
    (h : Program.SameResult (fun body body' => body.timeless = body'.timeless) result result') :
    (request.respond result).timeless = (request.respond result').timeless := by
  cases h with
  | ok hsame => simp only [Request.respond, Response.timeless, hsame]
  | error => rfl

-- Request after request, the responses are the same and the states stay alike.
theorem serve_all_alike {requests : List Request} (hrequests : ∀ request ∈ requests, request.OnJobs)
    {s t : Served queue} (h : Alike principal.tenant_id p q s t) :
    (serve_all settings principal requests s).1.map Response.timeless =
        (serve_all settings principal requests t).1.map Response.timeless ∧
      Alike principal.tenant_id p q (serve_all settings principal requests s).2
        (serve_all settings principal requests t).2 := by
  induction requests generalizing s t with
  | nil => exact ⟨rfl, h⟩
  | cons request rest ih =>
      obtain ⟨hrequest, hrest⟩ := List.forall_mem_cons.mp hrequests
      obtain ⟨hresult, hnext⟩ := pair_serve hrequest s t h
      obtain ⟨hresponses, hafter⟩ := ih hrest hnext
      exact ⟨congrArg₂ List.cons (respond_timeless hresult) hresponses, hafter⟩

end Requests

end Isolation

open Isolation in
-- The requests of a principal see and change the records of the tenant only, up
-- to the times of review. A job of another tenant is like no job at all.
theorem tenants_isolated (settings : Settings) (principal : Principal) {requests : List Request}
    (hrequests : ∀ request ∈ requests, request.OnJobs) {p q : Platform queue}
    {outcomes outcomes' : ℕ → Outcome queue}
    (hfaults : ∀ n, (outcomes n).fault = (outcomes' n).fault)
    (hagree : Agree principal.tenant_id p q) :
    (serve_all settings principal requests (p, outcomes)).1.map Response.timeless =
        (serve_all settings principal requests (q, outcomes')).1.map Response.timeless ∧
      Agree principal.tenant_id (serve_all settings principal requests (p, outcomes)).2.1
        (serve_all settings principal requests (q, outcomes')).2.1 ∧
      Untouched principal.tenant_id p (serve_all settings principal requests (p, outcomes)).2.1 ∧
      ∀ job_id job, p.jobs.get? job_id = some job → job.tenant_id ≠ principal.tenant_id →
        (serve_all settings principal requests (p, outcomes)).1.map Response.timeless =
          (serve_all settings principal requests
            ({ p with jobs := p.jobs.erase job_id }, outcomes)).1.map Response.timeless := by
  have huntouched : ∀ platform : Platform queue, Untouched principal.tenant_id platform platform :=
    fun _ => ⟨rfl, rfl, rfl, rfl⟩
  have halike : Alike principal.tenant_id p q (p, outcomes) (q, outcomes') :=
    ⟨hagree, hfaults, huntouched p, huntouched q⟩
  obtain ⟨hresponses, hafter⟩ := serve_all_alike hrequests halike
  refine ⟨hresponses, hafter.agree, hafter.left, fun job_id job hget hforeign => ?_⟩
  have hwithout := Agree.erase hagree.stored hget hforeign
  have hbeside : Alike principal.tenant_id p { p with jobs := p.jobs.erase job_id } (p, outcomes)
      ({ p with jobs := p.jobs.erase job_id }, outcomes) :=
    ⟨hwithout, fun _ => rfl, huntouched p, huntouched _⟩
  exact (serve_all_alike hrequests hbeside).1

namespace Isolation

-- A job under review, with and without a job of another tenant beside it.
def reviewed_job : JobStatus where
  job_id := "job"
  status := .awaiting_approval
  tenant_id := "tenant"
  principal_id := "principal"
  created_at := "2026-01-01"

def foreign_job : JobStatus := { reviewed_job with job_id := "other", tenant_id := "rival" }

def tenant_alone : Platform (job_queue .default) :=
  { Platform.empty (Backend.memory .empty) with
    jobs := Dict.empty.set "job" reviewed_job
    results := Dict.empty.set "job" { report := some [] } }

def tenant_beside : Platform (job_queue .default) :=
  { tenant_alone with jobs := (Dict.empty.set "other" foreign_job).set "job" reviewed_job }

theorem agree_beside : Agree "tenant" tenant_alone tenant_beside := by
  refine ⟨fun job_id job hget => ?_, fun job_id job hget => ?_, rfl, fun _ _ => rfl⟩
  · simp only [tenant_alone, Dict.get?_set, Dict.get?_empty] at hget
    split at hget
    · next heq => cases hget; exact heq.symm
    · cases hget
  · simp only [tenant_beside, Dict.get?_set, Dict.get?_empty] at hget
    split at hget
    · next heq => cases hget; exact heq.symm
    · split at hget
      · next heq => cases hget; exact heq.symm
      · cases hget

end Isolation

open Isolation in
theorem tenants_isolated_beside :
    (serve_all .small .small [.get "other", .approve "job", .list 20]
        (tenant_alone, fun _ => .at 1000)).1.map Response.timeless =
      (serve_all .small .small [.get "other", .approve "job", .list 20]
        (tenant_beside, fun _ => .at 2000)).1.map Response.timeless :=
  (tenants_isolated .small .small (by simp [Request.OnJobs]) (fun _ => rfl) agree_beside).1

end ResearchAgent.Service
