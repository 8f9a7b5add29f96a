import ZeptoPM.Outcomes

/- Runs that get stuck. An open run goes on as long as one of its jobs is queued
   or active. It stops when the last such job ends without promoting, retrying or
   creating another: pending jobs then wait for dependencies that can no longer
   complete, and no later call looks at the run again. A restart stops it too,
   since hydration fails jobs without checking their runs. `Unstalled` excludes
   these steps, and `unstuck_run` shows that no other run of the daemon gets
   stuck. -/
namespace ZeptoPM
open OrchestratorEngine

/-- A run is over if none of its jobs is active or queued. -/
def Unstuck (e : OrchestratorEngine) : Prop :=
  ∀ r run, e.store.getRun r = some run →
    (∀ k job, e.store.getJob k = some job → job.runId = r →
      e.activeJobs.get k = none ∧ k ∉ e.readyQueue) →
    run.status = .completed ∨ run.status = .failed ∨ run.status = .cancelled

def RunStatus.isOpen : RunStatus → Bool
  | .pending | .running => true
  | .completed | .failed | .cancelled => false

theorem RunStatus.isOpen_of_finished {s : RunStatus} (h : s.finished = true) :
    s.isOpen = false := by
  cases s <;> first | rfl | cases h

namespace OrchestratorEngine

/-- The record of the run says that it is not over. -/
def Open (e : OrchestratorEngine) (r : RunId) : Prop :=
  ∃ run ∈ e.store.getRun r, run.status.isOpen = true

instance (e : OrchestratorEngine) (r : RunId) : Decidable (e.Open r) :=
  inferInstanceAs (Decidable (∃ _ ∈ _, _))

/-- Some job of the run is queued or active. -/
def Busy (e : OrchestratorEngine) (r : RunId) : Prop :=
  ∃ k job, e.store.getJob k = some job ∧ job.runId = r ∧
    (k ∈ e.readyQueue ∨ ∃ r', e.activeJobs.get k = some r')

/-! ## The condition -/

/-- The open run has unfinished jobs besides `j`, but none of them is queued or
active. -/
def LastBusy (w : World) (e : OrchestratorEngine) (r : RunId) (j : JobId) : Prop :=
  e.Open r ∧ e.NoneQueued r ∧
    (∀ job ∈ e.store.listRunJobs w r, job.jobId ≠ j → e.activeJobs.get job.jobId = none) ∧
    ∃ job ∈ e.store.listRunJobs w r, job.jobId ≠ j ∧ job.status.unfinished = true

instance (w : World) (e : OrchestratorEngine) (r : RunId) (j : JobId) :
    Decidable (e.LastBusy w r j) :=
  inferInstanceAs (Decidable (_ ∧ _ ∧ (∀ _ ∈ _, _) ∧ ∃ _ ∈ _, _))

end OrchestratorEngine

/-- The action queues a job of the run. -/
def QueuesFor (r : RunId) (c : Core) (x : World × Action) : Prop :=
  match x.2 with
  | .call _ (.acceptPlan r' _ plan) => r' = r ∧ ∃ spec ∈ plan.jobs, spec.dependsOn = []
  | .call _ (.handleReviewCompletion j d m) =>
    ∃ rev ∈ c.engine.store.getJob j, rev.runId = r ∧ c.engine.Revises j d m rev
  | .call _ (.markFailed j _) =>
    ∃ job ∈ c.engine.store.getJob j, job.runId = r ∧ job.retries = true
  | _ => False

instance (r : RunId) (c : Core) (x : World × Action) : Decidable (QueuesFor r c x) := by
  obtain ⟨w, ⟨r₀, f⟩ | _⟩ := x
  · rcases f with _ | _ <;> dsimp only [QueuesFor] <;> infer_instance
  all_goals
    dsimp only [QueuesFor]
    infer_instance

/-- The outcome of the last busy job of an open run promotes or retries a job, or
a later action of the step queues one; and each open run that is hydrated has a
row of a job that hydration will queue. -/
def Unstalled (c : Core) (x : World × Action) (rest : List (World × Action)) : Prop :=
  match x.2 with
  | .call _ (.markCompleted j o) =>
    ∀ r ∈ c.engine.activeJobs.get j, c.engine.LastBusy x.1 r j →
      (∃ job ∈ c.engine.store.listRunJobs x.1 r,
        Promotable (c.engine.completedStore x.1 j o) r job) ∨
      Occurs coreStep (QueuesFor r) (coreStep c x) rest
  | .call _ (.markFailed j _) =>
    ∀ r ∈ c.engine.activeJobs.get j, c.engine.LastBusy x.1 r j →
      c.engine.requeues j = true ∨ Occurs coreStep (QueuesFor r) (coreStep c x) rest
  | .hydrate => ∀ db ∈ c.db, ∀ run ∈ db.loadRuns x.1, run.status.isOpen = true →
      ∃ job ∈ db.loadJobs x.1, job.runId = run.runId ∧
        (job.status = .ready ∨ job.status = .running ∧ job.retries = true)
  | _ => True

instance (c : Core) (x : World × Action) (rest : List (World × Action)) :
    Decidable (Unstalled c x rest) := by
  obtain ⟨w, ⟨r₀, f⟩ | _⟩ := x
  · rcases f with _ | _ <;> dsimp only [Unstalled] <;> infer_instance
  all_goals
    dsimp only [Unstalled]
    infer_instance

/-! ## Busy runs stay busy -/

section
variable {w : World} {e e' : OrchestratorEngine} {r : RunId}

theorem unstuck_of_busy (h : ∀ r, e.Open r → e.Busy r) : Unstuck e := by
  intro r run hrun hidle
  by_contra hst
  have hopen : run.status.isOpen = true := by
    cases hs : run.status <;> simp [hs, RunStatus.isOpen] at hst ⊢
  obtain ⟨k, job, hjob, hr, hbusy⟩ := h r ⟨run, hrun, hopen⟩
  obtain ⟨hact, hq⟩ := hidle k job hjob hr
  rcases hbusy with hk | ⟨r', hk⟩
  · exact hq hk
  · rw [hact] at hk
    cases hk

/-- A run stays busy where its queued jobs stay queued and its active ones active. -/
theorem OrchestratorEngine.Busy.keep (h : e.Busy r)
    (hjob : ∀ k job, e.store.getJob k = some job → job.runId = r →
      ∃ job', e'.store.getJob k = some job' ∧ job'.runId = r)
    (hq : ∀ k job, e.store.getJob k = some job → job.runId = r → k ∈ e.readyQueue →
      k ∈ e'.readyQueue ∨ ∃ r', e'.activeJobs.get k = some r')
    (hact : ∀ k job r', e.store.getJob k = some job → job.runId = r →
      e.activeJobs.get k = some r' → ∃ r'', e'.activeJobs.get k = some r'') : e'.Busy r := by
  obtain ⟨k, job, hget, hr, hbusy⟩ := h
  obtain ⟨job', hget', hr'⟩ := hjob k job hget hr
  refine ⟨k, job', hget', hr', ?_⟩
  rcases hbusy with hk | ⟨r', hk⟩
  · exact hq k job hget hr hk
  · exact Or.inr (hact k job r' hget hr hk)

theorem OrchestratorEngine.Busy.created {r' : RunId} {new : List Job} (hg : Grounded e)
    (hn : Created e e' r' new) (h : e.Busy r) : e'.Busy r := by
  refine h.keep ?_ ?_ ?_
  · intro k job hjob hr
    exact ⟨job, hg.supervised.getJob_created hn hjob, hr⟩
  · intro k job _ _ hk
    rw [hn.readyQueue]
    exact Or.inl (List.mem_append_left _ hk)
  · intro k job r'' _ _ hk
    rw [hn.activeJobs]
    exact ⟨r'', hk⟩

/-- A ready job among new ones makes their run busy. -/
theorem busy_of_created {new : List Job} (hn : Created e e' r new) {job : Job} (hjob : job ∈ new)
    (hst : job.status = .ready) : e'.Busy r := by
  refine ⟨job.jobId, job, hn.getJob_new job hjob, hn.runId job hjob, Or.inl ?_⟩
  rw [hn.readyQueue]
  refine List.mem_append_right _ (List.mem_map_of_mem (List.mem_filter.mpr ⟨hjob, ?_⟩))
  rw [hst]
  rfl

theorem busy_started (h : e.Busy r) {job : Job} {q : List JobId}
    (hq : e.readyQueue = job.jobId :: q) (hjob : e.store.getJob job.jobId = some job) :
    (e.started w job q).Busy r := by
  have hstarted : ∀ k, k = job.jobId → ∃ r', (e.started w job q).activeJobs.get k = some r' := by
    intro k hk
    exact ⟨job.runId, by rw [getActive_started, if_pos hk]⟩
  refine h.keep ?_ ?_ ?_
  · intro k job' hjob' hr
    rw [getJob_started]
    by_cases hk : k = job.jobId
    · rw [if_pos hk, hjob]
      rw [hk, hjob] at hjob'
      cases hjob'
      exact ⟨_, rfl, hr⟩
    · rw [if_neg hk]
      exact ⟨job', hjob', hr⟩
  · intro k _ _ _ hk
    rw [hq] at hk
    rcases List.mem_cons.mp hk with hkj | hk
    · exact Or.inr (hstarted k hkj)
    · exact Or.inl hk
  · intro k _ r' _ _ hk
    by_cases hkj : k = job.jobId
    · exact hstarted k hkj
    · exact ⟨r', by rw [getActive_started, if_neg hkj]; exact hk⟩

/-- An outcome of `j` that leaves an unfinished job in its run, and that run busy
with nothing, has found `j` to be the last busy job of the run. -/
theorem lastBusy_of_idle {j : JobId} (hopen : e.Open r) (hsame : Same e e')
    (hq : ∀ k ∈ e.readyQueue, k ∈ e'.readyQueue)
    (hact : ∀ k, k ≠ j → e'.activeJobs.get k = e.activeJobs.get k)
    (hleft : Unfinished e'.store r)
    (hback : ∀ k job', e'.store.getJob k = some job' → job'.status.unfinished = true →
      k ≠ j ∧ ∃ job, e.store.getJob k = some job ∧ job'.runId = job.runId ∧
        job.status.unfinished = true)
    (hidle : ¬ e'.Busy r) : e.LastBusy w r j := by
  refine ⟨hopen, ?_, ?_, ?_⟩
  · intro k hk job hjob hr
    obtain ⟨job', hjob', hr'⟩ := hsame.job_after hjob
    exact hidle ⟨k, job', hjob', hr'.trans hr, Or.inl (hq k hk)⟩
  · intro job hmem hne
    obtain ⟨hjob, hr⟩ := RunStore.mem_listRunJobs.mp hmem
    cases hk : e.activeJobs.get job.jobId with
    | none => rfl
    | some r' =>
      obtain ⟨job', hjob', hr'⟩ := hsame.job_after hjob
      exact absurd ⟨job.jobId, job', hjob', hr'.trans hr, Or.inr ⟨r', (hact _ hne).trans hk⟩⟩ hidle
  · obtain ⟨k, job', hjob', hr', hst'⟩ := hleft
    obtain ⟨hne, job, hjob, hr, hst⟩ := hback k job' hjob' hst'
    have hid := RunStore.jobId_of_getJob hjob
    subst hid
    exact ⟨job, RunStore.mem_listRunJobs.mpr ⟨hjob, hr.symm.trans hr'⟩, hne, hst⟩

/-- An outcome of a job of another run leaves a busy run busy. -/
theorem busy_outcome {j : JobId} (hhome : e.Home) (h : e.Busy r) (hsame : Same e e')
    (hq : ∀ k ∈ e.readyQueue, k ∈ e'.readyQueue)
    (hact : ∀ k, k ≠ j → e'.activeJobs.get k = e.activeJobs.get k)
    (hj : e.activeJobs.get j ≠ some r) : e'.Busy r := by
  refine h.keep ?_ (fun k _ _ _ hk => Or.inl (hq k hk)) ?_
  · intro k job hjob hr
    obtain ⟨job', hjob', hr'⟩ := hsame.job_after hjob
    exact ⟨job', hjob', hr'.trans hr⟩
  · intro k job r' hjob hr hk
    refine ⟨r', (hact k ?_).trans hk⟩
    intro heq
    subst heq
    have hrun : r' = r :=
      calc r' = job.runId := (hhome k r' job hk hjob).symm
        _ = r := hr
    exact hj (hrun ▸ hk)

theorem busy_markCompleted (hg : Grounded e) (j : JobId) (o : List ArtifactId)
    (hopen : (e.markCompleted w j o).Open r) : e.Open r ∧ (e.Busy r →
      (e.markCompleted w j o).Busy r ∨ (e.activeJobs.get j = some r ∧ e.LastBusy w r j ∧
        ¬ ∃ job ∈ e.store.listRunJobs w r, Promotable (e.completedStore w j o) r job)) := by
  have hsame : Same e (e.markCompleted w j o) := same_markCompleted j o
  have hq : ∀ k ∈ e.readyQueue, k ∈ (e.markCompleted w j o).readyQueue := by
    intro k hk
    rw [readyQueue_markCompleted]
    exact List.mem_append_left _ hk
  have hact : ∀ k, k ≠ j →
      (e.markCompleted w j o).activeJobs.get k = e.activeJobs.get k := by
    intro k hk
    rw [activeJobs_markCompleted, HashMap.get_remove, if_neg hk]
  obtain ⟨run, hrun, hst⟩ := hopen
  rcases runs_markCompleted w e j o hrun with ⟨hold, hleft⟩ | ⟨_, _, hfin, _⟩
  · refine ⟨⟨run, hold, hst⟩, fun hbusy => ?_⟩
    by_cases hj : e.activeJobs.get j = some r
    · by_cases hb : (e.markCompleted w j o).Busy r
      · exact Or.inl hb
      · have hjob : HasJob (e.markCompleted w j o).store r := by
          obtain ⟨k, job, hjob, hr, _⟩ := hbusy
          obtain ⟨job', hjob', hr'⟩ := hsame.job_after hjob
          exact ⟨k, job', hjob', hr'.trans hr⟩
        refine Or.inr ⟨hj, lastBusy_of_idle ⟨run, hold, hst⟩ hsame hq hact (hleft hj hjob) ?_ hb, ?_⟩
        · intro k job' hjob' hst'
          obtain ⟨job, hget, hcases⟩ := markCompleted_job w e j o hjob'
          rcases hcases with ⟨_, rfl⟩ | ⟨hne, _, hp, rfl⟩ | ⟨hne, _, rfl⟩
          · cases hst'
          · exact ⟨hne, job, hget, rfl, by rw [hp]; rfl⟩
          · exact ⟨hne, job', hget, rfl, hst'⟩
        · intro h
          obtain ⟨job, hmem, hp⟩ := h
          -- a promoted job is queued
          obtain ⟨hget, hr⟩ := RunStore.mem_listRunJobs.mp hmem
          have hne : job.jobId ≠ j := by
            intro heq
            subst heq
            have hrunning := hg.activeRunning _ r job hj hget
            rw [hp.2.1] at hrunning
            cases hrunning
          obtain ⟨job', hget', hr'⟩ := hsame.job_after hget
          refine hb ⟨job.jobId, job', hget', hr'.trans hr, Or.inl ?_⟩
          rw [readyQueue_markCompleted]
          exact List.mem_append_right _
            ((mem_promotedIds w e j o).mpr ⟨r, job, hj, hne, hget, hp⟩)
    · exact Or.inl (busy_outcome hg.supervised.home hbusy hsame hq hact hj)
  · rw [RunStatus.isOpen_of_finished hfin] at hst
    cases hst

theorem busy_markFailed (hg : Grounded e) (j : JobId) (err : String)
    (hopen : (e.markFailed w j err).Open r) : e.Open r ∧ (e.Busy r →
      (e.markFailed w j err).Busy r ∨ (e.activeJobs.get j = some r ∧ e.LastBusy w r j ∧
        e.requeues j = false)) := by
  have hsame : Same e (e.markFailed w j err) := same_markFailed j err
  have hq : ∀ k ∈ e.readyQueue, k ∈ (e.markFailed w j err).readyQueue := by
    intro k hk
    rw [readyQueue_markFailed]
    split
    · exact List.mem_append_left _ hk
    · exact hk
  have hact : ∀ k, k ≠ j → (e.markFailed w j err).activeJobs.get k = e.activeJobs.get k := by
    intro k hk
    rw [activeJobs_markFailed, HashMap.get_remove, if_neg hk]
  obtain ⟨run, hrun, hst⟩ := hopen
  rcases runs_markFailed w e j err hrun with ⟨hold, hleft⟩ | ⟨_, _, hfin, _⟩
  · refine ⟨⟨run, hold, hst⟩, fun hbusy => ?_⟩
    by_cases hj : e.activeJobs.get j = some r
    · by_cases hb : (e.markFailed w j err).Busy r
      · exact Or.inl hb
      · have hjob : HasJob (e.markFailed w j err).store r := by
          obtain ⟨k, job, hjob, hr, _⟩ := hbusy
          obtain ⟨job', hjob', hr'⟩ := hsame.job_after hjob
          exact ⟨k, job', hjob', hr'.trans hr⟩
        -- a retried job would be queued
        have hreq : e.requeues j = false := by
          cases hreq : e.requeues j with
          | false => rfl
          | true =>
            obtain ⟨job, hget, _⟩ := (requeues_iff e j).mp hreq
            obtain ⟨job', hget', hr'⟩ := hsame.job_after hget
            refine absurd ⟨j, job', hget', ?_, Or.inl ?_⟩ hb
            · exact hr'.trans (hg.supervised.home j r job hj hget)
            · rw [readyQueue_markFailed, if_pos hreq]
              exact List.mem_append_right _ (List.mem_singleton_self j)
        refine Or.inr
          ⟨hj, lastBusy_of_idle ⟨run, hold, hst⟩ hsame hq hact (hleft hj hjob) ?_ hb, hreq⟩
        intro k job' hjob' hst'
        obtain ⟨job, hget, ⟨rfl, rfl⟩ | ⟨hne, rfl⟩⟩ := markFailed_job w e j err hjob'
        · have hno : job.retries = false := by
            rw [requeues, hget] at hreq
            exact hreq
          rw [Job.fail_status, hno] at hst'
          cases hst'
        · exact ⟨hne, _, hget, rfl, hst'⟩
    · exact Or.inl (busy_outcome hg.supervised.home hbusy hsame hq hact hj)
  · rw [RunStatus.isOpen_of_finished hfin] at hst
    cases hst

/-! ## One action -/

/-- An action that queues a job of a run makes the run busy. -/
theorem busy_of_queuesFor {c : Core} {x : World × Action} (hl : Legal c x)
    (h : QueuesFor r c x) : (coreStep c x).engine.Busy r := by
  obtain ⟨e, db⟩ := c
  obtain ⟨w, a⟩ := x
  obtain ⟨hw, hl⟩ := hl
  cases a with
  | call r₀ f =>
    cases f with
    | acceptPlan r' p plan =>
      obtain ⟨rfl, spec, hspec, hdeps⟩ := h
      have hn := created_acceptPlan (r := r') (p := p) hw (validatePlan_eq_nil.mp hl.2.1)
      have hjob : materializeJob w r' p (planIds w e.ids plan) spec ∈ planJobs w e.ids r' p plan :=
        List.mem_map_of_mem hspec
      exact busy_of_created hn hjob (by simp [materializeJob, hdeps])
    | handleReviewCompletion j d m =>
      obtain ⟨rev, _, rfl, hrev⟩ := h
      obtain ⟨coder, feedback, heq⟩ := review_of_revises (w := w) hrev
      have hn := created_revised hw rev coder m feedback
      show (e.handleReviewCompletion w j d m).2.Busy rev.runId
      rw [heq]
      exact busy_of_created hn List.mem_cons_self rfl
    | markFailed j err =>
      obtain ⟨job, hjob, rfl, hretries⟩ := h
      refine ⟨j, job.fail w err, ?_, Job.fail_runId .., Or.inl ?_⟩
      · show (e.markFailed w j err).store.getJob j = _
        have hget : e.store.getJob j = some job := hjob
        rw [getJob_markFailed, if_pos rfl, hget]
        rfl
      · show j ∈ (e.markFailed w j err).readyQueue
        rw [readyQueue_markFailed, if_pos ((requeues_iff e j).mpr ⟨job, hjob, hretries⟩)]
        exact List.mem_append_right _ (List.mem_singleton_self j)
    | _ => exact absurd h id
  | _ => exact absurd h id

/-- A run that a call does not touch was open before it. -/
theorem open_of_getRun (hopen : e'.Open r) (hrun : e'.store.getRun r = e.store.getRun r) :
    e.Open r := by
  obtain ⟨run, hget, hst⟩ := hopen
  exact ⟨run, hrun.symm.trans hget, hst⟩

/-- An id that is not that of a job makes no run busy. -/
theorem busy_dropped (h : e.Busy r) {q : List JobId}
    (hq : q = e.readyQueue ∨ ∃ j, e.readyQueue = j :: q ∧ e.store.getJob j = none) :
    Busy { e with readyQueue := q } r := by
  refine h.keep (fun k job hjob hr => ⟨job, hjob, hr⟩) ?_ (fun k job r' _ _ hk => ⟨r', hk⟩)
  intro k job hjob _ hk
  rcases hq with rfl | ⟨j, hq, hnone⟩
  · exact Or.inl hk
  · rw [hq] at hk
    rcases List.mem_cons.mp hk with rfl | hk
    · rw [hnone] at hjob
      cases hjob
    · exact Or.inl hk

/-- Starting a job opens no run. -/
theorem open_started {job : Job} {q : List JobId} (hopen : (e.started w job q).Open r) :
    e.Open r := by
  obtain ⟨run', hrun', hst⟩ := hopen
  have hget := (getRun_started w e job q r).symm.trans hrun'
  split at hget
  · rename_i hr
    obtain ⟨run, hrun, rfl⟩ := Option.map_eq_some_iff.mp hget
    refine ⟨run, hr ▸ hrun, ?_⟩
    by_cases hp : run.status = .pending
    · rw [hp]
      rfl
    · rwa [Run.start_status_of_ne w hp] at hst
  · exact ⟨run', hget, hst⟩

/-- Cancelling one run leaves the others open and busy. -/
theorem busy_cancelled {r' : RunId} (hc : CancelledRun w e (e.cancelRun w r').2 r')
    (hopen : (e.cancelRun w r').2.Open r) :
    e.Open r ∧ (e.Busy r → (e.cancelRun w r').2.Busy r) := by
  have hr : r ≠ r' := by
    intro heq
    subst heq
    obtain ⟨run, hrun, hst⟩ := hopen
    obtain ⟨run', hrun', hst'⟩ := hc.getRun_self
    cases hrun'.symm.trans hrun
    rw [hst'] at hst
    cases hst
  have hother : ∀ k job, e.store.getJob k = some job → job.runId = r → ¬ e.Cancels r' k := by
    intro k job hjob hjr hcancels
    obtain ⟨job', hjob', hjr', _⟩ := hcancels
    cases hjob.symm.trans hjob'
    exact hr (hjr.symm.trans hjr')
  refine ⟨open_of_getRun hopen (hc.getRun_ne r hr), fun hbusy => hbusy.keep ?_ ?_ ?_⟩
  · intro k job hjob hjr
    exact ⟨job, (hc.getJob_other k (hother k job hjob hjr)).trans hjob, hjr⟩
  · intro k job hjob hjr hk
    apply Or.inl
    rw [hc.queue, List.mem_filter]
    refine ⟨hk, ?_⟩
    rw [hjob]
    simp [hjr, hr]
  · intro k job r'' hjob hjr hk
    exact ⟨r'', (hc.active_other k (hother k job hjob hjr)).trans hk⟩

/-- After a call a busy run is still busy, or the call was the outcome of its last
busy job. -/
theorem busy_call {db : Option SqlitePersistence} {r₀ : RunId} {f : Call} (hg : Grounded e)
    (hl : Legal ⟨e, db⟩ (w, .call r₀ f)) {rest : List (World × Action)}
    (hok : Unstalled ⟨e, db⟩ (w, .call r₀ f) rest) (hopen : (f.apply w e).Open r) :
    (f.apply w e).Busy r ∨ (e.Open r ∧ (e.Busy r → (f.apply w e).Busy r ∨
      Occurs coreStep (QueuesFor r) ⟨f.apply w e, db⟩ rest)) := by
  cases outcome_call hg hl with
  | frame hf =>
    refine Or.inr ⟨open_of_getRun hopen (hf.getRun r),
      fun hbusy => Or.inl (hbusy.keep ?_ ?_ ?_)⟩
    · intro k job hjob hr
      exact ⟨job, (hf.getJob k).trans hjob, hr⟩
    · intro k job _ _ hk
      rw [hf.readyQueue]
      exact Or.inl hk
    · intro k job r' _ _ hk
      rw [hf.activeJobs]
      exact ⟨r', hk⟩
  | submitted task hn _ =>
    by_cases hr : r = (e.submitIds w).1
    · exact Or.inl (hr ▸ busy_of_created hn (List.mem_singleton_self _) rfl)
    · obtain ⟨run, hrun, hst⟩ := hopen
      have hold := (getRun_submitRun w e task r).symm.trans hrun
      rw [if_neg hr] at hold
      exact Or.inr ⟨⟨run, hold, hst⟩, fun hbusy => Or.inl (hbusy.created hg hn)⟩
  | dropped q heq hq =>
    have hcall : Call.apply w e .startNext = _ := heq
    rw [hcall] at hopen ⊢
    exact Or.inr ⟨hopen, fun hbusy => Or.inl (busy_dropped hbusy hq)⟩
  | started job q hq hjob heq =>
    have hcall : Call.apply w e .startNext = _ := heq
    rw [hcall] at hopen ⊢
    exact Or.inr ⟨open_started hopen, fun hbusy => Or.inl (busy_started hbusy hq hjob)⟩
  | completed j o =>
    obtain ⟨hold, hbusy⟩ := busy_markCompleted hg j o hopen
    refine Or.inr ⟨hold, fun hb => (hbusy hb).imp id ?_⟩
    intro h
    obtain ⟨hact, hlast, hno⟩ := h
    exact (hok r hact hlast).resolve_left hno
  | failed j err =>
    obtain ⟨hold, hbusy⟩ := busy_markFailed hg j err hopen
    refine Or.inr ⟨hold, fun hb => (hbusy hb).imp id ?_⟩
    intro h
    obtain ⟨hact, hlast, hno⟩ := h
    refine (hok r hact hlast).resolve_left ?_
    rw [Bool.not_eq_true]
    exact hno
  | planned _ p plan hn =>
    exact Or.inr ⟨open_of_getRun hopen (hn.getRun r),
      fun hbusy => Or.inl (hbusy.created hg hn.created)⟩
  | revised j d m rev new _ hn =>
    exact Or.inr ⟨open_of_getRun hopen (hn.getRun r),
      fun hbusy => Or.inl (hbusy.created hg hn.created)⟩
  | cancelled r' hc =>
    obtain ⟨hold, hbusy⟩ := busy_cancelled hc hopen
    exact Or.inr ⟨hold, fun hb => Or.inl (hbusy hb)⟩

theorem busy_hydrate {c : Core} {rest : List (World × Action)}
    (hok : Unstalled c (w, .hydrate) rest) (hopen : (c.act w .hydrate).engine.Open r) :
    (c.act w .hydrate).engine.Busy r := by
  obtain ⟨e, db⟩ := c
  obtain ⟨run, hrun, hst⟩ := hopen
  cases db with
  | none => cases hrun
  | some db =>
    have hget : db.getRun r = some run := (getRun_hydrate r).symm.trans hrun
    obtain ⟨row, hrow, rfl⟩ := Option.map_eq_some_iff.mp hget
    have hkey : row.runId = r := Table.key_of_get hrow
    have hload : Run.ofRow row ∈ db.loadRuns w :=
      SqlitePersistence.mem_loadRuns.mpr ⟨row, hkey ▸ hrow, rfl⟩
    obtain ⟨job, hjob, hr, hready⟩ := hok db rfl (Run.ofRow row) hload hst
    have hjob' : (hydrate w (some db) e.ids).store.getJob job.jobId = some (job.recover w) := by
      rw [getJob_hydrate, mem_loadJobs_iff.mp hjob]
      rfl
    refine ⟨job.jobId, job.recover w, hjob', ?_, Or.inl ?_⟩
    · rw [Job.recover_runId, hr]
      exact hkey
    · refine mem_readyQueue_hydrate.mpr ⟨_, hjob', ?_⟩
      rw [Job.recover_status]
      rcases hready with hready | ⟨hrunning, hretries⟩
      · rw [hready]
        rfl
      · rw [if_pos hrunning, if_pos hretries]

end

/-- Every open run is busy, or will be made so by an action still to come. -/
def Ongoing (c : Core) (rest : List (World × Action)) : Prop :=
  ∀ r, c.engine.Open r → c.engine.Busy r ∨ Occurs coreStep (QueuesFor r) c rest

theorem ongoing_act (c : Core) (x : World × Action) (rest : List (World × Action)) (hs : Sound c)
    (hl : Legal c x) (h : Ongoing c (x :: rest)) (hok : Unstalled c x rest) :
    Ongoing (coreStep c x) rest := by
  intro r hopen
  -- what is still to come may be this action
  have hwait : c.engine.Open r → (c.engine.Busy r → (coreStep c x).engine.Busy r ∨
      Occurs coreStep (QueuesFor r) (coreStep c x) rest) →
      (coreStep c x).engine.Busy r ∨ Occurs coreStep (QueuesFor r) (coreStep c x) rest := by
    intro hold hkeep
    rcases h r hold with hbusy | hnow | hlater
    · exact hkeep hbusy
    · exact Or.inl (busy_of_queuesFor hl hnow)
    · exact Or.inr hlater
  obtain ⟨e, db⟩ := c
  obtain ⟨w, a⟩ := x
  cases a with
  | call r₀ f =>
    rcases busy_call hs.grounded hl hok hopen with hbusy | ⟨hold, hkeep⟩
    · exact Or.inl hbusy
    · exact hwait hold hkeep
  | persistRunState r' => exact hwait hopen (fun hb => Or.inl hb)
  | persistArtifact artifact => exact hwait hopen (fun hb => Or.inl hb)
  | genId pre => exact hwait hopen (fun hb => Or.inl hb)
  | expire r' =>
    obtain ⟨run, hrun, hst⟩ := hopen
    have hold := (getRun_expire r).symm.trans hrun
    split at hold
    · cases hold
    · rename_i hr
      refine hwait ⟨run, hold, hst⟩ (fun hb => Or.inl (hb.keep ?_ (fun _ _ _ _ hk => Or.inl hk)
        (fun _ _ r'' _ _ hk => ⟨r'', hk⟩)))
      intro k job hjob hjr
      exact ⟨job, getJob_expire.mpr ⟨hjob, fun heq => hr (hjr.symm.trans heq)⟩, hjr⟩
  | hydrate => exact Or.inl (busy_hydrate hok hopen)

/-! ## Runs of the daemon -/

/-- As long as no last busy job of an open run ends without anything taking its
place, no run gets stuck. -/
theorem unstuck_run (persistent : Bool) (sandboxOverride : Option Bool) (capsule : Bool)
    (is : List (World × Input))
    (h : Meets Daemon.step (GuardedRest Unstalled)
      (Daemon.off persistent sandboxOverride capsule) is)
    (halive : (run Daemon.step (Daemon.off persistent sandboxOverride capsule) is).alive = true) :
    Unstuck (run Daemon.step (Daemon.off persistent sandboxOverride capsule) is).engine := by
  have hboot : ∀ c w, Sound c → True → Unstalled c (w, .hydrate) [] →
      ∀ r, (c.act w .hydrate).engine.Open r → (c.act w .hydrate).engine.Busy r :=
    fun c w _ _ hok r hopen => busy_hydrate hok hopen
  have hstep : ∀ c l, Sound c → True → Meets coreStep Legal c l → Settled l →
      (∀ r, c.engine.Open r → c.engine.Busy r) → MeetsRest coreStep Unstalled c l →
      ∀ r, (run coreStep c l).engine.Open r → (run coreStep c l).engine.Busy r := by
    intro c l hs _ hl _ hbusy hok r hopen
    have hrun := run_invariant_rest (P := fun c rest => Sound c ∧ Ongoing c rest)
      (fun c x rest hc hx => ⟨sound_act hc.1 hx.1, ongoing_act c x rest hc.1 hx.1 hc.2 hx.2⟩)
      ⟨hs, fun r hopen => Or.inl (hbusy r hopen)⟩ (MeetsRest.and_meets hl hok)
    exact (hrun.2 r hopen).resolve_right id
  exact unstuck_of_busy (alive_run (Q := fun _ => True) (fun _ _ _ _ _ => True.intro) hboot hstep
    (sound_off ..) True.intro (fun h => by cases h) h halive)

/-! ## A run that a restart leaves behind -/

/-- The planner is in its last attempt when the process is started again. -/
def lastAttemptLost : List (World × Input) :=
  [(plannerWorld soloPlan, .start), (plannerWorld soloPlan, .command (.submitRun "task")),
    (plannerWorld soloPlan, failedEvent "job_1_1"), (plannerWorld soloPlan, failedEvent "job_1_1"),
    (plannerWorld soloPlan, .start)]

/-- Hydration fails the planner and leaves its run running. -/
theorem not_unstuck_lastAttemptLost :
    Meets Daemon.step Clocked (Daemon.off true none false) lastAttemptLost ∧
      (run Daemon.step (Daemon.off true none false) lastAttemptLost).alive = true ∧
      ¬ Unstuck (run Daemon.step (Daemon.off true none false) lastAttemptLost).engine := by
  refine ⟨by decide, by decide, fun h => ?_⟩
  obtain ⟨r, hrun, hst⟩ := Option.map_eq_some_iff.mp (show
    ((run Daemon.step (Daemon.off true none false) lastAttemptLost).engine.store.getRun
      "run_1_0").map (·.status) = some .running by decide)
  have hidle : (run Daemon.step (Daemon.off true none false) lastAttemptLost).engine.activeJobs.len
      = 0 ∧ (run Daemon.step (Daemon.off true none false) lastAttemptLost).engine.readyQueue = [] :=
    by decide
  have hover := h "run_1_0" r hrun (fun k _ _ _ =>
    ⟨HashMap.get_eq_none_of_len hidle.1 k, by rw [hidle.2]; exact List.not_mem_nil⟩)
  simp [hst] at hover

/-- The same planner without the restart: its last failure fails the run. -/
theorem unstuck_run_failed :
    Unstuck (run Daemon.step (Daemon.off true none false)
      [(plannerWorld soloPlan, .start), (plannerWorld soloPlan, .command (.submitRun "task")),
        (plannerWorld soloPlan, failedEvent "job_1_1"),
        (plannerWorld soloPlan, failedEvent "job_1_1"),
        (plannerWorld soloPlan, failedEvent "job_1_1")]).engine :=
  unstuck_run true none false _ (by decide) (by decide)

end ZeptoPM
