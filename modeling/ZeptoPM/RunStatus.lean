import ZeptoPM.Outcomes

/- The status of a run against the state of its jobs. `Truthful` is what a
   finished run promises. The promise is broken where work is added to a run
   that has been declared over already: by a plan or a revision that arrives
   after the completion check, by the retry of a job that is not active, by a
   job that is still queued when the check finds every job of its run done.
   `Reported` excludes these calls and nothing else, and `truthful_run` shows
   that every other run of the daemon is truthful throughout. -/
namespace ZeptoPM
open OrchestratorEngine

/-- A completed or failed run has no unfinished job and none queued or active,
and no job of a completed run has failed. -/
def Truthful (e : OrchestratorEngine) : Prop :=
  ∀ r run, e.store.getRun r = some run → (run.status = .completed ∨ run.status = .failed) →
    ∀ k job, e.store.getJob k = some job → job.runId = r →
      (job.status ≠ .pending ∧ job.status ≠ .ready ∧ job.status ≠ .running) ∧
      k ∉ e.readyQueue ∧ e.activeJobs.get k = none ∧
      (run.status = .completed → job.status ≠ .failed)

/-! ## The condition -/

/-- The record of the run says that it is over. -/
def OrchestratorEngine.Over (e : OrchestratorEngine) (r : RunId) : Prop :=
  ∃ run ∈ e.store.getRun r, run.status.finished = true

instance (e : OrchestratorEngine) (r : RunId) : Decidable (e.Over r) :=
  inferInstanceAs (Decidable (∃ _ ∈ _, _))

/-- Every other job of the run is finished. -/
def OrchestratorEngine.LastOpen (w : World) (e : OrchestratorEngine) (r : RunId) (j : JobId) :
    Prop :=
  ∀ job ∈ e.store.listRunJobs w r, job.jobId ≠ j → job.status.unfinished = false

instance (w : World) (e : OrchestratorEngine) (r : RunId) (j : JobId) :
    Decidable (e.LastOpen w r j) :=
  inferInstanceAs (Decidable (∀ _ ∈ _, _))

/-- No work is added to a run that is over: plans and revisions are for runs that
are not, a failed job of one is neither retried nor the first to fail, and where
an active job is the last open one of its run, none of the run is queued. -/
def Reported (c : Core) (x : World × Action) : Prop :=
  match x.2 with
  | .call _ (.acceptPlan r _ _) => ¬ c.engine.Over r
  | .call _ (.handleReviewCompletion j d m) =>
    ∀ rev ∈ c.engine.store.getJob j, c.engine.Revises j d m rev → ¬ c.engine.Over rev.runId
  | .call _ (.markCompleted j _) =>
    ∀ r ∈ c.engine.activeJobs.get j, c.engine.LastOpen x.1 r j → c.engine.NoneQueued r
  | .call _ (.markFailed j _) =>
    (∀ r ∈ c.engine.activeJobs.get j, c.engine.LastOpen x.1 r j → c.engine.requeues j = false →
      c.engine.NoneQueued r) ∧
    ∀ job ∈ c.engine.store.getJob j, ∀ run ∈ c.engine.store.getRun job.runId,
      run.status.finished = true → job.retries = false ∧ run.status = .failed
  | _ => True

instance (c : Core) (x : World × Action) : Decidable (Reported c x) := by
  obtain ⟨w, ⟨r₀, f⟩ | _⟩ := x
  · rcases f with _ | _ <;> dsimp only [Reported] <;> infer_instance
  all_goals
    dsimp only [Reported]
    infer_instance

/-! ## The invariant -/

/-- What the status of a run says of the status of each of its jobs. -/
def RunStatus.Fits (s : RunStatus) (j : JobStatus) : Prop :=
  s.finished = true → j.unfinished = false ∧ (s = .completed → j ≠ .failed)

theorem RunStatus.fits_of_open {s : RunStatus} (h : s.finished = false) (j : JobStatus) :
    s.Fits j := by
  intro hs
  rw [h] at hs
  cases hs

/-- Statuses of runs and jobs fit, and queued jobs are of runs that are not over. -/
structure Accurate (e : OrchestratorEngine) : Prop where
  fits : ∀ k job run, e.store.getJob k = some job → e.store.getRun job.runId = some run →
    run.status.Fits job.status
  queue : ∀ k ∈ e.readyQueue, ∀ job run, e.store.getJob k = some job →
    e.store.getRun job.runId = some run → run.status.finished = false

/-- The statuses fit in the database as well. -/
def AccurateRows (db : SqlitePersistence) : Prop :=
  ∀ k job run, db.getJob k = some job → db.getRun job.runId = some run →
    run.status.Fits job.status

theorem RunStatus.finished_iff {s : RunStatus} :
    s.finished = true ↔ s = .completed ∨ s = .failed := by
  cases s <;> simp [RunStatus.finished]

theorem truthful_of_accurate {e : OrchestratorEngine} (hg : Grounded e) (h : Accurate e) :
    Truthful e := by
  intro r run hrun hover k job hjob h
  obtain rfl := h
  have hfin := RunStatus.finished_iff.mpr hover
  obtain ⟨hdone, hfailed⟩ := h.fits k job run hjob hrun hfin
  refine ⟨?_, ?_, ?_, hfailed⟩
  · cases hst : job.status <;> rw [hst] at hdone <;> simp [JobStatus.unfinished] at hdone ⊢
  · intro hmem
    rw [h.queue k hmem job run hjob hrun] at hfin
    cases hfin
  · cases hact : e.activeJobs.get k with
    | none => rfl
    | some r' =>
      rw [hg.activeRunning k r' job hact hjob] at hdone
      cases hdone

/-! ## One action -/

section
variable {w : World} {e e' : OrchestratorEngine}

theorem Accurate.frame (h : Accurate e) (hf : Frame e e') : Accurate e' := by
  refine ⟨?_, ?_⟩
  · intro k job run hjob hrun
    rw [hf.getJob] at hjob
    rw [hf.getRun] at hrun
    exact h.fits k job run hjob hrun
  · intro k hk job run hjob hrun
    rw [hf.readyQueue] at hk
    rw [hf.getJob] at hjob
    rw [hf.getRun] at hrun
    exact h.queue k hk job run hjob hrun

theorem accurate_submitRun (hg : Grounded e) (h : Accurate e) (task : String)
    (hn : Created e (e.submitRun w task).2 (e.submitIds w).1
      [plannerJob w (e.submitIds w).1 (e.submitIds w).2 task])
    (hfresh : ¬ Issued e.ids (e.submitIds w).1) : Accurate (e.submitRun w task).2 := by
  -- the new run is pending, and no old job is in it
  have hnew : ∀ run, (e.submitRun w task).2.store.getRun (e.submitIds w).1 = some run →
      run.status.finished = false := by
    intro run hrun
    rw [getRun_submitRun, if_pos rfl] at hrun
    cases hrun
    rfl
  have hold : ∀ k job, e.store.getJob k = some job →
      (e.submitRun w task).2.store.getRun job.runId = e.store.getRun job.runId := by
    intro k job hjob
    obtain ⟨run, hrun⟩ := hg.runOf k job hjob
    rw [getRun_submitRun, if_neg]
    intro heq
    exact hfresh (heq ▸ hg.runIssued _ run hrun)
  refine ⟨?_, ?_⟩
  · intro k job run hjob hrun
    rcases hn.cases hjob with ⟨hmem, _⟩ | ⟨_, hjob'⟩
    · rw [hn.runId job hmem] at hrun
      exact RunStatus.fits_of_open (hnew run hrun) _
    · rw [hold k job hjob'] at hrun
      exact h.fits k job run hjob' hrun
  · intro k hk job run hjob hrun
    rcases hn.cases hjob with ⟨hmem, _⟩ | ⟨hnot, hjob'⟩
    · rw [hn.runId job hmem] at hrun
      exact hnew run hrun
    · rw [hold k job hjob'] at hrun
      rw [hn.readyQueue, List.mem_append] at hk
      refine h.queue k (hk.resolve_right (fun hk => ?_)) job run hjob' hrun
      exact hnot ((List.filter_sublist.map _).mem hk)

theorem accurate_started (h : Accurate e) {job : Job} {q : List JobId}
    (hq : e.readyQueue = job.jobId :: q) (hjob : e.store.getJob job.jobId = some job) :
    Accurate (e.started w job q) := by
  have hopen : ∀ run, (e.started w job q).store.getRun job.runId = some run →
      run.status.finished = false := by
    intro run hrun
    rw [getRun_started, if_pos rfl] at hrun
    obtain ⟨run₀, hrun₀, rfl⟩ := Option.map_eq_some_iff.mp hrun
    have hnot := h.queue job.jobId (hq ▸ List.mem_cons_self) job run₀ hjob hrun₀
    unfold Run.start
    split
    · rfl
    · exact hnot
  have hother : ∀ r, r ≠ job.runId →
      (e.started w job q).store.getRun r = e.store.getRun r := by
    intro r hr
    rw [getRun_started, if_neg hr]
  refine ⟨?_, ?_⟩
  · intro k job' run hjob' hrun
    by_cases hr : job'.runId = job.runId
    · rw [hr] at hrun
      exact RunStatus.fits_of_open (hopen run hrun) _
    · rw [hother _ hr] at hrun
      rw [getJob_started] at hjob'
      split at hjob'
      · rw [hjob] at hjob'
        cases hjob'
        exact absurd rfl hr
      · exact h.fits k job' run hjob' hrun
  · intro k hk job' run hjob' hrun
    by_cases hr : job'.runId = job.runId
    · rw [hr] at hrun
      exact hopen run hrun
    · rw [hother _ hr] at hrun
      rw [getJob_started] at hjob'
      split at hjob'
      · rw [hjob] at hjob'
        cases hjob'
        exact absurd rfl hr
      · exact h.queue k (hq ▸ List.mem_cons_of_mem _ hk) job' run hjob' hrun

/-- The status of a run that has been checked fits all its jobs. -/
theorem RunStatus.fits_of_done {s' : RunStore} {k : JobId} {job' : Job} {st : RunStatus}
    (hjob' : s'.getJob k = some job') (hdone : ¬ Unfinished s' job'.runId)
    (hfail : st = .completed → ¬ HasFailed s' job'.runId) : st.Fits job'.status := by
  intro _
  refine ⟨?_, fun hst hj => hfail hst ⟨k, job', hjob', rfl, hj⟩⟩
  by_contra hst
  exact hdone ⟨k, job', hjob', rfl, by simpa using hst⟩

/-- Where a run has been checked, the other jobs of the run were finished before. -/
theorem lastOpen_of_done {s' : RunStore} {r : RunId} {j : JobId} (hdone : ¬ Unfinished s' r)
    (hkeep : ∀ k job, e.store.getJob k = some job → k ≠ j → job.status.unfinished = true →
      ∃ job', s'.getJob k = some job' ∧ job'.runId = job.runId ∧ job'.status.unfinished = true) :
    e.LastOpen w r j := by
  intro job hjob hne
  obtain ⟨hget, hr⟩ := RunStore.mem_listRunJobs.mp hjob
  by_contra hst
  obtain ⟨job', hget', hr', hst'⟩ := hkeep job.jobId job hget hne (by simpa using hst)
  exact hdone ⟨job.jobId, job', hget', hr'.trans hr, hst'⟩

theorem accurate_markCompleted (h : Accurate e) (j : JobId) (o : List ArtifactId)
    (hnone : ∀ r ∈ e.activeJobs.get j, e.LastOpen w r j → e.NoneQueued r) :
    Accurate (e.markCompleted w j o) := by
  -- a run with a pending job is not over
  have hpending : ∀ k job run, e.store.getJob k = some job → job.status = .pending →
      e.store.getRun job.runId = some run → run.status.finished = false := by
    intro k job run hjob hst hget
    cases hfin : run.status.finished with
    | false => rfl
    | true =>
      have hdone := (h.fits k job run hjob hget hfin).1
      rw [hst] at hdone
      cases hdone
  refine ⟨?_, ?_⟩
  · intro k job' run' hjob' hget'
    obtain ⟨job, hjob, hcases⟩ := markCompleted_job w e j o hjob'
    rcases runs_markCompleted w e j o hget' with ⟨hget, _⟩ | ⟨_, hdone, _, hfail⟩
    · rcases hcases with ⟨_, rfl⟩ | ⟨_, _, hst, rfl⟩ | ⟨_, _, rfl⟩
      · exact fun _ => ⟨rfl, fun _ => by simp⟩
      · exact RunStatus.fits_of_open (hpending k job run' hjob hst hget) _
      · exact h.fits k job' run' hjob hget
    · exact RunStatus.fits_of_done hjob' hdone hfail
  · intro k hk job' run' hjob' hget'
    obtain ⟨job, hjob, hcases⟩ := markCompleted_job w e j o hjob'
    have hr : job'.runId = job.runId := by
      rcases hcases with ⟨_, rfl⟩ | ⟨_, _, _, rfl⟩ | ⟨_, _, rfl⟩ <;> rfl
    rw [readyQueue_markCompleted, List.mem_append] at hk
    rcases runs_markCompleted w e j o hget' with ⟨hget, _⟩ | ⟨hact, hdone, _⟩
    · rw [hr] at hget
      rcases hk with hk | hk
      · exact h.queue k hk job run' hjob hget
      · obtain ⟨_, job₀, _, _, hjob₀, hp⟩ := (mem_promotedIds w e j o).mp hk
        rw [hjob] at hjob₀
        cases hjob₀
        exact hpending k job run' hjob hp.2.1 hget
    · exfalso
      rcases hk with hk | hk
      -- the run is concluded, so the completed job was its last one
      · have hlast : e.LastOpen w job'.runId j := by
          refine lastOpen_of_done hdone ?_
          intro i ji hji hne hst
          obtain ⟨job'', hget'', hr'', hst''⟩ := markCompleted_unfinished w e j o hji hne
          exact ⟨job'', hget'', hr'', hst''.trans hst⟩
        exact hnone _ hact hlast k hk job hjob hr.symm
      · obtain ⟨_, job₀, _, hne, hjob₀, hp⟩ := (mem_promotedIds w e j o).mp hk
        rcases hcases with ⟨hkj, _⟩ | ⟨_, _, _, rfl⟩ | ⟨_, hnot, _⟩
        · exact hne hkj
        · exact hdone ⟨k, _, hjob', rfl, rfl⟩
        · exact hnot hk

theorem accurate_markFailed (hhome : e.Home) (h : Accurate e) (j : JobId) (err : String)
    (hnone : ∀ r ∈ e.activeJobs.get j, e.LastOpen w r j → e.requeues j = false → e.NoneQueued r)
    (hover : ∀ job ∈ e.store.getJob j, ∀ run ∈ e.store.getRun job.runId,
      run.status.finished = true → job.retries = false ∧ run.status = .failed) :
    Accurate (e.markFailed w j err) := by
  have hbefore : ∀ k job', (e.markFailed w j err).store.getJob k = some job' → ∃ job,
      e.store.getJob k = some job ∧ job'.runId = job.runId ∧
        (k = j ∧ job' = job.fail w err ∨ k ≠ j ∧ job' = job) := by
    intro k job' hk
    obtain ⟨job, hjob, hcases⟩ := markFailed_job w e j err hk
    refine ⟨job, hjob, ?_, hcases⟩
    rcases hcases with ⟨_, rfl⟩ | ⟨_, rfl⟩
    · exact Job.fail_runId ..
    · rfl
  refine ⟨?_, ?_⟩
  · intro k job' run' hjob' hget'
    obtain ⟨job, hjob, hr, hcases⟩ := hbefore k job' hjob'
    rcases runs_markFailed w e j err hget' with ⟨hget, _⟩ | ⟨_, hdone, _, hfail⟩
    · rw [hr] at hget
      rcases hcases with ⟨rfl, rfl⟩ | ⟨_, rfl⟩
      · intro hfin
        obtain ⟨hno, hst⟩ := hover job hjob run' hget hfin
        rw [Job.fail_status, hno, hst]
        exact ⟨rfl, fun hc => by cases hc⟩
      · exact h.fits k job' run' hjob hget
    · exact RunStatus.fits_of_done hjob' hdone hfail
  · intro k hk job' run' hjob' hget'
    obtain ⟨job, hjob, hr, _⟩ := hbefore k job' hjob'
    have hk' : k ∈ e.readyQueue ∨ (k = j ∧ e.requeues j = true) := by
      rw [readyQueue_markFailed] at hk
      split at hk
      · rename_i hreq
        exact (List.mem_append.mp hk).imp id (fun hk => ⟨List.mem_singleton.mp hk, hreq⟩)
      · exact Or.inl hk
    rcases runs_markFailed w e j err hget' with ⟨hget, _⟩ | ⟨hact, hdone, _⟩
    · rw [hr] at hget
      rcases hk' with hk | ⟨rfl, hreq⟩
      · exact h.queue k hk job run' hjob hget
      · cases hfin : run'.status.finished with
        | false => rfl
        | true =>
          obtain ⟨job₀, hjob₀, hretries⟩ := (requeues_iff e k).mp hreq
          rw [hjob] at hjob₀
          cases hjob₀
          rw [(hover job hjob run' hget hfin).1] at hretries
          cases hretries
    · exfalso
      -- a requeued job would be unfinished
      have hreq : e.requeues j = false := by
        cases hreq : e.requeues j with
        | false => rfl
        | true =>
          obtain ⟨job₀, hjob₀, hretries⟩ := (requeues_iff e j).mp hreq
          refine absurd ⟨j, job₀.fail w err, ?_, ?_, ?_⟩ hdone
          · rw [getJob_markFailed, if_pos rfl, hjob₀]
            rfl
          · exact (Job.fail_runId ..).trans (hhome j _ job₀ hact hjob₀)
          · rw [Job.fail_status, hretries]
            rfl
      rcases hk' with hk | ⟨_, hreq'⟩
      · have hlast : e.LastOpen w job'.runId j := by
          refine lastOpen_of_done hdone ?_
          intro i ji hji hne hst
          exact ⟨ji, by rw [getJob_markFailed, if_neg hne]; exact hji, rfl, hst⟩
        exact hnone _ hact hlast hreq k hk job hjob hr.symm
      · rw [hreq] at hreq'
        cases hreq'

theorem Accurate.enlarged (h : Accurate e) {r : RunId} {new : List Job}
    (hn : Enlarged e e' r new) (hopen : ¬ e.Over r) : Accurate e' := by
  have hnew : ∀ run, e'.store.getRun r = some run → run.status.finished = false := by
    intro run hrun
    rw [hn.getRun] at hrun
    by_contra hfin
    exact hopen ⟨run, hrun, by simpa using hfin⟩
  refine ⟨?_, ?_⟩
  · intro k job run hjob hrun
    rcases hn.created.cases hjob with ⟨hmem, _⟩ | ⟨_, hjob'⟩
    · rw [hn.created.runId job hmem] at hrun
      exact RunStatus.fits_of_open (hnew run hrun) _
    · rw [hn.getRun] at hrun
      exact h.fits k job run hjob' hrun
  · intro k hk job run hjob hrun
    rcases hn.created.cases hjob with ⟨hmem, _⟩ | ⟨hnot, hjob'⟩
    · rw [hn.created.runId job hmem] at hrun
      exact hnew run hrun
    · rw [hn.getRun] at hrun
      rw [hn.created.readyQueue, List.mem_append] at hk
      refine h.queue k (hk.resolve_right (fun hk => ?_)) job run hjob' hrun
      exact hnot ((List.filter_sublist.map _).mem hk)

theorem Accurate.cancelled (h : Accurate e) {r : RunId} (hc : CancelledRun w e e' r) :
    Accurate e' := by
  have hself : ∀ run, e'.store.getRun r = some run → run.status.finished = false := by
    intro run hrun
    obtain ⟨run', hrun', hst⟩ := hc.getRun_self
    rw [hrun'] at hrun
    cases hrun
    rw [hst]
    rfl
  -- the jobs of other runs are as they were
  have hother : ∀ k job, e'.store.getJob k = some job → job.runId ≠ r →
      e.store.getJob k = some job := by
    intro k job hk hr
    by_cases hcan : e.Cancels r k
    · rw [hc.getJob_cancelled k hcan] at hk
      obtain ⟨job₀, hjob₀, rfl⟩ := Option.map_eq_some_iff.mp hk
      obtain ⟨job₁, hjob₁, hr₁, _⟩ := hcan
      rw [hjob₀] at hjob₁
      cases hjob₁
      exact absurd ((Job.fail_runId ..).trans hr₁) hr
    · exact (hc.getJob_other k hcan).symm.trans hk
  refine ⟨?_, ?_⟩
  · intro k job run hjob hrun
    by_cases hr : job.runId = r
    · exact RunStatus.fits_of_open (hself run (hr ▸ hrun)) _
    · rw [hc.getRun_ne _ hr] at hrun
      exact h.fits k job run (hother k job hjob hr) hrun
  · intro k hk job run hjob hrun
    by_cases hr : job.runId = r
    · exact hself run (hr ▸ hrun)
    · rw [hc.getRun_ne _ hr] at hrun
      rw [hc.queue] at hk
      exact h.queue k (List.mem_filter.mp hk).1 job run (hother k job hjob hr) hrun

/-! ## Database and restart -/

variable {db : SqlitePersistence} {r : RunId}

theorem accurateRows_persist (hi : Image db e) (h : Accurate e)
    (hdb : AccurateRows db) : AccurateRows (db.persistRunState w e.store r) := by
  intro k job run hjob hrun
  rcases persisted_job hi hjob with ⟨hr, hjob'⟩ | ⟨hr, hjob'⟩ <;>
    rcases persisted_run hi hrun with ⟨hr', hrun'⟩ | ⟨hr', hrun'⟩
  · exact h.fits k job run hjob' hrun'
  · exact absurd hr hr'
  · exact absurd hr' hr
  · exact hdb k job run hjob' hrun'

theorem accurateRows_deleteRun (hdb : AccurateRows db) : AccurateRows (db.deleteRun w r) := by
  intro k job run hjob hrun
  obtain ⟨hjob', hr⟩ := SqlitePersistence.getJob_deleteRun.mp hjob
  rw [SqlitePersistence.getRun_deleteRun, if_neg hr] at hrun
  exact hdb k job run hjob' hrun

theorem Accurate.expire (h : Accurate e) : Accurate (e.removeRun w r) := by
  refine ⟨?_, ?_⟩
  · intro k job run hjob hrun
    obtain ⟨hjob', hr⟩ := getJob_expire.mp hjob
    rw [getRun_expire, if_neg hr] at hrun
    exact h.fits k job run hjob' hrun
  · intro k hk job run hjob hrun
    obtain ⟨hjob', hr⟩ := getJob_expire.mp hjob
    rw [getRun_expire, if_neg hr] at hrun
    exact h.queue k hk job run hjob' hrun

theorem accurate_hydrate (hdb : AccurateRows db) (ids : IdSupply) :
    Accurate (hydrate w (some db) ids) := by
  have hfits : ∀ k job run, (hydrate w (some db) ids).store.getJob k = some job →
      (hydrate w (some db) ids).store.getRun job.runId = some run →
      run.status.Fits job.status := by
    intro k job' run hjob' hrun
    rw [getJob_hydrate] at hjob'
    obtain ⟨job, hjob, rfl⟩ := Option.map_eq_some_iff.mp hjob'
    rw [getRun_hydrate, Job.recover_runId] at hrun
    have hfit := hdb k job run hjob hrun
    intro hfin
    have hdone := (hfit hfin).1
    rw [Job.recover_status, if_neg]
    · exact hfit hfin
    · intro hst
      rw [hst] at hdone
      cases hdone
  refine ⟨hfits, ?_⟩
  intro k hk job run hjob hrun
  obtain ⟨job', hjob', hst⟩ := mem_readyQueue_hydrate.mp hk
  rw [hjob] at hjob'
  cases hjob'
  cases hfin : run.status.finished with
  | false => rfl
  | true =>
    have hdone := (hfits k job run hjob hrun hfin).1
    rw [hst] at hdone
    cases hdone

end

theorem accurate_empty (ids : IdSupply) : Accurate { new 4 with ids := ids } where
  fits := by
    intro _ _ _ hjob
    cases hjob
  queue := by
    intro _ hk
    cases hk

/-! ## Runs of the daemon -/

/-- Engine and database are accurate. -/
def AccurateCore (c : Core) : Prop :=
  Accurate c.engine ∧ ∀ db, c.db = some db → AccurateRows db

theorem accurate_call {w : World} {e : OrchestratorEngine} {db : Option SqlitePersistence}
    {r : RunId} {f : Call} (hg : Grounded e) (h : Accurate e)
    (hl : Legal ⟨e, db⟩ (w, .call r f)) (hok : Reported ⟨e, db⟩ (w, .call r f)) :
    Accurate (f.apply w e) := by
  cases outcome_call hg hl with
  | frame hf => exact h.frame hf
  | submitted task hn hfresh => exact accurate_submitRun hg h task hn hfresh
  | dropped q heq hq =>
    show Accurate (e.startNext w).2
    rw [heq]
    refine ⟨h.fits, fun k hk => h.queue k ?_⟩
    rcases hq with rfl | ⟨j, hq, _⟩
    · exact hk
    · exact hq ▸ List.mem_cons_of_mem _ hk
  | started job q hq hjob heq =>
    show Accurate (e.startNext w).2
    rw [heq]
    exact accurate_started h hq hjob
  | completed j o => exact accurate_markCompleted h j o hok
  | failed j err => exact accurate_markFailed hg.supervised.home h j err hok.1 hok.2
  | planned r p plan hn => exact h.enlarged hn hok
  | revised j d m rev new hrev hn => exact h.enlarged hn (hok rev hrev.1 hrev)
  | cancelled r hc => exact h.cancelled hc

theorem accurate_act (c : Core) (x : World × Action) (hs : Sound c) (hl : Legal c x)
    (h : AccurateCore c) (hok : Reported c x) : AccurateCore (coreStep c x) := by
  obtain ⟨e, db⟩ := c
  obtain ⟨w, a⟩ := x
  obtain ⟨he, hdb⟩ := h
  cases a with
  | call r f => exact ⟨accurate_call hs.grounded he hl hok, hdb⟩
  | persistRunState r =>
    refine ⟨he, fun db' hdb' => ?_⟩
    obtain ⟨db₀, rfl, rfl⟩ := Option.map_eq_some_iff.mp hdb'
    exact accurateRows_persist (hs.image db₀ rfl) he (hdb db₀ rfl)
  | persistArtifact artifact =>
    refine ⟨he, fun db' hdb' => ?_⟩
    obtain ⟨db₀, rfl, rfl⟩ := Option.map_eq_some_iff.mp hdb'
    exact hdb db₀ rfl
  | genId pre => exact ⟨⟨he.fits, he.queue⟩, hdb⟩
  | expire r =>
    refine ⟨he.expire, fun db' hdb' => ?_⟩
    obtain ⟨db₀, rfl, rfl⟩ := Option.map_eq_some_iff.mp hdb'
    exact accurateRows_deleteRun (hdb db₀ rfl)
  | hydrate =>
    refine ⟨?_, hdb⟩
    cases db with
    | none => exact accurate_empty e.ids.restart
    | some db₀ => exact accurate_hydrate (hdb db₀ rfl) e.ids

theorem accurate_off (persistent : Bool) (sandboxOverride : Option Bool) (capsule : Bool) :
    AccurateCore (Daemon.off persistent sandboxOverride capsule).core := by
  refine ⟨accurate_empty IdSupply.new, fun db hdb => ?_⟩
  cases persistent <;> cases hdb
  intro _ _ _ hjob
  cases hjob

/-- As long as no work is added to a run that is over, runs are truthful. -/
theorem truthful_run (persistent : Bool) (sandboxOverride : Option Bool) (capsule : Bool)
    (is : List (World × Input))
    (h : Meets Daemon.step (Guarded Reported) (Daemon.off persistent sandboxOverride capsule) is) :
    Truthful (run Daemon.step (Daemon.off persistent sandboxOverride capsule) is).engine := by
  obtain ⟨hs, hacc⟩ := core_run accurate_act (sound_off ..) (accurate_off ..) h
  exact truthful_of_accurate hs.grounded hacc.1

/-! ## A run that reports too early -/

/-- A planner delivers a plan of one job and completes. -/
def planDelivered : List (World × Input) :=
  [(plannerWorld soloPlan, .start), (plannerWorld soloPlan, .command (.submitRun "task")),
    (plannerWorld soloPlan, artifactEvent "job_1_1" "plan"),
    (plannerWorld soloPlan, completedEvent "job_1_1" ["plan"])]

/-- The run is completed as soon as its planner is: the job of the plan is created
and started after the check. -/
theorem not_truthful_planDelivered :
    Meets Daemon.step Clocked (Daemon.off true none false) planDelivered ∧
      (run Daemon.step (Daemon.off true none false) planDelivered).alive = true ∧
      ¬ Truthful (run Daemon.step (Daemon.off true none false) planDelivered).engine := by
  refine ⟨by decide, by decide, fun h => ?_⟩
  obtain ⟨r, hrun, hst⟩ := Option.map_eq_some_iff.mp (show
    ((run Daemon.step (Daemon.off true none false) planDelivered).engine.store.getRun
      "run_1_0").map (·.status) = some .completed by decide)
  obtain ⟨job, hjob, heq⟩ := Option.map_eq_some_iff.mp (show
    ((run Daemon.step (Daemon.off true none false) planDelivered).engine.store.getJob
      "job_1_2").map (fun j => (j.runId, j.status)) = some ("run_1_0", JobStatus.running) by decide)
  exact (h "run_1_0" r hrun (Or.inl hst) "job_1_2" job hjob (congrArg Prod.fst heq)).1.2.2
    (congrArg Prod.snd heq)

/-- A planner fails three times, and the run with it. -/
theorem truthful_run_failed :
    Truthful (run Daemon.step (Daemon.off true none false)
      [(plannerWorld soloPlan, .start), (plannerWorld soloPlan, .command (.submitRun "task")),
        (plannerWorld soloPlan, failedEvent "job_1_1"),
        (plannerWorld soloPlan, failedEvent "job_1_1"),
        (plannerWorld soloPlan, failedEvent "job_1_1")]).engine :=
  truthful_run true none false _ (by decide)

end ZeptoPM
