import ZeptoPM.Schedule

/- A plan from its acceptance on: where a schedule of its jobs can end, and which
   accepted plans can be carried out. `PlanState` holds from the moment the
   planner's job has been completed and its plan materialised, and every call of
   a schedule keeps it. -/
namespace ZeptoPM
open OrchestratorEngine Relation

/-- `a` lists `b` among the jobs it depends on. -/
def ExecutionPlan.DependsOn (plan : ExecutionPlan) (a b : String) : Prop :=
  ∃ job ∈ plan.jobs, job.localId = a ∧ b ∈ job.dependsOn

/-- The job `k` lists `d` among its dependencies. -/
def RunStore.DependsOn (s : RunStore) (k d : JobId) : Prop :=
  ∃ job, s.getJob k = some job ∧ d ∈ job.dependsOn

/-- An engine, reached by a disciplined run, in which the job `p` is active and
the only one of the run `r`. -/
structure PlannerActive (n : Nat) (e : OrchestratorEngine) (r : RunId) (p : JobId) : Prop where
  reached : ∃ cs, Meets engineStep Disciplined (new n) cs ∧ e = run engineStep (new n) cs
  active : e.activeJobs.contains p = true
  planner : ∃ job, e.store.getJob p = some job ∧ job.runId = r
  run : ∃ run, e.store.getRun r = some run
  only : ∀ k job, e.store.getJob k = some job → job.runId = r → k = p

/-- The planner's job completes and its plan is materialised. -/
def planStart (e : OrchestratorEngine) (w₁ w₂ : World) (r : RunId) (p : JobId)
    (o : List ArtifactId) (plan : ExecutionPlan) : OrchestratorEngine :=
  (e.markCompleted w₁ p o).acceptPlan w₂ r p plan

/-- The real ids of the plan's local ones, as `planStart` draws them. -/
def startIds (e : OrchestratorEngine) (w₁ w₂ : World) (p : JobId) (o : List ArtifactId)
    (plan : ExecutionPlan) : HashMap String JobId :=
  planIds w₂ (e.markCompleted w₁ p o).ids plan

/-- The ids `materialize_plan` returns: those of the plan's jobs, in plan order. -/
def planJobIds (plan : ExecutionPlan) (m : HashMap String JobId) : List JobId :=
  plan.jobs.map (fun spec => (m.get spec.localId).getD "")

/-- `m` names exactly the plan's local ids, by distinct job ids. -/
structure Named (plan : ExecutionPlan) (m : HashMap String JobId) : Prop where
  bound : ∀ l, (∃ id, m.get l = some id) ↔ l ∈ plan.jobs.map (·.localId)
  inj : ∀ a b id, m.get a = some id → m.get b = some id → a = b

structure PlanState (r : RunId) (p : JobId) (plan : ExecutionPlan) (m : HashMap String JobId)
    (e : OrchestratorEngine) : Prop where
  dependable : DependableFresh e
  budgeted : Budgeted e
  job : ∀ spec ∈ plan.jobs, ∃ id job, m.get spec.localId = some id ∧
    e.store.getJob id = some job ∧ job.runId = r ∧
    job.dependsOn = spec.dependsOn.filterMap m.get
  only : ∀ k job, e.store.getJob k = some job → job.runId = r →
    k = p ∨ ∃ spec ∈ plan.jobs, m.get spec.localId = some k
  planner : e.store.isCompleted p = true
  status : ∃ run, e.store.getRun r = some run ∧
    (run.status = .completed ∨ HasFailed e.store r)

section
variable {plan : ExecutionPlan} {m : HashMap String JobId}

theorem mem_planJobIds (hm : Named plan m) {k : JobId} :
    k ∈ planJobIds plan m ↔ ∃ spec ∈ plan.jobs, m.get spec.localId = some k := by
  unfold planJobIds
  rw [List.mem_map]
  refine ⟨?_, ?_⟩
  · intro h
    obtain ⟨spec, hspec, rfl⟩ := h
    obtain ⟨id, hid⟩ := (hm.bound spec.localId).mpr (List.mem_map_of_mem hspec)
    exact ⟨spec, hspec, by rw [hid]; rfl⟩
  · intro h
    obtain ⟨spec, hspec, hid⟩ := h
    exact ⟨spec, hspec, by rw [hid]; rfl⟩

variable {r : RunId} {p : JobId} {e : OrchestratorEngine}

/-! ## Where a plan starts -/

section
variable {n : Nat} (h : PlannerActive n e r p) (w₁ w₂ : World) (o : List ArtifactId)
include h

theorem plannerActive_dependable : DependableFresh e ∧ Budgeted e := by
  obtain ⟨cs, hcs, rfl⟩ := h.reached
  exact ⟨dependable_run hcs, budgeted_run hcs⟩

theorem markCompleted_dependable : DependableFresh (e.markCompleted w₁ p o) ∧
    Budgeted (e.markCompleted w₁ p o) :=
  schedule_step (c := (w₁, .markCompleted p o)) (plannerActive_dependable h) h.active

theorem planStart_created (hok : plan.Ok) :
    Created (e.markCompleted w₁ p o) (planStart e w₁ w₂ r p o plan) r
      (planJobs w₂ (e.markCompleted w₁ p o).ids r p plan) :=
  created_acceptPlan (after_of_startedAt (markCompleted_dependable h w₁ o).1.2) hok

/-- The job a planned job has become. -/
theorem planStart_job (hok : plan.Ok) {spec : PlannedJob} (hspec : spec ∈ plan.jobs) :
    ∃ id job, (startIds e w₁ w₂ p o plan).get spec.localId = some id ∧
      (planStart e w₁ w₂ r p o plan).store.getJob id = some job ∧ job.runId = r ∧
      job.dependsOn = spec.dependsOn.filterMap (startIds e w₁ w₂ p o plan).get ∧
      ((job.status = .ready ∧ job.dependsOn = []) ∨ job.status = .pending) := by
  have hcreated := planStart_created h w₁ w₂ o hok
  obtain ⟨id, hid⟩ := planIds_get_of_mem w₂ (e.markCompleted w₁ p o).ids hspec
  have hmem : materializeJob w₂ r p (startIds e w₁ w₂ p o plan) spec ∈
      planJobs w₂ (e.markCompleted w₁ p o).ids r p plan := List.mem_map_of_mem hspec
  have hjid : (materializeJob w₂ r p (startIds e w₁ w₂ p o plan) spec).jobId = id := by
    show ((startIds e w₁ w₂ p o plan).get spec.localId).getD "" = id
    rw [startIds, hid]
    rfl
  refine ⟨id, materializeJob w₂ r p (startIds e w₁ w₂ p o plan) spec, hid, ?_, rfl, rfl, ?_⟩
  · rw [← hjid]
    exact hcreated.getJob_new _ hmem
  · rcases hcreated.shape _ hmem with hr | ⟨hp, _⟩
    · exact Or.inl hr
    · exact Or.inr hp

end

theorem planState_start {n : Nat} (h : PlannerActive n e r p) (w₁ w₂ : World)
    (o : List ArtifactId) (hok : plan.Ok) : Named plan (startIds e w₁ w₂ p o plan) ∧
    PlanState r p plan (startIds e w₁ w₂ p o plan) (planStart e w₁ w₂ r p o plan) := by
  have hdep := (plannerActive_dependable h).1
  obtain ⟨r', pjob, hact, hp, _, hpr⟩ := hdep.1.active h.active
  obtain ⟨pjob', hp', hpr'⟩ := h.planner
  rw [hp] at hp'
  cases hp'
  have hrr : r' = r := hpr.symm.trans hpr'
  subst hrr
  have hdep₁ := markCompleted_dependable h w₁ o
  have hw₂ : w₂.After (e.markCompleted w₁ p o).ids := after_of_startedAt hdep₁.1.2
  have hc₂ : Disciplined (e.markCompleted w₁ p o) (w₂, .acceptPlan r' p plan) :=
    validatePlan_eq_nil.mpr hok
  have hcreated := planStart_created h w₁ w₂ o hok
  have hself := getJob_markCompleted_self w₁ e p o hp
  have hpold : p ∉ (planJobs w₂ (e.markCompleted w₁ p o).ids r' p plan).map (·.jobId) :=
    hcreated.notMem (hdep₁.1.1.supervised.jobIssued p _ hself)
  have hassign := planIds_assignment hw₂ plan
  have hnamed : Named plan (startIds e w₁ w₂ p o plan) :=
    ⟨fun _ => planIds_get_iff, hassign.inj⟩
  -- once the planner is completed, its run has no other job
  have honly : ∀ k job, (e.markCompleted w₁ p o).store.getJob k = some job → job.runId = r' →
      k = p ∧ job = pjob.complete w₁ o := by
    intro k job hk hr
    obtain ⟨job₀, hk₀, hcase⟩ := markCompleted_job w₁ e p o hk
    have hr₀ : job₀.runId = r' := by
      rcases hcase with ⟨_, rfl⟩ | ⟨_, _, _, rfl⟩ | ⟨_, _, rfl⟩ <;> exact hr
    have hkp := h.only k job₀ hk₀ hr₀
    subst hkp
    rw [hself] at hk
    cases hk
    exact ⟨rfl, rfl⟩
  refine ⟨hnamed, ?_⟩
  refine ⟨?_, ?_, ?_, ?_, ?_, ?_⟩
  · exact dependableFresh_step _ (w₂, .acceptPlan r' p plan) hdep₁.1 hc₂
  · exact budgeted_step hdep₁.1.1 hdep₁.2 hw₂ hc₂
  · intro spec hspec
    obtain ⟨id, job, hid, hjob, hr, hdeps, _⟩ := planStart_job h w₁ w₂ o hok hspec
    exact ⟨id, job, hid, hjob, hr, hdeps⟩
  · intro k job hk hr
    rcases hcreated.cases hk with ⟨hmem, rfl⟩ | ⟨_, hold⟩
    · obtain ⟨spec, hspec, id, hid, _, hjid⟩ := mem_planJobs.mp hmem
      exact Or.inr ⟨spec, hspec, hjid ▸ hid⟩
    · exact Or.inl (honly k job hold hr).1
  · exact (isCompleted_congr (hcreated.getJob_old p hpold)).trans
      (isCompleted_iff.mpr ⟨_, hself, rfl⟩)
  · obtain ⟨run₀, hrun₀⟩ := h.run
    cases checked_markCompleted w₁ e p o hact with
    -- the run's only job is completed, so the run has been concluded
    | unchanged _ hopen =>
      obtain ⟨k, job, hk, hr, hst⟩ := hopen ⟨p, _, hself, hpr⟩
      obtain ⟨_, rfl⟩ := honly k job hk hr
      cases hst
    | finished _ _ st final _ hcomp hget =>
      have hst : st = .completed := by
        apply hcomp
        intro h
        obtain ⟨k, job, hk, hr, hf⟩ := h
        obtain ⟨_, rfl⟩ := honly k job hk hr
        cases hf
      refine ⟨{ run₀ with status := st, updatedAt := w₁.now, finalArtifactIds := final },
        ?_, Or.inl hst⟩
      show (e.markCompleted w₁ p o).store.getRun r' = _
      rw [hget, if_pos rfl, hrun₀]
      rfl

/-- A submitted run whose planner has been started, in a fresh engine. -/
theorem plannerActive_submitted {n : Nat} (hn : 1 ≤ n) (w₁ w₂ : World) (task : String) :
    PlannerActive n (run engineStep (new n) [(w₁, .submitRun task), (w₂, .startNext)])
      ((new n).submitIds w₁).1 ((new n).submitIds w₁).2 := by
  have hcreated := created_submitRun (w := w₁) (e := new n) (after_of_startedAt rfl) task
  generalize hr : ((new n).submitIds w₁).1 = r at hcreated
  generalize hp : ((new n).submitIds w₁).2 = p at hcreated
  have hself := hcreated.getJob_new _ (List.mem_singleton_self _)
  have hlen : ((new n).submitRun w₁ task).2.activeJobs.len <
      ((new n).submitRun w₁ task).2.maxConcurrency := by
    rw [hcreated.activeJobs, hcreated.maxConcurrency]
    exact hn
  have hnext := startNext_head w₂ _ hlen hcreated.readyQueue hself
  have hrun : run engineStep (new n) [(w₁, .submitRun task), (w₂, .startNext)] =
      ((new n).submitRun w₁ task).2.started w₂ (plannerJob w₁ r p task) [] :=
    congrArg Prod.snd hnext
  refine ⟨?_, ?_, ?_, ?_, ?_⟩
  · exact ⟨[(w₁, .submitRun task), (w₂, .startNext)], ⟨True.intro, True.intro, True.intro⟩, rfl⟩
  · rw [hrun, HashMap.contains_iff]
    exact ⟨r, (getActive_started ..).trans (if_pos rfl)⟩
  · rw [hrun]
    refine ⟨(plannerJob w₁ r p task).start w₂, ?_, rfl⟩
    exact ((getJob_started ..).trans (if_pos rfl)).trans (congrArg (Option.map _) hself)
  · rw [hrun]
    have hget : ((new n).submitRun w₁ task).2.store.getRun r =
        some (submittedRun w₁ r p task) := by
      rw [getRun_submitRun, hr, hp, if_pos rfl]
    exact ⟨_, ((getRun_started ..).trans (if_pos rfl)).trans (congrArg (Option.map _) hget)⟩
  · intro k job hk _
    rw [hrun, getJob_started] at hk
    split at hk
    · assumption
    · rcases hcreated.cases hk with ⟨hmem, rfl⟩ | ⟨_, hold⟩
      · rw [List.mem_singleton] at hmem
        exact congrArg Job.jobId hmem
      · cases hold

/-! ## What a schedule keeps -/

theorem Job.Step.same {w : World} {job job' : Job} (h : job.Step w job') :
    job'.runId = job.runId ∧ job'.dependsOn = job.dependsOn := by
  cases h
  · exact ⟨rfl, rfl⟩
  · exact ⟨rfl, rfl⟩
  · exact ⟨Job.fail_runId .., Job.fail_dependsOn ..⟩
  · exact ⟨rfl, rfl⟩

/-- A job under a schedule: it stays, with its run and dependencies, and a failed
job stays failed. -/
theorem schedule_job {c : World × Call} (h : DependableFresh e) (hc : ScheduleStep e c)
    {k : JobId} {job : Job} (hk : e.store.getJob k = some job) :
    ∃ job', (engineStep e c).store.getJob k = some job' ∧ job'.runId = job.runId ∧
      job'.dependsOn = job.dependsOn ∧ (job.status = .failed → job'.status = .failed) := by
  obtain ⟨job', hk', hcase⟩ := disciplined_job (w := c.1) (c := c.2) h.1
    (after_of_startedAt h.2) hc.disciplined hk
  refine ⟨job', hk', ?_⟩
  rcases hcase with ⟨_, hst, rfl⟩ | ⟨_, rfl | ⟨hs, _⟩⟩
  · refine ⟨rfl, rfl, fun hf => ?_⟩
    rw [hst] at hf
    cases hf
  · exact ⟨rfl, rfl, fun hf => hf⟩
  · refine ⟨hs.same.1, hs.same.2, fun hf => ?_⟩
    cases hs with
    | start hst =>
      rw [hst] at hf
      cases hf
    | complete hst _ =>
      rw [hst] at hf
      cases hf
    | fail hst _ =>
      rw [hst] at hf
      cases hf
    | promote hst =>
      rw [hst] at hf
      cases hf

theorem schedule_job_back {c : World × Call} (h : DependableFresh e) (hc : ScheduleStep e c)
    {k : JobId} {job' : Job} (hk' : (engineStep e c).store.getJob k = some job') :
    ∃ job, e.store.getJob k = some job ∧ job'.runId = job.runId ∧
      job'.dependsOn = job.dependsOn ∧ (job.status = .failed → job'.status = .failed) := by
  cases hk : e.store.getJob k with
  | none =>
    rw [schedule_none hc hk] at hk'
    cases hk'
  | some job =>
    obtain ⟨job'', hk'', hsame⟩ := schedule_job h hc hk
    rw [hk'] at hk''
    cases hk''
    exact ⟨job, rfl, hsame⟩

/-- What a schedule does to the records of runs: a report checks one of them, and a job
that is handed out starts the one of its own. -/
theorem schedule_runs {c : World × Call} (hc : ScheduleStep e c) :
    (∃ r', Checked c.1 e.store (engineStep e c).store r') ∨
      ∀ k, (engineStep e c).store.getRun k = e.store.getRun k ∨
        (engineStep e c).store.getRun k = (e.store.getRun k).map (Run.start c.1) := by
  obtain ⟨w, c⟩ := c
  unfold ScheduleStep at hc
  split at hc
  · rename_i hcall
    dsimp only at hcall
    subst hcall
    right
    intro k
    show (e.startNext w).2.store.getRun k = _ ∨ (e.startNext w).2.store.getRun k = _
    rcases startNext_cases w e with ⟨q, heq, _⟩ | ⟨head, q, _, _, _, heq⟩ <;> rw [heq]
    · exact Or.inl rfl
    · rw [getRun_started]
      split
      · rename_i hk
        exact Or.inr (by rw [hk])
      · exact Or.inl rfl
  · rename_i j o hcall
    dsimp only at hcall
    subst hcall
    obtain ⟨r', hr'⟩ := HashMap.contains_iff.mp hc
    exact Or.inl ⟨r', checked_markCompleted w e j o hr'⟩
  · rename_i j err hcall
    dsimp only at hcall
    subst hcall
    obtain ⟨r', hr'⟩ := HashMap.contains_iff.mp hc
    exact Or.inl ⟨r', checked_markFailed w e j err hr'⟩
  · exact absurd hc id

theorem schedule_isSome {c : World × Call} (hc : ScheduleStep e c) (k : RunId) :
    ((engineStep e c).store.getRun k).isSome = (e.store.getRun k).isSome := by
  rcases schedule_runs hc with ⟨_, hchecked⟩ | hstart
  · exact hchecked.isSome k
  · rcases hstart k with heq | heq
    · rw [heq]
    · rw [heq, Option.isSome_map]

/-- The record of a run under a schedule: unless the run now has a failed job, a
completed run stays completed. -/
theorem schedule_status {c : World × Call} (hc : ScheduleStep e c) {run : Run}
    (hrun : e.store.getRun r = some run) (hst : run.status = .completed) :
    ∃ run', (engineStep e c).store.getRun r = some run' ∧
      (run'.status = .completed ∨ HasFailed (engineStep e c).store r) := by
  rcases schedule_runs hc with ⟨r', hchecked⟩ | hstart
  · by_cases hr : r = r'
    · subst hr
      cases hchecked with
      | unchanged hget _ => exact ⟨run, (hget r).trans hrun, Or.inl hst⟩
      | finished _ _ st final hf hcomp hget =>
        by_cases hfail : HasFailed (engineStep e c).store r
        · exact ⟨_, by rw [hget, if_pos rfl, hrun]; rfl, Or.inr hfail⟩
        · exact ⟨_, by rw [hget, if_pos rfl, hrun]; rfl, Or.inl (hcomp hfail)⟩
    · exact ⟨run, (hchecked.getRun_ne hr).trans hrun, Or.inl hst⟩
  · -- a completed run is not started again
    have hkeep : run.start c.1 = run := Run.start_status_of_ne c.1 (by simp [hst])
    rcases hstart r with heq | heq
    · exact ⟨run, heq.trans hrun, Or.inl hst⟩
    · rw [hrun, Option.map_some, hkeep] at heq
      exact ⟨run, heq, Or.inl hst⟩

theorem planState_step (h : PlanState r p plan m e) {c : World × Call} (hc : ScheduleStep e c) :
    PlanState r p plan m (engineStep e c) := by
  have hstep := schedule_step ⟨h.dependable, h.budgeted⟩ hc
  refine ⟨?_, ?_, ?_, ?_, ?_, ?_⟩
  · exact hstep.1
  · exact hstep.2
  · intro spec hspec
    obtain ⟨id, job, hid, hjob, hr, hdeps⟩ := h.job spec hspec
    obtain ⟨job', hjob', hr', hdeps', _⟩ := schedule_job h.dependable hc hjob
    exact ⟨id, job', hid, hjob', hr'.trans hr, hdeps'.trans hdeps⟩
  · intro k job' hk' hr
    obtain ⟨job, hk, hr', _, _⟩ := schedule_job_back h.dependable hc hk'
    exact h.only k job hk (hr'.symm.trans hr)
  · exact completed_step h.dependable.1 (after_of_startedAt h.dependable.2) c.2 hc.disciplined
      h.planner
  · obtain ⟨run, hrun, hst | ⟨k, job, hk, hr, hf⟩⟩ := h.status
    · exact schedule_status hc hrun hst
    · obtain ⟨job', hk', hr', _, hf'⟩ := schedule_job h.dependable hc hk
      have hsome : ((engineStep e c).store.getRun r).isSome = true := by
        rw [schedule_isSome hc, hrun]
        rfl
      obtain ⟨run', hrun'⟩ := Option.isSome_iff_exists.mp hsome
      exact ⟨run', hrun', Or.inr ⟨k, job', hk', hr'.trans hr, hf' hf⟩⟩

theorem planState_run (h : PlanState r p plan m e) {sched : List (World × Call)}
    (hs : Meets engineStep ScheduleStep e sched) :
    PlanState r p plan m (run engineStep e sched) :=
  run_invariant (P := PlanState r p plan m) (fun _ _ h hc => planState_step h hc) h hs

/-! ## Where a schedule can end -/

/-- Where nothing is queued and nothing active, a job is completed, failed for
good, or waits. -/
theorem settled (h : DependableFresh e) (hb : Budgeted e) (hact : e.activeJobs.len = 0)
    (hq : e.readyQueue = []) {k : JobId} {job : Job} (hk : e.store.getJob k = some job) :
    job.status = .completed ∨ (job.status = .failed ∧ job.attempt = job.maxAttempts) ∨
      job.status = .pending := by
  cases hst : job.status with
  | pending => exact Or.inr (Or.inr rfl)
  | ready =>
    have hmem := (h.1.queueReady k).mpr ⟨job, hk, hst⟩
    rw [hq] at hmem
    cases hmem
  | running =>
    obtain ⟨r, hr⟩ := h.1.supervised.running k job hk hst
    rw [HashMap.get_eq_none_of_len hact] at hr
    cases hr
  | completed => exact Or.inl rfl
  | failed => exact Or.inr (Or.inl ⟨rfl, (hb k job hk).failed hst⟩)
  | cancelled => exact absurd hst (hb k job hk).notCancelled

/-- How a schedule leaves a job: completed, out of attempts, or waiting for a
job that is. -/
def Classified (s : RunStore) (k : JobId) : Prop :=
  ∃ job, s.getJob k = some job ∧
    (job.status = .completed ∨ (job.status = .failed ∧ job.attempt = job.maxAttempts) ∨
      (job.status = .pending ∧
        ∃ d dj, TransGen s.DependsOn k d ∧ s.getJob d = some dj ∧ dj.status = .failed))

theorem classified (hm : Named plan m) (h : PlanState r p plan m e)
    (hac : Acyclic plan.DependsOn) (hact : e.activeJobs.len = 0) (hq : e.readyQueue = []) :
    ∀ k ∈ planJobIds plan m, Classified e.store k := by
  have hlocal : ∀ l ∈ plan.jobs.map (·.localId), ∀ id, m.get l = some id →
      Classified e.store id := by
    refine hac.induction (plan.jobs.map (·.localId)) ?_
    intro l hl ih id hid
    obtain ⟨spec, hspec, rfl⟩ := List.mem_map.mp hl
    obtain ⟨id', job, hid', hjob, hr, hdeps⟩ := h.job spec hspec
    rw [hid] at hid'
    cases hid'
    rcases settled h.dependable h.budgeted hact hq hjob with hc | hf | hp
    · exact ⟨job, hjob, Or.inl hc⟩
    · exact ⟨job, hjob, Or.inr (Or.inl hf)⟩
    · -- the dependency it waits for is a job of the plan, to which the induction applies
      refine ⟨job, hjob, Or.inr (Or.inr ⟨hp, ?_⟩)⟩
      obtain ⟨d, hd, hnc⟩ := h.dependable.1.waiting id job hjob hp
      have hedge : TransGen e.store.DependsOn id d := .single ⟨job, hjob, hd⟩
      rw [hdeps, List.mem_filterMap] at hd
      obtain ⟨b, hb, hbd⟩ := hd
      have hbl : b ∈ plan.jobs.map (·.localId) := (hm.bound b).mp ⟨d, hbd⟩
      obtain ⟨dj, hdj, hc | ⟨hf, _⟩ | ⟨_, x, xj, hpath, hx, hf⟩⟩ :=
        ih b hbl ⟨spec, hspec, rfl, hb⟩ d hbd
      · rw [isCompleted_iff.mpr ⟨dj, hdj, hc⟩] at hnc
        cases hnc
      · exact ⟨d, dj, hedge, hdj, hf⟩
      · exact ⟨x, xj, hedge.trans hpath, hx, hf⟩
  intro k hk
  obtain ⟨spec, hspec, hid⟩ := (mem_planJobIds hm).mp hk
  exact hlocal spec.localId (List.mem_map_of_mem hspec) k hid

/-- Along the dependencies of a plan's job only jobs of the plan are met. -/
theorem mem_planJobIds_of_path (hm : Named plan m) (h : PlanState r p plan m e) {k d : JobId}
    (hpath : TransGen e.store.DependsOn k d) :
    k ∈ planJobIds plan m → d ∈ planJobIds plan m := by
  have hstep : ∀ {k d}, e.store.DependsOn k d → k ∈ planJobIds plan m →
      d ∈ planJobIds plan m := by
    intro k d h hk
    obtain ⟨job, hjob, hd⟩ := h
    obtain ⟨spec, hspec, hid⟩ := (mem_planJobIds hm).mp hk
    obtain ⟨id, job', hid', hjob', _, hdeps⟩ := h.job spec hspec
    rw [hid] at hid'
    cases hid'
    rw [hjob] at hjob'
    cases hjob'
    rw [hdeps, List.mem_filterMap] at hd
    obtain ⟨b, _, hbd⟩ := hd
    obtain ⟨spec', hspec', rfl⟩ := List.mem_map.mp ((hm.bound b).mp ⟨d, hbd⟩)
    exact (mem_planJobIds hm).mpr ⟨spec', hspec', hbd⟩
  induction hpath with
  | single hkd => exact hstep hkd
  | tail _ hcd ih => exact fun hk => hstep hcd (ih hk)

/-- Without a failed job, a schedule ends with every job and the run completed. -/
theorem all_completed (hm : Named plan m) (h : PlanState r p plan m e)
    (hcl : ∀ k ∈ planJobIds plan m, Classified e.store k)
    (hnf : ∀ k ∈ planJobIds plan m, ∀ job, e.store.getJob k = some job → job.status ≠ .failed) :
    (∀ k ∈ planJobIds plan m, e.store.isCompleted k = true) ∧
      ∃ run, e.store.getRun r = some run ∧ run.status = .completed := by
  refine ⟨?_, ?_⟩
  · intro k hk
    obtain ⟨job, hjob, hc | ⟨hf, _⟩ | ⟨_, d, dj, hpath, hdj, hf⟩⟩ := hcl k hk
    · exact isCompleted_iff.mpr ⟨job, hjob, hc⟩
    · exact absurd hf (hnf k hk job hjob)
    · exact absurd hf (hnf d (mem_planJobIds_of_path hm h hpath hk) dj hdj)
  · obtain ⟨run, hrun, hc | ⟨k, job, hjob, hr, hf⟩⟩ := h.status
    · exact ⟨run, hrun, hc⟩
    · rcases h.only k job hjob hr with rfl | ⟨spec, hspec, hid⟩
      · obtain ⟨job', hjob', hc⟩ := isCompleted_iff.mp h.planner
        rw [hjob] at hjob'
        cases hjob'
        rw [hf] at hc
        cases hc
      · exact absurd hf (hnf k ((mem_planJobIds hm).mpr ⟨spec, hspec, hid⟩) job hjob)

/-- A completed job is not handed out by a schedule. -/
theorem not_handedOut (h : PlanState r p plan m e) {k : JobId}
    (hk : e.store.isCompleted k = true) {c : World × Call} : handedOut e c ≠ some k := by
  intro hout
  obtain ⟨_, job, q, hq, hjob, _, rfl⟩ := handedOut_eq_some hout
  obtain ⟨job', hjob', hc⟩ := isCompleted_iff.mp hk
  rw [hjob] at hjob'
  cases hjob'
  rw [(h.dependable.1.head hq hjob).1] at hc
  cases hc

end

/-- From the state in which a planner's job has just completed and its acyclic
plan has been materialised, every schedule starts the plan's jobs at most as
often as they have attempts, starts none again after it completed, and, where
it leaves nothing queued and nothing active, leaves every job completed, out of
attempts or below a job that is; with no job failed, all of them and the run
are completed. -/
theorem acyclic_plan_schedules {n : Nat} {e : OrchestratorEngine} {r : RunId} {p : JobId}
    (h : PlannerActive n e r p) (w₁ w₂ : World) (o : List ArtifactId) {plan : ExecutionPlan}
    (hval : validatePlan plan = []) (hac : Acyclic plan.DependsOn) {sched : List (World × Call)}
    (hs : Meets engineStep ScheduleStep (planStart e w₁ w₂ r p o plan) sched) :
    let e₀ := planStart e w₁ w₂ r p o plan
    let e' := run engineStep e₀ sched
    let ks := planJobIds plan (startIds e w₁ w₂ p o plan)
    starts ks e₀ sched ≤ budget e₀.store ks ∧
    (∀ s₁ s₂ c s₃, sched = s₁ ++ s₂ ++ c :: s₃ → ∀ k ∈ ks,
      (run engineStep e₀ s₁).store.isCompleted k = true →
      handedOut (run engineStep e₀ (s₁ ++ s₂)) c ≠ some k) ∧
    (e'.activeJobs.len = 0 → e'.readyQueue = [] →
      (∀ k ∈ ks, Classified e'.store k) ∧
      ((∀ k ∈ ks, ∀ job, e'.store.getJob k = some job → job.status ≠ .failed) →
        (∀ k ∈ ks, e'.store.isCompleted k = true) ∧
        ∃ run, e'.store.getRun r = some run ∧ run.status = .completed)) := by
  have hok := validatePlan_eq_nil.mp hval
  obtain ⟨hm, h₀⟩ := planState_start h w₁ w₂ o hok
  dsimp only
  generalize startIds e w₁ w₂ p o plan = m at hm h₀
  generalize planStart e w₁ w₂ r p o plan = e₀ at hs h₀
  refine ⟨?_, ?_, ?_⟩
  · exact Nat.le_trans (Nat.le_add_right _ _)
      (starts_le (planJobIds plan m) ⟨h₀.dependable, h₀.budgeted⟩ hs)
  · intro s₁ s₂ c s₃ h k _ hk
    obtain rfl := h
    rw [Meets.append, Meets.append] at hs
    refine not_handedOut (planState_run h₀ (Meets.append.mpr hs.1)) ?_
    rw [run_append]
    exact completed_run (planState_run h₀ hs.1.1).dependable
      (hs.1.2.mono (fun _ _ hc => hc.disciplined)) hk
  · intro hact hq
    have h' := planState_run h₀ hs
    have hcl := classified hm h' hac hact hq
    exact ⟨hcl, all_completed hm h' hcl⟩

/-- A submitted run whose planner is about to deliver `chainPlan`. -/
def chainPlanner : OrchestratorEngine :=
  run engineStep (new 1) [(World.bare, .submitRun "task"), (World.bare, .startNext)]

/-- A schedule of `chainPlan` in which the first job fails once. -/
def chainSchedule : List (World × Call) :=
  [.startNext, .markFailed "job_0_2" "crashed", .startNext, .markCompleted "job_0_2" [],
    .startNext, .markCompleted "job_0_3" []].map (fun c => (World.bare, c))

theorem chainPlan_acyclic : Acyclic chainPlan.DependsOn := by
  refine Acyclic.of_rank (fun l => if l = "b" then 1 else 0) ?_
  intro a b h
  obtain ⟨spec, hspec, rfl, hb⟩ := h
  simp only [chainPlan, List.mem_cons, List.not_mem_nil, or_false] at hspec
  rcases hspec with rfl | rfl
  · cases hb
  · rw [List.mem_singleton] at hb
    subst hb
    decide

theorem acyclic_plan_schedules_chain :
    let e₀ := planStart chainPlanner World.bare World.bare "run_0_0" "job_0_1" [] chainPlan
    let ks := planJobIds chainPlan
      (startIds chainPlanner World.bare World.bare "job_0_1" [] chainPlan)
    starts ks e₀ chainSchedule ≤ budget e₀.store ks ∧
      ∀ k ∈ ks, Classified (run engineStep e₀ chainSchedule).store k := by
  have h := acyclic_plan_schedules
    (plannerActive_submitted (Nat.le_refl 1) World.bare World.bare "task") World.bare World.bare
    [] (by decide) chainPlan_acyclic (by decide : Meets engineStep ScheduleStep _ chainSchedule)
  exact ⟨h.1, (h.2.2 (by decide) (by decide)).1⟩

end ZeptoPM
