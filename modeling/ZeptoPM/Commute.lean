import ZeptoPM.Dependency

/- Outcomes of different jobs commute. After one outcome, or two, every record can be
   told from the records before and from the set of completed jobs after, and that set
   does not depend on the order. The queue follows from the records, since an engine
   used as it is meant to be queues its ready jobs, each once; a run is concluded from
   its jobs as they are in the end, because a run with an active job is not finished. -/
namespace ZeptoPM
open OrchestratorEngine

/-- What is reported of a job. -/
inductive Report where
  | completed (outputArtifactIds : List ArtifactId)
  | failed (error : String)

def Report.call (j : JobId) : Report → Call
  | .completed o => .markCompleted j o
  | .failed err => .markFailed j err

/-- What the report makes of the job it is about. -/
def Report.job (w : World) : Report → Job → Job
  | .completed o, job => job.complete w o
  | .failed err, job => job.fail w err

def Report.completes : Report → Bool
  | .completed _ => true
  | .failed _ => false

/-- `mark_completed` or `mark_failed`. -/
def OrchestratorEngine.report (w : World) (e : OrchestratorEngine) (j : JobId) (rep : Report) :
    OrchestratorEngine := (rep.call j).apply w e

/-- A pending job whose dependencies are all done is released. -/
def Job.release (done : JobId → Bool) (job : Job) : Job :=
  if job.status = .pending ∧ ∀ d ∈ job.dependsOn, done d = true then job.setReady else job

theorem Job.release_of_ne {done : JobId → Bool} {job : Job} (h : job.status ≠ .pending) :
    job.release done = job := if_neg (fun hp => h hp.1)

/-- Releasing twice, the second time knowing more, is releasing once. -/
theorem Job.release_release {done done' : JobId → Bool}
    (h : ∀ d, done d = true → done' d = true) (job : Job) :
    (job.release done).release done' = job.release done' := by
  unfold Job.release
  by_cases hp : job.status = .pending ∧ ∀ d ∈ job.dependsOn, done d = true
  · have hp' : job.status = .pending ∧ ∀ d ∈ job.dependsOn, done' d = true :=
      ⟨hp.1, fun d hd => h d (hp.2 d hd)⟩
    have hready : ¬ (job.setReady.status = .pending ∧
        ∀ d ∈ job.setReady.dependsOn, done' d = true) := by
      intro h
      obtain ⟨hst, _⟩ := h
      cases hst
    rw [if_pos hp, if_neg hready, if_pos hp']
  · rw [if_neg hp]

theorem Report.job_status (w : World) (rep : Report) (job : Job) :
    (rep.job w job).status = .completed ∧ rep.completes = true ∨
      ((rep.job w job).status = .ready ∨ (rep.job w job).status = .failed) ∧
        rep.completes = false := by
  cases rep with
  | completed o => exact Or.inl ⟨rfl, rfl⟩
  | failed err =>
    right
    refine ⟨?_, rfl⟩
    rw [Report.job, Job.fail_status]
    split
    · exact Or.inl rfl
    · exact Or.inr rfl

theorem Report.job_ne_pending (w : World) (rep : Report) (job : Job) :
    (rep.job w job).status ≠ .pending := by
  rcases rep.job_status w job with ⟨h, _⟩ | ⟨h | h, _⟩ <;> rw [h] <;> decide

@[simp] theorem Report.job_runId (w : World) (rep : Report) (job : Job) :
    (rep.job w job).runId = job.runId := by
  cases rep with
  | completed o => rfl
  | failed err => exact Job.fail_runId ..

@[simp] theorem Job.release_runId (done : JobId → Bool) (job : Job) :
    (job.release done).runId = job.runId := by
  unfold Job.release
  split <;> rfl

/-! ## One report -/

section
variable {w : World} {e : OrchestratorEngine} {j : JobId} {r : RunId} (rep : Report)

theorem disciplined_report (h : e.activeJobs.get j = some r) :
    Disciplined e (w, rep.call j) := by
  have hact : e.activeJobs.contains j = true := HashMap.contains_iff.mpr ⟨r, h⟩
  cases rep with
  | completed o => exact hact
  | failed err => exact hact

@[simp] theorem activeJobs_report : (e.report w j rep).activeJobs = e.activeJobs.remove j := by
  cases rep with
  | completed o => exact activeJobs_markCompleted ..
  | failed err => exact activeJobs_markFailed ..

@[simp] theorem lastHeartbeat_report :
    (e.report w j rep).lastHeartbeat = e.lastHeartbeat.remove j := by
  cases rep with
  | completed o => exact lastHeartbeat_markCompleted ..
  | failed err => exact lastHeartbeat_markFailed ..

@[simp] theorem ids_report : (e.report w j rep).ids = e.ids := by
  cases rep with
  | completed o => exact ids_markCompleted ..
  | failed err => exact ids_markFailed ..

/-- Exactly the job of a completion becomes completed. -/
theorem isCompleted_report (h : Dependable e) (hact : e.activeJobs.get j = some r) (k : JobId) :
    (e.report w j rep).store.isCompleted k =
      (e.store.isCompleted k || (rep.completes && k == j)) := by
  obtain ⟨job, hjob, hst⟩ := h.activeRunning j r hact
  have hnot : e.store.isCompleted j = false :=
    isCompleted_eq_false hjob (fun hc => by rw [hst] at hc; cases hc)
  by_cases hk : k = j
  · subst hk
    rw [hnot, Bool.false_or, beq_self_eq_true, Bool.and_true]
    cases rep with
    | completed o =>
      exact isCompleted_iff.mpr ⟨_, getJob_markCompleted_self w e k o hjob, rfl⟩
    | failed err =>
      have hget : (e.markFailed w k err).store.getJob k = some (job.fail w err) := by
        rw [getJob_markFailed, if_pos rfl, hjob]
        rfl
      refine isCompleted_eq_false hget ?_
      rw [Job.fail_status]
      split <;> decide
  · rw [beq_eq_false_iff_ne.mpr hk, Bool.and_false, Bool.or_false]
    cases rep with
    | completed o =>
      show (e.markCompleted w j o).store.isCompleted k = _
      unfold RunStore.isCompleted
      rw [getJob_markCompleted]
      cases hget : e.store.getJob k with
      | none => rfl
      | some job =>
        rw [Option.map_some, Option.map_some, Option.map_some, Option.getD_some, Option.getD_some,
          afterCompletion, if_neg hk, hact]
        dsimp only [promoted]
        split
        · rename_i hprom
          rw [hprom.2.1]
          rfl
        · rfl
    | failed err =>
      show (e.markFailed w j err).store.isCompleted k = _
      exact isCompleted_congr (by rw [getJob_markFailed, if_neg hk])

/-- One report: its job is written to, and the others are released if they can be. -/
theorem getJob_report (h : Dependable e) (hact : e.activeJobs.get j = some r) (k : JobId) :
    (e.report w j rep).store.getJob k = (e.store.getJob k).map (fun job =>
      if k = j then rep.job w job
      else job.release (e.report w j rep).store.isCompleted) := by
  have hdone := isCompleted_report (w := w) rep h hact
  cases rep with
  | completed o =>
    have hstore : ∀ d, (e.completedStore w j o).isCompleted d =
        (e.report w j (.completed o)).store.isCompleted d := by
      intro d
      rw [hdone]
      by_cases hd : d = j
      · obtain ⟨job, hjob, _⟩ := h.activeRunning j r hact
        rw [beq_iff_eq.mpr hd, Report.completes, Bool.and_true, Bool.or_true, isCompleted_iff]
        exact ⟨job.complete w o, by rw [getJob_completedStore, if_pos hd, hjob]; rfl, rfl⟩
      · rw [beq_eq_false_iff_ne.mpr hd, Bool.and_false, Bool.or_false]
        exact isCompleted_congr (by rw [getJob_completedStore, if_neg hd])
    show (e.markCompleted w j o).store.getJob k = _
    rw [getJob_markCompleted]
    cases hget : e.store.getJob k with
    | none => rfl
    | some job =>
      rw [Option.map_some, Option.map_some, afterCompletion, hact]
      by_cases hk : k = j
      · rw [if_pos hk, if_pos hk]
        rfl
      · rw [if_neg hk, if_neg hk]
        dsimp only [promoted]
        -- what the job waits for is in its own run, so the job is in the run that is scanned
        have hiff : Promotable (e.completedStore w j o) r job ↔ (job.status = .pending ∧
            ∀ d ∈ job.dependsOn, (e.report w j (.completed o)).store.isCompleted d = true) := by
          refine ⟨?_, ?_⟩
          · intro h
            obtain ⟨_, hst, hdeps⟩ := h
            exact ⟨hst, fun d hd => (hstore d).symm.trans (hdeps d hd)⟩
          · intro h
            obtain ⟨hst, hdeps⟩ := h
            refine ⟨?_, hst, fun d hd => (hstore d).trans (hdeps d hd)⟩
            obtain ⟨d, hd, hopen⟩ := h.waiting k job hget hst
            have hdj : d = j := by
              have hd' := hdeps d hd
              rw [hdone, hopen, Bool.false_or, Report.completes, Bool.true_and] at hd'
              exact beq_iff_eq.mp hd'
            obtain ⟨dj, hdget, hrun⟩ := h.depsHome k job hget d hd
            rw [hdj] at hdget
            exact hrun.symm.trans (h.supervised.home j r dj hact hdget)
        by_cases hp : Promotable (e.completedStore w j o) r job
        · rw [if_pos hp, Job.release, if_pos (hiff.mp hp)]
        · rw [if_neg hp, Job.release, if_neg (fun hrel => hp (hiff.mpr hrel))]
  | failed err =>
    show (e.markFailed w j err).store.getJob k = _
    rw [getJob_markFailed]
    by_cases hk : k = j
    · subst hk
      simp only [if_true]
      rfl
    · simp only [if_neg hk]
      cases hget : e.store.getJob k with
      | none => rfl
      -- a failure completes nothing, so whatever waited still waits
      | some job =>
        rw [Option.map_some, Job.release, if_neg]
        intro h
        obtain ⟨hst, hdeps⟩ := h
        obtain ⟨d, hd, hopen⟩ := h.waiting k job hget hst
        have hd' := hdeps d hd
        rw [hdone, hopen, Report.completes] at hd'
        cases hd'

end

/-! ## What a run is concluded with -/

/-- The outputs of the jobs that no job of the list depends on. -/
def leafArtifacts (jobs : List Job) : List ArtifactId :=
  (jobs.filter (fun j => !(jobs.flatMap (fun j => j.dependsOn)).contains j.jobId)).flatMap
    (fun j => j.outputArtifactIds)

/-- A run with these jobs is finished. -/
def concluded (jobs : List Job) : Bool :=
  !jobs.isEmpty && !jobs.any (fun j => j.status.unfinished)

/-- The run after a look at its jobs. -/
def Run.checked (w : World) (jobs : List Job) (run : Run) : Run :=
  if concluded jobs then
    { run with
      status := if jobs.any (fun j => j.status == .failed) then .failed else .completed
      updatedAt := w.now
      finalArtifactIds := leafArtifacts jobs }
  else run

/-- The list holds the jobs of the run, each once. -/
structure RunJobs (s : RunStore) (r : RunId) (jobs : List Job) : Prop where
  mem : ∀ job, job ∈ jobs ↔ s.getJob job.jobId = some job ∧ job.runId = r
  nodup : (jobs.map (·.jobId)).Nodup

theorem runJobs_listRunJobs (w : World) (s : RunStore) (r : RunId) :
    RunJobs s r (s.listRunJobs w r) :=
  ⟨fun _ => RunStore.mem_listRunJobs, RunStore.listRunJobs_nodup_ids w s r⟩

theorem RunJobs.congr {s s' : RunStore} {r : RunId} {jobs : List Job} (h : RunJobs s r jobs)
    (hs : ∀ k job, job.runId = r → (s'.getJob k = some job ↔ s.getJob k = some job)) :
    RunJobs s' r jobs := by
  refine ⟨fun job => ?_, h.nodup⟩
  rw [h.mem]
  refine ⟨?_, ?_⟩
  · intro h
    obtain ⟨hget, hr⟩ := h
    exact ⟨(hs job.jobId job hr).mpr hget, hr⟩
  · intro h
    obtain ⟨hget, hr⟩ := h
    exact ⟨(hs job.jobId job hr).mp hget, hr⟩

section
variable {w : World}

theorem getRun_check (s : RunStore) (r k : RunId) :
    (checkRunCompletion w s r).2.getRun k =
      if k = r then (s.getRun r).map (Run.checked w (s.listRunJobs w r)) else s.getRun k := by
  have hkeep : concluded (s.listRunJobs w r) = false →
      (s.getRun r).map (Run.checked w (s.listRunJobs w r)) = s.getRun r := by
    intro hno
    have hid : Run.checked w (s.listRunJobs w r) = id := by
      funext run
      exact if_neg (by rw [hno]; exact Bool.false_ne_true)
    rw [hid, Option.map_id_fun]
    rfl
  have hsame : concluded (s.listRunJobs w r) = false → s.getRun k =
      if k = r then (s.getRun r).map (Run.checked w (s.listRunJobs w r)) else s.getRun k := by
    intro hno
    split
    · rename_i hk
      rw [hkeep hno, hk]
    · rfl
  unfold checkRunCompletion
  dsimp only
  split
  · rename_i hempty
    exact hsame (by rw [concluded, hempty]; rfl)
  · rename_i hempty
    split
    · rename_i hopen
      exact hsame (by rw [concluded, hopen, Bool.not_true, Bool.and_false])
    · rename_i hopen
      have hdone : concluded (s.listRunJobs w r) = true := by
        rw [concluded, Bool.eq_false_iff.mpr hempty, Bool.eq_false_iff.mpr hopen]
        rfl
      cases hrun : s.getRun r with
      | none =>
        dsimp only
        split
        · rename_i hk
          exact hk ▸ hrun
        · rfl
      | some run =>
        have hid := RunStore.runId_of_getRun hrun
        refine (RunStore.getRun_updateRun ..).trans ?_
        dsimp only
        by_cases hk : k = r
        · rw [if_pos (hk.trans hid.symm), if_pos hk, Option.map_some, Run.checked, if_pos hdone]
          rfl
        · rw [if_neg (fun h => hk (h.trans hid)), if_neg hk]

theorem jobs_check (s : RunStore) (r : RunId) : (checkRunCompletion w s r).2.jobs = s.jobs := by
  unfold checkRunCompletion
  dsimp only
  split
  · rfl
  · split
    · rfl
    · split <;> rfl

theorem listRunJobs_congr {s s' : RunStore} (h : s'.jobs = s.jobs) (w : World) (r : RunId) :
    s'.listRunJobs w r = s.listRunJobs w r := by
  unfold RunStore.listRunJobs
  rw [h]

variable {e : OrchestratorEngine} {j : JobId} {r : RunId} (rep : Report)

/-- A report looks at the jobs of its own run, as they are after it. -/
theorem getRun_report (hact : e.activeJobs.get j = some r) (k : RunId) :
    (e.report w j rep).store.getRun k = if k = r then (e.store.getRun r).map
      (Run.checked w ((e.report w j rep).store.listRunJobs w r)) else e.store.getRun k := by
  have hcheck : ∃ s, (e.report w j rep).store = (checkRunCompletion w s r).2 ∧
      ∀ k, s.getRun k = e.store.getRun k := by
    cases rep with
    | completed o =>
      refine ⟨(promoteUnblockedJobs w (e.completedStore w j o) r).2, ?_, fun k => ?_⟩
      · show (e.markCompleted w j o).store = _
        unfold markCompleted
        rw [hact]
        rfl
      · rw [getRun_promote]
        rfl
    | failed err =>
      refine ⟨e.store.alterJob j (Job.fail w err) (Job.fail_jobId w err), ?_, fun k => rfl⟩
      show (e.markFailed w j err).store = _
      unfold markFailed
      dsimp only
      rw [hact]
  obtain ⟨s, hs, hruns⟩ := hcheck
  rw [hs, getRun_check, listRunJobs_congr (jobs_check s r), hruns, hruns]

end

/-! ## Agreement up to times and order -/

/-- The job without the time at which it was finished. -/
def Job.untimed (job : Job) : Job := { job with finishedAt := job.finishedAt.map (fun _ => 0) }

/-- The run without the time of its last change and without its results. -/
def Run.untimed (run : Run) : Run := { run with updatedAt := 0, finalArtifactIds := [] }

/-- Two engines agree up to times, the order of the queue and that of the results. -/
structure Agree (e e' : OrchestratorEngine) : Prop where
  job : ∀ k, (e.store.getJob k).map Job.untimed = (e'.store.getJob k).map Job.untimed
  run : ∀ r, (e.store.getRun r).map Run.untimed = (e'.store.getRun r).map Run.untimed
  results : ∀ r run run', e.store.getRun r = some run → e'.store.getRun r = some run' →
    run.finalArtifactIds.Perm run'.finalArtifactIds
  activeJobs : e.activeJobs = e'.activeJobs
  readyQueue : e.readyQueue.Perm e'.readyQueue

theorem leafArtifacts_untimed (jobs : List Job) :
    leafArtifacts (jobs.map Job.untimed) = leafArtifacts jobs := by
  unfold leafArtifacts
  have hdeps : (jobs.map Job.untimed).flatMap (fun j => j.dependsOn) =
      jobs.flatMap (fun j => j.dependsOn) := List.flatMap_map ..
  rw [hdeps, List.filter_map, List.flatMap_map]
  rfl

theorem leafArtifacts_perm {jobs jobs' : List Job} (h : jobs.Perm jobs') :
    (leafArtifacts jobs).Perm (leafArtifacts jobs') := by
  have hdeps : ∀ k, (jobs.flatMap (fun j => j.dependsOn)).contains k =
      (jobs'.flatMap (fun j => j.dependsOn)).contains k := by
    intro k
    rw [Bool.eq_iff_iff, List.contains_iff_mem, List.contains_iff_mem]
    exact (h.flatMap_right _).mem_iff
  unfold leafArtifacts
  have hpred : (fun j : Job => !(jobs.flatMap (fun j => j.dependsOn)).contains j.jobId) =
      fun j => !(jobs'.flatMap (fun j => j.dependsOn)).contains j.jobId := by
    funext j
    rw [hdeps]
  rw [hpred]
  exact (h.filter _).flatMap_right _

theorem concluded_untimed (jobs : List Job) :
    concluded (jobs.map Job.untimed) = concluded jobs := by
  unfold concluded
  rw [List.isEmpty_map, List.any_map]
  rfl

theorem concluded_perm {jobs jobs' : List Job} (h : jobs.Perm jobs') :
    concluded jobs = concluded jobs' := by
  unfold concluded
  rw [h.any_eq, Bool.eq_iff_iff.mpr (show jobs.isEmpty = true ↔ jobs'.isEmpty = true by
    rw [List.isEmpty_iff, List.isEmpty_iff]
    exact ⟨fun h' => by rwa [h', List.nil_perm] at h, fun h' => by rwa [h', List.perm_nil] at h⟩)]

/-- Runs that are looked at with jobs that differ in times and order only agree. -/
theorem checked_agree {jobs jobs' : List Job}
    (h : (jobs.map Job.untimed).Perm (jobs'.map Job.untimed)) (w w' : World) (run : Run) :
    (run.checked w jobs).untimed = (run.checked w' jobs').untimed ∧
      (run.checked w jobs).finalArtifactIds.Perm (run.checked w' jobs').finalArtifactIds := by
  have hconcluded : concluded jobs = concluded jobs' := by
    rw [← concluded_untimed jobs, ← concluded_untimed jobs']
    exact concluded_perm h
  have hfailed : jobs.any (fun j => j.status == .failed) =
      jobs'.any (fun j => j.status == .failed) := by
    have hany := h.any_eq (f := fun j => j.status == .failed)
    rwa [List.any_map, List.any_map] at hany
  unfold Run.checked
  rw [hconcluded]
  split
  · refine ⟨?_, ?_⟩
    · rw [hfailed]
      rfl
    · rw [← leafArtifacts_untimed jobs, ← leafArtifacts_untimed jobs']
      exact leafArtifacts_perm h
  · exact ⟨rfl, .refl _⟩

/-- The jobs of a run, listed in two stores with the same jobs. -/
theorem RunJobs.perm {s s' : RunStore} {r : RunId} {jobs jobs' : List Job}
    (h : RunJobs s r jobs) (h' : RunJobs s' r jobs')
    (hs : ∀ k, (s.getJob k).map Job.untimed = (s'.getJob k).map Job.untimed) :
    (jobs.map Job.untimed).Perm (jobs'.map Job.untimed) := by
  have hnodup : ∀ l : List Job, (l.map (·.jobId)).Nodup → (l.map Job.untimed).Nodup := by
    intro l hl
    refine List.Nodup.of_map Job.jobId ?_
    rw [List.map_map]
    exact hl
  have hsub : ∀ {s s' : RunStore} {jobs jobs' : List Job}, RunJobs s r jobs →
      RunJobs s' r jobs' → (∀ k, (s.getJob k).map Job.untimed = (s'.getJob k).map Job.untimed) →
      ∀ job, job ∈ jobs.map Job.untimed → job ∈ jobs'.map Job.untimed := by
    intro s s' jobs jobs' h h' hs job hmem
    obtain ⟨job₀, hjob₀, rfl⟩ := List.mem_map.mp hmem
    obtain ⟨hget, hr⟩ := (h.mem job₀).mp hjob₀
    have heq := hs job₀.jobId
    rw [hget] at heq
    obtain ⟨job₁, hget₁, hsame⟩ := Option.map_eq_some_iff.mp heq.symm
    have hid := RunStore.jobId_of_getJob hget₁
    have hr₁ : job₁.runId = r := (congrArg Job.runId hsame).trans hr
    rw [← hsame]
    exact List.mem_map_of_mem ((h'.mem job₁).mpr ⟨hid ▸ hget₁, hr₁⟩)
  rw [List.perm_ext_iff_of_nodup (hnodup jobs h.nodup) (hnodup jobs' h'.nodup)]
  exact fun job => ⟨hsub h h' hs job, hsub h' h (fun k => (hs k).symm) job⟩

/-- A report writes the same into its job at any time, the time apart. -/
theorem Report.job_untimed (rep : Report) (w w' : World) (job : Job) :
    (rep.job w job).untimed = (rep.job w' job).untimed := by
  cases rep with
  | completed o => rfl
  | failed err =>
    show (job.fail w err).untimed = (job.fail w' err).untimed
    unfold Job.fail
    split <;> rfl

/-! ## Two reports -/

section
variable {e : OrchestratorEngine} {j₁ j₂ : JobId} {r₁ r₂ : RunId}

theorem dependableFresh_report (h : DependableFresh e) (w : World) {j : JobId} {r : RunId}
    (hact : e.activeJobs.get j = some r) (rep : Report) : DependableFresh (e.report w j rep) :=
  dependableFresh_step e (w, rep.call j) h (disciplined_report rep hact)

/-- The other job stays active. -/
theorem active_report (hne : j₁ ≠ j₂) (h₂ : e.activeJobs.get j₂ = some r₂) (w : World)
    (a : Report) : (e.report w j₁ a).activeJobs.get j₂ = some r₂ := by
  rw [activeJobs_report, HashMap.get_remove, if_neg hne.symm]
  exact h₂

variable (h : DependableFresh e) (hne : j₁ ≠ j₂) (h₁ : e.activeJobs.get j₁ = some r₁)
  (h₂ : e.activeJobs.get j₂ = some r₂) (w₁ w₂ : World) (a b : Report)
include h hne h₁ h₂

/-- The completed jobs after two reports are those before and those reported so. -/
theorem isCompleted_reports (k : JobId) :
    ((e.report w₁ j₁ a).report w₂ j₂ b).store.isCompleted k =
      (e.store.isCompleted k || (a.completes && k == j₁) || (b.completes && k == j₂)) := by
  rw [isCompleted_report b (dependableFresh_report h w₁ h₁ a).1 (active_report hne h₂ w₁ a),
    isCompleted_report a h.1 h₁]

/-- Every job after two reports, told from what it was before them. -/
theorem getJob_reports (k : JobId) :
    ((e.report w₁ j₁ a).report w₂ j₂ b).store.getJob k = (e.store.getJob k).map (fun job =>
      if k = j₁ then a.job w₁ job
      else if k = j₂ then b.job w₂ job
      else job.release ((e.report w₁ j₁ a).report w₂ j₂ b).store.isCompleted) := by
  have hfresh := (dependableFresh_report h w₁ h₁ a).1
  have hact := active_report hne h₂ w₁ a
  rw [getJob_report b hfresh hact, getJob_report a h.1 h₁, Option.map_map]
  cases hget : e.store.getJob k with
  | none => rfl
  | some job =>
    rw [Option.map_some, Option.map_some, Function.comp]
    by_cases hk₁ : k = j₁
    · have hk₂ : k ≠ j₂ := fun hk => hne (hk₁.symm.trans hk)
      rw [if_pos hk₁, if_pos hk₁, if_neg hk₂, Job.release_of_ne (a.job_ne_pending w₁ job)]
    · rw [if_neg hk₁, if_neg hk₁]
      by_cases hk₂ : k = j₂
      · -- the second job is running, so the first report has not released it
        obtain ⟨job', hjob', hst⟩ := h.1.activeRunning j₂ r₂ h₂
        rw [hk₂, hjob'] at hget
        cases hget
        rw [if_pos hk₂, if_pos hk₂, Job.release_of_ne (by rw [hst]; decide)]
      · rw [if_neg hk₂, if_neg hk₂, Job.release_release]
        intro d hd
        rw [isCompleted_report b hfresh hact, hd, Bool.true_or]

/-- The jobs of the first run are not touched by a report on a job of another run. -/
theorem runJobs_other (hruns : r₁ ≠ r₂) {jobs : List Job}
    (hjobs : RunJobs (e.report w₁ j₁ a).store r₁ jobs) :
    RunJobs ((e.report w₁ j₁ a).report w₂ j₂ b).store r₁ jobs := by
  have hfresh := (dependableFresh_report h w₁ h₁ a).1
  have hact := active_report hne h₂ w₁ a
  have hsame : ∀ k job, (e.report w₁ j₁ a).store.getJob k = some job → job.runId = r₁ →
      ((e.report w₁ j₁ a).report w₂ j₂ b).store.getJob k = some job := by
    intro k job hget hr
    have hk : k ≠ j₂ := by
      intro heq
      subst heq
      exact hruns (hr.symm.trans (hfresh.supervised.home k r₂ job hact hget))
    rw [getJob_report b hfresh hact, hget, Option.map_some, if_neg hk, Job.release, if_neg]
    intro h
    obtain ⟨hst, hdeps⟩ := h
    -- it would have waited for the second job, which is of another run
    obtain ⟨d, hd, hopen⟩ := hfresh.waiting k job hget hst
    have hdone := hdeps d hd
    rw [isCompleted_report b hfresh hact, hopen, Bool.false_or, Bool.and_eq_true] at hdone
    obtain ⟨dj, hdj, hrun⟩ := hfresh.depsHome k job hget d hd
    rw [beq_iff_eq.mp hdone.2] at hdj
    have hsame : r₁ = r₂ :=
      calc r₁ = job.runId := hr.symm
        _ = dj.runId := hrun.symm
        _ = r₂ := hfresh.supervised.home j₂ r₂ dj hact hdj
    exact hruns hsame
  refine hjobs.congr (fun k job hr => ⟨fun hget => ?_, fun hget => hsame k job hget hr⟩)
  rw [getJob_report b hfresh hact] at hget
  obtain ⟨job₀, hjob₀, heq⟩ := Option.map_eq_some_iff.mp hget
  have hr₀ : job₀.runId = r₁ := by
    rw [← hr, ← heq]
    split
    · exact (b.job_runId w₂ job₀).symm
    · exact (Job.release_runId _ job₀).symm
  have hkept : some job₀ = some job :=
    calc some job₀ = ((e.report w₁ j₁ a).report w₂ j₂ b).store.getJob k :=
          (hsame k job₀ hjob₀ hr₀).symm
      _ = ((e.report w₁ j₁ a).store.getJob k).map _ := getJob_report b hfresh hact k
      _ = (some job₀).map _ := congrArg _ hjob₀
      _ = some job := congrArg some heq
  rw [← Option.some.inj hkept]
  exact hjob₀

/-- Every run after two reports: the runs of the two jobs have been looked at with
the jobs they end up with. -/
theorem getRun_reports (k : RunId) :
    (k ≠ r₁ → k ≠ r₂ → ((e.report w₁ j₁ a).report w₂ j₂ b).store.getRun k = e.store.getRun k) ∧
    (k = r₁ ∨ k = r₂ → ∃ w jobs, RunJobs ((e.report w₁ j₁ a).report w₂ j₂ b).store k jobs ∧
      ((e.report w₁ j₁ a).report w₂ j₂ b).store.getRun k =
        (e.store.getRun k).map (Run.checked w jobs)) := by
  have hact := active_report hne h₂ w₁ a
  refine ⟨fun hk₁ hk₂ => ?_, fun hk => ?_⟩
  · rw [getRun_report b hact, if_neg hk₂, getRun_report a h₁, if_neg hk₁]
  · by_cases hk₂ : k = r₂
    · subst hk₂
      refine ⟨w₂, _, runJobs_listRunJobs w₂ _ k, ?_⟩
      rw [getRun_report b hact, if_pos rfl, getRun_report a h₁]
      by_cases hk₁ : k = r₁
      · subst hk₁
        rw [if_pos rfl, Option.map_map]
        -- after the first report the second job is still running
        have hopen : concluded ((e.report w₁ j₁ a).store.listRunJobs w₁ k) = false := by
          obtain ⟨job, hjob, hst⟩ :=
            (dependableFresh_report h w₁ h₁ a).1.activeRunning j₂ k hact
          have hrun := (dependableFresh_report h w₁ h₁ a).1.supervised.home j₂ k job hact hjob
          have hid := RunStore.jobId_of_getJob hjob
          have hmem : job ∈ (e.report w₁ j₁ a).store.listRunJobs w₁ k :=
            RunStore.mem_listRunJobs.mpr ⟨hid ▸ hjob, hrun⟩
          have hany : ((e.report w₁ j₁ a).store.listRunJobs w₁ k).any
              (fun j => j.status.unfinished) = true :=
            List.any_eq_true.mpr ⟨job, hmem, by rw [hst]; rfl⟩
          rw [concluded, hany, Bool.not_true, Bool.and_false]
        congr 1
        funext run
        show Run.checked w₂ _ (Run.checked w₁ _ run) = Run.checked w₂ _ run
        rw [show Run.checked w₁ ((e.report w₁ j₁ a).store.listRunJobs w₁ k) run = run from
          if_neg (by rw [hopen]; exact Bool.false_ne_true)]
      · rw [if_neg hk₁]
    · have hk₁ : k = r₁ := hk.resolve_right hk₂
      subst hk₁
      refine ⟨w₁, _, runJobs_other h hne h₁ h₂ w₁ w₂ a b hk₂ (runJobs_listRunJobs w₁ _ k), ?_⟩
      rw [getRun_report b hact, if_neg hk₂, getRun_report a h₁, if_pos rfl]

variable (w₁' w₂' : World)

theorem isCompleted_commute : ((e.report w₁ j₁ a).report w₂ j₂ b).store.isCompleted =
    ((e.report w₂' j₂ b).report w₁' j₁ a).store.isCompleted := by
  funext k
  rw [isCompleted_reports h hne h₁ h₂, isCompleted_reports h hne.symm h₂ h₁,
    Bool.or_assoc, Bool.or_assoc, Bool.or_comm (a.completes && k == j₁)]

theorem getJob_commute (k : JobId) :
    (((e.report w₁ j₁ a).report w₂ j₂ b).store.getJob k).map Job.untimed =
      (((e.report w₂' j₂ b).report w₁' j₁ a).store.getJob k).map Job.untimed := by
  rw [getJob_reports h hne h₁ h₂, getJob_reports h hne.symm h₂ h₁,
    isCompleted_commute h hne h₁ h₂ w₁ w₂ a b w₁' w₂', Option.map_map, Option.map_map]
  congr 1
  funext job
  show Job.untimed (if k = j₁ then _ else _) = Job.untimed (if k = j₂ then _ else _)
  by_cases hk₁ : k = j₁
  · rw [if_pos hk₁, if_neg (fun hk₂ => hne (hk₁.symm.trans hk₂)), if_pos hk₁]
    exact a.job_untimed w₁ w₁' job
  · rw [if_neg hk₁, if_neg hk₁]
    by_cases hk₂ : k = j₂
    · rw [if_pos hk₂, if_pos hk₂]
      exact b.job_untimed w₂ w₂' job
    · rw [if_neg hk₂, if_neg hk₂]

/-- In either order a run is left alone, or looked at with the same jobs. -/
theorem getRun_commute (k : RunId) :
    (((e.report w₁ j₁ a).report w₂ j₂ b).store.getRun k = e.store.getRun k ∧
      ((e.report w₂' j₂ b).report w₁' j₁ a).store.getRun k = e.store.getRun k) ∨
    ∃ w w' jobs jobs', (jobs.map Job.untimed).Perm (jobs'.map Job.untimed) ∧
      ((e.report w₁ j₁ a).report w₂ j₂ b).store.getRun k =
        (e.store.getRun k).map (Run.checked w jobs) ∧
      ((e.report w₂' j₂ b).report w₁' j₁ a).store.getRun k =
        (e.store.getRun k).map (Run.checked w' jobs') := by
  obtain ⟨hno, hyes⟩ := getRun_reports h hne h₁ h₂ w₁ w₂ a b k
  obtain ⟨hno', hyes'⟩ := getRun_reports h hne.symm h₂ h₁ w₂' w₁' b a k
  by_cases hk : k = r₁ ∨ k = r₂
  · obtain ⟨w, jobs, hjobs, hrun⟩ := hyes hk
    obtain ⟨w', jobs', hjobs', hrun'⟩ := hyes' hk.symm
    exact Or.inr ⟨w, w', jobs, jobs',
      hjobs.perm hjobs' (getJob_commute h hne h₁ h₂ w₁ w₂ a b w₁' w₂'), hrun, hrun'⟩
  · rw [not_or] at hk
    exact Or.inl ⟨hno hk.1 hk.2, hno' hk.2 hk.1⟩

/-- Both queues hold the ready jobs, each once. -/
theorem readyQueue_commute : ((e.report w₁ j₁ a).report w₂ j₂ b).readyQueue.Perm
    ((e.report w₂' j₂ b).report w₁' j₁ a).readyQueue := by
  have hfin := (dependableFresh_report (dependableFresh_report h w₁ h₁ a) w₂
    (active_report hne h₂ w₁ a) b).1
  have hfin' := (dependableFresh_report (dependableFresh_report h w₂' h₂ b) w₁'
    (active_report hne.symm h₁ w₂' b) a).1
  have hready : ∀ (s : RunStore) (k : JobId), (∃ job, s.getJob k = some job ∧ job.status = .ready) ↔
      ∃ job, (s.getJob k).map Job.untimed = some job ∧ job.status = .ready := by
    intro s k
    refine ⟨?_, ?_⟩
    · intro h
      obtain ⟨job, hget, hst⟩ := h
      exact ⟨job.untimed, by rw [hget]; rfl, hst⟩
    · intro h
      obtain ⟨job, hget, hst⟩ := h
      obtain ⟨job₀, hjob₀, rfl⟩ := Option.map_eq_some_iff.mp hget
      exact ⟨job₀, hjob₀, hst⟩
  rw [List.perm_ext_iff_of_nodup hfin.queueNodup hfin'.queueNodup]
  intro k
  rw [hfin.queueReady, hfin'.queueReady, hready, hready,
    getJob_commute h hne h₁ h₂ w₁ w₂ a b w₁' w₂']

end

/-- Outcomes of two different active jobs commute in every state that an engine used
as it is meant to be can reach. -/
theorem reports_commute (n : Nat) (cs : List (World × Call))
    (h : Meets engineStep Disciplined (new n) cs) {j₁ j₂ : JobId} (hne : j₁ ≠ j₂)
    (h₁ : (run engineStep (new n) cs).activeJobs.contains j₁ = true)
    (h₂ : (run engineStep (new n) cs).activeJobs.contains j₂ = true)
    (w₁ w₂ w₁' w₂' : World) (a b : Report) :
    Agree (((run engineStep (new n) cs).report w₁ j₁ a).report w₂ j₂ b)
      (((run engineStep (new n) cs).report w₂' j₂ b).report w₁' j₁ a) := by
  have hfresh := dependable_run h
  obtain ⟨r₁, h₁⟩ := HashMap.contains_iff.mp h₁
  obtain ⟨r₂, h₂⟩ := HashMap.contains_iff.mp h₂
  generalize run engineStep (new n) cs = e at hfresh h₁ h₂ ⊢
  have hruns := getRun_commute hfresh hne h₁ h₂ w₁ w₂ a b w₁' w₂'
  refine ⟨?_, ?_, ?_, ?_, ?_⟩
  · exact getJob_commute hfresh hne h₁ h₂ w₁ w₂ a b w₁' w₂'
  · intro k
    rcases hruns k with ⟨hrun, hrun'⟩ | ⟨w, w', jobs, jobs', hperm, hrun, hrun'⟩
    · rw [hrun, hrun']
    · rw [hrun, hrun', Option.map_map, Option.map_map]
      congr 1
      funext run
      exact (checked_agree hperm w w' run).1
  · intro k run run' hget hget'
    rcases hruns k with ⟨hrun, hrun'⟩ | ⟨w, w', jobs, jobs', hperm, hrun, hrun'⟩
    · rw [hrun] at hget
      rw [hrun', hget] at hget'
      cases hget'
      exact .refl _
    · rw [hrun] at hget
      rw [hrun'] at hget'
      obtain ⟨run₀, hold, rfl⟩ := Option.map_eq_some_iff.mp hget
      obtain ⟨run₁, hold', rfl⟩ := Option.map_eq_some_iff.mp hget'
      cases hold.symm.trans hold'
      exact (checked_agree hperm w w' run₀).2
  · rw [activeJobs_report, activeJobs_report, activeJobs_report, activeJobs_report]
    unfold HashMap.remove
    rw [AList.erase_erase]
  · exact readyQueue_commute hfresh hne h₁ h₂ w₁ w₂ a b w₁' w₂'

/-- A third job waits for the two others. -/
def joinPlan : ExecutionPlan where
  jobs :=
    [{ localId := "a", role := "coder", profileId := "coder", instruction := "write",
       dependsOn := [] },
     { localId := "b", role := "coder", profileId := "coder", instruction := "write",
       dependsOn := [] },
     { localId := "c", role := "tester", profileId := "tester", instruction := "test",
       dependsOn := ["a", "b"] }]
  channels := []

/-- The first two jobs of the plan are running. -/
def joinCalls : List (World × Call) :=
  [.submitRun "task", .startNext, .markCompleted "job_0_1" [],
    .acceptPlan "run_0_0" "job_0_1" joinPlan, .startNext, .startNext].map
      (fun c => (World.bare, c))

/-- Whichever of the two is completed last, the third job is queued. -/
theorem reports_commute_join :
    Agree (((run engineStep (new 2) joinCalls).report World.bare "job_0_2"
        (.completed ["x"])).report World.bare "job_0_3" (.completed ["y"]))
      (((run engineStep (new 2) joinCalls).report World.bare "job_0_3"
        (.completed ["y"])).report World.bare "job_0_2" (.completed ["x"])) ∧
    (((run engineStep (new 2) joinCalls).report World.bare "job_0_2"
        (.completed ["x"])).report World.bare "job_0_3" (.completed ["y"])).readyQueue =
      ["job_0_4"] :=
  ⟨reports_commute 2 joinCalls (by decide) (by decide) (by decide) (by decide) World.bare
    World.bare World.bare World.bare (.completed ["x"]) (.completed ["y"]), by decide⟩

end ZeptoPM
