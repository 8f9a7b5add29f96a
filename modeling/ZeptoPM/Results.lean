import ZeptoPM.Commute
import ZeptoPM.RunStatus

/- What a completed run has produced is told twice: its record names the outputs of the
   jobs that no other depends on, as the completion check found them, and the results
   endpoint collects the outputs of all completed jobs. `Gathered` is the invariant of
   the record: while every job of a completed run is completed, the record is up to date.
   A completion that is reported of a job without a slot is not followed by a check, so
   it can break the invariant; `NoLateResults` excludes those that do. `resultsAgree_iff`
   then says that the two accounts agree as long as no job that another one depends on
   has an output. -/
namespace ZeptoPM
open OrchestratorEngine

/-! ## The results endpoint -/

/-- One entry of `artifacts` in the reply. -/
structure ResultArtifact where
  artifactId : ArtifactId
  jobId : JobId
  kind : String
  path : PathBuf
  summary : String
  content : Option String
  deriving DecidableEq, Repr

structure RunResult where
  runId : RunId
  task : String
  status : String
  artifacts : List ResultArtifact
  deriving DecidableEq, Repr

/-- An artifact with what its file holds, if it can be read. -/
def Artifact.result (w : World) (a : Artifact) : ResultArtifact where
  artifactId := a.artifactId
  jobId := a.jobId
  kind := a.kind
  path := a.path
  summary := a.summary
  content := w.readToString a.path

/-- The entries for those of the ids that name an artifact of the store. -/
def RunStore.collect (w : World) (s : RunStore) (ids : List ArtifactId) : List ResultArtifact :=
  ids.filterMap (fun aid => (s.getArtifact aid).map (Artifact.result w))

namespace OrchestratorEngine

def getRunResultData (w : World) (e : OrchestratorEngine) (runId : RunId) :
    Except String RunResult :=
  match e.store.getRun runId with
  | none => .error ("run '" ++ runId ++ "' not found")
  | some run =>
    let jobs := e.store.listRunJobs w runId
    -- of all completed jobs, whether or not others depend on them
    let artifacts := (jobs.filter (fun j => j.status == .completed)).flatMap
      (fun j => e.store.collect w j.outputArtifactIds)
    .ok { runId := run.runId, task := run.task, status := run.status.text, artifacts }

/-- The endpoint returns the final artifacts of the run's record, and these are the outputs
of the jobs that no job of the run depends on. -/
def ResultsAgree (w : World) (e : OrchestratorEngine) (r : RunId) (run : Run) : Prop :=
  ∃ result, e.getRunResultData w r = .ok result ∧
    result.artifacts.Perm (e.store.collect w run.finalArtifactIds) ∧
    (e.store.collect w run.finalArtifactIds).Perm
      (e.store.collect w (leafArtifacts (e.store.listRunJobs w r)))

/-- Some job of the run has an artifact and a job that depends on it. -/
def InnerResult (w : World) (e : OrchestratorEngine) (r : RunId) : Prop :=
  ∃ job ∈ e.store.listRunJobs w r,
    (∃ other ∈ e.store.listRunJobs w r, job.jobId ∈ other.dependsOn) ∧
    ∃ aid ∈ job.outputArtifactIds, (e.store.getArtifact aid).isSome = true

instance (w : World) (e : OrchestratorEngine) (r : RunId) : Decidable (e.InnerResult w r) :=
  inferInstanceAs (Decidable (∃ _ ∈ _, (∃ _ ∈ _, _) ∧ ∃ _ ∈ _, _))

end OrchestratorEngine

/-! ## The condition -/

/-- A completion reported of a job without a slot leaves the results of a completed run as
they are: another job of the run is not completed yet, or the job was completed and either
reports what it had reported before or has a job depending on it. -/
def NoLateResults (c : Core) (x : World × Action) : Prop :=
  match x.2 with
  | .call _ (.markCompleted j o) => c.engine.activeJobs.get j = none →
    ∀ job ∈ c.engine.store.getJob j, ∀ run ∈ c.engine.store.getRun job.runId,
      run.status = .completed →
      (∃ other ∈ c.engine.store.listRunJobs x.1 job.runId,
        other.jobId ≠ j ∧ other.status ≠ .completed) ∨
      (job.status = .completed ∧ (o = job.outputArtifactIds ∨
        ∃ other ∈ c.engine.store.listRunJobs x.1 job.runId, j ∈ other.dependsOn))
  | _ => True

instance (c : Core) (x : World × Action) : Decidable (NoLateResults c x) := by
  obtain ⟨w, ⟨r₀, f⟩ | _⟩ := x
  · rcases f with _ | _ <;> dsimp only [NoLateResults] <;> infer_instance
  all_goals
    dsimp only [NoLateResults]
    infer_instance

/-! ## The invariant -/

/-- The list holds the jobs of the run among those given, each once. -/
structure JobsOf (getJob : JobId → Option Job) (r : RunId) (jobs : List Job) : Prop where
  mem : ∀ job, job ∈ jobs ↔ getJob job.jobId = some job ∧ job.runId = r
  nodup : (jobs.map (·.jobId)).Nodup

theorem JobsOf.perm {getJob : JobId → Option Job} {r : RunId} {jobs jobs' : List Job}
    (h : JobsOf getJob r jobs) (h' : JobsOf getJob r jobs') : jobs.Perm jobs' :=
  (List.perm_ext_iff_of_nodup (.of_map _ h.nodup) (.of_map _ h'.nodup)).mpr
    (fun job => (h.mem job).trans (h'.mem job).symm)

theorem jobsOf_listRunJobs (w : World) (s : RunStore) (r : RunId) :
    JobsOf s.getJob r (s.listRunJobs w r) :=
  ⟨(runJobs_listRunJobs w s r).mem, (runJobs_listRunJobs w s r).nodup⟩

/-- If the run is completed and so are all its jobs, its record names the outputs of the
jobs that no other depends on. -/
def Gathered (getRun : RunId → Option Run) (getJob : JobId → Option Job) (r : RunId) : Prop :=
  ∀ run, getRun r = some run → run.status = .completed →
    ∀ jobs, JobsOf getJob r jobs → (∀ job ∈ jobs, job.status = .completed) →
      run.finalArtifactIds.Perm (leafArtifacts jobs)

section
variable {getRun getRun' : RunId → Option Run} {getJob getJob' : JobId → Option Job} {r : RunId}

theorem Gathered.congr (h : Gathered getRun getJob r) (hrun : getRun' r = getRun r)
    (hjobs : ∀ k job, job.runId = r → (getJob' k = some job ↔ getJob k = some job)) :
    Gathered getRun' getJob' r := by
  intro run hget hst jobs hlist hall
  refine h run (hrun ▸ hget) hst jobs ⟨fun job => (hlist.mem job).trans ?_, hlist.nodup⟩ hall
  refine and_congr_left fun hr => ?_
  exact hjobs job.jobId job hr

theorem gathered_of_status (h : ∀ run, getRun r = some run → run.status ≠ .completed) :
    Gathered getRun getJob r :=
  fun run hget hst => absurd hst (h run hget)

theorem gathered_of_open (job : Job) (hget : getJob job.jobId = some job) (hr : job.runId = r)
    (hst : job.status ≠ .completed) : Gathered getRun getJob r := by
  intro run _ _ jobs hlist hall
  exact absurd (hall job ((hlist.mem job).mpr ⟨hget, hr⟩)) hst

end

/-- Changes to the jobs that no output of a leaf shows. -/
theorem leafArtifacts_map {jobs : List Job} {f : Job → Job} (hid : ∀ job, (f job).jobId = job.jobId)
    (hdeps : ∀ job, (f job).dependsOn = job.dependsOn)
    (hout : ∀ job ∈ jobs, (∀ other ∈ jobs, job.jobId ∉ other.dependsOn) →
      (f job).outputArtifactIds = job.outputArtifactIds) :
    leafArtifacts (jobs.map f) = leafArtifacts jobs := by
  have htargets : (jobs.map f).flatMap (fun j => j.dependsOn) =
      jobs.flatMap (fun j => j.dependsOn) := by
    rw [List.flatMap_map]
    exact List.flatMap_congr fun job _ => hdeps job
  unfold leafArtifacts
  rw [htargets, List.filter_map, List.flatMap_map]
  have hpred : ((fun j : Job => !(jobs.flatMap (fun j => j.dependsOn)).contains j.jobId) ∘ f) =
      fun j => !(jobs.flatMap (fun j => j.dependsOn)).contains j.jobId := by
    funext job
    show (!List.contains _ (f job).jobId) = _
    rw [hid]
  rw [hpred]
  refine List.flatMap_congr fun job hmem => ?_
  obtain ⟨hmem, hleaf⟩ := List.mem_filter.mp hmem
  refine hout job hmem fun other hother hdep => ?_
  rw [Bool.not_eq_true', ← Bool.not_eq_true, List.contains_iff_mem] at hleaf
  exact hleaf (List.mem_flatMap.mpr ⟨other, hother, hdep⟩)

/-- The results of every run are gathered, in the engine and in the database. -/
def GatheredCore (c : Core) : Prop :=
  (∀ r, Gathered c.engine.store.getRun c.engine.store.getJob r) ∧
    ∀ db, c.db = some db → ∀ r, Gathered db.getRun db.getJob r

/-! ## One action -/

section
variable {w : World} {e e' : OrchestratorEngine} {r : RunId}

theorem Gathered.created (hg : Grounded e) {r₀ : RunId} {new : List Job}
    (hn : Created e e' r₀ new) (hr : r ≠ r₀) (hrun : e'.store.getRun r = e.store.getRun r)
    (h : Gathered e.store.getRun e.store.getJob r) :
    Gathered e'.store.getRun e'.store.getJob r := by
  refine h.congr hrun fun k job hjr => ⟨?_, ?_⟩
  · intro hget
    rcases hn.cases hget with ⟨hmem, _⟩ | ⟨_, hold⟩
    · exact absurd (hjr.symm.trans (hn.runId job hmem)) hr
    · exact hold
  · intro hget
    rw [hn.getJob_old k, hget]
    intro hmem
    obtain ⟨job', hjob', rfl⟩ := List.mem_map.mp hmem
    exact hn.fresh job' hjob' (hg.supervised.jobIssued _ _ hget)

/-- A new job is not completed. -/
theorem Gathered.enlarged (hg : Grounded e) {r₀ : RunId} {new : List Job}
    (hn : Enlarged e e' r₀ new) (h : Gathered e.store.getRun e.store.getJob r) :
    Gathered e'.store.getRun e'.store.getJob r := by
  cases new with
  | nil => exact h.congr (hn.getRun r) fun k _ _ => by rw [hn.created.getJob_old k List.not_mem_nil]
  | cons job rest =>
    have hmem : job ∈ job :: rest := List.mem_cons_self
    by_cases hr : r = r₀
    · refine gathered_of_open job (hn.created.getJob_new job hmem)
        ((hn.created.runId job hmem).trans hr.symm) ?_
      rcases hn.created.shape job hmem with ⟨hst, _⟩ | ⟨hst, _⟩
      · rw [hst]
        exact JobStatus.noConfusion
      · rw [hst]
        exact JobStatus.noConfusion
    · exact h.created hg hn.created hr (hn.getRun r)

theorem gathered_started (h : Gathered e.store.getRun e.store.getJob r) {job : Job}
    {q : List JobId} (hjob : e.store.getJob job.jobId = some job) :
    Gathered (e.started w job q).store.getRun (e.started w job q).store.getJob r := by
  by_cases hr : r = job.runId
  · refine gathered_of_open (job.start w) ?_ hr.symm JobStatus.noConfusion
    show (e.started w job q).store.getJob job.jobId = _
    rw [getJob_started, if_pos rfl, hjob]
    rfl
  · refine h.congr (by rw [getRun_started, if_neg hr]) fun k job' hr' => ?_
    rw [getJob_started]
    split
    · rename_i hk
      rw [hk, hjob]
      refine ⟨fun heq => ?_, fun heq => ?_⟩
      · cases heq
        exact absurd hr'.symm hr
      · cases heq
        exact absurd hr'.symm hr
    · exact Iff.rfl

/-- A report on an active job leaves the results of its run gathered: if the check
does not write them, the run has an unfinished job or no job at all. -/
theorem gathered_report {j : JobId} (rep : Report) (hact : e.activeJobs.get j = some r)
    (h : Gathered e.store.getRun e.store.getJob r)
    (hkeep : ∀ k job, e.store.getJob k = some job → job.runId = r →
      ∃ job', (e.report w j rep).store.getJob k = some job' ∧ job'.runId = r) :
    Gathered (e.report w j rep).store.getRun (e.report w j rep).store.getJob r := by
  intro run' hrun' hst jobs hlist hall
  have hperm := hlist.perm (jobsOf_listRunJobs w _ r)
  rw [getRun_report rep hact, if_pos rfl] at hrun'
  obtain ⟨run, hrun, rfl⟩ := Option.map_eq_some_iff.mp hrun'
  unfold Run.checked at hst ⊢
  split
  · exact (leafArtifacts_perm hperm).symm
  · rename_i hopen
    rw [if_neg hopen] at hst
    have hempty : jobs = [] := by
      by_contra hne
      refine hopen ?_
      rw [← concluded_perm hperm, concluded, Bool.and_eq_true, Bool.not_eq_true',
        Bool.not_eq_true', List.isEmpty_eq_false_iff, List.any_eq_false]
      refine ⟨hne, fun job hjob => ?_⟩
      rw [hall job hjob]
      exact Bool.false_ne_true
    -- without a job after the report the run had none before
    refine hempty ▸ h run hrun hst [] ⟨fun job => ?_, List.nodup_nil⟩ (fun _ hmem => ?_)
    · refine ⟨fun hmem => absurd hmem List.not_mem_nil, fun hget => ?_⟩
      obtain ⟨job', hget', hr'⟩ := hkeep job.jobId job hget.1 hget.2
      have hmem := (hlist.mem job').mpr ⟨RunStore.jobId_of_getJob hget' ▸ hget', hr'⟩
      exact absurd (hempty ▸ hmem) List.not_mem_nil
    · exact absurd hmem List.not_mem_nil

/-- The jobs of the run, where a job without a slot is written to in place. -/
theorem jobsOf_alter {j : JobId} {f : Job → Job} (hid : ∀ job, (f job).jobId = job.jobId)
    (hrun : ∀ job, (f job).runId = job.runId) {jobs : List Job}
    (hget : ∀ k, e'.store.getJob k =
      if k = j then (e.store.getJob j).map f else e.store.getJob k)
    (h : JobsOf e.store.getJob r jobs) :
    JobsOf e'.store.getJob r (jobs.map (fun job => if job.jobId = j then f job else job)) := by
  have hname : ∀ job : Job, (if job.jobId = j then f job else job).jobId = job.jobId := by
    intro job
    split
    · exact hid job
    · rfl
  refine ⟨fun job' => ⟨?_, ?_⟩, ?_⟩
  · intro hmem
    obtain ⟨job, hjob, rfl⟩ := List.mem_map.mp hmem
    obtain ⟨hold, hr⟩ := (h.mem job).mp hjob
    rw [hname, hget]
    split
    · rename_i hk
      rw [← hk, hold]
      exact ⟨rfl, (hrun job).trans hr⟩
    · exact ⟨hold, hr⟩
  · intro hmem
    obtain ⟨hnew, hr⟩ := hmem
    rw [hget] at hnew
    split at hnew
    · rename_i hk
      obtain ⟨job, hold, rfl⟩ := Option.map_eq_some_iff.mp hnew
      have hjobId := RunStore.jobId_of_getJob hold
      refine List.mem_map.mpr ⟨job, (h.mem job).mpr ⟨hjobId.symm ▸ hold, (hrun job) ▸ hr⟩, ?_⟩
      exact if_pos hjobId
    · rename_i hk
      exact List.mem_map.mpr ⟨job', (h.mem job').mpr ⟨hnew, hr⟩, if_neg hk⟩
  · rw [List.map_map]
    exact (List.map_congr_left (fun job _ => hname job)) ▸ h.nodup

/-- A job that hands in the same artifacts again, or is no leaf of its run, leaves the run's
artifacts as they are. -/
theorem leafArtifacts_completedAgain {j : JobId} {o : List ArtifactId} {job : Job}
    (hjob : e.store.getJob j = some job) (hsame : o = job.outputArtifactIds ∨
      ∃ other ∈ e.store.listRunJobs w job.runId, j ∈ other.dependsOn) :
    leafArtifacts ((e.store.listRunJobs w job.runId).map
        (fun job => if job.jobId = j then job.complete w o else job)) =
      leafArtifacts (e.store.listRunJobs w job.runId) := by
  refine leafArtifacts_map ?_ ?_ ?_
  · intro job
    split <;> rfl
  · intro job
    split <;> rfl
  · intro job' hmem hleaf
    split
    · rename_i hk
      obtain ⟨hget', _⟩ := RunStore.mem_listRunJobs.mp hmem
      rw [hk, hjob] at hget'
      cases hget'
      rcases hsame with rfl | ⟨other, hother, hdep⟩
      · rfl
      · exact absurd (hk ▸ hdep) (hleaf other hother)
    · rfl

/-- A completion that is followed by no check, where `NoLateResults` allows it. -/
theorem gathered_late {j : JobId} {o : List ArtifactId}
    (hrun : e'.store.getRun r = e.store.getRun r)
    (hget : ∀ k, e'.store.getJob k =
      if k = j then (e.store.getJob j).map (Job.complete w o) else e.store.getJob k)
    (h : Gathered e.store.getRun e.store.getJob r)
    (hok : ∀ job ∈ e.store.getJob j, ∀ run ∈ e.store.getRun job.runId, run.status = .completed →
      (∃ other ∈ e.store.listRunJobs w job.runId, other.jobId ≠ j ∧ other.status ≠ .completed) ∨
      (job.status = .completed ∧ (o = job.outputArtifactIds ∨
        ∃ other ∈ e.store.listRunJobs w job.runId, j ∈ other.dependsOn))) :
    Gathered e'.store.getRun e'.store.getJob r := by
  have hother : (∀ job, e.store.getJob j = some job → job.runId ≠ r) →
      Gathered e'.store.getRun e'.store.getJob r := by
    intro hne
    refine h.congr hrun fun k job hr => ?_
    rw [hget]
    split
    · rename_i hk
      rw [hk]
      refine ⟨fun hk => ?_, fun hk => absurd hr (hne job hk)⟩
      obtain ⟨job₀, hjob₀, rfl⟩ := Option.map_eq_some_iff.mp hk
      exact absurd hr (hne job₀ hjob₀)
    · exact Iff.rfl
  cases hjob : e.store.getJob j with
  | none => exact hother fun job hk => by rw [hjob] at hk; cases hk
  | some job =>
    by_cases hr : job.runId = r
    · subst hr
      intro run hrun' hst jobs hlist hall
      rw [hrun] at hrun'
      rcases hok job hjob run hrun' hst with ⟨other, hmem, hne, hopen⟩ | ⟨hdone, hsame⟩
      · -- the other job is still open
        obtain ⟨hk, hr⟩ := RunStore.mem_listRunJobs.mp hmem
        refine absurd (hall other ((hlist.mem other).mpr ⟨?_, hr⟩)) hopen
        rw [hget, if_neg hne]
        exact hk
      · have hbefore := jobsOf_listRunJobs w e.store job.runId
        have hafter := jobsOf_alter (Job.complete_jobId w o) (fun _ => rfl) hget hbefore
        have hleaves := leafArtifacts_completedAgain (w := w) hjob hsame
        have hall' : ∀ job' ∈ e.store.listRunJobs w job.runId, job'.status = .completed := by
          intro job' hmem
          by_cases hk : job'.jobId = j
          · obtain ⟨hget', _⟩ := RunStore.mem_listRunJobs.mp hmem
            rw [hk, hjob] at hget'
            cases hget'
            exact hdone
          · refine hall job' ((hafter.perm hlist).mem_iff.mp ?_)
            exact List.mem_map.mpr ⟨job', hmem, if_neg hk⟩
        refine (h run hrun' hst _ hbefore hall').trans ?_
        rw [← hleaves]
        exact leafArtifacts_perm (hafter.perm hlist)
    · exact hother fun job' hk => by rw [hjob] at hk; cases hk; exact hr

theorem gathered_markCompleted (hhome : e.Home) (db : Option SqlitePersistence)
    (h : ∀ r, Gathered e.store.getRun e.store.getJob r) (j : JobId) (o : List ArtifactId)
    {r₀ : RunId} (hok : NoLateResults ⟨e, db⟩ (w, .call r₀ (.markCompleted j o))) (r : RunId) :
    Gathered (e.markCompleted w j o).store.getRun (e.markCompleted w j o).store.getJob r := by
  by_cases hact : e.activeJobs.get j = some r
  · refine gathered_report (.completed o) hact (h r) fun k job hk hr => ?_
    refine ⟨e.afterCompletion w j o k job, ?_, ?_⟩
    · show (e.markCompleted w j o).store.getJob k = _
      rw [getJob_markCompleted, hk]
      rfl
    · exact (afterCompletion_runId w e j o k job).trans hr
  · have hrun := getRun_markCompleted_ne w e j o hact
    cases hslot : e.activeJobs.get j with
    | some r' =>
      -- the job and those it unblocks are of the other run
      have hne : r' ≠ r := fun heq => hact (heq ▸ hslot)
      refine (h r).congr hrun fun k job hr => getJob_markCompleted_other w e j o ?_ ?_ hr
      · intro r₁ hr₁
        rw [hslot] at hr₁
        cases hr₁
        exact hne
      · intro job hjob hr
        exact hne ((hhome j r' job hslot hjob).symm.trans hr)
    | none =>
      have hget : ∀ k, (e.markCompleted w j o).store.getJob k =
          if k = j then (e.store.getJob j).map (Job.complete w o) else e.store.getJob k := by
        intro k
        unfold markCompleted
        rw [hslot]
        exact RunStore.getJob_alterJob ..
      exact gathered_late hrun hget (h r) (hok hslot)

/-- A failed job is not completed. -/
theorem gathered_markFailed (h : Gathered e.store.getRun e.store.getJob r)
    (j : JobId) (err : String) :
    Gathered (e.markFailed w j err).store.getRun (e.markFailed w j err).store.getJob r := by
  by_cases hjob : ∃ job, e.store.getJob j = some job ∧ job.runId = r
  · obtain ⟨job, hget, hr⟩ := hjob
    refine gathered_of_open (job.fail w err) ?_ ((Job.fail_runId ..).trans hr) ?_
    · rw [Job.fail_jobId, RunStore.jobId_of_getJob hget, getJob_markFailed, if_pos rfl, hget]
      rfl
    · rcases Job.fail_status_cases w job err with hst | hst
      · rw [hst]
        exact JobStatus.noConfusion
      · rw [hst]
        exact JobStatus.noConfusion
  · have hjobs : ∀ k job, job.runId = r →
        ((e.markFailed w j err).store.getJob k = some job ↔ e.store.getJob k = some job) := by
      intro k job hr
      rw [getJob_markFailed]
      split
      · rename_i hk
        rw [hk]
        refine ⟨fun hget => ?_, fun hget => absurd ⟨job, hget, hr⟩ hjob⟩
        obtain ⟨job₀, hjob₀, rfl⟩ := Option.map_eq_some_iff.mp hget
        exact absurd ⟨job₀, hjob₀, (Job.fail_runId ..).symm.trans hr⟩ hjob
      · exact Iff.rfl
    by_cases hact : e.activeJobs.get j = some r
    · refine gathered_report (.failed err) hact h fun k job hk hr => ?_
      exact ⟨job, (hjobs k job hr).mpr hk, hr⟩
    · exact h.congr (getRun_markFailed_ne w e j err hact) hjobs

theorem Gathered.cancelled (h : Gathered e.store.getRun e.store.getJob r) {r₀ : RunId}
    (hc : CancelledRun w e e' r₀) : Gathered e'.store.getRun e'.store.getJob r := by
  by_cases hr : r = r₀
  · refine gathered_of_status fun run hrun => ?_
    obtain ⟨run', hrun', hst⟩ := hc.getRun_self
    rw [hr, hrun'] at hrun
    cases hrun
    rw [hst]
    exact RunStatus.noConfusion
  · refine h.congr (hc.getRun_ne r hr) fun k job hjr => ?_
    by_cases hcan : e.Cancels r₀ k
    · obtain ⟨job₀, hjob₀, hr₀, _⟩ := id hcan
      rw [hc.getJob_cancelled k hcan, hjob₀]
      refine ⟨fun hget => ?_, fun hget => ?_⟩
      · cases hget
        exact absurd (hjr.symm.trans ((Job.fail_runId ..).trans hr₀)) hr
      · cases hget
        exact absurd (hjr.symm.trans hr₀) hr
    · rw [hc.getJob_other k hcan]

/-! ## Database and restart -/

variable {db : SqlitePersistence}

theorem gathered_persist (hi : Image db e) (h : ∀ r, Gathered e.store.getRun e.store.getJob r)
    (hdb : ∀ r, Gathered db.getRun db.getJob r) (r₀ r : RunId) :
    Gathered (db.persistRunState w e.store r₀).getRun
      (db.persistRunState w e.store r₀).getJob r := by
  by_cases hr : r = r₀
  · subst hr
    cases hrun : e.store.getRun r with
    | none =>
      refine gathered_of_status fun run hget => ?_
      rcases persisted_run hi hget with ⟨_, hget⟩ | ⟨hne, _⟩
      · rw [hrun] at hget
        cases hget
      · exact absurd rfl hne
    | some run =>
      refine (h r).congr ?_ fun k job hjr => ⟨fun hget => ?_, fun hget => ?_⟩
      · rw [SqlitePersistence.getRun_persistRunState, if_pos ⟨rfl, by rw [hrun]; rfl⟩]
      · rcases persisted_job hi hget with ⟨_, hget⟩ | ⟨hne, _⟩
        · exact hget
        · exact absurd hjr hne
      · rw [SqlitePersistence.getJob_persistRunState, if_pos (by rw [hget, ← hjr]; rfl)]
        exact hget
  · refine (hdb r).congr ?_ fun k job hjr => ⟨fun hget => ?_, fun hget => ?_⟩
    · rw [SqlitePersistence.getRun_persistRunState, if_neg fun hk => hr hk.1]
    · rcases persisted_job hi hget with ⟨heq, _⟩ | ⟨_, hget⟩
      · exact absurd (hjr.symm.trans heq) hr
      · exact hget
    · rw [SqlitePersistence.getJob_persistRunState, if_neg]
      · exact hget
      · obtain ⟨⟨job', hjob', hr'⟩, _⟩ := hi.job k job hget
        rw [hjob', Option.map_some, Option.some.injEq, hr', hjr]
        exact hr

theorem gathered_deleteRun (hdb : Gathered db.getRun db.getJob r) (r₀ : RunId) :
    Gathered (db.deleteRun w r₀).getRun (db.deleteRun w r₀).getJob r := by
  by_cases hr : r = r₀
  · refine gathered_of_status fun run hget => ?_
    rw [SqlitePersistence.getRun_deleteRun, if_pos hr] at hget
    cases hget
  · refine hdb.congr (by rw [SqlitePersistence.getRun_deleteRun, if_neg hr]) fun k job hjr => ?_
    rw [SqlitePersistence.getJob_deleteRun]
    exact and_iff_left (hjr ▸ hr)

theorem gathered_expire (h : Gathered e.store.getRun e.store.getJob r) (r₀ : RunId) :
    Gathered (e.removeRun w r₀).store.getRun (e.removeRun w r₀).store.getJob r := by
  by_cases hr : r = r₀
  · refine gathered_of_status fun run hget => ?_
    rw [getRun_expire, if_pos hr] at hget
    cases hget
  · refine h.congr (by rw [getRun_expire, if_neg hr]) fun k job hjr => ?_
    rw [getJob_expire]
    exact and_iff_left (hjr ▸ hr)

/-- A completed job is loaded as it was, and no other is loaded as completed. -/
theorem Job.recover_of_completed (w : World) {job : Job} (h : (job.recover w).status = .completed) :
    job.recover w = job := by
  unfold Job.recover at h ⊢
  split
  · rename_i hst
    rw [if_pos hst] at h
    rcases Job.fail_status_cases w job "daemon restarted — process lost" with hf | hf
    · rw [hf] at h
      cases h
    · rw [hf] at h
      cases h
  · rfl

theorem gathered_hydrate (hdb : Gathered db.getRun db.getJob r) (ids : IdSupply) :
    Gathered (hydrate w (some db) ids).store.getRun (hydrate w (some db) ids).store.getJob r := by
  intro run hrun hst jobs hlist hall
  rw [getRun_hydrate] at hrun
  refine hdb run hrun hst jobs ⟨fun job => ⟨fun hmem => ?_, fun hget => ?_⟩, hlist.nodup⟩ hall
  · obtain ⟨hget, hr⟩ := (hlist.mem job).mp hmem
    rw [getJob_hydrate] at hget
    obtain ⟨job₀, hjob₀, heq⟩ := Option.map_eq_some_iff.mp hget
    have hst : (job₀.recover w).status = .completed := heq ▸ hall job hmem
    have hsame := Job.recover_of_completed w hst
    rw [hsame] at heq
    exact ⟨heq ▸ hjob₀, hr⟩
  · have hmem : job.recover w ∈ jobs := by
      refine (hlist.mem _).mpr ⟨?_, (Job.recover_runId w job).trans hget.2⟩
      rw [Job.recover_jobId, getJob_hydrate, hget.1]
      rfl
    rwa [Job.recover_of_completed w (hall _ hmem)] at hmem

theorem gathered_empty (ids : IdSupply) : Gathered ({ new 4 with ids := ids } :
    OrchestratorEngine).store.getRun ({ new 4 with ids := ids } :
    OrchestratorEngine).store.getJob r :=
  gathered_of_status fun run hget => by cases hget

end

/-! ## Runs of the daemon -/

theorem gathered_call {w : World} {e : OrchestratorEngine} {db : Option SqlitePersistence}
    {r₀ : RunId} {f : Call} (hg : Grounded e)
    (h : ∀ r, Gathered e.store.getRun e.store.getJob r)
    (hl : Legal ⟨e, db⟩ (w, .call r₀ f)) (hok : NoLateResults ⟨e, db⟩ (w, .call r₀ f)) (r : RunId) :
    Gathered (f.apply w e).store.getRun (f.apply w e).store.getJob r := by
  cases outcome_call hg hl with
  | frame hf => exact (h r).congr (hf.getRun r) fun k _ _ => by rw [hf.getJob]
  | submitted task hn hfresh =>
    by_cases hr : r = (e.submitIds w).1
    · -- a new run is pending
      refine gathered_of_status fun run hget => ?_
      have hget : (e.submitRun w task).2.store.getRun r = some run := hget
      rw [getRun_submitRun, if_pos hr] at hget
      cases hget
      exact RunStatus.noConfusion
    · exact (h r).created hg hn hr ((getRun_submitRun ..).trans (if_neg hr))
  | dropped q heq hq =>
    show Gathered (e.startNext w).2.store.getRun (e.startNext w).2.store.getJob r
    rw [heq]
    exact h r
  | started job q hq hjob heq =>
    show Gathered (e.startNext w).2.store.getRun (e.startNext w).2.store.getJob r
    rw [heq]
    exact gathered_started (h r) hjob
  | completed j o => exact gathered_markCompleted hg.supervised.home db h j o hok r
  | failed j err => exact gathered_markFailed (h r) j err
  | planned r₁ p plan hn => exact (h r).enlarged hg hn
  | revised j d m rev new hrev hn => exact (h r).enlarged hg hn
  | cancelled r₁ hc => exact (h r).cancelled hc

theorem gathered_act (c : Core) (x : World × Action) (hs : Sound c) (hl : Legal c x)
    (h : GatheredCore c) (hok : NoLateResults c x) : GatheredCore (coreStep c x) := by
  obtain ⟨e, db⟩ := c
  obtain ⟨w, a⟩ := x
  obtain ⟨he, hdb⟩ := h
  cases a with
  | call r f => exact ⟨gathered_call hs.grounded he hl hok, hdb⟩
  | persistRunState r =>
    refine ⟨he, fun db' hdb' => ?_⟩
    obtain ⟨db₀, rfl, rfl⟩ := Option.map_eq_some_iff.mp hdb'
    exact gathered_persist (hs.image db₀ rfl) he (hdb db₀ rfl) r
  | persistArtifact artifact =>
    refine ⟨he, fun db' hdb' => ?_⟩
    obtain ⟨db₀, rfl, rfl⟩ := Option.map_eq_some_iff.mp hdb'
    exact hdb db₀ rfl
  | genId pre => exact ⟨he, hdb⟩
  | expire r =>
    refine ⟨fun r' => gathered_expire (he r') r, fun db' hdb' => ?_⟩
    obtain ⟨db₀, rfl, rfl⟩ := Option.map_eq_some_iff.mp hdb'
    exact fun r' => gathered_deleteRun (hdb db₀ rfl r') r
  | hydrate =>
    refine ⟨fun r => ?_, hdb⟩
    cases db with
    | none => exact gathered_empty e.ids.restart
    | some db₀ => exact gathered_hydrate (hdb db₀ rfl r) e.ids

theorem gathered_off (persistent : Bool) (sandboxOverride : Option Bool) (capsule : Bool) :
    GatheredCore (Daemon.off persistent sandboxOverride capsule).core := by
  refine ⟨fun r => gathered_empty IdSupply.new, fun db hdb r => ?_⟩
  cases persistent <;> cases hdb
  exact gathered_of_status fun run hget => by cases hget

/-! ## The two accounts compared -/

section
variable {w : World} {s : RunStore}

theorem RunStore.collect_perm {ids ids' : List ArtifactId} (h : ids.Perm ids') :
    (s.collect w ids).Perm (s.collect w ids') := h.filterMap _

theorem RunStore.collect_eq_nil {ids : List ArtifactId} :
    s.collect w ids = [] ↔ ∀ aid ∈ ids, (s.getArtifact aid).isSome = false := by
  unfold RunStore.collect
  rw [List.filterMap_eq_nil_iff]
  refine forall₂_congr fun aid _ => ?_
  rw [Option.map_eq_none_iff, Option.isSome_eq_false_iff, Option.isNone_iff_eq_none]

theorem RunStore.collect_flatMap (jobs : List Job) :
    s.collect w (jobs.flatMap (fun j => j.outputArtifactIds)) =
      jobs.flatMap (fun j => s.collect w j.outputArtifactIds) := List.filterMap_flatMap

/-- The jobs of the list that some job of the list depends on. -/
def innerJobs (jobs : List Job) : List Job :=
  jobs.filter (fun j => (jobs.flatMap (fun j => j.dependsOn)).contains j.jobId)

theorem mem_innerJobs {jobs : List Job} {job : Job} :
    job ∈ innerJobs jobs ↔ job ∈ jobs ∧ ∃ other ∈ jobs, job.jobId ∈ other.dependsOn := by
  unfold innerJobs
  rw [List.mem_filter, List.contains_iff_mem, List.mem_flatMap]

/-- What a list of jobs has produced: the outputs of the leaves and those of the others. -/
theorem RunStore.collect_split (jobs : List Job) :
    (jobs.flatMap (fun j => s.collect w j.outputArtifactIds)).Perm
      (s.collect w (leafArtifacts jobs) ++
        (innerJobs jobs).flatMap (fun j => s.collect w j.outputArtifactIds)) := by
  have hperm := (List.filter_append_perm
    (fun j : Job => (jobs.flatMap (fun j => j.dependsOn)).contains j.jobId) jobs).symm.flatMap_right
      (fun j => s.collect w j.outputArtifactIds)
  rw [List.flatMap_append] at hperm
  unfold leafArtifacts
  rw [RunStore.collect_flatMap]
  exact hperm.trans List.perm_append_comm

end

variable {w : World} {e : OrchestratorEngine} {r : RunId}

theorem innerResult_iff : e.InnerResult w r ↔
    (innerJobs (e.store.listRunJobs w r)).flatMap
      (fun j => e.store.collect w j.outputArtifactIds) ≠ [] := by
  rw [ne_eq, List.flatMap_eq_nil_iff, not_forall₂]
  refine exists_congr fun job => ?_
  rw [mem_innerJobs, RunStore.collect_eq_nil, not_forall₂, exists_prop, and_assoc]
  refine and_congr_right fun _ => and_congr_right fun _ => exists_congr fun aid => ?_
  rw [exists_prop, Bool.not_eq_false]

/-- What the endpoint returns where all jobs of the run are completed. -/
theorem getRunResultData_artifacts {run : Run} (hrun : e.store.getRun r = some run)
    (hall : ∀ job ∈ e.store.listRunJobs w r, job.status = .completed) :
    e.getRunResultData w r = .ok
      { runId := run.runId, task := run.task, status := run.status.text,
        artifacts := (e.store.listRunJobs w r).flatMap
          (fun j => e.store.collect w j.outputArtifactIds) } := by
  unfold getRunResultData
  rw [hrun]
  dsimp only
  rw [List.filter_eq_self.mpr]
  intro job hmem
  rw [hall job hmem]
  rfl

theorem resultsAgree_of_gathered {run : Run}
    (h : Gathered e.store.getRun e.store.getJob r) (hrun : e.store.getRun r = some run)
    (hst : run.status = .completed)
    (hall : ∀ job ∈ e.store.listRunJobs w r, job.status = .completed) :
    e.ResultsAgree w r run ↔ ¬ e.InnerResult w r := by
  have hfinal : (e.store.collect w run.finalArtifactIds).Perm
      (e.store.collect w (leafArtifacts (e.store.listRunJobs w r))) :=
    RunStore.collect_perm (h run hrun hst _ (jobsOf_listRunJobs w e.store r) hall)
  have hsplit := RunStore.collect_split (w := w) (s := e.store) (e.store.listRunJobs w r)
  rw [innerResult_iff, not_not]
  refine ⟨fun hagree => ?_, fun hinner => ?_⟩
  · obtain ⟨result, hresult, hsame, _⟩ := hagree
    rw [getRunResultData_artifacts hrun hall] at hresult
    cases hresult
    -- the outputs of the inner jobs are what is left over
    have hlength := ((hsplit.symm.trans hsame).trans hfinal).length_eq
    rw [List.length_append, Nat.add_eq_left] at hlength
    exact List.length_eq_zero_iff.mp hlength
  · refine ⟨_, getRunResultData_artifacts hrun hall, ?_, hfinal⟩
    rw [hinner, List.append_nil] at hsplit
    exact hsplit.trans hfinal.symm

/-- In a run of the daemon without late results, the results endpoint and the record of a
completed run whose jobs are all completed agree exactly if no job that another one
depends on has an artifact. -/
theorem resultsAgree_iff (persistent : Bool) (sandboxOverride : Option Bool) (capsule : Bool)
    (is : List (World × Input))
    (h : Meets Daemon.step (Guarded NoLateResults)
      (Daemon.off persistent sandboxOverride capsule) is) (w : World) (r : RunId) (completed : Run)
    (hrun : (run Daemon.step (Daemon.off persistent sandboxOverride capsule) is).engine.store.getRun
      r = some completed) (hst : completed.status = .completed)
    (hall : ∀ job ∈ (run Daemon.step (Daemon.off persistent sandboxOverride capsule)
      is).engine.store.listRunJobs w r, job.status = .completed) :
    (run Daemon.step (Daemon.off persistent sandboxOverride capsule) is).engine.ResultsAgree w r
        completed ↔
      ¬ (run Daemon.step (Daemon.off persistent sandboxOverride capsule) is).engine.InnerResult
        w r :=
  resultsAgree_of_gathered
    ((core_run gathered_act (sound_off ..) (gathered_off ..) h).2.1 r) hrun hst hall

/-- A planner delivers a plan of one job, and both deliver what they were to. -/
def soloFinished : List (World × Input) :=
  planDelivered ++ [(plannerWorld soloPlan, artifactEvent "job_1_2" "code"),
    (plannerWorld soloPlan, completedEvent "job_1_2" ["code"])]

theorem resultsAgree_soloFinished :
    ∃ completed, (run Daemon.step (Daemon.off true none false)
        soloFinished).engine.store.getRun "run_1_0" = some completed ∧
      (run Daemon.step (Daemon.off true none false) soloFinished).engine.ResultsAgree
        (plannerWorld soloPlan) "run_1_0" completed := by
  obtain ⟨completed, hrun, hst⟩ := Option.map_eq_some_iff.mp (show
    ((run Daemon.step (Daemon.off true none false) soloFinished).engine.store.getRun
      "run_1_0").map (·.status) = some .completed by decide)
  exact ⟨completed, hrun, (resultsAgree_iff true none false soloFinished (by decide)
    (plannerWorld soloPlan) "run_1_0" completed hrun hst (by decide)).mpr (by decide)⟩

/-- The first of three jobs has an output, and the third depends on it. -/
def joinFinished : List (World × Input) :=
  [(plannerWorld joinPlan, .start), (plannerWorld joinPlan, .command (.submitRun "task")),
    (plannerWorld joinPlan, artifactEvent "job_1_1" "plan"),
    (plannerWorld joinPlan, completedEvent "job_1_1" ["plan"]),
    (plannerWorld joinPlan, artifactEvent "job_1_2" "draft"),
    (plannerWorld joinPlan, completedEvent "job_1_2" ["draft"]),
    (plannerWorld joinPlan, completedEvent "job_1_3" []),
    (plannerWorld joinPlan, artifactEvent "job_1_4" "report"),
    (plannerWorld joinPlan, completedEvent "job_1_4" ["report"])]

/-- Two accounts of different length do not agree. -/
theorem not_resultsAgree_of_length {completed : Run} {n m : Nat}
    (h : (e.getRunResultData w r).toOption.map (fun result => result.artifacts.length) = some n)
    (h' : (e.store.collect w completed.finalArtifactIds).length = m) (hne : n ≠ m) :
    ¬ e.ResultsAgree w r completed := by
  intro hagree
  obtain ⟨result, hresult, hperm, _⟩ := hagree
  rw [hresult] at h
  exact hne ((Option.some.inj h).symm.trans (hperm.length_eq.trans h'))

theorem not_resultsAgree_joinFinished :
    Meets Daemon.step (Guarded NoLateResults) (Daemon.off true none false) joinFinished ∧
    ∃ completed, (run Daemon.step (Daemon.off true none false)
        joinFinished).engine.store.getRun "run_1_0" = some completed ∧
      completed.status = .completed ∧
      (∀ job ∈ (run Daemon.step (Daemon.off true none false)
        joinFinished).engine.store.listRunJobs (plannerWorld joinPlan) "run_1_0",
        job.status = .completed) ∧
      ¬ (run Daemon.step (Daemon.off true none false) joinFinished).engine.ResultsAgree
        (plannerWorld joinPlan) "run_1_0" completed := by
  refine ⟨by decide, ?_⟩
  obtain ⟨completed, hrun, heq⟩ := Option.map_eq_some_iff.mp (show
    ((run Daemon.step (Daemon.off true none false) joinFinished).engine.store.getRun
      "run_1_0").map (fun run => (run.status, run.finalArtifactIds)) =
        some (.completed, ["report", "plan"]) by decide)
  obtain ⟨hst, hfinal⟩ := Prod.mk.inj heq
  refine ⟨completed, hrun, hst, by decide, not_resultsAgree_of_length (n := 3) (m := 2) ?_ ?_ ?_⟩
  · decide
  · rw [hfinal]
    decide
  · decide

/-- A second report of the last job changes the results and not the record. -/
theorem not_resultsAgree_late :
    ∃ completed, (run Daemon.step (Daemon.off true none false) (soloFinished ++
        [(plannerWorld soloPlan, artifactEvent "job_1_2" "fix"),
          (plannerWorld soloPlan, completedEvent "job_1_2" ["code", "fix"])])).engine.store.getRun
        "run_1_0" = some completed ∧
      ¬ (run Daemon.step (Daemon.off true none false) (soloFinished ++
        [(plannerWorld soloPlan, artifactEvent "job_1_2" "fix"),
          (plannerWorld soloPlan, completedEvent "job_1_2" ["code", "fix"])])).engine.ResultsAgree
        (plannerWorld soloPlan) "run_1_0" completed := by
  obtain ⟨completed, hrun, hfinal⟩ := Option.map_eq_some_iff.mp (show
    ((run Daemon.step (Daemon.off true none false) (soloFinished ++
      [(plannerWorld soloPlan, artifactEvent "job_1_2" "fix"),
        (plannerWorld soloPlan, completedEvent "job_1_2" ["code", "fix"])])).engine.store.getRun
      "run_1_0").map (·.finalArtifactIds) = some ["code", "plan"] by decide)
  refine ⟨completed, hrun, not_resultsAgree_of_length (n := 3) (m := 2) ?_ ?_ ?_⟩
  · decide
  · rw [hfinal]
    decide
  · decide

end ZeptoPM
