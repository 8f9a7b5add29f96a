import ZeptoPM.Dependency
import ZeptoPM.JobMoves
import ZeptoPM.Runs

/- What a job is handed of the jobs it depends on. No part of the orchestrator writes
   the outputs of a completed job into the inputs of the jobs that wait for it: a plan
   creates its jobs without inputs, promotion changes the status only, and a revised
   reviewer starts without inputs as well. A job is therefore given what its
   dependencies have produced exactly if they have produced nothing. -/
namespace ZeptoPM
open OrchestratorEngine Daemon

/-- The inputs of a job that depends on others are never filled. -/
def Job.Unfed (job : Job) : Prop := job.dependsOn ≠ [] → job.inputArtifactIds = []

theorem Job.Moved.sameInputs {job job' : Job} (h : job.Moved job') :
    job'.dependsOn = job.dependsOn ∧ job'.inputArtifactIds = job.inputArtifactIds := by
  induction h with
  | same => exact ⟨rfl, rfl⟩
  | started w _ ih => exact ih
  | completed w o _ ih => exact ih
  | @failed w err job' _ ih =>
    have hfail : (job'.fail w err).dependsOn = job'.dependsOn ∧
        (job'.fail w err).inputArtifactIds = job'.inputArtifactIds := by
      unfold Job.fail
      split <;> exact ⟨rfl, rfl⟩
    exact ⟨hfail.1.trans ih.1, hfail.2.trans ih.2⟩
  | released _ ih => exact ih

theorem kept_unfed : KeptByJobs Job.Unfed where
  made := by
    intro job h
    cases h with
    | planner => exact fun _ => rfl
    | planned => exact fun _ => rfl
    | coder => exact fun hdeps => absurd rfl hdeps
    | reviewer => exact fun _ => rfl
  moved := by
    intro job job' hunfed hmoved
    obtain ⟨hdeps, hinputs⟩ := hmoved.sameInputs
    intro hne
    rw [hdeps] at hne
    rw [hinputs]
    exact hunfed hne

/-- The job has the outputs of all the jobs it depends on among its inputs. -/
def Fed (e : OrchestratorEngine) (job : Job) : Prop :=
  ∀ d ∈ job.dependsOn, ∀ dj ∈ e.store.getJob d,
    ∀ a ∈ dj.outputArtifactIds, a ∈ job.inputArtifactIds

instance (e : OrchestratorEngine) (job : Job) : Decidable (Fed e job) :=
  inferInstanceAs (Decidable (∀ d ∈ job.dependsOn, ∀ dj ∈ e.store.getJob d,
    ∀ a ∈ dj.outputArtifactIds, a ∈ job.inputArtifactIds))

/-- A job that `next_job` hands out is given the outputs of its dependencies. -/
def HandedOver (c : Core) (x : World × Action) : Prop :=
  match x.2 with
  | .call _ .startNext => ∀ job ∈ c.engine.nextJob.1, Fed c.engine job
  | _ => True

/-- A job is handed out only if none of its dependencies has an output. -/
def NothingToHandOver (c : Core) (x : World × Action) : Prop :=
  match x.2 with
  | .call _ .startNext => ∀ job ∈ c.engine.nextJob.1, ∀ d ∈ job.dependsOn,
      ∀ dj ∈ c.engine.store.getJob d, dj.outputArtifactIds = []
  | _ => True

instance (c : Core) (x : World × Action) : Decidable (HandedOver c x) := by
  obtain ⟨w, ⟨r₀, f⟩ | _⟩ := x
  · rcases f with _ | _ <;> dsimp only [HandedOver] <;> infer_instance
  all_goals
    dsimp only [HandedOver]
    infer_instance

instance (c : Core) (x : World × Action) : Decidable (NothingToHandOver c x) := by
  obtain ⟨w, ⟨r₀, f⟩ | _⟩ := x
  · rcases f with _ | _ <;> dsimp only [NothingToHandOver] <;> infer_instance
  all_goals
    dsimp only [NothingToHandOver]
    infer_instance

theorem nextJob_stored {e : OrchestratorEngine} {job : Job} (h : job ∈ e.nextJob.1) :
    e.store.getJob job.jobId = some job := by
  rcases nextJob_cases e with ⟨q, heq, _⟩ | ⟨job', q, _, _, hjob, heq⟩ <;> rw [heq] at h
  · cases h
  · cases h
    exact hjob

/-- What is handed over of nothing, and of something. -/
theorem fed_iff {e : OrchestratorEngine} {job : Job} (h : job.Unfed) :
    Fed e job ↔ ∀ d ∈ job.dependsOn, ∀ dj ∈ e.store.getJob d, dj.outputArtifactIds = [] := by
  refine ⟨?_, ?_⟩
  · intro hfed d hd dj hdj
    rw [List.eq_nil_iff_forall_not_mem]
    intro a ha
    have hmem := hfed d hd dj hdj a ha
    rw [h (List.ne_nil_of_mem hd)] at hmem
    cases hmem
  · intro hnone d hd dj hdj a ha
    rw [hnone d hd dj hdj] at ha
    cases ha

theorem handedOver_act_iff {c : Core} (h : EveryJob Job.Unfed c) (x : World × Action) :
    HandedOver c x ↔ NothingToHandOver c x := by
  obtain ⟨w, ⟨r₀, f⟩ | _⟩ := x
  · cases f with
    | startNext =>
      have hjob : ∀ job ∈ c.engine.nextJob.1, job.Unfed :=
        fun job hjob => h.engine job.jobId job (nextJob_stored hjob)
      refine ⟨?_, ?_⟩
      · exact fun hfed job hmem => (fed_iff (hjob job hmem)).mp (hfed job hmem)
      · exact fun hnone job hmem => (fed_iff (hjob job hmem)).mpr (hnone job hmem)
    | _ => exact Iff.rfl
  all_goals exact Iff.rfl

theorem everyJob_off (P : Job → Prop) (persistent : Bool) (sandboxOverride : Option Bool)
    (capsule : Bool) : EveryJob P (Daemon.off persistent sandboxOverride capsule).core := by
  refine ⟨fun k job hk => ?_, fun db hdb k job hk => ?_⟩
  · cases hk
  · cases persistent with
    | false => cases hdb
    | true =>
      cases hdb
      cases hk

/-- In a run of the daemon every job handed out is given the outputs of the jobs it
depends on exactly if no job is handed out after one of these has produced any. -/
theorem handedOver_iff (persistent : Bool) (sandboxOverride : Option Bool) (capsule : Bool)
    (is : List (World × Input)) :
    Meets Daemon.step (Guarded HandedOver) (Daemon.off persistent sandboxOverride capsule) is ↔
      Meets Daemon.step (Guarded NothingToHandOver)
        (Daemon.off persistent sandboxOverride capsule) is := by
  have hsound := sound_off persistent sandboxOverride capsule
  have hunfed := everyJob_off Job.Unfed persistent sandboxOverride capsule
  refine ⟨?_, ?_⟩
  · exact core_run_meets (P := EveryJob Job.Unfed)
      (fun c x _ _ h _ => everyJob_act kept_unfed c x h)
      (fun c x _ _ h hg => (handedOver_act_iff h x).mp hg) hsound hunfed
  · exact core_run_meets (P := EveryJob Job.Unfed)
      (fun c x _ _ h _ => everyJob_act kept_unfed c x h)
      (fun c x _ _ h hg => (handedOver_act_iff h x).mpr hg) hsound hunfed

/-- The first job of a chain of two is completed with an output. -/
def outputOfFirst : List (World × Input) :=
  [(plannerWorld chainPlan, .start), (plannerWorld chainPlan, .command (.submitRun "task")),
    (plannerWorld chainPlan, artifactEvent "job_1_1" "plan"),
    (plannerWorld chainPlan, completedEvent "job_1_1" ["plan"]),
    (plannerWorld chainPlan, completedEvent "job_1_2" ["report"])]

/-- The second job is handed out without it. -/
theorem not_handedOver_outputOfFirst :
    Meets Daemon.step Clocked (Daemon.off true none false) outputOfFirst ∧
      ¬ Meets Daemon.step (Guarded HandedOver) (Daemon.off true none false) outputOfFirst :=
  ⟨by decide, by decide⟩

end ZeptoPM
