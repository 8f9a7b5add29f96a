import ZeptoPM.Machine
import ZeptoPM.Core

/- What every call on the engine makes of every job. A job is created by a submission,
   a plan or a revision, and is from then on started, completed, failed and released;
   `Moved` lists these writes and `job_call` shows that there are no others. A property
   that survives them holds of every job of the engine and of the database. -/
namespace ZeptoPM
open OrchestratorEngine

/-- What calls make of a job that was there before. -/
inductive Job.Moved (job : Job) : Job → Prop where
  | same : Moved job job
  | started (w : World) {job' : Job} (h : Moved job job') : Moved job (job'.start w)
  | completed (w : World) (o : List ArtifactId) {job' : Job} (h : Moved job job') :
      Moved job (job'.complete w o)
  | failed (w : World) (err : String) {job' : Job} (h : Moved job job') :
      Moved job (job'.fail w err)
  | released {job' : Job} (h : Moved job job') : Moved job job'.setReady

/-- A job as it is created. -/
inductive Job.Made : Job → Prop where
  | planner (w : World) (r : RunId) (j : JobId) (task : String) : Made (plannerJob w r j task)
  | planned (w : World) (r : RunId) (p : JobId) (idMap : HashMap String JobId)
      (spec : PlannedJob) : Made (materializeJob w r p idMap spec)
  | coder (w : World) (reviewer coder : Job) (c : JobId) (n m : Nat) (feedback : String) :
      Made (revisedCoder w reviewer coder c n m feedback)
  | reviewer (w : World) (reviewer : Job) (c j : JobId) (n : Nat) :
      Made (revisedReviewer w reviewer c j n)

section
variable {w : World} {e : OrchestratorEngine} {k : JobId} {job' : Job}

theorem Job.Moved.trans {a b c : Job} (h₁ : a.Moved b) (h₂ : b.Moved c) : a.Moved c := by
  induction h₂ with
  | same => exact h₁
  | started w _ ih => exact .started w ih
  | completed w o _ ih => exact .completed w o ih
  | failed w err _ ih => exact .failed w err ih
  | released _ ih => exact .released ih

theorem moved_markCompleted {j : JobId} {o : List ArtifactId}
    (hk : (e.markCompleted w j o).store.getJob k = some job') :
    ∃ job, e.store.getJob k = some job ∧ job.Moved job' := by
  obtain ⟨job, hjob, ⟨_, rfl⟩ | ⟨_, _, _, rfl⟩ | ⟨_, _, rfl⟩⟩ := markCompleted_job w e j o hk
  · exact ⟨job, hjob, .completed w o .same⟩
  · exact ⟨job, hjob, .released .same⟩
  · exact ⟨_, hjob, .same⟩

theorem moved_markFailed {j : JobId} {err : String}
    (hk : (e.markFailed w j err).store.getJob k = some job') :
    ∃ job, e.store.getJob k = some job ∧ job.Moved job' := by
  obtain ⟨job, hjob, ⟨_, rfl⟩ | ⟨_, rfl⟩⟩ := markFailed_job w e j err hk
  · exact ⟨job, hjob, .failed w err .same⟩
  · exact ⟨_, hjob, .same⟩

theorem moved_markRunning {j : JobId} (hk : (e.markRunning w j).store.getJob k = some job') :
    ∃ job, e.store.getJob k = some job ∧ job.Moved job' := by
  unfold markRunning at hk
  split at hk
  · exact ⟨job', hk, .same⟩
  · rename_i r _
    rw [RunStore.getJob_alterRun, RunStore.getJob_alterJob] at hk
    split at hk
    · rename_i hkj
      obtain ⟨job, hjob, rfl⟩ := Option.map_eq_some_iff.mp hk
      exact ⟨job, hkj ▸ hjob, .started w .same⟩
    · exact ⟨job', hk, .same⟩

theorem getJob_nextJob (e : OrchestratorEngine) (k : JobId) :
    e.nextJob.2.store.getJob k = e.store.getJob k := by
  rcases nextJob_cases e with ⟨q, heq, _⟩ | ⟨job, q, _, _, _, heq⟩ <;> rw [heq]

theorem moved_startNext (hk : (e.startNext w).2.store.getJob k = some job') :
    ∃ job, e.store.getJob k = some job ∧ job.Moved job' := by
  have hnext := getJob_nextJob e k
  unfold startNext at hk
  split at hk
  · rename_i e' heq
    rw [heq] at hnext
    exact ⟨job', hnext.symm.trans hk, .same⟩
  · rename_i job e' heq
    rw [heq] at hnext
    obtain ⟨job₀, hjob₀, hmoved⟩ := moved_markRunning hk
    exact ⟨job₀, hnext.symm.trans hjob₀, hmoved⟩

theorem moved_cancelLoop (l : List (JobId × JobStatus)) : ∀ {acc : OrchestratorEngine × Nat},
    (l.foldl (cancelJob w) acc).1.store.getJob k = some job' →
      ∃ job, acc.1.store.getJob k = some job ∧ job.Moved job' := by
  induction l with
  | nil => exact fun hk => ⟨job', hk, .same⟩
  | cons x l ih =>
    intro acc hk
    obtain ⟨job₁, hjob₁, h₁⟩ := ih hk
    unfold cancelJob at hjob₁
    split at hjob₁
    · obtain ⟨job, hjob, h⟩ := moved_markFailed hjob₁
      exact ⟨job, hjob, h.trans h₁⟩
    · exact ⟨job₁, hjob₁, h₁⟩

theorem moved_cancelRun {r : RunId} (hk : (e.cancelRun w r).2.store.getJob k = some job') :
    ∃ job, e.store.getJob k = some job ∧ job.Moved job' := by
  unfold cancelRun at hk
  split at hk
  · exact ⟨job', hk, .same⟩
  · split at hk
    · exact ⟨job', hk, .same⟩
    · exact moved_cancelLoop (e.jobsToCancel w r) hk

/-- Jobs of a plan, with the queue filled or not. -/
theorem moved_materialize {r : RunId} {p : JobId} {plan : ExecutionPlan}
    (hk : (materializePlan w e.store e.ids r p plan).2.1.getJob k = some job') :
    (∃ job, e.store.getJob k = some job ∧ job.Moved job') ∨ job'.Made := by
  rcases getJob_materializePlan_cases hk with ⟨hmem, _⟩ | ⟨_, hold⟩
  · obtain ⟨spec, _, rfl⟩ := List.mem_map.mp hmem
    exact Or.inr (.planned ..)
  · exact Or.inl ⟨job', hold, .same⟩

end

/-- Every job after a call was there before and has moved, or has just been made. -/
theorem job_call (w : World) (e : OrchestratorEngine) (f : Call) {k : JobId} {job' : Job}
    (hk : (f.apply w e).store.getJob k = some job') :
    (∃ job, e.store.getJob k = some job ∧ job.Moved job') ∨ job'.Made := by
  have hframe : ∀ {e' : OrchestratorEngine} {S : Channel → Prop}, ChannelStep e e' S →
      e'.store.getJob k = some job' →
      (∃ job, e.store.getJob k = some job ∧ job.Moved job') ∨ job'.Made := by
    intro e' S hs h
    exact Or.inl ⟨job', (hs.frame.getJob k).symm.trans h, .same⟩
  cases f with
  | submitRun task =>
    rw [show (Call.submitRun task).apply w e = (e.submitRun w task).2 from rfl, submitRun] at hk
    dsimp only at hk
    rw [RunStore.getJob_createJob] at hk
    split at hk
    · cases hk
      exact Or.inr (.planner ..)
    · exact Or.inl ⟨job', hk, .same⟩
  | nextJob => exact Or.inl ⟨job', (getJob_nextJob e k).symm.trans hk, .same⟩
  | markRunning j => exact Or.inl (moved_markRunning hk)
  | startNext => exact Or.inl (moved_startNext hk)
  | recordHeartbeat j =>
    refine Or.inl ⟨job', ?_, .same⟩
    change (e.recordHeartbeat w j).store.getJob k = some job' at hk
    unfold recordHeartbeat at hk
    split at hk <;> exact hk
  | markCompleted j o => exact Or.inl (moved_markCompleted hk)
  | markFailed j err => exact Or.inl (moved_markFailed hk)
  | materializePlan r p plan => exact moved_materialize hk
  | acceptPlan r p plan => exact moved_materialize hk
  | handleReviewCompletion j d m =>
    change (e.handleReviewCompletion w j d m).2.store.getJob k = some job' at hk
    rcases review_cases w e j d m with heq | ⟨rev, coder, feedback, _, _, _, _, heq⟩ <;>
      rw [heq] at hk
    · exact Or.inl ⟨job', hk, .same⟩
    · rw [revised, RunStore.getJob_createJob, RunStore.getJob_createJob] at hk
      split at hk
      · cases hk
        exact Or.inr (.reviewer ..)
      · split at hk
        · cases hk
          exact Or.inr (.coder ..)
        · exact Or.inl ⟨job', hk, .same⟩
  | activateReadyChannels => exact hframe channelStep_activate hk
  | routeChannelMessage ch j m => exact hframe (channelStep_route ch j m) hk
  | handleChannelDone ch j => exact hframe (channelStep_done ch j) hk
  | handleChannelPeerFailure ch j => exact hframe (channelStep_peerFailure ch j) hk
  | createArtifact a => exact Or.inl ⟨job', hk, .same⟩
  | cancelRun r => exact Or.inl (moved_cancelRun hk)
  | removeRun r =>
    have hget := (RunStore.getJob_removeRun w e.store r k).symm.trans hk
    rw [Option.filter_eq_some_iff] at hget
    exact Or.inl ⟨job', hget.1, .same⟩

/-! ## Properties of every job -/

/-- The jobs of the engine and the ones saved in the database have the property. -/
structure EveryJob (P : Job → Prop) (c : Core) : Prop where
  engine : ∀ k job, c.engine.store.getJob k = some job → P job
  db : ∀ db, c.db = some db → ∀ k job, db.getJob k = some job → P job

/-- A property that survives every write to a job. -/
structure KeptByJobs (P : Job → Prop) : Prop where
  made : ∀ job : Job, job.Made → P job
  moved : ∀ job job' : Job, P job → job.Moved job' → P job'

theorem Job.moved_recover (w : World) (job : Job) : job.Moved (job.recover w) := by
  unfold Job.recover
  split
  · exact .failed w _ .same
  · exact .same

/-- Whatever is done to the engine and the database, in whatever order. -/
theorem everyJob_act {P : Job → Prop} (hP : KeptByJobs P) (c : Core) (x : World × Action)
    (h : EveryJob P c) : EveryJob P (coreStep c x) := by
  obtain ⟨w, a⟩ := x
  cases a with
  | call r f =>
    refine ⟨fun k job' hk => ?_, h.db⟩
    rcases job_call w c.engine f hk with ⟨job, hjob, hmoved⟩ | hmade
    · exact hP.moved job job' (h.engine k job hjob) hmoved
    · exact hP.made job' hmade
  | persistRunState r =>
    refine ⟨h.engine, fun db' hdb' k job hk => ?_⟩
    obtain ⟨db, hdb, rfl⟩ := Option.map_eq_some_iff.mp hdb'
    rw [SqlitePersistence.getJob_persistRunState] at hk
    split at hk
    · exact h.engine k job hk
    · exact h.db db hdb k job hk
  | persistArtifact a =>
    refine ⟨h.engine, fun db' hdb' k job hk => ?_⟩
    obtain ⟨db, hdb, rfl⟩ := Option.map_eq_some_iff.mp hdb'
    exact h.db db hdb k job hk
  | genId pre => exact ⟨h.engine, h.db⟩
  | expire r =>
    refine ⟨fun k job hk => ?_, fun db' hdb' k job hk => ?_⟩
    · have hget := (RunStore.getJob_removeRun w c.engine.store r k).symm.trans hk
      rw [Option.filter_eq_some_iff] at hget
      exact h.engine k job hget.1
    · obtain ⟨db, hdb, rfl⟩ := Option.map_eq_some_iff.mp hdb'
      exact h.db db hdb k job (SqlitePersistence.getJob_deleteRun.mp hk).1
  | hydrate =>
    obtain ⟨e, db⟩ := c
    refine ⟨fun k job' hk => ?_, h.db⟩
    cases db with
    | none => cases hk
    | some db =>
      obtain ⟨job, hjob, rfl⟩ := Option.map_eq_some_iff.mp ((getJob_hydrate k).symm.trans hk)
      exact hP.moved job _ (h.db db rfl k job hjob) (job.moved_recover w)

end ZeptoPM
