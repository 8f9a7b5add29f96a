import ZeptoPM.Engine

/- What each engine operation does to the store, the queue and the active jobs,
   one description per operation. Later proofs use these and never unfold an
   operation. Three of them create jobs; `Created` says what they have in
   common. -/
namespace ZeptoPM
namespace OrchestratorEngine

/-- Nothing that concerns runs, jobs or the queue differs. -/
structure Frame (e e' : OrchestratorEngine) : Prop where
  getJob : ∀ k, e'.store.getJob k = e.store.getJob k
  getRun : ∀ k, e'.store.getRun k = e.store.getRun k
  readyQueue : e'.readyQueue = e.readyQueue
  activeJobs : e'.activeJobs = e.activeJobs
  maxConcurrency : e'.maxConcurrency = e.maxConcurrency
  ids : e'.ids = e.ids

theorem Frame.refl (e : OrchestratorEngine) : Frame e e :=
  ⟨fun _ => rfl, fun _ => rfl, rfl, rfl, rfl, rfl⟩

/-- Jobs of one run have been created under fresh ids: ready ones without
dependencies, which are queued, and pending ones that wait for others of them. -/
structure Created (e e' : OrchestratorEngine) (r : RunId) (new : List Job) : Prop where
  nodup : (new.map (·.jobId)).Nodup
  fresh : ∀ job ∈ new, ¬ Issued e.ids job.jobId
  issued : ∀ job ∈ new, Issued e'.ids job.jobId
  le : e.ids.Le e'.ids
  runId : ∀ job ∈ new, job.runId = r
  shape : ∀ job ∈ new, (job.status = .ready ∧ job.dependsOn = []) ∨
    (job.status = .pending ∧ job.dependsOn ≠ [] ∧
      ∀ d ∈ job.dependsOn, ∃ dj ∈ new, dj.jobId = d)
  attempts : ∀ job ∈ new, job.attempt = 0 ∧ job.maxAttempts = 3
  getJob_new : ∀ job ∈ new, e'.store.getJob job.jobId = some job
  getJob_old : ∀ k, k ∉ new.map (·.jobId) → e'.store.getJob k = e.store.getJob k
  readyQueue : e'.readyQueue =
    e.readyQueue ++ (new.filter (fun j => j.status == .ready)).map (·.jobId)
  activeJobs : e'.activeJobs = e.activeJobs
  lastHeartbeat : e'.lastHeartbeat = e.lastHeartbeat
  maxConcurrency : e'.maxConcurrency = e.maxConcurrency

theorem Created.cases {e e' : OrchestratorEngine} {r : RunId} {new : List Job}
    (h : Created e e' r new) {k : JobId} {job : Job} (hk : e'.store.getJob k = some job) :
    (job ∈ new ∧ job.jobId = k) ∨ (k ∉ new.map (·.jobId) ∧ e.store.getJob k = some job) := by
  by_cases hmem : k ∈ new.map (·.jobId)
  · obtain ⟨j, hj, rfl⟩ := List.mem_map.mp hmem
    rw [h.getJob_new j hj] at hk
    cases hk
    exact Or.inl ⟨hj, rfl⟩
  · rw [h.getJob_old k hmem] at hk
    exact Or.inr ⟨hmem, hk⟩

/-- A job the store already holds is not one of the new ones. -/
theorem Created.notMem {e e' : OrchestratorEngine} {r : RunId} {new : List Job}
    (h : Created e e' r new) {k : JobId} (hk : Issued e.ids k) : k ∉ new.map (·.jobId) := by
  intro hmem
  obtain ⟨j, hj, rfl⟩ := List.mem_map.mp hmem
  exact h.fresh j hj hk

section
variable (w : World) (e : OrchestratorEngine)

/-! ## Submission -/

/-- The ids a submission draws: the run's and its planner job's. -/
def submitIds : RunId × JobId :=
  ((genId w e.ids "run").1, (genId w (genId w e.ids "run").2 "job").1)

theorem created_submitRun {w : World} {e : OrchestratorEngine} (hw : w.After e.ids)
    (task : String) : Created e (e.submitRun w task).2 (e.submitIds w).1
      [plannerJob w (e.submitIds w).1 (e.submitIds w).2 task] := by
  have hle := IdSupply.le_genId w e.ids "run"
  have hfresh : ¬ Issued e.ids (e.submitIds w).2 := by
    intro h
    have hw' : w.After (genId w e.ids "run").2 := hw
    exact genId_fresh hw' (h.mono hle)
  have hissued : Issued (e.submitRun w task).2.ids (e.submitIds w).2 := issued_genId
  refine ⟨?_, ?_, ?_, ?_, ?_, ?_, ?_, ?_, ?_, ?_, ?_, ?_, ?_⟩
  · exact List.nodup_singleton _
  · simpa [plannerJob] using hfresh
  · simpa [plannerJob] using hissued
  · exact hle.trans (IdSupply.le_genId w _ "job")
  · simp [plannerJob]
  · simp [plannerJob]
  · simp [plannerJob]
  · intro job hjob
    rw [List.mem_singleton] at hjob
    subst hjob
    exact (RunStore.getJob_createJob ..).trans (if_pos rfl)
  · intro k hk
    have hne : k ≠ (plannerJob w (e.submitIds w).1 (e.submitIds w).2 task).jobId := by
      simpa using hk
    exact (RunStore.getJob_createJob ..).trans (if_neg hne)
  · rfl
  · rfl
  · rfl
  · rfl

theorem getRun_submitRun (task : String) (k : RunId) : (e.submitRun w task).2.store.getRun k =
    if k = (e.submitIds w).1 then
      some (submittedRun w (e.submitIds w).1 (e.submitIds w).2 task)
    else e.store.getRun k := RunStore.getRun_createRun ..

@[simp] theorem getChannel_submitRun (task : String) (k : ChannelId) :
    (e.submitRun w task).2.store.getChannel k = e.store.getChannel k := rfl

theorem submitIds_fresh {w : World} {e : OrchestratorEngine} (hw : w.After e.ids) :
    ¬ Issued e.ids (e.submitIds w).1 := genId_fresh hw

theorem submitIds_issued (task : String) :
    Issued (e.submitRun w task).2.ids (e.submitIds w).1 :=
  issued_genId.mono (IdSupply.le_genId w _ "job")

theorem submitRun_le (task : String) : e.ids.Le (e.submitRun w task).2.ids :=
  (IdSupply.le_genId w e.ids "run").trans (IdSupply.le_genId w _ "job")

/-! ## Taking and starting a job -/

/-- Either nothing is handed out, and at most an id without a job leaves the
queue, or the job at the head of the queue takes a slot. -/
theorem nextJob_cases :
    (∃ q, e.nextJob = (none, { e with readyQueue := q }) ∧
      (q = e.readyQueue ∨ ∃ j, e.readyQueue = j :: q ∧ e.store.getJob j = none)) ∨
    (∃ job q, e.activeJobs.len < e.maxConcurrency ∧ e.readyQueue = job.jobId :: q ∧
      e.store.getJob job.jobId = some job ∧
      e.nextJob = (some job, { e with
        readyQueue := q
        activeJobs := e.activeJobs.insert job.jobId job.runId })) := by
  unfold nextJob
  split
  · exact Or.inl ⟨e.readyQueue, rfl, Or.inl rfl⟩
  · rename_i hlen
    split
    · exact Or.inl ⟨e.readyQueue, rfl, Or.inl rfl⟩
    · rename_i j q hq
      split
      · rename_i hnone
        exact Or.inl ⟨q, rfl, Or.inr ⟨j, hq, hnone⟩⟩
      · rename_i job hjob
        have hid := RunStore.jobId_of_getJob hjob
        subst hid
        exact Or.inr ⟨job, q, Nat.lt_of_not_le hlen, hq, hjob, rfl⟩

/-- The engine after the head of the queue has been started. -/
def started (job : Job) (q : List JobId) : OrchestratorEngine :=
  { e with
    readyQueue := q
    activeJobs := e.activeJobs.insert job.jobId job.runId
    store := (e.store.alterJob job.jobId (Job.start w) (Job.start_jobId w)).alterRun job.runId
      (Run.start w) (Run.start_runId w)
    lastHeartbeat := e.lastHeartbeat.insert job.jobId w.instant }

/-- With a free slot, the job at the head of the queue is started. -/
theorem startNext_head {job : Job} {q : List JobId} (hlen : e.activeJobs.len < e.maxConcurrency)
    (hq : e.readyQueue = job.jobId :: q) (hjob : e.store.getJob job.jobId = some job) :
    e.startNext w = (some job, e.started w job q) := by
  have hnext : e.nextJob = (some job, { e with
      readyQueue := q
      activeJobs := e.activeJobs.insert job.jobId job.runId }) := by
    simp only [nextJob, if_neg (Nat.not_le.mpr hlen), hq, hjob]
  have hget : (e.activeJobs.insert job.jobId job.runId).get job.jobId = some job.runId := by
    rw [HashMap.get_insert, if_pos rfl]
  rw [startNext, hnext]
  simp only [markRunning, hget, started]

theorem startNext_cases :
    (∃ q, e.startNext w = (none, { e with readyQueue := q }) ∧
      (q = e.readyQueue ∨ ∃ j, e.readyQueue = j :: q ∧ e.store.getJob j = none)) ∨
    (∃ job q, e.activeJobs.len < e.maxConcurrency ∧ e.readyQueue = job.jobId :: q ∧
      e.store.getJob job.jobId = some job ∧
      e.startNext w = (some job, e.started w job q)) := by
  rcases nextJob_cases e with ⟨q, hnext, hq⟩ | ⟨job, q, hlen, hq, hjob, hnext⟩
  · left
    refine ⟨q, ?_, hq⟩
    rw [startNext, hnext]
  · right
    exact ⟨job, q, hlen, hq, hjob, startNext_head w e hlen hq hjob⟩

/-- Jobs are started only while there is a free slot. -/
theorem startNext_job {job : Job} (h : (e.startNext w).1 = some job) :
    ∃ q, e.activeJobs.len < e.maxConcurrency ∧ e.readyQueue = job.jobId :: q ∧
      e.store.getJob job.jobId = some job ∧ (e.startNext w).2 = e.started w job q := by
  rcases startNext_cases w e with ⟨q, heq, _⟩ | ⟨job', q, hlen, hq, hjob, heq⟩
  · rw [heq] at h
    cases h
  · rw [heq] at h ⊢
    cases h
    exact ⟨q, hlen, hq, hjob, rfl⟩

variable (job : Job) (q : List JobId)

theorem getJob_started (k : JobId) : (e.started w job q).store.getJob k =
    if k = job.jobId then (e.store.getJob job.jobId).map (Job.start w) else e.store.getJob k :=
  RunStore.getJob_alterJob _ _ _ _ (Job.start_jobId w)

theorem getRun_started (k : RunId) : (e.started w job q).store.getRun k =
    if k = job.runId then (e.store.getRun job.runId).map (Run.start w) else e.store.getRun k :=
  RunStore.getRun_alterRun _ _ _ _ (Run.start_runId w)

@[simp] theorem getChannel_started (k : ChannelId) :
    (e.started w job q).store.getChannel k = e.store.getChannel k := rfl

@[simp] theorem readyQueue_started : (e.started w job q).readyQueue = q := rfl

theorem getActive_started (k : JobId) : (e.started w job q).activeJobs.get k =
    if k = job.jobId then some job.runId else e.activeJobs.get k := HashMap.get_insert ..

@[simp] theorem ids_started : (e.started w job q).ids = e.ids := rfl

@[simp] theorem maxConcurrency_started :
    (e.started w job q).maxConcurrency = e.maxConcurrency := rfl

end

/-! ## The outcome of the completion check -/

/-- Between the two stores a run has been checked for completion: nothing has
been written because it has an unfinished job, or it has none and its record now
says whether one of its jobs failed. -/
inductive Checked (w : World) (s s' : RunStore) (r : RunId) : Prop where
  | unchanged (getRun : ∀ k, s'.getRun k = s.getRun k) (open_ : HasJob s' r → Unfinished s' r)
  | finished (done : ¬ Unfinished s' r) (hasJob : HasJob s' r) (st : RunStatus)
      (final : List ArtifactId)
      (failed : HasFailed s' r → st = .failed) (completed : ¬ HasFailed s' r → st = .completed)
      (getRun : ∀ k, s'.getRun k = if k = r then (s.getRun r).map (fun run =>
          { run with status := st, updatedAt := w.now, finalArtifactIds := final })
        else s.getRun k)

theorem unfinished_congr {s s' : RunStore} (h : ∀ k, s'.getJob k = s.getJob k) {r : RunId} :
    Unfinished s' r ↔ Unfinished s r := by
  simp only [Unfinished, h]

theorem hasFailed_congr {s s' : RunStore} (h : ∀ k, s'.getJob k = s.getJob k) {r : RunId} :
    HasFailed s' r ↔ HasFailed s r := by
  simp only [HasFailed, h]

theorem hasJob_congr {s s' : RunStore} (h : ∀ k, s'.getJob k = s.getJob k) {r : RunId} :
    HasJob s' r ↔ HasJob s r := by
  simp only [HasJob, h]

theorem checked_checkRunCompletion (w : World) (s : RunStore) (r : RunId) :
    Checked w s (checkRunCompletion w s r).2 r := by
  have hget := getJob_checkRunCompletion w s r
  rcases checkRunCompletion_cases (w := w) (s := s) (r := r) with
    ⟨heq, hopen⟩ | ⟨hjob, hdone, st, final, hf, hc, hrun⟩
  · refine .unchanged (fun k => by rw [heq]) ?_
    rw [hasJob_congr hget, unfinished_congr hget]
    exact hopen
  · refine .finished ?_ ?_ st final ?_ ?_ hrun
    · rwa [unfinished_congr hget]
    · rwa [hasJob_congr hget]
    · rwa [hasFailed_congr hget]
    · rwa [hasFailed_congr hget]

theorem Checked.getRun_ne {w : World} {s s' : RunStore} {r k : RunId} (h : Checked w s s' r)
    (hk : k ≠ r) : s'.getRun k = s.getRun k := by
  cases h with
  | unchanged hget => exact hget k
  | finished _ _ _ _ _ _ hget => rw [hget, if_neg hk]

/-- The check writes runs only, and those only where they exist. -/
theorem Checked.isSome {w : World} {s s' : RunStore} {r : RunId} (h : Checked w s s' r)
    (k : RunId) : (s'.getRun k).isSome = (s.getRun k).isSome := by
  cases h with
  | unchanged hget => rw [hget]
  | finished _ _ _ _ _ _ hget =>
    rw [hget]
    split
    · rename_i hk
      rw [hk, Option.isSome_map]
    · rfl

/-- A run's record after a check is the one before, or the check has found all
its jobs done. -/
theorem Checked.before {w : World} {s s' : RunStore} {r k : RunId} (h : Checked w s s' r)
    {run' : Run} (hk : s'.getRun k = some run') :
    (s.getRun k = some run' ∧ (k = r → HasJob s' r → Unfinished s' r)) ∨
      (k = r ∧ ¬ Unfinished s' r ∧ run'.status.finished = true ∧
        (run'.status = .completed → ¬ HasFailed s' r)) := by
  cases h with
  | unchanged hget hopen => exact Or.inl ⟨(hget k).symm.trans hk, fun _ => hopen⟩
  | finished hdone _ st final hfailed hcompleted hget =>
    rw [hget] at hk
    split at hk
    · rename_i hkr
      obtain ⟨run, _, rfl⟩ := Option.map_eq_some_iff.mp hk
      refine Or.inr ⟨hkr, hdone, ?_⟩
      show st.finished = true ∧ (st = .completed → _)
      by_cases hfail : HasFailed s' r
      · rw [hfailed hfail]
        exact ⟨rfl, fun h => by cases h⟩
      · rw [hcompleted hfail]
        exact ⟨rfl, fun _ => hfail⟩
    · rename_i hkr
      exact Or.inl ⟨hk, fun h => absurd h hkr⟩

/-! ## Completion -/

section
variable (w : World) (e : OrchestratorEngine) (j : JobId) (o : List ArtifactId)

/-- The store once the job has been written, before anything is promoted. -/
def completedStore : RunStore :=
  e.store.alterJob j (Job.complete w o) (Job.complete_jobId w o)

/-- The ids `mark_completed` promotes. -/
def promotedIds : List JobId :=
  match e.activeJobs.get j with
  | none => []
  | some r => (promoteUnblockedJobs w (e.completedStore w j o) r).1

theorem getJob_completedStore (k : JobId) : (e.completedStore w j o).getJob k =
    if k = j then (e.store.getJob j).map (Job.complete w o) else e.store.getJob k :=
  RunStore.getJob_alterJob ..

/-- What `mark_completed j` makes of the job `k`. -/
def afterCompletion (k : JobId) (job : Job) : Job :=
  if k = j then job.complete w o
  else match e.activeJobs.get j with
    | none => job
    | some r => promoted (e.completedStore w j o) r job

theorem getJob_markCompleted (k : JobId) : (e.markCompleted w j o).store.getJob k =
    (e.store.getJob k).map (e.afterCompletion w j o k) := by
  unfold markCompleted afterCompletion
  cases hact : e.activeJobs.get j with
  | none =>
    show (e.completedStore w j o).getJob k = _
    rw [getJob_completedStore]
    by_cases hk : k = j
    · subst hk
      simp
    · simp [hk]
  | some r =>
    show (checkRunCompletion w (promoteUnblockedJobs w (e.completedStore w j o) r).2 r).2.getJob k
      = _
    rw [getJob_checkRunCompletion, getJob_promote, getJob_completedStore]
    by_cases hk : k = j
    · subst hk
      cases e.store.getJob k with
      | none => simp
      | some job =>
        have hnot : ¬ Promotable (e.completedStore w k o) r (job.complete w o) := by
          intro h
          obtain ⟨_, hst, _⟩ := h
          cases hst
        simp [promoted, hnot]
    · simp [hk]

/-- A completion moves no job to another run. -/
theorem afterCompletion_runId (k : JobId) (job : Job) :
    (e.afterCompletion w j o k job).runId = job.runId := by
  unfold afterCompletion promoted
  split
  · rfl
  · cases e.activeJobs.get j with
    | none => rfl
    | some r =>
      dsimp only
      split <;> rfl

/-- It leaves the jobs of a run alone that neither the job nor its slot belongs to. -/
theorem getJob_markCompleted_other {r : RunId}
    (hslot : ∀ r', e.activeJobs.get j = some r' → r' ≠ r)
    (hjob : ∀ job, e.store.getJob j = some job → job.runId ≠ r) {k : JobId} {job : Job}
    (hr : job.runId = r) :
    (e.markCompleted w j o).store.getJob k = some job ↔ e.store.getJob k = some job := by
  rw [getJob_markCompleted]
  -- a job of `r` is neither completed nor promoted
  have hsame : ∀ job, e.store.getJob k = some job → job.runId = r →
      e.afterCompletion w j o k job = job := by
    intro job hk hrun
    have hne : k ≠ j := fun hkj => hjob job (hkj ▸ hk) hrun
    rw [afterCompletion, if_neg hne]
    cases hact : e.activeJobs.get j with
    | none => rfl
    | some r' => exact if_neg (fun hprom => hslot r' hact (hprom.1.symm.trans hrun))
  refine ⟨fun hk => ?_, fun hk => ?_⟩
  · obtain ⟨job₀, hold, rfl⟩ := Option.map_eq_some_iff.mp hk
    rw [afterCompletion_runId] at hr
    rw [hsame job₀ hold hr, hold]
  · rw [hk, Option.map_some, hsame job hk hr]

@[simp] theorem readyQueue_markCompleted :
    (e.markCompleted w j o).readyQueue = e.readyQueue ++ e.promotedIds w j o := by
  unfold markCompleted promotedIds
  cases e.activeJobs.get j with
  | none => simp
  | some r => rfl

theorem promotedIds_nodup : (e.promotedIds w j o).Nodup := by
  unfold promotedIds
  cases e.activeJobs.get j with
  | none => exact List.nodup_nil
  | some r => exact promote_nodup w _ r

theorem mem_promotedIds {k : JobId} : k ∈ e.promotedIds w j o ↔
    ∃ r job, e.activeJobs.get j = some r ∧ k ≠ j ∧ e.store.getJob k = some job ∧
      Promotable (e.completedStore w j o) r job := by
  unfold promotedIds
  cases e.activeJobs.get j with
  | none => simp
  | some r =>
    rw [mem_promote]
    refine ⟨?_, ?_⟩
    · intro h
      obtain ⟨job, hget, hp⟩ := h
      rw [getJob_completedStore] at hget
      split at hget
      · obtain ⟨job', _, rfl⟩ := Option.map_eq_some_iff.mp hget
        cases hp.2.1
      · rename_i hk
        exact ⟨r, job, rfl, hk, hget, hp⟩
    · intro h
      obtain ⟨r', job, hr, hk, hget, hp⟩ := h
      cases hr
      exact ⟨job, by rw [getJob_completedStore, if_neg hk]; exact hget, hp⟩

/-- The jobs after a completion: the completed one, the promoted ones, the others. -/
theorem markCompleted_job {k : JobId} {job' : Job}
    (h : (e.markCompleted w j o).store.getJob k = some job') :
    ∃ job, e.store.getJob k = some job ∧
      ((k = j ∧ job' = job.complete w o) ∨
        (k ≠ j ∧ k ∈ e.promotedIds w j o ∧ job.status = .pending ∧ job' = job.setReady) ∨
        (k ≠ j ∧ k ∉ e.promotedIds w j o ∧ job' = job)) := by
  rw [getJob_markCompleted] at h
  obtain ⟨job, hjob, rfl⟩ := Option.map_eq_some_iff.mp h
  refine ⟨job, hjob, ?_⟩
  unfold afterCompletion
  by_cases hk : k = j
  · left
    simp [hk]
  · right
    rw [if_neg hk]
    cases hact : e.activeJobs.get j with
    | none =>
      right
      refine ⟨hk, ?_, rfl⟩
      rw [mem_promotedIds]
      intro h
      obtain ⟨r, _, hr, _⟩ := h
      rw [hact] at hr
      cases hr
    | some r =>
      by_cases hp : Promotable (e.completedStore w j o) r job
      · left
        refine ⟨hk, (mem_promotedIds w e j o).mpr ⟨r, job, hact, hk, hjob, hp⟩, hp.2.1, ?_⟩
        simp [promoted, hp]
      · right
        refine ⟨hk, ?_, ?_⟩
        · rw [mem_promotedIds]
          intro h
          obtain ⟨r', job', hr, _, hget, hp'⟩ := h
          rw [hact] at hr
          cases hr
          rw [hjob] at hget
          cases hget
          exact hp hp'
        · simp [promoted, hp]

/-- The other jobs are as finished as they were. -/
theorem markCompleted_unfinished {k : JobId} {job : Job} (h : e.store.getJob k = some job)
    (hk : k ≠ j) : ∃ job', (e.markCompleted w j o).store.getJob k = some job' ∧
      job'.runId = job.runId ∧ job'.status.unfinished = job.status.unfinished := by
  have hafter : (e.markCompleted w j o).store.getJob k = some (e.afterCompletion w j o k job) := by
    rw [getJob_markCompleted, h]
    rfl
  obtain ⟨job₀, hjob₀, hcases⟩ := markCompleted_job w e j o hafter
  rw [h] at hjob₀
  cases hjob₀
  refine ⟨_, hafter, ?_⟩
  rcases hcases with ⟨hkj, _⟩ | ⟨_, _, hst, heq⟩ | ⟨_, _, heq⟩
  · exact absurd hkj hk
  · rw [heq, hst]
    exact ⟨rfl, rfl⟩
  · rw [heq]
    exact ⟨rfl, rfl⟩

theorem getJob_markCompleted_self {job : Job} (h : e.store.getJob j = some job) :
    (e.markCompleted w j o).store.getJob j = some (job.complete w o) := by
  rw [getJob_markCompleted, h]
  simp [afterCompletion]

/-- The run a completed job's slot belonged to is checked. -/
theorem checked_markCompleted {r : RunId} (h : e.activeJobs.get j = some r) :
    Checked w e.store (e.markCompleted w j o).store r := by
  have hcheck := checked_checkRunCompletion w
    (promoteUnblockedJobs w (e.completedStore w j o) r).2 r
  have hstore : (e.markCompleted w j o).store =
      (checkRunCompletion w (promoteUnblockedJobs w (e.completedStore w j o) r).2 r).2 := by
    unfold markCompleted
    rw [h]
    rfl
  rw [hstore]
  have hrun : ∀ k, (promoteUnblockedJobs w (e.completedStore w j o) r).2.getRun k =
      e.store.getRun k := fun k => getRun_promote w _ r k
  cases hcheck with
  | unchanged hget hopen => exact .unchanged (fun k => (hget k).trans (hrun k)) hopen
  | finished hdone hjob st final hf hc hget =>
    refine .finished hdone hjob st final hf hc (fun k => ?_)
    rw [hget, hrun, hrun]

theorem getRun_markCompleted_of_notActive (h : e.activeJobs.get j = none) (k : RunId) :
    (e.markCompleted w j o).store.getRun k = e.store.getRun k := by
  unfold markCompleted
  rw [h]
  rfl

/-- The records of runs after a completion, against the jobs there are then. -/
theorem runs_markCompleted {k : RunId} {run' : Run}
    (hk : (e.markCompleted w j o).store.getRun k = some run') :
    (e.store.getRun k = some run' ∧ (e.activeJobs.get j = some k →
        HasJob (e.markCompleted w j o).store k → Unfinished (e.markCompleted w j o).store k)) ∨
      (e.activeJobs.get j = some k ∧ ¬ Unfinished (e.markCompleted w j o).store k ∧
        run'.status.finished = true ∧
        (run'.status = .completed → ¬ HasFailed (e.markCompleted w j o).store k)) := by
  cases hact : e.activeJobs.get j with
  | none =>
    rw [getRun_markCompleted_of_notActive w e j o hact] at hk
    exact Or.inl ⟨hk, fun h => by cases h⟩
  | some r =>
    rcases (checked_markCompleted w e j o hact).before hk with ⟨hold, hopen⟩ | ⟨rfl, hdone⟩
    · refine Or.inl ⟨hold, fun h => ?_⟩
      cases h
      exact hopen rfl
    · exact Or.inr ⟨rfl, hdone⟩

theorem getRun_markCompleted_ne {k : RunId} (h : e.activeJobs.get j ≠ some k) :
    (e.markCompleted w j o).store.getRun k = e.store.getRun k := by
  cases hact : e.activeJobs.get j with
  | none => exact getRun_markCompleted_of_notActive w e j o hact k
  | some r =>
    rw [hact] at h
    exact (checked_markCompleted w e j o hact).getRun_ne (fun hk => h (hk ▸ rfl))

@[simp] theorem getChannel_markCompleted (k : ChannelId) :
    (e.markCompleted w j o).store.getChannel k = e.store.getChannel k := by
  unfold markCompleted
  cases e.activeJobs.get j with
  | none => rfl
  | some r =>
    exact (getChannel_checkRunCompletion ..).trans (getChannel_promote ..)

@[simp] theorem activeJobs_markCompleted :
    (e.markCompleted w j o).activeJobs = e.activeJobs.remove j := by
  unfold markCompleted
  cases e.activeJobs.get j <;> rfl

@[simp] theorem lastHeartbeat_markCompleted :
    (e.markCompleted w j o).lastHeartbeat = e.lastHeartbeat.remove j := by
  unfold markCompleted
  cases e.activeJobs.get j <;> rfl

@[simp] theorem ids_markCompleted : (e.markCompleted w j o).ids = e.ids := by
  unfold markCompleted
  cases e.activeJobs.get j <;> rfl

@[simp] theorem maxConcurrency_markCompleted :
    (e.markCompleted w j o).maxConcurrency = e.maxConcurrency := by
  unfold markCompleted
  cases e.activeJobs.get j <;> rfl

end

/-! ## Failure -/

section
variable (w : World) (e : OrchestratorEngine) (j : JobId) (err : String)

theorem getJob_markFailed (k : JobId) : (e.markFailed w j err).store.getJob k =
    if k = j then (e.store.getJob j).map (Job.fail w err) else e.store.getJob k := by
  unfold markFailed
  cases e.activeJobs.get j with
  | none => exact RunStore.getJob_alterJob ..
  | some r =>
    exact (getJob_checkRunCompletion ..).trans (RunStore.getJob_alterJob ..)

/-- Where a job is after a failure: the failed job itself, or a job left alone. -/
theorem markFailed_job {k : JobId} {job' : Job}
    (h : (e.markFailed w j err).store.getJob k = some job') :
    ∃ job, e.store.getJob k = some job ∧
      ((k = j ∧ job' = job.fail w err) ∨ (k ≠ j ∧ job' = job)) := by
  rw [getJob_markFailed] at h
  split at h
  · rename_i hk
    obtain ⟨job, hjob, rfl⟩ := Option.map_eq_some_iff.mp h
    exact ⟨job, hk ▸ hjob, Or.inl ⟨hk, rfl⟩⟩
  · rename_i hk
    exact ⟨job', h, Or.inr ⟨hk, rfl⟩⟩

/-- Whether failing the job puts it back in the queue. -/
def requeues : Bool := (e.store.getJob j).any Job.retries

@[simp] theorem readyQueue_markFailed : (e.markFailed w j err).readyQueue =
    if e.requeues j then e.readyQueue ++ [j] else e.readyQueue := by
  unfold markFailed requeues
  cases e.activeJobs.get j <;> cases e.store.getJob j <;> simp

theorem requeues_iff : e.requeues j = true ↔ ∃ job, e.store.getJob j = some job ∧ job.retries := by
  unfold requeues
  cases e.store.getJob j <;> simp

theorem checked_markFailed {r : RunId} (h : e.activeJobs.get j = some r) :
    Checked w e.store (e.markFailed w j err).store r := by
  have hcheck := checked_checkRunCompletion w
    (e.store.alterJob j (Job.fail w err) (Job.fail_jobId w err)) r
  have hstore : (e.markFailed w j err).store =
      (checkRunCompletion w (e.store.alterJob j (Job.fail w err) (Job.fail_jobId w err)) r).2 := by
    unfold markFailed
    rw [h]
  rw [hstore]
  cases hcheck with
  | unchanged hget hopen => exact .unchanged hget hopen
  | finished hdone hjob st final hf hc hget => exact .finished hdone hjob st final hf hc hget

theorem getRun_markFailed_of_notActive (h : e.activeJobs.get j = none) (k : RunId) :
    (e.markFailed w j err).store.getRun k = e.store.getRun k := by
  unfold markFailed
  rw [h]
  rfl

/-- The records of runs after a failure, against the jobs there are then. -/
theorem runs_markFailed {k : RunId} {run' : Run}
    (hk : (e.markFailed w j err).store.getRun k = some run') :
    (e.store.getRun k = some run' ∧ (e.activeJobs.get j = some k →
        HasJob (e.markFailed w j err).store k → Unfinished (e.markFailed w j err).store k)) ∨
      (e.activeJobs.get j = some k ∧ ¬ Unfinished (e.markFailed w j err).store k ∧
        run'.status.finished = true ∧
        (run'.status = .completed → ¬ HasFailed (e.markFailed w j err).store k)) := by
  cases hact : e.activeJobs.get j with
  | none =>
    rw [getRun_markFailed_of_notActive w e j err hact] at hk
    exact Or.inl ⟨hk, fun h => by cases h⟩
  | some r =>
    rcases (checked_markFailed w e j err hact).before hk with ⟨hold, hopen⟩ | ⟨rfl, hdone⟩
    · refine Or.inl ⟨hold, fun h => ?_⟩
      cases h
      exact hopen rfl
    · exact Or.inr ⟨rfl, hdone⟩

theorem getRun_markFailed_ne {k : RunId} (h : e.activeJobs.get j ≠ some k) :
    (e.markFailed w j err).store.getRun k = e.store.getRun k := by
  cases hact : e.activeJobs.get j with
  | none => exact getRun_markFailed_of_notActive w e j err hact k
  | some r =>
    rw [hact] at h
    exact (checked_markFailed w e j err hact).getRun_ne (fun hk => h (hk ▸ rfl))

@[simp] theorem getChannel_markFailed (k : ChannelId) :
    (e.markFailed w j err).store.getChannel k = e.store.getChannel k := by
  unfold markFailed
  cases e.activeJobs.get j with
  | none => rfl
  | some r => exact getChannel_checkRunCompletion ..

@[simp] theorem activeJobs_markFailed :
    (e.markFailed w j err).activeJobs = e.activeJobs.remove j := by
  unfold markFailed
  cases e.activeJobs.get j <;> rfl

@[simp] theorem lastHeartbeat_markFailed :
    (e.markFailed w j err).lastHeartbeat = e.lastHeartbeat.remove j := by
  unfold markFailed
  cases e.activeJobs.get j <;> rfl

@[simp] theorem ids_markFailed : (e.markFailed w j err).ids = e.ids := by
  unfold markFailed
  cases e.activeJobs.get j <;> rfl

@[simp] theorem maxConcurrency_markFailed :
    (e.markFailed w j err).maxConcurrency = e.maxConcurrency := by
  unfold markFailed
  cases e.activeJobs.get j <;> rfl

end

/-! ## Plans and revisions -/

section
variable {w : World} {e : OrchestratorEngine} {r : RunId} {p : JobId} {plan : ExecutionPlan}

theorem readyAmong_new {s : RunStore} {new : List Job}
    (h : ∀ job ∈ new, s.getJob job.jobId = some job) :
    readyAmong s (new.map (·.jobId)) =
      (new.filter (fun j => j.status == .ready)).map (·.jobId) := by
  induction new with
  | nil => rfl
  | cons job new ih =>
    have hjob := h job List.mem_cons_self
    have ih := ih (fun j hj => h j (List.mem_cons_of_mem _ hj))
    unfold readyAmong at ih ⊢
    rw [List.map_cons, List.filter_cons, List.filter_cons, hjob, ih]
    simp only [Option.map_some, Option.getD_some]
    split <;> rfl

theorem materializeJob_shape : ∀ job ∈ planJobs w e.ids r p plan,
    (job.status = .ready ∧ job.dependsOn = []) ∨ (job.status = .pending ∧ job.dependsOn ≠ [] ∧
      ∀ d ∈ job.dependsOn, ∃ dj ∈ planJobs w e.ids r p plan, dj.jobId = d) := by
  intro job hjob
  obtain ⟨spec, hspec, id, hid, rfl, _⟩ := mem_planJobs.mp hjob
  by_cases hdeps : spec.dependsOn.filterMap (planIds w e.ids plan).get = []
  · left
    simp [materializeJob, hdeps]
  · right
    refine ⟨by simp [materializeJob, hdeps], hdeps, ?_⟩
    intro d hd
    obtain ⟨l, _, hl⟩ := List.mem_filterMap.mp hd
    obtain ⟨dspec, hdspec, rfl⟩ := List.mem_map.mp (planIds_get_iff.mp ⟨d, hl⟩)
    exact ⟨materializeJob w r p (planIds w e.ids plan) dspec, List.mem_map_of_mem hdspec,
      by simp [materializeJob, hl]⟩

theorem created_acceptPlan (hw : w.After e.ids) (hok : plan.Ok) :
    Created e (e.acceptPlan w r p plan) r (planJobs w e.ids r p plan) := by
  have hfresh := fun k (h : k ∈ (planJobs w e.ids r p plan).map (·.jobId)) =>
    materializePlan_fresh (s := e.store) (r := r) (p := p) hw h
  have hnew : ∀ job ∈ planJobs w e.ids r p plan,
      (e.acceptPlan w r p plan).store.getJob job.jobId = some job :=
    fun job hjob => getJob_materializePlan_of_mem hw hok hjob
  refine ⟨?_, ?_, ?_, ?_, ?_, ?_, ?_, ?_, ?_, ?_, ?_, ?_, ?_⟩
  · exact materializePlan_nodup (s := e.store) hw hok
  · exact fun job hjob => (hfresh _ (List.mem_map_of_mem hjob)).1
  · exact fun job hjob => (hfresh _ (List.mem_map_of_mem hjob)).2
  · exact (materializePlan_le (s := e.store) (r := r) (p := p)).1
  · intro job hjob
    obtain ⟨spec, _, _, _, rfl, _⟩ := mem_planJobs.mp hjob
    rfl
  · exact materializeJob_shape
  · intro job hjob
    obtain ⟨spec, _, _, _, rfl, _⟩ := mem_planJobs.mp hjob
    exact ⟨rfl, rfl⟩
  · exact hnew
  · exact fun k hk => getJob_materializePlan_of_notMem hk
  · show e.readyQueue ++ readyAmong (e.acceptPlan w r p plan).store
      ((planJobs w e.ids r p plan).map (·.jobId)) = _
    rw [readyAmong_new hnew]
  · rfl
  · rfl
  · rfl

@[simp] theorem getRun_acceptPlan (k : RunId) :
    (e.acceptPlan w r p plan).store.getRun k = e.store.getRun k := rfl

theorem getChannel_acceptPlan_cases {k : ChannelId} {c : Channel}
    (h : (e.acceptPlan w r p plan).store.getChannel k = some c) :
    c ∈ planChannels w e.ids r plan ∨
      (k ∉ (planChannels w e.ids r plan).map (·.channelId) ∧ e.store.getChannel k = some c) :=
  getChannel_materializePlan_cases h

/-- The participants of a plan's channel are jobs of the plan. -/
theorem participants_planChannels {c : Channel} (h : c ∈ planChannels w e.ids r plan) :
    c.runId = r ∧ c.active = false ∧ c.closed = false ∧
      ∀ q ∈ c.participants, ∃ job ∈ planJobs w e.ids r p plan, job.jobId = q := by
  obtain ⟨planned, _, rfl⟩ := List.mem_map.mp h
  refine ⟨rfl, rfl, rfl, ?_⟩
  intro q hq
  obtain ⟨l, _, hl⟩ := List.mem_filterMap.mp hq
  obtain ⟨spec, hspec, rfl⟩ := List.mem_map.mp (planIds_get_iff.mp ⟨q, hl⟩)
  exact ⟨materializeJob w r p (planIds w e.ids plan) spec, List.mem_map_of_mem hspec,
    by simp [materializeJob, hl]⟩

variable {reviewer : JobId} {decision : ReviewDecision} {maxRevisions : Nat}

/-- The ids a revision draws: the new coder's and the new reviewer's. -/
def reviseIds (w : World) (e : OrchestratorEngine) : JobId × JobId :=
  ((genId w e.ids "job").1, (genId w (genId w e.ids "job").2 "job").1)

/-- The two jobs of a revision. -/
def reviseJobs (w : World) (e : OrchestratorEngine) (reviewer coder : Job) (maxRevisions : Nat)
    (feedback : String) : List Job :=
  [revisedCoder w reviewer coder (e.reviseIds w).1 (u32Succ reviewer.revisionRound) maxRevisions
      feedback,
    revisedReviewer w reviewer (e.reviseIds w).1 (e.reviseIds w).2
      (u32Succ reviewer.revisionRound)]

/-- The engine after a revision has been created. -/
def revised (w : World) (e : OrchestratorEngine) (reviewer coder : Job) (maxRevisions : Nat)
    (feedback : String) : OrchestratorEngine :=
  { e with
    store := (e.store.createJob (revisedCoder w reviewer coder (e.reviseIds w).1
      (u32Succ reviewer.revisionRound) maxRevisions feedback)).createJob
      (revisedReviewer w reviewer (e.reviseIds w).1 (e.reviseIds w).2
        (u32Succ reviewer.revisionRound))
    readyQueue := e.readyQueue ++ [(e.reviseIds w).1]
    ids := (genId w (genId w e.ids "job").2 "job").2 }

/-- A review changes nothing, or it asks for a revision of the reviewer's first
dependency within the limit and creates its two jobs. -/
theorem review_cases (w : World) (e : OrchestratorEngine) (reviewer : JobId)
    (decision : ReviewDecision) (maxRevisions : Nat) :
    e.handleReviewCompletion w reviewer decision maxRevisions = (none, e) ∨
    ∃ rev coder feedback, e.store.getJob reviewer = some rev ∧ decision = .revise feedback ∧
      (∃ rest coderId, rev.dependsOn = coderId :: rest ∧ e.store.getJob coderId = some coder) ∧
      u32Succ rev.revisionRound ≤ maxRevisions ∧
      e.handleReviewCompletion w reviewer decision maxRevisions =
        (some (e.reviseIds w), e.revised w rev coder maxRevisions feedback) := by
  cases decision with
  | approved => exact Or.inl rfl
  | rejected reason => exact Or.inl rfl
  | revise feedback =>
    cases hrev : e.store.getJob reviewer with
    | none =>
      left
      simp [handleReviewCompletion, hrev]
    | some rev =>
      cases hdeps : rev.dependsOn with
      | nil =>
        left
        simp [handleReviewCompletion, hrev, hdeps]
      | cons coderId rest =>
        cases hcoder : e.store.getJob coderId with
        | none =>
          left
          simp [handleReviewCompletion, hrev, hdeps, hcoder]
        | some coder =>
          by_cases hround : u32Succ rev.revisionRound > maxRevisions
          · left
            simp [handleReviewCompletion, hrev, hdeps, hcoder, hround]
          · right
            refine ⟨rev, coder, feedback, rfl, rfl, ⟨rest, coderId, hdeps, hcoder⟩,
              Nat.le_of_not_lt hround, ?_⟩
            simp [handleReviewCompletion, hrev, hdeps, hcoder, hround, reviseIds, revised]

theorem created_revised (hw : w.After e.ids) (rev coder : Job) (maxRevisions : Nat)
    (feedback : String) :
    Created e (e.revised w rev coder maxRevisions feedback) rev.runId
      (e.reviseJobs w rev coder maxRevisions feedback) := by
  have hle₁ := IdSupply.le_genId w e.ids "job"
  have hle₂ := IdSupply.le_genId w (genId w e.ids "job").2 "job"
  have hw₂ : w.After (genId w e.ids "job").2 := hw
  have hi₁ : Issued (genId w e.ids "job").2 (e.reviseIds w).1 := issued_genId
  have hi₂ : Issued (genId w (genId w e.ids "job").2 "job").2 (e.reviseIds w).2 := issued_genId
  have hf₂ : ¬ Issued (genId w e.ids "job").2 (e.reviseIds w).2 := genId_fresh hw₂
  have hne : (e.reviseIds w).1 ≠ (e.reviseIds w).2 := fun h => hf₂ (h ▸ hi₁)
  refine ⟨?_, ?_, ?_, ?_, ?_, ?_, ?_, ?_, ?_, ?_, ?_, ?_, ?_⟩
  · simpa [reviseJobs, revisedCoder, revisedReviewer] using hne
  · intro job hjob
    rcases List.mem_cons.mp hjob with rfl | hjob
    · exact genId_fresh hw
    · rw [List.mem_singleton] at hjob
      subst hjob
      exact fun h => hf₂ (h.mono hle₁)
  · intro job hjob
    rcases List.mem_cons.mp hjob with rfl | hjob
    · exact hi₁.mono hle₂
    · rw [List.mem_singleton] at hjob
      subst hjob
      exact hi₂
  · exact hle₁.trans hle₂
  · simp [reviseJobs, revisedCoder, revisedReviewer]
  · simp [reviseJobs, revisedCoder, revisedReviewer]
  · simp [reviseJobs, revisedCoder, revisedReviewer]
  · intro job hjob
    rcases List.mem_cons.mp hjob with rfl | hjob
    · refine (RunStore.getJob_createJob ..).trans ((if_neg hne).trans ?_)
      exact (RunStore.getJob_createJob ..).trans (if_pos rfl)
    · rw [List.mem_singleton] at hjob
      subst hjob
      exact (RunStore.getJob_createJob ..).trans (if_pos rfl)
  · intro k hk
    simp only [reviseJobs, List.map_cons, List.map_nil, List.mem_cons, List.not_mem_nil,
      or_false, not_or] at hk
    refine (RunStore.getJob_createJob ..).trans ((if_neg hk.2).trans ?_)
    exact (RunStore.getJob_createJob ..).trans (if_neg hk.1)
  · rfl
  · rfl
  · rfl
  · rfl

theorem revised_le (rev coder : Job) (feedback : String) :
    e.ids.Le (e.revised w rev coder maxRevisions feedback).ids :=
  (IdSupply.le_genId w e.ids "job").trans (IdSupply.le_genId w _ "job")

@[simp] theorem getRun_review (k : RunId) :
    (e.handleReviewCompletion w reviewer decision maxRevisions).2.store.getRun k =
      e.store.getRun k := by
  rcases review_cases w e reviewer decision maxRevisions with heq | ⟨_, _, _, _, _, _, _, heq⟩
  · rw [heq]
  · rw [heq]
    rfl

@[simp] theorem getChannel_review (k : ChannelId) :
    (e.handleReviewCompletion w reviewer decision maxRevisions).2.store.getChannel k =
      e.store.getChannel k := by
  rcases review_cases w e reviewer decision maxRevisions with heq | ⟨_, _, _, _, _, _, _, heq⟩
  · rw [heq]
  · rw [heq]
    rfl

end

end OrchestratorEngine
end ZeptoPM
