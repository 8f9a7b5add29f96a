import ZeptoPM.Store

/- The scheduling scans over a run: promotion of the pending jobs whose
   dependencies are all completed, and the check that declares a run finished.
   The promotion scan collects the pending jobs first and then decides them one
   by one against the store it is changing. `getJob_promote` shows that the
   order does not matter: promoting a job turns no job into a completed one, so
   each is decided as if by the store the scan started from. -/
namespace ZeptoPM
open RunStore

/-- Whether the job exists and is completed. -/
def RunStore.isCompleted (s : RunStore) (jobId : JobId) : Bool :=
  ((s.getJob jobId).map (fun j => j.status == .completed)).getD false

def Job.setReady (j : Job) : Job := { j with status := .ready }

@[simp] theorem Job.setReady_jobId (j : Job) : j.setReady.jobId = j.jobId := rfl
@[simp] theorem Job.setReady_runId (j : Job) : j.setReady.runId = j.runId := rfl
@[simp] theorem Job.setReady_status (j : Job) : j.setReady.status = .ready := rfl

/-- The second half of `promote_unblocked_jobs`: decides the collected jobs. -/
def promoteScan : List (JobId × List JobId) → RunStore → List JobId × RunStore
  | [], s => ([], s)
  | (jobId, deps) :: rest, s =>
    if deps.all s.isCompleted && (s.getJob jobId).isSome then
      let (promoted, s') := promoteScan rest (s.alterJob jobId Job.setReady Job.setReady_jobId)
      (jobId :: promoted, s')
    else promoteScan rest s

/-- Scan pending jobs in a run and promote those whose dependencies are all
completed. Returns the ids promoted to ready. -/
def promoteUnblockedJobs (w : World) (s : RunStore) (runId : RunId) : List JobId × RunStore :=
  let pending := ((s.listRunJobs w runId).filter (fun j => j.status == .pending)).map
    (fun j => (j.jobId, j.dependsOn))
  promoteScan pending s

/-- Check if a run is finished and update its status if so. Returns whether the
run is done. -/
def checkRunCompletion (w : World) (s : RunStore) (runId : RunId) : Bool × RunStore :=
  let jobs := s.listRunJobs w runId
  if jobs.isEmpty then (false, s)
  else if jobs.any (fun j => j.status.unfinished) then (false, s)
  else
    let anyFailed := jobs.any (fun j => j.status == .failed)
    let newStatus := if anyFailed then RunStatus.failed else RunStatus.completed
    let depTargets := jobs.flatMap (fun j => j.dependsOn)
    let leafArtifacts := (jobs.filter (fun j => !depTargets.contains j.jobId)).flatMap
      (fun j => j.outputArtifactIds)
    match s.getRun runId with
    | some run =>
      (true, s.updateRun
        { run with status := newStatus, updatedAt := w.now, finalArtifactIds := leafArtifacts })
    | none => (true, s)

/-! ## Promotion decides every job by the store it starts from -/

/-- A pending job of the run with all its dependencies completed. -/
def Promotable (s : RunStore) (r : RunId) (job : Job) : Prop :=
  job.runId = r ∧ job.status = .pending ∧ ∀ d ∈ job.dependsOn, s.isCompleted d = true

instance (s : RunStore) (r : RunId) (job : Job) : Decidable (Promotable s r job) :=
  inferInstanceAs (Decidable (_ ∧ _ ∧ _))

theorem isCompleted_iff {s : RunStore} {k : JobId} :
    s.isCompleted k = true ↔ ∃ job, s.getJob k = some job ∧ job.status = .completed := by
  unfold isCompleted
  cases s.getJob k <;> simp

/-- Making a job that is not completed ready completes no job and undoes no
completion. -/
theorem isCompleted_setReady {s : RunStore} {j : JobId}
    (h : s.isCompleted j = false) (k : JobId) :
    (s.alterJob j Job.setReady Job.setReady_jobId).isCompleted k = s.isCompleted k := by
  unfold isCompleted at h ⊢
  rw [getJob_alterJob]
  split
  · rename_i hk
    subst hk
    rw [h]
    cases s.getJob k <;> rfl
  · rfl

/-- The entries a scan promotes from the store `s`. -/
def scanned (s : RunStore) (l : List (JobId × List JobId)) (k : JobId) : Bool :=
  l.any (fun e => e.1 == k && e.2.all s.isCompleted && (s.getJob k).isSome)

theorem scanned_congr {s s' : RunStore} (hc : ∀ k, s'.isCompleted k = s.isCompleted k)
    (hs : ∀ k, (s'.getJob k).isSome = (s.getJob k).isSome) (l : List (JobId × List JobId))
    (k : JobId) : scanned s' l k = scanned s l k := by
  unfold scanned
  have hf : s'.isCompleted = s.isCompleted := funext hc
  rw [hf, hs]

theorem promoteScan_spec (l : List (JobId × List JobId)) : ∀ (s : RunStore),
    (∀ e ∈ l, s.isCompleted e.1 = false) → (l.map Prod.fst).Nodup →
    (∀ k, (promoteScan l s).2.getJob k =
      if scanned s l k then (s.getJob k).map Job.setReady else s.getJob k) ∧
    (∀ k, k ∈ (promoteScan l s).1 ↔ scanned s l k = true) ∧
    (promoteScan l s).1.Nodup := by
  induction l with
  | nil => intro s _ _; simp [promoteScan, scanned]
  | cons e l ih =>
    intro s hnc hnd
    obtain ⟨jobId, deps⟩ := e
    rw [List.map_cons, List.nodup_cons] at hnd
    have hnotIn : ∀ s' : RunStore, scanned s' l jobId = false := by
      intro s'
      unfold scanned
      rw [List.any_eq_false]
      intro e he heq
      simp only [Bool.and_eq_true, beq_iff_eq] at heq
      exact hnd.1 (List.mem_map.mpr ⟨e, he, heq.1.1⟩)
    simp only [promoteScan]
    split
    · rename_i hready
      rw [Bool.and_eq_true] at hready
      have hj := hnc (jobId, deps) List.mem_cons_self
      have hc := isCompleted_setReady hj
      -- a job made ready completes nothing, so the rest of the list is scanned as before
      have hsome : ∀ k, ((s.alterJob jobId Job.setReady Job.setReady_jobId).getJob k).isSome =
          (s.getJob k).isSome := by
        intro k
        rw [getJob_alterJob]
        split
        · rename_i hk
          subst hk
          cases s.getJob k <;> rfl
        · rfl
      obtain ⟨ihget, ihmem, ihnd⟩ := ih (s.alterJob jobId Job.setReady Job.setReady_jobId)
        (fun e he => (hc e.1).trans (hnc e (List.mem_cons_of_mem _ he))) hnd.2
      have hscan := scanned_congr hc hsome l
      have hcons : ∀ k, scanned s ((jobId, deps) :: l) k = (jobId == k || scanned s l k) := by
        intro k
        by_cases hk : jobId = k
        · subst hk
          simp [scanned, hready.1, hready.2]
        · simp [scanned, beq_eq_false_iff_ne.mpr hk]
      refine ⟨?_, ?_, ?_⟩
      · intro k
        rw [ihget k, hscan, hcons, getJob_alterJob]
        by_cases hk : k = jobId
        · subst hk
          simp [hnotIn s]
        · have hk' : ¬ jobId = k := fun h => hk h.symm
          simp [hk, hk']
      · intro k
        rw [List.mem_cons, ihmem k, hscan, hcons, Bool.or_eq_true, beq_iff_eq]
        exact or_congr_left eq_comm
      · rw [List.nodup_cons]
        refine ⟨?_, ihnd⟩
        rw [ihmem, hscan, hnotIn]
        simp
    · rename_i hready
      obtain ⟨ihget, ihmem, ihnd⟩ := ih s (fun e he => hnc e (List.mem_cons_of_mem _ he)) hnd.2
      have hcons : ∀ k, scanned s ((jobId, deps) :: l) k = scanned s l k := by
        intro k
        by_cases hk : jobId = k
        · subst hk
          rw [hnotIn s]
          unfold scanned
          rw [List.any_cons]
          simp only [beq_self_eq_true, Bool.true_and]
          rw [Bool.not_eq_true] at hready
          rw [hready, Bool.false_or]
          exact hnotIn s
        · simp [scanned, beq_eq_false_iff_ne.mpr hk]
      exact ⟨fun k => by rw [ihget k, hcons], fun k => by rw [ihmem k, hcons], ihnd⟩

section
variable (w : World) (s : RunStore) (r : RunId)

/-- What the promotion scan of run `r` makes of a job. -/
def promoted (job : Job) : Job := if Promotable s r job then job.setReady else job

theorem promote_pending_notCompleted : ∀ e ∈ ((s.listRunJobs w r).filter
    (fun j => j.status == .pending)).map (fun j => (j.jobId, j.dependsOn)),
    s.isCompleted e.1 = false := by
  intro e he
  obtain ⟨job, hjob, rfl⟩ := List.mem_map.mp he
  obtain ⟨hlist, hst⟩ := List.mem_filter.mp hjob
  rw [beq_iff_eq] at hst
  have hget := (mem_listRunJobs.mp hlist).1
  simp [isCompleted, hget, hst]

theorem promote_pending_nodup : ((((s.listRunJobs w r).filter
    (fun j => j.status == .pending)).map (fun j => (j.jobId, j.dependsOn))).map
    Prod.fst).Nodup := by
  rw [List.map_map]
  exact ((List.filter_sublist).map _).nodup (listRunJobs_nodup_ids w s r)

theorem promote_scanned (k : JobId) : scanned s (((s.listRunJobs w r).filter
    (fun j => j.status == .pending)).map (fun j => (j.jobId, j.dependsOn))) k = true ↔
    ∃ job, s.getJob k = some job ∧ Promotable s r job := by
  unfold scanned
  rw [List.any_eq_true]
  refine ⟨?_, ?_⟩
  · intro h
    obtain ⟨e, he, hcond⟩ := h
    obtain ⟨job, hjob, rfl⟩ := List.mem_map.mp he
    obtain ⟨hlist, hst⟩ := List.mem_filter.mp hjob
    simp only [Bool.and_eq_true, beq_iff_eq, List.all_eq_true] at hcond hst
    obtain ⟨⟨hk, hdeps⟩, _⟩ := hcond
    obtain ⟨hget, hr⟩ := mem_listRunJobs.mp hlist
    exact ⟨job, hk ▸ hget, hr, hst, hdeps⟩
  · intro h
    obtain ⟨job, hget, hr, hst, hdeps⟩ := h
    have hk := jobId_of_getJob hget
    refine ⟨(job.jobId, job.dependsOn), ?_, ?_⟩
    · refine List.mem_map.mpr ⟨job, List.mem_filter.mpr ⟨?_, ?_⟩, rfl⟩
      · exact mem_listRunJobs.mpr ⟨hk ▸ hget, hr⟩
      · rw [beq_iff_eq]
        exact hst
    · simp only [Bool.and_eq_true, beq_iff_eq, List.all_eq_true]
      exact ⟨⟨hk, hdeps⟩, by rw [hget]; rfl⟩

/-- Every job after the scan is the job before it, made ready if it was
promotable in the store the scan started from. -/
theorem getJob_promote (k : JobId) :
    (promoteUnblockedJobs w s r).2.getJob k = (s.getJob k).map (promoted s r) := by
  have hspec := promoteScan_spec _ s (promote_pending_notCompleted w s r)
    (promote_pending_nodup w s r)
  unfold promoteUnblockedJobs
  rw [hspec.1 k]
  have hiff := promote_scanned w s r k
  cases hget : s.getJob k with
  | none => simp
  | some job =>
    rw [hget] at hiff
    simp only [Option.some.injEq, exists_eq_left'] at hiff
    by_cases hp : Promotable s r job
    · rw [if_pos (hiff.mpr hp)]
      simp [promoted, hp]
    · rw [if_neg (fun h => hp (hiff.mp h))]
      simp [promoted, hp]

/-- The ids returned are those of the promotable jobs, each once. -/
theorem mem_promote {k : JobId} : k ∈ (promoteUnblockedJobs w s r).1 ↔
    ∃ job, s.getJob k = some job ∧ Promotable s r job :=
  ((promoteScan_spec _ s (promote_pending_notCompleted w s r)
    (promote_pending_nodup w s r)).2.1 k).trans (promote_scanned w s r k)

theorem promote_nodup : (promoteUnblockedJobs w s r).1.Nodup :=
  (promoteScan_spec _ s (promote_pending_notCompleted w s r) (promote_pending_nodup w s r)).2.2

theorem promoteScan_frame (l : List (JobId × List JobId)) : ∀ (s : RunStore),
    (promoteScan l s).2.runs = s.runs ∧ (promoteScan l s).2.channels = s.channels ∧
      (promoteScan l s).2.artifacts = s.artifacts := by
  induction l with
  | nil => intro s; exact ⟨rfl, rfl, rfl⟩
  | cons e l ih =>
    intro s
    simp only [promoteScan]
    split
    · exact ih (s.alterJob e.1 Job.setReady Job.setReady_jobId)
    · exact ih s

@[simp] theorem getRun_promote (k : RunId) :
    (promoteUnblockedJobs w s r).2.getRun k = s.getRun k := by
  unfold getRun
  rw [show (promoteUnblockedJobs w s r).2.runs = s.runs from (promoteScan_frame _ s).1]

@[simp] theorem getChannel_promote (k : ChannelId) :
    (promoteUnblockedJobs w s r).2.getChannel k = s.getChannel k := by
  unfold getChannel
  rw [show (promoteUnblockedJobs w s r).2.channels = s.channels from (promoteScan_frame _ s).2.1]

/-! ## The completion check -/

/-- Some job of the run is pending, ready or running. -/
def Unfinished : Prop := ∃ k job, s.getJob k = some job ∧ job.runId = r ∧ job.status.unfinished = true

/-- Some job of the run has failed. -/
def HasFailed : Prop := ∃ k job, s.getJob k = some job ∧ job.runId = r ∧ job.status = .failed

/-- Some job belongs to the run. -/
def HasJob : Prop := ∃ k job, s.getJob k = some job ∧ job.runId = r

@[simp] theorem getJob_checkRunCompletion (k : JobId) :
    (checkRunCompletion w s r).2.getJob k = s.getJob k := by
  unfold checkRunCompletion
  dsimp only
  split
  · rfl
  · split
    · rfl
    · split <;> rfl

@[simp] theorem getChannel_checkRunCompletion (k : ChannelId) :
    (checkRunCompletion w s r).2.getChannel k = s.getChannel k := by
  unfold checkRunCompletion
  dsimp only
  split
  · rfl
  · split
    · rfl
    · split <;> rfl

@[simp] theorem artifacts_checkRunCompletion :
    (checkRunCompletion w s r).2.artifacts = s.artifacts := by
  unfold checkRunCompletion
  dsimp only
  split
  · rfl
  · split
    · rfl
    · split <;> rfl

variable {w s r}

theorem listRunJobs_isEmpty : (s.listRunJobs w r).isEmpty = false ↔ HasJob s r := by
  rw [← Bool.not_eq_true, List.isEmpty_iff, ← ne_eq, List.ne_nil_iff_exists_cons]
  refine ⟨?_, ?_⟩
  · intro h
    obtain ⟨job, l, hl⟩ := h
    have hmem : job ∈ s.listRunJobs w r := by rw [hl]; exact List.mem_cons_self
    obtain ⟨hget, hr⟩ := mem_listRunJobs.mp hmem
    exact ⟨job.jobId, job, hget, hr⟩
  · intro h
    obtain ⟨k, job, hget, hr⟩ := h
    have hk := jobId_of_getJob hget
    have hmem : job ∈ s.listRunJobs w r := mem_listRunJobs.mpr ⟨hk ▸ hget, hr⟩
    exact List.exists_cons_of_ne_nil (List.ne_nil_of_mem hmem)

theorem listRunJobs_any (p : Job → Bool) : (s.listRunJobs w r).any p = true ↔
    ∃ k job, s.getJob k = some job ∧ job.runId = r ∧ p job = true := by
  rw [List.any_eq_true]
  refine ⟨?_, ?_⟩
  · intro h
    obtain ⟨job, hmem, hp⟩ := h
    obtain ⟨hget, hr⟩ := mem_listRunJobs.mp hmem
    exact ⟨job.jobId, job, hget, hr, hp⟩
  · intro h
    obtain ⟨k, job, hget, hr, hp⟩ := h
    have hk := jobId_of_getJob hget
    exact ⟨job, mem_listRunJobs.mpr ⟨hk ▸ hget, hr⟩, hp⟩

/-- The check either leaves the store alone, because the run has no job or an
unfinished one, or finds every job of the run finished and writes the outcome
into the run's record. -/
theorem checkRunCompletion_cases :
    ((checkRunCompletion w s r).2 = s ∧ (HasJob s r → Unfinished s r)) ∨
    (HasJob s r ∧ ¬ Unfinished s r ∧ ∃ st final,
      (HasFailed s r → st = .failed) ∧ (¬ HasFailed s r → st = .completed) ∧
      ∀ k, (checkRunCompletion w s r).2.getRun k = if k = r then
        (s.getRun r).map (fun run =>
          { run with status := st, updatedAt := w.now, finalArtifactIds := final })
        else s.getRun k) := by
  unfold checkRunCompletion
  dsimp only
  split
  · rename_i hempty
    refine Or.inl ⟨rfl, fun hjob => ?_⟩
    rw [listRunJobs_isEmpty.mpr hjob] at hempty
    cases hempty
  · rename_i hempty
    split
    · rename_i hany
      refine Or.inl ⟨rfl, fun _ => ?_⟩
      exact (listRunJobs_any _).mp hany
    · rename_i hany
      right
      have hfail : (s.listRunJobs w r).any (fun j => j.status == .failed) = true ↔
          HasFailed s r := by
        rw [listRunJobs_any]
        simp only [beq_iff_eq, HasFailed]
      refine ⟨?_, ?_,
        if (s.listRunJobs w r).any (fun j => j.status == .failed) then .failed else .completed,
        ((s.listRunJobs w r).filter (fun j =>
          !((s.listRunJobs w r).flatMap (fun j => j.dependsOn)).contains j.jobId)).flatMap
          (fun j => j.outputArtifactIds), ?_, ?_, ?_⟩
      · exact listRunJobs_isEmpty.mp (by rwa [Bool.not_eq_true] at hempty)
      · exact fun h => hany ((listRunJobs_any _).mpr h)
      · intro h
        rw [if_pos (hfail.mpr h)]
      · intro h
        rw [if_neg (fun hc => h (hfail.mp hc))]
      · intro k
        cases hrun : s.getRun r with
        | none =>
          show s.getRun k = _
          by_cases hk : k = r
          · subst hk
            simp [hrun]
          · simp [hk]
        | some run =>
          have hid := runId_of_getRun hrun
          subst hid
          show (s.updateRun _).getRun k = _
          rw [getRun_updateRun]
          rfl

end

end ZeptoPM
