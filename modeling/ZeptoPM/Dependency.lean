import ZeptoPM.Supervision

/- Dependencies: in an engine used as it is meant to be, a job leaves `pending`
   only when everything it depends on is completed, and does so at once. -/
namespace ZeptoPM
open OrchestratorEngine

/-- The calls of a disciplined engine run: jobs come from submissions, accepted
plans and reviews, a job handed out is started at once, and outcomes are
reported for active jobs only. -/
def Disciplined (e : OrchestratorEngine) (c : World × Call) : Prop :=
  match c.2 with
  | .submitRun _ | .startNext | .recordHeartbeat _ | .handleReviewCompletion ..
  | .activateReadyChannels | .routeChannelMessage .. | .handleChannelDone ..
  | .handleChannelPeerFailure .. | .createArtifact _ => True
  | .acceptPlan _ _ plan => validatePlan plan = []
  | .markCompleted j _ | .markFailed j _ => e.activeJobs.contains j = true
  | .nextJob | .markRunning _ | .materializePlan .. | .cancelRun _ | .removeRun _ => False

instance (e : OrchestratorEngine) (c : World × Call) : Decidable (Disciplined e c) := by
  obtain ⟨w, _ | _⟩ := c <;> dsimp only [Disciplined] <;> infer_instance

structure Dependable (e : OrchestratorEngine) : Prop where
  supervised : Supervised e
  activeRunning : ∀ k r, e.activeJobs.get k = some r →
    ∃ job, e.store.getJob k = some job ∧ job.status = .running
  queueNodup : e.readyQueue.Nodup
  queueReady : ∀ k, k ∈ e.readyQueue ↔ ∃ job, e.store.getJob k = some job ∧ job.status = .ready
  depsHome : ∀ k job, e.store.getJob k = some job → ∀ d ∈ job.dependsOn,
    ∃ dj, e.store.getJob d = some dj ∧ dj.runId = job.runId
  satisfied : ∀ k job, e.store.getJob k = some job → job.status ≠ .pending →
    ∀ d ∈ job.dependsOn, e.store.isCompleted d = true
  waiting : ∀ k job, e.store.getJob k = some job → job.status = .pending →
    ∃ d ∈ job.dependsOn, e.store.isCompleted d = false

theorem dependable_new (n : Nat) : Dependable (new n) where
  supervised := supervised_new n
  activeRunning := by
    intro _ _ h
    cases h
  queueNodup := List.nodup_nil
  queueReady := by
    intro k
    refine ⟨?_, ?_⟩
    · intro h
      cases h
    · intro h
      obtain ⟨_, h, _⟩ := h
      cases h
  depsHome := by
    intro _ _ h
    cases h
  satisfied := by
    intro _ _ h
    cases h
  waiting := by
    intro _ _ h
    cases h

section
variable {w : World} {e e' : OrchestratorEngine}

theorem isCompleted_congr {s s' : RunStore} {k : JobId} (h : s'.getJob k = s.getJob k) :
    s'.isCompleted k = s.isCompleted k := by
  unfold RunStore.isCompleted
  rw [h]

theorem isCompleted_eq_false {s : RunStore} {k : JobId} {job : Job} (h : s.getJob k = some job)
    (hst : job.status ≠ .completed) : s.isCompleted k = false := by
  unfold RunStore.isCompleted
  rw [h]
  simpa using hst

theorem Dependable.frame (h : Dependable e) (hf : Frame e e') (hs : Supervised e') :
    Dependable e' := by
  have hc : ∀ k, e'.store.isCompleted k = e.store.isCompleted k :=
    fun k => isCompleted_congr (hf.getJob k)
  refine ⟨?_, ?_, ?_, ?_, ?_, ?_, ?_⟩
  · exact hs
  · intro k r hk
    rw [hf.activeJobs] at hk
    simpa only [hf.getJob] using h.activeRunning k r hk
  · rw [hf.readyQueue]
    exact h.queueNodup
  · intro k
    rw [hf.readyQueue, hf.getJob]
    exact h.queueReady k
  · intro k job hk d hd
    rw [hf.getJob] at hk ⊢
    exact h.depsHome k job hk d hd
  · intro k job hk hst d hd
    rw [hf.getJob] at hk
    rw [hc]
    exact h.satisfied k job hk hst d hd
  · intro k job hk hst
    rw [hf.getJob] at hk
    simp only [hc]
    exact h.waiting k job hk hst

theorem Dependable.created (h : Dependable e) {r : RunId} {new : List Job}
    (hn : Created e e' r new) : Dependable e' := by
  have hold : ∀ k job, e.store.getJob k = some job → k ∉ new.map (·.jobId) :=
    fun k job hk => hn.notMem (h.supervised.jobIssued k job hk)
  have hkeep : ∀ k job, e.store.getJob k = some job → e'.store.getJob k = some job :=
    fun k job hk => h.supervised.getJob_created hn hk
  have hcold : ∀ k job, e.store.getJob k = some job →
      e'.store.isCompleted k = e.store.isCompleted k :=
    fun k job hk => isCompleted_congr (hn.getJob_old k (hold k job hk))
  have hcnew : ∀ job ∈ new, e'.store.isCompleted job.jobId = false := by
    intro job hmem
    refine isCompleted_eq_false (hn.getJob_new job hmem) ?_
    rcases hn.shape job hmem with ⟨hst, _⟩ | ⟨hst, _⟩ <;> simp [hst]
  refine ⟨?_, ?_, ?_, ?_, ?_, ?_, ?_⟩
  · exact h.supervised.created hn
  · intro k r hk
    rw [hn.activeJobs] at hk
    obtain ⟨job, hjob, hst⟩ := h.activeRunning k r hk
    exact ⟨job, hkeep k job hjob, hst⟩
  · rw [hn.readyQueue]
    refine List.Nodup.append h.queueNodup ?_ ?_
    · exact ((List.filter_sublist).map _).nodup hn.nodup
    · intro k hk hknew
      obtain ⟨job, hjob, _⟩ := (h.queueReady k).mp hk
      exact hold k job hjob ((List.filter_sublist.map _).subset hknew)
  · intro k
    rw [hn.readyQueue, List.mem_append]
    refine ⟨?_, ?_⟩
    · intro h
      rcases h with hk | hk
      · obtain ⟨job, hjob, hst⟩ := (h.queueReady k).mp hk
        exact ⟨job, hkeep k job hjob, hst⟩
      · obtain ⟨job, hjob, rfl⟩ := List.mem_map.mp hk
        obtain ⟨hmem, hst⟩ := List.mem_filter.mp hjob
        exact ⟨job, hn.getJob_new job hmem, by simpa using hst⟩
    · intro h
      obtain ⟨job, hjob, hst⟩ := h
      rcases hn.cases hjob with ⟨hmem, rfl⟩ | ⟨_, hjob⟩
      · exact Or.inr (List.mem_map_of_mem (List.mem_filter.mpr ⟨hmem, by simp [hst]⟩))
      · exact Or.inl ((h.queueReady k).mpr ⟨job, hjob, hst⟩)
  · intro k job hk d hd
    rcases hn.cases hk with ⟨hmem, rfl⟩ | ⟨_, hk⟩
    · rcases hn.shape job hmem with ⟨_, hnil⟩ | ⟨_, _, hdeps⟩
      · rw [hnil] at hd
        cases hd
      · obtain ⟨dj, hdj, rfl⟩ := hdeps d hd
        exact ⟨dj, hn.getJob_new dj hdj, (hn.runId dj hdj).trans (hn.runId job hmem).symm⟩
    · obtain ⟨dj, hdj, hr⟩ := h.depsHome k job hk d hd
      exact ⟨dj, hkeep d dj hdj, hr⟩
  · intro k job hk hst d hd
    rcases hn.cases hk with ⟨hmem, rfl⟩ | ⟨_, hk⟩
    · rcases hn.shape job hmem with ⟨_, hnil⟩ | ⟨hst', _⟩
      · rw [hnil] at hd
        cases hd
      · exact absurd hst' hst
    · obtain ⟨dj, hdj, _⟩ := h.depsHome k job hk d hd
      rw [hcold d dj hdj]
      exact h.satisfied k job hk hst d hd
  · intro k job hk hst
    rcases hn.cases hk with ⟨hmem, rfl⟩ | ⟨_, hk⟩
    · rcases hn.shape job hmem with ⟨hst', _⟩ | ⟨_, hne, hdeps⟩
      · rw [hst] at hst'
        cases hst'
      · obtain ⟨d, hd⟩ := List.exists_mem_of_ne_nil _ hne
        obtain ⟨dj, hdj, rfl⟩ := hdeps d hd
        exact ⟨dj.jobId, hd, hcnew dj hdj⟩
    · obtain ⟨d, hd, hc⟩ := h.waiting k job hk hst
      obtain ⟨dj, hdj, _⟩ := h.depsHome k job hk d hd
      exact ⟨d, hd, (hcold d dj hdj).trans hc⟩

/-- The job at the head of the queue is ready, holds no slot and is queued once. -/
theorem Dependable.head (h : Dependable e) {job : Job} {q : List JobId}
    (hq : e.readyQueue = job.jobId :: q) (hjob : e.store.getJob job.jobId = some job) :
    job.status = .ready ∧ job.jobId ∉ q ∧ q.Nodup := by
  obtain ⟨job', hjob', hst⟩ := (h.queueReady job.jobId).mp (hq ▸ List.mem_cons_self)
  have heq := hjob.symm.trans hjob'
  cases heq
  have hnd := h.queueNodup
  rw [hq, List.nodup_cons] at hnd
  exact ⟨hst, hnd⟩

theorem dependable_started (h : Dependable e) {job : Job} {q : List JobId}
    (hq : e.readyQueue = job.jobId :: q) (hjob : e.store.getJob job.jobId = some job)
    (hs : Supervised (e.started w job q)) : Dependable (e.started w job q) := by
  obtain ⟨hready, hnot, hnd⟩ := h.head hq hjob
  have hget : ∀ k, (e.started w job q).store.getJob k =
      if k = job.jobId then some (job.start w) else e.store.getJob k := by
    intro k
    rw [getJob_started, hjob]
    rfl
  -- a ready job is as little completed as a running one
  have hc : ∀ k, (e.started w job q).store.isCompleted k = e.store.isCompleted k := by
    intro k
    by_cases hk : k = job.jobId
    · have hstart : (e.started w job q).store.getJob job.jobId = some (job.start w) := by
        rw [hget, if_pos rfl]
      rw [hk, isCompleted_eq_false hstart (by simp), isCompleted_eq_false hjob (by simp [hready])]
    · exact isCompleted_congr (by rw [hget, if_neg hk])
  have hback : ∀ k job', (e.started w job q).store.getJob k = some job' →
      ∃ job₀, e.store.getJob k = some job₀ ∧ job'.dependsOn = job₀.dependsOn ∧
        job'.runId = job₀.runId ∧ (k = job.jobId ∧ job'.status = .running ∧
          job₀.status = .ready ∨ k ≠ job.jobId ∧ job'.status = job₀.status) := by
    intro k job' hk
    rw [hget] at hk
    split at hk
    · rename_i hkj
      cases hk
      exact ⟨job, hkj ▸ hjob, rfl, rfl, Or.inl ⟨hkj, rfl, hready⟩⟩
    · rename_i hkj
      exact ⟨job', hk, rfl, rfl, Or.inr ⟨hkj, rfl⟩⟩
  refine ⟨?_, ?_, ?_, ?_, ?_, ?_, ?_⟩
  · exact hs
  · intro k r hk
    rw [getActive_started] at hk
    rw [hget]
    split at hk
    · rename_i hkj
      rw [if_pos hkj]
      exact ⟨_, rfl, rfl⟩
    · rename_i hkj
      rw [if_neg hkj]
      exact h.activeRunning k r hk
  · exact hnd
  · intro k
    rw [readyQueue_started, hget]
    by_cases hkj : k = job.jobId
    · rw [if_pos hkj, hkj]
      refine ⟨?_, ?_⟩
      · exact fun hmem => absurd hmem hnot
      · intro h
        obtain ⟨_, heq, hst⟩ := h
        cases heq
        cases hst
    · rw [if_neg hkj, ← h.queueReady k, hq, List.mem_cons]
      exact ⟨Or.inr, fun hmem => hmem.resolve_left hkj⟩
  · intro k job' hk d hd
    obtain ⟨job₀, hk₀, hdeps, hr, _⟩ := hback k job' hk
    obtain ⟨dj, hdj, hdr⟩ := h.depsHome k job₀ hk₀ d (hdeps ▸ hd)
    rw [hget, hr]
    split
    · rename_i hdj'
      rw [hdj', hjob] at hdj
      cases hdj
      exact ⟨_, rfl, hdr⟩
    · exact ⟨dj, hdj, hdr⟩
  · intro k job' hk hst d hd
    obtain ⟨job₀, hk₀, hdeps, _, hcase⟩ := hback k job' hk
    rw [hc]
    refine h.satisfied k job₀ hk₀ ?_ d (hdeps ▸ hd)
    rcases hcase with ⟨_, _, hst₀⟩ | ⟨_, hst'⟩
    · simp [hst₀]
    · rwa [hst'] at hst
  · intro k job' hk hst
    obtain ⟨job₀, hk₀, hdeps, _, hcase⟩ := hback k job' hk
    simp only [hc, hdeps]
    rcases hcase with ⟨_, hst', _⟩ | ⟨_, hst'⟩
    · rw [hst] at hst'
      cases hst'
    · exact h.waiting k job₀ hk₀ (hst' ▸ hst)

theorem dependable_startNext (h : Dependable e) (hs : Supervised (e.startNext w).2) :
    Dependable (e.startNext w).2 := by
  rcases startNext_cases w e with ⟨q, heq, hq⟩ | ⟨job, q, _, hq, hjob, heq⟩
  · rw [heq]
    have hq : q = e.readyQueue := by
      rcases hq with hq | ⟨j, hq, hnone⟩
      · exact hq
      · obtain ⟨job, hjob, _⟩ := (h.queueReady j).mp (hq ▸ List.mem_cons_self)
        rw [hnone] at hjob
        cases hjob
    subst hq
    exact h
  · rw [heq] at hs ⊢
    exact dependable_started h hq hjob hs

/-- The job behind an active id. -/
theorem Dependable.active (h : Dependable e) {j : JobId} (hact : e.activeJobs.contains j = true) :
    ∃ r job, e.activeJobs.get j = some r ∧ e.store.getJob j = some job ∧
      job.status = .running ∧ job.runId = r := by
  obtain ⟨r, hr⟩ := HashMap.contains_iff.mp hact
  obtain ⟨job, hjob, hst⟩ := h.activeRunning j r hr
  exact ⟨r, job, hr, hjob, hst, h.supervised.home j r job hr hjob⟩

/-- Nothing is completed no more after a completion. -/
theorem isCompleted_completedStore (j : JobId) (o : List ArtifactId) {k : JobId}
    (hk : e.store.isCompleted k = true) : (e.completedStore w j o).isCompleted k = true := by
  obtain ⟨job, hjob, hst⟩ := isCompleted_iff.mp hk
  rw [isCompleted_iff, getJob_completedStore]
  split
  · rename_i hkj
    subst hkj
    rw [hjob]
    exact ⟨_, rfl, rfl⟩
  · exact ⟨job, hjob, hst⟩

theorem isCompleted_completedStore_ne {j k : JobId} {o : List ArtifactId} (hk : k ≠ j) :
    (e.completedStore w j o).isCompleted k = e.store.isCompleted k :=
  isCompleted_congr (by rw [getJob_completedStore, if_neg hk])

/-- A completion leaves the other jobs as they are, apart from those it releases. -/
theorem getJob_markCompleted_kept {j k : JobId} {o : List ArtifactId} {job : Job} (hk : k ≠ j)
    (hjob : e.store.getJob k = some job) (hst : job.status ≠ .pending) :
    (e.markCompleted w j o).store.getJob k = some job := by
  have hsome : ∃ job', (e.markCompleted w j o).store.getJob k = some job' := by
    rw [getJob_markCompleted, hjob]
    exact ⟨_, rfl⟩
  obtain ⟨job', hjob'⟩ := hsome
  obtain ⟨job₀, hjob₀, ⟨hkj, _⟩ | ⟨_, _, hp, _⟩ | ⟨_, _, rfl⟩⟩ := markCompleted_job w e j o hjob'
  · exact absurd hkj hk
  · cases hjob.symm.trans hjob₀
    exact absurd hp hst
  · rw [hjob', ← hjob₀, hjob]

/-- Completing `j` completes `j` and nothing else; promotion completes nothing. -/
theorem isCompleted_markCompleted (j : JobId) (o : List ArtifactId) (k : JobId) :
    (e.markCompleted w j o).store.isCompleted k = (e.completedStore w j o).isCompleted k := by
  unfold RunStore.isCompleted
  cases hjob' : (e.markCompleted w j o).store.getJob k with
  | none =>
    rw [getJob_markCompleted, Option.map_eq_none_iff] at hjob'
    rw [getJob_completedStore]
    by_cases hk : k = j
    · rw [if_pos hk, ← hk, hjob']
      rfl
    · rw [if_neg hk, hjob']
  | some job' =>
    rw [getJob_completedStore]
    obtain ⟨job, hjob, ⟨rfl, rfl⟩ | ⟨hk, _, hst, rfl⟩ | ⟨hk, _, rfl⟩⟩ :=
      markCompleted_job w e j o hjob'
    · rw [if_pos rfl, hjob]
      rfl
    · rw [if_neg hk, hjob]
      simp [hst]
    · rw [if_neg hk, hjob]

section
variable {j : JobId} {o : List ArtifactId} {r : RunId} {jjob : Job} (h : Dependable e)
  (hr : e.activeJobs.get j = some r) (hj : e.store.getJob j = some jjob)
  (hrun : jjob.status = .running) (hjr : jjob.runId = r)

include h hr hj hrun

/-- The queue holds the ready jobs still: those of before, and those released. -/
theorem queueReady_markCompleted (k : JobId) : k ∈ (e.markCompleted w j o).readyQueue ↔
    ∃ job, (e.markCompleted w j o).store.getJob k = some job ∧ job.status = .ready := by
  rw [readyQueue_markCompleted, List.mem_append]
  refine ⟨?_, ?_⟩
  · intro hk
    rcases hk with hk | hk
    · obtain ⟨job, hjob, hst⟩ := (h.queueReady k).mp hk
      have hkj : k ≠ j := by
        intro heq
        subst heq
        cases hj.symm.trans hjob
        rw [hrun] at hst
        cases hst
      exact ⟨job, getJob_markCompleted_kept hkj hjob (by simp [hst]), hst⟩
    · obtain ⟨r', job, hr', hkj, hjob, hp⟩ := (mem_promotedIds w e j o).mp hk
      refine ⟨job.setReady, ?_, rfl⟩
      rw [getJob_markCompleted, hjob]
      simp [afterCompletion, hkj, hr', promoted, hp]
  · intro hk
    obtain ⟨job', hjob', hst⟩ := hk
    obtain ⟨job, hjob, ⟨_, rfl⟩ | ⟨_, hmem, _, _⟩ | ⟨_, _, rfl⟩⟩ := markCompleted_job w e j o hjob'
    · cases hst
    · exact Or.inr hmem
    · exact Or.inl ((h.queueReady k).mpr ⟨job', hjob, hst⟩)

omit hr in
theorem satisfied_markCompleted {k : JobId} {job' : Job}
    (hk : (e.markCompleted w j o).store.getJob k = some job') (hst : job'.status ≠ .pending)
    {d : JobId} (hd : d ∈ job'.dependsOn) :
    (e.markCompleted w j o).store.isCompleted d = true := by
  rw [isCompleted_markCompleted]
  obtain ⟨job, hjob, ⟨rfl, rfl⟩ | ⟨_, hmem, _, rfl⟩ | ⟨_, _, rfl⟩⟩ := markCompleted_job w e j o hk
  · cases hj.symm.trans hjob
    exact isCompleted_completedStore k o (h.satisfied k jjob hj (by simp [hrun]) d hd)
  · obtain ⟨_, job₀, _, _, hjob₀, hp⟩ := (mem_promotedIds w e j o).mp hmem
    cases hjob.symm.trans hjob₀
    exact hp.2.2 d hd
  · exact isCompleted_completedStore j o (h.satisfied k job' hjob hst d hd)

omit hrun in
include hjr in
theorem waiting_markCompleted {k : JobId} {job' : Job}
    (hk : (e.markCompleted w j o).store.getJob k = some job') (hst : job'.status = .pending) :
    ∃ d ∈ job'.dependsOn, (e.markCompleted w j o).store.isCompleted d = false := by
  simp only [isCompleted_markCompleted]
  obtain ⟨job, hjob, ⟨_, rfl⟩ | ⟨_, _, _, rfl⟩ | ⟨hkj, hnot, rfl⟩⟩ := markCompleted_job w e j o hk
  · cases hst
  · cases hst
  · by_cases hkr : job'.runId = r
    · -- a job of the same run that was not promoted still lacks a dependency
      have hnp : ¬ Promotable (e.completedStore w j o) r job' := fun hp =>
        hnot ((mem_promotedIds w e j o).mpr ⟨r, job', hr, hkj, hjob, hp⟩)
      by_contra hall
      refine hnp ⟨hkr, hst, fun d hd => ?_⟩
      cases hcd : (e.completedStore w j o).isCompleted d with
      | true => rfl
      | false => exact absurd ⟨d, hd, hcd⟩ hall
    · -- the dependencies of another run's job are in that run, so `j` is none of them
      obtain ⟨d, hd, hcd⟩ := h.waiting k job' hjob hst
      obtain ⟨dj, hdj, hdr⟩ := h.depsHome k job' hjob d hd
      have hdj' : d ≠ j := by
        intro heq
        subst heq
        cases hj.symm.trans hdj
        exact hkr (hdr.symm.trans hjr)
      refine ⟨d, hd, ?_⟩
      rw [isCompleted_completedStore_ne hdj', hcd]

end

theorem dependable_markCompleted (h : Dependable e) {j : JobId} {o : List ArtifactId}
    (hact : e.activeJobs.contains j = true) : Dependable (e.markCompleted w j o) := by
  obtain ⟨r, jjob, hr, hj, hrun, hjr⟩ := h.active hact
  refine ⟨?_, ?_, ?_, ?_, ?_, ?_, ?_⟩
  · exact supervised_markCompleted h.supervised j o
  · intro k r' hk
    rw [activeJobs_markCompleted] at hk
    obtain ⟨hkj, hk⟩ := HashMap.get_of_get_remove hk
    obtain ⟨job, hjob, hst⟩ := h.activeRunning k r' hk
    exact ⟨job, getJob_markCompleted_kept hkj hjob (by simp [hst]), hst⟩
  · rw [readyQueue_markCompleted]
    apply List.Nodup.append h.queueNodup (promotedIds_nodup w e j o)
    intro k hk hkp
    obtain ⟨job, hjob, hst⟩ := (h.queueReady k).mp hk
    obtain ⟨_, job', _, _, hjob', hp⟩ := (mem_promotedIds w e j o).mp hkp
    cases hjob.symm.trans hjob'
    rw [hp.2.1] at hst
    cases hst
  · exact queueReady_markCompleted h hr hj hrun
  · intro k job' hk d hd
    obtain ⟨job, hjob, hcase⟩ := markCompleted_job w e j o hk
    have hsame : job'.dependsOn = job.dependsOn ∧ job'.runId = job.runId := by
      rcases hcase with ⟨_, rfl⟩ | ⟨_, _, _, rfl⟩ | ⟨_, _, rfl⟩ <;> exact ⟨rfl, rfl⟩
    obtain ⟨dj, hdj, hdr⟩ := h.depsHome k job hjob d (hsame.1 ▸ hd)
    have hdj' : ∃ dj', (e.markCompleted w j o).store.getJob d = some dj' ∧
        dj'.runId = dj.runId := by
      rw [getJob_markCompleted, hdj]
      exact ⟨_, rfl, afterCompletion_runId w e j o d dj⟩
    obtain ⟨dj', hdj', hdr'⟩ := hdj'
    refine ⟨dj', hdj', ?_⟩
    calc dj'.runId = dj.runId := hdr'
      _ = job.runId := hdr
      _ = job'.runId := hsame.2.symm
  · exact fun k job' hk hst d hd => satisfied_markCompleted h hj hrun hk hst hd
  · exact fun k job' hk hst => waiting_markCompleted h hr hj hjr hk hst

section
variable {j : JobId} {err : String} {jjob : Job} (h : Dependable e)
  (hj : e.store.getJob j = some jjob) (hrun : jjob.status = .running)
include hj hrun

theorem isCompleted_markFailed (k : JobId) :
    (e.markFailed w j err).store.isCompleted k = e.store.isCompleted k := by
  by_cases hk : k = j
  · subst hk
    have hfail : (e.markFailed w k err).store.getJob k = some (jjob.fail w err) := by
      rw [getJob_markFailed, if_pos rfl, hj]
      rfl
    rw [isCompleted_eq_false hj (by simp [hrun]), isCompleted_eq_false hfail ?_]
    rw [Job.fail_status]
    split <;> simp
  · exact isCompleted_congr (by rw [getJob_markFailed, if_neg hk])

include h

/-- A running job is not queued, so that a failure can queue it. -/
theorem not_queued_of_running : j ∉ e.readyQueue := by
  intro hmem
  obtain ⟨job, hjob, hst⟩ := (h.queueReady j).mp hmem
  cases hj.symm.trans hjob
  rw [hrun] at hst
  cases hst

theorem queueReady_markFailed (k : JobId) : k ∈ (e.markFailed w j err).readyQueue ↔
    ∃ job, (e.markFailed w j err).store.getJob k = some job ∧ job.status = .ready := by
  have hreq : e.requeues j = jjob.retries := by
    unfold requeues
    rw [hj]
    rfl
  rw [readyQueue_markFailed, hreq, getJob_markFailed]
  by_cases hkj : k = j
  · subst hkj
    have hnot := not_queued_of_running h hj hrun
    rw [if_pos rfl, hj]
    cases hret : jjob.retries with
    | true => simp [Job.fail_status, hret]
    | false => simp [Job.fail_status, hret, hnot]
  · rw [if_neg hkj, ← h.queueReady k]
    cases jjob.retries <;> simp [hkj]

omit hrun in
theorem depsHome_markFailed {k : JobId} {job' : Job}
    (hk : (e.markFailed w j err).store.getJob k = some job') {d : JobId} (hd : d ∈ job'.dependsOn) :
    ∃ dj, (e.markFailed w j err).store.getJob d = some dj ∧ dj.runId = job'.runId := by
  obtain ⟨job, hjob, hcase⟩ := markFailed_job w e j err hk
  have hsame : job'.dependsOn = job.dependsOn ∧ job'.runId = job.runId := by
    rcases hcase with ⟨_, rfl⟩ | ⟨_, rfl⟩
    · exact ⟨Job.fail_dependsOn .., Job.fail_runId ..⟩
    · exact ⟨rfl, rfl⟩
  obtain ⟨dj, hdj, hdr⟩ := h.depsHome k job hjob d (hsame.1 ▸ hd)
  rw [getJob_markFailed, hsame.2]
  split
  · rename_i hdj'
    rw [hdj', hj] at hdj
    cases hdj
    rw [hj]
    exact ⟨_, rfl, (Job.fail_runId ..).trans hdr⟩
  · exact ⟨dj, hdj, hdr⟩

end

theorem dependable_markFailed (h : Dependable e) {j : JobId} {err : String}
    (hact : e.activeJobs.contains j = true) : Dependable (e.markFailed w j err) := by
  obtain ⟨r, jjob, hr, hj, hrun, hjr⟩ := h.active hact
  have hc : ∀ k, (e.markFailed w j err).store.isCompleted k = e.store.isCompleted k :=
    isCompleted_markFailed hj hrun
  refine ⟨?_, ?_, ?_, ?_, ?_, ?_, ?_⟩
  · exact supervised_markFailed h.supervised j err
  · intro k r' hk
    rw [activeJobs_markFailed] at hk
    obtain ⟨hkj, hk⟩ := HashMap.get_of_get_remove hk
    rw [getJob_markFailed, if_neg hkj]
    exact h.activeRunning k r' hk
  · rw [readyQueue_markFailed]
    split
    · refine List.Nodup.append h.queueNodup (List.nodup_singleton _) ?_
      intro k hk hkj
      rw [List.mem_singleton] at hkj
      exact not_queued_of_running h hj hrun (hkj ▸ hk)
    · exact h.queueNodup
  · exact queueReady_markFailed h hj hrun
  · exact fun k job' hk d hd => depsHome_markFailed h hj hk hd
  · intro k job' hk hst d hd
    rw [hc]
    obtain ⟨job, hjob, ⟨hkj, rfl⟩ | ⟨_, rfl⟩⟩ := markFailed_job w e j err hk
    · subst hkj
      cases hj.symm.trans hjob
      rw [Job.fail_dependsOn] at hd
      exact h.satisfied k jjob hj (by simp [hrun]) d hd
    · exact h.satisfied k job' hjob hst d hd
  · intro k job' hk hst
    simp only [hc]
    obtain ⟨job, hjob, ⟨_, rfl⟩ | ⟨_, rfl⟩⟩ := markFailed_job w e j err hk
    · rw [Job.fail_status] at hst
      split at hst <;> cases hst
    · exact h.waiting k job' hjob hst

/-- A disciplined call leaves runs, jobs and the queue alone, creates the jobs
of one run, starts the head of the queue, or reports an outcome of an active job. -/
theorem disciplined_cases (hw : w.After e.ids) {c : Call} (hc : Disciplined e (w, c)) :
    Frame e (c.apply w e) ∨ (∃ r new, Created e (c.apply w e) r new) ∨ c = .startNext ∨
    (∃ j o, c = .markCompleted j o ∧ e.activeJobs.contains j = true) ∨
    (∃ j err, c = .markFailed j err ∧ e.activeJobs.contains j = true) := by
  cases c with
  | submitRun task => exact Or.inr (Or.inl ⟨_, _, created_submitRun hw task⟩)
  | startNext => exact Or.inr (Or.inr (Or.inl rfl))
  | recordHeartbeat j =>
    left
    show Frame e (e.recordHeartbeat w j)
    unfold recordHeartbeat
    split <;> exact ⟨fun _ => rfl, fun _ => rfl, rfl, rfl, rfl, rfl⟩
  | markCompleted j o => exact Or.inr (Or.inr (Or.inr (Or.inl ⟨j, o, rfl, hc⟩)))
  | markFailed j err => exact Or.inr (Or.inr (Or.inr (Or.inr ⟨j, err, rfl, hc⟩)))
  | acceptPlan r p plan =>
    exact Or.inr (Or.inl ⟨_, _, created_acceptPlan hw (validatePlan_eq_nil.mp hc)⟩)
  | handleReviewCompletion j d m =>
    show Frame e (e.handleReviewCompletion w j d m).2 ∨
      (∃ r new, Created e (e.handleReviewCompletion w j d m).2 r new) ∨ _
    rcases review_cases w e j d m with heq | ⟨rev, coder, fb, _, _, _, _, heq⟩ <;> rw [heq]
    · exact Or.inl (.refl e)
    · exact Or.inr (Or.inl ⟨_, _, created_revised hw rev coder _ fb⟩)
  | activateReadyChannels => exact Or.inl channelStep_activate.frame
  | routeChannelMessage ch j m => exact Or.inl (channelStep_route ch j m).frame
  | handleChannelDone ch j => exact Or.inl (channelStep_done ch j).frame
  | handleChannelPeerFailure ch j => exact Or.inl (channelStep_peerFailure ch j).frame
  | createArtifact a => exact Or.inl ⟨fun _ => rfl, fun _ => rfl, rfl, rfl, rfl, rfl⟩
  | nextJob => exact absurd hc id
  | markRunning j => exact absurd hc id
  | materializePlan r p plan => exact absurd hc id
  | cancelRun r => exact absurd hc id
  | removeRun r => exact absurd hc id

/-- Every disciplined call keeps dependencies sound. -/
theorem dependable_step (h : Dependable e) (hw : w.After e.ids) (c : Call)
    (hc : Disciplined e (w, c)) : Dependable (c.apply w e) := by
  have hs := supervised_apply h.supervised hw c
  rcases disciplined_cases hw hc with hf | ⟨r, new, hn⟩ | rfl | ⟨j, o, rfl, hact⟩ |
    ⟨j, err, rfl, hact⟩
  · exact h.frame hf hs
  · exact h.created hn
  · exact dependable_startNext h hs
  · exact dependable_markCompleted h hact
  · exact dependable_markFailed h hact

/-- No disciplined call takes a completed job out of that status. -/
theorem completed_step (h : Dependable e) (hw : w.After e.ids) (c : Call)
    (hc : Disciplined e (w, c)) {k : JobId} (hk : e.store.isCompleted k = true) :
    (c.apply w e).store.isCompleted k = true := by
  obtain ⟨job, hjob, hst⟩ := isCompleted_iff.mp hk
  rcases disciplined_cases hw hc with hf | ⟨r, new, hn⟩ | rfl | ⟨j, o, rfl, _⟩ | ⟨j, err, rfl, hact⟩
  · exact (isCompleted_congr (hf.getJob k)).trans hk
  · exact isCompleted_iff.mpr ⟨job, h.supervised.getJob_created hn hjob, hst⟩
  · show (e.startNext w).2.store.isCompleted k = true
    rcases startNext_cases w e with ⟨q, heq, _⟩ | ⟨head, q, _, hq, hhead, heq⟩ <;> rw [heq]
    · exact hk
    · have hne : k ≠ head.jobId := by
        intro heq
        subst heq
        rw [hjob] at hhead
        cases hhead
        rw [(h.head hq hjob).1] at hst
        cases hst
      exact (isCompleted_congr (by rw [getJob_started, if_neg hne])).trans hk
  · show (e.markCompleted w j o).store.isCompleted k = true
    rw [isCompleted_iff, getJob_markCompleted, hjob]
    refine ⟨_, rfl, ?_⟩
    unfold afterCompletion promoted
    split
    · rfl
    · cases e.activeJobs.get j with
      | none => exact hst
      | some r =>
        have hnot : ¬ Promotable (e.completedStore w j o) r job := by
          intro h
          obtain ⟨_, hp, _⟩ := h
          rw [hst] at hp
          cases hp
        simp only [if_neg hnot, hst]
  · obtain ⟨r, jjob, _, hj, hrun, _⟩ := h.active hact
    have hne : k ≠ j := by
      intro heq
      subst heq
      rw [hjob] at hj
      cases hj
      rw [hst] at hrun
      cases hrun
    show (e.markFailed w j err).store.isCompleted k = true
    exact (isCompleted_congr (by rw [getJob_markFailed, if_neg hne])).trans hk

end

/-! ## Disciplined runs -/

/-- What a disciplined run maintains from the start of the process on. -/
def DependableFresh (e : OrchestratorEngine) : Prop := Dependable e ∧ e.ids.startedAt = 0

theorem dependableFresh_step (e : OrchestratorEngine) (c : World × Call)
    (h : DependableFresh e) (hc : Disciplined e c) : DependableFresh (engineStep e c) :=
  ⟨dependable_step h.1 (after_of_startedAt h.2) c.2 hc,
    (ids_apply c.1 e h.1.supervised.home c.2).2.trans h.2⟩

theorem dependable_run {n : Nat} {cs : List (World × Call)}
    (h : Meets engineStep Disciplined (new n) cs) :
    DependableFresh (run engineStep (new n) cs) :=
  run_invariant dependableFresh_step ⟨dependable_new n, rfl⟩ h

theorem completed_run {e : OrchestratorEngine} {cs : List (World × Call)}
    (he : DependableFresh e) (h : Meets engineStep Disciplined e cs) {k : JobId}
    (hk : e.store.isCompleted k = true) :
    (run engineStep e cs).store.isCompleted k = true := by
  have hrel := run_relates (P := DependableFresh)
    (R := fun a b => a.store.isCompleted k = true → b.store.isCompleted k = true)
    (fun _ hk => hk) (fun _ _ _ hab hbc hk => hbc (hab hk)) dependableFresh_step
    (fun e c he hc hk => completed_step he.1 (after_of_startedAt he.2) c.2 hc hk) he h
  exact hrel hk

/-- In every state a disciplined run reaches, a job that is ready, running,
completed or failed has all its dependencies completed, a pending job has not,
and a job completed at some point of the run is completed at its end. -/
theorem dependency_soundness (n : Nat) (cs : List (World × Call))
    (h : Meets engineStep Disciplined (new n) cs) :
    let e := run engineStep (new n) cs
    (∀ k job, e.store.getJob k = some job →
      job.status = .ready ∨ job.status = .running ∨ job.status = .completed ∨
        job.status = .failed →
      ∀ d ∈ job.dependsOn, ∃ dj, e.store.getJob d = some dj ∧ dj.status = .completed) ∧
    (∀ k job, e.store.getJob k = some job → job.status = .pending →
      ¬ ∀ d ∈ job.dependsOn, ∃ dj, e.store.getJob d = some dj ∧ dj.status = .completed) ∧
    (∀ cs₁ cs₂, cs = cs₁ ++ cs₂ → ∀ k job,
      (run engineStep (new n) cs₁).store.getJob k = some job → job.status = .completed →
      ∃ job', e.store.getJob k = some job' ∧ job'.status = .completed) := by
  have he := (dependable_run h).1
  refine ⟨?_, ?_, ?_⟩
  · intro k job hk hst d hd
    refine isCompleted_iff.mp (he.satisfied k job hk ?_ d hd)
    rcases hst with hst | hst | hst | hst <;> simp [hst]
  · intro k job hk hst hall
    obtain ⟨d, hd, hc⟩ := he.waiting k job hk hst
    rw [isCompleted_iff.mpr (hall d hd)] at hc
    cases hc
  · intro cs₁ cs₂ h k job hk hst
    obtain rfl := h
    rw [Meets.append] at h
    rw [run_append]
    exact isCompleted_iff.mp
      (completed_run (dependable_run h.1) h.2 (isCompleted_iff.mpr ⟨job, hk, hst⟩))

/-- A plan of two jobs, the second waiting for the first. -/
def chainPlan : ExecutionPlan where
  jobs :=
    [{ localId := "a", role := "coder", profileId := "coder", instruction := "write",
       dependsOn := [] },
     { localId := "b", role := "tester", profileId := "tester", instruction := "test",
       dependsOn := ["a"] }]
  channels := []

/-- A run of `chainPlan` in which the first job fails once. -/
def chainCalls : List (World × Call) :=
  [.submitRun "task", .startNext, .markCompleted "job_0_1" [],
    .acceptPlan "run_0_0" "job_0_1" chainPlan, .startNext, .markFailed "job_0_2" "crashed",
    .startNext, .markCompleted "job_0_2" [], .startNext].map (fun c => (World.bare, c))

/-- The second job of the plan is running, so the first is completed. -/
theorem dependency_soundness_chain : ∃ dj,
    (run engineStep (new 1) chainCalls).store.getJob "job_0_2" = some dj ∧
      dj.status = .completed := by
  obtain ⟨job, hjob, heq⟩ := Option.map_eq_some_iff.mp (show
    ((run engineStep (new 1) chainCalls).store.getJob "job_0_3").map
      (fun j => (j.status, j.dependsOn)) = some (JobStatus.running, ["job_0_2"]) by decide)
  obtain ⟨hst, hdeps⟩ := Prod.mk.inj heq
  refine (dependency_soundness 1 chainCalls (by decide)).1 "job_0_3" job hjob
    (Or.inr (Or.inl hst)) "job_0_2" ?_
  rw [hdeps]
  exact List.mem_singleton_self _

end ZeptoPM
