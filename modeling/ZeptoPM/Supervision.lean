import ZeptoPM.Calls
import ZeptoPM.Machine

/- Supervision: the store, the active jobs and the heartbeats stay aligned
   whatever calls are made on an engine, with whatever job ids. `Supervised` is
   the invariant, `supervised_step` one call, `supervised_run` any number of
   them. -/
namespace ZeptoPM
open OrchestratorEngine

/-- No more active jobs than the limit, every running job among them, a
heartbeat for nothing else, each existing active job under its own run, and no
id in use that was not drawn. -/
structure Supervised (e : OrchestratorEngine) : Prop where
  bound : e.activeJobs.len ≤ e.maxConcurrency
  running : ∀ k job, e.store.getJob k = some job → job.status = .running →
    ∃ r, e.activeJobs.get k = some r
  heartbeat : ∀ k t, e.lastHeartbeat.get k = some t → ∃ r, e.activeJobs.get k = some r
  home : e.Home
  jobIssued : ∀ k job, e.store.getJob k = some job → Issued e.ids k
  activeIssued : ∀ k r, e.activeJobs.get k = some r → Issued e.ids k

theorem supervised_new (n : Nat) : Supervised (new n) where
  bound := Nat.zero_le _
  running := by
    intro _ _ h
    cases h
  heartbeat := by
    intro _ _ h
    cases h
  home := by
    intro _ _ _ h
    cases h
  jobIssued := by
    intro _ _ h
    cases h
  activeIssued := by
    intro _ _ h
    cases h

/-! ## What a call does to the id supply -/

theorem ids_apply (w : World) (e : OrchestratorEngine) (hhome : e.Home) (c : Call) :
    e.ids.Le (c.apply w e).ids ∧ (c.apply w e).ids.startedAt = e.ids.startedAt := by
  have same : ∀ {e' : OrchestratorEngine}, e'.ids = e.ids →
      e.ids.Le e'.ids ∧ e'.ids.startedAt = e.ids.startedAt := by
    intro e' h
    rw [h]
    exact ⟨.refl _, rfl⟩
  cases c with
  | submitRun task => exact ⟨submitRun_le w e task, rfl⟩
  | nextJob =>
    apply same
    rcases nextJob_cases e with ⟨q, heq, _⟩ | ⟨job, q, _, _, _, heq⟩ <;>
      exact congrArg (fun x => x.2.ids) heq
  | markRunning j =>
    apply same
    show (e.markRunning w j).ids = e.ids
    unfold markRunning
    cases e.activeJobs.get j <;> rfl
  | startNext =>
    apply same
    rcases startNext_cases w e with ⟨q, heq, _⟩ | ⟨job, q, _, _, _, heq⟩ <;>
      exact congrArg (fun x => x.2.ids) heq
  | recordHeartbeat j =>
    apply same
    show (e.recordHeartbeat w j).ids = e.ids
    unfold recordHeartbeat
    split <;> rfl
  | markCompleted j o => exact same (ids_markCompleted w e j o)
  | markFailed j err => exact same (ids_markFailed w e j err)
  | materializePlan r p plan => exact materializePlan_le (s := e.store) (r := r) (p := p)
  | acceptPlan r p plan => exact materializePlan_le (s := e.store) (r := r) (p := p)
  | handleReviewCompletion j d m =>
    show e.ids.Le (e.handleReviewCompletion w j d m).2.ids ∧
      (e.handleReviewCompletion w j d m).2.ids.startedAt = _
    rcases review_cases w e j d m with heq | ⟨rev, coder, fb, _, _, _, _, heq⟩ <;> rw [heq]
    · exact ⟨.refl _, rfl⟩
    · exact ⟨revised_le rev coder fb, rfl⟩
  | activateReadyChannels => exact same rfl
  | routeChannelMessage ch j m => exact same (channelStep_route ch j m).frame.ids
  | handleChannelDone ch j => exact same (channelStep_done ch j).frame.ids
  | handleChannelPeerFailure ch j => exact same (channelStep_peerFailure ch j).frame.ids
  | createArtifact a => exact same rfl
  | cancelRun r =>
    apply same
    rcases cancelRun_cases w hhome r with ⟨err, heq⟩ | ⟨_, _, _, _, _, h⟩
    · exact congrArg (fun x => x.2.ids) heq
    · exact h.ids
  | removeRun r => exact same rfl

/-! ## One call -/

section
variable {w : World} {e e' : OrchestratorEngine}

/-- Supervision survives a step that starts no job: slots and heartbeats are
only given up, a job that runs was running and kept its slot, and a job that was
not there before has a fresh id. -/
theorem Supervised.step (h : Supervised e) (hlen : e'.activeJobs.len ≤ e.activeJobs.len)
    (hmax : e'.maxConcurrency = e.maxConcurrency)
    (hactive : ∀ k r, e'.activeJobs.get k = some r → e.activeJobs.get k = some r)
    (hbeat : ∀ k t, e'.lastHeartbeat.get k = some t → ∃ r, e'.activeJobs.get k = some r)
    (hle : e.ids.Le e'.ids)
    (hjob : ∀ k job', e'.store.getJob k = some job' →
      (∃ job, e.store.getJob k = some job ∧ job'.runId = job.runId ∧
        (job'.status = .running → job.status = .running ∧
          e'.activeJobs.get k = e.activeJobs.get k)) ∨
      (¬ Issued e.ids k ∧ Issued e'.ids k ∧ job'.status ≠ .running)) : Supervised e' := by
  refine ⟨?_, ?_, ?_, ?_, ?_, ?_⟩
  · rw [hmax]
    exact Nat.le_trans hlen h.bound
  · intro k job' hk hrun
    rcases hjob k job' hk with ⟨job, hget, _, hst⟩ | ⟨_, _, hst⟩
    · obtain ⟨hst, hsame⟩ := hst hrun
      rw [hsame]
      exact h.running k job hget hst
    · exact absurd hrun hst
  · exact hbeat
  · intro k r job' hk hget
    have hk := hactive k r hk
    rcases hjob k job' hget with ⟨job, hold, hr, _⟩ | ⟨hfresh, _, _⟩
    · exact hr.trans (h.home k r job hk hold)
    · exact absurd (h.activeIssued k r hk) hfresh
  · intro k job' hk
    rcases hjob k job' hk with ⟨job, hget, _, _⟩ | ⟨_, hissued, _⟩
    · exact (h.jobIssued k job hget).mono hle
    · exact hissued
  · intro k r hk
    exact (h.activeIssued k r (hactive k r hk)).mono hle

/-- Only heartbeats of active jobs and channels differ. -/
theorem Supervised.frame (h : Supervised e) (hf : Frame e e')
    (hbeat : ∀ k t, e'.lastHeartbeat.get k = some t → ∃ r, e.activeJobs.get k = some r) :
    Supervised e' := by
  refine h.step (by rw [hf.activeJobs]) hf.maxConcurrency (fun k r hk => by rwa [hf.activeJobs] at hk)
    (fun k t hk => by rw [hf.activeJobs]; exact hbeat k t hk) (hf.ids ▸ .refl _) ?_
  intro k job hk
  rw [hf.getJob] at hk
  exact Or.inl ⟨job, hk, rfl, fun hrun => ⟨hrun, by rw [hf.activeJobs]⟩⟩

theorem Supervised.created (h : Supervised e) {r : RunId} {new : List Job}
    (hc : Created e e' r new) : Supervised e' := by
  refine h.step (by rw [hc.activeJobs]) hc.maxConcurrency
    (fun k r hk => by rwa [hc.activeJobs] at hk)
    (fun k t hk => by rw [hc.activeJobs]; exact h.heartbeat k t (hc.lastHeartbeat ▸ hk)) hc.le ?_
  intro k job hk
  rcases hc.cases hk with ⟨hmem, rfl⟩ | ⟨_, hold⟩
  · refine Or.inr ⟨hc.fresh job hmem, hc.issued job hmem, ?_⟩
    rcases hc.shape job hmem with ⟨hst, _⟩ | ⟨hst, _⟩ <;> simp [hst]
  · exact Or.inl ⟨job, hold, rfl, fun hrun => ⟨hrun, by rw [hc.activeJobs]⟩⟩

/-- Where jobs are created, those that are there stay as they are. -/
theorem Supervised.getJob_created (h : Supervised e) {r : RunId} {new : List Job}
    (hn : Created e e' r new) {k : JobId} {job : Job} (hjob : e.store.getJob k = some job) :
    e'.store.getJob k = some job := by
  rw [hn.getJob_old k (hn.notMem (h.jobIssued k job hjob))]
  exact hjob

theorem supervised_nextJob (h : Supervised e) : Supervised e.nextJob.2 := by
  rcases nextJob_cases e with ⟨q, heq, _⟩ | ⟨job, q, hlen, _, hjob, heq⟩
  · rw [heq]
    exact ⟨h.bound, h.running, h.heartbeat, h.home, h.jobIssued, h.activeIssued⟩
  · rw [heq]
    have hgrow : ∀ k, (∃ r, e.activeJobs.get k = some r) →
        ∃ r, (e.activeJobs.insert job.jobId job.runId).get k = some r := by
      intro k h
      obtain ⟨r, hk⟩ := h
      rw [HashMap.get_insert]
      split
      · exact ⟨_, rfl⟩
      · exact ⟨r, hk⟩
    refine ⟨?_, ?_, ?_, ?_, ?_, ?_⟩
    · exact Nat.le_trans (HashMap.len_insert_le ..) hlen
    · exact fun k job' hk hrun => hgrow k (h.running k job' hk hrun)
    · exact fun k t hk => hgrow k (h.heartbeat k t hk)
    · intro k r job' hk hget
      change (e.activeJobs.insert job.jobId job.runId).get k = some r at hk
      rw [HashMap.get_insert] at hk
      split at hk
      · rename_i hkey
        cases hk
        rw [hkey] at hget
        have := hjob.symm.trans hget
        cases this
        rfl
      · exact h.home k r job' hk hget
    · exact h.jobIssued
    · intro k r hk
      change (e.activeJobs.insert job.jobId job.runId).get k = some r at hk
      rw [HashMap.get_insert] at hk
      split at hk
      · rename_i hkey
        rw [hkey]
        exact h.jobIssued _ job hjob
      · exact h.activeIssued k r hk

theorem supervised_markRunning (h : Supervised e) (j : JobId) :
    Supervised (e.markRunning w j) := by
  unfold markRunning
  cases hact : e.activeJobs.get j with
  | none => exact h
  | some r =>
    have hget : ∀ k, ((e.store.alterJob j (Job.start w) (Job.start_jobId w)).alterRun r
        (Run.start w) (Run.start_runId w)).getJob k =
          if k = j then (e.store.getJob j).map (Job.start w) else e.store.getJob k :=
      fun k => RunStore.getJob_alterJob _ _ _ _ (Job.start_jobId w)
    have hold : ∀ k job', (if k = j then (e.store.getJob j).map (Job.start w)
        else e.store.getJob k) = some job' →
        ∃ job, e.store.getJob k = some job ∧ job'.runId = job.runId ∧
          (k = j ∨ job'.status = job.status) := by
      intro k job' hk
      split at hk
      · rename_i hkj
        obtain ⟨job, hjob, rfl⟩ := Option.map_eq_some_iff.mp hk
        exact ⟨job, hkj ▸ hjob, rfl, Or.inl hkj⟩
      · exact ⟨job', hk, rfl, Or.inr rfl⟩
    refine ⟨?_, ?_, ?_, ?_, ?_, ?_⟩
    · exact h.bound
    · intro k job' hk hrun
      obtain ⟨job, hjob, _, hkj | hst⟩ := hold k job' ((hget k).symm.trans hk)
      · exact ⟨r, hkj ▸ hact⟩
      · exact h.running k job hjob (hst ▸ hrun)
    · intro k t hk
      change (e.lastHeartbeat.insert j w.instant).get k = some t at hk
      rw [HashMap.get_insert] at hk
      split at hk
      · rename_i hkj
        exact ⟨r, hkj ▸ hact⟩
      · exact h.heartbeat k t hk
    · intro k r' job' hk hj
      obtain ⟨job, hjob, hr, _⟩ := hold k job' ((hget k).symm.trans hj)
      exact hr.trans (h.home k r' job hk hjob)
    · intro k job' hk
      obtain ⟨job, hjob, _⟩ := hold k job' ((hget k).symm.trans hk)
      exact h.jobIssued k job hjob
    · exact h.activeIssued

/-- A heartbeat that survives giving up a slot belongs to another active job. -/
theorem Supervised.heartbeat_remove (h : Supervised e) (j : JobId) :
    ∀ k t, (e.lastHeartbeat.remove j).get k = some t →
      ∃ r, (e.activeJobs.remove j).get k = some r := by
  intro k t hk
  rw [HashMap.get_remove] at hk ⊢
  split at hk
  · cases hk
  · rename_i hkj
    rw [if_neg hkj]
    exact h.heartbeat k t hk

theorem supervised_markCompleted (h : Supervised e) (j : JobId) (o : List ArtifactId) :
    Supervised (e.markCompleted w j o) := by
  refine h.step ?_ (by simp) ?_ ?_ (by rw [ids_markCompleted]; exact .refl _) ?_
  · rw [activeJobs_markCompleted]
    exact HashMap.len_remove_le ..
  · intro k r hk
    rw [activeJobs_markCompleted] at hk
    exact (HashMap.get_of_get_remove hk).2
  · rw [lastHeartbeat_markCompleted, activeJobs_markCompleted]
    exact h.heartbeat_remove j
  · intro k job' hk
    left
    obtain ⟨job, hjob, ⟨rfl, rfl⟩ | ⟨_, _, _, rfl⟩ | ⟨hkj, _, rfl⟩⟩ := markCompleted_job w e j o hk
    · exact ⟨job, hjob, rfl, fun hrun => by cases hrun⟩
    · exact ⟨job, hjob, rfl, fun hrun => by cases hrun⟩
    · refine ⟨job', hjob, rfl, fun hrun => ⟨hrun, ?_⟩⟩
      rw [activeJobs_markCompleted, HashMap.get_remove, if_neg hkj]

theorem supervised_markFailed (h : Supervised e) (j : JobId) (err : String) :
    Supervised (e.markFailed w j err) := by
  refine h.step ?_ (by simp) ?_ ?_ (by rw [ids_markFailed]; exact .refl _) ?_
  · rw [activeJobs_markFailed]
    exact HashMap.len_remove_le ..
  · intro k r hk
    rw [activeJobs_markFailed] at hk
    exact (HashMap.get_of_get_remove hk).2
  · rw [lastHeartbeat_markFailed, activeJobs_markFailed]
    exact h.heartbeat_remove j
  · intro k job' hk
    left
    obtain ⟨job, hjob, ⟨_, rfl⟩ | ⟨hkj, rfl⟩⟩ := markFailed_job w e j err hk
    · refine ⟨job, hjob, Job.fail_runId .., fun hrun => ?_⟩
      rw [Job.fail_status] at hrun
      split at hrun <;> cases hrun
    · refine ⟨job', hjob, rfl, fun hrun => ⟨hrun, ?_⟩⟩
      rw [activeJobs_markFailed, HashMap.get_remove, if_neg hkj]

theorem supervised_materialize (h : Supervised e) (hw : w.After e.ids) (r : RunId) (p : JobId)
    (plan : ExecutionPlan) : Supervised (e.materialize w r p plan) := by
  refine h.step (Nat.le_refl _) rfl (fun _ _ hk => hk) h.heartbeat
    (materializePlan_le (s := e.store) (r := r) (p := p)).1 ?_
  intro k job hk
  rcases getJob_materializePlan_cases hk with ⟨hmem, hid⟩ | ⟨_, hold⟩
  · obtain ⟨hfresh, hissued⟩ := materializePlan_fresh (s := e.store) (r := r) (p := p) hw hid
    refine Or.inr ⟨hfresh, hissued, ?_⟩
    rcases materializeJob_shape job hmem with ⟨hst, _⟩ | ⟨hst, _⟩ <;> simp [hst]
  · exact Or.inl ⟨job, hold, rfl, fun hrun => ⟨hrun, rfl⟩⟩

theorem supervised_acceptPlan (h : Supervised e) (hw : w.After e.ids) (r : RunId) (p : JobId)
    (plan : ExecutionPlan) : Supervised (e.acceptPlan w r p plan) := by
  have hm := supervised_materialize (w := w) h hw r p plan
  exact ⟨hm.bound, hm.running, hm.heartbeat, hm.home, hm.jobIssued, hm.activeIssued⟩

theorem supervised_cancelRun (h : Supervised e) (r : RunId) : Supervised (e.cancelRun w r).2 := by
  rcases cancelRun_cases w h.home r with ⟨err, heq⟩ | ⟨_, _, _, _, _, hc⟩
  · rw [heq]
    exact h
  · refine h.step hc.len hc.maxConcurrency (fun k r' hk => (hc.active_kept hk).2) ?_
      (by rw [hc.ids]; exact .refl _) ?_
    · intro k t hk
      by_cases hcan : e.Cancels r k
      · rw [hc.heartbeat_cancelled k hcan] at hk
        cases hk
      · rw [hc.active_other k hcan]
        exact h.heartbeat k t ((hc.heartbeat_other k hcan).symm.trans hk)
    · intro k job' hk
      left
      by_cases hcan : e.Cancels r k
      · rw [hc.getJob_cancelled k hcan] at hk
        obtain ⟨job, hjob, rfl⟩ := Option.map_eq_some_iff.mp hk
        refine ⟨job, hjob, Job.fail_runId .., fun hrun => ?_⟩
        rw [Job.fail_status] at hrun
        split at hrun <;> cases hrun
      · rw [hc.getJob_other k hcan] at hk
        exact ⟨job', hk, rfl, fun hrun => ⟨hrun, hc.active_other k hcan⟩⟩

theorem supervised_removeRun (h : Supervised e) (r : RunId) : Supervised (e.removeRun w r) := by
  refine h.step (Nat.le_refl _) rfl (fun _ _ hk => hk) h.heartbeat (.refl _) ?_
  intro k job hk
  have hk : (e.store.getJob k).filter (fun job => !(job.runId == r)) = some job :=
    (RunStore.getJob_removeRun w e.store r k).symm.trans hk
  exact Or.inl ⟨job, (Option.filter_eq_some_iff.mp hk).1, rfl, fun hrun => ⟨hrun, rfl⟩⟩

/-- Every call keeps an engine supervised. -/
theorem supervised_apply (h : Supervised e) (hw : w.After e.ids) (c : Call) :
    Supervised (c.apply w e) := by
  cases c with
  | submitRun task => exact h.created (created_submitRun hw task)
  | nextJob => exact supervised_nextJob h
  | markRunning j => exact supervised_markRunning h j
  | startNext =>
    have hnext := supervised_nextJob h
    show Supervised (e.startNext w).2
    unfold startNext
    rcases hjob : e.nextJob with ⟨_ | job, e'⟩ <;> rw [hjob] at hnext
    · exact hnext
    · exact supervised_markRunning hnext job.jobId
  | recordHeartbeat j =>
    show Supervised (e.recordHeartbeat w j)
    unfold recordHeartbeat
    split
    · rename_i hact
      refine h.frame ⟨fun _ => rfl, fun _ => rfl, rfl, rfl, rfl, rfl⟩ ?_
      intro k t hk
      change (e.lastHeartbeat.insert j w.instant).get k = some t at hk
      rw [HashMap.get_insert] at hk
      split at hk
      · rename_i hkj
        rw [hkj]
        exact HashMap.contains_iff.mp hact
      · exact h.heartbeat k t hk
    · exact h
  | markCompleted j o => exact supervised_markCompleted h j o
  | markFailed j err => exact supervised_markFailed h j err
  | materializePlan r p plan => exact supervised_materialize h hw r p plan
  | acceptPlan r p plan => exact supervised_acceptPlan h hw r p plan
  | handleReviewCompletion j d m =>
    show Supervised (e.handleReviewCompletion w j d m).2
    rcases review_cases w e j d m with heq | ⟨rev, coder, fb, _, _, _, _, heq⟩ <;> rw [heq]
    · exact h
    · exact h.created (created_revised hw rev coder _ fb)
  | activateReadyChannels => exact h.frame channelStep_activate.frame h.heartbeat
  | routeChannelMessage ch j m =>
    have hs := channelStep_route (w := w) (e := e) ch j m
    exact h.frame hs.frame (fun k t hk => h.heartbeat k t (hs.lastHeartbeat ▸ hk))
  | handleChannelDone ch j =>
    have hs := channelStep_done (e := e) ch j
    exact h.frame hs.frame (fun k t hk => h.heartbeat k t (hs.lastHeartbeat ▸ hk))
  | handleChannelPeerFailure ch j =>
    have hs := channelStep_peerFailure (e := e) ch j
    exact h.frame hs.frame (fun k t hk => h.heartbeat k t (hs.lastHeartbeat ▸ hk))
  | createArtifact a => exact h.frame ⟨fun _ => rfl, fun _ => rfl, rfl, rfl, rfl, rfl⟩ h.heartbeat
  | cancelRun r => exact supervised_cancelRun h r
  | removeRun r => exact supervised_removeRun h r

theorem maxConcurrency_apply (hhome : e.Home) (c : Call) :
    (c.apply w e).maxConcurrency = e.maxConcurrency := by
  cases c with
  | submitRun task => rfl
  | nextJob =>
    rcases nextJob_cases e with ⟨q, heq, _⟩ | ⟨job, q, _, _, _, heq⟩ <;>
      exact congrArg (fun x => x.2.maxConcurrency) heq
  | markRunning j =>
    show (e.markRunning w j).maxConcurrency = _
    unfold markRunning
    cases e.activeJobs.get j <;> rfl
  | startNext =>
    rcases startNext_cases w e with ⟨q, heq, _⟩ | ⟨job, q, _, _, _, heq⟩ <;>
      exact congrArg (fun x => x.2.maxConcurrency) heq
  | recordHeartbeat j =>
    show (e.recordHeartbeat w j).maxConcurrency = _
    unfold recordHeartbeat
    split <;> rfl
  | markCompleted j o => exact maxConcurrency_markCompleted w e j o
  | markFailed j err => exact maxConcurrency_markFailed w e j err
  | materializePlan r p plan => rfl
  | acceptPlan r p plan => rfl
  | handleReviewCompletion j d m =>
    show (e.handleReviewCompletion w j d m).2.maxConcurrency = _
    rcases review_cases w e j d m with heq | ⟨_, _, _, _, _, _, _, heq⟩
    · rw [heq]
    · rw [heq]
      rfl
  | activateReadyChannels => rfl
  | routeChannelMessage ch j m => exact (channelStep_route ch j m).frame.maxConcurrency
  | handleChannelDone ch j => exact (channelStep_done ch j).frame.maxConcurrency
  | handleChannelPeerFailure ch j => exact (channelStep_peerFailure ch j).frame.maxConcurrency
  | createArtifact a => rfl
  | cancelRun r =>
    rcases cancelRun_cases w hhome r with ⟨err, heq⟩ | ⟨_, _, _, _, _, h⟩
    · exact congrArg (fun x => x.2.maxConcurrency) heq
    · exact h.maxConcurrency
  | removeRun r => rfl

end

/-! ## Any number of calls -/

/-- Within one process the id counter alone keeps ids apart. -/
theorem after_of_startedAt {w : World} {ids : IdSupply} (h : ids.startedAt = 0) :
    w.After ids := by
  unfold World.After
  omega

theorem supervised_run (n : Nat) (cs : List (World × Call)) :
    Supervised (run engineStep (new n) cs) ∧
      (run engineStep (new n) cs).maxConcurrency = n := by
  have hall : Meets engineStep (fun _ _ => True) (new n) cs := Meets.trivial (new n) cs
  have h := run_invariant (P := fun e => Supervised e ∧ e.maxConcurrency = n ∧ e.ids.startedAt = 0) (by
      intro e x h _
      obtain ⟨w, c⟩ := x
      obtain ⟨hs, hmax, hst⟩ := h
      exact ⟨supervised_apply hs (after_of_startedAt hst) c,
        (maxConcurrency_apply hs.home c).trans hmax, (ids_apply w e hs.home c).2.trans hst⟩)
    ⟨supervised_new n, rfl, rfl⟩ hall
  exact ⟨h.1, h.2.1⟩

/-- Whatever calls have been made on an engine with `n` slots, in whatever order
and with whatever ids: at most `n` jobs are active; every running job is, so at
most `n` run; every heartbeat is an active job's; an active job that exists is
under its own run; and a running job whose last heartbeat is too old is found
stale. -/
theorem supervision (n : Nat) (cs : List (World × Call)) :
    let e := run engineStep (new n) cs
    e.activeJobs.len ≤ n ∧
    (∀ k job, e.store.getJob k = some job → job.status = .running →
      ∃ r, e.activeJobs.get k = some r) ∧
    (∀ ks : List JobId, ks.Nodup → (∀ k ∈ ks, ∃ job, e.store.getJob k = some job ∧
      job.status = .running) → ks.length ≤ n) ∧
    (∀ k t, e.lastHeartbeat.get k = some t → ∃ r, e.activeJobs.get k = some r) ∧
    (∀ k r job, e.activeJobs.get k = some r → e.store.getJob k = some job → r = job.runId) ∧
    (∀ w timeout k job t, e.store.getJob k = some job → job.status = .running →
      e.lastHeartbeat.get k = some t → w.instant - t > timeout → k ∈ e.staleJobs w timeout) := by
  obtain ⟨h, hmax⟩ := supervised_run n cs
  have hbound := h.bound
  rw [hmax] at hbound
  refine ⟨hbound, h.running, ?_, h.heartbeat, ?_, ?_⟩
  · intro ks hnd hks
    refine Nat.le_trans (HashMap.length_le_len hnd ?_) hbound
    intro k hk
    obtain ⟨job, hjob, hrun⟩ := hks k hk
    exact h.running k job hjob hrun
  · exact fun k r job hk hjob => (h.home k r job hk hjob).symm
  · intro w timeout k job t hjob hrun hbeat hold
    refine List.mem_filter.mpr ⟨HashMap.mem_keysIn.mpr (h.running k job hjob hrun), ?_⟩
    simp only [hbeat, decide_eq_true_eq]
    exact hold

end ZeptoPM
