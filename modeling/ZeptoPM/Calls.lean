import ZeptoPM.EngineSpec

/- Cancellation, the channel operations, and the calls that can be made on an
   engine. `Call` lists them with their arguments; `Call.apply` makes one. -/
namespace ZeptoPM
namespace OrchestratorEngine

/-! ## Cancellation -/

/-- The active jobs that exist are mapped to their own run. -/
def Home (e : OrchestratorEngine) : Prop :=
  ∀ k r job, e.activeJobs.get k = some r → e.store.getJob k = some job → job.runId = r

/-- The jobs of the list that a cancellation fails. -/
def cancels (l : List (JobId × JobStatus)) (k : JobId) : Prop :=
  ∃ st, (k, st) ∈ l ∧ st.unfinished = true

section
variable (w : World)

/-- What the loop over the jobs of a cancelled run leaves behind, `P` being the
jobs it fails. -/
structure CancelLoop (e e' : OrchestratorEngine) (r : RunId) (P : JobId → Prop) : Prop where
  getJob_cancelled : ∀ k, P k →
    e'.store.getJob k = (e.store.getJob k).map (Job.fail w "cancelled by user")
  getJob_other : ∀ k, ¬ P k → e'.store.getJob k = e.store.getJob k
  getRun_ne : ∀ k, k ≠ r → e'.store.getRun k = e.store.getRun k
  getRun_isSome : ∀ k, (e'.store.getRun k).isSome = (e.store.getRun k).isSome
  getChannel : ∀ k, e'.store.getChannel k = e.store.getChannel k
  queue : ∃ pushed, e'.readyQueue = e.readyQueue ++ pushed ∧ ∀ k ∈ pushed, P k
  active_cancelled : ∀ k, P k → e'.activeJobs.get k = none
  active_other : ∀ k, ¬ P k → e'.activeJobs.get k = e.activeJobs.get k
  heartbeat_cancelled : ∀ k, P k → e'.lastHeartbeat.get k = none
  heartbeat_other : ∀ k, ¬ P k → e'.lastHeartbeat.get k = e.lastHeartbeat.get k
  len : e'.activeJobs.len ≤ e.activeJobs.len
  ids : e'.ids = e.ids
  maxConcurrency : e'.maxConcurrency = e.maxConcurrency

theorem cancels_cons {k : JobId} {entry : JobId × JobStatus} {l : List (JobId × JobStatus)} :
    cancels (entry :: l) k ↔ (k = entry.1 ∧ entry.2.unfinished = true) ∨ cancels l k := by
  unfold cancels
  refine ⟨?_, ?_⟩
  · intro h
    obtain ⟨st, hmem, hst⟩ := h
    rcases List.mem_cons.mp hmem with h | h
    · exact Or.inl ⟨congrArg Prod.fst h, (congrArg Prod.snd h) ▸ hst⟩
    · exact Or.inr ⟨st, h, hst⟩
  · intro h
    rcases h with ⟨rfl, hst⟩ | ⟨st, hmem, hst⟩
    · exact ⟨entry.2, List.mem_cons_self, hst⟩
    · exact ⟨st, List.mem_cons_of_mem _ hmem, hst⟩

theorem cancels_fst {k : JobId} {l : List (JobId × JobStatus)} (h : cancels l k) :
    k ∈ l.map Prod.fst := by
  obtain ⟨st, hmem, _⟩ := h
  exact List.mem_map_of_mem hmem

/-- One job is failed before the others of the loop. -/
theorem CancelLoop.failed {e e' : OrchestratorEngine} {r : RunId} {S : JobId → Prop} {j : JobId}
    (hj : ¬ S j) (hactj : ∀ k, k ≠ r → e.activeJobs.get j ≠ some k)
    (h : CancelLoop w (e.markFailed w j "cancelled by user") e' r S) :
    CancelLoop w e e' r (fun k => k = j ∨ S k) := by
  have hne : ∀ {k}, S k → k ≠ j := fun h hk => hj (hk ▸ h)
  refine ⟨?_, ?_, ?_, ?_, ?_, ?_, ?_, ?_, ?_, ?_, ?_, ?_, ?_⟩
  · intro k hk
    rcases hk with rfl | hk
    · rw [h.getJob_other k hj, getJob_markFailed, if_pos rfl]
    · rw [h.getJob_cancelled k hk, getJob_markFailed, if_neg (hne hk)]
  · intro k hk
    rw [not_or] at hk
    rw [h.getJob_other k hk.2, getJob_markFailed, if_neg hk.1]
  · intro k hk
    rw [h.getRun_ne k hk, getRun_markFailed_ne w e j _ (hactj k hk)]
  · intro k
    rw [h.getRun_isSome]
    cases hget : e.activeJobs.get j with
    | none => rw [getRun_markFailed_of_notActive w e j _ hget]
    | some r' => exact (checked_markFailed w e j _ hget).isSome k
  · intro k
    rw [h.getChannel, getChannel_markFailed]
  · obtain ⟨pushed, hq, hp⟩ := h.queue
    rw [readyQueue_markFailed] at hq
    split at hq
    · -- a job with attempts left goes back to the queue
      refine ⟨j :: pushed, by rw [hq, List.append_assoc]; rfl, ?_⟩
      intro k hk
      exact (List.mem_cons.mp hk).imp_right (hp k)
    · exact ⟨pushed, hq, fun k hk => Or.inr (hp k hk)⟩
  · intro k hk
    rcases hk with rfl | hk
    · rw [h.active_other k hj, activeJobs_markFailed, HashMap.get_remove, if_pos rfl]
    · exact h.active_cancelled k hk
  · intro k hk
    rw [not_or] at hk
    rw [h.active_other k hk.2, activeJobs_markFailed, HashMap.get_remove, if_neg hk.1]
  · intro k hk
    rcases hk with rfl | hk
    · rw [h.heartbeat_other k hj, lastHeartbeat_markFailed, HashMap.get_remove, if_pos rfl]
    · exact h.heartbeat_cancelled k hk
  · intro k hk
    rw [not_or] at hk
    rw [h.heartbeat_other k hk.2, lastHeartbeat_markFailed, HashMap.get_remove, if_neg hk.1]
  · refine Nat.le_trans h.len ?_
    rw [activeJobs_markFailed]
    exact HashMap.len_remove_le ..
  · rw [h.ids, ids_markFailed]
  · rw [h.maxConcurrency, maxConcurrency_markFailed]

theorem cancelLoop (r : RunId) (l : List (JobId × JobStatus)) :
    ∀ {e : OrchestratorEngine} {n : Nat}, (l.map Prod.fst).Nodup →
      (∀ k ∈ l.map Prod.fst, ∀ r', e.activeJobs.get k = some r' → r' = r) →
      CancelLoop w e (l.foldl (cancelJob w) (e, n)).1 r (cancels l) := by
  induction l with
  | nil =>
    intro e n _ _
    have hnone : ∀ k, ¬ cancels [] k := fun k h => by simpa using cancels_fst h
    exact
      { getJob_cancelled := fun k h => absurd h (hnone k)
        getJob_other := fun _ _ => rfl
        getRun_ne := fun _ _ => rfl
        getRun_isSome := fun _ => rfl
        getChannel := fun _ => rfl
        queue := ⟨[], by simp, by simp⟩
        active_cancelled := fun k h => absurd h (hnone k)
        active_other := fun _ _ => rfl
        heartbeat_cancelled := fun k h => absurd h (hnone k)
        heartbeat_other := fun _ _ => rfl
        len := Nat.le_refl _
        ids := rfl
        maxConcurrency := rfl }
  | cons entry l ih =>
    intro e n hnd hact
    obtain ⟨j, st⟩ := entry
    rw [List.map_cons, List.nodup_cons] at hnd
    have hactl : ∀ k ∈ l.map Prod.fst, ∀ r', e.activeJobs.get k = some r' → r' = r :=
      fun k hk => hact k (List.mem_cons_of_mem _ hk)
    rw [List.foldl_cons]
    cases hst : st.unfinished with
    | false =>
      have hstep : cancelJob w (e, n) (j, st) = (e, n) := by simp [cancelJob, hst]
      have hset : cancels ((j, st) :: l) = cancels l := by
        funext k
        simp [cancels_cons, hst]
      rw [hstep, hset]
      exact ih hnd.2 hactl
    | true =>
      have hstep : cancelJob w (e, n) (j, st) = (e.markFailed w j "cancelled by user", n + 1) := by
        simp [cancelJob, hst]
      have hset : cancels ((j, st) :: l) = fun k => k = j ∨ cancels l k := by
        funext k
        simp [cancels_cons, hst]
      rw [hstep, hset]
      refine CancelLoop.failed w (fun h => hnd.1 (cancels_fst h))
        (fun k hk hget => hk (hact j List.mem_cons_self k hget)) (ih hnd.2 ?_)
      intro k hk r' hr'
      rw [activeJobs_markFailed] at hr'
      exact hactl k hk r' (HashMap.get_of_get_remove hr').2

end

/-- A job of the run that a cancellation finds unfinished. -/
def Cancels (e : OrchestratorEngine) (r : RunId) (k : JobId) : Prop :=
  ∃ job, e.store.getJob k = some job ∧ job.runId = r ∧ job.status.unfinished = true

/-- What a successful cancellation leaves behind: the unfinished jobs of the run
failed and without a slot, none of its jobs queued, its record cancelled, and
everything else as it was. -/
structure CancelledRun (w : World) (e e' : OrchestratorEngine) (r : RunId) : Prop where
  getJob_cancelled : ∀ k, e.Cancels r k →
    e'.store.getJob k = (e.store.getJob k).map (Job.fail w "cancelled by user")
  getJob_other : ∀ k, ¬ e.Cancels r k → e'.store.getJob k = e.store.getJob k
  getRun_self : ∃ run, e'.store.getRun r = some run ∧ run.status = .cancelled
  getRun_ne : ∀ k, k ≠ r → e'.store.getRun k = e.store.getRun k
  getChannel : ∀ k, e'.store.getChannel k = e.store.getChannel k
  queue : e'.readyQueue = e.readyQueue.filter (fun jid =>
    ((e.store.getJob jid).map (fun j => j.runId != r)).getD true)
  active_cancelled : ∀ k, e.Cancels r k → e'.activeJobs.get k = none
  active_other : ∀ k, ¬ e.Cancels r k → e'.activeJobs.get k = e.activeJobs.get k
  heartbeat_cancelled : ∀ k, e.Cancels r k → e'.lastHeartbeat.get k = none
  heartbeat_other : ∀ k, ¬ e.Cancels r k → e'.lastHeartbeat.get k = e.lastHeartbeat.get k
  len : e'.activeJobs.len ≤ e.activeJobs.len
  ids : e'.ids = e.ids
  maxConcurrency : e'.maxConcurrency = e.maxConcurrency

/-- A job that still holds a slot has not been cancelled. -/
theorem CancelledRun.active_kept {w : World} {e e' : OrchestratorEngine} {r r' : RunId} {k : JobId}
    (h : CancelledRun w e e' r) (hk : e'.activeJobs.get k = some r') :
    ¬ e.Cancels r k ∧ e.activeJobs.get k = some r' := by
  by_cases hcan : e.Cancels r k
  · rw [h.active_cancelled k hcan] at hk
    cases hk
  · exact ⟨hcan, (h.active_other k hcan).symm.trans hk⟩

theorem cancels_jobsToCancel {w : World} {e : OrchestratorEngine} {r : RunId} {k : JobId} :
    cancels (e.jobsToCancel w r) k ↔ e.Cancels r k := by
  unfold cancels jobsToCancel Cancels
  refine ⟨?_, ?_⟩
  · intro h
    obtain ⟨st, hmem, hst⟩ := h
    obtain ⟨job, hjob, heq⟩ := List.mem_map.mp hmem
    cases heq
    obtain ⟨hget, hr⟩ := RunStore.mem_listRunJobs.mp hjob
    exact ⟨job, hget, hr, hst⟩
  · intro h
    obtain ⟨job, hget, hr, hst⟩ := h
    have hid := RunStore.jobId_of_getJob hget
    subst hid
    exact ⟨job.status, List.mem_map.mpr ⟨job, RunStore.mem_listRunJobs.mpr ⟨hget, hr⟩, rfl⟩, hst⟩

/-- Once the loop is through, draining the queue and marking the run ends the cancellation. -/
theorem cancelledRun_finishCancel {w : World} {e e' : OrchestratorEngine} {r : RunId} {run : Run}
    (hrun : e.store.getRun r = some run)
    (hloop : CancelLoop w e e' r (cancels (e.jobsToCancel w r))) :
    CancelledRun w e (e'.finishCancel w r) r := by
  refine ⟨?_, ?_, ?_, ?_, ?_, ?_, ?_, ?_, ?_, ?_, ?_, ?_, ?_⟩
  · exact fun k hk => hloop.getJob_cancelled k (cancels_jobsToCancel.mpr hk)
  · exact fun k hk => hloop.getJob_other k (fun h => hk (cancels_jobsToCancel.mp h))
  · have hsome : (e'.store.getRun r).isSome = true := by
      rw [hloop.getRun_isSome, hrun]
      rfl
    obtain ⟨run', hrun'⟩ := Option.isSome_iff_exists.mp hsome
    refine ⟨run'.cancel w, ?_, rfl⟩
    refine (RunStore.getRun_alterRun ..).trans ?_
    rw [if_pos rfl, hrun']
    rfl
  · intro k hk
    refine (RunStore.getRun_alterRun ..).trans ?_
    rw [if_neg hk, hloop.getRun_ne k hk]
  · exact hloop.getChannel
  · -- the jobs that were queued again are of the run, so they are dropped with the rest of it
    obtain ⟨pushed, hq, hp⟩ := hloop.queue
    have hkeep : ∀ k, ((e'.store.getJob k).map (fun j => j.runId != r)).getD true =
        ((e.store.getJob k).map (fun j => j.runId != r)).getD true := by
      intro k
      by_cases hc : cancels (e.jobsToCancel w r) k
      · rw [hloop.getJob_cancelled k hc]
        cases e.store.getJob k <;> simp
      · rw [hloop.getJob_other k hc]
    have hdrop : pushed.filter (fun k =>
        ((e.store.getJob k).map (fun j => j.runId != r)).getD true) = [] := by
      rw [List.filter_eq_nil_iff]
      intro k hk
      obtain ⟨job, hget, hr, _⟩ := cancels_jobsToCancel.mp (hp k hk)
      simp [hget, hr]
    show e'.readyQueue.filter _ = _
    rw [hq, List.filter_append]
    simp only [hkeep]
    rw [hdrop, List.append_nil]
  · exact fun k hk => hloop.active_cancelled k (cancels_jobsToCancel.mpr hk)
  · exact fun k hk => hloop.active_other k (fun h => hk (cancels_jobsToCancel.mp h))
  · exact fun k hk => hloop.heartbeat_cancelled k (cancels_jobsToCancel.mpr hk)
  · exact fun k hk => hloop.heartbeat_other k (fun h => hk (cancels_jobsToCancel.mp h))
  · exact hloop.len
  · exact hloop.ids
  · exact hloop.maxConcurrency

/-- A cancellation is refused and changes nothing, or the run is pending or
running and `CancelledRun` holds afterwards. -/
theorem cancelRun_cases (w : World) {e : OrchestratorEngine} (hhome : e.Home) (r : RunId) :
    (∃ err, e.cancelRun w r = (.error err, e)) ∨
    (∃ msg run, (e.cancelRun w r).1 = .ok msg ∧ e.store.getRun r = some run ∧
      (run.status = .running ∨ run.status = .pending) ∧
      CancelledRun w e (e.cancelRun w r).2 r) := by
  cases hrun : e.store.getRun r with
  | none =>
    left
    exact ⟨"run '" ++ r ++ "' not found", by rw [cancelRun, hrun]⟩
  | some run =>
    by_cases hopen : run.status = .running ∨ run.status = .pending
    · right
      have hb : (run.status != .running && run.status != .pending) = false := by
        rcases hopen with h | h <;> simp [h]
      have hnd : ((e.jobsToCancel w r).map Prod.fst).Nodup := by
        rw [jobsToCancel, List.map_map]
        exact RunStore.listRunJobs_nodup_ids w e.store r
      have hrun' : ∀ k ∈ (e.jobsToCancel w r).map Prod.fst, ∃ job,
          e.store.getJob k = some job ∧ job.runId = r := by
        intro k hk
        rw [jobsToCancel, List.map_map] at hk
        obtain ⟨job, hjob, rfl⟩ := List.mem_map.mp hk
        obtain ⟨hget, hr⟩ := RunStore.mem_listRunJobs.mp hjob
        exact ⟨job, hget, hr⟩
      have hloop := cancelLoop w r (e.jobsToCancel w r) (e := e) (n := 0) hnd (by
        intro k hk r' hr'
        obtain ⟨job, hget, hr⟩ := hrun' k hk
        exact (hhome k r' job hr' hget).symm.trans hr)
      have heq : e.cancelRun w r =
          (.ok ("run '" ++ r ++ "' cancelled (" ++
            toString ((e.jobsToCancel w r).foldl (cancelJob w) (e, 0)).2 ++ " jobs cancelled)"),
          (((e.jobsToCancel w r).foldl (cancelJob w) (e, 0)).1).finishCancel w r) := by
        simp only [cancelRun, hrun, hb]
        rfl
      rw [heq]
      generalize ((e.jobsToCancel w r).foldl (cancelJob w) (e, 0)).1 = e' at hloop
      exact ⟨_, run, rfl, rfl, hopen, cancelledRun_finishCancel hrun hloop⟩
    · left
      have hb : (run.status != .running && run.status != .pending) = true := by
        rw [not_or] at hopen
        simp [hopen]
      exact ⟨"run '" ++ r ++ "' is already " ++ run.status.text, by
        simp only [cancelRun, hrun, hb, if_true]⟩

/-- The jobs after a cancellation were there before, in the same runs. -/
theorem CancelledRun.job_before {w : World} {e e' : OrchestratorEngine} {r : RunId}
    (hc : CancelledRun w e e' r) {k : JobId} {job' : Job}
    (hk : e'.store.getJob k = some job') :
    ∃ job, e.store.getJob k = some job ∧ job'.runId = job.runId := by
  by_cases hcan : e.Cancels r k
  · rw [hc.getJob_cancelled k hcan] at hk
    obtain ⟨job, hjob, rfl⟩ := Option.map_eq_some_iff.mp hk
    exact ⟨job, hjob, Job.fail_runId ..⟩
  · exact ⟨job', (hc.getJob_other k hcan).symm.trans hk, rfl⟩

/-! ## Channels -/

/-- Only channels differ, and of those only some that satisfy `S`; a channel
keeps its run and its participants. -/
structure ChannelStep (e e' : OrchestratorEngine) (S : Channel → Prop) : Prop where
  frame : Frame e e'
  lastHeartbeat : e'.lastHeartbeat = e.lastHeartbeat
  channel : ∀ k, e'.store.getChannel k = e.store.getChannel k ∨
    ∃ c c', e.store.getChannel k = some c ∧ e'.store.getChannel k = some c' ∧ S c ∧
      c'.runId = c.runId ∧ c'.participants = c.participants

theorem ChannelStep.refl (e : OrchestratorEngine) (S : Channel → Prop) : ChannelStep e e S :=
  ⟨.refl e, rfl, fun _ => Or.inl rfl⟩

/-- Every channel after the step was there before, in the same run and between
the same jobs. -/
theorem ChannelStep.before {e e' : OrchestratorEngine} {S : Channel → Prop}
    (h : ChannelStep e e' S) {k : ChannelId} {c' : Channel}
    (hc : e'.store.getChannel k = some c') : ∃ c, e.store.getChannel k = some c ∧
      c'.runId = c.runId ∧ c'.participants = c.participants := by
  rcases h.channel k with heq | ⟨c, c'', hget, hget', _, hr, hp⟩
  · exact ⟨c', heq ▸ hc, rfl, rfl⟩
  · rw [hget'] at hc
    cases hc
    exact ⟨c, hget, hr, hp⟩

section
variable {w : World} {e : OrchestratorEngine}

theorem channelStep_alter {k : ChannelId} {f : Channel → Channel}
    (hf : ∀ c, (f c).channelId = c.channelId)
    (hkeep : ∀ c, (f c).runId = c.runId ∧ (f c).participants = c.participants) :
    ChannelStep e { e with store := e.store.alterChannel k f hf } (fun c => c.channelId = k) := by
  refine ⟨⟨fun _ => rfl, fun _ => rfl, rfl, rfl, rfl, rfl⟩, rfl, ?_⟩
  intro k'
  show (e.store.alterChannel k f hf).getChannel k' = _ ∨ _
  by_cases hk : k' = k
  · subst hk
    cases hget : e.store.getChannel k' with
    | none =>
      left
      rw [RunStore.getChannel_alterChannel, if_pos rfl, hget]
      rfl
    | some c =>
      right
      refine ⟨c, f c, rfl, ?_, RunStore.channelId_of_getChannel hget, hkeep c⟩
      show (e.store.alterChannel k' f hf).getChannel k' = _
      rw [RunStore.getChannel_alterChannel, if_pos rfl, hget]
      rfl
  · left
    rw [RunStore.getChannel_alterChannel, if_neg hk]

theorem ChannelStep.trans {e₁ e₂ e₃ : OrchestratorEngine} {k : ChannelId}
    (h₁ : ChannelStep e₁ e₂ (fun c => c.channelId = k))
    (h₂ : ChannelStep e₂ e₃ (fun c => c.channelId = k)) :
    ChannelStep e₁ e₃ (fun c => c.channelId = k) := by
  obtain ⟨f₁, b₁, c₁⟩ := h₁
  obtain ⟨f₂, b₂, c₂⟩ := h₂
  refine ⟨⟨fun k => (f₂.getJob k).trans (f₁.getJob k), fun k => (f₂.getRun k).trans (f₁.getRun k),
    f₂.readyQueue.trans f₁.readyQueue, f₂.activeJobs.trans f₁.activeJobs,
    f₂.maxConcurrency.trans f₁.maxConcurrency, f₂.ids.trans f₁.ids⟩, b₂.trans b₁, ?_⟩
  intro k'
  rcases c₂ k' with h₂ | ⟨c, c', hc, hc', hS, hr, hp⟩
  · rw [h₂]
    exact c₁ k'
  · rcases c₁ k' with h₁ | ⟨a, a', ha, ha', hS', hr', hp'⟩
    · right
      exact ⟨c, c', h₁ ▸ hc, hc', hS, hr, hp⟩
    · right
      rw [ha'] at hc
      cases hc
      exact ⟨a, c', ha, hc', hS', hr.trans hr', hp.trans hp'⟩

theorem channelStep_route (chId : ChannelId) (fromJob : JobId) (content : String) :
    ChannelStep e (e.routeChannelMessage w chId fromJob content).2
      (fun c => c.channelId = chId) := by
  unfold routeChannelMessage
  split
  · exact .refl e _
  · split
    · exact .refl e _
    · split
      · exact .refl e _
      · split
        · exact .refl e _
        · rename_i ch _ _ _ _
          dsimp only
          generalize (if (ch.currentSpeakerIdx + 1) % ch.participants.length == 0 then
            u32Succ ch.currentRound else ch.currentRound) = newRound
          have hrec := channelStep_alter (e := e) (k := chId) (Channel.record_channelId w fromJob
            content ((ch.currentSpeakerIdx + 1) % ch.participants.length) newRound)
            (fun _ => ⟨rfl, rfl⟩)
          split
          · exact hrec.trans (channelStep_alter Channel.close_channelId (fun _ => ⟨rfl, rfl⟩))
          · exact hrec

theorem channelStep_done (chId : ChannelId) (fromJob : JobId) :
    ChannelStep e (e.handleChannelDone chId fromJob).2 (fun c => c.channelId = chId) := by
  unfold handleChannelDone
  split
  · exact .refl e _
  · split
    · exact .refl e _
    · split
      · exact .refl e _
      · exact channelStep_alter Channel.close_channelId (fun _ => ⟨rfl, rfl⟩)

theorem channelStep_peerFailure (chId : ChannelId) (failedJob : JobId) :
    ChannelStep e (e.handleChannelPeerFailure chId failedJob).2
      (fun c => c.channelId = chId) := by
  unfold handleChannelPeerFailure
  split
  · exact .refl e _
  · rename_i ch _
    dsimp only
    cases ch.onPeerFailure <;>
      exact channelStep_alter Channel.close_channelId (fun _ => ⟨rfl, rfl⟩)

/-- Routing a message closes no channel but the one it is sent on. -/
theorem route_close {chId closed : ChannelId} {fromJob : JobId} {content : String}
    (h : (e.routeChannelMessage w chId fromJob content).1 = .close closed) : closed = chId := by
  unfold routeChannelMessage at h
  repeat' split at h
  all_goals (dsimp only at h; repeat' split at h)
  all_goals (cases h <;> rfl)

/-- The peers a failure policy kills are participants of the channel. -/
theorem killParticipants_mem {chId : ChannelId} {failedJob : JobId} {jobIds : List JobId}
    (h : (e.handleChannelPeerFailure chId failedJob).1 = .killParticipants jobIds) :
    ∃ c, e.store.getChannel chId = some c ∧ ∀ k ∈ jobIds, k ∈ c.participants ∧ k ≠ failedJob := by
  unfold handleChannelPeerFailure at h
  split at h
  · cases h
  · rename_i ch hget
    dsimp only at h
    cases hpol : ch.onPeerFailure <;> rw [hpol] at h
    · cases h
      refine ⟨ch, hget, fun k hk => ?_⟩
      rw [List.mem_filter, bne_iff_ne] at hk
      exact hk
    · cases h

/-! ## Activation -/

/-- Whether the scan may activate the channel, as far as its flags and its
participants go. -/
def activatable (s : RunStore) (c : Channel) : Bool :=
  !c.active && !c.closed && allRunning s c

theorem allRunning_congr {s s' : RunStore} (h : ∀ k, s'.getJob k = s.getJob k) (c : Channel) :
    allRunning s' c = allRunning s c := by
  simp only [allRunning, h]

/-- What the scan has done to the store so far: every channel that satisfies `P`
is active, the others are as they were, and `l` lists those that were activated. -/
structure Activated (s s' : RunStore) (l : List ChannelId) (P : Channel → Bool) : Prop where
  getJob : ∀ k, s'.getJob k = s.getJob k
  getRun : ∀ k, s'.getRun k = s.getRun k
  getChannel : ∀ k, s'.getChannel k =
    (s.getChannel k).map (fun c => if P c then c.activate else c)
  listed : ∀ k, k ∈ l ↔ ∃ c, s.getChannel k = some c ∧ P c = true

theorem Activated.congr {s s' : RunStore} {l : List ChannelId} {P P' : Channel → Bool}
    (h : Activated s s' l P) (hP : ∀ k c, s.getChannel k = some c → P c = P' c) :
    Activated s s' l P' := by
  refine ⟨h.getJob, h.getRun, ?_, ?_⟩
  · intro k
    rw [h.getChannel]
    cases hc : s.getChannel k with
    | none => rfl
    | some c => simp only [Option.map_some, hP k c hc]
  · intro k
    rw [h.listed]
    refine ⟨?_, ?_⟩
    · intro hk
      obtain ⟨c, hc, hPc⟩ := hk
      exact ⟨c, hc, (hP k c hc).symm.trans hPc⟩
    · intro hk
      obtain ⟨c, hc, hPc⟩ := hk
      exact ⟨c, hc, (hP k c hc).trans hPc⟩

/-- The scan comes to one more channel. -/
theorem activated_channel {s s' : RunStore} {acc : List ChannelId} {P : Channel → Bool}
    {chId : ChannelId} {c : Channel} (hc : s.getChannel chId = some c)
    (h : Activated s s' acc P) :
    Activated s (activateChannel (acc, s') chId).2 (activateChannel (acc, s') chId).1
      (fun c' => P c' || (chId == c'.channelId && allRunning s c')) := by
  have hid := RunStore.channelId_of_getChannel hc
  have hget : s'.getChannel chId = some (if P c then c.activate else c) := by
    rw [h.getChannel, hc]
    rfl
  have hall : allRunning s' (if P c then c.activate else c) = allRunning s c := by
    rw [allRunning_congr h.getJob]
    split <;> rfl
  cases hrun : allRunning s c with
  | true =>
    have hstep : activateChannel (acc, s') chId = (acc ++ [chId],
        s'.alterChannel chId Channel.activate Channel.activate_channelId) := by
      simp only [activateChannel, hget, hall, hrun, if_true]
    rw [hstep]
    refine ⟨h.getJob, h.getRun, ?_, ?_⟩
    · intro k
      rw [RunStore.getChannel_alterChannel]
      by_cases hk : k = chId
      · -- activating a channel twice is activating it once
        subst hk
        rw [if_pos rfl, hget, hc]
        simp only [Option.map_some, hid, beq_self_eq_true, hrun, Bool.and_self, Bool.or_true,
          if_true]
        split <;> rfl
      · rw [if_neg hk, h.getChannel]
        cases hck : s.getChannel k with
        | none => rfl
        | some ck =>
          have hidk := RunStore.channelId_of_getChannel hck
          have hne : ¬ chId = ck.channelId := fun h => hk (hidk.symm.trans h.symm)
          simp [hne]
    · intro k
      rw [List.mem_append, List.mem_singleton, h.listed]
      refine ⟨?_, ?_⟩
      · intro h
        rcases h with ⟨ck, hck, hPk⟩ | rfl
        · exact ⟨ck, hck, by simp [hPk]⟩
        · exact ⟨c, hc, by simp [hid, hrun]⟩
      · intro h
        obtain ⟨ck, hck, hPk⟩ := h
        have hidk := RunStore.channelId_of_getChannel hck
        rw [Bool.or_eq_true, Bool.and_eq_true, beq_iff_eq] at hPk
        rcases hPk with hPk | ⟨hPk, _⟩
        · exact Or.inl ⟨ck, hck, hPk⟩
        · exact Or.inr (hidk.symm.trans hPk.symm)
  | false =>
    have hstep : activateChannel (acc, s') chId = (acc, s') := by
      simp only [activateChannel, hget, hall, hrun]
      rfl
    rw [hstep]
    refine h.congr (fun k ck hck => ?_)
    by_cases hk : chId = ck.channelId
    · obtain rfl : k = chId := (RunStore.channelId_of_getChannel hck).symm.trans hk.symm
      cases hc.symm.trans hck
      simp [hrun]
    · simp [hk]

theorem activated_channels {s s' : RunStore} {acc : List ChannelId} {P : Channel → Bool}
    (l : List ChannelId) : (∀ k ∈ l, ∃ c, s.getChannel k = some c) →
      Activated s s' acc P →
      Activated s (l.foldl activateChannel (acc, s')).2 (l.foldl activateChannel (acc, s')).1
        (fun c => P c || (l.contains c.channelId && allRunning s c)) := by
  induction l generalizing s' acc P with
  | nil =>
    intro _ h
    simpa using h
  | cons chId l ih =>
    intro hl h
    obtain ⟨c, hc⟩ := hl chId List.mem_cons_self
    have hstep := ih (fun k hk => hl k (List.mem_cons_of_mem _ hk)) (activated_channel hc h)
    refine hstep.congr (fun k c' _ => ?_)
    rw [List.contains_cons, Bool.beq_comm]
    cases P c' <;> cases (c'.channelId == chId) <;> cases l.contains c'.channelId <;>
      cases allRunning s c' <;> rfl

/-- Activating the channels of one more run. -/
theorem activated_run {s s' : RunStore} {acc : List ChannelId} {R : RunId → Bool} (r : RunId)
    (h : Activated s s' acc (fun c => R c.runId && activatable s c)) :
    Activated s (activateRunChannels w (acc, s') r).2 (activateRunChannels w (acc, s') r).1
      (fun c => (R c.runId || r == c.runId) && activatable s c) := by
  unfold activateRunChannels
  generalize hl : ((s'.listRunChannels w r).filter (fun c => !c.active && !c.closed)).map
    (·.channelId) = l
  have hmem : ∀ k c, s.getChannel k = some c → (k ∈ l ↔
      c.runId = r ∧ (if R c.runId && activatable s c then c.activate else c).active = false ∧
        c.closed = false) := by
    intro k c hc
    have hget : s'.getChannel k =
        some (if R c.runId && activatable s c then c.activate else c) := by
      rw [h.getChannel, hc]
      rfl
    have hrun : (if R c.runId && activatable s c then c.activate else c).runId = c.runId := by
      split <;> rfl
    have hclosed : (if R c.runId && activatable s c then c.activate else c).closed = c.closed := by
      split <;> rfl
    generalize (if R c.runId && activatable s c then c.activate else c) = x at hget hrun hclosed ⊢
    rw [← hl, List.mem_map]
    refine ⟨?_, ?_⟩
    · intro h
      obtain ⟨y, hy, rfl⟩ := h
      rw [List.mem_filter, RunStore.mem_listRunChannels, Bool.and_eq_true, Bool.not_eq_true',
        Bool.not_eq_true'] at hy
      obtain ⟨⟨hgx, hrx⟩, hax, hclx⟩ := hy
      rw [hget] at hgx
      cases hgx
      exact ⟨hrun.symm.trans hrx, hax, hclosed.symm.trans hclx⟩
    · intro h
      obtain ⟨hr, ha, hcl⟩ := h
      refine ⟨_, ?_, RunStore.channelId_of_getChannel hget⟩
      rw [List.mem_filter, RunStore.mem_listRunChannels, Bool.and_eq_true, Bool.not_eq_true',
        Bool.not_eq_true']
      refine ⟨⟨?_, hrun.trans hr⟩, ha, hclosed.trans hcl⟩
      exact (congrArg s'.getChannel (RunStore.channelId_of_getChannel hget)).trans hget
  have hexists : ∀ k ∈ l, ∃ c, s.getChannel k = some c := by
    intro k hk
    rw [← hl, List.mem_map] at hk
    obtain ⟨x, hx, rfl⟩ := hk
    rw [List.mem_filter, RunStore.mem_listRunChannels, h.getChannel] at hx
    obtain ⟨c, hc, _⟩ := Option.map_eq_some_iff.mp hx.1.1
    exact ⟨c, hc⟩
  have hstep := activated_channels l hexists h
  refine hstep.congr (fun k c hc => ?_)
  have hid := RunStore.channelId_of_getChannel hc
  have hcontains : l.contains c.channelId = true ↔ _ :=
    List.contains_iff_mem.trans (hid ▸ hmem k c hc)
  rw [Bool.eq_iff_iff]
  simp only [Bool.or_eq_true, Bool.and_eq_true, hcontains, beq_iff_eq]
  refine ⟨?_, ?_⟩
  · intro h
    rcases h with ⟨hR, ha⟩ | ⟨⟨hr, hact, hcl⟩, hrun⟩
    · exact ⟨Or.inl hR, ha⟩
    · refine ⟨Or.inr hr.symm, ?_⟩
      split at hact
      · cases hact
      · simp [activatable, hact, hcl, hrun]
  · intro h
    obtain ⟨hR | hr, ha⟩ := h
    · exact Or.inl ⟨hR, ha⟩
    · by_cases hR : R c.runId = true
      · exact Or.inl ⟨hR, ha⟩
      · right
        have hparts := ha
        simp only [activatable, Bool.and_eq_true, Bool.not_eq_true'] at hparts
        refine ⟨⟨hr.symm, ?_, hparts.1.2⟩, hparts.2⟩
        simp [hR, hparts.1.1]

theorem activated_runs {s s' : RunStore} {acc : List ChannelId} {R : RunId → Bool}
    (rs : List RunId) (h : Activated s s' acc (fun c => R c.runId && activatable s c)) :
    Activated s (rs.foldl (activateRunChannels w) (acc, s')).2
      (rs.foldl (activateRunChannels w) (acc, s')).1
      (fun c => (R c.runId || rs.contains c.runId) && activatable s c) := by
  induction rs generalizing s' acc R with
  | nil => simpa using h
  | cons r rs ih =>
    have hstep := ih (R := fun r' => R r' || r == r') (activated_run (w := w) r h)
    refine hstep.congr (fun k c _ => ?_)
    rw [List.contains_cons, Bool.beq_comm, Bool.or_assoc]

theorem mem_activeRunIds {r : RunId} :
    r ∈ e.activeRunIds w ↔ ∃ k, e.activeJobs.get k = some r := by
  unfold activeRunIds
  rw [((w.order .runIds).perm _).mem_iff, List.mem_dedup, HashMap.mem_valuesIn]

/-- A channel that `activate_ready_channels` activates. -/
def Activates (e : OrchestratorEngine) (c : Channel) : Prop :=
  (∃ k, e.activeJobs.get k = some c.runId) ∧ activatable e.store c = true

theorem activated_activateReadyChannels : Activated e.store (e.activateReadyChannels w).2.store
    (e.activateReadyChannels w).1
    (fun c => (e.activeRunIds w).contains c.runId && activatable e.store c) := by
  have h : Activated e.store e.store [] (fun c => (fun _ => false) c.runId &&
      activatable e.store c) := by
    refine ⟨fun _ => rfl, fun _ => rfl, ?_, ?_⟩
    · intro k
      simp
    · intro k
      simp
  have hruns := activated_runs (w := w) (R := fun _ => false) (e.activeRunIds w) h
  simp only [Bool.false_or] at hruns
  exact hruns

theorem activates_iff {c : Channel} :
    ((e.activeRunIds w).contains c.runId && activatable e.store c) = true ↔ e.Activates c := by
  rw [Bool.and_eq_true, List.contains_iff_mem, mem_activeRunIds]
  rfl

theorem mem_activateReadyChannels {k : ChannelId} : k ∈ (e.activateReadyChannels w).1 ↔
    ∃ c, e.store.getChannel k = some c ∧ e.Activates c := by
  rw [activated_activateReadyChannels.listed]
  simp only [activates_iff]

theorem channelStep_activate : ChannelStep e (e.activateReadyChannels w).2 e.Activates := by
  have h := activated_activateReadyChannels (w := w) (e := e)
  refine ⟨⟨h.getJob, h.getRun, rfl, rfl, rfl, rfl⟩, rfl, ?_⟩
  intro k
  rw [h.getChannel]
  cases hc : e.store.getChannel k with
  | none => exact Or.inl rfl
  | some c =>
    by_cases hP : ((e.activeRunIds w).contains c.runId && activatable e.store c) = true
    · right
      refine ⟨c, c.activate, rfl, ?_, activates_iff.mp hP, rfl, rfl⟩
      rw [Option.map_some, if_pos hP]
    · left
      rw [Option.map_some, if_neg hP]

end

/-- Remove a run with everything that belongs to it from the store. -/
def removeRun (w : World) (e : OrchestratorEngine) (runId : RunId) : OrchestratorEngine :=
  { e with store := (e.store.removeRun w runId).2 }

def createArtifact (e : OrchestratorEngine) (a : Artifact) : OrchestratorEngine :=
  { e with store := e.store.createArtifact a }

/-- `materialize_plan` on the engine's store, with nothing queued. -/
def materialize (w : World) (e : OrchestratorEngine) (runId : RunId) (parentJobId : JobId)
    (plan : ExecutionPlan) : OrchestratorEngine :=
  let (_, store, ids) := materializePlan w e.store e.ids runId parentJobId plan
  { e with store := store, ids := ids }

end OrchestratorEngine

/-- A call made on an engine, with its arguments. -/
inductive Call where
  | submitRun (task : String)
  | nextJob
  | markRunning (jobId : JobId)
  | startNext
  | recordHeartbeat (jobId : JobId)
  | markCompleted (jobId : JobId) (outputArtifactIds : List ArtifactId)
  | markFailed (jobId : JobId) (error : String)
  | materializePlan (runId : RunId) (parentJobId : JobId) (plan : ExecutionPlan)
  | acceptPlan (runId : RunId) (parentJobId : JobId) (plan : ExecutionPlan)
  | handleReviewCompletion (reviewerJobId : JobId) (decision : ReviewDecision)
      (maxRevisions : Nat)
  | activateReadyChannels
  | routeChannelMessage (channelId : ChannelId) (fromJob : JobId) (content : String)
  | handleChannelDone (channelId : ChannelId) (fromJob : JobId)
  | handleChannelPeerFailure (channelId : ChannelId) (failedJob : JobId)
  | createArtifact (artifact : Artifact)
  | cancelRun (runId : RunId)
  | removeRun (runId : RunId)

/-- The engine after a call made in the world `w`. -/
def Call.apply (w : World) (e : OrchestratorEngine) : Call → OrchestratorEngine
  | .submitRun task => (e.submitRun w task).2
  | .nextJob => e.nextJob.2
  | .markRunning j => e.markRunning w j
  | .startNext => (e.startNext w).2
  | .recordHeartbeat j => e.recordHeartbeat w j
  | .markCompleted j o => e.markCompleted w j o
  | .markFailed j err => e.markFailed w j err
  | .materializePlan r p plan => e.materialize w r p plan
  | .acceptPlan r p plan => e.acceptPlan w r p plan
  | .handleReviewCompletion j d m => (e.handleReviewCompletion w j d m).2
  | .activateReadyChannels => (e.activateReadyChannels w).2
  | .routeChannelMessage c j m => (e.routeChannelMessage w c j m).2
  | .handleChannelDone c j => (e.handleChannelDone c j).2
  | .handleChannelPeerFailure c j => (e.handleChannelPeerFailure c j).2
  | .createArtifact a => e.createArtifact a
  | .cancelRun r => (e.cancelRun w r).2
  | .removeRun r => e.removeRun w r

/-- One step of an engine run: a call, in the world it is made in. -/
def engineStep (e : OrchestratorEngine) (c : World × Call) : OrchestratorEngine :=
  c.2.apply c.1 e

end ZeptoPM
