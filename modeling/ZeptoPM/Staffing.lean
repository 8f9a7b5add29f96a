import ZeptoPM.Restarts

/- The worker entries of the daemon and the slots of its engine. They are kept apart, one by
   the name of the entry and one by the id of the job, and every handler that frees a slot
   first takes the entry away. So whatever events come, in whatever order, every worker entry
   is that of an active job, and there are no more of them than slots (`staffed_run`). -/
namespace ZeptoPM
open OrchestratorEngine Daemon

/-! ## Slots -/

/-- The job keeps its slot in the call. -/
def Call.Spares (j : JobId) : Call → Prop
  | .markCompleted k _ | .markFailed k _ => k ≠ j
  | .cancelRun _ => False
  | _ => True

def Action.Spares (j : JobId) : Action → Prop
  | .call _ c => c.Spares j
  | .hydrate => False
  | _ => True

section
variable {w : World} {e : OrchestratorEngine} {j : JobId} {r : RunId}

theorem active_insert {m : HashMap JobId RunId} (h : m.get j = some r) (k : JobId) (r' : RunId) :
    ∃ r'', (m.insert k r').get j = some r'' := by
  rw [HashMap.get_insert]
  split
  · exact ⟨r', rfl⟩
  · exact ⟨r, h⟩

theorem active_apply {c : Call} (hc : c.Spares j) (h : e.activeJobs.get j = some r) :
    ∃ r', (c.apply w e).activeJobs.get j = some r' := by
  have hsame : ∀ {e' : OrchestratorEngine}, e'.activeJobs = e.activeJobs →
      ∃ r', e'.activeJobs.get j = some r' := fun heq => ⟨r, heq ▸ h⟩
  cases c with
  | submitRun task => exact hsame rfl
  | nextJob =>
    show ∃ r', e.nextJob.2.activeJobs.get j = some r'
    rcases nextJob_cases e with ⟨q, heq, _⟩ | ⟨job, q, _, _, _, heq⟩
    · rw [heq]
      exact hsame rfl
    · rw [heq]
      exact active_insert h ..
  | markRunning k =>
    refine hsame ?_
    show (e.markRunning w k).activeJobs = _
    unfold markRunning
    cases e.activeJobs.get k <;> rfl
  | startNext =>
    show ∃ r', (e.startNext w).2.activeJobs.get j = some r'
    rcases startNext_cases w e with ⟨q, heq, _⟩ | ⟨job, q, _, _, _, heq⟩
    · rw [heq]
      exact hsame rfl
    · rw [heq]
      exact active_insert h ..
  | recordHeartbeat k =>
    refine hsame ?_
    show (e.recordHeartbeat w k).activeJobs = _
    unfold recordHeartbeat
    split <;> rfl
  | markCompleted k o =>
    refine ⟨r, ?_⟩
    show (e.markCompleted w k o).activeJobs.get j = _
    rw [activeJobs_markCompleted, HashMap.get_remove, if_neg (Ne.symm hc), h]
  | markFailed k err =>
    refine ⟨r, ?_⟩
    show (e.markFailed w k err).activeJobs.get j = _
    rw [activeJobs_markFailed, HashMap.get_remove, if_neg (Ne.symm hc), h]
  | materializePlan r p plan => exact hsame rfl
  | acceptPlan r p plan => exact hsame rfl
  | handleReviewCompletion k decision m =>
    refine hsame ?_
    show (e.handleReviewCompletion w k decision m).2.activeJobs = _
    rcases review_cases w e k decision m with heq | ⟨_, _, _, _, _, _, _, heq⟩
    · rw [heq]
    · rw [heq]
      rfl
  | activateReadyChannels => exact hsame channelStep_activate.frame.activeJobs
  | routeChannelMessage ch k m => exact hsame (channelStep_route ch k m).frame.activeJobs
  | handleChannelDone ch k => exact hsame (channelStep_done ch k).frame.activeJobs
  | handleChannelPeerFailure ch k => exact hsame (channelStep_peerFailure ch k).frame.activeJobs
  | createArtifact a => exact hsame rfl
  | cancelRun r => exact absurd hc (fun h => h)
  | removeRun r => exact hsame rfl

theorem active_act {c : Core} {a : Action} (ha : a.Spares j)
    (h : c.engine.activeJobs.get j = some r) :
    ∃ r', (c.act w a).engine.activeJobs.get j = some r' := by
  cases a with
  | call r' f => exact active_apply ha h
  | hydrate => exact absurd ha (fun h => h)
  | persistRunState r' => exact ⟨r, h⟩
  | persistArtifact artifact => exact ⟨r, h⟩
  | genId pre => exact ⟨r, h⟩
  | expire r' => exact ⟨r, h⟩

end

/-! ## Entries -/

namespace Daemon

/-- Every worker entry is that of an active job. -/
def Staffed (d : Daemon) : Prop :=
  ∀ jobId agent, d.managed.get (workerName jobId) = some agent →
    ∃ r, d.engine.activeJobs.get jobId = some r

/-- No entry comes in, and worker entries go on being those of active jobs. -/
structure Ebbs (d d' : Daemon) : Prop where
  gone : ∀ k, d.managed.get k = none → d'.managed.get k = none
  staffed : d.Staffed → d'.Staffed

section
variable {w : World} {r : RunId} {d d' d'' : Daemon}

/-- No worker entry comes in, and the slots are the same. -/
theorem Staffed.of_entries (h : d.Staffed)
    (hm : ∀ jobId, (d'.managed.get (workerName jobId)).isSome = true →
      (d.managed.get (workerName jobId)).isSome = true)
    (hactive : d'.engine.activeJobs = d.engine.activeJobs) : d'.Staffed := by
  intro jobId agent hget
  obtain ⟨agent', hget'⟩ := Option.isSome_iff_exists.mp (hm jobId (by rw [hget]; rfl))
  rw [hactive]
  exact h jobId agent' hget'

theorem Staffed.act (h : d.Staffed) {a : Action}
    (ha : ∀ jobId agent, d.managed.get (workerName jobId) = some agent → a.Spares jobId) :
    (d.act w a).Staffed := by
  intro jobId agent hget
  obtain ⟨r, hactive⟩ := h jobId agent hget
  exact active_act (ha jobId agent hget) hactive

theorem Ebbs.refl (d : Daemon) : Ebbs d d := ⟨fun _ h => h, fun h => h⟩

theorem Ebbs.trans (h : Ebbs d d') (h' : Ebbs d' d'') : Ebbs d d'' :=
  ⟨fun k hk => h'.gone k (h.gone k hk), fun hd => h'.staffed (h.staffed hd)⟩

theorem ebbs_same (hm : d'.managed = d.managed) (hc : d'.core = d.core) : Ebbs d d' := by
  refine ⟨fun k hk => hm ▸ hk, fun h => h.of_entries (fun jobId => ?_) ?_⟩
  · rw [hm]
    exact fun h => h
  · unfold engine
    rw [hc]

theorem ebbs_send (d : Daemon) (effect : Effect) : Ebbs d (d.send effect) := ebbs_same rfl rfl

theorem ebbs_act (d : Daemon) {a : Action} (ha : ∀ jobId, a.Spares jobId) : Ebbs d (d.act w a) :=
  ⟨fun _ hk => hk, fun h => h.act (fun jobId _ _ => ha jobId)⟩

/-- The slot of a job is freed that has no entry. -/
theorem ebbs_free (j : JobId) {a : Action} (ha : ∀ jobId, jobId ≠ j → a.Spares jobId)
    (hgone : d.managed.get (workerName j) = none) : Ebbs d (d.act w a) := by
  refine ⟨fun _ hk => hk, fun h => h.act (fun jobId agent hget => ha jobId (fun hj => ?_))⟩
  rw [hj, hgone] at hget
  cases hget

theorem ebbs_removeManaged (d : Daemon) (name : String) : Ebbs d (d.removeManaged name) := by
  refine ⟨fun k hk => ?_, fun h jobId agent hget => ?_⟩
  · rw [removeManaged_managed, HashMap.get_remove, hk, ite_self]
  · exact h jobId agent (HashMap.get_of_get_remove hget).2

theorem removeManaged_gone (d : Daemon) (name : String) :
    (d.removeManaged name).managed.get name = none := by
  rw [removeManaged_managed, HashMap.get_remove, if_pos rfl]

theorem ebbs_stopWorker (d : Daemon) (name : String) : Ebbs d (d.stopWorker name) :=
  ebbs_same (stopWorker_managed d name) (by unfold stopWorker; split <;> rfl)

theorem ebbs_dropWorker (d : Daemon) (name : String) :
    Ebbs d ((d.stopWorker name).removeManaged name) :=
  (ebbs_stopWorker d name).trans (ebbs_removeManaged _ name)

theorem ebbs_foldl {α : Type} {g : Daemon → α → Daemon} (hg : ∀ d a, Ebbs d (g d a)) (l : List α)
    (d : Daemon) : Ebbs d (l.foldl g d) :=
  foldl_relates .refl .trans l (fun a _ d => hg d a) d

/-! ## Failures and completions -/

theorem ebbs_killPeer (jobId : JobId) (d : Daemon) (killId : JobId) :
    Ebbs d (killPeer w r jobId d killId) :=
  (ebbs_dropWorker d (workerName killId)).trans
    (ebbs_free killId (fun _ h => Ne.symm h) (removeManaged_gone _ _))

theorem ebbs_notifyPeer (message : String) (d : Daemon) (peerId : JobId) :
    Ebbs d (notifyPeer message d peerId) := by
  unfold notifyPeer
  split
  · exact ebbs_send ..
  · exact .refl d

theorem ebbs_failChannel (jobId : JobId) (d : Daemon) (chId : ChannelId) :
    Ebbs d (failChannel w r jobId d chId) := by
  have hact : Ebbs d (d.act w (.call r (.handleChannelPeerFailure chId jobId))) :=
    ebbs_act d (fun _ => True.intro)
  unfold failChannel
  dsimp only
  split
  · exact hact.trans (ebbs_foldl (ebbs_killPeer jobId) _ _)
  · exact hact.trans (ebbs_foldl (ebbs_notifyPeer _) _ _)
  · exact hact

theorem ebbs_handleChannelPeerFailures (jobId : JobId) (d : Daemon) :
    Ebbs d (handleChannelPeerFailures w r jobId d) := ebbs_foldl (ebbs_failChannel jobId) _ d

theorem ebbs_synthesizeChannelArtifact (d : Daemon) (jobId : JobId) (response : Option String) :
    Ebbs d (d.synthesizeChannelArtifact w r jobId response).2 := by
  unfold synthesizeChannelArtifact
  split
  · exact .refl d
  · unfold persistChannelArtifact
    dsimp only
    have hid : ∀ d : Daemon, Ebbs d (d.act w (.genId "art")) :=
      fun d => ebbs_act d (fun _ => True.intro)
    split
    · refine (hid d).trans (Ebbs.trans (ebbs_act _ ?_) (ebbs_act _ ?_))
      · exact fun _ => True.intro
      · exact fun _ => True.intro
    · exact hid d

theorem ebbs_finalResponse (d : Daemon) (jobId : JobId) :
    Ebbs d (d.finalResponse w jobId).2 := by
  unfold finalResponse
  split
  · split
    · exact ebbs_send ..
    · exact .refl d
  · exact .refl d

theorem ebbs_completeParticipant (channelId : ChannelId) (d : Daemon) (jobId : JobId) :
    Ebbs d (completeParticipant w r channelId d jobId) := by
  unfold completeParticipant
  dsimp only
  split
  · have hartifact := ebbs_synthesizeChannelArtifact (w := w) (r := r)
      ((((d.finalResponse w jobId).2.stopWorker (workerName jobId)).removeManaged
        (workerName jobId))) jobId (d.finalResponse w jobId).1
    refine (ebbs_finalResponse d jobId).trans ((ebbs_dropWorker _ _).trans
      (hartifact.trans (ebbs_free jobId (fun _ h => Ne.symm h) ?_)))
    exact hartifact.gone _ (removeManaged_gone _ _)
  · exact .refl d

theorem ebbs_completeClosedChannelParticipants (d : Daemon) (channelId : ChannelId) :
    Ebbs d (d.completeClosedChannelParticipants w r channelId) := by
  unfold completeClosedChannelParticipants
  split
  · exact .refl d
  · exact ebbs_foldl (ebbs_completeParticipant channelId) _ d

theorem ebbs_plannerOutput (jobId : JobId) (artifacts : List ArtifactId)
    (hgone : d.managed.get (workerName jobId) = none)
    (hd : d.plannerOutput w r jobId artifacts = .ok d') : Ebbs d d' := by
  unfold plannerOutput at hd
  split at hd
  · cases hd
    exact .refl d
  · split at hd
    · cases hd
    · split at hd
      · cases hd
        exact ebbs_free jobId (fun _ h => Ne.symm h) hgone
      · split at hd
        · cases hd
          exact ebbs_act d (fun _ => True.intro)
        · cases hd
          exact ebbs_free jobId (fun _ h => Ne.symm h) hgone

theorem ebbs_reviewerOutput (jobId : JobId) (hd : d.reviewerOutput w r jobId = .ok d') :
    Ebbs d d' := by
  unfold reviewerOutput at hd
  split at hd
  · cases hd
    exact .refl d
  · split at hd
    · cases hd
      exact .refl d
    · split at hd
      · cases hd
      · cases hd
        exact ebbs_act d (fun _ => True.intro)
      · cases hd
        exact .refl d

/-! ## The end of a handler -/

/-- A started job has its slot when its entry comes in. -/
theorem staffed_spawnReady (fuel : Nat) (h : d.Staffed) : (spawnReady w r fuel d).Staffed := by
  induction fuel generalizing d with
  | zero => exact h
  | succ fuel ih =>
    have hact : (d.act w (.call r .startNext)).Staffed := h.act (fun _ _ _ => True.intro)
    unfold spawnReady
    split
    · exact hact
    · rename_i job hjob
      refine ih (fun jobId agent hget => ?_)
      have hcore : ((d.act w (.call r .startNext)).spawnJobWorker w job).core =
          (d.act w (.call r .startNext)).core := (untouched_spawnJobWorker w _ job).1
      unfold engine
      rw [hcore]
      rw [spawnJobWorker_managed] at hget
      split at hget
      · exact hact jobId agent hget
      · rw [HashMap.get_insert] at hget
        split at hget
        · rename_i hname
          obtain ⟨q, _, _, _, hstarted⟩ := startNext_job w d.engine hjob
          refine ⟨job.runId, ?_⟩
          show (d.engine.startNext w).2.activeJobs.get jobId = _
          rw [hstarted, getActive_started, if_pos (workerName_injective hname)]
        · exact hact jobId agent hget

theorem ebbs_sendInitial (d : Daemon) (channelId : ChannelId) : Ebbs d (d.sendInitial channelId) :=
  ebbs_same (by
    unfold sendInitial
    split
    · rfl
    · split
      · split <;> rfl
      · rfl) (untouched_sendInitial d channelId).1

theorem staffed_finish (h : d.Staffed) : (finish w r d).Staffed := by
  have hspawned : (spawnLoop w r d).Staffed := staffed_spawnReady _ h
  have hactivated : Ebbs (spawnLoop w r d) (activateChannels w r (spawnLoop w r d)) := by
    refine Ebbs.trans (ebbs_act _ ?_) (ebbs_foldl ebbs_sendInitial _ _)
    exact fun _ => True.intro
  have hpersist : ∀ jobId, (Action.persistRunState r).Spares jobId := fun _ => True.intro
  exact (ebbs_act _ hpersist).staffed (hactivated.staffed hspawned)

/-! ## Events -/

theorem staffed_jobCompleted (h : d.Staffed) {jobId : JobId} {artifacts : List ArtifactId}
    (hd : d.jobCompleted w jobId artifacts = .ok d') : d'.Staffed := by
  have hgone := removeManaged_gone d (workerName jobId)
  have hcompleted : Ebbs d ((d.removeManaged (workerName jobId)).act w
      (.call (d.jobRunId jobId) (.markCompleted jobId artifacts))) :=
    (ebbs_removeManaged d _).trans (ebbs_free jobId (fun _ h => Ne.symm h) hgone)
  have hgone' : ((d.removeManaged (workerName jobId)).act w
      (.call (d.jobRunId jobId) (.markCompleted jobId artifacts))).managed.get
        (workerName jobId) = none := hgone
  rw [jobCompleted_eq] at hd
  generalize (d.removeManaged (workerName jobId)).act w
    (.call (d.jobRunId jobId) (.markCompleted jobId artifacts)) = d₁ at hcompleted hgone' hd
  split at hd
  · cases hd
  · rename_i d₂ h₂
    have hplanned : Ebbs d₁ d₂ := by
      split at h₂
      · exact ebbs_plannerOutput jobId artifacts hgone' h₂
      · cases h₂
        exact .refl d₁
    split at hd
    · cases hd
    · rename_i d₃ h₃
      cases hd
      have hreviewed : Ebbs d₂ d₃ := by
        split at h₃
        · exact ebbs_reviewerOutput jobId h₃
        · cases h₃
          exact .refl d₂
      exact staffed_finish (((hcompleted.trans hplanned).trans hreviewed).staffed h)

/-- What a failed job's handler and that of a stale one have in common. -/
theorem staffed_failed (h : d.Staffed) {jobId : JobId}
    (hgone : d.managed.get (workerName jobId) = none) (error : String) :
    (finish w r ((handleChannelPeerFailures w r jobId d).act w
      (.call r (.markFailed jobId error)))).Staffed := by
  have hpeers := ebbs_handleChannelPeerFailures (w := w) (r := r) jobId d
  have hfailed : Ebbs (handleChannelPeerFailures w r jobId d)
      ((handleChannelPeerFailures w r jobId d).act w (.call r (.markFailed jobId error))) :=
    ebbs_free jobId (fun _ h => Ne.symm h) (hpeers.gone _ hgone)
  exact staffed_finish (hfailed.staffed (hpeers.staffed h))

theorem staffed_jobFailed (h : d.Staffed) (jobId : JobId) (error : String) :
    (d.jobFailed w jobId error).Staffed :=
  staffed_failed ((ebbs_removeManaged d _).staffed h) (removeManaged_gone d _) error

theorem ebbs_routeTo (channelId message : String) (d : Daemon) (jobId : JobId) :
    Ebbs d (routeTo channelId message d jobId) := by
  unfold routeTo
  split
  · exact ebbs_send ..
  · exact .refl d

theorem staffed_channelMessage (h : d.Staffed) (channelId fromJob content : String) :
    (d.channelMessage w channelId fromJob content).Staffed := by
  unfold channelMessage
  dsimp only
  have hroute : (d.act w (.call (d.channelRunId channelId)
      (.routeChannelMessage channelId fromJob content))).Staffed := h.act (fun _ _ _ => True.intro)
  refine staffed_finish ?_
  split
  · exact (ebbs_routeTo ..).staffed hroute
  · exact (ebbs_foldl (ebbs_routeTo _ _) _ _).staffed hroute
  · exact (ebbs_completeClosedChannelParticipants ..).staffed hroute
  · exact hroute

theorem staffed_channelDone (h : d.Staffed) (channelId fromJob : String) :
    (d.channelDone w channelId fromJob).Staffed := by
  unfold channelDone
  dsimp only
  have hdone : (d.act w (.call (d.channelRunId channelId)
      (.handleChannelDone channelId fromJob))).Staffed := h.act (fun _ _ _ => True.intro)
  refine staffed_finish ?_
  split
  · exact (ebbs_completeClosedChannelParticipants ..).staffed hdone
  · exact hdone

theorem staffed_handleEvent (h : d.Staffed) {event : Json}
    (hd : d.handleEvent w event = .ok d') : d'.Staffed := by
  unfold handleEvent at hd
  dsimp only at hd
  split at hd
  · cases hd
    exact h.act (fun _ _ _ => True.intro)
  · cases hd
    exact h.act (fun _ _ _ => True.intro)
  · exact staffed_jobCompleted h hd
  · cases hd
    exact staffed_jobFailed h _ _
  · cases hd
    exact staffed_channelMessage h _ _ _
  · cases hd
    exact staffed_channelDone h _ _
  · cases hd
    have hpersisted : (d.act w (.persistArtifact (d.announcedArtifact w event))).Staffed :=
      h.act (fun _ _ _ => True.intro)
    exact hpersisted.act (fun _ _ _ => True.intro)
  · cases hd
    exact h

/-! ## Commands and ticks -/

section
variable (hplain : d.currentConfig.PlainlyNamed)
include hplain

theorem not_named {a : AgentConfig} {name : String}
    (ha : d.currentConfig.agents.find? (fun a => a.name == name) = some a) : ¬ JobWorker name := by
  have hname : a.name = name := by simpa using List.find?_some ha
  exact hname ▸ hplain a.name (List.mem_map_of_mem (List.mem_of_find?_eq_some ha))

/-- No entry of a worker comes in or goes. -/
theorem staffed_startConfigured (h : d.Staffed) (name done : String) :
    (d.startConfigured name done).Staffed := by
  by_cases hname : JobWorker name
  · unfold startConfigured
    split
    · rename_i a ha
      exact absurd hname (not_named hplain ha)
    · exact (ebbs_send ..).staffed h
  · refine h.of_entries (fun jobId hsome => ?_) ?_
    · rwa [startConfigured_get_ne (fun hk => hname ⟨jobId, hk.symm⟩)] at hsome
    · unfold engine
      rw [(untouched_startConfigured d name done).1]

theorem staffed_startAgent (h : d.Staffed) (name : String) : (d.startAgent name).Staffed := by
  unfold startAgent
  split
  · split
    · exact (ebbs_send ..).staffed h
    · refine staffed_startConfigured ?_ ((ebbs_removeManaged d name).staffed h) name _
      exact hplain
  · exact staffed_startConfigured hplain h name _

theorem staffed_restartAgent (h : d.Staffed) (name : String) : (d.restartAgent name).Staffed := by
  refine staffed_startConfigured ?_ ((ebbs_dropWorker d name).staffed h) name _
  rw [((sameConfig_stopWorker d name).trans (sameConfig_removeManaged _ name)).currentConfig]
  exact hplain

theorem staffed_restartAgents (h : d.Staffed) : (d.restartAgents w).Staffed := by
  refine h.of_entries (fun jobId hsome => ?_) ?_
  · unfold restartAgents at hsome
    rw [restartAll_get _ ((HashMap.keysIn_nodup ..).filter _)] at hsome
    split at hsome
    · unfold redone at hsome
      split at hsome
      · exact hsome
      · rename_i a ha
        exact absurd ⟨jobId, rfl⟩ (not_named hplain ha)
    · exact hsome
  · unfold engine
    rw [(untouched_restartAgents w d).1]

end

theorem plainlyNamed_load (hw : (CrewInput.daemon w .tick).PlainlyNamed) {config : Config}
    (hload : w.loadConfig = some config) : config.PlainlyNamed := by
  intro name hname
  refine hw name ?_
  show name ∈ (w.loadConfig.map (·.agentNames)).getD []
  rw [hload]
  exact hname

/-- The entries of workers are dropped with a new config. -/
theorem staffed_reloadConfig (hw : (CrewInput.daemon w .tick).PlainlyNamed) (h : d.Staffed) :
    (d.reloadConfig w).Staffed := by
  refine h.of_entries (fun jobId hsome => ?_) ?_
  · unfold reloadConfig at hsome
    split at hsome
    · exact hsome
    · rename_i config hconfig
      split at hsome
      · exact hsome
      · have hnot : workerName jobId ∉ config.autoStarted :=
          fun hmem => plainlyNamed_load hw hconfig _
            (Config.agentNames_of_autoStarted hmem) ⟨jobId, rfl⟩
        have hnone : (d.applyConfigChanges w config).managed.get (workerName jobId) = none :=
          applyConfigChanges_get_none hnot
        change ((d.applyConfigChanges w config).managed.get
          (workerName jobId)).isSome = true at hsome
        rw [hnone] at hsome
        cases hsome
  · unfold engine
    rw [(untouched_reloadConfig w d).1]

theorem staffed_agentUpdate (h : d.Staffed) (u : AgentStateUpdate) :
    (d.agentUpdate w u).Staffed := by
  refine h.of_entries (fun jobId hsome => ?_) ?_
  · cases hget : d.managed.get u.name with
    | none => rwa [Fleet.agentUpdate_of_missing hget] at hsome
    | some agent =>
      obtain ⟨agent', _, hnew⟩ := Fleet.agentUpdate_get (w := w) hget
      rw [hnew] at hsome
      split at hsome
      · rename_i hk
        rw [hk, hget]
        rfl
      · exact hsome
  · unfold engine
    rw [(untouched_agentUpdate w d u).1]

/-- The workers of the running jobs are dropped, and no others lose their slots. -/
theorem staffed_cancelRun (hs : Sound d.core) (h : d.Staffed) (r : RunId) :
    (d.cancelRun w r).2.Staffed := by
  have hdrops : ∀ (entries : List (JobId × JobStatus)) (d : Daemon),
      Ebbs d (entries.foldl (fun d entry =>
        (d.stopWorker (workerName entry.1)).removeManaged (workerName entry.1)) d) ∧
      ∀ entry ∈ entries, (entries.foldl (fun d (entry : JobId × JobStatus) =>
        (d.stopWorker (workerName entry.1)).removeManaged (workerName entry.1)) d).managed.get
          (workerName entry.1) = none := by
    intro entries
    induction entries with
    | nil => exact fun d => ⟨.refl d, fun _ hmem => by cases hmem⟩
    | cons entry entries ih =>
      intro d
      obtain ⟨hrest, hgone⟩ := ih
        ((d.stopWorker (workerName entry.1)).removeManaged (workerName entry.1))
      refine ⟨(ebbs_dropWorker d _).trans hrest, fun entry' hmem => ?_⟩
      rcases List.mem_cons.mp hmem with rfl | hmem
      · exact hrest.gone _ (removeManaged_gone _ _)
      · exact hgone entry' hmem
  unfold cancelRun
  split
  · exact h
  · rename_i message hok
    obtain ⟨hebbs, hgone⟩ := hdrops
      ((d.engine.jobsToCancel w r).filter (fun entry => entry.2 == .running)) d
    have hstopped : (d.stopWorkersOf w r).Staffed := hebbs.staffed h
    intro jobId agent hget
    have hget : (d.stopWorkersOf w r).managed.get (workerName jobId) = some agent := hget
    obtain ⟨r', hactive⟩ := hstopped jobId agent hget
    have hcore : (d.stopWorkersOf w r).core = d.core := (untouched_stopWorkersOf w d r).1
    unfold engine at hactive
    rw [hcore] at hactive
    show ∃ r', (OrchestratorEngine.cancelRun w (d.stopWorkersOf w r).core.engine r).2.activeJobs.get
      jobId = some r'
    rw [hcore]
    rcases cancelRun_cases w hs.grounded.supervised.home r with ⟨err, heq⟩ | ⟨_, _, _, _, _, hc⟩
    · rw [heq]
      exact ⟨r', hactive⟩
    · refine ⟨r', (hc.active_other jobId (fun hcancels => ?_)).trans hactive⟩
      -- an active job of the run is running, so its entry is gone
      obtain ⟨job, hjob, hr, _⟩ := hcancels
      have hrunning := hs.grounded.activeRunning jobId r' job hactive hjob
      have hmem : (jobId, job.status) ∈ d.core.engine.jobsToCancel w r := by
        refine List.mem_map.mpr ⟨job, RunStore.mem_listRunJobs.mpr ?_, ?_⟩
        · rw [RunStore.jobId_of_getJob hjob]
          exact ⟨hjob, hr⟩
        · rw [RunStore.jobId_of_getJob hjob]
      have hnone := hgone (jobId, job.status)
        (List.mem_filter.mpr ⟨hmem, by simp [hrunning]⟩)
      have hget := hnone.symm.trans hget
      cases hget

theorem staffed_handleCommand (hs : Sound d.core) (hplain : d.currentConfig.PlainlyNamed)
    (h : d.Staffed) (command : DaemonCommand) : (d.handleCommand w command).Staffed := by
  cases command with
  | start name => exact staffed_startAgent hplain h name
  | restart name => exact staffed_restartAgent hplain h name
  | submitRun task =>
    have hact : (d.act w (.call (d.engine.submitRun w task).1 (.submitRun task))).Staffed :=
      h.act (fun _ _ _ => True.intro)
    exact (ebbs_send ..).staffed (staffed_finish hact)
  | cancelRun r =>
    have hcancel := staffed_cancelRun (w := w) hs h r
    rw [handleCommand_cancelRun]
    cases hres : d.cancelRun w r with
    | mk result d₁ =>
      rw [hres] at hcancel
      cases result with
      | ok message =>
        have hpersisted : (d₁.act w (.persistRunState r)).Staffed :=
          hcancel.act (fun _ _ _ => True.intro)
        exact (ebbs_send ..).staffed hpersisted
      | error err => exact (ebbs_send ..).staffed hcancel
  | getRunStatus r => exact h
  | listRuns => exact h
  | getRunResult r => exact h
  | getMetrics => exact h

theorem staffed_foldl {α : Type} {g : Daemon → α → Daemon}
    (hg : ∀ d a, d.Staffed → (g d a).Staffed) (l : List α) (h : d.Staffed) :
    (l.foldl g d).Staffed :=
  List.foldlRecOn l g h (fun d hd a _ => hg d a hd)

theorem staffed_tick (hw : (CrewInput.daemon w .tick).PlainlyNamed)
    (hplain : d.currentConfig.PlainlyNamed) (h : d.Staffed) : (d.tick w).Staffed := by
  have hreloaded := staffed_reloadConfig hw h
  have hrefreshed : (refreshHeartbeats w (d.reloadConfig w)).Staffed := by
    refine staffed_foldl (fun d jobId hd => ?_) _ hreloaded
    split
    · exact hd.act (fun _ _ _ => True.intro)
    · exact hd
  have hstale : (handleStaleJobs w (refreshHeartbeats w (d.reloadConfig w))).Staffed := by
    refine staffed_foldl (fun d jobId hd => ?_) _ hrefreshed
    exact staffed_failed ((ebbs_dropWorker d _).staffed hd) (removeManaged_gone _ _) _
  have hcleaned : (cleanup w (handleStaleJobs w
      (refreshHeartbeats w (d.reloadConfig w)))).Staffed := by
    unfold cleanup
    split
    · refine staffed_foldl (fun d r hd => ?_) _ ((ebbs_same rfl rfl).staffed hstale)
      have hfiles := (ebbs_foldl (fun d path => ebbs_send d (.removeFile path))
        (d.engine.store.removeRun w r).1 d).staffed hd
      exact hfiles.act (fun _ _ _ => True.intro)
    · exact hstale
  refine staffed_restartAgents ?_ hcleaned
  have hsame := (constituent_sameConfig w).skeleton
  rw [(hsame.cleanup (fun _ _ => ⟨rfl, rfl, rfl⟩) _).currentConfig,
    (hsame.handleStaleJobs _).currentConfig, (hsame.refreshHeartbeats _).currentConfig]
  exact plainlyNamed_reloadConfig hw hplain

theorem staffed_boot {config : Config} (hstart : w.startConfig = some config)
    (hplain : config.PlainlyNamed) (d : Daemon) : (d.boot w).Staffed := by
  have hspawned : ∀ (agents : List AgentConfig) (d : Daemon), (∀ a ∈ agents, a ∈ config.agents) →
      (∀ jobId, d.managed.get (workerName jobId) = none) →
      ∀ jobId, (agents.foldl spawnManagedAgent d).managed.get (workerName jobId) = none := by
    intro agents
    induction agents with
    | nil => exact fun _ _ h => h
    | cons a agents ih =>
      intro d hsub hnone
      refine ih _ (fun b hb => hsub b (List.mem_cons_of_mem a hb)) (fun jobId => ?_)
      rw [spawnManagedAgent_get, if_neg (fun hk => ?_)]
      · exact hnone jobId
      · exact hplain a.name (List.mem_map_of_mem (hsub a List.mem_cons_self)) ⟨jobId, hk.symm⟩
  intro jobId agent hget
  unfold boot at hget
  rw [hstart] at hget
  dsimp only at hget
  rw [hspawned _ _ (fun a ha => (List.mem_filter.mp ha).1) (fun _ => rfl)] at hget
  cases hget

/-! ## Runs -/

/-- An input at a time that has come, with a config that gives no agent the name of a worker. -/
def Plain (d : Daemon) (x : World × Input) : Prop :=
  Clocked d x ∧ (CrewInput.daemon x.1 x.2).PlainlyNamed

instance (d : Daemon) (x : World × Input) : Decidable (d.Plain x) :=
  inferInstanceAs (Decidable (_ ∧ _))

theorem staffed_step {x : World × Input} (hs : Sound d.core)
    (hplain : d.currentConfig.PlainlyNamed) (h : d.alive = true → d.Staffed)
    (hx : (CrewInput.daemon x.1 x.2).PlainlyNamed) (halive : (d.step x).alive = true) :
    (d.step x).Staffed := by
  obtain ⟨w, i⟩ := x
  by_cases hstart : i = .start
  · subst hstart
    rw [step_start] at halive ⊢
    cases hconfig : w.startConfig with
    | none =>
      unfold boot at halive
      rw [hconfig] at halive
      cases halive
    | some config =>
      refine staffed_boot hconfig (fun name hname => hx name ?_) _
      show name ∈ (w.startConfig.map (·.agentNames)).getD []
      rw [hconfig]
      exact hname
  · cases hd : d.alive with
    | false =>
      have hdead : (d.step (w, i)).alive = false := serve_of_dead (s := ⟨w, i, hstart⟩) hd
      rw [hdead] at halive
      cases halive
    | true =>
      have hnow : ({ d with sent := [], calls := [] } : Daemon).Staffed := h hd
      rw [step_of_alive rfl hd] at halive ⊢
      generalize hd₀ : ({ d with sent := [], calls := [] } : Daemon) = d₀ at hnow halive ⊢
      have hcore : d₀.core = d.core := by rw [← hd₀]
      have hnames : d₀.currentConfig.PlainlyNamed := by
        rw [← hd₀]
        exact hplain
      cases i with
      | update u => exact staffed_agentUpdate hnow u
      | command c => exact staffed_handleCommand (hcore ▸ hs) hnames hnow c
      | event v =>
        cases hv : d₀.handle w (.event v) with
        | ok d' => exact staffed_handleEvent hnow hv
        | error d' =>
          rw [hv] at halive
          cases halive
      | tick => exact staffed_tick hx hnames hnow
      | shutdown => cases halive
      | start => exact absurd rfl hstart

theorem maxConcurrency_coreStep (c : Core) (x : World × Action) (hs : Sound c)
    (h : c.engine.maxConcurrency = 4) : (coreStep c x).engine.maxConcurrency = 4 := by
  obtain ⟨w, a⟩ := x
  cases a with
  | call r f => exact (maxConcurrency_apply hs.grounded.supervised.home f).trans h
  | hydrate =>
    show (hydrate w c.db c.engine.ids).maxConcurrency = 4
    unfold hydrate
    split <;> rfl
  | persistRunState r => exact h
  | persistArtifact artifact => exact h
  | genId pre => exact h
  | expire r => exact h

/-- Distinct worker entries are those of distinct jobs. -/
theorem Staffed.length_le (h : d.Staffed) :
    (d.managed.keys.filter (fun name => decide (JobWorker name))).length ≤
      d.engine.activeJobs.len := by
  have hname : ∀ name ∈ d.managed.keys.filter (fun name => decide (JobWorker name)),
      workerName (.ofList (name.toList.drop 6)) = name :=
    fun name hmem => (jobWorker_iff name).mpr (of_decide_eq_true (List.mem_filter.mp hmem).2)
  have hnodup := d.managed.keys_nodup.filter (fun name => decide (JobWorker name))
  have hjobs := hnodup.map_on (f := fun name : String => String.ofList (name.toList.drop 6))
    (fun name hmem name' hmem' heq => by rw [← hname name hmem, ← hname name' hmem', heq])
  rw [← List.length_map (fun name : String => String.ofList (name.toList.drop 6))]
  refine HashMap.length_le_len hjobs (fun jobId hmem => ?_)
  obtain ⟨name, hin, rfl⟩ := List.mem_map.mp hmem
  obtain ⟨agent, hget⟩ := HashMap.mem_keys.mp (List.mem_filter.mp hin).1
  exact h _ agent ((congrArg d.managed.get (hname name hin)).trans hget)

end

/-- What is known of the workers of jobs. -/
structure Manned (d : Daemon) : Prop where
  /-- The job of a worker has a slot, and runs unless its run has been removed. -/
  working : ∀ jobId agent, d.managed.get (workerName jobId) = some agent →
    (∃ r, d.engine.activeJobs.get jobId = some r) ∧
      ∀ job, d.engine.store.getJob jobId = some job → job.status = .running
  few : (d.managed.keys.filter (fun name => decide (JobWorker name))).length ≤ 4

/-- In every state of a process that runs, reached with any commands, events, updates, ticks,
crashes and restarts and any configs without an agent named like a worker. -/
theorem staffed_run (persistent : Bool) (sandboxOverride : Option Bool) (capsule : Bool)
    (is : List (World × Input))
    (his : Meets Daemon.step Plain (off persistent sandboxOverride capsule) is)
    (halive : (run Daemon.step (off persistent sandboxOverride capsule) is).alive = true) :
    (run Daemon.step (off persistent sandboxOverride capsule) is).Manned := by
  have hclocked := (Meets.and.mp his).1
  obtain ⟨hs, hmax⟩ := core_clocked (P := fun c => c.engine.maxConcurrency = 4)
    (fun c x hs _ h => maxConcurrency_coreStep c x hs h)
    (sound_off persistent sandboxOverride capsule) rfl hclocked
  have hstaffed : (run Daemon.step (off persistent sandboxOverride capsule) is).Staffed := by
    refine (run_invariant (P := fun d => Sound d.core ∧ d.currentConfig.PlainlyNamed ∧
      (d.alive = true → d.Staffed)) (fun d x hd hx => ?_) ?_ his).2.2 halive
    · refine ⟨?_, plainlyNamed_step hd.2.1 hx.2, staffed_step hd.1 hd.2.1 hd.2.2 hx.2⟩
      exact sound_run hd.1 (show Meets Daemon.step Clocked d [x] from ⟨hx.1, True.intro⟩)
    · refine ⟨sound_off .., fun name hmem => ?_, fun h => ?_⟩
      · cases hmem
      · cases h
  refine ⟨fun jobId agent hget => ?_, ?_⟩
  · obtain ⟨r, hactive⟩ := hstaffed jobId agent hget
    exact ⟨⟨r, hactive⟩, fun job hjob => hs.grounded.activeRunning jobId r job hactive hjob⟩
  · exact Nat.le_trans hstaffed.length_le (Nat.le_trans hs.grounded.supervised.bound
      (Nat.le_of_eq hmax))

/-- The planner of a run that has just been submitted has its worker. -/
theorem staffed_run_planning :
    (run Daemon.step (off true none false) planning).Manned ∧
      (run Daemon.step (off true none false) planning).managed.contains
        (workerName "job_1_1") = true := by
  refine ⟨staffed_run true none false planning ?_ ?_, ?_⟩
  · decide +kernel
  · decide +kernel
  · decide +kernel

end Daemon

end ZeptoPM
