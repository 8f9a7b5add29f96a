import ZeptoPM.ChannelMoves
import ZeptoPM.Handlers

/- What the handlers do to one channel and to the messages on it. Nearly all of them
   are `Quiet`: they send nothing on the channel and leave it as it is, or inactive.
   What is not quiet is routing a message on the channel, and the activation scan at
   the end of a handler, which sends the initial messages. -/
namespace ZeptoPM
open OrchestratorEngine Daemon

/-- The worker to which the effect sends a message on the channel. -/
def Effect.sendsOn (id : ChannelId) : Effect → Option String
  | .sendChannelMessage worker channelId _ => if channelId = id then some worker else none
  | _ => none

/-- The workers to which messages on the channel have been sent. -/
def Daemon.sentOn (d : Daemon) (id : ChannelId) : List String :=
  d.sent.filterMap (Effect.sendsOn id)

def Daemon.channel (d : Daemon) (id : ChannelId) : Option Channel := d.engine.store.getChannel id

/-- The actions noted lead from the engine and database before to those after. -/
def Traced (d d' : Daemon) : Prop :=
  ∃ l, d'.calls = d.calls ++ l ∧ d'.core = run coreStep d.core l

/-- Nothing is sent on the channel, and it is as it was, or not active. -/
structure Quiet (id : ChannelId) (d d' : Daemon) : Prop where
  traced : Traced d d'
  sends : d'.sentOn id = d.sentOn id
  channel : d'.channel id = d.channel id ∨ ∀ c', d'.channel id = some c' → c'.active = false

section
variable {w : World} {id : ChannelId} {r : RunId} {d d' d₁ d₂ d₃ : Daemon}

theorem Traced.refl (d : Daemon) : Traced d d := ⟨[], by rw [List.append_nil], rfl⟩

theorem Traced.trans (h₁ : Traced d₁ d₂) (h₂ : Traced d₂ d₃) : Traced d₁ d₃ := by
  obtain ⟨l₁, hcalls₁, hcore₁⟩ := h₁
  obtain ⟨l₂, hcalls₂, hcore₂⟩ := h₂
  refine ⟨l₁ ++ l₂, ?_, ?_⟩
  · rw [hcalls₂, hcalls₁, List.append_assoc]
  · rw [hcore₂, hcore₁, run_append]

theorem Traced.act (d : Daemon) (a : Action) : Traced d (d.act w a) := ⟨[(w, a)], rfl, rfl⟩

theorem Untouched.traced (h : Untouched d d') : Traced d d' :=
  ⟨[], by rw [h.2, List.append_nil], h.1⟩

theorem Untouched.channel (h : Untouched d d') (id : ChannelId) : d'.channel id = d.channel id := by
  unfold Daemon.channel
  rw [h.engine]

theorem sentOn_send (d : Daemon) (effect : Effect) (id : ChannelId) :
    (d.send effect).sentOn id = d.sentOn id ++ (effect.sendsOn id).toList := by
  show (d.sent ++ [effect]).filterMap _ = _
  rw [List.filterMap_append]
  cases h : effect.sendsOn id <;> simp [h, sentOn]

theorem Quiet.refl (id : ChannelId) (d : Daemon) : Quiet id d d := ⟨.refl d, rfl, Or.inl rfl⟩

theorem Quiet.trans (h₁ : Quiet id d₁ d₂) (h₂ : Quiet id d₂ d₃) : Quiet id d₁ d₃ := by
  refine ⟨h₁.traced.trans h₂.traced, h₂.sends.trans h₁.sends, ?_⟩
  rcases h₂.channel with hsame | hoff
  · rw [hsame]
    exact h₁.channel
  · exact Or.inr hoff

theorem Untouched.quiet (h : Untouched d d') (hs : d'.sentOn id = d.sentOn id) : Quiet id d d' :=
  ⟨h.traced, hs, Or.inl (h.channel id)⟩

theorem quiet_foldl {α : Type} {f : Daemon → α → Daemon} (hf : ∀ d a, Quiet id d (f d a))
    (l : List α) (d : Daemon) : Quiet id d (l.foldl f d) :=
  foldl_relates (.refl id) .trans l (fun a _ d => hf d a) d

/-- A channel that is not active is not made active. -/
theorem Quiet.inactive (h : Quiet id d d') (hoff : ∀ c, d.channel id = some c → c.active = false) :
    ∀ c', d'.channel id = some c' → c'.active = false := by
  rcases h.channel with hsame | hoff'
  · rw [hsame]
    exact hoff
  · exact hoff'

/-! ## Actions and effects -/

theorem quiet_send {effect : Effect} (h : effect.sendsOn id = none) :
    Quiet id d (d.send effect) := by
  refine (untouched_send d effect).quiet ?_
  rw [sentOn_send, h]
  exact List.append_nil _

theorem quiet_call {f : Call} (hscan : f ≠ .activateReadyChannels)
    (hroute : ∀ j m, f ≠ .routeChannelMessage id j m) : Quiet id d (d.act w (.call r f)) :=
  ⟨.act d _, rfl, channel_calm w d.engine hscan hroute⟩

/-- An action that does not touch the channels. -/
theorem quiet_act {a : Action} (h : (d.core.act w a).engine.store.getChannel id =
    d.core.engine.store.getChannel id) : Quiet id d (d.act w a) := ⟨.act d a, rfl, Or.inl h⟩

theorem quiet_heartbeat (jobId : JobId) : Quiet id d (d.act w (.call r (.recordHeartbeat jobId))) :=
  quiet_call (fun h => by cases h) (fun _ _ h => by cases h)

theorem quiet_markFailed (jobId : JobId) (err : String) :
    Quiet id d (d.act w (.call r (.markFailed jobId err))) :=
  quiet_call (fun h => by cases h) (fun _ _ h => by cases h)

theorem quiet_markCompleted (jobId : JobId) (artifacts : List ArtifactId) :
    Quiet id d (d.act w (.call r (.markCompleted jobId artifacts))) :=
  quiet_call (fun h => by cases h) (fun _ _ h => by cases h)

theorem quiet_startNext : Quiet id d (d.act w (.call r .startNext)) :=
  quiet_call (fun h => by cases h) (fun _ _ h => by cases h)

theorem quiet_createArtifact (artifact : Artifact) :
    Quiet id d (d.act w (.call r (.createArtifact artifact))) :=
  quiet_call (fun h => by cases h) (fun _ _ h => by cases h)

theorem quiet_persistArtifact (artifact : Artifact) :
    Quiet id d (d.act w (.persistArtifact artifact)) := quiet_act rfl

theorem quiet_expire (r' : RunId) : Quiet id d (d.act w (.expire r')) := by
  have hcall : (d.act w (.expire r')).channel id =
      (Call.apply w d.engine (.removeRun r')).store.getChannel id := rfl
  refine ⟨.act d _, rfl, ?_⟩
  rw [hcall]
  exact channel_calm w d.engine (fun h => by cases h) (fun _ _ h => by cases h)

theorem quiet_persist : Quiet id d (d.act w (.persistRunState r)) := quiet_act rfl

/-! ## Workers -/

theorem manning_quiet : Manning (Quiet id) where
  refl := .refl id
  trans := .trans
  send := fun _ effect h => quiet_send (by cases effect <;> first | rfl | cases h)
  manage := fun _ _ => Untouched.quiet ⟨rfl, rfl⟩ rfl

theorem quiet_removeManaged (d : Daemon) (worker : String) : Quiet id d (d.removeManaged worker) :=
  Untouched.quiet ⟨rfl, rfl⟩ rfl

theorem quiet_insertManaged (d : Daemon) (worker : String) (agent : InternalAgent) :
    Quiet id d (d.insertManaged worker agent) := Untouched.quiet ⟨rfl, rfl⟩ rfl

theorem quiet_dropWorker (d : Daemon) (worker : String) :
    Quiet id d ((d.stopWorker worker).removeManaged worker) :=
  manning_quiet.dropWorker d worker

theorem quiet_spawnManagedAgent (d : Daemon) (agent : AgentConfig) :
    Quiet id d (d.spawnManagedAgent agent) := (quiet_send rfl).trans (quiet_insertManaged ..)

theorem quiet_spawnReady (fuel : Nat) : ∀ d, Quiet id d (spawnReady w r fuel d) :=
  manning_quiet.spawnReady (fun _ => quiet_startNext) fuel

theorem quiet_spawnLoop (d : Daemon) : Quiet id d (spawnLoop w r d) := quiet_spawnReady _ d

theorem quiet_agentUpdate (d : Daemon) (update : AgentStateUpdate) :
    Quiet id d (d.agentUpdate w update) := by
  unfold agentUpdate
  split
  · exact .refl id d
  · exact quiet_insertManaged ..

theorem quiet_startConfigured (d : Daemon) (name done : String) :
    Quiet id d (d.startConfigured name done) := by
  unfold startConfigured
  split
  · exact (quiet_spawnManagedAgent ..).trans (quiet_send rfl)
  · exact quiet_send rfl

theorem quiet_startAgent (d : Daemon) (name : String) : Quiet id d (d.startAgent name) := by
  unfold startAgent
  split
  · split
    · exact quiet_send rfl
    · exact (quiet_removeManaged ..).trans (quiet_startConfigured ..)
  · exact quiet_startConfigured ..

theorem quiet_restartAgent (d : Daemon) (name : String) : Quiet id d (d.restartAgent name) :=
  (quiet_dropWorker ..).trans (quiet_startConfigured ..)

theorem quiet_restartAgents (d : Daemon) : Quiet id d (d.restartAgents w) := by
  refine quiet_foldl (fun d name => ?_) _ d
  unfold restartDue
  split
  · exact .refl id d
  · exact ((quiet_removeManaged ..).trans (quiet_send rfl)).trans (quiet_insertManaged ..)

theorem quiet_reloadConfig (d : Daemon) : Quiet id d (d.reloadConfig w) := by
  unfold reloadConfig
  split
  · exact .refl id d
  · split
    · exact .refl id d
    · refine (quiet_foldl (fun d name => quiet_dropWorker d name) _ d).trans
        (Quiet.trans (quiet_foldl (fun d agent => ?_) _ _) (Untouched.quiet ⟨rfl, rfl⟩ rfl))
      split
      · exact .refl id d
      · exact quiet_spawnManagedAgent d agent

/-! ## Peers of a failed job -/

theorem quiet_killPeer (jobId : JobId) (d : Daemon) (k : JobId) :
    Quiet id d (killPeer w r jobId d k) := (quiet_dropWorker ..).trans (quiet_markFailed ..)

theorem quiet_notifyPeer (message : String) (d : Daemon) (peerId : JobId) :
    Quiet id d (notifyPeer message d peerId) := by
  unfold notifyPeer
  split
  · exact quiet_send rfl
  · exact .refl id d

/-- The peers of a failed job are killed or notified after its channel has been closed. -/
theorem quiet_afterPeerFailure (jobId : JobId) (d : Daemon) (chId : ChannelId) :
    Quiet id (d.act w (.call r (.handleChannelPeerFailure chId jobId)))
      (failChannel w r jobId d chId) := by
  unfold failChannel
  dsimp only
  split
  · exact quiet_foldl (quiet_killPeer jobId) _ _
  · exact quiet_foldl (quiet_notifyPeer _) _ _
  · exact .refl id _

theorem quiet_failChannel (jobId : JobId) (d : Daemon) (chId : ChannelId) :
    Quiet id d (failChannel w r jobId d chId) :=
  (quiet_call (fun h => by cases h) (fun _ _ h => by cases h)).trans
    (quiet_afterPeerFailure jobId d chId)

theorem quiet_handleChannelPeerFailures (jobId : JobId) (d : Daemon) :
    Quiet id d (handleChannelPeerFailures w r jobId d) := quiet_foldl (quiet_failChannel jobId) _ d

/-- The active channels of a failed job are inactive afterwards. -/
theorem inactive_handleChannelPeerFailures {jobId : JobId} {c : Channel}
    (hc : d.channel id = some c) (hpart : jobId ∈ c.participants) :
    ∀ c', (handleChannelPeerFailures w r jobId d).channel id = some c' → c'.active = false := by
  cases hactive : c.active with
  | false =>
    refine (quiet_handleChannelPeerFailures jobId d).inactive ?_
    intro c₀ hc₀
    cases hc.symm.trans hc₀
    exact hactive
  | true =>
    have hid := RunStore.channelId_of_getChannel hc
    have hmem : id ∈ (d.engine.store.channelsForJob w jobId).map (·.channelId) :=
      List.mem_map.mpr ⟨c, RunStore.mem_channelsForJob.mpr ⟨hid.symm ▸ hc, hactive, hpart⟩, hid⟩
    -- the rounds before may close the channel, its own does, those after leave it inactive
    obtain ⟨before, after, hsplit⟩ := List.append_of_mem hmem
    unfold handleChannelPeerFailures
    rw [hsplit, List.foldl_append, List.foldl_cons]
    refine (quiet_foldl (quiet_failChannel jobId) after _).inactive
      ((quiet_afterPeerFailure jobId _ id).inactive ?_)
    intro c' hc'
    have hget := (getChannel_peerFailure (before.foldl (failChannel w r jobId) d).engine id jobId
      id).symm.trans hc'
    rw [if_pos rfl] at hget
    obtain ⟨c₀, _, rfl⟩ := Option.map_eq_some_iff.mp hget
    rfl

/-! ## Participants of a closed channel -/

theorem quiet_synthesizeChannelArtifact (d : Daemon) (jobId : JobId) (response : Option String) :
    Quiet id d (d.synthesizeChannelArtifact w r jobId response).2 := by
  unfold synthesizeChannelArtifact
  split
  · exact .refl id d
  · have hid : Quiet id d (d.act w (.genId "art")) := quiet_act rfl
    unfold persistChannelArtifact
    dsimp only
    split
    · exact (hid.trans (quiet_createArtifact _)).trans (quiet_persistArtifact _)
    · exact hid

theorem quiet_finalResponse (d : Daemon) (jobId : JobId) :
    Quiet id d (d.finalResponse w jobId).2 := by
  unfold finalResponse
  split
  · split
    · exact quiet_send rfl
    · exact .refl id d
  · exact .refl id d

theorem quiet_completeParticipant (channelId : ChannelId) (d : Daemon) (jobId : JobId) :
    Quiet id d (completeParticipant w r channelId d jobId) := by
  unfold completeParticipant
  dsimp only
  split
  · exact (((quiet_finalResponse d jobId).trans (quiet_dropWorker ..)).trans
      (quiet_synthesizeChannelArtifact ..)).trans (quiet_markCompleted ..)
  · exact .refl id d

theorem quiet_completeClosedChannelParticipants (d : Daemon) (channelId : ChannelId) :
    Quiet id d (d.completeClosedChannelParticipants w r channelId) := by
  unfold completeClosedChannelParticipants
  split
  · exact .refl id d
  · exact quiet_foldl (quiet_completeParticipant channelId) _ d

/-! ## Outputs of planners and reviewers -/

theorem quiet_plannerOutput {jobId : JobId} {artifacts : List ArtifactId}
    (h : d.plannerOutput w r jobId artifacts = .ok d' ∨
      d.plannerOutput w r jobId artifacts = .error d') : Quiet id d d' := by
  unfold plannerOutput at h
  split at h
  · rcases h with h | h <;> cases h
    exact .refl id d
  · split at h
    · rcases h with h | h <;> cases h
      exact .refl id d
    · split at h
      · rcases h with h | h <;> cases h
        exact quiet_markFailed ..
      · split at h
        · rcases h with h | h <;> cases h
          exact quiet_call (fun h => by cases h) (fun _ _ h => by cases h)
        · rcases h with h | h <;> cases h
          exact quiet_markFailed ..

theorem quiet_reviewerOutput {jobId : JobId} (h : d.reviewerOutput w r jobId = .ok d' ∨
    d.reviewerOutput w r jobId = .error d') : Quiet id d d' := by
  unfold reviewerOutput at h
  split at h
  · rcases h with h | h <;> cases h
    exact .refl id d
  · split at h
    · rcases h with h | h <;> cases h
      exact .refl id d
    · split at h
      · rcases h with h | h <;> cases h
        exact .refl id d
      · rcases h with h | h <;> cases h
        exact quiet_call (fun h => by cases h) (fun _ _ h => by cases h)
      · rcases h with h | h <;> cases h
        exact .refl id d

/-! ## Cancelling, expiring, heartbeats -/

theorem quiet_cancelRun (d : Daemon) (r' : RunId) : Quiet id d (d.cancelRun w r').2 := by
  unfold Daemon.cancelRun
  split
  · exact .refl id d
  · exact (quiet_foldl (fun d (entry : JobId × JobStatus) =>
      quiet_dropWorker d (workerName entry.1)) _ d).trans
        (quiet_call (fun h => by cases h) (fun _ _ h => by cases h))

theorem quiet_refreshHeartbeats (d : Daemon) : Quiet id d (d.refreshHeartbeats w) := by
  refine quiet_foldl (fun d jobId => ?_) _ d
  split
  · exact quiet_heartbeat jobId
  · exact .refl id d

theorem quiet_expireRun (d : Daemon) (r' : RunId) : Quiet id d (d.expireRun w r') :=
  (quiet_foldl (fun _ _ => quiet_send rfl) _ d).trans (quiet_expire r')

theorem quiet_cleanup (d : Daemon) : Quiet id d (d.cleanup w) := by
  unfold cleanup
  split
  · have hnow : Quiet id d { d with lastCleanup := w.instant } := Untouched.quiet ⟨rfl, rfl⟩ rfl
    exact hnow.trans (quiet_foldl quiet_expireRun _ _)
  · exact .refl id d

theorem quiet_shutdown (d : Daemon) : Quiet id d (d.shutdown w) := by
  unfold Daemon.shutdown
  refine (quiet_foldl (fun d r' => (quiet_cancelRun d r').trans quiet_persist) _ d).trans
    (Quiet.trans (quiet_foldl (fun d name => quiet_send rfl) _ _) (Untouched.quiet ⟨rfl, rfl⟩ rfl))

end

end ZeptoPM
