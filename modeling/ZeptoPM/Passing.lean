import ZeptoPM.Network
import ZeptoPM.Attendance

/- The turn of an active turn-based channel. It is handed out by the scan that activates
   the channel and passed on by the daemon with every answer. It is kept as long as
   each hand-over finds a worker to hand it to and no worker stops while it has it. -/
namespace ZeptoPM
open OrchestratorEngine Daemon

/-! ## When the turn is kept -/

/-- The channel has an initial message to send: nothing has been said on it, the plan has
given it one, and its first participant has a worker. -/
def Channel.Begins (managed : HashMap String InternalAgent) (c : Channel) : Prop :=
  c.history = [] ∧ c.initialMessage.isSome = true ∧
    ∃ p ∈ c.participants.head?, managed.contains (workerName p) = true

instance (managed : HashMap String InternalAgent) (c : Channel) : Decidable (c.Begins managed) :=
  inferInstanceAs (Decidable (_ ∧ _ ∧ _))

/-- Every turn-based channel that the scan activates begins, with nothing outstanding. -/
def Opens (managed : HashMap String InternalAgent) (out : ChannelId → List String) (c : Core) :
    World × Action → Prop
  | (w, .call _ .activateReadyChannels) =>
    ∀ id ∈ (c.engine.activateReadyChannels w).1, ∀ ch ∈ c.engine.store.getChannel id,
      ch.mode = .turnBased → out id = [] ∧ ch.Begins managed
  | _ => True

instance (managed : HashMap String InternalAgent) (out : ChannelId → List String) (c : Core)
    (x : World × Action) : Decidable (Opens managed out c x) := by
  obtain ⟨w, ⟨r, f⟩ | _⟩ := x
  · rcases f with _ | _ <;> dsimp only [Opens] <;> infer_instance
  all_goals
    dsimp only [Opens]
    infer_instance

/-- So do the scans of the handler that leads from `d` to `d'`. A scan ends its handler, so
it sees the workers that are there afterwards. -/
def Opening (out : ChannelId → List String) (d d' : Daemon) : Prop :=
  Meets coreStep (Opens d'.managed out) d.core (d'.calls.drop d.calls.length)

instance (out : ChannelId → List String) (d d' : Daemon) : Decidable (Opening out d d') :=
  inferInstanceAs (Decidable (Meets ..))

/-- The daemon before it handles an input. -/
def Daemon.fresh (d : Daemon) : Daemon := { d with sent := [], calls := [] }

/-- So do the scans of the step. The jobs that a tick finds stale are failed one after the
other, each with a scan of its own. -/
def OpensIn (w : World) (out : ChannelId → List String) (d : Daemon) : Input → Prop
  | .tick => Meets (failStaleJob w)
      (fun d j => Opening (fun id => out id ++ d.sentOn id) d (failStaleJob w d j))
      (refreshHeartbeats w (reloadConfig w d.fresh))
      ((refreshHeartbeats w (reloadConfig w d.fresh)).engine.staleJobs w 120000)
  | i => Opening out d.fresh (d.step (w, i))

instance (w : World) (out : ChannelId → List String) (d : Daemon) (i : Input) :
    Decidable (OpensIn w out d i) := by
  cases i <;> dsimp only [OpensIn] <;> infer_instance

/-- The participant that speaks after the reply has a worker. -/
def PassesOn (d : Daemon) : QueuedEvent → Prop
  | .reply jobId channelId _ => ∀ c ∈ d.channel channelId, c.mode = .turnBased →
      c.Hears jobId → c.lastMessage = false →
      ∃ p ∈ c.participants[c.nextIdx]?, d.managed.contains (workerName p) = true
  | _ => True

instance (d : Daemon) (v : QueuedEvent) : Decidable (PassesOn d v) := by
  cases v <;> dsimp only [PassesOn] <;> infer_instance

/-- The step loses no turn. -/
def Network.Keeps (n : Network) : NetworkInput → Prop
  | .deliver w => n.daemon.alive = true → ∀ v ∈ n.events.head?,
      PassesOn n.daemon v ∧ OpensIn w n.outstanding n.daemon (.event v.json)
  | .input _ (.event _) => True
  | .input w i => n.daemon.alive = true → OpensIn w n.outstanding n.daemon i
  | .lose worker channelId => n.messages.contains (worker, channelId) = true →
      ∀ c ∈ n.daemon.channel channelId, ¬ (c.active = true ∧ c.mode = .turnBased)
  | _ => True

instance (n : Network) (x : NetworkInput) : Decidable (n.Keeps x) := by
  rcases x with w | ⟨w, i⟩ | _ | _ | _ | _
  · dsimp only [Network.Keeps]
    infer_instance
  · cases i <;> dsimp only [Network.Keeps] <;> infer_instance
  all_goals
    dsimp only [Network.Keeps]
    infer_instance

/-! ## What the end of a handler does to the turn -/

section
variable {w : World} {id : ChannelId} {r : RunId} {d d' d₁ : Daemon} {base : List String}
  {out : ChannelId → List String}

theorem workerName_injective {j k : JobId} (h : workerName j = workerName k) : j = k :=
  (String.append_right_inj "__job_").mp h

theorem Channel.Begins.opening {managed : HashMap String InternalAgent} {c : Channel}
    (h : c.Begins managed) :
    ∃ p, c.participants[0]? = some p ∧ c.opening managed = [workerName p] := by
  obtain ⟨hhistory, hinitial, p, hp, hworker⟩ := h
  obtain ⟨message, hmessage⟩ := Option.isSome_iff_exists.mp hinitial
  obtain ⟨rest, hparts⟩ := List.head?_eq_some_iff.mp hp
  refine ⟨p, ?_, ?_⟩
  · rw [hparts]
    rfl
  · simp only [Channel.opening, hhistory, hmessage, hparts, hworker, if_true]

/-- A channel on which nothing has been said is at its first speaker. -/
theorem Channel.Turns.first {c : Channel} (h : c.Turns) (hhistory : c.history = []) :
    c.currentSpeakerIdx = 0 := by
  rw [h.idx, hhistory]
  exact Nat.zero_mod _

theorem TurnOn.quiet (h : TurnOn (d.channel id) (base ++ d.sentOn id)) (hq : Quiet id d d') :
    TurnOn (d'.channel id) (base ++ d'.sentOn id) := by
  rw [hq.sends]
  rcases hq.channel with hsame | hoff
  · rw [hsame]
    exact h
  · exact .of_inactive hoff _

/-- The end of a handler hands out the turns of the channels it activates, and no others. -/
theorem turnOn_finish (hscan : Opens (finish w r d).managed out (spawnLoop w r d).core
      (w, .call r .activateReadyChannels))
    (hturns : EveryChannel Channel.TakesTurns (spawnLoop w r d).core)
    (hout : out id = [] → base ++ d.sentOn id = [])
    (h : TurnOn (d.channel id) (base ++ d.sentOn id)) :
    TurnOn ((finish w r d).channel id) (base ++ (finish w r d).sentOn id) := by
  have hspawn : Quiet id d (spawnLoop w r d) := quiet_spawnLoop d
  rcases finish_cases (w := w) (r := r) id d with ⟨c, hc, hact, hafter, hsends⟩ | ⟨hsame, hsends⟩
  · intro c' hc' hactive hmode
    cases hafter.symm.trans hc'
    obtain ⟨hnone, hbegins⟩ := hscan id (mem_activateReadyChannels.mpr ⟨c, hc, hact⟩) c hc hmode
    obtain ⟨p, hp, hopening⟩ := hbegins.opening
    have hparts : c.participants ≠ [] := by
      intro hnil
      rw [hnil] at hp
      cases hp
    have hidx := (hturns.engine id c hc hmode hparts).first hbegins.1
    refine ⟨p, ?_, ?_⟩
    · show c.participants[c.currentSpeakerIdx]? = some p
      rw [hidx]
      exact hp
    · rw [hsends, hspawn.sends, ← List.append_assoc, hout hnone, hopening]
      rfl
  · rw [hsame, hsends]
    exact h.quiet hspawn

theorem traced_finish (d : Daemon) : Traced d (finish w r d) := by
  have hspawn : Quiet "" d (spawnLoop w r d) := quiet_spawnLoop d
  refine hspawn.traced.trans ⟨_, calls_finish d, ?_⟩
  have hscan := untouched_foldl untouched_sendInitial
    ((spawnLoop w r d).engine.activateReadyChannels w).1
    ((spawnLoop w r d).act w (.call r .activateReadyChannels))
  show (activateChannels w r (spawnLoop w r d)).core.act w (.persistRunState r) = _
  unfold activateChannels
  rw [hscan.1]
  rfl

/-- The scan of a handler is one of those that the condition is about. -/
theorem Opening.scan (h : Opening out d d') (hbefore : Traced d (spawnLoop w r d₁))
    (hafter : Traced (finish w r d₁) d') : Opens d'.managed out (spawnLoop w r d₁).core
      (w, .call r .activateReadyChannels) := by
  obtain ⟨l, hcalls, hcore⟩ := hbefore
  obtain ⟨l', hcalls', _⟩ := hafter
  have heq : d'.calls = d.calls ++ (l ++
      ((w, .call r .activateReadyChannels) :: (w, .persistRunState r) :: l')) := by
    rw [hcalls', calls_finish, hcalls]
    simp
  unfold Opening at h
  rw [heq, List.drop_left] at h
  rw [hcore]
  exact (Meets.append.mp h).2.1

/-! ## Handlers -/

/-- A handler that says nothing on the channel, but may end with a scan. -/
inductive Stage (w : World) (id : ChannelId) (d d' : Daemon) : Prop where
  | quiet (h : Quiet id d d')
  | finished (r : RunId) (d₁ : Daemon) (before : Quiet id d d₁)
      (after : Quiet id (finish w r d₁) d') (managed : d'.managed = (finish w r d₁).managed)

theorem Stage.finish (r : RunId) (h : Quiet id d d₁) : Stage w id d (finish w r d₁) :=
  .finished r d₁ h (.refl id _) rfl

theorem Stage.traced (h : Stage w id d d') : Traced d d' := by
  cases h with
  | quiet h => exact h.traced
  | finished r d₁ before after => exact (before.traced.trans (traced_finish d₁)).trans after.traced

theorem everyChannel_traced {P : Channel → Prop} (hP : Kept P) (h : Traced d d')
    (hd : EveryChannel P d.core) : EveryChannel P d'.core := by
  obtain ⟨l, _, hcore⟩ := h
  rw [hcore]
  exact everyChannel_run hP l hd

theorem turnOn_stage (hs : Stage w id d d') (hopen : Opening out d d')
    (hturns : EveryChannel Channel.TakesTurns d.core)
    (hout : out id = [] → base ++ d.sentOn id = [])
    (h : TurnOn (d.channel id) (base ++ d.sentOn id)) :
    TurnOn (d'.channel id) (base ++ d'.sentOn id) := by
  cases hs with
  | quiet hq => exact h.quiet hq
  | finished r d₁ before after managed =>
    have hspawn : Quiet id d (spawnLoop w r d₁) := before.trans (quiet_spawnLoop d₁)
    have hscan := hopen.scan hspawn.traced after.traced
    rw [managed] at hscan
    refine TurnOn.quiet ?_ after
    refine turnOn_finish hscan (everyChannel_traced kept_takesTurns hspawn.traced hturns) ?_
      (h.quiet before)
    rw [before.sends]
    exact hout

theorem stage_failJob (jobId : JobId) (error : String) (h : Quiet id d d₁) :
    Stage w id d (finish w r ((handleChannelPeerFailures w r jobId d₁).act w
      (.call r (.markFailed jobId error)))) :=
  .finish r ((h.trans (quiet_handleChannelPeerFailures jobId d₁)).trans (quiet_markFailed ..))

theorem stage_jobFailed (d : Daemon) (jobId : JobId) (error : String) :
    Stage w id d (d.jobFailed w jobId error) := stage_failJob jobId error (quiet_removeManaged ..)

theorem stage_failStaleJob (d : Daemon) (jobId : JobId) :
    Stage w id d (failStaleJob w d jobId) := stage_failJob jobId _ (quiet_dropWorker ..)

theorem stage_channelDone (d : Daemon) (channelId fromJob : String) :
    Stage w id d (d.channelDone w channelId fromJob) := by
  have hcall : Quiet id d (d.act w (.call (d.channelRunId channelId)
      (.handleChannelDone channelId fromJob))) :=
    quiet_call (fun h => by cases h) (fun _ _ h => by cases h)
  unfold channelDone
  refine .finish _ ?_
  split
  · exact hcall.trans (quiet_completeClosedChannelParticipants ..)
  · exact hcall

theorem stage_jobCompleted (d : Daemon) (jobId : JobId) (artifacts : List ArtifactId) :
    (∃ d', d.jobCompleted w jobId artifacts = .ok d' ∧ Stage w id d d') ∨
      ∃ d', d.jobCompleted w jobId artifacts = .error d' ∧ Quiet id d d' := by
  generalize hr : d.jobRunId jobId = r
  generalize hd₁ : (d.removeManaged (workerName jobId)).act w
    (.call r (.markCompleted jobId artifacts)) = d₁
  have hfirst : Quiet id d d₁ := by
    rw [← hd₁]
    exact (quiet_removeManaged ..).trans (quiet_markCompleted ..)
  rw [jobCompleted_eq, hr, hd₁]
  have hplanned : ∀ d₂, ((if d.hasRole jobId "planner" then d₁.plannerOutput w r jobId artifacts
      else .ok d₁) = .ok d₂ ∨ (if d.hasRole jobId "planner" then
        d₁.plannerOutput w r jobId artifacts else .ok d₁) = .error d₂) → Quiet id d d₂ := by
    intro d₂ h
    split at h
    · exact hfirst.trans (quiet_plannerOutput h)
    · rcases h with h | h <;> cases h
      exact hfirst
  have hreviewed : ∀ d₂ d₃, ((if d₂.hasRole jobId "reviewer" then d₂.reviewerOutput w r jobId
      else .ok d₂) = .ok d₃ ∨ (if d₂.hasRole jobId "reviewer" then d₂.reviewerOutput w r jobId
      else .ok d₂) = .error d₃) → Quiet id d₂ d₃ := by
    intro d₂ d₃ h
    split at h
    · exact quiet_reviewerOutput h
    · rcases h with h | h <;> cases h
      exact .refl id d₂
  cases hp : (if d.hasRole jobId "planner" then d₁.plannerOutput w r jobId artifacts
      else .ok d₁) with
  | error d₂ => exact Or.inr ⟨d₂, rfl, hplanned d₂ (Or.inr hp)⟩
  | ok d₂ =>
    dsimp only
    cases hv : (if d₂.hasRole jobId "reviewer" then d₂.reviewerOutput w r jobId else .ok d₂) with
    | error d₃ =>
      exact Or.inr ⟨d₃, rfl, (hplanned d₂ (Or.inl hp)).trans (hreviewed d₂ d₃ (Or.inr hv))⟩
    | ok d₃ =>
      exact Or.inl ⟨_, rfl,
        .finish r ((hplanned d₂ (Or.inl hp)).trans (hreviewed d₂ d₃ (Or.inl hv)))⟩

/-- An event that is no message may end with a scan, or is aborted before it. -/
theorem stage_handleEvent (id : ChannelId) {v : Json} (hv : v.strOr "type" "" ≠ "channel_message") :
    (∃ d', d.handleEvent w v = .ok d' ∧ Stage w id d d') ∨
      ∃ d', d.handleEvent w v = .error d' ∧ Quiet id d d' := by
  unfold handleEvent
  dsimp only
  split
  · exact Or.inl ⟨_, rfl, .quiet (quiet_heartbeat _)⟩
  · exact Or.inl ⟨_, rfl, .quiet (quiet_heartbeat _)⟩
  · exact stage_jobCompleted ..
  · exact Or.inl ⟨_, rfl, stage_jobFailed ..⟩
  · rename_i hmessage
    exact absurd hmessage hv
  · exact Or.inl ⟨_, rfl, stage_channelDone ..⟩
  · exact Or.inl ⟨_, rfl, .quiet ((quiet_persistArtifact _).trans (quiet_createArtifact _))⟩
  · exact Or.inl ⟨_, rfl, .quiet (.refl id d)⟩

/-! ## Answers -/

/-- The turn of a failed participant needs no successor: its channels are closed. -/
theorem turnOn_jobFailed {j : JobId} {error : String} (hopen : Opening out d (d.jobFailed w j error))
    (hturns : EveryChannel Channel.TakesTurns d.core) (hout : out id ≠ [])
    (h : TurnOn (d.channel id) (workerName j :: base)) :
    TurnOn ((d.jobFailed w j error).channel id) (base ++ (d.jobFailed w j error).sentOn id) := by
  generalize hr : d.jobRunId j = r
  have hpeers : Quiet id d (handleChannelPeerFailures w r j (d.removeManaged (workerName j))) :=
    (quiet_removeManaged ..).trans (quiet_handleChannelPeerFailures ..)
  have hoff : ∀ c, (handleChannelPeerFailures w r j (d.removeManaged (workerName j))).channel id =
      some c → c.active = true → c.mode ≠ .turnBased := by
    intro c hc hactive hmode
    rcases hpeers.channel with hsame | hoff
    · have hc₀ : d.channel id = some c := hsame.symm.trans hc
      obtain ⟨p, hp, hone⟩ := h c hc₀ hactive hmode
      obtain rfl := workerName_injective (List.cons.inj hone).1
      have hclosed := inactive_handleChannelPeerFailures (w := w) (r := r)
        (d := d.removeManaged (workerName j)) hc₀ (List.mem_of_getElem? hp) c hc
      rw [hactive] at hclosed
      cases hclosed
    · rw [hoff c hc] at hactive
      cases hactive
  have heq : d.jobFailed w j error = finish w r ((handleChannelPeerFailures w r j
      (d.removeManaged (workerName j))).act w (.call r (.markFailed j error))) := by
    rw [← hr]
    rfl
  rw [heq] at hopen ⊢
  have hfailed := hpeers.trans (quiet_markFailed (w := w) (r := r) j error)
  refine turnOn_finish (hopen.scan (hfailed.trans (quiet_spawnLoop _)).traced (.refl _))
    (everyChannel_traced kept_takesTurns (hfailed.trans (quiet_spawnLoop _)).traced hturns)
    (fun hnil => absurd hnil hout) (TurnOn.quiet (d := handleChannelPeerFailures w r j
      (d.removeManaged (workerName j))) ?_ (quiet_markFailed j error))
  intro c hc hactive hmode
  exact absurd hmode (hoff c hc hactive)

/-- What the daemon does after a message has been routed. -/
def Daemon.forward (w : World) (r : RunId) (channelId : ChannelId) (d : Daemon) :
    ChannelAction → Daemon
  | .sendTo jobId message => routeTo channelId message d jobId
  | .broadcast jobIds message => jobIds.foldl (routeTo channelId message) d
  | .close chId => d.completeClosedChannelParticipants w r chId
  | _ => d

theorem channelMessage_eq (w : World) (d : Daemon) (channelId fromJob content : String) :
    d.channelMessage w channelId fromJob content = finish w (d.channelRunId channelId)
      ((d.act w (.call (d.channelRunId channelId)
        (.routeChannelMessage channelId fromJob content))).forward w (d.channelRunId channelId)
          channelId (d.engine.routeChannelMessage w channelId fromJob content).1) := rfl

theorem quiet_routeTo {channelId : ChannelId} (hne : channelId ≠ id) (message : String)
    (d : Daemon) (jobId : JobId) : Quiet id d (routeTo channelId message d jobId) := by
  unfold routeTo
  split
  · exact quiet_send (if_neg hne)
  · exact .refl id d

theorem quiet_forward {channelId : ChannelId} (hne : channelId ≠ id) (d : Daemon)
    (action : ChannelAction) : Quiet id d (d.forward w r channelId action) := by
  cases action with
  | sendTo jobId message => exact quiet_routeTo hne message d jobId
  | broadcast jobIds message => exact quiet_foldl (quiet_routeTo hne message) jobIds d
  | close chId => exact quiet_completeClosedChannelParticipants d chId
  | _ => exact .refl id d

/-- Forwarding leaves the channel of the message as routing has left it, or inactive. -/
theorem channel_forward (id : ChannelId) (d : Daemon) (channelId : ChannelId)
    (action : ChannelAction) :
    Traced d (d.forward w r channelId action) ∧
      ((d.forward w r channelId action).channel id = d.channel id ∨
        ∀ c', (d.forward w r channelId action).channel id = some c' → c'.active = false) := by
  cases action with
  | sendTo jobId message =>
    have h := untouched_routeTo channelId message d jobId
    exact ⟨h.traced, Or.inl (h.channel id)⟩
  | broadcast jobIds message =>
    have h := untouched_foldl (untouched_routeTo channelId message) jobIds d
    exact ⟨h.traced, Or.inl (h.channel id)⟩
  | close chId =>
    have h : Quiet id d (d.completeClosedChannelParticipants w r chId) :=
      quiet_completeClosedChannelParticipants d chId
    exact ⟨h.traced, h.channel⟩
  | _ => exact ⟨.refl d, Or.inl rfl⟩

theorem traced_channelMessage (w : World) (d : Daemon) (channelId fromJob content : String) :
    Traced d (d.channelMessage w channelId fromJob content) := by
  rw [channelMessage_eq]
  exact ((Traced.act d _).trans (channel_forward channelId _ _ _).1).trans
    (traced_finish _)

/-- The answer of the speaker hands the turn on, unless it is the last. -/
theorem turnOn_routed {j : JobId} {content : String} (hsent : d.sentOn id = [])
    (hpass : PassesOn d (.reply j id content)) (h : TurnOn (d.channel id) (workerName j :: base)) :
    TurnOn (((d.act w (.call r (.routeChannelMessage id j content))).forward w r id
        (d.engine.routeChannelMessage w id j content).1).channel id)
      (base ++ ((d.act w (.call r (.routeChannelMessage id j content))).forward w r id
        (d.engine.routeChannelMessage w id j content).1).sentOn id) := by
  obtain ⟨_, hforward⟩ := channel_forward (w := w) (r := r) id
    (d.act w (.call r (.routeChannelMessage id j content))) id
    (d.engine.routeChannelMessage w id j content).1
  rcases hforward with hsame | hoff
  · have hafter : (d.act w (.call r (.routeChannelMessage id j content))).channel id =
        (d.channel id).map (Channel.routed w j content) :=
      (getChannel_route w d.engine id j content id).trans (if_pos rfl)
    rw [hsame, hafter]
    intro c' hc' hactive hmode
    obtain ⟨c, hc, rfl⟩ := Option.map_eq_some_iff.mp hc'
    rw [Channel.routed_mode] at hmode
    obtain ⟨p, hp, hone⟩ := h c hc (Channel.routed_active hactive) hmode
    obtain ⟨hworker, rfl⟩ := List.cons.inj hone
    obtain rfl := workerName_injective hworker
    have hears : c.Hears j := ⟨Channel.routed_active hactive, List.mem_of_getElem? hp, fun _ => hp⟩
    have hlast : c.lastMessage = false := by
      rw [← Bool.not_eq_true]
      intro hlast
      rw [Channel.routed, if_pos hears, if_pos hlast] at hactive
      cases hactive
    obtain ⟨q, hq, hmanaged⟩ := hpass c hc hmode hears hlast
    refine ⟨q, ?_, ?_⟩
    · rw [Channel.routed, if_pos hears, hlast]
      exact hq
    · have haction : (d.engine.routeChannelMessage w id j content).1 = .sendTo q content := by
        rw [(route_recorded w d.engine content hc hears).1, Channel.routeAction, hlast, hmode]
        show ChannelAction.sendTo ((c.participants[c.nextIdx]?).getD "") content = _
        rw [show c.participants[c.nextIdx]? = some q from hq]
        rfl
      rw [haction]
      have hsend : (d.act w (.call r (.routeChannelMessage id j content))).forward w r id
          (.sendTo q content) = (d.act w (.call r (.routeChannelMessage id j content))).send
            (.sendChannelMessage (workerName q) id content) := if_pos hmanaged
      rw [hsend, sentOn_send, Effect.sendsOn, if_pos rfl]
      show [] ++ (d.sentOn id ++ [workerName q]) = _
      rw [hsent]
      rfl
  · exact .of_inactive hoff _

/-- A message on one channel says nothing on another. -/
theorem stage_channelMessage {channelId : ChannelId} (hne : channelId ≠ id) (d : Daemon)
    (fromJob content : String) : Stage w id d (d.channelMessage w channelId fromJob content) := by
  rw [channelMessage_eq]
  refine .finish _ (Quiet.trans ?_ (quiet_forward hne _ _))
  refine quiet_call (fun h => by cases h) (fun _ _ h => ?_)
  cases h
  exact hne rfl

theorem turnOn_channelMessage {j : JobId} {content : String} (hsent : d.sentOn id = [])
    (hpass : PassesOn d (.reply j id content))
    (hopen : Opening out d (d.channelMessage w id j content))
    (hturns : EveryChannel Channel.TakesTurns d.core) (hout : out id ≠ [])
    (h : TurnOn (d.channel id) (workerName j :: base)) :
    TurnOn ((d.channelMessage w id j content).channel id)
      (base ++ (d.channelMessage w id j content).sentOn id) := by
  have htraced := (Traced.act (w := w) d (.call (d.channelRunId id)
    (.routeChannelMessage id j content))).trans (channel_forward (w := w) (r := d.channelRunId id)
      id _ id (d.engine.routeChannelMessage w id j content).1).1
  have hrouted := turnOn_routed (w := w) (r := d.channelRunId id) hsent hpass h
  rw [channelMessage_eq] at hopen ⊢
  generalize ((d.act w (.call (d.channelRunId id) (.routeChannelMessage id j content))).forward w
    (d.channelRunId id) id (d.engine.routeChannelMessage w id j content).1) = d₁
    at htraced hrouted hopen ⊢
  have hspawn : Quiet id d₁ (spawnLoop w (d.channelRunId id) d₁) := quiet_spawnLoop d₁
  exact turnOn_finish (hopen.scan (htraced.trans hspawn.traced) (.refl _))
    (everyChannel_traced kept_takesTurns (htraced.trans hspawn.traced) hturns)
    (fun hnil => absurd hnil hout) hrouted

/-- An event taken off the queue. It was outstanding on the channel that it answers. -/
theorem turnOn_event {v : QueuedEvent} (hsent : d.sentOn id = []) (hpass : PassesOn d v)
    (hev : d.handleEvent w v.json = .ok d') (hopen : Opening out d d')
    (hout : out id = (v.answersOn id).toList ++ base)
    (hturns : EveryChannel Channel.TakesTurns d.core) (h : TurnOn (d.channel id) (out id)) :
    TurnOn (d'.channel id) (base ++ d'.sentOn id) := by
  -- an event that answers nothing on this channel
  have hquiet : (v.answersOn id).toList = [] → Stage w id d d' →
      TurnOn (d'.channel id) (base ++ d'.sentOn id) := by
    intro hnone hstage
    rw [hnone, List.nil_append] at hout
    refine turnOn_stage hstage hopen hturns (fun hnil => ?_) ?_
    · rw [← hout, hnil, hsent]
      rfl
    · rw [hsent, List.append_nil, ← hout]
      exact h
  cases v with
  | reply j channelId content =>
    have heq : d' = d.channelMessage w channelId j content := by
      cases hev
      rfl
    subst heq
    by_cases hid : channelId = id
    · subst hid
      have hcons : out channelId = workerName j :: base := by
        rw [hout, QueuedEvent.answersOn, if_pos rfl]
        rfl
      rw [hcons] at h
      exact turnOn_channelMessage hsent hpass hopen hturns (by simp [hcons]) h
    · refine hquiet ?_ (stage_channelMessage hid d j content)
      rw [QueuedEvent.answersOn, if_neg hid]
      rfl
  | failure j channelId err =>
    have heq : d' = d.jobFailed w j ("channel message failed: " ++ err) := by
      cases hev
      rfl
    subst heq
    by_cases hid : channelId = id
    · have hcons : out id = workerName j :: base := by
        rw [hout, QueuedEvent.answersOn, if_pos hid]
        rfl
      rw [hcons] at h
      exact turnOn_jobFailed hopen hturns (by simp [hcons]) h
    · refine hquiet ?_ (stage_jobFailed d j _)
      rw [QueuedEvent.answersOn, if_neg hid]
      rfl
  | other v hne =>
    refine hquiet rfl ?_
    rcases stage_handleEvent (w := w) (d := d) id hne with ⟨d₁, hok, hstage⟩ | ⟨d₁, herr, _⟩
    · cases hok.symm.trans hev
      exact hstage
    · cases herr.symm.trans hev

/-! ## Inputs that are no events -/

theorem stage_handleCommand (d : Daemon) (command : DaemonCommand) :
    Stage w id d (d.handleCommand w command) := by
  cases command with
  | start name => exact .quiet (quiet_startAgent d name)
  | restart name => exact .quiet (quiet_restartAgent d name)
  | submitRun task =>
    exact .finished (d.engine.submitRun w task).1 _
      (quiet_call (fun h => by cases h) (fun _ _ h => by cases h)) (quiet_send rfl) rfl
  | cancelRun r =>
    have hcancel : Quiet id d (d.cancelRun w r).2 := quiet_cancelRun d r
    refine .quiet ?_
    rw [handleCommand_cancelRun]
    cases hres : d.cancelRun w r with
    | mk result d' =>
      rw [hres] at hcancel
      cases result with
      | ok message => exact (hcancel.trans quiet_persist).trans (quiet_send rfl)
      | error err => exact hcancel.trans (quiet_send rfl)
  | _ => exact .quiet (.refl id d)

/-- The stale jobs are failed one after the other. -/
theorem turnOn_staleJobs (l : List JobId) : ∀ {d : Daemon},
    Meets (failStaleJob w) (fun d j => Opening (fun id => out id ++ d.sentOn id) d
      (failStaleJob w d j)) d l → EveryChannel Channel.TakesTurns d.core →
    TurnOn (d.channel id) (out id ++ d.sentOn id) →
      TurnOn ((l.foldl (failStaleJob w) d).channel id)
        (out id ++ (l.foldl (failStaleJob w) d).sentOn id) := by
  induction l with
  | nil => exact fun _ _ h => h
  | cons j l ih =>
    intro d hopen hturns h
    have hstage : Stage w id d (failStaleJob w d j) := stage_failStaleJob d j
    exact ih hopen.2 (everyChannel_traced kept_takesTurns hstage.traced hturns)
      (turnOn_stage hstage hopen.1 hturns (fun hnil => hnil) h)

theorem traced_foldl {α : Type} {f : Daemon → α → Daemon} (hf : ∀ d a, Traced d (f d a))
    (l : List α) (d : Daemon) : Traced d (l.foldl f d) :=
  foldl_relates .refl .trans l (fun a _ d => hf d a) d

theorem quiet_beforeStale (d : Daemon) : Quiet id d (refreshHeartbeats w (reloadConfig w d)) :=
  (quiet_reloadConfig d).trans (quiet_refreshHeartbeats _)

theorem quiet_afterStale (d : Daemon) : Quiet id d (restartAgents w (cleanup w d)) :=
  (quiet_cleanup d).trans (quiet_restartAgents _)

theorem traced_tick (d : Daemon) : Traced d (tick w d) := by
  have hbefore : Quiet "" d (refreshHeartbeats w (reloadConfig w d)) := quiet_beforeStale d
  have hstale : ∀ d j, Stage w "" d (failStaleJob w d j) := stage_failStaleJob
  have hafter : ∀ d, Quiet "" d (restartAgents w (cleanup w d)) := quiet_afterStale
  exact (hbefore.traced.trans (traced_foldl (fun d j => (hstale d j).traced) _ _)).trans
    (hafter _).traced

theorem traced_boot (d : Daemon) : Traced d (d.boot w) := by
  obtain ⟨l, hcalls, hcore, _⟩ := boot_calls w d
  exact ⟨l, hcalls, hcore⟩

theorem Daemon.fresh_eq (d : Daemon) : d.fresh = { d with sent := [], calls := [] } := rfl

theorem step_start (d : Daemon) (w : World) : d.step (w, .start) = d.fresh.boot w := by
  cases halive : d.alive with
  | true => exact step_of_alive rfl halive w .start
  | false => exact step_of_dead rfl halive w .start

/-- A process that is not running is not brought alive by anything but a start. -/
theorem dead_step {d : Daemon} (hdead : d.alive = false) (w : World) {i : Input}
    (hstart : i ≠ .start) : (d.step (w, i)).alive = false := by
  rw [step_of_dead d.fresh_eq hdead]
  cases i with
  | start => exact absurd rfl hstart
  | _ => exact hdead

/-- The actions noted of a step are all that it has done to engine and database. -/
theorem traced_step (d : Daemon) (w : World) (i : Input) : Traced d.fresh (d.step (w, i)) := by
  cases halive : d.alive with
  | false =>
    rw [step_of_dead rfl halive]
    cases i with
    | start => exact traced_boot _
    | _ => exact .refl _
  | true =>
    rw [step_of_alive d.fresh_eq halive]
    cases i with
    | update u =>
      have hupdate : Quiet "" d.fresh (d.fresh.agentUpdate w u) := quiet_agentUpdate d.fresh u
      exact hupdate.traced
    | command c =>
      have hcommand : Stage w "" d.fresh (d.fresh.handleCommand w c) := stage_handleCommand ..
      exact hcommand.traced
    | tick => exact traced_tick d.fresh
    | shutdown =>
      have hshutdown : Quiet "" d.fresh (d.fresh.shutdown w) := quiet_shutdown d.fresh
      exact hshutdown.traced
    | start => exact traced_boot d.fresh
    | event v =>
      dsimp only [handle]
      by_cases hv : v.strOr "type" "" = "channel_message"
      · have heq : d.fresh.handleEvent w v = .ok (d.fresh.channelMessage w
            (v.strOr "channel_id" "") (v.strOr "from_job" "") (v.strOr "content" "")) := by
          unfold handleEvent
          rw [hv]
          rfl
        rw [heq]
        exact traced_channelMessage ..
      · rcases stage_handleEvent (w := w) (d := d.fresh) "" hv with
          ⟨d', hok, hstage⟩ | ⟨d', herr, hquiet⟩
        · rw [hok]
          exact hstage.traced
        · rw [herr]
          exact hquiet.traced

/-- An input that is no event and starts no process. -/
theorem turnOn_step {i : Input} (hev : ∀ v, i ≠ .event v) (hstart : i ≠ .start)
    (halive : d.alive = true) (hopen : OpensIn w out d i)
    (hturns : EveryChannel Channel.TakesTurns d.core) (h : TurnOn (d.channel id) (out id))
    (halive' : (d.step (w, i)).alive = true) :
    TurnOn ((d.step (w, i)).channel id) (out id ++ (d.step (w, i)).sentOn id) := by
  have hfresh : TurnOn (d.fresh.channel id) (out id ++ d.fresh.sentOn id) := by
    show TurnOn (d.channel id) (out id ++ [])
    rw [List.append_nil]
    exact h
  have hstep := step_of_alive d.fresh_eq halive w i
  cases i with
  | event v => exact absurd rfl (hev v)
  | start => exact absurd rfl hstart
  | update u =>
    rw [hstep]
    exact hfresh.quiet (quiet_agentUpdate d.fresh u)
  | command c =>
    have hopen' : Opening out d.fresh (d.step (w, .command c)) := hopen
    rw [hstep] at hopen' ⊢
    refine turnOn_stage (stage_handleCommand d.fresh c) hopen' hturns (fun hnil => ?_) hfresh
    rw [hnil]
    rfl
  | tick =>
    rw [hstep]
    have hbefore : Quiet id d.fresh (refreshHeartbeats w (reloadConfig w d.fresh)) :=
      quiet_beforeStale d.fresh
    exact (turnOn_staleJobs _ hopen (everyChannel_traced kept_takesTurns hbefore.traced hturns)
      (hfresh.quiet hbefore)).quiet (quiet_afterStale _)
  | shutdown =>
    rw [hstep] at halive'
    cases halive'

/-- A process starts with no active channel. -/
theorem inactive_start (hshut : EveryChannel Channel.Shut d.core)
    (halive : (d.step (w, .start)).alive = true) {c : Channel}
    (hc : (d.step (w, .start)).channel id = some c) : c.active = false := by
  rw [step_start] at halive hc
  obtain ⟨l, _, hcore, hl⟩ := boot_calls w d.fresh
  rcases hl with ⟨_, hdead⟩ | rfl
  · rw [hdead] at halive
    cases halive
  · have hc' : (d.fresh.boot w).core.engine.store.getChannel id = some c := hc
    rw [hcore] at hc'
    exact inactive_hydrate (c := d.core) hshut w hc'

end

end ZeptoPM
