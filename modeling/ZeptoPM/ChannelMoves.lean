import ZeptoPM.Calls

/- What every call on the engine makes of every channel. A channel is created by a
   plan, activated, written to by a routed message, and closed; `Moved` lists these
   changes and `channel_call` shows that there are no others. -/
namespace ZeptoPM
open OrchestratorEngine

/-- The participant whose turn it is. -/
def Channel.speaker (c : Channel) : Option JobId := c.participants[c.currentSpeakerIdx]?

/-- The channel takes a message from the job: it is active, the job takes part, and
where turns are taken it is the job's. -/
def Channel.Hears (c : Channel) (fromJob : JobId) : Prop :=
  c.active = true ∧ fromJob ∈ c.participants ∧ (c.mode = .turnBased → c.speaker = some fromJob)

instance (c : Channel) (fromJob : JobId) : Decidable (c.Hears fromJob) :=
  inferInstanceAs (Decidable (_ ∧ _ ∧ _))

/-- Who speaks after the next message. -/
def Channel.nextIdx (c : Channel) : Nat := (c.currentSpeakerIdx + 1) % c.participants.length

/-- The round after the next message. -/
def Channel.nextRound (c : Channel) : Nat :=
  if c.nextIdx = 0 then u32Succ c.currentRound else c.currentRound

/-- Whether the next message is the last one. -/
def Channel.lastMessage (c : Channel) : Bool := c.maxRounds.any (fun m => c.nextRound ≥ m)

/-- What routing a message makes of its channel. -/
def Channel.routed (w : World) (fromJob : JobId) (content : String) (c : Channel) : Channel :=
  if c.Hears fromJob then
    if c.lastMessage then (c.record w fromJob content c.nextIdx c.nextRound).close
    else c.record w fromJob content c.nextIdx c.nextRound
  else c

section
variable (w : World) (e : OrchestratorEngine)

/-- A message is refused by a channel that is not there or does not take it. -/
theorem route_refused {chId : ChannelId} {fromJob : JobId} (content : String)
    (h : ∀ c, e.store.getChannel chId = some c → ¬ c.Hears fromJob) :
    e.routeChannelMessage w chId fromJob content = (.noOp, e) := by
  unfold routeChannelMessage
  cases hget : e.store.getChannel chId with
  | none => rfl
  | some c =>
    have hno := h c hget
    dsimp only
    split
    · rfl
    · rename_i hactive
      split
      · rfl
      · rename_i hpart
        split
        · rfl
        · rename_i hturn
          exfalso
          rw [Bool.not_eq_true', Bool.not_eq_false] at hactive
          rw [Bool.or_eq_true, not_or, Bool.not_eq_true', Bool.not_eq_false,
            List.contains_iff_mem] at hpart
          refine hno ⟨hactive, hpart.2, fun hmode => ?_⟩
          by_contra hne
          apply hturn
          rw [Bool.and_eq_true]
          exact ⟨by simp [hmode], bne_iff_ne.mpr hne⟩

/-- What is asked of the daemon after the channel has taken a message. -/
def Channel.routeAction (c : Channel) (fromJob : JobId) (content : String) : ChannelAction :=
  if c.lastMessage then .close c.channelId
  else match c.mode with
    | .turnBased => .sendTo ((c.participants[c.nextIdx]?).getD "") content
    | .stream =>
      match c.participants.filter (fun p => p != fromJob) with
      | [] => .noOp
      | [target] => .sendTo target content
      | targets => .broadcast targets content

/-- A message is recorded by a channel that takes it. -/
theorem route_recorded {chId : ChannelId} {fromJob : JobId} (content : String) {c : Channel}
    (hget : e.store.getChannel chId = some c) (h : c.Hears fromJob) :
    (e.routeChannelMessage w chId fromJob content).1 = c.routeAction fromJob content ∧
      ∀ k, (e.routeChannelMessage w chId fromJob content).2.store.getChannel k =
        if k = chId then some (c.routed w fromJob content) else e.store.getChannel k := by
  obtain ⟨hactive, hpart, hturn⟩ := h
  have hid := RunStore.channelId_of_getChannel hget
  have hempty : (c.participants.isEmpty || !c.participants.contains fromJob) = false := by
    rw [Bool.or_eq_false_iff, List.isEmpty_eq_false_iff, Bool.not_eq_false',
      List.contains_iff_mem]
    exact ⟨List.ne_nil_of_mem hpart, hpart⟩
  have hspeak : (c.mode == .turnBased && c.participants[c.currentSpeakerIdx]? != some fromJob) =
      false := by
    cases hmode : c.mode with
    | turnBased =>
      have hspeaker : c.participants[c.currentSpeakerIdx]? = some fromJob := hturn hmode
      simp [hspeaker]
    | stream => rfl
  -- the round is over once the turn is back at the first participant
  have hround : (if (c.currentSpeakerIdx + 1) % c.participants.length == 0 then
      u32Succ c.currentRound else c.currentRound) = c.nextRound := by
    unfold Channel.nextRound Channel.nextIdx
    simp only [beq_iff_eq]
  have hrec : ∀ k, (e.store.alterChannel chId
      (Channel.record w fromJob content c.nextIdx c.nextRound)
      (Channel.record_channelId w fromJob content c.nextIdx c.nextRound)).getChannel k =
      if k = chId then some (c.record w fromJob content c.nextIdx c.nextRound)
      else e.store.getChannel k := by
    intro k
    rw [RunStore.getChannel_alterChannel, hget]
    rfl
  have hrouted : c.routed w fromJob content = if c.lastMessage then
      (c.record w fromJob content c.nextIdx c.nextRound).close
      else c.record w fromJob content c.nextIdx c.nextRound := by
    rw [Channel.routed, if_pos ⟨hactive, hpart, hturn⟩]
  unfold routeChannelMessage
  rw [hget]
  simp only [hactive, hempty, hspeak, hround, Bool.not_true, Bool.false_eq_true, if_false]
  change (if c.lastMessage = true then _ else _ : ChannelAction × OrchestratorEngine).1 = _ ∧
    ∀ k, (if c.lastMessage = true then _ else _ : ChannelAction × OrchestratorEngine).2.store.getChannel
      k = _
  by_cases hlast : c.lastMessage = true
  · rw [if_pos hlast, hrouted, if_pos hlast, Channel.routeAction, if_pos hlast, hid]
    refine ⟨rfl, fun k => ?_⟩
    refine (RunStore.getChannel_alterChannel ..).trans ?_
    by_cases hk : k = chId
    · rw [if_pos hk, if_pos hk]
      exact congrArg (Option.map Channel.close) ((hrec chId).trans (if_pos rfl))
    · rw [if_neg hk, if_neg hk]
      exact (hrec k).trans (if_neg hk)
  · rw [if_neg hlast, hrouted, if_neg hlast, Channel.routeAction, if_neg hlast]
    refine ⟨rfl, fun k => hrec k⟩

/-- Routing changes no channel but the one the message is sent on. -/
theorem getChannel_route (chId : ChannelId) (fromJob : JobId) (content : String) (k : ChannelId) :
    (e.routeChannelMessage w chId fromJob content).2.store.getChannel k =
      if k = chId then (e.store.getChannel chId).map (Channel.routed w fromJob content)
      else e.store.getChannel k := by
  by_cases h : ∃ c, e.store.getChannel chId = some c ∧ c.Hears fromJob
  · obtain ⟨c, hget, hears⟩ := h
    rw [(route_recorded w e content hget hears).2, hget]
    rfl
  · have hno : ∀ c, e.store.getChannel chId = some c → ¬ c.Hears fromJob :=
      fun c hget hears => h ⟨c, hget, hears⟩
    rw [route_refused w e content hno]
    split
    · rename_i hk
      rw [hk]
      cases hget : e.store.getChannel chId with
      | none => rfl
      | some c => rw [Option.map_some, Channel.routed, if_neg (hno c hget)]
    · rfl

/-- The job may close the channel by a `channel_done`. -/
def Channel.Ends (c : Channel) (fromJob : JobId) : Prop :=
  c.active = true ∧ fromJob ∈ c.participants

instance (c : Channel) (fromJob : JobId) : Decidable (c.Ends fromJob) :=
  inferInstanceAs (Decidable (_ ∧ _))

theorem done_refused {chId : ChannelId} {fromJob : JobId}
    (h : ∀ c, e.store.getChannel chId = some c → ¬ c.Ends fromJob) :
    e.handleChannelDone chId fromJob = (.noOp, e) := by
  unfold handleChannelDone
  cases hget : e.store.getChannel chId with
  | none => rfl
  | some c =>
    have hno := h c hget
    dsimp only
    split
    · rfl
    · rename_i hactive
      split
      · rfl
      · rename_i hpart
        rw [Bool.not_eq_true', Bool.not_eq_false] at hactive hpart
        exact absurd ⟨hactive, List.contains_iff_mem.mp hpart⟩ hno

theorem done_closes {chId : ChannelId} {fromJob : JobId} {c : Channel}
    (hget : e.store.getChannel chId = some c) (h : c.Ends fromJob) :
    e.handleChannelDone chId fromJob = (.close chId,
      { e with store := e.store.alterChannel chId Channel.close Channel.close_channelId }) := by
  have hpart : c.participants.contains fromJob = true := List.contains_iff_mem.mpr h.2
  simp only [handleChannelDone, hget, h.1, hpart, Bool.not_true, Bool.false_eq_true, if_false]

theorem getChannel_done (chId : ChannelId) (fromJob : JobId) (k : ChannelId) :
    (e.handleChannelDone chId fromJob).2.store.getChannel k =
      if k = chId then (e.store.getChannel chId).map (fun c =>
        if c.Ends fromJob then c.close else c)
      else e.store.getChannel k := by
  by_cases h : ∃ c, e.store.getChannel chId = some c ∧ c.Ends fromJob
  · obtain ⟨c, hget, hends⟩ := h
    rw [done_closes e hget hends]
    refine (RunStore.getChannel_alterChannel ..).trans ?_
    rw [hget, Option.map_some, Option.map_some, if_pos hends]
  · have hno : ∀ c, e.store.getChannel chId = some c → ¬ c.Ends fromJob :=
      fun c hget hends => h ⟨c, hget, hends⟩
    rw [done_refused e hno]
    by_cases hk : k = chId
    · subst hk
      rw [if_pos rfl]
      cases hget : e.store.getChannel k with
      | none => rfl
      | some c => rw [Option.map_some, if_neg (hno c hget)]
    · rw [if_neg hk]

theorem getChannel_peerFailure (chId : ChannelId) (failedJob : JobId) (k : ChannelId) :
    (e.handleChannelPeerFailure chId failedJob).2.store.getChannel k =
      if k = chId then (e.store.getChannel chId).map Channel.close else e.store.getChannel k := by
  cases hget : e.store.getChannel chId with
  | none =>
    have hsame : e.handleChannelPeerFailure chId failedJob = (.noOp, e) := by
      simp only [handleChannelPeerFailure, hget]
    rw [hsame]
    by_cases hk : k = chId
    · rw [if_pos hk, hk]
      exact hget
    · rw [if_neg hk]
  | some c =>
    have hstore : (e.handleChannelPeerFailure chId failedJob).2.store =
        e.store.alterChannel chId Channel.close Channel.close_channelId := by
      simp only [handleChannelPeerFailure, hget]
      cases c.onPeerFailure <;> rfl
    rw [hstore, RunStore.getChannel_alterChannel, hget]

/-- Exactly the channels that can be activated in runs with an active job are. -/
theorem getChannel_activate (k : ChannelId) :
    (e.activateReadyChannels w).2.store.getChannel k = (e.store.getChannel k).map (fun c =>
      if (e.activeRunIds w).contains c.runId && activatable e.store c then c.activate else c) :=
  activated_activateReadyChannels.getChannel k

@[simp] theorem getChannel_cancelRun (r : RunId) (k : ChannelId) :
    (e.cancelRun w r).2.store.getChannel k = e.store.getChannel k := by
  have hloop : ∀ (l : List (JobId × JobStatus)) (acc : OrchestratorEngine × Nat),
      (l.foldl (cancelJob w) acc).1.store.getChannel k = acc.1.store.getChannel k := by
    intro l
    induction l with
    | nil => exact fun _ => rfl
    | cons entry l ih =>
      intro acc
      rw [List.foldl_cons, ih, cancelJob]
      split
      · exact getChannel_markFailed ..
      · rfl
  unfold cancelRun
  split
  · rfl
  · split
    · rfl
    · exact hloop (e.jobsToCancel w r) (e, 0)

end

/-! ## The changes -/

/-- What one call makes of a channel that was there before. -/
inductive Channel.Moved (w : World) : Channel → Channel → Prop where
  | same (c : Channel) : Moved w c c
  | activated (c : Channel) (inactive : c.active = false) (isOpen : c.closed = false) :
      Moved w c c.activate
  | routed (c : Channel) (fromJob : JobId) (content : String) :
      Moved w c (c.routed w fromJob content)
  | closed (c : Channel) : Moved w c c.close

theorem Channel.routed_between (w : World) (fromJob : JobId) (content : String) (c : Channel) :
    (c.routed w fromJob content).runId = c.runId ∧
      (c.routed w fromJob content).participants = c.participants := by
  unfold Channel.routed
  split
  · split <;> exact ⟨rfl, rfl⟩
  · exact ⟨rfl, rfl⟩

/-- A channel keeps its run and its participants. -/
theorem Channel.Moved.between {w : World} {c c' : Channel} (h : c.Moved w c') :
    c'.runId = c.runId ∧ c'.participants = c.participants := by
  cases h with
  | same => exact ⟨rfl, rfl⟩
  | activated => exact ⟨rfl, rfl⟩
  | routed j content => exact c.routed_between w j content
  | closed => exact ⟨rfl, rfl⟩

/-- A channel as a plan creates it. -/
structure Channel.New (c : Channel) : Prop where
  currentRound : c.currentRound = 0
  currentSpeakerIdx : c.currentSpeakerIdx = 0
  active : c.active = false
  closed : c.closed = false
  history : c.history = []

theorem new_planChannels {w : World} {ids : IdSupply} {r : RunId} {plan : ExecutionPlan}
    {c : Channel} (h : c ∈ planChannels w ids r plan) : c.New := by
  obtain ⟨planned, _, rfl⟩ := List.mem_map.mp h
  exact ⟨rfl, rfl, rfl, rfl, rfl⟩

theorem Channel.routed_active {w : World} {fromJob : JobId} {content : String} {c : Channel}
    (h : (c.routed w fromJob content).active = true) : c.active = true := by
  unfold Channel.routed at h
  split at h
  · rename_i hears
    exact hears.1
  · exact h

/-- The channel is one that the call creates. -/
def Call.Plans (w : World) (e : OrchestratorEngine) (c : Channel) : Call → Prop
  | .materializePlan r _ plan | .acceptPlan r _ plan => c ∈ planChannels w e.ids r plan
  | _ => False

theorem Call.Plans.new {w : World} {e : OrchestratorEngine} {c : Channel} {f : Call}
    (h : f.Plans w e c) : c.New := by
  cases f with
  | materializePlan r p plan => exact new_planChannels h
  | acceptPlan r p plan => exact new_planChannels h
  | _ => exact absurd h id

/-- The call leaves every channel as it is. -/
def Call.sparesChannels : Call → Bool
  | .materializePlan .. | .acceptPlan .. | .activateReadyChannels | .routeChannelMessage .. => false
  | .handleChannelDone .. | .handleChannelPeerFailure .. | .removeRun _ => false
  | _ => true

theorem getChannel_spared (w : World) (e : OrchestratorEngine) {f : Call}
    (h : f.sparesChannels = true) (k : ChannelId) :
    (f.apply w e).store.getChannel k = e.store.getChannel k := by
  cases f with
  | submitRun task => rfl
  | nextJob =>
    show e.nextJob.2.store.getChannel k = _
    rcases nextJob_cases e with ⟨q, heq, _⟩ | ⟨job, q, _, _, _, heq⟩ <;> rw [heq]
  | markRunning j =>
    show (e.markRunning w j).store.getChannel k = _
    unfold markRunning
    split <;> rfl
  | startNext =>
    show (e.startNext w).2.store.getChannel k = _
    rcases startNext_cases w e with ⟨q, heq, _⟩ | ⟨job, q, _, _, _, heq⟩ <;> rw [heq]
    rfl
  | recordHeartbeat j =>
    show (e.recordHeartbeat w j).store.getChannel k = _
    unfold recordHeartbeat
    split <;> rfl
  | markCompleted j o => exact getChannel_markCompleted ..
  | markFailed j err => exact getChannel_markFailed ..
  | handleReviewCompletion j d m => exact getChannel_review ..
  | createArtifact a => rfl
  | cancelRun r => exact getChannel_cancelRun ..
  | _ => cases h

/-- Every channel after a call was there before and has moved, or is one of the plan. It
has been activated by the scan if it is active and was not. -/
theorem channel_change (w : World) (e : OrchestratorEngine) (f : Call) {k : ChannelId}
    {c' : Channel} (hk : (f.apply w e).store.getChannel k = some c') :
    (∃ c, e.store.getChannel k = some c ∧ c.Moved w c' ∧ (c'.active = true →
      c.active = true ∨ f = .activateReadyChannels ∧ allRunning e.store c = true)) ∨
      f.Plans w e c' := by
  have hmapped : ∀ {chId : ChannelId} {g : Channel → Channel}, (∀ c : Channel, c.Moved w (g c)) →
      (∀ c : Channel, (g c).active = true → c.active = true) →
      (f.apply w e).store.getChannel k =
        (if k = chId then (e.store.getChannel chId).map g else e.store.getChannel k) →
      (∃ c, e.store.getChannel k = some c ∧ c.Moved w c' ∧ (c'.active = true →
        c.active = true ∨ f = .activateReadyChannels ∧ allRunning e.store c = true)) ∨
        f.Plans w e c' := by
    intro chId g hg hactive heq
    rw [hk] at heq
    split at heq
    · rename_i hkc
      obtain ⟨c, hc, rfl⟩ := Option.map_eq_some_iff.mp heq.symm
      exact Or.inl ⟨c, hkc ▸ hc, hg c, fun h => Or.inl (hactive c h)⟩
    · exact Or.inl ⟨c', heq.symm, .same c', Or.inl⟩
  by_cases hspare : f.sparesChannels = true
  · rw [getChannel_spared w e hspare] at hk
    exact Or.inl ⟨c', hk, .same c', Or.inl⟩
  cases f with
  | materializePlan r p plan =>
    rcases getChannel_materializePlan_cases hk with hmem | ⟨_, hold⟩
    · exact Or.inr hmem
    · exact Or.inl ⟨c', hold, .same c', Or.inl⟩
  | acceptPlan r p plan =>
    rcases getChannel_acceptPlan_cases hk with hmem | ⟨_, hold⟩
    · exact Or.inr hmem
    · exact Or.inl ⟨c', hold, .same c', Or.inl⟩
  | activateReadyChannels =>
    have hget := (getChannel_activate w e k).symm.trans hk
    obtain ⟨c, hc, rfl⟩ := Option.map_eq_some_iff.mp hget
    refine Or.inl ⟨c, hc, ?_⟩
    split
    · rename_i hact
      simp only [Bool.and_eq_true, activatable, Bool.not_eq_true'] at hact
      exact ⟨.activated c hact.2.1.1 hact.2.1.2, fun _ => Or.inr ⟨rfl, hact.2.2⟩⟩
    · exact ⟨.same c, Or.inl⟩
  | routeChannelMessage ch j m =>
    exact hmapped (fun c => .routed c j m) (fun _ => Channel.routed_active) (getChannel_route ..)
  | handleChannelDone ch j =>
    refine hmapped (fun c => ?_) (fun c h => ?_) (getChannel_done ..)
    · split
      · exact .closed c
      · exact .same c
    · split at h
      · cases h
      · exact h
  | handleChannelPeerFailure ch j =>
    exact hmapped .closed (fun _ h => by cases h) (getChannel_peerFailure ..)
  | removeRun r =>
    have hget := (RunStore.getChannel_removeRun w e.store r k).symm.trans hk
    rw [Option.filter_eq_some_iff] at hget
    exact Or.inl ⟨c', hget.1, .same c', Or.inl⟩
  | _ => exact absurd rfl hspare

theorem channel_call (w : World) (e : OrchestratorEngine) (f : Call) {k : ChannelId}
    {c' : Channel} (hk : (f.apply w e).store.getChannel k = some c') :
    (∃ c, e.store.getChannel k = some c ∧ c.Moved w c') ∨ c'.New :=
  (channel_change w e f hk).imp (fun ⟨c, hc, hmoved, _⟩ => ⟨c, hc, hmoved⟩) Call.Plans.new

/-- A call that neither scans nor routes on a channel leaves it as it is, or inactive. -/
theorem channel_calm (w : World) (e : OrchestratorEngine) {f : Call} {k : ChannelId}
    (hscan : f ≠ .activateReadyChannels) (hroute : ∀ j m, f ≠ .routeChannelMessage k j m) :
    (f.apply w e).store.getChannel k = e.store.getChannel k ∨
      ∀ c', (f.apply w e).store.getChannel k = some c' → c'.active = false := by
  by_cases hspare : f.sparesChannels = true
  · exact Or.inl (getChannel_spared w e hspare k)
  have hplanned : (∀ c', (f.apply w e).store.getChannel k = some c' →
      f.Plans w e c' ∨ e.store.getChannel k = some c') →
      (f.apply w e).store.getChannel k = e.store.getChannel k ∨
        ∀ c', (f.apply w e).store.getChannel k = some c' → c'.active = false := by
    intro hcases
    cases hget : (f.apply w e).store.getChannel k with
    | none => exact Or.inr (fun _ h => by cases h)
    | some c' =>
      rcases hcases c' hget with hnew | hold
      · right
        intro c'' h
        cases h
        exact hnew.new.active
      · exact Or.inl hold.symm
  -- a call on one channel that leaves it or closes it
  have hclosed : ∀ {chId : ChannelId} {g : Channel → Channel},
      (∀ c : Channel, g c = c ∨ (g c).active = false) → (f.apply w e).store.getChannel k =
        (if k = chId then (e.store.getChannel chId).map g else e.store.getChannel k) →
      (f.apply w e).store.getChannel k = e.store.getChannel k ∨
        ∀ c', (f.apply w e).store.getChannel k = some c' → c'.active = false := by
    intro chId g hg heq
    by_cases hk : k = chId
    · rw [heq, if_pos hk, hk]
      cases hget : e.store.getChannel chId with
      | none => exact Or.inl rfl
      | some c =>
        rcases hg c with hsame | hoff
        · exact Or.inl (congrArg some hsame)
        · right
          intro c' hc'
          cases hc'
          exact hoff
    · exact Or.inl (heq.trans (if_neg hk))
  cases f with
  | materializePlan r p plan =>
    exact hplanned (fun c' hk => (getChannel_materializePlan_cases hk).imp_right And.right)
  | acceptPlan r p plan =>
    exact hplanned (fun c' hk => (getChannel_acceptPlan_cases hk).imp_right And.right)
  | activateReadyChannels => exact absurd rfl hscan
  | routeChannelMessage ch j m =>
    have hne : k ≠ ch := by
      intro heq
      subst heq
      exact hroute j m rfl
    exact Or.inl ((getChannel_route w e ch j m k).trans (if_neg hne))
  | handleChannelDone ch j =>
    refine hclosed (fun c => ?_) (getChannel_done ..)
    split
    · exact Or.inr rfl
    · exact Or.inl rfl
  | handleChannelPeerFailure ch j => exact hclosed (fun c => Or.inr rfl) (getChannel_peerFailure ..)
  | removeRun r =>
    refine hplanned (fun c' hk => Or.inr ?_)
    have hget := (RunStore.getChannel_removeRun w e.store r k).symm.trans hk
    rw [Option.filter_eq_some_iff] at hget
    exact hget.1
  | _ => exact absurd rfl hspare

end ZeptoPM
