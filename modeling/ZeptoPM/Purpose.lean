import ZeptoPM.Attendance

/- What a channel participant runs for. Its work comes over its channels, and it is
   completed when the last of them closes; a channel that is open and whose participants can
   all still speak is live. Calls end channels one by one, and what they leave behind are
   running jobs without a live channel. `Purposes` asks of each call that ends a channel, or
   starts a job, that the jobs concerned have another live channel or are stopped before the
   step is over. -/
namespace ZeptoPM
open OrchestratorEngine

/-- The channel is open, and none of its participants is over. -/
def OrchestratorEngine.Live (e : OrchestratorEngine) (ch : Channel) : Prop :=
  ch.closed = false ∧
    ∀ k ∈ ch.participants, e.statusOf k ≠ some .failed ∧ e.statusOf k ≠ some .completed

instance (e : OrchestratorEngine) (ch : Channel) : Decidable (e.Live ch) :=
  inferInstanceAs (Decidable (_ ∧ _))

/-- Every running job that takes part in a channel takes part in a live one. -/
def Purposeful (e : OrchestratorEngine) : Prop :=
  ∀ k, e.statusOf k = some .running →
    (∃ id ch, e.store.getChannel id = some ch ∧ k ∈ ch.participants) →
      ∃ id ch, e.store.getChannel id = some ch ∧ k ∈ ch.participants ∧ e.Live ch

/-- The channels that are not live any more after the call: those of a job that is over by
it, the one that it closes, those that a plan replaces. A cancellation leaves nobody in the
channels of its run. -/
def Call.ends (w : World) (e : OrchestratorEngine) : Call → List Channel
  | .markCompleted j _ => e.store.allChannelsForJob w j
  | .markFailed j _ => if e.requeues j then [] else e.store.allChannelsForJob w j
  | .routeChannelMessage id j _ =>
    (e.store.getChannel id).toList.filter (fun ch => ch.Hears j ∧ ch.lastMessage = true)
  | .handleChannelDone id j => (e.store.getChannel id).toList.filter (fun ch => ch.Ends j)
  | .handleChannelPeerFailure id _ => (e.store.getChannel id).toList
  | .acceptPlan r _ plan =>
    (planChannels w e.ids r plan).filterMap (fun ch => e.store.getChannel ch.channelId)
  | _ => []

/-- The call completes or fails the job. -/
def Stops (k : JobId) (c : Core) (x : World × Action) : Prop :=
  match x.2 with
  | .call _ f => k ∈ f.stops x.1 c.engine
  | _ => False

instance (k : JobId) (c : Core) (x : World × Action) : Decidable (Stops k c x) := by
  obtain ⟨w, ⟨r₀, f⟩ | _⟩ := x
  all_goals
    dsimp only [Stops]
    infer_instance

/-- The participants of a channel that ends, and a job that is started, have a live channel
afterwards or are stopped later in the step. -/
def Purposes (c : Core) (x : World × Action) (rest : List (World × Action)) : Prop :=
  match x.2 with
  | .call _ f =>
    (∀ ch ∈ f.ends x.1 c.engine, ∀ k ∈ ch.participants,
      c.engine.statusOf k = some .running → k ∉ f.stops x.1 c.engine →
        (∃ ch' ∈ c.engine.store.allChannelsForJob x.1 k, c.engine.Live ch' ∧
          ch'.channelId ∉ (f.ends x.1 c.engine).map (·.channelId)) ∨
        Occurs coreStep (Stops k) (coreStep c x) rest) ∧
    ∀ job ∈ f.handsOut x.1 c.engine,
      c.engine.store.allChannelsForJob x.1 job.jobId = [] ∨
      (∃ ch ∈ c.engine.store.allChannelsForJob x.1 job.jobId, (coreStep c x).engine.Live ch) ∨
        Occurs coreStep (Stops job.jobId) (coreStep c x) rest
  | _ => True

instance (c : Core) (x : World × Action) (rest : List (World × Action)) :
    Decidable (Purposes c x rest) := by
  have hempty : ∀ l : List Channel, Decidable (l = []) :=
    fun l => decidable_of_iff _ List.isEmpty_iff
  obtain ⟨w, ⟨r₀, f⟩ | _⟩ := x
  all_goals
    dsimp only [Purposes]
    infer_instance

/-- In the middle of a step a job without a live channel may still be about to be stopped. -/
def PurposefulUntil (c : Core) (rest : List (World × Action)) : Prop :=
  ∀ k, c.engine.statusOf k = some .running →
    (∃ id ch, c.engine.store.getChannel id = some ch ∧ k ∈ ch.participants) →
      (∃ id ch, c.engine.store.getChannel id = some ch ∧ k ∈ ch.participants ∧
        c.engine.Live ch) ∨ Occurs coreStep (Stops k) c rest

section
variable {w : World} {e : OrchestratorEngine} {db : Option SqlitePersistence}
  {rest : List (World × Action)}

/-- A channel that does not end stays open. -/
theorem open_call {r : RunId} {f : Call} (hl : Legal ⟨e, db⟩ (w, .call r f)) {id : ChannelId}
    {ch : Channel} (hch : e.store.getChannel id = some ch) (hopen : ch.closed = false)
    (hends : ch ∉ f.ends w e) : ∃ ch', (f.apply w e).store.getChannel id = some ch' ∧
      ch'.closed = false ∧ ch'.participants = ch.participants := by
  have hmem : ch ∈ (e.store.getChannel id).toList := by
    rw [hch]
    exact List.mem_singleton.mpr rfl
  have hsame : (f.apply w e).store.getChannel id = e.store.getChannel id →
      ∃ ch', (f.apply w e).store.getChannel id = some ch' ∧ ch'.closed = false ∧
        ch'.participants = ch.participants := fun heq => ⟨ch, heq.trans hch, hopen, rfl⟩
  by_cases hspare : f.sparesChannels = true
  · exact hsame (getChannel_spared w e hspare id)
  cases f with
  | acceptPlan r' p plan =>
    refine hsame (getChannel_materializePlan_of_notMem ?_)
    intro hplan
    obtain ⟨c, hc, hid⟩ := List.mem_map.mp hplan
    exact hends (List.mem_filterMap.mpr ⟨c, hc, (congrArg e.store.getChannel hid).trans hch⟩)
  | activateReadyChannels =>
    have hget := getChannel_activate w e id
    rw [hch, Option.map_some] at hget
    refine ⟨_, hget, ?_⟩
    split <;> exact ⟨hopen, rfl⟩
  | routeChannelMessage id' j m =>
    have hget := getChannel_route w e id' j m id
    by_cases hid : id = id'
    · subst hid
      rw [if_pos rfl, hch] at hget
      refine ⟨_, hget, ?_, (ch.routed_between w j m).2⟩
      unfold Channel.routed
      split
      · rename_i hears
        split
        · rename_i hlast
          exact absurd (List.mem_filter.mpr ⟨hmem, decide_eq_true ⟨hears, hlast⟩⟩) hends
        · exact hopen
      · exact hopen
    · rw [if_neg hid] at hget
      exact hsame hget
  | handleChannelDone id' j =>
    have hget := getChannel_done e id' j id
    by_cases hid : id = id'
    · subst hid
      have hno : ¬ ch.Ends j :=
        fun h => hends (List.mem_filter.mpr ⟨hmem, decide_eq_true h⟩)
      rw [if_pos rfl, hch, Option.map_some, if_neg hno] at hget
      exact ⟨ch, hget, hopen, rfl⟩
    · rw [if_neg hid] at hget
      exact hsame hget
  | handleChannelPeerFailure id' j =>
    have hget := getChannel_peerFailure e id' j id
    by_cases hid : id = id'
    · subst hid
      exact absurd hmem hends
    · rw [if_neg hid] at hget
      exact hsame hget
  | materializePlan r p plan => exact absurd hl.2 (fun h => h)
  | removeRun r => exact absurd hl.2 (fun h => h)
  | _ => exact absurd rfl hspare

/-- A job that has been retried is not over. -/
theorem statusOf_markFailed_retried {j : JobId} {err : String} (h : e.requeues j = true) :
    (e.markFailed w j err).statusOf j = some .ready := by
  obtain ⟨job, hjob, hretry⟩ := (requeues_iff e j).mp h
  have hget := getJob_markFailed w e j err j
  rw [if_pos rfl, hjob] at hget
  rw [statusOf_some hget, Job.fail_status, if_pos hretry]

/-- A live channel that does not end stays live for those of its participants that keep
running. -/
theorem live_call {r : RunId} {f : Call} (hg : Grounded e) (hl : Legal ⟨e, db⟩ (w, .call r f))
    {id : ChannelId} {ch : Channel} (hch : e.store.getChannel id = some ch) (hlive : e.Live ch)
    (hends : ch ∉ f.ends w e) {k : JobId} (hk : k ∈ ch.participants)
    (hrun : e.statusOf k = some .running) (hstop : k ∉ f.stops w e) :
    ∃ ch', (f.apply w e).store.getChannel id = some ch' ∧ k ∈ ch'.participants ∧
      (f.apply w e).Live ch' := by
  obtain ⟨ch', hch', hopen', hparts⟩ := open_call hl hch hlive.1 hends
  refine ⟨ch', hch', hparts ▸ hk, hopen', ?_⟩
  intro p hp
  rw [hparts] at hp
  have hbefore := hlive.2 p hp
  have hid : ch.channelId = id := RunStore.channelId_of_getChannel hch
  have hmem : ch ∈ e.store.allChannelsForJob w p :=
    RunStore.mem_allChannelsForJob.mpr ⟨hid.symm ▸ hch, hp⟩
  have hmove := status_call hg hl p
  generalize hst : e.statusOf p = st at hmove hbefore
  generalize hst' : (f.apply w e).statusOf p = st' at hmove ⊢
  cases hmove with
  | kept => exact hbefore
  | started => exact ⟨by simp, by simp⟩
  | released => exact ⟨by simp, by simp⟩
  | made st hready =>
    rcases hready with rfl | rfl
    · exact ⟨by simp, by simp⟩
    · exact ⟨by simp, by simp⟩
  | completed st₀ hstopped hf =>
    obtain ⟨o, rfl⟩ := hf
    exact absurd hmem hends
  | failed st₀ st₁ hstopped _ =>
    cases f with
    | markCompleted j o =>
      rw [List.mem_singleton.mp hstopped] at hmem
      exact absurd hmem hends
    | markFailed j err =>
      have hpj : p = j := List.mem_singleton.mp hstopped
      subst hpj
      change ch ∉ if e.requeues p then [] else e.store.allChannelsForJob w p at hends
      -- a participant that is retried is ready, and so keeps the channel live
      by_cases hretry : e.requeues p = true
      · have hready : (e.markFailed w p err).statusOf p = some .ready :=
          statusOf_markFailed_retried hretry
        rw [← hst', show (Call.apply w e (.markFailed p err)).statusOf p = some .ready from hready]
        exact ⟨by simp, by simp⟩
      · rw [if_neg hretry] at hends
        exact absurd hmem hends
    | cancelRun r' =>
      -- the job that keeps running is one of the same run
      rcases cancelRun_cases w hg.supervised.home r' with ⟨err, heq⟩ | ⟨msg, _, hok, _, _, _⟩
      · have hnil : (Call.cancelRun r').stops w e = [] := by simp only [Call.stops, heq]
        rw [hnil] at hstopped
        cases hstopped
      · obtain ⟨job, hjob, hr, _⟩ := (mem_stops_cancelRun hok).mp hstopped
        obtain ⟨jobp, hjobp, hrp⟩ := (hg.channelHome id ch hch).2 p hp
        obtain ⟨jobk, hjobk, hrk⟩ := (hg.channelHome id ch hch).2 k hk
        cases hjob.symm.trans hjobp
        have hunfinished : jobk.status.unfinished = true := by
          have hst := (statusOf_some hjobk).symm.trans hrun
          rw [Option.some.inj hst]
          rfl
        have hrun' : jobk.runId = r' :=
          calc jobk.runId = ch.runId := hrk
            _ = job.runId := hrp.symm
            _ = r' := hr
        exact absurd ((mem_stops_cancelRun hok).mpr ⟨jobk, hjobk, hrun', hunfinished⟩) hstop
    | _ => cases hstopped

/-- A channel in which a job takes part that was there before is no new channel. -/
theorem channel_before {r : RunId} {f : Call} (hg : Grounded e)
    (hl : Legal ⟨e, db⟩ (w, .call r f)) {id : ChannelId} {ch' : Channel} {k : JobId} {job : Job}
    (hch' : (f.apply w e).store.getChannel id = some ch') (hk : k ∈ ch'.participants)
    (hjob : e.store.getJob k = some job) :
    ∃ ch, e.store.getChannel id = some ch ∧ k ∈ ch.participants := by
  rcases channel_change w e f hch' with ⟨ch, hch, hmoved, _⟩ | hnew
  · exact ⟨ch, hch, hmoved.between.2 ▸ hk⟩
  · exfalso
    cases f with
    | acceptPlan r' p plan =>
      obtain ⟨hw, _, hval, _⟩ := hl
      obtain ⟨_, _, _, hparts⟩ := participants_planChannels (p := p) hnew
      obtain ⟨made, hmade, rfl⟩ := hparts k hk
      have hcreated := created_acceptPlan (e := e) (r := r') (p := p) hw
        (validatePlan_eq_nil.mp hval)
      exact hcreated.fresh made hmade (hg.supervised.jobIssued _ job hjob)
    | materializePlan r' p plan => exact absurd hl.2 (fun h => h)
    | _ => exact absurd hnew (fun h => h)

theorem purposeful_call {r : RunId} {f : Call} (hg : Grounded e)
    (hl : Legal ⟨e, db⟩ (w, .call r f)) (h : PurposefulUntil ⟨e, db⟩ ((w, .call r f) :: rest))
    (hok : Purposes ⟨e, db⟩ (w, .call r f) rest) : PurposefulUntil ⟨f.apply w e, db⟩ rest := by
  intro k hrun' hpart'
  have hmove := status_call hg hl k
  obtain ⟨id', ch', hch', hk'⟩ := hpart'
  generalize hst : e.statusOf k = st at hmove
  rw [show (f.apply w e).statusOf k = some .running from hrun'] at hmove
  cases hmove with
  | kept _ hstop =>
    have hstop := hstop rfl
    obtain ⟨job, hjob, _⟩ := statusOf_eq_some.mp hst
    rcases h k hst ⟨id', channel_before hg hl hch' hk' hjob⟩ with hlive | hnow | hlater
    · obtain ⟨id, ch, hch, hk, hlive⟩ := hlive
      by_cases hends : ch ∈ f.ends w e
      · rcases hok.1 ch hends k hk hst hstop with ⟨other, hother, hlive', hno⟩ | hlater
        · left
          obtain ⟨hget, hmem⟩ := RunStore.mem_allChannelsForJob.mp hother
          obtain ⟨ch₁, hch₁, hk₁, hlive₁⟩ := live_call hg hl hget hlive'
            (fun hin => hno (List.mem_map_of_mem hin)) hmem hst hstop
          exact ⟨_, ch₁, hch₁, hk₁, hlive₁⟩
        · exact Or.inr hlater
      · left
        obtain ⟨ch₁, hch₁, hk₁, hlive₁⟩ := live_call hg hl hch hlive hends hk hst hstop
        exact ⟨id, ch₁, hch₁, hk₁, hlive₁⟩
    · exact absurd hnow hstop
    · exact Or.inr hlater
  | failed _ _ _ hne =>
    rcases hne with h | h
    · cases h
    · cases h
  | started _ hstart =>
    cases f with
    | startNext =>
      obtain ⟨job, hjob, rfl⟩ := Option.map_eq_some_iff.mp hstart
      have hsame : ∀ id, (e.startNext w).2.store.getChannel id = e.store.getChannel id :=
        getChannel_spared w e (f := .startNext) rfl
      rcases hok.2 job hjob with hnone | ⟨ch, hch, hlive⟩ | hlater
      · have hget : e.store.getChannel id' = some ch' := (hsame id').symm.trans hch'
        have hid := RunStore.channelId_of_getChannel hget
        have hmem : ch' ∈ e.store.allChannelsForJob w job.jobId :=
          RunStore.mem_allChannelsForJob.mpr ⟨hid.symm ▸ hget, hk'⟩
        rw [show e.store.allChannelsForJob w job.jobId = [] from hnone] at hmem
        cases hmem
      · obtain ⟨hget, hmem⟩ := RunStore.mem_allChannelsForJob.mp hch
        exact Or.inl ⟨_, ch, (hsame _).trans hget, hmem, hlive⟩
      · exact Or.inr hlater
    | _ => cases hstart
  | made st hready =>
    rcases hready with h | h
    · cases h
    · cases h

theorem purposeful_expire (hg : Grounded e) {r : RunId}
    (h : PurposefulUntil ⟨e, db⟩ ((w, .expire r) :: rest)) :
    PurposefulUntil (coreStep ⟨e, db⟩ (w, .expire r)) rest := by
  intro k hrun' hpart'
  obtain ⟨job, hjob', hst⟩ := statusOf_eq_some.mp hrun'
  obtain ⟨hjob, hr⟩ := getJob_expire.mp hjob'
  obtain ⟨id', ch', hch', hk'⟩ := hpart'
  have hbefore : e.statusOf k = some .running := by
    rw [statusOf_some hjob, hst]
  rcases h k hbefore ⟨id', ch', (getChannel_expire.mp hch').1, hk'⟩ with hlive | hnow | hlater
  · left
    obtain ⟨id, ch, hch, hk, hopen, hlive⟩ := hlive
    obtain ⟨jobk, hjobk, hrk⟩ := (hg.channelHome id ch hch).2 k hk
    cases hjob.symm.trans hjobk
    refine ⟨id, ch, getChannel_expire.mpr ⟨hch, hrk ▸ hr⟩, hk, hopen, ?_⟩
    intro p hp
    obtain ⟨jobp, hjobp, hrp⟩ := (hg.channelHome id ch hch).2 p hp
    have hother : jobp.runId ≠ r := by
      intro heq
      apply hr
      calc job.runId = ch.runId := hrk
        _ = jobp.runId := hrp.symm
        _ = r := heq
    have hkeep : (e.removeRun w r).store.getJob p = some jobp := getJob_expire.mpr ⟨hjobp, hother⟩
    show (e.removeRun w r).statusOf p ≠ _ ∧ (e.removeRun w r).statusOf p ≠ _
    rw [statusOf_congr (hkeep.trans hjobp.symm)]
    exact hlive p hp
  · exact absurd hnow (fun h => h)
  · exact Or.inr hlater

/-- No job is running when the process starts. -/
theorem statusOf_hydrate (w : World) (db : Option SqlitePersistence) (ids : IdSupply)
    (k : JobId) : (hydrate w db ids).statusOf k ≠ some .running := by
  intro hrun
  obtain ⟨job, hjob, hst⟩ := statusOf_eq_some.mp hrun
  cases db with
  | none => cases hjob
  | some db =>
    obtain ⟨job₀, _, rfl⟩ := Option.map_eq_some_iff.mp ((getJob_hydrate k).symm.trans hjob)
    exact job₀.recover_ne_running w hst

theorem purposeful_act (c : Core) (x : World × Action) (rest : List (World × Action))
    (hs : Sound c) (hl : Legal c x) (h : PurposefulUntil c (x :: rest))
    (hok : Purposes c x rest) : PurposefulUntil (coreStep c x) rest := by
  obtain ⟨e, db⟩ := c
  obtain ⟨w, a⟩ := x
  have hdrop : (∀ k, ¬ Stops k ⟨e, db⟩ (w, a)) → ∀ k, e.statusOf k = some .running →
      (∃ id ch, e.store.getChannel id = some ch ∧ k ∈ ch.participants) →
        (∃ id ch, e.store.getChannel id = some ch ∧ k ∈ ch.participants ∧ e.Live ch) ∨
          Occurs coreStep (Stops k) (coreStep ⟨e, db⟩ (w, a)) rest := by
    intro hno k hrun hpart
    rcases h k hrun hpart with hlive | hnow | hlater
    · exact Or.inl hlive
    · exact absurd hnow (hno k)
    · exact Or.inr hlater
  cases a with
  | call r f => exact purposeful_call hs.grounded hl h hok
  | persistRunState r => exact hdrop (fun _ h => h)
  | persistArtifact artifact => exact hdrop (fun _ h => h)
  | genId pre => exact hdrop (fun _ h => h)
  | expire r => exact purposeful_expire hs.grounded h
  | hydrate => exact fun k hrun => absurd hrun (statusOf_hydrate w db e.ids k)

end

/-! ## Runs of the daemon -/

theorem purposeful_actions (c : Core) (l : List (World × Action)) (hs : Sound c)
    (hl : Meets coreStep Legal c l) (h : Purposeful c.engine)
    (hok : MeetsRest coreStep Purposes c l) : Purposeful (run coreStep c l).engine := by
  have hkeep : ∀ c x rest, (Sound c ∧ PurposefulUntil c (x :: rest)) →
      (Legal c x ∧ Purposes c x rest) →
      Sound (coreStep c x) ∧ PurposefulUntil (coreStep c x) rest := by
    intro c x rest hc hx
    exact ⟨sound_act hc.1 hx.1, purposeful_act c x rest hc.1 hx.1 hc.2 hx.2⟩
  have hend := run_invariant_rest (P := fun c rest => Sound c ∧ PurposefulUntil c rest) hkeep
    ⟨hs, fun k hrun hpart => Or.inl (h k hrun hpart)⟩ (MeetsRest.and_meets hl hok)
  intro k hrun hpart
  exact (hend.2 k hrun hpart).resolve_right (fun h => h)

/-- As long as every job whose channel ends, and every job that is started, is left with a
live channel or stopped in the same step, no channel participant runs without a purpose. -/
theorem purposeful_run (persistent : Bool) (sandboxOverride : Option Bool) (capsule : Bool)
    (is : List (World × Input))
    (h : Meets Daemon.step (GuardedRest Purposes)
      (Daemon.off persistent sandboxOverride capsule) is) :
    (run Daemon.step (Daemon.off persistent sandboxOverride capsule) is).alive = true →
      Purposeful (run Daemon.step (Daemon.off persistent sandboxOverride capsule) is).engine := by
  refine alive_run (P := fun c => Purposeful c.engine) (Q := fun _ => True)
    (fun _ _ _ _ _ => True.intro) ?_ ?_ (sound_off ..) True.intro ?_ h
  · exact fun c w _ _ _ k hrun => absurd hrun (statusOf_hydrate w c.db c.engine.ids k)
  · exact fun c l hs _ hl _ hp hok => purposeful_actions c l hs hl hp hok
  · intro halive
    cases halive

def messageEvent (channelId fromJob content : String) : Input :=
  .event (.obj [("type", .str "channel_message"), ("channel_id", .str channelId),
    ("from_job", .str fromJob), ("content", .str content)])

/-- Two agents talk, each takes its turn, and the last turn closes their channel. -/
def dialogHeld : List (World × Input) :=
  [(plannerWorld dialogPlan, .start), (plannerWorld dialogPlan, .command (.submitRun "task")),
    (plannerWorld dialogPlan, artifactEvent "job_1_1" "plan"),
    (plannerWorld dialogPlan, completedEvent "job_1_1" ["plan"]),
    (plannerWorld dialogPlan, messageEvent "run_1_0:c" "job_1_2" "hello"),
    (plannerWorld dialogPlan, messageEvent "run_1_0:c" "job_1_3" "bye")]

/-- Both are completed in the step that closes the channel. -/
theorem purposeful_run_dialogHeld :
    Purposeful (run Daemon.step (Daemon.off true none false) dialogHeld).engine :=
  purposeful_run true none false dialogHeld (by decide) (by decide)

/-! ## A dialog that breaks off -/

/-- One of the two agents fails. -/
def dialogBroken : List (World × Input) :=
  [(plannerWorld dialogPlan, .start), (plannerWorld dialogPlan, .command (.submitRun "task")),
    (plannerWorld dialogPlan, artifactEvent "job_1_1" "plan"),
    (plannerWorld dialogPlan, completedEvent "job_1_1" ["plan"]),
    (plannerWorld dialogPlan, failedEvent "job_1_2")]

/-- The channel is closed and both agents are started again. Nothing will ever be sent to
them. -/
theorem not_purposeful_dialogBroken :
    Meets Daemon.step Clocked (Daemon.off true none false) dialogBroken ∧
      (run Daemon.step (Daemon.off true none false) dialogBroken).alive = true ∧
      ¬ Purposeful (run Daemon.step (Daemon.off true none false) dialogBroken).engine := by
  refine ⟨by decide, by decide, fun h => ?_⟩
  obtain ⟨ch, hch, heq⟩ := Option.map_eq_some_iff.mp (show
    ((run Daemon.step (Daemon.off true none false) dialogBroken).engine.store.getChannel
      "run_1_0:c").map (fun ch => (ch.closed, ch.participants)) =
        some (true, ["job_1_2", "job_1_3"]) by decide)
  have hparts : ch.participants = ["job_1_2", "job_1_3"] := congrArg Prod.snd heq
  obtain ⟨id, ch', hch', _, hopen, _⟩ := h "job_1_2" (by decide)
    ⟨"run_1_0:c", ch, hch, hparts ▸ List.mem_cons_self⟩
  -- there is no other channel
  have hclosed : ∀ id ∈ (run Daemon.step (Daemon.off true none false)
      dialogBroken).engine.store.channels.map.keys, ∀ ch' ∈ (run Daemon.step
        (Daemon.off true none false) dialogBroken).engine.store.getChannel id,
          ch'.closed = true := by decide
  by_cases hid : id ∈ (run Daemon.step (Daemon.off true none false)
      dialogBroken).engine.store.channels.map.keys
  · rw [hclosed id hid ch' hch'] at hopen
    cases hopen
  · cases (Table.get_of_notMem_keys hid).symm.trans hch'

end ZeptoPM
