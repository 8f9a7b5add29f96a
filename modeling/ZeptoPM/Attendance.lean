import ZeptoPM.Queue
import ZeptoPM.Turns

/- Active channels and the jobs that talk over them. A channel is activated when all its
   participants are running, and from then on nothing ties the two together: a job leaves
   its channels behind when it completes, is killed as a peer or is cancelled. Only the
   channels of a job that fails by itself are closed first. `Attends` asks of each of these
   calls that the step makes up for it, by closing the channel or by starting the job again. -/
namespace ZeptoPM
open OrchestratorEngine

/-! ## The status of a job -/

def OrchestratorEngine.statusOf (e : OrchestratorEngine) (k : JobId) : Option JobStatus :=
  (e.store.getJob k).map (·.status)

/-- The jobs that the call completes or fails. -/
def Call.stops (w : World) (e : OrchestratorEngine) : Call → List JobId
  | .markCompleted j _ | .markFailed j _ => [j]
  | .cancelRun r =>
    match (e.cancelRun w r).1 with
    | .ok _ => ((e.jobsToCancel w r).filter (fun entry => entry.2.unfinished)).map (·.1)
    | .error _ => []
  | _ => []

/-- The job that the call hands out and starts. -/
def Call.handsOut (w : World) (e : OrchestratorEngine) : Call → Option Job
  | .startNext => (e.startNext w).1
  | _ => none

/-- The call starts the job. -/
def Call.Starts (w : World) (e : OrchestratorEngine) (k : JobId) (f : Call) : Prop :=
  (f.handsOut w e).map (·.jobId) = some k

instance (w : World) (e : OrchestratorEngine) (k : JobId) (f : Call) :
    Decidable (f.Starts w e k) := inferInstanceAs (Decidable (_ = _))

/-- What a call makes of the status of the job `k`. -/
inductive StatusMove (w : World) (e : OrchestratorEngine) (f : Call) (k : JobId) :
    Option JobStatus → Option JobStatus → Prop where
  | kept (st : Option JobStatus) (h : st = some .running → k ∉ f.stops w e) :
      StatusMove w e f k st st
  | completed (st : JobStatus) (h : k ∈ f.stops w e) (hf : ∃ o, f = .markCompleted k o) :
      StatusMove w e f k (some st) (some .completed)
  | failed (st st' : JobStatus) (h : k ∈ f.stops w e) (hst : st' = .ready ∨ st' = .failed) :
      StatusMove w e f k (some st) (some st')
  | started (st : JobStatus) (h : f.Starts w e k) :
      StatusMove w e f k (some st) (some .running)
  | released : StatusMove w e f k (some .pending) (some .ready)
  | made (st : JobStatus) (hst : st = .ready ∨ st = .pending) :
      StatusMove w e f k none (some st)

section
variable {w : World} {e e' : OrchestratorEngine} {k : JobId}

theorem statusOf_eq_some {st : JobStatus} :
    e.statusOf k = some st ↔ ∃ job, e.store.getJob k = some job ∧ job.status = st :=
  Option.map_eq_some_iff

theorem statusOf_congr (h : e'.store.getJob k = e.store.getJob k) :
    e'.statusOf k = e.statusOf k := by
  rw [statusOf, statusOf, h]

theorem statusOf_none (h : e.store.getJob k = none) : e.statusOf k = none := by
  rw [statusOf, h]
  rfl

theorem statusOf_some {job : Job} (h : e.store.getJob k = some job) :
    e.statusOf k = some job.status := by
  rw [statusOf, h]
  rfl

theorem statusMove_markCompleted (j : JobId) (o : List ArtifactId) :
    StatusMove w e (.markCompleted j o) k (e.statusOf k) ((e.markCompleted w j o).statusOf k) := by
  cases hjob : e.store.getJob k with
  | none =>
    have hafter : (e.markCompleted w j o).statusOf k = none := by
      rw [statusOf, getJob_markCompleted, hjob]
      rfl
    rw [statusOf_none hjob, hafter]
    exact .kept none (fun h => by cases h)
  | some job =>
    have hget : (e.markCompleted w j o).store.getJob k = some (e.afterCompletion w j o k job) := by
      rw [getJob_markCompleted, hjob]
      rfl
    obtain ⟨job₀, hjob₀, hcases⟩ := markCompleted_job w e j o hget
    rw [hjob] at hjob₀
    cases hjob₀
    rw [statusOf_some hjob, statusOf_some hget]
    rcases hcases with ⟨hk, heq⟩ | ⟨hk, _, hpending, heq⟩ | ⟨hk, _, heq⟩
    · subst hk
      rw [heq]
      exact .completed _ List.mem_cons_self ⟨o, rfl⟩
    · rw [heq, hpending]
      exact .released
    · rw [heq]
      exact .kept _ (fun _ hmem => hk (List.mem_singleton.mp hmem))

theorem statusMove_markFailed (j : JobId) (err : String) :
    StatusMove w e (.markFailed j err) k (e.statusOf k) ((e.markFailed w j err).statusOf k) := by
  have hget := getJob_markFailed w e j err k
  by_cases hk : k = j
  · subst hk
    rw [if_pos rfl] at hget
    cases hjob : e.store.getJob k with
    | none =>
      rw [statusOf, statusOf, hget, hjob]
      exact .kept none (fun h => by cases h)
    | some job =>
      rw [statusOf, statusOf, hget, hjob]
      exact .failed _ _ List.mem_cons_self (Job.fail_status_cases w job err)
  · rw [if_neg hk] at hget
    rw [statusOf_congr hget]
    exact .kept _ (fun _ hmem => hk (List.mem_singleton.mp hmem))

theorem statusMove_frame {f : Call} (h : Frame e e') (hf : f.stops w e = []) :
    StatusMove w e f k (e.statusOf k) (e'.statusOf k) := by
  rw [statusOf_congr (h.getJob k)]
  exact .kept _ (fun _ hmem => by rw [hf] at hmem; cases hmem)

/-- Jobs are created with fresh ids. -/
theorem statusMove_created (hg : Grounded e) {r : RunId} {new : List Job} {f : Call}
    (h : Created e e' r new) (hf : f.stops w e = []) :
    StatusMove w e f k (e.statusOf k) (e'.statusOf k) := by
  have hkept : ∀ st, StatusMove w e f k st st :=
    fun st => .kept st (fun _ hmem => by rw [hf] at hmem; cases hmem)
  cases hjob : e.store.getJob k with
  | some job =>
    rw [statusOf_congr ((hg.supervised.getJob_created h hjob).trans hjob.symm)]
    exact hkept _
  | none =>
    rw [statusOf_none hjob]
    cases hjob' : e'.store.getJob k with
    | none =>
      rw [statusOf_none hjob']
      exact hkept none
    | some job' =>
      rw [statusOf_some hjob']
      obtain ⟨hmem, _⟩ | ⟨_, hold⟩ := h.cases hjob'
      · apply StatusMove.made
        rcases h.shape job' hmem with ⟨hready, _⟩ | ⟨hpending, _⟩
        · exact Or.inl hready
        · exact Or.inr hpending
      · rw [hjob] at hold
        cases hold

theorem mem_stops_cancelRun {r : RunId} {msg : String} (hok : (e.cancelRun w r).1 = .ok msg) :
    k ∈ (Call.cancelRun r).stops w e ↔ e.Cancels r k := by
  have hstops : (Call.cancelRun r).stops w e =
      ((e.jobsToCancel w r).filter (fun entry => entry.2.unfinished)).map (·.1) := by
    simp only [Call.stops, hok]
  rw [hstops, ← cancels_jobsToCancel (w := w), List.mem_map]
  refine ⟨?_, ?_⟩
  · intro ⟨entry, hmem, hk⟩
    obtain ⟨hmem, hun⟩ := List.mem_filter.mp hmem
    exact ⟨entry.2, hk ▸ hmem, hun⟩
  · intro ⟨st, hmem, hun⟩
    exact ⟨(k, st), List.mem_filter.mpr ⟨hmem, hun⟩, rfl⟩

theorem statusMove_cancelRun (hg : Grounded e) (r : RunId) :
    StatusMove w e (.cancelRun r) k (e.statusOf k) ((e.cancelRun w r).2.statusOf k) := by
  rcases cancelRun_cases w hg.supervised.home r with ⟨err, heq⟩ | ⟨msg, _, hok, _, _, hc⟩
  · have hnil : (Call.cancelRun r).stops w e = [] := by simp only [Call.stops, heq]
    rw [heq]
    exact .kept _ (fun _ hmem => by rw [hnil] at hmem; cases hmem)
  · by_cases hk : e.Cancels r k
    · obtain ⟨job, hjob, _⟩ := id hk
      rw [statusOf, statusOf, hc.getJob_cancelled k hk, hjob]
      exact .failed _ _ ((mem_stops_cancelRun hok).mpr hk) (Job.fail_status_cases w job _)
    · rw [statusOf_congr (hc.getJob_other k hk)]
      exact .kept _ (fun _ hmem => hk ((mem_stops_cancelRun hok).mp hmem))

/-- Every legal call moves the status of every job in one of these ways. -/
theorem status_call {db : Option SqlitePersistence} {r : RunId} {f : Call} (hg : Grounded e)
    (hl : Legal ⟨e, db⟩ (w, .call r f)) (k : JobId) :
    StatusMove w e f k (e.statusOf k) ((f.apply w e).statusOf k) := by
  cases f with
  | markCompleted j o => exact statusMove_markCompleted j o
  | markFailed j err => exact statusMove_markFailed j err
  | cancelRun r => exact statusMove_cancelRun hg r
  | startNext =>
    rcases startNext_cases w e with ⟨q, heq, _⟩ | ⟨job, q, _, hq, hjob, heq⟩
    · show StatusMove w e _ k _ ((e.startNext w).2.statusOf k)
      rw [heq]
      exact .kept _ (fun _ hmem => by cases hmem)
    · show StatusMove w e _ k _ ((e.startNext w).2.statusOf k)
      have hget := getJob_started w e job q k
      by_cases hk : k = job.jobId
      · rw [if_pos hk, hjob] at hget
        rw [heq, statusOf, statusOf, hget, hk, hjob]
        refine .started _ ?_
        show (e.startNext w).1.map (·.jobId) = _
        rw [heq]
        rfl
      · rw [if_neg hk] at hget
        rw [heq, statusOf_congr hget]
        exact .kept _ (fun _ hmem => by cases hmem)
  | submitRun task =>
    cases outcome_call hg hl with
    | frame hf => exact statusMove_frame hf rfl
    | submitted task hn _ => exact statusMove_created hg hn rfl
  | acceptPlan r p plan =>
    cases outcome_call hg hl with
    | frame hf => exact statusMove_frame hf rfl
    | planned r p plan hn => exact statusMove_created hg hn.created rfl
  | handleReviewCompletion j d m =>
    cases outcome_call hg hl with
    | frame hf => exact statusMove_frame hf rfl
    | revised j d m rev new hrev hn => exact statusMove_created hg hn.created rfl
  | _ =>
    cases outcome_call hg hl with
    | frame hf => exact statusMove_frame hf rfl

theorem StatusMove.running {f : Call} {st st' : Option JobStatus}
    (h : StatusMove w e f k st st') (hst : st = some .running) (hk : k ∉ f.stops w e) :
    st' = some .running := by
  cases h with
  | kept => exact hst
  | completed _ hmem => exact absurd hmem hk
  | failed _ _ hmem => exact absurd hmem hk
  | started => rfl
  | released => cases hst
  | made => cases hst

/-- The job at the head of the queue runs once it has been handed out. -/
theorem statusOf_startNext (h : Call.Starts w e k .startNext) :
    (e.startNext w).2.statusOf k = some .running := by
  obtain ⟨job, hjob, rfl⟩ := Option.map_eq_some_iff.mp h
  obtain ⟨q, _, _, hget, heq⟩ := startNext_job w e hjob
  have hstarted := getJob_started w e job q job.jobId
  rw [if_pos rfl, hget] at hstarted
  rw [heq, statusOf_some hstarted]
  rfl

end

/-! ## Active channels -/

/-- All participants of the active channels are running. -/
def Attended (e : OrchestratorEngine) : Prop :=
  ∀ chId ch, e.store.getChannel chId = some ch → ch.active = true →
    ∀ k ∈ ch.participants, e.statusOf k = some .running

/-- The action starts the job, or it closes the channel or puts a new one in its place. -/
def Restores (k : JobId) (chId : ChannelId) (c : Core) (x : World × Action) : Prop :=
  match x.2 with
  | .call _ (.handleChannelPeerFailure ch _) => ch = chId
  | .call _ (.acceptPlan r _ plan) =>
    chId ∈ (planChannels x.1 c.engine.ids r plan).map (·.channelId)
  | .call _ f => f.Starts x.1 c.engine k
  | _ => False

instance (k : JobId) (chId : ChannelId) (c : Core) (x : World × Action) :
    Decidable (Restores k chId c x) := by
  obtain ⟨w, ⟨r₀, f⟩ | _⟩ := x
  · rcases f with _ | _ <;> dsimp only [Restores] <;> infer_instance
  all_goals
    dsimp only [Restores]
    infer_instance

/-- For each active channel of a job that completes or fails, a later action of the step
starts the job again or closes the channel. -/
def Attends (c : Core) (x : World × Action) (rest : List (World × Action)) : Prop :=
  match x.2 with
  | .call _ f => ∀ k ∈ f.stops x.1 c.engine, ∀ ch ∈ c.engine.store.channelsForJob x.1 k,
      Occurs coreStep (Restores k ch.channelId) (coreStep c x) rest
  | _ => True

instance (c : Core) (x : World × Action) (rest : List (World × Action)) :
    Decidable (Attends c x rest) := by
  obtain ⟨w, ⟨r₀, f⟩ | _⟩ := x
  all_goals
    dsimp only [Attends]
    infer_instance

/-- In the middle of a step a participant may be on its way back. -/
def AttendedUntil (c : Core) (rest : List (World × Action)) : Prop :=
  ∀ chId ch, c.engine.store.getChannel chId = some ch → ch.active = true →
    ∀ k ∈ ch.participants, c.engine.statusOf k = some .running ∨
      Occurs coreStep (Restores k chId) c rest

/-- A closed channel is not active. -/
def Channel.Shut (c : Channel) : Prop := c.closed = true → c.active = false

theorem kept_shut : Kept Channel.Shut where
  new := fun _ hnew _ => hnew.active
  moved := by
    intro w ch ch' h hmoved
    cases hmoved with
    | same => exact h
    | activated _ hopen =>
      intro hclosed
      rw [show ch.activate.closed = ch.closed from rfl, hopen] at hclosed
      cases hclosed
    | routed j content =>
      unfold Channel.routed
      split
      · split
        · exact fun _ => rfl
        · exact h
      · exact h
    | closed => exact fun _ => rfl
  recover := by
    intro ch h
    unfold Channel.recover
    split
    · exact h
    · exact fun _ => rfl

section
variable {w : World} {e : OrchestratorEngine} {db : Option SqlitePersistence}
  {rest : List (World × Action)}

/-- What makes up for a lost participant is worth it. -/
theorem restores_call {r : RunId} {f : Call} {k : JobId} {chId : ChannelId} {ch : Channel}
    (h : Restores k chId ⟨e, db⟩ (w, .call r f))
    (hch : (f.apply w e).store.getChannel chId = some ch) (hactive : ch.active = true) :
    (f.apply w e).statusOf k = some .running := by
  cases f with
  | startNext => exact statusOf_startNext h
  | handleChannelPeerFailure ch₀ j =>
    have hid : ch₀ = chId := h
    have hget := (getChannel_peerFailure e ch₀ j chId).symm.trans hch
    rw [if_pos hid.symm] at hget
    obtain ⟨_, _, rfl⟩ := Option.map_eq_some_iff.mp hget
    cases hactive
  | acceptPlan r' p plan =>
    rcases getChannel_acceptPlan_cases hch with hmem | ⟨hno, _⟩
    · rw [(new_planChannels hmem).active] at hactive
      cases hactive
    · exact absurd h hno
  | _ => cases h

theorem attended_call {r : RunId} {f : Call} (hg : Grounded e)
    (hl : Legal ⟨e, db⟩ (w, .call r f)) (h : AttendedUntil ⟨e, db⟩ ((w, .call r f) :: rest))
    (hok : Attends ⟨e, db⟩ (w, .call r f) rest) : AttendedUntil ⟨f.apply w e, db⟩ rest := by
  intro chId ch' hch' hactive k hk
  rcases channel_change w e f hch' with ⟨ch, hch, hmoved, hact⟩ | hnew
  · have hparts : ch'.participants = ch.participants := hmoved.between.2
    rw [hparts] at hk
    rcases hact hactive with hactive₀ | ⟨rfl, hall⟩
    · rcases h chId ch hch hactive₀ k hk with hrun | hnow | hlater
      · by_cases hstop : k ∈ f.stops w e
        · have hmem : ch ∈ e.store.channelsForJob w k := by
            have hid := RunStore.channelId_of_getChannel hch
            exact RunStore.mem_channelsForJob.mpr ⟨hid.symm ▸ hch, hactive₀, hk⟩
          have hback := hok k hstop ch hmem
          rw [RunStore.channelId_of_getChannel hch] at hback
          exact Or.inr hback
        · exact Or.inl ((status_call hg hl k).running hrun hstop)
      · exact Or.inl (restores_call hnow hch' hactive)
      · exact Or.inr hlater
    · left
      rw [allRunning, List.all_eq_true] at hall
      have hrun := hall k hk
      show (e.activateReadyChannels w).2.statusOf k = _
      rw [statusOf_congr ((channelStep_activate (w := w)).frame.getJob k), statusOf]
      cases hjob : e.store.getJob k with
      | none =>
        rw [hjob] at hrun
        cases hrun
      | some job =>
        rw [hjob] at hrun
        exact congrArg some (beq_iff_eq.mp hrun)
  · rw [hnew.new.active] at hactive
    cases hactive

theorem attended_expire (hg : Grounded e) {r : RunId}
    (h : AttendedUntil ⟨e, db⟩ ((w, .expire r) :: rest)) :
    AttendedUntil (coreStep ⟨e, db⟩ (w, .expire r)) rest := by
  intro chId ch hch hactive k hk
  obtain ⟨hch₀, hr⟩ := getChannel_expire.mp hch
  obtain ⟨job, hjob, hjr⟩ := (hg.channelHome chId ch hch₀).2 k hk
  rcases h chId ch hch₀ hactive k hk with hrun | hnow | hlater
  · left
    have hjob' : (e.removeRun w r).store.getJob k = some job :=
      getJob_expire.mpr ⟨hjob, hjr ▸ hr⟩
    show (e.removeRun w r).statusOf k = _
    rw [statusOf_congr (hjob'.trans hjob.symm)]
    exact hrun
  · exact absurd hnow (fun h => h)
  · exact Or.inr hlater

/-- No channel is active when a process starts. -/
theorem inactive_hydrate {c : Core} (hq : EveryChannel Channel.Shut c) (w : World)
    {chId : ChannelId} {ch : Channel}
    (hch : (c.act w .hydrate).engine.store.getChannel chId = some ch) : ch.active = false := by
  have hshut := (everyChannel_hydrate kept_shut hq w).engine chId ch hch
  obtain ⟨e, db⟩ := c
  cases db with
  | none => cases hch
  | some db =>
    obtain ⟨ch₀, _, rfl⟩ := Option.map_eq_some_iff.mp ((getChannel_hydrate chId).symm.trans hch)
    unfold Channel.recover at hshut ⊢
    split at hshut
    · rename_i hclosed
      rw [if_pos hclosed]
      exact hshut hclosed
    · rename_i hopen
      rw [if_neg hopen]

theorem attended_hydrate {c : Core} (hq : EveryChannel Channel.Shut c) (w : World) :
    Attended (c.act w .hydrate).engine := by
  intro chId ch hch hactive
  rw [inactive_hydrate hq w hch] at hactive
  cases hactive

theorem attended_act (c : Core) (x : World × Action) (rest : List (World × Action))
    (hs : Sound c) (hq : EveryChannel Channel.Shut c) (hl : Legal c x)
    (h : AttendedUntil c (x :: rest)) (hok : Attends c x rest) :
    AttendedUntil (coreStep c x) rest := by
  obtain ⟨e, db⟩ := c
  obtain ⟨w, a⟩ := x
  have hdrop : (∀ k chId, ¬ Restores k chId ⟨e, db⟩ (w, a)) → AttendedUntil ⟨e, db⟩ ((w, a) :: rest) →
      ∀ chId ch, e.store.getChannel chId = some ch → ch.active = true → ∀ k ∈ ch.participants,
        e.statusOf k = some .running ∨
          Occurs coreStep (Restores k chId) (coreStep ⟨e, db⟩ (w, a)) rest := by
    intro hno h chId ch hch hactive k hk
    rcases h chId ch hch hactive k hk with hrun | hnow | hlater
    · exact Or.inl hrun
    · exact absurd hnow (hno k chId)
    · exact Or.inr hlater
  cases a with
  | call r f => exact attended_call hs.grounded hl h hok
  | persistRunState r => exact hdrop (fun _ _ h => h) h
  | persistArtifact artifact => exact hdrop (fun _ _ h => h) h
  | genId pre => exact hdrop (fun _ _ h => h) h
  | expire r => exact attended_expire hs.grounded h
  | hydrate =>
    intro chId ch hch hactive k hk
    exact Or.inl (attended_hydrate hq w chId ch hch hactive k hk)

end

/-! ## Runs of the daemon -/

/-- The actions of one step, taken one after the other. -/
theorem attended_actions (c : Core) (l : List (World × Action)) (hs : Sound c)
    (hq : EveryChannel Channel.Shut c) (hl : Meets coreStep Legal c l) (h : Attended c.engine)
    (hok : MeetsRest coreStep Attends c l) : Attended (run coreStep c l).engine := by
  have hkeep : ∀ c x rest, (Sound c ∧ EveryChannel Channel.Shut c ∧ AttendedUntil c (x :: rest)) →
      (Legal c x ∧ Attends c x rest) → Sound (coreStep c x) ∧
        EveryChannel Channel.Shut (coreStep c x) ∧ AttendedUntil (coreStep c x) rest := by
    intro c x rest hc hx
    exact ⟨sound_act hc.1 hx.1, everyChannel_act kept_shut c x hc.2.1,
      attended_act c x rest hc.1 hc.2.1 hx.1 hc.2.2 hx.2⟩
  have hend := run_invariant_rest
    (P := fun c rest => Sound c ∧ EveryChannel Channel.Shut c ∧ AttendedUntil c rest) hkeep
    ⟨hs, hq, fun chId ch hch hactive k hk => Or.inl (h chId ch hch hactive k hk)⟩
    (MeetsRest.and_meets hl hok)
  intro chId ch hch hactive k hk
  exact (hend.2.2 chId ch hch hactive k hk).resolve_right (fun h => h)

/-- As long as every step makes up for the participants it takes away, an active channel has
only running ones. -/
theorem attended_run (persistent : Bool) (sandboxOverride : Option Bool) (capsule : Bool)
    (is : List (World × Input))
    (h : Meets Daemon.step (GuardedRest Attends)
      (Daemon.off persistent sandboxOverride capsule) is) :
    (run Daemon.step (Daemon.off persistent sandboxOverride capsule) is).alive = true →
      Attended (run Daemon.step (Daemon.off persistent sandboxOverride capsule) is).engine := by
  refine alive_run (P := fun c => Attended c.engine) (Q := EveryChannel Channel.Shut)
    (fun c x _ _ hq => everyChannel_act kept_shut c x hq) ?_ ?_ (sound_off ..)
    (everyChannel_off ..) ?_ h
  · exact fun c w _ hq _ => attended_hydrate hq w
  · exact fun c l hs hq hl _ hp hok => attended_actions c l hs hq hl hp hok
  · intro halive
    cases halive

/-- Job `a` fails, and its peer `b` is killed while their second channel is still active.
By the end of the step both channels are closed. -/
theorem attended_run_peerKilledTwice :
    Attended (run Daemon.step (Daemon.off true none false) peerKilledTwice).engine :=
  attended_run true none false peerKilledTwice (by decide) (by decide)

/-! ## A peer that talks to a third job -/

/-- Six jobs, of which `a` talks to `b` and `b` to `c`. -/
def overlapPlan : ExecutionPlan where
  jobs := ["a", "b", "c", "d", "e", "f"].map (fun l =>
    { localId := l, role := "coder", profileId := "coder", instruction := "write",
      dependsOn := [] })
  channels := [("x", ["a", "b"]), ("y", ["b", "c"])].map (fun c =>
    { channelId := c.1, participants := c.2, mode := .turnBased, maxRounds := none,
      onPeerFailure := .killAll, initialMessage := none })

def peerKilled : List (World × Input) :=
  [(plannerWorld overlapPlan, .start), (plannerWorld overlapPlan, .command (.submitRun "task")),
    (plannerWorld overlapPlan, artifactEvent "job_1_1" "plan"),
    (plannerWorld overlapPlan, completedEvent "job_1_1" ["plan"]),
    (plannerWorld overlapPlan, failedEvent "job_1_2")]

/-- Job `a` fails and takes `b` with it. Two other jobs are ahead of `b` in the queue, and
its channel with `c` stays active while it waits. -/
theorem not_attended_peerKilled :
    Meets Daemon.step Clocked (Daemon.off true none false) peerKilled ∧
      (run Daemon.step (Daemon.off true none false) peerKilled).alive = true ∧
      ¬ Attended (run Daemon.step (Daemon.off true none false) peerKilled).engine := by
  refine ⟨by decide, by decide, fun h => ?_⟩
  obtain ⟨ch, hch, heq⟩ := Option.map_eq_some_iff.mp (show
    ((run Daemon.step (Daemon.off true none false) peerKilled).engine.store.getChannel
      "run_1_0:y").map (fun ch => (ch.active, ch.participants)) =
        some (true, ["job_1_3", "job_1_4"]) by decide)
  have hrun := h "run_1_0:y" ch hch (congrArg Prod.fst heq) "job_1_3" (by
    rw [show ch.participants = ["job_1_3", "job_1_4"] from congrArg Prod.snd heq]
    exact List.mem_cons_self)
  revert hrun
  decide

end ZeptoPM
